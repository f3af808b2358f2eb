import WorldPlugins.Proofs.Chat.Codec
import WorldPlugins.Proofs.Chat.Commands
import WorldPlugins.Proofs.Chat.RoundTrips
import WorldPlugins.Proofs.Store.Orderly
import WorldPlugins.Proofs.Store.Reliable

/-! # Opening and closing channels

`set_visibility` and `set_joinability` apply all of their arguments or none.  What is stored after them is read as the
channel with the parts of one access list set, however the channel was stored before; and if an argument is not one that
sets a part, nothing is written at all.
-/

namespace WorldPlugins.Chat

open Session (outcome Quiet quiet_bind quiet_throw)

def settingSubcommand : Action → String
  | .see => "set_visibility"
  | .join => "set_joinability"

variable {config : Config} {call : Call} {action : Action} {name : String} {arguments : List String}
  {s : Store} {a : Attr} {c : Channel} {list : AccessList}

/-- A channel that was read is read back after arguments have been applied to it. -/
theorem ofAttr_toAttr_withList (hread : Channel.ofAttr a = .ok c)
    (h : arguments.foldlM Channel.setByArgument (c.acl.list action) = .ok list) :
    Channel.ofAttr (c.withList action list).toAttr = .ok (c.withList action list) := by
  have hold : ∀ names ∈ c.nameLists, NameList.split (NameList.join names) = names := by
    intro names hnames
    obtain ⟨text, rfl⟩ := Channel.nameLists_eq_split hread names hnames
    rw [NameList.join_split]
  rw [Channel.ofAttr_toAttr_eq, Channel.mapNames_eq_self_iff.mpr]
  intro names hnames
  rcases Channel.mem_nameLists_iff.mp hnames with rfl | ⟨other, part, rfl⟩
  · exact hold c.members (Channel.mem_nameLists_iff.mpr (.inl rfl))
  have hpart := hold _ (Channel.mem_nameLists_iff.mpr (.inr ⟨other, part, rfl⟩))
  by_cases hother : other = action
  · subst hother
    rw [Channel.list_withList_self]
    exact ((lastSet_of_foldlM h).2 part).induct (fun names => NameList.split (NameList.join names) = names) hpart
      fun _ => NameList.split_join_of_storable
  · rw [Channel.list_withList_of_ne c action hother]
    exact hpart

private theorem handler?_setting (hmethod : call.method = "chatadmin")
    (harguments : call.arguments = settingSubcommand action :: name :: arguments) (hsome : arguments ≠ []) :
    plugin.handler? config call = some (Admin.setAccess ⟨call, config⟩ action name arguments) := by
  obtain ⟨argument, rest, rfl⟩ := List.exists_cons_of_ne_nil hsome
  have hsubcommand : AdminCommand.ofName? (settingSubcommand action) = some (.setAccess action) := by
    cases action <;> rfl
  rw [handler?_admin hmethod harguments hsubcommand]
  simp only [AdminCommand.run, harguments]

/-- The channel that is stored under a name is found where nothing is made to fail. -/
theorem channel_of_reliable {extension : String} (hs : s.Reliable) (hextension : extension ≠ "")
    (hname : Channel.isChannelName name = true) (hattr : s.attr? extension name = some a)
    (hread : Channel.ofAttr a = .ok c) : s.channel extension name = .ok c := by
  rw [s.channel_eq_ok_iff, s.channel?_eq_some_iff]
  exact ⟨hname, a, hs.fetch_of_some hextension (Channel.ne_empty_of_isChannelName hname) hattr, hread⟩

/-- A channel that is found is stored with the arguments applied, and the caller is told. -/
private theorem restricted_of_ok {extension : String} (hs : s.Reliable) (hextension : extension ≠ "")
    (hc : s.channel extension name = .ok c) (hname : c.name ≠ "")
    (h : arguments.foldlM Channel.setByArgument (c.acl.list action) = .ok list) :
    restricted extension action name arguments s =
      (.ok (.string ""), (s.withAttr extension (c.withList action list).toAttr).deliver
        ⟨s.caller, some ("Updated channel " ++ c.name), none, none, none⟩) := by
  have hwritten : s.write extension (c.withList action list).toAttr =
      (.ok (), s.withAttr extension (c.withList action list).toAttr) := hs.write hextension hname
  have hreliable : (s.withAttr extension (c.withList action list).toAttr).Reliable := hs
  have htold := hreliable.send .sendMessageToCaller
    ⟨s.caller, some ("Updated channel " ++ c.name), none, none, none⟩
  rw [restricted, hc]
  dsimp only
  rw [Channel.applyArguments_eq_ok_iff.mpr ⟨list, h, rfl⟩]
  dsimp only
  rw [hwritten, reported, Store.tell]
  exact congrArg answered htold

private theorem restricted_of_error {extension : String} {e : ArgumentError}
    (hc : s.channel extension name = .ok c)
    (h : arguments.foldlM Channel.setByArgument (c.acl.list action) = .error e) :
    restricted extension action name arguments s = (.error (.argument e), s) := by
  rw [restricted, hc]
  dsimp only
  rw [Channel.applyArguments_eq, h]
  rfl

/-- Nothing is written for arguments that are refused. -/
private theorem quiet_setAccess (ctx : Context) {e : ArgumentError} (hc : s.channel ctx.extension name = .ok c)
    (h : arguments.foldlM Channel.setByArgument (c.acl.list action) = .error e) :
    Quiet s (Admin.setAccess ctx action name arguments).run := by
  refine quiet_bind (reads_get ctx name) fun found hfound => ?_
  rw [outcome_get] at hfound
  cases hc.symm.trans hfound
  rw [Channel.applyArguments_eq, h]
  exact quiet_throw s _

/-- A call that opens or closes a stored channel succeeds if and only if each of its arguments sets a part.  Then the
attribute that is stored under the name is read as the channel with the parts of this one access list set, each by the
last argument for it, and the caller is told.  Otherwise the caller gets a failure of wrong arguments, the world is as it
was, and no change was asked for. -/
theorem settings_all_or_nothing {input : Text.Raw} (hcall : Plugin.callOf? input = some call)
    (hmethod : call.method = "chatadmin")
    (harguments : call.arguments = settingSubcommand action :: name :: arguments) (hsome : arguments ≠ [])
    (hs : s.Reliable) (hextension : call.extension ≠ "") (hname : Channel.isChannelName name = true)
    (hattr : s.attr? call.extension name = some a) (hread : Channel.ofAttr a = .ok c) :
    let played := plugin.serve config Store.exchange input s
    (played.value.isSuccess = true ↔ ∀ argument ∈ arguments, IsSetting argument) ∧
      (played.value.isSuccess = true → ∃ b d, Channel.ofAttr b = .ok d ∧ Reset action arguments c d ∧
        played.state.attr? call.extension name = some b ∧
        played.state = (s.withAttr call.extension b).deliver
          ⟨s.caller, some ("Updated channel " ++ name), none, none, none⟩) ∧
      (played.value.isSuccess = false →
        (∃ id message, played.value = .failure id (.make (-32602) message)) ∧ played.state = s ∧
          ∀ r ∈ played.sent, ¬ r.Changes) := by
  have hhandler := @handler?_setting config _ _ _ _ hmethod harguments hsome
  obtain ⟨id, hserve⟩ := Plugin.serve_handled hcall hhandler
  obtain ⟨hvalue, hstate⟩ := hserve s
  rw [outcome_setAccess] at hvalue hstate
  have hc := channel_of_reliable hs hextension hname hattr hread
  obtain ⟨-, -, -, -, hfound⟩ := stored_of_channel hc
  dsimp only
  cases hset : arguments.foldlM Channel.setByArgument (c.acl.list action) with
  | ok list =>
    obtain ⟨hall, -⟩ := lastSet_of_foldlM hset
    have hne : c.name ≠ "" := by
      rw [hfound]
      exact Channel.ne_empty_of_isChannelName hname
    have heffect := restricted_of_ok hs hextension hc hne hset
    have hstored := Store.attr?_withAttr_self s call.extension (c.withList action list).toAttr
    rw [hfound] at heffect
    rw [show (c.withList action list).toAttr.name = name from hfound] at hstored
    rw [hvalue, hstate]
    dsimp only [Context.extension]
    rw [heffect]
    exact ⟨⟨fun _ => hall, fun _ => rfl⟩, fun _ => ⟨_, _, ofAttr_toAttr_withList hread hset, reset_withList hset,
      hstored, rfl⟩, nofun⟩
  | error e =>
    have hnot : ¬ ∀ argument ∈ arguments, IsSetting argument := by
      intro hall
      obtain ⟨changed, hok⟩ := exists_foldlM_eq_ok hall (c.acl.list action)
      cases hset.symm.trans hok
    have heffect := restricted_of_error hc hset
    rw [hvalue, hstate]
    dsimp only [Context.extension]
    rw [heffect]
    refine ⟨⟨nofun, fun hall => absurd hall hnot⟩, nofun, fun _ => ⟨⟨id, _, rfl⟩, rfl, ?_⟩⟩
    rw [Plugin.sent_handled hcall hhandler]
    exact quiet_setAccess ⟨call, config⟩ hc hset call.id 1

def openStaff : Text.Raw :=
  Plugin.textOfCall "chatadmin" "\"set_joinability\",\"#staff\",\"roles=cooks\",\"players=Ann,Bob\",\"roles=\""

def openStaffTo : Text.Raw :=
  Plugin.textOfCall "chatadmin" "\"set_joinability\",\"#staff\",\"roles=cooks\",\"guests=Ann\""

private theorem callOf?_openStaff : Plugin.callOf? openStaff = some ⟨"call", "chatadmin", "ext",
    ["set_joinability", "#staff", "roles=cooks", "players=Ann,Bob", "roles="]⟩ := by
  simp only [openStaff, Plugin.textOfCall, Text.Raw.ofString, String.toList_append, String.reduceToList]
  decide +kernel

private theorem callOf?_openStaffTo : Plugin.callOf? openStaffTo = some ⟨"call", "chatadmin", "ext",
    ["set_joinability", "#staff", "roles=cooks", "guests=Ann"]⟩ := by
  simp only [openStaffTo, Plugin.textOfCall, Text.Raw.ofString, String.toList_append, String.reduceToList]
  decide +kernel

/-- The last argument for the roles clears them; and no argument is applied if one of them sets nothing. -/
theorem settings_all_or_nothing_staff :
    let world := Store.empty.withAttr "ext" Channel.untidy
    (∃ b d, (plugin.serve Config.standard Store.exchange openStaff world).state.attr? "ext" "#staff" = some b ∧
        Channel.ofAttr b = .ok d ∧ Reset .join ["roles=cooks", "players=Ann,Bob", "roles="]
          ⟨"#staff", ["Bob", "Alice"], ⟨⟨[], []⟩, ⟨["guests"], []⟩⟩⟩ d) ∧
      (plugin.serve Config.standard Store.exchange openStaffTo world).state = world := by
  have hattr : (Store.empty.withAttr "ext" Channel.untidy).attr? "ext" "#staff" = some Channel.untidy :=
    Store.attr?_withAttr_self Store.empty "ext" Channel.untidy
  have hreliable : (Store.empty.withAttr "ext" Channel.untidy).failures = [] := rfl
  obtain ⟨hiff, hstored, -⟩ := @settings_all_or_nothing Config.standard _ .join _ _ _ _ _ _ callOf?_openStaff rfl rfl
    (List.cons_ne_nil _ _) hreliable (by decide) rfl hattr Channel.ofAttr_untidy
  obtain ⟨hiffTo, -, hkept⟩ := @settings_all_or_nothing Config.standard _ .join _ _ _ _ _ _ callOf?_openStaffTo rfl rfl
    (List.cons_ne_nil _ _) hreliable (by decide) rfl hattr Channel.ofAttr_untidy
  have hsucceeds := hiff.mpr (by decide)
  have hfails := Bool.eq_false_iff.mpr fun h => absurd (hiffTo.mp h) (by decide)
  obtain ⟨b, d, hd, hreset, hb, -⟩ := hstored hsucceeds
  exact ⟨⟨b, d, hb, hd, hreset⟩, (hkept hfails).2.1⟩

end WorldPlugins.Chat
