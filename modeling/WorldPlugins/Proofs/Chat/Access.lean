import WorldPlugins.Proofs.Chat.Additions

/-! # Access lists under changes of members

A change of members keeps who may see or join a channel, unless the stored attribute has several fields under one
name that disagree: reading takes the first of them and writing keeps the last.
-/

namespace WorldPlugins.Chat

/-- After a call that changes the members of a stored channel, the channel can be read again; if anything was
written, its access lists are those of the last fields of their names.  So they are the same as before if the first
and the last field of each of these names hold the same names, whatever else the attribute holds in whatever order. -/
theorem access_of_membersChange (config : Config) (name : String) (s : Store) (a : Attr) (c : Channel)
    (input : Text.Raw) (call : Call) (hcall : Plugin.callOf? input = some call)
    (hchange : (Command.ofCall call).changesMembers name = true)
    (hattr : s.attr? call.extension name = some a) (hread : Channel.ofAttr a = .ok c) :
    ∃ fields b d, a.listValue = .ok fields ∧
      (plugin.serve config Store.exchange input s).state.attr? call.extension name = some b ∧
      Channel.ofAttr b = .ok d ∧ (b = a ∨ d.acl = Channel.fieldAccess fields.reverse) ∧
      (Channel.fieldAccess fields.reverse = Channel.fieldAccess fields → d.acl = c.acl) := by
  obtain ⟨fields, hfields, hc⟩ := (Channel.ofAttr_eq_ok_iff a c).mp hread
  have hacl : c.acl = Channel.fieldAccess fields := by rw [hc]
  have hcommand : Command.ofCall call ≠ .observe := by
    intro hobserve
    rw [hobserve] at hchange
    cases hchange
  rw [(serve_command hcall hcommand s).2]
  rcases told_or_rewritten hchange with ⟨messages, htold⟩ | ⟨names, hwritten⟩
  · rw [htold]
    exact ⟨fields, a, c, hfields, hattr, hread, .inl rfl, fun _ => rfl⟩
  · obtain ⟨b, hb, hd⟩ := read_of_rewritten hwritten hattr hfields
    refine ⟨fields, b, _, hfields, hb, hd, .inr rfl, ?_⟩
    intro hsame
    rw [hacl]
    exact hsame

def addCarol : Text.Raw := Plugin.textOfCall "chatadmin" "\"add_member\",\"Carol\",\"#staff\""

private theorem callOf?_addCarol :
    Plugin.callOf? addCarol = some ⟨"call", "chatadmin", "ext", ["add_member", "Carol", "#staff"]⟩ := by
  simp only [addCarol, Plugin.textOfCall, Text.Raw.ofString, String.toList_append, String.reduceToList]
  decide +kernel

def staffTwice : Attr := .list "#staff" [.string "visPlayers" "Bob", .string "motd" "", .string "visPlayers" "Bob"]

/-- Carol is added, and still only Bob may see the channel. -/
theorem access_of_membersChange_staff :
    ∃ b d, (plugin.serve Config.standard Store.exchange addCarol (Store.empty.withAttr "ext" staffTwice)).state.attr?
        "ext" "#staff" = some b ∧ Channel.ofAttr b = .ok d ∧ d.acl = ⟨⟨[], ["Bob"]⟩, .unrestricted⟩ := by
  have hattr : (Store.empty.withAttr "ext" staffTwice).attr? "ext" "#staff" = some staffTwice :=
    Store.attr?_withAttr_self Store.empty "ext" staffTwice
  have hread : Channel.ofAttr staffTwice = .ok ⟨"#staff", [], ⟨⟨[], ["Bob"]⟩, .unrestricted⟩⟩ :=
    (Channel.ofAttr_eq_ok_iff _ _).mpr ⟨_, Attr.listValue_list _ _, by decide⟩
  have hchange : (Command.ofCall ⟨"call", "chatadmin", "ext", ["add_member", "Carol", "#staff"]⟩).changesMembers
      "#staff" = true := by decide
  have h := access_of_membersChange Config.standard "#staff" (Store.empty.withAttr "ext" staffTwice) staffTwice _
    addCarol _ callOf?_addCarol hchange hattr hread
  obtain ⟨fields, b, d, hfields, hb, hd, -, hsame⟩ := h
  cases (Attr.listValue_list "#staff" _).symm.trans hfields
  exact ⟨b, d, hb, hd, hsame (by decide)⟩

/-- A stored channel with two fields for the players who may see it: the first closes it, the second opens it. -/
def staff : Attr := .list "#staff" [.string "visPlayers" "Bob", .string "visPlayers" ""]

def staffWorld : Store := Store.empty.withAttr "ext" staff

private theorem attr?_staffWorld : staffWorld.attr? "ext" "#staff" = some staff :=
  Store.attr?_withAttr_self Store.empty "ext" staff

private theorem ofAttr_staff : Channel.ofAttr staff = .ok ⟨"#staff", [], ⟨⟨[], ["Bob"]⟩, .unrestricted⟩⟩ :=
  (Channel.ofAttr_eq_ok_iff _ _).mpr ⟨_, Attr.listValue_list _ _, by decide⟩

private theorem channel_staffWorld :
    staffWorld.channel "ext" "#staff" = .ok ⟨"#staff", [], ⟨⟨[], ["Bob"]⟩, .unrestricted⟩⟩ := by
  rw [Store.channel_eq_ok_iff, Store.channel?_eq_some_iff]
  refine ⟨rfl, staff, ?_, ofAttr_staff⟩
  exact (Store.fetch_eq_ok_iff _ _ _ _).mpr ⟨by decide, by decide, rfl, attr?_staffWorld⟩

/-- Adding a member can open a channel: only Bob could see this one, and then everyone can. -/
theorem adding_opens_staff :
    let played := plugin.serve Config.standard Store.exchange addCarol staffWorld
    played.value.isSuccess = true ∧
      staffWorld.attr? "ext" "#staff" = some staff ∧
      Channel.ofAttr staff = .ok ⟨"#staff", [], ⟨⟨[], ["Bob"]⟩, .unrestricted⟩⟩ ∧
      ∃ b, played.state.attr? "ext" "#staff" = some b ∧
        Channel.ofAttr b = .ok ⟨"#staff", ["Carol"], .unrestricted⟩ := by
  have hcommand : Command.ofCall ⟨"call", "chatadmin", "ext", ["add_member", "Carol", "#staff"]⟩ ≠ .observe := by
    decide
  have haddition : (Command.ofCall ⟨"call", "chatadmin", "ext", ["add_member", "Carol", "#staff"]⟩).addition?
      staffWorld.caller = some ("#staff", "Carol") := by decide
  obtain ⟨hvalue, hstate⟩ := @serve_command Config.standard _ _ callOf?_addCarol hcommand staffWorld
  have hok := (isOk_addition_iff (p := Config.standard.privilege) haddition attr?_staffWorld ofAttr_staff).mpr
    ⟨channel_staffWorld, by decide, rfl⟩
  have hwritten := rewritten_of_addition (addition_of_command haddition) attr?_staffWorld ofAttr_staff hok (by decide)
  obtain ⟨b, hb, hread⟩ := read_of_rewritten hwritten attr?_staffWorld (Attr.listValue_list _ _)
  dsimp only
  rw [hvalue, hstate]
  refine ⟨hok, attr?_staffWorld, ofAttr_staff, b, hb, hread.trans ?_⟩
  decide

end WorldPlugins.Chat
