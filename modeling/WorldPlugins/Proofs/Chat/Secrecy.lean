import WorldPlugins.Proofs.Chat.Outcomes
import WorldPlugins.Proofs.Plugin.Serving

/-! # Hidden channels

Through `chat` a channel that the caller may not see cannot be told from one that does not exist.  Two worlds are
compared, one with the channel and one without it: every subcommand gives the same result in both, leaves the
channel alone, and changes nothing else differently.  By induction this goes on for any number of calls.
-/

namespace WorldPlugins.Chat

open Session (outcome)

/-- A stored channel that the caller, who can be told, may not see. -/
structure Hidden (p : Privilege) (extension name : String) (s : Store) : Prop where
  caller : s.fetchCaller = .ok s.caller
  channel : ∃ a c, s.attr? extension name = some a ∧ Channel.ofAttr a = .ok c ∧ s.lets p .see c.acl s.caller = false

/-- What stays in a world that is changed without touching an attribute. -/
structure Spares (extension name : String) (s t : Store) : Prop where
  attr : t.attr? extension name = s.attr? extension name
  caller : t.caller = s.caller
  roles : t.roles = s.roles
  failures : t.failures = s.failures

/-- A step that does the same with an attribute and without it, and leaves it alone. -/
structure Unaware {α : Type} (extension name : String) (s : Store) (x : Store → α × Store) : Prop where
  same : x (s.without extension name) = ((x s).1, (x s).2.without extension name)
  spares : Spares extension name s (x s).2

variable {p : Privilege} {extension name other rest : String} {s t : Store}

theorem Spares.refl (extension name : String) (s : Store) : Spares extension name s s := ⟨rfl, rfl, rfl, rfl⟩

theorem Spares.trans {u : Store} (h : Spares extension name s t) (k : Spares extension name t u) :
    Spares extension name s u :=
  ⟨k.attr.trans h.attr, k.caller.trans h.caller, k.roles.trans h.roles, k.failures.trans h.failures⟩

theorem Hidden.of_spares (h : Hidden p extension name s) (k : Spares extension name s t) :
    Hidden p extension name t := by
  obtain ⟨a, c, ha, hc, hdenied⟩ := h.channel
  refine ⟨?_, a, c, k.attr.trans ha, hc, ?_⟩
  · have hcaller := h.caller
    rw [Store.fetchCaller, Store.fault?] at hcaller ⊢
    rw [k.failures, k.caller]
    exact hcaller
  · rw [k.caller, Store.lets_congr p .see c.acl s.caller k.failures k.roles]
    exact hdenied

theorem fetch_without_of_ne (hthing : s.thing? extension = some (s.attributes extension))
    (h : ¬ (other = extension ∧ rest = name)) :
    (s.without extension name).fetch other rest = s.fetch other rest := by
  by_cases hother : other = extension
  · subst hother
    have hrest : rest ≠ name := fun hrest => h ⟨rfl, hrest⟩
    have hfind : ((s.attributes other).filter fun a => a.name != name).find? (fun a => a.name == rest) =
        (s.attributes other).find? fun a => a.name == rest := by
      rw [← Store.attributes_without_self]
      exact Store.attr?_without_of_ne s h
    have hfault : (s.without other name).fault? .getAttr = s.fault? .getAttr := rfl
    have hfound : (s.without other name).thing? other =
        some ((s.attributes other).filter fun a => a.name != name) := Store.thing?_setAttributes_self s other _
    rw [Store.fetch, hfault, hfound, Store.fetch, hthing]
    simp only [hfind]
  · have hfound : (s.without extension name).thing? other = s.thing? other :=
      Store.thing?_setAttributes_of_ne s hother _
    have hfailures : (s.without extension name).failures = s.failures := rfl
    exact Store.fetch_congr hfailures hfound rest

theorem channel_without_of_ne (hthing : s.thing? extension = some (s.attributes extension))
    (h : ¬ (other = extension ∧ rest = name)) :
    (s.without extension name).channel other rest = s.channel other rest := by
  rw [Store.channel, Store.channel?, fetch_without_of_ne hthing h, Store.channel, Store.channel?]

theorem fetchNames_without_self (hthing : s.thing? extension = some (s.attributes extension)) :
    (s.without extension name).fetchNames extension =
      (s.fetchNames extension).map fun names => names.filter fun rest => rest != name := by
  have hfault : (s.without extension name).fault? .getAttrNames = s.fault? .getAttrNames := rfl
  have hfound : (s.without extension name).thing? extension =
      some ((s.attributes extension).filter fun a => a.name != name) := Store.thing?_setAttributes_self s extension _
  unfold Store.fetchNames
  rw [hfault, hfound, hthing]
  split
  · rfl
  cases s.fault? .getAttrNames with
  | some e => rfl
  | none =>
    simp only [Except.map, List.filter_map]
    rfl

theorem fetchNames_without_of_ne (h : other ≠ extension) :
    (s.without extension name).fetchNames other = s.fetchNames other := by
  have hfault : (s.without extension name).fault? .getAttrNames = s.fault? .getAttrNames := rfl
  have hfound : (s.without extension name).thing? other = s.thing? other := Store.thing?_setAttributes_of_ne s h _
  rw [Store.fetchNames, hfault, hfound, Store.fetchNames]

namespace Hidden

variable (h : Hidden p extension name s)

include h

theorem thing? : s.thing? extension = some (s.attributes extension) := by
  obtain ⟨a, -, ha, -, -⟩ := h.channel
  exact s.thing?_eq_some_of_attr? extension name ha

/-- If a channel can be looked up at all, the hidden one is found and the caller may not see it. -/
theorem denied {c : Channel} (hc : s.channel extension name = .ok c) : s.lets p .see c.acl s.caller = false := by
  obtain ⟨b, d, hb, hd, hdenied⟩ := h.channel
  obtain ⟨a, -, ha, hread, -⟩ := stored_of_channel hc
  cases ha.symm.trans hb
  cases hread.symm.trans hd
  exact hdenied

/-- The hidden channel cannot be read for the same reason as if it did not exist, or only its absence tells. -/
private theorem fetch_cases :
    (∃ e, s.fetch extension name = .error e ∧ (s.without extension name).fetch extension name = .error e) ∨
      (∃ a, s.fetch extension name = .ok a) ∧
        ∃ e, (s.without extension name).fetch extension name = .error e ∧ e.isNotFound = true := by
  obtain ⟨a, -, ha, -, -⟩ := h.channel
  have hfault : (s.without extension name).fault? .getAttr = s.fault? .getAttr := rfl
  have hgone : ((s.attributes extension).filter fun a => a.name != name).find? (fun a => a.name == name) = none := by
    rw [← Store.attributes_without_self]
    exact s.attr?_without_self extension name
  have hfound : (s.without extension name).thing? extension =
      some ((s.attributes extension).filter fun a => a.name != name) := Store.thing?_setAttributes_self s extension _
  unfold Store.fetch
  rw [hfault, hfound, h.thing?]
  split
  · exact .inl ⟨_, rfl, rfl⟩
  split
  · exact .inl ⟨_, rfl, rfl⟩
  cases s.fault? .getAttr with
  | some e => exact .inl ⟨e, rfl, rfl⟩
  | none =>
    simp only [hgone]
    rw [Store.attr?] at ha
    rw [ha]
    exact .inr ⟨⟨a, rfl⟩, _, rfl, rfl⟩

/-- The hidden channel is seen as little as if it did not exist. -/
private theorem seen_self :
    (s.without extension name).seen p extension name = s.seen p extension name := by
  rcases h.fetch_cases with ⟨e, hthere, habsent⟩ | ⟨⟨a, hthere⟩, e, habsent, hnotFound⟩
  · have hchannel : (s.without extension name).channel? extension name = s.channel? extension name := by
      rw [Store.channel?, habsent, Store.channel?, hthere]
    have hfailed : ∃ e, s.channel extension name = .error e := by
      cases hc : s.channel extension name with
      | error e => exact ⟨e, rfl⟩
      | ok c =>
        obtain ⟨b, hb, -⟩ := stored_of_channel hc
        cases hthere.symm.trans hb
    obtain ⟨e, hfailed⟩ := hfailed
    have hsame : (s.without extension name).channel extension name = .error e := by
      rw [Store.channel, hchannel, ← hfailed, Store.channel]
    rw [Store.seen, hsame, Store.seen, hfailed]
  · by_cases hname : Channel.isChannelName name = true
    · have habsent : (s.without extension name).channel extension name = .error (.refused (.channelNotFound name)) := by
        rw [Store.channel, Store.channel?, if_pos hname, habsent]
        simp [hnotFound]
      obtain ⟨b, c, hb, hc, -⟩ := h.channel
      obtain ⟨-, -, -, ha⟩ := (s.fetch_eq_ok_iff extension name a).mp hthere
      cases ha.symm.trans hb
      have hchannel : s.channel extension name = .ok c :=
        (s.channel_eq_ok_iff extension name c).mpr
          ((s.channel?_eq_some_iff extension name c).mpr ⟨hname, a, hthere, hc⟩)
      rw [Store.seen, habsent, Store.seen, hchannel]
      dsimp only
      rw [h.caller]
      dsimp only
      rw [h.denied hchannel]
      rfl
    · have hmisused (u : Store) : u.channel extension name = .error (.argument .channelName) := by
        rw [Store.channel, Store.channel?, if_neg hname]
      rw [Store.seen, hmisused, Store.seen, hmisused]

theorem seen_without (other rest : String) :
    (s.without extension name).seen p other rest = s.seen p other rest := by
  by_cases hsame : other = extension ∧ rest = name
  · obtain ⟨rfl, rfl⟩ := hsame
    exact h.seen_self
  · have hlets (c : Channel) (caller : String) :
        (s.without extension name).lets p .see c.acl caller = s.lets p .see c.acl caller :=
      Store.lets_congr p .see c.acl caller rfl rfl
    have hcaller : (s.without extension name).fetchCaller = s.fetchCaller := rfl
    rw [Store.seen, channel_without_of_ne h.thing? hsame, hcaller, Store.seen]
    simp only [hlets]

/-- What the caller sees is not the hidden channel. -/
theorem ne_of_seen {c : Channel} {caller : String} (hseen : s.seen p other rest = .ok (c, caller)) :
    ¬ (other = extension ∧ c.name = name) := by
  obtain ⟨hc, hcaller, hsee⟩ := (s.seen_eq_ok_iff p other rest c caller).mp hseen
  rintro ⟨rfl, rfl⟩
  obtain ⟨-, -, -, -, hrest⟩ := stored_of_channel hc
  rw [← hrest] at hc
  cases h.caller.symm.trans hcaller
  have hdenied := h.denied hc
  rw [hsee] at hdenied
  cases hdenied

private theorem seenBy_self : s.seenBy p s.caller extension name = none := by
  rw [Store.seenBy]
  cases hc : s.channel extension name with
  | error e => rfl
  | ok c =>
    dsimp only
    rw [h.denied hc]
    rfl

private theorem seenBy_without_of_ne (hne : ¬ (other = extension ∧ rest = name)) :
    (s.without extension name).seenBy p s.caller other rest = s.seenBy p s.caller other rest := by
  have hlets (c : Channel) :
      (s.without extension name).lets p .see c.acl s.caller = s.lets p .see c.acl s.caller :=
    Store.lets_congr p .see c.acl s.caller rfl rfl
  rw [Store.seenBy, channel_without_of_ne h.thing? hne, Store.seenBy]
  simp only [hlets]

/-- The caller sees the same channels without the hidden one. -/
theorem visible_without (other : String) :
    (s.without extension name).visible p s.caller other = s.visible p s.caller other := by
  by_cases hother : other = extension
  · subst hother
    rw [Store.visible, fetchNames_without_self h.thing?, Store.visible]
    cases s.fetchNames other with
    | error e => rfl
    | ok names =>
      simp only [Except.map, Except.ok.injEq]
      induction names with
      | nil => rfl
      | cons rest names ih =>
        by_cases hrest : rest = name
        · subst hrest
          have hnone := h.seenBy_self
          by_cases hchannel : Channel.isChannelName rest = true
          · simpa [hchannel, hnone] using ih
          · simpa [hchannel] using ih
        · have hsame : (s.without other name).seenBy p s.caller other rest = s.seenBy p s.caller other rest :=
            h.seenBy_without_of_ne fun hsame => hrest hsame.2
          have hkept : (rest != name) = true := by simpa using hrest
          by_cases hchannel : Channel.isChannelName rest = true
          · simp only [List.filter_cons, hkept, hchannel, if_true, List.filterMap_cons, hsame, ih]
          · simpa [hchannel, hkept] using ih
  · have hseen (rest : String) :
        (s.without extension name).seenBy p s.caller other rest = s.seenBy p s.caller other rest :=
      h.seenBy_without_of_ne fun hsame => hother hsame.1
    rw [Store.visible, fetchNames_without_of_ne hother, Store.visible]
    simp only [hseen]

end Hidden

namespace Unaware

/-- A step that only reads what is the same without the attribute. -/
theorem ofReading {α : Type} (read : Store → α) (h : read (s.without extension name) = read s) :
    Unaware extension name s fun s => (read s, s) :=
  ⟨by rw [h], Spares.refl extension name s⟩

theorem send (method : StoreMethod) (message : Sent) : Unaware extension name s (Store.send method message) := by
  have hfault : (s.without extension name).fault? method = s.fault? method := rfl
  constructor
  · rw [Store.send, hfault, Store.send]
    cases s.fault? method <;> rfl
  · rw [Store.send]
    cases s.fault? method <;> exact ⟨rfl, rfl, rfl, rfl⟩

theorem write {attr : Attr} (h : ¬ (other = extension ∧ attr.name = name)) :
    Unaware extension name s (Store.write other attr) := by
  have hfault : (s.without extension name).fault? .setAttr = s.fault? .setAttr := rfl
  constructor
  · unfold Store.write
    rw [hfault]
    split
    · rfl
    split
    · rfl
    cases s.fault? .setAttr with
    | some e => rfl
    | none => simp only [Store.without_withAttr s h]
  · unfold Store.write
    split
    · exact Spares.refl extension name s
    split
    · exact Spares.refl extension name s
    cases s.fault? .setAttr with
    | some e => exact Spares.refl extension name s
    | none =>
      have hattr : (s.withAttr other attr).attr? extension name = s.attr? extension name :=
        s.attr?_withAttr_of_ne fun hsame => h ⟨hsame.1.symm, hsame.2.symm⟩
      exact ⟨hattr, rfl, rfl, rfl⟩

theorem writeField (hthing : s.thing? extension = some (s.attributes extension)) {field : Attr}
    (h : ¬ (other = extension ∧ rest = name)) : Unaware extension name s (Store.writeField other rest field) := by
  have hfetch := fetch_without_of_ne hthing h
  unfold Store.writeField
  cases hcurrent : s.fetch other rest with
  | error e =>
    constructor
    · simp only [hfetch, hcurrent]
    · simp only [hcurrent]
      exact Spares.refl extension name s
  | ok current =>
    cases hfield : current.withField field with
    | error e =>
      constructor
      · simp only [hfetch, hcurrent, hfield]
      · simp only [hcurrent, hfield]
        exact Spares.refl extension name s
    | ok updated =>
      have hname : updated.name = rest := by
        obtain ⟨fields, -, rfl⟩ := (Attr.withField_eq_ok_iff current field updated).mp hfield
        obtain ⟨-, -, -, hattr⟩ := (s.fetch_eq_ok_iff other rest current).mp hcurrent
        have hcurrentName := s.name_of_attr? other rest hattr
        exact hcurrentName
      have hwrite : Unaware extension name s (Store.write other updated) := write fun hsame =>
        h ⟨hsame.1, hname.symm.trans hsame.2⟩
      constructor
      · simp only [hfetch, hcurrent, hfield]
        exact hwrite.same
      · simp only [hcurrent, hfield]
        exact hwrite.spares

theorem answered {x : Store → Except RpcError Unit × Store} (h : Unaware extension name s x) :
    Unaware extension name s fun s => Chat.answered (x s) :=
  ⟨by simp only [Chat.answered, h.same], h.spares⟩

theorem told (text : String) (players : List String) :
    Unaware extension name s fun s => ((.ok (.string "") : Except PluginError Json), Chat.told text players s) := by
  induction players generalizing s with
  | nil => exact ofReading _ rfl
  | cons player players ih =>
    have hsend : Unaware extension name s (Store.send .sendMessage ⟨player, some text, none, none, none⟩) :=
      send _ _
    have hrest := @ih (s.send .sendMessage ⟨player, some text, none, none, none⟩).2
    refine ⟨?_, hsend.spares.trans hrest.spares⟩
    have htold (u : Store) : Chat.told text (player :: players) u =
        Chat.told text players (u.send .sendMessage ⟨player, some text, none, none, none⟩).2 := rfl
    simp only [htold, hsend.same]
    exact hrest.same

theorem of_eq {α : Type} {x y : Store → α × Store} (hthere : x s = y s)
    (habsent : x (s.without extension name) = y (s.without extension name)) (h : Unaware extension name s y) :
    Unaware extension name s x := by
  constructor
  · rw [hthere, habsent]
    exact h.same
  · rw [hthere]
    exact h.spares

theorem tell (text : String) (header : Option String) :
    Unaware extension name s fun s => Chat.answered (s.tell text header) := by
  have hsend : Unaware extension name s
      (Store.send .sendMessageToCaller ⟨s.caller, some text, header, none, none⟩) := send _ _
  have htell : Unaware extension name s (Store.tell text header) := by
    refine of_eq ?_ ?_ hsend
    · rfl
    · rfl
  exact htell.answered

/-- Failing is the same with the attribute and without it. -/
theorem failing {x : Store → Except PluginError Json × Store} (e : PluginError) (hthere : x s = (.error e, s))
    (habsent : x (s.without extension name) = (.error e, s.without extension name)) :
    Unaware extension name s x := by
  have hfailed : Unaware extension name s fun u => ((.error e : Except PluginError Json), u) :=
    ofReading (fun _ => Except.error e) rfl
  exact of_eq hthere habsent hfailed

end Unaware

section Subcommands

variable {ctx : Context} (h : Hidden ctx.config.privilege extension name s)

include h

private theorem unaware_say (rest text : String) : Unaware extension name s (outcome (say ctx rest text)) := by
  have hseen := h.seen_without ctx.extension rest
  cases hfound : s.seen ctx.config.privilege ctx.extension rest with
  | error e =>
    refine Unaware.failing e ?_ ?_
    · simp only [outcome_say, hfound]
    · simp only [outcome_say, hseen, hfound]
  | ok found =>
    obtain ⟨c, caller⟩ := found
    cases hmember : c.isMember caller with
    | true =>
      refine Unaware.of_eq ?_ ?_ (Unaware.told ("[" ++ c.name ++ "] " ++ caller ++ ": " ++ text) c.members)
      · simp [outcome_say, hfound, hmember]
      · simp [outcome_say, hseen, hfound, hmember]
    | false =>
      refine Unaware.failing (.refused (.notMember c.name)) ?_ ?_
      · simp [outcome_say, hfound, hmember]
      · simp [outcome_say, hseen, hfound, hmember]

private theorem unaware_join (rest : String) : Unaware extension name s (outcome (join ctx rest)) := by
  have hseen := h.seen_without ctx.extension rest
  cases hfound : s.seen ctx.config.privilege ctx.extension rest with
  | error e =>
    refine Unaware.failing e ?_ ?_
    · simp only [outcome_join, joined, hfound]
    · simp only [outcome_join, joined, hseen, hfound]
  | ok found =>
    obtain ⟨c, caller⟩ := found
    have hlets : (s.without extension name).lets ctx.config.privilege .join c.acl caller =
        s.lets ctx.config.privilege .join c.acl caller := Store.lets_congr _ _ _ _ rfl rfl
    cases hjoin : s.lets ctx.config.privilege .join c.acl caller with
    | false =>
      refine Unaware.failing (.refused (.mayNotJoin c.name)) ?_ ?_
      · simp [outcome_join, joined, hfound, hjoin]
      · simp [outcome_join, joined, hseen, hfound, hlets, hjoin]
    | true =>
      cases hmember : c.isMember caller with
      | true =>
        refine Unaware.of_eq ?_ ?_ (Unaware.tell ("You are already a member of " ++ c.name) none)
        · simp [outcome_join, joined, hfound, hjoin, hmember]
        · simp [outcome_join, joined, hseen, hfound, hlets, hjoin, hmember]
      | false =>
        have hwrite : Unaware extension name s
            (Store.writeField ctx.extension c.name (c.addMember caller).membersField) :=
          Unaware.writeField h.thing? (h.ne_of_seen hfound)
        refine Unaware.of_eq ?_ ?_ hwrite.answered
        · simp [outcome_join, joined, hfound, hjoin, hmember]
        · simp [outcome_join, joined, hseen, hfound, hlets, hjoin, hmember]

private theorem unaware_leave (rest : String) : Unaware extension name s (outcome (leave ctx rest)) := by
  have hseen := h.seen_without ctx.extension rest
  cases hfound : s.seen ctx.config.privilege ctx.extension rest with
  | error e =>
    refine Unaware.failing e ?_ ?_
    · simp only [outcome_leave, left, hfound]
    · simp only [outcome_leave, left, hseen, hfound]
  | ok found =>
    obtain ⟨c, caller⟩ := found
    cases hmember : c.isMember caller with
    | true =>
      have hwrite : Unaware extension name s
          (Store.writeField ctx.extension c.name (c.removeMember caller).membersField) :=
        Unaware.writeField h.thing? (h.ne_of_seen hfound)
      refine Unaware.of_eq ?_ ?_ hwrite.answered
      · simp [outcome_leave, left, hfound, hmember]
      · simp [outcome_leave, left, hseen, hfound, hmember]
    | false =>
      refine Unaware.of_eq ?_ ?_ (Unaware.tell ("You are not a member of " ++ c.name) none)
      · simp [outcome_leave, left, hfound, hmember]
      · simp [outcome_leave, left, hseen, hfound, hmember]

private theorem unaware_members (rest : String) : Unaware extension name s (outcome (members ctx rest)) := by
  have hseen := h.seen_without ctx.extension rest
  cases hfound : s.seen ctx.config.privilege ctx.extension rest with
  | error e =>
    refine Unaware.failing e ?_ ?_
    · simp only [outcome_members, hfound]
    · simp only [outcome_members, hseen, hfound]
  | ok found =>
    obtain ⟨c, caller⟩ := found
    cases hmember : c.isMember caller with
    | true =>
      refine Unaware.of_eq ?_ ?_
        (Unaware.tell (NameList.joinWith '\n' c.members) (some ("Members of " ++ c.name)))
      · simp [outcome_members, hfound, hmember]
      · simp [outcome_members, hseen, hfound, hmember]
    | false =>
      refine Unaware.of_eq ?_ ?_ (Unaware.tell ("You are not a member of " ++ c.name) none)
      · simp [outcome_members, hfound, hmember]
      · simp [outcome_members, hseen, hfound, hmember]

private theorem unaware_listed (header : String) (wanted : String → Channel → Bool) :
    Unaware extension name s (listed ctx.config.privilege ctx.extension header wanted) := by
  have hcaller := h.caller
  have hcallerWithout : (s.without extension name).fetchCaller = .ok s.caller := hcaller
  have hvisible := h.visible_without ctx.extension
  cases hfound : s.visible ctx.config.privilege s.caller ctx.extension with
  | error e =>
    refine Unaware.failing e ?_ ?_
    · simp only [listed, hcaller, hfound]
    · simp only [listed, hcallerWithout, hvisible, hfound]
  | ok channels =>
    by_cases hnone : channels.filter (wanted s.caller) = []
    · refine Unaware.of_eq ?_ ?_ (Unaware.tell "No channels found" none)
      · simp only [listed, hcaller, hfound, hnone, if_true]
      · simp only [listed, hcallerWithout, hvisible, hfound, hnone, if_true]
    · refine Unaware.of_eq ?_ ?_ (Unaware.tell
        (NameList.joinWith '\n' (sortedNames (channels.filter (wanted s.caller)))) (some header))
      · simp only [listed, hcaller, hfound, hnone, if_false]
      · simp only [listed, hcallerWithout, hvisible, hfound, hnone, if_false]

/-- No subcommand of `chat` tells whether the hidden channel exists. -/
theorem unaware_talk (command : TalkCommand) : Unaware extension name s (outcome (command.run ctx)) := by
  unfold TalkCommand.run
  split
  · exact unaware_say h _ _
  · exact unaware_join h _
  · exact unaware_leave h _
  · rw [funext (outcome_list ctx)]
    exact unaware_listed h _ _
  · rw [funext (outcome_mine ctx)]
    exact unaware_listed h _ _
  · exact unaware_members h _
  · exact Unaware.failing _ rfl rfl

end Subcommands

/-- An input calls no method but `chat`, if it holds a call at all. -/
def OnlyTalks (input : Text.Raw) : Prop := ∀ call, Plugin.callOf? input = some call → call.method = "chat"

private theorem serve_without {config : Config} (h : Hidden config.privilege extension name s) {input : Text.Raw}
    (htalk : OnlyTalks input) :
    Unaware extension name s fun s =>
      ((plugin.serve config Store.exchange input s).value, (plugin.serve config Store.exchange input s).state) := by
  cases hhandled : (Plugin.callOf? input).bind (plugin.handler? config) with
  | none =>
    obtain ⟨response, -, hserve⟩ := Plugin.serve_unhandled hhandled
    refine Unaware.of_eq ?_ ?_ (Unaware.ofReading (fun _ => response) rfl)
    · rw [(hserve s).1, (hserve s).2]
    · rw [(hserve _).1, (hserve _).2]
  | some handler =>
    obtain ⟨call, hcall, hhandler⟩ := Option.bind_eq_some_iff.mp hhandled
    obtain ⟨id, hserve⟩ := Plugin.serve_handled hcall hhandler
    have hunaware : Unaware extension name s (outcome handler) := by
      unfold Plugin.handler? at hhandler
      split at hhandler
      · rw [htalk call hcall] at hhandler
        obtain ⟨command, -, rfl⟩ := Option.map_eq_some_iff.mp hhandler
        exact unaware_talk h command
      · cases hhandler
    constructor
    · simp only [(hserve _).1, (hserve _).2, hunaware.same]
    · simp only [(hserve _).2]
      exact hunaware.spares

private theorem serveAll_without {config : Config} (h : Hidden config.privilege extension name s)
    {inputs : List Text.Raw} (htalk : ∀ input ∈ inputs, OnlyTalks input) :
    Unaware extension name s (plugin.serveAll config inputs) := by
  induction inputs generalizing s with
  | nil => exact Unaware.ofReading (fun _ => []) rfl
  | cons input inputs ih =>
    have hfirst := serve_without h (htalk input List.mem_cons_self)
    have hrest := ih (h.of_spares hfirst.spares) fun later hlater => htalk later (List.mem_cons_of_mem input hlater)
    obtain ⟨hvalue, hstate⟩ := Prod.mk.inj hfirst.same
    refine ⟨?_, hfirst.spares.trans hrest.spares⟩
    simp only [Plugin.serveAll, hvalue, hstate, hrest.same]

/-- Through `chat` alone, a channel that the caller may not see cannot be told from one that does not exist: with it
and without it every input gets the same response and the same messages are delivered, the channel stays as it is, and
the worlds stay the same apart from it. -/
theorem hidden_like_missing (config : Config) (extension name : String) (s : Store) (a : Attr) (c : Channel)
    (hcaller : s.fault? .getCallerName = none) (hattr : s.attr? extension name = some a)
    (hchannel : Channel.ofAttr a = .ok c) (hdenied : s.lets config.privilege .see c.acl s.caller = false)
    (inputs : List Text.Raw) (htalk : ∀ input ∈ inputs, OnlyTalks input) :
    (plugin.serveAll config inputs s).1 = (plugin.serveAll config inputs (s.without extension name)).1 ∧
      (plugin.serveAll config inputs s).2.sent =
        (plugin.serveAll config inputs (s.without extension name)).2.sent ∧
      (plugin.serveAll config inputs s).2.attr? extension name = some a ∧
      (plugin.serveAll config inputs s).2.without extension name =
        (plugin.serveAll config inputs (s.without extension name)).2 := by
  have hidden : Hidden config.privilege extension name s := by
    refine ⟨?_, a, c, hattr, hchannel, hdenied⟩
    rw [Store.fetchCaller, hcaller]
  have hrun := serveAll_without hidden htalk
  rw [hrun.same]
  exact ⟨rfl, rfl, hrun.spares.attr.trans hattr, rfl⟩

def bobsChannel : Channel := ⟨"#bobs", ["Bob"], ⟨⟨[], ["Bob"]⟩, .unrestricted⟩⟩

def bobsWorld : Store := (Store.empty.withCaller "Alice").withAttr "ext" bobsChannel.toAttr

def joinBobs : Text.Raw := Plugin.textOfCall "chat" "\"join\",\"#bobs\""

/-- Alice may try twice to join Bob's channel and does not learn that there is one. -/
theorem hidden_like_missing_bobs :
    bobsWorld.fault? .getCallerName = none ∧ bobsWorld.attr? "ext" "#bobs" = some bobsChannel.toAttr ∧
      Channel.ofAttr bobsChannel.toAttr = .ok bobsChannel ∧
      bobsWorld.lets Config.standard.privilege .see bobsChannel.acl bobsWorld.caller = false ∧
      (∀ input ∈ [joinBobs, joinBobs], OnlyTalks input) ∧
      (plugin.serveAll Config.standard [joinBobs, joinBobs] bobsWorld).1 =
        (plugin.serveAll Config.standard [joinBobs, joinBobs] (bobsWorld.without "ext" "#bobs")).1 := by
  have hcaller : bobsWorld.fault? .getCallerName = none := rfl
  have hattr : bobsWorld.attr? "ext" "#bobs" = some bobsChannel.toAttr :=
    Store.attr?_withAttr_self (Store.empty.withCaller "Alice") "ext" bobsChannel.toAttr
  have hchannel : Channel.ofAttr bobsChannel.toAttr = .ok bobsChannel := Channel.ofAttr_toAttr (by decide)
  have hdenied : bobsWorld.lets Config.standard.privilege .see bobsChannel.acl bobsWorld.caller = false := by
    rw [Store.lets_eq]
    decide
  have htalk : ∀ input ∈ [joinBobs, joinBobs], OnlyTalks input := by
    intro input hinput call hcall
    have hmethod : (Plugin.callOf? joinBobs).map Call.method = some "chat" := by
      simp only [joinBobs, Plugin.textOfCall, Text.Raw.ofString, String.toList_append, String.reduceToList]
      decide +kernel
    have hjoin : input = joinBobs := by simpa using hinput
    rw [← hjoin, hcall] at hmethod
    exact Option.some.inj hmethod
  exact ⟨hcaller, hattr, hchannel, hdenied, htalk,
    (hidden_like_missing Config.standard "ext" "#bobs" bobsWorld bobsChannel.toAttr bobsChannel hcaller hattr
      hchannel hdenied [joinBobs, joinBobs] htalk).1⟩

end WorldPlugins.Chat
