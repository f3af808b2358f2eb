import WorldPlugins.Proofs.Chat.Commands

/-! # What a change of members stores

Joining, leaving, adding, removing and admitting all come down to writing the members of one stored channel, or to
nothing.  What is read afterwards is then known: the members are the names in the text that was written, and the
access lists are those in the last fields of the old attribute, while the first ones had counted before.
-/

namespace WorldPlugins.Chat

variable {p : Privilege} {extension name player : String} {s : Store} {a : Attr} {c : Channel}

/-- A world in which the members of a stored channel were written anew. -/
def Rewritten (extension name : String) (names : List String) (s t : Store) : Prop :=
  ∃ a b, s.attr? extension name = some a ∧ a.withField (Channel.namesField Channel.membersKey names) = .ok b ∧
    t = s.withAttr extension b

/-- Writing members fails and changes nothing, or it succeeds. -/
private theorem written_cases (hc : s.channel extension name = .ok c) (names : List String) :
    let r := answered (s.writeField extension c.name (Channel.namesField Channel.membersKey names))
    (r.1.isOk = false ∧ r.2 = s) ∨ (r.1.isOk = true ∧ Rewritten extension name names s r.2) := by
  obtain ⟨a, b, hattr, hfield, hwrite⟩ := writeField_of_channel hc names
  rw [hwrite]
  cases s.fault? .setAttr with
  | some e => exact .inl ⟨rfl, rfl⟩
  | none => exact .inr ⟨rfl, a, b, hattr, hfield, rfl⟩

/-- What is read of a channel whose members were written anew. -/
theorem read_of_rewritten {names : List String} {t : Store} {fields : List Attr}
    (h : Rewritten extension name names s t) (hattr : s.attr? extension name = some a)
    (hfields : a.listValue = .ok fields) :
    ∃ b, t.attr? extension name = some b ∧
      Channel.ofAttr b = .ok ⟨name, NameList.split (NameList.join names), Channel.fieldAccess fields.reverse⟩ := by
  obtain ⟨a', b, hattr', hfield, rfl⟩ := h
  cases hattr.symm.trans hattr'
  obtain ⟨hname, hread⟩ := Channel.ofAttr_withField hfields hfield
  have haname := s.name_of_attr? extension name hattr
  rw [haname] at hname hread
  have hstored := s.attr?_withAttr_self extension b
  rw [hname] at hstored
  exact ⟨b, hstored, hread⟩

namespace Command

def addition? (caller : String) : Command → Option (String × String)
  | .join name => some (name, caller)
  | .add player name => some (name, player)
  | .welcome guest => some (guestChannel, guest)
  | _ => none

def changesMembers (name : String) : Command → Bool
  | .join other => other == name
  | .leave other => other == name
  | .add _ other => other == name
  | .remove _ other => other == name
  | .welcome _ => guestChannel == name
  | _ => false

end Command

/-- What comes of an attempt to add a player: it fails and nothing changes, or the player is a member already, or the
members are written with the player at the end. -/
inductive Addition (extension name player : String) (s : Store) : Except PluginError Json × Store → Prop
  | refused {r} (hfailed : r.1.isOk = false) (hsame : r.2 = s) : Addition extension name player s r
  | already {r} {c : Channel} (hok : r.1.isOk = true) (hc : s.channel extension name = .ok c)
      (hmember : player ∈ c.members) (htold : Told s r.2) : Addition extension name player s r
  | stored {r} {c : Channel} (hok : r.1.isOk = true) (hc : s.channel extension name = .ok c)
      (hmember : player ∉ c.members) (hwritten : Rewritten extension name (c.members ++ [player]) s r.2) :
      Addition extension name player s r

private theorem addition_of_write (hc : s.channel extension name = .ok c) (hmember : player ∉ c.members) :
    Addition extension name player s
      (answered (s.writeField extension c.name (c.addMember player).membersField)) := by
  rcases written_cases hc (c.members ++ [player]) with ⟨hfailed, hsame⟩ | ⟨hok, hwritten⟩
  · exact .refused hfailed hsame
  · exact .stored hok hc hmember hwritten

private theorem addition_of_tell (hc : s.channel extension name = .ok c) (hmember : player ∈ c.members)
    (text : String) : Addition extension name player s (answered (s.tell text none)) := by
  rw [Store.tell, Store.send]
  cases s.fault? .sendMessageToCaller with
  | some e => exact .refused rfl rfl
  | none => exact .already rfl hc hmember ⟨_, rfl⟩

private theorem addition_of_joined : Addition extension name s.caller s (joined p extension name s) := by
  unfold joined
  cases hseen : s.seen p extension name with
  | error e => exact .refused rfl rfl
  | ok found =>
    obtain ⟨c, caller⟩ := found
    obtain ⟨hc, hcaller, -⟩ := (s.seen_eq_ok_iff p extension name c caller).mp hseen
    obtain ⟨-, rfl⟩ := (s.fetchCaller_eq_ok_iff caller).mp hcaller
    dsimp only
    split
    · split
      · next hmember => exact addition_of_tell hc ((c.isMember_iff _).mp hmember) _
      · next hmember => exact addition_of_write hc fun hin => hmember ((c.isMember_iff _).mpr hin)
    · exact .refused rfl rfl

private theorem addition_of_added : Addition extension name player s (added extension player name s) := by
  unfold added
  split
  · cases hc : s.channel extension name with
    | error e => exact .refused rfl rfl
    | ok c =>
      dsimp only
      split
      · next hmember => exact addition_of_tell hc ((c.isMember_iff _).mp hmember) _
      · next hmember => exact addition_of_write hc fun hin => hmember ((c.isMember_iff _).mpr hin)
  · exact .refused rfl rfl

private theorem addition_of_admitted : Addition extension guestChannel player s (admitted extension player s) := by
  unfold admitted
  cases hc : s.channel extension guestChannel with
  | error e => exact .refused rfl rfl
  | ok c =>
    dsimp only
    split
    · next hmember => exact .already rfl hc ((c.isMember_iff _).mp hmember) (Told.refl s)
    · next hmember => exact addition_of_write hc fun hin => hmember ((c.isMember_iff _).mpr hin)

/-- Every command that adds a player comes to one of these. -/
theorem addition_of_command {command : Command} (h : command.addition? s.caller = some (name, player)) :
    Addition extension name player s (command.effect p extension s) := by
  cases command with
  | join other =>
    cases h
    exact addition_of_joined
  | add other channel =>
    cases h
    exact addition_of_added
  | welcome guest =>
    cases h
    exact addition_of_admitted
  | create other => cases h
  | delete other => cases h
  | restrict action other arguments => cases h
  | remove other channel => cases h
  | leave other => cases h
  | observe => cases h

private theorem told_or_rewritten_of_addition {r : Except PluginError Json × Store}
    (h : Addition extension name player s r) : Told s r.2 ∨ ∃ names, Rewritten extension name names s r.2 := by
  cases h with
  | refused hfailed hsame =>
    rw [hsame]
    exact .inl (Told.refl s)
  | already hok hc hmember htold => exact .inl htold
  | stored hok hc hmember hwritten => exact .inr ⟨_, hwritten⟩

private theorem told_or_rewritten_of_write (hc : s.channel extension name = .ok c) (names : List String) :
    let r := answered (s.writeField extension c.name (Channel.namesField Channel.membersKey names))
    Told s r.2 ∨ ∃ names, Rewritten extension name names s r.2 := by
  rcases written_cases hc names with ⟨-, hsame⟩ | ⟨-, hwritten⟩
  · dsimp only
    rw [hsame]
    exact .inl (Told.refl s)
  · exact .inr ⟨names, hwritten⟩

private theorem told_or_rewritten_of_left :
    Told s (left p extension name s).2 ∨ ∃ names, Rewritten extension name names s (left p extension name s).2 := by
  unfold left
  cases hseen : s.seen p extension name with
  | error e => exact .inl (Told.refl s)
  | ok found =>
    obtain ⟨c, caller⟩ := found
    obtain ⟨hc, -, -⟩ := (s.seen_eq_ok_iff p extension name c caller).mp hseen
    dsimp only
    split
    · exact told_or_rewritten_of_write hc (c.removeMember caller).members
    · exact .inl (told_send _ _ s)

private theorem told_or_rewritten_of_removed :
    Told s (removed extension player name s).2 ∨
      ∃ names, Rewritten extension name names s (removed extension player name s).2 := by
  unfold removed
  split
  · cases hc : s.channel extension name with
    | error e => exact .inl (Told.refl s)
    | ok c =>
      dsimp only
      split
      · exact told_or_rewritten_of_write hc (c.removeMember player).members
      · exact .inl (told_send _ _ s)
  · exact .inl (Told.refl s)

/-- A command that changes members writes those of one channel, or changes nothing. -/
theorem told_or_rewritten {command : Command} (h : command.changesMembers name = true) :
    Told s (command.effect p extension s).2 ∨
      ∃ names, Rewritten extension name names s (command.effect p extension s).2 := by
  cases command with
  | join other =>
    cases beq_iff_eq.mp h
    exact told_or_rewritten_of_addition addition_of_joined
  | leave other =>
    cases beq_iff_eq.mp h
    exact told_or_rewritten_of_left
  | add player other =>
    cases beq_iff_eq.mp h
    exact told_or_rewritten_of_addition addition_of_added
  | remove player other =>
    cases beq_iff_eq.mp h
    exact told_or_rewritten_of_removed
  | welcome guest =>
    cases beq_iff_eq.mp h
    exact told_or_rewritten_of_addition addition_of_admitted
  | create other => cases h
  | delete other => cases h
  | restrict action other arguments => cases h
  | observe => cases h

end WorldPlugins.Chat
