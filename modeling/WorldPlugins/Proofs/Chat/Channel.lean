import WorldPlugins.Chat.Channel
import WorldPlugins.Proofs.Attr.Collapse
import WorldPlugins.Proofs.Chat.Settings

/-! # Stored channels

A channel is read from the first fields of its names.  Writing the members collapses the fields, so a channel
written in that way is read from what used to be the last ones.  Channels whose names are storable are read back
as they were, and writing their members gives the text that they would have been written with.
-/

namespace WorldPlugins.Chat.Channel

/-- The names in the first field under a key; none if there is no such field. -/
def fieldNames (fields : List Attr) (key : String) : List String :=
  ((fields.find? fun f => f.name == key).map fun f => NameList.split f.value).getD []

def fieldAccess (fields : List Attr) : AccessControl :=
  ⟨⟨fieldNames fields (rolesKey .see), fieldNames fields (playersKey .see)⟩,
    ⟨fieldNames fields (rolesKey .join), fieldNames fields (playersKey .join)⟩⟩

private theorem storedNames_eq (a : Attr) (key : String) :
    storedNames a key = a.listValue.map fun fields => fieldNames fields key := by
  unfold storedNames Attr.find fieldNames
  cases hlist : a.listValue with
  | error e =>
    unfold Attr.listValue Attr.expect Attr.decodeValue at hlist
    split at hlist
    · cases hread : (Json.Decoder.list Attr.decoder).ofString a.value with
      | ok fields => simp [hread, bind, Except.bind, Except.mapError] at hlist
      | error cause =>
        simp only [hread, bind, Except.bind, Except.mapError, Except.error.injEq] at hlist
        subst hlist
        rfl
    · simp only [bind, Except.bind, Except.error.injEq] at hlist
      subst hlist
      rfl
  | ok fields =>
    cases hfield : fields.find? fun f => f.name == key with
    | none => simp [bind, Except.bind, hfield, Except.map]
    | some f => simp [bind, Except.bind, hfield, pure, Except.pure, Except.map]

/-- A channel is read from any list of fields, whichever are missing. -/
theorem ofAttr_eq_ok_iff (a : Attr) (c : Channel) :
    ofAttr a = .ok c ↔
      ∃ fields, a.listValue = .ok fields ∧ c = ⟨a.name, fieldNames fields membersKey, fieldAccess fields⟩ := by
  unfold ofAttr
  simp only [storedNames_eq]
  cases a.listValue with
  | error e => simp [Except.map, bind, Except.bind]
  | ok fields => simp [Except.map, bind, Except.bind, pure, Except.pure, fieldAccess, eq_comm]

/-- The names in a field are those in some text, the empty one if there is no such field. -/
theorem exists_fieldNames_eq_split (fields : List Attr) (key : String) :
    ∃ text, fieldNames fields key = NameList.split text := by
  cases hfield : fields.find? fun f => f.name == key with
  | none => exact ⟨"", by simp [fieldNames, hfield, NameList.split]⟩
  | some f => exact ⟨f.value, by simp [fieldNames, hfield]⟩

/-- The members of a stored channel are the names in some text. -/
theorem members_eq_split {a : Attr} {c : Channel} (h : ofAttr a = .ok c) :
    ∃ text, c.members = NameList.split text := by
  obtain ⟨fields, -, rfl⟩ := (ofAttr_eq_ok_iff a c).mp h
  exact exists_fieldNames_eq_split fields membersKey

theorem isMember_iff (c : Channel) (player : String) : c.isMember player = true ↔ player ∈ c.members := by
  simp [isMember]

private theorem fieldNames_written (fields : List Attr) (names : List String) :
    fieldNames (Attr.upsert (Attr.collapse fields) (namesField membersKey names)) membersKey =
      NameList.split (NameList.join names) := by
  have hfind := Attr.find?_upsert_self (Attr.collapse fields) (namesField membersKey names)
  have hname : (namesField membersKey names).name = membersKey := rfl
  rw [hname] at hfind
  rw [fieldNames, hfind]
  rfl

private theorem fieldAccess_written (fields : List Attr) (names : List String) :
    fieldAccess (Attr.upsert (Attr.collapse fields) (namesField membersKey names)) =
      fieldAccess fields.reverse := by
  have hother (key : String) (hkey : key ≠ membersKey) :
      fieldNames (Attr.upsert (Attr.collapse fields) (namesField membersKey names)) key =
        fieldNames fields.reverse key := by
    have hfind : (Attr.upsert (Attr.collapse fields) (namesField membersKey names)).find?
        (fun f => f.name == key) = (Attr.collapse fields).find? fun f => f.name == key :=
      Attr.find?_upsert_of_ne _ hkey
    rw [fieldNames, hfind, Attr.find?_collapse, fieldNames]
  simp only [fieldAccess, hother (rolesKey .see) (by decide), hother (rolesKey .join) (by decide),
    hother (playersKey .see) (by decide), hother (playersKey .join) (by decide)]

/-- With its members written anew, a channel is read from these members and from the last fields of the access
lists. -/
theorem ofAttr_withField {a updated : Attr} {fields : List Attr} {names : List String}
    (hfields : a.listValue = .ok fields) (h : a.withField (namesField membersKey names) = .ok updated) :
    updated.name = a.name ∧
      ofAttr updated =
        .ok ⟨a.name, NameList.split (NameList.join names), fieldAccess fields.reverse⟩ := by
  obtain ⟨read, hread, rfl⟩ := (Attr.withField_eq_ok_iff a _ updated).mp h
  cases hfields.symm.trans hread
  refine ⟨rfl, (ofAttr_eq_ok_iff _ _).mpr ⟨_, Attr.listValue_list _ _, ?_⟩⟩
  rw [fieldNames_written, fieldAccess_written]
  rfl

/-- What makes a channel one that can be stored: its members are different, and all names in it are storable. -/
structure WellFormed (c : Channel) : Prop where
  members_nodup : c.members.Nodup
  members : Storable c.members
  roles : ∀ action, Storable (c.acl.list action).roles
  players : ∀ action, Storable (c.acl.list action).players

private theorem wellFormed_iff (c : Channel) :
    (c.members.Nodup ∧ Storable c.members ∧ (Storable c.acl.see.roles ∧ Storable c.acl.join.roles) ∧
      Storable c.acl.see.players ∧ Storable c.acl.join.players) ↔ c.WellFormed := by
  constructor
  · rintro ⟨hnodup, hmembers, ⟨hseeRoles, hjoinRoles⟩, hseePlayers, hjoinPlayers⟩
    refine ⟨hnodup, hmembers, ?_, ?_⟩
    · intro action
      cases action with
      | see => exact hseeRoles
      | join => exact hjoinRoles
    · intro action
      cases action with
      | see => exact hseePlayers
      | join => exact hjoinPlayers
  · intro h
    exact ⟨h.members_nodup, h.members, ⟨h.roles .see, h.roles .join⟩, h.players .see, h.players .join⟩

instance (c : Channel) : Decidable c.WellFormed := decidable_of_iff _ (wellFormed_iff c)

/-- The channel with other members that can be stored. -/
theorem WellFormed.withMembers {c : Channel} (h : c.WellFormed) {names : List String} (hnodup : names.Nodup)
    (hnames : Storable names) : WellFormed { c with members := names } :=
  ⟨hnodup, hnames, h.roles, h.players⟩

theorem wellFormed_empty (name : String) : (empty name).WellFormed := by
  refine ⟨List.nodup_nil, ?_, ?_, ?_⟩
  · rintro _ ⟨⟩
  · rintro (_ | _) _ ⟨⟩
  · rintro (_ | _) _ ⟨⟩

/-- Arguments that are accepted keep the name of a channel. -/
theorem name_applyArguments {action : Action} {c changed : Channel} {arguments : List String}
    (h : c.applyArguments action arguments = .ok changed) : changed.name = c.name := by
  obtain ⟨list, -, rfl⟩ := applyArguments_eq_ok_iff.mp h
  rfl

/-- A channel that can be stored is one that can be stored with another access list of storable names. -/
private theorem WellFormed.withList {c : Channel} (h : c.WellFormed) {action : Action} {list : AccessList}
    (hlist : ∀ part : Part, Storable (part.names list)) : (c.withList action list).WellFormed := by
  have hparts : ∀ other, Storable ((c.withList action list).acl.list other).roles ∧
      Storable ((c.withList action list).acl.list other).players := by
    intro other
    by_cases hother : other = action
    · subst hother
      rw [list_withList_self]
      exact ⟨hlist .roles, hlist .players⟩
    · rw [list_withList_of_ne c action hother]
      exact ⟨h.roles other, h.players other⟩
  exact ⟨h.members_nodup, h.members, fun other => (hparts other).1, fun other => (hparts other).2⟩

/-- Arguments that are accepted keep the name of a channel, and a channel that can be stored stays one. -/
theorem wellFormed_applyArguments {action : Action} {c changed : Channel} {arguments : List String}
    (h : c.applyArguments action arguments = .ok changed) (hc : c.WellFormed) :
    changed.name = c.name ∧ changed.WellFormed := by
  refine ⟨name_applyArguments h, ?_⟩
  obtain ⟨list, hlist, rfl⟩ := applyArguments_eq_ok_iff.mp h
  have hold : ∀ part : Part, Storable (part.names (c.acl.list action)) := by
    intro part
    cases part with
    | roles => exact hc.roles action
    | players => exact hc.players action
  exact hc.withList fun part => ((lastSet_of_foldlM hlist).2 part).induct Storable (hold part) fun _ hnames => hnames

def nameLists (c : Channel) : List (List String) :=
  [c.members, c.acl.see.roles, c.acl.see.players, c.acl.join.roles, c.acl.join.players]

theorem mem_nameLists_iff {c : Channel} {names : List String} :
    names ∈ c.nameLists ↔ names = c.members ∨ ∃ (action : Action) (part : Part), names = part.names (c.acl.list action) := by
  simp only [nameLists, List.mem_cons, List.not_mem_nil, or_false]
  constructor
  · rintro (h | h | h | h | h)
    · exact .inl h
    · exact .inr ⟨.see, .roles, h⟩
    · exact .inr ⟨.see, .players, h⟩
    · exact .inr ⟨.join, .roles, h⟩
    · exact .inr ⟨.join, .players, h⟩
  · rintro (rfl | ⟨action, part, rfl⟩)
    · exact .inl rfl
    · cases action <;> cases part <;> simp [Part.names, AccessControl.list]

def mapNames (f : List String → List String) (c : Channel) : Channel :=
  ⟨c.name, f c.members, ⟨⟨f c.acl.see.roles, f c.acl.see.players⟩, ⟨f c.acl.join.roles, f c.acl.join.players⟩⟩⟩

theorem mapNames_eq_self_iff {f : List String → List String} {c : Channel} :
    c.mapNames f = c ↔ ∀ names ∈ c.nameLists, f names = names := by
  obtain ⟨name, members, ⟨seeRoles, seePlayers⟩, joinRoles, joinPlayers⟩ := c
  simp [mapNames, nameLists, and_assoc]

/-- A channel is read back list by list. -/
theorem ofAttr_toAttr_eq (c : Channel) :
    ofAttr c.toAttr = .ok (c.mapNames fun names => NameList.split (NameList.join names)) :=
  (ofAttr_eq_ok_iff _ _).mpr ⟨_, Attr.listValue_list _ _, rfl⟩

/-- A channel that can be stored is read back. -/
theorem ofAttr_toAttr {c : Channel} (h : c.WellFormed) : ofAttr c.toAttr = .ok c := by
  have hlists : ∀ names ∈ c.nameLists, Storable names := by
    intro names hnames
    rcases mem_nameLists_iff.mp hnames with rfl | ⟨action, _ | _, rfl⟩
    · exact h.members
    · exact h.roles action
    · exact h.players action
  rw [ofAttr_toAttr_eq, mapNames_eq_self_iff.mpr fun names hnames =>
    NameList.split_join_of_storable (hlists names hnames)]

/-- Writing the members of a stored channel gives the channel with these members. -/
theorem withField_toAttr (c : Channel) (names : List String) :
    c.toAttr.withField (namesField membersKey names) = .ok { c with members := names }.toAttr := by
  refine (Attr.withField_eq_ok_iff _ _ _).mpr ⟨_, Attr.listValue_list _ _, ?_⟩
  rw [Attr.collapse_of_nodup (by simp [membersField, namesField, Attr.string, membersKey, rolesKey, playersKey])]
  rfl

end WorldPlugins.Chat.Channel
