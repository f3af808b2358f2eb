import WorldPlugins.Chat.Channel
import WorldPlugins.Proofs.Except
import WorldPlugins.Proofs.NameList

/-! # Arguments that set access lists

An argument sets the roles or the players of an access list.  Arguments are applied one after another, so each part of
the list is set by the last argument for it, and an argument that sets nothing makes all of them be refused.
-/

namespace WorldPlugins.Chat

namespace Channel

def Storable (names : List String) : Prop := ∀ name ∈ names, NameList.isStorable name

instance (names : List String) : Decidable (Storable names) :=
  inferInstanceAs (Decidable (∀ name ∈ names, NameList.isStorable name = true))

theorem argumentValue?_eq_some_iff {key argument value : String} :
    argumentValue? key argument = some value ↔ argument = key ++ value := by
  unfold argumentValue?
  constructor
  · intro h
    split at h
    · next hkey =>
      cases h
      obtain ⟨rest, hrest⟩ := List.isPrefixOf_iff_prefix.mp hkey
      apply String.toList_injective
      simp [← hrest]
    · cases h
  · rintro rfl
    simp

theorem argumentNames_eq_ok_iff {argument value : String} {names : List String} :
    argumentNames argument value = .ok names ↔ Storable names ∧ value = NameList.join names := by
  unfold argumentNames
  constructor
  · intro h
    dsimp only at h
    split at h
    · cases h
    · next hempty =>
      cases h
      refine ⟨fun name hname => ?_, (NameList.join_split value).symm⟩
      refine (NameList.isStorable_iff name).mpr ⟨?_, NameList.notMem_of_mem_split hname⟩
      rintro rfl
      exact hempty (by simpa using hname)
  · rintro ⟨hnames, rfl⟩
    have hempty : "" ∉ names := fun h => ((NameList.isStorable_iff "").mp (hnames "" h)).1 rfl
    simp [NameList.split_join_of_storable hnames, hempty]

end Channel

open Channel (Storable setByArgument argumentNames argumentValue?)

inductive Part
  | roles
  | players
  deriving DecidableEq, Repr

namespace Part

def key : Part → String
  | .roles => "roles"
  | .players => "players"

def names (list : AccessList) : Part → List String
  | .roles => list.roles
  | .players => list.players

def set (list : AccessList) (names : List String) : Part → AccessList
  | .roles => { list with roles := names }
  | .players => { list with players := names }

/-- The argument gives these names, none of them empty, for a part of an access list. -/
def Sets (part : Part) (argument : String) (names : List String) : Prop :=
  Storable names ∧ argument = part.key ++ "=" ++ NameList.join names

theorem names_set_self (part : Part) (list : AccessList) (names : List String) :
    part.names (part.set list names) = names := by
  cases part <;> rfl

theorem names_set_of_ne {part other : Part} (h : other ≠ part) (list : AccessList) (names : List String) :
    other.names (part.set list names) = other.names list := by
  cases part <;> cases other <;> first | rfl | exact absurd rfl h

/-- An access list is what its parts are. -/
theorem eq_of_names {list other : AccessList} (h : ∀ part : Part, part.names list = part.names other) :
    list = other := by
  obtain ⟨roles, players⟩ := list
  have hroles : roles = other.roles := h .roles
  have hplayers : players = other.players := h .players
  rw [hroles, hplayers]

/-- An argument is for one part only. -/
theorem Sets.part_eq {part other : Part} {argument : String} {names others : List String}
    (h : part.Sets argument names) (k : other.Sets argument others) : part = other := by
  have htext : (part.key ++ "=" ++ NameList.join names).toList = (other.key ++ "=" ++ NameList.join others).toList :=
    congrArg String.toList (h.2.symm.trans k.2)
  cases part <;> cases other <;> first | rfl | simp [key] at htext

end Part

theorem Part.Sets.names_eq {part : Part} {argument : String} {names others : List String}
    (h : part.Sets argument names) (k : part.Sets argument others) : names = others := by
  have hjoin : NameList.join names = NameList.join others := by
    have htext := congrArg String.toList (h.2.symm.trans k.2)
    simp only [String.toList_append] at htext
    exact String.toList_injective (List.append_cancel_left htext)
  rw [← NameList.split_join_of_storable h.1, hjoin, NameList.split_join_of_storable k.1]

def IsSetting (argument : String) : Prop := ∃ (part : Part) (names : List String), part.Sets argument names

variable {list changed : AccessList} {argument : String} {arguments : List String}

private theorem setByArgument_of_sets {part : Part} {names : List String} (h : part.Sets argument names)
    (list : AccessList) : setByArgument list argument = .ok (part.set list names) := by
  obtain ⟨hnames, rfl⟩ := h
  unfold setByArgument
  cases part with
  | roles =>
    have hvalue : argumentValue? "roles=" (Part.roles.key ++ "=" ++ NameList.join names) =
        some (NameList.join names) := Channel.argumentValue?_eq_some_iff.mpr rfl
    simp only [hvalue, Channel.argumentNames_eq_ok_iff.mpr ⟨hnames, rfl⟩]
    rfl
  | players =>
    have hother : argumentValue? "roles=" (Part.players.key ++ "=" ++ NameList.join names) = none := by
      simp [argumentValue?, Part.key]
    have hvalue : argumentValue? "players=" (Part.players.key ++ "=" ++ NameList.join names) =
        some (NameList.join names) := Channel.argumentValue?_eq_some_iff.mpr rfl
    simp only [hother, hvalue, Channel.argumentNames_eq_ok_iff.mpr ⟨hnames, rfl⟩]
    rfl

/-- An argument sets a part of an access list, or it is refused. -/
theorem setByArgument_eq_ok_iff :
    setByArgument list argument = .ok changed ↔
      ∃ (part : Part) (names : List String), part.Sets argument names ∧ changed = part.set list names := by
  constructor
  · intro h
    unfold setByArgument at h
    split at h
    · next value hvalue =>
      obtain ⟨names, hnames, hchanged⟩ := (bind_eq_ok_iff _ _ _).mp h
      cases hchanged
      obtain ⟨hstorable, rfl⟩ := Channel.argumentNames_eq_ok_iff.mp hnames
      exact ⟨.roles, names, ⟨hstorable, Channel.argumentValue?_eq_some_iff.mp hvalue⟩, rfl⟩
    · split at h
      · next value hvalue =>
        obtain ⟨names, hnames, hchanged⟩ := (bind_eq_ok_iff _ _ _).mp h
        cases hchanged
        obtain ⟨hstorable, rfl⟩ := Channel.argumentNames_eq_ok_iff.mp hnames
        exact ⟨.players, names, ⟨hstorable, Channel.argumentValue?_eq_some_iff.mp hvalue⟩, rfl⟩
      · cases h
  · rintro ⟨part, names, hsets, rfl⟩
    exact setByArgument_of_sets hsets list

theorem isSetting_iff_isOk (list : AccessList) : IsSetting argument ↔ (setByArgument list argument).isOk = true := by
  constructor
  · rintro ⟨part, names, hsets⟩
    rw [setByArgument_of_sets hsets list]
    rfl
  · intro h
    cases hset : setByArgument list argument with
    | error e =>
      rw [hset] at h
      cases h
    | ok changed =>
      obtain ⟨part, names, hsets, -⟩ := setByArgument_eq_ok_iff.mp hset
      exact ⟨part, names, hsets⟩

instance (argument : String) : Decidable (IsSetting argument) :=
  decidable_of_iff _ (isSetting_iff_isOk .unrestricted).symm

/-- The names that a part has after arguments one after another: those of the last argument for it, or the old ones if
there is none. -/
inductive LastSet (part : Part) (old : List String) : List String → List String → Prop
  | kept {arguments : List String} (h : ∀ argument ∈ arguments, ∀ names, ¬ part.Sets argument names) :
      LastSet part old arguments old
  | set (before : List String) {after names : List String} {argument : String} (h : part.Sets argument names)
      (hafter : ∀ later ∈ after, ∀ names, ¬ part.Sets later names) :
      LastSet part old (before ++ argument :: after) names

namespace LastSet

variable {part : Part} {old names new : List String}

theorem cons_set (hsets : part.Sets argument names) (h : LastSet part names arguments new) :
    LastSet part old (argument :: arguments) new := by
  cases h with
  | kept hnone => exact .set [] hsets hnone
  | set before hlast hafter => exact .set (argument :: before) hlast hafter

theorem cons_other (hother : ∀ names, ¬ part.Sets argument names) (h : LastSet part old arguments new) :
    LastSet part old (argument :: arguments) new := by
  cases h with
  | kept hnone => exact .kept (List.forall_mem_cons.mpr ⟨hother, hnone⟩)
  | set before hlast hafter => exact .set (argument :: before) hlast hafter

theorem cons_cases (h : LastSet part old (argument :: arguments) new) :
    (∃ names, part.Sets argument names ∧ LastSet part names arguments new) ∨
      (∀ names, ¬ part.Sets argument names) ∧ LastSet part old arguments new := by
  generalize hall : argument :: arguments = all at h
  cases h with
  | kept hnone =>
    subst hall
    obtain ⟨hfirst, hrest⟩ := List.forall_mem_cons.mp hnone
    exact .inr ⟨hfirst, .kept hrest⟩
  | set before hsets hafter =>
    cases before with
    | nil =>
      cases hall
      exact .inl ⟨_, hsets, .kept hafter⟩
    | cons first before =>
      cases hall
      by_cases hfirst : ∃ names, part.Sets argument names
      · obtain ⟨names, hnames⟩ := hfirst
        exact .inl ⟨names, hnames, .set before hsets hafter⟩
      · exact .inr ⟨not_exists.mp hfirst, .set before hsets hafter⟩

theorem unique {other : List String} (h : LastSet part old arguments new) (k : LastSet part old arguments other) :
    new = other := by
  induction arguments generalizing old with
  | nil =>
    have hnil {last : List String} (hlast : LastSet part old [] last) : last = old := by
      generalize hall : ([] : List String) = all at hlast
      cases hlast with
      | kept => rfl
      | set before => exact absurd hall.symm (by simp)
    rw [hnil h, hnil k]
  | cons argument arguments ih =>
    rcases h.cons_cases with ⟨names, hsets, hrest⟩ | ⟨hnone, hrest⟩
    · rcases k.cons_cases with ⟨others, hothers, hlater⟩ | ⟨hnever, -⟩
      · rw [hsets.names_eq hothers] at hrest
        exact ih hrest hlater
      · exact absurd hsets (hnever names)
    · rcases k.cons_cases with ⟨others, hothers, -⟩ | ⟨-, hlater⟩
      · exact absurd hothers (hnone others)
      · exact ih hrest hlater

/-- What holds of the old names and of all storable ones holds of the new ones. -/
theorem induct (P : List String → Prop) (h : LastSet part old arguments new) (hold : P old)
    (hset : ∀ names, Storable names → P names) : P new := by
  cases h with
  | kept => exact hold
  | set before hsets => exact hset _ hsets.1

end LastSet

/-- Arguments that are applied set parts, and each part has the names of the last argument for it. -/
theorem lastSet_of_foldlM (h : arguments.foldlM setByArgument list = .ok changed) :
    (∀ argument ∈ arguments, IsSetting argument) ∧
      ∀ part : Part, LastSet part (part.names list) arguments (part.names changed) := by
  induction arguments generalizing list with
  | nil =>
    cases h
    exact ⟨List.forall_mem_nil _, fun part => .kept (List.forall_mem_nil _)⟩
  | cons argument arguments ih =>
    rw [List.foldlM_cons] at h
    obtain ⟨next, hfirst, hrest⟩ := (bind_eq_ok_iff _ _ _).mp h
    obtain ⟨part, names, hsets, rfl⟩ := setByArgument_eq_ok_iff.mp hfirst
    obtain ⟨hall, hlast⟩ := ih hrest
    refine ⟨List.forall_mem_cons.mpr ⟨⟨part, names, hsets⟩, hall⟩, fun other => ?_⟩
    have hother := hlast other
    by_cases hpart : other = part
    · subst hpart
      rw [Part.names_set_self] at hother
      exact hother.cons_set hsets
    · rw [Part.names_set_of_ne hpart] at hother
      exact hother.cons_other fun others hothers => hpart (hothers.part_eq hsets)

theorem exists_foldlM_eq_ok (h : ∀ argument ∈ arguments, IsSetting argument) (list : AccessList) :
    ∃ changed, arguments.foldlM setByArgument list = .ok changed := by
  induction arguments generalizing list with
  | nil => exact ⟨list, rfl⟩
  | cons argument arguments ih =>
    obtain ⟨⟨part, names, hsets⟩, hrest⟩ := List.forall_mem_cons.mp h
    rw [List.foldlM_cons, setByArgument_of_sets hsets list]
    exact ih hrest _

namespace Channel

def withList (c : Channel) (action : Action) (list : AccessList) : Channel :=
  { c with acl := c.acl.setList list action }

variable (c : Channel) (action : Action)

theorem list_withList_self (list : AccessList) : (c.withList action list).acl.list action = list := by
  cases action <;> rfl

theorem list_withList_of_ne {other : Action} (h : other ≠ action) (list : AccessList) :
    (c.withList action list).acl.list other = c.acl.list other := by
  cases action <;> cases other <;> first | rfl | exact absurd rfl h

/-- The arguments are applied to the access list of the action, and the rest of the channel stays as it is. -/
theorem applyArguments_eq (arguments : List String) :
    c.applyArguments action arguments =
      (arguments.foldlM setByArgument (c.acl.list action)).map (c.withList action) := by
  unfold applyArguments
  induction arguments generalizing c with
  | nil => cases action <;> rfl
  | cons argument arguments ih =>
    rw [List.foldlM_cons, List.foldlM_cons, applyArgument]
    cases setByArgument (c.acl.list action) argument with
    | error e => rfl
    | ok next =>
      have hrest := ih (c.withList action next)
      rw [list_withList_self] at hrest
      refine hrest.trans ?_
      cases action <;> rfl

variable {c action} {arguments : List String}

/-- Arguments that are accepted change the access list of the action. -/
theorem applyArguments_eq_ok_iff {changed : Channel} :
    c.applyArguments action arguments = .ok changed ↔
      ∃ list, arguments.foldlM setByArgument (c.acl.list action) = .ok list ∧ changed = c.withList action list := by
  rw [applyArguments_eq]
  cases arguments.foldlM setByArgument (c.acl.list action) with
  | error e => simp [Except.map]
  | ok list => simp [Except.map, eq_comm]

end Channel

/-- A channel differs from another in one access list, in which arguments have set the parts. -/
structure Reset (action : Action) (arguments : List String) (c d : Channel) : Prop where
  name : d.name = c.name
  members : d.members = c.members
  others : ∀ other, other ≠ action → d.acl.list other = c.acl.list other
  parts : ∀ part : Part,
    LastSet part (part.names (c.acl.list action)) arguments (part.names (d.acl.list action))

theorem reset_withList {action : Action} {c : Channel}
    (h : arguments.foldlM setByArgument (c.acl.list action) = .ok list) :
    Reset action arguments c (c.withList action list) := by
  refine ⟨rfl, rfl, fun other hother => Channel.list_withList_of_ne c action hother list, fun part => ?_⟩
  rw [Channel.list_withList_self]
  exact (lastSet_of_foldlM h).2 part

theorem Reset.unique {action : Action} {c d e : Channel} (h : Reset action arguments c d)
    (k : Reset action arguments c e) : d = e := by
  have hlist (other : Action) : d.acl.list other = e.acl.list other := by
    by_cases hother : other = action
    · subst hother
      exact Part.eq_of_names fun part => (h.parts part).unique (k.parts part)
    · rw [h.others other hother, k.others other hother]
  obtain ⟨name, members, see, join⟩ := d
  obtain ⟨_, _, _, _⟩ := e
  cases h.name.trans k.name.symm
  cases h.members.trans k.members.symm
  cases hlist .see
  cases hlist .join
  rfl

/-- What becomes of a channel to which arguments are applied: if each of them sets a part of the access list for an
action, the list is set by them, and if not, nothing changes. -/
structure AfterSettings (action : Action) (arguments : List String) (c d : Channel) : Prop where
  set : (∀ argument ∈ arguments, IsSetting argument) → Reset action arguments c d
  kept : (¬ ∀ argument ∈ arguments, IsSetting argument) → d = c

theorem AfterSettings.unique {action : Action} {c d e : Channel} (h : AfterSettings action arguments c d)
    (k : AfterSettings action arguments c e) : d = e := by
  by_cases hall : ∀ argument ∈ arguments, IsSetting argument
  · exact (h.set hall).unique (k.set hall)
  · rw [h.kept hall, k.kept hall]

theorem afterSettings_of_ok {action : Action} {c changed : Channel}
    (h : c.applyArguments action arguments = .ok changed) : AfterSettings action arguments c changed := by
  obtain ⟨list, hlist, rfl⟩ := Channel.applyArguments_eq_ok_iff.mp h
  exact ⟨fun _ => reset_withList hlist, fun hnot => absurd (lastSet_of_foldlM hlist).1 hnot⟩

theorem afterSettings_of_error {action : Action} {c : Channel} {e : ArgumentError}
    (h : c.applyArguments action arguments = .error e) : AfterSettings action arguments c c := by
  refine ⟨fun hall => ?_, fun _ => rfl⟩
  obtain ⟨list, hlist⟩ := exists_foldlM_eq_ok hall (c.acl.list action)
  cases h.symm.trans (Channel.applyArguments_eq_ok_iff.mpr ⟨list, hlist, rfl⟩)

end WorldPlugins.Chat
