import WorldPlugins.Proofs.Store.Changes

/-! # What happened to the attributes of a store

A history tells, newest first, which things became known and which attributes were written and removed.  What a store
holds is read off its history: of each attribute what was last written, and the names in the order in which they were
first written since they were last removed.
-/

namespace WorldPlugins

inductive Change
  | known (thing : String)
  | written (thing : String) (attr : Attr)
  | removed (thing name : String)
  deriving DecidableEq, Repr

/-- What happened, newest first. -/
abbrev History := List Change

namespace History

def knows (thing : String) : History → Bool
  | [] => false
  | .known t :: h => t == thing || knows thing h
  | .written t _ :: h => t == thing || knows thing h
  | .removed _ _ :: h => knows thing h

/-- What was last written under a name, unless it was removed since. -/
def lastWritten? (thing name : String) : History → Option Attr
  | [] => none
  | .known _ :: h => lastWritten? thing name h
  | .written t a :: h => if t = thing ∧ a.name = name then some a else lastWritten? thing name h
  | .removed t n :: h => if t = thing ∧ n = name then none else lastWritten? thing name h

/-- When a name was first written since it was last removed, counted from the beginning. -/
def firstWritten? (thing name : String) : History → Option Nat
  | [] => none
  | .known _ :: h => firstWritten? thing name h
  | .written t a :: h =>
    if t = thing ∧ a.name = name then some ((firstWritten? thing name h).getD h.length) else firstWritten? thing name h
  | .removed t n :: h => if t = thing ∧ n = name then none else firstWritten? thing name h

def WrittenBefore (thing : String) (h : History) (m n : String) : Prop :=
  ∃ i j, h.firstWritten? thing m = some i ∧ h.firstWritten? thing n = some j ∧ i < j

variable {thing name m n : String} {h : History}

theorem isSome_firstWritten? (thing name : String) (h : History) :
    (h.firstWritten? thing name).isSome = (h.lastWritten? thing name).isSome := by
  induction h with
  | nil => rfl
  | cons c h ih =>
    cases c with
    | known t => exact ih
    | written t a =>
      rw [firstWritten?, lastWritten?]
      split
      · rfl
      · exact ih
    | removed t n =>
      rw [firstWritten?, lastWritten?]
      split
      · rfl
      · exact ih

theorem firstWritten?_lt {i : Nat} (hi : h.firstWritten? thing name = some i) : i < h.length := by
  induction h generalizing i with
  | nil => cases hi
  | cons c h ih =>
    rw [List.length_cons]
    cases c with
    | known t => exact Nat.lt_succ_of_lt (ih hi)
    | written t a =>
      rw [firstWritten?] at hi
      split at hi
      · cases hfirst : firstWritten? thing name h with
        | none =>
          rw [hfirst] at hi
          cases hi
          exact Nat.lt_succ_self _
        | some k =>
          rw [hfirst] at hi
          cases hi
          exact Nat.lt_succ_of_lt (ih hfirst)
      · exact Nat.lt_succ_of_lt (ih hi)
    | removed t n =>
      rw [firstWritten?] at hi
      split at hi
      · cases hi
      · exact Nat.lt_succ_of_lt (ih hi)

theorem WrittenBefore.ne (hbefore : h.WrittenBefore thing m n) : m ≠ n := by
  rintro rfl
  obtain ⟨i, j, hi, hj, hlt⟩ := hbefore
  have hsame : i = j := Option.some.inj (hi.symm.trans hj)
  omega

/-- What happens elsewhere does not change which of two names came first. -/
theorem WrittenBefore.of_eq {h' : History} (hbefore : h.WrittenBefore thing m n)
    (hm : h'.firstWritten? thing m = h.firstWritten? thing m)
    (hn : h'.firstWritten? thing n = h.firstWritten? thing n) : h'.WrittenBefore thing m n := by
  obtain ⟨i, j, hi, hj, hlt⟩ := hbefore
  exact ⟨i, j, hm.trans hi, hn.trans hj, hlt⟩

/-- Writing what is written already does not make it later. -/
theorem firstWritten?_written (t : String) (a : Attr) (hname : (h.firstWritten? thing name).isSome = true) :
    History.firstWritten? thing name (.written t a :: h) = h.firstWritten? thing name := by
  obtain ⟨i, hi⟩ := Option.isSome_iff_exists.mp hname
  rw [firstWritten?, hi]
  split <;> rfl

end History

namespace Store

open History (WrittenBefore)

/-- A store holds what its history tells. -/
structure Reflects (h : History) (s : Store) : Prop where
  known : ∀ thing, (s.thing? thing).isSome = h.knows thing
  read : ∀ thing name, s.attr? thing name = h.lastWritten? thing name
  order : ∀ thing, ((s.attributes thing).map Attr.name).Pairwise (h.WrittenBefore thing)

variable {h : History} {s t : Store}

theorem Reflects.nodup (hs : Reflects h s) (thing : String) : ((s.attributes thing).map Attr.name).Nodup :=
  (hs.order thing).imp History.WrittenBefore.ne

theorem Reflects.mem_names_iff (hs : Reflects h s) (thing name : String) :
    name ∈ (s.attributes thing).map Attr.name ↔ (h.lastWritten? thing name).isSome = true := by
  rw [Store.mem_names_iff, hs.read]

/-- The names of a thing have been written. -/
theorem Reflects.isSome_firstWritten? (hs : Reflects h s) {thing name : String}
    (hname : name ∈ (s.attributes thing).map Attr.name) : (h.firstWritten? thing name).isSome = true := by
  rw [History.isSome_firstWritten?]
  exact (hs.mem_names_iff thing name).mp hname

theorem reflects_empty : Reflects [] Store.empty :=
  ⟨fun _ => rfl, fun _ _ => rfl, fun _ => List.Pairwise.nil⟩

/-- What a store holds are its things. -/
theorem Reflects.of_things (hs : Reflects h s) (hthings : t.things = s.things) : Reflects h t := by
  refine ⟨?_, ?_, ?_⟩
  · intro thing
    rw [thing?_congr hthings, hs.known]
  · intro thing name
    rw [attr?_congr hthings, hs.read]
  · intro thing
    rw [attributes_congr hthings]
    exact hs.order thing

theorem thing?_setAttributes (s : Store) (thing other : String) (attrs : List Attr) :
    (s.setAttributes thing attrs).thing? other = if thing = other then some attrs else s.thing? other := by
  by_cases hthing : thing = other
  · rw [← hthing, if_pos rfl, thing?_setAttributes_self]
  · rw [if_neg hthing, thing?_setAttributes_of_ne s (Ne.symm hthing)]

private theorem isSome_thing?_setAttributes (hs : Reflects h s) (thing other : String) (attrs : List Attr) :
    ((s.setAttributes thing attrs).thing? other).isSome = (thing == other || h.knows other) := by
  rw [thing?_setAttributes]
  by_cases hthing : thing = other
  · simp [hthing]
  · simp [hthing, hs.known]

/-- Making a thing known leaves its attributes. -/
theorem Reflects.withThing (hs : Reflects h s) (thing : String) : Reflects (.known thing :: h) (s.withThing thing) := by
  have hattributes (other : String) : (s.withThing thing).attributes other = s.attributes other := by
    rw [Store.withThing, attributes, thing?_setAttributes]
    split
    · next hthing => rw [← hthing, Option.getD_some]
    · rfl
  refine ⟨fun other => isSome_thing?_setAttributes hs thing other _, ?_, ?_⟩
  · intro other name
    rw [attr?, hattributes]
    exact hs.read other name
  · intro other
    rw [hattributes]
    exact hs.order other

theorem Reflects.withAttr (hs : Reflects h s) (thing : String) (attr : Attr) :
    Reflects (.written thing attr :: h) (s.withAttr thing attr) := by
  refine ⟨fun other => isSome_thing?_setAttributes hs thing other _, ?_, ?_⟩
  · intro other name
    rw [History.lastWritten?]
    split
    · next hsame =>
      obtain ⟨rfl, rfl⟩ := hsame
      exact attr?_withAttr_self s thing attr
    · next hother =>
      rw [attr?_withAttr_of_ne s fun hsame => hother ⟨hsame.1.symm, hsame.2.symm⟩]
      exact hs.read other name
  · intro other
    have hkept : ((s.attributes other).map Attr.name).Pairwise
        (History.WrittenBefore other (.written thing attr :: h)) := by
      refine (hs.order other).imp_of_mem ?_
      intro m n hm hn hbefore
      exact hbefore.of_eq (History.firstWritten?_written thing attr (hs.isSome_firstWritten? hm))
        (History.firstWritten?_written thing attr (hs.isSome_firstWritten? hn))
    by_cases hthing : other = thing
    · subst hthing
      rw [attributes_withAttr_self, Attr.map_name_upsert]
      split
      · exact hkept
      · next hnew =>
        refine List.pairwise_append.mpr ⟨hkept, List.pairwise_singleton _ _, ?_⟩
        intro m hm n hn
        obtain rfl := List.mem_singleton.mp hn
        obtain ⟨i, hi⟩ := Option.isSome_iff_exists.mp (hs.isSome_firstWritten? hm)
        have hnone : h.firstWritten? other attr.name = none := by
          rw [← Option.not_isSome_iff_eq_none, History.isSome_firstWritten?, ← hs.mem_names_iff]
          exact hnew
        refine ⟨i, h.length, ?_, ?_, History.firstWritten?_lt hi⟩
        · rw [History.firstWritten?_written other attr (by rw [hi]; rfl), hi]
        · rw [History.firstWritten?, if_pos ⟨rfl, rfl⟩, hnone, Option.getD_none]
    · rw [Store.withAttr, attributes_setAttributes_of_ne s hthing]
      exact hkept

/-- Removing a name takes it out and leaves the others in their order. -/
theorem Reflects.without (hs : Reflects h s) (thing name : String) (hknown : (s.thing? thing).isSome = true) :
    Reflects (.removed thing name :: h) (s.without thing name) := by
  have hfirst {other rest : String} (hne : ¬ (thing = other ∧ name = rest)) :
      History.firstWritten? other rest (.removed thing name :: h) = h.firstWritten? other rest := by
    rw [History.firstWritten?, if_neg hne]
  refine ⟨?_, ?_, ?_⟩
  · intro other
    rw [Store.without, isSome_thing?_setAttributes hs thing other, History.knows, ← hs.known other]
    by_cases hthing : thing = other
    · subst hthing
      rw [hknown, Bool.or_true]
    · simp [hthing]
  · intro other rest
    rw [History.lastWritten?]
    split
    · next hsame =>
      obtain ⟨rfl, rfl⟩ := hsame
      exact attr?_without_self s thing name
    · next hother =>
      rw [attr?_without_of_ne s fun hsame => hother ⟨hsame.1.symm, hsame.2.symm⟩]
      exact hs.read other rest
  · intro other
    by_cases hthing : other = thing
    · subst hthing
      have hkept := (List.pairwise_map.mp (hs.order other)).filter fun a => a.name != name
      rw [attributes_without_self]
      refine List.pairwise_map.mpr (hkept.imp_of_mem ?_)
      intro a b ha hb hbefore
      have hne {c : Attr} (hc : c ∈ (s.attributes other).filter fun c => c.name != name) :
          ¬ (other = other ∧ name = c.name) := by
        rintro ⟨-, hname⟩
        simp [hname] at hc
      exact hbefore.of_eq (hfirst (hne ha)) (hfirst (hne hb))
    · rw [Store.without, attributes_setAttributes_of_ne s hthing]
      refine (hs.order other).imp ?_
      intro m n hbefore
      exact hbefore.of_eq (hfirst fun hsame => hthing hsame.1.symm) (hfirst fun hsame => hthing hsame.1.symm)

end Store

end WorldPlugins
