import Mathlib.Data.List.Forall2
import WorldPlugins.Proofs.Attr.Stored

/-! # Trees of attributes

Attributes nest: one of type `ATTR` holds another as text, and one of type `ATTRLIST` holds any number.  A tree is
written from its leaves up, each level into the text of the level above, and read from its root down.  Whatever text
the leaves hold, and however deep the tree is, what is read is the tree that was written and nothing else.
-/

namespace WorldPlugins

def AttrType.isScalar : AttrType → Bool
  | .attr => false
  | .attrList => false
  | _ => true

inductive AttrTree
  | scalar (a : Attr) (h : a.type.isScalar = true)
  | nested (name : String) (inner : AttrTree)
  | list (name : String) (fields : List AttrTree)

namespace AttrTree

/-- Trees are built from scalars, each in one step from those directly below it. -/
theorem induct {p : AttrTree → Prop} (scalar : ∀ a h, p (.scalar a h))
    (nested : ∀ name inner, p inner → p (.nested name inner))
    (list : ∀ name fields, (∀ t ∈ fields, p t) → p (.list name fields)) (t : AttrTree) : p t := by
  refine AttrTree.rec (motive_1 := p) (motive_2 := fun ts => ∀ t ∈ ts, p t) scalar nested list ?_ ?_ t
  · exact List.forall_mem_nil p
  · intro t ts ht hts
    exact List.forall_mem_cons.mpr ⟨ht, hts⟩

def toAttr : AttrTree → Attr
  | .scalar a _ => a
  | .nested name inner => .nested name inner.toAttr
  | .list name fields => .list name (fields.map toAttr)

/-- An attribute is read as a tree from the root down, by its nested value or its fields wherever it has them. -/
inductive Decodes : Attr → AttrTree → Prop
  | scalar {a : Attr} (h : a.type.isScalar = true) : Decodes a (.scalar a h)
  | nested {a inner : Attr} {t : AttrTree} (hvalue : a.nestedValue = .ok inner) (hinner : Decodes inner t) :
      Decodes a (.nested a.name t)
  | list {a : Attr} {fields : List Attr} {ts : List AttrTree} (hvalue : a.listValue = .ok fields)
      (hfields : List.Forall₂ Decodes fields ts) : Decodes a (.list a.name ts)

theorem decodes_scalar_iff {a : Attr} (h : a.type.isScalar = true) (u : AttrTree) :
    Decodes a u ↔ u = .scalar a h := by
  constructor
  · intro hu
    cases hu with
    | scalar => rfl
    | nested hvalue =>
      rw [Attr.type_of_nestedValue hvalue] at h
      cases h
    | list hvalue =>
      rw [Attr.type_of_listValue hvalue] at h
      cases h
  · rintro rfl
    exact .scalar h

theorem decodes_nested_iff (name : String) (inner : Attr) (u : AttrTree) :
    Decodes (.nested name inner) u ↔ ∃ t, Decodes inner t ∧ u = .nested name t := by
  constructor
  · intro hu
    cases hu with
    | scalar h => cases h
    | nested hvalue hinner =>
      rw [Attr.nestedValue_nested, Except.ok.injEq] at hvalue
      rw [← hvalue] at hinner
      exact ⟨_, hinner, rfl⟩
    | list hvalue => cases Attr.type_of_listValue hvalue
  · rintro ⟨t, ht, rfl⟩
    exact .nested (Attr.nestedValue_nested name inner) ht

theorem decodes_list_iff (name : String) (fields : List Attr) (u : AttrTree) :
    Decodes (.list name fields) u ↔ ∃ ts, List.Forall₂ Decodes fields ts ∧ u = .list name ts := by
  constructor
  · intro hu
    cases hu with
    | scalar h => cases h
    | nested hvalue => cases Attr.type_of_nestedValue hvalue
    | list hvalue hfields =>
      rw [Attr.listValue_list, Except.ok.injEq] at hvalue
      rw [← hvalue] at hfields
      exact ⟨_, hfields, rfl⟩
  · rintro ⟨ts, hts, rfl⟩
    exact .list (Attr.listValue_list name fields) hts

/-- Fields that are each read as one tree only are together read as one list of trees only. -/
theorem forall₂_decodes_iff {ts : List AttrTree} (h : ∀ t ∈ ts, ∀ u, Decodes t.toAttr u ↔ u = t)
    (us : List AttrTree) : List.Forall₂ Decodes (ts.map toAttr) us ↔ us = ts := by
  induction ts generalizing us with
  | nil => simp
  | cons t ts ih =>
    obtain ⟨ht, hts⟩ := List.forall_mem_cons.mp h
    rw [List.map_cons, List.forall₂_cons_left_iff]
    constructor
    · rintro ⟨u, rest, hu, hrest, rfl⟩
      rw [(ht u).mp hu, (ih hts rest).mp hrest]
    · rintro rfl
      exact ⟨t, ts, (ht t).mpr rfl, (ih hts ts).mpr rfl, rfl⟩

/-- A written tree is read as that tree and as no other, at every depth and with its fields in their order. -/
theorem decodes_toAttr_iff (t u : AttrTree) : Decodes t.toAttr u ↔ u = t := by
  induction t using induct generalizing u with
  | scalar a h =>
    rw [toAttr]
    exact decodes_scalar_iff h u
  | nested name inner ih =>
    rw [toAttr, decodes_nested_iff]
    constructor
    · rintro ⟨t, ht, rfl⟩
      rw [(ih t).mp ht]
    · rintro rfl
      exact ⟨inner, (ih inner).mpr rfl, rfl⟩
  | list name fields ih =>
    rw [toAttr, decodes_list_iff]
    constructor
    · rintro ⟨ts, hts, rfl⟩
      rw [(forall₂_decodes_iff ih ts).mp hts]
    · rintro rfl
      exact ⟨fields, (forall₂_decodes_iff ih fields).mpr rfl, rfl⟩

end AttrTree

end WorldPlugins
