import Mathlib.Data.List.Nodup
import WorldPlugins.Proofs.Store.Reliable

/-! # Worlds that differ in the order of attributes

The attributes of a thing are kept in the order of their first writing.  As a thing has one attribute of a name, what is
read under a name does not depend on that order, and neither does anything that is told of all of them in an order of
its own.
-/

namespace WorldPlugins.Store

/-- The same world, with the attributes of its things in another order. -/
structure Reordered (s t : Store) : Prop where
  rest : t = { s with things := t.things }
  known : ∀ thing, (t.thing? thing).isSome = (s.thing? thing).isSome
  attributes : ∀ thing, (t.attributes thing).Perm (s.attributes thing)

/-- A thing has at most one attribute of each name. -/
def Named (s : Store) (thing : String) : Prop := ((s.attributes thing).map Attr.name).Nodup

theorem Reordered.refl (s : Store) : s.Reordered s := ⟨rfl, fun _ => rfl, fun _ => .refl _⟩

theorem Named.eq_of_name_eq {s : Store} {thing : String} (hnamed : s.Named thing) {a b : Attr}
    (ha : a ∈ s.attributes thing) (hb : b ∈ s.attributes thing) (h : a.name = b.name) : a = b :=
  List.inj_on_of_nodup_map hnamed ha hb h

/-- What is read under a name is the one attribute that has it. -/
theorem Named.attr?_eq_some_iff {s : Store} {thing name : String} (hnamed : s.Named thing) (a : Attr) :
    s.attr? thing name = some a ↔ a ∈ s.attributes thing ∧ a.name = name := by
  constructor
  · intro ha
    exact ⟨List.mem_of_find?_eq_some ha, s.name_of_attr? thing name ha⟩
  · rintro ⟨ha, rfl⟩
    obtain ⟨b, hb⟩ : ∃ b, s.attr? thing a.name = some b :=
      Option.isSome_iff_exists.mp ((s.mem_names_iff thing a.name).mp (List.mem_map_of_mem ha))
    have hsame : b = a :=
      hnamed.eq_of_name_eq (List.mem_of_find?_eq_some hb) ha (s.name_of_attr? thing a.name hb)
    rwa [hsame] at hb

theorem named_empty (thing : String) : Store.empty.Named thing := List.nodup_nil

theorem named_setAttributes {s : Store} {id thing : String} {attrs : List Attr} (h : s.Named thing)
    (hattrs : (attrs.map Attr.name).Nodup) : (s.setAttributes id attrs).Named thing := by
  rw [Named]
  by_cases hsame : thing = id
  · rwa [hsame, attributes_setAttributes_self]
  · rwa [s.attributes_setAttributes_of_ne hsame]

section

variable {s : Store} (h : ∀ thing, s.Named thing)

include h

theorem named_withThing (id : String) : ∀ thing, (s.withThing id).Named thing :=
  fun thing => named_setAttributes (h thing) (h id)

/-- An attribute is written in place of any other of its name. -/
theorem named_withAttr (id : String) (a : Attr) : ∀ thing, (s.withAttr id a).Named thing :=
  fun thing => named_setAttributes (h thing) (Attr.nodup_upsert (h id) a)

end

namespace Reordered

variable {s t : Store} (h : s.Reordered t)

include h

theorem mem_iff (thing : String) (a : Attr) : a ∈ t.attributes thing ↔ a ∈ s.attributes thing :=
  (h.attributes thing).mem_iff

theorem named {thing : String} (hnamed : s.Named thing) : t.Named thing :=
  ((h.attributes thing).map Attr.name).nodup_iff.mpr hnamed

theorem failures : t.failures = s.failures := by rw [h.rest]

theorem caller : t.caller = s.caller := by rw [h.rest]

theorem reliable (hs : s.Reliable) : t.Reliable := h.failures.trans hs

theorem fetchRoles (player : String) : t.fetchRoles player = s.fetchRoles player := by
  have hroles : t.roles = s.roles := by rw [h.rest]
  rw [Store.fetchRoles, fault?, h.failures, hroles, Store.fetchRoles, fault?]

end Reordered

end WorldPlugins.Store
