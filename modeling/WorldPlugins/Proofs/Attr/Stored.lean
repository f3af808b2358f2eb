import WorldPlugins.Attr.Basic
import WorldPlugins.Proofs.Json.Lossless

/-! # Stored attributes read back

An attribute has two written forms: the text that the world keeps, and the free-form value that a reply carries.
Both are read back as the attribute, and a list attribute holds exactly the fields that it was made from.
-/

namespace WorldPlugins

open Json (Decoder Field)

@[simp] theorem AttrType.ofName?_name (type : AttrType) : AttrType.ofName? type.name = some type := by
  cases type <;> rfl

namespace Attr

@[simp] theorem name_string (name value : String) : (string name value).name = name := rfl

@[simp] theorem value_string (name value : String) : (string name value).value = value := rfl

@[simp] theorem name_timestamp (name : String) (seconds : Int) : (timestamp name seconds).name = name := rfl

@[simp] theorem name_list (name : String) (fields : List Attr) : (list name fields).name = name := rfl

/-- A stored attribute is three members, each of them a text. -/
theorem lossless_stored : decoder.Lossless stored 1 fun _ _ => True := by
  have htype := Decoder.lossless_oneOf (AttrType.all.map AttrType.name) AttrType.ofName?_name
  refine Decoder.lossless_record (fun _ _ => True) "struct Attr" (fun fuel levels => ?_) (fun _ => trivial)
    fun levels a hlevels _ => ?_
  · simp only [List.forall_mem_cons]
    exact ⟨Field.keeps_of_lossless Decoder.lossless_string (fun _ _ _ _ => trivial) _ _,
      Field.keeps_of_lossless Decoder.lossless_string (fun _ _ _ _ => trivial) _ _,
      Field.keeps_of_lossless htype (fun _ _ _ _ => trivial) _ _, nofun⟩
  · exact ⟨[("name", .string a.name), ("value", .string a.value), ("type", .string a.type.name)], rfl,
      .member Decoder.lossless_string hlevels trivial rfl rfl
        (.member Decoder.lossless_string hlevels trivial rfl rfl
          (.member htype hlevels trivial rfl rfl (.nil _))), by simp, rfl⟩

theorem whole_stored (a : Attr) : a.stored.Whole := by
  refine .object ?_
  simp only [List.forall_mem_cons]
  exact ⟨.string _, .string _, .string _, nofun⟩

theorem ofString_text (a : Attr) : decoder.ofString a.text = .ok a :=
  lossless_stored.ofString_print (by decide) trivial (whole_stored a)

/-- A written list of attributes is read back. -/
theorem ofString_stored (fields : List Attr) :
    (Decoder.list decoder).ofString (Json.array (fields.map stored)).print = .ok fields := by
  refine (Decoder.lossless_list lossless_stored).ofString_print (by decide) (fun _ _ => trivial) (.array ?_)
  exact List.forall_mem_map.mpr fun a _ => whole_stored a

/-- A list attribute holds the fields that it was made from. -/
@[simp] theorem listValue_list (name : String) (fields : List Attr) :
    (list name fields).listValue = .ok fields := by
  simp [listValue, expect, decodeValue, list, ofString_stored, bind, Except.bind, Except.mapError]

/-- A nested attribute holds the attribute that it was made from. -/
@[simp] theorem nestedValue_nested (name : String) (inner : Attr) : (nested name inner).nestedValue = .ok inner := by
  simp [nestedValue, expect, decodeValue, nested, ofString_text, bind, Except.bind, Except.mapError]

theorem type_of_nestedValue {a inner : Attr} (h : a.nestedValue = .ok inner) : a.type = .attr := by
  by_contra hne
  simp [nestedValue, expect, hne, bind, Except.bind] at h

theorem type_of_listValue {a : Attr} {fields : List Attr} (h : a.listValue = .ok fields) : a.type = .attrList := by
  by_contra hne
  simp [listValue, expect, hne, bind, Except.bind] at h

/-- The free-form value of an attribute is read as that attribute. -/
@[simp] theorem ofJson_toJson (a : Attr) : decoder.ofJson a.toJson = .ok a := by
  simp [decoder, Decoder.record, toJson, Field.ofMembers, Field.needed, Field.make, Decoder.map,
    Decoder.string, AttrType.decoder, Decoder.oneOf, Field.missing?, bind, Except.bind, pure, Except.pure]

end Attr

end WorldPlugins
