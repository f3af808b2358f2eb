import WorldPlugins.Proofs.Attr.Spec
import WorldPlugins.Proofs.Attr.Stored

/-! # The two forms of a specification

An attribute is read from a text only if the text is its specification, or the short form of it for the type `STRING`.
So what is read can always be written as a specification and read again, and the attributes whose specification is not
read back are those whose name is empty or has a bracket.
-/

namespace WorldPlugins

namespace AttrType

theorem ofName?_eq_some_iff {text : String} {type : AttrType} : ofName? text = some type ↔ text = type.name := by
  constructor
  · intro h
    have hname := List.find?_some (p := fun type : AttrType => type.name == text) h
    exact (beq_iff_eq.mp hname).symm
  · rintro rfl
    exact ofName?_name type

theorem name_ne_empty (type : AttrType) : type.name ≠ "" := by
  cases type <;> decide

theorem close_notMem_name (type : AttrType) : ']' ∉ type.name.toList := by
  cases type <;> decide

end AttrType

namespace Attr

variable {text : String} {a : Attr}

/-- The parts of a specification without a type are told by its first equals sign. -/
theorem plainParts?_eq_some_iff {text name value : List Char} :
    plainParts? text = some (name, value) ↔
      text = name ++ '=' :: value ∧ '=' ∉ name ∧ name ≠ [] ∧ '[' ∉ name := by
  constructor
  · intro h
    obtain ⟨⟨first, rest⟩, hcut, hparts⟩ := Option.bind_eq_some_iff.mp h
    obtain ⟨rfl, hequals⟩ := cut_eq_some_iff.mp hcut
    dsimp only at hparts
    split at hparts
    · next hname =>
      cases hparts
      exact ⟨rfl, hequals, hname⟩
    · cases hparts
  · rintro ⟨rfl, hequals, hname, hbracket⟩
    exact plainParts?_append hname hbracket hequals value

/-- The text gives an attribute of type `STRING` by its name and its value alone, and does not go on like a
specification with a type. -/
structure ShortForm (text : String) (a : Attr) : Prop where
  type : a.type = .string
  parts : text = a.name ++ "=" ++ a.value
  no_equals : '=' ∉ a.name.toList
  untyped : ∀ before type after, ¬ Bracketed text before type after

theorem shortForm_of_plainParts? {name value : List Char} (htyped : typedParts? text.toList = none)
    (h : plainParts? text.toList = some (name, value)) :
    ShortForm text (.string (String.ofList name) (String.ofList value)) := by
  obtain ⟨htext, hequals, hname, hbracket⟩ := plainParts?_eq_some_iff.mp h
  have hparts : text = String.ofList name ++ "=" ++ String.ofList value :=
    String.toList_injective (by simp [htext])
  refine ⟨rfl, hparts, by simpa using hequals, ?_⟩
  intro before type after hbracketed
  have hbefore : before ≠ "" := by
    rw [hparts] at hbracketed
    obtain ⟨inner, rfl, -⟩ := (bracketed_append_iff (by simpa using hbracket)).mp hbracketed
    simp
  rw [typedParts?_toList_eq_some_iff.mpr ⟨hbracketed, hbefore⟩] at htyped
  cases htyped

theorem bracketed_spec (h : '[' ∉ a.name.toList) : Bracketed a.spec a.name a.type.name a.value :=
  ⟨by simp only [spec, String.append_assoc], h, a.type.close_notMem_name, a.type.name_ne_empty⟩

theorem ofSpec_spec (hname : a.name ≠ "") (hbracket : '[' ∉ a.name.toList) : ofSpec a.spec = .ok a := by
  rw [ofSpec_of_bracketed (bracketed_spec hbracket) hname, AttrType.ofName?_name]

theorem ofSpec_of_shortForm (hname : a.name ≠ "") (hbracket : '[' ∉ a.name.toList) (h : ShortForm text a) :
    ofSpec text = .ok a := by
  obtain ⟨htype, rfl, hequals, huntyped⟩ := h
  rw [ofSpec_of_not_bracketed hname hbracket hequals huntyped, string, ← htype]

/-- An attribute is read from its specification and from its short form, and from no other text; its name is not empty
and has no bracket. -/
theorem ofSpec_eq_ok_iff :
    ofSpec text = .ok a ↔ (a.name ≠ "" ∧ '[' ∉ a.name.toList) ∧ (text = a.spec ∨ ShortForm text a) := by
  constructor
  · intro h
    unfold ofSpec at h
    split at h
    · next name type value hparts =>
      rw [typedParts?_eq_some_iff] at hparts
      obtain ⟨htext, ⟨hbracket, hname⟩, -, -⟩ := hparts
      split at h
      · next type htype =>
        cases h
        have hspec : text = spec ⟨String.ofList name, String.ofList value, type⟩ := by
          refine String.toList_injective ?_
          simp [htext, spec, ← AttrType.ofName?_eq_some_iff.mp htype]
        exact ⟨⟨by simpa using hname, by simpa using hbracket⟩, .inl hspec⟩
      · cases h
    · next htyped =>
      split at h
      · next name value hparts =>
        cases h
        obtain ⟨-, -, hname, hbracket⟩ := plainParts?_eq_some_iff.mp hparts
        exact ⟨⟨by simpa using hname, by simpa using hbracket⟩, .inr (shortForm_of_plainParts? htyped hparts)⟩
      · cases h
  · rintro ⟨⟨hname, hbracket⟩, rfl | hshort⟩
    · exact ofSpec_spec hname hbracket
    · exact ofSpec_of_shortForm hname hbracket hshort

/-- A specification is read back as its attribute exactly if the name is not empty and has no bracket.  A text that is
read at all is the specification of what is read, or the short form of one of type `STRING`, and in either case the
specification is read as the same attribute. -/
theorem specs_correspond (a : Attr) :
    (ofSpec a.spec = .ok a ↔ a.name ≠ "" ∧ '[' ∉ a.name.toList) ∧
      ∀ text, ofSpec text = .ok a →
        (text = a.spec ∨ a.type = .string ∧ text = a.name ++ "=" ++ a.value) ∧ ofSpec a.spec = .ok a := by
  refine ⟨⟨fun h => (ofSpec_eq_ok_iff.mp h).1, fun h => ofSpec_spec h.1 h.2⟩, fun text h => ?_⟩
  obtain ⟨⟨hname, hbracket⟩, hforms⟩ := ofSpec_eq_ok_iff.mp h
  exact ⟨hforms.imp_right fun hshort => ⟨hshort.type, hshort.parts⟩, ofSpec_spec hname hbracket⟩

/-- A value with a bracket is read from the short form too, since nothing in it ends one.  A name may have an equals sign
and a closing bracket, and the value may look like a specification. -/
theorem specs_correspond_note :
    let note := string "note" "a[b=c"
    let odd : Attr := ⟨"b]=c", "d[ATTR]=e", .integer⟩
    ofSpec "note=a[b=c" = .ok note ∧
      ("note=a[b=c" = note.spec ∨ note.type = .string ∧ "note=a[b=c" = note.name ++ "=" ++ note.value) ∧
      ofSpec note.spec = .ok note ∧ ofSpec odd.spec = .ok odd := by
  intro note odd
  have hread : ofSpec "note=a[b=c" = .ok note := by rfl
  obtain ⟨hform, hback⟩ := (specs_correspond note).2 "note=a[b=c" hread
  exact ⟨hread, hform, hback, (specs_correspond odd).1.mpr (by decide)⟩

end Attr

end WorldPlugins
