import Mathlib.Data.List.Forall2
import WorldPlugins.Attr.Value
import WorldPlugins.Proofs.Attr.Stored
import WorldPlugins.Proofs.Except
import WorldPlugins.Proofs.Text.Integer

/-! # Typed values read back

A value is written in one way and may be read from many: an integer from any numeral for it, a truth value from its word
in large and small letters, an attribute from any JSON text of it.  `Means` tells all of them.  Writing what was read
again gives the one way, and from then on nothing changes.
-/

namespace WorldPlugins

namespace Text

private theorem toNat_toLower (c : Char) :
    c.toLower.toNat = if 65 ≤ c.toNat ∧ c.toNat ≤ 90 then c.toNat + 32 else c.toNat := by
  have hshift : ('a'.val - 'A'.val).toNat = 32 := by decide
  unfold Char.toLower
  change Char.toNat (if h : 65 ≤ c.toNat ∧ c.toNat ≤ 90 then _ else c) = _
  split
  · have hsum : (c.val + ('a'.val - 'A'.val)).toNat = (c.toNat + 32) % 2 ^ 32 := by
      rw [UInt32.toNat_add, hshift, Char.toNat]
    exact hsum.trans (by omega)
  · rfl

private theorem toNat_toUpper (c : Char) :
    c.toUpper.toNat = if 97 ≤ c.toNat ∧ c.toNat ≤ 122 then c.toNat - 32 else c.toNat := by
  have hshift : ('A'.val - 'a'.val).toNat = 4294967264 := by decide
  unfold Char.toUpper
  change Char.toNat (if h : 97 ≤ c.toNat ∧ c.toNat ≤ 122 then _ else c) = _
  split
  · have hsum : (c.val + ('A'.val - 'a'.val)).toNat = (c.toNat + 4294967264) % 2 ^ 32 := by
      rw [UInt32.toNat_add, hshift, Char.toNat]
    exact hsum.trans (by omega)
  · rfl

private theorem toLower_eq_iff {c letter : Char} (h : 97 ≤ letter.toNat ∧ letter.toNat ≤ 122) :
    c.toLower = letter ↔ c = letter ∨ c = letter.toUpper := by
  rw [← Char.toNat_inj, ← Char.toNat_inj, ← Char.toNat_inj, toNat_toLower, toNat_toUpper, if_pos h]
  split <;> omega

def Spells (word text : String) : Prop :=
  List.Forall₂ (fun letter c => c = letter ∨ c = letter.toUpper) word.toList text.toList

theorem map_toLower_eq_iff (word : String) {text : String}
    (h : ∀ letter ∈ word.toList, 97 ≤ letter.toNat ∧ letter.toNat ≤ 122) :
    text.toList.map Char.toLower = word.toList ↔ Spells word text := by
  unfold Spells
  generalize word.toList = letters at h
  generalize text.toList = cs
  induction letters generalizing cs with
  | nil => simp
  | cons letter letters ih =>
    obtain ⟨hletter, hletters⟩ := List.forall_mem_cons.mp h
    cases cs with
    | nil => simp
    | cons c cs =>
      rw [List.map_cons, List.cons.injEq, List.forall₂_cons, toLower_eq_iff hletter, ih hletters]

end Text

namespace Attr

variable {a : Attr}

private theorem expect_bind_eq_ok_iff {α : Type} {type : AttrType} {q : Except AttrError α} {x : α} :
    (do a.expect type; q) = .ok x ↔ a.type = type ∧ q = .ok x := by
  unfold expect
  split
  · next h => simp [h, bind, Except.bind]
  · next h => simp [h, bind, Except.bind]

theorem number_eq_ok_iff {i : Int} : a.number = .ok i ↔ Text.Numeral a.value.toList i ∧ Text.IsInt64 i := by
  rw [← Text.integer?_eq_some_iff, number]
  split
  · next j h => simp [h]
  · next h => simp [h]

theorem integerValue_eq_ok_iff {i : Int} :
    a.integerValue = .ok i ↔ a.type = .integer ∧ Text.Numeral a.value.toList i ∧ Text.IsInt64 i :=
  expect_bind_eq_ok_iff.trans (and_congr_right fun _ => number_eq_ok_iff)

theorem epochSeconds_eq_ok_iff {seconds : Int} :
    a.epochSeconds = .ok seconds ↔ a.type = .timestamp ∧ Text.Numeral a.value.toList seconds ∧ Text.IsInt64 seconds :=
  expect_bind_eq_ok_iff.trans (and_congr_right fun _ => number_eq_ok_iff)

theorem nestedValue_eq_ok_iff {inner : Attr} :
    a.nestedValue = .ok inner ↔ a.type = .attr ∧ decoder.ofString a.value = .ok inner :=
  expect_bind_eq_ok_iff.trans (and_congr_right fun _ => mapError_eq_ok_iff _ _ _)

theorem listValue_eq_ok_iff {fields : List Attr} :
    a.listValue = .ok fields ↔ a.type = .attrList ∧ (Json.Decoder.list decoder).ofString a.value = .ok fields :=
  expect_bind_eq_ok_iff.trans (and_congr_right fun _ => mapError_eq_ok_iff _ _ _)

theorem booleanValue_eq_ok_iff {b : Bool} :
    a.booleanValue = .ok b ↔ a.type = .boolean ∧ Text.Spells (if b then "true" else "false") a.value := by
  have htrue : a.value.toList.map Char.toLower = ['t', 'r', 'u', 'e'] ↔ Text.Spells "true" a.value :=
    Text.map_toLower_eq_iff "true" (by simp)
  have hfalse : a.value.toList.map Char.toLower = ['f', 'a', 'l', 's', 'e'] ↔ Text.Spells "false" a.value :=
    Text.map_toLower_eq_iff "false" (by simp)
  rw [booleanValue, expect_bind_eq_ok_iff]
  refine and_congr_right fun _ => ?_
  dsimp only
  by_cases hspellsTrue : Text.Spells "true" a.value
  · have hother : ¬ Text.Spells "false" a.value := fun h => by cases (htrue.mpr hspellsTrue).symm.trans (hfalse.mpr h)
    rw [if_pos (htrue.mpr hspellsTrue)]
    cases b <;> simp [pure, Except.pure, hspellsTrue, hother]
  rw [if_neg (hspellsTrue ∘ htrue.mp)]
  by_cases hspellsFalse : Text.Spells "false" a.value
  · rw [if_pos (hfalse.mpr hspellsFalse)]
    cases b <;> simp [pure, Except.pure, hspellsTrue, hspellsFalse]
  · rw [if_neg (hspellsFalse ∘ hfalse.mp)]
    cases b <;> simp [hspellsTrue, hspellsFalse]

end Attr

namespace AttrValue

variable {a : Attr} {v : AttrValue}

/-- What an attribute means, by its type. -/
def Means (a : Attr) (v : AttrValue) : Prop :=
  match a.type with
  | .string => v = .string a.value
  | .integer => ∃ i, v = .integer i ∧ Text.Numeral a.value.toList i ∧ Text.IsInt64 i
  | .boolean => ∃ b, v = .boolean b ∧ Text.Spells (if b then "true" else "false") a.value
  | .timestamp => ∃ seconds, v = .timestamp seconds ∧ Text.Numeral a.value.toList seconds ∧ Text.IsInt64 seconds
  | .thing => v = .thing a.value
  | .attr => ∃ inner, v = .attr inner ∧ Attr.decoder.ofString a.value = .ok inner
  | .attrList => ∃ fields, v = .attrList fields ∧ (Json.Decoder.list Attr.decoder).ofString a.value = .ok fields

private theorem map_of_eq_ok_iff {α : Type} {type : AttrType} {q : Except AttrError α} {f : α → AttrValue}
    {p : α → Prop} (htype : a.type = type) (h : ∀ x, q = .ok x ↔ a.type = type ∧ p x) :
    q.map f = .ok v ↔ ∃ x, v = f x ∧ p x := by
  rw [map_eq_ok_iff]
  refine exists_congr fun x => ?_
  rw [h, and_iff_right htype, and_comm, eq_comm]

/-- A value is decoded exactly if the attribute means it. -/
theorem decode_eq_ok_iff : decode a = .ok v ↔ Means a v := by
  unfold decode Means
  cases htype : a.type with
  | string => simp only [Except.ok.injEq, eq_comm]
  | integer => exact map_of_eq_ok_iff htype fun i => Attr.integerValue_eq_ok_iff
  | boolean => exact map_of_eq_ok_iff htype fun b => Attr.booleanValue_eq_ok_iff
  | timestamp => exact map_of_eq_ok_iff htype fun seconds => Attr.epochSeconds_eq_ok_iff
  | thing => simp only [Except.ok.injEq, eq_comm]
  | attr => exact map_of_eq_ok_iff htype fun inner => Attr.nestedValue_eq_ok_iff
  | attrList => exact map_of_eq_ok_iff htype fun fields => Attr.listValue_eq_ok_iff

/-- The number in a value, if there is one, has 64 bits. -/
def Fits : AttrValue → Prop
  | .integer i => Text.IsInt64 i
  | .timestamp seconds => Text.IsInt64 seconds
  | _ => True

@[simp] theorem name_toAttr (v : AttrValue) (name : String) : (v.toAttr name).name = name := by
  cases v <;> rfl

@[simp] theorem type_toAttr (v : AttrValue) (name : String) : (v.toAttr name).type = v.type := by
  cases v <;> rfl

theorem Means.type_eq_and_fits (h : Means a v) : v.type = a.type ∧ v.Fits := by
  unfold Means at h
  cases htype : a.type with
  | string | thing =>
    rw [htype] at h
    subst h
    exact ⟨rfl, trivial⟩
  | integer | timestamp =>
    rw [htype] at h
    obtain ⟨i, rfl, -, hfits⟩ := h
    exact ⟨rfl, hfits⟩
  | boolean | attr | attrList =>
    rw [htype] at h
    obtain ⟨x, rfl, -⟩ := h
    exact ⟨rfl, trivial⟩

/-- What is written means the value, if its number has 64 bits. -/
theorem means_toAttr (h : v.Fits) (name : String) : Means (v.toAttr name) v := by
  have hnumeral (i : Int) : Text.Numeral (Text.showInteger i).toList i := by
    rw [Text.showInteger, String.toList_ofList]
    exact Text.numeral_integer i
  cases v with
  | string text => exact rfl
  | integer i => exact ⟨i, rfl, hnumeral i, h⟩
  | boolean b =>
    refine ⟨b, rfl, ?_⟩
    cases b <;> exact List.forall₂_same.mpr fun _ _ => .inl rfl
  | timestamp seconds => exact ⟨seconds, rfl, hnumeral seconds, h⟩
  | thing id => exact rfl
  | attr inner => exact ⟨inner, rfl, Attr.ofString_text inner⟩
  | attrList fields => exact ⟨fields, rfl, Attr.ofString_stored fields⟩

/-- Every value is read back from what is written for it, so far as its number has 64 bits.  Writing again what was read
keeps the name, the type and the value, and once it is written so nothing changes any more.  A number is read from its
numerals and from nothing else, and a truth value from its word. -/
theorem values_canonical (a : Attr) (v : AttrValue) (name : String) :
    ((v.toAttr name).name = name ∧ (v.toAttr name).type = v.type ∧ (decode (v.toAttr name) = .ok v ↔ v.Fits)) ∧
      (decode a = .ok v →
        let b := v.toAttr a.name
        b.name = a.name ∧ b.type = a.type ∧ decode b = .ok v ∧ (decode b).map (toAttr b.name) = .ok b) ∧
      (a.type = .integer →
        (decode a = .ok v ↔ ∃ i, v = .integer i ∧ Text.Numeral a.value.toList i ∧ Text.IsInt64 i)) ∧
      (a.type = .timestamp →
        (decode a = .ok v ↔ ∃ i, v = .timestamp i ∧ Text.Numeral a.value.toList i ∧ Text.IsInt64 i)) ∧
      (a.type = .boolean →
        (decode a = .ok v ↔ ∃ b, v = .boolean b ∧ Text.Spells (if b then "true" else "false") a.value)) := by
  have hback (name : String) : decode (v.toAttr name) = .ok v ↔ v.Fits := by
    rw [decode_eq_ok_iff]
    exact ⟨fun h => h.type_eq_and_fits.2, fun h => means_toAttr h name⟩
  refine ⟨⟨name_toAttr v name, type_toAttr v name, hback name⟩, fun h => ?_, ?_⟩
  · obtain ⟨htype, hfits⟩ := (decode_eq_ok_iff.mp h).type_eq_and_fits
    have hread := (hback a.name).mpr hfits
    refine ⟨name_toAttr v a.name, (type_toAttr v a.name).trans htype, hread, ?_⟩
    rw [hread, name_toAttr]
    rfl
  · rw [decode_eq_ok_iff, Means]
    refine ⟨fun h => ?_, fun h => ?_, fun h => ?_⟩ <;> rw [h]

/-- The least integer of all is read back.  A sign, zeros in front and the size of letters are lost in writing again, and
one more than the greatest integer is not read. -/
theorem values_canonical_visits :
    let visits : Attr := ⟨"visits", "+007", .integer⟩
    let opened : Attr := ⟨"opened", "-0", .timestamp⟩
    let closed : Attr := ⟨"closed", "tRUE", .boolean⟩
    let many : Attr := ⟨"many", "9223372036854775808", .integer⟩
    decode ((integer (-9223372036854775808)).toAttr "debt") = .ok (.integer (-9223372036854775808)) ∧
      (decode visits = .ok (.integer 7) ∧ ((integer 7).toAttr "visits").value = "7" ∧
        decode ((integer 7).toAttr "visits") = .ok (.integer 7)) ∧
      (decode opened = .ok (.timestamp 0) ∧ ∃ i, timestamp 0 = .timestamp i ∧ Text.Numeral opened.value.toList i ∧
        Text.IsInt64 i) ∧
      decode closed = .ok (.boolean true) ∧
      ¬ ∃ i, integer 9223372036854775808 = .integer i ∧ Text.Numeral many.value.toList i ∧ Text.IsInt64 i := by
  intro visits opened closed many
  have hvisits : decode visits = .ok (.integer 7) := by decide +kernel
  have hopened : decode opened = .ok (.timestamp 0) := by decide +kernel
  have hmany : ∀ v, decode many ≠ .ok v := by
    have herror : (decode many).toBool = false := by decide +kernel
    intro v hv
    rw [hv] at herror
    cases herror
  refine ⟨?_, ⟨hvisits, by decide, ?_⟩, ⟨hopened, ?_⟩, ?_, ?_⟩
  · exact (values_canonical visits _ "debt").1.2.2.mpr (by decide : Text.IsInt64 (-9223372036854775808))
  · exact ((values_canonical visits (.integer 7) "").2.1 hvisits).2.2.1
  · exact ((values_canonical opened (.timestamp 0) "").2.2.2.1 rfl).mp hopened
  · refine ((values_canonical closed (.boolean true) "").2.2.2.2 rfl).mpr ⟨true, rfl, ?_⟩
    change Text.Spells "true" "tRUE"
    simp only [Text.Spells, String.reduceToList]
    exact .cons (.inl rfl) (.cons (.inr rfl) (.cons (.inr rfl) (.cons (.inr rfl) .nil)))
  · rw [← (values_canonical many (.integer 9223372036854775808) "").2.2.1 rfl]
    exact hmany _

end AttrValue

end WorldPlugins
