import Mathlib.Algebra.Group.Nat.Defs
import WorldPlugins.Text.Integer

/-! # Written integers read back

Digits are read as the number that they were written for, and so is an integer of 64 bits with its sign.  What is read
from a run of digits is less than the power of ten of their number.  The texts that are read at all are the numerals,
so far as their value fits.
-/

namespace WorldPlugins.Text

theorem natural?_eq_some_iff (cs : List Char) (n : Nat) :
    natural? cs = some n ↔ cs ≠ [] ∧ (∀ c ∈ cs, c.isDigit = true) ∧ Nat.ofDigitChars 10 cs 0 = n := by
  unfold natural?
  split
  · next h =>
    rw [List.all_eq_true] at h
    simp [h.1, and_iff_right h.2]
  · next h =>
    rw [List.all_eq_true] at h
    constructor
    · exact nofun
    · rintro ⟨hne, hdigits, -⟩
      exact absurd ⟨hne, hdigits⟩ h

theorem isDigit_of_mem_natural {n : Nat} {c : Char} (h : c ∈ natural n) : c.isDigit = true :=
  Nat.isDigit_of_mem_toDigits (by decide) (by decide) h

theorem natural_ne_nil (n : Nat) : natural n ≠ [] := Nat.toDigits_ne_nil

@[simp] theorem natural?_natural (n : Nat) : natural? (natural n) = some n :=
  (natural?_eq_some_iff _ n).mpr
    ⟨natural_ne_nil n, fun _ => isDigit_of_mem_natural, Nat.ofDigitChars_ten_toDigits⟩

/-- An optional sign and one or more digits, and the integer that they write. -/
inductive Numeral : List Char → Int → Prop
  | unsigned {digits : List Char} (hne : digits ≠ []) (hdigits : ∀ c ∈ digits, c.isDigit = true) :
      Numeral digits (Nat.ofDigitChars 10 digits 0)
  | positive {digits : List Char} (hne : digits ≠ []) (hdigits : ∀ c ∈ digits, c.isDigit = true) :
      Numeral ('+' :: digits) (Nat.ofDigitChars 10 digits 0)
  | negative {digits : List Char} (hne : digits ≠ []) (hdigits : ∀ c ∈ digits, c.isDigit = true) :
      Numeral ('-' :: digits) (-(Nat.ofDigitChars 10 digits 0 : Int))

theorem int64?_eq_some_iff (i j : Int) : int64? i = some j ↔ i = j ∧ IsInt64 j := by
  unfold int64?
  split
  · next h =>
    rw [Option.some.injEq]
    exact ⟨fun hij => ⟨hij, hij ▸ h⟩, And.left⟩
  · next h =>
    refine ⟨nofun, ?_⟩
    rintro ⟨rfl, hfits⟩
    exact absurd hfits h

/-- Digits with a sign are read if their value fits. -/
private theorem bind_natural?_eq_some_iff {cs : List Char} {signed : Nat → Int} {i : Int} :
    ((natural? cs).bind fun n => int64? (signed n)) = some i ↔
      (cs ≠ [] ∧ ∀ c ∈ cs, c.isDigit = true) ∧ signed (Nat.ofDigitChars 10 cs 0) = i ∧ IsInt64 i := by
  rw [Option.bind_eq_some_iff]
  simp only [natural?_eq_some_iff, int64?_eq_some_iff]
  constructor
  · rintro ⟨n, ⟨hne, hdigits, rfl⟩, hvalue⟩
    exact ⟨⟨hne, hdigits⟩, hvalue⟩
  · rintro ⟨⟨hne, hdigits⟩, hvalue⟩
    exact ⟨_, ⟨hne, hdigits, rfl⟩, hvalue⟩

/-- A text is read as an integer exactly if it is a numeral for it and the integer has 64 bits. -/
theorem integer?_eq_some_iff (cs : List Char) (i : Int) : integer? cs = some i ↔ Numeral cs i ∧ IsInt64 i := by
  constructor
  · intro h
    unfold integer? at h
    split at h
    · obtain ⟨⟨hne, hdigits⟩, rfl, hfits⟩ := bind_natural?_eq_some_iff.mp h
      exact ⟨.positive hne hdigits, hfits⟩
    · obtain ⟨⟨hne, hdigits⟩, rfl, hfits⟩ := bind_natural?_eq_some_iff.mp h
      exact ⟨.negative hne hdigits, hfits⟩
    · obtain ⟨⟨hne, hdigits⟩, rfl, hfits⟩ := bind_natural?_eq_some_iff.mp h
      exact ⟨.unsigned hne hdigits, hfits⟩
  · rintro ⟨hnumeral, hfits⟩
    cases hnumeral with
    | unsigned hne hdigits =>
      unfold integer?
      split
      · exact absurd (hdigits '+' List.mem_cons_self) (by decide)
      · exact absurd (hdigits '-' List.mem_cons_self) (by decide)
      · exact bind_natural?_eq_some_iff.mpr ⟨⟨hne, hdigits⟩, rfl, hfits⟩
    | positive hne hdigits => exact bind_natural?_eq_some_iff.mpr ⟨⟨hne, hdigits⟩, rfl, hfits⟩
    | negative hne hdigits => exact bind_natural?_eq_some_iff.mpr ⟨⟨hne, hdigits⟩, rfl, hfits⟩

/-- What is written for an integer, of any size, is a numeral for it. -/
theorem numeral_integer (i : Int) : Numeral (integer i) i := by
  have hvalue : Nat.ofDigitChars 10 (natural i.natAbs) 0 = i.natAbs := Nat.ofDigitChars_ten_toDigits
  unfold integer
  split
  · next hneg =>
    have hnumeral := Numeral.negative (natural_ne_nil i.natAbs) fun _ => isDigit_of_mem_natural
    have hi : -(i.natAbs : Int) = i := by omega
    rwa [hvalue, hi] at hnumeral
  · next hpos =>
    have hnumeral := Numeral.unsigned (natural_ne_nil i.natAbs) fun _ => isDigit_of_mem_natural
    have hi : (i.natAbs : Int) = i := by omega
    rwa [hvalue, hi] at hnumeral

/-- An integer of 64 bits is read as it was written. -/
theorem integer?_integer {i : Int} (h : IsInt64 i) : integer? (integer i) = some i :=
  (integer?_eq_some_iff _ i).mpr ⟨numeral_integer i, h⟩

private theorem ofDigitChars_lt {cs : List Char} (h : ∀ c ∈ cs, c.isDigit = true) (before : Nat) :
    Nat.ofDigitChars 10 cs before < (before + 1) * 10 ^ cs.length := by
  induction cs generalizing before with
  | nil => simp
  | cons c cs ih =>
    have hdigit := h c List.mem_cons_self
    have hvalue : c.toNat - '0'.toNat ≤ 9 := by
      rw [Char.isDigit, Bool.and_eq_true, decide_eq_true_iff, decide_eq_true_iff] at hdigit
      have hle : c.val.toNat ≤ 57 := hdigit.2
      change c.val.toNat - 48 ≤ 9
      omega
    have hrest := ih (fun d hd => h d (List.mem_cons_of_mem c hd)) (10 * before + (c.toNat - '0'.toNat))
    rw [Nat.ofDigitChars_cons, List.length_cons, Nat.pow_succ]
    calc Nat.ofDigitChars 10 cs (10 * before + (c.toNat - '0'.toNat))
        < (10 * before + (c.toNat - '0'.toNat) + 1) * 10 ^ cs.length := hrest
      _ ≤ (10 * (before + 1)) * 10 ^ cs.length := Nat.mul_le_mul_right _ (by omega)
      _ = (before + 1) * (10 ^ cs.length * 10) := by rw [Nat.mul_comm 10 (before + 1), Nat.mul_assoc, Nat.mul_comm 10]

theorem lt_of_natural? {cs : List Char} {n : Nat} (h : natural? cs = some n) : n < 10 ^ cs.length := by
  obtain ⟨-, hdigits, rfl⟩ := (natural?_eq_some_iff cs n).mp h
  have hlt := ofDigitChars_lt hdigits 0
  rwa [Nat.zero_add, Nat.one_mul] at hlt

end WorldPlugins.Text
