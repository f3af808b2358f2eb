import WorldPlugins.Proofs.Json.Literals
import WorldPlugins.Proofs.Text.Integer

/-! # Written numbers read back

A number is read as far as it goes, so what follows it matters: it has to be the end of the text or what follows an
item or a member.  An integer of 64 bits, signed or not, is then read back; so is the float that a negative zero is
kept as.
-/

namespace WorldPlugins

open Text (Raw)

/-- An integer of 64 bits, signed or not.  A zero with a minus sign is kept as a float. -/
def Number.IsWhole : Number → Prop
  | .int i => -9223372036854775808 ≤ i ∧ i < 18446744073709551616
  | .float bits => bits = 0x8000000000000000

namespace Json.Lexeme

/-- The text that may follow a written value: none, or the rest of an array or object. -/
def Delimited : Raw → Prop
  | [] => True
  | g :: _ => g = some ',' ∨ g = some ']' ∨ g = some '}'

variable {rest : Raw}

theorem Delimited.cases (h : Delimited rest) :
    rest = [] ∨ ∃ c s, rest = some c :: s ∧ (c = ',' ∨ c = ']' ∨ c = '}') := by
  cases rest with
  | nil => exact .inl rfl
  | cons g s =>
    rcases h with rfl | rfl | rfl
    · exact .inr ⟨_, s, rfl, .inl rfl⟩
    · exact .inr ⟨_, s, rfl, .inr (.inl rfl)⟩
    · exact .inr ⟨_, s, rfl, .inr (.inr rfl)⟩

theorem startsWithDigit_of_delimited (h : Delimited rest) : startsWithDigit rest = false := by
  rcases h.cases with rfl | ⟨c, s, rfl, rfl | rfl | rfl⟩ <;> rfl

theorem exponentMark?_of_delimited (h : Delimited rest) : exponentMark? rest = none := by
  rcases h.cases with rfl | ⟨c, s, rfl, rfl | rfl | rfl⟩ <;> rfl

theorem digit?_of_isDigit {c : Char} (h : c.isDigit = true) : digit? (some c) = some (c.toNat - '0'.toNat) :=
  if_pos h

private theorem le_ofDigitChars (cs : List Char) (value : Nat) : value ≤ Nat.ofDigitChars 10 cs value := by
  induction cs generalizing value with
  | nil => exact Nat.le_refl value
  | cons c cs ih =>
    rw [Nat.ofDigitChars_cons]
    have h := ih (10 * value + (c.toNat - '0'.toNat))
    omega

/-- Digits are gathered to their value if it fits 64 bits. -/
theorem gather_digits {cs : List Char} (hdigits : ∀ c ∈ cs, c.isDigit = true) {value : Nat}
    (hfits : Nat.ofDigitChars 10 cs value < Nat.pow 2 64) (hrest : startsWithDigit rest = false) (count : Nat) :
    gather value count (Raw.ofChars cs ++ rest) = (Nat.ofDigitChars 10 cs value, count + cs.length, rest) := by
  induction cs generalizing value count with
  | nil =>
    cases rest with
    | nil => rfl
    | cons g s =>
      have hg : digit? g = none := Option.not_isSome_iff_eq_none.mp (Bool.eq_false_iff.mp hrest)
      simp [gather, hg]
  | cons c cs ih =>
    rw [Nat.ofDigitChars_cons] at hfits ⊢
    have hle := le_ofDigitChars cs (10 * value + (c.toNat - '0'.toNat))
    have hstep : value * 10 + (c.toNat - '0'.toNat) = 10 * value + (c.toNat - '0'.toNat) := by omega
    rw [ofChars_cons, List.cons_append, gather, digit?_of_isDigit (hdigits c List.mem_cons_self)]
    dsimp only
    rw [hstep, if_pos (by omega), ih (fun d hd => hdigits d (List.mem_cons_of_mem c hd)) hfits,
      List.length_cons, Nat.add_right_comm, Nat.add_assoc]

theorem dropDigits_of_not (hrest : startsWithDigit rest = false) (count : Nat) :
    dropDigits count rest = (count, rest) := by
  cases rest with
  | nil => rfl
  | cons g s =>
    have hg : ¬ (digit? g).isSome = true := Bool.eq_false_iff.mp hrest
    rw [dropDigits, if_neg hg]

/-- A written number starts with a zero only if it is zero. -/
theorem natural_of_zero {n : Nat} {cs : List Char} (h : Text.natural n = '0' :: cs) : cs = [] ∧ n = 0 := by
  have hvalue : Nat.ofDigitChars 10 ('0' :: cs) 0 = n := by rw [← h]; exact Nat.ofDigitChars_ten_toDigits
  have hcs : cs = [] := by
    by_contra hne
    have hread : Text.natural? cs = some n := by
      refine (Text.natural?_eq_some_iff cs n).mpr ⟨hne, fun c hc => ?_, hvalue⟩
      exact Text.isDigit_of_mem_natural (n := n) (by rw [h]; exact List.mem_cons_of_mem _ hc)
    have hlength : (Nat.toDigits 10 n).length ≤ cs.length :=
      (Nat.length_toDigits_le_iff (by decide) (List.length_pos_iff.mpr hne)).mpr (Text.lt_of_natural? hread)
    have hsame : (Nat.toDigits 10 n).length = cs.length + 1 := congrArg List.length h
    omega
  subst hcs
  exact ⟨rfl, hvalue.symm⟩

theorem afterInteger_of_delimited (h : Delimited rest) (negative : Bool) (n : Nat) :
    afterInteger negative n 0 rest = .ok (whole negative n, rest) := by
  rcases h.cases with rfl | ⟨c, s, rfl, rfl | rfl | rfl⟩ <;> rfl

private theorem eq_zero_of_isDigit {c : Char} (h : c.isDigit = true) (hvalue : c.toNat - '0'.toNat = 0) : c = '0' := by
  rw [Char.isDigit, Bool.and_eq_true, decide_eq_true_iff, decide_eq_true_iff] at h
  have hge : 48 ≤ c.toNat := h.1
  have hle : c.toNat - 48 = 0 := hvalue
  exact Char.toNat_inj.mp (show c.toNat = 48 by omega)

theorem unsignedNumber_natural {n : Nat} (hn : n < Nat.pow 2 64) (h : Delimited rest) (negative : Bool) :
    unsignedNumber negative (Raw.ofChars (Text.natural n) ++ rest) = .ok (whole negative n, rest) := by
  have hrest := startsWithDigit_of_delimited h
  obtain ⟨c, cs, hcs⟩ := List.exists_cons_of_ne_nil (Text.natural_ne_nil n)
  have hdigits : ∀ d ∈ c :: cs, d.isDigit = true := fun d hd => Text.isDigit_of_mem_natural (n := n) (hcs ▸ hd)
  have hvalue : Nat.ofDigitChars 10 (c :: cs) 0 = n := by rw [← hcs]; exact Nat.ofDigitChars_ten_toDigits
  have hc := hdigits c List.mem_cons_self
  have hdigit := digit?_of_isDigit hc
  rcases hd : c.toNat - '0'.toNat with _ | d
  · have hzero := eq_zero_of_isDigit hc hd
    rw [hzero] at hcs
    obtain ⟨rfl, rfl⟩ := natural_of_zero hcs
    have hfirst : digit? (some '0') = some 0 := rfl
    rw [hcs]
    simp [unsignedNumber, hfirst, hrest, afterInteger_of_delimited h]
  · have hgather := gather_digits hdigits (hvalue ▸ hn) hrest 0
    rw [hvalue, ofChars_cons, List.cons_append] at hgather
    rw [hd] at hdigit
    rw [hcs]
    simp [unsignedNumber, hdigit, hgather, dropDigits_of_not hrest, afterInteger_of_delimited h]

theorem numeral_natural {n : Nat} (hn : n < Nat.pow 2 64) (h : Delimited rest) :
    numeral (Raw.ofChars (Text.natural n) ++ rest) = .ok (.int n, rest) := by
  have hread := unsignedNumber_natural hn h false
  obtain ⟨c, cs, hcs⟩ := List.exists_cons_of_ne_nil (Text.natural_ne_nil n)
  have hdigit : c.isDigit = true := Text.isDigit_of_mem_natural (n := n) (hcs ▸ List.mem_cons_self)
  have hsign : c ≠ '-' := by
    rintro rfl
    exact absurd hdigit (by decide)
  rw [hcs, ofChars_cons, List.cons_append] at hread ⊢
  simpa [numeral, hsign, whole] using hread

/-- A whole number is read as it was written. -/
theorem numeral_numberChars {n : Number} (hn : n.IsWhole) (h : Delimited rest) :
    numeral (Raw.ofChars (numberChars n) ++ rest) = .ok (n, rest) := by
  have hbits : Nat.pow 2 64 = 18446744073709551616 := rfl
  cases n with
  | int i =>
    obtain ⟨hlow, hhigh⟩ := hn
    rw [numberChars, Text.integer]
    split
    · next hneg =>
      have hwhole : whole true i.natAbs = .int i := by
        have hvalue : -(i.natAbs : Int) = i := by omega
        have hsigned : Nat.pow 2 63 = 9223372036854775808 := rfl
        rw [whole, if_pos rfl, if_pos ⟨by omega, by omega⟩, hvalue]
      rw [ofChars_cons, List.cons_append, numeral, unsignedNumber_natural (by omega) h, hwhole]
    · next hpos =>
      have hvalue : (i.natAbs : Int) = i := by omega
      rw [numeral_natural (by omega) h, hvalue]
  | float bits =>
    cases hn
    have hchars : numberChars (.float 0x8000000000000000) = ['-', '0', '.', '0'] := by decide
    have hdigits : ∀ c ∈ ['0'], c.isDigit = true := List.forall_mem_cons.mpr ⟨rfl, nofun⟩
    have hvalue : Nat.ofDigitChars 10 ['0'] 0 = 0 := rfl
    have hgather : gather 0 0 (some '0' :: rest) = (0, 1, rest) :=
      gather_digits hdigits (by omega) (startsWithDigit_of_delimited h) 0
    have hzero : (scale? 0 (-1)).map (signed true) = some (.float 0x8000000000000000) := by decide
    obtain ⟨f, hscale, hsigned⟩ := Option.map_eq_some_iff.mp hzero
    rw [hchars]
    simp [numeral, unsignedNumber, afterInteger, fractionPart, hgather, floating, hscale, hsigned,
      dropDigits_of_not (startsWithDigit_of_delimited h), exponentMark?_of_delimited h, startsWithDigit,
      show digit? (some '0') = some 0 from rfl, show digit? (some '.') = none from rfl]

/-- A written number starts with a digit or a minus sign. -/
theorem exists_cons_numberChars {n : Number} (hn : n.IsWhole) :
    ∃ c cs, numberChars n = c :: cs ∧ (c = '-' ∨ c.isDigit = true) := by
  cases n with
  | int i =>
    obtain ⟨c, cs, hcs⟩ := List.exists_cons_of_ne_nil (Text.natural_ne_nil i.natAbs)
    rw [numberChars, Text.integer]
    split
    · exact ⟨'-', _, rfl, .inl rfl⟩
    · exact ⟨c, cs, hcs, .inr (Text.isDigit_of_mem_natural (n := i.natAbs) (hcs ▸ List.mem_cons_self))⟩
  | float bits =>
    cases hn
    exact ⟨'-', ['0', '.', '0'], by decide, .inl rfl⟩

end Json.Lexeme

end WorldPlugins
