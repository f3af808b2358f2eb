import Mathlib.Data.List.Basic
import WorldPlugins.Json.Lexeme
import WorldPlugins.Json.Printer

/-! # Written strings read back

A string between its quotes is read up to its closing quote, whatever follows.  The writer escapes one character
at a time and the reader keeps what it has read so far, so one lemma about a single character carries the
induction over the text.
-/

namespace WorldPlugins.Json.Lexeme

open Text (Raw)

/-- The text of written characters. -/
@[simp] theorem ofChars_append (cs ds : List Char) :
    Raw.ofChars (cs ++ ds) = Raw.ofChars cs ++ Raw.ofChars ds := List.map_append

@[simp] theorem ofChars_cons (c : Char) (cs : List Char) :
    Raw.ofChars (c :: cs) = some c :: Raw.ofChars cs := rfl

@[simp] theorem ofChars_nil : Raw.ofChars [] = [] := rfl

private theorem hexValue?_hexDigit {n : Nat} (h : n < 16) : hexValue? (hexDigit n) = some n := by
  have hall : ∀ m : Fin 16, hexValue? (hexDigit m.val) = some m.val := by decide
  exact hall ⟨n, h⟩

/-- A control is given by its code in four digits. -/
private theorem literalFrom_control {c : Char} (h : c.toNat < 32) (clean : Bool) (done : List Char)
    (s : Raw) :
    literalFrom .plain clean done
        (Raw.ofChars ['\\', 'u', '0', '0', hexDigit (c.toNat / 16), hexDigit (c.toNat % 16)] ++ s) =
      literalFrom .plain clean (c :: done) s := by
  have hhigh : hexValue? (hexDigit (c.toNat / 16)) = some (c.toNat / 16) := hexValue?_hexDigit (by omega)
  have hlow : hexValue? (hexDigit (c.toNat % 16)) = some (c.toNat % 16) := hexValue?_hexDigit (by omega)
  have hzero : hexValue? '0' = some 0 := by decide
  have hunit : c.toNat / 16 * 16 + c.toNat % 16 = c.toNat := by omega
  have hl : isLowSurrogate c.toNat = false := by simp [isLowSurrogate]; omega
  have hh : isHighSurrogate c.toNat = false := by simp [isHighSurrogate]; omega
  simp [literalFrom, unescape?, hhigh, hlow, hzero, hunit, hl, hh]

/-- The written form of one character is read as that character. -/
theorem literalFrom_escapeChar (c : Char) (clean : Bool) (done : List Char) (s : Raw) :
    literalFrom .plain clean done (Raw.ofChars (escapeChar c) ++ s) =
      literalFrom .plain clean (c :: done) s := by
  unfold escapeChar
  split
  · next h => subst h; simp [literalFrom, unescape?]
  split
  · next h => subst h; simp [literalFrom, unescape?]
  split
  · next h => subst h; simp [literalFrom, unescape?]
  split
  · next h => subst h; simp [literalFrom, unescape?]
  split
  · next h => subst h; simp [literalFrom, unescape?]
  split
  · next h =>
    have hc : c = '\x08' := Char.toNat_inj.mp h
    subst hc
    simp [literalFrom, unescape?]
  split
  · next h =>
    have hc : c = '\x0c' := Char.toNat_inj.mp h
    subst hc
    simp [literalFrom, unescape?]
  split
  · next h => exact literalFrom_control h clean done s
  · next hquote hslash _ _ _ _ _ hplain => simp [literalFrom, hquote, hslash, hplain]

private theorem literalFrom_escaped (cs done : List Char) (rest : Raw) :
    literalFrom .plain true done (Raw.ofChars (cs.flatMap escapeChar) ++ some '"' :: rest) =
      .ok (String.ofList (done.reverse ++ cs), rest) := by
  induction cs generalizing done with
  | nil => simp [literalFrom]
  | cons c cs ih =>
    rw [List.flatMap_cons, ofChars_append, List.append_assoc, literalFrom_escapeChar, ih]
    simp

/-- A written string is read from after its opening quote, whatever follows its closing one. -/
theorem literal_escaped (s : String) (rest : Raw) :
    literal (Raw.ofChars (s.toList.flatMap escapeChar) ++ some '"' :: rest) = .ok (s, rest) := by
  rw [literal, literalFrom_escaped]
  simp

end WorldPlugins.Json.Lexeme
