/-! # Decimal integers

Writing an integer in decimal, and reading one of the range of 64-bit signed integers: an optional sign and
one or more ASCII digits, nothing else.
-/

namespace WorldPlugins.Text

def natural (n : Nat) : List Char := Nat.toDigits 10 n

def integer (i : Int) : List Char :=
  if i < 0 then '-' :: natural i.natAbs else natural i.natAbs

/-- The value of a non-empty run of digits. -/
def natural? (cs : List Char) : Option Nat :=
  if cs ≠ [] ∧ cs.all Char.isDigit then some (Nat.ofDigitChars 10 cs 0) else none

def IsInt64 (i : Int) : Prop := -9223372036854775808 ≤ i ∧ i ≤ 9223372036854775807

instance (i : Int) : Decidable (IsInt64 i) := inferInstanceAs (Decidable (_ ∧ _))

def int64? (i : Int) : Option Int := if IsInt64 i then some i else none

/-- Reads an optional sign and digits as an integer that fits 64 bits. -/
def integer? : List Char → Option Int
  | '+' :: cs => (natural? cs).bind fun n => int64? n
  | '-' :: cs => (natural? cs).bind fun n => int64? (-n)
  | cs => (natural? cs).bind fun n => int64? n

def showInteger (i : Int) : String := String.ofList (integer i)

def showNatural (n : Nat) : String := String.ofList (natural n)

end WorldPlugins.Text
