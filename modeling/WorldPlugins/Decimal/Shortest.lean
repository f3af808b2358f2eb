/-! # Shortest decimals

A positive float stands for all reals that round to it.  `shortest` picks, among the decimals in that interval,
one with the fewest digits, and of those the nearest to the float.  `layout` places the point.
-/

namespace WorldPlugins.Decimal

def dyadic (significand : Nat) (exponent : Int) : Rat := (significand : Rat) * (2 : Rat) ^ exponent

/-- A positive float: its value, and the closed or open interval of the reals that round to it. -/
structure Rounding where
  value : Rat
  low : Rat
  high : Rat
  closed : Bool

/-- The reals that round to the positive float with these bits (the sign bit is ignored). -/
def Rounding.ofBits (bits : UInt64) : Rounding :=
  let fraction : Nat := bits.toNat % Nat.pow 2 52
  let biased : Nat := bits.toNat / Nat.pow 2 52 % Nat.pow 2 11
  let m := if biased = 0 then fraction else fraction + Nat.pow 2 52
  let q : Int := if biased = 0 then -1074 else (biased : Int) - 1075
  { value := dyadic m q
    low := if fraction = 0 ∧ 1 < biased then dyadic (4 * m - 1) (q - 2) else dyadic (2 * m - 1) (q - 1)
    high := dyadic (2 * m + 1) (q - 1)
    closed := m % 2 = 0 }

def Rounding.contains (r : Rounding) (x : Rat) : Bool :=
  if r.closed then r.low ≤ x && x ≤ r.high else r.low < x && x < r.high

/-- The decimal `digits * 10 ^ exponent`. -/
structure Scientific where
  digits : Nat
  exponent : Int

def Scientific.value (d : Scientific) : Rat := (d.digits : Rat) * (10 : Rat) ^ d.exponent

/-- The exponent of the power of ten at or below a value, searched down from `start`. -/
def magnitude (value : Rat) : (fuel : Nat) → (start : Int) → Int
  | 0, start => start
  | fuel + 1, start => if (10 : Rat) ^ start ≤ value then start else magnitude value fuel (start - 1)

/-- The point of a decimal grid nearest to the float, among the two that enclose it and round to it. -/
def Rounding.onGrid? (r : Rounding) (exponent : Int) : Option Scientific :=
  let below := (r.value / (10 : Rat) ^ exponent).floor.toNat
  let candidate (n : Nat) : Option Scientific :=
    let d : Scientific := ⟨n, exponent⟩
    if 0 < n && r.contains d.value then some d else none
  match candidate below, candidate (below + 1) with
  | some a, some b =>
    let up := b.value - r.value
    let down := r.value - a.value
    if up < down || (up = down && below % 2 = 1) then some b else some a
  | some a, none => some a
  | none, found => found

/-- The decimal without zeros at its end. -/
def Scientific.strip : (fuel : Nat) → Scientific → Scientific
  | 0, d => d
  | fuel + 1, d => if d.digits % 10 = 0 then strip fuel ⟨d.digits / 10, d.exponent + 1⟩ else d

/-- The shortest decimal that rounds to the positive float with these bits. -/
def shortest (bits : UInt64) : Scientific :=
  let r := Rounding.ofBits bits
  let top := magnitude r.value 640 309
  let grids := (List.range 17).filterMap fun (k : Nat) => r.onGrid? (top - k)
  (grids.headD ⟨0, 0⟩).strip 20

/-- Where the point goes: positional from `10 ^ -5` to below `10 ^ 16`, with at least one digit after the
point, and with an exponent beyond. -/
def layout (d : Scientific) : List Char :=
  let digits := Nat.toDigits 10 d.digits
  let point : Int := digits.length + d.exponent
  if 0 ≤ d.exponent ∧ point ≤ 16 then
    digits ++ List.replicate d.exponent.toNat '0' ++ ['.', '0']
  else if 0 < point ∧ point ≤ 16 then
    digits.take point.toNat ++ '.' :: digits.drop point.toNat
  else if -5 < point ∧ point ≤ 0 then
    ['0', '.'] ++ List.replicate (-point).toNat '0' ++ digits
  else
    let exponent := point - 1
    let mantissa := match digits with
      | [] => []
      | [c] => [c]
      | c :: more => c :: '.' :: more
    mantissa ++ ['e', if exponent < 0 then '-' else '+'] ++ Nat.toDigits 10 exponent.natAbs

/-- The text of a finite float, given by its bits. -/
def ofBits (bits : UInt64) : List Char :=
  let sign := if bits.toNat / Nat.pow 2 63 = 1 then ['-'] else []
  if bits.toNat % Nat.pow 2 63 = 0 then sign ++ ['0', '.', '0'] else sign ++ layout (shortest bits)

end WorldPlugins.Decimal
