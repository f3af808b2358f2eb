import WorldPlugins.Json.Error
import WorldPlugins.Text.Raw

/-! # The smallest pieces of JSON text

Blanks, words, numbers and strings.  Each reader takes the text that is left and gives what it read with the
rest.  The `skip` readers pass over a piece of a value that nobody asked for: they check less.
-/

namespace WorldPlugins.Json.Lexeme

open Text (Raw)

/-- Reading fails because the text is not JSON. -/
def fail {α : Type} (cause : Fault) : Read α := .error (.fault cause)

/-- Whether a character may stand between the pieces of a value. -/
def isSpace (c : Char) : Bool := c = ' ' || c = '\n' || c = '\t' || c = '\r'

/-- The text from its next piece on. -/
def skipSpace : Raw → Raw
  | [] => []
  | g :: s => if g.any isSpace then skipSpace s else g :: s

def word : List Char → Raw → Read Raw
  | [], s => .ok s
  | _ :: _, [] => fail .endInValue
  | c :: cs, g :: s => if g = some c then word cs s else fail .expectedWord

def digit? (g : Option Char) : Option Nat :=
  g.bind fun c => if c.isDigit then some (c.toNat - 48) else none

def startsWithDigit (s : Raw) : Bool := (s.head?.bind digit?).isSome

/-- Reads digits after `value` while it stays below `2 ^ 64`, and counts them. -/
def gather : (value count : Nat) → Raw → Nat × Nat × Raw
  | value, count, [] => (value, count, [])
  | value, count, g :: s =>
    match digit? g with
    | some d => if value * 10 + d < Nat.pow 2 64 then gather (value * 10 + d) (count + 1) s
                else (value, count, g :: s)
    | none => (value, count, g :: s)

def dropDigits : (count : Nat) → Raw → Nat × Raw
  | count, [] => (count, [])
  | count, g :: s => if (digit? g).isSome then dropDigits (count + 1) s else (count, g :: s)

/-- The float nearest to a power of ten up to `10 ^ 308`. -/
def powerOfTen (n : Nat) : Float := Float.ofScientific 1 false n

/-- A significand times or over a power of ten, rounded to a float twice: the significand and the result.
Nothing is left of it below `10 ^ -616`; what is too large is no float. -/
def scale? (significand : Nat) (exponent : Int) : Option Float :=
  let f := significand.toUInt64.toFloat
  let n := exponent.natAbs
  if 0 ≤ exponent then
    if n ≤ 308 then
      let r := f * powerOfTen n
      if r.isInf then none else some r
    else if significand = 0 then some f else none
  else if n ≤ 308 then some (f / powerOfTen n)
  else if n ≤ 616 then some (f / powerOfTen 308 / powerOfTen (n - 308))
  else some 0.0

def signed (negative : Bool) (f : Float) : Number := .float (if negative then -f else f).toBits

def floating (negative : Bool) (significand : Nat) (exponent : Int) (s : Raw) : Read (Number × Raw) :=
  match scale? significand exponent with
  | some f => .ok (signed negative f, s)
  | none => fail .numberOutOfRange

/-- The digits of an exponent after the first, up to 31 bits; `none` when there are more. -/
def exponentDigits : (value : Nat) → Raw → Option Nat × Raw
  | value, [] => (some value, [])
  | value, g :: s =>
    match digit? g with
    | some d => if value * 10 + d < 2 ^ 31 then exponentDigits (value * 10 + d) s
                else (none, (dropDigits 0 s).2)
    | none => (some value, g :: s)

/-- The exponent of a float, from after its letter on. -/
def exponentPart (negative : Bool) (significand : Nat) (start : Int) (s : Raw) : Read (Number × Raw) :=
  let (down, s) := match s with
    | some '+' :: s => (false, s)
    | some '-' :: s => (true, s)
    | s => (false, s)
  match s with
  | [] => fail .endInValue
  | g :: rest =>
    match digit? g with
    | none => fail .invalidNumber
    | some d =>
      match exponentDigits d rest with
      | (some e, rest) => floating negative significand (if down then start - e else start + e) rest
      | (none, rest) =>
        if significand ≠ 0 ∧ ¬ down then fail .numberOutOfRange
        else .ok (signed negative 0.0, rest)

def exponentMark? : Raw → Option Raw
  | some 'e' :: s => some s
  | some 'E' :: s => some s
  | _ => none

/-- The fraction of a float, from after its point on; `dropped` digits of the integer part were left out. -/
def fractionPart (negative : Bool) (significand dropped : Nat) (s : Raw) : Read (Number × Raw) :=
  let (significand, count, rest) := gather significand 0 s
  let more := startsWithDigit rest
  if count = 0 ∧ ¬ more then
    if rest = [] then fail .endInValue else fail .invalidNumber
  else
    let rest := (dropDigits 0 rest).2
    let exponent : Int := (dropped : Int) - (count : Int)
    match exponentMark? rest with
    | some after => exponentPart negative significand exponent after
    | none => floating negative significand exponent rest

/-- An integer without fraction or exponent: one that fits 64 bits, and else a float. -/
def whole (negative : Bool) (n : Nat) : Number :=
  if negative then
    if 0 < n ∧ n ≤ Nat.pow 2 63 then .int (-n) else signed true n.toUInt64.toFloat
  else .int n

/-- What follows the integer part of a number; `dropped` of its digits were left out. -/
def afterInteger (negative : Bool) (n dropped : Nat) (s : Raw) : Read (Number × Raw) :=
  match s with
  | some '.' :: rest => fractionPart negative n dropped rest
  | _ =>
    match exponentMark? s with
    | some rest => exponentPart negative n dropped rest
    | none => if dropped = 0 then .ok (whole negative n, s) else floating negative n dropped s

def unsignedNumber (negative : Bool) : Raw → Read (Number × Raw)
  | [] => fail .endInValue
  | g :: s =>
    match digit? g with
    | none => fail .invalidNumber
    | some 0 => if startsWithDigit s then fail .invalidNumber else afterInteger negative 0 0 s
    | some (_ + 1) =>
      let (n, _, rest) := gather 0 0 (g :: s)
      let (dropped, rest) := dropDigits 0 rest
      afterInteger negative n dropped rest

def numeral : Raw → Read (Number × Raw)
  | some '-' :: s => unsignedNumber true s
  | s => unsignedNumber false s

def hexValue? (c : Char) : Option Nat :=
  if c.isDigit then some (c.toNat - 48)
  else if 'a' ≤ c ∧ c ≤ 'f' then some (c.toNat - 87)
  else if 'A' ≤ c ∧ c ≤ 'F' then some (c.toNat - 55)
  else none

/-- The character meant by a backslash and one letter. -/
def unescape? : Char → Option Char
  | '"' => some '"'
  | '\\' => some '\\'
  | '/' => some '/'
  | 'b' => some '\x08'
  | 'f' => some '\x0c'
  | 'n' => some '\n'
  | 'r' => some '\r'
  | 't' => some '\t'
  | _ => none

def isHighSurrogate (unit : Nat) : Bool := 0xD800 ≤ unit && unit ≤ 0xDBFF

def isLowSurrogate (unit : Nat) : Bool := 0xDC00 ≤ unit && unit ≤ 0xDFFF

def surrogatePair (high low : Nat) : Char :=
  Char.ofNat ((high - 0xD800) * 0x400 + (low - 0xDC00) + 0x10000)

/-- Where a reader stands inside a string. -/
inductive Spot
  | plain
  | escape
  /-- Inside a four-digit escape: the unit that waits for its second, the digits to come, those read. -/
  | hex (high : Option Nat) (missing : Nat) (value : Nat)
  /-- After the first unit of a pair. -/
  | pair (high : Nat)
  /-- After the first unit of a pair and a backslash. -/
  | pairEscape (high : Nat)

/-- What is wrong with a four-digit escape of which `missing` digits were to come at `s`. -/
def badHex (missing : Nat) (s : Raw) : Fault :=
  if missing ≤ Raw.width s then .invalidEscape else .endInString

/-- Reads a string to its closing quote.  `done` holds the characters so far, last first; `clean` tells
whether every byte so far belonged to a character. -/
def literalFrom : Spot → (clean : Bool) → (done : List Char) → Raw → Read (String × Raw)
  | _, _, _, [] => fail .endInString
  | .plain, clean, done, g :: s =>
    match g with
    | none => literalFrom .plain false done s
    | some c =>
      if c = '"' then
        if clean then .ok (String.ofList done.reverse, s) else fail .invalidCodePoint
      else if c = '\\' then literalFrom .escape clean done s
      else if c.toNat < 32 then fail .controlCharacter
      else literalFrom .plain clean (c :: done) s
  | .escape, clean, done, g :: s =>
    match g.bind unescape? with
    | some c => literalFrom .plain clean (c :: done) s
    | none => if g = some 'u' then literalFrom (.hex none 4 0) clean done s else fail .invalidEscape
  | .hex high missing value, clean, done, g :: s =>
    match g.bind hexValue? with
    | none => fail (badHex missing (g :: s))
    | some d =>
      let unit := value * 16 + d
      if 1 < missing then literalFrom (.hex high (missing - 1) unit) clean done s
      else
        match high with
        | none =>
          if isLowSurrogate unit then fail .loneSurrogate
          else if isHighSurrogate unit then literalFrom (.pair unit) clean done s
          else literalFrom .plain clean (Char.ofNat unit :: done) s
        | some first =>
          if isLowSurrogate unit then literalFrom .plain clean (surrogatePair first unit :: done) s
          else fail .loneSurrogate
  | .pair high, clean, done, g :: s =>
    if g = some '\\' then literalFrom (.pairEscape high) clean done s else fail .unfinishedSurrogate
  | .pairEscape high, clean, done, g :: s =>
    if g = some 'u' then literalFrom (.hex (some high) 4 0) clean done s else fail .unfinishedSurrogate

def literal (s : Raw) : Read (String × Raw) := literalFrom .plain true [] s

/-- Where a reader stands inside a string that it only passes over. -/
inductive SkipSpot
  | plain
  | escape
  | hex (missing : Nat)

/-- Passes over a string to its closing quote. -/
def skipLiteralFrom : SkipSpot → Raw → Read Raw
  | _, [] => fail .endInString
  | .plain, g :: s =>
    match g with
    | none => skipLiteralFrom .plain s
    | some c =>
      if c = '"' then .ok s
      else if c = '\\' then skipLiteralFrom .escape s
      else if c.toNat < 32 then fail .controlCharacter
      else skipLiteralFrom .plain s
  | .escape, g :: s =>
    if (g.bind unescape?).isSome then skipLiteralFrom .plain s
    else if g = some 'u' then skipLiteralFrom (.hex 4) s
    else fail .invalidEscape
  | .hex missing, g :: s =>
    if (g.bind hexValue?).isSome then
      if 1 < missing then skipLiteralFrom (.hex (missing - 1)) s else skipLiteralFrom .plain s
    else fail (badHex missing (g :: s))

/-- Passes over a string from after its opening quote on. -/
def skipLiteral (s : Raw) : Read Raw := skipLiteralFrom .plain s

def skipDigits (s : Raw) : Read Raw :=
  if startsWithDigit s then .ok (dropDigits 0 s).2 else fail .invalidNumber

/-- Passes over the exponent of a number, if it has one. -/
def skipExponent (s : Raw) : Read Raw :=
  match exponentMark? s with
  | none => .ok s
  | some (some '+' :: rest) => skipDigits rest
  | some (some '-' :: rest) => skipDigits rest
  | some rest => skipDigits rest

/-- Passes over a number, from after its sign on. -/
def skipNumber (s : Raw) : Read Raw := do
  let s ← match s with
    | some '0' :: rest => if startsWithDigit rest then fail .invalidNumber else .ok rest
    | s => skipDigits s
  match s with
  | some '.' :: rest => skipExponent (← skipDigits rest)
  | s => skipExponent s

end WorldPlugins.Json.Lexeme
