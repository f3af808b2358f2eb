import WorldPlugins.Toml.Lexeme
import WorldPlugins.Time.Start

/-! # Numbers and times of TOML

Only whether they are well formed is of interest, not what they are: each reader gives the text after the value.
-/

namespace WorldPlugins.Toml

open Time (exactNumber oneOf)

/-- Digits with single underscores between them, and the text after them. -/
def digitGroups (isDigit : Char → Bool) : List Char → Option (List Char × List Char)
  | [] => none
  | c :: cs => if isDigit c then some (c :: (more cs).1, (more cs).2) else none
where
  /-- The digits that follow another. -/
  more : List Char → List Char × List Char
    | '_' :: c :: cs => if isDigit c then (c :: (more cs).1, (more cs).2) else ([], '_' :: c :: cs)
    | c :: cs => if isDigit c then (c :: (more cs).1, (more cs).2) else ([], c :: cs)
    | [] => ([], [])

/-- The text after a sign, if there is one, and whether it is a minus. -/
def dropSign : List Char → Bool × List Char
  | '+' :: cs => (false, cs)
  | '-' :: cs => (true, cs)
  | cs => (false, cs)

/-- A decimal integer without leading zeros. -/
def decimal (cs : List Char) : Option (List Char × List Char) :=
  match cs with
  | '0' :: rest => some (['0'], rest)
  | cs => digitGroups Char.isDigit cs

/-- The number that digits of a base give. -/
def valueOf (base : Nat) (digits : List Char) : Nat :=
  digits.foldl (fun n c => n * base + (Json.Lexeme.hexValue? c).getD 0) 0

/-- An integer of another base, from after its two-letter mark on; it has to fit 64 bits with a sign. -/
def basedInteger (base : Nat) (isDigit : Char → Bool) (cs : List Char) : Option (List Char) := do
  let (digits, rest) ← digitGroups isDigit cs
  if valueOf base digits < Nat.pow 2 63 then some rest else none

/-- A decimal integer that fits 64 bits with a sign. -/
def integer (cs : List Char) : Option (List Char) := do
  let (negative, cs) := dropSign cs
  let (digits, rest) ← decimal cs
  let n := valueOf 10 digits
  if n < Nat.pow 2 63 ∨ (negative ∧ n = Nat.pow 2 63) then some rest else none

/-- An exponent: its value, and the text after it. -/
def exponent? : List Char → Option (Int × List Char)
  | c :: cs =>
    if c = 'e' ∨ c = 'E' then do
      let (negative, cs) := dropSign cs
      let (digits, rest) ← digitGroups Char.isDigit cs
      let n := valueOf 10 digits
      some (if negative then -(n : Int) else (n : Int), rest)
    else none
  | [] => none

/-- A fraction: its digits, and the text after it. -/
def fraction? : List Char → Option (List Char × List Char)
  | '.' :: cs => digitGroups Char.isDigit cs
  | _ => none

/-- Whether `n * 10 ^ e` is too large for a float; `n` has at most `digits` digits. -/
def overflows (n digits : Nat) (e : Int) : Bool :=
  if n = 0 ∨ e + digits ≤ 300 then false
  else if 400 < e then true
  else if 0 ≤ e then Nat.pow 2 1024 - Nat.pow 2 970 ≤ n * Nat.pow 10 e.toNat
  else (Nat.pow 2 1024 - Nat.pow 2 970) * Nat.pow 10 (-e).toNat ≤ n

/-- A decimal float; one too large above zero is no float. -/
def float (cs : List Char) : Option (List Char) := do
  let (negative, cs) := dropSign cs
  let (whole, cs) ← decimal cs
  let (part, e, rest) ← match fraction? cs with
    | some (part, cs) =>
      match exponent? cs with
      | some (e, rest) => some (part, e, rest)
      | none => some (part, 0, cs)
    | none => (exponent? cs).map fun (e, rest) => ([], e, rest)
  let digits := whole ++ part
  if !negative && overflows (valueOf 10 digits) digits.length (e - part.length) then none else some rest

/-- The text after a word. -/
def word? : (word : List Char) → List Char → Option (List Char)
  | [], cs => some cs
  | _ :: _, [] => none
  | c :: word, d :: cs => if c = d then word? word cs else none

/-- An infinite float, or one that is no number. -/
def specialFloat (cs : List Char) : Option (List Char) :=
  let cs := (dropSign cs).2
  (word? ['i', 'n', 'f'] cs).or (word? ['n', 'a', 'n'] cs)

/-- A two-digit number in a range. -/
def twoDigits (low high : Nat) (cs : List Char) : Option (Nat × List Char) := do
  let (n, rest) ← exactNumber 2 cs
  if low ≤ n ∧ n ≤ high then some (n, rest) else none

def date (cs : List Char) : Option (List Char) := do
  let (year, cs) ← exactNumber 4 cs
  let cs ← oneOf ['-'] cs
  let (month, cs) ← twoDigits 1 12 cs
  let cs ← oneOf ['-'] cs
  let (day, cs) ← twoDigits 1 31 cs
  if day ≤ Time.monthLength year month then some cs else none

def time (cs : List Char) : Option (List Char) := do
  let (_, cs) ← twoDigits 0 23 cs
  let cs ← oneOf [':'] cs
  let (_, cs) ← twoDigits 0 59 cs
  let cs ← oneOf [':'] cs
  let (_, cs) ← twoDigits 0 60 cs
  match cs with
  | '.' :: c :: rest => if c.isDigit then some (rest.dropWhile Char.isDigit) else some cs
  | cs => some cs

/-- An offset from universal time. -/
def offset (cs : List Char) : Option (List Char) :=
  match cs with
  | 'Z' :: cs => some cs
  | 'z' :: cs => some cs
  | cs => do
    let cs ← oneOf ['+', '-'] cs
    let (_, cs) ← twoDigits 0 23 cs
    let cs ← oneOf [':'] cs
    let (_, cs) ← twoDigits 0 59 cs
    some cs

/-- A date, perhaps with a time, perhaps with an offset; or a time. -/
def dateTime (cs : List Char) : Option (List Char) :=
  match date cs with
  | none => time cs
  | some cs =>
    match (oneOf ['T', 't', ' '] cs).bind time with
    | none => some cs
    | some cs => some ((offset cs).getD cs)

def scalar (cs : List Char) : Option (List Char) :=
  match cs with
  | '0' :: 'x' :: rest => basedInteger 16 (fun c => (Json.Lexeme.hexValue? c).isSome) rest
  | '0' :: 'o' :: rest => basedInteger 8 (fun c => '0' ≤ c && c ≤ '7') rest
  | '0' :: 'b' :: rest => basedInteger 2 (fun c => c = '0' || c = '1') rest
  | 't' :: rest => word? ['r', 'u', 'e'] rest
  | 'f' :: rest => word? ['a', 'l', 's', 'e'] rest
  | cs => (dateTime cs).or ((float cs).or ((specialFloat cs).or (integer cs)))

end WorldPlugins.Toml
