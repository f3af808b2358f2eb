import WorldPlugins.Json.Lexeme

/-! # Reading nested values

Arrays and objects, read from left to right so that the first thing wrong is the one reported.  A value that is
read nests at most `deepest` levels; one that is only passed over may nest without limit.

`fuel` bounds the number of siblings and is never used up when it is at least the length of the text.
-/

namespace WorldPlugins.Json.Reader

open Lexeme
open Text (Raw)

/-- How many levels a value may nest. -/
def deepest : Nat := 127

/-- The text at the next item of an array, or `none` at its closing bracket. -/
def item? (first : Bool) (s : Raw) : Read (Option Raw) :=
  match skipSpace s with
  | [] => fail .endInList
  | g :: rest =>
    if g = some ']' then .ok none
    else if first then .ok (some (g :: rest))
    else if g = some ',' then
      match skipSpace rest with
      | [] => fail .endInValue
      | h :: rest => if h = some ']' then fail .trailingComma else .ok (some (h :: rest))
    else fail .expectedCommaOrBracket

def closeArray (s : Raw) : Read Raw :=
  match skipSpace s with
  | [] => fail .endInList
  | g :: rest =>
    if g = some ']' then .ok rest
    else if g = some ',' ∧ (skipSpace rest).head? = some (some ']') then fail .trailingComma
    else fail .trailingCharacters

/-- The text after the opening quote of the next key of an object, or `none` at its closing brace. -/
def key? (first : Bool) (s : Raw) : Read (Option Raw) :=
  match skipSpace s with
  | [] => fail .endInObject
  | g :: rest =>
    if g = some '}' then .ok none
    else if first then if g = some '"' then .ok (some rest) else fail .keyNotString
    else if g = some ',' then
      match skipSpace rest with
      | [] => fail .endInValue
      | h :: rest =>
        if h = some '"' then .ok (some rest)
        else if h = some '}' then fail .trailingComma
        else fail .keyNotString
    else fail .expectedCommaOrBrace

def closeObject (s : Raw) : Read Raw :=
  match skipSpace s with
  | [] => fail .endInObject
  | g :: rest =>
    if g = some '}' then .ok rest
    else if g = some ',' then fail .trailingComma
    else fail .trailingCharacters

/-- The text after the colon between a key and its value. -/
def colon (s : Raw) : Read Raw :=
  match skipSpace s with
  | [] => fail .endInObject
  | g :: rest => if g = some ':' then .ok rest else fail .expectedColon

def items {α : Type} (read : Raw → Read (α × Raw)) : (fuel : Nat) → (first : Bool) → Raw → Read (List α × Raw)
  | 0, _, _ => fail .endInList
  | fuel + 1, first, s => do
    match ← item? first s with
    | none => pure ([], s)
    | some s =>
      let (a, s) ← read s
      let (rest, s) ← items read fuel false s
      pure (a :: rest, s)

/-- An array from after its opening bracket on. -/
def arrayOf {α : Type} (read : Raw → Read (α × Raw)) (fuel : Nat) (s : Raw) : Read (List α × Raw) := do
  let (values, s) ← items read fuel true s
  pure (values, ← closeArray s)

/-- The members of an object up to its closing brace, in the order of the text. -/
def entries {α : Type} (read : Raw → Read (α × Raw)) :
    (fuel : Nat) → (first : Bool) → Raw → Read (List (String × α) × Raw)
  | 0, _, _ => fail .endInObject
  | fuel + 1, first, s => do
    match ← key? first s with
    | none => pure ([], s)
    | some s =>
      let (key, s) ← literal s
      let (a, s) ← read (← colon s)
      let (rest, s) ← entries read fuel false s
      pure ((key, a) :: rest, s)

/-- An object from after its opening brace on. -/
def objectOf {α : Type} (read : Raw → Read (α × Raw)) (fuel : Nat) (s : Raw) :
    Read (List (String × α) × Raw) := do
  let (members, s) ← entries read fuel true s
  pure (members, ← closeObject s)

/-- Reads something one level deeper. -/
def nested {α : Type} (levels : Nat) (read : Nat → Read (α × Raw)) : Read (α × Raw) :=
  match levels with
  | 0 => fail .tooDeep
  | levels + 1 => read levels

/-- Reads a free-form value that may nest `levels` deep. -/
def value (fuel : Nat) : (levels : Nat) → Raw → Read (Json × Raw)
  | levels, s =>
    match skipSpace s with
    | [] => fail .endInValue
    | none :: _ => fail .expectedValue
    | some c :: rest =>
      if c = 'n' then do pure (.null, ← word ['u', 'l', 'l'] rest)
      else if c = 't' then do pure (.bool true, ← word ['r', 'u', 'e'] rest)
      else if c = 'f' then do pure (.bool false, ← word ['a', 'l', 's', 'e'] rest)
      else if c = '"' then do
        let (s, rest) ← literal rest
        pure (.string s, rest)
      else if c = '-' || c.isDigit then do
        let (n, rest) ← numeral (some c :: rest)
        pure (.number n, rest)
      else if c = '[' then
        match levels with
        | 0 => fail .tooDeep
        | levels + 1 => do
          let (values, rest) ← arrayOf (fun s => value fuel levels s) fuel rest
          pure (.array values, rest)
      else if c = '{' then
        match levels with
        | 0 => fail .tooDeep
        | levels + 1 => do
          let (members, rest) ← objectOf (fun s => value fuel levels s) fuel rest
          pure (.object (Keyed.ofList members), rest)
      else fail .expectedValue

/-- Nothing but blanks is left of the text. -/
def finish (s : Raw) : Read Unit :=
  if skipSpace s = [] then .ok () else fail .trailingCharacters

/-- An open array or object. -/
inductive Bracket
  | array
  | object
  deriving DecidableEq

/-- The text at the value of the next member, from where its key should start. -/
def skipKey (s : Raw) : Read Raw :=
  match skipSpace s with
  | [] => fail .endInObject
  | g :: rest =>
    if g = some '"' then do
      let s ← skipLiteral rest
      match skipSpace s with
      | [] => fail .endInObject
      | g :: rest => if g = some ':' then .ok rest else fail .expectedColon
    else fail .keyNotString

mutual

/-- Passes over a value inside the given open brackets, and on to where they are closed. -/
def skipValue : (fuel : Nat) → (around : List Bracket) → Raw → Read Raw
  | 0, _, _ => fail .endInValue
  | fuel + 1, around, s =>
    match skipSpace s with
    | [] => fail .endInValue
    | none :: _ => fail .expectedValue
    | some c :: rest =>
      if c = 'n' then do skipOn fuel around (← word ['u', 'l', 'l'] rest)
      else if c = 't' then do skipOn fuel around (← word ['r', 'u', 'e'] rest)
      else if c = 'f' then do skipOn fuel around (← word ['a', 'l', 's', 'e'] rest)
      else if c = '"' then do skipOn fuel around (← skipLiteral rest)
      else if c = '-' then do skipOn fuel around (← skipNumber rest)
      else if c.isDigit then do skipOn fuel around (← skipNumber (some c :: rest))
      else if c = '[' then
        match skipSpace rest with
        | [] => fail .endInList
        | g :: s => if g = some ']' then skipOn fuel around s
                    else skipValue fuel (.array :: around) (g :: s)
      else if c = '{' then
        match skipSpace rest with
        | [] => fail .endInObject
        | g :: s => if g = some '}' then skipOn fuel around s
                    else do skipValue fuel (.object :: around) (← skipKey (g :: s))
      else fail .expectedValue

/-- Passes over what follows a value inside the given open brackets. -/
def skipOn : (fuel : Nat) → (around : List Bracket) → Raw → Read Raw
  | _, [], s => .ok s
  | 0, _ :: _, _ => fail .endInValue
  | fuel + 1, .array :: around, s =>
    match skipSpace s with
    | [] => fail .endInList
    | g :: rest =>
      if g = some ',' then skipValue fuel (.array :: around) rest
      else if g = some ']' then skipOn fuel around rest
      else fail .expectedCommaOrBracket
  | fuel + 1, .object :: around, s =>
    match skipSpace s with
    | [] => fail .endInObject
    | g :: rest =>
      if g = some ',' then do skipValue fuel (.object :: around) (← skipKey rest)
      else if g = some '}' then skipOn fuel around rest
      else fail .expectedCommaOrBrace

end

end WorldPlugins.Json.Reader
