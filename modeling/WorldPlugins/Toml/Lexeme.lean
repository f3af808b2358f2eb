import WorldPlugins.Json.Lexeme

/-! # Blanks, strings and keys of TOML

The small pieces of a configuration text.  A reader gives what it read and the text after it, or nothing.
-/

namespace WorldPlugins.Toml

/-- Whether a character may stand in a comment; of the controls only the tab may. -/
def isPrintable (c : Char) : Bool := c = '\t' || (32 ≤ c.toNat && c.toNat ≠ 127)

def dropSpace (cs : List Char) : List Char := cs.dropWhile fun c => c = ' ' || c = '\t'

/-- The text after a line break at its head. -/
def lineBreak? : List Char → Option (List Char)
  | '\n' :: cs => some cs
  | '\r' :: '\n' :: cs => some cs
  | _ => none

/-- The text after a comment, if one is at its head. -/
def dropComment : List Char → List Char
  | '#' :: cs => cs.dropWhile isPrintable
  | cs => cs

/-- The text after the rest of a line that has nothing more to say. -/
def endLine? (cs : List Char) : Option (List Char) :=
  match dropComment (dropSpace cs) with
  | [] => some []
  | cs => lineBreak? cs

/-- The text after spaces, comments and line breaks. -/
def dropLines : (fuel : Nat) → List Char → List Char
  | 0, cs => cs
  | fuel + 1, cs =>
    match lineBreak? (dropComment (dropSpace cs)) with
    | some rest => dropLines fuel rest
    | none => dropSpace cs

/-- The number that exactly `count` hexadecimal digits give. -/
def hexNumber : (count value : Nat) → List Char → Option (Nat × List Char)
  | 0, value, cs => some (value, cs)
  | _ + 1, _, [] => none
  | count + 1, value, c :: cs => (Json.Lexeme.hexValue? c).bind fun d => hexNumber count (value * 16 + d) cs

/-- The character that an escape means, from after its backslash on. -/
def escape? : List Char → Option (Char × List Char)
  | 'b' :: cs => some ('\x08', cs)
  | 't' :: cs => some ('\t', cs)
  | 'n' :: cs => some ('\n', cs)
  | 'f' :: cs => some ('\x0c', cs)
  | 'r' :: cs => some ('\r', cs)
  | '"' :: cs => some ('"', cs)
  | '\\' :: cs => some ('\\', cs)
  | 'u' :: cs => scalar (hexNumber 4 0 cs)
  | 'U' :: cs => scalar (hexNumber 8 0 cs)
  | _ => none
where
  /-- The character with the code read. -/
  scalar : Option (Nat × List Char) → Option (Char × List Char)
    | some (n, cs) => if n.isValidChar then some (Char.ofNat n, cs) else none
    | none => none

/-- A string of one line in double quotes, from after the opening quote on. -/
def basicString : (fuel : Nat) → List Char → Option (List Char × List Char)
  | 0, _ => none
  | _ + 1, [] => none
  | fuel + 1, c :: cs =>
    if c = '"' then some ([], cs)
    else if c = '\\' then do
      let (c, cs) ← escape? cs
      let (s, cs) ← basicString fuel cs
      pure (c :: s, cs)
    else if isPrintable c then do
      let (s, cs) ← basicString fuel cs
      pure (c :: s, cs)
    else none

/-- A string of one line in single quotes, from after the opening quote on. -/
def literalString : List Char → Option (List Char × List Char)
  | [] => none
  | c :: cs =>
    if c = '\'' then some ([], cs)
    else if isPrintable c then (literalString cs).map fun (s, cs) => (c :: s, cs)
    else none

/-- The text after any spaces, tabs and line breaks. -/
def dropBlankLines : (fuel : Nat) → List Char → List Char
  | 0, cs => cs
  | fuel + 1, cs =>
    match lineBreak? (dropSpace cs) with
    | some rest => dropBlankLines fuel rest
    | none => dropSpace cs

/-- The end of a string of several lines: three quotes, with up to two more that belong to the string. -/
def closing? (quote : Char) : List Char → Option (List Char × List Char)
  | a :: b :: c :: cs =>
    if a = quote ∧ b = quote ∧ c = quote then
      match cs with
      | d :: e :: rest =>
        if d = quote ∧ e = quote then some ([quote, quote], rest)
        else if d = quote then some ([quote], e :: rest)
        else some ([], cs)
      | [d] => if d = quote then some ([quote], []) else some ([], cs)
      | [] => some ([], [])
    else none
  | _ => none

/-- A string of several lines, from after its opening on.  With double quotes backslashes escape, and one at the
end of a line joins it with the next text. -/
def longString (quote : Char) : (fuel : Nat) → List Char → Option (List Char × List Char)
  | 0, _ => none
  | fuel + 1, cs =>
    match closing? quote cs with
    | some found => some found
    | none =>
      match lineBreak? cs with
      | some rest => do
        let (s, cs) ← longString quote fuel rest
        pure ('\n' :: s, cs)
      | none =>
        match cs with
        | [] => none
        | c :: cs =>
          if c = '\\' ∧ quote = '"' then
            match lineBreak? (dropSpace cs) with
            | some rest => longString quote fuel (dropBlankLines cs.length rest)
            | none => do
              let (c, cs) ← escape? cs
              let (s, cs) ← longString quote fuel cs
              pure (c :: s, cs)
          else if isPrintable c then do
            let (s, cs) ← longString quote fuel cs
            pure (c :: s, cs)
          else none

/-- The text after a line break at its head, or the text itself. -/
def dropFirstBreak (cs : List Char) : List Char := (lineBreak? cs).getD cs

def stringValue : List Char → Option (List Char × List Char)
  | '"' :: '"' :: '"' :: cs => longString '"' (cs.length + 1) (dropFirstBreak cs)
  | '"' :: cs => basicString (cs.length + 1) cs
  | '\'' :: '\'' :: '\'' :: cs => longString '\'' (cs.length + 1) (dropFirstBreak cs)
  | '\'' :: cs => literalString cs
  | _ => none

/-- Whether a character may stand in a key without quotes. -/
def isBare (c : Char) : Bool := c.isAlphanum || c = '_' || c = '-'

def keyPart : List Char → Option (String × List Char)
  | '"' :: cs => (basicString (cs.length + 1) cs).map fun (s, cs) => (String.ofList s, cs)
  | '\'' :: cs => (literalString cs).map fun (s, cs) => (String.ofList s, cs)
  | cs =>
    let part := cs.takeWhile isBare
    if part = [] then none else some (String.ofList part, cs.dropWhile isBare)

/-- The parts of a key, with points between them. -/
def keyParts : (fuel : Nat) → List Char → Option (List String × List Char)
  | 0, _ => none
  | fuel + 1, cs => do
    let (part, cs) ← keyPart (dropSpace cs)
    match dropSpace cs with
    | '.' :: cs => do
      let (parts, cs) ← keyParts fuel cs
      pure (part :: parts, cs)
    | cs => pure ([part], cs)

/-- How many parts a key may have, and how many levels a value may nest. -/
def deepest : Nat := 79

end WorldPlugins.Toml
