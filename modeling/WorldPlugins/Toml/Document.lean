import WorldPlugins.Toml.Scalar

/-! # TOML documents

A document is a tree of tables.  Tables are written under headers, by dotted keys, or inline, and none may be
defined twice.  Of the values only strings are kept; of all others it is only checked that they are well formed.
-/

namespace WorldPlugins.Toml

/-- What a key stands for. -/
inductive Node
  | text (value : String)
  /-- Any other value. -/
  | other
  /-- A table.  It is `implied` until a header defines it, and `dotted` if a dotted key made it. -/
  | table (implied dotted : Bool) (entries : List (String × Node))
  /-- An array of tables, by the last of them. -/
  | tables (last : List (String × Node))
  deriving Repr, Inhabited

abbrev Entries := List (String × Node)

def Entries.set (entries : Entries) (key : String) (node : Node) : Entries :=
  match entries with
  | [] => [(key, node)]
  | (k, n) :: rest => if k = key then (key, node) :: rest else (k, n) :: Entries.set rest key node

/-- The table into which a dotted key leads, changed by `change`; `isDotted` tells how the table was reached. -/
def alongKey (change : (isDotted : Bool) → Entries → Option Entries) :
    (path : List String) → (isDotted : Bool) → Entries → Option Entries
  | [], isDotted, entries => change isDotted entries
  | key :: path, _, entries =>
    match entries.lookup key with
    | none => (alongKey change path true []).map fun inner => entries.set key (.table true true inner)
    | some (.table true dotted inner) =>
      (alongKey change path dotted inner).map fun inner => entries.set key (.table true dotted inner)
    | some (.tables last) =>
      (alongKey change path false last).map fun inner => entries.set key (.tables inner)
    | some _ => none

/-- Adds a value under a dotted key.  A dotted key adds only to tables made by dotted keys. -/
def addValue (path : List String) (key : String) (node : Node) (entries : Entries) : Option Entries :=
  alongKey (fun isDotted inner =>
      if isDotted = path.isEmpty ∨ (inner.lookup key).isSome then none else some (inner.set key node))
    path false entries

/-- The table into which a header leads, changed by `change`. -/
def alongHeader (change : Entries → Option Entries) : (path : List String) → Entries → Option Entries
  | [], entries => change entries
  | key :: path, entries =>
    match entries.lookup key with
    | none => (alongHeader change path []).map fun inner => entries.set key (.table true false inner)
    | some (.table implied dotted inner) =>
      (alongHeader change path inner).map fun inner => entries.set key (.table implied dotted inner)
    | some (.tables last) =>
      (alongHeader change path last).map fun inner => entries.set key (.tables inner)
    | some _ => none

def openTable (path : List String) (key : String) (entries : Entries) : Option Entries :=
  alongHeader (fun inner =>
    match inner.lookup key with
    | none => some (inner.set key (.table false false []))
    | some (.table true false own) => some (inner.set key (.table false false own))
    | some _ => none) path entries

/-- Opens the next table of the array of a header. -/
def openNext (path : List String) (key : String) (entries : Entries) : Option Entries :=
  alongHeader (fun inner =>
    match inner.lookup key with
    | none | some (.tables _) => some (inner.set key (.tables []))
    | some _ => none) path entries

/-- The last part of a key and the parts before it. -/
def splitLast? (parts : List String) : Option (List String × String) :=
  if parts.length ≤ deepest then parts.getLast?.map fun key => (parts.dropLast, key) else none

mutual

/-- A value that may nest `levels` deep, and the text after it. -/
def value : (fuel levels : Nat) → List Char → Option (Node × List Char)
  | 0, _, _ => none
  | fuel + 1, levels, cs =>
    match cs with
    | '[' :: rest =>
      match levels with
      | 0 => none
      | levels + 1 => (arrayItems fuel levels (dropLines rest.length rest)).map fun rest => (.other, rest)
    | '{' :: rest =>
      match levels with
      | 0 => none
      | levels + 1 =>
        match dropSpace rest with
        | '}' :: rest => some (.other, rest)
        | rest => (inlineEntries fuel levels [] rest).map fun rest => (.other, rest)
    | '"' :: _ => (stringValue cs).map fun (s, rest) => (.text (String.ofList s), rest)
    | '\'' :: _ => (stringValue cs).map fun (s, rest) => (.text (String.ofList s), rest)
    | cs => (scalar cs).map fun rest => (.other, rest)

/-- The items of an array up to its end. -/
def arrayItems : (fuel levels : Nat) → List Char → Option (List Char)
  | 0, _, _ => none
  | _ + 1, _, ']' :: rest => some rest
  | fuel + 1, levels, cs => do
    let (_, rest) ← value fuel levels cs
    match dropLines rest.length rest with
    | ',' :: rest => arrayItems fuel levels (dropLines rest.length rest)
    | ']' :: rest => some rest
    | _ => none

/-- The entries of an inline table up to its end. -/
def inlineEntries : (fuel levels : Nat) → Entries → List Char → Option (List Char)
  | 0, _, _, _ => none
  | fuel + 1, levels, entries, cs => do
    let (parts, rest) ← keyParts cs.length cs
    let (path, key) ← splitLast? parts
    let rest ← Time.oneOf ['='] rest
    let (node, rest) ← value fuel levels (dropSpace rest)
    let entries ← addValue path key node entries
    match dropSpace rest with
    | ',' :: rest => inlineEntries fuel levels entries rest
    | '}' :: rest => some rest
    | _ => none

end

/-- A key with its value at the head of a line, added to the table under the last header. -/
def keyLine (header : List String) (root : Entries) (cs : List Char) : Option (Entries × List Char) := do
  let (parts, rest) ← keyParts cs.length cs
  let (path, key) ← splitLast? parts
  let rest ← Time.oneOf ['='] rest
  let (node, rest) ← value (rest.length + 1) deepest (dropSpace rest)
  let root ← alongHeader (addValue path key node) header root
  pure (root, ← endLine? rest)

/-- The parts of a header, from after its opening bracket on, up to its closing bracket. -/
def headerParts (cs : List Char) : Option (List String × List Char) := do
  let (parts, rest) ← keyParts cs.length cs
  pure (parts, ← Time.oneOf [']'] rest)

/-- The lines of a document, added to what the lines before gave. -/
def lines : (fuel : Nat) → (header : List String) → Entries → List Char → Option Entries
  | 0, _, _, _ => none
  | fuel + 1, header, root, cs =>
    match dropSpace cs with
    | [] => some root
    | '[' :: '[' :: rest => do
      let (parts, rest) ← headerParts rest
      let (path, key) ← splitLast? parts
      let rest ← Time.oneOf [']'] rest
      lines fuel parts (← openNext path key root) (← endLine? rest)
    | '[' :: rest => do
      let (parts, rest) ← headerParts rest
      let (path, key) ← splitLast? parts
      lines fuel parts (← openTable path key root) (← endLine? rest)
    | cs =>
      match endLine? cs with
      | some rest => lines fuel header root rest
      | none => do
        let (root, rest) ← keyLine header root cs
        lines fuel header root rest

/-- The entries of a document, if it is well formed.  A byte order mark before it is no part of it. -/
def document (cs : List Char) : Option Entries :=
  let cs := match cs with
    | c :: rest => if c.toNat = 0xFEFF then rest else cs
    | [] => []
  lines (cs.length + 1) [] [] cs

end WorldPlugins.Toml
