import WorldPlugins.Attr.Basic

/-! # Attribute specifications

The short text form of an attribute: `name[TYPE]=value`, or `name=value` for one of type `STRING`.
-/

namespace WorldPlugins.Attr

/-- The text before and after the first occurrence of a character. -/
def cut (mark : Char) : List Char → Option (List Char × List Char)
  | [] => none
  | c :: cs => if c = mark then some ([], cs) else (cut mark cs).map fun (a, b) => (c :: a, b)

def spec (a : Attr) : String := a.name ++ "[" ++ a.type.name ++ "]=" ++ a.value

/-- The parts of a specification that gives a type: name, type and value. -/
def typedParts? (text : List Char) : Option (List Char × List Char × List Char) := do
  let (name, rest) ← cut '[' text
  let (type, rest) ← cut ']' rest
  match rest with
  | '=' :: value => if name ≠ [] ∧ type ≠ [] then some (name, type, value) else none
  | _ => none

/-- The parts of a specification that gives no type: name and value. -/
def plainParts? (text : List Char) : Option (List Char × List Char) := do
  let (name, value) ← cut '=' text
  if name ≠ [] ∧ '[' ∉ name then some (name, value) else none

/-- The attribute with this specification. -/
def ofSpec (text : String) : Except AttrError Attr :=
  match typedParts? text.toList with
  | some (name, type, value) =>
    match AttrType.ofName? (String.ofList type) with
    | some type => .ok ⟨String.ofList name, String.ofList value, type⟩
    | none => .error (.unknownType (String.ofList type))
  | none =>
    match plainParts? text.toList with
    | some (name, value) => .ok (.string (String.ofList name) (String.ofList value))
    | none => .error (.invalidSpec text)

end WorldPlugins.Attr
