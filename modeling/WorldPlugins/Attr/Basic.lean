import WorldPlugins.Json.Decoder
import WorldPlugins.Json.Printer

/-! # Attributes

Everything the world stores is an attribute: a name, a value written as text, and a type that says how to read
the value.  A composite thing is one attribute of type `ATTRLIST`, whose value is the JSON array of its fields.
-/

namespace WorldPlugins

open Json (Decoder Field)

/-- How the value of an attribute is to be read. -/
inductive AttrType
  | string
  /-- A decimal integer of 64 bits. -/
  | integer
  /-- `true` or `false` in any case. -/
  | boolean
  /-- Decimal seconds since the epoch. -/
  | timestamp
  /-- The id of another thing. -/
  | thing
  /-- One attribute as JSON. -/
  | attr
  /-- A JSON array of attributes. -/
  | attrList
  deriving DecidableEq, Repr, Inhabited

namespace AttrType

def name : AttrType → String
  | .string => "STRING"
  | .integer => "INTEGER"
  | .boolean => "BOOLEAN"
  | .timestamp => "TIMESTAMP"
  | .thing => "THING"
  | .attr => "ATTR"
  | .attrList => "ATTRLIST"

/-- All types, in the order in which they are listed to the reader. -/
def all : List AttrType :=
  [.string, .integer, .boolean, .timestamp, .thing, .attr, .attrList]

def ofName? (text : String) : Option AttrType := all.find? fun type => type.name == text

def decoder : Decoder AttrType := Decoder.oneOf (all.map name) ofName?

end AttrType

/-- A typed, named value. -/
structure Attr where
  name : String
  value : String
  type : AttrType
  deriving DecidableEq, Repr, Inhabited

/-- Why an attribute cannot be used as asked. -/
inductive AttrError
  | decoding (name : String) (cause : Json.ReadError)
  | typeMismatch (name : String) (expected actual : AttrType)
  | fieldNotFound (field : String)
  | invalidValue (name : String) (type : AttrType) (value : String)
  | invalidSpec (text : String)
  | unknownType (name : String)
  deriving DecidableEq, Repr

def AttrError.message : AttrError → String
  | .decoding name cause => "failed to decode attribute " ++ name ++ ": " ++ cause.message
  | .typeMismatch name expected actual =>
    "Attr " ++ name ++ " is of type " ++ actual.name ++ ", not " ++ expected.name
  | .fieldNotFound field => "Attribute " ++ field ++ " not found"
  | .invalidValue name type value =>
    "invalid " ++ type.name ++ " value for attribute " ++ name ++ ": " ++ Text.quoted value
  | .invalidSpec text => "invalid attribute spec " ++ Text.quoted text
  | .unknownType name => "unknown attribute type " ++ Text.quoted name

namespace Attr

/-- An attribute as it is stored: an object with name, value and type in this order. -/
def stored (a : Attr) : Json :=
  .object [("name", .string a.name), ("value", .string a.value), ("type", .string a.type.name)]

def toJson (a : Attr) : Json :=
  .object [("name", .string a.name), ("type", .string a.type.name), ("value", .string a.value)]

def text (a : Attr) : String := a.stored.print

def decoder : Decoder Attr :=
  Decoder.record "struct Attr"
    [Field.needed "name" Decoder.string fun name a => { a with name },
     Field.needed "value" Decoder.string fun value a => { a with value },
     Field.needed "type" AttrType.decoder fun type a => { a with type }]
    ⟨"", "", .string⟩

def integer (name : String) (value : Int) : Attr := ⟨name, Text.showInteger value, .integer⟩

def boolean (name : String) (value : Bool) : Attr :=
  ⟨name, if value then "true" else "false", .boolean⟩

def timestamp (name : String) (seconds : Int) : Attr := ⟨name, Text.showInteger seconds, .timestamp⟩

def string (name value : String) : Attr := ⟨name, value, .string⟩

def thing (name id : String) : Attr := ⟨name, id, .thing⟩

def nested (name : String) (inner : Attr) : Attr := ⟨name, inner.text, .attr⟩

def list (name : String) (fields : List Attr) : Attr :=
  ⟨name, (Json.array (fields.map stored)).print, .attrList⟩

/-- Refuses an attribute of another type. -/
def expect (a : Attr) (expected : AttrType) : Except AttrError Unit :=
  if a.type = expected then .ok () else .error (.typeMismatch a.name expected a.type)

def invalid (a : Attr) : AttrError := .invalidValue a.name a.type a.value

def decodeValue {α : Type} (a : Attr) (d : Decoder α) : Except AttrError α :=
  (d.ofString a.value).mapError (.decoding a.name)

/-- The integer in the value, for any type whose value is one. -/
def number (a : Attr) : Except AttrError Int :=
  match Text.integer? a.value.toList with
  | some i => .ok i
  | none => .error a.invalid

def integerValue (a : Attr) : Except AttrError Int := do
  a.expect .integer
  a.number

def booleanValue (a : Attr) : Except AttrError Bool := do
  a.expect .boolean
  let word := a.value.toList.map Char.toLower
  if word = ['t', 'r', 'u', 'e'] then pure true
  else if word = ['f', 'a', 'l', 's', 'e'] then pure false
  else .error a.invalid

def thingValue (a : Attr) : Except AttrError String := do
  a.expect .thing
  pure a.value

def epochSeconds (a : Attr) : Except AttrError Int := do
  a.expect .timestamp
  a.number

def nestedValue (a : Attr) : Except AttrError Attr := do
  a.expect .attr
  a.decodeValue decoder

/-- The fields that an attribute holds, in stored order. -/
def listValue (a : Attr) : Except AttrError (List Attr) := do
  a.expect .attrList
  a.decodeValue (Decoder.list decoder)

end Attr

end WorldPlugins
