import WorldPlugins.Attr.Basic

/-! # Typed values

What an attribute means: one case for each type.
-/

namespace WorldPlugins

/-- The meaning of an attribute's value. -/
inductive AttrValue
  | string (text : String)
  | integer (value : Int)
  | boolean (value : Bool)
  /-- Seconds since the epoch. -/
  | timestamp (seconds : Int)
  | thing (id : String)
  | attr (inner : Attr)
  | attrList (fields : List Attr)
  deriving DecidableEq, Repr

namespace AttrValue

def type : AttrValue → AttrType
  | .string _ => .string
  | .integer _ => .integer
  | .boolean _ => .boolean
  | .timestamp _ => .timestamp
  | .thing _ => .thing
  | .attr _ => .attr
  | .attrList _ => .attrList

def decode (a : Attr) : Except AttrError AttrValue :=
  match a.type with
  | .string => .ok (.string a.value)
  | .integer => a.integerValue.map .integer
  | .boolean => a.booleanValue.map .boolean
  | .timestamp => a.epochSeconds.map .timestamp
  | .thing => .ok (.thing a.value)
  | .attr => a.nestedValue.map .attr
  | .attrList => a.listValue.map .attrList

/-- The attribute with this name and meaning. -/
def toAttr (name : String) : AttrValue → Attr
  | .string text => .string name text
  | .integer value => .integer name value
  | .boolean value => .boolean name value
  | .timestamp seconds => .timestamp name seconds
  | .thing id => .thing name id
  | .attr inner => .nested name inner
  | .attrList fields => .list name fields

end AttrValue

end WorldPlugins
