import WorldPlugins.Keyed

/-! # JSON values

A free-form value.  The members of an object are kept in ascending order of their keys, so a value has one
written form.
-/

namespace WorldPlugins

/-- A number: an integer of 64 bits, signed or not, or else a double-precision float given by its bits. -/
inductive Number
  | int (value : Int)
  | float (bits : UInt64)
  deriving DecidableEq, Repr, Inhabited

inductive Json
  | null
  | bool (value : Bool)
  | number (value : Number)
  | string (value : String)
  | array (items : List Json)
  | object (members : List (String × Json))
  deriving Repr, Inhabited

namespace Json

abbrev Members := Keyed Json

def int (value : Int) : Json := .number (.int value)

def strings (values : List String) : Json := .array (values.map .string)

def string? : Json → Option String
  | .string s => some s
  | _ => none

def array? : Json → Option (List Json)
  | .array items => some items
  | _ => none

def object? : Json → Option Members
  | .object members => some members
  | _ => none

/-- The member with this key, if it is a string. -/
def Members.string? (members : Members) (key : String) : Option String :=
  (Keyed.get? members key).bind Json.string?

theorem string?_eq_some_iff {value : Json} {s : String} : value.string? = some s ↔ value = .string s := by
  cases value <;> simp [string?]

theorem array?_eq_some_iff {value : Json} {items : List Json} : value.array? = some items ↔ value = .array items := by
  cases value <;> simp [array?]

theorem object?_eq_some_iff {value : Json} {members : Members} :
    value.object? = some members ↔ value = .object members := by
  cases value <;> simp [object?]

theorem Members.string?_eq_some_iff (members : Members) (key s : String) :
    members.string? key = some s ↔ Keyed.get? members key = some (.string s) := by
  simp [Members.string?, Option.bind_eq_some_iff, Json.string?_eq_some_iff]

end Json

end WorldPlugins
