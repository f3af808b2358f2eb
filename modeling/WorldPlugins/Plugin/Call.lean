import WorldPlugins.Plugin.Error

/-! # Plugin calls

A request to a plugin carries, under reserved parameters, the id of the call, the extension that the plugin
serves, and the arguments that the player typed.
-/

namespace WorldPlugins

open Json (Members)

/-- Why a request is no plugin call. -/
inductive CallError
  | paramsNotObject
  | callIdNotString
  | extensionIdNotString
  | argumentsNotList
  | argumentNotString (index : Nat)
  deriving DecidableEq, Repr

def CallError.message : CallError → String
  | .paramsNotObject => "Parameters are not an object"
  | .callIdNotString => "Plugin call ID not a string"
  | .extensionIdNotString => "Extension ID not a string"
  | .argumentsNotList => "Plugin call arguments not a string list"
  | .argumentNotString index =>
    "Element " ++ Text.showNatural index ++ " in plugin call arguments is not a string"

structure Call where
  id : String
  method : String
  extension : String
  arguments : List String
  deriving DecidableEq, Repr, Inhabited

namespace Call

/-- The strings in a list of values, of which `index` came before. -/
def readArguments : (index : Nat) → List Json → Except CallError (List String)
  | _, [] => .ok []
  | index, value :: values =>
    match value.string? with
    | some s => (readArguments (index + 1) values).map (s :: ·)
    | none => .error (.argumentNotString index)

/-- The plugin call in the parameters of a request. -/
def ofMembers (method : String) (params : Members) : Except CallError Call := do
  let some id := params.string? callIdKey | .error .callIdNotString
  let some extension := params.string? extensionIdKey | .error .extensionIdNotString
  let some values := (Keyed.get? params argumentsKey).bind Json.array? | .error .argumentsNotList
  pure ⟨id, method, extension, ← readArguments 0 values⟩

def ofRequest (r : Request) : Except CallError Call :=
  match r.members? with
  | some params => ofMembers r.method params
  | none => .error .paramsNotObject

def argument? (c : Call) (index : Nat) : Option String := c.arguments[index]?

/-- The argument that selects what to do. -/
def subcommand? (c : Call) : Option String := c.argument? 0

/-- Refuses any other number of arguments, the subcommand counted. -/
def checkCount (c : Call) (expected : Nat) : Except ArgumentError Unit :=
  if c.arguments.length = expected then .ok () else .error (.count expected c.arguments.length)

/-- Refuses any smaller number of arguments, the subcommand counted. -/
def checkCountAtLeast (c : Call) (expected : Nat) : Except ArgumentError Unit :=
  if expected ≤ c.arguments.length then .ok () else .error (.tooFew expected c.arguments.length)

/-- The object that argument 0 holds when an event made the call. -/
def eventPayload (c : Call) : Except ArgumentError Members :=
  match c.subcommand? with
  | none => .error .noPayload
  | some text => (Json.Decoder.members.ofString text).mapError .badPayload

end Call

end WorldPlugins
