import WorldPlugins.Attr.Fields
import WorldPlugins.Message
import WorldPlugins.Rpc.Session

/-! # The methods of the store

Each method as a session of its own.  Attribute methods name a thing and an attribute, neither of them empty,
and say on whose authority they ask: `asExtension` is the extension's, otherwise the caller's.
-/

namespace WorldPlugins

open Json (Decoder Members)

/-- A session that may fail. -/
abbrev Api := ExceptT RpcError Session

/-- The methods of the store. -/
inductive StoreMethod
  | getAttr
  | getAttrNames
  | setAttr
  | removeAttr
  | getCallerName
  | getCallerTimezone
  | getRoles
  | sendMessage
  | sendMessageToCaller
  deriving DecidableEq, Repr

namespace StoreMethod

def name : StoreMethod → String
  | .getAttr => "getAttr"
  | .getAttrNames => "getAttrNames"
  | .setAttr => "setAttr"
  | .removeAttr => "removeAttr"
  | .getCallerName => "getCallerName"
  | .getCallerTimezone => "getCallerTimezone"
  | .getRoles => "getRoles"
  | .sendMessage => "sendMessage"
  | .sendMessageToCaller => "sendMessageToCaller"

def all : List StoreMethod :=
  [.getAttr, .getAttrNames, .setAttr, .removeAttr, .getCallerName, .getCallerTimezone, .getRoles,
    .sendMessage, .sendMessageToCaller]

def ofName? (text : String) : Option StoreMethod := all.find? fun method => method.name == text

end StoreMethod

namespace Client

/-- Asks for a method and reads the result. -/
def call {α : Type} (d : Decoder α) (method : String) (params : Members) : Api α :=
  ExceptT.mk <| .ask method params fun reply => .done <|
    match reply with
    | .error e => .error e
    | .ok result => (d.ofJson result).mapError fun cause => .malformed (.unexpected method cause)

/-- Asks for a method of the store and reads the result. -/
def query {α : Type} (d : Decoder α) (method : StoreMethod) (params : List (String × Json)) : Api α :=
  call d method.name (Keyed.ofList params)

/-- Asks for a method of the store whose result tells nothing. -/
def order (method : StoreMethod) (params : List (String × Json)) : Api Unit := do
  let _ ← query Decoder.any method params

/-- Refuses an empty parameter before anything is sent. -/
def require (name value : String) : Api Unit :=
  if value = "" then throw (.parameters (.empty name)) else pure ()

def getAttr (thing name : String) (asExtension : Bool) : Api Attr := do
  require "thingId" thing
  require "name" name
  query Attr.decoder .getAttr
    [("thingId", .string thing), ("name", .string name), (authorityKey, .bool asExtension)]

def hasAttr (thing name : String) (asExtension : Bool) : Api Bool :=
  tryCatch (do let _ ← getAttr thing name asExtension; pure true) fun e =>
    if e.isNotFound then pure false else throw e

/-- The names of all attributes of a thing. -/
def getAttrNames (thing : String) (asExtension : Bool) : Api (List String) := do
  require "thingId" thing
  query (Decoder.list Decoder.string) .getAttrNames
    [("thingId", .string thing), (authorityKey, .bool asExtension)]

/-- Writes an attribute of a thing in place of any other of its name. -/
def setAttr (thing : String) (attr : Attr) (asExtension : Bool) : Api Unit := do
  require "thingId" thing
  require "name" attr.name
  order .setAttr
    [("thingId", .string thing), ("name", .string attr.name), ("value", .string attr.value),
      ("type", .string attr.type.name), (authorityKey, .bool asExtension)]

def removeAttr (thing name : String) (asExtension : Bool) : Api Unit := do
  require "thingId" thing
  require "name" name
  order .removeAttr
    [("thingId", .string thing), ("name", .string name), (authorityKey, .bool asExtension)]

/-- Writes one field of a list attribute: reads the list, sets the field, writes the list. -/
def setField (thing list : String) (field : Attr) (asExtension : Bool) : Api Unit := do
  let current ← getAttr thing list asExtension
  match current.withField field with
  | .ok updated => setAttr thing updated asExtension
  | .error e => throw (.attr e)

def getCallerName : Api String := query Decoder.string .getCallerName []

def getCallerTimezone : Api String := query Decoder.string .getCallerTimezone []

def getRoles (player : String) (asExtension : Bool) : Api (List String) := do
  require "playerName" player
  query (Decoder.list Decoder.string) .getRoles
    [("playerName", .string player), (authorityKey, .bool asExtension)]

def sendMessage (player message : String) : Api Unit :=
  order .sendMessage [("playerName", .string player), ("message", .string message)]

def sendToCaller (message : String) : Api Unit :=
  order .sendMessageToCaller [("message", .string message)]

def sendWithHeader (message header : String) : Api Unit :=
  order .sendMessageToCaller [("message", .string message), ("header", .string header)]

def sendRecord (record : Record) (header : String) : Api Unit :=
  order .sendMessageToCaller [("record", record.toJson), ("header", .string header)]

def sendTable (table : Table) (header : String) : Api Unit :=
  order .sendMessageToCaller [("table", table.toJson), ("header", .string header)]

end Client

end WorldPlugins
