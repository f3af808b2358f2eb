import WorldPlugins.Rpc.Client
import WorldPlugins.Rpc.Wire

/-! # A store in memory

The world's attributes per thing, in the order of their first writing, with the roles of its players and the
messages sent to them.  `Store.answer` is the whole of its behaviour: one request, one response.  A request that
is answered with an error changes nothing.
-/

namespace WorldPlugins

open Json (Decoder Members)

/-- A message delivered to a player. -/
structure Sent where
  recipient : String
  message : Option String
  header : Option String
  record : Option Record
  table : Option Table
  deriving DecidableEq, Repr

structure Store where
  /-- The attributes of each thing, in the order of their first writing. -/
  things : Keyed (List Attr)
  /-- The player who makes the plugin call. -/
  caller : String
  timezone : String
  /-- The roles of each player. -/
  roles : Keyed (List String)
  /-- The methods that are made to fail, with the error that each gives. -/
  failures : Keyed ErrorObject
  /-- The messages delivered, in order. -/
  sent : List Sent
  deriving Repr

namespace Store

def empty : Store := ⟨[], "caller", "UTC", [], [], []⟩

def withCaller (name : String) (s : Store) : Store := { s with caller := name }

def withTimezone (zone : String) (s : Store) : Store := { s with timezone := zone }

def withRoles (player : String) (roles : List String) (s : Store) : Store :=
  { s with roles := Keyed.insert player roles s.roles }

def thing? (id : String) (s : Store) : Option (List Attr) := Keyed.get? s.things id

def attributes (id : String) (s : Store) : List Attr := (s.thing? id).getD []

def setAttributes (id : String) (attrs : List Attr) (s : Store) : Store :=
  { s with things := Keyed.insert id attrs s.things }

def withThing (id : String) (s : Store) : Store := s.setAttributes id (s.attributes id)

/-- The world in which a thing has this attribute in place of any other of its name. -/
def withAttr (id : String) (attr : Attr) (s : Store) : Store :=
  s.setAttributes id (Attr.upsert (s.attributes id) attr)

def withFailure (method : String) (code : Int) (message : String) (s : Store) : Store :=
  { s with failures := Keyed.insert method (.make code message) s.failures }

def deliver (message : Sent) (s : Store) : Store := { s with sent := s.sent ++ [message] }

def messagesTo (player : String) (s : Store) : List String :=
  (s.sent.filter fun m => m.recipient == player).filterMap Sent.message

def notFound (message : String) : ErrorObject := .make ErrorCode.notFound.number message

def badParams (message : String) : ErrorObject := .make ErrorCode.invalidParams.number message

/-- A parameter that has to be a string. -/
def stringParam (params : Members) (name : String) : Except ErrorObject String :=
  match params.string? name with
  | some s => .ok s
  | none => .error (badParams ("Missing string parameter " ++ name))

/-- A parameter that may be missing and is else of a given shape. -/
def payloadParam {α : Type} (d : Decoder α) (params : Members) (name : String) :
    Except ErrorObject (Option α) :=
  match Keyed.get? params name with
  | none => .ok none
  | some value =>
    match d.ofJson value with
    | .ok a => .ok (some a)
    | .error cause => .error (badParams ("Invalid " ++ name ++ ": " ++ cause.message))

/-- The attributes of a thing that has to exist. -/
def existing (id : String) (s : Store) : Except ErrorObject (List Attr) :=
  match s.thing? id with
  | some attrs => .ok attrs
  | none => .error (notFound ("Thing " ++ id ++ " not found"))

/-- The result of a method that tells nothing. -/
def nothing : Json := .string ""

/-- What a method does, once it is known not to fail for other reasons. -/
def perform (params : Members) (s : Store) : StoreMethod → Except ErrorObject (Json × Store)
  | .getAttr => do
    let id ← stringParam params "thingId"
    let name ← stringParam params "name"
    let attrs ← s.existing id
    match attrs.find? fun a => a.name == name with
    | some a => pure (a.toJson, s)
    | none => .error (notFound ("Attribute " ++ name ++ " not found"))
  | .getAttrNames => do
    let id ← stringParam params "thingId"
    let attrs ← s.existing id
    pure (.strings (attrs.map Attr.name), s)
  | .setAttr => do
    let id ← stringParam params "thingId"
    let name ← stringParam params "name"
    let value ← stringParam params "value"
    let typeName ← stringParam params "type"
    match AttrType.ofName? typeName with
    | some type => pure (nothing, s.withAttr id ⟨name, value, type⟩)
    | none => .error (badParams (AttrError.unknownType typeName).message)
  | .removeAttr => do
    let id ← stringParam params "thingId"
    let name ← stringParam params "name"
    let attrs ← s.existing id
    pure (nothing, s.setAttributes id (attrs.filter fun a => a.name != name))
  | .getCallerName => .ok (.string s.caller, s)
  | .getCallerTimezone => .ok (.string s.timezone, s)
  | .getRoles => do
    let player ← stringParam params "playerName"
    match Keyed.get? s.roles player with
    | some roles => pure (.strings roles, s)
    | none => .error (notFound ("Player " ++ player ++ " not found"))
  | .sendMessage => do
    let recipient ← stringParam params "playerName"
    let message ← stringParam params "message"
    pure (nothing, s.deliver ⟨recipient, some message, none, none, none⟩)
  | .sendMessageToCaller => do
    let record ← payloadParam Record.decoder params "record"
    let table ← payloadParam Table.decoder params "table"
    pure (nothing,
      s.deliver ⟨s.caller, params.string? "message", params.string? "header", record, table⟩)

/-- The result of a method and the world after it, or the error that it is answered with. -/
def execute (method : String) (params : Members) (s : Store) : Except ErrorObject (Json × Store) :=
  match Keyed.get? s.failures method with
  | some failure => .error failure
  | none =>
    match Keyed.get? params callIdKey with
    | none => .error (badParams "Plugin call ID missing")
    | some _ =>
      match StoreMethod.ofName? method with
      | some method => perform params s method
      | none => .error (.make ErrorCode.methodNotFound.number ("Unrecognized method " ++ method))

/-- The response to a request and the world after it. -/
def answer (request : Request) (s : Store) : Response × Store :=
  match execute request.method (request.members?.getD []) s with
  | .ok (result, s) => (.success request.id result, s)
  | .error e => (.failure request.id e, s)

/-- The store as the other side of a session. -/
def exchange : Exchange Store := fun request s =>
  let (response, s) := s.answer request
  (.ok response, s)

/-- The store behind a socket, with the requests that have arrived. -/
def wire : Wire (Store × List Request) := fun request (s, arrived) =>
  let (response, s) := s.answer request
  (.ok response.text.toUTF8.toList, (s, arrived ++ [request]))

end Store

end WorldPlugins
