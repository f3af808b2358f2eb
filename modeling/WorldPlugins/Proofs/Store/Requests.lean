import WorldPlugins.Proofs.Attr.Stored
import WorldPlugins.Proofs.Store.Sessions

/-! # What the methods of the store do

One lemma for each method: what comes of it with a store in memory, and the store after it.  Reading changes
nothing.  Every method can be made to fail, and then nothing changes either.
-/

namespace WorldPlugins

open Json (Decoder)
open Session (outcome outcome_bind outcome_ite outcome_pure outcome_throw)

@[simp] theorem StoreMethod.ofName?_name (method : StoreMethod) :
    StoreMethod.ofName? method.name = some method := by
  cases method <;> rfl

namespace Json

/-- An array of free-form values that are each read back is read back. -/
theorem ofJson_array {α : Type} {d : Decoder α} {f : α → Json} (h : ∀ a, d.ofJson (f a) = .ok a) (values : List α) :
    (Decoder.list d).ofJson (.array (values.map f)) = .ok values := by
  change (values.map f).mapM d.ofJson = .ok values
  induction values with
  | nil => rfl
  | cons value values ih =>
    rw [List.map_cons, List.mapM_cons, h, ih]
    rfl

@[simp] theorem ofJson_strings (values : List String) :
    (Decoder.list Decoder.string).ofJson (Json.strings values) = .ok values :=
  ofJson_array (fun _ => rfl) values

end Json

@[simp] theorem Record.ofJson_toJson (r : Record) : Record.decoder.ofJson r.toJson = .ok r := by
  simp [decoder, Decoder.record, toJson, Json.Field.ofMembers, Json.Field.needed, Json.Field.make,
    Decoder.map, Json.Field.missing?, bind, Except.bind, pure, Except.pure]

@[simp] theorem Column.ofJson_toJson (c : Column) : Column.decoder.ofJson c.toJson = .ok c := rfl

@[simp] theorem Table.ofJson_toJson (t : Table) : Table.decoder.ofJson t.toJson = .ok t := by
  have hcolumns := Json.ofJson_array Column.ofJson_toJson t.columns
  have hrows := Json.ofJson_array Json.ofJson_strings t.rows
  simp [decoder, Decoder.record, toJson, Json.Field.ofMembers, Json.Field.needed, Json.Field.make,
    Decoder.map, Json.Field.missing?, hcolumns, hrows, bind, Except.bind, pure, Except.pure]

namespace Store

def fault? (method : StoreMethod) (s : Store) : Option RpcError :=
  (Keyed.get? s.failures method.name).map .ofErrorObject

def attr? (thing name : String) (s : Store) : Option Attr :=
  (s.attributes thing).find? fun a => a.name == name

def fetch (thing name : String) (s : Store) : Except RpcError Attr :=
  if thing = "" then .error (.parameters (.empty "thingId"))
  else if name = "" then .error (.parameters (.empty "name"))
  else
    match s.fault? .getAttr with
    | some e => .error e
    | none =>
      match s.thing? thing with
      | none => .error (.ofErrorObject (notFound ("Thing " ++ thing ++ " not found")))
      | some attrs =>
        match attrs.find? fun a => a.name == name with
        | some a => .ok a
        | none => .error (.ofErrorObject (notFound ("Attribute " ++ name ++ " not found")))

def fetchNames (thing : String) (s : Store) : Except RpcError (List String) :=
  if thing = "" then .error (.parameters (.empty "thingId"))
  else
    match s.fault? .getAttrNames with
    | some e => .error e
    | none =>
      match s.thing? thing with
      | none => .error (.ofErrorObject (notFound ("Thing " ++ thing ++ " not found")))
      | some attrs => .ok (attrs.map Attr.name)

def fetchCaller (s : Store) : Except RpcError String :=
  match s.fault? .getCallerName with
  | some e => .error e
  | none => .ok s.caller

def fetchTimezone (s : Store) : Except RpcError String :=
  match s.fault? .getCallerTimezone with
  | some e => .error e
  | none => .ok s.timezone

def fetchRoles (player : String) (s : Store) : Except RpcError (List String) :=
  if player = "" then .error (.parameters (.empty "playerName"))
  else
    match s.fault? .getRoles with
    | some e => .error e
    | none =>
      match Keyed.get? s.roles player with
      | none => .error (.ofErrorObject (notFound ("Player " ++ player ++ " not found")))
      | some roles => .ok roles

def write (thing : String) (attr : Attr) (s : Store) : Except RpcError Unit × Store :=
  if thing = "" then (.error (.parameters (.empty "thingId")), s)
  else if attr.name = "" then (.error (.parameters (.empty "name")), s)
  else
    match s.fault? .setAttr with
    | some e => (.error e, s)
    | none => (.ok (), s.withAttr thing attr)

def without (thing name : String) (s : Store) : Store :=
  s.setAttributes thing ((s.attributes thing).filter fun a => a.name != name)

def remove (thing name : String) (s : Store) : Except RpcError Unit × Store :=
  if thing = "" then (.error (.parameters (.empty "thingId")), s)
  else if name = "" then (.error (.parameters (.empty "name")), s)
  else
    match s.fault? .removeAttr with
    | some e => (.error e, s)
    | none =>
      match s.thing? thing with
      | none => (.error (.ofErrorObject (notFound ("Thing " ++ thing ++ " not found"))), s)
      | some _ => (.ok (), s.without thing name)

def writeField (thing list : String) (field : Attr) (s : Store) : Except RpcError Unit × Store :=
  match s.fetch thing list with
  | .error e => (.error e, s)
  | .ok current =>
    match current.withField field with
    | .error e => (.error (.attr e), s)
    | .ok updated => s.write thing updated

def send (method : StoreMethod) (message : Sent) (s : Store) : Except RpcError Unit × Store :=
  match s.fault? method with
  | some e => (.error e, s)
  | none => (.ok (), s.deliver message)

def tell (text : String) (header : Option String) (s : Store) : Except RpcError Unit × Store :=
  s.send .sendMessageToCaller ⟨s.caller, some text, header, none, none⟩

theorem outcome_query {α : Type} (d : Decoder α) (method : StoreMethod) (params : List (String × Json))
    (s : Store) :
    outcome (Client.query d method params) s =
      match s.fault? method with
      | some e => (.error e, s)
      | none =>
        match s.perform (Keyed.ofList params) method with
        | .error e => (.error (.ofErrorObject e), s)
        | .ok (result, t) =>
          ((d.ofJson result).mapError fun cause => .malformed (.unexpected method.name cause), t) := by
  simp only [Client.query, Client.call, outcome, ExceptT.run_mk, Session.eval, reply, fault?,
    StoreMethod.ofName?_name]
  cases Keyed.get? s.failures method.name with
  | some failure => rfl
  | none =>
    simp only [Option.map_none]
    cases s.perform (Keyed.ofList params) method <;> rfl

theorem outcome_order (method : StoreMethod) (params : List (String × Json)) (s : Store) :
    outcome (Client.order method params) s =
      match s.fault? method with
      | some e => (.error e, s)
      | none =>
        match s.perform (Keyed.ofList params) method with
        | .error e => (.error (.ofErrorObject e), s)
        | .ok (_, t) => (.ok (), t) := by
  rw [Client.order, outcome_bind, outcome_query]
  cases s.fault? method with
  | some e => rfl
  | none => cases s.perform (Keyed.ofList params) method <;> rfl

/-- An empty parameter is refused before anything else. -/
private theorem outcome_require {α : Type} (name value : String) (x : Unit → Api α) (s : Store) :
    outcome (Client.require name value >>= x) s =
      if value = "" then (.error (.parameters (.empty name)), s) else outcome (x ()) s := by
  by_cases h : value = ""
  · simp [Client.require, h]
  · simp [Client.require, h]

section

variable (thing name : String) (asExtension : Bool) (s : Store)

theorem outcome_getAttr : outcome (Client.getAttr thing name asExtension) s = (s.fetch thing name, s) := by
  simp only [Client.getAttr, outcome_require, outcome_query, fetch]
  simp (disch := decide) only [perform, Keyed.ofList, List.foldl, stringParam, Json.Members.string?,
    Keyed.get?_insert_self, Keyed.get?_insert_of_ne, Option.bind_some, Json.string?, existing, bind,
    Except.bind]
  split
  · rfl
  split
  · rfl
  cases hfault : s.fault? .getAttr with
  | some e => rfl
  | none =>
    cases hthing : s.thing? thing with
    | none => rfl
    | some attrs =>
      cases hfind : attrs.find? fun a => a.name == name with
      | none => simp [hfind]
      | some a => simp [hfind, pure, Except.pure, Except.mapError]

theorem outcome_getAttrNames :
    outcome (Client.getAttrNames thing asExtension) s = (s.fetchNames thing, s) := by
  simp only [Client.getAttrNames, outcome_require, outcome_query, fetchNames]
  simp (disch := decide) only [perform, Keyed.ofList, List.foldl, stringParam, Json.Members.string?,
    Keyed.get?_insert_self, Keyed.get?_insert_of_ne, Option.bind_some, Json.string?, existing, bind,
    Except.bind]
  split
  · rfl
  cases hfault : s.fault? .getAttrNames with
  | some e => rfl
  | none =>
    cases hthing : s.thing? thing with
    | none => rfl
    | some attrs => simp [pure, Except.pure, Except.mapError]

theorem outcome_setAttr (attr : Attr) : outcome (Client.setAttr thing attr asExtension) s = s.write thing attr := by
  simp only [Client.setAttr, outcome_require, outcome_order, write]
  simp (disch := decide) only [perform, Keyed.ofList, List.foldl, stringParam, Json.Members.string?,
    Keyed.get?_insert_self, Keyed.get?_insert_of_ne, Option.bind_some, Json.string?, bind, Except.bind]
  split
  · rfl
  split
  · rfl
  cases hfault : s.fault? .setAttr with
  | some e => rfl
  | none => simp [pure, Except.pure]

theorem outcome_removeAttr :
    outcome (Client.removeAttr thing name asExtension) s = s.remove thing name := by
  simp only [Client.removeAttr, outcome_require, outcome_order, remove]
  simp (disch := decide) only [perform, Keyed.ofList, List.foldl, stringParam, Json.Members.string?,
    Keyed.get?_insert_self, Keyed.get?_insert_of_ne, Option.bind_some, Json.string?, existing, bind,
    Except.bind]
  split
  · rfl
  split
  · rfl
  cases hfault : s.fault? .removeAttr with
  | some e => rfl
  | none =>
    cases hthing : s.thing? thing with
    | none => rfl
    | some attrs =>
      simp [pure, Except.pure, without, attributes, hthing]

theorem outcome_setField (field : Attr) :
    outcome (Client.setField thing name field asExtension) s = s.writeField thing name field := by
  simp only [Client.setField, outcome_bind, outcome_getAttr, writeField]
  cases s.fetch thing name with
  | error e => rfl
  | ok current =>
    cases hfield : current.withField field with
    | error e => simp [hfield]
    | ok updated => simp [hfield, outcome_setAttr]

end

theorem outcome_getCallerName (s : Store) : outcome Client.getCallerName s = (s.fetchCaller, s) := by
  rw [Client.getCallerName, outcome_query, fetchCaller]
  cases s.fault? .getCallerName <;> rfl

theorem outcome_getCallerTimezone (s : Store) : outcome Client.getCallerTimezone s = (s.fetchTimezone, s) := by
  rw [Client.getCallerTimezone, outcome_query, fetchTimezone]
  cases s.fault? .getCallerTimezone <;> rfl

theorem outcome_getRoles (player : String) (asExtension : Bool) (s : Store) :
    outcome (Client.getRoles player asExtension) s = (s.fetchRoles player, s) := by
  simp only [Client.getRoles, outcome_require, outcome_query, fetchRoles]
  simp (disch := decide) only [perform, Keyed.ofList, List.foldl, stringParam, Json.Members.string?,
    Keyed.get?_insert_self, Keyed.get?_insert_of_ne, Option.bind_some, Json.string?, bind, Except.bind]
  split
  · rfl
  cases hfault : s.fault? .getRoles with
  | some e => rfl
  | none =>
    cases hroles : Keyed.get? s.roles player with
    | none => rfl
    | some roles => simp [pure, Except.pure, Except.mapError]

theorem outcome_sendMessage (player text : String) (s : Store) :
    outcome (Client.sendMessage player text) s =
      s.send .sendMessage ⟨player, some text, none, none, none⟩ := by
  simp only [Client.sendMessage, outcome_order, send]
  simp (disch := decide) only [perform, Keyed.ofList, List.foldl, stringParam, Json.Members.string?,
    Keyed.get?_insert_self, Keyed.get?_insert_of_ne, Option.bind_some, Json.string?, bind, Except.bind]
  cases hfault : s.fault? .sendMessage with
  | some e => rfl
  | none => simp [pure, Except.pure]

theorem outcome_sendToCaller (text : String) (s : Store) :
    outcome (Client.sendToCaller text) s = s.tell text none := by
  simp only [Client.sendToCaller, outcome_order, tell, send]
  simp (disch := decide) only [perform, Keyed.ofList, List.foldl, payloadParam, Json.Members.string?,
    Keyed.get?_insert_self, Keyed.get?_insert_of_ne, Keyed.get?_nil, Option.bind_some, Json.string?, bind,
    Except.bind]
  cases hfault : s.fault? .sendMessageToCaller with
  | some e => rfl
  | none => simp [pure, Except.pure]

theorem outcome_sendWithHeader (text header : String) (s : Store) :
    outcome (Client.sendWithHeader text header) s = s.tell text (some header) := by
  simp only [Client.sendWithHeader, outcome_order, tell, send]
  simp (disch := decide) only [perform, Keyed.ofList, List.foldl, payloadParam, Json.Members.string?,
    Keyed.get?_insert_self, Keyed.get?_insert_of_ne, Keyed.get?_nil, Option.bind_some, Json.string?, bind,
    Except.bind]
  cases hfault : s.fault? .sendMessageToCaller with
  | some e => rfl
  | none => simp [pure, Except.pure]

theorem outcome_sendRecord (record : Record) (header : String) (s : Store) :
    outcome (Client.sendRecord record header) s =
      s.send .sendMessageToCaller ⟨s.caller, none, some header, some record, none⟩ := by
  simp only [Client.sendRecord, outcome_order, send]
  simp (disch := decide) only [perform, Keyed.ofList, List.foldl, payloadParam, Json.Members.string?,
    Keyed.get?_insert_self, Keyed.get?_insert_of_ne, Keyed.get?_nil, Option.bind_some, Json.string?, bind,
    Except.bind, Record.ofJson_toJson]
  cases hfault : s.fault? .sendMessageToCaller with
  | some e => rfl
  | none => simp [pure, Except.pure]

theorem outcome_sendTable (table : Table) (header : String) (s : Store) :
    outcome (Client.sendTable table header) s =
      s.send .sendMessageToCaller ⟨s.caller, none, some header, none, some table⟩ := by
  simp only [Client.sendTable, outcome_order, send]
  simp (disch := decide) only [perform, Keyed.ofList, List.foldl, payloadParam, Json.Members.string?,
    Keyed.get?_insert_self, Keyed.get?_insert_of_ne, Keyed.get?_nil, Option.bind_some, Json.string?, bind,
    Except.bind, Table.ofJson_toJson]
  cases hfault : s.fault? .sendMessageToCaller with
  | some e => rfl
  | none => simp [pure, Except.pure]

end Store

end WorldPlugins
