import WorldPlugins.Calendar.Event
import WorldPlugins.Plugin.Dispatch
import WorldPlugins.Time.Start

/-! # The calendar plugin

The `event` method: players make events, list and look at them, and delete their own.  Times are read and shown
in the caller's zone.
-/

namespace WorldPlugins.Calendar

inductive EventCommand
  | create
  | list
  | get
  | delete
  deriving DecidableEq, Repr

namespace EventCommand

def ofName? : String → Option EventCommand
  | "create" => some .create
  | "list" => some .list
  | "get" => some .get
  | "delete" => some .delete
  | _ => none

def arity : EventCommand → Nat
  | .create => 5
  | .list => 1
  | .get => 2
  | .delete => 2

end EventCommand

def callerZone [Time.ZoneData] : Handler Time.Zone := do
  let name ← Client.getCallerTimezone
  pure (.ofName name)

/-- The event of this name, which has to exist. -/
def load (ctx : Context) (name : String) : Handler Event := do
  match ← ExceptT.lift (Client.getAttr ctx.extension (Event.storedName name) true).run with
  | .ok a => Event.ofAttr a
  | .error e =>
    if e.isNotFound then Handler.refuse (.eventMissing (Event.storedName name)) else throw (.store e)

def create [Time.ZoneData] (ctx : Context) (name description startText location : String) : Handler Json := do
  if ← Client.hasAttr ctx.extension (Event.storedName name) true then
    Handler.refuse (.eventExists (Event.storedName name))
  else
    -- Asked for before the text is read: a call with a wrong start time has made these requests too.
    let owner ← Client.getCallerName
    let zone ← callerZone
    match Time.readStart startText zone with
    | none => Handler.misused (.startTime startText)
    | some start =>
      let event : Event := ⟨name, description, start.seconds, location, some owner⟩
      Client.setAttr ctx.extension event.toAttr true
      Client.sendToCaller ("Created event '" ++ name ++ "'")
      Handler.done

/-- The events stored under these names. -/
def loadAll (ctx : Context) : List String → Handler (List Event)
  | [] => pure []
  | stored :: rest => do
    let a ← Client.getAttr ctx.extension stored true
    let event ← Event.ofAttr a
    let events ← loadAll ctx rest
    pure (event :: events)

/-- The table of events, in their order, with starts in a zone. -/
def table (events : List Event) (zone : Time.Zone) : Table :=
  ⟨[⟨"NAME", "%-40.40s"⟩, ⟨"TIME", "%s"⟩],
    (events.mergeSort Event.precedes).map fun e => [e.name, e.displayStart zone]⟩

def list [Time.ZoneData] (ctx : Context) : Handler Json := do
  let zone ← callerZone
  let names ← Client.getAttrNames ctx.extension true
  match names.filter Event.isStoredName with
  | [] =>
    Client.sendToCaller "No events found"
    Handler.done
  | stored =>
    let events ← loadAll ctx stored
    Client.sendTable (table events zone) "Events:"
    Handler.done

def details (name : String) (e : Event) (zone : Time.Zone) : Record :=
  .ofPairs
    [("Name", name), ("Time", e.displayStart zone), ("Location", e.location),
      ("Organizer", e.owner.getD ""), ("", ""), ("", e.description)]

def get [Time.ZoneData] (ctx : Context) (name : String) : Handler Json := do
  let event ← load ctx name
  let zone ← callerZone
  Client.sendRecord (details name event zone) "Event details:"
  Handler.done

def delete (ctx : Context) (name : String) : Handler Json := do
  let event ← load ctx name
  let caller ← Client.getCallerName
  match event.owner with
  | none => Handler.refuse .noOwner
  | some owner =>
    if owner = caller then
      Client.removeAttr ctx.extension (Event.storedName name) true
      Client.sendToCaller ("Deleted event '" ++ name ++ "'")
      Handler.done
    else Handler.refuse .notOwner

def EventCommand.run [Time.ZoneData] (ctx : Context) (command : EventCommand) : Handler Json :=
  match command, ctx.call.arguments with
  | .create, [_, name, description, start, location] =>
    Calendar.create ctx name description start location
  | .list, [_] => Calendar.list ctx
  | .get, [_, name] => Calendar.get ctx name
  | .delete, [_, name] => Calendar.delete ctx name
  | command, arguments => Handler.misused (.count command.arity arguments.length)

def eventFamily [Time.ZoneData] : Family := fun ctx =>
  (ctx.call.subcommand?.bind EventCommand.ofName?).map fun command => command.run ctx

def plugin [Time.ZoneData] : Plugin := [("event", eventFamily)]

end WorldPlugins.Calendar
