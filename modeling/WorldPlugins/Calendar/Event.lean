import WorldPlugins.Attr.Fields
import WorldPlugins.Time.Moment

/-! # Calendar events

An event has a name, a description, a start, a location and the player who made it.  It is stored as a list
attribute whose name is that of the event after a `#`.
-/

namespace WorldPlugins.Calendar

structure Event where
  /-- The name as players type it. -/
  name : String
  description : String
  /-- The start, in seconds since the epoch. -/
  start : Int
  location : String
  /-- The player who made the event; older ones may have none. -/
  owner : Option String
  deriving DecidableEq, Repr

namespace Event

def storedName (name : String) : String := "#" ++ name

/-- Whether an attribute of the extension is an event by its name. -/
def isStoredName (name : String) : Bool := name.toList.head? = some '#'

/-- The name of the event that an attribute stores. -/
def nameOf (stored : String) : String :=
  match stored.toList with
  | '#' :: name => String.ofList name
  | _ => stored

def toAttr (e : Event) : Attr :=
  .list (storedName e.name)
    ([.string "description" e.description,
      .timestamp "startTimestamp" e.start,
      .string "location" e.location] ++
     e.owner.toList.map (Attr.string "owner"))

/-- The event in a stored attribute.  Of several fields of one name the last counts; a text that is missing is
empty. -/
def ofAttr (a : Attr) : Except AttrError Event := do
  let fields ← a.fieldMap
  let text (key : String) : Option String := (Keyed.get? fields key).map Attr.value
  match Keyed.get? fields "startTimestamp" with
  | none => .error (.fieldNotFound "startTimestamp")
  | some field =>
    let start ← field.moment
    pure
      { name := nameOf a.name
        description := (text "description").getD ""
        start := start.seconds
        location := (text "location").getD ""
        owner := text "owner" }

def displayStart (e : Event) (z : Time.Zone) : String := (Time.Moment.ofSeconds e.start).display z

/-- The order of events: by start, and then by name. -/
def precedes (a b : Event) : Bool := a.start < b.start || (a.start = b.start && decide (a.name ≤ b.name))

end Event

end WorldPlugins.Calendar
