import WorldPlugins.Attr.Basic
import WorldPlugins.Time.ZoneTable

/-! # Moments

An instant, as the time since the epoch, and how a timestamp attribute and a display show it.
-/

namespace WorldPlugins.Time

/-- The instants whose universal time has a year that can be written. -/
def isRepresentable (seconds : Int) : Bool := -8334601228800 ≤ seconds && seconds ≤ 8210266876799

/-- An instant: seconds, and the nanoseconds after them.  A second of them or more is a leap second. -/
structure Moment where
  seconds : Int
  nanoseconds : Nat
  deriving DecidableEq, Repr

namespace Moment

/-- The nanoseconds in a second. -/
def second : Nat := 1000000000

def ofSeconds (seconds : Int) : Moment := ⟨seconds, 0⟩

def ofSeconds? (seconds : Int) : Option Moment :=
  if isRepresentable seconds then some (.ofSeconds seconds) else none

/-- An instant as the clocks of a zone show it, in whole seconds. -/
def wallClock (m : Moment) (z : Zone) : WallClock :=
  let w := z.wallClock m.seconds
  if second ≤ m.nanoseconds then w.inLeapSecond else w

def display (m : Moment) (z : Zone) : String := (m.wallClock z).display

end Moment

end WorldPlugins.Time

namespace WorldPlugins.Attr

/-- The instant in a timestamp attribute. -/
def moment (a : Attr) : Except AttrError Time.Moment := do
  let seconds ← a.epochSeconds
  match Time.Moment.ofSeconds? seconds with
  | some m => pure m
  | none => .error a.invalid

end WorldPlugins.Attr
