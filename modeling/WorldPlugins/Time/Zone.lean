import WorldPlugins.Time.Clock

/-! # Time zones

A zone is an offset from universal time, with the instants at which it changes.  Its clocks may skip a time or
show it twice; `Zone.instants` lists all instants at which they show a given time.
-/

namespace WorldPlugins.Time

/-- A time zone: its offset before all changes, and its changes in ascending order, each the instant from which
a new offset holds.  Offsets are seconds to the east. -/
structure Zone where
  name : String
  offset : Int
  changes : List (Int × Int)
  deriving DecidableEq, Repr

namespace Zone

/-- The offset in force at an instant, given the offset before these changes. -/
def offsetAfter (instant : Int) : (offset : Int) → List (Int × Int) → Int
  | offset, [] => offset
  | offset, (start, next) :: changes =>
    if instant < start then offset else offsetAfter instant next changes

def offsetAt (z : Zone) (instant : Int) : Int := offsetAfter instant z.offset z.changes

def wallClock (z : Zone) (instant : Int) : WallClock := .ofSeconds (instant + z.offsetAt instant)

/-- Whether an instant is not before the last change, if there was one. -/
def notBefore (since : Option Int) (instant : Int) : Bool := since.all (· ≤ instant)

/-- The instants at which clocks show `shown` seconds, from the change `since` on. -/
def instantsFrom (shown : Int) : (since : Option Int) → (offset : Int) → List (Int × Int) → List Int
  | since, offset, [] => if notBefore since (shown - offset) then [shown - offset] else []
  | since, offset, (start, next) :: changes =>
    let instant := shown - offset
    let later := instantsFrom shown (some start) next changes
    if notBefore since instant && instant < start then instant :: later else later

/-- The instants at which the clocks of a zone show `shown` seconds, in ascending order. -/
def instants (z : Zone) (shown : Int) : List Int := instantsFrom shown none z.offset z.changes

end Zone

end WorldPlugins.Time
