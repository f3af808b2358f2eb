import WorldPlugins.Text.Integer
import WorldPlugins.Time.Date

/-! # Wall clocks

A date with a time of day, as shown on a wall.  Second 60 is a leap second: it is shown as such and counts as
the second before it.
-/

namespace WorldPlugins.Time

/-- A date and time of day, without a zone. -/
structure WallClock where
  date : Date
  hour : Nat
  minute : Nat
  second : Nat
  deriving DecidableEq, Repr, Inhabited

namespace WallClock

/-- Whether there is such a time. -/
def isValid (w : WallClock) : Bool :=
  w.date.isValid && w.hour < 24 && w.minute < 60 && w.second ≤ 60

/-- The seconds from the start of 1970 on the same clock. -/
def toSeconds (w : WallClock) : Int :=
  w.date.toDays * 86400 + ((w.hour * 3600 + w.minute * 60 + min w.second 59 : Nat) : Int)

/-- The time a number of seconds after the start of 1970 on the same clock. -/
def ofSeconds (seconds : Int) : WallClock :=
  let rest := (seconds % 86400).toNat
  ⟨.ofDays (seconds / 86400), rest / 3600, rest / 60 % 60, rest % 60⟩

def inLeapSecond (w : WallClock) : WallClock := { w with second := w.second + 1 }

end WallClock

/-- The English short name of a month. -/
def monthName : Nat → String
  | 1 => "Jan"
  | 2 => "Feb"
  | 3 => "Mar"
  | 4 => "Apr"
  | 5 => "May"
  | 6 => "Jun"
  | 7 => "Jul"
  | 8 => "Aug"
  | 9 => "Sep"
  | 10 => "Oct"
  | 11 => "Nov"
  | _ => "Dec"

/-- A number with zeros before it up to a width. -/
def padded (width n : Nat) : String :=
  let digits := Text.natural n
  String.ofList (List.replicate (width - digits.length) '0' ++ digits)

/-- A year of four digits, with a sign if it is none of these. -/
def showYear (year : Int) : String :=
  if 0 ≤ year ∧ year ≤ 9999 then padded 4 year.toNat
  else (if year < 0 then "-" else "+") ++ padded 4 year.natAbs

def hourOfTwelve (hour : Nat) : Nat := if hour % 12 = 0 then 12 else hour % 12

/-- A time in words, as in `Jan 2, 2006 3:04:05 PM`. -/
def WallClock.display (w : WallClock) : String :=
  monthName w.date.month ++ " " ++ Text.showNatural w.date.day ++ ", " ++ showYear w.date.year ++ " " ++
    Text.showNatural (hourOfTwelve w.hour) ++ ":" ++ padded 2 w.minute ++ ":" ++ padded 2 w.second ++
    (if w.hour < 12 then " AM" else " PM")

end WorldPlugins.Time
