/-! # Calendar dates

The Gregorian calendar, extended to all years, and its count of days: day 0 is 1 January 1970.
-/

namespace WorldPlugins.Time

/-- A day of the calendar; the year before year 1 is year 0. -/
structure Date where
  year : Int
  month : Nat
  day : Nat
  deriving DecidableEq, Repr, Inhabited

def isLeapYear (year : Int) : Bool := year % 4 = 0 && (year % 100 ≠ 0 || year % 400 = 0)

def monthLengths (year : Int) : List Nat :=
  [31, if isLeapYear year then 29 else 28, 31, 30, 31, 30, 31, 31, 30, 31, 30, 31]

/-- The length of a month, 0 if there is no such month. -/
def monthLength (year : Int) (month : Nat) : Nat :=
  match month with
  | 0 => 0
  | m + 1 => (monthLengths year).getD m 0

/-- The number of days before a year, counted from the last day of the year before year 0. -/
def daysBeforeYear (year : Int) : Int :=
  365 * year + (year - 1) / 4 - (year - 1) / 100 + (year - 1) / 400

def epochDays : Int := 719527

namespace Date

/-- Whether there is such a day in a year that can be written. -/
def isValid (d : Date) : Bool :=
  -262143 ≤ d.year && d.year ≤ 262142 && 1 ≤ d.day && d.day ≤ monthLength d.year d.month

/-- The number of a day, day 0 being 1 January 1970. -/
def toDays (d : Date) : Int :=
  let before : Nat := ((monthLengths d.year).take (d.month - 1)).foldr (· + ·) 0
  daysBeforeYear d.year - epochDays + (before : Int) + ((d.day : Int) - 1)

/-- The year of a day, given by the days before it counted as for `daysBeforeYear`. -/
def yearOf (days : Int) : Int :=
  let guess := days * 400 / 146097
  if days < daysBeforeYear guess then guess - 1
  else if daysBeforeYear (guess + 1) ≤ days then guess + 1
  else guess

/-- The month and day that are `rest` days after the start of a month, given the lengths from that month on. -/
def locate : (lengths : List Nat) → (month rest : Nat) → Nat × Nat
  | [], month, rest => (month, rest + 1)
  | length :: lengths, month, rest =>
    if rest < length then (month, rest + 1) else locate lengths (month + 1) (rest - length)

/-- The day with this number. -/
def ofDays (n : Int) : Date :=
  let days := n + epochDays
  let year := yearOf days
  let (month, day) := locate (monthLengths year) 1 (days - daysBeforeYear year).toNat
  ⟨year, month, day⟩

end Date

end WorldPlugins.Time
