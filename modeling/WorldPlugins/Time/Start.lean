import WorldPlugins.Text.Blank
import WorldPlugins.Time.Moment

/-! # Start times as players write them

An instant with its own offset, as in `2020-09-13T12:26:40Z`, or a wall clock time in the player's zone in one of
a few layouts; a date alone means midnight.  A wall clock time that the zone skips is no start time, and one that
it shows twice means the earlier instant.
-/

namespace WorldPlugins.Time

/-- The part of a wall clock time that a number gives. -/
inductive Part
  | year
  | month
  | day
  | hour
  | minute
  | second
  deriving DecidableEq, Repr

/-- One piece of a layout. -/
inductive Piece
  | number (part : Part)
  /-- The character itself. -/
  | mark (c : Char)
  /-- Any amount of blanks. -/
  | gap
  deriving DecidableEq, Repr

/-- Up to `most` digits at the head of a text, and the rest. -/
def leadingDigits : (most : Nat) → List Char → List Char × List Char
  | 0, cs => ([], cs)
  | _, [] => ([], [])
  | most + 1, c :: cs =>
    if c.isDigit then
      let (digits, rest) := leadingDigits most cs
      (c :: digits, rest)
    else ([], c :: cs)

/-- A number of one to `most` digits at the head of a text, and the rest. -/
def leadingNumber (most : Nat) (cs : List Char) : Option (Nat × List Char) :=
  let (digits, rest) := leadingDigits most cs
  (Text.natural? digits).map (·, rest)

/-- A number of exactly `count` digits at the head of a text, and the rest. -/
def exactNumber (count : Nat) (cs : List Char) : Option (Nat × List Char) :=
  let (digits, rest) := leadingDigits count cs
  if digits.length = count then (Text.natural? digits).map (·, rest) else none

/-- A year: up to four digits, or a sign and any number of them. -/
def leadingYear : List Char → Option (Int × List Char)
  | '-' :: cs => (leadingNumber cs.length cs).map fun (n, rest) => (-(n : Int), rest)
  | '+' :: cs => (leadingNumber cs.length cs).map fun (n, rest) => ((n : Int), rest)
  | cs => (leadingNumber 4 cs).map fun (n, rest) => ((n : Int), rest)

/-- The time with one of its parts set. -/
def WallClock.set (w : WallClock) (n : Nat) : Part → WallClock
  | .year => { w with date := { w.date with year := n } }
  | .month => { w with date := { w.date with month := n } }
  | .day => { w with date := { w.date with day := n } }
  | .hour => { w with hour := n }
  | .minute => { w with minute := n }
  | .second => { w with second := n }

/-- Reads the head of a text by one piece of a layout. -/
def Piece.read (cs : List Char) (w : WallClock) : Piece → Option (WallClock × List Char)
  | .gap => some (w, Text.dropBlanks cs)
  | .mark c =>
    match cs with
    | d :: rest => if d = c then some (w, rest) else none
    | [] => none
  | .number .year =>
    (leadingYear (Text.dropBlanks cs)).map fun (year, rest) =>
      ({ w with date := { w.date with year } }, rest)
  | .number part => (leadingNumber 2 (Text.dropBlanks cs)).map fun (n, rest) => (w.set n part, rest)

def readPieces : List Piece → WallClock → List Char → Option WallClock
  | [], w, cs => if cs = [] then some w else none
  | piece :: pieces, w, cs => do
    let (w, rest) ← piece.read cs w
    readPieces pieces w rest

def dateLayout : List Piece :=
  [.number .year, .mark '-', .number .month, .mark '-', .number .day]

def minuteLayout : List Piece := [.number .hour, .mark ':', .number .minute]

def secondLayout : List Piece := minuteLayout ++ [.mark ':', .number .second]

/-- The layouts of a wall clock time, in the order in which they are tried. -/
def layouts : List (List Piece) :=
  [dateLayout ++ .gap :: secondLayout, dateLayout ++ .gap :: minuteLayout,
    dateLayout ++ .mark 'T' :: secondLayout, dateLayout ++ .mark 'T' :: minuteLayout, dateLayout]

def readLayout (cs : List Char) (layout : List Piece) : Option WallClock :=
  (readPieces layout ⟨⟨0, 0, 0⟩, 0, 0, 0⟩ cs).filter WallClock.isValid

def readWallClock (cs : List Char) : Option WallClock := layouts.findSome? (readLayout cs)

/-- The nanoseconds that a leap second is after the second that it counts as. -/
def WallClock.leapNanoseconds (w : WallClock) : Nat := if w.second = 60 then Moment.second else 0

/-- The first instant at which the clocks of a zone show a time. -/
def WallClock.toMoment? (w : WallClock) (z : Zone) : Option Moment :=
  ((z.instants w.toSeconds).filter isRepresentable).head?.map fun seconds => ⟨seconds, w.leapNanoseconds⟩

/-- Passes over one character of a set. -/
def oneOf (set : List Char) : List Char → Option (List Char)
  | c :: cs => if c ∈ set then some cs else none
  | [] => none

/-- An offset in seconds to the east: `Z`, or a sign, hours and minutes. -/
def readOffset : List Char → Option (Int × List Char)
  | [] => none
  | c :: cs =>
    if c = 'Z' ∨ c = 'z' then some (0, cs)
    else do
      let west ← if c = '+' then some false else if c = '-' ∨ c = '−' then some true else none
      let (hours, cs) ← exactNumber 2 cs
      let cs ← oneOf [':'] cs
      let (minutes, cs) ← exactNumber 2 cs
      if hours < 24 ∧ minutes < 60 then
        let seconds : Int := ((hours * 3600 + minutes * 60 : Nat) : Int)
        some (if west then -seconds else seconds, cs)
      else none

/-- The nanoseconds that digits after the point mean; those after the ninth make no difference. -/
def nanosecondsOf (digits : List Char) : Nat :=
  Nat.ofDigitChars 10 ((digits ++ List.replicate 9 '0').take 9) 0

/-- The fraction of a second, if there is one, in nanoseconds. -/
def readFraction : List Char → Option (Nat × List Char)
  | '.' :: cs =>
    let (digits, rest) := leadingDigits cs.length cs
    if digits = [] then none else some (nanosecondsOf digits, rest)
  | cs => some (0, cs)

/-- An instant written with its own offset, every field in full. -/
def readInstant (cs : List Char) : Option Moment := do
  let (year, cs) ← exactNumber 4 cs
  let cs ← oneOf ['-'] cs
  let (month, cs) ← exactNumber 2 cs
  let cs ← oneOf ['-'] cs
  let (day, cs) ← exactNumber 2 cs
  let cs ← oneOf ['T', 't', ' '] cs
  let (hour, cs) ← exactNumber 2 cs
  let cs ← oneOf [':'] cs
  let (minute, cs) ← exactNumber 2 cs
  let cs ← oneOf [':'] cs
  let (second, cs) ← exactNumber 2 cs
  let (fraction, cs) ← readFraction cs
  let (offset, cs) ← readOffset cs
  let w : WallClock := ⟨⟨(year : Int), month, day⟩, hour, minute, second⟩
  if cs = [] ∧ w.isValid then some ⟨w.toSeconds - offset, w.leapNanoseconds + fraction⟩ else none

/-- The start time that a player of this zone means by a text. -/
def readStart (text : String) (z : Zone) : Option Moment :=
  let cs := Text.trim text.toList
  match readInstant cs with
  | some m => some m
  | none => (readWallClock cs).bind fun w => w.toMoment? z

end WorldPlugins.Time
