import WorldPlugins.Time.Zone

/-! # The zones known by name

Zones with a fixed offset, and zones that change their clocks twice a year by a rule on Sundays.  A zone has its changes
from the year its rule began.  The table is one choice of zone data; what handlers do is stated for any.
-/

namespace WorldPlugins.Time

/-- The first Sunday on or after a day of a month, as a number of days. -/
def sundayFrom (year : Int) (month day : Nat) : Int :=
  let start := Date.toDays ⟨year, month, day⟩
  start + (3 - start) % 7

def lastSunday (year : Int) (month : Nat) : Int := sundayFrom year month (monthLength year month - 6)

def secondOf (days : Int) (hour minute : Int) : Int := days * 86400 + hour * 3600 + minute * 60

/-- The changes of the years from `first` on. -/
def yearly (first count : Nat) (changes : Int → List (Int × Int)) : List (Int × Int) :=
  (List.range count).flatMap fun n => changes ((first + n : Nat) : Int)

namespace Zone

/-- A zone that never changes, `hours` and `minutes` to the east. -/
def fixed (name : String) (hours minutes : Int) : Zone := ⟨name, hours * 3600 + minutes * 60, []⟩

def utc : Zone := fixed "UTC" 0 0

/-- Five hours west, four from the second Sunday of March to the first of November, at two o'clock. -/
def eastern (name : String) : Zone :=
  ⟨name, -18000, yearly 2007 31 fun year =>
    [(secondOf (sundayFrom year 3 8) 7 0, -14400), (secondOf (sundayFrom year 11 1) 6 0, -18000)]⟩

/-- Universal time, one hour east from the last Sunday of March to that of October, at one o'clock. -/
def london : Zone :=
  ⟨"Europe/London", 0, yearly 1996 42 fun year =>
    [(secondOf (lastSunday year 3) 1 0, 3600), (secondOf (lastSunday year 10) 1 0, 0)]⟩

/-- Eleven hours east, ten and a half from the first Sunday of April to that of October, at two o'clock. -/
def lordHowe : Zone :=
  ⟨"Australia/Lord_Howe", 39600, yearly 2008 30 fun year =>
    [(secondOf (sundayFrom year 4 1 - 1) 15 0, 37800),
      (secondOf (sundayFrom year 10 1 - 1) 15 30, 39600)]⟩

/-- Ten hours west before the thirtieth of December 2011, which was left out, and fourteen east from then on. -/
def apia : Zone := ⟨"Pacific/Apia", -36000, [(secondOf (Date.toDays ⟨2011, 12, 30⟩) 10 0, 50400)]⟩

/-- Five and a half hours east, and five and three quarters since 1986. -/
def kathmandu : Zone := ⟨"Asia/Kathmandu", 19800, [(504901800, 20700)]⟩

def known : List Zone :=
  [utc, fixed "Etc/UTC" 0 0, fixed "Zulu" 0 0, fixed "GMT" 0 0, fixed "Asia/Tokyo" 9 0,
    fixed "Japan" 9 0, fixed "Asia/Kolkata" 5 30, kathmandu, fixed "Etc/GMT+5" (-5) 0,
    fixed "Etc/GMT-14" 14 0, fixed "EST" (-5) 0, eastern "EST5EDT", eastern "US/Eastern",
    eastern "America/New_York", london, lordHowe, apia]

end Zone

/-- Which zones there are, by their names. -/
class ZoneData where
  find? : String → Option Zone

/-- The zones of the table. -/
instance : ZoneData := ⟨fun name => Zone.known.find? fun z => z.name == name⟩

/-- The zone of this name, and universal time if there is none. -/
def Zone.ofName [ZoneData] (name : String) : Zone := (ZoneData.find? name).getD .utc

end WorldPlugins.Time
