/-!
# Moments

The moment at which something was recorded, and the three forms in which it is
written: a date for file names, a stamp for people, and a timestamp for records.
-/

namespace TapeLab

/-- A moment of the universal clock, to the microsecond. -/
structure Moment where
  year : Nat
  month : Nat
  day : Nat
  hour : Nat := 0
  minute : Nat := 0
  second : Nat := 0
  microsecond : Nat := 0
  deriving DecidableEq, Repr

namespace Moment

/-- A number with zeros in front up to a width. -/
def padded (width number : Nat) : String :=
  let digits := Nat.toDigits 10 number
  String.ofList (List.replicate (width - digits.length) '0' ++ digits)

/-- The date in file names; its year is not padded. -/
def date (moment : Moment) : String :=
  toString moment.year ++ "-" ++ padded 2 moment.month ++ "-" ++ padded 2 moment.day

/-- The time of day; a whole second has no fraction. -/
def time (moment : Moment) : String :=
  let whole := padded 2 moment.hour ++ ":" ++ padded 2 moment.minute ++ ":" ++
    padded 2 moment.second
  if moment.microsecond == 0 then whole else whole ++ "." ++ padded 6 moment.microsecond

/-- Date and time with something between them; here the year has four digits. -/
def dateTime (between : String) (moment : Moment) : String :=
  padded 4 moment.year ++ "-" ++ padded 2 moment.month ++ "-" ++ padded 2 moment.day ++
    between ++ moment.time

/-- The form for people. -/
def stamp (moment : Moment) : String :=
  moment.dateTime " "

/-- The form in records, which names the time zone. -/
def timestamp (moment : Moment) : String :=
  moment.dateTime "T" ++ "+00:00"

/-- The date that comes so many days after the first of March of the year zero.  In
years that begin in March the leap day is the last day of all, and every five months
from the first have the same length. -/
def ofDays (days : Nat) : Moment :=
  let cycle := days / 146097
  let dayOfCycle := days % 146097
  let yearOfCycle :=
    (dayOfCycle - dayOfCycle / 1460 + dayOfCycle / 36524 - dayOfCycle / 146096) / 365
  let dayOfYear := dayOfCycle - (365 * yearOfCycle + yearOfCycle / 4 - yearOfCycle / 100)
  let monthFromMarch := (5 * dayOfYear + 2) / 153
  let year := 400 * cycle + yearOfCycle
  { year := if monthFromMarch < 10 then year else year + 1
    month := if monthFromMarch < 10 then monthFromMarch + 3 else monthFromMarch - 9
    day := dayOfYear - (153 * monthFromMarch + 2) / 5 + 1 }

/-- The number of days from the first of March of the year zero to the beginning of
the year 1970. -/
def epochDay : Nat := 719468

/-- The moment so many microseconds after the beginning of the year 1970. -/
def ofMicroseconds (count : Nat) : Moment :=
  let seconds := count / 1000000
  { ofDays (epochDay + seconds / 86400) with
    hour := seconds % 86400 / 3600
    minute := seconds % 3600 / 60
    second := seconds % 60
    microsecond := count % 1000000 }

end Moment

end TapeLab
