import Reckoner.Calendar
import Reckoner.Decimal.Text

/-!
# Moments

A moment is a date with a time of day, to the millisecond. It is kept as one count of milliseconds,
so that shifting and comparing are integer arithmetic; the calendar fields are computed from it.
-/

namespace Reckoner

/-- A time of day. -/
structure TimeOfDay where
  hour : Nat
  minute : Nat
  second : Nat
  milli : Nat := 0
  deriving Repr, DecidableEq

namespace TimeOfDay

/-- Whether the fields name a time of day. -/
def isValid (t : TimeOfDay) : Bool :=
  t.hour < 24 && t.minute < 60 && t.second < 60 && t.milli < 1000

/-- The milliseconds since midnight. -/
def millis (t : TimeOfDay) : Nat :=
  ((t.hour * 60 + t.minute) * 60 + t.second) * 1000 + t.milli

/-- The time of day after so many milliseconds since midnight. -/
def ofMillis (n : Nat) : TimeOfDay :=
  { hour := n / 3600000, minute := n / 60000 % 60, second := n / 1000 % 60, milli := n % 1000 }

end TimeOfDay

/-- The milliseconds of a day. -/
def millisPerDay : Int := 86400000

/-- The first year of the calendar that moments use. -/
def firstYear : Int := -262143

/-- The last year of the calendar that moments use. -/
def lastYear : Int := 262142

/-- A date with a time of day, as the milliseconds since the start of the year one. -/
structure Moment where
  millis : Int
  /-- It is not before the first year. -/
  first_le : Calendar.daysBeforeYear firstYear * millisPerDay ≤ millis
  /-- It is not after the last year. -/
  lt_last : millis < Calendar.daysBeforeYear (lastYear + 1) * millisPerDay
  deriving DecidableEq

namespace Moment

/-- The moment of a count of milliseconds, if the calendar reaches so far. -/
def ofMillis? (n : Int) : Option Moment :=
  if h : Calendar.daysBeforeYear firstYear * millisPerDay ≤ n
      ∧ n < Calendar.daysBeforeYear (lastYear + 1) * millisPerDay then
    some ⟨n, h.1, h.2⟩
  else none

/-- The moment of a date and a time of day, if they are one. -/
def ofFields? (d : Date) (t : TimeOfDay) : Option Moment :=
  if d.isValid && t.isValid then ofMillis? (d.number * millisPerDay + t.millis) else none

/-- The number of the day. -/
def dayNumber (m : Moment) : Int :=
  m.millis / millisPerDay

/-- The date. -/
def date (m : Moment) : Date :=
  Date.ofNumber m.dayNumber

/-- The time of day. -/
def time (m : Moment) : TimeOfDay :=
  TimeOfDay.ofMillis (m.millis % millisPerDay).toNat

/-- The moment so many milliseconds later. -/
def shift? (m : Moment) (n : Int) : Option Moment :=
  ofMillis? (m.millis + n)

/-! ### Text -/

/-- A natural number with zeros before it up to a width. -/
def padded (width n : Nat) : List Char :=
  let digits := Decimal.natText n
  List.replicate (width - digits.length) '0' ++ digits

/-- A year: four digits, with a sign before all but the years 0 to 9999. -/
def yearText (year : Int) : List Char :=
  if 0 ≤ year ∧ year ≤ 9999 then padded 4 year.toNat
  else (if year < 0 then '-' else '+') :: padded 4 year.natAbs

/-- A date as year, month and day. -/
def dateText (d : Date) : List Char :=
  yearText d.year ++ '-' :: padded 2 d.month ++ '-' :: padded 2 d.day

/-- A time of day; milliseconds are written only if there are any. -/
def timeText (t : TimeOfDay) : List Char :=
  padded 2 t.hour ++ ':' :: padded 2 t.minute ++ ':' :: padded 2 t.second
    ++ (if t.milli = 0 then [] else '.' :: padded 3 t.milli)

/-- The date and the time of day. -/
def writeFull (m : Moment) : List Char :=
  dateText m.date ++ ' ' :: timeText m.time

/-- The date, followed by the time of day unless it is midnight. -/
def write (m : Moment) : List Char :=
  if m.millis % millisPerDay = 0 then dateText m.date else m.writeFull

end Moment

end Reckoner
