/-!
# The calendar

The Gregorian calendar, extended to all years, as two views of a day: year, month and day of the
month, and the number of days since the first day of the year one.
-/

namespace Reckoner

/-- A day by year, month and day of the month; the year before the year one is the year zero. -/
structure Date where
  year : Int
  month : Nat
  day : Nat
  deriving Repr, DecidableEq

namespace Calendar

/-- Whether a year has a leap day. -/
def isLeap (year : Int) : Bool :=
  year % 4 == 0 && (year % 100 != 0 || year % 400 == 0)

/-- The lengths of the twelve months of a year. -/
def monthLengths (year : Int) : List Nat :=
  [31, if isLeap year then 29 else 28, 31, 30, 31, 30, 31, 31, 30, 31, 30, 31]

/-- The number of days from the first day of the year one to the first day of a year. -/
def daysBeforeYear (year : Int) : Int :=
  let y := year - 1
  365 * y + y / 4 - y / 100 + y / 400

/-- The number of days of a year before a month. -/
def daysBeforeMonth (year : Int) (month : Nat) : Nat :=
  ((monthLengths year).take (month - 1)).foldl (· + ·) 0

/-- The year in which the day of the given number lies. The mean length of a year tells it up to one
year. -/
def yearOfDay (n : Int) : Int :=
  let guess := 400 * n / 146097 + 1
  if n < daysBeforeYear guess then guess - 1
  else if daysBeforeYear (guess + 1) ≤ n then guess + 1
  else guess

/-- The month, counted from `month`, and the day of the month of a day of the year, counted from
zero. -/
def monthOfDay : List Nat → Nat → Nat → Nat × Nat
  | [], month, n => (month, n + 1)
  | length :: rest, month, n =>
    if n < length then (month, n + 1) else monthOfDay rest (month + 1) (n - length)

end Calendar

namespace Date

open Calendar

/-- Whether the day is in the calendar. -/
def isValid (d : Date) : Bool :=
  1 ≤ d.month && 1 ≤ d.day
    && match (monthLengths d.year)[d.month - 1]? with
      | some length => d.day ≤ length
      | none => false

/-- The number of a day: zero for the first day of the year one. -/
def number (d : Date) : Int :=
  daysBeforeYear d.year + daysBeforeMonth d.year d.month + d.day - 1

/-- The day of a number. -/
def ofNumber (n : Int) : Date :=
  let year := yearOfDay n
  let (month, day) := monthOfDay (monthLengths year) 1 (n - daysBeforeYear year).toNat
  { year, month, day }

/-- The day of the week of a day number, with one for Monday. -/
def weekday (n : Int) : Int :=
  n % 7 + 1

end Date

end Reckoner
