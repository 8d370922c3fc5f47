import Reckoner.Function.Basic
import Reckoner.Operator.Date

/-!
# Functions on dates
-/

namespace Reckoner.Function

/-- The calendar day of a year, a month and a day of the month. -/
def calendarDay (year month day : Value) : Except RuntimeError Date := do
  let y ← Binary64.toSigned32 (← year.toReal)
  let m ← Binary64.toUnsigned32 (← month.toReal)
  let d ← Binary64.toUnsigned32 (← day.toReal)
  let date : Date := ⟨y, m, d⟩
  if (Moment.ofFields? date ⟨0, 0, 0, 0⟩).isSome then .ok date
  else .error (.invalidArgument s!"{y}-{m}-{d} is not a calendar date")

/-- The time of day of an hour, a minute and a second. -/
def timeOfDay (hour minute second : Value) : Except RuntimeError TimeOfDay := do
  let h ← Binary64.toUnsigned32 (← hour.toReal)
  let m ← Binary64.toUnsigned32 (← minute.toReal)
  let s ← Binary64.toUnsigned32 (← second.toReal)
  let time : TimeOfDay := ⟨h, m, s, 0⟩
  if time.isValid then .ok time
  else .error (.invalidArgument s!"{h}:{m}:{s} is not a time of day")

/-- The value of a date and a time of day that have been checked. -/
def momentValue (d : Date) (t : TimeOfDay) : Except RuntimeError Value :=
  match Moment.ofFields? d t with
  | some m => .ok (.date m)
  | none => .error (.invalidArgument s!"{d.year}-{d.month}-{d.day} is not a calendar date")

/-- The midnight at which a day begins. -/
def date : List Value → Except RuntimeError Value
  | [year, month, day] => do
    momentValue (← calendarDay year month day) ⟨0, 0, 0, 0⟩
  | args => .error (countError "date" 3 args)

/-- A time of a day. The day is looked at before the time. -/
def datetime : List Value → Except RuntimeError Value
  | [year, month, day, hour, minute, second] => do
    let d ← calendarDay year month day
    momentValue d (← timeOfDay hour minute second)
  | args => .error (countError "datetime" 6 args)

/-- A number read off a moment. -/
def field (f : Moment → Int) (v : Value) : Except RuntimeError Value := do
  return .ofReal (Binary64.ofInt (f (← v.toMoment)))

/-- The days from the first date to the second. -/
def days (first second : Value) : Except RuntimeError Value := do
  let a ← first.toMoment
  let b ← second.toMoment
  return .ofReal (← Operator.daysBetween b a)

/-- The functions on dates. -/
def onDates : List Function :=
  [ofPure "date" (.exactly 3) "Date from year, month, day" date,
    ofPure "datetime" (.exactly 6) "Date and time of day" datetime,
    unary "year" "Calendar year" (field fun m => m.date.year),
    unary "month" "Month, 1 to 12" (field fun m => m.date.month),
    unary "day" "Day of the month" (field fun m => m.date.day),
    unary "weekday" "ISO weekday, Monday is 1" (field fun m => Date.weekday m.dayNumber),
    binary "days" "Days from the first date to the second" days]

end Reckoner.Function
