import Reckoner.Operator.Scalar

/-!
# Operators on dates

Dates are ordered, differ by a number of days and can be shifted by one, whole or not.
-/

namespace Reckoner.Operator

/-- Compares two moments. -/
def compareMoments (op : BinaryOperator) (a b : Moment) : Except RuntimeError Value :=
  match op with
  | .equal => .ok (.ofBool (a.millis = b.millis))
  | .notEqual => .ok (.ofBool (a.millis ≠ b.millis))
  | .less => .ok (.ofBool (a.millis < b.millis))
  | .greater => .ok (.ofBool (b.millis < a.millis))
  | .lessEqual => .ok (.ofBool (a.millis ≤ b.millis))
  | .greaterEqual => .ok (.ofBool (b.millis ≤ a.millis))
  | op => .error (.type s!"'{op.symbol}' is not a comparison")

/-- The milliseconds of a day as a number. -/
def dayLength : Float := 86400000

/-- The days from `b` to `a`. -/
def daysBetween (a b : Moment) : Except RuntimeError Float :=
  (Binary64.ofIntChecked (a.millis - b.millis)).map (· / dayLength)

/-- The moment so many days later, to the nearest millisecond. -/
def shiftDays (m : Moment) (days : Float) : Except RuntimeError Moment := do
  let millis ← Binary64.toIntChecked (Binary64.round (days * dayLength))
  match m.shift? millis with
  | some shifted => .ok shifted
  | none => .error (.outOfRange days)

end Reckoner.Operator
