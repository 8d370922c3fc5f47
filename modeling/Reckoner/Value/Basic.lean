import Reckoner.Complex
import Reckoner.Error
import Reckoner.Moment
import Reckoner.Text.Blank

/-!
# Values

The values of the language. A vector with only real elements is kept as a real vector; operators see
it widened to a complex one.
-/

namespace Reckoner

/-- A value of the language. -/
inductive Value where
  | scalar (z : Complex)
  | realVector (xs : List Float)
  | complexVector (zs : List Complex)
  | text (s : String)
  | date (m : Moment)
  deriving DecidableEq

namespace Value

/-- A real number. -/
def ofReal (x : Float) : Value :=
  .scalar (.ofReal x)

/-- Truth values are the numbers one and zero. -/
def ofBool (b : Bool) : Value :=
  ofReal (if b then 1 else 0)

/-- A vector of the given elements, real if all of them are. -/
def ofElements (zs : List Complex) : Value :=
  if zs.all Complex.isReal then .realVector (zs.map Complex.re) else .complexVector zs

/-- The kind of a value. -/
def tag : Value → Tag
  | .scalar _ => .scalar
  | .realVector _ => .realVector
  | .complexVector _ => .complexVector
  | .text _ => .text
  | .date _ => .date

/-- A value as operators see it: a real vector becomes a complex one. -/
def widened : Value → Value
  | .realVector xs => .complexVector (xs.map Complex.ofReal)
  | v => v

/-- Whether a value is a real number. -/
def isReal : Value → Bool
  | .scalar z => z.isReal
  | _ => false

/-- Equality of two values of one kind. Numbers are compared by their parts, and only in complex
numbers is `nan` equal to itself. -/
def same : Value → Value → Bool
  | .scalar z, .scalar w => z.same w
  | .realVector xs, .realVector ys => xs.length == ys.length && (xs.zip ys).all fun (x, y) => x == y
  | .complexVector zs, .complexVector ws =>
    zs.length == ws.length && (zs.zip ws).all fun (z, w) => z.same w
  | .text s, .text t => s == t
  | .date a, .date b => a.millis == b.millis
  | _, _ => false

/-! ### Text -/

/-- Elements in brackets, with a comma between neighbours. -/
def listText (items : List (List Char)) : List Char :=
  '[' :: Text.join [',', ' '] items ++ [']']

/-- The text of a value. -/
def write : Value → List Char
  | .scalar z => z.write
  | .realVector xs => listText (xs.map fun x => (Complex.ofReal x).write)
  | .complexVector zs => listText (zs.map Complex.write)
  | .text s => s.toList
  | .date m => m.write

/-- The text of a value as a string. -/
def render (v : Value) : String :=
  String.ofList v.write

/-! ### Reading a value as one of a kind -/

/-- The number that a scalar is. -/
def toComplex : Value → Except RuntimeError Complex
  | .scalar z => .ok z
  | v => .error (.type s!"expected a scalar, found {v.tag.name}")

/-- The real number that a value is. -/
def toReal (v : Value) : Except RuntimeError Float := do
  let z ← v.toComplex
  if z.isReal then .ok z.re else .error (.type s!"expected a real number, found {z.render}")

/-- The text that a value is. -/
def toText : Value → Except RuntimeError String
  | .text s => .ok s
  | v => .error (.type s!"expected a string, found {v.tag.name}")

/-- The moment that a value is. -/
def toMoment : Value → Except RuntimeError Moment
  | .date m => .ok m
  | v => .error (.type s!"expected a date, found {v.tag.name}")

/-- The elements of a vector, or the one element that a scalar is. -/
def elements : Value → Except RuntimeError (List Complex)
  | .scalar z => .ok [z]
  | .realVector xs => .ok (xs.map Complex.ofReal)
  | .complexVector zs => .ok zs
  | v => .error (.type s!"expected a number or vector, found {v.tag.name}")

/-- Whether a value, used as a condition, holds: a number does unless it is zero. -/
def isTruthy : Value → Except RuntimeError Bool
  | .scalar z => .ok !z.isZero
  | v => .error (.type s!"a {v.tag.name} cannot be used as a condition")

end Value

end Reckoner
