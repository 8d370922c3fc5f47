import Reckoner.Binary64.Checked
import Reckoner.Function.Basic

/-!
# Functions on numbers and vectors
-/

namespace Reckoner.Function

/-! ### Element by element -/

/-- Applies a function of numbers to a number or to each element of a vector. -/
def mapNumbers (name : String) (f : Complex → Complex) : Value → Except RuntimeError Value
  | .scalar z => .ok (.scalar (f z))
  | .realVector xs => .ok (.ofElements (xs.map fun x => f (.ofReal x)))
  | .complexVector zs => .ok (.ofElements (zs.map f))
  | v => .error (.type s!"{name} expects a number or vector, found {v.tag.name}")

/-- A function of numbers that works element by element on vectors. -/
def elementwise (name description : String) (f : Complex → Complex) : Function :=
  unary name description (mapNumbers name f)

/-- Rounds both parts of a number. -/
def onParts (f : Float → Float) (z : Complex) : Complex :=
  ⟨f z.re, f z.im⟩

/-- The sign of a real number; the direction of a complex one. -/
def sign (z : Complex) : Complex :=
  if z.isZero then .zero
  else if z.isReal then .ofReal (Binary64.signum z.re)
  else ⟨z.re / z.abs, z.im / z.abs⟩

/-- The logarithm to a base. -/
def log (x base : Value) : Except RuntimeError Value := do
  let b := (← base.toComplex).ln
  if b.isZero then .error (.invalidArgument "log base must not be 1")
  else mapNumbers "log" (fun z => z.ln / b) x

/-- Fails unless a condition holds. -/
def check (condition : Value) : Except RuntimeError Value := do
  if ← condition.isTruthy then .ok (.ofBool true)
  else .error (.invalidArgument "check failed")

/-! ### Over all arguments -/

/-- The elements of all arguments, of which there has to be one. -/
def flatten (name : String) (args : List Value) : Except RuntimeError (List Complex) := do
  let elements := (← args.mapM Value.elements).flatten
  if elements.isEmpty then .error (.invalidArgument s!"{name} needs at least one value")
  else .ok elements

/-- The elements of all arguments as real numbers. -/
def flattenReal (name : String) (args : List Value) : Except RuntimeError (List Float) := do
  (← flatten name args).mapM fun z =>
    if z.isReal then .ok z.re
    else .error (.type s!"{name} cannot order complex number {z.render}")

/-- The least of real numbers. -/
def min (args : List Value) : Except RuntimeError Value := do
  return .ofReal ((← flattenReal "min" args).foldl Binary64.lesser Binary64.infinity)

/-- The greatest of real numbers. -/
def max (args : List Value) : Except RuntimeError Value := do
  return .ofReal ((← flattenReal "max" args).foldl Binary64.greater (-Binary64.infinity))

/-- The sum of numbers, from left to right. -/
def total (zs : List Complex) : Complex :=
  zs.foldl (· + ·) .zero

/-- The sum of all elements. -/
def sum (args : List Value) : Except RuntimeError Value := do
  return .scalar (total (← flatten "sum" args))

/-- The sum of all elements, divided by their number. -/
def mean (args : List Value) : Except RuntimeError Value := do
  let elements ← flatten "mean" args
  let count ← Binary64.ofIntChecked elements.length
  return .scalar (total elements / .ofReal count)

/-! ### On vectors -/

/-- The number of elements of a vector; a number counts as one. -/
def len : Value → Except RuntimeError Value
  | .scalar _ => count 1
  | .realVector xs => count xs.length
  | .complexVector zs => count zs.length
  | v => .error (.type s!"len expects a vector, found {v.tag.name}")
where
  count (n : Nat) : Except RuntimeError Value :=
    (Binary64.ofIntChecked n).map .ofReal

/-- The sum of the products of matching elements. -/
def dot (x y : Value) : Except RuntimeError Value := do
  let zs ← x.elements
  let ws ← y.elements
  if zs.length = ws.length then
    return .scalar ((zs.zip ws).foldl (fun acc (z, w) => acc + z * w) .zero)
  else
    .error (.invalidArgument
      s!"dot needs vectors of equal length, found {zs.length} and {ws.length}")

/-- The square root of the sum of the squared lengths. The empty sum is the negative zero. -/
def norm (x : Value) : Except RuntimeError Value := do
  let squares := (← x.elements).map fun z => Binary64.fusedMulAdd z.re z.re (z.im * z.im)
  return .ofReal (squares.foldl (· + ·) (-0)).sqrt

/-- The functions on numbers and vectors. -/
def numeric : List Function :=
  [elementwise "abs" "Magnitude of a number" fun z => .ofReal z.abs,
    elementwise "sqrt" "Principal square root" .sqrt,
    elementwise "exp" "e raised to x" .exp,
    elementwise "ln" "Natural logarithm" .ln,
    binary "log" "Logarithm of x to a base" log,
    elementwise "sin" "Sine" .sin,
    elementwise "cos" "Cosine" .cos,
    elementwise "tan" "Tangent" .tan,
    elementwise "sinh" "Hyperbolic sine" .sinh,
    elementwise "cosh" "Hyperbolic cosine" .cosh,
    elementwise "tanh" "Hyperbolic tangent" .tanh,
    elementwise "floor" "Round down" (onParts Binary64.floor),
    elementwise "ceil" "Round up" (onParts Binary64.ceil),
    elementwise "round" "Round half away from zero" (onParts Binary64.round),
    elementwise "sign" "Sign, or unit vector for complex" sign,
    elementwise "re" "Real part" fun z => .ofReal z.re,
    elementwise "im" "Imaginary part" fun z => .ofReal z.im,
    elementwise "conj" "Complex conjugate" .conj,
    elementwise "arg" "Phase angle" fun z => .ofReal z.arg,
    unary "check" "Fails unless the condition holds" check,
    variadic "min" "Smallest of the arguments" min,
    variadic "max" "Largest of the arguments" max,
    variadic "sum" "Sum of the arguments" sum,
    variadic "mean" "Arithmetic mean of the arguments" mean,
    unary "len" "Number of vector elements" len,
    binary "dot" "Dot product" dot,
    unary "norm" "Euclidean norm" norm]

end Reckoner.Function
