import Reckoner.Binary64.Basic
import Reckoner.Decimal.Text

/-!
# Complex numbers

Every number of the language is a pair of doubles; a real one has a zero imaginary part. Products
and quotients fuse one multiplication with the addition after it.
-/

namespace Reckoner

open Binary64 (fusedMulAdd)

/-- A complex number by its real and imaginary part. -/
structure Complex where
  re : Float
  im : Float
  deriving Repr, DecidableEq

namespace Complex

/-- A real number. -/
def ofReal (x : Float) : Complex :=
  ⟨x, 0⟩

/-- Nought, with both parts positive zeros. -/
def zero : Complex := ⟨0, 0⟩

/-- The unit of multiplication. -/
def one : Complex := ⟨1, 0⟩

/-- The imaginary unit. -/
def i : Complex := ⟨0, 1⟩

instance : Inhabited Complex := ⟨zero⟩

/-- Whether the imaginary part is zero. -/
def isReal (z : Complex) : Bool :=
  z.im == 0

/-- Whether both parts are zero. -/
def isZero (z : Complex) : Bool :=
  z.re == 0 && z.im == 0

/-- Whether both parts are finite. -/
def isFinite (z : Complex) : Bool :=
  z.re.isFinite && z.im.isFinite

/-- Equality of the parts, where `nan` equals itself and the two zeros are equal. -/
def same (z w : Complex) : Bool :=
  Binary64.same z.re w.re && Binary64.same z.im w.im

/-! ### Arithmetic -/

/-- The opposite number; zeros change their signs too. -/
protected def neg (z : Complex) : Complex :=
  ⟨-z.re, -z.im⟩

/-- The sum, part by part. -/
protected def add (z w : Complex) : Complex :=
  ⟨z.re + w.re, z.im + w.im⟩

/-- The difference, part by part. -/
protected def sub (z w : Complex) : Complex :=
  ⟨z.re - w.re, z.im - w.im⟩

/-- The product. In each part the first of the two products is not rounded on its own. -/
protected def mul (z w : Complex) : Complex :=
  ⟨fusedMulAdd z.re w.re (-(z.im * w.im)), fusedMulAdd z.re w.im (z.im * w.re)⟩

/-- The quotient; two real numbers are divided as such. -/
protected def div (z w : Complex) : Complex :=
  if w.isReal && z.isReal then ofReal (z.re / w.re)
  else
    let d := fusedMulAdd w.re w.re (w.im * w.im)
    ⟨fusedMulAdd z.re w.re (z.im * w.im) / d, fusedMulAdd z.im w.re (-(z.re * w.im)) / d⟩

instance : Neg Complex := ⟨Complex.neg⟩
instance : Add Complex := ⟨Complex.add⟩
instance : Sub Complex := ⟨Complex.sub⟩
instance : Mul Complex := ⟨Complex.mul⟩
instance : Div Complex := ⟨Complex.div⟩

/-- The reflection in the real axis. -/
def conj (z : Complex) : Complex :=
  ⟨z.re, -z.im⟩

/-- The reciprocal, by the squared length. -/
def recip (z : Complex) : Complex :=
  let n := z.re * z.re + z.im * z.im
  ⟨z.re / n, -(z.im / n)⟩

/-- The distance from zero. -/
def abs (z : Complex) : Float :=
  Binary64.hypot z.re z.im

/-- The angle to the positive real axis. -/
def arg (z : Complex) : Float :=
  Float.atan2 z.im z.re

/-! ### Elementary functions -/

/-- The exponential, by length and angle. -/
def exp (z : Complex) : Complex :=
  let r := z.re.exp
  ⟨r * z.im.cos, r * z.im.sin⟩

/-- The principal logarithm. -/
def ln (z : Complex) : Complex :=
  ⟨z.abs.log, z.arg⟩

/-- The principal square root. -/
def sqrt (z : Complex) : Complex :=
  let r := Binary64.hypot z.re z.im
  ⟨(Binary64.midpoint r z.re).sqrt, Binary64.copySign ((r - z.re) / 2).sqrt z.im⟩

/-- The sine, by the sine and cosine of the real part. -/
def sin (z : Complex) : Complex :=
  ⟨z.re.sin * z.im.cosh, z.re.cos * z.im.sinh⟩

/-- The cosine, by the sine and cosine of the real part. -/
def cos (z : Complex) : Complex :=
  ⟨z.re.cos * z.im.cosh, -z.re.sin * z.im.sinh⟩

/-- The tangent, as a quotient. -/
def tan (z : Complex) : Complex :=
  z.sin / z.cos

/-- The hyperbolic sine, by the sine and cosine of the imaginary part. -/
def sinh (z : Complex) : Complex :=
  ⟨z.re.sinh * z.im.cos, z.re.cosh * z.im.sin⟩

/-- The hyperbolic cosine, by the sine and cosine of the imaginary part. -/
def cosh (z : Complex) : Complex :=
  ⟨z.re.cosh * z.im.cos, z.re.sinh * z.im.sin⟩

/-- The hyperbolic tangent, as a quotient. -/
def tanh (z : Complex) : Complex :=
  z.sinh / z.cosh

/-! ### Powers -/

/-- Multiplies `result` by `base ^ n` through repeated squaring. -/
def squaring (base result : Complex) (n : Nat) : Complex :=
  if h : n = 0 then result
  else
    have : n / 2 < n := Nat.div_lt_self (Nat.pos_of_ne_zero h) (by decide)
    squaring (base * base) (if n % 2 = 1 then result * base else result) (n / 2)
termination_by n

/-- An integral power. A negative one is the reciprocal of the positive one. -/
def powInt (z : Complex) (n : Int) : Complex :=
  let p := squaring z one n.natAbs
  if n < 0 then p.recip else p

/-- A real power, by length and angle. -/
def powReal (z : Complex) (x : Float) : Complex :=
  if z.isZero then (if x == 0 then one else zero)
  else
    let r := z.abs.pow x
    let angle := z.arg * x
    ⟨r * angle.cos, r * angle.sin⟩

/-- A complex power, by the principal logarithm. -/
def pow (z w : Complex) : Complex :=
  if w.isReal then z.powReal w.re
  else if z.isZero then zero
  else (z.ln * w).exp

/-! ### Text -/

/-- The text of a number. A zero imaginary part is left out, and so is a zero real part beside an
imaginary one. -/
def write (z : Complex) : List Char :=
  if z.im == 0 then Decimal.write (z.re + 0)
  else if z.re == 0 then Decimal.write z.im ++ ['i']
  else if z.im > 0 then Decimal.write z.re ++ " + ".toList ++ Decimal.write z.im ++ ['i']
  else Decimal.write z.re ++ " - ".toList ++ Decimal.write (-z.im) ++ ['i']

/-- The text of a number as a string. -/
def render (z : Complex) : String :=
  String.ofList z.write

end Complex

end Reckoner
