/-!
# Double precision numbers as exact integers

A finite double is `± m · 2 ^ e` for a natural `m` and an integer `e`. The operations of this module
read that view, compute with integers and round once, to the nearest double with ties to even. They
are the ones whose results have to be known exactly: the fused product and sum, the remainder, the
roundings to an integer, the length of a vector of two parts.
-/

namespace Reckoner.Binary64

open Float.Model (UnpackedFloat Format)
open Float.Model.UnpackedFloat (Sign)

/-- The class of a number, with sign, mantissa and exponent of a finite one. -/
abbrev view (x : Float) : UnpackedFloat :=
  x.toModel.unpack

/-- The double that a view in canonical form stands for. -/
abbrev ofView (u : UnpackedFloat) : Float :=
  .ofModel (Float.Model.pack u)

/-- The double nearest to `mantissa · 2 ^ exponent`; a zero mantissa gives the zero of that sign. -/
def nearest (mantissa exponent : Int) (zeroSign : Sign) : Float :=
  ofView (UnpackedFloat.normalize Format.binary64 mantissa exponent zeroSign)

/-- The double nearest to an integer. -/
def ofInt (n : Int) : Float :=
  nearest n 0 .positive

/-- Positive infinity. -/
def infinity : Float :=
  ofView (.infinity .positive)

/-- The result of an operation without a value. -/
def nan : Float :=
  ofView .notANumber

/-- The sign of a number; that of `nan` is positive. -/
def sign (x : Float) : Sign :=
  match view x with
  | .notANumber => .positive
  | .infinity s => s
  | .zero s => s
  | .finite s _ _ _ => s

/-- The magnitude of `x` with the sign of `y`. -/
def copySign (x y : Float) : Float :=
  match sign y with
  | .positive => x.abs
  | .negative => -x.abs

/-- One with the sign of `x`; `nan` stays. -/
def signum (x : Float) : Float :=
  if x.isNaN then x else copySign 1 x

/-! ### Product and sum with one rounding -/

/-- The product of two views, not rounded. -/
def exactMul : UnpackedFloat → UnpackedFloat → UnpackedFloat
  | .notANumber, _ => .notANumber
  | _, .notANumber => .notANumber
  | .infinity s, .infinity t => .infinity (s * t)
  | .infinity s, .finite t _ _ _ => .infinity (s * t)
  | .finite s _ _ _, .infinity t => .infinity (s * t)
  | .infinity _, .zero _ => .notANumber
  | .zero _, .infinity _ => .notANumber
  | .finite s _ _ _, .zero t => .zero (s * t)
  | .zero s, .finite t _ _ _ => .zero (s * t)
  | .zero s, .zero t => .zero (s * t)
  | .finite s m e hm, .finite t n f hn => .finite (s * t) (m * n) (e + f) (Nat.mul_pos hm hn)

/-- `x · y + z`, rounded once. -/
def fusedMulAdd (x y z : Float) : Float :=
  match exactMul (view x) (view y), view z with
  -- adding a zero leaves the product as it is, and it still has to be rounded
  | .finite s m e _, .zero _ => nearest (s.apply m) e s
  | p, c => ofView (UnpackedFloat.add Format.binary64 p c)

/-! ### Remainder -/

/-- The remainder of the division that rounds toward zero; it has the sign of `x`. -/
def remainder (x y : Float) : Float :=
  match view x, view y with
  | .notANumber, _ => nan
  | _, .notANumber => nan
  | .infinity _, _ => nan
  | _, .zero _ => nan
  | .zero _, _ => x
  | .finite _ _ _ _, .infinity _ => x
  | .finite s m e _, .finite _ n f _ =>
    let least := min e f
    let r := (m <<< (e - least).toNat) % (n <<< (f - least).toNat)
    nearest (s.apply r) least s

/-! ### Rounding to an integer -/

/-- Replaces the magnitude `m / d` of a number that may have a fraction by the integer `choose s m
d`, where `s` is its sign. -/
def integral (choose : Sign → Nat → Nat → Nat) (x : Float) : Float :=
  match view x with
  | .finite s m (.negSucc k) _ => nearest (s.apply (choose s m (Nat.pow 2 (k + 1)))) 0 s
  | _ => x

/-- The greatest integer that is not above `x`. -/
def floor : Float → Float :=
  integral fun s m d => match s with
    | .positive => m / d
    | .negative => (m + d - 1) / d

/-- The least integer that is not below `x`. -/
def ceil : Float → Float :=
  integral fun s m d => match s with
    | .positive => (m + d - 1) / d
    | .negative => m / d

/-- The nearest integer, a half going away from zero. -/
def round : Float → Float :=
  integral fun _ m d => (2 * m + d) / (2 * d)

/-- The integer that `x` is, if it is one. -/
def toInt? (x : Float) : Option Int :=
  match view x with
  | .zero _ => some 0
  | .finite s m (.ofNat k) _ => some (s.apply (m <<< k))
  | .finite s m (.negSucc k) _ =>
    if m % Nat.pow 2 (k + 1) = 0 then some (s.apply (m / Nat.pow 2 (k + 1))) else none
  | _ => none

/-! ### Lengths, middles and bounds -/

/-- The length of the vector `(x, y)`, rounded once; an infinite part outweighs everything. -/
def hypot (x y : Float) : Float :=
  match view x, view y with
  | .infinity _, _ => infinity
  | _, .infinity _ => infinity
  | .notANumber, _ => nan
  | _, .notANumber => nan
  | .zero _, _ => y.abs
  | _, .zero _ => x.abs
  | .finite _ m e hm, .finite _ n f _ =>
    let least := min e f
    let a := m <<< (e - least).toNat
    let b := n <<< (f - least).toNat
    have : 0 < a * a + b * b := by
      have ha : 0 < a := by
        simp only [a, Nat.shiftLeft_eq]
        exact Nat.mul_pos hm (Nat.two_pow_pos _)
      exact Nat.add_pos_left (Nat.mul_pos ha ha) _
    ofView (UnpackedFloat.sqrt Format.binary64 (.finite .positive (a * a + b * b) (2 * least) this))

/-- Half of the greatest double. -/
def halfOfGreatest : Float :=
  nearest (Nat.pow 2 53 - 1 : Nat) 970 .positive

/-- The middle of two numbers, without overflow on the way. -/
def midpoint (x y : Float) : Float :=
  if x.abs ≤ halfOfGreatest ∧ y.abs ≤ halfOfGreatest then (x + y) / 2 else x / 2 + y / 2

/-- The lesser of two numbers; `nan` counts only beside another `nan`. -/
def lesser (x y : Float) : Float :=
  if x.isNaN then y else if y < x then y else x

/-- The greater of two numbers; `nan` counts only beside another `nan`. -/
def greater (x y : Float) : Float :=
  if x.isNaN then y else if x < y then y else x

/-- Equality in which `nan` equals itself and the two zeros are equal. -/
def same (x y : Float) : Bool :=
  if x.isNaN then y.isNaN else x == y

end Reckoner.Binary64
