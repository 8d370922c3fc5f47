import Reckoner.Binary64.Basic
import Reckoner.Error

/-!
# Conversions between integers and doubles that lose nothing

An integer of at most fifty-three bits is a double and back without loss; beyond that and for
fractions the conversions fail.
-/

namespace Reckoner.Binary64

/-- The greatest integer up to which all integers are doubles, less one. -/
def maxSafe : Nat := Nat.pow 2 53 - 1

/-- An integer as a double, if it is safe. -/
def ofIntChecked (n : Int) : Except RuntimeError Float :=
  if n.natAbs ≤ maxSafe then .ok (ofInt n) else .error (.outOfRange (ofInt n))

/-- A double as an integer. The size is looked at before the fraction. -/
def toIntChecked (x : Float) : Except RuntimeError Int :=
  if x.isFinite ∧ x.abs ≤ ofInt maxSafe then
    match toInt? x with
    | some n => .ok n
    | none => .error (.fractional x)
  else .error (.outOfRange x)

/-- A double as an integer between two bounds. -/
def toRangeChecked (least greatest : Int) (x : Float) : Except RuntimeError Int := do
  let n ← toIntChecked x
  if least ≤ n ∧ n ≤ greatest then .ok n else .error (.outOfRange x)

/-- A double as an unsigned integer of 32 bits. -/
def toUnsigned32 (x : Float) : Except RuntimeError Nat :=
  (toRangeChecked 0 4294967295 x).map Int.toNat

/-- A double as a signed integer of 32 bits. -/
def toSigned32 (x : Float) : Except RuntimeError Int :=
  toRangeChecked (-2147483648) 2147483647 x

end Reckoner.Binary64
