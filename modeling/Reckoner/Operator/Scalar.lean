import Reckoner.Binary64.Checked
import Reckoner.Value.Basic

/-!
# Operators on numbers
-/

namespace Reckoner.Operator

/-- The greatest exponent, in magnitude, that is raised to by repeated squaring. -/
def maxIntegralExponent : Nat := 1024

/-- The power of two numbers: by squaring for a small integral exponent, as a real power if both are
real and the base is not negative, else by the principal logarithm. -/
def power (a b : Complex) : Complex :=
  let exponent := if b.isReal then Binary64.toInt? b.re else none
  match exponent.filter (·.natAbs ≤ maxIntegralExponent) with
  | some n => a.powInt n
  | none =>
    if a.isReal && b.isReal && a.re ≥ 0 then .ofReal (a.re.pow b.re) else a.pow b

/-- The arithmetic operators on two numbers. -/
def arithmetic (op : BinaryOperator) (a b : Complex) : Except RuntimeError Complex :=
  match op with
  | .add => .ok (a + b)
  | .sub => .ok (a - b)
  | .mul => .ok (a * b)
  | .div => if b.isZero then .error .divisionByZero else .ok (a / b)
  | .mod =>
    if !a.isReal || !b.isReal then
      .error (.type s!"'%' requires real operands, found {a.render} and {b.render}")
    else if b.re == 0 then .error .divisionByZero
    else .ok (.ofReal (Binary64.remainder a.re b.re))
  | .pow => if a.isZero && b.re < 0 then .error .divisionByZero else .ok (power a b)
  | op => .error (.type s!"'{op.symbol}' is not an arithmetic operator")

/-- The integer that a number is. -/
def integer (z : Complex) : Except RuntimeError Int :=
  if z.isReal then Binary64.toIntChecked z.re
  else .error (.type s!"bitwise operators require integers, found {z.render}")

/-- Shifts an integer in a word of 64 bits by less than its length, to the left only if shifting
back restores the word. -/
def shift? (op : BinaryOperator) (n : Int) (amount : Nat) : Option Int :=
  if amount < 64 then
    let word := BitVec.ofInt 64 n
    if op = .shiftLeft then
      let shifted := word <<< amount
      if shifted.sshiftRight amount = word then some shifted.toInt else none
    else some (word.sshiftRight amount).toInt
  else none

/-- The operators on the binary digits of two integers, in two's complement. -/
def bitwise (op : BinaryOperator) (a b : Complex) : Except RuntimeError Complex := do
  let left ← integer a
  let right ← integer b
  let result ← match op with
    | .bitAnd => pure (BitVec.ofInt 64 left &&& BitVec.ofInt 64 right).toInt
    | .bitOr => pure (BitVec.ofInt 64 left ||| BitVec.ofInt 64 right).toInt
    | _ =>
      let amount ← Binary64.toUnsigned32 b.re
      match shift? op left amount with
      | some n => pure n
      | none => throw (.outOfRange b.re)
  return .ofReal (← Binary64.ofIntChecked result)

/-- All operators on two numbers. An order looks at the real parts only. -/
def onScalars (op : BinaryOperator) (a b : Complex) : Except RuntimeError Value :=
  match op with
  | .equal => .ok (.ofBool (a.same b))
  | .notEqual => .ok (.ofBool !a.same b)
  | .less => .ok (.ofBool (a.re < b.re))
  | .greater => .ok (.ofBool (a.re > b.re))
  | .lessEqual => .ok (.ofBool (a.re ≤ b.re))
  | .greaterEqual => .ok (.ofBool (a.re ≥ b.re))
  | .and => .ok (.ofBool (!a.isZero && !b.isZero))
  | .or => .ok (.ofBool (!a.isZero || !b.isZero))
  | .bitAnd | .bitOr | .shiftLeft | .shiftRight => (bitwise op a b).map .scalar
  | .add | .sub | .mul | .div | .mod | .pow => (arithmetic op a b).map .scalar

end Reckoner.Operator
