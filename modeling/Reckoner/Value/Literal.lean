import Reckoner.Value.Basic

/-!
# Values as literals

Finite numbers, vectors of them and most texts can be written as an expression that has them as its
value.
-/

namespace Reckoner

/-- The literal of a number. A negative or complex one stands in parentheses. -/
def Complex.literal? (z : Complex) : Option (List Char) :=
  let re := z.re + 0
  if !z.isFinite then none
  else if !z.isReal then
    some ('(' :: Decimal.write re ++ '+' :: Decimal.write z.im ++ ['*', 'i', ')'])
  else if re < 0 then some ('(' :: Decimal.write re ++ [')'])
  else some (Decimal.write re)

namespace Value

/-- The literal of a value, if it has one. -/
def literal? : Value → Option (List Char)
  | .scalar z => z.literal?
  | .realVector xs => (xs.mapM fun x => (Complex.ofReal x).literal?).map listText
  | .complexVector zs => (zs.mapM Complex.literal?).map listText
  | .text s => if '"' ∈ s.toList then none else some ('"' :: s.toList ++ ['"'])
  | .date _ => none

/-- Whether the literal of a value names the imaginary unit. -/
def namesUnit : Value → Bool
  | .scalar z => !z.isReal
  | .complexVector zs => zs.any fun z => !z.isReal
  | _ => false

end Value

end Reckoner
