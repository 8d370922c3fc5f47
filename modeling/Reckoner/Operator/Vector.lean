import Reckoner.Operator.Scalar

/-!
# Operators on vectors

Arithmetic works element by element; a number beside a vector is paired with each of its elements.
-/

namespace Reckoner.Operator

/-- A vector combined with a number on its right. -/
def vectorScalar (op : BinaryOperator) (zs : List Complex) (w : Complex) :
    Except RuntimeError Value :=
  (zs.mapM fun z => arithmetic op z w).map .ofElements

/-- A vector combined with a number on its left. -/
def scalarVector (op : BinaryOperator) (z : Complex) (ws : List Complex) :
    Except RuntimeError Value :=
  (ws.mapM fun w => arithmetic op z w).map .ofElements

/-- Two vectors of one length combined element by element. -/
def elementwise (op : BinaryOperator) (zs ws : List Complex) : Except RuntimeError Value :=
  if zs.length = ws.length then
    ((zs.zip ws).mapM fun (z, w) => arithmetic op z w).map .ofElements
  else
    .error (.invalidArgument
      s!"'{op.symbol}' needs vectors of equal length, found {zs.length} and {ws.length}")

end Reckoner.Operator
