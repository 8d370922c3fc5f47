import Reckoner.Assoc
import Reckoner.Operator.Date
import Reckoner.Operator.Vector

/-!
# The operator table

What an operator does depends on the kinds of its two operands: the table holds one handler for each
combination that has a meaning. Real vectors are widened before the table is asked.
-/

namespace Reckoner

/-- What an operator does with two operands. -/
abbrev Handler := Value → Value → Except RuntimeError Value

/-- The handlers of operators by the kinds of the operands. -/
abbrev OperatorTable := Assoc (Tag × Tag × BinaryOperator) Handler

namespace OperatorTable

/-- The handler of an operator for two kinds of operands. -/
def lookup (table : OperatorTable) (left right : Tag) (op : BinaryOperator) : Option Handler :=
  table.find? (left, right, op)

/-- The table with another handler. -/
def register (table : OperatorTable) (left right : Tag) (op : BinaryOperator) (handler : Handler) :
    OperatorTable :=
  table.insert (left, right, op) handler

/-- Applies an operator to two values. -/
def apply (table : OperatorTable) (op : BinaryOperator) (left right : Value) :
    Except RuntimeError Value :=
  match table.lookup left.widened.tag right.widened.tag op with
  | some handler => handler left.widened right.widened
  | none => .error (.unsupportedOperation op left.tag right.tag)

/-- How a table is shown: by the number of its entries. -/
def describe (table : OperatorTable) : String :=
  s!"OperatorTable \x7b entries: {table.size} \x7d"

/-! ### The standard table -/

/-- An operator on two numbers. -/
def onScalars (op : BinaryOperator) : Handler := fun left right => do
  Operator.onScalars op (← left.toComplex) (← right.toComplex)

/-- An operator on a vector and a number. -/
def vectorScalar (op : BinaryOperator) : Handler := fun left right => do
  let w ← right.toComplex
  Operator.vectorScalar op (← left.elements) w

/-- An operator on a number and a vector. -/
def scalarVector (op : BinaryOperator) : Handler := fun left right => do
  let z ← left.toComplex
  Operator.scalarVector op z (← right.elements)

/-- An operator on two vectors. -/
def elementwise (op : BinaryOperator) : Handler := fun left right => do
  Operator.elementwise op (← left.elements) (← right.elements)

/-- The two texts in a row. -/
def joinTexts : Handler := fun left right => do
  return .text ((← left.toText) ++ (← right.toText))

/-- A comparison of two dates. -/
def compareMoments (op : BinaryOperator) : Handler := fun left right => do
  Operator.compareMoments op (← left.toMoment) (← right.toMoment)

/-- The days from the right date to the left one. -/
def daysBetween : Handler := fun left right => do
  return .ofReal (← Operator.daysBetween (← left.toMoment) (← right.toMoment))

/-- The date so many days later. -/
def addDays : Handler := fun left right => do
  return .date (← Operator.shiftDays (← left.toMoment) (← right.toReal))

/-- The date so many days earlier. -/
def subtractDays : Handler := fun left right => do
  return .date (← Operator.shiftDays (← left.toMoment) (-(← right.toReal)))

/-- The date on the right, shifted by the days on the left. -/
def daysAfter : Handler := fun left right => do
  return .date (← Operator.shiftDays (← right.toMoment) (← left.toReal))

/-- Equality of two values of one kind. -/
def equal : Handler := fun left right => .ok (.ofBool (left.same right))

/-- Inequality of two values of one kind. -/
def notEqual : Handler := fun left right => .ok (.ofBool !left.same right)

/-- An entry of the table. -/
abbrev Entry := (Tag × Tag × BinaryOperator) × Handler

/-- The entries of operators for one pair of kinds. -/
def entries (left right : Tag) (ops : List BinaryOperator) (handler : BinaryOperator → Handler) :
    List Entry :=
  ops.map fun op => ((left, right, op), handler op)

/-- The entries of the standard table. -/
def standardEntries : List Entry :=
  List.flatten
    [entries .scalar .scalar BinaryOperator.all onScalars,
      entries .complexVector .scalar BinaryOperator.arithmetic vectorScalar,
      entries .scalar .complexVector BinaryOperator.arithmetic scalarVector,
      entries .complexVector .complexVector BinaryOperator.arithmetic elementwise,
      entries .complexVector .complexVector [.equal] fun _ => equal,
      entries .complexVector .complexVector [.notEqual] fun _ => notEqual,
      entries .text .text [.equal] fun _ => equal,
      entries .text .text [.notEqual] fun _ => notEqual,
      entries .text .text [.add] fun _ => joinTexts,
      entries .date .date BinaryOperator.comparison compareMoments,
      entries .date .date [.sub] fun _ => daysBetween,
      entries .date .scalar [.add] fun _ => addDays,
      entries .date .scalar [.sub] fun _ => subtractDays,
      entries .scalar .date [.add] fun _ => daysAfter]

/-- The operators of the language. -/
def standard : OperatorTable :=
  .ofList standardEntries

end OperatorTable

end Reckoner
