/-!
# Operators

The operators of expressions with their symbols, how tightly they bind and to which side they group.
-/

namespace Reckoner

/-- The operators between two operands. -/
inductive BinaryOperator where
  | or | and
  | bitOr | bitAnd
  | equal | notEqual
  | less | greater | lessEqual | greaterEqual
  | shiftLeft | shiftRight
  | add | sub
  | mul | div | mod
  | pow
  deriving Repr, DecidableEq

/-- The operators before one operand. -/
inductive UnaryOperator where
  | negate | not
  deriving Repr, DecidableEq

/-- The side to which operators of one strength group. -/
inductive Associativity where
  | left | right
  deriving Repr, DecidableEq

namespace BinaryOperator

/-- All operators, from the weakest to the strongest. -/
def all : List BinaryOperator :=
  [.or, .and, .bitOr, .bitAnd, .equal, .notEqual, .less, .greater, .lessEqual, .greaterEqual,
    .shiftLeft, .shiftRight, .add, .sub, .mul, .div, .mod, .pow]

/-- The operators that compute a number. -/
def arithmetic : List BinaryOperator :=
  [.add, .sub, .mul, .div, .mod, .pow]

/-- The operators that compare two values. -/
def comparison : List BinaryOperator :=
  [.equal, .notEqual, .less, .greater, .lessEqual, .greaterEqual]

/-- How an operator is written. -/
def symbol : BinaryOperator → String
  | .or => "||"
  | .and => "&&"
  | .bitOr => "|"
  | .bitAnd => "&"
  | .equal => "=="
  | .notEqual => "!="
  | .less => "<"
  | .greater => ">"
  | .lessEqual => "<="
  | .greaterEqual => ">="
  | .shiftLeft => "<<"
  | .shiftRight => ">>"
  | .add => "+"
  | .sub => "-"
  | .mul => "*"
  | .div => "/"
  | .mod => "%"
  | .pow => "^"

/-- The strength of an operator: the greater it is, the tighter it binds. -/
def precedence : BinaryOperator → Nat
  | .or => 1
  | .and => 2
  | .bitOr => 3
  | .bitAnd => 4
  | .equal | .notEqual => 5
  | .less | .greater | .lessEqual | .greaterEqual => 6
  | .shiftLeft | .shiftRight => 7
  | .add | .sub => 8
  | .mul | .div | .mod => 9
  | .pow => 10

/-- Powers group to the right and all other operators to the left. -/
def associativity : BinaryOperator → Associativity
  | .pow => .right
  | _ => .left

/-- Whether `first`, standing before `second`, takes the operand between them. -/
def bindsBefore (first second : BinaryOperator) : Bool :=
  second.precedence < first.precedence
    || (first.precedence == second.precedence && second.associativity == .left)

end BinaryOperator

namespace UnaryOperator

/-- How an operator is shown in a program. -/
def symbol : UnaryOperator → String
  | .negate => "neg"
  | .not => "!"

/-- The strength of all operators before an operand: they bind tighter than any other. -/
def precedence : Nat := 11

end UnaryOperator

/-- The strength of a conditional: it binds weaker than any operator. -/
def conditionalPrecedence : Nat := 0

end Reckoner
