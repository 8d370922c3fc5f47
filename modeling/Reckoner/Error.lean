import Reckoner.Decimal.Text
import Reckoner.Operator.Basic
import Reckoner.Value.Tag

/-!
# What can go wrong

Each error is the cause of a failure; `message` is its wording. An expression fails with an
`EvalError`, a statement wraps it with its text, and a script adds the line. Being cancelled is kept
apart from failing.
-/

namespace Reckoner

/-- A text that is no expression, statement or block. -/
inductive ParseError where
  | unrecognizedToken (text : String)
  | unmatchedBracket (bracket : Char)
  | strayComma
  | notAFunction (name : String)
  | malformedConditional (details : String)
  | unexpectedToken (text : String)
  | unexpectedEnd
  | emptyExpression
  | invalidTarget (name : String)
  | malformedBlock (details : String)
  deriving Repr, DecidableEq

/-- A computation without a result. -/
inductive RuntimeError where
  | unknownVariable (name : String)
  | unknownFunction (name : String)
  | argumentCount (name : String) (expected found : Nat)
  | unsupportedOperation (operator : BinaryOperator) (left right : Tag)
  | stackUnderflow (instruction : String)
  | malformedProgram (remaining : Nat)
  | type (details : String)
  | invalidArgument (details : String)
  | divisionByZero
  | fractional (value : Float)
  | outOfRange (value : Float)
  | nestingLimit (depth : Nat)
  | invalidConstant (line : Nat) (details : String)
  deriving DecidableEq

/-- Why an expression has no value. -/
inductive EvalError where
  | parse (cause : ParseError)
  | runtime (cause : RuntimeError)
  | cancelled
  deriving DecidableEq

/-- Why a statement has no value. -/
inductive StatementError where
  | cancelled
  | failed (expression : String) (cause : EvalError)
  deriving DecidableEq

/-- Why a script stopped, and on which line, counted from one. -/
structure ScriptError where
  line : Nat
  error : StatementError
  deriving DecidableEq

/-- The wording of being cancelled. -/
def cancelledMessage : String :=
  "Operation cancelled."

namespace ParseError

/-- The wording of an error. -/
def message : ParseError → String
  | .unrecognizedToken text => s!"Unrecognized token: '{text}'."
  | .unmatchedBracket bracket => s!"Unmatched bracket '{bracket}'."
  | .strayComma => "Unexpected ','."
  | .notAFunction name => s!"Variable '{name}' is not a function."
  | .malformedConditional details => s!"Malformed conditional expression: {details}."
  | .unexpectedToken text => s!"Unexpected token: {text}."
  | .unexpectedEnd => "Unexpected end of input."
  | .emptyExpression => "Nothing to evaluate."
  | .invalidTarget name => s!"Cannot assign to '{name}'."
  | .malformedBlock details => s!"Malformed block: {details}."

end ParseError

namespace RuntimeError

/-- The wording of an error. -/
def message : RuntimeError → String
  | .unknownVariable name => s!"Unknown variable '{name}'."
  | .unknownFunction name => s!"Unknown function '{name}'."
  | .argumentCount name expected found =>
    s!"Function '{name}' expects {expected} argument(s) but got {found}."
  | .unsupportedOperation operator left right =>
    s!"Operator '{operator.symbol}' is not defined for {left.name} and {right.name}."
  | .stackUnderflow instruction => s!"Not enough operands for '{instruction}'."
  | .malformedProgram remaining => s!"Expression left {remaining} values instead of one."
  | .type details => s!"Type error: {details}."
  | .invalidArgument details => s!"Invalid argument: {details}."
  | .divisionByZero => "Division by zero."
  | .fractional value =>
    s!"Value {Decimal.render value} is fractional but an integer is required."
  | .outOfRange value => s!"Value {Decimal.render value} is out of range."
  | .nestingLimit depth => s!"Expression nesting exceeds the limit of {depth}."
  | .invalidConstant line details => s!"Invalid constant on line {line}: {details}."

end RuntimeError

namespace EvalError

/-- The wording of an error. -/
def message : EvalError → String
  | .parse cause => cause.message
  | .runtime cause => cause.message
  | .cancelled => cancelledMessage

/-- Whether an error ends the whole evaluation rather than one attempt inside it. -/
def isFatal : EvalError → Bool
  | .cancelled => true
  | .runtime (.nestingLimit _) => true
  | _ => false

/-- The wordings of the errors behind this one, outermost first. -/
def sources : EvalError → List String
  | .parse cause => [cause.message]
  | .runtime cause => [cause.message]
  | .cancelled => []

end EvalError

namespace StatementError

/-- The error of a statement whose evaluation failed. -/
def ofEval (expression : String) : EvalError → StatementError
  | .cancelled => .cancelled
  | cause => .failed expression cause

/-- The wording of an error. -/
def message : StatementError → String
  | .cancelled => cancelledMessage
  | .failed expression cause => s!"Failed to evaluate '{expression}': {cause.message}"

/-- Whether the statement was cancelled. -/
def isCancelled : StatementError → Bool
  | .cancelled => true
  | .failed _ _ => false

/-- The wordings of the errors behind this one, outermost first. -/
def sources : StatementError → List String
  | .cancelled => []
  | .failed _ cause => cause.message :: cause.sources

end StatementError

namespace ScriptError

/-- The wording of an error. -/
def message (e : ScriptError) : String :=
  s!"Error on line {e.line}: {e.error.message}"

/-- Whether the script was cancelled. -/
def isCancelled (e : ScriptError) : Bool :=
  e.error.isCancelled

/-- The wordings of the errors behind this one, outermost first. -/
def sources (e : ScriptError) : List String :=
  e.error.message :: e.error.sources

end ScriptError

end Reckoner
