import Reckoner.Decimal.Text
import Reckoner.Operator.Basic

/-!
# Tokens

The words and marks of expressions.
-/

namespace Reckoner

/-- A word or mark of an expression. -/
inductive Token where
  | number (x : Float)
  | text (s : String)
  | identifier (name : String)
  | binary (op : BinaryOperator)
  | bang
  | negate
  | assign
  | question
  | colon
  | openParen
  | closeParen
  | openBracket
  | closeBracket
  | comma
  deriving Repr, DecidableEq

namespace Token

/-- Whether an operand ends with this token, so that a minus sign after it subtracts. -/
def endsOperand : Token → Bool
  | .number _ | .text _ | .identifier _ | .closeParen | .closeBracket => true
  | _ => false

/-- How a token is shown in messages. -/
def render : Token → String
  | .number x => Decimal.render x
  | .text s => s!"\"{s}\""
  | .identifier name => s!"'{name}'"
  | .binary op => s!"'{op.symbol}'"
  | .bang => "'!'"
  | .negate => "unary '-'"
  | .assign => "'='"
  | .question => "'?'"
  | .colon => "':'"
  | .openParen => "'('"
  | .closeParen => "')'"
  | .openBracket => "'['"
  | .closeBracket => "']'"
  | .comma => "','"

end Token

end Reckoner
