import Reckoner.Decimal.Text
import Reckoner.Operator.Basic

/-!
# Programs

An expression is compiled to a list of instructions for a stack machine. Operands come before their
operator; a conditional jumps over the branch that is not taken. Jump targets are positions in the
program.
-/

namespace Reckoner

/-- One instruction of the stack machine. -/
inductive Instruction where
  /-- Pushes a number. -/
  | number (x : Float)
  /-- Pushes a text. -/
  | text (s : String)
  /-- Pushes the value of a variable. -/
  | load (name : String)
  /-- Replaces the top value. -/
  | unary (op : UnaryOperator)
  /-- Replaces the top two values by one. -/
  | binary (op : BinaryOperator)
  /-- Replaces the top `count` values by the result of a function. -/
  | call (name : String) (count : Nat)
  /-- Replaces the top `count` values by a vector of them. -/
  | vector (count : Nat)
  /-- Removes the top value and goes to `target` if it is no true condition. -/
  | jumpIfFalse (target : Nat)
  /-- Goes to `target`. -/
  | jump (target : Nat)
  deriving Repr, DecidableEq

/-- How an instruction is shown. -/
def Instruction.render : Instruction → String
  | .number x => Decimal.render x
  | .text s => s!"\"{s}\""
  | .load name => name
  | .unary op => op.symbol
  | .binary op => op.symbol
  | .call name count => s!"{name}_{count}"
  | .vector count => s!"vector_{count}"
  | .jumpIfFalse target => s!"jz@{target}"
  | .jump target => s!"jmp@{target}"

/-- A list of instructions. -/
structure Program where
  code : Array Instruction
  deriving Repr, DecidableEq

namespace Program

/-- The number of instructions. -/
def size (p : Program) : Nat :=
  p.code.size

/-- How a program is shown: its instructions with a space between neighbours. -/
def render (p : Program) : String :=
  " ".intercalate (p.code.toList.map Instruction.render)

end Program

end Reckoner
