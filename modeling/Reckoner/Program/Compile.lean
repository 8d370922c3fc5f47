import Reckoner.Error
import Reckoner.Program.Basic
import Reckoner.Token.Lexer

/-!
# From tokens to programs

The compiler reads the tokens once, from left to right. Operands go straight into the code;
operators, open brackets and unfinished conditionals wait on a stack until what follows shows where
their operands end. A jump is emitted before its target is known and gets it as soon as the target
is reached.
-/

namespace Reckoner

/-- What an open bracket began. -/
inductive Group where
  | paren
  | call (name : String)
  | vector
  deriving Repr, DecidableEq

namespace Group

/-- The bracket that opens a group. -/
def opener : Group → Char
  | .paren | .call _ => '('
  | .vector => '['

/-- The bracket that closes a group. -/
def closer : Group → Char
  | .paren | .call _ => ')'
  | .vector => ']'

/-- Whether a group holds a list of expressions rather than one. -/
def isList : Group → Bool
  | .paren => false
  | .call _ | .vector => true

end Group

/-- What waits on the stack of the compiler. -/
inductive Pending where
  | binary (op : BinaryOperator)
  | unary (op : UnaryOperator)
  /-- An open bracket. -/
  | opened (group : Group)
  /-- A conditional before its `:`; its first jump is at the given position. -/
  | condition (jump : Nat)
  /-- A conditional behind its `:`; its second jump is at the given position. -/
  | alternative (jump : Nat)
  deriving Repr, DecidableEq

namespace Pending

/-- Whether an entry is an operator. -/
def isOperator : Pending → Bool
  | .binary _ | .unary _ => true
  | _ => false

/-- Whether an entry ends where the expression around it ends. -/
def isClosable : Pending → Bool
  | .binary _ | .unary _ | .alternative _ => true
  | _ => false

/-- Whether an entry is complete when the operator `op` follows. -/
def yieldsTo (op : BinaryOperator) : Pending → Bool
  | .unary _ => true
  | .binary first => first.bindsBefore op
  | _ => false

/-- Whether an entry is an open bracket of a list. -/
def opensList : Pending → Bool
  | .opened group => group.isList
  | _ => false

/-- The code after an entry has become complete. -/
def emit (code : Array Instruction) : Pending → Array Instruction
  | .binary op => code.push (.binary op)
  | .unary op => code.push (.unary op)
  | .alternative jump => code.setIfInBounds jump (.jump code.size)
  | .opened _ | .condition _ => code

end Pending

/-- What is known about the list inside an open bracket. -/
structure Frame where
  /-- The commas so far. -/
  commas : Nat := 0
  /-- Whether anything has followed the last comma. -/
  hasContent : Bool := false
  deriving Repr, DecidableEq

/-- A program under construction. -/
structure Assembly where
  code : Array Instruction := #[]
  pending : List Pending := []
  /-- One frame for each open bracket, innermost first. -/
  frames : List Frame := []
  /-- Whether an operand has to come next, not an operator. -/
  expectsOperand : Bool := true
  deriving Repr, DecidableEq

namespace Assembly

/-- The error of a token out of place. -/
def unexpected (t : Token) : ParseError :=
  .unexpectedToken t.render

/-- The error of a conditional without its second half. -/
def missingColon : ParseError :=
  .malformedConditional "missing ':' after '?'"

/-- Records that something stands inside the innermost bracket. -/
def markContent (a : Assembly) : Assembly :=
  match a.frames with
  | [] => a
  | f :: rest => { a with frames := { f with hasContent := true } :: rest }

/-- Completes entries from the top of the stack as long as `ready` holds of them. -/
def settleStack (ready : Pending → Bool) (code : Array Instruction) :
    List Pending → Array Instruction × List Pending
  | [] => (code, [])
  | p :: rest => if ready p then settleStack ready (p.emit code) rest else (code, p :: rest)

/-- Completes what is pending as long as `ready` holds of it. -/
def settle (ready : Pending → Bool) (a : Assembly) : Assembly :=
  let (code, pending) := settleStack ready a.code a.pending
  { a with code, pending }

/-- Completes the expression that ends here; a conditional must have its second half. -/
def settleGroup (a : Assembly) : Except ParseError Assembly :=
  let a := a.settle Pending.isClosable
  match a.pending with
  | .condition _ :: _ => .error missingColon
  | _ => .ok a

/-! ### Tokens -/

/-- Adds an operand. -/
def operand (a : Assembly) (t : Token) (instruction : Instruction) : Except ParseError Assembly :=
  if a.expectsOperand then
    let a := a.markContent
    .ok { a with code := a.code.push instruction, expectsOperand := false }
  else .error (unexpected t)

/-- Adds an operator before an operand. -/
def unary (a : Assembly) (t : Token) (op : UnaryOperator) : Except ParseError Assembly :=
  if a.expectsOperand then
    let a := a.markContent
    .ok { a with pending := .unary op :: a.pending }
  else .error (unexpected t)

/-- Adds an operator between two operands. -/
def binary (a : Assembly) (t : Token) (op : BinaryOperator) : Except ParseError Assembly :=
  if a.expectsOperand then .error (unexpected t)
  else
    let a := a.settle (Pending.yieldsTo op)
    .ok { a with pending := .binary op :: a.pending, expectsOperand := true }

/-- Opens a bracket. -/
def opened (a : Assembly) (t : Token) (group : Group) : Except ParseError Assembly :=
  if a.expectsOperand then
    let a := a.markContent
    .ok { a with pending := .opened group :: a.pending, frames := {} :: a.frames }
  else .error (unexpected t)

/-- The `?` of a conditional. Conditionals that are open already stay so: they group to the right.
-/
def question (a : Assembly) (t : Token) : Except ParseError Assembly :=
  if a.expectsOperand then .error (unexpected t)
  else
    let a := a.settle Pending.isOperator
    .ok { a with
      code := a.code.push (.jumpIfFalse 0)
      pending := .condition a.code.size :: a.pending
      expectsOperand := true }

/-- The `:` of a conditional. -/
def colon (a : Assembly) (t : Token) : Except ParseError Assembly :=
  if a.expectsOperand then .error (unexpected t)
  else
    let a := a.settle Pending.isClosable
    match a.pending with
    | .condition first :: rest =>
      let second := a.code.size
      .ok { a with
        code := (a.code.push (.jump 0)).setIfInBounds first (.jumpIfFalse (second + 1))
        pending := .alternative second :: rest
        expectsOperand := true }
    | _ => .error (.malformedConditional "':' without a matching '?'")

/-- The error of a comma where an operand was expected. -/
def commaTooEarly (a : Assembly) : ParseError :=
  match a.frames with
  | { hasContent := true, .. } :: _ => unexpected .comma
  | _ => .strayComma

/-- A comma between two expressions of a list. -/
def comma (a : Assembly) : Except ParseError Assembly :=
  if a.expectsOperand then .error a.commaTooEarly
  else do
    let a ← a.settleGroup
    match a.pending, a.frames with
    | p :: _, f :: frames =>
      if p.opensList then
        .ok { a with frames := { commas := f.commas + 1 } :: frames, expectsOperand := true }
      else .error .strayComma
    | _, _ => .error .strayComma

/-- The code after a group with so many expressions has been closed. -/
def closeGroup (code : Array Instruction) (count : Nat) : Group → Array Instruction
  | .paren => code
  | .call name => code.push (.call name count)
  | .vector => code.push (.vector count)

/-- The error of a bracket that closes before an operand that was expected, if it is one. -/
def closeTooEarly? (a : Assembly) (t : Token) (f : Frame) : Option ParseError :=
  if a.expectsOperand then
    if f.commas > 0 ∧ !f.hasContent then some .strayComma
    else if f.commas = 0 ∧ !f.hasContent ∧ a.pending.head?.any Pending.opensList then none
    else some (unexpected t)
  else none

/-- Closes a bracket. -/
def close (a : Assembly) (t : Token) (bracket : Char) : Except ParseError Assembly :=
  match a.frames with
  | [] => .error (.unmatchedBracket bracket)
  | f :: frames =>
    match a.closeTooEarly? t f with
    | some e => .error e
    | none => do
      let count := if f.commas = 0 ∧ !f.hasContent then 0 else f.commas + 1
      let a ← a.settleGroup
      match a.pending with
      | .opened group :: pending =>
        if group.closer = bracket then
          .ok { code := closeGroup a.code count group, pending, frames, expectsOperand := false }
        else .error (.unmatchedBracket bracket)
      | _ => .error (.unmatchedBracket bracket)

/-- Adds a token that is no identifier. -/
def step (a : Assembly) (t : Token) : Except ParseError Assembly :=
  match t with
  | .number x => a.operand t (.number x)
  | .text s => a.operand t (.text s)
  | .identifier name => a.operand t (.load name)
  | .binary op => a.binary t op
  | .negate => a.unary t .negate
  | .bang => a.unary t .not
  | .question => a.question t
  | .colon => a.colon t
  | .comma => a.comma
  | .openParen => a.opened t .paren
  | .openBracket => a.opened t .vector
  | .closeParen => a.close t ')'
  | .closeBracket => a.close t ']'
  | .assign => .error (unexpected t)

/-- Adds all tokens. A function has to be followed by its arguments, and nothing else may be. -/
def steps (isFunction : String → Bool) (a : Assembly) : List Token → Except ParseError Assembly
  | [] => .ok a
  | .identifier name :: .openParen :: rest =>
    if isFunction name then do
      let a ← a.opened (.identifier name) (.call name)
      a.steps isFunction rest
    else .error (.notAFunction name)
  | .identifier name :: rest =>
    if isFunction name then .error (.unexpectedToken s!"function '{name}' without arguments")
    else do
      let a ← a.step (.identifier name)
      a.steps isFunction rest
  | t :: rest => do
    let a ← a.step t
    a.steps isFunction rest

/-- The program, if the expression is complete. -/
def finish (a : Assembly) : Except ParseError Program :=
  if a.expectsOperand then .error .unexpectedEnd
  else
    let a := a.settle Pending.isClosable
    match a.pending with
    | [] => .ok ⟨a.code⟩
    | .opened group :: _ => .error (.unmatchedBracket group.opener)
    | _ => .error missingColon

end Assembly

namespace Program

/-- Compiles the tokens of an expression, given which names are functions. -/
def compile (isFunction : String → Bool) (tokens : List Token) : Except ParseError Program :=
  if tokens.isEmpty then .error .emptyExpression
  else do (← Assembly.steps isFunction {} tokens).finish

end Program

end Reckoner
