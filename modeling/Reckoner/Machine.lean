import Reckoner.Context
import Reckoner.Function.Basic
import Reckoner.Operator.Table
import Reckoner.World

/-!
# The stack machine

The machine runs a program instruction by instruction on a stack of values. Before each instruction
it looks whether it shall stop.
-/

namespace Reckoner

/-- What a program can refer to. -/
structure Machine where
  context : Context
  operators : OperatorTable
  functions : Registry

namespace Machine

/-! ### Single instructions -/

/-- The value of a name: that of a variable, or the imaginary unit. -/
def load (m : Machine) (name : String) : Except RuntimeError Value :=
  match m.context.get? name with
  | some v => .ok v
  | none =>
    if Name.sameLetters name "i" then .ok (.scalar .i) else .error (.unknownVariable name)

/-- The value with the opposite sign. -/
def negate : Value → Except RuntimeError Value
  | .scalar z => .ok (.scalar (-z))
  | .realVector xs => .ok (.realVector (xs.map fun x => -x))
  | .complexVector zs => .ok (.ofElements (zs.map fun z => -z))
  | v => .error (.type s!"cannot negate a {v.tag.name}")

/-- Applies an operator to one value. -/
def unary (op : UnaryOperator) (v : Value) : Except RuntimeError Value :=
  match op with
  | .negate => negate v
  | .not => v.isTruthy.map fun b => .ofBool !b

/-- The elements that a value adds to a vector. -/
def parts (v : Value) : Except RuntimeError (List Complex) :=
  match v with
  | .scalar _ | .realVector _ | .complexVector _ => v.elements
  | v => .error (.type s!"a vector cannot contain a {v.tag.name}")

/-- A vector of numbers and of the elements of other vectors. -/
def vector (vs : List Value) : Except RuntimeError Value := do
  return .ofElements (← vs.mapM parts).flatten

/-- Calls a function. -/
def call (m : Machine) (name : String) (args : List Value) : Eval Value := do
  match m.functions.get? name with
  | none => throw (.runtime (.unknownFunction name))
  | some f =>
    if f.arity.accepts args.length then Eval.note (.called f.name args)
    let reply := f.invoke (← get).counter args
    modify fun w => { w with
      counter := reply.counter
      cancelled := w.cancelled || reply.cancels }
    Eval.ofRuntime reply.result

/-- Applies an operator to two values. -/
def binary (m : Machine) (op : BinaryOperator) (left right : Value) : Eval Value := do
  Eval.note (.applied op left right)
  Eval.ofRuntime (m.operators.apply op left right)

/-! ### Runs -/

/-- A position in the program and the values on the stack, the top first. -/
structure State where
  position : Nat := 0
  stack : List Value := []

/-- The top `count` values of a stack in the order in which they were pushed, and the rest. -/
def split (i : Instruction) (count : Nat) (stack : List Value) :
    Except RuntimeError (List Value × List Value) :=
  if count ≤ stack.length then .ok ((stack.take count).reverse, stack.drop count)
  else .error (.stackUnderflow i.render)

/-- The error of an instruction that lacks operands. -/
def underflow (i : Instruction) : EvalError :=
  .runtime (.stackUnderflow i.render)

/-- Runs one instruction from a stack; the result is the position to go to, if not the next one, and
the new stack. -/
def step (m : Machine) (i : Instruction) (stack : List Value) : Eval (Option Nat × List Value) :=
  match i, stack with
  | .number x, stack => return (none, .ofReal x :: stack)
  | .text s, stack => return (none, .text s :: stack)
  | .load name, stack => return (none, (← Eval.ofRuntime (m.load name)) :: stack)
  | .unary op, v :: stack => return (none, (← Eval.ofRuntime (unary op v)) :: stack)
  | .unary _, [] => throw (underflow i)
  | .binary op, right :: left :: stack => return (none, (← m.binary op left right) :: stack)
  | .binary _, _ => throw (underflow i)
  | .call name count, stack => do
    let (args, stack) ← Eval.ofRuntime (split i count stack)
    return (none, (← m.call name args) :: stack)
  | .vector count, stack => do
    let (vs, stack) ← Eval.ofRuntime (split i count stack)
    return (none, (← Eval.ofRuntime (vector vs)) :: stack)
  | .jumpIfFalse target, v :: stack => do
    if ← Eval.ofRuntime v.isTruthy then return (none, stack) else return (some target, stack)
  | .jumpIfFalse _, [] => throw (underflow i)
  | .jump target, stack => return (some target, stack)

/-- The result of a program that has left these values. -/
def result : List Value → Except RuntimeError Value
  | [v] => .ok v
  | stack => .error (.malformedProgram stack.length)

/-- Runs a program from a state for at most so many instructions; there is no result if it is not at
its end then. -/
def run (m : Machine) (p : Program) : Nat → State → Eval (Option Value)
  | 0, s =>
    match p.code[s.position]? with
    | none => some <$> Eval.ofRuntime (result s.stack)
    | some _ => return none
  | n + 1, s =>
    match p.code[s.position]? with
    | none => some <$> Eval.ofRuntime (result s.stack)
    | some i => do
      Eval.poll
      Eval.note (.stepped s.position i s.stack.length)
      let (target, stack) ← m.step i s.stack
      m.run p n { position := target.getD (s.position + 1), stack }

/-- Runs a compiled program. It only jumps forward, so that its length bounds the run. -/
def execute (m : Machine) (p : Program) : Eval Value := do
  match ← m.run p p.size {} with
  | some v => return v
  | none => throw (.runtime (.malformedProgram 0))

end Machine

end Reckoner
