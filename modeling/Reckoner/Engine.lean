import Reckoner.Function.Standard
import Reckoner.Machine
import Reckoner.Program.Compile
import Reckoner.Statement
import Reckoner.Substitution

/-!
# The engine

The engine evaluates expressions and statements with a set of functions and operators. Conditionals
are compiled with the rest of an expression or, in another mode, evaluated one by one on the text,
each a level deeper than what contains it.
-/

namespace Reckoner

/-- How conditionals are dealt with. -/
inductive Mode where
  /-- They are compiled to jumps. -/
  | compiled
  /-- They are evaluated first and replaced in the text. -/
  | substituting
  deriving Repr, DecidableEq

/-- The settings of an engine. -/
structure Options where
  mode : Mode := .compiled
  /-- How many levels expressions may be evaluated inside each other. -/
  maxDepth : Nat := 64
  deriving Repr, DecidableEq

/-- An evaluator of expressions and statements. -/
structure Engine where
  functions : Registry := .standard
  operators : OperatorTable := .standard
  options : Options := {}

namespace Engine

/-- Compiles an expression. -/
def compile (e : Engine) (source : List Char) : Except ParseError Program := do
  Program.compile e.functions.isFunction (← Token.tokenize (Text.trim source))

/-- Compiles an expression and runs it. -/
def run (e : Engine) (context : Context) (source : List Char) : Eval Value := do
  let program ← Eval.ofParse (e.compile source)
  Eval.note (.compiled (String.ofList source) program)
  let machine : Machine := ⟨context, e.operators, e.functions⟩
  machine.execute program

/-- The error of too many levels. -/
def depthError (e : Engine) : EvalError :=
  .runtime (.nestingLimit e.options.maxDepth)

/-- Evaluates an expression with so many levels left. -/
def evaluateWithin (e : Engine) : Nat → Context → List Char → Eval Value
  | 0, _, _ => do
    Eval.poll
    throw e.depthError
  | levels + 1, context, source => do
    Eval.poll
    let text := Text.trim source
    if text.isEmpty then throw (.parse .emptyExpression)
    match e.options.mode with
    | .compiled => e.run context text
    | .substituting =>
      match Conditional.split? text with
      | some parts =>
        let condition ← e.evaluateWithin levels context parts.condition
        if ← Eval.ofRuntime condition.isTruthy then
          e.evaluateWithin levels context parts.consequent
        else
          e.evaluateWithin levels context parts.alternative
      | none =>
        let replace := Substitution.substitute (e.evaluateWithin levels) true
        let replaced : Scratch (List Char) := do
          let text ← Substitution.groups replace text
          Substitution.arguments e.functions.isFunction replace text
        let (text, scratch) ← replaced.run context
        e.run scratch text

/-- Evaluates an expression. -/
def evaluateExpression (e : Engine) (context : Context) (source : List Char) : Eval Value :=
  e.evaluateWithin (e.options.maxDepth + 1) context source

/-! ### Conditionals in a text -/

/-- Evaluates a fragment of a text and writes its value as a literal. -/
def literal (e : Engine) (fragment : List Char) : Scratch (Option (List Char)) :=
  Substitution.substitute (e.evaluateWithin e.options.maxDepth) false fragment

/-- A text with its parenthesised conditionals replaced by literals. -/
def replaceGroups (e : Engine) (context : Context) (text : String) : Eval String := do
  let (result, _) ← (Substitution.groups e.literal text.toList).run context
  return String.ofList result

/-- A text with the conditionals among the arguments of calls replaced by literals. -/
def replaceArguments (e : Engine) (context : Context) (text : String) : Eval String := do
  let (result, _) ←
    (Substitution.arguments e.functions.isFunction e.literal text.toList).run context
  return String.ofList result

/-! ### Statements -/

/-- Whether a name can be assigned to. -/
def isAssignable (e : Engine) (name : List Char) : Bool :=
  Name.isValid name && !e.functions.isFunction (String.ofList name)

/-- Runs a statement, given as a trimmed text; an assignment changes the context when its value is
known. -/
def execute (e : Engine) (context : Context) (source : List Char) : Eval (Value × Context) := do
  Eval.poll
  if source.isEmpty then throw (.parse .emptyExpression)
  match Statement.ofText source with
  | .expression text => return (← e.evaluateExpression context text, context)
  | .assignment target expression =>
    let name := String.ofList target
    if e.isAssignable target then
      let v ← e.evaluateExpression context expression
      Eval.note (.assigned name v)
      return (v, context.set name v)
    else throw (.parse (.invalidTarget name))

/-- Runs a statement. A failure tells its text and leaves the context as it was. -/
def evaluate (e : Engine) (context : Context) (source : List Char) :
    ExceptT StatementError (StateM World) (Value × Context) :=
  let text := Text.trim source
  (e.execute context text).adapt (StatementError.ofEval (String.ofList text))

end Engine

end Reckoner
