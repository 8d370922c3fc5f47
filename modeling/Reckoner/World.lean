import Reckoner.Program.Basic
import Reckoner.Value.Basic

/-!
# The world of an evaluation

What an evaluation shares with its surroundings: a flag that asks it to stop, the counter of the
host and a journal of what was done.
-/

namespace Reckoner

/-- Something that an evaluation did. -/
inductive Event where
  /-- An instruction is about to run, with so many values on the stack. -/
  | stepped (position : Nat) (instruction : Instruction) (depth : Nat)
  /-- An operator is applied. -/
  | applied (op : BinaryOperator) (left right : Value)
  /-- A function is called. -/
  | called (name : String) (args : List Value)
  /-- An expression was compiled. -/
  | compiled (source : String) (program : Program)
  /-- A value was assigned to a variable. -/
  | assigned (target : String) (value : Value)
  /-- A fragment was replaced by the literal of its value. -/
  | replaced (fragment literal : String)
  /-- A fragment was kept because it has no value. -/
  | kept (fragment : String) (reason : EvalError)
  /-- A fragment was kept because its value has no literal. -/
  | keptValue (fragment : String) (value : Value)
  /-- A fragment was replaced by a name for its value. -/
  | bound (fragment name : String)
  /-- A loop starts a turn with a value of its variable. -/
  | counted (line : Nat) (name : String) (value : Float)
  /-- A loop starts a turn because its condition holds. -/
  | held (line : Nat) (condition : String)

namespace Event

/-- A position, filled up to four columns. -/
def positionText (n : Nat) : String :=
  let digits := Decimal.natText n
  String.ofList (List.replicate (4 - digits.length) ' ' ++ digits)

/-- The line of the log that tells of an event. Applications and calls are told by the instruction
that made them. -/
def logLine? : Event → Option String
  | .stepped position instruction depth =>
    some s!"TRACE {positionText position}: {instruction.render} (stack {depth})"
  | .applied _ _ _ => none
  | .called _ _ => none
  | .compiled source program => some s!"DEBUG compiled '{source}' into '{program.render}'"
  | .assigned target value => some s!"DEBUG assigned {target} = {value.render}"
  | .replaced fragment literal => some s!"DEBUG rewrote '{fragment}' as '{literal}'"
  | .kept fragment reason => some s!"DEBUG kept '{fragment}': {reason.message}"
  | .keptValue fragment value =>
    some s!"DEBUG kept '{fragment}': {value.render} has no literal form"
  | .bound fragment name => some s!"DEBUG bound '{fragment}' to {name}"
  | .counted line name value =>
    some s!"DEBUG line {line}: {name} = {Decimal.render value}"
  | .held line condition => some s!"DEBUG line {line}: '{condition}' holds"

end Event

/-- What an evaluation shares with its surroundings. -/
structure World where
  /-- Whether the evaluation shall stop. -/
  cancelled : Bool := false
  /-- The counter of the host. -/
  counter : Nat := 0
  /-- Whether the journal is kept. -/
  recording : Bool := false
  /-- What was done, the latest first. -/
  journal : List Event := []

namespace World

/-- The world after an event. -/
def record (w : World) (e : Event) : World :=
  if w.recording then { w with journal := e :: w.journal } else w

/-- The lines of the log, in order. -/
def log (w : World) : List String :=
  w.journal.reverse.filterMap Event.logLine?

end World

/-- An evaluation in a world: it fails or has a result, and leaves the world changed either way. -/
abbrev Eval := ExceptT EvalError (StateM World)

namespace Eval

/-- Notes an event. -/
def note (e : Event) : Eval Unit :=
  modify fun w => w.record e

/-- Stops if the world asks for it. -/
def poll : Eval Unit := do
  if (← get).cancelled then throw .cancelled

/-- The result of a computation. -/
def ofRuntime {α : Type} : Except RuntimeError α → Eval α
  | .ok a => pure a
  | .error e => throw (.runtime e)

/-- The result of reading a text. -/
def ofParse {α : Type} : Except ParseError α → Eval α
  | .ok a => pure a
  | .error e => throw (.parse e)

/-- The outcome of an evaluation instead of its failure. -/
def attempt {α : Type} (x : Eval α) : Eval (Except EvalError α) :=
  fun w =>
    let (r, w') := x.run w
    (.ok r, w')

end Eval

end Reckoner
