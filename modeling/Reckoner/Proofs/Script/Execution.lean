import Reckoner.Proofs.Engine.Traces
import Reckoner.Proofs.Script.Commands

/-!
# What scripts mean

The meaning of a script is given by rules over its tree. Statements are evaluated in order, loops
are repeated as their headers say, and of a chain the first clause is run whose condition holds; the
conditions behind it are not evaluated. The result is the last value that was produced, or the first
failure with its line. What was done before a failure stays done.
-/

namespace Reckoner.Script

variable {e : Engine}

/-! ### Expressions of a line -/

/-- A result or a failure, and the state that is left. -/
abbrev Outcome (α : Type) := Except ScriptError α × State

/-- Goes on with a result. -/
def Outcome.andThen {α β : Type} : Outcome α → (α → State → Outcome β) → Outcome β
  | (.ok a, s), next => next a s
  | (.error err, s), _ => (.error err, s)

/-- The failure of a line. -/
def Line.failure (line : Line) (err : EvalError) : ScriptError :=
  ⟨line.number, .ofEval (String.ofList line.text) err⟩

/-- Evaluates an expression of a line and asks for a property of its value. -/
def ask {α : Type} (e : Engine) (line : Line) (property : Value → Except RuntimeError α)
    (source : List Char) (s : State) : Outcome α :=
  match e.perform s source with
  | (.ok v, s') => ((property v).mapError fun err => line.failure (.runtime err), s')
  | (.error err, s') => (.error ⟨line.number, err⟩, s')

/-- Evaluates the bounds of a loop. Its step is one unless it is given. -/
def askRange (e : Engine) (line : Line) (name start stop : List Char) (step : Option (List Char))
    (s : State) : Outcome Range :=
  if e.functions.isFunction (String.ofList name) then
    (.error (line.failure (.parse (.invalidTarget (String.ofList name)))), s)
  else
    (ask e line Value.toReal start s).andThen fun first s =>
    (ask e line Value.toReal stop s).andThen fun last s =>
    (match step with
      | some source => ask e line Value.toReal source s
      | none => (.ok 1, s)).andThen fun step s =>
    if !first.isFinite || !last.isFinite || !step.isFinite then
      (.error (line.failure (.runtime (.invalidArgument "loop bounds and step must be finite"))), s)
    else if step == 0 then
      (.error (line.failure (.runtime (.invalidArgument "loop step must not be zero"))), s)
    else (.ok ⟨first, last, step⟩, s)

/-! ### Rules -/

/-- A counting loop whose bounds are known. The number says where the lines of its body start. -/
structure Counting where
  line : Line
  name : String
  range : Range
  number : Nat
  body : Block

/-- A body with the condition that its line asks for. -/
structure Guarded where
  line : Line
  condition : List Char
  number : Nat
  body : Block

/-- The body below a row. -/
def Row.guarded {header : Option Header} (row : Row header) (number : Nat) (condition : List Char)
    (body : Block) : Guarded :=
  ⟨row.line number, condition, number + row.written.length, body⟩

/-- What there is to do in a script. A number says where lines start. -/
inductive Task where
  | command (number : Nat) (command : Command)
  | block (number : Nat) (block : Block)
  /-- The one and then the other. -/
  | andThen (first second : Task)
  /-- A counting loop from a turn on. -/
  | counting (loop : Counting) (turn : Float)
  /-- A body as long as its condition holds. -/
  | repeating (guarded : Guarded)
  /-- A body if its condition holds, or else the clauses behind it. -/
  | clause (guarded : Guarded) (others : Clauses)
  | clauses (number : Nat) (clauses : Clauses)

/-- The last value that was produced, if any, or the first failure. -/
abbrev Result := Except ScriptError (Option Value)

/-- Whether a task comes to a result and leaves a state. -/
inductive Executes (e : Engine) : Task → State → Result → State → Prop
  | statement {number : Nat} {row : Row none} {s s' : State} {result : Except ScriptError Value}
      (h : ask e (row.line number) .ok (row.line number).text s = (result, s')) :
      Executes e (.command number (.statement row)) s (result.map some) s'
  | forLoop_error {number : Nat} {name start stop : List Char} {step : Option (List Char)}
      {row : Row (some (.forLoop name start stop step))} {body : Block} {s s' : State}
      {err : ScriptError}
      (h : askRange e (row.line number) name start stop step s = (.error err, s')) :
      Executes e (.command number (.forLoop row body)) s (.error err) s'
  | forLoop {number : Nat} {name start stop : List Char} {step : Option (List Char)}
      {row : Row (some (.forLoop name start stop step))} {body : Block} {s s₁ s' : State}
      {range : Range} {result : Result}
      (h : askRange e (row.line number) name start stop step s = (.ok range, s₁))
      (hloop : Executes e (.counting ⟨row.line number, String.ofList name, range,
        number + row.written.length, body⟩ 0) s₁ result s') :
      Executes e (.command number (.forLoop row body)) s result s'
  | whileLoop {number : Nat} {condition : List Char} {row : Row (some (.whileLoop condition))}
      {body : Block} {s s' : State} {result : Result}
      (hloop : Executes e (.repeating (row.guarded number condition body)) s result s') :
      Executes e (.command number (.whileLoop row body)) s result s'
  | chain {number : Nat} {condition : List Char} {row : Row (some (.ifClause condition))}
      {body : Block} {others : Clauses} {s s' : State} {result : Result}
      (hclause : Executes e (.clause (row.guarded number condition body) others) s result s') :
      Executes e (.command number (.chain row body others)) s result s'
  | nil {number : Nat} {s : State} : Executes e (.block number .nil) s (.ok none) s
  | cons {number : Nat} {command : Command} {rest : Block} {s s' : State} {result : Result}
      (h : Executes e (.andThen (.command number command)
        (.block (number + command.written.length) rest)) s result s') :
      Executes e (.block number (.cons command rest)) s result s'
  -- A failure ends the whole; otherwise the last value that was produced counts.
  | stop {first second : Task} {s s' : State} {err : ScriptError}
      (hfirst : Executes e first s (.error err) s') :
      Executes e (.andThen first second) s (.error err) s'
  | next {first second : Task} {s s₁ s' : State} {v : Option Value} {result : Result}
      (hfirst : Executes e first s (.ok v) s₁) (hsecond : Executes e second s₁ result s') :
      Executes e (.andThen first second) s (result.map (·.or v)) s'
  -- The number of a turn is counted apart from the variable, which the body may change.
  | past {loop : Counting} {turn : Float} {s : State}
      (h : loop.range.isPast (loop.range.value turn) = true) :
      Executes e (.counting loop turn) s (.ok none) s
  | count {loop : Counting} {turn : Float} {s s' : State} {result : Result}
      (h : loop.range.isPast (loop.range.value turn) = false)
      (hturn : Executes e (.andThen (.block loop.number loop.body) (.counting loop (turn + 1)))
        (s.after e.functions (.counted loop.line.number loop.name (loop.range.value turn)))
        result s') :
      Executes e (.counting loop turn) s result s'
  | repeating_error {guarded : Guarded} {s s' : State} {err : ScriptError}
      (h : ask e guarded.line Value.isTruthy guarded.condition s = (.error err, s')) :
      Executes e (.repeating guarded) s (.error err) s'
  | done {guarded : Guarded} {s s' : State}
      (h : ask e guarded.line Value.isTruthy guarded.condition s = (.ok false, s')) :
      Executes e (.repeating guarded) s (.ok none) s'
  | again {guarded : Guarded} {s s₁ s' : State} {result : Result}
      (h : ask e guarded.line Value.isTruthy guarded.condition s = (.ok true, s₁))
      (hturn : Executes e (.andThen (.block guarded.number guarded.body) (.repeating guarded))
        (s₁.after e.functions (.held guarded.line.number (String.ofList guarded.condition)))
        result s') :
      Executes e (.repeating guarded) s result s'
  -- Once a clause is taken, the conditions behind it are not evaluated.
  | clause_error {guarded : Guarded} {others : Clauses} {s s' : State} {err : ScriptError}
      (h : ask e guarded.line Value.isTruthy guarded.condition s = (.error err, s')) :
      Executes e (.clause guarded others) s (.error err) s'
  | take {guarded : Guarded} {others : Clauses} {s s₁ s' : State} {result : Result}
      (h : ask e guarded.line Value.isTruthy guarded.condition s = (.ok true, s₁))
      (hbody : Executes e (.block guarded.number guarded.body) s₁ result s') :
      Executes e (.clause guarded others) s result s'
  | pass {guarded : Guarded} {others : Clauses} {s s₁ s' : State} {result : Result}
      (h : ask e guarded.line Value.isTruthy guarded.condition s = (.ok false, s₁))
      (hothers : Executes e (.clauses (guarded.number + guarded.body.written.length) others)
        s₁ result s') :
      Executes e (.clause guarded others) s result s'
  | noClause {number : Nat} {s : State} : Executes e (.clauses number .nil) s (.ok none) s
  | elifClause {number : Nat} {condition : List Char} {row : Row (some (.elifClause condition))}
      {body : Block} {others : Clauses} {s s' : State} {result : Result}
      (hclause : Executes e (.clause (row.guarded number condition body) others) s result s') :
      Executes e (.clauses number (.elifClause row body others)) s result s'
  | elseClause {number : Nat} {row : Row (some .elseClause)} {body : Block} {s s' : State}
      {result : Result}
      (hbody : Executes e (.block (number + row.written.length) body) s result s') :
      Executes e (.clauses number (.elseClause row body)) s result s'

/-! ### The flag -/

lemma ask_of_cancelled {α : Type} (line : Line) (property : Value → Except RuntimeError α)
    (source : List Char) {s : State} (hs : s.world.cancelled = true) :
    ask e line property source s = (.error ⟨line.number, .cancelled⟩, s) := by
  unfold ask
  rw [e.perform_of_cancelled source hs]

lemma askRange_of_cancelled (line : Line) (name start stop : List Char) (step : Option (List Char))
    {s : State} (hs : s.world.cancelled = true) :
    (askRange e line name start stop step s).2 = s := by
  unfold askRange
  split
  · rfl
  · rw [ask_of_cancelled line _ start hs]
    rfl

/-- The flag stays set. -/
lemma Executes.cancelled {task : Task} {s s' : State} {result : Result}
    (h : Executes e task s result s') (hs : s.world.cancelled = true) :
    s'.world.cancelled = true := by
  have hask {α : Type} {line : Line} {property : Value → Except RuntimeError α} {source : List Char}
      {s s' : State} {answer : Except ScriptError α}
      (h : ask e line property source s = (answer, s')) (hs : s.world.cancelled = true) :
        s'.world.cancelled = true := by
    rw [ask_of_cancelled line property source hs] at h
    cases h
    exact hs
  have hrange {line : Line} {name start stop : List Char} {step : Option (List Char)}
      {s s' : State} {answer : Except ScriptError Range}
      (h : askRange e line name start stop step s = (answer, s')) (hs : s.world.cancelled = true) :
      s'.world.cancelled = true := by
    have hstate := askRange_of_cancelled (e := e) line name start stop step hs
    rw [h] at hstate
    exact (congrArg (·.world.cancelled) hstate).trans hs
  have hafter (event : Event) {s : State} (hs : s.world.cancelled = true) :
      (s.after e.functions event).world.cancelled = true :=
    World.cancelled_foldl_after hs [event]
  induction h with
  | statement h => exact hask h hs
  | forLoop_error h => exact hrange h hs
  | forLoop h _ ih => exact ih (hrange h hs)
  | whileLoop _ ih => exact ih hs
  | chain _ ih => exact ih hs
  | nil => exact hs
  | cons _ ih => exact ih hs
  | stop _ ih => exact ih hs
  | next _ _ ihFirst ihSecond => exact ihSecond (ihFirst hs)
  | past => exact hs
  | count _ _ ih => exact ih (hafter _ hs)
  | repeating_error h => exact hask h hs
  | done h => exact hask h hs
  | again h _ ih => exact ih (hafter _ (hask h hs))
  | clause_error h => exact hask h hs
  | take h _ ih => exact ih (hask h hs)
  | pass h _ ih => exact ih (hask h hs)
  | noClause => exact hs
  | elifClause _ ih => exact ih hs
  | elseClause _ ih => exact ih hs

lemma Executes.not_cancelled {task : Task} {s s' : State} {result : Result}
    (h : Executes e task s result s') (hs' : s'.world.cancelled = false) :
    s.world.cancelled = false := by
  rw [← Bool.not_eq_true] at hs' ⊢
  exact fun hs => hs' (h.cancelled hs)

end Reckoner.Script
