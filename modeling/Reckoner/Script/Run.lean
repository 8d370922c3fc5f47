import Reckoner.Engine
import Reckoner.Script.Header
import Reckoner.Script.Outline

/-!
# Running scripts

The items of a script run in order. A script may loop for ever, so that it is run for a number of
turns; a run that needs more is told apart from one that fails.
-/

namespace Reckoner.Script

/-- What a script works on. -/
structure State where
  context : Context
  world : World

/-- Why a run stopped early. -/
inductive Stop where
  | failed (error : ScriptError)
  /-- More turns are needed. -/
  | exhausted

/-- A run of a part of a script: it stops early or has a result, and leaves the state changed either
way. -/
abbrev Run := ExceptT Stop (StateM State)

namespace Run

/-- Stops with an error of a line. -/
def fail {α : Type} (line : Line) (error : EvalError) : Run α :=
  throw (.failed ⟨line.number, .ofEval (String.ofList line.text) error⟩)

/-- Stops because a line is out of place. -/
def malformed {α : Type} (line : Line) (details : String) : Run α :=
  fail line (.parse (.malformedBlock details))

/-- Stops at a line if the world asks for it. -/
def poll (line : Line) : Run Unit := do
  if (← get).world.cancelled then throw (.failed ⟨line.number, .cancelled⟩)

/-- Notes an event. -/
def note (e : Event) : Run Unit :=
  modify fun s => { s with world := s.world.record e }

/-- Runs a statement of a line. -/
def evaluate (e : Engine) (line : Line) (source : List Char) : Run Value := fun s =>
  match (e.evaluate s.context source).run s.world with
  | (.ok (v, context), world) => (.ok v, ⟨context, world⟩)
  | (.error error, world) => (.error (.failed ⟨line.number, error⟩), ⟨s.context, world⟩)

/-- A property of a value, which fails on the line that asked for it. -/
def ofValue {α : Type} (line : Line) : Except RuntimeError α → Run α
  | .ok a => pure a
  | .error error => fail line (.runtime error)

/-- Evaluates a text of a line to a real number. -/
def number (e : Engine) (line : Line) (source : List Char) : Run Float := do
  ofValue line (← evaluate e line source).toReal

/-- Evaluates a text of a line as a condition. -/
def condition (e : Engine) (line : Line) (source : List Char) : Run Bool := do
  ofValue line (← evaluate e line source).isTruthy

/-- The header that a line is, if it is one. -/
def header (line : Line) : Run (Option Header) :=
  match Header.read line.text with
  | .ok h => pure h
  | .error error => fail line (.parse error)

end Run

/-! ### Chains -/

/-- A clause of a chain; the last one may come without a condition. -/
structure Clause where
  condition : Option (List Char)
  item : Item

/-- Fails unless something belongs to an item. -/
def requireBody (item : Item) : Run Unit := do
  if item.body.isEmpty then Run.malformed item.line "expected an indented block"

/-- The clauses at the front of items that continue a chain of the given indentation, and the items
behind them. -/
def moreClauses (indent : Nat) : List Item → Run (List Clause × List Item)
  | [] => return ([], [])
  | item :: rest => do
    if item.line.indent = indent then
      match ← Run.header item.line with
      | some (.elifClause condition) =>
        requireBody item
        let (clauses, behind) ← moreClauses indent rest
        return (⟨some condition, item⟩ :: clauses, behind)
      | some .elseClause =>
        requireBody item
        return ([⟨none, item⟩], rest)
      | _ => return ([], item :: rest)
    else return ([], item :: rest)

/-- The body of the first clause whose condition holds. -/
def chooseClause (e : Engine) : List Clause → Run (Option (List Item))
  | [] => return none
  | ⟨none, item⟩ :: _ => return some item.body
  | ⟨some condition, item⟩ :: rest => do
    if ← Run.condition e item.line condition then return some item.body
    else chooseClause e rest

/-! ### Counting loops -/

/-- The numbers that a loop counts. -/
structure Range where
  first : Float
  last : Float
  step : Float

/-- Whether a number is past the end of a range. -/
def Range.isPast (r : Range) (x : Float) : Bool :=
  (r.step > 0 && x > r.last) || (r.step < 0 && x < r.last)

/-- The number of a turn, counted from zero. -/
def Range.value (r : Range) (turn : Float) : Float :=
  Binary64.fusedMulAdd r.step turn r.first

/-- The range of a loop header, whose bounds are evaluated in order. -/
def loopRange (e : Engine) (line : Line) (name start stop : List Char) (step : Option (List Char)) :
    Run Range := do
  let variableName := String.ofList name
  if e.functions.isFunction variableName then Run.fail line (.parse (.invalidTarget variableName))
  let first ← Run.number e line start
  let last ← Run.number e line stop
  let step ← match step with
    | some source => Run.number e line source
    | none => pure 1
  if !first.isFinite || !last.isFinite || !step.isFinite then
    Run.fail line (.runtime (.invalidArgument "loop bounds and step must be finite"))
  if step == 0 then
    Run.fail line (.runtime (.invalidArgument "loop step must not be zero"))
  return { first, last, step }

/-! ### Items -/

mutual

/-- Runs items in order, given the last value so far; the result is the last value that was
produced. -/
def runItems (e : Engine) : Nat → Option Value → List Item → Run (Option Value)
  | 0, _, _ => throw .exhausted
  | _ + 1, last, [] => return last
  | turns + 1, last, item :: rest => do
    Run.poll item.line
    match ← Run.header item.line with
    | none =>
      match item.body with
      | deeper :: _ => Run.malformed deeper.line "unexpected indentation"
      | [] =>
        let v ← Run.evaluate e item.line item.line.text
        runItems e turns (some v) rest
    | some header =>
      requireBody item
      match header with
      | .forLoop name start stop step =>
        let range ← loopRange e item.line name start stop step
        let produced ← runFor e turns item.line (String.ofList name) range item.body 0 none
        runItems e turns (produced.or last) rest
      | .whileLoop condition =>
        let produced ← runWhile e turns item.line condition item.body none
        runItems e turns (produced.or last) rest
      | .ifClause condition =>
        let (clauses, behind) ← moreClauses item.line.indent rest
        match ← chooseClause e (⟨some condition, item⟩ :: clauses) with
        | some body =>
          let produced ← runItems e turns none body
          runItems e turns (produced.or last) behind
        | none => runItems e turns last behind
      | .elifClause _ | .elseClause =>
        Run.malformed item.line "'elif' or 'else' without a matching 'if'"

/-- Runs a counting loop from a turn on. The number of a turn does not depend on what the body does
to the variable. -/
def runFor (e : Engine) : Nat → Line → String → Range → List Item → Float → Option Value →
    Run (Option Value)
  | 0, _, _, _, _, _, _ => throw .exhausted
  | turns + 1, line, name, range, body, turn, last => do
    let x := range.value turn
    if range.isPast x then return last
    else
      Run.poll line
      Run.note (.counted line.number name x)
      modify fun s => { s with context := s.context.set name (.ofReal x) }
      let produced ← runItems e turns none body
      runFor e turns line name range body (turn + 1) (produced.or last)

/-- Runs a loop as long as its condition holds. -/
def runWhile (e : Engine) : Nat → Line → List Char → List Item → Option Value → Run (Option Value)
  | 0, _, _, _, _ => throw .exhausted
  | turns + 1, line, condition, body, last => do
    if ← Run.condition e line condition then
      Run.poll line
      Run.note (.held line.number (String.ofList condition))
      let produced ← runItems e turns none body
      runWhile e turns line condition body (produced.or last)
    else return last

end

/-- Fails if a later line is less deep than the first one. -/
def requireFirstLeast : List Line → Run Unit
  | [] => return
  | first :: rest => do
    if rest.any (·.indent < first.indent) then Run.malformed first "unexpected indentation"

/-- Runs the lines of a script for at most so many turns. -/
def runLines (e : Engine) (turns : Nat) (lines : List Line) : Run (Option Value) := do
  requireFirstLeast lines
  runItems e turns none (outline lines)

end Reckoner.Script

namespace Reckoner

/-- Runs a script for at most so many turns. -/
def Engine.runScript (e : Engine) (turns : Nat) (source : List Char) : Script.Run (Option Value) :=
  Script.runLines e turns (Script.codeLines source)

/-- More turns than any script takes in practice. -/
def Script.manyTurns : Nat := Nat.pow 10 18

end Reckoner
