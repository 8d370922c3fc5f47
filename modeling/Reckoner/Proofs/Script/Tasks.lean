import Reckoner.Proofs.Script.Execution
import Reckoner.Proofs.Script.Items
import Reckoner.Proofs.Script.Traces

/-!
# Parts of a run

Each task of a script is done by a part of a run, from the last value so far. What a part does with
another last value is the same but for that value.
-/

namespace Reckoner

namespace Script

variable {e : Engine} {turns number : Nat} {s s' : State}

/-! ### Runs of expressions -/

/-- An outcome as that of a run. -/
def Outcome.toRun {α : Type} (outcome : Outcome α) : Except Stop α × State :=
  (outcome.1.mapError .failed, outcome.2)

lemma Outcome.eq_of_toRun {α : Type} (outcome : Outcome α) {outcome' : Outcome α}
    (h : outcome.toRun = outcome'.toRun) : outcome = outcome' := by
  obtain ⟨err | a, s⟩ := outcome
  · obtain ⟨err' | a', s'⟩ := outcome'
    · cases h
      rfl
    · cases h
  · obtain ⟨err' | a', s'⟩ := outcome'
    · cases h
    · cases h
      rfl

/-- An answer decides how a run goes on. -/
lemma run_bind_of_toRun {α β : Type} {x : Run α} {f : α → Run β} {outcome : Outcome α} :
    x.run s = outcome.toRun → (x >>= f).run s
      = match outcome with
        | (.ok a, s₁) => (f a).run s₁
        | (.error err, s₁) => (.error (.failed err), s₁) := by
  intro hx
  obtain ⟨answer, s₁⟩ := outcome
  rw [Run.run_bind, hx]
  cases answer with
  | ok a => rfl
  | error err => rfl

lemma run_bind_toRun {α β : Type} {x : Run α} {f : α → Run β} {outcome : Outcome α}
    {next : α → State → Outcome β} (hx : x.run s = outcome.toRun)
    (hf : ∀ a s, (f a).run s = (next a s).toRun) :
    (x >>= f).run s = (outcome.andThen next).toRun := by
  rw [run_bind_of_toRun hx]
  obtain ⟨answer, s₁⟩ := outcome
  cases answer with
  | ok a => exact hf a s₁
  | error err => rfl

lemma run_poll_bind {α : Type} {line : Line} {f : Unit → Run α} (hs : s.world.cancelled = false) :
    (Run.poll line >>= f).run s = (f ()).run s := by
  rw [Run.run_bind, Run.run_poll, hs]
  rfl

lemma cancelled_of_run_poll {α : Type} {line : Line} {f : Unit → Run α} {answer : Except Stop α}
    (hrun : (Run.poll line >>= f).run s = (answer, s')) (hs' : s'.world.cancelled = false) :
    s.world.cancelled = false := by
  rw [Run.run_bind, Run.run_poll] at hrun
  cases hs : s.world.cancelled with
  | false => rfl
  | true =>
    rw [hs] at hrun
    cases hrun
    rw [hs] at hs'
    cases hs'

/-- A property of the value of an expression. -/
lemma run_ask {α : Type} (line : Line) (property : Value → Except RuntimeError α)
    (source : List Char) (s : State) :
    (Run.evaluate e line source >>= fun v => Run.ofValue line (property v)).run s
      = (ask e line property source s).toRun := by
  unfold ask
  rw [Run.run_bind, Run.evaluate_eq_perform]
  cases e.perform s source with
  | mk result s₁ =>
    cases result with
    | error err => rfl
    | ok v =>
      change (Run.ofValue line (property v)).run s₁ = _
      dsimp only
      cases property v with
      | ok a => rfl
      | error err => rfl

lemma run_evaluate (line : Line) (source : List Char) (s : State) :
    (Run.evaluate e line source).run s = (ask e line .ok source s).toRun := by
  have h := run_ask (e := e) line .ok source s
  change (Run.evaluate e line source >>= pure).run s = _ at h
  rwa [bind_pure] at h

lemma run_number (line : Line) (source : List Char) (s : State) :
    (Run.number e line source).run s = (ask e line Value.toReal source s).toRun :=
  run_ask line Value.toReal source s

lemma run_condition (line : Line) (source : List Char) (s : State) :
    (Run.condition e line source).run s = (ask e line Value.isTruthy source s).toRun :=
  run_ask line Value.isTruthy source s

/-- A check before the rest of a part. -/
lemma run_guard {α : Type} {p : Prop} [Decidable p] (line : Line) (err : EvalError)
    {f : Unit → Run α} {outcome : Outcome α} (hf : (f ()).run s = outcome.toRun) :
    (if p then Run.fail line err >>= f else f ()).run s
      = (if p then (.error (line.failure err), s) else outcome : Outcome α).toRun := by
  split
  · rfl
  · exact hf

lemma run_loopRange (line : Line) (name start stop : List Char) (step : Option (List Char))
    (s : State) :
    (loopRange e line name start stop step).run s
      = (askRange e line name start stop step s).toRun := by
  unfold loopRange askRange
  apply run_guard
  apply run_bind_toRun (run_number line start s)
  intro first s
  apply run_bind_toRun (run_number line stop s)
  intro last s
  cases step with
  | none => exact run_bind_toRun rfl fun step s => run_guard _ _ (run_guard _ _ rfl)
  | some source =>
    exact run_bind_toRun (run_number line source s) fun step s => run_guard _ _ (run_guard _ _ rfl)

/-! ### Runs of tasks -/

/-- Runs the first clause whose condition holds. -/
def runChosen (e : Engine) (turns : Nat) (clauses : List Clause) : Run (Option Value) := do
  match ← chooseClause e clauses with
  | some body => runItems e turns none body
  | none => return none

/-- Does a task within some turns. -/
def Task.run (e : Engine) : Task → Nat → Run (Option Value)
  | .command number (.statement row), _ => do
    Run.poll (row.line number)
    return some (← Run.evaluate e (row.line number) (row.line number).text)
  | .command number (@Command.forLoop name start stop step row body), turns => do
    Run.poll (row.line number)
    let range ← loopRange e (row.line number) name start stop step
    runFor e turns (row.line number) (String.ofList name) range
      (body.items (number + row.written.length)) 0 none
  | .command number (@Command.whileLoop condition row body), turns => do
    Run.poll (row.line number)
    runWhile e turns (row.line number) condition (body.items (number + row.written.length)) none
  | .command number (@Command.chain condition row body others), turns => do
    Run.poll (row.line number)
    runChosen e turns (⟨some condition, .mk (row.line number)
        (body.items (number + row.written.length))⟩
      :: others.list (number + row.written.length + body.written.length))
  | .block number b, turns => runItems e turns none (b.items number)
  | .andThen first second, turns => do
    let v ← first.run e turns
    let v' ← second.run e turns
    return v'.or v
  | .counting loop turn, turns =>
    runFor e turns loop.line loop.name loop.range (loop.body.items loop.number) turn none
  | .repeating guarded, turns =>
    runWhile e turns guarded.line guarded.condition (guarded.body.items guarded.number) none
  | .clause guarded others, turns =>
    runChosen e turns (⟨some guarded.condition, .mk guarded.line
        (guarded.body.items guarded.number)⟩
      :: others.list (guarded.number + guarded.body.written.length))
  | .clauses number others, turns => runChosen e turns (others.list number)

/-- Whether the lines of a task are well laid out. -/
def Task.Fits : Task → Prop
  | .command _ c => ∃ indent, c.Fits indent
  | .block _ b => ∃ indent, b.Fits indent
  | .andThen first second => first.Fits ∧ second.Fits
  | .counting loop _ => ∃ indent, loop.body.Fits indent
  | .repeating guarded => ∃ indent, guarded.body.Fits indent
  | .clause guarded others =>
    (∃ indent, guarded.body.Fits indent) ∧ ∃ indent, others.Fit indent
  | .clauses _ others => ∃ indent, others.Fit indent

lemma Row.header_line {header : Option Header} (row : Row header) (number : Nat) :
    Run.header (row.line number) = pure header := by
  unfold Run.header
  rw [show (row.line number).text = Text.trim row.raw from rfl, row.read_raw]

lemma Command.exists_items_eq (number : Nat) (command : Command) :
    ∃ item rest, command.items number = item :: rest
      ∧ item.line.continuesChain = false ∧ item.line.isMalformed = false := by
  have hrow {header : Option Header} (row : Row header)
      (hheader : ∀ h ∈ header, h.continuesChain = false) :
      (row.line number).continuesChain = false ∧ (row.line number).isMalformed = false := by
    unfold Line.continuesChain Line.isMalformed
    rw [show (row.line number).text = Text.trim row.raw from rfl, row.read_raw]
    cases header with
    | none => exact ⟨rfl, rfl⟩
    | some header => exact ⟨hheader header rfl, rfl⟩
  cases command with
  | statement row => exact ⟨_, _, rfl, hrow row nofun⟩
  | forLoop row body => exact ⟨_, _, rfl, hrow row (by rintro _ ⟨⟩; rfl)⟩
  | whileLoop row body => exact ⟨_, _, rfl, hrow row (by rintro _ ⟨⟩; rfl)⟩
  | chain row body others => exact ⟨_, _, rfl, hrow row (by rintro _ ⟨⟩; rfl)⟩

/-- No block goes on with the chain of a command before it. -/
lemma Block.apart_items (number : Nat) (block : Block) :
    ∀ item ∈ (block.items number).head?,
      item.line.continuesChain = false ∧ item.line.isMalformed = false := by
  cases block with
  | nil =>
    rw [Block.items]
    nofun
  | cons command rest =>
    obtain ⟨item, others, hitems, hitem⟩ := command.exists_items_eq number
    rw [Block.items, hitems]
    rintro _ ⟨⟩
    exact hitem

lemma Block.IsBody.requireBody {indent : Nat} {block : Block} (h : block.IsBody indent)
    (line : Line) (number : Nat) : requireBody (.mk line (block.items number)) = pure () := by
  cases block with
  | nil => cases h
  | cons command rest =>
    obtain ⟨item, others, hitems, -⟩ := command.exists_items_eq number
    rw [Block.items, hitems]
    rfl

lemma moreClauses_elifClause {indent : Nat} {item : Item} {items rest : List Item}
    {condition : List Char} {found : List Clause} (hindent : item.line.indent = indent)
    (hheader : Run.header item.line = pure (some (.elifClause condition)))
    (hbody : requireBody item = pure ()) (hitems : moreClauses indent items = pure (found, rest)) :
    moreClauses indent (item :: items) = pure (⟨some condition, item⟩ :: found, rest) := by
  rw [moreClauses, if_pos hindent, hheader, pure_bind]
  dsimp only
  rw [hbody, pure_bind, hitems, pure_bind]

lemma moreClauses_elseClause {indent : Nat} {item : Item} {items : List Item}
    (hindent : item.line.indent = indent)
    (hheader : Run.header item.line = pure (some .elseClause))
    (hbody : requireBody item = pure ()) :
    moreClauses indent (item :: items) = pure ([⟨none, item⟩], items) := by
  rw [moreClauses, if_pos hindent, hheader, pure_bind]
  dsimp only
  rw [hbody, pure_bind]

/-- The clauses of a chain are found among the items. -/
lemma Clauses.moreClauses_items {indent : Nat} (number : Nat) (clauses : Clauses)
    (h : clauses.Fit indent) {rest : List Item}
    (hrest : ∀ item ∈ rest.head?,
      item.line.continuesChain = false ∧ item.line.isMalformed = false) :
    moreClauses indent ((clauses.list number).map (·.item) ++ rest)
      = pure (clauses.list number, rest) := by
  induction clauses generalizing number with
  | nil =>
    rw [Clauses.list]
    exact moreClauses_of_apart indent hrest
  | elifClause row body others ih =>
    obtain ⟨hrow, hbody, hothers⟩ := h
    rw [Clauses.list, List.map_cons, List.cons_append]
    apply moreClauses_elifClause
    · exact hrow
    · exact row.header_line number
    · exact hbody.requireBody _ _
    · exact ih _ hothers
  | elseClause row body =>
    obtain ⟨hrow, hbody⟩ := h
    rw [Clauses.list, List.map_cons, List.cons_append]
    apply moreClauses_elseClause
    · exact hrow
    · exact row.header_line number
    · exact hbody.requireBody _ _

/-- The items of a command do what the command is to do. -/
lemma Command.runItems_items {indent : Nat} (turns number : Nat) (command : Command)
    (h : command.Fits indent) {rest : List Item}
    (hrest : ∀ item ∈ rest.head?,
      item.line.continuesChain = false ∧ item.line.isMalformed = false) :
    runItems e (turns + 1) none (command.items number ++ rest)
      = (do
          let v ← (Task.command number command).run e turns
          runItems e turns v rest) := by
  cases command with
  | statement row =>
    rw [Command.items, List.singleton_append, runItems_cons]
    simp only [runItem, Item.line, Item.body, row.header_line, Task.run, bind_assoc, pure_bind]
  | forLoop row body =>
    obtain ⟨hrow, hbody⟩ := h
    rw [Command.items, List.singleton_append, runItems_cons]
    simp only [runItem, Item.line, Item.body, row.header_line, hbody.requireBody, Task.run,
      Option.or_none, bind_assoc, pure_bind]
  | whileLoop row body =>
    obtain ⟨hrow, hbody⟩ := h
    rw [Command.items, List.singleton_append, runItems_cons]
    simp only [runItem, Item.line, Item.body, row.header_line, hbody.requireBody, Task.run,
      Option.or_none, bind_assoc, pure_bind]
  | chain row body others =>
    obtain ⟨rfl, hbody, hothers⟩ := h
    have hfound := Clauses.moreClauses_items
      (number + row.written.length + body.written.length) others hothers hrest
    rw [Command.items, List.cons_append, runItems_cons]
    simp only [runItem, Item.line, Item.body, row.header_line, hbody.requireBody, Task.run,
      runChosen, bind_assoc, pure_bind]
    congr 1
    funext _
    rw [show (row.line number).indent = indentation row.raw from rfl, hfound, pure_bind]
    congr 1
    funext chosen
    cases chosen with
    | none => rfl
    | some body => simp only [Option.or_none, bind_assoc, pure_bind]

end Script

end Reckoner
