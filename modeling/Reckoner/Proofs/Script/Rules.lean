import Reckoner.Proofs.Script.Tasks
import Reckoner.Proofs.Statement.Variables

/-!
# From rules to runs

One turn of a run takes a task apart as a rule does, so that a derivation gives a run with turns
enough.
-/

namespace Reckoner

namespace Script

variable {e : Engine} {turns number : Nat} {s s' : State}

lemma runFor_or (line : Line) (name : String) (range : Range) (body : List Item)
    (turns : Nat) (turn : Float) (v last : Option Value) :
    runFor e turns line name range body turn (v.or last)
      = (do
          let v ← runFor e turns line name range body turn v
          return v.or last) := by
  induction turns generalizing turn v with
  | zero => rfl
  | succ turns ih =>
    unfold runFor
    dsimp only
    split
    · rfl
    · simp only [bind_assoc, ← Option.or_assoc, ih]

lemma runWhile_or (line : Line) (condition : List Char) (body : List Item) (turns : Nat)
    (v last : Option Value) :
    runWhile e turns line condition body (v.or last)
      = (do
          let v ← runWhile e turns line condition body v
          return v.or last) := by
  induction turns generalizing v with
  | zero => rfl
  | succ turns ih =>
    unfold runWhile
    rw [bind_assoc]
    congr 1
    funext holds
    cases holds with
    | true => simp only [if_true, bind_assoc, ← Option.or_assoc, ih]
    | false => rfl

namespace Task

lemma run_nil (e : Engine) (turns number : Nat) :
    (Task.block number .nil).run e (turns + 1) = pure none := by
  rw [Task.run, Block.items]
  rfl

lemma run_cons {command : Command} {rest : Block} {indent : Nat} (e : Engine) (turns number : Nat)
    (h : (Block.cons command rest).Fits indent) :
    (Task.block number (.cons command rest)).run e (turns + 1)
      = (Task.andThen (.command number command)
          (.block (number + command.written.length) rest)).run e turns := by
  rw [Task.run, Block.items, Command.runItems_items turns number command h.1 (rest.apart_items _)]
  conv_rhs => rw [Task.run]
  congr 1
  funext v
  exact runItems_or turns v none _

lemma run_past {loop : Counting} {turn : Float} (e : Engine) (turns : Nat)
    (h : loop.range.isPast (loop.range.value turn) = true) :
    (Task.counting loop turn).run e (turns + 1) = pure none := by
  rw [Task.run, runFor]
  simp [h]

lemma run_count {loop : Counting} {turn : Float} (e : Engine) (turns : Nat)
    (h : loop.range.isPast (loop.range.value turn) = false) (hs : s.world.cancelled = false) :
    ((Task.counting loop turn).run e (turns + 1)).run s
      = ((Task.andThen (.block loop.number loop.body) (.counting loop (turn + 1))).run e turns).run
        (s.after e.functions (.counted loop.line.number loop.name (loop.range.value turn))) := by
  have hrest : (Task.andThen (.block loop.number loop.body) (.counting loop (turn + 1))).run e turns
      = runItems e turns none (loop.body.items loop.number) >>= fun v =>
        runFor e turns loop.line loop.name loop.range (loop.body.items loop.number) (turn + 1) v :=
    congrArg (_ >>= ·) (funext fun v => (runFor_or _ _ _ _ turns (turn + 1) none v).symm)
  rw [hrest]
  change (runFor e (turns + 1) _ _ _ _ _ _).run s = _
  rw [runFor]
  simp only [h, Bool.false_eq_true, if_false, Option.or_none]
  rw [run_poll_bind hs]
  rfl

lemma run_repeating (guarded : Guarded) (e : Engine) (turns : Nat) (s : State) :
    ((Task.repeating guarded).run e (turns + 1)).run s
      = match ask e guarded.line Value.isTruthy guarded.condition s with
        | (.ok true, s₁) =>
          if s₁.world.cancelled then (.error (.failed ⟨guarded.line.number, .cancelled⟩), s₁)
          else ((Task.andThen (.block guarded.number guarded.body) (.repeating guarded)).run e
            turns).run
              (s₁.after e.functions (.held guarded.line.number (String.ofList guarded.condition)))
        | (.ok false, s₁) => (.ok none, s₁)
        | (.error err, s₁) => (.error (.failed err), s₁) := by
  have hrest : (Task.andThen (.block guarded.number guarded.body) (.repeating guarded)).run e turns
      = runItems e turns none (guarded.body.items guarded.number) >>= fun v =>
        runWhile e turns guarded.line guarded.condition (guarded.body.items guarded.number) v :=
    congrArg (_ >>= ·) (funext fun v => (runWhile_or _ _ _ turns none v).symm)
  rw [hrest]
  change (runWhile e (turns + 1) _ _ _ _).run s = _
  rw [runWhile, run_bind_of_toRun (run_condition _ _ s)]
  cases ask e guarded.line Value.isTruthy guarded.condition s with
  | mk answer s₁ =>
    cases answer with
    | error err => rfl
    | ok holds =>
      cases holds with
      | false => rfl
      | true =>
        dsimp only
        rw [if_pos rfl]
        cases hs : s₁.world.cancelled with
        | true =>
          rw [Run.run_bind, Run.run_poll, hs]
          rfl
        | false =>
          rw [run_poll_bind hs]
          simp only [Bool.false_eq_true, if_false, Option.or_none]
          rfl

lemma run_clause (guarded : Guarded) (others : Clauses) (e : Engine) (turns : Nat) (s : State) :
    ((Task.clause guarded others).run e turns).run s
      = match ask e guarded.line Value.isTruthy guarded.condition s with
        | (.ok true, s₁) => ((Task.block guarded.number guarded.body).run e turns).run s₁
        | (.ok false, s₁) =>
          ((Task.clauses (guarded.number + guarded.body.written.length) others).run e turns).run s₁
        | (.error err, s₁) => (.error (.failed err), s₁) := by
  change ((Run.condition e guarded.line guarded.condition >>= fun holds =>
      if holds then pure (some (guarded.body.items guarded.number))
      else chooseClause e (others.list _)) >>= _).run s = _
  rw [bind_assoc, run_bind_of_toRun (run_condition _ _ s)]
  cases ask e guarded.line Value.isTruthy guarded.condition s with
  | mk answer s₁ =>
    cases answer with
    | error err => rfl
    | ok holds =>
      cases holds with
      | false => rfl
      | true => rfl

lemma run_statement {row : Row none} (e : Engine) (turns number : Nat)
    (hs : s.world.cancelled = false) :
    ((Task.command number (.statement row)).run e turns).run s
      = Outcome.toRun ((ask e (row.line number) .ok (row.line number).text s).1.map some,
        (ask e (row.line number) .ok (row.line number).text s).2) := by
  change (Run.poll _ >>= fun _ => Run.evaluate e _ _ >>= fun v => pure (some v)).run s = _
  rw [run_poll_bind hs, run_bind_of_toRun (run_evaluate _ _ s)]
  cases ask e (row.line number) .ok (row.line number).text s with
  | mk answer s₁ =>
    cases answer with
    | ok v => rfl
    | error err => rfl

lemma run_forLoop {name start stop : List Char} {step : Option (List Char)}
    {row : Row (some (.forLoop name start stop step))} {body : Block} (e : Engine)
    (turns number : Nat) (hs : s.world.cancelled = false) :
    ((Task.command number (.forLoop row body)).run e turns).run s
      = match askRange e (row.line number) name start stop step s with
        | (.ok range, s₁) =>
          ((Task.counting ⟨row.line number, String.ofList name, range,
            number + row.written.length, body⟩ 0).run e turns).run s₁
        | (.error err, s₁) => (.error (.failed err), s₁) := by
  change (Run.poll _ >>= _).run s = _
  rw [run_poll_bind hs, run_bind_of_toRun (run_loopRange _ _ _ _ _ s)]
  cases askRange e (row.line number) name start stop step s with
  | mk answer s₁ =>
    cases answer with
    | ok range => rfl
    | error err => rfl

end Task

/-! ### From rules to runs -/

end Script

end Reckoner
