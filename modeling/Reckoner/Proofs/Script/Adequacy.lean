import Reckoner.Proofs.Script.Rules
import Reckoner.Proofs.Script.Sequence

/-!
# Scripts do what they mean

A run that comes to an end gives a derivation from the rules, and a derivation gives a run with
turns enough.
-/

namespace Reckoner

namespace Script

variable {e : Engine} {turns number : Nat} {s s' : State}

/-- Whether what a task comes to within some turns follows from the rules. -/
def Task.IsSound (e : Engine) (turns : Nat) (task : Task) : Prop :=
  task.Fits → ∀ s result s', (task.run e turns).run s = Outcome.toRun (result, s') →
    s'.world.cancelled = false → Executes e task s result s'

namespace Task.IsSound

variable {first second : Task} {guarded : Guarded} {others : Clauses}

lemma andThen (hfirst : IsSound e turns first) (hsecond : IsSound e turns second) :
    IsSound e turns (.andThen first second) := by
  intro hfits s result s' hrun hs'
  -- The second task starts from an unset flag because the flag is unset where it ends.
  change (first.run e turns >>= fun v => second.run e turns >>= fun v' => pure (v'.or v)).run s
    = _ at hrun
  rw [Run.run_bind] at hrun
  cases h : (first.run e turns).run s with
  | mk answer s₁ =>
    rw [h] at hrun
    cases answer with
    | error stop =>
      cases result with
      | ok v => cases hrun
      | error err =>
        cases hrun
        exact .stop (hfirst hfits.1 s (.error err) _ h hs')
    | ok v =>
      have hmap : Ends (fun _ => second.run e turns >>= fun v' => pure (v'.or v)) s₁ result s' :=
        ⟨turns, hrun⟩
      obtain ⟨result', ⟨_, h'⟩, rfl⟩ := (ends_map (.const _) _).1 hmap
      have hrest := hsecond hfits.2 s₁ result' s' h' hs'
      exact .next (hfirst hfits.1 s (.ok v) s₁ h (hrest.not_cancelled hs')) hrest

/-- A block takes a turn for each command. -/
lemma block (h : ∀ task, IsSound e turns task) (number : Nat) (block : Block) :
    IsSound e (turns + 1) (.block number block) := by
  intro hfits s result s' hrun hs'
  cases block with
  | nil =>
    rw [run_nil] at hrun
    cases Outcome.eq_of_toRun (.ok none, s) hrun
    exact .nil
  | cons command rest =>
    obtain ⟨indent, hcommand, hrest⟩ := hfits
    rw [run_cons e turns number ⟨hcommand, hrest⟩] at hrun
    refine .cons (h _ ?_ s result s' hrun hs')
    exact ⟨⟨indent, hcommand⟩, indent, hrest⟩

lemma counting (h : ∀ task, IsSound e turns task) (loop : Counting) (turn : Float) :
    IsSound e (turns + 1) (.counting loop turn) := by
  intro hfits s result s' hrun hs'
  cases hpast : loop.range.isPast (loop.range.value turn) with
  | true =>
    rw [run_past e turns hpast] at hrun
    cases Outcome.eq_of_toRun (.ok none, s) hrun
    exact .past hpast
  | false =>
    have hs : s.world.cancelled = false := by
      have hpoll : (runFor e (turns + 1) loop.line loop.name loop.range
        (loop.body.items loop.number) turn none).run s = _ := hrun
      rw [runFor] at hpoll
      simp only [hpast, Bool.false_eq_true, if_false] at hpoll
      exact cancelled_of_run_poll hpoll hs'
    rw [run_count e turns hpast hs] at hrun
    refine .count hpast (h _ ?_ _ result s' hrun hs')
    exact ⟨hfits, hfits⟩

lemma repeating (h : ∀ task, IsSound e turns task) (guarded : Guarded) :
    IsSound e (turns + 1) (.repeating guarded) := by
  intro hfits s result s' hrun hs'
  rw [run_repeating] at hrun
  cases hask : ask e guarded.line Value.isTruthy guarded.condition s with
  | mk answer s₁ =>
    rw [hask] at hrun
    cases answer with
    | error err =>
      cases Outcome.eq_of_toRun (.error err, s₁) hrun
      exact .repeating_error hask
    | ok holds =>
      cases holds with
      | false =>
        cases Outcome.eq_of_toRun (.ok none, s₁) hrun
        exact .done hask
      | true =>
        dsimp only at hrun
        split at hrun
        · rename_i hs₁
          cases Outcome.eq_of_toRun (.error ⟨guarded.line.number, .cancelled⟩, s₁) hrun
          rw [hs₁] at hs'
          cases hs'
        · refine .again hask (h _ ?_ _ result s' hrun hs')
          exact ⟨hfits, hfits⟩

/-- A clause is its body or the clauses behind it. -/
lemma clause (hbody : IsSound e turns (.block guarded.number guarded.body))
    (hothers : IsSound e turns (.clauses (guarded.number + guarded.body.written.length) others)) :
    IsSound e turns (.clause guarded others) := by
  intro hfits s result s' hrun hs'
  rw [run_clause] at hrun
  cases hask : ask e guarded.line Value.isTruthy guarded.condition s with
  | mk answer s₁ =>
    rw [hask] at hrun
    cases answer with
    | error err =>
      cases Outcome.eq_of_toRun (.error err, s₁) hrun
      exact .clause_error hask
    | ok holds =>
      cases holds with
      | true => exact .take hask (hbody hfits.1 s₁ result s' hrun hs')
      | false => exact .pass hask (hothers hfits.2 s₁ result s' hrun hs')

lemma clauses (hblock : ∀ number block, IsSound e turns (.block number block)) (number : Nat)
    (clauses : Clauses) : IsSound e turns (.clauses number clauses) := by
  induction clauses generalizing number with
  | nil =>
    intro hfits s result s' hrun hs'
    cases Outcome.eq_of_toRun (.ok none, s) hrun
    exact .noClause
  | elifClause row body others ih =>
    intro hfits s result s' hrun hs'
    obtain ⟨indent, -, hbody, hothers⟩ := hfits
    obtain ⟨deeper, -, hdeeper⟩ := hbody.fits
    apply Executes.elifClause
    refine clause (hblock _ _) (ih _) ?_ s result s' hrun hs'
    exact ⟨⟨deeper, hdeeper⟩, indent, hothers⟩
  | elseClause row body =>
    intro hfits s result s' hrun hs'
    obtain ⟨indent, -, hbody⟩ := hfits
    obtain ⟨deeper, -, hdeeper⟩ := hbody.fits
    exact .elseClause (hblock _ _ ⟨deeper, hdeeper⟩ s result s' hrun hs')

lemma command (hblock : ∀ number block, IsSound e turns (.block number block))
    (hcounting : ∀ loop turn, IsSound e turns (.counting loop turn))
    (hrepeating : ∀ guarded, IsSound e turns (.repeating guarded)) (number : Nat)
    (command : Command) : IsSound e turns (.command number command) := by
  intro hfits s result s' hrun hs'
  cases command with
  | statement row =>
    have hs : s.world.cancelled = false := cancelled_of_run_poll hrun hs'
    rw [run_statement e turns number hs] at hrun
    cases Outcome.eq_of_toRun (_, _) hrun
    exact .statement rfl
  | @forLoop name start stop step row body =>
    obtain ⟨indent, -, hbody⟩ := hfits
    obtain ⟨deeper, -, hdeeper⟩ := hbody.fits
    have hs : s.world.cancelled = false := cancelled_of_run_poll hrun hs'
    rw [run_forLoop e turns number hs] at hrun
    cases hask : askRange e (row.line number) name start stop step s with
    | mk answer s₁ =>
      rw [hask] at hrun
      cases answer with
      | error err =>
        cases Outcome.eq_of_toRun (.error err, s₁) hrun
        exact .forLoop_error hask
      | ok range => exact .forLoop hask (hcounting _ 0 ⟨deeper, hdeeper⟩ s₁ result s' hrun hs')
  | whileLoop row body =>
    obtain ⟨indent, -, hbody⟩ := hfits
    obtain ⟨deeper, -, hdeeper⟩ := hbody.fits
    have hs : s.world.cancelled = false := cancelled_of_run_poll hrun hs'
    have hloop := (run_poll_bind hs).symm.trans hrun
    exact .whileLoop (hrepeating _ ⟨deeper, hdeeper⟩ s result s' hloop hs')
  | chain row body others =>
    obtain ⟨indent, -, hbody, hothers⟩ := hfits
    obtain ⟨deeper, -, hdeeper⟩ := hbody.fits
    have hs : s.world.cancelled = false := cancelled_of_run_poll hrun hs'
    have hchosen := (run_poll_bind hs).symm.trans hrun
    refine .chain (clause (hblock _ _) (clauses hblock _ others) ?_ s result s' hchosen hs')
    exact ⟨⟨deeper, hdeeper⟩, indent, hothers⟩

end Task.IsSound

end Script

end Reckoner
