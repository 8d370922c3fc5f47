import Reckoner.Proofs.Engine.Compositional

/-!
# The limit on levels

An expression may be evaluated on so many levels. To come to the limit ends the whole evaluation,
and nothing inside swallows that failure. So what ends otherwise has not come to the limit, and does
the same under any higher one.
-/

namespace Reckoner

section

variable {ε σ α β : Type} {limit : ε → Bool}

/-- Whether `y` does what `x` does from every state from which `x` does not come to the limit. -/
def Extends (limit : ε → Bool) (x y : ExceptT ε (StateM σ) α) : Prop :=
  ∀ s, (∃ err, (x.run s).1 = .error err ∧ limit err = true) ∨ y.run s = x.run s

namespace Extends

variable {x y z : ExceptT ε (StateM σ) α}

lemma refl (x : ExceptT ε (StateM σ) α) : Extends limit x x :=
  fun _ => .inr rfl

lemma of_limit {err : ε} (h : limit err = true) (y : ExceptT ε (StateM σ) α) :
    Extends limit (throw err) y :=
  fun _ => .inl ⟨err, rfl, h⟩

lemma trans (h : Extends limit x y) (h' : Extends limit y z) : Extends limit x z := by
  intro s
  rcases h s with hlimit | hsame
  · exact .inl hlimit
  · rw [← hsame]
    exact h' s

lemma run_bind (x : ExceptT ε (StateM σ) α) (f : α → ExceptT ε (StateM σ) β) (s : σ) :
    (x >>= f).run s
      = match x.run s with
        | (.ok a, s) => (f a).run s
        | (.error err, s) => (.error err, s) := by
  change ExceptT.bindCont f (x.run s).1 (x.run s).2 = _
  rcases x.run s with ⟨r, s'⟩
  cases r <;> rfl

/-- What follows need only be extended for results that there can be. -/
lemma bind_of_run {f g : α → ExceptT ε (StateM σ) β} (h : Extends limit x y)
    (hf : ∀ s a s', x.run s = (.ok a, s') → Extends limit (f a) (g a)) :
    Extends limit (x >>= f) (y >>= g) := by
  intro s
  rw [run_bind, run_bind]
  rcases h s with ⟨err, herr, hlimit⟩ | hsame
  · generalize x.run s = outcome at herr
    obtain ⟨result, s'⟩ := outcome
    cases herr
    exact .inl ⟨err, rfl, hlimit⟩
  · rw [hsame]
    cases hx : x.run s with
    | mk result s' =>
      cases result with
      | error err => exact .inr rfl
      | ok a => exact hf s a s' hx s'

lemma bind {f g : α → ExceptT ε (StateM σ) β} (h : Extends limit x y)
    (hf : ∀ a, Extends limit (f a) (g a)) : Extends limit (x >>= f) (y >>= g) :=
  h.bind_of_run fun _ a _ _ => hf a

/-- A run that has not come to the limit is a run of what extends it. -/
lemma run_eq (h : Extends limit x y) {s s' : σ} {result : Except ε α}
    (hrun : x.run s = (result, s')) (hlimit : ∀ err, result = .error err → limit err = false) :
    y.run s = (result, s') := by
  rcases h s with ⟨err, herr, htrue⟩ | hsame
  · rw [hrun] at herr
    rw [hlimit err herr] at htrue
    cases htrue
  · rw [hsame, hrun]

end Extends

end

/-! ### Levels of expressions -/

/-- Whether an expression failed because of too many levels. -/
def EvalError.isNestingLimit : EvalError → Bool
  | .runtime (.nestingLimit _) => true
  | _ => false

/-- Whether a statement failed because of too many levels. -/
def StatementError.isNestingLimit : StatementError → Bool
  | .cancelled => false
  | .failed _ cause => cause.isNestingLimit

lemma EvalError.isFatal_of_isNestingLimit {err : EvalError} (h : err.isNestingLimit = true) :
    err.isFatal = true := by
  cases err with
  | parse cause => cases h
  | cancelled => cases h
  | runtime cause =>
    cases cause with
    | nestingLimit depth => rfl
    | _ => cases h

lemma StatementError.isNestingLimit_ofEval (expression : String) (err : EvalError) :
    (ofEval expression err).isNestingLimit = err.isNestingLimit := by
  cases err <;> rfl

namespace Eval

variable {α β : Type}

/-- A failure because of the limit is fatal, so that it passes through every attempt. -/
lemma extends_recover {x y : Eval α} {k : Except EvalError α → Eval β}
    (h : Extends EvalError.isNestingLimit x y)
    (hk : ∀ err, err.isFatal = true → k (.error err) = throw err) :
    Extends EvalError.isNestingLimit (attempt x >>= k) (attempt y >>= k) := by
  intro w
  have hattempt (z : Eval α) : (attempt z >>= k).run w = (k (z.run w).1).run (z.run w).2 := by
    rw [run_bind]
    rfl
  rw [hattempt, hattempt]
  rcases h w with ⟨err, herr, hlimit⟩ | hsame
  · rw [herr, hk err (EvalError.isFatal_of_isNestingLimit hlimit)]
    exact .inl ⟨err, rfl, hlimit⟩
  · rw [hsame]
    exact .inr rfl

lemma compositional_extends : Compositional fun _ => Extends EvalError.isNestingLimit where
  pure _ := .refl _
  throw _ := .refl _
  bind := .bind
  poll := .refl _
  note _ := .refl _
  recover h hk _ := extends_recover h hk

end Eval

namespace Engine

/-- The engine with another limit on levels. -/
def withDepth (e : Engine) (depth : Nat) : Engine :=
  { e with options := { e.options with maxDepth := depth } }

/-- Without levels left an evaluation comes to the limit, unless it is stopped before. -/
lemma evaluateWithin_zero_extends (e e' : Engine) (levels : Nat) (c : Context)
    (source : List Char) :
    Extends EvalError.isNestingLimit (e.evaluateWithin 0 c source)
      (e'.evaluateWithin levels c source) := by
  have hlimit : EvalError.isNestingLimit e.depthError = true := rfl
  cases levels with
  | zero =>
    unfold evaluateWithin
    exact .bind (.refl _) fun _ => .of_limit hlimit _
  | succ levels =>
    unfold evaluateWithin
    exact .bind (.refl _) fun _ => .of_limit hlimit _

lemma evaluateExpression_extends (e : Engine) {depth depth' : Nat} (h : depth ≤ depth')
    (c : Context) (source : List Char) :
    Extends EvalError.isNestingLimit ((e.withDepth depth).evaluateExpression c source)
      ((e.withDepth depth').evaluateExpression c source) := by
  obtain ⟨more, rfl⟩ := Nat.exists_eq_add_of_le h
  have hlevels : depth + more + 1 = depth + 1 + more := by omega
  have hfunctions : (e.withDepth (depth + more)).functions = (e.withDepth depth).functions := rfl
  have hrun (c : Context) (text : List Char) :
      Extends EvalError.isNestingLimit ((e.withDepth depth).run c text)
        ((e.withDepth (depth + more)).run c text) :=
    .refl _
  change Extends _ ((e.withDepth depth).evaluateWithin (depth + 1) c source)
    ((e.withDepth (depth + more)).evaluateWithin (depth + more + 1) c source)
  rw [hlevels]
  exact evaluateWithin_related Eval.compositional_extends hfunctions rfl hrun
    (evaluateWithin_zero_extends _ _ more) (depth + 1) c source

lemma execute_extends (e : Engine) {depth depth' : Nat} (h : depth ≤ depth') (c : Context)
    (text : List Char) :
    Extends EvalError.isNestingLimit ((e.withDepth depth).execute c text)
      ((e.withDepth depth').execute c text) := by
  by_cases htext : text = []
  · rw [htext, execute_nil, execute_nil]
    exact .refl _
  · rw [execute_of_ne_nil htext, execute_of_ne_nil htext]
    apply Extends.bind (.refl _)
    intro _
    cases Statement.ofText text with
    | expression source =>
      exact .bind (e.evaluateExpression_extends h c source) fun _ => .refl _
    | assignment target source =>
      have htarget (depth : Nat) :
          (e.withDepth depth).isAssignable target = e.isAssignable target := rfl
      simp only [htarget]
      split
      · exact .bind (e.evaluateExpression_extends h c source) fun _ => .refl _
      · exact .refl _

/-- A statement that does not fail because of the limit on levels has the same result under a higher
limit, leaves the same context and does the same in the world: it makes the same calls. -/
theorem evaluate_withDepth_of_le (e : Engine) {depth depth' : Nat} (h : depth ≤ depth')
    (c : Context) (source : List Char) (w : World)
    (hw : ∀ err, (((e.withDepth depth).evaluate c source).run w).1 = .error err →
      err.isNestingLimit = false) :
    ((e.withDepth depth').evaluate c source).run w
      = ((e.withDepth depth).evaluate c source).run w := by
  rw [evaluate_run] at hw
  rw [evaluate_run, evaluate_run]
  rcases e.execute_extends h c (Text.trim source) w with ⟨err, herr, hlimit⟩ | hsame
  · rw [herr] at hw
    have hfailed := hw _ rfl
    rw [StatementError.isNestingLimit_ofEval, hlimit] at hfailed
    cases hfailed
  · rw [hsame]

/-- The group is one level deeper than the text and the parts of the conditional are one level
deeper than the group, so that a limit of two suffices. -/
theorem evaluate_withDepth_of_le_group :
    ((({ options := { mode := .substituting } } : Engine).withDepth 64).evaluate .empty
        "x = 2 * (1 ? 3 : 1/0)".toList).run { recording := true }
      = ((({ options := { mode := .substituting } } : Engine).withDepth 2).evaluate .empty
        "x = 2 * (1 ? 3 : 1/0)".toList).run { recording := true } := by
  apply evaluate_withDepth_of_le _ (by decide)
  intro err herr
  have hok : (((({ options := { mode := .substituting } } : Engine).withDepth 2).evaluate .empty
      "x = 2 * (1 ? 3 : 1/0)".toList).run { recording := true }).1.isOk = true := by
    decide +kernel
  rw [herr] at hok
  cases hok

end Engine

end Reckoner
