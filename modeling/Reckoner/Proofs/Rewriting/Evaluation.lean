import Reckoner.Proofs.Call.Replacing
import Reckoner.Proofs.Rewriting.Arguments

/-!
# Evaluating an expression by replacing its conditionals

On the text of an expression an evaluation that replaces conditionals evaluates the parts of a
conditional that stands outside of brackets, and rewrites other expressions before it runs them.
What is true of every such step, from the parts to the whole, is true of the evaluation.
-/

namespace Reckoner

/-! ### Failures of a direct evaluation -/

namespace Eval

variable {α β : Type}

/-- Whether an evaluation fails in its computations only: it reads no text and nothing stops it. -/
def Computes (x : Eval α) : Prop :=
  ∀ w err, (x.run w).1 = .error err → ∃ cause, err = .runtime cause

namespace Computes

lemma pure (a : α) : Computes (Pure.pure a) := by
  intro w err h
  cases h

lemma bind {x : Eval α} {f : α → Eval β} (hx : Computes x) (hf : ∀ a, Computes (f a)) :
    Computes (x >>= f) := by
  intro w err h
  have hx := hx w err
  rw [run_bind] at h
  generalize x.run w = outcome at h hx
  obtain ⟨err' | a, w'⟩ := outcome
  · cases h
    exact hx rfl
  · exact hf a w' err h

lemma ofRuntime (r : Except RuntimeError α) : Computes (Eval.ofRuntime r) := by
  intro w err h
  cases r with
  | ok a => cases h
  | error cause =>
    cases h
    exact ⟨cause, rfl⟩

lemma note (e : Event) : Computes (Eval.note e) := by
  intro w err h
  cases h

end Computes

end Eval

lemma Function.apply_computes (f : Function) (args : List Value) :
    Eval.Computes (f.apply args) := by
  have henter : Eval.Computes (f.enter args) := by
    intro w err h
    rw [enter_run] at h
    exact Eval.Computes.ofRuntime _ _ err h
  unfold apply
  split
  · exact henter
  · split
    · exact henter
    · exact .ofRuntime (.error _)

namespace Expr

mutual

lemma eval_computes (m : Machine) (e : Expr) : Eval.Computes (e.eval m) := by
  cases e with
  | number x => exact .pure _
  | text s => exact .pure _
  | identifier name => exact .ofRuntime _
  | group e => exact e.eval_computes m
  | call name args =>
    refine .bind (evalAll_computes m args) fun vs => ?_
    split
    · exact Function.apply_computes _ vs
    · exact .ofRuntime (.error _)
  | vector items => exact .bind (evalAll_computes m items) fun vs => .ofRuntime _
  | unary op e => exact .bind (e.eval_computes m) fun v => .ofRuntime _
  | binary op l r =>
    exact .bind (l.eval_computes m) fun v => .bind (r.eval_computes m) fun w =>
      .bind (.note _) fun _ => .ofRuntime _
  | conditional p t e =>
    refine .bind (p.eval_computes m) fun v => .bind (.ofRuntime _) fun b => ?_
    cases b with
    | true => exact t.eval_computes m
    | false => exact e.eval_computes m

lemma evalAll_computes (m : Machine) (es : List Expr) : Eval.Computes (evalAll m es) := by
  cases es with
  | nil => exact .pure _
  | cons e es =>
    exact .bind (e.eval_computes m) fun v => .bind (evalAll_computes m es) fun vs => .pure _

end

end Expr

/-! ### Functions that meddle with nothing -/

lemma RuntimeError.not_isFatal_of_not_isForeign {cause : RuntimeError}
    (h : cause.isForeign = false) : (EvalError.runtime cause).isFatal = false := by
  cases cause with
  | nestingLimit => cases h
  | _ => rfl

/-- Whether the functions of a registry only compute: their names are plain, none asks to stop and
none fails for a lack of levels. -/
structure Registry.IsTame (fs : Registry) : Prop where
  plain : fs.IsPlain
  neverStops : fs.NeverStops
  modest : ∀ name f, fs.get? name = some f →
    ∀ counter args limit, (f.body counter args).result ≠ .error (.nestingLimit limit)

lemma Registry.isTame_standard : Registry.standard.IsTame where
  plain := isPlain_standard
  neverStops := neverStops_standard
  modest _ _ hf counter args _ h := nomatch ordinary_standard hf counter args _ h

lemma Registry.IsTame.avoids {fs : Registry} (hfs : fs.IsTame) (c : Context) :
    Machine.Avoids (fun cause => (EvalError.runtime cause).isFatal) ⟨c, .standard, fs⟩ where
  foreign _ := RuntimeError.not_isFatal_of_not_isForeign
  functions name f hf counter args cause h := by
    cases cause with
    | nestingLimit limit => exact absurd h (hfs.modest name f hf counter args limit)
    | _ => rfl
  operators _ _ _ _ hhandler v v' :=
    .of_ordinary (fun _ => RuntimeError.not_isFatal_of_not_isForeign)
      (OperatorTable.ordinary_standard hhandler v v')

/-- Such functions let no failure end more than the evaluation of an expression. -/
lemma Expr.eval_isFatal {fs : Registry} (hfs : fs.IsTame) {e : Expr}
    (he : e.WellFormed fs.isFunction) {c : Context} {w : World} {err : EvalError}
    (h : ((e.eval ⟨c, .standard, fs⟩).run w).1 = .error err) : err.isFatal = false := by
  obtain ⟨cause, rfl⟩ := e.eval_computes _ w err h
  exact e.eval_avoids (hfs.avoids c) he w cause h

/-! ### Running an expression -/

namespace Engine

/-- An engine with the given functions and the operators of the language. -/
def equipped (fs : Registry) (options : Options) : Engine :=
  { functions := fs, options }

variable {fs : Registry} {options : Options} {e : Expr} {text : List Char}

/-- A text that is read as an expression is compiled to the program of it. -/
lemma compile_equipped (h : Reckoner.Reads e text) (he : e.WellFormed fs.isFunction) :
    (equipped fs options).compile text = .ok e.program := by
  have hts : Token.tokenize (Text.trim text) = .ok e.tokens := h.trim.tokenize_eq
  rw [compile, hts]
  exact Program.compile_eq_ok_iff.2 ⟨e, ⟨he, rfl⟩, rfl⟩

/-- Running the text of an expression notes that it was compiled, and then does what the direct
evaluation does. -/
lemma exists_run (hfs : fs.IsTame) (options : Options) (c : Context) (h : Reckoner.Reads e text)
    (he : e.WellFormed fs.isFunction) {w : World} (hw : w.cancelled = false) :
    ∃ event, World.callOf event = none ∧
      let outcome := ((equipped fs options).run c text).run w
      let direct := (e.eval ⟨c, .standard, fs⟩).run (w.record event)
      outcome.1 = direct.1 ∧ outcome.2.withoutSteps = direct.2.withoutSteps
        ∧ outcome.2.cancelled = false := by
  refine ⟨.compiled (String.ofList text) e.program, rfl, ?_⟩
  have hw' := (Eval.KeepsFlag.note (.compiled (String.ofList text) e.program) w).trans hw
  rw [run, compile_equipped h he]
  have hflag := (Machine.execute_keepsFlag (m := ⟨c, .standard, fs⟩) hfs.neverStops e.program
    (w.record (.compiled (String.ofList text) e.program))).trans hw'
  rcases Machine.execute_program_follows ⟨c, .standard, fs⟩ e _ _ rfl with
    ⟨hresult, hworld⟩ | ⟨-, hstopped⟩
  · exact ⟨hresult, hworld, hflag⟩
  · rw [hflag] at hstopped
    cases hstopped

/-- In the compiled mode an expression is run as it is. -/
lemma evaluateExpression_compiled {maxDepth : Nat} {c : Context}
    (h : Reckoner.Reads e (Text.trim text)) {w : World} (hw : w.cancelled = false) :
    ((equipped fs ⟨.compiled, maxDepth⟩).evaluateExpression c text).run w
      = ((equipped fs ⟨.compiled, maxDepth⟩).run c (Text.trim text)).run w := by
  rw [evaluateExpression, evaluateWithin, Eval.run_poll_bind hw]
  simp only [if_neg (mt List.isEmpty_iff.1 h.ne_nil)]
  rfl

end Engine

/-! ### Evaluations of an expression -/

/-- The outcome of an evaluation is one of those that are told of, nothing asked to stop, and a
failure ends no more than this evaluation. -/
structure Concludes (F : Outcomes) (s : Stage) (e : Expr)
    (outcome : Except EvalError Value × World) : Prop where
  cancelled : outcome.2.cancelled = false
  isFatal : ∀ err, outcome.1 = .error err → err.isFatal = false
  holds : F s e outcome.1.toOption outcome.2

/-- What can be told of the outcomes of evaluations, from those of the parts to those of the
whole. -/
structure Adequate (fs : Registry) (F : Outcomes) : Prop where
  note {s : Stage} {e : Expr} {v : Option Value} {w : World} {event : Event}
    (hevent : World.callOf event = none) (h : F s e v w) : F s e v (w.record event)
  untested {s : Stage} {p t a : Expr} {v : Option Value} {w : World} (h : F s p v w)
    (hv : (v.bind fun v => v.isTruthy.toOption) = none) : F s (.conditional p t a) none w
  branch {s : Stage} {p t a : Expr} {v : Value} {v' : Option Value} {w w' : World} {b : Bool}
    (h : F s p (some v) w) (hv : v.isTruthy = .ok b)
    (h' : F ⟨s.context, w⟩ (if b then t else a) v' w') : F s (.conditional p t a) v' w'
  run {s s₁ s₂ : Stage} {e e₁ e₂ : Expr} {event : Event} {direct : Except EvalError Value × World}
    {w : World} (hcond : e.isConditional = false) (he : e.WellFormed fs.isFunction)
    (hygienic : e.Hygienic s.context) (h₁ : Rewritten F .groups false s s₁ e e₁)
    (h₂ : Rewritten F .arguments false s₁ s₂ e₁ e₂) (hevent : World.callOf event = none)
    (hdirect : (e₂.eval ⟨s₂.context, .standard, fs⟩).run (s₂.world.record event) = direct)
    (hw : w.withoutSteps = direct.2.withoutSteps) : F s e direct.1.toOption w

variable {F : Outcomes} {fs : Registry}

namespace Substitution

/-- Evaluations of which something can be told replace fragments that are read as expressions. -/
lemma handles_substitute (hF : Adequate fs F) {evaluate : Context → List Char → Eval Value}
    {levels : Nat}
    (h : ∀ {e : Expr} {text : List Char} {s : Stage}, Reads e text → e.WellFormed fs.isFunction →
      e.Hygienic s.context → e.depth < levels → s.world.cancelled = false →
      Concludes F s e ((evaluate s.context text).run s.world)) :
    Handles F fs (substitute evaluate true) levels := by
  intro e text s hreads he hygienic hdepth hw
  have hconcludes := h hreads he hygienic hdepth hw
  have hattempt : (Eval.attempt (evaluate s.context text)).run s.world
      = (.ok ((evaluate s.context text).run s.world).1,
        ((evaluate s.context text).run s.world).2) := rfl
  rw [substitute_run, Eval.run_bind, hattempt]
  generalize (evaluate s.context text).run s.world = outcome at hconcludes
  obtain ⟨err | v, w⟩ := outcome
  · have hfatal : ¬ err.isFatal = true := by simp [hconcludes.isFatal err rfl]
    simp only [if_neg hfatal]
    exact ⟨none, none, ⟨s.context, w.record _⟩, rfl,
      (Eval.KeepsFlag.note _ w).trans hconcludes.cancelled, .refl _, hF.note rfl hconcludes.holds,
      .none⟩
  · cases hliteral : literalIn? s.context v with
    | some literal =>
      simp only [hliteral]
      exact ⟨some literal, some v, ⟨s.context, w.record _⟩, rfl,
        (Eval.KeepsFlag.note _ w).trans hconcludes.cancelled, .refl _, hF.note rfl hconcludes.holds,
        .some (exists_of_literalIn? hliteral)⟩
    | none =>
      simp only [hliteral]
      exact ⟨some (freshName s.context).toList, some v,
        ⟨s.context.set (freshName s.context) v, w.record _⟩, rfl,
        (Eval.KeepsFlag.note _ w).trans hconcludes.cancelled, .set_freshName s.context v,
        hF.note rfl hconcludes.holds, .some (exists_of_freshName s.context v)⟩

end Substitution

/-- A conditional is evaluated by evaluating its condition and then one of its branches. -/
lemma Concludes.conditional (hF : Adequate fs F) {s : Stage} {p t a : Expr} {x y z : Eval Value}
    (hx : Concludes F s p (x.run s.world))
    (hy : ∀ w, w.cancelled = false → Concludes F ⟨s.context, w⟩ t (y.run w))
    (hz : ∀ w, w.cancelled = false → Concludes F ⟨s.context, w⟩ a (z.run w)) :
    Concludes F s (.conditional p t a) ((do
      let v ← x
      if ← Eval.ofRuntime v.isTruthy then y else z).run s.world) := by
  rw [Eval.run_bind]
  generalize x.run s.world = outcome at hx
  obtain ⟨err | v, w⟩ := outcome
  · exact ⟨hx.cancelled, fun _ h => hx.isFatal _ (by cases h; rfl), hF.untested hx.holds rfl⟩
  dsimp only
  rw [Eval.run_bind]
  cases htruthy : v.isTruthy with
  | error cause =>
    refine ⟨hx.cancelled, ?_, hF.untested hx.holds (by simp [htruthy, Except.toOption])⟩
    rintro _ ⟨⟩
    exact RuntimeError.not_isFatal_of_not_isForeign (v.isTruthy_ordinary cause htruthy)
  | ok b =>
    have hbranch : Concludes F ⟨s.context, w⟩ (if b then t else a)
        ((if b then y else z).run w) := by
      cases b with
      | true => exact hy w hx.cancelled
      | false => exact hz w hx.cancelled
    exact ⟨hbranch.cancelled, hbranch.isFatal, hF.branch hx.holds htruthy hbranch.holds⟩

namespace Engine

open Substitution

variable {options : Options} {maxDepth levels : Nat} {e : Expr} {text : List Char} {s : Stage}
  {replace : List Char → Scratch (Option (List Char))}

/-- Running a text in which the groups and the arguments have been replaced. -/
lemma run_replaced_concludes (hfs : fs.IsTame) (hF : Adequate fs F)
    (hreplace : Handles F fs replace levels) (h : Reckoner.Reads e text)
    (he : e.WellFormed fs.isFunction) (hcond : e.isConditional = false)
    (hygienic : e.Hygienic s.context) (hdepth : e.depth ≤ levels)
    (hw : s.world.cancelled = false) :
    Concludes F s e ((do
      let replaced : Scratch (List Char) := do
        let text ← groups replace text
        arguments fs.isFunction replace text
      let (text, scratch) ← replaced.run s.context
      (equipped fs options).run scratch text : Eval Value).run s.world) := by
  obtain ⟨ps, gap, rfl, hgap, hforms, hapart⟩ := h
  obtain ⟨e₁, ps₁, s₁, hedited₁, h₁, hw₁, hgroups⟩ :=
    exists_groups hreplace hforms he hygienic hdepth hapart hgap hw
  have he₁ := h₁.wellFormed hfs.plain he
  obtain ⟨e₂, ps₂, s₂, hedited₂, h₂, hw₂, harguments⟩ :=
    exists_arguments_text hfs.plain hreplace hedited₁.forms he₁ (h₁.hygienic hygienic)
      (h₁.depth_le.trans hdepth) hedited₁.apart hgap hw₁
  have hreads : Reckoner.Reads e₂ (Piece.texts ps₂ ++ gap) :=
    ⟨ps₂, gap, rfl, hgap, hedited₂.forms, hedited₂.apart⟩
  have he₂ := h₂.wellFormed hfs.plain he₁
  obtain ⟨event, hevent, hresult, hworld, hflag⟩ :=
    exists_run hfs options s₂.context hreads he₂ hw₂
  have hrun : Concludes F s e
      (((equipped fs options).run s₂.context (Piece.texts ps₂ ++ gap)).run s₂.world) := by
    refine ⟨hflag, fun err herr => Expr.eval_isFatal hfs he₂ (hresult ▸ herr), ?_⟩
    rw [hresult]
    exact hF.run hcond he hygienic h₁ h₂ hevent rfl hworld
  dsimp only
  rw [StateT.run_bind, Eval.run_bind, Eval.run_bind, hgroups]
  dsimp only
  rw [harguments]
  exact hrun

/-- Evaluating the text of an expression, with more levels left than it has. -/
lemma evaluateWithin_concludes (hfs : fs.IsTame) (hF : Adequate fs F)
    (h : Reckoner.Reads e (Text.trim text)) (he : e.WellFormed fs.isFunction)
    (hygienic : e.Hygienic s.context) (hdepth : e.depth < levels) (hw : s.world.cancelled = false) :
    Concludes F s e
      (((equipped fs ⟨.substituting, maxDepth⟩).evaluateWithin levels s.context text).run
        s.world) := by
  induction levels generalizing e text s with
  | zero => exact absurd hdepth (Nat.not_lt_zero _)
  | succ levels ih =>
    rw [evaluateWithin, Eval.run_poll_bind hw]
    simp only [if_neg (mt List.isEmpty_iff.1 h.ne_nil)]
    cases hconditional : e.isConditional with
    | true =>
      cases e with
      | conditional p t a =>
        obtain ⟨-, parts, hsplit, hp, ht, ha⟩ := Conditional.exists_split? h he
        obtain ⟨⟨-, hwp⟩, hwt, hwa⟩ := he
        obtain ⟨hygienic, hygienic'⟩ := List.forall_mem_append.1 hygienic
        obtain ⟨hygienic', hygienic''⟩ := List.forall_mem_append.1 hygienic'
        have hmax : max p.depth (max t.depth a.depth) < levels := Nat.lt_of_succ_lt_succ hdepth
        simp only [equipped, hsplit]
        exact .conditional hF (ih hp.trim hwp hygienic (by omega) hw)
          (fun w hw => ih (s := ⟨s.context, w⟩) ht.trim hwt hygienic' (by omega) hw)
          fun w hw => ih (s := ⟨s.context, w⟩) ha.trim hwa hygienic'' (by omega) hw
      | _ => cases hconditional
    | false =>
      simp only [equipped, Conditional.split?_eq_none h he hconditional]
      exact run_replaced_concludes hfs hF
        (handles_substitute hF fun h he hygienic hdepth hw => ih h.trim he hygienic hdepth hw) h he
        hconditional hygienic (Nat.le_of_lt_succ hdepth) hw

end Engine

end Reckoner
