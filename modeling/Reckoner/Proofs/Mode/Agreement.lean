import Reckoner.Proofs.Call.Evaluations
import Reckoner.Proofs.Rewriting.Evaluation

/-!
# The two modes of the engine

An expression can be compiled as a whole, or its conditionals can be evaluated one by one and
replaced in the text by their values. For a steady expression both ways have values that agree.
-/

namespace Reckoner

/-! ### Evaluations of an expression -/

/-- The outcome of an evaluation of an expression: nothing asked to stop, a failure ends no more
than this evaluation, and if the expression is steady then the result agrees with its value. -/
structure Answers (c : Context) (e : Expr) (outcome : Except EvalError Value × World) : Prop where
  cancelled : outcome.2.cancelled = false
  isFatal : ∀ err, outcome.1 = .error err → err.isFatal = false
  agree : e.Steady c → Value.Agree (e.value? c) outcome.1.toOption

/-- Whether an evaluation, unless it is stopped before it starts, answers for an expression. -/
def Evaluates (c : Context) (e : Expr) (x : Eval Value) : Prop :=
  ∀ w, w.cancelled = false → Answers c e (x.run w)

namespace Engine

/-- An engine with the functions and operators of the language. -/
def standard (options : Options) : Engine :=
  { options }

variable {options : Options} {c : Context} {e : Expr} {text : List Char}

/-- A text that is read as an expression is compiled to the program of it. -/
lemma compile_of_reads (h : Reckoner.Reads e text)
    (he : e.WellFormed Registry.standard.isFunction) :
    (standard options).compile text = .ok e.program :=
  compile_equipped h he

/-- Running the text of an expression answers for it. -/
lemma run_evaluates (h : Reckoner.Reads e text) (he : e.WellFormed Registry.standard.isFunction) :
    Evaluates c e ((standard options).run c text) := by
  intro w hw
  obtain ⟨event, -, hresult, -, hflag⟩ := exists_run Registry.isTame_standard options c h he hw
  refine ⟨hflag, fun err herr => ?_, fun _ => ?_⟩
  · exact Expr.eval_isFatal Registry.isTame_standard he (hresult.symm.trans herr)
  · have hvalue := e.eval_gives c (w.record event)
    exact hvalue ▸ hresult ▸ .refl _

end Engine

/-! ### Rewriting steady expressions -/

/-- If an expression is steady, then its value agrees with that of the evaluation. -/
def Steadily : Outcomes := fun s e v _ =>
  e.Steady s.context → Value.Agree (e.value? s.context) v

/-- An expression that stands for the value of an evaluation stands for what was evaluated. -/
lemma Replaced.of_standsFor {c c' : Context} {e e' : Expr} {v : Value} (hdepth : 0 < e.depth)
    (h : e.Steady c → Value.Agree (e.value? c) (some v)) (hv : e'.StandsFor c' v) :
    Replaced c c' e e' :=
  .of_value hdepth hv.depth_eq fun hsteady => (h hsteady).trans hv.agree

namespace Replaced

variable {c c' c'' : Context} {e e' : Expr} {es es' es'' : List Expr}

/-- What has been replaced holds in a context with more fresh names. -/
lemma behind (h : Replaced c c' e e') (he' : e'.Hygienic c') (hc : c'.Extends c'') :
    Replaced c c'' e e' :=
  h.trans (.refl he' hc)

/-- What is replaced in a context with more fresh names holds for the context without them. -/
lemma before (h : Replaced c' c'' e e') (he : e.Hygienic c) (hc : c.Extends c') :
    Replaced c c'' e e' :=
  .trans (.refl he hc) h

lemma forall₂_refl (hygienic : Expr.AllHygienic c es) (hc : c.Extends c') :
    List.Forall₂ (Replaced c c') es es := by
  induction es with
  | nil => exact .nil
  | cons e es ih =>
    obtain ⟨hygienic, hygienic'⟩ := List.forall_mem_append.1 hygienic
    exact .cons (.refl hygienic hc) (ih hygienic')

lemma forall₂_trans (h : List.Forall₂ (Replaced c c') es es')
    (h' : List.Forall₂ (Replaced c' c'') es' es'') : List.Forall₂ (Replaced c c'') es es'' := by
  induction h generalizing es'' with
  | nil =>
    cases h'
    exact .nil
  | cons h _ ih =>
    cases h' with
    | cons h' hes => exact .cons (h.trans h') (ih hes)

end Replaced

lemma Refill.stands {s s' : Stage} {es es' : List Expr} (h : Refill Steadily s s' es es')
    (hygienic : Expr.AllHygienic s.context es) :
    List.Forall₂ (Replaced s.context s'.context) es es' := by
  induction h with
  | nil => exact .nil
  | stays hes ih =>
    obtain ⟨hygienic, hygienic'⟩ := List.forall_mem_append.1 hygienic
    exact .cons (.refl hygienic hes.context_extends) (ih hygienic')
  | kept _ hc _ hes ih =>
    obtain ⟨hygienic, hygienic'⟩ := List.forall_mem_append.1 hygienic
    exact .cons (.refl hygienic (hc.trans hes.context_extends)) (Replaced.forall₂_trans
      (Replaced.forall₂_refl hygienic' hc) (ih (Expr.AllHygienic.extend hygienic' hc)))
  | replaced hpos hc h hv hes ih =>
    obtain ⟨hygienic, hygienic'⟩ := List.forall_mem_append.1 hygienic
    exact .cons ((Replaced.of_standsFor hpos h hv).behind hv.hygienic hes.context_extends)
      (Replaced.forall₂_trans (Replaced.forall₂_refl hygienic' hc)
        (ih (Expr.AllHygienic.extend hygienic' hc)))

namespace Rewritten

variable {k : Pass.Kind}

mutual

/-- What a steady expression is rewritten to stands for it. -/
lemma stands {b : Bool} {s s' : Stage} {e e' : Expr} :
    Rewritten Steadily k b s s' e e' → e.Hygienic s.context → Replaced s.context s'.context e e'
  | .atom _, he => .refl he (.refl _)
  | .group _ h, he => have ih := stands h; (ih he).group
  | .kept _ _ hc _ h, he =>
    have ih := stands h
    ((ih (Expr.Hygienic.extend he hc)).before he hc).group
  | .replaced _ hcond _ h hv, _ =>
    have hpos := Expr.depth_pos_of_isConditional hcond
    Replaced.of_standsFor (Nat.lt_of_lt_of_le hpos (Expr.le_deepen _)) h hv
  | .unary _ h, he => have ih := stands h; (ih he).unary _
  | .negated hpos h, he => have ih := stands h; (ih he).negate_number hpos
  | .binary hl _ hr, he =>
    have ⟨hygl, hygr⟩ := List.forall_mem_append.1 he
    have hl' := (stands hl hygl).behind (hl.hygienic hygl) hr.context_extends
    have hr' := stands hr (Expr.Hygienic.extend hygr hl.context_extends)
    .binary _ hl' (hr'.before hygr hl.context_extends)
  | .conditional hp ht ha, he =>
    have ⟨hygp, he⟩ := List.forall_mem_append.1 he
    have ⟨hygt, hyga⟩ := List.forall_mem_append.1 he
    have hpt := hp.context_extends.trans ht.context_extends
    have hta := ht.context_extends.trans ha.context_extends
    have hygt' := Expr.Hygienic.extend hygt hp.context_extends
    have hp' := (stands hp hygp).behind (hp.hygienic hygp) hta
    have ht' := (stands ht hygt').behind (ht.hygienic hygt') ha.context_extends
    have ha' := stands ha (Expr.Hygienic.extend hyga hpt)
    .conditional hp' (ht'.before hygt hp.context_extends) (ha'.before hyga hpt)
  | .vector h, he => (ReplacedAll.of_forall₂ (allStand h he)).vector
  | .call _ h, he => (ReplacedAll.of_forall₂ (allStand h he)).call _
  | .refilled _ h h', he =>
    have hes := Replaced.forall₂_trans (h.stands he) (allStand h' (h.allHygienic he))
    (ReplacedAll.of_forall₂ hes).call _

lemma allStand {s s' : Stage} {es es' : List Expr} :
    AllRewritten Steadily k s s' es es' → Expr.AllHygienic s.context es →
      List.Forall₂ (Replaced s.context s'.context) es es'
  | .nil _, _ => .nil
  | .cons h h', hes =>
    have ⟨hyg, hygs⟩ := List.forall_mem_append.1 hes
    have hrest := allStand h' (Expr.AllHygienic.extend hygs h.context_extends)
    .cons ((stands h hyg).behind (h.hygienic hyg) (list_context_extends h'))
      (Replaced.forall₂_trans (Replaced.forall₂_refl hygs h.context_extends) hrest)

end

end Rewritten

/-- The value of a steady expression comes from those of its parts. -/
lemma adequate_steadily : Adequate .standard Steadily where
  note _ h := h
  untested {s p t a v w} h hv hsteady := by
    have hagree := h hsteady.1
    rw [Expr.value?]
    generalize p.value? s.context = u at hagree
    cases hagree with
    | none => exact .refl none
    | some halike =>
      rw [Option.bind_some] at hv ⊢
      rw [halike.isTruthy_eq, hv]
      exact .refl none
  branch {s p t a v v' w w' b} h hv h' hsteady := by
    obtain ⟨u, hu, halike⟩ := Value.Agree.exists_of_some (h hsteady.1)
    have htoOption : u.isTruthy.toOption = some b := by rw [halike.isTruthy_eq, hv]; rfl
    obtain ⟨htrue, hfalse⟩ := hsteady.2 u hu
    rw [Expr.value?, hu, Option.bind_some, htoOption]
    cases b with
    | true => exact h' (htrue htoOption)
    | false => exact h' (hfalse htoOption)
  run {s s₁ s₂ e e₁ e₂ event direct w} _ _ hygienic h₁ h₂ _ hdirect _ hsteady := by
    have hreplaced := (h₁.stands hygienic).trans (h₂.stands (h₁.hygienic hygienic))
    have hvalue : direct.1.toOption = e₂.value? s₂.context := hdirect ▸ e₂.eval_gives s₂.context _
    rw [hvalue]
    exact hreplaced.agree hsteady

namespace Engine

variable {options : Options} {maxDepth levels : Nat} {e : Expr} {text : List Char} {c : Context}

/-- Evaluating the text of an expression, with more levels left than it has, answers for it. -/
lemma evaluateWithin_evaluates (h : Reckoner.Reads e (Text.trim text))
    (he : e.WellFormed Registry.standard.isFunction) (hygienic : e.Hygienic c)
    (hdepth : e.depth < levels) :
    Evaluates c e ((standard ⟨.substituting, maxDepth⟩).evaluateWithin levels c text) := by
  intro w hw
  obtain ⟨hcancelled, hfatal, hholds⟩ := evaluateWithin_concludes (s := ⟨c, w⟩)
    Registry.isTame_standard adequate_steadily h he hygienic hdepth hw
  exact ⟨hcancelled, hfatal, hholds⟩

/-- Compiling the text of an expression and running it answers for it. -/
lemma evaluateExpression_evaluates (h : Reckoner.Reads e (Text.trim text))
    (he : e.WellFormed Registry.standard.isFunction) :
    Evaluates c e ((standard ⟨.compiled, maxDepth⟩).evaluateExpression c text) := by
  intro w hw
  have hrun : ((standard ⟨.compiled, maxDepth⟩).evaluateExpression c text).run w
      = ((standard ⟨.compiled, maxDepth⟩).run c (Text.trim text)).run w :=
    evaluateExpression_compiled h hw
  exact hrun ▸ run_evaluates h he w hw

end Engine

/-! ### Texts that are read as expressions -/

namespace Text

lemma prefix_outsideFrom (inText : Bool) (s t : List Char) :
    outsideFrom inText s <+: outsideFrom inText (s ++ t) := by
  induction s generalizing inText with
  | nil => exact List.nil_prefix
  | cons ch s ih =>
    rw [List.cons_append, outsideFrom, outsideFrom]
    split
    · exact ih _
    · split
      · exact ih _
      · exact List.prefix_cons_inj _ |>.2 (ih _)

lemma length_trim_le (text : List Char) : (trim text).length ≤ text.length := by
  obtain ⟨u, v, htext, -⟩ := exists_trim text
  rw [congrArg List.length htext, List.length_append, List.length_append]
  omega

lemma Unglued.trim {text : List Char} (h : Unglued text) : Unglued (Text.trim text) := by
  obtain ⟨u, v, htext, hu, -⟩ := exists_trim text
  have hquote : '"' ∉ u := fun hmem => absurd (hu _ hmem) (by decide)
  have hinfix : outside (Text.trim text) <:+: outside text := by
    conv_rhs => rw [htext, outside_append_of_not_mem hquote]
    exact (prefix_outsideFrom false (Text.trim text) v).isInfix.trans
      (List.suffix_append _ _).isInfix
  exact h.infix hinfix

end Text

/-- A text with the tokens of an expression is read as it unless a closing parenthesis is right
before a word. -/
lemma Reads.of_tokenize {e : Expr} {text : List Char} (h : Token.tokenize text = .ok e.tokens)
    (hunglued : Text.Unglued text) : Reads e text := by
  obtain ⟨ps, gap, rfl, hgap, hforms, hseparate⟩ := Forms.exists_of_tokenize h
  exact ⟨ps, gap, rfl, hgap, hforms, Piece.isChain_apart hseparate hunglued⟩

namespace Engine

/-- The two modes agree on an expression with the functions and operators of the language, if there
are as many levels as characters: both have a value, and these are alike, or both fail. No level is
lacking in either.

The expression has to be steady: no function or operator that is applied to what a conditional gives
tells the two zeros apart, since a value that is written as a literal loses the sign of a zero part.
Fresh names must not occur in it unless they are bound, and no closing parenthesis may be right
before a word, with which a fresh name would run together. -/
theorem modes_agree (source : List Char) (tree : Expr) (c : Context) (maxDepth : Nat) (w : World)
    (htokens : Token.tokenize (Text.trim source) = .ok tree.tokens)
    (htree : tree.WellFormed Registry.standard.isFunction) (hsteady : tree.Steady c)
    (hygienic : tree.Hygienic c) (hunglued : Text.Unglued source)
    (hdepth : source.length ≤ maxDepth) (hw : w.cancelled = false) :
    let compiled := ((standard ⟨.compiled, maxDepth⟩).evaluateExpression c source).run w
    let substituting := ((standard ⟨.substituting, maxDepth⟩).evaluateExpression c source).run w
    Value.Agree compiled.1.toOption substituting.1.toOption
      ∧ ∀ err, compiled.1 = .error err ∨ substituting.1 = .error err → err.isFatal = false := by
  intro compiled substituting
  have hreads : Reckoner.Reads tree (Text.trim source) := .of_tokenize htokens hunglued.trim
  have hlevels : tree.depth < maxDepth + 1 :=
    Nat.lt_succ_of_le (hreads.depth_le.trans ((Text.length_trim_le source).trans hdepth))
  have hcompiled : Answers c tree compiled := evaluateExpression_evaluates hreads htree w hw
  have hsubstituting : Answers c tree substituting :=
    evaluateWithin_evaluates hreads htree hygienic hlevels w hw
  refine ⟨(hcompiled.agree hsteady).symm.trans (hsubstituting.agree hsteady), ?_⟩
  rintro err (h | h)
  · exact hcompiled.isFatal err h
  · exact hsubstituting.isFatal err h

end Engine

lemma Binary64.eq_of_isZero {x : Float} (h : isZero (view x) = true) : x ∈ [0, -0] := by
  cases hview : view x with
  | zero s =>
    cases s with
    | positive => exact List.mem_cons.2 (.inl (eq_of_view_eq hview))
    | negative => exact List.mem_cons_of_mem _ (List.mem_singleton.2 (eq_of_view_eq hview))
  | _ =>
    rw [hview] at h
    cases h

/-- A value that is like a real number other than zero is that number, up to the sign of its
imaginary part. -/
lemma Value.Alike.exists_of_ofReal {x : Float} (hx : Binary64.isZero (Binary64.view x) = false)
    {w : Value} (h : (Value.ofReal x).Alike w) : ∃ a ∈ [0, -0], w = .scalar ⟨x, a⟩ := by
  cases alike_iff_matches.1 h with
  | @scalar _ z hsame =>
    obtain ⟨hre, him⟩ := Complex.same_iff.1 hsame
    rcases (Binary64.same_iff x z.re).1 hre with rfl | ⟨hzero, -⟩
    · rcases (Binary64.same_iff 0 z.im).1 him with hzero | ⟨-, hzero⟩
      · exact ⟨0, List.mem_cons_self, by rw [hzero]⟩
      · exact ⟨z.im, Binary64.eq_of_isZero hzero, rfl⟩
    · rw [hx] at hzero
      cases hzero
  | vector hv => cases hv

namespace Engine

/-- The conditionals are an argument, a group inside of it and a group of its own. The variable,
which has no value, is not met. -/
theorem modes_agree_max :
    let source := "max(1 ? (0 ? 3 : 4) : x, (0 ? 1 : 5))".toList
    Value.Agree (((standard ⟨.compiled, 64⟩).evaluateExpression .empty source).run {}).1.toOption
      (((standard ⟨.substituting, 64⟩).evaluateExpression .empty source).run {}).1.toOption := by
  intro source
  let tree : Expr := .call "max"
    [.conditional (.number 1) (.group (.conditional (.number 0) (.number 3) (.number 4)))
      (.identifier "x"), .group (.conditional (.number 0) (.number 1) (.number 5))]
  have htokens : Token.tokenize (Text.trim source) = .ok tree.tokens := by
    rw [← Except.toOption_eq_some_iff]
    decide +kernel
  have htree : tree.WellFormed Registry.standard.isFunction := by
    simp only [tree, Expr.WellFormed, Expr.AllWellFormed]
    decide +kernel
  have hmax : ∀ a ∈ [0, -0], ∀ b ∈ [0, -0],
      Function.result? "max" [.scalar ⟨4, a⟩, .scalar ⟨5, b⟩] = some (.ofReal 5) := by
    decide +kernel
  have hsteady : tree.Steady .empty := by
    refine ⟨by simp [Expr.AllSteady, Expr.Steady], fun _ vs ws hvs halike => ?_⟩
    obtain rfl : vs = [.ofReal 4, .ofReal 5] := Option.some.inj (hvs.symm.trans (by decide +kernel))
    obtain _ | ⟨h₁, _ | ⟨h₂, _ | _⟩⟩ := halike
    obtain ⟨a, ha, rfl⟩ := h₁.exists_of_ofReal (by decide +kernel)
    obtain ⟨b, hb, rfl⟩ := h₂.exists_of_ofReal (by decide +kernel)
    rw [hmax a ha b hb]
    exact hmax 0 List.mem_cons_self 0 List.mem_cons_self ▸ .refl _
  have hygienic : tree.Hygienic .empty := by
    intro name hname hscratch
    rw [List.mem_singleton.1 hname] at hscratch
    exact absurd hscratch.head?_eq (by decide +kernel)
  exact (modes_agree source tree .empty 64 {} htokens htree hsteady hygienic (by decide +kernel)
    (by decide +kernel) rfl).1

/-- The square roots of a negative number differ by the sign of its imaginary part, which is a zero
and not written in the literal that stands for the group. -/
theorem exists_modes_disagree :
    let source := "sqrt(-(1 ? 4 : 0))".toList
    let compiled := ((standard ⟨.compiled, 64⟩).evaluateExpression .empty source).run {}
    let substituting := ((standard ⟨.substituting, 64⟩).evaluateExpression .empty source).run {}
    ((standard ⟨.compiled, 64⟩).compile source).toOption.isSome = true
      ∧ compiled.1.toOption = some (.scalar ⟨0, -2⟩)
        ∧ substituting.1.toOption = some (.scalar ⟨0, 2⟩)
      ∧ ¬ Value.Agree compiled.1.toOption substituting.1.toOption := by
  intro source compiled substituting
  have hcompiled : compiled.1.toOption = some (.scalar ⟨0, -2⟩) := by decide +kernel
  have hsubstituting : substituting.1.toOption = some (.scalar ⟨0, 2⟩) := by decide +kernel
  refine ⟨by decide +kernel, hcompiled, hsubstituting, ?_⟩
  rw [hcompiled, hsubstituting]
  intro hagree
  cases hagree with
  | some halike => exact absurd halike (by unfold Value.Alike; decide +kernel)

/-- A group inside a branch of an element of a vector is evaluated before the element, and so is a
call in it, though the branch is not the selected one. -/
theorem exists_unselected_called :
    let source := "[0 ? (1 ? tick() : 0) : 2]".toList
    let compiled :=
      ({ ticking with options := {} }.evaluate .empty source).run { recording := true }
    let substituting := (ticking.evaluate .empty source).run { recording := true }
    compiled.1.toOption = some (.realVector [2], .empty)
      ∧ compiled.2.journal.countP (Event.isCallOf "tick") = 0
      ∧ substituting.2.journal.countP (Event.isCallOf "tick") = 1 := by
  decide +kernel

end Engine

end Reckoner
