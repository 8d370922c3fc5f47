import Reckoner.Proofs.Function.Agreement
import Reckoner.Proofs.Negation.SignedNumeral
import Reckoner.Proofs.Statement.Compound

/-!
# Two ways of writing a negative number

A negative number that is written as a numeral has the imaginary part `0`, and `-0` if it is a
negation. The values of expressions that differ in that part only are alike unless something around
the part tells the zeros apart.
-/

namespace Reckoner

namespace Surrounding

open Value (Alike Agree)

variable {c : Context} {a b : Expr}

/-- Whether what surrounds a part, which is `a` or `b`, tells no values apart that are alike: no
operator that is applied to a value of the part does, and no function that is called with one. A
branch that is not selected has no say. -/
def IsSteady (c : Context) (a b : Expr) : Surrounding → Prop
  | .here => True
  | .group s => s.IsSteady c a b
  | .call name before s after =>
    s.IsSteady c a b ∧ ∀ vs ws, Expr.values? c (before ++ s.fill a :: after) = some vs →
      Expr.values? c (before ++ s.fill b :: after) = some ws → Function.IsSteadyAt name vs ws
  | .vector _ s _ => s.IsSteady c a b
  | .unary _ s => s.IsSteady c a b
  | .left op s r =>
    s.IsSteady c a b ∧ ∀ v v' w, (s.fill a).value? c = some v → (s.fill b).value? c = some v' →
      r.value? c = some w → op.IsSteadyAt v w v' w
  | .right op l s =>
    s.IsSteady c a b ∧ ∀ v w w', l.value? c = some v → (s.fill a).value? c = some w →
      (s.fill b).value? c = some w' → op.IsSteadyAt v w v w'
  | .condition s _ _ => s.IsSteady c a b
  | .consequent p s _ =>
    ∀ v, p.value? c = some v → v.isTruthy.toOption = some true → s.IsSteady c a b
  | .alternative p _ s =>
    ∀ v, p.value? c = some v → v.isTruthy.toOption = some false → s.IsSteady c a b

/-- Lists of expressions that differ in one have values that agree if the values of that one do. -/
lemma values?_agree {e e' : Expr} (h : Agree (e.value? c) (e'.value? c))
    (before after : List Expr) :
    Option.Rel (List.Forall₂ Alike) (Expr.values? c (before ++ e :: after))
      (Expr.values? c (before ++ e' :: after)) := by
  have hrefl (vs : List Value) : List.Forall₂ Alike vs vs := List.forall₂_same.2 fun v _ => .refl v
  induction before with
  | nil =>
    simp only [List.nil_append, Expr.values?]
    refine Option.Rel.bind h fun v w _ _ hvw => ?_
    cases Expr.values? c after with
    | none => exact .none
    | some vs => exact .some (.cons hvw (hrefl vs))
  | cons d before ih =>
    simp only [List.cons_append, Expr.values?]
    cases d.value? c with
    | none => exact .none
    | some v => exact ih.bind fun vs ws _ _ h => .some (.cons (.refl v) h)

/-- In surroundings that are steady, parts with values that agree make expressions with values that
agree. -/
lemma value?_agree (h : Agree (a.value? c) (b.value? c)) (s : Surrounding)
    (hs : s.IsSteady c a b) : Agree ((s.fill a).value? c) ((s.fill b).value? c) := by
  induction s with
  | here => exact h
  | group s ih => exact ih hs
  | call name before s after ih =>
    have hargs := values?_agree (ih hs.1) before after
    simp only [fill, Expr.value?]
    generalize hvs : Expr.values? c (before ++ s.fill a :: after) = vs? at hargs ⊢
    generalize hws : Expr.values? c (before ++ s.fill b :: after) = ws? at hargs ⊢
    cases hargs with
    | none => exact .none
    | some h =>
      rw [Option.bind_some, Option.bind_some]
      exact Function.result?_agree h (hs.2 _ _ hvs hws)
  | vector before s after ih =>
    exact (values?_agree (ih hs) before after).bind fun vs ws _ _ h => Machine.vector_agree h
  | unary op s ih => exact (ih hs).bind fun v w _ _ hvw => Machine.unary_agree op hvw
  | left op s r ih =>
    refine (ih hs.1).bind fun v v' hv hv' hvv' => ?_
    cases hr : r.value? c with
    | none => exact .none
    | some w => exact BinaryOperator.result?_agree hvv' (.refl w) (hs.2 v v' w hv hv' hr)
  | right op l s ih =>
    simp only [fill, Expr.value?]
    cases hl : l.value? c with
    | none => exact .none
    | some v =>
      refine (ih hs.1).bind fun w w' hw hw' hww' => ?_
      exact BinaryOperator.result?_agree (.refl v) hww' (hs.2 v w w' hl hw hw')
  | condition s t e ih =>
    refine (ih hs).bind fun v w _ _ hvw => ?_
    rw [hvw.isTruthy_eq]
    exact Agree.refl _
  | consequent p s e ih =>
    simp only [fill, Expr.value?]
    cases hp : p.value? c with
    | none => exact .none
    | some v =>
      simp only [Option.bind_some]
      cases ht : v.isTruthy.toOption with
      | none => exact .none
      | some selected =>
        cases selected with
        | true => exact ih (hs v hp ht)
        | false => exact .refl _
  | alternative p t s ih =>
    simp only [fill, Expr.value?]
    cases hp : p.value? c with
    | none => exact .none
    | some v =>
      simp only [Option.bind_some]
      cases ht : v.isTruthy.toOption with
      | none => exact .none
      | some selected =>
        cases selected with
        | true => exact .refl _
        | false => exact ih (hs v hp ht)

end Surrounding

/-! ### The two forms of a negated numeral -/

namespace SignedNumeral

open Value (Alike Agree)

variable (x : SignedNumeral) {c : Context}

/-- The two forms have values that are alike: only the signs of their imaginary parts differ. -/
lemma value?_agree : Agree (x.constant.value? c) (x.negation.value? c) := by
  have halike : (Value.ofReal (-x.number.value)).Alike (.scalar (-Complex.ofReal x.number.value)) :=
    .scalar (Complex.same_ofReal_neg _)
  exact .some halike

end SignedNumeral

namespace Engine

variable {c : Context} {w : World} {maxDepth : Nat} {text : List Char} {tree : Expr}

/-- A text that is read as an expression has the value of the expression. -/
lemma evaluateExpression_standard (h : (standard ⟨.compiled, maxDepth⟩).Parses text tree)
    (hw : w.cancelled = false) :
    (((standard ⟨.compiled, maxDepth⟩).evaluateExpression c text).run w).1.toOption
      = tree.value? c := by
  rw [evaluateExpression_of_parses (e := standard ⟨.compiled, maxDepth⟩) rfl
    Registry.neverStops_standard h hw]
  exact tree.eval_gives c w

/-- A text that is not read as an expression has no value, and neither has any text once the world
has asked to stop. -/
lemma evaluateExpression_eq_none
    (h : w.cancelled = true ∨ ∀ tree, ¬ (standard ⟨.compiled, maxDepth⟩).Parses text tree) :
    (((standard ⟨.compiled, maxDepth⟩).evaluateExpression c text).run w).1.toOption = none := by
  cases hrun : ((standard ⟨.compiled, maxDepth⟩).evaluateExpression c text).run w with
  | mk result w' =>
    cases result with
    | error err => rfl
    | ok v =>
      obtain ⟨hcancelled, tree, htree⟩ := parses_of_evaluateExpression rfl hrun
      rcases h with h | h
      · rw [h] at hcancelled
        cases hcancelled
      · exact absurd htree (h tree)

/-- The two forms of a negated numeral agree in every text: `-n` and `-(n)` are both read or both
not, and both have a value, and these are equal up to the signs of zeros, or both have none.

What surrounds the numeral has to be steady: where a value of the numeral goes into a square root, a
logarithm or an angle, or into the base of a power that is made of them, it has to be off the branch
cut. On it, the root of `-n` is on the upper half of the imaginary axis and that of `-(n)` on the
lower. Of exponentials, sines and angles of doubles the special values at zeros are presumed. -/
theorem evaluateExpression_signed_agree (x : SignedNumeral) (c : Context) (maxDepth : Nat)
    (w : World) (source source' : List Char) (hsigned : Text.trim source = x.signed)
    (hgrouped : Text.trim source' = x.grouped)
    (hsteady : ∀ s : Surrounding,
      (standard ⟨.compiled, maxDepth⟩).Parses source (s.fill x.constant) →
        (standard ⟨.compiled, maxDepth⟩).Parses source' (s.fill x.negation) →
          s.IsSteady c x.constant x.negation) :
    ((∃ tree, (standard ⟨.compiled, maxDepth⟩).Parses source tree)
        ↔ ∃ tree, (standard ⟨.compiled, maxDepth⟩).Parses source' tree)
      ∧ Value.Agree
        (((standard ⟨.compiled, maxDepth⟩).evaluateExpression c source).run w).1.toOption
        (((standard ⟨.compiled, maxDepth⟩).evaluateExpression c source').run w).1.toOption := by
  rcases x.parses_cases (e := standard ⟨.compiled, maxDepth⟩) hsigned hgrouped with
    ⟨hnone, hnone'⟩ | ⟨s, hparses, hparses'⟩
  · refine ⟨iff_of_false (not_exists.2 hnone) (not_exists.2 hnone'), ?_⟩
    rw [evaluateExpression_eq_none (.inr hnone), evaluateExpression_eq_none (.inr hnone')]
    exact .none
  · refine ⟨iff_of_true ⟨_, hparses⟩ ⟨_, hparses'⟩, ?_⟩
    cases hw : w.cancelled with
    | true =>
      rw [evaluateExpression_eq_none (.inl hw), evaluateExpression_eq_none (.inl hw)]
      exact .none
    | false =>
      rw [evaluateExpression_standard hparses hw, evaluateExpression_standard hparses' hw]
      exact Surrounding.value?_agree x.value?_agree s (hsteady s hparses hparses')

/-- The sum under the root is positive. -/
theorem evaluateExpression_signed_agree_sqrt :
    let source := "sqrt(-4 + 13)".toList
    let source' := "sqrt(-(4) + 13)".toList
    Value.Agree (((standard ⟨.compiled, 64⟩).evaluateExpression .empty source).run {}).1.toOption
      (((standard ⟨.compiled, 64⟩).evaluateExpression .empty source').run {}).1.toOption := by
  intro source source'
  let x : SignedNumeral :=
    { before := "sqrt(".toList
      numeral := ['4']
      behind := " + 13)".toList
      tokens := [.identifier "sqrt", .openParen]
      number := ⟨['4'], [], 0⟩
      scan_before := by
        rw [← Except.toOption_eq_some_iff]
        decide +kernel
      isSign_getLast? := rfl
      takeNumeral_numeral := rfl
      takeNumeral_append := rfl }
  let root (e : Expr) : Expr := .call "sqrt" [.binary .add e (.number 13)]
  let negation : Expr := .unary .negate (.group (.number 4))
  have hsigned : (standard ⟨.compiled, 64⟩).Parses source (root (.number (-4))) := by
    refine ⟨(root (.number (-4))).tokens, ?_, ?_, rfl⟩
    · rw [← Except.toOption_eq_some_iff]
      decide +kernel
    · simp only [root, Expr.WellFormed, Expr.AllWellFormed]
      decide +kernel
  have hgrouped : (standard ⟨.compiled, 64⟩).Parses source' (root negation) := by
    refine ⟨(root negation).tokens, ?_, ?_, rfl⟩
    · rw [← Except.toOption_eq_some_iff]
      decide +kernel
    · simp only [root, negation, Expr.WellFormed, Expr.AllWellFormed]
      decide +kernel
  refine (evaluateExpression_signed_agree x .empty 64 {} source source' (by decide +kernel)
    (by decide +kernel) fun s h h' => ?_).2
  have hfill : s.fill x.constant = root (.number (-4)) := h.unique hsigned
  have hfill' : s.fill x.negation = root negation := h'.unique hgrouped
  -- The numeral is the left summand, since the other one is the same in both expressions.
  have hs : s = .call "sqrt" [] (.left .add .here (.number 13)) [] := by
    cases s with
    | call name before s after =>
      obtain ⟨rfl, hargs⟩ := Expr.call.inj hfill'
      have hargs' := (Expr.call.inj hfill).2
      cases before with
      | nil =>
        obtain ⟨hsum, rfl⟩ := List.cons.inj hargs
        have hsum' := (List.cons.inj hargs').1
        cases s with
        | left op s r =>
          obtain ⟨rfl, -, rfl⟩ := Expr.binary.inj hsum
          have hsummand := (Expr.binary.inj hsum').2.1
          cases s with
          | here => rfl
          | _ => cases hsummand
        | right op l s =>
          have hsummand := (Expr.binary.inj hsum).2.2
          cases s <;> cases hsummand
        | _ => cases hsum
      | cons e before => simp at hargs
    | _ => cases hfill'
  subst hs
  refine ⟨⟨trivial, fun _ _ _ _ _ _ hop => by cases hop⟩, fun vs ws hvs hws => ?_⟩
  have hnumber : x.number.value = 4 := by decide +kernel
  have hvalues : Expr.values? .empty [.binary .add (.number (-4)) (.number 13)]
      = some [.ofReal 9] := by
    decide +kernel
  have hvalues' : Expr.values? .empty [.binary .add negation (.number 13)]
      = some [.ofReal 9] := by
    decide +kernel
  have hconstant : x.constant = .number (-4) := by rw [SignedNumeral.constant, hnumber]
  have hnegation : x.negation = negation := by rw [SignedNumeral.negation, hnumber]
  rw [← hconstant] at hvalues
  rw [← hnegation] at hvalues'
  obtain rfl : vs = [.ofReal 9] := Option.some.inj (hvs.symm.trans hvalues)
  obtain rfl : ws = [.ofReal 9] := Option.some.inj (hws.symm.trans hvalues')
  refine ⟨fun hname => absurd hname (by decide +kernel), .cons (fun zs ws hzs hws => ?_) .nil⟩
  cases hzs
  cases hws
  exact .cons (.inr ⟨fun _ _ => by decide +kernel, fun hname => absurd hname (by decide)⟩) .nil

/-- The two square roots of `-4` have opposite signs. -/
theorem exists_signed_disagree :
    let signed := ((standard ⟨.compiled, 64⟩).evaluateExpression .empty "sqrt(-4)".toList).run {}
    let grouped := ((standard ⟨.compiled, 64⟩).evaluateExpression .empty "sqrt(-(4))".toList).run {}
    signed.1.toOption = some (.scalar ⟨0, 2⟩) ∧ grouped.1.toOption = some (.scalar ⟨0, -2⟩)
      ∧ ¬ Value.Agree signed.1.toOption grouped.1.toOption := by
  intro signed grouped
  have hsigned : signed.1.toOption = some (.scalar ⟨0, 2⟩) := by decide +kernel
  have hgrouped : grouped.1.toOption = some (.scalar ⟨0, -2⟩) := by decide +kernel
  refine ⟨hsigned, hgrouped, ?_⟩
  rw [hsigned, hgrouped]
  intro hagree
  cases hagree with
  | some halike => exact absurd halike (by unfold Value.Alike; decide +kernel)

end Engine

end Reckoner
