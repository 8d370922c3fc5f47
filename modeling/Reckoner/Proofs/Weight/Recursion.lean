import Reckoner.Proofs.Engine.Levels
import Reckoner.Proofs.Weight.Measures

/-!
# How deep evaluations nest

An evaluation inside another one is that of a part of a conditional, or of a fragment of what the
text has become once other fragments have given way to literals and names. The text may grow longer
by that, but not heavier, and each of those parts and fragments weighs less than the text around it.
So as many levels as there are characters suffice.
-/

namespace Reckoner

open Text (Spot outside trim textWeight openWeight)

/-- Whether an error is that of too many levels. -/
def RuntimeError.isNestingLimit (err : RuntimeError) : Bool :=
  (EvalError.runtime err).isNestingLimit

lemma RuntimeError.not_isNestingLimit_of_not_isForeign (err : RuntimeError)
    (h : err.isForeign = false) : err.isNestingLimit = false := by
  cases err <;> first | rfl | cases h

namespace Eval

variable {α β : Type}

/-- Whether an evaluation does not come to the limit on levels, and its result, if there is one, has
a property. -/
structure Fits (P : α → Prop) (x : Eval α) : Prop where
  produces : Produces P x
  within : ∀ w err, (x.run w).1 = .error err → err.isNestingLimit = false

namespace Fits

variable {P : α → Prop} {Q : β → Prop} {x : Eval α}

lemma pure {a : α} (ha : P a) : Fits P (Pure.pure a) where
  produces := .pure ha
  within _ _ h := nomatch h

lemma throw {err : EvalError} (h : err.isNestingLimit = false) :
    Fits P (MonadExcept.throw err : Eval α) where
  produces := .throw err
  within := by
    rintro w _ ⟨⟩
    exact h

lemma bind {f : α → Eval β} (hx : Fits P x) (hf : ∀ a, P a → Fits Q (f a)) : Fits Q (x >>= f) where
  produces := .bind hx.produces fun a ha => (hf a ha).produces
  within w err h := by
    have hproduces := hx.produces w
    have hwithin := hx.within w
    rw [run_bind] at h
    generalize x.run w = outcome at h hproduces hwithin
    obtain ⟨err' | a, w'⟩ := outcome
    · cases h
      exact hwithin err rfl
    · exact (hf a (hproduces a rfl)).within w' err h

lemma of_avoids (h : Avoids RuntimeError.isNestingLimit x) : Fits (fun _ => True) x where
  produces := .any x
  within w err herr := by
    cases err with
    | parse cause => rfl
    | cancelled => rfl
    | runtime cause => exact h w cause herr

lemma attempt (hx : Fits P x) :
    Fits (fun r => ∀ err, r = .error err → err.isNestingLimit = false) (Eval.attempt x) where
  produces := by
    rintro w r ⟨⟩ err herr
    exact hx.within w err herr
  within _ _ h := nomatch h

lemma note (event : Event) : Fits (fun _ => True) (Eval.note event) :=
  .of_avoids (.note event)

lemma poll : Fits (fun _ => True) Eval.poll where
  produces := .any _
  within w err h := by
    rw [run_poll] at h
    split at h
    · cases h
      rfl
    · cases h

end Fits

end Eval

namespace Substitution

open Eval (Fits)

variable {replace : List Char → Scratch (Option (List Char))} {levels : Nat}

lemma substitute_fits {evaluate : Context → List Char → Eval Value} {fragment : List Char}
    (h : ∀ c, Fits (fun _ => True) (evaluate c fragment)) (c : Context) :
    Fits (fun _ => True) ((substitute evaluate true fragment).run c) := by
  rw [substitute_run]
  refine .bind (h c).attempt fun r hr => ?_
  cases r with
  | error err =>
    dsimp only
    split
    · exact .throw (hr err rfl)
    · exact .bind (.note _) fun _ _ => .pure trivial
  | ok v =>
    dsimp only
    split
    · exact .bind (.note _) fun _ _ => .pure trivial
    · exact .bind (.note _) fun _ _ => .pure trivial

/-- Whether fragments that weigh less than there are levels are replaced within the limit. -/
def FitsWithin (levels : Nat) (replace : List Char → Scratch (Option (List Char))) : Prop :=
  ∀ fragment c, textWeight fragment < levels → Fits (fun _ => True) ((replace fragment).run c)

lemma run_fits {α : Type} {P : α → Prop} {x : Scratch α} {c : Context}
    (h : Fits (fun _ => True) (x.run c)) (hx : Yields P x) : Fits (fun r => P r.1) (x.run c) where
  produces := hx c
  within := h.within

/-- Replacing the groups of a text does not make it heavier, and each of them weighs less. -/
lemma groupsFrom_fits (hreplace : Substitutes replace) (hfits : FitsWithin levels replace)
    (before : List Char) (inText : Bool) (text : List Char) (c : Context)
    (hbefore : (Spot.plain.after before.reverse).isText = inText)
    (hweight : textWeight (before.reverse ++ text) ≤ levels) :
    Fits (fun r => textWeight r.1 ≤ levels) ((groupsFrom replace before inText text).run c) := by
  have hmove (ch : Char) (before rest : List Char) :
      before.reverse ++ ch :: rest = (ch :: before).reverse ++ rest := by simp
  have htext {ch : Char} {before : List Char} (hch : ch ≠ '"') :
      (Spot.plain.after (ch :: before).reverse).isText
        = (Spot.plain.after before.reverse).isText := by
    rw [Spot.isText_after_reverse_cons, if_neg hch]
  fun_induction groupsFrom replace before inText text generalizing c with
  | case1 before inText => exact .pure (by simpa using hweight)
  | case2 before inText rest ih =>
    exact ih c (by rw [Spot.isText_after_reverse_cons, if_pos rfl, hbefore])
      (by rwa [hmove] at hweight)
  | case3 before inText ch rest hquote hskip ih =>
    exact ih c (by rw [htext hquote, hbefore]) (by rwa [hmove] at hweight)
  | case4 before inText ch rest hquote hskip hcut ih =>
    exact ih c (by rw [htext hquote, hbefore]) (by rwa [hmove] at hweight)
  | case5 before inText ch rest hquote hskip inside tail hcut hlt hquestioned ihReplaced ihKept =>
    simp only [Bool.or_eq_true, bne_iff_ne, ne_eq, not_or, not_not, Bool.not_eq_true] at hskip
    obtain ⟨⟨rfl, rfl⟩, -⟩ := hskip
    obtain rfl := Text.cutAtClose?_eq hcut
    have hquestion : '?' ∈ outside inside := by
      by_contra hmem
      rw [Conditional.isQuestioned_of_not_mem hmem] at hquestioned
      cases hquestioned
    have hparens := Text.textWeight_parens hbefore hcut hquestion
    have hinside := Text.weight_le_openWeight (outside inside)
    change textWeight inside ≤ _ at hinside
    simp only [StateT.run_bind, StateT.run_monadLift, monadLift_self, bind_assoc, pure_bind]
    refine .bind .poll fun _ _ =>
      .bind (run_fits (hfits inside c (by omega)) (hreplace inside)) fun r hr => ?_
    obtain ⟨replaced, c'⟩ := r
    cases replaced with
    | none => exact ihKept c' (by rw [htext hquote, hbefore]) (by rwa [hmove] at hweight)
    | some literal =>
      have hliteral : IsSubstitute literal := hr literal rfl
      have hnew : (Spot.plain.after (literal.reverse ++ before).reverse).isText = false := by
        rw [List.reverse_append, List.reverse_reverse, Spot.after_append,
          Spot.isText_after_congr (q := .plain) hbefore, hliteral.isText_after]
      refine ihReplaced literal c' hnew ?_
      have hlight := Text.weight_append_le (outside before.reverse) (outside literal ++
        outside tail)
      rw [hliteral.light] at hlight
      change _ ≤ openWeight (outside before.reverse) + textWeight tail at hlight
      rw [List.reverse_append, List.reverse_reverse, List.append_assoc, textWeight,
        Text.outside_append_of_plain hbefore, Text.outside_append_of_plain hliteral.isText_after]
      omega
  | case6 before inText ch rest hquote hskip inside tail hcut hlt hquestioned ih =>
    simp only [Bool.or_eq_true, bne_iff_ne, ne_eq, not_or, not_not, Bool.not_eq_true] at hskip
    exact ih c (by rw [htext hquote, hbefore, hskip.1.1]) (by rwa [hmove] at hweight)

lemma argument_fits (hfits : FitsWithin levels replace) {t : List Char}
    (ht : '?' ∈ outside t → textWeight t < levels) (c : Context) :
    Fits (fun _ => True) ((argument replace t).run c) := by
  unfold argument
  split
  · rename_i hquestion
    rw [StateT.run_bind]
    refine .bind (hfits t c (ht hquestion)) fun r _ => ?_
    obtain ⟨replaced, c'⟩ := r
    cases replaced with
    | none => exact .pure trivial
    | some literal => exact .pure trivial
  · exact .pure trivial

lemma argumentList_fits (hfits : FitsWithin levels replace) {inside : List Char}
    (h : '?' ∈ outside inside → openWeight (outside inside) < levels) (c : Context) :
    Fits (fun _ => True) ((argumentList replace inside).run c) := by
  have hargument : ∀ t ∈ argumentTexts inside, '?' ∈ outside t → textWeight t < levels := by
    intro t ht hquestion
    unfold argumentTexts at ht
    split at ht
    · cases ht
    · have hweight : openWeight (outside t) ≤ openWeight (outside inside) := by
        rw [← Text.openWeight_piecesFrom inside]
        exact List.le_sum_of_mem (List.mem_map_of_mem ht)
      have hinside := h (Text.mem_outside_of_mem_piecesFrom ht hquestion)
      have hopen := Text.weight_le_openWeight (outside t)
      rw [textWeight]
      omega
  have hall {ts : List (List Char)} (hts : ∀ t ∈ ts, '?' ∈ outside t → textWeight t < levels)
      (c : Context) : Fits (fun _ => True) ((ts.mapM (argument replace)).run c) := by
    induction ts generalizing c with
    | nil => exact .pure trivial
    | cons t ts ih =>
      obtain ⟨ht, hts⟩ := List.forall_mem_cons.1 hts
      rw [List.mapM_cons, StateT.run_bind]
      refine .bind (argument_fits hfits ht c) fun first _ => ?_
      rw [StateT.run_bind]
      exact .bind (ih hts first.2) fun rest _ => .pure trivial
  unfold argumentList
  rw [StateT.run_bind]
  refine .bind (hall hargument c) fun r _ => ?_
  split
  · exact .pure trivial
  · exact .pure trivial

/-- Replacing the arguments of calls does not make heavier what is still to be searched, and each of
them weighs less. -/
lemma argumentsFrom_fits (hreplace : Substitutes replace) (hfits : FitsWithin levels replace)
    (isFunction : String → Bool) (n : Nat) (before text : List Char) (c : Context)
    (hweight : textWeight text ≤ levels) :
    Fits (fun _ => True) ((argumentsFrom isFunction replace n before text).run c) := by
  induction n generalizing before text c with
  | zero => exact .pure trivial
  | succ n ih =>
    rw [argumentsFrom]
    split
    · exact .pure trivial
    · rename_i front rest hcall
      obtain ⟨rfl, hfront⟩ := cut_of_nextCall? (s := .plain) rfl hcall
      have hrest : textWeight rest ≤ textWeight (front ++ '(' :: rest) :=
        Text.textWeight_le_of_cut hfront (by decide)
      simp only [StateT.run_bind, StateT.run_monadLift, monadLift_self, bind_assoc, pure_bind]
      refine .bind .poll fun _ _ => ?_
      split
      · exact ih _ rest c (hrest.trans hweight)
      · rename_i inside tail hcut
        obtain rfl := Text.cutAtClose?_eq hcut
        have hinside : (Spot.plain.after inside).isText = false :=
          Text.isText_after_cutAtClose? (s := .plain) rfl hcut
        have hquestion (h : '?' ∈ outside inside) : openWeight (outside inside) < levels := by
          have hparens := Text.textWeight_parens hfront hcut h
          omega
        rw [StateT.run_bind]
        refine .bind (run_fits (argumentList_fits hfits hquestion c)
          (argumentList_yields isMeasure_openWeight hreplace hinside)) fun r hr => ?_
        have hclosed := Text.textWeight_closed hcut
        have hreplaced := Text.textWeight_append_close_le hr.2 tail
        exact ih _ (r.1 ++ ')' :: tail) r.2 (by omega)

end Substitution

namespace Engine

open Eval (Fits)

/-- Whether no function and no operator of an engine ends in the error of too many levels. -/
structure IsModest (e : Engine) : Prop where
  functions : ∀ name f, e.functions.get? name = some f →
    ∀ counter args, Avoids RuntimeError.isNestingLimit (f.body counter args).result
  operators : ∀ left right op handler, e.operators.lookup left right op = some handler →
    ∀ v v', Avoids RuntimeError.isNestingLimit (handler v v')

variable {e : Engine}

/-- With the operators of the language only the functions matter. -/
lemma isModest_of_operators (hoperators : e.operators = .standard)
    (hfunctions : ∀ name f, e.functions.get? name = some f →
      ∀ counter args, Avoids RuntimeError.isNestingLimit (f.body counter args).result) :
    e.IsModest where
  functions := hfunctions
  operators left right op handler hhandler v v' := by
    rw [hoperators] at hhandler
    exact .of_ordinary RuntimeError.not_isNestingLimit_of_not_isForeign
      (OperatorTable.ordinary_standard hhandler v v')

lemma isModest_standard (options : Options) : (standard options).IsModest :=
  isModest_of_operators rfl fun _ _ hf counter args =>
    .of_ordinary RuntimeError.not_isNestingLimit_of_not_isForeign
      (Registry.ordinary_standard hf counter args)

lemma IsModest.machine (he : e.IsModest) (c : Context) :
    Machine.Avoids RuntimeError.isNestingLimit ⟨c, e.operators, e.functions⟩ :=
  ⟨RuntimeError.not_isNestingLimit_of_not_isForeign, he.functions, he.operators⟩

lemma run_fits (he : e.IsModest) (c : Context) (source : List Char) :
    Fits (fun _ => True) (e.run c source) := by
  have hparse : Fits (fun p => e.compile source = .ok p) (Eval.ofParse (e.compile source)) := by
    cases e.compile source with
    | ok p => exact .pure rfl
    | error err => exact .throw rfl
  refine .bind hparse fun p hcompile => .bind (.note _) fun _ _ => .of_avoids fun w err herr => ?_
  obtain ⟨tree, htree, rfl⟩ := exists_of_compile hcompile
  rcases Machine.execute_program_follows ⟨c, e.operators, e.functions⟩ tree w w rfl with
    ⟨hrun, -⟩ | ⟨hrun, -⟩
  · rw [hrun] at herr
    exact tree.eval_avoids (he.machine c) htree w err herr
  · rw [hrun] at herr
    cases herr

/-- A text that weighs less than there are levels does not come to the limit. -/
lemma evaluateWithin_fits (he : e.IsModest) {levels : Nat} (c : Context) {source : List Char}
    (h : textWeight source < levels) : Fits (fun _ => True) (e.evaluateWithin levels c source) := by
  induction levels generalizing c source with
  | zero => exact absurd h (Nat.not_lt_zero _)
  | succ levels ih =>
    have htrim : textWeight (trim source) ≤ levels :=
      (Text.textWeight_trim_le source).trans (Nat.le_of_lt_succ h)
    unfold evaluateWithin
    refine .bind .poll fun _ _ => ?_
    generalize trim source = text at htrim
    dsimp only
    split
    · exact .bind (.throw rfl) fun _ (h : False) => h.elim
    · split
      · exact run_fits he c text
      · split
        · rename_i parts hsplit
          obtain ⟨hcondition, hconsequent, halternative⟩ := Text.textWeight_split? hsplit
          refine .bind (ih c (by omega)) fun condition _ => .bind (.of_avoids (.ofRuntime
            (.of_ordinary RuntimeError.not_isNestingLimit_of_not_isForeign
              condition.isTruthy_ordinary))) fun holds _ => ?_
          split
          · exact ih c (by omega)
          · exact ih c (by omega)
        · have hsubstitutes : Substitution.Substitutes
              (Substitution.substitute (e.evaluateWithin levels) true) :=
            Substitution.substitute_yields _ true
          have hfits : Substitution.FitsWithin levels
              (Substitution.substitute (e.evaluateWithin levels) true) :=
            fun fragment c hfragment => Substitution.substitute_fits (fun c => ih c hfragment) c
          rw [StateT.run_bind, bind_assoc]
          refine .bind (Substitution.groupsFrom_fits hsubstitutes hfits [] false text c rfl htrim)
            fun grouped hgrouped => ?_
          refine .bind (Substitution.argumentsFrom_fits hsubstitutes hfits _ _ [] grouped.1
            grouped.2
            hgrouped) fun replaced _ => ?_
          exact run_fits he replaced.2 replaced.1

lemma execute_fits (he : e.IsModest) (c : Context) {text : List Char}
    (h : text.length ≤ e.options.maxDepth) : Fits (fun _ => True) (e.execute c text) := by
  by_cases htext : text = []
  · rw [htext, execute_nil]
    exact .bind .poll fun _ _ => .throw rfl
  · rw [execute_of_ne_nil htext]
    refine .bind .poll fun _ _ => ?_
    have hweight := Statement.textWeight_ofText text
    cases hstatement : Statement.ofText text with
    | expression source =>
      rw [hstatement] at hweight
      exact .bind (evaluateWithin_fits he c (Nat.lt_succ_of_le (hweight.trans h))) fun _ _ =>
        .pure trivial
    | assignment target source =>
      rw [hstatement] at hweight
      dsimp only
      split
      · exact .bind (evaluateWithin_fits he c (Nat.lt_succ_of_le (hweight.trans h))) fun _ _ =>
          .bind (.note _) fun _ _ => .pure trivial
      · exact .throw rfl

/-- Evaluations end. If there are as many levels as the text has characters, neither an expression
nor a statement comes to the limit, and further levels change nothing. The search for calls in a
text ends by itself within as many turns as there are parentheses, whatever evaluates the fragments,
and further turns change nothing; and there always is a fresh name. -/
theorem evaluate_settles (e : Engine) (he : e.IsModest) (c : Context) (source : List Char)
    (depth : Nat) (hdepth : source.length ≤ depth) (w : World) :
    (∀ err, (((e.withDepth depth).evaluateExpression c source).run w).1 = .error err →
        err.isNestingLimit = false)
      ∧ (∀ err, (((e.withDepth depth).evaluate c source).run w).1 = .error err →
        err.isNestingLimit = false)
      ∧ ((e.withDepth depth).evaluateExpression c source).run w
          = ((e.withDepth source.length).evaluateExpression c source).run w
      ∧ ((e.withDepth depth).evaluate c source).run w
          = ((e.withDepth source.length).evaluate c source).run w
      ∧ (∀ (evaluate : Context → List Char → Eval Value) (text : List Char) (turns : Nat),
        text.count '(' ≤ turns →
        let replace := Substitution.substitute evaluate true
        Substitution.argumentsFrom e.functions.isFunction replace turns [] text
          = Substitution.arguments e.functions.isFunction replace text)
      ∧ ∀ c : Context, c.isBound (Substitution.freshName c) = false := by
  have hmodest (depth : Nat) : (e.withDepth depth).IsModest := ⟨he.functions, he.operators⟩
  have hexpression {depth : Nat} (h : source.length ≤ depth) :
      ∀ err, (((e.withDepth depth).evaluateExpression c source).run w).1 = .error err →
        err.isNestingLimit = false :=
    (evaluateWithin_fits (hmodest depth) c (Nat.lt_succ_of_le
      ((Text.textWeight_le_length source).trans h))).within w
  have hexecute {depth : Nat} (h : source.length ≤ depth) :
      ∀ err, (((e.withDepth depth).execute c (trim source)).run w).1 = .error err →
        err.isNestingLimit = false :=
    (execute_fits (hmodest depth) c ((Text.length_trim_le source).trans h)).within w
  have hstatement : ∀ err, (((e.withDepth depth).evaluate c source).run w).1 = .error err →
      err.isNestingLimit = false := by
    intro err herr
    have hwithin := hexecute hdepth
    rw [evaluate_run] at herr
    generalize ((e.withDepth depth).execute c (trim source)).run w = outcome at herr hwithin
    obtain ⟨err' | r, w'⟩ := outcome
    · cases herr
      rw [StatementError.isNestingLimit_ofEval]
      exact hwithin err' rfl
    · cases herr
  refine ⟨hexpression hdepth, hstatement, ?_, ?_, ?_, Substitution.isBound_freshName⟩
  · exact (e.evaluateExpression_extends hdepth c source).run_eq rfl (hexpression (Nat.le_refl _))
  · have hsame : ((e.withDepth depth).execute c (trim source)).run w
        = ((e.withDepth source.length).execute c (trim source)).run w :=
      (e.execute_extends hdepth c (trim source)).run_eq rfl (hexecute (Nat.le_refl _))
    rw [evaluate_run, evaluate_run, hsame]
  · intro evaluate text turns hturns replace
    have hsites := Substitution.sites_le_count e.functions.isFunction .plain text
    exact Substitution.argumentsFrom_congr (Substitution.substitute_yields evaluate true)
      (hsites.trans hturns) hsites

/-- The inner conditionals are those of an argument in a group, for which one level does not
suffice. -/
theorem evaluate_settles_nested :
    let e := Engine.standard ⟨.substituting, 0⟩
    let source := "2 * (1 ? max(0 ? 1 : (1 ? 4 : 9), 3) : 3)".toList
    (((e.withDepth source.length).evaluate .empty source).run {}).1.isOk = true
      ∧ (((e.withDepth 1).evaluate .empty source).run {}).1.isOk = false
      ∧ (∀ err, (((e.withDepth 64).evaluate .empty source).run {}).1 = .error err →
        err.isNestingLimit = false)
      ∧ ((e.withDepth 64).evaluate .empty source).run {}
          = ((e.withDepth source.length).evaluate .empty source).run {} := by
  intro e source
  obtain ⟨-, hlimit, -, hsame, -⟩ :=
    evaluate_settles e (isModest_standard _) .empty source 64 (by decide) {}
  exact ⟨by decide +kernel, by decide +kernel, hlimit, hsame⟩

end Engine

end Reckoner
