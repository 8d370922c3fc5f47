import Reckoner.Proofs.Call.Replacing

/-!
# Relations between evaluations

An evaluation is put together from parts: it looks whether to stop, replaces fragments of the text
by their values and runs what is left. A relation that each way of putting parts together respects
holds of whole evaluations as soon as it holds of the runs of the machine. What is said of a single
evaluation is such a relation too, between the evaluation and itself.
-/

namespace Reckoner

/-- Whether an event tells what became of a fragment. -/
def Event.isReplacement : Event → Bool
  | .replaced _ _ | .kept _ _ | .keptValue _ _ | .bound _ _ => true
  | _ => false

namespace Eval

/-- A relation that holds of evaluations if it holds of their parts. -/
structure Compositional (R : (α : Type) → Eval α → Eval α → Prop) : Prop where
  pure {α : Type} (a : α) : R α (Pure.pure a) (Pure.pure a)
  throw {α : Type} (err : EvalError) : R α (MonadExcept.throw err) (MonadExcept.throw err)
  bind {α β : Type} {x y : Eval α} {f g : α → Eval β} :
    R α x y → (∀ a, R β (f a) (g a)) → R β (x >>= f) (y >>= g)
  poll : R Unit Eval.poll Eval.poll
  note {event : Event} :
    event.isReplacement = true → R Unit (Eval.note event) (Eval.note event)
  /-- What follows an attempt gives up if the attempt failed for good. -/
  recover {α β : Type} {x y : Eval α} {k : Except EvalError α → Eval β} :
    R α x y → (∀ err, err.isFatal = true → k (.error err) = MonadExcept.throw err) →
      (∀ r, R β (k r) (k r)) → R β (attempt x >>= k) (attempt y >>= k)

lemma Compositional.ofRuntime {R : (α : Type) → Eval α → Eval α → Prop} (hR : Compositional R)
    {α : Type} (r : Except RuntimeError α) : R α (Eval.ofRuntime r) (Eval.ofRuntime r) := by
  cases r with
  | ok a => exact hR.pure a
  | error err => exact hR.throw (.runtime err)

/-- What is true of the parts of an evaluation and of the whole is a relation between the evaluation
and itself. -/
lemma Compositional.of_forall {P : (α : Type) → Eval α → Prop}
    (hpure : ∀ {α : Type} (a : α), P α (Pure.pure a))
    (hthrow : ∀ {α : Type} (err : EvalError), P α (MonadExcept.throw err))
    (hbind : ∀ {α β : Type} {x : Eval α} {f : α → Eval β},
      P α x → (∀ a, P β (f a)) → P β (x >>= f))
    (hpoll : P Unit Eval.poll)
    (hnote : ∀ {event : Event}, event.isReplacement = true → P Unit (Eval.note event))
    (hattempt : ∀ {α : Type} {x : Eval α}, P α x → P (Except EvalError α) (attempt x)) :
    Compositional fun α x y => x = y ∧ P α x where
  pure a := ⟨rfl, hpure a⟩
  throw err := ⟨rfl, hthrow err⟩
  bind := by
    rintro α β x _ f g ⟨rfl, hx⟩ hf
    obtain rfl : f = g := funext fun a => (hf a).1
    exact ⟨rfl, hbind hx fun a => (hf a).2⟩
  poll := ⟨rfl, hpoll⟩
  note h := ⟨rfl, hnote h⟩
  recover := by
    rintro α β x _ k ⟨rfl, hx⟩ - hk
    exact ⟨rfl, hbind (hattempt hx) fun r => (hk r).2⟩

end Eval

/-! ### Replacing fragments -/

namespace Substitution

open Eval (Compositional)

variable {R : (α : Type) → Eval α → Eval α → Prop}

/-- Whether two ways to replace fragments are related on every fragment. -/
def Related (R : (α : Type) → Eval α → Eval α → Prop)
    (replace replace' : List Char → Scratch (Option (List Char))) : Prop :=
  ∀ fragment c, R _ ((replace fragment).run c) ((replace' fragment).run c)

lemma substitute_related (hR : Compositional R)
    {evaluate evaluate' : Context → List Char → Eval Value}
    (h : ∀ c text, R _ (evaluate c text) (evaluate' c text)) :
    Related R (substitute evaluate true) (substitute evaluate' true) := by
  intro fragment c
  rw [substitute_run, substitute_run]
  apply hR.recover (h c fragment)
  · intro err herr
    dsimp only
    rw [if_pos herr]
  · intro r
    cases r with
    | error err =>
      dsimp only
      split
      · exact hR.throw err
      · exact hR.bind (hR.note rfl) fun _ => hR.pure _
    | ok v =>
      dsimp only
      split
      · exact hR.bind (hR.note rfl) fun _ => hR.pure _
      · exact hR.bind (hR.note rfl) fun _ => hR.pure _

variable {replace replace' : List Char → Scratch (Option (List Char))}

lemma groupsFrom_related (hR : Compositional R) (h : Related R replace replace')
    (before : List Char) (inText : Bool) (text : List Char) (c : Context) :
    R _ ((groupsFrom replace before inText text).run c)
      ((groupsFrom replace' before inText text).run c) := by
  fun_induction groupsFrom replace before inText text generalizing c with
  | case1 before inText =>
    rw [groupsFrom]
    exact hR.pure _
  | case2 before inText rest ih =>
    rw [groupsFrom, if_pos rfl]
    exact ih c
  | case3 before inText ch rest hquote hskip ih =>
    rw [groupsFrom, if_neg hquote, if_pos hskip]
    exact ih c
  | case4 before inText ch rest hquote hskip hcut ih =>
    rw [groupsFrom, if_neg hquote, if_neg hskip]
    split
    · exact ih c
    · rename_i hcut'
      rw [hcut] at hcut'
      cases hcut'
  | case5 before inText ch rest hquote hskip inside tail hcut hlt hquestioned ihReplaced ihKept =>
    rw [groupsFrom, if_neg hquote, if_neg hskip]
    split
    · rename_i hcut'
      rw [hcut] at hcut'
      cases hcut'
    · rename_i inside' tail' hcut'
      rw [hcut] at hcut'
      cases hcut'
      rw [if_pos hquestioned]
      simp only [StateT.run_bind, StateT.run_monadLift, monadLift_self, bind_assoc, pure_bind]
      apply hR.bind hR.poll
      intro _
      apply hR.bind (h inside c)
      rintro ⟨replaced, c'⟩
      cases replaced with
      | none => exact ihKept c'
      | some literal => exact ihReplaced literal c'
  | case6 before inText ch rest hquote hskip inside tail hcut hlt hquestioned ih =>
    rw [groupsFrom, if_neg hquote, if_neg hskip]
    split
    · rename_i hcut'
      rw [hcut] at hcut'
      cases hcut'
    · rename_i inside' tail' hcut'
      rw [hcut] at hcut'
      cases hcut'
      rw [if_neg hquestioned]
      exact ih c

lemma argument_related (hR : Compositional R) (h : Related R replace replace') (text : List Char)
    (c : Context) :
    R _ ((argument replace text).run c) ((argument replace' text).run c) := by
  unfold argument
  split
  · rw [StateT.run_bind, StateT.run_bind]
    apply hR.bind (h text c)
    rintro ⟨replaced, c'⟩
    cases replaced with
    | none => exact hR.pure _
    | some literal => exact hR.pure _
  · exact hR.pure _

lemma mapM_argument_related (hR : Compositional R) (h : Related R replace replace')
    (texts : List (List Char)) (c : Context) :
    R _ ((texts.mapM (argument replace)).run c) ((texts.mapM (argument replace')).run c) := by
  induction texts generalizing c with
  | nil => exact hR.pure _
  | cons text texts ih =>
    rw [List.mapM_cons, List.mapM_cons, StateT.run_bind, StateT.run_bind]
    apply hR.bind (argument_related hR h text c)
    intro first
    rw [StateT.run_bind, StateT.run_bind]
    apply hR.bind (ih first.2)
    intro rest
    exact hR.pure _

lemma argumentList_related (hR : Compositional R) (h : Related R replace replace')
    (inside : List Char) (c : Context) :
    R _ ((argumentList replace inside).run c) ((argumentList replace' inside).run c) := by
  unfold argumentList
  rw [StateT.run_bind, StateT.run_bind]
  apply hR.bind (mapM_argument_related hR h _ c)
  intro ⟨arguments, c'⟩
  dsimp only
  split
  · exact hR.pure _
  · exact hR.pure _

lemma argumentsFrom_related (hR : Compositional R) (h : Related R replace replace')
    (isFunction : String → Bool) (n : Nat) (before text : List Char) (c : Context) :
    R _ ((argumentsFrom isFunction replace n before text).run c)
      ((argumentsFrom isFunction replace' n before text).run c) := by
  induction n generalizing before text c with
  | zero => exact hR.pure _
  | succ n ih =>
    unfold argumentsFrom
    split
    · exact hR.pure _
    · simp only [StateT.run_bind, StateT.run_monadLift, monadLift_self, bind_assoc, pure_bind]
      apply hR.bind hR.poll
      intro _
      split
      · exact ih _ _ c
      · rw [StateT.run_bind, StateT.run_bind]
        apply hR.bind (argumentList_related hR h _ c)
        intro replaced
        exact ih _ _ replaced.2

end Substitution

/-! ### Expressions -/

namespace Engine

open Eval (Compositional)

/-- Related runs of the machine make related evaluations. The second engine may have more levels
left when the first one has none. -/
lemma evaluateWithin_related {R : (α : Type) → Eval α → Eval α → Prop} (hR : Compositional R)
    {e e' : Engine} (hfunctions : e'.functions = e.functions)
    (hmode : e'.options.mode = e.options.mode)
    (hrun : ∀ c text, R _ (e.run c text) (e'.run c text)) {more : Nat}
    (hzero : ∀ c source, R _ (e.evaluateWithin 0 c source) (e'.evaluateWithin more c source))
    (levels : Nat) (c : Context) (source : List Char) :
    R _ (e.evaluateWithin levels c source) (e'.evaluateWithin (levels + more) c source) := by
  induction levels generalizing c source with
  | zero =>
    rw [Nat.zero_add]
    exact hzero c source
  | succ levels ih =>
    rw [Nat.succ_add]
    unfold evaluateWithin
    apply hR.bind hR.poll
    intro _
    dsimp only
    split
    · exact hR.throw (.parse .emptyExpression)
    · rw [hmode, hfunctions]
      split
      · exact hrun c _
      · split
        · apply hR.bind (ih c _)
          intro condition
          apply hR.bind (hR.ofRuntime _)
          intro holds
          split
          · exact ih c _
          · exact ih c _
        · have hreplace := Substitution.substitute_related hR ih
          rw [StateT.run_bind, StateT.run_bind, bind_assoc, bind_assoc]
          apply hR.bind (Substitution.groupsFrom_related hR hreplace [] false _ c)
          intro grouped
          apply hR.bind (Substitution.argumentsFrom_related hR hreplace _ _ [] _ grouped.2)
          intro replaced
          exact hrun replaced.2 replaced.1

end Engine

end Reckoner
