import Reckoner.Proofs.Call.Replacing
import Reckoner.Proofs.Canonical.Values

/-!
# Evaluations of canonical values

Where all variables are canonical, so is everything that an evaluation makes of them: what the
machine puts on its stack and what is bound to fresh names while fragments are replaced.
-/

namespace Reckoner

namespace Eval

variable {α β : Type}

/-- Whether the result of an evaluation, if there is one, has a property. -/
def Produces (P : α → Prop) (x : Eval α) : Prop :=
  ∀ w a, (x.run w).1 = .ok a → P a

namespace Produces

variable {P : α → Prop} {Q : β → Prop}

lemma any (x : Eval α) : Produces (fun _ => True) x :=
  fun _ _ _ => trivial

lemma pure {a : α} (ha : P a) : Produces P (Pure.pure a) := by
  intro w b hb
  cases hb
  exact ha

lemma throw (err : EvalError) : Produces P (MonadExcept.throw err : Eval α) := by
  rintro _ _ ⟨⟩

lemma bind {x : Eval α} {f : α → Eval β} (hx : Produces P x) (hf : ∀ a, P a → Produces Q (f a)) :
    Produces Q (x >>= f) := by
  intro w b hb
  have hx := hx w
  rw [run_bind] at hb
  generalize x.run w = outcome at hb hx
  obtain ⟨err | a, w'⟩ := outcome
  · cases hb
  · exact hf a (hx a rfl) w' b hb

/-- What follows a part whose result does not matter. -/
lemma after (x : Eval α) {f : α → Eval β} (hf : ∀ a, Produces Q (f a)) : Produces Q (x >>= f) :=
  bind (any x) fun a _ => hf a

lemma ofRuntime {r : Except RuntimeError α} (hr : Reckoner.Produces P r) :
    Produces P (Eval.ofRuntime r) := by
  cases r with
  | ok a => exact pure (hr a rfl)
  | error err => exact throw _

lemma attempt {x : Eval α} (hx : Produces P x) :
    Produces (fun r => ∀ a, r = .ok a → P a) (Eval.attempt x) := by
  intro w r hr a ha
  cases hr
  exact hx w a ha

end Produces

end Eval

namespace Function

lemma apply_canonical {f : Function}
    (hf : ∀ counter args, Produces Value.IsCanonical (f.body counter args).result)
    (args : List Value) : Eval.Produces Value.IsCanonical (f.apply args) := by
  have henter : Eval.Produces Value.IsCanonical (f.enter args) := by
    intro w
    rw [enter_run]
    exact Eval.Produces.ofRuntime (hf _ args) _
  unfold apply
  split
  · exact henter
  · split
    · exact henter
    · exact .throw _

end Function

namespace Machine

open Value (isCanonical_ofElements)

/-- Whether a machine has canonical values only, and makes no others. -/
structure IsCanonical (m : Machine) : Prop where
  context : m.context.IsCanonical
  operators : m.operators.IsCanonical
  functions : m.functions.IsCanonical

variable {m : Machine}

lemma load_canonical (hm : m.IsCanonical) (name : String) :
    Produces Value.IsCanonical (m.load name) := by
  unfold load
  split
  · exact .ok (hm.context.get? ‹_›)
  · split
    · exact .ok trivial
    · exact .error _

lemma unary_canonical (op : UnaryOperator) (v : Value) :
    Produces Value.IsCanonical (unary op v) := by
  cases op with
  | negate =>
    cases v with
    | scalar z => exact .ok trivial
    | realVector xs => exact .ok trivial
    | complexVector zs => exact .ok (isCanonical_ofElements _)
    | text s => exact .error _
    | date d => exact .error _
  | not => exact .map _ fun _ => trivial

lemma vector_canonical (vs : List Value) : Produces Value.IsCanonical (vector vs) :=
  .bind _ fun _ => .ok (isCanonical_ofElements _)

lemma call_canonical (hm : m.IsCanonical) (name : String) (args : List Value) :
    Eval.Produces Value.IsCanonical (m.call name args) := by
  rw [call_eq]
  cases hf : m.functions.get? name with
  | none => exact .throw _
  | some f => exact Function.apply_canonical (hm.functions name f hf) args

lemma binary_canonical (hm : m.IsCanonical) (op : BinaryOperator) (left right : Value) :
    Eval.Produces Value.IsCanonical (m.binary op left right) := by
  refine .after _ fun _ => .ofRuntime ?_
  unfold OperatorTable.apply
  split
  · exact hm.operators _ _ op _ ‹_› _ _
  · exact .error _

/-- Each instruction leaves canonical values on the stack: those that were there, and what it
makes. -/
lemma step_canonical (hm : m.IsCanonical) (i : Instruction) {stack : List Value}
    (hstack : ∀ v ∈ stack, v.IsCanonical) :
    Eval.Produces (fun next => ∀ v ∈ next.2, v.IsCanonical) (m.step i stack) := by
  have hpush : ∀ {x : Eval Value} {rest : List Value}, Eval.Produces Value.IsCanonical x →
      (∀ v ∈ rest, v.IsCanonical) →
      Eval.Produces (fun next => ∀ v ∈ next.2, v.IsCanonical)
        (do return ((none : Option Nat), (← x) :: rest)) :=
    fun hx hrest => .bind hx fun v hv => .pure (List.forall_mem_cons.2 ⟨hv, hrest⟩)
  have hsplit : ∀ count, Produces (fun parts => ∀ v ∈ parts.2, v.IsCanonical)
      (split i count stack) := by
    intro count
    unfold split
    split
    · exact .ok fun v hv => hstack v (List.mem_of_mem_drop hv)
    · exact .error _
  unfold step
  split
  · exact .pure (List.forall_mem_cons.2 ⟨trivial, hstack⟩)
  · exact .pure (List.forall_mem_cons.2 ⟨trivial, hstack⟩)
  · exact hpush (.ofRuntime (load_canonical hm _)) hstack
  · exact hpush (.ofRuntime (unary_canonical _ _)) (List.forall_mem_cons.1 hstack).2
  · exact .throw _
  · have hrest := (List.forall_mem_cons.1 (List.forall_mem_cons.1 hstack).2).2
    exact hpush (binary_canonical hm _ _ _) hrest
  · exact .throw _
  · exact .bind (.ofRuntime (hsplit _)) fun parts hparts => hpush (call_canonical hm _ _) hparts
  · exact .bind (.ofRuntime (hsplit _)) fun parts hparts =>
      hpush (.ofRuntime (vector_canonical _)) hparts
  · refine .after _ fun holds => ?_
    split
    · exact .pure (List.forall_mem_cons.1 hstack).2
    · exact .pure (List.forall_mem_cons.1 hstack).2
  · exact .throw _
  · exact .pure hstack

lemma result_canonical {stack : List Value} (hstack : ∀ v ∈ stack, v.IsCanonical) :
    Produces Value.IsCanonical (result stack) := by
  unfold result
  split
  · exact .ok (hstack _ List.mem_cons_self)
  · exact .error _

lemma run_canonical (hm : m.IsCanonical) (p : Program) (n : Nat) (s : State)
    (hstack : ∀ v ∈ s.stack, v.IsCanonical) :
    Eval.Produces (fun r => ∀ v ∈ r, v.IsCanonical) (m.run p n s) := by
  have hend : ∀ {stack : List Value}, (∀ v ∈ stack, v.IsCanonical) →
      Eval.Produces (fun r => ∀ v ∈ r, v.IsCanonical) (some <$> Eval.ofRuntime (result stack)) := by
    refine fun hstack => .bind (.ofRuntime (result_canonical hstack)) fun v hv => .pure ?_
    rintro _ ⟨⟩
    exact hv
  induction n generalizing s with
  | zero =>
    unfold run
    split
    · exact hend hstack
    · exact .pure (by simp)
  | succ n ih =>
    unfold run
    split
    · exact hend hstack
    · exact .after _ fun _ => .after _ fun _ => .bind (step_canonical hm _ hstack) fun next hnext =>
        ih _ hnext

lemma execute_canonical (hm : m.IsCanonical) (p : Program) :
    Eval.Produces Value.IsCanonical (m.execute p) := by
  refine .bind (run_canonical hm p _ _ (List.forall_mem_nil _)) fun r hr => ?_
  cases r with
  | none => exact .throw _
  | some v => exact .pure (hr v rfl)

end Machine

/-! ### Replacing fragments -/

namespace Scratch

variable {α β : Type}

/-- Whether an evaluation that may bind fresh names keeps the values of its context canonical. -/
def IsCanonical (x : Scratch α) : Prop :=
  ∀ c : Context, c.IsCanonical → Eval.Produces (fun r => r.2.IsCanonical) (x.run c)

namespace IsCanonical

lemma pure (a : α) : IsCanonical (Pure.pure a) :=
  fun _ hc => .pure hc

lemma bind {x : Scratch α} {f : α → Scratch β} (hx : IsCanonical x) (hf : ∀ a, IsCanonical (f a)) :
    IsCanonical (x >>= f) := by
  intro c hc
  rw [StateT.run_bind]
  exact .bind (hx c hc) fun r hr => hf r.1 r.2 hr

lemma lift (x : Eval α) : IsCanonical (liftM x) := by
  intro c hc
  rw [StateT.run_monadLift]
  exact .after _ fun _ => .pure hc

lemma mapM {f : α → Scratch β} (hf : ∀ a, IsCanonical (f a)) (as : List α) :
    IsCanonical (as.mapM f) := by
  induction as with
  | nil => exact .pure _
  | cons a as ih =>
    rw [List.mapM_cons]
    exact .bind (hf a) fun _ => .bind ih fun _ => .pure _

end IsCanonical

end Scratch

namespace Substitution

open Scratch (IsCanonical)

/-- A fresh name is bound to the value of a fragment. -/
lemma substitute_canonical {evaluate : Context → List Char → Eval Value}
    (h : ∀ c text, c.IsCanonical → Eval.Produces Value.IsCanonical (evaluate c text))
    (fragment : List Char) : IsCanonical (substitute evaluate true fragment) := by
  intro c hc
  rw [substitute_run]
  refine .bind (h c fragment hc).attempt fun r hr => ?_
  cases r with
  | error err =>
    dsimp only
    split
    · exact .throw _
    · exact .after _ fun _ => .pure hc
  | ok v =>
    dsimp only
    split
    · exact .after _ fun _ => .pure hc
    · exact .after _ fun _ => .pure (hc.set _ (hr v rfl))

variable {replace : List Char → Scratch (Option (List Char))}

lemma groupsFrom_canonical (h : ∀ fragment, IsCanonical (replace fragment)) (before : List Char)
    (inText : Bool) (text : List Char) : IsCanonical (groupsFrom replace before inText text) := by
  fun_induction groupsFrom replace before inText text with
  | case1 before inText => exact .pure _
  | case2 before inText rest ih => exact ih
  | case3 before inText ch rest hquote hskip ih => exact ih
  | case4 before inText ch rest hquote hskip hcut ih => exact ih
  | case5 before inText ch rest hquote hskip inside tail hcut hlt hquestioned ihReplaced ihKept =>
    refine .bind (.lift _) fun _ => .bind (h inside) fun replaced => ?_
    cases replaced with
    | none => exact ihKept
    | some literal => exact ihReplaced literal
  | case6 before inText ch rest hquote hskip inside tail hcut hlt hquestioned ih => exact ih

lemma argument_canonical (h : ∀ fragment, IsCanonical (replace fragment)) (text : List Char) :
    IsCanonical (argument replace text) := by
  unfold argument
  split
  · refine .bind (h text) fun replaced => ?_
    cases replaced with
    | none => exact .pure _
    | some literal => exact .pure _
  · exact .pure _

lemma argumentList_canonical (h : ∀ fragment, IsCanonical (replace fragment)) (inside : List Char) :
    IsCanonical (argumentList replace inside) := by
  refine .bind (.mapM (argument_canonical h) _) fun arguments => ?_
  split
  · exact .pure _
  · exact .pure _

lemma argumentsFrom_canonical (h : ∀ fragment, IsCanonical (replace fragment))
    (isFunction : String → Bool) (n : Nat) (before text : List Char) :
    IsCanonical (argumentsFrom isFunction replace n before text) := by
  induction n generalizing before text with
  | zero => exact .pure _
  | succ n ih =>
    unfold argumentsFrom
    split
    · exact .pure _
    · refine .bind (.lift _) fun _ => ?_
      dsimp only
      split
      · exact ih _ _
      · exact .bind (argumentList_canonical h _) fun _ => ih _ _

end Substitution

end Reckoner
