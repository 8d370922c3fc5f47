import Mathlib.Data.List.Forall2
import Reckoner.Proofs.Engine.Traces

/-!
# Evaluations that resemble each other

Two evaluations resemble each other if they have related results in worlds that they cannot tell
from each other, and leave such worlds. The journal makes no difference then.
-/

namespace Reckoner

/-- Results of the same kind, whose values are related by `R` and whose errors by `E`. -/
inductive Corresponds {ε α β : Type} (E : ε → ε → Prop) (R : α → β → Prop) :
    Except ε α → Except ε β → Prop where
  | ok {a : α} {b : β} (h : R a b) : Corresponds E R (.ok a) (.ok b)
  | error {err err' : ε} (h : E err err') : Corresponds E R (.error err) (.error err')

namespace Corresponds

variable {ε α β γ δ : Type} {E : ε → ε → Prop} {R : α → β → Prop} {S : γ → δ → Prop}

lemma bind {x : Except ε α} {y : Except ε β} {f : α → Except ε γ} {g : β → Except ε δ}
    (h : Corresponds E R x y) (hf : ∀ a b, R a b → Corresponds E S (f a) (g b)) :
    Corresponds E S (x >>= f) (y >>= g) := by
  cases h with
  | ok h => exact hf _ _ h
  | error h => exact .error h

lemma map {x : Except ε α} {y : Except ε β} {f : α → γ} {g : β → δ} (h : Corresponds E R x y)
    (hf : ∀ a b, R a b → S (f a) (g b)) : Corresponds E S (x.map f) (y.map g) := by
  cases h with
  | ok h => exact .ok (hf _ _ h)
  | error h => exact .error h

lemma eq {x y : Except ε α} (h : Corresponds Eq Eq x y) : x = y := by
  cases h with
  | ok h => rw [h]
  | error h => rw [h]

end Corresponds

/-! ### Evaluations -/

namespace Eval

variable {α β γ δ : Type} {E : EvalError → EvalError → Prop} {R : α → β → Prop} {S : γ → δ → Prop}

/-- Whether two evaluations have related results in worlds that they cannot tell from each other,
and leave such worlds. -/
def Resembles (E : EvalError → EvalError → Prop) (R : α → β → Prop) (x : Eval α) (y : Eval β) :
    Prop :=
  ∀ w w' : World, w.Agrees w' →
    Corresponds E R (x.run w).1 (y.run w').1 ∧ (x.run w).2.Agrees (y.run w').2

namespace Resembles

lemma pure {a : α} {b : β} (h : R a b) : Resembles E R (Pure.pure a) (Pure.pure b) :=
  fun _ _ hw => ⟨.ok h, hw⟩

lemma throw {err err' : EvalError} (h : E err err') :
    Resembles E R (MonadExcept.throw err) (MonadExcept.throw err') :=
  fun _ _ hw => ⟨.error h, hw⟩

lemma bind {x : Eval α} {y : Eval β} {f : α → Eval γ} {g : β → Eval δ} (h : Resembles E R x y)
    (hf : ∀ a b, R a b → Resembles E S (f a) (g b)) : Resembles E S (x >>= f) (y >>= g) := by
  intro w w' hw
  rw [run_bind, run_bind]
  rcases hx : x.run w with ⟨r, w₁⟩
  rcases hy : y.run w' with ⟨r', w₁'⟩
  obtain ⟨hr, hw₁⟩ := h w w' hw
  rw [hx, hy] at hr hw₁
  cases hr with
  | ok hr => exact hf _ _ hr w₁ w₁' hw₁
  | error hr => exact ⟨.error hr, hw₁⟩

lemma ofRuntime (hE : ∀ err, E err err) (r : Except RuntimeError α) :
    Resembles E Eq (Eval.ofRuntime r) (Eval.ofRuntime r) := by
  cases r with
  | ok a => exact pure rfl
  | error err => exact throw (hE (.runtime err))

lemma ofParse {r : Except ParseError α} {r' : Except ParseError β}
    (h : Corresponds (fun err err' => E (.parse err) (.parse err')) R r r') :
    Resembles E R (Eval.ofParse r) (Eval.ofParse r') := by
  cases h with
  | ok h => exact pure h
  | error h => exact throw h

/-- What is noted makes no difference. -/
lemma note (event event' : Event) : Resembles E Eq (Eval.note event) (Eval.note event') :=
  fun _ _ hw => ⟨.ok rfl, hw.record event event'⟩

lemma poll (hE : E .cancelled .cancelled) : Resembles E Eq Eval.poll Eval.poll := by
  intro w w' hw
  rw [run_poll, run_poll, hw.cancelled]
  cases w.cancelled with
  | true => exact ⟨.error hE, hw⟩
  | false => exact ⟨.ok rfl, hw⟩

lemma attempt {E' : EvalError → EvalError → Prop} {x : Eval α} {y : Eval β}
    (h : Resembles E R x y) :
    Resembles E' (Corresponds E R) (Eval.attempt x) (Eval.attempt y) := by
  intro w w' hw
  obtain ⟨hr, hw'⟩ := h w w' hw
  exact ⟨.ok hr, hw'⟩

end Resembles

end Eval

/-! ### Runs of the machine -/

open Eval (Resembles)

variable {E : EvalError → EvalError → Prop}

lemma Function.apply_resembles (hE : ∀ err, E err err) (f : Function) (args : List Value) :
    Resembles E Eq (f.apply args) (f.apply args) := by
  have henter : Resembles E Eq (f.enter args) (f.enter args) := by
    intro w w' hw
    rw [enter_run, enter_run, hw.counter]
    refine Resembles.ofRuntime hE _ _ _ ⟨?_, rfl⟩
    simp [World.heed, hw.cancelled]
  unfold apply
  split
  · exact henter
  · split
    · exact henter
    · exact .throw (hE _)

namespace Machine

variable {m : Machine} {I : Instruction → Instruction → Prop}

/-- An instruction sees nothing of the world but its counter. -/
lemma step_resembles (hE : ∀ err, E err err) (m : Machine) (i : Instruction) (stack : List Value) :
    Resembles E Eq (m.step i stack) (m.step i stack) := by
  have hpush {x : Eval Value} (hx : Resembles E Eq x x) (stack : List Value) :
      Resembles E Eq (do return ((none : Option Nat), (← x) :: stack))
        (do return ((none : Option Nat), (← x) :: stack)) := by
    refine .bind hx fun v v' hv => .pure ?_
    rw [hv]
  have hcall (name : String) (args : List Value) :
      Resembles E Eq (m.call name args) (m.call name args) := by
    rw [call_eq]
    cases m.functions.get? name with
    | none => exact .throw (hE _)
    | some f => exact f.apply_resembles hE args
  have hbinary (op : BinaryOperator) (left right : Value) :
      Resembles E Eq (m.binary op left right) (m.binary op left right) :=
    .bind (.note _ _) fun _ _ _ => .ofRuntime hE _
  unfold step
  split
  · exact .pure rfl
  · exact .pure rfl
  · exact hpush (.ofRuntime hE _) _
  · exact hpush (.ofRuntime hE _) _
  · exact .throw (hE _)
  · exact hpush (hbinary _ _ _) _
  · exact .throw (hE _)
  · refine .bind (.ofRuntime hE _) ?_
    rintro ⟨args, rest⟩ _ rfl
    exact hpush (hcall _ args) rest
  · refine .bind (.ofRuntime hE _) ?_
    rintro ⟨vs, rest⟩ _ rfl
    exact hpush (.ofRuntime hE _) rest
  · refine .bind (.ofRuntime hE _) ?_
    rintro holds _ rfl
    split
    · exact .pure rfl
    · exact .pure rfl
  · exact .throw (hE _)
  · exact .pure rfl

/-- Programs whose instructions are related end together. -/
lemma getElem?_code_cases {p p' : Program} (hp : List.Forall₂ I p.code.toList p'.code.toList)
    (n : Nat) :
    (p.code[n]? = none ∧ p'.code[n]? = none)
      ∨ ∃ i i', p.code[n]? = some i ∧ p'.code[n]? = some i' ∧ I i i' := by
  have hlength : p.code.size = p'.code.size := by simpa using hp.length_eq
  by_cases hlt : n < p.code.size
  · have hlt' : n < p'.code.size := hlength ▸ hlt
    refine .inr ⟨_, _, Array.getElem?_eq_getElem hlt, Array.getElem?_eq_getElem hlt', ?_⟩
    simpa using hp.get (i := n) (by simpa using hlt) (by simpa using hlt')
  · exact .inl ⟨Array.getElem?_eq_none_iff.2 (by omega), Array.getElem?_eq_none_iff.2 (by omega)⟩

/-- Programs whose instructions resemble each other have runs that do. -/
lemma run_resembles (hE : ∀ err, E err err)
    (hstep : ∀ i i', I i i' → ∀ stack, Resembles E Eq (m.step i stack) (m.step i' stack))
    {p p' : Program} (hp : List.Forall₂ I p.code.toList p'.code.toList) (n : Nat) (s : State) :
    Resembles E Eq (m.run p n s) (m.run p' n s) := by
  have hend (stack : List Value) : Resembles E Eq (some <$> Eval.ofRuntime (result stack))
      (some <$> Eval.ofRuntime (result stack)) := by
    rw [map_eq_pure_bind]
    exact .bind (.ofRuntime hE _) fun v v' hv => .pure (congrArg some hv)
  induction n generalizing s with
  | zero =>
    unfold run
    rcases getElem?_code_cases hp s.position with ⟨hi, hi'⟩ | ⟨i, i', hi, hi', -⟩
    · rw [hi, hi']
      exact hend s.stack
    · rw [hi, hi']
      exact .pure rfl
  | succ n ih =>
    unfold run
    rcases getElem?_code_cases hp s.position with ⟨hi, hi'⟩ | ⟨i, i', hi, hi', hstep'⟩
    · rw [hi, hi']
      exact hend s.stack
    · rw [hi, hi']
      refine .bind (.poll (hE _)) fun _ _ _ => .bind (.note _ _) fun _ _ _ =>
        .bind (hstep i i' hstep' s.stack) ?_
      rintro ⟨target, stack⟩ _ rfl
      exact ih _

lemma execute_resembles (hE : ∀ err, E err err)
    (hstep : ∀ i i', I i i' → ∀ stack, Resembles E Eq (m.step i stack) (m.step i' stack))
    {p p' : Program} (hp : List.Forall₂ I p.code.toList p'.code.toList) :
    Resembles E Eq (m.execute p) (m.execute p') := by
  have hsize : p.size = p'.size := by
    rw [Program.size, Program.size]
    simpa using hp.length_eq
  unfold execute
  rw [hsize]
  refine .bind (run_resembles hE hstep hp _ _) ?_
  rintro v _ rfl
  cases v with
  | some v => exact .pure rfl
  | none => exact .throw (hE _)

lemma execute_resembles_self (m : Machine) (p : Program) :
    Resembles Eq Eq (m.execute p) (m.execute p) := by
  have hself : List.Forall₂ Eq p.code.toList p.code.toList :=
    List.forall₂_same.2 fun _ _ => rfl
  have hstep : ∀ i i', i = i' → ∀ stack, Resembles Eq Eq (m.step i stack) (m.step i' stack) := by
    rintro i _ rfl stack
    exact step_resembles (fun _ => rfl) m i stack
  exact execute_resembles (fun _ => rfl) hstep hself

/-- The result of a program does not depend on the journal. -/
lemma execute_congr (m : Machine) (p : Program) {w w' : World} (hw : w.Agrees w') :
    ((m.execute p).run w).1 = ((m.execute p).run w').1 :=
  (execute_resembles_self m p w w' hw).1.eq

end Machine

/-! ### Expressions and statements with another journal -/

/-- An evaluation resembles itself if its parts do. -/
lemma Eval.compositional_resembles : Compositional fun _ => Resembles Eq Eq where
  pure _ := .pure rfl
  throw _ := .throw rfl
  bind h hf := h.bind fun a _ hab => hab ▸ hf a
  poll := .poll rfl
  note _ := .note _ _
  recover h _ hk := .bind (R := Corresponds Eq Eq) h.attempt fun r _ hr => hr.eq ▸ hk r

namespace Engine

lemma evaluateExpression_resembles (e : Engine) (c : Context) (source : List Char) :
    Resembles Eq Eq (e.evaluateExpression c source) (e.evaluateExpression c source) := by
  have hrun (c : Context) (text : List Char) : Resembles Eq Eq (e.run c text) (e.run c text) := by
    refine .bind (R := Eq) (.ofParse ?_) ?_
    · cases e.compile text with
      | ok program => exact .ok rfl
      | error err => exact .error rfl
    · rintro program _ rfl
      exact .bind (.note _ _) fun _ _ _ => Machine.execute_resembles_self _ program
  have hzero (c : Context) (source : List Char) :
      Resembles Eq Eq (e.evaluateWithin 0 c source) (e.evaluateWithin 0 c source) :=
    .bind (.poll rfl) fun _ _ _ => .throw rfl
  exact evaluateWithin_related Eval.compositional_resembles rfl rfl hrun hzero
    (e.options.maxDepth + 1) c source

lemma execute_resembles (e : Engine) (c : Context) (text : List Char) :
    Resembles Eq Eq (e.execute c text) (e.execute c text) := by
  by_cases htext : text = []
  · rw [htext, execute_nil]
    exact .bind (.poll rfl) fun _ _ _ => .throw rfl
  · rw [execute_of_ne_nil htext]
    refine .bind (.poll rfl) fun _ _ _ => ?_
    cases Statement.ofText text with
    | expression source =>
      exact .bind (evaluateExpression_resembles e c source) fun v v' hv => .pure (by rw [hv])
    | assignment target source =>
      dsimp only
      split
      · refine .bind (evaluateExpression_resembles e c source) ?_
        rintro v _ rfl
        exact .bind (.note _ _) fun _ _ _ => .pure rfl
      · exact .throw rfl

/-- A statement has the same result and leaves states that cannot be told apart. -/
lemma perform_congr (e : Engine) (source : List Char) {s s' : Script.State} (hs : s.Agrees s') :
    (e.perform s' source).1 = (e.perform s source).1
      ∧ (e.perform s source).2.Agrees (e.perform s' source).2 := by
  obtain ⟨hresult, hworld⟩ :=
    execute_resembles e s.context (Text.trim source) s.world s'.world hs.world
  rw [perform_eq, perform_eq, hs.context]
  generalize (e.execute s.context (Text.trim source)).run s.world = outcome at hresult hworld
  generalize (e.execute s.context (Text.trim source)).run s'.world = outcome' at hresult hworld
  obtain ⟨result, w⟩ := outcome
  obtain ⟨result', w'⟩ := outcome'
  cases hresult with
  | error h =>
    cases h
    exact ⟨rfl, rfl, hworld⟩
  | ok h =>
    cases h
    exact ⟨rfl, rfl, hworld⟩

end Engine

end Reckoner
