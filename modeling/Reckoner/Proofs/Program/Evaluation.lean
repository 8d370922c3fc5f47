import Reckoner.Function.Standard
import Reckoner.Proofs.Program.Compilation
import Reckoner.Proofs.Program.Runs

/-!
# The machine evaluates the tree

Only a function that asks to stop can set the flag, and as long as none does the machine comes to
the end of its program. Then it has the result of the direct evaluation, and does the same things.
-/

namespace Reckoner

namespace Assoc

variable {κ α : Type} [DecidableEq κ]

lemma mem_of_find?_foldl_insert {entries : List (κ × α)} {m : Assoc κ α} {k : κ} {v : α}
    (h : (entries.foldl (fun m (k, v) => m.insert k v) m).find? k = some v) :
    m.find? k = some v ∨ (k, v) ∈ entries := by
  induction entries generalizing m with
  | nil => exact .inl h
  | cons entry entries ih =>
    obtain ⟨k', v'⟩ := entry
    rcases ih h with hm | hmem
    · by_cases hk : k' = k
      · subst hk
        rw [find?_insert_self] at hm
        cases hm
        exact .inr List.mem_cons_self
      · rw [find?_insert_of_ne m hk] at hm
        exact .inl hm
    · exact .inr (List.mem_cons_of_mem _ hmem)

/-- What a map of entries finds is one of them. -/
lemma mem_of_find?_ofList {entries : List (κ × α)} {k : κ} {v : α}
    (h : (ofList entries).find? k = some v) : (k, v) ∈ entries := by
  rcases mem_of_find?_foldl_insert h with hempty | hmem
  · cases hempty
  · exact hmem

end Assoc

namespace Registry

/-- Whether no function asks to stop. -/
def NeverStops (functions : Registry) : Prop :=
  ∀ name f, functions.get? name = some f → ∀ counter args, (f.body counter args).cancels = false

/-- What a registry finds was registered. -/
lemma mem_of_get?_ofFunctions {fs : List Function} {name : String} {f : Function}
    (h : (ofFunctions fs).get? name = some f) : f ∈ fs := by
  have hfold : ofFunctions fs = .ofList (fs.map fun f => (Name.normalize f.name, f)) := by
    rw [Assoc.ofList, List.foldl_map]
    rfl
  rw [hfold] at h
  obtain ⟨f', hf', hpair⟩ := List.mem_map.1 (Assoc.mem_of_find?_ofList h)
  have hf : f' = f := congrArg Prod.snd hpair
  rwa [← hf]

/-- The functions of the language only look at their arguments. -/
lemma neverStops_standard : NeverStops .standard := by
  intro name f hf counter args
  have hall : (Function.numeric ++ Function.onTexts ++ Function.onDates).all
      (fun f => !(f.body counter args).cancels) = true := rfl
  simpa using List.all_eq_true.1 hall f (mem_of_get?_ofFunctions hf)

end Registry

namespace Eval

variable {α β : Type}

/-- Whether nothing in an evaluation asks to stop. -/
def KeepsFlag (x : Eval α) : Prop :=
  ∀ w, (x.run w).2.cancelled = w.cancelled

namespace KeepsFlag

lemma pure (a : α) : KeepsFlag (Pure.pure a) :=
  fun _ => rfl

lemma throw (e : EvalError) : KeepsFlag (MonadExcept.throw e : Eval α) :=
  fun _ => rfl

lemma bind {x : Eval α} {f : α → Eval β} (hx : KeepsFlag x) (hf : ∀ a, KeepsFlag (f a)) :
    KeepsFlag (x >>= f) := by
  intro w
  rw [run_bind, ← hx w]
  rcases x.run w with ⟨r, w'⟩
  cases r with
  | ok a => exact hf a w'
  | error e => rfl

lemma ofRuntime (r : Except RuntimeError α) : KeepsFlag (Eval.ofRuntime r) := by
  cases r with
  | ok a => exact pure a
  | error e => exact throw _

lemma note (e : Event) : KeepsFlag (Eval.note e) := by
  intro w
  change (w.record e).cancelled = w.cancelled
  unfold World.record
  split <;> rfl

lemma poll : KeepsFlag Eval.poll := by
  intro w
  rw [run_poll]

end KeepsFlag

end Eval

namespace Function

lemma enter_keepsFlag {f : Function} (hf : ∀ counter args, (f.body counter args).cancels = false)
    (args : List Value) : Eval.KeepsFlag (f.enter args) := by
  intro w
  have hrecord : (w.record (.called f.name args)).cancelled = w.cancelled :=
    Eval.KeepsFlag.note _ w
  rw [enter_run, Eval.KeepsFlag.ofRuntime]
  simp only [World.heed, hrecord, hf, Bool.or_false]

lemma apply_keepsFlag {f : Function} (hf : ∀ counter args, (f.body counter args).cancels = false)
    (args : List Value) : Eval.KeepsFlag (f.apply args) := by
  unfold apply
  split
  · exact enter_keepsFlag hf args
  · split
    · exact enter_keepsFlag hf args
    · exact .throw _

end Function

namespace Machine

open Eval

variable {m : Machine}

lemma call_keepsFlag (hm : m.functions.NeverStops) (name : String) (args : List Value) :
    KeepsFlag (m.call name args) := by
  rw [call_eq]
  cases hf : m.functions.get? name with
  | none => exact .throw _
  | some f => exact Function.apply_keepsFlag (hm name f hf) args

lemma step_keepsFlag (hm : m.functions.NeverStops) (i : Instruction) (stack : List Value) :
    KeepsFlag (m.step i stack) := by
  unfold step
  split
  · exact .pure _
  · exact .pure _
  · exact .bind (.ofRuntime _) fun _ => .pure _
  · exact .bind (.ofRuntime _) fun _ => .pure _
  · exact .throw _
  · exact .bind (.bind (.note _) fun _ => .ofRuntime _) fun _ => .pure _
  · exact .throw _
  · exact .bind (.ofRuntime _) fun _ => .bind (call_keepsFlag hm _ _) fun _ => .pure _
  · exact .bind (.ofRuntime _) fun _ => .bind (.ofRuntime _) fun _ => .pure _
  · refine .bind (.ofRuntime _) fun b => ?_
    cases b <;> exact .pure _
  · exact .throw _
  · exact .pure _

/-- No instruction asks to stop, so that only a function can. -/
lemma run_keepsFlag (hm : m.functions.NeverStops) (p : Program) (n : Nat) (s : State) :
    KeepsFlag (m.run p n s) := by
  induction n generalizing s with
  | zero =>
    unfold run
    cases p.code[s.position]? with
    | none => exact .bind (.ofRuntime _) fun _ => .pure _
    | some i => exact .pure _
  | succ n ih =>
    unfold run
    cases p.code[s.position]? with
    | none => exact .bind (.ofRuntime _) fun _ => .pure _
    | some i =>
      exact .bind .poll fun _ => .bind (.note _) fun _ => .bind (step_keepsFlag hm _ _) fun _ =>
        ih _

lemma execute_keepsFlag (hm : m.functions.NeverStops) (p : Program) :
    KeepsFlag (m.execute p) := by
  refine .bind (run_keepsFlag hm p _ _) fun v => ?_
  cases v with
  | some v => exact .pure v
  | none => exact .throw _

/-- The program of a tree has the result of its direct evaluation and makes the same calls in the
same order, unless it is asked to stop. Only a function can ask for that. -/
theorem execute_eq_eval (m : Machine) (e : Expr) (he : e.WellFormed m.functions.isFunction) :
    ∃ p, Program.compile m.functions.isFunction e.tokens = .ok p
      ∧ ∀ w : World, w.cancelled = false →
        (((m.execute p).run w).2.cancelled = false →
          ((m.execute p).run w).1 = ((e.eval m).run w).1
            ∧ ((m.execute p).run w).2.calls = ((e.eval m).run w).2.calls
            ∧ ((m.execute p).run w).2.counter = ((e.eval m).run w).2.counter)
        ∧ (m.functions.NeverStops → ((m.execute p).run w).2.cancelled = false) := by
  refine ⟨e.program, Program.compile_eq_ok_iff.2 ⟨e, ⟨he, rfl⟩, rfl⟩, fun w hw => ⟨?_, ?_⟩⟩
  · intro hflag
    rcases execute_program_follows m e w w rfl with ⟨hresult, hworld⟩ | ⟨-, hstopped⟩
    · refine ⟨hresult, ?_, congrArg (·.counter) hworld⟩
      rw [← World.calls_withoutSteps, hworld, World.calls_withoutSteps]
    · rw [hflag] at hstopped
      cases hstopped
  · intro hm
    rw [execute_keepsFlag hm, hw]

/-- The conditional inside the call takes its second branch, so that the variable, which has no
value, does no harm. -/
theorem execute_eq_eval_max :
    let m : Machine := ⟨.empty, .standard, .standard⟩
    let e : Expr := .call "max"
      [.conditional (.number 0) (.identifier "missing") (.number 2),
        .unary .negate (.group (.binary .add (.number 1) (.number 1)))]
    e.WellFormed m.functions.isFunction
      ∧ ∃ p, Program.compile m.functions.isFunction e.tokens = .ok p
        ∧ ((m.execute p).run { recording := true }).1 = ((e.eval m).run { recording := true }).1
        ∧ ((m.execute p).run { recording := true }).2.calls.length = 1 := by
  intro m e
  have hmax : Registry.standard.isFunction "max" = true := by decide +kernel
  have hmissing : Registry.standard.isFunction "missing" = false := by decide +kernel
  have he : e.WellFormed m.functions.isFunction := by
    simp only [e, m, Expr.WellFormed, Expr.AllWellFormed, hmax, hmissing]
    decide
  obtain ⟨p, hp, h⟩ := execute_eq_eval m e he
  obtain ⟨hsame, hflag⟩ := h { recording := true } rfl
  obtain ⟨hresult, hcalls, -⟩ := hsame (hflag Registry.neverStops_standard)
  refine ⟨he, p, hp, hresult, ?_⟩
  rw [hcalls]
  decide +kernel

end Machine

end Reckoner
