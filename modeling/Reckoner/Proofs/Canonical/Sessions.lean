import Reckoner.Proofs.Canonical.Evaluations
import Reckoner.Proofs.Mode.Agreement
import Reckoner.Proofs.Session.Requests

/-!
# Sessions of canonical values

A variable is only ever set to what an evaluation made. Hence no session ever returns or stores a
complex vector without an element that is not real.
-/

namespace Reckoner

namespace Engine

/-- Whether the functions and operators of an engine make canonical values. -/
structure IsCanonical (e : Engine) : Prop where
  operators : e.operators.IsCanonical
  functions : e.functions.IsCanonical

lemma isCanonical_standard (options : Options) : (standard options).IsCanonical where
  operators := OperatorTable.isCanonical_standard
  functions := Registry.isCanonical_standard

variable {e : Engine} {c : Context}

lemma run_canonical (he : e.IsCanonical) (hc : c.IsCanonical) (text : List Char) :
    Eval.Produces Value.IsCanonical (e.run c text) :=
  .after _ fun p => .after _ fun _ =>
    Machine.execute_canonical ⟨hc, he.operators, he.functions⟩ p

/-- The value of an expression is canonical: a conditional has that of a branch, and what is run
after fragments have been replaced refers to canonical values only. -/
lemma evaluateWithin_canonical (he : e.IsCanonical) (levels : Nat) (hc : c.IsCanonical)
    (source : List Char) : Eval.Produces Value.IsCanonical (e.evaluateWithin levels c source) := by
  induction levels generalizing c source with
  | zero => exact .after _ fun _ => .throw _
  | succ levels ih =>
    unfold evaluateWithin
    refine .after _ fun _ => ?_
    dsimp only
    split
    · exact .throw _
    split
    · exact run_canonical he hc _
    split
    · refine .after _ fun condition => .after _ fun holds => ?_
      split
      · exact ih hc _
      · exact ih hc _
    · have hreplace := Substitution.substitute_canonical fun c text hc => ih (c := c) hc text
      refine .bind (P := fun r => r.2.IsCanonical) ?_ fun r hr => run_canonical he hr r.1
      exact Scratch.IsCanonical.bind (Substitution.groupsFrom_canonical hreplace [] false _)
        (fun text => Substitution.argumentsFrom_canonical hreplace _ _ [] text) c hc

/-- A statement has a canonical value and leaves a canonical context. -/
lemma execute_canonical (he : e.IsCanonical) (hc : c.IsCanonical) (text : List Char) :
    Eval.Produces (fun r => r.1.IsCanonical ∧ r.2.IsCanonical) (e.execute c text) := by
  by_cases htext : text = []
  · rw [htext, execute_nil]
    exact .after _ fun _ => .throw _
  · rw [execute_of_ne_nil htext]
    refine .after _ fun _ => ?_
    split
    · exact .bind (evaluateWithin_canonical he _ hc _) fun v hv => .pure ⟨hv, hc⟩
    · split
      · exact .bind (evaluateWithin_canonical he _ hc _) fun v hv =>
          .after _ fun _ => .pure ⟨hv, hc.set _ hv⟩
      · exact .throw _

lemma evaluate_canonical (he : e.IsCanonical) (hc : c.IsCanonical) {source : List Char}
    {w w' : World}
    {v : Value} {c' : Context} (h : (e.evaluate c source).run w = (.ok (v, c'), w')) :
    v.IsCanonical ∧ c'.IsCanonical :=
  execute_canonical he hc _ w (v, c') (by rw [execute_of_evaluate h])

/-- A statement in a session keeps its context canonical, whether it succeeds or not. -/
lemma serve_evaluate_canonical (he : e.IsCanonical) {s : Script.State} (hs : s.context.IsCanonical)
    (source : List Char) : (e.serve s (.evaluate source)).context.IsCanonical := by
  obtain ⟨c, w⟩ := s
  cases h : (e.evaluate c source).run w with
  | mk result w' =>
    cases result with
    | error err =>
      rw [serve_evaluate_error h]
      exact hs
    | ok result =>
      rw [serve_evaluate_ok h]
      exact (evaluate_canonical he hs h).2

lemma runScript_canonical (he : e.IsCanonical) (turns : Nat) (source : List Char) :
    Script.Run.Maintains Context.IsCanonical (fun result => ∀ v ∈ result, v.IsCanonical)
      (e.runScript turns source) := by
  refine Script.maintains_runScript (fun line source s hs => ⟨?_, fun v hv => ?_⟩)
    (fun c name x hc => hc.set name (Value.isCanonical_ofReal x)) turns source
  · rw [Script.Run.evaluate_run]
    exact serve_evaluate_canonical he hs source
  · change (Script.Run.evaluate e line source s).1 = .ok v at hv
    rw [Script.Run.evaluate] at hv
    split at hv
    · rename_i h
      cases hv
      exact (evaluate_canonical he hs h).1
    · cases hv

/-- A request keeps the context of a session canonical. -/
lemma serve_canonical (he : e.IsCanonical) {s : Script.State} (hs : s.context.IsCanonical)
    (r : Request) : (e.serve s r).context.IsCanonical := by
  cases r with
  | evaluate source => exact serve_evaluate_canonical he hs source
  | runScript turns source => exact (runScript_canonical he turns source s hs).1
  | loadConstants text =>
    simp only [serve, Context.loadConstants]
    cases Context.readConstants 1 (Text.lines text.toList) with
    | error err => exact hs
    | ok constants => exact hs.setAll constants

end Engine

/-! ### Sessions -/

/-- The contexts that a session of the language can come to. Between two requests the host may
change the settings and set the flag or take it back. -/
inductive Context.Reachable : Context → Prop where
  | initial : Reachable .initial
  | serve {c : Context} (h : Reachable c) (options : Options) (w : World) (r : Request) :
    Reachable ((Engine.standard options).serve ⟨c, w⟩ r).context

lemma Context.Reachable.isCanonical {c : Context} (h : c.Reachable) : c.IsCanonical := by
  induction h with
  | initial => exact isCanonical_initial
  | serve _ options w r ih =>
    exact Engine.serve_canonical (Engine.isCanonical_standard options) ih r

namespace Engine

/-- In every session with the functions and operators of the language, each complex vector that is
bound to a variable, is the value of a statement or is the last value of a script has an element
that is not real. This holds at any point of the session, also after requests that failed and
scripts that stopped halfway. -/
theorem isCanonical_of_reachable (c : Context) (h : c.Reachable) :
    (∀ name zs, (name, Value.complexVector zs) ∈ c.entries → ∃ z ∈ zs, z.isReal = false)
      ∧ ∀ options w,
        (∀ source zs c' w', ((standard options).evaluate c source).run w
            = (.ok (.complexVector zs, c'), w') → ∃ z ∈ zs, z.isReal = false)
        ∧ ∀ turns source zs s', ((standard options).runScript turns source).run ⟨c, w⟩
            = (.ok (some (.complexVector zs)), s') → ∃ z ∈ zs, z.isReal = false := by
  have hc := h.isCanonical
  refine ⟨fun name zs hzs => hc _ hzs, fun options w => ⟨fun source zs c' w' hrun => ?_,
    fun turns source zs s' hrun => ?_⟩⟩
  · exact (evaluate_canonical (isCanonical_standard options) hc hrun).1
  · have hresult := (runScript_canonical (isCanonical_standard options) turns source ⟨c, w⟩ hc).2
    exact hresult _ (by rw [hrun]) _ rfl

/-- A complex vector is bound, and its product with itself is narrowed to a real one. -/
theorem isCanonical_of_reachable_square :
    let c := ((standard {}).serve ⟨.initial, {}⟩ (.evaluate "v = [i, 2]".toList)).context
    let zs : List Complex := [⟨0, 1⟩, ⟨2, 0⟩]
    c.get? "v" = some (.complexVector zs) ∧ (∃ z ∈ zs, z.isReal = false)
      ∧ (((standard {}).evaluate c "v * v".toList).run {}).1.toOption.map Prod.fst
        = some (.realVector [-1, 4]) := by
  intro c zs
  have hv : c.get? "v" = some (.complexVector zs) := by decide +kernel
  have hreachable : c.Reachable := .serve .initial {} {} _
  refine ⟨hv, ?_, by decide +kernel⟩
  exact (isCanonical_of_reachable c hreachable).1 _ zs (Assoc.mem_of_find? hv)

end Engine

end Reckoner
