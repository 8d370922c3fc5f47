import Reckoner.Proofs.Call.Runs

/-!
# Counting the calls of an evaluation

How often a function is called is read off the journal of a world. An evaluation delivers a value
and a number of calls if it does so in every world that does not ask it to stop.
-/

namespace Reckoner

/-! ### Counting calls -/

/-- How often a function was called. -/
def World.timesCalled (f : String) (w : World) : Nat :=
  w.journal.countP (Event.isCallOf f)

namespace World

variable {f : String} {w : World} {event : Event}

lemma recording_record (w : World) (event : Event) : (w.record event).recording = w.recording := by
  unfold record
  split <;> rfl

lemma timesCalled_record (hw : w.recording = true) :
    (w.record event).timesCalled f = w.timesCalled f + (Event.isCallOf f event).toNat := by
  rw [record, if_pos hw, timesCalled, timesCalled, List.countP_cons]
  cases Event.isCallOf f event <;> rfl

lemma timesCalled_record_of_callOf (h : callOf event = none) :
    (w.record event).timesCalled f = w.timesCalled f := by
  unfold record
  split
  · cases event <;> first | rfl | cases h
  · rfl

lemma timesCalled_withoutSteps (w : World) : w.withoutSteps.timesCalled f = w.timesCalled f := by
  have hcall : ∀ e : Event, (Event.isCallOf f e && !isStep e) = Event.isCallOf f e := by
    intro e
    cases e <;> simp [isStep, Event.isCallOf]
  simp only [timesCalled, withoutSteps, List.countP_filter, hcall]

end World

namespace Eval

variable {α β : Type} {f : String}

/-- Whether an evaluation keeps recording, and calls a function at no time if `P` holds. -/
def Records (P : Prop) (f : String) (x : Eval α) : Prop :=
  ∀ w, w.recording = true → (x.run w).2.recording = true
    ∧ (P → (x.run w).2.timesCalled f = w.timesCalled f)

namespace Records

variable {P Q : Prop} {x : Eval α}

lemma pure (a : α) : Records P f (Pure.pure a) :=
  fun _ hw => ⟨hw, fun _ => rfl⟩

lemma throw (err : EvalError) : Records P f (MonadExcept.throw err : Eval α) :=
  fun _ hw => ⟨hw, fun _ => rfl⟩

lemma mono (h : Records P f x) (hQ : Q → P) : Records Q f x :=
  fun w hw => (h w hw).imp_right fun h hq => h (hQ hq)

lemma bind {g : α → Eval β} (hx : Records P f x) (hg : ∀ a, Records P f (g a)) :
    Records P f (x >>= g) := by
  intro w hw
  obtain ⟨hrecording, hcalls⟩ := hx w hw
  rw [run_bind]
  generalize x.run w = outcome at hrecording hcalls
  obtain ⟨err | a, w₁⟩ := outcome
  · exact ⟨hrecording, hcalls⟩
  · obtain ⟨hrecording', hcalls'⟩ := hg a w₁ hrecording
    exact ⟨hrecording', fun hP => (hcalls' hP).trans (hcalls hP)⟩

lemma ofRuntime (r : Except RuntimeError α) : Records P f (Eval.ofRuntime r) := by
  cases r with
  | ok a => exact pure a
  | error err => exact throw _

lemma note {event : Event} (h : World.callOf event = none) : Records P f (Eval.note event) :=
  fun w hw => ⟨(w.recording_record event).trans hw, fun _ => World.timesCalled_record_of_callOf h⟩

end Records

/-- Whether an evaluation has a result, and calls a function so many times. -/
def Delivers (f : String) (x : Eval α) (a : α) (n : Nat) : Prop :=
  ∀ w, w.recording = true → ∃ w', x.run w = (.ok a, w') ∧ w'.recording = true
    ∧ w'.timesCalled f = w.timesCalled f + n

namespace Delivers

variable {x : Eval α} {a : α} {b : β} {m n : Nat}

lemma pure (a : α) : Delivers f (Pure.pure a) a 0 :=
  fun w hw => ⟨w, rfl, hw, rfl⟩

lemma bind {g : α → Eval β} (hx : Delivers f x a m) (hg : Delivers f (g a) b n) :
    Delivers f (x >>= g) b (m + n) := by
  intro w hw
  obtain ⟨w₁, hrun, hw₁, hcalls⟩ := hx w hw
  obtain ⟨w₂, hrun', hw₂, hcalls'⟩ := hg w₁ hw₁
  exact ⟨w₂, by rw [run_bind, hrun]; exact hrun', hw₂, by omega⟩

lemma ofRuntime {r : Except RuntimeError α} (h : r.toOption = some a) :
    Delivers f (Eval.ofRuntime r) a 0 := by
  rw [Except.toOption_eq_some_iff] at h
  exact h ▸ pure a

lemma ofRuntime_bind {r : Except RuntimeError α} {g : α → Eval β} (h : r.toOption = some a)
    (hg : Delivers f (g a) b n) : Delivers f (Eval.ofRuntime r >>= g) b n :=
  n.zero_add ▸ bind (ofRuntime h) hg

lemma note_bind {event : Event} {g : Unit → Eval β} (h : World.callOf event = none)
    (hg : Delivers f (g ()) b n) : Delivers f (Eval.note event >>= g) b n := by
  intro w hw
  obtain ⟨w', hrun, hw', hcalls⟩ := hg (w.record event) ((w.recording_record event).trans hw)
  exact ⟨w', hrun, hw', by rw [hcalls, World.timesCalled_record_of_callOf h]⟩

end Delivers

end Eval

/-- Whether the results of functions depend on their arguments only. -/
def Registry.IsPure (fs : Registry) : Prop :=
  ∀ name g, fs.get? name = some g → g.IsPure

namespace Function

lemma enter_records (g : Function) (f : String) (args : List Value) :
    Eval.Records False f (g.enter args) := by
  intro w hw
  refine ⟨?_, False.elim⟩
  rw [enter_run]
  generalize (g.body w.counter args).result = r
  cases r <;> exact (w.recording_record _).trans hw

lemma apply_records (g : Function) (f : String) (args : List Value) :
    Eval.Records False f (g.apply args) := by
  unfold apply
  split
  · exact g.enter_records f args
  · split
    · exact g.enter_records f args
    · exact .throw _

lemma enter_delivers {g : Function} (hg : g.IsPure) {f : String} {args : List Value} {v : Value}
    (h : (g.body 0 args).result.toOption = some v) :
    Eval.Delivers f (g.enter args) v (Event.isCallOf f (.called g.name args)).toNat := by
  intro w hw
  rw [← hg w.counter, Except.toOption_eq_some_iff] at h
  refine ⟨_, by rw [enter_run, h]; rfl, ?_, ?_⟩
  · exact (w.recording_record _).trans hw
  · exact World.timesCalled_record hw

/-- A call that has a result enters the body once. -/
lemma apply_delivers {g : Function} (hg : g.IsPure) {f : String} {args : List Value} {v : Value}
    (h : (g.invoke 0 args).result.toOption = some v) :
    Eval.Delivers f (g.apply args) v (Event.isCallOf f (.called g.name args)).toNat := by
  unfold invoke at h
  unfold apply
  split at h
  · split at h
    · simp only [*]
      exact enter_delivers hg h
    · cases h
  · simp only [*]
    exact enter_delivers hg h

end Function

namespace Expr

mutual

/-- An expression without calls calls nothing. -/
lemma eval_records {f : String} (m : Machine) (e : Expr) :
    Eval.Records (e.calls = 0) f (e.eval m) := by
  cases e with
  | number x => exact .pure _
  | text s => exact .pure _
  | identifier name => exact .ofRuntime _
  | group e => exact e.eval_records m
  | call name args =>
    refine .mono (P := False) (.bind ((evalAll_records m args).mono False.elim) fun vs => ?_) nofun
    split
    · exact Function.apply_records _ f vs
    · exact .throw _
  | vector items => exact .bind (evalAll_records m items) fun vs => .ofRuntime _
  | unary op e => exact .bind (e.eval_records m) fun v => .ofRuntime _
  | binary op l r =>
    refine .bind ((l.eval_records m).mono Nat.eq_zero_of_add_eq_zero_right) fun v => ?_
    refine .bind ((r.eval_records m).mono Nat.eq_zero_of_add_eq_zero_left) fun w => ?_
    exact .bind (.note rfl) fun _ => .ofRuntime _
  | conditional p t e =>
    have hcalls : calls (.conditional p t e) = 0 → p.calls = 0 ∧ t.calls = 0 ∧ e.calls = 0 := by
      simp only [calls]
      omega
    refine .bind ((p.eval_records m).mono fun h => (hcalls h).1) fun v => ?_
    refine .bind (.ofRuntime _) fun b => ?_
    cases b with
    | true => exact (t.eval_records m).mono fun h => (hcalls h).2.1
    | false => exact (e.eval_records m).mono fun h => (hcalls h).2.2

lemma evalAll_records {f : String} (m : Machine) (es : List Expr) :
    Eval.Records (listCalls es = 0) f (evalAll m es) := by
  cases es with
  | nil => exact .pure _
  | cons e es =>
    refine .bind ((e.eval_records m).mono Nat.eq_zero_of_add_eq_zero_right) fun v => ?_
    refine .bind ((evalAll_records m es).mono Nat.eq_zero_of_add_eq_zero_left) fun vs => ?_
    exact .pure _

end

end Expr

end Reckoner
