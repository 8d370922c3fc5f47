import Reckoner.Proofs.Engine.Compositional

/-!
# What events tell

The world after an evaluation can be told from its events: each of them is noted, and a call changes
the flag and the counter as the function replies. The result and the events depend on nothing but
the flag and the counter at the start. As long as the flag is not set, functions are called and
operators are applied; none of that happens once it is.
-/

namespace Reckoner

namespace Event

/-- Whether a function is called or an operator is applied. -/
def isInvocation : Event → Bool
  | .called _ _ | .applied _ _ _ => true
  | _ => false

/-- Whether a variable is bound. -/
def isWrite : Event → Bool
  | .assigned _ _ | .counted _ _ _ => true
  | _ => false

/-- Whether an event is neither, so that it only tells of what goes on. -/
def isRemark (event : Event) : Bool :=
  !event.isInvocation && !event.isWrite

lemma isRemark_of_isReplacement {event : Event} (h : event.isReplacement = true) :
    event.isRemark = true := by
  cases event with
  | replaced => rfl
  | kept => rfl
  | keptValue => rfl
  | bound => rfl
  | _ => cases h

end Event

namespace Registry

/-- Whether every function is found under its own name. -/
def IsNamed (r : Registry) : Prop :=
  ∀ name f, r.get? name = some f → Name.normalize f.name = Name.normalize name

lemma IsNamed.get?_name {r : Registry} (hr : r.IsNamed) {name : String} {f : Function}
    (h : r.get? name = some f) : r.get? f.name = some f := by
  unfold get? at h ⊢
  rw [hr name f h]
  exact h

lemma IsNamed.register {r : Registry} (hr : r.IsNamed) (f : Function) :
    (r.register f).IsNamed := by
  intro name g hg
  unfold get? Registry.register at hg
  by_cases hname : Name.normalize f.name = Name.normalize name
  · rw [hname, Assoc.find?_insert_self] at hg
    cases hg
    exact hname
  · rw [Assoc.find?_insert_of_ne _ hname] at hg
    exact hr name g hg

/-- Functions are registered under their names. -/
lemma isNamed_ofFunctions (fs : List Function) : IsNamed (ofFunctions fs) := by
  have hfold (r : Registry) (hr : r.IsNamed) : (fs.foldl Registry.register r).IsNamed := by
    induction fs generalizing r with
    | nil => exact hr
    | cons f fs ih => exact ih (r.register f) (hr.register f)
  apply hfold
  intro name f hf
  cases hf

end Registry

/-! ### Worlds along events -/

namespace World

variable {r : Registry} {w w' : World} {event : Event} {events : List Event}

@[simp] lemma cancelled_record (w : World) (event : Event) :
    (w.record event).cancelled = w.cancelled := by
  unfold record
  split <;> rfl

@[simp] lemma counter_record (w : World) (event : Event) :
    (w.record event).counter = w.counter := by
  unfold record
  split <;> rfl

/-- The world after an event, if the functions are those of a registry. -/
def after (r : Registry) (w : World) (event : Event) : World :=
  match event with
  | .called name args =>
    match r.get? name with
    | some f => (w.record event).heed (f.body w.counter args)
    | none => w.record event
  | _ => w.record event

lemma after_eq_record (h : callOf event = none) : w.after r event = w.record event := by
  cases event with
  | called => cases h
  | _ => rfl

lemma after_called {f : Function} {args : List Value} (h : r.get? f.name = some f) :
    w.after r (.called f.name args)
      = (w.record (.called f.name args)).heed (f.body w.counter args) := by
  simp only [after, h]

/-- The flag is never taken back. -/
lemma cancelled_after (h : w.cancelled = true) (event : Event) :
    (w.after r event).cancelled = true := by
  unfold after
  split
  · split
    · simp [heed, h]
    · simp [h]
  · simp [h]

lemma cancelled_foldl_after (h : w.cancelled = true) (events : List Event) :
    (events.foldl (after r) w).cancelled = true := by
  induction events generalizing w with
  | nil => exact h
  | cons event events ih => exact ih (cancelled_after h event)

/-- Whether an evaluation cannot tell two worlds from each other. -/
structure Agrees (w w' : World) : Prop where
  cancelled : w'.cancelled = w.cancelled
  counter : w'.counter = w.counter

namespace Agrees

lemma refl (w : World) : w.Agrees w :=
  ⟨rfl, rfl⟩

lemma record (h : w.Agrees w') (event event' : Event) :
    (w.record event).Agrees (w'.record event') :=
  ⟨by simp [h.cancelled], by simp [h.counter]⟩

lemma after (h : w.Agrees w') (event : Event) : (w.after r event).Agrees (w'.after r event) := by
  unfold World.after
  split
  · split
    · rw [h.counter]
      exact ⟨by simp [heed, h.cancelled], rfl⟩
    · exact h.record _ _
  · exact h.record _ _

lemma foldl (h : w.Agrees w') (events : List Event) :
    (events.foldl (World.after r) w).Agrees (events.foldl (World.after r) w') := by
  induction events generalizing w w' with
  | nil => exact h
  | cons event events ih => exact ih (h.after event)

end Agrees

/-- Whether events bind no variable, and are no invocations where the flag is set. -/
def Quiet (r : Registry) : World → List Event → Prop
  | _, [] => True
  | w, event :: events =>
    event.isWrite = false ∧ (event.isInvocation = true → w.cancelled = false)
      ∧ Quiet r (w.after r event) events

namespace Quiet

lemma append {events' : List Event} (h : Quiet r w events)
    (h' : Quiet r (events.foldl (World.after r) w) events') : Quiet r w (events ++ events') := by
  induction events generalizing w with
  | nil => exact h'
  | cons event events ih => exact ⟨h.1, h.2.1, ih h.2.2 h'⟩

lemma of_append {events' : List Event} (h : Quiet r w (events ++ events')) :
    Quiet r (events.foldl (World.after r) w) events' := by
  induction events generalizing w with
  | nil => exact h
  | cons event events ih => exact ih h.2.2

lemma isWrite_eq (h : Quiet r w events) : ∀ event ∈ events, event.isWrite = false := by
  induction events generalizing w with
  | nil => simp
  | cons event events ih => exact List.forall_mem_cons.2 ⟨h.1, ih h.2.2⟩

/-- Once the flag is set, there are no invocations. -/
lemma isInvocation_eq (h : Quiet r w events) (hw : w.cancelled = true) :
    ∀ event ∈ events, event.isInvocation = false := by
  induction events generalizing w with
  | nil => simp
  | cons event events ih =>
    refine List.forall_mem_cons.2 ⟨?_, ih h.2.2 (cancelled_after hw event)⟩
    by_contra hevent
    have hflag := h.2.1 (by simpa using hevent)
    rw [hw] at hflag
    cases hflag

end Quiet

end World

/-! ### Evaluations told by events -/

namespace Eval

open World (Quiet Agrees)

variable {α β : Type} {r : Registry} {w : World}

/-- Whether events tell what an evaluation does in a world and in all that agree with it. -/
def Traced (r : Registry) (x : Eval α) (w : World) : Prop :=
  ∃ result events, Quiet r w events
    ∧ ∀ w', w.Agrees w' → x.run w' = (result, events.foldl (World.after r) w')

namespace Traced

lemma of_result {x : Eval α} (result : Except EvalError α)
    (h : ∀ w', w.Agrees w' → x.run w' = (result, w')) : Traced r x w :=
  ⟨result, [], trivial, h⟩

lemma pure (a : α) : Traced r (Pure.pure a) w :=
  .of_result (.ok a) fun _ _ => rfl

lemma throw (err : EvalError) : Traced r (MonadExcept.throw err : Eval α) w :=
  .of_result (.error err) fun _ _ => rfl

lemma ofRuntime (x : Except RuntimeError α) : Traced r (Eval.ofRuntime x) w := by
  cases x with
  | ok a => exact pure a
  | error err => exact throw (.runtime err)

lemma ofParse (x : Except ParseError α) : Traced r (Eval.ofParse x) w := by
  cases x with
  | ok a => exact pure a
  | error err => exact throw (.parse err)

lemma bind {x : Eval α} {f : α → Eval β} (hx : Traced r x w) (hf : ∀ a w, Traced r (f a) w) :
    Traced r (x >>= f) w := by
  obtain ⟨result, events, hquiet, hrun⟩ := hx
  cases result with
  | error err =>
    refine ⟨.error err, events, hquiet, ?_⟩
    intro w' hw'
    rw [run_bind, hrun w' hw']
  | ok a =>
    obtain ⟨result, events', hquiet', hrun'⟩ := hf a (events.foldl (World.after r) w)
    refine ⟨result, events ++ events', hquiet.append hquiet', ?_⟩
    intro w' hw'
    rw [run_bind, hrun w' hw', List.foldl_append]
    exact hrun' _ (hw'.foldl events)

lemma attempt {x : Eval α} (hx : Traced r x w) : Traced r (Eval.attempt x) w := by
  obtain ⟨result, events, hquiet, hrun⟩ := hx
  refine ⟨.ok result, events, hquiet, ?_⟩
  intro w' hw'
  change (Except.ok (x.run w').1, (x.run w').2) = _
  rw [hrun w' hw']

/-- An event that is no call, and what follows it. -/
lemma note_bind {event : Event} {f : Unit → Eval α} (hcall : World.callOf event = none)
    (hwrite : event.isWrite = false) (hflag : event.isInvocation = true → w.cancelled = false)
    (hf : Traced r (f ()) (w.record event)) : Traced r (Eval.note event >>= f) w := by
  rw [← World.after_eq_record hcall] at hf
  obtain ⟨result, events, hquiet, hrun⟩ := hf
  refine ⟨result, event :: events, ⟨hwrite, hflag, hquiet⟩, ?_⟩
  intro w' hw'
  rw [List.foldl_cons, ← hrun _ (hw'.after event), World.after_eq_record hcall]
  rfl

lemma remark_bind {event : Event} {f : Unit → Eval α} (h : event.isRemark = true)
    (hf : Traced r (f ()) (w.record event)) : Traced r (Eval.note event >>= f) w := by
  simp only [Event.isRemark, Bool.and_eq_true, Bool.not_eq_true'] at h
  apply note_bind ?_ h.2 ?_ hf
  · cases event with
    | called => cases h.1
    | _ => rfl
  · intro hevent
    rw [h.1] at hevent
    cases hevent

lemma remark {event : Event} (h : event.isRemark = true) : Traced r (Eval.note event) w := by
  have hbind : Traced r (Eval.note event >>= Pure.pure) w := remark_bind h (pure ())
  rwa [bind_pure] at hbind

/-- What happens unless the evaluation is stopped. -/
lemma poll_bind {f : Unit → Eval α} (hf : w.cancelled = false → Traced r (f ()) w) :
    Traced r (Eval.poll >>= f) w := by
  cases hw : w.cancelled with
  | true =>
    apply of_result (.error .cancelled)
    intro w' hw'
    rw [run_bind, run_poll, hw'.cancelled, hw]
    rfl
  | false =>
    obtain ⟨result, events, hquiet, hrun⟩ := hf hw
    refine ⟨result, events, hquiet, ?_⟩
    intro w' hw'
    rw [run_bind, run_poll, hw'.cancelled, hw]
    exact hrun w' hw'

lemma poll : Traced r Eval.poll w := by
  have hbind : Traced r (Eval.poll >>= Pure.pure) w := poll_bind fun _ => pure ()
  rwa [bind_pure] at hbind

end Traced

/-- What is told by events is put together from parts that are. -/
lemma compositional_traced (r : Registry) :
    Compositional fun α x y => x = y ∧ ∀ w, Traced (α := α) r x w :=
  .of_forall (P := fun _ x => ∀ w, Traced r x w) (fun a _ => .pure a) (fun err _ => .throw err)
    (fun hx hf w => .bind (hx w) hf) (fun _ => .poll)
    (fun h _ => .remark (Event.isRemark_of_isReplacement h)) fun hx w => .attempt (hx w)

end Eval

end Reckoner
