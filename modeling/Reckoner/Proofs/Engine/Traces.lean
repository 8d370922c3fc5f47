import Reckoner.Proofs.Engine.Events

/-!
# Evaluations told by events

The machine, an expression and a statement do what their events tell. As long as the flag is not
set, functions are called and operators are applied; none of that happens once it is.
-/

namespace Reckoner

namespace Function

open Eval (Traced)

/-- A call is told by its event if the function is found under its name. -/
lemma enter_traced {r : Registry} {f : Function} (hf : r.get? f.name = some f) (args : List Value)
    {w : World} (hw : w.cancelled = false) : Traced r (f.enter args) w := by
  refine ⟨?_, [.called f.name args], ⟨rfl, fun _ => hw, trivial⟩, ?_⟩
  · exact (f.body w.counter args).result.mapError .runtime
  · intro w' hw'
    rw [enter_run, List.foldl_cons, World.after_called hf, hw'.counter]
    cases (f.body w.counter args).result with
    | ok v => rfl
    | error err => rfl

lemma apply_traced {r : Registry} {f : Function} (hf : r.get? f.name = some f) (args : List Value)
    {w : World} (hw : w.cancelled = false) : Traced r (f.apply args) w := by
  unfold apply
  split
  · exact enter_traced hf args hw
  · split
    · exact enter_traced hf args hw
    · exact .throw _

end Function

namespace Machine

open Eval (Traced)

variable {m : Machine} {w : World}

lemma call_traced (hm : m.functions.IsNamed) (name : String) (args : List Value)
    (hw : w.cancelled = false) : Traced m.functions (m.call name args) w := by
  rw [call_eq]
  cases hf : m.functions.get? name with
  | none => exact .throw _
  | some f => exact Function.apply_traced (hm.get?_name hf) args hw

lemma binary_traced (m : Machine) (op : BinaryOperator) (left right : Value)
    (hw : w.cancelled = false) : Traced m.functions (m.binary op left right) w :=
  .note_bind rfl rfl (fun _ => hw) (.ofRuntime _)

/-- An instruction makes at most one invocation, and that first of all. -/
lemma step_traced (hm : m.functions.IsNamed) (i : Instruction) (stack : List Value)
    (hw : w.cancelled = false) : Traced m.functions (m.step i stack) w := by
  unfold step
  split
  · exact .pure _
  · exact .pure _
  · exact .bind (.ofRuntime _) fun _ _ => .pure _
  · exact .bind (.ofRuntime _) fun _ _ => .pure _
  · exact .throw _
  · exact .bind (m.binary_traced _ _ _ hw) fun _ _ => .pure _
  · exact .throw _
  · generalize split _ _ _ = parts
    cases parts with
    | error err => exact .throw (.runtime err)
    | ok parts =>
      obtain ⟨args, stack⟩ := parts
      change Traced _ (m.call _ args >>= fun v => pure (none, v :: stack)) w
      exact .bind (call_traced hm _ args hw) fun _ _ => .pure _
  · exact .bind (.ofRuntime _) fun _ _ => .bind (.ofRuntime _) fun _ _ => .pure _
  · apply Traced.bind (.ofRuntime _)
    intro holds _
    cases holds with
    | true => exact .pure _
    | false => exact .pure _
  · exact .throw _
  · exact .pure _

/-- Before each instruction the machine looks at the flag. -/
lemma run_traced (hm : m.functions.IsNamed) (p : Program) (n : Nat) (s : State) (w : World) :
    Traced m.functions (m.run p n s) w := by
  have hdone (s : State) (w : World) :
      Traced m.functions (some <$> Eval.ofRuntime (result s.stack)) w := by
    rw [map_eq_pure_bind]
    exact .bind (.ofRuntime _) fun _ _ => .pure _
  induction n generalizing s w with
  | zero =>
    unfold run
    cases p.code[s.position]? with
    | none => exact hdone s w
    | some i => exact .pure _
  | succ n ih =>
    unfold run
    cases p.code[s.position]? with
    | none => exact hdone s w
    | some i =>
      apply Traced.poll_bind
      intro hw
      apply Traced.remark_bind rfl
      apply Traced.bind (step_traced hm i s.stack (by simpa using hw))
      intro next w
      exact ih _ w

lemma execute_traced (hm : m.functions.IsNamed) (p : Program) (w : World) :
    Traced m.functions (m.execute p) w := by
  apply Traced.bind (run_traced hm p _ _ w)
  intro v w
  cases v with
  | some v => exact .pure v
  | none => exact .throw _

end Machine

/-! ### Expressions -/

namespace Engine

open Eval (Traced)

variable {e : Engine}

lemma run_traced (he : e.functions.IsNamed) (c : Context) (source : List Char) (w : World) :
    Traced e.functions (e.run c source) w := by
  apply Traced.bind (.ofParse _)
  intro program w
  apply Traced.remark_bind rfl
  exact Machine.execute_traced (m := ⟨c, e.operators, e.functions⟩) he program _

/-- Events tell what an evaluation does, in either mode. -/
lemma evaluateExpression_traced (he : e.functions.IsNamed) (c : Context) (source : List Char)
    (w : World) : Traced e.functions (e.evaluateExpression c source) w := by
  have hzero (c : Context) (source : List Char) :
      e.evaluateWithin 0 c source = e.evaluateWithin 0 c source
        ∧ ∀ w, Traced e.functions (e.evaluateWithin 0 c source) w :=
    ⟨rfl, fun _ => .bind .poll fun _ _ => .throw _⟩
  have hrelated := evaluateWithin_related (Eval.compositional_traced e.functions) rfl rfl
    (fun c text => ⟨rfl, run_traced he c text⟩) hzero (e.options.maxDepth + 1) c source
  exact hrelated.2 w

end Engine

/-! ### Statements -/

namespace Script.State

variable {r : Registry} {s s' : State} {event : Event} {events : List Event}

/-- The state after an event: one that binds a variable changes the context. -/
def after (r : Registry) (s : State) (event : Event) : State where
  context :=
    match event with
    | .assigned name v => s.context.set name v
    | .counted _ name x => s.context.set name (.ofReal x)
    | _ => s.context
  world := s.world.after r event

@[simp] lemma world_foldl_after (r : Registry) (s : State) (events : List Event) :
    (events.foldl (after r) s).world = events.foldl (World.after r) s.world := by
  induction events generalizing s with
  | nil => rfl
  | cons event events ih => exact ih (s.after r event)

lemma cancelled_after (h : World.callOf event = none) :
    (s.after r event).world.cancelled = s.world.cancelled := by
  change (s.world.after r event).cancelled = s.world.cancelled
  rw [World.after_eq_record h, World.cancelled_record]

lemma after_of_not_isWrite (h : event.isWrite = false) :
    s.after r event = ⟨s.context, s.world.after r event⟩ := by
  cases event with
  | assigned => cases h
  | counted => cases h
  | _ => rfl

/-- Events that bind no variable leave the context as it is. -/
lemma foldl_after_of_not_isWrite (h : ∀ event ∈ events, event.isWrite = false) :
    events.foldl (after r) s = ⟨s.context, events.foldl (World.after r) s.world⟩ := by
  induction events generalizing s with
  | nil => rfl
  | cons event events ih =>
    obtain ⟨hevent, hevents⟩ := List.forall_mem_cons.1 h
    rw [List.foldl_cons, ih hevents, after_of_not_isWrite hevent]
    rfl

/-- Whether a script cannot tell two states from each other. -/
structure Agrees (s s' : State) : Prop where
  context : s'.context = s.context
  world : s.world.Agrees s'.world

namespace Agrees

lemma refl (s : State) : s.Agrees s :=
  ⟨rfl, .refl s.world⟩

lemma symm (h : s.Agrees s') : s'.Agrees s :=
  ⟨h.context.symm, h.world.cancelled.symm, h.world.counter.symm⟩

lemma trans {s'' : State} (h : s.Agrees s') (h' : s'.Agrees s'') : s.Agrees s'' :=
  ⟨h'.context.trans h.context, h'.world.cancelled.trans h.world.cancelled,
    h'.world.counter.trans h.world.counter⟩

lemma after (h : s.Agrees s') (event : Event) : (s.after r event).Agrees (s'.after r event) := by
  refine ⟨?_, h.world.after event⟩
  unfold State.after
  rw [h.context]

lemma foldl (h : s.Agrees s') (events : List Event) :
    (events.foldl (State.after r) s).Agrees (events.foldl (State.after r) s') := by
  induction events generalizing s s' with
  | nil => exact h
  | cons event events ih => exact ih (h.after event)

end Agrees

end Script.State

/-- Whether events are those of a statement: what its expression does binds no variable, and at the
end the target may be bound. -/
def Statement.IsTold (r : Registry) (source : List Char) (w : World) (events : List Event) : Prop :=
  ∃ inner last, events = inner ++ last ∧ World.Quiet r w inner
    ∧ (last = [] ∨ ∃ target expression v,
      ofText (Text.trim source) = .assignment target expression
        ∧ last = [.assigned (String.ofList target) v])

namespace Engine

open Eval (Traced)
open Script (State)

variable {e : Engine}

/-- The result of a statement in a state, and the state after it. -/
def perform (e : Engine) (s : State) (source : List Char) : Except StatementError Value × State :=
  match (e.evaluate s.context source).run s.world with
  | (.ok (v, context), world) => (.ok v, ⟨context, world⟩)
  | (.error err, world) => (.error err, ⟨s.context, world⟩)

lemma serve_evaluate (e : Engine) (s : State) (source : List Char) :
    e.serve s (.evaluate source) = (e.perform s source).2 := by
  simp only [serve, perform]
  generalize (e.evaluate s.context source).run s.world = outcome
  obtain ⟨err | ⟨v, context⟩, world⟩ := outcome <;> rfl

/-- In a world that asks to stop, a statement does nothing. -/
lemma evaluate_of_cancelled (e : Engine) (c : Context) (source : List Char) {w : World}
    (hw : w.cancelled = true) : (e.evaluate c source).run w = (.error .cancelled, w) := by
  have hpoll : Eval.poll.run w = (.error .cancelled, w) := by
    rw [Eval.run_poll, hw]
    rfl
  rw [evaluate_run]
  by_cases htext : Text.trim source = []
  · rw [htext, execute_nil, Eval.run_bind, hpoll]
    rfl
  · rw [execute_of_ne_nil htext, Eval.run_bind, hpoll]
    rfl

lemma perform_of_cancelled (e : Engine) (source : List Char) {s : State}
    (hs : s.world.cancelled = true) : e.perform s source = (.error .cancelled, s) := by
  unfold perform
  rw [evaluate_of_cancelled e s.context source hs]

/-- A statement evaluates an expression and then leaves the context as it is or binds its target. -/
lemma exists_execute_eq (he : e.functions.IsNamed) (c : Context) (text : List Char) :
    ∃ x : Eval Value, (∀ w, Traced e.functions x w)
      ∧ ((e.execute c text = do return (← x, c))
        ∨ ∃ target expression, Statement.ofText text = .assignment target expression
          ∧ e.execute c text = do
            let v ← x
            Eval.note (.assigned (String.ofList target) v)
            return (v, c.set (String.ofList target) v)) := by
  have hfails (err : EvalError) (w : World) :
      Traced e.functions (do Eval.poll; throw err : Eval Value) w :=
    .bind .poll fun _ _ => .throw err
  by_cases htext : text = []
  · refine ⟨_, hfails (.parse .emptyExpression), .inl ?_⟩
    rw [htext, execute_nil, bind_assoc]
    rfl
  · rw [execute_of_ne_nil htext]
    cases hstatement : Statement.ofText text with
    | expression source =>
      refine ⟨do Eval.poll; e.evaluateExpression c source, ?_, .inl ?_⟩
      · exact fun w => .bind .poll fun _ _ => evaluateExpression_traced he c source _
      · rw [bind_assoc]
    | assignment target source =>
      dsimp only
      split
      · refine ⟨do Eval.poll; e.evaluateExpression c source, ?_, .inr ⟨target, source, rfl, ?_⟩⟩
        · exact fun w => .bind .poll fun _ _ => evaluateExpression_traced he c source _
        · rw [bind_assoc]
      · refine ⟨_, hfails (.parse (.invalidTarget (String.ofList target))), .inl ?_⟩
        rw [bind_assoc]
        rfl

lemma perform_eq (e : Engine) (s : State) (source : List Char) :
    e.perform s source
      = match (e.execute s.context (Text.trim source)).run s.world with
        | (.ok (v, context), world) => (.ok v, ⟨context, world⟩)
        | (.error err, world) =>
          (.error (.ofEval (String.ofList (Text.trim source)) err), ⟨s.context, world⟩) := by
  unfold perform
  rw [evaluate_run]
  generalize (e.execute s.context (Text.trim source)).run s.world = outcome
  obtain ⟨err | ⟨v, context⟩, world⟩ := outcome <;> rfl

/-- Events tell what a statement does. -/
lemma perform_isTold (he : e.functions.IsNamed) (s : State) (source : List Char) :
    ∃ result events, Statement.IsTold e.functions source s.world events
      ∧ ∀ s', s.Agrees s' →
        e.perform s' source = (result, events.foldl (State.after e.functions) s') := by
  obtain ⟨x, hx, hexecute⟩ := exists_execute_eq he s.context (Text.trim source)
  obtain ⟨result, inner, hquiet, hrun⟩ := hx s.world
  have hinner (s' : State) : inner.foldl (State.after e.functions) s'
      = ⟨s'.context, inner.foldl (World.after e.functions) s'.world⟩ :=
    State.foldl_after_of_not_isWrite hquiet.isWrite_eq
  cases result with
  | error err =>
    refine ⟨.error (.ofEval (String.ofList (Text.trim source)) err), inner,
      ⟨inner, [], by simp, hquiet, .inl rfl⟩, ?_⟩
    intro s' hs'
    rw [perform_eq, hs'.context, hinner, hs'.context]
    rcases hexecute with hexecute | ⟨target, expression, -, hexecute⟩
    · rw [hexecute, Eval.run_bind, hrun _ hs'.world]
    · rw [hexecute, Eval.run_bind, hrun _ hs'.world]
  | ok v =>
    rcases hexecute with hexecute | ⟨target, expression, hstatement, hexecute⟩
    · refine ⟨.ok v, inner, ⟨inner, [], by simp, hquiet, .inl rfl⟩, ?_⟩
      intro s' hs'
      rw [perform_eq, hs'.context, hinner, hs'.context, hexecute, Eval.run_bind, hrun _ hs'.world]
      rfl
    · refine ⟨.ok v, inner ++ [.assigned (String.ofList target) v],
        ⟨inner, _, rfl, hquiet, .inr ⟨target, expression, v, hstatement, rfl⟩⟩, ?_⟩
      intro s' hs'
      rw [perform_eq, hs'.context, List.foldl_append, hinner, hs'.context, hexecute, Eval.run_bind,
        hrun _ hs'.world]
      rfl

end Engine

end Reckoner
