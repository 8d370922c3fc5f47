import Reckoner.Proofs.Engine.Traces
import Reckoner.Proofs.Session.Requests

/-!
# Scripts told by events

A script does what its events tell. If the flag is set there are none, and the last thing that sets
it is a statement.
-/

namespace Reckoner

namespace Script

open State (Agrees)

variable {e : Engine} {s : State}

/-- Whether the last of some events are those of a statement that started without the flag. -/
def InProgress (e : Engine) (s : State) (events : List Event) : Prop :=
  ∃ front source last, events = front ++ last
    ∧ (front.foldl (State.after e.functions) s).world.cancelled = false
    ∧ Statement.IsTold e.functions source (front.foldl (State.after e.functions) s).world last
    ∧ ∀ s', (front.foldl (State.after e.functions) s).Agrees s' →
      (e.perform s' source).2 = last.foldl (State.after e.functions) s'

namespace Run

variable {α β : Type}

lemma run_poll (line : Line) (s : State) : (poll line).run s
    = (if s.world.cancelled then .error (.failed ⟨line.number, .cancelled⟩) else .ok (), s) := by
  change (if s.world.cancelled then (throw (.failed ⟨line.number, .cancelled⟩) : Run Unit)
    else pure ()).run s = _
  split <;> rfl

/-- Whether events tell what a part of a script does in a state and in all that agree with it. If
the flag is set there are none, and the last thing that sets it is a statement. -/
def Traced (e : Engine) (x : Run α) (s : State) : Prop :=
  ∃ result events,
    (∀ s', s.Agrees s' → x.run s' = (result, events.foldl (State.after e.functions) s'))
      ∧ (s.world.cancelled = true → events = [])
      ∧ (s.world.cancelled = false →
        (events.foldl (State.after e.functions) s).world.cancelled = true → InProgress e s events)

namespace Traced

lemma of_result {x : Run α} (result : Except Stop α)
    (h : ∀ s', s.Agrees s' → x.run s' = (result, s')) : Traced e x s := by
  refine ⟨result, [], h, fun _ => rfl, ?_⟩
  intro hs hs'
  rw [List.foldl_nil, hs] at hs'
  cases hs'

lemma pure (a : α) : Traced e (Pure.pure a) s :=
  .of_result (.ok a) fun _ _ => rfl

lemma throw (stop : Stop) : Traced e (MonadExcept.throw stop : Run α) s :=
  .of_result (.error stop) fun _ _ => rfl

lemma fail (line : Line) (err : EvalError) : Traced e (Run.fail line err : Run α) s :=
  throw _

lemma bind {x : Run α} {f : α → Run β} (hx : Traced e x s) (hf : ∀ a s, Traced e (f a) s) :
    Traced e (x >>= f) s := by
  obtain ⟨result, events, hrun, hset, hunset⟩ := hx
  cases result with
  | error stop =>
    refine ⟨.error stop, events, ?_, hset, hunset⟩
    intro s' hs'
    rw [run_bind, hrun s' hs']
  | ok a =>
    obtain ⟨result, events', hrun', hset', hunset'⟩ :=
      hf a (events.foldl (State.after e.functions) s)
    refine ⟨result, events ++ events', ?_, ?_, ?_⟩
    · intro s' hs'
      rw [run_bind, hrun s' hs', List.foldl_append]
      exact hrun' _ (hs'.foldl events)
    · intro hs
      rw [hset hs] at hset' ⊢
      rw [hset' hs]
      rfl
    · intro hs hs'
      rw [List.foldl_append] at hs'
      -- If the flag is set before the second part, that part has no events.
      cases hmiddle : (events.foldl (State.after e.functions) s).world.cancelled with
      | true =>
        rw [hset' hmiddle, List.append_nil]
        exact hunset hs hmiddle
      | false =>
        obtain ⟨front, source, last, rfl, hfront, htold, hperform⟩ := hunset' hmiddle hs'
        rw [← List.foldl_append] at hfront htold hperform
        exact ⟨events ++ front, source, last, by rw [List.append_assoc], hfront, htold, hperform⟩

/-- What happens unless the script is stopped. -/
lemma poll_bind {line : Line} {f : Unit → Run α}
    (hf : s.world.cancelled = false → Traced e (f ()) s) : Traced e (Run.poll line >>= f) s := by
  cases hs : s.world.cancelled with
  | true =>
    apply of_result (.error (.failed ⟨line.number, .cancelled⟩))
    intro s' hs'
    rw [run_bind, run_poll, hs'.world.cancelled, hs]
    rfl
  | false =>
    obtain ⟨result, events, hrun, hset, hunset⟩ := hf hs
    refine ⟨result, events, ?_, hset, hunset⟩
    intro s' hs'
    rw [run_bind, run_poll, hs'.world.cancelled, hs]
    exact hrun s' hs'

/-- An event of the script itself, and what follows it. -/
lemma event_bind (event : Event) {x : Run Unit} {f : Unit → Run α}
    (hs : s.world.cancelled = false) (hcall : World.callOf event = none)
    (hx : ∀ s', x.run s' = (.ok (), s'.after e.functions event))
    (hf : Traced e (f ()) (s.after e.functions event)) : Traced e (x >>= f) s := by
  obtain ⟨result, events, hrun, hset, hunset⟩ := hf
  refine ⟨result, event :: events, ?_, ?_, ?_⟩
  · intro s' hs'
    rw [run_bind, hx]
    exact hrun _ (hs'.after event)
  · intro hs'
    rw [hs] at hs'
    cases hs'
  · intro _ hs'
    have hevent : (s.after e.functions event).world.cancelled = false := by
      rw [State.cancelled_after hcall, hs]
    obtain ⟨front, source, last, rfl, hfront, htold, hperform⟩ := hunset hevent hs'
    exact ⟨event :: front, source, last, rfl, hfront, htold, hperform⟩

lemma ofValue (line : Line) (x : Except RuntimeError α) : Traced e (Run.ofValue line x) s := by
  cases x with
  | ok a => exact pure a
  | error err => exact fail line _

lemma header (line : Line) : Traced e (Run.header line) s := by
  unfold Run.header
  cases Header.read line.text with
  | ok h => exact pure h
  | error err => exact fail line _

/-- A check before the rest of a part. -/
lemma guard {p : Prop} [Decidable p] (line : Line) (err : EvalError) {f : Unit → Run α}
    (hf : Traced e (f ()) s) : Traced e (if p then Run.fail line err >>= f else f ()) s := by
  split
  · exact fail line err
  · exact hf

end Traced

/-- A statement of a script does what it does on its own. -/
lemma evaluate_eq_perform (e : Engine) (line : Line) (source : List Char) (s : State) :
    (Run.evaluate e line source).run s
      = ((e.perform s source).1.mapError fun err => .failed ⟨line.number, err⟩,
        (e.perform s source).2) := by
  simp only [Run.evaluate, Engine.perform, ExceptT.run]
  generalize e.evaluate s.context source s.world = outcome
  obtain ⟨err | ⟨v, context⟩, world⟩ := outcome <;> rfl

/-- The flag can only be set inside a statement. -/
lemma evaluate_traced (he : e.functions.IsNamed) (line : Line) (source : List Char) (s : State) :
    Traced e (Run.evaluate e line source) s := by
  cases hs : s.world.cancelled with
  | true =>
    apply Traced.of_result (.error (.failed ⟨line.number, .cancelled⟩))
    intro s' hs'
    rw [evaluate_eq_perform, e.perform_of_cancelled source (hs'.world.cancelled.trans hs)]
    rfl
  | false =>
    obtain ⟨result, events, htold, hperform⟩ := Engine.perform_isTold he s source
    refine ⟨result.mapError fun err => .failed ⟨line.number, err⟩, events, ?_, ?_, ?_⟩
    · intro s' hs'
      rw [evaluate_eq_perform, hperform s' hs']
    · intro hs'
      rw [hs] at hs'
      cases hs'
    · intro _ _
      refine ⟨[], source, events, rfl, hs, htold, ?_⟩
      intro s' hs'
      rw [hperform s' hs']

lemma number_traced (he : e.functions.IsNamed) (line : Line) (source : List Char) (s : State) :
    Traced e (Run.number e line source) s :=
  .bind (evaluate_traced he line source s) fun _ _ => .ofValue line _

lemma condition_traced (he : e.functions.IsNamed) (line : Line) (source : List Char) (s : State) :
    Traced e (Run.condition e line source) s :=
  .bind (evaluate_traced he line source s) fun _ _ => .ofValue line _

end Run

/-! ### Parts of scripts -/

open Run (Traced)

lemma requireBody_traced (item : Item) (s : State) : Traced e (requireBody item) s := by
  unfold requireBody
  split
  · exact .fail _ _
  · exact .pure _

lemma moreClauses_traced (indent : Nat) (items : List Item) (s : State) :
    Traced e (moreClauses indent items) s := by
  induction items generalizing s with
  | nil => exact .pure _
  | cons item rest ih =>
    unfold moreClauses
    split
    · apply Traced.bind (.header _)
      intro header s
      split
      · apply Traced.bind (requireBody_traced item s)
        intro _ s
        exact .bind (ih s) fun _ _ => .pure _
      · exact .bind (requireBody_traced item s) fun _ _ => .pure _
      · exact .pure _
    · exact .pure _

lemma chooseClause_traced (he : e.functions.IsNamed) (clauses : List Clause) (s : State) :
    Traced e (chooseClause e clauses) s := by
  induction clauses generalizing s with
  | nil => exact .pure _
  | cons clause rest ih =>
    obtain ⟨condition, item⟩ := clause
    cases condition with
    | none => exact .pure _
    | some condition =>
      apply Traced.bind (Run.condition_traced he _ _ s)
      intro holds s
      split
      · exact .pure _
      · exact ih s

lemma loopRange_traced (he : e.functions.IsNamed) (line : Line) (name start stop : List Char)
    (step : Option (List Char)) (s : State) :
    Traced e (loopRange e line name start stop step) s := by
  unfold loopRange
  apply Traced.guard
  apply Traced.bind (Run.number_traced he line start s)
  intro first s
  apply Traced.bind (Run.number_traced he line stop s)
  intro last s
  cases step with
  | none => exact .bind (.pure _) fun step s => .guard _ _ (.guard _ _ (.pure _))
  | some source =>
    exact .bind (Run.number_traced he line source s) fun step s => .guard _ _ (.guard _ _ (.pure _))

/-- Events tell what a script does, however far it gets: what runs for one turn more is a row of
parts that are told by events. -/
lemma turns_traced (he : e.functions.IsNamed) (turns : Nat) :
    (∀ last items s, Traced e (runItems e turns last items) s)
      ∧ (∀ line name range body turn last s,
        Traced e (runFor e turns line name range body turn last) s)
      ∧ ∀ line condition body last s, Traced e (runWhile e turns line condition body last) s := by
  induction turns with
  | zero =>
    exact ⟨fun _ _ _ => .throw _, fun _ _ _ _ _ _ _ => .throw _, fun _ _ _ _ _ => .throw _⟩
  | succ turns ih =>
    obtain ⟨ihItems, ihFor, ihWhile⟩ := ih
    refine ⟨?_, ?_, ?_⟩
    · intro last items s
      cases items with
      | nil => exact .pure _
      | cons item rest =>
        apply Traced.poll_bind
        intro _
        apply Traced.bind (.header _)
        intro header s
        cases header with
        | none =>
          dsimp only
          split
          · exact .fail _ _
          · exact .bind (Run.evaluate_traced he _ _ s) fun v s => ihItems _ _ s
        | some header =>
          apply Traced.bind (requireBody_traced item s)
          intro _ s
          cases header with
          | forLoop name start stop step =>
            apply Traced.bind (loopRange_traced he _ _ _ _ _ s)
            intro range s
            exact .bind (ihFor _ _ _ _ _ _ s) fun produced s => ihItems _ _ s
          | whileLoop condition =>
            exact .bind (ihWhile _ _ _ _ s) fun produced s => ihItems _ _ s
          | ifClause condition =>
            apply Traced.bind (moreClauses_traced _ _ s)
            intro clauses s
            apply Traced.bind (chooseClause_traced he _ s)
            intro chosen s
            cases chosen with
            | none => exact ihItems _ _ s
            | some body => exact .bind (ihItems _ _ s) fun produced s => ihItems _ _ s
          | elifClause condition => exact .fail _ _
          | elseClause => exact .fail _ _
    · intro line name range body turn last s
      unfold runFor
      dsimp only
      split
      · exact .pure _
      · apply Traced.poll_bind
        intro hs
        rw [← bind_assoc]
        apply Traced.event_bind (.counted line.number name (range.value turn)) hs rfl (fun s' =>
          rfl)
        exact .bind (ihItems _ _ _) fun produced s => ihFor _ _ _ _ _ _ s
    · intro line condition body last s
      unfold runWhile
      apply Traced.bind (Run.condition_traced he _ _ s)
      intro holds s
      split
      · apply Traced.poll_bind
        intro hs
        apply Traced.event_bind (.held line.number (String.ofList condition)) hs rfl (fun s' => rfl)
        exact .bind (ihItems _ _ _) fun produced s => ihWhile _ _ _ _ s
      · exact .pure _

lemma runScript_traced (he : e.functions.IsNamed) (turns : Nat) (source : List Char) (s : State) :
    Traced e (e.runScript turns source) s := by
  apply Traced.bind
  · unfold requireFirstLeast
    split
    · exact .pure _
    · split
      · exact .fail _ _
      · exact .pure _
  · intro _ s
    exact (turns_traced he turns).1 _ _ s

end Script

end Reckoner
