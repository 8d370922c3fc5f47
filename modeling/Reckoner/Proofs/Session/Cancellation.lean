import Reckoner.Proofs.Script.Traces

/-!
# Stopping

A function can ask to stop, which sets the flag of the world. From then on no function is called and
no operator is applied. A statement may still come to its end and bind its target; after it a script
does nothing more, so that the statement in progress is the last one.
-/

namespace Reckoner

namespace Script.State

/-- The state with an empty journal that is kept. -/
def observed (s : State) : State :=
  { s with world := { s.world with recording := true, journal := [] } }

lemma agrees_observed (s : State) : s.Agrees s.observed :=
  ⟨rfl, rfl, rfl⟩

end Script.State

lemma World.journal_foldl_after {r : Registry} {w : World} (hw : w.recording = true)
    (events : List Event) : (events.foldl (after r) w).journal = events.reverse ++ w.journal := by
  have hafter (w : World) (hw : w.recording = true) (event : Event) :
      (w.after r event).recording = true ∧ (w.after r event).journal = event :: w.journal := by
    unfold after record
    rw [if_pos hw]
    split
    · split
      · exact ⟨hw, rfl⟩
      · exact ⟨hw, rfl⟩
    · exact ⟨hw, rfl⟩
  induction events generalizing w with
  | nil => rfl
  | cons event events ih =>
    rw [List.foldl_cons, ih (hafter w hw event).1, (hafter w hw event).2]
    simp

namespace Engine

open Script (State InProgress)

variable {e : Engine}

/-- The events of a request, in order. -/
def events (e : Engine) (s : State) (request : Request) : List Event :=
  (e.serve s.observed request).world.journal.reverse

/-- Events that tell of a request are its events. -/
lemma events_eq {s : State} {request : Request} {events : List Event}
    (h : ∀ s', s.Agrees s' → e.serve s' request = events.foldl (State.after e.functions) s') :
    e.events s request = events := by
  unfold Engine.events
  rw [h s.observed s.agrees_observed, State.world_foldl_after, World.journal_foldl_after rfl]
  simp [State.observed]

/-- Events tell what a statement or a script does. -/
lemma exists_inProgress (he : e.functions.IsNamed) {s : State} {request : Request}
    (hs : s.world.cancelled = false)
    (hs' : ((e.events s request).foldl (State.after e.functions) s).world.cancelled = true) :
    (e.serve s request = (e.events s request).foldl (State.after e.functions) s)
      ∧ InProgress e s (e.events s request) := by
  cases request with
  | evaluate source =>
    obtain ⟨result, events, htold, hperform⟩ := perform_isTold he s source
    have hserve (s' : State) (h : s.Agrees s') :
        e.serve s' (.evaluate source) = events.foldl (State.after e.functions) s' := by
      rw [serve_evaluate, hperform s' h]
    rw [events_eq hserve]
    refine ⟨hserve s (.refl s), [], source, events, rfl, hs, htold, ?_⟩
    intro s' h
    rw [hperform s' h]
  | runScript turns source =>
    obtain ⟨result, events, hrun, -, hunset⟩ := Script.runScript_traced he turns source s
    have hserve (s' : State) (h : s.Agrees s') :
        e.serve s' (.runScript turns source) = events.foldl (State.after e.functions) s' := by
      change ((e.runScript turns source).run s').2 = _
      rw [hrun s' h]
    rw [events_eq hserve] at hs' ⊢
    exact ⟨hserve s (.refl s), hunset hs hs'⟩
  | loadConstants text =>
    have hnone : e.events s (.loadConstants text) = [] := by
      simp only [events, serve]
      split <;> rfl
    rw [hnone, List.foldl_nil, hs] at hs'
    cases hs'

end Engine

/-- Once the flag is set in the course of a statement, all that is left to do is to bind the
target. -/
lemma Statement.IsTold.of_cancelled {r : Registry} {source : List Char} {w : World}
    {before after : List Event} (h : IsTold r source w (before ++ after))
    (hw : (before.foldl (World.after r) w).cancelled = true) :
    (∀ event ∈ after, event.isInvocation = false) ∧ after.countP Event.isWrite ≤ 1
      ∧ ∀ event ∈ after, event.isWrite = true → ∃ target expression v,
        ofText (Text.trim source) = .assignment target expression
          ∧ event = .assigned (String.ofList target) v := by
  obtain ⟨inner, last, happend, hquiet, hlast⟩ := h
  obtain ⟨rest, tail, rfl, htail, hrest⟩ : ∃ rest tail, after = rest ++ tail ∧ tail <:+ last
      ∧ World.Quiet r (before.foldl (World.after r) w) rest := by
    rcases List.append_eq_append_iff.1 happend with ⟨rest, rfl, rfl⟩ | ⟨passed, rfl, rfl⟩
    · exact ⟨rest, last, rfl, List.suffix_refl last, hquiet.of_append⟩
    · exact ⟨[], after, rfl, List.suffix_append passed after, trivial⟩
  have hassigned : ∀ event ∈ tail, ∃ target expression v,
      ofText (Text.trim source) = .assignment target expression
        ∧ event = .assigned (String.ofList target) v := by
    intro event hevent
    rcases hlast with rfl | ⟨target, expression, v, hstatement, rfl⟩
    · cases htail.subset hevent
    · exact ⟨target, expression, v, hstatement, List.mem_singleton.1 (htail.subset hevent)⟩
  have hlength : tail.length ≤ 1 := by
    apply Nat.le_trans htail.length_le
    rcases hlast with rfl | ⟨target, expression, v, -, rfl⟩
    · exact Nat.zero_le 1
    · exact Nat.le_refl 1
  refine ⟨?_, ?_, ?_⟩
  · intro event hevent
    rcases List.mem_append.1 hevent with hevent | hevent
    · exact hrest.isInvocation_eq hw event hevent
    · obtain ⟨target, expression, v, -, rfl⟩ := hassigned event hevent
      rfl
  · have hzero : rest.countP Event.isWrite = 0 := by
      rw [List.countP_eq_zero]
      intro event hevent
      simp [hrest.isWrite_eq event hevent]
    rw [List.countP_append, hzero, Nat.zero_add]
    exact Nat.le_trans List.countP_le_length hlength
  · intro event hevent hwrite
    rcases List.mem_append.1 hevent with hevent | hevent
    · rw [hrest.isWrite_eq event hevent] at hwrite
      cases hwrite
    · exact hassigned event hevent

namespace Engine

open Script (State)

/-- A statement does nothing if the flag is set at its start. If the flag is set in the course of a
statement or a script, no function is called and no operator is applied from then on. Nothing is
done after the statement in progress, and no variable is bound but its target, once. -/
theorem serve_of_cancelled (e : Engine) (he : e.functions.IsNamed) :
    (∀ c source w, w.cancelled = true →
        (e.evaluate c source).run w = (.error .cancelled, w)
          ∧ e.serve ⟨c, w⟩ (.evaluate source) = ⟨c, w⟩)
      ∧ ∀ (s : State) (request : Request) (before after : List Event),
        s.world.cancelled = false → e.events s request = before ++ after →
        (before.foldl (State.after e.functions) s).world.cancelled = true →
        e.serve s request
            = after.foldl (State.after e.functions) (before.foldl (State.after e.functions) s)
          ∧ (∀ event ∈ after, event.isInvocation = false)
          ∧ after.countP Event.isWrite ≤ 1
          ∧ ∃ front source, front <+: before
            ∧ (front.foldl (State.after e.functions) s).world.cancelled = false
            ∧ e.events s request
              = front ++ e.events (front.foldl (State.after e.functions) s) (.evaluate source)
            ∧ e.serve s request
              = e.serve (front.foldl (State.after e.functions) s) (.evaluate source)
            ∧ ∀ event ∈ after, event.isWrite = true → ∃ target expression v,
              Statement.ofText (Text.trim source) = .assignment target expression
                ∧ event = .assigned (String.ofList target) v := by
  constructor
  · intro c source w hw
    refine ⟨e.evaluate_of_cancelled c source hw, ?_⟩
    rw [serve_evaluate, e.perform_of_cancelled source hw]
  · intro s request before after hs hsplit hbefore
    have hend :
      ((e.events s request).foldl (State.after e.functions) s).world.cancelled = true := by
      rw [hsplit, List.foldl_append, State.world_foldl_after]
      exact World.cancelled_foldl_after hbefore after
    obtain ⟨hserve, front, source, last, hevents, hfront, htold, hperform⟩ :=
      exists_inProgress he hs hend
    -- The flag is not set yet where the statement starts, so that the statement is not over.
    obtain ⟨passed, rfl, rfl⟩ : ∃ passed, before = front ++ passed ∧ last = passed ++ after := by
      rw [hsplit] at hevents
      rcases List.append_eq_append_iff.1 hevents with ⟨rest, rfl, -⟩ | h
      · rw [List.foldl_append, State.world_foldl_after,
          World.cancelled_foldl_after hbefore rest] at hfront
        cases hfront
      · exact h
    have hstatement (s' : State) (h : (front.foldl (State.after e.functions) s).Agrees s') :
        e.serve s' (.evaluate source) = (passed ++ after).foldl (State.after e.functions) s' := by
      rw [serve_evaluate, hperform s' h]
    rw [List.foldl_append, State.world_foldl_after] at hbefore
    obtain ⟨hinvocation, hcount, hwrite⟩ := htold.of_cancelled hbefore
    refine ⟨?_, hinvocation, hcount, front, source, List.prefix_append front passed, hfront, ?_, ?_,
      hwrite⟩
    · rw [hserve, hsplit, List.foldl_append]
    · rw [hevents, events_eq hstatement]
    · rw [hserve, hevents, List.foldl_append, hstatement _ (.refl _)]

/-- An engine with one function, which asks to stop. -/
def stopping : Engine where
  functions := .ofFunctions [{
    name := "stop"
    arity := .exactly 0
    body := fun counter _ => { result := .ok (.ofReal 1), counter, cancels := true } }]

/-- The second statement asks to stop. It still binds its target, and the third one is not run. -/
theorem serve_of_cancelled_stop :
    let s : State := ⟨.empty, {}⟩
    let request : Request := .runScript 9 "a = 1 + 1\nx = stop()\ny = 2".toList
    let events := stopping.events s request
    ((events.take 9).foldl (State.after stopping.functions) s).world.cancelled = true
      ∧ (∀ event ∈ events.drop 9, event.isInvocation = false)
      ∧ (events.drop 9).countP Event.isWrite ≤ 1
      ∧ (stopping.serve s request).context.isBound "x" = true
      ∧ (stopping.serve s request).context.isBound "y" = false := by
  intro s request events
  have hflag :
    ((events.take 9).foldl (State.after stopping.functions) s).world.cancelled = true := by
    decide +kernel
  obtain ⟨-, hinvocation, hwrite, -⟩ :=
    (serve_of_cancelled stopping (Registry.isNamed_ofFunctions _)).2 s request (events.take 9)
      (events.drop 9) rfl (List.take_append_drop 9 events).symm hflag
  refine ⟨hflag, hinvocation, hwrite, ?_, ?_⟩
  · decide +kernel
  · decide +kernel

end Engine

end Reckoner
