import Reckoner.Proofs.Call.Programs
import Reckoner.Proofs.Program.Failures

/-!
# Calls in a run

What an evaluation does is told by the events that it adds to the journal. Programs only jump
forward, so that each instruction runs at most once in a run, and the machine calls a function at
most as often as there are instructions to call it.
-/

namespace Reckoner

namespace Event

/-- Whether an event is a call of a function. -/
def isCallOf (f : String) : Event → Bool
  | .called name _ => name == f
  | _ => false

/-- Whether an event is a fragment without a value. -/
def isKept : Event → Bool
  | .kept _ _ => true
  | _ => false

/-- Whether an event tells that a program was compiled or that one of its instructions is about to
run. -/
def isRun : Event → Bool
  | .compiled _ _ | .stepped _ _ _ => true
  | _ => false

end Event

namespace Eval

variable {α β : Type}

/-- Whether an evaluation keeps recording, and its result and the events that it adds, the latest
first, have a property. -/
def Tells (x : Eval α) (post : Except EvalError α → List Event → Prop) : Prop :=
  ∀ w : World, w.recording = true → (x.run w).2.recording = true
    ∧ ∃ new, (x.run w).2.journal = new ++ w.journal ∧ post (x.run w).1 new

namespace Tells

variable {x : Eval α} {g : α → Eval β} {post : Except EvalError α → List Event → Prop}
variable {post' : Except EvalError β → List Event → Prop}

lemma pure {a : α} (h : post (.ok a) []) : Tells (Pure.pure a) post :=
  fun _ hw => ⟨hw, [], rfl, h⟩

lemma throw {err : EvalError} (h : post (.error err) []) :
    Tells (MonadExcept.throw err : Eval α) post :=
  fun _ hw => ⟨hw, [], rfl, h⟩

lemma mono {post' : Except EvalError α → List Event → Prop} (h : Tells x post)
    (hpost : ∀ r new, post r new → post' r new) : Tells x post' := by
  intro w hw
  obtain ⟨hrecording, new, hnew, h⟩ := h w hw
  exact ⟨hrecording, new, hnew, hpost _ _ h⟩

lemma bind (hx : Tells x post) (herr : ∀ err new, post (.error err) new → post' (.error err) new)
    (hg : ∀ a new, post (.ok a) new → Tells (g a) fun r later => post' r (later ++ new)) :
    Tells (x >>= g) post' := by
  intro w hw
  obtain ⟨hrecording, new, hnew, h⟩ := hx w hw
  rw [run_bind]
  generalize x.run w = outcome at hrecording hnew h
  obtain ⟨err | a, w₁⟩ := outcome
  · exact ⟨hrecording, new, hnew, herr err new h⟩
  · obtain ⟨hrecording', later, hlater, h'⟩ := hg a new h w₁ hrecording
    refine ⟨hrecording', later ++ new, ?_, h'⟩
    dsimp only at hnew hlater ⊢
    rw [hlater, hnew, List.append_assoc]

/-- What adds no events can be passed over. -/
lemma silent_bind (hx : Tells x fun _ new => new = []) (herr : ∀ err, post' (.error err) [])
    (hg : ∀ a, Tells (g a) post') : Tells (x >>= g) post' := by
  refine hx.bind (fun err new hnew => hnew ▸ herr err) fun a new hnew => ?_
  subst hnew
  simpa using hg a

lemma note {event : Event} {post : Except EvalError Unit → List Event → Prop}
    (h : post (.ok ()) [event]) : Tells (Eval.note event) post := by
  intro w hw
  have hrun : (Eval.note event).run w = (.ok (), w.record event) := rfl
  rw [hrun, World.record, if_pos hw]
  exact ⟨hw, [event], rfl, h⟩

/-- A note never fails, so what follows it is told behind it. -/
lemma note_bind {event : Event} {g : Unit → Eval β}
    (hg : Tells (g ()) fun r later => post' r (later ++ [event])) :
    Tells (Eval.note event >>= g) post' := by
  have hnote : Tells (Eval.note event) fun r new => r = .ok () ∧ new = [event] := note ⟨rfl, rfl⟩
  refine hnote.bind (fun _ _ h => nomatch h.1) fun _ _ h => ?_
  rw [h.2]
  exact hg

lemma poll : Tells Eval.poll fun _ new => new = [] := by
  intro w hw
  rw [run_poll]
  exact ⟨hw, [], rfl, rfl⟩

lemma get : Tells (MonadState.get : Eval World) fun _ new => new = [] :=
  fun _ hw => ⟨hw, [], rfl, rfl⟩

lemma heed (reply : Reply) :
    Tells (modify fun w => w.heed reply : Eval Unit) fun _ new => new = [] :=
  fun _ hw => ⟨hw, [], rfl, rfl⟩

lemma ofRuntime (r : Except RuntimeError α) : Tells (Eval.ofRuntime r) fun _ new => new = [] := by
  cases r with
  | ok a => exact .pure rfl
  | error err => exact .throw rfl

lemma ofParse (r : Except ParseError α) :
    Tells (Eval.ofParse r) fun r' new => new = [] ∧ ∀ a, r' = .ok a → r = .ok a := by
  cases r with
  | ok a =>
    refine .pure ⟨rfl, ?_⟩
    rintro _ ⟨⟩
    rfl
  | error err => exact .throw ⟨rfl, nofun⟩

/-- The events of an evaluation are those of its outcome. -/
lemma attempt (h : Tells x post) :
    Tells (Eval.attempt x) fun r new => ∃ r', r = .ok r' ∧ post r' new := by
  intro w hw
  obtain ⟨hrecording, new, hnew, h⟩ := h w hw
  exact ⟨hrecording, new, hnew, _, rfl, h⟩

end Tells

/-- Whether an evaluation can have a result and add events, the latest first. -/
def EndsIn (x : Eval α) (r : Except EvalError α) (new : List Event) : Prop :=
  ∃ w : World, w.recording = true ∧ (x.run w).1 = r ∧ (x.run w).2.journal = new ++ w.journal

lemma Tells.endsIn {x : Eval α} {post : Except EvalError α → List Event → Prop}
    (h : Tells x post) : Tells x fun r new => post r new ∧ EndsIn x r new := by
  intro w hw
  obtain ⟨hrecording, new, hnew, h⟩ := h w hw
  exact ⟨hrecording, new, hnew, h, w, hw, rfl, hnew⟩

end Eval

/-! ### The machine -/

/-- Whether a name is that of a function. -/
def Registry.isNameOf (r : Registry) (f name : String) : Bool :=
  (r.get? name).any (·.name == f)

/-- Events of a run of a program, the latest first, in which only instructions before a position
have run, each of them at most once. An instruction calls a function at most once, and only if it is
a call of it. -/
inductive Program.Ran (f : String) (P : String → Bool) (p : Program) : List Event → Nat → Prop where
  | start : Ran f P p [] 0
  | stepped {events : List Event} {n position : Nat} {i : Instruction} (h : Ran f P p events n)
    (hn : n ≤ position) (hi : p.code[position]? = some i) (depth : Nat) :
    Ran f P p (.stepped position i depth :: events) (position + 1)
  | called {events : List Event} {n position : Nat} {i : Instruction} (h : Ran f P p events n)
    (hn : n ≤ position) (hi : p.code[position]? = some i) (hcall : i.isCallOf P = true)
    (depth : Nat) (args : List Value) :
    Ran f P p (.called f args :: .stepped position i depth :: events) (position + 1)
  | other {event : Event} {events : List Event} {n : Nat} (h : Ran f P p events n)
    (hcall : event.isCallOf f = false) (hrun : event.isRun = false) :
    Ran f P p (event :: events) n

/-- A run makes at most as many calls as there are instructions to make them. -/
lemma Program.Ran.countP_le {f : String} {P : String → Bool} {p : Program} {events : List Event}
    {n : Nat} (h : p.Ran f P events n) :
    events.countP (Event.isCallOf f) ≤ p.code.toList.countP (Instruction.isCallOf P) := by
  suffices hbefore : events.countP (Event.isCallOf f)
      ≤ (p.code.toList.take n).countP (Instruction.isCallOf P) from
    hbefore.trans (List.take_sublist n _).countP_le
  have hstep {n position : Nat} {i : Instruction} (hn : n ≤ position)
      (hi : p.code[position]? = some i) :
      (p.code.toList.take n).countP (Instruction.isCallOf P) + (i.isCallOf P).toNat
        ≤ (p.code.toList.take (position + 1)).countP (Instruction.isCallOf P) := by
    have hlist : p.code.toList[position]? = some i := by simpa using hi
    have htake := ((List.take_sublist_take_left (l := p.code.toList) hn).countP_le
      (p := Instruction.isCallOf P))
    rw [List.take_add_one, hlist, Option.toList_some, List.countP_append, List.countP_singleton]
    cases i.isCallOf P <;> simp <;> omega
  induction h with
  | start => simp
  | stepped _ hn hi depth ih =>
    rw [List.countP_cons_of_neg (by simp [Event.isCallOf])]
    have := hstep hn hi
    omega
  | called _ hn hi hcall depth args ih =>
    rw [List.countP_cons_of_pos (by simp [Event.isCallOf]),
      List.countP_cons_of_neg (by simp [Event.isCallOf])]
    have := hstep hn hi
    rw [hcall, Bool.toNat_true] at this
    omega
  | other _ hcall _ ih =>
    rw [List.countP_cons_of_neg (by simp [hcall])]
    exact ih

open Eval (Tells)

/-- Whether events tell of no call of a function and of no run. -/
def Event.Idle (f : String) (new : List Event) : Prop :=
  ∀ event ∈ new, event.isCallOf f = false ∧ event.isRun = false

/-- Whether the events of an instruction are one call of a function, if it is a call of it, or tell
of none. -/
def Instruction.Notes (f : String) (P : String → Bool) (i : Instruction) (new : List Event) :
    Prop :=
  Event.Idle f new ∨ i.isCallOf P = true ∧ ∃ args, new = [.called f args]

/-- An instruction runs behind those that have run. -/
lemma Program.Ran.notes {f : String} {P : String → Bool} {p : Program} {events new : List Event}
    {n position : Nat} {i : Instruction} (h : p.Ran f P events n) (hn : n ≤ position)
    (hi : p.code[position]? = some i) (depth : Nat) (hnew : i.Notes f P new) :
    p.Ran f P (new ++ .stepped position i depth :: events) (position + 1) := by
  rcases hnew with hidle | ⟨hcall, args, rfl⟩
  · induction new with
    | nil => exact h.stepped hn hi depth
    | cons event new ih =>
      obtain ⟨hevent, hidle⟩ := List.forall_mem_cons.1 hidle
      exact (ih hidle).other hevent.1 hevent.2
  · exact h.called hn hi hcall depth args

namespace Function

lemma enter_tells (g : Function) (args : List Value) :
    Tells (g.enter args) fun _ new => new = [.called g.name args] := by
  refine .note_bind ?_
  have hsilent : Tells (do
      let reply := g.body (← MonadState.get).counter args
      modify fun w => w.heed reply
      Eval.ofRuntime reply.result : Eval Value) fun _ new => new = [] :=
    Tells.get.silent_bind (fun _ => rfl) fun _ => (Tells.heed _).silent_bind (fun _ => rfl) fun _ =>
      .ofRuntime _
  exact hsilent.mono fun _ later hlater => by rw [hlater]; rfl

lemma apply_tells (g : Function) (args : List Value) :
    Tells (g.apply args) fun _ new => new = [] ∨ new = [.called g.name args] := by
  unfold apply
  split
  · exact (g.enter_tells args).mono fun _ _ => .inr
  · split
    · exact (g.enter_tells args).mono fun _ _ => .inr
    · exact .throw (.inl rfl)

end Function

namespace Machine

variable {m : Machine} {f : String}

lemma call_tells (m : Machine) (f name : String) (args : List Value) :
    Tells (m.call name args) fun _ new =>
      Event.Idle f new ∨ m.functions.isNameOf f name = true ∧ ∃ args, new = [.called f args] := by
  rw [call_eq, Registry.isNameOf]
  cases m.functions.get? name with
  | none => exact .throw (.inl (by simp [Event.Idle]))
  | some g =>
    refine (g.apply_tells args).mono fun _ new hnew => ?_
    by_cases hname : g.name = f
    · subst hname
      rcases hnew with rfl | rfl
      · exact .inl (by simp [Event.Idle])
      · exact .inr ⟨by simp, args, rfl⟩
    · refine .inl ?_
      rcases hnew with rfl | rfl
      · simp [Event.Idle]
      · simpa [Event.Idle, Event.isCallOf, Event.isRun] using hname

/-- An instruction calls a function at most once, and only if it is a call of it. -/
lemma step_tells (m : Machine) (f : String) (i : Instruction) (stack : List Value) :
    Tells (m.step i stack) fun r new => i.Notes f (m.functions.isNameOf f) new
      ∧ ∀ target stack, r = .ok (some target, stack) → i.target? = some target := by
  have hnil (i : Instruction) : i.Notes f (m.functions.isNameOf f) [] := .inl (by simp [Event.Idle])
  -- All instructions but jumps go on to the next one.
  have hnext {i : Instruction} {x : Eval Value} {stack : List Value}
      (hx : Tells x fun _ new => i.Notes f (m.functions.isNameOf f) new) :
      Tells (x >>= fun v => pure (none, v :: stack) : Eval (Option Nat × List Value)) fun r new =>
        i.Notes f (m.functions.isNameOf f) new
          ∧ ∀ target stack, r = .ok (some target, stack) → i.target? = some target :=
    hx.bind (fun _ _ h => ⟨h, nofun⟩) fun _ _ h => .pure ⟨h, nofun⟩
  have hsilent {i : Instruction} {α : Type} {x : Eval α} (hx : Tells x fun _ new => new = []) :
      Tells x fun _ new => i.Notes f (m.functions.isNameOf f) new :=
    hx.mono fun _ _ hnew => hnew ▸ hnil i
  unfold step
  split
  · exact .pure ⟨hnil _, nofun⟩
  · exact .pure ⟨hnil _, nofun⟩
  · exact hnext (hsilent (.ofRuntime _))
  · exact hnext (hsilent (.ofRuntime _))
  · exact .throw ⟨hnil _, nofun⟩
  · rename_i op right left stack
    refine hnext (.note_bind ?_)
    refine (Tells.ofRuntime _).mono fun _ _ hlater => .inl ?_
    simp [hlater, Event.Idle, Event.isCallOf, Event.isRun]
  · exact .throw ⟨hnil _, nofun⟩
  · exact (Tells.ofRuntime _).silent_bind (fun _ => ⟨hnil _, nofun⟩) fun _ =>
      hnext (m.call_tells f _ _)
  · exact (Tells.ofRuntime _).silent_bind (fun _ => ⟨hnil _, nofun⟩) fun _ =>
      hnext (hsilent (.ofRuntime _))
  · refine (Tells.ofRuntime _).silent_bind (fun _ => ⟨hnil _, nofun⟩) fun holds => ?_
    cases holds with
    | true => exact .pure ⟨hnil _, nofun⟩
    | false => exact .pure ⟨hnil _, fun _ _ h => by cases h; rfl⟩
  · exact .throw ⟨hnil _, nofun⟩
  · exact .pure ⟨hnil _, fun _ _ h => by cases h; rfl⟩

/-- A run goes on from a position behind the instructions that have run, and never comes back to
them since jumps go forward. -/
lemma run_tells (m : Machine) (f : String) {p : Program}
    (hjumps : ∀ (k : Nat) i target, p.code[k]? = some i → i.target? = some target → k < target)
    (n : Nat) (s : State) {before : List Event} {k : Nat}
    (hbefore : p.Ran f (m.functions.isNameOf f) before k) (hk : k ≤ s.position) :
    Tells (m.run p n s) fun _ new => ∃ k, p.Ran f (m.functions.isNameOf f) (new ++ before) k := by
  have hdone {s : State} {before : List Event} {k : Nat}
      (hbefore : p.Ran f (m.functions.isNameOf f) before k) :
      Tells (some <$> Eval.ofRuntime (result s.stack)) fun _ new =>
        ∃ k, p.Ran f (m.functions.isNameOf f) (new ++ before) k :=
    (Tells.ofRuntime _).silent_bind (fun _ => ⟨k, hbefore⟩) fun _ => .pure ⟨k, hbefore⟩
  induction n generalizing s before k with
  | zero =>
    unfold run
    cases p.code[s.position]? with
    | none => exact hdone hbefore
    | some i => exact .pure ⟨k, hbefore⟩
  | succ n ih =>
    unfold run
    cases hi : p.code[s.position]? with
    | none => exact hdone hbefore
    | some i =>
      refine Tells.poll.silent_bind (fun _ => ⟨k, hbefore⟩) fun _ => ?_
      refine .note_bind ?_
      refine (m.step_tells f i s.stack).bind (fun _ _ hnotes => ?_) fun r later hnotes => ?_
      · exact ⟨_, by simpa using hbefore.notes hk hi _ hnotes.1⟩
      · obtain ⟨target, stack⟩ := r
        have hran := hbefore.notes hk hi s.stack.length hnotes.1
        refine (ih _ hran ?_).mono fun _ new h => by simpa using h
        cases target with
        | none => exact Nat.le_refl _
        | some target => exact hjumps _ i target hi (hnotes.2 target stack rfl)

/-- A run of the program of an expression, from its start. -/
lemma execute_tells (m : Machine) (f : String) (e : Expr) :
    Tells (m.execute e.program) fun _ new =>
      ∃ k, e.program.Ran f (m.functions.isNameOf f) new k := by
  have hjumps : ∀ (k : Nat) i target, e.program.code[k]? = some i → i.target? = some target →
      k < target := by
    intro k i target hi htarget
    have hget := (e.jumpsWithin_code 0).get (by simpa [Expr.program] using hi) htarget
    omega
  refine (m.run_tells f hjumps _ _ .start (Nat.zero_le _)).bind (fun _ new h => by simpa using h)
    fun v new h => ?_
  cases v with
  | some v => exact .pure (by simpa using h)
  | none => exact .throw (by simpa using h)

end Machine

end Reckoner
