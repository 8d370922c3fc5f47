import Reckoner.Machine
import Reckoner.Proofs.Syntax.Expr

/-!
# Evaluating a tree

`Expr.eval` evaluates a tree directly, from left to right. An evaluation follows another one if it
has the same result and does the same things in the same order, up to the events of single
instructions, as long as nothing asks it to stop.
-/

namespace Reckoner

/-- The world after a function has replied. -/
def World.heed (w : World) (reply : Reply) : World :=
  { w with
    counter := reply.counter
    cancelled := w.cancelled || reply.cancels }

namespace Function

/-- Enters the body of a function. -/
def enter (f : Function) (args : List Value) : Eval Value := do
  Eval.note (.called f.name args)
  let reply := f.body (← get).counter args
  modify fun w => w.heed reply
  Eval.ofRuntime reply.result

/-- Counts the arguments and enters the body if their number is right. -/
def apply (f : Function) (args : List Value) : Eval Value :=
  match f.arity with
  | .any => f.enter args
  | .exactly n =>
    if args.length = n then f.enter args
    else throw (.runtime (.argumentCount f.name n args.length))

end Function

namespace Expr

mutual

/-- The value of an expression: operands from left to right, of a conditional the condition and then
only one branch, and a function after all of its arguments. The first failure ends it. -/
def eval (m : Machine) : Expr → Eval Value
  | .number x => return .ofReal x
  | .text s => return .text s
  | .identifier name => Eval.ofRuntime (m.load name)
  | .group e => e.eval m
  | .call name args => do
    let vs ← evalAll m args
    match m.functions.get? name with
    | some f => f.apply vs
    | none => throw (.runtime (.unknownFunction name))
  | .vector items => do
    let vs ← evalAll m items
    Eval.ofRuntime (Machine.vector vs)
  | .unary op e => do
    let v ← e.eval m
    Eval.ofRuntime (Machine.unary op v)
  | .binary op l r => do
    let left ← l.eval m
    let right ← r.eval m
    Eval.note (.applied op left right)
    Eval.ofRuntime (m.operators.apply op left right)
  | .conditional c t e => do
    let v ← c.eval m
    if ← Eval.ofRuntime v.isTruthy then t.eval m else e.eval m

/-- The values of expressions in a row. -/
def evalAll (m : Machine) : List Expr → Eval (List Value)
  | [] => return []
  | e :: rest => do
    let v ← e.eval m
    let vs ← evalAll m rest
    return v :: vs

end

end Expr

/-! ### Worlds up to the instructions of the machine -/

namespace World

/-- Whether an event tells of a single instruction. -/
def isStep : Event → Bool
  | .stepped _ _ _ => true
  | _ => false

/-- The world without the events of single instructions. -/
def withoutSteps (w : World) : World :=
  { w with journal := w.journal.filter fun e => !isStep e }

/-- The function and the arguments of a call. -/
def callOf : Event → Option (String × List Value)
  | .called name args => some (name, args)
  | _ => none

/-- The calls of functions, in order. -/
def calls (w : World) : List (String × List Value) :=
  w.journal.reverse.filterMap callOf

lemma withoutSteps_record_of_step {e : Event} (h : isStep e = true) (w : World) :
    (w.record e).withoutSteps = w.withoutSteps := by
  cases hr : w.recording <;> simp [record, withoutSteps, hr, h]

lemma withoutSteps_record {e : Event} (h : isStep e = false) (w : World) :
    (w.record e).withoutSteps = w.withoutSteps.record e := by
  cases hr : w.recording <;> simp [record, withoutSteps, hr, h]

lemma withoutSteps_heed (w : World) (reply : Reply) :
    (w.heed reply).withoutSteps = w.withoutSteps.heed reply :=
  rfl

lemma calls_withoutSteps (w : World) : w.withoutSteps.calls = w.calls := by
  have hcall : ∀ e : Event, (if (!isStep e) = true then callOf e else none) = callOf e := by
    intro e
    cases e <;> rfl
  unfold calls withoutSteps
  rw [← List.filter_reverse, List.filterMap_filter]
  simp only [hcall]

end World

namespace Eval

variable {α β : Type}

/-- Whether `x` behaves like `y` except that it may note instructions and stop when asked to. -/
def Follows (x y : Eval α) : Prop :=
  ∀ w w' : World, w.withoutSteps = w'.withoutSteps →
    ((x.run w).1 = (y.run w').1 ∧ (x.run w).2.withoutSteps = (y.run w').2.withoutSteps)
      ∨ ((x.run w).1 = .error .cancelled ∧ (x.run w).2.cancelled = true)

lemma run_bind (x : Eval α) (f : α → Eval β) (w : World) :
    (x >>= f).run w
      = match x.run w with
        | (.ok a, w) => (f a).run w
        | (.error e, w) => (.error e, w) := by
  change ExceptT.bindCont f (x.run w).1 (x.run w).2 = _
  rcases x.run w with ⟨r, w'⟩
  cases r <;> rfl

/-- An evaluation in two steps has a result only if both steps have one. -/
lemma exists_of_bind {x : Eval α} {f : α → Eval β} {w w' : World} {b : β}
    (h : (x >>= f).run w = (.ok b, w')) :
    ∃ a w₁, x.run w = (.ok a, w₁) ∧ (f a).run w₁ = (.ok b, w') := by
  rw [run_bind] at h
  generalize hx : x.run w = outcome at h
  obtain ⟨err | a, w₁⟩ := outcome
  · cases h
  · exact ⟨a, w₁, rfl, h⟩

lemma run_poll (w : World) :
    poll.run w = (if w.cancelled then .error .cancelled else .ok (), w) := by
  change (if w.cancelled then (throw .cancelled : Eval Unit) else pure ()).run w = _
  cases w.cancelled <;> rfl

lemma run_poll_bind {w : World} (hw : w.cancelled = false) (x : Eval α) :
    (poll >>= fun _ => x).run w = x.run w := by
  rw [run_bind, run_poll, hw]
  rfl

namespace Follows

/-- What does not look at the instructions follows itself. -/
lemma refl_of {x : Eval α} (h : ∀ w w' : World, w.withoutSteps = w'.withoutSteps →
    (x.run w).1 = (x.run w').1 ∧ (x.run w).2.withoutSteps = (x.run w').2.withoutSteps) :
    Follows x x :=
  fun w w' hw => .inl (h w w' hw)

lemma pure (a : α) : Follows (Pure.pure a : Eval α) (Pure.pure a) :=
  refl_of fun _ _ hw => ⟨rfl, hw⟩

lemma throw (e : EvalError) : Follows (throw e : Eval α) (MonadExcept.throw e) :=
  refl_of fun _ _ hw => ⟨rfl, hw⟩

lemma bind {x y : Eval α} {f g : α → Eval β} (h : Follows x y) (hf : ∀ a, Follows (f a) (g a)) :
    Follows (x >>= f) (y >>= g) := by
  intro w w' hw
  rw [run_bind, run_bind]
  rcases hx : x.run w with ⟨r, w₁⟩
  rcases hy : y.run w' with ⟨r', w₁'⟩
  rcases h w w' hw with ⟨hr, hw₁⟩ | ⟨hr, hw₁⟩
  · rw [hx, hy] at hr hw₁
    cases hr
    cases r with
    | ok a => exact hf a w₁ w₁' hw₁
    | error e => exact .inl ⟨rfl, hw₁⟩
  · rw [hx] at hr hw₁
    cases hr
    exact .inr ⟨rfl, hw₁⟩

lemma ofRuntime (r : Except RuntimeError α) : Follows (Eval.ofRuntime r) (Eval.ofRuntime r) := by
  cases r with
  | ok a => exact pure a
  | error e => exact throw (.runtime e)

lemma note {e : Event} (h : World.isStep e = false) : Follows (Eval.note e) (Eval.note e) := by
  refine refl_of fun w w' hw => ⟨rfl, ?_⟩
  change (w.record e).withoutSteps = (w'.record e).withoutSteps
  rw [World.withoutSteps_record h, World.withoutSteps_record h, hw]

/-- Looking whether to stop changes nothing unless the evaluation stops. -/
lemma poll_bind {x y : Eval α} (h : Follows x y) : Follows (Eval.poll >>= fun _ => x) y := by
  intro w w' hw
  rw [run_bind, run_poll]
  cases hc : w.cancelled with
  | true => exact .inr ⟨rfl, hc⟩
  | false => exact h w w' hw

lemma step_bind {e : Event} (he : World.isStep e = true) {x y : Eval α} (h : Follows x y) :
    Follows (Eval.note e >>= fun _ => x) y := by
  intro w w' hw
  have hnote : (Eval.note e).run w = (.ok (), w.record e) := rfl
  rw [run_bind, hnote]
  exact h _ w' (by rw [World.withoutSteps_record_of_step he, hw])

end Follows

end Eval

/-! ### Single operations -/

namespace Function

lemma enter_run (f : Function) (args : List Value) (w : World) :
    (f.enter args).run w
      = (Eval.ofRuntime (f.body w.counter args).result).run
          ((w.record (.called f.name args)).heed (f.body w.counter args)) := by
  have hcounter : (w.record (.called f.name args)).counter = w.counter := by
    unfold World.record
    split <;> rfl
  rw [← hcounter]
  rfl

/-- A body sees the counter of the host and the arguments only. -/
lemma enter_follows (f : Function) (args : List Value) :
    Eval.Follows (f.enter args) (f.enter args) := by
  intro w w' hw
  have hcounter : w.counter = w'.counter := congrArg (·.counter) hw
  rw [enter_run, enter_run, hcounter]
  refine Eval.Follows.ofRuntime _ _ _ ?_
  rw [World.withoutSteps_heed, World.withoutSteps_heed, World.withoutSteps_record rfl,
    World.withoutSteps_record rfl, hw]

lemma apply_follows (f : Function) (args : List Value) :
    Eval.Follows (f.apply args) (f.apply args) := by
  unfold apply
  split
  · exact f.enter_follows args
  · split
    · exact f.enter_follows args
    · exact .throw _

end Function

namespace Machine

/-- A call counts the arguments before it enters the body, and does nothing if their number is
wrong. -/
lemma call_eq (m : Machine) (name : String) (args : List Value) :
    m.call name args
      = match m.functions.get? name with
        | some f => f.apply args
        | none => throw (.runtime (.unknownFunction name)) := by
  unfold call
  cases m.functions.get? name with
  | none => rfl
  | some f =>
    simp only [Function.apply, Function.invoke]
    cases f.arity with
    | any => rfl
    | exactly n =>
      by_cases h : args.length = n
      · subst h
        simp only [Arity.accepts, beq_self_eq_true, if_true]
        rfl
      · have haccepts : Arity.accepts (.exactly n) args.length = false := by
          simpa [Arity.accepts] using Ne.symm h
        simp only [haccepts, h, if_false]
        funext w
        cases w with
        | mk cancelled counter recording journal => cases cancelled <;> rfl

lemma call_follows (m : Machine) (name : String) (args : List Value) :
    Eval.Follows (m.call name args) (m.call name args) := by
  rw [call_eq]
  cases m.functions.get? name with
  | none => exact Eval.Follows.throw _
  | some f => exact f.apply_follows args

lemma binary_follows (m : Machine) (op : BinaryOperator) (left right : Value) :
    Eval.Follows (m.binary op left right) (do
      Eval.note (.applied op left right)
      Eval.ofRuntime (m.operators.apply op left right)) :=
  Eval.Follows.bind (Eval.Follows.note rfl) fun _ => Eval.Follows.ofRuntime _

/-- The values that were pushed last are taken in the order in which they were pushed. -/
lemma split_reverse_append (i : Instruction) (vs stack : List Value) :
    split i vs.length (vs.reverse ++ stack) = .ok (vs, stack) := by
  have hlength : vs.length = vs.reverse.length := vs.length_reverse.symm
  unfold split
  rw [hlength, if_pos (by simp), List.take_left, List.drop_left, List.reverse_reverse]

end Machine

end Reckoner
