import Reckoner.Proofs.Program.Tree

/-!
# Failures of a program

A compiled program jumps forward and never beyond its end, so that the machine comes to its end
after at most as many instructions as the program has. Which failures an evaluation avoids is told
from its parts.
-/

namespace Reckoner

/-! ### Jumps -/

/-- Where an instruction may go to instead of the next one. -/
def Instruction.target? : Instruction → Option Nat
  | .jumpIfFalse target => some target
  | .jump target => some target
  | _ => none

namespace Expr

/-- Whether all jumps of code that starts at a position go forward and not beyond `stop`. -/
def JumpsWithin (stop : Nat) : Nat → List Instruction → Prop
  | _, [] => True
  | start, i :: code =>
    (∀ target, i.target? = some target → start < target ∧ target ≤ stop)
      ∧ JumpsWithin stop (start + 1) code

namespace JumpsWithin

variable {start stop : Nat} {first second : List Instruction}

lemma append (hfirst : JumpsWithin stop start first)
    (hsecond : JumpsWithin stop (start + first.length) second) :
    JumpsWithin stop start (first ++ second) := by
  induction first generalizing start with
  | nil => exact hsecond
  | cons i first ih =>
    refine ⟨hfirst.1, ih hfirst.2 ?_⟩
    rwa [List.length_cons, Nat.add_comm first.length, ← Nat.add_assoc] at hsecond

lemma mono {stop' : Nat} (h : JumpsWithin stop start first) (hstop : stop ≤ stop') :
    JumpsWithin stop' start first := by
  induction first generalizing start with
  | nil => trivial
  | cons i first ih =>
    refine ⟨fun target ht => ?_, ih h.2⟩
    obtain ⟨hlt, hle⟩ := h.1 target ht
    exact ⟨hlt, Nat.le_trans hle hstop⟩

lemma cast {start' : Nat} (h : JumpsWithin stop start first) (hstart : start = start') :
    JumpsWithin stop start' first :=
  hstart ▸ h

/-- An instruction that is no jump goes nowhere. -/
lemma single {i : Instruction} (hi : i.target? = none) : JumpsWithin stop start [i] := by
  refine ⟨fun target ht => ?_, trivial⟩
  rw [hi] at ht
  cases ht

lemma get {k target : Nat} {i : Instruction} (h : JumpsWithin stop start first)
    (hi : first[k]? = some i) (ht : i.target? = some target) :
    start + k < target ∧ target ≤ stop := by
  induction first generalizing start k with
  | nil => cases hi
  | cons i' first ih =>
    cases k with
    | zero =>
      cases hi
      exact h.1 target ht
    | succ k =>
      have hnext := ih h.2 hi
      omega

end JumpsWithin

mutual

/-- The jumps of an expression stay inside its code. -/
lemma jumpsWithin_code (e : Expr) (start : Nat) :
    JumpsWithin (start + (e.code start).length) start (e.code start) := by
  cases e with
  | number x => exact .single rfl
  | text s => exact .single rfl
  | identifier name => exact .single rfl
  | group e => exact jumpsWithin_code e start
  | call name args =>
    simp only [code, List.length_append]
    exact ((jumpsWithin_listCode args start).mono (by omega)).append (.single rfl)
  | vector items =>
    simp only [code, List.length_append]
    exact ((jumpsWithin_listCode items start).mono (by omega)).append (.single rfl)
  | unary op e =>
    simp only [code, List.length_append]
    exact ((jumpsWithin_code e start).mono (by omega)).append (.single rfl)
  | binary op l r =>
    simp only [code, List.length_append]
    refine .append (.append ?_ ?_) (.single rfl)
    · exact (jumpsWithin_code l start).mono (by omega)
    · exact (jumpsWithin_code r _).mono (by omega)
  | conditional c t e =>
    simp only [code, List.length_append, List.length_cons]
    refine .append (.append ?_ ⟨?_, ?_⟩) ⟨?_, ?_⟩
    · exact (jumpsWithin_code c start).mono (by omega)
    · rintro target ⟨⟩
      omega
    · exact (jumpsWithin_code t _).mono (by omega)
    · rintro target ⟨⟩
      simp only [List.length_append, List.length_cons]
      omega
    · refine ((jumpsWithin_code e _).mono (by omega)).cast ?_
      simp only [List.length_append, List.length_cons]
      omega

/-- The jumps of expressions in a row stay inside their code. -/
lemma jumpsWithin_listCode (es : List Expr) (start : Nat) :
    JumpsWithin (start + (listCode start es).length) start (listCode start es) := by
  cases es with
  | nil => trivial
  | cons e es =>
    simp only [listCode, List.length_append]
    refine .append ?_ ?_
    · exact (jumpsWithin_code e start).mono (by omega)
    · exact (jumpsWithin_listCode es _).mono (by omega)

end

end Expr

/-! ### Enough turns -/

namespace Machine

variable {m : Machine} {p : Program}

/-- At an instruction, a run takes a turn that does not depend on the number of turns left. -/
lemma run_of_some {s : State} {i : Instruction} (hi : p.code[s.position]? = some i) :
    ∃ turn : Eval State, ∀ n, m.run p (n + 1) s = turn >>= m.run p n := by
  refine ⟨do
    Eval.poll
    Eval.note (.stepped s.position i s.stack.length)
    let next ← m.step i s.stack
    return { position := next.1.getD (s.position + 1), stack := next.2 }, fun n => ?_⟩
  simp only [run, hi, bind_assoc, pure_bind]

/-- A run that has come to its end needs no further turn. -/
lemma run_succ {n : Nat} {s : State} {w : World} (h : ((m.run p n s).run w).1 ≠ .ok none) :
    (m.run p (n + 1) s).run w = (m.run p n s).run w := by
  induction n generalizing s w with
  | zero =>
    cases hi : p.code[s.position]? with
    | none => simp only [run, hi]
    | some i =>
      simp only [run, hi] at h
      exact absurd rfl h
  | succ n ih =>
    cases hi : p.code[s.position]? with
    | none => simp only [run, hi]
    | some i =>
      obtain ⟨turn, hturn⟩ := run_of_some (m := m) hi
      rw [hturn, Eval.run_bind] at h
      rw [hturn, hturn, Eval.run_bind, Eval.run_bind]
      generalize turn.run w = outcome at h ⊢
      obtain ⟨err | s', w'⟩ := outcome
      · rfl
      · exact ih h

/-- More turns than a run needs change nothing. -/
lemma run_of_le {n n' : Nat} {s : State} {w : World} (h : ((m.run p n s).run w).1 ≠ .ok none)
    (hn : n ≤ n') : (m.run p n' s).run w = (m.run p n s).run w := by
  induction hn with
  | refl => rfl
  | step hn ih => rw [run_succ (by rwa [ih]), ih]

end Machine

/-! ### Internal errors -/

/-- Whether an error tells of a broken program and not of the values it works on. -/
def RuntimeError.isInternal : RuntimeError → Bool
  | .stackUnderflow _ => true
  | .malformedProgram _ => true
  | .unknownFunction _ => true
  | _ => false

/-- Whether a computation does not end in an internal error. -/
def Sound {α : Type} (r : Except RuntimeError α) : Prop :=
  ∀ err, r = .error err → err.isInternal = false

/-- Whether an error cannot come from the operations of the language. -/
def RuntimeError.isForeign : RuntimeError → Bool
  | .nestingLimit _ => true
  | .invalidConstant _ _ => true
  | err => err.isInternal

/-- Whether a computation does not end in one of the bad errors. -/
def Avoids {α : Type} (bad : RuntimeError → Bool) (r : Except RuntimeError α) : Prop :=
  ∀ err, r = .error err → bad err = false

/-- Whether a computation does not end in an error that is foreign to the language. -/
abbrev Ordinary {α : Type} (r : Except RuntimeError α) : Prop :=
  Avoids RuntimeError.isForeign r

namespace Avoids

variable {α β : Type} {bad : RuntimeError → Bool}

lemma ok (a : α) : Avoids bad (.ok a) := by
  intro err h
  cases h

lemma error {err : RuntimeError} (h : bad err = false) :
    Avoids bad (.error err : Except RuntimeError α) := by
  intro err' h'
  cases h'
  exact h

lemma bind {r : Except RuntimeError α} {f : α → Except RuntimeError β} (hr : Avoids bad r)
    (hf : ∀ a, Avoids bad (f a)) : Avoids bad (r >>= f) := by
  cases r with
  | ok a => exact hf a
  | error err => exact .error (hr err rfl)

lemma map {r : Except RuntimeError α} (hr : Avoids bad r) (f : α → β) : Avoids bad (r.map f) := by
  cases r with
  | ok a => exact .ok _
  | error err => exact .error (hr err rfl)

lemma mapM {f : α → Except RuntimeError β} (hf : ∀ a, Avoids bad (f a)) (as : List α) :
    Avoids bad (as.mapM f) := by
  induction as with
  | nil => exact .ok _
  | cons a as ih =>
    rw [List.mapM_cons]
    exact .bind (hf a) fun _ => .bind ih fun _ => .ok _

lemma of_ordinary (hbad : ∀ err, err.isForeign = false → bad err = false)
    {r : Except RuntimeError α} (h : Ordinary r) : Avoids bad r :=
  fun err herr => hbad err (h err herr)

end Avoids

lemma RuntimeError.not_isInternal_of_not_isForeign (err : RuntimeError)
    (h : err.isForeign = false) : err.isInternal = false := by
  cases err <;> first | rfl | cases h

lemma Ordinary.sound {α : Type} {r : Except RuntimeError α} (h : Ordinary r) : Sound r :=
  Avoids.of_ordinary RuntimeError.not_isInternal_of_not_isForeign h

/-- Whether no function ends in an internal error. -/
def Registry.Sound (functions : Registry) : Prop :=
  ∀ name f, functions.get? name = some f →
    ∀ counter args, Reckoner.Sound (f.body counter args).result

/-- Whether no handler ends in an internal error. -/
def OperatorTable.Sound (table : OperatorTable) : Prop :=
  ∀ left right op handler, table.lookup left right op = some handler →
    ∀ v v', Reckoner.Sound (handler v v')

lemma Value.isTruthy_ordinary (v : Value) : Ordinary v.isTruthy := by
  cases v with
  | scalar z => exact .ok _
  | _ => exact .error rfl

namespace Machine

lemma load_ordinary (m : Machine) (name : String) : Ordinary (m.load name) := by
  unfold load
  split
  · exact .ok _
  · split
    · exact .ok _
    · exact .error rfl

lemma unary_ordinary (op : UnaryOperator) (v : Value) : Ordinary (unary op v) := by
  cases op with
  | negate =>
    cases v with
    | text s => exact .error rfl
    | date d => exact .error rfl
    | _ => exact .ok _
  | not => exact v.isTruthy_ordinary.map _

lemma vector_ordinary (vs : List Value) : Ordinary (vector vs) := by
  refine .bind (.mapM (fun v => ?_) vs) fun _ => .ok _
  cases v with
  | text s => exact .error rfl
  | date d => exact .error rfl
  | _ => exact .ok _

end Machine

/-! ### Evaluations -/

namespace Eval

variable {α β : Type}

/-- Whether an evaluation does not end in one of the bad errors. -/
def Avoids (bad : RuntimeError → Bool) (x : Eval α) : Prop :=
  ∀ w err, (x.run w).1 = .error (.runtime err) → bad err = false

namespace Avoids

variable {bad : RuntimeError → Bool}

lemma pure (a : α) : Avoids bad (Pure.pure a) := by
  intro w err h
  cases h

lemma bind {x : Eval α} {f : α → Eval β} (hx : Avoids bad x)
    (hf : ∀ a, Avoids bad (f a)) : Avoids bad (x >>= f) := by
  intro w err h
  have hx := hx w err
  rw [run_bind] at h
  generalize x.run w = outcome at h hx
  obtain ⟨err' | a, w'⟩ := outcome
  · cases h
    exact hx rfl
  · exact hf a w' err h

lemma ofRuntime {r : Except RuntimeError α} (hr : Reckoner.Avoids bad r) :
    Avoids bad (Eval.ofRuntime r) := by
  intro w err h
  cases r with
  | ok a => cases h
  | error err' =>
    cases h
    exact hr _ rfl

lemma note (e : Event) : Avoids bad (Eval.note e) := by
  intro w err h
  cases h

end Avoids

end Eval

section

variable {m : Machine} {bad : RuntimeError → Bool}

lemma Function.apply_avoids (hbad : ∀ err, err.isForeign = false → bad err = false) {f : Function}
    {args : List Value} (hf : ∀ counter, Avoids bad (f.body counter args).result) :
    Eval.Avoids bad (f.apply args) := by
  have henter : Eval.Avoids bad (f.enter args) := by
    intro w err h
    rw [enter_run] at h
    exact Eval.Avoids.ofRuntime (hf w.counter) _ err h
  unfold apply
  split
  · exact henter
  · split
    · exact henter
    · exact .ofRuntime (r := .error _) (.error (hbad _ rfl))

/-- Whether nothing that a machine brings ends in a bad error. -/
structure Machine.Avoids (bad : RuntimeError → Bool) (m : Machine) : Prop where
  foreign : ∀ err, err.isForeign = false → bad err = false
  functions : ∀ name f, m.functions.get? name = some f →
    ∀ counter args, Reckoner.Avoids bad (f.body counter args).result
  operators : ∀ left right op handler, m.operators.lookup left right op = some handler →
    ∀ v v', Reckoner.Avoids bad (handler v v')

lemma Machine.binary_avoids (hm : m.Avoids bad) (op : BinaryOperator) (left right : Value) :
    Eval.Avoids bad (m.binary op left right) := by
  refine .bind (.note _) fun _ => .ofRuntime ?_
  unfold OperatorTable.apply
  split
  · exact hm.operators _ _ _ _ ‹_› _ _
  · exact .error (hm.foreign _ rfl)

mutual

/-- The evaluation of a tree that derives from the grammar has no bad errors of its own. -/
lemma Expr.eval_avoids (hm : m.Avoids bad) (e : Expr) (he : e.WellFormed m.functions.isFunction) :
    Eval.Avoids bad (e.eval m) := by
  cases e with
  | number x => exact .pure _
  | text s => exact .pure _
  | identifier name => exact .ofRuntime ((m.load_ordinary name).of_ordinary hm.foreign)
  | group e => exact e.eval_avoids hm he
  | call name args =>
    obtain ⟨hname, hargs⟩ := he
    obtain ⟨f, hf⟩ := Option.isSome_iff_exists.1 hname
    simp only [eval, hf]
    refine .bind (evalAll_avoids hm args hargs) fun vs => ?_
    exact Function.apply_avoids hm.foreign fun counter => hm.functions name f hf counter vs
  | vector items =>
    exact .bind (evalAll_avoids hm items he) fun vs =>
      .ofRuntime ((Machine.vector_ordinary vs).of_ordinary hm.foreign)
  | unary op e =>
    exact .bind (e.eval_avoids hm he.2) fun v =>
      .ofRuntime ((Machine.unary_ordinary op v).of_ordinary hm.foreign)
  | binary op l r =>
    obtain ⟨⟨-, hl⟩, -, hr⟩ := he
    exact .bind (l.eval_avoids hm hl) fun left =>
      .bind (r.eval_avoids hm hr) fun right => Machine.binary_avoids hm op left right
  | conditional c t e =>
    obtain ⟨⟨-, hc⟩, ht, he⟩ := he
    refine .bind (c.eval_avoids hm hc) fun v =>
      .bind (.ofRuntime (v.isTruthy_ordinary.of_ordinary hm.foreign)) fun b => ?_
    cases b with
    | true => exact t.eval_avoids hm ht
    | false => exact e.eval_avoids hm he

lemma Expr.evalAll_avoids (hm : m.Avoids bad) (es : List Expr)
    (hes : AllWellFormed m.functions.isFunction es) : Eval.Avoids bad (evalAll m es) := by
  cases es with
  | nil => exact .pure _
  | cons e es =>
    exact .bind (e.eval_avoids hm hes.1) fun v =>
      .bind (evalAll_avoids hm es hes.2) fun vs => .pure _

end

end

end Reckoner
