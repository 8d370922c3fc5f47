import Reckoner.Proofs.Form.Depth
import Reckoner.Proofs.Program.Evaluation
import Reckoner.Proofs.Value.Alike

/-!
# The value of an expression

With the functions and operators of the language an expression has a value in a context, or none.
Nothing else that an evaluation reads has a say in it.
-/

namespace Reckoner

/-! ### Evaluations whose result is known -/

namespace Eval

variable {α β : Type}

/-- Whether an evaluation has the given result in every world. -/
def Gives (x : Eval α) (r : Option α) : Prop :=
  ∀ w, (x.run w).1.toOption = r

namespace Gives

lemma pure (a : α) : Gives (Pure.pure a) (some a) :=
  fun _ => rfl

lemma throw (e : EvalError) : Gives (MonadExcept.throw e : Eval α) none :=
  fun _ => rfl

lemma note (e : Event) : Gives (Eval.note e) (some ()) :=
  fun _ => rfl

lemma ofRuntime (r : Except RuntimeError α) : Gives (Eval.ofRuntime r) r.toOption := by
  intro w
  cases r <;> rfl

lemma bind {x : Eval α} {r : Option α} {f : α → Eval β} {g : α → Option β} (hx : Gives x r)
    (hf : ∀ a, Gives (f a) (g a)) : Gives (x >>= f) (r.bind g) := by
  intro w
  have hx := hx w
  rw [run_bind]
  generalize x.run w = outcome at hx
  obtain ⟨err | a, w'⟩ := outcome
  · rw [← hx]
    rfl
  · rw [← hx]
    exact hf a w'

end Gives

end Eval

/-! ### Values -/

/-- The machine with the functions and operators of the language. -/
def Machine.standard (c : Context) : Machine :=
  ⟨c, .standard, .standard⟩

/-- The result of a function of the language. -/
def Function.result? (name : String) (vs : List Value) : Option Value :=
  (Registry.standard.get? name).bind fun f => (f.invoke 0 vs).result.toOption

/-- The result of an operator of the language. -/
def BinaryOperator.result? (op : BinaryOperator) (v w : Value) : Option Value :=
  (OperatorTable.standard.apply op v w).toOption

namespace Expr

mutual

/-- The value of an expression in a context. -/
def value? (c : Context) : Expr → Option Value
  | .number x => some (.ofReal x)
  | .text s => some (.text s)
  | .identifier name => ((Machine.standard c).load name).toOption
  | .group e => e.value? c
  | .call name args => (values? c args).bind (Function.result? name)
  | .vector items => (values? c items).bind fun vs => (Machine.vector vs).toOption
  | .unary op e => (e.value? c).bind fun v => (Machine.unary op v).toOption
  | .binary op l r => (l.value? c).bind fun v => (r.value? c).bind (op.result? v)
  | .conditional p t e =>
    (p.value? c).bind fun v => v.isTruthy.toOption.bind fun b =>
      if b then t.value? c else e.value? c

/-- The values of expressions in a context. -/
def values? (c : Context) : List Expr → Option (List Value)
  | [] => some []
  | e :: rest => (e.value? c).bind fun v => (values? c rest).bind fun vs => some (v :: vs)

end

end Expr

namespace Function

/-- Whether the result of a function depends on its arguments only. -/
def IsPure (f : Function) : Prop :=
  ∀ counter args, (f.body counter args).result = (f.body 0 args).result

lemma isPure_standard {name : String} {f : Function} (h : Registry.standard.get? name = some f) :
    f.IsPure := by
  have hall : ∀ f ∈ numeric ++ onTexts ++ onDates, f.IsPure := by
    unfold numeric onTexts onDates
    repeat refine List.forall_mem_cons.2 ⟨fun _ _ => rfl, ?_⟩
    exact fun f hf => nomatch hf
  exact hall f (Registry.mem_of_get?_ofFunctions h)

lemma enter_gives {f : Function} (hf : f.IsPure) (args : List Value) :
    Eval.Gives (f.enter args) (f.body 0 args).result.toOption := by
  intro w
  rw [enter_run, ← hf w.counter args]
  exact Eval.Gives.ofRuntime _ _

lemma apply_gives {f : Function} (hf : f.IsPure) (args : List Value) :
    Eval.Gives (f.apply args) (f.invoke 0 args).result.toOption := by
  cases harity : f.arity with
  | any =>
    simp only [apply, invoke, harity]
    exact enter_gives hf args
  | exactly n =>
    simp only [apply, invoke, harity]
    split_ifs
    · exact enter_gives hf args
    · exact .throw _

end Function

namespace Expr

open Eval

mutual

/-- An evaluation has the value of the expression as its result. -/
lemma eval_gives (c : Context) (e : Expr) : Gives (e.eval (.standard c)) (e.value? c) := by
  cases e with
  | number x => exact .pure _
  | text s => exact .pure _
  | identifier name => exact .ofRuntime _
  | group e => exact e.eval_gives c
  | call name args =>
    refine .bind (evalAll_gives c args) fun vs => ?_
    simp only [Machine.standard, Function.result?]
    cases hf : Registry.standard.get? name with
    | none => exact .throw _
    | some f => exact Function.apply_gives (Function.isPure_standard hf) vs
  | vector items => exact .bind (evalAll_gives c items) fun vs => .ofRuntime _
  | unary op e => exact .bind (e.eval_gives c) fun v => .ofRuntime _
  | binary op l r =>
    refine .bind (l.eval_gives c) fun v => .bind (r.eval_gives c) fun w => ?_
    exact .bind (r := some ()) (.note _) fun _ => .ofRuntime _
  | conditional p t e =>
    refine .bind (p.eval_gives c) fun v => .bind (.ofRuntime _) fun b => ?_
    cases b with
    | true => exact t.eval_gives c
    | false => exact e.eval_gives c

lemma evalAll_gives (c : Context) (es : List Expr) :
    Gives (evalAll (.standard c) es) (values? c es) := by
  cases es with
  | nil => exact .pure _
  | cons e es =>
    exact .bind (e.eval_gives c) fun v => .bind (evalAll_gives c es) fun vs => .pure _

end

/-! ### What a value depends on -/

mutual

/-- The names of the variables of an expression. -/
def names : Expr → List String
  | .number _ => []
  | .text _ => []
  | .identifier name => [name]
  | .group e => e.names
  | .call _ args => listNames args
  | .vector items => listNames items
  | .unary _ e => e.names
  | .binary _ l r => l.names ++ r.names
  | .conditional p t e => p.names ++ (t.names ++ e.names)

/-- The names of the variables of expressions. -/
def listNames : List Expr → List String
  | [] => []
  | e :: rest => e.names ++ listNames rest

end

lemma load_congr {c c' : Context} {name : String} (h : c'.get? name = c.get? name) :
    (Machine.standard c').load name = (Machine.standard c).load name := by
  simp only [Machine.load, Machine.standard, h]

mutual

/-- Only the variables of an expression have a say in its value. -/
lemma value?_congr {c c' : Context} (e : Expr) (h : ∀ name ∈ e.names, c'.get? name = c.get? name) :
    e.value? c' = e.value? c := by
  cases e with
  | number x => rfl
  | text s => rfl
  | identifier name => simp only [value?, load_congr (h name List.mem_cons_self)]
  | group e => exact value?_congr e h
  | call name args => simp only [value?, values?_congr args h]
  | vector items => simp only [value?, values?_congr items h]
  | unary op e => simp only [value?, value?_congr e h]
  | binary op l r =>
    rw [names, List.forall_mem_append] at h
    simp only [value?, value?_congr l h.1, value?_congr r h.2]
  | conditional p t e =>
    rw [names, List.forall_mem_append, List.forall_mem_append] at h
    simp only [value?, value?_congr p h.1, value?_congr t h.2.1, value?_congr e h.2.2]

lemma values?_congr {c c' : Context} (es : List Expr)
    (h : ∀ name ∈ listNames es, c'.get? name = c.get? name) : values? c' es = values? c es := by
  cases es with
  | nil => rfl
  | cons e es =>
    rw [listNames, List.forall_mem_append] at h
    simp only [values?, value?_congr e h.1, values?_congr es h.2]

end

/-! ### Steady expressions -/

mutual

/-- An expression is steady in a context if its evaluation meets no function and no operator that
tells values apart that are alike, among those with a conditional in their operands. -/
def Steady (c : Context) : Expr → Prop
  | .number _ => True
  | .text _ => True
  | .identifier _ => True
  | .group e => e.Steady c
  | .call name args =>
    AllSteady c args ∧ (0 < listDepth args → ∀ vs ws, values? c args = some vs →
      List.Forall₂ Value.Alike vs ws →
        Value.Agree (Function.result? name vs) (Function.result? name ws))
  | .vector items => AllSteady c items
  | .unary _ e => e.Steady c
  | .binary op l r =>
    l.Steady c ∧ ∀ v, l.value? c = some v → r.Steady c ∧
      (0 < max l.depth r.depth → ∀ v' w w', r.value? c = some v' → v.Alike w → v'.Alike w' →
        Value.Agree (op.result? v v') (op.result? w w'))
  | .conditional p t e =>
    p.Steady c ∧ ∀ v, p.value? c = some v →
      (v.isTruthy.toOption = some true → t.Steady c)
        ∧ (v.isTruthy.toOption = some false → e.Steady c)

/-- Expressions are steady, each one that is reached. -/
def AllSteady (c : Context) : List Expr → Prop
  | [] => True
  | e :: rest => e.Steady c ∧ ∀ v, e.value? c = some v → AllSteady c rest

end

mutual

lemma steady_congr {c c' : Context} (e : Expr) (h : ∀ name ∈ e.names, c'.get? name = c.get? name) :
    e.Steady c' ↔ e.Steady c := by
  cases e with
  | number x => exact Iff.rfl
  | text s => exact Iff.rfl
  | identifier name => exact Iff.rfl
  | group e => exact steady_congr e h
  | call name args => simp only [Steady, allSteady_congr args h, values?_congr args h]
  | vector items => exact allSteady_congr items h
  | unary op e => exact steady_congr e h
  | binary op l r =>
    rw [names, List.forall_mem_append] at h
    simp only [Steady, steady_congr l h.1, steady_congr r h.2, value?_congr l h.1,
      value?_congr r h.2]
  | conditional p t e =>
    rw [names, List.forall_mem_append, List.forall_mem_append] at h
    simp only [Steady, steady_congr p h.1, steady_congr t h.2.1, steady_congr e h.2.2,
      value?_congr p h.1]

lemma allSteady_congr {c c' : Context} (es : List Expr)
    (h : ∀ name ∈ listNames es, c'.get? name = c.get? name) :
    AllSteady c' es ↔ AllSteady c es := by
  cases es with
  | nil => exact Iff.rfl
  | cons e es =>
    rw [listNames, List.forall_mem_append] at h
    simp only [AllSteady, steady_congr e h.1, allSteady_congr es h.2, value?_congr e h.1]

end

mutual

/-- An expression without conditionals is steady. -/
lemma steady_of_depth (c : Context) (e : Expr) (h : e.depth = 0) : e.Steady c := by
  cases e with
  | number x => trivial
  | text s => trivial
  | identifier name => trivial
  | group e => exact steady_of_depth c e (eq_zero_of_deepen h)
  | call name args =>
    have hargs := eq_zero_of_deepen h
    exact ⟨allSteady_of_depth c args hargs, fun hpos => absurd hargs hpos.ne'⟩
  | vector items => exact allSteady_of_depth c items (eq_zero_of_deepen h)
  | unary op e => exact steady_of_depth c e (eq_zero_of_deepen h)
  | binary op l r =>
    have hmax := eq_zero_of_deepen h
    obtain ⟨hl, hr⟩ := Nat.max_eq_zero_iff.1 hmax
    exact ⟨steady_of_depth c l hl, fun v _ =>
      ⟨steady_of_depth c r hr, fun hpos => absurd hmax hpos.ne'⟩⟩
  | conditional p t e => cases h

lemma allSteady_of_depth (c : Context) (es : List Expr) (h : listDepth es = 0) :
    AllSteady c es := by
  cases es with
  | nil => trivial
  | cons e es =>
    obtain ⟨he, hes⟩ := Nat.max_eq_zero_iff.1 h
    exact ⟨steady_of_depth c e he, fun v _ => allSteady_of_depth c es hes⟩

end

end Expr

end Reckoner
