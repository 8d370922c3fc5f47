import Reckoner.Proofs.Program.Tree

/-!
# Runs of the code of a tree

Wherever the code of a tree stands in a program and whatever is on the stack below, running it
follows the evaluation of the tree and leaves its value on the stack.
-/

namespace Reckoner

namespace Program

/-- Whether a program has these instructions from a position on. -/
def CodeAt (p : Program) (start : Nat) (code : List Instruction) : Prop :=
  code <+: p.code.toList.drop start

namespace CodeAt

variable {p : Program} {start : Nat} {first second : List Instruction}

lemma left (h : p.CodeAt start (first ++ second)) : p.CodeAt start first :=
  (List.prefix_append first second).trans h

lemma right (h : p.CodeAt start (first ++ second)) : p.CodeAt (start + first.length) second := by
  obtain ⟨rest, h⟩ := h
  refine ⟨rest, ?_⟩
  rw [← List.drop_drop, ← h, List.append_assoc, List.drop_left]

lemma cast {stop : Nat} (h : p.CodeAt start first) (hstop : start = stop) : p.CodeAt stop first :=
  hstop ▸ h

lemma head {i : Instruction} (h : p.CodeAt start (i :: second)) : p.code[start]? = some i := by
  obtain ⟨rest, h⟩ := h
  have hget : (p.code.toList.drop start)[0]? = some i := by rw [← h]; rfl
  rwa [List.getElem?_drop, Nat.add_zero, Array.getElem?_toList] at hget

lemma tail {i : Instruction} (h : p.CodeAt start (i :: second)) : p.CodeAt (start + 1) second := by
  have h' : p.CodeAt start ([i] ++ second) := h
  exact h'.right

end CodeAt

end Program

namespace Machine

open Eval

variable {m : Machine} {p : Program}

/-- A run that is at an instruction and has enough turns left does that instruction. -/
lemma run_follows_step {start n : Nat} {stack : List Value} {i : Instruction}
    {y : Eval (Option Value)} (hi : p.code[start]? = some i) (hn : p.size ≤ start + n)
    (h : ∀ n', p.size ≤ start + 1 + n' →
      Follows (do
        let (target, stack) ← m.step i stack
        m.run p n' { position := target.getD (start + 1), stack }) y) :
    Follows (m.run p n { position := start, stack }) y := by
  have hstart : start < p.size := (Array.getElem?_eq_some_iff.1 hi).1
  cases n with
  | zero => omega
  | succ n =>
    simp only [run, hi]
    exact .poll_bind (.step_bind rfl (h n (by omega)))

/-- An instruction that replaces some of the stack by the value of `x` follows `x`. -/
lemma run_follows_push {start n : Nat} {stack rest : List Value} {i : Instruction}
    {x y : Eval Value}
    {k : Value → Eval (Option Value)} (hi : p.code[start]? = some i) (hn : p.size ≤ start + n)
    (hstep : m.step i stack = x >>= fun v => pure (none, v :: rest)) (hx : Follows x y)
    (hk : ∀ v n', p.size ≤ start + 1 + n' →
      Follows (m.run p n' { position := start + 1, stack := v :: rest }) (k v)) :
    Follows (m.run p n { position := start, stack }) (y >>= k) := by
  refine run_follows_step hi hn fun n' hn' => ?_
  simp only [hstep, bind_assoc, pure_bind]
  exact .bind hx fun v => hk v n' hn'

/-- A branch goes on behind itself or to its target. -/
lemma run_follows_branch {start target n : Nat} {v : Value} {stack : List Value}
    {y : Bool → Eval (Option Value)} (hi : p.code[start]? = some (.jumpIfFalse target))
    (htarget : start < target) (hn : p.size ≤ start + n)
    (htrue : ∀ n', p.size ≤ start + 1 + n' →
      Follows (m.run p n' { position := start + 1, stack }) (y true))
    (hfalse : ∀ n', p.size ≤ target + n' →
      Follows (m.run p n' { position := target, stack }) (y false)) :
    Follows (m.run p n { position := start, stack := v :: stack })
      (ofRuntime v.isTruthy >>= y) := by
  refine run_follows_step hi hn fun n' hn' => ?_
  simp only [step, bind_assoc]
  refine .bind (.ofRuntime _) fun b => ?_
  cases b with
  | true => exact htrue n' hn'
  | false => exact hfalse n' (by omega)

/-- A jump goes on at its target. -/
lemma run_follows_jump {start target n : Nat} {stack : List Value} {y : Eval (Option Value)}
    (hi : p.code[start]? = some (.jump target)) (htarget : start < target)
    (hn : p.size ≤ start + n)
    (h : ∀ n', p.size ≤ target + n' → Follows (m.run p n' { position := target, stack }) y) :
    Follows (m.run p n { position := start, stack }) y :=
  run_follows_step hi hn fun n' hn' => h n' (by omega)

lemma step_call (m : Machine) (name : String) (vs stack : List Value) :
    m.step (.call name vs.length) (vs.reverse ++ stack)
      = m.call name vs >>= fun v => pure (none, v :: stack) := by
  simp only [step, split_reverse_append]
  rfl

lemma step_vector (m : Machine) (vs stack : List Value) :
    m.step (.vector vs.length) (vs.reverse ++ stack)
      = ofRuntime (vector vs) >>= fun v => pure (none, v :: stack) := by
  simp only [step, split_reverse_append]
  rfl

-- The continuation `k` stands for the code behind the expression. A conditional needs it in this
-- form: both branches come to the same continuation, one of them by a jump.
mutual

/-- The machine on the code of an expression evaluates it and goes on behind the code with its value
on the stack. -/
lemma run_code (e : Expr) {start stop n : Nat} {stack : List Value}
    {k : Value → Eval (Option Value)} (hcode : p.CodeAt start (e.code start))
    (hstop : stop = start + (e.code start).length) (hn : p.size ≤ start + n)
    (hk : ∀ v n', p.size ≤ stop + n' →
      Follows (m.run p n' { position := stop, stack := v :: stack }) (k v)) :
    Follows (m.run p n { position := start, stack }) (e.eval m >>= k) := by
  cases e with
  | number x =>
    subst hstop
    simp only [Expr.eval]
    exact run_follows_push hcode.head hn rfl (.pure _) hk
  | text s =>
    subst hstop
    simp only [Expr.eval]
    exact run_follows_push hcode.head hn rfl (.pure _) hk
  | identifier name =>
    subst hstop
    simp only [Expr.eval]
    exact run_follows_push hcode.head hn rfl (.ofRuntime _) hk
  | group e =>
    simp only [Expr.code] at hcode hstop
    simpa only [Expr.eval] using run_code e hcode hstop hn hk
  | call name args =>
    simp only [Expr.code] at hcode hstop
    rw [List.length_append, ← Nat.add_assoc] at hstop
    subst hstop
    simp only [Expr.eval, bind_assoc, ← call_eq]
    refine run_listCode args hcode.left rfl hn fun vs n' hlength hn' => ?_
    rw [← hlength] at hcode
    exact run_follows_push hcode.right.head hn' (step_call m name vs stack)
      (m.call_follows name vs) hk
  | vector items =>
    simp only [Expr.code] at hcode hstop
    rw [List.length_append, ← Nat.add_assoc] at hstop
    subst hstop
    simp only [Expr.eval, bind_assoc]
    refine run_listCode items hcode.left rfl hn fun vs n' hlength hn' => ?_
    rw [← hlength] at hcode
    exact run_follows_push hcode.right.head hn' (step_vector m vs stack) (.ofRuntime _) hk
  | unary op e =>
    simp only [Expr.code] at hcode hstop
    rw [List.length_append, ← Nat.add_assoc] at hstop
    subst hstop
    simp only [Expr.eval, bind_assoc]
    refine run_code e hcode.left rfl hn fun v n' hn' => ?_
    exact run_follows_push hcode.right.head hn' rfl (.ofRuntime _) hk
  | binary op l r =>
    simp only [Expr.code] at hcode hstop
    have happly := hcode.right.head
    rw [List.length_append, ← Nat.add_assoc] at happly
    rw [List.length_append, List.length_append, ← Nat.add_assoc, ← Nat.add_assoc] at hstop
    subst hstop
    simp only [Expr.eval, bind_assoc]
    refine run_code l hcode.left.left rfl hn fun left n' hn' => ?_
    refine run_code r hcode.left.right rfl hn' fun right n'' hn'' => ?_
    exact run_follows_push happly hn'' rfl (m.binary_follows op left right) hk
  | conditional c t e =>
    simp only [Expr.code] at hcode hstop
    generalize hmiddle : start + (c.code start).length + 1 = middle at hcode hstop
    generalize hotherwise : start + (c.code start).length + (t.code middle).length + 2 = otherwise
      at hcode hstop
    simp only [List.length_append, List.length_cons] at hstop
    have hend : otherwise + (e.code otherwise).length = stop := by omega
    have hbranch := hcode.left.right
    have hconsequent := hbranch.tail.cast hmiddle
    have hjump : p.CodeAt (middle + (t.code middle).length) _ :=
      hcode.right.cast (by simp only [List.length_append, List.length_cons]; omega)
    have halternative : p.CodeAt otherwise _ := hjump.tail.cast (by omega)
    rw [hend] at hjump
    simp only [Expr.eval, bind_assoc]
    refine run_code c hcode.left.left rfl hn fun v n₁ hn₁ => ?_
    refine run_follows_branch hbranch.head (by omega) hn₁ (fun n₂ hn₂ => ?_) (fun n₂ hn₂ => ?_)
    · rw [hmiddle] at hn₂ ⊢
      refine run_code t hconsequent rfl hn₂ fun v n₃ hn₃ => ?_
      exact run_follows_jump hjump.head (by omega) hn₃ (hk v)
    · exact run_code e halternative hend.symm hn₂ hk

/-- The machine on the code of expressions in a row evaluates them from the first to the last. -/
lemma run_listCode (es : List Expr) {start stop n : Nat} {stack : List Value}
    {k : List Value → Eval (Option Value)} (hcode : p.CodeAt start (Expr.listCode start es))
    (hstop : stop = start + (Expr.listCode start es).length) (hn : p.size ≤ start + n)
    (hk : ∀ vs n', vs.length = es.length → p.size ≤ stop + n' →
      Follows (m.run p n' { position := stop, stack := vs.reverse ++ stack }) (k vs)) :
    Follows (m.run p n { position := start, stack }) (Expr.evalAll m es >>= k) := by
  cases es with
  | nil =>
    subst hstop
    rw [Expr.evalAll, pure_bind]
    exact hk [] n rfl hn
  | cons e es =>
    simp only [Expr.listCode] at hcode hstop
    rw [List.length_append, ← Nat.add_assoc] at hstop
    subst hstop
    simp only [Expr.evalAll, bind_assoc, pure_bind]
    refine run_code e hcode.left rfl hn fun v n' hn' => ?_
    refine run_listCode es hcode.right rfl hn' fun vs n'' hlength hn'' => ?_
    have h := hk (v :: vs) n'' (congrArg Nat.succ hlength) hn''
    rwa [List.reverse_cons, List.append_assoc] at h

end

/-- The machine comes to the end of the program of an expression with its value, if it may do as
many instructions as the program has. -/
lemma run_program_follows (m : Machine) (e : Expr) {n : Nat} (hn : e.program.size ≤ n) :
    Follows (m.run e.program n {}) (some <$> e.eval m) := by
  have hcode : e.program.CodeAt 0 (e.code 0) := List.prefix_refl _
  have hsize : e.program.size = (e.code 0).length := List.size_toArray
  rw [map_eq_pure_bind]
  refine run_code e hcode rfl (by omega) fun v n' hn' => ?_
  have hend : e.program.code[0 + (e.code 0).length]? = none := by
    rw [Nat.zero_add, ← hsize]
    exact Array.getElem?_eq_none_iff.2 (Nat.le_refl _)
  cases n' <;> simp only [run, hend] <;> exact .pure _

/-- The machine evaluates the tree. -/
lemma eval_eq_map_bind (m : Machine) (e : Expr) :
    e.eval m = (some <$> e.eval m) >>= fun
      | some v => pure v
      | none => throw (.runtime (.malformedProgram 0)) := by
  simp only [map_eq_pure_bind, bind_assoc, pure_bind, bind_pure]

lemma execute_program_follows (m : Machine) (e : Expr) :
    Follows (m.execute e.program) (e.eval m) := by
  have hrun := run_program_follows m e (Nat.le_refl _)
  rw [eval_eq_map_bind]
  refine .bind hrun fun v => ?_
  cases v with
  | some v => exact .pure v
  | none => exact .throw _

end Machine

end Reckoner
