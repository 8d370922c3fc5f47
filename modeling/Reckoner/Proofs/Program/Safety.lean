import Reckoner.Engine
import Reckoner.Proofs.Operator.Ordinary

/-!
# Compiled programs are safe

A compiled program never lacks operands, never leaves another number of values than one and never
calls a function that does not exist. The machine follows the direct evaluation of the tree, which
has no stack, and the operators and functions of the language have no internal errors.
-/

namespace Reckoner

namespace Function

variable {name description : String}

/-- What is true of an error about the arguments and of all results of a function of one value is
true of the results of its body. -/
lemma unary_body {P : Except RuntimeError Value → Prop}
    (hcount : ∀ count, P (.error (.argumentCount name 1 count)))
    {f : Value → Except RuntimeError Value} (hf : ∀ v, P (f v)) (counter : Nat)
      (args : List Value) :
    P ((unary name description f).body counter args).result := by
  match args with
  | [v] => exact hf v
  | [] => exact hcount _
  | _ :: _ :: _ => exact hcount _

lemma binary_body {P : Except RuntimeError Value → Prop}
    (hcount : ∀ count, P (.error (.argumentCount name 2 count)))
    {f : Value → Value → Except RuntimeError Value} (hf : ∀ v v', P (f v v')) (counter : Nat)
    (args : List Value) : P ((binary name description f).body counter args).result := by
  match args with
  | [v, v'] => exact hf v v'
  | [] => exact hcount _
  | [_] => exact hcount _
  | _ :: _ :: _ :: _ => exact hcount _

lemma unary_body_ordinary {f : Value → Except RuntimeError Value} (hf : ∀ v, Ordinary (f v)) :
    ∀ counter args, Ordinary ((unary name description f).body counter args).result :=
  unary_body (fun _ => .error rfl) hf

lemma binary_body_ordinary {f : Value → Value → Except RuntimeError Value}
    (hf : ∀ v v', Ordinary (f v v')) :
    ∀ counter args, Ordinary ((binary name description f).body counter args).result :=
  binary_body (fun _ => .error rfl) hf

lemma mapNumbers_ordinary (f : Complex → Complex) (v : Value) : Ordinary (mapNumbers name f v) := by
  cases v with
  | text s => exact .error rfl
  | date d => exact .error rfl
  | _ => exact .ok _

lemma flatten_ordinary (args : List Value) : Ordinary (flatten name args) := by
  refine .bind (.mapM Value.elements_ordinary args) fun zs => ?_
  dsimp only
  split
  · exact .error rfl
  · exact .ok _

lemma flattenReal_ordinary (args : List Value) : Ordinary (flattenReal name args) := by
  refine .bind (flatten_ordinary args) fun zs => .mapM (fun z => ?_) zs
  split
  · exact .ok _
  · exact .error rfl

lemma log_ordinary (v v' : Value) : Ordinary (log v v') := by
  refine .bind v'.toComplex_ordinary fun z => ?_
  dsimp only
  split
  · exact .error rfl
  · exact mapNumbers_ordinary _ v

lemma check_ordinary (v : Value) : Ordinary (check v) := by
  refine .bind v.isTruthy_ordinary fun b => ?_
  cases b with
  | true => exact .ok _
  | false => exact .error rfl

lemma len_ordinary (v : Value) : Ordinary (len v) := by
  have hcount : ∀ n, Ordinary (len.count n) := fun n => (Binary64.ofIntChecked_ordinary n).map _
  cases v with
  | text s => exact .error rfl
  | date d => exact .error rfl
  | _ => exact hcount _

lemma dot_ordinary (v v' : Value) : Ordinary (dot v v') := by
  refine .bind v.elements_ordinary fun zs => .bind v'.elements_ordinary fun ws => ?_
  split
  · exact .ok _
  · exact .error rfl

lemma numeric_ordinary :
    ∀ f ∈ numeric, ∀ counter args, Ordinary (f.body counter args).result := by
  unfold numeric
  repeat refine List.forall_mem_cons.2 ⟨unary_body_ordinary (mapNumbers_ordinary _), ?_⟩
  refine List.forall_mem_cons.2 ⟨binary_body_ordinary log_ordinary, ?_⟩
  repeat refine List.forall_mem_cons.2 ⟨unary_body_ordinary (mapNumbers_ordinary _), ?_⟩
  refine List.forall_mem_cons.2 ⟨unary_body_ordinary check_ordinary, ?_⟩
  refine List.forall_mem_cons.2 ⟨fun _ args => .bind (flattenReal_ordinary args) fun _ => .ok _, ?_⟩
  refine List.forall_mem_cons.2 ⟨fun _ args => .bind (flattenReal_ordinary args) fun _ => .ok _, ?_⟩
  refine List.forall_mem_cons.2 ⟨fun _ args => .bind (flatten_ordinary args) fun _ => .ok _, ?_⟩
  refine List.forall_mem_cons.2 ⟨fun _ args => .bind (flatten_ordinary args) fun zs =>
    .bind (Binary64.ofIntChecked_ordinary _) fun _ => .ok _, ?_⟩
  refine List.forall_mem_cons.2 ⟨unary_body_ordinary len_ordinary, ?_⟩
  refine List.forall_mem_cons.2 ⟨binary_body_ordinary dot_ordinary, ?_⟩
  refine List.forall_mem_cons.2 ⟨unary_body_ordinary fun v => .bind v.elements_ordinary fun _ =>
    .ok _, ?_⟩
  exact fun f hf => nomatch hf

lemma onTexts_ordinary :
    ∀ f ∈ onTexts, ∀ counter args, Ordinary (f.body counter args).result := by
  unfold onTexts
  refine List.forall_mem_cons.2 ⟨unary_body_ordinary fun v => .bind v.toText_ordinary fun _ =>
    .ok _, ?_⟩
  refine List.forall_mem_cons.2 ⟨unary_body_ordinary fun v => .bind v.toText_ordinary fun _ =>
    .ok _, ?_⟩
  refine List.forall_mem_cons.2 ⟨unary_body_ordinary fun v => .bind v.toText_ordinary fun _ =>
    .bind (Binary64.ofIntChecked_ordinary _) fun _ => .ok _, ?_⟩
  refine List.forall_mem_cons.2 ⟨fun _ _ => .ok _, ?_⟩
  exact fun f hf => nomatch hf

lemma calendarDay_ordinary (year month day : Value) : Ordinary (calendarDay year month day) := by
  refine .bind year.toReal_ordinary fun _ => .bind (Binary64.toRangeChecked_ordinary _ _ _) fun _ =>
    .bind month.toReal_ordinary fun _ => .bind (Binary64.toUnsigned32_ordinary _) fun _ =>
      .bind day.toReal_ordinary fun _ => .bind (Binary64.toUnsigned32_ordinary _) fun _ => ?_
  dsimp only
  split
  · exact .ok _
  · exact .error rfl

lemma timeOfDay_ordinary (hour minute second : Value) :
    Ordinary (timeOfDay hour minute second) := by
  refine .bind hour.toReal_ordinary fun _ => .bind (Binary64.toUnsigned32_ordinary _) fun _ =>
    .bind minute.toReal_ordinary fun _ => .bind (Binary64.toUnsigned32_ordinary _) fun _ =>
      .bind second.toReal_ordinary fun _ => .bind (Binary64.toUnsigned32_ordinary _) fun _ => ?_
  dsimp only
  split
  · exact .ok _
  · exact .error rfl

lemma momentValue_ordinary (d : Date) (t : TimeOfDay) : Ordinary (momentValue d t) := by
  unfold momentValue
  split
  · exact .ok _
  · exact .error rfl

lemma date_ordinary (args : List Value) : Ordinary (date args) := by
  unfold date
  split
  · exact .bind (calendarDay_ordinary _ _ _) fun _ => momentValue_ordinary _ _
  · exact .error rfl

lemma datetime_ordinary (args : List Value) : Ordinary (datetime args) := by
  unfold datetime
  split
  · exact .bind (calendarDay_ordinary _ _ _) fun _ => .bind (timeOfDay_ordinary _ _ _) fun _ =>
      momentValue_ordinary _ _
  · exact .error rfl

lemma field_ordinary (f : Moment → Int) (v : Value) : Ordinary (field f v) :=
  .bind v.toMoment_ordinary fun _ => .ok _

lemma onDates_ordinary :
    ∀ f ∈ onDates, ∀ counter args, Ordinary (f.body counter args).result := by
  unfold onDates
  refine List.forall_mem_cons.2 ⟨fun _ => date_ordinary, ?_⟩
  refine List.forall_mem_cons.2 ⟨fun _ => datetime_ordinary, ?_⟩
  repeat refine List.forall_mem_cons.2 ⟨unary_body_ordinary (field_ordinary _), ?_⟩
  refine List.forall_mem_cons.2 ⟨binary_body_ordinary fun v v' => .bind v.toMoment_ordinary fun _ =>
    .bind v'.toMoment_ordinary fun _ => .bind ((Binary64.ofIntChecked_ordinary _).map _) fun _ =>
      .ok _, ?_⟩
  exact fun f hf => nomatch hf

end Function

namespace Registry

/-- The functions of the language have no foreign errors. -/
lemma ordinary_standard {name : String} {f : Function} (hf : standard.get? name = some f)
    (counter : Nat) (args : List Value) : Ordinary (f.body counter args).result := by
  rcases List.mem_append.1 (mem_of_get?_ofFunctions hf) with hmem | hdates
  · rcases List.mem_append.1 hmem with hnumeric | htexts
    · exact Function.numeric_ordinary f hnumeric counter args
    · exact Function.onTexts_ordinary f htexts counter args
  · exact Function.onDates_ordinary f hdates counter args

lemma sound_standard : Sound .standard :=
  fun _ _ hf counter args => (ordinary_standard hf counter args).sound

end Registry

namespace Engine

/-- What the engine compiles is the postfix form of a tree. -/
lemma exists_of_compile {e : Engine} {source : List Char} {p : Program}
    (h : e.compile source = .ok p) :
    ∃ tree : Expr, tree.WellFormed e.functions.isFunction ∧ tree.program = p := by
  unfold compile at h
  cases hts : Token.tokenize (Text.trim source) with
  | error err =>
    rw [hts] at h
    cases h
  | ok ts =>
    rw [hts] at h
    obtain ⟨tree, ⟨htree, -⟩, hp⟩ := Program.compile_eq_ok_iff.1 h
    exact ⟨tree, htree, hp⟩

/-- The jumps of a compiled program go forward and not beyond its end. The machine comes to the end
of the program, or fails, after at most as many instructions as there are, and a further turn would
change nothing. It does not fail with an internal error unless a function or a handler does. -/
theorem compile_safe (e : Engine) (context : Context) (source : List Char) (p : Program)
    (h : e.compile source = .ok p) :
    let m : Machine := ⟨context, e.operators, e.functions⟩
    (∀ k i target, p.code[k]? = some i → i.target? = some target → k < target ∧ target ≤ p.size)
      ∧ (∀ w, ((m.run p p.size {}).run w).1 ≠ .ok none
          ∧ ∀ n, p.size ≤ n → (m.run p n {}).run w = (m.run p p.size {}).run w)
      ∧ (e.functions.Sound → e.operators.Sound →
          ∀ w err, ((m.execute p).run w).1 = .error (.runtime err) → err.isInternal = false) := by
  intro m
  obtain ⟨tree, htree, rfl⟩ := exists_of_compile h
  refine ⟨fun k i target hi ht => ?_, fun w => ?_, fun hfunctions hoperators w err herr => ?_⟩
  · have hjumps := (tree.jumpsWithin_code 0).get (by simpa [Expr.program] using hi) ht
    simpa [Program.size, Expr.program] using hjumps
  · have hend : ((m.run tree.program tree.program.size {}).run w).1 ≠ .ok none := by
      rcases Machine.run_program_follows m tree (Nat.le_refl _) w w rfl with ⟨hrun, -⟩ | ⟨hrun, -⟩
      · rw [hrun, map_eq_pure_bind, Eval.run_bind]
        rcases (tree.eval m).run w with ⟨err | v, w'⟩
        · intro hnone
          cases hnone
        · intro hnone
          cases hnone
      · rw [hrun]
        intro hnone
        cases hnone
    exact ⟨hend, fun n hn => Machine.run_of_le hend hn⟩
  · rcases Machine.execute_program_follows m tree w w rfl with ⟨hrun, -⟩ | ⟨hrun, -⟩
    · rw [hrun] at herr
      have hm : m.Avoids RuntimeError.isInternal :=
        ⟨RuntimeError.not_isInternal_of_not_isForeign, hfunctions, hoperators⟩
      exact tree.eval_avoids hm htree w err herr
    · rw [hrun] at herr
      cases herr

/-- The inner conditional is jumped over while the left operand of the sum waits on the stack. -/
theorem compile_safe_nested :
    ∃ p, ({} : Engine).compile "1 + (0 ? (1 ? sqrt(2) : 3) : [4, 5])".toList = .ok p
      ∧ p.code[2]? = some (.jumpIfFalse 10)
      ∧ (∀ w, (((⟨.initial, .standard, .standard⟩ : Machine).run p p.size {}).run w).1 ≠ .ok none)
      ∧ ∀ w err, (((⟨.initial, .standard, .standard⟩ : Machine).execute p).run w).1
          = .error (.runtime err) → err.isInternal = false := by
  have hcompile : ({} : Engine).compile "1 + (0 ? (1 ? sqrt(2) : 3) : [4, 5])".toList
      = .ok ⟨#[.number 1, .number 0, .jumpIfFalse 10, .number 1, .jumpIfFalse 8, .number 2,
          .call "sqrt" 1, .jump 9, .number 3, .jump 13, .number 4, .number 5, .vector 2,
          .binary .add]⟩ := by
    rw [← Except.toOption_eq_some_iff]
    decide +kernel
  obtain ⟨-, hrun, hsound⟩ := compile_safe {} .initial _ _ hcompile
  exact ⟨_, hcompile, rfl, fun w => (hrun w).1,
    hsound Registry.sound_standard OperatorTable.sound_standard⟩

end Engine

end Reckoner
