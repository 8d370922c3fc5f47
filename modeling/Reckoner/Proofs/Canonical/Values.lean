import Reckoner.Proofs.Program.Safety
import Reckoner.Proofs.Substitution.Names

/-!
# Canonical vectors

A vector with only real elements is kept as a real vector. Operators see it widened to a complex
one, so that everything that makes a vector has to narrow it again: literals, signs, operators
between vectors and numbers, and the functions that work element by element. They all do.
-/

namespace Reckoner

/-! ### Values -/

namespace Value

/-- Whether a value has its canonical form: a complex vector has an element that is not real. -/
def IsCanonical : Value → Prop
  | .complexVector zs => ∃ z ∈ zs, z.isReal = false
  | _ => True

instance : DecidablePred IsCanonical
  | .complexVector zs => inferInstanceAs (Decidable (∃ z ∈ zs, z.isReal = false))
  | .scalar _ => inferInstanceAs (Decidable True)
  | .realVector _ => inferInstanceAs (Decidable True)
  | .text _ => inferInstanceAs (Decidable True)
  | .date _ => inferInstanceAs (Decidable True)

lemma isCanonical_ofReal (x : Float) : (ofReal x).IsCanonical :=
  trivial

lemma isCanonical_ofElements (zs : List Complex) : (ofElements zs).IsCanonical := by
  unfold ofElements
  split
  · trivial
  · rename_i hreal
    simpa [IsCanonical] using hreal

end Value

namespace Context

/-- Whether all values of a context have their canonical form. -/
def IsCanonical (c : Context) : Prop :=
  ∀ entry ∈ c.entries, entry.2.IsCanonical

variable {c : Context}

lemma IsCanonical.get? (h : c.IsCanonical) {name : String} {v : Value} (hv : c.get? name = some v) :
    v.IsCanonical :=
  h _ (Assoc.mem_of_find? hv)

lemma IsCanonical.set (h : c.IsCanonical) (name : String) {v : Value} (hv : v.IsCanonical) :
    (c.set name v).IsCanonical := by
  have hinsert : ∀ l : List (String × Value), (∀ entry ∈ l, entry.2.IsCanonical) →
      ∀ entry ∈ Assoc.insertIn (Name.normalize name) v l, entry.2.IsCanonical := by
    intro l hl
    induction l with
    | nil => simpa [Assoc.insertIn] using hv
    | cons entry l ih =>
      rw [List.forall_mem_cons] at hl
      rw [Assoc.insertIn]
      split
      · exact List.forall_mem_cons.2 ⟨hv, hl.2⟩
      · exact List.forall_mem_cons.2 ⟨hl.1, ih hl.2⟩
  exact hinsert c.entries h

lemma isCanonical_initial : initial.IsCanonical := by
  have hempty : IsCanonical .empty := List.forall_mem_nil _
  exact ((hempty.set "pi" (Value.isCanonical_ofReal _)).set "e" (Value.isCanonical_ofReal _)).set
    "phi" (Value.isCanonical_ofReal _)

lemma IsCanonical.setAll (h : c.IsCanonical) (constants : List (String × Float)) :
    (c.setAll constants).IsCanonical := by
  induction constants generalizing c with
  | nil => exact h
  | cons constant rest ih => exact ih (h.set constant.1 (Value.isCanonical_ofReal _))

end Context

/-! ### Results -/

/-- Whether the result of a computation, if there is one, has a property. -/
def Produces {α : Type} (P : α → Prop) (r : Except RuntimeError α) : Prop :=
  ∀ a, r = .ok a → P a

namespace Produces

variable {α β : Type} {P : α → Prop} {Q : β → Prop}

lemma ok {a : α} (ha : P a) : Produces P (.ok a) := by
  intro b hb
  cases hb
  exact ha

lemma error (err : RuntimeError) : Produces P (.error err) := by
  rintro _ ⟨⟩

lemma bind (r : Except RuntimeError α) {f : α → Except RuntimeError β}
    (hf : ∀ a, Produces Q (f a)) : Produces Q (r >>= f) := by
  cases r with
  | ok a => exact hf a
  | error err => exact .error err

lemma map (r : Except RuntimeError α) {f : α → β} (hf : ∀ a, Q (f a)) : Produces Q (r.map f) := by
  cases r with
  | ok a => exact .ok (hf a)
  | error err => exact .error err

end Produces

/-- Whether all functions make canonical values, whatever their arguments are. -/
def Registry.IsCanonical (functions : Registry) : Prop :=
  ∀ name f, functions.get? name = some f →
    ∀ counter args, Produces Value.IsCanonical (f.body counter args).result

/-- Whether all handlers make canonical values, whatever their operands are. -/
def OperatorTable.IsCanonical (table : OperatorTable) : Prop :=
  ∀ left right op handler, table.lookup left right op = some handler →
    ∀ v v', Produces Value.IsCanonical (handler v v')

/-! ### Operators -/

namespace Operator

open Value (IsCanonical isCanonical_ofElements)

lemma onScalars_canonical (op : BinaryOperator) (a b : Complex) :
    Produces IsCanonical (onScalars op a b) := by
  have harithmetic : Produces IsCanonical ((arithmetic op a b).map .scalar) := .map _ fun _ =>
    trivial
  have hbitwise : Produces IsCanonical ((bitwise op a b).map .scalar) := .map _ fun _ => trivial
  cases op with
  | add | sub | mul | div | mod | pow => exact harithmetic
  | bitAnd | bitOr | shiftLeft | shiftRight => exact hbitwise
  | _ => exact .ok trivial

lemma compareMoments_canonical (op : BinaryOperator) (a b : Moment) :
    Produces IsCanonical (compareMoments op a b) := by
  cases op <;> first | exact .ok trivial | exact .error _

lemma elementwise_canonical (op : BinaryOperator) (zs ws : List Complex) :
    Produces IsCanonical (elementwise op zs ws) := by
  unfold elementwise
  split
  · exact .map _ isCanonical_ofElements
  · exact .error _

end Operator

namespace OperatorTable

open Value (isCanonical_ofElements)

/-- The handlers of the language narrow the vectors that they make. -/
lemma isCanonical_standard : IsCanonical .standard := by
  have hall : ∀ entry ∈ standardEntries, ∀ v v', Produces Value.IsCanonical (entry.2 v v') := by
    simp only [standardEntries, List.flatten_cons, List.flatten_nil, List.forall_mem_append]
    exact ⟨forall_mem_entries fun op _ _ => .bind _ fun z => .bind _ fun w =>
        Operator.onScalars_canonical op z w,
      forall_mem_entries fun _ _ _ => .bind _ fun _ => .bind _ fun _ =>
        .map _ isCanonical_ofElements,
      forall_mem_entries fun _ _ _ => .bind _ fun _ => .bind _ fun _ =>
        .map _ isCanonical_ofElements,
      forall_mem_entries fun op _ _ => .bind _ fun zs => .bind _ fun ws =>
        Operator.elementwise_canonical op zs ws,
      forall_mem_entries fun _ _ _ => .ok trivial, forall_mem_entries fun _ _ _ => .ok trivial,
      forall_mem_entries fun _ _ _ => .ok trivial, forall_mem_entries fun _ _ _ => .ok trivial,
      forall_mem_entries fun _ _ _ => .bind _ fun _ => .bind _ fun _ => .ok trivial,
      forall_mem_entries fun op _ _ => .bind _ fun m => .bind _ fun m' =>
        Operator.compareMoments_canonical op m m',
      forall_mem_entries fun _ _ _ => .bind _ fun _ => .bind _ fun _ => .bind _ fun _ =>
        .ok trivial,
      forall_mem_entries fun _ _ _ => .bind _ fun _ => .bind _ fun _ => .bind _ fun _ =>
        .ok trivial,
      forall_mem_entries fun _ _ _ => .bind _ fun _ => .bind _ fun _ => .bind _ fun _ =>
        .ok trivial,
      forall_mem_entries fun _ _ _ => .bind _ fun _ => .bind _ fun _ => .bind _ fun _ =>
        .ok trivial,
      List.forall_mem_nil _⟩
  exact fun left right op handler hhandler => hall _ (Assoc.mem_of_find?_ofList hhandler)

end OperatorTable

/-! ### Functions -/

namespace Function

open Value (IsCanonical isCanonical_ofElements)

variable {name description : String}

lemma unary_body_canonical {f : Value → Except RuntimeError Value}
    (hf : ∀ v, Produces IsCanonical (f v)) :
    ∀ counter args, Produces IsCanonical ((unary name description f).body counter args).result :=
  unary_body (fun _ => .error _) hf

lemma binary_body_canonical {f : Value → Value → Except RuntimeError Value}
    (hf : ∀ v v', Produces IsCanonical (f v v')) :
    ∀ counter args, Produces IsCanonical ((binary name description f).body counter args).result :=
  binary_body (fun _ => .error _) hf

/-- What is mapped over a vector is narrowed, whether the vector was real or not. -/
lemma mapNumbers_canonical (f : Complex → Complex) (v : Value) :
    Produces IsCanonical (mapNumbers name f v) := by
  cases v with
  | scalar z => exact .ok trivial
  | realVector xs => exact .ok (isCanonical_ofElements _)
  | complexVector zs => exact .ok (isCanonical_ofElements _)
  | text s => exact .error _
  | date m => exact .error _

lemma log_canonical (v v' : Value) : Produces IsCanonical (log v v') := by
  refine .bind _ fun z => ?_
  dsimp only
  split
  · exact .error _
  · exact mapNumbers_canonical _ v

lemma check_canonical (v : Value) : Produces IsCanonical (check v) := by
  refine .bind _ fun b => ?_
  cases b with
  | true => exact .ok trivial
  | false => exact .error _

lemma len_canonical (v : Value) : Produces IsCanonical (len v) := by
  have hcount : ∀ n, Produces IsCanonical (len.count n) := fun n => .map _ fun _ => trivial
  cases v with
  | text s => exact .error _
  | date m => exact .error _
  | _ => exact hcount _

lemma dot_canonical (v v' : Value) : Produces IsCanonical (dot v v') := by
  refine .bind _ fun zs => .bind _ fun ws => ?_
  split
  · exact .ok trivial
  · exact .error _

lemma numeric_canonical :
    ∀ f ∈ numeric, ∀ counter args, Produces IsCanonical (f.body counter args).result := by
  unfold numeric
  repeat refine List.forall_mem_cons.2 ⟨unary_body_canonical (mapNumbers_canonical _), ?_⟩
  refine List.forall_mem_cons.2 ⟨binary_body_canonical log_canonical, ?_⟩
  repeat refine List.forall_mem_cons.2 ⟨unary_body_canonical (mapNumbers_canonical _), ?_⟩
  refine List.forall_mem_cons.2 ⟨unary_body_canonical check_canonical, ?_⟩
  refine List.forall_mem_cons.2 ⟨fun _ _ => .bind _ fun _ => .ok trivial, ?_⟩
  refine List.forall_mem_cons.2 ⟨fun _ _ => .bind _ fun _ => .ok trivial, ?_⟩
  refine List.forall_mem_cons.2 ⟨fun _ _ => .bind _ fun _ => .ok trivial, ?_⟩
  refine List.forall_mem_cons.2 ⟨fun _ _ => .bind _ fun _ => .bind _ fun _ => .ok trivial, ?_⟩
  refine List.forall_mem_cons.2 ⟨unary_body_canonical len_canonical, ?_⟩
  refine List.forall_mem_cons.2 ⟨binary_body_canonical dot_canonical, ?_⟩
  refine List.forall_mem_cons.2 ⟨unary_body_canonical fun _ => .bind _ fun _ => .ok trivial, ?_⟩
  exact List.forall_mem_nil _

lemma onTexts_canonical :
    ∀ f ∈ onTexts, ∀ counter args, Produces IsCanonical (f.body counter args).result := by
  unfold onTexts
  refine List.forall_mem_cons.2 ⟨unary_body_canonical fun _ => .bind _ fun _ => .ok trivial, ?_⟩
  refine List.forall_mem_cons.2 ⟨unary_body_canonical fun _ => .bind _ fun _ => .ok trivial, ?_⟩
  refine List.forall_mem_cons.2
    ⟨unary_body_canonical fun _ => .bind _ fun _ => .bind _ fun _ => .ok trivial, ?_⟩
  refine List.forall_mem_cons.2 ⟨fun _ _ => .ok trivial, ?_⟩
  exact List.forall_mem_nil _

lemma momentValue_canonical (d : Date) (t : TimeOfDay) :
    Produces IsCanonical (momentValue d t) := by
  unfold momentValue
  split
  · exact .ok trivial
  · exact .error _

lemma date_canonical (args : List Value) : Produces IsCanonical (date args) := by
  unfold date
  split
  · exact .bind _ fun _ => momentValue_canonical _ _
  · exact .error _

lemma datetime_canonical (args : List Value) : Produces IsCanonical (datetime args) := by
  unfold datetime
  split
  · exact .bind _ fun _ => .bind _ fun _ => momentValue_canonical _ _
  · exact .error _

lemma onDates_canonical :
    ∀ f ∈ onDates, ∀ counter args, Produces IsCanonical (f.body counter args).result := by
  unfold onDates
  refine List.forall_mem_cons.2 ⟨fun _ => date_canonical, ?_⟩
  refine List.forall_mem_cons.2 ⟨fun _ => datetime_canonical, ?_⟩
  repeat refine List.forall_mem_cons.2 ⟨unary_body_canonical fun _ => .bind _ fun _ => .ok trivial,
    ?_⟩
  refine List.forall_mem_cons.2 ⟨binary_body_canonical fun _ _ => .bind _ fun _ => .bind _ fun _ =>
    .bind _ fun _ => .ok trivial, ?_⟩
  exact List.forall_mem_nil _

end Function

/-- The functions of the language narrow the vectors that they make. -/
lemma Registry.isCanonical_standard : Registry.IsCanonical .standard := by
  intro name f hf
  rcases List.mem_append.1 (mem_of_get?_ofFunctions hf) with hmem | hdates
  · rcases List.mem_append.1 hmem with hnumeric | htexts
    · exact Function.numeric_canonical f hnumeric
    · exact Function.onTexts_canonical f htexts
  · exact Function.onDates_canonical f hdates

end Reckoner
