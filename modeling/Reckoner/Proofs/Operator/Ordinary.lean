import Reckoner.Proofs.Program.Evaluation
import Reckoner.Proofs.Program.Failures

/-!
# Operators have no internal errors

Internal errors are those of the machine, which say that a program is not well-formed. Reading a
value and applying an operator of the language to values never fails with one.
-/

namespace Reckoner

namespace Value

lemma toComplex_ordinary (v : Value) : Ordinary v.toComplex := by
  cases v with
  | scalar z => exact .ok _
  | _ => exact .error rfl

lemma toReal_ordinary (v : Value) : Ordinary v.toReal := by
  refine .bind v.toComplex_ordinary fun z => ?_
  split
  · exact .ok _
  · exact .error rfl

lemma toText_ordinary (v : Value) : Ordinary v.toText := by
  cases v with
  | text s => exact .ok _
  | _ => exact .error rfl

lemma toMoment_ordinary (v : Value) : Ordinary v.toMoment := by
  cases v with
  | date d => exact .ok _
  | _ => exact .error rfl

lemma elements_ordinary (v : Value) : Ordinary v.elements := by
  cases v with
  | text s => exact .error rfl
  | date d => exact .error rfl
  | _ => exact .ok _

end Value

namespace Binary64

lemma ofIntChecked_ordinary (n : Int) : Ordinary (ofIntChecked n) := by
  unfold ofIntChecked
  split
  · exact .ok _
  · exact .error rfl

lemma toIntChecked_ordinary (x : Float) : Ordinary (toIntChecked x) := by
  unfold toIntChecked
  split
  · split
    · exact .ok _
    · exact .error rfl
  · exact .error rfl

lemma toRangeChecked_ordinary (least greatest : Int) (x : Float) :
    Ordinary (toRangeChecked least greatest x) := by
  refine .bind (toIntChecked_ordinary x) fun n => ?_
  split
  · exact .ok _
  · exact .error rfl

lemma toUnsigned32_ordinary (x : Float) : Ordinary (toUnsigned32 x) :=
  (toRangeChecked_ordinary _ _ x).map _

end Binary64

namespace Operator

lemma arithmetic_ordinary (op : BinaryOperator) (a b : Complex) : Ordinary (arithmetic op a b) := by
  unfold arithmetic
  split
  · exact .ok _
  · exact .ok _
  · exact .ok _
  · split
    · exact .error rfl
    · exact .ok _
  · split
    · exact .error rfl
    · split
      · exact .error rfl
      · exact .ok _
  · split
    · exact .error rfl
    · exact .ok _
  · exact .error rfl

lemma integer_ordinary (z : Complex) : Ordinary (integer z) := by
  unfold integer
  split
  · exact Binary64.toIntChecked_ordinary _
  · exact .error rfl

lemma bitwise_ordinary (op : BinaryOperator) (a b : Complex) : Ordinary (bitwise op a b) := by
  have hlast : ∀ n, Ordinary (Binary64.ofIntChecked n >>= fun x => pure (Complex.ofReal x)) :=
    fun n => .bind (Binary64.ofIntChecked_ordinary n) fun _ => .ok _
  refine .bind (integer_ordinary a) fun left => .bind (integer_ordinary b) fun right => ?_
  split
  · exact hlast _
  · exact hlast _
  · refine .bind (Binary64.toUnsigned32_ordinary b.re) fun amount => ?_
    split
    · exact hlast _
    · exact .error rfl

lemma onScalars_ordinary (op : BinaryOperator) (a b : Complex) : Ordinary (onScalars op a b) := by
  have harithmetic := arithmetic_ordinary op a b
  have hbitwise := bitwise_ordinary op a b
  cases op with
  | bitAnd | bitOr | shiftLeft | shiftRight => exact hbitwise.map _
  | add | sub | mul | div | mod | pow => exact harithmetic.map _
  | _ => exact .ok _

lemma compareMoments_ordinary (op : BinaryOperator) (a b : Moment) :
    Ordinary (compareMoments op a b) := by
  unfold compareMoments
  split
  all_goals first | exact .ok _ | exact .error rfl

lemma shiftDays_ordinary (m : Moment) (days : Float) : Ordinary (shiftDays m days) := by
  refine .bind (Binary64.toIntChecked_ordinary _) fun millis => ?_
  split
  · exact .ok _
  · exact .error rfl

end Operator

namespace OperatorTable

/-- What is true of all results of a family of handlers is true of those in its entries. -/
lemma forall_mem_entries {P : Except RuntimeError Value → Prop} {left right : Tag}
    {ops : List BinaryOperator} {handler : BinaryOperator → Handler}
    (h : ∀ op v v', P (handler op v v')) :
    ∀ entry ∈ entries left right ops handler, ∀ v v', P (entry.2 v v') := by
  intro entry hentry
  obtain ⟨op, -, rfl⟩ := List.mem_map.1 hentry
  exact h op

lemma vectorScalar_ordinary (op : BinaryOperator) (v v' : Value) :
    Ordinary (vectorScalar op v v') := by
  refine .bind v'.toComplex_ordinary fun w => .bind v.elements_ordinary fun zs => ?_
  exact (Avoids.mapM (fun z => Operator.arithmetic_ordinary op z w) zs).map _

lemma scalarVector_ordinary (op : BinaryOperator) (v v' : Value) :
    Ordinary (scalarVector op v v') := by
  refine .bind v.toComplex_ordinary fun z => .bind v'.elements_ordinary fun ws => ?_
  exact (Avoids.mapM (fun w => Operator.arithmetic_ordinary op z w) ws).map _

lemma elementwise_ordinary (op : BinaryOperator) (v v' : Value) :
    Ordinary (elementwise op v v') := by
  refine .bind v.elements_ordinary fun zs => .bind v'.elements_ordinary fun ws => ?_
  unfold Operator.elementwise
  split
  · exact (Avoids.mapM (fun (z, w) => Operator.arithmetic_ordinary op z w) _).map _
  · exact .error rfl

/-- The handlers of the language have no foreign errors. -/
lemma ordinary_standard {left right : Tag} {op : BinaryOperator} {handler : Handler}
    (hhandler : standard.lookup left right op = some handler) (v v' : Value) :
    Ordinary (handler v v') := by
  have hall : ∀ entry ∈ standardEntries, ∀ v v', Ordinary (entry.2 v v') := by
    simp only [standardEntries, List.flatten_cons, List.flatten_nil, List.forall_mem_append]
    exact ⟨forall_mem_entries fun op v v' => .bind v.toComplex_ordinary fun z =>
        .bind v'.toComplex_ordinary fun w => Operator.onScalars_ordinary op z w,
      forall_mem_entries vectorScalar_ordinary, forall_mem_entries scalarVector_ordinary,
      forall_mem_entries elementwise_ordinary,
      forall_mem_entries fun _ _ _ => .ok _, forall_mem_entries fun _ _ _ => .ok _,
      forall_mem_entries fun _ _ _ => .ok _, forall_mem_entries fun _ _ _ => .ok _,
      forall_mem_entries fun _ v v' => .bind v.toText_ordinary fun _ => .bind v'.toText_ordinary
        fun _ => .ok _,
      forall_mem_entries fun op v v' => .bind v.toMoment_ordinary fun m =>
        .bind v'.toMoment_ordinary fun m' =>
        Operator.compareMoments_ordinary op m m',
      forall_mem_entries fun _ v v' => .bind v.toMoment_ordinary fun m => .bind v'.toMoment_ordinary
        fun m' =>
        .bind ((Binary64.ofIntChecked_ordinary _).map _) fun _ => .ok _,
      forall_mem_entries fun _ v v' => .bind v.toMoment_ordinary fun m => .bind v'.toReal_ordinary
        fun x =>
        .bind (Operator.shiftDays_ordinary m x) fun _ => .ok _,
      forall_mem_entries fun _ v v' => .bind v.toMoment_ordinary fun m => .bind v'.toReal_ordinary
        fun x =>
        .bind (Operator.shiftDays_ordinary m _) fun _ => .ok _,
      forall_mem_entries fun _ v v' => .bind v'.toMoment_ordinary fun m =>
        .bind v.toReal_ordinary fun x =>
        .bind (Operator.shiftDays_ordinary m x) fun _ => .ok _,
      fun entry hentry => nomatch hentry⟩
  exact hall _ (Assoc.mem_of_find?_ofList hhandler) v v'

lemma sound_standard : Sound .standard :=
  fun _ _ _ _ hhandler v v' => (ordinary_standard hhandler v v').sound

end OperatorTable

end Reckoner
