import Reckoner.Proofs.Complex.Elementary
import Reckoner.Proofs.Operator.Ordinary
import Reckoner.Proofs.Program.Meaning
import Reckoner.Proofs.Value.Reading

/-!
# Operators on values that are alike

Operators take values that are alike to results that agree, unless they are powers. A power may tell
the signs of zeros apart if it is made of a logarithm and its base is on the branch cut.
-/

namespace Reckoner

open Value (Agree)

namespace Operator

variable {z z' w w' : Complex}

/-- Whether a power looks at no sign of a zero, if its base is `z` or the same number `z'`. It does
not if it is a product or the reciprocal of one, nor if the exponent is real and the base is
positive or is no other one. Otherwise it is made of a logarithm, and the base has to be off the
branch cut. -/
def IsSteadyPower (z z' w : Complex) : Prop :=
  w.isReal = true ∧ (∃ n, Binary64.toInt? w.re = some n ∧ n.natAbs ≤ maxIntegralExponent)
    ∨ w.isReal = true ∧ (z = z' ∨ z.isReal = true ∧ 0 < z.re)
    ∨ Binary64.SpecialValues ∧ (z = z' ∨ z.IsOffCut)

/-- The real power of a base that is positive or a zero. -/
lemma realPower_agree {x : Float} (hz : z.same z' = true) (hreal : z.isReal = true)
    (hdivides : z.isZero = true → ¬ x < 0) (hx : (x == 0) = false)
    (h : z = z' ∨ 0 < z.re ∨ Binary64.SpecialValues) :
    Binary64.same (z.re.pow x) (z'.re.pow x) = true := by
  have hre := (Complex.same_iff.1 hz).1
  rcases Binary64.eq_or_beq_zero hre with heq | ⟨hzero, -⟩
  · rw [heq]
    exact Binary64.same_refl _
  · rcases h with rfl | hpos | hvalues
    · exact Binary64.same_refl _
    · rw [Binary64.beq_zero_of_pos hpos] at hzero
      cases hzero
    · refine hvalues.same_pow_zero hre hzero (hdivides ?_) hx
      rw [Complex.isZero, hzero, Bool.true_and]
      exact hreal

lemma power_agree (hz : z.same z' = true) (hw : w.same w' = true)
    (hdivides : z.isZero = true → ¬ w.re < 0) (h : IsSteadyPower z z' w) :
    (power z w).same (power z' w') = true := by
  have hre := (Complex.same_iff.1 hw).1
  have hsides : (z'.isReal && w.isReal && decide (z'.re ≥ 0))
      = (z.isReal && w.isReal && decide (z.re ≥ 0)) := by
    rw [Complex.isReal_eq_of_same hz, decide_eq_decide.2
      (Binary64.le_congr (Binary64.same_refl 0) (Complex.same_iff.1 hz).1)]
  simp only [power, ← Complex.isReal_eq_of_same hw, ← Binary64.toInt?_eq hre, hsides]
  generalize hfilter : Option.filter _ (if w.isReal = true then _ else _) = exponent
  cases exponent with
  | some n => exact Complex.same_powInt hz n
  | none =>
    -- A real exponent is no zero here, since that is an integer, so that it is the same double in
    -- both.
    have hexponent (hreal : w.isReal = true) : (w.re == 0) = false := by
      refine Bool.eq_false_iff.2 fun hzero => ?_
      rw [if_pos hreal, Binary64.toInt?_of_beq_zero hzero] at hfilter
      cases hfilter
    have hequal (hreal : w.isReal = true) : w.re = w'.re :=
      Binary64.eq_of_same hre (hexponent hreal)
    have hlarge : ¬ (w.isReal = true
        ∧ ∃ n, Binary64.toInt? w.re = some n ∧ n.natAbs ≤ maxIntegralExponent) := by
      rintro ⟨hreal, n, hn, hsmall⟩
      rw [if_pos hreal, hn, Option.filter_some, if_pos (by simpa using hsmall)] at hfilter
      cases hfilter
    have h := h.resolve_left hlarge
    dsimp only
    split
    · rename_i hreals
      simp only [Bool.and_eq_true, decide_eq_true_eq] at hreals
      obtain ⟨⟨hbase, hreal⟩, hnonneg⟩ := hreals
      rw [← hequal hreal]
      refine Complex.same_iff.2 ⟨realPower_agree hz hbase hdivides (hexponent hreal) ?_,
        Binary64.same_refl 0⟩
      rcases h with ⟨-, hsame | ⟨-, hpos⟩⟩ | ⟨hvalues, -⟩
      · exact .inl hsame
      · exact .inr (.inl hpos)
      · exact .inr (.inr hvalues)
    · rename_i hreals
      rcases h with ⟨hreal, rfl | ⟨hbase, hpos⟩⟩ | ⟨hvalues, hcut⟩
      · rw [Complex.pow, Complex.pow, ← Complex.isReal_eq_of_same hw, if_pos hreal, if_pos hreal,
          hequal hreal]
        exact Complex.same_refl _
      · exact absurd (by simp [hbase, hreal, Binary64.nonneg_of_pos hpos]) hreals
      · exact Complex.same_pow hvalues hz hw hequal hcut

lemma arithmetic_agree {op : BinaryOperator} (hz : z.same z' = true) (hw : w.same w' = true)
    (hpow : op = .pow → IsSteadyPower z z' w) :
    Option.Rel (fun z w => z.same w = true) (arithmetic op z w).toOption
      (arithmetic op z' w').toOption := by
  cases op with
  | add => exact .some (Complex.same_add hz hw)
  | sub => exact .some (Complex.same_sub hz hw)
  | mul => exact .some (Complex.same_mul hz hw)
  | div =>
    simp only [arithmetic, ← Complex.isZero_eq_of_same hw]
    split
    · exact .none
    · rename_i hzero
      exact .some (Complex.same_div hz hw (Complex.re_eq_of_isReal hw (by simpa using hzero)))
  | mod =>
    simp only [arithmetic, ← Complex.isReal_eq_of_same hz, ← Complex.isReal_eq_of_same hw,
      ← Binary64.isZero_eq_of_same (Complex.same_iff.1 hw).1]
    split
    · exact .none
    · split
      · exact .none
      · exact .some (Complex.same_iff.2 ⟨Binary64.same_remainder (Complex.same_iff.1 hz).1
          (Complex.same_iff.1 hw).1, Binary64.same_refl 0⟩)
  | pow =>
    simp only [arithmetic, ← Complex.isZero_eq_of_same hz,
      ← Binary64.lt_congr (Complex.same_iff.1 hw).1 (Binary64.same_refl 0)]
    split
    · exact .none
    · rename_i hdivides
      refine .some (power_agree hz hw (fun hzero hneg => hdivides ?_) (hpow rfl))
      rw [hzero, Bool.true_and]
      exact decide_eq_true hneg
  | _ => exact .none

lemma integer_eq (hz : z.same z' = true) : (integer z).toOption = (integer z').toOption := by
  simp only [integer, ← Complex.isReal_eq_of_same hz]
  split
  · exact Binary64.toIntChecked_eq (Complex.same_iff.1 hz).1
  · exact Eq.refl none

lemma bitwise_eq (op : BinaryOperator) (hz : z.same z' = true) (hw : w.same w' = true) :
    (bitwise op z w).toOption = (bitwise op z' w').toOption := by
  simp only [bitwise, Except.toOption_bind, integer_eq hz, integer_eq hw]
  refine Option.bind_congr fun left _ => Option.bind_congr fun right _ => ?_
  cases op with
  | bitAnd => rfl
  | bitOr => rfl
  | _ =>
    simp only [Except.toOption_bind, Binary64.toUnsigned32_eq (Complex.same_iff.1 hw).1]
    refine Option.bind_congr fun amount _ => ?_
    cases shift? _ left amount with
    | some n => rfl
    | none => exact Eq.refl none

/-- The operators on two numbers look at no sign of a zero. -/
lemma onScalars_agree {op : BinaryOperator} (hz : z.same z' = true) (hw : w.same w' = true)
    (hpow : op = .pow → IsSteadyPower z z' w) :
    Agree (onScalars op z w).toOption (onScalars op z' w').toOption := by
  have hre := (Complex.same_iff.1 hz).1
  have hre' := (Complex.same_iff.1 hw).1
  have harithmetic : Agree ((arithmetic op z w).map Value.scalar).toOption
      ((arithmetic op z' w').map Value.scalar).toOption := by
    rw [Except.toOption_map, Except.toOption_map]
    exact (arithmetic_agree hz hw hpow).map fun _ _ h => .scalar h
  have hbitwise : Agree ((bitwise op z w).map Value.scalar).toOption
      ((bitwise op z' w').map Value.scalar).toOption := by
    rw [Except.toOption_map, Except.toOption_map, bitwise_eq op hz hw]
    exact .refl _
  cases op with
  | equal => exact .of_eq (by simp only [onScalars, Complex.same_congr hz hw])
  | notEqual => exact .of_eq (by simp only [onScalars, Complex.same_congr hz hw])
  | less => exact .of_eq (by simp only [onScalars, Binary64.lt_congr hre hre'])
  | greater => exact .of_eq (by simp only [onScalars, gt_iff_lt, Binary64.lt_congr hre' hre])
  | lessEqual => exact .of_eq (by simp only [onScalars, Binary64.le_congr hre hre'])
  | greaterEqual => exact .of_eq (by simp only [onScalars, ge_iff_le, Binary64.le_congr hre' hre])
  | and =>
    exact .of_eq (by
      simp only [onScalars, Complex.isZero_eq_of_same hz, Complex.isZero_eq_of_same hw])
  | or =>
    exact .of_eq (by
      simp only [onScalars, Complex.isZero_eq_of_same hz, Complex.isZero_eq_of_same hw])
  | add => exact harithmetic
  | sub => exact harithmetic
  | mul => exact harithmetic
  | div => exact harithmetic
  | mod => exact harithmetic
  | pow => exact harithmetic
  | _ => exact hbitwise

/-! ### Operators on vectors -/

variable {zs zs' ws ws' : List Complex}

lemma map_ofElements_agree {r r' : Except RuntimeError (List Complex)}
    (h : Option.Rel (List.Forall₂ fun z w => z.same w = true) r.toOption r'.toOption) :
    Agree (r.map Value.ofElements).toOption (r'.map Value.ofElements).toOption := by
  rw [Except.toOption_map, Except.toOption_map]
  exact h.map fun _ _ h => .ofElements h

/-- The pairs of elements that an operator combines. A number is paired with each element of a
vector. -/
def pairs : List Complex → List Complex → List (Complex × Complex)
  | [z], ws => ws.map fun w => (z, w)
  | zs, [w] => zs.map fun z => (z, w)
  | zs, ws => zs.zip ws

lemma pairs_singleton (zs : List Complex) (w : Complex) :
    pairs zs [w] = zs.map fun z => (z, w) := by
  match zs with
  | [] => rfl
  | [z] => rfl
  | z :: z' :: zs => rfl

lemma pairs_of_length_eq (h : zs.length = ws.length) : pairs zs ws = zs.zip ws := by
  match zs, ws with
  | [], [] => rfl
  | [z], [w] => rfl
  | z :: z' :: zs, w :: w' :: ws => rfl

/-- Whether each power of an element of the first by one of the second is steady, where the elements
of other vectors, which are the same, may stand for them. -/
def AreSteadyPowers (zs ws zs' ws' : List Complex) : Prop :=
  List.Forall₂ (fun p p' => IsSteadyPower p.1 p'.1 p.2) (pairs zs ws) (pairs zs' ws')

/-- Steps on related elements of which more is known if a condition holds. -/
lemma forall₂_and_imp {α β : Type} {p : Prop} {r s : α → β → Prop} {as : List α} {bs : List β}
    (h : List.Forall₂ r as bs) (hs : p → List.Forall₂ s as bs) :
    List.Forall₂ (fun a b => r a b ∧ (p → s a b)) as bs := by
  induction h with
  | nil => exact .nil
  | cons hab _ ih =>
    exact .cons ⟨hab, fun hp => (List.forall₂_cons.1 (hs hp)).1⟩
      (ih fun hp => (List.forall₂_cons.1 (hs hp)).2)

lemma vectorScalar_agree {op : BinaryOperator}
    (hzs : List.Forall₂ (fun z z' => z.same z' = true) zs zs') (hw : w.same w' = true)
    (hpow : op = .pow → AreSteadyPowers zs [w] zs' [w']) :
    Agree (vectorScalar op zs w).toOption (vectorScalar op zs' w').toOption := by
  simp only [AreSteadyPowers, pairs_singleton, List.forall₂_map_left_iff,
    List.forall₂_map_right_iff] at hpow
  refine map_ofElements_agree (Except.mapM_rel (forall₂_and_imp hzs hpow) fun z z' hz => ?_)
  exact arithmetic_agree hz.1 hw hz.2

lemma scalarVector_agree {op : BinaryOperator} (hz : z.same z' = true)
    (hws : List.Forall₂ (fun w w' => w.same w' = true) ws ws')
    (hpow : op = .pow → AreSteadyPowers [z] ws [z'] ws') :
    Agree (scalarVector op z ws).toOption (scalarVector op z' ws').toOption := by
  simp only [AreSteadyPowers, pairs, List.forall₂_map_left_iff, List.forall₂_map_right_iff] at hpow
  refine map_ofElements_agree (Except.mapM_rel (forall₂_and_imp hws hpow) fun w w' hw => ?_)
  exact arithmetic_agree hz hw.1 hw.2

lemma forall₂_zip {α β γ δ : Type} {r : α → β → Prop} {s : γ → δ → Prop} {as : List α}
    {bs : List β} {cs : List γ} {ds : List δ} (h : List.Forall₂ r as bs)
    (h' : List.Forall₂ s cs ds) :
    List.Forall₂ (fun p q => r p.1 q.1 ∧ s p.2 q.2) (as.zip cs) (bs.zip ds) := by
  induction h generalizing cs ds with
  | nil => exact .nil
  | cons hab _ ih =>
    cases h' with
    | nil => exact .nil
    | cons hcd h' => exact .cons ⟨hab, hcd⟩ (ih h')

lemma elementwise_agree {op : BinaryOperator}
    (hzs : List.Forall₂ (fun z z' => z.same z' = true) zs zs')
    (hws : List.Forall₂ (fun w w' => w.same w' = true) ws ws')
    (hpow : op = .pow → AreSteadyPowers zs ws zs' ws') :
    Agree (elementwise op zs ws).toOption (elementwise op zs' ws').toOption := by
  simp only [elementwise, ← hzs.length_eq, ← hws.length_eq]
  split
  · rename_i hlength
    have hlength' : zs'.length = ws'.length := by rw [← hzs.length_eq, hlength, hws.length_eq]
    simp only [AreSteadyPowers, pairs_of_length_eq hlength, pairs_of_length_eq hlength'] at hpow
    refine map_ofElements_agree (Except.mapM_rel (forall₂_and_imp (forall₂_zip hzs hws) hpow) ?_)
    exact fun p q h => arithmetic_agree h.1.1 h.1.2 h.2
  · exact .none

/-! ### Operators on dates -/

lemma shiftDays_eq (m : Moment) {x y : Float} (h : Binary64.same x y = true) :
    (shiftDays m x).toOption = (shiftDays m y).toOption := by
  have hround : Binary64.same (Binary64.round (x * dayLength)) (Binary64.round (y * dayLength))
      = true :=
    Binary64.same_integral _ (Binary64.same_mul h (Binary64.same_refl dayLength))
  simp only [shiftDays, Except.toOption_bind, Binary64.toIntChecked_eq hround]
  refine Option.bind_congr fun millis _ => ?_
  cases m.shift? millis with
  | some shifted => rfl
  | none => exact Eq.refl none

end Operator

/-! ### The operator table -/

namespace BinaryOperator

/-- Whether an operator on two values looks at no sign of a zero, if values that are alike may stand
for them: if it is a power then those of their elements are steady. -/
def IsSteadyAt (op : BinaryOperator) (v w v' w' : Value) : Prop :=
  op = .pow → ∀ zs ws zs' ws', v.elements = .ok zs → w.elements = .ok ws → v'.elements = .ok zs' →
    w'.elements = .ok ws' → Operator.AreSteadyPowers zs ws zs' ws'

end BinaryOperator

namespace OperatorTable

variable {v v' w w' : Value}

lemma tag_widened_eq (h : v.Alike v') : v.widened.tag = v'.widened.tag := by
  cases Value.alike_iff_matches.1 h with
  | vector hv hw h => rw [hv, hw]; rfl
  | _ => rfl

/-- Each handler of the language takes widened values that are alike to results that agree, unless
it is for a power that is not steady. -/
lemma agree_of_mem_standardEntries :
    ∀ entry ∈ standardEntries, ∀ {v v' w w' : Value}, v.Alike v' → w.Alike w' →
      entry.1.2.2.IsSteadyAt v w v' w' →
      Agree (entry.2 v.widened w.widened).toOption (entry.2 v'.widened w'.widened).toOption := by
  simp only [standardEntries, List.flatten_cons, List.flatten_nil, List.forall_mem_append, entries,
    List.forall_mem_map]
  refine ⟨fun op _ v v' w w' hv hw hsteady => ?_, fun op _ v v' w w' hv hw hsteady => ?_,
    fun op _ v v' w w' hv hw hsteady => ?_, fun op _ v v' w w' hv hw hsteady => ?_,
    fun op _ v v' w w' hv hw _ => ?_, fun op _ v v' w w' hv hw _ => ?_,
    fun op _ v v' w w' hv hw _ => ?_, fun op _ v v' w w' hv hw _ => ?_,
    fun op _ v v' w w' hv hw _ => ?_, fun op _ v v' w w' hv hw _ => ?_,
    fun op _ v v' w w' hv hw _ => ?_, fun op _ v v' w w' hv hw _ => ?_,
    fun op _ v v' w w' hv hw _ => ?_, fun op _ v v' w w' hv hw _ => ?_, List.forall_mem_nil _⟩
  · simp only [onScalars, Except.toOption_bind]
    refine (Value.toComplex_agree hv.widened).bind fun a a' ha ha' hsame =>
      (Value.toComplex_agree hw.widened).bind fun b b' hb hb' hsame' => ?_
    refine Operator.onScalars_agree hsame hsame' fun hop => ?_
    exact (List.forall₂_cons.1 (hsteady hop [a] [b] [a'] [b'] (Value.elements_of_widened_toComplex
      ha)
      (Value.elements_of_widened_toComplex hb) (Value.elements_of_widened_toComplex ha')
      (Value.elements_of_widened_toComplex hb'))).1
  · simp only [vectorScalar, Except.toOption_bind]
    refine (Value.toComplex_agree hw.widened).bind fun b b' hb hb' hsame' =>
      (Value.elements_agree hv.widened).bind fun zs zs' hzs hzs' hsame => ?_
    refine Operator.vectorScalar_agree hsame hsame' fun hop => ?_
    exact hsteady hop zs [b] zs' [b'] (Value.elements_of_toOption hzs)
      (Value.elements_of_widened_toComplex hb) (Value.elements_of_toOption hzs')
      (Value.elements_of_widened_toComplex hb')
  · simp only [scalarVector, Except.toOption_bind]
    refine (Value.toComplex_agree hv.widened).bind fun a a' ha ha' hsame =>
      (Value.elements_agree hw.widened).bind fun ws ws' hws hws' hsame' => ?_
    refine Operator.scalarVector_agree hsame hsame' fun hop => ?_
    exact hsteady hop [a] ws [a'] ws' (Value.elements_of_widened_toComplex ha)
      (Value.elements_of_toOption hws) (Value.elements_of_widened_toComplex ha')
      (Value.elements_of_toOption hws')
  · simp only [elementwise, Except.toOption_bind]
    refine (Value.elements_agree hv.widened).bind fun zs zs' hzs hzs' hsame =>
      (Value.elements_agree hw.widened).bind fun ws ws' hws hws' hsame' => ?_
    refine Operator.elementwise_agree hsame hsame' fun hop => ?_
    exact hsteady hop zs ws zs' ws' (Value.elements_of_toOption hzs)
      (Value.elements_of_toOption hws) (Value.elements_of_toOption hzs')
      (Value.elements_of_toOption hws')
  · exact .of_eq (by simp only [equal, Value.same_widened_congr hv hw])
  · exact .of_eq (by simp only [notEqual, Value.same_widened_congr hv hw])
  · exact .of_eq (by simp only [equal, Value.same_widened_congr hv hw])
  · exact .of_eq (by simp only [notEqual, Value.same_widened_congr hv hw])
  · refine .of_eq ?_
    simp only [joinTexts, Except.toOption_bind, Value.toText_eq hv.widened,
      Value.toText_eq hw.widened]
  · refine .of_eq ?_
    simp only [compareMoments, Except.toOption_bind, Value.toMoment_eq hv.widened,
      Value.toMoment_eq hw.widened]
  · refine .of_eq ?_
    simp only [daysBetween, Except.toOption_bind, Value.toMoment_eq hv.widened,
      Value.toMoment_eq hw.widened]
  · simp only [addDays, Except.toOption_bind, Value.toMoment_eq hv.widened]
    refine .bind_self _ fun m => (Value.toReal_agree hw.widened).bind fun x x' _ _ hx => ?_
    rw [Operator.shiftDays_eq m hx]
    exact Agree.refl _
  · simp only [subtractDays, Except.toOption_bind, Value.toMoment_eq hv.widened]
    refine .bind_self _ fun m => (Value.toReal_agree hw.widened).bind fun x x' _ _ hx => ?_
    rw [Operator.shiftDays_eq m (Binary64.same_neg hx)]
    exact Agree.refl _
  · simp only [daysAfter, Except.toOption_bind, Value.toMoment_eq hw.widened]
    refine .bind_self _ fun m => (Value.toReal_agree hv.widened).bind fun x x' _ _ hx => ?_
    rw [Operator.shiftDays_eq m hx]
    exact Agree.refl _

end OperatorTable

/-- An operator that is steady takes values that are alike to results that agree. -/
lemma BinaryOperator.result?_agree {op : BinaryOperator} {v v' w w' : Value} (hv : v.Alike v')
    (hw : w.Alike w') (hsteady : op.IsSteadyAt v w v' w') :
    Agree (op.result? v w) (op.result? v' w') := by
  simp only [result?, OperatorTable.apply, ← OperatorTable.tag_widened_eq hv,
    ← OperatorTable.tag_widened_eq hw]
  cases hhandler : OperatorTable.standard.lookup v.widened.tag w.widened.tag op with
  | none => exact .none
  | some handler =>
    exact OperatorTable.agree_of_mem_standardEntries _ (Assoc.mem_of_find?_ofList hhandler) hv hw
      hsteady

end Reckoner
