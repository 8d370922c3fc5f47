import Reckoner.Proofs.Binary64.SafeIntegers

/-!
# What the conversions between doubles and integers keep

Integers and doubles are converted into each other exactly if they are the same safe integer. The
other doubles are refused, those with a fraction as fractional, whatever the range that is asked
for.
-/

namespace Reckoner.Binary64

open Float.Model (UnpackedFloat)
open Float.Model.UnpackedFloat

variable {x y : Float} {n : Int}

/-- Whether a double is this integer. -/
def IsInteger (x : Float) (n : Int) : Prop :=
  x.isFinite = true ∧ value (view x) = n

/-- Whether a double is finite and no integer. -/
def IsFractional (x : Float) : Prop :=
  x.isFinite = true ∧ ∀ n : Int, value (view x) ≠ n

lemma isInteger_iff : IsInteger x n ↔ toInt? x = some n :=
  toInt?_eq_some_iff.symm

lemma toInt?_of_isFractional (h : IsFractional x) : toInt? x = none := by
  refine Option.eq_none_iff_forall_ne_some.2 fun n hn => ?_
  exact h.2 n (isInteger_iff.2 hn).2

/-! ### Numbers with a fraction -/

/-- A double with a fraction has digits behind the point, so that fewer than 53 are before it. -/
lemma abs_value_lt_of_isFractional (h : IsFractional x) : |value (view x)| < 2 ^ 52 := by
  obtain ⟨hfinite, hfraction⟩ := h
  have hview := isView_view x
  rw [isFinite_view] at hfinite
  generalize view x = u at *
  cases hview with
  | notANumber => cases hfinite
  | infinity s => cases hfinite
  | zero s => exact absurd Int.cast_zero.symm (hfraction 0)
  | @finite s m e hm h =>
    have he : e + 1 ≤ 0 := by
      by_contra hlarge
      obtain ⟨k, rfl⟩ := Int.eq_ofNat_of_zero_le (by omega : 0 ≤ e)
      refine hfraction (s.apply m * 2 ^ k) ?_
      rw [value, zpow_natCast]
      push_cast
      rfl
    rw [value_finite, abs_apply_one_mul, abs_of_pos (by positivity)]
    have hone : (2 : ℚ) ^ (e + 1) ≤ 1 := zpow_le_one_of_nonpos₀ one_le_two he
    have hmantissa : (m : ℚ) < 2 ^ 53 := by exact_mod_cast h.mantissa_lt
    rw [zpow_add_one₀ two_ne_zero] at hone
    nlinarith [show (0 : ℚ) < 2 ^ e from zpow_pos two_pos e]

lemma toIntChecked_eq_fractional_iff : toIntChecked x = .error (.fractional x)
    ↔ IsFractional x := by
  constructor
  · intro h
    rw [toIntChecked] at h
    split at h
    case isFalse => cases h
    case isTrue hrange =>
      split at h
      · cases h
      · rename_i hnone
        refine ⟨hrange.1, fun n hn => ?_⟩
        rw [isInteger_iff.1 ⟨hrange.1, hn⟩] at hnone
        cases hnone
  · intro h
    have hsafe := toInt?_eq_some_iff.1 (toInt?_ofInt (n := maxSafe) (by decide))
    have hrange : x.abs ≤ ofInt maxSafe := by
      rw [le_iff_value ((view_abs x).symm ▸ (isFinite_abs _).trans h.1) hsafe.1, view_abs,
        value_abs,
        hsafe.2]
      exact (abs_value_lt_of_isFractional h).le.trans (by norm_num [maxSafe])
    rw [toIntChecked, if_pos ⟨h.1, hrange⟩, toInt?_of_isFractional h]

lemma toRangeChecked_eq_fractional_iff {least greatest : Int} :
    toRangeChecked least greatest x = .error (.fractional x) ↔ IsFractional x := by
  rw [← toIntChecked_eq_fractional_iff, toRangeChecked]
  cases toIntChecked x with
  | error err => exact Iff.rfl
  | ok n =>
    refine iff_of_false (fun h => ?_) (by rintro ⟨⟩)
    change ite _ _ _ = _ at h
    split_ifs at h
    cases h

lemma toUnsigned32_eq_fractional_iff :
    toUnsigned32 x = .error (.fractional x) ↔ IsFractional x := by
  have hrange : toRangeChecked 0 4294967295 x = .error (.fractional x) ↔ IsFractional x :=
    toRangeChecked_eq_fractional_iff
  rw [← hrange, toUnsigned32]
  cases toRangeChecked 0 4294967295 x with
  | error err => rw [Except.map, Except.error.injEq, Except.error.injEq]
  | ok n => exact iff_of_false (by rintro ⟨⟩) (by rintro ⟨⟩)

/-! ### Integers -/

lemma ofIntChecked_eq_ok_iff : ofIntChecked n = .ok x ↔ n.natAbs ≤ maxSafe ∧ x = ofInt n := by
  rw [ofIntChecked]
  split_ifs with hsafe
  · simp [hsafe, eq_comm]
  · exact iff_of_false (by rintro ⟨⟩) fun h => hsafe h.1

/-- Doubles that are the same integer are equal. -/
lemma beq_of_isInteger (hx : IsInteger x n) (hy : IsInteger y n) : (x == y) = true := by
  have hle : (view x).le (view y) = true := by
    rw [← le_iff_view, le_iff_value hx.1 hy.1, hx.2, hy.2]
  have hlt : ¬ (view x).lt (view y) = true := by
    rw [view_lt_iff (isView_view x) (isView_view y) hx.1 hy.1, hx.2, hy.2]
    exact lt_irrefl _
  change (view x).beq (view y) = true
  rw [UnpackedFloat.le] at hle
  rw [UnpackedFloat.lt] at hlt
  rw [beq_eq]
  generalize (view x).compare (view y) = order at *
  cases order with
  | none => cases hle
  | some order =>
    cases order with
    | lt => exact absurd rfl hlt
    | eq => rfl
    | gt => cases hle

/-- The conversions lose nothing. An integer is converted to a double exactly if it is safe, and the
double, which is that integer, is converted back to it. A double is converted to an integer exactly
if it is that integer and within the range of the conversion, the safe integers or those of 32 bits,
and what the integer is converted back to equals the double. Doubles with a fraction, and no others,
are refused as fractional. -/
theorem conversions_lossless :
    (∀ n : Int, (∃ x, ofIntChecked n = .ok x) ↔ n.natAbs ≤ 2 ^ 53 - 1)
      ∧ (∀ (n : Int) (x : Float), ofIntChecked n = .ok x → IsInteger x n ∧ toIntChecked x = .ok n)
      ∧ (∀ (x : Float) (n : Int),
        (toIntChecked x = .ok n ↔ IsInteger x n ∧ n.natAbs ≤ 2 ^ 53 - 1)
          ∧ (toIntChecked x = .ok n → ∃ y, ofIntChecked n = .ok y ∧ (y == x) = true)
          ∧ (toSigned32 x = .ok n ↔ IsInteger x n ∧ -2 ^ 31 ≤ n ∧ n < 2 ^ 31))
      ∧ (∀ (x : Float) (n : Nat), toUnsigned32 x = .ok n ↔ IsInteger x n ∧ n < 2 ^ 32)
      ∧ ∀ x : Float, (toIntChecked x = .error (.fractional x) ↔ IsFractional x)
        ∧ (toSigned32 x = .error (.fractional x) ↔ IsFractional x)
        ∧ (toUnsigned32 x = .error (.fractional x) ↔ IsFractional x) := by
  simp only [isInteger_iff]
  have hsafe : maxSafe = 2 ^ 53 - 1 := rfl
  refine ⟨fun n => ?_, fun n x h => ?_, fun x n => ⟨?_, fun h => ?_, toSigned32_eq_ok_iff⟩,
    fun x n => toUnsigned32_eq_ok_iff, fun x => ⟨toIntChecked_eq_fractional_iff,
      toRangeChecked_eq_fractional_iff, toUnsigned32_eq_fractional_iff⟩⟩
  · simp only [ofIntChecked_eq_ok_iff, exists_and_left, exists_eq, and_true, hsafe]
  · obtain ⟨hn, rfl⟩ := ofIntChecked_eq_ok_iff.1 h
    have hint : toInt? (ofInt n) = some n := toInt?_ofInt (hn.trans (by decide))
    exact ⟨hint, toIntChecked_eq_ok_iff.2 ⟨hint, hn⟩⟩
  · rw [toIntChecked_eq_ok_iff, hsafe]
  · obtain ⟨hint, hn⟩ := toIntChecked_eq_ok_iff.1 h
    refine ⟨ofInt n, ofIntChecked_eq_ok_iff.2 ⟨hn, rfl⟩, beq_of_isInteger ?_ (isInteger_iff.2 hint)⟩
    exact isInteger_iff.2 (toInt?_ofInt (hn.trans (by decide)))

/-- The greatest safe integer, and the negative zero, which comes back as the positive one. -/
theorem conversions_lossless_zero :
    let greatest := ofInt (2 ^ 53 - 1)
    ofIntChecked (2 ^ 53 - 1) = .ok greatest ∧ toIntChecked greatest = .ok (2 ^ 53 - 1)
      ∧ toIntChecked (-0) = .ok 0 ∧ ∃ y, ofIntChecked 0 = .ok y ∧ (y == -0) = true := by
  intro greatest
  obtain ⟨-, hback, hint, -⟩ := conversions_lossless
  have hgreatest : ofIntChecked (2 ^ 53 - 1) = .ok greatest :=
    ofIntChecked_eq_ok_iff.2 ⟨by decide, rfl⟩
  have hzero : toIntChecked (-0) = .ok 0 :=
    toIntChecked_eq_ok_iff.2 ⟨by decide +kernel, by decide⟩
  exact ⟨hgreatest, (hback _ _ hgreatest).2, hzero, (hint _ _).2.1 hzero⟩

/-- A fraction is refused as one, though its number is too small for an unsigned integer. -/
example : toUnsigned32 (-0.5) = .error (.fractional (-0.5)) := by
  rfl

end Reckoner.Binary64
