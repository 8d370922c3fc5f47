import Reckoner.Proofs.Binary64.Nearest

/-!
# Products out of range

A product from `2 ^ 1024` on is infinite, and one below half of the least double is a zero.
-/

namespace Reckoner.Binary64

open Float.Model (UnpackedFloat Format)
open Float.Model.UnpackedFloat

variable {x y : Float}

/-- Rounding begins with a shift to the exponent of the result. -/
lemma exists_shift (n : Nat) {k : Int} {j : Nat}
    (hj : max (n.log2 + k - 52) (-1074) = k + j) :
    ∃ em, shiftToTargetExponent Format.binary64 n k .exact = (em, k + j)
      ∧ Represents em n (2 ^ j) := by
  have hrepresents := (Represents.ofFraction n 1 Nat.one_pos).shiftRight Nat.one_pos j
  rw [Nat.div_one, Nat.mod_one, Nat.mul_one] at hrepresents
  refine ⟨_, ?_, hrepresents⟩
  unfold shiftToTargetExponent shiftToExponent
  rw [target_eq, hj]
  have hshift : (k + j - k).toNat = j := by omega
  simp only [hshift]
  rfl

/-- A mantissa grows by one at most when it is rounded. -/
lemma roundedMantissa_bounds (em : ExtendedMantissa) :
    em.mantissa ≤ em.roundedMantissa ∧ em.roundedMantissa ≤ em.mantissa + 1 := by
  obtain ⟨m, roundBit, stickyBit⟩ := em
  cases roundBit <;> cases stickyBit <;>
    simp only [ExtendedMantissa.roundedMantissa, ExtendedMantissa.accuracy,
      Accuracy.roundToNearestEven] <;> omega

lemma ofView_finite_large (s : Sign) {m : Nat} {e : Int} (hm : 0 < m) (he : 972 ≤ e) :
    ofView (.finite s m e hm) = ofView (.infinity s) := by
  have hpack : pack Format.binary64 (.finite s m e hm) = pack Format.binary64 (.infinity s) := by
    have hlarge : 2 ^ 11 ≤ (e + 1023 + 52).toNat + 1 := by omega
    exact if_pos hlarge
  refine eq_of_view_eq ?_
  change unpack Format.binary64 (pack Format.binary64 (.finite s m e hm)) = _
  rw [hpack]
  rfl

/-- A mantissa with enough digits is rounded to a normal one, and its last power of two is
reached. -/
lemma exists_round (s : Sign) {n : Nat} {k : Int} (hbits : 52 ≤ n.log2) (h : -1022 ≤ n.log2 + k) :
    ∃ m e, ∃ hm : 0 < m, roundWithAccuracy Format.binary64 s n k .exact = .finite s m e hm
      ∧ 2 ^ 52 ≤ m ∧ m < 2 ^ 53 ∧ n.log2 + k ≤ 52 + e := by
  obtain ⟨j, hj⟩ : ∃ j, n.log2 = 52 + j := ⟨n.log2 - 52, by omega⟩
  obtain ⟨em, hfirst, hem⟩ := exists_shift n (k := k) (j := j) (by omega)
  have hn : n ≠ 0 := by
    rintro rfl
    contradiction
  obtain ⟨hlow, hhigh⟩ := (Nat.log2_eq_iff hn).1 hj
  have hmantissa : 2 ^ 52 ≤ em.mantissa ∧ em.mantissa < 2 ^ 53 := by
    rw [hem.mantissa]
    constructor
    · rwa [Nat.le_div_iff_mul_le (Nat.two_pow_pos j), ← pow_add]
    · rw [Nat.div_lt_iff_lt_mul (Nat.two_pow_pos j), ← pow_add]
      exact hhigh.trans_eq (congrArg (2 ^ ·) (by omega))
  have hbounds := roundedMantissa_bounds em
  unfold roundWithAccuracy
  rw [hfirst]
  dsimp only
  obtain hlt | heq : em.roundedMantissa < 2 ^ 53 ∨ em.roundedMantissa = 2 ^ 53 := by omega
  · rw [shift_of_lt hlt (by omega)]
    have hpos : em.roundedMantissa ≠ 0 := by omega
    rw [dif_neg hpos]
    exact ⟨em.roundedMantissa, k + j, by omega, rfl, hmantissa.1.trans hbounds.1, hlt, by omega⟩
  · rw [heq, shift_overflow (by omega)]
    exact ⟨2 ^ 52, k + j + 1, Nat.two_pow_pos 52, rfl, le_rfl, by decide, by omega⟩

/-- A mantissa with enough digits and too great an exponent is rounded to infinity. -/
lemma ofView_round_large (s : Sign) {n : Nat} {k : Int} (hbits : 52 ≤ n.log2)
    (h : 1024 ≤ n.log2 + k) :
    ofView (roundWithAccuracy Format.binary64 s n k .exact) = ofView (.infinity s) := by
  obtain ⟨m, e, hm, hround, -, -, he⟩ := exists_round s hbits (k := k) (by omega)
  rw [hround]
  exact ofView_finite_large s hm (by omega)

/-- Less than half of the least double is rounded to a zero. -/
lemma round_small (s : Sign) {n : Nat} {k : Int} (hn : 0 < n)
    (h : (n * 2 ^ k : ℚ) < 2 ^ (-1075 : Int)) :
    roundWithAccuracy Format.binary64 s n k .exact = .zero s := by
  have hlog : n.log2 + k < -1075 := by
    refine (zpow_lt_zpow_iff_right₀ one_lt_two).1 (lt_of_le_of_lt ?_ h)
    rw [← two_pow_mul_zpow]
    gcongr
    exact_mod_cast Nat.log2_self_le hn.ne'
  obtain ⟨j, hj⟩ : ∃ j : Nat, k + j = -1075 := ⟨(-1075 - k).toNat, by omega⟩
  have hhalf : n < 2 ^ j := by
    have hpower : (2 : ℚ) ^ (-1075 : Int) = 2 ^ j * 2 ^ k := by
      rw [two_pow_mul_zpow]
      congr 1
      omega
    rw [hpower] at h
    exact_mod_cast lt_of_mul_lt_mul_right h (zpow_pos two_pos k).le
  obtain ⟨em, hfirst, hem⟩ := exists_shift n (k := k) (j := j + 1) (by omega)
  have hrounded : em.roundedMantissa = 0 := by
    refine hem.roundedMantissa (Nat.two_pow_pos _) ?_ ?_ (.inl rfl) <;> rw [pow_succ] <;> omega
  unfold roundWithAccuracy
  rw [hfirst]
  dsimp only
  rw [hrounded, shift_of_lt (by decide) (by omega)]
  rfl

/-! ### Products and quotients -/

/-- A product of doubles other than zeros is rounded from their exact product. -/
lemma exists_product (hne : value (view x) * value (view y) ≠ 0) :
    ∃ (s : Sign) (n : Nat) (k : Int), 0 < n ∧ (52 ≤ n.log2 ∨ k ≤ -1074)
      ∧ |value (view x) * value (view y)| = n * 2 ^ k
      ∧ x * y = ofView (roundWithAccuracy Format.binary64 s n k .exact) := by
  obtain ⟨s, n, f, hn, hu, hdouble⟩ := exists_view_of_value_ne_zero (left_ne_zero_of_mul hne)
  obtain ⟨t, l, k, hl, hv, hdouble'⟩ := exists_view_of_value_ne_zero (right_ne_zero_of_mul hne)
  refine ⟨s * t, n * l, f + k, Nat.mul_pos hn hl, hdouble.mul_bits hn hl hdouble', ?_, ?_⟩
  · rw [hu, hv, value_finite, value_finite, abs_mul, abs_apply_one_mul, abs_apply_one_mul,
      ← abs_mul,
      abs_of_pos (by positivity), zpow_add₀ two_ne_zero]
    push_cast
    ring
  · rw [view_mul, hu, hv]
    rfl

/-- A product that is too great is infinite. -/
lemma mul_of_large (h : 2 ^ (1024 : Int) ≤ |value (view x) * value (view y)|) :
    ∃ s, view (x * y) = .infinity s := by
  obtain ⟨s, n, k, hn, hbits, hvalue, hmul⟩ :=
    exists_product (abs_pos.1 ((zpow_pos two_pos 1024).trans_le h))
  have hlarge : (1024 : Int) < (n.log2 + 1 : Nat) + k := by
    refine (zpow_lt_zpow_iff_right₀ one_lt_two).1 (h.trans_lt ?_)
    rw [hvalue, ← two_pow_mul_zpow]
    refine mul_lt_mul_of_pos_right ?_ (zpow_pos two_pos k)
    exact_mod_cast Nat.lt_log2_self
  rw [hmul, ofView_round_large s (by omega) (by omega)]
  exact ⟨s, view_ofView_of_isView (.infinity s)⟩

/-- A product that is too small is a zero. -/
lemma mul_of_small (hne : value (view x) * value (view y) ≠ 0)
    (h : |value (view x) * value (view y)| < 2 ^ (-1075 : Int)) : ∃ s, view (x * y) = .zero s := by
  obtain ⟨s, n, k, hn, -, hvalue, hmul⟩ := exists_product hne
  rw [hmul, round_small s hn (hvalue.symm.trans_lt h)]
  exact ⟨s, view_ofView_of_isView (.zero s)⟩

/-- Finite numbers are divided by infinity to zeros. -/
lemma div_infinity {s : Sign} (hx : x.isFinite = true) (hy : view y = .infinity s) :
    (x / y == 0) = true := by
  rw [isFinite_view] at hx
  rw [beq_zero, view_div, hy]
  cases hu : view x with
  | zero t => exact congrArg isZero (view_ofView_of_isView (.zero (t / s)))
  | finite t m e hm => exact congrArg isZero (view_ofView_of_isView (.zero (t / s)))
  | _ => rw [hu] at hx; cases hx

end Reckoner.Binary64
