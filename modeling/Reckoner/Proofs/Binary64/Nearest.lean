import Reckoner.Proofs.Binary64.Integers

/-!
# Rounding errors

Every rational in the range of the doubles lies in the interval of one, so that the results of the
operations are near the exact ones. `Within t x q` says that the ratio of the two is between `1 / t`
and `t`, which also says that they have the same sign.
-/

namespace Reckoner.Binary64

open Float.Model (UnpackedFloat Format)
open Float.Model.UnpackedFloat

/-! ### Ratios -/

/-- Whether the ratio of two rationals is between `1 / t` and `t`. -/
def Within (t x q : ℚ) : Prop :=
  ∃ r, 0 < r ∧ x = q * r ∧ r ≤ t ∧ r⁻¹ ≤ t

namespace Within

variable {t u x y p q : ℚ}

lemma refl (ht : 1 ≤ t) (q : ℚ) : Within t q q :=
  ⟨1, one_pos, (mul_one q).symm, ht, inv_one.trans_le ht⟩

lemma mono (h : Within t x q) (hu : t ≤ u) : Within u x q := by
  obtain ⟨r, hr, hx, hhigh, hlow⟩ := h
  exact ⟨r, hr, hx, hhigh.trans hu, hlow.trans hu⟩

lemma mul (h : Within t x q) (h' : Within u y p) : Within (t * u) (x * y) (q * p) := by
  obtain ⟨r, hr, rfl, hhigh, hlow⟩ := h
  obtain ⟨s, hs, rfl, hhigh', hlow'⟩ := h'
  have ht : 0 < t := hr.trans_le hhigh
  refine ⟨r * s, mul_pos hr hs, by ring, by gcongr, ?_⟩
  rw [mul_inv]
  gcongr

lemma trans (h : Within t x q) (h' : Within u q p) : Within (t * u) x p := by
  obtain ⟨r, hr, rfl, hhigh, hlow⟩ := h
  obtain ⟨s, hs, rfl, hhigh', hlow'⟩ := h'
  have ht : 0 < t := hr.trans_le hhigh
  refine ⟨r * s, mul_pos hr hs, by ring, by gcongr, ?_⟩
  rw [mul_inv]
  gcongr

lemma const_mul (h : Within t x q) (c : ℚ) : Within t (c * x) (c * q) := by
  obtain ⟨r, hr, rfl, h⟩ := h
  exact ⟨r, hr, by ring, h⟩

lemma inv (h : Within t x q) : Within t x⁻¹ q⁻¹ := by
  obtain ⟨r, hr, rfl, hhigh, hlow⟩ := h
  exact ⟨r⁻¹, inv_pos.2 hr, mul_inv q r, hlow, (inv_inv r).trans_le hhigh⟩

/-- Numbers with a positive ratio have one sign. -/
lemma mul_pos_of_ne_zero (h : Within t x q) (hq : q ≠ 0) : 0 < x * q := by
  obtain ⟨r, hr, rfl, -⟩ := h
  rw [mul_right_comm]
  exact mul_pos (mul_self_pos.2 hq) hr

lemma abs_le_mul (h : Within t x q) : |x| ≤ |q| * t := by
  obtain ⟨r, hr, rfl, hhigh, -⟩ := h
  rw [abs_mul, abs_of_pos hr]
  gcongr

lemma abs_le_mul' (h : Within t x q) : |q| ≤ |x| * t := by
  obtain ⟨r, hr, rfl, -, hlow⟩ := h
  rw [abs_mul, abs_of_pos hr, mul_assoc]
  exact le_mul_of_one_le_right (abs_nonneg q) ((inv_le_iff_one_le_mul₀' hr).1 hlow)

/-- A small difference is a ratio near one. -/
lemma of_abs_sub_le {d : ℚ} (hx : 0 < x) (h : |x - q| ≤ d * x) (hd : 1 ≤ t * (1 - d))
    (hd' : 1 + d ≤ t) (hlt : d < 1) : Within t x q := by
  obtain ⟨hlow, hhigh⟩ := abs_le.1 h
  have hq : (1 - d) * x ≤ q := by linarith
  have hpos : 0 < q := (mul_pos (by linarith) hx).trans_le hq
  have ht : 0 < t := by nlinarith
  refine ⟨x / q, div_pos hx hpos, by field_simp, ?_, ?_⟩
  · rw [div_le_iff₀ hpos]
    calc x ≤ t * (1 - d) * x := le_mul_of_one_le_left hx.le hd
      _ = t * ((1 - d) * x) := mul_assoc _ _ _
      _ ≤ t * q := by gcongr
  · rw [inv_div, div_le_iff₀ hx]
    calc q ≤ (1 + d) * x := by linarith
      _ ≤ t * x := by gcongr

end Within

/-! ### Reciprocals of powers of two -/

lemma two_zpow_le_abs_inv {q : ℚ} {e f : Int} (hef : e + f = 0) (hq : q ≠ 0) (h : |q| ≤ 2 ^ e) :
    2 ^ f ≤ |q⁻¹| := by
  rw [abs_inv, ← neg_eq_of_add_eq_zero_right hef, zpow_neg]
  exact inv_anti₀ (abs_pos.2 hq) h

lemma abs_inv_le_two_zpow {q : ℚ} {e f : Int} (hef : e + f = 0) (h : 2 ^ e ≤ |q|) :
    |q⁻¹| ≤ 2 ^ f := by
  rw [abs_inv, ← neg_eq_of_add_eq_zero_right hef, zpow_neg]
  exact inv_anti₀ (zpow_pos two_pos e) h

/-! ### The nearest double -/

/-- A rational that is not negative has a nearest natural number, the even one of two. -/
lemma exists_nearest {t : ℚ} (ht : 0 ≤ t) :
    ∃ m : Nat, (m - 1 / 2 ≤ t ∧ t ≤ m + 1 / 2)
      ∧ (m % 2 = 0 ∨ (m - 1 / 2 < t ∧ t < m + 1 / 2)) := by
  have hfloor := Nat.floor_le ht
  have hceil := Nat.lt_floor_add_one t
  generalize ⌊t⌋₊ = f at *
  rcases lt_trichotomy t (f + 1 / 2) with hlt | heq | hgt
  · exact ⟨f, ⟨by linarith, hlt.le⟩, .inr ⟨by linarith, hlt⟩⟩
  · rcases Nat.mod_two_eq_zero_or_one f with heven | hodd
    · exact ⟨f, ⟨by linarith, heq.le⟩, .inl heven⟩
    · exact ⟨f + 1, by push_cast; constructor <;> linarith, .inl (by omega)⟩
  · refine ⟨f + 1, ?_, .inr ?_⟩ <;> push_cast <;> constructor <;> linarith

/-- The interval of a double in units of its last digit. -/
lemma Rounds.of_scaled {t : ℚ} {m : Nat} {e : Int} (hlower : 4 * m - reach m e ≤ 4 * t)
    (hupper : 4 * t ≤ 4 * m + 2)
    (htie : m % 2 = 0 ∨ (4 * m - reach m e < 4 * t ∧ 4 * t < 4 * m + 2)) :
      Rounds (t * 2 ^ e) m e := by
  have hunit : t * 2 ^ e = 4 * t * 2 ^ (e - 2) := by
    rw [zpow_sub₀ two_ne_zero]
    ring
  have hpos : (0 : ℚ) < 2 ^ (e - 2) := zpow_pos two_pos _
  rw [hunit]
  refine ⟨?_, ?_, htie.imp id fun ⟨hlow, hhigh⟩ => ⟨?_, ?_⟩⟩ <;> gcongr

/-- Whether a magnitude is in the range of the doubles, far from where it ends. -/
structure InRange (v : ℚ) : Prop where
  ge : 2 ^ (-1074 : Int) ≤ v
  le : v ≤ 3 * 2 ^ (1022 : Int)

lemma InRange.pos {v : ℚ} (h : InRange v) : 0 < v :=
  (zpow_pos two_pos _).trans_le h.ge

/-- A rational lies in the interval of a double if in some unit it has the size of a mantissa. -/
lemma exists_rounds_scaled {t : ℚ} {e : Int} (hleast : -1074 ≤ e) (hmost : e ≤ 971)
    (hone : 1 ≤ t) (ht : t < 2 ^ 53) (hnormal : e ≠ -1074 → 2 ^ 52 ≤ t)
    (htop : e = 971 → t ≤ 3 * 2 ^ 51) :
    ∃ m e', 0 < m ∧ IsDouble m e' ∧ Rounds (t * 2 ^ e) m e' := by
  obtain ⟨m, ⟨hlower, hupper⟩, htie⟩ := exists_nearest (by linarith : 0 ≤ t)
  have hle : m ≤ 2 ^ 53 := by
    have : (m : ℚ) < 2 ^ 53 + 1 := by linarith
    exact_mod_cast Nat.lt_succ_iff.1 (by exact_mod_cast this)
  have hm : 0 < m := by
    have : (0 : ℚ) < m := by linarith
    exact_mod_cast this
  rcases hle.lt_or_eq with hlt | rfl
  · have hbig : 2 ^ 52 ≤ m ∨ e = -1074 := by
      refine or_iff_not_imp_right.2 fun h => ?_
      have : (2 ^ 52 : ℚ) < m + 1 := by linarith [hnormal h]
      exact Nat.lt_succ_iff.1 (by exact_mod_cast this)
    refine ⟨m, e, hm, ⟨hlt, by omega, by omega, hbig⟩, ?_⟩
    -- below a power of two the interval is shorter, but there is nothing below it
    by_cases hedge : m = 2 ^ 52 ∧ e ≠ -1074
    · have hreach : reach m e = 1 := if_pos hedge
      have hge := hnormal hedge.2
      rw [hedge.1] at hreach hupper ⊢
      refine .of_scaled ?_ (by push_cast at hupper ⊢; linarith) (.inl (by decide))
      rw [hreach]
      push_cast
      linarith
    · have hreach : reach m e = 2 := if_neg hedge
      refine .of_scaled ?_ (by linarith) (htie.imp id fun ⟨hlow, hhigh⟩ => ⟨?_, by linarith⟩)
      all_goals
        rw [hreach]
        push_cast
        linarith
  · -- the mantissa has one bit too many
    have hdouble : t * 2 ^ e = t / 2 * 2 ^ (e + 1) := by
      rw [zpow_add_one₀ two_ne_zero]
      ring
    have hreach : reach (2 ^ 52) (e + 1) = 1 := if_pos ⟨rfl, by omega⟩
    rw [hdouble]
    push_cast at hlower
    have hexponent : e ≠ 971 := fun he => by linarith only [htop he, hlower]
    refine ⟨2 ^ 52, e + 1, by decide, ⟨by decide, by omega, by omega, .inl le_rfl⟩, ?_⟩
    refine .of_scaled ?_ (by push_cast; linarith) (.inl (by decide))
    rw [hreach]
    push_cast
    linarith

/-- Every rational of the range of the doubles lies in the interval of one. -/
lemma InRange.exists_rounds {v : ℚ} (h : InRange v) :
    ∃ m e, 0 < m ∧ IsDouble m e ∧ Rounds v m e := by
  have hv := h.pos
  obtain ⟨hlow, hhigh⟩ := h
  -- the unit of the last digit is given by the power of two below `v`
  obtain ⟨k, hk, hk'⟩ : ∃ k : Int, 2 ^ k ≤ v ∧ v < 2 ^ (k + 1) :=
    ⟨Int.log 2 v, mod_cast Int.zpow_log_le_self one_lt_two hv,
      mod_cast Int.lt_zpow_succ_log_self one_lt_two v⟩
  have hk1023 : k < 1024 := by
    refine (zpow_lt_zpow_iff_right₀ one_lt_two).1 (hk.trans_lt (hhigh.trans_lt ?_))
    rw [show (1024 : Int) = 2 + 1022 by rfl, zpow_add₀ two_ne_zero]
    exact mul_lt_mul_of_pos_right (by norm_num) (zpow_pos two_pos _)
  obtain ⟨e, he⟩ : ∃ e, e = max (k - 52) (-1074) := ⟨_, rfl⟩
  obtain ⟨t, rfl⟩ : ∃ t, v = t * 2 ^ e := ⟨v / 2 ^ e, by field_simp⟩
  have hpos : (0 : ℚ) < 2 ^ e := zpow_pos two_pos _
  have hscaled {b : ℚ} {j : Int} (hb : b * 2 ^ e = 2 ^ j) : 2 ^ j ≤ t * 2 ^ e → b ≤ t := by
    rw [← hb]
    exact fun h => le_of_mul_le_mul_right h hpos
  have ht : t < 2 ^ 53 := by
    refine lt_of_mul_lt_mul_right (hk'.trans_le ?_) hpos.le
    rw [two_pow_mul_zpow]
    exact zpow_le_zpow_right₀ one_le_two (by omega)
  have hnormal (h : e ≠ -1074) : 2 ^ 52 ≤ t := by
    refine hscaled (j := k) ?_ hk
    rw [two_pow_mul_zpow]
    congr 1
    omega
  have hone : 1 ≤ t := by
    by_cases h : e = -1074
    · exact hscaled (by rw [h, one_mul]) hlow
    · exact le_trans (by norm_num) (hnormal h)
  have htop (h : e = 971) : t ≤ 3 * 2 ^ 51 := by
    refine le_of_mul_le_mul_right (hhigh.trans_eq ?_) hpos
    rw [h, mul_assoc, two_pow_mul_zpow]
    rfl
  exact exists_rounds_scaled (by omega) (by omega) hone ht hnormal htop

/-- How far one rounding may go. The exact ratio is closer to one; this leaves room for the doubles
just below the normal ones. -/
def slack : ℚ := 1 + 1 / 2 ^ 50

/-- Many roundings do not go far. -/
lemma slack_pow_le {k : Nat} (hk : k ≤ 2048) : slack ^ k ≤ 5 / 4 := by
  have hk' : (k : ℚ) ≤ 2048 := by exact_mod_cast hk
  have hpos : 0 < slack ^ k := pow_pos (by norm_num [slack]) k
  have hbernoulli : 1 + k * (slack⁻¹ - 1) ≤ slack⁻¹ ^ k := by
    have := one_add_mul_le_pow (a := slack⁻¹ - 1) (by norm_num [slack]) k
    rwa [add_sub_cancel] at this
  rw [inv_pow] at hbernoulli
  rw [← inv_le_inv₀ (by norm_num) hpos]
  refine le_trans ?_ hbernoulli
  norm_num [slack]
  linarith

lemma Rounds.abs_sub_le {v : ℚ} {m : Nat} {e : Int} (h : Rounds v m e) :
    |m * 2 ^ e - v| ≤ 1 / 2 * 2 ^ e := by
  have hunit : (2 : ℚ) ^ e = 4 * 2 ^ (e - 2) := by
    rw [zpow_sub₀ two_ne_zero]
    ring
  have hreach : (reach m e : ℚ) ≤ 2 := by
    have hreach : reach m e ≤ 2 := by
      unfold reach
      split <;> omega
    exact_mod_cast hreach
  have hpos : (0 : ℚ) < 2 ^ (e - 2) := zpow_pos two_pos _
  have hlower := h.lower
  have hupper := h.upper
  rw [hunit, abs_le]
  constructor
  · linarith
  · nlinarith

/-- A double is within a factor of two of what rounds to it. -/
lemma Rounds.within_two {v : ℚ} {m : Nat} {e : Int} (h : Rounds v m e) (hm : 0 < m) :
    Within 2 (m * 2 ^ e) v := by
  have hpos : (0 : ℚ) < 2 ^ e := zpow_pos two_pos _
  have hone : (1 : ℚ) ≤ m := by exact_mod_cast hm
  refine .of_abs_sub_le (d := 1 / 2) (by positivity) (h.abs_sub_le.trans ?_) (by norm_num)
    (by norm_num) (by norm_num)
  gcongr
  exact le_mul_of_one_le_left hpos.le hone

/-- A double is near what rounds to it, unless it has few digits. -/
lemma Rounds.within_slack {v : ℚ} {m : Nat} {e : Int} (h : Rounds v m e) (hdouble : IsDouble m e)
    (hv : 2 ^ (-1024 : Int) ≤ v) : Within slack (m * 2 ^ e) v := by
  have hpos : (0 : ℚ) < 2 ^ e := zpow_pos two_pos _
  have herror := h.abs_sub_le
  have hdigits : (2 ^ 50 : ℚ) ≤ m := by
    rcases hdouble.normal_or_least with hlarge | rfl
    · exact_mod_cast (by omega : 2 ^ 50 ≤ m)
    · have hv' : 2 ^ 50 * 2 ^ (-1074 : Int) ≤ v := (two_pow_mul_zpow 50 (-1074)).trans_le hv
      have hlow := (abs_le.1 herror).1
      have : (2 ^ 50 : ℚ) < m + 1 := by
        refine lt_of_mul_lt_mul_right (a := 2 ^ (-1074 : Int)) ?_ hpos.le
        linarith
      exact_mod_cast Nat.lt_succ_iff.1 (by exact_mod_cast this)
  refine .of_abs_sub_le (d := 1 / 2 ^ 51) (by positivity) (herror.trans ?_) ?_ ?_ ?_
  · calc 1 / 2 * (2 : ℚ) ^ e = 1 / 2 ^ 51 * (2 ^ 50 * 2 ^ e) := by ring
      _ ≤ 1 / 2 ^ 51 * (m * 2 ^ e) := by gcongr
  all_goals norm_num [slack]

/-! ### The operations -/

variable {x y z : Float}

/-- Whether a number is finite and what a rational is rounded to. -/
structure IsNear (x : Float) (q : ℚ) : Prop where
  isFinite : x.isFinite = true
  within_two : Within 2 (value (view x)) q
  within_slack : 2 ^ (-1024 : Int) ≤ |q| → Within slack (value (view x)) q

lemma value_finite (s : Sign) {m : Nat} {e : Int} (hm : 0 < m) :
    value (.finite s m e hm) = s.apply 1 * (m * 2 ^ e) := by
  cases s
  · rw [value, Sign.apply, Sign.apply]
    push_cast
    ring
  · rw [value, Sign.apply, Sign.apply]
    push_cast
    ring

lemma abs_apply_one_mul (s : Sign) (v : ℚ) : |(s.apply 1 : ℚ) * v| = |v| := by
  cases s <;> simp [Sign.apply]

/-- An operation whose result is rounded is near its exact result. -/
lemma isNear_of_rounds {q v : ℚ} {s : Sign} (h : InRange |q|) (hq : q = s.apply 1 * v)
    (hpos : 0 < v)
    (hx : ∀ m e (hm : 0 < m), IsDouble m e → Rounds v m e → x = ofView (.finite s m e hm)) :
    IsNear x q := by
  rw [hq, abs_apply_one_mul, abs_of_pos hpos] at h
  obtain ⟨m, e, hm, hdouble, hrounds⟩ := h.exists_rounds
  have hview : view (ofView (.finite s m e hm)) = .finite s m e hm := view_ofView hdouble
  rw [hx m e hm hdouble hrounds, hq]
  refine ⟨congrArg UnpackedFloat.isFinite hview, ?_, fun hlarge => ?_⟩
  · rw [hview, value_finite]
    exact (hrounds.within_two hm).const_mul _
  · rw [abs_apply_one_mul, abs_of_pos hpos] at hlarge
    rw [hview, value_finite]
    exact (hrounds.within_slack hdouble hlarge).const_mul _

lemma exists_view_of_value_ne_zero (hx : value (view x) ≠ 0) :
    ∃ s m e, ∃ hm : 0 < m, view x = .finite s m e hm ∧ IsDouble m e := by
  have hview := isView_view x
  generalize view x = u at *
  cases hview with
  | finite s hm hdouble => exact ⟨s, _, _, hm, rfl, hdouble⟩
  | _ => exact absurd rfl hx

lemma apply_one_mul_apply_one (s t : Sign) :
    (((s * t).apply 1 : Int) : ℚ) = s.apply 1 * t.apply 1 := by
  exact_mod_cast apply_mul_apply s t 1 1

lemma isNear_mul (h : InRange |value (view x) * value (view y)|) :
    IsNear (x * y) (value (view x) * value (view y)) := by
  have hne := abs_pos.1 h.pos
  obtain ⟨s, n, f, hn, hu, hdouble⟩ := exists_view_of_value_ne_zero (left_ne_zero_of_mul hne)
  obtain ⟨t, l, k, hl, hv, hdouble'⟩ := exists_view_of_value_ne_zero (right_ne_zero_of_mul hne)
  have hvalue : value (view x) * value (view y) = (s * t).apply 1 * (n * l * 2 ^ (f + k)) := by
    rw [hu, hv, value_finite, value_finite, apply_one_mul_apply_one, zpow_add₀ two_ne_zero]
    ring
  refine isNear_of_rounds h hvalue (by positivity) fun m e hm hdouble'' hrounds => ?_
  rw [view_mul, hu, hv]
  exact congrArg ofView (mul_eq hdouble'' hrounds (hdouble.mul_bits hn hl hdouble'))

lemma exists_quotient (hne : value (view x) / value (view y) ≠ 0) :
    ∃ s n f, ∃ hn : 0 < n, ∃ t l k, ∃ hl : 0 < l, view x = .finite s n f hn
      ∧ view y = .finite t l k hl
      ∧ value (view x) / value (view y) = (s / t).apply 1 * (n / l * 2 ^ (f - k)) := by
  rw [div_ne_zero_iff] at hne
  obtain ⟨s, n, f, hn, hu, -⟩ := exists_view_of_value_ne_zero hne.1
  obtain ⟨t, l, k, hl, hv, -⟩ := exists_view_of_value_ne_zero hne.2
  have hsign : (((s / t).apply 1 : Int) : ℚ) = s.apply 1 / t.apply 1 := by
    have hdivide : s / t = s * t := by cases s <;> cases t <;> rfl
    rw [hdivide, apply_one_mul_apply_one]
    cases t <;> simp [Sign.apply, div_neg]
  refine ⟨s, n, f, hn, t, l, k, hl, hu, hv, ?_⟩
  rw [hu, hv, value_finite, value_finite, hsign, zpow_sub₀ two_ne_zero]
  field_simp

lemma isNear_div (h : InRange |value (view x) / value (view y)|) :
    IsNear (x / y) (value (view x) / value (view y)) := by
  obtain ⟨s, n, f, hn, t, l, k, hl, hu, hv, hvalue⟩ := exists_quotient (abs_pos.1 h.pos)
  refine isNear_of_rounds h hvalue (by positivity) fun m e hm hdouble hrounds => ?_
  rw [view_div, hu, hv]
  exact congrArg ofView (div_eq hdouble hrounds)

/-- A product to which a zero is added is rounded like the product alone. -/
lemma isNear_fusedMulAdd (h : InRange |value (view x) * value (view y)|) (hz : (z == 0) = true) :
    IsNear (fusedMulAdd x y z) (value (view x) * value (view y)) := by
  have hne := abs_pos.1 h.pos
  obtain ⟨s, n, f, hn, hu, -⟩ := exists_view_of_value_ne_zero (left_ne_zero_of_mul hne)
  obtain ⟨t, l, k, hl, hv, -⟩ := exists_view_of_value_ne_zero (right_ne_zero_of_mul hne)
  have hvalue : value (view x) * value (view y)
      = (s * t).apply 1 * ((n * l : Nat) * 2 ^ (f + k)) := by
    rw [hu, hv, value_finite, value_finite, apply_one_mul_apply_one, zpow_add₀ two_ne_zero]
    push_cast
    ring
  have hproduct := Nat.mul_pos hn hl
  refine isNear_of_rounds h hvalue (by positivity) fun m e hm hdouble hrounds => ?_
  rw [beq_zero] at hz
  cases hw : view z with
  | zero u =>
    have hfused : fusedMulAdd x y z = nearest ((s * t).apply (n * l : Nat)) (f + k) (s * t) := by
      rw [fusedMulAdd, hu, hv, hw]
      rfl
    rw [hfused, nearest, normalize_apply _ _ hproduct, round_eq _ hm hproduct hdouble hrounds]
  | _ => rw [hw] at hz; cases hz

end Reckoner.Binary64
