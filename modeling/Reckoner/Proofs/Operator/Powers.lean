import Reckoner.Proofs.Binary64.Overflow
import Reckoner.Proofs.Operator.Reals

/-!
# The range of powers

Each product of the loop is rounded once, so that the power of a real number is near the exact one
as long as that is in the range of the doubles. A negative exponent needs more room: the reciprocal
divides by the square of the power, which leaves the range much earlier than the power itself, so
that the result is zero or not finite.
-/

namespace Reckoner

namespace Complex

open Binary64 (Within slack value view InRange)

variable {z w : Complex} {p q : ℚ} {k l n : Nat}

/-! ### Products -/

/-- Whether a number is real and finite, and a rational up to so many roundings. -/
structure Approximates (z : Complex) (q : ℚ) (count : Nat) : Prop where
  isReal : z.isReal = true
  isFinite : z.re.isFinite = true
  within : Within (slack ^ count) (value (view z.re)) q

/-- Whether the magnitude of a rational is that of a double with nearly all its digits. -/
structure IsModerate (q : ℚ) : Prop where
  ge : 2 ^ (-1023 : Int) ≤ |q|
  le : |q| ≤ 2 ^ (1023 : Int)

lemma IsModerate.inRange {x : ℚ} (h : IsModerate q) (hx : Within (5 / 4) x q) :
    InRange |x| ∧ 2 ^ (-1024 : Int) ≤ |x| := by
  have hsmall : (2 : ℚ) ^ (-1023 : Int) = 2 * 2 ^ (-1024 : Int) := by
    rw [← zpow_one_add₀ two_ne_zero]
    rfl
  have hlarge : (2 : ℚ) ^ (1023 : Int) = 2 * 2 ^ (1022 : Int) := by
    rw [← zpow_one_add₀ two_ne_zero]
    rfl
  have hleast : (2 : ℚ) ^ (-1074 : Int) ≤ 2 ^ (-1024 : Int) :=
    zpow_le_zpow_right₀ one_le_two (by decide)
  suffices hrange : 2 ^ (-1024 : Int) ≤ |x| ∧ |x| ≤ 3 * 2 ^ (1022 : Int) from
    ⟨⟨hleast.trans hrange.1, hrange.2⟩, hrange.1⟩
  have hpos : (0 : ℚ) < 2 ^ (-1024 : Int) := zpow_pos two_pos _
  have hpos' : (0 : ℚ) < 2 ^ (1022 : Int) := zpow_pos two_pos _
  have hge := hsmall.ge.trans h.ge
  have hle := h.le.trans hlarge.le
  have hupper := hx.abs_le_mul
  have hlower := hx.abs_le_mul'
  generalize (2 : ℚ) ^ (-1024 : Int) = least at *
  generalize (2 : ℚ) ^ (1022 : Int) = greatest at *
  constructor <;> linarith

lemma Approximates.mul (hz : z.Approximates q k) (hw : w.Approximates p l) (h : IsModerate (q * p))
    (hcount : k + l ≤ 2048) : (z * w).Approximates (q * p) (k + l + 1) := by
  have hproduct := hz.within.mul hw.within
  rw [← pow_add] at hproduct
  obtain ⟨hrange, hlarge⟩ := h.inRange (hproduct.mono (Binary64.slack_pow_le hcount))
  have hzero : (-(z.im * w.im) == 0) = true := by
    rw [Binary64.beq_zero_neg, Binary64.mul_beq_zero hz.isReal]
    exact Binary64.isFinite_of_beq_zero hw.isReal
  have hnear := Binary64.isNear_fusedMulAdd hrange hzero
  refine ⟨?_, hnear.isFinite, ?_⟩
  · rw [isReal_mul hz.isReal hw.isReal, hz.isFinite, hw.isFinite]
    rfl
  · have := (hnear.within_slack hlarge).trans hproduct
    rw [pow_succ']
    exact this

/-! ### Powers -/

/-- The powers on the way to one in the range are in the range. -/
lemma IsModerate.of_pow {m : Nat} (h : IsModerate (q ^ n)) (hmn : m ≤ n) : IsModerate (q ^ m) := by
  obtain ⟨hge, hle⟩ := h
  rw [abs_pow] at hge hle
  have hone : (2 : ℚ) ^ (-1023 : Int) ≤ 1 := zpow_le_one_of_nonpos₀ one_le_two (by decide)
  have hone' : (1 : ℚ) ≤ 2 ^ (1023 : Int) := one_le_zpow₀ one_le_two (by decide)
  constructor <;> rw [abs_pow]
  · rcases le_total 1 |q| with hq | hq
    · exact hone.trans (one_le_pow₀ hq)
    · exact hge.trans (pow_le_pow_of_le_one (abs_nonneg q) hq hmn)
  · rcases le_total 1 |q| with hq | hq
    · exact (pow_le_pow_right₀ hq hmn).trans hle
    · exact (pow_le_one₀ (abs_nonneg q) hq).trans hone'

/-- Whether a number approximates a rational with fewer roundings than its weight. Weights add up in
products, as the roundings and the one of the product itself do. -/
def HasWeight (z : Complex) (a : ℚ × Multiplicative Nat) : Prop :=
  ∃ k, a.2.toAdd = k + 1 ∧ z.Approximates a.1 k

lemma HasWeight.mul {a b : ℚ × Multiplicative Nat} (hz : z.HasWeight a) (hw : w.HasWeight b)
    (h : IsModerate (a * b).1 ∧ (a * b).2.toAdd ≤ 2048) : (z * w).HasWeight (a * b) := by
  obtain ⟨k, hk, hz⟩ := hz
  obtain ⟨l, hl, hw⟩ := hw
  have hweight : (a * b).2.toAdd = k + l + 1 + 1 := by
    rw [Prod.snd_mul, toAdd_mul, hk, hl]
    omega
  rw [hweight] at h
  exact ⟨k + l + 1, hweight, hz.mul hw h.1 (by omega)⟩

lemma value_one : value (view 1) = 1 := by
  have hone : view 1 = .finite .positive (2 ^ 52) (-52) (by decide) := rfl
  rw [hone, value]
  norm_num [Float.Model.UnpackedFloat.Sign.apply]

/-- The power of a finite real number is near the exact one if that is in the range. -/
lemma approximates_squaring (hz : z.isReal = true) (hfinite : z.re.isFinite = true)
    (hn : n ≤ 1024) (h : IsModerate (value (view z.re) ^ n)) :
    (squaring z one n).Approximates (value (view z.re) ^ n) n := by
  obtain ⟨a, ha⟩ : ∃ a, a = value (view z.re) := ⟨_, rfl⟩
  rw [← ha] at h ⊢
  have hbase : z.HasWeight (a, .ofAdd 1) := ⟨0, rfl, hz, hfinite, ha ▸ .refl (by simp) _⟩
  have hresult : one.HasWeight (1, .ofAdd 1) :=
    ⟨0, rfl, Value.isReal_ofReal 1, by decide +kernel, value_one ▸ .refl (by simp) _⟩
  have hpow (m : Nat) : ((a, .ofAdd 1) : ℚ × Multiplicative Nat) ^ m = (a ^ m, .ofAdd m) := by
    rw [Prod.pow_mk, ← ofAdd_nsmul, smul_eq_mul, mul_one]
  have hproduct (m : Nat) :
      ((1, .ofAdd 1) * (a, .ofAdd 1) ^ m : ℚ × Multiplicative Nat) = (a ^ m, .ofAdd (1 + m)) := by
    rw [hpow, Prod.mk_mul_mk, one_mul, ← ofAdd_add]
  obtain ⟨k, hk, happrox⟩ := squaring_stands (n := n)
    (P := fun a => IsModerate a.1 ∧ a.2.toAdd ≤ 2048) HasWeight.mul hbase hresult
    (fun m hm _ => by
      rw [hpow]
      exact ⟨h.of_pow hm, by simp only [toAdd_ofAdd]; omega⟩)
    (fun m hm _ => by
      rw [hproduct]
      exact ⟨h.of_pow hm, by simp only [toAdd_ofAdd]; omega⟩)
  rw [hproduct] at hk happrox
  obtain rfl : k = n := by
    simp only [toAdd_ofAdd] at hk
    omega
  exact happrox

/-! ### Reciprocals -/

/-- The squared length of a real number is the square of its real part, unless that is a zero. -/
lemma norm_eq_of_isReal (hz : z.isReal = true)
    (hne : Binary64.isZero (view (z.re * z.re)) = false) :
    z.re * z.re + z.im * z.im = z.re * z.re := by
  refine Binary64.add_of_isZero_right hne ?_
  rw [← Binary64.beq_zero, Binary64.mul_beq_zero hz]
  exact Binary64.isFinite_of_beq_zero hz

/-- Whether the square of a rational is in the range of the doubles. -/
structure HasSquare (q : ℚ) : Prop where
  ge : 2 ^ (-536 : Int) ≤ |q|
  le : |q| ≤ 2 ^ (511 : Int)

lemma HasSquare.ne_zero (h : HasSquare q) : q ≠ 0 :=
  abs_pos.1 ((zpow_pos two_pos _).trans_le h.ge)

lemma HasSquare.inRange {x : ℚ} (h : HasSquare q) (hx : Within (5 / 4) x q) : InRange |x * x| := by
  have hleast : (2 : ℚ) ^ (-1074 : Int) = 2 ^ (-537 : Int) * 2 ^ (-537 : Int) :=
    zpow_add₀ two_ne_zero (-537) (-537)
  have hgreatest : (2 : ℚ) ^ (1022 : Int) = 2 ^ (511 : Int) * 2 ^ (511 : Int) :=
    zpow_add₀ two_ne_zero 511 511
  have hpos : (0 : ℚ) < 2 ^ (-537 : Int) := zpow_pos two_pos _
  have hge := (zpow_one_add₀ two_ne_zero (-537)).ge.trans h.ge
  have hle := h.le
  have hupper := hx.abs_le_mul
  have hlower := hx.abs_le_mul'
  rw [abs_mul]
  constructor
  · rw [hleast]
    generalize (2 : ℚ) ^ (-537 : Int) = least at *
    exact mul_self_le_mul_self hpos.le (by linarith)
  · rw [hgreatest]
    generalize (2 : ℚ) ^ (511 : Int) = greatest at *
    calc |x| * |x| ≤ (greatest * (5 / 4)) * (greatest * (5 / 4)) :=
          mul_self_le_mul_self (abs_nonneg x) (by linarith)
      _ ≤ 3 * (greatest * greatest) := by linarith only [mul_self_nonneg greatest]

lemma HasSquare.inRange_inv {y : ℚ} (h : HasSquare q) (hy : Within 3 y q⁻¹) : InRange |y| := by
  have hge : (2 : ℚ) ^ (-511 : Int) ≤ |q⁻¹| := Binary64.two_zpow_le_abs_inv rfl h.ne_zero h.le
  have hle : |q⁻¹| ≤ (2 : ℚ) ^ (536 : Int) := Binary64.abs_inv_le_two_zpow rfl h.ge
  constructor
  · refine le_of_mul_le_mul_right ?_ (zero_lt_three (α := ℚ))
    calc (2 : ℚ) ^ (-1074 : Int) * 3 ≤ 2 ^ (-1074 : Int) * 2 ^ (2 : Int) := by
          gcongr
          norm_num
      _ = 2 ^ (-1072 : Int) := (zpow_add₀ two_ne_zero (-1074) 2).symm
      _ ≤ 2 ^ (-511 : Int) := zpow_le_zpow_right₀ one_le_two (by decide)
      _ ≤ |q⁻¹| := hge
      _ ≤ |y| * 3 := hy.abs_le_mul'
  · calc |y| ≤ |q⁻¹| * 3 := hy.abs_le_mul
      _ ≤ 2 ^ (1022 : Int) * 3 := by
          refine mul_le_mul_of_nonneg_right (hle.trans ?_) zero_le_three
          exact zpow_le_zpow_right₀ one_le_two (by decide)
      _ = 3 * 2 ^ (1022 : Int) := mul_comm _ _

/-- The reciprocal of a number with a square is near the exact one. -/
lemma Approximates.recip (hz : z.Approximates q k) (hcount : k ≤ 2048) (h : HasSquare q) :
    z.recip.isReal = true ∧ z.recip.re.isFinite = true
      ∧ Within 5 (value (view z.recip.re)) q⁻¹ := by
  have hx := hz.within.mono (Binary64.slack_pow_le hcount)
  have hne : value (view z.re) ≠ 0 :=
    left_ne_zero_of_mul (hx.mul_pos_of_ne_zero h.ne_zero).ne'
  have hsquare := Binary64.isNear_mul (x := z.re) (y := z.re) (h.inRange hx)
  have hnorm : z.re * z.re + z.im * z.im = z.re * z.re := by
    refine norm_eq_of_isReal hz.isReal (Bool.eq_false_iff.2 fun hzero => ?_)
    have hpos := hsquare.within_two.mul_pos_of_ne_zero (mul_self_ne_zero.2 hne)
    rw [Binary64.value_of_isZero hzero, zero_mul] at hpos
    exact lt_irrefl _ hpos
  have hre : z.recip.re = z.re / (z.re * z.re) := congrArg (z.re / ·) hnorm
  have hquotient :
      Within (2 * (5 / 4)) (value (view z.re) / value (view (z.re * z.re))) q⁻¹ := by
    refine Within.trans ?_ hx.inv
    have hinverse := hsquare.within_two.inv.const_mul (value (view z.re))
    rwa [mul_inv, mul_inv_cancel_left₀ hne, ← div_eq_mul_inv] at hinverse
  have hnear := Binary64.isNear_div (h.inRange_inv (hquotient.mono (by norm_num)))
  rw [← hre] at hnear
  have hor : z.IsRealOrUnbounded := fun _ => hz.isReal
  refine ⟨hor.recip hnear.isFinite, hnear.isFinite, ?_⟩
  exact (hnear.within_two.trans hquotient).mono (by norm_num)

/-- The reciprocal of a number whose square is too great is a zero. -/
lemma Approximates.recip_isZero (hz : z.Approximates q k) (hcount : k ≤ 2048)
    (h : 2 ^ (513 : Int) ≤ |q|) : z.recip.isZero = true := by
  have hlower := (hz.within.mono (Binary64.slack_pow_le hcount)).abs_le_mul'
  have hlarge : 2 ^ (1024 : Int) ≤ |value (view z.re) * value (view z.re)| := by
    rw [abs_mul, show (2 : ℚ) ^ (1024 : Int) = 2 ^ (512 : Int) * 2 ^ (512 : Int) from
      zpow_add₀ two_ne_zero 512 512]
    have hge := (zpow_one_add₀ two_ne_zero 512).ge.trans h
    have hpos : (0 : ℚ) < 2 ^ (512 : Int) := zpow_pos two_pos _
    generalize (2 : ℚ) ^ (512 : Int) = root at *
    exact mul_self_le_mul_self hpos.le (by linarith only [hge, hlower, hpos])
  obtain ⟨s, hinfinite⟩ := Binary64.mul_of_large hlarge
  have hnorm := norm_eq_of_isReal hz.isReal (by rw [hinfinite]; rfl)
  have hzero {x : Float} (hx : x.isFinite = true) :
      (x / (z.re * z.re + z.im * z.im) == 0) = true := by
    rw [hnorm]
    exact Binary64.div_infinity hx hinfinite
  have him : (z.recip.im == 0) = (z.im / (z.re * z.re + z.im * z.im) == 0) :=
    Binary64.beq_zero_neg _
  rw [isZero, Bool.and_eq_true, him]
  exact ⟨hzero hz.isFinite, hzero (Binary64.isFinite_of_beq_zero hz.isReal)⟩

/-- The reciprocal of a number whose square is too small is not finite. -/
lemma Approximates.recip_not_isFinite (hz : z.Approximates q k) (hcount : k ≤ 2048) (hq : q ≠ 0)
    (h : |q| ≤ 2 ^ (-539 : Int)) : z.recip.re.isFinite = false := by
  have hx := hz.within.mono (Binary64.slack_pow_le hcount)
  have hne : value (view z.re) ≠ 0 := left_ne_zero_of_mul (hx.mul_pos_of_ne_zero hq).ne'
  have hsmall : |value (view z.re) * value (view z.re)| < 2 ^ (-1075 : Int) := by
    have hupper := hx.abs_le_mul
    have hroot : |value (view z.re)| ≤ 2 ^ (-538 : Int) := by
      rw [show (2 : ℚ) ^ (-538 : Int) = 2 * 2 ^ (-539 : Int) from zpow_one_add₀ two_ne_zero (-539)]
      have hpos : (0 : ℚ) < 2 ^ (-539 : Int) := zpow_pos two_pos _
      generalize (2 : ℚ) ^ (-539 : Int) = bound at *
      linarith
    calc |value (view z.re) * value (view z.re)|
        = |value (view z.re)| * |value (view z.re)| := abs_mul _ _
      _ ≤ 2 ^ (-538 : Int) * 2 ^ (-538 : Int) := mul_self_le_mul_self (abs_nonneg _) hroot
      _ = 2 ^ (-1076 : Int) := (zpow_add₀ two_ne_zero (-538) (-538)).symm
      _ < 2 ^ (-1075 : Int) := zpow_lt_zpow_right₀ one_lt_two (by decide)
  obtain ⟨s, hzero⟩ := Binary64.mul_of_small (mul_self_ne_zero.2 hne) hsmall
  have hnorm : (z.re * z.re + z.im * z.im == 0) = true := by
    refine Binary64.add_beq_zero ?_ ?_
    · rw [Binary64.beq_zero, hzero]
      rfl
    · rw [Binary64.mul_beq_zero hz.isReal]
      exact Binary64.isFinite_of_beq_zero hz.isReal
  exact Binary64.isFinite_div_zero hnorm

/-! ### Integral powers -/

/-- Whether a number is real and finite, is not zero and has the sign of a rational. -/
structure HasSign (z : Complex) (q : ℚ) : Prop where
  isReal : z.isReal = true
  isFinite : z.re.isFinite = true
  mul_pos : 0 < value (view z.re) * q

lemma IsModerate.ne_zero (h : IsModerate q) : q ≠ 0 :=
  abs_pos.1 ((zpow_pos two_pos _).trans_le h.ge)

lemma IsModerate.inv (h : IsModerate q) : IsModerate q⁻¹ where
  ge := Binary64.two_zpow_le_abs_inv rfl h.ne_zero h.le
  le := Binary64.abs_inv_le_two_zpow rfl h.ge

section Power

variable {a : ℚ} {n : Int} (hz : z.isReal = true) (hfinite : z.re.isFinite = true)
  (ha : value (view z.re) = a) (hsmall : n.natAbs ≤ 1024) (h : IsModerate (a ^ n))

include hz hfinite ha hsmall h

lemma hasSign_powInt_of_nonneg (hn : 0 ≤ n) : (z.powInt n).HasSign (a ^ n) := by
  subst ha
  obtain ⟨k, rfl⟩ := Int.eq_ofNat_of_zero_le hn
  have hpower : z.powInt k = squaring z one k := by
    rw [powInt, if_neg (by omega), Int.natAbs_natCast]
  rw [zpow_natCast] at h ⊢
  have happrox := approximates_squaring hz hfinite hsmall h
  rw [hpower]
  exact ⟨happrox.isReal, happrox.isFinite, happrox.within.mul_pos_of_ne_zero h.ne_zero⟩

/-- A negative power is the reciprocal of a number near the positive one. -/
lemma exists_powInt_eq_recip (hn : n < 0) :
    ∃ p k, z.powInt n = recip p ∧ p.Approximates (a ^ n)⁻¹ k ∧ k ≤ 2048 := by
  subst ha
  have hinverse : (value (view z.re) ^ n)⁻¹ = value (view z.re) ^ n.natAbs := by
    rw [← zpow_neg, ← zpow_natCast]
    congr 1
    omega
  have hmoderate := h.inv
  rw [hinverse] at hmoderate ⊢
  exact ⟨_, _, if_pos hn, approximates_squaring hz hfinite hsmall hmoderate, by omega⟩

lemma hasSign_powInt_of_hasSquare (hn : n < 0) (hsquare : HasSquare (a ^ n)⁻¹) :
    (z.powInt n).HasSign (a ^ n) := by
  obtain ⟨p, k, hpower, happrox, hcount⟩ := exists_powInt_eq_recip hz hfinite ha hsmall h hn
  obtain ⟨hreal, hfinite', hwithin⟩ := happrox.recip hcount hsquare
  rw [inv_inv] at hwithin
  rw [hpower]
  exact ⟨hreal, hfinite', hwithin.mul_pos_of_ne_zero h.ne_zero⟩

lemma powInt_isZero (hn : n < 0) (hpower : |a ^ n| ≤ 2 ^ (-513 : Int)) :
    (z.powInt n).isZero = true := by
  obtain ⟨p, k, heq, happrox, hcount⟩ := exists_powInt_eq_recip hz hfinite ha hsmall h hn
  rw [heq]
  exact happrox.recip_isZero hcount (Binary64.two_zpow_le_abs_inv rfl h.ne_zero hpower)

lemma powInt_not_isFinite (hn : n < 0) (hpower : 2 ^ (539 : Int) ≤ |a ^ n|) :
    (z.powInt n).re.isFinite = false := by
  obtain ⟨p, k, heq, happrox, hcount⟩ := exists_powInt_eq_recip hz hfinite ha hsmall h hn
  rw [heq]
  exact happrox.recip_not_isFinite hcount (inv_ne_zero h.ne_zero)
    (Binary64.abs_inv_le_two_zpow rfl hpower)

end Power

end Complex

namespace Expr

open Binary64 (value view toInt?)

variable {c : Context} {l r : Expr} {z w : Complex} {a : ℚ} {n : Int}

/-- Which powers collapse. Let the exact power of a finite real number be in the range, with at most
the greatest integral exponent. If the exponent is not negative, the power is real and finite, is
not zero and has the right sign. A power with a negative exponent is found through the square of its
reciprocal: as long as that is in the range too, the same is true of it, and farther out it is zero
on one side and not finite on the other. -/
theorem value?_pow_real (hl : l.value? c = some (.scalar z)) (hr : r.value? c = some (.scalar w))
    (hz : z.isReal = true) (hfinite : z.re.isFinite = true) (ha : value (view z.re) = a)
    (hw : w.isReal = true) (hexponent : toInt? w.re = some n)
    (hsmall : n.natAbs ≤ Operator.maxIntegralExponent) (hge : 2 ^ (-1022 : Int) ≤ |a ^ n|)
    (hle : |a ^ n| ≤ 2 ^ (1023 : Int)) :
    ∃ p : Complex, (binary .pow l r).value? c = some (.scalar p)
      ∧ (0 ≤ n → p.HasSign (a ^ n))
      ∧ (n < 0 → 2 ^ (-511 : Int) ≤ |a ^ n| → |a ^ n| ≤ 2 ^ (536 : Int) → p.HasSign (a ^ n))
      ∧ (n < 0 → |a ^ n| ≤ 2 ^ (-513 : Int) → p.isZero = true)
      ∧ (n < 0 → 2 ^ (539 : Int) ≤ |a ^ n| → p.re.isFinite = false) := by
  have hmoderate : Complex.IsModerate (a ^ n) :=
    ⟨(zpow_le_zpow_right₀ one_le_two (by decide)).trans hge, hle⟩
  have hdefined : 0 ≤ n ∨ z.isZero = false := by
    refine or_iff_not_imp_left.2 fun hneg => Bool.eq_false_iff.2 fun hzero => hmoderate.ne_zero ?_
    rw [Complex.isZero, Bool.and_eq_true, Binary64.beq_zero] at hzero
    rw [← ha, Binary64.value_of_isZero hzero.1, zero_zpow n (by omega)]
  have hinverse (hge' : 2 ^ (-511 : Int) ≤ |a ^ n|) (hle' : |a ^ n| ≤ 2 ^ (536 : Int)) :
      Complex.HasSquare (a ^ n)⁻¹ :=
    ⟨Binary64.two_zpow_le_abs_inv rfl hmoderate.ne_zero hle', Binary64.abs_inv_le_two_zpow rfl hge'⟩
  refine ⟨z.powInt n, ?_, Complex.hasSign_powInt_of_nonneg hz hfinite ha hsmall hmoderate,
    fun hneg hge' hle' => ?_, Complex.powInt_isZero hz hfinite ha hsmall hmoderate,
    Complex.powInt_not_isFinite hz hfinite ha hsmall hmoderate⟩
  · rw [value?_binary hl hr, BinaryOperator.result?,
      OperatorTable.apply_pow_of_toInt? hw hexponent hsmall hdefined]
    rfl
  · exact Complex.hasSign_powInt_of_hasSquare hz hfinite ha hsmall hmoderate hneg
      (hinverse hge' hle')

/-- The square of `2 ^ 511` is in the range, that of `2 ^ 512` is not. -/
theorem value?_pow_real_two :
    ∃ p : Complex,
      (binary .pow (.number 2) (.unary .negate (.number 511))).value? .initial = some (.scalar p)
        ∧ p.HasSign (2 ^ (-511 : Int)) := by
  have htwo : value (view 2) = 2 := by decide +kernel
  obtain ⟨p, hp, -, hsign, -⟩ := value?_pow_real (c := .initial) (l := .number 2)
    (r := .unary .negate (.number 511)) (z := .ofReal 2) (w := -.ofReal 511) (n := -511) rfl rfl
    (by decide +kernel) (by decide +kernel) htwo (by decide +kernel) (by decide +kernel)
    (by decide) (by decide +kernel) (by decide +kernel)
  exact ⟨p, hp, hsign (by decide) (by decide +kernel) (by decide +kernel)⟩

/-- The square of `1e200` is not in the range, and its reciprocal is zero. -/
theorem exists_value?_pow_collapse :
    ∃ p : Complex,
      (binary .pow (.number 1e200) (.unary .negate (.number 1))).value? .initial = some (.scalar p)
        ∧ p.isZero = true ∧ 2 ^ (-1022 : Int) ≤ |value (view 1e200) ^ (-1 : Int)|
        ∧ |value (view 1e200) ^ (-1 : Int)| ≤ 2 ^ (1023 : Int) := by
  refine ⟨(Complex.ofReal 1e200).powInt (-1), ?_, ?_, by decide +kernel, by decide +kernel⟩
  · rw [value?_binary (v := .scalar (.ofReal 1e200)) (w := .scalar (-.ofReal 1)) rfl rfl,
      BinaryOperator.result?, OperatorTable.apply_pow_of_toInt? (n := -1) (by decide +kernel)
        (by decide +kernel) (by decide) (.inr (by decide +kernel))]
    rfl
  · have hpower : (Complex.ofReal 1e200).powInt (-1) = (Complex.one * .ofReal 1e200).recip := by
      rw [Complex.powInt, if_pos (by decide), Int.natAbs_neg, Int.natAbs_one,
        Complex.squaring_of_pos _ _ one_pos, if_pos (Nat.mod_eq_of_lt one_lt_two),
        Nat.div_eq_of_lt one_lt_two, Complex.squaring_zero]
    rw [hpower]
    decide +kernel

end Expr

end Reckoner
