import Reckoner.Proofs.Complex.ZeroSigns

/-!
# Elementary functions at the two zeros

The exponential, the sines and the angles of doubles are those of the system. What has to be known
of them is what they give at the two zeros and at `nan`. From these special values it follows that
the complex functions that are made of them look at no sign of a zero, off the branch cut of the
logarithm.
-/

namespace Reckoner

namespace Binary64

/-- The special values of the elementary functions that every library of them shares. -/
structure SpecialValues : Prop where
  exp_zero (x : Float) : (x == 0) = true → x.exp = 1
  cos_zero (x : Float) : (x == 0) = true → x.cos = 1
  cosh_zero (x : Float) : (x == 0) = true → x.cosh = 1
  /-- The sine of a zero is that zero. -/
  sin_zero (x : Float) : (x == 0) = true → x.sin = x
  sinh_zero (x : Float) : (x == 0) = true → x.sinh = x
  /-- The angle of a positive number is a zero, that of the height. -/
  atan2_zero (y x : Float) : (y == 0) = true → 0 < x → y.atan2 x = y
  /-- On the vertical axis either zero gives the same right angle. -/
  atan2_vertical (y x : Float) : (y == 0) = false → (x == 0) = true → y.atan2 x = y.atan2 0
  atan2_nan (y x : Float) : x.isNaN = true → y.atan2 x = nan
  pow_zero (x y : Float) : (x == 0) = true → 0 < y → (x.pow y == 0) = true
  pow_nan (x y : Float) : (x == 0) = true → y.isNaN = true → x.pow y = nan

variable {x y x' y' : Float}

/-- A number that is neither negative nor a zero is positive, or there is no such number. -/
lemma pos_or_isNaN (hneg : ¬ x < 0) (hzero : (x == 0) = false) : 0 < x ∨ x.isNaN = true := by
  have hnan : x.isNaN = (view x).isNaN := rfl
  rw [lt_zero] at hneg
  push Not at hneg
  rw [beq_zero] at hzero
  rw [lt_iff_view, view_zero, hnan]
  cases hu : view x with
  | notANumber => exact .inr rfl
  | zero s =>
    rw [hu] at hzero
    cases hzero
  | infinity s =>
    cases s with
    | positive => exact .inl rfl
    | negative => exact absurd hu hneg.1
  | finite s m e hm =>
    cases s with
    | positive => exact .inl rfl
    | negative => exact absurd hu (hneg.2 m e hm)

/-- Two numbers that are the same are equal or both zeros. -/
lemma eq_or_beq_zero (h : same x y = true) : x = y ∨ (x == 0) = true ∧ (y == 0) = true := by
  rcases cases_same h with rfl | ⟨s, t, hs, ht⟩
  · exact .inl rfl
  · rw [beq_zero, beq_zero, hs, ht]
    exact .inr ⟨rfl, rfl⟩

/-- A function that is one at both zeros does not tell them apart. -/
lemma apply_eq {f : Float → Float} (hf : ∀ x, (x == 0) = true → f x = 1) (h : same x y = true) :
    f x = f y := by
  rcases eq_or_beq_zero h with rfl | ⟨hx, hy⟩
  · rfl
  · rw [hf x hx, hf y hy]

/-- A function that leaves both zeros as they are tells apart only them. -/
lemma same_apply {f : Float → Float} (hf : ∀ x, (x == 0) = true → f x = x) (h : same x y = true) :
    same (f x) (f y) = true := by
  rcases eq_or_beq_zero h with rfl | ⟨hx, hy⟩
  · exact same_refl _
  · rwa [hf x hx, hf y hy]

/-- The power of a zero is a zero, whichever of the two it is. -/
lemma SpecialValues.same_pow_zero (h : SpecialValues) (hx : same x x' = true)
    (hzero : (x == 0) = true) (hneg : ¬ y < 0)
    (hy : (y == 0) = false) : same (x.pow y) (x'.pow y) = true := by
  have hzero' : (x' == 0) = true := isZero_eq_of_same hx ▸ hzero
  rcases pos_or_isNaN hneg hy with hpos | hnan
  · have hpower := h.pow_zero x y hzero hpos
    have hpower' := h.pow_zero x' y hzero' hpos
    rw [beq_zero] at hpower hpower'
    exact (same_iff _ _).2 (.inr ⟨hpower, hpower'⟩)
  · rw [h.pow_nan x y hzero hnan, h.pow_nan x' y hzero' hnan]
    exact same_refl _

end Binary64

/-! ### Complex functions -/

namespace Complex

open Binary64 (SpecialValues apply_eq same_apply)

variable {z z' w w' : Complex}

/-- The angle is the same off the branch cut and its end. -/
lemma same_arg (h : SpecialValues) (hz : z.same z' = true) (hcut : z.IsOffCut)
    (hzero : z.isZero = false) : Binary64.same z.arg z'.arg = true := by
  obtain ⟨hre, him⟩ := same_iff.1 hz
  unfold arg
  rcases Binary64.eq_or_beq_zero him with himeq | ⟨him₀, him₀'⟩
  · rw [← himeq]
    rcases Binary64.eq_or_beq_zero hre with hreeq | ⟨hre₀, hre₀'⟩
    · rw [hreeq]
      exact Binary64.same_refl _
    · have hvertical : (z.im == 0) = false := by rwa [isZero, hre₀, Bool.true_and] at hzero
      rw [h.atan2_vertical _ _ hvertical hre₀, h.atan2_vertical _ _ hvertical hre₀']
      exact Binary64.same_refl _
  · have hre₀ : (z.re == 0) = false := by rwa [isZero, him₀, Bool.and_true] at hzero
    rw [← Binary64.eq_of_same hre hre₀]
    rcases Binary64.pos_or_isNaN (hcut him₀) hre₀ with hpos | hnan
    · rwa [h.atan2_zero _ _ him₀ hpos, h.atan2_zero _ _ him₀' hpos]
    · rw [h.atan2_nan _ _ hnan, h.atan2_nan _ _ hnan]
      exact Binary64.same_refl _

lemma same_ln (h : SpecialValues) (hz : z.same z' = true)
    (hcut : z = z' ∨ z.IsOffCut ∧ z.isZero = false) : z.ln.same z'.ln = true := by
  rcases hcut with rfl | ⟨hcut, hzero⟩
  · exact same_refl _
  · refine same_iff.2 ⟨?_, same_arg h hz hcut hzero⟩
    rw [ln, ln, abs_eq hz]
    exact Binary64.same_refl _

lemma same_exp (h : SpecialValues) (hz : z.same z' = true) : z.exp.same z'.exp = true := by
  obtain ⟨hre, him⟩ := same_iff.1 hz
  simp only [exp, apply_eq h.exp_zero hre, apply_eq h.cos_zero him]
  exact same_iff.2 ⟨Binary64.same_refl _,
    Binary64.same_mul (Binary64.same_refl _) (same_apply h.sin_zero him)⟩

lemma same_sin (h : SpecialValues) (hz : z.same z' = true) : z.sin.same z'.sin = true := by
  obtain ⟨hre, him⟩ := same_iff.1 hz
  simp only [sin, apply_eq h.cosh_zero him, apply_eq h.cos_zero hre]
  exact same_iff.2 ⟨Binary64.same_mul (same_apply h.sin_zero hre) (Binary64.same_refl _),
    Binary64.same_mul (Binary64.same_refl _) (same_apply h.sinh_zero him)⟩

lemma same_cos (h : SpecialValues) (hz : z.same z' = true) : z.cos.same z'.cos = true := by
  obtain ⟨hre, him⟩ := same_iff.1 hz
  simp only [cos, apply_eq h.cosh_zero him, apply_eq h.cos_zero hre]
  exact same_iff.2 ⟨Binary64.same_refl _,
    Binary64.same_mul (Binary64.same_neg (same_apply h.sin_zero hre)) (same_apply h.sinh_zero him)⟩

/-- The real part of a cosine, the divisor of a tangent, does not even differ in a sign. -/
lemma same_tan (h : SpecialValues) (hz : z.same z' = true) : z.tan.same z'.tan = true := by
  obtain ⟨hre, him⟩ := same_iff.1 hz
  refine same_div (same_sin h hz) (same_cos h hz) fun _ => ?_
  simp only [cos, apply_eq h.cosh_zero him, apply_eq h.cos_zero hre]

lemma same_sinh (h : SpecialValues) (hz : z.same z' = true) : z.sinh.same z'.sinh = true := by
  obtain ⟨hre, him⟩ := same_iff.1 hz
  simp only [sinh, apply_eq h.cosh_zero hre, apply_eq h.cos_zero him]
  exact same_iff.2 ⟨Binary64.same_mul (same_apply h.sinh_zero hre) (Binary64.same_refl _),
    Binary64.same_mul (Binary64.same_refl _) (same_apply h.sin_zero him)⟩

lemma same_cosh (h : SpecialValues) (hz : z.same z' = true) : z.cosh.same z'.cosh = true := by
  obtain ⟨hre, him⟩ := same_iff.1 hz
  simp only [cosh, apply_eq h.cosh_zero hre, apply_eq h.cos_zero him]
  exact same_iff.2 ⟨Binary64.same_refl _,
    Binary64.same_mul (same_apply h.sinh_zero hre) (same_apply h.sin_zero him)⟩

lemma same_tanh (h : SpecialValues) (hz : z.same z' = true) : z.tanh.same z'.tanh = true := by
  obtain ⟨hre, him⟩ := same_iff.1 hz
  refine same_div (same_sinh h hz) (same_cosh h hz) fun _ => ?_
  simp only [cosh, apply_eq h.cosh_zero hre, apply_eq h.cos_zero him]

/-! ### Powers by the logarithm -/

lemma same_powReal (h : SpecialValues) (hz : z.same z' = true) (hcut : z.IsOffCut) (x : Float) :
    (z.powReal x).same (z'.powReal x) = true := by
  simp only [powReal, ← isZero_eq_of_same hz, ← abs_eq hz]
  split
  · exact same_refl _
  · rename_i hzero
    have hangle := Binary64.same_mul (same_arg h hz hcut (by simpa using hzero))
      (Binary64.same_refl x)
    rw [apply_eq h.cos_zero hangle]
    exact same_iff.2 ⟨Binary64.same_refl _,
      Binary64.same_mul (Binary64.same_refl _) (same_apply h.sin_zero hangle)⟩

/-- A power by the logarithm is the same off the branch cut, for a real exponent that is. -/
lemma same_pow (h : SpecialValues) (hz : z.same z' = true) (hw : w.same w' = true)
    (hexponent : w.isReal = true → w.re = w'.re) (hcut : z = z' ∨ z.IsOffCut) :
    (z.pow w).same (z'.pow w') = true := by
  simp only [pow, ← isReal_eq_of_same hw, ← isZero_eq_of_same hz]
  split
  · rename_i hreal
    rw [← hexponent hreal]
    rcases hcut with rfl | hcut
    · exact same_refl _
    · exact same_powReal h hz hcut _
  · split
    · exact same_refl _
    · rename_i hzero
      refine same_exp h (same_mul (same_ln h hz ?_) hw)
      exact hcut.imp_right fun hcut => ⟨hcut, by simpa using hzero⟩

end Complex

end Reckoner
