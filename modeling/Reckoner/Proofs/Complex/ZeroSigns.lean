import Reckoner.Proofs.Binary64.ZeroSigns
import Reckoner.Proofs.Value.Alike

/-!
# Operations on complex numbers that look at no sign of a zero

What the parts of a complex number are taken to is the same up to the signs of zeros, and so is what
the number is taken to. Away from its branch cut this is also true of the square root.
-/

namespace Reckoner

namespace Complex

open Binary64 (fusedMulAdd)

variable {z z' w w' : Complex}

lemma same_congr (hz : z.same z' = true) (hw : w.same w' = true) : z.same w = z'.same w' := by
  rw [same_iff] at hz hw
  rw [same, same, Binary64.same_congr hz.1 hw.1, Binary64.same_congr hz.2 hw.2]

lemma same_add (hz : z.same z' = true) (hw : w.same w' = true) :
    (z + w).same (z' + w') = true := by
  rw [same_iff] at *
  exact ⟨Binary64.same_add hz.1 hw.1, Binary64.same_add hz.2 hw.2⟩

lemma same_sub (hz : z.same z' = true) (hw : w.same w' = true) :
    (z - w).same (z' - w') = true := by
  rw [same_iff] at *
  exact ⟨Binary64.same_sub hz.1 hw.1, Binary64.same_sub hz.2 hw.2⟩

lemma same_mul (hz : z.same z' = true) (hw : w.same w' = true) :
    (z * w).same (z' * w') = true := by
  rw [same_iff] at *
  have him := Binary64.same_mul hz.2 hw.2
  exact ⟨Binary64.same_fusedMulAdd hz.1 hw.1 (Binary64.same_neg him),
    Binary64.same_fusedMulAdd hz.1 hw.2 (Binary64.same_mul hz.2 hw.1)⟩

/-- A quotient looks at the sign of a zero in the divisor only where it is the divisor. -/
lemma same_div (hz : z.same z' = true) (hw : w.same w' = true)
    (hre : w.isReal = true → w.re = w'.re) : (z / w).same (z' / w') = true := by
  have hdiv (z w : Complex) : z / w = Complex.div z w := rfl
  have hlength := Binary64.fusedMulAdd_self_eq (same_iff.1 hw).1 (same_iff.1 hw).2
  rw [hdiv, hdiv]
  simp only [Complex.div, ← isReal_eq_of_same hz, ← isReal_eq_of_same hw, hlength]
  rw [same_iff] at hz hw
  split
  · rename_i hreal
    rw [Bool.and_eq_true] at hreal
    rw [hre hreal.1]
    exact same_iff.2 ⟨Binary64.same_div hz.1 w'.re, Binary64.same_refl 0⟩
  · refine same_iff.2 ⟨Binary64.same_div ?_ _, Binary64.same_div ?_ _⟩
    · exact Binary64.same_fusedMulAdd hz.1 hw.1 (Binary64.same_mul hz.2 hw.2)
    · exact Binary64.same_fusedMulAdd hz.2 hw.1 (Binary64.same_neg (Binary64.same_mul hz.1 hw.2))

lemma re_eq_of_isReal (hw : w.same w' = true) (hzero : w.isZero = false) (hreal : w.isReal = true) :
    w.re = w'.re := by
  refine Binary64.eq_of_same (same_iff.1 hw).1 ?_
  have him : (w.im == 0) = true := hreal
  rwa [isZero, him, Bool.and_true] at hzero

lemma abs_eq (hz : z.same z' = true) : z.abs = z'.abs :=
  Binary64.hypot_eq (same_iff.1 hz).1 (same_iff.1 hz).2

lemma same_conj (hz : z.same z' = true) : z.conj.same z'.conj = true :=
  same_iff.2 ⟨(same_iff.1 hz).1, Binary64.same_neg (same_iff.1 hz).2⟩

lemma same_recip (hz : z.same z' = true) : z.recip.same z'.recip = true := by
  rw [same_iff] at hz
  simp only [recip, Binary64.mul_self_eq hz.1, Binary64.mul_self_eq hz.2]
  exact same_iff.2 ⟨Binary64.same_div hz.1 _, Binary64.same_neg (Binary64.same_div hz.2 _)⟩

lemma same_squaring (hz : z.same z' = true) (hw : w.same w' = true) (n : Nat) :
    (squaring z w n).same (squaring z' w' n) = true := by
  induction n using Nat.strong_induction_on generalizing z z' w w' with
  | _ n ih =>
  by_cases hn : n = 0
  · have hdone (z w : Complex) : squaring z w n = w := by rw [squaring, dif_pos hn]
    rw [hdone, hdone]
    exact hw
  · have hturn (z w : Complex) :
        squaring z w n = squaring (z * z) (if n % 2 = 1 then w * z else w) (n / 2) := by
      rw [squaring, dif_neg hn]
    rw [hturn, hturn]
    refine ih (n / 2) (Nat.div_lt_self (Nat.pos_of_ne_zero hn) (by decide)) (same_mul hz hz) ?_
    split
    · exact same_mul hw hz
    · exact hw

/-- A power with an integral exponent is a product or the reciprocal of one. -/
lemma same_powInt (hz : z.same z' = true) (n : Int) : (z.powInt n).same (z'.powInt n) = true := by
  have hpower := same_squaring hz one.same_refl n.natAbs
  simp only [powInt]
  split
  · exact same_recip hpower
  · exact hpower

/-- A number is written without the sign of a zero. -/
lemma write_eq (hz : z.same z' = true) : z.write = z'.write := by
  rw [same_iff] at hz
  simp only [write, Binary64.isZero_eq_of_same hz.1, Binary64.isZero_eq_of_same hz.2]
  split
  · rw [Binary64.add_zero_eq hz.1]
  · rename_i him
    have himeq : z.im = z'.im := by
      refine Binary64.eq_of_same hz.2 ?_
      rw [Binary64.isZero_eq_of_same hz.2]
      simpa using him
    split
    · rw [himeq]
    · rename_i hre
      have hreeq : z.re = z'.re := by
        refine Binary64.eq_of_same hz.1 ?_
        rw [Binary64.isZero_eq_of_same hz.1]
        simpa using hre
      rw [himeq, hreeq]

/-! ### The square root -/

/-- Whether a number is not on the branch cut of the square root, the negative real axis. -/
def IsOffCut (z : Complex) : Prop :=
  z.isReal = true → ¬ z.re < 0

/-- Away from its branch cut the square root looks at no sign of a zero. -/
lemma same_sqrt (hz : z.same z' = true) (hcut : z.IsOffCut) : z.sqrt.same z'.sqrt = true := by
  rw [same_iff] at hz
  simp only [sqrt, ← Binary64.hypot_eq hz.1 hz.2]
  have hdifference := Binary64.same_sub (Binary64.same_refl (Binary64.hypot z.re z.im)) hz.1
  have hheight := Binary64.same_sqrt (Binary64.same_div hdifference 2)
  refine same_iff.2 ⟨?_, ?_⟩
  · exact Binary64.same_sqrt (Binary64.same_midpoint (Binary64.same_refl _) hz.1)
  rw [← Binary64.copySign_eq hheight]
  rcases Binary64.cases_same hz.2 with him | ⟨t, t', ht, -⟩
  · rw [him]
    exact Binary64.same_refl _
  · -- On the real axis the height is a zero, since the number is its own length.
    have hzero : Binary64.isZero (Binary64.view z.im) = true := by rw [ht]; rfl
    have hlength := Binary64.same_hypot_zero (hcut ((Binary64.beq_zero _).trans hzero)) hzero
    have hself := Binary64.same_sub hlength (Binary64.same_refl z.re)
    have hheight' := Binary64.same_sqrt (Binary64.same_div hself 2)
    have hroot : ((0 : Float) / 2).sqrt = 0 ∧ (Binary64.nan / 2).sqrt = Binary64.nan := by
      decide +kernel
    refine Binary64.same_copySign ?_
    rcases Binary64.sub_self_cases z.re with h | h
    · rw [h, hroot.1] at hheight'
      exact .inl hheight'
    · rw [h, hroot.2] at hheight'
      exact .inr hheight'

end Complex

end Reckoner
