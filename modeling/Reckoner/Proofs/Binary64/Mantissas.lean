import Mathlib
import Reckoner.Binary64.Basic

/-!
# Mantissas that stand for rationals

A finite double is a mantissa of at most fifty-three bits and an exponent, and its bits are told by
its view. On the way to a double the mantissa of a rational is shifted to its place, and what is
shifted out is remembered as a fraction. `Rounds v m e` says that the rational `v` lies in the
interval of `m · 2 ^ e`.
-/

namespace Reckoner.Binary64

open Float.Model (UnpackedFloat Format totalExponent)
open Float.Model.UnpackedFloat

/-! ### Bits and views -/

/-- Whether a mantissa and an exponent are those of a double. -/
structure IsDouble (m : Nat) (e : Int) : Prop where
  mantissa_lt : m < 2 ^ 53
  exponent_ge : -1074 ≤ e
  exponent_le : e ≤ 971
  normal_or_least : 2 ^ 52 ≤ m ∨ e = -1074

lemma sign_packComponents (s : Sign) (e : BitVec 11) (m : BitVec 52) :
    Sign.ofBitVec (unpackSign (packComponents Format.binary64 s e m)) = s := by
  have hbit : unpackSign (packComponents Format.binary64 s e m) = s.toBitVec := by
    unfold unpackSign packComponents
    simp only [BitVec.extractLsb]
    ext i hi
    grind
  rw [hbit]
  cases s <;> rfl

/-- The bits of a double are those of its three parts. -/
lemma packComponents_parts (b : BitVec Format.binary64.numBits) :
    packComponents Format.binary64 (Sign.ofBitVec (unpackSign b)) (unpackExponent b)
      (unpackMantissa b) = b := by
  have hsign : (Sign.ofBitVec (unpackSign b)).toBitVec = unpackSign b := by
    generalize unpackSign b = bit
    revert bit
    decide
  unfold packComponents
  rw [hsign]
  simp only [unpackSign, unpackExponent, unpackMantissa, BitVec.extractLsb]
  ext i hi
  grind

lemma toNat_implicit (m : BitVec 52) : (1#1 ++ m).toNat = 2 ^ 52 + m.toNat := by
  have hm : m.toNat < 2 ^ 52 := m.isLt
  rw [BitVec.toNat_append, ← Nat.shiftLeft_add_eq_or_of_lt hm]
  rfl

lemma isDouble_of_unpack {b : BitVec Format.binary64.numBits} {s : Sign} {m : Nat} {e : Int}
    {hm : 0 < m} (h : unpack Format.binary64 b = .finite s m e hm) : IsDouble m e := by
  have hexponent : (unpackExponent b).toNat < 2 ^ 11 := (unpackExponent b).isLt
  have hmantissa : (unpackMantissa b).toNat < 2 ^ 52 := (unpackMantissa b).isLt
  simp only [unpack] at h
  split at h
  · split at h <;> cases h
  · rename_i hinfinite
    have hlt : (unpackExponent b).toNat ≠ 2 ^ 11 - 1 := by
      intro heq
      exact hinfinite (BitVec.eq_of_toNat_eq heq)
    split at h
    · rename_i hzero
      split at h
      · cases h
      · injection h with _ hmant hexp
        have hleast : (-1074 : Int) = e := by
          rw [← hexp, hzero]
          rfl
        exact ⟨by omega, by omega, by omega, .inr hleast.symm⟩
    · rename_i hzero
      injection h with _ hmant hexp
      have hpos : (unpackExponent b).toNat ≠ 0 := by
        intro heq
        exact hzero (BitVec.eq_of_toNat_eq heq)
      have hbias : ((unpackExponent b).toNat : Int) - 1075 = e := hexp
      rw [toNat_implicit] at hmant
      exact ⟨by omega, by omega, by omega, .inl (by omega)⟩

lemma unpack_packComponents (s : Sign) (e : BitVec 11) (m : BitVec 52) :
    unpack Format.binary64 (packComponents Format.binary64 s e m)
      = if e = -1#11 then if m = 0#52 then .infinity s else .notANumber
        else if e = 0#11 then
          if h : m = 0#52 then .zero s
          else .finite s m.toNat (-1074) (by simpa [BitVec.toNat_pos, BitVec.pos_iff_ne_zero])
        else .finite s (1#1 ++ m).toNat (e.toNat - 1075) (by rw [toNat_implicit]; omega) := by
  simp only [unpack, unpackMantissa_packComponents, unpackExponent_packComponents,
    sign_packComponents]
  by_cases he : e = 0#11
  · subst he
    rfl
  · simp only [he, if_false]
    rfl

lemma pack_finite {s : Sign} {m : Nat} {e : Int} {hm : 0 < m} (h : IsDouble m e) :
    pack Format.binary64 (.finite s m e hm)
      = if m.log2 + 1 = 53 then
          packComponents Format.binary64 s (BitVec.ofNat 11 (e + 1023 + 52).toNat)
            (BitVec.ofNat 52 m)
        else packComponents Format.binary64 s 0#11 (BitVec.ofNat 52 m) := by
  have hfits : ¬ 2 ^ 11 ≤ (e + 1023 + 52).toNat + 1 := by
    have hle := h.exponent_le
    omega
  exact if_neg hfits

/-- A view in canonical form survives being packed. -/
lemma view_ofView {s : Sign} {m : Nat} {e : Int} {hm : 0 < m} (h : IsDouble m e) :
    view (ofView (.finite s m e hm)) = .finite s m e hm := by
  change unpack Format.binary64 (pack Format.binary64 (.finite s m e hm)) = _
  rw [pack_finite h]
  obtain ⟨hlt, hge, hle, hnormal⟩ := h
  by_cases hm52 : 2 ^ 52 ≤ m
  · have hlog : m.log2 + 1 = 53 := by
      rw [(Nat.log2_eq_iff hm.ne').2 ⟨hm52, hlt⟩]
    have hexponent : (BitVec.ofNat 11 (e + 1023 + 52).toNat).toNat = (e + 1023 + 52).toNat := by
      rw [BitVec.toNat_ofNat]
      omega
    have hmantissa : (1#1 ++ BitVec.ofNat 52 m).toNat = m := by
      rw [toNat_implicit, BitVec.toNat_ofNat]
      omega
    rw [if_pos hlog, unpack_packComponents, if_neg, if_neg]
    · congr 1
      omega
    · intro hzero
      rw [hzero] at hexponent
      simp at hexponent
      omega
    · intro hones
      rw [hones] at hexponent
      simp at hexponent
      omega
  · have hlog : ¬ m.log2 + 1 = 53 := by
      have hlog : m.log2 < 52 := (Nat.log2_lt hm.ne').2 (by omega)
      omega
    have hmantissa : (BitVec.ofNat 52 m).toNat = m := by
      rw [BitVec.toNat_ofNat]
      omega
    have hnonzero : BitVec.ofNat 52 m ≠ 0#52 := by
      intro hzero
      rw [hzero] at hmantissa
      simp at hmantissa
      omega
    obtain rfl : e = -1074 := by omega
    rw [if_neg hlog, unpack_packComponents, if_neg (by decide), if_pos rfl,
      dif_neg hnonzero]
    congr 1

/-- A double is what its view stands for. -/
lemma pack_unpack {b : BitVec Format.binary64.numBits} (hb : Format.binary64.Valid b) :
    pack Format.binary64 (unpack Format.binary64 b) = b := by
  have hparts := packComponents_parts b
  have hvalid := hb.eq_packedNaN
  generalize Sign.ofBitVec (unpackSign b) = s at hparts
  generalize unpackExponent b = e at hparts hvalid
  generalize unpackMantissa b = m at hparts hvalid
  subst hparts
  rw [unpack_packComponents]
  by_cases hones : e = -1#11
  · rw [if_pos hones]
    by_cases hm : m = 0#52
    · rw [if_pos hm, hones, hm]
      rfl
    · rw [if_neg hm]
      exact (hvalid hones hm).symm
  · have hfinite : ∀ {t n f} {hn : 0 < n},
        unpack Format.binary64 (packComponents Format.binary64 s e m) = .finite t n f hn →
          IsDouble n f := isDouble_of_unpack
    rw [unpack_packComponents, if_neg hones] at hfinite
    rw [if_neg hones]
    by_cases hzero : e = 0#11
    · rw [if_pos hzero] at hfinite ⊢
      by_cases hm : m = 0#52
      · rw [dif_pos hm, hzero, hm]
        rfl
      · rw [dif_neg hm] at hfinite ⊢
        have hlog : ¬ m.toNat.log2 + 1 = 53 := by
          have hlog : m.toNat.log2 < 52 := by
            refine (Nat.log2_lt ?_).2 m.isLt
            intro h
            exact hm (BitVec.eq_of_toNat_eq h)
          omega
        rw [pack_finite (hfinite rfl), if_neg hlog, BitVec.ofNat_toNat, hzero]
        rfl
    · rw [if_neg hzero] at hfinite ⊢
      have hm : m.toNat < 2 ^ 52 := m.isLt
      have hlog52 : (2 ^ 52 + m.toNat).log2 = 52 :=
        (Nat.log2_eq_iff (by omega)).2 ⟨by omega, by omega⟩
      have hlog : (1#1 ++ m).toNat.log2 + 1 = 53 := by
        rw [toNat_implicit, hlog52]
      have hexponent : ((e.toNat : Int) - 1075 + 1023 + 52).toNat = e.toNat := by omega
      have hmantissa : BitVec.ofNat 52 (1#1 ++ m).toNat = m := by
        apply BitVec.eq_of_toNat_eq
        rw [BitVec.toNat_ofNat, toNat_implicit]
        omega
      rw [pack_finite (hfinite rfl), if_pos hlog, hexponent, hmantissa, BitVec.ofNat_toNat]
      rfl

@[simp]
lemma ofView_view (x : Float) : ofView (view x) = x := by
  obtain ⟨⟨bits, valid⟩⟩ := x
  have hbits : UInt64.ofBitVec (pack Format.binary64 (unpack Format.binary64 bits.toBitVec))
      = bits := congrArg UInt64.ofBitVec (pack_unpack valid)
  unfold ofView view Float.Model.pack Float.Model.unpack
  simp only [hbits]

/-! ### Mantissas with a fraction -/

/-- Whether a mantissa with two further bits stands for the fraction `n / d`. -/
structure Represents (em : ExtendedMantissa) (n d : Nat) : Prop where
  mantissa : em.mantissa = n / d
  roundBit : em.roundBit = decide (d ≤ 2 * (n % d))
  stickyBit : em.stickyBit = decide (2 * n % d ≠ 0)

namespace Represents

lemma ofFraction (n d : Nat) (hd : 0 < d) :
    Represents (.ofMantissaAndAccuracy (n / d) (accuracyOfFraction (n % d) d)) n d := by
  have hmod : n % d < d := Nat.mod_lt n hd
  have htwice : 2 * n % d = 2 * (n % d) % d := by rw [Nat.mul_mod_mod]
  unfold accuracyOfFraction
  by_cases hzero : n % d = 0
  · rw [if_pos hzero]
    refine ⟨rfl, ?_, ?_⟩
    · simp only [hzero, Nat.mul_zero]
      simpa [ExtendedMantissa.ofMantissaAndAccuracy] using hd.ne'
    · simp [ExtendedMantissa.ofMantissaAndAccuracy, htwice, hzero]
  · rw [if_neg hzero]
    rcases Nat.lt_trichotomy (2 * (n % d)) d with hlt | heq | hgt
    · rw [Nat.compare_eq_lt.2 hlt]
      refine ⟨rfl, ?_, ?_⟩
      · simpa [ExtendedMantissa.ofMantissaAndAccuracy] using hlt
      · rw [htwice, Nat.mod_eq_of_lt hlt]
        simpa [ExtendedMantissa.ofMantissaAndAccuracy] using hzero
    · rw [Nat.compare_eq_eq.2 heq]
      refine ⟨rfl, ?_, ?_⟩
      · simpa [ExtendedMantissa.ofMantissaAndAccuracy] using heq.ge
      · simp [ExtendedMantissa.ofMantissaAndAccuracy, htwice, heq]
    · rw [Nat.compare_eq_gt.2 hgt]
      refine ⟨rfl, ?_, ?_⟩
      · simpa [ExtendedMantissa.ofMantissaAndAccuracy] using hgt.le
      · rw [htwice, Nat.mod_eq_sub_mod hgt.le, Nat.mod_eq_of_lt (by omega)]
        simp [ExtendedMantissa.ofMantissaAndAccuracy]
        omega

lemma shiftRightOne {em : ExtendedMantissa} {n d : Nat} (h : Represents em n d) (hd : 0 < d) :
    Represents em.shiftRightOne n (2 * d) := by
  have hdiv : n / (2 * d) = n / d / 2 := by rw [Nat.div_div_eq_div_mul, Nat.mul_comm]
  have hmod : n % (2 * d) = n % d + d * (n / d % 2) := by rw [Nat.mul_comm 2, Nat.mod_mul]
  have hlt : n % d < d := Nat.mod_lt n hd
  refine ⟨?_, ?_, ?_⟩
  · rw [hdiv, ← h.mantissa]
    rfl
  · change (em.mantissa % 2 != 0) = _
    rw [h.mantissa, hmod]
    rcases Nat.mod_two_eq_zero_or_one (n / d) with hq | hq
    · rw [hq]
      simp
      omega
    · rw [hq]
      simp
  · change (em.roundBit || em.stickyBit) = _
    rw [h.roundBit, h.stickyBit, Nat.mul_mod_mul_left]
    have htwice : 2 * n % d = 2 * (n % d) % d := by rw [Nat.mul_mod_mod]
    rw [htwice]
    by_cases hround : d ≤ 2 * (n % d)
    · have hzero : n % d ≠ 0 := by omega
      simp [hround, hzero]
    · have hsmall : 2 * (n % d) % d = 2 * (n % d) := Nat.mod_eq_of_lt (by omega)
      rw [hsmall]
      simp [hround]

lemma shiftRight {em : ExtendedMantissa} {n d : Nat} (h : Represents em n d) (hd : 0 < d)
    (k : Nat) : Represents (em >>> k) n (2 ^ k * d) := by
  induction k with
  | zero =>
    rw [pow_zero, one_mul]
    exact h
  | succ k ih =>
    rw [pow_succ', mul_assoc]
    exact ih.shiftRightOne (by positivity)

/-- The fraction is rounded to the nearest natural, a tie to the even one. -/
lemma roundedMantissa {em : ExtendedMantissa} {n d m : Nat} (h : Represents em n d) (hd : 0 < d)
    (hlower : 2 * (m * d) ≤ 2 * n + d) (hupper : 2 * n ≤ 2 * (m * d) + d)
    (htie : m % 2 = 0 ∨ 2 * (m * d) < 2 * n + d ∧ 2 * n < 2 * (m * d) + d) :
    em.roundedMantissa = m := by
  obtain ⟨mantissa, roundBit, stickyBit⟩ := em
  obtain ⟨hmantissa, hround, hsticky⟩ := h
  simp only at hmantissa hround hsticky
  have hsplit : n = n / d * d + n % d := (Nat.div_add_mod' n d).symm
  have hmod : n % d < d := Nat.mod_lt n hd
  have htwice : 2 * n % d = 2 * (n % d) % d := by rw [Nat.mul_mod_mod]
  rw [htwice] at hsticky
  rw [← hmantissa] at hsplit
  generalize n % d = r at *
  have hm : m = mantissa ∨ m = mantissa + 1 := by
    have h₁ : m < mantissa + 2 := by
      by_contra hge
      have : (mantissa + 2) * d ≤ m * d := Nat.mul_le_mul_right d (by omega)
      rw [add_mul] at this
      omega
    have h₂ : mantissa ≤ m := by
      by_contra hlt
      have : (m + 1) * d ≤ mantissa * d := Nat.mul_le_mul_right d (by omega)
      rw [add_mul] at this
      omega
    omega
  rcases hm with rfl | rfl
  · by_cases hhalf : d ≤ 2 * r
    · have heq : 2 * r = d := by omega
      rw [heq, Nat.mod_self] at hsticky
      simp only [hhalf, decide_true, ne_eq, not_true_eq_false, decide_false] at hround hsticky
      subst hround hsticky
      simp only [ExtendedMantissa.roundedMantissa, ExtendedMantissa.accuracy,
        Accuracy.roundToNearestEven]
      omega
    · simp only [hhalf, decide_false] at hround
      subst hround
      cases stickyBit <;> rfl
  · rw [add_mul] at hlower hupper htie
    have hhalf : d ≤ 2 * r := by omega
    simp only [hhalf, decide_true] at hround
    subst hround
    cases stickyBit with
    | true => rfl
    | false =>
      have hzero : 2 * r % d = 0 := by simpa using hsticky
      rw [Nat.mod_eq_sub_mod hhalf, Nat.mod_eq_of_lt (by omega)] at hzero
      simp only [ExtendedMantissa.roundedMantissa, ExtendedMantissa.accuracy,
        Accuracy.roundToNearestEven]
      omega

end Represents

end Reckoner.Binary64
