import Mathlib.Data.List.TakeWhile
import Reckoner.Decimal.Text
import Reckoner.Proofs.Binary64.Rounding

/-!
# Decimals are read to the nearest double

A decimal in the interval of a double is read as that double, whichever way its digits and its
exponent are put together.
-/

namespace Reckoner

open Float.Model (UnpackedFloat Format)
open Float.Model.UnpackedFloat
open Binary64 (IsDouble Rounds reach view ofView)

namespace Binary64

/-! ### Reading a decimal -/

lemma Rounds.coefficient_pos {c m : Nat} {k e : Int} (hm : 0 < m) (hv : Rounds (c * 10 ^ k) m e) :
    0 < c := by
  by_contra hzero
  have hpos : (0 : ℚ) < m * 2 ^ (e - 1) := mul_pos (by exact_mod_cast hm) (zpow_pos two_pos _)
  have hge := hv.ge hm
  rw [Nat.eq_zero_of_not_pos hzero, Nat.cast_zero, zero_mul] at hge
  exact absurd hpos (not_lt.2 hge)

lemma ten_zpow_le_of_rounds {c m : Nat} {k e : Int} (hc : 0 < c) (hdouble : IsDouble m e)
    (hv : Rounds (c * 10 ^ k) m e) : k ≤ 2048 := by
  by_contra hk
  have hone : (1 : ℚ) ≤ c := by exact_mod_cast hc
  have hlt : (10 : ℚ) ^ (2048 : Int) < 2 ^ (1024 : Int) := by
    calc (10 : ℚ) ^ (2048 : Int) ≤ 10 ^ k := zpow_le_zpow_right₀ (by norm_num) (by omega)
      _ ≤ c * 10 ^ k := le_mul_of_one_le_left (by positivity) hone
      _ < 2 ^ (53 + e) := hv.lt hdouble
      _ ≤ 2 ^ (1024 : Int) := zpow_le_zpow_right₀ one_le_two (by have := hdouble.exponent_le; omega)
  have hge : (2 : ℚ) ^ (1024 : Int) ≤ 10 ^ (2048 : Int) :=
    (zpow_le_zpow_right₀ one_le_two (by norm_num)).trans
      (zpow_le_zpow_left₀ (by norm_num) two_pos.le (by norm_num))
  exact absurd hlt (not_lt.2 hge)

lemma le_ten_zpow_of_rounds {c m : Nat} {k e : Int} (hm : 0 < m) (hdouble : IsDouble m e)
    (hv : Rounds (c * 10 ^ k) m e) : -((2048 : Int) + c.log2) ≤ k := by
  by_contra hk
  have hone : (1 : ℚ) ≤ m := by exact_mod_cast hm
  have hlog : (c : ℚ) < 2 ^ ((c.log2 : Int) + 1) := by
    have hlt : c < 2 ^ (c.log2 + 1) := Nat.lt_log2_self
    exact_mod_cast hlt
  have hten : (10 : ℚ) ^ k ≤ 2 ^ k := by
    obtain ⟨j, hj⟩ : ∃ j : Nat, k = -j := ⟨(-k).toNat, by omega⟩
    rw [hj, zpow_neg, zpow_neg, zpow_natCast, zpow_natCast]
    exact inv_anti₀ (by positivity) (pow_le_pow_left₀ two_pos.le (by norm_num) j)
  have hlt : (2 : ℚ) ^ (-1075 : Int) < 2 ^ ((c.log2 : Int) + 1 + k) := by
    calc (2 : ℚ) ^ (-1075 : Int) ≤ 2 ^ (e - 1) :=
          zpow_le_zpow_right₀ one_le_two (by have := hdouble.exponent_ge; omega)
      _ ≤ m * 2 ^ (e - 1) := le_mul_of_one_le_left (zpow_pos two_pos _).le hone
      _ ≤ c * 10 ^ k := hv.ge hm
      _ ≤ c * 2 ^ k := mul_le_mul_of_nonneg_left hten (Nat.cast_nonneg c)
      _ < 2 ^ ((c.log2 : Int) + 1) * 2 ^ k := mul_lt_mul_of_pos_right hlog (zpow_pos two_pos k)
      _ = 2 ^ ((c.log2 : Int) + 1 + k) := (zpow_add₀ two_ne_zero _ _).symm
  have := (zpow_lt_zpow_iff_right₀ one_lt_two).1 hlt
  omega

/-- A decimal in the interval of a double is converted to it. -/
lemma ofScientific_eq {c m : Nat} {k e : Int} (hm : 0 < m) (hdouble : IsDouble m e)
    (hv : Rounds (c * 10 ^ k) m e) :
    UnpackedFloat.ofScientific Format.binary64 c k = .finite .positive m e hm := by
  have hc := hv.coefficient_pos hm
  have hhigh := ten_zpow_le_of_rounds hc hdouble hv
  have hlow := le_ten_zpow_of_rounds hm hdouble hv
  have hbits : Format.binary64.mantissaBits = 53 := rfl
  have hrange : ((2 : Int) ^ Format.binary64.exponentBits) = 2048 := rfl
  unfold UnpackedFloat.ofScientific
  rw [dif_neg hc.ne', if_neg (by rw [hrange]; omega), if_neg (by rw [hrange]; omega)]
  by_cases hk : 0 ≤ k
  · rw [if_pos hk]
    obtain ⟨j, rfl⟩ := Int.eq_ofNat_of_zero_le hk
    refine mul_eq hdouble ?_ (.inl ?_)
    · have hscale : ((c <<< Format.binary64.mantissaBits : Nat) * (10 ^ (j : Int).toNat : Nat)
          * 2 ^ (-(Format.binary64.mantissaBits : Int) + 0) : ℚ) = c * 10 ^ (j : Int) := by
        rw [hbits, Nat.shiftLeft_eq, Int.toNat_natCast, add_zero, zpow_neg, zpow_natCast,
          zpow_natCast]
        push_cast
        field_simp
        norm_num
      rwa [hscale]
    · refine (Nat.le_log2 ?_).2 ?_
      · rw [Nat.shiftLeft_eq]
        positivity
      · rw [hbits, Nat.shiftLeft_eq]
        calc 2 ^ 52 ≤ 1 * 2 ^ 53 * 1 := by norm_num
          _ ≤ c * 2 ^ 53 * 10 ^ (j : Int).toNat :=
              Nat.mul_le_mul (Nat.mul_le_mul_right _ hc) (Nat.one_le_pow _ _ (by norm_num))
  · rw [if_neg hk]
    obtain ⟨j, hj⟩ : ∃ j : Nat, k = -j := ⟨(-k).toNat, by omega⟩
    subst hj
    refine div_eq hdouble ?_
    have hscale : ((c : ℚ) / (10 ^ (-(-(j : Int))).toNat : Nat) * 2 ^ ((0 : Int) - 0))
        = c * 10 ^ (-(j : Int)) := by
      rw [neg_neg, Int.toNat_natCast, sub_zero, zpow_zero, zpow_neg, zpow_natCast]
      push_cast
      ring
    rwa [hscale]

/-- Whether a double is exactly a power of ten. -/
def isPowerOfTen (x : Float) (j : Nat) : Bool :=
  match view x with
  | .finite .positive p f _ => p * 2 ^ f.toNat == 10 ^ j * 2 ^ (-f).toNat
  | _ => false

lemma isPowerOfTen_powersOfTen :
    ∀ j : Fin Float.exactlyRepresentablePowersOfTen.size,
      isPowerOfTen Float.exactlyRepresentablePowersOfTen[j] j = true := by
  decide +kernel

lemma eq_of_isPowerOfTen {x : Float} {j : Nat} (h : isPowerOfTen x j = true) :
    ∃ p f, ∃ hp : 0 < p, view x = .finite .positive p f hp ∧ (p * 2 ^ f : ℚ) = 10 ^ j := by
  unfold isPowerOfTen at h
  split at h
  · rename_i p f hp hview
    refine ⟨p, f, hp, hview, ?_⟩
    have hnat : (p * 2 ^ f.toNat : ℚ) = 10 ^ j * 2 ^ (-f).toNat := by exact_mod_cast eq_of_beq h
    have hsplit : (2 : ℚ) ^ f * 2 ^ (-f).toNat = 2 ^ f.toNat := by
      rw [← zpow_natCast, ← zpow_natCast, ← zpow_add₀ two_ne_zero]
      congr 1
      omega
    have hpos : (0 : ℚ) < 2 ^ (-f).toNat := by positivity
    refine mul_right_cancel₀ hpos.ne' ?_
    rw [mul_assoc, hsplit, hnat]
  · cases h

lemma toFloat_eq {n : Nat} (hn : 0 < n) (hlt : n < 2 ^ 53) :
    ∃ m e, ∃ hm : 0 < m, view n.toUInt64.toFloat = .finite .positive m e hm
      ∧ 2 ^ 52 ≤ m ∧ (m * 2 ^ e : ℚ) = n := by
  obtain ⟨m, e, hm, hnormal, hdouble, hlow, hvalue⟩ := normalize_natCast hn hlt
  refine ⟨m, e, hm, ?_, hlow, hvalue⟩
  have hnat : n.toUInt64.toNat = n := by
    rw [Nat.toUInt64_eq, UInt64.toNat_ofNat']
    omega
  have hfloat : n.toUInt64.toFloat
      = ofView (UnpackedFloat.normalize Format.binary64 (n.toUInt64.toNat : Nat) 0 .positive) := rfl
  rw [hfloat, hnat, hnormal, view_ofView hdouble]

end Binary64

namespace Decimal

/-- A decimal in the interval of a double is read as that double. -/
lemma ofDecimal_eq {c m : Nat} {k e : Int} (hm : 0 < m) (hdouble : IsDouble m e)
    (hv : Rounds (c * 10 ^ k) m e) : ofDecimal c k = ofView (.finite .positive m e hm) := by
  have hc := hv.coefficient_pos hm
  have hslow := congrArg ofView (Binary64.ofScientific_eq hm hdouble hv)
  cases k with
  | ofNat j =>
    rw [ofDecimal, Float.ofScientific]
    split
    · rename_i hsmall
      obtain ⟨n, f, hn, hview, hlow, hvalue⟩ := Binary64.toFloat_eq hc hsmall.1
      have htable := Binary64.isPowerOfTen_powersOfTen ⟨j, Nat.lt_succ_of_le hsmall.2⟩
      obtain ⟨p, g, hp, hpower, hten⟩ := Binary64.eq_of_isPowerOfTen htable
      have hmul : mul Format.binary64 (.finite .positive n f hn) (.finite .positive p g hp)
          = .finite .positive m e hm := by
        refine Binary64.mul_eq hdouble ?_ (.inl ?_)
        · have hscale : (n * p * 2 ^ (f + g) : ℚ) = c * 10 ^ (Int.ofNat j) := by
            rw [zpow_add₀ two_ne_zero, Int.ofNat_eq_natCast, zpow_natCast, ← hvalue]
            simp only at hten
            rw [← hten]
            ring
          rwa [hscale]
        · refine (Nat.le_log2 (by positivity)).2 (hlow.trans (Nat.le_mul_of_pos_right n hp))
      rw [← hview, ← hpower] at hmul
      exact congrArg ofView hmul
    · exact hslow
  | negSucc j =>
    rw [ofDecimal, Float.ofScientific]
    split
    · rename_i hsmall
      obtain ⟨n, f, hn, hview, hlow, hvalue⟩ := Binary64.toFloat_eq hc hsmall.1
      have htable := Binary64.isPowerOfTen_powersOfTen ⟨j + 1, Nat.lt_succ_of_le hsmall.2⟩
      obtain ⟨p, g, hp, hpower, hten⟩ := Binary64.eq_of_isPowerOfTen htable
      have hdiv : div Format.binary64 (.finite .positive n f hn) (.finite .positive p g hp)
          = .finite .positive m e hm := by
        refine Binary64.div_eq hdouble ?_
        have hscale : (n / p * 2 ^ (f - g) : ℚ) = c * 10 ^ (Int.negSucc j) := by
          rw [zpow_sub₀ two_ne_zero, zpow_negSucc, ← hvalue]
          simp only at hten
          rw [← hten]
          ring
        rwa [hscale]
      rw [← hview, ← hpower] at hdiv
      exact congrArg ofView hdiv
    · exact hslow

end Decimal

end Reckoner
