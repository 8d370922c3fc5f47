import Reckoner.Proofs.Binary64.Mantissas

/-!
# Rounding to the nearest double

Every rational of the interval around a finite double rounds to it, and so do the product and the
quotient of two doubles that lie in the interval.
-/

namespace Reckoner.Binary64

open Float.Model (UnpackedFloat Format totalExponent)
open Float.Model.UnpackedFloat

/-- How far the interval of a double reaches down, in quarters of its unit. -/
def reach (m : Nat) (e : Int) : Nat :=
  if m = 2 ^ 52 ∧ e ≠ -1074 then 1 else 2

/-- Whether a rational lies in the interval of a double, the ends included for an even mantissa. -/
structure Rounds (v : ℚ) (m : Nat) (e : Int) : Prop where
  lower : (4 * m - reach m e : ℚ) * 2 ^ (e - 2) ≤ v
  upper : v ≤ (4 * m + 2 : ℚ) * 2 ^ (e - 2)
  tie : m % 2 = 0 ∨ (4 * m - reach m e : ℚ) * 2 ^ (e - 2) < v ∧ v < (4 * m + 2 : ℚ) * 2 ^ (e - 2)

lemma two_pow_mul_zpow (n : Nat) (e : Int) : (2 : ℚ) ^ n * 2 ^ e = 2 ^ (n + e) := by
  rw [zpow_add₀ two_ne_zero, zpow_natCast]

lemma target_eq (n : Nat) (e : Int) :
    Format.binary64.targetExponent (totalExponent n e) = max (n.log2 + e - 52) (-1074) := by
  simp only [Format.targetExponent, totalExponent, Format.mantissaBits, Format.minExponent]
  omega

/-- The interval of a double is below the next power of two but one. -/
lemma Rounds.lt {v : ℚ} {m : Nat} {e : Int} (hdouble : IsDouble m e) (hv : Rounds v m e) :
    v < 2 ^ (53 + e) := by
  have hm : (4 * m + 2 : ℚ) < 2 ^ 55 := by
    have hlt : 4 * m + 2 < 2 ^ 55 := by
      have := hdouble.mantissa_lt
      omega
    exact_mod_cast hlt
  calc v ≤ (4 * m + 2 : ℚ) * 2 ^ (e - 2) := hv.upper
    _ < 2 ^ 55 * 2 ^ (e - 2) := mul_lt_mul_of_pos_right hm (zpow_pos two_pos _)
    _ = 2 ^ (53 + e) := by
      rw [two_pow_mul_zpow]
      congr 1
      ring

/-- The interval of a double is above half of it. -/
lemma Rounds.ge {v : ℚ} {m : Nat} {e : Int} (hm : 0 < m) (hv : Rounds v m e) :
    m * 2 ^ (e - 1) ≤ v := by
  have hreach : (reach m e : ℚ) ≤ 2 * m := by
    have hreach : reach m e ≤ 2 * m := by
      unfold reach
      split <;> omega
    exact_mod_cast hreach
  calc (m : ℚ) * 2 ^ (e - 1) = 2 * m * 2 ^ (e - 2) := by
        rw [show e - 1 = e - 2 + 1 by ring, zpow_add_one₀ two_ne_zero]
        ring
    _ ≤ (4 * m - reach m e) * 2 ^ (e - 2) :=
        mul_le_mul_of_nonneg_right (by linarith) (zpow_pos two_pos _).le
    _ ≤ v := hv.lower

lemma zpow_log2_le {q : Nat} (hq : q ≠ 0) (k : Int) : (2 : ℚ) ^ (q.log2 + k) ≤ q * 2 ^ k := by
  have hlog : (2 : ℚ) ^ q.log2 ≤ q := by exact_mod_cast Nat.log2_self_le hq
  rw [← two_pow_mul_zpow]
  exact mul_le_mul_of_nonneg_right hlog (zpow_pos two_pos _).le

lemma succ_mul_zpow_le (q : Nat) (k : Int) : ((q : ℚ) + 1) * 2 ^ k ≤ 2 ^ (q.log2 + k + 1) := by
  have hlog : (q + 1 : ℚ) ≤ 2 ^ (q.log2 + 1) := by exact_mod_cast Nat.lt_log2_self
  calc ((q : ℚ) + 1) * 2 ^ k ≤ 2 ^ (q.log2 + 1) * 2 ^ k :=
        mul_le_mul_of_nonneg_right hlog (zpow_pos two_pos _).le
    _ = 2 ^ (q.log2 + k + 1) := by
      rw [two_pow_mul_zpow]
      congr 1
      push_cast
      ring

/-- A rational below the normal doubles of an exponent lies in the interval of none of them but the
first one. -/
lemma Rounds.mantissa_eq {m : Nat} {e : Int} {v : ℚ} (hv : Rounds v m e) (hm : 2 ^ 52 ≤ m)
    (hbelow : v < 2 ^ (52 + e)) : m = 2 ^ 52 := by
  have hlt : (4 * m - reach m e : ℚ) < 2 ^ 54 := by
    refine lt_of_mul_lt_mul_right ?_ (zpow_pos (two_pos : (0 : ℚ) < 2) (e - 2)).le
    calc (4 * m - reach m e : ℚ) * 2 ^ (e - 2) ≤ v := hv.lower
      _ < 2 ^ (52 + e) := hbelow
      _ = 2 ^ 54 * 2 ^ (e - 2) := by
        rw [two_pow_mul_zpow]
        congr 1
        push_cast
        ring
  have hreach : reach m e ≤ 2 := by
    unfold reach
    split <;> omega
  have hnat : 4 * m < 2 ^ 54 + reach m e := by
    have hcast : (4 * m : ℚ) < 2 ^ 54 + reach m e := by linarith
    exact_mod_cast hcast
  omega

/-- The exponent to which a rational is rounded is that of the double, or the one below if the
rational is below a power of two. -/
lemma target_cases {q m : Nat} {k e : Int} {v : ℚ} (hm : 0 < m) (hdouble : IsDouble m e)
    (hv : Rounds v m e) (hlower : q * 2 ^ k ≤ v) (hupper : v < (q + 1) * 2 ^ k)
    (hk : k ≤ max (q.log2 + k - 52) (-1074)) :
    max (q.log2 + k - 52) (-1074) = e
      ∨ (max (q.log2 + k - 52) (-1074) = e - 1 ∧ m = 2 ^ 52 ∧ e ≠ -1074
          ∧ v < 2 ^ 53 * 2 ^ (e - 1)) := by
  obtain ⟨-, hleast, -, hnormal⟩ := id hdouble
  by_cases hq : q = 0
  · -- only the least doubles are that small
    subst hq
    have hone : (1 : ℚ) ≤ m := by exact_mod_cast hm
    have hlt : (2 : ℚ) ^ (e - 1) < 2 ^ k := by
      calc (2 : ℚ) ^ (e - 1) ≤ m * 2 ^ (e - 1) := le_mul_of_one_le_left (zpow_pos two_pos _).le hone
        _ ≤ v := hv.ge hm
        _ < 2 ^ k := by simpa using hupper
    have := (zpow_lt_zpow_iff_right₀ one_lt_two).1 hlt
    simp only [Nat.log2_zero] at hk ⊢
    omega
  · have hlow : (2 : ℚ) ^ (q.log2 + k) ≤ v := (zpow_log2_le hq k).trans hlower
    have hhigh : v < 2 ^ (q.log2 + k + 1) := hupper.trans_le (succ_mul_zpow_le q k)
    have htop := (zpow_lt_zpow_iff_right₀ one_lt_two).1 (hlow.trans_lt (hv.lt hdouble))
    by_cases hnext : (2 : ℚ) ^ (52 + e) ≤ v
    · have := (zpow_lt_zpow_iff_right₀ one_lt_two).1 (hnext.trans_lt hhigh)
      left
      omega
    · by_cases hleast' : e = -1074
      · left
        omega
      · -- the rational is below a power of two, which then has to be the double
        have hbelow : v < 2 ^ (52 + e) := not_le.1 hnext
        have hpower : m = 2 ^ 52 := hv.mantissa_eq (hnormal.resolve_right hleast') hbelow
        have hbound : (2 : ℚ) ^ (51 + e) < 2 ^ (q.log2 + k + 1) := by
          calc (2 : ℚ) ^ (51 + e) = m * 2 ^ (e - 1) := by
                rw [hpower, Nat.cast_pow, Nat.cast_ofNat, two_pow_mul_zpow]
                congr 1
                push_cast
                ring
            _ ≤ v := hv.ge hm
            _ < 2 ^ (q.log2 + k + 1) := hhigh
        have h₁ := (zpow_lt_zpow_iff_right₀ one_lt_two).1 hbound
        have h₂ := (zpow_lt_zpow_iff_right₀ one_lt_two).1 (hlow.trans_lt hbelow)
        refine .inr ⟨by omega, hpower, hleast', ?_⟩
        calc v < 2 ^ (52 + e) := hbelow
          _ = 2 ^ 53 * 2 ^ (e - 1) := by
              rw [two_pow_mul_zpow]
              congr 1
              push_cast
              ring

/-- A mantissa that fits stays as it is. -/
lemma shift_of_lt {m : Nat} {e : Int} (hm : m < 2 ^ 53) (he : -1074 ≤ e) :
    shiftToTargetExponent Format.binary64 m e .exact = (⟨m, false, false⟩, e) := by
  have hlog : m.log2 ≤ 52 := by
    by_cases hzero : m = 0
    · subst hzero
      decide
    · have := (Nat.log2_lt hzero).2 hm
      omega
  have hshift : (max ((m.log2 : Int) + e - 52) (-1074) - e).toNat = 0 := by omega
  unfold shiftToTargetExponent shiftToExponent
  rw [target_eq]
  simp only [hshift]
  rw [Int.natCast_zero, Int.add_zero]
  rfl

/-- A mantissa that is one too great is halved. -/
lemma shift_overflow {e : Int} (he : -1074 ≤ e) :
    shiftToTargetExponent Format.binary64 (2 ^ 53) e .exact = (⟨2 ^ 52, false, false⟩, e + 1) := by
  have hshift : (max (((2 ^ 53 : Nat).log2 : Int) + e - 52) (-1074) - e).toNat = 1 := by
    rw [Nat.log2_two_pow]
    omega
  unfold shiftToTargetExponent shiftToExponent
  rw [target_eq]
  simp only [hshift]
  rfl

/-- On the grid of a double, the fractions of its interval are nearest to its mantissa. -/
lemma Rounds.roundedMantissa {em : ExtendedMantissa} {n d m : Nat} {e : Int}
    (hv : Rounds (n / d * 2 ^ e) m e) (hd : 0 < d) (hem : Represents em n d) :
    em.roundedMantissa = m := by
  have hd' : (0 : ℚ) < d := by exact_mod_cast hd
  have hunit : (2 : ℚ) ^ e = 4 * 2 ^ (e - 2) := by
    rw [zpow_sub₀ two_ne_zero]
    norm_num
    ring
  have hreach : (reach m e : ℚ) ≤ 2 := by
    have hreach : reach m e ≤ 2 := by
      unfold reach
      split <;> omega
    exact_mod_cast hreach
  have hp : (0 : ℚ) < 2 ^ (e - 2) := zpow_pos two_pos _
  have hscale : (n / d * 2 ^ e : ℚ) = 4 * n / d * 2 ^ (e - 2) := by
    rw [hunit]
    ring
  obtain ⟨hlower, hupper, htie⟩ := hv
  rw [hscale] at hlower hupper htie
  rw [mul_le_mul_iff_left₀ hp, le_div_iff₀ hd'] at hlower
  rw [mul_le_mul_iff_left₀ hp, div_le_iff₀ hd'] at hupper
  rw [mul_lt_mul_iff_left₀ hp, lt_div_iff₀ hd', mul_lt_mul_iff_left₀ hp, div_lt_iff₀ hd'] at htie
  have hreach' : (reach m e * d : ℚ) ≤ 2 * d := mul_le_mul_of_nonneg_right hreach hd'.le
  refine hem.roundedMantissa hd ?_ ?_ ?_
  · have : (2 * (m * d) : ℚ) ≤ 2 * n + d := by linarith
    exact_mod_cast this
  · have : (2 * n : ℚ) ≤ 2 * (m * d) + d := by linarith
    exact_mod_cast this
  · refine htie.imp id fun ⟨hlt, hgt⟩ => ⟨?_, ?_⟩
    · have : (2 * (m * d) : ℚ) < 2 * n + d := by linarith
      exact_mod_cast this
    · have : (2 * n : ℚ) < 2 * (m * d) + d := by linarith
      exact_mod_cast this

/-- A fraction in the interval of a double rounds to it. -/
lemma roundWithAccuracy_eq (s : Sign) {m n d : Nat} {e k : Int} (hm : 0 < m) (hd : 0 < d)
    (hdouble : IsDouble m e) (hv : Rounds (n / d * 2 ^ k) m e)
    (hk : k ≤ max ((n / d).log2 + k - 52) (-1074)) :
    roundWithAccuracy Format.binary64 s (n / d) k (accuracyOfFraction (n % d) d)
      = .finite s m e hm := by
  have hd' : (0 : ℚ) < d := by exact_mod_cast hd
  have hlower : ((n / d : Nat) : ℚ) * 2 ^ k ≤ n / d * 2 ^ k :=
    mul_le_mul_of_nonneg_right Nat.cast_div_le (zpow_pos two_pos _).le
  have hupper : (n / d * 2 ^ k : ℚ) < ((n / d : Nat) + 1) * 2 ^ k := by
    refine mul_lt_mul_of_pos_right ?_ (zpow_pos two_pos _)
    rw [div_lt_iff₀ hd']
    have hlt : n < (n / d + 1) * d := by
      rw [Nat.mul_comm]
      exact Nat.lt_mul_div_succ n hd
    exact_mod_cast hlt
  have hcases := target_cases hm hdouble hv hlower hupper hk
  -- the shift brings the fraction to the grid of the target
  obtain ⟨j, hj⟩ : ∃ j : Nat, max (((n / d).log2 : Int) + k - 52) (-1074) = k + j :=
    ⟨(max (((n / d).log2 : Int) + k - 52) (-1074) - k).toNat, by omega⟩
  have hfirst : shiftToTargetExponent Format.binary64 (n / d) k (accuracyOfFraction (n % d) d)
      = (ExtendedMantissa.ofMantissaAndAccuracy (n / d) (accuracyOfFraction (n % d) d) >>> j,
          k + j) := by
    unfold shiftToTargetExponent shiftToExponent
    rw [target_eq, hj]
    have : (k + j - k).toNat = j := by omega
    simp only [this]
  have hrepresents := (Represents.ofFraction n d hd).shiftRight hd j
  generalize ExtendedMantissa.ofMantissaAndAccuracy (n / d) (accuracyOfFraction (n % d) d) >>> j
    = em at hfirst hrepresents
  have hpos : 0 < 2 ^ j * d := by positivity
  have hscale : (n / d * 2 ^ k : ℚ) = n / (2 ^ j * d : Nat) * 2 ^ (k + j) := by
    push_cast
    rw [zpow_add₀ two_ne_zero, zpow_natCast]
    field_simp
  rw [hscale] at hv hcases
  rw [hj] at hcases
  generalize 2 ^ j * d = f at *
  unfold roundWithAccuracy
  rw [hfirst]
  rcases hcases with hexponent | ⟨hexponent, hpower, hleast, hbelow⟩
  · rw [hexponent] at hv ⊢
    dsimp only
    rw [hv.roundedMantissa hpos hrepresents,
      shift_of_lt hdouble.mantissa_lt hdouble.exponent_ge]
    exact dif_neg hm.ne'
  · -- the mantissa overflows and is halved again
    have hf : (0 : ℚ) < f := by exact_mod_cast hpos
    have hreach : reach m e = 1 := if_pos ⟨hpower, hleast⟩
    have hlower := hv.lower
    rw [hexponent] at hlower hbelow ⊢
    have hunit : (n / f * 2 ^ (e - 1) : ℚ) = 2 * n / f * 2 ^ (e - 2) := by
      rw [show e - 1 = e - 2 + 1 by ring, zpow_add_one₀ two_ne_zero]
      ring
    rw [hunit, hreach, hpower, mul_le_mul_iff_left₀ (zpow_pos two_pos _), le_div_iff₀ hf] at hlower
    rw [mul_lt_mul_iff_left₀ (zpow_pos two_pos _), div_lt_iff₀ hf] at hbelow
    have hrounded : em.roundedMantissa = 2 ^ 53 := by
      refine hrepresents.roundedMantissa hpos ?_ ?_ (.inl (by decide))
      · have : (2 * (2 ^ 53 * f) : ℚ) ≤ 2 * n + f := by
          push_cast at hlower
          linarith
        exact_mod_cast this
      · have : (2 * n : ℚ) ≤ 2 * (2 ^ 53 * f) + f := by linarith
        exact_mod_cast this
    have hge := hdouble.exponent_ge
    dsimp only
    rw [hrounded, shift_overflow (by omega)]
    subst hpower
    simp

/-- A double lies in its own interval. -/
lemma Rounds.self (m : Nat) (e : Int) : Rounds (m * 2 ^ e) m e := by
  have hunit : (m * 2 ^ e : ℚ) = 4 * m * 2 ^ (e - 2) := by
    rw [zpow_sub₀ two_ne_zero]
    norm_num
    ring
  have hreach : (0 : ℚ) < reach m e := by
    have hreach : 0 < reach m e := by
      unfold reach
      split <;> omega
    exact_mod_cast hreach
  have hlower : (4 * m - reach m e : ℚ) * 2 ^ (e - 2) < 4 * m * 2 ^ (e - 2) :=
    mul_lt_mul_of_pos_right (by linarith) (zpow_pos two_pos _)
  have hupper : (4 * m * 2 ^ (e - 2) : ℚ) < (4 * m + 2) * 2 ^ (e - 2) :=
    mul_lt_mul_of_pos_right (by linarith) (zpow_pos two_pos _)
  rw [hunit]
  exact ⟨hlower.le, hupper.le, .inr ⟨hlower, hupper⟩⟩

/-- A product in the interval of a double rounds to it. -/
lemma mul_eq {s t : Sign} {m n l : Nat} {e f k : Int} {hm : 0 < m} {hn : 0 < n} {hl : 0 < l}
    (hdouble : IsDouble m e) (hv : Rounds (n * l * 2 ^ (f + k)) m e)
    (hbits : 52 ≤ (n * l).log2 ∨ f + k ≤ -1074) :
    mul Format.binary64 (.finite s n f hn) (.finite t l k hl) = .finite (s * t) m e hm := by
  have hfraction : Rounds ((n * l : Nat) / (1 : Nat) * 2 ^ (f + k)) m e := by
    push_cast
    rwa [div_one]
  have h := roundWithAccuracy_eq (s * t) hm Nat.one_pos hdouble hfraction
    (by rw [Nat.div_one]; omega)
  rw [Nat.div_one, Nat.mod_one] at h
  exact h

/-- The product of two doubles has enough bits unless it is subnormal. -/
lemma IsDouble.mul_bits {n l : Nat} {f k : Int} (hnf : IsDouble n f) (hn : 0 < n) (hl : 0 < l)
    (hlk : IsDouble l k) : 52 ≤ (n * l).log2 ∨ f + k ≤ -1074 := by
  have hbits (h : 2 ^ 52 ≤ n * l) : 52 ≤ (n * l).log2 := (Nat.le_log2 (by positivity)).2 h
  rcases hnf.normal_or_least with hlarge | hleast
  · exact .inl (hbits (hlarge.trans (Nat.le_mul_of_pos_right n hl)))
  · rcases hlk.normal_or_least with hlarge | hleast'
    · exact .inl (hbits (hlarge.trans (Nat.le_mul_of_pos_left l hn)))
    · exact .inr (by omega)

/-- A quotient in the interval of a double rounds to it. -/
lemma div_eq {s t : Sign} {m n l : Nat} {e f k : Int} {hm : 0 < m} {hn : 0 < n} {hl : 0 < l}
    (hdouble : IsDouble m e) (hv : Rounds (n / l * 2 ^ (f - k)) m e) :
    div Format.binary64 (.finite s n f hn) (.finite t l k hl) = .finite (s / t) m e hm := by
  have htarget : Format.binary64.targetExponent (totalExponent n f - totalExponent l k)
      = max (n.log2 + f - (l.log2 + k) - 53) (-1074) := by
    simp only [Format.targetExponent, totalExponent, Format.mantissaBits, Format.minExponent]
    omega
  simp only [div, divCore, htarget]
  generalize hj : min (f - k) (max (n.log2 + f - (l.log2 + k) - 53) (-1074)) = j
  obtain ⟨i, hi⟩ : ∃ i : Nat, f - k - j = i := ⟨(f - k - j).toNat, by omega⟩
  rw [hi, Int.toNat_natCast, Nat.shiftLeft_eq]
  refine roundWithAccuracy_eq _ hm hl hdouble ?_ ?_
  · have hscale : ((n * 2 ^ i : Nat) / l * 2 ^ j : ℚ) = n / l * 2 ^ (f - k) := by
      rw [show f - k = i + j by omega, ← two_pow_mul_zpow]
      push_cast
      ring
    rwa [hscale]
  · -- the quotient has enough bits unless it is subnormal
    by_cases hsub : j ≤ -1074
    · omega
    · have hlog : 52 ≤ (n * 2 ^ i / l).log2 := by
        have hlarge : 2 ^ 52 ≤ n * 2 ^ i / l := by
          rw [Nat.le_div_iff_mul_le hl]
          have hl' : l ≤ 2 ^ (l.log2 + 1) := Nat.lt_log2_self.le
          have hn' : 2 ^ n.log2 ≤ n := Nat.log2_self_le hn.ne'
          calc 2 ^ 52 * l ≤ 2 ^ 52 * 2 ^ (l.log2 + 1) := Nat.mul_le_mul_left _ hl'
            _ = 2 ^ (52 + (l.log2 + 1)) := (pow_add _ _ _).symm
            _ ≤ 2 ^ (n.log2 + i) := Nat.pow_le_pow_right two_pos (by omega)
            _ = 2 ^ n.log2 * 2 ^ i := pow_add _ _ _
            _ ≤ n * 2 ^ i := Nat.mul_le_mul_right _ hn'
        exact (Nat.le_log2 (by omega)).2 hlarge
      omega

lemma log2_mul_two_pow {n : Nat} (hn : 0 < n) (j : Nat) : (n * 2 ^ j).log2 = n.log2 + j := by
  obtain ⟨hlow, hhigh⟩ := (Nat.log2_eq_iff hn.ne').1 rfl
  refine (Nat.log2_eq_iff (by positivity)).2 ⟨?_, ?_⟩
  · rw [pow_add]
    exact Nat.mul_le_mul_right _ hlow
  · rw [show n.log2 + j + 1 = n.log2 + 1 + j by ring, pow_add]
    exact Nat.mul_lt_mul_of_pos_right hhigh (Nat.two_pow_pos j)

/-- A rational in the interval of a double rounds to it, whatever its own exponent. -/
lemma round_eq (s : Sign) {m n : Nat} {e k : Int} (hm : 0 < m) (hn : 0 < n)
    (hdouble : IsDouble m e) (hv : Rounds (n * 2 ^ k) m e) :
    UnpackedFloat.round Format.binary64 s n k = .finite s m e hm := by
  unfold UnpackedFloat.round decreaseExponent
  rw [target_eq]
  generalize hshift : (k - max ((n.log2 : Int) + k - 52) (-1074)).toNat = j
  have hlog : (n <<< j).log2 = n.log2 + j := by
    rw [Nat.shiftLeft_eq, log2_mul_two_pow hn]
  have hscale : ((n <<< j : Nat) / (1 : Nat) * 2 ^ (k - j) : ℚ) = n * 2 ^ k := by
    rw [show k = j + (k - j) by ring, ← two_pow_mul_zpow, Nat.shiftLeft_eq]
    push_cast
    rw [show (j + (k - j) - j : Int) = k - j by ring]
    ring
  have h := roundWithAccuracy_eq s (k := k - j) hm Nat.one_pos hdouble (by rwa [hscale])
    (by rw [Nat.div_one, hlog]; omega)
  rw [Nat.div_one, Nat.mod_one] at h
  dsimp only
  rw [hshift]
  exact h

/-- The double nearest to a positive integer of at most fifty-three bits is that integer. -/
lemma normalize_natCast {n : Nat} (hn : 0 < n) (hlt : n < 2 ^ 53) :
    ∃ m e, ∃ hm : 0 < m,
      UnpackedFloat.normalize Format.binary64 n 0 .positive = .finite .positive m e hm
      ∧ IsDouble m e ∧ 2 ^ 52 ≤ m ∧ (m * 2 ^ e : ℚ) = n := by
  have hlog : n.log2 < 53 := (Nat.log2_lt hn.ne').2 hlt
  obtain ⟨j, hj⟩ : ∃ j, n.log2 + j = 52 := ⟨52 - n.log2, by omega⟩
  have hbits : (n * 2 ^ j).log2 = 52 := by rw [log2_mul_two_pow hn, hj]
  have hm : 0 < n * 2 ^ j := by positivity
  obtain ⟨hlow, hhigh⟩ := (Nat.log2_eq_iff hm.ne').1 hbits
  have hdouble : IsDouble (n * 2 ^ j) (-j) := ⟨hhigh, by omega, by omega, .inl hlow⟩
  have hvalue : ((n * 2 ^ j : Nat) * 2 ^ (-j : Int) : ℚ) = n := by
    rw [zpow_neg, zpow_natCast]
    push_cast
    field_simp
  refine ⟨n * 2 ^ j, -j, hm, ?_, hdouble, hlow, hvalue⟩
  have hself := Rounds.self (n * 2 ^ j) (-j)
  rw [hvalue] at hself
  have hround := round_eq .positive (k := 0) hm hn hdouble (by rwa [zpow_zero, mul_one])
  unfold UnpackedFloat.normalize
  rw [compare_gt_iff_gt.2 (by exact_mod_cast hn)]
  exact hround

end Reckoner.Binary64
