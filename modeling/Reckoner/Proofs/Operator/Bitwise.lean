import Reckoner.Proofs.Operator.Pointwise
import Reckoner.Proofs.Binary64.SafeIntegers

/-!
# Binary digits

The operators on binary digits work in words of 64 bits, and what they return is exact: a power of
two as a factor or a divisor, or the digits of two's complement. A result that is not safe is a
failure, so that no word that has lost bits is ever returned.
-/

/-! ### Two's complement -/

namespace BitVec

variable {w : Nat} {m n : Int}

lemma getLsbD_ofInt (w : Nat) (m : Int) (i : Nat) :
    (BitVec.ofInt w m).getLsbD i = (decide (i < w) && m.testBit i) := by
  cases m with
  | ofNat k =>
    rw [Int.ofNat_eq_natCast, ofInt_natCast, getLsbD_ofNat]
    rfl
  | negSucc k =>
    rw [ofInt_negSucc_eq_not_ofNat, getLsbD_not, getLsbD_ofNat]
    by_cases h : i < w
    · simp [h, Int.testBit]
    · simp [h]

lemma ofInt_land (w : Nat) (m n : Int) :
    BitVec.ofInt w (m.land n) = BitVec.ofInt w m &&& BitVec.ofInt w n := by
  refine eq_of_getLsbD_eq fun i hi => ?_
  rw [getLsbD_and, getLsbD_ofInt, getLsbD_ofInt, getLsbD_ofInt, Int.testBit_land, decide_eq_true hi]
  rfl

lemma ofInt_lor (w : Nat) (m n : Int) :
    BitVec.ofInt w (m.lor n) = BitVec.ofInt w m ||| BitVec.ofInt w n := by
  refine eq_of_getLsbD_eq fun i hi => ?_
  rw [getLsbD_or, getLsbD_ofInt, getLsbD_ofInt, getLsbD_ofInt, Int.testBit_lor, decide_eq_true hi]
  rfl

end BitVec

namespace Int

variable {m n : Int} {k : Nat}

/-- Whether an integer has a place among the words with `k` digits beside that of the sign. -/
def Fits (k : Nat) (n : Int) : Prop :=
  -2 ^ k ≤ n ∧ n < 2 ^ k

lemma fits_natCast {n : Nat} : Fits k n ↔ n < 2 ^ k := by
  have hcast : ((2 ^ k : Nat) : Int) = 2 ^ k := by push_cast; rfl
  rw [Fits]
  omega

lemma fits_negSucc {n : Nat} : Fits k (negSucc n) ↔ n < 2 ^ k := by
  have hcast : ((2 ^ k : Nat) : Int) = 2 ^ k := by push_cast; rfl
  rw [Fits]
  omega

/-- An operation on digits needs no more digits than its operands have. -/
lemma Fits.bitwise (f : Bool → Bool → Bool) (hm : Fits k m) (hn : Fits k n) :
    Fits k (Int.bitwise f m n) := by
  have hnat (f : Bool → Bool → Bool) {i j : Nat} (hi : i < 2 ^ k) (hj : j < 2 ^ k) :
      Fits k (natBitwise f i j) := by
    rw [natBitwise]
    cases f false false
    · exact fits_natCast.2 (Nat.bitwise_lt_two_pow hi hj)
    · exact fits_negSucc.2 (Nat.bitwise_lt_two_pow hi hj)
  cases m with
  | ofNat i =>
    cases n with
    | ofNat j => exact hnat f (fits_natCast.1 hm) (fits_natCast.1 hn)
    | negSucc j => exact hnat (fun x y => f x !y) (fits_natCast.1 hm) (fits_negSucc.1 hn)
  | negSucc i =>
    cases n with
    | ofNat j => exact hnat (fun x y => f (!x) y) (fits_negSucc.1 hm) (fits_natCast.1 hn)
    | negSucc j => exact hnat (fun x y => f (!x) !y) (fits_negSucc.1 hm) (fits_negSucc.1 hn)

end Int

namespace Reckoner

open Binary64 (toInt? maxSafe)

namespace Operator

variable {m n : Int}

/-- In a word the digits of two integers are those that they have in two's complement. -/
lemma toInt_land (hm : m.Fits 63) (hn : n.Fits 63) :
    (BitVec.ofInt 64 m &&& BitVec.ofInt 64 n).toInt = m.land n := by
  have hfits := hm.bitwise Bool.and hn
  rw [← BitVec.ofInt_land]
  rw [Int.bitwise_and] at hfits
  exact BitVec.toInt_ofInt_eq_self (by decide) hfits.1 hfits.2

lemma toInt_lor (hm : m.Fits 63) (hn : n.Fits 63) :
    (BitVec.ofInt 64 m ||| BitVec.ofInt 64 n).toInt = m.lor n := by
  have hfits := hm.bitwise Bool.or hn
  rw [← BitVec.ofInt_lor]
  rw [Int.bitwise_or] at hfits
  exact BitVec.toInt_ofInt_eq_self (by decide) hfits.1 hfits.2

/-! ### Shifts -/

lemma toInt_word (hm : m.Fits 63) : (BitVec.ofInt 64 m).toInt = m :=
  BitVec.toInt_ofInt_eq_self (by decide) hm.1 hm.2

lemma toInt_word_shiftLeft (m : Int) (k : Nat) :
    (BitVec.ofInt 64 m <<< k).toInt = (m * 2 ^ k).bmod (2 ^ 64) := by
  rw [BitVec.toInt_shiftLeft, Nat.shiftLeft_eq, BitVec.toNat_ofInt, Nat.cast_mul,
    Int.toNat_of_nonneg (Int.emod_nonneg _ (by decide)), Int.emod_mul_bmod, Nat.cast_pow,
    Nat.cast_ofNat]

lemma bmod_eq_self_iff : m.bmod (2 ^ 64) = m ↔ m.Fits 63 := by
  have hleast := Int.le_bmod (x := m) (m := 2 ^ 64) (by decide)
  have hgreatest := Int.bmod_lt (x := m) (m := 2 ^ 64) (by decide)
  rw [Int.Fits]
  constructor
  · omega
  · intro h
    exact Int.bmod_eq_of_le (by omega) (by omega)

/-- Shifting a word back restores it exactly if no digit has gone over its end. -/
lemma sshiftRight_shiftLeft_eq_iff (hm : m.Fits 63) {k : Nat} (hk : k < 64) :
    (BitVec.ofInt 64 m <<< k).sshiftRight k = BitVec.ofInt 64 m ↔ (m * 2 ^ k).Fits 63 := by
  have hpos : (0 : Int) < 2 ^ k := by positivity
  -- shifting back undoes the factor, but not what has gone over the end of the word
  obtain ⟨lost, hlost⟩ : ∃ lost, (m * 2 ^ k).bmod (2 ^ 64) = (m - lost) * 2 ^ k := by
    refine ⟨2 ^ (64 - k) * (m * 2 ^ k).bdiv (2 ^ 64), ?_⟩
    have hsplit : (2 : Int) ^ 64 = 2 ^ (64 - k) * 2 ^ k := by
      rw [← pow_add, Nat.sub_add_cancel hk.le]
    have hbdiv := Int.bdiv_add_bmod (m * 2 ^ k) (2 ^ 64)
    rw [Nat.cast_pow, Nat.cast_ofNat, hsplit] at hbdiv
    linarith
  rw [← bmod_eq_self_iff, ← BitVec.toInt_inj, BitVec.toInt_sshiftRight, toInt_word hm,
    toInt_word_shiftLeft m k, Int.shiftRight_eq_div_pow, hlost, Nat.cast_pow, Nat.cast_ofNat,
    Int.mul_ediv_cancel _ hpos.ne', mul_left_inj' hpos.ne']

/-- A shift to the left is a factor unless the product has no place in the word. -/
lemma shift?_shiftLeft (hm : m.Fits 63) {k : Nat} (hk : k < 64) :
    ((m * 2 ^ k).Fits 63 → shift? .shiftLeft m k = some (m * 2 ^ k))
      ∧ (¬ (m * 2 ^ k).Fits 63 → shift? .shiftLeft m k = none) := by
  rw [shift?, if_pos hk, if_pos rfl]
  dsimp only
  refine ⟨fun hfits => ?_, fun hfits => ?_⟩
  · rw [if_pos ((sshiftRight_shiftLeft_eq_iff hm hk).2 hfits), toInt_word_shiftLeft m k,
      bmod_eq_self_iff.2 hfits]
  · rw [if_neg (mt (sshiftRight_shiftLeft_eq_iff hm hk).1 hfits)]

/-- A shift to the right divides and rounds down. -/
lemma shift?_shiftRight (hm : m.Fits 63) {k : Nat} (hk : k < 64) :
    shift? .shiftRight m k = some (m / 2 ^ k) := by
  rw [shift?, if_pos hk, if_neg (by decide), BitVec.toInt_sshiftRight, toInt_word hm,
    Int.shiftRight_eq_div_pow, Nat.cast_pow, Nat.cast_ofNat]

/-! ### Outcomes -/

/-- Whether an outcome is an integer if that is safe, and the failure to be in range if it is
not. -/
structure IsExact (r : Except RuntimeError Value) (n : Int) : Prop where
  of_safe : n.natAbs ≤ maxSafe → ∃ v, r = .ok v ∧ v.IsInteger n
  of_not_safe : maxSafe < n.natAbs → ∃ x, r = .error (.outOfRange x)

lemma isExact_return (n : Int) :
    IsExact (Except.map .scalar (do return .ofReal (← Binary64.ofIntChecked n))) n where
  of_safe h := by
    rw [Binary64.ofIntChecked, if_pos h]
    exact ⟨_, rfl, Value.isInteger_ofInt (h.trans (by decide))⟩
  of_not_safe h := by
    rw [Binary64.ofIntChecked, if_neg h.not_ge]
    exact ⟨_, rfl⟩

variable {z w : Complex}

lemma integer_of_isInteger (hz : z.IsInteger m) (hm : m.natAbs ≤ maxSafe) : integer z = .ok m := by
  rw [integer, if_pos hz.1]
  exact Binary64.toIntChecked_eq_ok_iff.2 ⟨hz.2, hm⟩

lemma fits_of_safe (hm : m.natAbs ≤ maxSafe) : m.Fits 63 := by
  rw [maxSafe, Nat.pow_eq] at hm
  rw [Int.Fits]
  omega

section

variable (hz : z.IsInteger m) (hm : m.natAbs ≤ maxSafe) (hw : w.IsInteger n)
  (hn : n.natAbs ≤ maxSafe)

include hz hm hw hn

lemma isExact_bitAnd : IsExact (onScalars .bitAnd z w) (m.land n) := by
  rw [onScalars, bitwise, integer_of_isInteger hz hm, integer_of_isInteger hw hn,
    ← toInt_land (fits_of_safe hm) (fits_of_safe hn)]
  exact isExact_return _

lemma isExact_bitOr : IsExact (onScalars .bitOr z w) (m.lor n) := by
  rw [onScalars, bitwise, integer_of_isInteger hz hm, integer_of_isInteger hw hn,
    ← toInt_lor (fits_of_safe hm) (fits_of_safe hn)]
  exact isExact_return _

end

variable {op : BinaryOperator} {k : Nat}

lemma shift_of_isInteger (hop : op = .shiftLeft ∨ op = .shiftRight) (hz : z.IsInteger m)
    (hm : m.natAbs ≤ maxSafe) (hw : w.IsInteger k) (hk : k < 2 ^ 32) :
    (∀ r, shift? op m k = some r → IsExact (onScalars op z w) r)
      ∧ (shift? op m k = none → onScalars op z w = .error (.outOfRange w.re)) := by
  have hsafe : (k : Int).natAbs ≤ maxSafe := by
    rw [maxSafe, Nat.pow_eq]
    omega
  have hresult : onScalars op z w = (bitwise op z w).map .scalar := by
    rcases hop with rfl | rfl <;> rfl
  have hamount := Binary64.toUnsigned32_eq_ok_iff.2 ⟨hw.2, hk⟩
  rw [hresult, bitwise, integer_of_isInteger hz hm, integer_of_isInteger hw hsafe]
  constructor
  · intro r hr
    rcases hop with rfl | rfl
    · simp only [hamount, hr, bind, Except.bind]
      exact isExact_return r
    · simp only [hamount, hr, bind, Except.bind]
      exact isExact_return r
  · intro hnone
    rcases hop with rfl | rfl
    · simp only [hamount, hnone, bind, Except.bind]
      rfl
    · simp only [hamount, hnone, bind, Except.bind]
      rfl

/-- A product that has no place in the word is no safe integer all the more. -/
lemma isExact_shiftLeft (hz : z.IsInteger m) (hm : m.natAbs ≤ maxSafe) (hw : w.IsInteger k)
    (hk : k < 64) : IsExact (onScalars .shiftLeft z w) (m * 2 ^ k) := by
  obtain ⟨hsome, hnone⟩ := shift_of_isInteger (.inl rfl) hz hm hw (hk.trans (by decide))
  obtain ⟨hinside, houtside⟩ := shift?_shiftLeft (fits_of_safe hm) hk
  by_cases hfits : (m * 2 ^ k).Fits 63
  · exact hsome _ (hinside hfits)
  · exact ⟨fun hsafe => absurd (fits_of_safe hsafe) hfits, fun _ => ⟨w.re, hnone (houtside hfits)⟩⟩

lemma isExact_shiftRight (hz : z.IsInteger m) (hm : m.natAbs ≤ maxSafe) (hw : w.IsInteger k)
    (hk : k < 64) : IsExact (onScalars .shiftRight z w) ⌊(m / 2 ^ k : ℚ)⌋ := by
  have hfloor := Rat.floor_intCast_div_natCast m (2 ^ k)
  rw [Nat.cast_pow, Nat.cast_ofNat] at hfloor
  obtain ⟨hsome, -⟩ := shift_of_isInteger (.inr rfl) hz hm hw (hk.trans (by decide))
  have hexact := hsome _ (shift?_shiftRight (fits_of_safe hm) hk)
  simpa only [hfloor, Nat.cast_pow, Nat.cast_ofNat] using hexact

end Operator

namespace OperatorTable

open Operator (IsExact)

variable {v w : Value} {a b : Int}

/-- The operators on binary digits are exact or fail. Of two safe integers the digits of `&` and `|`
are those of two's complement, a shift by fewer than 64 places multiplies by a power of two or
divides by one and rounds down, and a result that is not safe is out of range, as is a shift by 64
places or more. -/
theorem apply_bitwise (hv : v.IsInteger a) (hw : w.IsInteger b) (ha : a.natAbs ≤ maxSafe)
    (hb : b.natAbs ≤ maxSafe) :
    IsExact (standard.apply .bitAnd v w) (a.land b)
      ∧ IsExact (standard.apply .bitOr v w) (a.lor b)
      ∧ ∀ n : Nat, b = n → n < 2 ^ 32 →
          (n < 64 → IsExact (standard.apply .shiftLeft v w) (a * 2 ^ n)
            ∧ IsExact (standard.apply .shiftRight v w) ⌊(a / 2 ^ n : ℚ)⌋)
          ∧ (64 ≤ n → (∃ x, standard.apply .shiftLeft v w = .error (.outOfRange x))
            ∧ ∃ x, standard.apply .shiftRight v w = .error (.outOfRange x)) := by
  obtain ⟨z, rfl, hz⟩ := hv
  obtain ⟨y, rfl, hy⟩ := hw
  simp only [apply_scalar_scalar]
  refine ⟨Operator.isExact_bitAnd hz ha hy hb, Operator.isExact_bitOr hz ha hy hb, ?_⟩
  rintro n rfl hn
  refine ⟨fun hsmall => ⟨?_, ?_⟩, fun hlarge => ⟨?_, ?_⟩⟩
  · exact Operator.isExact_shiftLeft hz ha hy hsmall
  · exact Operator.isExact_shiftRight hz ha hy hsmall
  · exact ⟨_, (Operator.shift_of_isInteger (.inl rfl) hz ha hy hn).2 (if_neg hlarge.not_gt)⟩
  · exact ⟨_, (Operator.shift_of_isInteger (.inr rfl) hz ha hy hn).2 (if_neg hlarge.not_gt)⟩

/-- The greatest shift that keeps a word of 64 bits moves the last one of `-1` to the place of the
sign. The word is restored by shifting it back, but it is no safe integer. -/
theorem apply_bitwise_minus_one :
    let v : Value := .ofReal (-1)
    let w : Value := .ofReal 63
    v.IsInteger (-1) ∧ w.IsInteger 63
      ∧ (∃ u, standard.apply .bitAnd v w = .ok u ∧ u.IsInteger 63)
      ∧ (∃ x, standard.apply .shiftLeft v w = .error (.outOfRange x))
      ∧ ∃ u, standard.apply .shiftRight v w = .ok u ∧ u.IsInteger (-1) := by
  intro v w
  have hv : v.IsInteger (-1) := Value.isInteger_ofReal (by decide +kernel)
  have hw : w.IsInteger 63 := Value.isInteger_ofReal (by decide +kernel)
  obtain ⟨hand, -, hshift⟩ := apply_bitwise hv hw (by decide) (by decide)
  obtain ⟨hleft, hright⟩ := (hshift 63 rfl (by decide)).1 (by decide)
  have hfloor : ⌊((-1 : Int) / 2 ^ 63 : ℚ)⌋ = -1 := by
    rw [Int.floor_eq_iff]
    norm_num
  have hdigits : (-1 : Int).land 63 = 63 := by decide +kernel
  rw [hdigits] at hand
  rw [hfloor] at hright
  exact ⟨hv, hw, hand.of_safe (by decide), hleft.of_not_safe (by decide),
    hright.of_safe (by decide)⟩

end OperatorTable

end Reckoner
