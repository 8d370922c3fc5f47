import Reckoner.Proofs.Binary64.Overflow
import Reckoner.Proofs.Binary64.ZeroSigns
import Reckoner.Proofs.Substitution.Literal

/-!
# Safe integers

An integer is safe if its magnitude is at most `2 ^ 53 - 1`. The conversions between doubles and
integers succeed on the safe integers of their range, lose nothing there, and fail on all else.
-/

namespace Reckoner

namespace Binary64

open Float.Model (UnpackedFloat Format)
open Float.Model.UnpackedFloat

variable {x y : Float} {a b n : Int} {u v : UnpackedFloat}

/-! ### Exact operations -/

lemma toInt?_ofInt (h : n.natAbs ≤ 2 ^ 53) : toInt? (ofInt n) = some n :=
  toInt?_nearest (by rw [zpow_zero, mul_one]) h .positive

lemma IsView.abs (h : IsView u) : IsView u.abs := by
  cases h with
  | notANumber => exact .notANumber
  | infinity s => exact .infinity .positive
  | zero s => exact .zero .positive
  | finite s hm h => exact .finite .positive hm h

lemma view_abs (x : Float) : view x.abs = (view x).abs :=
  view_ofView_of_isView (isView_view x).abs

lemma isFinite_abs (u : UnpackedFloat) : u.abs.isFinite = u.isFinite := by
  cases u <;> rfl

lemma value_abs (u : UnpackedFloat) : value u.abs = |value u| := by
  cases u with
  | finite s m e hm =>
    cases s <;> simp [UnpackedFloat.abs, value, Sign.apply, abs_mul, abs_zpow]
  | _ => exact abs_zero.symm

lemma toInt?_abs (hx : toInt? x = some a) : toInt? x.abs = some (a.natAbs : Int) := by
  rw [toInt?_eq_some_iff] at hx ⊢
  rw [view_abs, isFinite_abs, value_abs, hx.2]
  exact ⟨hx.1, by push_cast; rfl⟩

/-- A double that is an integer is its own nearest integer. -/
lemma toInt?_round (hx : toInt? x = some n) (hn : n.natAbs ≤ 2 ^ 53) :
    toInt? (round x) = some n := by
  have hx' := hx
  rw [round, integral]
  rw [toInt?] at hx
  cases hu : view x with
  | finite s m e hm =>
    cases e with
    | ofNat k => exact hx'
    | negSucc k =>
      rw [hu] at hx
      dsimp only at hx ⊢
      split_ifs at hx with hmod
      cases hx
      obtain ⟨q, rfl⟩ := Nat.dvd_of_mod_eq_zero hmod
      have hpos : 0 < Nat.pow 2 (k + 1) := Nat.two_pow_pos _
      generalize Nat.pow 2 (k + 1) = d at *
      have hround : (2 * (d * q) + d) / (2 * d) = d * q / d := by
        rw [Nat.mul_div_cancel_left q hpos, show 2 * (d * q) + d = d + 2 * d * q by ring,
          Nat.add_mul_div_left _ _ (by omega), Nat.div_eq_of_lt (by omega), zero_add]
      rw [hround]
      exact toInt?_nearest (by rw [zpow_zero, mul_one]; norm_cast) hn s
  | _ => exact hx'

lemma exists_zero_of_toInt? (hx : toInt? x = some 0) : ∃ s, view x = .zero s := by
  rw [toInt?_eq_some_iff] at hx
  cases hu : view x with
  | zero s => exact ⟨s, rfl⟩
  | finite s m e hm =>
    rw [hu, value_finite] at hx
    have hpos : (0 : ℚ) < m * 2 ^ e := by positivity
    have habs := congrArg (|·|) hx.2
    rw [abs_apply_one_mul, abs_of_pos hpos, Int.cast_zero, abs_zero] at habs
    exact absurd habs hpos.ne'
  | _ =>
    rw [hu] at hx
    cases hx.1

/-- A quotient is exact if it is an integer up to `2 ^ 53`. -/
lemma toInt?_div (hx : toInt? x = some (a * b)) (hy : toInt? y = some b) (hb : b ≠ 0)
    (ha : a.natAbs ≤ 2 ^ 53) : toInt? (x / y) = some a := by
  rw [toInt?_eq_some_iff] at hx hy
  have hvalue : value (view x) / value (view y) = a := by
    rw [hx.2, hy.2, Int.cast_mul, mul_div_cancel_right₀ _ (Int.cast_ne_zero.2 hb)]
  by_cases hzero : a = 0
  · subst hzero
    rw [zero_mul] at hx
    obtain ⟨s, hs⟩ := exists_zero_of_toInt? (toInt?_eq_some_iff.2 hx)
    obtain ⟨t, l, k, hl, hv, -⟩ := exists_view_of_value_ne_zero (x := y)
      (hy.2 ▸ Int.cast_ne_zero.2 hb)
    have hquotient : x / y = ofView (.zero (s / t)) := by
      rw [view_div, hs, hv]
      rfl
    rw [hquotient, toInt?, view_ofView_of_isView (.zero _)]
  · obtain ⟨s, n, f, hn, t, l, k, hl, hu, hv, hquotient⟩ :=
      exists_quotient (hvalue ▸ Int.cast_ne_zero.2 hzero)
    rw [hvalue] at hquotient
    have hmagnitude : (n / l * 2 ^ (f - k) : ℚ) = a.natAbs * 2 ^ (0 : Int) := by
      have hpos : (0 : ℚ) < n / l * 2 ^ (f - k) := by positivity
      have habs := congrArg (|·|) hquotient
      rw [abs_apply_one_mul, abs_of_pos hpos] at habs
      rw [← habs, zpow_zero, mul_one, Nat.cast_natAbs, Int.cast_abs]
    rw [hmagnitude, ← value_finite (s / t) (by omega)] at hquotient
    obtain ⟨m, e, hm, hdouble, hdigits, hint⟩ := exists_canonical (by omega) hquotient.symm ha
    rw [view_div, hu, hv, div_eq hdouble (hmagnitude.trans hdigits.symm ▸ .self m e)]
    exact hint

/-! ### Order -/

/-- Finite numbers are ordered linearly. -/
lemma view_le_iff_not_lt (hu : u.isFinite = true) (hv : v.isFinite = true) :
    u.le v = true ↔ ¬ v.lt u = true := by
  cases u with
  | notANumber => cases hu
  | infinity s => cases hu
  | zero s =>
    cases v with
    | notANumber => cases hv
    | infinity t => cases hv
    | zero t => simp [UnpackedFloat.le, UnpackedFloat.lt, UnpackedFloat.compare]
    | finite t l f hl =>
      cases t <;> simp [UnpackedFloat.le, UnpackedFloat.lt, UnpackedFloat.compare]
  | finite s m e hm =>
    cases v with
    | notANumber => cases hv
    | infinity t => cases hv
    | zero t => cases s <;> simp [UnpackedFloat.le, UnpackedFloat.lt, UnpackedFloat.compare]
    | finite t l f hl =>
      have hswap : (compare f e).then (compare l m) = ((compare e f).then (compare m l)).swap := by
        rw [Ordering.swap_then, ← Int.compare_swap, ← Nat.compare_swap]
      cases s <;> cases t <;>
        simp only [UnpackedFloat.le, UnpackedFloat.lt, UnpackedFloat.compare, hswap] <;>
        cases (compare e f).then (compare m l) <;> decide

lemma le_iff_value (hx : (view x).isFinite = true) (hy : (view y).isFinite = true) :
    x ≤ y ↔ value (view x) ≤ value (view y) := by
  rw [le_iff_view, view_le_iff_not_lt hx hy, view_lt_iff (isView_view y) (isView_view x) hy hx,
    not_lt]

lemma le_iff_of_toInt? (hx : toInt? x = some a) (hy : toInt? y = some b) : x ≤ y ↔ a ≤ b := by
  rw [toInt?_eq_some_iff] at hx hy
  rw [le_iff_value hx.1 hy.1, hx.2, hy.2, Int.cast_le]

/-! ### Conversions -/

lemma toIntChecked_of_toInt? (h : toInt? x = some n) :
    toIntChecked x = if n.natAbs ≤ maxSafe then .ok n else .error (.outOfRange x) := by
  have hbound : x.abs ≤ ofInt maxSafe ↔ n.natAbs ≤ maxSafe := by
    rw [le_iff_of_toInt? (toInt?_abs h) (toInt?_ofInt (by decide)), Int.ofNat_le]
  have hfinite : x.isFinite = true := (toInt?_eq_some_iff.1 h).1
  simp only [toIntChecked, hfinite, true_and, hbound, h]

/-- A double is converted to an integer exactly if it is a safe one. -/
lemma toIntChecked_eq_ok_iff : toIntChecked x = .ok n ↔ toInt? x = some n ∧ n.natAbs ≤ maxSafe := by
  constructor
  · intro h
    have hint : toInt? x = some n := by
      rw [toIntChecked] at h
      split_ifs at h
      split at h
      · cases h
        assumption
      · cases h
    rw [toIntChecked_of_toInt? hint] at h
    split_ifs at h with hsafe
    exact ⟨hint, hsafe⟩
  · rintro ⟨hint, hsafe⟩
    rw [toIntChecked_of_toInt? hint, if_pos hsafe]

lemma toRangeChecked_eq_ok_iff {least greatest : Int} :
    toRangeChecked least greatest x = .ok n
      ↔ (toInt? x = some n ∧ n.natAbs ≤ maxSafe) ∧ least ≤ n ∧ n ≤ greatest := by
  rw [toRangeChecked, Except.bind_eq_ok_iff]
  simp only [toIntChecked_eq_ok_iff]
  constructor
  · rintro ⟨k, hk, h⟩
    split_ifs at h with hrange
    cases h
    exact ⟨hk, hrange⟩
  · rintro ⟨hn, hrange⟩
    exact ⟨n, hn, if_pos hrange⟩

lemma toSigned32_eq_ok_iff :
    toSigned32 x = .ok n ↔ toInt? x = some n ∧ -2 ^ 31 ≤ n ∧ n < 2 ^ 31 := by
  rw [toSigned32, toRangeChecked_eq_ok_iff, and_assoc]
  refine and_congr_right fun _ => ?_
  rw [maxSafe, Nat.pow_eq]
  omega

lemma toUnsigned32_eq_ok_iff {n : Nat} :
    toUnsigned32 x = .ok n ↔ toInt? x = some (n : Int) ∧ n < 2 ^ 32 := by
  have hrange {k : Int} : toRangeChecked 0 4294967295 x = .ok k
      ↔ toInt? x = some k ∧ 0 ≤ k ∧ k < 2 ^ 32 := by
    rw [toRangeChecked_eq_ok_iff, and_assoc]
    refine and_congr_right fun _ => ?_
    rw [maxSafe, Nat.pow_eq]
    omega
  rw [toUnsigned32]
  constructor
  · intro h
    cases hk : toRangeChecked 0 4294967295 x with
    | error err =>
      rw [hk] at h
      cases h
    | ok k =>
      rw [hk] at h
      cases h
      obtain ⟨hint, hnonneg, hlt⟩ := hrange.1 hk
      rw [Int.toNat_of_nonneg hnonneg]
      exact ⟨hint, by omega⟩
  · rintro ⟨hint, hlt⟩
    rw [hrange.2 ⟨hint, by omega, by omega⟩]
    rfl

/-! ### Rounded products -/

/-- A product of integers that is not safe is rounded to one that is not safe, or to infinity. -/
lemma toIntChecked_round_mul_ne_ok (hx : toInt? x = some a) (hy : toInt? y = some b)
    (h : maxSafe < (a * b).natAbs) : toIntChecked (round (x * y)) ≠ .ok n := by
  have hlarge : 2 ^ 53 ≤ |((a * b : Int) : ℚ)| := by
    rw [maxSafe, Nat.pow_eq] at h
    rw [← Int.cast_abs, Int.abs_eq_natAbs, Int.cast_natCast]
    exact_mod_cast (by omega : 2 ^ 53 ≤ (a * b).natAbs)
  have hvalue : value (view x) * value (view y) = (a * b : Int) := by
    rw [(toInt?_eq_some_iff.1 hx).2, (toInt?_eq_some_iff.1 hy).2, Int.cast_mul]
  rw [← hvalue] at hlarge
  obtain ⟨s, l, k, hl, hbits, hproduct, hmul⟩ :=
    exists_product (abs_pos.1 ((by norm_num : (0 : ℚ) < 2 ^ 53).trans_le hlarge))
  have hlog : (53 : Int) < (l.log2 + 1 : Nat) + k := by
    have hlarge : (2 : ℚ) ^ (53 : Int) ≤ |value (view x) * value (view y)| := mod_cast hlarge
    refine (zpow_lt_zpow_iff_right₀ one_lt_two).1 (hlarge.trans_lt ?_)
    rw [hproduct, ← two_pow_mul_zpow]
    refine mul_lt_mul_of_pos_right ?_ (zpow_pos two_pos k)
    exact_mod_cast Nat.lt_log2_self
  obtain ⟨m, e, hm, hround, hlow, hhigh, he⟩ := exists_round s (n := l) (k := k) (by omega)
    (by omega)
  rw [hmul, hround]
  intro hok
  obtain ⟨hint, hsafe⟩ := toIntChecked_eq_ok_iff.1 hok
  by_cases hoverflow : 972 ≤ e
  · have hview : view (ofView (.infinity s)) = .infinity s := view_ofView_of_isView (.infinity s)
    simp only [ofView_finite_large s hm hoverflow, round, integral, toInt?, hview] at hint
    cases hint
  · have hview : view (ofView (.finite s m e hm)) = .finite s m e hm :=
      view_ofView ⟨hhigh, by omega, by omega, .inl hlow⟩
    -- there is no fraction that could be rounded off
    obtain ⟨i, rfl⟩ : ∃ i, e = Int.ofNat (i + 1) :=
      ⟨(e - 1).toNat, by rw [Int.ofNat_eq_natCast]; omega⟩
    simp only [round, integral, toInt?, hview, Option.some.injEq] at hint
    have hmagnitude : n.natAbs = m <<< (i + 1) := by
      rw [← hint]
      cases s
      · exact Int.natAbs_neg _
      · rfl
    rw [hmagnitude, maxSafe, Nat.pow_eq, Nat.shiftLeft_eq, pow_succ] at hsafe
    have hpos := Nat.two_pow_pos i
    have hproduct : 2 ^ 52 * 2 ≤ m * (2 ^ i * 2) := Nat.mul_le_mul hlow (by omega)
    omega

/-- The nearest integer to a product of integers is converted exactly if the product is safe. -/
lemma toIntChecked_round_mul_eq_ok_iff (hx : toInt? x = some a) (hy : toInt? y = some b) :
    toIntChecked (round (x * y)) = .ok n ↔ n = a * b ∧ (a * b).natAbs ≤ maxSafe := by
  by_cases hsafe : (a * b).natAbs ≤ maxSafe
  · have hbound : (a * b).natAbs ≤ 2 ^ 53 := hsafe.trans (by decide)
    rw [toIntChecked_of_toInt? (toInt?_round (toInt?_mul hx hy hbound) hbound), if_pos hsafe,
      Except.ok.injEq]
    exact ⟨fun h => ⟨h.symm, hsafe⟩, fun h => h.1.symm⟩
  · exact iff_of_false (toIntChecked_round_mul_ne_ok hx hy (not_le.1 hsafe)) fun h => hsafe h.2

end Binary64

/-! ### Values that are integers -/

open Binary64 (toInt?)

/-- Whether a number is this integer. -/
def Complex.IsInteger (z : Complex) (n : Int) : Prop :=
  z.isReal = true ∧ toInt? z.re = some n

/-- Whether a value is a number that is this integer. -/
def Value.IsInteger (v : Value) (n : Int) : Prop :=
  ∃ z : Complex, v = .scalar z ∧ z.IsInteger n

variable {n : Int}

lemma Value.isInteger_ofReal {x : Float} (h : toInt? x = some n) : (ofReal x).IsInteger n :=
  ⟨.ofReal x, rfl, Value.isReal_ofReal x, h⟩

lemma Value.isInteger_ofInt (h : n.natAbs ≤ 2 ^ 53) : (ofReal (Binary64.ofInt n)).IsInteger n :=
  isInteger_ofReal (Binary64.toInt?_ofInt h)

lemma Value.isInteger_iff {v : Value} :
    v.IsInteger n ↔ ∃ x, v.toReal = .ok x ∧ toInt? x = some n := by
  constructor
  · rintro ⟨z, rfl, hreal, hn⟩
    exact ⟨z.re, if_pos hreal, hn⟩
  · rintro ⟨x, hx, hn⟩
    cases v with
    | scalar z =>
      obtain ⟨w, ⟨⟩, hz⟩ := Except.bind_eq_ok_iff.1 hx
      split at hz
      case isTrue hreal =>
        cases hz
        exact ⟨z, rfl, hreal, hn⟩
      case isFalse => cases hz
    | _ => cases hx

end Reckoner
