import Reckoner.Proofs.Substitution.Printing

/-!
# Integers among the doubles

An integer up to `2 ^ 53` is a double, so that sums and products whose result is such an integer are
exact, and doubles are compared as the rationals that they are.
-/

namespace Reckoner.Binary64

open Float.Model (UnpackedFloat Format)
open Float.Model.UnpackedFloat

variable {x y z : Float} {a b c n : Int} {u v : UnpackedFloat}

/-! ### Operations on views -/

lemma view_mul (x y : Float) :
    x * y = ofView (UnpackedFloat.mul Format.binary64 (view x) (view y)) :=
  rfl

lemma view_div (x y : Float) :
    x / y = ofView (UnpackedFloat.div Format.binary64 (view x) (view y)) :=
  rfl

lemma isFinite_view (x : Float) : x.isFinite = (view x).isFinite :=
  rfl

/-! ### The value of a double -/

/-- The rational that a finite number is. -/
def value : UnpackedFloat → ℚ
  | .finite s m e _ => s.apply m * 2 ^ e
  | _ => 0

lemma value_of_isZero (h : isZero u = true) : value u = 0 := by
  cases u with
  | zero s => rfl
  | _ => cases h

lemma apply_mul (s : Sign) (m k : Int) : s.apply (m * k) = s.apply m * k := by
  cases s
  · exact (Int.neg_mul ..).symm
  · rfl

/-- A finite double is an integer if its value is one. -/
lemma toInt?_eq_some_iff : toInt? x = some n ↔ (view x).isFinite = true ∧ value (view x) = n := by
  rw [toInt?]
  cases view x with
  | notANumber => simp [UnpackedFloat.isFinite]
  | infinity s => simp [UnpackedFloat.isFinite]
  | zero s => simp [UnpackedFloat.isFinite, value, eq_comm]
  | finite s m e hm =>
    have hfinite : (UnpackedFloat.finite s m e hm).isFinite = true := rfl
    rw [and_iff_right hfinite, value]
    cases e with
    | ofNat k =>
      have hvalue : (s.apply m * 2 ^ (Int.ofNat k) : ℚ) = (s.apply (m <<< k : Nat) : Int) := by
        rw [Nat.shiftLeft_eq, Int.ofNat_eq_natCast, zpow_natCast, Nat.cast_mul, apply_mul]
        push_cast
        rfl
      rw [hvalue, Int.cast_inj, Option.some.injEq]
    | negSucc k =>
      have hpos : ((2 ^ (k + 1) : Nat) : Int) ≠ 0 := by positivity
      have hvalue : (s.apply m * 2 ^ (Int.negSucc k) : ℚ) = n
          ↔ s.apply m = n * (2 ^ (k + 1) : Nat) := by
        rw [zpow_negSucc, mul_inv_eq_iff_eq_mul₀ (by positivity)]
        norm_cast
      rw [hvalue]
      dsimp only
      split_ifs with hmod
      · obtain ⟨q, rfl⟩ := Nat.dvd_of_mod_eq_zero hmod
        have hdiv : ((2 ^ (k + 1) * q : Nat) : Int) / (2 ^ (k + 1) : Nat) = q := by
          rw [Nat.cast_mul, Int.mul_ediv_cancel_left _ hpos]
        have hscale :
          s.apply ((2 ^ (k + 1) * q : Nat) : Int) = s.apply q * (2 ^ (k + 1) : Nat) := by
          rw [Nat.mul_comm, Nat.cast_mul, apply_mul]
        rw [Nat.pow_eq, hdiv, hscale, Option.some.injEq]
        exact (mul_left_inj' hpos).symm
      · refine iff_of_false nofun fun heq => hmod (Nat.mod_eq_zero_of_dvd ?_)
        have hdvd : ((2 ^ (k + 1) : Nat) : Int) ∣ s.apply m := ⟨n, heq.trans (Int.mul_comm ..)⟩
        cases s
        · exact Int.natCast_dvd_natCast.1 (Int.dvd_neg.1 hdvd)
        · exact Int.natCast_dvd_natCast.1 hdvd

/-! ### Exact results -/

lemma apply_mul_eq_iff (s : Sign) (q : ℚ) (m : Nat) :
    (s.apply m * q : ℚ) = n ↔ m * q = (s.apply n : Int) := by
  cases s
  · rw [Sign.apply, Sign.apply, Int.cast_neg, Int.cast_neg, neg_mul, neg_eq_iff_eq_neg]
    rfl
  · rfl

/-- A positive integer up to `2 ^ 53` is a double. -/
lemma exists_isDouble {l : Nat} (hl : 0 < l) (hle : l ≤ 2 ^ 53) :
    ∃ (m : Nat) (e : Int), 0 < m ∧ IsDouble m e ∧ (m * 2 ^ e : ℚ) = l := by
  rcases hle.lt_or_eq with hlt | rfl
  · obtain ⟨m, e, hm, -, hdouble, -, hvalue⟩ := normalize_natCast hl hlt
    exact ⟨m, e, hm, hdouble, hvalue⟩
  · exact ⟨2 ^ 52, 1, by decide, ⟨by decide, by decide, by decide, .inl le_rfl⟩, by norm_num⟩

/-- An integer up to `2 ^ 53` that is not zero is a double in canonical form. -/
lemma exists_canonical {s : Sign} {m : Nat} {e : Int} (hm : 0 < m) (h : (s.apply m * 2 ^ e : ℚ) = n)
    (hn : n.natAbs ≤ 2 ^ 53) :
    ∃ m' e', ∃ hm' : 0 < m', IsDouble m' e' ∧ (m' * 2 ^ e' : ℚ) = m * 2 ^ e
      ∧ toInt? (ofView (.finite s m' e' hm')) = some n := by
  rw [apply_mul_eq_iff] at h
  have hpos : 0 < s.apply n := by
    have hpos : (0 : ℚ) < m * 2 ^ e := by positivity
    exact_mod_cast h ▸ hpos
  obtain ⟨l, hl⟩ := Int.eq_ofNat_of_zero_le hpos.le
  have hle : l ≤ 2 ^ 53 := by
    cases s <;> simp only [Sign.apply] at hl <;> omega
  obtain ⟨m', e', hm', hdouble, hvalue⟩ := exists_isDouble (by omega) hle
  rw [hl, Int.cast_natCast] at h
  refine ⟨m', e', hm', hdouble, hvalue.trans h.symm, ?_⟩
  rw [toInt?_eq_some_iff, view_ofView hdouble]
  refine ⟨rfl, (apply_mul_eq_iff s _ m').2 ?_⟩
  rw [hvalue, hl, Int.cast_natCast]

/-- An integer up to `2 ^ 53` is rounded to itself. -/
lemma toInt?_nearest {k e : Int} (h : (k * 2 ^ e : ℚ) = n) (hn : n.natAbs ≤ 2 ^ 53) (s : Sign) :
    toInt? (nearest k e s) = some n := by
  obtain rfl | ⟨t, m, hm, rfl⟩ : k = 0 ∨ ∃ (t : Sign) (m : Nat), 0 < m ∧ k = t.apply m := by
    rcases lt_trichotomy k 0 with hk | hk | hk
    · exact .inr ⟨.negative, k.natAbs, by omega, by simp only [Sign.apply]; omega⟩
    · exact .inl hk
    · exact .inr ⟨.positive, k.natAbs, by omega, by simp only [Sign.apply]; omega⟩
  · have hzero : nearest 0 e s = ofView (.zero s) := rfl
    rw [toInt?_eq_some_iff, hzero, view_ofView_of_isView (.zero s), ← h, Int.cast_zero, zero_mul]
    exact ⟨rfl, rfl⟩
  · obtain ⟨m', e', hm', hdouble, hvalue, hint⟩ := exists_canonical hm h hn
    rwa [nearest, normalize_apply t s hm, round_eq t hm' hm hdouble (hvalue ▸ .self m' e')]

/-- A mantissa for a lower exponent. -/
lemma apply_shiftLeft (s : Sign) (m : Nat) {e least : Int} (h : least ≤ e) :
    (s.apply (m <<< (e - least).toNat : Nat) * 2 ^ least : ℚ) = s.apply m * 2 ^ e := by
  obtain ⟨j, rfl⟩ := Int.le.dest h
  rw [show (least + j - least).toNat = j by omega, Nat.shiftLeft_eq, Nat.cast_mul, apply_mul,
    Int.cast_mul, Nat.cast_pow, Int.cast_pow, mul_assoc, zpow_add₀ two_ne_zero, zpow_natCast]
  push_cast
  ring

/-- A sum of views is exact if it is an integer up to `2 ^ 53`. Zeros leave the other view as it
is. -/
lemma toInt?_ofView_add (hu : u.isFinite = true) (hv : v.isFinite = true)
    (hzero : isZero u = true → IsView v) (hzero' : isZero v = true → IsView u)
    (h : value u + value v = n) (hn : n.natAbs ≤ 2 ^ 53) :
    toInt? (ofView (UnpackedFloat.add Format.binary64 u v)) = some n := by
  have hself {w : UnpackedFloat} (hview : IsView w) (hw : w.isFinite = true) (h : value w = n) :
      toInt? (ofView w) = some n := by
    rw [toInt?_eq_some_iff, view_ofView_of_isView hview]
    exact ⟨hw, h⟩
  cases u with
  | notANumber => cases hu
  | infinity s => cases hu
  | zero s =>
    rw [value_of_isZero rfl, zero_add] at h
    cases v with
    | notANumber => cases hv
    | infinity t => cases hv
    | zero t =>
      rw [value_of_isZero rfl, eq_comm, Int.cast_eq_zero] at h
      subst h
      cases s <;> cases t <;> rfl
    | finite t m e hm => exact hself (hzero rfl) hv h
  | finite s m e hm =>
    cases v with
    | notANumber => cases hv
    | infinity t => cases hv
    | zero t =>
      rw [value_of_isZero (u := .zero t) rfl, add_zero] at h
      exact hself (hzero' rfl) hu h
    | finite t l f hl =>
      refine toInt?_nearest ?_ hn .positive
      rw [Int.cast_add, add_mul, apply_shiftLeft s m (min_le_left e f),
        apply_shiftLeft t l (min_le_right e f)]
      exact h

lemma apply_mul_apply (s t : Sign) (m n : Int) :
    (s * t).apply (m * n) = s.apply m * t.apply n := by
  cases s <;> cases t
  · exact (neg_mul_neg m n).symm
  · exact (neg_mul m n).symm
  · exact (mul_neg m n).symm
  · rfl

/-- The product of two finite views has the product of their values. -/
lemma value_exactMul (hu : u.isFinite = true) (hv : v.isFinite = true) :
    (exactMul u v).isFinite = true ∧ value (exactMul u v) = value u * value v := by
  cases u with
  | notANumber => cases hu
  | infinity s => cases hu
  | zero s =>
    rw [value_of_isZero (u := .zero s) rfl, zero_mul]
    cases v with
    | notANumber => cases hv
    | infinity t => cases hv
    | zero t => exact ⟨rfl, rfl⟩
    | finite t n f hn => exact ⟨rfl, rfl⟩
  | finite s m e hm =>
    cases v with
    | notANumber => cases hv
    | infinity t => cases hv
    | zero t =>
      rw [value_of_isZero (u := .zero t) rfl, mul_zero]
      exact ⟨rfl, rfl⟩
    | finite t n f hn =>
      refine ⟨rfl, ?_⟩
      rw [exactMul, value, value, value, zpow_add₀ two_ne_zero, Nat.cast_mul, apply_mul_apply,
        Int.cast_mul]
      ring

lemma toInt?_neg (hx : toInt? x = some a) : toInt? (-x) = some (-a) := by
  rw [toInt?_eq_some_iff] at hx ⊢
  rw [view_neg]
  have hvalue : (view x).neg.isFinite = (view x).isFinite
    ∧ value (view x).neg = -value (view x) := by
    cases view x with
    | finite s m e hm =>
      cases s <;> simp [UnpackedFloat.neg, UnpackedFloat.isFinite, value, Sign.apply]
    | _ => exact ⟨rfl, neg_zero.symm⟩
  rw [hvalue.1, hvalue.2, hx.2, Int.cast_neg]
  exact ⟨hx.1, rfl⟩

lemma toInt?_mul (hx : toInt? x = some a) (hy : toInt? y = some b) (h : (a * b).natAbs ≤ 2 ^ 53) :
    toInt? (x * y) = some (a * b) := by
  rw [toInt?_eq_some_iff] at hx hy
  have hproduct : value (view x) * value (view y) = (a * b : Int) := by
    rw [hx.2, hy.2, Int.cast_mul]
  have hu := isView_view x
  have hv := isView_view y
  rw [view_mul]
  generalize view x = u at *
  generalize view y = v at *
  have hzero (s : Sign) (hzero : value u * value v = 0) :
      toInt? (ofView (.zero s)) = some (a * b) := by
    rw [hzero, eq_comm, Int.cast_eq_zero] at hproduct
    rw [hproduct]
    cases s <;> rfl
  cases hu with
  | notANumber => cases hx.1
  | infinity s => cases hx.1
  | zero s =>
    cases hv with
    | notANumber => cases hy.1
    | infinity t => cases hy.1
    | _ => exact hzero _ (by rw [value_of_isZero (u := .zero s) rfl, zero_mul])
  | @finite s m e hm hdouble =>
    cases hv with
    | notANumber => cases hy.1
    | infinity t => cases hy.1
    | zero t => exact hzero _ (by rw [value_of_isZero (u := .zero t) rfl, mul_zero])
    | @finite t l f hl hdouble' =>
      have hvalue : ((s * t).apply (m * l : Nat) * 2 ^ (e + f) : ℚ) = (a * b : Int) := by
        rw [← hproduct, value, value, zpow_add₀ two_ne_zero, Nat.cast_mul, apply_mul_apply,
          Int.cast_mul]
        ring
      obtain ⟨m', e', hm', hdouble'', hvalue', hint⟩ :=
        exists_canonical (Nat.mul_pos hm hl) hvalue h
      have hrounds : Rounds (m * l * 2 ^ (e + f)) m' e' := by
        rw [← Nat.cast_mul, ← hvalue']
        exact .self m' e'
      rwa [mul_eq hdouble'' hrounds (hdouble.mul_bits hm hl hdouble')]

lemma toInt?_add (hx : toInt? x = some a) (hy : toInt? y = some b) (h : (a + b).natAbs ≤ 2 ^ 53) :
    toInt? (x + y) = some (a + b) := by
  rw [toInt?_eq_some_iff] at hx hy
  rw [view_add]
  refine toInt?_ofView_add hx.1 hy.1 (fun _ => isView_view y) (fun _ => isView_view x) ?_ h
  rw [hx.2, hy.2, Int.cast_add]

lemma toInt?_fusedMulAdd (hx : toInt? x = some a) (hy : toInt? y = some b) (hz : toInt? z = some c)
    (h : (a * b + c).natAbs ≤ 2 ^ 53) : toInt? (fusedMulAdd x y z) = some (a * b + c) := by
  rw [toInt?_eq_some_iff] at hx hy hz
  obtain ⟨hfinite, hmul⟩ := value_exactMul hx.1 hy.1
  have hsum : value (exactMul (view x) (view y)) + value (view z) = (a * b + c : Int) := by
    rw [hmul, hx.2, hy.2, hz.2, Int.cast_add, Int.cast_mul]
  have hview := isView_view z
  unfold fusedMulAdd
  generalize exactMul (view x) (view y) = p at *
  generalize view z = w at *
  split
  · rename_i s m e hm t
    rw [value_of_isZero (u := .zero t) rfl, add_zero] at hsum
    exact toInt?_nearest hsum h s
  · rename_i hno
    refine toInt?_ofView_add hfinite hz.1 (fun _ => hview) (fun hzero => ?_) hsum h
    cases w with
    | zero t =>
      cases p with
      | notANumber => exact .notANumber
      | infinity s => exact .infinity s
      | zero s => exact .zero s
      | finite s m e hm => exact absurd rfl (hno s m e hm t rfl)
    | _ => cases hzero

/-! ### Order -/

lemma lt_of_exponent_lt {m l : Nat} {e f : Int} (hm : IsDouble m e) (hl : IsDouble l f)
    (h : e < f) : (m * 2 ^ e : ℚ) < l * 2 ^ f := by
  have hlarge : 2 ^ 52 ≤ l := hl.normal_or_least.resolve_right fun hleast => by
    have := hm.exponent_ge
    omega
  calc (m * 2 ^ e : ℚ) < 2 ^ 53 * 2 ^ e := by
        gcongr
        exact_mod_cast hm.mantissa_lt
    _ = 2 ^ 52 * 2 ^ (e + 1) := by
        rw [zpow_add_one₀ two_ne_zero]
        ring
    _ ≤ l * 2 ^ f := by
        gcongr
        · exact_mod_cast hlarge
        · exact one_le_two
        · exact h

/-- Doubles are ordered by their exponents first. -/
lemma compare_doubles {m l : Nat} {e f : Int} (hm : IsDouble m e) (hl : IsDouble l f) :
    (compare e f).then (compare m l) = .lt ↔ (m * 2 ^ e : ℚ) < l * 2 ^ f := by
  rw [Ordering.then_eq_lt, compare_lt_iff_lt, compare_eq_iff_eq, compare_lt_iff_lt]
  rcases lt_trichotomy e f with h | rfl | h
  · exact iff_of_true (.inl h) (lt_of_exponent_lt hm hl h)
  · simp [zpow_pos]
  · refine iff_of_false ?_ (lt_of_exponent_lt hl hm h).not_gt
    rintro (hlt | ⟨rfl, -⟩)
    · exact absurd hlt h.not_gt
    · exact absurd h (lt_irrefl _)

lemma view_lt_iff (hu : IsView u) (hv : IsView v) (hufin : u.isFinite = true)
    (hvfin : v.isFinite = true) : u.lt v = true ↔ value u < value v := by
  have hpos {m : Nat} (hm : 0 < m) (e : Int) :
      (0 : ℚ) < value (.finite .positive m e hm) := by
    rw [value, Sign.apply]
    positivity
  have hneg {m : Nat} (hm : 0 < m) (e : Int) :
      value (.finite .negative m e hm) = -value (.finite .positive m e hm) := by
    rw [value, value, Sign.apply, Sign.apply, Int.cast_neg, neg_mul]
  cases hu with
  | notANumber => cases hufin
  | infinity s => cases hufin
  | zero s =>
    rw [value_of_isZero (u := .zero s) rfl]
    cases hv with
    | notANumber => cases hvfin
    | infinity t => cases hvfin
    | zero t => exact iff_of_false Bool.false_ne_true (lt_irrefl _)
    | @finite t l f hl h =>
      cases t with
      | positive => exact iff_of_true rfl (hpos hl f)
      | negative => exact iff_of_false Bool.false_ne_true (by rw [hneg]; linarith [hpos hl f])
  | @finite s m e hm h =>
    cases hv with
    | notANumber => cases hvfin
    | infinity t => cases hvfin
    | zero t =>
      rw [value_of_isZero (u := .zero t) rfl]
      cases s with
      | positive => exact iff_of_false Bool.false_ne_true (hpos hm e).not_gt
      | negative => exact iff_of_true rfl (by rw [hneg]; linarith [hpos hm e])
    | @finite t l f hl h' =>
      cases s with
      | positive =>
        cases t with
        | positive =>
          refine Iff.trans ?_ (compare_doubles h h')
          change (some _ == some Ordering.lt) = true ↔ _
          rw [beq_iff_eq, Option.some.injEq]
        | negative =>
          exact iff_of_false Bool.false_ne_true (by rw [hneg]; linarith [hpos hm e, hpos hl f])
      | negative =>
        cases t with
        | positive => exact iff_of_true rfl (by rw [hneg]; linarith [hpos hm e, hpos hl f])
        | negative =>
          rw [hneg, hneg, neg_lt_neg_iff]
          refine Iff.trans ?_ (compare_doubles h' h)
          change (some (Ordering.swap _) == some Ordering.lt) = true ↔ _
          rw [beq_iff_eq, Option.some.injEq, Ordering.swap_then, ← Int.compare_swap,
            ← Nat.compare_swap,
            Ordering.swap_swap, Ordering.swap_swap]

lemma lt_iff_of_toInt? (hx : toInt? x = some a) (hy : toInt? y = some b) : x < y ↔ a < b := by
  rw [toInt?_eq_some_iff] at hx hy
  rw [lt_iff_view, ← Int.cast_lt (R := ℚ), ← hx.2, ← hy.2,
    view_lt_iff (isView_view x) (isView_view y) hx.1 hy.1]

end Reckoner.Binary64
