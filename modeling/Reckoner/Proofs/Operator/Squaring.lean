import Reckoner.Proofs.Binary64.Integers
import Reckoner.Proofs.Operator.Pointwise

/-!
# Powers by repeated squaring

The loop keeps `result * base ^ n`. What its products keep is kept by the whole power, although the
last turn squares the base once more than is needed. Powers of Gaussian integers are exact as long
as their modulus is at most `2 ^ 53`.
-/

namespace Reckoner

namespace Complex

open Binary64 (toInt?)

variable {z w : Complex} {n : Nat}

/-! ### The loop -/

lemma squaring_zero (base result : Complex) : squaring base result 0 = result := by
  rw [squaring, dif_pos rfl]

lemma squaring_of_pos (base result : Complex) (hn : 0 < n) :
    squaring base result n
      = squaring (base * base) (if n % 2 = 1 then result * base else result) (n / 2) := by
  rw [squaring, dif_neg hn.ne']

/-- What the loop keeps. `R z a` says that `z` stands for `a`, and a product does so if it is one of
`P`. Only the products that the result is made of have to be, so that the base is free to leave the
range in the last turn. -/
lemma squaring_stands {M : Type} [CommMonoid M] {R : Complex → M → Prop} {P : M → Prop}
    (hmul : ∀ {z w a b}, R z a → R w b → P (a * b) → R (z * w) (a * b)) {base result : Complex}
    {b r : M} (hbase : R base b) (hresult : R result r) (hpow : ∀ m ≤ n, 0 < m → P (b ^ m))
    (hproduct : ∀ m ≤ n, 0 < m → P (r * b ^ m)) : R (squaring base result n) (r * b ^ n) := by
  induction n using Nat.strong_induction_on generalizing base result b r with
  | _ n ih =>
  obtain rfl | rfl | hn : n = 0 ∨ n = 1 ∨ 2 ≤ n := by omega
  · rwa [squaring_zero, pow_zero, mul_one]
  · rw [squaring_of_pos _ _ one_pos, if_pos (Nat.mod_eq_of_lt one_lt_two),
      Nat.div_eq_of_lt one_lt_two, squaring_zero]
    have hlast := hproduct 1 le_rfl one_pos
    rw [pow_one] at hlast ⊢
    exact hmul hresult hbase hlast
  · rw [squaring_of_pos _ _ (by omega)]
    have hsquare : R (base * base) (b * b) := hmul hbase hbase (pow_two b ▸ hpow 2 hn two_pos)
    have hpow' : ∀ m ≤ n / 2, 0 < m → P ((b * b) ^ m) := fun m hm hpos => by
      rw [← pow_two, ← pow_mul]
      exact hpow (2 * m) (by omega) (by omega)
    have hhalf := Nat.div_lt_self (n := n) (k := 2) (by omega) (by decide)
    rcases Nat.mod_two_eq_zero_or_one n with heven | hodd
    · rw [if_neg (by omega)]
      have hsplit : r * b ^ n = r * (b * b) ^ (n / 2) := by
        rw [← pow_two, ← pow_mul]
        congr 2
        omega
      rw [hsplit]
      refine ih (n / 2) hhalf hsquare hresult hpow' fun m hm hpos => ?_
      rw [← pow_two, ← pow_mul]
      exact hproduct (2 * m) (by omega) (by omega)
    · rw [if_pos hodd]
      have hsplit (m : Nat) : r * b * (b * b) ^ m = r * b ^ (2 * m + 1) := by
        rw [← pow_two, ← pow_mul, pow_succ', mul_assoc]
      have hn' : r * b ^ n = r * b * (b * b) ^ (n / 2) := by
        rw [hsplit]
        congr 2
        omega
      have hfirst : P (r * b) := by
        have := hproduct 1 (by omega) one_pos
        rwa [pow_one] at this
      rw [hn']
      refine ih (n / 2) hhalf hsquare (hmul hresult hbase hfirst) hpow' fun m hm hpos => ?_
      rw [hsplit]
      exact hproduct (2 * m + 1) (by omega) (by omega)

/-! ### Gaussian integers -/

/-- Whether both parts are those of a Gaussian integer. -/
def IsGaussian (z : Complex) (g : GaussianInt) : Prop :=
  toInt? z.re = some g.re ∧ toInt? z.im = some g.im

lemma norm_eq (g : GaussianInt) : g.norm = g.re * g.re + g.im * g.im := by
  rw [Zsqrtd.norm_def]
  ring

lemma natAbs_le_of_mul_self_le {a : Int} (h : a * a ≤ 2 ^ 53 * 2 ^ 53) : a.natAbs ≤ 2 ^ 53 :=
  Int.natAbs_le_iff_mul_self_le.2 h

lemma natAbs_le_of_norm {g : GaussianInt} (h : g.norm ≤ 2 ^ 53 * 2 ^ 53) :
    g.re.natAbs ≤ 2 ^ 53 ∧ g.im.natAbs ≤ 2 ^ 53 := by
  rw [norm_eq] at h
  constructor
  · exact natAbs_le_of_mul_self_le (by linarith [mul_self_nonneg g.im])
  · exact natAbs_le_of_mul_self_le (by linarith [mul_self_nonneg g.re])

/-- A product of two parts is at most as great as the product of the moduli. -/
lemma natAbs_mul_le {a b c d : Int}
    (h : (a * a + b * b) * (c * c + d * d) ≤ 2 ^ 53 * 2 ^ 53) : (a * c).natAbs ≤ 2 ^ 53 := by
  refine natAbs_le_of_mul_self_le ?_
  linarith [mul_self_nonneg (a * d), mul_self_nonneg (b * c), mul_self_nonneg (b * d)]

/-- A product of Gaussian integers is exact if its modulus is at most `2 ^ 53`. -/
lemma IsGaussian.mul {g h : GaussianInt} (hz : z.IsGaussian g) (hw : w.IsGaussian h)
    (hnorm : (g * h).norm ≤ 2 ^ 53 * 2 ^ 53) : (z * w).IsGaussian (g * h) := by
  obtain ⟨hre, him⟩ := natAbs_le_of_norm hnorm
  rw [Zsqrtd.norm_mul, norm_eq, norm_eq] at hnorm
  have hre' : (g * h).re = g.re * h.re + -(g.im * h.im) := by
    rw [Zsqrtd.re_mul]
    ring
  have him' : (g * h).im = g.re * h.im + g.im * h.re := Zsqrtd.im_mul g h
  rw [hre'] at hre
  rw [him'] at him
  have hinner : toInt? (-(z.im * w.im)) = some (-(g.im * h.im)) := by
    refine Binary64.toInt?_neg (Binary64.toInt?_mul hz.2 hw.2 ?_)
    exact natAbs_mul_le (b := g.re) (d := h.re) (by linarith)
  have houter : toInt? (z.im * w.re) = some (g.im * h.re) := by
    refine Binary64.toInt?_mul hz.2 hw.1 ?_
    exact natAbs_mul_le (b := g.re) (d := h.im) (by linarith)
  constructor
  · rw [hre']
    exact Binary64.toInt?_fusedMulAdd hz.1 hw.1 hinner hre
  · rw [him']
    exact Binary64.toInt?_fusedMulAdd hz.1 hw.2 houter him

lemma isGaussian_one : one.IsGaussian 1 := by
  constructor <;> decide +kernel

/-- The norms of the powers of a Gaussian integer grow, unless it is zero. -/
lemma norm_pow_le {g : GaussianInt} {m : Nat} {bound : Int} (hm : 0 < m) (hle : m ≤ n)
    (h : (g ^ n).norm ≤ bound) : (g ^ m).norm ≤ bound := by
  refine le_trans ?_ h
  change Zsqrtd.normMonoidHom _ ≤ Zsqrtd.normMonoidHom _
  rw [map_pow, map_pow]
  rcases (GaussianInt.norm_nonneg g).eq_or_lt with hzero | hpos
  · change (0 : Int) = Zsqrtd.normMonoidHom g at hzero
    rw [← hzero, zero_pow hm.ne', zero_pow (by omega)]
  · exact pow_le_pow_right₀ hpos hle

/-- A power of a Gaussian integer is exact if its modulus is at most `2 ^ 53`. -/
lemma IsGaussian.squaring {g : GaussianInt} (hz : z.IsGaussian g)
    (hnorm : (g ^ n).norm ≤ 2 ^ 53 * 2 ^ 53) : (squaring z one n).IsGaussian (g ^ n) := by
  have hpow : ∀ m ≤ n, 0 < m → (g ^ m).norm ≤ 2 ^ 53 * 2 ^ 53 :=
    fun m hm hpos => norm_pow_le hpos hm hnorm
  have h := squaring_stands (R := IsGaussian) (P := fun g => g.norm ≤ 2 ^ 53 * 2 ^ 53) (n := n)
    IsGaussian.mul hz isGaussian_one hpow (by simpa using hpow)
  rwa [one_mul] at h

end Complex

/-! ### The operator -/

namespace Operator

open Binary64 (toInt?)

variable {a b : Complex} {n : Int}

lemma power_of_toInt? (hreal : b.isReal = true) (hexponent : toInt? b.re = some n)
    (hsmall : n.natAbs ≤ maxIntegralExponent) : power a b = a.powInt n := by
  have hfilter : (some n).filter (·.natAbs ≤ maxIntegralExponent) = some n := by
    rw [Option.filter_some, if_pos (by simpa using hsmall)]
  simp only [power, hreal, if_true, hexponent, hfilter]

lemma lt_zero_iff_of_toInt? {x : Float} (h : toInt? x = some n) : x < 0 ↔ n < 0 :=
  Binary64.lt_iff_of_toInt? h (by decide +kernel)

end Operator

namespace OperatorTable

open Binary64 (toInt?)

variable {z w : Complex}

/-- An integral power is found by the loop, save that of zero with a negative exponent. -/
lemma apply_pow_of_toInt? {n : Int} (hreal : w.isReal = true) (hexponent : toInt? w.re = some n)
    (hsmall : n.natAbs ≤ Operator.maxIntegralExponent) (hdefined : 0 ≤ n ∨ z.isZero = false) :
    standard.apply .pow (.scalar z) (.scalar w) = .ok (.scalar (z.powInt n)) := by
  rw [apply_scalars (by decide), Operator.arithmetic,
    Operator.power_of_toInt? hreal hexponent hsmall, if_neg, Except.map]
  rw [Bool.and_eq_true, decide_eq_true_eq, Operator.lt_zero_iff_of_toInt? hexponent]
  rintro ⟨hzero, hneg⟩
  rcases hdefined with hn | hz
  · exact hn.not_gt hneg
  · rw [hz] at hzero
    cases hzero

lemma apply_pow_gaussian {g : GaussianInt} {n : Nat} (hz : z.IsGaussian g)
    (hreal : w.isReal = true) (hexponent : toInt? w.re = some n)
    (hsmall : n ≤ Operator.maxIntegralExponent) (hmodulus : (g ^ n).norm ≤ 2 ^ 53 * 2 ^ 53) :
    ∃ p : Complex, standard.apply .pow (.scalar z) (.scalar w) = .ok (.scalar p)
      ∧ p.IsGaussian (g ^ n) := by
  refine ⟨z.powInt n, apply_pow_of_toInt? hreal hexponent hsmall (.inl n.cast_nonneg), ?_⟩
  rw [Complex.powInt, if_neg (by omega), Int.natAbs_natCast]
  exact hz.squaring hmodulus

end OperatorTable

namespace Expr

open Binary64 (toInt?)

variable {c : Context} {l r : Expr} {z w : Complex}

lemma value?_binary {op : BinaryOperator} {v w : Value} (hl : l.value? c = some v)
    (hr : r.value? c = some w) : (binary op l r).value? c = op.result? v w := by
  rw [value?, hl, Option.bind_some, hr, Option.bind_some]

/-- Powers of Gaussian integers are exact: such a number to a natural power up to the greatest
integral exponent has both parts of the power, provided that its modulus is at most `2 ^ 53`. -/
theorem value?_pow_gaussian {g : GaussianInt} {n : Nat} (hl : l.value? c = some (.scalar z))
    (hr : r.value? c = some (.scalar w)) (hz : z.IsGaussian g) (hreal : w.isReal = true)
    (hexponent : toInt? w.re = some n) (hsmall : n ≤ Operator.maxIntegralExponent)
    (hmodulus : (g ^ n).norm ≤ 2 ^ 53 * 2 ^ 53) :
    ∃ p : Complex, (binary .pow l r).value? c = some (.scalar p) ∧ p.IsGaussian (g ^ n) := by
  obtain ⟨p, happly, hp⟩ := OperatorTable.apply_pow_gaussian hz hreal hexponent hsmall hmodulus
  refine ⟨p, ?_, hp⟩
  rw [value?_binary hl hr, BinaryOperator.result?, happly]
  rfl

/-- The base of `(1 + i) ^ 106` is squared up to `(1 + i) ^ 128`, whose modulus is `2 ^ 64`. -/
theorem value?_pow_gaussian_unit :
    ∃ p : Complex,
      (binary .pow (.identifier "z") (.number 106)).value?
        (Context.initial.set "z" (.scalar ⟨1, 1⟩))
          = some (.scalar p)
        ∧ p.IsGaussian ⟨0, 2 ^ 53⟩ := by
  have hpower : (⟨1, 1⟩ : GaussianInt) ^ 106 = ⟨0, 2 ^ 53⟩ := by decide +kernel
  rw [← hpower]
  refine value?_pow_gaussian (z := ⟨1, 1⟩) (w := ⟨106, 0⟩) rfl rfl ⟨?_, ?_⟩ ?_ ?_ (by decide) ?_
  all_goals decide +kernel

end Expr

end Reckoner
