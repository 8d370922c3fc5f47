import Reckoner.Proofs.Operator.Squaring
import Reckoner.Proofs.Substitution.Literal

/-!
# Real arithmetic

Real numbers are complex numbers with a zero imaginary part, and their products are complex
products, which multiply the zero of one factor by the real part of the other. The zero is lost if
that part is not finite. What is kept by every product is that a result with a finite real part is
real.
-/

namespace Reckoner

namespace Binary64

open Float.Model (UnpackedFloat Format)
open Float.Model.UnpackedFloat

variable {x y z : Float}

/-! ### Operations on zeros -/

lemma isFinite_of_beq_zero (hx : (x == 0) = true) : x.isFinite = true := by
  rw [beq_zero] at hx
  rw [isFinite_view]
  cases hu : view x with
  | zero s => rfl
  | _ => rw [hu] at hx; cases hx

lemma beq_zero_neg (x : Float) : (-x == 0) = (x == 0) := by
  rw [beq_zero, beq_zero, isZero_neg]

lemma add_beq_zero (hx : (x == 0) = true) (hy : (y == 0) = true) : (x + y == 0) = true := by
  rw [beq_zero] at hx hy ⊢
  rw [view_add]
  cases hu : view x with
  | zero s =>
    cases hv : view y with
    | zero t => cases s <;> cases t <;> rfl
    | _ => rw [hv] at hy; cases hy
  | _ => rw [hu] at hx; cases hx

lemma sub_beq_zero (hx : (x == 0) = true) (hy : (y == 0) = true) : (x - y == 0) = true := by
  have hsub : x - y = ofView (UnpackedFloat.sub Format.binary64 (view x) (view y)) := rfl
  rw [beq_zero] at hx hy ⊢
  rw [hsub]
  cases hu : view x with
  | zero s =>
    cases hv : view y with
    | zero t => cases s <;> cases t <;> rfl
    | _ => rw [hv] at hy; cases hy
  | _ => rw [hu] at hx; cases hx

lemma isZero_view_ofView {u : UnpackedFloat} (h : IsView u) :
    isZero (view (ofView u)) = isZero u :=
  congrArg isZero (view_ofView_of_isView h)

/-- A zero times a number is a zero if the number is finite. -/
lemma mul_beq_zero (hx : (x == 0) = true) : (x * y == 0) = y.isFinite := by
  rw [beq_zero] at hx ⊢
  rw [view_mul, isFinite_view]
  cases hu : view x with
  | zero s =>
    cases view y with
    | notANumber => exact isZero_view_ofView .notANumber
    | infinity t => exact isZero_view_ofView .notANumber
    | zero t => exact isZero_view_ofView (.zero (s * t))
    | finite t m e hm => exact isZero_view_ofView (.zero (s * t))
  | _ => rw [hu] at hx; cases hx

/-- A number times a zero, added to another number, is a zero if the first number is finite and the
other one a zero. -/
lemma fusedMulAdd_beq_zero (hy : (y == 0) = true) :
    (fusedMulAdd x y z == 0) = (x.isFinite && z == 0) := by
  have hview := isView_view z
  rw [beq_zero] at hy ⊢
  rw [beq_zero, isFinite_view, fusedMulAdd]
  have hadd (s : Sign) :
      isZero (view (ofView (UnpackedFloat.add Format.binary64 (.zero s) (view z))))
        = isZero (view z) := by
    generalize view z = w at *
    cases hview with
    | notANumber => exact isZero_view_ofView .notANumber
    | infinity t => exact isZero_view_ofView (.infinity t)
    | zero t => cases s <;> cases t <;> rfl
    | finite t hm h => exact isZero_view_ofView (.finite t hm h)
  cases hv : view y with
  | zero t =>
    cases view x with
    | notANumber => exact isZero_view_ofView .notANumber
    | infinity s => exact isZero_view_ofView .notANumber
    | zero s => exact hadd (s * t)
    | finite s m e hm => exact hadd (s * t)
  | _ => rw [hv] at hy; cases hy

/-! ### Finite results -/

lemma isFinite_view_ofView {u : UnpackedFloat} (h : IsView u) :
    (view (ofView u)).isFinite = u.isFinite :=
  congrArg UnpackedFloat.isFinite (view_ofView_of_isView h)

/-- No sum with infinity or without a value is finite. -/
lemma isFinite_ofView_add {u : UnpackedFloat} (hu : u.isFinite = false) (v : UnpackedFloat) :
    (ofView (UnpackedFloat.add Format.binary64 u v)).isFinite = false := by
  cases u with
  | notANumber => exact isFinite_view_ofView .notANumber
  | infinity s =>
    cases v with
    | notANumber => exact isFinite_view_ofView .notANumber
    | infinity t =>
      cases s <;> cases t
      · exact isFinite_view_ofView (.infinity .negative)
      · exact isFinite_view_ofView .notANumber
      · exact isFinite_view_ofView .notANumber
      · exact isFinite_view_ofView (.infinity .positive)
    | zero t => exact isFinite_view_ofView (.infinity s)
    | finite t m e hm => exact isFinite_view_ofView (.infinity s)
  | zero s => cases hu
  | finite s m e hm => cases hu

lemma isFinite_exactMul (u v : UnpackedFloat) :
    (exactMul u v).isFinite = (u.isFinite && v.isFinite) := by
  cases u <;> cases v <;> rfl

/-- The factors of a finite number are finite. -/
lemma isFinite_of_fusedMulAdd (h : (fusedMulAdd x y z).isFinite = true) :
    x.isFinite = true ∧ y.isFinite = true := by
  have hfactors : ((view x).isFinite && (view y).isFinite) = true := by
    rw [← isFinite_exactMul]
    refine Bool.of_not_eq_false fun hproduct => ?_
    unfold fusedMulAdd at h
    generalize exactMul (view x) (view y) = p at *
    split at h
    · cases hproduct
    · rw [isFinite_ofView_add hproduct] at h
      cases h
  exact Bool.and_eq_true_iff.1 hfactors

/-- No quotient by a zero is finite. -/
lemma isFinite_ofView_div_zero (u : UnpackedFloat) (t : Sign) :
    (ofView (UnpackedFloat.div Format.binary64 u (.zero t))).isFinite = false := by
  cases u with
  | notANumber => exact isFinite_view_ofView .notANumber
  | infinity s => exact isFinite_view_ofView (.infinity (s / t))
  | zero s => exact isFinite_view_ofView .notANumber
  | finite s m e hm => exact isFinite_view_ofView (.infinity (s / t))

lemma isFinite_div_zero (hy : (y == 0) = true) : (x / y).isFinite = false := by
  rw [beq_zero] at hy
  rw [view_div]
  cases hv : view y with
  | zero t => exact isFinite_ofView_div_zero (view x) t
  | _ => rw [hv] at hy; cases hy

lemma isFinite_ofView_div_notANumber (u : UnpackedFloat) :
    (ofView (UnpackedFloat.div Format.binary64 u .notANumber)).isFinite = false := by
  cases u <;> exact isFinite_view_ofView .notANumber

/-- No quotient of infinity is finite. -/
lemma isFinite_ofView_div {u : UnpackedFloat} (hu : u.isFinite = false) (v : UnpackedFloat) :
    (ofView (UnpackedFloat.div Format.binary64 u v)).isFinite = false := by
  cases u with
  | notANumber => exact isFinite_view_ofView .notANumber
  | infinity s =>
    cases v with
    | notANumber => exact isFinite_view_ofView .notANumber
    | infinity t => exact isFinite_view_ofView .notANumber
    | zero t => exact isFinite_view_ofView (.infinity (s / t))
    | finite t m e hm => exact isFinite_view_ofView (.infinity (s / t))
  | zero s => cases hu
  | finite s m e hm => cases hu

lemma isFinite_of_div (h : (x / y).isFinite = true) : x.isFinite = true := by
  refine Bool.of_not_eq_false fun hx => ?_
  rw [view_div, isFinite_ofView_div hx] at h
  cases h

/-- If some number has a finite quotient by `y`, then that of a zero is a zero. -/
lemma div_beq_zero (hx : (x == 0) = true) (h : (z / y).isFinite = true) : (x / y == 0) = true := by
  rw [beq_zero] at hx ⊢
  rw [view_div] at h ⊢
  cases hu : view x with
  | zero s =>
    generalize view y = v at *
    cases v with
    | notANumber =>
      rw [isFinite_ofView_div_notANumber] at h
      cases h
    | infinity t => exact isZero_view_ofView (.zero (s / t))
    | zero t =>
      rw [isFinite_ofView_div_zero] at h
      cases h
    | finite t m e hm => exact isZero_view_ofView (.zero (s / t))
  | _ => rw [hu] at hx; cases hx

end Binary64

namespace Complex

variable {z w : Complex}

/-! ### Parts of real numbers -/

lemma isReal_add (hz : z.isReal = true) (hw : w.isReal = true) : (z + w).isReal = true :=
  Binary64.add_beq_zero hz hw

lemma isReal_sub (hz : z.isReal = true) (hw : w.isReal = true) : (z - w).isReal = true :=
  Binary64.sub_beq_zero hz hw

lemma isReal_div (hz : z.isReal = true) (hw : w.isReal = true) : (z / w).isReal = true := by
  have hdiv : z / w = ofReal (z.re / w.re) := if_pos (by rw [hz, hw]; rfl)
  rw [hdiv]
  exact Value.isReal_ofReal _

/-- A product of real numbers is real if both are finite. -/
lemma isReal_mul (hz : z.isReal = true) (hw : w.isReal = true) :
    (z * w).isReal = (z.re.isFinite && w.re.isFinite) := by
  have hmul : (z * w).im = Binary64.fusedMulAdd z.re w.im (z.im * w.re) := rfl
  rw [isReal, hmul, Binary64.fusedMulAdd_beq_zero hw, Binary64.mul_beq_zero hz]

/-- Whether a number is real unless its real part is not finite. -/
def IsRealOrUnbounded (z : Complex) : Prop :=
  z.re.isFinite = true → z.isReal = true

lemma IsRealOrUnbounded.mul (hz : z.IsRealOrUnbounded) (hw : w.IsRealOrUnbounded) :
    (z * w).IsRealOrUnbounded := by
  intro hfinite
  obtain ⟨hzfin, hwfin⟩ := Binary64.isFinite_of_fusedMulAdd hfinite
  rw [isReal_mul (hz hzfin) (hw hwfin), hzfin, hwfin]
  rfl

lemma IsRealOrUnbounded.squaring (hz : z.IsRealOrUnbounded) (n : Nat) :
    (squaring z one n).IsRealOrUnbounded :=
  squaring_stands (M := Unit) (R := fun z _ => z.IsRealOrUnbounded) (P := fun _ => True) (b := ())
    (r := ()) (fun hz hw _ => hz.mul hw) hz (fun _ => by decide +kernel) (fun _ _ _ => trivial)
    fun _ _ _ => trivial

lemma IsRealOrUnbounded.recip (hz : z.IsRealOrUnbounded) : z.recip.IsRealOrUnbounded := by
  intro hfinite
  have hreal := hz (Binary64.isFinite_of_div hfinite)
  have him : (z.recip.im == 0) = (z.im / (z.re * z.re + z.im * z.im) == 0) :=
    Binary64.beq_zero_neg _
  rw [isReal, him]
  exact Binary64.div_beq_zero hreal hfinite

lemma IsRealOrUnbounded.powInt (hz : z.IsRealOrUnbounded) (n : Int) :
    (z.powInt n).IsRealOrUnbounded := by
  rw [Complex.powInt]
  split
  · exact (hz.squaring _).recip
  · exact hz.squaring _

end Complex

namespace Operator

open Binary64 (toInt?)

variable {z w : Complex}

/-- Whether a number is an integer that is raised to by repeated squaring. -/
def IsSmallExponent (w : Complex) : Prop :=
  ∃ n, toInt? w.re = some n ∧ n.natAbs ≤ maxIntegralExponent

/-- The power of a real number that is not negative is taken among the real numbers. -/
lemma isReal_power (hz : z.isReal = true) (hw : w.isReal = true) (hnonneg : z.re ≥ 0)
    (hexponent : ¬ IsSmallExponent w) : (power z w).isReal = true := by
  have hfilter : (toInt? w.re).filter (·.natAbs ≤ maxIntegralExponent) = none := by
    rw [Option.filter_eq_none_iff]
    exact fun n hn hsmall => hexponent ⟨n, hn, of_decide_eq_true hsmall⟩
  simp only [power, hz, hw, if_true, hfilter, hnonneg, decide_true, Bool.and_self]
  exact Value.isReal_ofReal _

/-- What is known of the result `p` of an operator on the real numbers `z` and `w`. Products and
small integral powers are found by complex products, which may lose a zero imaginary part. -/
structure KeepsReal (op : BinaryOperator) (z w p : Complex) : Prop where
  of_isFinite : p.re.isFinite = true → p.isReal = true
  of_product : op = .mul → p.isReal = (z.re.isFinite && w.re.isFinite)
  of_other : op ≠ .mul → ¬ (op = .pow ∧ IsSmallExponent w) → p.isReal = true

lemma KeepsReal.of_isReal {op : BinaryOperator} {p : Complex} (hp : p.isReal = true)
    (hop : op ≠ .mul) : KeepsReal op z w p where
  of_isFinite _ := hp
  of_product h := absurd h hop
  of_other _ _ := hp

lemma keepsReal_mul (hz : z.isReal = true) (hw : w.isReal = true) : KeepsReal .mul z w (z * w) where
  of_isFinite := Complex.IsRealOrUnbounded.mul (fun _ => hz) fun _ => hw
  of_product _ := Complex.isReal_mul hz hw
  of_other h := absurd rfl h

lemma keepsReal_power (hz : z.isReal = true) (hw : w.isReal = true)
    (hpow : IsSmallExponent w ∨ z.re ≥ 0) : KeepsReal .pow z w (power z w) := by
  by_cases hsmall : IsSmallExponent w
  · obtain ⟨n, hn, hle⟩ := hsmall
    rw [power_of_toInt? hw hn hle]
    exact
      { of_isFinite := Complex.IsRealOrUnbounded.powInt (fun _ => hz) n
        of_product := fun h => absurd h (by decide)
        of_other := fun _ h => absurd ⟨rfl, n, hn, hle⟩ h }
  · exact .of_isReal (isReal_power hz hw (hpow.resolve_left hsmall) hsmall) (by decide)

end Operator

namespace OperatorTable

open Operator (IsSmallExponent KeepsReal)

variable {op : BinaryOperator} {z w : Complex}

/-- Real arithmetic fails or has a real result, but for two cases: a product is real only if both
factors are finite, and a power with a small integral exponent may not be real if its real part is
not finite. With other exponents the base must not be negative. -/
theorem apply_isReal (hop : op ∈ BinaryOperator.arithmetic) (hz : z.isReal = true)
    (hw : w.isReal = true) (hpow : op = .pow → IsSmallExponent w ∨ z.re ≥ 0) :
    standard.apply op (.scalar z) (.scalar w) = .error .divisionByZero
      ∨ ∃ p : Complex, standard.apply op (.scalar z) (.scalar w) = .ok (.scalar p)
          ∧ KeepsReal op z w p := by
  rw [apply_scalars hop]
  cases op with
  | add => exact .inr ⟨_, rfl, .of_isReal (Complex.isReal_add hz hw) (by decide)⟩
  | sub => exact .inr ⟨_, rfl, .of_isReal (Complex.isReal_sub hz hw) (by decide)⟩
  | mul => exact .inr ⟨_, rfl, Operator.keepsReal_mul hz hw⟩
  | div =>
    rw [Operator.arithmetic]
    split
    · exact .inl rfl
    · exact .inr ⟨_, rfl, .of_isReal (Complex.isReal_div hz hw) (by decide)⟩
  | mod =>
    rw [Operator.arithmetic, if_neg (by rw [hz, hw]; decide)]
    split
    · exact .inl rfl
    · exact .inr ⟨_, rfl, .of_isReal (Value.isReal_ofReal _) (by decide)⟩
  | pow =>
    rw [Operator.arithmetic]
    split
    · exact .inl rfl
    · exact .inr ⟨_, rfl, Operator.keepsReal_power hz hw (hpow rfl)⟩
  | _ => exact absurd hop (by decide)

/-- The product of finite numbers is real although it leaves the range of the doubles. -/
theorem apply_isReal_overflow :
    let z : Complex := ⟨1e200, -0⟩
    let w : Complex := ⟨-1e200, 0⟩
    BinaryOperator.mul ∈ BinaryOperator.arithmetic ∧ z.isReal = true ∧ w.isReal = true
      ∧ standard.apply .mul (.scalar z) (.scalar w) = .ok (.scalar (z * w))
      ∧ (z * w).isReal = true ∧ (z * w).re.isFinite = false := by
  intro z w
  have hop : BinaryOperator.mul ∈ BinaryOperator.arithmetic := by decide
  have hz : z.isReal = true := by decide +kernel
  have hw : w.isReal = true := by decide +kernel
  have happly : standard.apply .mul (.scalar z) (.scalar w) = .ok (.scalar (z * w)) :=
    apply_scalars hop z w
  refine ⟨hop, hz, hw, happly, ?_, by decide +kernel⟩
  obtain herror | ⟨p, hp, hkeeps⟩ := apply_isReal hop hz hw fun h => absurd h (by decide)
  · rw [happly] at herror
    cases herror
  · rw [happly] at hp
    cases hp
    rw [hkeeps.of_product rfl]
    decide +kernel

/-- The product of infinity and two is not real: its imaginary part has no value. -/
theorem exists_apply_not_isReal :
    let z := Complex.ofReal Binary64.infinity
    let w := Complex.ofReal 2
    z.isReal = true ∧ w.isReal = true
      ∧ ∃ p : Complex, standard.apply .mul (.scalar z) (.scalar w) = .ok (.scalar p)
          ∧ p.isReal = false ∧ p.im.isNaN = true := by
  intro z w
  refine ⟨Value.isReal_ofReal _, Value.isReal_ofReal _, z * w, apply_scalars (by decide) z w, ?_,
    ?_⟩
  all_goals decide +kernel

end OperatorTable

end Reckoner
