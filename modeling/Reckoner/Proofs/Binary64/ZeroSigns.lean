import Reckoner.Binary64.Checked
import Reckoner.Proofs.Binary64.Same
import Reckoner.Proofs.Results

/-!
# Operations on doubles that look at no sign of a zero

Sums, products and comparisons take doubles that differ in signs of zeros only to such doubles, and
so do the roundings and roots that are made of them. A quotient does as long as the divisor is not
zero.
-/

namespace Reckoner

namespace Binary64

open Float.Model (UnpackedFloat Format)
open Float.Model.UnpackedFloat

/-! ### Views -/

/-- Two views are the same if they are equal or both of zeros. -/
inductive SameView : UnpackedFloat → UnpackedFloat → Prop where
  | refl (u : UnpackedFloat) : SameView u u
  | zero (s t : Sign) : SameView (.zero s) (.zero t)

variable {u u' v v' : UnpackedFloat} {x x' y y' z z' : Float}

lemma same_iff_view : same x y = true ↔ SameView (view x) (view y) := by
  rw [same_iff]
  constructor
  · rintro (rfl | ⟨hx, hy⟩)
    · exact .refl _
    · cases hu : view x with
      | zero s =>
        cases hv : view y with
        | zero t => exact .zero s t
        | _ => rw [hv] at hy; cases hy
      | _ => rw [hu] at hx; cases hx
  · intro h
    generalize hu : view x = u at h
    generalize hv : view y = v at h
    cases h with
    | refl => exact .inl (eq_of_view_eq (hu.trans hv.symm))
    | zero s t => exact .inr ⟨rfl, rfl⟩

/-- Numbers that are the same are equal or two zeros. -/
lemma cases_same (h : same x y = true) :
    x = y ∨ ∃ s t, view x = .zero s ∧ view y = .zero t := by
  rw [same_iff_view] at h
  generalize hu : view x = u at h
  generalize hv : view y = v at h
  cases h with
  | refl => exact .inl (eq_of_view_eq (hu.trans hv.symm))
  | zero s t => exact .inr ⟨s, t, rfl, rfl⟩

lemma eq_of_same (h : same x y = true) (hx : (x == 0) = false) : x = y := by
  rcases cases_same h with rfl | ⟨s, t, hs, -⟩
  · rfl
  · rw [beq_zero, hs] at hx
    cases hx

lemma same_congr (hx : same x x' = true) (hy : same y y' = true) : same x y = same x' y' := by
  rw [Bool.eq_iff_iff]
  constructor
  · exact fun h => same_trans (same_symm hx) (same_trans h hy)
  · exact fun h => same_trans hx (same_trans h (same_symm hy))

lemma same_ofView (h : SameView u v) : same (ofView u) (ofView v) = true := by
  cases h with
  | refl => exact same_refl _
  | zero s t => cases s <;> cases t <;> rfl

namespace SameView

lemma trans {w : UnpackedFloat} (h : SameView u v) (h' : SameView v w) : SameView u w := by
  cases h with
  | refl => exact h'
  | zero s t =>
    cases h' with
    | refl => exact .zero s t
    | zero _ t' => exact .zero s t'

lemma map {f : UnpackedFloat → UnpackedFloat} (hf : ∀ s s', SameView (f (.zero s)) (f (.zero s')))
    (h : SameView u u') : SameView (f u) (f u') := by
  cases h with
  | refl => exact .refl _
  | zero s s' => exact hf s s'

/-- An operation that looks at no sign of a zero on either side. -/
lemma map₂ {f : UnpackedFloat → UnpackedFloat → UnpackedFloat}
    (hleft : ∀ s s' v, SameView (f (.zero s) v) (f (.zero s') v))
    (hright : ∀ u t t', SameView (f u (.zero t)) (f u (.zero t'))) (hu : SameView u u')
    (hv : SameView v v') : SameView (f u v) (f u' v') :=
  (hu.map (f := fun u => f u v) fun s s' => hleft s s' v).trans
    (hv.map (f := fun v => f u' v) fun t t' => hright u' t t')

lemma add (hu : SameView u u') (hv : SameView v v') :
    SameView (UnpackedFloat.add Format.binary64 u v) (UnpackedFloat.add Format.binary64 u' v') := by
  refine map₂ (fun s s' v => ?_) (fun u t t' => ?_) hu hv
  · cases v with
    | zero t => cases s <;> cases s' <;> cases t <;> exact .zero _ _
    | _ => exact .refl _
  · cases u with
    | zero s => cases s <;> cases t <;> cases t' <;> exact .zero _ _
    | _ => exact .refl _

lemma sub (hu : SameView u u') (hv : SameView v v') :
    SameView (UnpackedFloat.sub Format.binary64 u v) (UnpackedFloat.sub Format.binary64 u' v') := by
  refine map₂ (fun s s' v => ?_) (fun u t t' => ?_) hu hv
  · cases v with
    | zero t => cases s <;> cases s' <;> cases t <;> exact .zero _ _
    | _ => exact .refl _
  · cases u with
    | zero s => cases s <;> cases t <;> cases t' <;> exact .zero _ _
    | _ => exact .refl _

lemma exactMul (hu : SameView u u') (hv : SameView v v') :
    SameView (exactMul u v) (exactMul u' v') := by
  refine map₂ (fun s s' v => ?_) (fun u t t' => ?_) hu hv
  · cases v <;> first | exact .refl _ | exact .zero _ _
  · cases u <;> first | exact .refl _ | exact .zero _ _

lemma mul (hu : SameView u u') (hv : SameView v v') :
    SameView (UnpackedFloat.mul Format.binary64 u v) (UnpackedFloat.mul Format.binary64 u' v') := by
  refine map₂ (fun s s' v => ?_) (fun u t t' => ?_) hu hv
  · cases v <;> first | exact .refl _ | exact .zero _ _
  · cases u <;> first | exact .refl _ | exact .zero _ _

/-- A quotient looks at the sign of a zero in the divisor only. -/
lemma div (hu : SameView u u') (v : UnpackedFloat) :
    SameView (UnpackedFloat.div Format.binary64 u v) (UnpackedFloat.div Format.binary64 u' v) := by
  refine map (f := fun u => UnpackedFloat.div Format.binary64 u v) (fun s s' => ?_) hu
  cases v <;> first | exact .refl _ | exact .zero _ _

lemma sqrt (hu : SameView u u') :
    SameView (UnpackedFloat.sqrt Format.binary64 u) (UnpackedFloat.sqrt Format.binary64 u') :=
  map (fun s s' => .zero s s') hu

lemma abs_eq (hu : SameView u u') : u.abs = u'.abs := by
  cases hu <;> rfl

lemma compare_eq (hu : SameView u u') (hv : SameView v v') : u.compare v = u'.compare v' := by
  have hleft : u.compare v = u'.compare v := by
    cases hu with
    | refl => rfl
    | zero s s' =>
      cases v with
      | infinity t => cases t <;> rfl
      | finite t => cases t <;> rfl
      | _ => rfl
  have hright : u'.compare v = u'.compare v' := by
    cases hv with
    | refl => rfl
    | zero t t' =>
      cases u' with
      | infinity s => cases s <;> rfl
      | finite s => cases s <;> rfl
      | _ => rfl
  exact hleft.trans hright

end SameView

/-! ### Arithmetic -/

lemma same_add (hx : same x x' = true) (hy : same y y' = true) : same (x + y) (x' + y') = true :=
  same_ofView ((same_iff_view.1 hx).add (same_iff_view.1 hy))

lemma same_sub (hx : same x x' = true) (hy : same y y' = true) : same (x - y) (x' - y') = true :=
  same_ofView ((same_iff_view.1 hx).sub (same_iff_view.1 hy))

lemma same_mul (hx : same x x' = true) (hy : same y y' = true) : same (x * y) (x' * y') = true :=
  same_ofView ((same_iff_view.1 hx).mul (same_iff_view.1 hy))

lemma same_div (hx : same x x' = true) (y : Float) : same (x / y) (x' / y) = true :=
  same_ofView ((same_iff_view.1 hx).div (view y))

lemma same_sqrt (hx : same x x' = true) : same x.sqrt x'.sqrt = true :=
  same_ofView (same_iff_view.1 hx).sqrt

lemma abs_eq (hx : same x x' = true) : x.abs = x'.abs :=
  congrArg ofView (same_iff_view.1 hx).abs_eq

/-- Adding a zero gives a zero its positive sign. -/
lemma add_zero_eq (hx : same x x' = true) : x + 0 = x' + 0 := by
  rcases cases_same hx with rfl | ⟨s, s', hs, hs'⟩
  · rfl
  · rw [view_add, view_add, view_zero, hs, hs']
    cases s <;> cases s' <;> rfl

lemma mul_self_eq (hx : same x x' = true) : x * x = x' * x' := by
  have hmul (x : Float) : x * x = ofView (UnpackedFloat.mul Format.binary64 (view x) (view x)) :=
    rfl
  rcases cases_same hx with rfl | ⟨s, s', hs, hs'⟩
  · rfl
  · rw [hmul, hmul, hs, hs']
    cases s <;> cases s' <;> rfl

lemma same_fusedMulAdd (hx : same x x' = true) (hy : same y y' = true) (hz : same z z' = true) :
    same (fusedMulAdd x y z) (fusedMulAdd x' y' z') = true := by
  have hp := (same_iff_view.1 hx).exactMul (same_iff_view.1 hy)
  have hc := same_iff_view.1 hz
  unfold fusedMulAdd
  generalize exactMul (view x) (view y) = p at hp
  generalize exactMul (view x') (view y') = p' at hp
  generalize view z = c at hc
  generalize view z' = c' at hc
  cases hp with
  | zero s s' => exact same_ofView ((SameView.zero s s').add hc)
  | refl =>
    cases hc with
    | refl => exact same_refl _
    | zero t t' =>
      cases p with
      | finite => exact same_refl _
      | _ => exact same_ofView ((SameView.refl _).add (.zero t t'))

/-- The square of a number and another square do not depend on signs of zeros. -/
lemma fusedMulAdd_self_eq (hx : same x x' = true) (hy : same y y' = true) :
    fusedMulAdd x x (y * y) = fusedMulAdd x' x' (y' * y') := by
  rw [mul_self_eq hy]
  rcases cases_same hx with rfl | ⟨s, s', hs, hs'⟩
  · rfl
  · simp only [fusedMulAdd, hs, hs']
    cases s <;> cases s' <;> rfl

lemma same_remainder (hx : same x x' = true) (hy : same y y' = true) :
    same (remainder x y) (remainder x' y') = true := by
  have hleft : same (remainder x y) (remainder x' y) = true := by
    rcases cases_same hx with rfl | ⟨s, s', hs, hs'⟩
    · exact same_refl _
    · simp only [remainder, hs, hs']
      cases view y <;> first | exact same_refl _ | exact hx
  have hright : remainder x' y = remainder x' y' := by
    rcases cases_same hy with rfl | ⟨t, t', ht, ht'⟩
    · rfl
    · simp only [remainder, ht, ht']
      cases view x' <;> rfl
  rw [← hright]
  exact hleft

/-- The length of a vector does not depend on signs of zeros. -/
lemma hypot_eq (hx : same x x' = true) (hy : same y y' = true) : hypot x y = hypot x' y' := by
  have hleft : hypot x y = hypot x' y := by
    rcases cases_same hx with rfl | ⟨s, s', hs, hs'⟩
    · rfl
    · simp only [hypot, hs, hs']
      cases view y <;> rfl
  have hright : hypot x' y = hypot x' y' := by
    rcases cases_same hy with rfl | ⟨t, t', ht, ht'⟩
    · rfl
    · simp only [hypot, ht, ht', abs_eq hy]
      cases view x' <;> rfl
  exact hleft.trans hright

/-! ### Comparisons -/

lemma le_iff_view (x y : Float) : x ≤ y ↔ (view x).le (view y) = true := by
  have h : decide (x.toModel ≤ y.toModel) = true ↔ (view x).le (view y) = true := decide_eq_true_iff
  exact h

lemma lt_congr (hx : same x x' = true) (hy : same y y' = true) : x < y ↔ x' < y' := by
  rw [lt_iff_view, lt_iff_view, UnpackedFloat.lt, UnpackedFloat.lt,
    (same_iff_view.1 hx).compare_eq (same_iff_view.1 hy)]

lemma le_congr (hx : same x x' = true) (hy : same y y' = true) : x ≤ y ↔ x' ≤ y' := by
  rw [le_iff_view, le_iff_view, UnpackedFloat.le, UnpackedFloat.le,
    (same_iff_view.1 hx).compare_eq (same_iff_view.1 hy)]

lemma beq_zero_of_pos (hx : 0 < x) : (x == 0) = false := by
  rw [lt_iff_view, view_zero] at hx
  rw [beq_zero]
  cases hu : view x with
  | zero s =>
    rw [hu] at hx
    cases hx
  | _ => rfl

lemma nonneg_of_pos (hx : 0 < x) : 0 ≤ x := by
  rw [lt_iff_view, UnpackedFloat.lt, beq_iff_eq] at hx
  rw [le_iff_view, UnpackedFloat.le, hx]
  rfl

lemma isNaN_eq (hx : same x x' = true) : x.isNaN = x'.isNaN := by
  have hview (x : Float) : x.isNaN = (view x).isNaN := rfl
  rcases cases_same hx with rfl | ⟨s, s', hs, hs'⟩
  · rfl
  · rw [hview, hview, hs, hs']
    rfl

lemma isFinite_eq (hx : same x x' = true) : x.isFinite = x'.isFinite := by
  have hview (x : Float) : x.isFinite = (view x).isFinite := rfl
  rcases cases_same hx with rfl | ⟨s, s', hs, hs'⟩
  · rfl
  · rw [hview, hview, hs, hs']
    rfl

lemma same_lesser (hx : same x x' = true) (hy : same y y' = true) :
    same (lesser x y) (lesser x' y') = true := by
  simp only [lesser, isNaN_eq hx, lt_congr hy hx]
  split
  · exact hy
  · split
    · exact hy
    · exact hx

lemma same_greater (hx : same x x' = true) (hy : same y y' = true) :
    same (greater x y) (greater x' y') = true := by
  simp only [greater, isNaN_eq hx, lt_congr hx hy]
  split
  · exact hy
  · split
    · exact hy
    · exact hx

/-! ### Integers -/

lemma toInt?_eq (hx : same x x' = true) : toInt? x = toInt? x' := by
  rcases cases_same hx with rfl | ⟨s, s', hs, hs'⟩
  · rfl
  · simp only [toInt?, hs, hs']

lemma toInt?_of_beq_zero (hx : (x == 0) = true) : toInt? x = some 0 := by
  rw [beq_zero] at hx
  cases hu : view x with
  | zero s => simp only [toInt?, hu]
  | _ =>
    rw [hu] at hx
    cases hx

lemma same_integral (choose : Sign → Nat → Nat → Nat) (hx : same x x' = true) :
    same (integral choose x) (integral choose x') = true := by
  rcases cases_same hx with rfl | ⟨s, s', hs, hs'⟩
  · exact same_refl _
  · simp only [integral, hs, hs']
    exact hx

lemma toIntChecked_eq (hx : same x x' = true) :
    (toIntChecked x).toOption = (toIntChecked x').toOption := by
  simp only [toIntChecked, isFinite_eq hx, abs_eq hx, toInt?_eq hx]
  split
  · cases toInt? x' <;> rfl
  · rfl

lemma toRangeChecked_eq (least greatest : Int) (hx : same x x' = true) :
    (toRangeChecked least greatest x).toOption = (toRangeChecked least greatest x').toOption := by
  simp only [toRangeChecked, Except.toOption_bind, toIntChecked_eq hx]
  refine Option.bind_congr fun n _ => ?_
  split <;> rfl

lemma toUnsigned32_eq (hx : same x x' = true) :
    (toUnsigned32 x).toOption = (toUnsigned32 x').toOption := by
  rw [toUnsigned32, toUnsigned32, Except.toOption_map, Except.toOption_map,
    toRangeChecked_eq 0 4294967295 hx]

/-! ### Roots -/

lemma same_midpoint (hx : same x x' = true) (hy : same y y' = true) :
    same (midpoint x y) (midpoint x' y') = true := by
  simp only [midpoint, abs_eq hx, abs_eq hy]
  split
  · exact same_div (same_add hx hy) 2
  · exact same_add (same_div hx 2) (same_div hy 2)

lemma copySign_eq (hx : same x x' = true) (y : Float) : copySign x y = copySign x' y := by
  simp only [copySign, abs_eq hx]

/-- A number less itself is a zero, or there is no such number. -/
lemma sub_self_cases (x : Float) : x - x = 0 ∨ x - x = nan := by
  have hsub : x - x = ofView (UnpackedFloat.sub Format.binary64 (view x) (view x)) := rfl
  rw [hsub]
  cases view x with
  | notANumber => exact .inr rfl
  | infinity s =>
    right
    cases s <;> rfl
  | zero s =>
    left
    cases s <;> rfl
  | finite s m e hm =>
    left
    simp only [UnpackedFloat.sub, Int.sub_self, UnpackedFloat.normalize]
    rfl

/-- A number that is not less than zero is its own length, up to the sign of a zero. -/
lemma same_hypot_zero (hx : ¬ x < 0) (hy : isZero (view y) = true) : same (hypot x y) x = true := by
  obtain ⟨t, ht⟩ : ∃ t, view y = .zero t := by
    cases hv : view y with
    | zero t => exact ⟨t, rfl⟩
    | _ => rw [hv] at hy; cases hy
  have habs (x : Float) : x.abs = ofView (view x).abs := rfl
  rw [lt_zero] at hx
  push Not at hx
  refine same_trans (y := ofView (view x)) ?_ (by rw [ofView_view]; exact same_refl x)
  unfold hypot
  rw [ht, habs, habs, ht]
  cases hu : view x with
  | notANumber => exact same_refl _
  | infinity s =>
    cases s with
    | positive => exact same_refl _
    | negative => exact absurd hu hx.1
  | zero s => exact same_ofView (.zero _ s)
  | finite s m e hm =>
    cases s with
    | positive => exact same_refl _
    | negative => exact absurd hu (hx.2 m e hm)

/-- The sign that is given to a zero or to what is no number does not matter. -/
lemma same_copySign {a b : Float} (hx : same x 0 = true ∨ same x nan = true) :
    same (copySign x a) (copySign x b) = true := by
  rcases hx with hx | hx
  · rw [copySign_eq hx, copySign_eq hx]
    unfold copySign
    cases sign a <;> cases sign b <;> decide
  · rw [copySign_eq hx, copySign_eq hx]
    unfold copySign
    cases sign a <;> cases sign b <;> decide

end Binary64

end Reckoner
