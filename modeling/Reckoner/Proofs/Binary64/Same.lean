import Reckoner.Proofs.Binary64.Mantissas

/-!
# Doubles up to the signs of zeros

Doubles are the same if they are equal as numbers: not-a-number is the same as itself, and so are
the two zeros as each other. Views of doubles tell which ones these are, and what their signs, sums
and comparisons with zero are.
-/

namespace Reckoner

/-! ### Doubles -/

namespace Binary64

open Float.Model (UnpackedFloat Format)
open Float.Model.UnpackedFloat

/-- The views of doubles. -/
inductive IsView : UnpackedFloat → Prop where
  | notANumber : IsView .notANumber
  | infinity (s : Sign) : IsView (.infinity s)
  | zero (s : Sign) : IsView (.zero s)
  | finite (s : Sign) {m : Nat} {e : Int} (hm : 0 < m) (h : IsDouble m e) :
    IsView (.finite s m e hm)

lemma isView_view (x : Float) : IsView (view x) := by
  cases hx : view x with
  | notANumber => exact .notANumber
  | infinity s => exact .infinity s
  | zero s => exact .zero s
  | finite s m e hm => exact .finite s hm (isDouble_of_unpack hx)

lemma view_ofView_of_isView {u : UnpackedFloat} (h : IsView u) : view (ofView u) = u := by
  cases h with
  | notANumber => rfl
  | infinity s => cases s <;> rfl
  | zero s => cases s <;> rfl
  | finite s hm h => exact view_ofView h

lemma eq_of_view_eq {x y : Float} (h : view x = view y) : x = y := by
  rw [← ofView_view x, h, ofView_view]

lemma IsView.neg {u : UnpackedFloat} (h : IsView u) : IsView u.neg := by
  cases h with
  | notANumber => exact .notANumber
  | infinity s => exact .infinity (-s)
  | zero s => exact .zero (-s)
  | finite s hm h => exact .finite (-s) hm h

lemma view_neg (x : Float) : view (-x) = (view x).neg :=
  view_ofView_of_isView (isView_view x).neg

lemma view_zero : view 0 = .zero .positive :=
  rfl

/-- Whether a view is one of a zero. -/
def isZero : UnpackedFloat → Bool
  | .zero _ => true
  | _ => false

lemma beq_zero (x : Float) : (x == 0) = isZero (view x) := by
  have h : (x == 0) = (view x).beq (.zero .positive) := rfl
  rw [h]
  cases view x with
  | notANumber => rfl
  | infinity s => cases s <;> rfl
  | zero s => rfl
  | finite s m e hm => cases s <;> rfl

lemma lt_iff_view (x y : Float) : x < y ↔ (view x).lt (view y) = true := by
  have h : decide (x.toModel < y.toModel) = true ↔ (view x).lt (view y) = true := decide_eq_true_iff
  exact h

lemma lt_zero (x : Float) :
    x < 0 ↔ view x = .infinity .negative ∨ ∃ m e hm, view x = .finite .negative m e hm := by
  rw [lt_iff_view, view_zero]
  cases view x with
  | notANumber => simp [UnpackedFloat.lt, UnpackedFloat.compare]
  | infinity s => cases s <;> simp [UnpackedFloat.lt, UnpackedFloat.compare]
  | zero s => simp [UnpackedFloat.lt, UnpackedFloat.compare]
  | finite s m e hm => cases s <;> simp [UnpackedFloat.lt, UnpackedFloat.compare, hm]

lemma view_add (x y : Float) :
    x + y = ofView (UnpackedFloat.add Format.binary64 (view x) (view y)) :=
  rfl

/-- Adding a zero leaves every other number as it is. -/
lemma add_of_isZero_right {x y : Float} (hx : isZero (view x) = false)
    (hy : isZero (view y) = true) : x + y = x := by
  rw [view_add]
  conv_rhs => rw [← ofView_view x]
  cases hv : view y with
  | zero s =>
    cases hu : view x with
    | zero t => rw [hu] at hx; cases hx
    | _ => rfl
  | _ => rw [hv] at hy; cases hy

lemma add_of_isZero_left {x y : Float} (hx : isZero (view x) = true)
    (hy : isZero (view y) = false) : x + y = y := by
  rw [view_add]
  conv_rhs => rw [← ofView_view y]
  cases hu : view x with
  | zero s =>
    cases hv : view y with
    | zero t => rw [hv] at hy; cases hy
    | _ => rfl
  | _ => rw [hu] at hx; cases hx

lemma isZero_add {x y : Float} (hx : isZero (view x) = true) (hy : isZero (view y) = true) :
    isZero (view (x + y)) = true := by
  rw [view_add]
  cases hu : view x with
  | zero s =>
    cases hv : view y with
    | zero t => cases s <;> cases t <;> rfl
    | _ => rw [hv] at hy; cases hy
  | _ => rw [hu] at hx; cases hx

lemma isZero_neg (x : Float) : isZero (view (-x)) = isZero (view x) := by
  rw [view_neg]
  cases view x <;> rfl

lemma beq_eq (u v : UnpackedFloat) : u.beq v = (u.compare v == some .eq) :=
  rfl

/-- Numbers are the same if they are equal or two zeros. -/
lemma same_iff (x y : Float) :
    same x y = true ↔ x = y ∨ isZero (view x) = true ∧ isZero (view y) = true := by
  have hnan : ∀ z : Float, z.isNaN = (view z).isNaN := fun z => rfl
  have hbeq : (x == y) = (view x).beq (view y) := rfl
  have heq : x = y ↔ view x = view y := ⟨fun h => by rw [h], eq_of_view_eq⟩
  rw [same, hnan, hnan, hbeq, heq]
  cases view x with
  | notANumber => cases view y <;> simp [UnpackedFloat.isNaN, isZero]
  | infinity s =>
    cases view y with
    | infinity t =>
      cases s <;> cases t <;>
        simp [UnpackedFloat.isNaN, beq_eq, UnpackedFloat.compare, isZero, compare]
    | _ => cases s <;> simp [UnpackedFloat.isNaN, beq_eq, UnpackedFloat.compare, isZero]
  | zero s =>
    cases view y with
    | infinity t => cases t <;> simp [UnpackedFloat.isNaN, beq_eq, UnpackedFloat.compare, isZero]
    | finite t => cases t <;> simp [UnpackedFloat.isNaN, beq_eq, UnpackedFloat.compare, isZero]
    | _ => simp [UnpackedFloat.isNaN, beq_eq, UnpackedFloat.compare, isZero]
  | finite s m e hm =>
    cases view y with
    | infinity t =>
      cases s <;> cases t <;> simp [UnpackedFloat.isNaN, beq_eq, UnpackedFloat.compare, isZero]
    | finite t n f hn =>
      cases s <;> cases t <;>
        simp [UnpackedFloat.isNaN, beq_eq, UnpackedFloat.compare, isZero, and_comm]
    | _ => cases s <;> simp [UnpackedFloat.isNaN, beq_eq, UnpackedFloat.compare, isZero]

lemma same_refl (x : Float) : same x x = true :=
  (same_iff x x).2 (.inl rfl)

lemma same_symm {x y : Float} (h : same x y = true) : same y x = true := by
  rw [same_iff] at *
  rcases h with rfl | ⟨hx, hy⟩
  · exact .inl rfl
  · exact .inr ⟨hy, hx⟩

lemma same_trans {x y z : Float} (h : same x y = true) (h' : same y z = true) :
    same x z = true := by
  rw [same_iff] at *
  rcases h with rfl | ⟨hx, hy⟩
  · exact h'
  · rcases h' with rfl | ⟨-, hz⟩
    · exact .inr ⟨hx, hy⟩
    · exact .inr ⟨hx, hz⟩

lemma same_neg {x y : Float} (h : same x y = true) : same (-x) (-y) = true := by
  rw [same_iff] at *
  rcases h with rfl | ⟨hx, hy⟩
  · exact .inl rfl
  · exact .inr ⟨(isZero_neg x).trans hx, (isZero_neg y).trans hy⟩

lemma isZero_eq_of_same {x y : Float} (h : same x y = true) : (x == 0) = (y == 0) := by
  rw [same_iff] at h
  rw [beq_zero, beq_zero]
  rcases h with rfl | ⟨hx, hy⟩
  · rfl
  · rw [hx, hy]

end Binary64

end Reckoner
