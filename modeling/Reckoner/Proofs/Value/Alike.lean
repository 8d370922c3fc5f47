import Reckoner.Machine
import Reckoner.Proofs.Binary64.Same
import Reckoner.Proofs.Results

/-!
# Numbers and values up to the signs of zeros

Two values are alike if they are equal as numbers, texts or dates: not-a-number is like itself, the
two zeros are alike, and a vector is told by its elements. The operations that look at no sign of a
zero take values that are alike to values that are alike.
-/

namespace Reckoner

namespace Complex

variable {z w v : Complex}

lemma same_iff :
    z.same w = true ↔ Binary64.same z.re w.re = true ∧ Binary64.same z.im w.im = true := by
  rw [same, Bool.and_eq_true]

lemma same_refl (z : Complex) : z.same z = true :=
  same_iff.2 ⟨Binary64.same_refl _, Binary64.same_refl _⟩

lemma same_symm (h : z.same w = true) : w.same z = true :=
  same_iff.2 ⟨Binary64.same_symm (same_iff.1 h).1, Binary64.same_symm (same_iff.1 h).2⟩

lemma same_trans (h : z.same w = true) (h' : w.same v = true) : z.same v = true :=
  same_iff.2 ⟨Binary64.same_trans (same_iff.1 h).1 (same_iff.1 h').1,
    Binary64.same_trans (same_iff.1 h).2 (same_iff.1 h').2⟩

lemma same_neg (h : z.same w = true) : (-z).same (-w) = true :=
  same_iff.2 ⟨Binary64.same_neg (same_iff.1 h).1, Binary64.same_neg (same_iff.1 h).2⟩

lemma isReal_eq_of_same (h : z.same w = true) : z.isReal = w.isReal :=
  Binary64.isZero_eq_of_same (same_iff.1 h).2

lemma isZero_eq_of_same (h : z.same w = true) : z.isZero = w.isZero := by
  rw [isZero, isZero, Binary64.isZero_eq_of_same (same_iff.1 h).1,
    Binary64.isZero_eq_of_same (same_iff.1 h).2]

/-- A number whose imaginary part is zero is the same as its real part. -/
lemma same_ofReal (h : z.isReal = true) : (ofReal z.re).same z = true := by
  refine same_iff.2 ⟨Binary64.same_refl _, (Binary64.same_iff _ _).2 (.inr ⟨?_, ?_⟩)⟩
  · rw [ofReal, Binary64.view_zero]
    rfl
  · rw [← Binary64.beq_zero]
    exact h

/-- Negating a real number as a complex one changes the sign of its imaginary part, too. -/
lemma same_ofReal_neg (x : Float) : (ofReal (-x)).same (-ofReal x) = true :=
  same_ofReal (z := -ofReal x) ((Binary64.beq_zero _).trans (Binary64.isZero_neg 0))

end Complex

/-! ### Values -/

namespace Value

/-- Two values are alike if they are equal when real vectors are widened; the two zeros are equal
and so is not-a-number to itself. -/
def Alike (v w : Value) : Prop :=
  v.widened.same w.widened = true

lemma same_vectors {zs ws : List Complex} :
    (complexVector zs).same (complexVector ws) = true
      ↔ List.Forall₂ (fun z w => z.same w = true) zs ws := by
  induction zs generalizing ws with
  | nil => cases ws <;> simp [same]
  | cons z zs ih =>
    cases ws with
    | nil => simp [same]
    | cons w ws =>
      simp only [List.forall₂_cons, ← ih]
      simp [same, and_left_comm]

/-- The ways in which values can be alike. -/
inductive Matches : Value → Value → Prop where
  | scalar {z w : Complex} (h : z.same w = true) : Matches (.scalar z) (.scalar w)
  | vector {v w : Value} {zs ws : List Complex} (hv : v.widened = .complexVector zs)
    (hw : w.widened = .complexVector ws) (h : List.Forall₂ (fun z w => z.same w = true) zs ws) :
    Matches v w
  | text (s : String) : Matches (.text s) (.text s)
  | date (m : Moment) : Matches (.date m) (.date m)

lemma alike_iff_matches {v w : Value} : v.Alike w ↔ Matches v w := by
  constructor
  · intro h
    cases v with
    | scalar z =>
      cases w with
      | scalar w => exact .scalar h
      | _ => cases h
    | realVector xs =>
      cases w with
      | realVector ys => exact .vector rfl rfl (same_vectors.1 h)
      | complexVector ws => exact .vector rfl rfl (same_vectors.1 h)
      | _ => cases h
    | complexVector zs =>
      cases w with
      | realVector ys => exact .vector rfl rfl (same_vectors.1 h)
      | complexVector ws => exact .vector rfl rfl (same_vectors.1 h)
      | _ => cases h
    | text s =>
      cases w with
      | text t =>
        obtain rfl : s = t := eq_of_beq h
        exact .text s
      | _ => cases h
    | date a =>
      cases w with
      | date b =>
        have hmillis : a.millis = b.millis := eq_of_beq h
        obtain rfl : a = b := by
          cases a
          cases b
          cases hmillis
          rfl
        exact .date a
      | _ => cases h
  · intro h
    cases h with
    | scalar h => exact h
    | vector hv hw h =>
      rw [Alike, hv, hw]
      exact same_vectors.2 h
    | text s => exact beq_self_eq_true s
    | date m => exact beq_self_eq_true m.millis

namespace Alike

variable {u v w : Value}

lemma refl (v : Value) : v.Alike v := by
  have hself (zs : List Complex) : List.Forall₂ (fun z w => z.same w = true) zs zs :=
    List.forall₂_same.2 fun z _ => z.same_refl
  rw [alike_iff_matches]
  cases v with
  | scalar z => exact .scalar z.same_refl
  | realVector xs => exact .vector rfl rfl (hself _)
  | complexVector zs => exact .vector rfl rfl (hself zs)
  | text s => exact .text s
  | date m => exact .date m

lemma symm (h : v.Alike w) : w.Alike v := by
  rw [alike_iff_matches] at *
  cases h with
  | scalar h => exact .scalar (Complex.same_symm h)
  | vector hv hw h => exact .vector hw hv (h.flip.imp fun _ _ h => Complex.same_symm h)
  | text s => exact .text s
  | date m => exact .date m

lemma forall₂_trans {xs ys zs : List Complex}
    (h : List.Forall₂ (fun z w => z.same w = true) xs ys)
    (h' : List.Forall₂ (fun z w => z.same w = true) ys zs) :
    List.Forall₂ (fun z w => z.same w = true) xs zs := by
  induction h generalizing zs with
  | nil => exact h'
  | cons hz _ ih =>
    cases h' with
    | cons hz' h' => exact .cons (Complex.same_trans hz hz') (ih h')

lemma trans (h : u.Alike v) (h' : v.Alike w) : u.Alike w := by
  rw [alike_iff_matches] at *
  cases h with
  | scalar h =>
    cases h' with
    | scalar h' => exact .scalar (Complex.same_trans h h')
    | vector hv => cases hv
  | vector hu hv h =>
    cases h' with
    | vector hv' hw h' =>
      rw [hv] at hv'
      cases hv'
      exact .vector hu hw (forall₂_trans h h')
    | _ => cases hv
  | text s =>
    cases h' with
    | text => exact .text s
    | vector hv => cases hv
  | date m =>
    cases h' with
    | date => exact .date m
    | vector hv => cases hv

/-! ### Operations on values that are alike -/

/-- What is read off numbers regardless of signs of zeros, and off no vector, is the same for values
that are alike. -/
lemma read_eq {α : Type} {f : Value → Option α} (h : v.Alike w)
    (hscalar : ∀ z w : Complex, z.same w = true → f (.scalar z) = f (.scalar w))
    (hreal : ∀ xs, f (.realVector xs) = none) (hcomplex : ∀ zs, f (.complexVector zs) = none) :
    f v = f w := by
  have hvector {v : Value} {zs : List Complex} (hv : v.widened = .complexVector zs) :
      f v = none := by
    cases v with
    | realVector xs => exact hreal xs
    | complexVector zs => exact hcomplex zs
    | _ => cases hv
  cases alike_iff_matches.1 h with
  | scalar h => exact hscalar _ _ h
  | vector hv hw h => rw [hvector hv, hvector hw]
  | text s => rfl
  | date m => rfl

lemma isTruthy_eq (h : v.Alike w) : v.isTruthy.toOption = w.isTruthy.toOption :=
  h.read_eq (f := fun v => v.isTruthy.toOption)
    (fun z w h => by simp only [isTruthy, Complex.isZero_eq_of_same h]) (fun _ => rfl) fun _ => rfl

/-- A vector is told by its elements, whether it is kept as a real one or not. -/
lemma widened_ofElements (zs : List Complex) :
    ∃ ws, (ofElements zs).widened = .complexVector ws
      ∧ List.Forall₂ (fun z w => z.same w = true) zs ws := by
  rw [ofElements]
  split_ifs with hreal
  · refine ⟨_, rfl, ?_⟩
    rw [List.map_map, List.forall₂_map_right_iff]
    refine List.forall₂_same.2 fun z hz => Complex.same_symm (Complex.same_ofReal ?_)
    exact List.all_eq_true.1 hreal z hz
  · exact ⟨zs, rfl, List.forall₂_same.2 fun z _ => z.same_refl⟩

lemma ofElements {zs ws : List Complex}
    (h : List.Forall₂ (fun z w => z.same w = true) zs ws) :
    (Value.ofElements zs).Alike (Value.ofElements ws) := by
  obtain ⟨zs', hzs, hz⟩ := widened_ofElements zs
  obtain ⟨ws', hws, hw⟩ := widened_ofElements ws
  refine alike_iff_matches.2 (.vector hzs hws ?_)
  exact forall₂_trans (forall₂_trans (hz.flip.imp fun _ _ h => Complex.same_symm h) h) hw

end Alike

/-- Two results agree if both are missing or both are there and alike. -/
def Agree (a b : Option Value) : Prop :=
  Option.Rel Alike a b

namespace Agree

variable {a b c : Option Value}

lemma refl (a : Option Value) : Agree a a := by
  cases a with
  | none => exact .none
  | some v => exact .some (.refl v)

lemma symm (h : Agree a b) : Agree b a := by
  cases h with
  | none => exact .none
  | some h => exact .some h.symm

lemma trans (h : Agree a b) (h' : Agree b c) : Agree a c := by
  cases h with
  | none => exact h'
  | some h =>
    cases h' with
    | some h' => exact .some (h.trans h')

lemma exists_of_some {v : Value} (h : Agree a (some v)) : ∃ u, a = some u ∧ u.Alike v := by
  cases h with
  | some h => exact ⟨_, rfl, h⟩

/-- Steps that respect likeness, applied to results that agree, give results that agree. -/
lemma bind {f g : Value → Option Value} (h : Agree a b)
    (hfg : ∀ v w, a = some v → b = some w → v.Alike w → Agree (f v) (g w)) :
    Agree (a.bind f) (b.bind g) := by
  cases h with
  | none => exact .none
  | some h => exact hfg _ _ rfl rfl h

end Agree

end Value

namespace Machine

open Value

variable {v w : Value}

lemma negate_agree (h : v.Alike w) : Agree (negate v).toOption (negate w).toOption := by
  have hvector {v : Value} {zs : List Complex} (hv : v.widened = .complexVector zs) :
      ∃ v', negate v = .ok v' ∧ v'.Alike (Value.ofElements (zs.map fun z => -z)) := by
    cases v with
    | realVector xs =>
      cases hv
      refine ⟨_, rfl, alike_iff_matches.2 ?_⟩
      obtain ⟨ws, hws, hw⟩ := Alike.widened_ofElements
        ((xs.map Complex.ofReal).map fun z => -z)
      refine .vector rfl hws (Alike.forall₂_trans ?_ hw)
      rw [List.map_map, List.map_map, List.forall₂_map_left_iff, List.forall₂_map_right_iff]
      exact List.forall₂_same.2 fun x _ => Complex.same_ofReal_neg x
    | complexVector zs =>
      cases hv
      exact ⟨_, rfl, .refl _⟩
    | _ => cases hv
  cases alike_iff_matches.1 h with
  | scalar h => exact .some (alike_iff_matches.2 (.scalar (Complex.same_neg h)))
  | vector hv hw h =>
    obtain ⟨v', hv', hv''⟩ := hvector hv
    obtain ⟨w', hw', hw''⟩ := hvector hw
    rw [hv', hw']
    refine .some (hv''.trans (Alike.trans (Alike.ofElements ?_) hw''.symm))
    rw [List.forall₂_map_left_iff, List.forall₂_map_right_iff]
    exact h.imp fun _ _ h => Complex.same_neg h
  | text s => exact .none
  | date m => exact .none

/-- An operator before one operand looks at no sign of a zero. -/
lemma unary_agree (op : UnaryOperator) (h : v.Alike w) :
    Agree (unary op v).toOption (unary op w).toOption := by
  cases op with
  | negate => exact negate_agree h
  | not =>
    have htruthy := h.isTruthy_eq
    cases hv : v.isTruthy with
    | ok b =>
      cases hw : w.isTruthy with
      | ok b' =>
        rw [hv, hw] at htruthy
        cases htruthy
        simp only [unary, hv, hw]
        exact .refl _
      | error err => rw [hv, hw] at htruthy; cases htruthy
    | error err =>
      cases hw : w.isTruthy with
      | ok b' => rw [hv, hw] at htruthy; cases htruthy
      | error err' =>
        simp only [unary, hv, hw]
        exact .none

lemma parts_agree (h : v.Alike w) :
    Option.Rel (List.Forall₂ fun z w => z.same w = true) (parts v).toOption (parts w).toOption := by
  have hvector {v : Value} {zs : List Complex} (hv : v.widened = .complexVector zs) :
      parts v = .ok zs := by
    cases v <;> cases hv <;> rfl
  cases alike_iff_matches.1 h with
  | scalar h => exact .some (.cons h .nil)
  | vector hv hw h =>
    rw [hvector hv, hvector hw]
    exact .some h
  | text s => exact .none
  | date m => exact .none

/-- A vector of values looks at no sign of a zero. -/
lemma vector_agree {vs ws : List Value} (h : List.Forall₂ Alike vs ws) :
    Agree (vector vs).toOption (vector ws).toOption := by
  simp only [vector, Except.toOption_bind]
  exact (Except.mapM_rel h fun v w => parts_agree).bind fun zs ws _ _ h =>
    .some (Alike.ofElements (List.rel_flatten h))

end Machine

end Reckoner
