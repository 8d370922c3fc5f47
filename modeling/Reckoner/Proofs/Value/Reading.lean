import Reckoner.Proofs.Complex.ZeroSigns

/-!
# Reading values that are alike

Values that are alike are read alike: as numbers, elements, texts and dates they are the same up to
the signs of zeros, and they are written in the same way.
-/

lemma List.map_eq_map_of_forall₂ {α β γ : Type} {r : α → β → Prop} {f : α → γ} {g : β → γ}
    {as : List α} {bs : List β} (h : List.Forall₂ r as bs) (hfg : ∀ a b, r a b → f a = g b) :
    as.map f = bs.map g := by
  rw [← List.forall₂_eq_eq_eq, List.forall₂_map_left_iff, List.forall₂_map_right_iff]
  exact h.imp hfg

namespace Reckoner

open Value (Alike Agree)

/-! ### Reading values -/

namespace Value

variable {v w : Value} {vs ws : List Value}

lemma Agree.of_eq {a b : Option Value} (h : a = b) : Agree a b :=
  h ▸ .refl a

lemma Agree.bind_self {α : Type} (a : Option α) {f g : α → Option Value}
    (h : ∀ x, Agree (f x) (g x)) : Agree (a.bind f) (a.bind g) := by
  cases a with
  | none => exact .refl none
  | some x => exact h x

lemma Alike.scalar {z w : Complex} (h : z.same w = true) : (Value.scalar z).Alike (.scalar w) :=
  alike_iff_matches.2 (.scalar h)

lemma Alike.ofReal {x y : Float} (h : Binary64.same x y = true) :
    (Value.ofReal x).Alike (.ofReal y) :=
  .scalar (Complex.same_iff.2 ⟨h, Binary64.same_refl 0⟩)

lemma Alike.widened (h : v.Alike w) : v.widened.Alike w.widened := by
  have hwidened (v : Value) : v.widened.widened = v.widened := by
    cases v <;> rfl
  rwa [Alike, hwidened, hwidened]

/-- Widened values are equal or not whatever the signs of zeros. -/
lemma same_widened_congr {v' w' : Value} (hv : v.Alike v') (hw : w.Alike w') :
    v.widened.same w.widened = v'.widened.same w'.widened := by
  rw [Bool.eq_iff_iff]
  exact ⟨fun h => hv.symm.trans (.trans h hw), fun h => hv.trans (.trans h hw.symm)⟩

lemma elements_of_toComplex {z : Complex} (h : v.toComplex.toOption = some z) :
    v.elements = .ok [z] := by
  cases v <;> cases h
  rfl

lemma elements_of_widened_toComplex {z : Complex} (h : v.widened.toComplex.toOption = some z) :
    v.elements = .ok [z] := by
  cases v <;> cases h
  rfl

lemma elements_of_toOption {zs : List Complex} (h : v.widened.elements.toOption = some zs) :
    v.elements = .ok zs := by
  cases v <;> cases h <;> rfl

lemma elements_of_widened {zs : List Complex} (h : v.widened = .complexVector zs) :
    v.elements = .ok zs := by
  cases v <;> cases h <;> rfl

lemma elements_agree (h : v.Alike w) :
    Option.Rel (List.Forall₂ fun z w => z.same w = true) v.elements.toOption
      w.elements.toOption := by
  cases alike_iff_matches.1 h with
  | scalar h => exact .some (.cons h .nil)
  | vector hv hw h =>
    rw [elements_of_widened hv, elements_of_widened hw]
    exact .some h
  | text s => exact .none
  | date m => exact .none

lemma toComplex_agree (h : v.Alike w) :
    Option.Rel (fun z w => z.same w = true) v.toComplex.toOption w.toComplex.toOption := by
  have hvector {v : Value} {zs : List Complex} (hv : v.widened = .complexVector zs) :
      v.toComplex.toOption = none := by
    cases v <;> first | rfl | cases hv
  cases alike_iff_matches.1 h with
  | scalar h => exact .some h
  | vector hv hw h =>
    rw [hvector hv, hvector hw]
    exact .none
  | text s => exact .none
  | date m => exact .none

lemma toReal_agree (h : v.Alike w) :
    Option.Rel (fun x y => Binary64.same x y = true) v.toReal.toOption w.toReal.toOption := by
  simp only [toReal, Except.toOption_bind]
  refine (toComplex_agree h).bind fun z w _ _ hz => ?_
  rw [Complex.isReal_eq_of_same hz]
  split
  · exact .some (Complex.same_iff.1 hz).1
  · exact .none

lemma bind_toReal_eq {α : Type} (h : v.Alike w) {f : Float → Option α}
    (hf : ∀ x y, Binary64.same x y = true → f x = f y) :
    v.toReal.toOption.bind f = w.toReal.toOption.bind f := by
  have hread := toReal_agree h
  generalize v.toReal.toOption = a at hread ⊢
  generalize w.toReal.toOption = b at hread ⊢
  cases hread with
  | none => rfl
  | some hx => exact hf _ _ hx

lemma toText_eq (h : v.Alike w) : v.toText.toOption = w.toText.toOption :=
  h.read_eq (f := fun v => v.toText.toOption) (fun _ _ _ => rfl) (fun _ => rfl) fun _ => rfl

lemma toMoment_eq (h : v.Alike w) : v.toMoment.toOption = w.toMoment.toOption :=
  h.read_eq (f := fun v => v.toMoment.toOption) (fun _ _ _ => rfl) (fun _ => rfl) fun _ => rfl

/-- Values that are alike are written in the same way. -/
lemma write_eq (h : v.Alike w) : v.write = w.write := by
  have hvector {v : Value} {zs : List Complex} (hv : v.widened = .complexVector zs) :
      v.write = listText (zs.map Complex.write) := by
    cases v with
    | realVector xs =>
      cases hv
      rw [List.map_map]
      rfl
    | complexVector zs =>
      cases hv
      rfl
    | _ => cases hv
  cases alike_iff_matches.1 h with
  | scalar h => exact Complex.write_eq h
  | vector hv hw h =>
    rw [hvector hv, hvector hw, List.map_eq_map_of_forall₂ h fun _ _ => Complex.write_eq]
  | _ => rfl

end Value

end Reckoner
