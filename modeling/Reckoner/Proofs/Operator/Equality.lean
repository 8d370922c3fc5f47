import Reckoner.Proofs.Operator.Pointwise

/-!
# Equality

What the language calls equal is an equivalence of values. It holds between values of one kind only,
where the real vectors and the other ones are one kind, and it compares vectors by their elements.
Not-a-number is equal to itself, and so are the two zeros.
-/

namespace Reckoner

open OperatorTable (standard)

/-! ### Kinds -/

namespace Value

variable {u v w : Value} {zs ws : List Complex} {a b : Bool}

/-- Whether two values are both numbers, both vectors, both texts or both dates. -/
def SameKind (v w : Value) : Prop :=
  v.widened.tag = w.widened.tag

/-- The ways in which values can be of one kind. -/
inductive KindPair : Value → Value → Prop where
  | scalar (z w : Complex) : KindPair (.scalar z) (.scalar w)
  | vector {v w : Value} {zs ws : List Complex} (hv : v.IsVector zs) (hw : w.IsVector ws) :
    KindPair v w
  | text (s t : String) : KindPair (.text s) (.text t)
  | date (a b : Moment) : KindPair (.date a) (.date b)

lemma SameKind.kindPair (h : v.SameKind w) : KindPair v w := by
  cases v with
  | scalar z =>
    cases w with
    | scalar w => exact .scalar z w
    | _ => cases h
  | realVector xs =>
    cases w with
    | realVector ys => exact .vector rfl rfl
    | complexVector ws => exact .vector rfl rfl
    | _ => cases h
  | complexVector zs =>
    cases w with
    | realVector ys => exact .vector rfl rfl
    | complexVector ws => exact .vector rfl rfl
    | _ => cases h
  | text s =>
    cases w with
    | text t => exact .text s t
    | _ => cases h
  | date a =>
    cases w with
    | date b => exact .date a b
    | _ => cases h

end Value

/-! ### The entries of the table -/

namespace OperatorTable

variable {v w : Value}

lemma apply_equal_of_sameKind (h : v.SameKind w) :
    standard.apply .equal v w = .ok (.ofBool (v.widened.same w.widened)) := by
  cases h.kindPair with
  | scalar z w => rfl
  | vector hv hw =>
    rw [apply, hv, hw]
    rfl
  | text s t => rfl
  | date a b => rfl

lemma apply_notEqual_of_sameKind (h : v.SameKind w) :
    standard.apply .notEqual v w = .ok (.ofBool !v.widened.same w.widened) := by
  cases h.kindPair with
  | scalar z w => rfl
  | vector hv hw =>
    rw [apply, hv, hw]
    rfl
  | text s t => rfl
  | date a b => exact congrArg (fun b => Except.ok (Value.ofBool b)) decide_not

lemma lookup_of_ne {left right : Tag} (h : left ≠ right) :
    standard.lookup left right .equal = none ∧ standard.lookup left right .notEqual = none := by
  cases left <;> cases right <;> first | exact absurd rfl h | exact ⟨rfl, rfl⟩

lemma apply_of_not_sameKind (h : ¬ v.SameKind w) :
    standard.apply .equal v w = .error (.unsupportedOperation .equal v.tag w.tag)
      ∧ standard.apply .notEqual v w = .error (.unsupportedOperation .notEqual v.tag w.tag) := by
  obtain ⟨hequal, hnotEqual⟩ := lookup_of_ne h
  rw [apply, apply, hequal, hnotEqual]
  exact ⟨rfl, rfl⟩

end OperatorTable

/-! ### Equality as a relation -/

namespace Value

variable {u v w : Value} {zs ws : List Complex} {a b : Bool}

/-- Whether the language calls two values equal. -/
def Equals (v w : Value) : Prop :=
  standard.apply .equal v w = .ok (ofBool true)

lemma ofBool_inj : ofBool a = ofBool b ↔ a = b := by
  cases a <;> cases b <;> decide +kernel

lemma equals_iff_alike : v.Equals w ↔ v.Alike w := by
  by_cases h : v.SameKind w
  · rw [Equals, OperatorTable.apply_equal_of_sameKind h, Except.ok.injEq, ofBool_inj]
    rfl
  · rw [Equals, (OperatorTable.apply_of_not_sameKind h).1]
    exact iff_of_false nofun fun halike => h (OperatorTable.tag_widened_eq halike)

lemma equals_equivalence : Equivalence Equals where
  refl v := equals_iff_alike.2 (.refl v)
  symm h := equals_iff_alike.2 (equals_iff_alike.1 h).symm
  trans h h' := equals_iff_alike.2 ((equals_iff_alike.1 h).trans (equals_iff_alike.1 h'))

lemma equals_scalars_iff {z w : Complex} : (scalar z).Equals (.scalar w) ↔ z.same w = true :=
  equals_iff_alike

lemma equals_texts_iff {s t : String} : (text s).Equals (.text t) ↔ s = t :=
  equals_iff_alike.trans beq_iff_eq

lemma equals_dates_iff {a b : Moment} : (date a).Equals (.date b) ↔ a = b := by
  rw [equals_iff_alike, alike_iff_matches]
  constructor
  · intro h
    cases h with
    | date => rfl
    | vector hv => cases hv
  · rintro rfl
    exact .date a

lemma equals_vectors_iff (hv : v.IsVector zs) (hw : w.IsVector ws) :
    v.Equals w ↔ List.Forall₂ (fun z w => (scalar z).Equals (.scalar w)) zs ws := by
  simp only [equals_scalars_iff]
  rw [equals_iff_alike, Alike, hv, hw, same_vectors]

/-- Equality is reflexive, symmetric and transitive. Numbers are equal if their parts are, where
not-a-number equals itself and the zeros are equal, vectors if they have the same number of elements
and the elements are equal, texts and dates if they are one. Inequality is the opposite of equality,
and values of different kinds are not compared. -/
theorem equality_laws :
    Equivalence Equals
      ∧ (∀ z w, (scalar z).Equals (.scalar w) ↔ z.same w = true)
      ∧ (∀ v w zs ws, IsVector v zs → IsVector w ws →
        (v.Equals w ↔ zs.length = ws.length
          ∧ ∀ pair ∈ zs.zip ws, (scalar pair.1).Equals (.scalar pair.2)))
      ∧ (∀ s t, (text s).Equals (.text t) ↔ s = t)
      ∧ (∀ a b, (date a).Equals (.date b) ↔ a = b)
      ∧ (∀ v w, SameKind v w → ∃ b, standard.apply .equal v w = .ok (ofBool b)
        ∧ standard.apply .notEqual v w = .ok (ofBool !b))
      ∧ ∀ v w, ¬ SameKind v w →
        standard.apply .equal v w = .error (.unsupportedOperation .equal v.tag w.tag)
          ∧ standard.apply .notEqual v w
            = .error (.unsupportedOperation .notEqual v.tag w.tag) := by
  refine ⟨equals_equivalence, fun z w => equals_scalars_iff, ?_, fun s t => equals_texts_iff,
    fun a b => equals_dates_iff, ?_, ?_⟩
  · intro v w zs ws hv hw
    rw [equals_vectors_iff hv hw, List.forall₂_iff_zip]
    exact and_congr_right fun _ => ⟨fun h pair hpair => h hpair, fun h z w hpair => h (z, w) hpair⟩
  · intro v w h
    exact ⟨v.widened.same w.widened, OperatorTable.apply_equal_of_sameKind h,
      OperatorTable.apply_notEqual_of_sameKind h⟩
  · intro v w h
    exact OperatorTable.apply_of_not_sameKind h

/-- A real vector equals the complex one that has the same elements up to the signs of zeros, though
not-a-number is among them. -/
theorem equality_laws_mixed :
    let v : Value := .realVector [Binary64.nan, 0]
    let w : Value := .complexVector [⟨Binary64.nan, 0⟩, ⟨-0, -0⟩]
    v.SameKind w ∧ v.Equals w ∧ w.Equals v
      ∧ standard.apply .notEqual v w = .ok (ofBool false) := by
  intro v w
  obtain ⟨hequivalence, hscalars, hvectors, -, -, hopposite, -⟩ := equality_laws
  have hequals : v.Equals w := by
    refine (hvectors v w _ _ rfl rfl).2 ⟨rfl, fun pair hpair => (hscalars _ _).2 ?_⟩
    revert pair
    decide +kernel
  obtain ⟨b, hequal, hnotEqual⟩ := hopposite v w rfl
  rw [hequals, Except.ok.injEq, ofBool_inj] at hequal
  subst hequal
  exact ⟨rfl, hequals, hequivalence.symm hequals, hnotEqual⟩

end Value

end Reckoner
