import Reckoner.Proofs.Decimal.Reading
import Reckoner.Proofs.Form.Tokens

/-!
# Signs in a text

The same character is the sign of a number, a negation or a subtraction. Which of them it is the
reading of the text decides by the token before it and the one behind it.
-/

namespace Reckoner

/-! ### Numerals have no sign -/

namespace Binary64

open Float.Model (UnpackedFloat Format)
open Float.Model.UnpackedFloat

/-- The sign of a view. -/
def viewSign : UnpackedFloat → Sign
  | .notANumber => .positive
  | .infinity s => s
  | .zero s => s
  | .finite s _ _ _ => s

lemma sign_eq_viewSign (x : Float) : sign x = viewSign (view x) := by
  unfold sign viewSign
  cases view x <;> rfl

lemma viewSign_roundWithAccuracy (s : Sign) (m : Nat) (e : Int) (a : Accuracy) :
    viewSign (roundWithAccuracy Format.binary64 s m e a) = s := by
  unfold roundWithAccuracy
  dsimp only
  split <;> rfl

/-- Packing keeps a positive sign, also that of a result that is too great or too small. -/
lemma sign_ofView {u : UnpackedFloat} (h : viewSign u = .positive) :
    sign (ofView u) = .positive := by
  have hparts : ∀ e m, viewSign (unpack Format.binary64
      (packComponents Format.binary64 .positive e m)) = .positive := by
    intro e m
    rw [unpack_packComponents]
    split_ifs <;> rfl
  rw [sign_eq_viewSign]
  change viewSign (unpack Format.binary64 (pack Format.binary64 u)) = _
  cases u with
  | notANumber => exact hparts _ _
  | infinity s =>
    cases h
    exact hparts _ _
  | zero s =>
    cases h
    exact hparts _ _
  | finite s m e hm =>
    cases h
    simp only [pack]
    split_ifs <;> exact hparts _ _

lemma viewSign_mul {u v : UnpackedFloat} (hu : viewSign u = .positive)
    (hv : viewSign v = .positive) : viewSign (mul Format.binary64 u v) = .positive := by
  cases u <;> cases v <;> cases hu <;> cases hv <;>
    first | rfl | exact viewSign_roundWithAccuracy _ _ _ _

lemma viewSign_div {u v : UnpackedFloat} (hu : viewSign u = .positive)
    (hv : viewSign v = .positive) : viewSign (div Format.binary64 u v) = .positive := by
  cases u <;> cases v <;> cases hu <;> cases hv <;>
    first | rfl | exact viewSign_roundWithAccuracy _ _ _ _

lemma sign_mul {x y : Float} (hx : sign x = .positive) (hy : sign y = .positive) :
    sign (x * y) = .positive := by
  rw [sign_eq_viewSign] at hx hy
  exact sign_ofView (viewSign_mul hx hy)

lemma sign_div {x y : Float} (hx : sign x = .positive) (hy : sign y = .positive) :
    sign (x / y) = .positive := by
  rw [sign_eq_viewSign] at hx hy
  exact sign_ofView (viewSign_div hx hy)

lemma viewSign_ofScientific (m : Nat) (e : Int) :
    viewSign (UnpackedFloat.ofScientific Format.binary64 m e) = .positive := by
  unfold UnpackedFloat.ofScientific
  split_ifs
  · rfl
  · rfl
  · rfl
  · exact viewSign_mul rfl rfl
  · exact viewSign_div rfl rfl

lemma sign_toFloat (n : Nat) : sign n.toUInt64.toFloat = .positive := by
  have hfloat : n.toUInt64.toFloat
      = ofView (UnpackedFloat.normalize Format.binary64 (n.toUInt64.toNat : Nat) 0 .positive) := rfl
  rw [hfloat]
  refine sign_ofView ?_
  unfold UnpackedFloat.normalize
  split
  · rename_i hlt
    exact absurd (Int.compare_eq_lt.1 hlt) (by omega)
  · rfl
  · exact viewSign_roundWithAccuracy _ _ _ _

end Binary64

namespace Decimal

open Binary64

lemma sign_powersOfTen (j : Nat) (h : j < Float.exactlyRepresentablePowersOfTen.size) :
    sign Float.exactlyRepresentablePowersOfTen[j] = .positive := by
  obtain ⟨p, f, hp, hview, -⟩ := eq_of_isPowerOfTen (isPowerOfTen_powersOfTen ⟨j, h⟩)
  rw [sign_eq_viewSign]
  exact congrArg viewSign hview

/-- No decimal is read as a number with a sign, not even as a negative zero. -/
lemma sign_ofDecimal (c : Nat) (k : Int) : sign (ofDecimal c k) = .positive := by
  have hslow : ∀ e : Int,
      sign (ofView (Float.Model.UnpackedFloat.ofScientific .binary64 c e)) = .positive :=
    fun e => sign_ofView (viewSign_ofScientific c e)
  cases k with
  | ofNat j =>
    rw [ofDecimal, Float.ofScientific]
    split
    · exact sign_mul (sign_toFloat c) (sign_powersOfTen j _)
    · exact hslow _
  | negSucc j =>
    rw [ofDecimal, Float.ofScientific]
    split
    · exact sign_div (sign_toFloat c) (sign_powersOfTen (j + 1) _)
    · exact hslow _

end Decimal

namespace Token

/-! ### Telling signs from subtractions -/

/-- How signs are told, token by token: `resolve` as a relation between the tokens before and those
after. -/
inductive Resolves : Option Token → List Token → List Token → Prop
  | nil (previous : Option Token) : Resolves previous [] []
  | number {previous : Option Token} {x : Float} {raw ts : List Token}
    (hsign : isSign previous = true) (h : Resolves (some (.number (-x))) raw ts) :
    Resolves previous (.binary .sub :: .number x :: raw) (.number (-x) :: ts)
  | negate {previous : Option Token} {raw ts : List Token} (hsign : isSign previous = true)
    (hraw : ∀ t ∈ raw.head?, t.isNumber = false) (h : Resolves (some .negate) raw ts) :
    Resolves previous (.binary .sub :: raw) (.negate :: ts)
  | sub {previous : Option Token} {raw ts : List Token} (hsign : isSign previous = false)
    (h : Resolves (some (.binary .sub)) raw ts) :
    Resolves previous (.binary .sub :: raw) (.binary .sub :: ts)
  | notEqual {previous : Option Token} {raw ts : List Token}
    (h : Resolves (some (.binary .notEqual)) raw ts) :
    Resolves previous (.bang :: .assign :: raw) (.binary .notEqual :: ts)
  | other {previous : Option Token} {t : Token} {raw ts : List Token} (hsub : t ≠ .binary .sub)
    (hraw : t = .bang → ∀ u ∈ raw.head?, u ≠ .assign) (h : Resolves (some t) raw ts) :
    Resolves previous (t :: raw) (t :: ts)

lemma Resolves.resolve_eq {previous : Option Token} {raw ts : List Token}
    (h : Resolves previous raw ts) : resolve previous raw = ts := by
  induction h with
  | nil _ => rw [resolve]
  | number hsign _ ih => rw [resolve_sub_number hsign, ih]
  | negate hsign hraw _ ih => rw [resolve_negate hsign hraw, ih]
  | sub hsign _ ih => rw [resolve_sub_behind hsign, ih]
  | notEqual _ ih => rw [resolve, ih]
  | @other _ t _ _ hsub hraw _ ih =>
    by_cases hbang : t = .bang
    · subst hbang
      rw [resolve_bang (hraw rfl), ih]
    · rw [resolve_other hsub hbang, ih]

lemma resolves_resolve (previous : Option Token) (raw : List Token) :
    Resolves previous raw (resolve previous raw) := by
  induction previous, raw using resolve.induct with
  | case1 previous => exact .nil previous
  | case2 previous x rest hsign ih =>
    rw [resolve, if_pos hsign]
    exact .number hsign ih
  | case3 previous x rest hsign ih =>
    rw [resolve, if_neg hsign]
    exact .sub (Bool.eq_false_iff.2 hsign) (.other (by simp) (by simp) ih)
  | case4 previous rest hrest t ih =>
    have hnumber : ∀ u ∈ rest.head?, u.isNumber = false := by
      cases rest with
      | nil => simp
      | cons u rest =>
        rintro _ ⟨⟩
        cases u with
        | number x => exact absurd rfl (hrest x rest)
        | _ => rfl
    cases hsign : isSign previous with
    | true =>
      rw [resolve_negate hsign hnumber]
      simp only [t, hsign] at ih
      exact .negate hsign hnumber ih
    | false =>
      rw [resolve_sub_behind hsign]
      simp only [t, hsign] at ih
      exact .sub hsign ih
  | case5 previous rest ih =>
    rw [resolve]
    exact .notEqual ih
  | case6 previous t rest hnumber hsub hbang ih =>
    have hassign : t = .bang → ∀ u ∈ rest.head?, u ≠ .assign := by
      cases rest with
      | nil => simp
      | cons u rest =>
        rintro rfl _ ⟨⟩ rfl
        exact hbang rest rfl rfl
    rw [resolve]
    · exact .other hsub hassign ih
    · exact hnumber
    · exact hsub
    · exact hbang

/-! ### Where signs stand -/

/-- Whether a token can be read before signs are told from subtractions. -/
def IsUnsigned : Token → Prop
  | .number x => Binary64.sign x = .positive
  | .negate => False
  | _ => True

/-- Whether a minus sign belongs to a token: a subtraction, a negation or a number with a sign. -/
def HasMinus : Token → Prop
  | .binary .sub => True
  | .negate => True
  | .number x => Binary64.sign x = .negative
  | _ => False

/-- Whether the minus sign of a token, if it has one, is right behind the token `previous`: a
subtraction stands behind an operand, and nothing else does. -/
def FitsBehind (previous : Option Token) : Token → Prop
  | .binary .sub => isSign previous = false
  | .negate => isSign previous = true
  | .number x => Binary64.sign x = .negative → isSign previous = true
  | _ => True

/-- Whether the minus signs of all tokens are right behind the tokens before them. -/
def AllFit (previous : Option Token) : List Token → Prop
  | [] => True
  | t :: ts => t.FitsBehind previous ∧ AllFit (some t) ts

lemma Spells.isUnsigned {w : List Char} {t : Token} (h : Spells w t) : t.IsUnsigned := by
  cases h with
  | number hn => exact Decimal.sign_ofDecimal _ _
  | text hs => trivial
  | @word c w hc hw => rcases ofWord_cases (c :: w) with h | h | h | h <;> rw [h] <;> trivial
  | pair hp =>
    unfold ofPair at hp
    split at hp <;> cases hp <;> trivial
  | mark hm =>
    unfold ofChar at hm
    split at hm <;> cases hm <;> trivial

lemma isUnsigned_of_mem_scan {text : List Char} {ts : List Token} (h : scan text = .ok ts) :
    ∀ t ∈ ts, t.IsUnsigned := by
  obtain ⟨ps, -, -, -, rfl, -⟩ := exists_pieces_of_scan h
  intro t ht
  obtain ⟨p, -, rfl⟩ := List.mem_map.1 ht
  exact p.spells.isUnsigned

lemma exists_scan_of_tokenize {text : List Char} {ts : List Token} (h : tokenize text = .ok ts) :
    ∃ raw, scan text = .ok raw ∧ resolve none raw = ts := by
  rw [tokenize] at h
  cases hscan : scan text with
  | error err =>
    rw [hscan] at h
    cases h
  | ok raw =>
    rw [hscan] at h
    exact ⟨raw, rfl, Except.ok.inj h⟩

lemma IsUnsigned.fitsBehind {t : Token} (h : t.IsUnsigned) (hsub : t ≠ .binary .sub)
    (previous : Option Token) : t.FitsBehind previous := by
  cases t with
  | number x => exact fun hx => by cases hx.symm.trans h
  | negate => exact h.elim
  | binary op =>
    cases op with
    | sub => exact absurd rfl hsub
    | _ => trivial
  | _ => trivial

/-- Minus signs are told apart by the tokens before them. -/
lemma Resolves.allFit {previous : Option Token} {raw ts : List Token}
    (h : Resolves previous raw ts) (hraw : ∀ t ∈ raw, t.IsUnsigned) : AllFit previous ts := by
  induction h with
  | nil _ => trivial
  | number hsign _ ih => exact ⟨fun _ => hsign, ih fun t ht => hraw t (by simp [ht])⟩
  | negate hsign _ _ ih => exact ⟨hsign, ih fun t ht => hraw t (by simp [ht])⟩
  | sub hsign _ ih => exact ⟨hsign, ih fun t ht => hraw t (by simp [ht])⟩
  | notEqual _ ih => exact ⟨trivial, ih fun t ht => hraw t (by simp [ht])⟩
  | other hsub _ _ ih =>
    exact ⟨(hraw _ (by simp)).fitsBehind hsub _, ih fun t ht => hraw t (by simp [ht])⟩

lemma AllFit.fitsBehind {before rest : List Token} {t : Token} {previous : Option Token}
    (h : AllFit previous (before ++ t :: rest)) : t.FitsBehind (before.getLast?.or previous) := by
  induction before generalizing previous with
  | nil => exact h.1
  | cons t' before ih =>
    rw [getLast?_cons_or]
    exact ih h.2

end Token

end Reckoner
