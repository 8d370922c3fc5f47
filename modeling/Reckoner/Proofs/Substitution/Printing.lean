import Reckoner.Proofs.Binary64.Same
import Reckoner.Proofs.Decimal.Shortest
import Reckoner.Proofs.Form.Outside
import Reckoner.Proofs.Form.Trimming

/-!
# Texts that print an expression

A text prints an expression if it is a form of it without gaps at its ends, and can stand wherever a
group stood. The text of a number is one, and so are lists of such texts between brackets.
-/

namespace Reckoner

/-! ### Texts without gaps at their ends -/

namespace Piece

/-- The piece of a mark, without a gap. -/
def ofChar (c : Char) (t : Token) (h : Token.ofChar c = some t) : Piece where
  gap := []
  spelling := [c]
  token := t
  isSeparator_of_mem_gap := isSeparator_of_mem_nil
  spells := .mark h

@[simp] lemma text_ofChar {c : Char} {t : Token} (h : Token.ofChar c = some t) :
    (ofChar c t h).text = [c] :=
  rfl

@[simp] lemma token_ofChar {c : Char} {t : Token} (h : Token.ofChar c = some t) :
    (ofChar c t h).token = t :=
  rfl

/-- Whether a piece could run into a word behind it. -/
def Guarded (p : Piece) : Prop :=
  p.isWord = true ∨ p.token = .closeParen

lemma apart_of_not_guarded {p : Piece} (h : ¬ p.Guarded) (q : Piece) : p.Apart q :=
  fun hp => absurd hp h

/-- A bracket or divider keeps apart from whatever is before it. -/
lemma apart_of_structural (p : Piece) {q : Piece} {c : Char}
    (h : q.token.structuralChar? = some c) : p.Apart q := by
  intro _ d hd
  by_contra hcontinues
  rw [Bool.not_eq_false] at hcontinues
  have hplain := Token.not_isStructural_of_continues hcontinues
  rw [text_of_structural h] at hd
  rcases List.mem_append.1 (List.mem_of_mem_head? hd) with hgap | hmem
  · have hblank := Token.not_isBlank_of_continues hcontinues
    rw [Token.isBlank_of_separator (q.isSeparator_of_mem_gap d hgap)] at hblank
    cases hblank
  · rw [List.mem_singleton.1 hmem] at hplain
    cases ht : q.token <;> rw [ht] at h <;> cases h <;> cases hplain

lemma not_guarded_ofChar {c : Char} {t : Token} (h : Token.ofChar c = some t)
    (ht : t ≠ .closeParen) : ¬ (ofChar c t h).Guarded := by
  rintro (hword | htoken)
  · have hstarts : Token.startsIdentifier c = true := by simpa [isWord, ofChar] using hword
    rw [(Token.isFirst_of_ofChar h).2] at hstarts
    cases hstarts
  · exact ht htoken

lemma not_guarded_of_isNumber {p : Piece} (h : p.token.isNumber = true) : ¬ p.Guarded := by
  rintro (hword | htoken)
  · rw [isNumber_of_isWord hword] at h
    cases h
  · rw [htoken] at h
    cases h

end Piece

lemma RestForms.apart {es : List Expr} {rs : List Piece} (h : RestForms es rs) (ps : List Piece) :
    ∀ p ∈ ps.getLast?, ∀ q ∈ rs.head?, p.Apart q :=
  fun p _ q hq => p.apart_of_structural (c := ',') (by rw [h.token_of_mem q hq]; rfl)

/-- A text that is a form of an expression without gaps at its ends. -/
def Prints (e : Expr) (text : List Char) : Prop :=
  ∃ ps, text = Piece.texts (Piece.flush ps) ∧ Forms e ps ∧ ps.IsChain Piece.Apart

lemma Reads.prints {e : Expr} {text : List Char} (h : Reads e text) :
    Prints e (Text.trim text) := by
  obtain ⟨ps, gap, rfl, hgap, hps, hchain⟩ := h
  exact ⟨ps, Piece.trim_texts hps.ne_nil hgap, hps, hchain⟩

/-! ### Lists -/

lemma Text.join_cons (separator t : List Char) (ts : List (List Char)) :
    join separator (t :: ts) = t ++ ts.flatMap (separator ++ ·) := by
  induction ts generalizing t with
  | nil => simp [join]
  | cons u ts ih =>
    rw [List.flatMap_cons, List.append_assoc, ← ih u]
    simp [join]

/-- What holds of texts and separators and of what they are put together to holds of the joined
text. -/
lemma Text.join_induction {Q : List Char → Prop} {separator : List Char} (hnil : Q [])
    (happend : ∀ {s t}, Q s → Q t → Q (s ++ t)) (hseparator : Q separator)
    {ts : List (List Char)} (h : ∀ t ∈ ts, Q t) : Q (join separator ts) := by
  have hrest {ts : List (List Char)} (h : ∀ t ∈ ts, Q t) : Q (ts.flatMap (separator ++ ·)) := by
    induction ts with
    | nil => exact hnil
    | cons t ts ih =>
      obtain ⟨ht, hts⟩ := List.forall_mem_cons.1 h
      rw [List.flatMap_cons]
      exact happend (happend hseparator ht) (ih hts)
  cases ts with
  | nil => exact hnil
  | cons t ts =>
    obtain ⟨ht, hts⟩ := List.forall_mem_cons.1 h
    rw [join_cons]
    exact happend ht (hrest hts)

namespace Prints

open Piece (texts flush regap)

/-- The comma before a further element of a list. -/
def comma : Piece :=
  .ofChar ',' .comma rfl

lemma exists_rest {es : List Expr} {ts : List (List Char)} (h : List.Forall₂ Prints es ts) :
    ∃ ps, RestForms es ps ∧ ps.IsChain Piece.Apart
      ∧ texts ps = ts.flatMap ([',', ' '] ++ ·) := by
  induction h with
  | nil => exact ⟨[], .nil, .nil, rfl⟩
  | @cons e t es ts h _ ih =>
    obtain ⟨rs, hrs, hchain', hrest⟩ := ih
    obtain ⟨ps, rfl, hps, hchain⟩ := h
    have hgap : ∀ c ∈ [' '], Token.isSeparator c = true := by simp [Token.isSeparator]
    refine ⟨comma :: (regap [' '] hgap ps ++ rs), ?_, ?_, ?_⟩
    · exact .cons rfl (Piece.forms_regap hgap hps) hrs
    · refine List.isChain_cons.2 ⟨fun q _ => Piece.apart_of_not_guarded ?_ q, ?_⟩
      · exact Piece.not_guarded_ofChar rfl (by decide)
      · exact (Piece.isChain_regap hgap hchain).append hchain' (hrs.apart _)
    · have hcomma : comma.text = [','] := rfl
      rw [Piece.texts_cons, Piece.texts_append, Piece.texts_regap hgap hps.ne_nil, hrest, hcomma]
      simp

/-- The texts of expressions with commas between them form a list. -/
lemma exists_list {es : List Expr} {ts : List (List Char)} (h : List.Forall₂ Prints es ts) :
    ∃ ps, ListForms es ps ∧ ps.IsChain Piece.Apart ∧ texts ps = Text.join [',', ' '] ts := by
  cases h with
  | nil => exact ⟨[], .nil, .nil, rfl⟩
  | @cons e t es ts h hes =>
    obtain ⟨ps, rfl, hps, hchain⟩ := h
    obtain ⟨rs, hrs, hchain', hrest⟩ := exists_rest hes
    refine ⟨flush ps ++ rs, .cons (Piece.forms_regap _ hps) hrs, ?_, ?_⟩
    · exact (Piece.isChain_regap _ hchain).append hchain' (hrs.apart _)
    · rw [Text.join_cons, Piece.texts_append, hrest]

end Prints

/-! ### Numbers -/

namespace Binary64

open Float.Model (UnpackedFloat Format)
open Float.Model.UnpackedFloat

lemma neg_neg (x : Float) : -(-x) = x := by
  refine eq_of_view_eq ?_
  rw [view_neg, view_neg]
  cases view x with
  | notANumber => rfl
  | infinity s => cases s <;> rfl
  | zero s => cases s <;> rfl
  | finite s m e hm => cases s <;> rfl

lemma isFinite_neg (x : Float) : (-x).isFinite = x.isFinite := by
  have hview : ∀ y : Float, y.isFinite = (view y).isFinite := fun _ => rfl
  rw [hview, hview, view_neg]
  cases view x <;> rfl

lemma sign_neg {x : Float} (h : sign x = .negative) : sign (-x) = .positive := by
  rw [sign, view_neg]
  rw [sign] at h
  cases hx : view x with
  | notANumber => rw [hx] at h; cases h
  | infinity s => rw [hx] at h; subst h; rfl
  | zero s => rw [hx] at h; subst h; rfl
  | finite s m e hm => rw [hx] at h; subst h; rfl

lemma normalize_apply (s zeroSign : Sign) {n : Nat} (hn : 0 < n) (k : Int) :
    UnpackedFloat.normalize Format.binary64 (s.apply n) k zeroSign
      = UnpackedFloat.round Format.binary64 s n k := by
  cases s with
  | positive =>
    have hcompare : compare (n : Int) 0 = .gt := Int.compare_eq_gt.2 (by omega)
    simp only [UnpackedFloat.normalize, Sign.apply, hcompare, Int.toNat_natCast]
  | negative =>
    have hcompare : compare (-(n : Int)) 0 = .lt := Int.compare_eq_lt.2 (by omega)
    simp only [UnpackedFloat.normalize, Sign.apply, hcompare, Int.neg_neg, Int.toNat_natCast]

/-- A product with one is exact. -/
lemma fusedMulAdd_one {x : Float} (hx : x.isFinite = true) (hzero : isZero (view x) = false) :
    fusedMulAdd x 1 (0 * 0) = x := by
  have hone : view 1 = .finite .positive (2 ^ 52) (-52) (by decide) := rfl
  have hzeros : view (0 * 0) = .zero .positive := rfl
  conv_rhs => rw [← ofView_view x]
  have hfinite : (view x).isFinite = true := hx
  have hview := isView_view x
  rw [fusedMulAdd, hone, hzeros]
  generalize view x = u at *
  cases hview with
  | notANumber => cases hfinite
  | infinity s => cases hfinite
  | zero s => cases hzero
  | @finite s m e hm h =>
    have hsign : s * Sign.positive = s := by cases s <;> rfl
    simp only [exactMul, hsign, nearest]
    rw [normalize_apply s s (Nat.mul_pos hm (by decide)), round_eq s hm (Nat.mul_pos hm (by decide))
      h]
    have hvalue : ((m * 2 ^ 52 : Nat) : ℚ) * 2 ^ (e + -52) = m * 2 ^ e := by
      rw [Nat.cast_mul, Nat.cast_pow, Nat.cast_ofNat, mul_assoc, two_pow_mul_zpow]
      congr 2
      ring
    rw [hvalue]
    exact .self m e

lemma isZero_fusedMulAdd_zero {x : Float} (hx : x.isFinite = true) :
    isZero (view (fusedMulAdd x 0 (-(0 * 1)))) = true := by
  have hzero : view (-(0 * 1)) = .zero .negative := rfl
  have hfinite : (view x).isFinite = true := hx
  rw [fusedMulAdd, view_zero, hzero]
  cases hu : view x with
  | notANumber => rw [hu] at hfinite; cases hfinite
  | infinity s => rw [hu] at hfinite; cases hfinite
  | zero s => cases s <;> rfl
  | finite s m e hm =>
    simp only [exactMul]
    cases s <;> rfl

end Binary64

namespace Decimal

open Binary64

/-- A negative number is written with a minus sign before its opposite. -/
lemma write_of_negative {x : Float} (h : sign x = .negative) : write x = '-' :: write (-x) := by
  rw [write, write, view_neg]
  rw [sign] at h
  cases hx : view x with
  | notANumber => rw [hx] at h; cases h
  | infinity s => rw [hx] at h; subst h; rfl
  | zero s => rw [hx] at h; subst h; rfl
  | finite s m e hm => rw [hx] at h; subst h; rfl

end Decimal

namespace Piece

lemma isChain_of_not_guarded {ps : List Piece} (h : ∀ p ∈ ps, ¬ p.Guarded) : ps.IsChain Apart := by
  induction ps with
  | nil => exact .nil
  | cons p ps ih =>
    rw [List.forall_mem_cons] at h
    exact List.isChain_cons.2 ⟨fun q _ => apart_of_not_guarded h.1 q, ih h.2⟩

/-- The pieces of a finite number. -/
lemma exists_number {x : Float} (hx : x.isFinite = true) :
    ∃ ps, texts ps = Decimal.write x ∧ flush ps = ps ∧ Forms (.number x) ps
      ∧ ∀ p ∈ ps, ¬ p.Guarded := by
  have hpositive {y : Float} (hy : y.isFinite = true) (hsign : Binary64.sign y = .positive) :
      ∃ p : Piece, p.gap = [] ∧ p.spelling = Decimal.write y ∧ p.token = .number y := by
    obtain ⟨n, hn, rfl⟩ := Decimal.takeNumeral_write hy hsign
    exact ⟨⟨[], _, _, by simp, .number hn⟩, rfl, rfl, rfl⟩
  cases hsign : Binary64.sign x with
  | positive =>
    obtain ⟨p, hgap, hspelling, htoken⟩ := hpositive hx hsign
    refine ⟨[p], ?_, ?_, .number htoken, ?_⟩
    · simp [text, hgap, hspelling]
    · cases p
      cases hgap
      rfl
    · rintro q (_ | ⟨_, ⟨⟩⟩)
      exact not_guarded_of_isNumber (by rw [htoken]; rfl)
  | negative =>
    obtain ⟨p, hgap, hspelling, htoken⟩ :=
      hpositive ((Binary64.isFinite_neg x).trans hx) (Binary64.sign_neg hsign)
    refine ⟨[ofChar '-' (.binary .sub) rfl, p], ?_, rfl, ?_, ?_⟩
    · rw [Decimal.write_of_negative hsign, ← hspelling]
      simp [text, hgap, ofChar]
    · rw [← Binary64.neg_neg x]
      exact .signed rfl htoken
    · rintro q (_ | ⟨_, _ | ⟨_, ⟨⟩⟩⟩)
      · exact not_guarded_ofChar rfl (by decide)
      · exact not_guarded_of_isNumber (by rw [htoken]; rfl)

end Piece

end Reckoner
