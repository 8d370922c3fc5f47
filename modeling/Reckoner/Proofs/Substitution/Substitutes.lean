import Reckoner.Proofs.Substitution.RoundTrip
import Reckoner.Proofs.Token.NumeralEnds

/-!
# What stands for a group

A group gives way to the literal of a value or to a fresh name. Either can be read behind any text
that it does not run into, and what it is read as does not depend on that text.
-/

namespace Reckoner

open Token (scan)

/-! ### Plain numerals -/

namespace Decimal

/-- Digits, or digits with a point between them. -/
inductive IsPlain : List Char → Prop where
  | whole {digits : List Char} (hne : digits ≠ []) (hdigits : ∀ c ∈ digits, c.isDigit = true) :
    IsPlain digits
  | point {whole fraction : List Char} (hne : whole ≠ [])
    (hwhole : ∀ c ∈ whole, c.isDigit = true) (hfraction : ∀ c ∈ fraction, c.isDigit = true) :
    IsPlain (whole ++ '.' :: fraction)

lemma isPlain_plain (d : Digits) : IsPlain (plain d) := by
  obtain ⟨n, k⟩ := d
  cases k with
  | ofNat k =>
    refine .whole (List.append_ne_nil_of_left_ne_nil (natText_ne_nil n) _) fun c hc => ?_
    rcases List.mem_append.1 hc with h | h
    · exact isDigit_of_mem_natText h
    · exact isDigit_of_mem_replicate h
  | negSucc k =>
    refine .point (take_ne_nil_of_le_length (le_length_padded k _)) ?_ ?_
    · exact fun c hc => isDigit_of_mem_padded (List.mem_of_mem_take hc)
    · exact fun c hc => isDigit_of_mem_padded (List.mem_of_mem_drop hc)

lemma isPlain_write {x : Float} (hfinite : x.isFinite = true)
    (hsign : Binary64.sign x = .positive) : IsPlain (write x) := by
  change (Binary64.view x).isFinite = true at hfinite
  simp only [write, Binary64.sign] at hsign ⊢
  cases hx : Binary64.view x with
  | notANumber =>
    rw [hx] at hfinite
    cases hfinite
  | infinity s =>
    rw [hx] at hfinite
    cases hfinite
  | zero s =>
    rw [hx] at hsign
    subst hsign
    exact .whole (by simp [signText]) (by simp [signText])
  | finite s m e hm =>
    rw [hx] at hsign
    subst hsign
    exact isPlain_plain _

namespace IsPlain

variable {text behind : List Char}

lemma head (h : IsPlain text) : ∃ c ∈ text.head?, c.isDigit = true := by
  cases h with
  | whole hne hdigits =>
    cases text with
    | nil => exact absurd rfl hne
    | cons c digits => exact ⟨c, rfl, hdigits c List.mem_cons_self⟩
  | @point whole fraction hne hwhole =>
    cases whole with
    | nil => exact absurd rfl hne
    | cons c whole => exact ⟨c, rfl, hwhole c List.mem_cons_self⟩

end IsPlain

/-- Whether a plain numeral goes on in the next text: with a digit, a point if it has none, or an
exponent. -/
def Resumes (text behind : List Char) : Prop :=
  (∃ c ∈ behind.head?, c.isDigit = true) ∨ (behind.head? = some '.' ∧ '.' ∉ text)
    ∨ (takeExponent behind).2 ≠ behind

lemma takeExponent_eq_of_rest {text : List Char} (h : (takeExponent text).2 = text) :
    takeExponent text = (0, text) := by
  cases text with
  | nil => rfl
  | cons c tail =>
    have hsign := length_takeSign tail
    have hdigits := (List.dropWhile_sublist (l := (takeSign tail).2) Char.isDigit).length_le
    by_cases hletter : (c = 'e' ∨ c = 'E') ∧ (takeSign tail).2.takeWhile Char.isDigit ≠ []
    · simp only [takeExponent, if_pos hletter] at h
      have hlength := congrArg List.length h
      rw [List.length_cons] at hlength
      omega
    · simp only [takeExponent, if_neg hletter]

/-- A plain numeral is read off the front of a text in which it does not go on. -/
lemma IsPlain.exists_takeNumeral {text : List Char} (h : IsPlain text) :
    ∃ n, ∀ behind, ¬ Resumes text behind → takeNumeral (text ++ behind) = some (n, behind) := by
  have hexponent {behind : List Char} (h : ¬ Resumes text behind) :
      takeExponent behind = (0, behind) := by
    refine takeExponent_eq_of_rest ?_
    by_contra hrest
    exact h (.inr (.inr hrest))
  have hstop {behind : List Char} (h : ¬ Resumes text behind) :
      ∀ c ∈ behind.head?, c.isDigit = false := by
    intro c hc
    by_contra hdigit
    exact h (.inl ⟨c, hc, Bool.eq_true_of_not_eq_false hdigit⟩)
  cases h with
  | whole hne hdigits =>
    refine ⟨⟨text, [], 0⟩, fun behind h => ?_⟩
    have htake : (text ++ behind).takeWhile Char.isDigit = text := by
      rw [Text.takeWhile_append_of_stop (hstop h), List.takeWhile_eq_self_iff.2 hdigits]
    have hdrop : (text ++ behind).dropWhile Char.isDigit = behind := by
      rw [Text.dropWhile_append_of_stop (hstop h), List.dropWhile_eq_nil_iff.2 hdigits,
        List.nil_append]
    have hpoint : ((text ++ behind).dropWhile Char.isDigit).head? ≠ some '.' := by
      rw [hdrop]
      intro hpoint
      refine h (.inr (.inl ⟨hpoint, fun hmem => ?_⟩))
      exact absurd (hdigits '.' hmem) (by decide)
    rw [takeNumeral_of_no_point hpoint, htake, hdrop, hexponent h]
    simp [hne]
  | @point whole fraction hne hwhole hfraction =>
    refine ⟨⟨whole, fraction, 0⟩, fun behind h => ?_⟩
    have htext : whole ++ '.' :: fraction ++ behind = whole ++ '.' :: (fraction ++ behind) := by
      simp
    have hpoint : ∀ c ∈ ('.' :: (fraction ++ behind)).head?, c.isDigit = false := by
      rintro c ⟨⟩
      rfl
    have htake : (whole ++ '.' :: (fraction ++ behind)).takeWhile Char.isDigit = whole := by
      rw [Text.takeWhile_append_of_stop hpoint, List.takeWhile_eq_self_iff.2 hwhole]
    have hdrop : (whole ++ '.' :: (fraction ++ behind)).dropWhile Char.isDigit
        = '.' :: (fraction ++ behind) := by
      rw [Text.dropWhile_append_of_stop hpoint, List.dropWhile_eq_nil_iff.2 hwhole, List.nil_append]
    rw [htext, takeNumeral_of_point hdrop, htake, Text.takeWhile_append_of_stop (hstop h),
      List.takeWhile_eq_self_iff.2 hfraction, Text.dropWhile_append_of_stop (hstop h),
      List.dropWhile_eq_nil_iff.2 hfraction, List.nil_append, hexponent h]
    simp [hne]

end Decimal

lemma Token.Takes.of_takeNumeral {text rest : List Char} {n : Decimal.Numeral}
    (h : Decimal.takeNumeral text = some (n, rest)) : Takes text (.number n.value) rest := by
  obtain ⟨w, rfl, -, ⟨c, hc, -⟩, hchars⟩ := Decimal.exists_of_takeNumeral h
  cases w with
  | nil => cases hc
  | cons d w =>
    exact ⟨d, w ++ rest, _, rfl, not_isSeparator_of_numeral (hchars d List.mem_cons_self),
      take_of_takeNumeral h⟩

namespace Binary64

open Float.Model.UnpackedFloat

/-- A sum with zero that is not negative has no sign. -/
lemma sign_add_zero {x : Float} (hfinite : (x + 0).isFinite = true) (h : ¬ x + 0 < 0) :
    sign (x + 0) = .positive := by
  change (view (x + 0)).isFinite = true at hfinite
  rw [lt_zero] at h
  push Not at h
  have hzero : view (x + 0) ≠ .zero .negative := by
    cases hx : isZero (view x) with
    | true =>
      rw [view_add]
      cases hu : view x with
      | zero s =>
        have hpositive : view (ofView (add Float.Model.Format.binary64 (.zero s) (view 0)))
            = .zero .positive := by
          cases s <;> rfl
        rw [hpositive]
        exact fun h => nomatch h
      | _ => rw [hu] at hx; cases hx
    | false =>
      rw [add_of_isZero_right hx rfl]
      intro hview
      rw [hview] at hx
      cases hx
  rw [sign]
  cases hu : view (x + 0) with
  | notANumber => rfl
  | infinity s => rw [hu] at hfinite; cases hfinite
  | zero s =>
    cases s with
    | positive => rfl
    | negative => exact absurd hu hzero
  | finite s m e hm =>
    cases s with
    | positive => rfl
    | negative => exact absurd hu (h.2 m e hm)

end Binary64

namespace Substitution

open Text (Spot)

/-! ### What stands for a group -/

/-- What can stand for a fragment: the literal of a value or a fresh name. -/
inductive IsSubstitute : List Char → Prop where
  | literal {c : Context} {v : Value} {text : List Char} (h : literalIn? c v = some text) :
    IsSubstitute text
  | name (c : Context) : IsSubstitute (freshName c).toList

/-- The form of what stands for a fragment: a plain numeral, something in brackets or quotes, or a
word. -/
inductive HasForm : List Char → Prop where
  | numeral {text : List Char} (h : Decimal.IsPlain text) : HasForm text
  | brackets {first last : Char} {inner : List Char} {t : Token}
    (hfirst : Token.isStructural first = true) (hlast : Token.isStructural last = true)
    (hmark : Token.ofChar last = some t)
    (hinner : (Spot.plain.after (first :: inner)).isText = false) :
    HasForm (first :: (inner ++ [last]))
  | text {s : List Char} (h : '"' ∉ s) : HasForm ('"' :: (s ++ ['"']))
  | word {c : Char} {w : List Char} (hc : Token.startsIdentifier c = true)
    (hnumeral : Decimal.isNumeralChar c = false)
    (hw : ∀ d ∈ w, Token.continuesIdentifier d = true) : HasForm (c :: w)

variable {text behind : List Char}

lemma isText_after_literal {v : Value} (h : v.literal? = some text) :
    (Spot.plain.after text).isText = false := by
  have hnumeric := (Value.tame_of_literal? (P := fun _ => false) h .plain trivial).2
  exact (hnumeric.idle (P := fun _ => false)).isText

lemma hasForm_of_brackets {v : Value} {first last : Char} {inner : List Char} {t : Token}
    (h : v.literal? = some (first :: (inner ++ [last]))) (hfirst : Token.isStructural first = true)
    (hlast : Token.isStructural last = true) (hmark : Token.ofChar last = some t) :
    HasForm (first :: (inner ++ [last])) := by
  have hquote : last ≠ '"' := by
    rintro rfl
    cases hmark
  have htext := isText_after_literal h
  rw [← List.cons_append, Spot.after_append, Spot.after_cons, Spot.after_nil, Spot.isText_next,
    if_neg hquote] at htext
  exact .brackets hfirst hlast hmark htext

/-- The form of the literal of a value. -/
lemma hasForm_of_literal? {v : Value} (h : v.literal? = some text) : HasForm text := by
  have hliteral := h
  cases v with
  | scalar z =>
    simp only [Value.literal?, Complex.literal?] at h
    split_ifs at h with hfinite hreal hnegative
    · obtain rfl := Option.some.inj h
      have htext : '(' :: Decimal.write (z.re + 0) ++ '+' :: Decimal.write z.im ++ ['*', 'i', ')']
          = '(' :: (Decimal.write (z.re + 0) ++ '+' :: Decimal.write z.im ++ ['*', 'i'] ++
            [')']) := by
        simp
      rw [htext] at hliteral ⊢
      exact hasForm_of_brackets hliteral rfl rfl rfl
    · obtain rfl := Option.some.inj h
      exact hasForm_of_brackets hliteral rfl rfl rfl
    · obtain rfl := Option.some.inj h
      rw [Bool.not_eq_true', Bool.not_eq_false] at hfinite
      have hre := Binary64.isFinite_add_zero (Bool.and_eq_true_iff.1 hfinite).1
      exact .numeral (Decimal.isPlain_write hre (Binary64.sign_add_zero hre hnegative))
  | realVector xs =>
    obtain ⟨ts, -, rfl⟩ := Option.map_eq_some_iff.1 h
    exact hasForm_of_brackets hliteral rfl rfl rfl
  | complexVector zs =>
    obtain ⟨ts, -, rfl⟩ := Option.map_eq_some_iff.1 h
    exact hasForm_of_brackets hliteral rfl rfl rfl
  | text s =>
    simp only [Value.literal?] at h
    split_ifs at h with hquote
    obtain rfl := Option.some.inj h
    exact .text hquote
  | date m => cases h

lemma IsSubstitute.hasForm (h : IsSubstitute text) : HasForm text := by
  cases h with
  | literal h =>
    simp only [literalIn?] at h
    split_ifs at h
    exact hasForm_of_literal? h
  | name c =>
    obtain ⟨n, hn⟩ := exists_freshName c
    rw [hn]
    obtain ⟨w, hw⟩ : ∃ w, (scratchName n).toList = '_' :: w := ⟨_, toList_scratchName n⟩
    rw [hw]
    refine .word (by decide) (by decide) fun d hd => ?_
    exact continues_of_mem_scratchName (n := n) (by rw [hw]; exact List.mem_cons_of_mem _ hd)

/-- What stands for a fragment can be read. -/
lemma IsSubstitute.exists_scan (h : IsSubstitute text) : ∃ ts, scan text = .ok ts := by
  have hprints {e : Expr} (h : Prints e text) : ∃ ts, scan text = .ok ts := by
    have htokens := h.reads.1.tokenize_eq
    rw [Token.tokenize] at htokens
    cases hscan : scan text with
    | ok ts => exact ⟨ts, rfl⟩
    | error err =>
      rw [hscan] at htokens
      cases htokens
  cases h with
  | literal h =>
    obtain ⟨e, he, -⟩ := exists_of_literalIn? h
    exact hprints he
  | name c =>
    obtain ⟨e, he, -⟩ := exists_of_freshName c (.ofReal 0)
    exact hprints he

/-- A place behind what stands for a fragment is in no text literal. -/
lemma IsSubstitute.isText_after (h : IsSubstitute text) :
    (Spot.plain.after text).isText = false := by
  cases h with
  | literal h =>
    simp only [literalIn?] at h
    split_ifs at h
    exact isText_after_literal h
  | name c =>
    obtain ⟨n, hn⟩ := exists_freshName c
    rw [hn, Spot.isText_after _ fun hmem => ?_]
    · rfl
    · exact absurd (continues_of_mem_scratchName hmem) (by decide)

/-- A parenthesis that belongs to no call is behind no word. -/
lemma not_continues_of_not_isCall {before : List Char} (h : isCall before.reverse = false) :
    ∀ c ∈ before.getLast?, Token.continuesIdentifier c = false := by
  intro c hc
  obtain ⟨front, rfl⟩ := List.getLast?_eq_some_iff.1 hc
  by_contra hcontinues
  rw [Bool.not_eq_false] at hcontinues
  have hblank := Token.not_isBlank_of_continues hcontinues
  simp [isCall, hblank, Piece.isWordChar_of_continues hcontinues] at h

end Substitution

end Reckoner
