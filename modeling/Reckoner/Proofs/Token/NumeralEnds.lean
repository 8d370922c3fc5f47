import Reckoner.Proofs.Call.Sites

/-!
# Where numerals end

A numeral ends where the text behind it does not go on with it. Only the last characters of a text
tell whether a numeral at its end can go on in the next one.
-/

namespace Reckoner

namespace Text

variable {p : Char → Bool} {s b : List Char}

/-- A run of characters ends before its text does, or where the next text starts. -/
def RunEnds (p : Char → Bool) (s b : List Char) : Prop :=
  (∀ c ∈ b.head?, p c = false) ∨ ∃ c ∈ s.getLast?, p c = false

lemma RunEnds.takeWhile_append (h : RunEnds p s b) : (s ++ b).takeWhile p = s.takeWhile p := by
  rcases h with h | ⟨c, hc, hp⟩
  · exact takeWhile_append_of_stop h
  · obtain ⟨front, rfl⟩ := List.getLast?_eq_some_iff.1 hc
    have hstop (t : List Char) : ∀ d ∈ ([c] ++ t).head?, p d = false := by simpa using hp
    have hfront : (front ++ [c]).takeWhile p = front.takeWhile p :=
      takeWhile_append_of_stop (hstop [])
    rw [List.append_assoc, takeWhile_append_of_stop (hstop b), hfront]

lemma RunEnds.dropWhile_append (h : RunEnds p s b) :
    (s ++ b).dropWhile p = s.dropWhile p ++ b := by
  rcases h with h | ⟨c, hc, hp⟩
  · exact dropWhile_append_of_stop h
  · obtain ⟨front, rfl⟩ := List.getLast?_eq_some_iff.1 hc
    have hstop (t : List Char) : ∀ d ∈ ([c] ++ t).head?, p d = false := by simpa using hp
    have hfront : (front ++ [c]).dropWhile p = front.dropWhile p ++ [c] :=
      dropWhile_append_of_stop (hstop [])
    rw [List.append_assoc, dropWhile_append_of_stop (hstop b), hfront,
      List.append_assoc]

/-- Whether a place is in a text literal depends on where the text before it starts only in that. -/
lemma Spot.isText_after_congr {p q : Spot} (h : p.isText = q.isText) (t : List Char) :
    (p.after t).isText = (q.after t).isText := by
  induction t generalizing p q with
  | nil => exact h
  | cons c t ih =>
    rw [after_cons, after_cons]
    exact ih (by rw [isText_next, isText_next, h])

end Text

namespace Decimal

variable {s b : List Char}

/-- Whether a text is the start of an exponent that lacks its digits. -/
def IsOpenExponent (s : List Char) : Prop :=
  ∃ e sign, s = [e, sign] ∧ (e = 'e' ∨ e = 'E') ∧ (sign = '+' ∨ sign = '-')

/-- Whether an exponent at the front of a text does not go on in the next text. -/
inductive ExponentEnds (s b : List Char) : Prop where
  | before (hb : ∀ c ∈ b.head?, isNumeralChar c = false)
  | behind (hs : s ≠ []) (hlast : ∀ c ∈ s.getLast?, continuesNumeral c = false)
    (hb : ∀ c ∈ b.head?, c.isDigit = true → ¬ IsOpenExponent s)

lemma not_isDigit_of_not_continues {c : Char} (h : continuesNumeral c = false) :
    c.isDigit = false := by
  simp only [continuesNumeral, Bool.or_eq_false_iff] at h
  exact h.1.1.1

lemma not_continues_of_not_isNumeralChar {c : Char} (h : isNumeralChar c = false) :
    continuesNumeral c = false := by
  simp only [isNumeralChar, Bool.or_eq_false_iff] at h
  exact h.1.1

lemma takeExponent_of_letter {c : Char} (h : ¬ (c = 'e' ∨ c = 'E')) (tail : List Char) :
    takeExponent (c :: tail) = (0, c :: tail) := by
  simp [takeExponent, h]

lemma exists_takeSign (text : List Char) :
    ∃ mark, text = mark ++ (takeSign text).2 ∧ (mark = [] ∨ mark = ['+'] ∨ mark = ['-']) := by
  cases text with
  | nil => exact ⟨[], rfl, .inl rfl⟩
  | cons c tail =>
    rw [takeSign_cons]
    split_ifs with hplus hminus
    · exact ⟨[c], rfl, .inr (.inl (by rw [hplus]))⟩
    · exact ⟨[c], rfl, .inr (.inr (by rw [hminus]))⟩
    · exact ⟨[], rfl, .inl rfl⟩

lemma ExponentEnds.takeExponent_append (h : ExponentEnds s b) :
    takeExponent (s ++ b) = ((takeExponent s).1, (takeExponent s).2 ++ b) := by
  cases s with
  | nil =>
    cases h with
    | before hb =>
      exact takeExponent_of_stop fun c hc => not_continues_of_not_isNumeralChar (hb c hc)
    | behind hs => exact absurd rfl hs
  | cons c tail =>
    by_cases hletter : c = 'e' ∨ c = 'E'
    · have hsign : takeSign (tail ++ b) = ((takeSign tail).1, (takeSign tail).2 ++ b) := by
        cases tail with
        | nil =>
          cases h with
          | before hb =>
            cases b with
            | nil => rfl
            | cons d b =>
              have hd := hb d rfl
              simp only [isNumeralChar, Bool.or_eq_false_iff, beq_eq_false_iff_ne] at hd
              rw [List.nil_append, takeSign_cons, if_neg hd.1.2, if_neg hd.2]
              rfl
          | behind _ hlast =>
            have := hlast c rfl
            rcases hletter with rfl | rfl <;> cases this
        | cons d tail => exact takeSign_append (by simp) b
      have hends : Text.RunEnds Char.isDigit (takeSign tail).2 b := by
        cases h with
        | before hb =>
          exact .inl fun d hd =>
            not_isDigit_of_not_continues (not_continues_of_not_isNumeralChar (hb d hd))
        | behind _ hlast hb =>
          obtain ⟨mark, hmark, hsigns⟩ := exists_takeSign tail
          cases hrest : (takeSign tail).2.getLast? with
          | some d =>
            refine .inr ⟨d, hrest, not_isDigit_of_not_continues (hlast d ?_)⟩
            rw [hmark, List.getLast?_cons, List.getLast?_append, hrest]
            rfl
          | none =>
            rw [List.getLast?_eq_none_iff.1 hrest, List.append_nil] at hmark
            refine .inl fun d hd => Bool.eq_false_iff.2 fun hdigit => ?_
            rcases hsigns with rfl | rfl | rfl
            · have := hlast c (by rw [hmark]; rfl)
              rcases hletter with rfl | rfl <;> cases this
            · exact hb d hd hdigit ⟨c, '+', by rw [hmark], hletter, .inl rfl⟩
            · exact hb d hd hdigit ⟨c, '-', by rw [hmark], hletter, .inr rfl⟩
      simp only [List.cons_append, takeExponent, hsign, hends.takeWhile_append,
        hends.dropWhile_append]
      split_ifs <;> rfl
    · rw [List.cons_append, takeExponent_of_letter hletter, takeExponent_of_letter hletter]
      rfl

/-- Whether a numeral at the front of a text does not go on in the next text. -/
inductive NumeralEnds (s b : List Char) : Prop where
  | before (hb : ∀ c ∈ b.head?, isNumeralChar c = false)
  | behind (hs : s ≠ []) (hlast : ∀ c ∈ s.getLast?, continuesNumeral c = false)
    (hb : ∀ c ∈ b.head?, c.isDigit = true →
      ∀ n rest, takeNumeral s = some (n, rest) → ¬ IsOpenExponent rest)

lemma takeExponent_of_isOpen (h : IsOpenExponent s) : takeExponent s = (0, s) := by
  obtain ⟨e, sign, rfl, -, rfl | rfl⟩ := h <;> simp [takeExponent, takeSign]

lemma takeNumeral_of_point {tail : List Char} (h : s.dropWhile Char.isDigit = '.' :: tail) :
    takeNumeral s
      = if (s.takeWhile Char.isDigit).isEmpty ∧ (tail.takeWhile Char.isDigit).isEmpty then none
        else
          let (exponent, rest) := takeExponent (tail.dropWhile Char.isDigit)
          some (⟨s.takeWhile Char.isDigit, tail.takeWhile Char.isDigit, exponent⟩, rest) := by
  simp only [takeNumeral, h]

lemma takeNumeral_of_no_point (h : (s.dropWhile Char.isDigit).head? ≠ some '.') :
    takeNumeral s
      = if (s.takeWhile Char.isDigit).isEmpty then none
        else
          let (exponent, rest) := takeExponent (s.dropWhile Char.isDigit)
          some (⟨s.takeWhile Char.isDigit, [], exponent⟩, rest) := by
  simp only [takeNumeral]
  split
  · rename_i htail
    rw [htail] at h
    exact absurd rfl h
  · rfl

/-- Whether a text ends like another one that no numeral ends with. -/
def EndsLike (t s : List Char) : Prop :=
  s ≠ [] → (∀ c ∈ s.getLast?, continuesNumeral c = false) → t.getLast? = s.getLast?

namespace EndsLike

variable {t : List Char}

lemma dropWhile (h : EndsLike t s) : EndsLike (t.dropWhile Char.isDigit) s := by
  intro hs hlast
  have ht := h hs hlast
  obtain ⟨c, hc⟩ : ∃ c, s.getLast? = some c := ⟨_, List.getLast?_eq_some_getLast hs⟩
  rw [hc] at ht ⊢
  obtain ⟨front, rfl⟩ := List.getLast?_eq_some_iff.1 ht
  have hdigit : ∀ d ∈ [c].head?, d.isDigit = false := by
    rintro d ⟨⟩
    exact not_isDigit_of_not_continues (hlast c hc)
  rw [Text.dropWhile_append_of_stop hdigit, List.getLast?_append]
  rfl

lemma tail (h : EndsLike ('.' :: t) s) : EndsLike t s := by
  intro hs hlast
  have ht := h hs hlast
  cases t with
  | nil => exact absurd (hlast '.' ht.symm) (by decide)
  | cons c t => rwa [List.getLast?_cons_cons] at ht

end EndsLike

namespace NumeralEnds

variable {t : List Char}

lemma runEnds (h : NumeralEnds s b) (ht : EndsLike t s) : Text.RunEnds Char.isDigit t b := by
  cases h with
  | before hb =>
    exact .inl fun c hc => not_isDigit_of_not_continues (not_continues_of_not_isNumeralChar
      (hb c hc))
  | behind hs hlast =>
    have hmem := List.getLast?_eq_some_getLast hs
    exact .inr ⟨s.getLast hs, (ht hs hlast).trans hmem, not_isDigit_of_not_continues (hlast _ hmem)⟩

lemma exponentEnds (h : NumeralEnds s b) (ht : EndsLike t s)
    (hread : ∃ n, takeNumeral s = some (n, (takeExponent t).2)) : ExponentEnds t b := by
  cases h with
  | before hb => exact .before hb
  | behind hs hlast hb =>
    have hmem := ht hs hlast
    refine .behind ?_ (fun c hc => hlast c (hmem ▸ hc)) fun c hc hdigit hopen => ?_
    · rintro rfl
      exact hs (List.getLast?_eq_none_iff.1 hmem.symm)
    · obtain ⟨n, hread⟩ := hread
      rw [takeExponent_of_isOpen hopen] at hread
      exact hb c hc hdigit n _ hread hopen

/-- A numeral is read as it is before a text in which it does not go on, and none where there is
none. -/
lemma takeNumeral_append (h : NumeralEnds s b) :
    takeNumeral (s ++ b) = (takeNumeral s).map fun (n, rest) => (n, rest ++ b) := by
  have hwhole := h.runEnds (t := s) fun _ _ => rfl
  have hrest : EndsLike (s.dropWhile Char.isDigit) s := EndsLike.dropWhile fun _ _ => rfl
  by_cases hpoint : (s.dropWhile Char.isDigit).head? = some '.'
  · obtain ⟨tail, htail⟩ := List.head?_eq_some_iff.1 hpoint
    have hdrop : (s ++ b).dropWhile Char.isDigit = '.' :: (tail ++ b) := by
      rw [hwhole.dropWhile_append, htail]
      rfl
    rw [htail] at hrest
    have hfraction := h.runEnds hrest.tail
    rw [takeNumeral_of_point hdrop, takeNumeral_of_point htail, hwhole.takeWhile_append,
      hfraction.takeWhile_append, hfraction.dropWhile_append]
    split_ifs with hempty
    · rfl
    · have hexponent := h.exponentEnds hrest.tail.dropWhile
        ⟨_, by rw [takeNumeral_of_point htail, if_neg hempty]⟩
      rw [hexponent.takeExponent_append]
      rfl
  · have hdrop : ((s ++ b).dropWhile Char.isDigit).head? ≠ some '.' := by
      rw [hwhole.dropWhile_append]
      cases hs : s.dropWhile Char.isDigit with
      | nil =>
        rw [hs] at hrest
        rw [List.nil_append]
        cases h with
        | before hb => exact fun hb' => absurd (hb '.' hb') (by decide)
        | behind hne hlast => exact absurd (List.getLast?_eq_none_iff.1 (hrest hne hlast).symm) hne
      | cons c tail =>
        rw [hs] at hpoint
        exact hpoint
    rw [takeNumeral_of_no_point hdrop, takeNumeral_of_no_point hpoint, hwhole.takeWhile_append,
      hwhole.dropWhile_append]
    split_ifs with hempty
    · rfl
    · have hexponent := h.exponentEnds hrest
        ⟨_, by rw [takeNumeral_of_no_point hpoint, if_neg hempty]⟩
      rw [hexponent.takeExponent_append]
      rfl

end NumeralEnds

end Decimal

end Reckoner
