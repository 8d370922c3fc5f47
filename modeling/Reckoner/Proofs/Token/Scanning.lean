import Reckoner.Proofs.Call.Programs
import Reckoner.Proofs.Token.NumeralEnds

/-!
# Reading a text behind another one

The tokens of two texts in a row are those of the first and then those of the second, unless a token
at the end of the first goes on in the second. It does not go on with a bracket, a divider or a
quote, nor with a word or number behind a character that no word and no numeral ends with; only a
number may still be taken for the exponent of a numeral, and a minus sign for that of an exponent.
-/

namespace Reckoner

namespace Token

variable {s b rest : List Char} {t : Token}

/-- Whether a text ends with a numeral, an `e` and a sign, so that a digit behind it would be read
as an exponent. -/
inductive EndsOpen : List Char → Prop where
  | exponent {text rest : List Char} {n : Decimal.Numeral}
    (hread : Decimal.takeNumeral text = some (n, rest)) (h : Decimal.IsOpenExponent rest) :
    EndsOpen text
  | gap {c : Char} {rest : List Char} (hc : isSeparator c = true) (h : EndsOpen rest) :
    EndsOpen (c :: rest)
  | token {text rest : List Char} {t : Token} (htake : Takes text t rest) (h : EndsOpen rest) :
    EndsOpen text

/-- Whether the tokens of a text do not go on in the next text: that one starts with a bracket, a
divider or a quote, or it starts like a word or a number behind a character that no word and no
numeral ends with, or with a minus sign behind a character that no numeral goes on with. -/
inductive Parted (s b : List Char) : Prop where
  | stop (hb : ∀ c ∈ b.head?, isStructural c = true)
  | word (hs : ∀ c ∈ s.getLast?, continuesIdentifier c = false)
    (hb : ∀ c ∈ b.head?, continuesIdentifier c = true)
    (hnumeral : ∀ c ∈ b.head?, Decimal.isNumeralChar c = true →
      s.getLast? ≠ some '.' ∧ (c.isDigit = true → ¬ EndsOpen s))
  | minus (hs : ∀ c ∈ s.getLast?, Decimal.continuesNumeral c = false) (hb : b.head? = some '-')

lemma not_continuesNumeral_of_not_continues {c : Char} (h : continuesIdentifier c = false)
    (hpoint : c ≠ '.') : Decimal.continuesNumeral c = false := by
  simp only [Decimal.continuesNumeral, Bool.or_eq_false_iff, beq_eq_false_iff_ne]
  refine ⟨⟨⟨Bool.eq_false_iff.2 fun hdigit => ?_, hpoint⟩, ?_⟩, ?_⟩
  · rw [continuesIdentifier_of_isDigit hdigit] at h
    cases h
  · rintro rfl
    exact absurd h (by decide)
  · rintro rfl
    exact absurd h (by decide)

lemma not_isNumeralChar_of_structural {c : Char} (h : isStructural c = true) :
    Decimal.isNumeralChar c = false := by
  by_contra hnumeral
  rw [Bool.not_eq_false] at hnumeral
  rw [not_isStructural_of_numeral hnumeral] at h
  cases h

namespace Parted

/-- No mark goes on in the next text. -/
lemma ofPair_eq_none (h : Parted s b) {c d : Char} (hd : d ∈ b.head?) : ofPair c d = none := by
  refine Option.eq_none_iff_forall_ne_some.2 fun t hpair => ?_
  cases h with
  | stop hb =>
    rcases eq_of_isStructural (hb d hd) with rfl | rfl | rfl | rfl | rfl | rfl | rfl | rfl <;>
      unfold ofPair at hpair <;> split at hpair <;> simp_all
  | word _ hb =>
    have hword := Piece.isWordChar_of_continues (hb d hd)
    exact Name.ne_of_isWordChar hword (mem_marks_of_ofPair hpair).2 rfl
  | minus _ hb =>
    obtain rfl : d = '-' := Option.some.inj (hd.symm.trans hb)
    unfold ofPair at hpair
    split at hpair <;> simp_all

lemma numeralEnds (h : Parted s b) (hs : s ≠ []) : Decimal.NumeralEnds s b := by
  cases h with
  | stop hb => exact .before fun c hc => not_isNumeralChar_of_structural (hb c hc)
  | word hlast _ hnumeral =>
    by_cases hb : ∀ c ∈ b.head?, Decimal.isNumeralChar c = false
    · exact .before hb
    · push Not at hb
      obtain ⟨d, hd, hb⟩ := hb
      obtain ⟨hpoint, hopen⟩ := hnumeral d hd (Bool.eq_true_of_not_eq_false hb)
      refine .behind hs (fun c hc => ?_) fun c hc hdigit n rest hread h => ?_
      · refine not_continuesNumeral_of_not_continues (hlast c hc) ?_
        rintro rfl
        exact hpoint hc
      · obtain rfl := Option.mem_unique hc hd
        exact hopen hdigit (.exponent hread h)
  | minus hlast hb =>
    refine .behind hs hlast fun c hc hdigit => ?_
    obtain rfl : c = '-' := Option.some.inj (hc.symm.trans hb)
    cases hdigit

/-- A part of a text at its end is parted from the next text, too. -/
lemma of_suffix {s' : List Char} (h : Parted s b) (hsuffix : s' <:+ s)
    (hopen : EndsOpen s' → EndsOpen s) : Parted s' b := by
  have hlast : ∀ c ∈ s'.getLast?, c ∈ s.getLast? := by
    intro c hc
    obtain ⟨front, rfl⟩ := hsuffix
    rw [List.getLast?_append, Option.mem_def.1 hc]
    rfl
  cases h with
  | stop hb => exact .stop hb
  | word hs hb hnumeral =>
    refine .word (fun c hc => hs c (hlast c hc)) hb fun c hc h => ?_
    obtain ⟨hpoint, hdigit⟩ := hnumeral c hc h
    exact ⟨fun h => hpoint (hlast _ h), fun hc h => hdigit hc (hopen h)⟩
  | minus hs hb => exact .minus (fun c hc => hs c (hlast c hc)) hb

/-- A token that takes a text to its end does not go on in the next one. -/
lemma goesOn_eq_false (h : Parted s b) (hspells : Spells s t)
    (hnumeral : Decimal.takeNumeral s = none) : ∀ d ∈ b.head?, goesOn s d = false := by
  intro d hd
  cases hspells with
  | number hn =>
    rw [hnumeral] at hn
    cases hn
  | text => rfl
  | @word c w hc hw =>
    rw [goesOn_word hc]
    cases h with
    | stop hb =>
      by_contra hcontinues
      have hplain := not_isStructural_of_continues (Bool.eq_true_of_not_eq_false hcontinues)
      rw [hb d hd] at hplain
      cases hplain
    | word hlast =>
      have hmem := List.getLast?_eq_some_getLast (List.cons_ne_nil c w)
      have hcontinues : continuesIdentifier ((c :: w).getLast (List.cons_ne_nil c w)) = true :=
        (List.mem_cons.1 (List.getLast_mem _)).elim
          (fun h => h ▸ continuesIdentifier_of_starts hc) (hw _)
      rw [hlast _ hmem] at hcontinues
      cases hcontinues
    | minus _ hb =>
      obtain rfl : d = '-' := Option.some.inj (hd.symm.trans hb)
      rfl
  | pair hp => exact goesOn_pair hp d
  | mark hm =>
    rw [goesOn_mark hm, h.ofPair_eq_none hd]
    rfl

end Parted

lemma Spells.isText_after_spelling (h : Spells s t) :
    (Text.Spot.plain.after s).isText = Text.Spot.plain.isText :=
  Piece.isText_after_text ⟨[], s, t, Piece.isSeparator_of_mem_nil, h⟩ rfl

lemma Takes.exists_prefix (h : Takes s t rest) : ∃ w, s = w ++ rest ∧ Spells w t := by
  obtain ⟨c, tail, hlt, rfl, -, htake⟩ := h
  obtain ⟨w, hw, hspells, -⟩ := spells_of_take htake
  exact ⟨w, hw, hspells⟩

/-- A token at the front of a text is read there before another text, too. -/
lemma Takes.append (h : Takes s t rest) (hparted : Parted s b) : Takes (s ++ b) t (rest ++ b) := by
  obtain ⟨c, tail, hlt, rfl, hseparator, htake⟩ := h
  cases hn : Decimal.takeNumeral (c :: tail) with
  | some read =>
    obtain ⟨n, rest'⟩ := read
    rw [take_of_takeNumeral hn] at htake
    cases htake
    have happend := (hparted.numeralEnds (by simp)).takeNumeral_append
    rw [hn] at happend
    exact ⟨c, tail ++ b, _, rfl, hseparator, take_of_takeNumeral happend⟩
  | none =>
    obtain ⟨w, hw, hspells, hstop⟩ := spells_of_not_numeral hn htake
    rw [hw, List.append_assoc]
    refine .of_spells hspells ?_
    cases rest with
    | nil =>
      rw [List.append_nil] at hw
      rw [hw] at hparted hn
      exact hparted.goesOn_eq_false hspells hn
    | cons d rest => exact hstop

lemma takeMark_eq_error_iff {c : Char} {tail : List Char} {err : ParseError} :
    takeMark c tail = .error err
      ↔ (∀ d ∈ tail.head?, ofPair c d = none) ∧ ofChar c = none
        ∧ err = .unrecognizedToken (String.singleton c) := by
  cases tail with
  | nil => cases hmark : ofChar c <;> simp [takeMark, hmark, eq_comm]
  | cons d tail =>
    cases hpair : ofPair c d <;> cases hmark : ofChar c <;> simp [takeMark, hpair, hmark, eq_comm]

/-- What cannot be read at the front of a text cannot be read there before another text, either. -/
lemma take_error_append {c : Char} {tail : List Char} {err : ParseError}
    (h : take c tail = .error err) (hparted : Parted (c :: tail) b)
    (hs : (Text.Spot.plain.after (c :: tail)).isText = false) :
      take c (tail ++ b) = .error err := by
  have hn : Decimal.takeNumeral (c :: tail) = none := by
    cases hn : Decimal.takeNumeral (c :: tail) with
    | none => rfl
    | some read =>
      rw [take_of_takeNumeral hn] at h
      cases h
  have happend : Decimal.takeNumeral (c :: (tail ++ b)) = none := by
    rw [← List.cons_append, (hparted.numeralEnds (by simp)).takeNumeral_append, hn]
    rfl
  rw [take_of_not_numeral hn] at h
  rw [take_of_not_numeral happend]
  split_ifs at h with hquote hstart
  · -- A text literal that has no end would reach to the end of the text.
    subst hquote
    have hquotes : '"' ∉ tail := by
      unfold takeText at h
      split at h
      · rename_i hdrop
        intro hmem
        simpa using List.dropWhile_eq_nil_iff.1 hdrop '"' hmem
      · cases h
    rw [Text.Spot.after_cons, Text.Spot.isText_after _ hquotes] at hs
    cases hs
  · rw [if_neg hquote, if_neg hstart]
    obtain ⟨hpair, hmark, rfl⟩ := takeMark_eq_error_iff.1 h
    refine takeMark_eq_error_iff.2 ⟨fun d hd => ?_, hmark, rfl⟩
    cases tail with
    | nil => exact hparted.ofPair_eq_none hd
    | cons e tail => exact hpair d hd

/-- The tokens of two texts in a row. -/
lemma Parted.scan_append (h : Parted s b) (hs : (Text.Spot.plain.after s).isText = false) :
    scan (s ++ b) = do
      let ts ← scan s
      let us ← scan b
      return ts ++ us := by
  induction hn : s.length using Nat.strong_induction_on generalizing s with
  | _ n ih =>
  subst hn
  cases s with
  | nil =>
    rw [List.nil_append, scan]
    cases scan b <;> rfl
  | cons c tail =>
    by_cases hc : isSeparator c = true
    · rw [List.cons_append, scan, if_pos hc, scan, if_pos hc]
      refine ih tail.length (by simp) (h.of_suffix (List.suffix_cons c tail) (.gap hc)) ?_ rfl
      have hquote : c ≠ '"' := by
        rintro rfl
        exact absurd hc (by decide)
      exact (Text.Spot.isText_after_congr (by rw [Text.Spot.isText_next, if_neg hquote])
        tail).symm.trans hs
    · cases htake : take c tail with
      | error err =>
        rw [List.cons_append, scan, if_neg hc, take_error_append htake h hs, scan, if_neg hc, htake]
        rfl
      | ok taken =>
        obtain ⟨t, rest, hlt⟩ := taken
        have htakes : Takes (c :: tail) t rest := ⟨c, tail, hlt, rfl, by simpa using hc, htake⟩
        obtain ⟨w, hw, hspells⟩ := htakes.exists_prefix
        have hplain : (Text.Spot.plain.after rest).isText = false := by
          rw [hw, Text.Spot.after_append, Text.Spot.isText_after_congr
            hspells.isText_after_spelling] at hs
          exact hs
        have hrest := ih rest.length hlt (h.of_suffix ⟨w, hw.symm⟩ (.token htakes)) hplain rfl
        rw [(htakes.append h).scan_eq, htakes.scan_eq, hrest]
        cases scan rest with
        | error err => rfl
        | ok us => cases scan b <;> rfl

/-- A bracket or divider parts a text. -/
lemma scan_append_mark {c : Char} (hc : isStructural c = true) (hmark : ofChar c = some t)
    (hs : (Text.Spot.plain.after s).isText = false) (b : List Char) :
    scan (s ++ c :: b) = do
      let ts ← scan s
      let us ← scan b
      return ts ++ t :: us := by
  have hpair : ∀ d ∈ b.head?, ofPair c d = none := by
    intro d _
    rcases eq_of_isStructural hc with rfl | rfl | rfl | rfl | rfl | rfl | rfl | rfl <;> rfl
  have hstop : Parted s (c :: b) := by
    refine .stop ?_
    rintro d ⟨⟩
    exact hc
  rw [hstop.scan_append hs, (Takes.mark hmark hpair).scan_eq]
  cases scan b <;> rfl

end Token

end Reckoner
