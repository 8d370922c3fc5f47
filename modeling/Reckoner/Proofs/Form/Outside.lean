import Reckoner.Name
import Reckoner.Proofs.Form.Nesting
import Reckoner.Proofs.Form.Tokens

/-!
# Text literals in the text of an expression

A piece is a text literal or has no quotation mark, so that what is outside of text literals can be
told from the pieces. In particular a question mark there is that of a conditional.
-/

namespace Reckoner

namespace Text

/-- Whether no closing parenthesis outside text literals is right before a word. -/
def Unglued (text : List Char) : Prop :=
  (outside text).IsChain fun a b => a = ')' → Name.isWordChar b = false

instance (text : List Char) : Decidable (Unglued text) :=
  inferInstanceAs (Decidable (List.IsChain _ _))

lemma outside_append_of_not_mem {s : List Char} (hs : '"' ∉ s) (t : List Char) :
    outside (s ++ t) = s ++ outside t := by
  induction s with
  | nil => rfl
  | cons c s ih =>
    rw [List.mem_cons, not_or] at hs
    have ih' := ih hs.2
    simp only [outside] at *
    simp [outsideFrom, Ne.symm hs.1, ih']

lemma outsideFrom_in_text {s : List Char} (hs : '"' ∉ s) (t : List Char) :
    outsideFrom true (s ++ '"' :: t) = outside t := by
  induction s with
  | nil => rfl
  | cons c s ih =>
    rw [List.mem_cons, not_or] at hs
    simp [outsideFrom, Ne.symm hs.1, ih hs.2]

end Text

namespace Piece

open Text (outside)

lemma quote_not_mem_gap (p : Piece) : '"' ∉ p.gap :=
  fun h => absurd (p.isSeparator_of_mem_gap _ h) (by decide)

lemma quote_not_mem_text {p : Piece} (h : p.token.isText = false) : '"' ∉ p.text := by
  intro hmem
  rcases List.mem_append.1 hmem with hmem | hmem
  · exact p.quote_not_mem_gap hmem
  cases hc : p.token.structuralChar? with
  | some c =>
    rw [p.spells.eq_structural hc, List.mem_singleton] at hmem
    subst hmem
    cases ht : p.token <;> rw [ht] at hc <;> cases hc
  | none => exact absurd (p.spells.not_isStructural hc h _ hmem) (by decide)

/-- What stands outside text literals in the text of a piece: all of it or, if it is a literal, the
gap before it. -/
lemma outside_text (p : Piece) : outside p.text = if p.token.isText then p.gap else p.text := by
  split_ifs with h
  · cases ht : p.token with
    | text s =>
      have hspells := p.spells
      rw [ht] at hspells
      obtain ⟨hw, hquote⟩ := hspells.text_eq
      rw [text, hw, Text.outside_append_of_not_mem p.quote_not_mem_gap]
      simp only [outside, Text.outsideFrom, if_true, Bool.not_false,
        Text.outsideFrom_in_text hquote, List.append_nil]
    | _ => rw [ht] at h; cases h
  · simpa [outside, Text.outsideFrom] using
      Text.outside_append_of_not_mem (quote_not_mem_text (Bool.eq_false_iff.2 h)) []

lemma outside_append (p : Piece) (t : List Char) :
    outside (p.text ++ t) = outside p.text ++ outside t := by
  rw [outside_text]
  split_ifs with h
  · cases ht : p.token with
    | text s =>
      have hspells := p.spells
      rw [ht] at hspells
      obtain ⟨hw, hquote⟩ := hspells.text_eq
      rw [text, hw, List.append_assoc, Text.outside_append_of_not_mem p.quote_not_mem_gap,
        List.cons_append, List.append_assoc]
      simp only [outside, Text.outsideFrom, if_true, Bool.not_false, List.cons_append,
        List.nil_append, Text.outsideFrom_in_text hquote]
    | _ => rw [ht] at h; cases h
  · exact Text.outside_append_of_not_mem (quote_not_mem_text (Bool.eq_false_iff.2 h)) t

lemma outside_texts_append (ps : List Piece) (t : List Char) :
    outside (texts ps ++ t) = (ps.flatMap fun p => outside p.text) ++ outside t := by
  induction ps with
  | nil => rfl
  | cons p ps ih => rw [texts_cons, List.append_assoc, outside_append, ih]; simp

/-- A question mark outside text literals is a piece of its own. -/
lemma exists_of_question_mem {ps : List Piece} {gap : List Char}
    (hgap : ∀ c ∈ gap, Token.isSeparator c = true) (h : '?' ∈ outside (texts ps ++ gap)) :
    ∃ p ∈ ps, p.token = .question := by
  have hgap' : '?' ∉ gap := fun hmem => absurd (hgap _ hmem) (by decide)
  have hquote : '"' ∉ gap := fun hmem => absurd (hgap _ hmem) (by decide)
  have hrest : outside gap = gap := by
    simpa [outside, Text.outsideFrom] using Text.outside_append_of_not_mem hquote []
  rw [outside_texts_append, hrest, List.mem_append, List.mem_flatMap] at h
  obtain ⟨p, hp, hmem⟩ := h.resolve_right hgap'
  refine ⟨p, hp, ?_⟩
  rw [outside_text] at hmem
  split_ifs at hmem with htext
  · exact absurd (p.isSeparator_of_mem_gap _ hmem) (by decide)
  rcases List.mem_append.1 hmem with hmem | hmem
  · exact absurd (p.isSeparator_of_mem_gap _ hmem) (by decide)
  cases hc : p.token.structuralChar? with
  | some c =>
    rw [p.spells.eq_structural hc, List.mem_singleton] at hmem
    subst hmem
    cases ht : p.token <;> rw [ht] at hc <;> first | rfl | cases hc
  | none =>
    have hplain := p.spells.not_isStructural hc (Bool.eq_false_iff.2 htext) _ hmem
    exact absurd hplain (by decide)

lemma isWordChar_of_continues {c : Char} (h : Token.continuesIdentifier c = true) :
    Name.isWordChar c = true := by
  simp only [Token.continuesIdentifier, Bool.or_eq_true, Bool.and_eq_true, beq_iff_eq] at h
  rcases h with ⟨hletter | hnumeric, -⟩ | rfl
  · simp [Name.isWordChar, Text.isAlphanumeric, Text.isAlphabetic, hletter]
  · simp [Name.isWordChar, Text.isAlphanumeric, hnumeric]
  · rfl

lemma not_continues_of_not_isWordChar {c : Char} (h : Name.isWordChar c = false) :
    Token.continuesIdentifier c = false := by
  by_contra hcontinues
  rw [Bool.not_eq_false] at hcontinues
  rw [isWordChar_of_continues hcontinues] at h
  cases h

lemma isNumber_of_isWord {p : Piece} (h : p.isWord = true) : p.token.isNumber = false := by
  obtain ⟨c, hc, hstarts⟩ := (Option.any_eq_true _ _).1 h
  have hfirst := Token.isFirst_of_startsIdentifier hstarts
  have hspells := p.spells
  generalize p.token = t at hspells ⊢
  generalize p.spelling = w at hspells hc
  cases hspells with
  | number hn =>
    obtain ⟨w, hw, -, ⟨d, hd, hdigit⟩, -⟩ := Decimal.exists_of_takeNumeral hn
    rw [List.append_nil] at hw
    rw [hw, hd] at hc
    cases hc
    rcases hdigit with hdigit | rfl
    · rw [hfirst.digit] at hdigit
      cases hdigit
    · exact absurd rfl hfirst.point
  | text hs => rfl
  | word hc hw =>
    simp only [Token.ofWord]
    split_ifs <;> rfl
  | pair hp =>
    unfold Token.ofPair at hp
    split at hp <;> cases hp <;> rfl
  | mark hm =>
    unfold Token.ofChar at hm
    split at hm <;> cases hm <;> rfl

/-- In a text that has been read, no piece of an expression goes on in the next one. For a number
that is so since what stands behind an operand cannot go on with it. -/
lemma isChain_endsBefore {e : Expr} {ps : List Piece} (h : Forms e ps) (hps : Forms.Separate ps) :
    ps.IsChain EndsBefore := by
  refine isChain_of_isChain h.adjoins hps fun p q hadjoins hseparate => ?_
  cases hnumber : p.token.isNumber with
  | false => exact hseparate hnumber
  | true =>
    refine hadjoins.endsBefore ?_
    rintro (hword | hclose)
    · rw [isNumber_of_isWord hword] at hnumber
      cases hnumber
    · rw [hclose] at hnumber
      cases hnumber

/-- The pieces of a text keep apart if none of them runs into the next one and no closing
parenthesis is right before a word. -/
lemma isChain_apart {ps : List Piece} (hps : Forms.Separate ps) {gap : List Char}
    (hunglued : Text.Unglued (texts ps ++ gap)) : ps.IsChain Apart := by
  have hpairs := List.isChain_iff_forall_rel_of_append_cons_cons.1 hps
  refine List.isChain_iff_forall_rel_of_append_cons_cons.2 ?_
  intro p q front tail hsplit hp c hc
  by_contra hcontinues
  rw [Bool.not_eq_false] at hcontinues
  rcases hp with hword | hclose
  · have hnumber := isNumber_of_isWord hword
    have hends := hpairs hsplit hnumber c hc
    obtain ⟨d, hd, hstarts⟩ := (Option.any_eq_true _ _).1 hword
    obtain ⟨w, hw⟩ := List.head?_eq_some_iff.1 hd
    rw [hw, Token.goesOn_word hstarts, hcontinues] at hends
    cases hends
  · obtain ⟨w, hw⟩ := List.head?_eq_some_iff.1 hc
    have hquote : c ≠ '"' := by
      rintro rfl
      exact absurd hcontinues (by decide)
    have hp : outside p.text = p.gap ++ [')'] := by
      rw [outside_text, hclose]
      exact text_of_structural (by rw [hclose]; rfl)
    have hq : ∃ w', outside q.text = c :: w' := by
      rw [hw]
      exact ⟨Text.outsideFrom false w, by simp [outside, Text.outsideFrom, hquote]⟩
    obtain ⟨w', hq⟩ := hq
    have hinfix : [')', c] <:+: outside (texts ps ++ gap) := by
      rw [hsplit, outside_texts_append]
      refine ⟨front.flatMap (fun p => outside p.text) ++ p.gap,
        w' ++ (tail.flatMap (fun p => outside p.text) ++ outside gap), ?_⟩
      simp [hp, hq]
    have hpair := List.IsChain.infix hunglued hinfix
    have hword := List.isChain_pair.1 hpair rfl
    rw [isWordChar_of_continues hcontinues] at hword
    cases hword

end Piece

end Reckoner
