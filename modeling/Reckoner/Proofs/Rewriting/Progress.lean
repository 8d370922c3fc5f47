import Reckoner.Proofs.Rewriting.Relation
import Reckoner.Proofs.Statement.Names

/-!
# The way of a pass over a text

A pass over a text has a part of it behind and a part before it. It is told by its progress from one
place to the next, and by what it may find at its place: no word that goes on from the text behind.
-/

namespace Reckoner

open Piece (texts Apart Adjoins)

/-! ### Words right before a piece -/

namespace Piece

open Substitution

variable {p : Piece}

/-- A word is read as one. -/
lemma token_of_isWord (h : p.isWord = true) : p.token = Token.ofWord p.spelling
    ∧ ∀ ch ∈ p.spelling, Token.continuesIdentifier ch = true := by
  have hnumber := isNumber_of_isWord h
  unfold isWord at h
  have hspells := p.spells
  generalize p.token = t at hspells hnumber
  generalize p.spelling = w at hspells h ⊢
  cases hspells with
  | number => cases hnumber
  | text => cases h
  | word hc hw => exact ⟨rfl, List.forall_mem_cons.2 ⟨Token.continuesIdentifier_of_starts hc, hw⟩⟩
  | pair hp =>
    rw [List.head?_cons, Option.any_some, (Token.isFirst_of_ofPair hp).2] at h
    cases h
  | mark hm =>
    rw [List.head?_cons, Option.any_some, (Token.isFirst_of_ofChar hm).2] at h
    cases h

lemma isWord_of_identifier {name : String} (h : p.token = .identifier name) : p.isWord = true := by
  obtain ⟨-, ⟨ch, hch, hstarts⟩, -⟩ := spelling_of_identifier h
  rw [isWord, hch, Option.any_some, hstarts]

/-- A word is an operator or a name. -/
lemma token_cases_of_isWord (h : p.isWord = true) :
    p.token = .binary .and ∨ p.token = .binary .or ∨ p.token = .bang
      ∨ ∃ name, p.token = .identifier name := by
  rw [(token_of_isWord h).1]
  rcases Token.ofWord_cases p.spelling with hword | hword | hword | hword
  · exact .inl hword
  · exact .inr (.inl hword)
  · exact .inr (.inr (.inl hword))
  · exact .inr (.inr (.inr ⟨_, hword⟩))

lemma not_isWord_of_structural {d : Char} (h : p.token.structuralChar? = some d) :
    p.isWord = false := by
  refine Bool.eq_false_iff.2 fun hword => ?_
  rcases token_cases_of_isWord hword with hp | hp | hp | ⟨name, hp⟩ <;> (rw [hp] at h; cases h)

/-- A word makes a parenthesis behind it that of a call. -/
lemma isCall_of_isWord (h : p.isWord = true) (before : List Char) :
    isCall (p.text.reverse ++ before) = true := by
  obtain ⟨w, ch, hspelling⟩ := List.eq_nil_or_concat p.spelling |>.resolve_left p.spelling_ne_nil
  have hch : Token.continuesIdentifier ch = true := (token_of_isWord h).2 ch (by simp [hspelling])
  have hblank : ¬ Text.isBlank ch = true := by simp [Token.not_isBlank_of_continues hch]
  simp [isCall, text, hspelling, List.dropWhile_cons_of_neg hblank, isWordChar_of_continues hch]

/-- Only words and numbers do so. -/
lemma isCall_of_not_isWord (h : p.isWord = false) (hnumber : p.token.isNumber = false)
    (before : List Char) : isCall (p.text.reverse ++ before) = false := by
  obtain ⟨w, ch, hspelling, hmark⟩ : ∃ w ch, p.spelling = w ++ [ch] ∧ ch ∈ Name.marks := by
    have hspells := p.spells
    unfold isWord at h
    generalize p.token = t at hspells hnumber
    generalize p.spelling = w at hspells h
    cases hspells with
    | number => cases hnumber
    | @text s _ => exact ⟨'"' :: s, '"', rfl, by simp [Name.marks]⟩
    | word hc =>
      rw [List.head?_cons, Option.any_some, hc] at h
      cases h
    | @pair c d _ hp => exact ⟨[c], d, rfl, (Token.mem_marks_of_ofPair hp).2⟩
    | @mark c _ hm => exact ⟨[], c, rfl, Token.mem_marks_of_ofChar hm⟩
  have hblank : ∀ ch ∈ Name.marks, Text.isBlank ch = false := List.all_iff_forall_prop.1 (by decide)
  simp [isCall, text, hspelling, List.dropWhile_cons_of_neg, hblank ch hmark,
    Name.not_isWordChar_of_mem_marks ch hmark]

end Piece

/-! ### Progress -/

/-- Whether a piece can stand right before another one, and keeps apart from it. -/
def Piece.Near (p q : Piece) : Prop :=
  p.Adjoins q ∧ p.Apart q

/-- How far a pass has come: its stage, the text that it leaves behind, and how many calls it may
still look at. -/
structure Progress extends Stage where
  passed : List Char
  fuel : Nat

namespace Progress

/-- The progress behind pieces that stay. -/
def pass (s : Progress) (ps : List Piece) : Progress :=
  { s with passed := s.passed ++ texts ps }

/-- Whether a word is right before what comes next. -/
def behindWord (s : Progress) : Bool :=
  Substitution.isCall s.passed.reverse

variable (s : Progress) (ps qs : List Piece)

@[simp] lemma toStage_pass : (s.pass ps).toStage = s.toStage :=
  rfl

@[simp] lemma fuel_pass : (s.pass ps).fuel = s.fuel :=
  rfl

lemma pass_append : s.pass (ps ++ qs) = (s.pass ps).pass qs := by
  simp [pass]

lemma reverse_passed (p : Piece) :
    (s.pass [p]).passed.reverse = p.text.reverse ++ s.passed.reverse := by
  simp [pass]

lemma behindWord_pass {p : Piece} (hp : p.token.isNumber = false) :
    (s.pass [p]).behindWord = p.isWord := by
  rw [behindWord, reverse_passed]
  cases hword : p.isWord with
  | true => exact Piece.isCall_of_isWord hword _
  | false => exact Piece.isCall_of_not_isWord hword hp _

lemma behindWord_pass_of_structural {p : Piece} {d : Char} (hp : p.token.structuralChar? = some d) :
    (s.pass [p]).behindWord = false := by
  rw [behindWord_pass, Piece.not_isWord_of_structural hp]
  generalize p.token = t at hp
  cases t <;> first | rfl | cases hp

/-- No word is right before the operand of a minus sign. -/
lemma behindWord_pass_of_sign {p : Piece} (hp : p.token = .binary .sub) :
    (s.pass [p]).behindWord = false := by
  rw [behindWord_pass s (by rw [hp]; rfl)]
  refine Bool.eq_false_iff.2 fun hword => ?_
  rcases Piece.token_cases_of_isWord hword with h | h | h | ⟨name, h⟩ <;> (rw [hp] at h; cases h)

/-- A word is right before the right operand of an operator only if the operator can be written as
one. -/
lemma isWord_of_behindWord {op : BinaryOperator} {os : List Piece} (h : OperatorForms op os)
    (hbehind : (s.pass os).behindWord = true) : op.isWord = true := by
  cases h with
  | @single _ p hp =>
    rw [behindWord_pass _ (by rw [hp]; rfl)] at hbehind
    rcases Piece.token_cases_of_isWord hbehind with h | h | h | ⟨name, h⟩ <;> rw [hp] at h <;>
      cases h <;> rfl
  | @double p q hp hq =>
    have hpass : s.pass [p, q] = (s.pass [p]).pass [q] := s.pass_append [p] [q]
    rw [hpass, behindWord_pass _ (by rw [hq]; rfl)] at hbehind
    rcases Piece.token_cases_of_isWord hbehind with h | h | h | ⟨name, h⟩ <;>
      (rw [hq] at h; cases h)

end Progress

end Reckoner
