import Reckoner.Proofs.Form.Basic
import Reckoner.Proofs.Text.Balance

/-!
# Brackets and conditionals in the text of an expression

Some decisions about an expression are made on its text. On a text that is a form of an expression
they agree with its tree: brackets are balanced, a text is a conditional outside all brackets
exactly if the tree is one, and the commas outside all brackets of a list separate its elements.
-/

namespace Reckoner

namespace Piece

open Text (Balanced tops)

variable {p q : Piece}

lemma text_of_structural {c : Char} (h : p.token.structuralChar? = some c) :
    p.text = p.gap ++ [c] := by
  rw [text, p.spells.eq_structural h]

lemma not_mem_of_not_isStructural {c : Char} (h : Token.isStructural c = false) :
    c ∉ ['"', '(', ')', '[', ']'] := by
  intro hc
  simp only [List.mem_cons, List.not_mem_nil, or_false] at hc
  rcases hc with rfl | rfl | rfl | rfl | rfl <;> cases h

lemma balanced_of_separators {gap : List Char} (h : ∀ c ∈ gap, Token.isSeparator c = true) :
    Balanced gap :=
  .of_forall fun c hc => not_mem_of_not_isStructural (Token.not_isStructural_of_separator (h c hc))

lemma balanced_gap (p : Piece) : Balanced p.gap :=
  balanced_of_separators p.isSeparator_of_mem_gap

/-- A piece that is not a bracket is balanced. -/
lemma balanced_text (h : ∀ c ∈ p.token.structuralChar?, c ∉ ['(', ')', '[', ']']) :
    Balanced p.text := by
  refine p.balanced_gap.append ?_
  cases hc : p.token.structuralChar? with
  | some c =>
    rw [p.spells.eq_structural hc]
    refine .of_forall ?_
    have hbracket := h c hc
    cases ht : p.token <;> rw [ht] at hc <;> cases hc
    all_goals first
      | exact List.all_iff_forall_prop.1 (by decide)
      | exact absurd (by decide) hbracket
  | none =>
    cases htext : p.token.isText with
    | false =>
      refine .of_forall fun c hc' => not_mem_of_not_isStructural ?_
      exact p.spells.not_isStructural hc htext c hc'
    | true =>
      obtain ⟨s, hs⟩ : ∃ s, p.token = .text s := by
        cases ht : p.token <;> rw [ht] at htext <;> first | exact ⟨_, rfl⟩ | cases htext
      have hspells := p.spells
      rw [hs] at hspells
      obtain ⟨hw, hquote⟩ := hspells.text_eq
      rw [hw]
      exact .quoted hquote .nil

lemma texts_bracketed {c d : Char} (hp : p.token.structuralChar? = some c)
    (hq : q.token.structuralChar? = some d) (ps : List Piece) :
    texts (p :: (ps ++ [q])) = p.gap ++ c :: (texts ps ++ q.gap ++ [d]) := by
  simp [text_of_structural hp, text_of_structural hq]

/-- Whether two pieces are a pair of brackets. -/
def Encloses (p q : Piece) : Prop :=
  p.token = .openParen ∧ q.token = .closeParen ∨ p.token = .openBracket ∧ q.token = .closeBracket

lemma balanced_bracketed (h : p.Encloses q) {ps : List Piece} (hps : Balanced (texts ps)) :
    Balanced (texts (p :: (ps ++ [q]))) := by
  have hinner := hps.append q.balanced_gap
  rcases h with ⟨hp, hq⟩ | ⟨hp, hq⟩
  · rw [texts_bracketed (c := '(') (d := ')') (by rw [hp]; rfl) (by rw [hq]; rfl)]
    exact p.balanced_gap.append (.parens hinner .nil)
  · rw [texts_bracketed (c := '[') (d := ']') (by rw [hp]; rfl) (by rw [hq]; rfl)]
    exact p.balanced_gap.append (.brackets hinner .nil)

end Piece

lemma OperatorForms.balanced {op : BinaryOperator} {ps : List Piece} (h : OperatorForms op ps) :
    Text.Balanced (Piece.texts ps) := by
  cases h with
  | single hp =>
    rw [Piece.texts_cons, Piece.texts_nil, List.append_nil]
    exact Piece.balanced_text (by simp [hp, Token.structuralChar?])
  | double hp hq h =>
    rw [Piece.texts_cons, Piece.texts_cons, Piece.texts_nil, List.append_nil]
    exact (Piece.balanced_text (by simp [hp, Token.structuralChar?])).append
      (Piece.balanced_text (by simp [hq, Token.structuralChar?]))

namespace Forms

open Piece (texts texts_cons texts_append texts_nil balanced_text balanced_bracketed)
open Text (Balanced)

mutual

/-- The text of an expression is balanced. -/
lemma balanced {e : Expr} {ps : List Piece} (h : Forms e ps) : Balanced (texts ps) := by
  cases e with
  | number x =>
    cases h with
    | number hp => simpa using balanced_text (by simp [hp, Token.structuralChar?])
    | signed hp hq =>
      rw [texts_cons, texts_cons, texts_nil, List.append_nil]
      exact (balanced_text (by simp [hp, Token.structuralChar?])).append
        (balanced_text (by simp [hq, Token.structuralChar?]))
  | text s =>
    cases h with
    | text hp => simpa using balanced_text (by simp [hp, Token.structuralChar?])
  | identifier name =>
    cases h with
    | identifier hp => simpa using balanced_text (by simp [hp, Token.structuralChar?])
  | group e =>
    cases h with
    | group hp h hq => exact balanced_bracketed (.inl ⟨hp, hq⟩) (balanced h)
  | call name args =>
    cases h with
    | call hn hp h hq =>
      rw [texts_cons]
      exact (balanced_text (by simp [hn, Token.structuralChar?])).append
        (balanced_bracketed (.inl ⟨hp, hq⟩) (list_balanced h))
  | vector items =>
    cases h with
    | vector hp h hq => exact balanced_bracketed (.inr ⟨hp, hq⟩) (list_balanced h)
  | unary op e =>
    cases h with
    | negate hp h hps =>
      rw [texts_cons]
      exact (balanced_text (by simp [hp, Token.structuralChar?])).append (balanced h)
    | not hp h =>
      rw [texts_cons]
      exact (balanced_text (by simp [hp, Token.structuralChar?])).append (balanced h)
  | binary op l r =>
    cases h with
    | binary hl ho hr =>
      rw [texts_append, texts_append]
      exact (balanced hl).append (ho.balanced.append (balanced hr))
  | conditional c t e =>
    cases h with
    | conditional hc hq ht hk he =>
      rw [texts_append, texts_cons, texts_append, texts_cons]
      exact (balanced hc).append ((balanced_text (by simp [hq, Token.structuralChar?])).append
        ((balanced ht).append ((balanced_text (by simp [hk, Token.structuralChar?])).append
          (balanced he))))
termination_by structural e

/-- The text of a list of expressions is balanced. -/
lemma list_balanced {es : List Expr} {ps : List Piece} (h : ListForms es ps) :
    Balanced (texts ps) := by
  cases es with
  | nil =>
    cases h with
    | nil => exact .nil
  | cons e es =>
    cases h with
    | cons h hes =>
      rw [texts_append]
      exact (balanced h).append (rest_balanced hes)
termination_by structural es

lemma rest_balanced {es : List Expr} {ps : List Piece} (h : RestForms es ps) :
    Balanced (texts ps) := by
  cases es with
  | nil =>
    cases h with
    | nil => exact .nil
  | cons e es =>
    cases h with
    | cons hp h hes =>
      rw [texts_cons, texts_append]
      exact (balanced_text (by simp [hp, Token.structuralChar?])).append
        ((balanced h).append (rest_balanced hes))
termination_by structural es

end

end Forms

/-! ### Dividers outside all brackets -/

/-- Whether a character divides a text into parts. -/
def Token.isDivider (c : Char) : Bool :=
  c == '?' || c == ':' || c == ','

namespace Piece

open Text (Balanced tops)
open Token (isDivider)

variable {p q : Piece}

lemma not_isDivider_of_not_isStructural {c : Char} (h : Token.isStructural c = false) :
    isDivider c = false := by
  simp only [Token.isStructural, Bool.or_eq_false_iff] at h
  simp [isDivider, h]

/-- A divider outside all brackets of a piece is its token. -/
lemma structuralChar?_of_mem_tops {c : Char} (hc : c ∈ tops ⟨false, 0⟩ p.text)
    (hdivider : isDivider c = true) : p.token.structuralChar? = some c := by
  have hplain : Token.isStructural c = true := by
    by_contra h
    exact absurd hdivider (by simp [not_isDivider_of_not_isStructural (Bool.eq_false_iff.2 h)])
  rw [text, Text.tops_append, p.balanced_gap.after, List.mem_append] at hc
  rcases hc with hc | hc
  · have hgap := p.isSeparator_of_mem_gap c (Text.mem_of_mem_tops hc)
    rw [Token.not_isStructural_of_separator hgap] at hplain
    cases hplain
  cases hd : p.token.structuralChar? with
  | some d =>
    rw [p.spells.eq_structural hd] at hc
    rw [List.mem_singleton.1 (Text.mem_of_mem_tops hc)]
  | none =>
    cases htext : p.token.isText with
    | false =>
      rw [p.spells.not_isStructural hd htext c (Text.mem_of_mem_tops hc)] at hplain
      cases hplain
    | true =>
      obtain ⟨s, hs⟩ : ∃ s, p.token = .text s := by
        cases ht : p.token <;> rw [ht] at htext <;> first | exact ⟨_, rfl⟩ | cases htext
      have hspells := p.spells
      rw [hs] at hspells
      obtain ⟨hw, hquote⟩ := hspells.text_eq
      rw [hw] at hc
      simp [tops, Text.Place.next, Text.Place.isTop, Text.tops_in_text hquote,
        Text.Place.after_in_text hquote] at hc
      rw [hc] at hdivider
      cases hdivider

lemma not_isDivider_of_mem_tops (h : ∀ c ∈ p.token.structuralChar?, isDivider c = false) :
    ∀ c ∈ tops ⟨false, 0⟩ p.text, isDivider c = false := by
  intro c hc
  by_contra hdivider
  rw [Bool.not_eq_false] at hdivider
  exact absurd (h c (structuralChar?_of_mem_tops hc hdivider)) (by simp [hdivider])

/-- Outside all brackets, a bracketed text has no divider. -/
lemma not_isDivider_bracketed (h : p.Encloses q) {ps : List Piece} (hps : Balanced (texts ps)) :
    ∀ c ∈ tops ⟨false, 0⟩ (texts (p :: (ps ++ [q]))), isDivider c = false := by
  have hinner := hps.append q.balanced_gap
  obtain ⟨o, d, ho, hd, hafter, hdivider⟩ : ∃ o d, p.token.structuralChar? = some o
      ∧ q.token.structuralChar? = some d ∧ Text.Place.after ⟨false, 0⟩ p.text = ⟨false, 1⟩
      ∧ isDivider o = false := by
    rcases h with ⟨hp, hq⟩ | ⟨hp, hq⟩
    · refine ⟨'(', ')', by rw [hp]; rfl, by rw [hq]; rfl, ?_, rfl⟩
      rw [text_of_structural (c := '(') (by rw [hp]; rfl)]
      simp [p.balanced_gap.after, Text.Place.next]
    · refine ⟨'[', ']', by rw [hp]; rfl, by rw [hq]; rfl, ?_, rfl⟩
      rw [text_of_structural (c := '[') (by rw [hp]; rfl)]
      simp [p.balanced_gap.after, Text.Place.next]
  have htext : texts (p :: (ps ++ [q])) = p.text ++ (texts ps ++ q.gap ++ [d]) := by
    simp [text_of_structural hd]
  intro c hc
  rw [htext, Text.tops_append, Text.tops_append, hafter, hinner.tops_inside, hinner.after] at hc
  rcases List.mem_append.1 hc with hc | hc
  · exact not_isDivider_of_mem_tops (by simpa [ho] using hdivider) c hc
  · simp [tops, Text.Place.isTop] at hc

end Piece

/-- Whether an expression is a conditional. -/
def Expr.isConditional : Expr → Bool
  | .conditional _ _ _ => true
  | _ => false

lemma Expr.not_isConditional_of_strength {e : Expr} (h : 0 < e.strength) :
    e.isConditional = false := by
  cases e with
  | conditional c t e => exact absurd h (Nat.lt_irrefl 0)
  | _ => rfl

namespace Forms

open Piece (texts texts_cons texts_append texts_nil not_isDivider_of_mem_tops)
open Text (Balanced tops)
open Token (isDivider)

variable {isFunction : String → Bool}

lemma not_isDivider_append {s t : List Char} (hs : Balanced s)
    (h : ∀ c ∈ tops ⟨false, 0⟩ s, isDivider c = false)
    (h' : ∀ c ∈ tops ⟨false, 0⟩ t, isDivider c = false) :
    ∀ c ∈ tops ⟨false, 0⟩ (s ++ t), isDivider c = false := by
  intro c hc
  rw [Text.tops_append, hs.after, List.mem_append] at hc
  rcases hc with hc | hc
  · exact h c hc
  · exact h' c hc

lemma operator_not_isDivider {op : BinaryOperator} {ps : List Piece} (h : OperatorForms op ps) :
    ∀ c ∈ tops ⟨false, 0⟩ (texts ps), isDivider c = false := by
  cases h with
  | single hp => simpa using not_isDivider_of_mem_tops (by simp [hp, Token.structuralChar?])
  | double hp hq h =>
    rw [texts_cons, texts_cons, texts_nil, List.append_nil]
    exact not_isDivider_append (Piece.balanced_text (by simp [hp, Token.structuralChar?]))
      (not_isDivider_of_mem_tops (by simp [hp, Token.structuralChar?]))
      (not_isDivider_of_mem_tops (by simp [hq, Token.structuralChar?]))

/-- An expression that is not a conditional has no divider outside all brackets. -/
lemma not_isDivider {e : Expr} {ps : List Piece} (h : Forms e ps) (he : e.WellFormed isFunction)
    (hcond : e.isConditional = false) :
    ∀ c ∈ tops ⟨false, 0⟩ (texts ps), isDivider c = false := by
  cases e with
  | number x =>
    cases h with
    | number hp => simpa using not_isDivider_of_mem_tops (by simp [hp, Token.structuralChar?])
    | signed hp hq =>
      rw [texts_cons, texts_cons, texts_nil, List.append_nil]
      exact not_isDivider_append (Piece.balanced_text (by simp [hp, Token.structuralChar?]))
        (not_isDivider_of_mem_tops (by simp [hp, Token.structuralChar?]))
        (not_isDivider_of_mem_tops (by simp [hq, Token.structuralChar?]))
  | text s =>
    cases h with
    | text hp => simpa using not_isDivider_of_mem_tops (by simp [hp, Token.structuralChar?])
  | identifier name =>
    cases h with
    | identifier hp => simpa using not_isDivider_of_mem_tops (by simp [hp, Token.structuralChar?])
  | group e =>
    cases h with
    | group hp h hq => exact Piece.not_isDivider_bracketed (.inl ⟨hp, hq⟩) h.balanced
  | call name args =>
    cases h with
    | call hn hp h hq =>
      rw [texts_cons]
      exact not_isDivider_append (Piece.balanced_text (by simp [hn, Token.structuralChar?]))
        (not_isDivider_of_mem_tops (by simp [hn, Token.structuralChar?]))
        (Piece.not_isDivider_bracketed (.inl ⟨hp, hq⟩) (list_balanced h))
  | vector items =>
    cases h with
    | vector hp h hq => exact Piece.not_isDivider_bracketed (.inr ⟨hp, hq⟩) (list_balanced h)
  | unary op e =>
    have hstrength : 0 < e.strength := lt_of_lt_of_le (by decide) he.1
    have hcond' := Expr.not_isConditional_of_strength hstrength
    cases h with
    | negate hp h hps =>
      rw [texts_cons]
      exact not_isDivider_append (Piece.balanced_text (by simp [hp, Token.structuralChar?]))
        (not_isDivider_of_mem_tops (by simp [hp, Token.structuralChar?]))
        (not_isDivider h he.2 hcond')
    | not hp h =>
      rw [texts_cons]
      exact not_isDivider_append (Piece.balanced_text (by simp [hp, Token.structuralChar?]))
        (not_isDivider_of_mem_tops (by simp [hp, Token.structuralChar?]))
        (not_isDivider h he.2 hcond')
  | binary op l r =>
    obtain ⟨⟨hls, hl'⟩, hrs, hr'⟩ := he
    have hrpos : 0 < op.rightStrength :=
      lt_of_lt_of_le op.level_pos op.level_le_rightStrength
    have hlcond := Expr.not_isConditional_of_strength (lt_of_lt_of_le op.leftStrength_pos hls)
    have hrcond := Expr.not_isConditional_of_strength (lt_of_lt_of_le hrpos hrs)
    cases h with
    | binary hl ho hr =>
      rw [texts_append, texts_append]
      exact not_isDivider_append hl.balanced (not_isDivider hl hl' hlcond)
        (not_isDivider_append ho.balanced (operator_not_isDivider ho)
          (not_isDivider hr hr' hrcond))
  | conditional c t e => cases hcond
termination_by structural e

/-- The text of an expression has no comma outside all brackets. -/
lemma comma_not_mem_tops {e : Expr} {ps : List Piece} (h : Forms e ps)
    (he : e.WellFormed isFunction) : ',' ∉ tops ⟨false, 0⟩ (texts ps) := by
  cases hcond : e.isConditional with
  | false => exact fun hmem => absurd (h.not_isDivider he hcond _ hmem) (by decide)
  | true =>
    cases e with
    | conditional c t e =>
      cases h with
      | @conditional _ _ _ q k cs ts es hc hq ht hk he' =>
        rw [texts_append, texts_cons, texts_append, texts_cons]
        have hqtext := Piece.balanced_text (p := q) (by simp [hq, Token.structuralChar?])
        have hktext := Piece.balanced_text (p := k) (by simp [hk, Token.structuralChar?])
        simp only [Text.tops_append, hc.balanced.after, ht.balanced.after, hqtext.after,
          hktext.after, List.mem_append, not_or]
        refine ⟨comma_not_mem_tops hc he.1.2, ?_, comma_not_mem_tops ht he.2.1, ?_,
          comma_not_mem_tops he' he.2.2⟩
        · intro hmem
          simpa [hq, Token.structuralChar?] using Piece.structuralChar?_of_mem_tops hmem (by decide)
        · intro hmem
          simpa [hk, Token.structuralChar?] using Piece.structuralChar?_of_mem_tops hmem (by decide)
    | _ => cases hcond
termination_by structural e

end Forms

end Reckoner
