import Reckoner.Proofs.Form.Outside
import Reckoner.Proofs.Form.Trimming

/-!
# Conditionals inside of conditionals

The depth of an expression is the number of conditionals around each other in it. It is bounded by
the question marks of its text, and no more levels than that are needed for the parts.
-/

namespace Reckoner

namespace Expr

/-- One level more, if there is any. -/
def deepen (n : Nat) : Nat :=
  if n = 0 then 0 else n + 1

@[simp] lemma deepen_zero : deepen 0 = 0 :=
  rfl

lemma deepen_le (n : Nat) : deepen n ≤ n + 1 := by
  unfold deepen
  split_ifs <;> omega

lemma le_deepen (n : Nat) : n ≤ deepen n := by
  unfold deepen
  split_ifs <;> omega

lemma deepen_mono {m n : Nat} (h : m ≤ n) : deepen m ≤ deepen n := by
  unfold deepen
  split_ifs <;> omega

lemma lt_deepen {n : Nat} (h : 0 < n) : n < deepen n := by
  rw [deepen, if_neg h.ne']
  exact Nat.lt_succ_self n

lemma eq_zero_of_deepen {n : Nat} (h : deepen n = 0) : n = 0 := by
  by_contra hn
  rw [deepen, if_neg hn] at h
  cases h

mutual

/-- The levels of conditionals in an expression: none without a conditional, and otherwise one more
than in its parts. -/
def depth : Expr → Nat
  | .number _ => 0
  | .text _ => 0
  | .identifier _ => 0
  | .group e => deepen e.depth
  | .call _ args => deepen (listDepth args)
  | .vector items => deepen (listDepth items)
  | .unary _ e => deepen e.depth
  | .binary _ l r => deepen (max l.depth r.depth)
  | .conditional c t e => max c.depth (max t.depth e.depth) + 1

/-- The levels of conditionals in expressions. -/
def listDepth : List Expr → Nat
  | [] => 0
  | e :: rest => max e.depth (listDepth rest)

end

end Expr

namespace Forms

lemma operator_no_question {op : BinaryOperator} {ps : List Piece} (h : OperatorForms op ps) :
    ∀ p ∈ ps, p.token ≠ .question := by
  cases h with
  | single hp => simp [hp]
  | double hp hq h => simp [hp, hq]

mutual

/-- An expression without levels of conditionals is written without question marks. -/
lemma no_question {e : Expr} {ps : List Piece} (h : Forms e ps) (he : e.depth = 0) :
    ∀ p ∈ ps, p.token ≠ .question := by
  cases e with
  | number x =>
    cases h with
    | number hp => simp [hp]
    | signed hp hq => simp [hp, hq]
  | text s =>
    cases h with
    | text hp => simp [hp]
  | identifier name =>
    cases h with
    | identifier hp => simp [hp]
  | group e =>
    cases h with
    | group hp h hq =>
      have ih := no_question h (Expr.eq_zero_of_deepen he)
      simp only [List.mem_cons, List.mem_append, List.not_mem_nil, or_false]
      rintro p (rfl | hp' | rfl)
      · simp [hp]
      · exact ih p hp'
      · simp [hq]
  | call name args =>
    cases h with
    | call hn hp h hq =>
      have ih := list_no_question h (Expr.eq_zero_of_deepen he)
      simp only [List.mem_cons, List.mem_append, List.not_mem_nil, or_false]
      rintro p (rfl | rfl | hp' | rfl)
      · simp [hn]
      · simp [hp]
      · exact ih p hp'
      · simp [hq]
  | vector items =>
    cases h with
    | vector hp h hq =>
      have ih := list_no_question h (Expr.eq_zero_of_deepen he)
      simp only [List.mem_cons, List.mem_append, List.not_mem_nil, or_false]
      rintro p (rfl | hp' | rfl)
      · simp [hp]
      · exact ih p hp'
      · simp [hq]
  | unary op e =>
    cases h with
    | negate hp h hps =>
      rintro p (_ | ⟨_, hp'⟩)
      · simp [hp]
      · exact no_question h (Expr.eq_zero_of_deepen he) p hp'
    | not hp h =>
      rintro p (_ | ⟨_, hp'⟩)
      · simp [hp]
      · exact no_question h (Expr.eq_zero_of_deepen he) p hp'
  | binary op l r =>
    cases h with
    | binary hl ho hr =>
      have hmax := Nat.max_eq_zero_iff.1 (Expr.eq_zero_of_deepen he)
      intro p hp
      rcases List.mem_append.1 hp with hp | hp
      · exact no_question hl hmax.1 p hp
      rcases List.mem_append.1 hp with hp | hp
      · exact operator_no_question ho p hp
      · exact no_question hr hmax.2 p hp
  | conditional c t e => cases he
termination_by structural e

lemma list_no_question {es : List Expr} {ps : List Piece} (h : ListForms es ps)
    (hes : Expr.listDepth es = 0) : ∀ p ∈ ps, p.token ≠ .question := by
  cases es with
  | nil =>
    cases h with
    | nil => simp
  | cons e es =>
    cases h with
    | cons h hrest =>
      have hmax := Nat.max_eq_zero_iff.1 hes
      intro p hp
      rcases List.mem_append.1 hp with hp | hp
      · exact no_question h hmax.1 p hp
      · exact rest_no_question hrest hmax.2 p hp
termination_by structural es

lemma rest_no_question {es : List Expr} {ps : List Piece} (h : RestForms es ps)
    (hes : Expr.listDepth es = 0) : ∀ p ∈ ps, p.token ≠ .question := by
  cases es with
  | nil =>
    cases h with
    | nil => simp
  | cons e es =>
    cases h with
    | cons hp h hrest =>
      have hmax := Nat.max_eq_zero_iff.1 hes
      rintro p (_ | ⟨_, hp'⟩)
      · simp [hp]
      rcases List.mem_append.1 hp' with hp | hp
      · exact no_question h hmax.1 p hp
      · exact rest_no_question hrest hmax.2 p hp
termination_by structural es

end

mutual

/-- An expression has at least as many pieces as levels of conditionals. -/
lemma depth_le_length {e : Expr} {ps : List Piece} (h : Forms e ps) : e.depth ≤ ps.length := by
  cases e with
  | number x => exact Nat.zero_le _
  | text s => exact Nat.zero_le _
  | identifier name => exact Nat.zero_le _
  | group e =>
    cases h with
    | group hp h hq =>
      have ih := depth_le_length h
      have hdeepen := Expr.deepen_le e.depth
      simp only [Expr.depth, List.length_cons, List.length_append, List.length_nil]
      omega
  | call name args =>
    cases h with
    | call hn hp h hq =>
      have ih := listDepth_le_length h
      have hdeepen := Expr.deepen_le (Expr.listDepth args)
      simp only [Expr.depth, List.length_cons, List.length_append, List.length_nil]
      omega
  | vector items =>
    cases h with
    | vector hp h hq =>
      have ih := listDepth_le_length h
      have hdeepen := Expr.deepen_le (Expr.listDepth items)
      simp only [Expr.depth, List.length_cons, List.length_append, List.length_nil]
      omega
  | unary op e =>
    have hdeepen := Expr.deepen_le e.depth
    cases h with
    | negate hp h hps =>
      have ih := depth_le_length h
      simp only [Expr.depth, List.length_cons]
      omega
    | not hp h =>
      have ih := depth_le_length h
      simp only [Expr.depth, List.length_cons]
      omega
  | binary op l r =>
    cases h with
    | binary hl ho hr =>
      have ihl := depth_le_length hl
      have ihr := depth_le_length hr
      have ho' := List.length_pos_iff.2 ho.ne_nil
      have hdeepen := Expr.deepen_le (max l.depth r.depth)
      simp only [Expr.depth, List.length_append]
      omega
  | conditional c t e =>
    cases h with
    | conditional hc hq ht hk he =>
      have ihc := depth_le_length hc
      have iht := depth_le_length ht
      have ihe := depth_le_length he
      simp only [Expr.depth, List.length_append, List.length_cons]
      omega
termination_by structural e

lemma listDepth_le_length {es : List Expr} {ps : List Piece} (h : ListForms es ps) :
    Expr.listDepth es ≤ ps.length := by
  cases es with
  | nil => exact Nat.zero_le _
  | cons e es =>
    cases h with
    | cons h hrest =>
      have ih := depth_le_length h
      have ihs := restDepth_le_length hrest
      simp only [Expr.listDepth, List.length_append]
      omega
termination_by structural es

lemma restDepth_le_length {es : List Expr} {ps : List Piece} (h : RestForms es ps) :
    Expr.listDepth es ≤ ps.length := by
  cases es with
  | nil => exact Nat.zero_le _
  | cons e es =>
    cases h with
    | cons hp h hrest =>
      have ih := depth_le_length h
      have ihs := restDepth_le_length hrest
      simp only [Expr.listDepth, List.length_cons, List.length_append]
      omega
termination_by structural es

end

end Forms

lemma Piece.length_le_length_texts (ps : List Piece) : ps.length ≤ (texts ps).length := by
  induction ps with
  | nil => exact Nat.le_refl _
  | cons p ps ih =>
    have hp := List.length_pos_iff.2 p.text_ne_nil
    simp only [texts_cons, List.length_cons, List.length_append]
    omega

namespace Reads

variable {e : Expr} {text : List Char}

/-- A text with a question mark outside text literals is read as an expression with conditionals. -/
lemma depth_pos (h : Reads e text) (hq : '?' ∈ Text.outside text) : 0 < e.depth := by
  obtain ⟨ps, gap, rfl, hgap, hps, -⟩ := h
  obtain ⟨p, hp, htoken⟩ := Piece.exists_of_question_mem hgap hq
  by_contra hdepth
  exact hps.no_question (Nat.eq_zero_of_not_pos hdepth) p hp htoken

lemma ne_nil (h : Reads e text) : text ≠ [] := by
  obtain ⟨ps, gap, rfl, -, hforms, -⟩ := h
  have hlength := Piece.length_le_length_texts ps
  have hpos := List.length_pos_of_ne_nil hforms.ne_nil
  refine List.ne_nil_of_length_pos ?_
  rw [List.length_append]
  omega

/-- A text has at least as many characters as levels of conditionals. -/
lemma depth_le (h : Reads e text) : e.depth ≤ text.length := by
  obtain ⟨ps, gap, rfl, -, hps, -⟩ := h
  have hpieces := hps.depth_le_length
  have htexts := Piece.length_le_length_texts ps
  rw [List.length_append]
  omega

end Reads

end Reckoner
