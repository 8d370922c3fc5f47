import Reckoner.Proofs.Form.Nesting
import Reckoner.Proofs.Form.Trimming
import Reckoner.Substitution

/-!
# Reading the parts of an expression off its text

Cutting the text of an expression at dividers and brackets gives texts that are read as the parts of
the expression: those of a conditional, the inside of a group and the arguments of a call.
-/

namespace Reckoner

namespace Conditional

open Text (tops cutAtTop?)

lemma divider_not_mem_gap {gap : List Char} (h : ∀ c ∈ gap, Token.isSeparator c = true) {d : Char}
    (hd : Token.isDivider d = true) (p : Text.Place) : d ∉ tops p gap := by
  intro hmem
  have hplain := Token.not_isStructural_of_separator (h d (Text.mem_of_mem_tops hmem))
  rw [Piece.not_isDivider_of_not_isStructural hplain] at hd
  cases hd

lemma cutAtColon?_question (n : Nat) (t : List Char) :
    cutAtColon? ⟨false, 0⟩ n ('?' :: t)
      = (cutAtColon? ⟨false, 0⟩ (n + 1) t).map fun (front, tail) => ('?' :: front, tail) :=
  rfl

lemma cutAtColon?_colon (n : Nat) (t : List Char) :
    cutAtColon? ⟨false, 0⟩ (n + 1) (':' :: t)
      = (cutAtColon? ⟨false, 0⟩ n t).map fun (front, tail) => (':' :: front, tail) :=
  rfl

lemma cutAtColon?_gap {gap : List Char} (h : ∀ c ∈ gap, Token.isSeparator c = true) (n : Nat)
    (t : List Char) :
    cutAtColon? ⟨false, 0⟩ n (gap ++ t)
      = (cutAtColon? ⟨false, 0⟩ n t).map fun (front, tail) => (gap ++ front, tail) := by
  rw [cutAtColon?_append (divider_not_mem_gap h (by decide) _)
    (divider_not_mem_gap h (by decide) _), (Piece.balanced_of_separators h).after]

/-- The conditionals of an expression have their own `:`, so that the one of a conditional around it
is looked for behind it. -/
lemma cutAtColon?_texts {isFunction : String → Bool} {e : Expr} {ps : List Piece}
    (h : Forms e ps) (he : e.WellFormed isFunction) (n : Nat) (t : List Char) :
    cutAtColon? ⟨false, 0⟩ n (Piece.texts ps ++ t)
      = (cutAtColon? ⟨false, 0⟩ n t).map fun (front, tail) => (Piece.texts ps ++ front, tail) := by
  cases hcond : e.isConditional with
  | false =>
    have hnone := h.not_isDivider he hcond
    rw [cutAtColon?_append (fun hq => absurd (hnone _ hq) (by decide))
      (fun hk => absurd (hnone _ hk) (by decide)), h.balanced.after]
  | true =>
    cases e with
    | conditional c a b =>
      cases h with
      | @conditional _ _ _ q k cs as bs hc hq ha hk hb =>
        have hqtext := Piece.text_of_structural (p := q) (c := '?') (by rw [hq]; rfl)
        have hktext := Piece.text_of_structural (p := k) (c := ':') (by rw [hk]; rfl)
        simp only [Piece.texts_append, Piece.texts_cons, hqtext, hktext, List.append_assoc,
          List.cons_append, List.nil_append]
        rw [cutAtColon?_texts hc he.1.2, cutAtColon?_gap q.isSeparator_of_mem_gap,
          cutAtColon?_question, cutAtColon?_texts ha he.2.1,
            cutAtColon?_gap k.isSeparator_of_mem_gap,
          cutAtColon?_colon, cutAtColon?_texts hb he.2.2]
        simp only [Option.map_map]
        rfl
    | _ => cases hcond
termination_by structural e

variable {isFunction : String → Bool} {e c t a : Expr} {text : List Char}

/-- The first `?` outside all brackets of a conditional is its own. -/
lemma cutAtTop?_texts {cs : List Piece} {q : Piece} (hc : Forms c cs)
    (he : c.WellFormed isFunction) (hcond : c.isConditional = false) (hq : q.token = .question)
    (rest : List Char) :
    cutAtTop? '?' {} (Piece.texts cs ++ (q.text ++ rest)) = some (Piece.texts cs ++ q.gap,
      rest) := by
  have hnone := hc.not_isDivider he hcond
  rw [Piece.text_of_structural (p := q) (c := '?') (by rw [hq]; rfl), List.append_assoc,
    Text.cutAtTop?_append (fun hq => absurd (hnone _ hq) (by decide)), hc.balanced.after,
    Text.cutAtTop?_append (divider_not_mem_gap q.isSeparator_of_mem_gap (by decide) _),
    q.balanced_gap.after]
  simp [cutAtTop?, Text.Place.isTop]

/-- The text of a conditional is split at its `?` and its `:`. -/
lemma split?_texts {cs ts : List Piece} {q k : Piece} (hc : Forms c cs) (ht : Forms t ts)
    (hq : q.token = .question) (hk : k.token = .colon)
    (he : (Expr.conditional c t a).WellFormed isFunction) (rest : List Char) :
    split? (Piece.texts cs ++ (q.text ++ (Piece.texts ts ++ (k.text ++ rest))))
      = some ⟨Text.trim (Piece.texts cs ++ q.gap), Text.trim (Piece.texts ts ++ k.gap),
          Text.trim rest⟩ := by
  have hcolon : cutAtColon? {} 0 (Piece.texts ts ++ (k.text ++ rest))
      = some (Piece.texts ts ++ k.gap, rest) := by
    rw [Piece.text_of_structural (p := k) (c := ':') (by rw [hk]; rfl), List.append_assoc,
      cutAtColon?_texts ht he.2.1, cutAtColon?_gap k.isSeparator_of_mem_gap]
    simp [cutAtColon?, Text.Place.isTop]
  rw [split?, cutAtTop?_texts hc he.1.2 (Expr.not_isConditional_of_strength he.1.1) hq]
  simp only [hcolon, Option.bind_eq_bind, Option.bind_some]
  rfl

/-- A text that is read as a conditional is split into texts that are read as its parts. -/
lemma exists_split? (h : Reads (.conditional c t a) text)
    (he : (Expr.conditional c t a).WellFormed isFunction) :
    isQuestioned text = true ∧ ∃ parts, split? text = some parts ∧ Reads c parts.condition
      ∧ Reads t parts.consequent ∧ Reads a parts.alternative := by
  obtain ⟨ps, gap, rfl, hgap, hps, hchain⟩ := h
  cases hps with
  | @conditional _ _ _ q k cs ts as hc hq ht hk ha =>
    have hchain' := hchain.right_of_append.tail
    simp only [Piece.texts_append, Piece.texts_cons, List.append_assoc]
    refine ⟨?_, _, split?_texts hc ht hq hk he _, ?_, ?_, ?_⟩
    · rw [isQuestioned, cutAtTop?_texts hc he.1.2 (Expr.not_isConditional_of_strength he.1.1) hq]
      rfl
    · exact Reads.trim ⟨cs, q.gap, rfl, q.isSeparator_of_mem_gap, hc, hchain.left_of_append⟩
    · exact Reads.trim ⟨ts, k.gap, rfl, k.isSeparator_of_mem_gap, ht, hchain'.left_of_append⟩
    · exact Reads.trim ⟨as, gap, rfl, hgap, ha, hchain'.right_of_append.tail⟩

/-- The parts of a conditional are trimmed, so that blanks around it do not show in them. -/
lemma split?_trim (text : List Char) : split? (Text.trim text) = split? text := by
  obtain ⟨u, v, htext, hu, hv⟩ := Text.exists_trim text
  have hquestion : '?' ∉ v := fun hmem => absurd (hv _ hmem) (by decide)
  have hcolon : ':' ∉ v := fun hmem => absurd (hv _ hmem) (by decide)
  have hmark : '?' ∉ tops {} u := fun hmem => absurd (hu _ (Text.mem_of_mem_tops hmem)) (by decide)
  have hbalanced : Text.Balanced u := .of_forall fun c hc hmem => by
    have hblank := hu c hc
    simp only [List.mem_cons, List.not_mem_nil, or_false] at hmem
    rcases hmem with rfl | rfl | rfl | rfl | rfl <;> exact absurd hblank (by decide)
  conv_rhs => rw [split?, htext, Text.cutAtTop?_append hmark, hbalanced.after,
    Text.cutAtTop?_append_of_not_mem hquestion]
  rw [split?]
  cases cutAtTop? '?' {} (Text.trim text) with
  | none => rfl
  | some cut =>
    obtain ⟨condition, rest⟩ := cut
    simp only [Option.map_some, Option.bind_eq_bind, Option.bind_some,
      cutAtColon?_append_of_not_mem hcolon]
    cases cutAtColon? {} 0 rest with
    | none => rfl
    | some cut =>
      obtain ⟨consequent, alternative⟩ := cut
      simp only [Option.map_some, Option.bind_some, Text.trim_blanks_append hu,
        Text.trim_append_blanks hv]

/-- The text of another expression has no `?` outside all brackets. -/
lemma cutAtTop?_question_eq_none {ps : List Piece} {gap : List Char} (h : Forms e ps)
    (hgap : ∀ c ∈ gap, Token.isSeparator c = true) (he : e.WellFormed isFunction)
    (hcond : e.isConditional = false) : cutAtTop? '?' {} (Piece.texts ps ++ gap) = none := by
  have hnone := h.not_isDivider he hcond
  rw [Text.cutAtTop?_append (fun hq => absurd (hnone _ hq) (by decide)),
    ← List.append_nil gap, Text.cutAtTop?_append (divider_not_mem_gap hgap (by decide) _)]
  rfl

/-- A text that is read as another expression is not split. -/
lemma split?_eq_none (h : Reads e text) (he : e.WellFormed isFunction)
    (hcond : e.isConditional = false) : split? text = none := by
  obtain ⟨ps, gap, rfl, hgap, hps, -⟩ := h
  rw [split?, cutAtTop?_question_eq_none hps hgap he hcond]
  rfl

/-- A text is questioned exactly if it is read as a conditional. -/
lemma isQuestioned_eq (h : Reads e text) (he : e.WellFormed isFunction) :
    isQuestioned text = e.isConditional := by
  cases hcond : e.isConditional with
  | false =>
    obtain ⟨ps, gap, rfl, hgap, hps, -⟩ := h
    rw [isQuestioned, cutAtTop?_question_eq_none hps hgap he hcond]
    rfl
  | true =>
    cases e with
    | conditional c t a => exact (exists_split? h he).1
    | _ => cases hcond

end Conditional

/-! ### Groups and arguments -/

namespace Piece

/-- The parenthesis behind a balanced text closes it. -/
lemma cutAtClose?_texts {q : Piece} (hq : q.token = .closeParen) {ps : List Piece}
    (h : Text.Balanced (texts ps)) (rest : List Char) :
    Text.cutAtClose? false 0 (texts ps ++ (q.text ++ rest)) = some (texts ps ++ q.gap, rest) := by
  rw [text_of_structural (p := q) (c := ')') (by rw [hq]; rfl), List.append_assoc,
    h.cutAtClose?_append, q.balanced_gap.cutAtClose?_append]
  simp [Text.cutAtClose?]

end Piece

namespace Substitution

variable {isFunction : String → Bool}

lemma exists_piecesFrom {es : List Expr} {ps : List Piece} (h : RestForms es ps)
    (hes : Expr.AllWellFormed isFunction es) (hchain : ps.IsChain Piece.Apart) {gap : List Char}
    (hgap : ∀ c ∈ gap, Token.isSeparator c = true) :
    ∃ first others, (∀ c ∈ first, Token.isSeparator c = true)
      ∧ Text.piecesFrom ⟨false, 0⟩ (Piece.texts ps ++ gap) = first :: others
      ∧ List.Forall₂ Reads es others := by
  induction es generalizing ps with
  | nil =>
    cases h with
    | nil =>
      refine ⟨gap, [], hgap, ?_, .nil⟩
      have hnone := Conditional.divider_not_mem_gap hgap (d := ',') (by decide) ⟨false, 0⟩
      simpa using Text.piecesFrom_append hnone (t := []) rfl
  | cons e es ih =>
    cases h with
    | @cons _ _ p qs rs hp h hrest =>
      obtain ⟨first, others, hfirst, hpieces, hreads⟩ := ih hrest hes.2 hchain.tail.right_of_append
      have htext := Piece.text_of_structural (p := p) (c := ',') (by rw [hp]; rfl)
      have hitem : Text.piecesFrom ⟨false, 0⟩ (Piece.texts (qs ++ rs) ++ gap)
          = (Piece.texts qs ++ first) :: others := by
        rw [Piece.texts_append, List.append_assoc]
        refine Text.piecesFrom_append (h.comma_not_mem_tops hes.1) ?_
        rw [h.balanced.after, hpieces]
      refine ⟨p.gap, (Piece.texts qs ++ first) :: others, p.isSeparator_of_mem_gap, ?_,
        .cons ?_ hreads⟩
      · have hnone := Conditional.divider_not_mem_gap p.isSeparator_of_mem_gap (d := ',')
          (by decide)
          ⟨false, 0⟩
        have hcomma : Text.piecesFrom (Text.Place.after ⟨false, 0⟩ p.gap)
            (',' :: (Piece.texts (qs ++ rs) ++ gap)) = [] :: (Piece.texts qs ++ first) ::
              others := by
          rw [p.balanced_gap.after, ← hitem]
          rfl
        rw [Piece.texts_cons, htext, List.append_assoc, List.append_assoc]
        simpa using Text.piecesFrom_append hnone hcomma
      · exact ⟨qs, first, rfl, hfirst, h, hchain.tail.left_of_append⟩

/-- The texts between the commas of a list are read as its elements. -/
lemma argumentTexts_reads {es : List Expr} {ps : List Piece} (h : ListForms es ps)
    (hes : Expr.AllWellFormed isFunction es) (hchain : ps.IsChain Piece.Apart) {gap : List Char}
    (hgap : ∀ c ∈ gap, Token.isSeparator c = true) :
    List.Forall₂ Reads es (argumentTexts (Piece.texts ps ++ gap)) := by
  cases h with
  | nil =>
    have hblank : ∀ c ∈ gap, Text.isBlank c = true :=
      fun c hc => Token.isBlank_of_separator (hgap c hc)
    have htrim : Text.trim gap = [] := by
      rw [Text.trim, Text.trimStart, List.dropWhile_eq_nil_iff.2 hblank]
      rfl
    simp [argumentTexts, htrim]
  | @cons e es qs rs h hrest =>
    obtain ⟨first, others, hfirst, hpieces, hreads⟩ :=
      exists_piecesFrom hrest hes.2 hchain.right_of_append hgap
    have hne : Text.trim (Piece.texts (qs ++ rs) ++ gap) ≠ [] :=
      Piece.trim_texts_ne_nil (List.append_ne_nil_of_left_ne_nil h.ne_nil rs) hgap
    have hitem : Text.piecesFrom {} (Piece.texts (qs ++ rs) ++ gap)
        = (Piece.texts qs ++ first) :: others := by
      rw [Piece.texts_append, List.append_assoc]
      refine Text.piecesFrom_append (h.comma_not_mem_tops hes.1) ?_
      rw [h.balanced.after, hpieces]
    rw [argumentTexts, if_neg (by simpa using hne), hitem]
    exact .cons ⟨qs, first, rfl, hfirst, h, hchain.left_of_append⟩ hreads

end Substitution

end Reckoner
