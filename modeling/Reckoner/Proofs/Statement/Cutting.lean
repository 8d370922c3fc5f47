import Reckoner.Proofs.Statement.EqualsSigns

/-!
# Equals signs of an expression

Outside text literals, an equals sign of an expression is part of a comparison, or it makes an
inequality together with a `!` or `not` before it, which need not be next to it. The functions that
look for an assignment see the characters only.
-/

namespace Reckoner

namespace Forms

open Text (Spot)

lemma ne_assign_of_startsOperand {t : Token} (h : t.startsOperand = true) : t ≠ .assign := by
  rintro rfl
  cases h

/-- An equals sign that is a piece of its own is not the second piece of an expression: the negation
before it stands behind an operand. -/
lemma second_ne_assign {e : Expr} {ps : List Piece} (h : Forms e ps) :
    ∀ p ∈ ps.tail.head?, p.token ≠ .assign := by
  cases e with
  | number x =>
    cases h with
    | number hp => simp
    | signed hp hq => simp [hq]
  | text s =>
    cases h
    simp
  | identifier name =>
    cases h
    simp
  | group e =>
    cases h with
    | group hp h hq =>
      rw [List.tail_cons, List.head?_append_of_ne_nil _ h.ne_nil]
      exact fun p hp => ne_assign_of_startsOperand (h.startsOperand_of_mem p hp)
  | call name args =>
    cases h with
    | call hn hp h hq => simp [hp]
  | vector items =>
    cases h with
    | @vector _ p q ps hp h hq =>
      cases ps with
      | nil => simp [hq]
      | cons p' ps =>
        rintro _ ⟨⟩
        exact ne_assign_of_startsOperand (h.startsOperand_of_mem p' rfl)
  | unary op e =>
    cases h with
    | negate hp h hps =>
      exact fun p hp => ne_assign_of_startsOperand (h.startsOperand_of_mem p hp)
    | not hp h => exact fun p hp => ne_assign_of_startsOperand (h.startsOperand_of_mem p hp)
  | binary op l r =>
    cases h with
    | @binary _ _ _ ls os rs hl ho hr =>
      have ih := second_ne_assign hl
      obtain ⟨o, hfirst, hfollows⟩ := ho.head
      match ls with
      | [] => exact absurd rfl hl.ne_nil
      | [q] =>
        intro p hp
        rw [List.singleton_append, List.tail_cons, List.head?_append_of_ne_nil _ ho.ne_nil] at hp
        rw [Option.mem_unique hp hfirst]
        rintro hassign
        rw [hassign] at hfollows
        cases hfollows
      | q :: q' :: ls => exact ih
  | conditional c t a =>
    cases h with
    | @conditional _ _ _ q k cs ts as hc hq ht hk ha =>
      have ih := second_ne_assign hc
      match cs with
      | [] => exact absurd rfl hc.ne_nil
      | [p] => simp [hq]
      | p :: p' :: cs => exact ih
termination_by structural e

/-- Where the equals signs of an expression stand: right behind the mark that they make a comparison
with, right before the other one of `==`, or apart from the negation that they belong to, which has
an operand before it. -/
lemma cases_of_cut {e : Expr} {ps : List Piece} {gap left right : List Char} (h : Forms e ps)
    (hps : ps.IsChain Piece.EndsBefore) (hgap : ∀ c ∈ gap, Token.isSeparator c = true)
    (hcut : Piece.texts ps ++ gap = left ++ '=' :: right)
    (hleft : (Spot.plain.after left).isText = false) :
    (∃ front, ∃ c ∈ ['=', '!', '<', '>'], left = front ++ [c])
      ∨ (right.head? = some '=' ∧ ∀ c ∈ left.getLast?, c ∉ Statement.compoundOperators)
      ∨ ∃ front q gap', front ≠ [] ∧ (front ++ [q]).IsChain Piece.EndsBefore ∧ q.token = .bang
          ∧ (∀ c ∈ gap', Token.isSeparator c = true) ∧ left = Piece.texts (front ++ [q]) ++
            gap' := by
  obtain ⟨front, p, rest, pre, post, rfl, htoken, hspelling, rfl, rfl⟩ :=
    Piece.exists_of_cut hgap (s := .plain) rfl hcut hleft
  have hbefore (hstart : p.token.startsOperand = false) :
      ∃ front' q, front = front' ++ [q] ∧ q.Adjoins p := by
    rcases List.eq_nil_or_concat front with rfl | ⟨front', q, rfl⟩
    · rw [h.startsOperand_of_mem p rfl] at hstart
      cases hstart
    · have hsplit : front'.concat q ++ p :: rest = front' ++ q :: p :: rest := by simp
      exact ⟨front', q, by simp,
        List.isChain_iff_forall_rel_of_append_cons_cons.1 h.adjoins hsplit⟩
  rcases Token.Spells.of_equals (hspelling ▸ p.spells) htoken with ⟨rfl, rfl, ht⟩ | ⟨c, hc, rfl⟩
    | ⟨rfl, ht⟩
  · refine .inr (.inl ⟨rfl, ?_⟩)
    obtain ⟨front', q, rfl, hadjoins⟩ := hbefore (by rw [ht]; rfl)
    have hends : q.token.endsOperand = true := by
      rcases hadjoins with ⟨hends, -⟩ | ⟨-, hstart | hparen | hbracket⟩ | ⟨-, hopen⟩ |
        ⟨-, hassign, -⟩
      · exact hends
      all_goals simp_all [Token.startsOperand]
    refine forall_mem_getLast?_append ?_ ?_
    · rw [Piece.getLast?_texts (p := q) (by simp)]
      exact q.spells.getLast?_of_endsOperand hends
    · rw [List.append_nil]
      exact fun c hc => Token.not_compoundOperator_of_separator
        (p.isSeparator_of_mem_gap c (List.mem_of_mem_getLast? hc))
  · exact .inl ⟨Piece.texts front ++ p.gap, c, hc, by simp⟩
  · obtain ⟨front', q, rfl, hadjoins⟩ := hbefore (by rw [ht]; rfl)
    have hbang : q.token = .bang := by
      rcases hadjoins with ⟨-, hfollows⟩ | ⟨-, hstart | hparen | hbracket⟩ | ⟨-, hopen⟩ |
        ⟨hbang, -, -⟩
      · rw [ht] at hfollows
        cases hfollows
      · rw [ht] at hstart
        cases hstart
      · simp_all
      · simp_all
      · simp_all
      · exact hbang
    refine .inr (.inr ⟨front', q, p.gap, ?_, hps.left_of_append, hbang, p.isSeparator_of_mem_gap,
      by simp⟩)
    rintro rfl
    exact h.second_ne_assign p rfl ht

/-- No arithmetic operator stands right before an equals sign. -/
lemma getLast?_of_cut {e : Expr} {ps : List Piece} {gap left right : List Char} (h : Forms e ps)
    (hps : ps.IsChain Piece.EndsBefore) (hgap : ∀ c ∈ gap, Token.isSeparator c = true)
    (hcut : Piece.texts ps ++ gap = left ++ '=' :: right)
    (hleft : (Spot.plain.after left).isText = false) :
    ∀ c ∈ left.getLast?, c ∉ Statement.compoundOperators := by
  rcases h.cases_of_cut hps hgap hcut hleft with ⟨front, c, hc, rfl⟩ | ⟨-, hlast⟩
    | ⟨front, q, gap', -, -, hbang, hgap', rfl⟩
  · rw [List.getLast?_concat]
    rintro _ ⟨⟩
    have hall : ∀ c ∈ ['=', '!', '<', '>'], c ∉ Statement.compoundOperators :=
      List.all_iff_forall_prop.1 (by decide)
    exact hall c hc
  · exact hlast
  · refine forall_mem_getLast?_append ?_ ?_
    · rw [Piece.getLast?_texts (p := q) (by simp)]
      exact Token.Spells.getLast?_of_bang (hbang ▸ q.spells)
    · exact fun c hc =>
        Token.not_compoundOperator_of_separator (hgap' c (List.mem_of_mem_getLast? hc))

end Forms

/-! ### Cutting at equals signs -/

namespace Text

open Spot

lemma outsideFrom_append (s : Spot) (t u : List Char) :
    outsideFrom s.isText (t ++ u) = outsideFrom s.isText t ++ outsideFrom (s.after t).isText u := by
  induction t generalizing s with
  | nil => rfl
  | cons c t ih =>
    have hnext := ih (s.next c)
    rw [isText_next] at hnext
    simp only [List.cons_append, outsideFrom, after_cons]
    split_ifs at hnext ⊢
    · exact hnext
    · exact hnext
    · rw [hnext, List.cons_append]

/-- A character outside text literals is the last one outside them. -/
lemma outside_concat {front : List Char} {c : Char} (hc : c ≠ '"')
    (h : (plain.after (front ++ [c])).isText = false) :
    outside (front ++ [c]) = outside front ++ [c] := by
  rw [after_append, after_cons, after_nil, isText_next, if_neg hc] at h
  have happend := outsideFrom_append plain front [c]
  rw [h] at happend
  change outside (front ++ [c]) = outside front ++ outsideFrom false [c] at happend
  rw [happend]
  simp [outsideFrom, hc]

lemma mem_of_mem_outsideFrom {inText : Bool} {t : List Char} {c : Char}
    (h : c ∈ outsideFrom inText t) : c ∈ t := by
  induction t generalizing inText with
  | nil => cases h
  | cons d t ih =>
    simp only [outsideFrom] at h
    split_ifs at h
    · exact List.mem_cons_of_mem _ (ih h)
    · exact List.mem_cons_of_mem _ (ih h)
    · rcases List.mem_cons.1 h with rfl | h
      · exact List.mem_cons_self
      · exact List.mem_cons_of_mem _ (ih h)

/-- An end without equals signs does not make a text start with one. -/
lemma head?_outside_append {v : List Char} (hequals : '=' ∉ v) (t : List Char) :
    (outside (t ++ v)).head? = some '=' ↔ (outside t).head? = some '=' := by
  have happend := outsideFrom_append plain t v
  change outside (t ++ v) = outside t ++ _ at happend
  rw [happend]
  cases houtside : outside t with
  | cons c rest => rfl
  | nil =>
    rw [List.nil_append]
    refine iff_of_false (fun h => ?_) (by simp)
    exact hequals (mem_of_mem_outsideFrom (List.mem_of_mem_head? h))

end Text

namespace Statement

open Text

lemma assigns_eq_true_iff {previous next : Option Char} :
    assigns previous next = true
      ↔ (∀ c ∈ previous, c ∉ ['=', '!', '<', '>']) ∧ next ≠ some '=' := by
  cases previous <;> simp [assigns]

/-- The `=` that a text is cut at assigns. -/
lemma assigns_of_cutAtAssign? {inText : Bool} {previous : Option Char} {t left right : List Char}
    (h : cutAtAssign? inText previous t = some (left, right)) :
    assigns ((outsideFrom inText left).getLast?.or previous) (outside right).head? = true := by
  induction t generalizing inText previous left with
  | nil => cases h
  | cons c t ih =>
    simp only [cutAtAssign?] at h
    split_ifs at h with hquote htext hc
    · obtain ⟨⟨left, right⟩, hcut, heq⟩ := Option.map_eq_some_iff.1 h
      cases heq
      simpa [outsideFrom, hquote] using ih hcut
    · obtain ⟨⟨left, right⟩, hcut, heq⟩ := Option.map_eq_some_iff.1 h
      cases heq
      simpa [outsideFrom, hquote, htext] using ih hcut
    · cases h
      exact hc.2
    · obtain ⟨⟨left, right⟩, hcut, heq⟩ := Option.map_eq_some_iff.1 h
      cases heq
      rw [Bool.not_eq_true] at htext
      subst htext
      rw [outsideFrom, if_neg hquote, if_neg Bool.false_ne_true, getLast?_cons_or]
      exact ih hcut

/-- A text is not cut exactly if no `=` outside text literals assigns. -/
lemma cutAtAssign?_eq_none_iff {inText : Bool} {previous : Option Char} {t : List Char} :
    cutAtAssign? inText previous t = none
      ↔ ∀ front rest, outsideFrom inText t = front ++ '=' :: rest →
          assigns (front.getLast?.or previous) rest.head? = false := by
  induction t generalizing inText previous with
  | nil => simp [cutAtAssign?, outsideFrom]
  | cons c t ih =>
    simp only [cutAtAssign?, outsideFrom]
    split_ifs with hquote htext hc
    · rw [Option.map_eq_none_iff, ih]
    · rw [Option.map_eq_none_iff, ih, htext]
    · obtain ⟨rfl, hassigns⟩ := hc
      simp only [Bool.not_eq_true] at htext
      subst htext
      constructor
      · intro h
        cases h
      · intro h
        have hfirst := h [] (outside t) rfl
        rw [List.getLast?_nil, Option.none_or, hassigns] at hfirst
        cases hfirst
    · simp only [Bool.not_eq_true] at htext
      subst htext
      rw [Option.map_eq_none_iff, ih]
      refine ⟨fun h front rest heq => ?_, fun h front rest heq => ?_⟩
      · cases front with
        | nil =>
          obtain ⟨rfl, rfl⟩ : c = '=' ∧ outsideFrom false t = rest := by simpa using heq
          simpa [outside] using hc
        | cons d front =>
          obtain ⟨rfl, hrest⟩ : c = d ∧ outsideFrom false t = front ++ '=' :: rest := by
            simpa using heq
          rw [getLast?_cons_or]
          exact h front rest hrest
      · rw [← getLast?_cons_or c front previous]
        exact h (c :: front) rest (by rw [heq]; rfl)

lemma cutAtEquals?_append {front : List Char} (hquote : '"' ∉ front) (hequals : '=' ∉ front)
    (t : List Char) :
    cutAtEquals? false (front ++ t)
      = (cutAtEquals? false t).map fun (left, right) => (front ++ left, right) := by
  induction front with
  | nil => simp
  | cons c front ih =>
    rw [List.mem_cons, not_or] at hquote hequals
    rw [List.cons_append, cutAtEquals?, if_neg fun hc => hequals.1 hc.1.symm,
      if_neg (Ne.symm hquote.1), ih hquote.2 hequals.2, Option.map_map]
    rfl

lemma cutAtAssign?_append {front : List Char} (hquote : '"' ∉ front) (hequals : '=' ∉ front)
    (previous : Option Char) (t : List Char) :
    cutAtAssign? false previous (front ++ t)
      = (cutAtAssign? false (front.getLast?.or previous) t).map
          fun (left, right) => (front ++ left, right) := by
  induction front generalizing previous with
  | nil => simp
  | cons c front ih =>
    rw [List.mem_cons, not_or] at hquote hequals
    have hc : ¬ (c = '=' ∧ assigns previous (outside (front ++ t)).head? = true) :=
      fun hc => hequals.1 hc.1.symm
    simp only [List.cons_append, cutAtAssign?, if_neg (Ne.symm hquote.1), if_neg hc,
      ih hquote.2 hequals.2, getLast?_cons_or, Option.map_map, Bool.false_eq_true, if_false]
    rfl

/-- An end without equals signs does not change where a text is cut. -/
lemma cutAtAssign?_append_of_not_mem {v : List Char} (hequals : '=' ∉ v) (inText : Bool)
    (previous : Option Char) (t : List Char) :
    cutAtAssign? inText previous (t ++ v)
      = (cutAtAssign? inText previous t).map fun (left, right) => (left, right ++ v) := by
  induction t generalizing inText previous with
  | nil => exact cutAtAssign?_eq_none hequals inText previous
  | cons c t ih =>
    have hassigns :
        assigns previous (outside (t ++ v)).head? = assigns previous (outside t).head? := by
      have hhead := head?_outside_append hequals t
      simp only [assigns]
      by_cases h : (outside t).head? = some '='
      · rw [h, hhead.2 h]
      · have h' : (outside (t ++ v)).head? ≠ some '=' := mt hhead.1 h
        rw [bne_iff_ne.2 h, bne_iff_ne.2 h']
    simp only [List.cons_append, cutAtAssign?, ih, hassigns]
    split_ifs
    · simp only [Option.map_map]
      rfl
    · simp only [Option.map_map]
      rfl
    · rfl
    · simp only [Option.map_map]
      rfl

end Statement

end Reckoner
