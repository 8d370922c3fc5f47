import Reckoner.Proofs.Form.Basic

/-!
# Pieces that stand next to each other

Next to each other in an expression are only tokens of which the one ends an operand and the other
one does not start one, or the other way round. Such neighbours are read apart from each other,
provided that no word goes on in the piece behind it.
-/

namespace Reckoner

/-- Whether a piece can stand right before another one in an expression. -/
def Piece.Adjoins (p q : Piece) : Prop :=
  (p.token.endsOperand = true ∧ q.token.followsOperand = true)
    ∨ (p.token.awaitsOperand = true
        ∧ (q.token.startsOperand = true ∨ q.token = .closeParen ∨ q.token = .closeBracket))
    ∨ ((∃ name, p.token = .identifier name) ∧ q.token = .openParen)
    ∨ (p.token = .bang ∧ q.token = .assign ∧ p.EndsBefore q)

namespace Forms

open Piece (Adjoins)

lemma startsOperand_of_mem {e : Expr} {ps : List Piece} (h : Forms e ps) :
    ∀ p ∈ ps.head?, p.token.startsOperand = true := by
  intro p hp
  obtain ⟨p', hp', hstart⟩ := h.head
  rwa [Option.mem_unique hp hp']

lemma endsOperand_of_mem {e : Expr} {ps : List Piece} (h : Forms e ps) :
    ∀ p ∈ ps.getLast?, p.token.endsOperand = true := by
  intro p hp
  obtain ⟨p', hp', hend⟩ := h.last
  rwa [Option.mem_unique hp hp']

end Forms

lemma forall_mem_getLast?_append {α : Type} {P : α → Prop} {l l' : List α}
    (h : ∀ a ∈ l.getLast?, P a) (h' : ∀ a ∈ l'.getLast?, P a) : ∀ a ∈ (l ++ l').getLast?, P a := by
  intro a ha
  rw [List.getLast?_append, Option.mem_def, Option.or_eq_some_iff] at ha
  rcases ha with ha | ⟨-, ha⟩
  · exact h' a ha
  · exact h a ha

namespace RestForms

lemma token_of_mem {es : List Expr} {ps : List Piece} (h : RestForms es ps) :
    ∀ p ∈ ps.head?, p.token = .comma := by
  cases h with
  | nil => simp
  | cons hp h hes =>
    rintro _ ⟨⟩
    exact hp

lemma endsOperand_of_mem {es : List Expr} {ps : List Piece} (h : RestForms es ps) :
    ∀ p ∈ ps.getLast?, p.token.endsOperand = true := by
  induction es generalizing ps with
  | nil =>
    cases h
    simp
  | cons e es ih =>
    cases h with
    | @cons _ _ p ps qs hp h hes =>
      rw [List.getLast?_cons_of_ne_nil (by simp [h.ne_nil])]
      exact forall_mem_getLast?_append h.endsOperand_of_mem (ih hes)

end RestForms

namespace ListForms

lemma startsOperand_of_mem {es : List Expr} {ps : List Piece} (h : ListForms es ps) :
    ∀ p ∈ ps.head?, p.token.startsOperand = true := by
  cases h with
  | nil => simp
  | cons h hes =>
    rw [List.head?_append_of_ne_nil _ h.ne_nil]
    exact h.startsOperand_of_mem

lemma endsOperand_of_mem {es : List Expr} {ps : List Piece} (h : ListForms es ps) :
    ∀ p ∈ ps.getLast?, p.token.endsOperand = true := by
  cases h with
  | nil => simp
  | cons h hes => exact forall_mem_getLast?_append h.endsOperand_of_mem hes.endsOperand_of_mem

end ListForms

lemma isChain_of_isChain {α : Type} {R S T : α → α → Prop} {l : List α} (hR : l.IsChain R)
    (hS : l.IsChain S) (h : ∀ a b, R a b → S a b → T a b) : l.IsChain T := by
  induction hR with
  | nil => exact .nil
  | singleton a => exact .singleton a
  | cons_cons hab _ ih =>
    cases hS with
    | cons_cons hab' hS => exact .cons_cons (h _ _ hab hab') (ih hS)

/-- A chain in brackets. -/
lemma isChain_bracketed {α : Type} {R : α → α → Prop} {p q : α} {ps : List α} (hps : ps.IsChain R)
    (hp : ∀ x ∈ (ps ++ [q]).head?, R p x) (hq : ∀ x ∈ ps.getLast?, R x q) :
    (p :: (ps ++ [q])).IsChain R :=
  (hps.append (.singleton q) fun x hx y hy => by
    obtain rfl : q = y := by simpa using hy
    exact hq x hx).cons hp

namespace OperatorForms

open Piece (Adjoins)

variable {op : BinaryOperator} {ps : List Piece}

lemma head (h : OperatorForms op ps) : ∃ p ∈ ps.head?, p.token.followsOperand = true := by
  cases h with
  | @single _ p hp => exact ⟨p, rfl, by rw [hp]; rfl⟩
  | @double p q hp hq h => exact ⟨p, rfl, by rw [hp]; rfl⟩

lemma last (h : OperatorForms op ps) : ∃ p ∈ ps.getLast?, p.token.awaitsOperand = true := by
  cases h with
  | @single _ p hp => exact ⟨p, rfl, by rw [hp]; rfl⟩
  | @double p q hp hq h => exact ⟨q, rfl, by rw [hq]; rfl⟩

lemma adjoins (h : OperatorForms op ps) : ps.IsChain Adjoins := by
  cases h with
  | single hp => exact .singleton _
  | double hp hq h => exact .cons_cons (.inr (.inr (.inr ⟨hp, hq, h⟩))) (.singleton _)

lemma ne_nil (h : OperatorForms op ps) : ps ≠ [] := by
  cases h <;> simp

end OperatorForms

namespace Piece.Adjoins

variable {p q : Piece}

lemma behind (hp : p.token.endsOperand = true) (hq : q.token.followsOperand = true) : Adjoins p q :=
  .inl ⟨hp, hq⟩

lemma before (hp : p.token.awaitsOperand = true) (hq : q.token.startsOperand = true) :
    Adjoins p q :=
  .inr (.inl ⟨hp, .inl hq⟩)

end Piece.Adjoins

namespace Forms

open Piece (Adjoins)

lemma adjoins_list {p q : Piece} {es : List Expr} {ps : List Piece} (h : ListForms es ps)
    (hchain : ps.IsChain Adjoins) (hp : p.token.awaitsOperand = true)
    (hq : q.token = .closeParen ∨ q.token = .closeBracket) :
    (p :: (ps ++ [q])).IsChain Adjoins := by
  refine isChain_bracketed hchain ?_ ?_
  · cases ps with
    | nil =>
      rintro _ ⟨⟩
      exact .inr (.inl ⟨hp, .inr hq⟩)
    | cons p' ps => exact fun x hx => .before hp (h.startsOperand_of_mem x hx)
  · intro x hx
    refine .behind (h.endsOperand_of_mem x hx) ?_
    rcases hq with hq | hq <;> rw [hq] <;> rfl

mutual

/-- The neighbours in an expression go together. -/
lemma adjoins {e : Expr} {ps : List Piece} (h : Forms e ps) : ps.IsChain Adjoins := by
  cases e with
  | number x =>
    cases h with
    | number hp => exact .singleton _
    | signed hp hq =>
      exact .cons_cons (.before (by rw [hp]; rfl) (by rw [hq]; rfl)) (.singleton _)
  | text s =>
    cases h
    exact .singleton _
  | identifier name =>
    cases h
    exact .singleton _
  | group e =>
    cases h with
    | group hp h hq =>
      refine isChain_bracketed (adjoins h) ?_ ?_
      · rw [List.head?_append_of_ne_nil _ h.ne_nil]
        exact fun x hx => .before (by rw [hp]; rfl) (h.startsOperand_of_mem x hx)
      · exact fun x hx => .behind (h.endsOperand_of_mem x hx) (by rw [hq]; rfl)
  | call name args =>
    cases h with
    | call hn hp h hq =>
      refine (adjoins_list h (listAdjoins h) (by rw [hp]; rfl) (.inl hq)).cons ?_
      rintro _ ⟨⟩
      exact .inr (.inr (.inl ⟨⟨name, hn⟩, hp⟩))
  | vector items =>
    cases h with
    | vector hp h hq => exact adjoins_list h (listAdjoins h) (by rw [hp]; rfl) (.inr hq)
  | unary op e =>
    cases h with
    | negate hp h hps =>
      exact (adjoins h).cons fun x hx => .before (by rw [hp]; rfl) (h.startsOperand_of_mem x hx)
    | not hp h =>
      exact (adjoins h).cons fun x hx => .before (by rw [hp]; rfl) (h.startsOperand_of_mem x hx)
  | binary op l r =>
    cases h with
    | binary hl ho hr =>
      obtain ⟨p, hp, hfollows⟩ := ho.head
      obtain ⟨q, hq, hawaits⟩ := ho.last
      refine (adjoins hl).append (ho.adjoins.append (adjoins hr) ?_) ?_
      · intro x hx y hy
        rw [Option.mem_unique hx hq]
        exact .before hawaits (hr.startsOperand_of_mem y hy)
      · intro x hx y hy
        rw [List.head?_append_of_ne_nil _ ho.ne_nil] at hy
        rw [Option.mem_unique hy hp]
        exact .behind (hl.endsOperand_of_mem x hx) hfollows
  | conditional c t e =>
    cases h with
    | conditional hc hq ht hk he =>
      refine (adjoins hc).append (((adjoins ht).append ((adjoins he).cons ?_) ?_).cons ?_) ?_
      · exact fun x hx => .before (by rw [hk]; rfl) (he.startsOperand_of_mem x hx)
      · rintro x hx _ ⟨⟩
        exact .behind (ht.endsOperand_of_mem x hx) (by rw [hk]; rfl)
      · intro x hx
        rw [List.head?_append_of_ne_nil _ ht.ne_nil] at hx
        exact .before (by rw [hq]; rfl) (ht.startsOperand_of_mem x hx)
      · rintro x hx _ ⟨⟩
        exact .behind (hc.endsOperand_of_mem x hx) (by rw [hq]; rfl)
termination_by structural e

lemma listAdjoins {es : List Expr} {ps : List Piece} (h : ListForms es ps) :
    ps.IsChain Adjoins := by
  cases es with
  | nil =>
    cases h
    exact .nil
  | cons e es =>
    cases h with
    | cons h hes =>
      refine (adjoins h).append (restAdjoins hes) ?_
      intro x hx y hy
      refine .behind (h.endsOperand_of_mem x hx) ?_
      rw [hes.token_of_mem y hy]
      rfl
termination_by structural es

lemma restAdjoins {es : List Expr} {ps : List Piece} (h : RestForms es ps) :
    ps.IsChain Adjoins := by
  cases es with
  | nil =>
    cases h
    exact .nil
  | cons e es =>
    cases h with
    | cons hp h hes =>
      refine ((adjoins h).append (restAdjoins hes) ?_).cons ?_
      · intro x hx y hy
        refine .behind (h.endsOperand_of_mem x hx) ?_
        rw [hes.token_of_mem y hy]
        rfl
      · intro x hx
        rw [List.head?_append_of_ne_nil _ h.ne_nil] at hx
        exact .before (by rw [hp]; rfl) (h.startsOperand_of_mem x hx)
termination_by structural es

end

end Forms

namespace Token

lemma isNumber_of_awaitsOperand {t : Token} (h : t.awaitsOperand = true) : t.isNumber = false := by
  cases t <;> first | rfl | cases h

/-- A token behind an operand does not go on with a number. -/
lemma continuesNumeral_eq_false {c : Char} {w : List Char} {t : Token} (h : Spells (c :: w) t)
    (ht : t.followsOperand = true) : Decimal.continuesNumeral c = false := by
  have hletter : ∀ {d : Char}, IsFirst d → startsIdentifier d = false →
      Decimal.continuesNumeral d = false := by
    intro d hd hstart
    have he : d ≠ 'e' := by
      rintro rfl
      exact absurd hstart (by decide)
    have hE : d ≠ 'E' := by
      rintro rfl
      exact absurd hstart (by decide)
    simp [Decimal.continuesNumeral, hd.digit, hd.point, he, hE]
  generalize htext : c :: w = text at h
  cases h with
  | number hn => cases ht
  | text hs => cases ht
  | @word c' w' hc hw =>
    cases htext
    -- only the three operators that are words follow an operand
    simp only [ofWord] at ht
    obtain ⟨hdigit, hpoint, -, -⟩ := isFirst_of_startsIdentifier hc
    have hlower : ∀ s : String, String.ofList ((c :: w).map Char.toLower) = s →
        s.toList.head? = some c.toLower := by
      rintro s rfl
      simp
    have hc' : c.toLower = 'a' ∨ c.toLower = 'o' ∨ c.toLower = 'n' := by
      split_ifs at ht with hand hor hnot
      · simpa [eq_comm] using Or.inl (hlower _ hand)
      · have := hlower _ hor
        simp at this
        simp [← this]
      · have := hlower _ hnot
        simp at this
        simp [← this]
      · cases ht
    have he : c ≠ 'e' := by
      rintro rfl
      exact absurd hc' (by decide)
    have hE : c ≠ 'E' := by
      rintro rfl
      exact absurd hc' (by decide)
    simp [Decimal.continuesNumeral, hdigit, hpoint, he, hE]
  | pair hp =>
    cases htext
    exact hletter (isFirst_of_ofPair hp).1 (isFirst_of_ofPair hp).2
  | mark hm =>
    cases htext
    exact hletter (isFirst_of_ofChar hm).1 (isFirst_of_ofChar hm).2

/-- What could go on with a mark starts no operand and closes no bracket. -/
lemma startsOperand_eq_false {c c' : Char} {w : List Char} {t : Token} (h : Spells (c :: w) t)
    (hc : (ofPair c' c).isSome = true) :
    t.startsOperand = false ∧ t ≠ .closeParen ∧ t ≠ .closeBracket := by
  have hset : c = '&' ∨ c = '|' ∨ c = '<' ∨ c = '>' ∨ c = '=' := by
    unfold ofPair at hc
    split at hc
    all_goals first | decide | cases hc
  generalize htext : c :: w = text at h
  cases h with
  | number hn =>
    obtain ⟨w', hw', -, -, hchars⟩ := Decimal.exists_of_takeNumeral hn
    have := hchars c (by
      rw [List.append_nil] at hw'
      rw [← hw', ← htext]
      exact List.mem_cons_self)
    rcases hset with rfl | rfl | rfl | rfl | rfl <;> cases this
  | text hs =>
    cases htext
    exact absurd hset (by decide)
  | word hstart hw =>
    cases htext
    rcases hset with rfl | rfl | rfl | rfl | rfl <;> exact absurd hstart (by decide)
  | pair hp =>
    cases htext
    unfold ofPair at hp
    split at hp
    all_goals first | cases hp; exact ⟨rfl, by simp, by simp⟩ | cases hp
  | mark hm =>
    cases htext
    rcases hset with rfl | rfl | rfl | rfl | rfl <;> cases hm <;> exact ⟨rfl, by simp, by simp⟩

/-- When a spelling does not go on with a character: by the kind of the token. -/
lemma goesOn_eq_false {w : List Char} {t : Token} {c : Char} (h : Spells w t)
    (hnumber : t.isNumber = true → Decimal.continuesNumeral c = false)
    (hword : w.head?.any startsIdentifier = true → continuesIdentifier c = false)
    (hmark : ∀ d, ofChar d = some t → ofPair d c = none) : goesOn w c = false := by
  cases h with
  | number hn =>
    obtain ⟨w', hw', -, ⟨d, hd, hfirst⟩, -⟩ := Decimal.exists_of_takeNumeral hn
    rw [List.append_nil] at hw'
    subst hw'
    cases w with
    | nil => cases hd
    | cons d' w =>
      obtain rfl : d' = d := by simpa using hd
      have hd : (d'.isDigit || d' == '.') = true := by simpa using hfirst
      simpa only [goesOn, hd, if_true] using hnumber rfl
  | text hs => rfl
  | word hc hw =>
    rw [goesOn_word hc]
    exact hword (by simpa using hc)
  | pair hp => exact goesOn_pair hp c
  | mark hm =>
    rw [goesOn_mark hm, hmark _ hm]
    rfl

end Token

namespace Piece

/-- Whether no word, and no closing parenthesis, stands right before a character that could go on
with a word. -/
def Apart (p q : Piece) : Prop :=
  p.isWord = true ∨ p.token = .closeParen →
    ∀ c ∈ q.text.head?, Token.continuesIdentifier c = false

/-- Pieces that go together do not run into each other, unless the first one is a word. -/
lemma Adjoins.endsBefore {p q : Piece} (h : p.Adjoins q)
    (hapart : p.Apart q) : p.EndsBefore q := by
  intro c hc
  by_cases hgap : q.gap = []
  · obtain ⟨w, hw⟩ : ∃ w, q.spelling = c :: w := by
      rw [text, hgap, List.nil_append] at hc
      exact ⟨q.spelling.tail, (List.cons_head?_tail hc).symm⟩
    have hq : Token.Spells (c :: w) q.token := hw ▸ q.spells
    have hword' : p.spelling.head?.any Token.startsIdentifier = true →
        Token.continuesIdentifier c = false := fun h => hapart (.inl h) c hc
    rcases h with ⟨hp, hfollows⟩ | ⟨hp, hnext⟩ | ⟨⟨name, hp⟩, hopen⟩ | ⟨-, -, h⟩
    · refine Token.goesOn_eq_false p.spells (fun _ => ?_) hword' fun d hd => ?_
      · exact Token.continuesNumeral_eq_false hq hfollows
      · unfold Token.ofChar at hd
        split at hd
        all_goals first
          | rfl
          | (rw [← Option.some.inj hd] at hp; cases hp)
          | cases hd
    · refine Token.goesOn_eq_false p.spells (fun hnumber => ?_) hword' fun d hd => ?_
      · rw [Token.isNumber_of_awaitsOperand hp] at hnumber
        cases hnumber
      · by_contra hsome
        rw [← ne_eq, ← Option.isSome_iff_ne_none] at hsome
        obtain ⟨hstart, hparen, hbracket⟩ := Token.startsOperand_eq_false hq hsome
        rcases hnext with hnext | hnext | hnext
        · rw [hstart] at hnext
          cases hnext
        · exact hparen hnext
        · exact hbracket hnext
    · refine Token.goesOn_eq_false p.spells (fun hnumber => ?_) hword' fun d hd => ?_
      · rw [hp] at hnumber
        cases hnumber
      · rw [hp] at hd
        unfold Token.ofChar at hd
        split at hd <;> cases hd
    · exact h c hc
  · obtain ⟨d, gap, hd⟩ := List.exists_cons_of_ne_nil hgap
    rw [text, hd, List.cons_append] at hc
    obtain rfl : d = c := by simpa using hc
    refine Token.goesOn_of_separator (q.isSeparator_of_mem_gap d ?_) _
    rw [hd]
    exact List.mem_cons_self

end Piece

end Reckoner
