import Reckoner.Proofs.Form.Signs

/-!
# From tokens to forms

The pieces of a text that has been read as an expression form it, and whatever forms an expression
is read as that expression.
-/

namespace Reckoner

namespace Token

open Piece (EndsBefore)

lemma Spells.ne_negate {w : List Char} {t : Token} (h : Spells w t) : t ≠ .negate := by
  rintro rfl
  generalize ht : negate = t at h
  cases h with
  | number hn => cases ht
  | text hs => cases ht
  | word hc hw =>
    simp only [ofWord] at ht
    split_ifs at ht
  | pair hp =>
    subst ht
    unfold ofPair at hp
    split at hp <;> cases hp
  | mark hm =>
    subst ht
    unfold ofChar at hm
    split at hm <;> cases hm

lemma resolve_ne_nil (previous : Option Token) (t : Token) (ts : List Token) :
    resolve previous (t :: ts) ≠ [] := by
  rw [resolve.eq_def]
  split
  · rename_i heq
    cases heq
  · split <;> simp
  all_goals simp

/-- Where the first of the resolved tokens comes from. -/
lemma exists_of_resolve {previous : Option Token} {ps : List Piece} {t : Token} {ts : List Token}
    (h : resolve previous (ps.map Piece.token) = t :: ts) :
    (∃ p qs, ps = p :: qs ∧ p.token = t ∧ resolve (some t) (qs.map Piece.token) = ts)
      ∨ (∃ p q qs x, ps = p :: q :: qs ∧ p.token = .binary .sub ∧ q.token = .number x
          ∧ t = .number (-x) ∧ resolve (some t) (qs.map Piece.token) = ts)
      ∨ (∃ p qs, ps = p :: qs ∧ p.token = .binary .sub ∧ t = .negate
          ∧ (∀ q ∈ qs.head?, q.token.isNumber = false)
          ∧ resolve (some t) (qs.map Piece.token) = ts)
      ∨ ∃ p q qs, ps = p :: q :: qs ∧ p.token = .bang ∧ q.token = .assign
          ∧ t = .binary .notEqual ∧ resolve (some t) (qs.map Piece.token) = ts := by
  cases ps with
  | nil => cases h
  | cons p qs =>
    rw [List.map_cons] at h
    by_cases hsub : p.token = .binary .sub
    · rw [hsub] at h
      cases hsign : isSign previous with
      | false =>
        rw [resolve_sub_behind hsign] at h
        cases h
        exact .inl ⟨p, qs, rfl, hsub, rfl⟩
      | true =>
        by_cases hnumber : ∀ q ∈ qs.head?, q.token.isNumber = false
        · rw [resolve_negate hsign (forall_head?_map_token hnumber)] at h
          cases h
          exact .inr (.inr (.inl ⟨p, qs, rfl, hsub, rfl, hnumber, rfl⟩))
        · cases qs with
          | nil => exact absurd (by simp) hnumber
          | cons q qs =>
            cases hq : q.token with
            | number x =>
              rw [List.map_cons, hq, resolve_sub_number hsign] at h
              cases h
              exact .inr (.inl ⟨p, q, qs, x, rfl, hsub, hq, rfl, rfl⟩)
            | _ =>
              refine absurd ?_ hnumber
              rintro _ ⟨⟩
              rw [hq]
              rfl
    · by_cases hbang : p.token = .bang
      · rw [hbang] at h
        by_cases hassign : ∀ q ∈ qs.head?, q.token ≠ .assign
        · rw [resolve_bang (forall_head?_map_token hassign)] at h
          cases h
          exact .inl ⟨p, qs, rfl, hbang, rfl⟩
        · cases qs with
          | nil => exact absurd (by simp) hassign
          | cons q qs =>
            have hq : q.token = .assign := by
              by_contra hq
              refine hassign ?_
              rintro _ ⟨⟩
              exact hq
            rw [List.map_cons, hq, resolve] at h
            cases h
            exact .inr (.inr (.inr ⟨p, q, qs, rfl, hbang, hq, rfl, rfl⟩))
      · rw [resolve_other hsub hbang] at h
        cases h
        exact .inl ⟨p, qs, rfl, rfl, rfl⟩

/-- A token that resolving leaves as it is comes from a piece of its own. -/
lemma exists_of_resolve_plain {previous : Option Token} {ps : List Piece} {t : Token}
    {ts : List Token} (hnumber : t.isNumber = false) (hnegate : t ≠ .negate)
    (hequal : t ≠ .binary .notEqual) (h : resolve previous (ps.map Piece.token) = t :: ts) :
    ∃ p qs, ps = p :: qs ∧ p.token = t ∧ resolve (some t) (qs.map Piece.token) = ts := by
  rcases exists_of_resolve h with h | ⟨p, q, qs, x, -, -, -, rfl, -⟩ | ⟨p, qs, -, -, ht, -⟩
    | ⟨p, q, qs, -, -, -, ht, -⟩
  · exact h
  · cases hnumber
  · exact absurd ht hnegate
  · exact absurd ht hequal

end Token

namespace Forms

open Token (resolve isSign)

/-- What reading a text tells about its pieces: nothing but a number could go on behind its own. -/
abbrev Separate (ps : List Piece) : Prop :=
  ps.IsChain fun p q => p.token.isNumber = false → p.EndsBefore q

mutual

/-- Pieces whose tokens resolve to those of an expression start with a form of it. -/
lemma exists_of_resolve (e : Expr) {ps : List Piece} {previous : Option Token} {ts : List Token}
    (hps : Separate ps) (h : resolve previous (ps.map Piece.token) = e.tokens ++ ts) :
    ∃ qs rs last, ps = qs ++ rs ∧ Forms e qs ∧ resolve last (rs.map Piece.token) = ts := by
  cases e with
  | number x =>
    rcases Token.exists_of_resolve h with ⟨p, qs, rfl, hp, hrest⟩
      | ⟨p, q, qs, y, rfl, hp, hq, hx, hrest⟩ | ⟨p, qs, -, -, ht, -⟩ | ⟨p, q, qs, -, -, -, ht, -⟩
    · exact ⟨[p], qs, _, rfl, .number hp, hrest⟩
    · cases hx
      exact ⟨[p, q], qs, _, rfl, .signed hp hq, hrest⟩
    · cases ht
    · cases ht
  | text s =>
    obtain ⟨p, qs, rfl, hp, hrest⟩ := Token.exists_of_resolve_plain rfl (by simp) (by simp) h
    exact ⟨[p], qs, _, rfl, .text hp, hrest⟩
  | identifier name =>
    obtain ⟨p, qs, rfl, hp, hrest⟩ := Token.exists_of_resolve_plain rfl (by simp) (by simp) h
    exact ⟨[p], qs, _, rfl, .identifier hp, hrest⟩
  | group e =>
    simp only [Expr.tokens, List.cons_append, List.append_assoc] at h
    obtain ⟨p, qs, rfl, hp, hinside⟩ := Token.exists_of_resolve_plain rfl (by simp) (by simp) h
    obtain ⟨es, rs, last, rfl, he, hrest⟩ := exists_of_resolve e hps.tail hinside
    obtain ⟨q, rs, rfl, hq, hrest⟩ := Token.exists_of_resolve_plain rfl (by simp) (by simp) hrest
    exact ⟨p :: (es ++ [q]), rs, _, by simp, .group hp he hq, hrest⟩
  | call name args =>
    simp only [Expr.tokens, List.cons_append, List.append_assoc] at h
    obtain ⟨n, qs, rfl, hn, hopen⟩ := Token.exists_of_resolve_plain rfl (by simp) (by simp) h
    obtain ⟨p, qs, rfl, hp, hinside⟩ := Token.exists_of_resolve_plain rfl (by simp) (by simp) hopen
    obtain ⟨as, rs, last, rfl, has, hrest⟩ := list_exists_of_resolve args hps.tail.tail hinside
    obtain ⟨q, rs, rfl, hq, hrest⟩ := Token.exists_of_resolve_plain rfl (by simp) (by simp) hrest
    exact ⟨n :: p :: (as ++ [q]), rs, _, by simp, .call hn hp has hq, hrest⟩
  | vector items =>
    simp only [Expr.tokens, List.cons_append, List.append_assoc] at h
    obtain ⟨p, qs, rfl, hp, hinside⟩ := Token.exists_of_resolve_plain rfl (by simp) (by simp) h
    obtain ⟨is, rs, last, rfl, his, hrest⟩ := list_exists_of_resolve items hps.tail hinside
    obtain ⟨q, rs, rfl, hq, hrest⟩ := Token.exists_of_resolve_plain rfl (by simp) (by simp) hrest
    exact ⟨p :: (is ++ [q]), rs, _, by simp, .vector hp his hq, hrest⟩
  | unary op e =>
    cases op with
    | negate =>
      rcases Token.exists_of_resolve h with ⟨p, qs, rfl, hp, -⟩ | ⟨p, q, qs, y, -, -, -, hx, -⟩
        | ⟨p, qs, rfl, hp, -, hnumber, hrest⟩ | ⟨p, q, qs, -, -, -, ht, -⟩
      · exact absurd hp p.spells.ne_negate
      · cases hx
      · obtain ⟨es, rs, last, rfl, he, hrest⟩ := exists_of_resolve e hps.tail hrest
        refine ⟨p :: es, rs, last, rfl, .negate hp he ?_, hrest⟩
        rwa [List.head?_append_of_ne_nil _ he.ne_nil] at hnumber
      · cases ht
    | not =>
      change resolve previous _ = .bang :: (e.tokens ++ ts) at h
      obtain ⟨p, qs, rfl, hp, hrest⟩ := Token.exists_of_resolve_plain rfl (by simp) (by simp) h
      obtain ⟨es, rs, last, rfl, he, hrest⟩ := exists_of_resolve e hps.tail hrest
      exact ⟨p :: es, rs, last, rfl, .not hp he, hrest⟩
  | binary op l r =>
    simp only [Expr.tokens, List.append_assoc, List.cons_append] at h
    obtain ⟨ls, qs, last, rfl, hl, hoperator⟩ := exists_of_resolve l hps h
    have hps := hps.right_of_append
    rcases Token.exists_of_resolve hoperator with ⟨p, qs, rfl, hp, hrest⟩
      | ⟨p, q, qs, y, -, -, -, hx, -⟩ | ⟨p, qs, -, -, ht, -⟩ | ⟨p, q, qs, rfl, hp, hq, ht, hrest⟩
    · obtain ⟨es, rs, last, rfl, hr, hrest⟩ := exists_of_resolve r hps.tail hrest
      exact ⟨ls ++ ([p] ++ es), rs, last, by simp, .binary hl (.single hp) hr, hrest⟩
    · cases hx
    · cases ht
    · obtain rfl : op = .notEqual := by simpa using ht
      have hdouble := hps.rel_head? (y := q) rfl (by rw [hp]; rfl)
      obtain ⟨es, rs, last, rfl, hr, hrest⟩ := exists_of_resolve r hps.tail.tail hrest
      exact ⟨ls ++ ([p, q] ++ es), rs, last, by simp, .binary hl (.double hp hq hdouble) hr, hrest⟩
  | conditional c t e =>
    simp only [Expr.tokens, List.append_assoc, List.cons_append] at h
    obtain ⟨cs, qs, last, rfl, hc, hquestion⟩ := exists_of_resolve c hps h
    have hps := hps.right_of_append
    obtain ⟨q, qs, rfl, hq, hrest⟩ := Token.exists_of_resolve_plain rfl (by simp) (by simp)
      hquestion
    obtain ⟨ts, qs, last, rfl, ht, hcolon⟩ := exists_of_resolve t hps.tail hrest
    have hps := hps.tail.right_of_append
    obtain ⟨k, qs, rfl, hk, hrest⟩ := Token.exists_of_resolve_plain rfl (by simp) (by simp) hcolon
    obtain ⟨es, rs, last, rfl, he, hrest⟩ := exists_of_resolve e hps.tail hrest
    exact ⟨cs ++ q :: (ts ++ k :: es), rs, last, by simp, .conditional hc hq ht hk he, hrest⟩
termination_by structural e

lemma list_exists_of_resolve (es : List Expr) {ps : List Piece} {previous : Option Token}
    {ts : List Token} (hps : Separate ps)
    (h : resolve previous (ps.map Piece.token) = Expr.listTokens es ++ ts) :
    ∃ qs rs last, ps = qs ++ rs ∧ ListForms es qs ∧ resolve last (rs.map Piece.token) = ts := by
  cases es with
  | nil => exact ⟨[], ps, _, rfl, .nil, h⟩
  | cons e es =>
    simp only [Expr.listTokens, List.append_assoc] at h
    obtain ⟨qs, rs, last, rfl, he, hrest⟩ := exists_of_resolve e hps h
    obtain ⟨qs', rs, last, rfl, hes, hrest⟩ := rest_exists_of_resolve es hps.right_of_append hrest
    exact ⟨qs ++ qs', rs, last, by simp, .cons he hes, hrest⟩
termination_by structural es

lemma rest_exists_of_resolve (es : List Expr) {ps : List Piece} {previous : Option Token}
    {ts : List Token} (hps : Separate ps)
    (h : resolve previous (ps.map Piece.token) = Expr.restTokens es ++ ts) :
    ∃ qs rs last, ps = qs ++ rs ∧ RestForms es qs ∧ resolve last (rs.map Piece.token) = ts := by
  cases es with
  | nil => exact ⟨[], ps, _, rfl, .nil, h⟩
  | cons e es =>
    simp only [Expr.restTokens, List.append_assoc, List.cons_append] at h
    obtain ⟨p, qs, rfl, hp, hrest⟩ := Token.exists_of_resolve_plain rfl (by simp) (by simp) h
    obtain ⟨qs, rs, last, rfl, he, hrest⟩ := exists_of_resolve e hps.tail hrest
    obtain ⟨qs', rs, last, rfl, hes, hrest⟩ :=
      rest_exists_of_resolve es hps.tail.right_of_append hrest
    exact ⟨p :: (qs ++ qs'), rs, last, by simp, .cons hp he hes, hrest⟩
termination_by structural es

end

/-- A text that is read as the tokens of an expression is a form of it. -/
lemma exists_of_tokenize {text : List Char} {e : Expr} (h : Token.tokenize text = .ok e.tokens) :
    ∃ ps gap, text = Piece.texts ps ++ gap ∧ (∀ c ∈ gap, Token.isSeparator c = true)
      ∧ Forms e ps ∧ Separate ps := by
  cases hscan : Token.scan text with
  | error err =>
    rw [Token.tokenize, hscan] at h
    cases h
  | ok raw =>
    obtain ⟨ps, gap, htext, hgap, rfl, hps⟩ := Token.exists_pieces_of_scan hscan
    rw [Token.tokenize, hscan] at h
    have hresolve : resolve none (ps.map Piece.token) = e.tokens ++ [] := by
      rw [List.append_nil]
      exact Except.ok.inj h
    obtain ⟨qs, rs, last, rfl, he, hrest⟩ := exists_of_resolve e hps hresolve
    cases rs with
    | nil =>
      rw [List.append_nil] at htext hps
      exact ⟨qs, gap, htext, hgap, he, hps⟩
    | cons r rs => exact absurd hrest (Token.resolve_ne_nil _ _ _)

/-- A form of an expression none of whose pieces goes on in the next one is read as its tokens. -/
lemma tokenize_of_endsBefore {e : Expr} {ps : List Piece} {gap : List Char} (h : Forms e ps)
    (hps : ps.IsChain Piece.EndsBefore) (hgap : ∀ c ∈ gap, Token.isSeparator c = true) :
    Token.tokenize (Piece.texts ps ++ gap) = .ok e.tokens := by
  obtain ⟨last, -, hresolve⟩ := resolve_eq h none rfl []
  rw [List.append_nil] at hresolve
  rw [Token.tokenize, Token.scan_texts hgap hps]
  change Except.ok (resolve none (ps.map Piece.token)) = _
  rw [hresolve, resolve, List.append_nil]

/-- A form of an expression is read as its tokens. -/
lemma tokenize_texts {e : Expr} {ps : List Piece} {gap : List Char} (h : Forms e ps)
    (hps : ps.IsChain Piece.Apart) (hgap : ∀ c ∈ gap, Token.isSeparator c = true) :
    Token.tokenize (Piece.texts ps ++ gap) = .ok e.tokens :=
  h.tokenize_of_endsBefore
    (isChain_of_isChain (adjoins h) hps fun _ _ hadjoins hapart => hadjoins.endsBefore hapart) hgap

end Forms

end Reckoner
