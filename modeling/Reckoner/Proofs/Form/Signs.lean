import Reckoner.Proofs.Form.Neighbours

/-!
# Signs in the pieces of an expression

The pieces that form an expression are tokens before signs are told. Telling them gives the tokens
of the expression: a minus sign where an operand starts belongs to a number or negates what is
behind it.
-/

namespace Reckoner

namespace Token

variable {previous : Option Token} {rest : List Token}

lemma isSign_of_endsOperand {t : Token} (h : t.endsOperand = true) : isSign (some t) = false := by
  simp [isSign, h]

lemma isSign_of_awaitsOperand {t : Token} (h : t.awaitsOperand = true) :
    isSign (some t) = true := by
  cases t <;> first | rfl | cases h

lemma resolve_sub_behind (h : isSign previous = false) :
    resolve previous (.binary .sub :: rest)
      = .binary .sub :: resolve (some (.binary .sub)) rest := by
  rw [resolve.eq_def]
  split
  · rename_i heq
    cases heq
  · rename_i x rest' heq
    cases heq
    rw [if_neg (by simp [h]), resolve]
    all_goals simp
  · rename_i heq
    cases heq
    simp [h]
  · rename_i heq
    cases heq
  · rename_i hsub _ heq
    cases heq
    exact absurd rfl hsub

lemma resolve_sub_number (h : isSign previous = true) (x : Float) :
    resolve previous (.binary .sub :: .number x :: rest)
      = .number (-x) :: resolve (some (.number (-x))) rest := by
  rw [resolve, if_pos h]

lemma resolve_negate (h : isSign previous = true) (hrest : ∀ t ∈ rest.head?, t.isNumber = false) :
    resolve previous (.binary .sub :: rest) = .negate :: resolve (some .negate) rest := by
  rw [resolve]
  · simp [h]
  · rintro x rest' rfl
    exact absurd (hrest _ rfl) (by simp [isNumber])

lemma resolve_bang (hrest : ∀ t ∈ rest.head?, t ≠ .assign) :
    resolve previous (.bang :: rest) = .bang :: resolve (some .bang) rest := by
  rw [resolve]
  · simp
  · simp
  · rintro rest' - rfl
    exact hrest _ rfl rfl

lemma resolve_other {t : Token} (hsub : t ≠ .binary .sub) (hbang : t ≠ .bang) :
    resolve previous (t :: rest) = t :: resolve (some t) rest := by
  rw [resolve]
  · intro x rest' ht _
    exact hsub ht
  · exact hsub
  · intro rest' ht _
    exact hbang ht

end Token

lemma forall_head?_map_token {P : Token → Prop} {ps : List Piece}
    (h : ∀ q ∈ ps.head?, P q.token) : ∀ t ∈ (ps.map Piece.token).head?, P t := by
  simpa using h

namespace OperatorForms

lemma resolve_eq {op : BinaryOperator} {ps : List Piece} (h : OperatorForms op ps)
    {previous : Option Token} (hprevious : Token.isSign previous = false) (raw : List Token) :
    ∃ last : Token, last.awaitsOperand = true
      ∧ Token.resolve previous (ps.map Piece.token ++ raw)
        = .binary op :: Token.resolve (some last) raw := by
  cases h with
  | single hp =>
    refine ⟨.binary op, rfl, ?_⟩
    rw [List.map_singleton, List.singleton_append, hp]
    by_cases hop : op = .sub
    · subst hop
      exact Token.resolve_sub_behind hprevious
    · exact Token.resolve_other (by simpa using hop) (by simp)
  | double hp hq h =>
    refine ⟨.binary .notEqual, rfl, ?_⟩
    simp only [List.map_cons, List.map_nil, hp, hq, List.cons_append, List.nil_append,
      Token.resolve]

end OperatorForms

namespace Forms

open Token (resolve isSign)

-- A list may be empty, so that what stands before its end is not known; the bracket behind it does
-- not depend on that.
mutual

/-- The raw tokens of an expression where an operand is expected resolve to its tokens. -/
lemma resolve_eq {e : Expr} {ps : List Piece} (h : Forms e ps) (previous : Option Token)
    (hprevious : isSign previous = true) (raw : List Token) :
    ∃ last : Token, last.endsOperand = true
      ∧ resolve previous (ps.map Piece.token ++ raw) = e.tokens ++ resolve (some last) raw := by
  cases e with
  | number x =>
    cases h with
    | number hp =>
      refine ⟨.number x, rfl, ?_⟩
      rw [List.map_singleton, List.singleton_append, hp]
      exact Token.resolve_other (by simp) (by simp)
    | @signed x _ _ hp hq =>
      refine ⟨.number (-x), rfl, ?_⟩
      simp only [List.map_cons, List.map_nil, List.cons_append, List.nil_append, hp, hq]
      exact Token.resolve_sub_number hprevious _
  | text s =>
    cases h with
    | text hp =>
      refine ⟨.text s, rfl, ?_⟩
      rw [List.map_singleton, List.singleton_append, hp]
      exact Token.resolve_other (by simp) (by simp)
  | identifier name =>
    cases h with
    | identifier hp =>
      refine ⟨.identifier name, rfl, ?_⟩
      rw [List.map_singleton, List.singleton_append, hp]
      exact Token.resolve_other (by simp) (by simp)
  | group e =>
    cases h with
    | group hp h hq =>
      obtain ⟨last, -, heq⟩ := resolve_eq h (some .openParen) rfl (.closeParen :: raw)
      refine ⟨.closeParen, rfl, ?_⟩
      simp only [List.map_cons, List.map_append, List.map_nil, List.cons_append, List.append_assoc,
        List.nil_append, hp, hq, Expr.tokens]
      rw [Token.resolve_other (by simp) (by simp), heq, Token.resolve_other (by simp) (by simp)]
  | call name args =>
    cases h with
    | call hn hp h hq =>
      obtain ⟨last, heq⟩ := list_resolve_eq h (some .openParen) rfl (.closeParen :: raw)
      refine ⟨.closeParen, rfl, ?_⟩
      simp only [List.map_cons, List.map_append, List.map_nil, List.cons_append, List.append_assoc,
        List.nil_append, hn, hp, hq, Expr.tokens]
      rw [Token.resolve_other (by simp) (by simp), Token.resolve_other (by simp) (by simp), heq,
        Token.resolve_other (by simp) (by simp)]
  | vector items =>
    cases h with
    | vector hp h hq =>
      obtain ⟨last, heq⟩ := list_resolve_eq h (some .openBracket) rfl (.closeBracket :: raw)
      refine ⟨.closeBracket, rfl, ?_⟩
      simp only [List.map_cons, List.map_append, List.map_nil, List.cons_append, List.append_assoc,
        List.nil_append, hp, hq, Expr.tokens]
      rw [Token.resolve_other (by simp) (by simp), heq, Token.resolve_other (by simp) (by simp)]
  | unary op e =>
    cases h with
    | @negate _ _ ps hp h hps =>
      obtain ⟨last, hlast, heq⟩ := resolve_eq h (some .negate) rfl raw
      refine ⟨last, hlast, ?_⟩
      have hhead : ∀ t ∈ (ps.map Piece.token ++ raw).head?, t.isNumber = false := by
        rw [List.head?_append_of_ne_nil _ (by simpa using h.ne_nil)]
        exact forall_head?_map_token hps
      rw [List.map_cons, List.cons_append, hp, Token.resolve_negate hprevious hhead, heq]
      rfl
    | @not _ _ ps hp h =>
      obtain ⟨last, hlast, heq⟩ := resolve_eq h (some .bang) rfl raw
      refine ⟨last, hlast, ?_⟩
      have hhead : ∀ t ∈ (ps.map Piece.token ++ raw).head?, t ≠ .assign := by
        rw [List.head?_append_of_ne_nil _ (by simpa using h.ne_nil)]
        refine forall_head?_map_token fun q hq hassign => ?_
        have hstart := h.startsOperand_of_mem q hq
        rw [hassign] at hstart
        cases hstart
      rw [List.map_cons, List.cons_append, hp, Token.resolve_bang hhead, heq]
      rfl
  | binary op l r =>
    cases h with
    | @binary _ _ _ ls os rs hl ho hr =>
      obtain ⟨last, hlast, hleft⟩ := resolve_eq hl previous hprevious
        (os.map Piece.token ++ (rs.map Piece.token ++ raw))
      obtain ⟨middle, hmiddle, hoperator⟩ := ho.resolve_eq (Token.isSign_of_endsOperand hlast)
        (rs.map Piece.token ++ raw)
      obtain ⟨last', hlast', hright⟩ := resolve_eq hr (some middle)
        (Token.isSign_of_awaitsOperand hmiddle) raw
      refine ⟨last', hlast', ?_⟩
      simp only [List.map_append, List.append_assoc, Expr.tokens, List.cons_append]
      rw [hleft, hoperator, hright]
  | conditional c t e =>
    cases h with
    | @conditional _ _ _ q k cs ts es hc hq ht hk he =>
      obtain ⟨last₁, -, hcondition⟩ := resolve_eq hc previous hprevious
        (.question :: (ts.map Piece.token ++ .colon :: (es.map Piece.token ++ raw)))
      obtain ⟨last₂, -, hconsequent⟩ := resolve_eq ht (some .question) rfl
        (.colon :: (es.map Piece.token ++ raw))
      obtain ⟨last₃, hlast, halternative⟩ := resolve_eq he (some .colon) rfl raw
      refine ⟨last₃, hlast, ?_⟩
      simp only [List.map_append, List.map_cons, List.append_assoc, Expr.tokens, List.cons_append,
        hq, hk]
      rw [hcondition, Token.resolve_other (by simp) (by simp), hconsequent,
        Token.resolve_other (by simp) (by simp), halternative]
termination_by structural e

lemma list_resolve_eq {es : List Expr} {ps : List Piece} (h : ListForms es ps)
    (previous : Option Token) (hprevious : isSign previous = true) (raw : List Token) :
    ∃ last : Option Token,
      resolve previous (ps.map Piece.token ++ raw) = Expr.listTokens es ++ resolve last raw := by
  cases es with
  | nil =>
    cases h
    exact ⟨previous, rfl⟩
  | cons e es =>
    cases h with
    | @cons _ _ ps qs h hes =>
      obtain ⟨last, -, hfirst⟩ := resolve_eq h previous hprevious (qs.map Piece.token ++ raw)
      obtain ⟨last', hrest⟩ := rest_resolve_eq hes (some last) raw
      refine ⟨last', ?_⟩
      rw [List.map_append, List.append_assoc, hfirst, hrest, Expr.listTokens, List.append_assoc]
termination_by structural es

lemma rest_resolve_eq {es : List Expr} {ps : List Piece} (h : RestForms es ps)
    (previous : Option Token) (raw : List Token) :
    ∃ last : Option Token,
      resolve previous (ps.map Piece.token ++ raw) = Expr.restTokens es ++ resolve last raw := by
  cases es with
  | nil =>
    cases h
    exact ⟨previous, rfl⟩
  | cons e es =>
    cases h with
    | @cons _ _ p ps qs hp h hes =>
      obtain ⟨last, -, hfirst⟩ := resolve_eq h (some .comma) rfl (qs.map Piece.token ++ raw)
      obtain ⟨last', hrest⟩ := rest_resolve_eq hes (some last) raw
      refine ⟨last', ?_⟩
      rw [List.map_cons, List.map_append, List.cons_append, List.append_assoc, hp,
        Token.resolve_other (by simp) (by simp), hfirst, hrest, Expr.restTokens, List.cons_append,
        List.cons_append, List.append_assoc]
termination_by structural es

end

end Forms

end Reckoner
