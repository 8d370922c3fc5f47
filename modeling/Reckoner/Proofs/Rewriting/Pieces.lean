import Reckoner.Proofs.Rewriting.Relation

/-!
# Pieces of an expression in which parts are replaced

Replacing parts of an expression changes its pieces. What matters about the new pieces is that they
form the new expression, that they keep apart, and that at either end they are as good neighbours as
the old ones were.
-/

namespace Reckoner

open Piece (Apart)

/-- Pieces of an expression that have taken the place of the pieces of another one. Under the
condition `stays` the first piece is still the first one. -/
structure Edited (stays : Prop) (e e' : Expr) (ps ps' : List Piece) : Prop where
  former : Forms e ps
  forms : Forms e' ps'
  apart : ps'.IsChain Apart
  eq_of_depth : e.depth = 0 → ps' = ps
  head : stays → ps'.head? = ps.head?
  last : ∀ q, (∀ p ∈ ps.getLast?, p.Apart q) → ∀ p ∈ ps'.getLast?, p.Apart q

/-- Pieces that have taken the place of the pieces of a list of expressions; `form` tells how such a
list is spelled. -/
structure EditedAll (form : List Expr → List Piece → Prop) (es es' : List Expr)
    (ps ps' : List Piece) : Prop where
  forms : form es' ps'
  apart : ps'.IsChain Apart
  eq_of_depth : Expr.listDepth es = 0 → ps' = ps

namespace Piece

lemma not_guarded_of_structural {p : Piece} {d : Char} (h : p.token.structuralChar? = some d)
    (hclose : p.token ≠ .closeParen) : ¬ p.Guarded := by
  rintro (hword | htoken)
  · have hspelling := p.spells.eq_structural h
    rw [isWord, hspelling] at hword
    have hstructural : Token.isStructural d = false :=
      Token.not_isStructural_of_continues (Token.continuesIdentifier_of_starts
        (by simpa using hword))
    generalize p.token = t at h
    cases t <;> cases h <;> cases hstructural
  · exact hclose htoken

end Piece

/-- Pieces that keep apart do so in parentheses and brackets. -/
lemma isChain_apart_bracketed {p q : Piece} {d : Char} {ps : List Piece}
    (hp : p.token = .openParen ∨ p.token = .openBracket) (hq : q.token.structuralChar? = some d)
    (h : ps.IsChain Apart) : (p :: (ps ++ [q])).IsChain Apart := by
  refine isChain_bracketed h (fun x _ => Piece.apart_of_not_guarded ?_ x) fun x _ =>
    x.apart_of_structural hq
  rcases hp with hp | hp
  · exact Piece.not_guarded_of_structural (d := '(') (by rw [hp]; rfl) (by rw [hp]; decide)
  · exact Piece.not_guarded_of_structural (d := '[') (by rw [hp]; rfl) (by rw [hp]; decide)

namespace Edited

variable {stays : Prop} {e e' : Expr} {ps ps' : List Piece}

/-- Pieces may stay as they are. -/
lemma refl (h : Forms e ps) (hapart : ps.IsChain Apart) : Edited stays e e ps ps where
  former := h
  forms := h
  apart := hapart
  eq_of_depth _ := rfl
  head _ := rfl
  last _ hlast := hlast

lemma weaken {stays' : Prop} (h : Edited stays e e' ps ps') (hstays : stays' → stays) :
    Edited stays' e e' ps ps' :=
  { h with head := fun h' => h.head (hstays h') }

/-- A piece that is as good a neighbour of the first piece as of the one that has taken its place:
it is not guarded, or the first piece stays. -/
lemma apart_head {p : Piece} (h : Edited (p.isWord = true) e e' ps ps')
    (hclose : p.token ≠ .closeParen) (hp : ∀ q ∈ ps.head?, p.Apart q) :
    ∀ q ∈ ps'.head?, p.Apart q := by
  intro q hq
  by_cases hword : p.isWord = true
  · rw [h.head hword] at hq
    exact hp q hq
  · exact Piece.apart_of_not_guarded (by rintro (h | h) <;> contradiction) q

/-- A closing bracket that stays is as good a neighbour as it was. -/
lemma last_bracketed {p q q' : Piece} (hq : q'.token = q.token) (hword : q'.isWord = q.isWord)
    (x : Piece) (hx : ∀ y ∈ (p :: (ps ++ [q])).getLast?, y.Apart x) :
    ∀ y ∈ (p :: (ps' ++ [q'])).getLast?, y.Apart x := by
  intro y hy
  obtain rfl := Option.mem_unique hy (Forms.mem_getLast?_bracketed ps')
  have hapart := hx q (Forms.mem_getLast?_bracketed ps)
  unfold Piece.Apart at hapart ⊢
  rwa [hq, hword]

lemma group {p q : Piece} (hp : p.token = .openParen) (hq : q.token = .closeParen)
    (h : Edited stays e e' ps ps') {stays' : Prop} :
    Edited stays' (.group e) (.group e') (p :: (ps ++ [q])) (p :: (ps' ++ [q])) where
  former := .group hp h.former hq
  forms := .group hp h.forms hq
  apart := isChain_apart_bracketed (d := ')') (.inl hp) (by rw [hq]; rfl) h.apart
  eq_of_depth hdepth := by rw [h.eq_of_depth (Expr.eq_zero_of_deepen hdepth)]
  head _ := rfl
  last := last_bracketed rfl rfl

/-- Two operands are replaced on their own. The operator between them is as good a neighbour of the
right one, unless it is a word, before which nothing may change. -/
lemma binary {op : BinaryOperator} {l l' r r' : Expr} {ls ls' os rs rs' : List Piece}
    (hl : Edited stays l l' ls ls') (ho : OperatorForms op os)
    (hr : ∀ p ∈ os.getLast?, Edited (p.isWord = true) r r' rs rs')
    (hapart : (ls ++ (os ++ rs)).IsChain Apart) :
    Edited stays (.binary op l r) (.binary op l' r') (ls ++ (os ++ rs))
      (ls' ++ (os ++ rs')) := by
  obtain ⟨p, hp, hawaits⟩ := ho.last
  replace hr := hr p hp
  obtain ⟨-, hapart', hlast⟩ := List.isChain_append.1 hapart
  obtain ⟨hos, -, hfirst⟩ := List.isChain_append.1 hapart'
  have hclose : p.token ≠ .closeParen := by
    rintro hclose
    rw [hclose] at hawaits
    cases hawaits
  refine ⟨.binary hl.former ho hr.former, .binary hl.forms ho hr.forms, ?_, ?_, ?_, ?_⟩
  · refine hl.apart.append (hos.append hr.apart fun x hx => ?_) fun x hx y hy => ?_
    · obtain rfl := Option.mem_unique hx hp
      exact hr.apart_head hclose (hfirst x hx)
    · rw [List.head?_append_of_ne_nil _ ho.ne_nil] at hy
      refine hl.last y (fun z hz => hlast z hz y ?_) x hx
      rwa [List.head?_append_of_ne_nil _ ho.ne_nil]
  · intro hdepth
    obtain ⟨hzero, hzero'⟩ := Nat.max_eq_zero_iff.1 (Expr.eq_zero_of_deepen hdepth)
    rw [hl.eq_of_depth hzero, hr.eq_of_depth hzero']
  · intro h
    rw [List.head?_append_of_ne_nil _ hl.forms.ne_nil, hl.head h,
      List.head?_append_of_ne_nil _ hl.former.ne_nil]
  · intro q
    rw [← List.append_assoc, ← List.append_assoc, List.getLast?_append_of_ne_nil _ hr.former.ne_nil,
      List.getLast?_append_of_ne_nil _ hr.forms.ne_nil]
    exact hr.last q

lemma conditional {p p' t t' a a' : Expr} {q k : Piece} {cs cs' ts ts' es es' : List Piece}
    (hp : Edited stays p p' cs cs') (hq : q.token = .question) {stays' stays'' : Prop}
    (ht : Edited stays' t t' ts ts') (hk : k.token = .colon) (ha : Edited stays'' a a' es es') :
    Edited stays (.conditional p t a) (.conditional p' t' a') (cs ++ q :: (ts ++ k :: es))
      (cs' ++ q :: (ts' ++ k :: es')) where
  former := .conditional hp.former hq ht.former hk ha.former
  forms := .conditional hp.forms hq ht.forms hk ha.forms
  apart := by
    have hquestion : q.token.structuralChar? = some '?' := by rw [hq]; rfl
    have hcolon : k.token.structuralChar? = some ':' := by rw [hk]; rfl
    refine hp.apart.append (List.isChain_cons.2 ⟨fun x _ => ?_, ht.apart.append
      (List.isChain_cons.2 ⟨fun x _ => ?_, ha.apart⟩) fun x _ y hy => ?_⟩) fun x _ y hy => ?_
    · exact Piece.apart_of_not_guarded (Piece.not_guarded_of_structural hquestion (by simp [hq])) x
    · exact Piece.apart_of_not_guarded (Piece.not_guarded_of_structural hcolon (by simp [hk])) x
    · obtain rfl : k = y := by simpa using hy
      exact x.apart_of_structural hcolon
    · obtain rfl : q = y := by simpa using hy
      exact x.apart_of_structural hquestion
  eq_of_depth hdepth := nomatch hdepth
  head h := by
    rw [List.head?_append_of_ne_nil _ hp.forms.ne_nil, hp.head h,
      List.head?_append_of_ne_nil _ hp.former.ne_nil]
  last x := by
    have hlast (cs ts : List Piece) {es : List Piece} (hes : es ≠ []) :
        (cs ++ q :: (ts ++ k :: es)).getLast? = es.getLast? := by
      obtain ⟨y, ys, rfl⟩ := List.exists_cons_of_ne_nil hes
      rw [List.getLast?_append_cons, ← List.cons_append, List.getLast?_append_cons,
        List.getLast?_cons_cons]
    rw [hlast cs ts ha.former.ne_nil, hlast cs' ts' ha.forms.ne_nil]
    exact ha.last x

lemma getLast?_cons_of_ne_nil {p : Piece} (hps : ps ≠ []) : (p :: ps).getLast? = ps.getLast? := by
  obtain ⟨q, ps, rfl⟩ := List.exists_cons_of_ne_nil hps
  exact List.getLast?_cons_cons

/-- An operator before an operand is as good a neighbour of it as before, unless it is a word,
before which nothing may change. -/
lemma unary {op : UnaryOperator} {e'' : Expr} {p : Piece}
    (h : Edited (p.isWord = true) e e' ps ps')
    (hapart : (p :: ps).IsChain Apart) (hclose : p.token ≠ .closeParen)
    (hformer : Forms (.unary op e) (p :: ps)) (hforms : Forms e'' (p :: ps')) :
    Edited stays (.unary op e) e'' (p :: ps) (p :: ps') where
  former := hformer
  forms := hforms
  apart := List.isChain_cons.2 ⟨h.apart_head hclose (List.isChain_cons.1 hapart).1, h.apart⟩
  eq_of_depth hdepth := by rw [h.eq_of_depth (Expr.eq_zero_of_deepen hdepth)]
  head _ := rfl
  last q := by
    rw [getLast?_cons_of_ne_nil h.former.ne_nil, getLast?_cons_of_ne_nil h.forms.ne_nil]
    exact h.last q

lemma not {p : Piece} (hp : p.token = .bang) (h : Edited (p.isWord = true) e e' ps ps')
    (hapart : (p :: ps).IsChain Apart) :
    Edited stays (.unary .not e) (.unary .not e') (p :: ps) (p :: ps') :=
  h.unary hapart (by simp [hp]) (.not hp h.former) (.not hp h.forms)

end Edited

/-- An operand that starts with a number is that number. -/
lemma Forms.eq_number_of_head {e : Expr} {ps : List Piece} (h : Forms e ps)
    (hstrength : UnaryOperator.strength ≤ e.strength) {q : Piece} (hq : q ∈ ps.head?)
    (hnumber : q.token.isNumber = true) : ∃ x, e = .number x ∧ ps = [q] ∧ q.token = .number x := by
  have hfirst {p : Piece} {ps : List Piece} (hhead : q ∈ (p :: ps).head?)
      (hp : p.token.isNumber = false) : False := by
    obtain rfl : p = q := by simpa using hhead
    rw [hp] at hnumber
    cases hnumber
  cases h with
  | @number x p hp =>
    obtain rfl : p = q := by simpa using hq
    exact ⟨x, rfl, rfl, hp⟩
  | signed hp _ => exact (hfirst hq (by rw [hp]; rfl)).elim
  | text hp => exact (hfirst hq (by rw [hp]; rfl)).elim
  | identifier hp => exact (hfirst hq (by rw [hp]; rfl)).elim
  | group hp _ _ => exact (hfirst hq (by rw [hp]; rfl)).elim
  | call hn _ _ _ => exact (hfirst hq (by rw [hn]; rfl)).elim
  | vector hp _ _ => exact (hfirst hq (by rw [hp]; rfl)).elim
  | negate hp _ _ => exact (hfirst hq (by rw [hp]; rfl)).elim
  | not hp _ => exact (hfirst hq (by rw [hp]; rfl)).elim
  | @binary op _ _ _ _ _ _ _ _ =>
    exact absurd op.level_lt_unary (Nat.not_lt.2 hstrength)
  | conditional => cases hstrength

namespace Edited

variable {stays : Prop} {e e' : Expr} {ps ps' : List Piece}

/-- A minus sign before an operand stays one, or becomes part of the number behind it. -/
lemma exists_negate {F : Outcomes} {k : Pass.Kind} {b : Bool} {s s' : Stage} {p : Piece}
    (hstrength : UnaryOperator.strength ≤ e.strength) (hp : p.token = .binary .sub)
    (hps : ∀ q ∈ ps.head?, q.token.isNumber = false)
    (h : Edited (p.isWord = true) e e' ps ps') (hapart : (p :: ps).IsChain Apart)
    (hrewritten : Rewritten F k false s s' e e') :
    ∃ e'', Edited stays (.unary .negate e) e'' (p :: ps) (p :: ps')
      ∧ Rewritten F k b s s' (.unary .negate e) e'' := by
  have hclose : p.token ≠ .closeParen := by simp [hp]
  have hformer : Forms (.unary .negate e) (p :: ps) := .negate hp h.former hps
  by_cases hhead : ∀ q ∈ ps'.head?, q.token.isNumber = false
  · have hnegate : false = true → UnaryOperator.negate = .not := nofun
    exact ⟨_, h.unary hapart hclose hformer (.negate hp h.forms hhead), .unary hnegate hrewritten⟩
  · push Not at hhead
    obtain ⟨q, hq, hnumber⟩ := hhead
    obtain ⟨x, rfl, rfl, hx⟩ := h.forms.eq_number_of_head
      (hstrength.trans hrewritten.strength_le) hq (by simpa using hnumber)
    refine ⟨_, h.unary hapart hclose hformer (.signed hp hx), .negated ?_ hrewritten⟩
    refine Nat.pos_of_ne_zero fun hzero => hnumber (hps q ?_)
    rw [← h.eq_of_depth hzero]
    exact hq

end Edited

/-! ### Lists -/

namespace EditedAll

variable {form : List Expr → List Piece → Prop} {es es' : List Expr} {ps ps' : List Piece}

/-- Parts can be replaced one after the other. -/
lemma trans {es'' : List Expr} {ps'' : List Piece} (h : EditedAll form es es' ps ps')
    (hle : Expr.listDepth es' ≤ Expr.listDepth es) (h' : EditedAll form es' es'' ps' ps'') :
    EditedAll form es es'' ps ps'' where
  forms := h'.forms
  apart := h'.apart
  eq_of_depth hdepth := by
    rw [h'.eq_of_depth (Nat.eq_zero_of_le_zero (hdepth ▸ hle)), h.eq_of_depth hdepth]

variable {stays : Prop} {e e' : Expr} {qs qs' : List Piece}

lemma nil (h : form [] []) : EditedAll form [] [] [] [] :=
  ⟨h, .nil, fun _ => rfl⟩

lemma cons (h : Edited stays e e' ps ps') (hes : EditedAll RestForms es es' qs qs') :
    EditedAll ListForms (e :: es) (e' :: es') (ps ++ qs) (ps' ++ qs') where
  forms := .cons h.forms hes.forms
  apart := h.apart.append hes.apart (hes.forms.apart ps')
  eq_of_depth hdepth := by
    obtain ⟨hzero, hzero'⟩ := Nat.max_eq_zero_iff.1 hdepth
    rw [h.eq_of_depth hzero, hes.eq_of_depth hzero']

lemma comma_cons {p : Piece} (hp : p.token = .comma) (h : Edited stays e e' ps ps')
    (hes : EditedAll RestForms es es' qs qs') :
    EditedAll RestForms (e :: es) (e' :: es') (p :: (ps ++ qs)) (p :: (ps' ++ qs')) where
  forms := .cons hp h.forms hes.forms
  apart := by
    refine List.isChain_cons.2 ⟨fun q _ => Piece.apart_of_not_guarded ?_ q, (cons h hes).apart⟩
    exact Piece.not_guarded_of_structural (d := ',') (by rw [hp]; rfl) (by simp [hp])
  eq_of_depth hdepth := by rw [(cons h hes).eq_of_depth hdepth]

lemma vector {p q : Piece} (hp : p.token = .openBracket) (hq : q.token = .closeBracket)
    (hformer : ListForms es ps) (h : EditedAll ListForms es es' ps ps') :
    Edited stays (.vector es) (.vector es') (p :: (ps ++ [q])) (p :: (ps' ++ [q])) where
  former := .vector hp hformer hq
  forms := .vector hp h.forms hq
  apart := isChain_apart_bracketed (d := ']') (.inr hp) (by rw [hq]; rfl) h.apart
  eq_of_depth hdepth := by rw [h.eq_of_depth (Expr.eq_zero_of_deepen hdepth)]
  head _ := rfl
  last := Edited.last_bracketed rfl rfl

/-- The closing parenthesis of a call may get another gap. -/
lemma call {name : String} {n p q q' : Piece} (hn : n.token = .identifier name)
    (hp : p.token = .openParen) (hq : q.token = .closeParen) (hq' : q'.token = .closeParen)
    (hformer : ListForms es ps) (h : EditedAll ListForms es es' ps ps')
    (hdepth : Expr.listDepth es = 0 → q' = q) :
    Edited stays (.call name es) (.call name es') (n :: p :: (ps ++ [q]))
      (n :: p :: (ps' ++ [q'])) where
  former := .call hn hp hformer hq
  forms := .call hn hp h.forms hq'
  apart := by
    refine List.isChain_cons.2 ⟨fun x hx => ?_, isChain_apart_bracketed (d := ')') (.inl hp)
      (by rw [hq']; rfl) h.apart⟩
    obtain rfl : p = x := by simpa using hx
    exact n.apart_of_structural (c := '(') (by rw [hp]; rfl)
  eq_of_depth hzero := by
    have hzero := Expr.eq_zero_of_deepen hzero
    rw [h.eq_of_depth hzero, hdepth hzero]
  head _ := rfl
  last x hx := by
    rw [Edited.getLast?_cons_of_ne_nil (List.cons_ne_nil _ _)] at hx ⊢
    refine Edited.last_bracketed (hq'.trans hq.symm) ?_ x hx
    have hspelling {r : Piece} (hr : r.token = .closeParen) : r.spelling = [')'] :=
      r.spells.eq_structural (by rw [hr]; rfl)
    rw [Piece.isWord, Piece.isWord, hspelling hq, hspelling hq']

end EditedAll

end Reckoner
