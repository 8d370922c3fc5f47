import Reckoner.Proofs.Program.Branching
import Reckoner.Proofs.Token.Scanning

/-!
# An operator on a name and a text

The text of an operator on a name and on another text in parentheses is read as the operator on the
name and on what the text is read as, if no parenthesis of that text closes one that is not its own.
-/

namespace Reckoner

/-! ### Parentheses that match -/

namespace Text

/-- If the parentheses of a text close none before it, a parenthesis behind the start of the text
closes at most one. -/
lemma cutAtClose?_succ {inText : Bool} {depth : Nat} {s t : List Char}
    (h : cutAtClose? inText depth (s ++ t) = none) :
    cutAtClose? inText (depth + 1) (s ++ [')']) = none := by
  induction s generalizing inText depth with
  | nil => cases inText <;> rfl
  | cons c s ih =>
    simp only [List.cons_append, cutAtClose?] at h ⊢
    split_ifs at h ⊢ with hquote htext hopen hclose
    · rw [Option.map_eq_none_iff] at h ⊢
      exact ih h
    · rw [Option.map_eq_none_iff] at h ⊢
      exact ih h
    · rw [Option.map_eq_none_iff] at h ⊢
      exact ih h
    · cases depth with
      | zero => cases h
      | succ depth =>
        rw [Option.map_eq_none_iff] at h ⊢
        exact ih h
    · rw [Option.map_eq_none_iff] at h ⊢
      exact ih h

lemma balanced_of_blanks {s : List Char} (h : ∀ c ∈ s, isBlank c = true) : Balanced s := by
  refine .of_forall fun c hc hmem => ?_
  have hall : ∀ c ∈ ['"', '(', ')', '[', ']'], isBlank c = false :=
    List.all_iff_forall_prop.1 (by decide)
  cases (hall c hmem).symm.trans (h c hc)

/-- A parenthesis that is not closed is not balanced. -/
lemma not_balanced_of_open {s t u : List Char} (hs : Balanced s)
    (ht : cutAtClose? false 0 (t ++ u) = none) : ¬ Balanced (s ++ '(' :: t) := by
  intro h
  have hcut := h.cutAtClose?_append 0 [')']
  rw [List.append_assoc, hs.cutAtClose?_append, List.cons_append] at hcut
  simp [cutAtClose?, cutAtClose?_succ ht] at hcut

end Text

namespace Forms

open Text (Balanced cutAtClose?)

variable {e l : Expr} {n o p q : Piece} {qs ls rs : List Piece} {gap : List Char}

lemma of_resolve {ps : List Piece} {previous : Option Token} (hps : Separate ps)
    (h : Token.resolve previous (ps.map Piece.token) = e.tokens) : Forms e ps := by
  rw [← List.append_nil e.tokens] at h
  obtain ⟨qs, rs, last, rfl, he, hrest⟩ := exists_of_resolve e hps h
  cases rs with
  | nil => simpa using he
  | cons r rs => exact absurd hrest (Token.resolve_ne_nil _ _ _)

/-- An expression at the front of pieces that end with a pair of parentheses ends before the pair,
unless it takes all of them. -/
lemma exists_of_enclosed (fs : List Piece) (hfs : Balanced (Piece.texts fs))
    (hp : p.token = .openParen)
    (hqs : cutAtClose? false 0 (Piece.texts qs ++ gap) = none) (h : Forms l ls) (hrs : rs ≠ [])
    (heq : ls ++ rs = fs ++ p :: (qs ++ [q])) : ∃ gs, fs = ls ++ gs := by
  rcases List.append_eq_append_iff.1 heq with ⟨gs, hgs, -⟩ | ⟨gs, rfl, hgs⟩
  · exact ⟨gs, hgs⟩
  · cases gs with
    | nil => exact ⟨[], by simp⟩
    | cons p' gs =>
      rw [List.cons_append, List.cons.injEq] at hgs
      obtain ⟨rfl, hgs⟩ := hgs
      obtain ⟨rs', r, rfl⟩ := (List.eq_nil_or_concat rs).resolve_left hrs
      have hqs' : qs = gs ++ rs' := by
        rw [List.concat_eq_append, ← List.append_assoc] at hgs
        exact (List.append_inj' hgs rfl).1
      have hbalanced := h.balanced
      rw [Piece.texts_append, Piece.texts_cons, Piece.text_of_structural (c := '(')
        (by rw [hp]; rfl),
        List.append_assoc, ← List.append_assoc] at hbalanced
      rw [hqs', Piece.texts_append, List.append_assoc] at hqs
      exact absurd hbalanced (Text.not_balanced_of_open (hfs.append p.balanced_gap) hqs)

/-- What stands between parentheses that match each other is an expression. -/
lemma exists_group (hp : p.token = .openParen)
    (hqs : cutAtClose? false 0 (Piece.texts qs ++ gap) = none) (h : Forms e (p :: (qs ++ [q]))) :
    ∃ inner, e = .group inner ∧ Forms inner qs := by
  have hpart {l : Expr} {ls rs : List Piece} (hl : Forms l ls) (hrs : rs ≠ [])
      (heq : ls ++ rs = p :: (qs ++ [q])) : False := by
    obtain ⟨gs, hgs⟩ := exists_of_enclosed [] .nil hp hqs hl hrs heq
    exact hl.ne_nil (List.append_eq_nil_iff.1 hgs.symm).1
  generalize hps : p :: (qs ++ [q]) = ps at h
  cases h with
  | number h => simp at hps
  | signed hp' => simp_all
  | text h => simp at hps
  | identifier h => simp at hps
  | @group inner _ _ ps hp' h hq =>
    obtain ⟨-, hps⟩ := List.cons.inj hps
    exact ⟨inner, rfl, (List.append_inj' hps rfl).1 ▸ h⟩
  | call hn => simp_all
  | vector hp' => simp_all
  | negate hp' => simp_all
  | not hp' => simp_all
  | binary hl ho hr => exact (hpart hl (by simp [ho.ne_nil]) hps.symm).elim
  | conditional hc hq ht hk he => exact (hpart hc (by simp) hps.symm).elim

lemma eq_identifier {name : String} (h : Forms e [n]) (hn : n.token = .identifier name) :
    e = .identifier name := by
  generalize hps : [n] = ps at h
  cases h with
  | identifier h => simp_all
  | binary hl ho hr =>
    have hlength := congrArg List.length hps
    have hl := List.length_pos_iff.2 hl.ne_nil
    have hr := List.length_pos_iff.2 hr.ne_nil
    simp only [List.length_append, List.length_singleton] at hlength
    omega
  | conditional hc =>
    have hlength := congrArg List.length hps
    have hc := List.length_pos_iff.2 hc.ne_nil
    simp only [List.length_append, List.length_cons, List.length_nil] at hlength
    omega
  | _ => simp_all

/-- A name, an operator and a pair of parentheses are the operator on the name and on what is
between the parentheses. -/
lemma exists_applied {name : String} {op : BinaryOperator} (hn : n.token = .identifier name)
    (ho : o.token = .binary op) (hp : p.token = .openParen)
    (hqs : cutAtClose? false 0 (Piece.texts qs ++ gap) = none)
    (h : Forms e (n :: o :: p :: (qs ++ [q]))) :
    ∃ inner, e = .binary op (.identifier name) (.group inner) ∧ Forms inner qs := by
  have hbalanced : Balanced (Piece.texts [n, o]) := by
    rw [Piece.texts_cons, Piece.texts_cons, Piece.texts_nil, List.append_nil]
    exact (Piece.balanced_text (by simp [hn, Token.structuralChar?])).append
      (Piece.balanced_text (by simp [ho, Token.structuralChar?]))
  have hpart {l : Expr} {ls rs : List Piece} (hl : Forms l ls) (hrs : rs ≠ [])
      (heq : ls ++ rs = n :: o :: p :: (qs ++ [q])) : ls = [n] ∧ rs = o :: p :: (qs ++ [q]) := by
    obtain ⟨gs, hgs⟩ := exists_of_enclosed [n, o] hbalanced hp hqs hl hrs heq
    cases ls with
    | nil => exact absurd rfl hl.ne_nil
    | cons a ls =>
      obtain ⟨rfl, htail⟩ := List.cons.inj hgs
      cases ls with
      | nil => exact ⟨rfl, (List.cons.inj heq).2⟩
      | cons b ls =>
        obtain ⟨rfl, hnil⟩ := List.cons.inj htail
        obtain rfl : ls = [] := (List.append_eq_nil_iff.1 hnil.symm).1
        obtain ⟨r, hr, hends⟩ := hl.last
        obtain rfl : o = r := Option.some.inj hr
        rw [ho] at hends
        cases hends
  generalize hps : n :: o :: p :: (qs ++ [q]) = ps at h
  cases h with
  | number h => simp at hps
  | signed hp' => simp_all
  | text h => simp at hps
  | identifier h => simp at hps
  | group hp' => simp_all
  | call hn' hp' => simp_all
  | vector hp' => simp_all
  | negate hp' => simp_all
  | not hp' => simp_all
  | binary hl ho' hr =>
    obtain ⟨rfl, hrest⟩ := hpart hl (by simp [ho'.ne_nil]) hps.symm
    cases ho' with
    | single ho' =>
      obtain ⟨rfl, rfl⟩ := List.cons.inj hrest
      obtain ⟨inner, rfl, hinner⟩ := exists_group hp hqs hr
      obtain rfl := hl.eq_identifier hn
      rw [ho, Token.binary.injEq] at ho'
      exact ⟨inner, by rw [ho'], hinner⟩
    | double hbang =>
      obtain ⟨rfl, -⟩ := List.cons.inj hrest
      rw [ho] at hbang
      cases hbang
  | conditional hc hq ht hk he =>
    obtain ⟨rfl, hrest⟩ := hpart hc (by simp) hps.symm
    obtain ⟨rfl, -⟩ := List.cons.inj hrest
    rw [ho] at hq
    cases hq

end Forms

/-! ### Reading an operator on a name and a text -/

namespace Token

lemma Spells.not_goesOn_closeParen {w : List Char} {t : Token} (h : Spells w t)
    (ht : t.isNumber = false) : goesOn w ')' = false := by
  cases h with
  | number => cases ht
  | text => rfl
  | word hc => exact goesOn_word hc _ _
  | pair hpair => exact goesOn_pair hpair _
  | @mark c t hmark =>
    rw [goesOn_mark hmark]
    simp [ofPair]

/-- A text that can be read ends outside text literals. -/
lemma isText_after_of_scan {text : List Char} {ts : List Token} (h : scan text = .ok ts) :
    (Text.Spot.plain.after text).isText = false := by
  obtain ⟨ps, gap, rfl, hgap, -⟩ := exists_pieces_of_scan h
  have hquote : '"' ∉ gap := fun hmem => absurd (hgap _ hmem) (by decide)
  clear h
  have hpieces {s : Text.Spot} (hs : s.isText = false) :
      (s.after (Piece.texts ps)).isText = false := by
    induction ps generalizing s with
    | nil => exact hs
    | cons p ps ih =>
      rw [Piece.texts_cons, Text.Spot.after_append]
      exact ih (Piece.isText_after_text p hs)
  rw [Text.Spot.after_append, Text.Spot.isText_after _ hquote]
  exact hpieces rfl

end Token

namespace Statement

/-- The text of an operator on a name and on a text in parentheses. -/
def applied (name : List Char) (op : Char) (text : List Char) : List Char :=
  name ++ ' ' :: op :: ' ' :: '(' :: (text ++ [')'])

variable {name text : List Char} {op : Char}

/-- A text that starts with a name and ends with such an operator is trimmed. -/
lemma trim_append_applied (hname : Name.isValid name = true) (front : List Char)
    (hfront : ∀ c ∈ (front ++ name).head?, c ∈ name) :
    Text.trim (front ++ applied name op text) = front ++ applied name op text := by
  have htrim := Text.trim_eq (s := []) (t := front ++ applied name op text) (u := [])
    (List.forall_mem_nil _) (List.forall_mem_nil _) ?_ ?_ (by simp [applied])
  · simpa using htrim
  · rw [applied, ← List.append_assoc,
      List.head?_append_of_ne_nil _ (by simp [Name.ne_nil_of_isValid hname])]
    intro c hc
    exact Name.not_isBlank_of_isWordChar (Name.isWordChar_of_mem hname c (hfront c hc))
  · have hlast : (front ++ applied name op text).getLast? = some ')' := by
      simp [applied, List.getLast?_append, List.getLast?_cons]
    rw [hlast]
    rintro _ ⟨⟩
    decide

lemma trim_applied (hname : Name.isValid name = true) :
    Text.trim (applied name op text) = applied name op text :=
  trim_append_applied hname [] fun _ hc => List.mem_of_mem_head? hc

lemma not_mem_marks_spaced (hname : Name.isValid name = true) :
    ∀ c ∈ name ++ [' '], c ∉ Name.marks := by
  intro c hc hmark
  rcases List.mem_append.1 hc with hc | hc
  · exact Name.not_mem_of_mem_marks hname hmark hc
  · rw [List.mem_singleton.1 hc] at hmark
    exact absurd hmark (by decide)

/-- No quote and no equals sign stands in a name, among blanks or operators, or is a parenthesis. -/
lemma not_mem_before (hname : Name.isValid name = true) {front : List Char}
    (hfront : ∀ c ∈ front, c ∈ name ∨ Text.isBlank c = true ∨ c ∈ '(' :: compoundOperators) :
    ∀ d ∈ ['"', '='], d ∉ front := by
  intro d hd hmem
  have hmark : ∀ d ∈ ['"', '='],
      d ∈ Name.marks ∧ Text.isBlank d = false ∧ d ∉ '(' :: compoundOperators :=
    List.all_iff_forall_prop.1 (by decide)
  obtain ⟨hmark, hblank, hnot⟩ := hmark d hd
  rcases hfront d hmem with hmem | hmem | hmem
  · exact Name.not_mem_of_mem_marks hname hmark hmem
  · cases hblank.symm.trans hmem
  · exact hnot hmem

/-- What stands before the text in parentheses. -/
lemma applied_eq (name : List Char) (op : Char) (text : List Char) :
    applied name op text = name ++ [' ', op, ' ', '('] ++ (text ++ [')']) := by
  simp [applied]

lemma not_mem_applied (hname : Name.isValid name = true) (hop : op ∈ compoundOperators) :
    ∀ d ∈ ['"', '='], d ∉ name ++ [' ', op, ' ', '('] := by
  refine not_mem_before hname fun c hc => ?_
  simp only [List.mem_append, List.mem_cons, List.not_mem_nil, or_false] at hc
  rcases hc with hc | rfl | rfl | rfl | rfl
  · exact .inl hc
  · exact .inr (.inl (by decide))
  · exact .inr (.inr (List.mem_cons_of_mem _ hop))
  · exact .inr (.inl (by decide))
  · exact .inr (.inr List.mem_cons_self)

end Statement

section

variable {name text : List Char} {s : String} {op : Char} {op' : BinaryOperator}

/-- The pieces of an operator on a name and on a text in parentheses. -/
lemma Piece.exists_applied (qs : List Piece) {gap : List Char}
    (hname : Token.Spells name (.identifier s)) (hop : Token.ofChar op = some (.binary op'))
    (hgap : ∀ c ∈ gap, Token.isSeparator c = true) :
    ∃ n o p q : Piece, n.token = .identifier s ∧ o.token = .binary op' ∧ p.token = .openParen
      ∧ q.token = .closeParen
      ∧ texts (n :: o :: p :: (qs ++ [q])) = Statement.applied name op (texts qs ++ gap)
      ∧ (Forms.Separate qs → Forms.Separate (n :: o :: p :: (qs ++ [q]))) := by
  have hspace : ∀ c ∈ [' '], Token.isSeparator c = true := by simp [Token.isSeparator]
  refine ⟨⟨[], name, _, isSeparator_of_mem_nil, hname⟩, ⟨[' '], [op], _, hspace, .mark hop⟩,
    ⟨[' '], ['('], .openParen, hspace, .mark rfl⟩, ⟨gap, [')'], .closeParen, hgap, .mark rfl⟩,
    rfl, rfl, rfl, rfl, ?_, fun hqs => ?_⟩
  · simp [text, Statement.applied]
  · have hbehind (p : Piece) {q : Piece} (hq : q.gap = [' ']) : p.EndsBefore q := by
      intro c hc
      rw [text, hq] at hc
      cases hc
      exact Token.goesOn_of_separator (by decide) _
    refine .cons_cons (fun _ => hbehind _ rfl) (.cons_cons (fun _ => hbehind _ rfl) ?_)
    refine List.isChain_cons.2 ⟨?_, List.isChain_append.2 ⟨hqs, .singleton _, ?_⟩⟩
    · intro q _ _ c _
      rw [Token.goesOn_mark (t := .openParen) rfl]
      rfl
    · rintro r - q hq hnumber c hc
      cases hq
      cases gap with
      | nil =>
        cases hc
        exact r.spells.not_goesOn_closeParen hnumber
      | cons d gap =>
        cases hc
        exact Token.goesOn_of_separator (hgap _ List.mem_cons_self) _

/-- The tokens of an operator on a name and on a text in parentheses. -/
lemma Token.scan_applied (hname : Spells name (.identifier s))
    (hop : ofChar op = some (.binary op')) (htext : (Text.Spot.plain.after text).isText = false) :
    scan (Statement.applied name op text)
      = (scan text).map fun ts =>
          .identifier s :: .binary op' :: .openParen :: (ts ++ [.closeParen]) := by
  have hspace (rest : List Char) : scan (' ' :: rest) = scan rest := by
    rw [← List.singleton_append, scan_gap (by simp [isSeparator])]
  have hfirst : Takes (Statement.applied name op text) (.identifier s)
      (' ' :: op :: ' ' :: '(' :: (text ++ [')'])) := by
    refine .of_spells hname ?_
    rintro c ⟨⟩
    exact goesOn_of_separator (by decide) _
  have hsecond : Takes (op :: ' ' :: '(' :: (text ++ [')'])) (.binary op')
      (' ' :: '(' :: (text ++ [')'])) := by
    refine .mark hop ?_
    rintro c ⟨⟩
    simp [ofPair]
  have hthird : Takes ('(' :: (text ++ [')'])) .openParen (text ++ [')']) :=
    .mark rfl fun c _ => rfl
  rw [hfirst.scan_eq, hspace, hsecond.scan_eq, hspace, hthird.scan_eq,
    scan_append_mark (c := ')') (by decide) rfl htext, scan]
  cases scan text <;> rfl

namespace Engine

variable {e : Engine} {tree : Expr}

/-- If an operator on a name and on a text in parentheses can be read, the text ends outside text
literals. -/
lemma isText_of_scan_applied (hvalid : Name.isValid name = true)
    (hmem : op ∈ Statement.compoundOperators) {ts : List Token}
    (h : Token.scan (Statement.applied name op text) = .ok ts) :
    (Text.Spot.plain.after text).isText = false := by
  have hquote := Statement.not_mem_applied hvalid hmem '"' (by decide)
  have hplain := Token.isText_after_of_scan h
  rw [Statement.applied_eq, Text.Spot.after_append, Text.Spot.after_append,
    Text.Spot.isText_after _ (by decide : '"' ∉ [')'])] at hplain
  exact (Text.Spot.isText_after_congr (Text.Spot.isText_after .plain hquote) text).symm.trans hplain

/-- An operator on a name and on a text in parentheses is read as the operator on the name and on
what the text is read as, if no parenthesis of the text closes one before it. -/
lemma parses_applied_iff (hname : Token.Spells name (.identifier s))
    (hvalid : Name.isValid name = true) (hmem : op ∈ Statement.compoundOperators)
    (hfunction : e.functions.isFunction s = false) (hop : Token.ofChar op = some (.binary op'))
    (hclosed : Text.cutAtClose? false 0 text = none) :
    e.Parses (Statement.applied name op (Text.trim text)) tree
      ↔ ∃ inner, tree = .binary op' (.identifier s) (.group inner) ∧ e.Parses text inner := by
  constructor
  · rintro ⟨us, htokens, htree, rfl⟩
    rw [Statement.trim_applied hvalid] at htokens
    cases hscan : Token.scan (Statement.applied name op (Text.trim text)) with
    | error err =>
      rw [Token.tokenize, hscan] at htokens
      cases htokens
    | ok ts =>
      have hplain := isText_of_scan_applied hvalid hmem hscan
      rw [Token.tokenize, hscan] at htokens
      rw [Token.scan_applied hname hop hplain] at hscan
      cases hinner : Token.scan (Text.trim text) with
      | error err =>
        rw [hinner] at hscan
        cases hscan
      | ok ts' =>
        rw [hinner] at hscan
        cases hscan
        obtain ⟨qs, gap, htext, hgap, rfl, hqs⟩ := Token.exists_pieces_of_scan hinner
        obtain ⟨n, o, p, q, hn, ho, hp, hq, -, hseparate⟩ :=
          Piece.exists_applied qs hname hop hgap
        have hforms : Forms tree (n :: o :: p :: (qs ++ [q])) := by
          refine .of_resolve (hseparate hqs) (?_ : Token.resolve none _ = _)
          have hmap : (n :: o :: p :: (qs ++ [q])).map Piece.token
              = .identifier s :: .binary op' :: .openParen
                :: (qs.map Piece.token ++ [.closeParen]) := by
            simp [hn, ho, hp, hq]
          rw [hmap]
          exact Except.ok.inj htokens
        obtain ⟨u, v, hsplit, hu, -⟩ := Text.exists_trim text
        have hopen : Text.cutAtClose? false 0 (Piece.texts qs ++ (gap ++ v)) = none := by
          rw [hsplit, (Text.balanced_of_blanks hu).cutAtClose?_append, Option.map_eq_none_iff,
            htext,
            List.append_assoc] at hclosed
          exact hclosed
        obtain ⟨inner, rfl, hinner⟩ := hforms.exists_applied hn ho hp hopen
        refine ⟨inner, rfl, inner.tokens, ?_, htree.2.2, rfl⟩
        rw [htext]
        exact hinner.tokenize_of_endsBefore (Piece.isChain_endsBefore hinner hqs) hgap
  · rintro ⟨inner, rfl, h⟩
    obtain ⟨hinner, qs, gap, htext, hgap, hforms, hchain⟩ := h.exists_pieces
    obtain ⟨n, o, p, q, hn, ho, hp, hq, htexts, hseparate⟩ :=
      Piece.exists_applied qs hname hop hgap
    have hforms' :
      Forms (.binary op' (.identifier s) (.group inner)) (n :: o :: p :: (qs ++ [q])) :=
      .binary (.identifier hn) (.single ho) (.group hp hforms hq)
    have hchain' := Piece.isChain_endsBefore hforms'
      (hseparate (hchain.imp fun _ _ hends _ => hends))
    have htokens := hforms'.tokenize_of_endsBefore hchain' Piece.isSeparator_of_mem_nil
    rw [List.append_nil, htexts, ← htext] at htokens
    refine ⟨_, by rw [Statement.trim_applied hvalid, htokens], ⟨⟨?_, hfunction⟩, ?_, hinner⟩, rfl⟩
    · exact Nat.le_succ_of_le op'.leftStrength_le_unary
    · exact Nat.le_succ_of_le op'.rightStrength_le_unary

end Engine

end

end Reckoner
