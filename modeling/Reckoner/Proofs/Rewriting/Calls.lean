import Reckoner.Proofs.Rewriting.Groups
import Reckoner.Proofs.Rewriting.NextCall

/-!
# Calls in the pieces of an expression

The pieces of an expression are passed over in the search for a call, except for the name of a
function before its parenthesis. So the calls that are found in the text of an expression are those
of its tree, in the order in which they are written.
-/

namespace Reckoner

open Piece (texts)

namespace Piece

open Name (isWordChar)
open Substitution

lemma not_isWordChar_of_separator {ch : Char} (h : Token.isSeparator ch = true) :
    isWordChar ch = false := by
  by_contra hword
  have hblank := Name.not_isBlank_of_isWordChar (by simpa using hword)
  rw [Token.isBlank_of_separator h] at hblank
  cases hblank

/-- The first character of a piece belongs to words only if words of a text can go on with it. -/
lemma continues_of_isWordChar {p : Piece} {ch : Char} (hch : ch ∈ p.text.head?)
    (h : isWordChar ch = true) : Token.continuesIdentifier ch = true := by
  have hmark : ch ∉ Name.marks := fun hmark => Name.ne_of_isWordChar h hmark rfl
  by_cases hgap : p.gap = []
  · rw [text, hgap, List.nil_append] at hch
    have hspells := p.spells
    generalize p.token = t at hspells
    generalize p.spelling = w at hspells hch
    cases hspells with
    | number hn =>
      obtain ⟨w', hw', -, ⟨d, hd, hdigit⟩, -⟩ := Decimal.exists_of_takeNumeral hn
      rw [List.append_nil] at hw'
      subst hw'
      obtain rfl := Option.mem_unique hch hd
      rcases hdigit with hdigit | rfl
      · exact Token.continuesIdentifier_of_isDigit hdigit
      · exact absurd (by simp [Name.marks]) hmark
    | text hs =>
      cases hch
      exact absurd (by simp [Name.marks]) hmark
    | word hc hw =>
      cases hch
      exact Token.continuesIdentifier_of_starts hc
    | pair hp =>
      cases hch
      exact absurd (Token.mem_marks_of_ofPair hp).1 hmark
    | mark hm =>
      cases hch
      exact absurd (Token.mem_marks_of_ofChar hm) hmark
  · rw [text, List.head?_append_of_ne_nil _ hgap] at hch
    have hseparator := p.isSeparator_of_mem_gap ch (List.mem_of_mem_head? hch)
    rw [not_isWordChar_of_separator hseparator] at h
    cases h

variable {fs : Registry} {p : Piece} {qs : List Piece} {gap : List Char}

/-- No word goes on behind one. -/
lemma not_isWordChar_behind (hp : p.isWord = true) (hnear : (p :: qs).IsChain Near)
    (hgap : ∀ ch ∈ gap, Token.isSeparator ch = true) :
    ∀ ch ∈ (texts qs ++ gap).head?, isWordChar ch = false := by
  intro ch hch
  cases qs with
  | nil => exact not_isWordChar_of_separator (hgap ch (List.mem_of_mem_head? hch))
  | cons q qs =>
    rw [head?_texts_cons] at hch
    by_contra hword
    have hcontinues := continues_of_isWordChar hch (by simpa using hword)
    rw [(List.isChain_cons_cons.1 hnear).1.2 (.inl hp) ch hch] at hcontinues
    cases hcontinues

/-- A gap is passed over when a call is looked for. -/
lemma nextCall?_gap {isFunction : String → Bool} (hgap : ∀ ch ∈ gap, Token.isSeparator ch = true)
    (t : List Char) :
    nextCall? isFunction false false (gap ++ t)
      = (nextCall? isFunction false false t).map (behind gap) :=
  nextCall?_plain (fun hmem => (ne_of_separator (hgap _ hmem)).1 rfl)
    fun ch hch => not_isWordChar_of_separator (hgap ch hch)

/-- No call starts with an operator. -/
lemma quiet_operator (hfs : fs.IsPlain) (hp : p.isWord = true)
    (hname : ∀ name, p.token ≠ .identifier name) (hnear : (p :: qs).IsChain Near)
    (hgap : ∀ ch ∈ gap, Token.isSeparator ch = true) :
    Quiet fs.isFunction (p.spelling ++ (texts qs ++ gap)) := by
  obtain ⟨htoken, hchars⟩ := token_of_isWord hp
  refine quiet_of_not_isFunction (fun ch hch => isWordChar_of_continues (hchars ch hch))
    (not_isWordChar_behind hp hnear hgap) (hfs.not_isFunction_of_operator fun hword => ?_)
  exact hname _ (htoken.trans hword)

lemma token_of_open (h : '(' ∈ p.spelling.head?) : p.token = .openParen := by
  have hspells := p.spells
  generalize p.token = t at hspells
  generalize p.spelling = w at hspells h
  cases hspells with
  | number hn =>
    obtain ⟨w', hw', -, ⟨d, hd, hdigit⟩, -⟩ := Decimal.exists_of_takeNumeral hn
    rw [List.append_nil] at hw'
    subst hw'
    obtain rfl := Option.mem_unique hd h
    rcases hdigit with hdigit | hpoint
    · cases hdigit
    · cases hpoint
  | text hs => cases h
  | word hc hw =>
    cases h
    cases hc
  | pair hp =>
    cases h
    cases hp
  | mark hm =>
    cases h
    cases hm
    rfl

/-- Behind a name that is not called the next mark is no opening parenthesis. -/
lemma not_open_behind (hopen : ∀ q ∈ qs.head?, q.token ≠ .openParen)
    (hgap : ∀ ch ∈ gap, Token.isSeparator ch = true) :
    ((texts qs ++ gap).dropWhile Text.isBlank).head? ≠ some '(' := by
  cases qs with
  | nil =>
    have hblank : gap.dropWhile Text.isBlank = [] :=
      List.dropWhile_eq_nil_iff.2 fun ch hch => Token.isBlank_of_separator (hgap ch hch)
    simp [hblank]
  | cons q qs =>
    have hblank : ∀ ch ∈ q.gap, Text.isBlank ch = true := fun ch hch =>
      Token.isBlank_of_separator (q.isSeparator_of_mem_gap ch hch)
    rw [texts_cons, text, List.append_assoc, List.append_assoc, List.dropWhile_append_of_pos hblank,
      Text.dropWhile_eq_self, List.head?_append_of_ne_nil _ q.spelling_ne_nil]
    · exact fun hhead => hopen q rfl (token_of_open hhead)
    · rw [List.head?_append_of_ne_nil _ q.spelling_ne_nil]
      exact q.spells.not_isBlank_ends.1

/-- No call starts with a name that no parenthesis follows. -/
lemma quiet_identifier (hp : p.isWord = true) (hnear : (p :: qs).IsChain Near)
    (hopen : ∀ q ∈ qs.head?, q.token ≠ .openParen)
    (hgap : ∀ ch ∈ gap, Token.isSeparator ch = true) :
    Quiet fs.isFunction (p.spelling ++ (texts qs ++ gap)) :=
  quiet_of_not_open (fun ch hch => isWordChar_of_continues ((token_of_isWord hp).2 ch hch))
    (not_isWordChar_behind hp hnear hgap) (not_open_behind hopen hgap)

lemma followsOperand_of_adjoins {q : Piece} (h : p.Adjoins q) (hp : p.token.endsOperand = true)
    (hname : ∀ name, p.token ≠ .identifier name) : q.token.followsOperand = true := by
  rcases h with ⟨-, hfollows⟩ | ⟨hawaits, -⟩ | ⟨⟨name, hidentifier⟩, -⟩ | ⟨hbang, -, -⟩
  · exact hfollows
  · have hsign := Token.isSign_of_awaitsOperand hawaits
    rw [Token.isSign_of_endsOperand hp] at hsign
    cases hsign
  · exact absurd hidentifier (hname name)
  · rw [hbang] at hp
    cases hp

/-- What stands behind an operand and starts like a word is one. -/
lemma isWord_of_isWordChar {ch : Char} (hch : ch ∈ p.text.head?) (h : isWordChar ch = true)
    (hp : p.token.followsOperand = true) : p.gap = [] ∧ p.isWord = true := by
  by_cases hgap : p.gap = []
  · refine ⟨hgap, ?_⟩
    rw [text, hgap, List.nil_append] at hch
    unfold isWord
    have hspells := p.spells
    generalize p.token = t at hspells hp
    generalize p.spelling = w at hspells hch ⊢
    have hmark : ch ∉ Name.marks := fun hmark => Name.ne_of_isWordChar h hmark rfl
    cases hspells with
    | number => cases hp
    | text => cases hp
    | word hc => simpa using hc
    | pair hpair =>
      cases hch
      exact (hmark (Token.mem_marks_of_ofPair hpair).1).elim
    | mark hm =>
      cases hch
      exact (hmark (Token.mem_marks_of_ofChar hm)).elim
  · rw [text, List.head?_append_of_ne_nil _ hgap] at hch
    rw [not_isWordChar_of_separator (p.isSeparator_of_mem_gap ch (List.mem_of_mem_head? hch))] at h
    cases h

/-- No call starts behind an operand. -/
lemma quiet_behind (hfs : fs.IsPlain) (hp : p.token.endsOperand = true)
    (hname : ∀ name, p.token ≠ .identifier name) (hnear : (p :: qs).IsChain Near)
    (hgap : ∀ ch ∈ gap, Token.isSeparator ch = true) :
    Quiet fs.isFunction (texts qs ++ gap) := by
  intro ch hch hword
  cases qs with
  | nil =>
    rw [not_isWordChar_of_separator (hgap ch (List.mem_of_mem_head? hch))] at hword
    cases hword
  | cons q qs =>
    obtain ⟨⟨hadjoins, -⟩, hnear⟩ := List.isChain_cons_cons.1 hnear
    have hfollows := followsOperand_of_adjoins hadjoins hp hname
    have hhead := hch
    rw [head?_texts_cons] at hhead
    obtain ⟨hnil, hisWord⟩ := isWord_of_isWordChar hhead hword hfollows
    have hoperator : ∀ name, q.token ≠ .identifier name := by
      rintro name hq
      rw [hq] at hfollows
      cases hfollows
    rw [texts_cons, text, hnil, List.nil_append, List.append_assoc] at hch ⊢
    exact quiet_operator hfs hisWord hoperator hnear hgap ch hch hword

/-- No call starts in a word with a digit that runs into what stands behind a number. -/
lemma quiet_number (hfs : fs.IsPlain) (hp : p.token.endsOperand = true)
    (hname : ∀ name, p.token ≠ .identifier name) (hnear : (p :: qs).IsChain Near)
    (hgap : ∀ ch ∈ gap, Token.isSeparator ch = true) {v : List Char}
    (hv : ∀ ch ∈ v, isWordChar ch = true ∧ ch.toNat < 128) {d : Char} (hd : d ∈ v)
    (hdigit : d.isDigit = true) : Quiet fs.isFunction (v ++ (texts qs ++ gap)) := by
  have hword : ∀ ch ∈ v, isWordChar ch = true := fun ch hch => (hv ch hch).1
  cases qs with
  | nil =>
    refine quiet_of_not_open hword (fun ch hch => ?_) (not_open_behind nofun hgap)
    exact not_isWordChar_of_separator (hgap ch (List.mem_of_mem_head? hch))
  | cons q qs =>
    obtain ⟨⟨hadjoins, -⟩, hnear⟩ := List.isChain_cons_cons.1 hnear
    have hfollows := followsOperand_of_adjoins hadjoins hp hname
    by_cases hruns : q.gap = [] ∧ q.isWord = true
    · obtain ⟨hnil, hisWord⟩ := hruns
      obtain ⟨htoken, hchars⟩ := token_of_isWord hisWord
      rw [texts_cons, text, hnil, List.nil_append, List.append_assoc, ← List.append_assoc]
      refine quiet_of_not_isFunction (List.forall_mem_append.2 ⟨hword, fun ch hch => ?_⟩)
        (not_isWordChar_behind hisWord hnear hgap) ?_
      · exact isWordChar_of_continues (hchars ch hch)
      · exact hfs.not_isFunction_of_digit (fun ch hch => (hv ch hch).2) hd hdigit
          (htoken ▸ hfollows)
    · refine quiet_of_not_open hword (fun ch hch => ?_) (not_open_behind ?_ hgap)
      · rw [head?_texts_cons] at hch
        exact eq_false_of_ne_true fun h => hruns (isWord_of_isWordChar hch h hfollows)
      · rintro _ ⟨⟩ hopen
        rw [hopen] at hfollows
        cases hfollows

/-- A piece is passed over when a call is looked for, unless it is a name before a parenthesis. -/
lemma nextCall?_piece (hfs : fs.IsPlain) (hnear : (p :: qs).IsChain Near)
    (hname : ∀ name, p.token = .identifier name → ∀ q ∈ qs.head?, q.token ≠ .openParen)
    (hgap : ∀ ch ∈ gap, Token.isSeparator ch = true) :
    nextCall? fs.isFunction false false (p.text ++ (texts qs ++ gap))
      = (nextCall? fs.isFunction false false (texts qs ++ gap)).map
          (behind p.text) := by
  suffices hspelling : nextCall? fs.isFunction false false
      (p.spelling ++ (texts qs ++ gap))
      = (nextCall? fs.isFunction false false (texts qs ++ gap)).map
          (behind p.spelling) by
    rw [text, List.append_assoc, nextCall?_gap p.isSeparator_of_mem_gap, hspelling, Option.map_map,
      behind_behind]
  by_cases hword : p.isWord = true
  · refine nextCall?_word p.spelling_ne_nil
      (fun ch hch => isWordChar_of_continues ((token_of_isWord hword).2 ch hch)) ?_
      (not_isWordChar_behind hword hnear hgap)
    by_cases hidentifier : ∃ name, p.token = .identifier name
    · obtain ⟨name, hp⟩ := hidentifier
      exact quiet_identifier hword hnear (hname name hp) hgap
    · exact quiet_operator hfs hword (fun name hp => hidentifier ⟨name, hp⟩) hnear hgap
  · have hspells := p.spells
    generalize hw : p.spelling = w at hspells
    generalize ht : p.token = t at hspells
    have hquote (htext : t.isText = false) : '"' ∉ w := fun hmem => by
      rw [← ht] at htext
      exact quote_not_mem_text htext (List.mem_append_right p.gap (hw ▸ hmem))
    cases hspells with
    | number hn =>
      have hends : p.token.endsOperand = true := by rw [ht]; rfl
      have hname : ∀ name, p.token ≠ .identifier name := by simp [ht]
      have hbehind := quiet_behind hfs hends hname hnear hgap
      refine nextCall?_append (hw ▸ p.spelling_ne_nil) (hquote rfl) (fun u v huv hv _ => ?_)
        fun _ _ _ => hbehind
      exact quiet_numeral hn huv hv fun v hv d hd => quiet_number hfs hends hname hnear hgap hv hd
    | text hs => simpa using nextCall?_text hs
    | word hc => exact absurd (by simp [isWord, hw, hc]) hword
    | pair hp =>
      obtain ⟨hc, hd⟩ := Token.mem_marks_of_ofPair hp
      refine nextCall?_plain (hquote ?_) (by simp [Name.not_isWordChar_of_mem_marks, hc, hd])
      unfold Token.ofPair at hp
      split at hp <;> cases hp <;> rfl
    | mark hm =>
      have hc := Token.mem_marks_of_ofChar hm
      refine nextCall?_plain (hquote ?_) (by simp [Name.not_isWordChar_of_mem_marks, hc])
      unfold Token.ofChar at hm
      split at hm <;> cases hm <;> rfl

/-- A name before a parenthesis is found as a call. -/
lemma nextCall?_call {n p : Piece} {name : String} (hn : n.token = .identifier name)
    (hp : p.token = .openParen) (hname : fs.isFunction name = true)
    (rest : List Char) :
    nextCall? fs.isFunction false false (n.text ++ (p.text ++ rest))
      = some (n.text ++ p.gap, rest) := by
  obtain ⟨hspelling, ⟨ch, hch, hstarts⟩, hchars⟩ := spelling_of_identifier hn
  have hword : ∀ d ∈ n.spelling, isWordChar d = true := fun d hd =>
    isWordChar_of_continues (hchars d hd)
  have hopen : isWordChar '(' = false ∧ Text.isBlank '(' = false := by decide
  have hblank : ∀ d ∈ p.gap, Text.isBlank d = true := fun d hd =>
    Token.isBlank_of_separator (p.isSeparator_of_mem_gap d hd)
  have htext : p.text ++ rest = p.gap ++ '(' :: rest := by
    rw [text_of_structural (c := '(') (by rw [hp]; rfl), List.append_assoc, List.singleton_append]
  have hstop : ∀ d ∈ (p.gap ++ '(' :: rest).head?, isWordChar d = false := by
    intro d hd
    cases hgap : p.gap with
    | nil =>
      rw [hgap] at hd
      cases hd
      exact hopen.1
    | cons d' gap =>
      rw [hgap] at hd
      cases hd
      exact not_isWordChar_of_separator (p.isSeparator_of_mem_gap _ (by simp [hgap]))
  have hcall : callAt? fs.isFunction (n.spelling ++ (p.gap ++ '(' :: rest))
      = some (n.spelling ++ p.gap, rest) := by
    rw [callAt?_word hword hstop, List.dropWhile_append_of_pos hblank,
      List.dropWhile_cons_of_neg (by simp [hopen.2]), hch, ← hspelling, hname]
    simp [Text.not_isNumeric_of_startsIdentifier hstarts, List.takeWhile_append_of_pos hblank,
      List.takeWhile_cons_of_neg, hopen.2]
  have hfirst : nextCall? fs.isFunction false false
      (n.spelling ++ (p.gap ++ '(' :: rest)) = some (n.spelling ++ p.gap, rest) := by
    obtain ⟨w, hw⟩ : ∃ w, n.spelling = ch :: w := ⟨_, (List.cons_head?_tail hch).symm⟩
    rw [hw, List.cons_append] at hcall ⊢
    rw [nextCall?]
    simp only [hword ch (by simp [hw]), hcall, (Token.isFirst_of_startsIdentifier hstarts).quote]
    simp
  rw [htext, text, List.append_assoc, nextCall?_gap n.isSeparator_of_mem_gap, hfirst]
  simp [behind]

end Piece

end Reckoner
