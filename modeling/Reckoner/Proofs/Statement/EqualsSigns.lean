import Reckoner.Proofs.Call.Programs
import Reckoner.Proofs.Rewriting.NextCall

/-!
# Tokens with an equals sign

Where an equals sign stands in a token, it is the assignment sign or part of a comparison, and it
makes an inequality together with a `!` or `not` before it.
-/

namespace Reckoner

/-! ### Tokens with an equals sign -/

namespace Token

lemma not_compoundOperator_of_separator {c : Char} (h : isSeparator c = true) :
    c ∉ Statement.compoundOperators := by
  intro hmem
  have hall : ∀ c ∈ Statement.compoundOperators, isSeparator c = false :=
    List.all_iff_forall_prop.1 (by decide)
  rw [hall c hmem] at h
  cases h

lemma not_compoundOperator_of_continues {c : Char} (h : continuesIdentifier c = true) :
    c ∉ Statement.compoundOperators := by
  intro hmem
  have hall : ∀ c ∈ Statement.compoundOperators, continuesIdentifier c = false :=
    List.all_iff_forall_prop.1 (by decide)
  rw [hall c hmem] at h
  cases h

end Token

namespace Token.Spells

variable {w : List Char} {t : Token}

/-- The tokens, except for texts, that are written with an equals sign, and what is before the sign:
nothing in `==` and `=`, else one mark. -/
lemma of_equals {pre post : List Char} (h : Spells (pre ++ '=' :: post) t) (ht : t.isText = false) :
    (pre = [] ∧ post = ['='] ∧ t = .binary .equal) ∨ (∃ c ∈ ['=', '!', '<', '>'], pre = [c])
      ∨ pre = [] ∧ t = .assign := by
  have hmem : '=' ∈ pre ++ '=' :: post := by simp
  generalize hw : pre ++ '=' :: post = w at h hmem
  cases h with
  | number hn =>
    obtain ⟨w', hw', -, -, hchars⟩ := Decimal.exists_of_takeNumeral hn
    rw [List.append_nil] at hw'
    subst hw'
    exact absurd (hchars _ hmem) (by decide)
  | text hs => cases ht
  | @word c w hc hcontinues =>
    have hall : ∀ d ∈ c :: w, continuesIdentifier d = true :=
      List.forall_mem_cons.2 ⟨continuesIdentifier_of_starts hc, hcontinues⟩
    exact absurd (hall _ hmem) (by decide)
  | pair hp =>
    unfold ofPair at hp
    split at hp
    all_goals cases hp
    all_goals rcases pre with _ | ⟨d, _ | ⟨d', pre⟩⟩ <;> simp_all
  | mark hm =>
    rcases pre with _ | ⟨d, pre⟩
    · cases hw
      exact .inr (.inr ⟨rfl, (Option.some.inj hm).symm⟩)
    · simp at hw

/-- A negation is written as a mark or as a word. -/
lemma of_bang (h : Spells w .bang) :
    w = ['!'] ∨ w.map Char.toLower = "not".toList ∧ ∀ c ∈ w, continuesIdentifier c = true := by
  generalize hbang : Token.bang = t at h
  cases h with
  | number hn => cases hbang
  | text hs => cases hbang
  | @word c w hc hw =>
    refine .inr ⟨?_, List.forall_mem_cons.2 ⟨continuesIdentifier_of_starts hc, hw⟩⟩
    simp only [ofWord] at hbang
    split_ifs at hbang with _ _ hnot
    rw [← hnot, String.toList_ofList]
  | pair hp =>
    subst hbang
    unfold ofPair at hp
    split at hp <;> cases hp
  | mark hm =>
    subst hbang
    unfold ofChar at hm
    split at hm
    all_goals first | exact .inl rfl | cases hm

/-- No negation ends with an arithmetic operator. -/
lemma getLast?_of_bang (h : Spells w .bang) :
    ∀ c ∈ w.getLast?, c ∉ Statement.compoundOperators := by
  intro c hc
  rcases h.of_bang with rfl | ⟨-, hall⟩
  · cases hc
    decide
  · exact not_compoundOperator_of_continues (hall c (List.mem_of_mem_getLast? hc))

/-- No operand ends with an arithmetic operator. -/
lemma getLast?_of_endsOperand (h : Spells w t) (ht : t.endsOperand = true) :
    ∀ c ∈ w.getLast?, c ∉ Statement.compoundOperators := by
  intro c hc
  cases h with
  | number hn =>
    rcases Decimal.getLast?_numeral hn c hc with hdigit | rfl
    · exact not_compoundOperator_of_continues (continuesIdentifier_of_isDigit hdigit)
    · decide
  | text hs =>
    rw [← List.cons_append, List.getLast?_append] at hc
    cases hc
    decide
  | @word d w hstarts hcontinues =>
    have hall : ∀ c ∈ d :: w, continuesIdentifier c = true :=
      List.forall_mem_cons.2 ⟨continuesIdentifier_of_starts hstarts, hcontinues⟩
    exact not_compoundOperator_of_continues (hall c (List.mem_of_mem_getLast? hc))
  | pair hp =>
    unfold ofPair at hp
    split at hp
    all_goals cases hp
    all_goals cases ht
  | mark hm =>
    unfold ofChar at hm
    split at hm
    all_goals cases hm
    all_goals first
      | cases hc; decide
      | cases ht

/-- No operand starts with a plus or an equals sign. -/
lemma head?_of_startsOperand (h : Spells w t) (ht : t.startsOperand = true) :
    ∀ c ∈ w.head?, c ≠ '+' ∧ c ≠ '=' := by
  intro c hc
  cases h with
  | number hn =>
    obtain ⟨w', hw', -, ⟨d, hd, hfirst⟩, -⟩ := Decimal.exists_of_takeNumeral hn
    rw [List.append_nil] at hw'
    subst hw'
    obtain rfl := Option.mem_unique hc hd
    constructor
    · rintro rfl
      exact absurd hfirst (by decide)
    · rintro rfl
      exact absurd hfirst (by decide)
  | text hs =>
    cases hc
    decide
  | word hstarts hcontinues =>
    cases hc
    constructor
    · rintro rfl
      exact absurd hstarts (by decide)
    · rintro rfl
      exact absurd hstarts (by decide)
  | pair hp =>
    unfold ofPair at hp
    split at hp
    all_goals cases hp
    all_goals cases ht
  | mark hm =>
    unfold ofChar at hm
    split at hm
    all_goals cases hm
    all_goals first
      | cases hc; decide
      | cases ht

end Token.Spells

/-! ### The piece of an equals sign -/

/-- Where the first of two lists ends in a list that holds an element. -/
lemma append_eq_append_cons {α : Type} {s t left right : List α} {c : α}
    (h : s ++ t = left ++ c :: right) :
    (∃ a, left = s ++ a ∧ t = a ++ c :: right) ∨ ∃ b, s = left ++ c :: b ∧ right = b ++ t := by
  rcases List.append_eq_append_iff.1 h with ⟨a, hleft, ht⟩ | ⟨b, hs, hb⟩
  · exact .inl ⟨a, hleft, ht⟩
  · cases b with
    | nil =>
      refine .inl ⟨[], by simpa using hs.symm, by simpa using hb.symm⟩
    | cons d b =>
      rw [List.cons_append, List.cons.injEq] at hb
      obtain ⟨rfl, hright⟩ := hb
      exact .inr ⟨b, hs, hright⟩

/-- Behind the opening quote of a text literal, a place is in it. -/
lemma Token.Spells.isText_after {u : String} {pre post : List Char} {c : Char} (hc : c ≠ '"')
    (h : Spells (pre ++ c :: post) (.text u)) {s : Text.Spot} (hs : s.isText = false) :
    (s.after pre).isText = true := by
  obtain ⟨hw, hquote⟩ := h.text_eq
  cases pre with
  | nil => exact absurd (List.cons.inj hw).1 hc
  | cons d pre =>
    rw [List.cons_append, List.cons.injEq] at hw
    obtain ⟨rfl, hw⟩ := hw
    have hpre : '"' ∉ pre := by
      rcases append_eq_append_cons hw.symm with ⟨a, rfl, ha⟩ | ⟨b, hb, -⟩
      · cases a with
        | nil => exact absurd (List.cons.inj ha).1.symm hc
        | cons d a => simp at ha
      · exact fun hmem => hquote (hb ▸ List.mem_append_left _ hmem)
    rw [Text.Spot.after_cons, Text.Spot.isText_after _ hpre, Text.Spot.isText_next, hs]
    rfl

namespace Piece

open Text (Spot)

lemma not_mem_gap (p : Piece) {c : Char} (hc : Token.isSeparator c = false) : c ∉ p.gap := by
  intro hmem
  rw [p.isSeparator_of_mem_gap c hmem] at hc
  cases hc

/-- A cut at an equals sign outside text literals goes through the spelling of a piece. -/
lemma exists_of_cut {ps : List Piece} {gap left right : List Char}
    (hgap : ∀ c ∈ gap, Token.isSeparator c = true) {s : Spot} (hs : s.isText = false)
    (h : texts ps ++ gap = left ++ '=' :: right) (hleft : (s.after left).isText = false) :
    ∃ front p rest pre post, ps = front ++ p :: rest ∧ p.token.isText = false
      ∧ p.spelling = pre ++ '=' :: post ∧ left = texts front ++ (p.gap ++ pre)
      ∧ right = post ++ (texts rest ++ gap) := by
  induction ps generalizing left s with
  | nil =>
    have hmem : '=' ∈ gap := by
      rw [texts_nil, List.nil_append] at h
      simp [h]
    exact absurd (hgap _ hmem) (by decide)
  | cons p ps ih =>
    rw [texts_cons, List.append_assoc] at h
    rcases append_eq_append_cons h with ⟨left', rfl, hrest⟩ | ⟨post, htext, rfl⟩
    · rw [Spot.after_append] at hleft
      obtain ⟨front, p', rest, pre, post, rfl, htoken, hspelling, rfl, hright⟩ :=
        ih (isText_after_text p hs) hrest hleft
      exact ⟨p :: front, p', rest, pre, post, rfl, htoken, hspelling, by simp, hright⟩
    · rw [text] at htext
      rcases append_eq_append_cons htext with ⟨pre, rfl, hspelling⟩ | ⟨b, hgap', -⟩
      · refine ⟨[], p, ps, pre, post, rfl, ?_, hspelling, by simp, by simp⟩
        by_contra htoken
        obtain ⟨u, hu⟩ : ∃ u, p.token = .text u := by
          cases ht : p.token with
          | text u => exact ⟨u, rfl⟩
          | _ => exact absurd (by rw [ht]; rfl) htoken
        have hspells := p.spells
        rw [hu, hspelling] at hspells
        have hgap' : (s.after p.gap).isText = false := by
          rw [Spot.isText_after s p.quote_not_mem_gap, hs]
        rw [Spot.after_append, hspells.isText_after (by decide) hgap'] at hleft
        cases hleft
      · have hmem : '=' ∈ p.gap := by simp [hgap']
        exact absurd hmem (p.not_mem_gap (by decide))

/-- A name is one piece. -/
lemma not_isValid_trim {ps : List Piece} {gap : List Char} (hlength : 1 < ps.length)
    (hps : ps.IsChain EndsBefore) (hgap : ∀ c ∈ gap, Token.isSeparator c = true) :
    Name.isValid (Text.trim (texts ps ++ gap)) = false := by
  by_contra hvalid
  rw [Bool.not_eq_false, trim_texts (List.ne_nil_of_length_pos (Nat.zero_lt_of_lt hlength)) hgap,
    ← List.append_nil (texts _)] at hvalid
  have hscan := Token.scan_texts isSeparator_of_mem_nil
    (isChain_regap_of isSeparator_of_mem_nil (fun _ _ h => h) hps)
  rcases Token.scan_name hvalid with ⟨-, hname⟩ | ⟨-, err, hname⟩
  · have htokens := congrArg List.length (Except.ok.inj (hscan.symm.trans hname))
    rw [List.length_map, length_regap, List.length_singleton] at htokens
    omega
  · cases hscan.symm.trans hname

end Piece

end Reckoner
