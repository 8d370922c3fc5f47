import Reckoner.Proofs.Token.Numerals
import Reckoner.Token.Lexer

/-!
# Spellings of tokens

Each token has its spellings, and a spelling is taken from the front of a text as that token. This
depends on the text behind it only through the first character there: a word must not go on, and
neither must a number or a mark.
-/

namespace Reckoner

namespace Token

/-- Whether a token is a number. -/
def isNumber : Token → Bool
  | .number _ => true
  | _ => false

/-! ### Spellings -/

/-- The ways to write a token. -/
inductive Spells : List Char → Token → Prop where
  | number {w : List Char} {n : Decimal.Numeral} (h : Decimal.takeNumeral w = some (n, [])) :
    Spells w (.number n.value)
  | text {s : List Char} (h : '"' ∉ s) : Spells ('"' :: (s ++ ['"'])) (.text (String.ofList s))
  | word {c : Char} {w : List Char} (hc : startsIdentifier c = true)
    (hw : ∀ d ∈ w, continuesIdentifier d = true) : Spells (c :: w) (ofWord (c :: w))
  | pair {c d : Char} {t : Token} (h : ofPair c d = some t) : Spells [c, d] t
  | mark {c : Char} {t : Token} (h : ofChar c = some t) : Spells [c] t

lemma ofWord_cases (word : List Char) :
    ofWord word = .binary .and ∨ ofWord word = .binary .or ∨ ofWord word = .bang
      ∨ ofWord word = .identifier (String.ofList word) := by
  unfold ofWord
  dsimp only
  split_ifs <;> simp

lemma Spells.ne_nil {w : List Char} {t : Token} (h : Spells w t) : w ≠ [] := by
  cases h with
  | number hn =>
    rintro rfl
    cases hn
  | _ => simp

/-- Whether a spelling could go on with a character. -/
def goesOn (w : List Char) (c : Char) : Bool :=
  match w with
  | [] => false
  | d :: tail =>
    if d.isDigit || d == '.' then Decimal.continuesNumeral c
    else if d == '"' then false
    else if startsIdentifier d then continuesIdentifier c
    else tail.isEmpty && (ofPair d c).isSome

lemma takeNumeral_eq_none {c : Char} (hdigit : c.isDigit = false) (hpoint : c ≠ '.')
    (tail : List Char) : Decimal.takeNumeral (c :: tail) = none := by
  have htake : (c :: tail).takeWhile Char.isDigit = [] :=
    List.takeWhile_cons_of_neg (by simp [hdigit])
  have hdrop : (c :: tail).dropWhile Char.isDigit = c :: tail :=
    List.dropWhile_cons_of_neg (by simp [hdigit])
  simp only [Decimal.takeNumeral, htake, hdrop]
  split
  · rename_i heq
    cases heq
    exact absurd rfl hpoint
  · rfl

lemma take_of_takeNumeral {c : Char} {tail rest : List Char} {n : Decimal.Numeral}
    (h : Decimal.takeNumeral (c :: tail) = some (n, rest)) :
    take c tail = .ok (.number n.value, ⟨rest, Decimal.length_takeNumeral h⟩) := by
  unfold take
  split
  · rename_i n' rest' h'
    obtain ⟨rfl, rfl⟩ : n' = n ∧ rest' = rest := by
      rw [h] at h'
      simpa [eq_comm] using h'
    rfl
  · rename_i h'
    rw [h] at h'
    cases h'

lemma take_of_not_numeral {c : Char} {tail : List Char}
    (h : Decimal.takeNumeral (c :: tail) = none) :
    take c tail
      = if c = '"' then takeText c tail
        else if startsIdentifier c then
          .ok (ofWord (c :: tail.takeWhile continuesIdentifier),
            ⟨tail.dropWhile continuesIdentifier,
              Nat.lt_succ_of_le (List.length_dropWhile_le continuesIdentifier tail)⟩)
        else takeMark c tail := by
  unfold take
  split
  · rename_i h'
    rw [h] at h'
    cases h'
  · rfl

lemma isLetter_eq_false {c : Char} (h : c.toNat < 0x41) : Text.isLetter c = false := by
  unfold Text.isLetter Text.letterRanges
  exact if_pos h

lemma not_isDigit_of_startsIdentifier {c : Char} (h : startsIdentifier c = true) :
    c.isDigit = false := by
  by_contra hdigit
  simp only [Char.isDigit, Bool.and_eq_false_iff, decide_eq_false_iff_not, not_or, not_not]
    at hdigit
  have hsmall : c.toNat < 0x41 := by
    have h := hdigit.2
    change c.val.toNat ≤ 57 at h
    change c.val.toNat < 65
    omega
  simp only [startsIdentifier, isLetter_eq_false hsmall, Bool.false_and, Bool.false_or,
    beq_iff_eq] at h
  subst h
  revert hsmall
  decide

/-- The characters that no spelling of a word, number or gap holds. -/
def isStructural (c : Char) : Bool :=
  c == '"' || c == '(' || c == ')' || c == '[' || c == ']' || c == '?' || c == ':' || c == ','

lemma eq_of_isStructural {c : Char} (h : isStructural c = true) :
    c = '"' ∨ c = '(' ∨ c = ')' ∨ c = '[' ∨ c = ']' ∨ c = '?' ∨ c = ':' ∨ c = ',' := by
  simpa [isStructural, or_assoc] using h

lemma not_isStructural_of_continues {c : Char} (h : continuesIdentifier c = true) :
    isStructural c = false := by
  by_contra hs
  rcases eq_of_isStructural (by simpa using hs) with
    rfl | rfl | rfl | rfl | rfl | rfl | rfl | rfl <;> revert h <;> decide

lemma not_isStructural_of_separator {c : Char} (h : isSeparator c = true) :
    isStructural c = false := by
  by_contra hs
  rcases eq_of_isStructural (by simpa using hs) with
    rfl | rfl | rfl | rfl | rfl | rfl | rfl | rfl <;> revert h <;> decide

lemma not_isStructural_of_numeral {c : Char} (h : Decimal.isNumeralChar c = true) :
    isStructural c = false := by
  by_contra hs
  rcases eq_of_isStructural (by simpa using hs) with
    rfl | rfl | rfl | rfl | rfl | rfl | rfl | rfl <;> revert h <;> decide

lemma not_isSeparator_of_numeral {c : Char} (h : Decimal.isNumeralChar c = true) :
    isSeparator c = false := by
  by_contra hs
  simp only [isSeparator, Bool.not_eq_false, Bool.or_eq_true, beq_iff_eq, or_assoc] at hs
  rcases hs with rfl | rfl | rfl | rfl | rfl <;> revert h <;> decide

lemma continuesIdentifier_of_starts {c : Char} (h : startsIdentifier c = true) :
    continuesIdentifier c = true := by
  simp only [startsIdentifier, continuesIdentifier, Bool.or_eq_true, Bool.and_eq_true] at h ⊢
  tauto

/-- What a character that a spelling starts with is not. -/
structure IsFirst (c : Char) : Prop where
  digit : c.isDigit = false
  point : c ≠ '.'
  quote : c ≠ '"'
  separator : isSeparator c = false

lemma isFirst_of_startsIdentifier {c : Char} (h : startsIdentifier c = true) : IsFirst c := by
  refine ⟨not_isDigit_of_startsIdentifier h, ?_, ?_, ?_⟩
  · rintro rfl
    revert h
    decide
  · rintro rfl
    revert h
    decide
  · by_contra hs
    simp only [isSeparator, Bool.not_eq_false, Bool.or_eq_true, beq_iff_eq, or_assoc] at hs
    rcases hs with rfl | rfl | rfl | rfl | rfl <;> revert h <;> decide

lemma isFirst_of_ofChar {c : Char} {t : Token} (h : ofChar c = some t) :
    IsFirst c ∧ startsIdentifier c = false := by
  unfold ofChar at h
  split at h
  all_goals first
    | exact ⟨⟨by decide, by decide, by decide, by decide⟩, by decide⟩
    | cases h

lemma isFirst_of_ofPair {c d : Char} {t : Token} (h : ofPair c d = some t) :
    IsFirst c ∧ startsIdentifier c = false := by
  unfold ofPair at h
  split at h
  all_goals first
    | exact ⟨⟨by decide, by decide, by decide, by decide⟩, by decide⟩
    | cases h

lemma goesOn_word {c : Char} (hc : startsIdentifier c = true) (w : List Char) (d : Char) :
    goesOn (c :: w) d = continuesIdentifier d := by
  obtain ⟨hdigit, hpoint, hquote, -⟩ := isFirst_of_startsIdentifier hc
  simp [goesOn, hdigit, hpoint, hquote, hc]

lemma goesOn_mark {c : Char} {t : Token} (hc : ofChar c = some t) (d : Char) :
    goesOn [c] d = (ofPair c d).isSome := by
  obtain ⟨⟨hdigit, hpoint, hquote, -⟩, hstart⟩ := isFirst_of_ofChar hc
  simp [goesOn, hdigit, hpoint, hquote, hstart]

lemma goesOn_pair {c d : Char} {t : Token} (h : ofPair c d = some t) (d' : Char) :
    goesOn [c, d] d' = false := by
  obtain ⟨⟨hdigit, hpoint, hquote, -⟩, hstart⟩ := isFirst_of_ofPair h
  simp [goesOn, hdigit, hpoint, hquote, hstart]

/-! ### One token -/

/-- Whether a token stands at the front of a text, and what follows it. -/
def Takes (text : List Char) (t : Token) (rest : List Char) : Prop :=
  ∃ c tail hlt, text = c :: tail ∧ isSeparator c = false ∧ take c tail = .ok (t, ⟨rest, hlt⟩)

namespace Takes

variable {w rest : List Char} {c d : Char} {t : Token}

lemma number {n : Decimal.Numeral} (h : Decimal.takeNumeral w = some (n, []))
    (hrest : ∀ c ∈ rest.head?, goesOn w c = false) : Takes (w ++ rest) (.number n.value) rest := by
  obtain ⟨w', hw', -, ⟨c, hc, hfirst⟩, hchars⟩ := Decimal.exists_of_takeNumeral h
  rw [List.append_nil] at hw'
  subst hw'
  cases w with
  | nil => cases hc
  | cons d tail =>
    obtain rfl : d = c := by simpa using hc
    have hd : (d.isDigit || d == '.') = true := by simpa using hfirst
    have hstop : ∀ c ∈ rest.head?, Decimal.continuesNumeral c = false := by
      intro c hc
      simpa only [goesOn, hd, if_true] using hrest c hc
    have hread := Decimal.takeNumeral_append h hstop
    exact ⟨d, tail ++ rest, _, rfl, not_isSeparator_of_numeral (hchars d List.mem_cons_self),
      take_of_takeNumeral hread⟩

lemma text {s : List Char} (h : '"' ∉ s) :
    Takes ('"' :: (s ++ '"' :: rest)) (.text (String.ofList s)) rest := by
  have hquotes : ∀ c ∈ s, (c != '"') = true := by
    intro c hc
    rw [bne_iff_ne]
    rintro rfl
    exact h hc
  have htake : (s ++ '"' :: rest).takeWhile (· != '"') = s := by
    rw [List.takeWhile_append_of_pos hquotes, List.takeWhile_cons_of_neg (by decide),
      List.append_nil]
  have hdrop : (s ++ '"' :: rest).dropWhile (· != '"') = '"' :: rest := by
    rw [List.dropWhile_append_of_pos hquotes, List.dropWhile_cons_of_neg (by decide)]
  refine ⟨'"', _, ?_, rfl, rfl, ?_⟩
  · simp only [List.length_cons, List.length_append]
    omega
  · rw [take_of_not_numeral (takeNumeral_eq_none (by decide) (by decide) _), if_pos rfl, takeText]
    split
    · rename_i heq
      rw [hdrop] at heq
      cases heq
    · rename_i heq
      rw [hdrop] at heq
      cases heq
      simp only [htake]

lemma word (hc : startsIdentifier c = true) (hw : ∀ d ∈ w, continuesIdentifier d = true)
    (hrest : ∀ d ∈ rest.head?, continuesIdentifier d = false) :
    Takes (c :: (w ++ rest)) (ofWord (c :: w)) rest := by
  obtain ⟨hdigit, hpoint, hquote, hseparator⟩ := isFirst_of_startsIdentifier hc
  have htake : (w ++ rest).takeWhile continuesIdentifier = w := by
    rw [Text.takeWhile_append_of_stop hrest, List.takeWhile_eq_self_iff.2 hw]
  have hdrop : (w ++ rest).dropWhile continuesIdentifier = rest := by
    rw [Text.dropWhile_append_of_stop hrest, List.dropWhile_eq_nil_iff.2 hw, List.nil_append]
  refine ⟨c, _, ?_, rfl, hseparator, ?_⟩
  · simp only [List.length_cons, List.length_append]
    omega
  · rw [take_of_not_numeral (takeNumeral_eq_none hdigit hpoint _), if_neg hquote, if_pos hc]
    simp only [htake, hdrop]

lemma pair (h : ofPair c d = some t) : Takes (c :: d :: rest) t rest := by
  obtain ⟨⟨hdigit, hpoint, hquote, hseparator⟩, hstart⟩ := isFirst_of_ofPair h
  refine ⟨c, _, ?_, rfl, hseparator, ?_⟩
  · simp only [List.length_cons]
    omega
  · rw [take_of_not_numeral (takeNumeral_eq_none hdigit hpoint _), if_neg hquote,
      if_neg (by simp [hstart])]
    simp only [takeMark, h]

lemma mark (h : ofChar c = some t) (hrest : ∀ d ∈ rest.head?, ofPair c d = none) :
    Takes (c :: rest) t rest := by
  obtain ⟨⟨hdigit, hpoint, hquote, hseparator⟩, hstart⟩ := isFirst_of_ofChar h
  refine ⟨c, _, Nat.lt_succ_self _, rfl, hseparator, ?_⟩
  rw [take_of_not_numeral (takeNumeral_eq_none hdigit hpoint _), if_neg hquote,
    if_neg (by simp [hstart])]
  cases rest with
  | nil => simp only [takeMark, h]
  | cons d rest => simp only [takeMark, hrest d rfl, h]

/-- A spelling is read as its token before anything that does not go on with it. -/
lemma of_spells (h : Spells w t) (hrest : ∀ c ∈ rest.head?, goesOn w c = false) :
    Takes (w ++ rest) t rest := by
  cases h with
  | number hn => exact number hn hrest
  | text hs =>
    rw [List.cons_append, List.append_assoc]
    exact text hs
  | word hc hw =>
    exact word hc hw fun d hd => by rw [← goesOn_word hc, hrest d hd]
  | pair hp => exact pair hp
  | mark hm =>
    exact mark hm fun d hd => by simpa [goesOn_mark hm] using hrest d hd

/-- A token at the front is put before those behind it. -/
lemma scan_eq {text : List Char} (h : Takes text t rest) :
    scan text = (scan rest).map (t :: ·) := by
  obtain ⟨c, tail, hlt, rfl, hseparator, htake⟩ := h
  rw [scan, if_neg (by simp [hseparator]), htake]
  rfl

end Takes

lemma spells_of_takeText {tail : List Char} {t : Token} {rest}
    (h : takeText '"' tail = .ok (t, rest)) :
    ∃ w, '"' :: tail = w ++ rest.val ∧ Spells w t := by
  have hsplit := List.takeWhile_append_dropWhile (p := (· != '"')) (l := tail)
  have hquote : '"' ∉ tail.takeWhile (· != '"') := by
    intro hmem
    have := List.mem_takeWhile_imp hmem
    simp at this
  unfold takeText at h
  split at h
  · cases h
  · rename_i d rest' heq
    have hd : d = '"' := by
      have hhead : d ∈ (tail.dropWhile (· != '"')).head? := by rw [heq]; rfl
      simpa using Decimal.dropWhile_head_not d hhead
    subst hd
    cases h
    refine ⟨'"' :: (tail.takeWhile (· != '"') ++ ['"']), ?_, .text hquote⟩
    rw [heq] at hsplit
    rw [List.cons_append, List.append_assoc]
    exact congrArg _ hsplit.symm

lemma spells_of_takeMark {c : Char} {tail : List Char} {t : Token} {rest}
    (h : takeMark c tail = .ok (t, rest)) :
    ∃ w, c :: tail = w ++ rest.val ∧ Spells w t ∧ ∀ d ∈ rest.val.head?, goesOn w d = false := by
  unfold takeMark at h
  split at h
  · split at h
    · cases h
      exact ⟨[c], rfl, .mark ‹_›, by simp⟩
    · cases h
  · split at h
    · rename_i hpair
      cases h
      exact ⟨[c, _], rfl, .pair hpair, fun d _ => goesOn_pair hpair d⟩
    · rename_i hpair
      split at h
      · rename_i hmark
        cases h
        refine ⟨[c], rfl, .mark hmark, ?_⟩
        rintro d ⟨⟩
        rw [goesOn_mark hmark, hpair]
        rfl
      · cases h

/-- What is read as a token other than a number spells it and does not go on behind it. -/
lemma spells_of_not_numeral {c : Char} {tail : List Char} {t : Token} {rest}
    (hn : Decimal.takeNumeral (c :: tail) = none) (h : take c tail = .ok (t, rest)) :
    ∃ w, c :: tail = w ++ rest.val ∧ Spells w t ∧ ∀ d ∈ rest.val.head?, goesOn w d = false := by
  rw [take_of_not_numeral hn] at h
  split_ifs at h with hquote hstart
  · subst hquote
    obtain ⟨w, hw, hspells⟩ := spells_of_takeText h
    refine ⟨w, hw, hspells, fun d _ => ?_⟩
    cases w with
    | nil => rfl
    | cons d' w =>
      obtain rfl := (List.cons.inj hw).1
      rfl
  · cases h
    refine ⟨c :: tail.takeWhile continuesIdentifier, ?_, ?_, ?_⟩
    · simp
    · exact .word hstart fun d hd => List.mem_takeWhile_imp hd
    · intro d hd
      rw [goesOn_word hstart]
      exact Decimal.dropWhile_head_not d hd
  · exact spells_of_takeMark h

/-- What is read as a token spells it and, except for a number, does not go on behind it. -/
lemma spells_of_take {c : Char} {tail : List Char} {t : Token} {rest}
    (h : take c tail = .ok (t, rest)) :
    ∃ w, c :: tail = w ++ rest.val ∧ Spells w t
      ∧ (t.isNumber = false → ∀ d ∈ rest.val.head?, goesOn w d = false) := by
  cases hn : Decimal.takeNumeral (c :: tail) with
  | some read =>
    obtain ⟨n, rest'⟩ := read
    rw [take_of_takeNumeral hn] at h
    cases h
    obtain ⟨w, hw, hnumeral, -, -⟩ := Decimal.exists_of_takeNumeral hn
    exact ⟨w, hw, .number hnumeral, fun hnumber => by cases hnumber⟩
  | none =>
    obtain ⟨w, hw, hspells, hstop⟩ := spells_of_not_numeral hn h
    exact ⟨w, hw, hspells, fun _ => hstop⟩

end Token

end Reckoner
