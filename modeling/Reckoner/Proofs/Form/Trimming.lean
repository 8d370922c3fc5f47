import Reckoner.Proofs.Form.Tokens
import Reckoner.Proofs.Text.Balance

/-!
# Forms of an expression in a text

A text is read as an expression if it is a form of it with gaps between the pieces, in which no
piece runs into the next one. Trimming takes only separators away, so that it keeps such a reading.
-/

namespace Reckoner

/-! ### Blanks -/

namespace Text

/-- The code points of white space. -/
def blankCodes : List Nat :=
  blankRanges.flatMap fun (first, last) => List.range' first (last + 1 - first)

lemma mem_blankCodes {c : Char} (h : isBlank c = true) : c.toNat ∈ blankCodes := by
  have hrange : ∀ {ranges : List (Nat × Nat)} {n : Nat}, inRanges ranges n = true →
      ∃ r ∈ ranges, r.1 ≤ n ∧ n ≤ r.2 := by
    intro ranges n h
    induction ranges with
    | nil => cases h
    | cons r ranges ih =>
      simp only [inRanges] at h
      split_ifs at h with hlow hhigh
      · exact ⟨r, List.mem_cons_self, not_lt.1 hlow, hhigh⟩
      · obtain ⟨r', hr', hbounds⟩ := ih h
        exact ⟨r', List.mem_cons_of_mem _ hr', hbounds⟩
  obtain ⟨r, hr, hlow, hhigh⟩ := hrange h
  refine List.mem_flatMap.2 ⟨r, hr, List.mem_range'_1.2 ⟨hlow, ?_⟩⟩
  omega

lemma not_letter_of_blankCodes :
    ∀ n ∈ blankCodes, inRanges letterRanges n = false ∧ inRanges numericRanges n = false := by
  decide +kernel

end Text

namespace Token

open Text (isBlank)

lemma isBlank_of_separator {c : Char} (h : isSeparator c = true) : isBlank c = true := by
  simp only [isSeparator, Bool.or_eq_true, beq_iff_eq] at h
  rcases h with (((rfl | rfl) | rfl) | rfl) | rfl <;> rfl

lemma not_isBlank_of_continues {c : Char} (h : continuesIdentifier c = true) :
    isBlank c = false := by
  by_contra hblank
  rw [Bool.not_eq_false] at hblank
  obtain ⟨hletter, hnumeric⟩ := Text.not_letter_of_blankCodes _ (Text.mem_blankCodes hblank)
  have hc : c = '_' := by
    simpa [continuesIdentifier, Text.isLetter, Text.isNumeric, hletter, hnumeric] using h
  rw [hc] at hblank
  exact absurd hblank (by decide)

lemma not_isBlank_of_numeral {c : Char} (h : Decimal.isNumeralChar c = true) :
    isBlank c = false := by
  simp only [Decimal.isNumeralChar, Decimal.continuesNumeral, Bool.or_eq_true, beq_iff_eq] at h
  rcases h with ((((hdigit | rfl) | rfl) | rfl) | rfl) | rfl
  · by_contra hblank
    rw [Bool.not_eq_false] at hblank
    have hcodes : ∀ n ∈ Text.blankCodes, n < 48 ∨ 57 < n := by decide
    have hrange := hcodes _ (Text.mem_blankCodes hblank)
    simp only [Char.isDigit, Bool.and_eq_true, decide_eq_true_eq] at hdigit
    have hlow : 48 ≤ c.toNat := hdigit.1
    have hhigh : c.toNat ≤ 57 := hdigit.2
    omega
  all_goals rfl

namespace Spells

variable {w : List Char} {t : Token}

/-- A token other than a text is written without blanks. -/
lemma not_isBlank (h : Spells w t) (ht : t.isText = false) : ∀ c ∈ w, isBlank c = false := by
  cases h with
  | number hn =>
    obtain ⟨w', hw', -, -, hchars⟩ := Decimal.exists_of_takeNumeral hn
    rw [List.append_nil] at hw'
    subst hw'
    exact fun c hc => not_isBlank_of_numeral (hchars c hc)
  | text hs => cases ht
  | word hc hw =>
    intro d hd
    rcases List.mem_cons.1 hd with rfl | hd
    · exact not_isBlank_of_continues (continuesIdentifier_of_starts hc)
    · exact not_isBlank_of_continues (hw d hd)
  | pair hp =>
    unfold ofPair at hp
    split at hp
    all_goals first | cases hp; exact List.all_iff_forall_prop.1 (by decide) | cases hp
  | mark hm =>
    unfold ofChar at hm
    split at hm
    all_goals first | cases hm; exact List.all_iff_forall_prop.1 (by decide) | cases hm

/-- No token starts or ends with a blank. -/
lemma not_isBlank_ends (h : Spells w t) :
    (∀ c ∈ w.head?, isBlank c = false) ∧ ∀ c ∈ w.getLast?, isBlank c = false := by
  cases ht : t.isText with
  | false =>
    refine ⟨fun c hc => h.not_isBlank ht c ?_, fun c hc => h.not_isBlank ht c ?_⟩
    · exact List.mem_of_mem_head? hc
    · exact List.mem_of_mem_getLast? hc
  | true =>
    cases t with
    | text s =>
      obtain ⟨rfl, -⟩ := h.text_eq
      constructor
      · rintro c ⟨⟩
        rfl
      · intro c hc
        rw [← List.cons_append, List.getLast?_append] at hc
        cases hc
        rfl
    | _ => cases ht

end Spells

end Token

/-! ### Trimming -/

namespace Text

lemma dropWhile_eq_self {p : Char → Bool} {t : List Char} (ht : ∀ c ∈ t.head?, p c = false) :
    t.dropWhile p = t := by
  cases t with
  | nil => rfl
  | cons c t => exact List.dropWhile_cons_of_neg (by simp [ht c rfl])

/-- A text without blanks at its ends is what remains of it when blanks are added there. -/
lemma trim_eq {s t u : List Char} (hs : ∀ c ∈ s, isBlank c = true)
    (hu : ∀ c ∈ u, isBlank c = true) (hhead : ∀ c ∈ t.head?, isBlank c = false)
    (hlast : ∀ c ∈ t.getLast?, isBlank c = false) (ht : t ≠ []) : trim (s ++ (t ++ u)) = t := by
  have hhead' : ∀ c ∈ (t ++ u).head?, isBlank c = false := by
    rw [List.head?_append_of_ne_nil _ ht]
    exact hhead
  have hlast' : ∀ c ∈ t.reverse.head?, isBlank c = false := by
    rw [List.head?_reverse]
    exact hlast
  have hu' : ∀ c ∈ u.reverse, isBlank c = true := fun c hc => hu c (List.mem_reverse.1 hc)
  rw [trim, trimStart, List.dropWhile_append_of_pos hs, dropWhile_eq_self hhead', trimEnd,
    List.reverse_append, List.dropWhile_append_of_pos hu', dropWhile_eq_self hlast',
      List.reverse_reverse]

/-- What trimming takes away. -/
lemma exists_trim (t : List Char) :
    ∃ u v, t = u ++ (trim t ++ v) ∧ (∀ c ∈ u, isBlank c = true) ∧ ∀ c ∈ v, isBlank c = true := by
  have hend (t : List Char) :
      t = trimEnd t ++ (t.reverse.takeWhile isBlank).reverse := by
    rw [trimEnd, ← List.reverse_append, List.takeWhile_append_dropWhile, List.reverse_reverse]
  refine ⟨t.takeWhile isBlank, ((trimStart t).reverse.takeWhile isBlank).reverse, ?_,
    fun c hc => List.mem_takeWhile_imp hc, fun c hc => ?_⟩
  · rw [trim, ← hend, trimStart, List.takeWhile_append_dropWhile]
  · exact List.mem_takeWhile_imp (List.mem_reverse.1 hc)

lemma trim_blanks_append {u : List Char} (hu : ∀ c ∈ u, isBlank c = true) (t : List Char) :
    trim (u ++ t) = trim t := by
  rw [trim, trim, trimStart, List.dropWhile_append_of_pos hu, trimStart]

lemma trim_append_blanks {v : List Char} (hv : ∀ c ∈ v, isBlank c = true) (t : List Char) :
    trim (t ++ v) = trim t := by
  have hend : ∀ s, trimEnd (s ++ v) = trimEnd s := by
    intro s
    rw [trimEnd, List.reverse_append,
      List.dropWhile_append_of_pos fun c hc => hv c (List.mem_reverse.1 hc), trimEnd]
  rw [trim, trimStart, List.dropWhile_append, List.dropWhile_eq_nil_iff.2 hv]
  split
  · rename_i hall
    rw [trim, trimStart, List.isEmpty_iff.1 hall]
  · exact hend _

lemma trim_trim (t : List Char) : trim (trim t) = trim t := by
  obtain ⟨u, v, ht, hu, hv⟩ := exists_trim t
  conv_rhs => rw [ht, trim_blanks_append hu, trim_append_blanks hv]

lemma mem_trim {t : List Char} {c : Char} (hc : c ∈ t) (hblank : isBlank c = false) :
    c ∈ trim t := by
  obtain ⟨u, v, ht, hu, hv⟩ := exists_trim t
  rw [ht, List.mem_append, List.mem_append] at hc
  rcases hc with hc | hc | hc
  · rw [hu c hc] at hblank
    cases hblank
  · exact hc
  · rw [hv c hc] at hblank
    cases hblank

lemma mem_of_mem_trim {t : List Char} {c : Char} (hc : c ∈ trim t) : c ∈ t := by
  obtain ⟨u, v, ht, -, -⟩ := exists_trim t
  rw [ht]
  simp [hc]

lemma getLast?_trim (t : List Char) : ∀ c ∈ (trim t).getLast?, isBlank c = false := by
  intro c hc
  rw [trim, trimEnd, List.getLast?_reverse] at hc
  have hstop := List.head?_dropWhile_not isBlank (trimStart t).reverse
  rw [hc] at hstop
  simpa using hstop

end Text

namespace Piece

/-- The piece with another gap before it. -/
def withGap (p : Piece) (gap : List Char) (h : ∀ c ∈ gap, Token.isSeparator c = true) : Piece where
  gap := gap
  spelling := p.spelling
  token := p.token
  isSeparator_of_mem_gap := h
  spells := p.spells

/-- Pieces with another gap before the first one. -/
def regap (gap : List Char) (h : ∀ c ∈ gap, Token.isSeparator c = true) : List Piece → List Piece
  | [] => []
  | p :: ps => p.withGap gap h :: ps

lemma isSeparator_of_mem_nil : ∀ c ∈ ([] : List Char), Token.isSeparator c = true :=
  List.forall_mem_nil _

/-- Pieces with no gap before the first one. -/
def flush (ps : List Piece) : List Piece :=
  regap [] isSeparator_of_mem_nil ps

lemma texts_regap {gap : List Char} (h : ∀ c ∈ gap, Token.isSeparator c = true) {ps : List Piece}
    (hps : ps ≠ []) : texts (regap gap h ps) = gap ++ texts (flush ps) := by
  cases ps with
  | nil => exact absurd rfl hps
  | cons p ps => simp [regap, flush, text, withGap]

lemma length_regap {gap : List Char} (h : ∀ c ∈ gap, Token.isSeparator c = true) (ps : List Piece) :
    (regap gap h ps).length = ps.length := by
  cases ps <;> rfl

lemma exists_texts_eq {ps : List Piece} (hps : ps ≠ []) :
    ∃ gap, (∀ c ∈ gap, Token.isSeparator c = true) ∧ texts ps = gap ++ texts (flush ps) := by
  cases ps with
  | nil => exact absurd rfl hps
  | cons p ps => exact ⟨p.gap, p.isSeparator_of_mem_gap, by simp [flush, regap, text, withGap]⟩

lemma head?_texts_flush (p : Piece) (ps : List Piece) :
    (texts (flush (p :: ps))).head? = p.spelling.head? := by
  simp only [flush, regap, texts_cons, text, withGap, List.nil_append]
  exact List.head?_append_of_ne_nil _ p.spelling_ne_nil

/-- The text of pieces ends as the last piece does. -/
lemma getLast?_texts {ps : List Piece} {p : Piece} (hp : p ∈ ps.getLast?) :
    (texts ps).getLast? = p.spelling.getLast? := by
  obtain ⟨qs, rfl⟩ := List.getLast?_eq_some_iff.1 hp
  rw [texts_append, texts_cons, texts_nil, List.append_nil, text, ← List.append_assoc,
    List.getLast?_append_of_ne_nil _ p.spelling_ne_nil]

/-- Trimming the text of pieces takes the gaps at its ends away. -/
lemma trim_texts {ps : List Piece} (hps : ps ≠ []) {gap : List Char}
    (hgap : ∀ c ∈ gap, Token.isSeparator c = true) :
    Text.trim (texts ps ++ gap) = texts (flush ps) := by
  obtain ⟨first, hfirst, htexts⟩ := exists_texts_eq hps
  have hblank : ∀ {t : List Char}, (∀ c ∈ t, Token.isSeparator c = true) →
      ∀ c ∈ t, Text.isBlank c = true :=
    fun ht c hc => Token.isBlank_of_separator (ht c hc)
  rw [htexts, List.append_assoc]
  cases ps with
  | nil => exact absurd rfl hps
  | cons p ps =>
    obtain ⟨q, hq⟩ : ∃ q, q ∈ (flush (p :: ps)).getLast? :=
      ⟨_, List.getLast?_eq_getLast_of_ne_nil (by simp [flush, regap])⟩
    refine Text.trim_eq (hblank hfirst) (hblank hgap) ?_ ?_ ?_
    · rw [head?_texts_flush]
      exact p.spells.not_isBlank_ends.1
    · rw [getLast?_texts hq]
      exact q.spells.not_isBlank_ends.2
    · simp [flush, regap, texts_cons, text_ne_nil]

end Piece

lemma Piece.trim_texts_ne_nil {ps : List Piece} (hps : ps ≠ []) {gap : List Char}
    (hgap : ∀ c ∈ gap, Token.isSeparator c = true) : Text.trim (texts ps ++ gap) ≠ [] := by
  rw [trim_texts hps hgap]
  cases ps with
  | nil => exact absurd rfl hps
  | cons p ps => simp [flush, regap, texts_cons, text_ne_nil]

/-- The first gap of an expression can be any. -/
lemma Forms.regap {e : Expr} {p : Piece} {ps : List Piece} (h : Forms e (p :: ps)) {p' : Piece}
    (hp : p'.token = p.token) : Forms e (p' :: ps) := by
  generalize hps : p :: ps = qs at h
  cases e with
  | binary op l r =>
    cases h with
    | @binary _ _ _ ls os rs hl ho hr =>
      cases ls with
      | nil => exact absurd rfl hl.ne_nil
      | cons q ls =>
        rw [List.cons_append, List.cons.injEq] at hps
        obtain ⟨rfl, rfl⟩ := hps
        exact .binary (Forms.regap hl hp) ho hr
  | conditional c t e =>
    cases h with
    | @conditional _ _ _ q k cs ts es hc hq ht hk he =>
      cases cs with
      | nil => exact absurd rfl hc.ne_nil
      | cons q cs =>
        rw [List.cons_append, List.cons.injEq] at hps
        obtain ⟨rfl, rfl⟩ := hps
        exact .conditional (Forms.regap hc hp) hq ht hk he
  | number x =>
    cases h with
    | number h => cases hps; exact .number (hp.trans h)
    | signed h hq => cases hps; exact .signed (hp.trans h) hq
  | text s =>
    cases h with
    | text h => cases hps; exact .text (hp.trans h)
  | identifier name =>
    cases h with
    | identifier h => cases hps; exact .identifier (hp.trans h)
  | group e =>
    cases h with
    | group h he hq => cases hps; exact .group (hp.trans h) he hq
  | call name args =>
    cases h with
    | call h hp' hargs hq => cases hps; exact .call (hp.trans h) hp' hargs hq
  | vector items =>
    cases h with
    | vector h hitems hq => cases hps; exact .vector (hp.trans h) hitems hq
  | unary op e =>
    cases h with
    | negate h he hps' => cases hps; exact .negate (hp.trans h) he hps'
    | not h he => cases hps; exact .not (hp.trans h) he
termination_by structural e

namespace Piece

variable {e : Expr} {ps : List Piece} {gap : List Char}

lemma forms_regap (hgap : ∀ c ∈ gap, Token.isSeparator c = true) (h : Forms e ps) :
    Forms e (regap gap hgap ps) := by
  cases ps with
  | nil => exact absurd rfl h.ne_nil
  | cons p ps => exact h.regap rfl

/-- Whatever holds of neighbours, however much space there is before the first of them. -/
lemma isChain_regap_of {R : Piece → Piece → Prop} (hgap : ∀ c ∈ gap, Token.isSeparator c = true)
    (hR : ∀ p q, R p q → R (p.withGap gap hgap) q) (h : ps.IsChain R) :
    (regap gap hgap ps).IsChain R := by
  cases ps with
  | nil => exact .nil
  | cons p ps =>
    rw [regap, List.isChain_cons] at *
    exact ⟨fun q hq => hR p q (h.1 q hq), h.2⟩

lemma isChain_regap (hgap : ∀ c ∈ gap, Token.isSeparator c = true) (h : ps.IsChain Apart) :
    (regap gap hgap ps).IsChain Apart :=
  isChain_regap_of hgap (fun _ _ h => h) h

end Piece

/-- A text that is read as an expression: its pieces form the expression, keep apart from each other
and are followed by a gap. -/
def Reads (e : Expr) (text : List Char) : Prop :=
  ∃ ps gap, text = Piece.texts ps ++ gap ∧ (∀ c ∈ gap, Token.isSeparator c = true)
    ∧ Forms e ps ∧ ps.IsChain Piece.Apart

namespace Reads

variable {e : Expr} {text : List Char}

/-- A text is read as the same expression when it is trimmed. -/
lemma trim (h : Reads e text) : Reads e (Text.trim text) := by
  obtain ⟨ps, gap, rfl, hgap, hps, hchain⟩ := h
  refine ⟨Piece.flush ps, [], ?_, by simp, ?_, ?_⟩
  · rw [Piece.trim_texts hps.ne_nil hgap, List.append_nil]
  · exact Piece.forms_regap _ hps
  · exact Piece.isChain_regap _ hchain

lemma tokenize_eq (h : Reads e text) : Token.tokenize text = .ok e.tokens := by
  obtain ⟨ps, gap, rfl, hgap, hps, hchain⟩ := h
  exact hps.tokenize_texts hchain hgap

end Reads

end Reckoner
