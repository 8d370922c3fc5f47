import Reckoner.Proofs.Token.Spellings

/-!
# Pieces of a text

A text that can be read as tokens is a row of pieces, each of them a gap of separators and the
spelling of one token.
-/

namespace Reckoner

/-- A token of a text with its spelling and the separators before it. -/
structure Piece where
  gap : List Char
  spelling : List Char
  token : Token
  isSeparator_of_mem_gap : ∀ c ∈ gap, Token.isSeparator c = true
  spells : Token.Spells spelling token

namespace Piece

/-- The characters of a piece. -/
def text (p : Piece) : List Char :=
  p.gap ++ p.spelling

/-- The characters of pieces in a row. -/
def texts (ps : List Piece) : List Char :=
  ps.flatMap text

@[simp]
lemma texts_nil : texts [] = [] :=
  rfl

@[simp]
lemma texts_cons (p : Piece) (ps : List Piece) : texts (p :: ps) = p.text ++ texts ps :=
  rfl

@[simp]
lemma texts_append (ps qs : List Piece) : texts (ps ++ qs) = texts ps ++ texts qs :=
  List.flatMap_append

/-- Whether a piece is a word: a name, or an operator that is written like one. -/
def isWord (p : Piece) : Bool :=
  p.spelling.head?.any Token.startsIdentifier

/-- Whether the text of a piece does not go on in the next piece. -/
def EndsBefore (p q : Piece) : Prop :=
  ∀ c ∈ q.text.head?, Token.goesOn p.spelling c = false

lemma spelling_ne_nil (p : Piece) : p.spelling ≠ [] :=
  p.spells.ne_nil

lemma text_ne_nil (p : Piece) : p.text ≠ [] :=
  List.append_ne_nil_of_right_ne_nil _ p.spelling_ne_nil

lemma head?_texts_cons (p : Piece) (ps : List Piece) (rest : List Char) :
    (texts (p :: ps) ++ rest).head? = p.text.head? := by
  rw [texts_cons, List.append_assoc, List.head?_append_of_ne_nil _ p.text_ne_nil]

/-- The spelling of a name. -/
lemma spelling_of_identifier {p : Piece} {name : String} (hp : p.token = .identifier name) :
    name = String.ofList p.spelling ∧ (∃ c ∈ p.spelling.head?, Token.startsIdentifier c = true)
      ∧ ∀ c ∈ p.spelling, Token.continuesIdentifier c = true := by
  have hspells := p.spells
  rw [hp] at hspells
  generalize p.spelling = w at hspells
  generalize ht : Token.identifier name = t at hspells
  cases hspells with
  | number h => cases ht
  | text h => cases ht
  | @word c w hc hw =>
    refine ⟨?_, ⟨c, rfl, hc⟩, List.forall_mem_cons.2 ⟨Token.continuesIdentifier_of_starts hc, hw⟩⟩
    rcases Token.ofWord_cases (c :: w) with h | h | h | h <;> rw [h] at ht <;> cases ht
    rfl
  | pair h =>
    unfold Token.ofPair at h
    split at h <;> rw [← ht] at h <;> cases h
  | mark h =>
    unfold Token.ofChar at h
    split at h <;> rw [← ht] at h <;> cases h

/-- The piece with one more separator before it. -/
def widen (p : Piece) (c : Char) (hc : Token.isSeparator c = true) : Piece where
  gap := c :: p.gap
  spelling := p.spelling
  token := p.token
  isSeparator_of_mem_gap := List.forall_mem_cons.2 ⟨hc, p.isSeparator_of_mem_gap⟩
  spells := p.spells

end Piece

namespace Token

lemma scan_gap {gap rest : List Char} (h : ∀ c ∈ gap, isSeparator c = true) :
    scan (gap ++ rest) = scan rest := by
  induction gap with
  | nil => rfl
  | cons c gap ih =>
    rw [List.cons_append, scan, if_pos (h c List.mem_cons_self)]
    exact ih fun d hd => h d (List.mem_cons_of_mem _ hd)

lemma scan_of_separators {gap : List Char} (h : ∀ c ∈ gap, isSeparator c = true) :
    scan gap = .ok [] := by
  rw [← List.append_nil gap, scan_gap h, scan]

/-- A text that can be read is a row of pieces in which nothing but a number could go on
behind its own piece. -/
lemma exists_pieces_of_scan {text : List Char} {ts : List Token} (h : scan text = .ok ts) :
    ∃ ps gap, text = Piece.texts ps ++ gap ∧ (∀ c ∈ gap, isSeparator c = true)
      ∧ ps.map Piece.token = ts ∧ ps.IsChain fun p q => p.token.isNumber = false →
        p.EndsBefore q := by
  fun_induction scan text generalizing ts with
  | case1 =>
    cases h
    exact ⟨[], [], rfl, by simp, rfl, .nil⟩
  | case2 c tail hc ih =>
    obtain ⟨ps, gap, rfl, hgap, hts, hchain⟩ := ih h
    cases ps with
    | nil => exact ⟨[], c :: gap, rfl, List.forall_mem_cons.2 ⟨hc, hgap⟩, hts, .nil⟩
    | cons p ps =>
      refine ⟨p.widen c hc :: ps, gap, rfl, hgap, hts, ?_⟩
      cases hchain with
      | singleton => exact .singleton _
      | cons_cons hp hps => exact .cons_cons hp hps
  | case3 c tail hc ih =>
    have hscan : scan (c :: tail) = .ok ts := by
      rw [scan, if_neg hc]
      exact h
    cases htake : take c tail with
    | error err =>
      rw [htake] at h
      cases h
    | ok taken =>
      obtain ⟨t, rest⟩ := taken
      have htakes : Takes (c :: tail) t rest.val := ⟨c, tail, rest.2, rfl, by simpa using hc, htake⟩
      rw [htakes.scan_eq] at hscan
      cases hus : scan rest.val with
      | error err =>
        rw [hus] at hscan
        cases hscan
      | ok us =>
        rw [hus] at hscan
        cases hscan
        obtain ⟨w, hw, hspells, hstop⟩ := spells_of_take htake
        obtain ⟨ps, gap, hrest, hgap, hts, hchain⟩ := ih rest hus
        refine ⟨⟨[], w, t, by simp, hspells⟩ :: ps, gap, ?_, hgap, ?_, ?_⟩
        · rw [hw, hrest]
          simp [Piece.text]
        · simp [hts]
        · cases ps with
          | nil => exact .singleton _
          | cons q ps =>
            refine .cons_cons (fun hnumber => ?_) hchain
            have hstop := hstop hnumber
            rw [hrest, Piece.head?_texts_cons] at hstop
            exact hstop

lemma goesOn_of_separator {c : Char} (hc : isSeparator c = true) (w : List Char) :
    goesOn w c = false := by
  have hpair : ∀ d, ofPair d c = none := by
    intro d
    unfold ofPair
    split
    all_goals first | exact absurd hc (by decide) | rfl
  cases w with
  | nil => rfl
  | cons d tail =>
    simp only [isSeparator, Bool.or_eq_true, beq_iff_eq, or_assoc] at hc
    simp only [goesOn]
    split_ifs
    · rcases hc with rfl | rfl | rfl | rfl | rfl <;> rfl
    · rfl
    · rcases hc with rfl | rfl | rfl | rfl | rfl <;> decide
    · simp [hpair]

/-- Pieces none of which goes on in the next one are read as their tokens. -/
lemma scan_texts {ps : List Piece} {gap : List Char} (hgap : ∀ c ∈ gap, isSeparator c = true)
    (hps : ps.IsChain Piece.EndsBefore) :
    scan (Piece.texts ps ++ gap) = .ok (ps.map Piece.token) := by
  induction ps with
  | nil => exact scan_of_separators hgap
  | cons p ps ih =>
    have hstop : ∀ c ∈ (Piece.texts ps ++ gap).head?, goesOn p.spelling c = false := by
      cases hps with
      | singleton =>
        intro c hc
        exact goesOn_of_separator (hgap c (List.mem_of_mem_head? hc)) _
      | cons_cons hp _ =>
        rw [Piece.head?_texts_cons]
        exact hp
    rw [Piece.texts_cons, Piece.text, List.append_assoc, List.append_assoc,
      scan_gap p.isSeparator_of_mem_gap, (Takes.of_spells p.spells hstop).scan_eq, ih hps.tail]
    rfl

end Token

end Reckoner
