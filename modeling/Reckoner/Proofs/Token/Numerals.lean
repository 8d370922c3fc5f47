import Mathlib.Data.List.Chain
import Mathlib.Data.List.TakeWhile
import Mathlib.Tactic.Lemma
import Reckoner.Decimal.Text

/-!
# Numerals in a text

A numeral is taken from the front of a text: digits, a point and an exponent. It is the same numeral
whatever stands behind it, as long as that does not go on with it.
-/

namespace Reckoner

/-- What stands before a place of a list behind its head. -/
lemma getLast?_cons_or {α : Type} (a : α) (l : List α) (o : Option α) :
    (a :: l).getLast?.or o = l.getLast?.or (some a) := by
  rw [List.getLast?_cons]
  cases l.getLast? <;> rfl

namespace Text

variable {p : Char → Bool} {front rest : List Char}

/-! ### Where a run of characters ends -/

lemma takeWhile_append_of_stop (hrest : ∀ c ∈ rest.head?, p c = false) :
    (front ++ rest).takeWhile p = front.takeWhile p := by
  induction front with
  | nil =>
    cases rest with
    | nil => rfl
    | cons c rest => exact List.takeWhile_cons_of_neg (by simp [hrest c rfl])
  | cons c front ih =>
    rw [List.cons_append, List.takeWhile_cons, List.takeWhile_cons, ih]

lemma dropWhile_append_of_stop (hrest : ∀ c ∈ rest.head?, p c = false) :
    (front ++ rest).dropWhile p = front.dropWhile p ++ rest := by
  induction front with
  | nil =>
    cases rest with
    | nil => rfl
    | cons c rest => exact List.dropWhile_cons_of_neg (by simp [hrest c rfl])
  | cons c front ih =>
    rw [List.cons_append, List.dropWhile_cons, List.dropWhile_cons, ih]
    split <;> rfl

end Text

namespace Decimal

/-! ### Numerals -/

/-- Whether a numeral could go on with a character. -/
def continuesNumeral (c : Char) : Bool :=
  c.isDigit || c == '.' || c == 'e' || c == 'E'

lemma takeExponent_of_stop {rest : List Char} (hrest : ∀ c ∈ rest.head?,
    continuesNumeral c = false) :
    takeExponent rest = (0, rest) := by
  cases rest with
  | nil => rfl
  | cons c tail =>
    have hc := hrest c rfl
    simp only [continuesNumeral, Bool.or_eq_false_iff, beq_eq_false_iff_ne] at hc
    simp [takeExponent, hc]

lemma takeSign_cons (c : Char) (tail : List Char) :
    takeSign (c :: tail)
      = if c = '+' then (false, tail) else if c = '-' then (true, tail)
        else (false, c :: tail) := by
  by_cases hplus : c = '+'
  · subst hplus
    rfl
  · by_cases hminus : c = '-'
    · subst hminus
      rfl
    · rw [if_neg hplus, if_neg hminus, takeSign]
      · rintro rest ⟨⟩
        exact hplus rfl
      · rintro rest ⟨⟩
        exact hminus rfl

lemma takeSign_append {tail : List Char} (h : tail ≠ []) (rest : List Char) :
    takeSign (tail ++ rest) = ((takeSign tail).1, (takeSign tail).2 ++ rest) := by
  cases tail with
  | nil => exact absurd rfl h
  | cons c tail =>
    rw [List.cons_append, takeSign_cons, takeSign_cons]
    split_ifs <;> rfl

lemma takeExponent_append {w rest : List Char} {k : Int} (h : takeExponent w = (k, []))
    (hrest : ∀ c ∈ rest.head?, continuesNumeral c = false) :
    takeExponent (w ++ rest) = (k, rest) := by
  have hdigit : ∀ c ∈ rest.head?, c.isDigit = false := by
    intro c hc
    have := hrest c hc
    simp only [continuesNumeral, Bool.or_eq_false_iff] at this
    exact this.1.1.1
  cases w with
  | nil =>
    cases h
    exact takeExponent_of_stop hrest
  | cons c tail =>
    simp only [takeExponent] at h
    split at h
    · rename_i hc
      have htail : tail ≠ [] := by
        rintro rfl
        exact hc.2 rfl
      simp only [Prod.mk.injEq] at h
      simp only [List.cons_append, takeExponent, takeSign_append htail,
        Text.takeWhile_append_of_stop hdigit, Text.dropWhile_append_of_stop hdigit, h.2]
      rw [if_pos hc, h.1]
      rfl
    · cases h

/-- A numeral is read as it is before anything that does not go on with it. -/
lemma takeNumeral_append {w rest : List Char} {n : Numeral} (h : takeNumeral w = some (n, []))
    (hrest : ∀ c ∈ rest.head?, continuesNumeral c = false) :
    takeNumeral (w ++ rest) = some (n, rest) := by
  have hdigit : ∀ c ∈ rest.head?, c.isDigit = false := by
    intro c hc
    have := hrest c hc
    simp only [continuesNumeral, Bool.or_eq_false_iff] at this
    exact this.1.1.1
  simp only [takeNumeral] at h ⊢
  rw [Text.takeWhile_append_of_stop hdigit, Text.dropWhile_append_of_stop hdigit]
  split at h
  · rename_i tail htail
    rw [htail]
    split at h
    · cases h
    · rename_i hne
      simp only [Option.some.injEq, Prod.mk.injEq] at h
      have hexponent := takeExponent_append
        (Prod.ext rfl h.2 : takeExponent (tail.dropWhile Char.isDigit) = (_, [])) hrest
      simp only [List.cons_append, Text.takeWhile_append_of_stop hdigit,
        Text.dropWhile_append_of_stop hdigit, hexponent]
      rw [if_neg hne, h.1]
  · rename_i hpoint
    split at h
    · cases h
    · rename_i hne
      simp only [Option.some.injEq, Prod.mk.injEq] at h
      have hexponent := takeExponent_append
        (Prod.ext rfl h.2 : takeExponent (w.dropWhile Char.isDigit) = (_, [])) hrest
      split
      · rename_i tail htail
        cases hdrop : w.dropWhile Char.isDigit with
        | nil =>
          rw [hdrop, List.nil_append] at htail
          have := hrest '.' (by rw [htail]; rfl)
          cases this
        | cons c front =>
          rw [hdrop, List.cons_append] at htail
          cases htail
          exact absurd hdrop (hpoint _)
      · simp only [hexponent]
        rw [if_neg hne, h.1]

/-- Whether a character can stand in a numeral. -/
def isNumeralChar (c : Char) : Bool :=
  continuesNumeral c || c == '+' || c == '-'

lemma isNumeralChar_of_isDigit {c : Char} (h : c.isDigit = true) : isNumeralChar c = true := by
  simp [isNumeralChar, continuesNumeral, h]

lemma isDigit_of_mem_takeWhile {text : List Char} {c : Char} (h : c ∈ text.takeWhile Char.isDigit) :
    c.isDigit = true :=
  List.mem_takeWhile_imp h

lemma dropWhile_head_not {p : Char → Bool} {text : List Char} :
    ∀ c ∈ (text.dropWhile p).head?, p c = false := by
  intro c hc
  have h := List.head?_dropWhile_not p text
  rw [hc] at h
  simpa using h

lemma exists_of_takeSign (text : List Char) :
    ∃ mark, text = mark ++ (takeSign text).2 ∧ ∀ c ∈ mark, c = '+' ∨ c = '-' := by
  cases text with
  | nil => exact ⟨[], rfl, by simp⟩
  | cons d tail =>
    rw [takeSign_cons]
    split_ifs with hplus hminus
    · exact ⟨[d], rfl, by simp [hplus]⟩
    · exact ⟨[d], rfl, by simp [hminus]⟩
    · exact ⟨[], rfl, by simp⟩

/-- What is read as an exponent is one on its own. -/
lemma exists_of_takeExponent {text rest : List Char} {k : Int} (h : takeExponent text = (k, rest)) :
    ∃ w, text = w ++ rest ∧ takeExponent w = (k, [])
      ∧ (∀ c ∈ w.head?, c = 'e' ∨ c = 'E') ∧ ∀ c ∈ w, isNumeralChar c = true := by
  cases text with
  | nil =>
    cases h
    exact ⟨[], rfl, rfl, by simp, by simp⟩
  | cons c tail =>
    simp only [takeExponent] at h
    split at h
    · rename_i hc
      simp only [Prod.mk.injEq] at h
      obtain ⟨hk, hrest⟩ := h
      obtain ⟨hletter, hdigits⟩ := hc
      generalize hds : (takeSign tail).2.takeWhile Char.isDigit = digits at hk hdigits
      have hall : ∀ d ∈ digits, d.isDigit = true := by
        intro d hd
        rw [← hds] at hd
        exact isDigit_of_mem_takeWhile hd
      have hsplit : (takeSign tail).2 = digits ++ rest := by
        rw [← hds, ← hrest, List.takeWhile_append_dropWhile]
      obtain ⟨mark, hmark, hsign⟩ := exists_of_takeSign tail
      have htake : takeSign (mark ++ digits) = ((takeSign tail).1, digits) := by
        have happend := takeSign_append
          (List.append_ne_nil_of_right_ne_nil mark hdigits) rest
        rw [List.append_assoc, ← hsplit, ← hmark] at happend
        have hsecond := congrArg Prod.snd happend
        rw [hsplit] at hsecond
        exact Prod.ext (congrArg Prod.fst happend).symm (List.append_cancel_right hsecond).symm
      refine ⟨c :: mark ++ digits, ?_, ?_, ?_, ?_⟩
      · rw [hmark, hsplit]
        simp
      · have h₁ : digits.takeWhile Char.isDigit = digits := List.takeWhile_eq_self_iff.2 hall
        have h₂ : digits.dropWhile Char.isDigit = [] := List.dropWhile_eq_nil_iff.2 hall
        simp only [List.cons_append, takeExponent, htake, h₁, h₂]
        rw [if_pos ⟨hletter, hdigits⟩, hk]
      · rintro d ⟨⟩
        exact hletter
      · intro d hd
        simp only [List.cons_append, List.mem_cons, List.mem_append] at hd
        rcases hd with rfl | hd | hd
        · rcases hletter with rfl | rfl <;> rfl
        · rcases hsign d hd with rfl | rfl <;> rfl
        · exact isNumeralChar_of_isDigit (hall d hd)
    · cases h
      exact ⟨[], rfl, rfl, by simp, by simp⟩

section

variable {whole fraction w : List Char} {k : Int} (hwhole : ∀ c ∈ whole, c.isDigit = true)
  (hexponent : takeExponent w = (k, [])) (hhead : ∀ c ∈ w.head?, c = 'e' ∨ c = 'E')

include hwhole hexponent hhead

/-- Digits, a point, digits and an exponent are read as a numeral. -/
lemma takeNumeral_point (hfraction : ∀ c ∈ fraction, c.isDigit = true)
    (hne : ¬ (whole.isEmpty = true ∧ fraction.isEmpty = true)) :
    takeNumeral (whole ++ '.' :: (fraction ++ w)) = some (⟨whole, fraction, k⟩, []) := by
  have hstop : ∀ c ∈ w.head?, c.isDigit = false := by
    intro c hc
    rcases hhead c hc with rfl | rfl <;> rfl
  have hpoint : ∀ c ∈ ('.' :: (fraction ++ w)).head?, c.isDigit = false := by
    rintro c ⟨⟩
    rfl
  simp only [takeNumeral, Text.takeWhile_append_of_stop hpoint,
    Text.dropWhile_append_of_stop hpoint, List.takeWhile_eq_self_iff.2 hwhole,
    List.dropWhile_eq_nil_iff.2 hwhole, List.nil_append, Text.takeWhile_append_of_stop hstop,
    Text.dropWhile_append_of_stop hstop, List.takeWhile_eq_self_iff.2 hfraction,
    List.dropWhile_eq_nil_iff.2 hfraction, hexponent]
  rw [if_neg hne]

/-- Digits and an exponent are read as a numeral. -/
lemma takeNumeral_whole (hne : whole.isEmpty ≠ true) :
    takeNumeral (whole ++ w) = some (⟨whole, [], k⟩, []) := by
  have hstop : ∀ c ∈ w.head?, c.isDigit = false := by
    intro c hc
    rcases hhead c hc with rfl | rfl <;> rfl
  simp only [takeNumeral, Text.takeWhile_append_of_stop hstop, Text.dropWhile_append_of_stop hstop,
    List.takeWhile_eq_self_iff.2 hwhole, List.dropWhile_eq_nil_iff.2 hwhole, List.nil_append]
  split
  · rcases hhead '.' rfl with hbad | hbad <;> cases hbad
  · simp only [hexponent]
    rw [if_neg hne]

end

/-- What is read as a numeral is one on its own. -/
lemma exists_of_takeNumeral {text rest : List Char} {n : Numeral}
    (h : takeNumeral text = some (n, rest)) :
    ∃ w, text = w ++ rest ∧ takeNumeral w = some (n, [])
      ∧ (∃ c ∈ w.head?, c.isDigit = true ∨ c = '.') ∧ ∀ c ∈ w, isNumeralChar c = true := by
  have hsplit := List.takeWhile_append_dropWhile (p := Char.isDigit) (l := text)
  have hwhole : ∀ c ∈ text.takeWhile Char.isDigit, c.isDigit = true :=
    fun c hc => isDigit_of_mem_takeWhile hc
  simp only [takeNumeral] at h
  split at h
  · rename_i tail htail
    split at h
    · cases h
    · rename_i hne
      simp only [Option.some.injEq, Prod.mk.injEq] at h
      obtain ⟨rfl, hrest⟩ := h
      obtain ⟨w, hw, hexponent, hhead, hchars⟩ := exists_of_takeExponent
        (Prod.ext rfl hrest : takeExponent (tail.dropWhile Char.isDigit) = (_, rest))
      have hfraction : ∀ c ∈ tail.takeWhile Char.isDigit, c.isDigit = true :=
        fun c hc => isDigit_of_mem_takeWhile hc
      have hsplit' := List.takeWhile_append_dropWhile (p := Char.isDigit) (l := tail)
      generalize text.takeWhile Char.isDigit = whole at *
      generalize tail.takeWhile Char.isDigit = fraction at *
      refine ⟨whole ++ '.' :: (fraction ++ w), ?_,
        takeNumeral_point hwhole hexponent hhead hfraction hne, ?_, ?_⟩
      · rw [← hsplit, htail, ← hsplit', hw]
        simp
      · cases whole with
        | nil => exact ⟨'.', rfl, .inr rfl⟩
        | cons c whole => exact ⟨c, rfl, .inl (hwhole c List.mem_cons_self)⟩
      · intro c hc
        simp only [List.mem_append, List.mem_cons] at hc
        rcases hc with hc | rfl | hc | hc
        · exact isNumeralChar_of_isDigit (hwhole c hc)
        · rfl
        · exact isNumeralChar_of_isDigit (hfraction c hc)
        · exact hchars c hc
  · split at h
    · cases h
    · rename_i hne
      simp only [Option.some.injEq, Prod.mk.injEq] at h
      obtain ⟨rfl, hrest⟩ := h
      obtain ⟨w, hw, hexponent, hhead, hchars⟩ := exists_of_takeExponent
        (Prod.ext rfl hrest : takeExponent (text.dropWhile Char.isDigit) = (_, rest))
      generalize text.takeWhile Char.isDigit = whole at *
      refine ⟨whole ++ w, ?_, takeNumeral_whole hwhole hexponent hhead hne, ?_, ?_⟩
      · rw [← hsplit, hw]
        simp
      · cases whole with
        | nil => exact absurd rfl hne
        | cons c whole => exact ⟨c, rfl, .inl (hwhole c List.mem_cons_self)⟩
      · intro c hc
        rcases List.mem_append.1 hc with hc | hc
        · exact isNumeralChar_of_isDigit (hwhole c hc)
        · exact hchars c hc

end Decimal

end Reckoner
