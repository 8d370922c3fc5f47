import Reckoner.Proofs.Statement.Names

/-!
# Calls in a text

A call is written as a word before an open parenthesis. The calls that a text holds can be counted
from left to right, from the place where the text before it ends.
-/

namespace Reckoner.Text

open Name (isWordChar)

lemma not_isBlank_of_mem_marks : ∀ c ∈ Name.marks, isBlank c = false :=
  List.all_iff_forall_prop.1 (by decide)

/-- A place in a text, by what can become a call there. -/
inductive Spot where
  | plain
  /-- In a word, of which this much is before the place. -/
  | word (w : List Char)
  /-- Behind a word, with blanks between. -/
  | behind (w : List Char)
  /-- In a text literal. -/
  | text
  deriving DecidableEq

namespace Spot

/-- Whether a place is in a text literal. -/
def isText : Spot → Bool
  | text => true
  | _ => false

/-- The part of a word before a place in it. -/
def current : Spot → List Char
  | word w => w
  | _ => []

/-- The place behind a blank. -/
def skip : Spot → Spot
  | word w => behind w
  | s => s

/-- The place behind a character. -/
def next (s : Spot) (c : Char) : Spot :=
  if c = '"' then if s.isText then plain else text
  else if s.isText then text
  else if isWordChar c then word (s.current ++ [c])
  else if isBlank c then s.skip
  else plain

/-- The place behind a text. -/
def after (s : Spot) (t : List Char) : Spot :=
  t.foldl next s

/-- The word that a parenthesis would call. -/
def name? : Spot → Option (List Char)
  | word w | behind w => some w
  | _ => none

end Spot

/-- Whether a word can be a name, which does not start with a digit, and is one of those counted. -/
def isCounted (P : String → Bool) (w : List Char) : Bool :=
  !w.head?.any Char.isDigit && P (String.ofList w)

/-- The number of counted calls that a character opens: one or none. -/
def Spot.opens (P : String → Bool) (s : Spot) (c : Char) : Nat :=
  if c = '(' ∧ s.name?.any (isCounted P) then 1 else 0

/-- The number of counted calls in a text that starts at a place. -/
def sites (P : String → Bool) (s : Spot) : List Char → Nat
  | [] => 0
  | c :: rest => s.opens P c + sites P (s.next c) rest

variable {P : String → Bool}

namespace Spot

@[simp]
lemma after_nil (s : Spot) : s.after [] = s :=
  rfl

@[simp]
lemma after_cons (s : Spot) (c : Char) (t : List Char) : s.after (c :: t) = (s.next c).after t :=
  rfl

lemma after_append (s : Spot) (t u : List Char) : s.after (t ++ u) = (s.after t).after u :=
  List.foldl_append

@[simp]
lemma isText_next (s : Spot) (c : Char) :
    (s.next c).isText = if c = '"' then !s.isText else s.isText := by
  by_cases hquote : c = '"'
  · simp only [next, hquote, if_true]
    cases s <;> rfl
  · simp only [next, hquote, if_false]
    cases s with
    | text => rfl
    | _ =>
      rw [if_neg (by simp [isText])]
      split_ifs <;> rfl

lemma isText_after_reverse_cons (s : Spot) (c : Char) (before : List Char) :
    (s.after (c :: before).reverse).isText
      = if c = '"' then !(s.after before.reverse).isText else (s.after before.reverse).isText := by
  rw [List.reverse_cons, after_append, after_cons, after_nil, isText_next]

/-- Only quotes lead into text literals and out of them. -/
lemma isText_after (s : Spot) {t : List Char} (h : '"' ∉ t) : (s.after t).isText = s.isText := by
  induction t generalizing s with
  | nil => rfl
  | cons c t ih =>
    rw [List.mem_cons, not_or] at h
    rw [after_cons, ih _ h.2, isText_next, if_neg (Ne.symm h.1)]

/-- Behind a mark there is no word. -/
lemma next_mark {s : Spot} (hs : s.isText = false) {c : Char} (hquote : c ≠ '"')
    (hword : isWordChar c = false) (hblank : isBlank c = false) : s.next c = plain := by
  simp [next, hs, hquote, hword, hblank]

lemma next_word {s : Spot} (hs : s.isText = false) {c : Char} (hword : isWordChar c = true) :
    s.next c = word (s.current ++ [c]) := by
  have hquote : c ≠ '"' := by
    rintro rfl
    exact absurd hword (by decide)
  simp [next, hs, hquote, hword]

lemma next_blank {s : Spot} (hs : s.isText = false) {c : Char} (hblank : isBlank c = true) :
    s.next c = s.skip := by
  have hquote : c ≠ '"' := by
    rintro rfl
    exact absurd hblank (by decide)
  have hword : isWordChar c = false := by
    by_contra hword
    rw [Name.not_isBlank_of_isWordChar (by simpa using hword)] at hblank
    cases hblank
  simp [next, hs, hquote, hword, hblank]

lemma opens_of_ne {c : Char} (hc : c ≠ '(') (s : Spot) : s.opens P c = 0 := by
  simp [opens, hc]

@[simp]
lemma opens_plain (c : Char) : plain.opens P c = 0 := by
  simp [opens, name?]

end Spot

open Spot

@[simp]
lemma sites_nil (s : Spot) : sites P s [] = 0 :=
  rfl

lemma sites_cons (s : Spot) (c : Char) (t : List Char) :
    sites P s (c :: t) = s.opens P c + sites P (s.next c) t :=
  rfl

lemma sites_append (s : Spot) (t u : List Char) :
    sites P s (t ++ u) = sites P s t + sites P (s.after t) u := by
  induction t generalizing s with
  | nil => simp
  | cons c t ih =>
    rw [List.cons_append, sites_cons, sites_cons, ih, after_cons]
    omega

lemma sites_of_not_mem {s : Spot} {t : List Char} (h : '(' ∉ t) : sites P s t = 0 := by
  induction t generalizing s with
  | nil => rfl
  | cons c t ih =>
    rw [List.mem_cons, not_or] at h
    rw [sites_cons, opens_of_ne (Ne.symm h.1), ih h.2]

/-- A mark other than an open parenthesis parts a text. -/
lemma sites_mark {s : Spot} (hs : s.isText = false) {c : Char} (hc : c ∈ Name.marks)
    (hquote : c ≠ '"') (hparen : c ≠ '(') (t : List Char) :
    sites P s (c :: t) = sites P plain t := by
  rw [sites_cons, opens_of_ne hparen, next_mark hs hquote (Name.not_isWordChar_of_mem_marks c hc)
    (not_isBlank_of_mem_marks c hc), Nat.zero_add]

/-! ### Words that are not counted -/

/-- Whether what stands at a place, however it goes on, is not counted. -/
def Spot.Idle (P : String → Bool) : Spot → Prop
  | plain => True
  | word w => ∀ u, isCounted P (w ++ u) = false
  | behind w => isCounted P w = false
  | text => False

/-- Whether two places are the same or the first one is idle; then the second one is in a word only
if the first one is. -/
def Spot.Below (P : String → Bool) (s s' : Spot) : Prop :=
  s = s' ∨ s.Idle P ∧ s'.isText = false ∧ (s.current = [] → s'.current = [])

namespace Spot

variable {s s' : Spot}

lemma Idle.isText (h : s.Idle P) : s.isText = false := by
  cases s with
  | text => exact h.elim
  | _ => rfl

lemma Idle.opens (h : s.Idle P) (c : Char) : s.opens P c = 0 := by
  have hname : s.name?.any (isCounted P) = false := by
    cases s with
    | plain => rfl
    | word w => exact (List.append_nil w) ▸ h []
    | behind w => exact h
    | text => rfl
  simp [Spot.opens, hname]

lemma Idle.skip (h : s.Idle P) : s.skip.Idle P := by
  cases s with
  | word w => exact (List.append_nil w) ▸ h []
  | _ => exact h

lemma Idle.word {w : List Char} (h : (word w).Idle P) (c : Char) : (word (w ++ [c])).Idle P := by
  intro u
  rw [List.append_assoc]
  exact h _

lemma current_skip (s : Spot) : s.skip.current = [] := by
  cases s <;> rfl

lemma isText_skip (s : Spot) : s.skip.isText = s.isText := by
  cases s <;> rfl

lemma Below.next (h : Below P s s') (c : Char) : Below P (s.next c) (s'.next c) := by
  rcases h with rfl | ⟨hidle, hs', hcurrent⟩
  · exact .inl rfl
  · have hs := hidle.isText
    by_cases hquote : c = '"'
    · simp [Below, Spot.next, hquote, hs, hs']
    · cases hword : isWordChar c with
      | true =>
        rw [next_word hs hword, next_word hs' hword]
        by_cases hnil : s.current = []
        · rw [hnil, hcurrent hnil]
          exact .inl rfl
        · refine .inr ⟨?_, rfl, fun h => absurd h (by simp [current])⟩
          cases s with
          | word w => exact hidle.word c
          | _ => exact absurd rfl hnil
      | false =>
        cases hblank : isBlank c with
        | true =>
          rw [next_blank hs hblank, next_blank hs' hblank]
          refine .inr ⟨hidle.skip, by rw [isText_skip, hs'], fun _ => current_skip s'⟩
        | false =>
          rw [next_mark hs hquote hword hblank, next_mark hs' hquote hword hblank]
          exact .inl rfl

lemma Below.opens (h : Below P s s') (c : Char) : s.opens P c ≤ s'.opens P c := by
  rcases h with rfl | ⟨hidle, -, -⟩
  · exact Nat.le_refl _
  · rw [hidle.opens]
    exact Nat.zero_le _

end Spot

/-! ### Blanks -/

lemma after_blanks {s : Spot} (hs : s.isText = false) {t : List Char}
    (ht : ∀ c ∈ t, isBlank c = true) : s.after t = if t = [] then s else s.skip := by
  induction t generalizing s with
  | nil => rfl
  | cons c t ih =>
    obtain ⟨hc, ht⟩ := List.forall_mem_cons.1 ht
    rw [after_cons, next_blank hs hc, ih (by rw [isText_skip, hs]) ht]
    cases s <;> simp [skip]

lemma sites_blanks {s : Spot} {t : List Char} (ht : ∀ c ∈ t, isBlank c = true) :
    sites P s t = 0 :=
  sites_of_not_mem fun hmem => absurd (ht _ hmem) (by decide)

lemma sites_trim (t : List Char) : sites P plain (trim t) = sites P plain t := by
  obtain ⟨u, v, ht, hu, hv⟩ := exists_trim t
  have hplain : plain.after u = plain := by
    rw [after_blanks rfl hu]
    exact ite_self _
  conv_rhs => rw [ht, sites_append, sites_append, sites_blanks hu, sites_blanks hv, hplain]
  omega

lemma isText_after_trim (t : List Char) :
    (plain.after (trim t)).isText = (plain.after t).isText := by
  obtain ⟨u, v, ht, hu, hv⟩ := exists_trim t
  have hplain : plain.after u = plain := by
    rw [after_blanks rfl hu]
    exact ite_self _
  have hquote : '"' ∉ v := fun hmem => absurd (hv _ hmem) (by decide)
  conv_rhs => rw [ht, after_append, after_append, hplain, isText_after _ hquote]

end Reckoner.Text
