import Mathlib.Data.Bool.AllAny
import Reckoner.Conditional
import Reckoner.Proofs.Token.Spellings

/-!
# Balanced texts

In a balanced text every bracket is closed and no quotation mark is open. Looking for a mark outside
all brackets, or for the parenthesis that closes one, goes past such a text.
-/

namespace Reckoner

namespace Token

/-- The structural character that a token is written with. -/
def structuralChar? : Token → Option Char
  | .openParen => some '('
  | .closeParen => some ')'
  | .openBracket => some '['
  | .closeBracket => some ']'
  | .question => some '?'
  | .colon => some ':'
  | .comma => some ','
  | _ => none

/-- Whether a token is a text. -/
def isText : Token → Bool
  | .text _ => true
  | _ => false

namespace Spells

variable {w : List Char} {t : Token}

/-- A structural token is written with its character. -/
lemma eq_structural {c : Char} (h : Spells w t) (hc : t.structuralChar? = some c) : w = [c] := by
  cases h with
  | number hn => cases hc
  | text hs => cases hc
  | word hc' hw =>
    simp only [ofWord] at hc
    split_ifs at hc <;> cases hc
  | pair hp =>
    unfold ofPair at hp
    split at hp
    all_goals cases hp
    all_goals cases hc
  | mark hm =>
    unfold ofChar at hm
    split at hm
    all_goals cases hm
    all_goals first | cases hc; rfl | cases hc

/-- The other tokens, except for texts, are written without structural characters. -/
lemma not_isStructural (h : Spells w t) (ht : t.structuralChar? = none) (htext : t.isText = false) :
    ∀ c ∈ w, isStructural c = false := by
  cases h with
  | number hn =>
    obtain ⟨w', hw', -, -, hchars⟩ := Decimal.exists_of_takeNumeral hn
    rw [List.append_nil] at hw'
    subst hw'
    exact fun c hc => not_isStructural_of_numeral (hchars c hc)
  | text hs => cases htext
  | word hc hw =>
    intro d hd
    rcases List.mem_cons.1 hd with rfl | hd
    · exact not_isStructural_of_continues (continuesIdentifier_of_starts hc)
    · exact not_isStructural_of_continues (hw d hd)
  | pair hp =>
    unfold ofPair at hp
    split at hp
    all_goals first | cases hp; exact List.all_iff_forall_prop.1 (by decide) | cases hp
  | mark hm =>
    unfold ofChar at hm
    split at hm
    all_goals first | (cases hm; exact List.all_iff_forall_prop.1 (by decide)) |
      (cases hm; cases ht) | cases hm

lemma text_eq {s : String} (h : Spells w (.text s)) :
    w = '"' :: (s.toList ++ ['"']) ∧ '"' ∉ s.toList := by
  generalize ht : Token.text s = t at h
  cases h with
  | number hn => cases ht
  | text hs =>
    cases ht
    simpa using hs
  | word hc hw =>
    simp only [ofWord] at ht
    split_ifs at ht
  | pair hp =>
    subst ht
    unfold ofPair at hp
    split at hp <;> cases hp
  | mark hm =>
    subst ht
    unfold ofChar at hm
    split at hm <;> cases hm

end Spells

end Token

/-! ### Balanced texts -/

namespace Text

/-- A text whose quotes come in pairs and whose brackets match. -/
inductive Balanced : List Char → Prop where
  | nil : Balanced []
  | cons {c : Char} {t : List Char} (hc : c ∉ ['"', '(', ')', '[', ']']) (h : Balanced t) :
    Balanced (c :: t)
  | quoted {s t : List Char} (hs : '"' ∉ s) (h : Balanced t) : Balanced ('"' :: (s ++ '"' :: t))
  | parens {s t : List Char} (hs : Balanced s) (h : Balanced t) : Balanced ('(' :: (s ++ ')' :: t))
  | brackets {s t : List Char} (hs : Balanced s) (h : Balanced t) :
    Balanced ('[' :: (s ++ ']' :: t))

namespace Balanced

variable {s t : List Char}

lemma append (hs : Balanced s) (ht : Balanced t) : Balanced (s ++ t) := by
  induction hs with
  | nil => exact ht
  | cons hc h ih => exact .cons hc ih
  | @quoted u s hu h ih =>
    rw [List.cons_append, List.append_assoc, List.cons_append]
    exact .quoted hu ih
  | @parens u s hu h ihu ih =>
    rw [List.cons_append, List.append_assoc, List.cons_append]
    exact .parens hu ih
  | @brackets u s hu h ihu ih =>
    rw [List.cons_append, List.append_assoc, List.cons_append]
    exact .brackets hu ih

lemma of_forall (h : ∀ c ∈ t, c ∉ ['"', '(', ')', '[', ']']) : Balanced t := by
  induction t with
  | nil => exact .nil
  | cons c t ih =>
    rw [List.forall_mem_cons] at h
    exact .cons h.1 (ih h.2)

end Balanced

/-- The place behind a text. -/
def Place.after (p : Place) (t : List Char) : Place :=
  t.foldl next p

namespace Place

@[simp] lemma after_nil (p : Place) : p.after [] = p :=
  rfl

@[simp] lemma after_cons (p : Place) (c : Char) (t : List Char) :
    p.after (c :: t) = (p.next c).after t :=
  rfl

@[simp] lemma after_append (p : Place) (s t : List Char) :
    p.after (s ++ t) = (p.after s).after t := by
  simp [after]

lemma next_of_not_mem {c : Char} (hc : c ∉ ['"', '(', ')', '[', ']']) (p : Place) :
    p.next c = p := by
  simp only [List.mem_cons, List.not_mem_nil, or_false, not_or] at hc
  obtain ⟨hquote, hopen, hclose, hopen', hclose'⟩ := hc
  simp [next, hquote, hopen, hclose, hopen', hclose']

lemma after_in_text {s : List Char} (hs : '"' ∉ s) (d : Nat) :
    after ⟨true, d⟩ s = ⟨true, d⟩ := by
  induction s with
  | nil => rfl
  | cons c s ih =>
    rw [List.mem_cons, not_or] at hs
    simp [next, Ne.symm hs.1, ih hs.2]

end Place

/-- A balanced text ends at the depth at which it starts. -/
lemma Balanced.after {t : List Char} (h : Balanced t) (d : Nat) :
    Place.after ⟨false, d⟩ t = ⟨false, d⟩ := by
  induction h generalizing d with
  | nil => rfl
  | cons hc h ih => rw [Place.after_cons, Place.next_of_not_mem hc, ih]
  | quoted hs h ih => simp [Place.next, Place.after_in_text hs, ih]
  | parens hs h ihs ih => simp [Place.next, ihs, ih]
  | brackets hs h ihs ih => simp [Place.next, ihs, ih]

/-! ### Characters outside all brackets -/

/-- The characters of a text that stand outside all brackets. -/
def tops (p : Place) : List Char → List Char
  | [] => []
  | c :: t => if p.isTop then c :: tops (p.next c) t else tops (p.next c) t

lemma mem_of_mem_tops {c : Char} {t : List Char} {p : Place} (h : c ∈ tops p t) : c ∈ t := by
  induction t generalizing p with
  | nil => exact h
  | cons d t ih =>
    simp only [tops] at h
    split_ifs at h
    · rcases List.mem_cons.1 h with rfl | h
      · exact List.mem_cons_self
      · exact List.mem_cons_of_mem _ (ih h)
    · exact List.mem_cons_of_mem _ (ih h)

@[simp] lemma tops_append (p : Place) (s t : List Char) :
    tops p (s ++ t) = tops p s ++ tops (p.after s) t := by
  induction s generalizing p with
  | nil => rfl
  | cons c s ih =>
    simp only [List.cons_append, tops, Place.after_cons, ih]
    split_ifs <;> rfl

lemma tops_in_text {s : List Char} (hs : '"' ∉ s) (d : Nat) : tops ⟨true, d⟩ s = [] := by
  induction s with
  | nil => rfl
  | cons c s ih =>
    rw [List.mem_cons, not_or] at hs
    simp [tops, Place.next, Place.isTop, Ne.symm hs.1, ih hs.2]

/-- No character of a balanced text inside brackets stands outside all brackets. -/
lemma Balanced.tops_inside {t : List Char} (h : Balanced t) (d : Nat) :
    tops ⟨false, d + 1⟩ t = [] := by
  induction h generalizing d with
  | nil => rfl
  | cons hc h ih =>
    rw [tops, Place.next_of_not_mem hc, ih]
    rfl
  | quoted hs h ih =>
    simp [tops, Place.next, Place.isTop, Place.after_in_text hs, tops_in_text hs, ih]
  | parens hs h ihs ih => simp [tops, Place.next, Place.isTop, hs.after, ihs, ih]
  | brackets hs h ihs ih => simp [tops, Place.next, Place.isTop, hs.after, ihs, ih]

lemma not_mem_tops_cons {mark c : Char} {p : Place} {t : List Char} (h : mark ∉ tops p (c :: t)) :
    (p.isTop && c == mark) = false ∧ mark ∉ tops (p.next c) t := by
  simp only [tops] at h
  split_ifs at h with hp
  · rw [List.mem_cons, not_or] at h
    exact ⟨by simpa [hp] using Ne.symm h.1, h.2⟩
  · exact ⟨by simp [hp], h⟩

/-- A mark is found behind a text that does not hold it outside all brackets. -/
lemma cutAtTop?_append {mark : Char} {p : Place} {s : List Char} (hs : mark ∉ tops p s)
    (t : List Char) :
    cutAtTop? mark p (s ++ t)
      = (cutAtTop? mark (p.after s) t).map fun (front, tail) => (s ++ front, tail) := by
  induction s generalizing p with
  | nil => simp
  | cons c s ih =>
    obtain ⟨hc, hs'⟩ := not_mem_tops_cons hs
    rw [List.cons_append, cutAtTop?, hc, ih hs', Option.map_map]
    rfl

lemma cutAtTop?_eq_none {mark : Char} {text : List Char} (h : mark ∉ text) (p : Place) :
    cutAtTop? mark p text = none := by
  induction text generalizing p with
  | nil => rfl
  | cons c rest ih =>
    rw [List.mem_cons, not_or] at h
    have hc : (p.isTop && c == mark) = false := by simp [Ne.symm h.1]
    rw [cutAtTop?, hc, ih h.2]
    rfl

/-- A mark is found before a text that does not hold it. -/
lemma cutAtTop?_append_of_not_mem {mark : Char} {t : List Char} (ht : mark ∉ t) (p : Place)
    (s : List Char) :
    cutAtTop? mark p (s ++ t)
      = (cutAtTop? mark p s).map fun (front, tail) => (front, tail ++ t) := by
  induction s generalizing p with
  | nil => exact cutAtTop?_eq_none ht p
  | cons c s ih =>
    simp only [List.cons_append, cutAtTop?, ih]
    split_ifs
    · rfl
    · simp only [Option.map_map]
      rfl

/-- The pieces of a text go on behind a text without a comma outside all brackets. -/
lemma piecesFrom_append {p : Place} {s : List Char} (hs : ',' ∉ tops p s) {t piece : List Char}
    {others : List (List Char)} (ht : piecesFrom (p.after s) t = piece :: others) :
    piecesFrom p (s ++ t) = (s ++ piece) :: others := by
  induction s generalizing p with
  | nil => exact ht
  | cons c s ih =>
    obtain ⟨hc, hs'⟩ := not_mem_tops_cons hs
    rw [List.cons_append, piecesFrom, hc, ih hs' ht]
    rfl

/-! ### The closing parenthesis -/

lemma cutAtClose?_in_text {s : List Char} (hs : '"' ∉ s) (d : Nat) (t : List Char) :
    cutAtClose? true d (s ++ t)
      = (cutAtClose? true d t).map fun (front, tail) => (s ++ front, tail) := by
  induction s with
  | nil => simp
  | cons c s ih =>
    rw [List.mem_cons, not_or] at hs
    simp only [List.cons_append, cutAtClose?, Ne.symm hs.1, if_false, if_true, ih hs.2,
      Option.map_map]
    rfl

/-- The parenthesis that closes the ones before a balanced text is looked for behind it. -/
lemma Balanced.cutAtClose?_append {s : List Char} (hs : Balanced s) (d : Nat) (t : List Char) :
    cutAtClose? false d (s ++ t)
      = (cutAtClose? false d t).map fun (front, tail) => (s ++ front, tail) := by
  induction hs generalizing d t with
  | nil => simp
  | @cons c s hc h ih =>
    simp only [List.mem_cons, List.not_mem_nil, or_false, not_or] at hc
    obtain ⟨hquote, hopen, hclose, -, -⟩ := hc
    simp only [List.cons_append, cutAtClose?, hquote, hopen, hclose, if_false, ih, Option.map_map]
    rfl
  | @quoted u s hu h ih =>
    simp [cutAtClose?, cutAtClose?_in_text hu, ih, Option.map_map, Function.comp_def]
  | @parens u s hu h ihu ih =>
    simp [cutAtClose?, ihu, ih, Option.map_map, Function.comp_def]
  | @brackets u s hu h ihu ih =>
    simp [cutAtClose?, ihu, ih, Option.map_map, Function.comp_def]

end Text

namespace Conditional

open Text

/-- The `:` of a conditional is looked for behind a text without `?` and `:` outside all
brackets. -/
lemma cutAtColon?_append {p : Place} {s : List Char} (hq : '?' ∉ tops p s) (hk : ':' ∉ tops p s)
    (n : Nat) (t : List Char) :
    cutAtColon? p n (s ++ t)
      = (cutAtColon? (p.after s) n t).map fun (front, tail) => (s ++ front, tail) := by
  induction s generalizing p with
  | nil => simp
  | cons c s ih =>
    obtain ⟨hcq, hq'⟩ := not_mem_tops_cons hq
    obtain ⟨hck, hk'⟩ := not_mem_tops_cons hk
    simp only [List.cons_append, cutAtColon?, hcq, hck, ih hq' hk', Option.map_map]
    rfl

lemma cutAtColon?_eq_none {t : List Char} (ht : ':' ∉ t) (p : Place) (n : Nat) :
    cutAtColon? p n t = none := by
  induction t generalizing p n with
  | nil => rfl
  | cons c t ih =>
    rw [List.mem_cons, not_or] at ht
    have hc : (p.isTop && c == ':') = false := by simp [Ne.symm ht.1]
    simp [cutAtColon?, hc, ih ht.2]

/-- The `:` of a conditional is found before a text that has none. -/
lemma cutAtColon?_append_of_not_mem {t : List Char} (ht : ':' ∉ t) (p : Place) (n : Nat)
    (s : List Char) :
    cutAtColon? p n (s ++ t)
      = (cutAtColon? p n s).map fun (front, tail) => (front, tail ++ t) := by
  induction s generalizing p n with
  | nil => exact cutAtColon?_eq_none ht p n
  | cons c s ih =>
    simp only [List.cons_append, cutAtColon?, ih]
    split_ifs
    · simp only [Option.map_map]
      rfl
    · cases n with
      | zero => rfl
      | succ n =>
        simp only [Option.map_map]
        rfl
    · simp only [Option.map_map]
      rfl

end Conditional

end Reckoner
