import Mathlib.Data.List.Chain
import Reckoner.Proofs.Call.Sites

/-!
# Texts with places for a word

A template is a text with places at which a word can be put. As long as the places are outside text
literals and no word touches them, the text is taken apart at the same places whatever the word is:
it is trimmed, it is cut at marks, and calls are found in it.
-/

namespace Reckoner

open Name (isWordChar ne_of_isWordChar)

/-- A text with places for a word, which are written `none`. -/
abbrev Template := List (Option Char)

/-- A word that can be put in a place. -/
structure Template.Word (w : List Char) : Prop where
  ne_nil : w ≠ []
  isWordChar : ∀ c ∈ w, Name.isWordChar c = true

namespace Template

variable {w : List Char} {s t : Template}

/-- The text with a word at each place. -/
def fill (w : List Char) (t : Template) : List Char :=
  t.flatMap fun o => o.elim w fun c => [c]

@[simp]
lemma fill_nil : fill w [] = [] :=
  rfl

@[simp]
lemma fill_none : fill w (none :: t) = w ++ fill w t :=
  rfl

@[simp]
lemma fill_some (c : Char) : fill w (some c :: t) = c :: fill w t :=
  rfl

@[simp]
lemma fill_append : fill w (s ++ t) = fill w s ++ fill w t :=
  List.flatMap_append

@[simp]
lemma fill_map_some (text : List Char) : fill w (text.map some) = text := by
  induction text with
  | nil => rfl
  | cons c text ih => rw [List.map_cons, fill_some, ih]

lemma reverse_fill : (fill w t).reverse = fill w.reverse t.reverse := by
  induction t with
  | nil => rfl
  | cons o t ih =>
    rw [List.reverse_cons, fill_append, ← ih]
    cases o <;> simp

/-! ### Words -/

namespace Word

lemma reverse (h : Word w) : Word w.reverse :=
  ⟨by simpa using h.ne_nil, by simpa using h.isWordChar⟩

/-- No mark is in a word. -/
lemma ne_of_mem (h : Word w) {c m : Char} (hc : c ∈ w) (hm : m ∈ Name.marks) : c ≠ m :=
  ne_of_isWordChar (h.isWordChar c hc) hm

lemma exists_cons (h : Word w) : ∃ c v, w = c :: v ∧ Name.isWordChar c = true := by
  cases w with
  | nil => exact absurd rfl h.ne_nil
  | cons c v => exact ⟨c, v, rfl, h.isWordChar c List.mem_cons_self⟩

end Word

lemma isEmpty_fill (h : Word w) : (fill w t).isEmpty = t.isEmpty := by
  cases t with
  | nil => rfl
  | cons o t =>
    obtain ⟨c, v, rfl, -⟩ := h.exists_cons
    cases o <;> rfl

/-- Blanks are dropped alike whatever the word is. -/
lemma dropWhile_fill (h : Word w) :
    (fill w t).dropWhile Text.isBlank = fill w (t.dropWhile (Option.any Text.isBlank)) := by
  induction t with
  | nil => rfl
  | cons o t ih =>
    cases o with
    | none =>
      obtain ⟨c, v, rfl, hc⟩ := h.exists_cons
      simp [Name.not_isBlank_of_isWordChar hc]
    | some c => by_cases hc : Text.isBlank c = true <;> simp [hc, ih]

lemma takeWhile_fill (h : Word w) :
    (fill w t).takeWhile Text.isBlank = fill w (t.takeWhile (Option.any Text.isBlank)) := by
  induction t with
  | nil => rfl
  | cons o t ih =>
    cases o with
    | none =>
      obtain ⟨c, v, rfl, hc⟩ := h.exists_cons
      simp [Name.not_isBlank_of_isWordChar hc]
    | some c => by_cases hc : Text.isBlank c = true <;> simp [hc, ih]

/-- A mark is counted alike whatever the word is. -/
lemma count_fill (h : Word w) {m : Char} (hm : m ∈ Name.marks) :
    (fill w t).count m = t.count (some m) := by
  induction t with
  | nil => rfl
  | cons o t ih =>
    cases o with
    | none =>
      have hword : w.count m = 0 := List.count_eq_zero.2 fun hmem => h.ne_of_mem hmem hm rfl
      rw [fill_none, List.count_append, hword, Nat.zero_add, ih, List.count_cons_of_ne (by simp)]
    | some c =>
      rw [fill_some, List.count_cons, List.count_cons, ih]
      simp

/-! ### Places -/

/-- Whether a text literal goes on behind what is at a position. -/
def next (inText : Bool) (o : Option Char) : Bool :=
  if o = some '"' then !inText else inText

/-- Whether a text literal goes on behind a template. -/
def after (inText : Bool) (t : Template) : Bool :=
  t.foldl next inText

variable {b : Bool}

@[simp]
lemma next_none : next b none = b :=
  rfl

lemma next_of_ne {c : Char} (h : c ≠ '"') : next b (some c) = b := by
  simp [next, h]

@[simp]
lemma after_nil : after b [] = b :=
  rfl

@[simp]
lemma after_cons (o : Option Char) : after b (o :: t) = after (next b o) t :=
  rfl

@[simp]
lemma after_append : after b (s ++ t) = after (after b s) t :=
  List.foldl_append

lemma after_of_not_mem (h : some '"' ∉ t) : after b t = b := by
  induction t with
  | nil => rfl
  | cons o t ih =>
    rw [List.mem_cons, not_or] at h
    rw [after_cons, next, if_neg (Ne.symm h.1), ih h.2]

lemma after_map_some {spot : Text.Spot} (h : spot.isText = b) (text : List Char) :
    after b (text.map some) = (spot.after text).isText := by
  induction text generalizing spot b with
  | nil => exact h.symm
  | cons c text ih =>
    rw [List.map_cons, after_cons, Text.Spot.after_cons]
    refine ih ?_
    rw [Text.Spot.isText_next, h, next]
    simp

/-- Whether all places are outside text literals. -/
def Outside : Bool → Template → Prop
  | _, [] => True
  | b, o :: t => (o = none → b = false) ∧ Outside (next b o) t

lemma outside_append : Outside b (s ++ t) ↔ Outside b s ∧ Outside (after b s) t := by
  induction s generalizing b with
  | nil => simp [Outside]
  | cons o s ih => simp [Outside, ih, and_assoc]

lemma outside_map_some (text : List Char) : Outside b (text.map some) := by
  induction text generalizing b with
  | nil => trivial
  | cons c text ih => exact ⟨(nomatch ·), ih⟩

/-- Whether a place is apart from a neighbour. It may not stand behind a point, to which a number
would belong, nor behind a parenthesis that may be taken away. -/
inductive Apart : Option Char → Option Char → Prop where
  | some (c d : Char) : Apart (some c) (some d)
  | before {c : Char} (h : isWordChar c = false) : Apart none (some c)
  | behind {c : Char} (h : isWordChar c = false) (hpoint : c ≠ '.') (hclose : c ≠ ')') :
    Apart (some c) none

namespace Apart

lemma to_some {c : Char} (h : isWordChar c = false) (o : Option Char) : Apart o (.some c) := by
  cases o with
  | none => exact .before h
  | some d => exact .some d c

lemma of_some {c : Char} (h : isWordChar c = false) (hpoint : c ≠ '.') (hclose : c ≠ ')')
    (o : Option Char) : Apart (.some c) o := by
  cases o with
  | none => exact .behind h hpoint hclose
  | some d => exact .some c d

end Apart

/-- Whether the places of a template are outside text literals and apart from their neighbours. -/
structure WellPlaced (t : Template) : Prop where
  outside : Outside false t
  apart : t.IsChain Apart

/-- Whether the places of a template are well placed and it ends outside text literals. -/
structure Closed (t : Template) : Prop extends WellPlaced t where
  after : after false t = false

/-- No word touches a place from behind. -/
lemma not_isWordChar_behind (h : List.IsChain Apart (none :: t)) :
    ∀ c ∈ (fill w t).head?, isWordChar c = false := by
  intro c hc
  cases t with
  | nil => cases hc
  | cons o t =>
    cases (List.isChain_cons_cons.1 h).1 with
    | before hd =>
      cases hc
      exact hd

namespace WellPlaced

lemma after_of_place (h : WellPlaced (s ++ none :: t)) : Template.after false s = false :=
  (outside_append.1 h.outside).2.1 rfl

lemma behind_place (h : WellPlaced (s ++ none :: t)) : WellPlaced t := by
  have houtside := (outside_append.1 h.outside).2.2
  rw [h.after_of_place] at houtside
  exact ⟨houtside, h.apart.right_of_append.tail⟩

/-- No word touches a place from before, nor does a point. -/
lemma apart_before {text : List Char} (h : WellPlaced (text.map some ++ none :: t)) {c : Char}
    (hc : c ∈ text.getLast?) : isWordChar c = false ∧ c ≠ '.' := by
  have hapart := (List.isChain_append.1 h.apart).2.2 (some c) (by simpa using hc) none rfl
  cases hapart with
  | behind hword hpoint => exact ⟨hword, hpoint⟩

lemma left (h : WellPlaced (s ++ t)) : WellPlaced s :=
  ⟨(outside_append.1 h.outside).1, h.apart.left_of_append⟩

lemma right (h : WellPlaced (s ++ t)) (hs : Template.after false s = false) : WellPlaced t :=
  ⟨hs ▸ (outside_append.1 h.outside).2, h.apart.right_of_append⟩

lemma tail {c : Char} (h : WellPlaced (s ++ some c :: t)) (hs : Template.after false s = false)
    (hc : c ≠ '"') : WellPlaced t := by
  refine right (s := s ++ [some c]) (by simpa using h) ?_
  rw [after_append, hs, after_cons, next_of_ne hc, after_nil]

lemma map_some (text : List Char) : WellPlaced (text.map some) := by
  refine ⟨outside_map_some text, ?_⟩
  induction text with
  | nil => exact .nil
  | cons c text ih =>
    cases text with
    | nil => exact .singleton _
    | cons d text => exact .cons_cons (.some c d) ih

end WellPlaced

namespace Closed

lemma of_cut {c : Char} (h : WellPlaced (s ++ some c :: t)) (hs : Template.after false s = false) :
    Closed s :=
  ⟨h.left, hs⟩

lemma tail {c : Char} (h : Closed (s ++ some c :: t)) (hs : Template.after false s = false)
    (hc : c ≠ '"') : Closed t := by
  refine ⟨h.toWellPlaced.tail hs hc, ?_⟩
  have hafter := h.after
  rwa [after_append, hs, after_cons, next_of_ne hc] at hafter

/-- Templates in a row whose ends are apart. -/
lemma append_wellPlaced (hs : Closed s) (ht : WellPlaced t)
    (hends : ∀ o ∈ s.getLast?, ∀ o' ∈ t.head?, Apart o o') : WellPlaced (s ++ t) :=
  ⟨outside_append.2 ⟨hs.outside, hs.after.symm ▸ ht.outside⟩, hs.apart.append ht.apart hends⟩

lemma append (hs : Closed s) (ht : Closed t)
    (hends : ∀ o ∈ s.getLast?, ∀ o' ∈ t.head?, Apart o o') : Closed (s ++ t) :=
  ⟨hs.append_wellPlaced ht.toWellPlaced hends, by rw [after_append, hs.after, ht.after]⟩

/-- A character without places does not end in a text literal unless it is a quote. -/
lemma singleton {c : Char} (hc : c ≠ '"') : Closed [some c] :=
  ⟨.map_some [c], next_of_ne hc⟩

end Closed

/-- Neither a group nor what is put in its stead is touched by places. -/
lemma WellPlaced.replace_group {front inside tail : Template}
    (h : WellPlaced (front ++ some '(' :: (inside ++ some ')' :: tail)))
    (hfront : after false front = false) (hinside : after false inside = false)
    (hlast : front.getLast? ≠ some none) {literal : List Char}
    (hliteral : (Text.Spot.plain.after literal).isText = false) :
    WellPlaced (front ++ literal.map some ++ tail) := by
  have hinner := h.tail hfront (by decide)
  have hplain : Text.Spot.plain.isText = false := rfl
  have hclosed : Closed (literal.map some) :=
    ⟨.map_some literal, (after_map_some hplain literal).trans hliteral⟩
  have hhead : tail.head? ≠ some none := by
    intro hhead
    obtain ⟨rest, rfl⟩ := List.head?_eq_some_iff.1 hhead
    cases (List.isChain_cons_cons.1 hinner.apart.right_of_append).1 with
    | behind _ _ hne => exact hne rfl
  have happart {o o' : Option Char} (ho : o ≠ none) (ho' : o' ≠ none) : Apart o o' := by
    obtain ⟨c, rfl⟩ := Option.ne_none_iff_exists'.1 ho
    obtain ⟨d, rfl⟩ := Option.ne_none_iff_exists'.1 ho'
    exact .some c d
  have hbehind : WellPlaced (literal.map some ++ tail) := by
    refine hclosed.append_wellPlaced (hinner.tail hinside (by decide)) fun o ho o' ho' => ?_
    obtain ⟨c, -, rfl⟩ := List.mem_map.1 (List.mem_of_mem_getLast? ho)
    exact happart (nomatch ·) fun hnone => hhead (hnone ▸ ho')
  rw [List.append_assoc]
  refine Closed.append_wellPlaced ⟨h.left, hfront⟩ hbehind fun o ho o' ho' => ?_
  refine happart (fun hnone => hlast (hnone ▸ ho)) fun hnone => ?_
  cases literal with
  | nil => exact hhead (hnone ▸ ho')
  | cons c literal =>
    subst hnone
    cases ho'

end Template

end Reckoner
