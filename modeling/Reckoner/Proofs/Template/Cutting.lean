import Reckoner.Proofs.Call.Cutting
import Reckoner.Proofs.Template.Basic

/-!
# Cutting a text with places

A text with places for a word is trimmed and cut at marks at the same places whatever the word is.
The parts are texts with places again.
-/

namespace Reckoner

open Name (isWordChar ne_of_isWordChar)

namespace Template

variable {w : List Char} {s t : Template}
variable {b : Bool}

lemma quote_not_mem_blanks (t : Template) :
    some '"' ∉ t.takeWhile (Option.any Text.isBlank) :=
  fun hmem => absurd (List.mem_takeWhile_imp hmem) (by decide)

lemma exists_dropWhile_blank (t : Template) :
    ∃ s, t = s ++ t.dropWhile (Option.any Text.isBlank) ∧ some '"' ∉ s := by
  refine ⟨t.takeWhile (Option.any Text.isBlank), List.takeWhile_append_dropWhile.symm, ?_⟩
  exact quote_not_mem_blanks t

/-- The template without the blanks at its two ends. -/
def trim (t : Template) : Template :=
  ((t.dropWhile (Option.any Text.isBlank)).reverse.dropWhile (Option.any Text.isBlank)).reverse

lemma trim_fill (h : Word w) : Text.trim (fill w t) = fill w t.trim := by
  rw [Text.trim, Text.trimStart, Text.trimEnd, dropWhile_fill h, reverse_fill,
    dropWhile_fill h.reverse, reverse_fill, List.reverse_reverse]
  rfl

lemma exists_trim (t : Template) :
    ∃ s s', t = s ++ (t.trim ++ s') ∧ some '"' ∉ s ∧ some '"' ∉ s' := by
  obtain ⟨s, hs, hquote⟩ := exists_dropWhile_blank t
  obtain ⟨s', hs', hquote'⟩ :=
    exists_dropWhile_blank (t.dropWhile (Option.any Text.isBlank)).reverse
  refine ⟨s, s'.reverse, ?_, hquote, by simpa using hquote'⟩
  rw [trim, ← List.reverse_append, ← hs', List.reverse_reverse]
  exact hs

lemma WellPlaced.trim (h : WellPlaced t) : WellPlaced t.trim := by
  obtain ⟨s, s', ht, hs, -⟩ := t.exists_trim
  rw [ht] at h
  exact (h.right (after_of_not_mem hs)).left

lemma Closed.trim (h : Closed t) : Closed t.trim := by
  refine ⟨h.toWellPlaced.trim, ?_⟩
  obtain ⟨s, s', ht, hs, hs'⟩ := t.exists_trim
  have hafter := h.after
  rwa [ht, after_append, after_append, after_of_not_mem hs, after_of_not_mem hs'] at hafter

/-! ### Cutting -/

/-- The texts before and after the character at which a reader stops. -/
def cutBy {σ : Type} (step : σ → Char → Option σ) :
    σ → List Char → Option (List Char × List Char)
  | _, [] => none
  | state, c :: rest =>
    match step state c with
    | none => some ([], rest)
    | some state => (cutBy step state rest).map fun (front, tail) => (c :: front, tail)

/-- Whether a reader passes over words, knows whether it is in a text literal and stops at a mark
outside. -/
structure Passes {σ : Type} (mark : Char) (step : σ → Char → Option σ) (inText : σ → Bool) :
    Prop where
  word {state : σ} {c : Char} : isWordChar c = true → step state c = some state
  next {state state' : σ} {c : Char} :
    step state c = some state' → inText state' = next (inText state) (some c)
  stop {state : σ} {c : Char} : step state c = none → inText state = false ∧ c = mark

/-- Whether filled templates are cut at the same mark outside text literals, or not cut at all, for
all words with a property. -/
def Cuts (P : List Char → Prop) (mark : Char) (b : Bool) (t : Template)
    (cut : List Char → Option (List Char × List Char)) : Prop :=
  (∀ w, P w → cut (fill w t) = none)
    ∨ ∃ front tail : Template, t = front ++ some mark :: tail ∧ after b front = false
      ∧ ∀ w, P w → cut (fill w t) = some (fill w front, fill w tail)

namespace Cuts

variable {P : List Char → Prop} {mark : Char}
  {cut cut' : List Char → Option (List Char × List Char)}

lemma cons {c : Char} (h : Cuts P mark (next b (some c)) t cut)
    (hcut : ∀ w, P w → cut' (c :: fill w t)
      = (cut (fill w t)).map fun (front, tail) => (c :: front, tail)) :
    Cuts P mark b (some c :: t) cut' := by
  rcases h with h | ⟨front, tail, rfl, hafter, h⟩
  · exact .inl fun w hw => by rw [fill_some, hcut w hw, h w hw]; rfl
  · refine .inr ⟨some c :: front, tail, rfl, hafter, fun w hw => ?_⟩
    rw [fill_some, hcut w hw, h w hw]
    rfl

lemma cons_none (h : Cuts P mark b t cut)
    (hcut : ∀ w, P w → cut' (w ++ fill w t)
      = (cut (fill w t)).map fun (front, tail) => (w ++ front, tail)) :
    Cuts P mark b (none :: t) cut' := by
  rcases h with h | ⟨front, tail, rfl, hafter, h⟩
  · exact .inl fun w hw => by rw [fill_none, hcut w hw, h w hw]; rfl
  · refine .inr ⟨none :: front, tail, rfl, hafter, fun w hw => ?_⟩
    rw [fill_none, hcut w hw, h w hw]
    rfl

end Cuts

section Readers

variable {σ : Type} {mark : Char} {step : σ → Char → Option σ} {inText : σ → Bool}

lemma Passes.cutBy_append (h : Passes mark step inText) {v : List Char}
    (hv : ∀ c ∈ v, isWordChar c = true) (state : σ) (text : List Char) :
    cutBy step state (v ++ text)
      = (cutBy step state text).map fun (front, tail) => (v ++ front, tail) := by
  induction v with
  | nil => simp
  | cons c v ih =>
    rw [List.forall_mem_cons] at hv
    rw [List.cons_append, cutBy, h.word hv.1]
    simp only [ih hv.2, Option.map_map]
    rfl

lemma Passes.cuts (h : Passes mark step inText) (state : σ) (t : Template) :
    Cuts Word mark (inText state) t (cutBy step state) := by
  induction t generalizing state with
  | nil => exact .inl fun _ _ => rfl
  | cons o t ih =>
    cases o with
    | none => exact (ih state).cons_none fun w hw => h.cutBy_append hw.isWordChar state _
    | some c =>
      cases hstep : step state c with
      | none =>
        obtain ⟨htext, rfl⟩ := h.stop hstep
        refine .inr ⟨[], t, rfl, htext, fun w _ => ?_⟩
        rw [fill_some, cutBy, hstep]
        rfl
      | some state' =>
        refine Cuts.cons (h.next hstep ▸ ih state') fun w _ => ?_
        rw [cutBy, hstep]

end Readers

lemma next_place_word {p : Text.Place} {c : Char} (h : isWordChar c = true) : p.next c = p := by
  refine p.next_of_not_mem fun hmem => ?_
  have hmarks : ∀ m ∈ ['"', '(', ')', '[', ']'], m ∈ Name.marks := by simp [Name.marks]
  exact ne_of_isWordChar h (hmarks c hmem) rfl

lemma inText_of_isTop {p : Text.Place} (h : p.isTop = true) : p.inText = false := by
  simp only [Text.Place.isTop, Bool.and_eq_true, Bool.not_eq_true'] at h
  exact h.1

lemma inText_next (p : Text.Place) (c : Char) : (p.next c).inText = next p.inText (some c) := by
  rw [Text.inText_next, next]
  simp

/-- What looks for a mark outside all brackets. -/
def topStep (mark : Char) (p : Text.Place) (c : Char) : Option Text.Place :=
  if p.isTop && c == mark then none else some (p.next c)

lemma passes_topStep {mark : Char} (hmark : mark ∈ Name.marks) :
    Passes mark (topStep mark) Text.Place.inText where
  word {p c} hc := by
    have hne : (c == mark) = false := beq_eq_false_iff_ne.2 (ne_of_isWordChar hc hmark)
    rw [topStep, hne, Bool.and_false, next_place_word hc]
    rfl
  next {p p' c} h := by
    unfold topStep at h
    split_ifs at h
    cases h
    exact inText_next p c
  stop {p c} h := by
    unfold topStep at h
    split_ifs at h with htop
    obtain ⟨htop, hc⟩ := Bool.and_eq_true_iff.1 htop
    exact ⟨inText_of_isTop htop, beq_iff_eq.1 hc⟩

lemma cutAtTop?_eq_cutBy (mark : Char) (p : Text.Place) (text : List Char) :
    Text.cutAtTop? mark p text = cutBy (topStep mark) p text := by
  induction text generalizing p with
  | nil => rfl
  | cons c text ih =>
    rw [Text.cutAtTop?, cutBy, topStep]
    split_ifs
    · rfl
    · rw [ih]

lemma cutAtTop?_cuts {mark : Char} (hmark : mark ∈ Name.marks) (p : Text.Place) (t : Template) :
    Cuts Word mark p.inText t (Text.cutAtTop? mark p) := by
  rw [funext (cutAtTop?_eq_cutBy mark p)]
  exact (passes_topStep hmark).cuts p t

/-- What looks for the `:` that ends so many conditionals inside and then this one. -/
def colonStep : Text.Place × Nat → Char → Option (Text.Place × Nat)
  | (p, nested), c =>
    if p.isTop && c == '?' then some (p.next c, nested + 1)
    else if p.isTop && c == ':' then
      match nested with
      | 0 => none
      | nested + 1 => some (p.next c, nested)
    else some (p.next c, nested)

lemma passes_colonStep : Passes ':' colonStep fun state => state.1.inText where
  word {state c} hc := by
    have hquestion : (c == '?') = false := beq_eq_false_iff_ne.2 (ne_of_isWordChar hc (by decide))
    have hcolon : (c == ':') = false := beq_eq_false_iff_ne.2 (ne_of_isWordChar hc (by decide))
    simp only [colonStep, hquestion, hcolon, Bool.and_false, Bool.false_eq_true, if_false,
      next_place_word hc]
  next {state state' c} h := by
    obtain ⟨p, nested⟩ := state
    simp only [colonStep] at h
    split_ifs at h
    · cases h
      exact inText_next p c
    · cases nested <;> cases h
      exact inText_next p c
    · cases h
      exact inText_next p c
  stop {state c} h := by
    obtain ⟨p, nested⟩ := state
    simp only [colonStep] at h
    split_ifs at h with _ htop
    obtain ⟨htop, hc⟩ := Bool.and_eq_true_iff.1 htop
    exact ⟨inText_of_isTop htop, beq_iff_eq.1 hc⟩

lemma cutAtColon?_eq_cutBy (p : Text.Place) (nested : Nat) (text : List Char) :
    Conditional.cutAtColon? p nested text = cutBy colonStep (p, nested) text := by
  induction text generalizing p nested with
  | nil => rfl
  | cons c text ih =>
    simp only [Conditional.cutAtColon?, cutBy, colonStep, ih]
    split_ifs
    · rfl
    · cases nested <;> rfl
    · rfl

lemma cutAtColon?_cuts (p : Text.Place) (nested : Nat) (t : Template) :
    Cuts Word ':' p.inText t (Conditional.cutAtColon? p nested) := by
  rw [funext (cutAtColon?_eq_cutBy p nested)]
  exact passes_colonStep.cuts (p, nested) t

/-- What looks for the parenthesis that closes so many others and then itself. -/
def closeStep : Bool × Nat → Char → Option (Bool × Nat)
  | (inText, depth), c =>
    if c = '"' then some (!inText, depth)
    else if inText then some (inText, depth)
    else if c = '(' then some (inText, depth + 1)
    else if c = ')' then
      match depth with
      | 0 => none
      | depth + 1 => some (inText, depth)
    else some (inText, depth)

lemma passes_closeStep : Passes ')' closeStep Prod.fst where
  word {state c} hc := by
    have hquote : c ≠ '"' := ne_of_isWordChar hc (by decide)
    have hopen : c ≠ '(' := ne_of_isWordChar hc (by decide)
    have hclose : c ≠ ')' := ne_of_isWordChar hc (by decide)
    simp only [closeStep, hquote, hopen, hclose, if_false, ite_self]
  next {state state' c} h := by
    obtain ⟨b, depth⟩ := state
    simp only [closeStep] at h
    split_ifs at h with hquote
    · cases h
      simp [next, hquote]
    · cases h
      simp [next, hquote]
    · cases h
      simp [next, hquote]
    · cases depth <;> cases h
      simp [next, hquote]
    · cases h
      simp [next, hquote]
  stop {state c} h := by
    obtain ⟨b, depth⟩ := state
    simp only [closeStep] at h
    split_ifs at h with hquote htext hopen hclose
    exact ⟨by simpa using htext, hclose⟩

lemma cutAtClose?_eq_cutBy (b : Bool) (depth : Nat) (text : List Char) :
    Text.cutAtClose? b depth text = cutBy closeStep (b, depth) text := by
  induction text generalizing b depth with
  | nil => rfl
  | cons c text ih =>
    simp only [Text.cutAtClose?, cutBy, closeStep, ih]
    split_ifs
    · rfl
    · rfl
    · rfl
    · cases depth <;> rfl
    · rfl

lemma cutAtClose?_cuts (b : Bool) (depth : Nat) (t : Template) :
    Cuts Word ')' b t (Text.cutAtClose? b depth) := by
  rw [funext (cutAtClose?_eq_cutBy b depth)]
  exact passes_closeStep.cuts (b, depth) t

end Template

end Reckoner
