import Reckoner.Proofs.Call.Cutting
import Reckoner.Proofs.Substitution.Literal

/-!
# Calls in a text with fragments replaced

Neither a literal nor a fresh name holds a call or makes one of what is behind it, where it stands
for a fragment. A statement has as many calls as the expression that it is read as, or more.
-/

namespace Reckoner

open Text (Tame)

variable {P : String → Bool}

namespace Text

open Spot

/-- Whether a text has no calls on its own, nor together with what follows. -/
structure Inert (P : String → Bool) (t : List Char) : Prop where
  sites_eq : sites P plain t = 0
  idle : (plain.after t).Idle P

lemma Tame.inert {t : List Char} (h : Tame P t) : Inert P t :=
  ⟨(h plain trivial).1, (h plain trivial).2.idle⟩

lemma after_word {s : Spot} (hs : s.isText = false) {t : List Char} (ht : t ≠ [])
    (hword : ∀ c ∈ t, Name.isWordChar c = true) : s.after t = word (s.current ++ t) := by
  induction t generalizing s with
  | nil => exact absurd rfl ht
  | cons c t ih =>
    obtain ⟨hc, hword⟩ := List.forall_mem_cons.1 hword
    rw [after_cons, next_word hs hc]
    cases t with
    | nil => rfl
    | cons d t =>
      rw [ih rfl (by simp) hword]
      simp [current]

lemma sites_word {s : Spot} {t : List Char} (hword : ∀ c ∈ t, Name.isWordChar c = true) :
    sites P s t = 0 :=
  sites_of_not_mem fun hmem => absurd (hword _ hmem) (by decide)

end Text

namespace Substitution

open Text Text.Spot

/-- Whether no name that is counted starts like a fresh name. -/
def Unnamed (P : String → Bool) : Prop :=
  ∀ name, P name = true → ¬ "_rewritten_".toList <+: name.toList

lemma inert_scratchName (hP : Unnamed P) (n : Nat) : Inert P (scratchName n).toList := by
  have hword : ∀ c ∈ (scratchName n).toList, Name.isWordChar c = true := fun c hc =>
    Piece.isWordChar_of_continues (continues_of_mem_scratchName hc)
  have hne : (scratchName n).toList ≠ [] := by
    rw [toList_scratchName]
    exact List.append_ne_nil_of_left_ne_nil (by decide) _
  refine ⟨sites_word hword, ?_⟩
  rw [after_word rfl hne hword]
  intro u
  have hname : P (String.ofList ((scratchName n).toList ++ u)) = false := by
    by_contra hname
    refine hP _ (Bool.not_eq_false _ ▸ hname) ?_
    rw [String.toList_ofList (l := (scratchName n).toList ++ u), toList_scratchName,
      List.append_assoc]
    exact List.prefix_append _ _
  change isCounted P ((scratchName n).toList ++ u) = false
  rw [isCounted, hname, Bool.and_false]

/-- A parenthesis that belongs to no call stands behind no word. -/
lemma after_of_not_isCall {before : List Char} (h : isCall before = false)
    (htext : (plain.after before.reverse).isText = false) : plain.after before.reverse = plain := by
  induction before with
  | nil => rfl
  | cons c before ih =>
    rw [List.reverse_cons, after_append, after_cons, after_nil] at htext ⊢
    rw [isText_next] at htext
    by_cases hquote : c = '"'
    · rw [if_pos hquote, Bool.not_eq_false'] at htext
      simp [Spot.next, hquote, htext]
    · rw [if_neg hquote] at htext
      cases hblank : isBlank c with
      | true =>
        have hcall : isCall before = false := by
          simpa [isCall, List.dropWhile_cons, hblank] using h
        rw [ih hcall htext, next_blank rfl hblank]
        rfl
      | false =>
        have hword : Name.isWordChar c = false := by
          simpa [isCall, List.dropWhile_cons, hblank] using h
        exact next_mark htext hquote hword hblank

lemma cut_of_callAt? {isFunction : String → Bool} {s : Spot} {t front tail : List Char}
    (hs : s.isText = false) (h : callAt? isFunction t = some (front, tail)) :
    t = front ++ '(' :: tail ∧ (s.after front).isText = false := by
  have hwords : ∀ c ∈ t.takeWhile Name.isWordChar, Name.isWordChar c = true := fun c hc =>
    List.mem_takeWhile_imp hc
  have hblanks : ∀ c ∈ (t.dropWhile Name.isWordChar).takeWhile isBlank, isBlank c = true :=
    fun c hc => List.mem_takeWhile_imp hc
  simp only [callAt?] at h
  split at h
  · rename_i rest hrest
    split at h
    · cases h
      refine ⟨?_, ?_⟩
      · rw [List.append_assoc, ← hrest, List.takeWhile_append_dropWhile,
          List.takeWhile_append_dropWhile]
      · rwa [isText_after s]
        intro hmem
        rcases List.mem_append.1 hmem with hmem | hmem
        · exact absurd (hwords _ hmem) (by decide)
        · exact absurd (hblanks _ hmem) (by decide)
    · cases h
  · cases h

/-- A call is found outside text literals. -/
lemma cut_of_nextCall? {isFunction : String → Bool} {inText inWord : Bool} {s : Spot}
    {t front tail : List Char} (hs : s.isText = inText)
    (h : nextCall? isFunction inText inWord t = some (front, tail)) :
    t = front ++ '(' :: tail ∧ (s.after front).isText = false := by
  induction t generalizing inText inWord s front with
  | nil => cases h
  | cons c t ih =>
    have hmore {inText inWord : Bool} (hs : (s.next c).isText = inText)
        (h : (nextCall? isFunction inText inWord t).map (fun x => (c :: x.1, x.2))
          = some (front, tail)) :
        c :: t = front ++ '(' :: tail ∧ (s.after front).isText = false := by
      obtain ⟨⟨front, tail⟩, hcut, heq⟩ := Option.map_eq_some_iff.1 h
      cases heq
      obtain ⟨rfl, htext⟩ := ih hs hcut
      exact ⟨rfl, htext⟩
    rw [isText_next] at hmore
    simp only [nextCall?] at h
    split at h
    · rename_i hquote
      exact hmore (by rw [if_pos hquote, hs]) h
    · rename_i hquote
      rw [if_neg hquote] at hmore
      split at h
      · rename_i htext
        exact hmore (hs.trans htext) h
      · rename_i htext
        have hs : s.isText = false := hs.trans (by simpa using htext)
        split at h
        · split at h
          · rename_i hcall
            cases h
            exact cut_of_callAt? hs hcall
          · exact hmore hs h
        · exact hmore hs h

end Substitution

/-! ### Statements -/

namespace Statement

open Text Text.Spot

lemma cut_of_cutAtEquals? {inText : Bool} {s : Spot} {t front tail : List Char}
    (hs : s.isText = inText) (h : cutAtEquals? inText t = some (front, tail)) :
    t = front ++ '=' :: tail ∧ (s.after front).isText = false := by
  induction t generalizing inText s front with
  | nil => cases h
  | cons c t ih =>
    rw [cutAtEquals?] at h
    split at h
    · rename_i hc
      cases h
      exact ⟨by rw [hc.1]; rfl, by simpa [hs] using hc.2⟩
    · obtain ⟨⟨front, tail⟩, hcut, heq⟩ := Option.map_eq_some_iff.1 h
      cases heq
      obtain ⟨rfl, htext⟩ := ih (s := s.next c) (by rw [isText_next, hs]) hcut
      exact ⟨rfl, htext⟩

lemma cut_of_cutAtAssign? {inText : Bool} {previous : Option Char} {s : Spot}
    {t front tail : List Char} (hs : s.isText = inText)
    (h : cutAtAssign? inText previous t = some (front, tail)) :
    t = front ++ '=' :: tail ∧ (s.after front).isText = false := by
  induction t generalizing inText previous s front with
  | nil => cases h
  | cons c t ih =>
    have hmore {inText : Bool} {previous : Option Char} (hs : (s.next c).isText = inText)
        (h : (cutAtAssign? inText previous t).map (fun x => (c :: x.1, x.2))
          = some (front, tail)) :
        c :: t = front ++ '=' :: tail ∧ (s.after front).isText = false := by
      obtain ⟨⟨front, tail⟩, hcut, heq⟩ := Option.map_eq_some_iff.1 h
      cases heq
      obtain ⟨rfl, htext⟩ := ih hs hcut
      exact ⟨rfl, htext⟩
    rw [isText_next] at hmore
    simp only [cutAtAssign?] at h
    split at h
    · rename_i hquote
      exact hmore (by rw [if_pos hquote, hs]) h
    · rename_i hquote
      rw [if_neg hquote] at hmore
      split at h
      · exact hmore hs h
      · rename_i htext
        split at h
        · rename_i hc
          cases h
          exact ⟨by rw [hc.1]; rfl, by simpa [hs] using htext⟩
        · exact hmore hs h

lemma isValid_of_markedName? {mark source name : List Char}
    (h : markedName? mark source = some name) : Name.isValid name = true :=
  (Option.filter_eq_some_iff.1 h).2

/-- An increment holds no calls. -/
lemma sites_ofIncrement? {source full : List Char} (h : ofIncrement? source = some full) :
    sites P plain full = 0 := by
  have hone {name : List Char} (hname : Name.isValid name = true) {sign : Char}
      (hsign : sign ≠ '(') :
      sites P plain (oneMore name sign) = 0 := by
    have hparen : '(' ∉ name := Name.not_mem_of_mem_marks hname (by decide)
    exact sites_of_not_mem (by simp [oneMore, hparen, Ne.symm hsign])
  unfold ofIncrement? at h
  split at h
  · rename_i name hname
    cases h
    exact hone (isValid_of_markedName? hname) (by decide)
  · obtain ⟨name, hname, rfl⟩ := Option.map_eq_some_iff.1 h
    exact hone (isValid_of_markedName? hname) (by decide)

end Statement

end Reckoner
