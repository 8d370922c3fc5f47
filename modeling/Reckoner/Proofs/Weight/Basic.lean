import Reckoner.Proofs.Statement.Cutting

/-!
# The weight of a text

How deep the evaluation of a text can nest is bounded by its weight: the question marks outside text
literals and the open parentheses there, except those that hold a number at most. A conditional
weighs more than each of its parts, and a text more than the questioned groups and arguments that it
holds. What a fragment is replaced by has no weight: the literals with parentheses are those of
numbers. Only the characters of the number behind it and the one at its end tell whether a
parenthesis weighs something, so that the weights of two texts add up to that of both together,
up to the parentheses at the end of the first.
-/

namespace Reckoner.Text

/-! ### Weights -/

/-- Whether a character can stand between the parentheses of a number. -/
def inNumber (c : Char) : Bool :=
  c.isDigit || ['.', '-', '+', '*', 'i'].contains c

/-- Whether an open parenthesis before a text holds a number at most. The end of the text closes it.
-/
def holdsNumber (rest : List Char) : Bool :=
  (rest.dropWhile inNumber).head?.all (· == ')')

/-- The weight of a character before a text. -/
def charWeight (c : Char) (rest : List Char) : Nat :=
  if c = '?' ∨ (c = '(' ∧ holdsNumber rest = false) then 1 else 0

/-- The weight of characters outside text literals. -/
def weight : List Char → Nat
  | [] => 0
  | c :: rest => charWeight c rest + weight rest

/-- The weight of characters before others at which every number ends. -/
def openWeight (s : List Char) : Nat :=
  weight (s ++ [','])

/-- The weight of a text. -/
def textWeight (text : List Char) : Nat :=
  weight (outside text)

lemma weight_cons (c : Char) (rest : List Char) :
    weight (c :: rest) = charWeight c rest + weight rest :=
  rfl

lemma charWeight_of_ne {c : Char} (hquestion : c ≠ '?') (hparen : c ≠ '(') (rest : List Char) :
    charWeight c rest = 0 := by
  simp [charWeight, hquestion, hparen]

lemma charWeight_le_one (c : Char) (rest : List Char) : charWeight c rest ≤ 1 := by
  unfold charWeight
  split <;> omega

lemma weight_le_length (s : List Char) : weight s ≤ s.length := by
  induction s with
  | nil => exact Nat.le_refl 0
  | cons c s ih =>
    have hc := charWeight_le_one c s
    rw [weight_cons, List.length_cons]
    omega

/-! ### Texts one behind the other -/

/-- More text behind a number only opens its parenthesis. -/
lemma holdsNumber_of_append {s t : List Char} (h : holdsNumber (s ++ t) = true) :
    holdsNumber s = true := by
  rw [holdsNumber, List.dropWhile_append] at h
  rw [holdsNumber]
  cases hs : s.dropWhile inNumber with
  | nil => rfl
  | cons c rest =>
    rw [hs] at h
    exact h

/-- A number that ends before a comma ends in any case. -/
lemma holdsNumber_append_of_comma {s : List Char} (h : holdsNumber (s ++ [',']) = true)
    (t : List Char) : holdsNumber (s ++ t) = true := by
  rw [holdsNumber, List.dropWhile_append] at h ⊢
  cases hs : s.dropWhile inNumber with
  | nil =>
    rw [hs] at h
    cases h
  | cons c rest =>
    rw [hs] at h
    exact h

lemma charWeight_mono {c : Char} {s t : List Char}
    (h : holdsNumber t = true → holdsNumber s = true) : charWeight c s ≤ charWeight c t := by
  unfold charWeight
  split
  · rename_i hs
    rw [if_pos]
    exact hs.imp_right fun hparen => ⟨hparen.1, by
      by_contra ht
      rw [h (by simpa using ht)] at hparen
      cases hparen.2⟩
  · exact Nat.zero_le _

lemma add_weight_le (s t : List Char) : weight s + weight t ≤ weight (s ++ t) := by
  induction s with
  | nil => simp [weight]
  | cons c s ih =>
    have hc : charWeight c s ≤ charWeight c (s ++ t) := charWeight_mono holdsNumber_of_append
    rw [List.cons_append, weight_cons, weight_cons]
    omega

lemma weight_append_le (s t : List Char) : weight (s ++ t) ≤ openWeight s + weight t := by
  unfold openWeight
  induction s with
  | nil => exact Nat.le_add_left _ _
  | cons c s ih =>
    have hc : charWeight c (s ++ t) ≤ charWeight c (s ++ [',']) :=
      charWeight_mono fun h => holdsNumber_append_of_comma h t
    rw [List.cons_append, List.cons_append, weight_cons, weight_cons]
    omega

lemma weight_le_openWeight (s : List Char) : weight s ≤ openWeight s :=
  Nat.le_trans (Nat.le_add_right _ _) (add_weight_le s [','])

lemma openWeight_append_le (s t : List Char) :
    openWeight (s ++ t) ≤ openWeight s + openWeight t := by
  rw [openWeight, List.append_assoc]
  exact weight_append_le s _

/-- At a character that cannot be part of a number the weights add up. -/
lemma weight_append_stop (s : List Char) {c : Char} (hc : inNumber c = false) (hclose : c ≠ ')')
    (t : List Char) : weight (s ++ c :: t) = openWeight s + weight (c :: t) := by
  unfold openWeight
  induction s with
  | nil => simp [weight, charWeight]
  | cons d s ih =>
    have hd : charWeight d (s ++ c :: t) = charWeight d (s ++ [',']) := by
      have hholds : holdsNumber (s ++ c :: t) = holdsNumber (s ++ [',']) := by
        rw [holdsNumber, holdsNumber, List.dropWhile_append, List.dropWhile_append]
        cases hs : s.dropWhile inNumber with
        | nil =>
          have hcomma : inNumber ',' = false := by decide
          simp [hc, hcomma, hclose]
        | cons e rest => rfl
      rw [charWeight, charWeight, hholds]
    rw [List.cons_append, List.cons_append, weight_cons, weight_cons, ih, hd]
    omega

lemma openWeight_append_stop (s : List Char) {c : Char} (hc : inNumber c = false)
    (hclose : c ≠ ')') (t : List Char) :
    openWeight (s ++ c :: t) = openWeight s + openWeight (c :: t) := by
  rw [openWeight, List.append_assoc, List.cons_append, weight_append_stop s hc hclose]
  rfl

/-! ### Characters without weight -/

/-- Whether characters weigh nothing, whatever stands behind them. -/
def Light (s : List Char) : Prop :=
  ∀ t, weight (s ++ t) = weight t

namespace Light

variable {s t : List Char}

lemma nil : Light [] :=
  fun _ => rfl

lemma append (hs : Light s) (ht : Light t) : Light (s ++ t) := by
  intro u
  rw [List.append_assoc, hs, ht]

lemma of_forall (h : ∀ c ∈ s, c ≠ '?' ∧ c ≠ '(') : Light s := by
  intro t
  induction s with
  | nil => rfl
  | cons c s ih =>
    obtain ⟨hc, hs⟩ := List.forall_mem_cons.1 h
    rw [List.cons_append, weight_cons, charWeight_of_ne hc.1 hc.2, Nat.zero_add]
    exact ih hs

/-- The parentheses of a number are light. -/
lemma parens (h : ∀ c ∈ s, inNumber c = true) : Light ('(' :: (s ++ [')'])) := by
  have hinside : Light (s ++ [')']) := by
    refine .append (.of_forall fun c hc => ⟨?_, ?_⟩) (.of_forall (by simp))
    · rintro rfl
      exact absurd (h _ hc) (by decide)
    · rintro rfl
      exact absurd (h _ hc) (by decide)
  intro t
  have hholds : holdsNumber (s ++ [')'] ++ t) = true := by
    have hclose : inNumber ')' = false := by decide
    rw [holdsNumber, List.append_assoc, List.dropWhile_append_of_pos h, List.singleton_append,
      List.dropWhile_cons_of_neg (by simp [hclose])]
    rfl
  rw [List.cons_append, weight_cons, hinside t, charWeight, hholds]
  simp

lemma openWeight_eq (h : Light s) : openWeight s = 0 := by
  rw [openWeight, h]
  rfl

lemma join {ts : List (List Char)} (h : ∀ t ∈ ts, Light t) : Light (Text.join [',', ' '] ts) :=
  join_induction nil append (of_forall (by simp)) h

end Light

/-! ### Blanks at the ends -/

lemma inNumber_of_isBlank {c : Char} (h : isBlank c = true) : inNumber c = false := by
  have hmarks : ∀ m ∈ ['.', '-', '+', '*', 'i'], isBlank m = false :=
    List.all_iff_forall_prop.1 (by decide)
  have hdigit : c.isDigit = false := by
    by_contra hdigit
    rw [Bool.not_eq_false] at hdigit
    have hblank := Token.not_isBlank_of_continues (Token.continuesIdentifier_of_isDigit hdigit)
    rw [h] at hblank
    cases hblank
  have hmem : c ∉ ['.', '-', '+', '*', 'i'] := by
    intro hmem
    rw [hmarks c hmem] at h
    cases h
  rw [inNumber, hdigit, Bool.false_or]
  simpa using hmem

/-- What follows only makes characters heavier if it cannot be the end of a number. -/
lemma openWeight_le_append_blanks (s : List Char) {v : List Char}
    (hv : ∀ c ∈ v, isBlank c = true) : openWeight s ≤ openWeight (s ++ v) := by
  cases v with
  | nil => rw [List.append_nil]
  | cons c v =>
    have hc := (List.forall_mem_cons.1 hv).1
    have hclose : c ≠ ')' := by
      rintro rfl
      exact absurd hc (by decide)
    rw [openWeight_append_stop s (inNumber_of_isBlank hc) hclose]
    exact Nat.le_add_right _ _

lemma exists_outside_trim (text : List Char) :
    ∃ u v, outside text = u ++ outside (trim text) ++ v ∧ ∀ c ∈ v, isBlank c = true := by
  obtain ⟨u, v, htext, hu, hv⟩ := exists_trim text
  have hquote : '"' ∉ u := fun hmem => absurd (hu _ hmem) (by decide)
  refine ⟨u, outsideFrom (Spot.plain.after (trim text)).isText v, ?_, fun c hc =>
    hv c (mem_of_mem_outsideFrom hc)⟩
  conv_lhs => rw [htext, outside_append_of_not_mem hquote]
  rw [List.append_assoc]
  exact congrArg (u ++ ·) (outsideFrom_append .plain (trim text) v)

lemma textWeight_trim_le (text : List Char) : textWeight (trim text) ≤ textWeight text := by
  obtain ⟨u, v, htext, -⟩ := exists_outside_trim text
  have hfront := add_weight_le u (outside (trim text))
  have hback := add_weight_le (u ++ outside (trim text)) v
  rw [textWeight, textWeight, htext]
  omega

lemma openWeight_trim_le (text : List Char) :
    openWeight (outside (trim text)) ≤ openWeight (outside text) := by
  obtain ⟨u, v, htext, hv⟩ := exists_outside_trim text
  have hfront := add_weight_le u (outside (trim text) ++ [','])
  rw [htext]
  refine Nat.le_trans ?_ (openWeight_le_append_blanks _ hv)
  rw [openWeight, openWeight, List.append_assoc]
  omega

/-! ### Parentheses that are closed -/

lemma holdsNumber_append {s : List Char} (h : ∃ c ∈ s, inNumber c = false) (t : List Char) :
    holdsNumber (s ++ t) = holdsNumber s := by
  obtain ⟨c, hc, hnumber⟩ := h
  rw [holdsNumber, holdsNumber, List.dropWhile_append]
  cases hs : s.dropWhile inNumber with
  | nil =>
    rw [List.dropWhile_eq_nil_iff.1 hs c hc] at hnumber
    cases hnumber
  | cons d rest => rfl

/-- Whether characters close so many parentheses from before them, and all of their own. -/
inductive Closes : Nat → List Char → Prop where
  | nil : Closes 0 []
  | opened {d : Nat} {s : List Char} (h : Closes (d + 1) s) : Closes d ('(' :: s)
  | closed {d : Nat} {s : List Char} (h : Closes d s) : Closes (d + 1) (')' :: s)
  | other {d : Nat} {c : Char} {s : List Char} (hopen : c ≠ '(') (hclose : c ≠ ')')
    (h : Closes d s) : Closes d (c :: s)

lemma closes_of_cutAtClose? {inText : Bool} {depth : Nat} {text front tail : List Char}
    (h : cutAtClose? inText depth text = some (front, tail)) :
    Closes depth (outsideFrom inText front) := by
  induction text generalizing inText depth front with
  | nil => cases h
  | cons c text ih =>
    have hmore {inText : Bool} {depth : Nat}
        (h : (cutAtClose? inText depth text).map (fun x => (c :: x.1, x.2)) = some (front, tail)) :
        ∃ rest, front = c :: rest ∧ Closes depth (outsideFrom inText rest) := by
      obtain ⟨⟨rest, _⟩, hcut, heq⟩ := Option.map_eq_some_iff.1 h
      cases heq
      exact ⟨rest, rfl, ih hcut⟩
    simp only [cutAtClose?] at h
    split at h
    · rename_i hquote
      obtain ⟨rest, rfl, hrest⟩ := hmore h
      rwa [outsideFrom, if_pos hquote]
    · rename_i hquote
      split at h
      · rename_i htext
        obtain ⟨rest, rfl, hrest⟩ := hmore h
        rwa [outsideFrom, if_neg hquote, if_pos htext]
      · rename_i htext
        have hcons (rest : List Char) :
            outsideFrom inText (c :: rest) = c :: outsideFrom inText rest := by
          rw [outsideFrom, if_neg hquote, if_neg htext]
        split at h
        · rename_i hopen
          obtain ⟨rest, rfl, hrest⟩ := hmore h
          rw [hcons, hopen]
          exact .opened hrest
        · rename_i hopen
          split at h
          · rename_i hclose
            split at h
            · cases h
              exact .nil
            · obtain ⟨rest, rfl, hrest⟩ := hmore h
              rw [hcons, hclose]
              exact .closed hrest
          · rename_i hclose
            obtain ⟨rest, rfl, hrest⟩ := hmore h
            rw [hcons]
            exact .other hopen hclose hrest

namespace Closes

variable {d : Nat} {s : List Char}

lemma mem (h : Closes d s) (hd : 0 < d) : ')' ∈ s := by
  induction h with
  | nil => cases hd
  | opened _ ih => exact List.mem_cons_of_mem _ (ih (Nat.succ_pos _))
  | closed => exact List.mem_cons_self
  | other _ _ _ ih => exact List.mem_cons_of_mem _ (ih hd)

/-- The weights of what stands inside parentheses and behind them add up. -/
lemma weight_append (h : Closes d s) (t : List Char) :
    weight (s ++ ')' :: t) = openWeight s + weight t := by
  unfold openWeight
  induction h with
  | nil => simp [weight, charWeight]
  | @opened d s h ih =>
    have hclosed : ∃ c ∈ s, inNumber c = false := ⟨')', h.mem (Nat.succ_pos d), by decide⟩
    rw [List.cons_append, List.cons_append, weight_cons, weight_cons, ih, charWeight, charWeight,
      holdsNumber_append hclosed, holdsNumber_append hclosed]
    omega
  | closed _ ih =>
    rw [List.cons_append, List.cons_append, weight_cons, weight_cons, ih,
      charWeight_of_ne (by decide) (by decide), charWeight_of_ne (by decide) (by decide)]
    omega
  | @other d c s hopen hclose h ih =>
    have hc (rest rest' : List Char) : charWeight c rest = charWeight c rest' := by
      simp [charWeight, hopen]
    rw [List.cons_append, List.cons_append, weight_cons, weight_cons, ih, hc _ (s ++ [','])]
    omega

/-- A question mark does not stand in a number. -/
lemma holdsNumber_eq_false (h : Closes 0 s) (hquestion : '?' ∈ s) (t : List Char) :
    holdsNumber (s ++ t) = false := by
  generalize hd : 0 = d at h
  induction h with
  | nil => cases hquestion
  | opened h ih => rfl
  | closed => cases hd
  | @other d c s hopen hclose h ih =>
    cases hc : inNumber c with
    | false => simp [holdsNumber, hc, hclose]
    | true =>
      have hrest : '?' ∈ s := by
        refine (List.mem_cons.1 hquestion).resolve_left ?_
        rintro rfl
        exact absurd hc (by decide)
      rw [List.cons_append, holdsNumber, List.dropWhile_cons_of_pos hc]
      exact ih hrest hd

end Closes

end Reckoner.Text
