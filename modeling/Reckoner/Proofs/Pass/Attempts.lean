import Reckoner.Proofs.Weight.Measures

/-!
# Attempts at groups

The pass that replaces groups attempts the conditional groups of a text from left to right. A group
that gives way is left behind, and what took its place is not looked at again; one that stays is
entered. So no parenthesis is attempted twice, the groups that give way lie apart from each other,
and around them the text stays as it was. All of this is told by positions in the text as it was
before the pass, though the pass looks at the text as it has become.
-/

namespace Reckoner.Substitution

open Text (Spot)

/-- An attempt at a group: the position of its parenthesis, what is inside, and what takes the place
of the group, unless it stays. -/
structure Attempt where
  position : Nat
  inside : List Char
  substitute? : Option (List Char)

/-- The position at which the search for groups goes on: behind a group that has given way, inside
one that stays. -/
def Attempt.stop (a : Attempt) : Nat :=
  match a.substitute? with
  | some _ => a.position + a.inside.length + 2
  | none => a.position + 1

lemma Attempt.position_lt_stop (a : Attempt) : a.position < a.stop := by
  unfold stop
  split <;> omega

/-- The rest of a text from a position on, once the groups of attempts have given way. -/
def splice (start : Nat) (rest : List Char) : List Attempt → List Char
  | [] => rest
  | a :: as =>
    match a.substitute? with
    | some literal =>
      rest.take (a.position - start) ++ literal ++ splice a.stop (rest.drop (a.stop - start)) as
    | none => splice start rest as

/-- Whether a conditional in parentheses that belong to no call starts at a position in a text. -/
inductive IsGroup (inside : List Char) : List Char → Nat → Prop where
  | intro {before behind : List Char} (isText_before : (Spot.plain.after before).isText = false)
    (not_isCall : isCall before.reverse = false)
    (cutAtClose?_eq : Text.cutAtClose? false 0 (inside ++ ')' :: behind) = some (inside, behind))
    (isQuestioned : Conditional.isQuestioned inside = true) :
    IsGroup inside (before ++ '(' :: (inside ++ ')' :: behind)) before.length

/-- An attempt at a fragment, unless the evaluation is to stop. -/
def attempt (replace : List Char → Scratch (Option (List Char))) (fragment : List Char) :
    Scratch (Option (List Char)) := do
  Eval.poll
  replace fragment

/-- A row of attempts, from a context and a world to an outcome and a world. Only the last one can
fail. -/
inductive Attempts (replace : List Char → Scratch (Option (List Char))) :
    Context → World → List Attempt → Except EvalError Context → World → Prop where
  | nil (c : Context) (w : World) : Attempts replace c w [] (.ok c) w
  | failed {c : Context} {w w' : World} {err : EvalError} (position : Nat) {inside : List Char}
    (hrun : ((attempt replace inside).run c).run w = (.error err, w')) :
    Attempts replace c w [⟨position, inside, none⟩] (.error err) w'
  | cons {c c' : Context} {w w' w'' : World} (a : Attempt) {as : List Attempt}
    {outcome : Except EvalError Context}
    (hrun : ((attempt replace a.inside).run c).run w = (.ok (a.substitute?, c'), w'))
    (h : Attempts replace c' w' as outcome w'') : Attempts replace c w (a :: as) outcome w''

/-- Whether attempts are made from left to right, none of them before a position, at groups of a
text; what takes the place of one does stand for it. -/
structure Attempt.Orderly (text : List Char) (start : Nat) (as : List Attempt) : Prop where
  pairwise : as.Pairwise fun a b => a.stop ≤ b.position
  start_le : ∀ a ∈ as, start ≤ a.position
  isGroup : ∀ a ∈ as, IsGroup a.inside text a.position
  isSubstitute : ∀ a ∈ as, ∀ literal ∈ a.substitute?, IsSubstitute literal

namespace Attempt.Orderly

variable {text : List Char} {start : Nat} {as : List Attempt}

lemma nil (text : List Char) (start : Nat) : Orderly text start [] :=
  ⟨.nil, by simp, by simp, by simp⟩

lemma mono {start' : Nat} (h : Orderly text start' as) (hle : start ≤ start') :
    Orderly text start as :=
  { h with start_le := fun a ha => hle.trans (h.start_le a ha) }

lemma cons {a : Attempt} (hstart : start ≤ a.position) (hgroup : IsGroup a.inside text a.position)
    (hsubstitute : ∀ literal ∈ a.substitute?, IsSubstitute literal) (h : Orderly text a.stop as) :
    Orderly text start (a :: as) where
  pairwise := .cons h.start_le h.pairwise
  start_le := by
    refine List.forall_mem_cons.2 ⟨hstart, fun b hb => ?_⟩
    exact hstart.trans (a.position_lt_stop.le.trans (h.start_le b hb))
  isGroup := List.forall_mem_cons.2 ⟨hgroup, h.isGroup⟩
  isSubstitute := List.forall_mem_cons.2 ⟨hsubstitute, h.isSubstitute⟩

/-- No parenthesis is attempted twice. -/
lemma ascending (h : Orderly text start as) : (as.map Attempt.position).Pairwise (· < ·) := by
  refine List.pairwise_map.2 (h.pairwise.imp fun {a b} hab => ?_)
  exact Nat.lt_of_lt_of_le a.position_lt_stop hab

end Attempt.Orderly

/-- A character before all attempts stays. -/
lemma splice_cons {start : Nat} {as : List Attempt} (h : ∀ a ∈ as, start + 1 ≤ a.position)
    (ch : Char) (rest : List Char) :
    splice start (ch :: rest) as = ch :: splice (start + 1) rest as := by
  induction as with
  | nil => rfl
  | cons a as ih =>
    obtain ⟨ha, has⟩ := List.forall_mem_cons.1 h
    unfold splice
    cases hsubstitute : a.substitute? with
    | none => exact ih has
    | some literal =>
      have hstop : a.stop = a.position + a.inside.length + 2 := by simp [Attempt.stop, hsubstitute]
      obtain ⟨n, hn⟩ : ∃ n, a.position = start + 1 + n := Nat.exists_eq_add_of_le ha
      have htake : a.position - start = n + 1 ∧ a.position - (start + 1) = n := by omega
      have hdrop : a.stop - start = a.stop - (start + 1) + 1 := by omega
      simp only [htake, hdrop, List.take_succ_cons, List.drop_succ_cons, List.cons_append]

/-- A group that gives way at the start of a text. -/
lemma splice_group {start : Nat} {inside literal : List Char} {as : List Attempt}
    (tail : List Char) :
    splice start ('(' :: (inside ++ ')' :: tail)) (⟨start, inside, some literal⟩ :: as)
      = literal ++ splice (start + inside.length + 2) tail as := by
  have hdrop : start + inside.length + 2 - start = inside.length + 1 + 1 := by omega
  simp [splice, Attempt.stop, hdrop]

variable {replace : List Char → Scratch (Option (List Char))}

lemma isCall_cons_of_imp {front before : List Char} (h : isCall front = true → isCall before = true)
    (ch : Char) : isCall (ch :: front) = true → isCall (ch :: before) = true := by
  cases hblank : Text.isBlank ch with
  | true => simpa [isCall, List.dropWhile_cons, hblank] using h
  | false => simp [isCall, hblank]

lemma isCall_close (before : List Char) : isCall (')' :: before) = false := by
  have hword : Name.isWordChar ')' = false := by decide
  rw [isCall, List.dropWhile_cons_of_neg (by decide), List.head?_cons, Option.any_some, hword]

lemma attempt_yields (hreplace : Substitutes replace) (fragment : List Char) :
    Yields (fun r => ∀ text ∈ r, IsSubstitute text) (attempt replace fragment) :=
  .after _ fun _ => hreplace fragment

/-- Whether a computation is a row of attempts at the groups in the rest of a text, given what was
in front of it and what this has become, read backwards. -/
def Proceeds (replace : List Char → Scratch (Option (List Char))) (before front rest : List Char)
    (x : Scratch (List Char)) : Prop :=
  ∀ c w, ∃ as outcome w', Attempts replace c w as outcome w'
    ∧ Attempt.Orderly (front ++ rest) front.length as
    ∧ (x.run c).run w
      = (outcome.map fun c' => (before.reverse ++ splice front.length rest as, c'), w')

namespace Proceeds

variable {before front rest : List Char}

lemma pure (before front : List Char) :
    Proceeds replace before front [] (Pure.pure before.reverse) := by
  intro c w
  refine ⟨[], .ok c, w, .nil c w, .nil _ _, ?_⟩
  rw [splice, List.append_nil]
  rfl

/-- Attempts behind a character leave it where it is. -/
lemma exists_behind {ch : Char} {x : Scratch (List Char)}
    (h : Proceeds replace (ch :: before) (front ++ [ch]) rest x) (c : Context) (w : World) :
    ∃ as outcome w', Attempts replace c w as outcome w'
      ∧ Attempt.Orderly (front ++ ch :: rest) (front.length + 1) as
      ∧ (x.run c).run w
        = (outcome.map fun c' => (before.reverse ++ splice front.length (ch :: rest) as, c'),
          w') := by
  obtain ⟨as, outcome, w', hattempts, horderly, hrun⟩ := h c w
  rw [List.append_assoc, List.singleton_append, List.length_append, List.length_singleton]
    at horderly
  refine ⟨as, outcome, w', hattempts, horderly, ?_⟩
  rw [hrun, splice_cons horderly.start_le]
  simp

/-- A character is passed over. -/
lemma pass {ch : Char} {x : Scratch (List Char)}
    (h : Proceeds replace (ch :: before) (front ++ [ch]) rest x) :
    Proceeds replace before front (ch :: rest) x := by
  intro c w
  obtain ⟨as, outcome, w', hattempts, horderly, hrun⟩ := h.exists_behind c w
  exact ⟨as, outcome, w', hattempts, horderly.mono (Nat.le_succ _), hrun⟩

/-- A group is attempted, and then passed over with what took its place or entered. -/
lemma attempt {inside tail : List Char} {x : Scratch (List Char)}
    {y : List Char → Scratch (List Char)} (hreplace : Substitutes replace)
    (hgroup : IsGroup inside (front ++ '(' :: (inside ++ ')' :: tail)) front.length)
    (hkept : Proceeds replace ('(' :: before) (front ++ ['(']) (inside ++ ')' :: tail) x)
    (hreplaced : ∀ literal, IsSubstitute literal →
      Proceeds replace (literal.reverse ++ before) (front ++ '(' :: (inside ++ [')'])) tail
        (y literal)) :
    Proceeds replace before front ('(' :: (inside ++ ')' :: tail)) (do
      match ← Substitution.attempt replace inside with
      | some literal => y literal
      | none => x) := by
  intro c w
  have hyields := attempt_yields hreplace inside c w
  rw [StateT.run_bind, Eval.run_bind]
  cases hrun : ((Substitution.attempt replace inside).run c).run w with
  | mk r w' =>
    rw [hrun] at hyields
    cases r with
    | error err =>
      refine ⟨[⟨front.length, inside, none⟩], .error err, w', .failed _ hrun, ?_, rfl⟩
      exact .cons (Nat.le_refl _) hgroup (by simp) (.nil _ _)
    | ok r =>
      obtain ⟨substitute?, c'⟩ := r
      cases substitute? with
      | none =>
        obtain ⟨as, outcome, w'', hattempts, horderly, hrest⟩ := hkept.exists_behind c' w'
        exact ⟨⟨front.length, inside, none⟩ :: as, outcome, w'', .cons _ hrun hattempts,
          .cons (Nat.le_refl _) hgroup (by simp) horderly, hrest⟩
      | some literal =>
        have hliteral : IsSubstitute literal := hyields _ rfl literal rfl
        obtain ⟨as, outcome, w'', hattempts, horderly, hrest⟩ := hreplaced literal hliteral c' w'
        have hlength : (front ++ '(' :: (inside ++ [')'])).length
            = front.length + inside.length + 2 := by
          simp
          omega
        have htext : front ++ '(' :: (inside ++ [')']) ++ tail
            = front ++ '(' :: (inside ++ ')' :: tail) := by simp
        rw [hlength] at horderly hrest
        rw [htext] at horderly
        refine ⟨⟨front.length, inside, some literal⟩ :: as, outcome, w'', .cons _ hrun hattempts,
          .cons (Nat.le_refl _) hgroup ?_ horderly, hrest.trans ?_⟩
        · rintro _ ⟨⟩
          exact hliteral
        · rw [splice_group]
          simp

end Proceeds

/-- Replacing the groups of a text is a row of attempts. A parenthesis that belonged to a call
behind what was in front still does behind what this has become. -/
lemma groupsFrom_proceeds (hreplace : Substitutes replace) (before : List Char) (inText : Bool)
    (text front : List Char) (hfront : (Spot.plain.after front).isText = inText)
    (hcall : isCall front.reverse = true → isCall before = true) :
    Proceeds replace before front text (groupsFrom replace before inText text) := by
  have hnext {front : List Char} {ch : Char} {inText : Bool}
      (h : (Spot.plain.after front).isText = inText) :
      (Spot.plain.after (front ++ [ch])).isText = if ch = '"' then !inText else inText := by
    rw [Spot.after_append, Spot.after_cons, Spot.after_nil, Spot.isText_next, h]
  have hcallNext {front before : List Char} (ch : Char)
      (h : isCall front.reverse = true → isCall before = true) :
      isCall (front ++ [ch]).reverse = true → isCall (ch :: before) = true := by
    rw [List.reverse_append, List.reverse_singleton, List.singleton_append]
    exact isCall_cons_of_imp h ch
  fun_induction groupsFrom replace before inText text generalizing front with
  | case1 before inText => exact .pure before front
  | case2 before inText rest ih => exact .pass (ih _ (hnext hfront) (hcallNext _ hcall))
  | case3 before inText ch rest hquote hskip ih =>
    exact .pass (ih _ (by rw [hnext hfront, if_neg hquote]) (hcallNext _ hcall))
  | case4 before inText ch rest hquote hskip hcut ih =>
    exact .pass (ih _ (by rw [hnext hfront, if_neg hquote]) (hcallNext _ hcall))
  | case5 before inText ch rest hquote hskip inside tail hcut hlt hquestioned ihReplaced ihKept =>
    simp only [Bool.or_eq_true, bne_iff_ne, not_or, Bool.not_eq_true, ne_eq, not_not] at hskip
    obtain ⟨⟨rfl, rfl⟩, hnot⟩ := hskip
    obtain rfl := Text.cutAtClose?_eq hcut
    -- Only this way round: behind a literal that has taken the place of a group, a parenthesis can
    -- belong to a call though behind the group it did not.
    have hgroup : IsGroup inside (front ++ '(' :: (inside ++ ')' :: tail)) front.length := by
      refine .intro hfront ?_ hcut hquestioned
      by_contra hfrontCall
      rw [hcall (Bool.eq_true_of_not_eq_false hfrontCall)] at hnot
      cases hnot
    have hattempt : (do (Eval.poll : Eval Unit); replace inside) = attempt replace inside := rfl
    rw [← bind_assoc, hattempt]
    refine .attempt hreplace hgroup (ihKept _ (by rw [hnext hfront]; rfl) (hcallNext '(' hcall))
      fun literal _ => ihReplaced literal _ ?_ fun hclose => ?_
    · have hinside : (Spot.plain.after (front ++ '(' :: inside)).isText = false := by
        rw [Spot.after_append, Spot.after_cons]
        refine Text.isText_after_cutAtClose? ?_ hcut
        rw [Spot.isText_next, hfront]
        rfl
      rw [← List.cons_append, ← List.append_assoc, hnext hinside]
      rfl
    · rw [List.reverse_append, List.reverse_cons, List.reverse_append, List.reverse_singleton,
        List.append_assoc, List.singleton_append, List.cons_append, isCall_close] at hclose
      cases hclose
  | case6 before inText ch rest hquote hskip inside tail hcut hlt hquestioned ih =>
    simp only [Bool.or_eq_true, bne_iff_ne, not_or, Bool.not_eq_true, ne_eq, not_not] at hskip
    obtain ⟨⟨rfl, rfl⟩, -⟩ := hskip
    exact .pass (ih _ (by rw [hnext hfront]; rfl) (hcallNext _ hcall))

/-! ### What is not looked at again -/

/-- Whether a text holds no group to attempt, wherever it stands outside text literals. -/
def IsVacant (t : List Char) : Prop :=
  ∀ replace before tail, groupsFrom replace before false (t ++ tail)
    = groupsFrom replace (t.reverse ++ before) false tail

namespace IsVacant

variable {s t : List Char}

lemma nil : IsVacant [] :=
  fun _ _ _ => rfl

lemma append (hs : IsVacant s) (ht : IsVacant t) : IsVacant (s ++ t) := by
  intro replace before tail
  rw [List.append_assoc, hs, ht, List.reverse_append, List.append_assoc]

lemma of_forall (h : ∀ ch ∈ s, ch ≠ '"' ∧ ch ≠ '(') : IsVacant s :=
  fun _ _ _ => groupsFrom_append h

lemma of_inNumber (h : ∀ ch ∈ s, Text.inNumber ch = true) : IsVacant s := by
  refine .of_forall fun ch hch => ?_
  have hnot := Text.not_mem_of_inNumber h ch hch
  simp only [List.mem_cons, List.not_mem_nil, or_false, not_or] at hnot
  exact ⟨hnot.1, hnot.2.2⟩

/-- The parentheses of a number hold no question. -/
lemma parens (h : ∀ ch ∈ s, Text.inNumber ch = true) : IsVacant ('(' :: (s ++ [')'])) := by
  have hbalanced : Text.Balanced s := .of_forall fun ch hch hmem => by
    have hmarks : ∀ ch ∈ ['"', '(', ')', '[', ']'], Text.inNumber ch = false :=
      List.all_iff_forall_prop.1 (by decide)
    have hnumber := h ch hch
    rw [hmarks ch hmem] at hnumber
    cases hnumber
  have hquestioned : Conditional.isQuestioned s = false :=
    Conditional.isQuestioned_of_not_mem fun hmem =>
      Text.not_mem_of_inNumber h _ (Text.mem_of_mem_outsideFrom hmem) (by simp)
  intro replace before tail
  have hcut : Text.cutAtClose? false 0 (s ++ ')' :: tail) = some (s, tail) := by
    rw [hbalanced.cutAtClose?_append]
    simp [Text.cutAtClose?]
  rw [List.cons_append, List.append_assoc, List.singleton_append,
    groupsFrom_enter hcut (.inr hquestioned), of_inNumber h, groupsFrom_cons (by decide) (by simp)]
  simp

lemma text (h : '"' ∉ s) : IsVacant ('"' :: (s ++ ['"'])) := by
  intro replace before tail
  rw [List.cons_append, List.append_assoc, List.singleton_append, groupsFrom_quote, Bool.not_false,
    groupsFrom_in_text h, groupsFrom_quote, Bool.not_true]
  simp

lemma join {ts : List (List Char)} (h : ∀ t ∈ ts, IsVacant t) :
    IsVacant (Text.join [',', ' '] ts) :=
  Text.join_induction nil append (of_forall (by simp)) h

end IsVacant

lemma isVacant_of_complex {z : Complex} {lit : List Char} (h : z.literal? = some lit) :
    IsVacant lit := by
  obtain ⟨s, hs, rfl | rfl⟩ := Complex.literal_cases h
  · exact .of_inNumber hs
  · exact .parens hs

/-- What stands for a fragment holds no group to attempt. -/
lemma IsSubstitute.isVacant {text : List Char} (h : IsSubstitute text) : IsVacant text := by
  cases h with
  | literal h =>
    simp only [literalIn?] at h
    split_ifs at h
    obtain ⟨z, hz⟩ | ⟨ts, hts, rfl⟩ | ⟨s, hquote, rfl⟩ := Value.literal_cases h
    · exact isVacant_of_complex hz
    · have hitems : IsVacant (Text.join [',', ' '] ts) := .join fun t ht => by
        obtain ⟨z, hz⟩ := hts t ht
        exact isVacant_of_complex hz
      have hopen : IsVacant ['['] := .of_forall (by simp)
      exact (hopen.append hitems).append (.of_forall (by simp))
    · exact .text hquote
  | name c =>
    obtain ⟨n, hn⟩ := exists_freshName c
    rw [hn]
    refine .of_forall fun ch hch => ?_
    have hcontinues := continues_of_mem_scratchName hch
    constructor <;> rintro rfl <;> cases hcontinues

end Reckoner.Substitution
