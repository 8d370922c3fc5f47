import Reckoner.Proofs.Pass.Attempts
import Reckoner.Proofs.Pass.Turns

/-!
# Passes touch only candidates

Around the lists that are rewritten the pass over the arguments leaves a text as it was, and so does
the pass over the groups around those that give way.
-/

namespace Reckoner.Substitution

open Text (IsCallAt Spot Traced outside)
open Text.Traced (trace calls)

variable {replace : List Char → Scratch (Option (List Char))}
variable {isFunction : String → Bool}

/-- Whether a text is left as it was but for the lists that turns have rewritten: what is kept of it
is in its order, and what is gone or new was found or left in one of these lists. -/
structure LeavesAlone (text : Traced) (turns : List Turn) (result : Traced) : Prop where
  kept_sublist : result.kept.Sublist text.kept
  mem_or_found : ∀ x ∈ text,
    x ∈ result ∨ ∃ turn ∈ turns, turn.left ≠ turn.found ∧ x ∈ turn.found
  mem_or_left : ∀ x ∈ result,
    x ∈ text ∨ ∃ turn ∈ turns, turn.left ≠ turn.found ∧ x ∈ turn.left

namespace LeavesAlone

variable {text result : Traced} {turns : List Turn}

lemma refl (text : Traced) : LeavesAlone text [] text :=
  ⟨.refl _, fun _ hx => .inl hx, fun _ hx => .inl hx⟩

lemma cons (turn : Turn) (h : LeavesAlone text turns result) :
    LeavesAlone text (turn :: turns) result where
  kept_sublist := h.kept_sublist
  mem_or_found x hx := (h.mem_or_found x hx).imp_right fun ⟨turn, hturn, hx⟩ =>
    ⟨turn, List.mem_cons_of_mem _ hturn, hx⟩
  mem_or_left x hx := (h.mem_or_left x hx).imp_right fun ⟨turn, hturn, hx⟩ =>
    ⟨turn, List.mem_cons_of_mem _ hturn, hx⟩

/-- A list is rewritten between what is in front of it and what is behind. -/
lemma rewrite {front inside inside' tail : Traced} (position : Nat)
    (hbecomes : BecomesList inside inside')
    (h : LeavesAlone (front ++ (inside' ++ tail)) turns result) :
    LeavesAlone (front ++ (inside ++ tail)) (⟨position, inside, inside'⟩ :: turns) result := by
  by_cases hsame : inside' = inside
  · subst hsame
    exact h.cons _
  have hcons := h.cons ⟨position, inside, inside'⟩
  refine ⟨hcons.kept_sublist.trans ?_, fun x hx => ?_, fun x hx => ?_⟩
  · simp only [Traced.kept_append]
    exact (List.Sublist.refl _).append (hbecomes.kept_sublist.append (.refl _))
  · simp only [List.mem_append] at hx
    rcases hx with hx | hx | hx
    · exact hcons.mem_or_found x (by simp [hx])
    · exact .inr ⟨_, List.mem_cons_self, hsame, hx⟩
    · exact hcons.mem_or_found x (by simp [hx])
  · refine (hcons.mem_or_left x hx).elim (fun hx => ?_) .inr
    simp only [List.mem_append] at hx
    rcases hx with hx | hx | hx
    · exact .inl (by simp [hx])
    · exact .inr ⟨_, List.mem_cons_self, hsame, hx⟩
    · exact .inl (by simp [hx])

end LeavesAlone

/-- Turns leave alone what is outside the lists that they rewrite. -/
lemma Turns.leavesAlone {before text result : Traced} {c c' : Context} {w w' : World}
    {turns : List Turn} (h : Turns isFunction replace before text c w turns (.ok (result, c')) w') :
    LeavesAlone (before ++ text) turns result := by
  generalize houtcome : Except.ok (result, c') = outcome at h
  induction h with
  | done =>
    cases houtcome
    exact .refl _
  | cancelled => cases houtcome
  | @unclosed before text front rest p c w w' turns outcome hcall hw hopen h ih =>
    have htext : before ++ text = before ++ front ++ [('(', some p)] ++ rest := by
      simp [hcall.text_eq]
    rw [htext]
    exact (ih houtcome).cons _
  | failed => cases houtcome
  | @turned before text front rest inside inside' tail p close c c' w w' w'' turns outcome hcall hw
      hclose hrun hbecomes h ih =>
    have htext : before ++ text
        = before ++ front ++ [('(', some p)] ++ (inside ++ (')', close) :: tail) := by
      simp [hcall.text_eq, hclose.rest_eq]
    rw [htext]
    exact (ih houtcome).rewrite p hbecomes

/-! ### Both passes -/

/-- The pass over the calls of a text is a row of turns. -/
lemma arguments_turns (hreplace : Substitutes replace) (isFunction : String → Bool) (c : Context)
    (w : World) (text : List Char) :
    ∃ turns outcome w', Turns isFunction replace [] (trace text) c w turns outcome w'
      ∧ (turns.map Turn.position).Pairwise (· < ·)
      ∧ (∀ turn ∈ turns, IsCallAt isFunction text turn.position)
      ∧ ((arguments isFunction replace text).run c).run w
        = (outcome.map fun r => (r.1.chars, r.2), w') := by
  obtain ⟨qs, hcalls, hascend, hqs⟩ := Traced.exists_calls_trace isFunction text
  have hlength : qs.length ≤ text.count '(' := by
    have hsites := sites_le_count isFunction .plain text
    rwa [← Traced.chars_trace text, ← Traced.length_calls, hcalls, List.length_map,
      Traced.chars_trace] at hsites
  obtain ⟨turns, outcome, w', hturns, hpositions, hrun⟩ :=
    argumentsFrom_takesTurns hreplace _ [] (trace text) hcalls hlength c w
  refine ⟨turns, outcome, w', hturns, hascend.sublist hpositions, fun turn hturn => ?_, ?_⟩
  · exact hqs _ (hpositions.subset (List.mem_map_of_mem hturn))
  · rw [Traced.chars_trace] at hrun
    exact hrun

/-- An evaluation that is to stop does so at the first call. -/
lemma argumentsFrom_of_cancelled {w : World} (hw : w.cancelled = true) (c : Context) (n : Nat)
    (before text : List Char) :
    ((argumentsFrom isFunction replace n before text).run c).run w = (.ok (before ++ text, c), w)
      ∨ ((argumentsFrom isFunction replace n before text).run c).run w
        = (.error .cancelled, w) := by
  cases n with
  | zero => exact .inl rfl
  | succ n =>
    rw [argumentsFrom]
    cases hcall : nextCall? isFunction false false text with
    | none => exact .inl rfl
    | some cut =>
      refine .inr ?_
      simp only [StateT.run_bind, StateT.run_monadLift, monadLift_self, bind_assoc, pure_bind]
      rw [Eval.run_bind, Eval.run_poll, hw]
      rfl

/-- The two passes over a text end and touch only candidates. The first attempts groups of the text
from left to right, none twice, and leaves the text as it was but for those that give way to
literals or names; in these there is nothing to attempt, and no call, so that it does not matter
whether they are looked at again. The second turns to calls of the text from left to right, to none
twice, until there is no further one, and leaves alone what is outside the lists that it rewrites.
Without a question mark outside text literals a text stays as it is. -/
theorem passes_touch_only_candidates (evaluate : Context → List Char → Eval Value) (binds : Bool)
    (isFunction : String → Bool) (c : Context) (w : World) (text : List Char) :
    let replace := substitute evaluate binds
    (∃ as outcome w', Attempts replace c w as outcome w'
        ∧ Attempt.Orderly text 0 as
        ∧ (as.map Attempt.position).Pairwise (· < ·)
        ∧ ((groups replace text).run c).run w = (outcome.map fun c' => (splice 0 text as, c'), w'))
      ∧ (∀ literal, IsSubstitute literal →
        IsVacant literal ∧ Text.sites isFunction .plain literal = 0)
      ∧ (∃ turns outcome w', Turns isFunction replace [] (trace text) c w turns outcome w'
        ∧ (turns.map Turn.position).Pairwise (· < ·)
        ∧ (∀ turn ∈ turns, IsCallAt isFunction text turn.position)
        ∧ (∀ result c', outcome = .ok (result, c') → LeavesAlone (trace text) turns result)
        ∧ ((arguments isFunction replace text).run c).run w
          = (outcome.map fun r => (r.1.chars, r.2), w'))
      ∧ ('?' ∉ outside text →
        ((groups replace text).run c).run w = (.ok (text, c), w)
          ∧ (((arguments isFunction replace text).run c).run w = (.ok (text, c), w)
            ∨ w.cancelled = true
              ∧ ((arguments isFunction replace text).run c).run w = (.error .cancelled, w))) := by
  intro replace
  have hreplace : Substitutes replace := substitute_yields evaluate binds
  refine ⟨?groups, fun literal h => ⟨h.isVacant, h.sites_eq isFunction⟩, ?calls,
    fun hquestion => ⟨?_, ?_⟩⟩
  case groups =>
    obtain ⟨as, outcome, w', hattempts, horderly, hrun⟩ :=
      groupsFrom_proceeds hreplace [] false text [] rfl id c w
    exact ⟨as, outcome, w', hattempts, horderly, horderly.ascending, hrun⟩
  case calls =>
    obtain ⟨turns, outcome, w', hturns, hascend, hcalls, hrun⟩ :=
      arguments_turns hreplace isFunction c w text
    refine ⟨turns, outcome, w', hturns, hascend, hcalls, fun result c' houtcome => ?_, hrun⟩
    subst houtcome
    exact hturns.leavesAlone
  · rw [groups, groupsFrom_of_not_mem [] hquestion]
    rfl
  · cases hw : w.cancelled with
    | true => exact (argumentsFrom_of_cancelled hw c _ [] text).imp_right fun h => ⟨rfl, h⟩
    | false => exact .inl (argumentsFrom_of_not_mem hw c _ [] hquestion)

/-- The outcomes of replacing that a journal tells of, the latest first: each fragment with what
stands for it, if it gave way. -/
def outcomes (journal : List Event) : List (String × Option String) :=
  journal.filterMap fun
    | .replaced fragment literal => some (fragment, some literal)
    | .kept fragment _ => some (fragment, none)
    | _ => none

/-- Of two groups one gives way and one stays, and the list of a call is rewritten. In another text
the only question mark is in a text literal. -/
theorem passes_touch_only_candidates_quoted :
    let replace := substitute ((Engine.standard ⟨.substituting, 64⟩).evaluateWithin 64) true
    let isFunction := Registry.standard.isFunction
    let w : World := { recording := true }
    let text := "(1 ? 2 : 3) + (0 ? 4 : q) + max(5, 0 ? 6 : 7)".toList
    let grouped := "2 + (0 ? 4 : q) + max(5, 0 ? 6 : 7)".toList
    let quoted := "concat(\"(1 ? 2 : 3)\", (4))".toList
    (∃ as c' w', Attempts replace .empty w as (.ok c') w' ∧ Attempt.Orderly text 0 as
        ∧ splice 0 text as = grouped
        ∧ outcomes w'.journal = [("0 ? 4 : q", none), ("1 ? 2 : 3", some "2")])
      ∧ (∃ turns result c' w',
        Turns isFunction replace [] (trace grouped) .empty w turns (.ok (result, c')) w'
        ∧ (∀ turn ∈ turns, IsCallAt isFunction grouped turn.position)
        ∧ LeavesAlone (trace grouped) turns result
        ∧ result.chars = "2 + (0 ? 4 : q) + max(5, 7)".toList
        ∧ outcomes w'.journal = [("0 ? 6 : 7", some "7")])
      ∧ '?' ∉ outside quoted
      ∧ ((groups replace quoted).run .empty).run {} = (.ok (quoted, .empty), {})
      ∧ (((arguments isFunction replace quoted).run .empty).run {}
          = (.ok (quoted, .empty), {})
        ∨ ({} : World).cancelled = true
          ∧ ((arguments isFunction replace quoted).run .empty).run {}
            = (.error .cancelled, {})) := by
  intro replace isFunction w text grouped quoted
  have hquestion : '?' ∉ outside quoted := by decide
  obtain ⟨⟨as, outcome, w₁, hattempts, horderly, -, hgroups⟩, -, -, -⟩ :=
    passes_touch_only_candidates ((Engine.standard ⟨.substituting, 64⟩).evaluateWithin 64) true
      isFunction .empty w text
  obtain ⟨-, -, ⟨turns, outcome', w₂, hturns, -, hcalls, hleaves, harguments⟩, -⟩ :=
    passes_touch_only_candidates ((Engine.standard ⟨.substituting, 64⟩).evaluateWithin 64) true
      isFunction .empty w grouped
  obtain ⟨-, -, -, hsame⟩ := passes_touch_only_candidates
    ((Engine.standard ⟨.substituting, 64⟩).evaluateWithin 64) true isFunction .empty {} quoted
  have hgrouped : (((groups replace text).run .empty).run w).1.toOption.map Prod.fst = some grouped
      ∧ outcomes (((groups replace text).run .empty).run w).2.journal
        = [("0 ? 4 : q", none), ("1 ? 2 : 3", some "2")] := by
    decide +kernel
  have hrewritten :
    (((arguments isFunction replace grouped).run .empty).run w).1.toOption.map Prod.fst
        = some "2 + (0 ? 4 : q) + max(5, 7)".toList
      ∧ outcomes (((arguments isFunction replace grouped).run .empty).run w).2.journal
        = [("0 ? 6 : 7", some "7")] := by
    decide +kernel
  rw [hgroups] at hgrouped
  rw [harguments] at hrewritten
  refine ⟨?_, ?_, hquestion, hsame hquestion⟩
  · cases outcome with
    | error err => cases hgrouped.1
    | ok c' => exact ⟨as, c', w₁, hattempts, horderly, Option.some.inj hgrouped.1, hgrouped.2⟩
  · cases outcome' with
    | error err => cases hrewritten.1
    | ok r =>
      exact ⟨turns, r.1, r.2, w₂, hturns, hcalls, hleaves r.1 r.2 rfl,
        Option.some.inj hrewritten.1, hrewritten.2⟩

/-- One list is rewritten, and the blanks around it stay. -/
example :
    let replace := substitute ((Engine.standard ⟨.substituting, 64⟩).evaluateWithin 64) true
    let text := " max ( abs( 1 ) , 1 ? 2 : 3 ) - abs( 1 ) ".toList
    (((arguments Registry.standard.isFunction replace text).run .empty).run {}).1.toOption.map
        (fun r => String.ofList r.1)
      = some " max (abs( 1 ), 2) - abs( 1 ) " := by
  decide +kernel

end Reckoner.Substitution
