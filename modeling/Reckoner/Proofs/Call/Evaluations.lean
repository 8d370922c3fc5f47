import Reckoner.Proofs.Call.Replacing

/-!
# How often functions are called

Whatever comes of an evaluation, no call that its text holds is made twice, unless a fragment was
kept in which it was made before.
-/

namespace Reckoner

open Text Text.Spot
open Text.Traced (calls callsAt trace TakenFrom)

namespace Engine

open Eval (Spends)

variable {f : String} {source : Traced}

/-- At any level, an evaluation spends the calls that its text holds. -/
lemma evaluateWithin_spends (e : Engine)
    (hf : Substitution.Unnamed (e.functions.isNameOf f)) (levels : Nat) (c : Context) {t : Traced}
    (ht : t.kept.Sublist source.kept) :
    Spends e f source (e.evaluateWithin levels c t.chars) (callsAt (e.functions.isNameOf f) [t])
      fun _ _ => True := by
  induction levels generalizing c t with
  | zero => exact .bind (.silent .poll) fun _ _ _ => .throw _
  | succ levels ih =>
    have htrim : callsAt (e.functions.isNameOf f) [t.trim] = callsAt (e.functions.isNameOf f) [t] :=
      Traced.callsAt_congr (by simp [Traced.calls_trim])
    rw [← htrim]
    replace ht := (t.trim_sublist.filter _).trans ht
    unfold evaluateWithin
    refine .bind (.silent .poll) fun _ _ hleft => hleft ▸ ?_
    rw [← t.chars_trim]
    generalize t.trim = t at ht ⊢
    dsimp only
    split
    · exact .bind (.throw _) fun _ _ (h : False) => h.elim
    · split
      · exact e.run_spends f c ht
      · split
        · rename_i parts hsplit
          obtain ⟨condition, consequent, alternative, hchars, hcalls, hparts⟩ :=
            Traced.exists_split? (P := e.functions.isNameOf f) hsplit
          simp only [List.forall_mem_cons] at hparts
          obtain ⟨hcondition, hconsequent, halternative, -⟩ := hparts
          have hbudget : callsAt (e.functions.isNameOf f) [t]
              = callsAt (e.functions.isNameOf f) [condition]
                + (callsAt (e.functions.isNameOf f) [consequent]
                  + callsAt (e.functions.isNameOf f) [alternative]) := by
            funext origin
            simp only [callsAt, List.flatMap_singleton, hcalls, List.count_append, Pi.add_apply]
          rw [← hchars.1, ← hchars.2.1, ← hchars.2.2, hbudget]
          refine .bind ((ih c (hcondition.trans ht)).frame _) fun v left hleft =>
            .bind (.silent (.ofRuntime _)) fun holds _ hsame => ?_
          subst hsame
          split
          · refine (ih c (hconsequent.trans ht)).mono (le_trans ?_ hleft)
            exact le_add_of_nonneg_right zero_le
          · refine (ih c (halternative.trans ht)).mono (le_trans ?_ hleft)
            exact le_add_of_nonneg_left zero_le
        · have hreplace := Substitution.substitute_pays hf fun t c ht => ih c ht
          rw [StateT.run_bind, bind_assoc]
          refine .bind (Substitution.groupsFrom_leaves hreplace [] false t.chars c (b := []) rfl rfl
            rfl ht) fun grouped left hgrouped => ?_
          obtain ⟨u, hu, hkept, hle⟩ := hgrouped
          rw [← hu]
          refine .bind ((Substitution.argumentsFrom_leaves hreplace e.functions.isFunction
            (u.chars.count '(') [] u grouped.2 rfl hkept).mono hle) fun replaced left hreplaced =>
            ?_
          obtain ⟨v, hv, hkept, hle⟩ := hreplaced
          rw [← hv]
          exact (e.run_spends f replaced.2 hkept).mono hle

lemma execute_spends (e : Engine) (hf : Substitution.Unnamed (e.functions.isNameOf f)) (c : Context)
    {t : Traced} (ht : t.kept.Sublist source.kept) :
    Spends e f source (e.execute c t.chars) (callsAt (e.functions.isNameOf f) [t])
      fun _ _ => True := by
  by_cases htext : t.chars = []
  · rw [htext, execute_nil]
    exact .bind (.silent .poll) fun _ _ _ => .throw _
  · rw [execute_of_ne_nil htext]
    refine .bind (.silent .poll) fun _ _ hleft => hleft ▸ ?_
    obtain ⟨u, htaken, hu⟩ := Traced.exists_ofText (e.functions.isNameOf f) t
    have hevaluate (c : Context) :=
      (e.evaluateWithin_spends hf (e.options.maxDepth + 1) c (htaken.kept_sublist.trans ht)).mono
        htaken.callsAt_le
    cases hstatement : Statement.ofText t.chars with
    | expression text =>
      rw [hstatement] at hu
      exact .bind (hu ▸ hevaluate c) fun _ _ _ => .pure trivial
    | assignment target text =>
      rw [hstatement] at hu
      dsimp only
      split
      · exact .bind (hu ▸ hevaluate c) fun _ _ _ =>
          .bind (.note rfl) fun _ _ _ => .pure trivial
      · exact .throw _

end Engine

lemma Name.prefix_normalize {name : String} (h : "_rewritten_".toList <+: name.toList) :
    "_rewritten_".toList <+: (normalize name).toList := by
  obtain ⟨u, hu⟩ := h
  have hlower : Text.lower name.toList
      = "_rewritten_".toList ++ Text.lowerAfter "_rewritten_".toList.reverse u := by
    rw [← hu, Text.lower, Text.lowerAfter_append_ascii (List.all_iff_forall_prop.1 (by decide)),
      List.append_nil]
    rfl
  rw [normalize, hlower, String.toList_ofList
    (l := "_rewritten_".toList ++ Text.lowerAfter "_rewritten_".toList.reverse u)]
  exact List.prefix_append _ _

/-- No name of a function starts like a fresh name if none under which it is registered does. -/
lemma Registry.unnamed {r : Registry} {f : String}
    (h : ∀ entry ∈ r.entries, entry.2.name = f → ¬ "_rewritten_".toList <+: entry.1.toList) :
    Substitution.Unnamed (r.isNameOf f) := by
  intro name hname hprefix
  unfold isNameOf get? at hname
  cases hfind : r.find? (Name.normalize name) with
  | none =>
    rw [hfind] at hname
    cases hname
  | some g =>
    rw [hfind, Option.any_some, beq_iff_eq] at hname
    exact h (Name.normalize name, g) (Assoc.mem_of_find? hfind) hname
      (Name.prefix_normalize hprefix)

namespace Engine

/-- Origins that are spent no more often than different positions allow are among these. -/
lemma exists_positions {origins : List (Option Nat)} {positions : List Nat}
    (h : ∀ origin, origins.count origin ≤ (positions.map some).count origin)
    (hnodup : positions.Nodup) :
    ∃ ps : List Nat, origins = ps.map some ∧ ps.Nodup ∧ ps ⊆ positions := by
  have hmem : ∀ origin ∈ origins, origin ∈ positions.map some := fun origin horigin =>
    List.count_pos_iff.1 ((List.count_pos_iff.2 horigin).trans_le (h origin))
  obtain ⟨ps, rfl⟩ : origins ∈ Set.range (List.map (some : Nat → Option Nat)) := by
    rw [Set.range_list_map]
    intro origin horigin
    obtain ⟨p, -, rfl⟩ := List.mem_map.1 (hmem origin horigin)
    exact ⟨p, rfl⟩
  have hsome := hnodup.map (Option.some_injective Nat)
  refine ⟨ps, rfl, .of_map some ?_, fun p hp => ?_⟩
  · exact List.nodup_iff_count_le_one.2 fun origin =>
      (h origin).trans (List.nodup_iff_count_le_one.1 hsome origin)
  · simpa using hmem (some p) (List.mem_map_of_mem hp)

/-- No call that a text holds is made twice, unless a fragment was kept in which the function had
been called: all calls are made in runs of programs, by an instruction at most once in a run, and
the texts of these programs hold calls from different positions of the source. Apart from what is
new in them these texts are made of the source in its order. The function must not be registered
under a name that starts like a fresh name, which may come to stand before a parenthesis. -/
theorem calls_le_sites (e : Engine) (c : Context) (source : List Char) (f : String) (w : World)
    (hf : ∀ entry ∈ e.functions.entries,
      entry.2.name = f → ¬ "_rewritten_".toList <+: entry.1.toList)
    (hw : w.recording = true) :
    ∃ new, ((e.evaluate c source).run w).2.journal = new ++ w.journal
      ∧ (¬ e.KeepsCall f new →
        (∃ (texts : List Traced) (positions : List Nat), e.CallsIn f new texts
            ∧ (∀ t ∈ texts, t.kept.Sublist (trace source))
            ∧ texts.flatMap (calls (e.functions.isNameOf f) .plain) = positions.map some
            ∧ positions.Nodup
            ∧ ∀ p ∈ positions, IsCallAt (e.functions.isNameOf f) source p)
          ∧ new.countP (Event.isCallOf f) ≤ sites (e.functions.isNameOf f) .plain source) := by
  obtain ⟨qs, hcalls, hascend, hqs⟩ := Traced.exists_calls_trace (e.functions.isNameOf f) source
  have hspends : Eval.Spends e f (trace source) _ _ _ :=
    e.execute_spends (Registry.unnamed hf) c ((trace source).trim_sublist.filter _)
  rw [Traced.chars_trim, Traced.chars_trace] at hspends
  obtain ⟨-, new, hnew, hspent⟩ := hspends w hw
  refine ⟨new, hnew, fun hkeeps => ?_⟩
  obtain ⟨left, haccounts⟩ : ∃ left, e.Accounts f (trace source) new left
      (callsAt (e.functions.isNameOf f) [(trace source).trim]) := by
    split at hspent
    · exact ⟨_, hspent.choose_spec.1⟩
    · exact ⟨0, hspent⟩
  obtain ⟨texts, hmade, hkept, hle⟩ := haccounts.resolve_left hkeeps
  have hcount (origin : Option Nat) :
      callsAt (e.functions.isNameOf f) texts origin ≤ (qs.map some).count origin := by
    have h := (Nat.le_add_right _ _).trans (hle origin)
    rwa [Traced.callsAt_singleton, Traced.calls_trim, hcalls] at h
  obtain ⟨positions, htexts, hnodup, hsubset⟩ :=
    exists_positions hcount (hascend.imp Nat.ne_of_lt)
  refine ⟨⟨texts, positions, hmade, fun t ht => (hkept t ht).trans List.filter_sublist, htexts,
    hnodup, fun p hp => hqs p (hsubset hp)⟩, ?_⟩
  calc
    new.countP (Event.isCallOf f)
      ≤ (texts.flatMap (calls (e.functions.isNameOf f) .plain)).length := hmade.countP_le
    _ = positions.length := by rw [htexts, List.length_map]
    _ ≤ qs.length := (hnodup.subperm hsubset).length_le
    _ = sites (e.functions.isNameOf f) .plain source := by
      rw [← List.length_map some, ← hcalls, Traced.length_calls, Traced.chars_trace]

/-- An engine that evaluates conditionals on the text and has one function, which counts its
calls. -/
def ticking : Engine where
  functions := .ofFunctions [{
    name := "tick"
    arity := .exactly 0
    body := fun counter _ => { result := .ok (.ofReal 1), counter := counter + 1 } }]
  options := { mode := .substituting }

/-- The fragment is kept since its branch fails, and the call in its other branch is not made. -/
theorem calls_le_sites_tick :
    let source := "tick() + (1 ? 1/0 : tick())".toList
    let journal := ((ticking.evaluate .empty source).run { recording := true }).2.journal
    journal.any Event.isKept = true
      ∧ journal.countP (Event.isCallOf "tick") = 1
      ∧ ∃ (texts : List Traced) (positions : List Nat), ticking.CallsIn "tick" journal texts
        ∧ (∀ t ∈ texts, t.kept.Sublist (trace source))
        ∧ texts.flatMap (calls (ticking.functions.isNameOf "tick") .plain) = positions.map some
        ∧ positions.Nodup
        ∧ ∀ p ∈ positions, IsCallAt (ticking.functions.isNameOf "tick") source p := by
  intro source journal
  obtain ⟨new, hnew, hcalls⟩ := calls_le_sites ticking .empty source "tick" { recording := true }
    (by decide +kernel) rfl
  rw [List.append_nil] at hnew
  have hevents : journal.any Event.isKept = true
      ∧ journal.countP (Event.isCallOf "tick") = 1
      ∧ (journal.dropWhile fun event => !event.isKept).all (fun event => !event.isCallOf "tick")
        = true := by
    decide +kernel
  obtain ⟨hkept, hcount, hnone⟩ := hevents
  rw [← hnew] at hcalls
  exact ⟨hkept, hcount, (hcalls (KeepsCall.not_of_all hnone)).1⟩

/-- A call in a fragment that is kept is made again. -/
theorem exists_called_twice :
    ((ticking.evaluate .empty "(tick() ? 1/0 : 0)".toList).run
        { recording := true }).2.journal.countP (Event.isCallOf "tick") = 2
      ∧ sites (ticking.functions.isNameOf "tick") .plain "(tick() ? 1/0 : 0)".toList = 1 := by
  decide +kernel

end Engine

end Reckoner
