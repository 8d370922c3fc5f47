import Reckoner.Proofs.Engine.Resemblance
import Reckoner.Proofs.Script.Sequence

/-!
# The layout of a script

Blank lines and comments can be put in anywhere, and the lines of code can be indented otherwise as
long as deeper ones stay deeper. The script then comes to the same end; only the line of a failure
is numbered otherwise, by as many lines as were put in above it.
-/

namespace Reckoner

namespace Script

variable {e : Engine} {p : Placement} {depth : Nat → Nat}

/-! ### Edits of lines -/

/-- What happens to a script line by line: a line comes in, or takes the place of another one. -/
inductive Edit where
  | insert (raw : List Char)
  | replace (old new : List Char)

namespace Edit

/-- The line before an edit, if there is one. -/
def old? : Edit → Option (List Char)
  | insert _ => none
  | replace old _ => some old

/-- The line after an edit. -/
def new : Edit → List Char
  | insert raw => raw
  | replace _ new => new

/-- Whether an edit is one of the layout: lines that come in hold no code, and the others keep their
texts up to blanks around them; a line of code gets the indentation that `depth` gives. -/
def IsLayout (depth : Nat → Nat) : Edit → Prop
  | insert raw => isSkipped (Text.trim raw) = true
  | replace old new => Text.trim new = Text.trim old
    ∧ (isSkipped (Text.trim old) = false → indentation new = depth (indentation old))

instance (depth : Nat → Nat) : (edit : Edit) → Decidable (edit.IsLayout depth)
  | insert raw => inferInstanceAs (Decidable (isSkipped (Text.trim raw) = true))
  | replace old new => inferInstanceAs (Decidable (Text.trim new = Text.trim old
    ∧ (isSkipped (Text.trim old) = false → indentation new = depth (indentation old))))

/-- How many lines come in above the line with the given number. -/
def insertedAbove : List Edit → Nat → Nat
  | [], _ => 0
  | insert _ :: rest, number => insertedAbove rest number + 1
  | replace _ _ :: rest, number => if number ≤ 1 then 0 else insertedAbove rest (number - 1)

/-- The places of the lines after edits. -/
def placement (depth : Nat → Nat) (edits : List Edit) : Placement where
  number := fun number => number + insertedAbove edits number
  indent := depth

end Edit

lemma le_number_of_mem {number : Nat} {raws : List (List Char)} {line : Line}
    (h : line ∈ codeLinesFrom number raws) : number ≤ line.number := by
  induction raws generalizing number with
  | nil => cases h
  | cons raw raws ih =>
    rw [codeLinesFrom] at h
    split at h
    · exact (Nat.le_succ number).trans (ih h)
    · rcases List.mem_cons.1 h with rfl | h
      · exact Nat.le_refl _
      · exact (Nat.le_succ number).trans (ih h)

/-- The lines of code after edits of the layout are those before, in other places. The edits may be
the rest of others, before which `before` lines were read and `above` came in. -/
lemma codeLinesFrom_new {edits : List Edit} (hedits : ∀ edit ∈ edits, edit.IsLayout depth)
    (before above : Nat) :
    codeLinesFrom (before + above + 1) (edits.map Edit.new)
      = (codeLinesFrom (before + 1) (edits.filterMap Edit.old?)).map (Line.place
        ⟨fun number => number + above + Edit.insertedAbove edits (number - before), depth⟩) := by
  induction edits generalizing before above with
  | nil => rfl
  | cons edit edits ih =>
    obtain ⟨hedit, hothers⟩ := List.forall_mem_cons.1 hedits
    cases edit with
    | insert raw =>
      rw [List.map_cons, List.filterMap_cons_none rfl, codeLinesFrom, Edit.new]
      simp only [show isSkipped (Text.trim raw) = true from hedit, if_true]
      rw [Nat.add_assoc before above 1, ih hothers]
      apply List.map_congr_left
      intro line _
      simp only [Line.place, Edit.insertedAbove]
      congr 1
      omega
    | replace old new =>
      obtain ⟨htext, hindent⟩ := hedit
      have hrest : codeLinesFrom (before + above + 1 + 1) (edits.map Edit.new)
          = (codeLinesFrom (before + 1 + 1) (edits.filterMap Edit.old?)).map (Line.place
            ⟨fun number => number + above
              + Edit.insertedAbove (.replace old new :: edits) (number - before), depth⟩) := by
        rw [Nat.add_right_comm before above 1, ih hothers]
        apply List.map_congr_left
        intro line hline
        have hnumber := le_number_of_mem hline
        have hlate : ¬ line.number - before ≤ 1 := by omega
        simp only [Line.place, Edit.insertedAbove, if_neg hlate, Nat.sub_sub]
      have hold : (Edit.replace old new :: edits).filterMap Edit.old?
          = old :: edits.filterMap Edit.old? := List.filterMap_cons_some rfl
      rw [List.map_cons, hold, codeLinesFrom, codeLinesFrom, Edit.new, htext]
      split
      · exact hrest
      · rename_i hcode
        rw [List.map_cons, hrest, hindent (by simpa using hcode)]
        congr 1
        simp only [Line.place, Edit.insertedAbove]
        congr 1
        rw [Nat.add_sub_cancel_left, if_pos (Nat.le_refl 1)]
        omega

/-- The lines of code after edits of the layout. -/
lemma codeLines_relaid {edits : List Edit} (hedits : ∀ edit ∈ edits, edit.IsLayout depth)
    {source relaid : List Char} (hsource : Text.lines source = edits.filterMap Edit.old?)
    (hrelaid : Text.lines relaid = edits.map Edit.new) :
    codeLines relaid = (codeLines source).map (Line.place (Edit.placement depth edits)) := by
  rw [codeLines, codeLines, hsource, hrelaid]
  exact codeLinesFrom_new hedits 0 0

/-! ### Runs of lines in other places -/

lemma evaluate_placed (e : Engine) (p : Placement) : EvaluatesPlaced e p := by
  intro line source s s' hs
  obtain ⟨hresult, hstate⟩ := e.perform_congr source hs
  rw [Run.evaluate_eq_perform, Run.evaluate_eq_perform]
  refine ⟨?_, hstate⟩
  dsimp only
  rw [hresult]
  cases (e.perform s source).1 with
  | ok v => rfl
  | error err => rfl

/-- A map that tells some numbers from each other can be made to tell all numbers from each
other. -/
lemma exists_injective {f : Nat → Nat} {is : List Nat} (h : Set.InjOn f {i | i ∈ is}) :
    ∃ g : Nat → Nat, Function.Injective g ∧ Set.EqOn g f {i | i ∈ is} := by
  let bound := (is.map f).sum + 1
  have hbound : ∀ i ∈ is, f i < bound := fun i hi =>
    Nat.lt_succ_of_le (List.le_sum_of_mem (List.mem_map_of_mem hi))
  -- All other numbers go beyond the values of these.
  refine ⟨fun i => if i ∈ is then f i else bound + i, ?_, fun i hi => if_pos hi⟩
  intro i j hij
  dsimp only at hij
  split at hij
  · rename_i hi
    split at hij
    · rename_i hj
      exact h hi hj hij
    · have := hbound i hi
      omega
  · split at hij
    · rename_i hj
      have := hbound j hj
      omega
    · omega

/-- The first line is checked in the same way. -/
lemma requireFirstLeast_placed {lines : List Line} {depths : Set Nat}
    (hp : StrictMonoOn p.indent depths) (hlines : ∀ l ∈ lines, l.indent ∈ depths) :
    Run.Placed p id (requireFirstLeast lines) (requireFirstLeast (lines.map (Line.place p))) := by
  cases lines with
  | nil => exact .pure _
  | cons first rest =>
    obtain ⟨hfirst, hrest⟩ := List.forall_mem_cons.1 hlines
    have hsame : (rest.map (Line.place p)).any (·.indent < (first.place p).indent)
        = rest.any (·.indent < first.indent) := by
      rw [List.any_map, Bool.eq_iff_iff, List.any_eq_true, List.any_eq_true]
      refine exists_congr fun l => and_congr_right fun hl => ?_
      simp [hp.lt_iff_lt (hrest l hl) hfirst]
    rw [List.map_cons]
    simp only [requireFirstLeast, hsame]
    split
    · exact .fail _ _
    · exact .pure _

/-- Lines whose indentations stay in order do the same in other places. -/
lemma runLines_placed (e : Engine) {lines : List Line}
    (hp : StrictMonoOn p.indent {i | i ∈ lines.map Line.indent}) (turns : Nat) :
    Run.Placed p id (runLines e turns lines) (runLines e turns (lines.map (Line.place p))) := by
  have hlines : ∀ l ∈ lines, l.indent ∈ {i | i ∈ lines.map Line.indent} := fun l hl =>
    List.mem_map_of_mem hl
  -- Items only ask whether lines are equally deep, so that the order matters no more.
  obtain ⟨g, hg, hsame⟩ := exists_injective hp.injOn
  have hplace : lines.map (Line.place p) = lines.map (Line.place ⟨p.number, g⟩) := by
    apply List.map_congr_left
    intro l hl
    simp only [Line.place, hsame (hlines l hl)]
  have hitems : outline (lines.map (Line.place p))
      = (outline lines).map (Item.place ⟨p.number, g⟩) := by
    rw [hplace]
    exact outline_place (hp.congr hsame.symm) hlines
  unfold runLines
  refine .bind (requireFirstLeast_placed hp hlines) fun _ => ?_
  rw [hitems]
  exact (turns_placed (evaluate_placed e ⟨p.number, g⟩) hg turns).1 none (outline lines)

end Script

namespace Engine

open Script

/-- A script in another layout comes to the same end, and leaves a state that cannot be told from
the one that the script leaves. The line of a failure moves by the number of lines that came in
above it. -/
theorem reaches_relaid_iff (e : Engine) (edits : List Edit) (depth : Nat → Nat)
    (hedits : ∀ edit ∈ edits, edit.IsLayout depth) (source relaid : List Char)
    (hsource : Text.lines source = edits.filterMap Edit.old?)
    (hrelaid : Text.lines relaid = edits.map Edit.new)
    (hdepth : StrictMonoOn depth {i | i ∈ (codeLines source).map Line.indent})
    (s : State) (result : Except ScriptError (Option Value)) (s' : State) :
    e.Reaches relaid s result s'
      ↔ ∃ result', e.Reaches source s result' s'
        ∧ result = result'.mapError
          (.renumber fun number => number + Edit.insertedAbove edits number) := by
  have hplaced (turns : Nat) : Run.Placed (Edit.placement depth edits) id
      (e.runScript turns source) (e.runScript turns relaid) := by
    unfold runScript
    rw [codeLines_relaid hedits hsource hrelaid]
    exact runLines_placed e hdepth turns
  refine (Run.Placed.ends_iff hplaced (.refl s)).trans ?_
  constructor
  · rintro ⟨result', t, hends, ht, rfl⟩
    exact ⟨result', ⟨t, hends, ht⟩, rfl⟩
  · rintro ⟨result', ⟨t, hends, ht⟩, rfl⟩
    exact ⟨result', t, hends, ht, rfl⟩

/-- The third line fails, which is the sixth one after three others came in. -/
theorem reaches_relaid_iff_failure :
    ∃ err s', ({} : Engine).Reaches "# one\nif 1:\n\n  x = 1\n // two\n  y = x +\n".toList
        ⟨.empty, {}⟩ (.error err) s'
      ∧ err.line = 6 ∧ s'.context.isBound "x" = true := by
  let e : Engine := {}
  let s : State := ⟨.empty, {}⟩
  let source := "if 1:\n    x = 1\n    y = x +\n".toList
  let edits : List Edit := [.insert "# one".toList, .replace "if 1:".toList "if 1:".toList,
    .insert [], .replace "    x = 1".toList "  x = 1".toList, .insert " // two".toList,
    .replace "    y = x +".toList "  y = x +".toList]
  have hedits : ∀ edit ∈ edits, edit.IsLayout (· / 2) := by decide +kernel
  have hdepth : StrictMonoOn (fun i => i / 2) {i | i ∈ (codeLines source).map Line.indent} := by
    have hindents : (codeLines source).map Line.indent = [0, 4, 4] := by decide +kernel
    intro i hi j hj hij
    rw [hindents] at hi hj
    simp only [Set.mem_ofPred_eq, List.mem_cons, List.not_mem_nil, or_false] at hi hj
    dsimp only
    omega
  have hrun : (e.outcome? 9 source s).any (fun outcome =>
      outcome.2.context.isBound "x"
        && decide ((outcome.1.mapError ScriptError.line).map (fun _ => ()) = .error 3)) = true := by
    decide +kernel
  obtain ⟨⟨result, s'⟩, hresult, hrest⟩ := (Option.any_eq_true _ _).1 hrun
  obtain ⟨hx, hdecide⟩ := Bool.and_eq_true_iff.1 hrest
  have hline := of_decide_eq_true hdecide
  cases result with
  | ok v => cases hline
  | error err =>
    refine ⟨err.renumber fun number => number + Edit.insertedAbove edits number, s', ?_, ?_, hx⟩
    · refine (reaches_relaid_iff e edits (· / 2) hedits source _ (by decide +kernel)
        (by decide +kernel) hdepth s _ s').2 ⟨.error err, ?_, rfl⟩
      exact ⟨s', finishes_of_outcome? hresult, .refl s'⟩
    · have hthird : err.line = 3 := Except.error.inj hline
      rw [ScriptError.renumber, hthird]
      rfl

end Engine

end Reckoner
