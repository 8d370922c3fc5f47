import Reckoner.Proofs.Script.Items
import Reckoner.Proofs.Script.Placement

/-!
# Scripts in sequence

A script that is put behind another one starts from the state that the other one leaves, with the
lines of its failures shifted, unless its first line is taken for a part of the last chain.
-/

namespace Reckoner

namespace Script

variable {e : Engine} {turns : Nat} {last : Option Value}
variable {items others : List Item}

section

variable {s s' : State} {result : Except ScriptError (Option Value)}

lemma ends_append (h : AreApart items others) :
    Ends (fun turns => runItems e turns last (items ++ others)) s result s'
      ↔ (∃ err, result = .error err
          ∧ Ends (fun turns => runItems e turns last items) s (.error err) s')
        ∨ ∃ v s₁, Ends (fun turns => runItems e turns last items) s (.ok v) s₁
          ∧ Ends (fun turns => runItems e turns v others) s₁ result s' := by
  rw [← ends_bind (.items e last items) fun v => .items e v others]
  constructor
  · rintro ⟨turns, hrun⟩
    exact ⟨turns, run_eq_of_extends (runItems_append_extends turns last h) hrun⟩
  · rintro ⟨turns, hrun⟩
    exact ⟨turns + turns, run_eq_of_extends (runItems_extends_append turns turns last h) hrun⟩

/-- The last value so far is the result of items that produce none. -/
lemma ends_last (v : Option Value) :
    Ends (fun turns => runItems e turns v items) s result s'
      ↔ ∃ result', Ends (fun turns => runItems e turns none items) s result' s'
        ∧ result = result'.map (·.or v) := by
  have hor : (fun turns => runItems e turns v items)
      = fun turns => runItems e turns none items >>= fun v' => pure (v'.or v) :=
    funext fun turns => runItems_or turns v none items
  rw [hor, ends_map (.items e none items)]

end

/-! ### Shifted lines -/

end Script

/-- The error with its line shifted. -/
def ScriptError.shift (k : Nat) (err : ScriptError) : ScriptError :=
  { err with line := err.line + k }

namespace Script

variable {k : Nat}

lemma evaluatesPlaced (he : e.functions.IsNamed) (p : Placement) : EvaluatesPlaced e p := by
  intro line source s s' hs
  obtain ⟨result, events, -, hperform⟩ := Engine.perform_isTold he s source
  rw [Run.evaluate_eq_perform, Run.evaluate_eq_perform, hperform s (.refl s), hperform s' hs]
  refine ⟨?_, hs.foldl events⟩
  cases result with
  | ok v => rfl
  | error err => rfl

/-- Items that are further down come to the same end, with the line of a failure shifted. -/
lemma ends_shift (he : e.functions.IsNamed) (k : Nat) {s₁ s₂ s' : State}
    {result : Except ScriptError (Option Value)} (hs : s₁.Agrees s₂) :
    (∃ t, Ends (fun turns => runItems e turns none (items.map (Item.shift k))) s₂ result t
        ∧ t.Agrees s')
      ↔ ∃ result' t, Ends (fun turns => runItems e turns none items) s₁ result' t ∧ t.Agrees s'
        ∧ result = result'.mapError (ScriptError.shift k) := by
  have hplaced (turns : Nat) :=
    (turns_placed (evaluatesPlaced he (.shift k)) Function.injective_id turns).1 none items
  rw [List.map_congr_left fun item _ => Item.shift_eq_place k item]
  exact Run.Placed.ends_iff hplaced hs

/-! ### Scripts -/

lemma codeLines_append (front second : List Char) :
    codeLines (front ++ '\n' :: second)
      = codeLines (front ++ ['\n'])
        ++ (codeLines second).map (Line.shift (Text.lines (front ++ ['\n'])).length) := by
  unfold codeLines
  rw [Text.lines_append, codeLinesFrom_append, codeLinesFrom_shift]

/-- If the first line is not indented, the items are the lines that are not. -/
lemma map_line_outline {lines : List Line} (h : ∀ l ∈ lines.head?, l.indent = 0) :
    (outline lines).map Item.line = lines.filter (·.indent = 0) := by
  induction lines using blockInduction with
  | nil => simp
  | cons line deeper rest hdeeper hrest _ ih =>
    have hline : line.indent = 0 := h line rfl
    have hnone : deeper.filter (·.indent = 0) = [] := by
      rw [List.filter_eq_nil_iff]
      intro l hl
      have := hdeeper l hl
      simp
      omega
    have hbehind := ih fun l hl => Nat.le_zero.1 (hline ▸ hrest l hl)
    rw [outline_cons hdeeper hrest]
    simp [hline, hnone, hbehind, Item.line]

lemma line_mem_head? {lines : List Line} {item : Item} (h : item ∈ (outline lines).head?) :
    item.line ∈ lines.head? := by
  cases lines with
  | nil => simp at h
  | cons line rest =>
    rw [outline] at h
    cases h
    rfl

lemma requireFirstLeast_eq {lines : List Line}
    (h : ∀ first ∈ lines.head?, ∀ l ∈ lines, first.indent ≤ l.indent) :
    requireFirstLeast lines = pure () := by
  cases lines with
  | nil => rfl
  | cons first rest =>
    have hleast : rest.any (·.indent < first.indent) = false := by
      rw [List.any_eq_false]
      intro l hl
      simpa using h first rfl l (List.mem_cons_of_mem first hl)
    simp [requireFirstLeast, hleast]

end Script

namespace Engine

open Script

variable {e : Engine} {front second : List Char}

/-- A script whose first line is the least deep runs its items. -/
lemma finishes_iff {source : List Char}
    (h : ∀ first ∈ (codeLines source).head?, ∀ l ∈ codeLines source, first.indent ≤ l.indent)
    (s : State) (result : Except ScriptError (Option Value)) (s' : State) :
    e.Finishes source s result s'
      ↔ Ends (fun turns => runItems e turns none (outline (codeLines source))) s result s' := by
  have hrun (turns : Nat) :
      e.runScript turns source = runItems e turns none (outline (codeLines source)) := by
    unfold runScript runLines
    rw [requireFirstLeast_eq h, pure_bind]
  unfold Finishes
  simp only [hrun]

/-- Whether a script comes to an end, with a value or a failure, and leaves a state that cannot be
told from the given one. -/
def Reaches (e : Engine) (source : List Char) (s : State)
    (result : Except ScriptError (Option Value)) (s' : State) : Prop :=
  ∃ t, e.Finishes source s result t ∧ t.Agrees s'

/-- States that cannot be told apart lead to such states. -/
lemma Finishes.of_agrees (he : e.functions.IsNamed) {source : List Char} {s s' t : State}
    {result : Except ScriptError (Option Value)} (h : e.Finishes source s result s')
    (hs : s.Agrees t) : ∃ t', e.Finishes source t result t' ∧ s'.Agrees t' := by
  obtain ⟨turns, hrun⟩ := h
  obtain ⟨result', events, htraced, -⟩ := runScript_traced he turns source s
  have hsame := hrun.symm.trans (htraced s (.refl s))
  cases hsame
  exact ⟨_, ⟨turns, htraced t hs⟩, hs.foldl events⟩

/-- Whether a script ends in an open chain which the first line of another one breaks off by being
malformed. -/
def breaksOff (first second : List Char) : Bool :=
  ((codeLines first).filter (·.indent = 0)).getLast?.any (·.opensChain)
    && (codeLines second).head?.any (·.isMalformed)

lemma areApart_outline {first : List Char} {k : Nat}
    (hfirst : ∀ l ∈ (codeLines first).head?, l.indent = 0)
    (hsecond : ∀ l ∈ (codeLines second).head?, l.continuesChain = false)
    (hbreaks : breaksOff first second = false) :
    AreApart (outline (codeLines first)) ((outline (codeLines second)).map (Item.shift k)) := by
  rw [breaksOff, Bool.and_eq_false_iff] at hbreaks
  rcases hbreaks with hopen | hmalformed
  · left
    intro item hitem
    rw [← map_line_outline hfirst, List.getLast?_map, Option.mem_def.1 hitem] at hopen
    simpa using hopen
  · right
    intro item hitem
    rw [List.head?_map, Option.mem_map] at hitem
    obtain ⟨item, hitem, rfl⟩ := hitem
    have hline := line_mem_head? hitem
    rw [Item.line_shift, Line.continuesChain_shift, Line.isMalformed_shift]
    refine ⟨hsecond _ hline, ?_⟩
    simpa [Option.mem_def.1 hline] using hmalformed

/-- A script that follows another one runs as on its own, from the state that the first one leaves,
unless it breaks off a chain at the end of the first one. -/
theorem reaches_append_iff (e : Engine) (he : e.functions.IsNamed) (front second : List Char)
    (hfirst : ∀ l ∈ (codeLines (front ++ ['\n'])).head?, l.indent = 0)
    (hsecond : ∀ l ∈ (codeLines second).head?, l.indent = 0 ∧ l.continuesChain = false)
    (hbreaks : breaksOff (front ++ ['\n']) second = false)
    (s : State) (result : Except ScriptError (Option Value)) (s' : State) :
    e.Reaches (front ++ '\n' :: second) s result s'
      ↔ (∃ err, result = .error err ∧ e.Reaches (front ++ ['\n']) s (.error err) s')
        ∨ ∃ v s₁ result₂, e.Reaches (front ++ ['\n']) s (.ok v) s₁ ∧ e.Reaches second s₁ result₂ s'
          ∧ result = (result₂.map (·.or v)).mapError
              (.shift (Text.lines (front ++ ['\n'])).length) := by
  have hlines := codeLines_append front second
  generalize hk : (Text.lines (front ++ ['\n'])).length = k at hlines
  have hshifted : ∀ l ∈ ((codeLines second).map (Line.shift k)).head?, l.indent = 0 := by
    intro l hl
    rw [List.head?_map, Option.mem_map] at hl
    obtain ⟨l, hl, rfl⟩ := hl
    exact (hsecond l hl).1
  have hboth : ∀ l ∈ (codeLines (front ++ '\n' :: second)).head?, l.indent = 0 := by
    intro l hl
    rw [hlines, List.head?_append, Option.mem_def, Option.or_eq_some_iff] at hl
    rcases hl with hl | ⟨-, hl⟩
    · exact hfirst l hl
    · exact hshifted l hl
  have houtline : outline (codeLines (front ++ '\n' :: second))
      = outline (codeLines (front ++ ['\n']))
        ++ (outline (codeLines second)).map (Item.shift k) := by
    rw [hlines, outline_append, outline_shift]
    intro l hl l' _
    rw [hshifted l hl]
    exact Nat.zero_le _
  have hapart := areApart_outline (k := k) hfirst (fun l hl => (hsecond l hl).2) hbreaks
  have hleast {source : List Char} (h : ∀ l ∈ (codeLines source).head?, l.indent = 0) :
      ∀ first ∈ (codeLines source).head?, ∀ l ∈ codeLines source, first.indent ≤ l.indent :=
    fun first hl l _ => (h first hl).trans_le (Nat.zero_le l.indent)
  simp only [Reaches, finishes_iff (hleast hboth), finishes_iff (hleast hfirst),
    finishes_iff (hleast fun l hl => (hsecond l hl).1), houtline, ends_append hapart]
  constructor
  · rintro ⟨t, ⟨err, rfl, hends⟩ | ⟨v, s₁, hends, hrest⟩, ht⟩
    · exact .inl ⟨err, rfl, t, hends, ht⟩
    · obtain ⟨shifted, hshifted, rfl⟩ := (ends_last v).1 hrest
      obtain ⟨result₂, t₂, hends₂, ht₂, rfl⟩ := (ends_shift he k (.refl s₁)).1 ⟨t, hshifted, ht⟩
      refine .inr ⟨v, s₁, result₂, ⟨s₁, hends, .refl s₁⟩, ⟨t₂, hends₂, ht₂⟩, ?_⟩
      cases result₂ with
      | ok v₂ => rfl
      | error err => rfl
  · rintro (⟨err, rfl, t, hends, ht⟩ | ⟨v, s₁, result₂, ⟨t₁, hends, ht₁⟩, ⟨t₂, hends₂, ht₂⟩, rfl⟩)
    · exact ⟨t, .inl ⟨err, rfl, hends⟩, ht⟩
    · obtain ⟨t, hshifted, ht⟩ := (ends_shift he k ht₁.symm).2 ⟨result₂, t₂, hends₂, ht₂, rfl⟩
      refine ⟨t, .inr ⟨v, t₁, hends, (ends_last v).2 ⟨_, hshifted, ?_⟩⟩, ht⟩
      cases result₂ with
      | ok v₂ => rfl
      | error err => rfl

/-- The loop counts after the chain has run. -/
theorem reaches_append_iff_chain :
    ∃ result s', ({} : Engine).Reaches "if 1:\n x = 2\nfor k = 1 to 2:\n y = x + k\n".toList
        ⟨.empty, {}⟩ result s'
      ∧ s'.context.isBound "x" = true ∧ s'.context.isBound "y" = true := by
  let e : Engine := {}
  let s : State := ⟨.empty, {}⟩
  let front := "if 1:\n x = 2".toList
  let second := "for k = 1 to 2:\n y = x + k\n".toList
  have hrun : (e.outcome? 9 (front ++ ['\n']) s).any (fun outcome => outcome.1.isOk
      && (e.outcome? 9 second outcome.2).any fun outcome =>
        outcome.2.context.isBound "x" && outcome.2.context.isBound "y") = true := by
    decide +kernel
  obtain ⟨⟨first, s₁⟩, hfirst, hrest⟩ := (Option.any_eq_true _ _).1 hrun
  obtain ⟨hok, hrest⟩ := Bool.and_eq_true_iff.1 hrest
  obtain ⟨⟨result₂, s'⟩, hsecond, hbound⟩ := (Option.any_eq_true _ _).1 hrest
  obtain ⟨hx, hy⟩ := Bool.and_eq_true_iff.1 hbound
  cases first with
  | error err => cases hok
  | ok v =>
    have happend := reaches_append_iff e (Registry.isNamed_ofFunctions _) front second
      (by decide +kernel) (by decide +kernel) (by decide +kernel) s
    refine ⟨_, s', (happend _ s').2 (.inr ⟨v, s₁, result₂, ?_, ?_, rfl⟩), hx, hy⟩
    · exact ⟨s₁, finishes_of_outcome? hfirst, .refl s₁⟩
    · exact ⟨s', finishes_of_outcome? hsecond, .refl s'⟩

/-- The chain does not run if the line after it is malformed, though on its own it would. -/
theorem exists_not_reaches_append :
    ∃ front second s result s', (∀ l ∈ (codeLines (front ++ ['\n'])).head?, l.indent = 0)
      ∧ (∀ l ∈ (codeLines second).head?, l.indent = 0 ∧ l.continuesChain = false)
      ∧ ({} : Engine).Reaches (front ++ '\n' :: second) s result s'
      ∧ ¬ ((∃ err, result = .error err ∧ ({} : Engine).Reaches (front ++ ['\n']) s (.error err) s')
        ∨ ∃ v s₁ result₂, ({} : Engine).Reaches (front ++ ['\n']) s (.ok v) s₁
          ∧ ({} : Engine).Reaches second s₁ result₂ s'
          ∧ result = (result₂.map (·.or v)).mapError
              (.shift (Text.lines (front ++ ['\n'])).length)) := by
  let e : Engine := {}
  let s : State := ⟨.empty, {}⟩
  let front := "if 1:\n x = 1".toList
  let second := "for y:\n z\n".toList
  have hboth : (e.outcome? 9 (front ++ '\n' :: second) s).any (fun outcome =>
      !outcome.2.context.isBound "x") = true := by
    decide +kernel
  have hrun : (e.outcome? 9 (front ++ ['\n']) s).any (fun outcome => outcome.1.isOk
      && (e.outcome? 9 second outcome.2).any fun outcome =>
        outcome.2.context.isBound "x") = true := by
    decide +kernel
  obtain ⟨⟨result, s'⟩, hresult, hunbound⟩ := (Option.any_eq_true _ _).1 hboth
  obtain ⟨⟨first, t₁⟩, hfirst, hrest⟩ := (Option.any_eq_true _ _).1 hrun
  obtain ⟨hok, hrest⟩ := Bool.and_eq_true_iff.1 hrest
  obtain ⟨⟨result₂, t₂⟩, hsecond, hbound⟩ := (Option.any_eq_true _ _).1 hrest
  refine ⟨front, second, s, result, s', by decide +kernel, by decide +kernel,
    ⟨s', finishes_of_outcome? hresult, .refl s'⟩, ?_⟩
  rintro (⟨err, -, t, hends, -⟩ | ⟨v, s₁, result₂', ⟨t₁', hends, hs₁⟩, ⟨t₂', hends', hs'⟩, -⟩)
  · obtain ⟨rfl, -⟩ := (finishes_of_outcome? hfirst).unique hends
    cases hok
  · obtain ⟨-, rfl⟩ := (finishes_of_outcome? hfirst).unique hends
    obtain ⟨t, hends', ht⟩ := hends'.of_agrees (Registry.isNamed_ofFunctions _) hs₁.symm
    obtain ⟨-, rfl⟩ := (finishes_of_outcome? hsecond).unique hends'
    have hcontext : s'.context = t₂.context := (hs'.symm.trans ht).context.symm
    dsimp only at hbound hunbound
    rw [hcontext, hbound] at hunbound
    cases hunbound

end Engine

end Reckoner
