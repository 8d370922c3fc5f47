import Reckoner.Proofs.Engine.Levels
import Reckoner.Proofs.Session.Requests

/-!
# The limit on turns

A script may be run for so many turns. To come to the limit ends the whole run, and nothing inside
swallows that failure. So a run that ends otherwise does the same with any more turns.
-/

namespace Reckoner

namespace Script

/-- Whether a run stopped because it needs more turns. -/
def Stop.isExhausted : Stop → Bool
  | .exhausted => true
  | .failed _ => false

/-- Runs the first of some items, for which each loop or body inside has so many turns; the result
is the last value so far and the items that are left. -/
def runItem (e : Engine) (turns : Nat) (last : Option Value) (item : Item) (rest : List Item) :
    Run (Option Value × List Item) := do
  Run.poll item.line
  match ← Run.header item.line with
  | none =>
    match item.body with
    | deeper :: _ => Run.malformed deeper.line "unexpected indentation"
    | [] =>
      let v ← Run.evaluate e item.line item.line.text
      return (some v, rest)
  | some header =>
    requireBody item
    match header with
    | .forLoop name start stop step =>
      let range ← loopRange e item.line name start stop step
      let produced ← runFor e turns item.line (String.ofList name) range item.body 0 none
      return (produced.or last, rest)
    | .whileLoop condition =>
      let produced ← runWhile e turns item.line condition item.body none
      return (produced.or last, rest)
    | .ifClause condition =>
      let (clauses, behind) ← moreClauses item.line.indent rest
      match ← chooseClause e (⟨some condition, item⟩ :: clauses) with
      | some body =>
        let produced ← runItems e turns none body
        return (produced.or last, behind)
      | none => return (last, behind)
    | .elifClause _ | .elseClause =>
      Run.malformed item.line "'elif' or 'else' without a matching 'if'"

lemma runItems_cons (e : Engine) (turns : Nat) (last : Option Value) (item : Item)
    (rest : List Item) :
    runItems e (turns + 1) last (item :: rest)
      = (do
          let next ← runItem e turns last item rest
          runItems e turns next.1 next.2) := by
  rw [runItems, runItem, bind_assoc]
  congr 1
  funext _
  rw [bind_assoc]
  congr 1
  funext header
  cases header with
  | none =>
    dsimp only
    cases item.body with
    | nil => rw [bind_assoc]; rfl
    | cons deeper others => rfl
  | some header =>
    dsimp only
    rw [bind_assoc]
    congr 1
    funext _
    cases header with
    | forLoop name start stop step => simp only [bind_assoc, pure_bind]
    | whileLoop condition => simp only [bind_assoc, pure_bind]
    | ifClause condition =>
      simp only [bind_assoc]
      congr 1
      funext clauses
      congr 1
      funext chosen
      cases chosen with
      | none => rfl
      | some body => simp only [bind_assoc, pure_bind]
    | elifClause condition => rfl
    | elseClause => rfl

/-- Whether what ends within some turns ends in the same way within others. -/
structure TurnsExtend (e : Engine) (turns turns' : Nat) : Prop where
  items (last : Option Value) (items : List Item) :
    Extends Stop.isExhausted (runItems e turns last items) (runItems e turns' last items)
  forLoop (line : Line) (name : String) (range : Range) (body : List Item) (turn : Float)
    (last : Option Value) :
    Extends Stop.isExhausted (runFor e turns line name range body turn last)
      (runFor e turns' line name range body turn last)
  whileLoop (line : Line) (condition : List Char) (body : List Item) (last : Option Value) :
    Extends Stop.isExhausted (runWhile e turns line condition body last)
      (runWhile e turns' line condition body last)

namespace TurnsExtend

variable {e : Engine} {turns turns' : Nat}

lemma item (h : TurnsExtend e turns turns') (last : Option Value) (item : Item)
    (rest : List Item) :
    Extends Stop.isExhausted (runItem e turns last item rest)
      (runItem e turns' last item rest) := by
  unfold runItem
  apply Extends.bind (.refl _)
  intro _
  apply Extends.bind (.refl _)
  intro header
  cases header with
  | none => exact .refl _
  | some header =>
    apply Extends.bind (.refl _)
    intro _
    cases header with
    | forLoop name start stop step =>
      apply Extends.bind (.refl _)
      intro range
      exact .bind (h.forLoop _ _ _ _ _ _) fun _ => .refl _
    | whileLoop condition => exact .bind (h.whileLoop _ _ _ _) fun _ => .refl _
    | ifClause condition =>
      apply Extends.bind (.refl _)
      intro clauses
      apply Extends.bind (.refl _)
      intro chosen
      cases chosen with
      | none => exact .refl _
      | some body => exact .bind (h.items _ _) fun _ => .refl _
    | elifClause condition => exact .refl _
    | elseClause => exact .refl _

lemma succ (h : TurnsExtend e turns turns') : TurnsExtend e (turns + 1) (turns' + 1) := by
  constructor
  · intro last items
    cases items with
    | nil => exact .refl _
    | cons item rest =>
      rw [runItems_cons, runItems_cons]
      exact .bind (h.item last item rest) fun _ => h.items _ _
  · intro line name range body turn last
    unfold runFor
    dsimp only
    split
    · exact .refl _
    · apply Extends.bind (.refl _)
      intro _
      apply Extends.bind (.refl _)
      intro _
      apply Extends.bind (.refl _)
      intro _
      exact .bind (h.items _ _) fun _ => h.forLoop _ _ _ _ _ _
  · intro line condition body last
    unfold runWhile
    apply Extends.bind (.refl _)
    intro holds
    split
    · apply Extends.bind (.refl _)
      intro _
      apply Extends.bind (.refl _)
      intro _
      exact .bind (h.items _ _) fun _ => h.whileLoop _ _ _ _
    · exact .refl _

/-- A run that ends within some turns ends in the same way if it has more. -/
lemma of_le (h : turns ≤ turns') : TurnsExtend e turns turns' := by
  induction turns generalizing turns' with
  | zero =>
    exact ⟨fun _ _ => .of_limit rfl _, fun _ _ _ _ _ _ => .of_limit rfl _,
      fun _ _ _ _ => .of_limit rfl _⟩
  | succ turns ih =>
    obtain ⟨turns', rfl⟩ : ∃ n, turns' = n + 1 := ⟨turns' - 1, by omega⟩
    exact (ih (Nat.le_of_succ_le_succ h)).succ

end TurnsExtend

/-! ### Ends of runs -/

section

variable {α β : Type} {x : Nat → Run α} {f : Nat → α → Run β} {s s' : State}

/-- Whether a part of a script comes to an end, with a result or a failure, and leaves a state, if
it has turns enough. -/
def Ends (x : Nat → Run α) (s : State) (result : Except ScriptError α) (s' : State) : Prop :=
  ∃ turns, (x turns).run s = (result.mapError .failed, s')

/-- Whether a part of a script that ends within some turns ends in the same way within more. -/
def IsStable (x : Nat → Run α) : Prop :=
  ∀ ⦃turns turns'⦄, turns ≤ turns' → Extends Stop.isExhausted (x turns) (x turns')

lemma IsStable.const (x : Run α) : IsStable fun _ => x :=
  fun _ _ _ => .refl x

lemma IsStable.bind (hx : IsStable x) (hf : ∀ a, IsStable fun turns => f turns a) :
    IsStable fun turns => x turns >>= f turns :=
  fun _ _ h => .bind (hx h) fun a => hf a h

lemma IsStable.items (e : Engine) (last : Option Value) (items : List Item) :
    IsStable fun turns => runItems e turns last items :=
  fun _ _ h => (TurnsExtend.of_le h).items last items

lemma IsStable.forLoop (e : Engine) (line : Line) (name : String) (range : Range)
    (body : List Item) (turn : Float) (last : Option Value) :
    IsStable fun turns => runFor e turns line name range body turn last :=
  fun _ _ h => (TurnsExtend.of_le h).forLoop line name range body turn last

lemma IsStable.whileLoop (e : Engine) (line : Line) (condition : List Char) (body : List Item)
    (last : Option Value) : IsStable fun turns => runWhile e turns line condition body last :=
  fun _ _ h => (TurnsExtend.of_le h).whileLoop line condition body last

/-- A run that has come to an end is a run of what extends it. -/
lemma run_eq_of_extends {x y : Run α} {result : Except ScriptError α}
    (h : Extends Stop.isExhausted x y) (hrun : x.run s = (result.mapError .failed, s')) :
    y.run s = (result.mapError .failed, s') := by
  apply h.run_eq hrun
  intro stop hstop
  cases result with
  | ok a => cases hstop
  | error err =>
    cases hstop
    rfl

/-- What follows a part comes to an end if the part does and it does from there. -/
lemma ends_bind (hx : IsStable x) (hf : ∀ a, IsStable fun turns => f turns a)
    {result : Except ScriptError β} :
    Ends (fun turns => x turns >>= f turns) s result s'
      ↔ (∃ err, result = .error err ∧ Ends x s (.error err) s')
        ∨ ∃ a s₁, Ends x s (.ok a) s₁ ∧ Ends (fun turns => f turns a) s₁ result s' := by
  constructor
  · rintro ⟨turns, hrun⟩
    rw [Extends.run_bind] at hrun
    cases hfirst : (x turns).run s with
    | mk first s₁ =>
      rw [hfirst] at hrun
      cases first with
      | ok a => exact .inr ⟨a, s₁, ⟨turns, hfirst⟩, turns, hrun⟩
      | error stop =>
        cases result with
        | ok b => cases hrun
        | error err =>
          cases hrun
          exact .inl ⟨err, rfl, turns, hfirst⟩
  · rintro (⟨err, rfl, turns, hfirst⟩ | ⟨a, s₁, ⟨turns, hfirst⟩, turns', hrest⟩)
    · refine ⟨turns, ?_⟩
      rw [Extends.run_bind, hfirst]
      rfl
    · refine ⟨max turns turns', ?_⟩
      rw [Extends.run_bind, run_eq_of_extends (hx (Nat.le_max_left turns turns')) hfirst]
      exact run_eq_of_extends (hf a (Nat.le_max_right turns turns')) hrest

/-- A function of the result comes to an end with the part. -/
lemma ends_map (hx : IsStable x) (g : α → β) {result : Except ScriptError β} :
    Ends (fun turns => x turns >>= fun a => pure (g a)) s result s'
      ↔ ∃ result', Ends x s result' s' ∧ result = result'.map g := by
  rw [ends_bind hx fun a => .const (pure (g a))]
  constructor
  · rintro (⟨err, rfl, herr⟩ | ⟨a, s₁, hok, turns, hrun⟩)
    · exact ⟨.error err, herr, rfl⟩
    · cases result with
      | error err => cases hrun
      | ok b =>
        cases hrun
        exact ⟨.ok a, hok, rfl⟩
  · rintro ⟨err | a, hends, rfl⟩
    · exact .inl ⟨err, rfl, hends⟩
    · exact .inr ⟨a, s', hends, 0, rfl⟩

end

end Script

namespace Engine

variable {e : Engine} {source : List Char} {s s' : Script.State}
  {result : Except ScriptError (Option Value)}

/-- Whether a script comes to an end, with a value or a failure, and leaves a state. -/
def Finishes (e : Engine) (source : List Char) (s : Script.State)
    (result : Except ScriptError (Option Value)) (s' : Script.State) : Prop :=
  Script.Ends (fun turns => e.runScript turns source) s result s'

/-- The end that a script comes to within some turns, and the state it leaves. -/
def outcome? (e : Engine) (turns : Nat) (source : List Char) (s : Script.State) :
    Option (Except ScriptError (Option Value) × Script.State) :=
  match (e.runScript turns source).run s with
  | (.ok v, s') => some (.ok v, s')
  | (.error (.failed err), s') => some (.error err, s')
  | (.error .exhausted, _) => none

lemma finishes_of_outcome? {turns : Nat} (h : e.outcome? turns source s = some (result, s')) :
    e.Finishes source s result s' := by
  refine ⟨turns, ?_⟩
  unfold outcome? at h
  split at h
  · rename_i v t hrun
    cases h
    exact hrun
  · rename_i err t hrun
    cases h
    exact hrun
  · cases h

lemma Finishes.unique {result' : Except ScriptError (Option Value)} {s'' : Script.State}
    (h : e.Finishes source s result s') (h' : e.Finishes source s result' s'') :
    result = result' ∧ s' = s'' := by
  obtain ⟨turns, hrun⟩ := h
  obtain ⟨turns', hrun'⟩ := h'
  have hstable : Script.IsStable fun turns => e.runScript turns source :=
    fun _ _ hle => .bind (.refl _) fun _ => Script.IsStable.items e _ _ hle
  have hsame := (Script.run_eq_of_extends (hstable (Nat.le_max_left turns turns')) hrun).symm.trans
    (Script.run_eq_of_extends (hstable (Nat.le_max_right turns turns')) hrun')
  cases result with
  | ok v =>
    cases result' with
    | ok v' => cases hsame; exact ⟨rfl, rfl⟩
    | error err' => cases hsame
  | error err =>
    cases result' with
    | ok v' => cases hsame
    | error err' => cases hsame; exact ⟨rfl, rfl⟩

end Engine

end Reckoner
