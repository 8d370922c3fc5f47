import Reckoner.Proofs.Script.Limits
import Reckoner.Proofs.Script.Lines
import Reckoner.Proofs.Script.Traces

/-!
# Lines in other places

What a script does depends on its lines as they stand to each other. If they are numbered and
indented otherwise, so that lines that were equally deep still are, the same is done: only the line
of a failure is another one.
-/

namespace Reckoner

/-- The error with its line numbered otherwise. -/
def ScriptError.renumber (number : Nat → Nat) (err : ScriptError) : ScriptError :=
  { err with line := number err.line }

namespace Script

variable {e : Engine} {p : Placement}

/-- The reason with its line numbered otherwise, if it has one. -/
def Stop.renumber (number : Nat → Nat) : Stop → Stop
  | .failed err => .failed (err.renumber number)
  | .exhausted => .exhausted

namespace Run

variable {α β γ δ : Type}

/-- Whether `y` is as `x`, with lines in other places: from a state that cannot be told apart, it
comes to the result that corresponds by `g` and to a state that cannot be told apart. -/
def Placed (p : Placement) (g : α → β) (x : Run α) (y : Run β) : Prop :=
  ∀ s s' : State, s.Agrees s' →
    (y.run s').1 = ((x.run s).1.map g).mapError (Stop.renumber p.number)
      ∧ (x.run s).2.Agrees (y.run s').2

namespace Placed

variable {g : α → β} {g' : γ → δ}

lemma pure (a : α) : Placed p g (Pure.pure a) (Pure.pure (g a)) :=
  fun _ _ h => ⟨rfl, h⟩

lemma exhausted : Placed p g (throw Stop.exhausted) (throw Stop.exhausted) :=
  fun _ _ h => ⟨rfl, h⟩

lemma fail (line : Line) (err : EvalError) :
    Placed p g (Run.fail line err) (Run.fail (line.place p) err) :=
  fun _ _ h => ⟨rfl, h⟩

lemma bind {x : Run α} {y : Run β} {f : α → Run γ} {f' : β → Run δ} (h : Placed p g x y)
    (hf : ∀ a, Placed p g' (f a) (f' (g a))) : Placed p g' (x >>= f) (y >>= f') := by
  intro s s' hs
  obtain ⟨hresult, hstate⟩ := h s s' hs
  rw [run_bind, run_bind]
  generalize x.run s = outcome at hresult hstate
  generalize y.run s' = outcome' at hresult hstate
  obtain ⟨result, s₁⟩ := outcome
  obtain ⟨result', s₂⟩ := outcome'
  cases result with
  | error stop =>
    cases hresult
    exact ⟨rfl, hstate⟩
  | ok a =>
    cases hresult
    exact hf a s₁ s₂ hstate

lemma poll (line : Line) : Placed p id (Run.poll line) (Run.poll (line.place p)) := by
  intro s s' hs
  rw [run_poll, run_poll, hs.world.cancelled]
  cases s.world.cancelled with
  | true => exact ⟨rfl, hs⟩
  | false => exact ⟨rfl, hs⟩

lemma note (event event' : Event) : Placed p id (Run.note event) (Run.note event') :=
  fun _ _ h => ⟨rfl, h.context, h.world.record event event'⟩

lemma assign (name : String) (v : Value) :
    Placed p id (modify fun s : State => { s with context := s.context.set name v })
      (modify fun s : State => { s with context := s.context.set name v }) :=
  fun _ _ h => ⟨rfl, congrArg (fun c : Context => c.set name v) h.context, h.world⟩

lemma ofValue (line : Line) (x : Except RuntimeError α) :
    Placed p id (Run.ofValue line x) (Run.ofValue (line.place p) x) := by
  cases x with
  | ok a => exact pure a
  | error err => exact fail line _

lemma header (line : Line) : Placed p id (Run.header line) (Run.header (line.place p)) := by
  unfold Run.header
  rw [Line.text_place]
  cases Header.read line.text with
  | ok h => exact pure h
  | error err => exact fail line _

/-- A check before the rest of a part. -/
lemma guard {q : Prop} [Decidable q] (line : Line) (err : EvalError) {f : Unit → Run α}
    {f' : Unit → Run β} (hf : Placed p g (f ()) (f' ())) :
    Placed p g (if q then Run.fail line err >>= f else f ())
      (if q then Run.fail (line.place p) err >>= f' else f' ()) := by
  split
  · exact fail line err
  · exact hf

end Placed

end Run

open Run (Placed)

/-- Whether statements of a line do the same in its other place. -/
def EvaluatesPlaced (e : Engine) (p : Placement) : Prop :=
  ∀ line source, Placed p id (Run.evaluate e line source) (Run.evaluate e (line.place p) source)

lemma number_placed (he : EvaluatesPlaced e p) (line : Line) (source : List Char) :
    Placed p id (Run.number e line source) (Run.number e (line.place p) source) :=
  .bind (he line source) fun _ => .ofValue line _

lemma condition_placed (he : EvaluatesPlaced e p) (line : Line) (source : List Char) :
    Placed p id (Run.condition e line source) (Run.condition e (line.place p) source) :=
  .bind (he line source) fun _ => .ofValue line _

/-- The clause with its lines in other places. -/
def Clause.place (p : Placement) (clause : Clause) : Clause :=
  { clause with item := clause.item.place p }

lemma requireBody_placed (item : Item) :
    Placed p id (requireBody item) (requireBody (item.place p)) := by
  unfold requireBody
  rw [Item.line_place, Item.body_place, List.isEmpty_map]
  split
  · exact .fail _ _
  · exact .pure _

lemma moreClauses_placed (hp : Function.Injective p.indent) (indent : Nat) (items : List Item) :
    Placed p (Prod.map (List.map (Clause.place p)) (List.map (Item.place p)))
      (moreClauses indent items) (moreClauses (p.indent indent) (items.map (Item.place p))) := by
  induction items with
  | nil => exact .pure _
  | cons item rest ih =>
    rw [List.map_cons]
    unfold moreClauses
    rw [Item.line_place, Line.indent_place]
    simp only [hp.eq_iff]
    split
    · apply Placed.bind (.header _)
      intro header
      dsimp only [id]
      split
      · apply Placed.bind (requireBody_placed item)
        intro _
        exact .bind ih fun _ => .pure _
      · exact .bind (requireBody_placed item) fun _ => .pure _
      · exact .pure _
    · exact .pure _

lemma chooseClause_placed (he : EvaluatesPlaced e p) (clauses : List Clause) :
    Placed p (Option.map (List.map (Item.place p))) (chooseClause e clauses)
      (chooseClause e (clauses.map (Clause.place p))) := by
  induction clauses with
  | nil => exact .pure _
  | cons clause rest ih =>
    obtain ⟨condition, item⟩ := clause
    cases condition with
    | none =>
      change Placed p _ (pure (some item.body)) (pure (some (item.place p).body))
      rw [Item.body_place]
      exact .pure (some item.body)
    | some condition =>
      rw [List.map_cons]
      unfold chooseClause
      dsimp only [Clause.place]
      rw [Item.line_place, Item.body_place]
      apply Placed.bind (condition_placed he _ _)
      intro holds
      dsimp only [id]
      split
      · exact .pure (some item.body)
      · exact ih

lemma loopRange_placed (he : EvaluatesPlaced e p) (line : Line) (name start stop : List Char)
    (step : Option (List Char)) :
    Placed p id (loopRange e line name start stop step)
      (loopRange e (line.place p) name start stop step) := by
  unfold loopRange
  apply Placed.guard
  apply Placed.bind (number_placed he line start)
  intro first
  apply Placed.bind (number_placed he line stop)
  intro last
  cases step with
  | none => exact .bind (.pure _) fun step => .guard _ _ (.guard _ _ (.pure _))
  | some source =>
    exact .bind (number_placed he line source) fun step => .guard _ _ (.guard _ _ (.pure _))

/-- Items and loops do the same in other places. -/
lemma turns_placed (he : EvaluatesPlaced e p) (hp : Function.Injective p.indent) (turns : Nat) :
    (∀ last items, Placed p id (runItems e turns last items)
        (runItems e turns last (items.map (Item.place p))))
      ∧ (∀ line name range body turn last,
        Placed p id (runFor e turns line name range body turn last)
          (runFor e turns (line.place p) name range (body.map (Item.place p)) turn last))
      ∧ ∀ line condition body last,
        Placed p id (runWhile e turns line condition body last)
          (runWhile e turns (line.place p) condition (body.map (Item.place p)) last) := by
  induction turns with
  | zero => exact ⟨fun _ _ => .exhausted, fun _ _ _ _ _ _ => .exhausted, fun _ _ _ _ => .exhausted⟩
  | succ turns ih =>
    obtain ⟨ihItems, ihFor, ihWhile⟩ := ih
    refine ⟨?_, ?_, ?_⟩
    · intro last items
      cases items with
      | nil => exact .pure _
      | cons item rest =>
        rw [List.map_cons]
        unfold runItems
        rw [Item.line_place, Item.body_place]
        apply Placed.bind (.poll _)
        intro _
        apply Placed.bind (.header _)
        intro header
        cases header with
        | none =>
          dsimp only [id]
          cases item.body with
          | nil => exact .bind (he _ _) fun v => ihItems _ _
          | cons deeper others =>
            rw [List.map_cons]
            dsimp only
            rw [Item.line_place]
            exact .fail _ _
        | some header =>
          apply Placed.bind (requireBody_placed item)
          intro _
          cases header with
          | forLoop name start stop step =>
            apply Placed.bind (loopRange_placed he _ _ _ _ _)
            intro range
            exact .bind (ihFor _ _ _ _ _ _) fun produced => ihItems _ _
          | whileLoop condition => exact .bind (ihWhile _ _ _ _) fun produced => ihItems _ _
          | ifClause condition =>
            apply Placed.bind (moreClauses_placed hp _ _)
            intro found
            apply Placed.bind (chooseClause_placed he (⟨some condition, item⟩ :: found.1))
            intro chosen
            cases chosen with
            | none => exact ihItems _ _
            | some body => exact .bind (ihItems _ _) fun produced => ihItems _ _
          | elifClause condition => exact .fail _ _
          | elseClause => exact .fail _ _
    · intro line name range body turn last
      unfold runFor
      dsimp only
      split
      · exact .pure _
      · apply Placed.bind (.poll _)
        intro _
        apply Placed.bind (.note _ _)
        intro _
        apply Placed.bind (.assign _ _)
        intro _
        exact .bind (ihItems _ _) fun produced => ihFor _ _ _ _ _ _
    · intro line condition body last
      unfold runWhile
      apply Placed.bind (condition_placed he _ _)
      intro holds
      dsimp only [id]
      split
      · apply Placed.bind (.poll _)
        intro _
        apply Placed.bind (.note _ _)
        intro _
        exact .bind (ihItems _ _) fun produced => ihWhile _ _ _ _
      · exact .pure _

/-- Parts with lines in other places come to the same end, with the line of a failure numbered
otherwise. -/
lemma Run.Placed.ends_iff {α : Type} {x y : Nat → Run α} (h : ∀ turns, Placed p id (x turns)
    (y turns)) {s₁ s₂ s' : State} {result : Except ScriptError α} (hs : s₁.Agrees s₂) :
    (∃ t, Ends y s₂ result t ∧ t.Agrees s')
      ↔ ∃ result' t, Ends x s₁ result' t ∧ t.Agrees s'
        ∧ result = result'.mapError (.renumber p.number) := by
  constructor
  · rintro ⟨t, ⟨turns, hrun⟩, ht⟩
    obtain ⟨hresult, hstate⟩ := h turns s₁ s₂ hs
    rw [hrun] at hresult hstate
    cases hfirst : (x turns).run s₁ with
    | mk first t₁ =>
      rw [hfirst] at hresult hstate
      cases first with
      | ok v =>
        cases result with
        | error err => cases hresult
        | ok v' =>
          cases hresult
          exact ⟨.ok v, t₁, ⟨turns, hfirst⟩, hstate.trans ht, rfl⟩
      | error stop =>
        cases result with
        | ok v' => cases hresult
        | error err =>
          cases stop with
          | exhausted => cases hresult
          | failed err' =>
            cases hresult
            exact ⟨.error err', t₁, ⟨turns, hfirst⟩, hstate.trans ht, rfl⟩
  · rintro ⟨result', t, ⟨turns, hrun⟩, ht, rfl⟩
    obtain ⟨hresult, hstate⟩ := h turns s₁ s₂ hs
    rw [hrun] at hresult hstate
    refine ⟨_, ⟨turns, Prod.ext ?_ rfl⟩, hstate.symm.trans ht⟩
    rw [hresult]
    cases result' with
    | ok v => rfl
    | error err => rfl

end Script

end Reckoner
