import Reckoner.Proofs.Script.Limits
import Reckoner.Proofs.Script.Lines

/-!
# Items in sequence

Items that follow others run as they would on their own, from the state that the others leave. The
exception are the clauses of a chain, which are looked for before any of them runs: so the items
before must not end in an open chain that the next line is taken to continue, or that the next line
breaks off by being malformed.
-/

namespace Reckoner

namespace Script

variable {e : Engine} {turns turns' : Nat} {last : Option Value}

/-! ### Where chains end -/

/-- Whether a header can be followed by further clauses of its chain. -/
def Header.opensChain : Header → Bool
  | .ifClause _ | .elifClause _ => true
  | _ => false

/-- Whether a header is a further clause of a chain. -/
def Header.continuesChain : Header → Bool
  | .elifClause _ | .elseClause => true
  | _ => false

/-- Whether a line is a clause that can be followed by further ones. -/
def Line.opensChain (line : Line) : Bool :=
  match Header.read line.text with
  | .ok (some header) => header.opensChain
  | _ => false

/-- Whether a line is a further clause of a chain. -/
def Line.continuesChain (line : Line) : Bool :=
  match Header.read line.text with
  | .ok (some header) => header.continuesChain
  | _ => false

/-- Whether a line starts like a header but does not go on like one. -/
def Line.isMalformed (line : Line) : Bool :=
  match Header.read line.text with
  | .ok _ => false
  | .error _ => true

@[simp] lemma Line.continuesChain_shift (k : Nat) (line : Line) :
    (line.shift k).continuesChain = line.continuesChain := rfl

@[simp] lemma Line.isMalformed_shift (k : Nat) (line : Line) :
    (line.shift k).isMalformed = line.isMalformed := rfl

/-- Whether no chain at the end of some items can go on into others. -/
def AreApart (items others : List Item) : Prop :=
  (∀ item ∈ items.getLast?, item.line.opensChain = false)
    ∨ ∀ item ∈ others.head?, item.line.continuesChain = false ∧ item.line.isMalformed = false

namespace AreApart

variable {item : Item} {items rest others : List Item}

lemma nil (items : List Item) : AreApart items [] :=
  .inr nofun

lemma of_suffix (h : AreApart items others) (hrest : rest <:+ items) : AreApart rest others := by
  refine h.imp_left ?_
  intro hlast item hitem
  have hne : rest ≠ [] := by
    rintro rfl
    cases hitem
  obtain ⟨front, rfl⟩ := hrest
  apply hlast
  rwa [List.getLast?_append_of_ne_nil _ hne]

end AreApart

lemma moreClauses_of_apart {others : List Item} (indent : Nat)
    (h : ∀ item ∈ others.head?, item.line.continuesChain = false ∧ item.line.isMalformed = false) :
    moreClauses indent others = pure ([], others) := by
  cases others with
  | nil => rfl
  | cons item others =>
    obtain ⟨hcontinues, hmalformed⟩ := h item rfl
    unfold moreClauses
    split
    · unfold Run.header
      unfold Line.continuesChain at hcontinues
      unfold Line.isMalformed at hmalformed
      cases hread : Header.read item.line.text with
      | error err =>
        rw [hread] at hmalformed
        cases hmalformed
      | ok header =>
        rw [hread] at hcontinues
        rw [pure_bind]
        split
        · cases hcontinues
        · cases hcontinues
        · rfl
    · rfl

/-- The clauses of an open chain do not depend on items that are apart. -/
lemma moreClauses_append (indent : Nat) {item : Item} {rest others : List Item}
    (hitem : item.line.opensChain = true) (h : AreApart (item :: rest) others) :
    moreClauses indent (rest ++ others)
      = (do
          let found ← moreClauses indent rest
          return (found.1, found.2 ++ others)) := by
  induction rest generalizing item with
  | nil =>
    rcases h with h | h
    · rw [h item rfl] at hitem
      cases hitem
    · exact moreClauses_of_apart indent h
  | cons next rest ih =>
    have hnext : AreApart (next :: rest) others := h.of_suffix (List.suffix_cons item _)
    rw [List.cons_append]
    unfold moreClauses
    split
    · rw [bind_assoc]
      unfold Run.header
      cases hread : Header.read next.line.text with
      | error err => rfl
      | ok header =>
        rw [pure_bind, pure_bind]
        split
        · have hopens : next.line.opensChain = true := by
            unfold Line.opensChain
            rw [hread]
            rfl
          rw [ih hopens hnext]
          simp only [bind_assoc, pure_bind]
        · simp only [bind_assoc, pure_bind]
        · rfl
    · rfl

/-! ### Items in sequence -/

/-- What an item does depends neither on the last value so far nor on items that are apart. -/
lemma runItem_append (turns : Nat) (last v : Option Value) {item : Item} {rest others : List Item}
    (h : AreApart (item :: rest) others) :
    runItem e turns (v.or last) item (rest ++ others)
      = (do
          let next ← runItem e turns v item rest
          return (next.1.or last, next.2 ++ others)) := by
  unfold runItem
  rw [bind_assoc]
  congr 1
  funext _
  rw [bind_assoc]
  unfold Run.header
  cases hread : Header.read item.line.text with
  | error err => rfl
  | ok header =>
    rw [pure_bind, pure_bind]
    cases header with
    | none =>
      dsimp only
      cases item.body with
      | nil => rw [bind_assoc]; rfl
      | cons deeper others => rfl
    | some header =>
      dsimp only
      rw [bind_assoc]
      congr 1
      funext _
      cases header with
      | forLoop name start stop step => simp only [bind_assoc, pure_bind, Option.or_assoc]
      | whileLoop condition => simp only [bind_assoc, pure_bind, Option.or_assoc]
      | ifClause condition =>
        have hopens : item.line.opensChain = true := by
          unfold Line.opensChain
          rw [hread]
          rfl
        dsimp only
        rw [moreClauses_append _ hopens h]
        simp only [bind_assoc, pure_bind]
        congr 1
        funext clauses
        congr 1
        funext chosen
        cases chosen with
        | none => rfl
        | some body => simp only [bind_assoc, pure_bind, Option.or_assoc]
      | elifClause condition => rfl
      | elseClause => rfl

/-- Whether all that a part of a script can result in has a property. -/
def Run.Yields {α : Type} (x : Run α) (P : α → Prop) : Prop :=
  ∀ s a s', x.run s = (.ok a, s') → P a

namespace Run.Yields

variable {α β : Type} {P : α → Prop} {Q : β → Prop}

lemma pure {a : α} (h : P a) : Yields (Pure.pure a) P := by
  intro s b s' hrun
  cases hrun
  exact h

lemma fail (line : Line) (err : EvalError) : Yields (Run.fail line err) P :=
  nofun

lemma bind {x : Run β} {f : β → Run α} (hx : Yields x Q) (hf : ∀ b, Q b → Yields (f b) P) :
    Yields (x >>= f) P := by
  intro s a s' hrun
  rw [run_bind] at hrun
  cases hfirst : x.run s with
  | mk result s₁ =>
    rw [hfirst] at hrun
    cases result with
    | error stop => cases hrun
    | ok b => exact hf b (hx s b s₁ hfirst) s₁ a s' hrun

lemma bind_of_forall {x : Run β} {f : β → Run α} (hf : ∀ b, Yields (f b) P) : Yields (x >>= f) P :=
  bind (fun _ _ _ _ => trivial : Yields x fun _ => True) fun b _ => hf b

end Run.Yields

lemma moreClauses_yields (indent : Nat) (items : List Item) :
    (moreClauses indent items).Yields fun found => found.2 <:+ items := by
  induction items with
  | nil => exact .pure (List.suffix_refl [])
  | cons item rest ih =>
    unfold moreClauses
    split
    · apply Run.Yields.bind_of_forall
      intro header
      split
      · apply Run.Yields.bind_of_forall
        intro _
        refine Run.Yields.bind ih ?_
        intro found hfound
        exact .pure (hfound.trans (List.suffix_cons item rest))
      · apply Run.Yields.bind_of_forall
        intro _
        exact .pure (List.suffix_cons item rest)
      · exact .pure (List.suffix_refl _)
    · exact .pure (List.suffix_refl _)

/-- The items that are left are the last ones. -/
lemma runItem_yields (turns : Nat) (last : Option Value) (item : Item) (rest : List Item) :
    (runItem e turns last item rest).Yields fun next => next.2 <:+ rest := by
  have hrest (v : Option Value) : (pure (v, rest) : Run _).Yields fun next => next.2 <:+ rest :=
    .pure (List.suffix_refl rest)
  unfold runItem
  apply Run.Yields.bind_of_forall
  intro _
  apply Run.Yields.bind_of_forall
  intro header
  cases header with
  | none =>
    dsimp only
    split
    · exact .fail _ _
    · exact .bind_of_forall fun v => hrest _
  | some header =>
    apply Run.Yields.bind_of_forall
    intro _
    cases header with
    | forLoop name start stop step =>
      apply Run.Yields.bind_of_forall
      intro range
      exact .bind_of_forall fun v => hrest _
    | whileLoop condition => exact .bind_of_forall fun v => hrest _
    | ifClause condition =>
      refine Run.Yields.bind (moreClauses_yields _ rest) ?_
      intro found hfound
      apply Run.Yields.bind_of_forall
      intro chosen
      cases chosen with
      | none => exact .pure hfound
      | some body => exact .bind_of_forall fun v => .pure hfound
    | elifClause condition => exact .fail _ _
    | elseClause => exact .fail _ _

/-- A value from before counts only if no item produces one. -/
lemma runItems_or (turns : Nat) (last v : Option Value) (items : List Item) :
    runItems e turns (v.or last) items
      = (do
          let v ← runItems e turns v items
          return v.or last) := by
  induction turns generalizing v items with
  | zero => rfl
  | succ turns ih =>
    cases items with
    | nil => rfl
    | cons item rest =>
      have hitem := runItem_append (e := e) turns last v (.nil (item :: rest))
      rw [List.append_nil] at hitem
      rw [runItems_cons, runItems_cons, hitem]
      simp only [bind_assoc, pure_bind, List.append_nil, ih]

variable {items others : List Item}

/-- Items that follow others run after them, -/
lemma runItems_append_extends (turns : Nat) (last : Option Value) (h : AreApart items others) :
    Extends Stop.isExhausted (runItems e turns last (items ++ others))
      (do
        let v ← runItems e turns last items
        runItems e turns v others) := by
  induction turns generalizing last items with
  | zero => exact .of_limit rfl _
  | succ turns ih =>
    cases items with
    | nil => exact .refl _
    | cons item rest =>
      have hitem := runItem_append (e := e) turns none last h
      rw [Option.or_none] at hitem
      rw [List.cons_append, runItems_cons, runItems_cons, hitem]
      simp only [bind_assoc, pure_bind, Option.or_none]
      -- What is left behind the first item is a suffix, and so is still apart from the others.
      apply Extends.bind_of_run (.refl _)
      intro s next s' hnext
      have hsuffix := runItem_yields turns last item rest s next s' hnext
      apply (ih next.1 (h.of_suffix (hsuffix.trans (List.suffix_cons item rest)))).trans
      exact .bind (.refl _) fun v => (TurnsExtend.of_le (Nat.le_succ turns)).items v others

/-- and for as many turns as both take. -/
lemma runItems_extends_append (turns turns' : Nat) (last : Option Value)
    (h : AreApart items others) :
    Extends Stop.isExhausted
      (do
        let v ← runItems e turns last items
        runItems e turns' v others)
      (runItems e (turns + turns') last (items ++ others)) := by
  induction turns generalizing last items with
  | zero => exact .of_limit rfl _
  | succ turns ih =>
    rw [Nat.succ_add]
    cases items with
    | nil => exact (TurnsExtend.of_le (by omega)).items last others
    | cons item rest =>
      have hitem := runItem_append (e := e) (turns + turns') none last h
      rw [Option.or_none] at hitem
      rw [List.cons_append, runItems_cons, runItems_cons, hitem]
      simp only [bind_assoc, pure_bind, Option.or_none]
      apply Extends.bind_of_run ((TurnsExtend.of_le (Nat.le_add_right turns turns')).item _ _ _)
      intro s next s' hnext
      have hsuffix := runItem_yields turns last item rest s next s' hnext
      exact ih next.1 (h.of_suffix (hsuffix.trans (List.suffix_cons item rest)))

end Script

end Reckoner
