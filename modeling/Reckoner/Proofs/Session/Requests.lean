import Reckoner.Proofs.Session.Statements
import Reckoner.Proofs.Substitution.Names

/-!
# Sessions

A session works on one context with statements, scripts and blocks of constants. A request that
fails leaves the context as it was, except that a script keeps what it did before. A statement binds
its target and nothing else. Whatever is asked, in whatever world, no variable ever loses its value
altogether.
-/

namespace Reckoner

namespace Script

open Run (Keeps Maintains)

/-- A statement of a script does to the session what it does on its own. -/
lemma Run.evaluate_run (e : Engine) (line : Line) (source : List Char) (s : State) :
    ((Run.evaluate e line source).run s).2 = e.serve s (.evaluate source) := by
  unfold Engine.serve Run.evaluate
  simp only [ExceptT.run]
  rcases e.evaluate s.context source s.world with ⟨_ | _, w⟩ <;> rfl

section Invariant

variable {e : Engine} {I : Context → Prop} {P : Value → Prop}

lemma Run.maintains_number (he : ∀ line source, Maintains I P (Run.evaluate e line source))
    (line : Line) (source : List Char) : Maintains I (fun _ => True) (Run.number e line source) :=
  .bind (he line source) fun _ _ => .ofValue line _

lemma Run.maintains_condition (he : ∀ line source, Maintains I P (Run.evaluate e line source))
    (line : Line) (source : List Char) :
      Maintains I (fun _ => True) (Run.condition e line source) :=
  .bind (he line source) fun _ _ => .ofValue line _

lemma maintains_requireBody (item : Item) : Maintains I (fun _ => True) (requireBody item) := by
  unfold requireBody
  split
  · exact .fail _ _
  · exact .pure trivial

lemma maintains_moreClauses (indent : Nat) (items : List Item) :
    Maintains I (fun _ => True) (moreClauses indent items) := by
  induction items with
  | nil => exact .pure trivial
  | cons item rest ih =>
    unfold moreClauses
    split
    · refine .bind (.header _) fun header _ => ?_
      split
      · exact .bind (maintains_requireBody item) fun _ _ => .bind ih fun _ _ => .pure trivial
      · exact .bind (maintains_requireBody item) fun _ _ => .pure trivial
      · exact .pure trivial
    · exact .pure trivial

lemma maintains_chooseClause (he : ∀ line source, Maintains I P (Run.evaluate e line source))
    (clauses : List Clause) : Maintains I (fun _ => True) (chooseClause e clauses) := by
  induction clauses with
  | nil => exact .pure trivial
  | cons clause rest ih =>
    obtain ⟨condition, item⟩ := clause
    cases condition with
    | none => exact .pure trivial
    | some condition =>
      refine .bind (Run.maintains_condition he _ _) fun holds _ => ?_
      split
      · exact .pure trivial
      · exact ih

lemma maintains_loopRange (he : ∀ line source, Maintains I P (Run.evaluate e line source))
    (line : Line) (name start stop : List Char) (step : Option (List Char)) :
    Maintains I (fun _ => True) (loopRange e line name start stop step) := by
  unfold loopRange
  refine .guard _ _ (.bind (Run.maintains_number he _ _) fun first _ =>
    .bind (Run.maintains_number he _ _) fun last _ => ?_)
  cases step with
  | none =>
    exact .bind (P := fun _ => True) (.pure trivial) fun step _ =>
      .guard _ _ (.guard _ _ (.pure trivial))
  | some source =>
    exact .bind (Run.maintains_number he _ _) fun step _ =>
      .guard _ _ (.guard _ _ (.pure trivial))

lemma forall_mem_or {α : Type} {P : α → Prop} {a b : Option α} (ha : ∀ x ∈ a, P x)
    (hb : ∀ x ∈ b, P x) : ∀ x ∈ a.or b, P x := by
  cases a with
  | none => exact hb
  | some x => exact ha

/-- An invariant that statements keep, and loops when they set their variable, is kept by a script,
however far it gets: what runs for one turn more is a row of parts that keep it. What a property of
the values of statements says holds of the last value too. -/
lemma maintains_turns (he : ∀ line source, Maintains I P (Run.evaluate e line source))
    (hset : ∀ c name (x : Float), I c → I (c.set name (.ofReal x))) (turns : Nat) :
    (∀ last items, (∀ v ∈ last, P v) →
        Maintains I (fun result => ∀ v ∈ result, P v) (runItems e turns last items))
      ∧ (∀ line name range body turn last, (∀ v ∈ last, P v) →
        Maintains I (fun result => ∀ v ∈ result, P v)
          (runFor e turns line name range body turn last))
      ∧ ∀ line condition body last, (∀ v ∈ last, P v) →
        Maintains I (fun result => ∀ v ∈ result, P v)
          (runWhile e turns line condition body last) := by
  have hnone : ∀ v ∈ (none : Option Value), P v := fun v hv => nomatch hv
  induction turns with
  | zero => exact ⟨fun _ _ _ => .throw _, fun _ _ _ _ _ _ _ => .throw _, fun _ _ _ _ _ => .throw _⟩
  | succ turns ih =>
    obtain ⟨ihItems, ihFor, ihWhile⟩ := ih
    refine ⟨fun last items hlast => ?_, fun line name range body turn last hlast => ?_,
      fun line condition body last hlast => ?_⟩
    · cases items with
      | nil => exact .pure hlast
      | cons item rest =>
        refine .bind (.poll _) fun _ _ => .bind (.header _) fun header _ => ?_
        cases header with
        | none =>
          dsimp only
          split
          · exact .fail _ _
          · refine .bind (he _ _) fun v hv => ihItems _ _ ?_
            rintro _ ⟨⟩
            exact hv
        | some header =>
          refine .bind (maintains_requireBody item) fun _ _ => ?_
          cases header with
          | forLoop name start stop step =>
            exact .bind (maintains_loopRange he _ _ _ _ _) fun range _ =>
              .bind (ihFor _ _ _ _ _ _ hnone) fun produced hproduced =>
                ihItems _ _ (forall_mem_or hproduced hlast)
          | whileLoop condition =>
            exact .bind (ihWhile _ _ _ _ hnone) fun produced hproduced =>
              ihItems _ _ (forall_mem_or hproduced hlast)
          | ifClause condition =>
            refine .bind (maintains_moreClauses _ _) fun clauses _ =>
              .bind (maintains_chooseClause he _) fun chosen _ => ?_
            cases chosen with
            | none => exact ihItems _ _ hlast
            | some body =>
              exact .bind (ihItems _ _ hnone) fun produced hproduced =>
                ihItems _ _ (forall_mem_or hproduced hlast)
          | elifClause condition => exact .fail _ _
          | elseClause => exact .fail _ _
    · unfold runFor
      dsimp only
      split
      · exact .pure hlast
      · refine .bind (.poll _) fun _ _ => .bind (.note _) fun _ _ =>
          .bind (P := fun _ => True) ?_ fun _ _ =>
            .bind (ihItems _ _ hnone) fun produced hproduced =>
              ihFor _ _ _ _ _ _ (forall_mem_or hproduced hlast)
        exact fun s hs => ⟨hset s.context name _ hs, fun _ _ => trivial⟩
    · unfold runWhile
      refine .bind (Run.maintains_condition he _ _) fun holds _ => ?_
      split
      · exact .bind (.poll _) fun _ _ => .bind (.note _) fun _ _ =>
          .bind (ihItems _ _ hnone) fun produced hproduced =>
            ihWhile _ _ _ _ (forall_mem_or hproduced hlast)
      · exact .pure hlast

lemma maintains_runScript (he : ∀ line source, Maintains I P (Run.evaluate e line source))
    (hset : ∀ c name (x : Float), I c → I (c.set name (.ofReal x))) (turns : Nat)
    (source : List Char) :
    Maintains I (fun result => ∀ v ∈ result, P v) (e.runScript turns source) := by
  refine .bind (P := fun _ => True) ?_ fun _ _ =>
    (maintains_turns he hset turns).1 _ _ fun v hv => nomatch hv
  unfold requireFirstLeast
  split
  · exact .pure trivial
  · split
    · exact .fail _ _
    · exact .pure trivial

end Invariant

/-- A script loses no variable, however far it gets. -/
lemma keeps_runScript (e : Engine) (turns : Nat) (source : List Char) :
    Keeps (e.runScript turns source) := by
  intro s
  have he : ∀ line source,
      Maintains s.context.Keeps (fun _ => True) (Run.evaluate e line source) := by
    refine fun line source s' hs' => ⟨?_, fun _ _ => trivial⟩
    rw [Run.evaluate_run]
    exact hs'.trans (e.keeps_evaluate s' source)
  exact (maintains_runScript he (fun c name x hc => hc.trans (.set c name _)) turns source s
    (.refl _)).1

end Script

/-! ### Requests -/

namespace Engine

/-- A request loses no variable. -/
lemma keeps_serve (e : Engine) (s : Script.State) (r : Request) :
    s.context.Keeps (e.serve s r).context := by
  cases r with
  | evaluate source => exact e.keeps_evaluate s source
  | runScript turns source => exact Script.keeps_runScript e turns source s
  | loadConstants text =>
    simp only [serve, Context.loadConstants]
    cases Context.readConstants 1 (Text.lines text.toList) with
    | error err => exact .refl _
    | ok constants => exact .setAll _ constants

end Engine

/-- No session loses a variable. -/
lemma Context.Leads.keeps {c c' : Context} (h : c.Leads c') : c.Keeps c' := by
  induction h with
  | refl => exact .refl c
  | serve _ e w r ih => exact ih.trans (e.keeps_serve ⟨_, w⟩ r)

namespace Engine

/-- A statement that fails leaves the context as it was. One that succeeds binds its target, if it
has one, to the value and changes no other variable, so that fresh names stay inside the evaluation.
Constants are set line by line or not at all. No session loses a variable. -/
theorem serve_context (e : Engine) (c : Context) (w : World) :
    (∀ source err w', (e.evaluate c source).run w = (.error err, w') →
        (e.serve ⟨c, w⟩ (.evaluate source)).context = c)
      ∧ (∀ source v c' w', (e.evaluate c source).run w = (.ok (v, c'), w') →
        (e.serve ⟨c, w⟩ (.evaluate source)).context = c'
          ∧ match Statement.ofText (Text.trim source) with
            | .expression _ => c' = c
            | .assignment target _ =>
              c' = c.set (String.ofList target) v ∧ c.Binds (String.ofList target) v c')
      ∧ (∀ source n, (e.serve ⟨c, w⟩ (.evaluate source)).context.get? (Substitution.scratchName n)
          ≠ c.get? (Substitution.scratchName n) →
        ∃ target expression, Statement.ofText (Text.trim source) = .assignment target expression
          ∧ Name.normalize (String.ofList target) = Substitution.scratchName n)
      ∧ (∀ text err, c.loadConstants text = .error err →
        (e.serve ⟨c, w⟩ (.loadConstants text)).context = c)
      ∧ (∀ text count c', c.loadConstants text = .ok (count, c') →
        (e.serve ⟨c, w⟩ (.loadConstants text)).context = c'
          ∧ c' = (Text.lines text.toList).foldl Context.setLine c)
      ∧ ∀ c', c.Leads c' → ∀ name, c.isBound name = true → c'.isBound name = true := by
  refine ⟨fun source err w' h => ?_, fun source v c' w' h => ?_, fun source n hne => ?_,
    fun text err h => ?_, fun text count c' h => ?_, fun c' h => ?_⟩
  · rw [serve_evaluate_error h]
  · refine ⟨by rw [serve_evaluate_ok h], ?_⟩
    have hcontext := context_of_execute (execute_of_evaluate h)
    cases hstatement : Statement.ofText (Text.trim source) with
    | expression text =>
      rw [hstatement] at hcontext
      exact hcontext
    | assignment target expression =>
      rw [hstatement] at hcontext
      exact ⟨hcontext.2, hcontext.2 ▸ c.binds_set _ v⟩
  · cases h : (e.evaluate c source).run w with
    | mk result w' =>
      cases result with
      | error err => exact absurd (by rw [serve_evaluate_error h]) hne
      | ok result =>
        obtain ⟨v, c'⟩ := result
        rw [serve_evaluate_ok h] at hne
        have hcontext := context_of_execute (execute_of_evaluate h)
        split at hcontext
        · exact absurd (by rw [hcontext]) hne
        · rename_i target expression hstatement
          refine ⟨target, expression, hstatement, ?_⟩
          by_contra hname
          rw [← Substitution.normalize_scratchName n] at hname
          exact hne (by rw [hcontext.2, Context.get?_set_of_ne c v hname])
  · simp only [serve, h]
  · refine ⟨by simp only [serve, h], ?_⟩
    cases hread : Context.readConstants 1 (Text.lines text.toList) with
    | error err =>
      rw [Context.loadConstants, hread] at h
      cases h
    | ok constants =>
      rw [Context.loadConstants, hread] at h
      cases h
      exact Context.setAll_of_readConstants hread c
  · exact h.keeps

end Engine

end Reckoner
