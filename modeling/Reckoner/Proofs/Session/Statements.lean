import Mathlib.Tactic.Lemma
import Reckoner.Proofs.Program.Tree
import Reckoner.Script.Run

/-!
# Statements of a session

A session works on one context. What a statement does to it keeps every variable that has a value,
and a block of constants sets the names of its lines.
-/

namespace Reckoner

/-- What can be asked of a session. -/
inductive Request where
  | evaluate (source : List Char)
  /-- A script, run for at most so many turns. -/
  | runScript (turns : Nat) (source : List Char)
  | loadConstants (text : String)

/-- The session after a request. -/
def Engine.serve (e : Engine) (s : Script.State) : Request → Script.State
  | .evaluate source =>
    match (e.evaluate s.context source).run s.world with
    | (.ok (_, context), world) => ⟨context, world⟩
    | (.error _, world) => ⟨s.context, world⟩
  | .runScript turns source => ((e.runScript turns source).run s).2
  | .loadConstants text =>
    match s.context.loadConstants text with
    | .ok (_, context) => { s with context }
    | .error _ => s

/-! ### Contexts that lose nothing -/

namespace Context

/-- Whether every variable of a context has a value in another one. -/
def Keeps (c c' : Context) : Prop :=
  ∀ name, c.isBound name = true → c'.isBound name = true

namespace Keeps

variable {c c' c'' : Context}

lemma refl (c : Context) : c.Keeps c :=
  fun _ h => h

lemma trans (h : c.Keeps c') (h' : c'.Keeps c'') : c.Keeps c'' :=
  fun name hname => h' name (h name hname)

lemma set (c : Context) (name : String) (v : Value) : c.Keeps (c.set name v) := by
  intro name' hname'
  by_cases hsame : Name.normalize name = Name.normalize name'
  · rw [isBound, get?, ← hsame]
    change ((c.set name v).get? name).isSome = true
    rw [get?_set_self]
    rfl
  · rwa [isBound, get?_set_of_ne c v hsame]

lemma setAll (c : Context) (constants : List (String × Float)) : c.Keeps (c.setAll constants) := by
  induction constants generalizing c with
  | nil => exact refl c
  | cons constant rest ih => exact (set c constant.1 _).trans (ih _)

end Keeps

/-- A context that a session can come to from another one. The engine and the world may be others at
each request: the host may replace functions, set the flag and take it back. -/
inductive Leads (c : Context) : Context → Prop where
  | refl : Leads c c
  | serve {c' : Context} (h : Leads c c') (e : Engine) (w : World) (r : Request) :
    Leads c (e.serve ⟨c', w⟩ r).context

/-! ### Constants -/

/-- The context after the constant on a line. -/
def setLine (c : Context) (line : List Char) : Context :=
  let text := Text.trim line
  if text.isEmpty || text.head? == some '#' then c
  else
    match Text.cutAt? ['='] text with
    | none => c
    | some (name, value) =>
      match Decimal.read (Text.trim value) with
      | none => c
      | some x => c.set (String.ofList (Text.trim name)) (.ofReal x)

lemma setLine_of_readConstant {number : Nat} {line : List Char} {constant : String × Float}
    (hline : ((Text.trim line).isEmpty || (Text.trim line).head? == some '#') = false)
    (h : readConstant number (Text.trim line) = .ok constant) (c : Context) :
    c.setLine line = c.set constant.1 (.ofReal constant.2) := by
  simp only [readConstant] at h
  cases hcut : Text.cutAt? ['='] (Text.trim line) with
  | none =>
    simp only [hcut] at h
    cases h
  | some parts =>
    obtain ⟨left, right⟩ := parts
    simp only [hcut] at h
    split at h
    · cases hread : Decimal.read (Text.trim right) with
      | none =>
        rw [hread] at h
        cases h
      | some x =>
        rw [hread] at h
        cases h
        simp only [setLine, hline, hcut, hread]
        rfl
    · cases h

/-- Constants that can be read are set line by line. -/
lemma setAll_of_readConstants {number : Nat} {lines : List (List Char)}
    {constants : List (String × Float)} (h : readConstants number lines = .ok constants)
    (c : Context) : c.setAll constants = lines.foldl setLine c := by
  induction lines generalizing number constants c with
  | nil =>
    cases h
    rfl
  | cons line rest ih =>
    simp only [readConstants] at h
    split at h
    · rename_i hskip
      have hline : c.setLine line = c := by simp only [setLine, hskip, if_true]
      rw [List.foldl_cons, hline]
      exact ih h c
    · rename_i hskip
      cases hconstant : readConstant number (Text.trim line) with
      | error err =>
        rw [hconstant] at h
        cases h
      | ok constant =>
        cases hothers : readConstants (number + 1) rest with
        | error err =>
          rw [hconstant, hothers] at h
          cases h
        | ok others =>
          rw [hconstant, hothers] at h
          cases h
          rw [List.foldl_cons, setLine_of_readConstant (by simpa using hskip) hconstant]
          exact ih hothers _

end Context

/-! ### Scripts -/

namespace Script.Run

variable {α β : Type}

lemma run_bind (x : Run α) (f : α → Run β) (s : State) :
    (x >>= f).run s
      = match x.run s with
        | (.ok a, s) => (f a).run s
        | (.error e, s) => (.error e, s) := by
  change (match x.run s with | (r, s) => (ExceptT.bindCont f r) s) = _
  rcases x.run s with ⟨r, s'⟩
  cases r <;> rfl

/-- Whether a run keeps an invariant of the context, however it ends, and its result has a
property. -/
def Maintains (I : Context → Prop) (P : α → Prop) (x : Run α) : Prop :=
  ∀ s : State, I s.context → I (x.run s).2.context ∧ ∀ a, (x.run s).1 = .ok a → P a

namespace Maintains

variable {I : Context → Prop} {P : α → Prop} {Q : β → Prop}

lemma pure {a : α} (ha : P a) : Maintains I P (Pure.pure a) := by
  refine fun s hs => ⟨hs, fun b hb => ?_⟩
  cases hb
  exact ha

lemma throw (stop : Stop) : Maintains I P (MonadExcept.throw stop : Run α) := by
  refine fun s hs => ⟨hs, fun a ha => ?_⟩
  cases ha

lemma bind {x : Run α} {f : α → Run β} (hx : Maintains I P x)
    (hf : ∀ a, P a → Maintains I Q (f a)) :
    Maintains I Q (x >>= f) := by
  intro s hs
  obtain ⟨hcontext, hresult⟩ := hx s hs
  rw [run_bind]
  generalize x.run s = outcome at hcontext hresult
  obtain ⟨stop | a, s'⟩ := outcome
  · refine ⟨hcontext, fun b hb => ?_⟩
    cases hb
  · exact hf a (hresult a rfl) s' hcontext

lemma fail (line : Line) (error : EvalError) : Maintains I P (Run.fail line error : Run α) :=
  throw _

/-- A check before the rest of a run. -/
lemma guard {p : Prop} [Decidable p] (line : Line) (error : EvalError) {f : Unit → Run α}
    (hf : Maintains I P (f ())) :
    Maintains I P (if p then Run.fail line error >>= f else f ()) := by
  split
  · exact bind (P := fun _ => True) (fail line error) fun _ _ => hf
  · exact hf

lemma poll (line : Line) : Maintains I (fun _ => True) (Run.poll line) := by
  intro s hs
  have hrun : (Run.poll line).run s
      = ((if s.world.cancelled then MonadExcept.throw (.failed ⟨line.number, .cancelled⟩)
          else Pure.pure ()) : Run Unit).run s := rfl
  rw [hrun]
  split
  · exact throw _ s hs
  · exact pure trivial s hs

lemma note (e : Event) : Maintains I (fun _ => True) (Run.note e) :=
  fun _ hs => ⟨hs, fun _ _ => trivial⟩

lemma ofValue (line : Line) (r : Except RuntimeError α) :
    Maintains I (fun _ => True) (Run.ofValue line r) := by
  cases r with
  | ok a => exact pure trivial
  | error error => exact fail line _

lemma header (line : Line) : Maintains I (fun _ => True) (Run.header line) := by
  unfold Run.header
  cases Header.read line.text with
  | ok h => exact pure trivial
  | error error => exact fail line _

end Maintains

/-- Whether a run loses no variable, however it ends. -/
def Keeps (x : Run α) : Prop :=
  ∀ s : State, s.context.Keeps (x.run s).2.context

end Script.Run

/-! ### Statements -/

namespace Engine

variable {e : Engine} {c c' : Context} {source text : List Char} {v : Value} {w w' : World}

/-- The result of a statement is that of its text without the blanks around it. -/
lemma evaluate_run (e : Engine) (c : Context) (source : List Char) (w : World) :
    (e.evaluate c source).run w
      = (((e.execute c (Text.trim source)).run w).1.mapError
            (.ofEval (String.ofList (Text.trim source))),
          ((e.execute c (Text.trim source)).run w).2) :=
  rfl

lemma execute_of_ne_nil (htext : text ≠ []) :
    e.execute c text
      = (do
          Eval.poll
          match Statement.ofText text with
          | .expression text => return (← e.evaluateExpression c text, c)
          | .assignment target expression =>
            if e.isAssignable target then
              let v ← e.evaluateExpression c expression
              Eval.note (.assigned (String.ofList target) v)
              return (v, c.set (String.ofList target) v)
            else throw (.parse (.invalidTarget (String.ofList target)))) := by
  have hempty : text.isEmpty = false := by simpa using htext
  simp only [execute, hempty]
  rfl

lemma execute_nil (e : Engine) (c : Context) :
    e.execute c [] = (do Eval.poll; throw (.parse .emptyExpression)) :=
  rfl

/-- A statement that succeeds is an expression, which leaves the context as it is, or an assignment,
which binds its target to the value. -/
lemma context_of_execute (h : (e.execute c text).run w = (.ok (v, c'), w')) :
    match Statement.ofText text with
    | .expression _ => c' = c
    | .assignment target _ =>
      e.isAssignable target = true ∧ c' = c.set (String.ofList target) v := by
  by_cases htext : text = []
  · rw [htext, execute_nil] at h
    obtain ⟨-, w₁, -, h⟩ := Eval.exists_of_bind h
    cases h
  · rw [execute_of_ne_nil htext] at h
    obtain ⟨-, w₁, -, h⟩ := Eval.exists_of_bind h
    split at h
    · obtain ⟨v', w₂, -, h⟩ := Eval.exists_of_bind h
      cases h
      rfl
    · rename_i target expression hstatement
      split at h
      · rename_i htarget
        obtain ⟨v', w₂, -, h⟩ := Eval.exists_of_bind h
        obtain ⟨-, w₃, -, h⟩ := Eval.exists_of_bind h
        cases h
        exact ⟨htarget, rfl⟩
      · cases h

lemma execute_of_evaluate (h : (e.evaluate c source).run w = (.ok (v, c'), w')) :
    (e.execute c (Text.trim source)).run w = (.ok (v, c'), w') := by
  rw [evaluate_run] at h
  generalize (e.execute c (Text.trim source)).run w = outcome at h
  obtain ⟨err | result, w₁⟩ := outcome
  · cases h
  · cases h
    rfl

lemma serve_evaluate_ok (h : (e.evaluate c source).run w = (.ok (v, c'), w')) :
    e.serve ⟨c, w⟩ (.evaluate source) = ⟨c', w'⟩ := by
  simp only [serve, h]

lemma serve_evaluate_error {err : StatementError}
    (h : (e.evaluate c source).run w = (.error err, w')) :
    e.serve ⟨c, w⟩ (.evaluate source) = ⟨c, w'⟩ := by
  simp only [serve, h]

/-- A statement loses no variable. -/
lemma keeps_evaluate (e : Engine) (s : Script.State) (source : List Char) :
    s.context.Keeps (e.serve s (.evaluate source)).context := by
  obtain ⟨c, w⟩ := s
  cases h : (e.evaluate c source).run w with
  | mk result w' =>
    cases result with
    | error err =>
      rw [serve_evaluate_error h]
      exact .refl c
    | ok result =>
      obtain ⟨v, c'⟩ := result
      rw [serve_evaluate_ok h]
      have hcontext := context_of_execute (execute_of_evaluate h)
      split at hcontext
      · exact hcontext ▸ .refl c
      · exact hcontext.2 ▸ .set c _ v

end Engine

end Reckoner
