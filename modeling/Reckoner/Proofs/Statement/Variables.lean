import Reckoner.Proofs.Session.Requests
import Reckoner.Proofs.Statement.Names

/-!
# Reading variables

A variable can be written by an assignment, by a loop and by a line of constants. All of them take
the names of `Name.isValid`, while an expression takes only those that are read as one identifier
and are no functions. A variable that has been written can be read exactly if its name is one of
these.
-/

namespace Reckoner

namespace Script

namespace Header

variable {name start stop : List Char} {step : Option (List Char)}

lemma isValid_of_readLoop {rest : List Char}
    (h : readLoop rest = .ok (.forLoop name start stop step)) : Name.isValid name = true := by
  simp only [readLoop] at h
  split at h
  · cases h
  · split at h
    · cases h
    · split at h
      · rename_i hvalid
        simp only [Except.ok.injEq, forLoop.injEq] at h
        rwa [← h.1]
      · cases h

lemma withCondition_ne {header : List Char → Header}
    (hheader : ∀ text, header text ≠ .forLoop name start stop step) (keyword : String)
    (condition : List Char) :
    withCondition keyword header condition ≠ .ok (some (.forLoop name start stop step)) := by
  unfold withCondition
  split
  · exact nofun
  · simpa using hheader condition

/-- The variable of a loop has a name. -/
lemma isValid_of_read {text : List Char}
    (h : read text = .ok (some (.forLoop name start stop step))) : Name.isValid name = true := by
  simp only [read] at h
  split at h
  · cases h
  · rename_i body _
    split_ifs at h with hkey hfor hwhile hif helif helse
    · cases h
    · cases hread : readLoop (Text.trim (body.dropWhile Text.isAlphabetic)) with
      | error err =>
        rw [hread] at h
        cases h
      | ok header =>
        rw [hread] at h
        cases h
        exact isValid_of_readLoop hread
    · exact absurd h (withCondition_ne (by simp) _ _)
    · exact absurd h (withCondition_ne (by simp) _ _)
    · exact absurd h (withCondition_ne (by simp) _ _)
    · cases h
    · cases h

end Header

/-- The variable of a loop that has a range is no function. -/
lemma not_isFunction_of_loopRange {e : Engine} {line : Line} {name start stop : List Char}
    {step : Option (List Char)} {s s' : State} {range : Range}
    (h : (loopRange e line name start stop step).run s = (.ok range, s')) :
    e.functions.isFunction (String.ofList name) = false := by
  cases hfunction : e.functions.isFunction (String.ofList name) with
  | false => rfl
  | true =>
    simp only [loopRange, hfunction, if_true] at h
    cases h

/-- A turn of a loop binds the variable and goes on with the body. -/
lemma runFor_turn (e : Engine) (turns : Nat) (line : Line) (name : String) (range : Range)
    (body : List Item) {turn : Float} (last : Option Value) {s : State}
    (hturn : range.isPast (range.value turn) = false) (hs : s.world.cancelled = false) :
    (runFor e (turns + 1) line name range body turn last).run s
      = (do
          let produced ← runItems e turns none body
          runFor e turns line name range body (turn + 1) (produced.or last)).run
        ⟨s.context.set name (.ofReal (range.value turn)),
          s.world.record (.counted line.number name (range.value turn))⟩ := by
  have hpoll : (Run.poll line).run s = (.ok (), s) := by
    change (if s.world.cancelled then (throw (.failed ⟨line.number, .cancelled⟩) : Run Unit)
      else pure ()).run s = _
    rw [hs]
    rfl
  rw [runFor]
  simp only [hturn, Bool.false_eq_true, if_false]
  rw [Run.run_bind, hpoll]
  rfl

end Script

namespace Context

lemma isValid_of_readConstant {number : Nat} {line : List Char} {constant : String × Float}
    (h : readConstant number line = .ok constant) : Name.isValid constant.1.toList = true := by
  simp only [readConstant] at h
  split at h
  · cases h
  · split at h
    · rename_i hvalid
      split at h
      · cases h
        simpa using hvalid
      · cases h
    · cases h

/-- Constants have names. -/
lemma isValid_of_readConstants {number : Nat} {lines : List (List Char)}
    {constants : List (String × Float)} (h : readConstants number lines = .ok constants) :
    ∀ constant ∈ constants, Name.isValid constant.1.toList = true := by
  induction lines generalizing number constants with
  | nil =>
    cases h
    simp
  | cons line rest ih =>
    simp only [readConstants] at h
    split at h
    · exact ih h
    · cases hconstant : readConstant number (Text.trim line) with
      | error err =>
        rw [hconstant] at h
        cases h
      | ok constant =>
        cases hothers : readConstants (number + 1) rest with
        | error err =>
          rw [hconstant, hothers] at h
          cases h
        | ok others =>
          rw [hconstant, hothers] at h
          cases h
          exact List.forall_mem_cons.2 ⟨isValid_of_readConstant hconstant, ih hothers⟩

lemma get?_setAll_of_forall_ne {name : String} {constants : List (String × Float)}
    (h : ∀ constant ∈ constants, Name.normalize constant.1 ≠ Name.normalize name) (c : Context) :
    (c.setAll constants).get? name = c.get? name := by
  induction constants generalizing c with
  | nil => rfl
  | cons constant rest ih =>
    obtain ⟨hconstant, hrest⟩ := List.forall_mem_cons.1 h
    change ((c.set constant.1 (.ofReal constant.2)).setAll rest).get? name = _
    rw [ih hrest, get?_set_of_ne c _ hconstant]

/-- The last constant of a name counts. -/
lemma get?_setAll (c : Context) (front : List (String × Float)) (name : String) (x : Float)
    {back : List (String × Float)}
    (hback : ∀ constant ∈ back, Name.normalize constant.1 ≠ Name.normalize name) :
    (c.setAll (front ++ (name, x) :: back)).get? name = some (.ofReal x) := by
  have hsplit : c.setAll (front ++ (name, x) :: back)
      = ((c.setAll front).set name (.ofReal x)).setAll back := by
    simp only [setAll, List.foldl_append, List.foldl_cons]
  rw [hsplit, get?_setAll_of_forall_ne hback, get?_set_self]

end Context

namespace Engine

/-- Whether evaluating a name in a world gives back a value and leaves the context as it is. -/
def Reads (e : Engine) (w : World) (c : Context) (name : List Char) (v : Value) : Prop :=
  ((e.evaluate c name).run w).1 = .ok (v, c)

/-- A variable that was written by an assignment, by the header of a loop or by a line of constants
can be read in a world that does not ask to stop, exactly if its name is read as an identifier. A
constant, moreover, must not have the name of a function, which the other ways do not accept. -/
theorem reads_written_iff (e : Engine) (name : List Char) (u : World) (hu : u.cancelled = false) :
    (∀ source value c w v c' w', Statement.ofText (Text.trim source) = .assignment name value →
        (e.evaluate c source).run w = (.ok (v, c'), w') →
        (e.Reads u c' name v ↔ Name.isReadable name = true))
      ∧ (∀ (line : Script.Line) start stop step range s s₁,
        Script.Header.read line.text = .ok (some (.forLoop name start stop step)) →
        (Script.loopRange e line name start stop step).run s = (.ok range, s₁) →
        ∀ turns body turn last (s₂ : Script.State), range.isPast (range.value turn) = false →
          s₂.world.cancelled = false →
          ∃ s' : Script.State,
            (Script.runFor e (turns + 1) line (String.ofList name) range body turn last).run s₂
                = (do
                    let produced ← Script.runItems e turns none body
                    Script.runFor e turns line (String.ofList name) range body (turn + 1)
                      (produced.or last)).run s'
              ∧ s'.context = s₂.context.set (String.ofList name) (.ofReal (range.value turn))
              ∧ (e.Reads u s'.context name (.ofReal (range.value turn))
                ↔ Name.isReadable name = true))
      ∧ ∀ text front x back c count c',
        Context.readConstants 1 (Text.lines text.toList)
            = .ok (front ++ (String.ofList name, x) :: back) →
        (∀ constant ∈ back, Name.normalize constant.1 ≠ Name.normalize (String.ofList name)) →
        Context.loadConstants c text = .ok (count, c') →
        (e.Reads u c' name (.ofReal x)
          ↔ Name.isReadable name = true ∧ e.functions.isFunction (String.ofList name) = false) := by
  refine ⟨fun source value c w v c' w' hstatement hevaluate => ?_,
    fun line start stop step range s s₁ hheader hrange turns body turn last s₂ hturn hs => ?_,
    fun text front x back c count c' hread hback hload => ?_⟩
  · have hcontext := context_of_execute (execute_of_evaluate hevaluate)
    rw [hstatement] at hcontext
    obtain ⟨htarget, rfl⟩ := hcontext
    simp only [isAssignable, Bool.and_eq_true, Bool.not_eq_true'] at htarget
    rw [Reads, evaluate_name_iff htarget.1 e (Context.get?_set_self c _ v) hu]
    simp [htarget.2]
  · have hfunction := Script.not_isFunction_of_loopRange hrange
    refine ⟨_, Script.runFor_turn e turns line _ range body last hturn hs, rfl, ?_⟩
    rw [Reads, evaluate_name_iff (Script.Header.isValid_of_read hheader) e
      (Context.get?_set_self _ _ _) hu]
    simp [hfunction]
  · rw [Context.loadConstants, hread] at hload
    cases hload
    have hvalid : Name.isValid name = true := by
      have hnames := Context.isValid_of_readConstants hread (String.ofList name, x) (by simp)
      simpa using hnames
    exact evaluate_name_iff hvalid e (Context.get?_setAll c front _ x hback) hu

/-- A number that was assigned can be read. -/
theorem reads_written_iff_x :
    ∃ v c', ((({} : Engine).evaluate .empty "x = 2".toList).run {}).1 = .ok (v, c')
      ∧ ({} : Engine).Reads {} c' ['x'] v := by
  have hok : ((({} : Engine).evaluate .empty "x = 2".toList).run {}).1.isOk = true := by
    decide +kernel
  cases hrun : (({} : Engine).evaluate .empty "x = 2".toList).run {} with
  | mk result w =>
    rw [hrun] at hok
    obtain err | ⟨v, c'⟩ := result
    · cases hok
    · refine ⟨v, c', rfl, ?_⟩
      have hread := (reads_written_iff {} ['x'] {} rfl).1 "x = 2".toList ['2'] .empty {} v c' w
        (by decide +kernel) hrun
      exact hread.2 (by decide +kernel)

/-- A word that is an operator can be assigned to but not be read, and a constant with the name of a
function cannot be read either. -/
theorem exists_written_not_reads :
    (∃ v c', ((({} : Engine).evaluate .empty "and = 1".toList).run {}).1 = .ok (v, c')
        ∧ ¬ ({} : Engine).Reads {} c' ['a', 'n', 'd'] v)
      ∧ ∃ v c', Context.loadConstants .empty "sin=5" = .ok (1, c')
        ∧ c'.get? "sin" = some v ∧ ¬ ({} : Engine).Reads {} c' ['s', 'i', 'n'] v := by
  constructor
  · have hok : ((({} : Engine).evaluate .empty "and = 1".toList).run {}).1.isOk = true := by
      decide +kernel
    have hstatement : Statement.ofText (Text.trim "and = 1".toList)
        = .assignment ['a', 'n', 'd'] ['1'] := by decide +kernel
    cases hrun : (({} : Engine).evaluate .empty "and = 1".toList).run {} with
    | mk result w =>
      rw [hrun] at hok
      obtain err | ⟨v, c'⟩ := result
      · cases hok
      · refine ⟨v, c', rfl, ?_⟩
        have hcontext := context_of_execute (execute_of_evaluate hrun)
        rw [hstatement] at hcontext
        obtain ⟨-, rfl⟩ := hcontext
        rw [Reads, evaluate_name_iff (by decide +kernel) {} (Context.get?_set_self _ _ v) rfl]
        decide +kernel
  · have hget := Context.get?_set_self .empty "sin" (.ofReal 5)
    refine ⟨.ofReal 5, Context.set .empty "sin" (.ofReal 5), rfl, hget, ?_⟩
    rw [Reads, evaluate_name_iff (by decide +kernel) {} hget rfl]
    decide +kernel

end Engine

end Reckoner
