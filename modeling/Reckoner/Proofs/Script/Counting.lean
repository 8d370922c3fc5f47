import Reckoner.Proofs.Binary64.Integers
import Reckoner.Proofs.Script.Tasks
import Reckoner.Proofs.Statement.Variables

/-!
# Counting loops over integers

The number of a turn is multiplied by the step and added to the first bound with one rounding, so
that a loop over integers counts exactly: it takes each of them in turn, however the body changes
the variable, and ends early only where the body fails or the flag is set.
-/

namespace Reckoner

namespace Script

open Binary64 (toInt?)

/-! ### Ranges of integers -/

/-- How many integers there are from the first to the last in steps. -/
def turnCount (first last step : Int) : Nat :=
  (Int.fdiv (last - first) step + 1).toNat

lemma lt_turnCount_iff (first last : Int) {step : Int} (hstep : step ≠ 0) (k : Nat) :
    k < turnCount first last step
      ↔ ¬ (0 < step ∧ last < first + k * step ∨ step < 0 ∧ first + k * step < last) := by
  have hcount : k < turnCount first last step ↔ (k : Int) ≤ Int.fdiv (last - first) step := by
    rw [turnCount]
    omega
  rw [hcount]
  rcases hstep.lt_or_gt with hneg | hpos
  · rw [← Int.neg_fdiv_neg, Int.fdiv_eq_ediv_of_nonneg _ (by omega),
      Int.le_ediv_iff_mul_le (by omega), mul_neg]
    omega
  · rw [Int.fdiv_eq_ediv_of_nonneg _ hpos.le, Int.le_ediv_iff_mul_le hpos]
    omega

namespace Range

/-- Whether the bounds and the step of a range are integers that are far from the greatest ones that
are doubles. -/
structure IsIntegral (r : Range) (first last step : Int) : Prop where
  first_eq : toInt? r.first = some first
  last_eq : toInt? r.last = some last
  step_eq : toInt? r.step = some step
  step_ne_zero : step ≠ 0
  first_le : first.natAbs ≤ 2 ^ 51
  last_le : last.natAbs ≤ 2 ^ 51
  step_le : step.natAbs ≤ 2 ^ 51

/-- The numbers of so many turns from one on. -/
def values (r : Range) (turn : Float) : Nat → List Float
  | 0 => []
  | count + 1 => r.value turn :: r.values (turn + 1) count

namespace IsIntegral

variable {r : Range} {first last step : Int} {k : Nat} {turn : Float}

lemma natAbs_lt (h : r.IsIntegral first last step) (hk : k ≤ turnCount first last step) :
    (step * k + first).natAbs < 2 ^ 53 := by
  have hfirst := h.first_le
  have hlast := h.last_le
  have hstep := h.step_le
  cases k with
  | zero => simpa using hfirst.trans_lt (by decide)
  | succ j =>
    have hlt := (lt_turnCount_iff first last h.step_ne_zero j).1 hk
    have hproduct : step * (j + 1 : Nat) = j * step + step := by
      push_cast
      ring
    rw [hproduct]
    rcases h.step_ne_zero.lt_or_gt with hneg | hpos
    · have hle : j * step ≤ 0 := Int.mul_nonpos_of_nonneg_of_nonpos (by omega) hneg.le
      generalize (j : Int) * step = p at *
      omega
    · have hle : 0 ≤ j * step := Int.mul_nonneg (by omega) hpos.le
      generalize (j : Int) * step = p at *
      omega

lemma turnCount_lt (h : r.IsIntegral first last step) : turnCount first last step < 2 ^ 53 := by
  have hfirst := h.first_le
  have hlast := h.last_le
  by_contra hge
  have hlt := (lt_turnCount_iff first last h.step_ne_zero (2 ^ 53 - 1)).1
    (by omega)
  rcases h.step_ne_zero.lt_or_gt with hneg | hpos <;> omega

/-- The number of a turn is exact, also that of the first one that is not taken. -/
lemma value_eq (h : r.IsIntegral first last step) (hk : k ≤ turnCount first last step)
    (hturn : toInt? turn = some (k : Int)) : toInt? (r.value turn) = some (first + k * step) := by
  rw [Range.value, Binary64.toInt?_fusedMulAdd h.step_eq hturn h.first_eq (h.natAbs_lt hk).le,
    add_comm,
    mul_comm]

lemma isPast_value (h : r.IsIntegral first last step) (hk : k ≤ turnCount first last step)
    (hturn : toInt? turn = some (k : Int)) :
    r.isPast (r.value turn) = decide (k = turnCount first last step) := by
  have hvalue := h.value_eq hk hturn
  have hzero : toInt? 0 = some 0 := rfl
  have hlt := lt_turnCount_iff first last h.step_ne_zero k
  have hpast : r.isPast (r.value turn) = true
      ↔ 0 < step ∧ last < first + k * step ∨ step < 0 ∧ first + k * step < last := by
    simp only [Range.isPast, Bool.or_eq_true, Bool.and_eq_true, decide_eq_true_eq, gt_iff_lt,
      Binary64.lt_iff_of_toInt? hzero h.step_eq, Binary64.lt_iff_of_toInt? h.step_eq hzero,
      Binary64.lt_iff_of_toInt? h.last_eq hvalue, Binary64.lt_iff_of_toInt? hvalue h.last_eq]
  rw [Bool.eq_iff_iff, hpast, decide_eq_true_eq, ← not_iff_not, ← hlt]
  omega

lemma next_turn (h : r.IsIntegral first last step) (hk : k < turnCount first last step)
    (hturn : toInt? turn = some (k : Int)) : toInt? (turn + 1) = some ((k + 1 : Nat) : Int) := by
  have hcount := h.turnCount_lt
  exact Binary64.toInt?_add hturn (b := 1) rfl (by omega)

/-- A loop over integers counts them in order. -/
lemma values_eq (h : r.IsIntegral first last step) {count : Nat}
    (hturn : toInt? turn = some (k : Int)) (hcount : k + count = turnCount first last step) :
    (r.values turn count).map toInt?
      = (List.range' k count).map fun k : Nat => some (first + k * step) := by
  induction count generalizing k turn with
  | zero => rfl
  | succ count ih =>
    rw [values, List.map_cons, List.range'_succ, List.map_cons, h.value_eq (by omega) hturn,
      ih (h.next_turn (by omega) hturn) (by omega)]

end IsIntegral

end Range

/-! ### Turns -/

section

variable {e : Engine} {line : Line} {name : String} {body : List Item} {last : Option Value}
  {s s' : State} {result : Result}

/-- The state in which the body of a loop starts: the variable has its number. -/
def State.count (s : State) (line : Line) (name : String) (x : Float) : State :=
  ⟨s.context.set name (.ofReal x), s.world.record (.counted line.number name x)⟩

/-- Whether a state is the one in which the body of a loop starts: the variable has its number, all
other variables have the values that they had before, and the turn is noted. -/
structure State.Counts (s : State) (line : Line) (name : String) (x : Float)
    (t : State) : Prop where
  context_eq : t.context = s.context.set name (.ofReal x)
  binds : s.context.Binds name (.ofReal x) t.context
  world_eq : t.world = s.world.record (.counted line.number name x)

lemma State.counts_iff {line : Line} {name : String} {x : Float} {s t : State} :
    s.Counts line name x t ↔ t = s.count line name x := by
  constructor
  · rintro ⟨hcontext, -, hworld⟩
    rw [State.count, ← hcontext, ← hworld]
  · rintro rfl
    exact ⟨rfl, s.context.binds_set name _, rfl⟩

/-- Whether a body that is run for one number after the other comes to a result. It is not run any
more once it fails or the flag is set; the last value that was produced counts. -/
inductive Iterates (e : Engine) (line : Line) (name : String) (body : List Item) :
    List Float → Option Value → State → Result → State → Prop
  | done {last : Option Value} {s : State} : Iterates e line name body [] last s (.ok last) s
  | cancelled {x : Float} {xs : List Float} {last : Option Value} {s : State}
      (hs : s.world.cancelled = true) :
      Iterates e line name body (x :: xs) last s (.error ⟨line.number, .cancelled⟩) s
  | failed {x : Float} {xs : List Float} {last : Option Value} {s t s' : State} {err : ScriptError}
      (hs : s.world.cancelled = false) (hstart : s.Counts line name x t)
      (hbody : Ends (fun turns => runItems e turns none body) t (.error err) s') :
      Iterates e line name body (x :: xs) last s (.error err) s'
  | next {x : Float} {xs : List Float} {last produced : Option Value} {s t s₁ s' : State}
      {result : Result} (hs : s.world.cancelled = false) (hstart : s.Counts line name x t)
      (hbody : Ends (fun turns => runItems e turns none body) t (.ok produced) s₁)
      (hrest : Iterates e line name body xs (produced.or last) s₁ result s') :
      Iterates e line name body (x :: xs) last s result s'

/-- A part that begins with a turn comes to the end that it comes to behind it. -/
lemma ends_succ_iff {α : Type} {x y : Nat → Run α} {s t s' : State} {result : Except ScriptError α}
    (hzero : x 0 = throw .exhausted) (h : ∀ turns, (x (turns + 1)).run s = (y turns).run t) :
    Ends x s result s' ↔ Ends y t result s' := by
  constructor
  · rintro ⟨turns, hrun⟩
    cases turns with
    | zero =>
      rw [hzero] at hrun
      cases result <;> cases hrun
    | succ turns => exact ⟨turns, h turns ▸ hrun⟩
  · rintro ⟨turns, hrun⟩
    exact ⟨turns + 1, (h turns).trans hrun⟩

/-- A part with an answer of its own comes to that. -/
lemma ends_iff_of_run {α : Type} {x : Nat → Run α} {s t s' : State}
    {answer result : Except ScriptError α} (hzero : x 0 = throw .exhausted)
    (h : ∀ turns, (x (turns + 1)).run s = (answer.mapError .failed, t)) :
    Ends x s result s' ↔ result = answer ∧ s' = t := by
  constructor
  · rintro ⟨turns, hrun⟩
    cases turns with
    | zero =>
      rw [hzero] at hrun
      cases result <;> cases hrun
    | succ turns =>
      rw [h turns] at hrun
      have heq : (answer, t) = (result, s') := Outcome.eq_of_toRun _ hrun
      cases heq
      exact ⟨rfl, rfl⟩
  · rintro ⟨rfl, rfl⟩
    exact ⟨1, h 0⟩

lemma ends_runFor_past {range : Range} {turn : Float}
    (h : range.isPast (range.value turn) = true) :
    Ends (fun turns => runFor e turns line name range body turn last) s result s'
      ↔ result = .ok last ∧ s' = s := by
  refine ends_iff_of_run (by rw [runFor]) fun turns => ?_
  rw [runFor]
  simp only [h, if_true]
  rfl

lemma ends_runFor_cancelled {range : Range} {turn : Float}
    (h : range.isPast (range.value turn) = false) (hs : s.world.cancelled = true) :
    Ends (fun turns => runFor e turns line name range body turn last) s result s'
      ↔ result = .error ⟨line.number, .cancelled⟩ ∧ s' = s := by
  refine ends_iff_of_run (by rw [runFor]) fun turns => ?_
  rw [runFor]
  simp only [h, Bool.false_eq_true, if_false]
  rw [Run.run_bind, Run.run_poll, hs]
  rfl

lemma ends_runFor_turn {range : Range} {turn : Float}
    (h : range.isPast (range.value turn) = false) (hs : s.world.cancelled = false) :
    Ends (fun turns => runFor e turns line name range body turn last) s result s'
      ↔ (∃ err, result = .error err ∧ Ends (fun turns => runItems e turns none body)
            (s.count line name (range.value turn)) (.error err) s')
        ∨ ∃ produced s₁, Ends (fun turns => runItems e turns none body)
              (s.count line name (range.value turn)) (.ok produced) s₁
            ∧ Ends (fun turns => runFor e turns line name range body (turn + 1) (produced.or last))
              s₁ result s' := by
  rw [ends_succ_iff (by rw [runFor]) fun turns => runFor_turn e turns line name range body last h
    hs,
    State.count]
  exact ends_bind (.items e none body) fun produced => .forLoop e line name range body _ _

lemma iterates_cons_iff {x : Float} {xs : List Float} :
    Iterates e line name body (x :: xs) last s result s'
      ↔ s.world.cancelled = true ∧ result = .error ⟨line.number, .cancelled⟩ ∧ s' = s
        ∨ s.world.cancelled = false
          ∧ ((∃ err, result = .error err ∧ Ends (fun turns => runItems e turns none body)
                (s.count line name x) (.error err) s')
            ∨ ∃ produced s₁, Ends (fun turns => runItems e turns none body)
                  (s.count line name x) (.ok produced) s₁
                ∧ Iterates e line name body xs (produced.or last) s₁ result s') := by
  constructor
  · intro h
    cases h with
    | cancelled hs => exact .inl ⟨hs, rfl, rfl⟩
    | failed hs hstart hbody =>
      exact .inr ⟨hs, .inl ⟨_, rfl, State.counts_iff.1 hstart ▸ hbody⟩⟩
    | next hs hstart hbody hrest =>
      exact .inr ⟨hs, .inr ⟨_, _, State.counts_iff.1 hstart ▸ hbody, hrest⟩⟩
  · rintro (⟨hs, rfl, rfl⟩ | ⟨hs, ⟨err, rfl, hbody⟩ | ⟨produced, s₁, hbody, hrest⟩⟩)
    · exact .cancelled hs
    · exact .failed hs (State.counts_iff.2 rfl) hbody
    · exact .next hs (State.counts_iff.2 rfl) hbody hrest

/-- A loop over integers runs its body for the numbers that are left. -/
lemma Range.IsIntegral.ends_runFor_iff {range : Range} {a b c : Int} (h : range.IsIntegral a b c)
    {k count : Nat} {turn : Float} (hturn : toInt? turn = some (k : Int))
    (hcount : k + count = turnCount a b c) :
    Ends (fun turns => runFor e turns line name range body turn last) s result s'
      ↔ Iterates e line name body (range.values turn count) last s result s' := by
  induction count generalizing k turn last s with
  | zero =>
    have hpast : range.isPast (range.value turn) = true := by
      rw [h.isPast_value (by omega) hturn, decide_eq_true_eq, ← hcount]
      rfl
    rw [ends_runFor_past hpast]
    constructor
    · rintro ⟨rfl, rfl⟩
      exact .done
    · rintro ⟨⟩
      exact ⟨rfl, rfl⟩
  | succ count ih =>
    have hpast : range.isPast (range.value turn) = false := by
      rw [h.isPast_value (by omega) hturn, decide_eq_false_iff_not]
      omega
    rw [Range.values, iterates_cons_iff]
    cases hs : s.world.cancelled with
    | true => simp [ends_runFor_cancelled hpast hs]
    | false =>
      simp only [ends_runFor_turn hpast hs, ih (h.next_turn (by omega) hturn) (by omega)]
      simp

end

/-! ### Loops -/

lemma andThen_ok {α β : Type} (a : α) (s : State) (next : α → State → Outcome β) :
    Outcome.andThen (.ok a, s) next = next a s :=
  rfl

/-- The bounds of a loop whose variable is no function are evaluated in order. -/
lemma askRange_eq_ok {e : Engine} {line : Line} {name start stop : List Char}
    {step : Option (List Char)} {x y z : Float} {a b c : Int} {s s₁ s₂ s₃ : State}
    (hfunction : e.functions.isFunction (String.ofList name) = false)
    (hstart : ask e line Value.toReal start s = (.ok x, s₁))
    (hstop : ask e line Value.toReal stop s₁ = (.ok y, s₂))
    (hstep : step.elim (.ok 1, s₂) (ask e line Value.toReal · s₂) = (.ok z, s₃))
    (hrange : (Range.mk x y z).IsIntegral a b c) :
    askRange e line name start stop step s = (.ok ⟨x, y, z⟩, s₃) := by
  obtain ⟨hx, -⟩ := Binary64.toInt?_eq_some_iff.1 hrange.first_eq
  obtain ⟨hy, -⟩ := Binary64.toInt?_eq_some_iff.1 hrange.last_eq
  obtain ⟨hz, hvalue⟩ := Binary64.toInt?_eq_some_iff.1 hrange.step_eq
  have hfinite : (!x.isFinite || !y.isFinite || !z.isFinite) = false := by
    change (!(Binary64.view x).isFinite || !(Binary64.view y).isFinite
      || !(Binary64.view z).isFinite) = false
    rw [hx, hy, hz]
    rfl
  have hzero : (z == 0) = false := by
    rw [Binary64.beq_zero, Bool.eq_false_iff]
    intro hisZero
    rw [Binary64.value_of_isZero hisZero, eq_comm, Int.cast_eq_zero] at hvalue
    exact hrange.step_ne_zero hvalue
  rw [askRange, hfunction, if_neg Bool.false_ne_true, hstart, andThen_ok, hstop, andThen_ok]
  cases step with
  | none =>
    cases hstep
    rw [andThen_ok, hfinite, if_neg Bool.false_ne_true, hzero, if_neg Bool.false_ne_true]
  | some source =>
    rw [Option.elim_some] at hstep
    dsimp only
    rw [hstep, andThen_ok, hfinite, if_neg Bool.false_ne_true, hzero, if_neg Bool.false_ne_true]

/-- A loop over integers whose bounds are evaluated without a failure runs its body for each of them
in turn, unless the body fails or the flag is set, and goes on behind the loop. -/
theorem ends_forLoop_iff (e : Engine) (item : Item) (rest : List Item) (name start stop : List Char)
    (step : Option (List Char)) (x y z : Float) (a b c : Int) (s s₁ s₂ s₃ : State)
    (hread : Header.read item.line.text = .ok (some (.forLoop name start stop step)))
    (hfunction : e.functions.isFunction (String.ofList name) = false) (hbody : item.body ≠ [])
    (hstart : ask e item.line Value.toReal start s = (.ok x, s₁))
    (hstop : ask e item.line Value.toReal stop s₁ = (.ok y, s₂))
    (hstep : step.elim (.ok 1, s₂) (ask e item.line Value.toReal · s₂) = (.ok z, s₃))
    (hrange : (Range.mk x y z).IsIntegral a b c) :
    ∃ xs : List Float,
      xs.map toInt? = (List.range (turnCount a b c)).map (fun k : Nat => some (a + k * c))
      ∧ ∀ (last : Option Value) (result : Result) (s' : State),
        Ends (fun turns => runItems e turns last (item :: rest)) s result s'
          ↔ (∃ err, result = .error err
              ∧ Iterates e item.line (String.ofList name) item.body xs none s₃ (.error err) s')
            ∨ ∃ produced s₄,
              Iterates e item.line (String.ofList name) item.body xs none s₃ (.ok produced) s₄
              ∧ Ends (fun turns => runItems e turns (produced.or last) rest) s₄ result s' := by
  have hrun (turns : Nat) (last : Option Value) :
      (runItems e (turns + 1) last (item :: rest)).run s
        = (runFor e turns item.line (String.ofList name) ⟨x, y, z⟩ item.body 0 none
            >>= fun produced => runItems e turns (produced.or last) rest).run s₃ := by
    have hs : s.world.cancelled = false := by
      rw [← Bool.not_eq_true]
      intro hs
      rw [ask_of_cancelled _ _ _ hs] at hstart
      cases hstart
    have hheader : Run.header item.line = pure (some (.forLoop name start stop step)) := by
      rw [Run.header, hread]
    have hrequire : requireBody item = pure () := by
      rw [requireBody, if_neg (by simpa using hbody)]
    have hloop := (run_loopRange (e := e) item.line name start stop step s).trans
      (congrArg Outcome.toRun (askRange_eq_ok hfunction hstart hstop hstep hrange))
    rw [runItems_cons, runItem, bind_assoc, run_poll_bind hs, hheader]
    simp only [pure_bind, hrequire, bind_assoc]
    exact run_bind_of_toRun hloop
  have hzero : toInt? 0 = some ((0 : Nat) : Int) := rfl
  refine ⟨(Range.mk x y z).values 0 (turnCount a b c), ?_, fun last result s' => ?_⟩
  · rw [hrange.values_eq hzero (Nat.zero_add _), List.range_eq_range']
  · rw [ends_succ_iff (by rw [runItems]) fun turns => hrun turns last,
      ends_bind (.forLoop ..) fun produced => .items ..]
    simp only [hrange.ends_runFor_iff hzero (Nat.zero_add _)]

/-- A loop that counts down past its last bound, with a body that writes its variable. -/
theorem ends_forLoop_iff_down :
    let item : Item := .mk ⟨1, 0, "for k = 10 to 2 step -3:".toList⟩
      [.mk ⟨2, 1, "k = 20 * k".toList⟩ []]
    let s : State := ⟨.empty, {}⟩
    ∃ xs s₃, xs.map toInt? = [some 10, some 7, some 4]
      ∧ ∀ (last : Option Value) (result : Result) (s' : State),
        Ends (fun turns => runItems {} turns last [item]) s result s'
          ↔ (∃ err, result = .error err
              ∧ Iterates {} item.line "k" item.body xs none s₃ (.error err) s')
            ∨ ∃ produced s₄, Iterates {} item.line "k" item.body xs none s₃ (.ok produced) s₄
              ∧ Ends (fun turns => runItems {} turns (produced.or last) []) s₄ result s' := by
  intro item s
  have hask (outcome : Outcome Float) {x : Float} (h : outcome.1.toOption = some x) :
      outcome = (.ok x, outcome.2) :=
    Prod.ext (Except.toOption_eq_some_iff.1 h) rfl
  have hread : Header.read item.line.text = .ok (some (.forLoop ['k'] ['1', '0'] ['2']
      (some ['-', '3']))) := by
    rw [← Except.toOption_eq_some_iff]
    decide +kernel
  have hstart := hask (ask {} item.line Value.toReal ['1', '0'] s) (x := 10) (by decide +kernel)
  generalize hs₁ : (ask {} item.line Value.toReal ['1', '0'] s).2 = s₁ at hstart
  have hstop := hask (ask {} item.line Value.toReal ['2'] s₁) (x := 2) (by
    subst hs₁
    decide +kernel)
  generalize hs₂ : (ask {} item.line Value.toReal ['2'] s₁).2 = s₂ at hstop
  have hstep := hask (ask {} item.line Value.toReal ['-', '3'] s₂) (x := -3) (by
    subst hs₂ hs₁
    decide +kernel)
  have hrange : (Range.mk 10 2 (-3)).IsIntegral 10 2 (-3) := by
    constructor <;> decide +kernel
  obtain ⟨xs, hxs, hends⟩ := ends_forLoop_iff {} item [] ['k'] ['1', '0'] ['2'] (some ['-', '3'])
    10 2 (-3) 10 2 (-3) s s₁ s₂ _ hread (by decide +kernel) (List.cons_ne_nil _ _)
    hstart hstop hstep hrange
  exact ⟨xs, _, hxs, hends⟩

end Script

end Reckoner
