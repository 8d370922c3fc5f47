import Reckoner.Proofs.Binary64.SafeIntegers
import Reckoner.Proofs.Calendar.Numbering
import Reckoner.Proofs.Function.Agreement
import Reckoner.Proofs.Operator.Reals

/-!
# Arithmetic with whole days

A date is shifted by a whole number of days without loss, as long as the milliseconds of these days
are a safe integer and the calendar reaches so far. The days come back as the difference of the two
dates, and they decide how the dates are ordered.
-/

namespace Reckoner

open Binary64 (toInt? maxSafe)

/-! ### Moments that are days apart -/

namespace Moment

variable {a b d : Moment} {m n : Int}

/-- Whether a moment is so many days after another one, and these days are safe in milliseconds. -/
structure IsDaysLater (n : Int) (a d : Moment) : Prop where
  safe : (n * millisPerDay).natAbs ≤ maxSafe
  millis_eq : d.millis = a.millis + n * millisPerDay

lemma IsDaysLater.neg (h : IsDaysLater n a d) : IsDaysLater (-n) d a where
  safe := by
    rw [neg_mul, Int.natAbs_neg]
    exact h.safe
  millis_eq := by
    rw [h.millis_eq, neg_mul, add_neg_cancel_right]

lemma IsDaysLater.millis_eq_add (h : IsDaysLater n a b) (h' : IsDaysLater m b d) :
    d.millis = a.millis + (n + m) * millisPerDay := by
  rw [h'.millis_eq, h.millis_eq, add_mul, add_assoc]

lemma IsDaysLater.dayNumber_eq (h : IsDaysLater n a d) : d.dayNumber = a.dayNumber + n := by
  rw [dayNumber, h.millis_eq, Int.add_mul_ediv_right _ _ (by decide), dayNumber]

/-- Some ten million days are safe in milliseconds. -/
lemma IsDaysLater.natAbs_le (h : IsDaysLater n a d) : n.natAbs ≤ 2 ^ 27 := by
  have hsafe := h.safe
  rw [maxSafe, millisPerDay, Nat.pow_eq] at hsafe
  omega

lemma exists_isDaysLater_iff :
    (∃ d, IsDaysLater n a d) ↔ (n * millisPerDay).natAbs ≤ maxSafe ∧ Reaches (a.dayNumber + n) := by
  have hday : a.dayNumber + n = (a.millis + n * millisPerDay) / millisPerDay := by
    rw [dayNumber, Int.add_mul_ediv_right _ _ (by decide)]
  rw [hday, reaches_iff]
  constructor
  · rintro ⟨d, h⟩
    exact ⟨h.safe, d, h.millis_eq⟩
  · rintro ⟨hsafe, d, hd⟩
    exact ⟨d, hsafe, hd⟩

end Moment

open Moment (IsDaysLater)

/-! ### The operators on moments -/

namespace Operator

variable {a d : Moment} {n : Int} {x : Float}

lemma toInt?_dayLength : toInt? dayLength = some millisPerDay := by
  decide +kernel

lemma shiftDays_eq_ok_iff (hx : toInt? x = some n) : shiftDays a x = .ok d ↔ IsDaysLater n a d := by
  have hmillis {k : Int} := Binary64.toIntChecked_round_mul_eq_ok_iff (n := k) hx toInt?_dayLength
  rw [shiftDays, Except.bind_eq_ok_iff]
  constructor
  · rintro ⟨k, hk, hshift⟩
    obtain ⟨rfl, hsafe⟩ := hmillis.1 hk
    split at hshift
    case h_1 shifted hsome =>
      cases hshift
      exact ⟨hsafe, Moment.ofMillis?_eq_some_iff.1 hsome⟩
    case h_2 => cases hshift
  · intro h
    have hsome : a.shift? (n * millisPerDay) = some d :=
      Moment.ofMillis?_eq_some_iff.2 h.millis_eq
    refine ⟨n * millisPerDay, hmillis.2 ⟨rfl, h.safe⟩, ?_⟩
    rw [hsome]

/-- The quotient of two safe integers is exact if it is an integer itself. -/
lemma daysBetween_of_isDaysLater (h : IsDaysLater n a d) :
    ∃ x, daysBetween d a = .ok x ∧ toInt? x = some n := by
  have hdifference : d.millis - a.millis = n * millisPerDay := by
    rw [h.millis_eq, add_sub_cancel_left]
  have hint : toInt? (Binary64.ofInt (n * millisPerDay)) = some (n * millisPerDay) :=
    Binary64.toInt?_ofInt (h.safe.trans (by decide))
  refine ⟨Binary64.ofInt (n * millisPerDay) / dayLength, ?_, ?_⟩
  · rw [daysBetween, hdifference, Binary64.ofIntChecked, if_pos h.safe]
    rfl
  · exact Binary64.toInt?_div hint toInt?_dayLength (by decide) (h.natAbs_le.trans (by decide))

end Operator

/-! ### The operators and functions of the language -/

namespace Value

variable {v w u : Value} {m n : Int}

lemma IsInteger.add (hv : v.IsInteger m) (hw : w.IsInteger n) (hm : m.natAbs ≤ 2 ^ 27)
    (hn : n.natAbs ≤ 2 ^ 27) (h : OperatorTable.standard.apply .add v w = .ok u) :
    u.IsInteger (m + n) := by
  obtain ⟨z, rfl, hz⟩ := hv
  obtain ⟨y, rfl, hy⟩ := hw
  cases h
  exact ⟨z + y, rfl, Complex.isReal_add hz.1 hy.1, Binary64.toInt?_add hz.2 hy.2 (by omega)⟩

end Value

namespace OperatorTable

variable {a d : Moment} {v w u : Value} {m n : Int}

/-- A number that is an integer shifts a date by this number of days, from either side. -/
lemma apply_shift (a : Moment) (hv : v.IsInteger n) :
    ∃ x, toInt? x = some n
      ∧ standard.apply .add (.date a) v = (Operator.shiftDays a x).map .date
      ∧ standard.apply .add v (.date a) = (Operator.shiftDays a x).map .date
      ∧ standard.apply .sub (.date a) v = (Operator.shiftDays a (-x)).map .date := by
  obtain ⟨x, hx, hn⟩ := Value.isInteger_iff.1 hv
  obtain ⟨z, rfl, -⟩ := hv
  have hadd : standard.apply .add (.date a) (.scalar z) = addDays (.date a) (.scalar z) := rfl
  have hadd' : standard.apply .add (.scalar z) (.date a) = daysAfter (.scalar z) (.date a) := rfl
  have hsub : standard.apply .sub (.date a) (.scalar z) = subtractDays (.date a) (.scalar z) := rfl
  refine ⟨x, hn, ?_, ?_, ?_⟩
  · rw [hadd, addDays, hx]
    rfl
  · rw [hadd', daysAfter, hx]
    rfl
  · rw [hsub, subtractDays, hx]
    rfl

lemma apply_add_eq_ok_iff (hv : v.IsInteger n) :
    standard.apply .add (.date a) v = .ok u ↔ ∃ d, u = .date d ∧ IsDaysLater n a d := by
  obtain ⟨x, hx, hadd, -, -⟩ := apply_shift a hv
  rw [hadd, Except.map_eq_ok_iff]
  simp only [Operator.shiftDays_eq_ok_iff hx, and_comm, eq_comm]

/-- What the language tells of a date and of the date that is `n` days later, and `v` is `n`. -/
structure IsShift (v : Value) (n : Int) (a d : Value) : Prop where
  difference : ∃ q, standard.apply .sub d a = .ok q ∧ q.IsInteger n
  days : ∃ q, Function.result? "days" [a, d] = some q ∧ q.IsInteger n
  add_left : standard.apply .add v a = .ok d
  sub : standard.apply .sub d v = .ok a
  weekday : ∃ p q k, Function.result? "weekday" [a] = some p ∧ p.IsInteger k
    ∧ Function.result? "weekday" [d] = some q ∧ q.IsInteger ((k - 1 + n) % 7 + 1)
  less : standard.apply .less d a = .ok (.ofBool (n < 0))
  equal : standard.apply .equal d a = .ok (.ofBool (n = 0))
  greater : standard.apply .greater d a = .ok (.ofBool (0 < n))

lemma isShift_of_isDaysLater (hv : v.IsInteger n) (h : IsDaysLater n a d) :
    IsShift v n (.date a) (.date d) := by
  have hmillis : d.millis = a.millis + n * 86400000 := h.millis_eq
  obtain ⟨x, hx, hn⟩ := Operator.daysBetween_of_isDaysLater h
  constructor
  case difference =>
    refine ⟨.ofReal x, ?_, Value.isInteger_ofReal hn⟩
    have happly : standard.apply .sub (.date d) (.date a) = daysBetween (.date d) (.date a) := rfl
    rw [happly, daysBetween]
    simp only [Value.toMoment, bind, Except.bind, hx]
    rfl
  case days =>
    refine ⟨.ofReal x, ?_, Value.isInteger_ofReal hn⟩
    have hdays : Function.result? "days" [.date a, .date d]
        = (Function.days (.date a) (.date d)).toOption := rfl
    rw [hdays, Function.days]
    simp only [Value.toMoment, bind, Except.bind, hx]
    rfl
  case add_left =>
    obtain ⟨y, hy, -, hadd, -⟩ := apply_shift a hv
    rw [hadd, (Operator.shiftDays_eq_ok_iff hy).2 h]
    rfl
  case sub =>
    obtain ⟨y, hy, -, -, hsub⟩ := apply_shift d hv
    rw [hsub, (Operator.shiftDays_eq_ok_iff (Binary64.toInt?_neg hy)).2 h.neg]
    rfl
  case weekday =>
    have hweekday (b : Moment) : Function.result? "weekday" [.date b]
        = some (.ofReal (Binary64.ofInt (Date.weekday b.dayNumber))) := rfl
    have hint (k : Int) : (Value.ofReal (Binary64.ofInt (Date.weekday k))).IsInteger (k % 7 + 1) :=
      Value.isInteger_ofInt (n := k % 7 + 1) (by omega)
    refine ⟨_, _, _, hweekday a, hint _, hweekday d, ?_⟩
    convert hint d.dayNumber using 2
    rw [h.dayNumber_eq, add_sub_cancel_right, Int.emod_add_emod]
  case less =>
    have hless : d.millis < a.millis ↔ n < 0 := by omega
    exact congrArg (fun b => Except.ok (Value.ofBool b)) (decide_eq_decide.2 hless)
  case equal =>
    have hequal : d.millis = a.millis ↔ n = 0 := by omega
    exact congrArg (fun b => Except.ok (Value.ofBool b)) (decide_eq_decide.2 hequal)
  case greater =>
    have hgreater : a.millis < d.millis ↔ 0 < n := by omega
    exact congrArg (fun b => Except.ok (Value.ofBool b)) (decide_eq_decide.2 hgreater)

/-- A date is shifted by whole days if their milliseconds are a safe integer and the calendar
reaches so far, and then the days are those between the two dates. Two shifts are one by the sum of
the days, where all of them succeed. -/
theorem apply_add_days (a : Moment) (hv : v.IsInteger n) :
    ((∃ u, standard.apply .add (.date a) v = .ok u)
        ↔ (n * 86400000).natAbs ≤ 2 ^ 53 - 1 ∧ Moment.Reaches (a.dayNumber + n))
      ∧ ∀ u, standard.apply .add (.date a) v = .ok u → IsShift v n (.date a) u
        ∧ ∀ w m, w.IsInteger m → ∀ s x y, standard.apply .add u w = .ok x →
          standard.apply .add v w = .ok s → standard.apply .add (.date a) s = .ok y → x = y := by
  constructor
  · have hexists : (∃ u, standard.apply .add (.date a) v = .ok u) ↔ ∃ d, IsDaysLater n a d := by
      simp only [apply_add_eq_ok_iff hv]
      exact ⟨fun ⟨u, d, _, hd⟩ => ⟨d, hd⟩, fun ⟨d, hd⟩ => ⟨.date d, d, rfl, hd⟩⟩
    rw [hexists, Moment.exists_isDaysLater_iff, maxSafe, millisPerDay, Nat.pow_eq]
  · intro u hu
    obtain ⟨d, rfl, hd⟩ := (apply_add_eq_ok_iff hv).1 hu
    refine ⟨isShift_of_isDaysLater hv hd, ?_⟩
    intro w m hw s x y hx hs hy
    obtain ⟨b, rfl, hb⟩ := (apply_add_eq_ok_iff hw).1 hx
    have hsum := Value.IsInteger.add hv hw hd.natAbs_le hb.natAbs_le hs
    obtain ⟨c, rfl, hc⟩ := (apply_add_eq_ok_iff hsum).1 hy
    rw [Moment.eq_of_millis_eq ((hd.millis_eq_add hb).trans hc.millis_eq.symm)]

/-- Noon of 1 March 2024 is shifted back by a day, to the leap day. A number of days with more than
`2 ^ 53 - 1` milliseconds is too great for any date. -/
theorem apply_add_days_leap :
    let a : Moment :=
      ⟨Date.number ⟨2024, 3, 1⟩ * 86400000 + 43200000, by decide +kernel, by decide +kernel⟩
    let v : Value := .ofReal (-1)
    let w : Value := .ofReal 104249992
    (v.IsInteger (-1) ∧ Date.ofNumber (a.dayNumber + -1) = ⟨2024, 2, 29⟩
      ∧ ∃ u, standard.apply .add (.date a) v = .ok u ∧ IsShift v (-1) (.date a) u)
      ∧ w.IsInteger 104249992 ∧ ¬ ∃ u, standard.apply .add (.date a) w = .ok u := by
  intro a v w
  have hv : v.IsInteger (-1) := Value.isInteger_ofReal (by decide +kernel)
  have hw : w.IsInteger 104249992 := Value.isInteger_ofReal (by decide +kernel)
  have hdate : Date.ofNumber (a.dayNumber + -1) = ⟨2024, 2, 29⟩ := by decide +kernel
  have hreaches : Moment.Reaches (a.dayNumber + -1) := by
    rw [Moment.Reaches, hdate]
    decide
  obtain ⟨hexists, hshift⟩ := apply_add_days a hv
  obtain ⟨u, hu⟩ := hexists.2 ⟨by decide, hreaches⟩
  refine ⟨⟨hv, hdate, u, hu, (hshift u hu).1⟩, hw, fun h => ?_⟩
  exact absurd ((apply_add_days a hw).1.1 h).1 (by decide)

end OperatorTable

end Reckoner
