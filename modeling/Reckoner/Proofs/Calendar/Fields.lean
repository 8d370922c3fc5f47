import Reckoner.Proofs.Calendar.Shifting

/-!
# Dates and their fields

A date is made from a year, a month and a day of the month exactly if they are integers and name a
day of the Gregorian calendar in the years that there are moments for. The fields that are read off
a date are those of its day, so that they make the same date again if it is at midnight.
-/

namespace Reckoner

variable {y m d v : Value} {day : Date} {n : Int}

/-! ### Numbers -/

namespace Value

lemma toSigned32_eq_ok_iff :
    v.toReal >>= Binary64.toSigned32 = .ok n ↔ v.IsInteger n ∧ -2 ^ 31 ≤ n ∧ n < 2 ^ 31 := by
  simp only [Except.bind_eq_ok_iff, Binary64.toSigned32_eq_ok_iff, isInteger_iff, exists_and_right,
    ← and_assoc]

lemma toUnsigned32_eq_ok_iff {n : Nat} :
    v.toReal >>= Binary64.toUnsigned32 = .ok n ↔ v.IsInteger n ∧ n < 2 ^ 32 := by
  simp only [Except.bind_eq_ok_iff, Binary64.toUnsigned32_eq_ok_iff, isInteger_iff,
    exists_and_right,
    ← and_assoc]

end Value

namespace Function

/-- Whether three numbers are the fields of a day that there are moments on. -/
structure NamesDay (y m d : Value) (date : Date) : Prop where
  year : y.IsInteger date.year
  month : m.IsInteger date.month
  day : d.IsInteger date.day
  isGregorian : date.IsGregorian
  first_le : firstYear ≤ date.year
  le_last : date.year ≤ lastYear

lemma calendarDay_eq_ok_iff : calendarDay y m d = .ok day ↔ NamesDay y m d day := by
  have hcalendarDay : calendarDay y m d = (do
      let year ← y.toReal >>= Binary64.toSigned32
      let month ← m.toReal >>= Binary64.toUnsigned32
      let day ← d.toReal >>= Binary64.toUnsigned32
      if (Moment.ofFields? ⟨year, month, day⟩ ⟨0, 0, 0, 0⟩).isSome then .ok ⟨year, month, day⟩
      else .error (.invalidArgument s!"{year}-{month}-{day} is not a calendar date")) := by
    simp only [calendarDay, bind_assoc]
  have hmoment {date : Date} : (Moment.ofFields? date ⟨0, 0, 0, 0⟩).isSome = true
      ↔ date.IsGregorian ∧ firstYear ≤ date.year ∧ date.year ≤ lastYear :=
    Option.isSome_iff_exists.trans Moment.exists_ofFields?_iff
  rw [hcalendarDay]
  simp only [↓Value.toSigned32_eq_ok_iff, ↓Value.toUnsigned32_eq_ok_iff, Except.bind_eq_ok_iff]
  constructor
  · rintro ⟨year, ⟨hyear, -⟩, month, ⟨hmonth, -⟩, day, ⟨hday, -⟩, h⟩
    split_ifs at h with hvalid
    cases h
    obtain ⟨hgregorian, hfirst, hlast⟩ := hmoment.1 hvalid
    exact ⟨hyear, hmonth, hday, hgregorian, hfirst, hlast⟩
  · intro h
    obtain ⟨-, hmonth⟩ := h.isGregorian.month_bounds
    have hday := h.isGregorian.day_le.trans (Calendar.daysInMonth_le _ _)
    have hfirst := h.first_le
    have hlast := h.le_last
    rw [firstYear] at hfirst
    rw [lastYear] at hlast
    refine ⟨day.year, ⟨h.year, by omega⟩, day.month, ⟨h.month, by omega⟩, day.day,
      ⟨h.day, by omega⟩, ?_⟩
    exact if_pos (hmoment.2 ⟨h.isGregorian, h.first_le, h.le_last⟩)

lemma date_eq_ok_iff :
    date [y, m, d] = .ok v
      ↔ ∃ day a, NamesDay y m d day ∧ v = .date a ∧ a.millis = day.number * millisPerDay := by
  rw [date, Except.bind_eq_ok_iff]
  refine exists_congr fun day => ?_
  rw [calendarDay_eq_ok_iff, exists_and_left]
  refine and_congr_right fun h => ?_
  have hmoment {a : Moment} : Moment.ofFields? day ⟨0, 0, 0, 0⟩ = some a
      ↔ a.millis = day.number * millisPerDay := by
    rw [Moment.ofFields?_eq_some_iff, and_iff_right h.isGregorian]
  simp only [← hmoment, momentValue]
  cases Moment.ofFields? day ⟨0, 0, 0, 0⟩ with
  | none => simp
  | some a => simp [eq_comm]

end Function

/-! ### Reading the fields -/

namespace Value

/-- Whether the fields of a date are read off a value. -/
structure HasFields (v : Value) (date : Date) : Prop where
  year : ∃ q, Function.result? "year" [v] = some q ∧ q.IsInteger date.year
  month : ∃ q, Function.result? "month" [v] = some q ∧ q.IsInteger date.month
  day : ∃ q, Function.result? "day" [v] = some q ∧ q.IsInteger date.day

lemma hasFields_date (a : Moment) : (Value.date a).HasFields a.date := by
  have hgregorian : a.date.IsGregorian := Date.isGregorian_ofNumber a.dayNumber
  obtain ⟨-, hmonth⟩ := hgregorian.month_bounds
  have hday := hgregorian.day_le.trans (Calendar.daysInMonth_le _ _)
  have hyear : firstYear ≤ a.date.year ∧ a.date.year ≤ lastYear := a.reaches_dayNumber
  rw [firstYear, lastYear] at hyear
  constructor
  case year =>
    exact ⟨.ofReal (Binary64.ofInt a.date.year), rfl, isInteger_ofInt (by omega)⟩
  case month =>
    exact ⟨.ofReal (Binary64.ofInt a.date.month), rfl, isInteger_ofInt (by omega)⟩
  case day =>
    exact ⟨.ofReal (Binary64.ofInt a.date.day), rfl, isInteger_ofInt (by omega)⟩

end Value

namespace Function

lemma result?_date_eq_some_iff :
    result? "date" [y, m, d] = some v
      ↔ ∃ day a, NamesDay y m d day ∧ v = .date a ∧ a.millis = day.number * millisPerDay := by
  have hresult : result? "date" [y, m, d] = (date [y, m, d]).toOption := rfl
  rw [hresult, Except.toOption_eq_some_iff, date_eq_ok_iff]

/-- A date is made from three numbers exactly if they are integers that name a day of the Gregorian
calendar in the years that there are, and they are read off it again. A date has the fields of such
a day, is made from them if it is at midnight, and its successor has those of the next day. -/
theorem date_fields (y m d : Value) (a : Moment) :
    ((∃ v, result? "date" [y, m, d] = some v) ↔ ∃ day, NamesDay y m d day)
      ∧ (∀ day, NamesDay y m d day → ∃ v, result? "date" [y, m, d] = some v ∧ v.HasFields day)
      ∧ a.date.IsGregorian ∧ (Value.date a).HasFields a.date
      ∧ (a.millis % millisPerDay = 0 → ∃ y m d, result? "year" [.date a] = some y
        ∧ result? "month" [.date a] = some m ∧ result? "day" [.date a] = some d
        ∧ result? "date" [y, m, d] = some (.date a))
      ∧ ∀ v w, v.IsInteger 1 → OperatorTable.standard.apply .add (.date a) v = .ok w →
        w.HasFields a.date.next := by
  have hmake (day : Date) (h : NamesDay y m d day) :
      ∃ v, result? "date" [y, m, d] = some v ∧ v.HasFields day := by
    obtain ⟨b, hb⟩ := Moment.exists_ofFields?_iff.2 ⟨h.isGregorian, h.first_le, h.le_last⟩
    have hmillis := (Moment.ofFields?_eq_some_iff.1 hb).2
    refine ⟨.date b, result?_date_eq_some_iff.2 ⟨day, b, h, rfl, hmillis⟩, ?_⟩
    rw [← Moment.date_of_millis_eq h.isGregorian hmillis]
    exact Value.hasFields_date b
  refine ⟨⟨?_, fun ⟨day, h⟩ => ?_⟩, hmake, Date.isGregorian_ofNumber _, Value.hasFields_date a,
    ?_, ?_⟩
  · rintro ⟨v, hv⟩
    obtain ⟨day, -, h, -, -⟩ := result?_date_eq_some_iff.1 hv
    exact ⟨day, h⟩
  · obtain ⟨v, hv, -⟩ := hmake day h
    exact ⟨v, hv⟩
  · intro hmidnight
    obtain ⟨⟨y, hy, hyear⟩, ⟨m, hm, hmonth⟩, ⟨d, hd, hday⟩⟩ := Value.hasFields_date a
    obtain ⟨hfirst, hlast⟩ := a.reaches_dayNumber
    have hnames : NamesDay y m d a.date :=
      ⟨hyear, hmonth, hday, Date.isGregorian_ofNumber _, hfirst, hlast⟩
    exact ⟨y, m, d, hy, hm, hd, result?_date_eq_some_iff.2
      ⟨a.date, a, hnames, rfl, Moment.millis_of_midnight hmidnight⟩⟩
  · intro v w hv hw
    obtain ⟨b, rfl, hb⟩ := (OperatorTable.apply_add_eq_ok_iff hv).1 hw
    have hnext : b.date = a.date.next := by
      rw [Moment.date, hb.dayNumber_eq, Date.ofNumber_add_one, Moment.date]
    rw [← hnext]
    exact Value.hasFields_date b

/-- The leap day of 2024 is a date, it is made from its fields, and the day after it is the first
one of March. -/
theorem date_fields_leap_day :
    let a : Moment :=
      ⟨Date.number ⟨2024, 2, 29⟩ * 86400000, by decide +kernel, by decide +kernel⟩
    (∃ v, result? "date" [.ofReal 2024, .ofReal 2, .ofReal 29] = some v
        ∧ v.HasFields ⟨2024, 2, 29⟩)
      ∧ (∃ y m d, result? "year" [.date a] = some y ∧ result? "month" [.date a] = some m
        ∧ result? "day" [.date a] = some d ∧ result? "date" [y, m, d] = some (.date a))
      ∧ ∃ w, OperatorTable.standard.apply .add (.date a) (.ofReal 1) = .ok w
        ∧ w.HasFields ⟨2024, 3, 1⟩ := by
  intro a
  have hone : (Value.ofReal 1).IsInteger 1 := Value.isInteger_ofReal (by decide +kernel)
  have hdate : a.date = ⟨2024, 2, 29⟩ := by decide +kernel
  have hnames : NamesDay (.ofReal 2024) (.ofReal 2) (.ofReal 29) ⟨2024, 2, 29⟩ :=
    ⟨Value.isInteger_ofReal (by decide +kernel), Value.isInteger_ofReal (by decide +kernel),
      Value.isInteger_ofReal (by decide +kernel), ⟨by decide, by decide⟩, by decide, by decide⟩
  obtain ⟨-, hmake, -, -, hmidnight, hnext⟩ := date_fields (.ofReal 2024) (.ofReal 2) (.ofReal 29) a
  obtain ⟨b, hb⟩ : ∃ b, Moment.IsDaysLater 1 a b :=
    Moment.exists_isDaysLater_iff.2 ⟨by decide, by rw [Moment.Reaches]; decide +kernel⟩
  have hadd := (OperatorTable.apply_add_eq_ok_iff hone).2 ⟨b, rfl, hb⟩
  have hfields := hnext _ _ hone hadd
  rw [hdate] at hfields
  exact ⟨hmake _ hnames, hmidnight (by decide +kernel), _, hadd, hfields⟩

end Function

end Reckoner
