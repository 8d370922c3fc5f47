import Mathlib
import Reckoner.Moment

/-!
# Days by number and by fields

The number of a day and its year, month and day of the month determine each other, for all years.
The day of the next number is the next day by the rules of the Gregorian calendar: the next one of
the month, else the first one of the next month, else the first one of the next year.

There is a moment for each count of milliseconds on the days from the first year to the last one.
-/

namespace Reckoner

namespace Calendar

variable {y n : Int}

/-! ### Years -/

/-- The number of days of a year. -/
def yearLength (year : Int) : Nat :=
  if isLeap year then 366 else 365

lemma daysBeforeYear_add_one (y : Int) :
    daysBeforeYear (y + 1) = daysBeforeYear y + yearLength y := by
  simp only [daysBeforeYear, yearLength, isLeap, Bool.and_eq_true, Bool.or_eq_true, beq_iff_eq,
    bne_iff_ne]
  split_ifs <;> push_cast <;> omega

lemma daysBeforeYear_strictMono : StrictMono daysBeforeYear := by
  refine strictMono_int_of_lt_succ fun y => ?_
  rw [daysBeforeYear_add_one, yearLength]
  split_ifs <;> omega

/-- The mean length of a year tells the year of a day up to one. -/
lemma yearOfDay_bounds (n : Int) :
    daysBeforeYear (yearOfDay n) ≤ n ∧ n < daysBeforeYear (yearOfDay n + 1) := by
  simp only [yearOfDay]
  split_ifs with hlow hhigh
  · simp only [daysBeforeYear] at *
    omega
  · simp only [daysBeforeYear] at *
    omega
  · omega

lemma le_yearOfDay_iff : y ≤ yearOfDay n ↔ daysBeforeYear y ≤ n := by
  obtain ⟨hlow, hhigh⟩ := yearOfDay_bounds n
  constructor
  · exact fun h => (daysBeforeYear_strictMono.monotone h).trans hlow
  · intro h
    exact Int.lt_add_one_iff.1 (daysBeforeYear_strictMono.lt_iff_lt.1 (h.trans_lt hhigh))

lemma yearOfDay_le_iff : yearOfDay n ≤ y ↔ n < daysBeforeYear (y + 1) := by
  rw [← not_le, ← le_yearOfDay_iff, not_le, Int.lt_add_one_iff]

lemma yearOfDay_eq (hlow : daysBeforeYear y ≤ n) (hhigh : n < daysBeforeYear (y + 1)) :
    yearOfDay n = y :=
  le_antisymm (yearOfDay_le_iff.2 hhigh) (le_yearOfDay_iff.2 hlow)

/-! ### Months -/

variable {lengths : List Nat} {k l i : Nat}

/-- The month of a day is found by taking off one month after the other. -/
lemma monthOfDay_eq (hk : lengths[k]? = some l) (hi : i < l) (month : Nat) :
    monthOfDay lengths month ((lengths.take k).sum + i) = (month + k, i + 1) := by
  induction lengths generalizing k month with
  | nil => cases hk
  | cons length rest ih =>
    cases k with
    | zero =>
      cases hk
      rw [List.take_zero, List.sum_nil, zero_add, monthOfDay, if_pos hi, add_zero]
    | succ k =>
      rw [List.take_succ_cons, List.sum_cons, add_assoc, monthOfDay, if_neg (by omega),
        Nat.add_sub_cancel_left, ih hk, add_right_comm, add_assoc]

lemma exists_month (hi : i < lengths.sum) :
    ∃ k l j, lengths[k]? = some l ∧ j < l ∧ i = (lengths.take k).sum + j := by
  induction lengths generalizing i with
  | nil => exact absurd hi (Nat.not_lt_zero i)
  | cons length rest ih =>
    by_cases hlt : i < length
    · exact ⟨0, length, i, rfl, hlt, (zero_add i).symm⟩
    · rw [List.sum_cons] at hi
      obtain ⟨k, l, j, hk, hj, hsum⟩ := ih (i := i - length) (by omega)
      refine ⟨k + 1, l, j, hk, hj, ?_⟩
      rw [List.take_succ_cons, List.sum_cons]
      omega

lemma sum_take_add_one (hk : lengths[k]? = some l) :
    (lengths.take (k + 1)).sum = (lengths.take k).sum + l := by
  rw [List.take_add_one, hk, List.sum_append]
  rfl

lemma sum_take_add_le (hk : lengths[k]? = some l) : (lengths.take k).sum + l ≤ lengths.sum := by
  have hsplit := List.sum_take_add_sum_drop lengths (k + 1)
  rw [sum_take_add_one hk] at hsplit
  omega

lemma sum_monthLengths (y : Int) : (monthLengths y).sum = yearLength y := by
  rw [monthLengths, yearLength]
  split_ifs <;> rfl

lemma daysBeforeMonth_eq (y : Int) (k : Nat) :
    daysBeforeMonth y (k + 1) = ((monthLengths y).take k).sum := by
  rw [daysBeforeMonth, List.sum_eq_foldl, Nat.add_sub_cancel]

/-! ### The rules of the calendar -/

/-- The number of days of a month by the rules of the Gregorian calendar. A month that there is not
has none. -/
def daysInMonth (year : Int) : Nat → Nat
  | 1 | 3 | 5 | 7 | 8 | 10 | 12 => 31
  | 4 | 6 | 9 | 11 => 30
  | 2 => if 4 ∣ year ∧ (100 ∣ year → 400 ∣ year) then 29 else 28
  | _ => 0

lemma isLeap_iff (y : Int) : isLeap y = true ↔ 4 ∣ y ∧ (100 ∣ y → 400 ∣ y) := by
  simp only [isLeap, Bool.and_eq_true, Bool.or_eq_true, beq_iff_eq, bne_iff_ne]
  omega

lemma monthLengths_eq (y : Int) :
    monthLengths y = (List.range 12).map fun k => daysInMonth y (k + 1) := by
  simp only [monthLengths, isLeap_iff]
  rfl

lemma getElem?_monthLengths (y : Int) (hk : k < 12) :
    (monthLengths y)[k]? = some (daysInMonth y (k + 1)) := by
  rw [monthLengths_eq, List.getElem?_map, List.getElem?_range hk]
  rfl

lemma daysInMonth_pos_iff {month : Nat} : 0 < daysInMonth y month ↔ 1 ≤ month ∧ month ≤ 12 := by
  unfold daysInMonth
  split
  case h_12 => split_ifs <;> decide
  case h_13 =>
    -- none of the twelve
    grind
  all_goals decide

lemma daysInMonth_le (y : Int) (month : Nat) : daysInMonth y month ≤ 31 := by
  unfold daysInMonth
  split
  case h_12 => split_ifs <;> decide
  all_goals decide

end Calendar

namespace Date

open Calendar

variable {d : Date}

/-- Whether a day is one of the Gregorian calendar. -/
structure IsGregorian (d : Date) : Prop where
  one_le_day : 1 ≤ d.day
  day_le : d.day ≤ daysInMonth d.year d.month

lemma IsGregorian.month_bounds (h : d.IsGregorian) : 1 ≤ d.month ∧ d.month ≤ 12 :=
  daysInMonth_pos_iff.1 (h.one_le_day.trans h.day_le)

lemma isValid_iff : d.isValid = true ↔ d.IsGregorian := by
  have hmatch (hmonth : 1 ≤ d.month ∧ d.month ≤ 12) :
      (monthLengths d.year)[d.month - 1]? = some (daysInMonth d.year d.month) := by
    rw [getElem?_monthLengths d.year (by omega), Nat.sub_add_cancel hmonth.1]
  constructor
  · intro h
    simp only [isValid, Bool.and_eq_true, decide_eq_true_eq] at h
    obtain ⟨⟨hmonth, hday⟩, h⟩ := h
    by_cases hlast : d.month ≤ 12
    · rw [hmatch ⟨hmonth, hlast⟩] at h
      exact ⟨hday, of_decide_eq_true h⟩
    · rw [monthLengths_eq, List.getElem?_eq_none (by simp; omega)] at h
      cases h
  · intro h
    simp only [isValid, hmatch h.month_bounds, Bool.and_eq_true, decide_eq_true_eq]
    exact ⟨⟨h.month_bounds.1, h.one_le_day⟩, h.day_le⟩

/-! ### Round trips -/

lemma number_eq (y : Int) (k i : Nat) :
    number ⟨y, k + 1, i + 1⟩ = daysBeforeYear y + (((monthLengths y).take k).sum + i : Nat) := by
  rw [number, daysBeforeMonth_eq]
  push_cast
  ring

/-- A day of the calendar is a month and a day of it, both counted from zero. -/
lemma IsGregorian.exists_eq (h : d.IsGregorian) :
    ∃ y k i, k < 12 ∧ i < daysInMonth y (k + 1) ∧ d = ⟨y, k + 1, i + 1⟩ := by
  obtain ⟨hfirst, hlast⟩ := h.month_bounds
  refine ⟨d.year, d.month - 1, d.day - 1, by omega, ?_, ?_⟩
  · rw [Nat.sub_add_cancel hfirst]
    exact Nat.sub_one_lt_of_le h.one_le_day h.day_le
  · rw [Nat.sub_add_cancel hfirst, Nat.sub_add_cancel h.one_le_day]

lemma ofNumber_eq {y : Int} {k i : Nat} (hk : k < 12) (hi : i < daysInMonth y (k + 1)) :
    ofNumber (daysBeforeYear y + (((monthLengths y).take k).sum + i : Nat)) = ⟨y, k + 1,
      i + 1⟩ := by
  have hmonth := getElem?_monthLengths y hk
  have hlength := sum_take_add_le hmonth
  rw [sum_monthLengths] at hlength
  have hyear : yearOfDay (daysBeforeYear y + (((monthLengths y).take k).sum + i : Nat)) = y := by
    refine yearOfDay_eq (by omega) ?_
    rw [daysBeforeYear_add_one]
    omega
  rw [ofNumber, hyear, add_sub_cancel_left, Int.toNat_natCast, monthOfDay_eq hmonth hi]
  simp only [Nat.add_comm 1 k]

/-- The fields of a day are read off its number. -/
lemma ofNumber_number (h : d.IsGregorian) : ofNumber d.number = d := by
  obtain ⟨y, k, i, hk, hi, rfl⟩ := h.exists_eq
  rw [number_eq, ofNumber_eq hk hi]

/-- Each number is that of a day. -/
lemma exists_number_eq (n : Int) : ∃ d : Date, d.IsGregorian ∧ d.number = n := by
  obtain ⟨hlow, hhigh⟩ := yearOfDay_bounds n
  rw [daysBeforeYear_add_one, ← sum_monthLengths] at hhigh
  have hday : (n - daysBeforeYear (yearOfDay n)).toNat < (monthLengths (yearOfDay n)).sum := by
    omega
  obtain ⟨k, l, j, hk, hj, hsum⟩ := exists_month hday
  have hlt : k < 12 := by
    have hbound := (List.getElem?_eq_some_iff.1 hk).1
    rwa [monthLengths_eq, List.length_map, List.length_range] at hbound
  rw [getElem?_monthLengths _ hlt, Option.some.injEq] at hk
  refine ⟨⟨yearOfDay n, k + 1, j + 1⟩, ⟨Nat.succ_pos j, hk ▸ hj⟩, ?_⟩
  rw [number_eq, ← hsum]
  omega

lemma isGregorian_ofNumber (n : Int) : (ofNumber n).IsGregorian := by
  obtain ⟨d, hd, rfl⟩ := exists_number_eq n
  rwa [ofNumber_number hd]

lemma number_ofNumber (n : Int) : (ofNumber n).number = n := by
  obtain ⟨d, hd, rfl⟩ := exists_number_eq n
  rw [ofNumber_number hd]

lemma year_ofNumber (n : Int) : (ofNumber n).year = yearOfDay n :=
  rfl

/-! ### The next day -/

/-- The day after a day. -/
def next (d : Date) : Date :=
  if d.day < daysInMonth d.year d.month then { d with day := d.day + 1 }
  else if d.month < 12 then ⟨d.year, d.month + 1, 1⟩
  else ⟨d.year + 1, 1, 1⟩

lemma next_isGregorian (h : d.IsGregorian) : d.next.IsGregorian := by
  obtain ⟨-, hlast⟩ := h.month_bounds
  unfold next
  split_ifs with hday hmonth
  · exact ⟨Nat.le_add_left 1 d.day, hday⟩
  · exact ⟨le_rfl, daysInMonth_pos_iff.2 ⟨Nat.le_add_left 1 d.month, hmonth⟩⟩
  · exact ⟨le_rfl, daysInMonth_pos_iff.2 ⟨Nat.le_refl 1, Nat.le_add_left 1 11⟩⟩

lemma number_next (h : d.IsGregorian) : d.next.number = d.number + 1 := by
  obtain ⟨y, k, i, hk, hi, rfl⟩ := h.exists_eq
  have hmonth := sum_take_add_one (getElem?_monthLengths y hk)
  have hlast (hi' : ¬ i + 1 < daysInMonth y (k + 1)) : daysInMonth y (k + 1) = i + 1 := by omega
  simp only [next]
  split_ifs with hday hnext
  · rw [number_eq, number_eq]
    push_cast
    ring
  · -- the first day of the next month
    rw [number_eq y (k + 1) 0, number_eq, hmonth, hlast hday]
    push_cast
    ring
  · -- the first day of the next year
    obtain rfl : k = 11 := by omega
    have hyear : ((monthLengths y).take (11 + 1)).sum = yearLength y := by
      rw [← sum_monthLengths, monthLengths_eq]
      rfl
    rw [number_eq (y + 1) 0 0, number_eq, daysBeforeYear_add_one, ← hyear, hmonth, hlast hday,
      List.take_zero, List.sum_nil]
    push_cast
    ring

/-- The next number is that of the next day. -/
lemma ofNumber_add_one (n : Int) : ofNumber (n + 1) = (ofNumber n).next := by
  obtain ⟨d, hd, rfl⟩ := exists_number_eq n
  rw [ofNumber_number hd, ← number_next hd, ofNumber_number (next_isGregorian hd)]

end Date

/-! ### Moments -/

namespace Moment

open Calendar (yearOfDay)

variable {a b : Moment} {k : Int}

lemma eq_of_millis_eq (h : a.millis = b.millis) : a = b := by
  cases a
  cases b
  cases h
  rfl

lemma ofMillis?_eq_some_iff : ofMillis? k = some a ↔ a.millis = k := by
  rw [ofMillis?]
  split_ifs with h
  · rw [Option.some.injEq]
    exact ⟨fun ha => ha ▸ rfl, fun ha => eq_of_millis_eq ha.symm⟩
  · refine iff_of_false nofun ?_
    rintro rfl
    exact h ⟨a.first_le, a.lt_last⟩

/-- Whether the calendar of moments reaches to a day. -/
def Reaches (day : Int) : Prop :=
  firstYear ≤ (Date.ofNumber day).year ∧ (Date.ofNumber day).year ≤ lastYear

lemma reaches_iff : Reaches (k / millisPerDay) ↔ ∃ a : Moment, a.millis = k := by
  have hpos : 0 < millisPerDay := by decide
  have hbounds : Reaches (k / millisPerDay)
      ↔ Calendar.daysBeforeYear firstYear * millisPerDay ≤ k
        ∧ k < Calendar.daysBeforeYear (lastYear + 1) * millisPerDay := by
    rw [Reaches, Date.year_ofNumber, Calendar.le_yearOfDay_iff, Calendar.yearOfDay_le_iff,
      Int.le_ediv_iff_mul_le hpos, Int.ediv_lt_iff_lt_mul hpos]
  rw [hbounds]
  constructor
  · exact fun h => ⟨⟨k, h.1, h.2⟩, rfl⟩
  · rintro ⟨a, rfl⟩
    exact ⟨a.first_le, a.lt_last⟩

/-- A day of the calendar begins with a moment of its own. -/
lemma ofFields?_eq_some_iff {d : Date} :
    ofFields? d ⟨0, 0, 0, 0⟩ = some a ↔ d.IsGregorian ∧ a.millis = d.number * millisPerDay := by
  have htime : (⟨0, 0, 0, 0⟩ : TimeOfDay).isValid = true := by decide
  have hmillis : ((⟨0, 0, 0, 0⟩ : TimeOfDay).millis : Int) = 0 := by decide
  rw [ofFields?, htime, Bool.and_true, hmillis, add_zero, ← Date.isValid_iff]
  split_ifs with hvalid
  · rw [ofMillis?_eq_some_iff, and_iff_right hvalid]
  · exact iff_of_false nofun fun h => hvalid h.1

lemma exists_ofFields?_iff {d : Date} :
    (∃ a, ofFields? d ⟨0, 0, 0, 0⟩ = some a)
      ↔ d.IsGregorian ∧ firstYear ≤ d.year ∧ d.year ≤ lastYear := by
  simp only [ofFields?_eq_some_iff, exists_and_left]
  refine and_congr_right fun h => ?_
  rw [← reaches_iff, Int.mul_ediv_cancel _ (by decide), Reaches, Date.ofNumber_number h]

lemma reaches_dayNumber (a : Moment) : Reaches a.dayNumber :=
  reaches_iff.2 ⟨a, rfl⟩

lemma date_of_millis_eq {d : Date} (hd : d.IsGregorian) (h : a.millis = d.number * millisPerDay) :
    a.date = d := by
  rw [date, dayNumber, h, Int.mul_ediv_cancel _ (by decide), Date.ofNumber_number hd]

lemma millis_of_midnight (h : a.millis % millisPerDay = 0) :
    a.millis = a.date.number * millisPerDay := by
  rw [date, Date.number_ofNumber, dayNumber, Int.ediv_mul_cancel_of_emod_eq_zero h]

end Moment

end Reckoner
