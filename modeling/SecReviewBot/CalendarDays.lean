import SecReviewBot.Calendars

/-!
# Days of the calendar

A date of the calendar is found again by the number of its day, so the days of a month
follow one another and the first of the next month follows the last. The calendar repeats
after 400 years, weekdays included.
-/

namespace Calendars

/-- Sunday is zero. -/
def weekday (day : Nat) : Nat := (day + 1) % 7

/-- The days of 400 years. -/
def cycleDays : Nat := 146097

theorem weekday_cycle (day : Nat) : weekday (day + cycleDays) = weekday day := by
  rw [weekday, weekday, cycleDays]
  omega

theorem weekday_week (day : Nat) : weekday (day + 7) = weekday day := by
  rw [weekday, weekday]
  omega

theorem leapYear_iff (year : Nat) :
    leapYear year = true ↔ 4 ∣ year ∧ (¬ 100 ∣ year ∨ 400 ∣ year) := by
  simp [leapYear, Nat.dvd_iff_mod_eq_zero]

theorem daysBefore_succ (years : Nat) :
    daysBefore (years + 1) = daysBefore years + 365 + if leapYear (years + 1) then 1 else 0 := by
  have fewer : years / 100 ≤ years / 4 := Nat.div_le_div_left (by decide) (by decide)
  have hundreds : 100 ∣ years + 1 → 4 ∣ years + 1 := Nat.dvd_trans (by decide)
  have cycles : 400 ∣ years + 1 → 100 ∣ years + 1 := Nat.dvd_trans (by decide)
  simp only [daysBefore, leapYear_iff, Nat.succ_div]
  generalize years / 4 = quads at *
  generalize years / 100 = centuries at *
  by_cases fourth : 4 ∣ years + 1 <;> by_cases hundredth : 100 ∣ years + 1 <;>
    by_cases last : 400 ∣ years + 1 <;> simp only [fourth, hundredth, last, if_true, if_false,
      not_true, not_false_eq_true, or_true, or_false, true_and, false_and] at hundreds cycles ⊢ <;>
    omega

theorem daysBefore_mono {first second : Nat} (le : first ≤ second) :
    daysBefore first ≤ daysBefore second := by
  induction second, le using Nat.le_induction with
  | base => exact Nat.le_refl _
  | succ years _ ih =>
    rw [daysBefore_succ]
    omega

/-- The year of a day is the one between whose ends the day lies. -/
theorem completedYears_eq {years days : Nat} (low : daysBefore years ≤ days)
    (high : days < daysBefore (years + 1)) : completedYears days = years := by
  obtain ⟨own, next⟩ := daysBefore_completedYears days
  rw [← daysBefore_succ] at next
  by_contra other
  rcases Nat.lt_or_gt_of_ne other with before | behind
  · have := daysBefore_mono (show completedYears days + 1 ≤ years from before)
    omega
  · have := daysBefore_mono (show years + 1 ≤ completedYears days from behind)
    omega

theorem splitMonths_eq {lengths : List Nat} {index length day : Nat}
    (found : lengths[index]? = some length) (inside : day < length) :
    splitMonths lengths (totalDays (lengths.take index) + day) = (index, day) := by
  induction lengths generalizing index with
  | nil => simp at found
  | cons first rest ih =>
    cases index with
    | zero =>
      simp only [List.getElem?_cons_zero, Option.some.injEq] at found
      rw [List.take_zero, totalDays, Nat.zero_add, splitMonths, if_pos (by omega)]
    | succ index =>
      have later := ih (by simpa using found)
      rw [List.take_succ_cons, totalDays, splitMonths, if_neg (by omega),
        show first + totalDays (rest.take index) + day - first =
          totalDays (rest.take index) + day by omega, later]

/-- The length of a month. -/
def monthLength (year month : Nat) : Nat := ((monthLengths year)[month - 1]?).getD 0

theorem monthLength_le (year month : Nat) : monthLength year month ≤ 31 := by
  rw [monthLength]
  cases found : (monthLengths year)[month - 1]? with
  | none => exact Nat.zero_le _
  | some length =>
    have mem := List.mem_of_getElem? found
    simp only [monthLengths, List.mem_cons, List.not_mem_nil, or_false] at mem
    rw [Option.getD_some]
    split at mem <;> omega

theorem le_monthLength {year month : Nat} (first : 1 ≤ month) (last : month ≤ 12) :
    28 ≤ monthLength year month := by
  rw [monthLength]
  cases found : (monthLengths year)[month - 1]? with
  | none =>
    rw [List.getElem?_eq_none_iff] at found
    have twelve : (monthLengths year).length = 12 := rfl
    omega
  | some length =>
    have mem := List.mem_of_getElem? found
    simp only [monthLengths, List.mem_cons, List.not_mem_nil, or_false] at mem
    rw [Option.getD_some]
    split at mem <;> omega

theorem valid_iff (date : CivilDate) : date.valid = true ↔
    1 ≤ date.year ∧ 1 ≤ date.month ∧ 1 ≤ date.day ∧ date.day ≤ monthLength date.year date.month := by
  rw [CivilDate.valid, monthLength]
  cases found : (monthLengths date.year)[date.month - 1]? with
  | none => simp; omega
  | some length => simp [and_assoc]

theorem totalDays_take_lt {lengths : List Nat} {index length : Nat}
    (found : lengths[index]? = some length) :
    totalDays (lengths.take index) + length ≤ totalDays lengths := by
  induction lengths generalizing index with
  | nil => simp at found
  | cons first rest ih =>
    cases index with
    | zero =>
      simp only [List.getElem?_cons_zero, Option.some.injEq] at found
      rw [List.take_zero, totalDays, totalDays]
      omega
    | succ index =>
      have later := ih (by simpa using found)
      rw [List.take_succ_cons, totalDays, totalDays]
      omega

/-- A date of the calendar is found by the number of its day. -/
theorem civilDate_dayNumber {date : CivilDate} (valid : date.valid = true) :
    civilDate (dayNumber date) = date := by
  obtain ⟨year, month, day⟩ := date
  obtain ⟨someYear, someMonth, someDay, within⟩ := (valid_iff _).mp valid
  simp only [monthLength] at someYear someMonth someDay within
  cases found : (monthLengths year)[month - 1]? with
  | none =>
    rw [found, Option.getD_none] at within
    omega
  | some length =>
    rw [found, Option.getD_some] at within
    have inYear := totalDays_take_lt found
    rw [monthLengths_sum] at inYear
    have next := daysBefore_succ (year - 1)
    rw [show year - 1 + 1 = year by omega] at next
    have years : completedYears (dayNumber { year, month, day }) = year - 1 := by
      refine completedYears_eq ?_ ?_
      · simp only [dayNumber]
        omega
      · rw [show year - 1 + 1 = year by omega]
        simp only [dayNumber]
        omega
    have split := splitMonths_eq found (show day - 1 < length by omega)
    rw [civilDate]
    simp only [years, Nat.add_sub_cancel]
    rw [show year - 1 + 1 = year by omega, show dayNumber { year, month, day } -
      daysBefore (year - 1) = totalDays ((monthLengths year).take (month - 1)) + (day - 1) by
        simp only [dayNumber]; omega, split, CivilDate.mk.injEq]
    omega

/-- Later in the month. -/
theorem civilDate_add {day later : Nat}
    (within : later ≤ monthLength (civilDate day).year (civilDate day).month)
    (after : (civilDate day).day ≤ later) :
    civilDate (day + (later - (civilDate day).day)) = { civilDate day with day := later } := by
  obtain ⟨someYear, someMonth, someDay, _⟩ := (valid_iff _).mp (civilDate_valid day)
  have valid : ({ civilDate day with day := later } : CivilDate).valid = true :=
    (valid_iff _).mpr ⟨someYear, someMonth, Nat.le_trans someDay after, within⟩
  have number : dayNumber { civilDate day with day := later } =
      day + (later - (civilDate day).day) := by
    have own := dayNumber_civilDate day
    simp only [dayNumber] at own ⊢
    omega
  rw [← number, civilDate_dayNumber valid]

theorem totalDays_take_succ {lengths : List Nat} {index length : Nat}
    (found : lengths[index]? = some length) :
    totalDays (lengths.take (index + 1)) = totalDays (lengths.take index) + length := by
  induction lengths generalizing index with
  | nil => simp at found
  | cons first rest ih =>
    cases index with
    | zero =>
      simp only [List.getElem?_cons_zero, Option.some.injEq] at found
      simp [totalDays, found]
    | succ index =>
      have later := ih (by simpa using found)
      rw [List.take_succ_cons, List.take_succ_cons, totalDays, totalDays, later]
      omega

/-- The first of the next month. -/
def nextMonth (date : CivilDate) : CivilDate :=
  if date.month = 12 then { year := date.year + 1, month := 1, day := 1 }
  else { date with month := date.month + 1, day := 1 }

theorem dayNumber_nextMonth {date : CivilDate} (valid : date.valid = true) :
    dayNumber (nextMonth date) =
      dayNumber date + (monthLength date.year date.month - date.day) + 1 := by
  obtain ⟨someYear, someMonth, someDay, within⟩ := (valid_iff date).mp valid
  cases found : (monthLengths date.year)[date.month - 1]? with
  | none =>
    rw [monthLength, found, Option.getD_none] at within
    omega
  | some length =>
    have whole := totalDays_take_succ found
    rw [monthLength, found, Option.getD_some] at within ⊢
    rw [show date.month - 1 + 1 = date.month by omega] at whole
    rw [nextMonth]
    split
    · next last =>
      have year := daysBefore_succ (date.year - 1)
      have sum := monthLengths_sum date.year
      have all : (monthLengths date.year).take 12 = monthLengths date.year := rfl
      rw [show date.year - 1 + 1 = date.year by omega] at year
      rw [last, all] at whole
      simp only [dayNumber, last, Nat.add_sub_cancel, Nat.sub_self, List.take_zero, totalDays]
        at whole ⊢
      omega
    · simp only [dayNumber, Nat.add_sub_cancel]
      omega

theorem nextMonth_valid {date : CivilDate} (valid : date.valid = true) (last : date.month ≤ 12) :
    (nextMonth date).valid = true := by
  obtain ⟨someYear, someMonth, _, _⟩ := (valid_iff date).mp valid
  rw [valid_iff, nextMonth]
  split
  · have long := @le_monthLength (date.year + 1) 1 (by omega) (by omega)
    simp only
    omega
  · have long := @le_monthLength date.year (date.month + 1) (by omega) (by omega)
    simp only
    omega

/-- The first of the next month follows the last of this one. -/
theorem civilDate_nextMonth (day : Nat) :
    civilDate (day + (monthLength (civilDate day).year (civilDate day).month -
      (civilDate day).day) + 1) = nextMonth (civilDate day) := by
  have valid := civilDate_valid day
  have number := dayNumber_nextMonth valid
  rw [dayNumber_civilDate] at number
  rw [← number, civilDate_dayNumber (nextMonth_valid valid (civilDate_bounds day).2.1)]

theorem leapYear_cycle (year : Nat) : leapYear (year + 400) = leapYear year := by
  rw [Bool.eq_iff_iff, leapYear_iff, leapYear_iff]
  omega

theorem daysBefore_cycle (years : Nat) :
    daysBefore (years + 400) = daysBefore years + cycleDays := by
  have fewer : years / 100 ≤ years / 4 := Nat.div_le_div_left (by decide) (by decide)
  have quads : (years + 400) / 4 = years / 4 + 100 := by omega
  have centuries : (years + 400) / 100 = years / 100 + 4 := by omega
  have cycles : (years + 400) / 400 = years / 400 + 1 := by omega
  rw [daysBefore, daysBefore, quads, centuries, cycles, cycleDays]
  omega

theorem civilDate_cycle (day : Nat) :
    civilDate (day + cycleDays) = { civilDate day with year := (civilDate day).year + 400 } := by
  obtain ⟨someYear, someMonth, someDay, within⟩ := (valid_iff _).mp (civilDate_valid day)
  have lengths : monthLengths ((civilDate day).year + 400) = monthLengths (civilDate day).year := by
    rw [monthLengths, monthLengths, leapYear_cycle]
  have valid : ({ civilDate day with year := (civilDate day).year + 400 } : CivilDate).valid =
      true := by
    rw [valid_iff]
    simp only [monthLength, lengths] at within ⊢
    exact ⟨by omega, someMonth, someDay, within⟩
  have number : dayNumber { civilDate day with year := (civilDate day).year + 400 } =
      day + cycleDays := by
    have own := dayNumber_civilDate day
    have cycle := daysBefore_cycle ((civilDate day).year - 1)
    rw [show (civilDate day).year - 1 + 400 = (civilDate day).year + 400 - 1 by omega] at cycle
    simp only [dayNumber, lengths] at own ⊢
    omega
  rw [← number, civilDate_dayNumber valid]

end Calendars
