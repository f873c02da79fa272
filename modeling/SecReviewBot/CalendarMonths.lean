import SecReviewBot.CalendarDays

/-!
# Months of the calendar

The months are counted from the first one of the year one. Every day is a place in its month,
and the months lie end to end. A month of any name begins on any weekday in a year whose next
February is long.
-/

namespace Calendars

/-- The number of a month in its year. -/
def monthAt (index : Nat) : Nat := index % 12 + 1

def lengthOf (index : Nat) : Nat := monthLength (index / 12 + 1) (monthAt index)

def firstOf (index : Nat) : CivilDate :=
  { year := index / 12 + 1, month := monthAt index, day := 1 }

def monthStart (index : Nat) : Nat := dayNumber (firstOf index)

theorem monthAt_bounds (index : Nat) : 1 ≤ monthAt index ∧ monthAt index ≤ 12 := by
  rw [monthAt]
  omega

theorem monthAt_add_year (index : Nat) : monthAt (index + 12) = monthAt index := by
  rw [monthAt, monthAt]
  omega

theorem monthAt_congr {first second : Nat} (same : first % 12 = second % 12) (more : Nat) :
    monthAt (first + more) = monthAt (second + more) := by
  rw [monthAt, monthAt]
  omega

theorem lengthOf_bounds (index : Nat) : 28 ≤ lengthOf index ∧ lengthOf index ≤ 31 :=
  ⟨le_monthLength (monthAt_bounds index).1 (monthAt_bounds index).2, monthLength_le _ _⟩

theorem lengthOf_pos (index : Nat) : 0 < lengthOf index :=
  Nat.lt_of_lt_of_le (by decide) (lengthOf_bounds index).1

theorem firstOf_valid (index : Nat) : (firstOf index).valid = true := by
  have long := (lengthOf_bounds index).1
  rw [lengthOf] at long
  rw [valid_iff]
  exact ⟨Nat.succ_le_succ (Nat.zero_le _), (monthAt_bounds index).1, Nat.le_refl 1,
    show 1 ≤ monthLength (index / 12 + 1) (monthAt index) by omega⟩

theorem nextMonth_firstOf (index : Nat) : nextMonth (firstOf index) = firstOf (index + 1) := by
  have month : (firstOf index).month = index % 12 + 1 := rfl
  have later : firstOf (index + 1) =
      { year := (index + 1) / 12 + 1, month := (index + 1) % 12 + 1, day := 1 } := rfl
  rw [nextMonth, later]
  split
  · next last =>
    rw [CivilDate.mk.injEq]
    refine ⟨?_, by omega, rfl⟩
    show index / 12 + 1 + 1 = _
    omega
  · next other =>
    rw [CivilDate.mk.injEq]
    refine ⟨?_, by omega, rfl⟩
    show index / 12 + 1 = _
    omega

/-- A month begins where the one before ends. -/
theorem monthStart_succ (index : Nat) :
    monthStart (index + 1) = monthStart index + lengthOf index := by
  have next := dayNumber_nextMonth (firstOf_valid index)
  rw [nextMonth_firstOf] at next
  have long : 28 ≤ monthLength (firstOf index).year (firstOf index).month :=
    (lengthOf_bounds index).1
  have first : (firstOf index).day = 1 := rfl
  show dayNumber (firstOf (index + 1)) =
    dayNumber (firstOf index) + monthLength (firstOf index).year (firstOf index).month
  omega

theorem monthStart_le {first second : Nat} (le : first ≤ second) :
    monthStart first + 28 * (second - first) ≤ monthStart second := by
  induction second, le using Nat.le_induction with
  | base => omega
  | succ index le ih =>
    have := (lengthOf_bounds index).1
    rw [monthStart_succ]
    omega

/-- The date at a place in a month. -/
theorem civilDate_place {index offset : Nat} (inside : offset < lengthOf index) :
    civilDate (monthStart index + offset) = { firstOf index with day := offset + 1 } := by
  have own : civilDate (monthStart index) = firstOf index := civilDate_dayNumber (firstOf_valid index)
  have moved := @civilDate_add (monthStart index) (offset + 1)
    (by rw [own]; exact inside) (by rw [own]; exact Nat.succ_le_succ (Nat.zero_le _))
  rw [own] at moved
  exact moved

theorem exists_place (day : Nat) :
    ∃ index offset, offset < lengthOf index ∧ day = monthStart index + offset := by
  obtain ⟨someYear, someMonth, someDay, within⟩ := (valid_iff _).mp (civilDate_valid day)
  have lastMonth := (civilDate_bounds day).2.1
  have number := dayNumber_civilDate day
  generalize civilDate day = date at *
  obtain ⟨year, month, dayOfMonth⟩ := date
  simp only at someYear someMonth someDay within lastMonth
  have years : (12 * (year - 1) + (month - 1)) / 12 + 1 = year := by omega
  have months : monthAt (12 * (year - 1) + (month - 1)) = month := by
    rw [monthAt]
    omega
  refine ⟨12 * (year - 1) + (month - 1), dayOfMonth - 1, ?_, ?_⟩
  · rw [lengthOf, years, months]
    omega
  · rw [← number, monthStart, firstOf, years, months]
    simp only [dayNumber]
    omega

/-- Days of a later month are later. -/
theorem index_le_of_le {first second day : Nat} (before : day < monthStart (first + 1))
    (after : monthStart second ≤ day) : second ≤ first := by
  by_contra later
  have := @monthStart_le (first + 1) second (by omega)
  omega

theorem weekday_lt (day : Nat) : weekday day < 7 := Nat.mod_lt _ (by decide)

theorem weekday_add (day later : Nat) : weekday (day + later) = (weekday day + later) % 7 := by
  simp only [weekday]
  omega

/-- The length of a month, of February the longer one. -/
def fullLength (index : Nat) : Nat := monthLength 4 (monthAt index)

theorem monthLength_feb (year : Nat) : monthLength year 2 = if leapYear year then 29 else 28 := by
  rw [monthLength, monthLengths]
  split <;> rfl

theorem monthLength_other {first second month : Nat} (other : month ≠ 2) :
    monthLength first month = monthLength second month := by
  rw [monthLength, monthLength, monthLengths, monthLengths]
  rcases month with _ | _ | _ | month
  · rfl
  · rfl
  · exact absurd rfl other
  · rfl

theorem lengthOf_le_full (index : Nat) : lengthOf index ≤ fullLength index := by
  rw [lengthOf, fullLength]
  by_cases february : monthAt index = 2
  · have full : monthLength 4 2 = 29 := by decide
    rw [february, monthLength_feb, full]
    split <;> omega
  · rw [monthLength_other february]

/-- The days of some months in a row, of February the longer one. -/
def stretch (first : Nat) : Nat → Nat
  | 0 => 0
  | count + 1 => stretch first count + fullLength (first + count)

theorem stretch_congr {first second : Nat} (same : first % 12 = second % 12) (count : Nat) :
    stretch first count = stretch second count := by
  induction count with
  | zero => rfl
  | succ count ih => rw [stretch, stretch, ih, fullLength, fullLength, monthAt_congr same]

theorem fullLength_bounds (index : Nat) : 29 ≤ fullLength index ∧ fullLength index ≤ 31 := by
  have all : ∀ month ∈ List.range' 1 12, 29 ≤ monthLength 4 month ∧ monthLength 4 month ≤ 31 := by
    decide
  have bounds := monthAt_bounds index
  exact all _ (List.mem_range'_1.mpr (by omega))

theorem stretch_bounds (first count : Nat) :
    29 * count ≤ stretch first count ∧ stretch first count ≤ 31 * count := by
  induction count with
  | zero => exact ⟨Nat.le_refl 0, Nat.le_refl 0⟩
  | succ count ih =>
    have := fullLength_bounds (first + count)
    rw [stretch]
    omega

theorem monthStart_le_stretch (first count : Nat) :
    monthStart (first + count) ≤ monthStart first + stretch first count := by
  induction count with
  | zero => exact Nat.le_refl _
  | succ count ih =>
    have := lengthOf_le_full (first + count)
    rw [← Nat.add_assoc, monthStart_succ, stretch]
    omega

theorem monthStart_eq_stretch {first count : Nat}
    (full : ∀ more < count, lengthOf (first + more) = fullLength (first + more)) :
    monthStart (first + count) = monthStart first + stretch first count := by
  induction count with
  | zero => rfl
  | succ count ih =>
    rw [← Nat.add_assoc, monthStart_succ, stretch, full count (Nat.lt_succ_self count),
      ih fun more bound => full more (Nat.lt_succ_of_lt bound), Nat.add_assoc]

theorem starts_table : ∀ month ∈ List.range 12, ∀ day ∈ List.range 7, ∃ year ∈ List.range' 2000 28,
    weekday (monthStart (12 * year + month)) = day ∧
      leapYear (if month ≤ 1 then year + 1 else year + 2) = true := by
  decide

theorem monthStart_next_cycle (index : Nat) :
    monthStart (index + 4800) = monthStart index + cycleDays := by
  have years := daysBefore_cycle (index / 12)
  have leap := leapYear_cycle (index / 12 + 1)
  have quotient : (index + 4800) / 12 = index / 12 + 400 := by omega
  have same : monthAt (index + 4800) = monthAt index := by
    rw [monthAt, monthAt]
    omega
  simp only [monthStart, firstOf, dayNumber, quotient, same, Nat.add_sub_cancel, years]
  rw [show index / 12 + 400 + 1 = index / 12 + 1 + 400 by omega, monthLengths, leap]
  rw [monthLengths]
  omega

theorem monthStart_cycle (index cycles : Nat) :
    monthStart (index + 4800 * cycles) = monthStart index + cycleDays * cycles := by
  induction cycles with
  | zero => rfl
  | succ cycles ih =>
    rw [show index + 4800 * (cycles + 1) = index + 4800 * cycles + 4800 by omega,
      monthStart_next_cycle, ih, Nat.mul_succ, Nat.add_assoc]

theorem lengthOf_cycle (index cycles : Nat) : lengthOf (index + 4800 * cycles) = lengthOf index := by
  have next := monthStart_cycle (index + 1) cycles
  rw [show index + 1 + 4800 * cycles = index + 4800 * cycles + 1 by omega, monthStart_succ,
    monthStart_succ, monthStart_cycle] at next
  omega

/-- A month of any name begins on any weekday, as late as one likes, with no short February in
the year after. -/
theorem exists_aligned (month late : Nat) {day : Nat} (inWeek : day < 7) :
    ∃ index, late < index ∧ index % 12 = month % 12 ∧ weekday (monthStart index) = day ∧
      ∀ more < 12, lengthOf (index + more) = fullLength (index + more) := by
  obtain ⟨year, mem, start, leap⟩ := starts_table (month % 12)
    (List.mem_range.mpr (Nat.mod_lt _ (by decide))) day (List.mem_range.mpr inWeek)
  have bounds := List.mem_range'_1.mp mem
  refine ⟨12 * year + month % 12 + 4800 * late, by omega, by omega, ?_, fun more bound => ?_⟩
  · rw [monthStart_cycle, weekday, cycleDays]
    rw [weekday] at start
    omega
  · rw [Nat.add_right_comm, lengthOf_cycle, lengthOf, fullLength,
      show monthAt (12 * year + month % 12 + more + 4800 * late) =
        monthAt (12 * year + month % 12 + more) by rw [monthAt, monthAt]; omega]
    by_cases february : monthAt (12 * year + month % 12 + more) = 2
    · have own : (12 * year + month % 12 + more) / 12 + 1 =
          if month % 12 ≤ 1 then year + 1 else year + 2 := by
        rw [monthAt] at february
        split <;> omega
      rw [february, own, monthLength_feb, leap]
      decide
    · exact monthLength_other february

end Calendars
