import SecReviewBot.CronSchedules

/-!
# Gaps of cron schedules

How many days pass between two days of a schedule, by what its fields name. Months that a
schedule leaves out are crossed from the last day before them to the first one after them, on
whatever weekdays these fall.
-/

namespace CronSchedules

open Calendars

def EveryMonth (s : Schedule) : Prop := ∀ month ∈ List.range' 1 12, s.month.has month = true

def EveryWeekday (s : Schedule) : Prop := ∀ weekday < 7, s.hasWeekday weekday = true

def EveryDay (s : Schedule) : Prop := ∀ day ∈ List.range' 1 31, s.dayOfMonth.has day = true

/-- The days that a schedule names in its months, by their numbers and weekdays. -/
def Names (s : Schedule) (days : Nat → Nat → Bool) : Prop :=
  ∀ day weekday, 1 ≤ day → day ≤ 31 → weekday < 7 → s.namesDay day weekday = days day weekday

/-- Some months in a row that are not of the schedule. -/
def LeftOut (s : Schedule) (first count : Nat) : Prop :=
  ∀ more < count, s.month.has (monthAt (first + more)) = false

theorem LeftOut.congr {s : Schedule} {first second count : Nat} (left : LeftOut s first count)
    (same : second % 12 = first % 12) : LeftOut s second count := by
  intro more bound
  rw [monthAt_congr same]
  exact left more bound

section Crossing

variable {s : Schedule} {reach : Nat}

theorem EveryMonth.has (every : EveryMonth s) (index : Nat) :
    s.month.has (monthAt index) = true := by
  have bounds := monthAt_bounds index
  exact every _ (List.mem_range'_1.mpr (by omega))

theorem EveryDay.has (every : EveryDay s) {day : Nat} (first : 1 ≤ day) (last : day ≤ 31) :
    s.dayOfMonth.has day = true :=
  every _ (List.mem_range'_1.mpr ⟨first, by omega⟩)

theorem names_alternatives (both : (s.monthDays && s.weekDays) = true) :
    Names s fun day weekday => s.dayOfMonth.has day || s.hasWeekday weekday := by
  intro day weekday _ _ _
  rw [Schedule.namesDay, if_pos both]

theorem names_together (one : (s.monthDays && s.weekDays) = false) :
    Names s fun day weekday => s.dayOfMonth.has day && s.hasWeekday weekday := by
  intro day weekday _ _ _
  rw [Schedule.namesDay, one]
  rfl

theorem names_days (one : (s.monthDays && s.weekDays) = false) (every : EveryWeekday s) :
    Names s fun day _ => s.dayOfMonth.has day := by
  intro day weekday first last inWeek
  rw [names_together one _ _ first last inWeek]
  show (_ && s.hasWeekday weekday) = _
  rw [every _ inWeek, Bool.and_true]

theorem names_weekdays (one : (s.monthDays && s.weekDays) = false) (every : EveryDay s) :
    Names s fun _ weekday => s.hasWeekday weekday := by
  intro day weekday first last inWeek
  rw [names_together one _ _ first last inWeek]
  show (s.dayOfMonth.has day && _) = _
  rw [every.has first last, Bool.true_and]

/-- Numbers and weekdays of days that do not depend on each other. -/
theorem names_either (either : (s.monthDays && s.weekDays) = true ∨ EveryDay s) :
    ∃ alone : Nat → Bool, Names s fun day weekday => alone day || s.hasWeekday weekday := by
  by_cases both : (s.monthDays && s.weekDays) = true
  · exact ⟨_, names_alternatives both⟩
  · exact ⟨fun _ => false,
      names_weekdays (Bool.eq_false_iff.mpr both) (either.resolve_left both)⟩

theorem Schedule.DaysWithin.mono {more : Nat} (within : s.DaysWithin reach) (le : reach ≤ more) :
    s.DaysWithin more := by
  intro day matching
  obtain ⟨later, positive, close, own⟩ := within day matching
  exact ⟨later, positive, by omega, own⟩

theorem exists_leftOut (lacking : ¬ EveryMonth s) : ∃ index < 12, LeftOut s index 1 := by
  simp only [EveryMonth, not_forall] at lacking
  obtain ⟨month, mem, missing⟩ := lacking
  have bounds := List.mem_range'_1.mp mem
  refine ⟨month - 1, by omega, fun more bound => ?_⟩
  rw [show month - 1 + more = month - 1 by omega, monthAt,
    show (month - 1) % 12 + 1 = month by omega]
  exact Bool.eq_false_iff.mpr missing

theorem exists_hasWeekday (s : Schedule) : ∃ weekday < 7, s.hasWeekday weekday = true := by
  obtain ⟨value, mem⟩ := List.exists_mem_of_ne_nil _ s.dayOfWeek.nonempty
  refine ⟨value % 7, Nat.mod_lt _ (by decide), ?_⟩
  rw [Schedule.hasWeekday, List.any_eq_true]
  exact ⟨value, mem, beq_self_eq_true _⟩

/-- The month of a day of the schedule is of the schedule. -/
theorem place_of_matches {day : Nat} (matching : s.matchesDay day = true) :
    ∃ index offset, offset < lengthOf index ∧ day = monthStart index + offset ∧
      s.month.has (monthAt index) = true ∧ s.namesDay (offset + 1) (weekday day) = true := by
  obtain ⟨index, offset, inside, rfl⟩ := exists_place day
  rw [matchesDay_place s inside, Bool.and_eq_true] at matching
  exact ⟨index, offset, inside, rfl, matching⟩

theorem Names.place {days : Nat → Nat → Bool} (names : Names s days) {day : Nat}
    (matching : s.matchesDay day = true) :
    ∃ index offset, offset < lengthOf index ∧ day = monthStart index + offset ∧
      s.month.has (monthAt index) = true ∧ days (offset + 1) (weekday day) = true := by
  obtain ⟨index, offset, inside, eq, named, own⟩ := place_of_matches matching
  have most := (lengthOf_bounds index).2
  rw [names _ _ (by omega) (by omega) (weekday_lt _)] at own
  exact ⟨index, offset, inside, eq, named, own⟩

theorem matches_of_place {index offset : Nat} (inside : offset < lengthOf index)
    (named : s.month.has (monthAt index) = true)
    (own : s.namesDay (offset + 1) (weekday (monthStart index + offset)) = true) :
    s.matchesDay (monthStart index + offset) = true := by
  rw [matchesDay_place s inside, named, own]
  rfl

theorem Names.matches_place {days : Nat → Nat → Bool} (names : Names s days) {index offset : Nat}
    (inside : offset < lengthOf index) (named : s.month.has (monthAt index) = true)
    (own : days (offset + 1) (weekday (monthStart index + offset)) = true) :
    s.matchesDay (monthStart index + offset) = true := by
  have most := (lengthOf_bounds index).2
  rw [← names _ _ (by omega) (by omega) (weekday_lt _)] at own
  exact matches_of_place inside named own

/-- A day of the schedule is named in its month. -/
theorem namesDay_of_matches {index day : Nat} (matching : s.matchesDay day = true)
    (low : monthStart index ≤ day) (high : day < monthStart (index + 1)) :
    s.namesDay (day - monthStart index + 1) (weekday day) = true := by
  have start := monthStart_succ index
  have place := @matchesDay_place s index (day - monthStart index) (by omega)
  rw [show monthStart index + (day - monthStart index) = day by omega, matching] at place
  exact (Bool.and_eq_true_iff.mp place.symm).2

/-- In months that are left out there is no day of the schedule. -/
theorem LeftOut.quiet {first count day : Nat} (left : LeftOut s first count)
    (after : monthStart first ≤ day) (before : day < monthStart (first + count)) :
    s.matchesDay day = false := by
  rw [Bool.eq_false_iff]
  intro matching
  obtain ⟨index, offset, inside, rfl, named, _⟩ := place_of_matches matching
  have low : first ≤ index := index_le_of_le (by rw [monthStart_succ]; omega) after
  have high : index < first + count := by
    by_contra behind
    have := @monthStart_le (first + count) index (by omega)
    omega
  have unnamed := left (index - first) (by omega)
  rw [show first + (index - first) = index by omega, named] at unnamed
  cases unnamed

theorem exists_last {day bound : Nat} (matching : s.matchesDay day = true) (before : day < bound) :
    ∃ last < bound, s.matchesDay last = true ∧
      ∀ other, last < other → other < bound → s.matchesDay other = false := by
  have found := Nat.findGreatest_spec (P := fun day => s.matchesDay day = true)
    (show day ≤ bound - 1 by omega) matching
  have most := Nat.findGreatest_le (P := fun day => s.matchesDay day = true) (bound - 1)
  refine ⟨_, by omega, found, fun other after inside => Bool.eq_false_iff.mpr fun own => ?_⟩
  have := Nat.le_findGreatest (P := fun day => s.matchesDay day = true)
    (show other ≤ bound - 1 by omega) own
  omega

/-- A quiet time after a day of the schedule is within the reach. -/
theorem next_after {last bound : Nat} (within : s.DaysWithin reach)
    (matching : s.matchesDay last = true)
    (quiet : ∀ other, last < other → other < bound → s.matchesDay other = false) :
    ∃ next, last < next ∧ bound ≤ next ∧ next ≤ last + reach ∧ s.matchesDay next = true := by
  obtain ⟨later, positive, close, own⟩ := within last matching
  refine ⟨last + later, by omega, ?_, by omega, own⟩
  by_contra inside
  rw [quiet _ (by omega) (by omega)] at own
  cases own

/-- Months that are left out are crossed, with the first of them on any weekday. -/
theorem crossing (within : s.DaysWithin reach) {day : Nat} (matching : s.matchesDay day = true)
    {first count : Nat} (left : LeftOut s first count) (year : count ≤ 12) {start : Nat}
    (inWeek : start < 7) :
    ∃ index last next, 0 < index ∧ index % 12 = first % 12 ∧ weekday (monthStart index) = start ∧
      monthStart (index + count) = monthStart index + stretch first count ∧
      last < monthStart index ∧ monthStart index + stretch first count ≤ next ∧
      next ≤ last + reach ∧ s.matchesDay last = true ∧ s.matchesDay next = true := by
  obtain ⟨index, late, same, begins, full⟩ := exists_aligned first day inWeek
  have ends : monthStart (index + count) = monthStart index + stretch first count := by
    rw [monthStart_eq_stretch fun more bound => full more (by omega), stretch_congr same]
  have far := @monthStart_le 0 index (Nat.zero_le _)
  obtain ⟨last, before, own, quiet⟩ := exists_last matching (show day < monthStart index by omega)
  have silent : ∀ other, last < other → other < monthStart index + stretch first count →
      s.matchesDay other = false := by
    intro other after inside
    by_cases early : other < monthStart index
    · exact quiet other after early
    · exact (left.congr same).quiet (by omega) (by rw [ends]; exact inside)
  obtain ⟨next, _, reached, close, follows⟩ := next_after within own silent
  exact ⟨index, last, next, by omega, same, begins, ends, before, reached, close, own, follows⟩

/-- The months in a row that a schedule leaves out are shorter than its gaps. -/
theorem stretch_lt (within : s.DaysWithin reach) {day : Nat} (matching : s.matchesDay day = true)
    {first count : Nat} (left : LeftOut s first count) (year : count ≤ 12) :
    stretch first count < reach := by
  obtain ⟨index, last, next, _, _, _, _, before, reached, close, _⟩ :=
    crossing within matching left year (show 0 < 7 by decide)
  omega

theorem stretch_one (first : Nat) : stretch first 1 = fullLength first := by
  rw [stretch, stretch, Nat.zero_add, Nat.add_zero]

end Crossing

section Bridges

variable {s : Schedule}

def longMonths : List Nat := [1, 3, 5, 7, 8, 10, 12]

def thirtyMonths : List Nat := [4, 6, 9, 11]

/-- The months left out are short ones with days of the schedule close on both sides, whatever
the weekday of the last day before them. -/
structure Bridges (s : Schedule) : Prop where
  long : ∀ month ∈ longMonths, s.month.has month = true
  thirty : (∀ month ∈ thirtyMonths, s.month.has month = true) ∨
    ∀ weekday < 7, s.namesDay 31 weekday = true ∧ s.namesDay 1 weekday = true
  february : s.month.has 2 = true ∨ ∀ weekday < 7, ∃ before after, 1 ≤ after ∧
    before + after ≤ 2 ∧ s.namesDay (31 - before) ((weekday + 7 - before) % 7) = true ∧
    s.namesDay after ((weekday + 1 + after) % 7) = true

theorem EveryMonth.bridges (every : EveryMonth s) : Bridges s where
  long := fun month mem => every month (by
    have all : ∀ month ∈ longMonths, month ∈ List.range' 1 12 := by decide
    exact all month mem)
  thirty := .inl fun month mem => every month (by
    have all : ∀ month ∈ thirtyMonths, month ∈ List.range' 1 12 := by decide
    exact all month mem)
  february := .inl (every 2 (by decide))

theorem long_or_short (index : Nat) : monthAt index ∈ longMonths ∨ monthAt index ∈ thirtyMonths ∨
    monthAt index = 2 := by
  have bounds := monthAt_bounds index
  simp only [longMonths, thirtyMonths, List.mem_cons, List.not_mem_nil, or_false]
  omega

theorem lengthOf_long {index : Nat} (long : monthAt index ∈ longMonths) : lengthOf index = 31 := by
  have other : monthAt index ≠ 2 := by
    intro february
    rw [february] at long
    revert long
    decide
  have table : ∀ month ∈ longMonths, monthLength 4 month = 31 := by decide
  rw [lengthOf, @monthLength_other _ 4 _ other]
  exact table _ long

theorem lengthOf_thirty {index : Nat} (thirty : monthAt index ∈ thirtyMonths) :
    lengthOf index = 30 := by
  have other : monthAt index ≠ 2 := by
    intro february
    rw [february] at thirty
    revert thirty
    decide
  have table : ∀ month ∈ thirtyMonths, monthLength 4 month = 30 := by decide
  rw [lengthOf, @monthLength_other _ 4 _ other]
  exact table _ thirty

theorem fullLength_long {index : Nat} (long : monthAt index ∈ longMonths) :
    fullLength index = 31 := by
  have := lengthOf_le_full index
  have := (fullLength_bounds index).2
  rw [lengthOf_long long] at *
  omega

theorem fullLength_february {index : Nat} (february : monthAt index = 2) :
    fullLength index = 29 := by
  rw [fullLength, february]
  decide

theorem fullLength_thirty {index : Nat} (thirty : monthAt index ∈ thirtyMonths) :
    fullLength index = 30 := by
  have table : ∀ month ∈ thirtyMonths, monthLength 4 month = 30 := by decide
  exact table _ thirty

/-- Around a short month there are long ones. -/
theorem long_around {index : Nat} (short : monthAt (index + 1) ∉ longMonths) :
    monthAt index ∈ longMonths ∧ monthAt (index + 2) ∈ longMonths := by
  simp only [longMonths, List.mem_cons, List.not_mem_nil, or_false, monthAt] at short ⊢
  omega

theorem leftOut_one {index : Nat} (missing : s.month.has (monthAt index) = false) :
    LeftOut s index 1 := by
  intro more bound
  rw [show index + more = index by omega]
  exact missing

/-- The days on either side of a single month that is left out. -/
theorem crossing_one (within : s.DaysWithin 31) {day : Nat} (matching : s.matchesDay day = true)
    {first : Nat} (missing : s.month.has (monthAt first) = false)
    (short : monthAt first ∉ longMonths) {weekday : Nat} (inWeek : weekday < 7) :
    ∃ before after, 1 ≤ after ∧ before + after + fullLength first ≤ 31 ∧
      s.namesDay (31 - before) ((weekday + 7 - before) % 7) = true ∧
      s.namesDay after ((weekday + fullLength first + after) % 7) = true := by
  obtain ⟨index, last, next, positive, same, begins, ends, low, reached, close, own, follows⟩ :=
    crossing within matching (leftOut_one missing) (by decide) (Nat.mod_lt (weekday + 1)
      (show 0 < 7 by decide))
  obtain ⟨prev, rfl⟩ : ∃ prev, index = prev + 1 := ⟨index - 1, by omega⟩
  have sameMonth : monthAt (prev + 1) = monthAt first := monthAt_congr same 0
  have long := long_around (show monthAt (prev + 1) ∉ longMonths by rw [sameMonth]; exact short)
  have full := (fullLength_bounds first).1
  have start := monthStart_succ prev
  have behind := monthStart_succ (prev + 2)
  rw [lengthOf_long long.1] at start
  rw [lengthOf_long long.2] at behind
  rw [stretch_one] at ends reached
  rw [show prev + 1 + 1 = prev + 2 by omega] at ends
  refine ⟨monthStart (prev + 1) - 1 - last, next - (monthStart (prev + 1) + fullLength first) + 1,
    by omega, by omega, ?_, ?_⟩
  · have named := namesDay_of_matches own (show monthStart prev ≤ last by omega) low
    rw [show last - monthStart prev + 1 = 31 - (monthStart (prev + 1) - 1 - last) by omega,
      show Calendars.weekday last =
        (weekday + 7 - (monthStart (prev + 1) - 1 - last)) % 7 by
          rw [Calendars.weekday] at begins ⊢; omega] at named
    exact named
  · have named := namesDay_of_matches follows (show monthStart (prev + 2) ≤ next by omega)
      (by omega)
    rw [show next - monthStart (prev + 2) + 1 =
        next - (monthStart (prev + 1) + fullLength first) + 1 by omega,
      show Calendars.weekday next = (weekday + fullLength first +
        (next - (monthStart (prev + 1) + fullLength first) + 1)) % 7 by
          rw [Calendars.weekday] at begins ⊢; omega] at named
    exact named

theorem long_of_within (within : s.DaysWithin 31) {day : Nat} (matching : s.matchesDay day = true)
    {month : Nat} (mem : month ∈ longMonths) : s.month.has month = true := by
  by_contra missing
  have bounds : ∀ month ∈ longMonths, monthAt (month - 1) = month := by decide
  have left : LeftOut s (month - 1) 1 :=
    leftOut_one (by rw [bounds month mem]; exact Bool.eq_false_iff.mpr missing)
  have less := stretch_lt within matching left (by decide)
  rw [stretch_one, fullLength_long (by rw [bounds month mem]; exact mem)] at less
  exact Nat.lt_irrefl 31 less

/-- Around 30 days that are left out, one day is left on either side. -/
theorem thirty_of_within (within : s.DaysWithin 31) {day : Nat} (matching : s.matchesDay day = true)
    {month : Nat} (mem : month ∈ thirtyMonths) (missing : s.month.has month = false) {weekday : Nat}
    (inWeek : weekday < 7) :
    s.namesDay 31 weekday = true ∧ s.namesDay 1 ((weekday + 31) % 7) = true := by
  have own : ∀ month ∈ thirtyMonths, monthAt (month - 1) = month ∧ month ∉ longMonths := by decide
  obtain ⟨same, short⟩ := own month mem
  have full : fullLength (month - 1) = 30 := fullLength_thirty (by rw [same]; exact mem)
  obtain ⟨before, after, some, total, ahead, behind⟩ := @crossing_one s within day matching
    (month - 1) (by rw [same]; exact missing) (by rw [same]; exact short) weekday inWeek
  rw [full] at total behind
  obtain rfl : before = 0 := by omega
  obtain rfl : after = 1 := by omega
  rw [Nat.sub_zero, Nat.sub_zero, Nat.add_mod_right, Nat.mod_eq_of_lt inWeek] at ahead
  exact ⟨ahead, behind⟩

theorem february_of_within (within : s.DaysWithin 31) {day : Nat}
    (matching : s.matchesDay day = true) (missing : s.month.has 2 = false) {weekday : Nat}
    (inWeek : weekday < 7) : ∃ before after, 1 ≤ after ∧ before + after ≤ 2 ∧
      s.namesDay (31 - before) ((weekday + 7 - before) % 7) = true ∧
      s.namesDay after ((weekday + 1 + after) % 7) = true := by
  obtain ⟨before, after, some, total, ahead, behind⟩ :=
    @crossing_one s within day matching 1 missing (by decide) weekday inWeek
  rw [fullLength_february rfl] at total behind
  refine ⟨before, after, some, by omega, ahead, ?_⟩
  rw [show (weekday + 1 + after) % 7 = (weekday + 29 + after) % 7 by omega]
  exact behind

theorem bridges_of_within (within : s.DaysWithin 31) {day : Nat}
    (matching : s.matchesDay day = true) : Bridges s where
  long := fun _ mem => long_of_within within matching mem
  thirty := by
    by_cases all : ∀ month ∈ thirtyMonths, s.month.has month = true
    · exact .inl all
    · simp only [not_forall] at all
      obtain ⟨month, mem, missing⟩ := all
      have sides : ∀ weekday < 7, s.namesDay 31 weekday = true ∧
          s.namesDay 1 ((weekday + 31) % 7) = true := fun weekday inWeek =>
        thirty_of_within within matching mem (Bool.eq_false_iff.mpr missing) inWeek
      refine .inr fun weekday inWeek => ⟨(sides weekday inWeek).1, ?_⟩
      have moved := (sides ((weekday + 4) % 7) (Nat.mod_lt _ (by decide))).2
      rw [show ((weekday + 4) % 7 + 31) % 7 = weekday by omega] at moved
      exact moved
  february := by
    by_cases named : s.month.has 2 = true
    · exact .inl named
    · exact .inr fun weekday inWeek =>
        february_of_within within matching (Bool.eq_false_iff.mpr named) inWeek

/-- Days on either side of a month are close when the schedule has them. -/
theorem later_of_sides {index offset before after : Nat} (inside : offset < lengthOf index)
    (around : monthAt index ∈ longMonths ∧ monthAt (index + 2) ∈ longMonths)
    (long : ∀ month ∈ longMonths, s.month.has month = true) (some : 1 ≤ after)
    (total : before + after + lengthOf (index + 1) ≤ 31)
    (ahead : s.namesDay (31 - before) (weekday (monthStart index + (30 - before))) = true)
    (behind : s.namesDay after (weekday (monthStart (index + 2) + (after - 1))) = true) :
    ∃ later, 0 < later ∧ later ≤ 31 ∧ s.matchesDay (monthStart index + offset + later) = true := by
  have first := lengthOf_long around.1
  have second := lengthOf_long around.2
  have short := (lengthOf_bounds (index + 1)).1
  have start := monthStart_succ index
  have next := monthStart_succ (index + 1)
  rw [show index + 1 + 1 = index + 2 by omega] at next
  by_cases early : offset < 30 - before
  · refine ⟨30 - before - offset, by omega, by omega, ?_⟩
    rw [show monthStart index + offset + (30 - before - offset) =
      monthStart index + (30 - before) by omega]
    refine matches_of_place (by omega) (long _ around.1) ?_
    rw [show 30 - before + 1 = 31 - before by omega]
    exact ahead
  · refine ⟨monthStart (index + 2) + (after - 1) - (monthStart index + offset), by omega, by omega,
      ?_⟩
    rw [show monthStart index + offset + (monthStart (index + 2) + (after - 1) -
      (monthStart index + offset)) = monthStart (index + 2) + (after - 1) by omega]
    refine matches_of_place (by omega) (long _ around.2) ?_
    rw [show after - 1 + 1 = after by omega]
    exact behind

variable {alone weekdayAlone : Nat → Bool}

theorem Bridges.cross_thirty (bridges : Bridges s) {index offset : Nat}
    (inside : offset < lengthOf index) (thirty : monthAt (index + 1) ∈ thirtyMonths)
    (around : monthAt index ∈ longMonths ∧ monthAt (index + 2) ∈ longMonths)
    (missing : s.month.has (monthAt (index + 1)) = false) :
    ∃ later, 0 < later ∧ later ≤ 31 ∧ s.matchesDay (monthStart index + offset + later) = true := by
  have sides := bridges.thirty.resolve_left fun all => by
    rw [all _ thirty] at missing
    cases missing
  have length := lengthOf_thirty thirty
  refine @later_of_sides s index offset 0 1 inside around bridges.long (Nat.le_refl 1)
    (by omega) ?_ ?_
  · exact (sides _ (Nat.mod_lt _ (by decide))).1
  · exact (sides _ (Nat.mod_lt _ (by decide))).2

theorem Bridges.cross_february (bridges : Bridges s)
    (names : Names s fun day weekday => alone day || weekdayAlone weekday)
    {index offset : Nat} (inside : offset < lengthOf index) (february : monthAt (index + 1) = 2)
    (around : monthAt index ∈ longMonths ∧ monthAt (index + 2) ∈ longMonths)
    (missing : s.month.has (monthAt (index + 1)) = false) :
    ∃ later, 0 < later ∧ later ≤ 31 ∧ s.matchesDay (monthStart index + offset + later) = true := by
  have first := lengthOf_long around.1
  have start := monthStart_succ index
  have next := monthStart_succ (index + 1)
  rw [show index + 1 + 1 = index + 2 by omega] at next
  have sides := bridges.february.resolve_left fun named => by
    rw [← february, missing] at named
    cases named
  obtain ⟨before, after, some, total, ahead, behind⟩ :=
    sides (weekday (monthStart index + 30)) (Nat.mod_lt _ (by decide))
  have last : weekday (monthStart index + (30 - before)) =
      (weekday (monthStart index + 30) + 7 - before) % 7 := by
    simp only [weekday]
    omega
  have full := lengthOf_le_full (index + 1)
  have bounds := (lengthOf_bounds (index + 1)).1
  rw [fullLength_february february] at full
  rw [← last] at ahead
  by_cases leap : lengthOf (index + 1) = 29
  · refine later_of_sides inside around bridges.long some (by omega) ahead ?_
    rw [show weekday (monthStart (index + 2) + (after - 1)) =
      (weekday (monthStart index + 30) + 1 + after) % 7 by simp only [weekday]; omega]
    exact behind
  · -- in a short February the same weekday comes a day later in March
    rw [names _ _ some (by omega) (Nat.mod_lt _ (by decide)), Bool.or_eq_true] at behind
    rcases behind with own | own
    · refine later_of_sides inside around bridges.long some (by omega) ahead ?_
      rw [names _ _ some (by omega) (weekday_lt _)]
      show (alone after || _) = true
      rw [own, Bool.true_or]
    · refine @later_of_sides s index offset before (after + 1) inside around bridges.long
        (by omega) (by omega) ahead ?_
      rw [names _ _ (by omega) (by omega) (weekday_lt _),
        show weekday (monthStart (index + 2) + (after + 1 - 1)) =
          (weekday (monthStart index + 30) + 1 + after) % 7 by simp only [weekday]; omega]
      show (alone (after + 1) || weekdayAlone _) = true
      rw [own, Bool.or_true]

/-- Where number and weekday do not depend on each other, a bridge is as long as a gap may be. -/
theorem Bridges.cross (bridges : Bridges s)
    (names : Names s fun day weekday => alone day || weekdayAlone weekday)
    {index offset : Nat} (inside : offset < lengthOf index)
    (missing : s.month.has (monthAt (index + 1)) = false) :
    ∃ later, 0 < later ∧ later ≤ 31 ∧ s.matchesDay (monthStart index + offset + later) = true := by
  have short : monthAt (index + 1) ∉ longMonths := by
    intro long
    rw [bridges.long _ long] at missing
    cases missing
  have around := long_around short
  rcases (long_or_short (index + 1)).resolve_left short with thirty | february
  · exact bridges.cross_thirty inside thirty around missing
  · exact bridges.cross_february names inside february around missing

theorem exists_weekday (day : Nat) {wanted : Nat} (inWeek : wanted < 7) :
    ∃ later, 0 < later ∧ later ≤ 7 ∧ weekday (day + later) = wanted := by
  have own : weekday day < 7 := Nat.mod_lt _ (by decide)
  by_cases behind : wanted ≤ weekday day
  · refine ⟨wanted + 7 - weekday day, by omega, by omega, ?_⟩
    simp only [weekday] at own behind ⊢
    omega
  · refine ⟨wanted - weekday day, by omega, by omega, ?_⟩
    simp only [weekday] at own behind ⊢
    omega

/-- Where the next month is of the schedule, a weekday comes within a week. -/
theorem week_ahead
    (names : Names s fun day weekday => alone day || weekdayAlone weekday)
    {wanted : Nat} (inWeek : wanted < 7) (own : weekdayAlone wanted = true) {index offset : Nat}
    (inside : offset < lengthOf index) (named : s.month.has (monthAt index) = true)
    (next : s.month.has (monthAt (index + 1)) = true) :
    ∃ later, 0 < later ∧ later ≤ 7 ∧ s.matchesDay (monthStart index + offset + later) = true := by
  obtain ⟨later, positive, close, eq⟩ := exists_weekday (monthStart index + offset) inWeek
  have long := (lengthOf_bounds (index + 1)).1
  have start := monthStart_succ index
  refine ⟨later, positive, close, ?_⟩
  by_cases here : offset + later < lengthOf index
  · rw [Nat.add_assoc] at eq ⊢
    refine names.matches_place here named ?_
    rw [eq, own, Bool.or_true]
  · rw [show monthStart index + offset + later =
      monthStart (index + 1) + (offset + later - lengthOf index) by omega] at eq ⊢
    refine names.matches_place (by omega) next ?_
    rw [eq, own, Bool.or_true]

theorem week_within (every : EveryMonth s)
    (names : Names s fun day weekday => alone day || weekdayAlone weekday)
    {wanted : Nat} (inWeek : wanted < 7) (own : weekdayAlone wanted = true) : s.DaysWithin 7 := by
  intro day matching
  obtain ⟨index, offset, inside, rfl, named, _⟩ := place_of_matches matching
  exact week_ahead names inWeek own inside named (every.has _)

/-- With a weekday of its own a schedule has gaps at its bridges only. -/
theorem Bridges.weekdays_within (bridges : Bridges s)
    (names : Names s fun day weekday => alone day || weekdayAlone weekday)
    {wanted : Nat} (inWeek : wanted < 7) (own : weekdayAlone wanted = true) : s.DaysWithin 31 := by
  intro day matching
  obtain ⟨index, offset, inside, rfl, named, _⟩ := place_of_matches matching
  by_cases next : s.month.has (monthAt (index + 1)) = true
  · obtain ⟨later, positive, close, follows⟩ := week_ahead names inWeek own inside named next
    exact ⟨later, positive, by omega, follows⟩
  · exact bridges.cross names inside (Bool.eq_false_iff.mpr next)

/-- A day that every month has comes again within 31 days. -/
theorem day_ahead {wanted : Nat} (first : 1 ≤ wanted) (short : wanted ≤ 28)
    (own : ∀ weekday < 7, s.namesDay wanted weekday = true) {index offset : Nat}
    (inside : offset < lengthOf index) (named : s.month.has (monthAt index) = true)
    (next : s.month.has (monthAt (index + 1)) = true) :
    ∃ later, 0 < later ∧ later ≤ 31 ∧ s.matchesDay (monthStart index + offset + later) = true := by
  have bounds := lengthOf_bounds index
  have long := (lengthOf_bounds (index + 1)).1
  have start := monthStart_succ index
  by_cases ahead : offset + 1 < wanted
  · refine ⟨wanted - 1 - offset, by omega, by omega, ?_⟩
    rw [show monthStart index + offset + (wanted - 1 - offset) = monthStart index + (wanted - 1) by
      omega]
    refine matches_of_place (by omega) named ?_
    rw [show wanted - 1 + 1 = wanted by omega]
    exact own _ (weekday_lt _)
  · refine ⟨lengthOf index - offset + (wanted - 1), by omega, by omega, ?_⟩
    rw [show monthStart index + offset + (lengthOf index - offset + (wanted - 1)) =
      monthStart (index + 1) + (wanted - 1) by omega]
    refine matches_of_place (by omega) next ?_
    rw [show wanted - 1 + 1 = wanted by omega]
    exact own _ (weekday_lt _)

/-- The days of the month alone: what bridges a month is in every month. -/
theorem Bridges.days_within (bridges : Bridges s) (lacking : ¬ EveryMonth s)
    (names : Names s fun day _ => alone day) : s.DaysWithin 31 := by
  obtain ⟨wanted, first, short, own⟩ : ∃ wanted, 1 ≤ wanted ∧ wanted ≤ 2 ∧ alone wanted = true := by
    obtain ⟨missing, _, left⟩ := exists_leftOut lacking
    have unnamed := left 0 (by decide)
    rw [Nat.add_zero] at unnamed
    rcases long_or_short missing with long | thirty | february
    · rw [bridges.long _ long] at unnamed
      cases unnamed
    · have sides := bridges.thirty.resolve_left fun all => by
        rw [all _ thirty] at unnamed
        cases unnamed
      have own := (sides 0 (by decide)).2
      rw [names _ _ (by decide) (by decide) (by decide)] at own
      exact ⟨1, by decide, by decide, own⟩
    · have sides := bridges.february.resolve_left fun named => by
        rw [← february, unnamed] at named
        cases named
      obtain ⟨before, after, some, total, _, behind⟩ := sides 0 (by decide)
      rw [names _ _ some (by omega) (Nat.mod_lt _ (by decide))] at behind
      exact ⟨after, some, by omega, behind⟩
  intro day matching
  obtain ⟨index, offset, inside, rfl, named, _⟩ := place_of_matches matching
  by_cases next : s.month.has (monthAt (index + 1)) = true
  · refine day_ahead first (by omega) (fun weekday inWeek => ?_) inside named next
    rw [names _ _ first (by omega) inWeek]
    exact own
  · have apart : Names s fun day weekday => alone day || (fun _ => false) weekday := by
      intro day weekday low high inWeek
      rw [names _ _ low high inWeek]
      exact (Bool.or_false _).symm
    exact bridges.cross apart inside (Bool.eq_false_iff.mpr next)

/-- Days after the 28th are in no February of 28 days, nor before the end of March. -/
theorem late_quiet (names : Names s fun day _ => s.dayOfMonth.has day)
    (late : ∀ day ∈ s.dayOfMonth.values, 28 < day) {index other : Nat}
    (february : lengthOf (index + 1) = 28) (after : monthStart (index + 1) ≤ other)
    (before : other < monthStart (index + 2) + 28) : s.matchesDay other = false := by
  rw [Bool.eq_false_iff]
  intro matching
  obtain ⟨here, offset, inside, rfl, _, named⟩ := names.place matching
  rw [Field.has, List.contains_iff_mem] at named
  have far := late _ named
  have long := (lengthOf_bounds (index + 2)).1
  have next : monthStart (index + 2) = monthStart (index + 1) + lengthOf (index + 1) :=
    monthStart_succ (index + 1)
  have last : monthStart (index + 3) = monthStart (index + 2) + lengthOf (index + 2) :=
    monthStart_succ (index + 2)
  have low : index + 1 ≤ here := index_le_of_le (by rw [monthStart_succ]; omega) after
  have high : here ≤ index + 2 := by
    by_contra beyond
    have := @monthStart_le (index + 3) here (by omega)
    omega
  obtain rfl | rfl : here = index + 1 ∨ here = index + 2 := by omega
  · omega
  · omega

/-- Where all months are of the schedule, days of the month leave no long gap exactly when every
month has one of them. -/
theorem monthDays_within (every : EveryMonth s)
    (names : Names s fun day _ => s.dayOfMonth.has day) :
    s.DaysWithin 31 ↔ ∃ day ∈ s.dayOfMonth.values, day ≤ 28 := by
  constructor
  · intro within
    by_contra! late
    obtain ⟨value, mem⟩ := List.exists_mem_of_ne_nil _ s.dayOfMonth.nonempty
    have valueBounds := s.dayOfMonth.bounded value mem
    -- from January 2023 over its short February
    have january : lengthOf 24264 = 31 := by decide
    have february : lengthOf 24265 = 28 := by decide
    have start : monthStart 24265 = monthStart 24264 + lengthOf 24264 := monthStart_succ 24264
    have next : monthStart 24266 = monthStart 24265 + lengthOf 24265 := monthStart_succ 24265
    have matching : s.matchesDay (monthStart 24264 + (value - 1)) = true := by
      refine names.matches_place (by omega) (every.has _) ?_
      rw [show value - 1 + 1 = value by omega]
      exact List.contains_iff_mem.mpr mem
    obtain ⟨final, before, own, quiet⟩ :=
      exists_last matching (show _ < monthStart 24265 by omega)
    have silent : ∀ other, final < other → other < monthStart 24266 + 28 →
        s.matchesDay other = false := by
      intro other after inside
      by_cases early : other < monthStart 24265
      · exact quiet other after early
      · exact @late_quiet s names late 24264 other february (not_lt.mp early) inside
    obtain ⟨follows, _, reached, close, _⟩ := next_after within own silent
    omega
  · rintro ⟨value, mem, short⟩ day matching
    obtain ⟨index, offset, inside, rfl, named, _⟩ := place_of_matches matching
    have first := (s.dayOfMonth.bounded value mem).1
    refine day_ahead first short (fun weekday inWeek => ?_) inside named (every.has _)
    rw [names _ _ first (by omega) inWeek]
    exact List.contains_iff_mem.mpr mem

end Bridges

end CronSchedules
