import SecReviewBot.CronGaps

/-!
# Gaps of cron steps

A step in the field of days names days that many apart in every month, and a step in the field
of weekdays some days of every week. How far apart the days of such a schedule are shows in the
lengths of the months that it leaves out.
-/

namespace CronSchedules

open Calendars

/-- No months that are left out are longer together. -/
def LeftOutWithin (s : Schedule) (days : Nat) : Prop :=
  ∀ first < 12, ∀ count < 12, LeftOut s first count → stretch first count ≤ days

/-- From the first of a month of the schedule to the first of the next one. -/
def FirstsWithin (s : Schedule) (days : Nat) : Prop :=
  ∀ first < 12, ∀ count < 12, s.month.has (monthAt first) = true → LeftOut s (first + 1) count →
    stretch first (count + 1) ≤ days

section NextMonth

variable {s : Schedule} {days : Nat}

theorem LeftOutWithin.stretch_le (bounded : LeftOutWithin s days) {first count : Nat}
    (year : count < 12) (left : LeftOut s first count) : stretch first count ≤ days := by
  have same : first % 12 % 12 = first % 12 := Nat.mod_mod _ _
  rw [← stretch_congr same]
  exact bounded _ (Nat.mod_lt _ (by decide)) count year (left.congr same)

/-- After a month of the schedule the next one comes within a year. -/
theorem exists_next {index : Nat} (named : s.month.has (monthAt index) = true) :
    ∃ count < 12, LeftOut s (index + 1) count ∧
      s.month.has (monthAt (index + 1 + count)) = true := by
  have again : ∃ count, s.month.has (monthAt (index + 1 + count)) = true := by
    refine ⟨11, ?_⟩
    rw [Nat.add_assoc, monthAt_add_year]
    exact named
  refine ⟨Nat.find again, ?_, fun more bound => ?_, Nat.find_spec again⟩
  · have year : s.month.has (monthAt (index + 1 + 11)) = true := by
      rw [Nat.add_assoc, monthAt_add_year]
      exact named
    have := Nat.find_min' again year
    omega
  · exact Bool.eq_false_iff.mpr (Nat.find_min again bound)

theorem month_ne_nil (s : Schedule) : ∃ index < 12, s.month.has (monthAt index) = true := by
  obtain ⟨value, mem⟩ := List.exists_mem_of_ne_nil _ s.month.nonempty
  have bounds := s.month.bounded value mem
  refine ⟨value - 1, by omega, ?_⟩
  rw [monthAt, show (value - 1) % 12 + 1 = value by omega]
  exact List.contains_iff_mem.mpr mem

/-- With a weekday of its own a schedule has a day. -/
theorem exists_matchesDay {alone : Nat → Bool}
    (names : Names s fun day weekday => alone day || s.hasWeekday weekday) :
    ∃ day, s.matchesDay day = true := by
  obtain ⟨wanted, inWeek, has⟩ := exists_hasWeekday s
  obtain ⟨some, _, named⟩ := month_ne_nil s
  obtain ⟨index, _, same, begins, _⟩ := exists_aligned some 0 inWeek
  refine ⟨monthStart index + 0, names.matches_place (lengthOf_pos _) ?_ ?_⟩
  · rw [← Nat.add_zero index, monthAt_congr same]
    exact named
  · show (_ || s.hasWeekday (weekday (monthStart index))) = true
    rw [begins, has, Bool.or_true]

end NextMonth

/-- The numbers that a step of this width names in a month. -/
def StepDays (s : Schedule) (k : Nat) : Prop :=
  ∀ value, s.dayOfMonth.has value = true ↔ (1 ≤ value ∧ value ≤ 31) ∧ (value - 1) % k = 0

section DaySteps

variable {s : Schedule} {k : Nat}

/-- Every so many days from the first of a month on, one comes within that many. -/
theorem stepDays_within (every : EveryMonth s) (positive : 0 < k)
    (names : Names s fun day _ => s.dayOfMonth.has day)
    (steps : StepDays s k) : s.DaysWithin (min k 31) := by
  intro day matching
  obtain ⟨index, offset, inside, rfl, named, _⟩ := place_of_matches matching
  have bounds := lengthOf_bounds index
  have next := (lengthOf_bounds (index + 1)).1
  have start := monthStart_succ index
  have rest := Nat.mod_lt offset positive
  have whole := Nat.div_add_mod offset k
  by_cases ahead : offset + (k - offset % k) < lengthOf index
  · refine ⟨k - offset % k, by omega, by omega, ?_⟩
    rw [Nat.add_assoc]
    refine names.matches_place ahead named ?_
    rw [steps, Nat.add_sub_cancel]
    refine ⟨by omega, ?_⟩
    rw [show offset + (k - offset % k) = k * (offset / k + 1) by rw [Nat.mul_add]; omega]
    exact Nat.mul_mod_right _ _
  · refine ⟨lengthOf index - offset, by omega, by omega, ?_⟩
    rw [show monthStart index + offset + (lengthOf index - offset) = monthStart (index + 1) + 0 by
      omega]
    refine names.matches_place (by omega) (every.has _) ?_
    rw [steps]
    exact ⟨by omega, Nat.zero_mod k⟩

/-- Between two firsts of the schedule there is no day of it. -/
theorem firsts_quiet (names : Names s fun day _ => day == 1) {index count other : Nat}
    (left : LeftOut s (index + 1) count) (after : monthStart index < other)
    (before : other < monthStart (index + (count + 1))) : s.matchesDay other = false := by
  by_cases early : other < monthStart (index + 1)
  · rw [Bool.eq_false_iff]
    intro matching
    obtain ⟨here, offset, _, rfl, _, first⟩ := names.place matching
    rw [beq_iff_eq] at first
    have low : here < index + 1 := by
      by_contra later
      have := @monthStart_le (index + 1) here (by omega)
      omega
    have start := monthStart_succ here
    have bounds := (lengthOf_bounds here).1
    have high : index ≤ here := index_le_of_le (show monthStart here + offset < _ by omega) (by omega)
    obtain rfl : here = index := by omega
    omega
  · rw [show index + (count + 1) = index + 1 + count by omega] at before
    exact left.quiet (by omega) before

theorem firstsWithin_of_within (names : Names s fun day _ => day == 1) {days : Nat}
    (within : s.DaysWithin days) : FirstsWithin s days := by
  intro first _ count year named left
  obtain ⟨index, _, same, _, full⟩ := exists_aligned first 0 (show 0 < 7 by decide)
  have ends := @monthStart_eq_stretch index (count + 1) fun more bound => full more (by omega)
  have own : s.matchesDay (monthStart index + 0) = true := by
    refine names.matches_place (lengthOf_pos _) ?_ rfl
    rw [← Nat.add_zero index, monthAt_congr same]
    exact named
  have silent : ∀ other, monthStart index + 0 < other → other < monthStart (index + (count + 1)) →
      s.matchesDay other = false :=
    fun _ after inside => firsts_quiet names (left.congr (by omega)) after inside
  obtain ⟨next, _, reached, close, _⟩ := next_after within own silent
  rw [ends, stretch_congr same] at reached
  omega

theorem FirstsWithin.within {days : Nat} (bounded : FirstsWithin s days)
    (names : Names s fun day _ => day == 1) : s.DaysWithin days := by
  intro day matching
  obtain ⟨index, offset, inside, rfl, named, first⟩ := names.place matching
  rw [beq_iff_eq] at first
  obtain ⟨count, year, left, next⟩ := exists_next named
  have same : index % 12 % 12 = index % 12 := Nat.mod_mod _ _
  have most := bounded (index % 12) (Nat.mod_lt _ (by decide)) count year
    (by rw [← Nat.add_zero (index % 12), monthAt_congr same]; exact named)
    (left.congr (by omega))
  have far := monthStart_le_stretch index (count + 1)
  have low := @monthStart_le (index + 1) (index + (count + 1)) (by omega)
  have start := monthStart_succ index
  have bounds := (lengthOf_bounds index).1
  rw [stretch_congr same] at most
  refine ⟨monthStart (index + (count + 1)) - monthStart index, by omega, by omega, ?_⟩
  rw [show monthStart index + offset + (monthStart (index + (count + 1)) - monthStart index) =
    monthStart (index + (count + 1)) + 0 by omega]
  refine names.matches_place (lengthOf_pos _) ?_ rfl
  rw [show index + (count + 1) = index + 1 + count by omega]
  exact next

theorem months_of_thirty (names : Names s fun day _ => day == 1 || day == 31)
    (within : s.DaysWithin 30) :
    ∀ month ∈ List.range' 1 12, month ≠ 2 → s.month.has month = true := by
  intro month mem other
  by_contra missing
  have bounds := List.mem_range'_1.mp mem
  have own : monthAt (month - 1) = month := by
    rw [monthAt]
    omega
  obtain ⟨some, _, named⟩ := month_ne_nil s
  have matching : s.matchesDay (monthStart some + 0) = true :=
    names.matches_place (lengthOf_pos _) named rfl
  have left : LeftOut s (month - 1) 1 :=
    leftOut_one (by rw [own]; exact Bool.eq_false_iff.mpr missing)
  have less := stretch_lt within matching left (by decide)
  rw [stretch_one] at less
  rcases long_or_short (month - 1) with long | thirty | february
  · rw [fullLength_long long] at less
    omega
  · rw [fullLength_thirty thirty] at less
    omega
  · exact other (own.symm.trans february)

/-- Where only February is left out, the first and the last day of long months come every
30 days. -/
theorem thirty_of_months (lacking : ¬ EveryMonth s)
    (names : Names s fun day _ => day == 1 || day == 31)
    (all : ∀ month ∈ List.range' 1 12, month ≠ 2 → s.month.has month = true) :
    s.DaysWithin 30 := by
  intro day matching
  have first : ∀ index, monthAt index ≠ 2 → s.matchesDay (monthStart index + 0) = true := by
    intro index other
    have bounds := monthAt_bounds index
    exact names.matches_place (lengthOf_pos _)
      (all _ (List.mem_range'_1.mpr (by omega)) other) rfl
  obtain ⟨index, offset, inside, rfl, own, last⟩ := names.place matching
  rw [Bool.or_eq_true, beq_iff_eq, beq_iff_eq] at last
  have start := monthStart_succ index
  have bounds := lengthOf_bounds index
  have short : monthAt index ≠ 2 := by
    intro february
    refine lacking fun month mem => ?_
    by_cases other : month = 2
    · rw [other, ← february]
      exact own
    · exact all month mem other
  by_cases long : offset = 0 ∧ lengthOf index = 31
  · refine ⟨30, by decide, by decide, ?_⟩
    rw [Nat.add_assoc]
    exact names.matches_place (by omega) own (by rw [long.1]; rfl)
  · by_cases next : monthAt (index + 1) = 2
    · have february := lengthOf_le_full (index + 1)
      have full := fullLength_february next
      have shortest := (lengthOf_bounds (index + 1)).1
      have behind := monthStart_succ (index + 1)
      have january : monthAt index = 1 := by
        rw [monthAt] at next ⊢
        omega
      have length := @lengthOf_long index (by rw [january]; decide)
      have march : monthAt (index + 1 + 1) ≠ 2 := by
        rw [monthAt] at next ⊢
        omega
      refine ⟨lengthOf index - offset + lengthOf (index + 1), by omega, by omega, ?_⟩
      rw [show monthStart index + offset + (lengthOf index - offset + lengthOf (index + 1)) =
        monthStart (index + 1 + 1) + 0 by omega]
      exact first _ march
    · refine ⟨lengthOf index - offset, by omega, by omega, ?_⟩
      rw [show monthStart index + offset + (lengthOf index - offset) =
        monthStart (index + 1) + 0 by omega]
      exact first _ next

theorem names_firsts (names : Names s fun day _ => s.dayOfMonth.has day)
    (steps : StepDays s k) (far : 31 ≤ k) :
    Names s fun day _ => day == 1 := by
  intro day weekday first last inWeek
  rw [names _ _ first last inWeek, Bool.eq_iff_iff]
  show s.dayOfMonth.has day = true ↔ (day == 1) = true
  rw [steps, Nat.mod_eq_of_lt (by omega), beq_iff_eq]
  omega

theorem names_thirty (names : Names s fun day _ => s.dayOfMonth.has day)
    (steps : StepDays s k) (thirty : 30 = k) :
    Names s fun day _ => day == 1 || day == 31 := by
  subst thirty
  intro day weekday first last inWeek
  rw [names _ _ first last inWeek, Bool.eq_iff_iff]
  show s.dayOfMonth.has day = true ↔ (day == 1 || day == 31) = true
  rw [steps, Bool.or_eq_true, beq_iff_eq, beq_iff_eq]
  omega

/-- Between two steps there is no day of the schedule. -/
theorem steps_quiet
    (names : Names s fun day weekday => s.dayOfMonth.has day && s.hasWeekday weekday)
    (steps : StepDays s k) {index times other : Nat} (low : monthStart index + k * times < other)
    (high : other < monthStart index + k * (times + 1)) (inside : other < monthStart (index + 1)) :
    s.matchesDay other = false := by
  rw [Bool.eq_false_iff]
  intro matching
  have start := monthStart_succ index
  have most := (lengthOf_bounds index).2
  have named := namesDay_of_matches matching (show monthStart index ≤ other by omega) inside
  rw [names _ _ (by omega) (by omega) (weekday_lt _), Bool.and_eq_true] at named
  obtain ⟨_, whole⟩ := (steps _).mp named.1
  rw [Nat.add_sub_cancel] at whole
  obtain ⟨count, eq⟩ := Nat.dvd_of_mod_eq_zero whole
  have less : k * times < k * count := by omega
  have more : k * count < k * (times + 1) := by omega
  have := Nat.lt_of_mul_lt_mul_left less
  have := Nat.lt_of_mul_lt_mul_left more
  omega

/-- From the first of a long month on, every step is a day of the schedule. -/
theorem steps_chain (within : s.DaysWithin k)
    (names : Names s fun day weekday => s.dayOfMonth.has day && s.hasWeekday weekday)
    (steps : StepDays s k) {index : Nat} (long : lengthOf index = 31)
    (first : s.matchesDay (monthStart index) = true) (times : Nat) (inside : k * times < 31) :
    s.matchesDay (monthStart index + k * times) = true := by
  have start := monthStart_succ index
  induction times with
  | zero => exact first
  | succ times ih =>
    rw [Nat.mul_succ] at inside ⊢
    have own := ih (by omega)
    have silent : ∀ other, monthStart index + k * times < other →
        other < monthStart index + k * times + k → s.matchesDay other = false :=
      fun other low high =>
        steps_quiet names steps low (by rw [Nat.mul_succ]; omega) (by omega)
    obtain ⟨next, _, reached, close, follows⟩ := next_after within own silent
    rw [show next = monthStart index + (k * times + k) by omega] at follows
    exact follows

/-- On steps and weekdays at once, days of March lead to the first of April. -/
theorem first_of_april (within : s.DaysWithin k) (positive : 0 < k) (short : k ≤ 31)
    (names : Names s fun day weekday => s.dayOfMonth.has day && s.hasWeekday weekday)
    (steps : StepDays s k) {index : Nat} (march : monthAt index = 3)
    (first : s.matchesDay (monthStart index) = true) :
    s.matchesDay (monthStart (index + 1)) = true := by
  have length := @lengthOf_long index (by rw [march]; decide)
  have start := monthStart_succ index
  have april : monthAt (index + 1) = 4 := by
    rw [monthAt] at march ⊢
    omega
  have shorter := @lengthOf_thirty (index + 1) (by rw [april]; decide)
  have after := monthStart_succ (index + 1)
  have whole := Nat.div_add_mod 30 k
  have rest := Nat.mod_lt 30 positive
  have beyond : k ≤ 30 ∨ 30 % k = 30 := by
    by_cases small : k ≤ 30
    · exact .inl small
    · exact .inr (Nat.mod_eq_of_lt (by omega))
  have last := steps_chain within names steps length first (30 / k) (by omega)
  have silent : ∀ other, monthStart index + k * (30 / k) < other →
      other < monthStart (index + 1) → s.matchesDay other = false :=
    fun other low high => steps_quiet names steps low (by rw [Nat.mul_succ]; omega) high
  obtain ⟨next, _, reached, close, follows⟩ := next_after within last silent
  have named := namesDay_of_matches follows reached (by omega)
  rw [names _ _ (by omega) (by omega) (weekday_lt _), Bool.and_eq_true, steps,
    Nat.add_sub_cancel] at named
  rw [Nat.mod_eq_of_lt (by omega)] at named
  rw [show monthStart (index + 1) = next by omega]
  exact follows

theorem matchesDay_first
    (names : Names s fun day weekday => s.dayOfMonth.has day && s.hasWeekday weekday)
    (steps : StepDays s k) {index : Nat} (named : s.month.has (monthAt index) = true) :
    s.matchesDay (monthStart index) = s.hasWeekday (weekday (monthStart index)) := by
  have own := @matchesDay_place s index 0 (lengthOf_pos _)
  have first : s.dayOfMonth.has 1 = true := (steps 1).mpr ⟨by omega, Nat.zero_mod k⟩
  rw [Nat.add_zero, named, names _ _ (by decide) (by decide) (weekday_lt _)] at own
  rw [own]
  show (true && (s.dayOfMonth.has 1 && s.hasWeekday _)) = s.hasWeekday _
  rw [first]
  rfl

theorem march_of_within (within : s.DaysWithin k) (short : k ≤ 31)
    (names : Names s fun day weekday => s.dayOfMonth.has day && s.hasWeekday weekday)
    (steps : StepDays s k) : s.month.has 3 = true := by
  by_contra missing
  obtain ⟨wanted, inWeek, has⟩ := exists_hasWeekday s
  obtain ⟨some, _, named⟩ := month_ne_nil s
  obtain ⟨index, _, same, begins, _⟩ := exists_aligned some 0 inWeek
  have own : s.month.has (monthAt index) = true := by
    rw [← Nat.add_zero index, monthAt_congr same]
    exact named
  have matching := matchesDay_first names steps own
  rw [begins, has] at matching
  have left : LeftOut s 2 1 := leftOut_one (Bool.eq_false_iff.mpr missing)
  have less := stretch_lt within matching left (by decide)
  rw [stretch_one, @fullLength_long 2 (by decide)] at less
  omega

/-- The 31 days of March are three more than weeks. -/
theorem weekday_shifted (within : s.DaysWithin k) (positive : 0 < k) (short : k ≤ 31)
    (names : Names s fun day weekday => s.dayOfMonth.has day && s.hasWeekday weekday)
    (steps : StepDays s k) {weekday : Nat} (inWeek : weekday < 7)
    (has : s.hasWeekday weekday = true) : s.hasWeekday ((weekday + 3) % 7) = true := by
  obtain ⟨index, _, same, begins, _⟩ := exists_aligned 2 0 inWeek
  have here : monthAt index = 3 := by
    rw [monthAt]
    omega
  have length := @lengthOf_long index (by rw [here]; decide)
  have matching := matchesDay_first names steps
    (by rw [here]; exact march_of_within within short names steps)
  rw [begins, has] at matching
  have next := first_of_april within positive short names steps here matching
  have start := monthStart_succ (index + 1)
  have long := lengthOf_pos (index + 1)
  have named := namesDay_of_matches next (Nat.le_refl _) (by omega)
  rw [names _ _ (by omega) (by omega) (weekday_lt _), Bool.and_eq_true, monthStart_succ,
    weekday_add, begins, length] at named
  rw [show (weekday + 3) % 7 = (weekday + 31) % 7 by omega]
  exact named.2

/-- Steps that some weekdays are left out of are not as close as the steps. -/
theorem everyWeekday_of_within (within : s.DaysWithin k) (positive : 0 < k) (short : k ≤ 31)
    (names : Names s fun day weekday => s.dayOfMonth.has day && s.hasWeekday weekday)
    (steps : StepDays s k) : EveryWeekday s := by
  obtain ⟨wanted, inWeek, has⟩ := exists_hasWeekday s
  have times : ∀ count, s.hasWeekday ((wanted + 3 * count) % 7) = true := by
    intro count
    induction count with
    | zero => rw [Nat.mul_zero, Nat.add_zero, Nat.mod_eq_of_lt inWeek]; exact has
    | succ count ih =>
      have moved :=
        weekday_shifted within positive short names steps (Nat.mod_lt _ (by decide)) ih
      rw [show (wanted + 3 * (count + 1)) % 7 = ((wanted + 3 * count) % 7 + 3) % 7 by omega]
      exact moved
  intro weekday bound
  have reached := times (5 * (weekday + 7 - wanted))
  rw [show (wanted + 3 * (5 * (weekday + 7 - wanted))) % 7 = weekday by omega] at reached
  exact reached

end DaySteps

section WeekSteps

variable {s : Schedule} {k : Nat}

/-- Weekdays come within a week exactly where no month is left out. -/
theorem week_iff (names : Names s fun _ weekday => s.hasWeekday weekday) :
    s.DaysWithin 7 ↔ EveryMonth s := by
  constructor
  · intro within
    by_contra lacking
    obtain ⟨_, matching⟩ := @exists_matchesDay s (fun _ => false) names
    obtain ⟨first, _, left⟩ := exists_leftOut lacking
    have less := stretch_lt within matching left (by decide)
    have := (fullLength_bounds first).1
    rw [stretch_one] at less
    omega
  · intro every
    obtain ⟨wanted, inWeek, has⟩ := exists_hasWeekday s
    exact @week_within s (fun _ => false) _ every names wanted inWeek has

/-- All days of some months come within a long month exactly where the long months are named. -/
theorem longMonths_iff (names : Names s fun _ weekday => s.hasWeekday weekday)
    (all : EveryWeekday s) :
    s.DaysWithin 31 ↔ ∀ month ∈ longMonths, s.month.has month = true := by
  have every : ∀ day weekday, 1 ≤ day → day ≤ 31 → weekday < 7 →
      s.namesDay day weekday = true := by
    intro day weekday first last inWeek
    rw [names _ _ first last inWeek]
    exact all _ inWeek
  constructor
  · intro within
    obtain ⟨_, matching⟩ := @exists_matchesDay s (fun _ => false) names
    exact (bridges_of_within within matching).long
  · intro long
    have bridges : Bridges s :=
      { long
        thirty := .inr fun weekday inWeek => ⟨every 31 _ (by decide) (by decide) inWeek,
          every 1 _ (by decide) (by decide) inWeek⟩
        february := .inr fun weekday _ => ⟨0, 1, by decide, by decide,
          every 31 _ (by decide) (by decide) (Nat.mod_lt _ (by decide)),
          every 1 _ (by decide) (by decide) (Nat.mod_lt _ (by decide))⟩ }
    exact @Bridges.weekdays_within s (fun _ => false) _ bridges names 0 (by decide)
      (all 0 (by decide))

/-- The same weekday some weeks later, in this or a later month. -/
theorem weeks_ahead {index offset target weeks : Nat}
    (names : Names s fun _ weekday => s.hasWeekday weekday)
    (own : s.hasWeekday (weekday (monthStart index + offset)) = true)
    (named : s.month.has (monthAt target) = true)
    (low : monthStart target ≤ monthStart index + offset + 7 * weeks)
    (high : monthStart index + offset + 7 * weeks < monthStart (target + 1)) :
    s.matchesDay (monthStart index + offset + 7 * weeks) = true := by
  have length := monthStart_succ target
  have same : weekday (monthStart index + offset + 7 * weeks) =
      weekday (monthStart index + offset) := by
    simp only [weekday]
    omega
  rw [← same] at own
  rw [show monthStart index + offset + 7 * weeks = monthStart target +
    (monthStart index + offset + 7 * weeks - monthStart target) by omega] at own ⊢
  exact names.matches_place (by omega) named own

/-- A weekday of the schedule later in the same month. -/
theorem weekday_ahead {index offset later : Nat}
    (names : Names s fun _ weekday => s.hasWeekday weekday)
    (named : s.month.has (monthAt index) = true) (inside : offset + later < lengthOf index)
    (own : s.hasWeekday ((weekday (monthStart index + offset) + later) % 7) = true) :
    s.matchesDay (monthStart index + offset + later) = true := by
  rw [← weekday_add, Nat.add_assoc] at own
  rw [Nat.add_assoc]
  exact names.matches_place inside named own

/-- A weekday comes in the week after the months that are left out. -/
theorem LeftOutWithin.weeks_within (bounded : LeftOutWithin s (7 * (k - 1))) (positive : 0 < k)
    (names : Names s fun _ weekday => s.hasWeekday weekday) :
    s.DaysWithin (min (7 * k) 400) := by
  intro day matching
  obtain ⟨index, offset, inside, rfl, named, own⟩ := names.place matching
  have start := monthStart_succ index
  by_cases here : offset + 7 < lengthOf index
  · exact ⟨7, by decide, by omega,
      @weeks_ahead s index offset index 1 names own named (by omega) (by omega)⟩
  · obtain ⟨count, year, left, next⟩ := exists_next named
    have most := bounded.stretch_le year left
    have all := (stretch_bounds (index + 1) count).2
    have far := monthStart_le_stretch (index + 1) count
    have low := @monthStart_le (index + 1) (index + 1 + count) (by omega)
    have length := monthStart_succ (index + 1 + count)
    have long := (lengthOf_bounds (index + 1 + count)).1
    have weeks : ∃ weeks, weeks = (monthStart (index + 1 + count) - (monthStart index + offset) +
      6) / 7 := ⟨_, rfl⟩
    obtain ⟨weeks, eq⟩ := weeks
    refine ⟨7 * weeks, by omega, by omega, ?_⟩
    exact weeks_ahead names own next (by omega) (by omega)

/-- With Sunday and Friday, five weeks cross any short month. -/
theorem LeftOutWithin.five_within (bounded : LeftOutWithin s 30)
    (names : Names s fun _ weekday => s.hasWeekday weekday)
    (values : ∀ weekday < 7, s.hasWeekday weekday = true ↔ weekday = 0 ∨ weekday = 5) :
    s.DaysWithin 35 := by
  intro day matching
  obtain ⟨index, offset, inside, rfl, named, own⟩ := names.place matching
  have start := monthStart_succ index
  have either : weekday (monthStart index + offset) = 0 ∨ weekday (monthStart index + offset) = 5 :=
    (values _ (Nat.mod_lt _ (by decide))).mp own
  by_cases here : offset + 7 < lengthOf index
  · exact ⟨7, by decide, by omega,
      @weeks_ahead s index offset index 1 names own named (by omega) (by omega)⟩
  · obtain ⟨count, year, left, next⟩ := exists_next named
    have most := bounded.stretch_le year left
    have all := (stretch_bounds (index + 1) count).1
    have far := monthStart_le_stretch (index + 1) count
    have low := @monthStart_le (index + 1) (index + 1 + count) (by omega)
    have length := monthStart_succ (index + 1 + count)
    have long := (lengthOf_bounds (index + 1 + count)).1
    by_cases none : count = 0
    · subst none
      have second := monthStart_succ (index + 1)
      have room := (lengthOf_bounds (index + 1)).1
      exact ⟨7, by decide, by decide, @weeks_ahead s index offset (index + 1) 1 names own next
        (by omega) (by omega)⟩
    · have five : (offset + 5 ≥ lengthOf index ∨ weekday (monthStart index + offset) = 5 ∧
            offset + 2 ≥ lengthOf index) →
          s.matchesDay (monthStart index + offset + 7 * 5) = true := by
        intro late
        exact weeks_ahead names own next (by omega) (by omega)
      -- the other weekday comes first where it is still in the month
      rcases either with sunday | friday
      · by_cases late : offset + 5 ≥ lengthOf index
        · exact ⟨35, by decide, by decide, five (.inl late)⟩
        · exact ⟨5, by decide, by decide, weekday_ahead names named (by omega)
            ((values _ (Nat.mod_lt _ (by decide))).mpr (by omega))⟩
      · by_cases late : offset + 2 ≥ lengthOf index
        · exact ⟨35, by decide, by decide, five (.inr ⟨friday, late⟩)⟩
        · exact ⟨2, by decide, by decide, weekday_ahead names named (by omega)
            ((values _ (Nat.mod_lt _ (by decide))).mpr (by omega))⟩

/-- A step of weekdays reaches over months that are shorter by a week than its reach. -/
theorem leftOutWithin_of_weeks (within : s.DaysWithin (7 * k)) (positive : 0 < k)
    (names : Names s fun _ weekday => s.hasWeekday weekday)
    (values : ∀ weekday < 7, s.hasWeekday weekday = true ↔
      ∃ value ≤ 7, value % k = 0 ∧ value % 7 = weekday) :
    LeftOutWithin s (7 * (k - 1)) ∨ k = 5 ∧ LeftOutWithin s 30 := by
  obtain ⟨day, matching⟩ := @exists_matchesDay s (fun _ => false) names
  have named : ∀ day, s.matchesDay day = true → ∃ value ≤ 7, value % k = 0 ∧
      value % 7 = weekday day := by
    intro day matching
    obtain ⟨_, _, _, rfl, _, own⟩ := names.place matching
    exact (values _ (Nat.mod_lt _ (by decide))).mp own
  by_cases five : k = 5
  · subst five
    refine .inr ⟨rfl, fun first _ count year left => ?_⟩
    obtain ⟨index, last, next, _, _, begins, _, before, reached, close, own, _⟩ :=
      crossing within matching left (by omega) (show 5 < 7 by decide)
    obtain ⟨value, most, step, eq⟩ := named last own
    have either : value = 0 ∨ value = 5 := by omega
    rw [weekday] at begins eq
    rcases either with rfl | rfl
    · omega
    · omega
  · refine .inl fun first _ count year left => ?_
    have less := stretch_lt within matching left (by omega)
    have bounds := stretch_bounds first count
    by_cases large : 7 ≤ k
    · obtain ⟨index, last, next, _, _, begins, _, before, reached, close, own, _⟩ :=
        crossing within matching left (by omega) (show 0 < 7 by decide)
      obtain ⟨value, most, step, eq⟩ := named last own
      have multiple : value = 0 ∨ value = 7 := by
        by_cases small : value < k
        · rw [Nat.mod_eq_of_lt small] at step
          exact .inl step
        · omega
      rw [weekday] at begins eq
      omega
    · have : count = 0 ∨ count = 1 := by omega
      omega

end WeekSteps

end CronSchedules
