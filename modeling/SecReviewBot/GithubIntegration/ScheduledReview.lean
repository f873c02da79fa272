import Mathlib.Data.List.TakeWhile
import SecReviewBot.CronSteps
import SecReviewBot.DoubleSums

/-!
# Look-back of scheduled scans

`repository-review.ts`: a scheduled scan starts from a commit about one interval of its
schedule back, and the interval is read off the cron expression, at the first field that is
restricted. The commits since the last scan are covered when the look-back is no shorter
than the gap between two occurrences. Times are milliseconds from the first day of the calendar
on, and the product of the cutoff is exact in double precision as far as dates reach.
-/

namespace ScheduledReview

open Calendars CronSchedules DoubleSums TextCodecs TextPieces

/-- `text.split(/\s+/)` without the empty pieces. -/
def words (text : String) : List String :=
  ((text.toList.splitOnP ecmaSpace).filter (· ≠ [])).map String.ofList

/-- `/^\*\/([0-9]+)$/` and the number it captures, a double that is neither zero nor infinite. -/
def step (token : String) : Option Nat :=
  match token.toList with
  | '*' :: '/' :: digits =>
    (readNumber digits).bind fun n =>
      let value := nearestDouble n
      if value = 0 ∨ 1 <<< 1024 ≤ value then none else some value
  | _ => none

def inferRollbackDaysFromCron (expr : Option String) : Nat :=
  match words (strip ecmaSpace (expr.getD "")) with
  | [_, hour, dom, month, dow] =>
    let domStep := step dom
    if dom ≠ "*" ∨ domStep ≠ none then domStep.getD 31
    else
      let dowStep := step dow
      if dow ≠ "*" ∨ dowStep ≠ none then
        match dowStep with
        | some value => nearestDouble (7 * value)
        | none => 7
      else if month ≠ "*" then 31
      else
        match step hour with
        | some value => max 1 ((value + 23) / 24)
        | none => 1
  | _ => 7

/-- `toISOString`, with the years before the first counted back. -/
def isoDate (millis : Int) : String :=
  let cycleMillis := cycleDays * 86400000
  let cycles := ((-millis).toNat + cycleMillis - 1) / cycleMillis
  let shifted := (millis + cycles * cycleMillis).toNat
  let year := fun year =>
    if 400 * cycles < year then isoYear (year - 400 * cycles)
    else if year = 400 * cycles then digits 4 0
    else '-' :: digits 6 (400 * cycles - year)
  isoText year (shifted / 1000) (digits 3 (shifted % 1000))

structure Commit where
  sha : String
  time : Int

def optionalString (value : Option String) : Option String :=
  let text := strip ecmaSpace (value.getD "")
  if text = "" then none else some text

/-- The earliest and the latest `Date`. -/
def dateBound : Int := 8640000000000000

def cutoffTime (now : Int) (rollbackDays : Nat) : Except String Int :=
  let time := now - rollbackDays * 24 * 60 * 60 * 1000
  if time - epochMillis < -dateBound ∨ dateBound < time - epochMillis then
    .error "Invalid time value"
  else .ok time

/-- `listCommits` answers with the commits up to a time, the newest first. -/
def resolveScheduledBaseSha (listCommits : (sha : String) → (untilTime : Int) → List Commit)
    (headSha : String) (schedule : Option String) (now : Int) : Except String String := do
  let cutoff ← cutoffTime now (inferRollbackDaysFromCron (optionalString schedule))
  let candidate := strip ecmaSpace (((listCommits headSha cutoff).head?.map Commit.sha).getD "")
  if candidate = "" ∨ candidate = headSha then
    .error s!"scheduled incremental scan requires a resolvable base_sha before {isoDate cutoff}."
  else .ok candidate

theorem readNumber_digits {digits : List Char} {n : Nat} (read : readNumber digits = some n) :
    ∀ c ∈ digits, c.isDigit = true := by
  rw [readNumber] at read
  split at read
  · next number whole =>
    rw [readNumeral] at whole
    split at whole
    · cases whole
    · rw [Option.some.injEq, Prod.mk.injEq] at whole
      exact List.dropWhile_eq_nil_iff.mp whole.2
  · cases read

theorem fieldItems_single {token : String} (single : ',' ∉ token.toList) :
    token.toList.splitOn ',' = [token.toList] := by
  rw [List.splitOn_eq_splitOnP]
  refine List.splitOnP_eq_singleton fun c mem => ?_
  rw [beq_eq_false_iff_ne]
  rintro rfl
  exact single mem

/-- A field of one element has the values of the element. -/
theorem readField_single {low high : Nat} {token : String} {field : Field low high}
    (single : ',' ∉ token.toList) (read : readField low high token = some field) :
    itemValues low high token.toList = some field.values := by
  rw [readField, fieldItems_single single] at read
  obtain ⟨lists, items, checked⟩ := Option.bind_eq_some_iff.mp read
  rw [List.mapM_cons, List.mapM_nil] at items
  cases values : itemValues low high token.toList with
  | none => simp [values] at items
  | some own =>
    simp only [values, Option.bind_eq_bind, Option.bind_some, Option.pure_def,
      Option.some.injEq] at items
    split at checked
    · cases checked
      simp [← items]
    · cases checked

theorem readField_star {low high : Nat} {field : Field low high}
    (read : readField low high "*" = some field) (value : Nat) :
    field.has value = true ↔ low ≤ value ∧ value ≤ high := by
  have values := readField_single (by decide) read
  have star : itemValues low high "*".toList = some (List.range' low (high + 1 - low)) := rfl
  rw [star, Option.some.injEq] at values
  rw [Field.has, List.contains_iff_mem, ← values, List.mem_range'_1]
  omega

theorem readField_step {low high n : Nat} {token : String} {field : Field low high}
    (read : readField low high token = some field) (steps : step token = some n) :
    ∃ k, 0 < k ∧ nearestDouble k = n ∧ ∀ value,
      field.has value = true ↔ (low ≤ value ∧ value ≤ high) ∧ (value - low) % k = 0 := by
  rw [step] at steps
  split at steps
  · next digits chars =>
    obtain ⟨k, number, steps⟩ := Option.bind_eq_some_iff.mp steps
    simp only at steps
    split at steps
    · cases steps
    · next proper =>
      cases steps
      have single : ',' ∉ token.toList := by
        rw [chars]
        intro comma
        have digit : ',' ∈ digits := by simpa using comma
        exact absurd (readNumber_digits number ',' digit) (by decide)
      have positive : k ≠ 0 := by
        rintro rfl
        exact proper (.inl rfl)
      have values := readField_single single read
      rw [chars] at values
      have own : itemValues low high ('*' :: '/' :: digits) =
          some ((List.range' low (high + 1 - low)).filter fun value => (value - low) % k = 0) := by
        simp [itemValues, number, positive]
      rw [own, Option.some.injEq] at values
      refine ⟨k, Nat.pos_of_ne_zero positive, rfl, fun value => ?_⟩
      rw [Field.has, List.contains_iff_mem, ← values, List.mem_filter, List.mem_range'_1,
        decide_eq_true_eq]
      refine and_congr_left fun _ => ?_
      omega
  · cases steps

theorem readSchedule_parts {minute hour dom month dow : String} {s : Schedule}
    (read : readSchedule [minute, hour, dom, month, dow] = some s) :
    readField 1 31 dom = some s.dayOfMonth ∧ readField 1 12 month = some s.month ∧
      readField 0 7 dow = some s.dayOfWeek ∧ s.monthDays = !startsWith dom "*" ∧
      s.weekDays = !startsWith dow "*" := by
  simp only [readSchedule, Option.bind_eq_bind] at read
  obtain ⟨_, _, read⟩ := Option.bind_eq_some_iff.mp read
  obtain ⟨_, _, read⟩ := Option.bind_eq_some_iff.mp read
  obtain ⟨days, daysRead, read⟩ := Option.bind_eq_some_iff.mp read
  obtain ⟨months, monthsRead, read⟩ := Option.bind_eq_some_iff.mp read
  obtain ⟨week, weekRead, read⟩ := Option.bind_eq_some_iff.mp read
  cases read
  exact ⟨daysRead, monthsRead, weekRead, rfl, rfl⟩

theorem everyMonth_star {s : Schedule} (read : readField 1 12 "*" = some s.month) :
    EveryMonth s := by
  intro month mem
  have bounds := List.mem_range'_1.mp mem
  exact (readField_star read month).mpr (by omega)

theorem everyDay_star {s : Schedule} (read : readField 1 31 "*" = some s.dayOfMonth) :
    EveryDay s := by
  intro day mem
  have bounds := List.mem_range'_1.mp mem
  exact (readField_star read day).mpr (by omega)

theorem hasWeekday_of_has {s : Schedule} {weekday : Nat} (inWeek : weekday < 7)
    (has : s.dayOfWeek.has weekday = true) : s.hasWeekday weekday = true := by
  rw [Schedule.hasWeekday, List.any_eq_true]
  exact ⟨weekday, List.contains_iff_mem.mp has, by rw [Nat.mod_eq_of_lt inWeek, beq_self_eq_true]⟩

theorem everyWeekday_star {s : Schedule} (read : readField 0 7 "*" = some s.dayOfWeek) :
    EveryWeekday s := fun weekday inWeek =>
  hasWeekday_of_has inWeek ((readField_star read weekday).mpr (by omega))

theorem hasWeekday_step {s : Schedule} {token : String} {n : Nat}
    (read : readField 0 7 token = some s.dayOfWeek) (steps : step token = some n) :
    ∃ k, 0 < k ∧ nearestDouble k = n ∧ ∀ weekday < 7, s.hasWeekday weekday = true ↔
      ∃ value ≤ 7, value % k = 0 ∧ value % 7 = weekday := by
  obtain ⟨k, positive, rounds, has⟩ := readField_step read steps
  refine ⟨k, positive, rounds, fun weekday _ => ?_⟩
  rw [Schedule.hasWeekday, List.any_eq_true]
  constructor
  · rintro ⟨value, mem, same⟩
    obtain ⟨bounds, whole⟩ := (has value).mp (List.contains_iff_mem.mpr mem)
    exact ⟨value, bounds.2, whole, beq_iff_eq.mp same⟩
  · rintro ⟨value, most, whole, same⟩
    exact ⟨value, List.contains_iff_mem.mp ((has value).mpr ⟨⟨Nat.zero_le _, most⟩, whole⟩),
      beq_iff_eq.mpr same⟩

theorem startsWith_step {token : String} {n : Nat} (steps : step token = some n) :
    startsWith token "*" = true := by
  rw [step] at steps
  split at steps
  · next digits chars =>
    rw [startsWith, chars]
    rfl
  · cases steps

section LookBack

variable {minute hour dom month dow : String} {s : Schedule}

/-- The look-back of an expression that restricts its days. -/
def reach (dom dow : String) : Nat :=
  if dom ≠ "*" then (step dom).getD 31
  else
    match step dow with
    | some value => nearestDouble (7 * value)
    | none => 7

theorem step_star : step "*" = none := rfl

theorem rollback_days {expr : String}
    (parts : words (strip ecmaSpace expr) = [minute, hour, dom, month, dow])
    (days : dom ≠ "*" ∨ dow ≠ "*") :
    inferRollbackDaysFromCron (some expr) = reach dom dow := by
  simp only [inferRollbackDaysFromCron, Option.getD_some, parts, reach]
  by_cases domAny : dom = "*"
  · subst domAny
    have dowNamed : dow ≠ "*" := days.resolve_left fun named => named rfl
    simp [step_star, dowNamed]
  · simp [domAny]

theorem rollback_months {expr : String}
    (parts : words (strip ecmaSpace expr) = [minute, hour, "*", month, "*"])
    (months : month ≠ "*") : inferRollbackDaysFromCron (some expr) = 31 := by
  simp [inferRollbackDaysFromCron, parts, step_star, months]

theorem rollback_positive {expr : String}
    (parts : words (strip ecmaSpace expr) = [minute, hour, "*", month, "*"]) :
    1 ≤ inferRollbackDaysFromCron (some expr) := by
  simp only [inferRollbackDaysFromCron, Option.getD_some, parts, step_star]
  by_cases months : month = "*"
  · cases step hour with
    | none => simp [months]
    | some value =>
      simp only [months]
      exact Nat.le_max_left _ _
  · simp [months]

/-- A step of days is as far back as its own days are apart. -/
theorem step_reach {k n later : Nat} (rounds : nearestDouble k = n) (first : later ≤ k)
    (last : later ≤ 400) : later ≤ n := by
  by_cases small : k < exactBound
  · rw [nearestDouble_of_lt small] at rounds
    omega
  · have large := exactBound_le_nearestDouble (Nat.le_of_not_lt small)
    rw [exactBound] at large
    omega

theorem step_small {k n : Nat} (rounds : nearestDouble k = n) (small : k < 400 ∨ n < 400) :
    n = k := by
  have inside : k < 400 := small.elim id fun less => by
    by_contra far
    have := @step_reach k n 400 rounds (by omega) (by decide)
    omega
  rw [← rounds, nearestDouble_of_lt (by rw [exactBound]; omega)]

theorem week_reach {value : Nat} (positive : 0 < value) : 7 ≤ nearestDouble (7 * value) :=
  step_reach rfl (by omega) (by decide)

theorem step_positive {token : String} {value : Nat} (steps : step token = some value) :
    0 < value := by
  rw [step] at steps
  split at steps
  · obtain ⟨k, _, steps⟩ := Option.bind_eq_some_iff.mp steps
    simp only at steps
    split at steps
    · cases steps
    · next proper =>
      cases steps
      exact Nat.pos_of_ne_zero fun zero => proper (.inl zero)
  · cases steps

end LookBack

section Windows

variable {minute hour dom month dow expr : String} {s : Schedule}

/-- The look-back covers the time since the occurrence before, and the base commit that it
leads to is no newer than that occurrence. -/
def NoGap (expr : String) (s : Schedule) : Prop :=
  ∀ first second, s.Consecutive first second →
    second ≤ first + inferRollbackDaysFromCron (some expr) * 1440 ∧
    ∀ listCommits : (sha : String) → (untilTime : Int) → List Commit,
      (∀ sha untilTime, ∀ commit ∈ listCommits sha untilTime, commit.time ≤ untilTime) →
      ∀ headSha baseSha,
        resolveScheduledBaseSha listCommits headSha (some expr) (second * 60000) = .ok baseSha →
        ∃ untilTime, ∃ commit ∈ listCommits headSha untilTime,
          strip ecmaSpace commit.sha = baseSha ∧ commit.time ≤ first * 60000

/-- All days of the month, and what months are left out beside the weekdays. -/
def WeekdaysCovered (dow : String) (s : Schedule) : Prop :=
  EveryMonth s ∨ (dow = "*" ∧ ∀ month ∈ longMonths, s.month.has month = true) ∨
    ∃ k, step dow = some k ∧ (LeftOutWithin s (7 * (k - 1)) ∨ k = 5 ∧ LeftOutWithin s 30)

/-- Every so many days of a month, whatever the weekday. -/
def StepsCovered (n : Nat) (s : Schedule) : Prop :=
  EveryWeekday s ∧ (EveryMonth s ∨
    (n = 30 ∧ ∀ month ∈ List.range' 1 12, month ≠ 2 → s.month.has month = true) ∨
    31 ≤ n ∧ FirstsWithin s n)

/-- Not even in a leap year a month has one of its days. -/
def NoDays (s : Schedule) : Prop :=
  ∀ month ∈ s.month.values, ∀ day ∈ s.dayOfMonth.values, monthLength 4 month < day

def Alternatives (s : Schedule) : Prop := (s.monthDays && s.weekDays) = true

def DaysCovered (s : Schedule) : Prop :=
  ((Alternatives s ∨ EveryDay s) ∧ Bridges s) ∨
    (¬ Alternatives s ∧ EveryWeekday s ∧
      ((EveryMonth s ∧ ∃ day ∈ s.dayOfMonth.values, day ≤ 28) ∨ NoDays s ∨
        ¬ EveryMonth s ∧ Bridges s))

/-- What the fields must be for the look-back to cover the gaps. -/
def Covered (dom dow : String) (s : Schedule) : Prop :=
  if dom = "*" then WeekdaysCovered dow s
  else
    match step dom with
    | some n => StepsCovered n s
    | none => DaysCovered s

/-- Some numbers on some weekdays, which fall together now and then. -/
structure Mixed (dom : String) (s : Schedule) : Prop where
  named : dom ≠ "*"
  together : ¬ Alternatives s
  some_days : ¬ EveryDay s
  some_weekdays : ¬ EveryWeekday s
  far : ∀ n, step dom = some n → 31 < n

theorem inferRollbackDays_optionalString (expr : String) :
    inferRollbackDaysFromCron (optionalString (some expr)) =
      inferRollbackDaysFromCron (some expr) := by
  simp only [optionalString, Option.getD_some]
  split
  · next blank =>
    simp only [inferRollbackDaysFromCron, Option.getD_none, Option.getD_some, blank]
    rfl
  · simp only [inferRollbackDaysFromCron, Option.getD_some, strip_strip]

theorem resolved_base {listCommits : (sha : String) → (untilTime : Int) → List Commit}
    {headSha baseSha : String} {schedule : Option String} {now : Int}
    (resolved : resolveScheduledBaseSha listCommits headSha schedule now = .ok baseSha) :
    ∃ commit ∈ listCommits headSha
        (now - inferRollbackDaysFromCron (optionalString schedule) * 86400000),
      strip ecmaSpace commit.sha = baseSha := by
  rw [resolveScheduledBaseSha] at resolved
  cases time : cutoffTime now (inferRollbackDaysFromCron (optionalString schedule)) with
  | error message =>
    rw [time] at resolved
    cases resolved
  | ok cutoff =>
    have value : cutoff =
        now - inferRollbackDaysFromCron (optionalString schedule) * 86400000 := by
      simp only [cutoffTime] at time
      split at time
      · cases time
      · cases time
        omega
    simp only [time, Except.bind, bind] at resolved
    rw [← value]
    split at resolved
    · cases resolved
    · next proper =>
      rw [Except.ok.injEq] at resolved
      cases listed : (listCommits headSha cutoff).head? with
      | none =>
        rw [listed] at proper
        exact absurd (.inl rfl) proper
      | some commit =>
        rw [listed] at resolved
        exact ⟨commit, List.mem_of_mem_head? listed, resolved⟩

theorem noGap_iff (expr : String) (s : Schedule) :
    NoGap expr s ↔ s.DaysWithin (inferRollbackDaysFromCron (some expr)) := by
  rw [← gap_le_iff]
  constructor
  · exact fun noGap first second consecutive => (noGap first second consecutive).1
  · intro covers first second consecutive
    have close := covers first second consecutive
    refine ⟨close, fun listCommits documented headSha baseSha resolved => ?_⟩
    obtain ⟨commit, mem, sha⟩ := resolved_base resolved
    have early := documented _ _ commit mem
    rw [inferRollbackDays_optionalString] at early
    exact ⟨_, commit, mem, sha, by omega⟩

/-- A step of weekdays, with its weeks rounded. -/
theorem stepWeeks_iff {n k : Nat} (names : Names s fun _ weekday => s.hasWeekday weekday)
    (positive : 0 < k) (rounds : nearestDouble k = n)
    (values : ∀ weekday < 7, s.hasWeekday weekday = true ↔
      ∃ value ≤ 7, value % k = 0 ∧ value % 7 = weekday) :
    s.DaysWithin (nearestDouble (7 * n)) ↔
      LeftOutWithin s (7 * (n - 1)) ∨ n = 5 ∧ LeftOutWithin s 30 := by
  by_cases small : k < 400
  · have exact : nearestDouble k = k := nearestDouble_of_lt (by rw [exactBound]; omega)
    obtain rfl : n = k := rounds.symm.trans exact
    rw [nearestDouble_of_lt (by rw [exactBound]; omega)]
    constructor
    · exact fun within => leftOutWithin_of_weeks within positive names values
    · rintro (bounded | ⟨rfl, bounded⟩)
      · exact (bounded.weeks_within positive names).mono (Nat.min_le_left _ _)
      · refine bounded.five_within names fun weekday inWeek => ?_
        rw [values _ inWeek]
        constructor
        · rintro ⟨value, most, whole, rfl⟩
          have either : value = 0 ∨ value = 5 := by omega
          rcases either with rfl | rfl
          · exact .inl rfl
          · exact .inr rfl
        · rintro (rfl | rfl)
          · exact ⟨0, by decide, by decide, by decide⟩
          · exact ⟨5, by decide, by decide, by decide⟩
  · have far : 400 ≤ n := step_reach rounds (by omega) (by decide)
    have bounded : LeftOutWithin s (7 * (n - 1)) := by
      intro first _ count year _
      have := (stretch_bounds first count).2
      omega
    refine iff_of_true ?_ (.inl bounded)
    have reached : 400 ≤ nearestDouble (7 * n) :=
      step_reach rfl (by omega) (by decide)
    exact (bounded.weeks_within (by omega) names).mono ((Nat.min_le_right _ _).trans reached)

/-- Without days in the schedule only its months count. -/
theorem months_iff (parts : words (strip ecmaSpace expr) = [minute, hour, "*", month, "*"])
    (monthRead : readField 1 12 month = some s.month)
    (names : Names s fun _ weekday => s.hasWeekday weekday) (all : EveryWeekday s) :
    s.DaysWithin (inferRollbackDaysFromCron (some expr)) ↔
      EveryMonth s ∨ ∀ month ∈ longMonths, s.month.has month = true := by
  by_cases monthAny : month = "*"
  · subst monthAny
    have every := everyMonth_star monthRead
    refine iff_of_true ?_ (.inl every)
    refine Schedule.DaysWithin.mono ?_ (rollback_positive parts)
    intro day _
    refine ⟨1, by decide, by decide, ?_⟩
    obtain ⟨index, offset, inside, eq⟩ := exists_place (day + 1)
    rw [eq]
    exact names.matches_place inside (every.has _) (all _ (weekday_lt _))
  · rw [rollback_months parts monthAny, longMonths_iff names all]
    constructor
    · exact .inr
    · rintro (every | long)
      · exact every.bridges.long
      · exact long

theorem weekdays_iff (parts : words (strip ecmaSpace expr) = [minute, hour, "*", month, dow])
    (read : readSchedule [minute, hour, "*", month, dow] = some s) :
    s.DaysWithin (inferRollbackDaysFromCron (some expr)) ↔ WeekdaysCovered dow s := by
  obtain ⟨domRead, monthRead, dowRead, monthDays, weekDays⟩ := readSchedule_parts read
  have one : (s.monthDays && s.weekDays) = false := by
    rw [monthDays]
    rfl
  have names := names_weekdays one (everyDay_star domRead)
  by_cases dowAny : dow = "*"
  · subst dowAny
    rw [months_iff parts monthRead names (everyWeekday_star dowRead)]
    constructor
    · rintro (every | long)
      · exact .inl every
      · exact .inr (.inl ⟨rfl, long⟩)
    · rintro (every | ⟨_, long⟩ | ⟨k, steps, _⟩)
      · exact .inl every
      · exact .inr long
      · cases step_star.symm.trans steps
  · rw [rollback_days parts (.inr dowAny), reach, if_neg (by simp)]
    cases steps : step dow with
    | none =>
      show s.DaysWithin 7 ↔ _
      rw [week_iff names]
      constructor
      · exact .inl
      · rintro (every | ⟨any, _⟩ | ⟨k, some, _⟩)
        · exact every
        · exact absurd any dowAny
        · cases steps.symm.trans some
    | some n =>
      obtain ⟨k, positive, rounds, values⟩ := hasWeekday_step dowRead steps
      show s.DaysWithin (nearestDouble (7 * n)) ↔ _
      constructor
      · exact fun within =>
          .inr (.inr ⟨n, steps, (stepWeeks_iff names positive rounds values).mp within⟩)
      · rintro (every | ⟨any, _⟩ | ⟨_, some, bounded⟩)
        · exact ((week_iff names).mpr every).mono (week_reach (step_positive steps))
        · exact absurd any dowAny
        · cases steps.symm.trans some
          exact (stepWeeks_iff names positive rounds values).mpr bounded

section Steps

variable {n k : Nat}

theorem StepsCovered.within (covered : StepsCovered n s)
    (one : (s.monthDays && s.weekDays) = false) (positive : 0 < k) (rounds : nearestDouble k = n)
    (steps : StepDays s k) : s.DaysWithin n := by
  obtain ⟨all, months⟩ := covered
  have names := names_days one all
  by_cases every : EveryMonth s
  · exact (stepDays_within every positive names steps).mono
      (step_reach rounds (Nat.min_le_left _ _) ((Nat.min_le_right _ _).trans (by decide)))
  · rcases months with full | ⟨rfl, others⟩ | ⟨far, bounded⟩
    · exact absurd full every
    · have same := step_small rounds (.inr (by decide))
      exact thirty_of_months every (names_thirty names steps same) others
    · refine bounded.within (names_firsts names steps ?_)
      by_contra near
      have := step_small rounds (.inl (by omega))
      omega

theorem stepsCovered_of_within (within : s.DaysWithin n)
    (one : (s.monthDays && s.weekDays) = false) (positive : 0 < k) (rounds : nearestDouble k = n)
    (steps : StepDays s k) (far : 31 < n → EveryWeekday s) : StepsCovered n s := by
  have all : EveryWeekday s := by
    by_cases short : n ≤ 31
    · obtain rfl := step_small rounds (.inr (by omega))
      exact everyWeekday_of_within within positive short (names_together one) steps
    · exact far (by omega)
  have names := names_days one all
  refine ⟨all, ?_⟩
  by_cases every : EveryMonth s
  · exact .inl every
  · obtain ⟨some, _, named⟩ := month_ne_nil s
    have matching : s.matchesDay (monthStart some + 0) = true := by
      refine names.matches_place (lengthOf_pos _) named ?_
      exact (steps 1).mpr ⟨by omega, Nat.zero_mod k⟩
    obtain ⟨first, _, left⟩ := exists_leftOut every
    have less := stretch_lt within matching left (by decide)
    have least := (fullLength_bounds first).1
    rw [stretch_one] at less
    by_cases thirty : n = 30
    · subst thirty
      have same := step_small rounds (.inr (by decide))
      exact .inr (.inl ⟨rfl, months_of_thirty (names_thirty names steps same) within⟩)
    · refine .inr (.inr ⟨by omega, firstsWithin_of_within (names_firsts names steps ?_) within⟩)
      by_contra near
      have := step_small rounds (.inl (by omega))
      omega

end Steps

theorem DaysCovered.within (covered : DaysCovered s) : s.DaysWithin 31 := by
  rcases covered with ⟨either, bridges⟩ | ⟨together, all, rest⟩
  · obtain ⟨wanted, inWeek, has⟩ := exists_hasWeekday s
    obtain ⟨_, names⟩ := names_either either
    exact bridges.weekdays_within names inWeek has
  · have names := names_days (Bool.eq_false_iff.mpr together) all
    rcases rest with ⟨every, days⟩ | none | ⟨lacking, bridges⟩
    · exact (monthDays_within every names).mpr days
    · intro day matching
      obtain ⟨index, offset, inside, _, named, own⟩ := names.place matching
      have most := lengthOf_le_full index
      have past := none _ (List.contains_iff_mem.mp named) _ (List.contains_iff_mem.mp own)
      rw [fullLength] at most
      omega
    · exact bridges.days_within lacking names

theorem noDays_of_empty (names : Names s fun day _ => s.dayOfMonth.has day)
    (empty : ∀ day, s.matchesDay day = false) : NoDays s := by
  intro month monthMem day dayMem
  by_contra inside
  have monthBounds := s.month.bounded month monthMem
  have dayBounds := s.dayOfMonth.bounded day dayMem
  obtain ⟨index, _, same, _, full⟩ := exists_aligned (month - 1) 0 (show 0 < 7 by decide)
  have own : monthAt index = month := by
    rw [monthAt]
    omega
  have length := full 0 (by decide)
  rw [Nat.add_zero, fullLength, own] at length
  have matching : s.matchesDay (monthStart index + (day - 1)) = true := by
    refine names.matches_place (by omega) ?_ ?_
    · rw [own]
      exact List.contains_iff_mem.mpr monthMem
    · rw [show day - 1 + 1 = day by omega]
      exact List.contains_iff_mem.mpr dayMem
  rw [empty] at matching
  cases matching

theorem daysCovered_of_within (within : s.DaysWithin 31)
    (all : ¬ Alternatives s → ¬ EveryDay s → EveryWeekday s) : DaysCovered s := by
  by_cases either : Alternatives s ∨ EveryDay s
  · obtain ⟨_, names⟩ := names_either either
    obtain ⟨_, matching⟩ := exists_matchesDay names
    exact .inl ⟨either, bridges_of_within within matching⟩
  · obtain ⟨together, some⟩ := not_or.mp either
    have weekdays := all together some
    have names := names_days (Bool.eq_false_iff.mpr together) weekdays
    refine .inr ⟨together, weekdays, ?_⟩
    by_cases every : EveryMonth s
    · exact .inl ⟨every, (monthDays_within every names).mp within⟩
    · by_cases matching : ∃ day, s.matchesDay day = true
      · obtain ⟨_, matching⟩ := matching
        exact .inr (.inr ⟨every, bridges_of_within within matching⟩)
      · refine .inr (.inl (noDays_of_empty names fun day => ?_))
        exact Bool.eq_false_iff.mpr fun own => matching ⟨day, own⟩

/-- Fields like these are enough for the look-back to cover the time between consecutive scans,
and but for mixed ones they are needed. -/
theorem noGap_iff_covered
    (parts : words (strip ecmaSpace expr) = [minute, hour, dom, month, dow])
    (read : readSchedule [minute, hour, dom, month, dow] = some s) :
    (Covered dom dow s → NoGap expr s) ∧ (¬ Mixed dom s → NoGap expr s → Covered dom dow s) := by
  rw [noGap_iff, Covered]
  by_cases domAny : dom = "*"
  · subst domAny
    rw [if_pos rfl, weekdays_iff parts read]
    exact ⟨id, fun _ => id⟩
  · obtain ⟨domRead, _, _, monthDays, _⟩ := readSchedule_parts read
    rw [if_neg domAny, rollback_days parts (.inl domAny), reach, if_pos domAny]
    cases steps : step dom with
    | some n =>
      obtain ⟨k, positive, rounds, values⟩ := readField_step domRead steps
      have one : (s.monthDays && s.weekDays) = false := by
        rw [monthDays, startsWith_step steps]
        rfl
      refine ⟨fun covered => covered.within one positive rounds values, fun apart within => ?_⟩
      refine stepsCovered_of_within within one positive rounds values fun far => ?_
      by_contra some
      refine apart
        { named := domAny
          together := by rw [Alternatives, one]; decide
          some_days := fun every => ?_
          some_weekdays := some
          far := fun other same => ?_ }
      · have second := (values 2).mp (every 2 (by decide))
        rw [Nat.mod_eq_of_lt (show 1 < k by
          by_contra small
          have := step_small rounds (.inl (by omega))
          omega)] at second
        omega
      · rw [steps, Option.some.injEq] at same
        omega
    | none =>
      refine ⟨fun covered => covered.within, fun apart within => ?_⟩
      refine daysCovered_of_within within fun together some => ?_
      by_contra lacking
      refine apart ⟨domAny, together, some, lacking, fun n steps' => ?_⟩
      rw [steps] at steps'
      cases steps'

/-- On every second day of the month. -/
theorem everySecondDay_covered : ∃ s, readSchedule ["30", "6", "*/2", "*", "*"] = some s ∧
    NoGap "30 6 */2 * *" s ∧ Covered "*/2" "*" s := by
  cases read : readSchedule ["30", "6", "*/2", "*", "*"] with
  | none =>
    have : (readSchedule ["30", "6", "*/2", "*", "*"]).isSome = true := by decide
    rw [read] at this
    cases this
  | some s =>
    obtain ⟨_, monthRead, dowRead, _⟩ := readSchedule_parts read
    have both := @noGap_iff_covered _ _ _ _ _ "30 6 */2 * *" s (by decide) read
    have noGap := both.1 ⟨everyWeekday_star dowRead, .inl (everyMonth_star monthRead)⟩
    exact ⟨s, rfl, noGap,
      both.2 (fun mixed => mixed.some_weekdays (everyWeekday_star dowRead)) noGap⟩

/-- From the last Monday of January to the next January, when the look-back is a week. -/
theorem mondays_of_january_leave_gap : ∃ s, readSchedule ["0", "9", "*", "1", "1"] = some s ∧
    ¬ NoGap "0 9 * 1 1" s := by
  cases read : readSchedule ["0", "9", "*", "1", "1"] with
  | none =>
    have : (readSchedule ["0", "9", "*", "1", "1"]).isSome = true := by decide
    rw [read] at this
    cases this
  | some s =>
    refine ⟨s, rfl, fun noGap => ?_⟩
    have days : ∀ later ∈ List.range' 1 7,
        (readSchedule ["0", "9", "*", "1", "1"]).any
          (fun s => s.matchesDay (monthStart 24264 + 29 + later)) = false := by
      decide
    have own : (readSchedule ["0", "9", "*", "1", "1"]).any
        (fun s => s.matchesDay (monthStart 24264 + 29)) = true := by
      decide
    rw [read] at days own
    obtain ⟨later, positive, bound, matching⟩ := (noGap_iff _ s).mp noGap _ own
    have lookBack : inferRollbackDaysFromCron (some "0 9 * 1 1") = 7 := by decide
    rw [lookBack] at bound
    have absent := days later (List.mem_range'_1.mpr (by omega))
    rw [Option.any_some, matching] at absent
    cases absent

end Windows

end ScheduledReview
