import Mathlib.Data.Nat.Find
import SecReviewBot.CalendarMonths
import SecReviewBot.TextPieces

/-!
# Cron schedules

Expressions of five fields and the minutes they name in the Gregorian calendar, counted from
the first of January of the year one. The gap between two occurrences is a matter of days:
it stays within a number of days exactly when every day of the schedule is followed by
another one within that number.
-/

namespace CronSchedules

open Calendars TextPieces

def readNumber (digits : List Char) : Option Nat :=
  match readNumeral digits with
  | some (n, []) => some n
  | _ => none

/-- One element of a list: `*`, `*/n`, a number or a range. -/
def itemValues (low high : Nat) : List Char → Option (List Nat)
  | ['*'] => some (List.range' low (high + 1 - low))
  | '*' :: '/' :: digits =>
    (readNumber digits).bind fun n =>
      if n = 0 then none
      else some ((List.range' low (high + 1 - low)).filter fun value => (value - low) % n = 0)
  | token =>
    match token.dropWhile (· ≠ '-') with
    | [] => (readNumber token).map fun value => [value]
    | _ :: last => do
      let first ← readNumber (token.takeWhile (· ≠ '-'))
      let last ← readNumber last
      if first ≤ last then some (List.range' first (last + 1 - first)) else none

/-- The values of a field, all within its bounds. -/
structure Field (low high : Nat) where
  values : List Nat
  nonempty : values ≠ []
  bounded : ∀ value ∈ values, low ≤ value ∧ value ≤ high

def Field.has {low high : Nat} (field : Field low high) (value : Nat) : Bool :=
  field.values.contains value

def readField (low high : Nat) (token : String) : Option (Field low high) :=
  ((token.toList.splitOn ',').mapM (itemValues low high)).bind fun lists =>
    if h : lists.flatten ≠ [] ∧ ∀ value ∈ lists.flatten, low ≤ value ∧ value ≤ high then
      some { values := lists.flatten, nonempty := h.1, bounded := h.2 }
    else none

structure Schedule where
  minute : Field 0 59
  hour : Field 0 23
  dayOfMonth : Field 1 31
  month : Field 1 12
  dayOfWeek : Field 0 7
  /-- The field does not begin with `*`. -/
  monthDays : Bool
  weekDays : Bool

def readSchedule : List String → Option Schedule
  | [minute, hour, dayOfMonth, month, dayOfWeek] => do
    let minute ← readField 0 59 minute
    let hour ← readField 0 23 hour
    let days ← readField 1 31 dayOfMonth
    let month ← readField 1 12 month
    let week ← readField 0 7 dayOfWeek
    some { minute, hour, dayOfMonth := days, month, dayOfWeek := week
           monthDays := !startsWith dayOfMonth "*", weekDays := !startsWith dayOfWeek "*" }
  | _ => none

section Occurrences

variable (s : Schedule)

/-- Sunday is both 0 and 7. -/
def Schedule.hasWeekday (weekday : Nat) : Bool :=
  s.dayOfWeek.values.any fun value => value % 7 == weekday

/-- One of the fields of days is enough where neither begins with `*`. -/
def Schedule.namesDay (day weekday : Nat) : Bool :=
  if s.monthDays && s.weekDays then s.dayOfMonth.has day || s.hasWeekday weekday
  else s.dayOfMonth.has day && s.hasWeekday weekday

def Schedule.matchesDay (day : Nat) : Bool :=
  let date := civilDate day
  s.month.has date.month && s.namesDay date.day (weekday day)

/-- The minute of a day. -/
def Schedule.atTime (minutes : Nat) : Bool :=
  s.hour.has (minutes / 60) && s.minute.has (minutes % 60)

def Schedule.occurs (minutes : Nat) : Bool :=
  s.matchesDay (minutes / 1440) && s.atTime (minutes % 1440)

structure Schedule.Consecutive (first second : Nat) : Prop where
  before : first < second
  first_occurs : s.occurs first = true
  second_occurs : s.occurs second = true
  between : ∀ minutes, first < minutes → minutes < second → s.occurs minutes = false

end Occurrences

variable {s : Schedule} {day : Nat}

theorem matchesDay_cycle (s : Schedule) (day : Nat) :
    s.matchesDay (day + cycleDays) = s.matchesDay day := by
  simp only [Schedule.matchesDay, civilDate_cycle, weekday_cycle]

/-- The day at a place in a month. -/
theorem matchesDay_place (s : Schedule) {index offset : Nat} (inside : offset < lengthOf index) :
    s.matchesDay (monthStart index + offset) = (s.month.has (monthAt index) &&
      s.namesDay (offset + 1) (weekday (monthStart index + offset))) := by
  rw [Schedule.matchesDay, civilDate_place inside]
  rfl

theorem exists_atTime (s : Schedule) : ∃ minutes < 1440, s.atTime minutes = true := by
  obtain ⟨hour, hourMem⟩ := List.exists_mem_of_ne_nil _ s.hour.nonempty
  obtain ⟨minute, minuteMem⟩ := List.exists_mem_of_ne_nil _ s.minute.nonempty
  have hourBound := (s.hour.bounded hour hourMem).2
  have minuteBound := (s.minute.bounded minute minuteMem).2
  refine ⟨hour * 60 + minute, by omega, ?_⟩
  rw [Schedule.atTime, Field.has, Field.has, show (hour * 60 + minute) / 60 = hour by omega,
    show (hour * 60 + minute) % 60 = minute by omega, Bool.and_eq_true,
    List.contains_iff_mem, List.contains_iff_mem]
  exact ⟨hourMem, minuteMem⟩

theorem occurs_iff {time : Nat} (inside : time < 1440) :
    s.occurs (day * 1440 + time) = true ↔ s.matchesDay day = true ∧ s.atTime time = true := by
  rw [Schedule.occurs, show (day * 1440 + time) / 1440 = day by omega,
    show (day * 1440 + time) % 1440 = time by omega, Bool.and_eq_true]

/-- Every day of the schedule is followed by another one within some days. -/
def Schedule.DaysWithin (s : Schedule) (days : Nat) : Prop :=
  ∀ day, s.matchesDay day = true →
    ∃ later, 0 < later ∧ later ≤ days ∧ s.matchesDay (day + later) = true

/-- Occurrences are at most some days apart exactly when the days are. -/
theorem gap_le_iff (s : Schedule) (days : Nat) :
    (∀ first second, s.Consecutive first second → second ≤ first + days * 1440) ↔
      s.DaysWithin days := by
  constructor
  · intro gaps day matching
    obtain ⟨time, timeBound, atTime⟩ := exists_atTime s
    -- the last occurrence of the day and the one after it
    have lastBound := Nat.findGreatest_le (P := fun time => s.atTime time = true) 1439
    have last := Nat.findGreatest_spec (P := fun time => s.atTime time = true)
      (show time ≤ 1439 by omega) atTime
    have greatest : ∀ other, other ≤ 1439 → s.atTime other = true →
        other ≤ Nat.findGreatest (fun time => s.atTime time = true) 1439 :=
      fun other bound own => Nat.le_findGreatest bound own
    generalize Nat.findGreatest (fun time => s.atTime time = true) 1439 = final at *
    have again : ∃ minutes, day * 1440 + final < minutes ∧ s.occurs minutes = true := by
      refine ⟨(day + cycleDays) * 1440 + final, by rw [cycleDays]; omega, ?_⟩
      rw [occurs_iff (by omega), matchesDay_cycle]
      exact ⟨matching, last⟩
    obtain ⟨after, occurs⟩ := Nat.find_spec again
    have least := fun minutes => Nat.find_min again (m := minutes)
    have close := gaps (day * 1440 + final) (Nat.find again)
      { before := after
        first_occurs := (occurs_iff (by omega)).mpr ⟨matching, last⟩
        second_occurs := occurs
        between := by
          intro minutes low high
          rw [Bool.eq_false_iff]
          exact fun own => least minutes high ⟨low, own⟩ }
    generalize Nat.find again = next at *
    rw [show next = next / 1440 * 1440 + next % 1440 by omega, occurs_iff (by omega)] at occurs
    have early := greatest (next % 1440) (by omega) occurs.2
    refine ⟨next / 1440 - day, ?_, by omega, ?_⟩
    · omega
    · rw [show day + (next / 1440 - day) = next / 1440 by omega]
      exact occurs.1
  · intro apart first second consecutive
    have occurs := consecutive.first_occurs
    rw [show first = first / 1440 * 1440 + first % 1440 by omega, occurs_iff (by omega)] at occurs
    obtain ⟨later, positive, bound, matching⟩ := apart (first / 1440) occurs.1
    have again : s.occurs ((first / 1440 + later) * 1440 + first % 1440) = true :=
      (occurs_iff (by omega)).mpr ⟨matching, occurs.2⟩
    by_contra far
    have none_between := consecutive.between ((first / 1440 + later) * 1440 + first % 1440)
      (by omega) (by omega)
    rw [again] at none_between
    cases none_between

end CronSchedules
