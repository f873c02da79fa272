import SecReviewBot.TextCodecs

/-!
# Timestamps and their ISO texts

An instant is a number of microseconds since the first of January of the year 1,
in UTC and the Gregorian calendar: the precision of a PostgreSQL `timestamptz`. A
JavaScript `Date` has milliseconds. Both sides write ISO 8601 texts, with six and
three digits of a second, and `isoInstant` reads them.
-/

namespace Calendars

open TextCodecs

structure CivilDate where
  year : Nat
  month : Nat
  day : Nat
  deriving DecidableEq

def leapYear (year : Nat) : Bool := year % 4 == 0 && (year % 100 != 0 || year % 400 == 0)

def monthLengths (year : Nat) : List Nat :=
  [31, if leapYear year then 29 else 28, 31, 30, 31, 30, 31, 31, 30, 31, 30, 31]

/-- The days of the months together. -/
def totalDays : List Nat → Nat
  | [] => 0
  | length :: rest => length + totalDays rest

/-- The days of the first `years` years. -/
def daysBefore (years : Nat) : Nat := 365 * years + years / 4 - years / 100 + years / 400

def dayNumber (date : CivilDate) : Nat :=
  daysBefore (date.year - 1) + totalDays ((monthLengths date.year).take (date.month - 1)) +
    (date.day - 1)

/-- The years completed before a day: cycles of 400, 100, 4 and 1 years. -/
def completedYears (days : Nat) : Nat :=
  let inCycle := days % 146097
  let centuries := min 3 (inCycle / 36524)
  let inCentury := inCycle - 36524 * centuries
  400 * (days / 146097) + 100 * centuries + 4 * (inCentury / 1461) +
    min 3 (inCentury % 1461 / 365)

/-- The month a day of the year lies in, counted from zero, and the day within it. -/
def splitMonths : List Nat → Nat → Nat × Nat
  | [], day => (0, day)
  | length :: rest, day =>
    if day < length then (0, day)
    else ((splitMonths rest (day - length)).1 + 1, (splitMonths rest (day - length)).2)

def civilDate (days : Nat) : CivilDate :=
  let year := completedYears days + 1
  let split := splitMonths (monthLengths year) (days - daysBefore (year - 1))
  { year, month := split.1 + 1, day := split.2 + 1 }

/-- A day by its place in the cycles. -/
theorem daysBefore_cycles {cycles centuries quads years : Nat} (hc : centuries ≤ 3)
    (hq : quads ≤ 24) (hy : years ≤ 3) :
    daysBefore (400 * cycles + 100 * centuries + 4 * quads + years) =
      146097 * cycles + 36524 * centuries + 1461 * quads + 365 * years := by
  have four : (400 * cycles + 100 * centuries + 4 * quads + years) / 4 =
      100 * cycles + 25 * centuries + quads := by omega
  have hundred : (400 * cycles + 100 * centuries + 4 * quads + years) / 100 =
      4 * cycles + centuries := by omega
  have whole : (400 * cycles + 100 * centuries + 4 * quads + years) / 400 = cycles := by omega
  rw [daysBefore, four, hundred, whole]
  omega

theorem leapYear_cycles {cycles centuries quads years : Nat} (hc : centuries ≤ 3)
    (hq : quads ≤ 24) (hy : years ≤ 3) :
    leapYear (400 * cycles + 100 * centuries + 4 * quads + years + 1) = true ↔
      years = 3 ∧ (quads = 24 → centuries = 3) := by
  simp only [leapYear, Bool.and_eq_true, Bool.or_eq_true, beq_iff_eq, bne_iff_ne]
  omega

theorem completedYears_cycles (days : Nat) :
    ∃ cycles centuries quads years day, centuries ≤ 3 ∧ quads ≤ 24 ∧ years ≤ 3 ∧
      completedYears days = 400 * cycles + 100 * centuries + 4 * quads + years ∧
      days = 146097 * cycles + 36524 * centuries + 1461 * quads + 365 * years + day ∧
      (day < 365 ∨ day = 365 ∧ years = 3 ∧ (quads = 24 → centuries = 3)) := by
  have centuries : ∃ n, n = min 3 (days % 146097 / 36524) := ⟨_, rfl⟩
  obtain ⟨n, hn⟩ := centuries
  have quads : ∃ r, r = days % 146097 - 36524 * n := ⟨_, rfl⟩
  obtain ⟨r, hr⟩ := quads
  have years : ∃ y, y = min 3 (r % 1461 / 365) := ⟨_, rfl⟩
  obtain ⟨y, hy⟩ := years
  refine ⟨days / 146097, n, r / 1461, y, r % 1461 - 365 * y, by omega, by omega, by omega, ?_,
    by omega, by omega⟩
  subst hn hr hy
  rfl

theorem daysBefore_completedYears (days : Nat) :
    daysBefore (completedYears days) ≤ days ∧
      days < daysBefore (completedYears days) + 365 +
        if leapYear (completedYears days + 1) then 1 else 0 := by
  obtain ⟨cycles, centuries, quads, years, day, hc, hq, hy, form, total, last⟩ :=
    completedYears_cycles days
  rw [form, daysBefore_cycles hc hq hy]
  constructor
  · omega
  · rcases last with short | ⟨rfl, leap⟩
    · omega
    · rw [if_pos ((leapYear_cycles hc hq hy).mpr leap)]
      omega

theorem splitMonths_sum (lengths : List Nat) (day : Nat) :
    totalDays (lengths.take (splitMonths lengths day).1) + (splitMonths lengths day).2 = day := by
  induction lengths generalizing day with
  | nil => simp [splitMonths, totalDays]
  | cons length rest ih =>
    rw [splitMonths]
    split
    · simp [totalDays]
    · have := ih (day - length)
      simp only [List.take_succ_cons, totalDays]
      omega

/-- A day of the year lies in one of its months. -/
theorem splitMonths_lt {lengths : List Nat} {day : Nat} (inside : day < totalDays lengths) :
    (splitMonths lengths day).1 < lengths.length ∧
      ∃ length, lengths[(splitMonths lengths day).1]? = some length ∧
        (splitMonths lengths day).2 < length := by
  induction lengths generalizing day with
  | nil => simp [totalDays] at inside
  | cons length rest ih =>
    rw [splitMonths]
    split
    · next first => simp [first]
    · next later =>
      rw [totalDays] at inside
      obtain ⟨bound, found, get, lt⟩ := ih (show day - length < totalDays rest by omega)
      exact ⟨by simpa using bound, found, by simpa using get, lt⟩

theorem monthLengths_sum (year : Nat) :
    totalDays (monthLengths year) = 365 + if leapYear year then 1 else 0 := by
  rw [monthLengths]
  split <;> rfl

theorem dayNumber_civilDate (days : Nat) : dayNumber (civilDate days) = days := by
  have low := (daysBefore_completedYears days).1
  have months := splitMonths_sum (monthLengths (completedYears days + 1))
    (days - daysBefore (completedYears days))
  simp only [dayNumber, civilDate, Nat.add_sub_cancel]
  omega

/-- A date that the calendar has. -/
def CivilDate.valid (date : CivilDate) : Bool :=
  decide (1 ≤ date.year) && decide (1 ≤ date.month) && decide (1 ≤ date.day) &&
    ((monthLengths date.year)[date.month - 1]?).any fun length => decide (date.day ≤ length)

theorem civilDate_valid (days : Nat) : (civilDate days).valid = true := by
  obtain ⟨low, high⟩ := daysBefore_completedYears days
  have inside : days - daysBefore (completedYears days) <
      totalDays (monthLengths (completedYears days + 1)) := by
    rw [monthLengths_sum]
    omega
  obtain ⟨_, length, get, lt⟩ := splitMonths_lt inside
  simp only [CivilDate.valid, civilDate, Nat.add_sub_cancel, get, Option.any_some]
  simpa using Nat.succ_le_of_lt lt

theorem civilDate_bounds (days : Nat) :
    1 ≤ (civilDate days).year ∧ (civilDate days).month ≤ 12 ∧ (civilDate days).day ≤ 31 := by
  obtain ⟨low, high⟩ := daysBefore_completedYears days
  have inside : days - daysBefore (completedYears days) <
      totalDays (monthLengths (completedYears days + 1)) := by
    rw [monthLengths_sum]
    omega
  obtain ⟨bound, length, get, lt⟩ := splitMonths_lt inside
  have most : length ≤ 31 := by
    have mem := List.mem_of_getElem? get
    simp only [monthLengths, List.mem_cons, List.not_mem_nil, or_false] at mem
    split at mem <;> omega
  refine ⟨by simp [civilDate], ?_, ?_⟩
  · have twelve : (monthLengths (completedYears days + 1)).length = 12 := rfl
    simp only [civilDate, Nat.add_sub_cancel]
    omega
  · simp only [civilDate, Nat.add_sub_cancel]
    omega

/-- The instants of the years 1 to 9999. -/
def FourDigitYear (micros : Nat) : Prop := micros < 315537897600000000

instance (micros : Nat) : Decidable (FourDigitYear micros) :=
  inferInstanceAs (Decidable (micros < 315537897600000000))

theorem year_lt_of_fourDigitYear {micros : Nat} (h : FourDigitYear micros) :
    (civilDate (micros / 86400000000)).year < 10000 := by
  have days : micros / 86400000000 < 3652059 := by
    rw [FourDigitYear] at h
    omega
  obtain ⟨cycles, centuries, quads, years, day, hc, hq, hy, form, total, last⟩ :=
    completedYears_cycles (micros / 86400000000)
  simp only [civilDate, form]
  omega

/-- The milliseconds of the `Date` that the driver makes of a `timestamptz`. -/
def driverDate (micros : Nat) : Nat := micros / 1000

/-- `YYYY-MM-DDTHH:MM:SS` and a fraction of a second, in UTC. -/
def isoText (year : Nat → List Char) (seconds : Nat) (fraction : List Char) : String :=
  let date := civilDate (seconds / 86400)
  String.ofList (year date.year ++ '-' :: (digits 2 date.month ++ '-' :: (digits 2 date.day ++
    'T' :: (digits 2 (seconds / 3600 % 24) ++ ':' :: (digits 2 (seconds / 60 % 60) ++
      ':' :: (digits 2 (seconds % 60) ++ '.' :: (fraction ++ ['Z'])))))))

/-- `YYYY` of `to_char`: at least four digits. -/
def yearDigits (year : Nat) : List Char :=
  if year < 10000 then digits 4 year
  else if year < 100000 then digits 5 year
  else digits 6 year

/-- The year of `toISOString`: the expanded form from the year 10000 on. -/
def isoYear (year : Nat) : List Char :=
  if year < 10000 then digits 4 year else '+' :: digits 6 year

/-- `to_char(at AT TIME ZONE 'UTC', 'YYYY-MM-DD"T"HH24:MI:SS.US"Z"')`. -/
def toChar (micros : Nat) : String :=
  isoText yearDigits (micros / 1000000) (digits 6 (micros % 1000000))

/-- `Date.prototype.toISOString`. -/
def toISOString (millis : Nat) : String :=
  isoText isoYear (millis / 1000) (digits 3 (millis % 1000))

def expect (c : Char) : List Char → Option (List Char)
  | [] => none
  | d :: rest => if d = c then some rest else none

/-- Digits that end the text. -/
def readLast (width : Nat) (text : List Char) : Option Nat := do
  let (n, rest) ← takeDigits width text
  if rest = ['Z'] then some n else none

/-- The microseconds of a fraction of six or three digits. -/
def readFraction (text : List Char) : Option Nat :=
  readLast 6 text <|> (readLast 3 text).map (· * 1000)

/-- The instant an ISO 8601 text in UTC names. -/
def isoInstant (text : String) : Option Nat := do
  let (year, rest) ← takeDigits 4 text.toList
  let rest ← expect '-' rest
  let (month, rest) ← takeDigits 2 rest
  let rest ← expect '-' rest
  let (day, rest) ← takeDigits 2 rest
  let rest ← expect 'T' rest
  let (hour, rest) ← takeDigits 2 rest
  let rest ← expect ':' rest
  let (minute, rest) ← takeDigits 2 rest
  let rest ← expect ':' rest
  let (second, rest) ← takeDigits 2 rest
  let rest ← expect '.' rest
  let micros ← readFraction rest
  let date : CivilDate := { year, month, day }
  if date.valid && decide (hour < 24) && decide (minute < 60) && decide (second < 60) then
    some ((((dayNumber date * 24 + hour) * 60 + minute) * 60 + second) * 1000000 + micros)
  else none

@[simp] theorem expect_cons (c : Char) (rest : List Char) : expect c (c :: rest) = some rest := by
  simp [expect]

theorem readLast_digits {width n : Nat} (fits : n < radix width) :
    readLast width (digits width n ++ ['Z']) = some n := by
  simp [readLast, takeDigits_digits_of_lt fits]

theorem readFraction_six {n : Nat} (h : n < 1000000) :
    readFraction (digits 6 n ++ ['Z']) = some n := by
  rw [readFraction, readLast_digits (show n < radix 6 from h)]
  rfl

theorem readFraction_three {n : Nat} (h : n < 1000) :
    readFraction (digits 3 n ++ ['Z']) = some (n * 1000) := by
  have six : takeDigits 6 (digits 3 n ++ ['Z']) = none := by
    by_contra some
    obtain ⟨⟨m, rest⟩, read⟩ := Option.ne_none_iff_exists'.mp some
    have := takeDigits_length read
    simp only [List.length_append, digits_length, List.length_singleton] at this
    omega
  rw [readFraction, readLast, six, readLast_digits (show n < radix 3 from h)]
  rfl

theorem isoInstant_isoText {seconds micros : Nat} {fraction : List Char}
    {year : Nat → List Char} (written : year (civilDate (seconds / 86400)).year =
      digits 4 (civilDate (seconds / 86400)).year)
    (four : (civilDate (seconds / 86400)).year < 10000)
    (read : readFraction (fraction ++ ['Z']) = some micros) :
    isoInstant (isoText year seconds fraction) = some (seconds * 1000000 + micros) := by
  obtain ⟨_, month, day⟩ := civilDate_bounds (seconds / 86400)
  have valid := civilDate_valid (seconds / 86400)
  have number := dayNumber_civilDate (seconds / 86400)
  rw [isoInstant, isoText, String.toList_ofList, written]
  generalize civilDate (seconds / 86400) = date at *
  rw [takeDigits_digits_of_lt (show date.year < radix 4 from four)]
  have hmonth : date.month < radix 2 := by
    have : radix 2 = 100 := rfl
    omega
  have hday : date.day < radix 2 := by
    have : radix 2 = 100 := rfl
    omega
  have hhour : seconds / 3600 % 24 < radix 2 := by
    have : radix 2 = 100 := rfl
    omega
  have hminute : seconds / 60 % 60 < radix 2 := by
    have : radix 2 = 100 := rfl
    omega
  have hsecond : seconds % 60 < radix 2 := by
    have : radix 2 = 100 := rfl
    omega
  simp only [Option.bind_eq_bind, Option.bind_some, expect_cons, takeDigits_digits_of_lt hmonth,
    takeDigits_digits_of_lt hday, takeDigits_digits_of_lt hhour, takeDigits_digits_of_lt hminute,
    takeDigits_digits_of_lt hsecond, read, valid, Bool.true_and]
  have whole : (((seconds / 86400 * 24 + seconds / 3600 % 24) * 60 + seconds / 60 % 60) * 60 +
      seconds % 60) = seconds := by omega
  rw [if_pos, number, whole]
  · simp only [Bool.and_eq_true, decide_eq_true_eq]
    omega

theorem isoInstant_toChar {micros : Nat} (h : FourDigitYear micros) :
    isoInstant (toChar micros) = some micros := by
  have four := year_lt_of_fourDigitYear h
  have days : micros / 1000000 / 86400 = micros / 86400000000 := by
    rw [Nat.div_div_eq_div_mul]
  have written : yearDigits (civilDate (micros / 1000000 / 86400)).year =
      digits 4 (civilDate (micros / 1000000 / 86400)).year := by
    rw [days, yearDigits, if_pos four]
  have whole : micros / 1000000 * 1000000 + micros % 1000000 = micros := by omega
  rw [toChar, isoInstant_isoText written (days ▸ four) (readFraction_six (by omega)), whole]

theorem isoInstant_toISOString {millis : Nat} (h : FourDigitYear (millis * 1000)) :
    isoInstant (toISOString millis) = some (millis * 1000) := by
  have four := year_lt_of_fourDigitYear h
  have days : millis / 1000 / 86400 = millis * 1000 / 86400000000 := by omega
  have written : isoYear (civilDate (millis / 1000 / 86400)).year =
      digits 4 (civilDate (millis / 1000 / 86400)).year := by
    rw [days, isoYear, if_pos four]
  have whole : millis / 1000 * 1000000 + millis % 1000 * 1000 = millis * 1000 := by omega
  rw [toISOString, isoInstant_isoText written (days ▸ four) (readFraction_three (by omega)),
    whole]

/-- The characters of an ISO text. -/
theorem mem_isoText {year : Nat → List Char} {seconds : Nat} {fraction : List Char} {c : Char}
    (mem : c ∈ (isoText year seconds fraction).toList) :
    c ∈ year (civilDate (seconds / 86400)).year ∨ c ∈ fraction ∨
      (digitValue c).isSome = true ∨ c ∈ ['-', 'T', ':', '.', 'Z'] := by
  have two : ∀ n, c ∈ digits 2 n → (digitValue c).isSome = true := fun n h => digits_spec 2 n c h
  simp only [isoText, String.toList_ofList, List.mem_append, List.mem_cons, List.not_mem_nil,
    or_false] at mem
  simp only [List.mem_cons, List.not_mem_nil, or_false]
  rcases mem with h | h | h | h | h | h | h | h | h | h | h | h | h | h
  · exact .inl h
  · simp [h]
  · simp [two _ h]
  · simp [h]
  · simp [two _ h]
  · simp [h]
  · simp [two _ h]
  · simp [h]
  · simp [two _ h]
  · simp [h]
  · simp [two _ h]
  · simp [h]
  · exact .inr (.inl h)
  · simp [h]

theorem mem_toChar {micros : Nat} {c : Char} (mem : c ∈ (toChar micros).toList) :
    (digitValue c).isSome = true ∨ c ∈ ['-', 'T', ':', '.', 'Z'] := by
  rcases mem_isoText mem with h | h | h | h
  · rw [yearDigits] at h
    split at h
    · exact .inl (digits_spec _ _ c h)
    · split at h <;> exact .inl (digits_spec _ _ c h)
  · exact .inl (digits_spec _ _ c h)
  · exact .inl h
  · exact .inr h

/-- The two readers of timestamps the services call: `Date.parse`, whose NaN is
`none`, and the input function of PostgreSQL's `timestamptz`. Both read more texts
than the ISO ones; only these are relied on. -/
structure TimestampReaders where
  dateParse : String → Option Int
  timestamptz : String → Option Nat
  dateParse_iso : ∀ text micros, isoInstant text = some micros → (dateParse text).isSome = true
  timestamptz_iso : ∀ text micros, isoInstant text = some micros → timestamptz text = some micros

/-- Milliseconds between the first day of the calendar and the epoch. -/
def epochMillis : Nat := 62135596800000

/-- Readers of the ISO texts alone. -/
def isoReaders : TimestampReaders where
  dateParse := fun text => (isoInstant text).map fun micros =>
    (driverDate micros : Int) - (epochMillis : Int)
  timestamptz := isoInstant
  dateParse_iso := by
    intro text micros h
    simp [h]
  timestamptz_iso := fun _ _ h => h

end Calendars
