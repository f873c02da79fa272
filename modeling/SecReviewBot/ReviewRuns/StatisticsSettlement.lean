import Mathlib.Data.List.Induction
import SecReviewBot.ReviewRuns.ExecutionStatisticsStore

/-!
# Settlement of execution statistics

What a call does to the row and the groups of one run is an `Effect`, together
with what the history remembers of it: the deadline a claim read off its clock and
the snapshot it recorded. Takeovers, failures and rate limits all leave the hash of
the last snapshot alone, so the confirming read is compared with the snapshot
recorded right before it, whatever happened in between.
-/

namespace StatisticsSettlement

open KeyedTables TransitionSystems ExecutionStatisticsStore
open ReviewRunsSchema (RunId Token Timestamp)

/-- The deadline that a call which claims the run would set: `clock_timestamp()` plus
the settlement window. -/
def claimedUntil (runId : RunId) (s : Statistics) : Call → Option Timestamp
  | .claimNext options executions locked clock =>
    match claimNext options executions locked clock s with
    | .ok (some work, _) =>
      if work.runId = runId then some (clock 3 + options.settlementWindowMs) else none
    | _ => none
  | _ => none

/-- The snapshot a call records for the run. -/
def recordedBy (runId : RunId) (s : Statistics) : Call → Option ExecutionStatisticsSnapshot
  | .recordSnapshot work snapshot delay clock =>
    match recordSnapshot work snapshot delay clock s with
    | .ok _ => if work.runId = runId then some snapshot else none
    | .error _ => none
  | _ => none

def claims (calls : List Call) (runId : RunId) : List Timestamp :=
  (system.steps calls).filterMap fun p => claimedUntil runId p.1 p.2

/-- The snapshots recorded for a run, the oldest first. -/
def recordedSnapshots (calls : List Call) (runId : RunId) : List ExecutionStatisticsSnapshot :=
  (system.steps calls).filterMap fun p => recordedBy runId p.1 p.2

theorem claims_concat (calls : List Call) (call : Call) (runId : RunId) :
    claims (calls ++ [call]) runId =
      claims calls runId ++ (claimedUntil runId (system.run calls) call).toList := by
  rw [claims, claims, system.steps_concat, List.filterMap_append]
  cases h : claimedUntil runId (system.run calls) call <;> simp [h]

theorem recordedSnapshots_concat (calls : List Call) (call : Call) (runId : RunId) :
    recordedSnapshots (calls ++ [call]) runId =
      recordedSnapshots calls runId ++ (recordedBy runId (system.run calls) call).toList := by
  rw [recordedSnapshots, recordedSnapshots, system.steps_concat, List.filterMap_append]
  cases h : recordedBy runId (system.run calls) call <;> simp [h]

/-- The row and the groups of one run before and after a call, and what the history
remembers of it. -/
inductive Effect (row : Option StatisticsRow) (groups : List ExecutionStatisticsGroup) :
    Option StatisticsRow → List ExecutionStatisticsGroup → Option Timestamp →
      Option ExecutionStatisticsSnapshot → Prop where
  | unchanged : Effect row groups row groups none none
  | admitted (absent : row = none) (due now : Timestamp) :
      Effect row groups (some (admittedRow due now)) groups none none
  | claimed (options : StoreOptions) (token : Token) (clock : Nat → Timestamp)
      {old : StatisticsRow}
      (found : row = some old ∨ row = none ∧ ∃ due now, old = admittedRow due now)
      (unsettled : old.status.concluded = false) :
      Effect row groups (some (claimRow options token clock old)) groups
        (some (clock 3 + options.settlementWindowMs)) none
  | recorded (delay : Nat) (clock : Nat → Timestamp) (snapshot : ExecutionStatisticsSnapshot)
      {old : StatisticsRow} (found : row = some old) (held : old.status = .reconciling)
      (accepted : groupsAccepted snapshot.groups = true) :
      Effect row groups (some (snapshotRow delay clock old snapshot)) snapshot.groups none
        (some snapshot)
  | released (exhausted : Bool) (code : String) (next settled now : Timestamp) (failures : Nat)
      {old : StatisticsRow} (found : row = some old) (held : old.status = .reconciling) :
      Effect row groups
        (some (releaseRow exhausted code next settled now { old with failureCount := failures }))
        groups none none

theorem heldRow_some {work : ExecutionStatisticsWork} {s : Statistics} {row : StatisticsRow}
    (held : heldRow work s = some row) :
    s.rows.row work.runId = some row ∧ row.status = .reconciling ∧
      row.claimToken = some work.claimToken := by
  obtain ⟨found, holds⟩ := Option.filter_eq_some_iff.mp held
  simpa [found] using holds

theorem admitOne_row (options : StoreOptions) (executions : Table RunId ExecutionTimes)
    (now : Timestamp) (rows : Table RunId StatisticsRow) (key runId : RunId) :
    (admitOne options executions now rows key).row runId = rows.row runId ∨
      rows.row runId = none ∧ ∃ due,
        (admitOne options executions now rows key).row runId = some (admittedRow due now) := by
  rw [admitOne]
  split
  · next due absent _ =>
    by_cases same : runId = key
    · subst same
      exact .inr ⟨absent, due, by simp⟩
    · exact .inl (by simp [same])
  · exact .inl rfl

/-- Admission adds pending rows and leaves every existing one alone. -/
theorem admitExecutions_row (options : StoreOptions) (executions : Table RunId ExecutionTimes)
    (now : Timestamp) (rows : Table RunId StatisticsRow) (runId : RunId) :
    (admitExecutions options executions now rows).row runId = rows.row runId ∨
      rows.row runId = none ∧ ∃ due,
        (admitExecutions options executions now rows).row runId = some (admittedRow due now) := by
  rw [admitExecutions]
  induction executions.keys generalizing rows with
  | nil => exact .inl rfl
  | cons key rest ih =>
    rw [List.foldl_cons]
    rcases admitOne_row options executions now rows key runId with same | ⟨absent, due, new⟩
    · rw [← same]
      exact ih _
    · rcases ih (admitOne options executions now rows key) with later | ⟨gone, _⟩
      · exact .inr ⟨absent, due, later.trans new⟩
      · rw [new] at gone
        cases gone

theorem selectDue_unsettled {options : StoreOptions} {executions : Table RunId ExecutionTimes}
    {locked : RunId → Bool} {now : Timestamp} {rows : Table RunId StatisticsRow} {runId : RunId}
    (selected : selectDue options executions locked now rows = some runId) {row : StatisticsRow}
    (found : rows.row runId = some row) : row.status.concluded = false := by
  obtain ⟨other, found', holds⟩ := Table.mem_selectKeys.mp (List.mem_of_find?_eq_some selected)
  rw [found] at found'
  cases found'
  simp only [claimable, Bool.and_eq_true, Bool.or_eq_true, beq_iff_eq] at holds
  rcases holds.2.2 with pending | ⟨reconciling, _⟩
  · simp [pending, Status.concluded]
  · simp [reconciling, Status.concluded]

theorem claimNext_effect (options : StoreOptions) (executions : Table RunId ExecutionTimes)
    (locked : RunId → Bool) (clock : Nat → Timestamp) (s : Statistics) (runId : RunId) :
    Effect (s.rows.row runId) (s.groups runId)
      ((execute s (.claimNext options executions locked clock)).rows.row runId)
      ((execute s (.claimNext options executions locked clock)).groups runId)
      (claimedUntil runId s (.claimNext options executions locked clock)) none := by
  have admission := admitExecutions_row options executions (clock 0) s.rows runId
  -- a run that is not claimed is at most admitted
  have passed : ∀ {row : Option StatisticsRow},
      row = (admitExecutions options executions (clock 0) s.rows).row runId →
      Effect (s.rows.row runId) (s.groups runId) row (s.groups runId) none none := by
    rintro row rfl
    rcases admission with same | ⟨absent, due, new⟩
    · rw [same]
      exact .unchanged
    · rw [new]
      exact .admitted absent due (clock 0)
  simp only [execute, claimedUntil, claimNext]
  cases selected : selectDue options executions locked (clock 1)
      (admitExecutions options executions (clock 0) s.rows) with
  | none => exact passed rfl
  | some key =>
    dsimp only
    split
    · next row execution found _ =>
      dsimp only [stateAfter]
      by_cases same : key = runId
      · subst same
        rw [if_pos rfl, Table.put_row, if_pos rfl]
        refine .claimed options s.nextToken clock ?_ (selectDue_unsettled selected found)
        rcases admission with kept | ⟨absent, due, new⟩
        · exact .inl (kept ▸ found)
        · rw [new] at found
          cases found
          exact .inr ⟨absent, due, clock 0, rfl⟩
      · rw [if_neg same, Table.put_row, if_neg (Ne.symm same)]
        exact passed rfl
    · exact .unchanged

theorem recordSnapshot_effect (work : ExecutionStatisticsWork)
    (snapshot : ExecutionStatisticsSnapshot) (delay : Nat) (clock : Nat → Timestamp)
    (s : Statistics) (runId : RunId) :
    Effect (s.rows.row runId) (s.groups runId)
      ((execute s (.recordSnapshot work snapshot delay clock)).rows.row runId)
      ((execute s (.recordSnapshot work snapshot delay clock)).groups runId) none
      (recordedBy runId s (.recordSnapshot work snapshot delay clock)) := by
  simp only [execute, recordedBy, recordSnapshot]
  cases held : heldRow work s with
  | none => exact .unchanged
  | some row =>
    obtain ⟨found, reconciling, _⟩ := heldRow_some held
    dsimp only
    by_cases accepted : groupsAccepted snapshot.groups = true
    · rw [if_pos accepted]
      dsimp only [stateAfter]
      by_cases same : work.runId = runId
      · subst same
        rw [if_pos rfl, Table.put_row, if_pos rfl, Function.update_self]
        exact .recorded delay clock snapshot found reconciling accepted
      · rw [if_neg same, Table.put_row, if_neg (Ne.symm same),
          Function.update_of_ne (Ne.symm same)]
        exact .unchanged
    · rw [if_neg accepted]
      exact .unchanged

/-- A released row is one put under the run of the work. -/
theorem release_effect {work : ExecutionStatisticsWork} {s : Statistics} {row : StatisticsRow}
    (held : heldRow work s = some row) (exhausted : Bool) (code : String)
    (next settled now : Timestamp) (failures : Nat) (runId : RunId) :
    Effect (s.rows.row runId) (s.groups runId)
      ((s.rows.put work.runId
        (releaseRow exhausted code next settled now { row with failureCount := failures })).row
          runId)
      (s.groups runId) none none := by
  obtain ⟨found, reconciling, _⟩ := heldRow_some held
  rw [Table.put_row]
  by_cases same : runId = work.runId
  · subst same
    rw [if_pos rfl]
    exact .released exhausted code next settled now failures found reconciling
  · rw [if_neg same]
    exact .unchanged

theorem execute_effect (s : Statistics) (call : Call) (runId : RunId) :
    Effect (s.rows.row runId) (s.groups runId) ((execute s call).rows.row runId)
      ((execute s call).groups runId) (claimedUntil runId s call) (recordedBy runId s call) := by
  cases call with
  | claimNext options executions locked clock =>
    exact claimNext_effect options executions locked clock s runId
  | recordSnapshot work snapshot delay clock =>
    exact recordSnapshot_effect work snapshot delay clock s runId
  | recordFailure work maxFailures delay clock =>
    simp only [execute, claimedUntil, recordedBy, recordFailure]
    cases held : heldRow work s with
    | none => exact .unchanged
    | some row => exact release_effect held _ _ _ _ _ _ runId
  | recordRateLimit work delay now =>
    simp only [execute, claimedUntil, recordedBy, recordRateLimit]
    cases held : heldRow work s with
    | none => exact .unchanged
    | some row => exact release_effect held _ _ _ _ _ row.failureCount runId

theorem admittedRow_checked (due now : Timestamp) : (admittedRow due now).Checked where
  claim := .inr ⟨by simp [admittedRow], rfl, rfl⟩
  window := .inl rfl
  ingestion := rfl
  settlement := rfl
  failure := by simp [admittedRow]

theorem claimRow_checked {row : StatisticsRow} (checked : row.Checked)
    (unsettled : row.status.concluded = false) (options : StoreOptions) (token : Token)
    (clock : Nat → Timestamp) : (claimRow options token clock row).Checked where
  claim := .inl ⟨rfl, rfl, rfl⟩
  window := .inr rfl
  ingestion := unsettled.symm.trans checked.ingestion
  settlement := unsettled.symm.trans checked.settlement
  failure := by
    have : row.status ≠ .unavailable := by
      intro h
      rw [h] at unsettled
      cases unsettled
    have none := mt checked.failure.mpr this
    simpa [claimRow] using none

/-- A reconciling row has its window. -/
theorem window_of_reconciling {row : StatisticsRow} (checked : row.Checked)
    (held : row.status = .reconciling) : row.reconciliationDeadlineAt.isSome = true := by
  rcases checked.window with pending | window
  · rw [held] at pending
    cases pending
  · exact window

theorem snapshotRow_checked {row : StatisticsRow} (checked : row.Checked)
    (held : row.status = .reconciling) (delay : Nat) (clock : Nat → Timestamp)
    (snapshot : ExecutionStatisticsSnapshot) :
    (snapshotRow delay clock row snapshot).Checked := by
  have window := window_of_reconciling checked held
  have result : (stable row snapshot || deadlineReached (clock 0) row) = true →
      (snapshotResult (clock 0) row snapshot).ingestionStatus.isSome = true := by
    intro terminal
    rw [snapshotResult]
    split
    · rfl
    · next unstable =>
      have reached : deadlineReached (clock 0) row = true := by simpa [unstable] using terminal
      rw [if_pos reached]
      split <;> rfl
  cases terminal : stable row snapshot || deadlineReached (clock 0) row with
  | true =>
    have some := result terminal
    constructor <;> simp [snapshotRow, terminal, Status.concluded, some, window]
  | false => constructor <;> simp [snapshotRow, terminal, Status.concluded]

theorem releaseRow_checked {row : StatisticsRow} (checked : row.Checked)
    (held : row.status = .reconciling) (exhausted : Bool) (code : String)
    (next settled now : Timestamp) (failures : Nat) :
    (releaseRow exhausted code next settled now { row with failureCount := failures }).Checked := by
  have window := window_of_reconciling checked held
  cases exhausted with
  | true => constructor <;> simp [releaseRow, Status.concluded, window]
  | false => constructor <;> simp [releaseRow, Status.concluded]

/-- The last two snapshots agree, the last has review roots, and the row has it. -/
def Confirmed (row : StatisticsRow) (recorded : List ExecutionStatisticsSnapshot) : Prop :=
  ∃ earlier previous last, recorded = earlier ++ [previous, last] ∧
    0 < last.rootTraceCount ∧ last.observationSetHash = previous.observationSetHash ∧
    row.observationSetHash = some last.observationSetHash ∧
    row.rootTraceCount = last.rootTraceCount

structure RowSound (row : StatisticsRow) (claimed : List Timestamp)
    (recorded : List ExecutionStatisticsSnapshot) : Prop where
  checked : row.Checked
  deadline : row.reconciliationDeadlineAt = claimed.head?
  hash : row.observationSetHash = recorded.getLast?.map (·.observationSetHash)
  settled : row.ingestionStatus = some .settled → Confirmed row recorded

structure RunSound (row : Option StatisticsRow) (groups : List ExecutionStatisticsGroup)
    (claimed : List Timestamp) (recorded : List ExecutionStatisticsSnapshot) : Prop where
  absent : row = none → claimed = [] ∧ recorded = []
  present : ∀ r, row = some r → RowSound r claimed recorded
  latest : groups = (recorded.getLast?.map (·.groups)).getD []
  accepted : groupsAccepted groups = true

theorem admittedRow_sound (due now : Timestamp) : RowSound (admittedRow due now) [] [] where
  checked := admittedRow_checked due now
  deadline := rfl
  hash := rfl
  settled := by
    intro h
    cases h

/-- A row without a conclusion has no ingestion status. -/
theorem ingestion_of_unsettled {row : StatisticsRow} (checked : row.Checked)
    (unsettled : row.status.concluded = false) : row.ingestionStatus = none := by
  have none : row.ingestionStatus.isSome = false := checked.ingestion ▸ unsettled
  simpa using none

theorem claimRow_sound {row : StatisticsRow} {claimed : List Timestamp}
    {recorded : List ExecutionStatisticsSnapshot} (sound : RowSound row claimed recorded)
    (unsettled : row.status.concluded = false) (options : StoreOptions) (token : Token)
    (clock : Nat → Timestamp) :
    RowSound (claimRow options token clock row)
      (claimed ++ [clock 3 + options.settlementWindowMs]) recorded where
  checked := claimRow_checked sound.checked unsettled options token clock
  deadline := by
    have first := sound.deadline
    cases claimed with
    | nil => simp [claimRow, first]
    | cons deadline later => simp [claimRow, first]
  hash := sound.hash
  settled := by
    intro h
    have none := ingestion_of_unsettled sound.checked unsettled
    have same : (claimRow options token clock row).ingestionStatus = row.ingestionStatus := rfl
    rw [same, none] at h
    cases h

theorem stable_of_settled {now : Timestamp} {row : StatisticsRow}
    {snapshot : ExecutionStatisticsSnapshot}
    (settled : (snapshotResult now row snapshot).ingestionStatus = some .settled) :
    stable row snapshot = true := by
  by_contra unstable
  rw [snapshotResult, if_neg unstable] at settled
  split at settled
  · split at settled <;> cases settled
  · cases settled

/-- The read that settles a row repeats the hash of the snapshot before it. -/
theorem snapshotRow_confirmed {row : StatisticsRow}
    {recorded : List ExecutionStatisticsSnapshot}
    (hash : row.observationSetHash = recorded.getLast?.map (·.observationSetHash)) (delay : Nat)
    (clock : Nat → Timestamp) (snapshot : ExecutionStatisticsSnapshot)
    (settled : (snapshotRow delay clock row snapshot).ingestionStatus = some .settled) :
    Confirmed (snapshotRow delay clock row snapshot) (recorded ++ [snapshot]) := by
  have repeats : stable row snapshot = true := by
    simp only [snapshotRow] at settled
    split at settled
    · exact stable_of_settled settled
    · cases settled
  simp only [stable, Bool.and_eq_true, decide_eq_true_eq, beq_iff_eq] at repeats
  obtain ⟨roots, same⟩ := repeats
  rw [hash] at same
  obtain ⟨previous, last, equal⟩ := Option.map_eq_some_iff.mp same
  obtain ⟨earlier, rfl⟩ := List.getLast?_eq_some_iff.mp last
  exact ⟨earlier, previous, snapshot, by simp, roots, equal.symm, rfl, rfl⟩

theorem snapshotRow_sound {row : StatisticsRow} {claimed : List Timestamp}
    {recorded : List ExecutionStatisticsSnapshot} (sound : RowSound row claimed recorded)
    (held : row.status = .reconciling) (delay : Nat) (clock : Nat → Timestamp)
    (snapshot : ExecutionStatisticsSnapshot) :
    RowSound (snapshotRow delay clock row snapshot) claimed (recorded ++ [snapshot]) where
  checked := snapshotRow_checked sound.checked held delay clock snapshot
  deadline := sound.deadline
  hash := by simp [snapshotRow]
  settled := snapshotRow_confirmed sound.hash delay clock snapshot

theorem releaseRow_sound {row : StatisticsRow} {claimed : List Timestamp}
    {recorded : List ExecutionStatisticsSnapshot} (sound : RowSound row claimed recorded)
    (held : row.status = .reconciling) (exhausted : Bool) (code : String)
    (next settled now : Timestamp) (failures : Nat) :
    RowSound (releaseRow exhausted code next settled now { row with failureCount := failures })
      claimed recorded where
  checked := releaseRow_checked sound.checked held exhausted code next settled now failures
  deadline := sound.deadline
  hash := sound.hash
  settled := by
    intro h
    simp only [releaseRow] at h
    split at h <;> cases h

/-- What one call keeps. -/
theorem effect_sound {row next : Option StatisticsRow}
    {groups nextGroups : List ExecutionStatisticsGroup} {claimed : List Timestamp}
    {recorded : List ExecutionStatisticsSnapshot} {deadline : Option Timestamp}
    {snapshot : Option ExecutionStatisticsSnapshot}
    (effect : Effect row groups next nextGroups deadline snapshot)
    (sound : RunSound row groups claimed recorded) :
    RunSound next nextGroups (claimed ++ deadline.toList) (recorded ++ snapshot.toList) := by
  cases effect with
  | unchanged => simpa using sound
  | admitted absent due now =>
    obtain ⟨rfl, rfl⟩ := sound.absent absent
    refine ⟨by simp, ?_, sound.latest, sound.accepted⟩
    rintro r ⟨rfl⟩
    exact admittedRow_sound due now
  | claimed options token clock found unsettled =>
    refine ⟨by simp, ?_, by simpa using sound.latest, sound.accepted⟩
    rintro r ⟨rfl⟩
    rcases found with found | ⟨absent, due, now, rfl⟩
    · simpa using claimRow_sound (sound.present _ found) unsettled options token clock
    · obtain ⟨rfl, rfl⟩ := sound.absent absent
      exact claimRow_sound (admittedRow_sound due now) unsettled options token clock
  | recorded delay clock snapshot found held accepted =>
    refine ⟨by simp, ?_, by simp, accepted⟩
    rintro r ⟨rfl⟩
    simpa using snapshotRow_sound (sound.present _ found) held delay clock snapshot
  | released exhausted code next settled now failures found held =>
    refine ⟨by simp, ?_, by simpa using sound.latest, sound.accepted⟩
    rintro r ⟨rfl⟩
    simpa using releaseRow_sound (sound.present _ found) held exhausted code next settled now
      failures

theorem run_sound (calls : List Call) (runId : RunId) :
    RunSound ((system.run calls).rows.row runId) ((system.run calls).groups runId)
      (claims calls runId) (recordedSnapshots calls runId) := by
  induction calls using List.reverseRecOn with
  | nil =>
    refine ⟨fun _ => ⟨rfl, rfl⟩, ?_, rfl, rfl⟩
    intro r h
    cases h
  | append_singleton calls call ih =>
    rw [system.run_concat, claims_concat, recordedSnapshots_concat]
    exact effect_sound (execute_effect (system.run calls) call runId) ih

/-- A settled or unavailable row is not touched by any call. -/
theorem effect_concluded {row : StatisticsRow} {next : Option StatisticsRow}
    {groups nextGroups : List ExecutionStatisticsGroup} {deadline : Option Timestamp}
    {snapshot : Option ExecutionStatisticsSnapshot}
    (effect : Effect (some row) groups next nextGroups deadline snapshot)
    (concluded : row.status.concluded = true) : next = some row ∧ nextGroups = groups := by
  cases effect with
  | unchanged => exact ⟨rfl, rfl⟩
  | admitted absent => cases absent
  | claimed _ _ _ found unsettled =>
    rcases found with ⟨⟨⟩⟩ | ⟨⟨⟩, _⟩
    rw [concluded] at unsettled
    cases unsettled
  | recorded _ _ _ found held _ =>
    cases found
    rw [held] at concluded
    cases concluded
  | released _ _ _ _ _ _ found held =>
    cases found
    rw [held] at concluded
    cases concluded

theorem runFrom_concluded {s : Statistics} {runId : RunId} {row : StatisticsRow}
    (found : s.rows.row runId = some row) (concluded : row.status.concluded = true)
    (later : List Call) :
    (system.runFrom s later).rows.row runId = some row ∧
      (system.runFrom s later).groups runId = s.groups runId := by
  induction later generalizing s with
  | nil => exact ⟨found, rfl⟩
  | cons call rest ih =>
    have effect := execute_effect s call runId
    rw [found] at effect
    obtain ⟨kept, same⟩ := effect_concluded effect concluded
    obtain ⟨row_kept, groups_kept⟩ := ih kept
    exact ⟨row_kept, groups_kept.trans same⟩

/-- The work a call carries. -/
def Call.work? : Call → Option ExecutionStatisticsWork
  | .claimNext _ _ _ _ => none
  | .recordSnapshot work _ _ _ => some work
  | .recordFailure work _ _ _ => some work
  | .recordRateLimit work _ _ => some work

theorem execute_stale {s : Statistics} {call : Call} {work : ExecutionStatisticsWork}
    (carries : Call.work? call = some work)
    (stale : ∀ row, s.rows.row work.runId = some row → row.claimToken ≠ some work.claimToken) :
    execute s call = s := by
  have lost : heldRow work s = none := by
    by_contra some
    obtain ⟨row, held⟩ := Option.ne_none_iff_exists'.mp some
    obtain ⟨found, _, token⟩ := heldRow_some held
    exact stale row found token
  cases call with
  | claimNext => cases carries
  | recordSnapshot =>
    cases carries
    simp [execute, recordSnapshot, lost, stateAfter]
  | recordFailure =>
    cases carries
    simp [execute, recordFailure, lost, stateAfter]
  | recordRateLimit =>
    cases carries
    simp [execute, recordRateLimit, lost, stateAfter]

/-- What holds after any history of the store's calls. -/
structure StatisticsSound (calls : List Call) : Prop where
  settled : ∀ runId row, (system.run calls).rows.row runId = some row →
    row.status = .settled → row.ingestionStatus = some .settled →
      ∃ earlier previous last, recordedSnapshots calls runId = earlier ++ [previous, last] ∧
        0 < last.rootTraceCount ∧ last.observationSetHash = previous.observationSetHash ∧
        row.observationSetHash = some last.observationSetHash ∧
        row.rootTraceCount = last.rootTraceCount
  deadline : ∀ runId row, (system.run calls).rows.row runId = some row →
    row.reconciliationDeadlineAt = (claims calls runId).head?
  concluded : ∀ runId row later, (system.run calls).rows.row runId = some row →
    row.status.concluded = true →
      (system.run (calls ++ later)).rows.row runId = some row ∧
        (system.run (calls ++ later)).groups runId = (system.run calls).groups runId
  groups : ∀ runId, (system.run calls).groups runId =
    ((recordedSnapshots calls runId).getLast?.map (·.groups)).getD []
  stale : ∀ call work, Call.work? call = some work →
    (∀ row, (system.run calls).rows.row work.runId = some row →
      row.claimToken ≠ some work.claimToken) →
    system.step (system.run calls) call = system.run calls
  rowsChecked : ∀ runId row, (system.run calls).rows.row runId = some row → row.Checked
  groupsChecked : ∀ runId, groupsAccepted ((system.run calls).groups runId) = true

theorem execution_statistics_settle_soundly (calls : List Call) : StatisticsSound calls where
  settled runId row found _ ingestion :=
    ((run_sound calls runId).present row found).settled ingestion
  deadline runId row found := ((run_sound calls runId).present row found).deadline
  concluded runId row later found concluded := by
    rw [System.run, system.runFrom_append]
    exact runFrom_concluded found concluded later
  groups runId := (run_sound calls runId).latest
  stale call work carries token := execute_stale carries token
  rowsChecked runId row found := ((run_sound calls runId).present row found).checked
  groupsChecked runId := (run_sound calls runId).accepted

end StatisticsSettlement
