import SecReviewBot.KeyedTables
import SecReviewBot.ReviewRuns.Schema
import SecReviewBot.TransitionSystems

/-!
# `ExecutionStatisticsStore`

The queue of `execution-statistics-store.ts` with the two tables it writes. A
worker claims a due row, reads the observations of the run outside the database
and records what it found: a snapshot, a failure or a rate limit. Each method is
one transaction on one row, so a history of all workers is a list of calls.

Every reading of `clock_timestamp()` is its own: `clock` gives the readings of a
call in the order of its text. Nothing relates them to each other or to those of
other calls.
-/

namespace ExecutionStatisticsStore

open KeyedTables TransitionSystems
open ReviewRunsSchema (RunId ConnectorId Token Timestamp ExecutionStatus)

structure TokenUsage where
  inputTokens : Option Nat
  outputTokens : Option Nat
  totalTokens : Option Nat
  cacheReadInputTokens : Option Nat
  cacheCreationInputTokens : Option Nat
  reasoningTokens : Option Nat
  deriving DecidableEq

def TokenUsage.unknown : TokenUsage where
  inputTokens := none
  outputTokens := none
  totalTokens := none
  cacheReadInputTokens := none
  cacheCreationInputTokens := none
  reasoningTokens := none

inductive UsageCoverage where
  | completeForObservedCalls | partialUsage | unavailable
  deriving DecidableEq

/-- What a group of model calls is counted under: the columns of
`UNIQUE NULLS NOT DISTINCT`. -/
structure GroupCoordinates where
  agentName : String
  caseId : Option String
  deliveryId : Option String
  passKind : Option String
  passIndex : Option Nat
  batchIndex : Option Nat
  chunkId : Option String
  provider : String
  model : Option String
  deriving DecidableEq

structure ExecutionStatisticsGroup where
  coordinates : GroupCoordinates
  modelCallCount : Nat
  usageReportedCallCount : Nat
  tokenUsage : TokenUsage
  deriving DecidableEq

structure ExecutionStatisticsSnapshot where
  observationSetHash : String
  rootTraceCount : Nat
  excludedNonReviewRootCount : Nat
  observedCallCount : Nat
  usageReportedCallCount : Nat
  usageCoverage : UsageCoverage
  tokenUsage : TokenUsage
  groups : List ExecutionStatisticsGroup
  deriving DecidableEq

inductive Status where
  | pending | reconciling | settled | unavailable
  deriving DecidableEq

/-- `status IN ('settled','unavailable')`. -/
def Status.concluded : Status → Bool
  | .settled | .unavailable => true
  | .pending | .reconciling => false

inductive IngestionStatus where
  | settled | partialWindow | noObservations | unavailable
  deriving DecidableEq

/-- A row of `execution_statistics`. Counts and token sums are never negative, so
they are natural numbers. -/
structure StatisticsRow where
  status : Status
  ingestionStatus : Option IngestionStatus
  usageCoverage : Option UsageCoverage
  observationSetHash : Option String
  rootTraceCount : Nat
  excludedNonReviewRootCount : Nat
  observedCallCount : Nat
  usageReportedCallCount : Nat
  tokenUsage : TokenUsage
  failureCount : Nat
  nextAttemptAt : Timestamp
  reconciliationDeadlineAt : Option Timestamp
  claimToken : Option Token
  claimedAt : Option Timestamp
  failureCode : Option String
  settledAt : Option Timestamp
  updatedAt : Timestamp
  deriving DecidableEq

/-- The table-level CHECK constraints of `execution_statistics`. -/
structure StatisticsRow.Checked (row : StatisticsRow) : Prop where
  claim : row.status = .reconciling ∧ row.claimToken.isSome ∧ row.claimedAt.isSome ∨
    row.status ≠ .reconciling ∧ row.claimToken = none ∧ row.claimedAt = none
  window : row.status = .pending ∨ row.reconciliationDeadlineAt.isSome
  ingestion : row.status.concluded = row.ingestionStatus.isSome
  settlement : row.status.concluded = row.settledAt.isSome
  failure : row.status = .unavailable ↔ row.failureCode.isSome

/-- The CHECK constraints of one row of `execution_statistics_groups`. -/
def ExecutionStatisticsGroup.checked (group : ExecutionStatisticsGroup) : Bool :=
  group.coordinates.batchIndex.all (fun batch => decide (1 ≤ batch)) &&
    decide (0 < group.modelCallCount) &&
      decide (group.usageReportedCallCount ≤ group.modelCallCount)

/-- What the database accepts as the groups of one run. -/
def groupsAccepted (groups : List ExecutionStatisticsGroup) : Bool :=
  groups.all ExecutionStatisticsGroup.checked &&
    decide (groups.map (·.coordinates)).Nodup

structure Statistics where
  rows : Table RunId StatisticsRow
  groups : RunId → List ExecutionStatisticsGroup
  nextToken : Token

/-- The columns of `executions` that a claim reads. -/
structure ExecutionTimes where
  connectorId : ConnectorId
  status : ExecutionStatus
  startedAt : Option Timestamp
  finishedAt : Option Timestamp

/-- The options of the constructor and the collation of the database. -/
structure StoreOptions where
  connectorId : ConnectorId
  claimTimeoutMs : Nat
  initialDelayMs : Nat
  settlementWindowMs : Nat
  textLe : String → String → Bool

/-- The two instants are sent on as ISO texts. -/
structure ExecutionStatisticsWork where
  runId : RunId
  claimToken : Token
  executionStartedAt : Option Timestamp
  executionFinishedAt : Option Timestamp
  deriving DecidableEq

/-- The row `INSERT` makes of a terminal execution; the other columns have their
defaults. -/
def admittedRow (nextAttemptAt updatedAt : Timestamp) : StatisticsRow where
  status := .pending
  ingestionStatus := none
  usageCoverage := none
  observationSetHash := none
  rootTraceCount := 0
  excludedNonReviewRootCount := 0
  observedCallCount := 0
  usageReportedCallCount := 0
  tokenUsage := TokenUsage.unknown
  failureCount := 0
  nextAttemptAt := nextAttemptAt
  reconciliationDeadlineAt := none
  claimToken := none
  claimedAt := none
  failureCode := none
  settledAt := none
  updatedAt := updatedAt

/-- When a terminal execution's first attempt is due. -/
def firstAttemptAt (options : StoreOptions) (execution : ExecutionTimes) : Option Timestamp :=
  if execution.connectorId = options.connectorId ∧
      (execution.status = .succeeded ∨ execution.status = .failed) ∧
      execution.startedAt.isSome then
    execution.finishedAt.map (· + options.initialDelayMs)
  else none

/-- `INSERT ... SELECT ... ON CONFLICT (run_id) DO NOTHING`, for one execution. -/
def admitOne (options : StoreOptions) (executions : Table RunId ExecutionTimes) (now : Timestamp)
    (rows : Table RunId StatisticsRow) (runId : RunId) : Table RunId StatisticsRow :=
  match rows.row runId, (executions.row runId).bind (firstAttemptAt options) with
  | none, some due => rows.put runId (admittedRow due now)
  | _, _ => rows

def admitExecutions (options : StoreOptions) (executions : Table RunId ExecutionTimes)
    (now : Timestamp) (rows : Table RunId StatisticsRow) : Table RunId StatisticsRow :=
  executions.keys.foldl (admitOne options executions now) rows

/-- Due, and pending or under a lapsed claim. -/
def claimable (options : StoreOptions) (now : Timestamp) (row : StatisticsRow) : Bool :=
  decide (row.nextAttemptAt ≤ now) &&
    (row.status == .pending ||
      (row.status == .reconciling &&
        row.claimedAt.any fun at_ => decide (at_ + options.claimTimeoutMs ≤ now)))

/-- `ORDER BY s.next_attempt_at, s.run_id`. -/
def attemptsBefore (options : StoreOptions) (rows : Table RunId StatisticsRow) (a b : RunId) :
    Bool :=
  match rows.row a, rows.row b with
  | some x, some y =>
    decide (x.nextAttemptAt < y.nextAttemptAt) ||
      (x.nextAttemptAt == y.nextAttemptAt && options.textLe a b)
  | _, _ => false

/-- `FOR UPDATE OF s SKIP LOCKED LIMIT 1`: the first row nobody else holds. -/
def selectDue (options : StoreOptions) (executions : Table RunId ExecutionTimes)
    (locked : RunId → Bool) (now : Timestamp) (rows : Table RunId StatisticsRow) :
    Option RunId :=
  (rows.selectKeys (fun runId row =>
      (executions.row runId).any (fun e => e.connectorId == options.connectorId) &&
        claimable options now row)
    (attemptsBefore options rows)).find? fun runId => !locked runId

def claimRow (options : StoreOptions) (token : Token) (clock : Nat → Timestamp)
    (row : StatisticsRow) : StatisticsRow :=
  { row with
    status := .reconciling
    claimToken := some token
    claimedAt := some (clock 2)
    reconciliationDeadlineAt :=
      some (row.reconciliationDeadlineAt.getD (clock 3 + options.settlementWindowMs))
    updatedAt := clock 4 }

inductive StatisticsError where
  /-- `Execution statistics work changed while claiming <run>.` -/
  | workChanged (runId : RunId)
  /-- `Execution statistics claim was lost for <run>.` -/
  | claimLost (runId : RunId)
  /-- A group row that PostgreSQL refuses. -/
  | groupRefused (runId : RunId)
  deriving DecidableEq

def claimNext (options : StoreOptions) (executions : Table RunId ExecutionTimes)
    (locked : RunId → Bool) (clock : Nat → Timestamp) (s : Statistics) :
    Except StatisticsError (Option ExecutionStatisticsWork × Statistics) :=
  let token := s.nextToken
  let rows := admitExecutions options executions (clock 0) s.rows
  let admitted := { s with rows, nextToken := token + 1 }
  match selectDue options executions locked (clock 1) rows with
  | none => .ok (none, admitted)
  | some runId =>
    match rows.row runId, executions.row runId with
    | some row, some execution =>
      .ok (some
          { runId, claimToken := token, executionStartedAt := execution.startedAt,
            executionFinishedAt := execution.finishedAt },
        { admitted with rows := rows.put runId (claimRow options token clock row) })
    | _, _ => .error (.workChanged runId)

/-- `WHERE run_id=$1 AND status='reconciling' AND claim_token=$2`. -/
def heldRow (work : ExecutionStatisticsWork) (s : Statistics) : Option StatisticsRow :=
  (s.rows.row work.runId).filter fun row =>
    row.status == .reconciling && row.claimToken == some work.claimToken

inductive SnapshotResult where
  | pending | settled | partialWindow | noObservations
  deriving DecidableEq

/-- A read with review roots that repeats the one before. -/
def stable (row : StatisticsRow) (snapshot : ExecutionStatisticsSnapshot) : Bool :=
  decide (0 < snapshot.rootTraceCount) &&
    row.observationSetHash == some snapshot.observationSetHash

def deadlineReached (now : Timestamp) (row : StatisticsRow) : Bool :=
  row.reconciliationDeadlineAt.any fun deadline => decide (deadline ≤ now)

def snapshotResult (now : Timestamp) (row : StatisticsRow)
    (snapshot : ExecutionStatisticsSnapshot) : SnapshotResult :=
  if stable row snapshot then .settled
  else if deadlineReached now row then
    if 0 < snapshot.rootTraceCount then .partialWindow else .noObservations
  else .pending

/-- `terminal ? result : null`. -/
def SnapshotResult.ingestionStatus : SnapshotResult → Option IngestionStatus
  | .pending => none
  | .settled => some .settled
  | .partialWindow => some .partialWindow
  | .noObservations => some .noObservations

def snapshotRow (confirmationDelayMs : Nat) (clock : Nat → Timestamp) (row : StatisticsRow)
    (snapshot : ExecutionStatisticsSnapshot) : StatisticsRow :=
  let result := snapshotResult (clock 0) row snapshot
  let terminal := stable row snapshot || deadlineReached (clock 0) row
  { row with
    status := if terminal then .settled else .pending
    ingestionStatus := if terminal then result.ingestionStatus else none
    usageCoverage := if result = .noObservations then none else some snapshot.usageCoverage
    observationSetHash := some snapshot.observationSetHash
    rootTraceCount := snapshot.rootTraceCount
    excludedNonReviewRootCount := snapshot.excludedNonReviewRootCount
    observedCallCount := snapshot.observedCallCount
    usageReportedCallCount := snapshot.usageReportedCallCount
    tokenUsage := snapshot.tokenUsage
    nextAttemptAt := if terminal then row.nextAttemptAt else clock 1 + confirmationDelayMs
    failureCount := 0
    claimToken := none
    claimedAt := none
    failureCode := none
    settledAt := if terminal then some (clock 2) else none
    updatedAt := clock 3 }

def recordSnapshot (work : ExecutionStatisticsWork) (snapshot : ExecutionStatisticsSnapshot)
    (confirmationDelayMs : Nat) (clock : Nat → Timestamp) (s : Statistics) :
    Except StatisticsError (SnapshotResult × Statistics) :=
  match heldRow work s with
  | none => .error (.claimLost work.runId)
  | some row =>
    -- DELETE and INSERT: one refused group rolls everything back
    if groupsAccepted snapshot.groups then
      .ok (snapshotResult (clock 0) row snapshot,
        { s with
          rows := s.rows.put work.runId (snapshotRow confirmationDelayMs clock row snapshot)
          groups := Function.update s.groups work.runId snapshot.groups })
    else .error (.groupRefused work.runId)

/-- A read that came back without a snapshot: the row is released, or concluded as
unavailable. -/
def releaseRow (exhausted : Bool) (code : String) (nextAttemptAt settledAt updatedAt : Timestamp)
    (row : StatisticsRow) : StatisticsRow :=
  { row with
    status := if exhausted then .unavailable else .pending
    ingestionStatus := if exhausted then some .unavailable else none
    usageCoverage := if exhausted then some .unavailable else row.usageCoverage
    failureCode := if exhausted then some code else none
    nextAttemptAt := nextAttemptAt
    claimToken := none
    claimedAt := none
    settledAt := if exhausted then some settledAt else none
    updatedAt := updatedAt }

inductive ReleaseResult where
  | pending | unavailable
  deriving DecidableEq

def ReleaseResult.of (exhausted : Bool) : ReleaseResult :=
  if exhausted then .unavailable else .pending

def recordFailure (work : ExecutionStatisticsWork) (maxFailures retryDelayMs : Nat)
    (clock : Nat → Timestamp) (s : Statistics) :
    Except StatisticsError (ReleaseResult × Statistics) :=
  match heldRow work s with
  | none => .error (.claimLost work.runId)
  | some row =>
    let exhausted := decide (maxFailures ≤ row.failureCount + 1)
    let released := releaseRow exhausted "LANGFUSE_UNAVAILABLE" (clock 0 + retryDelayMs)
      (clock 1) (clock 2) { row with failureCount := row.failureCount + 1 }
    .ok (ReleaseResult.of exhausted, { s with rows := s.rows.put work.runId released })

/-- The one clock reading of `WITH timing`, and the deadline of a reconciling row. -/
def recordRateLimit (work : ExecutionStatisticsWork) (retryDelayMs : Nat) (now : Timestamp)
    (s : Statistics) : Except StatisticsError (ReleaseResult × Statistics) :=
  match heldRow work s with
  | none => .error (.claimLost work.runId)
  | some row =>
    let exhausted := row.reconciliationDeadlineAt.any fun deadline =>
      decide (deadline ≤ now + retryDelayMs)
    -- LEAST ignores a null
    let next := row.reconciliationDeadlineAt.elim (now + retryDelayMs)
      (min (now + retryDelayMs))
    let released := releaseRow exhausted "LANGFUSE_RATE_LIMITED" next now now row
    .ok (ReleaseResult.of exhausted, { s with rows := s.rows.put work.runId released })

inductive Call where
  | claimNext (options : StoreOptions) (executions : Table RunId ExecutionTimes)
      (locked : RunId → Bool) (clock : Nat → Timestamp)
  | recordSnapshot (work : ExecutionStatisticsWork) (snapshot : ExecutionStatisticsSnapshot)
      (confirmationDelayMs : Nat) (clock : Nat → Timestamp)
  | recordFailure (work : ExecutionStatisticsWork) (maxFailures retryDelayMs : Nat)
      (clock : Nat → Timestamp)
  | recordRateLimit (work : ExecutionStatisticsWork) (retryDelayMs : Nat) (now : Timestamp)

/-- The state after a call; one that throws is rolled back. -/
def stateAfter {α : Type} (s : Statistics) : Except StatisticsError (α × Statistics) → Statistics
  | .ok (_, next) => next
  | .error _ => s

def execute (s : Statistics) : Call → Statistics
  | .claimNext options executions locked clock =>
    stateAfter s (claimNext options executions locked clock s)
  | .recordSnapshot work snapshot delay clock =>
    stateAfter s (recordSnapshot work snapshot delay clock s)
  | .recordFailure work maxFailures delay clock =>
    stateAfter s (recordFailure work maxFailures delay clock s)
  | .recordRateLimit work delay now => stateAfter s (recordRateLimit work delay now s)

/-- The two tables of a new database. -/
def system : System Statistics Call where
  initial := { rows := Table.empty, groups := fun _ => [], nextToken := 0 }
  step := execute

end ExecutionStatisticsStore
