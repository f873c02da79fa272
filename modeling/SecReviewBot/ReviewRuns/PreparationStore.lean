import SecReviewBot.ReviewRuns.Transactions

/-!
# `preparation-store.ts`

The run-level part of each method is a transaction body. `claimNext` and
`expireStale` select their rows themselves, in `ORDER BY updated_at, run_id`
order and with `SKIP LOCKED`: `locked` says which rows concurrent transactions
hold at that moment.
-/

namespace PreparationStore

open JsonValues KeyedTables ReviewRunsSchema ReviewRunsTransactions

def maxPreparationAttempts : Nat := 8

/-- `errors.ts`: the Execution may have accepted the submission. -/
def submissionStateUncertain : String := "SUBMISSION_STATE_UNCERTAIN"

def executionAlreadyAdvanced : String := "EXECUTION_ALREADY_ADVANCED"

/-- `status='preparing' AND claim_token=$3`. -/
def holdsClaim (token : Token) (p : Preparation) : Bool :=
  p.status = .preparing && p.claimToken = some token

def renewClaim (store : Store) (token : Token) (tx : Tx) : Outcome Bool :=
  if holdsClaim token tx.run.preparation
      && leaseLive store tx.now tx.run.preparation.claimedAt then
    .ok (true, updatePreparation (fun p =>
      { p with claimedAt := some tx.now, updatedAt := tx.now }) tx)
  else .ok (false, tx)

structure PreparationWork where
  runId : RunId
  workflow : Workflow
  inputVersion : String
  input : Json
  claimToken : Token
  attemptCount : Nat

/-- The selection predicate of `claimNext`. The two `IS NOT NULL` tests on
`NOT NULL` columns always pass. -/
def claimable (now : Timestamp) (run : Run) : Bool :=
  (run.preparation.status = .pending || run.preparation.status = .uncertain)
    && run.preparation.availableAt ≤ now && run.execution.status = .pending

/-- `claimNext` on the row it selected. -/
def claimSelected (runId : RunId) (tx : Tx) : Outcome (Option PreparationWork) :=
  if claimable tx.now tx.run then
    let origin := tx.run.preparation.status
    let (token, drawn) := randomUUID tx
    .ok (some
        { runId := runId, workflow := tx.run.workflow,
          inputVersion := tx.run.preparation.inputVersion, input := tx.run.preparation.input,
          claimToken := token, attemptCount := tx.run.preparation.attemptCount + 1 },
      appendEvent .preparation (some origin.name) .preparing none
        (updatePreparation (fun p =>
          { p with status := .preparing, claimToken := some token, claimedAt := some tx.now,
                   attemptCount := p.attemptCount + 1, failureCode := none,
                   failureMessage := none, startedAt := p.startedAt.or (some tx.now),
                   updatedAt := tx.now }) drawn))
  else .ok (none, tx)

def checkpointInput (runId : RunId) (token : Token) (input : Json) (tx : Tx) : Outcome Unit :=
  if holdsClaim token tx.run.preparation then
    .ok ((), updatePreparation (fun p => { p with input := input, updatedAt := tx.now }) tx)
  else
    .error { message := s!"Preparation claim was lost before checkpointing input for {runId}." }

/-- Rows `expireStale` selects. -/
def expirable (store : Store) (now : Timestamp) (run : Run) : Bool :=
  run.preparation.status = .preparing && leaseLapsed store now run.preparation.claimedAt

/-- How `concludeExpiry` throws: the row vanished, or its story contradicts the
conclusion (`ExpiryUnreconcilableError`). -/
inductive ExpiryFailure where
  | lost (error : StoreError)
  | unreconcilable
  deriving DecidableEq

/-- The single `UPDATE` covering both expired outcomes. -/
def expirePreparation (exhausted : Bool) (now : Timestamp) (p : Preparation) : Preparation :=
  { p with
    status := if exhausted then .failed else .uncertain
    claimToken := none
    claimedAt := none
    availableAt := now
    failureCode :=
      if exhausted then p.lastFailureCode.or (some "PREPARATION_RETRY_EXHAUSTED") else none
    failureMessage :=
      if exhausted then p.lastFailureMessage.or
        (some "Preparation claim lease expired after the retry budget was exhausted.")
      else none
    finishedAt := if exhausted then some now else none
    updatedAt := now }

def concludeExpiry (runId : RunId) (attemptCount : Nat) (tx : Tx) :
    Except ExpiryFailure Tx :=
  let exhausted := decide (maxPreparationAttempts ≤ attemptCount)
  if tx.run.preparation.status = .preparing then
    let expired := updatePreparation (expirePreparation exhausted tx.now) tx
    let row := expired.run.preparation
    let reason := if row.status = .failed then row.failureCode else none
    let logged := appendEvent .preparation (some .preparing) row.status.name reason expired
    if exhausted then
      match skipPendingExecutions logged with
      | none => .error .unreconcilable
      | some skipped =>
        let (previous, abandoned) := abandonInFlightPublication skipped
        let noticed :=
          queueRunNotice tx.nextEventId .failure .preparation row.failureCode abandoned
        .ok (appendAbandonEvent previous
          (appendEvent .execution (some .pending) .skipped none noticed))
    else .ok logged
  else
    .error (.lost { message := s!"Expired preparation {runId} could not be concluded." })

/-- One candidate of an expiry pass: the conclusion in a savepoint, or the
parked row when it cannot be reconciled. Answers whether it was blocked. -/
def expireCandidate (runId : RunId) (tx : Tx) : Outcome Bool :=
  match concludeExpiry runId tx.run.preparation.attemptCount tx with
  | .ok concluded => .ok (false, concluded)
  | .error (.lost e) => .error e
  | .error .unreconcilable =>
    if tx.run.preparation.status = .preparing then
      .ok (true, appendEventWithNotice .preparation (some .preparing) .disconnected
        (some executionAlreadyAdvanced) .attention (some executionAlreadyAdvanced)
        (updatePreparation (fun p =>
          { p with status := .disconnected, disconnectReason := some executionAlreadyAdvanced,
                   claimToken := none, claimedAt := none, updatedAt := tx.now }) tx))
    else .ok (true, tx)

structure FailOptions where
  retry : Bool
  retryAfterMs : Option Int

/-- The terminal `UPDATE` of `fail`, which is also its claim check. -/
def closeFailed (error : Failure) (now : Timestamp) (p : Preparation) : Preparation :=
  { p with status := .failed, claimToken := none, claimedAt := none, failureCode := error.code,
           failureMessage := some error.message, lastFailureCode := error.code,
           lastFailureMessage := some error.message, finishedAt := some now, updatedAt := now }

/-- The submission may have been accepted: execution becomes `uncertain` and
publication stays open. -/
def concludeUncertain (runId : RunId) (error : Failure) (closed : Tx) : Outcome Bool :=
  if closed.run.execution.status = .pending then
    .ok (false, appendEvent .execution (some .pending) .uncertain (some submissionStateUncertain)
      (appendEvent .preparation (some .preparing) .failed error.code
        (updateExecution (fun e =>
          { e with status := .uncertain, failureCode := error.code,
                   failureMessage := some error.message, observedAt := closed.now,
                   updatedAt := closed.now }) closed)))
  else
    .error { message := s!"Preparation claim was lost before failing review run {runId}." }

/-- The Execution was never called: execution and publication are skipped. -/
def concludeSkipped (runId : RunId) (error : Failure) (closed : Tx) : Outcome Bool :=
  match skipPendingExecutions closed with
  | none =>
    .error { message := s!"Execution for {runId} was not pending when preparation failed." }
  | some skipped =>
    let (previous, abandoned) := abandonInFlightPublication skipped
    .ok (false, appendAbandonEvent previous
      (appendEvent .execution (some .pending) .skipped none
        (appendEventWithNotice .preparation (some .preparing) .failed error.code
          .failure error.code abandoned)))

def fail (runId : RunId) (token : Token) (error : Failure) (options : FailOptions)
    (tx : Tx) : Outcome Bool :=
  if options.retry && holdsClaim token tx.run.preparation
      && tx.run.preparation.attemptCount < maxPreparationAttempts then
    .ok (true, appendEvent .preparation (some .preparing) .pending error.code
      (updatePreparation (fun p =>
        { p with status := .pending, claimToken := none, claimedAt := none,
                 availableAt := tx.now + (options.retryAfterMs.getD 0).toNat,
                 failureCode := error.code, failureMessage := some error.message,
                 lastFailureCode := error.code, lastFailureMessage := some error.message,
                 updatedAt := tx.now }) tx))
  -- Losing the compare-and-set answers `retry_scheduled: false` and writes nothing.
  else if !holdsClaim token tx.run.preparation then .ok (false, tx)
  else
    let closed := updatePreparation (closeFailed error tx.now) tx
    if error.code = some submissionStateUncertain then concludeUncertain runId error closed
    else concludeSkipped runId error closed

/-- `ORDER BY updated_at, run_id` on the preparation axis. -/
def olderFirst (db : Database) (a b : RunId) : Bool :=
  let updatedAt := fun id => ((db.runs.row id).map (·.preparation.updatedAt)).getD 0
  updatedAt a < updatedAt b || (updatedAt a = updatedAt b && a ≤ b)

def claimCandidates (store : Store) (locked : RunId → Bool) (db : Database) : List RunId :=
  db.runs.selectKeys (fun id run =>
    run.connectorId = store.connectorId && !locked id && claimable db.clock run) (olderFirst db)

def claimNext (store : Store) (locked : RunId → Bool) (db : Database) :
    Except StoreError (Option PreparationWork) × Database :=
  match (claimCandidates store locked db).head? with
  | none => (.ok none, db)
  | some runId => transaction store runId (.ok none) (claimSelected runId) db

structure PreparationExpiryResult where
  concluded : Nat
  blocked : List RunId

/-- The loop of `expireStale` over its candidates, inside one transaction. -/
def expireEach (store : Store) : List RunId → Database →
    Except StoreError PreparationExpiryResult × Database
  | [], db => (.ok ⟨0, []⟩, db)
  | runId :: rest, db =>
    match transaction store runId (.ok false) (expireCandidate runId) db with
    | (.error e, _) => (.error e, db)
    | (.ok blocked, next) =>
      match expireEach store rest next with
      | (.error e, _) => (.error e, db)
      | (.ok result, last) =>
        (.ok (if blocked then { result with blocked := runId :: result.blocked }
          else { result with concluded := result.concluded + 1 }), last)

def expiryCandidates (store : Store) (locked : RunId → Bool) (db : Database) : List RunId :=
  db.runs.selectKeys (fun id run =>
    run.connectorId = store.connectorId && !locked id && expirable store db.clock run)
    (olderFirst db)

def expireStale (store : Store) (locked : RunId → Bool) (db : Database) :
    Except StoreError PreparationExpiryResult × Database :=
  expireEach store (expiryCandidates store locked db) db

end PreparationStore
