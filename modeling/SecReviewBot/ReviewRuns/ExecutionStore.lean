import SecReviewBot.ReviewRuns.SubmissionTransitionStore

/-!
# `execution-store.ts` and the terminal failure of `review-run-store.ts`
-/

namespace ExecutionStore

open JsonValues KeyedTables ReviewRunsSchema ReviewRunsTransactions
open SubmissionTransitionStore

/-- `status IN ('queued','running')`. -/
def isActive (e : Execution) : Bool := e.status = .queued || e.status = .running

/-- `normalizeArtifactStorage` of `shapes.ts` on a present value. -/
def normalizeArtifactStorage (storage : ArtifactStorage) (context : String) :
    Except StoreError ArtifactStorage :=
  match storage.status with
  | .available =>
    match storage.artifact with
    | none => .error { message := context
        ++ " is an available artifact storage record without its artifact reference; "
        ++ "it does not satisfy the contract." }
    | some artifact =>
      .ok { status := .available, artifact := some artifact, errorCode := none, message := none }
  | .unavailable | .failed => .ok { storage with artifact := none }

/-- The `artifact_storage` parameter of the terminal writes: absent stays SQL
`NULL`, anything else is normalized first. -/
def storedArtifact (runId : RunId) : Option ArtifactStorage →
    Except StoreError (Option ArtifactStorage)
  | none => .ok none
  | some storage =>
    match normalizeArtifactStorage storage s!"run {runId}" with
    | .error e => .error e
    | .ok normalized => .ok (some normalized)

def touchObservation (tx : Tx) : Outcome Unit :=
  if isActive tx.run.execution then
    .ok ((), updateExecution (fun e => { e with observedAt := tx.now }) tx)
  else .ok ((), tx)

def markRunning (tx : Tx) : Outcome Bool :=
  if tx.run.execution.status = .queued then
    .ok (true, appendEvent .execution (some .queued) .running none
      (updateExecution (fun e =>
        { e with status := .running, observedAt := tx.now, updatedAt := tx.now }) tx))
  else .ok (false, tx)

def recordArtifactStorage (runId : RunId) (storage : Option ArtifactStorage) (tx : Tx) :
    Outcome Unit :=
  match storage with
  | none => .ok ((), tx)
  | some storage =>
    match normalizeArtifactStorage storage s!"run {runId}" with
    | .error e => .error e
    | .ok normalized => .ok ((), updateExecution (fun e =>
        { e with artifactStorage := some normalized, updatedAt := tx.now }) tx)

def recordExecutionSuccess (runId : RunId) (workflowResult : Option Json)
    (storage : Option ArtifactStorage) (tx : Tx) : Outcome Bool :=
  match storedArtifact runId storage with
  | .error e => .error e
  | .ok stored =>
    if isActive tx.run.execution then
      .ok (true, appendEvent .execution (some tx.run.execution.status.name) .succeeded none
        (updateExecution (fun e =>
          { e with status := .succeeded, workflowResult := workflowResult,
                   artifactStorage := stored, failureCode := none, failureMessage := none,
                   finishedAt := some tx.now, observedAt := tx.now, updatedAt := tx.now }) tx))
    else .ok (false, tx)

/-- `claim_token IS NULL OR claimed_at <= clock_timestamp() - timeout`. -/
def recoveryUnowned (store : Store) (now : Timestamp) (e : Execution) : Bool :=
  e.claimToken = none || leaseLapsed store now e.claimedAt

def claimSubmissionRecovery (store : Store) (tx : Tx) : Outcome (Option Token) :=
  if tx.run.execution.status = .uncertain && recoveryUnowned store tx.now tx.run.execution then
    let (token, drawn) := randomUUID tx
    .ok (some token, appendEvent .execution (some .uncertain) .uncertain
      (some "SUBMISSION_RECOVERY_CLAIMED")
      (updateExecution (fun e =>
        { e with claimToken := some token, claimedAt := some tx.now, updatedAt := tx.now })
        drawn))
  else .ok (none, tx)

def resumeDisconnectedSubmissionRecoveryOn (tx : Tx) : Option Tx :=
  if tx.run.execution.status = .disconnected then
    some (supersedeRunAttentionNotices .execution
      (appendEvent .execution (some .disconnected) .uncertain
        (some "SUBMISSION_RECOVERY_RESUMED_BY_OPERATOR")
        (updateExecution (fun e =>
          { e with status := .uncertain, claimToken := none, claimedAt := none,
                   attemptCount := 0, updatedAt := tx.now }) tx)))
  else none

def resumeDisconnectedSubmissionRecovery (tx : Tx) : Outcome Bool :=
  match resumeDisconnectedSubmissionRecoveryOn tx with
  | none => .ok (false, tx)
  | some resumed => .ok (true, resumed)

def disconnectExhaustedSubmissionRecovery (store : Store) (maxAttempts : Nat) (tx : Tx) :
    Outcome Bool :=
  if tx.run.execution.status = .uncertain && maxAttempts ≤ tx.run.execution.attemptCount
      && recoveryUnowned store tx.now tx.run.execution then
    .ok (true, appendEventWithNotice .execution (some .uncertain) .disconnected
      (some "SUBMISSION_RECOVERY_EXHAUSTED") .attention (some "SUBMISSION_RECOVERY_EXHAUSTED")
      (updateExecution (fun e =>
        { e with status := .disconnected, claimToken := none, claimedAt := none,
                 updatedAt := tx.now }) tx))
  else .ok (false, tx)

def recordUnknownRecoveryOutcome (token : Token) (tx : Tx) : Outcome Bool :=
  if holdsRecovery token tx.run.execution then
    .ok (true, updateExecution (fun e =>
      { e with attemptCount := e.attemptCount + 1, updatedAt := tx.now }) tx)
  else .ok (false, tx)

def failExecution (runId : RunId) (error : Failure) (storage : Option ArtifactStorage)
    (tx : Tx) : Outcome Bool :=
  match storedArtifact runId storage with
  | .error e => .error e
  | .ok stored =>
    if isActive tx.run.execution then
      .ok (true, concludeExecutionFailed tx.run.execution.status error.code
        (updateExecution (fun e =>
          { e with status := .failed, claimToken := none, claimedAt := none,
                   failureCode := error.code, failureMessage := some error.message,
                   artifactStorage := stored, finishedAt := some tx.now, observedAt := tx.now,
                   updatedAt := tx.now }) tx))
    else .ok (false, tx)

end ExecutionStore
