import SecReviewBot.ReviewRuns.ExecutionStore
import SecReviewBot.ReviewRuns.PublicationStore

/-!
# `operator-decision-store.ts`

Decisions only an operator makes. Each ends or reopens an axis that
coordination parked as `disconnected`; on any other status it answers 409 and
writes nothing. `resumeDisconnectedRun` and `giveUpDisconnectedRun` look at the
axes in the order preparation, execution, publication.
-/

namespace OperatorDecisionStore

open ReviewRunsSchema ReviewRunsTransactions PreparationStore InputBundleCandidateStore

/-- `reason.trim() === ''`. -/
def isBlank (reason : String) : Bool := reason.toList.all isSpace

def notDisconnected (runId : RunId) (axis : String) : StoreError where
  message := s!"Review run {runId} is not a disconnected {axis}."
  statusCode := some 409

/-- Abandon the publication a concluded run can no longer use, with its event. -/
def abandonPublication (tx : Tx) : Tx :=
  let (previous, abandoned) := abandonInFlightPublication tx
  appendAbandonEvent previous abandoned

/-- The row a parked preparation ends in, with its event and failure notice. -/
def failParkedPreparation (code reason : String) (tx : Tx) : Tx :=
  appendEventWithNotice .preparation (some .disconnected) .failed (some code) .failure (some code)
    (updatePreparation (fun p =>
      { p with status := .failed, claimToken := none, claimedAt := none,
               failureCode := some code, failureMessage := some reason,
               lastFailureCode := some code, lastFailureMessage := some reason,
               finishedAt := some tx.now, disconnectReason := none, updatedAt := tx.now }) tx)

/-- End an execution that is still moving. One that has a result keeps it. -/
def stopExecution (code reason : String) (tx : Tx) : Tx :=
  let previous := tx.run.execution.status
  if previous = .queued || previous = .running || previous = .uncertain then
    appendEvent .execution (some previous.name) .failed (some code)
      (updateExecution (fun e =>
        { e with status := .failed, claimToken := none, claimedAt := none,
                 failureCode := some code, failureMessage := some reason,
                 finishedAt := e.finishedAt.or (some tx.now), observedAt := tx.now,
                 updatedAt := tx.now }) tx)
  else tx

def abandonBlockedPreparation (runId : RunId) (reason : String) (tx : Tx) : Outcome Unit :=
  if isBlank reason then
    .error { message := "An abandonment reason is required.", statusCode := some 400 }
  else if tx.run.preparation.status = .disconnected then
    let code := tx.run.preparation.disconnectReason.getD executionAlreadyAdvanced
    .ok ((), abandonPublication (stopExecution code reason
      (failParkedPreparation code reason tx)))
  else .error (notDisconnected runId "preparation")

def resumeDisconnectedPreparation (runId : RunId) (tx : Tx) : Outcome Unit :=
  if tx.run.preparation.status = .disconnected then
    .ok ((), supersedeRunAttentionNotices .preparation
      (appendEvent .preparation (some .disconnected) .uncertain
        (some "PREPARATION_RESUMED_BY_OPERATOR")
        (updatePreparation (fun p =>
          { p with status := .uncertain, disconnectReason := none, attemptCount := 0,
                   availableAt := tx.now, updatedAt := tx.now }) tx)))
  else .error (notDisconnected runId "preparation")

def resumeDisconnectedExecution (runId : RunId) (tx : Tx) : Outcome Unit :=
  match ExecutionStore.resumeDisconnectedSubmissionRecoveryOn tx with
  | some resumed => .ok ((), resumed)
  | none => .error (notDisconnected runId "execution")

def resumeDisconnectedPublication (runId : RunId) (tx : Tx) : Outcome Unit :=
  match PublicationStore.resumeDisconnectedOn tx with
  | some resumed => .ok ((), resumed)
  | none => .error (notDisconnected runId "publication")

def resumeDisconnectedRun (runId : RunId) (tx : Tx) : Outcome Unit :=
  if tx.run.preparation.status = .disconnected then
    if tx.run.execution.status = .pending then resumeDisconnectedPreparation runId tx
    else .error
      { message := s!"Review run {runId} cannot be resumed: "
          ++ "its preparation is disconnected and execution already moved past pending."
        statusCode := some 409 }
  else if tx.run.execution.status = .disconnected then resumeDisconnectedExecution runId tx
  else if tx.run.publication.status = .disconnected then resumeDisconnectedPublication runId tx
  else .error { message := s!"Review run {runId} has no resumable disconnected axis."
                statusCode := some 409 }

def giveUpDisconnectedPreparation (runId : RunId) (reason : String) (tx : Tx) : Outcome Unit :=
  if tx.run.preparation.status = .disconnected then
    .ok ((), abandonPublication
      (failParkedPreparation "PREPARATION_GIVEN_UP_BY_OPERATOR" reason tx))
  else .error (notDisconnected runId "preparation")

/-- No attention notice is superseded here, unlike on resume. -/
def giveUpDisconnectedExecution (runId : RunId) (reason : String) (tx : Tx) : Outcome Unit :=
  if tx.run.execution.status = .disconnected then
    let code := "SUBMISSION_RECOVERY_ABANDONED_BY_OPERATOR"
    .ok ((), abandonPublication
      (appendEventWithNotice .execution (some .disconnected) .failed (some code)
        .failure (some code)
        (updateExecution (fun e =>
          { e with status := .failed, claimToken := none, claimedAt := none,
                   failureCode := some code, failureMessage := some reason,
                   finishedAt := e.finishedAt.or (some tx.now), observedAt := tx.now,
                   updatedAt := tx.now }) tx)))
  else .error (notDisconnected runId "execution")

/-- The steps keep their `disconnected` status as a record. -/
def giveUpDisconnectedPublication (runId : RunId) (reason : String) (tx : Tx) : Outcome Unit :=
  if tx.run.publication.status = .disconnected then
    let code := "PUBLICATION_ABANDONED_BY_OPERATOR"
    .ok ((), appendEventWithNotice .publication (some .disconnected) .failed (some code)
      .failure (some code)
      (updatePublication (fun p =>
        { p with status := .failed, claimToken := none, claimedAt := none,
                 failureCode := some code, failureMessage := some reason,
                 finishedAt := p.finishedAt.or (some tx.now), updatedAt := tx.now }) tx))
  else .error (notDisconnected runId "publication")

def giveUpDisconnectedRun (runId : RunId) (reason : String) (tx : Tx) : Outcome Unit :=
  if isBlank reason then
    .error { message := "A reason is required.", statusCode := some 400 }
  else if tx.run.preparation.status = .disconnected then
    giveUpDisconnectedPreparation runId reason tx
  else if tx.run.execution.status = .disconnected then
    giveUpDisconnectedExecution runId reason tx
  else if tx.run.publication.status = .disconnected then
    giveUpDisconnectedPublication runId reason tx
  else .error { message := s!"Review run {runId} has no disconnected axis to give up."
                statusCode := some 409 }

end OperatorDecisionStore
