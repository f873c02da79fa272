import SecReviewBot.ReviewRuns.InputBundleCandidateStore

/-!
# `submission-transition-store.ts`

The cross-axis transitions around Execution submission.
-/

namespace SubmissionTransitionStore

open JsonValues KeyedTables ReviewRunsSchema ReviewRunsTransactions PreparationStore
open InputBundleCandidateStore

/-- Does the candidate persist exactly this intent, confirmed or selected, with
no other candidate selected? -/
def selectable (tx : Tx) (context input : Json) (digest : Digest)
    (c : InputBundleCandidate) : Bool :=
  c.reference = (input.member "input_bundle").getD .null && c.input = input
    && c.publishContext = context && (c.status = .present || c.status = .selected)
    && !tx.run.candidates.keys.any fun other =>
      other ≠ digest && (tx.run.candidates.row other).any fun o => o.status = .selected

def selectCandidate (now : Timestamp) (c : InputBundleCandidate) : InputBundleCandidate :=
  { c with status := .selected
           updatedAt := if c.status = .selected then c.updatedAt else now }

def savePreparedSubmission (store : Store) (runId : RunId) (token : Token)
    (context input : Json) (tx : Tx) : Outcome Unit :=
  match requirePreparationClaim store runId token tx with
  | .error e => .error e
  | .ok _ =>
    match tx.run.candidates.keys.filter fun digest =>
        (tx.run.candidates.row digest).any (selectable tx context input digest) with
    | [digest] =>
      if tx.run.execution.status = .pending
          && (tx.run.execution.input = none || tx.run.execution.input = some input)
          && tx.run.publication.status = .pending then
        .ok ((), abandonCandidates
          (updatePublication (fun p => { p with input := context, updatedAt := tx.now })
            (updateExecution (fun e => { e with input := some input, updatedAt := tx.now })
              (updateCandidates (fun cs => match cs.row digest with
                | none => cs
                | some c => cs.put digest (selectCandidate tx.now c)) tx))))
      else .error { message := "Run cannot save prepared submission outside pending." }
    | _ => .error { message := "Prepared input has no matching published candidate." }

/-- No lease check: an acknowledgement that arrives late is recorded as long as
no expiry or takeover has replaced this owner. -/
def markQueued (runId : RunId) (token : Token) (context : Json) (tx : Tx) : Outcome Unit :=
  if tx.run.publication.status = .pending && tx.run.execution.status = .pending
      && holdsClaim token tx.run.preparation then
    .ok ((), appendEvent .preparation (some .preparing) .submitted none
      (appendEvent .execution (some .pending) .queued none
        (updatePreparation (fun p =>
          { p with status := .submitted, claimToken := none, claimedAt := none,
                   finishedAt := some tx.now, updatedAt := tx.now })
          (updateExecution (fun e =>
            { e with status := .queued, startedAt := e.startedAt.or (some tx.now),
                     failureCode := none, failureMessage := none, observedAt := tx.now,
                     updatedAt := tx.now })
            (updatePublication (fun p => { p with input := context, updatedAt := tx.now })
              tx)))))
  else .error { message := s!"Review run {runId} cannot transition from pending to queued." }

/-- `markQueued` of a run that does not exist. -/
def runDoesNotExist (runId : RunId) : StoreError where
  message := s!"Review run does not exist: {runId}"
  statusCode := some 404

/-- `status='uncertain' AND claim_token=$3` on the execution axis. -/
def holdsRecovery (token : Token) (e : Execution) : Bool :=
  e.status = .uncertain && e.claimToken = some token

def completeSubmissionRecovery (token : Token) (tx : Tx) : Outcome Bool :=
  if holdsRecovery token tx.run.execution && tx.run.publication.status = .pending then
    .ok (true, appendEvent .execution (some .uncertain) .queued none
      (updateExecution (fun e =>
        { e with status := .queued, claimToken := none, claimedAt := none,
                 startedAt := e.startedAt.or (some tx.now), failureCode := none,
                 failureMessage := none, observedAt := tx.now, updatedAt := tx.now }) tx))
  else .ok (false, tx)

/-- Conclude an execution as failed together with the publication that can no
longer publish, and queue the failure notice. -/
def concludeExecutionFailed (previous : ExecutionStatus) (code : Option String)
    (failed : Tx) : Tx :=
  let (publicationFrom, abandoned) := abandonInFlightPublication failed
  appendAbandonEvent publicationFrom
    (appendEventWithNotice .execution (some previous.name) .failed code .failure code abandoned)

def failSubmissionRecovery (token : Token) (error : Failure) (tx : Tx) : Outcome Bool :=
  if holdsRecovery token tx.run.execution then
    .ok (true, concludeExecutionFailed .uncertain error.code
      (updateExecution (fun e =>
        { e with status := .failed, claimToken := none, claimedAt := none,
                 failureCode := error.code, failureMessage := some error.message,
                 finishedAt := some tx.now, observedAt := tx.now, updatedAt := tx.now }) tx))
  else .ok (false, tx)

end SubmissionTransitionStore
