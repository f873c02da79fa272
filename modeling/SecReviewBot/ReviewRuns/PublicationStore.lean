import SecReviewBot.ReviewRuns.Transactions

/-!
# `publication-store.ts`

The writes of a publication under its claim, and the per-step progress. Every
step write first locks the publication row and checks ownership by token;
`derivePublicationStatus` re-derives the axis from its steps.
-/

namespace PublicationStore

open JsonValues KeyedTables ReviewRunsSchema ReviewRunsTransactions

def maxPublicationStepAttempts : Nat := 3
def maxPublicationStepRecoveryAttempts : Nat := 3

/-- `lockPublicationOwnership`:
`status IN ('publishing','uncertain','disconnected') AND claim_token=$3`. -/
def ownsPublication (token : Token) (p : Publication) : Bool :=
  p.status.inFlight && p.claimToken = some token

def isStepExhausted (s : PublicationStep) : Bool := maxPublicationStepAttempts ≤ s.attemptCount

def hasStep (status : StepStatus) (steps : Table StepKey PublicationStep) : Bool :=
  steps.any fun s => s.status = status

/-- The `derived` CTE: the strongest step-level uncertainty. -/
def derivedStatus (status : PublicationStatus) (steps : Table StepKey PublicationStep) :
    PublicationStatus :=
  if hasStep .disconnected steps then .disconnected
  else if hasStep .uncertain steps then .uncertain
  else if status = .uncertain || status = .disconnected then .publishing
  else status

def derivePublicationStatus (tx : Tx) : Tx :=
  let status := tx.run.publication.status
  let target := derivedStatus status tx.run.steps
  if status.inFlight && status ≠ target then
    let moved := updatePublication (fun p => { p with status := target, updatedAt := tx.now }) tx
    let logged := appendEvent .publication (some status.name) target.name none moved
    if target = .disconnected then
      queueRunNotice tx.nextEventId .attention .publication
        (some "PUBLICATION_RECOVERY_EXHAUSTED") logged
    else logged
  else tx

def renewClaim (token : Token) (tx : Tx) : Outcome Bool :=
  if ownsPublication token tx.run.publication then
    .ok (true, updatePublication (fun p =>
      { p with claimedAt := some tx.now, updatedAt := tx.now }) tx)
  else .ok (false, tx)

/-- A parked step becomes fresh pending work with both budgets returned. -/
def resumeStep (now : Timestamp) (s : PublicationStep) : PublicationStep :=
  if s.status = .disconnected then
    { s with status := .pending, claimedBy := none, attemptCount := 0,
             recoveryAttemptCount := 0, updatedAt := now }
  else s

def resumeDisconnectedOn (tx : Tx) : Option Tx :=
  if tx.run.publication.status = .disconnected then
    some (supersedeRunAttentionNotices .publication
      (appendEvent .publication (some .disconnected) .pending
        (some "PUBLICATION_RESUMED_BY_OPERATOR")
        (updateSteps (fun steps => steps.mapRows (resumeStep tx.now))
          (updatePublication (fun p =>
            { p with status := .pending, claimToken := none, claimedAt := none,
                     updatedAt := tx.now }) tx))))
  else none

/-- The event names `publishing` whatever the status was. -/
def complete (token : Token) (tx : Tx) : Outcome Bool :=
  if ownsPublication token tx.run.publication
      && !tx.run.steps.any (fun s => s.status ≠ .succeeded) then
    .ok (true, appendEvent .publication (some .publishing) .published none
      (updatePublication (fun p =>
        { p with status := .published, claimToken := none, finishedAt := some tx.now,
                 failureCode := none, failureMessage := none, updatedAt := tx.now }) tx))
  else .ok (false, tx)

/-- The event names `publishing` whatever the status was. -/
def fail (token : Token) (error : Failure) (retry : Bool) (tx : Tx) : Outcome Bool :=
  if ownsPublication token tx.run.publication then
    let toStatus : PublicationStatus := if retry then .pending else .failed
    let failed := updatePublication (fun p =>
      { p with status := toStatus, claimToken := none, failureCode := error.code,
               failureMessage := some error.message,
               finishedAt := if toStatus = .failed then some tx.now else none,
               updatedAt := tx.now }) tx
    let logged := appendEvent .publication (some .publishing) toStatus.name error.code failed
    if toStatus = .failed then
      .ok (true, queueRunNotice tx.nextEventId .failure .publication error.code logged)
    else .ok (true, logged)
  else .ok (false, tx)

def newStep (now : Timestamp) : PublicationStep where
  status := .pending
  attemptCount := 0
  recoveryAttemptCount := 0
  lastAttemptAt := none
  claimedBy := none
  remoteObjectId := none
  remoteObjectUrl := none
  failureCode := none
  failureMessage := none
  updatedAt := now

def insertSteps (now : Timestamp) (keys : List StepKey)
    (steps : Table StepKey PublicationStep) : Table StepKey PublicationStep :=
  keys.foldl (fun t key => t.put key (newStep now)) steps

def sortKeys (keys : List StepKey) : List StepKey := keys.insertionSort fun a b => a ≤ b

def initializePublicationSteps (runId : RunId) (token : Token) (stepKeys : List StepKey)
    (tx : Tx) : Outcome Unit :=
  if ¬ stepKeys.Nodup then
    .error { message := s!"Publication {runId} contains duplicate step keys."
             code := some "PUBLICATION_STEP_SET_DUPLICATE" }
  else if !ownsPublication token tx.run.publication then
    .error { message := s!"Publication claim was lost before steps were initialized: {runId}" }
  else if tx.run.steps.keys = [] then
    .ok ((), updateSteps (insertSteps tx.now (sortKeys stepKeys)) tx)
  else if sortKeys tx.run.steps.keys ≠ sortKeys stepKeys then
    .error { message := s!"Publication step set changed for run {runId}."
             code := some "PUBLICATION_STEP_SET_CHANGED" }
  else .ok ((), tx)

/-- Which steps `claimPublicationStep` takes: the budget is checked on the
attempt about to start, and a running step only changes hands. -/
def stepClaimable (token : Token) (s : PublicationStep) : Bool :=
  s.attemptCount + 1 ≤ maxPublicationStepAttempts
    && (s.status = .pending || (s.status = .running && s.claimedBy ≠ some token)
      || s.status = .failed)

def startStep (token : Token) (now : Timestamp) (s : PublicationStep) : PublicationStep :=
  { s with status := .running, claimedBy := some token, attemptCount := s.attemptCount + 1,
           lastAttemptAt := some now, updatedAt := now }

/-- One step row under the publication lock: `none` when ownership, the row or
the `WHERE` condition is missing and nothing is written. -/
def updateOwnedStep (token : Token) (stepKey : StepKey) (p : PublicationStep → Bool)
    (f : PublicationStep → PublicationStep) (tx : Tx) : Option Tx :=
  if ownsPublication token tx.run.publication then
    match tx.run.steps.row stepKey with
    | none => none
    | some s => if p s then some (updateSteps (fun steps => steps.put stepKey (f s)) tx) else none
  else none

def claimPublicationStep (token : Token) (stepKey : StepKey) (tx : Tx) : Option Tx :=
  updateOwnedStep token stepKey (stepClaimable token) (startStep token tx.now) tx

/-- An exhausted step that no attempt may take and no outcome has ended. -/
def awaitsReconciliation (s : PublicationStep) : Bool :=
  isStepExhausted s && (s.status = .failed || s.status = .running || s.status = .uncertain)

def doubtStep (now : Timestamp) (s : PublicationStep) : PublicationStep :=
  if s.status = .uncertain then s
  else { s with status := .uncertain, claimedBy := none, updatedAt := now }

/-- The second transaction of `requirePublicationStepClaim`, run when the claim
was refused. It re-derives the axis whether or not the caller owns it. Answers
whether the step has to be reconciled. -/
def reconcileRefusedClaim (token : Token) (stepKey : StepKey) (tx : Tx) : Bool × Tx :=
  match updateOwnedStep token stepKey awaitsReconciliation (doubtStep tx.now) tx with
  | none => (false, derivePublicationStatus tx)
  | some doubted => (true, derivePublicationStatus doubted)

/-- How a request for a step ended. The refusal is thrown after the second
transaction has committed. -/
inductive StepClaim where
  | granted
  | refused (error : StoreError)
  deriving DecidableEq

def refusal (stepKey : StepKey) (exhausted : Bool) : StoreError :=
  if exhausted then
    { message := s!"Publication step {stepKey} has no attempts left; "
        ++ "reconcile the remote effect before concluding it."
      code := some "PUBLICATION_STEP_RETRY_EXHAUSTED" }
  else
    { message := s!"Publication step is not claimable: {stepKey}"
      code := some "PUBLICATION_STEP_NOT_CLAIMABLE" }

def requirePublicationStepClaim (token : Token) (stepKey : StepKey) (tx : Tx) :
    Outcome StepClaim :=
  match claimPublicationStep token stepKey tx with
  | some claimed => .ok (.granted, claimed)
  | none =>
    let (exhausted, reconciled) := reconcileRefusedClaim token stepKey tx
    .ok (.refused (refusal stepKey exhausted), reconciled)

structure RemoteObject where
  id : Option String
  url : Option String

def succeedStep (remote : RemoteObject) (now : Timestamp) (s : PublicationStep) :
    PublicationStep :=
  { s with status := .succeeded, claimedBy := none, remoteObjectId := remote.id,
           remoteObjectUrl := remote.url, failureCode := none, failureMessage := none,
           updatedAt := now }

/-- `found` carries the remote object the connector found, absent otherwise. -/
def settleStep (found : Option RemoteObject) (now : Timestamp) (s : PublicationStep) :
    PublicationStep :=
  match found with
  | some remote => succeedStep remote now s
  | none => { s with status := .terminalFailed, claimedBy := none, updatedAt := now }

def settleExhaustedPublicationStep (token : Token) (stepKey : StepKey)
    (found : Option RemoteObject) (tx : Tx) : Outcome Bool :=
  match updateOwnedStep token stepKey (fun s => s.status = .uncertain && isStepExhausted s)
      (settleStep found tx.now) tx with
  | none => .ok (false, tx)
  | some settled => .ok (true, derivePublicationStatus settled)

def completePublicationStep (token : Token) (stepKey : StepKey) (remote : RemoteObject)
    (tx : Tx) : Outcome Bool :=
  match updateOwnedStep token stepKey (fun s => s.status = .running)
      (succeedStep remote tx.now) tx with
  | none => .ok (false, tx)
  | some completed => .ok (true, completed)

/-- The `UPDATE` of `failPublicationStep`. `retry` is absent when the caller
passed no option: neither terminal nor a spent reconciliation. -/
def failStep (error : Failure) (retry : Option Bool) (now : Timestamp) (s : PublicationStep) :
    PublicationStep :=
  let reconciling := s.status = .uncertain && retry = some true
  { s with
    status :=
      if reconciling && maxPublicationStepRecoveryAttempts ≤ s.recoveryAttemptCount + 1 then
        .disconnected
      else if reconciling then .uncertain
      else if retry = some false then .terminalFailed
      else .failed
    claimedBy := none
    recoveryAttemptCount :=
      if reconciling then s.recoveryAttemptCount + 1 else s.recoveryAttemptCount
    failureCode := error.code
    failureMessage := some error.message
    updatedAt := now }

/-- `failPublicationStep` ends the publication when the failure is terminal,
naming the state it really leaves. -/
def failPublicationOfStep (runId : RunId) (token : Token) (error : Failure) (tx : Tx) :
    Outcome Bool :=
  if ownsPublication token tx.run.publication then
    .ok (true, appendEventWithNotice .publication (some tx.run.publication.status.name) .failed
      error.code .failure error.code
      (updatePublication (fun p =>
        { p with status := .failed, claimToken := none, claimedAt := none,
                 failureCode := error.code, failureMessage := some error.message,
                 finishedAt := some tx.now, updatedAt := tx.now }) tx))
  else .error { message := s!"Publication {runId} changed while its terminal step failed." }

def failPublicationStep (runId : RunId) (token : Token) (stepKey : StepKey) (error : Failure)
    (retry : Option Bool) (tx : Tx) : Outcome Bool :=
  match updateOwnedStep token stepKey (fun s => s.status = .running || s.status = .uncertain)
      (failStep error retry tx.now) tx with
  | none => .ok (false, tx)
  | some failed =>
    let derived := derivePublicationStatus failed
    if retry = some false then failPublicationOfStep runId token error derived
    else .ok (true, derived)

end PublicationStore
