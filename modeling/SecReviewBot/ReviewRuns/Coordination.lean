import SecReviewBot.TransitionSystems
import SecReviewBot.ReviewRuns.AdmissionStore
import SecReviewBot.ReviewRuns.OperatorDecisionStore
import SecReviewBot.ReviewRuns.PublicationClaimStore
import SecReviewBot.ReviewRuns.RunNoticeStore

/-!
# The store as a transition system

A run of the system is any list of operations, each by any store instance and
with any arguments, with clock advances in between. `RunAction` names what one
transaction may do to one run; `Operation` adds admission, the calls that
select their rows themselves, and time.

`requirePublicationStepClaim` opens a second transaction after a refusal.
Both run in one action here, and `reconcileRefusedClaim` is also an action of
its own, so other operations may come between the two.
-/

namespace Coordination

open JsonValues KeyedTables ReviewRunsSchema ReviewRunsTransactions TransitionSystems
open InputBundleCandidateStore (InputPublicationIntent Settlement)

inductive RunAction where
  -- preparation
  | claimPreparation
  | expirePreparation
  | renewPreparation (token : Token)
  | checkpointInput (token : Token) (input : Json)
  | failPreparation (token : Token) (error : Failure) (options : PreparationStore.FailOptions)
  -- input-bundle candidates
  | reserveCandidate (token : Token) (intent : InputPublicationIntent)
  | settleCandidate (token : Token) (digest : Digest) (settlement : Settlement)
  -- submission
  | savePreparedSubmission (token : Token) (context input : Json)
  | markQueued (token : Token) (context : Json)
  | completeSubmissionRecovery (token : Token)
  | failSubmissionRecovery (token : Token) (error : Failure)
  -- execution
  | touchObservation
  | markRunning
  | recordArtifactStorage (storage : Option ArtifactStorage)
  | recordExecutionSuccess (workflowResult : Option Json) (storage : Option ArtifactStorage)
  | claimSubmissionRecovery
  | resumeSubmissionRecovery
  | disconnectExhaustedSubmissionRecovery (maxAttempts : Nat)
  | recordUnknownRecoveryOutcome (token : Token)
  | failExecution (error : Failure) (storage : Option ArtifactStorage)
  -- publication
  | claimPublication
  | renewPublication (token : Token)
  | completePublication (token : Token)
  | failPublication (token : Token) (error : Failure) (retry : Bool)
  | initializePublicationSteps (token : Token) (stepKeys : List StepKey)
  | requirePublicationStepClaim (token : Token) (stepKey : StepKey)
  | reconcileRefusedClaim (token : Token) (stepKey : StepKey)
  | settleExhaustedPublicationStep (token : Token) (stepKey : StepKey)
      (found : Option PublicationStore.RemoteObject)
  | completePublicationStep (token : Token) (stepKey : StepKey)
      (remote : PublicationStore.RemoteObject)
  | failPublicationStep (token : Token) (stepKey : StepKey) (error : Failure)
      (retry : Option Bool)
  -- operator decisions
  | abandonBlockedPreparation (reason : String)
  | resumeDisconnectedPreparation
  | resumeDisconnectedExecution
  | resumeDisconnectedPublication
  | resumeDisconnectedRun
  | giveUpDisconnectedPreparation (reason : String)
  | giveUpDisconnectedExecution (reason : String)
  | giveUpDisconnectedPublication (reason : String)
  | giveUpDisconnectedRun (reason : String)
  -- notices
  | claimNotice (noticeId : NoticeId)
  | renewNotice (noticeId : NoticeId) (token : Token)
  | completeNotice (noticeId : NoticeId) (token : Token) (delivered : Bool)
      (commentUrl : Option String)

/-- Keep what a transaction wrote and drop its answer. -/
def written {α : Type} (outcome : Outcome α) : Except StoreError Tx := outcome.map Prod.snd

/-- One row of an expiry pass, with the selection condition of `expireStale`. -/
def expireSelected (store : Store) (runId : RunId) (tx : Tx) : Outcome Bool :=
  if PreparationStore.expirable store tx.now tx.run then
    PreparationStore.expireCandidate runId tx
  else .ok (false, tx)

def RunAction.perform (store : Store) (runId : RunId) : RunAction → Tx → Except StoreError Tx
  | .claimPreparation, tx => written (PreparationStore.claimSelected runId tx)
  | .expirePreparation, tx => written (expireSelected store runId tx)
  | .renewPreparation token, tx => written (PreparationStore.renewClaim store token tx)
  | .checkpointInput token input, tx =>
    written (PreparationStore.checkpointInput runId token input tx)
  | .failPreparation token error options, tx =>
    written (PreparationStore.fail runId token error options tx)
  | .reserveCandidate token intent, tx =>
    written (InputBundleCandidateStore.reserve store runId token intent tx)
  | .settleCandidate token digest settlement, tx =>
    written (InputBundleCandidateStore.settle store runId token digest settlement tx)
  | .savePreparedSubmission token context input, tx =>
    written (SubmissionTransitionStore.savePreparedSubmission store runId token context input tx)
  | .markQueued token context, tx =>
    written (SubmissionTransitionStore.markQueued runId token context tx)
  | .completeSubmissionRecovery token, tx =>
    written (SubmissionTransitionStore.completeSubmissionRecovery token tx)
  | .failSubmissionRecovery token error, tx =>
    written (SubmissionTransitionStore.failSubmissionRecovery token error tx)
  | .touchObservation, tx => written (ExecutionStore.touchObservation tx)
  | .markRunning, tx => written (ExecutionStore.markRunning tx)
  | .recordArtifactStorage storage, tx =>
    written (ExecutionStore.recordArtifactStorage runId storage tx)
  | .recordExecutionSuccess workflowResult storage, tx =>
    written (ExecutionStore.recordExecutionSuccess runId workflowResult storage tx)
  | .claimSubmissionRecovery, tx => written (ExecutionStore.claimSubmissionRecovery store tx)
  | .resumeSubmissionRecovery, tx =>
    written (ExecutionStore.resumeDisconnectedSubmissionRecovery tx)
  | .disconnectExhaustedSubmissionRecovery maxAttempts, tx =>
    written (ExecutionStore.disconnectExhaustedSubmissionRecovery store maxAttempts tx)
  | .recordUnknownRecoveryOutcome token, tx =>
    written (ExecutionStore.recordUnknownRecoveryOutcome token tx)
  | .failExecution error storage, tx =>
    written (ExecutionStore.failExecution runId error storage tx)
  | .claimPublication, tx => written (PublicationClaimStore.claim store tx)
  | .renewPublication token, tx => written (PublicationStore.renewClaim token tx)
  | .completePublication token, tx => written (PublicationStore.complete token tx)
  | .failPublication token error retry, tx =>
    written (PublicationStore.fail token error retry tx)
  | .initializePublicationSteps token stepKeys, tx =>
    written (PublicationStore.initializePublicationSteps runId token stepKeys tx)
  | .requirePublicationStepClaim token stepKey, tx =>
    written (PublicationStore.requirePublicationStepClaim token stepKey tx)
  | .reconcileRefusedClaim token stepKey, tx =>
    .ok (PublicationStore.reconcileRefusedClaim token stepKey tx).2
  | .settleExhaustedPublicationStep token stepKey found, tx =>
    written (PublicationStore.settleExhaustedPublicationStep token stepKey found tx)
  | .completePublicationStep token stepKey remote, tx =>
    written (PublicationStore.completePublicationStep token stepKey remote tx)
  | .failPublicationStep token stepKey error retry, tx =>
    written (PublicationStore.failPublicationStep runId token stepKey error retry tx)
  | .abandonBlockedPreparation reason, tx =>
    written (OperatorDecisionStore.abandonBlockedPreparation runId reason tx)
  | .resumeDisconnectedPreparation, tx =>
    written (OperatorDecisionStore.resumeDisconnectedPreparation runId tx)
  | .resumeDisconnectedExecution, tx =>
    written (OperatorDecisionStore.resumeDisconnectedExecution runId tx)
  | .resumeDisconnectedPublication, tx =>
    written (OperatorDecisionStore.resumeDisconnectedPublication runId tx)
  | .resumeDisconnectedRun, tx =>
    written (OperatorDecisionStore.resumeDisconnectedRun runId tx)
  | .giveUpDisconnectedPreparation reason, tx =>
    written (OperatorDecisionStore.giveUpDisconnectedPreparation runId reason tx)
  | .giveUpDisconnectedExecution reason, tx =>
    written (OperatorDecisionStore.giveUpDisconnectedExecution runId reason tx)
  | .giveUpDisconnectedPublication reason, tx =>
    written (OperatorDecisionStore.giveUpDisconnectedPublication runId reason tx)
  | .giveUpDisconnectedRun reason, tx =>
    written (OperatorDecisionStore.giveUpDisconnectedRun runId reason tx)
  | .claimNotice noticeId, tx =>
    written (RunNoticeStore.claimSelected store runId noticeId tx)
  | .renewNotice noticeId token, tx => written (RunNoticeStore.renewClaim noticeId token tx)
  | .completeNotice noticeId token delivered commentUrl, tx =>
    written (RunNoticeStore.complete noticeId token delivered commentUrl tx)

/-- The rows after an action: a transaction that throws leaves them alone. -/
def RunAction.result (store : Store) (runId : RunId) (action : RunAction) (tx : Tx) : Tx :=
  match action.perform store runId tx with
  | .ok next => next
  | .error _ => tx

inductive Operation where
  | create (args : AdmissionStore.CreateReviewRunArgs)
  | admitRun (args : AdmissionStore.CreateReviewRunArgs)
  | onRun (runId : RunId) (action : RunAction)
  | claimNextPreparation (locked : RunId → Bool)
  | expireStale (locked : RunId → Bool)
  | claimNextPublication (locked : RunId → Bool)
  | claimNextNotice (locked : NoticeId → Bool)
  | renewNotice (noticeId : NoticeId) (token : Token)
  | completeNotice (noticeId : NoticeId) (token : Token) (delivered : Bool)
      (commentUrl : Option String)
  | advance (ms : Nat)

def Operation.execute (store : Store) : Operation → Database → Database
  | .create args, db => (AdmissionStore.create store args db).2
  | .admitRun args, db => (AdmissionStore.admitRun store args db).2
  | .onRun runId action, db =>
    match find db store runId with
    | none => db
    | some run =>
      match action.perform store runId (begin db run) with
      | .error _ => db
      | .ok tx => commit db runId tx
  | .claimNextPreparation locked, db => (PreparationStore.claimNext store locked db).2
  | .expireStale locked, db => (PreparationStore.expireStale store locked db).2
  | .claimNextPublication locked, db => (PublicationClaimStore.claimNextOnce store locked db).2
  | .claimNextNotice locked, db => (RunNoticeStore.claimNext store locked db).2
  | .renewNotice noticeId token, db =>
    (RunNoticeStore.onOwner store noticeId false (RunNoticeStore.renewClaim noticeId token) db).2
  | .completeNotice noticeId token delivered commentUrl, db =>
    (RunNoticeStore.onOwner store noticeId false
      (RunNoticeStore.complete noticeId token delivered commentUrl) db).2
  | .advance ms, db => { db with clock := db.clock + ms }

/-- An operation together with the store instance that runs it. -/
abbrev Call := Store × Operation

def coordination : System Database Call where
  initial := Database.empty
  step := fun db call => call.2.execute call.1 db

/-- The WHATWG parse of the one URI used here. -/
def parseBundleUrl (uri : String) : Option Url :=
  if uri = "file:///bundles/input-bundle.v1.tar.zst" then
    some { protocol := "file:", pathname := "/bundles/input-bundle.v1.tar.zst", search := "",
           hash := "", username := "", password := "", port := "" }
  else none

def defaultStore : Store where
  connectorId := "github-integration:default"
  claimTimeoutMs := 600000
  parseUrl := parseBundleUrl

def issueRun : AdmissionStore.CreateReviewRunArgs where
  runId := "run-1"
  workflow := .issueReview
  publishContext := .obj []
  executionInput := none
  ingressKind := none
  ingressKey := none
  preparationInput := none
  preparationInputVersion := none

def responseLost : Failure where
  code := none
  message := "response lost"

def summaryStep : StepKey := "issue:summary-comment"

def onRun1 (actions : List RunAction) : List Operation := actions.map (.onRun "run-1")

/-- A run is admitted, submitted, executed and claimed by a publisher, whose
token is 1. -/
def toPublishing : List Operation :=
  .create issueRun :: onRun1
    [.markQueued 0 (.obj []), .recordExecutionSuccess (some (.obj [])) none, .claimPublication,
      .initializePublicationSteps 1 [summaryStep]]

/-- Its step loses three answers, so nobody knows whether it took effect. -/
def toUncertain : List Operation :=
  toPublishing ++ onRun1
    [.requirePublicationStepClaim 1 summaryStep,
      .failPublicationStep 1 summaryStep responseLost (some true),
      .requirePublicationStepClaim 1 summaryStep,
      .failPublicationStep 1 summaryStep responseLost (some true),
      .requirePublicationStepClaim 1 summaryStep,
      .failPublicationStep 1 summaryStep responseLost (some true),
      .requirePublicationStepClaim 1 summaryStep]

/-- Reconciliation fails three times as well, and the step is parked. -/
def toDisconnected : List Operation :=
  toUncertain ++ onRun1
    [.failPublicationStep 1 summaryStep responseLost (some true),
      .failPublicationStep 1 summaryStep responseLost (some true),
      .failPublicationStep 1 summaryStep responseLost (some true)]

/-- A run of the system by the default store. -/
def byDefault (operations : List Operation) : List Call :=
  operations.map fun operation => (defaultStore, operation)

end Coordination
