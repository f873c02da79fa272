import SecReviewBot.ReviewRuns.LifecycleView

/-!
# The stores refine the life of a run

`moveOf` names the move an action makes, from the conditions the action itself
tests, and `result_refines` is the simulation: the action ends in the view that
move leads to, and the move was enabled. Everything later about statuses,
steps, events and notices is proved on moves.
-/

namespace ActionMoves

open KeyedTables ReviewRunsSchema ReviewRunsTransactions Coordination TransactionWrites
open RowEffects Lifecycles LifecycleView

/-- How an expiry ends, once the row is selected. -/
def expiryMove (tx : Tx) : Move :=
  if PreparationStore.maxPreparationAttempts ≤ tx.run.preparation.attemptCount then
    if tx.run.execution.status = .pending then
      .endUnsubmitted (PreparationStore.expirePreparation true tx.now tx.run.preparation).failureCode
    else .parkPreparation
  else .loseLease

def failPreparationMove (token : Token) (error : Failure)
    (options : PreparationStore.FailOptions) (tx : Tx) : Move :=
  if PreparationStore.holdsClaim token tx.run.preparation then
    if options.retry ∧
        tx.run.preparation.attemptCount < PreparationStore.maxPreparationAttempts then
      .retryPreparation error.code
    else if tx.run.execution.status = .pending then
      if error.code = some PreparationStore.submissionStateUncertain then .endUncertain error.code
      else .endUnsubmitted error.code
    else .idle
  else .idle

def refusedClaimMove (token : Token) (key : StepKey) (tx : Tx) : Move :=
  if stepReady token key PublicationStore.awaitsReconciliation tx then .reviseStep key .doubt
  else .rederive

/-- The live attention notices other than the one just settled. -/
def remainingAttention (noticeId : NoticeId) (tx : Tx) (axis : Axis) : Bool :=
  tx.run.notices.keys.any fun id =>
    id ≠ noticeId && (tx.run.notices.row id).any (isLiveAttention axis)

def moveOf (store : Store) (tx : Tx) : RunAction → Move
  | .claimPreparation =>
    if PreparationStore.claimable tx.now tx.run then .takePreparation else .idle
  | .expirePreparation =>
    if PreparationStore.expirable store tx.now tx.run then expiryMove tx else .idle
  | .failPreparation token error options => failPreparationMove token error options tx
  -- writes that no axis, step, event or notice shows
  | .renewPreparation _ | .checkpointInput _ _ | .reserveCandidate _ _ | .settleCandidate _ _ _
  | .savePreparedSubmission _ _ _ | .touchObservation | .recordArtifactStorage _
  | .recordUnknownRecoveryOutcome _ | .renewPublication _ | .claimNotice _ | .renewNotice _ _ =>
    .idle
  | .markQueued token _ =>
    if tx.run.publication.status = .pending ∧ tx.run.execution.status = .pending ∧
        PreparationStore.holdsClaim token tx.run.preparation then .queueExecution
    else .idle
  | .completeSubmissionRecovery token =>
    if SubmissionTransitionStore.holdsRecovery token tx.run.execution ∧
        tx.run.publication.status = .pending then .confirmSubmission
    else .idle
  | .failSubmissionRecovery token error =>
    if SubmissionTransitionStore.holdsRecovery token tx.run.execution then
      .failExecution error.code
    else .idle
  | .markRunning => if tx.run.execution.status = .queued then .startExecution else .idle
  | .recordExecutionSuccess _ storage =>
    if (ExecutionStore.storedArtifact "" storage).isOk ∧
        ExecutionStore.isActive tx.run.execution then .succeedExecution
    else .idle
  | .claimSubmissionRecovery =>
    if tx.run.execution.status = .uncertain ∧
        ExecutionStore.recoveryUnowned store tx.now tx.run.execution then .claimRecovery
    else .idle
  | .resumeSubmissionRecovery | .resumeDisconnectedExecution =>
    if tx.run.execution.status = .disconnected then .resumeExecution else .idle
  | .disconnectExhaustedSubmissionRecovery maxAttempts =>
    if tx.run.execution.status = .uncertain ∧ maxAttempts ≤ tx.run.execution.attemptCount ∧
        ExecutionStore.recoveryUnowned store tx.now tx.run.execution then .parkExecution
    else .idle
  | .failExecution error storage =>
    if (ExecutionStore.storedArtifact "" storage).isOk ∧
        ExecutionStore.isActive tx.run.execution then .failExecution error.code
    else .idle
  | .claimPublication =>
    if PublicationClaimStore.claimable store tx.now tx.run then .takePublication else .idle
  | .completePublication token =>
    if PublicationStore.ownsPublication token tx.run.publication ∧
        tx.run.steps.any (fun s => s.status ≠ .succeeded) = false then .publish
    else .idle
  | .failPublication token error retry =>
    if PublicationStore.ownsPublication token tx.run.publication then
      .failPublication retry error.code
    else .idle
  | .initializePublicationSteps token stepKeys =>
    if stepKeys.Nodup ∧ PublicationStore.ownsPublication token tx.run.publication ∧
        tx.run.steps.keys = [] then .initializeSteps (PublicationStore.sortKeys stepKeys)
    else .idle
  | .requirePublicationStepClaim token stepKey =>
    if stepReady token stepKey (PublicationStore.stepClaimable token) tx then .grantStep stepKey
    else refusedClaimMove token stepKey tx
  | .reconcileRefusedClaim token stepKey => refusedClaimMove token stepKey tx
  | .settleExhaustedPublicationStep token stepKey found =>
    if stepReady token stepKey
        (fun s => s.status = .uncertain && PublicationStore.isStepExhausted s) tx then
      .reviseStep stepKey (.settle found.isSome)
    else .idle
  | .completePublicationStep token stepKey _ =>
    if stepReady token stepKey (fun s => s.status = .running) tx then .completeStep stepKey
    else .idle
  | .failPublicationStep token stepKey error retry =>
    if stepReady token stepKey (fun s => s.status = .running || s.status = .uncertain) tx then
      if retry = some false then .endAtStep stepKey error.code
      else .reviseStep stepKey (.fail retry)
    else .idle
  | .abandonBlockedPreparation reason =>
    if OperatorDecisionStore.isBlank reason = false ∧
        tx.run.preparation.status = .disconnected then
      .endParkedPreparation
        (tx.run.preparation.disconnectReason.getD PreparationStore.executionAlreadyAdvanced) true
    else .idle
  | .resumeDisconnectedPreparation =>
    if tx.run.preparation.status = .disconnected then .resumePreparation else .idle
  | .resumeDisconnectedPublication =>
    if tx.run.publication.status = .disconnected then .resumePublication else .idle
  | .resumeDisconnectedRun =>
    if tx.run.preparation.status = .disconnected then
      if tx.run.execution.status = .pending then .resumePreparation else .idle
    else if tx.run.execution.status = .disconnected then .resumeExecution
    else if tx.run.publication.status = .disconnected then .resumePublication
    else .idle
  | .giveUpDisconnectedPreparation _ =>
    if tx.run.preparation.status = .disconnected then
      .endParkedPreparation "PREPARATION_GIVEN_UP_BY_OPERATOR" false
    else .idle
  | .giveUpDisconnectedExecution _ =>
    if tx.run.execution.status = .disconnected then .giveUpExecution else .idle
  | .giveUpDisconnectedPublication _ =>
    if tx.run.publication.status = .disconnected then .giveUpPublication else .idle
  | .giveUpDisconnectedRun reason =>
    if OperatorDecisionStore.isBlank reason then .idle
    else if tx.run.preparation.status = .disconnected then
      .endParkedPreparation "PREPARATION_GIVEN_UP_BY_OPERATOR" false
    else if tx.run.execution.status = .disconnected then .giveUpExecution
    else if tx.run.publication.status = .disconnected then .giveUpPublication
    else .idle
  | .completeNotice noticeId token delivered commentUrl =>
    if delivered = commentUrl.isSome ∧
        (tx.run.notices.row noticeId).any (RunNoticeStore.holdsDelivery token) then
      .deliver (remainingAttention noticeId tx)
    else .idle

/-- The outcome of a transaction makes `move`; one that throws makes none. -/
def Refines {α : Type} (tx : Tx) (move : Move) : Outcome α → Prop
  | .ok (_, next) => move.Enabled (view tx.run) ∧ view next.run = move.apply (view tx.run)
  | .error _ => move = .idle

theorem refines_idle {α : Type} (tx : Tx) (answer : α) {next : Tx}
    (same : view next.run = view tx.run) : Refines tx .idle (.ok (answer, next)) :=
  ⟨trivial, same⟩

theorem refines_error {α : Type} (tx : Tx) (e : StoreError) :
    Refines tx .idle (.error e : Outcome α) := rfl

theorem Refines.result {α : Type} {store : Store} {id : RunId} {action : RunAction} {tx : Tx}
    {move : Move} {outcome : Outcome α}
    (performs : action.perform store id tx = written outcome) (h : Refines tx move outcome) :
    move.Enabled (view tx.run) ∧
      view (action.result store id tx).run = move.apply (view tx.run) := by
  unfold RunAction.result
  rw [performs]
  cases outcome with
  | error e =>
    cases h
    exact ⟨trivial, rfl⟩
  | ok result => exact h

section Actions

variable (store : Store) (runId : RunId) {tx : Tx}

theorem claimPreparation_refines :
    Refines tx (moveOf store tx .claimPreparation) (PreparationStore.claimSelected runId tx) := by
  simp only [moveOf, PreparationStore.claimSelected]
  split
  · next h =>
    simp only [PreparationStore.claimable, Bool.and_eq_true, Bool.or_eq_true,
      decide_eq_true_eq] at h
    refine ⟨⟨h.1.1, h.2⟩, ?_⟩
    rw [view_appendEvent]
    rfl
  · exact refines_idle tx _ rfl

/-- The writes of an exhausted expiry and of a failure before submission differ
in the order of notice and events only. -/
theorem concludeExpiry_exhausted (fresh : Fresh tx)
    (preparing : tx.run.preparation.status = .preparing)
    (pending : tx.run.execution.status = .pending) {attempts : Nat}
    (exhausted : PreparationStore.maxPreparationAttempts ≤ attempts) :
    ∃ next, PreparationStore.concludeExpiry runId attempts tx = .ok next ∧
      view next.run = (Move.endUnsubmitted
        (PreparationStore.expirePreparation true tx.now tx.run.preparation).failureCode).apply
          (view tx.run) := by
  let expired := updatePreparation (PreparationStore.expirePreparation true tx.now) tx
  let logged := appendEvent .preparation (some .preparing) .failed
    (PreparationStore.expirePreparation true tx.now tx.run.preparation).failureCode expired
  obtain ⟨skipped, hskip⟩ : ∃ skipped, skipPendingExecutions logged = some skipped := by
    simp [skipPendingExecutions, logged, expired, appendEvent, pending]
  have seen : view skipped.run = { view logged.run with execution := .skipped } := by
    have open_ : logged.run.execution.status = .pending := pending
    simp only [skipPendingExecutions, open_, if_true, Option.some.injEq] at hskip
    rw [← hskip]
    rfl
  have unnoticed : Unnoticed tx.nextEventId skipped := by
    simp only [skipPendingExecutions] at hskip
    split at hskip <;> cases hskip
    exact fresh
  have concluded : PreparationStore.concludeExpiry runId attempts tx =
      .ok (appendAbandonEvent (abandonInFlightPublication skipped).1
        (appendEvent .execution (some .pending) .skipped none
          (queueRunNotice tx.nextEventId .failure .preparation
            (PreparationStore.expirePreparation true tx.now tx.run.preparation).failureCode
            (abandonInFlightPublication skipped).2))) := by
    simp only [PreparationStore.concludeExpiry, preparing, exhausted, decide_true, if_true]
    split
    · next h => cases h.symm.trans hskip
    · next other h =>
      obtain rfl : other = skipped := Option.some.inj (h.symm.trans hskip)
      rfl
  refine ⟨_, concluded, ?_⟩
  refine (view_abandonAround skipped
    (fun L => L.announceFailure.record .execution .pending .skipped none) (fun _ _ => rfl) ?_).trans ?_
  · rw [view_appendEvent, view_queue_failure (abandon_unnoticed unnoticed)]
  · rw [seen, view_appendEvent]
    rfl

theorem concludeExpiry_retryable (preparing : tx.run.preparation.status = .preparing)
    {attempts : Nat} (left : ¬ PreparationStore.maxPreparationAttempts ≤ attempts) :
    ∃ next, PreparationStore.concludeExpiry runId attempts tx = .ok next ∧
      view next.run = Move.loseLease.apply (view tx.run) := by
  simp only [PreparationStore.concludeExpiry, preparing, left, decide_false, if_true,
    Bool.false_eq_true, if_false]
  refine ⟨_, rfl, ?_⟩
  rw [view_appendEvent]
  rfl

theorem concludeExpiry_unreconcilable (preparing : tx.run.preparation.status = .preparing)
    (advanced : tx.run.execution.status ≠ .pending) {attempts : Nat}
    (exhausted : PreparationStore.maxPreparationAttempts ≤ attempts) :
    PreparationStore.concludeExpiry runId attempts tx = .error .unreconcilable := by
  simp [PreparationStore.concludeExpiry, preparing, exhausted, skipPendingExecutions, appendEvent,
    advanced]

theorem expirePreparation_refines (fresh : Fresh tx) :
    Refines tx (moveOf store tx .expirePreparation) (expireSelected store runId tx) := by
  unfold expireSelected
  simp only [moveOf]
  split
  · next h =>
    have preparing : tx.run.preparation.status = .preparing := by
      simp only [PreparationStore.expirable, Bool.and_eq_true, decide_eq_true_eq] at h
      exact h.1
    unfold expiryMove PreparationStore.expireCandidate
    by_cases exhausted :
        PreparationStore.maxPreparationAttempts ≤ tx.run.preparation.attemptCount
    · by_cases pending : tx.run.execution.status = .pending
      · obtain ⟨next, concluded, seen⟩ :=
          concludeExpiry_exhausted runId fresh preparing pending exhausted
        simp only [concluded, if_pos exhausted, if_pos pending]
        exact ⟨⟨preparing, pending⟩, seen⟩
      · simp only [concludeExpiry_unreconcilable runId preparing pending exhausted,
          if_pos exhausted, if_neg pending, if_pos preparing]
        refine ⟨⟨preparing, pending⟩, (view_attentionEvent ?_ _ _ _ _ _).trans ?_⟩
        · exact fresh
        · rfl
    · obtain ⟨next, concluded, seen⟩ := concludeExpiry_retryable runId preparing exhausted
      simp only [concluded, if_neg exhausted]
      exact ⟨preparing, seen⟩
  · exact refines_idle tx _ rfl

theorem concludeSkipped_refines (fresh : Fresh tx) (error : Failure)
    (preparing : tx.run.preparation.status = .preparing)
    (pending : tx.run.execution.status = .pending) :
    Refines tx (.endUnsubmitted error.code) (PreparationStore.concludeSkipped runId error
      (updatePreparation (PreparationStore.closeFailed error tx.now) tx)) := by
  let closed := updatePreparation (PreparationStore.closeFailed error tx.now) tx
  obtain ⟨skipped, hskip⟩ : ∃ skipped, skipPendingExecutions closed = some skipped := by
    simp [skipPendingExecutions, closed, pending]
  have seen : view skipped.run = { view closed.run with execution := .skipped } := by
    have open_ : closed.run.execution.status = .pending := pending
    simp only [skipPendingExecutions, open_, if_true, Option.some.injEq] at hskip
    rw [← hskip]
    rfl
  have unnoticed : Fresh skipped := by
    simp only [skipPendingExecutions] at hskip
    split at hskip <;> cases hskip
    exact fresh
  simp only [PreparationStore.concludeSkipped]
  rw [show skipPendingExecutions (updatePreparation
    (PreparationStore.closeFailed error tx.now) tx) = some skipped from hskip]
  refine ⟨⟨preparing, pending⟩, ?_⟩
  refine (view_abandonAround skipped
    (fun L => (L.record .preparation .preparing .failed error.code).announceFailure.record
      .execution .pending .skipped none) (fun _ _ => rfl) ?_).trans ?_
  · rw [view_appendEvent, view_failureEvent (abandon_fresh unnoticed)]
  · rw [seen]
    rfl

theorem failPreparation_refines (fresh : Fresh tx) (token : Token) (error : Failure)
    (options : PreparationStore.FailOptions) :
    Refines tx (moveOf store tx (.failPreparation token error options))
      (PreparationStore.fail runId token error options tx) := by
  simp only [moveOf, failPreparationMove, PreparationStore.fail]
  by_cases holds : PreparationStore.holdsClaim token tx.run.preparation = true
  · have preparing : tx.run.preparation.status = .preparing := by
      simp only [PreparationStore.holdsClaim, Bool.and_eq_true, decide_eq_true_eq] at holds
      exact holds.1
    by_cases retry : options.retry = true ∧
        tx.run.preparation.attemptCount < PreparationStore.maxPreparationAttempts
    · simp only [holds, retry, Bool.and_self, decide_true, if_true, and_self]
      refine ⟨preparing, ?_⟩
      rw [view_appendEvent]
      rfl
    · have noRetry : (options.retry && true && decide (tx.run.preparation.attemptCount
          < PreparationStore.maxPreparationAttempts)) = false := by
        simpa using retry
      simp only [holds, noRetry, if_neg retry, if_true, Bool.not_true, Bool.false_eq_true,
        if_false]
      by_cases pending : tx.run.execution.status = .pending
      · simp only [if_pos pending]
        split
        · simp only [PreparationStore.concludeUncertain, updatePreparation, pending, if_true]
          refine ⟨⟨preparing, pending⟩, ?_⟩
          rw [view_appendEvent, view_appendEvent]
          rfl
        · exact concludeSkipped_refines runId fresh error preparing pending
      · simp only [if_neg pending]
        split
        · simp only [PreparationStore.concludeUncertain, updatePreparation, pending, if_false]
          exact refines_error tx _
        · simp only [PreparationStore.concludeSkipped, skipPendingExecutions, updatePreparation,
            pending, if_false]
          exact refines_error tx _
  · have lost : PreparationStore.holdsClaim token tx.run.preparation = false := by
      simpa using holds
    simp only [lost, Bool.and_false, Bool.false_and, Bool.false_eq_true, if_false, Bool.not_false,
      if_true]
    exact refines_idle tx _ rfl

theorem savePreparedSubmission_refines (token : Token) (context input : JsonValues.Json) :
    Refines tx .idle
      (SubmissionTransitionStore.savePreparedSubmission store runId token context input tx) := by
  unfold SubmissionTransitionStore.savePreparedSubmission
  split
  · exact refines_error tx _
  · split
    · split
      · exact refines_idle tx _ rfl
      · exact refines_error tx _
    · exact refines_error tx _

theorem markQueued_refines (token : Token) (context : JsonValues.Json) :
    Refines tx (moveOf store tx (.markQueued token context))
      (SubmissionTransitionStore.markQueued runId token context tx) := by
  simp only [moveOf, SubmissionTransitionStore.markQueued, Bool.and_eq_true, decide_eq_true_eq,
    and_assoc]
  split
  · next h =>
    have preparing : tx.run.preparation.status = .preparing := by
      have holds := h.2.2
      simp only [PreparationStore.holdsClaim, Bool.and_eq_true, decide_eq_true_eq] at holds
      exact holds.1
    refine ⟨⟨preparing, h.2.1, h.1⟩, ?_⟩
    rw [view_appendEvent, view_appendEvent]
    rfl
  · exact refines_error tx _

theorem holdsRecovery_uncertain {token : Token} {e : Execution}
    (h : SubmissionTransitionStore.holdsRecovery token e = true) : e.status = .uncertain := by
  simp only [SubmissionTransitionStore.holdsRecovery, Bool.and_eq_true, decide_eq_true_eq] at h
  exact h.1

theorem completeSubmissionRecovery_refines (token : Token) :
    Refines tx (moveOf store tx (.completeSubmissionRecovery token))
      (SubmissionTransitionStore.completeSubmissionRecovery token tx) := by
  simp only [moveOf, SubmissionTransitionStore.completeSubmissionRecovery, Bool.and_eq_true,
    decide_eq_true_eq]
  split
  · next h =>
    refine ⟨⟨holdsRecovery_uncertain h.1, h.2⟩, ?_⟩
    rw [view_appendEvent]
    rfl
  · exact refines_idle tx _ rfl

theorem failSubmissionRecovery_refines (fresh : Fresh tx) (token : Token) (error : Failure) :
    Refines tx (moveOf store tx (.failSubmissionRecovery token error))
      (SubmissionTransitionStore.failSubmissionRecovery token error tx) := by
  simp only [moveOf, SubmissionTransitionStore.failSubmissionRecovery]
  split
  · next h =>
    have uncertain : (view tx.run).execution = .uncertain := holdsRecovery_uncertain h
    refine ⟨.inr (.inr uncertain), (view_concludeExecutionFailed ?_ _ _).trans ?_⟩
    · exact fresh
    · simp only [Move.apply, uncertain]
      rfl
  · exact refines_idle tx _ rfl

theorem markRunning_refines :
    Refines tx (moveOf store tx .markRunning) (ExecutionStore.markRunning tx) := by
  simp only [moveOf, ExecutionStore.markRunning]
  split
  · next h =>
    refine ⟨h, ?_⟩
    rw [view_appendEvent]
    rfl
  · exact refines_idle tx _ rfl

theorem storedArtifact_isOk (storage : Option ArtifactStorage) :
    (ExecutionStore.storedArtifact "" storage).isOk =
      (ExecutionStore.storedArtifact runId storage).isOk := by
  cases storage with
  | none => rfl
  | some storage =>
    obtain ⟨status, artifact, errorCode, message⟩ := storage
    cases status <;> cases artifact <;> rfl

theorem isActive_iff (e : Execution) :
    ExecutionStore.isActive e = true ↔ e.status = .queued ∨ e.status = .running := by
  simp [ExecutionStore.isActive]

theorem recordExecutionSuccess_refines (workflowResult : Option JsonValues.Json)
    (storage : Option ArtifactStorage) :
    Refines tx (moveOf store tx (.recordExecutionSuccess workflowResult storage))
      (ExecutionStore.recordExecutionSuccess runId workflowResult storage tx) := by
  simp only [moveOf, ExecutionStore.recordExecutionSuccess, storedArtifact_isOk runId]
  cases ExecutionStore.storedArtifact runId storage with
  | error e => exact refines_error tx e
  | ok stored =>
    simp only [Except.isOk, Except.toBool, true_and]
    split
    · next h =>
      refine ⟨(isActive_iff _).mp h, ?_⟩
      rw [view_appendEvent]
      rfl
    · exact refines_idle tx _ rfl

theorem failExecution_refines (fresh : Fresh tx) (error : Failure)
    (storage : Option ArtifactStorage) :
    Refines tx (moveOf store tx (.failExecution error storage))
      (ExecutionStore.failExecution runId error storage tx) := by
  simp only [moveOf, ExecutionStore.failExecution, storedArtifact_isOk runId]
  cases ExecutionStore.storedArtifact runId storage with
  | error e => exact refines_error tx e
  | ok stored =>
    simp only [Except.isOk, Except.toBool, true_and]
    split
    · next h =>
      refine ⟨?_, (view_concludeExecutionFailed ?_ _ _).trans ?_⟩
      · rcases (isActive_iff _).mp h with queued | running
        · exact .inl queued
        · exact .inr (.inl running)
      · exact fresh
      · rfl
    · exact refines_idle tx _ rfl

theorem claimSubmissionRecovery_refines :
    Refines tx (moveOf store tx .claimSubmissionRecovery)
      (ExecutionStore.claimSubmissionRecovery store tx) := by
  simp only [moveOf, ExecutionStore.claimSubmissionRecovery, Bool.and_eq_true, decide_eq_true_eq]
  split
  · next h =>
    refine ⟨h.1, ?_⟩
    rw [view_appendEvent]
    rfl
  · exact refines_idle tx _ rfl

theorem disconnectExhausted_refines (fresh : Fresh tx) (maxAttempts : Nat) :
    Refines tx (moveOf store tx (.disconnectExhaustedSubmissionRecovery maxAttempts))
      (ExecutionStore.disconnectExhaustedSubmissionRecovery store maxAttempts tx) := by
  simp only [moveOf, ExecutionStore.disconnectExhaustedSubmissionRecovery, Bool.and_eq_true,
    decide_eq_true_eq, and_assoc]
  split
  · next h =>
    refine ⟨h.1, (view_attentionEvent ?_ _ _ _ _ _).trans ?_⟩
    · exact fresh
    · rfl
  · exact refines_idle tx _ rfl

theorem resumeSubmissionRecoveryOn_cases (tx : Tx) :
    (tx.run.execution.status ≠ .disconnected ∧
      ExecutionStore.resumeDisconnectedSubmissionRecoveryOn tx = none) ∨
    ∃ next, tx.run.execution.status = .disconnected ∧
      ExecutionStore.resumeDisconnectedSubmissionRecoveryOn tx = some next ∧
        view next.run = Move.resumeExecution.apply (view tx.run) := by
  by_cases h : tx.run.execution.status = .disconnected
  · simp only [ExecutionStore.resumeDisconnectedSubmissionRecoveryOn, if_pos h]
    refine .inr ⟨_, h, rfl, ?_⟩
    rw [view_supersede, view_appendEvent]
    rfl
  · exact .inl ⟨h, if_neg h⟩

theorem resumeSubmissionRecovery_refines :
    Refines tx (moveOf store tx .resumeSubmissionRecovery)
      (ExecutionStore.resumeDisconnectedSubmissionRecovery tx) := by
  rw [moveOf, ExecutionStore.resumeDisconnectedSubmissionRecovery]
  rcases resumeSubmissionRecoveryOn_cases tx with ⟨other, none⟩ | ⟨next, h, some, seen⟩
  · rw [none, if_neg other]
    exact refines_idle tx _ rfl
  · rw [some, if_pos h]
    exact ⟨h, seen⟩

theorem claimPublication_refines :
    Refines tx (moveOf store tx .claimPublication) (PublicationClaimStore.claim store tx) := by
  simp only [moveOf, PublicationClaimStore.claim]
  split
  · next h =>
    simp only [PublicationClaimStore.claimable, PublicationClaimStore.publishable,
      Bool.and_eq_true, Bool.or_eq_true, Bool.not_eq_true', decide_eq_true_eq] at h
    obtain ⟨⟨⟨succeeded, -⟩, noneParked⟩, status⟩ := h
    have sources : tx.run.publication.status = .pending ∨
        tx.run.publication.status = .publishing ∨ tx.run.publication.status = .uncertain := by
      rcases status with pending | ⟨inFlight, -⟩
      · exact .inl pending
      · exact .inr inFlight
    refine ⟨⟨succeeded, ?_, sources⟩, ?_⟩
    · rw [hasStep_view]
      exact noneParked
    · rw [view_appendEvent]
      have reason : PublicationClaimStore.claimReason tx.run.publication.status =
          if tx.run.publication.status = .pending then none
          else some "PUBLICATION_LEASE_EXPIRED" := by
        rcases sources with h | h | h <;> simp [PublicationClaimStore.claimReason, h]
      rw [reason]
      rfl
  · exact refines_idle tx _ rfl

theorem ownsPublication_inFlight {token : Token} {p : Publication}
    (h : PublicationStore.ownsPublication token p = true) : p.status.inFlight = true := by
  simp only [PublicationStore.ownsPublication, Bool.and_eq_true] at h
  exact h.1

theorem completePublication_refines (token : Token) :
    Refines tx (moveOf store tx (.completePublication token))
      (PublicationStore.complete token tx) := by
  simp only [moveOf, PublicationStore.complete, Bool.and_eq_true, Bool.not_eq_true']
  split
  · next h =>
    refine ⟨⟨ownsPublication_inFlight h.1, ?_⟩, ?_⟩
    · intro key state hrow
      obtain ⟨s, hs, rfl⟩ := Option.map_eq_some_iff.mp hrow
      simpa [stepState] using (Table.not_any_iff _ _).mp h.2 key s hs
    · rw [view_appendEvent]
      rfl
  · exact refines_idle tx _ rfl

theorem failPublication_refines (fresh : Fresh tx) (token : Token) (error : Failure)
    (retry : Bool) :
    Refines tx (moveOf store tx (.failPublication token error retry))
      (PublicationStore.fail token error retry tx) := by
  simp only [moveOf, PublicationStore.fail]
  by_cases h : PublicationStore.ownsPublication token tx.run.publication = true
  · simp only [if_pos h]
    cases retry with
    | true =>
      refine ⟨ownsPublication_inFlight h, (view_appendEvent _ _ _ _ _).trans ?_⟩
      rfl
    | false =>
      refine ⟨ownsPublication_inFlight h, (view_failureEvent ?_ _ _ _ _ _).trans ?_⟩
      · exact fresh
      · rfl
  · simp only [if_neg h]
    exact refines_idle tx _ rfl

theorem initializeSteps_refines (token : Token) (stepKeys : List StepKey) :
    Refines tx (moveOf store tx (.initializePublicationSteps token stepKeys))
      (PublicationStore.initializePublicationSteps runId token stepKeys tx) := by
  simp only [moveOf, PublicationStore.initializePublicationSteps]
  by_cases distinct : stepKeys.Nodup
  · by_cases owned : PublicationStore.ownsPublication token tx.run.publication = true
    · by_cases empty : tx.run.steps.keys = []
      · simp only [distinct, owned, empty, not_true, if_false, Bool.not_true, Bool.false_eq_true,
          and_self, if_true]
        refine ⟨⟨ownsPublication_inFlight owned, empty⟩, ?_⟩
        simp [view, Move.apply, insertSteps_state]
      · simp only [distinct, owned, empty, not_true, if_false, Bool.not_true, Bool.false_eq_true,
          and_false]
        split
        · exact refines_error tx _
        · exact refines_idle tx _ rfl
    · have lost : PublicationStore.ownsPublication token tx.run.publication = false := by
        simpa using owned
      simp only [distinct, lost, not_true, if_false, Bool.false_eq_true, false_and, and_false,
        Bool.not_false, if_true]
      exact refines_error tx _
  · simp only [distinct, not_false_eq_true, if_true, false_and, if_false]
    exact refines_error tx _

theorem updateSteps_fresh {f : Table StepKey PublicationStep → Table StepKey PublicationStep}
    (fresh : Fresh tx) : Fresh (updateSteps f tx) := fresh

theorem refusedClaim_refines (fresh : Fresh tx) (token : Token) (stepKey : StepKey) :
    (refusedClaimMove token stepKey tx).Enabled (view tx.run) ∧
      view (PublicationStore.reconcileRefusedClaim token stepKey tx).2.run =
        (refusedClaimMove token stepKey tx).apply (view tx.run) := by
  rw [refusedClaimMove, PublicationStore.reconcileRefusedClaim]
  rcases updateOwnedStep_cases token stepKey PublicationStore.awaitsReconciliation
      (PublicationStore.doubtStep tx.now) tx with ⟨ready, none⟩ | ⟨s, ready, owned, row, hp, some⟩
  · rw [none, ready]
    exact ⟨trivial, view_derive fresh⟩
  · rw [some, ready]
    refine ⟨⟨ownsPublication_inFlight owned, _, view_steps_row row, ?_⟩, ?_⟩
    · simp only [PublicationStore.awaitsReconciliation, PublicationStore.isStepExhausted,
        PublicationStore.maxPublicationStepAttempts, Bool.and_eq_true, Bool.or_eq_true,
        decide_eq_true_eq, or_assoc] at hp
      exact ⟨of_decide_eq_true hp.1, hp.2⟩
    · refine (view_derive (updateSteps_fresh fresh)).trans ?_
      rw [view_updateStep row _ _ (doubtStep_state tx.now s)]
      rfl

theorem requirePublicationStepClaim_refines (fresh : Fresh tx) (token : Token)
    (stepKey : StepKey) :
    Refines tx (moveOf store tx (.requirePublicationStepClaim token stepKey))
      (PublicationStore.requirePublicationStepClaim token stepKey tx) := by
  rw [moveOf, PublicationStore.requirePublicationStepClaim, PublicationStore.claimPublicationStep]
  rcases updateOwnedStep_cases token stepKey (PublicationStore.stepClaimable token)
      (PublicationStore.startStep token tx.now) tx with
    ⟨ready, none⟩ | ⟨s, ready, owned, row, hp, some⟩
  · rw [none, ready]
    exact refusedClaim_refines fresh token stepKey
  · rw [some, ready]
    refine ⟨⟨ownsPublication_inFlight owned, _, view_steps_row row, ?_⟩, ?_⟩
    · simp only [PublicationStore.stepClaimable, PublicationStore.maxPublicationStepAttempts,
        Bool.and_eq_true, Bool.or_eq_true, decide_eq_true_eq] at hp
      refine ⟨of_decide_eq_true hp.1, ?_⟩
      rcases hp.2 with (pending | running) | failed
      · exact .inl pending
      · exact .inr (.inl running.1)
      · exact .inr (.inr failed)
    · exact view_updateStep row _ _ rfl

theorem settleExhausted_refines (fresh : Fresh tx) (token : Token) (stepKey : StepKey)
    (found : Option PublicationStore.RemoteObject) :
    Refines tx (moveOf store tx (.settleExhaustedPublicationStep token stepKey found))
      (PublicationStore.settleExhaustedPublicationStep token stepKey found tx) := by
  rw [moveOf, PublicationStore.settleExhaustedPublicationStep]
  rcases updateOwnedStep_cases token stepKey
      (fun s => s.status = .uncertain && PublicationStore.isStepExhausted s)
      (PublicationStore.settleStep found tx.now) tx with
    ⟨ready, none⟩ | ⟨s, ready, owned, row, hp, some⟩
  · rw [none, ready]
    exact refines_idle tx _ rfl
  · rw [some, ready]
    simp only [PublicationStore.isStepExhausted, PublicationStore.maxPublicationStepAttempts,
      Bool.and_eq_true, decide_eq_true_eq] at hp
    refine ⟨⟨ownsPublication_inFlight owned, _, view_steps_row row,
      of_decide_eq_true hp.2, hp.1⟩, ?_⟩
    refine (view_derive (updateSteps_fresh fresh)).trans ?_
    rw [view_updateStep row _ _ (settleStep_state found tx.now s)]
    rfl

theorem completePublicationStep_refines (token : Token) (stepKey : StepKey)
    (remote : PublicationStore.RemoteObject) :
    Refines tx (moveOf store tx (.completePublicationStep token stepKey remote))
      (PublicationStore.completePublicationStep token stepKey remote tx) := by
  rw [moveOf, PublicationStore.completePublicationStep]
  rcases updateOwnedStep_cases token stepKey (fun s => s.status = .running)
      (PublicationStore.succeedStep remote tx.now) tx with
    ⟨ready, none⟩ | ⟨s, ready, owned, row, hp, some⟩
  · rw [none, ready]
    exact refines_idle tx _ rfl
  · rw [some, ready]
    exact ⟨⟨ownsPublication_inFlight owned, _, view_steps_row row, by simpa [stepState] using hp⟩,
      view_updateStep row _ _ rfl⟩

/-- Deriving the status never takes the publication from its owner. -/
theorem derive_owns {token : Token}
    (h : PublicationStore.ownsPublication token tx.run.publication = true) :
    PublicationStore.ownsPublication token
      (PublicationStore.derivePublicationStatus tx).run.publication = true := by
  have target : (PublicationStore.derivedStatus tx.run.publication.status
      tx.run.steps).inFlight = true := by
    have inFlight := ownsPublication_inFlight h
    unfold PublicationStore.derivedStatus
    split
    · rfl
    · split
      · rfl
      · split
        · rfl
        · exact inFlight
  have queued : ∀ id kind axis reason (t : Tx),
      (queueRunNotice id kind axis reason t).run.publication = t.run.publication := by
    intro id kind axis reason t
    unfold queueRunNotice
    split <;> rfl
  simp only [PublicationStore.ownsPublication, Bool.and_eq_true, decide_eq_true_eq] at h ⊢
  simp only [PublicationStore.derivePublicationStatus]
  split
  · split
    · rw [queued]
      exact ⟨target, h.2⟩
    · exact ⟨target, h.2⟩
  · exact h

theorem failPublicationOfStep_view (fresh : Fresh tx) {token : Token} (error : Failure)
    (owned : PublicationStore.ownsPublication token tx.run.publication = true) :
    ∃ next, PublicationStore.failPublicationOfStep runId token error tx = .ok (true, next) ∧
      view next.run = ({ view tx.run with publication := .failed }.record .publication
        (view tx.run).publication.name .failed error.code).announceFailure := by
  unfold PublicationStore.failPublicationOfStep
  rw [if_pos owned]
  refine ⟨_, rfl, (view_failureEvent ?_ _ _ _ _ _).trans ?_⟩
  · exact fresh
  · rfl

theorem failPublicationStep_refines (fresh : Fresh tx) (token : Token) (stepKey : StepKey)
    (error : Failure) (retry : Option Bool) :
    Refines tx (moveOf store tx (.failPublicationStep token stepKey error retry))
      (PublicationStore.failPublicationStep runId token stepKey error retry tx) := by
  rw [moveOf, PublicationStore.failPublicationStep]
  rcases updateOwnedStep_cases token stepKey
      (fun s => s.status = .running || s.status = .uncertain)
      (PublicationStore.failStep error retry tx.now) tx with
    ⟨ready, none⟩ | ⟨s, ready, owned, row, hp, some⟩
  · rw [none, ready]
    exact refines_idle tx _ rfl
  · rw [some, ready]
    have applies : (Revision.fail retry).Applies (stepState s) := by
      simpa [Revision.Applies, stepState] using hp
    have enabled : (view tx.run).publication.inFlight = true := ownsPublication_inFlight owned
    let failed := updateSteps (fun steps =>
      steps.put stepKey (PublicationStore.failStep error retry tx.now s)) tx
    have freshDerived : Fresh (PublicationStore.derivePublicationStatus failed) :=
      derive_fresh (updateSteps_fresh fresh)
    have seen : view (PublicationStore.derivePublicationStatus failed).run =
        ((view tx.run).reviseStep stepKey (Revision.fail retry).revise).derive := by
      rw [view_derive (updateSteps_fresh fresh),
        view_updateStep row _ _ (failStep_state error retry tx.now s)]
    by_cases terminal : retry = Option.some false
    · subst terminal
      have still : PublicationStore.ownsPublication token
          (PublicationStore.derivePublicationStatus failed).run.publication = true :=
        derive_owns owned
      obtain ⟨next, ended, after⟩ := failPublicationOfStep_view runId freshDerived error still
      rw [seen] at after
      simp only [if_true]
      rw [show PublicationStore.failPublicationOfStep runId token error
        (PublicationStore.derivePublicationStatus failed) = _ from ended]
      exact ⟨⟨enabled, _, view_steps_row row, applies⟩, after⟩
    · simp only [if_neg terminal, if_true]
      exact ⟨⟨enabled, _, view_steps_row row, applies⟩, seen⟩

theorem view_failParkedPreparation (fresh : Fresh tx) (code reason : String) :
    view (OperatorDecisionStore.failParkedPreparation code reason tx).run =
      ({ view tx.run with preparation := .failed }.record .preparation .disconnected .failed
        (some code)).announceFailure := by
  refine (view_failureEvent ?_ _ _ _ _ _).trans ?_
  · exact fresh
  · rfl

theorem view_stopExecution (code reason : String) :
    view (OperatorDecisionStore.stopExecution code reason tx).run =
      Move.stopExecution code (view tx.run) := by
  have status : (view tx.run).execution = tx.run.execution.status := rfl
  simp only [OperatorDecisionStore.stopExecution, Move.stopExecution, status, Bool.or_eq_true,
    decide_eq_true_eq, or_assoc]
  split
  · rw [view_appendEvent]
    rfl
  · rfl

theorem abandonBlockedPreparation_refines (fresh : Fresh tx) (reason : String) :
    Refines tx (moveOf store tx (.abandonBlockedPreparation reason))
      (OperatorDecisionStore.abandonBlockedPreparation runId reason tx) := by
  rw [moveOf, OperatorDecisionStore.abandonBlockedPreparation]
  by_cases blank : OperatorDecisionStore.isBlank reason = true
  · rw [if_pos blank, if_neg (by simp [blank])]
    exact refines_error tx _
  · by_cases parked : tx.run.preparation.status = .disconnected
    · rw [if_neg blank, if_pos parked, if_pos ⟨by simpa using blank, parked⟩]
      refine ⟨parked, ?_⟩
      rw [view_abandonPublication, view_stopExecution, view_failParkedPreparation fresh]
      rfl
    · rw [if_neg blank, if_neg parked, if_neg (fun h => parked h.2)]
      exact refines_error tx _

theorem resumeDisconnectedPreparation_refines :
    Refines tx (if tx.run.preparation.status = .disconnected then .resumePreparation else .idle)
      (OperatorDecisionStore.resumeDisconnectedPreparation runId tx) := by
  unfold OperatorDecisionStore.resumeDisconnectedPreparation
  split
  · next h =>
    refine ⟨h, ?_⟩
    rw [view_supersede, view_appendEvent]
    rfl
  · exact refines_error tx _

theorem resumeDisconnectedExecution_refines :
    Refines tx (if tx.run.execution.status = .disconnected then .resumeExecution else .idle)
      (OperatorDecisionStore.resumeDisconnectedExecution runId tx) := by
  unfold OperatorDecisionStore.resumeDisconnectedExecution
  rcases resumeSubmissionRecoveryOn_cases tx with ⟨other, none⟩ | ⟨next, h, some, seen⟩
  · rw [none, if_neg other]
    exact refines_error tx _
  · rw [some, if_pos h]
    exact ⟨h, seen⟩

theorem resumeDisconnectedPublication_refines :
    Refines tx (if tx.run.publication.status = .disconnected then .resumePublication else .idle)
      (OperatorDecisionStore.resumeDisconnectedPublication runId tx) := by
  unfold OperatorDecisionStore.resumeDisconnectedPublication PublicationStore.resumeDisconnectedOn
  by_cases h : tx.run.publication.status = .disconnected
  · rw [if_pos h, if_pos h]
    refine ⟨h, ?_⟩
    rw [view_supersede, view_appendEvent]
    simp only [Move.apply, view, updateSteps, updatePublication,
      mapRows_stepState _ _ _ (resumeStep_state tx.now)]
  · rw [if_neg h, if_neg h]
    exact refines_error tx _

theorem resumeDisconnectedRun_refines :
    Refines tx (moveOf store tx .resumeDisconnectedRun)
      (OperatorDecisionStore.resumeDisconnectedRun runId tx) := by
  rw [moveOf, OperatorDecisionStore.resumeDisconnectedRun]
  by_cases hp : tx.run.preparation.status = .disconnected
  · have resumed : Refines tx _ _ := resumeDisconnectedPreparation_refines runId
    simp only [if_pos hp] at resumed ⊢
    split
    · exact resumed
    · exact refines_error tx _
  · simp only [if_neg hp]
    by_cases he : tx.run.execution.status = .disconnected
    · have resumed : Refines tx _ _ := resumeDisconnectedExecution_refines runId
      simpa only [if_pos he] using resumed
    · simp only [if_neg he]
      by_cases hb : tx.run.publication.status = .disconnected
      · have resumed : Refines tx _ _ := resumeDisconnectedPublication_refines runId
        simpa only [if_pos hb] using resumed
      · simp only [if_neg hb]
        exact refines_error tx _

theorem giveUpDisconnectedPreparation_refines (fresh : Fresh tx) (reason : String) :
    Refines tx (moveOf store tx (.giveUpDisconnectedPreparation reason))
      (OperatorDecisionStore.giveUpDisconnectedPreparation runId reason tx) := by
  rw [moveOf, OperatorDecisionStore.giveUpDisconnectedPreparation]
  split
  · next h =>
    refine ⟨h, ?_⟩
    rw [view_abandonPublication, view_failParkedPreparation fresh]
    rfl
  · exact refines_error tx _

theorem giveUpDisconnectedExecution_refines (fresh : Fresh tx) (reason : String) :
    Refines tx (moveOf store tx (.giveUpDisconnectedExecution reason))
      (OperatorDecisionStore.giveUpDisconnectedExecution runId reason tx) := by
  simp only [moveOf, OperatorDecisionStore.giveUpDisconnectedExecution]
  split
  · next h =>
    refine ⟨h, (view_abandonPublication _).trans ?_⟩
    refine (congrArg Lifecycle.abandon (view_failureEvent ?_ _ _ _ _ _)).trans ?_
    · exact fresh
    · rfl
  · exact refines_error tx _

theorem giveUpDisconnectedPublication_refines (fresh : Fresh tx) (reason : String) :
    Refines tx (moveOf store tx (.giveUpDisconnectedPublication reason))
      (OperatorDecisionStore.giveUpDisconnectedPublication runId reason tx) := by
  simp only [moveOf, OperatorDecisionStore.giveUpDisconnectedPublication]
  split
  · next h =>
    refine ⟨h, (view_failureEvent ?_ _ _ _ _ _).trans ?_⟩
    · exact fresh
    · rfl
  · exact refines_error tx _

theorem giveUpDisconnectedRun_refines (fresh : Fresh tx) (reason : String) :
    Refines tx (moveOf store tx (.giveUpDisconnectedRun reason))
      (OperatorDecisionStore.giveUpDisconnectedRun runId reason tx) := by
  rw [moveOf, OperatorDecisionStore.giveUpDisconnectedRun]
  split
  · exact refines_error tx _
  · split
    · next h =>
      simpa only [moveOf, if_pos h] using
        giveUpDisconnectedPreparation_refines store runId fresh reason
    · split
      · next h =>
        simpa only [moveOf, if_pos h] using
          giveUpDisconnectedExecution_refines store runId fresh reason
      · split
        · next h =>
          simpa only [moveOf, if_pos h] using
            giveUpDisconnectedPublication_refines store runId fresh reason
        · exact refines_error tx _

/-- Rewriting one notice, seen from the outbox. -/
theorem view_putNotice {noticeId : NoticeId} {n m : RunNotice}
    (row : tx.run.notices.row noticeId = some n) (kind : m.kind = n.kind) :
    view (updateNotices (fun notices => notices.put noticeId m) tx).run =
      { view tx.run with
        attention := fun axis => remainingAttention noticeId tx axis || isLiveAttention axis m } := by
  have failures : (tx.run.notices.put noticeId m).count isFailure =
      tx.run.notices.count isFailure :=
    Table.count_put_of_row row (by simp [isFailure, kind])
  have attention : ∀ axis, (tx.run.notices.put noticeId m).any (isLiveAttention axis) =
      (remainingAttention noticeId tx axis || isLiveAttention axis m) := by
    intro axis
    rw [Bool.eq_iff_iff, Bool.or_eq_true, remainingAttention, List.any_eq_true, Table.any_iff]
    constructor
    · rintro ⟨id, other, hother, live⟩
      by_cases hid : id = noticeId
      · simp only [Table.put_row, hid, if_true, Option.some.injEq] at hother
        exact .inr (hother ▸ live)
      · simp only [Table.put_row, hid, if_false] at hother
        exact .inl ⟨id, Table.mem_keys_of_row hother, by simp [hid, hother, live]⟩
    · rintro (⟨id, -, h⟩ | live)
      · simp only [Bool.and_eq_true, decide_eq_true_eq, Option.any_eq_true] at h
        obtain ⟨hid, other, hother, live⟩ := h
        exact ⟨id, other, by simp [hid, hother], live⟩
      · exact ⟨noticeId, m, by simp, live⟩
  simp only [view, updateNotices, failures, attention]

theorem attention_of_row {noticeId : NoticeId} {n : RunNotice}
    (row : tx.run.notices.row noticeId = some n) (axis : Axis) :
    (view tx.run).attention axis = (remainingAttention noticeId tx axis || isLiveAttention axis n) := by
  have same : tx.run.notices.put noticeId n = tx.run.notices := by
    apply Table.ext_rows
    · exact Table.put_keys_of_row row n
    · intro id
      by_cases hid : id = noticeId
      · simp [hid, row]
      · simp [hid]
  have seen := view_putNotice row (m := n) rfl
  simp only [updateNotices, same] at seen
  exact congrFun (congrArg Lifecycle.attention seen) axis

/-- A notice that stays as live as it was does not show. -/
theorem view_putNotice_same {noticeId : NoticeId} {n m : RunNotice}
    (row : tx.run.notices.row noticeId = some n) (kind : m.kind = n.kind)
    (live : ∀ axis, isLiveAttention axis m = isLiveAttention axis n) :
    view (updateNotices (fun notices => notices.put noticeId m) tx).run = view tx.run := by
  rw [view_putNotice row kind]
  have same : (fun axis => remainingAttention noticeId tx axis || isLiveAttention axis m) =
      (view tx.run).attention := by
    funext axis
    rw [attention_of_row row, live]
  rw [same]

theorem claimNotice_refines (noticeId : NoticeId) :
    Refines tx .idle (RunNoticeStore.claimSelected store runId noticeId tx) := by
  unfold RunNoticeStore.claimSelected
  split
  · exact refines_idle tx _ rfl
  · next n row =>
    split
    · next claimable =>
      have drawn : (randomUUID tx).2.run.notices.row noticeId = some n := row
      refine refines_idle tx _ ((view_putNotice_same drawn ?_ ?_).trans rfl)
      · rfl
      · intro axis
        simp only [RunNoticeStore.claimable, Bool.or_eq_true, Bool.and_eq_true,
          decide_eq_true_eq] at claimable
        rcases claimable with h | h <;> simp [isLiveAttention, h]
    · exact refines_idle tx _ rfl

theorem renewNotice_refines (noticeId : NoticeId) (token : Token) :
    Refines tx .idle (RunNoticeStore.renewClaim noticeId token tx) := by
  unfold RunNoticeStore.renewClaim RunNoticeStore.updateOwned
  split
  · exact refines_idle tx _ rfl
  · next n row =>
    split
    · exact refines_idle tx _ (view_putNotice_same row rfl fun _ => rfl)
    · exact refines_idle tx _ rfl

theorem completeNotice_refines (noticeId : NoticeId) (token : Token) (delivered : Bool)
    (commentUrl : Option String) :
    Refines tx (moveOf store tx (.completeNotice noticeId token delivered commentUrl))
      (RunNoticeStore.complete noticeId token delivered commentUrl tx) := by
  rw [moveOf, RunNoticeStore.complete]
  by_cases agree : delivered = commentUrl.isSome
  · subst agree
    have proceed : (commentUrl.isSome && commentUrl.isNone) = false ∧
        (!commentUrl.isSome && commentUrl.isSome) = false := by
      cases commentUrl <;> simp
    simp only [proceed.1, proceed.2, Bool.false_eq_true, if_false, true_and,
      RunNoticeStore.updateOwned]
    cases row : tx.run.notices.row noticeId with
    | none => exact refines_idle tx _ rfl
    | some n =>
      simp only [Option.any_some]
      split
      · refine ⟨fun axis h => ?_, (view_putNotice row ?_).trans ?_⟩
        · rw [attention_of_row row, h, Bool.true_or]
        · rfl
        · have settled : ∀ axis, isLiveAttention axis
              { n with status := if commentUrl.isSome then .delivered else .failed,
                       claimToken := none, claimedAt := none, commentUrl := commentUrl,
                       updatedAt := tx.now } = false := by
            intro axis
            cases commentUrl <;> simp [isLiveAttention]
          simp only [settled, Bool.or_false]
          rfl
      · exact refines_idle tx _ rfl
  · simp only [agree, false_and, if_false]
    cases delivered <;> cases commentUrl <;> simp_all <;> exact refines_error tx _

theorem perform_refines (fresh : Fresh tx) (action : RunAction) :
    (moveOf store tx action).Enabled (view tx.run) ∧
      view (action.result store runId tx).run =
        (moveOf store tx action).apply (view tx.run) := by
  cases action with
  | claimPreparation => exact Refines.result rfl (claimPreparation_refines store runId)
  | expirePreparation => exact Refines.result rfl (expirePreparation_refines store runId fresh)
  | renewPreparation token =>
    refine Refines.result rfl (?_ : Refines tx .idle (PreparationStore.renewClaim store token tx))
    unfold PreparationStore.renewClaim
    split <;> exact refines_idle tx _ rfl
  | checkpointInput token input =>
    refine Refines.result rfl
      (?_ : Refines tx .idle (PreparationStore.checkpointInput runId token input tx))
    unfold PreparationStore.checkpointInput
    split
    · exact refines_idle tx _ rfl
    · exact refines_error tx _
  | failPreparation token error options =>
    exact Refines.result rfl (failPreparation_refines store runId fresh token error options)
  | reserveCandidate token intent =>
    refine Refines.result rfl
      (?_ : Refines tx .idle (InputBundleCandidateStore.reserve store runId token intent tx))
    unfold InputBundleCandidateStore.reserve
    split
    · exact refines_error tx _
    · exact refines_error tx _
    · dsimp only
      split
      · exact refines_error tx _
      · split
        · exact refines_idle tx _ rfl
        · split
          · exact refines_idle tx _ rfl
          · exact refines_error tx _
  | settleCandidate token digest settlement =>
    refine Refines.result rfl (?_ : Refines tx .idle
      (InputBundleCandidateStore.settle store runId token digest settlement tx))
    unfold InputBundleCandidateStore.settle
    split
    · exact refines_error tx _
    · split
      · exact refines_error tx _
      · split
        · exact refines_idle tx _ rfl
        · exact refines_error tx _
  | savePreparedSubmission token context input =>
    exact Refines.result rfl (savePreparedSubmission_refines store runId token context input)
  | markQueued token context =>
    exact Refines.result rfl (markQueued_refines store runId token context)
  | completeSubmissionRecovery token =>
    exact Refines.result rfl (completeSubmissionRecovery_refines store token)
  | failSubmissionRecovery token error =>
    exact Refines.result rfl (failSubmissionRecovery_refines store fresh token error)
  | touchObservation =>
    refine Refines.result rfl (?_ : Refines tx .idle (ExecutionStore.touchObservation tx))
    unfold ExecutionStore.touchObservation
    split <;> exact refines_idle tx _ rfl
  | markRunning => exact Refines.result rfl (markRunning_refines store)
  | recordArtifactStorage storage =>
    refine Refines.result rfl
      (?_ : Refines tx .idle (ExecutionStore.recordArtifactStorage runId storage tx))
    unfold ExecutionStore.recordArtifactStorage
    split
    · exact refines_idle tx _ rfl
    · split
      · exact refines_error tx _
      · exact refines_idle tx _ rfl
  | recordExecutionSuccess workflowResult storage =>
    exact Refines.result rfl (recordExecutionSuccess_refines store runId workflowResult storage)
  | claimSubmissionRecovery => exact Refines.result rfl (claimSubmissionRecovery_refines store)
  | resumeSubmissionRecovery => exact Refines.result rfl (resumeSubmissionRecovery_refines store)
  | disconnectExhaustedSubmissionRecovery maxAttempts =>
    exact Refines.result rfl (disconnectExhausted_refines store fresh maxAttempts)
  | recordUnknownRecoveryOutcome token =>
    refine Refines.result rfl
      (?_ : Refines tx .idle (ExecutionStore.recordUnknownRecoveryOutcome token tx))
    unfold ExecutionStore.recordUnknownRecoveryOutcome
    split <;> exact refines_idle tx _ rfl
  | failExecution error storage =>
    exact Refines.result rfl (failExecution_refines store runId fresh error storage)
  | claimPublication => exact Refines.result rfl (claimPublication_refines store)
  | renewPublication token =>
    refine Refines.result rfl (?_ : Refines tx .idle (PublicationStore.renewClaim token tx))
    unfold PublicationStore.renewClaim
    split <;> exact refines_idle tx _ rfl
  | completePublication token => exact Refines.result rfl (completePublication_refines store token)
  | failPublication token error retry =>
    exact Refines.result rfl (failPublication_refines store fresh token error retry)
  | initializePublicationSteps token stepKeys =>
    exact Refines.result rfl (initializeSteps_refines store runId token stepKeys)
  | requirePublicationStepClaim token stepKey =>
    exact Refines.result rfl (requirePublicationStepClaim_refines store fresh token stepKey)
  | reconcileRefusedClaim token stepKey => exact refusedClaim_refines fresh token stepKey
  | settleExhaustedPublicationStep token stepKey found =>
    exact Refines.result rfl (settleExhausted_refines store fresh token stepKey found)
  | completePublicationStep token stepKey remote =>
    exact Refines.result rfl (completePublicationStep_refines store token stepKey remote)
  | failPublicationStep token stepKey error retry =>
    exact Refines.result rfl
      (failPublicationStep_refines store runId fresh token stepKey error retry)
  | abandonBlockedPreparation reason =>
    exact Refines.result rfl (abandonBlockedPreparation_refines store runId fresh reason)
  | resumeDisconnectedPreparation =>
    exact Refines.result rfl (resumeDisconnectedPreparation_refines runId)
  | resumeDisconnectedExecution =>
    exact Refines.result rfl (resumeDisconnectedExecution_refines runId)
  | resumeDisconnectedPublication =>
    exact Refines.result rfl (resumeDisconnectedPublication_refines runId)
  | resumeDisconnectedRun => exact Refines.result rfl (resumeDisconnectedRun_refines store runId)
  | giveUpDisconnectedPreparation reason =>
    exact Refines.result rfl (giveUpDisconnectedPreparation_refines store runId fresh reason)
  | giveUpDisconnectedExecution reason =>
    exact Refines.result rfl (giveUpDisconnectedExecution_refines store runId fresh reason)
  | giveUpDisconnectedPublication reason =>
    exact Refines.result rfl (giveUpDisconnectedPublication_refines store runId fresh reason)
  | giveUpDisconnectedRun reason =>
    exact Refines.result rfl (giveUpDisconnectedRun_refines store runId fresh reason)
  | claimNotice noticeId => exact Refines.result rfl (claimNotice_refines store runId noticeId)
  | renewNotice noticeId token => exact Refines.result rfl (renewNotice_refines noticeId token)
  | completeNotice noticeId token delivered commentUrl =>
    exact Refines.result rfl (completeNotice_refines store noticeId token delivered commentUrl)

end Actions

theorem fresh_stable : Stable Fresh := by
  intro tx next fresh same _ event notice id n hn
  rw [same] at hn
  exact ⟨(fresh id n hn).1.trans_le notice, (fresh id n hn).2.trans_le event⟩

theorem fresh_initially : Initially Fresh := by
  intro store args db id n hn
  cases hn

theorem fresh_result (store : Store) (id : RunId) (action : RunAction) {tx : Tx}
    (fresh : Fresh tx) : Fresh (action.result store id tx) :=
  (result_writes store id action tx).fresh fresh

theorem fresh_reachable {db : Database} (reachable : coordination.Reachable db) {id : RunId}
    {run : Run} (row : db.runs.row id = some run) : Fresh (begin db run) :=
  everywhere_reachable fresh_stable fresh_initially
    (fun store id action _ fresh => fresh_result store id action fresh) reachable id run row

theorem view_insertWith (store : Store) (args : AdmissionStore.CreateReviewRunArgs)
    (db : Database) : view (AdmissionStore.insertWith store args db).run = admitted := by
  have empty : (Table.empty : Table StepKey PublicationStep).mapRows stepState = Table.empty := by
    apply Table.ext_rows
    · rfl
    · intro k
      rfl
  have log : (AdmissionStore.insertWith store args db).run.events.map logged = admitted.log := rfl
  simp only [view, log]
  simp only [AdmissionStore.insertWith, AdmissionStore.insertedRun, appendEvent, empty]
  rfl

/-- The invariant rule on moves. -/
theorem view_reachable {P : Lifecycle → Prop} (initially : P admitted)
    (preserved : ∀ (move : Move) L, move.Enabled L → P L → P (move.apply L))
    {db : Database} (reachable : coordination.Reachable db) {id : RunId} {run : Run}
    (row : db.runs.row id = some run) : P (view run) := by
  have stable : Stable fun tx => Fresh tx ∧ P (view tx.run) := by
    intro tx next h same token event notice
    exact ⟨fresh_stable tx next h.1 same token event notice, same ▸ h.2⟩
  have new : Initially fun tx => Fresh tx ∧ P (view tx.run) := by
    intro store args db
    refine ⟨fresh_initially store args db, ?_⟩
    rw [view_insertWith]
    exact initially
  have kept : ∀ store id action tx, Fresh tx ∧ P (view tx.run) →
      Fresh (RunAction.result store id action tx) ∧
        P (view (RunAction.result store id action tx).run) := by
    intro store id action tx h
    obtain ⟨enabled, after⟩ := perform_refines store id h.1 action
    refine ⟨fresh_result store id action h.1, ?_⟩
    rw [after]
    exact preserved _ _ enabled h.2
  exact (everywhere_reachable stable new kept reachable id run row).2

/-- One operation on one run of a reachable database: nothing, or one move. -/
theorem execute_moves {db : Database} (reachable : coordination.Reachable db) (call : Call)
    {id : RunId} {run : Run} (row : db.runs.row id = some run) :
    ∃ next, (call.2.execute call.1 db).runs.row id = some next ∧
      (actionOn call db id = none ∧ next = run ∨
        ∃ action tx, actionOn call db id = some action ∧ tx.run = run ∧ tx.now = db.clock ∧
          (moveOf call.1 tx action).Enabled (view run) ∧
          view next = (moveOf call.1 tx action).apply (view run)) := by
  obtain ⟨tx, sees, row', -⟩ := execute_existing call row
  have fresh : Fresh tx :=
    fresh_stable _ _ (fresh_reachable reachable row) sees.run sees.token sees.event sees.notice
  refine ⟨_, row', ?_⟩
  cases acts : actionOn call db id with
  | none => exact .inl ⟨rfl, sees.run⟩
  | some action =>
    have moves := perform_refines call.1 id fresh action
    rw [sees.run] at moves
    exact .inr ⟨action, tx, rfl, sees.run, sees.now, moves⟩

/-- The exact rule on moves: `Bad` describes in terms of the stores the moves
that break `P`. -/
theorem view_visited_iff (Base P : Lifecycle → Prop) (breaks : Move → Lifecycle → Prop)
    (Bad : Store → Timestamp → RunAction → Run → Prop)
    (baseInitially : Base admitted)
    (basePreserved : ∀ (move : Move) L, move.Enabled L → Base L → Base (move.apply L))
    (initially : P admitted)
    (exactly : ∀ (move : Move) L, move.Enabled L → Base L → P L →
      (P (move.apply L) ↔ ¬ breaks move L))
    (decides : ∀ store action tx,
      Bad store tx.now action tx.run ↔ breaks (moveOf store tx action) (view tx.run))
    (calls : List Call) :
    (∀ db ∈ coordination.visited calls, ∀ id run, db.runs.row id = some run → P (view run)) ↔
      ∀ step ∈ coordination.steps calls, ¬ Performs Bad step.1 step.2 := by
  refine everywhere_visited_iff (fun _ => True) (fun tx => Fresh tx ∧ Base (view tx.run))
    (fun run => P (view run)) ?_ ?_ ?_ ?_ ?_ calls (fun _ _ _ _ _ _ => trivial)
  · intro tx next h same token event notice
    exact ⟨fresh_stable tx next h.1 same token event notice, same ▸ h.2⟩
  · intro store args db
    refine ⟨fresh_initially store args db, ?_⟩
    rw [view_insertWith]
    exact baseInitially
  · intro store id action tx _ h
    obtain ⟨enabled, after⟩ := perform_refines store id h.1 action
    refine ⟨fresh_result store id action h.1, ?_⟩
    rw [after]
    exact basePreserved _ _ enabled h.2
  · intro store args db
    rw [view_insertWith]
    exact initially
  · intro store id action tx _ base holds
    obtain ⟨enabled, after⟩ := perform_refines store id base.1 action
    rw [after, decides]
    exact exactly _ _ enabled base.2 holds

end ActionMoves
