import SecReviewBot.ReviewRuns.Coordination

/-!
# Who writes input-bundle candidates

Only three actions reserve, settle or select a candidate. Every other one
leaves the candidates of its run alone, or abandons those without an outcome
because the run stops preparing.
-/

namespace CandidateWrites

open KeyedTables ReviewRunsSchema ReviewRunsTransactions Coordination

/-- The candidates are as before, or those without an outcome are abandoned. -/
def Withdrawn (cs : Table Digest InputBundleCandidate) (now : Timestamp)
    (next : Table Digest InputBundleCandidate) : Prop :=
  next = cs ∨ next = cs.mapRows (abandonCandidate now)

theorem queueRunNotice_candidates (sourceEventId : Nat) (kind : NoticeKind) (axis : Axis)
    (reasonCode : Option String) (tx : Tx) :
    (queueRunNotice sourceEventId kind axis reasonCode tx).run.candidates = tx.run.candidates := by
  unfold queueRunNotice
  split <;> rfl

theorem queueRunNotice_now (sourceEventId : Nat) (kind : NoticeKind) (axis : Axis)
    (reasonCode : Option String) (tx : Tx) :
    (queueRunNotice sourceEventId kind axis reasonCode tx).now = tx.now := by
  unfold queueRunNotice
  split <;> rfl

theorem abandonInFlightPublication_candidates (tx : Tx) :
    (abandonInFlightPublication tx).2.run.candidates
      = tx.run.candidates.mapRows (abandonCandidate tx.now) := by
  unfold abandonInFlightPublication
  dsimp only
  split <;> rfl

theorem appendAbandonEvent_candidates (previous : Option PublicationStatus) (tx : Tx) :
    (appendAbandonEvent previous tx).run.candidates = tx.run.candidates := by
  cases previous <;> rfl

theorem derivePublicationStatus_candidates (tx : Tx) :
    (PublicationStore.derivePublicationStatus tx).run.candidates = tx.run.candidates := by
  simp only [PublicationStore.derivePublicationStatus]
  split
  · split
    · exact queueRunNotice_candidates _ _ _ _ _
    · rfl
  · rfl

theorem updateOwnedStep_candidates {token : Token} {stepKey : StepKey}
    {p : PublicationStep → Bool} {f : PublicationStep → PublicationStep} {tx next : Tx}
    (h : PublicationStore.updateOwnedStep token stepKey p f tx = some next) :
    next.run.candidates = tx.run.candidates := by
  simp only [PublicationStore.updateOwnedStep] at h
  split at h
  · split at h
    · cases h
    · split at h <;> cases h
      rfl
  · cases h

theorem skipPendingExecutions_candidates {tx next : Tx}
    (h : skipPendingExecutions tx = some next) :
    next.run.candidates = tx.run.candidates ∧ next.now = tx.now := by
  simp only [skipPendingExecutions] at h
  split at h <;> cases h
  exact ⟨rfl, rfl⟩

theorem concludeExpiry_withdrawn {id : RunId} {attemptCount : Nat} {tx next : Tx}
    (h : PreparationStore.concludeExpiry id attemptCount tx = .ok next) :
    Withdrawn tx.run.candidates tx.now next.run.candidates := by
  simp only [PreparationStore.concludeExpiry] at h
  split at h
  · split at h
    · split at h
      · cases h
      · next skipped skips =>
        cases h
        right
        simp only [appendAbandonEvent_candidates, appendEvent, queueRunNotice_candidates,
          abandonInFlightPublication_candidates, skipPendingExecutions_candidates skips]
        rfl
    · cases h
      exact .inl rfl
  · cases h

theorem expireSelected_withdrawn {store : Store} {id : RunId} {tx next : Tx}
    (h : written (expireSelected store id tx) = .ok next) :
    Withdrawn tx.run.candidates tx.now next.run.candidates := by
  simp only [expireSelected, PreparationStore.expireCandidate, written] at h
  split at h
  · split at h
    · next concluded =>
      cases h
      exact concludeExpiry_withdrawn concluded
    · cases h
    · split at h <;> cases h
      · exact .inl (queueRunNotice_candidates _ _ _ _ _)
      · exact .inl rfl
  · cases h
    exact .inl rfl

theorem failPreparation_withdrawn {id : RunId} {token : Token} {error : Failure}
    {options : PreparationStore.FailOptions} {tx next : Tx}
    (h : written (PreparationStore.fail id token error options tx) = .ok next) :
    Withdrawn tx.run.candidates tx.now next.run.candidates := by
  simp only [PreparationStore.fail, PreparationStore.concludeUncertain,
    PreparationStore.concludeSkipped, written] at h
  split at h
  · cases h
    exact .inl rfl
  · split at h
    · cases h
      exact .inl rfl
    · split at h
      · split at h <;> cases h
        exact .inl rfl
      · split at h
        · cases h
        · next skipped skips =>
          cases h
          right
          simp only [appendAbandonEvent_candidates, appendEvent, appendEventWithNotice,
            queueRunNotice_candidates, abandonInFlightPublication_candidates,
            skipPendingExecutions_candidates skips]
          rfl

theorem concludeExecutionFailed_candidates (previous : ExecutionStatus) (code : Option String)
    (tx : Tx) :
    (SubmissionTransitionStore.concludeExecutionFailed previous code tx).run.candidates
      = tx.run.candidates.mapRows (abandonCandidate tx.now) := by
  simp only [SubmissionTransitionStore.concludeExecutionFailed, appendAbandonEvent_candidates,
    appendEventWithNotice, queueRunNotice_candidates]
  exact abandonInFlightPublication_candidates tx

theorem failPublicationStep_candidates {id : RunId} {token : Token} {stepKey : StepKey}
    {error : Failure} {retry : Option Bool} {tx next : Tx}
    (h : written (PublicationStore.failPublicationStep id token stepKey error retry tx)
      = .ok next) : next.run.candidates = tx.run.candidates := by
  simp only [PublicationStore.failPublicationStep, PublicationStore.failPublicationOfStep,
    written] at h
  split at h
  · cases h
    rfl
  · next failed owned =>
    have kept : (PublicationStore.derivePublicationStatus failed).run.candidates
        = tx.run.candidates :=
      (derivePublicationStatus_candidates failed).trans (updateOwnedStep_candidates owned)
    split at h
    · split at h <;> cases h
      exact (queueRunNotice_candidates _ _ _ _ _).trans kept
    · cases h
      exact kept

theorem reconcileRefusedClaim_candidates (token : Token) (stepKey : StepKey) (tx : Tx) :
    (PublicationStore.reconcileRefusedClaim token stepKey tx).2.run.candidates
      = tx.run.candidates := by
  simp only [PublicationStore.reconcileRefusedClaim]
  split
  · exact derivePublicationStatus_candidates tx
  · next doubted owned =>
    exact (derivePublicationStatus_candidates doubted).trans (updateOwnedStep_candidates owned)

theorem abandonPublication_candidates (tx : Tx) :
    (OperatorDecisionStore.abandonPublication tx).run.candidates
      = tx.run.candidates.mapRows (abandonCandidate tx.now) := by
  simp only [OperatorDecisionStore.abandonPublication, appendAbandonEvent_candidates,
    abandonInFlightPublication_candidates]

theorem stopExecution_candidates (code reason : String) (tx : Tx) :
    (OperatorDecisionStore.stopExecution code reason tx).run.candidates = tx.run.candidates ∧
      (OperatorDecisionStore.stopExecution code reason tx).now = tx.now := by
  simp only [OperatorDecisionStore.stopExecution]
  split <;> exact ⟨rfl, rfl⟩

theorem failParkedPreparation_candidates (code reason : String) (tx : Tx) :
    (OperatorDecisionStore.failParkedPreparation code reason tx).run.candidates
        = tx.run.candidates ∧
      (OperatorDecisionStore.failParkedPreparation code reason tx).now = tx.now := by
  constructor
  · exact queueRunNotice_candidates _ _ _ _ _
  · simp only [OperatorDecisionStore.failParkedPreparation, appendEventWithNotice, queueRunNotice]
    split <;> rfl

theorem giveUpDisconnectedPreparation_withdrawn {id : RunId} {reason : String} {tx next : Tx}
    (h : written (OperatorDecisionStore.giveUpDisconnectedPreparation id reason tx) = .ok next) :
    Withdrawn tx.run.candidates tx.now next.run.candidates := by
  simp only [OperatorDecisionStore.giveUpDisconnectedPreparation, written] at h
  split at h <;> cases h
  right
  simp only [abandonPublication_candidates, failParkedPreparation_candidates]

theorem giveUpDisconnectedExecution_withdrawn {id : RunId} {reason : String} {tx next : Tx}
    (h : written (OperatorDecisionStore.giveUpDisconnectedExecution id reason tx) = .ok next) :
    Withdrawn tx.run.candidates tx.now next.run.candidates := by
  simp only [OperatorDecisionStore.giveUpDisconnectedExecution, written] at h
  split at h <;> cases h
  right
  simp only [abandonPublication_candidates, appendEventWithNotice, queueRunNotice_candidates,
    queueRunNotice_now]
  rfl

theorem giveUpDisconnectedPublication_candidates {id : RunId} {reason : String} {tx next : Tx}
    (h : written (OperatorDecisionStore.giveUpDisconnectedPublication id reason tx) = .ok next) :
    next.run.candidates = tx.run.candidates := by
  simp only [OperatorDecisionStore.giveUpDisconnectedPublication, written] at h
  split at h <;> cases h
  exact queueRunNotice_candidates _ _ _ _ _

theorem resumeDisconnectedPreparation_candidates {id : RunId} {tx next : Tx}
    (h : written (OperatorDecisionStore.resumeDisconnectedPreparation id tx) = .ok next) :
    next.run.candidates = tx.run.candidates := by
  simp only [OperatorDecisionStore.resumeDisconnectedPreparation, written] at h
  split at h <;> cases h
  rfl

theorem resumeDisconnectedExecution_candidates {id : RunId} {tx next : Tx}
    (h : written (OperatorDecisionStore.resumeDisconnectedExecution id tx) = .ok next) :
    next.run.candidates = tx.run.candidates := by
  simp only [OperatorDecisionStore.resumeDisconnectedExecution,
    ExecutionStore.resumeDisconnectedSubmissionRecoveryOn, written] at h
  split at h
  · next resumed =>
    split at resumed <;> cases resumed
    cases h
    rfl
  · cases h

theorem resumeDisconnectedPublication_candidates {id : RunId} {tx next : Tx}
    (h : written (OperatorDecisionStore.resumeDisconnectedPublication id tx) = .ok next) :
    next.run.candidates = tx.run.candidates := by
  simp only [OperatorDecisionStore.resumeDisconnectedPublication,
    PublicationStore.resumeDisconnectedOn, written] at h
  split at h
  · next resumed =>
    split at resumed <;> cases resumed
    cases h
    rfl
  · cases h

theorem updateOwned_candidates {noticeId : NoticeId} {token : Token} {f : RunNotice → RunNotice}
    {tx next : Tx} (h : written (RunNoticeStore.updateOwned noticeId token f tx) = .ok next) :
    next.run.candidates = tx.run.candidates := by
  simp only [RunNoticeStore.updateOwned, written] at h
  split at h
  · cases h
    rfl
  · split at h <;> cases h <;> rfl

/-- The action neither reserves nor settles nor selects a candidate. -/
def leavesCandidates : RunAction → Bool
  | .reserveCandidate _ _ | .settleCandidate _ _ _ | .savePreparedSubmission _ _ _ => false
  | _ => true

theorem perform_withdrawn {store : Store} {id : RunId} {action : RunAction}
    (other : leavesCandidates action = true) {tx next : Tx}
    (h : action.perform store id tx = .ok next) :
    Withdrawn tx.run.candidates tx.now next.run.candidates := by
  cases action
  case reserveCandidate | settleCandidate | savePreparedSubmission => cases other
  case expirePreparation => exact expireSelected_withdrawn h
  case failPreparation => exact failPreparation_withdrawn h
  case failPublicationStep => exact .inl (failPublicationStep_candidates h)
  case reconcileRefusedClaim =>
    cases h
    exact .inl (reconcileRefusedClaim_candidates _ _ _)
  case requirePublicationStepClaim =>
    simp only [RunAction.perform, PublicationStore.requirePublicationStepClaim, written] at h
    split at h <;> cases h
    · next owned => exact .inl (updateOwnedStep_candidates owned)
    · exact .inl (reconcileRefusedClaim_candidates _ _ _)
  case settleExhaustedPublicationStep =>
    simp only [RunAction.perform, PublicationStore.settleExhaustedPublicationStep, written] at h
    split at h <;> cases h
    · exact .inl rfl
    · next settled owned =>
      exact .inl ((derivePublicationStatus_candidates settled).trans
        (updateOwnedStep_candidates owned))
  case completePublicationStep =>
    simp only [RunAction.perform, PublicationStore.completePublicationStep, written] at h
    split at h <;> cases h
    · exact .inl rfl
    · next owned => exact .inl (updateOwnedStep_candidates owned)
  case failExecution =>
    simp only [RunAction.perform, ExecutionStore.failExecution, written] at h
    split at h
    · cases h
    · split at h <;> cases h
      · exact .inr (concludeExecutionFailed_candidates _ _ _)
      · exact .inl rfl
  case failSubmissionRecovery =>
    simp only [RunAction.perform, SubmissionTransitionStore.failSubmissionRecovery, written] at h
    split at h <;> cases h
    · exact .inr (concludeExecutionFailed_candidates _ _ _)
    · exact .inl rfl
  case failPublication token error retry =>
    simp only [RunAction.perform, PublicationStore.fail, written] at h
    split at h
    · cases retry <;> cases h
      · exact .inl (queueRunNotice_candidates _ _ _ _ _)
      · exact .inl rfl
    · cases h
      exact .inl rfl
  case disconnectExhaustedSubmissionRecovery =>
    simp only [RunAction.perform, ExecutionStore.disconnectExhaustedSubmissionRecovery,
      written] at h
    split at h <;> cases h
    · exact .inl (queueRunNotice_candidates _ _ _ _ _)
    · exact .inl rfl
  case abandonBlockedPreparation =>
    simp only [RunAction.perform, OperatorDecisionStore.abandonBlockedPreparation, written] at h
    split at h
    · cases h
    · split at h <;> cases h
      right
      simp only [abandonPublication_candidates, stopExecution_candidates,
        failParkedPreparation_candidates]
  case resumeDisconnectedPreparation => exact .inl (resumeDisconnectedPreparation_candidates h)
  case resumeDisconnectedExecution => exact .inl (resumeDisconnectedExecution_candidates h)
  case resumeDisconnectedPublication => exact .inl (resumeDisconnectedPublication_candidates h)
  case resumeDisconnectedRun =>
    simp only [RunAction.perform, OperatorDecisionStore.resumeDisconnectedRun] at h
    split at h
    · split at h
      · exact .inl (resumeDisconnectedPreparation_candidates h)
      · cases h
    · split at h
      · exact .inl (resumeDisconnectedExecution_candidates h)
      · split at h
        · exact .inl (resumeDisconnectedPublication_candidates h)
        · cases h
  case giveUpDisconnectedPreparation => exact giveUpDisconnectedPreparation_withdrawn h
  case giveUpDisconnectedExecution => exact giveUpDisconnectedExecution_withdrawn h
  case giveUpDisconnectedPublication => exact .inl (giveUpDisconnectedPublication_candidates h)
  case giveUpDisconnectedRun =>
    simp only [RunAction.perform, OperatorDecisionStore.giveUpDisconnectedRun] at h
    split at h
    · cases h
    · split at h
      · exact giveUpDisconnectedPreparation_withdrawn h
      · split at h
        · exact giveUpDisconnectedExecution_withdrawn h
        · split at h
          · exact .inl (giveUpDisconnectedPublication_candidates h)
          · cases h
  case resumeSubmissionRecovery =>
    simp only [RunAction.perform, ExecutionStore.resumeDisconnectedSubmissionRecovery,
      ExecutionStore.resumeDisconnectedSubmissionRecoveryOn, written] at h
    split at h
    · cases h
      exact .inl rfl
    · next resumed =>
      split at resumed <;> cases resumed
      cases h
      exact .inl rfl
  case recordArtifactStorage storage =>
    simp only [RunAction.perform, ExecutionStore.recordArtifactStorage, written] at h
    split at h
    · cases h
      exact .inl rfl
    · split at h <;> cases h
      exact .inl rfl
  case recordExecutionSuccess =>
    simp only [RunAction.perform, ExecutionStore.recordExecutionSuccess, written] at h
    split at h
    · cases h
    · split at h <;> cases h <;> exact .inl rfl
  case initializePublicationSteps =>
    simp only [RunAction.perform, PublicationStore.initializePublicationSteps, written] at h
    split at h
    · cases h
    · split at h
      · cases h
      · split at h
        · cases h
          exact .inl rfl
        · split at h <;> cases h
          exact .inl rfl
  case claimNotice =>
    simp only [RunAction.perform, RunNoticeStore.claimSelected, written] at h
    split at h
    · cases h
      exact .inl rfl
    · split at h <;> cases h <;> exact .inl rfl
  case renewNotice => exact .inl (updateOwned_candidates h)
  case completeNotice =>
    simp only [RunAction.perform, RunNoticeStore.complete] at h
    split at h
    · cases h
    · split at h
      · cases h
      · exact .inl (updateOwned_candidates h)
  -- the rest is one conditional write to another table
  all_goals
    simp only [RunAction.perform, PreparationStore.claimSelected, PreparationStore.renewClaim,
      PreparationStore.checkpointInput, SubmissionTransitionStore.markQueued,
      SubmissionTransitionStore.completeSubmissionRecovery, ExecutionStore.touchObservation,
      ExecutionStore.markRunning, ExecutionStore.claimSubmissionRecovery,
      ExecutionStore.recordUnknownRecoveryOutcome, PublicationClaimStore.claim,
      PublicationStore.renewClaim, PublicationStore.complete, written] at h
    split at h <;> cases h <;> exact .inl rfl
end CandidateWrites
