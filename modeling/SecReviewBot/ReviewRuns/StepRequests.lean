import SecReviewBot.ReviewRuns.LifecycleView

/-!
# Requests about one step

What a publisher's requests do to the rows of its run: which answer they give in
the states a publisher meets, and that a request about one step leaves the other
steps alone.
-/

namespace StepRequests

open KeyedTables ReviewRunsSchema ReviewRunsTransactions PublicationStore
open LifecycleView (updateOwnedStep_cases stepReady)

variable {token : Token} {key : StepKey} {tx next : Tx}

@[simp] theorem queueRunNotice_steps (id : Nat) (kind : NoticeKind) (axis : Axis)
    (reason : Option String) (tx : Tx) :
    (queueRunNotice id kind axis reason tx).run.steps = tx.run.steps := by
  simp only [queueRunNotice]
  split <;> rfl

@[simp] theorem queueRunNotice_publication (id : Nat) (kind : NoticeKind) (axis : Axis)
    (reason : Option String) (tx : Tx) :
    (queueRunNotice id kind axis reason tx).run.publication = tx.run.publication := by
  simp only [queueRunNotice]
  split <;> rfl

theorem derive_steps (tx : Tx) : (derivePublicationStatus tx).run.steps = tx.run.steps := by
  simp only [derivePublicationStatus]
  repeat' split
  all_goals simp [appendEvent]

theorem derive_claimToken (tx : Tx) :
    (derivePublicationStatus tx).run.publication.claimToken = tx.run.publication.claimToken := by
  simp only [derivePublicationStatus]
  repeat' split
  all_goals simp [appendEvent]

theorem derivedStatus_inFlight {status : PublicationStatus} (h : status.inFlight = true)
    (steps : Table StepKey PublicationStep) : (derivedStatus status steps).inFlight = true := by
  simp only [derivedStatus]
  repeat' split
  all_goals first | rfl | exact h

theorem derive_status (tx : Tx) : (derivePublicationStatus tx).run.publication.status =
    if tx.run.publication.status.inFlight then
      derivedStatus tx.run.publication.status tx.run.steps
    else tx.run.publication.status := by
  by_cases inFlight : tx.run.publication.status.inFlight = true
  · by_cases same : tx.run.publication.status =
      derivedStatus tx.run.publication.status tx.run.steps
    · simp [derivePublicationStatus, inFlight, ← same]
    · simp only [derivePublicationStatus, inFlight, same, ne_eq, not_false_eq_true, decide_true,
        Bool.and_self, if_true]
      split <;> simp [appendEvent]
  · simp [derivePublicationStatus, inFlight]

theorem derive_owns (token : Token) (tx : Tx) :
    ownsPublication token (derivePublicationStatus tx).run.publication =
      ownsPublication token tx.run.publication := by
  simp only [ownsPublication, derive_claimToken, derive_status]
  by_cases inFlight : tx.run.publication.status.inFlight = true
  · simp [inFlight, derivedStatus_inFlight inFlight]
  · simp [inFlight]

/-- A publication with a parked step reports it. -/
theorem derive_parked {s : PublicationStep} (owns : ownsPublication token tx.run.publication = true)
    (row : tx.run.steps.row key = some s) (parked : s.status = .disconnected) :
    (derivePublicationStatus tx).run.publication.status = .disconnected := by
  have inFlight : tx.run.publication.status.inFlight = true := by
    simp only [ownsPublication, Bool.and_eq_true] at owns
    exact owns.1
  have has : hasStep .disconnected tx.run.steps = true :=
    (Table.any_iff _ _).mpr ⟨key, s, row, by simp [parked]⟩
  simp [derive_status, inFlight, derivedStatus, has]

theorem require_granted {s : PublicationStep}
    (owns : ownsPublication token tx.run.publication = true)
    (row : tx.run.steps.row key = some s) (claimable : stepClaimable token s = true) :
    requirePublicationStepClaim token key tx = .ok (.granted,
      updateSteps (fun steps => steps.put key (startStep token tx.now s)) tx) := by
  simp [requirePublicationStepClaim, claimPublicationStep, updateOwnedStep, owns, row, claimable]

theorem awaits_not_claimable {s : PublicationStep} (awaits : awaitsReconciliation s = true) :
    stepClaimable token s = false := by
  rw [awaitsReconciliation, Bool.and_eq_true] at awaits
  have exhausted : maxPublicationStepAttempts ≤ s.attemptCount := of_decide_eq_true awaits.1
  have spent : ¬ s.attemptCount + 1 ≤ maxPublicationStepAttempts := by omega
  simp [stepClaimable, spent]

theorem require_exhausted {s : PublicationStep}
    (owns : ownsPublication token tx.run.publication = true)
    (row : tx.run.steps.row key = some s) (awaits : awaitsReconciliation s = true) :
    requirePublicationStepClaim token key tx = .ok (.refused (refusal key true),
      derivePublicationStatus
        (updateSteps (fun steps => steps.put key (doubtStep tx.now s)) tx)) := by
  simp [requirePublicationStepClaim, claimPublicationStep, reconcileRefusedClaim, updateOwnedStep,
    owns, row, awaits, awaits_not_claimable awaits]

theorem require_unowned (lost : ownsPublication token tx.run.publication = false) :
    requirePublicationStepClaim token key tx =
      .ok (.refused (refusal key false), derivePublicationStatus tx) := by
  simp [requirePublicationStepClaim, claimPublicationStep, reconcileRefusedClaim, updateOwnedStep,
    lost]

theorem complete_running {s : PublicationStep} (remote : RemoteObject)
    (owns : ownsPublication token tx.run.publication = true)
    (row : tx.run.steps.row key = some s) (running : s.status = .running) :
    completePublicationStep token key remote tx = .ok (true,
      updateSteps (fun steps => steps.put key (succeedStep remote tx.now s)) tx) := by
  simp [completePublicationStep, updateOwnedStep, owns, row, running]

theorem failStep_unowned (runId : RunId) (error : Failure) (retry : Option Bool)
    (lost : ownsPublication token tx.run.publication = false) :
    failPublicationStep runId token key error retry tx = .ok (false, tx) := by
  simp [failPublicationStep, updateOwnedStep, lost]

theorem failPublicationOfStep_closes (runId : RunId) (error : Failure)
    (owns : ownsPublication token tx.run.publication = true) :
    ∃ failed, failPublicationOfStep runId token error tx = .ok (true, failed) ∧
      ∀ other, ownsPublication other failed.run.publication = false := by
  refine ⟨_, by rw [failPublicationOfStep, if_pos owns], fun other => ?_⟩
  simp [appendEventWithNotice, appendEvent, ownsPublication, PublicationStatus.inFlight]

/-- A terminal failure of a running step takes the publication with it. -/
theorem failStep_terminal (runId : RunId) (error : Failure) {s : PublicationStep}
    (owns : ownsPublication token tx.run.publication = true)
    (row : tx.run.steps.row key = some s) (running : s.status = .running) :
    ∃ failed, failPublicationStep runId token key error (some false) tx = .ok (true, failed) ∧
      ∀ other, ownsPublication other failed.run.publication = false := by
  have still := derive_owns token
    (updateSteps (fun steps => steps.put key (failStep error (some false) tx.now s)) tx)
  obtain ⟨failed, ended, closed⟩ := failPublicationOfStep_closes runId error (still.trans owns)
  refine ⟨failed, ?_, closed⟩
  simpa [failPublicationStep, updateOwnedStep, owns, row, running] using ended

theorem failStep_uncertain (runId : RunId) (error : Failure) {s : PublicationStep}
    (owns : ownsPublication token tx.run.publication = true)
    (row : tx.run.steps.row key = some s) (uncertain : s.status = .uncertain) :
    failPublicationStep runId token key error (some true) tx = .ok (true,
      derivePublicationStatus (updateSteps (fun steps =>
        steps.put key (failStep error (some true) tx.now s)) tx)) := by
  simp [failPublicationStep, updateOwnedStep, owns, row, uncertain]

/-- The steps other than this one are as they were. -/
def Beside (key : StepKey) (tx next : Tx) : Prop :=
  ∀ other, other ≠ key → next.run.steps.row other = tx.run.steps.row other

theorem beside_of_steps (same : next.run.steps = tx.run.steps) : Beside key tx next := by
  intro other _
  rw [same]

theorem Beside.trans {last : Tx} (h : Beside key tx next) (h' : Beside key next last) :
    Beside key tx last :=
  fun other ne => (h' other ne).trans (h other ne)

theorem derive_beside (h : Beside key tx next) : Beside key tx (derivePublicationStatus next) :=
  h.trans (beside_of_steps (derive_steps next))

theorem updateOwnedStep_beside {p : PublicationStep → Bool} {f : PublicationStep → PublicationStep}
    (h : updateOwnedStep token key p f tx = some next) : Beside key tx next := by
  rcases updateOwnedStep_cases token key p f tx with ⟨-, none⟩ | ⟨s, -, -, -, -, updated⟩
  · rw [none] at h
    cases h
  · rw [updated] at h
    obtain rfl := Option.some.inj h
    intro other ne
    simp [ne]

theorem require_beside {answer : StepClaim}
    (h : requirePublicationStepClaim token key tx = .ok (answer, next)) : Beside key tx next := by
  simp only [requirePublicationStepClaim, claimPublicationStep] at h
  split at h
  · next claimed updated =>
    cases h
    exact updateOwnedStep_beside updated
  · cases h
    simp only [reconcileRefusedClaim]
    split
    · exact derive_beside (beside_of_steps rfl)
    · next doubted updated => exact derive_beside (updateOwnedStep_beside updated)

theorem settle_beside {found : Option RemoteObject} {answer : Bool}
    (h : settleExhaustedPublicationStep token key found tx = .ok (answer, next)) :
    Beside key tx next := by
  simp only [settleExhaustedPublicationStep] at h
  split at h
  · cases h
    exact beside_of_steps rfl
  · next settled updated =>
    cases h
    exact derive_beside (updateOwnedStep_beside updated)

theorem complete_beside {remote : RemoteObject} {answer : Bool}
    (h : completePublicationStep token key remote tx = .ok (answer, next)) :
    Beside key tx next := by
  simp only [completePublicationStep] at h
  split at h
  · cases h
    exact beside_of_steps rfl
  · next completed updated =>
    cases h
    exact updateOwnedStep_beside updated

theorem failStep_beside {runId : RunId} {error : Failure} {retry : Option Bool} {answer : Bool}
    (h : failPublicationStep runId token key error retry tx = .ok (answer, next)) :
    Beside key tx next := by
  simp only [failPublicationStep] at h
  split at h
  · cases h
    exact beside_of_steps rfl
  · next failed updated =>
    have derived := derive_beside (updateOwnedStep_beside updated)
    split at h
    · simp only [failPublicationOfStep] at h
      split at h
      · cases h
        exact derived.trans (beside_of_steps (by simp [appendEventWithNotice, appendEvent]))
      · cases h
    · cases h
      exact derived

/-- Steps that exist are not initialized again. -/
theorem initialize_row {runId : RunId} {stepKeys : List StepKey} {answer : Unit}
    {s : PublicationStep}
    (h : initializePublicationSteps runId token stepKeys tx = .ok (answer, next))
    (row : tx.run.steps.row key = some s) : next.run.steps.row key = some s := by
  have known : tx.run.steps.keys ≠ [] := by
    intro empty
    rw [Table.row_of_no_keys empty key] at row
    cases row
  simp only [initializePublicationSteps, known, if_false] at h
  repeat' split at h
  all_goals cases h
  exact row

theorem renew_steps {answer : Bool} (h : renewClaim token tx = .ok (answer, next)) :
    next.run.steps = tx.run.steps := by
  simp only [renewClaim] at h
  split at h <;> cases h <;> rfl

theorem complete_steps {answer : Bool} (h : complete token tx = .ok (answer, next)) :
    next.run.steps = tx.run.steps := by
  simp only [complete] at h
  split at h <;> cases h <;> rfl

theorem fail_steps {error : Failure} {retry answer : Bool}
    (h : fail token error retry tx = .ok (answer, next)) : next.run.steps = tx.run.steps := by
  cases retry <;> simp only [fail, if_true, Bool.false_eq_true, if_false] at h <;>
    split at h <;> cases h <;> simp [appendEvent]

theorem fail_retried (error : Failure) (owns : ownsPublication token tx.run.publication = true) :
    ∃ failed, fail token error true tx = .ok (true, failed) ∧
      failed.run.publication.status = .pending := by
  refine ⟨_, by rw [fail, if_pos owns]; rfl, ?_⟩
  simp [appendEvent]

theorem claim_steps {store : Store} {answer : Option Token}
    (h : PublicationClaimStore.claim store tx = .ok (answer, next)) :
    next.run.steps = tx.run.steps := by
  simp only [PublicationClaimStore.claim] at h
  split at h <;> cases h <;> simp [appendEvent, randomUUID]

end StepRequests
