import SecReviewBot.ReviewRuns.PublicationAxis

/-!
# Claim tokens

A write under a claim names the token it was given, and one that is no longer
the token of its row writes nothing. The exception is the request for a
publication step: after a refusal its second transaction re-derives the axis
without asking who is calling, and where a takeover hid a step in doubt this
moves the row of the publisher who took over.
-/

namespace Fencing

open KeyedTables ReviewRunsSchema ReviewRunsTransactions Coordination TransitionSystems
open RowEffects Lifecycles LifecycleView ActionMoves CrossAxis PublicationAxis

/-- The token an action carries and the one its row holds, for the actions that
carry one. -/
def tokens (run : Run) : RunAction → Option (Token × Option Token)
  | .renewPreparation token | .checkpointInput token _ | .failPreparation token _ _
  | .reserveCandidate token _ | .settleCandidate token _ _ | .savePreparedSubmission token _ _
  | .markQueued token _ => some (token, run.preparation.claimToken)
  | .recordUnknownRecoveryOutcome token | .completeSubmissionRecovery token
  | .failSubmissionRecovery token _ => some (token, run.execution.claimToken)
  | .renewPublication token | .completePublication token | .failPublication token _ _
  | .initializePublicationSteps token _ | .requirePublicationStepClaim token _
  | .reconcileRefusedClaim token _ | .settleExhaustedPublicationStep token _ _
  | .completePublicationStep token _ _ | .failPublicationStep token _ _ _ =>
    some (token, run.publication.claimToken)
  | .renewNotice noticeId token | .completeNotice noticeId token _ _ =>
    some (token, (run.notices.row noticeId).bind (·.claimToken))
  | _ => none

/-- The action carries a token that is not the one its row holds. -/
def Stale (run : Run) (action : RunAction) : Prop :=
  ∃ token current, tokens run action = some (token, current) ∧ current ≠ some token

/-- The request for a step, or only its second transaction. -/
def isStepRequest : RunAction → Bool
  | .requirePublicationStepClaim _ _ | .reconcileRefusedClaim _ _ => true
  | _ => false

section Guards

variable {token : Token}

theorem holdsClaim_stale {p : Preparation} (stale : p.claimToken ≠ some token) :
    PreparationStore.holdsClaim token p = false := by
  simp [PreparationStore.holdsClaim, stale]

theorem holdsRecovery_stale {e : Execution} (stale : e.claimToken ≠ some token) :
    SubmissionTransitionStore.holdsRecovery token e = false := by
  simp [SubmissionTransitionStore.holdsRecovery, stale]

theorem ownsPublication_stale {p : Publication} (stale : p.claimToken ≠ some token) :
    PublicationStore.ownsPublication token p = false := by
  simp [PublicationStore.ownsPublication, stale]

theorem updateOwnedStep_stale {tx : Tx} (stale : tx.run.publication.claimToken ≠ some token)
    (key : StepKey) (p : PublicationStep → Bool) (f : PublicationStep → PublicationStep) :
    PublicationStore.updateOwnedStep token key p f tx = none := by
  simp [PublicationStore.updateOwnedStep, ownsPublication_stale stale]

theorem requirePreparationClaim_stale (store : Store) (id : RunId) {tx : Tx}
    (stale : tx.run.preparation.claimToken ≠ some token) :
    ∃ e, InputBundleCandidateStore.requirePreparationClaim store id token tx = .error e := by
  simp [InputBundleCandidateStore.requirePreparationClaim, holdsClaim_stale stale]

theorem updateOwned_stale {tx : Tx} {noticeId : NoticeId}
    (stale : (tx.run.notices.row noticeId).bind (·.claimToken) ≠ some token)
    (f : RunNotice → RunNotice) :
    RunNoticeStore.updateOwned noticeId token f tx = .ok (false, tx) := by
  cases row : tx.run.notices.row noticeId with
  | none => simp [RunNoticeStore.updateOwned, row]
  | some n =>
    have other : n.claimToken ≠ some token := by simpa [row] using stale
    simp [RunNoticeStore.updateOwned, row, RunNoticeStore.holdsDelivery, other]

end Guards

theorem stale_result (store : Store) (id : RunId) {action : RunAction} {tx : Tx}
    (stale : Stale tx.run action) (plain : isStepRequest action = false) :
    action.result store id tx = tx := by
  obtain ⟨token, current, carried, other⟩ := stale
  cases action with
  -- preparation
  | renewPreparation t =>
    cases carried
    refine result_of_silent rfl ?_
    simp [PreparationStore.renewClaim, holdsClaim_stale other, Silent]
  | checkpointInput t input =>
    cases carried
    refine result_of_silent rfl ?_
    simp [PreparationStore.checkpointInput, holdsClaim_stale other, Silent]
  | failPreparation t error options =>
    cases carried
    refine result_of_silent rfl ?_
    simp [PreparationStore.fail, holdsClaim_stale other, Silent]
  | reserveCandidate t intent =>
    cases carried
    refine result_of_silent rfl ?_
    obtain ⟨e, lost⟩ := requirePreparationClaim_stale store id other
    unfold InputBundleCandidateStore.reserve
    rw [lost]
    split
    · trivial
    · trivial
    · next granted => cases granted
  | settleCandidate t digest settlement =>
    cases carried
    refine result_of_silent rfl ?_
    obtain ⟨e, lost⟩ := requirePreparationClaim_stale store id other
    simp only [InputBundleCandidateStore.settle, lost]
    trivial
  | savePreparedSubmission t context input =>
    cases carried
    refine result_of_silent rfl ?_
    obtain ⟨e, lost⟩ := requirePreparationClaim_stale store id other
    simp only [SubmissionTransitionStore.savePreparedSubmission, lost]
    trivial
  | markQueued t context =>
    cases carried
    refine result_of_silent rfl ?_
    simp [SubmissionTransitionStore.markQueued, holdsClaim_stale other, Silent]
  -- submission recovery
  | recordUnknownRecoveryOutcome t =>
    cases carried
    refine result_of_silent rfl ?_
    simp [ExecutionStore.recordUnknownRecoveryOutcome, holdsRecovery_stale other, Silent]
  | completeSubmissionRecovery t =>
    cases carried
    refine result_of_silent rfl ?_
    simp [SubmissionTransitionStore.completeSubmissionRecovery, holdsRecovery_stale other, Silent]
  | failSubmissionRecovery t error =>
    cases carried
    refine result_of_silent rfl ?_
    simp [SubmissionTransitionStore.failSubmissionRecovery, holdsRecovery_stale other, Silent]
  -- publication
  | renewPublication t =>
    cases carried
    refine result_of_silent rfl ?_
    simp [PublicationStore.renewClaim, ownsPublication_stale other, Silent]
  | completePublication t =>
    cases carried
    refine result_of_silent rfl ?_
    simp [PublicationStore.complete, ownsPublication_stale other, Silent]
  | failPublication t error retry =>
    cases carried
    refine result_of_silent rfl ?_
    simp [PublicationStore.fail, ownsPublication_stale other, Silent]
  | initializePublicationSteps t stepKeys =>
    cases carried
    refine result_of_silent rfl ?_
    simp only [PublicationStore.initializePublicationSteps, ownsPublication_stale other]
    split <;> trivial
  | settleExhaustedPublicationStep t key found =>
    cases carried
    refine result_of_silent rfl ?_
    simp [PublicationStore.settleExhaustedPublicationStep, updateOwnedStep_stale other, Silent]
  | completePublicationStep t key remote =>
    cases carried
    refine result_of_silent rfl ?_
    simp [PublicationStore.completePublicationStep, updateOwnedStep_stale other, Silent]
  | failPublicationStep t key error retry =>
    cases carried
    refine result_of_silent rfl ?_
    simp [PublicationStore.failPublicationStep, updateOwnedStep_stale other, Silent]
  | requirePublicationStepClaim t key => cases plain
  | reconcileRefusedClaim t key => cases plain
  -- notices
  | renewNotice noticeId t =>
    cases carried
    refine result_of_silent rfl ?_
    simp [RunNoticeStore.renewClaim, updateOwned_stale other, Silent]
  | completeNotice noticeId t delivered commentUrl =>
    cases carried
    refine result_of_silent rfl ?_
    simp only [RunNoticeStore.complete, updateOwned_stale other]
    split
    · trivial
    · split
      · trivial
      · rfl
  | _ => cases carried

/-- A stale request re-derives the axis. -/
theorem stale_request_result (store : Store) (id : RunId) {action : RunAction} {tx : Tx}
    (stale : Stale tx.run action) (request : isStepRequest action = true) :
    action.result store id tx = PublicationStore.derivePublicationStatus tx := by
  obtain ⟨token, current, carried, other⟩ := stale
  cases action with
  | requirePublicationStepClaim t key =>
    cases carried
    simp [RunAction.result, RunAction.perform, PublicationStore.requirePublicationStepClaim,
      PublicationStore.claimPublicationStep, PublicationStore.reconcileRefusedClaim,
      updateOwnedStep_stale other, written, Except.map]
  | reconcileRefusedClaim t key =>
    cases carried
    simp [RunAction.result, RunAction.perform, PublicationStore.reconcileRefusedClaim,
      updateOwnedStep_stale other]
  | _ => cases request

/-- A step in doubt behind a publication that says it is publishing. -/
def HidesDoubt (run : Run) : Prop :=
  run.publication.status = .publishing ∧ SomeStep run .uncertain

theorem derive_unchanged_iff {tx : Tx} (explained : Explained (view tx.run)) :
    (PublicationStore.derivePublicationStatus tx).run = tx.run ↔ ¬ HidesDoubt tx.run := by
  have status : (view tx.run).publication = tx.run.publication.status := rfl
  constructor
  · rintro same ⟨publishing, doubt⟩
    rw [← hasStep_view_iff, hasStep_view] at doubt
    have unparked := explained.unparked (.inl publishing)
    rw [hasStep_view] at unparked
    have moved : (PublicationStore.derivePublicationStatus tx).run.publication.status
        = .uncertain := by
      simp [PublicationStore.derivePublicationStatus, PublicationStore.derivedStatus, publishing,
        doubt, unparked, PublicationStatus.inFlight, appendEvent]
    rw [same, publishing] at moved
    cases moved
  · intro seen
    have stays : tx.run.publication.status.inFlight = true → tx.run.publication.status =
        PublicationStore.derivedStatus tx.run.publication.status tx.run.steps := by
      intro inFlight
      rw [← strongest_view inFlight, strongest]
      rcases inFlight_cases inFlight with h | h | h
      · have settled : hasStep .uncertain (view tx.run).steps = false := by
          rw [← Bool.not_eq_true, hasStep_view_iff]
          exact fun doubt => seen ⟨h, doubt⟩
        simp [explained.unparked (.inl (status.trans h)), settled, h]
      · simp [explained.unparked (.inr (status.trans h)), explained.uncertain (status.trans h), h]
      · simp [explained.disconnected (status.trans h), h]
    by_cases inFlight : tx.run.publication.status.inFlight = true
    · simp [PublicationStore.derivePublicationStatus, ← stays inFlight]
    · simp [PublicationStore.derivePublicationStatus, inFlight]

theorem apply_runs_iff {store : Store} {db : Database} {id : RunId} {run : Run}
    (found : find db store id = some run) (action : RunAction) :
    (apply store id action db).runs = db.runs ↔
      (action.result store id (begin db run)).run = run := by
  have row := (find_some found).1
  have after : (apply store id action db).runs =
      db.runs.put id (action.result store id (begin db run)).run := by
    simp [apply, found, commit]
  constructor
  · intro same
    have here : db.runs.row id = some (action.result store id (begin db run)).run := by
      rw [← same, after]
      simp
    exact Option.some.inj (here.symm.trans row)
  · intro same
    have unchanged := congrArg Database.runs (commit_begin_rows db row)
    rw [after, same]
    exact unchanged

/-- The operation carries a token that is not the one its row holds. -/
def StaleCall (db : Database) (call : Call) : Prop :=
  ∃ id run action, db.runs.row id = some run ∧ actsOn call.1 db id call.2 = some action ∧
    Stale run action

/-- A stale request for a step finds a hidden doubt. -/
def DisturbsOwner (_ : Store) (_ : Timestamp) (action : RunAction) (run : Run) : Prop :=
  isStepRequest action = true ∧ HidesDoubt run

/-- An operation that carries a token performs one action on one run. -/
theorem stale_execute {db : Database} {call : Call} {id : RunId} {run : Run} {action : RunAction}
    (acts : actsOn call.1 db id call.2 = some action) (stale : Stale run action) :
    call.2.execute call.1 db = apply call.1 id action db ∧
      ∀ other performed, actsOn call.1 db other call.2 = some performed →
        other = id ∧ performed = action := by
  obtain ⟨store, operation⟩ := call
  obtain ⟨token, current, carried, -⟩ := stale
  cases operation with
  | onRun runId act =>
    simp only [actsOn, Option.ite_none_right_eq_some, Option.some.injEq] at acts ⊢
    obtain ⟨rfl, rfl⟩ := acts
    refine ⟨onRun_execute store id act db, ?_⟩
    rintro other performed ⟨rfl, rfl⟩
    exact ⟨rfl, rfl⟩
  | renewNotice noticeId t =>
    simp only [actsOn, Option.ite_none_right_eq_some, Option.some.injEq] at acts ⊢
    obtain ⟨owner, rfl⟩ := acts
    constructor
    · simp only [Operation.execute]
      rw [onOwner_apply _ _ _ _ (.renewNotice noticeId t) (fun _ _ => rfl), owner]
    · rintro other performed ⟨other_owner, rfl⟩
      exact ⟨Option.some.inj (other_owner.symm.trans owner), rfl⟩
  | completeNotice noticeId t delivered commentUrl =>
    simp only [actsOn, Option.ite_none_right_eq_some, Option.some.injEq] at acts ⊢
    obtain ⟨owner, rfl⟩ := acts
    constructor
    · simp only [Operation.execute]
      rw [onOwner_apply _ _ _ _ (.completeNotice noticeId t delivered commentUrl)
        (fun _ _ => rfl), owner]
    · rintro other performed ⟨other_owner, rfl⟩
      exact ⟨Option.some.inj (other_owner.symm.trans owner), rfl⟩
  -- the other operations carry no token
  | create args => cases acts
  | admitRun args => cases acts
  | advance ms => cases acts
  | claimNextNotice locked =>
    simp only [actsOn] at acts
    split at acts
    · simp only [Option.ite_none_right_eq_some, Option.some.injEq] at acts
      obtain ⟨-, rfl⟩ := acts
      cases carried
    · cases acts
  | claimNextPreparation locked =>
    simp only [actsOn, Option.ite_none_right_eq_some, Option.some.injEq] at acts
    obtain ⟨-, rfl⟩ := acts
    cases carried
  | expireStale locked =>
    simp only [actsOn, Option.ite_none_right_eq_some, Option.some.injEq] at acts
    obtain ⟨-, rfl⟩ := acts
    cases carried
  | claimNextPublication locked =>
    simp only [actsOn, Option.ite_none_right_eq_some, Option.some.injEq] at acts
    obtain ⟨-, rfl⟩ := acts
    cases carried

theorem staleCall_unchanged_iff {db : Database} (reachable : coordination.Reachable db)
    {call : Call} (stale : StaleCall db call) :
    (coordination.step db call).runs = db.runs ↔ ¬ Performs DisturbsOwner db call := by
  obtain ⟨id, run, action, row, acts, staleAction⟩ := stale
  obtain ⟨executes, only⟩ := stale_execute acts staleAction
  have step : coordination.step db call = apply call.1 id action db := executes
  have performs_iff : Performs DisturbsOwner db call ↔
      (find db call.1 id).isSome ∧ DisturbsOwner call.1 db.clock action run := by
    constructor
    · rintro ⟨other, run', performed, row', performs, disturbs⟩
      simp only [actionOn, Option.ite_none_right_eq_some] at performs
      obtain ⟨rfl, rfl⟩ := only other performed performs.2
      obtain rfl := Option.some.inj (row'.symm.trans row)
      exact ⟨performs.1, disturbs⟩
    · rintro ⟨found, disturbs⟩
      exact ⟨id, run, action, row, by simp [actionOn, found, acts], disturbs⟩
  rw [performs_iff, step]
  cases hfind : find db call.1 id with
  | none => simp [apply, hfind]
  | some found =>
    obtain rfl := Option.some.inj ((find_some hfind).1.symm.trans row)
    rw [apply_runs_iff hfind]
    have explained : Explained (view (begin db found).run) :=
      view_reachable admitted_explained apply_explained reachable row
    simp only [Option.isSome_some, true_and, DisturbsOwner]
    cases request : isStepRequest action with
    | false =>
      rw [stale_result call.1 id staleAction request]
      simp [begin]
    | true =>
      rw [stale_request_result call.1 id staleAction request]
      simp only [true_and]
      exact derive_unchanged_iff explained

/-- Along every run of the system, operations under a stale token leave every
table as it was exactly when none of them is a request for a step of a
publication that hides a doubt. -/
theorem stale_calls_fenced_iff (calls : List Call) :
    (∀ step ∈ coordination.steps calls, StaleCall step.1 step.2 →
      (coordination.step step.1 step.2).runs = step.1.runs) ↔
      ∀ step ∈ coordination.steps calls, StaleCall step.1 step.2 →
        ¬ Performs DisturbsOwner step.1 step.2 := by
  refine forall₃_congr fun step taken stale => ?_
  exact staleCall_unchanged_iff
    (coordination.steps_reachable coordination.reachable_initial taken) stale

/-- The publisher whose lease lapsed asks for its step once more, and the
publication its successor holds becomes `uncertain`. -/
theorem stale_request_moves_owner :
    ¬ ∀ db, coordination.Reachable db → ∀ call, StaleCall db call →
      (coordination.step db call).runs = db.runs := by
  intro fenced
  let calls := byDefault (toUncertain ++ [.advance 600000, .onRun "run-1" .claimPublication])
  let call : Call :=
    (defaultStore, .onRun "run-1" (.requirePublicationStepClaim 1 summaryStep))
  have before : ((coordination.run calls).runs.row "run-1").any (fun run =>
      run.publication.status = .publishing && run.publication.claimToken = some 2) = true := by
    decide
  have after : ((coordination.run (calls ++ [call])).runs.row "run-1").any (fun run =>
      run.publication.status = .uncertain) = true := by
    decide
  simp only [Option.any_eq_true, Bool.and_eq_true, decide_eq_true_eq] at before after
  obtain ⟨run, row, publishing, token⟩ := before
  obtain ⟨next, row', uncertain⟩ := after
  have other : run.publication.claimToken ≠ some 1 := by
    rw [token]
    decide
  have stale : StaleCall (coordination.run calls) call :=
    ⟨"run-1", run, _, row, rfl, 1, _, rfl, other⟩
  have same := fenced _ ⟨calls, rfl⟩ call stale
  have kept : (coordination.run (calls ++ [call])).runs.row "run-1" = some run := by
    rw [← row, ← same]
    rfl
  obtain rfl := Option.some.inj (kept.symm.trans row')
  rw [publishing] at uncertain
  cases uncertain

end Fencing
