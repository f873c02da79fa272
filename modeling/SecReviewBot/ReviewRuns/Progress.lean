import SecReviewBot.ReviewRuns.AuditLog

/-!
# No run is left without a next step

Whatever state an open run is in, once every lease and every delay has passed
some poll, claim or operator decision applies to it. The one exception is a
publication that waits in the queue with a parked step: a claim does not take
it, and an operator is not offered it because its axis is not `disconnected`.
A publisher produces this state when it returns a disconnected publication to
the queue.
-/

namespace Progress

open KeyedTables ReviewRunsSchema ReviewRunsTransactions Coordination TransitionSystems
open TransactionWrites RowEffects Lifecycles LifecycleView ActionMoves CrossAxis PublicationAxis
open AuditLog

/-- A queued publication with a parked step. -/
def Parked (L : Lifecycle) : Prop :=
  L.publication = .pending ∧ hasStep .disconnected L.steps = true

theorem steps_kept_or_inFlight {move : Move} {L : Lifecycle} (enabled : move.Enabled L) :
    (move.apply L).steps = L.steps ∨ L.publication.inFlight = true := by
  cases move with
  | initializeSteps keys => exact .inr enabled.1
  | grantStep key => exact .inr enabled.1
  | completeStep key => exact .inr enabled.1
  | reviseStep key revision => exact .inr enabled.1
  | endAtStep key code => exact .inr enabled.1
  | resumePublication => exact .inr (inFlight_of_disconnected enabled)
  | failPublication retry code => exact .inr enabled
  | endParkedPreparation code stop =>
    left
    cases stop with
    | false => simp [Move.apply]
    | true =>
      simp only [Move.apply, if_true, Lifecycle.abandon_steps, Move.stopExecution]
      split <;> rfl
  | endUnsubmitted code => exact .inl (by simp [Move.apply])
  | failExecution code => exact .inl (by simp [Move.apply])
  | giveUpExecution => exact .inl (by simp [Move.apply])
  | rederive => exact .inl (by simp [Move.apply])
  | _ => exact .inl rfl

/-- Steps exist only once there is a result to publish. -/
def StepsAfterSuccess (L : Lifecycle) : Prop :=
  ∀ key s, L.steps.row key = some s → L.execution = .succeeded

theorem execution_succeeded_kept {move : Move} {L : Lifecycle} (enabled : move.Enabled L)
    (consistent : AxesConsistent L) (succeeded : L.execution = .succeeded) :
    (move.apply L).execution = .succeeded := by
  rw [Move.apply_execution]
  cases move with
  | endUnsubmitted code => simp [enabled.2] at succeeded
  | endUncertain code => simp [enabled.2] at succeeded
  | endParkedPreparation code stop => exact absurd enabled consistent.unparked
  | queueExecution => simp [enabled.2.1] at succeeded
  | confirmSubmission => simp [enabled.1] at succeeded
  | failExecution code => rcases enabled with h | h | h <;> simp [h] at succeeded
  | succeedExecution => rfl
  -- the other moves of this axis start in the one status they name
  | startExecution | parkExecution | resumeExecution | giveUpExecution =>
    cases enabled.symm.trans succeeded
  | _ => exact succeeded

theorem apply_stepsAfterSuccess (move : Move) (L : Lifecycle) (enabled : move.Enabled L)
    (consistent : AxesConsistent L) (h : StepsAfterSuccess L) :
    StepsAfterSuccess (move.apply L) := by
  intro key s row
  apply execution_succeeded_kept enabled consistent
  rcases steps_kept_or_inFlight enabled with kept | inFlight
  · exact h key s (kept ▸ row)
  · have hb := inFlight_cases inFlight
    exact consistent.published (by tauto)

theorem admitted_stepsAfterSuccess : StepsAfterSuccess admitted := by
  intro key s row
  cases row

theorem apply_parked_iff (move : Move) (L : Lifecycle) (enabled : move.Enabled L)
    (explained : Explained L) (h : ¬ Parked L) :
    ¬ Parked (move.apply L) ↔
      ¬ ((∃ code, move = .failPublication true code) ∧ L.publication = .disconnected) := by
  rw [not_iff_not]
  constructor
  · rintro ⟨pending, parked⟩
    rcases pending_cases enabled pending with waiting | rfl | ⟨code, rfl⟩
    · rcases steps_kept_or_inFlight enabled with kept | inFlight
      · exact absurd ⟨waiting, kept ▸ parked⟩ h
      · rw [waiting] at inFlight
        cases inFlight
    · rw [hasStep_iff] at parked
      obtain ⟨key, s, row, status⟩ := parked
      simp only [Move.apply, Lifecycle.setAttention_steps, Lifecycle.record_steps,
        Table.mapRows_row, Option.map_eq_some_iff] at row
      obtain ⟨t, -, rfl⟩ := row
      simp only [StepState.resume] at status
      split at status
      · cases status
      · next other => exact absurd status other
    · refine ⟨⟨code, rfl⟩, ?_⟩
      have still : hasStep .disconnected L.steps = true := parked
      rcases inFlight_cases enabled with hb | hb | hb
      · simp [explained.unparked (.inl hb)] at still
      · simp [explained.unparked (.inr hb)] at still
      · exact hb
  · rintro ⟨⟨code, rfl⟩, disconnected⟩
    exact ⟨rfl, explained.disconnected disconnected⟩

/-- A recorded success comes with a value, as the connector promises. -/
def recordsResult : RunAction → Bool
  | .recordExecutionSuccess workflowResult _ => workflowResult.any fun result => result ≠ .null
  | _ => true

/-- A success has a result that can be published. -/
def Recorded (run : Run) : Prop :=
  run.execution.status = .succeeded → PublicationClaimStore.publishable run.execution = true

theorem succeeded_cases {move : Move} {L : Lifecycle}
    (succeeded : (move.apply L).execution = .succeeded) :
    move = .succeedExecution ∨ L.execution = .succeeded := by
  rw [Move.apply_execution] at succeeded
  cases move with
  | succeedExecution => exact .inl rfl
  | endParkedPreparation code stop =>
    cases stop with
    | false => exact .inr succeeded
    | true =>
      simp only [Move.executionAfter, Move.stopExecution_execution] at succeeded
      split at succeeded
      · cases succeeded
      · exact .inr succeeded
  | _ => first | exact .inr succeeded | cases succeeded

theorem moveOf_succeedExecution {store : Store} {tx : Tx} {action : RunAction}
    (h : moveOf store tx action = .succeedExecution) :
    ∃ workflowResult storage, action = .recordExecutionSuccess workflowResult storage := by
  cases action
  case recordExecutionSuccess workflowResult storage => exact ⟨workflowResult, storage, rfl⟩
  all_goals
    simp only [moveOf, expiryMove, failPreparationMove, refusedClaimMove] at h
    try split_ifs at h
    all_goals cases h

theorem recordExecutionSuccess_result (store : Store) (id : RunId)
    (workflowResult : Option JsonValues.Json) (storage : Option ArtifactStorage) (tx : Tx) :
    let next := (RunAction.recordExecutionSuccess workflowResult storage).result store id tx
    next = tx ∨ next.run.execution.workflowResult = workflowResult := by
  simp only [RunAction.result, RunAction.perform, ExecutionStore.recordExecutionSuccess]
  cases ExecutionStore.storedArtifact id storage with
  | error e => exact .inl rfl
  | ok stored =>
    by_cases active : ExecutionStore.isActive tx.run.execution = true
    · exact .inr (by simp [active, written, Except.map, appendEvent])
    · exact .inl (by simp [active, written, Except.map])

theorem recorded_result {store : Store} {id : RunId} {action : RunAction} {tx : Tx}
    (permitted : recordsResult action = true) (fresh : Fresh tx) (h : Recorded tx.run) :
    Recorded (action.result store id tx).run := by
  intro succeeded
  obtain ⟨-, after⟩ := perform_refines store id fresh action
  have ends : ((moveOf store tx action).apply (view tx.run)).execution = .succeeded := by
    rw [← after]
    exact succeeded
  rcases succeeded_cases ends with made | before
  · obtain ⟨workflowResult, storage, rfl⟩ := moveOf_succeedExecution made
    rcases recordExecutionSuccess_result store id workflowResult storage tx with same | recorded
    · rw [same] at succeeded ⊢
      exact h succeeded
    · simpa [PublicationClaimStore.publishable, succeeded, recorded, recordsResult] using permitted
  · obtain ⟨-, kept⟩ := (result_writes store id action tx).resultKept before
    have publishable := h before
    simp only [PublicationClaimStore.publishable, Bool.and_eq_true] at publishable
    simp only [PublicationClaimStore.publishable, succeeded, kept, publishable.2, decide_true,
      Bool.and_self]

/-- Everything that is known of every run, whatever publishers do. -/
structure Known (tx : Tx) : Prop where
  fresh : Fresh tx
  consistent : AxesConsistent (view tx.run)
  explained : Explained (view tx.run)
  afterSuccess : StepsAfterSuccess (view tx.run)
  held : Held tx.run
  recorded : Recorded tx.run

theorem known_stable : Stable Known := by
  intro tx next h same token event notice
  refine ⟨fresh_stable tx next h.fresh same token event notice, ?_, ?_, ?_, ?_, ?_⟩ <;> rw [same]
  · exact h.consistent
  · exact h.explained
  · exact h.afterSuccess
  · exact h.held
  · exact h.recorded

theorem known_initially : Initially Known := by
  intro store args db
  refine ⟨fresh_initially store args db, ?_, ?_, ?_, ?_, ?_⟩
  · rw [view_insertWith]
    exact admitted_consistent
  · rw [view_insertWith]
    exact admitted_explained
  · rw [view_insertWith]
    exact admitted_stepsAfterSuccess
  · constructor
    · intro _
      rfl
    · intro claimed
      cases claimed
    · intro inFlight
      cases inFlight
  · intro succeeded
    cases succeeded

theorem known_result (store : Store) (id : RunId) (action : RunAction) (tx : Tx)
    (permitted : recordsResult action = true) (h : Known tx) :
    Known (action.result store id tx) := by
  obtain ⟨enabled, after⟩ := perform_refines store id h.fresh action
  refine ⟨fresh_result store id action h.fresh, ?_, ?_, ?_,
    (result_writes store id action tx).held h.held, recorded_result permitted h.fresh h.recorded⟩
  · rw [after]
    exact apply_consistent _ _ enabled h.consistent
  · rw [after]
    exact apply_explained _ _ enabled h.explained
  · rw [after]
    exact apply_stepsAfterSuccess _ _ enabled h.consistent h.afterSuccess

/-- What automatic coordination and operators may do for a run. -/
def isCoordination : RunAction → Bool
  | .claimSubmissionRecovery | .disconnectExhaustedSubmissionRecovery _ | .markRunning
  | .recordExecutionSuccess _ _ | .failExecution _ _ | .claimPublication
  | .resumeDisconnectedRun | .giveUpDisconnectedRun _ => true
  | _ => false

/-- The same as operations: the polls that select their rows, or a call for
this run. -/
inductive Coordinates (id : RunId) : Operation → Prop where
  | expireStale (locked : RunId → Bool) : Coordinates id (.expireStale locked)
  | claimNextPreparation (locked : RunId → Bool) : Coordinates id (.claimNextPreparation locked)
  | claimNextPublication (locked : RunId → Bool) : Coordinates id (.claimNextPublication locked)
  | onRun {action : RunAction} (h : isCoordination action = true) :
      Coordinates id (.onRun id action)

/-- The database when nothing but time has passed. -/
def waited (db : Database) (ms : Nat) : Database := { db with clock := db.clock + ms }

/-- For its connector's store, once enough time has passed some operation of
coordination or of an operator changes the run. -/
def CanProgress (db : Database) (id : RunId) (run : Run) : Prop :=
  ∀ store : Store, store.connectorId = run.connectorId → ∃ bound, ∀ ms, bound ≤ ms →
    ∃ operation, Coordinates id operation ∧
      (operation.execute store (waited db ms)).runs.row id ≠ some run

theorem waited_reachable {db : Database} (reachable : coordination.Reachable db) (store : Store)
    (ms : Nat) : coordination.Reachable (waited db ms) :=
  coordination.reachable_step reachable (store, .advance ms)

/-- An action that logs something changes the run. -/
theorem changes_of_logged {db : Database} (reachable : coordination.Reachable db) (call : Call)
    {id : RunId} {run : Run} (row : db.runs.row id = some run) {action : RunAction}
    (acts : actionOn call db id = some action)
    (logs : ∀ tx : Tx, tx.run = run → tx.now = db.clock →
      appended (moveOf call.1 tx action) (view run) ≠ []) :
    (call.2.execute call.1 db).runs.row id ≠ some run := by
  intro same
  obtain ⟨next, row', idle | ⟨performed, tx, performs, sees, now, -, after⟩⟩ :=
    execute_moves reachable call row
  · rw [acts] at idle
    cases idle.1
  · obtain rfl := Option.some.inj (performs.symm.trans acts)
    obtain rfl := Option.some.inj (row'.symm.trans same)
    apply logs tx sees now
    have log := apply_log (moveOf call.1 tx performed) (view next)
    rw [← after] at log
    simpa using log

theorem actionOn_onRun {db : Database} {store : Store} {id : RunId} {run : Run}
    (row : db.runs.row id = some run) (connector : store.connectorId = run.connectorId)
    (action : RunAction) : actionOn (store, .onRun id action) db id = some action := by
  simp [actionOn, actsOn, find, row, connector]

theorem head_of_only {ids : List RunId} {id : RunId} (mem : id ∈ ids)
    (only : ∀ other ∈ ids, other = id) : ids.head? = some id := by
  cases ids with
  | nil => cases mem
  | cons first rest =>
    rw [only first List.mem_cons_self]
    rfl

theorem leaseLapsed_after (store : Store) {claimedAt : Option Timestamp}
    (held : claimedAt.isSome = true) :
    ∃ bound, ∀ now, bound ≤ now → leaseLapsed store now claimedAt = true := by
  obtain ⟨since, rfl⟩ := Option.isSome_iff_exists.mp held
  exact ⟨since + store.claimTimeoutMs, fun now late => by simp [leaseLapsed, late]⟩

theorem expiryMove_logs (tx : Tx) (L : Lifecycle) : appended (expiryMove tx) L ≠ [] := by
  simp only [expiryMove]
  split_ifs <;> simp [appended]

section Cases

variable {db : Database} {id : RunId} {run : Run} (reachable : coordination.Reachable db)
  (row : db.runs.row id = some run)
include reachable row

/-- One action on the run that applies at any time from `bound` on. -/
theorem progress_by (action : RunAction) (coordinates : isCoordination action = true)
    (applies : ∀ store : Store, ∃ bound, ∀ tx : Tx, tx.run = run → bound ≤ tx.now →
      appended (moveOf store tx action) (view run) ≠ []) : CanProgress db id run := by
  intro store connector
  obtain ⟨bound, logs⟩ := applies store
  refine ⟨bound, fun ms late => ⟨_, .onRun coordinates, ?_⟩⟩
  have row' : (waited db ms).runs.row id = some run := row
  refine changes_of_logged (waited_reachable reachable store ms) (store, .onRun id action)
    row' (actionOn_onRun row' connector action) ?_
  intro tx sees now
  apply logs tx sees
  rw [now]
  exact late.trans (Nat.le_add_left _ _)

/-- A poll that selects the run at any time from `bound` on. -/
theorem progress_by_poll (operation : Operation) (action : RunAction)
    (coordinates : Coordinates id operation)
    (applies : ∀ store : Store, store.connectorId = run.connectorId → ∃ bound, ∀ ms, bound ≤ ms →
      actionOn (store, operation) (waited db ms) id = some action ∧
        ∀ tx : Tx, tx.run = run → tx.now = (waited db ms).clock →
          appended (moveOf store tx action) (view run) ≠ []) : CanProgress db id run := by
  intro store connector
  obtain ⟨bound, selects⟩ := applies store connector
  refine ⟨bound, fun ms late => ⟨operation, coordinates, ?_⟩⟩
  have row' : (waited db ms).runs.row id = some run := row
  obtain ⟨acts, logs⟩ := selects ms late
  exact changes_of_logged (waited_reachable reachable store ms) (store, operation) row' acts logs

theorem progress_unclaimed (waiting : run.preparation.status = .pending ∨
    run.preparation.status = .uncertain) (pending : run.execution.status = .pending) :
    CanProgress db id run := by
  -- the other candidates are held by other callers
  refine progress_by_poll reachable row (.claimNextPreparation fun other => !decide (other = id))
    .claimPreparation (.claimNextPreparation _) ?_
  intro store connector
  refine ⟨run.preparation.availableAt, fun ms late => ?_⟩
  have claimable : PreparationStore.claimable (waited db ms).clock run = true := by
    have due : run.preparation.availableAt ≤ db.clock + ms := late.trans (Nat.le_add_left _ _)
    simp [PreparationStore.claimable, waiting, pending, waited, due]
  constructor
  · have selected : (PreparationStore.claimCandidates store (fun other => !decide (other = id))
        (waited db ms)).head? = some id := by
      apply head_of_only
      · refine Table.mem_selectKeys.mpr ⟨run, row, ?_⟩
        simp [connector, claimable]
      · intro other mem
        obtain ⟨candidate, _, chosen⟩ := Table.mem_selectKeys.mp mem
        simp only [Bool.and_eq_true] at chosen
        simpa using chosen.1.2
    have found : (find (waited db ms) store id).isSome = true := by
      simp [find, waited, row, connector]
    simp only [actionOn, actsOn, found, if_true, selected]
  · intro tx sees now
    simp [moveOf, sees, now, claimable, appended]

theorem progress_preparing (held : Held run) (preparing : run.preparation.status = .preparing) :
    CanProgress db id run := by
  refine progress_by_poll reachable row (.expireStale fun _ => false) .expirePreparation
    (.expireStale _) ?_
  intro store connector
  obtain ⟨bound, lapses⟩ := leaseLapsed_after store (held.preparation preparing)
  refine ⟨bound, fun ms late => ?_⟩
  have expirable : PreparationStore.expirable store (waited db ms).clock run = true := by
    have lapsed := lapses (db.clock + ms) (late.trans (Nat.le_add_left _ _))
    simp [PreparationStore.expirable, preparing, waited, lapsed]
  constructor
  · have selected : id ∈ PreparationStore.expiryCandidates store (fun _ => false)
        (waited db ms) := by
      refine Table.mem_selectKeys.mpr ⟨run, row, ?_⟩
      simp [connector, expirable]
    have found : (find (waited db ms) store id).isSome = true := by
      simp [find, waited, row, connector]
    simp only [actionOn, actsOn, found, if_true, selected]
  · intro tx sees now
    simp only [moveOf, sees, now, expirable, if_true]
    exact expiryMove_logs tx (view run)

theorem progress_queued (queued : run.execution.status = .queued) : CanProgress db id run := by
  refine progress_by reachable row .markRunning rfl fun store => ⟨0, fun tx sees _ => ?_⟩
  simp [moveOf, sees, queued, appended]

theorem progress_running (running : run.execution.status = .running) : CanProgress db id run := by
  refine progress_by reachable row (.recordExecutionSuccess (some (.obj [])) none) rfl
    fun store => ⟨0, fun tx sees _ => ?_⟩
  simp [moveOf, sees, running, appended, ExecutionStore.isActive, ExecutionStore.storedArtifact,
    Except.isOk, Except.toBool]

theorem progress_inDoubt (held : Held run) (uncertain : run.execution.status = .uncertain) :
    CanProgress db id run := by
  refine progress_by reachable row .claimSubmissionRecovery rfl fun store => ?_
  have lapses : ∃ bound, ∀ now, bound ≤ now →
      ExecutionStore.recoveryUnowned store now run.execution = true := by
    cases owned : run.execution.claimToken with
    | none => exact ⟨0, fun now _ => by simp [ExecutionStore.recoveryUnowned, owned]⟩
    | some token =>
      obtain ⟨bound, lapses⟩ := leaseLapsed_after store (held.execution (by simp [owned]))
      exact ⟨bound, fun now late => by simp [ExecutionStore.recoveryUnowned, lapses now late]⟩
  obtain ⟨bound, unowned⟩ := lapses
  refine ⟨bound, fun tx sees late => ?_⟩
  simp [moveOf, sees, uncertain, unowned tx.now late, appended]

theorem progress_disconnected (unparked : run.preparation.status ≠ .disconnected)
    (disconnected : run.execution.status = .disconnected ∨
      run.publication.status = .disconnected) : CanProgress db id run := by
  refine progress_by reachable row .resumeDisconnectedRun rfl fun store => ⟨0, fun tx sees _ => ?_⟩
  by_cases parked : run.execution.status = .disconnected
  · simp [moveOf, sees, unparked, parked, appended]
  · simp [moveOf, sees, unparked, parked, disconnected.resolve_left parked, appended]

theorem progress_publishable (publishable : PublicationClaimStore.publishable run.execution = true)
    (unparked : hasStep .disconnected (view run).steps = false) (held : Held run)
    (status : run.publication.status = .pending ∨ run.publication.status = .publishing ∨
      run.publication.status = .uncertain) : CanProgress db id run := by
  refine progress_by reachable row .claimPublication rfl fun store => ?_
  have free : run.steps.any (fun s => s.status = .disconnected) = false :=
    (hasStep_view .disconnected run).symm.trans unparked
  have claims : ∃ bound, ∀ now, bound ≤ now →
      PublicationClaimStore.claimable store now run = true := by
    rcases status with waiting | inFlight
    · exact ⟨0, fun now _ => by simp [PublicationClaimStore.claimable, publishable, free, waiting]⟩
    · have taken : run.publication.status.inFlight = true := by
        rcases inFlight with h | h <;> simp [h, PublicationStatus.inFlight]
      obtain ⟨bound, lapses⟩ := leaseLapsed_after store (held.publication taken)
      refine ⟨bound, fun now late => ?_⟩
      simp [PublicationClaimStore.claimable, publishable, free, inFlight, lapses now late]
  obtain ⟨bound, claimable⟩ := claims
  refine ⟨bound, fun tx sees late => ?_⟩
  simp [moveOf, sees, claimable tx.now late, appended]

end Cases

theorem canProgress_of_open {db : Database} (reachable : coordination.Reachable db) {id : RunId}
    {run : Run} (row : db.runs.row id = some run) (known : Known (begin db run))
    (unstranded : ¬ Parked (view run)) (open_ : ¬ Concluded run) : CanProgress db id run := by
  have consistent : Consistent run.preparation.status run.execution.status
      run.publication.status := known.consistent
  have held : Held run := known.held
  cases execution : run.execution.status with
  | pending =>
    cases preparation : run.preparation.status with
    | pending => exact progress_unclaimed reachable row (.inl preparation) execution
    | preparing => exact progress_preparing reachable row held preparation
    | uncertain => exact progress_unclaimed reachable row (.inr preparation) execution
    | disconnected => exact absurd preparation consistent.unparked
    | submitted =>
      have := consistent.submitted preparation
      simp [execution] at this
    | failed => exact absurd execution (consistent.ended preparation)
  | queued => exact progress_queued reachable row execution
  | running => exact progress_running reachable row execution
  | uncertain => exact progress_inDoubt reachable row held execution
  | disconnected => exact progress_disconnected reachable row consistent.unparked (.inl execution)
  | skipped => exact absurd (.inr (.inr (consistent.skipped.mp (.inl execution)))) open_
  | failed => exact absurd (.inr (.inr (consistent.skipped.mp (.inr execution)))) open_
  | succeeded =>
    have publishable := known.recorded execution
    cases publication : run.publication.status with
    | pending =>
      have unparked : hasStep .disconnected (view run).steps = false := by
        rw [← Bool.not_eq_true]
        exact fun parked => unstranded ⟨publication, parked⟩
      exact progress_publishable reachable row publishable unparked held (.inl publication)
    | publishing =>
      exact progress_publishable reachable row publishable
        (known.explained.unparked (.inl publication)) held (.inr (.inl publication))
    | uncertain =>
      exact progress_publishable reachable row publishable
        (known.explained.unparked (.inr publication)) held (.inr (.inr publication))
    | disconnected =>
      exact progress_disconnected reachable row consistent.unparked (.inr publication)
    | published => exact absurd (.inl publication) open_
    | failed => exact absurd (.inr (.inl publication)) open_
    | skipped => exact absurd (.inr (.inr publication)) open_

/-- What coordination and operators do to a run, by a call or through a poll. -/
theorem actionOn_coordinates {store : Store} {db : Database} {id : RunId} {operation : Operation}
    (coordinates : Coordinates id operation) {action : RunAction}
    (acts : actionOn (store, operation) db id = some action) :
    isCoordination action = true ∨ action = .claimPreparation ∨ action = .expirePreparation := by
  cases coordinates with
  | expireStale locked =>
    simp only [actionOn, actsOn, Option.ite_none_right_eq_some, Option.some.injEq] at acts
    exact .inr (.inr acts.2.2.symm)
  | claimNextPreparation locked =>
    simp only [actionOn, actsOn, Option.ite_none_right_eq_some, Option.some.injEq] at acts
    exact .inr (.inl acts.2.2.symm)
  | claimNextPublication locked =>
    simp only [actionOn, actsOn, Option.ite_none_right_eq_some, Option.some.injEq] at acts
    rw [← acts.2.2]
    exact .inl rfl
  | onRun h =>
    simp only [actionOn, actsOn, if_true, Option.ite_none_right_eq_some, Option.some.injEq] at acts
    rw [← acts.2]
    exact .inl h

/-- Every condition that coordination and operators test fails there. -/
theorem result_of_parked (store : Store) (id : RunId) {tx : Tx} {action : RunAction}
    (coordinates : isCoordination action = true ∨ action = .claimPreparation ∨
      action = .expirePreparation)
    (succeeded : tx.run.execution.status = .succeeded)
    (prepared : tx.run.preparation.status ≠ .preparing ∧
      tx.run.preparation.status ≠ .disconnected)
    (waiting : tx.run.publication.status = .pending)
    (parked : tx.run.steps.any (fun s => s.status = .disconnected) = true) :
    action.result store id tx = tx := by
  rcases coordinates with coordinates | rfl | rfl
  · cases action with
    | claimSubmissionRecovery =>
      refine result_of_silent rfl ?_
      simp [ExecutionStore.claimSubmissionRecovery, succeeded, Silent]
    | disconnectExhaustedSubmissionRecovery maxAttempts =>
      refine result_of_silent rfl ?_
      simp [ExecutionStore.disconnectExhaustedSubmissionRecovery, succeeded, Silent]
    | markRunning =>
      refine result_of_silent rfl ?_
      simp [ExecutionStore.markRunning, succeeded, Silent]
    | recordExecutionSuccess workflowResult storage =>
      refine result_of_silent rfl ?_
      simp only [ExecutionStore.recordExecutionSuccess]
      split <;> simp [ExecutionStore.isActive, succeeded, Silent]
    | failExecution error storage =>
      refine result_of_silent rfl ?_
      simp only [ExecutionStore.failExecution]
      split <;> simp [ExecutionStore.isActive, succeeded, Silent]
    | claimPublication =>
      refine result_of_silent rfl ?_
      simp [PublicationClaimStore.claim, PublicationClaimStore.claimable, parked, Silent]
    | resumeDisconnectedRun =>
      refine result_of_silent rfl ?_
      simp [OperatorDecisionStore.resumeDisconnectedRun, prepared, succeeded, waiting, Silent]
    | giveUpDisconnectedRun reason =>
      refine result_of_silent rfl ?_
      simp only [OperatorDecisionStore.giveUpDisconnectedRun]
      split <;> simp [prepared, succeeded, waiting, Silent]
    | _ => cases coordinates
  · refine result_of_silent rfl ?_
    simp [PreparationStore.claimSelected, PreparationStore.claimable, succeeded, Silent]
  · refine result_of_silent rfl ?_
    simp [expireSelected, PreparationStore.expirable, prepared, Silent]

theorem not_canProgress_of_parked {db : Database} {id : RunId} {run : Run}
    (row : db.runs.row id = some run) (known : Known (begin db run))
    (parked : Parked (view run)) : ¬ CanProgress db id run := by
  obtain ⟨waiting, step⟩ := parked
  have succeeded : run.execution.status = .succeeded := by
    obtain ⟨key, s, there, -⟩ := hasStep_iff.mp step
    exact known.afterSuccess key s there
  have prepared : run.preparation.status ≠ .preparing ∧
      run.preparation.status ≠ .disconnected := by
    refine ⟨fun preparing => ?_, known.consistent.unparked⟩
    have pending := (known.consistent.unsubmitted (.inr (.inl preparing))).1
    cases pending.symm.trans succeeded
  have parkedStep : run.steps.any (fun s => s.status = .disconnected) = true :=
    (hasStep_view .disconnected run).symm.trans step
  intro progress
  let store : Store := ⟨run.connectorId, 0, fun _ => none⟩
  obtain ⟨bound, later⟩ := progress store rfl
  obtain ⟨operation, coordinates, changes⟩ := later bound le_rfl
  apply changes
  have here : (waited db bound).runs.row id = some run := row
  obtain ⟨tx, sees, row', -⟩ := execute_existing (store, operation) here
  rw [row']
  cases acts : actionOn (store, operation) (waited db bound) id with
  | none => exact congrArg some sees.run
  | some action =>
    obtain rfl := sees.run
    have still := result_of_parked store id (actionOn_coordinates coordinates acts) succeeded
      prepared waiting parkedStep
    exact congrArg (fun next : Tx => some next.run) still

/-- Recorded successes come with a value. -/
def recordsResults (call : Call) : Bool :=
  match call.2 with
  | .onRun _ action => recordsResult action
  | _ => true

theorem permits_recordsResult {call : Call} (h : recordsResults call = true) :
    Permits (fun action => recordsResult action = true) call := by
  obtain ⟨store, operation⟩ := call
  intro db id action acts
  cases operation with
  | onRun runId performed =>
    simp only [actionOn, actsOn, Option.ite_none_right_eq_some, Option.some.injEq] at acts
    rw [← acts.2.2]
    exact h
  | create args => simp [actionOn, actsOn] at acts
  | admitRun args => simp [actionOn, actsOn] at acts
  | advance ms => simp [actionOn, actsOn] at acts
  | claimNextNotice locked =>
    simp only [actionOn, actsOn, Option.ite_none_right_eq_some] at acts
    obtain ⟨-, acts⟩ := acts
    split at acts
    · simp only [Option.ite_none_right_eq_some, Option.some.injEq] at acts
      rw [← acts.2]
      rfl
    · cases acts
  | _ =>
    simp only [actionOn, actsOn, Option.ite_none_right_eq_some, Option.some.injEq] at acts
    rw [← acts.2.2]
    rfl

theorem known_visited {calls : List Call} (allowed : ∀ call ∈ calls, recordsResults call = true)
    {db : Database} (visited : db ∈ coordination.visited calls) : Everywhere Known db := by
  have initially : Everywhere Known coordination.initial := by
    intro id run row
    cases row
  have preserved : ∀ db call, recordsResults call = true → Everywhere Known db →
      Everywhere Known (coordination.step db call) := fun _ _ permitted known =>
    everywhere_execute known_stable known_initially known_result
      (permits_recordsResult permitted) known
  exact coordination.visitedFrom_invariant preserved initially
    (fun step mem => allowed step.2 (coordination.stepsFrom_input mem)) visited

/-- A publisher returns a parked publication to the queue. -/
def RequeuesParked (_ : Store) (_ : Timestamp) (action : RunAction) (run : Run) : Prop :=
  ∃ token error, action = .failPublication token error true ∧
    PublicationStore.ownsPublication token run.publication = true ∧
    run.publication.status = .disconnected

theorem requeuesParked_iff (store : Store) (tx : Tx) (action : RunAction) :
    RequeuesParked store tx.now action tx.run ↔
      (∃ code, moveOf store tx action = .failPublication true code) ∧
        (view tx.run).publication = .disconnected := by
  cases action
  case failPublication token error retry =>
    by_cases owns : PublicationStore.ownsPublication token tx.run.publication = true
    · simp [RequeuesParked, moveOf, owns, view]
    · simp [RequeuesParked, moveOf, owns]
  all_goals
    simp only [RequeuesParked, moveOf, expiryMove, failPreparationMove, refusedClaimMove,
      reduceCtorEq, false_and, exists_false, false_iff]
    try split_ifs
    all_goals simp

theorem never_parked_iff (calls : List Call)
    (allowed : ∀ call ∈ calls, recordsResults call = true) :
    (∀ db ∈ coordination.visited calls, Everywhere (fun tx => ¬ Parked (view tx.run)) db) ↔
      ∀ step ∈ coordination.steps calls, ¬ Performs RequeuesParked step.1 step.2 := by
  refine everywhere_visited_iff (fun action => recordsResult action = true) Known
    (fun run => ¬ Parked (view run)) known_stable known_initially known_result ?_ ?_ calls
    (fun call mem => permits_recordsResult (allowed call mem))
  · intro store args db
    rw [view_insertWith]
    rintro ⟨-, step⟩
    cases step
  · intro store id action tx _ known unstranded
    obtain ⟨enabled, after⟩ := perform_refines store id known.fresh action
    rw [after, requeuesParked_iff]
    exact apply_parked_iff _ _ enabled known.explained unstranded

/-- As long as every recorded success has a value: every open run has a next
step in every state exactly when no publisher returns a parked publication to
the queue. -/
theorem no_stranded_run_iff (calls : List Call)
    (allowed : ∀ call ∈ calls, recordsResults call = true) :
    (∀ db ∈ coordination.visited calls, ∀ id run, db.runs.row id = some run →
      ¬ Concluded run → CanProgress db id run) ↔
      ∀ step ∈ coordination.steps calls, ¬ Performs RequeuesParked step.1 step.2 := by
  rw [← never_parked_iff calls allowed]
  refine forall₂_congr fun db visited => forall₃_congr fun id run row => ?_
  have known := known_visited allowed visited id run row
  constructor
  · intro progress parked
    exact not_canProgress_of_parked row known parked
      (progress (Statements.live_of_pending parked.1))
  · intro unstranded
    exact canProgress_of_open (coordination.reachable_visited visited) row known unstranded

/-- The run up to the parked step, which nobody returns to the queue. -/
theorem no_stranded_run_admitted :
    (∀ call ∈ byDefault toDisconnected, recordsResults call = true) ∧
      ∀ db ∈ coordination.visited (byDefault toDisconnected), ∀ id run,
        db.runs.row id = some run → ¬ Concluded run → CanProgress db id run := by
  have allowed : ∀ call ∈ byDefault toDisconnected, recordsResults call = true := by decide
  refine ⟨allowed, (no_stranded_run_iff _ allowed).mpr ?_⟩
  rintro ⟨db, store, operation⟩ mem ⟨id, run, action, -, acts, token, error, rfl, -⟩
  have called := coordination.stepsFrom_input mem
  simp only [byDefault, toDisconnected, toUncertain, toPublishing, onRun1, List.map_cons,
    List.map_nil, List.cons_append, List.nil_append, List.mem_cons, List.not_mem_nil, or_false,
    Prod.mk.injEq] at called
  rcases called with ⟨_, rfl⟩ | ⟨_, rfl⟩ | ⟨_, rfl⟩ | ⟨_, rfl⟩ | ⟨_, rfl⟩ | ⟨_, rfl⟩ | ⟨_, rfl⟩ |
    ⟨_, rfl⟩ | ⟨_, rfl⟩ | ⟨_, rfl⟩ | ⟨_, rfl⟩ | ⟨_, rfl⟩ | ⟨_, rfl⟩ | ⟨_, rfl⟩ | ⟨_, rfl⟩
  all_goals simp [actionOn, actsOn] at acts

/-- After its third failed reconciliation the step is parked. The publisher
then reports a failure to be retried. -/
theorem requeued_run_stranded :
    ¬ ∀ calls : List Call, (∀ call ∈ calls, recordsResults call = true) →
      ∀ db ∈ coordination.visited calls, ∀ id run, db.runs.row id = some run →
        ¬ Concluded run → CanProgress db id run := by
  intro progress
  let calls := byDefault (toDisconnected ++ onRun1 [.failPublication 1 responseLost true])
  have allowed : ∀ call ∈ calls, recordsResults call = true := by decide
  have requeued : ((coordination.run calls).runs.row "run-1").any (fun run =>
      run.publication.status = .pending
        && (run.steps.row summaryStep).any fun s => s.status = .disconnected) = true := by
    decide
  simp only [Option.any_eq_true, Bool.and_eq_true, decide_eq_true_eq] at requeued
  obtain ⟨run, row, waiting, s, step, disconnected⟩ := requeued
  have visited := coordination.run_visited calls
  have parked : Parked (view run) :=
    ⟨waiting, (hasStep_view_iff run .disconnected).mpr ⟨summaryStep, s, step, disconnected⟩⟩
  exact not_canProgress_of_parked row (known_visited allowed visited "run-1" run row) parked
    (progress calls allowed _ visited "run-1" run row (Statements.live_of_pending waiting))

end Progress
