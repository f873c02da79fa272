import SecReviewBot.AuditChains
import SecReviewBot.ReviewRuns.PublicationAxis

/-!
# The audit log and the snapshot

Every move appends the entries listed in `appended`. They lead from the status
an axis had to the one it has, with one exception: failing a publication names
`publishing` as the origin although it also applies to a publication in doubt
or parked. Completing names `publishing` too, but a publication whose steps all
succeeded is in no other state.
-/

namespace AuditLog

open AuditChains KeyedTables ReviewRunsSchema ReviewRunsTransactions Coordination
open TransitionSystems TransactionWrites RowEffects Lifecycles LifecycleView ActionMoves
open CrossAxis PublicationAxis

def abandonLog (L : Lifecycle) : List Logged :=
  if L.publication = .pending ∨ L.publication = .publishing then
    [⟨.publication, some L.publication.name, .skipped, some "PUBLICATION_ABANDONED"⟩]
  else []

def deriveLog (L : Lifecycle) : List Logged :=
  if L.publication.inFlight = true ∧ L.publication ≠ strongest L.steps then
    [⟨.publication, some L.publication.name, (strongest L.steps).name, none⟩]
  else []

def stopLog (code : String) (L : Lifecycle) : List Logged :=
  if L.execution = .queued ∨ L.execution = .running ∨ L.execution = .uncertain then
    [⟨.execution, some L.execution.name, .failed, some code⟩]
  else []

/-- The publication as the revision of one step leaves it. -/
def revised (key : StepKey) (revision : Revision) (L : Lifecycle) : Lifecycle :=
  L.reviseStep key revision.revise

def appended : Move → Lifecycle → List Logged
  | .idle, _ | .initializeSteps _, _ | .grantStep _, _ | .completeStep _, _ | .deliver _, _ => []
  | .takePreparation, L => [⟨.preparation, some L.preparation.name, .preparing, none⟩]
  | .retryPreparation code, _ => [⟨.preparation, some .preparing, .pending, code⟩]
  | .loseLease, _ => [⟨.preparation, some .preparing, .uncertain, none⟩]
  | .endUnsubmitted code, L =>
    [⟨.preparation, some .preparing, .failed, code⟩,
      ⟨.execution, some .pending, .skipped, none⟩] ++ abandonLog L
  | .endUncertain code, _ =>
    [⟨.preparation, some .preparing, .failed, code⟩,
      ⟨.execution, some .pending, .uncertain, some "SUBMISSION_STATE_UNCERTAIN"⟩]
  | .parkPreparation, _ =>
    [⟨.preparation, some .preparing, .disconnected, some "EXECUTION_ALREADY_ADVANCED"⟩]
  | .resumePreparation, _ =>
    [⟨.preparation, some .disconnected, .uncertain, some "PREPARATION_RESUMED_BY_OPERATOR"⟩]
  | .endParkedPreparation code stop, L =>
    ⟨.preparation, some .disconnected, .failed, some code⟩ ::
      ((if stop then stopLog code L else []) ++ abandonLog L)
  | .queueExecution, _ =>
    [⟨.execution, some .pending, .queued, none⟩,
      ⟨.preparation, some .preparing, .submitted, none⟩]
  | .confirmSubmission, _ => [⟨.execution, some .uncertain, .queued, none⟩]
  | .startExecution, _ => [⟨.execution, some .queued, .running, none⟩]
  | .succeedExecution, L => [⟨.execution, some L.execution.name, .succeeded, none⟩]
  | .failExecution code, L => ⟨.execution, some L.execution.name, .failed, code⟩ :: abandonLog L
  | .claimRecovery, _ =>
    [⟨.execution, some .uncertain, .uncertain, some "SUBMISSION_RECOVERY_CLAIMED"⟩]
  | .parkExecution, _ =>
    [⟨.execution, some .uncertain, .disconnected, some "SUBMISSION_RECOVERY_EXHAUSTED"⟩]
  | .resumeExecution, _ =>
    [⟨.execution, some .disconnected, .uncertain,
      some "SUBMISSION_RECOVERY_RESUMED_BY_OPERATOR"⟩]
  | .giveUpExecution, L =>
    ⟨.execution, some .disconnected, .failed,
      some "SUBMISSION_RECOVERY_ABANDONED_BY_OPERATOR"⟩ :: abandonLog L
  | .takePublication, L =>
    [⟨.publication, some L.publication.name, .publishing,
      if L.publication = .pending then none else some "PUBLICATION_LEASE_EXPIRED"⟩]
  | .publish, _ => [⟨.publication, some .publishing, .published, none⟩]
  | .failPublication retry code, _ =>
    [⟨.publication, some .publishing, if retry then .pending else .failed, code⟩]
  | .reviseStep key revision, L => deriveLog (revised key revision L)
  | .endAtStep key code, L =>
    deriveLog (revised key (.fail (some false)) L) ++
      [⟨.publication, some (revised key (.fail (some false)) L).derive.publication.name, .failed,
        code⟩]
  | .rederive, L => deriveLog L
  | .resumePublication, _ =>
    [⟨.publication, some .disconnected, .pending, some "PUBLICATION_RESUMED_BY_OPERATOR"⟩]
  | .giveUpPublication, _ =>
    [⟨.publication, some .disconnected, .failed, some "PUBLICATION_ABANDONED_BY_OPERATOR"⟩]

theorem record_log (L : Lifecycle) (axis : Axis) (origin target : StatusName)
    (reason : Option String) :
    (L.record axis origin target reason).log = L.log ++ [⟨axis, some origin, target, reason⟩] :=
  rfl

theorem abandon_log (L : Lifecycle) : L.abandon.log = L.log ++ abandonLog L := by
  by_cases h : L.publication = .pending ∨ L.publication = .publishing
  · rw [Lifecycle.abandon_of_open h, record_log, abandonLog, if_pos h]
  · rw [Lifecycle.abandon_of_closed h, abandonLog, if_neg h, List.append_nil]

theorem derive_log (L : Lifecycle) : L.derive.log = L.log ++ deriveLog L := by
  by_cases h : L.publication.inFlight = true ∧ L.publication ≠ strongest L.steps
  · simp only [Lifecycle.derive, deriveLog, if_pos h]
    split <;> rfl
  · simp only [Lifecycle.derive, deriveLog, if_neg h, List.append_nil]

theorem stopExecution_log (code : String) (L : Lifecycle) :
    (Move.stopExecution code L).log = L.log ++ stopLog code L := by
  by_cases h : L.execution = .queued ∨ L.execution = .running ∨ L.execution = .uncertain
  · simp only [Move.stopExecution, stopLog, if_pos h]
    rfl
  · simp only [Move.stopExecution, stopLog, if_neg h, List.append_nil]

theorem apply_log (move : Move) (L : Lifecycle) :
    (move.apply L).log = L.log ++ appended move L := by
  cases move with
  | endUnsubmitted code =>
    simp only [Move.apply, abandon_log, Lifecycle.announceFailure_log, record_log, appended,
      List.append_assoc, List.cons_append, List.nil_append]
    rfl
  | endParkedPreparation code stop =>
    cases stop with
    | false =>
      simp only [Move.apply, abandon_log, appended]
      simp [Lifecycle.record, Lifecycle.announceFailure, abandonLog]
    | true =>
      simp only [Move.apply, if_true, abandon_log, stopExecution_log, appended]
      simp only [Lifecycle.record, Lifecycle.announceFailure, List.append_assoc,
        List.cons_append, List.nil_append]
      simp only [abandonLog, stopLog, Move.stopExecution]
      split <;> rfl
  | failExecution code =>
    simp only [Move.apply, abandon_log, Lifecycle.announceFailure_log, record_log, appended,
      List.append_assoc, List.cons_append, List.nil_append]
    rfl
  | giveUpExecution =>
    simp only [Move.apply, abandon_log, Lifecycle.announceFailure_log, record_log, appended,
      List.append_assoc, List.cons_append, List.nil_append]
    rfl
  | failPublication retry code => cases retry <;> rfl
  | reviseStep key revision =>
    simp only [Move.apply, derive_log, Lifecycle.reviseStep_log, appended, revised]
  | endAtStep key code =>
    simp only [Move.apply, Lifecycle.announceFailure_log, record_log, derive_log,
      Lifecycle.reviseStep_log, appended, revised, List.append_assoc]
  | rederive => exact derive_log L
  | grantStep key => simp [Move.apply, appended]
  | completeStep key => simp [Move.apply, appended]
  | idle => simp [Move.apply, appended]
  | initializeSteps keys => simp [Move.apply, appended]
  | deliver remaining => simp [Move.apply, appended]
  | endUncertain code => simp [Move.apply, appended, record_log]
  | queueExecution => simp [Move.apply, appended, record_log]
  | _ => rfl

/-- The entries of one axis, in the order they were appended. -/
def entriesOf (axis : Axis) (log : List Logged) : List (Entry StatusName) :=
  (log.filter fun e => e.axis = axis).map fun e => (e.origin, e.target)

theorem entriesOf_append (axis : Axis) (log new : List Logged) :
    entriesOf axis (log ++ new) = entriesOf axis log ++ entriesOf axis new := by
  simp [entriesOf]

@[simp] theorem entriesOf_nil (axis : Axis) : entriesOf axis [] = [] := rfl

@[simp] theorem entriesOf_cons (axis : Axis) (e : Logged) (rest : List Logged) :
    entriesOf axis (e :: rest) =
      if e.axis = axis then (e.origin, e.target) :: entriesOf axis rest
      else entriesOf axis rest := by
  by_cases h : e.axis = axis <;> simp [entriesOf, h]

/-- The log of every axis is the history of its status. -/
def Audited (L : Lifecycle) : Prop :=
  ∀ axis, IsHistory (entriesOf axis L.log) (L.status axis)

theorem admitted_audited : Audited admitted := by
  intro axis
  cases axis <;> exact isHistory_singleton _

/-- What a move appends leads every axis to the status the move gives it. -/
def Leads (move : Move) (L : Lifecycle) : Prop :=
  ∀ axis, Path (L.status axis) (entriesOf axis (appended move L)) ((move.apply L).status axis)

theorem audited_apply_iff (move : Move) {L : Lifecycle} (h : Audited L) :
    Audited (move.apply L) ↔ Leads move L := by
  simp only [Audited, Leads, apply_log, entriesOf_append]
  exact forall_congr' fun axis => isHistory_append_iff (h axis) _ _

theorem path_abandon {L next : Lifecycle} (same : next.publication = L.publication) :
    Path L.publication.name (entriesOf .publication (abandonLog L))
      next.abandon.publication.name := by
  rw [Lifecycle.abandon_publication, same, abandonLog]
  split
  · simp [PublicationStatus.name]
  · simp

theorem entriesOf_abandonLog {axis : Axis} (other : axis ≠ .publication) (L : Lifecycle) :
    entriesOf axis (abandonLog L) = [] := by
  rw [abandonLog]
  split
  · simp [other.symm]
  · simp

theorem path_derive (L : Lifecycle) :
    Path L.publication.name (entriesOf .publication (deriveLog L)) L.derive.publication.name := by
  rw [Lifecycle.derive_publication, deriveLog]
  by_cases inFlight : L.publication.inFlight = true
  · by_cases same : L.publication = strongest L.steps
    · simp [same]
    · simp [inFlight, same]
  · simp [inFlight]

theorem entriesOf_deriveLog {axis : Axis} (other : axis ≠ .publication) (L : Lifecycle) :
    entriesOf axis (deriveLog L) = [] := by
  rw [deriveLog]
  split
  · simp [other.symm]
  · simp

theorem path_concat {s t u : StatusName} {log : List (Entry StatusName)} (h : Path s log t) :
    Path s (log ++ [(some t, u)]) u := by
  induction log generalizing s with
  | nil =>
    simp only [path_nil] at h
    simp [h]
  | cons e rest ih => exact ⟨h.1, ih h.2⟩

/-- A publication ends under the name `publishing` when it was not. -/
def Misnames : Move → Lifecycle → Prop
  | .failPublication _ _, L => L.publication ≠ .publishing
  | _, _ => False

theorem name_publishing_iff (s : PublicationStatus) :
    StatusName.publishing = s.name ↔ s = .publishing := by
  cases s <;> simp [PublicationStatus.name]

theorem endParked_leads (code : String) (stop : Bool) {L : Lifecycle}
    (enabled : L.preparation = .disconnected) : Leads (.endParkedPreparation code stop) L := by
  intro axis
  cases stop with
  | false =>
    cases axis with
    | publication => exact path_abandon rfl
    | preparation =>
      simp [appended, entriesOf_abandonLog, Move.apply, Lifecycle.status, enabled,
        PreparationStatus.name]
    | execution => simp [appended, entriesOf_abandonLog, Move.apply, Lifecycle.status]
  | true =>
    by_cases moving : L.execution = .queued ∨ L.execution = .running ∨ L.execution = .uncertain
    · cases axis with
      | publication =>
        simp only [appended, if_true, stopLog, if_pos moving]
        apply path_abandon
        simp [Move.stopExecution, moving]
      | preparation =>
        simp [appended, stopLog, moving, entriesOf_abandonLog, Move.apply, Move.stopExecution,
          Lifecycle.status, enabled, PreparationStatus.name]
      | execution =>
        simp [appended, stopLog, moving, entriesOf_abandonLog, Move.apply, Move.stopExecution,
          Lifecycle.status, ExecutionStatus.name]
    · cases axis with
      | publication =>
        simp only [appended, if_true, stopLog, if_neg moving]
        apply path_abandon
        simp [Move.stopExecution, moving]
      | preparation =>
        simp [appended, stopLog, moving, entriesOf_abandonLog, Move.apply, Move.stopExecution,
          Lifecycle.status, enabled, PreparationStatus.name]
      | execution =>
        simp [appended, stopLog, moving, entriesOf_abandonLog, Move.apply, Move.stopExecution,
          Lifecycle.status]

theorem leads_iff (move : Move) (L : Lifecycle) (enabled : move.Enabled L) (h : Explained L) :
    Leads move L ↔ ¬ Misnames move L := by
  cases move with
  | failPublication retry code =>
    constructor
    · intro leads misnamed
      have origin := leads .publication
      simp only [appended, entriesOf_cons, if_true, path_cons, Lifecycle.status,
        Option.some.injEq, name_publishing_iff] at origin
      exact misnamed origin.1
    · intro named axis
      have publishing : L.publication = .publishing := by
        simpa [Misnames] using named
      cases retry <;> cases axis <;>
        simp [appended, Move.apply, Lifecycle.status, publishing, PublicationStatus.name]
  | publish =>
    have publishing := publish_from_publishing enabled h
    simp only [Misnames, not_false_eq_true, iff_true]
    intro axis
    cases axis <;>
      simp [appended, Move.apply, Lifecycle.status, publishing, PublicationStatus.name]
  | endUnsubmitted code =>
    simp only [Misnames, not_false_eq_true, iff_true]
    obtain ⟨preparing, pending⟩ := enabled
    intro axis
    cases axis with
    | publication => exact path_abandon rfl
    | preparation =>
      simp [appended, entriesOf_abandonLog, Move.apply, Lifecycle.status, preparing,
        PreparationStatus.name]
    | execution =>
      simp [appended, entriesOf_abandonLog, Move.apply, Lifecycle.status, pending,
        ExecutionStatus.name]
  | endParkedPreparation code stop =>
    simp only [Misnames, not_false_eq_true, iff_true]
    exact endParked_leads code stop enabled
  | failExecution code =>
    simp only [Misnames, not_false_eq_true, iff_true]
    intro axis
    cases axis with
    | publication => exact path_abandon rfl
    | preparation => simp [appended, entriesOf_abandonLog, Move.apply, Lifecycle.status]
    | execution =>
      simp [appended, entriesOf_abandonLog, Move.apply, Lifecycle.status, ExecutionStatus.name]
  | giveUpExecution =>
    simp only [Misnames, not_false_eq_true, iff_true]
    have disconnected : L.execution = .disconnected := enabled
    intro axis
    cases axis with
    | publication => exact path_abandon rfl
    | preparation => simp [appended, entriesOf_abandonLog, Move.apply, Lifecycle.status]
    | execution =>
      simp [appended, entriesOf_abandonLog, Move.apply, Lifecycle.status, disconnected,
        ExecutionStatus.name]
  | reviseStep key revision =>
    simp only [Misnames, not_false_eq_true, iff_true]
    intro axis
    have same : (revised key revision L).publication = L.publication :=
      L.reviseStep_publication key _
    cases axis with
    | publication =>
      have path := path_derive (revised key revision L)
      rw [same] at path
      exact path
    | _ => simp [appended, entriesOf_deriveLog, Move.apply, Lifecycle.status]
  | endAtStep key code =>
    simp only [Misnames, not_false_eq_true, iff_true]
    intro axis
    have same : (revised key (.fail (some false)) L).publication = L.publication :=
      L.reviseStep_publication key _
    cases axis with
    | publication =>
      have path := path_derive (revised key (.fail (some false)) L)
      rw [same] at path
      simp only [appended, entriesOf_append]
      exact path_concat path
    | _ => simp [appended, entriesOf_append, entriesOf_deriveLog, Move.apply, Lifecycle.status]
  | rederive =>
    simp only [Misnames, not_false_eq_true, iff_true]
    intro axis
    cases axis with
    | publication => exact path_derive L
    | _ => simp [appended, entriesOf_deriveLog, Move.apply, Lifecycle.status]
  | _ =>
    simp only [Misnames, not_false_eq_true, iff_true]
    intro axis
    simp only [Move.Enabled] at enabled
    cases axis <;>
      simp [appended, Move.apply, Lifecycle.status, enabled, PreparationStatus.name,
        ExecutionStatus.name, PublicationStatus.name]

/-- Events are in the order of their ids, all of which were drawn before. -/
structure Ordered (tx : Tx) : Prop where
  increasing : tx.run.events.Pairwise fun a b => a.eventId < b.eventId
  drawn : ∀ e ∈ tx.run.events, e.eventId < tx.nextEventId

theorem appendEvent_ordered {tx : Tx} (h : Ordered tx) (axis : Axis)
    (fromStatus : Option StatusName) (toStatus : StatusName) (reasonCode : Option String) :
    Ordered (appendEvent axis fromStatus toStatus reasonCode tx) := by
  constructor
  · refine List.pairwise_append.mpr ⟨h.increasing, List.pairwise_singleton _ _, ?_⟩
    intro a ha b hb
    obtain rfl := List.mem_singleton.mp hb
    exact h.drawn a ha
  · intro e he
    rcases List.mem_append.mp he with old | new
    · exact Nat.lt_succ_of_lt (h.drawn e old)
    · obtain rfl := List.mem_singleton.mp new
      exact Nat.lt_succ_self _

theorem writes_ordered {tx next : Tx} (h : Writes tx next) (ordered : Ordered tx) :
    Ordered next := by
  induction h with
  | start => exact ordered
  | event axis fromStatus toStatus reasonCode h ih => exact appendEvent_ordered ih _ _ _ _
  | notice sourceEventId kind axis reasonCode known h ih =>
    simp only [queueRunNotice]
    split
    · exact ih
    · exact ⟨ih.increasing, ih.drawn⟩
  | _ =>
    next ih => exact ⟨ih.increasing, ih.drawn⟩

theorem ordered_reachable {db : Database} (reachable : coordination.Reachable db) {id : RunId}
    {run : Run} (row : db.runs.row id = some run) : Ordered (begin db run) := by
  refine everywhere_reachable ?_ ?_ ?_ reachable id run row
  · intro tx next h same _ event _
    constructor
    · rw [same]
      exact h.increasing
    · rw [same]
      exact fun e he => (h.drawn e he).trans_le event
  · intro store args db
    have empty : Ordered
        ⟨db.clock, db.nextToken + 1, db.nextEventId, db.nextNoticeId,
          AdmissionStore.insertedRun store args db.nextToken db.clock⟩ := by
      constructor
      · exact List.Pairwise.nil
      · intro e he
        cases he
    exact appendEvent_ordered (appendEvent_ordered (appendEvent_ordered empty _ _ _ _) _ _ _ _)
      _ _ _ _
  · exact fun store id action tx h => writes_ordered (result_writes store id action tx) h

/-- In `event_id` order the events of every axis start from nothing, follow one
another and end in the stored status. -/
structure ExactHistory (run : Run) : Prop where
  increasing : run.events.Pairwise fun a b => a.eventId < b.eventId
  history : ∀ axis, IsHistory ((run.eventsOf axis).map fun e => (e.fromStatus, e.toStatus))
    (run.status axis)

theorem history_view_iff (run : Run) : Audited (view run) ↔
    ∀ axis, IsHistory ((run.eventsOf axis).map fun e => (e.fromStatus, e.toStatus))
      (run.status axis) := by
  have entries : ∀ axis, entriesOf axis (view run).log =
      (run.eventsOf axis).map fun e => (e.fromStatus, e.toStatus) := by
    intro axis
    simp only [entriesOf, view, Run.eventsOf, List.filter_map, List.map_map]
    rfl
  have status : ∀ axis, (view run).status axis = run.status axis := by
    intro axis
    cases axis <;> rfl
  simp only [Audited, entries, status]

/-- A publisher fails a publication that is in doubt or parked. -/
def FailsInDoubt (_ : Store) (_ : Timestamp) (action : RunAction) (run : Run) : Prop :=
  ∃ token error retry, action = .failPublication token error retry ∧
    PublicationStore.ownsPublication token run.publication = true ∧
    run.publication.status ≠ .publishing

theorem misnames_moveOf_iff (store : Store) (action : RunAction) (tx : Tx) :
    FailsInDoubt store tx.now action tx.run ↔ Misnames (moveOf store tx action) (view tx.run) := by
  cases action
  case failPublication token error retry =>
    by_cases owns : PublicationStore.ownsPublication token tx.run.publication = true
    · simp [FailsInDoubt, moveOf, owns, Misnames, view]
    · simp [FailsInDoubt, moveOf, owns, Misnames]
  all_goals
    simp only [FailsInDoubt, moveOf, expiryMove, failPreparationMove, refusedClaimMove,
      reduceCtorEq, false_and, exists_false, false_iff]
    try split_ifs
    all_goals simp [Misnames]

/-- Along every run of the system, the log of every axis is the exact history of
its status in every state exactly when no owner fails a publication that is
uncertain or disconnected. -/
theorem exact_history_iff (calls : List Call) :
    (∀ db ∈ coordination.visited calls, ∀ id run, db.runs.row id = some run →
      ExactHistory run) ↔
      ∀ step ∈ coordination.steps calls, ¬ Performs FailsInDoubt step.1 step.2 := by
  have along := view_visited_iff Explained Audited Misnames FailsInDoubt admitted_explained
    apply_explained admitted_audited
    (fun move L enabled explained audited =>
      (audited_apply_iff move audited).trans (leads_iff move L enabled explained))
    misnames_moveOf_iff calls
  rw [← along]
  refine forall₂_congr fun db visited => forall₃_congr fun id run row => ?_
  rw [history_view_iff]
  constructor
  · intro exact_
    exact exact_.history
  · intro history
    exact ⟨(ordered_reachable (coordination.reachable_visited visited) row).increasing, history⟩

/-- A publication in doubt that is failed for good: its log says that it went
from `publishing` to `failed`, right after saying that it was `uncertain`. -/
theorem failed_in_doubt_misnamed :
    ¬ ∀ db, coordination.Reachable db → ∀ id run, db.runs.row id = some run →
      ExactHistory run := by
  intro exact_
  let calls := byDefault (toUncertain ++ onRun1 [.failPublication 1 responseLost false])
  have broken : ((coordination.run calls).runs.row "run-1").any (fun run =>
      ((run.eventsOf .publication).map fun e => (e.fromStatus, e.toStatus)) =
        [(none, .pending), (some .pending, .publishing), (some .publishing, .uncertain),
          (some .publishing, .failed)]) = true := by
    decide
  simp only [Option.any_eq_true, decide_eq_true_eq] at broken
  obtain ⟨run, row, events⟩ := broken
  have linked := ((exact_ _ ⟨calls, rfl⟩ "run-1" run row).history .publication).linked
  rw [events] at linked
  simp [Follows] at linked

end AuditLog
