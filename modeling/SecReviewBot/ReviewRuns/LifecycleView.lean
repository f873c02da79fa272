import SecReviewBot.ReviewRuns.Lifecycle
import SecReviewBot.ReviewRuns.RowEffects

/-!
# The life of a run, read off its rows

`view` forgets rows, leases and tokens. Each write of a transaction changes the
view by the matching operation on lifecycles.
-/

namespace LifecycleView

open KeyedTables ReviewRunsSchema ReviewRunsTransactions Coordination TransactionWrites
open RowEffects Lifecycles

def stepState (s : PublicationStep) : StepState :=
  ⟨s.status, s.attemptCount, s.recoveryAttemptCount⟩

def logged (e : ReviewRunEvent) : Logged := ⟨e.axis, e.fromStatus, e.toStatus, e.reasonCode⟩

def isFailure (n : RunNotice) : Bool := n.kind = .failure

def view (run : Run) : Lifecycle where
  preparation := run.preparation.status
  execution := run.execution.status
  publication := run.publication.status
  steps := run.steps.mapRows stepState
  log := run.events.map logged
  failures := run.notices.count isFailure
  attention := fun axis => run.notices.any (isLiveAttention axis)

theorem view_appendEvent (axis : Axis) (origin target : StatusName) (reason : Option String)
    (tx : Tx) : view (appendEvent axis (some origin) target reason tx).run =
      (view tx.run).record axis origin target reason := by
  simp [view, appendEvent, Lifecycle.record, logged]

theorem count_failure_put {notices : Table NoticeId RunNotice} {id : NoticeId}
    (absent : notices.row id = none) (n : RunNotice) :
    (notices.put id n).count isFailure = notices.count isFailure + if isFailure n then 1 else 0 :=
  Table.count_put_of_absent absent n

theorem any_put_of_absent {notices : Table NoticeId RunNotice} {id : NoticeId}
    (absent : notices.row id = none) (n : RunNotice) (p : RunNotice → Bool) :
    (notices.put id n).any p = (p n || notices.any p) := by
  rw [Bool.eq_iff_iff]
  simp only [Table.any_iff, Table.put_row, Bool.or_eq_true]
  constructor
  · rintro ⟨k, m, hm, hp⟩
    by_cases hk : k = id
    · simp only [hk, if_true, Option.some.injEq] at hm
      exact .inl (hm ▸ hp)
    · simp only [hk, if_false] at hm
      exact .inr ⟨k, m, hm, hp⟩
  · rintro (hp | ⟨k, m, hm, hp⟩)
    · exact ⟨id, n, by simp, hp⟩
    · refine ⟨k, m, ?_, hp⟩
      have hk : k ≠ id := by
        rintro rfl
        simp [absent] at hm
      simp [hk, hm]

/-- No notice of the run was drawn later or points to this event. -/
def Unnoticed (sourceEventId : Nat) (tx : Tx) : Prop :=
  ∀ id n, tx.run.notices.row id = some n →
    id < tx.nextNoticeId ∧ n.sourceEventId < sourceEventId

section Queue

variable {sourceEventId : Nat} {tx : Tx} (unnoticed : Unnoticed sourceEventId tx)
include unnoticed

theorem queueRunNotice_eq (kind : NoticeKind) (axis : Axis) (reason : Option String) :
    tx.run.notices.row tx.nextNoticeId = none ∧
      (queueRunNotice sourceEventId kind axis reason tx).run =
        { tx.run with
          notices := tx.run.notices.put tx.nextNoticeId
            { kind := kind, sourceEventId := sourceEventId, status := .pending, axis := axis,
              reasonCode := reason, commentUrl := none, claimToken := none,
              claimedAt := none, updatedAt := tx.now } } := by
  constructor
  · cases h : tx.run.notices.row tx.nextNoticeId with
    | none => rfl
    | some n => exact absurd (unnoticed _ n h).1 (lt_irrefl _)
  · have new : tx.run.notices.any (fun n => n.sourceEventId = sourceEventId) = false := by
      rw [Table.not_any_iff]
      intro id n hn
      simpa using (unnoticed id n hn).2.ne
    simp [queueRunNotice, new]

theorem view_queue_failure (axis : Axis) (reason : Option String) :
    view (queueRunNotice sourceEventId .failure axis reason tx).run =
      (view tx.run).announceFailure := by
  obtain ⟨absent, heq⟩ := queueRunNotice_eq unnoticed .failure axis reason
  simp [heq, view, Lifecycle.announceFailure, count_failure_put absent,
    any_put_of_absent absent, isFailure, isLiveAttention]

theorem view_queue_attention (axis : Axis) (reason : Option String) :
    view (queueRunNotice sourceEventId .attention axis reason tx).run =
      (view tx.run).setAttention axis true := by
  obtain ⟨absent, heq⟩ := queueRunNotice_eq unnoticed .attention axis reason
  have raised : (fun other => (decide (axis = other)) || tx.run.notices.any (isLiveAttention other))
      = Function.update (fun other => tx.run.notices.any (isLiveAttention other)) axis true := by
    funext other
    by_cases h : other = axis
    · simp [h]
    · simp [h, Ne.symm h]
  simp only [heq, view, Lifecycle.setAttention, count_failure_put absent,
    any_put_of_absent absent, ← raised]
  simp [isFailure, isLiveAttention]

end Queue

theorem view_failureEvent {tx : Tx} (h : Fresh tx) (axis : Axis) (origin target : StatusName)
    (reason noticeReason : Option String) :
    view (appendEventWithNotice axis (some origin) target reason .failure noticeReason tx).run =
      ((view tx.run).record axis origin target reason).announceFailure := by
  have unnoticed : Unnoticed tx.nextEventId (appendEvent axis (some origin) target reason tx) := h
  rw [appendEventWithNotice, view_queue_failure unnoticed, view_appendEvent]

theorem view_attentionEvent {tx : Tx} (h : Fresh tx) (axis : Axis) (origin target : StatusName)
    (reason noticeReason : Option String) :
    view (appendEventWithNotice axis (some origin) target reason .attention noticeReason tx).run =
      ((view tx.run).record axis origin target reason).setAttention axis true := by
  have unnoticed : Unnoticed tx.nextEventId (appendEvent axis (some origin) target reason tx) := h
  rw [appendEventWithNotice, view_queue_attention unnoticed, view_appendEvent]

theorem supersedeNotice_isFailure (axis : Axis) (now : Timestamp) (n : RunNotice) :
    isFailure (supersedeNotice axis now n) = isFailure n := by
  unfold supersedeNotice
  split <;> rfl

theorem supersedeNotice_live (axis other : Axis) (now : Timestamp) (n : RunNotice) :
    isLiveAttention other (supersedeNotice axis now n) =
      (isLiveAttention other n && other ≠ axis) := by
  unfold supersedeNotice
  split
  · next h =>
    have haxis : n.axis = axis := by
      simp only [isLiveAttention, Bool.and_eq_true, decide_eq_true_eq] at h
      exact h.1.1
    by_cases hother : other = axis
    · simp [isLiveAttention, hother]
    · simp [isLiveAttention, haxis, Ne.symm hother]
  · next h =>
    by_cases hother : other = axis
    · subst hother
      simp [Bool.not_eq_true _ ▸ h]
    · simp [hother]

theorem view_supersede (axis : Axis) (tx : Tx) :
    view (supersedeRunAttentionNotices axis tx).run = (view tx.run).setAttention axis false := by
  have withdrawn : (fun other => tx.run.notices.any fun n => isLiveAttention other n && other ≠ axis)
      = Function.update (fun other => tx.run.notices.any (isLiveAttention other)) axis false := by
    funext other
    by_cases h : other = axis
    · subst h
      simp [Table.not_any_iff]
    · simp [h]
  simp only [view, supersedeRunAttentionNotices, updateNotices, Lifecycle.setAttention,
    Table.count_mapRows, Table.any_mapRows, supersedeNotice_isFailure, supersedeNotice_live,
    ← withdrawn]

theorem releaseStep_state (now : Timestamp) (s : PublicationStep) :
    stepState (releaseStep now s) = stepState s := by
  unfold releaseStep
  split <;> rfl

theorem resumeStep_state (now : Timestamp) (s : PublicationStep) :
    stepState (PublicationStore.resumeStep now s) = (stepState s).resume := by
  unfold PublicationStore.resumeStep StepState.resume
  by_cases h : s.status = .disconnected
  · simp [h, stepState, StepState.fresh]
  · simp [h, stepState]

theorem mapRows_stepState (steps : Table StepKey PublicationStep)
    (f : PublicationStep → PublicationStep) (g : StepState → StepState)
    (same : ∀ s, stepState (f s) = g (stepState s)) :
    (steps.mapRows f).mapRows stepState = (steps.mapRows stepState).mapRows g := by
  simp [Table.mapRows_mapRows, same]

/-- The status an abandoned publication leaves. -/
theorem abandonInFlight_fst (tx : Tx) :
    (abandonInFlightPublication tx).1 =
      if tx.run.publication.status = .pending ∨ tx.run.publication.status = .publishing then
        some tx.run.publication.status
      else none := by
  by_cases h : tx.run.publication.status = .pending ∨ tx.run.publication.status = .publishing
    <;> simp [abandonInFlightPublication, h]

theorem view_abandonInFlight (tx : Tx) :
    view (abandonInFlightPublication tx).2.run =
      if tx.run.publication.status = .pending ∨ tx.run.publication.status = .publishing then
        { view tx.run with publication := .skipped }
      else view tx.run := by
  have kept := mapRows_stepState tx.run.steps (releaseStep tx.now) id
    (releaseStep_state tx.now)
  have same : (tx.run.steps.mapRows stepState).mapRows id = tx.run.steps.mapRows stepState := by
    simp [Table.mapRows_mapRows]
  rw [same] at kept
  by_cases h : tx.run.publication.status = .pending ∨ tx.run.publication.status = .publishing
    <;> simp [abandonInFlightPublication, h, view, abandonCandidates, kept]

theorem view_appendAbandonEvent (previous : Option PublicationStatus) (tx : Tx) :
    view (appendAbandonEvent previous tx).run = match previous with
      | none => view tx.run
      | some status => (view tx.run).record .publication status.name .skipped
          (some "PUBLICATION_ABANDONED") := by
  cases previous with
  | none => rfl
  | some status => exact view_appendEvent _ _ _ _ _

/-- The stores update the publication row first and append its event last.
Whatever is written in between without touching that row, the result is an
abandonment at the end. -/
theorem view_abandonAround (tx : Tx) {between : Tx} (writes : Lifecycle → Lifecycle)
    (keeps : ∀ L status, writes { L with publication := status }
      = { writes L with publication := status })
    (seen : view between.run = writes (view (abandonInFlightPublication tx).2.run)) :
    view (appendAbandonEvent (abandonInFlightPublication tx).1 between).run =
      (writes (view tx.run)).abandon := by
  have status : (writes (view tx.run)).publication = tx.run.publication.status :=
    congrArg Lifecycle.publication (keeps (view tx.run) tx.run.publication.status)
  rw [view_appendAbandonEvent, abandonInFlight_fst, seen, view_abandonInFlight]
  by_cases hp : tx.run.publication.status = .pending ∨ tx.run.publication.status = .publishing
  · rw [if_pos hp, if_pos hp, keeps, Lifecycle.abandon_of_open (status ▸ hp), status]
  · rw [if_neg hp, if_neg hp, Lifecycle.abandon_of_closed (status ▸ hp)]

theorem view_abandonPublication (tx : Tx) :
    view (OperatorDecisionStore.abandonPublication tx).run = (view tx.run).abandon :=
  view_abandonAround tx id (fun _ _ => rfl) rfl

theorem abandon_unnoticed {sourceEventId : Nat} {tx : Tx} (h : Unnoticed sourceEventId tx) :
    Unnoticed sourceEventId (abandonInFlightPublication tx).2 := by
  simp only [abandonInFlightPublication]
  split <;> exact h

theorem abandon_fresh {tx : Tx} (h : Fresh tx) : Fresh (abandonInFlightPublication tx).2 := by
  have abandoned : Statements.Sequence .touchObservation tx (abandonInFlightPublication tx).2 :=
    Statements.Sequence.start.abandon
  exact (writes_of_sequence abandoned).fresh h

theorem derive_fresh {tx : Tx} (h : Fresh tx) :
    Fresh (PublicationStore.derivePublicationStatus tx) := by
  have derived : Statements.Sequence .touchObservation tx (PublicationStore.derivePublicationStatus tx) :=
    Statements.Sequence.start.derive
  exact (writes_of_sequence derived).fresh h

theorem view_concludeExecutionFailed {tx : Tx} (h : Fresh tx) (previous : ExecutionStatus)
    (code : Option String) :
    view (SubmissionTransitionStore.concludeExecutionFailed previous code tx).run =
      (((view tx.run).record .execution previous.name .failed code).announceFailure).abandon :=
  view_abandonAround tx (fun L => (L.record .execution previous.name .failed code).announceFailure)
    (fun _ _ => rfl) (view_failureEvent (abandon_fresh h) _ _ _ _ _)

theorem hasStep_view (status : StepStatus) (run : Run) :
    Lifecycles.hasStep status (view run).steps = PublicationStore.hasStep status run.steps :=
  Table.any_mapRows _ _ _

theorem strongest_view {run : Run} (h : run.publication.status.inFlight = true) :
    strongest (view run).steps =
      PublicationStore.derivedStatus run.publication.status run.steps := by
  simp only [strongest, PublicationStore.derivedStatus, hasStep_view]
  cases hs : run.publication.status <;> simp [hs, PublicationStatus.inFlight] at h ⊢

theorem view_derive {tx : Tx} (h : Fresh tx) :
    view (PublicationStore.derivePublicationStatus tx).run = (view tx.run).derive := by
  have status : (view tx.run).publication = tx.run.publication.status := rfl
  unfold Lifecycle.derive
  simp only [PublicationStore.derivePublicationStatus, status]
  by_cases hf : tx.run.publication.status.inFlight = true
  · rw [strongest_view hf]
    generalize PublicationStore.derivedStatus tx.run.publication.status tx.run.steps = target
    by_cases ht : tx.run.publication.status = target
    · simp [ht]
    · have unnoticed : Unnoticed tx.nextEventId (appendEvent .publication
          (some tx.run.publication.status.name) target.name none (updatePublication
            (fun p => { p with status := target, updatedAt := tx.now }) tx)) := h
      simp only [hf, ht, ne_eq, not_false_eq_true, and_self, decide_true, Bool.and_self, if_true]
      split
      · rw [view_queue_attention unnoticed, view_appendEvent]
        rfl
      · rw [view_appendEvent]
        rfl
  · simp [hf]

/-- The publication is owned and the step exists in a state `p` accepts. -/
def stepReady (token : Token) (key : StepKey) (p : PublicationStep → Bool) (tx : Tx) : Bool :=
  PublicationStore.ownsPublication token tx.run.publication && (tx.run.steps.row key).any p

/-- A publisher may report on a step that is running or in doubt. -/
theorem stepReady_open_iff {token : Token} {key : StepKey} {tx : Tx} :
    stepReady token key (fun s => s.status = .running || s.status = .uncertain) tx = true ↔
      PublicationStore.ownsPublication token tx.run.publication = true ∧
        ∃ s, tx.run.steps.row key = some s ∧ (s.status = .running ∨ s.status = .uncertain) := by
  simp [stepReady, Option.any_eq_true]

theorem updateOwnedStep_cases (token : Token) (key : StepKey) (p : PublicationStep → Bool)
    (f : PublicationStep → PublicationStep) (tx : Tx) :
    (stepReady token key p tx = false ∧ PublicationStore.updateOwnedStep token key p f tx = none) ∨
      ∃ s, stepReady token key p tx = true ∧
        PublicationStore.ownsPublication token tx.run.publication = true ∧
        tx.run.steps.row key = some s ∧ p s = true ∧
        PublicationStore.updateOwnedStep token key p f tx =
          some (updateSteps (fun steps => steps.put key (f s)) tx) := by
  by_cases howns : PublicationStore.ownsPublication token tx.run.publication = true
  · cases hrow : tx.run.steps.row key with
    | none => simp [stepReady, PublicationStore.updateOwnedStep, hrow]
    | some s =>
      by_cases hp : p s = true
      · exact .inr ⟨s, by simp [stepReady, howns, hrow, hp], howns, rfl, hp,
          by simp [PublicationStore.updateOwnedStep, howns, hrow, hp]⟩
      · simp [stepReady, PublicationStore.updateOwnedStep, hrow, hp]
  · simp [stepReady, PublicationStore.updateOwnedStep, howns]

theorem view_steps_row {run : Run} {key : StepKey} {s : PublicationStep}
    (h : run.steps.row key = some s) : (view run).steps.row key = some (stepState s) := by
  simp [view, h]

theorem view_updateStep {tx : Tx} {key : StepKey} {s : PublicationStep}
    (h : tx.run.steps.row key = some s) (f : PublicationStep → PublicationStep)
    (g : StepState → StepState) (same : stepState (f s) = g (stepState s)) :
    view (updateSteps (fun steps => steps.put key (f s)) tx).run =
      (view tx.run).reviseStep key g := by
  simp only [Lifecycle.reviseStep, view_steps_row h]
  simp [view, Table.mapRows_put, same]

theorem failStep_state (error : Failure) (retry : Option Bool) (now : Timestamp)
    (s : PublicationStep) :
    stepState (PublicationStore.failStep error retry now s) =
      (Revision.fail retry).revise (stepState s) := by
  by_cases h : s.status = .uncertain ∧ retry = some true
  · by_cases hr : 3 ≤ s.recoveryAttemptCount + 1
      <;> simp [PublicationStore.failStep, Revision.revise, stepState, h,
        PublicationStore.maxPublicationStepRecoveryAttempts, hr]
  · by_cases hr : retry = some false
      <;> simp [PublicationStore.failStep, Revision.revise, stepState, h, hr]

theorem settleStep_state (found : Option PublicationStore.RemoteObject) (now : Timestamp)
    (s : PublicationStep) :
    stepState (PublicationStore.settleStep found now s) =
      (Revision.settle found.isSome).revise (stepState s) := by
  cases found <;> rfl

theorem doubtStep_state (now : Timestamp) (s : PublicationStep) :
    stepState (PublicationStore.doubtStep now s) = Revision.doubt.revise (stepState s) := by
  unfold PublicationStore.doubtStep
  split
  · next h => simp [Revision.revise, stepState, h]
  · rfl

theorem insertSteps_state (now : Timestamp) (keys : List StepKey)
    (steps : Table StepKey PublicationStep) :
    (PublicationStore.insertSteps now keys steps).mapRows stepState =
      keys.foldl (fun t key => t.put key StepState.fresh) (steps.mapRows stepState) := by
  unfold PublicationStore.insertSteps
  induction keys generalizing steps with
  | nil => rfl
  | cons key rest ih =>
    simp only [List.foldl_cons]
    rw [ih, Table.mapRows_put]
    rfl

end LifecycleView
