import SecReviewBot.ReviewRuns.ActionMoves

/-!
# The three axes agree

A run is in one of few combinations of preparation, execution and publication
status, whatever operations came before and in whatever order.
-/

namespace CrossAxis

open KeyedTables ReviewRunsSchema ReviewRunsTransactions Coordination TransitionSystems
open Lifecycles LifecycleView ActionMoves

/-- The combinations of statuses that occur. -/
structure Consistent (preparation : PreparationStatus) (execution : ExecutionStatus)
    (publication : PublicationStatus) : Prop where
  /-- Nothing was handed to the Execution yet. -/
  unsubmitted : preparation = .pending ∨ preparation = .preparing ∨ preparation = .uncertain →
    execution = .pending ∧ publication = .pending
  unparked : preparation ≠ .disconnected
  submitted : preparation = .submitted →
    execution = .queued ∨ execution = .running ∨ execution = .succeeded ∨ execution = .failed
  ended : preparation = .failed → execution ≠ .pending
  /-- Only a result is published. -/
  published : publication = .publishing ∨ publication = .uncertain ∨
    publication = .disconnected ∨ publication = .published ∨ publication = .failed →
      execution = .succeeded
  skipped : execution = .skipped ∨ execution = .failed ↔ publication = .skipped

def AxesConsistent (L : Lifecycle) : Prop :=
  Consistent L.preparation L.execution L.publication

theorem admitted_consistent : AxesConsistent admitted := by
  constructor <;> simp [admitted]

theorem inFlight_cases {s : PublicationStatus} (h : s.inFlight = true) :
    s = .publishing ∨ s = .uncertain ∨ s = .disconnected := by
  cases s <;> simp_all [PublicationStatus.inFlight]

/-- A publication that stays under way. -/
theorem Consistent.rederived {p : PreparationStatus} {e : ExecutionStatus}
    {b c : PublicationStatus} (h : Consistent p e b) (before : b.inFlight = true)
    (after : c.inFlight = true) : Consistent p e c := by
  have hb := inFlight_cases before
  have hc := inFlight_cases after
  have succeeded : e = .succeeded := h.published (by tauto)
  constructor
  · intro hp
    have := (h.unsubmitted hp).2
    grind
  · exact h.unparked
  · exact h.submitted
  · exact h.ended
  · exact fun _ => succeeded
  · grind

theorem strongest_inFlight (steps : Table StepKey StepState) :
    (strongest steps).inFlight = true := by
  rcases Lifecycle.strongest_cases steps with h | h | h <;> rw [h] <;> rfl

theorem derive_consistent {L : Lifecycle} (h : AxesConsistent L) : AxesConsistent L.derive := by
  unfold AxesConsistent
  rw [Lifecycle.derive_preparation, Lifecycle.derive_execution, Lifecycle.derive_publication]
  split
  · next inFlight =>
    exact Consistent.rederived h inFlight (strongest_inFlight L.steps)
  · exact h

/-- The publication ends or returns to the queue with its result still there. -/
theorem Consistent.concluded {p : PreparationStatus} {e : ExecutionStatus}
    {b c : PublicationStatus} (h : Consistent p e b) (before : b.inFlight = true)
    (after : c = .pending ∨ c = .published ∨ c = .failed) : Consistent p e c := by
  have hb := inFlight_cases before
  have succeeded : e = .succeeded := h.published (by tauto)
  constructor
  · intro hp
    have := (h.unsubmitted hp).2
    grind
  · exact h.unparked
  · exact h.submitted
  · exact h.ended
  · exact fun _ => succeeded
  · grind

/-- While an execution is open its publication waits. -/
theorem Consistent.waiting {p : PreparationStatus} {e : ExecutionStatus} {b : PublicationStatus}
    (h : Consistent p e b)
    (active : e = .queued ∨ e = .running ∨ e = .uncertain ∨ e = .disconnected) :
    b = .pending := by
  obtain ⟨-, -, -, -, published, skipped⟩ := h
  cases b <;> grind

theorem Consistent.executing {p : PreparationStatus} {e f : ExecutionStatus}
    {b : PublicationStatus} (h : Consistent p e b)
    (active : e = .queued ∨ e = .running ∨ e = .uncertain ∨ e = .disconnected)
    (next : f = .queued ∨ f = .running ∨ f = .succeeded ∨
      (f = .uncertain ∨ f = .disconnected) ∧ (e = .uncertain ∨ e = .disconnected)) :
    Consistent p f b := by
  have waiting := h.waiting active
  obtain ⟨unsubmitted, unparked, submitted, ended, -, -⟩ := h
  constructor <;> grind

theorem Consistent.executionEnded {p : PreparationStatus} {e : ExecutionStatus}
    {b : PublicationStatus} (h : Consistent p e b)
    (active : e = .queued ∨ e = .running ∨ e = .uncertain ∨ e = .disconnected) :
    Consistent p .failed .skipped := by
  obtain ⟨unsubmitted, unparked, -, -, -, -⟩ := h
  constructor <;> grind

/-- The move that ends an open execution takes the publication with it. -/
theorem failed_abandon_consistent {L : Lifecycle} (h : AxesConsistent L)
    (active : L.execution = .queued ∨ L.execution = .running ∨ L.execution = .uncertain ∨
      L.execution = .disconnected) (log : List Logged) (failures : Nat) :
    AxesConsistent
      { L with execution := .failed, log := log, failures := failures : Lifecycle }.abandon := by
  unfold AxesConsistent
  rw [Lifecycle.abandon_preparation, Lifecycle.abandon_execution, Lifecycle.abandon_publication,
    if_pos (.inl (h.waiting active))]
  exact h.executionEnded active

theorem inFlight_of_disconnected {s : PublicationStatus} (h : s = .disconnected) :
    s.inFlight = true := by
  rw [h]
  rfl

theorem apply_consistent (move : Move) (L : Lifecycle) (enabled : move.Enabled L)
    (h : AxesConsistent L) : AxesConsistent (move.apply L) := by
  have unparked := h.unparked
  cases move with
  -- moves that no axis shows
  | idle => exact h
  | claimRecovery => exact h
  | initializeSteps keys => exact h
  | deliver remaining => exact h
  | grantStep key => simpa [AxesConsistent, Move.apply] using h
  | completeStep key => simpa [AxesConsistent, Move.apply] using h
  -- preparation
  | takePreparation =>
    obtain ⟨source, pending⟩ := enabled
    have waiting := (h.unsubmitted (by tauto)).2
    constructor <;> simp [Move.apply, pending, waiting]
  | retryPreparation code =>
    obtain ⟨pending, waiting⟩ := h.unsubmitted (.inr (.inl enabled))
    constructor <;> simp [Move.apply, pending, waiting]
  | loseLease =>
    obtain ⟨pending, waiting⟩ := h.unsubmitted (.inr (.inl enabled))
    constructor <;> simp [Move.apply, pending, waiting]
  | endUnsubmitted code =>
    have waiting := (h.unsubmitted (.inr (.inl enabled.1))).2
    constructor <;> simp [Move.apply, Lifecycle.abandon_publication, waiting]
  | endUncertain code =>
    have waiting := (h.unsubmitted (.inr (.inl enabled.1))).2
    constructor <;> simp [Move.apply, waiting]
  | parkPreparation => exact absurd (h.unsubmitted (.inr (.inl enabled.1))).1 enabled.2
  | resumePreparation => exact absurd enabled unparked
  | endParkedPreparation code stop => exact absurd enabled unparked
  -- execution
  | queueExecution =>
    obtain ⟨preparing, pending, waiting⟩ := enabled
    constructor <;> simp [Move.apply, waiting]
  | confirmSubmission => exact h.executing (.inr (.inr (.inl enabled.1))) (.inl rfl)
  | startExecution => exact h.executing (.inl enabled) (.inr (.inl rfl))
  | succeedExecution =>
    simp only [Move.Enabled] at enabled
    exact h.executing (by tauto) (.inr (.inr (.inl rfl)))
  | failExecution code =>
    simp only [Move.Enabled] at enabled
    exact failed_abandon_consistent h (by tauto) _ _
  | parkExecution =>
    exact h.executing (.inr (.inr (.inl enabled))) (.inr (.inr (.inr ⟨.inr rfl, .inl enabled⟩)))
  | resumeExecution =>
    exact h.executing (.inr (.inr (.inr enabled))) (.inr (.inr (.inr ⟨.inl rfl, .inr enabled⟩)))
  | giveUpExecution => exact failed_abandon_consistent h (.inr (.inr (.inr enabled))) _ _
  -- publication
  | takePublication =>
    obtain ⟨succeeded, -, source⟩ := enabled
    obtain ⟨unsubmitted, -, submitted, ended, published, skipped⟩ := h
    constructor <;> simp only [Move.apply, Lifecycle.record] <;> grind
  | publish => exact Consistent.concluded h enabled.1 (by simp [Move.apply])
  | failPublication retry code =>
    cases retry
    · exact Consistent.concluded h enabled (by simp [Move.apply])
    · exact Consistent.concluded h enabled (by simp [Move.apply])
  | reviseStep key revision =>
    have revised : AxesConsistent (L.reviseStep key revision.revise) := by
      simpa [AxesConsistent] using h
    exact derive_consistent revised
  | endAtStep key code =>
    have derived : AxesConsistent
        (L.reviseStep key (Revision.fail (some false)).revise).derive := by
      apply derive_consistent
      simpa [AxesConsistent] using h
    refine Consistent.concluded derived ?_ (.inr (.inr rfl))
    rw [Lifecycle.derive_publication, Lifecycle.reviseStep_publication, if_pos enabled.1]
    exact strongest_inFlight _
  | rederive => exact derive_consistent h
  | resumePublication =>
    exact Consistent.concluded h (inFlight_of_disconnected enabled) (.inl rfl)
  | giveUpPublication =>
    exact Consistent.concluded h (inFlight_of_disconnected enabled) (.inr (.inr rfl))

theorem view_consistent {db : Database} (reachable : coordination.Reachable db) {id : RunId}
    {run : Run} (row : db.runs.row id = some run) : AxesConsistent (view run) :=
  view_reachable admitted_consistent apply_consistent reachable row

/-- In every reachable database the three axes of every run agree, and an
expired preparation is always concluded, never parked. -/
theorem axes_consistent_of_reachable {db : Database} (reachable : coordination.Reachable db)
    {id : RunId} {run : Run} (row : db.runs.row id = some run) :
    Consistent run.preparation.status run.execution.status run.publication.status ∧
      ∀ store, PreparationStore.expirable store db.clock run = true →
        ∃ next, PreparationStore.expireCandidate id (begin db run) = .ok (false, next) := by
  have consistent := view_consistent reachable row
  refine ⟨consistent, ?_⟩
  intro store expirable
  have preparing : (begin db run).run.preparation.status = .preparing := by
    simp only [PreparationStore.expirable, Bool.and_eq_true, decide_eq_true_eq] at expirable
    exact expirable.1
  have pending : run.execution.status = .pending :=
    (consistent.unsubmitted (.inr (.inl preparing))).1
  have concluded : ∃ next, PreparationStore.concludeExpiry id
      (begin db run).run.preparation.attemptCount (begin db run) = .ok next := by
    by_cases exhausted : PreparationStore.maxPreparationAttempts ≤ run.preparation.attemptCount
    · obtain ⟨next, h, -⟩ := concludeExpiry_exhausted id (fresh_reachable reachable row)
        preparing pending exhausted
      exact ⟨next, h⟩
    · obtain ⟨next, h, -⟩ := concludeExpiry_retryable id preparing exhausted
      exact ⟨next, h⟩
  obtain ⟨next, h⟩ := concluded
  exact ⟨next, by simp only [PreparationStore.expireCandidate, h]⟩

/-- A run just admitted whose lease has lapsed. -/
theorem axes_consistent_admitted :
    Consistent .preparing .pending .pending ∧
      ∃ next, PreparationStore.expireCandidate "run-1"
        (begin (coordination.run (byDefault [.create issueRun, .advance 600000]))
          (AdmissionStore.insertWith defaultStore issueRun Database.empty).run)
        = .ok (false, next) := by
  have row : (coordination.run (byDefault [.create issueRun, .advance 600000])).runs.row "run-1"
      = some (AdmissionStore.insertWith defaultStore issueRun Database.empty).run := rfl
  obtain ⟨consistent, expires⟩ := axes_consistent_of_reachable ⟨_, rfl⟩ row
  exact ⟨consistent, expires defaultStore (by decide)⟩

end CrossAxis
