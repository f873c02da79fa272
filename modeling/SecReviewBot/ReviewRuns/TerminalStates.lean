import SecReviewBot.ReviewRuns.RowEffects

/-!
# Terminal states and columns written once

What every statement keeps of an axis row: its terminal status with the end
and the failure that came with it, its start, and for an execution its input
and its result. A statement keeps it of the row it writes, so a transaction
keeps it, and so does any history.
-/

namespace TerminalStates

open JsonValues ReviewRunsSchema ReviewRunsTransactions Coordination Statements RowEffects
open TransitionSystems

/-- The columns the three axes share. -/
structure AxisRow (Status : Type) where
  status : Status
  startedAt : Option Timestamp
  finishedAt : Option Timestamp
  failureCode : Option String
  failureMessage : Option String

def preparationRow (p : Preparation) : AxisRow PreparationStatus :=
  ⟨p.status, p.startedAt, p.finishedAt, p.failureCode, p.failureMessage⟩

def executionRow (e : Execution) : AxisRow ExecutionStatus :=
  ⟨e.status, e.startedAt, e.finishedAt, e.failureCode, e.failureMessage⟩

def publicationRow (p : Publication) : AxisRow PublicationStatus :=
  ⟨p.status, p.startedAt, p.finishedAt, p.failureCode, p.failureMessage⟩

def PreparationEnded (status : PreparationStatus) : Prop :=
  status = .submitted ∨ status = .failed

def ExecutionEnded (status : ExecutionStatus) : Prop :=
  status = .succeeded ∨ status = .skipped ∨ status = .failed

def PublicationEnded (status : PublicationStatus) : Prop :=
  status = .published ∨ status = .failed ∨ status = .skipped

structure AxisKept {Status : Type} (Ended : Status → Prop) (row next : AxisRow Status) :
    Prop where
  ended : Ended row.status → next.status = row.status ∧ next.finishedAt = row.finishedAt ∧
    next.failureCode = row.failureCode ∧ next.failureMessage = row.failureMessage
  started : row.startedAt ≠ none → next.startedAt = row.startedAt

structure RunKept (run next : Run) : Prop where
  preparation : AxisKept PreparationEnded (preparationRow run.preparation)
    (preparationRow next.preparation)
  execution : AxisKept ExecutionEnded (executionRow run.execution) (executionRow next.execution)
  publication : AxisKept PublicationEnded (publicationRow run.publication)
    (publicationRow next.publication)
  input : run.execution.input ≠ none → next.execution.input = run.execution.input
  result : run.execution.workflowResult ≠ none →
    next.execution.workflowResult = run.execution.workflowResult

/-- A column kept twice in a row is kept. -/
theorem kept_trans {α : Type} {a b c : Option α} (first : a ≠ none → b = a)
    (second : b ≠ none → c = b) (set : a ≠ none) : c = a := by
  have same : b = a := first set
  exact (second (same ▸ set)).trans same

theorem axisKept_refl {Status : Type} (Ended : Status → Prop) (row : AxisRow Status) :
    AxisKept Ended row row :=
  ⟨fun _ => ⟨rfl, rfl, rfl, rfl⟩, fun _ => rfl⟩

theorem AxisKept.trans {Status : Type} {Ended : Status → Prop} {a b c : AxisRow Status}
    (h : AxisKept Ended a b) (h' : AxisKept Ended b c) : AxisKept Ended a c where
  ended := by
    intro ended
    obtain ⟨status, finished, code, message⟩ := h.ended ended
    obtain ⟨status', finished', code', message'⟩ := h'.ended (status ▸ ended)
    exact ⟨status'.trans status, finished'.trans finished, code'.trans code,
      message'.trans message⟩
  started := kept_trans h.started h'.started

theorem runKept_refl (run : Run) : RunKept run run :=
  ⟨axisKept_refl _ _, axisKept_refl _ _, axisKept_refl _ _, fun _ => rfl, fun _ => rfl⟩

theorem RunKept.trans {a b c : Run} (h : RunKept a b) (h' : RunKept b c) : RunKept a c :=
  ⟨h.preparation.trans h'.preparation, h.execution.trans h'.execution,
    h.publication.trans h'.publication, kept_trans h.input h'.input,
    kept_trans h.result h'.result⟩

theorem or_kept {α : Type} {a : Option α} (b : Option α) (set : a ≠ none) : a.or b = a := by
  cases a with
  | none => exact absurd rfl set
  | some value => rfl

theorem preparationKept_of_write {now : Timestamp} {p next : Preparation}
    (write : PreparationWrite now p next) :
    AxisKept PreparationEnded (preparationRow p) (preparationRow next) := by
  have unended : ¬ PreparationEnded p.status := by
    rintro (ended | ended) <;> cases write <;> simp_all
  refine ⟨fun ended => absurd ended unended, fun set => ?_⟩
  cases write with
  | claim token waiting => exact or_kept _ set
  | _ => rfl

theorem publicationKept_of_write {now : Timestamp} {p next : Publication}
    (write : PublicationWrite now p next) :
    AxisKept PublicationEnded (publicationRow p) (publicationRow next) := by
  have unended : ¬ PublicationEnded p.status := by
    rintro (ended | ended | ended) <;> cases write <;>
      simp_all [PublicationStatus.inFlight]
  refine ⟨fun ended => absurd ended unended, fun set => ?_⟩
  cases write with
  | claim token claimable => exact or_kept _ set
  | _ => rfl

/-- Besides a terminal diagnostic artifact, nothing is written to an execution
that ended. -/
theorem executionWrite_ended {resuming : Prop} {drawn : Token → Prop} {now : Timestamp}
    {e next : Execution} (write : ExecutionWrite resuming drawn now e next)
    (ended : ExecutionEnded e.status) :
    ∃ storage, next = { e with artifactStorage := some storage, updatedAt := now } := by
  cases write with
  | storeArtifact storage => exact ⟨storage, rfl⟩
  | _ =>
    exfalso
    rcases ended with ended | ended | ended <;>
      simp_all [SubmissionTransitionStore.holdsRecovery, ExecutionStore.isActive]

theorem executionKept_of_write {resuming : Prop} {drawn : Token → Prop} {now : Timestamp}
    {e next : Execution} (write : ExecutionWrite resuming drawn now e next) :
    AxisKept ExecutionEnded (executionRow e) (executionRow next) := by
  constructor
  · intro ended
    obtain ⟨storage, rfl⟩ := executionWrite_ended write ended
    exact ⟨rfl, rfl, rfl, rfl⟩
  · intro set
    cases write with
    | queue | recover => exact or_kept _ set
    | _ => rfl

theorem inputKept_of_write {resuming : Prop} {drawn : Token → Prop} {now : Timestamp}
    {e next : Execution} (write : ExecutionWrite resuming drawn now e next)
    (set : e.input ≠ none) : next.input = e.input := by
  cases write with
  | saveInput input waiting unset =>
    rcases unset with unset | same
    · exact absurd unset set
    · exact same.symm
  | _ => rfl

/-- Only a succeeded execution has a result. -/
def Recorded (e : Execution) : Prop := e.workflowResult ≠ none → e.status = .succeeded

theorem resultKept_of_write {resuming : Prop} {drawn : Token → Prop} {now : Timestamp}
    {e next : Execution} (recorded : Recorded e)
    (write : ExecutionWrite resuming drawn now e next) (set : e.workflowResult ≠ none) :
    next.workflowResult = e.workflowResult := by
  obtain ⟨storage, rfl⟩ := executionWrite_ended write (.inl (recorded set))
  rfl

theorem recorded_of_write {resuming : Prop} {drawn : Token → Prop} {now : Timestamp}
    {e next : Execution} (recorded : Recorded e)
    (write : ExecutionWrite resuming drawn now e next) : Recorded next := by
  by_cases set : e.workflowResult = none
  · cases write with
    | succeed => exact fun _ => rfl
    | _ => exact fun present => absurd set present
  · obtain ⟨storage, rfl⟩ := executionWrite_ended write (.inl (recorded set))
    exact recorded

theorem runKept_of_sequence {action : RunAction} {origin tx : Tx} (h : Sequence action origin tx)
    (recorded : Recorded origin.run.execution) :
    RunKept origin.run tx.run ∧ Recorded tx.run.execution := by
  induction h with
  | start => exact ⟨runKept_refl _, recorded⟩
  | next h s ih =>
    obtain ⟨kept, recorded⟩ := ih
    cases s with
    | preparation f write =>
      exact ⟨{ kept with
        preparation := kept.preparation.trans (preparationKept_of_write write) }, recorded⟩
    | execution f write =>
      refine ⟨{ kept with
        execution := kept.execution.trans (executionKept_of_write write)
        input := kept_trans kept.input (inputKept_of_write write)
        result := kept_trans kept.result (resultKept_of_write recorded write) }, ?_⟩
      exact recorded_of_write recorded write
    | publication f write =>
      exact ⟨{ kept with
        publication := kept.publication.trans (publicationKept_of_write write) }, recorded⟩
    | notice sourceEventId kind axis reasonCode known =>
      simp only [queueRunNotice]
      split
      · exact ⟨kept, recorded⟩
      · exact ⟨{ kept with }, recorded⟩
    | _ => exact ⟨{ kept with }, recorded⟩

theorem recorded_reachable {db : Database} (reachable : coordination.Reachable db) :
    Everywhere (fun tx => Recorded tx.run.execution) db := by
  refine everywhere_reachable ?_ ?_ ?_ reachable
  · intro tx next recorded run _ _ _
    exact run ▸ recorded
  · intro store args db present
    exact absurd rfl present
  · intro store id action tx recorded
    exact (runKept_of_sequence (result_statements store id action tx) recorded).2

theorem runKept_step {db : Database} (reachable : coordination.Reachable db) (call : Call)
    {id : RunId} {run : Run} (row : db.runs.row id = some run) :
    ∃ next, (coordination.step db call).runs.row id = some next ∧ RunKept run next := by
  obtain ⟨tx, sees, row', -⟩ := execute_existing call row
  have recorded : Recorded tx.run.execution := sees.run ▸ recorded_reachable reachable id run row
  obtain ⟨_, sequence⟩ := resultOf_statements call.1 id tx (actionOn call db id)
  exact ⟨_, row', sees.run ▸ (runKept_of_sequence sequence recorded).1⟩

/-- From every reachable database, whatever operations follow: a run stays, its
terminal axes keep status, end and failure, and starts, input and result are
never overwritten. -/
theorem terminal_axes_and_results_kept {db : Database} (reachable : coordination.Reachable db)
    {id : RunId} {run : Run} (row : db.runs.row id = some run) (calls : List Call) :
    ∃ next, (coordination.runFrom db calls).runs.row id = some next ∧ RunKept run next := by
  induction calls generalizing db run with
  | nil => exact ⟨run, row, runKept_refl run⟩
  | cons call rest ih =>
    obtain ⟨mid, row', kept⟩ := runKept_step reachable call row
    obtain ⟨next, last, kept'⟩ := ih (coordination.reachable_step reachable call) row'
    exact ⟨next, last, kept.trans kept'⟩

/-- A succeeded run whose publisher gives up, with a late failure report. -/
theorem late_failure_keeps_result : ∃ run next,
    (coordination.run (byDefault toPublishing)).runs.row "run-1" = some run ∧
      run.execution.status = .succeeded ∧ run.execution.workflowResult = some (.obj []) ∧
      (coordination.runFrom (coordination.run (byDefault toPublishing)) (byDefault (onRun1
        [.failExecution responseLost none, .failPublication 1 responseLost false,
          .claimPublication]))).runs.row "run-1" = some next ∧ RunKept run next := by
  have present : ((coordination.run (byDefault toPublishing)).runs.row "run-1").any (fun run =>
      run.execution.status = .succeeded && run.execution.workflowResult = some (.obj []))
        = true := by
    decide
  obtain ⟨run, row, succeeded⟩ := (Option.any_eq_true _ _).mp present
  simp only [Bool.and_eq_true, decide_eq_true_eq] at succeeded
  obtain ⟨next, row', kept⟩ := terminal_axes_and_results_kept ⟨_, rfl⟩ row (byDefault (onRun1
    [.failExecution responseLost none, .failPublication 1 responseLost false,
      .claimPublication]))
  exact ⟨run, next, row, succeeded.1, succeeded.2, row', kept⟩

end TerminalStates
