import SecReviewBot.ReviewRuns.Schema

/-!
# The life of one review run

What coordination is about, without rows, leases and tokens: three axes with a
status each, the publication steps with their budgets, a log of status changes
and an outbox of which only two things matter here, how many failures it has
announced and for which axes an operator is still being called.

A `Move` is one thing that can happen to a run. `Enabled` says when, and
`apply` says what it does to everything at once; who is entitled to make the
move is left to the store.
-/

namespace Lifecycles

open KeyedTables ReviewRunsSchema

structure StepState where
  status : StepStatus
  attempts : Nat
  recoveries : Nat
  deriving DecidableEq

namespace StepState

def fresh : StepState := ⟨.pending, 0, 0⟩

def Grantable (s : StepState) : Prop :=
  s.attempts + 1 ≤ 3 ∧ (s.status = .pending ∨ s.status = .running ∨ s.status = .failed)

def grant (s : StepState) : StepState := { s with status := .running, attempts := s.attempts + 1 }

def complete (s : StepState) : StepState := { s with status := .succeeded }

/-- Only an operator returns the two budgets. -/
def resume (s : StepState) : StepState := if s.status = .disconnected then fresh else s

end StepState

/-- Changes of a step that put the publication's own status in question. -/
inductive Revision where
  | doubt
  | settle (found : Bool)
  | fail (retry : Option Bool)
  deriving DecidableEq

namespace Revision

def Applies : Revision → StepState → Prop
  | doubt, s => 3 ≤ s.attempts ∧ (s.status = .failed ∨ s.status = .running ∨ s.status = .uncertain)
  | settle _, s => 3 ≤ s.attempts ∧ s.status = .uncertain
  | fail _, s => s.status = .running ∨ s.status = .uncertain

def revise : Revision → StepState → StepState
  | doubt, s => { s with status := .uncertain }
  | settle found, s => { s with status := if found then .succeeded else .terminalFailed }
  | fail retry, s =>
    if s.status = .uncertain ∧ retry = some true then
      { s with status := if 3 ≤ s.recoveries + 1 then .disconnected else .uncertain
               recoveries := s.recoveries + 1 }
    else { s with status := if retry = some false then .terminalFailed else .failed }

end Revision

def hasStep (status : StepStatus) (steps : Table StepKey StepState) : Bool :=
  steps.any fun s => s.status = status

/-- What the steps say about a publication that is under way. -/
def strongest (steps : Table StepKey StepState) : PublicationStatus :=
  if hasStep .disconnected steps then .disconnected
  else if hasStep .uncertain steps then .uncertain
  else .publishing

structure Logged where
  axis : Axis
  origin : Option StatusName
  target : StatusName
  reason : Option String
  deriving DecidableEq

structure Lifecycle where
  preparation : PreparationStatus
  execution : ExecutionStatus
  publication : PublicationStatus
  steps : Table StepKey StepState
  log : List Logged
  failures : Nat
  attention : Axis → Bool

namespace Lifecycle

def status (L : Lifecycle) : Axis → StatusName
  | .preparation => L.preparation.name
  | .execution => L.execution.name
  | .publication => L.publication.name

def record (L : Lifecycle) (axis : Axis) (origin target : StatusName)
    (reason : Option String) : Lifecycle :=
  { L with log := L.log ++ [⟨axis, some origin, target, reason⟩] }

def announceFailure (L : Lifecycle) : Lifecycle := { L with failures := L.failures + 1 }

/-- Call an operator to an axis, or withdraw the call. -/
def setAttention (L : Lifecycle) (axis : Axis) (raised : Bool) : Lifecycle :=
  { L with attention := Function.update L.attention axis raised }

/-- A publication that will have nothing to publish. -/
def abandon (L : Lifecycle) : Lifecycle :=
  if L.publication = .pending ∨ L.publication = .publishing then
    { L with publication := .skipped }.record .publication L.publication.name .skipped
      (some "PUBLICATION_ABANDONED")
  else L

theorem abandon_of_open {L : Lifecycle}
    (h : L.publication = .pending ∨ L.publication = .publishing) :
    L.abandon = { L with publication := .skipped }.record .publication L.publication.name .skipped
      (some "PUBLICATION_ABANDONED") :=
  if_pos h

theorem abandon_of_closed {L : Lifecycle}
    (h : ¬ (L.publication = .pending ∨ L.publication = .publishing)) : L.abandon = L :=
  if_neg h

/-- Bring the publication in line with its steps. -/
def derive (L : Lifecycle) : Lifecycle :=
  if L.publication.inFlight = true ∧ L.publication ≠ strongest L.steps then
    let moved := { L with publication := strongest L.steps }.record .publication
      L.publication.name (strongest L.steps).name none
    if strongest L.steps = .disconnected then moved.setAttention .publication true else moved
  else L

def reviseStep (L : Lifecycle) (key : StepKey) (f : StepState → StepState) : Lifecycle :=
  match L.steps.row key with
  | none => L
  | some s => { L with steps := L.steps.put key (f s) }

section Fields

variable (L : Lifecycle)

@[simp] theorem record_preparation (axis : Axis) (o t : StatusName) (r : Option String) :
    (L.record axis o t r).preparation = L.preparation := rfl

@[simp] theorem record_execution (axis : Axis) (o t : StatusName) (r : Option String) :
    (L.record axis o t r).execution = L.execution := rfl

@[simp] theorem record_publication (axis : Axis) (o t : StatusName) (r : Option String) :
    (L.record axis o t r).publication = L.publication := rfl

@[simp] theorem record_steps (axis : Axis) (o t : StatusName) (r : Option String) :
    (L.record axis o t r).steps = L.steps := rfl

@[simp] theorem record_failures (axis : Axis) (o t : StatusName) (r : Option String) :
    (L.record axis o t r).failures = L.failures := rfl

@[simp] theorem record_attention (axis : Axis) (o t : StatusName) (r : Option String) :
    (L.record axis o t r).attention = L.attention := rfl

@[simp] theorem announceFailure_preparation : L.announceFailure.preparation = L.preparation := rfl
@[simp] theorem announceFailure_execution : L.announceFailure.execution = L.execution := rfl
@[simp] theorem announceFailure_publication : L.announceFailure.publication = L.publication := rfl
@[simp] theorem announceFailure_steps : L.announceFailure.steps = L.steps := rfl
@[simp] theorem announceFailure_log : L.announceFailure.log = L.log := rfl
@[simp] theorem announceFailure_failures : L.announceFailure.failures = L.failures + 1 := rfl
@[simp] theorem announceFailure_attention : L.announceFailure.attention = L.attention := rfl

@[simp] theorem setAttention_preparation (axis : Axis) (raised : Bool) :
    (L.setAttention axis raised).preparation = L.preparation := rfl

@[simp] theorem setAttention_execution (axis : Axis) (raised : Bool) :
    (L.setAttention axis raised).execution = L.execution := rfl

@[simp] theorem setAttention_publication (axis : Axis) (raised : Bool) :
    (L.setAttention axis raised).publication = L.publication := rfl

@[simp] theorem setAttention_steps (axis : Axis) (raised : Bool) :
    (L.setAttention axis raised).steps = L.steps := rfl

@[simp] theorem setAttention_log (axis : Axis) (raised : Bool) :
    (L.setAttention axis raised).log = L.log := rfl

@[simp] theorem setAttention_failures (axis : Axis) (raised : Bool) :
    (L.setAttention axis raised).failures = L.failures := rfl

@[simp] theorem setAttention_attention (axis : Axis) (raised : Bool) :
    (L.setAttention axis raised).attention = Function.update L.attention axis raised := rfl

@[simp] theorem abandon_preparation : L.abandon.preparation = L.preparation := by
  unfold abandon
  split <;> rfl

@[simp] theorem abandon_execution : L.abandon.execution = L.execution := by
  unfold abandon
  split <;> rfl

@[simp] theorem abandon_steps : L.abandon.steps = L.steps := by
  unfold abandon
  split <;> rfl

@[simp] theorem abandon_failures : L.abandon.failures = L.failures := by
  unfold abandon
  split <;> rfl

@[simp] theorem abandon_attention : L.abandon.attention = L.attention := by
  unfold abandon
  split <;> rfl

theorem abandon_publication : L.abandon.publication =
    if L.publication = .pending ∨ L.publication = .publishing then .skipped
    else L.publication := by
  unfold abandon
  split <;> rfl

@[simp] theorem derive_preparation : L.derive.preparation = L.preparation := by
  unfold derive
  repeat' split
  all_goals rfl

@[simp] theorem derive_execution : L.derive.execution = L.execution := by
  unfold derive
  repeat' split
  all_goals rfl

@[simp] theorem derive_steps : L.derive.steps = L.steps := by
  unfold derive
  repeat' split
  all_goals rfl

@[simp] theorem derive_failures : L.derive.failures = L.failures := by
  unfold derive
  repeat' split
  all_goals rfl

theorem derive_publication : L.derive.publication =
    if L.publication.inFlight = true then strongest L.steps else L.publication := by
  unfold derive
  by_cases inFlight : L.publication.inFlight = true
  · by_cases same : L.publication = strongest L.steps
    · simp [same]
    · simp only [inFlight, same, ne_eq, not_false_eq_true, and_self, if_true]
      split <;> rfl
  · simp [inFlight]

@[simp] theorem reviseStep_preparation (key : StepKey) (f : StepState → StepState) :
    (L.reviseStep key f).preparation = L.preparation := by
  unfold reviseStep
  split <;> rfl

@[simp] theorem reviseStep_execution (key : StepKey) (f : StepState → StepState) :
    (L.reviseStep key f).execution = L.execution := by
  unfold reviseStep
  split <;> rfl

@[simp] theorem reviseStep_publication (key : StepKey) (f : StepState → StepState) :
    (L.reviseStep key f).publication = L.publication := by
  unfold reviseStep
  split <;> rfl

@[simp] theorem reviseStep_log (key : StepKey) (f : StepState → StepState) :
    (L.reviseStep key f).log = L.log := by
  unfold reviseStep
  split <;> rfl

@[simp] theorem reviseStep_failures (key : StepKey) (f : StepState → StepState) :
    (L.reviseStep key f).failures = L.failures := by
  unfold reviseStep
  split <;> rfl

@[simp] theorem reviseStep_attention (key : StepKey) (f : StepState → StepState) :
    (L.reviseStep key f).attention = L.attention := by
  unfold reviseStep
  split <;> rfl

theorem reviseStep_steps {key : StepKey} {s : StepState} (h : L.steps.row key = some s)
    (f : StepState → StepState) : (L.reviseStep key f).steps = L.steps.put key (f s) := by
  simp [reviseStep, h]

end Fields

theorem strongest_cases (steps : Table StepKey StepState) :
    strongest steps = .publishing ∨ strongest steps = .uncertain ∨
      strongest steps = .disconnected := by
  unfold strongest
  split
  · simp
  · split <;> simp

end Lifecycle

inductive Move where
  | idle
  | takePreparation
  | retryPreparation (code : Option String)
  | loseLease
  | endUnsubmitted (code : Option String)
  | endUncertain (code : Option String)
  | parkPreparation
  | resumePreparation
  /-- `stop` tells an abandonment, which also ends a moving execution, from
  giving up. -/
  | endParkedPreparation (code : String) (stop : Bool)
  | queueExecution
  | confirmSubmission
  | startExecution
  | succeedExecution
  | failExecution (code : Option String)
  | claimRecovery
  | parkExecution
  | resumeExecution
  | giveUpExecution
  | takePublication
  | publish
  | failPublication (retry : Bool) (code : Option String)
  | initializeSteps (keys : List StepKey)
  | grantStep (key : StepKey)
  | completeStep (key : StepKey)
  | reviseStep (key : StepKey) (revision : Revision)
  | endAtStep (key : StepKey) (code : Option String)
  | rederive
  | resumePublication
  | giveUpPublication
  | deliver (remaining : Axis → Bool)

namespace Move

open Lifecycle

def Enabled : Move → Lifecycle → Prop
  | idle, _ => True
  | takePreparation, L =>
    (L.preparation = .pending ∨ L.preparation = .uncertain) ∧ L.execution = .pending
  | retryPreparation _, L => L.preparation = .preparing
  | loseLease, L => L.preparation = .preparing
  | endUnsubmitted _, L => L.preparation = .preparing ∧ L.execution = .pending
  | endUncertain _, L => L.preparation = .preparing ∧ L.execution = .pending
  | parkPreparation, L => L.preparation = .preparing ∧ L.execution ≠ .pending
  | resumePreparation, L => L.preparation = .disconnected
  | endParkedPreparation _ _, L => L.preparation = .disconnected
  | queueExecution, L =>
    L.preparation = .preparing ∧ L.execution = .pending ∧ L.publication = .pending
  | confirmSubmission, L => L.execution = .uncertain ∧ L.publication = .pending
  | startExecution, L => L.execution = .queued
  | succeedExecution, L => L.execution = .queued ∨ L.execution = .running
  | failExecution _, L =>
    L.execution = .queued ∨ L.execution = .running ∨ L.execution = .uncertain
  | claimRecovery, L => L.execution = .uncertain
  | parkExecution, L => L.execution = .uncertain
  | resumeExecution, L => L.execution = .disconnected
  | giveUpExecution, L => L.execution = .disconnected
  | takePublication, L =>
    L.execution = .succeeded ∧ hasStep .disconnected L.steps = false ∧
      (L.publication = .pending ∨ L.publication = .publishing ∨ L.publication = .uncertain)
  | publish, L =>
    L.publication.inFlight = true ∧ ∀ key s, L.steps.row key = some s → s.status = .succeeded
  | failPublication _ _, L => L.publication.inFlight = true
  | initializeSteps _, L => L.publication.inFlight = true ∧ L.steps.keys = []
  | grantStep key, L =>
    L.publication.inFlight = true ∧ ∃ s, L.steps.row key = some s ∧ s.Grantable
  | completeStep key, L =>
    L.publication.inFlight = true ∧ ∃ s, L.steps.row key = some s ∧ s.status = .running
  | reviseStep key revision, L =>
    L.publication.inFlight = true ∧ ∃ s, L.steps.row key = some s ∧ revision.Applies s
  | endAtStep key _, L =>
    L.publication.inFlight = true ∧
      ∃ s, L.steps.row key = some s ∧ (Revision.fail (some false)).Applies s
  | rederive, _ => True
  | resumePublication, L => L.publication = .disconnected
  | giveUpPublication, L => L.publication = .disconnected
  | deliver remaining, L => ∀ axis, remaining axis = true → L.attention axis = true

/-- End an execution that is still moving. -/
def stopExecution (code : String) (L : Lifecycle) : Lifecycle :=
  if L.execution = .queued ∨ L.execution = .running ∨ L.execution = .uncertain then
    { L with execution := .failed }.record .execution L.execution.name .failed (some code)
  else L

def apply : Move → Lifecycle → Lifecycle
  | idle, L => L
  | takePreparation, L =>
    { L with preparation := .preparing }.record .preparation L.preparation.name .preparing none
  | retryPreparation code, L =>
    { L with preparation := .pending }.record .preparation .preparing .pending code
  | loseLease, L =>
    { L with preparation := .uncertain }.record .preparation .preparing .uncertain none
  | endUnsubmitted code, L =>
    ({ L with preparation := .failed, execution := .skipped }.record .preparation .preparing
      .failed code |>.record .execution .pending .skipped none).announceFailure.abandon
  | endUncertain code, L =>
    { L with preparation := .failed, execution := .uncertain }.record .preparation .preparing
      .failed code |>.record .execution .pending .uncertain (some "SUBMISSION_STATE_UNCERTAIN")
  | parkPreparation, L =>
    ({ L with preparation := .disconnected }.record .preparation .preparing .disconnected
      (some "EXECUTION_ALREADY_ADVANCED")).setAttention .preparation true
  | resumePreparation, L =>
    ({ L with preparation := .uncertain }.record .preparation .disconnected .uncertain
      (some "PREPARATION_RESUMED_BY_OPERATOR")).setAttention .preparation false
  | endParkedPreparation code stop, L =>
    let ended := ({ L with preparation := .failed }.record .preparation .disconnected .failed
      (some code)).announceFailure
    (if stop then stopExecution code ended else ended).abandon
  | queueExecution, L =>
    { L with preparation := .submitted, execution := .queued }.record .execution .pending .queued
      none |>.record .preparation .preparing .submitted none
  | confirmSubmission, L =>
    { L with execution := .queued }.record .execution .uncertain .queued none
  | startExecution, L =>
    { L with execution := .running }.record .execution .queued .running none
  | succeedExecution, L =>
    { L with execution := .succeeded }.record .execution L.execution.name .succeeded none
  | failExecution code, L =>
    ({ L with execution := .failed }.record .execution L.execution.name .failed
      code).announceFailure.abandon
  | claimRecovery, L =>
    L.record .execution .uncertain .uncertain (some "SUBMISSION_RECOVERY_CLAIMED")
  | parkExecution, L =>
    ({ L with execution := .disconnected }.record .execution .uncertain .disconnected
      (some "SUBMISSION_RECOVERY_EXHAUSTED")).setAttention .execution true
  | resumeExecution, L =>
    ({ L with execution := .uncertain }.record .execution .disconnected .uncertain
      (some "SUBMISSION_RECOVERY_RESUMED_BY_OPERATOR")).setAttention .execution false
  | giveUpExecution, L =>
    ({ L with execution := .failed }.record .execution .disconnected .failed
      (some "SUBMISSION_RECOVERY_ABANDONED_BY_OPERATOR")).announceFailure.abandon
  | takePublication, L =>
    { L with publication := .publishing }.record .publication L.publication.name .publishing
      (if L.publication = PublicationStatus.pending then none
        else some "PUBLICATION_LEASE_EXPIRED")
  | publish, L =>
    { L with publication := .published }.record .publication .publishing .published none
  -- The stored origin is `publishing` here and in `publish`, whatever it was.
  | failPublication true code, L =>
    { L with publication := .pending }.record .publication .publishing .pending code
  | failPublication false code, L =>
    ({ L with publication := .failed }.record .publication .publishing .failed
      code).announceFailure
  | initializeSteps keys, L =>
    { L with steps := keys.foldl (fun t key => t.put key StepState.fresh) L.steps }
  | grantStep key, L => L.reviseStep key StepState.grant
  | completeStep key, L => L.reviseStep key StepState.complete
  | reviseStep key revision, L => (L.reviseStep key revision.revise).derive
  | endAtStep key code, L =>
    let derived := (L.reviseStep key (Revision.fail (some false)).revise).derive
    ({ derived with publication := .failed }.record .publication derived.publication.name .failed
      code).announceFailure
  | rederive, L => L.derive
  | resumePublication, L =>
    ({ L with publication := .pending, steps := L.steps.mapRows StepState.resume }.record
      .publication .disconnected .pending
      (some "PUBLICATION_RESUMED_BY_OPERATOR")).setAttention .publication false
  | giveUpPublication, L =>
    ({ L with publication := .failed }.record .publication .disconnected .failed
      (some "PUBLICATION_ABANDONED_BY_OPERATOR")).announceFailure
  | deliver remaining, L => { L with attention := remaining }

theorem stopExecution_execution (code : String) (L : Lifecycle) :
    (stopExecution code L).execution =
      if L.execution = .queued ∨ L.execution = .running ∨ L.execution = .uncertain then .failed
      else L.execution := by
  rw [stopExecution]
  split <;> rfl

/-- The execution axis after a move. -/
def executionAfter : Move → Lifecycle → ExecutionStatus
  | endUnsubmitted _, _ => .skipped
  | endUncertain _, _ | resumeExecution, _ => .uncertain
  | queueExecution, _ | confirmSubmission, _ => .queued
  | startExecution, _ => .running
  | succeedExecution, _ => .succeeded
  | failExecution _, _ | giveUpExecution, _ => .failed
  | parkExecution, _ => .disconnected
  | endParkedPreparation code true, L => (stopExecution code L).execution
  | _, L => L.execution

theorem apply_execution (move : Move) (L : Lifecycle) :
    (move.apply L).execution = executionAfter move L := by
  cases move with
  | endParkedPreparation code stop =>
    cases stop with
    | false => simp [apply, executionAfter]
    | true =>
      simp only [apply, if_true, abandon_execution, stopExecution_execution, executionAfter]
      rfl
  | failPublication retry code => cases retry <;> rfl
  | endUnsubmitted code => simp [apply, executionAfter]
  | failExecution code => simp [apply, executionAfter]
  | giveUpExecution => simp [apply, executionAfter]
  | grantStep key => simp [apply, executionAfter]
  | completeStep key => simp [apply, executionAfter]
  | reviseStep key revision => simp [apply, executionAfter]
  | endAtStep key code => simp [apply, executionAfter]
  | rederive => simp [apply, executionAfter]
  | _ => rfl

end Move

/-- A run just admitted. -/
def admitted : Lifecycle where
  preparation := .preparing
  execution := .pending
  publication := .pending
  steps := Table.empty
  log := [⟨.execution, none, .pending, none⟩, ⟨.preparation, none, .preparing, none⟩,
    ⟨.publication, none, .pending, none⟩]
  failures := 0
  attention := fun _ => false

end Lifecycles
