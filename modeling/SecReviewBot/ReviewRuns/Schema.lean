import SecReviewBot.JsonValues
import SecReviewBot.KeyedTables

/-!
# Rows of the coordination database

Columns follow `001_initial_coordination_schema.sql`. A run owns its three
axis rows, its publication steps, its input-bundle candidates, its events and
its notices: every one of these tables references `(run_id, connector_id)` of
the trunk, so one record per run represents them without loss. Columns that
no store operation reads back (`created_at` of the axes, `source_platform`)
are left out.

`clock_timestamp()` is a number of milliseconds. A claim token is a number
drawn from a counter, because all that is used of a random UUID is that it
never repeats.
-/

namespace ReviewRunsSchema

open JsonValues KeyedTables

abbrev Timestamp := Nat
abbrev Token := Nat
abbrev RunId := String
abbrev ConnectorId := String
abbrev StepKey := String
abbrev Digest := String
abbrev NoticeId := Nat

inductive PreparationStatus where
  | pending | preparing | uncertain | disconnected | submitted | failed
  deriving DecidableEq, Repr

inductive ExecutionStatus where
  | pending | queued | running | uncertain | disconnected | succeeded | skipped | failed
  deriving DecidableEq, Repr

inductive PublicationStatus where
  | pending | publishing | uncertain | disconnected | published | failed | skipped
  deriving DecidableEq, Repr

inductive StepStatus where
  | pending | running | uncertain | disconnected | succeeded | failed | terminalFailed
  deriving DecidableEq, Repr

inductive CandidateStatus where
  | reserved | present | selected | abandoned
  deriving DecidableEq, Repr

inductive NoticeStatus where
  | pending | delivering | delivered | failed | superseded
  deriving DecidableEq, Repr

inductive NoticeKind where
  | failure | attention
  deriving DecidableEq, Repr

inductive Axis where
  | preparation | execution | publication
  deriving DecidableEq, Repr

inductive Workflow where
  | issueReview | pullRequestReview | repositoryReview
  deriving DecidableEq, Repr

/-- The words `from_status` and `to_status` of an event are drawn from: the
three axes share some of them. -/
inductive StatusName where
  | pending | preparing | submitted | queued | running | publishing | published
  | uncertain | disconnected | succeeded | skipped | failed
  deriving DecidableEq, Repr

def PreparationStatus.name : PreparationStatus → StatusName
  | .pending => .pending
  | .preparing => .preparing
  | .uncertain => .uncertain
  | .disconnected => .disconnected
  | .submitted => .submitted
  | .failed => .failed

def ExecutionStatus.name : ExecutionStatus → StatusName
  | .pending => .pending
  | .queued => .queued
  | .running => .running
  | .uncertain => .uncertain
  | .disconnected => .disconnected
  | .succeeded => .succeeded
  | .skipped => .skipped
  | .failed => .failed

def PublicationStatus.name : PublicationStatus → StatusName
  | .pending => .pending
  | .publishing => .publishing
  | .uncertain => .uncertain
  | .disconnected => .disconnected
  | .published => .published
  | .failed => .failed
  | .skipped => .skipped

/-- The states in which a publisher may hold the claim:
`status IN ('publishing','uncertain','disconnected')`. -/
def PublicationStatus.inFlight : PublicationStatus → Bool
  | .publishing | .uncertain | .disconnected => true
  | _ => false

structure Preparation where
  inputVersion : String
  input : Json
  status : PreparationStatus
  availableAt : Timestamp
  claimToken : Option Token
  claimedAt : Option Timestamp
  attemptCount : Nat
  failureCode : Option String
  failureMessage : Option String
  lastFailureCode : Option String
  lastFailureMessage : Option String
  startedAt : Option Timestamp
  finishedAt : Option Timestamp
  disconnectReason : Option String
  updatedAt : Timestamp
  deriving DecidableEq

inductive ArtifactStatus where
  | available | unavailable | failed
  deriving DecidableEq, Repr

/-- `ArtifactStorage`, also the looser `ExecutionArtifactStorage` the
Execution API reports before it is normalized. -/
structure ArtifactStorage where
  status : ArtifactStatus
  artifact : Option Json
  errorCode : Option String
  message : Option String
  deriving DecidableEq

/-- `workflowResult = none` is SQL `NULL`; a stored JSON `null` is
`some .null`. -/
structure Execution where
  status : ExecutionStatus
  input : Option Json
  startedAt : Option Timestamp
  finishedAt : Option Timestamp
  failureCode : Option String
  failureMessage : Option String
  artifactStorage : Option ArtifactStorage
  workflowResult : Option Json
  claimToken : Option Token
  claimedAt : Option Timestamp
  attemptCount : Nat
  observedAt : Timestamp
  updatedAt : Timestamp
  deriving DecidableEq

structure Publication where
  input : Json
  status : PublicationStatus
  claimToken : Option Token
  claimedAt : Option Timestamp
  failureCode : Option String
  failureMessage : Option String
  startedAt : Option Timestamp
  finishedAt : Option Timestamp
  updatedAt : Timestamp
  deriving DecidableEq

structure PublicationStep where
  status : StepStatus
  attemptCount : Nat
  recoveryAttemptCount : Nat
  lastAttemptAt : Option Timestamp
  claimedBy : Option Token
  remoteObjectId : Option String
  remoteObjectUrl : Option String
  failureCode : Option String
  failureMessage : Option String
  updatedAt : Timestamp
  deriving DecidableEq

structure InputBundleCandidate where
  reference : Json
  input : Json
  publishContext : Json
  reservedBy : Token
  status : CandidateStatus
  createdAt : Timestamp
  updatedAt : Timestamp
  deriving DecidableEq

structure ReviewRunEvent where
  eventId : Nat
  axis : Axis
  fromStatus : Option StatusName
  toStatus : StatusName
  reasonCode : Option String
  occurredAt : Timestamp
  deriving DecidableEq

structure RunNotice where
  kind : NoticeKind
  sourceEventId : Nat
  status : NoticeStatus
  axis : Axis
  reasonCode : Option String
  commentUrl : Option String
  claimToken : Option Token
  claimedAt : Option Timestamp
  updatedAt : Timestamp
  deriving DecidableEq

/-- One run with everything its rows reference. `events` is in `event_id`
order: events are only ever appended. -/
structure Run where
  connectorId : ConnectorId
  workflow : Workflow
  ingressKind : Option String
  ingressKey : Option String
  preparation : Preparation
  execution : Execution
  publication : Publication
  steps : Table StepKey PublicationStep
  candidates : Table Digest InputBundleCandidate
  events : List ReviewRunEvent
  notices : Table NoticeId RunNotice

/-- The stored status of one axis. -/
def Run.status (run : Run) : Axis → StatusName
  | .preparation => run.preparation.status.name
  | .execution => run.execution.status.name
  | .publication => run.publication.status.name

/-- `review_run_events` of one axis, in `event_id` order. -/
def Run.eventsOf (run : Run) (axis : Axis) : List ReviewRunEvent :=
  run.events.filter fun e => e.axis = axis

/-- The database with its identity counters and the clock. -/
structure Database where
  clock : Timestamp
  nextToken : Token
  nextEventId : Nat
  nextNoticeId : NoticeId
  runs : Table RunId Run

def Database.empty : Database where
  clock := 0
  nextToken := 0
  nextEventId := 0
  nextNoticeId := 0
  runs := Table.empty

end ReviewRunsSchema
