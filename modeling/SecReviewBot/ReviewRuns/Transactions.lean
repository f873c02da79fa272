import SecReviewBot.ReviewRuns.Schema

/-!
# Transactions on one run

Every store write runs between `BEGIN` and `COMMIT` and touches the rows of
one run, so its body is a function on that run together with the counters it
may draw from. A body that throws leaves the database as it was.

The helpers shared by several stores are here: `review-run-events.ts`,
`run-notices.ts` (the two transaction-aware functions), `execution-skip.ts`
and `publication-abandon.ts`.
-/

namespace ReviewRunsTransactions

open JsonValues KeyedTables ReviewRunsSchema

/-- The parts of a WHATWG URL that the stores read. -/
structure Url where
  protocol : String
  pathname : String
  search : String
  hash : String
  username : String
  password : String
  port : String
  deriving DecidableEq

/-- One store instance. `parseUrl` is the runtime's `new URL(..)`, absent when
it throws. -/
structure Store where
  connectorId : ConnectorId
  claimTimeoutMs : Nat
  parseUrl : String → Option Url

structure StoreError where
  message : String
  code : Option String := none
  statusCode : Option Nat := none
  deriving DecidableEq

/-- The `error` argument of the failing operations. -/
structure Failure where
  code : Option String
  message : String
  deriving DecidableEq

/-- What the body of a transaction sees and writes. -/
structure Tx where
  now : Timestamp
  nextToken : Token
  nextEventId : Nat
  nextNoticeId : NoticeId
  run : Run

abbrev Outcome (α : Type) := Except StoreError (α × Tx)

@[simp] def updatePreparation (f : Preparation → Preparation) (tx : Tx) : Tx :=
  { tx with run := { tx.run with preparation := f tx.run.preparation } }

@[simp] def updateExecution (f : Execution → Execution) (tx : Tx) : Tx :=
  { tx with run := { tx.run with execution := f tx.run.execution } }

@[simp] def updatePublication (f : Publication → Publication) (tx : Tx) : Tx :=
  { tx with run := { tx.run with publication := f tx.run.publication } }

@[simp] def updateSteps
    (f : Table StepKey PublicationStep → Table StepKey PublicationStep) (tx : Tx) : Tx :=
  { tx with run := { tx.run with steps := f tx.run.steps } }

@[simp] def updateCandidates
    (f : Table Digest InputBundleCandidate → Table Digest InputBundleCandidate)
    (tx : Tx) : Tx :=
  { tx with run := { tx.run with candidates := f tx.run.candidates } }

@[simp] def updateNotices (f : Table NoticeId RunNotice → Table NoticeId RunNotice)
    (tx : Tx) : Tx :=
  { tx with run := { tx.run with notices := f tx.run.notices } }

/-- `claimed_at <= clock_timestamp() - timeout`; `NULL` compares to nothing. -/
def leaseLapsed (store : Store) (now : Timestamp) : Option Timestamp → Bool
  | none => false
  | some claimedAt => claimedAt + store.claimTimeoutMs ≤ now

/-- `claimed_at > clock_timestamp() - timeout`. -/
def leaseLive (store : Store) (now : Timestamp) : Option Timestamp → Bool
  | none => false
  | some claimedAt => now < claimedAt + store.claimTimeoutMs

/-- `crypto.randomUUID()`. -/
@[simp] def randomUUID (tx : Tx) : Token × Tx :=
  (tx.nextToken, { tx with nextToken := tx.nextToken + 1 })

/-- The appended row's `event_id` is `tx.nextEventId`. -/
def appendEvent (axis : Axis) (fromStatus : Option StatusName) (toStatus : StatusName)
    (reasonCode : Option String) (tx : Tx) : Tx :=
  { tx with
    nextEventId := tx.nextEventId + 1
    run := { tx.run with
      events := tx.run.events ++
        [⟨tx.nextEventId, axis, fromStatus, toStatus, reasonCode, tx.now⟩] } }

/-- `ON CONFLICT (source_event_id) DO NOTHING`. The event was appended in this
transaction, so only this run could hold a notice for it. -/
def queueRunNotice (sourceEventId : Nat) (kind : NoticeKind) (axis : Axis)
    (reasonCode : Option String) (tx : Tx) : Tx :=
  if tx.run.notices.any fun n => n.sourceEventId = sourceEventId then tx
  else
    { tx with
      nextNoticeId := tx.nextNoticeId + 1
      run := { tx.run with
        notices := tx.run.notices.put tx.nextNoticeId
          { kind := kind, sourceEventId := sourceEventId, status := .pending, axis := axis,
            reasonCode := reasonCode, commentUrl := none, claimToken := none,
            claimedAt := none, updatedAt := tx.now } } }

/-- Append an event and queue the notice it causes. -/
def appendEventWithNotice (axis : Axis) (fromStatus : Option StatusName)
    (toStatus : StatusName) (reasonCode : Option String) (kind : NoticeKind)
    (noticeReason : Option String) (tx : Tx) : Tx :=
  queueRunNotice tx.nextEventId kind axis noticeReason
    (appendEvent axis fromStatus toStatus reasonCode tx)

/-- An attention notice that may still be handed to a connector. -/
def isLiveAttention (axis : Axis) (n : RunNotice) : Bool :=
  n.axis = axis && n.kind = .attention && (n.status = .pending || n.status = .delivering)

def supersedeNotice (axis : Axis) (now : Timestamp) (n : RunNotice) : RunNotice :=
  if isLiveAttention axis n then
    { n with status := .superseded, claimToken := none, claimedAt := none, updatedAt := now }
  else n

def supersedeRunAttentionNotices (axis : Axis) (tx : Tx) : Tx :=
  updateNotices (fun notices => notices.mapRows (supersedeNotice axis tx.now)) tx

/-- `skipPendingExecutions` for one run: absent when the execution was no
longer pending and nothing was written. -/
def skipPendingExecutions (tx : Tx) : Option Tx :=
  if tx.run.execution.status = .pending then
    some (updateExecution (fun e =>
      { e with status := .skipped, failureCode := none, failureMessage := none,
               finishedAt := some tx.now, observedAt := tx.now, updatedAt := tx.now }) tx)
  else none

/-- A candidate that is not selected is abandoned once its run stops preparing. -/
def abandonCandidate (now : Timestamp) (c : InputBundleCandidate) : InputBundleCandidate :=
  if c.status = .reserved || c.status = .present then
    { c with status := .abandoned, updatedAt := now }
  else c

def abandonCandidates (tx : Tx) : Tx :=
  updateCandidates (fun cs => cs.mapRows (abandonCandidate tx.now)) tx

/-- `UPDATE publication_steps SET claimed_by=NULL WHERE claimed_by IS NOT NULL`. -/
def releaseStep (now : Timestamp) (s : PublicationStep) : PublicationStep :=
  if s.claimedBy.isSome then { s with claimedBy := none, updatedAt := now } else s

/-- Both `abandonInFlightPublication` and, for one id, its batch form. Returns
the status the publication had, absent when it was already concluded. -/
def abandonInFlightPublication (tx : Tx) : Option PublicationStatus × Tx :=
  let abandoned := abandonCandidates tx
  let previous := tx.run.publication.status
  if previous = .pending || previous = .publishing then
    (some previous,
      updateSteps (fun steps => steps.mapRows (releaseStep tx.now))
        (updatePublication (fun p =>
          { p with status := .skipped, claimToken := none, claimedAt := none,
                   finishedAt := some tx.now, failureCode := none, failureMessage := none,
                   updatedAt := tx.now }) abandoned))
  else (none, abandoned)

/-- The audit event each caller appends for the publication it abandoned. -/
def appendAbandonEvent (previous : Option PublicationStatus) (tx : Tx) : Tx :=
  match previous with
  | none => tx
  | some status =>
    appendEvent .publication (some status.name) .skipped (some "PUBLICATION_ABANDONED") tx

/-- `WHERE run_id=$1 AND connector_id=$2`. -/
def find (db : Database) (store : Store) (runId : RunId) : Option Run :=
  (db.runs.row runId).filter fun run => run.connectorId = store.connectorId

def begin (db : Database) (run : Run) : Tx where
  now := db.clock
  nextToken := db.nextToken
  nextEventId := db.nextEventId
  nextNoticeId := db.nextNoticeId
  run := run

def commit (db : Database) (runId : RunId) (tx : Tx) : Database where
  clock := db.clock
  nextToken := tx.nextToken
  nextEventId := tx.nextEventId
  nextNoticeId := tx.nextNoticeId
  runs := db.runs.put runId tx.run

/-- Run `body` on the rows of one run. `missing` is the answer when the run
does not exist for this connector: every statement then matches no row. -/
def transaction {α : Type} (store : Store) (runId : RunId) (missing : Except StoreError α)
    (body : Tx → Outcome α) (db : Database) : Except StoreError α × Database :=
  match find db store runId with
  | none => (missing, db)
  | some run =>
    match body (begin db run) with
    | .error e => (.error e, db)
    | .ok (answer, tx) => (.ok answer, commit db runId tx)

end ReviewRunsTransactions
