import SecReviewBot.ReviewRuns.Submissions

/-!
# The recovery pass of `server-runtime.ts`

`recoverSubmission` first calls `concludeExhaustedSubmissionRecovery`, which
reads the attempt count in one statement and disconnects the run in a second
one, and then `recoverReviewRunSubmission`. A pass is one such call, stopped
between two of its awaits; from its last part on it is a recovery task of the
saga. Any number of coordinators run passes at once.
-/

namespace RecoveryPasses

open JsonValues ReviewRunsSchema ReviewRunsTransactions Coordination TransitionSystems
open Submissions

/-- `MAX_SUBMISSION_RECOVERY_ATTEMPTS`. -/
def maxSubmissionRecoveryAttempts : Nat := 8

inductive PassPhase where
  | counting
  | concluding
  | finished

structure Pass where
  store : Store
  runId : RunId
  retries : Nat
  input : Option Json
  phase : PassPhase

structure PassWorld where
  world : World
  passes : List Pass

inductive PassEvent where
  /-- Everything the saga has, but for starting a recovery: only a pass does. -/
  | saga (event : Event)
  | recoverSubmission (store : Store) (runId : RunId) (retries : Nat) (input : Option Json)
  | readAttemptCount (pass : Nat)
  | disconnectExhausted (pass : Nat) (reply : Reply)
  /-- The process dies, or the read throws. -/
  | abort (pass : Nat)

/-- `submissionRecoveryAttemptCount`. -/
def submissionRecoveryAttemptCount (store : Store) (runId : RunId) (db : Database) : Option Nat :=
  (find db store runId).map (·.execution.attemptCount)

/-- `attempts === null || attempts < MAX_SUBMISSION_RECOVERY_ATTEMPTS`. -/
def withinBudget : Option Nat → Bool
  | none => true
  | some attempts => attempts < maxSubmissionRecoveryAttempts

def disconnectCall (pass : Pass) : Call :=
  (pass.store, .onRun pass.runId
    (.disconnectExhaustedSubmissionRecovery maxSubmissionRecoveryAttempts))

def disconnectResult (pass : Pass) (db : Database) : Except StoreError Bool :=
  (transaction pass.store pass.runId (.ok false)
    (ExecutionStore.disconnectExhaustedSubmissionRecovery pass.store
      maxSubmissionRecoveryAttempts) db).1

namespace PassWorld

def setPhase (pw : PassWorld) (i : Nat) (pass : Pass) (phase : PassPhase) : PassWorld :=
  { pw with passes := pw.passes.set i { pass with phase := phase } }

/-- The pass goes on with `recoverReviewRunSubmission`. -/
def recover (pw : PassWorld) (i : Nat) (pass : Pass) : PassWorld :=
  { pw.setPhase i pass .finished with
    world := pw.world.step
      (.recoverReviewRunSubmission pass.store pass.runId pass.retries pass.input) }

def readAttemptCount (pw : PassWorld) (i : Nat) : PassWorld :=
  match pw.passes[i]? with
  | some pass =>
    match pass.phase with
    | .counting =>
      if withinBudget (submissionRecoveryAttemptCount pass.store pass.runId pw.world.db) then
        pw.recover i pass
      else pw.setPhase i pass .concluding
    | _ => pw
  | none => pw

def disconnectExhausted (pw : PassWorld) (i : Nat) (reply : Reply) : PassWorld :=
  match pw.passes[i]? with
  | some pass =>
    match pass.phase with
    | .concluding =>
      let concluded : PassWorld :=
        if reply.commits then
          { pw with world := pw.world.step (.operation (disconnectCall pass)) }
        else pw
      match reply.deliver (disconnectResult pass pw.world.db) with
      | .ok false => concluded.recover i pass
      | .ok true | .error _ => concluded.setPhase i pass .finished
    | _ => pw
  | none => pw

def abort (pw : PassWorld) (i : Nat) : PassWorld :=
  match pw.passes[i]? with
  | some pass => pw.setPhase i pass .finished
  | none => pw

def step (pw : PassWorld) : PassEvent → PassWorld
  | .saga (.recoverReviewRunSubmission _ _ _ _) => pw
  | .saga event => { pw with world := pw.world.step event }
  | .recoverSubmission store runId retries input =>
    { pw with passes := pw.passes ++ [⟨store, runId, retries, input, .counting⟩] }
  | .readAttemptCount i => pw.readAttemptCount i
  | .disconnectExhausted i reply => pw.disconnectExhausted i reply
  | .abort i => pw.abort i

end PassWorld

def passes : System PassWorld PassEvent where
  initial := ⟨World.empty, []⟩
  step := PassWorld.step

/-- A recovery task is about to invoke `submit`; further tries of one invocation
do not count. -/
def invokesSubmit (id : RunId) (w : World) : Event → Bool
  | .send i =>
    match w.tasks[i]? with
    | none => false
    | some task =>
      task.runId = id && match task.work with
        | .recovery _ (.submitting _ (.sending 0)) => true
        | _ => false
  | _ => false

def executionStatus (id : RunId) (db : Database) : Option ExecutionStatus :=
  (db.runs.row id).map (·.execution.status)

/-- An operator handed the run back to automatic recovery. -/
def resumed (id : RunId) (before after : Database) : Bool :=
  executionStatus id before = some .disconnected && executionStatus id after = some .uncertain

/-- The number of invocations since the last resume, after one more event. -/
def recount (id : RunId) (before after : World) (event : Event) (replays : Nat) : Nat :=
  if resumed id before.db after.db then 0
  else if invokesSubmit id before event then replays + 1 else replays

/-- The passes, with the number of times recovery invoked `submit` for the run
since its last resume. -/
def countedPasses (id : RunId) : System (PassWorld × Nat) PassEvent where
  initial := (passes.initial, 0)
  step := fun s event =>
    (s.1.step event, match event with
      | .saga inner => recount id s.1.world (s.1.step event).world inner s.2
      | _ => if resumed id s.1.world.db (s.1.step event).world.db then 0 else s.2)

end RecoveryPasses
