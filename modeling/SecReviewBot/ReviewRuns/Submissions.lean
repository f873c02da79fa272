import SecReviewBot.ReviewRuns.Coordination

/-!
# `prepared-submission.ts`, `submission-recovery.ts` and `submitExecutionRun`

The boundary between the store and the Execution. A task is one call of
`submitPreparedRun` or `recoverReviewRunSubmission`, stopped between two of its
awaits; a request is one HTTP request of `submitExecutionRun`, which the
Execution may accept or refuse at any time after it was sent, whether or not
the task still waits for it. Tasks may crash anywhere. The Execution never
answers a request that it accepted with a refusal.
-/

namespace Submissions

open JsonValues ReviewRunsSchema ReviewRunsTransactions Coordination TransitionSystems

/-- What a call throws: an `ExecutionSubmissionUncertainError`, or any other
error with the `code` it carries, if that is a string. -/
inductive Thrown where
  | uncertain (message : String)
  | other (code : Option String) (message : String)

def thrownBy (e : StoreError) : Thrown := .other e.code e.message

/-- The failure recorded for an error. `classifyError` of the recovery is the
case where nothing was accepted. -/
def Thrown.failure (executionAccepted : Bool) : Thrown → Failure
  | .uncertain message =>
    { code := some PreparationStore.submissionStateUncertain, message := message }
  | .other code message =>
    { code := some (if executionAccepted then PreparationStore.submissionStateUncertain
        else code.getD "REVIEW_START_FAILED")
      message := message }

/-- An answer that is neither a success nor worth another try. -/
structure Refusal where
  httpStatus : Nat
  code : Option Json
  message : Option String
  deriving DecidableEq

/-- `executionError`: only a string survives as the error's `code`. -/
def executionError (r : Refusal) : Thrown :=
  .other
    (match r.code with
      | none | some .null => some "EXECUTION_API_ERROR"
      | some (.str code) => some code
      | some _ => none)
    (r.message.getD s!"Execution returned HTTP {r.httpStatus}.")

inductive RequestStatus where
  | inFlight
  | accepted
  | refused (refusal : Refusal)
  deriving DecidableEq

structure Request where
  runId : RunId
  status : RequestStatus

/-- What comes back for a request: a success whose body `parseResponse` takes
or not, the refusal, a status 429 or 5xx, or no answer at all. -/
inductive Answer where
  | success (valid : Bool)
  | refusal
  | unavailable (httpStatus : Nat)
  | transportError (transient : Bool)

/-- Where `submitExecutionRun` stands in the loop of `request`. -/
inductive Submit where
  | sending (attempt : Nat)
  | waiting (attempt : Nat) (request : Nat)

inductive SubmitResult where
  | again (attempt : Nat)
  | returned
  | threw (error : Thrown)

def isRetryableStatus (httpStatus : Nat) : Bool := httpStatus = 429 || 500 ≤ httpStatus

/-- Another try while the budget lasts, then the error. -/
def retryOr (retries attempt : Nat) (message : String) : SubmitResult :=
  if attempt < retries then .again (attempt + 1) else .threw (.uncertain message)

/-- How the loop goes on, if the request can have this answer. -/
def submitExecutionRun (runId : RunId) (retries attempt : Nat) :
    RequestStatus → Answer → Option SubmitResult
  | .accepted, .success true => some .returned
  | .accepted, .success false => some (.threw (.uncertain
      (s!"Execution accepted run {runId}, " ++ "but returned an invalid creation response.")))
  | .refused refusal, .refusal =>
    if isRetryableStatus refusal.httpStatus then none else some (.threw (executionError refusal))
  | _, .unavailable httpStatus =>
    if isRetryableStatus httpStatus then
      some (retryOr retries attempt
        s!"Execution submission returned HTTP {httpStatus} for run {runId}.")
    else none
  | _, .transportError true =>
    some (retryOr retries attempt s!"Execution submission state is uncertain for run {runId}.")
  | _, .transportError false =>
    some (.threw (.uncertain s!"Execution submission state is uncertain for run {runId}."))
  | _, _ => none

/-- `submitPreparedRun`: before each await, or in its `catch`. -/
inductive PreparedPhase where
  | saving
  | submitting (submit : Submit)
  | queueing
  | cleaning (error : Failure) (retry : Bool)
  | finished

/-- `recoverReviewRunSubmission`, with the claim token once it has one. -/
inductive RecoveryPhase where
  | claiming
  | submitting (token : Token) (submit : Submit)
  | completing (token : Token)
  | deferring (token : Token)
  | failing (token : Token) (error : Failure)
  | finished

inductive Work where
  | prepared (token : Token) (context input : Json) (phase : PreparedPhase)
  | recovery (input : Option Json) (phase : RecoveryPhase)

/-- `retries` is `EXECUTION_API_REQUEST_RETRIES` of the process. -/
structure Task where
  store : Store
  runId : RunId
  retries : Nat
  work : Work

/-- The store call a task is about to make. -/
def Task.action (task : Task) : Option RunAction :=
  match task.work with
  | .prepared token context input .saving =>
    some (.savePreparedSubmission token context input)
  | .prepared token context _ .queueing => some (.markQueued token context)
  | .prepared token _ _ (.cleaning error retry) =>
    some (.failPreparation token error { retry := retry, retryAfterMs := none })
  | .recovery _ .claiming => some .claimSubmissionRecovery
  | .recovery _ (.completing token) => some (.completeSubmissionRecovery token)
  | .recovery _ (.deferring token) => some (.recordUnknownRecoveryOutcome token)
  | .recovery _ (.failing token error) => some (.failSubmissionRecovery token error)
  | _ => none

/-- The answer of a store call arrives, or the connection breaks before or after
the transaction committed. -/
inductive Reply where
  | answered
  | lost (committed : Bool) (error : StoreError)

def Reply.commits : Reply → Bool
  | .answered => true
  | .lost committed _ => committed

/-- What the task sees of the result its call has. -/
def Reply.deliver {α : Type} (result : Except StoreError α) : Reply → Except StoreError α
  | .answered => result
  | .lost _ e => .error e

def saveResult (task : Task) (token : Token) (context input : Json) (db : Database) :
    Except StoreError Unit :=
  (transaction task.store task.runId
    (.error { message := s!"Preparation claim was lost for {task.runId}." })
    (SubmissionTransitionStore.savePreparedSubmission task.store task.runId token context input)
    db).1

def markQueuedResult (task : Task) (token : Token) (context : Json) (db : Database) :
    Except StoreError Unit :=
  (transaction task.store task.runId
    (.error (SubmissionTransitionStore.runDoesNotExist task.runId))
    (SubmissionTransitionStore.markQueued task.runId token context) db).1

def claimRecoveryResult (task : Task) (db : Database) : Except StoreError (Option Token) :=
  (transaction task.store task.runId (.ok none)
    (ExecutionStore.claimSubmissionRecovery task.store) db).1

def completeRecoveryResult (task : Task) (token : Token) (db : Database) :
    Except StoreError Bool :=
  (transaction task.store task.runId (.ok false)
    (SubmissionTransitionStore.completeSubmissionRecovery token) db).1

def inputMissing : Failure where
  code := some "SUBMISSION_RECOVERY_INPUT_MISSING"
  message := "The persisted Execution input is missing; this submission cannot be recovered."

/-- The phase after a store call made on `db`. The `catch` of `submitPreparedRun`
allows a retry only before the submission started; errors of its own call are
dropped. -/
def Task.afterCall (task : Task) (db : Database) (reply : Reply) : Work :=
  match task.work with
  | .prepared token context input .saving =>
    .prepared token context input
      (match reply.deliver (saveResult task token context input db) with
        | .ok _ => .submitting (.sending 0)
        | .error e => .cleaning ((thrownBy e).failure false) true)
  | .prepared token context input .queueing =>
    .prepared token context input
      (match reply.deliver (markQueuedResult task token context db) with
        | .ok _ => .finished
        | .error e => .cleaning ((thrownBy e).failure true) false)
  | .prepared token context input (.cleaning _ _) => .prepared token context input .finished
  | .recovery input .claiming =>
    .recovery input
      (match reply.deliver (claimRecoveryResult task db) with
        | .ok (some token) =>
          if input.isSome then .submitting token (.sending 0) else .failing token inputMissing
        | .ok none | .error _ => .finished)
  | .recovery input (.completing token) =>
    .recovery input
      (match reply.deliver (completeRecoveryResult task token db) with
        | .ok _ => .finished
        | .error e => .failing token ((thrownBy e).failure false))
  | .recovery input (.deferring _) | .recovery input (.failing _ _) => .recovery input .finished
  | work => work

def Work.submit : Work → Option Submit
  | .prepared _ _ _ (.submitting submit) | .recovery _ (.submitting _ submit) => some submit
  | _ => none

/-- Stay in the submission, at another place. -/
def Work.withSubmit (submit : Submit) : Work → Work
  | .prepared token context input (.submitting _) =>
    .prepared token context input (.submitting submit)
  | .recovery input (.submitting token _) => .recovery input (.submitting token submit)
  | work => work

def Work.afterSubmit (result : SubmitResult) : Work → Work
  | .prepared token context input (.submitting _) =>
    .prepared token context input
      (match result with
        | .again attempt => .submitting (.sending attempt)
        | .returned => .queueing
        | .threw error => .cleaning (error.failure false) false)
  | .recovery input (.submitting token _) =>
    .recovery input
      (match result with
        | .again attempt => .submitting token (.sending attempt)
        | .returned => .completing token
        | .threw (.uncertain _) => .deferring token
        | .threw error => .failing token (error.failure false))
  | work => work

def Work.crashed : Work → Work
  | .prepared token context input _ => .prepared token context input .finished
  | .recovery input _ => .recovery input .finished

structure World where
  db : Database
  tasks : List Task
  requests : List Request

inductive Event where
  /-- Any operation of any store: polls, other calls, and time. -/
  | operation (call : Call)
  | submitPreparedRun (store : Store) (runId : RunId) (retries : Nat) (token : Token)
      (context input : Json)
  | recoverReviewRunSubmission (store : Store) (runId : RunId) (retries : Nat)
      (input : Option Json)
  | storeCall (task : Nat) (reply : Reply)
  | send (task : Nat)
  | receive (task : Nat) (answer : Answer)
  | crash (task : Nat)
  | accept (request : Nat)
  | refuse (request : Nat) (refusal : Refusal)

namespace World

def empty : World := ⟨Database.empty, [], []⟩

/-- The operation on the database, if the event has one. -/
def calls (w : World) : Event → Option Call
  | .operation call => some call
  | .storeCall i reply =>
    match w.tasks[i]? with
    | none => none
    | some task =>
      if reply.commits then
        task.action.map fun action => (task.store, .onRun task.runId action)
      else none
  | _ => none

def dbAfter (w : World) (event : Event) : Database :=
  match w.calls event with
  | none => w.db
  | some call => call.2.execute call.1 w.db

/-- What the task `i` becomes. -/
def taskAfter (w : World) (task : Task) : Event → Work
  | .storeCall _ reply => task.afterCall w.db reply
  | .send _ =>
    match task.work.submit with
    | some (.sending attempt) => task.work.withSubmit (.waiting attempt w.requests.length)
    | _ => task.work
  | .receive _ answer =>
    match task.work.submit with
    | some (.waiting attempt request) =>
      match w.requests[request]? with
      | none => task.work
      | some r =>
        match submitExecutionRun task.runId task.retries attempt r.status answer with
        | none => task.work
        | some result => task.work.afterSubmit result
    | _ => task.work
  | .crash _ => task.work.crashed
  | _ => task.work

def setWork (w : World) (i : Nat) (event : Event) : List Task :=
  match w.tasks[i]? with
  | none => w.tasks
  | some task => w.tasks.set i { task with work := w.taskAfter task event }

/-- `submitPreparedRun` starts with `getRun` and ends there if there is no run. -/
def tasksAfter (w : World) : Event → List Task
  | .submitPreparedRun store runId retries token context input =>
    if (find w.db store runId).isSome then
      w.tasks ++ [⟨store, runId, retries, .prepared token context input .saving⟩]
    else w.tasks
  | .recoverReviewRunSubmission store runId retries input =>
    w.tasks ++ [⟨store, runId, retries, .recovery input .claiming⟩]
  | .storeCall i reply => w.setWork i (.storeCall i reply)
  | .send i => w.setWork i (.send i)
  | .receive i answer => w.setWork i (.receive i answer)
  | .crash i => w.setWork i (.crash i)
  | _ => w.tasks

/-- The Execution decides about a request once. -/
def settleRequest (w : World) (request : Nat) (status : RequestStatus) : List Request :=
  match w.requests[request]? with
  | some ⟨runId, .inFlight⟩ => w.requests.set request ⟨runId, status⟩
  | _ => w.requests

def requestsAfter (w : World) : Event → List Request
  | .send i =>
    match w.tasks[i]? with
    | none => w.requests
    | some task =>
      match task.work.submit with
      | some (.sending _) => w.requests ++ [⟨task.runId, .inFlight⟩]
      | _ => w.requests
  | .accept request => w.settleRequest request .accepted
  | .refuse request refusal => w.settleRequest request (.refused refusal)
  | _ => w.requests

def step (w : World) (event : Event) : World :=
  ⟨w.dbAfter event, w.tasksAfter event, w.requestsAfter event⟩

end World

/-- Any interleaving of submissions, recoveries, crashes, the Execution's
decisions and store operations. -/
def saga : System World Event where
  initial := World.empty
  step := World.step

end Submissions
