import SecReviewBot.ThrowingPrograms
import SecReviewBot.ReviewRuns.PublicationStore
import SecReviewBot.ReviewRuns.PublicationClaimStore
import SecReviewBot.GithubIntegration.PublicationFailure

/-!
# The publication slice of `client.ts`

The connector works on the run it has claimed, so its state is that run's rows
with what it did on GitHub. A request to Review Runs runs one transaction and
comes back as its answer, as an HTTP error, or not at all; in the last case the
transaction may have committed.
-/

namespace ReviewRunsClient

open KeyedTables ReviewRunsSchema ReviewRunsTransactions ThrowingPrograms PublicationFailure
open PublicationStore (RemoteObject)

/-- A request without an answer from the service. -/
inductive Fault where
  | unreachable (message : String)
  | timedOut (operation : String)
  | internal

def Fault.error : Fault → PublishError
  | .unreachable message => .plain message
  | .timedOut operation =>
    { PublishError.plain s!"Review Runs {operation} request timed out." with
      code := some "REVIEW_RUNS_REQUEST_TIMEOUT" }
  | .internal => { PublishError.plain "Internal error" with status := some 500 }

inductive Reply where
  | answered
  | lost (committed : Bool) (fault : Fault)

def Reply.commits : Reply → Bool
  | .answered => true
  | .lost committed _ => committed

/-- The error handler of `server-surface.ts`. A `DeterministicReviewRunError` is
a 409 with its code; the other errors of these operations are opaque. -/
def httpError (e : StoreError) : PublishError :=
  match e.code with
  | some code => { PublishError.plain e.message with code := some code, status := some 409 }
  | none => Fault.internal.error

inductive Renewal where
  | start | step (key : StepKey) | finish
  deriving DecidableEq

inductive Reading where
  | deliveries | summary | step (key : StepKey)
  deriving DecidableEq

/-- Why the coordinator reports a failed publication. -/
inductive Conclusion where
  | invalidContext | incomplete | failed
  deriving DecidableEq

/-- The requests of one pass; each is sent at most once. -/
inductive Request where
  | claimNextPublication
  | renewPublicationClaim (point : Renewal)
  | initializePublicationSteps
  | listPublicationSteps (point : Reading)
  | requirePublicationStepClaim (key : StepKey)
  | completePublicationStep (key : StepKey)
  | settleExhaustedPublicationStep (key : StepKey)
  | failPublicationStep (key : StepKey)
  | completePublication
  | failPublication (conclusion : Conclusion)
  deriving DecidableEq

/-- `delivery_id` of one `RepositoryDelivery`; the rest is content. -/
structure Delivery where
  deliveryId : String
  deriving DecidableEq

/-- What the stored context and result ask to be published. -/
inductive Plan where
  | issueReview (shouldOpenPr : Bool)
  | pullRequestReview
  | repositoryReview (workspaceRef : String) (deliveries : List Delivery)

/-- What one pass meets: the parsed work, GitHub's answers for each step, and
which requests to Review Runs are answered. -/
structure Pass where
  contextError : Option PublishError
  plan : Except PublishError Plan
  find : StepKey → Except PublishError (Option RemoteObject)
  effect : StepKey → Except PublishError (Option RemoteObject)
  reply : Request → Reply

/-- What the connector has asked GitHub for. -/
inductive RemoteCall where
  | find (key : StepKey)
  | effect (key : StepKey)
  deriving DecidableEq

/-- `lost` is the flag of the heartbeat. -/
structure World where
  tx : Tx
  calls : List RemoteCall
  lost : Bool

abbrev Publishing := ExceptT PublishError (StateM World)

/-- The request is answered. -/
def perform {α : Type} (body : Tx → Outcome α) : Publishing α := ExceptT.mk fun w =>
  match body w.tx with
  | .ok (answer, tx) => (.ok answer, { w with tx := tx })
  | .error e => (.error (httpError e), w)

def request {α : Type} (pass : Pass) (r : Request) (body : Tx → Outcome α) : Publishing α :=
  match pass.reply r with
  | .answered => perform body
  | .lost false fault => throw fault.error
  | .lost true fault => do
    let _ ← attempt (perform body)
    throw fault.error

/-- The claimed work. -/
structure Work where
  runId : RunId
  token : Token

section Operations

variable (pass : Pass) (work : Work)

def renewPublicationClaim (point : Renewal) : Publishing Bool :=
  request pass (.renewPublicationClaim point) (PublicationStore.renewClaim work.token)

def initializePublicationSteps (stepKeys : List StepKey) : Publishing Unit :=
  request pass .initializePublicationSteps
    (PublicationStore.initializePublicationSteps work.runId work.token stepKeys)

def listPublicationSteps (point : Reading) : Publishing (Table StepKey PublicationStep) :=
  request pass (.listPublicationSteps point) fun tx => .ok (tx.run.steps, tx)

/-- A refusal is thrown by the store after it has committed. -/
def requirePublicationStepClaim (stepKey : StepKey) : Publishing Unit := do
  match ← request pass (.requirePublicationStepClaim stepKey)
      (PublicationStore.requirePublicationStepClaim work.token stepKey) with
  | .granted => pure ()
  | .refused e => throw (httpError e)

def completePublicationStep (stepKey : StepKey) (remote : RemoteObject) : Publishing Bool :=
  request pass (.completePublicationStep stepKey)
    (PublicationStore.completePublicationStep work.token stepKey remote)

def settleExhaustedPublicationStep (stepKey : StepKey) (found : Option RemoteObject) :
    Publishing Bool :=
  request pass (.settleExhaustedPublicationStep stepKey)
    (PublicationStore.settleExhaustedPublicationStep work.token stepKey found)

def failPublicationStep (stepKey : StepKey) (failure : Failure) (retry : Bool) :
    Publishing Bool :=
  request pass (.failPublicationStep stepKey)
    (PublicationStore.failPublicationStep work.runId work.token stepKey failure (some retry))

def completePublication : Publishing Bool :=
  request pass .completePublication (PublicationStore.complete work.token)

def failPublication (conclusion : Conclusion) (failure : Failure) (retry : Bool) :
    Publishing Bool :=
  request pass (.failPublication conclusion) (PublicationStore.fail work.token failure retry)

end Operations

/-- One call to GitHub, with the answer this pass meets. -/
def remote (call : RemoteCall) (answer : Except PublishError (Option RemoteObject)) :
    Publishing (Option RemoteObject) := do
  modify fun w => { w with calls := w.calls ++ [call] }
  match answer with
  | .ok found => pure found
  | .error e => throw e

section Ends

variable {α : Type} {w : World} {Q : α → World → Prop} {E : PublishError → World → Prop}

theorem ends_perform {body : Tx → Outcome α} :
    Ends (perform body) w Q E ↔
      match body w.tx with
      | .ok (answer, tx) => Q answer { w with tx := tx }
      | .error e => E (httpError e) w := by
  have run : (perform body).run.run w = match body w.tx with
      | .ok (answer, tx) => (.ok answer, { w with tx := tx })
      | .error e => (.error (httpError e), w) := rfl
  simp only [Ends, run]
  cases body w.tx <;> rfl

theorem final_perform {body : Tx → Outcome α} {answer : α} {tx : Tx}
    (result : body w.tx = .ok (answer, tx)) : final (perform body) w = { w with tx := tx } := by
  refine ends_final (P := fun t => t = { w with tx := tx }).mp ?_
  rw [ends_perform, result]

theorem request_answered {pass : Pass} {r : Request} (h : pass.reply r = .answered)
    (body : Tx → Outcome α) : request pass r body = perform body := by
  simp only [request, h]

theorem ends_request {pass : Pass} {r : Request} {body : Tx → Outcome α}
    (answered : (pass.reply r).commits = true → Ends (perform body) w Q E)
    (faulted : (pass.reply r).commits = false → ∀ fault : Fault, E fault.error w)
    (committed : (pass.reply r).commits = true →
      ∀ fault : Fault, E fault.error (final (perform body) w)) :
    Ends (request pass r body) w Q E := by
  simp only [request]
  split
  · next reply => exact answered (by rw [reply]; rfl)
  · next fault reply => exact (ends_throw _).mpr (faulted (by rw [reply]; rfl) fault)
  · next fault reply =>
    rw [ends_bind, ends_attempt]
    exact ends_final.mpr (committed (by rw [reply]; rfl) fault)

theorem keeps_request {P : World → Prop} {pass : Pass} {r : Request} {body : Tx → Outcome α}
    (kept : ∀ w answer tx, P w → body w.tx = .ok (answer, tx) → P { w with tx := tx }) :
    Keeps P (request pass r body) := by
  intro w h
  have performed : Ends (perform body) w (fun _ => P) (fun _ => P) := by
    rw [ends_perform]
    cases result : body w.tx with
    | error e => exact h
    | ok answer => exact kept w answer.1 answer.2 h result
  exact ends_request (fun _ => performed) (fun _ _ => h) fun _ _ => ends_final.mp performed

theorem ends_remote {call : RemoteCall} {answer : Except PublishError (Option RemoteObject)}
    {Q : Option RemoteObject → World → Prop} :
    Ends (remote call answer) w Q E ↔
      match answer with
      | .ok found => Q found { w with calls := w.calls ++ [call] }
      | .error e => E e { w with calls := w.calls ++ [call] } := by
  cases answer with
  | ok found => exact Iff.rfl
  | error e => exact Iff.rfl

end Ends

theorem fault_retried (fault : Fault) :
    (classifyPublicationFailure fault.error).retry = true := by
  cases fault with
  | unreachable message => exact plain_retried message
  | timedOut operation =>
    simp [Fault.error, classifyPublicationFailure, PublishError.plain,
      isDeterministicExecutionPublishError, isPublicationStepExhausted,
      deterministicReviewRunsPublicationCodes]
  | internal =>
    simp [Fault.error, classifyPublicationFailure, PublishError.plain,
      isDeterministicExecutionPublishError, isPublicationStepExhausted]

theorem fault_not_exhausted (fault : Fault) : isPublicationStepExhausted fault.error = false := by
  cases fault <;> simp [Fault.error, PublishError.plain, isPublicationStepExhausted]

theorem fault_not_lost (fault : Fault) : fault.error.claimLost = false := by
  cases fault <;> rfl

end ReviewRunsClient
