import SecReviewBot.GithubIntegration.InputStorage
import SecReviewBot.ReviewRuns.Submissions

/-!
# `input-bundle-publication.ts`

The preparation owners of all runs around the two stores. An owner is one call
of `publishAndSubmitInputBundle` or `recoverInputBundlePublication`, stopped
before one of its awaits; it holds a claim token, which may have lapsed or
passed to another owner at any time. Its last call starts `submitPreparedRun`
in Review Runs, where the saga of submissions and recoveries takes over. Claims,
expiry, time and every other operation of Review Runs may come at any moment.
-/

namespace InputBundlePublication

open JsonValues ReviewRunsSchema ReviewRunsTransactions Coordination TransitionSystems
open InputBundleCandidateStore InputStorage
open Submissions (Task Reply)

/-- `{ ...value, [key]: replacement }` of an object that has the member. -/
def replaceMember (key : String) (replacement : Json) : Json → Json
  | .obj members => .obj (members.map fun m => if m.1 = key then (m.1, replacement) else m)
  | value => value

/-- A reference as the contract has it: these four members and no other. -/
def readReference (value : Json) : Option InputBundleReference :=
  match value.member "uri", value.member "digest", value.member "media_type",
      value.member "size_bytes" with
  | some (.str uri), some (.str digest), some (.str mediaType), some (.num size) =>
    let reference : InputBundleReference := ⟨uri, digest, mediaType, size.num⟩
    if reference.toJson = value then some reference else none
  | _, _, _, _ => none

def maxWorkflowInputBytes : Nat := 1500000

variable {Body : Type}

def assertWorkflowInputFits (runtime : Runtime Body) (input : Json) (workflow : String) :
    Except String Unit :=
  let bytes := runtime.byteLength input
  if maxWorkflowInputBytes < bytes then
    .error (s!"{workflow} input is {bytes} bytes, which exceeds the workflow input limit of "
      ++ s!"{maxWorkflowInputBytes}")
  else .ok ()

/-- `publishAndSubmitInputBundle` up to its first await. `source` is the content
of the local file. -/
def prepareBundle (runtime : Runtime Body) (config : Config) (runId : RunId)
    (context input : Json) (source : Body) : Except String (PreparedBundle Body) :=
  match (input.member "input_bundle").bind readReference with
  | none => .error "Prepared input is missing its input bundle."
  | some reference =>
    match publishedInputBundleReference config reference runId with
    | .error e => .error e
    | .ok published =>
      let publishedInput := replaceMember "input_bundle" published.toJson input
      match assertWorkflowInputFits runtime publishedInput "prepared review" with
      | .error e => .error e
      | .ok _ => .ok ⟨reference, source, published, publishedInput, context⟩

/-- The store instance that serves an owner. -/
structure Service where
  connectorId : ConnectorId
  claimTimeoutMs : Nat

def Service.store (runtime : Runtime Body) (service : Service) : Store where
  connectorId := service.connectorId
  claimTimeoutMs := service.claimTimeoutMs
  parseUrl := runtime.parseUrl

/-- A candidate as `listInputBundleCandidates` returns it. -/
abbrev Listed := Digest × InputBundleCandidate

inductive OwnerWork (Body : Type) where
  -- `publishAndSubmitInputBundle`
  | reserving (bundle : PreparedBundle Body)
  | uploading (bundle : PreparedBundle Body) (upload : Upload)
  | settling (bundle : PreparedBundle Body)
  -- `recoverInputBundlePublication`
  | listing
  | inspecting (candidate : Listed) (rest : List Listed) (look : Look)
  | abandoning (candidate : Listed) (rest : List Listed)
  | confirming (candidate : Listed)
  -- both
  | submitting (context input : Json)
  | finished (result : Except String Bool)

structure Owner (Body : Type) where
  service : Service
  config : Config
  runId : RunId
  token : Token
  work : OwnerWork Body

def intentOf (bundle : PreparedBundle Body) : InputPublicationIntent where
  reference := bundle.published
  input := bundle.input
  publishContext := bundle.context

/-- The writing store call an owner is about to make. -/
def Owner.action (owner : Owner Body) : Option RunAction :=
  match owner.work with
  | .reserving bundle => some (.reserveCandidate owner.token (intentOf bundle))
  | .settling bundle => some (.settleCandidate owner.token bundle.published.digest .present)
  | .abandoning candidate _ => some (.settleCandidate owner.token candidate.1 .abandoned)
  | .confirming candidate => some (.settleCandidate owner.token candidate.1 .present)
  | _ => none

section Calls

variable (runtime : Runtime Body) (owner : Owner Body)

def claimLost : StoreError where
  message := s!"Preparation claim was lost for {owner.runId}."

def reserveResult (bundle : PreparedBundle Body) (db : Database) :
    Except StoreError InputBundleCandidate :=
  (transaction (owner.service.store runtime) owner.runId (.error (claimLost owner))
    (reserve (owner.service.store runtime) owner.runId owner.token (intentOf bundle)) db).1

def settleResult (digest : Digest) (settlement : Settlement) (db : Database) :
    Except StoreError InputBundleCandidate :=
  (transaction (owner.service.store runtime) owner.runId (.error (claimLost owner))
    (settle (owner.service.store runtime) owner.runId owner.token digest settlement) db).1

def listResult (db : Database) : Except StoreError (List Listed) :=
  (transaction (owner.service.store runtime) owner.runId (.error (claimLost owner))
    (list (owner.service.store runtime) owner.runId owner.token) db).1

/-- The head of the loop over the listed candidates. -/
def nextCandidate : List Listed → OwnerWork Body
  | [] => .finished (.ok false)
  | candidate :: rest => .inspecting candidate rest .head

def afterUploaded (bundle : PreparedBundle Body) : Uploaded → OwnerWork Body
  | .goesOn upload => .uploading bundle upload
  | .published => .settling bundle
  | .threw error => .finished (.error error)

/-- What follows a store call made on `db`. -/
def Owner.afterCall (db : Database) (reply : Reply) : OwnerWork Body :=
  match owner.work with
  | .reserving bundle =>
    match reply.deliver (reserveResult runtime owner bundle db) with
    | .ok _ => afterUploaded bundle (beginUpload runtime owner.config bundle)
    | .error e => .finished (.error e.message)
  | .settling bundle =>
    match reply.deliver (settleResult runtime owner bundle.published.digest .present db) with
    | .ok _ => .submitting bundle.context bundle.input
    | .error e => .finished (.error e.message)
  | .listing =>
    match reply.deliver (listResult runtime owner db) with
    | .ok candidates => nextCandidate candidates
    | .error e => .finished (.error e.message)
  | .abandoning candidate rest =>
    match reply.deliver (settleResult runtime owner candidate.1 .abandoned db) with
    | .ok _ => nextCandidate rest
    | .error e => .finished (.error e.message)
  | .confirming candidate =>
    match reply.deliver (settleResult runtime owner candidate.1 .present db) with
    | .ok _ => .submitting candidate.2.publishContext candidate.2.input
    | .error e => .finished (.error e.message)
  | work => work

/-- What follows the answer about one candidate. -/
def afterExists (candidate : Listed) (rest : List Listed) : Seen Bool → OwnerWork Body
  | .next look => .inspecting candidate rest look
  | .threw error => .finished (.error error)
  | .result false =>
    if candidate.2.status = .selected then
      .finished (.error "Selected input bundle is unavailable; cannot replace its input.")
    else .abandoning candidate rest
  | .result true =>
    if candidate.2.status = .selected then
      .submitting candidate.2.publishContext candidate.2.input
    else .confirming candidate

/-- One call to the object store. -/
def Owner.objectCall (storage : Storage Body) (answer : StorageAnswer) :
    OwnerWork Body × Storage Body :=
  match owner.work with
  | .uploading bundle upload =>
    let (uploaded, after) :=
      stepUpload runtime owner.config owner.runId bundle storage answer upload
    (afterUploaded bundle uploaded, after)
  | .inspecting candidate rest look =>
    match readReference candidate.2.reference with
    | none => (.finished (.error "Invalid URL"), storage)
    | some reference =>
      (afterExists candidate rest
        (inputBundleExists runtime owner.config storage.objects reference look answer), storage)
  | work => (work, storage)

end Calls

structure World (Body : Type) where
  runs : Submissions.World
  storage : Storage Body
  owners : List (Owner Body)

/-- The operations of Review Runs that owners and the saga do not make. -/
def elsewhere : Operation → Bool
  | .onRun _ (.reserveCandidate _ _) | .onRun _ (.settleCandidate _ _ _)
  | .onRun _ (.savePreparedSubmission _ _ _) => false
  | _ => true

/-- Something the saga does with tasks and requests that exist. -/
def goesOn : Submissions.Event → Bool
  | .storeCall _ _ | .send _ | .receive _ _ | .crash _ | .accept _ | .refuse _ _ => true
  | _ => false

inductive Event (Body : Type) where
  | operation (call : Call) (other : elsewhere call.2 = true)
  | saga (event : Submissions.Event) (goes : goesOn event = true)
  | publishAndSubmitInputBundle (service : Service) (config : Config) (runId : RunId)
      (token : Token) (context input : Json) (source : Body)
  | recoverInputBundlePublication (service : Service) (config : Config) (runId : RunId)
      (token : Token)
  /-- A recovery pass takes up a run it has read from the database. -/
  | recoverReviewRunSubmission (store : Store) (runId : RunId) (retries : Nat)
  | storeCall (owner : Nat) (reply : Reply)
  | objectCall (owner : Nat) (answer : StorageAnswer)
  /-- The client has validated the context before it sends the request. -/
  | submitPreparedRun (owner : Nat) (retries : Nat) (validated : Json)
  | crash (owner : Nat)
  | land (put : Nat)

namespace World

variable (runtime : Runtime Body)

def empty : World Body := ⟨Submissions.World.empty, ⟨Objects.empty, []⟩, []⟩

def setWork (w : World Body) (i : Nat) (work : OwnerWork Body) : List (Owner Body) :=
  match w.owners[i]? with
  | none => w.owners
  | some owner => w.owners.set i { owner with work := work }

/-- The operation on the database behind a store call of an owner. -/
def afterStoreCall (w : World Body) (owner : Owner Body) (reply : Reply) : Submissions.World :=
  match owner.action with
  | none => w.runs
  | some action =>
    if reply.commits then
      w.runs.step (.operation (owner.service.store runtime, .onRun owner.runId action))
    else w.runs

/-- `run.execution_input` of the run that was read. -/
def executionInput (w : World Body) (store : Store) (runId : RunId) : Option Json :=
  (find w.runs.db store runId).bind fun run => run.execution.input

def newOwner (service : Service) (config : Config) (runId : RunId) (token : Token)
    (work : OwnerWork Body) : Owner Body where
  service := service
  config := config
  runId := runId
  token := token
  work := work

def step (w : World Body) : Event Body → World Body
  | .operation call _ => { w with runs := w.runs.step (.operation call) }
  | .saga event _ => { w with runs := w.runs.step event }
  | .publishAndSubmitInputBundle service config runId token context input source =>
    match prepareBundle runtime config runId context input source with
    | .error _ => w
    | .ok bundle =>
      { w with owners := w.owners ++ [newOwner service config runId token (.reserving bundle)] }
  | .recoverInputBundlePublication service config runId token =>
    { w with owners := w.owners ++ [newOwner service config runId token .listing] }
  | .recoverReviewRunSubmission store runId retries =>
    { w with runs := w.runs.step (.recoverReviewRunSubmission store runId retries
        (w.executionInput store runId)) }
  | .storeCall i reply =>
    match w.owners[i]? with
    | none => w
    | some owner =>
      { w with runs := w.afterStoreCall runtime owner reply
               owners := w.setWork i (owner.afterCall runtime w.runs.db reply) }
  | .objectCall i answer =>
    match w.owners[i]? with
    | none => w
    | some owner =>
      { w with storage := (owner.objectCall runtime w.storage answer).2
               owners := w.setWork i (owner.objectCall runtime w.storage answer).1 }
  | .submitPreparedRun i retries validated =>
    match w.owners[i]? with
    | none => w
    | some owner =>
      match owner.work with
      | .submitting _ input =>
        { w with
          runs := w.runs.step (.submitPreparedRun (owner.service.store runtime) owner.runId
            retries owner.token validated input)
          owners := w.setWork i (.finished (.ok true)) }
      | _ => w
  | .crash i => { w with owners := w.setWork i (.finished (.error "crashed")) }
  | .land put => { w with storage := w.storage.land runtime put }

end World

/-- Any interleaving of owners, crashes, late uploads, the saga and all other
operations of Review Runs. -/
def publication (runtime : Runtime Body) : System (World Body) (Event Body) where
  initial := World.empty
  step := World.step runtime

inductive Sender where
  | submitPreparedRun | submissionRecovery
  deriving DecidableEq

/-- A request to the Execution, by whom and with which input. -/
structure Submission where
  sender : Sender
  runId : RunId
  input : Json
  deriving DecidableEq

/-- The request a task is about to send. -/
def requestOf (task : Task) : Option Submission :=
  match task.work with
  | .prepared _ _ input (.submitting (.sending _)) =>
    some ⟨.submitPreparedRun, task.runId, input⟩
  | .recovery (some input) (.submitting _ (.sending _)) =>
    some ⟨.submissionRecovery, task.runId, input⟩
  | _ => none

/-- The request that a step sends. -/
def submits (w : World Body) : Event Body → Option Submission
  | .saga (.send i) _ => (w.runs.tasks[i]?).bind requestOf
  | _ => none

end InputBundlePublication
