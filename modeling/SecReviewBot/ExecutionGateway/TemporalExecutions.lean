import SecReviewBot.ExecutionGateway.Fingerprints
import SecReviewBot.ReviewRuns.InputBundleCandidateStore
import SecReviewBot.TransitionSystems

/-!
# Executions started by the gateway

`temporal-execution-client.ts`. Any number of calls of `start` run at once; each asks Temporal
three times at most, and anything may happen between two answers. Temporal creates a workflow
with its memo if and only if none with that id exists, and keeps both.
-/

namespace TemporalExecutions

open JsonValues Fingerprints TransitionSystems
open InputBundleCandidateStore (isDigest)

/-- The status of a description: a name, or an object that may have one. -/
inductive Reported
  | text (name : String)
  | object (name : Option String)
  | undefined

def statusName : Reported → String
  | .text name => name
  | .object name => name.getD "UNKNOWN"
  | .undefined => "UNKNOWN"

/-- A workflow as Temporal describes it, and what it returned. -/
structure Execution where
  memo : Json
  status : Reported
  response : List (String × Json)

inductive ExecutionStatus
  | queued
  | running
  | succeeded
  | failed
  deriving DecidableEq

structure ExecutionRecord where
  runId : String
  workflow : Option String := none
  status : ExecutionStatus
  result : Option Json := none
  error : Option Json := none
  memoryProcessing : Option Json := none
  artifactStorage : Option Json := none

/-- The parts of a WHATWG URL that the client reads. -/
structure Url where
  protocol : String
  hostname : String
  pathname : String
  username : String
  password : String
  port : String
  search : String
  hash : String

/-- What the client has from elsewhere: `new URL`, and the schemas that results are validated
with, which answer the error. -/
structure Client where
  platform : Platform
  parseUrl : String → Option Url
  validateExecutionResult : String → Json → Option String

def executionError (code message : String) : Json :=
  .obj [("category", .str "runtime"), ("code", .str code), ("message", .str message),
    ("retryable", .bool false), ("details", .obj [])]

/-- `String(category)`, as far as it may be the name of a category. -/
def categoryText : Json → Option String
  | .str text => some text
  | .arr [item] => categoryText item
  | _ => none

def categories : List String := ["input", "workflow", "llm", "runtime", "internal"]

def isText : Option Json → Bool
  | some (.str _) => true
  | _ => false

def isExecutionError : Option Json → Bool
  | some (.obj error) =>
    ((Json.obj error).member "category").any (fun category =>
        (categoryText category).any fun text => text ∈ categories) &&
      isText ((Json.obj error).member "code") && isText ((Json.obj error).member "message") &&
      ((Json.obj error).member "retryable").any (fun retryable =>
        retryable = .bool true || retryable = .bool false) &&
      ((Json.obj error).member "details").all Json.isObject
  | _ => false

/-- `Number.isSafeInteger(size) && size >= 0`. -/
def isSize : Json → Bool
  | .num size => size.den = 1 && 0 ≤ size.num && size.num ≤ 9007199254740991
  | _ => false

/-- The kind, media type, digest and size are those of a diagnostic bundle. -/
def artifactUri (artifact : Json) : Option String :=
  match artifact.member "uri", artifact.member "digest", artifact.member "size_bytes" with
  | some (.str uri), some (.str digest), some size =>
    if artifact.member "kind" = some (.str "diagnostic_bundle") ∧
        artifact.member "media_type" = some (.str "application/tar+zstd") ∧
        isDigest digest = true ∧ isSize size = true
    then some uri else none
  | _, _, _ => none

def namesBundle (uri : Url) (runId : String) : Bool :=
  uri.protocol = "s3:" && uri.hostname ≠ "" &&
    uri.pathname = "/runs/" ++ runId ++ "/artifacts/diagnostic-tree.v1.tar.zst" &&
    uri.username = "" && uri.password = "" && uri.port = "" && uri.search = "" && uri.hash = ""

def parseRunDiagnosticArtifact (client : Client) (value : Json) (runId : String) :
    Except String Json :=
  if value.member "status" ≠ some (.str "available") then
    .error "Execution response is missing artifact_storage."
  else
    let artifact := (value.member "artifact").getD .null
    match artifactUri artifact with
    | none => .error "Execution response has malformed artifact metadata."
    | some text =>
      match client.parseUrl text with
      | none => .error "Invalid URL"
      | some uri =>
        if namesBundle uri runId then
          .ok (.obj [("status", .str "available"),
            ("artifact", .obj [("kind", .str "diagnostic_bundle"), ("uri", .str text),
              ("media_type", .str "application/tar+zstd"),
              ("digest", (artifact.member "digest").getD .null),
              ("size_bytes", (artifact.member "size_bytes").getD .null)])])
        else .error "Execution response has an invalid diagnostic artifact URI."

/-- The workflow that the memo names; an empty name counts as none. -/
def workflowOf (memo : Json) : Option String :=
  match memo.member "workflow" with
  | some (.str workflow) => if workflow ≠ "" then some workflow else none
  | _ => none

/-- `typeof value === 'object' && value !== null`, which arrays are as well. -/
def isObjectType : Json → Bool
  | .obj _ | .arr _ => true
  | _ => false

def unavailable : Json := .obj [("status", .str "unavailable")]

/-- The record of a completed workflow. -/
def completed (client : Client) (runId : String) (workflow : Option String)
    (response : List (String × Json)) : ExecutionRecord :=
  let invalid (storage : Json) (message : String) : ExecutionRecord :=
    { runId := runId, workflow := workflow, status := .failed, artifactStorage := some storage
      error := some (executionError "EXECUTION_RESPONSE_INVALID" message) }
  match (Json.obj response).member "ok", (Json.obj response).member "result" with
  | some (.bool true), some result =>
    match workflow with
    | none => invalid unavailable "Completed execution is missing its workflow identity."
    | some name =>
      match client.validateExecutionResult name result with
      | some message => invalid unavailable message
      | none =>
        match parseRunDiagnosticArtifact client
            (((Json.obj response).member "artifact_storage").getD .null) runId with
        | .error message =>
          invalid (.obj [("status", .str "failed"),
            ("error_code", .str "ARTIFACT_REFERENCE_INVALID"),
            ("message", .str "Execution returned an invalid run diagnostic artifact.")]) message
        | .ok storage =>
          { runId := runId, workflow := workflow, status := .succeeded, result := some result
            artifactStorage := some storage
            memoryProcessing := ((Json.obj response).member "memory_processing").filter isObjectType }
  | _, _ =>
    { runId := runId, workflow := workflow, status := .failed
      artifactStorage := some unavailable
      error := some (
        if isExecutionError ((Json.obj response).member "error") then
          ((Json.obj response).member "error").getD .null
        else executionError "EXECUTION_RESPONSE_INVALID" "Invalid workflow response.") }

/-- What `get` makes of a description. -/
def recordOf (client : Client) (runId : String) (execution : Execution) : ExecutionRecord :=
  let workflow := workflowOf execution.memo
  if statusName execution.status = "RUNNING" then
    { runId := runId, workflow := workflow, status := .running }
  else if statusName execution.status = "COMPLETED" then
    completed client runId workflow execution.response
  else
    { runId := runId, workflow := workflow, status := .failed
      artifactStorage := some unavailable
      error := some (executionError "EXECUTION_FAILED"
        ("Temporal workflow ended with status " ++ statusName execution.status ++ ".")) }

/-- Where a call is: the question it asks Temporal next, or its end. -/
inductive Phase
  | starting
  /-- The id is taken; `get` looks at the run. -/
  | refused
  /-- `get` found this; the memo is read next. -/
  | compared (existing : Option ExecutionRecord)
  /-- The workflow is created; `get` looks at it. -/
  | started
  | returned (record : ExecutionRecord)
  /-- `ExecutionRunConflictError` -/
  | conflicts (requestedWorkflow : String) (existingWorkflow : Option String)
  /-- Any other error of Temporal or of the connection. -/
  | raised

structure Call where
  request : ExecutionWorkflowInput
  phase : Phase

structure World where
  executions : String → Option Execution := fun _ => none
  /-- The ids of the workflows in the order they were created. -/
  created : List String := []
  calls : List Call := []

inductive Input
  /-- A request that `validateExecutionWorkflowInput` accepts. -/
  | call (request : ExecutionWorkflowInput)
  /-- Temporal answers what the call asks. -/
  | answer (i : Nat)
  /-- The call gets an error instead; a start may have taken effect. -/
  | fail (i : Nat) (tookEffect : Bool)
  /-- The workflow goes on. -/
  | progress (runId : String) (status : Reported) (response : List (String × Json))

def memoOf (client : Client) (request : ExecutionWorkflowInput) : Json :=
  .obj [("workflow", .str request.workflow),
    ("request_fingerprint", .str (fingerprint client.platform request))]

/-- Temporal's `start`: nothing happens when the id is taken. A closed execution keeps its id,
since no retention period ends here. -/
def World.create (w : World) (client : Client) (request : ExecutionWorkflowInput) : World :=
  match w.executions request.runId with
  | some _ => w
  | none =>
    { w with
      executions := Function.update w.executions request.runId
        (some ⟨memoOf client request, .text "RUNNING", []⟩)
      created := w.created ++ [request.runId] }

/-- How a call goes on when Temporal answers it. -/
def nextPhase (client : Client) (w : World) (request : ExecutionWorkflowInput) : Phase → Phase
  | .starting => if (w.executions request.runId).isSome then .refused else .started
  | .refused => .compared ((w.executions request.runId).map (recordOf client request.runId))
  | .compared existing =>
    match w.executions request.runId with
    | none => .raised
    | some execution =>
      match existing with
      | some found =>
        if execution.memo.member "request_fingerprint" =
            some (.str (fingerprint client.platform request)) then .returned found
        else .conflicts request.workflow found.workflow
      | none => .conflicts request.workflow none
  | .started =>
    .returned (((w.executions request.runId).map (recordOf client request.runId)).getD
      { runId := request.runId, workflow := some request.workflow, status := .queued })
  | phase => phase

def isOver : Phase → Bool
  | .returned _ | .conflicts .. | .raised => true
  | _ => false

/-- A start that reaches Temporal. -/
def World.startWorkflow (w : World) (client : Client) (call : Call) : World :=
  match call.phase with
  | .starting => w.create client call.request
  | _ => w

def World.setCall (w : World) (i : Nat) (call : Call) : World :=
  { w with calls := w.calls.set i call }

def step (client : Client) (w : World) : Input → World
  | .call request => { w with calls := w.calls ++ [⟨request, .starting⟩] }
  | .answer i =>
    match w.calls[i]? with
    | none => w
    | some call =>
      (w.startWorkflow client call).setCall i
        { call with phase := nextPhase client w call.request call.phase }
  | .fail i tookEffect =>
    match w.calls[i]? with
    | none => w
    | some call =>
      if isOver call.phase then w
      else (if tookEffect then w.startWorkflow client call else w).setCall i
        { call with phase := .raised }
  | .progress runId status response =>
    match w.executions runId with
    | none => w
    | some execution =>
      { w with
        executions := Function.update w.executions runId
          (some { execution with status := status, response := response }) }

def gateway (client : Client) : System World Input where
  initial := {}
  step := step client

end TemporalExecutions
