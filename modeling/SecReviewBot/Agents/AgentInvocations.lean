import SecReviewBot.Agents.WriterOutcomes

/-!
# Recorded invocations

`invoke_agent_runtime_graph` runs an agent and hands every event of its stream to the transcript
writer. Whatever becomes of the agent or the writer, the held messages are flushed and the
recording ends.
-/

namespace AgentInvocations

open AgentTranscript JsonValues ThrowingPrograms TrajectoryRecords TrajectoryWriter

/-- An event of the stream. An update of the graph's state carries the message lists of its
nodes; any other event carries none. -/
structure Streamed where
  event : ExecutionEvent
  updates : List (List Observed)

/-- How the run of the agent ends. -/
inductive Ending
  | completed
  | failed
  | interrupted

def Ending.status : Ending → String
  | .completed => "completed"
  | .failed => "failed"
  | .interrupted => "interrupted"

/-- The agent's name and no more is known of the message of the user. -/
def userContext (agentName : String) : Context := { agent := some (.str agentName) }

def updateContext (agentName : String) (event : ExecutionEvent) : Context where
  agent := some (.str agentName)
  runId := some (.str event.runId)
  parentIds := some event.parentIds

/-- One pass of the loop over the stream. The updates of inner graphs are not the
conversation's. -/
def recordStreamed (agentName : String) (streamed : Streamed) : Recording Unit := do
  writeExecutionEvent streamed.event
  if streamed.event.parentIds ≠ [] then pure () else
    streamed.updates.forM fun messages =>
      deferMessages (some messages) (updateContext agentName streamed.event)

def invokeAgent (agentName : String) (events : List Streamed) : Recording Unit :=
  events.forM (recordStreamed agentName)

/-- The `status` of the recording: an error of the writer fails the invocation. -/
def statusOf (ending : Ending) : Except String Unit → String
  | .ok _ => ending.status
  | .error _ => "failed"

/-- What `invoke_agent_runtime_graph` makes of its writer when the agent streams these events and
then ends. -/
def invokeAgentRuntimeGraph (agentName : String) (userMessage : Message) (events : List Streamed)
    (ending : Ending) : Recording Unit := do
  deferMessages (some [.message userMessage]) (userContext agentName)
  writeEvent .modelCallsStart []
  let result ← attempt (invokeAgent agentName events)
  flushPendingMessages none
  writeEvent .modelCallsEnd [("status", .str (statusOf ending result))]
  raised result

/-- A message list without the marks of removed messages. -/
def messagesOf (entries : List Observed) : List Message :=
  entries.filterMap fun
    | .removeMessage => none
    | .message m => some m

def inContext (context : Context) (entries : List Observed) : List (Context × Message) :=
  (messagesOf entries).map fun m => (context, m)

/-- The messages that an event shows: request history, a response, tool results, and the inputs
and outputs of chains. -/
def eventMessages (event : ExecutionEvent) : List (Context × Message) :=
  match event.data with
  | .onChatModelStart batches => batches.flatMap (inContext event.context)
  | .onChatModelEnd response => [(event.callContext, response)]
  | .onToolEnd (.message m) => if messageType m = "tool" then [(event.context, m)] else []
  | .onToolEnd (.command messages) => inContext event.context (messages.getD [])
  | .onToolEnd .other => []
  | .onChainStart messages | .onChainEnd messages => inContext event.context (messages.getD [])
  | .unobserved => []

def streamedMessages (agentName : String) (streamed : Streamed) : List (Context × Message) :=
  eventMessages streamed.event ++
    if streamed.event.parentIds ≠ [] then []
    else streamed.updates.flatMap (inContext (updateContext agentName streamed.event))

/-- Every message the invocation observes, with its context. -/
def observations (agentName : String) (userMessage : Message) (events : List Streamed) :
    List (Context × Message) :=
  (userContext agentName, userMessage) :: events.flatMap (streamedMessages agentName)

def idsOf (observed : List (Context × Message)) : List String :=
  observed.map fun entry => ensureMessageId entry.2

def startOf (event : ExecutionEvent) : Option String :=
  match event.data with
  | .onChatModelStart _ => some event.runId
  | _ => none

def endOf (event : ExecutionEvent) : Option String :=
  match event.data with
  | .onChatModelEnd _ => some event.runId
  | _ => none

/-- The run ids of the model calls that start. -/
def startsOf (events : List Streamed) : List String :=
  events.filterMap fun streamed => startOf streamed.event

def endsOf (events : List Streamed) : List String :=
  events.filterMap fun streamed => endOf streamed.event

/-- A model run starts once and ends once, after its start, with a message that is new and is
no system message. -/
def Regular (agentName : String) (userMessage : Message) (before : List Streamed)
    (event : ExecutionEvent) : Prop :=
  match event.data with
  | .onChatModelStart _ => event.runId ∉ startsOf before
  | .onChatModelEnd response =>
    event.runId ∈ startsOf before ∧ event.runId ∉ endsOf before ∧
      messageType response ≠ "system" ∧
      ensureMessageId response ∉ idsOf (observations agentName userMessage before)
  | _ => True

/-- Every event is regular behind those before it. -/
def RegularAfter (agentName : String) (userMessage : Message) :
    List Streamed → List Streamed → Prop
  | _, [] => True
  | before, streamed :: later =>
    Regular agentName userMessage before streamed.event ∧
      RegularAfter agentName userMessage (before ++ [streamed]) later

/-- The stream of an agent whose model runs are regular. -/
def RegularStream (agentName : String) (userMessage : Message) (events : List Streamed) : Prop :=
  RegularAfter agentName userMessage [] events

/-- A message of the conversation. -/
def spoken (type id text : String) : Message where
  isDict := false
  fields := .obj [("type", .str type), ("id", .str id), ("content", .str text)]
  getType := none
  given := "00000000-0000-4000-8000-000000000000"
  encodable := true

def inModelCall (data : EventData) : Streamed where
  event :=
    { runId := "c1", parentIds := [.str "root"], name := .str "ChatModel",
      metadata := [("lc_agent_name", .str "reviewer")], data := data }
  updates := []

/-- The agent asks its model once and gets an answer. -/
def oneCall : List Streamed :=
  [inModelCall (.onChatModelStart [[.message (spoken "human" "u1" "Review.")]]),
    inModelCall (.onChatModelEnd (spoken "ai" "r1" "Done."))]

end AgentInvocations
