import Mathlib.Logic.Function.Basic
import SecReviewBot.Agents.TrajectoryRecords
import SecReviewBot.TextCodecs
import SecReviewBot.ThrowingPrograms

/-!
# The transcript writer

The writers' half of `trajectories.py`. A call of the writer may raise in the middle; what it
has recorded or remembered by then stays. All paths of a writer receive the same lines, so the
model keeps one file.
-/

namespace TrajectoryWriter

open AgentTranscript JsonValues TextCodecs ThrowingPrograms TokenUsage TrajectoryRecords

/-- A message as the agent framework hands it out: an object or a dict. -/
structure Message where
  isDict : Bool
  /-- Its attributes, or its members, as `json_safe` writes them. -/
  fields : Json
  /-- What a callable `get_type` answers. -/
  getType : Option String
  /-- The id `uuid4` gives it when it has none; from then on it stays with the object. -/
  given : String
  /-- Whether JSON and UTF-8 can write it: no `NaN`, no lone surrogate. -/
  encodable : Bool
  deriving DecidableEq

/-- An entry of a message list. -/
inductive Observed
  | removeMessage
  | message (m : Message)
  deriving DecidableEq

/-- Text with a character that is not a space. -/
def visibleText : Json → Option String
  | .str text => if strip pythonSpace text ≠ "" then some text else none
  | _ => none

def truthy : Json → Bool
  | .null | .bool false | .str "" | .arr [] | .obj [] => false
  | .num value => value ≠ 0
  | _ => true

def chunkType (messageType : String) : String :=
  if messageType = "AIMessageChunk" then "ai"
  else if messageType = "ToolMessageChunk" then "tool" else messageType

def messageType (message : Message) : String :=
  if message.isDict then
    let named := get message.fields "type"
    (visibleText (if truthy named then named else get message.fields "role")).getD "unknown"
  else
    match visibleText (get message.fields "type") with
    | some text => chunkType text
    | none => (message.getType.filter fun text => strip pythonSpace text ≠ "").getD "unknown"

def Observed.type : Observed → String
  | .removeMessage => "remove"
  | .message m => messageType m

def roleOf (messageType : String) : String :=
  if messageType = "human" then "user" else if messageType = "ai" then "assistant" else messageType

/-- `message.get(key, default)`. -/
def getOr (message : Message) (key : String) (default : Json) : Json :=
  (message.fields.member key).getD default

def serializeAgentMessage (message : Message) (messageId : String) : Except String Json := do
  let role := roleOf (messageType message)
  let usage ← messageTokenUsage message.fields
  pure (.obj ([("role", .str role), ("id", .str messageId),
    ("name", get message.fields "name"),
    ("content", get message.fields "content"),
    ("additional_kwargs", getOr message "additional_kwargs" (.obj [])),
    ("response_metadata", getOr message "response_metadata" (.obj [])),
    ("tool_calls", getOr message "tool_calls" (.arr [])),
    ("invalid_tool_calls", getOr message "invalid_tool_calls" (.arr [])),
    ("tool_call_chunks", getOr message "tool_call_chunks" (.arr [])),
    ("usage_metadata", usage)] ++
    if role = "tool" then
      [("tool_call_id", get message.fields "tool_call_id"),
        ("status", get message.fields "status"),
        ("artifact", get message.fields "artifact")]
    else []))

/-- The id of a message, and of every later snapshot of it. -/
def ensureMessageId (message : Message) : String :=
  match get message.fields "id" with
  | .str own => if own ≠ "" then own else message.given
  | _ => message.given

/-- The keyword arguments a list of messages is written with; each may be left out. -/
structure Context where
  agent : Option Json := none
  source : Option Json := none
  runId : Option Json := none
  parentIds : Option (List Json) := none
  name : Option Json := none
  metadata : Option Json := none
  callId : Option Json := none
  deriving DecidableEq

def Context.parents (context : Context) : List Json := context.parentIds.getD []

/-- The arguments a message record takes over as they are. -/
def Context.others (context : Context) : List (String × Json) :=
  [("call_id", context.callId), ("run_id", context.runId),
    ("parent_ids", context.parentIds.map Json.arr), ("name", context.name),
    ("metadata", context.metadata)].filterMap fun (key, value) => value.map fun v => (key, v)

def Context.members (context : Context) : List (String × Json) :=
  ([("agent", context.agent), ("source", context.source)].filterMap
    fun (key, value) => value.map fun v => (key, v)) ++ context.others

/-- One line of the file. -/
inductive Record
  | message (seq : Nat) (context : Context) (agent source serialized : Json)
  | event (seq : Nat) (kind : Kind) (fields : List (String × Json))
  deriving DecidableEq

def Record.json : Record → Json
  | .message seq context agent source serialized =>
    .obj ([("seq", .num seq), ("event", .str Kind.message.name), ("agent", agent),
      ("source", source), ("message", serialized)] ++ context.others)
  | .event seq kind fields => .obj ([("seq", .num seq), ("event", .str kind.name)] ++ fields)

/-- An execution branch: agent, source and the ancestry without the last parent. -/
structure Branch where
  agent : Json
  source : Json
  ancestry : List Json
  deriving DecidableEq

structure Writer where
  agent : Option String
  seq : Nat := 0
  seenMessageIds : List String := []
  systemContents : Branch → Option Json := fun _ => none
  /-- In the order they were deferred, each id once. -/
  pendingMessages : List (String × Message × Context) := []
  lines : List Record := []

/-- A writer as it is constructed, on an empty file. -/
def start (agent : Option String) : Writer := { agent := agent }

abbrev Recording := ExceptT String (StateM Writer)

/-- `context.get("agent", self.agent)` -/
def Writer.agentOf (w : Writer) (context : Context) : Json :=
  context.agent.getD ((w.agent.map Json.str).getD .null)

def Writer.branchOf (w : Writer) (context : Context) : Branch :=
  ⟨w.agentOf context, context.source.getD .null, context.parents.dropLast⟩

def Writer.remember (w : Writer) (branch : Branch) (content : Json) : Writer :=
  { w with systemContents := Function.update w.systemContents branch (some content) }

/-- The message leaves the queue and its id counts as recorded. -/
def Writer.take (w : Writer) (messageId : String) : Writer :=
  { w with
    pendingMessages := w.pendingMessages.filter fun entry => entry.1 ≠ messageId
    seenMessageIds := messageId :: w.seenMessageIds }

def Writer.advance (w : Writer) : Writer := { w with seq := w.seq + 1 }

def Writer.record (w : Writer) (line : Record) : Writer := { w with lines := w.lines ++ [line] }

def append (line : Record) (encodable : Bool) : Recording Unit := do
  let _ ← raised (validateTrajectoryEvent line.json)
  raised (Checks.require (encodable = true) "Out of range float values are not JSON compliant")
  modify (·.record line)

/-- Append one event with a writer-local sequence number. -/
def writeEvent (kind : Kind) (fields : List (String × Json)) : Recording Unit := do
  modify Writer.advance
  let w ← get
  append (.event w.seq kind fields) true

/-- Compare and remember effective system content. -/
def isUnchangedSystemMessage (message : Message) (context : Context) : Recording Bool :=
  if messageType message ≠ "system" ∨ context.parents.length < 2 then pure false
  else do
    let content ← raised (serializeAgentMessage message "system")
    let w ← get
    if w.systemContents (w.branchOf context) = some content then pure true
    else do
      set (w.remember (w.branchOf context) content)
      pure false

/-- The source of a message record: the context's, else the one the message carries. -/
def sourceOf (message : Message) (context : Context) : Except String Json :=
  let source := context.source.getD .null
  if truthy source then .ok source
  else
    match getOr message "additional_kwargs" (.obj []) with
    | .obj members => .ok (get (.obj members) "lc_source")
    | _ => .error "object has no attribute 'get'"

/-- One pass of the loop of `write_messages`. -/
def writeMessage (context : Context) (message : Message) : Recording Unit := do
  let unchanged ← isUnchangedSystemMessage message context
  if unchanged then pure () else do
    let w ← get
    if ensureMessageId message ∈ w.seenMessageIds then pure () else do
      set (w.take (ensureMessageId message))
      let source ← raised (sourceOf message context)
      modify Writer.advance
      let serialized ← raised (serializeAgentMessage message (ensureMessageId message))
      let w ← get
      append (.message w.seq context (w.agentOf context) source serialized) message.encodable

def writeObserved (context : Context) : Observed → Recording Unit
  | .removeMessage => pure ()
  | .message m => writeMessage context m

/-- Writes each with its own context. -/
def writeAll (writes : List (Context × Observed)) : Recording Unit :=
  writes.forM fun write => writeObserved write.1 write.2

def writeMessages (messages : Option (List Observed)) (context : Context) : Recording Unit :=
  writeAll ((messages.getD []).map fun m => (context, m))

/-- Hold one message, unless it is recorded or held already. -/
def Writer.defer (w : Writer) (context : Context) : Observed → Writer
  | .removeMessage => w
  | .message m =>
    let messageId := ensureMessageId m
    if messageId ∈ w.seenMessageIds ∨ messageId ∈ w.pendingMessages.map Prod.fst then w
    else { w with pendingMessages := w.pendingMessages ++ [(messageId, m, context)] }

/-- Hold graph messages until their branch's effective system is available. -/
def deferMessages (messages : Option (List Observed)) (context : Context) : Recording Unit :=
  modify fun w => (messages.getD []).foldl (fun w m => w.defer context m) w

/-- Whether a flush for these parents covers what was deferred with this context. -/
def flushes (parentIds : Option (List Json)) (context : Context) : Bool :=
  match parentIds with
  | none => true
  | some ids =>
    context.runId.any (fun runId => runId ∈ ids) ||
      decide (ids.take context.parents.length = context.parents)

/-- What a flush writes. -/
def Writer.flushed (w : Writer) (parentIds : Option (List Json)) : List (Context × Observed) :=
  (w.pendingMessages.filter fun entry => flushes parentIds entry.2.2).map
    fun entry => (entry.2.2, .message entry.2.1)

def flushPendingMessages (parentIds : Option (List Json)) : Recording Unit := do
  let w ← get
  writeAll (w.flushed parentIds)

/-- The system messages at the front of a batch. -/
def leadingSystems (messages : List Observed) : List Observed :=
  messages.takeWhile fun m => m.type = "system"

/-- Writes a part of every batch. -/
def writeBatches (part : List Observed → List Observed) (batches : List (List Observed))
    (context : Context) : Recording Unit :=
  batches.forM fun messages => writeMessages (some (part messages)) context

/-- Summarization requests do not flush the continuing conversation's inputs. -/
def flushBranch (context : Context) : Recording Unit :=
  if get (context.metadata.getD .null) "lc_source" = .str "summarization" then pure ()
  else flushPendingMessages (some context.parents)

/-- Write effective systems before deferred branch inputs and request history. -/
def writeModelInputMessages (batches : List (List Observed)) (context : Context) :
    Recording Unit := do
  writeBatches leadingSystems batches context
  flushBranch context
  writeBatches id batches context

/-- What a tool returned. -/
inductive ToolOutput
  | message (m : Message)
  /-- A command whose update is a dict. -/
  | command (messages : Option (List Observed))
  | other

/-- The data of the events the writer looks at. -/
inductive EventData
  | onChatModelStart (batches : List (List Observed))
  | onChatModelEnd (response : Message)
  | onToolEnd (output : ToolOutput)
  | onChainStart (input : Option (List Observed))
  | onChainEnd (output : Option (List Observed))
  | unobserved

structure ExecutionEvent where
  runId : String
  parentIds : List Json
  name : Json
  metadata : List (String × Json)
  data : EventData

def ExecutionEvent.context (event : ExecutionEvent) : Context where
  agent := some (get (.obj event.metadata) "lc_agent_name")
  source := some (get (.obj event.metadata) "lc_source")
  runId := some (.str event.runId)
  parentIds := some event.parentIds
  name := some event.name
  metadata := some (.obj event.metadata)

/-- The context of a response: that of its event under the id of its call. -/
def ExecutionEvent.callContext (event : ExecutionEvent) : Context :=
  { event.context with callId := some (.str event.runId) }

/-- Persist each response once; call ends reference its message ID. -/
def writeExecutionEvent (event : ExecutionEvent) : Recording Unit :=
  match event.data with
  | .onChatModelStart batches => do
    writeModelInputMessages batches event.context
    writeEvent .modelCallStart event.callContext.members
  | .onChatModelEnd response => do
    writeMessages (some [.message response]) event.callContext
    writeEvent .modelCallEnd
      (("message_id", .str (ensureMessageId response)) :: event.callContext.members)
  | .onToolEnd (.message m) =>
    if messageType m = "tool" then writeMessages (some [.message m]) event.context else pure ()
  | .onToolEnd (.command messages) => writeMessages messages event.context
  | .onToolEnd .other => pure ()
  | .onChainStart messages | .onChainEnd messages => deferMessages messages event.context
  | .unobserved => pure ()

/-- A call of the writer, as the agent runtime makes them. -/
inductive Call
  | deferMessages (messages : Option (List Observed)) (context : Context)
  | writeEvent (kind : Kind) (fields : List (String × Json))
  | writeExecutionEvent (event : ExecutionEvent)
  | flushPendingMessages

def perform : Call → Recording Unit
  | .deferMessages messages context => deferMessages messages context
  | .writeEvent kind fields => writeEvent kind fields
  | .writeExecutionEvent event => writeExecutionEvent event
  | .flushPendingMessages => flushPendingMessages none

def performAll (calls : List Call) : Recording Unit := calls.forM perform

end TrajectoryWriter
