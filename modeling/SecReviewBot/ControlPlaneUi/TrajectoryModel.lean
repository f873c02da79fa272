import Mathlib.Data.List.Sort
import SecReviewBot.ControlPlaneUi.TrajectoryEvents
import SecReviewBot.TextCodecs

/-!
# The viewer's document

`trajectory-model.ts`: the messages of a transcript as the viewer shows them, the tool results
linked to their calls, and the usage totals.
-/

namespace TrajectoryModel

open AgentTranscript JsonValues TextCodecs

structure ToolCallView where
  anchorId : String
  id : String
  name : String
  args : Json
  resultMessageId : Option String := none
  resultStatus : Option String := none
  /-- The diff that the result message reports. -/
  diff : Option String := none
  diffTruncated : Bool := false
  deriving DecidableEq

structure UsageView where
  input : Option Rat := none
  output : Option Rat := none
  cacheRead : Option Rat := none
  cacheCreation : Option Rat := none
  reasoning : Option Rat := none
  total : Option Rat := none
  deriving DecidableEq

inductive Role
  | system
  | human
  | assistant
  | tool
  | unknown
  deriving DecidableEq

structure MessageView where
  id : String
  seq : Int
  role : Role
  agent : Option String
  source : Option String
  parentIds : Option (List Json)
  toolCalls : List ToolCallView
  /-- The earlier record of the same instruction. -/
  repeatedSystemId : Option String := none
  requestAnchorId : Option String := none
  toolCallId : Option String
  status : Option String
  diff : Option String
  diffTruncated : Bool
  usage : Option UsageView
  deriving DecidableEq

/-- `typeof value === 'string' ? value : undefined` -/
def text : Option Json → Option String
  | some (.str value) => some value
  | _ => none

/-- The text where it is not empty. -/
def nonempty (value : Option Json) : Option String := (text value).filter fun value => value ≠ ""

def record : Option Json → Option Json
  | some (.obj members) => some (.obj members)
  | _ => none

/-- A number; those of a JSON document are finite. -/
def number : Option Json → Option Rat
  | some (.num value) => some value
  | _ => none

/-- The role of a name in any case; no other letter has one of these for its lower case. -/
def role (value : Option Json) : Role :=
  let kind := String.ofList (((text value).getD "").toList.map Char.toLower)
  if kind = "system" then .system
  else if kind = "user" then .human
  else if kind = "assistant" then .assistant
  else if kind = "tool" then .tool else .unknown

def usage (message : Json) : Option UsageView :=
  match record (message.member "usage_metadata") with
  | none => none
  | some source =>
    let result : UsageView := {
      input := number (source.member "input_tokens")
      output := number (source.member "output_tokens")
      cacheRead := number (source.member "cache_read_input_tokens")
      cacheCreation := number (source.member "cache_creation_input_tokens")
      reasoning := number (source.member "reasoning_tokens")
      total := number (source.member "total_tokens") }
    if result = {} then none else some result

/-- A call of the list, unless the entry is no object. -/
def toolCall (seq : Int) (index : Nat) (value : Json) : Option ToolCallView :=
  match record (some value) with
  | none => none
  | some call => some {
      anchorId := "trajectory-call-" ++ toString seq ++ "-" ++ toString index
      id := (nonempty (call.member "id")).getD ("tool-call-" ++ toString (index + 1))
      name := (text (call.member "name")).getD ((text (call.member "type")).getD "tool")
      args := (record (call.member "args")).getD
        ((record (call.member "input")).getD (.obj [])) }

def toolCalls (message : Json) (seq : Int) : List ToolCallView :=
  match message.member "tool_calls" with
  | some (.arr calls) => (calls.zipIdx.filterMap fun (value, index) => toolCall seq index value)
  | _ => []

def parentIds (event : Json) : Option (List Json) :=
  match event.member "parent_ids" with
  | some (.arr items) => some items
  | _ => none

def projectMessage (event : Json) : MessageView :=
  let raw := get event "message"
  let kwargs := record (raw.member "additional_kwargs")
  let seq := seqOf event
  { id := (nonempty (raw.member "id")).getD ("message-" ++ toString seq)
    seq := seq
    role := role (raw.member "role")
    agent := text (event.member "agent")
    source := text (event.member "source")
    parentIds := parentIds event
    toolCalls := toolCalls raw seq
    toolCallId := text (raw.member "tool_call_id")
    status := text (raw.member "status")
    diff := nonempty (kwargs.bind fun kwargs => kwargs.member "diff")
    diffTruncated := kwargs.any fun kwargs => kwargs.member "diff_truncated" = some (.bool true)
    usage := usage raw }

/-- The parents without the last, which is the model or tools node. -/
def trunk (message : MessageView) : List Json := (message.parentIds.getD []).dropLast

/-- Whether two labels are both known and differ. -/
def conflicts (left right : Option String) : Bool :=
  match left, right with
  | some l, some r => l ≠ "" ∧ r ≠ "" ∧ l ≠ r
  | _, _ => false

/-- Whether the result may answer a call with the id in the message. -/
def isCandidate (message : MessageView) (callId : String) (result : MessageView) : Bool :=
  result.toolCallId = some callId && message.seq < result.seq &&
    !conflicts message.agent result.agent &&
      (trunk message = [] || trunk result = [] || trunk message = trunk result)

/-- How many parents two messages share from the root on. -/
def common (message result : MessageView) : Nat :=
  (((message.parentIds.getD []).zip (result.parentIds.getD [])).takeWhile
    fun (l, r) => l = r).length

/-- The one candidate that shares most parents, if there is one. -/
def closest (message : MessageView) (candidates : List MessageView) : Option MessageView :=
  match candidates.insertionSort fun a b => common message b ≤ common message a with
  | [] => none
  | [result] => some result
  | first :: second :: _ =>
    if common message second < common message first then some first else none

/-- The messages that carry a result. -/
def results (messages : List MessageView) : List MessageView :=
  messages.filter fun message => message.toolCallId.any fun id => id ≠ ""

/-- The calls of all messages, each with its message. -/
def requests (messages : List MessageView) : List (MessageView × ToolCallView) :=
  messages.flatMap fun message => message.toolCalls.map fun call => (message, call)

def proposed (messages : List MessageView) (request : MessageView × ToolCallView) :
    Option MessageView :=
  closest request.1 ((results messages).filter (isCandidate request.1 request.2.id))

/-- How many calls propose the result with the id. -/
def resultRequests (messages : List MessageView) (id : String) : Nat :=
  ((requests messages).filter fun request =>
    (proposed messages request).any fun result => result.id = id).length

/-- The result that is linked to a call: a proposal that no other call makes. -/
def linked (messages : List MessageView) (request : MessageView × ToolCallView) :
    Option MessageView :=
  (proposed messages request).filter fun result => resultRequests messages result.id = 1

def linkCall (messages : List MessageView) (message : MessageView) (call : ToolCallView) :
    ToolCallView :=
  let result := linked messages (message, call)
  { call with
    resultMessageId := result.map (·.id)
    resultStatus := result.bind (·.status)
    diff := (result.bind (·.diff)).or call.diff
    diffTruncated := call.diffTruncated ||
      (result.any fun result => result.diff.isSome && result.diffTruncated) }

/-- The anchor of the last call that a message is linked to. -/
def anchorOf (messages : List MessageView) (message : MessageView) : Option String :=
  (((requests messages).filter fun request => linked messages request = some message).getLast?.map
    fun request => request.2.anchorId).or message.requestAnchorId

def linkMessage (messages : List MessageView) (message : MessageView) : MessageView :=
  { message with
    toolCalls := message.toolCalls.map (linkCall messages message)
    requestAnchorId := anchorOf messages message }

def linkToolResults (messages : List MessageView) : List MessageView :=
  messages.map (linkMessage messages)

/-- The string that a checked id is. -/
def idText (value : Json) : String := (text (some value)).getD ""

/-- One event of the loop that collects the responses of the started calls. -/
def collect (calls : List (Json × List String)) (event : Json) : List (Json × List String) :=
  match kind event with
  | some .modelCallStart =>
    if callId event ∈ calls.map Prod.fst
    then calls.map fun call => if call.1 = callId event then (call.1, []) else call
    else calls ++ [(callId event, [])]
  | some .message =>
    if nonEmptyText (callId event) then
      calls.map fun call =>
        if call.1 = callId event then (call.1, call.2 ++ [idText (messageId event)]) else call
    else calls
  | _ => calls

/-- The calls in the order they started, each with the ids of the responses recorded since. -/
def responses (events : List Json) : List (Json × List String) := events.foldl collect []

/-- The response that the last end of the call names. -/
def ended (events : List Json) (call : Json) : Option String :=
  (((ofKind .modelCallEnd events).filter fun event => callId event = call).getLast?).map
    fun event => idText (get event "message_id")

/-- Without an end, a call's only response is selected for it. -/
def selected (events : List Json) (call : Json × List String) : Option String :=
  match ended events call.1 with
  | some id => some id
  | none => match call.2 with
    | [id] => some id
    | _ => none

def covered (events : List Json) (messages : List MessageView) : List (Option MessageView) :=
  if Opened events then
    (responses events).map fun call => messages.find? fun message =>
      selected events call = some message.id
  else (messages.filter fun message => message.role = .assistant).map some

/-- The sum of a field, when there are messages and each of them reports it. -/
def totalOf (field : UsageView → Option Rat) (covered : List (Option MessageView)) :
    Option Rat :=
  let values := covered.map fun message => (message.bind (·.usage)).bind field
  if values ≠ [] ∧ values.all Option.isSome then
    some (values.foldl (fun sum value => sum + value.getD 0) 0)
  else none

def totalRecordedUsage (events : List Json) (messages : List MessageView) : UsageView where
  input := totalOf (·.input) (covered events messages)
  output := totalOf (·.output) (covered events messages)
  cacheRead := totalOf (·.cacheRead) (covered events messages)
  cacheCreation := totalOf (·.cacheCreation) (covered events messages)
  reasoning := totalOf (·.reasoning) (covered events messages)
  total := totalOf (·.total) (covered events messages)

structure TrajectoryDocument where
  messages : List MessageView
  totalUsage : UsageView

/-- What is known of the last instruction of a branch: its content and the id of its record. -/
abbrev Systems := List ((Option String × Option String × List Json) × Json × String)

/-- Link a system message to the record of the same instruction before it. -/
def markRepeated (systems : Systems) (message : MessageView) (content : Json) :
    Systems × MessageView :=
  if message.role ≠ .system ∨ (message.parentIds.getD []).length < 2 then (systems, message)
  else
    let branch := (message.agent, message.source, trunk message)
    match systems.lookup branch with
    | some (same, id) =>
      if same = content then (systems, { message with repeatedSystemId := some id })
      else ((branch, content, message.id) :: systems, message)
    | none => ((branch, content, message.id) :: systems, message)

/-- Repeated effective instructions are observations, not new instructions. -/
def markAll : Systems → List (MessageView × Json) → List MessageView
  | _, [] => []
  | systems, (message, content) :: rest =>
    let (systems, message) := markRepeated systems message content
    message :: markAll systems rest

/-- The messages of the document before results are linked. -/
def messageViews (events : List Json) : List MessageView :=
  markAll [] ((ofKind .message events).map fun event =>
    (projectMessage event, get (get event "message") "content"))

def buildTrajectoryDocument (events : List Json) : TrajectoryDocument where
  messages := linkToolResults (messageViews events)
  totalUsage := totalRecordedUsage events (linkToolResults (messageViews events))

/-- What the marks on repeated instructions leave alone. -/
def unmarked (message : MessageView) : MessageView := { message with repeatedSystemId := none }

theorem markRepeated_unmarked (systems : Systems) (message : MessageView) (content : Json) :
    unmarked (markRepeated systems message content).2 = unmarked message := by
  rw [markRepeated]
  split
  · rfl
  · dsimp only
    split
    · split <;> rfl
    · rfl

theorem markAll_unmarked (systems : Systems) (all : List (MessageView × Json)) :
    (markAll systems all).map unmarked = all.map fun entry => unmarked entry.1 := by
  induction all generalizing systems with
  | nil => rfl
  | cons entry rest ih =>
    obtain ⟨message, content⟩ := entry
    rw [markAll, List.map_cons, List.map_cons, ih, markRepeated_unmarked]

theorem messageViews_unmarked (events : List Json) :
    (messageViews events).map unmarked =
      (ofKind .message events).map fun event => unmarked (projectMessage event) := by
  rw [messageViews, markAll_unmarked, List.map_map]
  rfl

/-- What a reading of the views makes of them when it does not look at the marks. -/
theorem messageViews_map {β : Type} {read : MessageView → β}
    (blind : ∀ message, read (unmarked message) = read message) (events : List Json) :
    (messageViews events).map read =
      (ofKind .message events).map fun event => read (projectMessage event) := by
  have both := congrArg (List.map read) (messageViews_unmarked events)
  rw [List.map_map, List.map_map] at both
  simpa only [Function.comp_def, blind] using both

end TrajectoryModel
