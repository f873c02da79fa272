import SecReviewBot.DoubleSums
import SecReviewBot.FirstOccurrences
import SecReviewBot.JsonWriting
import SecReviewBot.MemoryCatalog.Schema
import SecReviewBot.ReviewRuns.ExecutionStatisticsStore
import SecReviewBot.TextPieces

/-!
# Aggregation of execution statistics

`execution-statistics.ts`: one snapshot of the model calls that Langfuse returned for a
run. The loop counts every call under the whole run and under the group of its nine
coordinates; a token total is reported when every call of its scope reported the field.
-/

namespace ExecutionStatistics

open JsonValues JsonTexts JsonWriting StableSorts DoubleSums GroupedSums TextCodecs TextPieces
open ExecutionStatisticsStore
open MemoryCatalogSchema (sortByCodeUnits)

structure LangfuseObservation where
  id : String
  metadata : List (String × Json)
  model : Option String
  usageDetails : Option (List (String × Json))

structure ExecutionStatisticsRead where
  roots : List LangfuseObservation
  generations : List LangfuseObservation
  excludedNonReviewRootCount : Nat

inductive TokenField where
  | inputTokens | outputTokens | totalTokens | cacheReadInputTokens | cacheCreationInputTokens
  | reasoningTokens
  deriving DecidableEq

def fieldOf (usage : TokenUsage) : TokenField → Option Nat
  | .inputTokens => usage.inputTokens
  | .outputTokens => usage.outputTokens
  | .totalTokens => usage.totalTokens
  | .cacheReadInputTokens => usage.cacheReadInputTokens
  | .cacheCreationInputTokens => usage.cacheCreationInputTokens
  | .reasoningTokens => usage.reasoningTokens

def ofFields (value : TokenField → Option Nat) : TokenUsage where
  inputTokens := value .inputTokens
  outputTokens := value .outputTokens
  totalTokens := value .totalTokens
  cacheReadInputTokens := value .cacheReadInputTokens
  cacheCreationInputTokens := value .cacheCreationInputTokens
  reasoningTokens := value .reasoningTokens

@[simp] theorem fieldOf_ofFields (value : TokenField → Option Nat) (field : TokenField) :
    fieldOf (ofFields value) field = value field := by
  cases field <;> rfl

def maxSafeInteger : Nat := 9007199254740991

def stringValue : Option Json → Option String
  | some (.str text) => if strip ecmaSpace text = "" then none else some text
  | _ => none

def nonNegativeInteger : Option Json → Option Nat
  | some (.str text) =>
    if text.toList.isEmpty || !text.toList.all isDigit then none
    else if digitsValue text.toList ≤ maxSafeInteger then some (digitsValue text.toList)
    else none
  | _ => none

/-- A safe integer that is not negative. -/
def tokenValue : Option Json → Option Nat
  | some (.num r) =>
    if r.den = 1 ∧ 0 ≤ r.num ∧ r.num.toNat ≤ maxSafeInteger then some r.num.toNat else none
  | _ => none

/-- The buckets of Langfuse exclude each other; the run's input and output include them. -/
def tokenUsage (observation : LangfuseObservation) : Option TokenUsage :=
  match observation.usageDetails with
  | none => none
  | some details =>
    let ordinaryInput := tokenValue (details.lookup "input")
    let ordinaryOutput := tokenValue (details.lookup "output")
    let total := tokenValue (details.lookup "total")
    let cacheRead := tokenValue (details.lookup "cache_read_input_tokens")
    let cacheCreation := tokenValue (details.lookup "cache_creation_input_tokens")
    let reasoning := tokenValue (details.lookup "reasoning")
    if ordinaryInput.isNone && ordinaryOutput.isNone && total.isNone && cacheRead.isNone &&
        cacheCreation.isNone && reasoning.isNone then none
    else
      let inputTokens := ordinaryInput.map fun n =>
        addDouble (addDouble n (cacheRead.getD 0)) (cacheCreation.getD 0)
      let outputTokens := ordinaryOutput.map fun n => addDouble n (reasoning.getD 0)
      some {
        inputTokens, outputTokens
        totalTokens := inputTokens.bind fun i => outputTokens.map fun o => addDouble i o
        cacheReadInputTokens := cacheRead
        cacheCreationInputTokens := cacheCreation
        reasoningTokens := reasoning }

/-- What the loop reads of a call before it looks for the group. -/
def coordinates (call : LangfuseObservation) : GroupCoordinates where
  agentName := (stringValue (call.metadata.lookup "sec_review_agent")).getD "unknown"
  caseId := stringValue (call.metadata.lookup "sec_review_case_id")
  deliveryId := stringValue (call.metadata.lookup "sec_review_delivery_id")
  passKind := stringValue (call.metadata.lookup "sec_review_pass_kind")
  passIndex := nonNegativeInteger (call.metadata.lookup "sec_review_pass_index")
  batchIndex := nonNegativeInteger (call.metadata.lookup "sec_review_batch_index")
  chunkId := stringValue (call.metadata.lookup "sec_review_chunk_id")
  provider := (stringValue (call.metadata.lookup "ls_provider")).getD "unknown"
  model := (stringValue (call.model.map Json.str)).or
    (stringValue (call.metadata.lookup "ls_model_name"))

structure TokenTotals where
  sums : TokenField → Nat
  reported : TokenField → Nat

def emptyTotals : TokenTotals where
  sums _ := 0
  reported _ := 0

/-- The inner loop over `TOKEN_FIELDS`. -/
def TokenTotals.add (totals : TokenTotals) (usage : TokenUsage) : TokenTotals where
  sums field := (fieldOf usage field).elim (totals.sums field) (addDouble (totals.sums field))
  reported field := totals.reported field + if (fieldOf usage field).isSome then 1 else 0

def completeTotals (totals : TokenTotals) (callCount : Nat) : TokenUsage :=
  ofFields fun field =>
    if 0 < callCount ∧ totals.reported field = callCount then some (totals.sums field) else none

structure GroupAccumulator where
  coordinates : GroupCoordinates
  modelCallCount : Nat
  usageReportedCallCount : Nat
  totals : TokenTotals

def newGroup (coordinates : GroupCoordinates) : GroupAccumulator where
  coordinates := coordinates
  modelCallCount := 0
  usageReportedCallCount := 0
  totals := emptyTotals

def GroupAccumulator.count (group : GroupAccumulator) (usage : Option TokenUsage) :
    GroupAccumulator :=
  { group with
    modelCallCount := group.modelCallCount + 1
    usageReportedCallCount := group.usageReportedCallCount + if usage.isSome then 1 else 0
    totals := usage.elim group.totals group.totals.add }

/-- The variables of the loop. The groups are a `Map`, listed as its keys were set. -/
structure Aggregation where
  totals : TokenTotals
  usageReportedCallCount : Nat
  groups : List (String × GroupAccumulator)

def nullable (text : Option String) : Json := text.elim .null .str

def nullableNumber (n : Option Nat) : Json := n.elim .null fun n => .num n

def keyItems (c : GroupCoordinates) : List Json :=
  [.str c.agentName, nullable c.caseId, nullable c.deliveryId, nullable c.passKind,
    nullableNumber c.passIndex, nullableNumber c.batchIndex, nullable c.chunkId,
    .str c.provider, nullable c.model]

/-- `JSON.stringify` of the nine coordinates. -/
def groupKey (numbers : NumberTexts) (c : GroupCoordinates) : String :=
  stringifyJson numbers (.arr (keyItems c))

def countCall (numbers : NumberTexts) (state : Aggregation) (call : LangfuseObservation) :
    Aggregation :=
  let key := groupKey numbers (coordinates call)
  let usage := tokenUsage call
  let groups :=
    if state.groups.any fun entry => entry.1 = key then state.groups
    else state.groups ++ [(key, newGroup (coordinates call))]
  { totals := usage.elim state.totals state.totals.add
    usageReportedCallCount := state.usageReportedCallCount + if usage.isSome then 1 else 0
    groups := groups.map fun entry =>
      if entry.1 = key then (entry.1, entry.2.count usage) else entry }

def noCalls : Aggregation where
  totals := emptyTotals
  usageReportedCallCount := 0
  groups := []

def indexText (index : Option Nat) : String :=
  index.elim "-1" fun n => String.ofList (numeral n)

/-- What the groups are sorted by: eight of the nine coordinates, joined by NULs. -/
def sortText (c : GroupCoordinates) : String :=
  join '\x00'
    [c.caseId.getD "", c.deliveryId.getD "", indexText c.passIndex, indexText c.batchIndex,
      c.chunkId.getD "", c.agentName, c.provider, c.model.getD ""]

def groupOf (group : GroupAccumulator) : ExecutionStatisticsGroup where
  coordinates := group.coordinates
  modelCallCount := group.modelCallCount
  usageReportedCallCount := group.usageReportedCallCount
  tokenUsage := completeTotals group.totals group.modelCallCount

def usageJson (usage : TokenUsage) : Json :=
  .obj [("input_tokens", nullableNumber usage.inputTokens),
    ("output_tokens", nullableNumber usage.outputTokens),
    ("total_tokens", nullableNumber usage.totalTokens),
    ("cache_read_input_tokens", nullableNumber usage.cacheReadInputTokens),
    ("cache_creation_input_tokens", nullableNumber usage.cacheCreationInputTokens),
    ("reasoning_tokens", nullableNumber usage.reasoningTokens)]

def groupJson (group : ExecutionStatisticsGroup) : Json :=
  .obj [("agentName", .str group.coordinates.agentName),
    ("caseId", nullable group.coordinates.caseId),
    ("deliveryId", nullable group.coordinates.deliveryId),
    ("passKind", nullable group.coordinates.passKind),
    ("passIndex", nullableNumber group.coordinates.passIndex),
    ("batchIndex", nullableNumber group.coordinates.batchIndex),
    ("chunkId", nullable group.coordinates.chunkId),
    ("provider", .str group.coordinates.provider),
    ("model", nullable group.coordinates.model),
    ("modelCallCount", .num group.modelCallCount),
    ("usageReportedCallCount", .num group.usageReportedCallCount),
    ("tokenUsage", usageJson group.tokenUsage)]

def fingerprint (rootIds generationIds : List String) (totals : TokenUsage)
    (groups : List ExecutionStatisticsGroup) : Json :=
  .obj [("rootIds", .arr (rootIds.map Json.str)),
    ("generationIds", .arr (generationIds.map Json.str)),
    ("totals", usageJson totals), ("groups", .arr (groups.map groupJson))]

/-- The runtime: how numbers are written, how texts compare, and SHA-256. -/
structure Runtime where
  numbers : NumberTexts
  collation : Collation
  sha256 : String → String

def aggregateExecutionStatistics (runtime : Runtime) (read : ExecutionStatisticsRead) :
    ExecutionStatisticsSnapshot :=
  let state := read.generations.foldl (countCall runtime.numbers) noCalls
  let observedCallCount := read.generations.length
  let sortedGroups :=
    (sortOn runtime.collation (fun group => sortText group.coordinates)
      (state.groups.map Prod.snd)).map groupOf
  let totals := completeTotals state.totals observedCallCount
  { observationSetHash := runtime.sha256 (stringifyJson runtime.numbers
      (fingerprint (sortByCodeUnits (read.roots.map (·.id)))
        (sortByCodeUnits (read.generations.map (·.id))) totals sortedGroups))
    rootTraceCount := read.roots.length
    excludedNonReviewRootCount := read.excludedNonReviewRootCount
    observedCallCount
    usageReportedCallCount := state.usageReportedCallCount
    usageCoverage :=
      if state.usageReportedCallCount = observedCallCount then .completeForObservedCalls
      else .partialUsage
    tokenUsage := totals
    groups := sortedGroups }

end ExecutionStatistics
