import SecReviewBot.AgentTranscript.Records
import SecReviewBot.Checks

/-!
# Token usage

`token_usage.py`: the canonical usage of one model call and how the runtime makes it of what a
model adapter reports.
-/

namespace TokenUsage

open AgentTranscript Checks JsonValues

def isMapping (value : Json) : Bool := value.isObject

def maxTokenCount : Int := 9007199254740991

def tokenCount (value : Json) : Option Int :=
  (integer value).filter fun n => 0 ≤ n ∧ n ≤ maxTokenCount

/-- A count that is missing or not below the subset counted in it. -/
def withinKnown (subset : Int) (whole : Option Int) : Prop := ∀ n ∈ whole, subset ≤ n

instance (subset : Int) (whole : Option Int) : Decidable (withinKnown subset whole) :=
  inferInstanceAs (Decidable (∀ n ∈ whole, subset ≤ n))

/-- The wire value is closed, nullable, and uses inclusive totals. -/
def validateTokenUsage (value : Json) : Except String Unit :=
  if value = .null then .ok () else do
    require (value.isObject = true ∧ (keys value).Perm tokenFields)
      "Transcript usage requires the canonical token fields"
    require (∀ key ∈ keys value, get value key = .null ∨ (tokenCount (get value key)).isSome)
      "Invalid transcript token count"
    let count := fun key => tokenCount (get value key)
    require (count "total_tokens" = bothKnown (count "input_tokens") (count "output_tokens"))
      "Transcript total must equal inclusive input plus output"
    let caches := (count "cache_read_input_tokens").getD 0 +
      (count "cache_creation_input_tokens").getD 0
    require (withinKnown caches (count "input_tokens"))
      "Transcript cache subsets exceed input tokens"
    require (∀ reasoning ∈ count "reasoning_tokens", withinKnown reasoning (count "output_tokens"))
      "Transcript reasoning subset exceeds output tokens"

theorem tokenCount_eq (value : Json) : tokenCount value = safeCount value := rfl

/-- The runtime accepts exactly the usage that the contract allows. -/
theorem validateTokenUsage_ok {value : Json} {r : Unit} :
    validateTokenUsage value = .ok r ↔ value = .null ∨ ValidUsage value := by
  rw [validateTokenUsage]
  by_cases missing : value = .null
  · simp [missing]
  rw [if_neg missing, require_bind, require_bind]
  dsimp only
  rw [require_bind, require_bind, require_ok]
  simp only [missing, false_or]
  constructor
  · rintro ⟨⟨object, fields⟩, counts, total, caches, reasoning⟩
    exact ⟨object, fields, fun key mem => counts key (fields.mem_iff.mpr mem), total, caches,
      reasoning⟩
  · intro valid
    exact ⟨⟨valid.object, valid.fields⟩,
      fun key mem => valid.counts key (valid.fields.mem_iff.mp mem), valid.total, valid.caches,
      valid.reasoning⟩

/-- `None` for an unknown count. -/
def countJson : Option Int → Json
  | some n => .num n
  | none => .null

def canonical (input output cacheRead cacheCreation reasoning : Option Int) :
    Except String Json := do
  let counts := [input, output, bothKnown input output, cacheRead, cacheCreation, reasoning]
  let result := Json.obj (tokenFields.zip (counts.map countJson))
  validateTokenUsage result
  pure (if counts.any Option.isSome then result else .null)

/-- Recombine the disjoint buckets for one token subset. -/
def langchainDetailCount (details : Json) (field : String) : Option Int :=
  let ttl := if field = "cache_creation"
    then ["ephemeral_5m_input_tokens", "ephemeral_1h_input_tokens"] else []
  match ([field, "flex_" ++ field, "priority_" ++ field] ++ ttl).filterMap
      fun key => tokenCount (get details key) with
  | [] => none
  | counts => some (counts.foldl (· + ·) 0)

/-- `value` where it is a mapping, `{}` otherwise. -/
def mappingOr (value : Json) : Json := if isMapping value then value else .obj []

def normalizeLangchainUsage (value : Json) : Except String Json :=
  let inputDetails := mappingOr (get value "input_token_details")
  let outputDetails := mappingOr (get value "output_token_details")
  canonical (tokenCount (get value "input_tokens")) (tokenCount (get value "output_tokens"))
    (langchainDetailCount inputDetails "cache_read")
    (langchainDetailCount inputDetails "cache_creation")
    (langchainDetailCount outputDetails "reasoning")

/-- Handle explicit OpenAI or Anthropic response usage. -/
def normalizeProviderUsage (value : Json) : Except String Json :=
  if (value.member "prompt_tokens").isSome ∨ (value.member "completion_tokens").isSome then
    let inputDetails := mappingOr (get value "prompt_tokens_details")
    let outputDetails := mappingOr (get value "completion_tokens_details")
    canonical (tokenCount (get value "prompt_tokens"))
      (tokenCount (get value "completion_tokens"))
      (tokenCount (get inputDetails "cached_tokens")) none
      (tokenCount (get outputDetails "reasoning_tokens"))
  else
    let cacheRead := tokenCount (get value "cache_read_input_tokens")
    let cacheCreation := tokenCount (get value "cache_creation_input_tokens")
    let input := (tokenCount (get value "input_tokens")).map fun ordinary =>
      ordinary + cacheRead.getD 0 + cacheCreation.getD 0
    canonical input (tokenCount (get value "output_tokens")) cacheRead cacheCreation none

/-- The usage of one of the two response metadata members. -/
def responseUsage (raw : Json) : Except String Json :=
  if isMapping raw then
    if (raw.member "input_token_details").isSome ∨ (raw.member "output_token_details").isSome
    then normalizeLangchainUsage raw else normalizeProviderUsage raw
  else .ok .null

/-- `message_token_usage`, of a message whose attributes or members `message` lists. -/
def messageTokenUsage (message : Json) : Except String Json := do
  let usage := get message "usage_metadata"
  let reported ← if isMapping usage then normalizeLangchainUsage usage else .ok .null
  if reported ≠ .null then return reported
  let response := get message "response_metadata"
  let first ← responseUsage (get response "token_usage")
  if first ≠ .null then return first
  responseUsage (get response "usage")

end TokenUsage
