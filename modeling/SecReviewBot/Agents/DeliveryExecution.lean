import SecReviewBot.Agents.DeliveryWorkbench
import SecReviewBot.Agents.RepositoryCases

/-!
# Executing a delivery plan

The plan's entries with the patches of their cases (`delivery_stages/execution/input.py`),
the execution of one entry (`execution/stage.py`) and the join of the outcomes to the
deliveries that go out (`delivery_stages/result.py`). A single delivery reuses the patch of
its case; a combined one is synthesized, which is a parameter here: a patch or the text of
the exception.
-/

namespace DeliveryExecution

open DeliveryWorkbench RepositoryCases

structure DeliveryPatchCase where
  caseId : String
  mitigatorFileChanges : List FileChange
  mitigatorPatchDiff : Option String
  deriving DecidableEq

structure DeliveryExecutionItem where
  index : Nat
  delivery : DeliveryEntry
  caseItems : List DeliveryPatchCase
  deriving DecidableEq

structure DeliveryExecutionInput where
  maxConcurrency : Int
  deliveries : List DeliveryEntry
  keepCaseIds : List String
  singleDeliveryExecutionItems : List DeliveryExecutionItem
  combinedDeliveryExecutionItems : List DeliveryExecutionItem
  deriving DecidableEq

def deliveryPatchMaxConcurrency : Int := 4

/-- `configured` is the environment's setting, at least 1 when it is there. -/
def resolveDeliveryPatchMaxConcurrency (configured : Option Int) (deliveryCount : Nat) : Int :=
  if deliveryCount ≤ 0 then 1
  else min deliveryCount (configured.getD deliveryPatchMaxConcurrency)

/-- A dictionary built from a list keeps the last entry under a key. -/
def lastWith {α : Type} (key : α → String) (items : List α) (id : String) : Option α :=
  items.reverse.find? fun item => key item = id

def patchCase (item : DeliveryCaseInput) : DeliveryPatchCase where
  caseId := item.caseId
  mitigatorFileChanges := item.mitigatorFileChanges
  mitigatorPatchDiff := item.mitigatorPatchDiff

def executionItem (keepCaseResults : List DeliveryCaseInput) (numbered : DeliveryEntry × Nat) :
    DeliveryExecutionItem where
  index := numbered.2
  delivery := numbered.1
  caseItems := (numbered.1.caseIds.filterMap
    (lastWith DeliveryCaseInput.caseId keepCaseResults)).map patchCase

def buildDeliveryExecutionInput (configured : Option Int) (deliveries : List DeliveryEntry)
    (keepCaseResults : List DeliveryCaseInput) : DeliveryExecutionInput :=
  let items := deliveries.zipIdx.map (executionItem keepCaseResults)
  let combined := items.filter fun item => item.delivery.strategy = .combined
  { maxConcurrency := resolveDeliveryPatchMaxConcurrency configured combined.length
    deliveries
    keepCaseIds := keepCaseResults.map DeliveryCaseInput.caseId
    singleDeliveryExecutionItems := items.filter fun item => item.delivery.strategy ≠ .combined
    combinedDeliveryExecutionItems := combined }

inductive ExecutionStatus where
  | ready | noChanges | failed
  deriving DecidableEq

structure DeliveryExecutionResult where
  deliveryId : String
  status : ExecutionStatus
  error : Option String
  patchDiff : String
  fileChanges : List FileChange
  deriving DecidableEq

structure PatchArtifact where
  fileChanges : List FileChange
  patchDiff : String
  deriving DecidableEq

/-- The outcome with a patch, which may be empty. -/
def patched (deliveryId : String) (fileChanges : List FileChange) (patchDiff empty : String) :
    DeliveryExecutionResult where
  deliveryId
  status := if fileChanges = [] then .noChanges else .ready
  error := if fileChanges = [] then some empty else none
  patchDiff
  fileChanges

def failedOutcome (deliveryId error : String) : DeliveryExecutionResult where
  deliveryId
  status := .failed
  error := some error
  patchDiff := ""
  fileChanges := []

def buildSingleDeliveryOutcome (entry : DeliveryEntry) (caseResults : List DeliveryPatchCase) :
    Option DeliveryExecutionResult :=
  match entry.caseIds with
  | [] => none
  | caseId :: _ =>
    if entry.deliveryId = "" then none
    else (lastWith DeliveryPatchCase.caseId caseResults caseId).map fun caseResult =>
      patched entry.deliveryId caseResult.mitigatorFileChanges
        (caseResult.mitigatorPatchDiff.getD "") "Single delivery has no file changes."

def buildCombinedDeliveryOutcome (synthesized : Except String PatchArtifact)
    (entry : DeliveryEntry) : Option DeliveryExecutionResult :=
  if entry.deliveryId = "" ∨ entry.caseIds = [] then none
  else match synthesized with
    | .ok artifact =>
      some (patched entry.deliveryId artifact.fileChanges artifact.patchDiff
        "Patch synthesis produced no delivery file changes.")
    | .error error =>
      some (failedOutcome entry.deliveryId ("Patch synthesis failed: " ++ error))

/-- The cases of the entry that have no patch to work with. -/
def missingCaseIds (entry : DeliveryEntry) (caseResults : List DeliveryPatchCase) : List String :=
  entry.caseIds.filter fun caseId =>
    (lastWith DeliveryPatchCase.caseId caseResults caseId).isNone

/-- `synthesized` is what patch synthesis makes of the entry's cases. -/
def executeDeliveryEntry (synthesized : Except String PatchArtifact) (entry : DeliveryEntry)
    (caseResults : List DeliveryPatchCase) : Option DeliveryExecutionResult :=
  -- a subset is never synthesized under the identity of the whole entry
  if missingCaseIds entry caseResults ≠ [] then
    some (failedOutcome entry.deliveryId ("Delivery is missing case inputs: " ++
      ", ".intercalate (missingCaseIds entry caseResults)))
  else match entry.strategy with
    | .single => buildSingleDeliveryOutcome entry caseResults
    | .combined => buildCombinedDeliveryOutcome synthesized entry

def executeItem (synthesized : Nat → Except String PatchArtifact) (item : DeliveryExecutionItem) :
    Option DeliveryExecutionResult :=
  executeDeliveryEntry (synthesized item.index) item.delivery item.caseItems

structure DeliveryArtifact where
  deliveryId : String
  caseIds : List String
  patchDiff : String
  fileChanges : List FileChange
  deriving DecidableEq

inductive DeliveryStatus where
  | completed | skipped
  deriving DecidableEq

structure DeliveryResult where
  status : DeliveryStatus
  deliveries : List DeliveryArtifact
  deriving DecidableEq

def buildDeliveryArtifact (entry : DeliveryEntry) (keepCaseIds : List String)
    (outcome : DeliveryExecutionResult) : Option DeliveryArtifact :=
  let caseIds := entry.caseIds.filter fun caseId => caseId ∈ keepCaseIds
  if entry.deliveryId = "" ∨ caseIds = [] then none
  else if outcome.status = .ready ∧ outcome.fileChanges ≠ [] then
    some {
      deliveryId := entry.deliveryId
      caseIds
      patchDiff := outcome.patchDiff
      fileChanges := outcome.fileChanges }
  else none

def buildDeliveryArtifacts (deliveries : List DeliveryEntry) (keepCaseIds : List String)
    (patchOutcomes : List DeliveryExecutionResult) : List DeliveryArtifact :=
  deliveries.filterMap fun entry =>
    (lastWith DeliveryExecutionResult.deliveryId patchOutcomes entry.deliveryId).bind
      (buildDeliveryArtifact entry keepCaseIds)

def buildDeliveryResultFromOutcomes (deliveries : List DeliveryEntry) (keepCaseIds : List String)
    (patchOutcomes : List DeliveryExecutionResult) : DeliveryResult where
  status := .completed
  deliveries := buildDeliveryArtifacts deliveries keepCaseIds patchOutcomes

def buildSkippedDeliveryResult : DeliveryResult where
  status := .skipped
  deliveries := []

end DeliveryExecution
