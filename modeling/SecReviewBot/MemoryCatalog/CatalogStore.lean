import SecReviewBot.MemoryCatalog.Schema
import SecReviewBot.TransitionSystems

/-!
# `catalog-store.ts`

Each operation is one transaction: it answers and leaves a new catalog, or it
throws and the catalog is rolled back. Statements that occur in two places, or
that another transaction can run between, are functions of their own.
-/

namespace CatalogStore

open KeyedTables MemoryCatalogSchema TransitionSystems

/-- The error classes of the store, and what the database reports when a
constraint is violated. -/
inductive CatalogError where
  | extractionConflict (message : String)
  | memoryTreeRevisionConflict (message : String)
  | maintenanceControlConflict (message : String)
  | maintenancePaused (message : String)
  | constraintViolation (constraint : String)
  deriving DecidableEq

/-- Go on if the condition holds. -/
def ensure (condition : Bool) (error : CatalogError) : Except CatalogError Unit :=
  if condition then .ok () else .error error

def extractionPublicationIdentity (r : ExtractionRegistration) : ExtractionId × Digest :=
  (r.extractionId, r.trajectoryReference.digest)

/-- `insert … on conflict do nothing`. -/
def insertExtractionPublication (intent : ExtractionPublicationIntent) (c : Catalog) : Catalog :=
  let identity := extractionPublicationIdentity intent.registration
  match c.extractionPublications.row identity with
  | some _ => c
  | none => { c with
      extractionPublications := c.extractionPublications.put identity
        { intent := intent, status := .reserved, createdAt := c.clock } }

def reserveExtractionPublication (intent : ExtractionPublicationIntent) (c : Catalog) :
    Except CatalogError (ExtractionPublication × Catalog) :=
  let inserted := insertExtractionPublication intent c
  match inserted.extractionPublications.row
      (extractionPublicationIdentity intent.registration) with
  | some row =>
    if row.intent = intent then .ok (row, inserted)
    else .error (.extractionConflict "Extraction publication intent changed.")
  | none => .error (.extractionConflict "Extraction publication intent changed.")

/-- `case when status='selected' then status else 'present' end`. -/
def confirmStatus : PublicationStatus → PublicationStatus
  | .selected => .selected
  | _ => .present

def confirmExtractionPublication (intent : ExtractionPublicationIntent) (c : Catalog) :
    Except CatalogError (ExtractionPublication × Catalog) :=
  let identity := extractionPublicationIdentity intent.registration
  let required : CatalogError :=
    .extractionConflict "Matching extraction publication reservation is required."
  match c.extractionPublications.row identity with
  | none => .error required
  | some row =>
    if row.intent = intent then
      let confirmed := { row with status := confirmStatus row.status }
      .ok (confirmed, { c with
        extractionPublications := c.extractionPublications.put identity confirmed })
    else .error required

/-- The owner may have one selected candidate: a partial unique index. -/
def selectExtractionPublication (identity : ExtractionId × Digest) (c : Catalog) :
    Except CatalogError Catalog :=
  match c.extractionPublications.row identity with
  | none => .ok c
  | some row => do
    ensure (c.extractionPublications.matching fun key other =>
        key.1 = identity.1 && key ≠ identity && other.status = .selected).isEmpty
      (.constraintViolation "extraction_publications_selected")
    return { c with
      extractionPublications := c.extractionPublications.put identity
        { row with status := .selected } }

/-- The candidate that the registration was confirmed as, unless another one was
selected. -/
def confirmedExtraction (input : ExtractionRegistration) (c : Catalog) :
    Except CatalogError (ExtractionId × Digest) := do
  ensure (c.extractionPublications.matching fun key row =>
      key.1 = input.extractionId && row.status = .selected
        && row.intent.registration ≠ input).isEmpty
    (.extractionConflict "A different extraction publication is already selected.")
  match c.extractionPublications.matching fun key row =>
      key.1 = input.extractionId && row.intent.registration = input
        && (row.status = .present || row.status = .selected) with
  | [] => .error (.extractionConflict "A confirmed extraction publication is required.")
  | key :: _ => .ok (input.extractionId, key.2)

def extractionOf (input : ExtractionRegistration) (now : Timestamp) : Extraction where
  sourceWorkflow := input.sourceWorkflow
  sourceRunId := input.sourceRunId
  sourceUnitId := input.sourceUnitId
  diagnosticBundleDigest := input.diagnosticBundleDigest
  trajectoryReference := input.trajectoryReference
  createdAt := now

def insertObservation (input : ExtractionRegistration) (c : Catalog) :
    Except CatalogError Catalog :=
  match input.observation with
  | none => .ok c
  | some body => do
    ensure (c.observations.row input.extractionId).isNone
      (.constraintViolation "observations_pkey")
    return { c with
      observations := c.observations.put input.extractionId
        { bodyMarkdown := body, consumedRevision := none, createdAt := c.clock } }

/-- The columns and the joined observation are those of the registration. -/
def identicalExtraction (input : ExtractionRegistration) (row : Extraction) (c : Catalog) : Bool :=
  row.sourceWorkflow = input.sourceWorkflow && row.sourceRunId = input.sourceRunId
    && row.sourceUnitId = input.sourceUnitId
    && row.diagnosticBundleDigest = input.diagnosticBundleDigest
    && row.trajectoryReference = input.trajectoryReference
    && (c.observations.row input.extractionId).map (·.bodyMarkdown) = input.observation

/-- Insert the extraction, or compare it with the one that exists. -/
def insertExtraction (input : ExtractionRegistration) (c : Catalog) :
    Except CatalogError (Bool × Catalog) :=
  match c.extractions.row input.extractionId with
  | none => do
    let inserted := { c with
      extractions := c.extractions.put input.extractionId (extractionOf input c.clock) }
    let observed ← insertObservation input inserted
    return (true, observed)
  | some row => do
    ensure (identicalExtraction input row c) (.extractionConflict
      s!"Extraction id already exists with different content: {input.extractionId}")
    return (false, c)

def registerExtraction (input : ExtractionRegistration) (c : Catalog) :
    Except CatalogError (Bool × Catalog) := do
  let identity ← confirmedExtraction input c
  let selected ← selectExtractionPublication identity c
  insertExtraction input selected

def revisionPublicationIdentity (input : RevisionCreation) : PublicationIdentity where
  sourceKind := input.source.kind
  ownerId := input.source.ownerId
  treeDigest := input.memoryTreeReference.digest
  trajectoryDigest := input.source.trajectoryDigest

/-- The intent without the actor of an operator. -/
inductive ProjectedSource where
  | maintenance (maintenanceId : OperationId) (extractionIds : List ExtractionId)
      (trajectoryReference : ArtifactReference)
  | operator (operationId : OperationId)
  deriving DecidableEq

structure ProjectedPublication where
  status : PublicationStatus
  expectedActiveRevision : Nat
  memoryTreeReference : ArtifactReference
  source : ProjectedSource
  deriving DecidableEq

def projectRevisionPublication (row : RevisionPublication) : ProjectedPublication where
  status := row.status
  expectedActiveRevision := row.intent.expectedActiveRevision
  memoryTreeReference := row.intent.memoryTreeReference
  source := match row.intent.source with
    | .maintenance maintenanceId extractionIds trajectory =>
      .maintenance maintenanceId extractionIds trajectory
    | .operator operationId _ => .operator operationId

def insertRevisionPublication (intent : RevisionCreation) (c : Catalog) : Catalog :=
  let identity := revisionPublicationIdentity intent
  match c.revisionPublications.row identity with
  | some _ => c
  | none => { c with
      revisionPublications := c.revisionPublications.put identity
        { intent := intent, status := .reserved, createdAt := c.clock } }

def reserveRevisionPublication (intent : RevisionCreation) (c : Catalog) :
    Except CatalogError (ProjectedPublication × Catalog) :=
  let inserted := insertRevisionPublication intent c
  match inserted.revisionPublications.row (revisionPublicationIdentity intent) with
  | some row =>
    if row.intent = intent then .ok (projectRevisionPublication row, inserted)
    else .error (.memoryTreeRevisionConflict "Revision publication intent changed.")
  | none => .error (.memoryTreeRevisionConflict "Revision publication intent changed.")

def confirmRevisionPublication (intent : RevisionCreation) (c : Catalog) :
    Except CatalogError (ProjectedPublication × Catalog) :=
  let identity := revisionPublicationIdentity intent
  let required : CatalogError :=
    .memoryTreeRevisionConflict "Matching revision publication reservation is required."
  match c.revisionPublications.row identity with
  | none => .error required
  | some row =>
    if row.intent = intent then
      let confirmed := { row with status := confirmStatus row.status }
      .ok (projectRevisionPublication confirmed, { c with
        revisionPublications := c.revisionPublications.put identity confirmed })
    else .error required

structure RevisionCreationResult where
  created : Bool
  revision : Nat
  sourceKind : SourceKind
  sourceId : OperationId
  deriving DecidableEq

def selectRevisionPublication (identity : PublicationIdentity) (c : Catalog) :
    Except CatalogError Catalog :=
  match c.revisionPublications.row identity with
  | none => .ok c
  | some row => do
    ensure (c.revisionPublications.matching fun key other =>
        key.sourceKind = identity.sourceKind && key.ownerId = identity.ownerId
          && key ≠ identity && other.status = .selected).isEmpty
      (.constraintViolation "memory_revision_publications_selected")
    return { c with
      revisionPublications := c.revisionPublications.put identity
        { row with status := .selected } }

/-- The creation was confirmed as a candidate, and no other one was selected. -/
def confirmedRevision (input : RevisionCreation) (c : Catalog) : Except CatalogError Unit := do
  ensure (c.revisionPublications.matching fun key row =>
      key.sourceKind = input.source.kind && key.ownerId = input.source.ownerId
        && row.status = .selected && row.intent ≠ input).isEmpty
    (.memoryTreeRevisionConflict "A different revision publication is already selected.")
  ensure ((c.revisionPublications.row (revisionPublicationIdentity input)).any fun row =>
      row.intent = input && (row.status = .present || row.status = .selected))
    (.memoryTreeRevisionConflict "A confirmed revision publication is required.")

/-- `nullif($2, 0)`. -/
def nullifZero (revision : Nat) : Option Nat :=
  if revision = 0 then none else some revision

/-- `array_agg(extraction_id order by extraction_id)`, in the order of the
database. -/
def consumedObservations (collation : Collation) (revision : Nat) (c : Catalog) :
    List ExtractionId :=
  collation.sort (c.observations.matching fun _ o => o.consumedRevision = some revision)

def identicalSource (collation : Collation) (source : RevisionSource) (number : Nat)
    (row : Revision) (c : Catalog) : Bool :=
  match source, row.origin with
  | .maintenance _ extractionIds trajectory, .maintenance _ recorded =>
    recorded = trajectory
      && consumedObservations collation number c = sortByCodeUnits extractionIds
  | .operator _ actor, .operator _ recorded => recorded = actor
  | _, _ => false

def identicalRevision (collation : Collation) (input : RevisionCreation)
    (number : Nat) (c : Catalog) : Bool :=
  (c.revisions.row number).any fun row =>
    row.predecessorRevision = nullifZero input.expectedActiveRevision
      && row.memoryTreeReference = input.memoryTreeReference
      && identicalSource collation input.source number row c

def sameOwner (source : RevisionSource) (row : Revision) : Bool :=
  row.origin.kind = source.kind && row.origin.ownerId = source.ownerId

def revisionIdExists (source : RevisionSource) : CatalogError :=
  .memoryTreeRevisionConflict ((match source with
    | .maintenance _ _ _ => "Maintenance id"
    | .operator _ _ => "Operation id") ++ " already exists with different content.")

/-- The replay query: the revision of this owner, if there is one. -/
def revisionReplay (collation : Collation) (input : RevisionCreation) (c : Catalog) :
    Option (Except CatalogError RevisionCreationResult) :=
  match c.revisions.matching fun _ row => sameOwner input.source row with
  | [] => none
  | number :: _ =>
    some (if identicalRevision collation input number c then
      .ok { created := false, revision := number, sourceKind := input.source.kind,
            sourceId := input.source.ownerId }
    else .error (revisionIdExists input.source))

def checkEnabled (source : RevisionSource) (c : Catalog) : Except CatalogError Unit :=
  match source with
  | .maintenance _ _ _ => ensure (c.control.state = .enabled)
      (.maintenancePaused "Automatic memory maintenance is paused.")
  | .operator _ _ => .ok ()

def checkActive (expected : Nat) (c : Catalog) : Except CatalogError Unit :=
  ensure (c.treeState.activeRevision = expected) (.memoryTreeRevisionConflict
    s!"Active revision no longer matches expected active revision {expected}.")

/-- The observations that the update will consume. -/
def pendingAmong (extractionIds : List ExtractionId) (c : Catalog) : List ExtractionId :=
  c.observations.matching fun id o => id ∈ extractionIds && o.consumedRevision = none

def checkPending (source : RevisionSource) (c : Catalog) : Except CatalogError Unit :=
  match source with
  | .maintenance _ extractionIds _ =>
    ensure ((pendingAmong extractionIds c).length = extractionIds.length
        && extractionIds.all fun id => id ∈ pendingAmong extractionIds c)
      (.memoryTreeRevisionConflict "One or more source observations are no longer pending.")
  | .operator _ _ => .ok ()

/-- `coalesce(max(revision), 0) + 1`. -/
def nextRevision (c : Catalog) : Nat := c.revisions.keys.foldr max 0 + 1

def originOf : RevisionSource → RevisionOrigin
  | .maintenance maintenanceId _ trajectory => .maintenance maintenanceId trajectory
  | .operator operationId actor => .operator operationId actor

def revisionOf (input : RevisionCreation) (now : Timestamp) : Revision where
  predecessorRevision := nullifZero input.expectedActiveRevision
  memoryTreeReference := input.memoryTreeReference
  origin := originOf input.source
  createdAt := now

/-- The insert, with the keys and the reference the table checks. -/
def insertRevision (number : Nat) (input : RevisionCreation) (c : Catalog) :
    Except CatalogError Catalog := do
  ensure (c.revisions.row number).isNone (.constraintViolation "memory_tree_revisions_pkey")
  ensure (c.revisions.matching fun _ row => sameOwner input.source row).isEmpty
    (.constraintViolation (match input.source with
      | .maintenance _ _ _ => "memory_tree_revisions_maintenance_id_key"
      | .operator _ _ => "memory_tree_revisions_operation_id_unique"))
  ensure (input.expectedActiveRevision = 0
      || (c.revisions.row input.expectedActiveRevision).isSome)
    (.constraintViolation "memory_tree_revisions_predecessor_revision_fkey")
  return { c with revisions := c.revisions.put number (revisionOf input c.clock) }

def consumeObservation (extractionIds : List ExtractionId) (number : Nat)
    (id : ExtractionId) (o : Observation) : Observation :=
  if id ∈ extractionIds ∧ o.consumedRevision = none then
    { o with consumedRevision := some number }
  else o

/-- The update of the observations; an operator's revision has none. -/
def consumeObservations (source : RevisionSource) (number : Nat) (c : Catalog) :
    Catalog :=
  match source with
  | .maintenance _ extractionIds _ => { c with
      observations := c.observations.mapRowsWithKey (consumeObservation extractionIds number) }
  | .operator _ _ => c

def setActive (number : Nat) (c : Catalog) : Catalog :=
  { c with treeState := { activeRevision := number, updatedAt := c.clock } }

/-- What follows when the owner has no revision yet. -/
def commitRevision (input : RevisionCreation) (c : Catalog) :
    Except CatalogError (RevisionCreationResult × Catalog) := do
  checkEnabled input.source c
  checkActive input.expectedActiveRevision c
  checkPending input.source c
  let number := nextRevision c
  let inserted ← insertRevision number input c
  return ({ created := true, revision := number, sourceKind := input.source.kind,
            sourceId := input.source.ownerId },
    setActive number (consumeObservations input.source number inserted))

def createMemoryTreeRevision (collation : Collation) (input : RevisionCreation) (c : Catalog) :
    Except CatalogError (RevisionCreationResult × Catalog) := do
  confirmedRevision input c
  let selected ← selectRevisionPublication (revisionPublicationIdentity input) c
  match revisionReplay collation input selected with
  | some replay => do
    let result ← replay
    return (result, selected)
  | none => commitRevision input selected

structure RestoreResult where
  created : Bool
  activeRevision : Nat
  operationId : OperationId
  deriving DecidableEq

def identicalRestore (input : RestoreRequest) (row : RestoreOperation) : Bool :=
  row.expectedActiveRevision = input.expectedActiveRevision
    && row.restoredRevision = input.restoredRevision && row.actor = input.actor

def restoreReplay (input : RestoreRequest) (c : Catalog) :
    Option (Except CatalogError RestoreResult) :=
  (c.restores.row input.operationId).map fun row =>
    if identicalRestore input row then
      .ok { created := false, activeRevision := row.restoredRevision,
            operationId := input.operationId }
    else .error (.memoryTreeRevisionConflict
      "Restore operation id already exists with different content.")

def checkRestored (input : RestoreRequest) (c : Catalog) : Except CatalogError Unit :=
  ensure (c.revisions.row input.restoredRevision).isSome (.memoryTreeRevisionConflict
    s!"Restored revision does not exist: {input.restoredRevision}.")

def insertRestore (input : RestoreRequest) (c : Catalog) : Except CatalogError Catalog := do
  ensure (c.restores.row input.operationId).isNone
    (.constraintViolation "memory_tree_restore_operations_pkey")
  ensure (c.revisions.row input.expectedActiveRevision).isSome
    (.constraintViolation "memory_tree_restore_operations_expected_active_revision_fkey")
  ensure (c.revisions.row input.restoredRevision).isSome
    (.constraintViolation "memory_tree_restore_operations_restored_revision_fkey")
  return { c with
    restores := c.restores.put input.operationId
      { expectedActiveRevision := input.expectedActiveRevision,
        restoredRevision := input.restoredRevision, actor := input.actor,
        createdAt := c.clock } }

def restoreMemoryTree (input : RestoreRequest) (c : Catalog) :
    Except CatalogError (RestoreResult × Catalog) :=
  match restoreReplay input c with
  | some replay => do
    let result ← replay
    return (result, c)
  | none => do
    checkActive input.expectedActiveRevision c
    checkRestored input c
    let inserted ← insertRestore input c
    return ({ created := true, activeRevision := input.restoredRevision,
              operationId := input.operationId }, setActive input.restoredRevision inserted)

structure ControlResult where
  created : Bool
  control : MaintenanceControl
  deriving DecidableEq

def identicalControl (input : ControlRequest) (row : ControlOperation) : Bool :=
  row.targetState = input.targetState && row.expectedGeneration = input.expectedGeneration
    && row.actor = input.actor

def controlReplay (input : ControlRequest) (c : Catalog) :
    Option (Except CatalogError ControlResult) :=
  (c.controlOperations.row input.operationId).map fun row =>
    if identicalControl input row then
      .ok { created := false
            control := { state := row.resultingState, generation := row.resultingGeneration,
                         changedBy := row.actor, changedAt := row.changedAt } }
    else .error (.maintenanceControlConflict
      "Control operation id already exists with different content.")

/-- `targetState === 'paused' ? 'enabled' : 'paused'`. -/
def expectedState : ControlState → ControlState
  | .paused => .enabled
  | .enabled => .paused

/-- The checks on the locked row. -/
def checkControl (input : ControlRequest) (c : Catalog) : Except CatalogError Unit := do
  ensure (c.control.generation = input.expectedGeneration) (.maintenanceControlConflict
    s!"Maintenance control generation no longer matches {input.expectedGeneration}.")
  ensure (c.control.state = expectedState input.targetState) (.maintenanceControlConflict
    (s!"Maintenance control cannot transition from {c.control.state.name} to "
      ++ s!"{input.targetState.name}."))

def updateControl (input : ControlRequest) (c : Catalog) : Catalog :=
  { c with control :=
    { state := input.targetState, generation := c.control.generation + 1,
      changedBy := input.actor, changedAt := c.clock } }

def insertControlOperation (input : ControlRequest) (c : Catalog) :
    Except CatalogError Catalog := do
  ensure (c.controlOperations.row input.operationId).isNone
    (.constraintViolation "maintenance_control_operations_pkey")
  return { c with
    controlOperations := c.controlOperations.put input.operationId
      { targetState := input.targetState, expectedGeneration := input.expectedGeneration,
        actor := input.actor, resultingState := c.control.state,
        resultingGeneration := c.control.generation, changedAt := c.control.changedAt } }

def changeMaintenanceControl (input : ControlRequest) (c : Catalog) :
    Except CatalogError (ControlResult × Catalog) :=
  match controlReplay input c with
  | some replay => do
    let result ← replay
    return (result, c)
  | none => do
    checkControl input c
    let changed := updateControl input c
    let recorded ← insertControlOperation input changed
    return ({ created := true, control := changed.control }, recorded)

inductive Call where
  | reserveExtractionPublication (intent : ExtractionPublicationIntent)
  | confirmExtractionPublication (intent : ExtractionPublicationIntent)
  | reserveRevisionPublication (intent : RevisionCreation)
  | confirmRevisionPublication (intent : RevisionCreation)
  | registerExtraction (input : ExtractionRegistration)
  | createMemoryTreeRevision (input : RevisionCreation)
  | restoreMemoryTree (input : RestoreRequest)
  | changeMaintenanceControl (input : ControlRequest)
  | advance (elapsed : Nat)
  deriving DecidableEq

/-- `inTransaction`: a transaction that throws leaves the catalog as it was. -/
def committed {α : Type} (c : Catalog) : Except CatalogError (α × Catalog) → Catalog
  | .ok (_, next) => next
  | .error _ => c

def Call.execute (collation : Collation) (c : Catalog) : Call → Catalog
  | .reserveExtractionPublication intent =>
    committed c (CatalogStore.reserveExtractionPublication intent c)
  | .confirmExtractionPublication intent =>
    committed c (CatalogStore.confirmExtractionPublication intent c)
  | .reserveRevisionPublication intent =>
    committed c (CatalogStore.reserveRevisionPublication intent c)
  | .confirmRevisionPublication intent =>
    committed c (CatalogStore.confirmRevisionPublication intent c)
  | .registerExtraction input => committed c (CatalogStore.registerExtraction input c)
  | .createMemoryTreeRevision input =>
    committed c (CatalogStore.createMemoryTreeRevision collation input c)
  | .restoreMemoryTree input => committed c (CatalogStore.restoreMemoryTree input c)
  | .changeMaintenanceControl input =>
    committed c (CatalogStore.changeMaintenanceControl input c)
  | .advance elapsed => { c with clock := c.clock + elapsed }

/-- Any sequence of calls, each an atomic transaction. -/
def catalog (collation : Collation) : System Catalog Call where
  initial := Catalog.initial
  step := fun c call => call.execute collation c

end CatalogStore
