import Mathlib.Data.List.Lex
import SecReviewBot.KeyedTables

/-!
# The memory catalog's tables

`001_initial_catalog.sql` and the contract types the store reads: extractions
with their optional observation, the immutable memory tree revisions with the
active pointer beside them, the ledgers of restores and of pause and resume, and
the two publication ledgers. A singleton table is a field; timestamps are
microseconds of one database clock.
-/

namespace MemoryCatalogSchema

open KeyedTables

abbrev Timestamp := Nat
abbrev ExtractionId := String
abbrev OperationId := String
abbrev Digest := String

structure ArtifactReference where
  uri : String
  digest : Digest
  mediaType : String
  sizeBytes : Nat
  deriving DecidableEq

inductive ActorKind where
  | user | service
  deriving DecidableEq

structure Actor where
  kind : ActorKind
  id : String
  deriving DecidableEq

/-- `observation` is the `body_markdown`, if there is an observation. -/
structure ExtractionRegistration where
  extractionId : ExtractionId
  sourceWorkflow : String
  sourceRunId : String
  sourceUnitId : String
  diagnosticBundleDigest : Digest
  trajectoryReference : ArtifactReference
  observation : Option String
  deriving DecidableEq

structure ExtractionPublicationIntent where
  registration : ExtractionRegistration
  summary : String
  deriving DecidableEq

inductive SourceKind where
  | maintenance | operator
  deriving DecidableEq

/-- The source of an authenticated revision creation. -/
inductive RevisionSource where
  | maintenance (maintenanceId : OperationId) (extractionIds : List ExtractionId)
      (trajectoryReference : ArtifactReference)
  | operator (operationId : OperationId) (actor : Actor)
  deriving DecidableEq

namespace RevisionSource

def kind : RevisionSource → SourceKind
  | .maintenance _ _ _ => .maintenance
  | .operator _ _ => .operator

/-- `maintenance_id` or `operation_id`. -/
def ownerId : RevisionSource → OperationId
  | .maintenance maintenanceId _ _ => maintenanceId
  | .operator operationId _ => operationId

def extractionIds : RevisionSource → List ExtractionId
  | .maintenance _ extractionIds _ => extractionIds
  | .operator _ _ => []

/-- The fourth part of `revisionPublicationIdentity`. -/
def trajectoryDigest : RevisionSource → Digest
  | .maintenance _ _ trajectory => trajectory.digest
  | .operator _ _ => ""

end RevisionSource

/-- `AuthenticatedMemoryTreeRevisionCreation`. -/
structure RevisionCreation where
  expectedActiveRevision : Nat
  memoryTreeReference : ArtifactReference
  source : RevisionSource
  deriving DecidableEq

/-- `AuthenticatedMemoryTreeRestoreOperation`. -/
structure RestoreRequest where
  operationId : OperationId
  expectedActiveRevision : Nat
  restoredRevision : Nat
  actor : Actor
  deriving DecidableEq

inductive ControlState where
  | enabled | paused
  deriving DecidableEq

def ControlState.name : ControlState → String
  | .enabled => "enabled"
  | .paused => "paused"

/-- `AuthenticatedMaintenanceControlOperation`, with the target state. -/
structure ControlRequest where
  targetState : ControlState
  operationId : OperationId
  expectedGeneration : Nat
  actor : Actor
  deriving DecidableEq

structure Extraction where
  sourceWorkflow : String
  sourceRunId : String
  sourceUnitId : String
  diagnosticBundleDigest : Digest
  trajectoryReference : ArtifactReference
  createdAt : Timestamp
  deriving DecidableEq

/-- An observation is pending while no revision consumed it. -/
structure Observation where
  bodyMarkdown : String
  consumedRevision : Option Nat
  createdAt : Timestamp
  deriving DecidableEq

/-- The columns that `memory_tree_revisions_source_shape_check` ties to
`source_kind`. -/
inductive RevisionOrigin where
  | maintenance (maintenanceId : OperationId) (trajectoryReference : ArtifactReference)
  | operator (operationId : OperationId) (actor : Actor)
  deriving DecidableEq

namespace RevisionOrigin

def kind : RevisionOrigin → SourceKind
  | .maintenance _ _ => .maintenance
  | .operator _ _ => .operator

def ownerId : RevisionOrigin → OperationId
  | .maintenance maintenanceId _ => maintenanceId
  | .operator operationId _ => operationId

end RevisionOrigin

/-- Rows are numbered from one: zero stands for the empty catalog. -/
structure Revision where
  predecessorRevision : Option Nat
  memoryTreeReference : ArtifactReference
  origin : RevisionOrigin
  createdAt : Timestamp
  deriving DecidableEq

structure RestoreOperation where
  expectedActiveRevision : Nat
  restoredRevision : Nat
  actor : Actor
  createdAt : Timestamp
  deriving DecidableEq

structure MaintenanceControl where
  state : ControlState
  generation : Nat
  changedBy : Actor
  changedAt : Timestamp
  deriving DecidableEq

structure ControlOperation where
  targetState : ControlState
  expectedGeneration : Nat
  actor : Actor
  resultingState : ControlState
  resultingGeneration : Nat
  changedAt : Timestamp
  deriving DecidableEq

inductive PublicationStatus where
  | reserved | present | selected
  deriving DecidableEq

structure ExtractionPublication where
  intent : ExtractionPublicationIntent
  status : PublicationStatus
  createdAt : Timestamp
  deriving DecidableEq

structure RevisionPublication where
  intent : RevisionCreation
  status : PublicationStatus
  createdAt : Timestamp
  deriving DecidableEq

/-- `primary key (source_kind, owner_id, tree_digest, trajectory_digest)`. -/
structure PublicationIdentity where
  sourceKind : SourceKind
  ownerId : OperationId
  treeDigest : Digest
  trajectoryDigest : Digest
  deriving DecidableEq

/-- `memory_tree_state`. -/
structure MemoryTreeState where
  activeRevision : Nat
  updatedAt : Timestamp
  deriving DecidableEq

structure Catalog where
  clock : Timestamp
  extractions : Table ExtractionId Extraction
  observations : Table ExtractionId Observation
  revisions : Table Nat Revision
  treeState : MemoryTreeState
  restores : Table OperationId RestoreOperation
  control : MaintenanceControl
  controlOperations : Table OperationId ControlOperation
  extractionPublications : Table (ExtractionId × Digest) ExtractionPublication
  revisionPublications : Table PublicationIdentity RevisionPublication

/-- The rows the schema version inserts. -/
def Catalog.initial : Catalog where
  clock := 0
  extractions := Table.empty
  observations := Table.empty
  revisions := Table.empty
  treeState := { activeRevision := 0, updatedAt := 0 }
  restores := Table.empty
  control :=
    { state := .enabled, generation := 0,
      changedBy := { kind := .service, id := "memory-catalog" }, changedAt := 0 }
  controlOperations := Table.empty
  extractionPublications := Table.empty
  revisionPublications := Table.empty

/-- A collation of the database: any total order on texts. -/
structure Collation where
  le : String → String → Bool
  total : ∀ a b, le a b = true ∨ le b a = true
  trans : ∀ a b c, le a b = true → le b c = true → le a c = true
  antisymm : ∀ a b, le a b = true → le b a = true → a = b

def Collation.sort (collation : Collation) (texts : List String) : List String :=
  texts.insertionSort fun a b => collation.le a b = true

/-- The UTF-16 code units of a character. -/
def utf16Units (ch : Char) : List Nat :=
  if ch.toNat < 0x10000 then [ch.toNat]
  else [0xD800 + (ch.toNat - 0x10000) / 0x400, 0xDC00 + (ch.toNat - 0x10000) % 0x400]

def utf16 (text : String) : List Nat := text.toList.flatMap utf16Units

/-- `Array.prototype.sort` without a comparator. -/
def sortByCodeUnits (texts : List String) : List String :=
  texts.insertionSort fun a b => utf16 a ≤ utf16 b

end MemoryCatalogSchema
