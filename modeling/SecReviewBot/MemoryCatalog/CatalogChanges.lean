import SecReviewBot.MemoryCatalog.CatalogStore

/-!
# What one call can do to the catalog

Every call leaves the catalog as it was or makes one of the changes below, with
the guards that its checks have established. What holds of all of them, and so
of any later catalog, is that rows of the history and selected candidates stay.
-/

namespace CatalogChanges

open KeyedTables MemoryCatalogSchema CatalogStore TransitionSystems

theorem bind_ok {α β : Type} {x : Except CatalogError α} {f : α → Except CatalogError β} {b : β}
    (h : x >>= f = .ok b) : ∃ a, x = .ok a ∧ f a = .ok b := by
  cases x with
  | error e => cases h
  | ok a => exact ⟨a, rfl, h⟩

@[simp] theorem ok_bind {α β : Type} (a : α) (f : α → Except CatalogError β) :
    (Except.ok a >>= f) = f a := rfl

theorem ensure_ok {condition : Bool} {error : CatalogError} {u : Unit}
    (h : ensure condition error = .ok u) : condition = true := by
  cases condition with
  | true => rfl
  | false => cases h

@[simp] theorem ensure_true (error : CatalogError) : ensure true error = .ok () := rfl

theorem isEmpty_matching {K V : Type} {t : Table K V} {p : K → V → Bool} :
    (t.matching p).isEmpty = true ↔ ∀ k v, t.row k = some v → p k v = false := by
  rw [List.isEmpty_iff, Table.matching_eq_nil]

/-- No other candidate of the owner is selected. -/
def SoleExtraction (identity : ExtractionId × Digest) (c : Catalog) : Prop :=
  ∀ key row, c.extractionPublications.row key = some row → key.1 = identity.1 →
    row.status = .selected → key = identity

def SoleRevision (identity : PublicationIdentity) (c : Catalog) : Prop :=
  ∀ key row, c.revisionPublications.row key = some row →
    key.sourceKind = identity.sourceKind → key.ownerId = identity.ownerId →
      row.status = .selected → key = identity

/-- The candidate that a registration selects. -/
structure ConfirmedExtraction (input : ExtractionRegistration) (identity : ExtractionId × Digest)
    (row : ExtractionPublication) (c : Catalog) : Prop where
  owner : identity.1 = input.extractionId
  found : c.extractionPublications.row identity = some row
  intent : row.intent.registration = input
  confirmed : row.status = .present ∨ row.status = .selected
  sole : SoleExtraction identity c
  undisputed : ∀ key other, c.extractionPublications.row key = some other →
    key.1 = input.extractionId → other.status = .selected → other.intent.registration = input

/-- The catalog with the candidate selected. -/
def withSelectedExtraction (identity : ExtractionId × Digest) (row : ExtractionPublication)
    (c : Catalog) : Catalog :=
  { c with
    extractionPublications := c.extractionPublications.put identity
      { row with status := .selected } }

theorem selectExtraction_ok {input : ExtractionRegistration} {c selected : Catalog}
    {identity : ExtractionId × Digest} (confirmed : confirmedExtraction input c = .ok identity)
    (selects : selectExtractionPublication identity c = .ok selected) :
    ∃ row, ConfirmedExtraction input identity row c ∧
      selected = withSelectedExtraction identity row c := by
  obtain ⟨u, undisputed, chosen⟩ := bind_ok confirmed
  have undisputed := isEmpty_matching.mp (ensure_ok undisputed)
  split at chosen
  · cases chosen
  · next key rest candidates =>
    obtain rfl := Except.ok.inj chosen
    have candidate : key ∈ key :: rest := List.mem_cons_self
    rw [← candidates, Table.mem_matching] at candidate
    obtain ⟨row, found, matched⟩ := candidate
    simp only [Bool.and_eq_true, Bool.or_eq_true, decide_eq_true_eq] at matched
    obtain ⟨⟨owner, intent⟩, confirmed⟩ := matched
    have same : (input.extractionId, key.2) = key := Prod.ext owner.symm rfl
    rw [same] at selects ⊢
    simp only [selectExtractionPublication, found] at selects
    obtain ⟨u, sole, written⟩ := bind_ok selects
    obtain rfl := Except.ok.inj written
    have sole := isEmpty_matching.mp (ensure_ok sole)
    refine ⟨row, ⟨owner, found, intent, confirmed, ?_, ?_⟩, rfl⟩
    · intro other row' found' owner' selected
      by_contra different
      simpa [owner', different, selected] using sole other row' found'
    · intro other row' found' owner' selected
      by_contra different
      simpa [owner', different, selected] using undisputed other row' found'

structure ConfirmedRevision (input : RevisionCreation) (row : RevisionPublication) (c : Catalog) :
    Prop where
  found : c.revisionPublications.row (revisionPublicationIdentity input) = some row
  intent : row.intent = input
  confirmed : row.status = .present ∨ row.status = .selected
  sole : SoleRevision (revisionPublicationIdentity input) c
  undisputed : ∀ key other, c.revisionPublications.row key = some other →
    key.sourceKind = input.source.kind → key.ownerId = input.source.ownerId →
      other.status = .selected → other.intent = input

def withSelectedRevision (identity : PublicationIdentity) (row : RevisionPublication)
    (c : Catalog) : Catalog :=
  { c with
    revisionPublications := c.revisionPublications.put identity { row with status := .selected } }

theorem selectRevision_ok {input : RevisionCreation} {c selected : Catalog} {u : Unit}
    (confirmed : confirmedRevision input c = .ok u)
    (selects : selectRevisionPublication (revisionPublicationIdentity input) c = .ok selected) :
    ∃ row, ConfirmedRevision input row c ∧
      selected = withSelectedRevision (revisionPublicationIdentity input) row c := by
  obtain ⟨u, undisputed, chosen⟩ := bind_ok confirmed
  have undisputed := isEmpty_matching.mp (ensure_ok undisputed)
  have chosen := ensure_ok chosen
  rw [Option.any_eq_true] at chosen
  obtain ⟨row, found, matched⟩ := chosen
  simp only [Bool.and_eq_true, Bool.or_eq_true, decide_eq_true_eq] at matched
  simp only [selectRevisionPublication, found] at selects
  obtain ⟨u, sole, written⟩ := bind_ok selects
  obtain rfl := Except.ok.inj written
  have sole := isEmpty_matching.mp (ensure_ok sole)
  refine ⟨row, ⟨found, matched.1, matched.2, ?_, ?_⟩, rfl⟩
  · intro other row' found' kind owner selected
    by_contra different
    simpa [kind, owner, different, selected] using sole other row' found'
  · intro other row' found' kind owner selected
    by_contra different
    simpa [kind, owner, different, selected] using undisputed other row' found'

/-- The extraction a registration adds, with its observation. -/
def withExtraction (input : ExtractionRegistration) (c : Catalog) : Catalog :=
  { c with
    extractions := c.extractions.put input.extractionId (extractionOf input c.clock)
    observations := match input.observation with
      | none => c.observations
      | some body => c.observations.put input.extractionId
          { bodyMarkdown := body, consumedRevision := none, createdAt := c.clock } }

/-- The revision a creation adds, active and with its observations consumed. -/
def withRevision (input : RevisionCreation) (number : Nat) (c : Catalog) : Catalog :=
  { c with
    revisions := c.revisions.put number (revisionOf input c.clock)
    observations :=
      c.observations.mapRowsWithKey (consumeObservation input.source.extractionIds number)
    treeState := { activeRevision := number, updatedAt := c.clock } }

def withRestore (input : RestoreRequest) (c : Catalog) : Catalog :=
  { c with
    restores := c.restores.put input.operationId
      { expectedActiveRevision := input.expectedActiveRevision,
        restoredRevision := input.restoredRevision, actor := input.actor, createdAt := c.clock }
    treeState := { activeRevision := input.restoredRevision, updatedAt := c.clock } }

/-- The control row after the request. -/
def changedControl (input : ControlRequest) (c : Catalog) : MaintenanceControl where
  state := input.targetState
  generation := c.control.generation + 1
  changedBy := input.actor
  changedAt := c.clock

def withControl (input : ControlRequest) (c : Catalog) : Catalog :=
  { c with
    control := changedControl input c
    controlOperations := c.controlOperations.put input.operationId
      { targetState := input.targetState, expectedGeneration := input.expectedGeneration,
        actor := input.actor, resultingState := input.targetState,
        resultingGeneration := c.control.generation + 1, changedAt := c.clock } }

/-- What a creation has checked when it adds its revision. -/
structure Committable (input : RevisionCreation) (c : Catalog) : Prop where
  fresh : ∀ number row, c.revisions.row number = some row → sameOwner input.source row = false
  unpaused : input.source.kind = .maintenance → c.control.state = .enabled
  active : c.treeState.activeRevision = input.expectedActiveRevision
  count : (pendingAmong input.source.extractionIds c).length = input.source.extractionIds.length
  pending : ∀ id ∈ input.source.extractionIds, ∃ o, c.observations.row id = some o ∧
    o.consumedRevision = none
  unused : c.revisions.row (nextRevision c) = none
  predecessor : input.expectedActiveRevision = 0 ∨
    (c.revisions.row input.expectedActiveRevision).isSome = true

/-- What a restore has checked. -/
structure Restorable (input : RestoreRequest) (c : Catalog) : Prop where
  fresh : c.restores.row input.operationId = none
  active : c.treeState.activeRevision = input.expectedActiveRevision
  expected : (c.revisions.row input.expectedActiveRevision).isSome = true
  restored : (c.revisions.row input.restoredRevision).isSome = true

structure Changeable (input : ControlRequest) (c : Catalog) : Prop where
  fresh : c.controlOperations.row input.operationId = none
  generation : c.control.generation = input.expectedGeneration
  state : c.control.state = expectedState input.targetState

inductive Change (c : Catalog) : Call → Catalog → Prop
  | idle {call : Call} : Change c call c
  | advance (elapsed : Nat) : Change c (.advance elapsed) { c with clock := c.clock + elapsed }
  | reserveExtraction (intent : ExtractionPublicationIntent)
      (absent : c.extractionPublications.row
        (extractionPublicationIdentity intent.registration) = none) :
      Change c (.reserveExtractionPublication intent) (insertExtractionPublication intent c)
  | confirmExtraction (intent : ExtractionPublicationIntent) (row : ExtractionPublication)
      (found : c.extractionPublications.row
        (extractionPublicationIdentity intent.registration) = some row) :
      Change c (.confirmExtractionPublication intent) { c with
        extractionPublications := c.extractionPublications.put
          (extractionPublicationIdentity intent.registration)
          { row with status := confirmStatus row.status } }
  | reserveRevision (intent : RevisionCreation)
      (absent : c.revisionPublications.row (revisionPublicationIdentity intent) = none) :
      Change c (.reserveRevisionPublication intent) (insertRevisionPublication intent c)
  | confirmRevision (intent : RevisionCreation) (row : RevisionPublication)
      (found : c.revisionPublications.row (revisionPublicationIdentity intent) = some row) :
      Change c (.confirmRevisionPublication intent) { c with
        revisionPublications := c.revisionPublications.put (revisionPublicationIdentity intent)
          { row with status := confirmStatus row.status } }
  /-- The extraction exists with this content. -/
  | selectExtraction {input : ExtractionRegistration} {identity : ExtractionId × Digest}
      {row : ExtractionPublication} (existing : Extraction)
      (confirmed : ConfirmedExtraction input identity row c)
      (found : c.extractions.row input.extractionId = some existing)
      (identical : identicalExtraction input existing c = true) :
      Change c (.registerExtraction input) (withSelectedExtraction identity row c)
  | register {input : ExtractionRegistration} {identity : ExtractionId × Digest}
      {row : ExtractionPublication} (confirmed : ConfirmedExtraction input identity row c)
      (absent : c.extractions.row input.extractionId = none)
      (unobserved : input.observation ≠ none → c.observations.row input.extractionId = none) :
      Change c (.registerExtraction input)
        (withExtraction input (withSelectedExtraction identity row c))
  /-- The revision exists with this content. -/
  | selectRevision (collation : Collation) {input : RevisionCreation} {row : RevisionPublication}
      (number : Nat) (existing : Revision)
      (confirmed : ConfirmedRevision input row c)
      (found : c.revisions.row number = some existing)
      (owner : sameOwner input.source existing = true)
      (identical : identicalRevision collation input number c = true) :
      Change c (.createMemoryTreeRevision input)
        (withSelectedRevision (revisionPublicationIdentity input) row c)
  | create {input : RevisionCreation} {row : RevisionPublication}
      (confirmed : ConfirmedRevision input row c) (committable : Committable input c) :
      Change c (.createMemoryTreeRevision input) (withRevision input (nextRevision c)
        (withSelectedRevision (revisionPublicationIdentity input) row c))
  | restore {input : RestoreRequest} (restorable : Restorable input c) :
      Change c (.restoreMemoryTree input) (withRestore input c)
  | control {input : ControlRequest} (changeable : Changeable input c) :
      Change c (.changeMaintenanceControl input) (withControl input c)

theorem registerExtraction_ok {input : ExtractionRegistration} {c next : Catalog}
    {created : Bool} (h : registerExtraction input c = .ok (created, next)) :
    ∃ identity row, ConfirmedExtraction input identity row c ∧
      (created = true ∧ c.extractions.row input.extractionId = none ∧
          (input.observation ≠ none → c.observations.row input.extractionId = none) ∧
          next = withExtraction input (withSelectedExtraction identity row c) ∨
        created = false ∧ (∃ existing, c.extractions.row input.extractionId = some existing ∧
          identicalExtraction input existing c = true) ∧
          next = withSelectedExtraction identity row c) := by
  obtain ⟨identity, chosen, h⟩ := bind_ok h
  obtain ⟨selected, selects, h⟩ := bind_ok h
  obtain ⟨row, confirmed, rfl⟩ := selectExtraction_ok chosen selects
  refine ⟨identity, row, confirmed, ?_⟩
  simp only [insertExtraction] at h
  split at h
  · next absent =>
    left
    obtain ⟨observed, inserts, h⟩ := bind_ok h
    obtain ⟨rfl, rfl⟩ := Prod.mk.inj (Except.ok.inj h)
    simp only [insertObservation] at inserts
    split at inserts
    · next silent =>
      obtain rfl := Except.ok.inj inserts
      refine ⟨rfl, absent, fun observes => absurd silent observes, ?_⟩
      simp [withExtraction, silent, withSelectedExtraction]
    · next body observes =>
      obtain ⟨u, unobserved, written⟩ := bind_ok inserts
      obtain rfl := Except.ok.inj written
      refine ⟨rfl, absent, fun _ => ?_, ?_⟩
      · simpa [withSelectedExtraction] using ensure_ok unobserved
      · simp [withExtraction, observes, withSelectedExtraction]
  · next existing found =>
    right
    obtain ⟨u, identical, h⟩ := bind_ok h
    obtain ⟨rfl, rfl⟩ := Prod.mk.inj (Except.ok.inj h)
    exact ⟨rfl, ⟨existing, found, ensure_ok identical⟩, rfl⟩

theorem consumeObservations_eq (source : RevisionSource) (number : Nat) (c : Catalog) :
    consumeObservations source number c = { c with
      observations :=
        c.observations.mapRowsWithKey (consumeObservation source.extractionIds number) } := by
  cases source with
  | maintenance maintenanceId extractionIds trajectory => rfl
  | operator operationId actor =>
    have same : c.observations.mapRowsWithKey (consumeObservation [] number)
        = c.observations := by
      apply Table.ext_rows
      · rfl
      · intro id
        cases found : c.observations.row id <;> simp [found, consumeObservation]
    simp only [consumeObservations, RevisionSource.extractionIds, same]

theorem checkPending_ok {source : RevisionSource} {c : Catalog} {u : Unit}
    (h : checkPending source c = .ok u) :
    (pendingAmong source.extractionIds c).length = source.extractionIds.length ∧
      ∀ id ∈ source.extractionIds, ∃ o, c.observations.row id = some o ∧
        o.consumedRevision = none := by
  cases source with
  | operator operationId actor =>
    refine ⟨?_, nofun⟩
    have none : pendingAmong [] c = [] := by
      simp [pendingAmong, Table.matching_eq_nil]
    simp [RevisionSource.extractionIds, none]
  | maintenance maintenanceId extractionIds trajectory =>
    have checked := ensure_ok h
    simp only [Bool.and_eq_true, decide_eq_true_eq, List.all_eq_true] at checked
    refine ⟨checked.1, fun id mem => ?_⟩
    obtain ⟨o, found, pending⟩ := Table.mem_matching.mp (checked.2 id mem)
    simp only [Bool.and_eq_true, decide_eq_true_eq] at pending
    exact ⟨o, found, pending.2⟩

theorem commitRevision_ok {input : RevisionCreation} {c next : Catalog}
    {result : RevisionCreationResult} (h : commitRevision input c = .ok (result, next)) :
    result = ⟨true, nextRevision c, input.source.kind, input.source.ownerId⟩ ∧
      Committable input c ∧ next = withRevision input (nextRevision c) c := by
  obtain ⟨u, enabled, h⟩ := bind_ok h
  obtain ⟨u, active, h⟩ := bind_ok h
  obtain ⟨u, pending, h⟩ := bind_ok h
  obtain ⟨inserted, inserts, h⟩ := bind_ok h
  obtain ⟨rfl, rfl⟩ := Prod.mk.inj (Except.ok.inj h)
  obtain ⟨u, unused, inserts⟩ := bind_ok inserts
  obtain ⟨u, fresh, inserts⟩ := bind_ok inserts
  obtain ⟨u, predecessor, written⟩ := bind_ok inserts
  obtain rfl := Except.ok.inj written
  obtain ⟨count, pending⟩ := checkPending_ok pending
  refine ⟨rfl, ⟨isEmpty_matching.mp (ensure_ok fresh), ?_, ?_, count, pending, ?_, ?_⟩, ?_⟩
  · intro automatic
    cases source : input.source with
    | operator operationId actor =>
      rw [source] at automatic
      cases automatic
    | maintenance maintenanceId extractionIds trajectory =>
      rw [source] at enabled
      simpa using ensure_ok enabled
  · simpa using ensure_ok active
  · simpa using ensure_ok unused
  · simpa using ensure_ok predecessor
  · rw [consumeObservations_eq]
    rfl

theorem createMemoryTreeRevision_ok {collation : Collation} {input : RevisionCreation}
    {c next : Catalog} {result : RevisionCreationResult}
    (h : createMemoryTreeRevision collation input c = .ok (result, next)) :
    ∃ row, ConfirmedRevision input row c ∧
      (result = ⟨true, nextRevision c, input.source.kind, input.source.ownerId⟩ ∧
          Committable input c ∧
          next = withRevision input (nextRevision c)
            (withSelectedRevision (revisionPublicationIdentity input) row c) ∨
        ∃ number existing,
          result = ⟨false, number, input.source.kind, input.source.ownerId⟩ ∧
          c.revisions.row number = some existing ∧ sameOwner input.source existing = true ∧
          identicalRevision collation input number c = true ∧
          next = withSelectedRevision (revisionPublicationIdentity input) row c) := by
  obtain ⟨u, confirmed, h⟩ := bind_ok h
  obtain ⟨selected, selects, h⟩ := bind_ok h
  obtain ⟨row, confirmed, rfl⟩ := selectRevision_ok confirmed selects
  refine ⟨row, confirmed, ?_⟩
  split at h
  · next replay replayed =>
    right
    obtain ⟨answer, replay, h⟩ := bind_ok h
    obtain ⟨rfl, rfl⟩ := Prod.mk.inj (Except.ok.inj h)
    simp only [revisionReplay] at replayed
    split at replayed
    · cases replayed
    · next number rest owned =>
      have candidate : number ∈ number :: rest := List.mem_cons_self
      rw [← owned, Table.mem_matching] at candidate
      obtain ⟨existing, found, owner⟩ := candidate
      rw [replay] at replayed
      have answered := Option.some.inj replayed
      split at answered
      · next identical =>
        exact ⟨number, existing, (Except.ok.inj answered).symm, found, owner, identical, rfl⟩
      · cases answered
  · left
    obtain ⟨rfl, committable, rfl⟩ := commitRevision_ok h
    exact ⟨rfl, ⟨committable.fresh, committable.unpaused, committable.active, committable.count,
      committable.pending, committable.unused, committable.predecessor⟩, rfl⟩

theorem restoreMemoryTree_ok {input : RestoreRequest} {c next : Catalog} {result : RestoreResult}
    (h : restoreMemoryTree input c = .ok (result, next)) :
    result = ⟨true, input.restoredRevision, input.operationId⟩ ∧ Restorable input c ∧
        next = withRestore input c ∨
      result = ⟨false, input.restoredRevision, input.operationId⟩ ∧ next = c ∧
        ∃ row, c.restores.row input.operationId = some row ∧
          identicalRestore input row = true := by
  simp only [restoreMemoryTree] at h
  split at h
  · next replay replayed =>
    right
    obtain ⟨answer, replay, h⟩ := bind_ok h
    obtain ⟨rfl, rfl⟩ := Prod.mk.inj (Except.ok.inj h)
    obtain ⟨row, found, answered⟩ := Option.map_eq_some_iff.mp replayed
    rw [replay] at answered
    split at answered
    · next identical =>
      obtain rfl := Except.ok.inj answered
      have same : row.restoredRevision = input.restoredRevision := by
        simp only [identicalRestore, Bool.and_eq_true, decide_eq_true_eq] at identical
        exact identical.1.2
      exact ⟨by rw [same], rfl, row, found, identical⟩
    · cases answered
  · next fresh =>
    left
    obtain ⟨u, active, h⟩ := bind_ok h
    obtain ⟨u, restored, h⟩ := bind_ok h
    obtain ⟨inserted, inserts, h⟩ := bind_ok h
    obtain ⟨rfl, rfl⟩ := Prod.mk.inj (Except.ok.inj h)
    obtain ⟨u, unused, inserts⟩ := bind_ok inserts
    obtain ⟨u, expected, inserts⟩ := bind_ok inserts
    obtain ⟨u, target, written⟩ := bind_ok inserts
    obtain rfl := Except.ok.inj written
    refine ⟨rfl, ⟨?_, ?_, ensure_ok expected, ensure_ok restored⟩, rfl⟩
    · simpa using ensure_ok unused
    · simpa using ensure_ok active

theorem changeMaintenanceControl_ok {input : ControlRequest} {c next : Catalog}
    {result : ControlResult} (h : changeMaintenanceControl input c = .ok (result, next)) :
    result = ⟨true, changedControl input c⟩ ∧ Changeable input c ∧ next = withControl input c ∨
      next = c ∧ ∃ row, c.controlOperations.row input.operationId = some row ∧
        identicalControl input row = true ∧
        result = ⟨false, row.resultingState, row.resultingGeneration, row.actor,
          row.changedAt⟩ := by
  simp only [changeMaintenanceControl] at h
  split at h
  · next replay replayed =>
    right
    obtain ⟨answer, replay, h⟩ := bind_ok h
    obtain ⟨rfl, rfl⟩ := Prod.mk.inj (Except.ok.inj h)
    obtain ⟨row, found, answered⟩ := Option.map_eq_some_iff.mp replayed
    rw [replay] at answered
    split at answered
    · next identical =>
      exact ⟨rfl, row, found, identical, (Except.ok.inj answered).symm⟩
    · cases answered
  · left
    obtain ⟨u, checked, h⟩ := bind_ok h
    obtain ⟨recorded, records, h⟩ := bind_ok h
    obtain ⟨rfl, rfl⟩ := Prod.mk.inj (Except.ok.inj h)
    obtain ⟨u, generation, state⟩ := bind_ok checked
    obtain ⟨u, unused, written⟩ := bind_ok records
    obtain rfl := Except.ok.inj written
    refine ⟨rfl, ⟨?_, ?_, ?_⟩, rfl⟩
    · simpa [updateControl] using ensure_ok unused
    · simpa using ensure_ok generation
    · simpa using ensure_ok state

theorem execute_change (collation : Collation) (c : Catalog) (call : Call) :
    Change c call (call.execute collation c) := by
  have commits : ∀ {α : Type} (outcome : Except CatalogError (α × Catalog)),
      (∀ answer next, outcome = .ok (answer, next) → Change c call next) →
        Change c call (committed c outcome) := by
    intro α outcome each
    cases outcome with
    | error e => exact .idle
    | ok pair => exact each pair.1 pair.2 rfl
  cases call with
  | advance elapsed => exact .advance elapsed
  | reserveExtractionPublication intent =>
    apply commits
    intro answer next h
    simp only [reserveExtractionPublication] at h
    have inserted : Change c (.reserveExtractionPublication intent)
        (insertExtractionPublication intent c) := by
      cases found : c.extractionPublications.row
          (extractionPublicationIdentity intent.registration) with
      | none => exact .reserveExtraction intent found
      | some row =>
        simp only [insertExtractionPublication, found]
        exact .idle
    split at h
    · split at h
      · cases h
        exact inserted
      · cases h
    · cases h
  | confirmExtractionPublication intent =>
    apply commits
    intro answer next h
    simp only [confirmExtractionPublication] at h
    split at h
    · cases h
    · next row found =>
      split at h
      · cases h
        exact .confirmExtraction intent row found
      · cases h
  | reserveRevisionPublication intent =>
    apply commits
    intro answer next h
    simp only [reserveRevisionPublication] at h
    have inserted : Change c (.reserveRevisionPublication intent)
        (insertRevisionPublication intent c) := by
      cases found : c.revisionPublications.row (revisionPublicationIdentity intent) with
      | none => exact .reserveRevision intent found
      | some row =>
        simp only [insertRevisionPublication, found]
        exact .idle
    split at h
    · split at h
      · cases h
        exact inserted
      · cases h
    · cases h
  | confirmRevisionPublication intent =>
    apply commits
    intro answer next h
    simp only [confirmRevisionPublication] at h
    split at h
    · cases h
    · next row found =>
      split at h
      · cases h
        exact .confirmRevision intent row found
      · cases h
  | registerExtraction input =>
    apply commits
    intro created next h
    obtain ⟨identity, row, confirmed, ⟨-, absent, unobserved, rfl⟩ |
      ⟨-, ⟨existing, found, identical⟩, rfl⟩⟩ := registerExtraction_ok h
    · exact .register confirmed absent unobserved
    · exact .selectExtraction existing confirmed found identical
  | createMemoryTreeRevision input =>
    apply commits
    intro result next h
    obtain ⟨row, confirmed, ⟨-, committable, rfl⟩ |
      ⟨number, existing, -, found, owner, identical, rfl⟩⟩ := createMemoryTreeRevision_ok h
    · exact .create confirmed committable
    · exact .selectRevision collation number existing confirmed found owner identical
  | restoreMemoryTree input =>
    apply commits
    intro result next h
    rcases restoreMemoryTree_ok h with ⟨-, restorable, rfl⟩ | ⟨-, rfl, -⟩
    · exact .restore restorable
    · exact .idle
  | changeMaintenanceControl input =>
    apply commits
    intro result next h
    rcases changeMaintenanceControl_ok h with ⟨-, changeable, rfl⟩ | ⟨rfl, -⟩
    · exact .control changeable
    · exact .idle

/-- Every row of the first table stays as it is. -/
def RowsKept {K V : Type} (t u : Table K V) : Prop :=
  ∀ k v, t.row k = some v → u.row k = some v

theorem rowsKept_refl {K V : Type} (t : Table K V) : RowsKept t t := fun _ _ => id

theorem RowsKept.trans {K V : Type} {t u w : Table K V} (h : RowsKept t u) (h' : RowsKept u w) :
    RowsKept t w :=
  fun k v found => h' k v (h k v found)

theorem rowsKept_put {K V : Type} [DecidableEq K] {t : Table K V} {k : K} (absent : t.row k = none)
    (v : V) : RowsKept t (t.put k v) := by
  intro a w found
  have other : a ≠ k := by
    rintro rfl
    simp [absent] at found
  simp [other, found]

/-- What any later catalog has of this one. -/
structure Kept (c next : Catalog) : Prop where
  extractions : RowsKept c.extractions next.extractions
  revisions : RowsKept c.revisions next.revisions
  restores : RowsKept c.restores next.restores
  controlOperations : RowsKept c.controlOperations next.controlOperations
  observations : ∀ id o, c.observations.row id = some o →
    ∃ o', next.observations.row id = some o' ∧ o'.bodyMarkdown = o.bodyMarkdown
  consumed : ∀ id o, c.observations.row id = some o → o.consumedRevision ≠ none →
    next.observations.row id = some o
  selectedExtractions : ∀ key row, c.extractionPublications.row key = some row →
    row.status = .selected → next.extractionPublications.row key = some row
  selectedRevisions : ∀ key row, c.revisionPublications.row key = some row →
    row.status = .selected → next.revisionPublications.row key = some row

theorem kept_refl (c : Catalog) : Kept c c where
  extractions := rowsKept_refl _
  revisions := rowsKept_refl _
  restores := rowsKept_refl _
  controlOperations := rowsKept_refl _
  observations := fun _ o found => ⟨o, found, rfl⟩
  consumed := fun _ _ found _ => found
  selectedExtractions := fun _ _ found _ => found
  selectedRevisions := fun _ _ found _ => found

theorem Kept.trans {a b c : Catalog} (h : Kept a b) (h' : Kept b c) : Kept a c where
  extractions := h.extractions.trans h'.extractions
  revisions := h.revisions.trans h'.revisions
  restores := h.restores.trans h'.restores
  controlOperations := h.controlOperations.trans h'.controlOperations
  observations := by
    intro id o found
    obtain ⟨o', found', body⟩ := h.observations id o found
    obtain ⟨o'', found'', body'⟩ := h'.observations id o' found'
    exact ⟨o'', found'', body'.trans body⟩
  consumed := fun id o found consumed =>
    h'.consumed id o (h.consumed id o found consumed) consumed
  selectedExtractions := fun key row found selected =>
    h'.selectedExtractions key row (h.selectedExtractions key row found selected) selected
  selectedRevisions := fun key row found selected =>
    h'.selectedRevisions key row (h.selectedRevisions key row found selected) selected

/-- A candidate written without giving up a selection. -/
theorem selected_put {K V : Type} [DecidableEq K] (selected : V → Prop) {t : Table K V} {k : K}
    {v : V} (same : ∀ old, t.row k = some old → selected old → v = old) {a : K} {row : V}
    (found : t.row a = some row) (chosen : selected row) : (t.put k v).row a = some row := by
  by_cases here : a = k
  · subst here
    simp [same row found chosen]
  · simp [here, found]

theorem kept_putExtraction {key : ExtractionId × Digest} {row : ExtractionPublication}
    {c : Catalog} (same : ∀ old, c.extractionPublications.row key = some old →
      old.status = .selected → row = old) :
    Kept c { c with extractionPublications := c.extractionPublications.put key row } :=
  { kept_refl c with
    selectedExtractions := fun _ _ found selected =>
      selected_put (fun row => row.status = .selected) same found selected }

theorem kept_putRevision {key : PublicationIdentity} {row : RevisionPublication}
    {c : Catalog} (same : ∀ old, c.revisionPublications.row key = some old →
      old.status = .selected → row = old) :
    Kept c { c with revisionPublications := c.revisionPublications.put key row } :=
  { kept_refl c with
    selectedRevisions := fun _ _ found selected =>
      selected_put (fun row => row.status = .selected) same found selected }

theorem kept_withSelectedExtraction {identity : ExtractionId × Digest}
    {row : ExtractionPublication} {c : Catalog}
    (found : c.extractionPublications.row identity = some row) :
    Kept c (withSelectedExtraction identity row c) := by
  apply kept_putExtraction
  intro old found' selected
  obtain rfl := Option.some.inj (found.symm.trans found')
  rw [← selected]

theorem kept_withSelectedRevision {identity : PublicationIdentity} {row : RevisionPublication}
    {c : Catalog} (found : c.revisionPublications.row identity = some row) :
    Kept c (withSelectedRevision identity row c) := by
  apply kept_putRevision
  intro old found' selected
  obtain rfl := Option.some.inj (found.symm.trans found')
  rw [← selected]

theorem kept_withExtraction {input : ExtractionRegistration} {c : Catalog}
    (absent : c.extractions.row input.extractionId = none)
    (unobserved : input.observation ≠ none → c.observations.row input.extractionId = none) :
    Kept c (withExtraction input c) := by
  have observations : RowsKept c.observations (withExtraction input c).observations := by
    simp only [withExtraction]
    split
    · exact rowsKept_refl _
    · next body observes => exact rowsKept_put (unobserved (by simp [observes])) _
  exact { kept_refl c with
    extractions := rowsKept_put absent _
    observations := fun id o found => ⟨o, observations id o found, rfl⟩
    consumed := fun id o found _ => observations id o found }

theorem kept_withRevision {input : RevisionCreation} {number : Nat} {c : Catalog}
    (unused : c.revisions.row number = none) : Kept c (withRevision input number c) := by
  refine { kept_refl c with
    revisions := rowsKept_put unused _
    observations := fun id o found => ?_
    consumed := fun id o found consumed => ?_ }
  · refine ⟨consumeObservation input.source.extractionIds number id o, ?_, ?_⟩
    · simp [withRevision, found]
    · simp only [consumeObservation]
      split <;> rfl
  · simp [withRevision, found, consumeObservation, consumed]

theorem kept_change {c next : Catalog} {call : Call} (h : Change c call next) : Kept c next := by
  cases h with
  | idle => exact kept_refl c
  | advance elapsed => exact { kept_refl c with }
  | reserveExtraction intent absent =>
    simp only [insertExtractionPublication, absent]
    apply kept_putExtraction
    intro old found
    simp [absent] at found
  | confirmExtraction intent row found =>
    apply kept_putExtraction
    intro old found' selected
    obtain rfl := Option.some.inj (found.symm.trans found')
    have same : confirmStatus row.status = row.status := by
      rw [selected]
      rfl
    rw [same]
  | reserveRevision intent absent =>
    simp only [insertRevisionPublication, absent]
    apply kept_putRevision
    intro old found
    simp [absent] at found
  | confirmRevision intent row found =>
    apply kept_putRevision
    intro old found' selected
    obtain rfl := Option.some.inj (found.symm.trans found')
    have same : confirmStatus row.status = row.status := by
      rw [selected]
      rfl
    rw [same]
  | selectExtraction existing confirmed found identical =>
    exact kept_withSelectedExtraction confirmed.found
  | register confirmed absent unobserved =>
    exact (kept_withSelectedExtraction confirmed.found).trans
      (kept_withExtraction absent unobserved)
  | selectRevision collation number existing confirmed found owner identical =>
    exact kept_withSelectedRevision confirmed.found
  | create confirmed committable =>
    exact (kept_withSelectedRevision confirmed.found).trans
      (kept_withRevision committable.unused)
  | restore restorable => exact { kept_refl c with restores := rowsKept_put restorable.fresh _ }
  | control changeable =>
    exact { kept_refl c with controlOperations := rowsKept_put changeable.fresh _ }

theorem kept_run (collation : Collation) (c : Catalog) (calls : List Call) :
    Kept c ((catalog collation).runFrom c calls) := by
  have preserved : ∀ s call, Kept c s → Kept c ((catalog collation).step s call) :=
    fun s call kept => kept.trans (kept_change (execute_change collation s call))
  exact (catalog collation).runFrom_invariant preserved (kept_refl c) calls

end CatalogChanges
