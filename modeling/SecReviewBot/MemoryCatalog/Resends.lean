import Mathlib.Data.List.Lex
import Mathlib.Data.Prod.Lex
import SecReviewBot.MemoryCatalog.PublicationLedger

/-!
# Sending a write again

Each of the four writes answers a repetition from what it recorded the first
time: a selected candidate with its extraction or revision, or a row of an
operation ledger. All of that stays, so the answer is the same at any later
time, with one exception. The replay of a maintenance revision compares the
observations it consumed, in the order of the database, with its extraction ids
in the order of JavaScript.
-/

namespace Resends

open KeyedTables MemoryCatalogSchema CatalogStore CatalogChanges RevisionHistory
open PublicationLedger TransitionSystems

inductive Write where
  | registerExtraction (input : ExtractionRegistration)
  | createMemoryTreeRevision (input : RevisionCreation)
  | restoreMemoryTree (input : RestoreRequest)
  | changeMaintenanceControl (input : ControlRequest)
  deriving DecidableEq

inductive Answer where
  | registration (created : Bool)
  | revision (result : RevisionCreationResult)
  | restore (result : RestoreResult)
  | control (result : ControlResult)
  deriving DecidableEq

/-- The same answer, to a repetition. -/
def Answer.replayed : Answer → Answer
  | .registration _ => .registration false
  | .revision result => .revision { result with created := false }
  | .restore result => .restore { result with created := false }
  | .control result => .control { result with created := false }

def Write.call : Write → Call
  | .registerExtraction input => .registerExtraction input
  | .createMemoryTreeRevision input => .createMemoryTreeRevision input
  | .restoreMemoryTree input => .restoreMemoryTree input
  | .changeMaintenanceControl input => .changeMaintenanceControl input

def answered {α : Type} (wrap : α → Answer) :
    Except CatalogError (α × Catalog) → Except CatalogError (Answer × Catalog)
  | .ok (answer, next) => .ok (wrap answer, next)
  | .error e => .error e

def Write.send (collation : Collation) (c : Catalog) :
    Write → Except CatalogError (Answer × Catalog)
  | .registerExtraction input =>
    answered .registration (CatalogStore.registerExtraction input c)
  | .createMemoryTreeRevision input =>
    answered .revision (CatalogStore.createMemoryTreeRevision collation input c)
  | .restoreMemoryTree input => answered .restore (CatalogStore.restoreMemoryTree input c)
  | .changeMaintenanceControl input =>
    answered .control (CatalogStore.changeMaintenanceControl input c)

/-- The two writes carry the same id. -/
def Write.sameId : Write → Write → Prop
  | .registerExtraction a, .registerExtraction b => a.extractionId = b.extractionId
  | .createMemoryTreeRevision a, .createMemoryTreeRevision b =>
    a.source.kind = b.source.kind ∧ a.source.ownerId = b.source.ownerId
  | .restoreMemoryTree a, .restoreMemoryTree b => a.operationId = b.operationId
  | .changeMaintenanceControl a, .changeMaintenanceControl b => a.operationId = b.operationId
  | _, _ => False

/-- The write can be sent again: it gets its first answer, as a repetition, and
another content under its id is refused. Nothing changes either way. -/
structure Idempotent (collation : Collation) (x : Write) (answer : Answer) (c : Catalog) :
    Prop where
  again : x.send collation c = .ok (answer.replayed, c)
  changed : ∀ y : Write, y.sameId x → y ≠ x →
    (∃ e, y.send collation c = .error e) ∧ y.call.execute collation c = c

/-- The two orders agree on the observations of a maintenance revision. -/
def sameOrder (collation : Collation) : Write → Prop
  | .createMemoryTreeRevision ⟨_, _, .maintenance _ extractionIds _⟩ =>
    collation.sort extractionIds = sortByCodeUnits extractionIds
  | _ => True

theorem answered_ok {α : Type} {wrap : α → Answer} {outcome : Except CatalogError (α × Catalog)}
    {answer : Answer} {next : Catalog} (h : answered wrap outcome = .ok (answer, next)) :
    ∃ a, outcome = .ok (a, next) ∧ answer = wrap a := by
  cases outcome with
  | error e => cases h
  | ok pair =>
    obtain ⟨a, c⟩ := pair
    cases h
    exact ⟨a, rfl, rfl⟩

theorem execute_send (collation : Collation) (c : Catalog) (x : Write) :
    x.call.execute collation c = committed c (x.send collation c) := by
  have wrapped : ∀ {α : Type} (wrap : α → Answer) (outcome : Except CatalogError (α × Catalog)),
      committed c outcome = committed c (answered wrap outcome) := by
    intro α wrap outcome
    cases outcome <;> rfl
  cases x <;> exact wrapped _ _

/-- A refused write changes nothing. -/
theorem execute_refused {collation : Collation} {c : Catalog} {x : Write} {e : CatalogError}
    (refused : x.send collation c = .error e) : x.call.execute collation c = c := by
  rw [execute_send, refused]
  rfl

theorem Collation.sort_eq_of_perm (collation : Collation) {xs ys : List String}
    (h : xs.Perm ys) : collation.sort xs = collation.sort ys := by
  have : Std.Total fun a b => collation.le a b = true := ⟨collation.total⟩
  have : IsTrans String fun a b => collation.le a b = true := ⟨collation.trans⟩
  apply List.Perm.eq_of_pairwise (fun a b _ _ => collation.antisymm a b)
  · exact List.pairwise_insertionSort _ xs
  · exact List.pairwise_insertionSort _ ys
  · exact (List.perm_insertionSort _ xs).trans (h.trans (List.perm_insertionSort _ ys).symm)

/-- What a recorded creation consumed, as the replay reads it. -/
theorem consumedObservations_eq (collation : Collation) {c : Catalog} {input : RevisionCreation}
    {number : Nat} {row : Revision} (h : RecordsCreation c input number row) :
    consumedObservations collation number c = collation.sort input.source.extractionIds := by
  apply Collation.sort_eq_of_perm
  refine (List.perm_ext_iff_of_nodup (Table.matching_nodup _ _) h.distinct).mpr ?_
  intro id
  rw [← h.consumed id, Table.mem_matching]
  simp [Consumes]

/-- The candidate of the registration is selected. -/
structure RegistrationKept (c : Catalog) (input : ExtractionRegistration)
    (row : ExtractionPublication) : Prop where
  found : c.extractionPublications.row (extractionPublicationIdentity input) = some row
  selected : row.status = .selected
  intent : row.intent.registration = input

theorem registration_kept {input : ExtractionRegistration} {c next : Catalog} {created : Bool}
    (sound : CatalogSound c) (h : registerExtraction input c = .ok (created, next)) :
    ∃ row, RegistrationKept next input row := by
  obtain ⟨identity, row, confirmed, written⟩ := registerExtraction_ok h
  have keyed := sound.extractions.keyed identity row confirmed.found
  rw [confirmed.intent] at keyed
  refine ⟨{ row with status := .selected }, ?_, rfl, confirmed.intent⟩
  rcases written with ⟨-, -, -, rfl⟩ | ⟨-, -, rfl⟩
  · simp [withExtraction, withSelectedExtraction, keyed]
  · simp [withSelectedExtraction, keyed]

theorem register_again {input : ExtractionRegistration} {c : Catalog} {row : ExtractionPublication}
    (sound : CatalogSound c) (kept : RegistrationKept c input row) :
    registerExtraction input c = .ok (false, c) := by
  have sole := sound.extractions.agrees.sole
  obtain ⟨x, known, -, identical⟩ :=
    sound.extractions.agrees.recorded _ row kept.found kept.selected
  have undisputed : (c.extractionPublications.matching fun key other =>
      key.1 = input.extractionId && other.status = .selected
        && other.intent.registration ≠ input).isEmpty = true := by
    rw [isEmpty_matching]
    intro key other found
    by_contra disputed
    simp only [Bool.not_eq_false, Bool.and_eq_true, decide_eq_true_eq] at disputed
    obtain ⟨⟨owner, selected⟩, different⟩ := disputed
    obtain rfl := sole key _ other row found kept.found selected kept.selected owner
    obtain rfl := Option.some.inj (found.symm.trans kept.found)
    exact different kept.intent
  have chosen : (c.extractionPublications.matching fun key other =>
      key.1 = input.extractionId && other.intent.registration = input
        && (other.status = .present || other.status = .selected)) =
        [extractionPublicationIdentity input] := by
    refine Table.matching_eq_singleton kept.found ?_ ?_
    · simp [kept.intent, kept.selected, extractionPublicationIdentity]
    · intro key other found wanted
      simp only [Bool.and_eq_true, decide_eq_true_eq] at wanted
      rw [sound.extractions.keyed key other found, wanted.1.2]
  have alone : (c.extractionPublications.matching fun key other =>
      key.1 = (extractionPublicationIdentity input).1
        && key ≠ extractionPublicationIdentity input && other.status = .selected).isEmpty
          = true := by
    rw [isEmpty_matching]
    intro key other found
    by_contra rival
    simp only [Bool.not_eq_false, Bool.and_eq_true, decide_eq_true_eq] at rival
    exact rival.1.2 (sole key _ other row found kept.found rival.2 kept.selected rival.1.1)
  have unchanged : c.extractionPublications.put (extractionPublicationIdentity input)
      { row with status := .selected } = c.extractionPublications := by
    rw [← kept.selected]
    exact Table.put_same kept.found
  have confirmed : confirmedExtraction input c = .ok (extractionPublicationIdentity input) := by
    simp only [confirmedExtraction, undisputed, ensure_true, ok_bind, chosen]
    rfl
  have selects : selectExtractionPublication (extractionPublicationIdentity input) c = .ok c := by
    simp only [selectExtractionPublication, kept.found, alone, ensure_true, ok_bind, unchanged]
    rfl
  have compared : insertExtraction input c = .ok (false, c) := by
    rw [kept.intent] at identical
    simp only [insertExtraction]
    rw [show c.extractions.row input.extractionId = some x from known]
    simp only [identical, ensure_true, ok_bind]
    rfl
  simp only [registerExtraction, confirmed, selects, ok_bind]
  exact compared

theorem register_changed {input other : ExtractionRegistration} {c : Catalog}
    {row : ExtractionPublication} (kept : RegistrationKept c input row)
    (sameId : other.extractionId = input.extractionId) (different : other ≠ input) :
    ∃ e, registerExtraction other c = .error e := by
  cases h : registerExtraction other c with
  | error e => exact ⟨e, rfl⟩
  | ok pair =>
    obtain ⟨identity, candidate, confirmed, -⟩ := registerExtraction_ok h
    have mine := confirmed.undisputed _ row kept.found sameId.symm kept.selected
    exact absurd (mine.symm.trans kept.intent) different

/-- The candidate of the creation is selected and its revision exists. -/
structure CreationKept (c : Catalog) (input : RevisionCreation) (number : Nat)
    (row : RevisionPublication) (revision : Revision) : Prop where
  found : c.revisionPublications.row (revisionPublicationIdentity input) = some row
  selected : row.status = .selected
  intent : row.intent = input
  recorded : RecordsCreation c input number revision

theorem creation_kept {collation : Collation} {input : RevisionCreation} {c next : Catalog}
    {result : RevisionCreationResult} (sound : CatalogSound c)
    (h : createMemoryTreeRevision collation input c = .ok (result, next)) :
    result.sourceKind = input.source.kind ∧ result.sourceId = input.source.ownerId ∧
      ∃ row revision, CreationKept next input result.revision row revision := by
  obtain ⟨row, confirmed, ⟨rfl, committable, rfl⟩ |
    ⟨number, existing, rfl, known, owner, -, rfl⟩⟩ := createMemoryTreeRevision_ok h
  · have change := Change.create confirmed committable
    have after := (catalogSound_change sound change).revisions
    have found : (withRevision input (nextRevision c) (withSelectedRevision
        (revisionPublicationIdentity input) row c)).revisionPublications.row
          (revisionPublicationIdentity input) = some { row with status := .selected } := by
      simp [withRevision, withSelectedRevision]
    obtain ⟨number, revision, recorded⟩ := after.agrees.recorded _ _ found rfl
    have created : (withRevision input (nextRevision c) (withSelectedRevision
        (revisionPublicationIdentity input) row c)).revisions.row (nextRevision c) =
          some (revisionOf input c.clock) := by
      simp [withRevision, withSelectedRevision]
    have mine := revision_owner recorded
    obtain rfl : number = nextRevision c := by
      refine after.owners number _ revision _ recorded.found created ?_ ?_
      · rw [mine.1, confirmed.intent]
        exact (congrArg Prod.fst (originOf_owner input.source)).symm
      · rw [mine.2, confirmed.intent]
        exact (congrArg Prod.snd (originOf_owner input.source)).symm
    exact ⟨rfl, rfl, _, revision, found, rfl, confirmed.intent, confirmed.intent ▸ recorded⟩
  · rw [sound.revisions.selected_again confirmed (known_of_sameOwner known owner)]
    obtain ⟨key, chosen, found, selected, mine⟩ :=
      sound.revisions.agrees.chosen _ (known_of_sameOwner known owner)
    obtain rfl := confirmed.sole key chosen found (congrArg Prod.fst mine)
      (congrArg Prod.snd mine) selected
    have intent := confirmed.undisputed _ chosen found rfl rfl selected
    obtain ⟨number', revision, recorded⟩ :=
      sound.revisions.agrees.recorded _ chosen found selected
    have own := revision_owner recorded
    simp only [sameOwner, Bool.and_eq_true, decide_eq_true_eq] at owner
    obtain rfl : number' = number := by
      refine sound.revisions.owners number' number revision existing recorded.found known ?_ ?_
      · rw [own.1, intent, owner.1]
      · rw [own.2, intent, owner.2]
    exact ⟨rfl, rfl, chosen, revision, found, selected, intent, intent ▸ recorded⟩

/-- A recorded creation is recognised exactly when the two orders agree. -/
theorem identicalRevision_iff (collation : Collation) {c : Catalog} {input : RevisionCreation}
    {number : Nat} {revision : Revision} (h : RecordsCreation c input number revision) :
    identicalRevision collation input number c = true ↔
      sameOrder collation (.createMemoryTreeRevision input) := by
  have consumed := consumedObservations_eq collation h
  obtain ⟨expected, tree, source⟩ := input
  have origin : revision.origin = originOf source := h.origin
  have predecessor : revision.predecessorRevision = nullifZero expected := h.predecessor
  have reference : revision.memoryTreeReference = tree := h.tree
  cases source with
  | maintenance maintenanceId extractionIds trajectory =>
    simp only [RevisionSource.extractionIds] at consumed
    simp [identicalRevision, h.found, predecessor, reference, identicalSource, origin, originOf,
      consumed, sameOrder]
  | operator operationId actor =>
    simp [identicalRevision, h.found, predecessor, reference, identicalSource, origin, originOf,
      sameOrder]

theorem create_again (collation : Collation) {input : RevisionCreation} {c : Catalog}
    {number : Nat} {row : RevisionPublication} {revision : Revision} (sound : CatalogSound c)
    (kept : CreationKept c input number row revision) :
    createMemoryTreeRevision collation input c =
      if identicalRevision collation input number c then
        .ok (⟨false, number, input.source.kind, input.source.ownerId⟩, c)
      else .error (revisionIdExists input.source) := by
  have sole := sound.revisions.agrees.sole
  have undisputed : (c.revisionPublications.matching fun key other =>
      key.sourceKind = input.source.kind && key.ownerId = input.source.ownerId
        && other.status = .selected && other.intent ≠ input).isEmpty = true := by
    rw [isEmpty_matching]
    intro key other found
    by_contra disputed
    simp only [Bool.not_eq_false, Bool.and_eq_true, decide_eq_true_eq] at disputed
    obtain ⟨⟨⟨kind, owner⟩, selected⟩, different⟩ := disputed
    obtain rfl := sole key _ other row found kept.found selected kept.selected
      (Prod.ext kind owner)
    obtain rfl := Option.some.inj (found.symm.trans kept.found)
    exact different kept.intent
  have alone : (c.revisionPublications.matching fun key other =>
      key.sourceKind = (revisionPublicationIdentity input).sourceKind
        && key.ownerId = (revisionPublicationIdentity input).ownerId
        && key ≠ revisionPublicationIdentity input && other.status = .selected).isEmpty
          = true := by
    rw [isEmpty_matching]
    intro key other found
    by_contra rival
    simp only [Bool.not_eq_false, Bool.and_eq_true, decide_eq_true_eq] at rival
    obtain ⟨⟨⟨kind, owner⟩, different⟩, selected⟩ := rival
    exact different (sole key _ other row found kept.found selected kept.selected
      (Prod.ext kind owner))
  have unchanged : c.revisionPublications.put (revisionPublicationIdentity input)
      { row with status := .selected } = c.revisionPublications := by
    rw [← kept.selected]
    exact Table.put_same kept.found
  have owned : (c.revisions.matching fun _ existing => sameOwner input.source existing)
      = [number] := by
    obtain ⟨kind, owner⟩ := revision_owner kept.recorded
    refine Table.matching_eq_singleton kept.recorded.found ?_ ?_
    · simp [sameOwner, kind, owner]
    · intro other existing found mine
      simp only [sameOwner, Bool.and_eq_true, decide_eq_true_eq] at mine
      exact sound.revisions.owners other number existing revision found kept.recorded.found
        (mine.1.trans kind.symm) (mine.2.trans owner.symm)
  have confirmed : confirmedRevision input c = .ok () := by
    simp only [confirmedRevision, undisputed, ensure_true, ok_bind, kept.found]
    simp [kept.intent, kept.selected]
  have selects : selectRevisionPublication (revisionPublicationIdentity input) c = .ok c := by
    simp only [selectRevisionPublication, kept.found, alone, ensure_true, ok_bind, unchanged]
    rfl
  simp only [createMemoryTreeRevision, confirmed, selects, ok_bind, revisionReplay, owned]
  split <;> rfl

theorem create_changed (collation : Collation) {input other : RevisionCreation} {c : Catalog}
    {number : Nat} {row : RevisionPublication} {revision : Revision}
    (kept : CreationKept c input number row revision)
    (kind : other.source.kind = input.source.kind)
    (owner : other.source.ownerId = input.source.ownerId) (different : other ≠ input) :
    ∃ e, createMemoryTreeRevision collation other c = .error e := by
  cases h : createMemoryTreeRevision collation other c with
  | error e => exact ⟨e, rfl⟩
  | ok pair =>
    obtain ⟨candidate, confirmed, -⟩ := createMemoryTreeRevision_ok h
    have mine := confirmed.undisputed _ row kept.found kind.symm owner.symm kept.selected
    exact absurd (mine.symm.trans kept.intent) different

theorem restore_kept {input : RestoreRequest} {c next : Catalog} {result : RestoreResult}
    (h : restoreMemoryTree input c = .ok (result, next)) :
    result.activeRevision = input.restoredRevision ∧ result.operationId = input.operationId ∧
      ∃ row, next.restores.row input.operationId = some row ∧
        identicalRestore input row = true := by
  rcases restoreMemoryTree_ok h with ⟨rfl, -, rfl⟩ | ⟨rfl, rfl, row, found, identical⟩
  · refine ⟨rfl, rfl, _, by simp [withRestore]; rfl, by simp [identicalRestore]⟩
  · exact ⟨rfl, rfl, row, found, identical⟩

theorem restore_again {input : RestoreRequest} {c : Catalog} {row : RestoreOperation}
    (found : c.restores.row input.operationId = some row)
    (identical : identicalRestore input row = true) :
    restoreMemoryTree input c =
      .ok (⟨false, input.restoredRevision, input.operationId⟩, c) := by
  have same : row.restoredRevision = input.restoredRevision := by
    simp only [identicalRestore, Bool.and_eq_true, decide_eq_true_eq] at identical
    exact identical.1.2
  simp only [restoreMemoryTree, restoreReplay, found, Option.map_some, identical, if_true, ok_bind,
    same]
  rfl

theorem restore_changed {input other : RestoreRequest} {c : Catalog} {row : RestoreOperation}
    (found : c.restores.row input.operationId = some row)
    (identical : identicalRestore input row = true)
    (sameId : other.operationId = input.operationId) (different : other ≠ input) :
    ∃ e, restoreMemoryTree other c = .error e := by
  cases h : restoreMemoryTree other c with
  | error e => exact ⟨e, rfl⟩
  | ok pair =>
    rcases restoreMemoryTree_ok h with ⟨-, restorable, -⟩ | ⟨-, -, row', found', same⟩
    · have fresh := restorable.fresh
      simp [sameId, found] at fresh
    · rw [sameId, found] at found'
      obtain rfl := Option.some.inj found'
      simp only [identicalRestore, Bool.and_eq_true, decide_eq_true_eq] at identical same
      obtain ⟨id, expected, restored, actor⟩ := input
      obtain ⟨id', expected', restored', actor'⟩ := other
      simp_all

theorem control_kept {input : ControlRequest} {c next : Catalog} {result : ControlResult}
    (h : changeMaintenanceControl input c = .ok (result, next)) :
    ∃ row, next.controlOperations.row input.operationId = some row ∧
      identicalControl input row = true ∧
      result.control = ⟨row.resultingState, row.resultingGeneration, row.actor, row.changedAt⟩ := by
  rcases changeMaintenanceControl_ok h with ⟨rfl, -, rfl⟩ | ⟨rfl, row, found, identical, rfl⟩
  · exact ⟨_, by simp [withControl]; rfl, by simp [identicalControl], rfl⟩
  · exact ⟨row, found, identical, rfl⟩

theorem control_again {input : ControlRequest} {c : Catalog} {row : ControlOperation}
    (found : c.controlOperations.row input.operationId = some row)
    (identical : identicalControl input row = true) :
    changeMaintenanceControl input c =
      .ok (⟨false, row.resultingState, row.resultingGeneration, row.actor, row.changedAt⟩,
        c) := by
  simp only [changeMaintenanceControl, controlReplay, found, Option.map_some, identical, if_true,
    ok_bind]
  rfl

theorem control_changed {input other : ControlRequest} {c : Catalog} {row : ControlOperation}
    (found : c.controlOperations.row input.operationId = some row)
    (identical : identicalControl input row = true)
    (sameId : other.operationId = input.operationId) (different : other ≠ input) :
    ∃ e, changeMaintenanceControl other c = .error e := by
  cases h : changeMaintenanceControl other c with
  | error e => exact ⟨e, rfl⟩
  | ok pair =>
    rcases changeMaintenanceControl_ok h with ⟨-, changeable, -⟩ | ⟨-, row', found', same, -⟩
    · have fresh := changeable.fresh
      simp [sameId, found] at fresh
    · rw [sameId, found] at found'
      obtain rfl := Option.some.inj found'
      simp only [identicalControl, Bool.and_eq_true, decide_eq_true_eq] at identical same
      obtain ⟨target, id, generation, actor⟩ := input
      obtain ⟨target', id', generation', actor'⟩ := other
      simp_all

theorem RegistrationKept.later {c : Catalog} {input : ExtractionRegistration}
    {row : ExtractionPublication} (h : RegistrationKept c input row) (collation : Collation)
    (calls : List Call) : RegistrationKept ((catalog collation).runFrom c calls) input row :=
  { h with found := (kept_run collation c calls).selectedExtractions _ row h.found h.selected }

theorem RecordsCreation.run {c : Catalog} {input : RevisionCreation} {number : Nat}
    {revision : Revision} (h : RecordsCreation c input number revision) (collation : Collation)
    (calls : List Call) :
    RecordsCreation ((catalog collation).runFrom c calls) input number revision := by
  have preserved : ∀ s call, RecordsCreation s input number revision →
      RecordsCreation ((catalog collation).step s call) input number revision :=
    fun s call recorded => recorded.later (execute_change collation s call)
  exact (catalog collation).runFrom_invariant preserved h calls

theorem CreationKept.later {c : Catalog} {input : RevisionCreation} {number : Nat}
    {row : RevisionPublication} {revision : Revision}
    (h : CreationKept c input number row revision) (collation : Collation) (calls : List Call) :
    CreationKept ((catalog collation).runFrom c calls) input number row revision where
  found := (kept_run collation c calls).selectedRevisions _ row h.found h.selected
  selected := h.selected
  intent := h.intent
  recorded := RecordsCreation.run h.recorded collation calls

/-- Refusing every other content is enough: a refused write changes nothing. -/
theorem idempotent_of {collation : Collation} {x : Write} {answer : Answer} {c : Catalog}
    (again : x.send collation c = .ok (answer.replayed, c))
    (refused : ∀ y : Write, y.sameId x → y ≠ x → ∃ e, y.send collation c = .error e) :
    Idempotent collation x answer c := by
  refine ⟨again, fun y sameId different => ?_⟩
  obtain ⟨e, failed⟩ := refused y sameId different
  exact ⟨⟨e, failed⟩, execute_refused failed⟩

theorem registration_idempotent (collation : Collation) {input : ExtractionRegistration}
    {c : Catalog} {row : ExtractionPublication} (sound : CatalogSound c)
    (kept : RegistrationKept c input row) (created : Bool) :
    Idempotent collation (.registerExtraction input) (.registration created) c := by
  apply idempotent_of
  · simp only [Write.send, register_again sound kept]
    rfl
  · intro y sameId different
    cases y with
    | registerExtraction other =>
      obtain ⟨e, failed⟩ := register_changed kept sameId (by simpa using different)
      exact ⟨e, by simp only [Write.send, failed, answered]⟩
    | _ => cases sameId

theorem creation_idempotent_iff (collation : Collation) {input : RevisionCreation} {c : Catalog}
    {result : RevisionCreationResult} {row : RevisionPublication} {revision : Revision}
    (sound : CatalogSound c) (kept : CreationKept c input result.revision row revision)
    (kind : result.sourceKind = input.source.kind)
    (owner : result.sourceId = input.source.ownerId) :
    Idempotent collation (.createMemoryTreeRevision input) (.revision result) c ↔
      sameOrder collation (.createMemoryTreeRevision input) := by
  rw [← identicalRevision_iff collation kept.recorded]
  have again := create_again collation sound kept
  constructor
  · intro h
    by_contra unrecognised
    have answer := h.again
    simp only [Write.send, again, unrecognised, answered] at answer
    cases answer
  · intro recognised
    apply idempotent_of
    · simp only [Write.send, again, recognised, if_true, answered, Answer.replayed, kind, owner]
    · intro y sameId different
      cases y with
      | createMemoryTreeRevision other =>
        obtain ⟨e, failed⟩ :=
          create_changed collation kept sameId.1 sameId.2 (by simpa using different)
        exact ⟨e, by simp only [Write.send, failed, answered]⟩
      | _ => cases sameId

theorem restore_idempotent (collation : Collation) {input : RestoreRequest} {c : Catalog}
    {result : RestoreResult} {row : RestoreOperation}
    (found : c.restores.row input.operationId = some row)
    (identical : identicalRestore input row = true)
    (active : result.activeRevision = input.restoredRevision)
    (operation : result.operationId = input.operationId) :
    Idempotent collation (.restoreMemoryTree input) (.restore result) c := by
  apply idempotent_of
  · simp only [Write.send, restore_again found identical, answered, Answer.replayed, active,
      operation]
  · intro y sameId different
    cases y with
    | restoreMemoryTree other =>
      obtain ⟨e, failed⟩ := restore_changed found identical sameId (by simpa using different)
      exact ⟨e, by simp only [Write.send, failed, answered]⟩
    | _ => cases sameId

theorem control_idempotent (collation : Collation) {input : ControlRequest} {c : Catalog}
    {result : ControlResult} {row : ControlOperation}
    (found : c.controlOperations.row input.operationId = some row)
    (identical : identicalControl input row = true)
    (control : result.control =
      ⟨row.resultingState, row.resultingGeneration, row.actor, row.changedAt⟩) :
    Idempotent collation (.changeMaintenanceControl input) (.control result) c := by
  apply idempotent_of
  · simp only [Write.send, control_again found identical, answered, Answer.replayed, control]
  · intro y sameId different
    cases y with
    | changeMaintenanceControl other =>
      obtain ⟨e, failed⟩ := control_changed found identical sameId (by simpa using different)
      exact ⟨e, by simp only [Write.send, failed, answered]⟩
    | _ => cases sameId

/-- A write that succeeded can be sent again at any later time exactly when it
is no maintenance revision, or when the order of the database and the order of
JavaScript agree on its extraction ids. -/
theorem resend_idempotent_iff (collation : Collation) (calls later : List Call) (x : Write)
    (answer : Answer) (next : Catalog)
    (sent : x.send collation ((catalog collation).run calls) = .ok (answer, next)) :
    Idempotent collation x answer ((catalog collation).runFrom next later) ↔
      sameOrder collation x := by
  have reachable : (catalog collation).Reachable ((catalog collation).run calls) := ⟨calls, rfl⟩
  have sound := catalogSound_reachable reachable
  have made : x.call.execute collation ((catalog collation).run calls) = next := by
    rw [execute_send, sent]
    rfl
  have sound' : CatalogSound ((catalog collation).runFrom next later) := by
    rw [← made]
    exact catalogSound_reachable ((catalog collation).reachable_runFrom
      ((catalog collation).reachable_step reachable x.call) later)
  have keeps := kept_run collation next later
  cases x with
  | registerExtraction input =>
    obtain ⟨created, stored, rfl⟩ := answered_ok sent
    obtain ⟨row, kept⟩ := registration_kept sound stored
    have idempotent :=
      registration_idempotent collation sound' (kept.later collation later) created
    exact iff_of_true idempotent trivial
  | createMemoryTreeRevision input =>
    obtain ⟨result, stored, rfl⟩ := answered_ok sent
    obtain ⟨kind, owner, row, revision, kept⟩ := creation_kept sound stored
    exact creation_idempotent_iff collation sound' (kept.later collation later) kind owner
  | restoreMemoryTree input =>
    obtain ⟨result, stored, rfl⟩ := answered_ok sent
    obtain ⟨active, operation, row, found, identical⟩ := restore_kept stored
    have found := keeps.restores _ row found
    exact iff_of_true (restore_idempotent collation found identical active operation) trivial
  | changeMaintenanceControl input =>
    obtain ⟨result, stored, rfl⟩ := answered_ok sent
    obtain ⟨row, found, identical, control⟩ := control_kept stored
    have found := keeps.controlOperations _ row found
    exact iff_of_true (control_idempotent collation found identical control) trivial

def codePoints (text : String) : List Nat := text.toList.map Char.toNat

def caseless (text : String) : List Nat := text.toList.map fun ch => ch.toLower.toNat

theorem codePoints_injective : Function.Injective codePoints := by
  intro a b same
  have injective : Function.Injective Char.toNat := fun x y h => Char.ext (UInt32.toNat_inj.mp h)
  exact String.toList_injective (List.map_injective_iff.mpr injective same)

/-- As in the usual locales: letters first, then case. -/
def caseInsensitive : Collation where
  le := fun a b => toLex (caseless a, codePoints a) ≤ toLex (caseless b, codePoints b)
  total := by
    intro a b
    simpa only [decide_eq_true_eq] using le_total _ _
  trans := by
    intro a b c
    simpa only [decide_eq_true_eq] using le_trans
  antisymm := by
    intro a b first second
    simp only [decide_eq_true_eq] at first second
    have same := le_antisymm first second
    exact codePoints_injective (Prod.mk.inj same).2

def someArtifact : ArtifactReference where
  uri := "s3://memory/artifact"
  digest := "sha256:0000000000000000000000000000000000000000000000000000000000000000"
  mediaType := "application/zstd"
  sizeBytes := 1

def observed (id : ExtractionId) : ExtractionRegistration where
  extractionId := id
  sourceWorkflow := "repository"
  sourceRunId := "run-1"
  sourceUnitId := "unit-1"
  diagnosticBundleDigest := someArtifact.digest
  trajectoryReference := someArtifact
  observation := some "An observation."

def maintenanceOf (ids : List ExtractionId) : RevisionCreation where
  expectedActiveRevision := 0
  memoryTreeReference := someArtifact
  source := .maintenance "maintenance-1" ids someArtifact

/-- The observations are registered and the candidate of the revision is
confirmed. -/
def readyFor (ids : List ExtractionId) : List Call :=
  (ids.flatMap fun id =>
    [.reserveExtractionPublication ⟨observed id, "Summary."⟩,
      .confirmExtractionPublication ⟨observed id, "Summary."⟩, .registerExtraction (observed id)])
  ++ [.reserveRevisionPublication (maintenanceOf ids),
    .confirmRevisionPublication (maintenanceOf ids)]

theorem ordered_ids_resent : ∃ answer next,
    (Write.createMemoryTreeRevision (maintenanceOf ["a", "b"])).send caseInsensitive
        ((catalog caseInsensitive).run (readyFor ["a", "b"])) = .ok (answer, next) ∧
      Idempotent caseInsensitive (.createMemoryTreeRevision (maintenanceOf ["a", "b"])) answer
        ((catalog caseInsensitive).runFrom next [.advance 1]) := by
  have accepted : ((Write.createMemoryTreeRevision (maintenanceOf ["a", "b"])).send caseInsensitive
      ((catalog caseInsensitive).run (readyFor ["a", "b"]))).toBool = true := by
    decide
  have ordered : caseInsensitive.sort ["a", "b"] = sortByCodeUnits ["a", "b"] := by
    decide
  cases sent : (Write.createMemoryTreeRevision (maintenanceOf ["a", "b"])).send caseInsensitive
      ((catalog caseInsensitive).run (readyFor ["a", "b"])) with
  | error e =>
    rw [sent] at accepted
    cases accepted
  | ok pair =>
    exact ⟨pair.1, pair.2, rfl, (resend_idempotent_iff _ _ _ _ _ _ sent).mpr ordered⟩

/-- Two extraction ids that the orders sort differently: the resend conflicts. -/
theorem mixed_case_ids_conflict :
    ¬ ∀ (collation : Collation) (calls later : List Call) (x : Write) (answer : Answer)
      (next : Catalog), x.send collation ((catalog collation).run calls) = .ok (answer, next) →
        Idempotent collation x answer ((catalog collation).runFrom next later) := by
  intro idempotent
  have accepted : ((Write.createMemoryTreeRevision (maintenanceOf ["a", "B"])).send caseInsensitive
      ((catalog caseInsensitive).run (readyFor ["a", "B"]))).toBool = true := by
    decide
  have refused : ((Write.createMemoryTreeRevision (maintenanceOf ["a", "B"])).send caseInsensitive
      ((catalog caseInsensitive).run (readyFor ["a", "B"] ++
        [.createMemoryTreeRevision (maintenanceOf ["a", "B"])]))).toBool = false := by
    decide
  rw [(catalog caseInsensitive).run_concat] at refused
  cases sent : (Write.createMemoryTreeRevision (maintenanceOf ["a", "B"])).send caseInsensitive
      ((catalog caseInsensitive).run (readyFor ["a", "B"])) with
  | error e =>
    rw [sent] at accepted
    cases accepted
  | ok pair =>
    have again := (idempotent _ _ [] _ pair.1 pair.2 sent).again
    have next : (catalog caseInsensitive).step
        ((catalog caseInsensitive).run (readyFor ["a", "B"]))
        (.createMemoryTreeRevision (maintenanceOf ["a", "B"])) = pair.2 := by
      have executed := execute_send caseInsensitive
        ((catalog caseInsensitive).run (readyFor ["a", "B"]))
        (.createMemoryTreeRevision (maintenanceOf ["a", "B"]))
      rw [sent] at executed
      exact executed
    rw [next] at refused
    rw [show (catalog caseInsensitive).runFrom pair.2 [] = pair.2 from rfl] at again
    rw [again] at refused
    cases refused

end Resends
