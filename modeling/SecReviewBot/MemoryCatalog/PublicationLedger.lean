import SecReviewBot.CandidateLedgers
import SecReviewBot.MemoryCatalog.RevisionHistory

/-!
# The publication ledgers and the authoritative rows

A candidate becomes selected in the transaction that creates the extraction or
the revision, before the checks that may still reject it; a rejected transaction
is rolled back as a whole. So the ledgers agree with the authoritative rows in
every catalog, and the replay branch, which selects as well, finds its
candidate already selected.
-/

namespace PublicationLedger

open KeyedTables MemoryCatalogSchema CatalogStore CatalogChanges RevisionHistory
open CandidateLedgers TransitionSystems

def ExtractionKnown (c : Catalog) (id : ExtractionId) : Prop :=
  (c.extractions.row id).isSome = true

/-- The extraction has the content of the candidate's registration. -/
def ExtractionRecorded (c : Catalog) (key : ExtractionId × Digest)
    (row : ExtractionPublication) : Prop :=
  ∃ x, c.extractions.row key.1 = some x ∧ row.intent.registration.extractionId = key.1 ∧
    identicalExtraction row.intent.registration x c = true

structure ExtractionsSound (c : Catalog) : Prop where
  keyed : ∀ key row, c.extractionPublications.row key = some row →
    key = extractionPublicationIdentity row.intent.registration
  agrees : Agrees Prod.fst (fun row => row.status = .selected) (ExtractionKnown c)
    (ExtractionRecorded c) c.extractionPublications
  observed : ∀ id, (c.observations.row id).isSome = true → ExtractionKnown c id

def publicationOwner (key : PublicationIdentity) : SourceKind × OperationId :=
  (key.sourceKind, key.ownerId)

def RevisionKnown (c : Catalog) (owner : SourceKind × OperationId) : Prop :=
  ∃ number row, c.revisions.row number = some row ∧
    (row.origin.kind, row.origin.ownerId) = owner

/-- The revision has the content of the creation, and has consumed its
observations. -/
structure RecordsCreation (c : Catalog) (input : RevisionCreation) (number : Nat)
    (row : Revision) : Prop where
  found : c.revisions.row number = some row
  predecessor : row.predecessorRevision = nullifZero input.expectedActiveRevision
  tree : row.memoryTreeReference = input.memoryTreeReference
  origin : row.origin = originOf input.source
  consumed : ∀ id, Consumes c id number ↔ id ∈ input.source.extractionIds
  distinct : input.source.extractionIds.Nodup

def RevisionRecorded (c : Catalog) (_key : PublicationIdentity) (row : RevisionPublication) :
    Prop :=
  ∃ number revision, RecordsCreation c row.intent number revision

structure RevisionsSound (c : Catalog) : Prop where
  keyed : ∀ key row, c.revisionPublications.row key = some row →
    key = revisionPublicationIdentity row.intent
  agrees : Agrees publicationOwner (fun row => row.status = .selected) (RevisionKnown c)
    (RevisionRecorded c) c.revisionPublications
  owners : ∀ number number' row row', c.revisions.row number = some row →
    c.revisions.row number' = some row' → row.origin.kind = row'.origin.kind →
      row.origin.ownerId = row'.origin.ownerId → number = number'

theorem extractionsSound_initial : ExtractionsSound Catalog.initial := by
  refine ⟨nofun, agrees_empty ?_, ?_⟩
  · intro id known
    cases known
  · intro id seen
    cases seen

theorem revisionsSound_initial : RevisionsSound Catalog.initial := by
  refine ⟨nofun, agrees_empty ?_, nofun⟩
  rintro owner ⟨number, row, found, -⟩
  cases found

/-- The body of the observation of an extraction. -/
def bodyOf (c : Catalog) (id : ExtractionId) : Option String :=
  (c.observations.row id).map (·.bodyMarkdown)

/-- The ledger does not notice a change elsewhere. -/
theorem ExtractionsSound.frame {c next : Catalog} (h : ExtractionsSound c)
    (publications : next.extractionPublications = c.extractionPublications)
    (extractions : next.extractions = c.extractions) (bodies : ∀ id, bodyOf next id = bodyOf c id) :
    ExtractionsSound next := by
  refine ⟨?_, ?_, ?_⟩
  · rw [publications]
    exact h.keyed
  · rw [publications]
    refine h.agrees.frame ?_ ?_
    · intro id known
      rw [ExtractionKnown, extractions] at known
      exact known
    · rintro key row - - ⟨x, found, mine, identical⟩
      refine ⟨x, extractions ▸ found, mine, ?_⟩
      have same := bodies row.intent.registration.extractionId
      simp only [bodyOf] at same
      simpa only [identicalExtraction, same] using identical
  · intro id seen
    have same := bodies id
    rw [ExtractionKnown, extractions]
    apply h.observed id
    cases found : c.observations.row id with
    | some o => rfl
    | none =>
      simp only [bodyOf, found, Option.map_none, Option.map_eq_none_iff] at same
      simp [same] at seen

theorem ExtractionsSound.put_candidate {c : Catalog} (h : ExtractionsSound c)
    {key : ExtractionId × Digest} {row : ExtractionPublication}
    (keyed : key = extractionPublicationIdentity row.intent.registration)
    (new : row.status ≠ .selected)
    (old : ∀ before, c.extractionPublications.row key = some before →
      before.status ≠ .selected) :
    ExtractionsSound { c with
      extractionPublications := c.extractionPublications.put key row } := by
  refine ⟨?_, h.agrees.put_unselected new old, h.observed⟩
  intro key' row' found
  rcases Table.put_row_cases found with ⟨rfl, rfl⟩ | ⟨-, found⟩
  · exact keyed
  · exact h.keyed key' row' found

theorem confirmStatus_selected {status : PublicationStatus} :
    confirmStatus status = .selected ↔ status = .selected := by
  cases status <;> simp [confirmStatus]

theorem ExtractionsSound.confirm {c : Catalog} (h : ExtractionsSound c)
    {key : ExtractionId × Digest} {row : ExtractionPublication}
    (found : c.extractionPublications.row key = some row) :
    ExtractionsSound { c with
      extractionPublications := c.extractionPublications.put key
        { row with status := confirmStatus row.status } } := by
  by_cases selected : row.status = .selected
  · have same : ({ row with status := confirmStatus row.status } : ExtractionPublication)
        = row := by
      rw [selected]
      simp only [confirmStatus, ← selected]
    rw [same, Table.put_same found]
    exact h
  · refine h.put_candidate (h.keyed key row found) ?_ ?_
    · exact fun confirmed => selected (confirmStatus_selected.mp confirmed)
    · intro before found'
      obtain rfl := Option.some.inj (found.symm.trans found')
      exact selected

/-- A registration that exists has its candidate selected already. -/
theorem ExtractionsSound.selected_again {c : Catalog} (h : ExtractionsSound c)
    {input : ExtractionRegistration} {identity : ExtractionId × Digest}
    {row : ExtractionPublication} (confirmed : ConfirmedExtraction input identity row c)
    (known : ExtractionKnown c input.extractionId) :
    withSelectedExtraction identity row c = c := by
  obtain ⟨key, chosen, found, selected, owner⟩ := h.agrees.chosen _ known
  have same : key = identity :=
    confirmed.sole key chosen found (owner.trans confirmed.owner.symm) selected
  rw [same, confirmed.found] at found
  obtain rfl := Option.some.inj found
  have put : c.extractionPublications.put identity { row with status := .selected }
      = c.extractionPublications := by
    rw [← selected]
    exact Table.put_same confirmed.found
  simp only [withSelectedExtraction, put]

theorem ExtractionsSound.register {c : Catalog} (h : ExtractionsSound c)
    {input : ExtractionRegistration} {identity : ExtractionId × Digest}
    {row : ExtractionPublication} (confirmed : ConfirmedExtraction input identity row c)
    (absent : c.extractions.row input.extractionId = none) :
    ExtractionsSound (withExtraction input (withSelectedExtraction identity row c)) := by
  have unobserved : c.observations.row input.extractionId = none := by
    by_contra seen
    have known := h.observed _ (Option.isSome_iff_ne_none.mpr seen)
    simp [ExtractionKnown, absent] at known
  have extraction : ∀ id, (withExtraction input
      (withSelectedExtraction identity row c)).extractions.row id =
        if id = input.extractionId then some (extractionOf input c.clock)
        else c.extractions.row id := fun _ => rfl
  have body : ∀ id, bodyOf (withExtraction input (withSelectedExtraction identity row c)) id =
      if id = input.extractionId then input.observation else bodyOf c id := by
    intro id
    simp only [bodyOf, withExtraction, withSelectedExtraction]
    by_cases here : id = input.extractionId
    · cases observes : input.observation with
      | none => simp [here, unobserved]
      | some text => simp [here]
    · cases observes : input.observation <;> simp [here]
  refine ⟨?_, ?_, ?_⟩
  · intro key row' found
    rcases Table.put_row_cases found with ⟨rfl, rfl⟩ | ⟨-, found⟩
    · exact h.keyed _ row confirmed.found
    · exact h.keyed key row' found
  · refine h.agrees.select rfl ?_ ?_ ?_ ?_
    · exact fun key other found owner selected => confirmed.sole key other found owner selected
    · intro id known
      rw [ExtractionKnown, extraction] at known
      by_cases here : id = input.extractionId
      · exact .inr (here.trans confirmed.owner.symm)
      · rw [if_neg here] at known
        exact .inl known
    · refine ⟨extractionOf input c.clock, ?_, ?_, ?_⟩
      · rw [extraction, if_pos confirmed.owner]
      · rw [confirmed.owner, ← confirmed.intent]
      · have observed := body input.extractionId
        simp only [bodyOf, if_true] at observed
        simp [identicalExtraction, confirmed.intent, extractionOf, observed]
    · rintro key other found - - ⟨x, recorded, mine, identical⟩
      have elsewhere : key.1 ≠ input.extractionId := by
        intro here
        simp [here, absent] at recorded
      refine ⟨x, by rw [extraction, if_neg elsewhere, recorded], mine, ?_⟩
      have observed := body key.1
      simp only [bodyOf, if_neg elsewhere] at observed
      simp only [identicalExtraction, mine] at identical ⊢
      rw [observed]
      exact identical
  · intro id seen
    rw [ExtractionKnown, extraction]
    by_cases here : id = input.extractionId
    · simp [here]
    · rw [if_neg here]
      apply h.observed id
      have observed := body id
      rw [if_neg here] at observed
      cases found : c.observations.row id with
      | some o => rfl
      | none =>
        simp only [bodyOf, found, Option.map_none, Option.map_eq_none_iff] at observed
        simp [observed] at seen

theorem bodyOf_withRevision (input : RevisionCreation) (number : Nat) (c : Catalog)
    (id : ExtractionId) : bodyOf (withRevision input number c) id = bodyOf c id := by
  simp only [bodyOf, withRevision, Table.mapRowsWithKey_row, Option.map_map]
  cases c.observations.row id with
  | none => rfl
  | some o =>
    simp only [Option.map_some, Function.comp_apply, consumeObservation]
    split <;> rfl

theorem extractionsSound_change {c next : Catalog} {call : Call} (h : ExtractionsSound c)
    (change : Change c call next) : ExtractionsSound next := by
  cases change with
  | reserveExtraction intent absent =>
    simp only [insertExtractionPublication, absent]
    refine h.put_candidate rfl (by simp) ?_
    intro before found
    simp [absent] at found
  | confirmExtraction intent row found => exact h.confirm found
  | selectExtraction existing confirmed found identical =>
    rw [h.selected_again confirmed (by simp [ExtractionKnown, found])]
    exact h
  | register confirmed absent unobserved => exact h.register confirmed absent
  | @create input row confirmed committable =>
    exact h.frame rfl rfl (bodyOf_withRevision input _ _)
  | reserveRevision intent absent =>
    simp only [insertRevisionPublication, absent]
    exact h.frame rfl rfl fun _ => rfl
  | _ => exact h.frame rfl rfl fun _ => rfl

theorem RecordsCreation.later {c next : Catalog} {call : Call} (change : Change c call next)
    {input : RevisionCreation} {number : Nat} {row : Revision}
    (h : RecordsCreation c input number row) : RecordsCreation next input number row := by
  refine ⟨(kept_change change).revisions number row h.found, h.predecessor, h.tree, h.origin,
    ?_, h.distinct⟩
  intro id
  rw [consumes_stable (history_step change) (by simp [h.found])]
  exact h.consumed id

/-- The checks of a creation leave no repeated observation. -/
theorem pendingAmong_perm {ids : List ExtractionId} {c : Catalog}
    (count : (pendingAmong ids c).length = ids.length) : (pendingAmong ids c).Perm ids := by
  have distinct : (pendingAmong ids c).Nodup := Table.matching_nodup _ _
  have inside : pendingAmong ids c ⊆ ids := by
    intro id mem
    obtain ⟨o, -, wanted⟩ := Table.mem_matching.mp mem
    simp only [Bool.and_eq_true, decide_eq_true_eq] at wanted
    exact wanted.1
  exact (List.subperm_of_subset distinct inside).perm_of_length_le count.ge

theorem RevisionsSound.frame {c next : Catalog} {call : Call} (h : RevisionsSound c)
    (change : Change c call next)
    (publications : next.revisionPublications = c.revisionPublications)
    (revisions : next.revisions = c.revisions) : RevisionsSound next := by
  refine ⟨?_, ?_, ?_⟩
  · rw [publications]
    exact h.keyed
  · rw [publications]
    refine h.agrees.frame ?_ ?_
    · rintro owner ⟨number, row, found, mine⟩
      exact ⟨number, row, revisions ▸ found, mine⟩
    · rintro key row - - ⟨number, revision, recorded⟩
      exact ⟨number, revision, recorded.later change⟩
  · rw [revisions]
    exact h.owners

theorem RevisionsSound.put_candidate {c : Catalog} (h : RevisionsSound c)
    {key : PublicationIdentity} {row : RevisionPublication}
    (keyed : key = revisionPublicationIdentity row.intent) (new : row.status ≠ .selected)
    (old : ∀ before, c.revisionPublications.row key = some before →
      before.status ≠ .selected) :
    RevisionsSound { c with revisionPublications := c.revisionPublications.put key row } := by
  refine ⟨?_, ?_, h.owners⟩
  · intro key' row' found
    rcases Table.put_row_cases found with ⟨rfl, rfl⟩ | ⟨-, found⟩
    · exact keyed
    · exact h.keyed key' row' found
  · refine (h.agrees.put_unselected new old).frame (fun _ known => known) ?_
    rintro key' row' - - ⟨number, revision, recorded⟩
    exact ⟨number, revision, { recorded with }⟩

theorem RevisionsSound.confirm {c : Catalog} (h : RevisionsSound c) {key : PublicationIdentity}
    {row : RevisionPublication} (found : c.revisionPublications.row key = some row) :
    RevisionsSound { c with
      revisionPublications := c.revisionPublications.put key
        { row with status := confirmStatus row.status } } := by
  by_cases selected : row.status = .selected
  · have same : ({ row with status := confirmStatus row.status } : RevisionPublication)
        = row := by
      rw [selected]
      simp only [confirmStatus, ← selected]
    rw [same, Table.put_same found]
    exact h
  · refine h.put_candidate (h.keyed key row found) ?_ ?_
    · exact fun confirmed => selected (confirmStatus_selected.mp confirmed)
    · intro before found'
      obtain rfl := Option.some.inj (found.symm.trans found')
      exact selected

/-- A creation whose revision exists has its candidate selected already. -/
theorem RevisionsSound.selected_again {c : Catalog} (h : RevisionsSound c)
    {input : RevisionCreation} {row : RevisionPublication}
    (confirmed : ConfirmedRevision input row c)
    (known : RevisionKnown c (input.source.kind, input.source.ownerId)) :
    withSelectedRevision (revisionPublicationIdentity input) row c = c := by
  obtain ⟨key, chosen, found, selected, owner⟩ := h.agrees.chosen _ known
  have same : key = revisionPublicationIdentity input :=
    confirmed.sole key chosen found (congrArg Prod.fst owner) (congrArg Prod.snd owner) selected
  rw [same, confirmed.found] at found
  obtain rfl := Option.some.inj found
  have put : c.revisionPublications.put (revisionPublicationIdentity input)
      { row with status := .selected } = c.revisionPublications := by
    rw [← selected]
    exact Table.put_same confirmed.found
  simp only [withSelectedRevision, put]

theorem known_of_sameOwner {c : Catalog} {source : RevisionSource} {number : Nat}
    {row : Revision} (found : c.revisions.row number = some row)
    (owner : sameOwner source row = true) : RevisionKnown c (source.kind, source.ownerId) := by
  simp only [sameOwner, Bool.and_eq_true, decide_eq_true_eq] at owner
  exact ⟨number, row, found, Prod.ext owner.1 owner.2⟩

theorem originOf_owner (source : RevisionSource) :
    ((originOf source).kind, (originOf source).ownerId) = (source.kind, source.ownerId) := by
  cases source <;> rfl

theorem RevisionsSound.create {c : Catalog} (h : RevisionsSound c) (history : HistorySound c)
    {input : RevisionCreation} {row : RevisionPublication}
    (confirmed : ConfirmedRevision input row c) (committable : Committable input c) :
    RevisionsSound (withRevision input (nextRevision c)
      (withSelectedRevision (revisionPublicationIdentity input) row c)) := by
  have change := Change.create confirmed committable
  generalize made : withRevision input (nextRevision c)
    (withSelectedRevision (revisionPublicationIdentity input) row c) = next at change
  have revisions : next.revisions =
      c.revisions.put (nextRevision c) (revisionOf input c.clock) := by
    rw [← made]
    rfl
  have publications : next.revisionPublications =
      c.revisionPublications.put (revisionPublicationIdentity input)
        { row with status := .selected } := by
    rw [← made]
    rfl
  refine ⟨?_, ?_, ?_⟩
  · intro key row' found
    rw [publications] at found
    rcases Table.put_row_cases found with ⟨rfl, rfl⟩ | ⟨-, found⟩
    · exact h.keyed _ row confirmed.found
    · exact h.keyed key row' found
  · rw [publications]
    refine h.agrees.select rfl ?_ ?_ ?_ ?_
    · intro key other found owner selected
      exact confirmed.sole key other found (congrArg Prod.fst owner) (congrArg Prod.snd owner)
        selected
    · rintro owner ⟨number, revision, found, mine⟩
      rw [revisions] at found
      rcases Table.put_row_cases found with ⟨-, rfl⟩ | ⟨-, old⟩
      · exact .inr (mine.symm.trans (originOf_owner input.source))
      · exact .inl ⟨number, revision, old, mine⟩
    · refine ⟨nextRevision c, revisionOf input c.clock, ?_, ?_, ?_, ?_, ?_, ?_⟩
      · rw [revisions]
        simp
      · rw [← confirmed.intent]
        rfl
      · rw [← confirmed.intent]
        rfl
      · rw [← confirmed.intent]
        rfl
      · intro id
        rw [confirmed.intent, ← made]
        refine (consumes_withRevision committable.pending _ id _).trans ?_
        refine (or_iff_right ?_).trans (and_iff_right rfl)
        intro taken
        have known := history.consumer id _ taken
        simp [committable.unused] at known
      · rw [confirmed.intent]
        exact (pendingAmong_perm committable.count).nodup_iff.mp (Table.matching_nodup _ _)
    · rintro key other - - - ⟨number, revision, recorded⟩
      exact ⟨number, revision, recorded.later change⟩
  · -- the new revision has an owner that none of the others has
    have apart : ∀ number revision, c.revisions.row number = some revision →
        ¬ (revision.origin.kind = (originOf input.source).kind ∧
          revision.origin.ownerId = (originOf input.source).ownerId) := by
      rintro number revision old ⟨kind, owner⟩
      have fresh := committable.fresh number revision old
      obtain ⟨sameKind, sameId⟩ := Prod.mk.inj (originOf_owner input.source)
      simp [sameOwner, kind, owner, sameKind, sameId] at fresh
    intro number number' revision revision' found found' kind owner
    rw [revisions] at found found'
    rcases Table.put_row_cases found with ⟨rfl, rfl⟩ | ⟨-, old⟩ <;>
      rcases Table.put_row_cases found' with ⟨rfl, rfl⟩ | ⟨-, old'⟩
    · rfl
    · exact absurd ⟨kind.symm, owner.symm⟩ (apart number' revision' old')
    · exact absurd ⟨kind, owner⟩ (apart number revision old)
    · exact h.owners number number' revision revision' old old' kind owner

theorem revisionsSound_change {c next : Catalog} {call : Call} (h : RevisionsSound c)
    (history : HistorySound c) (change : Change c call next) : RevisionsSound next := by
  cases id change with
  | reserveRevision intent absent =>
    simp only [insertRevisionPublication, absent]
    refine h.put_candidate rfl (by simp) ?_
    intro before found
    simp [absent] at found
  | confirmRevision intent row found => exact h.confirm found
  | selectRevision collation number existing confirmed found owner identical =>
    rw [h.selected_again confirmed (known_of_sameOwner found owner)]
    exact h
  | create confirmed committable => exact h.create history confirmed committable
  | reserveExtraction intent absent =>
    refine h.frame change ?_ ?_ <;> simp only [insertExtractionPublication, absent]
  | _ => exact h.frame change rfl rfl

/-- What every reachable catalog satisfies. -/
structure CatalogSound (c : Catalog) : Prop where
  history : HistorySound c
  extractions : ExtractionsSound c
  revisions : RevisionsSound c

theorem catalogSound_change {c next : Catalog} {call : Call} (h : CatalogSound c)
    (change : Change c call next) : CatalogSound next :=
  ⟨historySound_step h.history (history_step change),
    extractionsSound_change h.extractions change,
    revisionsSound_change h.revisions h.history change⟩

theorem catalogSound_reachable {collation : Collation} {c : Catalog}
    (reachable : (catalog collation).Reachable c) : CatalogSound c := by
  have preserved : ∀ s call, CatalogSound s → CatalogSound ((catalog collation).step s call) :=
    fun s call h => catalogSound_change h (execute_change collation s call)
  have initially : CatalogSound Catalog.initial :=
    ⟨historySound_initial, extractionsSound_initial, revisionsSound_initial⟩
  exact (catalog collation).reachable_invariant initially preserved reachable

/-- The columns of an extraction are those of the registration. -/
structure SameExtraction (c : Catalog) (input : ExtractionRegistration) (x : Extraction) :
    Prop where
  workflow : x.sourceWorkflow = input.sourceWorkflow
  run : x.sourceRunId = input.sourceRunId
  unit : x.sourceUnitId = input.sourceUnitId
  bundle : x.diagnosticBundleDigest = input.diagnosticBundleDigest
  trajectory : x.trajectoryReference = input.trajectoryReference
  observation : bodyOf c input.extractionId = input.observation

theorem sameExtraction_iff {c : Catalog} {input : ExtractionRegistration} {x : Extraction} :
    identicalExtraction input x c = true ↔ SameExtraction c input x := by
  simp only [identicalExtraction, Bool.and_eq_true, decide_eq_true_eq]
  constructor
  · rintro ⟨⟨⟨⟨⟨workflow, run⟩, unit⟩, bundle⟩, trajectory⟩, observation⟩
    exact ⟨workflow, run, unit, bundle, trajectory, observation⟩
  · intro h
    exact ⟨⟨⟨⟨⟨h.workflow, h.run⟩, h.unit⟩, h.bundle⟩, h.trajectory⟩, h.observation⟩

/-- The ledgers agree with the authoritative rows and keep what was selected. -/
structure LedgersAgree (collation : Collation) (c : Catalog) : Prop where
  soleExtraction : ∀ key key' row row', c.extractionPublications.row key = some row →
    c.extractionPublications.row key' = some row' → row.status = .selected →
      row'.status = .selected → key.1 = key'.1 → key = key'
  extractionSelected : ∀ id, (∃ key row, c.extractionPublications.row key = some row ∧
    row.status = .selected ∧ key.1 = id) ↔ ∃ x, c.extractions.row id = some x
  sameExtraction : ∀ key row x, c.extractionPublications.row key = some row →
    row.status = .selected → c.extractions.row key.1 = some x →
      row.intent.registration.extractionId = key.1 ∧ SameExtraction c row.intent.registration x
  soleRevision : ∀ key key' row row', c.revisionPublications.row key = some row →
    c.revisionPublications.row key' = some row' → row.status = .selected →
      row'.status = .selected → key.sourceKind = key'.sourceKind → key.ownerId = key'.ownerId →
        key = key'
  revisionSelected : ∀ kind owner, (∃ key row, c.revisionPublications.row key = some row ∧
    row.status = .selected ∧ key.sourceKind = kind ∧ key.ownerId = owner) ↔
      ∃ number revision, c.revisions.row number = some revision ∧
        revision.origin.kind = kind ∧ revision.origin.ownerId = owner
  sameRevision : ∀ key row number revision, c.revisionPublications.row key = some row →
    row.status = .selected → c.revisions.row number = some revision →
      revision.origin.kind = key.sourceKind → revision.origin.ownerId = key.ownerId →
        RecordsCreation c row.intent number revision
  keptExtraction : ∀ later key row, c.extractionPublications.row key = some row →
    row.status = .selected →
      ((catalog collation).runFrom c later).extractionPublications.row key = some row
  keptRevision : ∀ later key row, c.revisionPublications.row key = some row →
    row.status = .selected →
      ((catalog collation).runFrom c later).revisionPublications.row key = some row
  failedRegistration : ∀ input e, registerExtraction input c = .error e →
    ((Call.registerExtraction input).execute collation c).extractionPublications
        = c.extractionPublications ∧
      ((Call.registerExtraction input).execute collation c).revisionPublications
        = c.revisionPublications
  failedCreation : ∀ input e, createMemoryTreeRevision collation input c = .error e →
    ((Call.createMemoryTreeRevision input).execute collation c).extractionPublications
        = c.extractionPublications ∧
      ((Call.createMemoryTreeRevision input).execute collation c).revisionPublications
        = c.revisionPublications

theorem revision_owner {c : Catalog} {input : RevisionCreation} {number : Nat} {row : Revision}
    (h : RecordsCreation c input number row) :
    row.origin.kind = input.source.kind ∧ row.origin.ownerId = input.source.ownerId := by
  rw [h.origin]
  exact Prod.mk.inj (originOf_owner input.source)

/-- In every reachable catalog the publication ledgers agree with the
extractions and the revisions. -/
theorem publication_ledgers_agree (collation : Collation) (calls : List Call) :
    LedgersAgree collation ((catalog collation).run calls) := by
  have reachable : (catalog collation).Reachable ((catalog collation).run calls) := ⟨calls, rfl⟩
  obtain ⟨-, extractions, revisions⟩ := catalogSound_reachable reachable
  generalize (catalog collation).run calls = c at extractions revisions
  constructor
  · exact extractions.agrees.sole
  · intro id
    constructor
    · rintro ⟨key, row, found, selected, rfl⟩
      obtain ⟨x, known, -⟩ := extractions.agrees.recorded key row found selected
      exact ⟨x, known⟩
    · rintro ⟨x, known⟩
      exact extractions.agrees.chosen id (by simp [ExtractionKnown, known])
  · intro key row x found selected known
    obtain ⟨x', known', mine, identical⟩ := extractions.agrees.recorded key row found selected
    obtain rfl := Option.some.inj (known.symm.trans known')
    exact ⟨mine, sameExtraction_iff.mp identical⟩
  · intro key key' row row' found found' selected selected' kind owner
    exact revisions.agrees.sole key key' row row' found found' selected selected'
      (Prod.ext kind owner)
  · intro kind owner
    constructor
    · rintro ⟨key, row, found, selected, rfl, rfl⟩
      obtain ⟨number, revision, recorded⟩ := revisions.agrees.recorded key row found selected
      obtain ⟨sameKind, sameOwner⟩ := revision_owner recorded
      rw [revisions.keyed key row found]
      exact ⟨number, revision, recorded.found, sameKind, sameOwner⟩
    · rintro ⟨number, revision, found, sameKind, sameOwner⟩
      obtain ⟨key, row, found, selected, mine⟩ :=
        revisions.agrees.chosen (kind, owner) ⟨number, revision, found, Prod.ext sameKind sameOwner⟩
      exact ⟨key, row, found, selected, congrArg Prod.fst mine, congrArg Prod.snd mine⟩
  · intro key row number revision found selected there kind owner
    obtain ⟨number', revision', recorded⟩ := revisions.agrees.recorded key row found selected
    obtain ⟨sameKind, sameOwner⟩ := revision_owner recorded
    rw [revisions.keyed key row found] at kind owner
    obtain rfl : number' = number :=
      revisions.owners number' number revision' revision recorded.found there
        (sameKind.trans kind.symm) (sameOwner.trans owner.symm)
    obtain rfl := Option.some.inj (there.symm.trans recorded.found)
    exact recorded
  · intro later key row
    exact (kept_run collation c later).selectedExtractions key row
  · intro later key row
    exact (kept_run collation c later).selectedRevisions key row
  · intro input e failed
    simp [Call.execute, failed, committed]
  · intro input e failed
    simp [Call.execute, failed, committed]

end PublicationLedger
