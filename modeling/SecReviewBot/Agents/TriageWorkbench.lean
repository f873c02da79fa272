import SecReviewBot.Agents.DiscoveryStage
import SecReviewBot.Agents.WorkbenchBatches

/-!
# The triage workbench

Groups of discovery candidates that are kept as cases or suppressed with a reason
(`agents/triage/workbench_state.py`). Groups keep their items in the order the agent names
them; the export follows the order of the candidates.
-/

namespace TriageWorkbench

open TextCodecs TextPieces FirstOccurrences KeyedGroups TransitionSystems Workbench DiscoveryStage

inductive Kind where
  | keep | suppress
  deriving DecidableEq

def Kind.text : Kind → String
  | .keep => "keep"
  | .suppress => "suppress"

structure TriageData where
  kind : Kind
  reason : Option String
  summary : Option String
  category : Option String
  evidence : List String
  deriving DecidableEq

/-- The texts of a create or update call. -/
structure TriageFields where
  kind : Option String
  reason : Option String
  summary : Option String
  category : Option String
  evidence : Option (List String)
  deriving DecidableEq

section Texts

variable (lower : String → String)

/-- `_normalized_group_kind`. -/
def normalizedGroupKind (value : Option String) : Except String Kind :=
  let given := if value.getD "" = "" then "keep" else value.getD ""
  let kind := lower (strip pythonSpace given)
  if kind = "keep" then .ok .keep
  else if kind = "suppress" then .ok .suppress
  else .error ("invalid triage group kind: " ++ if kind = "" then given else kind)

def normalizedText (value : Option String) : Option String := value.bind normalizedId

def validateCreate (fields : TriageFields) : Except String Unit :=
  match normalizedGroupKind lower fields.kind with
  | .error e => .error e
  | .ok .keep =>
    if normalizedText fields.summary = none ∨ normalizedText fields.category = none ∨
        nonEmptyStrings fields.evidence = [] then
      .error "create_group keep groups require summary, category, and non-empty evidence."
    else .ok ()
  | .ok .suppress =>
    if normalizedText fields.reason = none then
      .error "create_group suppress groups require reason."
    else .ok ()

def newGroup (fields : TriageFields) : Except String TriageData :=
  (normalizedGroupKind lower fields.kind).map fun kind =>
    { kind
      reason := normalizedText fields.reason
      summary := normalizedText fields.summary
      category := normalizedText fields.category
      evidence := nonEmptyStrings fields.evidence }

def validateUpdate (fields : TriageFields) : Except String Unit :=
  match fields.kind with
  | none => .ok ()
  | some kind => (normalizedGroupKind lower (some kind)).map fun _ => ()

/-- A text that was given replaces the old one. -/
def revisedText (given current : Option String) : Option String :=
  match given with
  | none => current
  | some text => normalizedId text

def revisedKind (given : Option String) (current : Kind) : Except String Kind :=
  match given with
  | none => .ok current
  | some kind => normalizedGroupKind lower (some kind)

def revise (fields : TriageFields) (data : TriageData) : Except String TriageData :=
  (revisedKind lower fields.kind data.kind).map fun kind =>
    { kind
      reason := revisedText fields.reason data.reason
      summary := revisedText fields.summary data.summary
      category := revisedText fields.category data.category
      evidence := match fields.evidence with
        | none => data.evidence
        | some items => nonEmptyStrings (some items) }

end Texts

def groupErrors (group : ItemGroup TriageData) : List ConstraintError :=
  if group.itemIds = [] then [.emptyGroup group.groupId]
  else match group.data.kind with
    | .keep =>
      (if normalizedText group.data.summary = none then [.keepMissingSummary group.groupId] else []) ++
      (if normalizedText group.data.category = none then [.keepMissingCategory group.groupId]
        else []) ++
      (if nonEmptyStrings (some group.data.evidence) = [] then [.keepMissingEvidence group.groupId]
        else [])
    | .suppress =>
      if normalizedText group.data.reason = none then [.suppressMissingReason group.groupId] else []

def policy (lower : String → String) : Policy TriageData TriageFields TriageFields where
  validateCreate := validateCreate lower
  newGroup := newGroup lower
  newGroup_valid := by
    intro fields valid
    rw [validateCreate] at valid
    cases kind : normalizedGroupKind lower fields.kind with
    | error e =>
      rw [kind] at valid
      cases valid
    | ok kind' => exact ⟨_, by rw [newGroup, kind]; rfl⟩
  validateUpdate := validateUpdate lower
  revise := revise lower
  revise_valid := by
    intro fields data valid
    rw [validateUpdate] at valid
    cases given : fields.kind with
    | none => exact ⟨_, by rw [revise, given, revisedKind]; rfl⟩
    | some value =>
      rw [given] at valid
      cases kind : normalizedGroupKind lower (some value) with
      | error e =>
        simp only [kind] at valid
        cases valid
      | ok kind' => exact ⟨_, by rw [revise, given, revisedKind, kind]; rfl⟩
  place := fun _ ids => ids
  place_nodup := fun _ _ _ distinct => distinct
  mem_place := fun _ _ _ _ => Iff.rfl
  kind := fun data => data.kind.text
  groupErrors := groupErrors

/-- `items_by_id`: the first candidate with each id. -/
def itemsById : List DiscoveryCandidateResult → List (String × DiscoveryCandidateResult)
  | [] => []
  | candidate :: rest =>
    match normalizedId candidate.candidateId with
    | none => itemsById rest
    | some id => (id, candidate) :: (itemsById rest).filter fun item => item.1 ≠ id

/-- The workbench `from_candidates` makes, and what its calls do. -/
def triageWorkbench (lower : String → String) (candidates : List DiscoveryCandidateResult) :
    System (State TriageData) (Call TriageFields TriageFields) :=
  workbench (policy lower) (candidates.map DiscoveryCandidateResult.candidateId)

structure TriageCase where
  caseId : String
  category : String
  summary : String
  evidence : List String
  memberCandidateIds : List String
  anchorLocations : List DiscoveryLocation
  deriving DecidableEq

structure SuppressedCandidate where
  candidateId : String
  reason : String
  category : String
  deriving DecidableEq

/-- What a case id is made from, for each member. -/
structure CaseComponent where
  candidateId : String
  category : String
  locations : List String
  evidence : List String
  deriving DecidableEq

/-- The services the export calls: hashing, `json.dumps(payload, sort_keys=True)` and
`str.lower`. -/
structure Services where
  sha1 : Sha1
  dumps : CaseComponent → String
  lower : String → String

section Export

variable (services : Services)

/-- Runs of other characters become one dash. -/
def dashed : Bool → List Char → List Char
  | _, [] => []
  | afterDash, c :: rest =>
    if c.isDigit || (decide ('a' ≤ c) && decide (c ≤ 'z')) then c :: dashed false rest
    else if afterDash then dashed true rest
    else '-' :: dashed true rest

def normalizedKeyFragment (value : String) : String :=
  strip (· = '-') (String.ofList (dashed false (services.lower value).toList))

def candidateCaseComponent (result : DiscoveryCandidateResult) : CaseComponent where
  candidateId := result.candidateId
  category := result.candidate.category
  locations := (result.candidate.locations.filterMap fun location =>
    match location.line with
    | some (line + 1) => some (location.file ++ ":" ++ String.ofList (numeral (line + 1)))
    | _ => none).mergeSort
  evidence := (result.candidate.evidence.filter fun item =>
    normalizedKeyFragment services item ≠ "").map fun item =>
      String.ofList ((normalizedKeyFragment services item).toList.take 120)

def stableCaseId (members : List DiscoveryCandidateResult) : String :=
  services.sha1.short 14 ("||".intercalate (members.map fun member =>
    services.sha1.short 24 (services.dumps (candidateCaseComponent services member))).mergeSort)

def candidateCaseEvidence (result : DiscoveryCandidateResult) : List String :=
  let evidence := nonEmptyStrings (some result.candidate.evidence)
  let labels := nonEmptyStrings (some (result.candidate.locations.map DiscoveryLocation.label))
  let summary := strip pythonSpace result.candidate.description
  if evidence ≠ [] then evidence
  else if labels ≠ [] then labels
  else if summary = "" then [] else [summary]

def buildCaseFromCandidates (category summary : String) (evidence : List String)
    (members : List DiscoveryCandidateResult) : TriageCase where
  caseId := stableCaseId services members
  category
  summary
  evidence := nonEmptyStrings (some evidence)
  memberCandidateIds := members.map DiscoveryCandidateResult.candidateId
  anchorLocations := members.flatMap fun member => member.candidate.locations

/-- The position of the first item of a group. -/
def groupPosition (s : State TriageData) (group : ItemGroup TriageData) : Nat :=
  match group.itemIds with
  | [] => s.orderedItemIds.length
  | item :: _ => s.orderedItemIds.idxOf item

def orderedGroups (s : State TriageData) : List (ItemGroup TriageData) :=
  s.groups.mergeSort fun a b => groupPosition s a ≤ groupPosition s b

def memberCandidates (items : List (String × DiscoveryCandidateResult))
    (group : ItemGroup TriageData) : List DiscoveryCandidateResult :=
  group.itemIds.filterMap fun item => items.lookup item

/-- The case of a group that is kept. -/
def caseOf (items : List (String × DiscoveryCandidateResult)) (group : ItemGroup TriageData) :
    Option TriageCase :=
  match group.data.kind, memberCandidates items group with
  | .keep, first :: rest =>
    let category := (normalizedText group.data.category).getD
      (strip pythonSpace first.candidate.category)
    let summary := (normalizedText group.data.summary).getD
      (strip pythonSpace first.candidate.description)
    let evidence := if nonEmptyStrings (some group.data.evidence) ≠ [] then
      nonEmptyStrings (some group.data.evidence) else candidateCaseEvidence first
    some (buildCaseFromCandidates services category summary evidence (first :: rest))
  | _, _ => none

def suppressionsOf (items : List (String × DiscoveryCandidateResult))
    (group : ItemGroup TriageData) : List SuppressedCandidate :=
  match group.data.kind with
  | .keep => []
  | .suppress => (memberCandidates items group).map fun candidate =>
    { candidateId := candidate.candidateId
      reason := (normalizedText group.data.reason).getD "suppressed"
      category := candidate.candidate.category }

def exportCasesAndSuppressions (items : List (String × DiscoveryCandidateResult))
    (s : State TriageData) : List TriageCase × List SuppressedCandidate :=
  (((orderedGroups s).filterMap (caseOf services items)).mergeSort fun a b => a.caseId ≤ b.caseId,
    (orderedGroups s).flatMap (suppressionsOf items))

inductive Finished where
  | incomplete (errors : List ConstraintError)
  | ok (cases : List TriageCase) (suppressedCandidates : List SuppressedCandidate)

def finish (items : List (String × DiscoveryCandidateResult)) (s : State TriageData) : Finished :=
  if constraints (policy services.lower) s = [] then
    .ok (exportCasesAndSuppressions services items s).1 (exportCasesAndSuppressions services items s).2
  else .incomplete (constraints (policy services.lower) s)

end Export

theorem itemsById_fst (candidates : List DiscoveryCandidateResult) :
    (itemsById candidates).map Prod.fst =
      dedupeIds (candidates.map DiscoveryCandidateResult.candidateId) := by
  induction candidates with
  | nil => rfl
  | cons candidate rest ih =>
    rw [dedupeIds] at ih ⊢
    rw [itemsById, List.map_cons, List.filterMap_cons]
    cases normalizedId candidate.candidateId with
    | none => exact ih
    | some id =>
      have later : ((itemsById rest).filter fun item => item.1 ≠ id).map Prod.fst =
          ((itemsById rest).map Prod.fst).filter fun key => !key == id := by
        rw [List.filter_map]
        refine congrArg (List.map Prod.fst) (List.filter_congr fun item _ => ?_)
        by_cases same : item.1 = id <;> simp [same]
      rw [List.map_cons, later, ih, List.eraseDups_cons, eraseDups_filter]

/-- Every item is one of the candidates, under its own id. -/
theorem mem_itemsById {candidates : List DiscoveryCandidateResult}
    {item : String × DiscoveryCandidateResult} (mem : item ∈ itemsById candidates) :
    item.2 ∈ candidates ∧ normalizedId item.2.candidateId = some item.1 := by
  induction candidates with
  | nil => cases mem
  | cons candidate rest ih =>
    rw [itemsById] at mem
    cases id : normalizedId candidate.candidateId with
    | none =>
      rw [id] at mem
      obtain ⟨held, own⟩ := ih mem
      exact ⟨List.mem_cons_of_mem _ held, own⟩
    | some key =>
      rw [id] at mem
      rcases List.mem_cons.mp mem with rfl | mem
      · exact ⟨List.mem_cons_self, id⟩
      · obtain ⟨held, own⟩ := ih (List.mem_of_mem_filter mem)
        exact ⟨List.mem_cons_of_mem _ held, own⟩

theorem constraints_ok {lower : String → String} {s : State TriageData}
    (ok : constraints (policy lower) s = []) :
    unprocessedItemIds s = [] ∧ ∀ group ∈ s.groups, groupErrors group = [] := by
  rw [constraints, List.append_eq_nil_iff] at ok
  refine ⟨?_, List.flatMap_eq_nil_iff.mp ok.2⟩
  by_contra left
  rw [if_neg left] at ok
  cases ok.1

section Export

variable {services : Services} {candidates : List DiscoveryCandidateResult} {s : State TriageData}

/-- When nothing is left over, the groups hold exactly the items. -/
theorem members_perm
    (reachable : (triageWorkbench services.lower candidates).Reachable s)
    (ok : constraints (policy services.lower) s = []) :
    ((orderedGroups s).flatMap (memberCandidates (itemsById candidates))).Perm
      ((itemsById candidates).map Prod.snd) := by
  have ordered : s.orderedItemIds = (itemsById candidates).map Prod.fst :=
    (orderedItemIds_reachable _ reachable).trans (itemsById_fst candidates).symm
  have held := partitioned_reachable _ reachable
  have all : (s.groups.flatMap ItemGroup.itemIds).Perm s.orderedItemIds :=
    items_perm held (constraints_ok ok).1
  have groups : ((orderedGroups s).flatMap ItemGroup.itemIds).Perm (s.groups.flatMap ItemGroup.itemIds) :=
    (List.mergeSort_perm _ _).flatMap_right _
  have distinct : ((itemsById candidates).map Prod.fst).Nodup := ordered ▸ held.distinct
  have chosen := (groups.trans all).filterMap fun item => (itemsById candidates).lookup item
  rw [ordered, filterMap_lookup distinct, List.filterMap_flatMap] at chosen
  exact chosen

/-- A group is exported either as a case or as suppressions, with all its members. -/
theorem exported_ids (items : List (String × DiscoveryCandidateResult))
    (group : ItemGroup TriageData) :
    ((caseOf services items group).toList.flatMap TriageCase.memberCandidateIds) ++
        (suppressionsOf items group).map SuppressedCandidate.candidateId =
      (memberCandidates items group).map DiscoveryCandidateResult.candidateId := by
  rw [caseOf, suppressionsOf]
  cases group.data.kind with
  | keep =>
    cases memberCandidates items group with
    | nil => rfl
    | cons first rest =>
      simp only [Option.toList_some, List.flatMap_singleton, List.map_nil, List.append_nil]
      rfl
  | suppress =>
    simp only [Option.toList_none, List.flatMap_nil, List.nil_append, List.map_map]
    rfl

theorem export_perm
    (reachable : (triageWorkbench services.lower candidates).Reachable s)
    (ok : constraints (policy services.lower) s = []) :
    ((exportCasesAndSuppressions services (itemsById candidates) s).1.flatMap
        TriageCase.memberCandidateIds ++
      (exportCasesAndSuppressions services (itemsById candidates) s).2.map
        SuppressedCandidate.candidateId).Perm
      ((itemsById candidates).map fun item => item.2.candidateId) := by
  have cases : ((exportCasesAndSuppressions services (itemsById candidates) s).1.flatMap
      TriageCase.memberCandidateIds).Perm
      ((orderedGroups s).flatMap fun group =>
        (caseOf services (itemsById candidates) group).toList.flatMap
          TriageCase.memberCandidateIds) := by
    rw [← List.flatMap_assoc, ← List.filterMap_eq_flatMap_toList]
    exact (List.mergeSort_perm _ _).flatMap_right _
  have suppressed : (exportCasesAndSuppressions services (itemsById candidates) s).2.map
      SuppressedCandidate.candidateId =
      (orderedGroups s).flatMap fun group =>
        (suppressionsOf (itemsById candidates) group).map SuppressedCandidate.candidateId := by
    rw [exportCasesAndSuppressions, List.map_flatMap]
  have members := (members_perm reachable ok).map DiscoveryCandidateResult.candidateId
  rw [List.map_flatMap, List.map_map] at members
  rw [suppressed]
  refine (cases.append_right _).trans ((List.flatMap_append_perm _ _ _).trans ?_)
  simp only [exported_ids]
  exact members

theorem export_case_nonempty {items : List (String × DiscoveryCandidateResult)} {case : TriageCase}
    (mem : case ∈ (exportCasesAndSuppressions services items s).1) :
    case.memberCandidateIds ≠ [] := by
  rw [exportCasesAndSuppressions, List.mem_mergeSort, List.mem_filterMap] at mem
  obtain ⟨group, _, made⟩ := mem
  rw [caseOf] at made
  split at made
  · cases made
    simp [buildCaseFromCandidates]
  · cases made

/-- Each item ends up suppressed, or in a case with all its locations. -/
theorem export_represents
    (reachable : (triageWorkbench services.lower candidates).Reachable s)
    (ok : constraints (policy services.lower) s = []) {candidate : DiscoveryCandidateResult}
    (mem : candidate ∈ (itemsById candidates).map Prod.snd) :
    candidate.candidateId ∈
        (exportCasesAndSuppressions services (itemsById candidates) s).2.map
          SuppressedCandidate.candidateId ∨
      ∃ case ∈ (exportCasesAndSuppressions services (itemsById candidates) s).1,
        candidate.candidateId ∈ case.memberCandidateIds ∧
        ∀ location ∈ candidate.candidate.locations, location ∈ case.anchorLocations := by
  have placed := (members_perm reachable ok).symm.subset mem
  obtain ⟨group, held, member⟩ := List.mem_flatMap.mp placed
  cases kind : group.data.kind with
  | keep =>
    refine .inr ?_
    cases members : memberCandidates (itemsById candidates) group with
    | nil =>
      rw [members] at member
      cases member
    | cons first rest =>
      have made : ∃ case, caseOf services (itemsById candidates) group = some case ∧
          case.memberCandidateIds = (first :: rest).map DiscoveryCandidateResult.candidateId ∧
          case.anchorLocations = (first :: rest).flatMap fun member => member.candidate.locations := by
        rw [caseOf, kind, members]
        exact ⟨_, rfl, rfl, rfl⟩
      obtain ⟨case, eq, ids, locations⟩ := made
      rw [members] at member
      refine ⟨case, ?_, ?_, fun location inside => ?_⟩
      · rw [exportCasesAndSuppressions, List.mem_mergeSort, List.mem_filterMap]
        exact ⟨group, held, eq⟩
      · rw [ids]
        exact List.mem_map_of_mem member
      · rw [locations]
        exact List.mem_flatMap.mpr ⟨candidate, member, inside⟩
  | suppress =>
    refine .inl ?_
    rw [exportCasesAndSuppressions, List.map_flatMap]
    refine List.mem_flatMap.mpr ⟨group, held, ?_⟩
    rw [suppressionsOf, kind, List.map_map]
    exact List.mem_map_of_mem member

end Export

end TriageWorkbench
