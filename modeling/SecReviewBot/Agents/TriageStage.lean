import SecReviewBot.BucketPacking
import SecReviewBot.Agents.TriageWorkbench

/-!
# The triage stage

One draft phase and at most one refinement over a triage workbench, either on all candidates
at once or in batches whose drafts are collected in one workbench
(`scan_stages/triage/agent_passes.py`, `batching.py`). Candidates are told apart by their
ids only, so two findings with the same id text are one item.
-/

namespace TriageStage

open TextCodecs TransitionSystems Workbench DiscoveryStage TriageWorkbench BucketPacking

inductive TriageMode where
  | single | batched
  deriving DecidableEq

structure TriageMetadata where
  triageMode : TriageMode
  triagePassCount : Nat
  batchSize : Option Int
  deriving DecidableEq

structure TriageCounts where
  inputCandidateCount : Nat
  caseCount : Nat
  suppressedCandidateCount : Nat
  deriving DecidableEq

structure TriageResult where
  metadata : TriageMetadata
  counts : TriageCounts
  cases : List TriageCase
  suppressedCandidates : List SuppressedCandidate
  deriving DecidableEq

abbrev TriageCall := Call TriageFields TriageFields

/-- What the agent does in each pass, the batch drafts by the number of the batch. -/
structure Edits where
  draft : List TriageCall
  batch : Nat → List TriageCall
  refinement : List TriageCall

section Batches

variable (lower : String → String)

/-- `_primary_path_key`. -/
def primaryPathKey (candidate : DiscoveryCandidate) : String :=
  let paths := (candidate.locations.map fun location => strip pythonSpace location.file).filter
    (· ≠ "")
  match paths.eraseDups.mergeSort with
  | path :: _ => path
  | [] => "__no_location_file__::" ++ lower (strip pythonSpace candidate.category)

def buckets (candidates : List DiscoveryCandidateResult) : List (String × List String) :=
  candidates.foldl (fun found result =>
    match normalizedId result.candidateId with
    | none => found
    | some id => append (primaryPathKey lower result.candidate) id found) []

/-- Larger buckets first, then by the first id. -/
def orderedBuckets (candidates : List DiscoveryCandidateResult) : List (List String) :=
  ((buckets lower candidates).map fun bucket => bucket.2.mergeSort).mergeSort fun a b =>
    b.length < a.length ∨ a.length = b.length ∧ a.headD "" ≤ b.headD ""

def packBatches (size : Nat) : List String → List (List String) → List (List String)
  | current, [] => if current = [] then [] else [current]
  | current, bucket :: rest =>
    if size < bucket.length then
      (if current = [] then [] else [current]) ++ slices size bucket ++ packBatches size [] rest
    else if current ≠ [] ∧ size < current.length + bucket.length then
      current :: packBatches size bucket rest
    else packBatches size (current ++ bucket) rest

def triageCandidateBatches (candidates : List DiscoveryCandidateResult) (maxBatchSize : Int) :
    Except String (List (List String)) :=
  if maxBatchSize ≤ 0 then .error "max_batch_size must be positive."
  else .ok (packBatches maxBatchSize.toNat [] (orderedBuckets lower candidates))

end Batches

/-- The candidates routed to a batch. -/
def batchCandidates (candidates : List DiscoveryCandidateResult) (batch : List String) :
    List DiscoveryCandidateResult :=
  candidates.filter fun result => strip pythonSpace result.candidateId ∈ batch

def groupDrafts (s : State TriageData) : List (CreateInput TriageFields) :=
  (s.groups.filter fun group => group.itemIds ≠ []).map fun group =>
    { fields := {
        kind := some group.data.kind.text
        reason := group.data.reason
        summary := group.data.summary
        category := group.data.category
        evidence := some group.data.evidence }
      itemIds := some group.itemIds }

section Passes

variable (services : Services)

def shouldRunAnotherTriagePass (maxPasses : Int) (s : State TriageData) : Bool :=
  if maxPasses ≤ 1 then false
  else if constraints (policy services.lower) s ≠ [] then true
  else s.editEvents = [.createGroups] ∨ s.editEvents = [.deleteGroups, .createGroups]

def runSingleTriagePasses (candidates : List DiscoveryCandidateResult) (maxPasses : Int)
    (edits : Edits) : State TriageData × Nat :=
  let drafted := (triageWorkbench services.lower candidates).run edits.draft
  if shouldRunAnotherTriagePass services maxPasses drafted then
    ((triageWorkbench services.lower candidates).runFrom drafted edits.refinement, 2)
  else (drafted, 1)

/-- The drafts of the batches become groups of the one workbench, batch after batch. -/
def adoptDrafts (candidates : List DiscoveryCandidateResult) (edits : Edits) :
    Nat → List (List String) → State TriageData → Except String (State TriageData)
  | _, [], s => .ok s
  | index, batch :: rest, s =>
    let drafts := groupDrafts ((triageWorkbench services.lower
      (batchCandidates candidates batch)).run (edits.batch index))
    if drafts = [] then adoptDrafts candidates edits (index + 1) rest s
    else match performed (policy services.lower) (.createGroups drafts) s with
      | (.error e, _) => .error e
      | (.ok _, next) => adoptDrafts candidates edits (index + 1) rest next

def runBatchedTriagePasses (candidates : List DiscoveryCandidateResult) (maxPasses : Int)
    (maxBatchSize : Int) (edits : Edits) : Except String (State TriageData × Nat) := do
  let batches ← triageCandidateBatches services.lower candidates maxBatchSize
  let collected ← adoptDrafts services candidates edits 1 batches
    (triageWorkbench services.lower candidates).initial
  if 1 < maxPasses then
    return ((triageWorkbench services.lower candidates).runFrom collected edits.refinement,
      batches.length + 1)
  else return (collected, batches.length)

def runTriagePasses (candidates : List DiscoveryCandidateResult) (maxPasses : Int)
    (mode : TriageMode) (maxBatchSize : Int) (edits : Edits) :
    Except String (State TriageData × Nat) :=
  match mode with
  | .batched => runBatchedTriagePasses services candidates maxPasses maxBatchSize edits
  | .single => .ok (runSingleTriagePasses services candidates maxPasses edits)

def runRepositoryTriageAgent (candidates : List DiscoveryCandidateResult) (maxPasses : Int)
    (mode : TriageMode) (maxBatchSize : Int) (edits : Edits) : Except String TriageResult := do
  let (s, passCount) ← runTriagePasses services candidates maxPasses mode maxBatchSize edits
  if constraints (policy services.lower) s ≠ [] then
    .error "triage workbench is incomplete after agent execution."
  else
    let (cases, suppressed) := exportCasesAndSuppressions services (itemsById candidates) s
    return {
      metadata := {
        triageMode := mode
        triagePassCount := passCount
        batchSize := if mode = .batched then some maxBatchSize else none }
      counts := {
        inputCandidateCount := candidates.length
        caseCount := cases.length
        suppressedCandidateCount := suppressed.length }
      cases
      suppressedCandidates := suppressed }

end Passes

section Runs

variable {services : Services} {candidates : List DiscoveryCandidateResult}

theorem adoptDrafts_reachable {edits : Edits} {index : Nat} {batches : List (List String)}
    {s t : State TriageData} (h : (triageWorkbench services.lower candidates).Reachable s)
    (done : adoptDrafts services candidates edits index batches s = .ok t) :
    (triageWorkbench services.lower candidates).Reachable t := by
  induction batches generalizing index s with
  | nil =>
    cases done
    exact h
  | cons batch rest ih =>
    rw [adoptDrafts] at done
    split at done
    · exact ih h done
    · split at done
      · cases done
      · next result next made =>
        refine ih ?_ done
        have step := System.reachable_step _ h (.createGroups (groupDrafts
          ((triageWorkbench services.lower (batchCandidates candidates batch)).run
            (edits.batch index))))
        rw [triageWorkbench, step_of_performed _ _ made] at step
        exact step

theorem runTriagePasses_reachable {maxPasses maxBatchSize : Int} {mode : TriageMode}
    {edits : Edits} {s : State TriageData} {passCount : Nat}
    (done : runTriagePasses services candidates maxPasses mode maxBatchSize edits =
      .ok (s, passCount)) :
    (triageWorkbench services.lower candidates).Reachable s := by
  cases mode with
  | single =>
    have drafted : (triageWorkbench services.lower candidates).Reachable
        ((triageWorkbench services.lower candidates).run edits.draft) := ⟨edits.draft, rfl⟩
    rw [runTriagePasses, runSingleTriagePasses] at done
    split at done
    · cases done
      exact System.reachable_runFrom _ drafted edits.refinement
    · cases done
      exact drafted
  | batched =>
    rw [runTriagePasses, runBatchedTriagePasses] at done
    cases batches : triageCandidateBatches services.lower candidates maxBatchSize with
    | error e =>
      rw [batches] at done
      cases done
    | ok found =>
      cases collected : adoptDrafts services candidates edits 1 found
          (triageWorkbench services.lower candidates).initial with
      | error e =>
        simp only [batches, collected, bind, Except.bind] at done
        cases done
      | ok t =>
        have reachable := adoptDrafts_reachable (System.reachable_initial _) collected
        simp only [batches, collected, bind, Except.bind] at done
        split at done
        · cases done
          exact System.reachable_runFrom _ reachable edits.refinement
        · cases done
          exact reachable

/-- A completed run exports a workbench whose constraints hold. -/
theorem runRepositoryTriageAgent_ok {maxPasses maxBatchSize : Int} {mode : TriageMode}
    {edits : Edits} {result : TriageResult}
    (done : runRepositoryTriageAgent services candidates maxPasses mode maxBatchSize edits =
      .ok result) :
    ∃ s, (triageWorkbench services.lower candidates).Reachable s ∧
      constraints (policy services.lower) s = [] ∧
      result.cases = (exportCasesAndSuppressions services (itemsById candidates) s).1 ∧
      result.suppressedCandidates =
        (exportCasesAndSuppressions services (itemsById candidates) s).2 ∧
      result.counts.inputCandidateCount = candidates.length := by
  rw [runRepositoryTriageAgent] at done
  cases passes : runTriagePasses services candidates maxPasses mode maxBatchSize edits with
  | error e =>
    rw [passes] at done
    cases done
  | ok pair =>
    obtain ⟨s, passCount⟩ := pair
    simp only [passes, bind, Except.bind] at done
    split at done
    · cases done
    · next met =>
      cases done
      exact ⟨s, runTriagePasses_reachable passes, not_not.mp met, rfl, rfl, rfl⟩

/-- Every candidate is accounted for: as many members and suppressions as candidates, and
each is suppressed or in a case with all its locations. -/
structure Represented (candidates : List DiscoveryCandidateResult) (result : TriageResult) :
    Prop where
  counted : (result.cases.flatMap TriageCase.memberCandidateIds).length +
    result.suppressedCandidates.length = result.counts.inputCandidateCount
  placed : ∀ candidate ∈ candidates,
    candidate.candidateId ∈ result.suppressedCandidates.map SuppressedCandidate.candidateId ∨
    ∃ case ∈ result.cases, candidate.candidateId ∈ case.memberCandidateIds ∧
      ∀ location ∈ candidate.candidate.locations, location ∈ case.anchorLocations

/-- With distinct ids every candidate is an item of its own. -/
theorem itemsById_of_distinct
    (visible : ∀ candidate ∈ candidates,
      normalizedId candidate.candidateId = some candidate.candidateId)
    (distinct : (candidates.map DiscoveryCandidateResult.candidateId).Nodup) :
    itemsById candidates = candidates.map fun candidate => (candidate.candidateId, candidate) := by
  induction candidates with
  | nil => rfl
  | cons candidate rest ih =>
    obtain ⟨own, others⟩ := List.forall_mem_cons.mp visible
    obtain ⟨fresh, distinct⟩ := List.nodup_cons.mp distinct
    have kept : ((itemsById rest).filter fun item => item.1 ≠ candidate.candidateId) =
        itemsById rest := by
      rw [List.filter_eq_self, ih others distinct]
      intro item mem
      obtain ⟨other, held, rfl⟩ := List.mem_map.mp mem
      have different : other.candidateId ≠ candidate.candidateId := fun same =>
        fresh (same ▸ List.mem_map_of_mem held)
      simpa using different
    simp only [itemsById, own, kept, List.map_cons]
    rw [ih others distinct]

/-- The stage accounts for every candidate exactly when no two share an id. -/
theorem represented_iff_ids {maxPasses maxBatchSize : Int} {mode : TriageMode}
    {edits : Edits} {result : TriageResult}
    (visible : ∀ candidate ∈ candidates,
      normalizedId candidate.candidateId = some candidate.candidateId)
    (done : runRepositoryTriageAgent services candidates maxPasses mode maxBatchSize edits =
      .ok result) :
    Represented candidates result ↔
      (candidates.map DiscoveryCandidateResult.candidateId).Nodup := by
  obtain ⟨s, reachable, ok, cases, suppressed, inputs⟩ := runRepositoryTriageAgent_ok done
  have exported := (export_perm reachable ok).length_eq
  rw [← cases, ← suppressed, List.length_append, List.length_map, List.length_map] at exported
  have items : (itemsById candidates).length =
      (dedupeIds (candidates.map DiscoveryCandidateResult.candidateId)).length := by
    rw [← itemsById_fst, List.length_map]
  constructor
  · intro represented
    have counted := represented.counted
    have trimmed : (candidates.map DiscoveryCandidateResult.candidateId).filterMap normalizedId =
        candidates.map DiscoveryCandidateResult.candidateId := by
      rw [List.filterMap_map, ← List.filterMap_eq_map]
      exact List.filterMap_congr visible
    refine FirstOccurrences.nodup_of_length_eraseDups ?_
    rw [dedupeIds, trimmed] at items
    rw [List.length_map]
    omega
  · intro distinct
    have own := itemsById_of_distinct visible distinct
    refine ⟨?_, fun candidate mem => ?_⟩
    · rw [exported, own, List.length_map, inputs]
    · have item : candidate ∈ (itemsById candidates).map Prod.snd := by
        rw [own, List.map_map]
        exact List.mem_map.mpr ⟨candidate, mem, rfl⟩
      rw [cases, suppressed]
      exact export_represents reachable ok item

end Runs

/-- No candidate of a scan is lost exactly when the texts behind the ids are distinct. -/
theorem no_candidate_lost_iff {services : Services} {chunks : List Chunk}
    {results : List (List DiscoveryCandidateResult)} {maxPasses maxBatchSize : Int}
    {mode : TriageMode} {edits : Edits} {result : TriageResult}
    (collisionFree : ∀ a ∈ payloads chunks, ∀ b ∈ payloads chunks,
      services.sha1.short 16 a = services.sha1.short 16 b → a = b)
    (scan : chunks.mapM (scanDiscoveryChunk services.sha1) = .ok results)
    (done : runRepositoryTriageAgent services (discoveryCandidates results) maxPasses mode
      maxBatchSize edits = .ok result) :
    Represented (discoveryCandidates results) result ↔ (payloads chunks).Nodup := by
  obtain ⟨found, texts, candidates⟩ := discoveryCandidates_eq scan
  have visible : ∀ candidate ∈ discoveryCandidates results,
      normalizedId candidate.candidateId = some candidate.candidateId := by
    intro candidate mem
    rw [candidates] at mem
    obtain ⟨pair, _, rfl⟩ := List.mem_map.mp mem
    obtain ⟨trimmed, some⟩ := strip_short services.sha1 (show 0 < 16 by omega) pair.1
    rw [normalizedId, candidateResult, trimmed, if_neg some]
  have ids : (discoveryCandidates results).map DiscoveryCandidateResult.candidateId =
      (payloads chunks).map (services.sha1.short 16) := by
    rw [candidates, texts, List.map_map, List.map_map]
    rfl
  rw [represented_iff_ids visible done, ids]
  constructor
  · exact List.Nodup.of_map _
  · intro distinct
    exact distinct.map_on collisionFree

/-- The component of a case with one finding, at a line of `a.py`. -/
def componentText (candidateId line : String) : String :=
  "\x7b\"candidate_id\": \"" ++ candidateId ++
    "\", \"category\": \"injection\", \"evidence\": [], \"locations\": [\"a.py:" ++ line ++ "\"]\x7d"

/-- The digests that occur for findings at the two lines of `a.py`. -/
def digests : List (String × String) := [
  ("a.py:injection:1:Tainted query", "fce9d79ebc8e809b7798940aecc28dca91c8eee4"),
  (componentText "fce9d79ebc8e809b" "1", "a6b4c684a3cf35acf0748743054e482508055a4a"),
  ("a6b4c684a3cf35acf0748743", "228293e883cb036a08c2547c0135b9a36ec559dc"),
  ("a.py:injection:2:Tainted query", "b15fee58aa83c4692b59408543fa586e6ab58dcc"),
  (componentText "b15fee58aa83c469" "2", "ead9512cb4d703e266961d4ba9fe0e5ec1ffcc53"),
  ("ead9512cb4d703e266961d4b", "cb572428d71b4d556196e8dedec9fe9e0b4bd8ad")]

def digestOf (text : String) : String :=
  (digests.lookup text).getD "da39a3ee5e6b4b0d3255bfef95601890afd80709"

theorem digestOf_mem (text : String) :
    digestOf text ∈ digests.map Prod.snd ∨
      digestOf text = "da39a3ee5e6b4b0d3255bfef95601890afd80709" := by
  rw [digestOf]
  cases found : digests.lookup text with
  | none => exact .inr rfl
  | some digest =>
    obtain ⟨before, after, eq, _⟩ := List.lookup_eq_some_iff.mp found
    refine .inl (List.mem_map.mpr ⟨(text, digest), ?_, rfl⟩)
    rw [eq]
    simp

def someServices : Services where
  sha1 := {
    hexdigest := digestOf
    length := by
      intro text
      have each : ∀ digest ∈ digests.map Prod.snd, digest.toList.length = 40 := by decide
      rcases digestOf_mem text with listed | other
      · exact each _ listed
      · rw [other]
        decide
    hex := by
      intro text
      have each : ∀ digest ∈ digests.map Prod.snd, digest.toList.all hexDigit = true := by decide
      rcases digestOf_mem text with listed | other
      · exact List.all_eq_true.mp (each _ listed)
      · rw [other]
        exact List.all_eq_true.mp (by decide) }
  dumps := fun component =>
    componentText component.candidateId (if component.locations = ["a.py:1"] then "1" else "2")
  lower := fun text => text

/-- A finding at line 1 of `a.py`, and perhaps at more places. -/
def finding (others : List DiscoveryLocation) (evidence : List String) : DiscoveryCandidate where
  category := "injection"
  description := "Tainted query"
  locations := { file := "a.py", line := some 1, label := "source" } :: others
  evidence

def chunkOf (reported : List DiscoveryCandidate) : Chunk where
  sources := [("a.py", "q = get()\nrun(q)")]
  reported
  distinct := by decide

/-- What the scan makes of it: the snippet is not in the file. -/
def resultOf (others : List DiscoveryLocation) : DiscoveryCandidateResult where
  candidateId := "fce9d79ebc8e809b"
  candidate := finding others []
  groundingStatus := .needsGrounding

def keepGroup (candidateId : String) : TriageCall :=
  .createGroup {
    fields := {
      kind := some "keep", reason := none, summary := some "Tainted query",
      category := some "injection", evidence := some ["q = get()"] }
    itemIds := some [candidateId] }

/-- The agent keeps items, each in a group of its own. -/
def keepEdits (candidateIds : List String) : Edits where
  draft := candidateIds.map keepGroup
  batch := fun _ => []
  refinement := []

def sink : DiscoveryLocation := { file := "a.py", line := some 2, label := "sink" }

theorem keepEdits_done {candidates : List DiscoveryCandidateResult} {candidateIds : List String}
    (ok : constraints (policy someServices.lower)
      ((triageWorkbench someServices.lower candidates).run (candidateIds.map keepGroup)) = []) :
    ∃ result, runRepositoryTriageAgent someServices candidates 1 .single 30
      (keepEdits candidateIds) = .ok result := by
  have passes : runTriagePasses someServices candidates 1 .single 30 (keepEdits candidateIds) =
      .ok ((triageWorkbench someServices.lower candidates).run (candidateIds.map keepGroup), 1) :=
    rfl
  rw [runRepositoryTriageAgent, passes]
  simp only [bind, Except.bind, ok]
  exact ⟨_, rfl⟩

/-- A finding at line 2 of `a.py`. -/
def sinkFinding (evidence : List String) : DiscoveryCandidate :=
  { finding [] evidence with locations := [sink] }

def sinkResult : DiscoveryCandidateResult where
  candidateId := "b15fee58aa83c469"
  candidate := sinkFinding []
  groundingStatus := .needsGrounding

/-- Two findings with first locations of their own. -/
theorem two_findings_represented :
    ∃ result, runRepositoryTriageAgent someServices
        (discoveryCandidates [[resultOf [], sinkResult]]) 1 .single 30
        (keepEdits ["fce9d79ebc8e809b", "b15fee58aa83c469"]) = .ok result ∧
      Represented (discoveryCandidates [[resultOf [], sinkResult]]) result := by
  obtain ⟨result, done⟩ := @keepEdits_done (discoveryCandidates [[resultOf [], sinkResult]])
    ["fce9d79ebc8e809b", "b15fee58aa83c469"] (by decide)
  have texts : payloads [chunkOf [finding [] ["exec(q)"], sinkFinding ["exec(q)"]]] =
      ["a.py:injection:1:Tainted query", "a.py:injection:2:Tainted query"] := by decide
  have scan : [chunkOf [finding [] ["exec(q)"], sinkFinding ["exec(q)"]]].mapM
      (scanDiscoveryChunk someServices.sha1) = .ok [[resultOf [], sinkResult]] := by decide
  refine ⟨result, done, (no_candidate_lost_iff ?_ scan done).mpr ?_⟩
  · rw [texts]
    decide
  · rw [texts]
    decide

/-- Two findings with the same first location, category and description are one item. -/
theorem second_finding_lost :
    [chunkOf [finding [] ["exec(q)"], finding [sink] ["exec(q)"]]].mapM
        (scanDiscoveryChunk someServices.sha1) =
      .ok [[resultOf [], resultOf [sink]]] ∧
    ∃ result, runRepositoryTriageAgent someServices
        (discoveryCandidates [[resultOf [], resultOf [sink]]])
        1 .single 30 (keepEdits ["fce9d79ebc8e809b"]) = .ok result ∧
      ¬ Represented (discoveryCandidates [[resultOf [], resultOf [sink]]]) result := by
  refine ⟨by decide, ?_⟩
  obtain ⟨result, done⟩ := @keepEdits_done
    (discoveryCandidates [[resultOf [], resultOf [sink]]]) ["fce9d79ebc8e809b"] (by decide)
  refine ⟨result, done, fun represented => ?_⟩
  have visible : ∀ candidate ∈
      discoveryCandidates [[resultOf [], resultOf [sink]]],
      normalizedId candidate.candidateId = some candidate.candidateId := by decide
  have distinct := (represented_iff_ids visible done).mp represented
  exact absurd distinct (by decide)

end TriageStage
