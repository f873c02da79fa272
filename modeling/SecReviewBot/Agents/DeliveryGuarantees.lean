import Mathlib.Data.List.Flatten
import SecReviewBot.Agents.RepositoryWorkflows

/-!
# What is delivered

From case reviews to the delivery result: the kept cases are planned in the delivery
workbench, the plan is executed and its outcomes are joined to its entries by delivery id.
A single delivery goes by the id of its case, a combined one by a hash of its case ids, and
nothing keeps a case from having the id of a combined delivery.
-/

namespace DeliveryGuarantees

open TextCodecs TransitionSystems Workbench DiscoveryStage DeliveryWorkbench RepositoryCases
  DeliveryExecution RepositoryWorkflows BoundedFanOut

/-- A case whose stages ran to the end, or one that failed on the way. -/
inductive CaseReview where
  | reviewed (request : RepositoryCaseReviewRequest) (mitigation : Option MitigationStageResult)
    (verification : Option VerificationStageResult)
  | failed (request : RepositoryCaseReviewRequest) (reason : String)

def CaseReview.result : CaseReview → RepositoryCaseResult
  | .reviewed request mitigation verification =>
    buildRepositoryCaseResult request mitigation verification
  | .failed request reason => buildBlockedRepositoryCaseResult request reason

def CaseReview.caseId (review : CaseReview) : String := review.result.caseId

def CaseReview.Approved : CaseReview → Prop
  | .reviewed _ mitigation verification => RepositoryCases.Approved mitigation verification
  | .failed _ _ => False

theorem approved_of_keep {review : CaseReview} (keep : review.result.disposition = .keep) :
    review.Approved := by
  cases review with
  | reviewed request mitigation verification =>
    exact (deriveCaseDisposition_keep_iff mitigation verification).mp keep
  | failed request reason => cases keep

section Dictionary

variable {α : Type} {key : α → String} {items : List α} {id : String} {x : α}

theorem lastWith_eq_some_iff : lastWith key items id = some x ↔
    key x = id ∧ ∃ before after, items = before ++ x :: after ∧ ∀ y ∈ after, key y ≠ id := by
  rw [lastWith, List.find?_eq_some_iff_append, decide_eq_true_eq]
  refine and_congr_right fun _ => ?_
  constructor
  · rintro ⟨after, before, split, none⟩
    refine ⟨before.reverse, after.reverse, ?_, fun y mem => ?_⟩
    · rw [← List.reverse_reverse items, split]
      simp
    · simpa using none y (List.mem_reverse.mp mem)
  · rintro ⟨before, after, rfl, none⟩
    refine ⟨after.reverse, before.reverse, by simp, fun y mem => ?_⟩
    simpa using none y (List.mem_reverse.mp mem)

theorem lastWith_isSome (mem : x ∈ items) (own : key x = id) :
    ∃ y, lastWith key items id = some y := by
  apply Option.isSome_iff_exists.mp
  rw [lastWith, List.find?_isSome]
  exact ⟨x, List.mem_reverse.mpr mem, by simp [own]⟩

theorem mem_of_lastWith (found : lastWith key items id = some x) : x ∈ items ∧ key x = id := by
  obtain ⟨own, before, after, rfl, _⟩ := lastWith_eq_some_iff.mp found
  exact ⟨by simp, own⟩

/-- With distinct keys an entry is found under its own. -/
theorem lastWith_of_mem (distinct : (items.map key).Nodup) (mem : x ∈ items) :
    lastWith key items (key x) = some x := by
  obtain ⟨y, found⟩ := lastWith_isSome mem rfl
  obtain ⟨memY, same⟩ := mem_of_lastWith found
  rw [found, List.inj_on_of_nodup_map distinct memY mem same]

end Dictionary

/-- What a finished workbench over distinct, stripped ids exports. -/
structure Planned (caseIds : List String) (deliveries : List DeliveryEntry) : Prop where
  cover : (deliveries.flatMap DeliveryEntry.caseIds).Perm caseIds
  distinct : caseIds.Nodup
  nonempty : ∀ entry ∈ deliveries, entry.caseIds ≠ []
  named : ∀ entry ∈ deliveries, entry.deliveryId ≠ ""
  single : ∀ entry ∈ deliveries, entry.strategy = .single → entry.caseIds = [entry.deliveryId]
  combined : ∀ entry ∈ deliveries, entry.strategy = .combined → 2 ≤ entry.caseIds.length

theorem dedupeIds_of_stripped {ids : List String} (distinct : ids.Nodup)
    (stripped : ∀ id ∈ ids, normalizedId id = some id) : dedupeIds ids = ids := by
  have same : ids.filterMap normalizedId = ids := by
    rw [List.filterMap_congr stripped]
    simp
  rw [dedupeIds, same]
  exact FirstOccurrences.eraseDups_of_nodup distinct

theorem deliveryEntry_single {sha1 : Sha1} {group : ItemGroup DeliveryData}
    (stripped : ∀ id ∈ group.itemIds, normalizedId id = some id) (nonempty : group.itemIds ≠ [])
    (single : (deliveryEntry sha1 group).strategy = .single) :
    group.itemIds = [(deliveryEntry sha1 group).deliveryId] := by
  have short : ¬ 2 ≤ group.itemIds.length := by
    intro long
    simp [deliveryEntry, strategyForItemIds, long] at single
  obtain ⟨id, only⟩ := List.length_eq_one_iff.mp
    (show group.itemIds.length = 1 by have := List.length_pos_iff.mpr nonempty; omega)
  have own : dedupeIds [id] = [id] :=
    dedupeIds_of_stripped (List.nodup_singleton id) (only ▸ stripped)
  rw [only]
  simp [deliveryEntry, strategyForItemIds, systemDeliveryId, only, own]

theorem systemDeliveryId_combined_ne {sha1 : Sha1} {group : ItemGroup DeliveryData}
    (combined : (deliveryEntry sha1 group).strategy = .combined) :
    (deliveryEntry sha1 group).deliveryId ≠ "" := by
  have strategy : strategyForItemIds group.itemIds = .combined := combined
  have prefixed : (deliveryEntry sha1 group).deliveryId = "combined-" ++
      sha1.short 10 ("|".intercalate (dedupeIds group.itemIds).mergeSort) := by
    show systemDeliveryId sha1 (strategyForItemIds group.itemIds) group.itemIds = _
    rw [strategy]
    rfl
  intro empty
  have letters := congrArg String.toList (prefixed.symm.trans empty)
  rw [String.toList_append] at letters
  exact absurd (List.append_eq_nil_iff.mp letters).1 (by decide)

theorem planned_of_finish {sha1 : Sha1} {lower : String → String} {caseIds : List String}
    {s : State DeliveryData} {deliveries : List DeliveryEntry} (distinct : caseIds.Nodup)
    (stripped : ∀ id ∈ caseIds, normalizedId id = some id)
    (reachable : (deliveryWorkbench lower caseIds).Reachable s)
    (finished : finish sha1 lower s = .ok deliveries) : Planned caseIds deliveries := by
  have items : s.orderedItemIds = caseIds :=
    (orderedItemIds_reachable _ reachable).trans (dedupeIds_of_stripped distinct stripped)
  rw [finish] at finished
  split at finished
  · next ok =>
    cases finished
    have known : ∀ entry ∈ exportDeliveries sha1 s, ∃ group, entry = deliveryEntry sha1 group ∧
        group.itemIds ≠ [] ∧ ∀ id ∈ group.itemIds, normalizedId id = some id := by
      intro entry mem
      obtain ⟨group, held, rfl⟩ := List.mem_map.mp mem
      obtain ⟨inside, nonempty⟩ := mem_orderedGroups held
      refine ⟨group, rfl, nonempty, fun id mem => stripped id ?_⟩
      rw [← items]
      exact (inOrder_reachable reachable inside).subset mem
    constructor
    case cover =>
      rw [← items]
      exact export_perm reachable ok
    case distinct => exact distinct
    case nonempty =>
      intro entry mem
      obtain ⟨group, rfl, nonempty, _⟩ := known entry mem
      exact nonempty
    case named =>
      intro entry mem
      obtain ⟨group, rfl, nonempty, ids⟩ := known entry mem
      cases strategy : (deliveryEntry sha1 group).strategy with
      | single =>
        have only := deliveryEntry_single ids nonempty strategy
        intro empty
        have own := ids _ (only ▸ List.mem_singleton.mpr rfl)
        rw [empty] at own
        revert own
        decide
      | combined =>
        exact systemDeliveryId_combined_ne strategy
    case single =>
      intro entry mem single
      obtain ⟨group, rfl, nonempty, ids⟩ := known entry mem
      exact deliveryEntry_single ids nonempty single
    case combined =>
      intro entry mem combined
      obtain ⟨group, rfl, _, _⟩ := known entry mem
      by_contra short
      have single : (deliveryEntry sha1 group).strategy = .single := if_neg short
      rw [single] at combined
      cases combined
  · cases finished

section Outcomes

variable {keep : List DeliveryCaseInput} {entry : DeliveryEntry} {index : Nat}
  {synthesized : Nat → Except String PatchArtifact}

theorem mem_caseItems (distinct : (keep.map DeliveryCaseInput.caseId).Nodup)
    {item : DeliveryCaseInput} (mem : item ∈ keep) (inside : item.caseId ∈ entry.caseIds) :
    patchCase item ∈ (executionItem keep (entry, index)).caseItems :=
  List.mem_map_of_mem (List.mem_filterMap.mpr ⟨item.caseId, inside, lastWith_of_mem distinct mem⟩)

/-- Nothing is missing when the cases of the entry were kept. -/
theorem missingCaseIds_of_kept (distinct : (keep.map DeliveryCaseInput.caseId).Nodup)
    (kept : ∀ id ∈ entry.caseIds, id ∈ keep.map DeliveryCaseInput.caseId) :
    missingCaseIds entry (executionItem keep (entry, index)).caseItems = [] := by
  apply List.filter_eq_nil_iff.mpr
  intro id mem
  obtain ⟨item, inside, rfl⟩ := List.mem_map.mp (kept id mem)
  have held : patchCase item ∈ (executionItem keep (entry, index)).caseItems :=
    mem_caseItems distinct inside mem
  obtain ⟨found, eq⟩ := @lastWith_isSome _ DeliveryPatchCase.caseId _ item.caseId _ held rfl
  simp [eq]

theorem executeItem_single (distinct : (keep.map DeliveryCaseInput.caseId).Nodup)
    {item : DeliveryCaseInput} (mem : item ∈ keep) (single : entry.strategy = .single)
    (only : entry.caseIds = [entry.deliveryId]) (own : item.caseId = entry.deliveryId)
    (named : entry.deliveryId ≠ "") :
    executeItem synthesized (executionItem keep (entry, index)) =
      some (patched entry.deliveryId item.mitigatorFileChanges
        (item.mitigatorPatchDiff.getD "") "Single delivery has no file changes.") := by
  have kept : ∀ id ∈ entry.caseIds, id ∈ keep.map DeliveryCaseInput.caseId := by
    intro id inside
    rw [only, List.mem_singleton] at inside
    exact List.mem_map.mpr ⟨item, mem, own.trans inside.symm⟩
  have items : (executionItem keep (entry, index)).caseItems = [patchCase item] := by
    have found : lastWith DeliveryCaseInput.caseId keep entry.deliveryId = some item := by
      rw [← own]
      exact lastWith_of_mem distinct mem
    simp [executionItem, only, found]
  have last : lastWith DeliveryPatchCase.caseId [patchCase item] entry.deliveryId =
      some (patchCase item) := by
    simp [lastWith, patchCase, own]
  show executeDeliveryEntry (synthesized index) entry _ = _
  rw [executeDeliveryEntry, missingCaseIds_of_kept distinct kept, if_neg (not_not.mpr rfl), single]
  simp only [buildSingleDeliveryOutcome, only, if_neg named, items, last]
  rfl

theorem executeItem_combined (distinct : (keep.map DeliveryCaseInput.caseId).Nodup)
    (kept : ∀ id ∈ entry.caseIds, id ∈ keep.map DeliveryCaseInput.caseId)
    (combined : entry.strategy = .combined) (named : entry.deliveryId ≠ "")
    (nonempty : entry.caseIds ≠ []) {artifact : PatchArtifact}
    (made : synthesized index = .ok artifact) :
    executeItem synthesized (executionItem keep (entry, index)) =
      some (patched entry.deliveryId artifact.fileChanges artifact.patchDiff
        "Patch synthesis produced no delivery file changes.") := by
  show executeDeliveryEntry (synthesized index) entry _ = _
  rw [executeDeliveryEntry, missingCaseIds_of_kept distinct kept, if_neg (not_not.mpr rfl), combined]
  simp only [buildCombinedDeliveryOutcome, if_neg (not_or.mpr ⟨named, nonempty⟩), made]

/-- Every outcome goes by the id of its entry. -/
theorem executeItem_deliveryId {outcome : DeliveryExecutionResult}
    (executed : executeItem synthesized (executionItem keep (entry, index)) = some outcome) :
    outcome.deliveryId = entry.deliveryId := by
  replace executed : executeDeliveryEntry (synthesized index) entry
    (executionItem keep (entry, index)).caseItems = some outcome := executed
  rw [executeDeliveryEntry] at executed
  split at executed
  · cases executed
    rfl
  · cases strategy : entry.strategy with
    | single =>
      simp only [strategy, buildSingleDeliveryOutcome] at executed
      split at executed
      · cases executed
      · split at executed
        · cases executed
        · obtain ⟨_, _, rfl⟩ := Option.map_eq_some_iff.mp executed
          rfl
    | combined =>
      simp only [strategy, buildCombinedDeliveryOutcome] at executed
      split at executed
      · cases executed
      · split at executed
        · cases executed
          rfl
        · cases executed
          rfl

end Outcomes

section Run

variable (configured : Option Int) (deliveries : List DeliveryEntry)
  (caseResults : List RepositoryCaseResult) (synthesized : Nat → Except String PatchArtifact)

/-- What `RepositoryDeliveryWorkflow` may return, over all orders in which the combined
deliveries complete. -/
def Delivers (result : DeliveryResult) : Prop :=
  let input := buildDeliveryExecutionInput configured deliveries (deliveryCaseInputs caseResults)
  if deliveries = [] then result = buildSkippedDeliveryResult
  else ∃ m, Reached (deliveryJob input) (deliveryOutcome input synthesized)
      (deliveryInitial input synthesized) m ∧ Ended (deliveryJob input) m ∧
    result = buildDeliveryResultFromOutcomes deliveries input.keepCaseIds
      (present m.window.results)

variable {configured deliveries caseResults synthesized}

/-- The result does not depend on the order of completion. -/
theorem deliveries_of_delivers {result : DeliveryResult}
    (delivers : Delivers configured deliveries caseResults synthesized result) :
    result.deliveries = buildDeliveryArtifacts deliveries
      ((deliveryCaseInputs caseResults).map DeliveryCaseInput.caseId)
      (present ((List.range deliveries.length).map
        (outcomeAt deliveries (deliveryCaseInputs caseResults) synthesized))) := by
  rw [Delivers] at delivers
  split at delivers
  · next none =>
    rw [delivers, none]
    rfl
  · obtain ⟨m, reached, ended, rfl⟩ := delivers
    rw [((delivery_worksOff configured synthesized).finished m reached ended).2]
    rfl

theorem exists_delivers :
    ∃ result, Delivers configured deliveries caseResults synthesized result := by
  by_cases none : deliveries = []
  · exact ⟨buildSkippedDeliveryResult, by rw [Delivers, if_pos none]⟩
  · obtain ⟨m, reached, ended⟩ :=
      (@delivery_worksOff configured deliveries (deliveryCaseInputs caseResults)
        synthesized).exists_ended
    simp only [Delivers, if_neg none]
    exact ⟨_, m, reached, ended, rfl⟩

end Run

/-- The outcomes of a plan, each in the place of its entry. -/
theorem getElem?_outcomes {deliveries : List DeliveryEntry} {keep : List DeliveryCaseInput}
    {synthesized : Nat → Except String PatchArtifact}
    (named : ∀ entry ∈ deliveries, entry.deliveryId ≠ "" ∧ entry.caseIds ≠ []) (i : Nat) :
    (present ((List.range deliveries.length).map (outcomeAt deliveries keep synthesized)))[i]? =
      deliveries[i]?.bind fun entry =>
        executeItem synthesized (executionItem keep (entry, i)) := by
  have all : (present ((List.range deliveries.length).map
      (outcomeAt deliveries keep synthesized))).map some =
      (List.range deliveries.length).map (outcomeAt deliveries keep synthesized) := by
    apply map_some_present
    intro result mem
    obtain ⟨index, inside, rfl⟩ := List.mem_map.mp mem
    exact outcomeAt_isSome synthesized named (List.mem_range.mp inside)
  have place := congrArg (fun results => results[i]?) all
  simp only [List.getElem?_map] at place
  by_cases inside : i < deliveries.length
  · rw [List.getElem?_range inside, Option.map_some] at place
    obtain ⟨outcome, found, eq⟩ := Option.map_eq_some_iff.mp place
    rw [found, eq, outcomeAt, executionItems, List.getElem?_map, List.getElem?_zipIdx,
      List.getElem?_eq_getElem inside]
    simp
  · have out : (List.range deliveries.length)[i]? = none :=
      List.getElem?_eq_none (by rw [List.length_range]; omega)
    rw [out, Option.map_none, Option.map_eq_none_iff] at place
    rw [place, List.getElem?_eq_none (by omega), Option.bind_none]

/-- What the join finds under an id: the outcome of the last entry that goes by it. -/
theorem last_outcome {deliveries : List DeliveryEntry} {keep : List DeliveryCaseInput}
    {synthesized : Nat → Except String PatchArtifact}
    (named : ∀ entry ∈ deliveries, entry.deliveryId ≠ "" ∧ entry.caseIds ≠ []) {id : String}
    {outcome : DeliveryExecutionResult}
    (found : lastWith DeliveryExecutionResult.deliveryId
      (present ((List.range deliveries.length).map (outcomeAt deliveries keep synthesized)))
      id = some outcome) :
    ∃ i entry, deliveries[i]? = some entry ∧ entry.deliveryId = id ∧
      executeItem synthesized (executionItem keep (entry, i)) = some outcome ∧
      ∀ k other, deliveries[k]? = some other → other.deliveryId = id → k ≤ i := by
  have places := @getElem?_outcomes deliveries keep synthesized named
  obtain ⟨own, before, after, split, none⟩ := lastWith_eq_some_iff.mp found
  have here := places before.length
  rw [split, List.getElem?_append_right (Nat.le_refl _), Nat.sub_self, List.getElem?_cons_zero]
    at here
  obtain ⟨entry, place, executed⟩ := Option.bind_eq_some_iff.mp here.symm
  refine ⟨before.length, entry, place, ?_, executed, fun k other otherPlace same => ?_⟩
  · rw [← executeItem_deliveryId executed, own]
  · by_contra later
    have there := places k
    rw [otherPlace, split] at there
    obtain ⟨isId, isCases⟩ := named other (List.mem_of_getElem? otherPlace)
    obtain ⟨result, made⟩ := Option.isSome_iff_exists.mp
      (executeDeliveryEntry_isSome isId isCases (synthesized k)
        (executionItem keep (other, k)).caseItems)
    have executedOther : executeItem synthesized (executionItem keep (other, k)) = some result :=
      made
    rw [Option.bind_some, executedOther, List.getElem?_append_right (by omega)] at there
    have inside : result ∈ after := by
      have pos : k - before.length = (k - before.length - 1) + 1 := by omega
      rw [pos, List.getElem?_cons_succ] at there
      exact List.mem_of_getElem? there
    exact none result inside ((executeItem_deliveryId executedOther).trans same)

/-- The entry's own outcome is not the one found under its id. -/
def Overridden (a b : DeliveryEntry) : Prop :=
  a.strategy = .single ∧ b.strategy = .combined ∧ a.deliveryId = b.deliveryId

/-- Deliveries of approved cases only, each case once, in the order of the plan, with all
cases of their entry, and single ones with the patch of their case. -/
structure Faithful (reviews : List CaseReview) (plan : List DeliveryEntry)
    (delivered : List DeliveryArtifact) : Prop where
  approved : ∀ artifact ∈ delivered, ∀ id ∈ artifact.caseIds,
    ∃ review ∈ reviews, review.caseId = id ∧ review.Approved
  once : (delivered.flatMap DeliveryArtifact.caseIds).Nodup
  planned : ∃ pairs : List (DeliveryEntry × DeliveryArtifact),
    (pairs.map Prod.fst).Sublist plan ∧ pairs.map Prod.snd = delivered ∧
    ∀ pair ∈ pairs, pair.2.deliveryId = pair.1.deliveryId ∧ pair.2.caseIds = pair.1.caseIds ∧
      (pair.1.strategy = .single → ∀ review ∈ reviews, pair.1.caseIds = [review.caseId] →
        pair.2.fileChanges = review.result.reviewRecord.mitigation.fileChanges ∧
        pair.2.patchDiff = review.result.reviewRecord.mitigation.patchDiff.getD "")

theorem map_fst_pairs {α β : Type} (g : α → Option β) (items : List α) :
    ((items.filterMap fun a => (g a).map (a, ·)).map Prod.fst).Sublist items := by
  induction items with
  | nil => exact .slnil
  | cons a rest ih =>
    cases made : g a with
    | none => simpa [List.filterMap_cons, made] using ih.cons a
    | some b => simpa [List.filterMap_cons, made] using ih

theorem map_snd_pairs {α β : Type} (g : α → Option β) (items : List α) :
    (items.filterMap fun a => (g a).map (a, ·)).map Prod.snd = items.filterMap g := by
  rw [List.map_filterMap]
  apply List.filterMap_congr
  intro a _
  cases g a with
  | none => rfl
  | some b => rfl

section Join

variable {reviews : List CaseReview} {deliveries : List DeliveryEntry}
  {synthesized : Nat → Except String PatchArtifact}

theorem keptIds_sublist (reviews : List CaseReview) :
    ((deliveryCaseInputs (reviews.map CaseReview.result)).map DeliveryCaseInput.caseId).Sublist
      (reviews.map CaseReview.caseId) := by
  have ids : (deliveryCaseInputs (reviews.map CaseReview.result)).map DeliveryCaseInput.caseId =
      (keepRepositoryCaseResults (reviews.map CaseReview.result)).map
        RepositoryCaseResult.caseId := by
    rw [deliveryCaseInputs, List.map_map]
    rfl
  have all : reviews.map CaseReview.caseId =
      (reviews.map CaseReview.result).map RepositoryCaseResult.caseId := by
    rw [List.map_map]
    rfl
  rw [ids, all]
  exact List.Sublist.map _ List.filter_sublist

/-- A kept id belongs to a review whose patch was approved. -/
theorem exists_kept {id : String} (mem : id ∈ (deliveryCaseInputs
    (reviews.map CaseReview.result)).map DeliveryCaseInput.caseId) :
    ∃ review ∈ reviews, review.caseId = id ∧ review.Approved ∧
      projectRepositoryCaseResultForDelivery review.result ∈
        deliveryCaseInputs (reviews.map CaseReview.result) := by
  obtain ⟨item, inside, rfl⟩ := List.mem_map.mp mem
  obtain ⟨result, kept, rfl⟩ := List.mem_map.mp inside
  obtain ⟨among, keep⟩ := List.mem_filter.mp kept
  obtain ⟨review, reviewed, rfl⟩ := List.mem_map.mp among
  exact ⟨review, reviewed, rfl, approved_of_keep (of_decide_eq_true keep), inside⟩

theorem Planned.kept {caseIds : List String} (planned : Planned caseIds deliveries)
    {entry : DeliveryEntry} (mem : entry ∈ deliveries) : ∀ id ∈ entry.caseIds, id ∈ caseIds :=
  fun _ inside => planned.cover.subset (List.mem_flatMap.mpr ⟨entry, mem, inside⟩)

/-- Of a planned entry the whole is delivered. -/
theorem buildDeliveryArtifact_eq {caseIds : List String} (planned : Planned caseIds deliveries)
    {entry : DeliveryEntry} (mem : entry ∈ deliveries) (outcome : DeliveryExecutionResult) :
    buildDeliveryArtifact entry caseIds outcome =
      if outcome.status = .ready ∧ outcome.fileChanges ≠ [] then
        some {
          deliveryId := entry.deliveryId
          caseIds := entry.caseIds
          patchDiff := outcome.patchDiff
          fileChanges := outcome.fileChanges }
      else none := by
  have all : (entry.caseIds.filter fun caseId => caseId ∈ caseIds) = entry.caseIds := by
    apply List.filter_eq_self.mpr
    intro id inside
    exact decide_eq_true (planned.kept mem id inside)
  simp only [buildDeliveryArtifact, all,
    if_neg (not_or.mpr ⟨planned.named entry mem, planned.nonempty entry mem⟩)]

/-- No two entries share a case. -/
theorem Planned.index_unique {caseIds : List String} (planned : Planned caseIds deliveries)
    {i j : Nat} {a b : DeliveryEntry} (placeA : deliveries[i]? = some a)
    (placeB : deliveries[j]? = some b) {id : String} (memA : id ∈ a.caseIds)
    (memB : id ∈ b.caseIds) : i = j := by
  have distinct : (deliveries.flatMap DeliveryEntry.caseIds).Nodup :=
    planned.cover.nodup_iff.mpr planned.distinct
  have apart := (List.nodup_flatMap.mp distinct).2
  obtain ⟨insideI, eqA⟩ := List.getElem?_eq_some_iff.mp placeA
  obtain ⟨insideJ, eqB⟩ := List.getElem?_eq_some_iff.mp placeB
  by_contra different
  rcases Nat.lt_or_gt_of_ne different with before | after
  · have disjoint := List.pairwise_iff_getElem.mp apart i j insideI insideJ before
    rw [eqA, eqB] at disjoint
    exact disjoint memA memB
  · have disjoint := List.pairwise_iff_getElem.mp apart j i insideJ insideI after
    rw [eqA, eqB] at disjoint
    exact disjoint memB memA

variable {keep : List DeliveryCaseInput}

/-- Where no combined delivery comes after a single one under the same id, the outcome found
for a single delivery has the patch of its case. -/
theorem single_outcome (planned : Planned (keep.map DeliveryCaseInput.caseId) deliveries)
    (clear : deliveries.Pairwise fun a b => ¬ Overridden a b) {entry : DeliveryEntry}
    (mem : entry ∈ deliveries) (single : entry.strategy = .single) {item : DeliveryCaseInput}
    (held : item ∈ keep) (own : item.caseId = entry.deliveryId)
    {outcome : DeliveryExecutionResult}
    (found : lastWith DeliveryExecutionResult.deliveryId
      (present ((List.range deliveries.length).map (outcomeAt deliveries keep synthesized)))
      entry.deliveryId = some outcome) :
    outcome.fileChanges = item.mitigatorFileChanges ∧
      outcome.patchDiff = item.mitigatorPatchDiff.getD "" := by
  have named : ∀ entry ∈ deliveries, entry.deliveryId ≠ "" ∧ entry.caseIds ≠ [] :=
    fun entry mem => ⟨planned.named entry mem, planned.nonempty entry mem⟩
  obtain ⟨i, last, place, same, executed, latest⟩ := last_outcome named found
  have lastMem := List.mem_of_getElem? place
  cases strategy : last.strategy with
  | single =>
    rw [executeItem_single planned.distinct held strategy
      (planned.single last lastMem strategy) (own.trans same.symm)
      (planned.named last lastMem)] at executed
    cases executed
    exact ⟨rfl, rfl⟩
  | combined =>
    obtain ⟨k, inside, eq⟩ := List.getElem_of_mem mem
    obtain ⟨insideI, eqI⟩ := List.getElem?_eq_some_iff.mp place
    have before := latest k entry (List.getElem?_eq_some_iff.mpr ⟨inside, eq⟩) rfl
    have different : k ≠ i := by
      rintro rfl
      rw [eqI.symm.trans eq, single] at strategy
      cases strategy
    have against := List.pairwise_iff_getElem.mp clear k i inside insideI (by omega)
    rw [eq, eqI] at against
    exact absurd ⟨single, strategy, same.symm⟩ against

theorem faithful_of_clear (distinct : (reviews.map CaseReview.caseId).Nodup)
    (planned : Planned ((deliveryCaseInputs (reviews.map CaseReview.result)).map
      DeliveryCaseInput.caseId) deliveries)
    (clear : deliveries.Pairwise fun a b => ¬ Overridden a b) :
    Faithful reviews deliveries (buildDeliveryArtifacts deliveries
      ((deliveryCaseInputs (reviews.map CaseReview.result)).map DeliveryCaseInput.caseId)
      (present ((List.range deliveries.length).map (outcomeAt deliveries
        (deliveryCaseInputs (reviews.map CaseReview.result)) synthesized)))) := by
  let keep := deliveryCaseInputs (reviews.map CaseReview.result)
  let ids := keep.map DeliveryCaseInput.caseId
  let outcomes := present ((List.range deliveries.length).map
    (outcomeAt deliveries keep synthesized))
  let made := fun entry : DeliveryEntry =>
    (lastWith DeliveryExecutionResult.deliveryId outcomes entry.deliveryId).bind
      (buildDeliveryArtifact entry ids)
  let pairs := deliveries.filterMap fun entry => (made entry).map (entry, ·)
  have firsts : (pairs.map Prod.fst).Sublist deliveries := map_fst_pairs made deliveries
  have seconds : pairs.map Prod.snd = deliveries.filterMap made := map_snd_pairs made deliveries
  have each : ∀ pair ∈ pairs, pair.1 ∈ deliveries ∧ ∃ outcome,
      lastWith DeliveryExecutionResult.deliveryId outcomes pair.1.deliveryId = some outcome ∧
      pair.2 = ⟨pair.1.deliveryId, pair.1.caseIds, outcome.patchDiff, outcome.fileChanges⟩ := by
    intro pair mem
    obtain ⟨entry, inside, eq⟩ := List.mem_filterMap.mp mem
    obtain ⟨artifact, isMade, rfl⟩ := Option.map_eq_some_iff.mp eq
    obtain ⟨outcome, found, built⟩ := Option.bind_eq_some_iff.mp isMade
    rw [buildDeliveryArtifact_eq planned inside] at built
    split at built
    · exact ⟨inside, outcome, found, (Option.some.inj built).symm⟩
    · cases built
  show Faithful reviews deliveries (deliveries.filterMap made)
  rw [← seconds]
  constructor
  case approved =>
    intro artifact mem id inside
    obtain ⟨pair, isPair, rfl⟩ := List.mem_map.mp mem
    obtain ⟨entryMem, outcome, _, eq⟩ := each pair isPair
    rw [eq] at inside
    obtain ⟨review, reviewed, own, approved, _⟩ := exists_kept (planned.kept entryMem id inside)
    exact ⟨review, reviewed, own, approved⟩
  case once =>
    have same : (pairs.map Prod.snd).flatMap DeliveryArtifact.caseIds =
        (pairs.map Prod.fst).flatMap DeliveryEntry.caseIds := by
      rw [List.flatMap_map, List.flatMap_map]
      apply List.flatMap_congr
      intro pair mem
      obtain ⟨_, outcome, _, eq⟩ := each pair mem
      rw [eq]
    rw [same]
    exact (planned.cover.nodup_iff.mpr planned.distinct).sublist
      (firsts.flatMap DeliveryEntry.caseIds)
  case planned =>
    refine ⟨pairs, firsts, rfl, fun pair mem => ?_⟩
    obtain ⟨entryMem, outcome, found, eq⟩ := each pair mem
    refine ⟨by rw [eq], by rw [eq], fun single review reviewed only => ?_⟩
    have ownId : review.caseId = pair.1.deliveryId := by
      have alone := planned.single pair.1 entryMem single
      rw [only] at alone
      exact List.singleton_inj.mp alone
    have isKept : review.caseId ∈ ids :=
      planned.kept entryMem _ (only ▸ List.mem_singleton.mpr rfl)
    obtain ⟨other, otherReviewed, sameId, _, held⟩ := exists_kept isKept
    have sameReview := List.inj_on_of_nodup_map distinct otherReviewed reviewed sameId
    rw [sameReview] at held
    have patch := single_outcome planned clear entryMem single held ownId found
    rw [eq]
    exact patch

/-- When patch synthesis succeeds, a single delivery whose id a later combined one has goes
out with the synthesized patch. -/
theorem overridden_delivered (planned : Planned (keep.map DeliveryCaseInput.caseId) deliveries)
    {artifact : PatchArtifact} (changes : artifact.fileChanges ≠ [])
    (made : ∀ index, synthesized index = .ok artifact) {i j : Nat} {a b : DeliveryEntry}
    (placeA : deliveries[i]? = some a) (placeB : deliveries[j]? = some b) (later : i < j)
    (overridden : Overridden a b) :
    ⟨a.deliveryId, a.caseIds, artifact.patchDiff, artifact.fileChanges⟩ ∈
      buildDeliveryArtifacts deliveries (keep.map DeliveryCaseInput.caseId)
        (present ((List.range deliveries.length).map (outcomeAt deliveries keep synthesized))) := by
  have named : ∀ entry ∈ deliveries, entry.deliveryId ≠ "" ∧ entry.caseIds ≠ [] :=
    fun entry mem => ⟨planned.named entry mem, planned.nonempty entry mem⟩
  obtain ⟨single, _, same⟩ := overridden
  have memA := List.mem_of_getElem? placeA
  have memB := List.mem_of_getElem? placeB
  -- the later entry has an outcome, so there is a last one under the id
  have someOutcome : ∃ outcome, lastWith DeliveryExecutionResult.deliveryId
      (present ((List.range deliveries.length).map (outcomeAt deliveries keep synthesized)))
      a.deliveryId = some outcome := by
    obtain ⟨outcome, executed⟩ := Option.isSome_iff_exists.mp
      (executeDeliveryEntry_isSome (planned.named b memB) (planned.nonempty b memB)
        (synthesized j) (executionItem keep (b, j)).caseItems)
    have place := @getElem?_outcomes deliveries keep synthesized named j
    rw [placeB, Option.bind_some] at place
    have isOutcome : executeItem synthesized (executionItem keep (b, j)) = some outcome := executed
    rw [isOutcome] at place
    exact lastWith_isSome (List.mem_of_getElem? place)
      ((executeItem_deliveryId isOutcome).trans same.symm)
  obtain ⟨outcome, found⟩ := someOutcome
  obtain ⟨k, last, place, sameId, executed, latest⟩ := last_outcome named found
  have lastMem := List.mem_of_getElem? place
  have after := latest j b placeB same.symm
  have combined : last.strategy = .combined := by
    cases strategy : last.strategy with
    | combined => rfl
    | single =>
      -- two single deliveries of one case
      have caseA : a.deliveryId ∈ a.caseIds := by
        rw [planned.single a memA single]
        exact List.mem_singleton.mpr rfl
      have caseLast : a.deliveryId ∈ last.caseIds := by
        rw [planned.single last lastMem strategy, sameId]
        exact List.mem_singleton.mpr rfl
      have position := planned.index_unique placeA place caseA caseLast
      omega
  rw [executeItem_combined planned.distinct (planned.kept lastMem) combined
    (planned.named last lastMem) (planned.nonempty last lastMem) (made k)] at executed
  refine List.mem_filterMap.mpr ⟨a, memA, ?_⟩
  rw [found, Option.bind_some, buildDeliveryArtifact_eq planned memA, ← Option.some.inj executed]
  simp [patched, changes]

/-- Then there is an outcome of the execution that is not faithful. -/
theorem exists_unfaithful {configured : Option Int}
    (planned : Planned ((deliveryCaseInputs (reviews.map CaseReview.result)).map
      DeliveryCaseInput.caseId) deliveries) {i j : Nat} {a b : DeliveryEntry}
    (placeA : deliveries[i]? = some a) (placeB : deliveries[j]? = some b) (later : i < j)
    (overridden : Overridden a b) :
    ∃ synthesized result,
      Delivers configured deliveries (reviews.map CaseReview.result) synthesized result ∧
        ¬ Faithful reviews deliveries result.deliveries := by
  have memA := List.mem_of_getElem? placeA
  have only := planned.single a memA overridden.1
  obtain ⟨review, reviewed, own, _, _⟩ := exists_kept (planned.kept memA
    a.deliveryId (only ▸ List.mem_singleton.mpr rfl))
  -- a synthesized patch that is not the one of the case
  let artifact : PatchArtifact :=
    { fileChanges := .deleted "" :: review.result.reviewRecord.mitigation.fileChanges
      patchDiff := "" }
  obtain ⟨result, delivers⟩ := @exists_delivers configured deliveries
    (reviews.map CaseReview.result) fun _ => .ok artifact
  refine ⟨_, result, delivers, fun faithful => ?_⟩
  obtain ⟨_, _, pairs, firsts, seconds, each⟩ := faithful
  have delivered := @overridden_delivered deliveries (fun _ => .ok artifact) _ planned artifact
    (List.cons_ne_nil _ _) (fun _ => rfl) i j _ _ placeA placeB later overridden
  rw [← deliveries_of_delivers delivers, ← seconds] at delivered
  obtain ⟨pair, isPair, eq⟩ := List.mem_map.mp delivered
  obtain ⟨_, cases, patch⟩ := each pair isPair
  have alone : pair.1.caseIds = [review.caseId] := by
    rw [← cases, eq, own]
    exact only
  have entryMem := firsts.subset (List.mem_map_of_mem isPair)
  have isSingle : pair.1.strategy = .single := by
    cases strategy : pair.1.strategy with
    | single => rfl
    | combined =>
      have long := planned.combined _ entryMem strategy
      rw [alone, List.length_singleton] at long
      omega
  have changes := (patch isSingle review reviewed alone).1
  rw [eq] at changes
  have size := congrArg List.length changes
  simp only [artifact, List.length_cons] at size
  omega

end Join

theorem planned_of_reviews {sha1 : Sha1} {lower : String → String} {reviews : List CaseReview}
    (distinct : (reviews.map CaseReview.caseId).Nodup) {s : State DeliveryData}
    {deliveries : List DeliveryEntry}
    (reachable : (deliveryWorkbench lower ((deliveryCaseInputs
      (reviews.map CaseReview.result)).map DeliveryCaseInput.caseId)).Reachable s)
    (finished : finish sha1 lower s = .ok deliveries) :
    Planned ((deliveryCaseInputs (reviews.map CaseReview.result)).map
      DeliveryCaseInput.caseId) deliveries := by
  refine planned_of_finish (distinct.sublist (keptIds_sublist reviews)) ?_ reachable finished
  intro id mem
  obtain ⟨review, _, rfl, _, _⟩ := exists_kept mem
  exact review.result.stripped

/-- A digest with the value of the hash function on the text below. -/
def digestOfPair : Sha1 where
  hexdigest := fun text =>
    if text = "a|b" then "9abe6de24a871364bf412a1c301698b5ed30dbb7"
    else "0000000000000000000000000000000000000000"
  length := by
    intro text
    split <;> decide
  hex := by
    intro text
    split
    · exact List.all_eq_true.mp (by decide)
    · exact List.all_eq_true.mp (by decide)

/-- A case with an approved patch that removes the file of its name. -/
def approvedCase (caseId : String) (content : strip pythonSpace caseId ≠ "") : CaseReview :=
  .reviewed { caseId, content }
    (some { overview := "", fileChanges := [.deleted caseId], patchDiff := caseId })
    (some { coverage := some .full, regression := some .passed, nextStep := .none })

def deliveryOf (itemIds : List String) : Call DeliveryFields DeliveryFields :=
  .createGroup { fields := { kind := none, reason := none }, itemIds := some itemIds }

theorem content_a : strip pythonSpace "a" ≠ "" := by decide

theorem content_b : strip pythonSpace "b" ≠ "" := by decide

theorem content_c : strip pythonSpace "c" ≠ "" := by decide

theorem content_combined : strip pythonSpace "combined-9abe6de24a" ≠ "" := by decide

/-- Three approved cases, the first under the id of the combined delivery of the others. -/
def threeCases : List CaseReview :=
  [approvedCase "combined-9abe6de24a" content_combined, approvedCase "a" content_a,
    approvedCase "b" content_b]

def threePlanned : State DeliveryData :=
  (deliveryWorkbench (fun text => text) ["combined-9abe6de24a", "a", "b"]).run
    [deliveryOf ["combined-9abe6de24a"], deliveryOf ["a", "b"]]

def threeGroups : List (ItemGroup DeliveryData) :=
  [{ groupId := "group-1", data := { kind := "delivery", reason := none },
     itemIds := ["combined-9abe6de24a"] },
   { groupId := "group-2", data := { kind := "delivery", reason := none },
     itemIds := ["a", "b"] }]

/-- The same with an id of its own for the first case. -/
def apartCases : List CaseReview :=
  [approvedCase "c" content_c, approvedCase "a" content_a, approvedCase "b" content_b]

def apartPlanned : State DeliveryData :=
  (deliveryWorkbench (fun text => text) ["c", "a", "b"]).run
    [deliveryOf ["c"], deliveryOf ["a", "b"]]

def apartGroups : List (ItemGroup DeliveryData) :=
  [{ groupId := "group-1", data := { kind := "delivery", reason := none }, itemIds := ["c"] },
   { groupId := "group-2", data := { kind := "delivery", reason := none },
     itemIds := ["a", "b"] }]

theorem finish_ok {sha1 : Sha1} {lower : String → String} {s : State DeliveryData}
    (ok : constraints (policy lower) s = []) :
    finish sha1 lower s = .ok (exportDeliveries sha1 s) := by
  rw [finish, if_pos ok]

theorem sorted_pair : (dedupeIds ["a", "b"]).mergeSort = ["a", "b"] := by
  have same : dedupeIds ["a", "b"] = ["a", "b"] := by decide
  rw [same]
  exact List.mergeSort_of_pairwise (by decide)

end DeliveryGuarantees
