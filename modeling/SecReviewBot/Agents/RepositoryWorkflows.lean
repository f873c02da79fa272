import SecReviewBot.Agents.DeliveryExecution
import SecReviewBot.BoundedFanOut

/-!
# The repository workflows

The three loops of `workflows/repository/workflow.py` that work off chunks, cases and
combined deliveries a few at a time, and their counterparts in `workflows/repository/direct.py`.
What an activity or a child workflow returns for an item is a parameter, by the number of
the item; `asyncio.gather` returns its results in the order of its arguments.
-/

namespace RepositoryWorkflows

open TextCodecs DeliveryWorkbench RepositoryCases DeliveryExecution BoundedFanOut

/-- `[result for result in results if result is not None]`. -/
def present {β : Type} (results : List (Option β)) : List β := results.filterMap id

/-- The loop over gathered pairs of a number and a result. -/
def placeGathered {β : Type} (count : Nat) (results : Nat → β) : List (Option β) :=
  store id (fun index => some (results index)) (List.range count) (List.replicate count none)

section Discovery

variable {Chunk ChunkResult : Type}

structure DiscoveryManifest (Chunk : Type) where
  maxConcurrency : Int
  chunks : List Chunk

def discoveryJob (manifest : DiscoveryManifest Chunk) : Job where
  count := manifest.chunks.length
  slot := id
  limit := (max 1 manifest.maxConcurrency).toNat

def discoveryInitial (manifest : DiscoveryManifest Chunk) : List (Option ChunkResult) :=
  List.replicate manifest.chunks.length none

/-- A chunk whose scan failed after its retries raises in the loop. -/
def discoveryOutcome (scan : Nat → Except String ChunkResult) (index : Nat) :
    Except String (Option ChunkResult) :=
  (scan index).map some

/-- The chunk results of `run_repository_discovery_direct`, when no scan raises. -/
def discoveryDirect (manifest : DiscoveryManifest Chunk) (results : Nat → ChunkResult) :
    List ChunkResult :=
  present (placeGathered manifest.chunks.length results)

end Discovery

structure RepositoryCaseRequestBatch where
  maxConcurrency : Int
  caseRequests : List RepositoryCaseReviewRequest
  positive : 0 < maxConcurrency

def caseJob (batch : RepositoryCaseRequestBatch) : Job where
  count := batch.caseRequests.length
  slot := id
  limit := batch.maxConcurrency.toNat

def caseInitial (batch : RepositoryCaseRequestBatch) : List (Option RepositoryCaseResult) :=
  List.replicate batch.caseRequests.length none

/-- What is kept of a case: its result, or a blocked one in the words of the runner. -/
def settledCase (failure : String) (request : RepositoryCaseReviewRequest) :
    Except String RepositoryCaseResult → RepositoryCaseResult
  | .ok result => result
  | .error error => buildBlockedRepositoryCaseResult request (failure ++ error)

/-- The number is that of a request whenever the loop asks. -/
def caseOutcome (batch : RepositoryCaseRequestBatch)
    (review : Nat → Except String RepositoryCaseResult) (index : Nat) :
    Except String (Option RepositoryCaseResult) :=
  .ok (batch.caseRequests[index]?.map fun request =>
    settledCase "Case processing failed after retries: " request (review index))

/-- `run_repository_case_reviews_direct`. -/
def casesDirect (batch : RepositoryCaseRequestBatch)
    (review : Nat → Except String RepositoryCaseResult) : List RepositoryCaseResult :=
  present (store id (fun index => batch.caseRequests[index]?.map fun request =>
      settledCase "Case processing failed: " request (review index))
    (List.range batch.caseRequests.length) (List.replicate batch.caseRequests.length none))

section Delivery

variable (input : DeliveryExecutionInput) (synthesized : Nat → Except String PatchArtifact)

/-- The number in the plan of a combined delivery. -/
def combinedIndex (task : Nat) : Nat :=
  (input.combinedDeliveryExecutionItems[task]?.map DeliveryExecutionItem.index).getD 0

def deliveryJob : Job where
  count := input.combinedDeliveryExecutionItems.length
  slot := combinedIndex input
  limit := (max 1 input.maxConcurrency).toNat

/-- `execute_repository_single_deliveries_activity`. -/
def singleOutcomes : List (Nat × DeliveryExecutionResult) :=
  input.singleDeliveryExecutionItems.filterMap fun item =>
    (executeItem synthesized item).map fun outcome => (item.index, outcome)

def deliveryInitial : List (Option DeliveryExecutionResult) :=
  (singleOutcomes input synthesized).foldl (fun stored outcome => stored.set outcome.1 outcome.2)
    (List.replicate input.deliveries.length none)

def deliveryOutcome (task : Nat) : Except String (Option DeliveryExecutionResult) :=
  .ok (input.combinedDeliveryExecutionItems[task]?.bind (executeItem synthesized))

/-- The patch outcomes of `run_repository_delivery_direct`: one item after the other. -/
def deliveriesDirect : List DeliveryExecutionResult :=
  let placed := fun (stored : List (Option DeliveryExecutionResult))
      (item : DeliveryExecutionItem) => stored.set item.index (executeItem synthesized item)
  present (input.combinedDeliveryExecutionItems.foldl placed
    (input.singleDeliveryExecutionItems.foldl placed
      (List.replicate input.deliveries.length none)))

end Delivery

theorem present_map_some {α β : Type} (f : α → β) (items : List α) :
    present (items.map fun item => some (f item)) = items.map f := by
  rw [present, List.filterMap_map]
  exact congrFun List.filterMap_eq_map items

theorem present_range {α β : Type} (items : List α) (f : Nat → α → β) :
    present ((List.range items.length).map fun index => items[index]?.map (f index)) =
      items.mapIdx f := by
  have same : (List.range items.length).map (fun index => items[index]?.map (f index)) =
      (items.mapIdx f).map some := by
    apply List.ext_getElem?
    intro i
    rw [List.getElem?_map, List.getElem?_map, List.getElem?_mapIdx]
    by_cases inside : i < items.length
    · rw [List.getElem?_range inside, Option.map_some, List.getElem?_eq_getElem inside]
      rfl
    · rw [List.getElem?_eq_none (by rw [List.length_range]; omega),
        List.getElem?_eq_none (by omega)]
      rfl
  rw [same]
  exact (present_map_some id _).trans (List.map_id _)

/-- Every number written once, in any order, is the list in order. -/
theorem store_range {β : Type} (value : Nat → Option β) (count : Nat) :
    store id value (List.range count) (List.replicate count none) =
      (List.range count).map value := by
  have stored := store_eq_map id value value (List.range count) (List.replicate count none)
    fun _ _ => rfl
  rw [List.length_replicate] at stored
  apply stored
  intro i inside out
  rw [List.map_id] at out
  exact absurd (List.mem_range.mpr inside) out

theorem limit_eq_max (limit : Int) : (((max 1 limit).toNat : Nat) : Int) = max 1 limit := by
  omega

/-- A loop over `count` items whose results go where the items stand. -/
theorem inPlace_worksOff {β ε : Type} {job : Job} {count : Nat}
    (size : job.count = count) (place : job.slot = id) (positive : 0 < job.limit)
    (outcome : Nat → Except ε (Option β)) (result : Nat → Option β)
    (ok : ∀ task, outcome task = .ok (result task)) :
    WorksOff job outcome (List.replicate count none) ((List.range count).map result) := by
  have h := worksOff job outcome result (List.replicate count none) (fun task _ => ok task)
    (fun task inside => by rw [List.length_replicate, place, ← size]; exact inside)
    (fun a _ b _ same => by rw [place] at same; exact same) positive
  rw [place, size, store_range] at h
  exact h

theorem discovery_worksOff {Chunk ChunkResult : Type} (manifest : DiscoveryManifest Chunk)
    (results : Nat → ChunkResult) :
    WorksOff (discoveryJob manifest) (discoveryOutcome fun index => .ok (results index))
      (discoveryInitial manifest)
      ((List.range manifest.chunks.length).map fun index => some (results index)) :=
  inPlace_worksOff rfl rfl (by simp only [discoveryJob]; omega) _ _ fun _ => rfl

theorem cases_worksOff (batch : RepositoryCaseRequestBatch)
    (review : Nat → Except String RepositoryCaseResult) :
    WorksOff (caseJob batch) (caseOutcome batch review) (caseInitial batch)
      ((List.range batch.caseRequests.length).map fun index =>
        batch.caseRequests[index]?.map fun request =>
          settledCase "Case processing failed after retries: " request (review index)) := by
  have positive := batch.positive
  exact inPlace_worksOff rfl rfl (by simp only [caseJob]; omega) _ _ fun _ => rfl

section Delivery

variable (configured : Option Int) (deliveries : List DeliveryEntry)
  (keepCaseResults : List DeliveryCaseInput) (synthesized : Nat → Except String PatchArtifact)

def executionItems : List DeliveryExecutionItem :=
  deliveries.zipIdx.map (executionItem keepCaseResults)

/-- The outcome of the delivery at a place of the plan. -/
def outcomeAt (index : Nat) : Option DeliveryExecutionResult :=
  (executionItems deliveries keepCaseResults)[index]?.bind (executeItem synthesized)

variable {deliveries keepCaseResults}

theorem executionItems_index :
    (executionItems deliveries keepCaseResults).map DeliveryExecutionItem.index =
      List.range deliveries.length := by
  rw [executionItems, List.map_map]
  exact List.zipIdx_map_snd 0 deliveries |>.trans (List.range_eq_range').symm

theorem outcomeAt_index {item : DeliveryExecutionItem}
    (mem : item ∈ executionItems deliveries keepCaseResults) :
    executeItem synthesized item = outcomeAt deliveries keepCaseResults synthesized item.index := by
  obtain ⟨numbered, inside, rfl⟩ := List.mem_map.mp mem
  have place : deliveries.zipIdx[numbered.2]? = some numbered := by
    have found := List.mem_zipIdx_iff_getElem?.mp inside
    rw [List.getElem?_zipIdx, found]
    simp
  rw [outcomeAt, executionItems, List.getElem?_map]
  show _ = (Option.map _ deliveries.zipIdx[numbered.2]?).bind _
  rw [place]
  rfl

theorem exists_item (keepCaseResults : List DeliveryCaseInput) {index : Nat} (inside : index < deliveries.length) :
    ∃ item ∈ executionItems deliveries keepCaseResults, item.index = index := by
  apply List.mem_map.mp
  rw [executionItems_index]
  exact List.mem_range.mpr inside

theorem item_index_lt {item : DeliveryExecutionItem}
    (mem : item ∈ executionItems deliveries keepCaseResults) : item.index < deliveries.length := by
  have inside := List.mem_map_of_mem (f := DeliveryExecutionItem.index) mem
  rw [executionItems_index] at inside
  exact List.mem_range.mp inside

variable (deliveries keepCaseResults)

/-- The items that need synthesis. -/
def combinedItems : List DeliveryExecutionItem :=
  (executionItems deliveries keepCaseResults).filter fun item =>
    item.delivery.strategy = .combined

variable {deliveries keepCaseResults}

theorem mem_combinedItems {item : DeliveryExecutionItem} :
    item ∈ combinedItems deliveries keepCaseResults ↔
      item ∈ executionItems deliveries keepCaseResults ∧ item.delivery.strategy = .combined := by
  rw [combinedItems, List.mem_filter, decide_eq_true_eq]

theorem mem_singleItems {item : DeliveryExecutionItem} :
    item ∈ (buildDeliveryExecutionInput configured deliveries
        keepCaseResults).singleDeliveryExecutionItems ↔
      item ∈ executionItems deliveries keepCaseResults ∧ item.delivery.strategy ≠ .combined := by
  show item ∈ List.filter _ _ ↔ _
  rw [List.mem_filter, decide_eq_true_eq]
  rfl

/-- The slots the loop writes are the places of the combined deliveries. -/
theorem combinedIndex_range :
    (List.range (combinedItems deliveries keepCaseResults).length).map
        (combinedIndex (buildDeliveryExecutionInput configured deliveries keepCaseResults)) =
      (combinedItems deliveries keepCaseResults).map DeliveryExecutionItem.index := by
  apply List.ext_getElem
  · rw [List.length_map, List.length_map, List.length_range]
  · intro i inside inside'
    rw [List.length_map] at inside'
    rw [List.getElem_map, List.getElem_map, List.getElem_range]
    show (Option.map _ (combinedItems deliveries keepCaseResults)[i]?).getD 0 = _
    rw [List.getElem?_eq_getElem inside']
    rfl

theorem length_deliveryInitial :
    (deliveryInitial (buildDeliveryExecutionInput configured deliveries keepCaseResults)
      synthesized).length = deliveries.length :=
  (length_store Prod.fst (fun outcome : Nat × DeliveryExecutionResult => some outcome.2) _ _).trans
    List.length_replicate

/-- The loop finds the single outcomes in their places. -/
theorem deliveryInitial_of_single {index : Nat} (inside : index < deliveries.length)
    (out : index ∉ (combinedItems deliveries keepCaseResults).map DeliveryExecutionItem.index) :
    (deliveryInitial (buildDeliveryExecutionInput configured deliveries keepCaseResults)
      synthesized)[index]? = some (outcomeAt deliveries keepCaseResults synthesized index) := by
  let input := buildDeliveryExecutionInput configured deliveries keepCaseResults
  have own : ∀ outcome ∈ singleOutcomes input synthesized,
      some outcome.2 = outcomeAt deliveries keepCaseResults synthesized outcome.1 := by
    intro outcome mem
    obtain ⟨item, single, made⟩ := List.mem_filterMap.mp mem
    obtain ⟨value, executed, rfl⟩ := Option.map_eq_some_iff.mp made
    rw [← outcomeAt_index synthesized ((mem_singleItems configured).mp single).1]
    exact executed.symm
  have size : index <
      (List.replicate deliveries.length (none : Option DeliveryExecutionResult)).length := by
    rw [List.length_replicate]
    exact inside
  have found := getElem?_store Prod.fst
    (fun outcome : Nat × DeliveryExecutionResult => some outcome.2) own size
  refine Eq.trans found ?_
  split
  · rfl
  · next unwritten =>
    rw [List.getElem?_replicate, if_pos inside]
    obtain ⟨item, mem, rfl⟩ := exists_item keepCaseResults inside
    have single : item.delivery.strategy ≠ .combined := fun combined =>
      out (List.mem_map_of_mem (mem_combinedItems.mpr ⟨mem, combined⟩))
    rw [← outcomeAt_index synthesized mem]
    cases executed : executeItem synthesized item with
    | none => rfl
    | some value =>
      refine absurd (List.mem_map.mpr ⟨(item.index, value), ?_, rfl⟩) unwritten
      refine List.mem_filterMap.mpr ⟨item, (mem_singleItems configured).mpr ⟨mem, single⟩, ?_⟩
      rw [executed]
      rfl

theorem delivery_worksOff :
    let input := buildDeliveryExecutionInput configured deliveries keepCaseResults
    WorksOff (deliveryJob input) (deliveryOutcome input synthesized)
      (deliveryInitial input synthesized)
      ((List.range deliveries.length).map
        (outcomeAt deliveries keepCaseResults synthesized)) := by
  intro input
  let combined := combinedItems deliveries keepCaseResults
  let result := fun task : Nat => combined[task]?.bind (executeItem synthesized)
  have slots : (List.range combined.length).map (combinedIndex input) =
      combined.map DeliveryExecutionItem.index := combinedIndex_range configured
  have slot_mem : ∀ task < combined.length, ∃ item ∈ executionItems deliveries keepCaseResults,
      combined[task]? = some item ∧ combinedIndex input task = item.index := by
    intro task inside
    refine ⟨combined[task], (mem_combinedItems.mp (List.getElem_mem inside)).1,
      List.getElem?_eq_getElem inside, ?_⟩
    show (Option.map _ combined[task]?).getD 0 = _
    rw [List.getElem?_eq_getElem inside]
    rfl
  have distinct : ((List.range combined.length).map (combinedIndex input)).Nodup := by
    rw [slots]
    refine List.Nodup.sublist (List.Sublist.map _ List.filter_sublist) ?_
    rw [executionItems_index]
    exact List.nodup_range
  have h := worksOff (deliveryJob input) (deliveryOutcome input synthesized) result
    (deliveryInitial input synthesized) (fun _ _ => rfl)
    (by
      intro task inside
      obtain ⟨item, mem, _, slot⟩ := slot_mem task inside
      rw [length_deliveryInitial]
      show combinedIndex input task < _
      rw [slot]
      exact item_index_lt mem)
    (by
      intro a insideA b insideB same
      exact List.inj_on_of_nodup_map distinct (List.mem_range.mpr insideA)
        (List.mem_range.mpr insideB) same)
    (by simp only [deliveryJob]; omega)
  have final : store (combinedIndex input) result (List.range combined.length)
      (deliveryInitial input synthesized) =
      (List.range deliveries.length).map (outcomeAt deliveries keepCaseResults synthesized) := by
    rw [← length_deliveryInitial configured synthesized]
    refine store_eq_map (combinedIndex input) result _ (List.range combined.length) _ ?_ ?_
    · intro task mem
      obtain ⟨item, inside, found, slot⟩ := slot_mem task (List.mem_range.mp mem)
      rw [slot, ← outcomeAt_index synthesized inside]
      show combined[task]?.bind _ = _
      rw [found]
      rfl
    · intro i inside out
      rw [length_deliveryInitial] at inside
      rw [slots] at out
      exact deliveryInitial_of_single configured synthesized inside out
  rw [← final]
  exact h

theorem deliveriesDirect_eq :
    deliveriesDirect (buildDeliveryExecutionInput configured deliveries keepCaseResults)
        synthesized =
      present ((List.range deliveries.length).map
        (outcomeAt deliveries keepCaseResults synthesized)) := by
  let singles := (buildDeliveryExecutionInput configured deliveries
    keepCaseResults).singleDeliveryExecutionItems
  let empty := List.replicate deliveries.length (none : Option DeliveryExecutionResult)
  let stored := store DeliveryExecutionItem.index (executeItem synthesized) singles empty
  have size : stored.length = deliveries.length :=
    (length_store _ _ _ _).trans List.length_replicate
  show present (store DeliveryExecutionItem.index (executeItem synthesized)
    (combinedItems deliveries keepCaseResults) stored) = _
  congr 1
  rw [← size]
  refine store_eq_map _ _ _ _ _ ?_ ?_
  · intro item mem
    exact outcomeAt_index synthesized (mem_combinedItems.mp mem).1
  · intro i inside out
    rw [size] at inside
    have own : ∀ item ∈ singles, executeItem synthesized item =
        outcomeAt deliveries keepCaseResults synthesized item.index := by
      intro item mem
      exact outcomeAt_index synthesized ((mem_singleItems configured).mp mem).1
    have emptySize : i < empty.length := by
      rw [List.length_replicate]
      exact inside
    have written : i ∈ singles.map DeliveryExecutionItem.index := by
      obtain ⟨item, mem, rfl⟩ := exists_item keepCaseResults inside
      refine List.mem_map_of_mem ((mem_singleItems configured).mpr ⟨mem, fun combined => ?_⟩)
      exact out (List.mem_map_of_mem (mem_combinedItems.mpr ⟨mem, combined⟩))
    rw [getElem?_store _ _ own emptySize, if_pos written]

/-- An entry with an id and cases has an outcome, if only a failed one. -/
theorem executeDeliveryEntry_isSome {entry : DeliveryEntry} (named : entry.deliveryId ≠ "")
    (some : entry.caseIds ≠ []) (patch : Except String PatchArtifact)
    (caseResults : List DeliveryPatchCase) :
    (executeDeliveryEntry patch entry caseResults).isSome = true := by
  rw [executeDeliveryEntry]
  split
  · rfl
  · next complete =>
    cases strategy : entry.strategy with
    | single =>
      cases ids : entry.caseIds with
      | nil => exact absurd ids some
      | cons caseId rest =>
        have all := List.filter_eq_nil_iff.mp (not_not.mp complete)
        have found := all caseId (ids ▸ List.mem_cons_self)
        rw [Bool.not_eq_true, Option.isNone_eq_false_iff] at found
        simp only [buildSingleDeliveryOutcome, ids, if_neg named, Option.isSome_map]
        exact found
    | combined =>
      simp only [buildCombinedDeliveryOutcome, if_neg (not_or.mpr ⟨named, some⟩)]
      cases patch with
      | ok artifact => rfl
      | error error => rfl

theorem outcomeAt_isSome
    (named : ∀ entry ∈ deliveries, entry.deliveryId ≠ "" ∧ entry.caseIds ≠ []) {index : Nat}
    (inside : index < deliveries.length) :
    (outcomeAt deliveries keepCaseResults synthesized index).isSome = true := by
  obtain ⟨item, mem, rfl⟩ := exists_item keepCaseResults inside
  rw [← outcomeAt_index synthesized mem]
  obtain ⟨numbered, numberedMem, rfl⟩ := List.mem_map.mp mem
  obtain ⟨id, cases⟩ := named numbered.1 (List.fst_mem_of_mem_zipIdx numberedMem)
  exact executeDeliveryEntry_isSome id cases _ _

end Delivery

theorem map_some_present {β : Type} {results : List (Option β)}
    (all : ∀ result ∈ results, result.isSome = true) : (present results).map some = results := by
  induction results with
  | nil => rfl
  | cons result rest ih =>
    obtain ⟨first, others⟩ := List.forall_mem_cons.mp all
    obtain ⟨value, rfl⟩ := Option.isSome_iff_exists.mp first
    show some value :: (present rest).map some = _
    rw [ih others]

theorem repository_fan_outs_lose_nothing :
    (∀ (Chunk ChunkResult : Type) (manifest : DiscoveryManifest Chunk)
        (results : Nat → ChunkResult),
      ((discoveryJob manifest).limit : Int) = max 1 manifest.maxConcurrency ∧
      WorksOff (discoveryJob manifest) (discoveryOutcome fun index => .ok (results index))
        (discoveryInitial manifest)
        ((List.range manifest.chunks.length).map fun index => some (results index)) ∧
      discoveryDirect manifest results = (List.range manifest.chunks.length).map results ∧
      present ((List.range manifest.chunks.length).map fun index => some (results index)) =
        discoveryDirect manifest results) ∧
    (∀ (batch : RepositoryCaseRequestBatch) (review : Nat → Except String RepositoryCaseResult),
      let settled := fun index => batch.caseRequests[index]?.map fun request =>
        settledCase "Case processing failed after retries: " request (review index)
      ((caseJob batch).limit : Int) = max 1 batch.maxConcurrency ∧
      WorksOff (caseJob batch) (caseOutcome batch review) (caseInitial batch)
        ((List.range batch.caseRequests.length).map settled) ∧
      present ((List.range batch.caseRequests.length).map settled) =
        batch.caseRequests.mapIdx (fun index request =>
          settledCase "Case processing failed after retries: " request (review index)) ∧
      casesDirect batch review = batch.caseRequests.mapIdx (fun index request =>
        settledCase "Case processing failed: " request (review index))) ∧
    (∀ (configured : Option Int) (deliveries : List DeliveryEntry)
        (keepCaseResults : List DeliveryCaseInput)
        (synthesized : Nat → Except String PatchArtifact),
      let input := buildDeliveryExecutionInput configured deliveries keepCaseResults
      let final := (List.range deliveries.length).map
        (outcomeAt deliveries keepCaseResults synthesized)
      ((deliveryJob input).limit : Int) = max 1 input.maxConcurrency ∧
      WorksOff (deliveryJob input) (deliveryOutcome input synthesized)
        (deliveryInitial input synthesized) final ∧
      ((∀ entry ∈ deliveries, entry.deliveryId ≠ "" ∧ entry.caseIds ≠ []) →
        (present final).map some = final) ∧
      present final = deliveriesDirect input synthesized) := by
  refine ⟨?_, ?_, ?_⟩
  · intro Chunk ChunkResult manifest results
    have direct : discoveryDirect manifest results =
        (List.range manifest.chunks.length).map results := by
      rw [discoveryDirect, placeGathered, store_range]
      exact present_map_some results _
    refine ⟨limit_eq_max _, discovery_worksOff manifest results, direct, ?_⟩
    rw [direct]
    exact present_map_some results _
  · intro batch review settled
    refine ⟨?_, cases_worksOff batch review, present_range _ _, ?_⟩
    · have positive := batch.positive
      simp only [caseJob]
      omega
    · rw [casesDirect, store_range]
      exact present_range _ _
  · intro configured deliveries keepCaseResults synthesized input final
    refine ⟨limit_eq_max _, delivery_worksOff configured synthesized, fun named => ?_,
      (deliveriesDirect_eq configured synthesized).symm⟩
    apply map_some_present
    intro result mem
    obtain ⟨index, inside, rfl⟩ := List.mem_map.mp mem
    exact outcomeAt_isSome synthesized named (List.mem_range.mp inside)

def keptCase (caseId : String) : DeliveryCaseInput where
  caseId := caseId
  disposition := .keep
  reason := none
  mitigationOverview := ""
  mitigatorFileChanges := [.deleted caseId]
  mitigatorPatchDiff := some caseId

/-- A case of its own and two that go together. -/
def planOfThree : List DeliveryEntry :=
  [{ deliveryId := "a", strategy := .single, caseIds := ["a"], reason := "" },
    { deliveryId := "combined-1", strategy := .combined, caseIds := ["b", "c"], reason := "" }]

def outcomesOfThree : List (Option DeliveryExecutionResult) :=
  (List.range planOfThree.length).map
    (outcomeAt planOfThree (["a", "b", "c"].map keptCase) fun _ => .error "no patch")

/-- No outcome is left out, although the synthesis of the second delivery fails. -/
theorem failed_synthesis_kept :
    outcomesOfThree.map (fun outcome => outcome.map DeliveryExecutionResult.status) =
        [some .ready, some .failed] ∧
      (present outcomesOfThree).map some = outcomesOfThree :=
  ⟨by decide, (repository_fan_outs_lose_nothing.2.2 none planOfThree
    (["a", "b", "c"].map keptCase) fun _ => .error "no patch").2.2.1 (by decide)⟩

end RepositoryWorkflows
