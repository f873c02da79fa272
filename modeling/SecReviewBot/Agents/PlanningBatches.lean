import Mathlib.Data.String.Basic
import SecReviewBot.BucketPacking
import SecReviewBot.TextCodecs

/-!
# Planning batches

The cases of a delivery plan are planned in batches (`delivery_stages/planning/batching.py`).
Cases with one primary path stay together where they fit, and each bucket goes to the batch
that is the smallest so far.
-/

namespace PlanningBatches

open TextCodecs BucketPacking

/-- What batching reads of a `DeliveryPlanningCase`. -/
structure PlanningCase where
  caseId : String
  changedFiles : List String
  deriving DecidableEq

def normalizedPlanningPath (value : String) : Option String :=
  let normalized := String.ofList ((strip pythonSpace value).toList.dropWhile (· = '/'))
  if normalized = "" then none else some normalized

def planningCasePaths (caseEntry : PlanningCase) : List String :=
  (caseEntry.changedFiles.filterMap normalizedPlanningPath).eraseDups.mergeSort

def planningCasePrimaryPath (caseEntry : PlanningCase) : String :=
  match planningCasePaths caseEntry with
  | path :: _ => path
  | [] => "__no_path__::" ++ strip pythonSpace caseEntry.caseId

def chunkCaseIds (caseIds : List String) (maxBatchSize : Nat) : List (List String) :=
  slices maxBatchSize caseIds

/-- The first of the smallest batches. -/
def smallestBatchIndex (batches : List (List String)) : Nat :=
  (List.range batches.length).foldl (fun best index =>
    if (batches.getD index []).length < (batches.getD best []).length then index else best) 0

def placeIds (maxBatchSize : Nat) (batches : List (List String)) (ids : List String) :
    List (List String) :=
  let targetIndex := smallestBatchIndex batches
  if maxBatchSize < (batches.getD targetIndex []).length + ids.length then batches ++ [ids]
  else batches.modify targetIndex (· ++ ids)

def placeBucket (maxBatchSize : Nat) (batches : List (List String))
    (bucket : List PlanningCase) : List (List String) :=
  let bucketCaseIds := bucket.map fun item => strip pythonSpace item.caseId
  if maxBatchSize < bucketCaseIds.length then
    (chunkCaseIds bucketCaseIds maxBatchSize).foldl (placeIds maxBatchSize) batches
  else placeIds maxBatchSize batches bucketCaseIds

def bucketPath (bucket : List PlanningCase) : String :=
  (bucket.head?.map planningCasePrimaryPath).getD ""

/-- `(len(bucket) > max_batch_size, -len(bucket), path of bucket[0])`. -/
def BucketBefore (maxBatchSize : Nat) : List PlanningCase → List PlanningCase → Prop :=
  LexBefore (fun bucket => decide (maxBatchSize < bucket.length))
    (LexBefore (fun bucket => OrderDual.toDual bucket.length)
      fun a b => bucketPath a ≤ bucketPath b)

instance (maxBatchSize : Nat) : DecidableRel (BucketBefore maxBatchSize) :=
  inferInstanceAs (DecidableRel (LexBefore _ (LexBefore _ fun a b => bucketPath a ≤ bucketPath b)))

def sortById (bucket : List PlanningCase) : List PlanningCase :=
  bucket.mergeSort fun a b => a.caseId ≤ b.caseId

def namedCases (planningCases : List PlanningCase) : List PlanningCase :=
  planningCases.filter fun caseEntry => strip pythonSpace caseEntry.caseId ≠ ""

def orderedBuckets (maxBatchSize : Nat) (cases : List PlanningCase) : List (List PlanningCase) :=
  let buckets := bucketsOf (cases.map fun caseEntry => (planningCasePrimaryPath caseEntry, caseEntry))
  ((buckets.mergeSort fun a b => a.1 ≤ b.1).map fun bucket => sortById bucket.2).mergeSort
    fun a b => BucketBefore maxBatchSize a b

def planningCaseIdBatches (planningCases : List PlanningCase) (maxBatchSize : Int) :
    Except String (List (List String)) :=
  if maxBatchSize ≤ 0 then .error "max_batch_size must be positive."
  else
    let size := maxBatchSize.toNat
    let cases := namedCases planningCases
    if cases = [] then .ok []
    else
      let batchCount := max 1 ((cases.length + size - 1) / size)
      let batches := (orderedBuckets size cases).foldl (placeBucket size)
        (List.replicate batchCount [])
      .ok (batches.filter (· ≠ []))

theorem smallestBatchIndex_lt {batches : List (List String)} (some : batches ≠ []) :
    smallestBatchIndex batches < batches.length := by
  have kept : ∀ (indices : List Nat) (best : Nat), (∀ index ∈ indices, index < batches.length) →
      best < batches.length →
      indices.foldl (fun best index =>
        if (batches.getD index []).length < (batches.getD best []).length then index else best)
        best < batches.length := by
    intro indices
    induction indices with
    | nil => exact fun _ _ inside => inside
    | cons index later ih =>
      intro best all inside
      rw [List.foldl_cons]
      refine ih _ (fun other mem => all other (List.mem_cons_of_mem _ mem)) ?_
      split
      · exact all index List.mem_cons_self
      · exact inside
  exact kept _ 0 (fun index mem => List.mem_range.mp mem) (List.length_pos_iff.mpr some)

theorem placeIds_ne_nil (size : Nat) {batches : List (List String)} (some : batches ≠ [])
    (ids : List String) : placeIds size batches ids ≠ [] := by
  rw [placeIds]
  split
  · simp
  · simpa using some

theorem packed_placeIds {size : Nat} {parts batches : List (List String)} {ids : List String}
    (h : Packed size parts batches) (some : batches ≠ []) (fits : ids.length ≤ size) :
    Packed size (parts ++ [ids]) (placeIds size batches ids) := by
  rw [placeIds]
  split
  · exact h.opens fits
  · next room =>
    obtain ⟨before, bin, after, eq, length, modified⟩ :=
      List.exists_of_modify (· ++ ids) (smallestBatchIndex_lt some)
    have target : batches.getD (smallestBatchIndex batches) [] = bin := by
      rw [← length, List.getD_eq_getElem?_getD]
      conv_lhs => rw [eq]
      simp
    rw [target] at room
    rw [modified]
    rw [eq] at h
    exact h.adds (by omega)

theorem packed_placeAll {size : Nat} {parts batches more : List (List String)}
    (h : Packed size parts batches) (some : batches ≠ []) (fit : ∀ ids ∈ more, ids.length ≤ size) :
    Packed size (parts ++ more) (more.foldl (placeIds size) batches) ∧
      more.foldl (placeIds size) batches ≠ [] := by
  induction more generalizing parts batches with
  | nil => exact ⟨by simpa using h, some⟩
  | cons ids later ih =>
    have one := packed_placeIds h some (fit ids List.mem_cons_self)
    have all := ih one (placeIds_ne_nil size some ids)
      fun other mem => fit other (List.mem_cons_of_mem _ mem)
    rw [List.append_assoc] at all
    exact all

/-- The ids of the cases in a bucket. -/
def caseIds (bucket : List PlanningCase) : List String :=
  bucket.map fun item => strip pythonSpace item.caseId

theorem packed_placeBuckets {size : Nat} (positive : 0 < size) {parts batches : List (List String)}
    (h : Packed size parts batches) (some : batches ≠ []) (buckets : List (List PlanningCase)) :
    Packed size (parts ++ pieces size (buckets.map caseIds))
      (buckets.foldl (placeBucket size) batches) := by
  induction buckets generalizing parts batches with
  | nil => simpa [pieces] using h
  | cons bucket later ih =>
    have split : pieces size ((bucket :: later).map caseIds) =
        pieces size [caseIds bucket] ++ pieces size (later.map caseIds) := by
      simp [pieces]
    have placed : Packed size (parts ++ pieces size [caseIds bucket])
        (placeBucket size batches bucket) ∧ placeBucket size batches bucket ≠ [] := by
      have same : placeBucket size batches bucket =
          (pieces size [caseIds bucket]).foldl (placeIds size) batches := by
        rw [placeBucket, pieces, List.flatMap_singleton]
        simp only [← caseIds.eq_def]
        split
        · rfl
        · rfl
      rw [same]
      exact packed_placeAll h some fun ids mem => length_of_mem_pieces positive mem
    rw [List.foldl_cons, split, ← List.append_assoc]
    exact ih placed.1 placed.2

/-- The ids to plan, each under the primary path of its case. -/
def planningItems (planningCases : List PlanningCase) : List (String × String) :=
  (namedCases planningCases).map fun caseEntry =>
    (planningCasePrimaryPath caseEntry, strip pythonSpace caseEntry.caseId)

def keyedCases (cases : List PlanningCase) : List (String × PlanningCase) :=
  cases.map fun caseEntry => (planningCasePrimaryPath caseEntry, caseEntry)

/-- The buckets of cases as they are packed, without their order. -/
def sortedBuckets (cases : List PlanningCase) : List (List PlanningCase) :=
  (bucketsOf (keyedCases cases)).map fun bucket => sortById bucket.2

theorem orderedBuckets_perm (size : Nat) (cases : List PlanningCase) :
    (orderedBuckets size cases).Perm (sortedBuckets cases) :=
  (List.mergeSort_perm _ _).trans ((List.mergeSort_perm _ _).map _)

theorem sortById_perm (bucket : List PlanningCase) : (sortById bucket).Perm bucket :=
  List.mergeSort_perm _ _

theorem mem_keyedCases {cases : List PlanningCase} {key : String} {entry : PlanningCase}
    (mem : entry ∈ itemsOf key (keyedCases cases)) :
    entry ∈ cases ∧ planningCasePrimaryPath entry = key := by
  obtain ⟨⟨path, other⟩, held, rfl⟩ := List.mem_map.mp mem
  obtain ⟨keyed, same⟩ := List.mem_filter.mp held
  obtain ⟨case, own, eq⟩ := List.mem_map.mp keyed
  cases eq
  exact ⟨own, of_decide_eq_true same⟩

/-- Every bucket is the sorted bucket of one path, and starts with a case of that path. -/
theorem mem_sortedBuckets {cases : List PlanningCase} {bucket : List PlanningCase}
    (mem : bucket ∈ sortedBuckets cases) :
    bucket = sortById (itemsOf (bucketPath bucket) (keyedCases cases)) := by
  obtain ⟨⟨key, items⟩, held, rfl⟩ := List.mem_map.mp mem
  obtain ⟨rfl, some⟩ := mem_bucketsOf.mp held
  have path : bucketPath (sortById (itemsOf key (keyedCases cases))) = key := by
    cases sorted : sortById (itemsOf key (keyedCases cases)) with
    | nil =>
      have perm := sortById_perm (itemsOf key (keyedCases cases))
      rw [sorted] at perm
      exact absurd (List.nil_perm.mp perm) some
    | cons entry rest =>
      have own : entry ∈ itemsOf key (keyedCases cases) :=
        (sortById_perm _).mem_iff.mp (by rw [sorted]; exact List.mem_cons_self)
      exact (mem_keyedCases own).2
  rw [path]

theorem bucketBefore_trans (size : Nat) (a b c : List PlanningCase)
    (ab : decide (BucketBefore size a b) = true) (bc : decide (BucketBefore size b c) = true) :
    decide (BucketBefore size a c) = true := by
  rw [decide_eq_true_eq] at ab bc ⊢
  refine ab.trans (fun x y z xy yz => ?_) bc
  refine LexBefore.trans ?_ xy yz
  exact fun _ _ _ before after => le_trans before after

theorem bucketBefore_total (size : Nat) (a b : List PlanningCase) :
    (decide (BucketBefore size a b) || decide (BucketBefore size b a)) = true := by
  rw [Bool.or_eq_true, decide_eq_true_eq, decide_eq_true_eq]
  exact LexBefore.total (LexBefore.total fun _ _ => le_total _ _) a b

/-- The packed buckets do not depend on the order of the cases. -/
theorem orderedBuckets_eq_of_perm (size : Nat) {others cases : List PlanningCase}
    (perm : others.Perm cases) (distinct : (cases.map PlanningCase.caseId).Nodup) :
    orderedBuckets size others = orderedBuckets size cases := by
  have keyed : (keyedCases others).Perm (keyedCases cases) := perm.map _
  have same : ∀ key, sortById (itemsOf key (keyedCases others)) =
      sortById (itemsOf key (keyedCases cases)) := by
    intro key
    refine mergeSort_eq_of_perm (fun a b c ab bc => ?_) (fun a b => ?_)
      ((keyed.filter _).map Prod.snd) (fun a memA b memB ab ba => ?_)
    · rw [decide_eq_true_eq] at ab bc ⊢
      exact le_trans ab bc
    · rw [Bool.or_eq_true, decide_eq_true_eq, decide_eq_true_eq]
      exact le_total _ _
    · rw [decide_eq_true_eq] at ab ba
      exact List.inj_on_of_nodup_map distinct (mem_keyedCases memA).1 (mem_keyedCases memB).1
        (le_antisymm ab ba)
  have buckets : (sortedBuckets others).Perm (sortedBuckets cases) := by
    have all := (sortedBuckets_perm sortById keyed same).map Prod.snd
    rw [List.map_map, List.map_map] at all
    exact all
  refine mergeSort_eq_of_perm (bucketBefore_trans size) (bucketBefore_total size)
    (((List.mergeSort_perm _ _).map _).trans
      (buckets.trans ((List.mergeSort_perm _ _).map _).symm)) ?_
  intro a memA b memB ab ba
  have ownA : a ∈ sortedBuckets cases := ((List.mergeSort_perm _ _).map _).mem_iff.mp memA
  have ownB : b ∈ sortedBuckets cases := ((List.mergeSort_perm _ _).map _).mem_iff.mp memB
  rw [decide_eq_true_eq] at ab ba
  have tied := LexBefore.antisymm ab ba
  have paths := LexBefore.antisymm tied.1 tied.2
  rw [mem_sortedBuckets ownA, mem_sortedBuckets ownB, le_antisymm paths.1 paths.2]

theorem itemsOf_planningItems (key : String) (planningCases : List PlanningCase) :
    itemsOf key (planningItems planningCases) =
      caseIds (itemsOf key (keyedCases (namedCases planningCases))) := by
  rw [itemsOf, planningItems, List.filter_map, List.map_map, itemsOf, keyedCases, caseIds,
    List.filter_map, List.map_map, List.map_map]
  rfl

theorem nodup_caseId {planningCases : List PlanningCase}
    (distinct : ((planningItems planningCases).map Prod.snd).Nodup) :
    ((namedCases planningCases).map PlanningCase.caseId).Nodup := by
  refine List.Nodup.of_map (strip pythonSpace) ?_
  rw [planningItems, List.map_map] at distinct
  rw [List.map_map]
  exact distinct

theorem planningCaseIdBatches_eq {planningCases : List PlanningCase} {maxBatchSize : Int}
    (positive : 0 < maxBatchSize) :
    planningCaseIdBatches planningCases maxBatchSize =
      .ok (if namedCases planningCases = [] then []
        else ((orderedBuckets maxBatchSize.toNat (namedCases planningCases)).foldl
          (placeBucket maxBatchSize.toNat) (List.replicate (max 1
            (((namedCases planningCases).length + maxBatchSize.toNat - 1) /
              maxBatchSize.toNat)) [])).filter (· ≠ [])) := by
  rw [planningCaseIdBatches, if_neg (by omega)]
  by_cases none : namedCases planningCases = []
  · simp [none]
  · simp only [if_neg none]

/-- The batches of a plan hold every id once, those of one path together. -/
theorem planning_batching {planningCases : List PlanningCase} {maxBatchSize : Int}
    (positive : 0 < maxBatchSize) :
    ∃ batches, planningCaseIdBatches planningCases maxBatchSize = .ok batches ∧
      Batching maxBatchSize.toNat (planningItems planningCases) batches := by
  have size : 0 < maxBatchSize.toNat := by omega
  refine ⟨_, planningCaseIdBatches_eq positive, ?_⟩
  split
  · next none =>
    have nothing : planningItems planningCases = [] := by rw [planningItems, none, List.map_nil]
    rw [nothing]
    exact ⟨by simp, by simp, by simp, by simp⟩
  · have opened : List.replicate (max 1 (((namedCases planningCases).length +
        maxBatchSize.toNat - 1) / maxBatchSize.toNat)) ([] : List String) ≠ [] := by
      intro none
      have length := congrArg List.length none
      rw [List.length_replicate, List.length_nil] at length
      omega
    have packed := (packed_placeBuckets size (Packed.empty _ _) opened
      (orderedBuckets maxBatchSize.toNat (namedCases planningCases))).filter
    have sorted := orderedBuckets_perm maxBatchSize.toNat (namedCases planningCases)
    refine Packed.batching size ?_ ?_ packed fun bin mem => ?_
    · refine (sorted.map caseIds).flatten.trans ?_
      have all := (sortedBuckets_flatten sortById_perm
        (keyedCases (namedCases planningCases))).map fun item => strip pythonSpace item.caseId
      rw [List.map_flatten, List.map_map] at all
      rw [sortedBuckets, List.map_map]
      refine all.trans (List.Perm.of_eq ?_)
      rw [keyedCases, planningItems, List.map_map, List.map_map, List.map_map]
      rfl
    · intro key mem
      have held : key ∈ (keyedCases (namedCases planningCases)).map Prod.fst := by
        rw [planningItems, List.map_map] at mem
        rw [keyedCases, List.map_map]
        exact mem
      refine ⟨caseIds (sortById (itemsOf key (keyedCases (namedCases planningCases)))), ?_, ?_⟩
      · refine List.mem_map_of_mem (sorted.mem_iff.mpr ?_)
        exact List.mem_map.mpr ⟨_, mem_bucketsOf.mpr ⟨rfl, itemsOf_ne_nil.mpr held⟩, rfl⟩
      · rw [itemsOf_planningItems]
        exact (sortById_perm _).map _
    · simpa using (List.mem_filter.mp mem).2

theorem planning_order {others planningCases : List PlanningCase} {maxBatchSize : Int}
    (positive : 0 < maxBatchSize) (perm : others.Perm planningCases)
    (distinct : ((planningItems planningCases).map Prod.snd).Nodup) :
    planningCaseIdBatches others maxBatchSize =
      planningCaseIdBatches planningCases maxBatchSize := by
  have named : (namedCases others).Perm (namedCases planningCases) := perm.filter _
  have none : namedCases others = [] ↔ namedCases planningCases = [] := by
    rw [← List.length_eq_zero_iff, named.length_eq, List.length_eq_zero_iff]
  rw [planningCaseIdBatches_eq positive, planningCaseIdBatches_eq positive, named.length_eq,
    orderedBuckets_eq_of_perm _ named (nodup_caseId distinct)]
  simp only [none]

end PlanningBatches
