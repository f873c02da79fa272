import SecReviewBot.BoundedFanOut
import SecReviewBot.Agents.PlanningBatches
import SecReviewBot.Agents.TriageStage

/-!
# Triage batches

The batches of a triage hold every candidate once, whatever the order of the candidates, and
their drafts are collected in one workbench. A draft is collected group by group: a group
without items is left out, and a group without the texts of its kind is refused.
-/

namespace TriageBatches

open TextCodecs TransitionSystems Workbench DiscoveryStage TriageWorkbench TriageStage
open BucketPacking

section Packing

variable (lower : String → String)

/-- The ids to triage, each under the primary path of its candidate. -/
def triageItems (candidates : List DiscoveryCandidateResult) : List (String × String) :=
  candidates.filterMap fun result => (normalizedId result.candidateId).map fun id =>
    (primaryPathKey lower result.candidate, id)

theorem buckets_eq (candidates : List DiscoveryCandidateResult) :
    buckets lower candidates = bucketsOf (triageItems lower candidates) := by
  rw [buckets, bucketsOf, triageItems, List.foldl_filterMap]
  congr 1
  funext found result
  cases normalizedId result.candidateId with
  | none => rfl
  | some id => rfl

def sortIds (ids : List String) : List String := ids.mergeSort

/-- The buckets of candidates as they are packed, without their order. -/
def sortedBuckets (candidates : List DiscoveryCandidateResult) : List (List String) :=
  (bucketsOf (triageItems lower candidates)).map fun bucket => sortIds bucket.2

def TriageBefore : List String → List String → Prop :=
  LexBefore (fun bucket => OrderDual.toDual bucket.length) fun a b => a.headD "" ≤ b.headD ""

instance : DecidableRel TriageBefore :=
  inferInstanceAs (DecidableRel (LexBefore _ fun a b : List String => a.headD "" ≤ b.headD ""))

theorem orderedBuckets_eq (candidates : List DiscoveryCandidateResult) :
    orderedBuckets lower candidates =
      (sortedBuckets lower candidates).mergeSort fun a b => TriageBefore a b := by
  rw [orderedBuckets, buckets_eq, sortedBuckets]
  rfl

theorem sortIds_perm (ids : List String) : (sortIds ids).Perm ids := List.mergeSort_perm _ _

theorem sortIds_eq_of_perm {xs ys : List String} (perm : xs.Perm ys) : sortIds xs = sortIds ys := by
  refine mergeSort_eq_of_perm (fun a b c ab bc => ?_) (fun a b => ?_) perm
    (fun a _ b _ ab ba => ?_)
  · rw [decide_eq_true_eq] at ab bc ⊢
    exact le_trans ab bc
  · rw [Bool.or_eq_true, decide_eq_true_eq, decide_eq_true_eq]
    exact le_total _ _
  · rw [decide_eq_true_eq] at ab ba
    exact le_antisymm ab ba

/-- The first id of a bucket tells which bucket it is. -/
theorem bucket_of_head {candidates : List DiscoveryCandidateResult}
    (distinct : ((triageItems lower candidates).map Prod.snd).Nodup) {a b : List String}
    (memA : a ∈ sortedBuckets lower candidates) (memB : b ∈ sortedBuckets lower candidates)
    (same : a.headD "" = b.headD "") : a = b := by
  have headed : ∀ bucket ∈ sortedBuckets lower candidates, ∃ key,
      bucket = sortIds (itemsOf key (triageItems lower candidates)) ∧
        (key, bucket.headD "") ∈ triageItems lower candidates := by
    intro bucket mem
    obtain ⟨⟨key, ids⟩, held, rfl⟩ := List.mem_map.mp mem
    obtain ⟨rfl, some⟩ := mem_bucketsOf.mp held
    refine ⟨key, rfl, ?_⟩
    have perm := sortIds_perm (itemsOf key (triageItems lower candidates))
    cases sorted : sortIds (itemsOf key (triageItems lower candidates)) with
    | nil =>
      rw [sorted] at perm
      exact absurd (List.nil_perm.mp perm) some
    | cons id rest =>
      have own : id ∈ itemsOf key (triageItems lower candidates) :=
        perm.mem_iff.mp (by rw [sorted]; exact List.mem_cons_self)
      obtain ⟨⟨other, id'⟩, inside, rfl⟩ := List.mem_map.mp own
      obtain ⟨item, keyed⟩ := List.mem_filter.mp inside
      obtain rfl : other = key := of_decide_eq_true keyed
      exact item
  obtain ⟨keyA, eqA, itemA⟩ := headed a memA
  obtain ⟨keyB, eqB, itemB⟩ := headed b memB
  have one := List.inj_on_of_nodup_map distinct itemA itemB same
  have keys : keyA = keyB := congrArg Prod.fst one
  rw [eqA, eqB, keys]

/-- The packed buckets do not depend on the order of the candidates. -/
theorem orderedBuckets_eq_of_perm {others candidates : List DiscoveryCandidateResult}
    (perm : others.Perm candidates)
    (distinct : ((triageItems lower candidates).map Prod.snd).Nodup) :
    orderedBuckets lower others = orderedBuckets lower candidates := by
  have keyed : (triageItems lower others).Perm (triageItems lower candidates) :=
    perm.filterMap _
  have buckets : (sortedBuckets lower others).Perm (sortedBuckets lower candidates) := by
    have all := (sortedBuckets_perm sortIds keyed fun key =>
      sortIds_eq_of_perm ((keyed.filter _).map Prod.snd)).map Prod.snd
    rw [List.map_map, List.map_map] at all
    exact all
  rw [orderedBuckets_eq, orderedBuckets_eq]
  refine mergeSort_eq_of_perm (fun a b c ab bc => ?_) (fun a b => ?_) buckets
    (fun a memA b memB ab ba => ?_)
  · rw [decide_eq_true_eq] at ab bc ⊢
    refine LexBefore.trans ?_ ab bc
    exact fun _ _ _ before after => le_trans before after
  · rw [Bool.or_eq_true, decide_eq_true_eq, decide_eq_true_eq]
    exact LexBefore.total (fun _ _ => le_total _ _) a b
  · rw [decide_eq_true_eq] at ab ba
    have tied := LexBefore.antisymm ab ba
    exact bucket_of_head lower distinct memA memB (le_antisymm tied.1 tied.2)

/-- Everything is packed, in order and each part whole. -/
theorem packBatches_spec {size : Nat} (positive : 0 < size) (buckets : List (List String))
    {current : List String} (fits : current.length ≤ size) :
    (packBatches size current buckets).flatten = current ++ buckets.flatten ∧
      (∀ batch ∈ packBatches size current buckets, batch ≠ [] ∧ batch.length ≤ size) ∧
      ∀ part ∈ current :: pieces size buckets, part ≠ [] →
        ∃ batch ∈ packBatches size current buckets, part.Sublist batch := by
  induction buckets generalizing current with
  | nil =>
    rw [packBatches, pieces]
    split
    · next none => simp [none]
    · next some => simp [some, fits]
  | cons bucket rest ih =>
    have parts : pieces size (bucket :: rest) = pieces size [bucket] ++ pieces size rest := by
      simp [pieces]
    rw [packBatches, parts]
    split
    · next large =>
      obtain ⟨flat, each, whole⟩ := @ih [] (Nat.zero_le _)
      obtain ⟨sliced, cuts⟩ := slices_spec positive bucket
      have pieced : pieces size [bucket] = slices size bucket := by
        simp [pieces, large]
      have first : (if current = [] then [] else [current]).flatten = current := by
        split
        · next none => simp [none]
        · simp
      rw [pieced]
      refine ⟨?_, ?_, ?_⟩
      · rw [List.flatten_append, List.flatten_append, flat, first, sliced]
        simp
      · intro batch mem
        rcases List.mem_append.mp mem with mem | later
        · rcases List.mem_append.mp mem with open' | cut
          · split at open'
            · cases open'
            · next some =>
              rw [List.mem_singleton.mp open']
              exact ⟨some, fits⟩
          · exact cuts batch cut
        · exact each batch later
      · intro part mem some
        rcases List.mem_cons.mp mem with rfl | mem
        · exact ⟨part, by simp [some], List.Sublist.refl _⟩
        · rcases List.mem_append.mp mem with cut | later
          · exact ⟨part, by simp [cut], List.Sublist.refl _⟩
          · obtain ⟨batch, held, inside⟩ := whole part (List.mem_cons_of_mem _ later) some
            exact ⟨batch, List.mem_append_right _ held, inside⟩
    · next small =>
      have pieced : pieces size [bucket] = [bucket] := by simp [pieces, small]
      rw [pieced]
      split
      · next full =>
        obtain ⟨flat, each, whole⟩ := @ih bucket (by omega)
        refine ⟨?_, ?_, ?_⟩
        · rw [List.flatten_cons, flat, List.flatten_cons]
        · intro batch mem
          rcases List.mem_cons.mp mem with rfl | later
          · exact ⟨full.1, fits⟩
          · exact each batch later
        · intro part mem some
          rcases List.mem_cons.mp mem with rfl | later
          · exact ⟨part, List.mem_cons_self, List.Sublist.refl _⟩
          · obtain ⟨batch, held, inside⟩ := whole part later some
            exact ⟨batch, List.mem_cons_of_mem _ held, inside⟩
      · next room =>
        have joined : (current ++ bucket).length ≤ size := by
          rw [List.length_append]
          by_contra beyond
          refine room ⟨?_, by omega⟩
          rintro rfl
          simp at beyond
          omega
        obtain ⟨flat, each, whole⟩ := @ih (current ++ bucket) joined
        refine ⟨?_, each, ?_⟩
        · rw [flat, List.flatten_cons, List.append_assoc]
        · intro part mem some
          have joint : part ∈ [current, bucket] ∨ part ∈ pieces size rest := by
            simpa [or_assoc] using mem
          rcases joint with joint | later
          · have inside : part.Sublist (current ++ bucket) := by
              rcases List.mem_cons.mp joint with rfl | second
              · exact List.sublist_append_left _ _
              · rw [List.mem_singleton.mp second]
                exact List.sublist_append_right _ _
            have held : current ++ bucket ≠ [] := by
              intro none
              rw [none] at inside
              exact some (List.sublist_nil.mp inside)
            obtain ⟨batch, place, all⟩ := whole _ List.mem_cons_self held
            exact ⟨batch, place, inside.trans all⟩
          · exact whole part (List.mem_cons_of_mem _ later) some

variable {lower}

theorem triageCandidateBatches_eq {candidates : List DiscoveryCandidateResult}
    {maxBatchSize : Int} (positive : 0 < maxBatchSize) :
    triageCandidateBatches lower candidates maxBatchSize =
      .ok (packBatches maxBatchSize.toNat [] (orderedBuckets lower candidates)) := by
  rw [triageCandidateBatches, if_neg (by omega)]

/-- The batches of a triage hold every id once, those of one path together. -/
theorem triage_batching {candidates : List DiscoveryCandidateResult} {maxBatchSize : Int}
    (positive : 0 < maxBatchSize) :
    ∃ batches, triageCandidateBatches lower candidates maxBatchSize = .ok batches ∧
      Batching maxBatchSize.toNat (triageItems lower candidates) batches := by
  have size : 0 < maxBatchSize.toNat := by omega
  refine ⟨_, triageCandidateBatches_eq positive, ?_⟩
  obtain ⟨flat, each, whole⟩ :=
    @packBatches_spec _ size (orderedBuckets lower candidates) [] (Nat.zero_le _)
  have sorted : (orderedBuckets lower candidates).Perm (sortedBuckets lower candidates) := by
    rw [orderedBuckets_eq]
    exact List.mergeSort_perm _ _
  have packed : Packed maxBatchSize.toNat
      (pieces maxBatchSize.toNat (orderedBuckets lower candidates))
      (packBatches maxBatchSize.toNat [] (orderedBuckets lower candidates)) := by
    refine ⟨fun batch mem => (each batch mem).2, ?_, fun part mem =>
      whole part (List.mem_cons_of_mem _ mem)⟩
    rw [flat, flatten_pieces size, List.nil_append]
  refine Packed.batching size ?_ ?_ packed fun batch mem => (each batch mem).1
  · refine sorted.flatten.trans ?_
    exact sortedBuckets_flatten sortIds_perm (triageItems lower candidates)
  · intro key mem
    refine ⟨sortIds (itemsOf key (triageItems lower candidates)), ?_, sortIds_perm _⟩
    refine sorted.mem_iff.mpr (List.mem_map.mpr ⟨_, mem_bucketsOf.mpr ⟨rfl, ?_⟩, rfl⟩)
    exact itemsOf_ne_nil.mpr mem

theorem triage_order {others candidates : List DiscoveryCandidateResult} {maxBatchSize : Int}
    (positive : 0 < maxBatchSize) (perm : others.Perm candidates)
    (distinct : ((triageItems lower candidates).map Prod.snd).Nodup) :
    triageCandidateBatches lower others maxBatchSize =
      triageCandidateBatches lower candidates maxBatchSize := by
  rw [triageCandidateBatches_eq positive, triageCandidateBatches_eq positive,
    orderedBuckets_eq_of_perm lower perm distinct]

end Packing

end TriageBatches
