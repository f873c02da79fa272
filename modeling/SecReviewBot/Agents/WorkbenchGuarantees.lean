import SecReviewBot.Agents.DeliveryWorkbench
import SecReviewBot.Agents.TriageWorkbench

/-!
# Both workbenches

The results about workbenches in general, for the two that the agents use.
-/

namespace Workbench

open TransitionSystems DiscoveryStage

/-- Groups hold known items without repetition, and no two share one. -/
structure GroupsPartition {D : Type} (itemIds : List String) (s : State D) : Prop where
  items : s.orderedItemIds = dedupeIds itemIds
  distinct : ∀ group ∈ s.groups, group.itemIds.Nodup
  known : ∀ group ∈ s.groups, ∀ item ∈ group.itemIds, item ∈ s.orderedItemIds
  apart : s.groups.Pairwise fun a b => a.itemIds.Disjoint b.itemIds

theorem groupsPartition_reachable {D C U : Type} {policy : Policy D C U} {itemIds : List String}
    {s : State D} (reachable : (workbench policy itemIds).Reachable s) :
    GroupsPartition itemIds s := by
  have h := partitioned_reachable policy reachable
  have held : ∀ group ∈ s.groups, (group.groupId, group.itemIds) ∈ holdings s :=
    fun group mem => List.mem_map.mpr ⟨group, mem, rfl⟩
  refine ⟨orderedItemIds_reachable policy reachable, fun group mem => ?_, fun group mem => ?_, ?_⟩
  · exact h.once.each _ (held group mem)
  · exact h.known _ (held group mem)
  · have apart := h.once.apart
    rw [holdings, List.pairwise_map] at apart
    exact apart

theorem workbenches_partition_and_cover :
    (∀ (services : TriageWorkbench.Services) candidates calls,
      let s := (TriageWorkbench.triageWorkbench services.lower candidates).run calls
      GroupsPartition (candidates.map DiscoveryCandidateResult.candidateId) s ∧
      ∀ cases suppressed,
        TriageWorkbench.finish services (TriageWorkbench.itemsById candidates) s =
          .ok cases suppressed →
        (cases.flatMap TriageWorkbench.TriageCase.memberCandidateIds ++
          suppressed.map TriageWorkbench.SuppressedCandidate.candidateId).Perm
            ((TriageWorkbench.itemsById candidates).map fun item => item.2.candidateId) ∧
        ∀ case ∈ cases, case.memberCandidateIds ≠ []) ∧
    ∀ (sha1 : Sha1) lower itemIds calls,
      let s := (DeliveryWorkbench.deliveryWorkbench lower itemIds).run calls
      GroupsPartition itemIds s ∧
      ∀ deliveries, DeliveryWorkbench.finish sha1 lower s = .ok deliveries →
        (deliveries.flatMap DeliveryWorkbench.DeliveryEntry.caseIds).Perm s.orderedItemIds ∧
        ∀ delivery ∈ deliveries,
          delivery.caseIds ≠ [] ∧ delivery.caseIds.Sublist s.orderedItemIds := by
  constructor
  · intro services candidates calls s
    have reachable : (TriageWorkbench.triageWorkbench services.lower candidates).Reachable s :=
      ⟨calls, rfl⟩
    refine ⟨groupsPartition_reachable reachable, fun cases suppressed finished => ?_⟩
    rw [TriageWorkbench.finish] at finished
    split at finished
    · next ok =>
      cases finished
      exact ⟨TriageWorkbench.export_perm reachable ok, fun case mem =>
        TriageWorkbench.export_case_nonempty mem⟩
    · cases finished
  · intro sha1 lower itemIds calls s
    have reachable : (DeliveryWorkbench.deliveryWorkbench lower itemIds).Reachable s :=
      ⟨calls, rfl⟩
    refine ⟨groupsPartition_reachable reachable, fun deliveries finished => ?_⟩
    rw [DeliveryWorkbench.finish] at finished
    split at finished
    · next ok =>
      cases finished
      refine ⟨DeliveryWorkbench.export_perm reachable ok, fun delivery mem => ?_⟩
      obtain ⟨group, held, rfl⟩ := List.mem_map.mp mem
      obtain ⟨inside, some⟩ := DeliveryWorkbench.mem_orderedGroups held
      exact ⟨some, DeliveryWorkbench.inOrder_reachable reachable inside⟩
    · cases finished

theorem workbenches_reliable_if_regular (lower : String → String) :
    (∀ (candidates : List DiscoveryCandidateResult) calls,
      RegularFrom (TriageWorkbench.policy lower)
        (candidates.map DiscoveryCandidateResult.candidateId)
        (TriageWorkbench.triageWorkbench lower candidates).initial calls →
      Reliable (TriageWorkbench.policy lower)
        (candidates.map DiscoveryCandidateResult.candidateId) calls) ∧
    ∀ itemIds calls,
      RegularFrom (DeliveryWorkbench.policy lower) itemIds
        (DeliveryWorkbench.deliveryWorkbench lower itemIds).initial calls →
      Reliable (DeliveryWorkbench.policy lower) itemIds calls := by
  constructor
  · intro candidates calls regular
    exact reliable_of_regular (TriageWorkbench.policy lower) _ regular
  · intro itemIds calls regular
    exact reliable_of_regular (DeliveryWorkbench.policy lower) _ regular

/-- A delivery of one item. -/
def delivery (item : String) : CreateInput DeliveryWorkbench.DeliveryFields where
  fields := { kind := none, reason := none }
  itemIds := some [item]

def plain : Policy DeliveryWorkbench.DeliveryData DeliveryWorkbench.DeliveryFields
    DeliveryWorkbench.DeliveryFields :=
  DeliveryWorkbench.policy fun text => text

/-- The group of a single call may be deleted, as the counter is past it; a batch follows, and a
call that raises. -/
theorem single_then_delete_reliable :
    Reliable plain ["a", "b"] [.createGroup (delivery "a"), .deleteGroup "group-1",
      .createGroups [delivery "a", delivery "b"], .deleteGroup "group-9"] := by
  refine (workbenches_reliable_if_regular fun text => text).2 ["a", "b"] _ ?_
  have passed : ∀ (s : State DeliveryWorkbench.DeliveryData) name n,
      normalizedId name = some (groupName n) → n < s.nextGroupNumber ∨ groupName n ∉ s.keys →
        Passed s name := by
    intro s name n own clear m named inUse
    rw [named, Option.some.injEq] at own
    obtain rfl := groupName_injective own
    exact clear.resolve_right fun free => free inUse
  intro step mem
  rcases List.mem_cons.mp mem with rfl | mem
  · intro _
    decide
  rcases List.mem_cons.mp mem with rfl | mem
  · exact passed _ "group-1" 1 (by decide) (.inl (by decide))
  rcases List.mem_cons.mp mem with rfl | mem
  · trivial
  · rw [List.mem_singleton.mp mem]
    exact passed _ "group-9" 9 (by decide) (.inr (by decide))

/-- An unknown item moves the counter of a call that raises. A group made by a batch, once
deleted, is made again under the same name. -/
theorem irregular_runs_not_reliable :
    ¬ Reliable plain ["a"] [.createGroup (delivery "b")] ∧
    ¬ Reliable plain ["a"]
      [.createGroups [delivery "a"], .deleteGroup "group-1", .createGroup (delivery "a")] := by
  constructor
  · intro reliable
    have raises : (performed plain (.createGroup (delivery "b")) (emptyState ["a"])).1 =
        .error "unknown item_id(s): b" := by decide
    have unchanged := reliable.atomic (emptyState ["a"], .createGroup (delivery "b"))
      List.mem_cons_self _ raises
    have moved : (performed plain (.createGroup (delivery "b"))
        (emptyState ["a"])).2.nextGroupNumber = 2 := by decide
    rw [unchanged] at moved
    exact absurd moved (by decide)
  · intro reliable
    have again : handedOutFrom plain ["a"] (workbench plain ["a"]).initial
        [.createGroups [delivery "a"], .deleteGroup "group-1", .createGroup (delivery "a")] =
        [["group-1"], [], ["group-1"]] := by decide
    have distinct := reliable.distinct
    rw [again] at distinct
    exact absurd distinct (by decide)

end Workbench
