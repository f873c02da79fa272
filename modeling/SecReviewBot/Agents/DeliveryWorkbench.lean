import SecReviewBot.Agents.DiscoveryStage
import SecReviewBot.Agents.WorkbenchBatches

/-!
# The delivery planning workbench

Groups of cases that are delivered together (`agents/delivery_planning/workbench_state.py`).
A group keeps its items in the order of the workbench, whatever order the agent names them
in, and a group may stay empty: only groups with items are exported.
-/

namespace DeliveryWorkbench

open TextCodecs KeyedGroups TransitionSystems Workbench DiscoveryStage

structure DeliveryData where
  kind : String
  reason : Option String
  deriving DecidableEq

structure DeliveryFields where
  kind : Option String
  reason : Option String
  deriving DecidableEq

section Texts

variable (lower : String → String)

/-- `_normalized_group_kind`. -/
def normalizedGroupKind (value : Option String) : String :=
  let given := if value.getD "" = "" then "delivery" else value.getD ""
  let kind := lower (strip pythonSpace given)
  if kind = "" then "delivery" else kind

def newGroup (fields : DeliveryFields) : DeliveryData where
  kind := normalizedGroupKind lower fields.kind
  reason := fields.reason.bind normalizedId

def revise (fields : DeliveryFields) (data : DeliveryData) : DeliveryData where
  kind := match fields.kind with
    | none => data.kind
    | some kind => normalizedGroupKind lower (some kind)
  reason := match fields.reason with
    | none => data.reason
    | some reason => normalizedId reason

end Texts

def groupErrors (group : ItemGroup DeliveryData) : List ConstraintError :=
  if group.data.kind ≠ "delivery" then
    [.invalidGroupKind group.groupId group.data.kind ["delivery"]]
  else []

def policy (lower : String → String) : Policy DeliveryData DeliveryFields DeliveryFields where
  validateCreate := fun _ => .ok ()
  newGroup := fun fields => .ok (newGroup lower fields)
  newGroup_valid := fun _ _ => ⟨_, rfl⟩
  validateUpdate := fun _ => .ok ()
  revise := fun fields data => .ok (revise lower fields data)
  revise_valid := fun _ _ _ => ⟨_, rfl⟩
  place := fun ordered ids => ordered.filter fun item => item ∈ ids
  place_nodup := fun _ _ distinct _ => distinct.filter _
  mem_place := by
    intro ordered ids item known
    rw [List.mem_filter, decide_eq_true_eq]
    exact ⟨And.right, fun mem => ⟨known item mem, mem⟩⟩
  kind := DeliveryData.kind
  groupErrors := groupErrors

def deliveryWorkbench (lower : String → String) (itemIds : List String) :
    System (State DeliveryData) (Call DeliveryFields DeliveryFields) :=
  workbench (policy lower) itemIds

inductive DeliveryStrategy where
  | single | combined
  deriving DecidableEq

structure DeliveryEntry where
  deliveryId : String
  strategy : DeliveryStrategy
  caseIds : List String
  reason : String
  deriving DecidableEq

def strategyForItemIds (itemIds : List String) : DeliveryStrategy :=
  if 2 ≤ itemIds.length then .combined else .single

def systemDeliveryId (sha1 : Sha1) (strategy : DeliveryStrategy) (caseIds : List String) : String :=
  match strategy, (dedupeIds caseIds).mergeSort with
  | .single, [caseId] => caseId
  | _, sorted => "combined-" ++ sha1.short 10 ("|".intercalate sorted)

/-- The groups with items, by the position of their first item. -/
def orderedGroups (s : State DeliveryData) : List (ItemGroup DeliveryData) :=
  (s.groups.filter fun group => group.data.kind = "delivery" ∧ group.itemIds ≠ []).mergeSort
    fun a b => s.orderedItemIds.idxOf (a.itemIds.headD "") ≤
      s.orderedItemIds.idxOf (b.itemIds.headD "")

def deliveryEntry (sha1 : Sha1) (group : ItemGroup DeliveryData) : DeliveryEntry where
  deliveryId := systemDeliveryId sha1 (strategyForItemIds group.itemIds) group.itemIds
  strategy := strategyForItemIds group.itemIds
  caseIds := group.itemIds
  reason := if group.data.reason.getD "" = "" then "Independent delivery."
    else group.data.reason.getD ""

def exportDeliveries (sha1 : Sha1) (s : State DeliveryData) : List DeliveryEntry :=
  (orderedGroups s).map (deliveryEntry sha1)

inductive Finished where
  | incomplete (errors : List ConstraintError)
  | ok (deliveries : List DeliveryEntry)

def finish (sha1 : Sha1) (lower : String → String) (s : State DeliveryData) : Finished :=
  if constraints (policy lower) s = [] then .ok (exportDeliveries sha1 s)
  else .incomplete (constraints (policy lower) s)

/-- Every group holds its items in the order of the workbench. -/
def InOrder (ordered : List String) (held : List (String × List String)) : Prop :=
  ∀ group ∈ held, group.2.Sublist ordered

theorem kept_inOrder (lower : String → String) : Kept (policy lower) InOrder where
  added := by
    intro ordered held groupId h _ group mem
    rcases List.mem_append.mp mem with mem | last
    · exact h group mem
    · rw [List.mem_singleton.mp last]
      exact List.nil_sublist ordered
  given := by
    intro ordered held groupId ids h _ _ group mem
    obtain ⟨earlier, before, rfl⟩ := List.mem_map.mp mem
    split
    · exact List.filter_sublist
    · exact List.filter_sublist.trans (h earlier before)
  removed := by
    intro ordered held p h group mem
    exact h group (List.mem_of_mem_filter mem)

section Export

variable {sha1 : Sha1} {lower : String → String} {itemIds : List String} {s : State DeliveryData}

theorem inOrder_reachable (reachable : (deliveryWorkbench lower itemIds).Reachable s)
    {group : ItemGroup DeliveryData} (mem : group ∈ s.groups) :
    group.itemIds.Sublist s.orderedItemIds := by
  have start : InOrder (dedupeIds itemIds) [] := by
    intro group none
    cases none
  exact (kept_inOrder lower).reachable start reachable _
    (List.mem_map_of_mem (f := fun group => (group.groupId, group.itemIds)) mem)

theorem mem_orderedGroups {group : ItemGroup DeliveryData} (mem : group ∈ orderedGroups s) :
    group ∈ s.groups ∧ group.itemIds ≠ [] := by
  rw [orderedGroups, List.mem_mergeSort, List.mem_filter, decide_eq_true_eq] at mem
  exact ⟨mem.1, mem.2.2⟩

theorem constraints_ok (ok : constraints (policy lower) s = []) :
    unprocessedItemIds s = [] ∧ ∀ group ∈ s.groups, group.data.kind = "delivery" := by
  rw [constraints, List.append_eq_nil_iff] at ok
  constructor
  · by_contra left
    rw [if_neg left] at ok
    cases ok.1
  · intro group mem
    have none : groupErrors group = [] := List.flatMap_eq_nil_iff.mp ok.2 group mem
    rw [groupErrors] at none
    by_contra other
    rw [if_pos other] at none
    cases none

/-- The empty groups hold nothing, so leaving them out loses nothing. -/
theorem itemIds_of_deliveries {groups : List (ItemGroup DeliveryData)}
    (kinds : ∀ group ∈ groups, group.data.kind = "delivery") :
    (groups.filter fun group => group.data.kind = "delivery" ∧ group.itemIds ≠ []).flatMap
      ItemGroup.itemIds = groups.flatMap ItemGroup.itemIds := by
  induction groups with
  | nil => rfl
  | cons group rest ih =>
    obtain ⟨kind, others⟩ := List.forall_mem_cons.mp kinds
    by_cases empty : group.itemIds = []
    · rw [List.filter_cons_of_neg (by simp [empty]), List.flatMap_cons, empty, List.nil_append,
        ih others]
    · rw [List.filter_cons_of_pos (by simp [empty, kind]), List.flatMap_cons, ih others,
        List.flatMap_cons]

theorem export_perm (reachable : (deliveryWorkbench lower itemIds).Reachable s)
    (ok : constraints (policy lower) s = []) :
    ((exportDeliveries sha1 s).flatMap DeliveryEntry.caseIds).Perm s.orderedItemIds := by
  obtain ⟨covered, kinds⟩ := constraints_ok ok
  have same : (exportDeliveries sha1 s).flatMap DeliveryEntry.caseIds =
      (orderedGroups s).flatMap ItemGroup.itemIds := by
    rw [exportDeliveries, List.flatMap_map]
    rfl
  have sorted : ((orderedGroups s).flatMap ItemGroup.itemIds).Perm
      ((s.groups.filter fun group => group.data.kind = "delivery" ∧ group.itemIds ≠ []).flatMap
        ItemGroup.itemIds) :=
    (List.mergeSort_perm _ _).flatMap_right _
  have all := items_perm (partitioned_reachable _ reachable) covered
  rw [← itemIds_of_deliveries kinds] at all
  rw [same]
  exact sorted.trans all

end Export

end DeliveryWorkbench
