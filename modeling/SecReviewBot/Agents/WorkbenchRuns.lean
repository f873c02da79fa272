import SecReviewBot.Agents.WorkbenchEdits

/-!
# Runs of a workbench

What every call keeps: the groups hold known items, each at most once. What regular calls
keep besides: a call is all or nothing, a batch is the sequence of its single calls, and
no name is given out twice. A call is irregular when it asks `create_group` for unknown
items or deletes a group whose number the counter has not passed.
-/

namespace Workbench

open TextCodecs TextPieces FreshNames KeyedGroups FirstOccurrences ThrowingPrograms
open TransitionSystems

variable {D C U : Type}

section Invariants

variable (policy : Policy D C U)

/-- A property of states that no single edit breaks. -/
structure Invariant (I : State D → Prop) : Prop where
  recorded : ∀ {s : State D} (operation : Operation), I s → I (recorded operation s)
  counted : ∀ {s : State D}, I s → I (counted s)
  added : ∀ {s : State D} {groupId : String} {fields : C} {data : D}
    {itemIds : Option (List String)}, I s → groupId ∉ s.keys →
      policy.newGroup fields = .ok data → unknownItemIds s (itemIds.getD []) = [] →
        I (withGroup policy groupId data itemIds s)
  revised : ∀ {s : State D} {input : UpdateInput U} {group : ItemGroup D} {data : D}, I s →
    Updates policy input s group data → I (withRevision policy group.groupId data input.itemIds s)
  removed : ∀ {s : State D} (groupId : String), I s → I (without groupId s)

variable {policy} {I : State D → Prop}

theorem Invariant.withGroups (kept : Invariant policy I) {pairs : List (CreateInput C × String)}
    {s : State D} (h : I s) (lets : Creates policy s pairs) : I (withGroups policy pairs s) := by
  induction pairs generalizing s with
  | nil => exact h
  | cons pair later ih =>
    obtain ⟨data, made⟩ := lets.valid pair List.mem_cons_self
    simp only [Workbench.withGroups, made]
    exact ih (kept.added h (lets.new pair List.mem_cons_self) made
      (lets.known pair List.mem_cons_self)) lets.tail

theorem Invariant.updatesAll (kept : Invariant policy I) {inputs : List (UpdateInput U)}
    {s t : State D} {ids : List String} (h : I s) (lets : UpdatesAll policy inputs s ids t) :
    I t := by
  induction lets with
  | nil s => exact h
  | cons first next ih => exact ih (kept.revised h first)

theorem Invariant.withoutAll (kept : Invariant policy I) {s : State D} (h : I s)
    (groupIds : List String) : I (withoutAll groupIds s) := by
  induction groupIds generalizing s with
  | nil => exact h
  | cons id later ih => exact ih (kept.removed id h)

/-- What no single edit breaks no call breaks, also when it raises. -/
theorem Invariant.performed (kept : Invariant policy I) {s : State D} (h : I s) (call : Call C U) :
    I (performed policy call s).2 := by
  by_cases accepted : Accepts policy s call
  · cases call with
    | createGroup input =>
      obtain ⟨check, known⟩ := accepted
      obtain ⟨data, made⟩ := checkCreate_data policy check
      rw [performed_createGroup policy check known made]
      exact kept.recorded _ (kept.added (kept.counted h) (nextNumber_notMem s) made known)
    | createGroups inputs =>
      rw [performed_createGroups policy accepted.1 accepted.2]
      exact kept.recorded _
        (kept.withGroups h (creates_namedInputs policy accepted.1 accepted.2))
    | updateGroup input =>
      obtain ⟨check, group, data, lets⟩ := accepted
      rw [performed_updateGroup policy check lets]
      exact kept.recorded _ (kept.revised h lets)
    | updateGroups inputs =>
      obtain ⟨valid, ids, t, lets⟩ := accepted
      rw [performed_updateGroups policy valid lets]
      exact kept.recorded _ (kept.updatesAll h lets)
    | deleteGroup groupId =>
      obtain ⟨deleted, released, result⟩ := performed_deleteGroup policy s accepted
      rw [result]
      exact kept.recorded _ (kept.removed groupId h)
    | deleteGroups groupIds =>
      obtain ⟨deleted, released, result⟩ := performed_deleteGroups policy s accepted
      rw [result]
      exact kept.recorded _ (kept.withoutAll h (dedupeIds groupIds))
    | refused reason => exact absurd accepted id
  · by_cases single : ∃ input, call = .createGroup input
    · obtain ⟨input, rfl⟩ := single
      obtain ⟨e, result⟩ := performed_createGroup_refused policy accepted
      rw [result]
      split
      · exact kept.counted h
      · exact h
    · obtain ⟨e, result⟩ := performed_refused policy accepted fun input same =>
        single ⟨input, same⟩
      rw [result]
      exact h

theorem Invariant.reachable (kept : Invariant policy I) {itemIds : List String}
    (initially : I (emptyState itemIds)) {s : State D}
    (reachable : (workbench policy itemIds).Reachable s) : I s :=
  @System.reachable_invariant _ _ (workbench policy itemIds) I initially
    (fun _ call h => kept.performed h call) s reachable

end Invariants

/-- Which group holds what. -/
def holdings (s : State D) : List (String × List String) :=
  s.groups.map fun group => (group.groupId, group.itemIds)

theorem holdings_giveItems (groupId : String) (items : List String) (s : State D) :
    holdings (giveItems groupId items s) = reassign groupId items (holdings s) := by
  rw [holdings, giveItems, reassign, holdings, List.map_map, List.map_map]
  refine List.map_congr_left fun group _ => ?_
  simp only [Function.comp_apply]
  split <;> rfl

theorem keys_holdings (s : State D) : (holdings s).map Prod.fst = s.keys := by
  rw [holdings, List.map_map]
  rfl

section Policies

variable (policy : Policy D C U)

/-- A property of the known items and the holdings that no single edit breaks. -/
structure Kept (P : List String → List (String × List String) → Prop) : Prop where
  added : ∀ {ordered held} {groupId : String}, P ordered held → groupId ∉ held.map Prod.fst →
    P ordered (held ++ [(groupId, [])])
  given : ∀ {ordered held} (groupId : String) {ids : List String}, P ordered held → ids.Nodup →
    (∀ id ∈ ids, id ∈ ordered) → P ordered (reassign groupId (policy.place ordered ids) held)
  removed : ∀ {ordered held} (p : String × List String → Bool), P ordered held →
    P ordered (held.filter p)

def Holds (P : List String → List (String × List String) → Prop) (s : State D) : Prop :=
  P s.orderedItemIds (holdings s)

variable {policy} {P : List String → List (String × List String) → Prop}

theorem Kept.giveNamed (kept : Kept policy P) {s : State D} (h : Holds P s) (groupId : String)
    {itemIds : Option (List String)} (known : unknownItemIds s (itemIds.getD []) = []) :
    Holds P (giveNamed policy groupId itemIds s) := by
  cases itemIds with
  | none => exact h
  | some ids =>
    rw [Holds, Workbench.giveNamed, holdings_giveItems]
    exact kept.given groupId h (nodup_dedupeIds ids) (unknownItemIds_eq_nil_iff.mp known)

theorem Kept.withGroup (kept : Kept policy P) {s : State D} (h : Holds P s) {groupId : String}
    {data : D} {itemIds : Option (List String)} (new : groupId ∉ s.keys)
    (known : unknownItemIds s (itemIds.getD []) = []) :
    Holds P (withGroup policy groupId data itemIds s) := by
  refine kept.giveNamed ?_ groupId known
  rw [← keys_holdings] at new
  have more : holdings { s with groups := s.groups ++ [{ groupId, data, itemIds := [] }] } =
      holdings s ++ [(groupId, [])] := by
    rw [holdings, List.map_append]
    rfl
  rw [Holds, more]
  exact kept.added h new

theorem Kept.withRevision (kept : Kept policy P) {s : State D} (h : Holds P s) {groupId : String}
    {data : D} {itemIds : Option (List String)}
    (known : unknownItemIds s (itemIds.getD []) = []) :
    Holds P (withRevision policy groupId data itemIds s) := by
  refine kept.giveNamed ?_ groupId known
  have same : holdings { s with
      groups := s.groups.map fun other =>
        if other.groupId = groupId then { other with data } else other } = holdings s := by
    rw [holdings, holdings, List.map_map]
    refine List.map_congr_left fun group _ => ?_
    rw [Function.comp_apply]
    split <;> rfl
  rw [Holds, same]
  exact h

theorem Kept.without (kept : Kept policy P) {s : State D} (h : Holds P s) (groupId : String) :
    Holds P (without groupId s) := by
  have fewer : holdings (Workbench.without groupId s) =
      (holdings s).filter fun group => some group.1 ≠ normalizedId groupId := by
    rw [holdings, Workbench.without, holdings, List.filter_map]
    rfl
  rw [Holds, fewer]
  exact kept.removed _ h

theorem Kept.invariant (kept : Kept policy P) : Invariant policy (Holds P) where
  recorded := fun _ h => h
  counted := fun h => h
  added := fun h new _ known => kept.withGroup h new known
  revised := fun h lets => kept.withRevision h lets.known
  removed := fun groupId h => kept.without h groupId

theorem Kept.reachable (kept : Kept policy P) {itemIds : List String}
    (initially : P (dedupeIds itemIds) []) {s : State D}
    (reachable : (workbench policy itemIds).Reachable s) : Holds P s :=
  kept.invariant.reachable initially reachable

structure Partitioned (ordered : List String) (held : List (String × List String)) : Prop where
  distinct : ordered.Nodup
  once : HeldOnce held
  known : ∀ group ∈ held, ∀ item ∈ group.2, item ∈ ordered

theorem kept_partitioned (policy : Policy D C U) : Kept policy Partitioned where
  added := by
    intro ordered held groupId h new
    refine ⟨h.distinct, h.once.concat fun group mem same => ?_, fun group mem item holds => ?_⟩
    · exact new (List.mem_map.mpr ⟨group, mem, same⟩)
    · rcases List.mem_append.mp mem with mem | last
      · exact h.known group mem item holds
      · rw [List.mem_singleton.mp last] at holds
        cases holds
  given := by
    intro ordered held groupId ids h distinct named
    refine ⟨h.distinct, h.once.reassign groupId (policy.place_nodup _ _ h.distinct distinct), ?_⟩
    intro group mem item holds
    rcases mem_of_mem_reassign mem holds with mine | ⟨earlier, before, holds⟩
    · exact named item ((policy.mem_place _ _ item named).mp mine)
    · exact h.known earlier before item holds
  removed := by
    intro ordered held p h
    exact ⟨h.distinct, h.once.filter p, fun group mem =>
      h.known group (List.mem_of_mem_filter mem)⟩

theorem partitioned_reachable (policy : Policy D C U) {itemIds : List String} {s : State D}
    (reachable : (workbench policy itemIds).Reachable s) : Holds Partitioned s :=
  (kept_partitioned policy).reachable ⟨nodup_dedupeIds itemIds, HeldOnce.nil, by simp⟩ reachable

/-- With no item left over the groups hold every known item once. -/
theorem items_perm {s : State D} (h : Holds Partitioned s) (covered : unprocessedItemIds s = []) :
    (s.groups.flatMap ItemGroup.itemIds).Perm s.orderedItemIds := by
  have flat : (holdings s).flatMap Prod.snd = s.groups.flatMap ItemGroup.itemIds := by
    rw [holdings, List.flatMap_map]
  rw [← flat]
  refine h.once.perm h.distinct h.known fun item mem => ?_
  rw [unprocessedItemIds, List.filter_eq_nil_iff] at covered
  have placed : item ∈ (holdings s).flatMap Prod.snd := by
    rw [flat]
    simpa using covered item mem
  obtain ⟨group, held, holds⟩ := List.mem_flatMap.mp placed
  exact ⟨group, held, holds⟩

/-- The items known to a workbench never change. -/
theorem orderedItemIds_reachable (policy : Policy D C U) {itemIds : List String} {s : State D}
    (reachable : (workbench policy itemIds).Reachable s) :
    s.orderedItemIds = dedupeIds itemIds := by
  have kept : Kept policy fun ordered _ => ordered = dedupeIds itemIds :=
    ⟨fun h _ => h, fun _ _ h _ _ => h, fun _ h => h⟩
  exact kept.reachable rfl reachable

end Policies

/-- The ids a call hands out. -/
def handedOut : Except String MutationResult → List String
  | .ok result => result.createdGroupIds
  | .error _ => []

/-- The numbers behind them. -/
def givenOut (s : State D) : Call C U → List Nat
  | .createGroup _ => [nextNumber s]
  | .createGroups inputs => freshMany groupName s.keys inputs.length s.nextGroupNumber
  | _ => []

def counterAfter (s : State D) : Call C U → Nat
  | .createGroup _ => nextNumber s + 1
  | _ => s.nextGroupNumber

/-- The counter is past the number of the group an id means. -/
def Passed (s : State D) (groupId : String) : Prop :=
  ∀ n, normalizedId groupId = some (groupName n) → groupName n ∈ s.keys → n < s.nextGroupNumber

/-- What a call must respect for the results below. -/
def Regular (policy : Policy D C U) (s : State D) : Call C U → Prop
  | .createGroup input =>
    checkCreate policy input = .ok () → unknownItemIds s (input.itemIds.getD []) = []
  | .deleteGroup groupId => Passed s groupId
  | .deleteGroups groupIds => ∀ groupId ∈ groupIds, Passed s groupId
  | _ => True

/-- The names in use after a call that gave out `numbers`: from the counter on, only these
are added and none is dropped. -/
structure Names (s : State D) (numbers : List Nat) (counter : Nat) (t : State D) : Prop where
  free : ∀ n ∈ numbers, Free groupName s.keys s.nextGroupNumber n
  distinct : numbers.Nodup
  counts : t.nextGroupNumber = counter
  passes : s.nextGroupNumber ≤ counter
  keys : ∀ n, s.nextGroupNumber ≤ n →
    (groupName n ∈ t.keys ↔ groupName n ∈ s.keys ∨ n ∈ numbers)

theorem Names.unchanged {s t : State D} (counts : t.nextGroupNumber = s.nextGroupNumber)
    (keys : ∀ n, s.nextGroupNumber ≤ n → (groupName n ∈ t.keys ↔ groupName n ∈ s.keys)) :
    Names s [] s.nextGroupNumber t where
  free := by simp
  distinct := List.nodup_nil
  counts := counts
  passes := Nat.le_refl _
  keys := fun n low => by simpa using keys n low

theorem Names.recorded {s t : State D} {numbers : List Nat} {counter : Nat}
    (h : Names s numbers counter t) (operation : Operation) :
    Names s numbers counter (recorded operation t) :=
  ⟨h.free, h.distinct, h.counts, h.passes, h.keys⟩

theorem mem_dedupeIds {values : List String} {id : String} :
    id ∈ dedupeIds values ↔ ∃ value ∈ values, normalizedId value = some id := by
  rw [dedupeIds, List.mem_eraseDups, List.mem_filterMap]

theorem mem_keys_withoutAll {groupIds : List String} {s : State D} {key : String} :
    key ∈ (withoutAll groupIds s).keys ↔
      key ∈ s.keys ∧ ∀ groupId ∈ groupIds, normalizedId groupId ≠ some key := by
  induction groupIds generalizing s with
  | nil => simp [withoutAll]
  | cons id later ih =>
    have first : key ∈ (without id s).keys ↔ key ∈ s.keys ∧ normalizedId id ≠ some key := by
      have fewer : (without id s).keys =
          s.keys.filter fun key => some key ≠ normalizedId id := by
        rw [State.keys, without, State.keys, List.filter_map]
        rfl
      rw [fewer, List.mem_filter, decide_eq_true_eq, ne_comm]
    rw [List.forall_mem_cons, ← and_assoc, ← first]
    exact ih

theorem nextGroupNumber_of_rest {s t : State D} (same : rest t = rest s) :
    t.nextGroupNumber = s.nextGroupNumber :=
  congrArg (fun parts => parts.2.2) same

theorem names_withoutAll {groupIds : List String} {s : State D}
    (passed : ∀ groupId ∈ groupIds, Passed s groupId) :
    Names s [] s.nextGroupNumber (withoutAll groupIds s) := by
  refine .unchanged (nextGroupNumber_of_rest (rest_withoutAll groupIds s)) fun n low => ?_
  rw [mem_keys_withoutAll]
  constructor
  · exact And.left
  · intro used
    refine ⟨used, fun groupId mem same => ?_⟩
    have below := passed groupId mem n same used
    omega

section Policies

variable (policy : Policy D C U)

theorem keys_updatesAll {inputs : List (UpdateInput U)} {s t : State D} {ids : List String}
    (lets : UpdatesAll policy inputs s ids t) : t.keys = s.keys := by
  induction lets with
  | nil s => rfl
  | cons first next ih => rw [ih, keys_withRevision]

theorem passed_dedupeIds {s : State D} {groupIds : List String}
    (passed : ∀ groupId ∈ groupIds, Passed s groupId) :
    ∀ groupId ∈ dedupeIds groupIds, Passed s groupId := by
  intro id mem n same used
  obtain ⟨value, given, trimmed⟩ := mem_dedupeIds.mp mem
  have own := normalizedId_fixed trimmed
  rw [own] at same
  exact passed value given n (trimmed.trans same) used

theorem createdGroupIds_mutationResult (operation : Operation)
    (created changed deleted items : List String) (unprocessed : Option (List String))
    (s : State D) :
    (mutationResult policy operation created changed deleted items unprocessed s).createdGroupIds =
      dedupeIds created := rfl

theorem dedupeIds_groupNames {numbers : List Nat} (distinct : numbers.Nodup) :
    dedupeIds (numbers.map groupName) = numbers.map groupName := by
  refine dedupeIds_eq_self (fun id mem => ?_) (distinct.map groupName_injective)
  obtain ⟨n, _, rfl⟩ := List.mem_map.mp mem
  exact normalizedId_groupName n

/-- A regular call that does not raise. -/
theorem names_of_accepts {s : State D} {call : Call C U} (regular : Regular policy s call)
    (accepted : Accepts policy s call) :
    (∃ result, (performed policy call s).1 = .ok result ∧
      result.createdGroupIds = (givenOut s call).map groupName) ∧
    Names s (givenOut s call) (counterAfter s call) (performed policy call s).2 := by
  cases call with
  | createGroup input =>
    obtain ⟨check, known⟩ := accepted
    obtain ⟨data, made⟩ := checkCreate_data policy check
    rw [performed_createGroup policy check known made]
    have low := fresh_ge groupName s.keys s.nextGroupNumber
    refine ⟨⟨_, rfl, ?_⟩, ?_⟩
    · have own := dedupeIds_groupNames (List.nodup_singleton (nextNumber s))
      rw [List.map_singleton] at own
      rw [createdGroupIds_mutationResult, own, givenOut, List.map_singleton]
    · refine Names.recorded ⟨fun n mem => ?_, List.nodup_singleton _,
        nextGroupNumber_of_rest (rest_withGroup policy _ data input.itemIds (counted s)),
        Nat.le_succ_of_le low, fun n _ => ?_⟩ .createGroup
      · rw [List.mem_singleton.mp mem]
        exact fresh_free groupName_injective s.keys s.nextGroupNumber
      · have more : (withGroup policy (groupName (nextNumber s)) data input.itemIds
            (counted s)).keys = s.keys ++ [groupName (nextNumber s)] :=
          keys_withGroup policy _ _ _ _
        rw [more, List.mem_append, List.mem_singleton, groupName_injective.eq_iff,
          List.mem_singleton]
  | createGroups inputs =>
    have lets := creates_namedInputs policy accepted.1 accepted.2
    rw [performed_createGroups policy accepted.1 accepted.2]
    refine ⟨⟨_, rfl, ?_⟩, ?_⟩
    · have own := dedupeIds_groupNames
        (freshMany_nodup groupName_injective s.keys inputs.length s.nextGroupNumber)
      rw [createdGroupIds_mutationResult, nextCreateGroupIds, own, givenOut]
    · refine Names.recorded ⟨freshMany_free groupName_injective _ _ _,
        freshMany_nodup groupName_injective _ _ _,
        nextGroupNumber_of_rest (rest_withGroups policy (namedInputs inputs s) s), Nat.le_refl _,
        fun n _ => ?_⟩ .createGroups
      rw [keys_withGroups policy lets, namedInputs_snd, List.mem_append, nextCreateGroupIds,
        List.mem_map_of_injective groupName_injective]
  | updateGroup input =>
    obtain ⟨check, group, data, lets⟩ := accepted
    rw [performed_updateGroup policy check lets]
    refine ⟨⟨_, rfl, rfl⟩, Names.recorded (.unchanged
      (nextGroupNumber_of_rest (rest_withRevision policy _ _ _ s)) fun n _ => ?_) .updateGroup⟩
    rw [keys_withRevision]
  | updateGroups inputs =>
    obtain ⟨valid, ids, t, lets⟩ := accepted
    rw [performed_updateGroups policy valid lets]
    refine ⟨⟨_, rfl, rfl⟩, Names.recorded (.unchanged
      (nextGroupNumber_of_rest (rest_updatesAll policy lets)) fun n _ => ?_) .updateGroups⟩
    rw [keys_updatesAll policy lets]
  | deleteGroup groupId =>
    obtain ⟨deleted, released, result⟩ := performed_deleteGroup policy s accepted
    rw [result]
    have passed : ∀ id ∈ [groupId], Passed s id := by
      intro id mem
      rw [List.mem_singleton.mp mem]
      exact regular
    exact ⟨⟨_, rfl, rfl⟩, Names.recorded (names_withoutAll passed) .deleteGroup⟩
  | deleteGroups groupIds =>
    obtain ⟨deleted, released, result⟩ := performed_deleteGroups policy s accepted
    rw [result]
    exact ⟨⟨_, rfl, rfl⟩, Names.recorded (names_withoutAll (passed_dedupeIds regular))
      .deleteGroups⟩
  | refused reason => exact absurd accepted id

/-- A regular call that raises is as if it had not been made. -/
theorem performed_of_refused {s : State D} {call : Call C U} (regular : Regular policy s call)
    (refused : ¬ Accepts policy s call) : ∃ e, performed policy call s = (.error e, s) := by
  by_cases single : ∃ input, call = .createGroup input
  · obtain ⟨input, rfl⟩ := single
    obtain ⟨e, result⟩ := performed_createGroup_refused policy refused
    have invalid : ¬ checkCreate policy input = .ok () := fun check =>
      refused ⟨check, regular check⟩
    rw [if_neg invalid] at result
    exact ⟨e, result⟩
  · exact performed_refused policy refused fun input same => single ⟨input, same⟩

/-- A regular call gives out free names, and keeps those not passed by the counter. -/
theorem names_of_regular {s : State D} {call : Call C U} (regular : Regular policy s call) :
    ∃ numbers, handedOut (performed policy call s).1 = numbers.map groupName ∧
      ∃ counter, Names s numbers counter (performed policy call s).2 := by
  by_cases accepted : Accepts policy s call
  · obtain ⟨⟨result, ok, ids⟩, names⟩ := names_of_accepts policy regular accepted
    refine ⟨givenOut s call, ?_, _, names⟩
    rw [ok]
    exact ids
  · obtain ⟨e, result⟩ := performed_of_refused policy regular accepted
    rw [result]
    exact ⟨[], rfl, s.nextGroupNumber, .unchanged rfl fun _ _ => Iff.rfl⟩

end Policies

end Workbench
