import SecReviewBot.Agents.WorkbenchRuns

/-!
# Batches and names over whole runs

A batch leaves its groups as the single calls would, but not the counter: `create_groups`
does not move it. The two states are alike as long as the same numbers are free from their
counters on, and regular calls keep them alike, so no later call tells them apart.
-/

namespace Workbench

open FreshNames TransitionSystems

variable {D C U : Type}

def SameGroups (s t : State D) : Prop :=
  s.orderedItemIds = t.orderedItemIds ∧ s.groups = t.groups

structure Like (s t : State D) : Prop where
  same : SameGroups s t
  free : ∀ n, Free groupName s.keys s.nextGroupNumber n ↔ Free groupName t.keys t.nextGroupNumber n
  passed : s.nextGroupNumber ≤ t.nextGroupNumber

theorem SameGroups.keys {s t : State D} (h : SameGroups s t) : s.keys = t.keys := by
  rw [State.keys, State.keys, h.2]

theorem Like.of_counter {s t : State D} (same : SameGroups s t)
    (counter : s.nextGroupNumber = t.nextGroupNumber) : Like s t where
  same := same
  free := fun n => by rw [same.keys, counter]
  passed := Nat.le_of_eq counter

theorem Like.recorded {s t : State D} (h : Like s t) (operation : Operation) :
    Like (recorded operation s) t :=
  ⟨h.same, h.free, h.passed⟩

theorem Like.nextNumber {s t : State D} (h : Like s t) : nextNumber s = nextNumber t := by
  have free := h.free
  rw [h.same.keys] at free
  rw [Workbench.nextNumber, Workbench.nextNumber, h.same.keys]
  exact fresh_congr groupName_injective free

theorem SameGroups.unknownItemIds {s t : State D} (h : SameGroups s t) (ids : List String) :
    unknownItemIds s ids = unknownItemIds t ids := by
  rw [Workbench.unknownItemIds, Workbench.unknownItemIds, h.1]

section Policies

variable (policy : Policy D C U)

theorem SameGroups.giveNamed {s t : State D} (h : SameGroups s t) (groupId : String)
    (itemIds : Option (List String)) :
    SameGroups (giveNamed policy groupId itemIds s) (giveNamed policy groupId itemIds t) := by
  cases itemIds with
  | none => exact h
  | some ids =>
    have items : given policy ids s = given policy ids t := by rw [given, given, h.1]
    refine ⟨h.1, ?_⟩
    rw [Workbench.giveNamed, Workbench.giveNamed, items, giveItems, giveItems, h.2]

theorem SameGroups.withGroup {s t : State D} (h : SameGroups s t) (groupId : String) (data : D)
    (itemIds : Option (List String)) :
    SameGroups (withGroup policy groupId data itemIds s)
      (withGroup policy groupId data itemIds t) := by
  rw [Workbench.withGroup, Workbench.withGroup, h.2]
  refine SameGroups.giveNamed policy ?_ groupId itemIds
  exact ⟨h.1, rfl⟩

theorem SameGroups.withGroups {s t : State D} (h : SameGroups s t)
    (pairs : List (CreateInput C × String)) :
    SameGroups (withGroups policy pairs s) (withGroups policy pairs t) := by
  induction pairs generalizing s t with
  | nil => exact h
  | cons pair later ih =>
    rw [Workbench.withGroups, Workbench.withGroups]
    split
    · exact ih (h.withGroup policy _ _ _)
    · exact ih h

theorem SameGroups.withRevision {s t : State D} (h : SameGroups s t) (groupId : String) (data : D)
    (itemIds : Option (List String)) :
    SameGroups (withRevision policy groupId data itemIds s)
      (withRevision policy groupId data itemIds t) := by
  rw [Workbench.withRevision, Workbench.withRevision, h.2]
  refine SameGroups.giveNamed policy ?_ groupId itemIds
  exact ⟨h.1, rfl⟩

theorem SameGroups.without {s t : State D} (h : SameGroups s t) (groupId : String) :
    SameGroups (without groupId s) (without groupId t) := by
  rw [Workbench.without, Workbench.without, h.2]
  exact ⟨h.1, rfl⟩

theorem SameGroups.withoutAll {s t : State D} (h : SameGroups s t) (groupIds : List String) :
    SameGroups (withoutAll groupIds s) (withoutAll groupIds t) := by
  induction groupIds generalizing s t with
  | nil => exact h
  | cons id later ih => exact ih (h.without id)

theorem SameGroups.updates {s t : State D} (h : SameGroups s t) {input : UpdateInput U}
    {group : ItemGroup D} {data : D} (lets : Updates policy input s group data) :
    Updates policy input t group data where
  found := by
    rw [findGroup, ← h.2]
    exact lets.found
  known := by
    rw [← h.unknownItemIds]
    exact lets.known
  made := lets.made

theorem SameGroups.updatesAll {s t s' : State D} (h : SameGroups s t)
    {inputs : List (UpdateInput U)} {ids : List String}
    (lets : UpdatesAll policy inputs s ids s') :
    ∃ t', UpdatesAll policy inputs t ids t' ∧ SameGroups s' t' := by
  induction lets generalizing t with
  | nil s => exact ⟨t, .nil t, h⟩
  | cons first next ih =>
    obtain ⟨t', later, same⟩ := ih (h.withRevision policy _ _ _)
    exact ⟨t', .cons (h.updates policy first) later, same⟩

theorem SameGroups.accepts {s t : State D} (h : SameGroups s t) {call : Call C U}
    (accepted : Accepts policy s call) : Accepts policy t call := by
  cases call with
  | createGroup input => exact ⟨accepted.1, by rw [← h.unknownItemIds]; exact accepted.2⟩
  | createGroups inputs =>
    refine ⟨accepted.1, fun input mem => ?_⟩
    rw [← h.unknownItemIds]
    exact accepted.2 input mem
  | updateGroup input =>
    obtain ⟨check, group, data, lets⟩ := accepted
    exact ⟨check, group, data, h.updates policy lets⟩
  | updateGroups inputs =>
    obtain ⟨valid, ids, s', lets⟩ := accepted
    obtain ⟨t', lets', _⟩ := h.updatesAll policy lets
    exact ⟨valid, ids, t', lets'⟩
  | deleteGroup groupId => exact accepted
  | deleteGroups groupIds => exact accepted
  | refused reason => exact accepted

theorem SameGroups.symm {s t : State D} (h : SameGroups s t) : SameGroups t s :=
  ⟨h.1.symm, h.2.symm⟩

/-- An accepted call makes the same groups if it gives out the same numbers. -/
theorem SameGroups.performed {s t : State D} (h : SameGroups s t) {call : Call C U}
    (numbers : givenOut s call = givenOut t call) (accepted : Accepts policy s call) :
    SameGroups (performed policy call s).2 (performed policy call t).2 := by
  have accepted' := h.accepts policy accepted
  cases call with
  | createGroup input =>
    obtain ⟨data, made⟩ := checkCreate_data policy accepted.1
    have number : nextNumber s = nextNumber t := List.singleton_inj.mp numbers
    have counted : SameGroups (counted s) (counted t) := h
    rw [performed_createGroup policy accepted.1 accepted.2 made,
      performed_createGroup policy accepted'.1 accepted'.2 made, number]
    exact counted.withGroup policy _ data input.itemIds
  | createGroups inputs =>
    have names : namedInputs inputs s = namedInputs inputs t := by
      rw [givenOut, givenOut] at numbers
      rw [namedInputs, namedInputs, nextCreateGroupIds, nextCreateGroupIds, numbers]
    rw [performed_createGroups policy accepted.1 accepted.2,
      performed_createGroups policy accepted'.1 accepted'.2, names]
    exact h.withGroups policy _
  | updateGroup input =>
    obtain ⟨check, group, data, lets⟩ := accepted
    rw [performed_updateGroup policy check lets,
      performed_updateGroup policy check (h.updates policy lets)]
    exact h.withRevision policy _ data input.itemIds
  | updateGroups inputs =>
    obtain ⟨valid, ids, s', lets⟩ := accepted
    obtain ⟨t', lets', same⟩ := h.updatesAll policy lets
    rw [performed_updateGroups policy valid lets, performed_updateGroups policy valid lets']
    exact same
  | deleteGroup groupId =>
    obtain ⟨deleted, released, result⟩ := performed_deleteGroup policy s accepted
    obtain ⟨deleted', released', result'⟩ := performed_deleteGroup policy t accepted
    rw [result, result']
    exact h.without groupId
  | deleteGroups groupIds =>
    obtain ⟨deleted, released, result⟩ := performed_deleteGroups policy s accepted
    obtain ⟨deleted', released', result'⟩ := performed_deleteGroups policy t accepted
    rw [result, result']
    exact h.withoutAll (dedupeIds groupIds)
  | refused reason => exact absurd accepted id

theorem Like.givenOut {s t : State D} (h : Like s t) (call : Call C U) :
    givenOut s call = givenOut t call := by
  cases call with
  | createGroup input => exact congrArg (fun n => [n]) h.nextNumber
  | createGroups inputs =>
    have number : fresh groupName t.keys s.nextGroupNumber =
        fresh groupName t.keys t.nextGroupNumber := by
      have same := h.nextNumber
      rwa [Workbench.nextNumber, Workbench.nextNumber, h.same.keys] at same
    rw [Workbench.givenOut, Workbench.givenOut, h.same.keys]
    cases inputs with
    | nil => rfl
    | cons input later => rw [List.length_cons, freshMany, freshMany, number]
  | updateGroup input => rfl
  | updateGroups inputs => rfl
  | deleteGroup groupId => rfl
  | deleteGroups groupIds => rfl
  | refused reason => rfl

theorem Like.regular {s t : State D} (h : Like s t) {call : Call C U}
    (regular : Regular policy s call) : Regular policy t call := by
  have passed : ∀ groupId, Passed s groupId → Passed t groupId := by
    intro groupId below n named used
    rw [← h.same.keys] at used
    exact Nat.lt_of_lt_of_le (below n named used) h.passed
  cases call with
  | createGroup input =>
    intro check
    rw [← h.same.unknownItemIds]
    exact regular check
  | createGroups inputs => trivial
  | updateGroup input => trivial
  | updateGroups inputs => trivial
  | deleteGroup groupId => exact passed groupId regular
  | deleteGroups groupIds => exact fun groupId mem => passed groupId (regular groupId mem)
  | refused reason => trivial

/-- Where the counters stay and the same numbers are given out, the same stay free. -/
theorem Names.free_iff {s t : State D} {numbers : List Nat}
    (h : Names s numbers s.nextGroupNumber t) (n : Nat) :
    Free groupName t.keys t.nextGroupNumber n ↔
      Free groupName s.keys s.nextGroupNumber n ∧ n ∉ numbers := by
  rw [Free, Free, h.counts, and_assoc]
  refine and_congr_right fun low => ?_
  rw [h.keys n low, not_or]

/-- One regular call, made in two states that are alike. -/
theorem Like.performed {s t : State D} (h : Like s t) {call : Call C U}
    (regular : Regular policy s call) :
    handedOut (performed policy call s).1 = handedOut (performed policy call t).1 ∧
      Like (performed policy call s).2 (performed policy call t).2 := by
  have regular' := h.regular policy regular
  by_cases accepted : Accepts policy s call
  · have accepted' := h.same.accepts policy accepted
    obtain ⟨⟨result, ok, ids⟩, names⟩ := names_of_accepts policy regular accepted
    obtain ⟨⟨result', ok', ids'⟩, names'⟩ := names_of_accepts policy regular' accepted'
    have numbers := h.givenOut call
    refine ⟨?_, ?_⟩
    · rw [ok, ok', handedOut, handedOut, ids, ids', numbers]
    · have same := h.same.performed policy numbers accepted
      by_cases single : ∃ input, call = .createGroup input
      · obtain ⟨input, rfl⟩ := single
        refine .of_counter same ?_
        rw [names.counts, names'.counts, counterAfter, counterAfter, h.nextNumber]
      · have stays : ∀ u : State D, counterAfter u call = u.nextGroupNumber := by
          intro u
          cases call with
          | createGroup input => exact absurd ⟨input, rfl⟩ single
          | _ => rfl
        rw [stays] at names names'
        refine ⟨same, fun n => ?_, ?_⟩
        · rw [names.free_iff, names'.free_iff, h.free, numbers]
        · rw [names.counts, names'.counts]
          exact h.passed
  · have refused' : ¬ Accepts policy t call := fun accepted' =>
      accepted (h.same.symm.accepts policy accepted')
    obtain ⟨e, result⟩ := performed_of_refused policy regular accepted
    obtain ⟨e', result'⟩ := performed_of_refused policy regular' refused'
    rw [result, result']
    exact ⟨rfl, h⟩

section Runs

variable (itemIds : List String)

/-- The ids handed out by each call made from a state on. -/
def handedOutFrom (s : State D) (calls : List (Call C U)) : List (List String) :=
  ((workbench policy itemIds).stepsFrom s calls).map fun step =>
    handedOut (performed policy step.2 step.1).1

/-- Every call made from a state on is regular. -/
def RegularFrom (s : State D) (calls : List (Call C U)) : Prop :=
  ∀ step ∈ (workbench policy itemIds).stepsFrom s calls, Regular policy step.1 step.2

theorem Like.handedOutFrom {s t : State D} (h : Like s t) {calls : List (Call C U)}
    (regular : RegularFrom policy itemIds s calls) :
    handedOutFrom policy itemIds s calls = handedOutFrom policy itemIds t calls := by
  induction calls generalizing s t with
  | nil => rfl
  | cons call later ih =>
    obtain ⟨first, next⟩ := h.performed policy (regular (s, call) List.mem_cons_self)
    have rest := ih next fun step mem => regular step (List.mem_cons_of_mem _ mem)
    exact congrArg₂ List.cons first rest

/-- The single calls a batch stands for. -/
def singles : Call C U → List (Call C U)
  | .createGroups inputs => inputs.map .createGroup
  | .updateGroups inputs => inputs.map .updateGroup
  | .deleteGroups groupIds => groupIds.map .deleteGroup
  | .createGroup input => [.createGroup input]
  | .updateGroup input => [.updateGroup input]
  | .deleteGroup groupId => [.deleteGroup groupId]
  | .refused reason => [.refused reason]

theorem step_of_performed {call : Call C U} {s t : State D} {outcome : Except String MutationResult}
    (result : performed policy call s = (outcome, t)) :
    (workbench policy itemIds).step s call = t :=
  congrArg Prod.snd result

theorem runFrom_createGroup {inputs : List (CreateInput C)} {s t : State D} (h : SameGroups s t)
    (valid : ∀ input ∈ inputs, checkCreate policy input = .ok ())
    (known : ∀ input ∈ inputs, unknownItemIds t (input.itemIds.getD []) = []) :
    SameGroups
      (withGroups policy (inputs.zip ((freshMany groupName t.keys inputs.length
        t.nextGroupNumber).map groupName)) s)
      ((workbench policy itemIds).runFrom t (inputs.map .createGroup)) ∧
    ((workbench policy itemIds).runFrom t (inputs.map .createGroup)).nextGroupNumber =
      nextAfter (freshMany groupName t.keys inputs.length t.nextGroupNumber)
        t.nextGroupNumber := by
  induction inputs generalizing s t with
  | nil => exact ⟨h, rfl⟩
  | cons input later ih =>
    rw [List.forall_mem_cons] at valid known
    obtain ⟨data, made⟩ := checkCreate_data policy valid.1
    have step : (workbench policy itemIds).step t (.createGroup input) =
        recorded .createGroup
          (withGroup policy (groupName (nextNumber t)) data input.itemIds (counted t)) :=
      step_of_performed policy itemIds (performed_createGroup policy valid.1 known.1 made)
    have keys : ((workbench policy itemIds).step t (.createGroup input)).keys =
        t.keys ++ [groupName (nextNumber t)] := by
      rw [step]
      exact keys_withGroup policy _ _ _ _
    have rest := rest_withGroup policy (groupName (nextNumber t)) data input.itemIds (counted t)
    have number : ((workbench policy itemIds).step t (.createGroup input)).nextGroupNumber =
        nextNumber t + 1 := by
      have same := nextGroupNumber_of_rest rest
      rw [step]
      exact same
    have counted : SameGroups s (counted t) := h
    have same : SameGroups (withGroup policy (groupName (nextNumber t)) data input.itemIds s)
        ((workbench policy itemIds).step t (.createGroup input)) := by
      rw [step]
      exact counted.withGroup policy _ data input.itemIds
    have next := ih same valid.2 fun other mem => by
      have ordered : unknownItemIds ((workbench policy itemIds).step t (.createGroup input))
          (other.itemIds.getD []) = unknownItemIds t (other.itemIds.getD []) := by
        rw [step]
        exact unknownItemIds_of_rest rest _
      rw [ordered]
      exact known.2 other mem
    rw [keys, number] at next
    simp only [List.length_cons, freshMany, List.map_cons, List.zip_cons_cons, withGroups, made,
      nextAfter]
    exact next

theorem runFrom_updateGroup {inputs : List (UpdateInput U)} {s t s' : State D} {ids : List String}
    (h : SameGroups s t) (valid : ∀ input ∈ inputs, checkUpdate policy input = .ok ())
    (lets : UpdatesAll policy inputs s ids s') :
    SameGroups s' ((workbench policy itemIds).runFrom t (inputs.map .updateGroup)) ∧
    ((workbench policy itemIds).runFrom t (inputs.map .updateGroup)).nextGroupNumber =
      t.nextGroupNumber := by
  induction lets generalizing t with
  | nil s => exact ⟨h, rfl⟩
  | @cons input later s s' group data ids first next ih =>
    rw [List.forall_mem_cons] at valid
    have step : (workbench policy itemIds).step t (.updateGroup input) =
        recorded .updateGroup (withRevision policy group.groupId data input.itemIds t) :=
      step_of_performed policy itemIds
        (performed_updateGroup policy valid.1 (h.updates policy first))
    have same : SameGroups (withRevision policy group.groupId data input.itemIds s)
        ((workbench policy itemIds).step t (.updateGroup input)) := by
      rw [step]
      exact h.withRevision policy _ data input.itemIds
    obtain ⟨groups, number⟩ := ih same valid.2
    rw [List.map_cons, System.runFrom]
    refine ⟨groups, number.trans ?_⟩
    have rest := rest_withRevision policy group.groupId data input.itemIds t
    have number := nextGroupNumber_of_rest rest
    rw [step]
    exact number

theorem runFrom_deleteGroup (groupIds : List String) {s t : State D} (h : SameGroups s t) :
    SameGroups (withoutAll groupIds s)
      ((workbench policy itemIds).runFrom t (groupIds.map .deleteGroup)) ∧
    ((workbench policy itemIds).runFrom t (groupIds.map .deleteGroup)).nextGroupNumber =
      t.nextGroupNumber := by
  induction groupIds generalizing s t with
  | nil => exact ⟨h, rfl⟩
  | cons id later ih =>
    have one : SameGroups (without id s) ((workbench policy itemIds).step t (.deleteGroup id)) ∧
        ((workbench policy itemIds).step t (.deleteGroup id)).nextGroupNumber =
          t.nextGroupNumber := by
      by_cases named : normalizedId id = none
      · have refused : ¬ Accepts policy t (.deleteGroup id) := fun accepted => accepted named
        obtain ⟨e, result⟩ := performed_refused policy refused (by simp)
        have absent : findGroup s id = none := by rw [findGroup, named, Option.bind_none]
        rw [without_of_findGroup_none absent, step_of_performed policy itemIds result]
        exact ⟨h, rfl⟩
      · obtain ⟨deleted, released, result⟩ := performed_deleteGroup policy t named
        rw [step_of_performed policy itemIds result]
        exact ⟨h.without id, rfl⟩
    obtain ⟨groups, number⟩ := ih one.1
    rw [List.map_cons, System.runFrom]
    exact ⟨groups, number.trans one.2⟩

theorem groups_withoutAll (groupIds : List String) (s : State D) :
    (withoutAll groupIds s).groups = s.groups.filter fun group =>
      decide (∀ groupId ∈ groupIds, normalizedId groupId ≠ some group.groupId) := by
  induction groupIds generalizing s with
  | nil => simp [withoutAll]
  | cons id later ih =>
    have first : (withoutAll (id :: later) s).groups = (withoutAll later (without id s)).groups :=
      rfl
    rw [first, ih, without, List.filter_filter]
    refine List.filter_congr fun group _ => ?_
    rw [← Bool.decide_and, decide_eq_decide, List.forall_mem_cons, and_comm, ne_comm]

/-- Blank and repeated ids change nothing. -/
theorem sameGroups_dedupeIds (groupIds : List String) (s : State D) :
    SameGroups (withoutAll (dedupeIds groupIds) s) (withoutAll groupIds s) := by
  have ordered : ∀ ids : List String, (withoutAll ids s).orderedItemIds = s.orderedItemIds :=
    fun ids => congrArg Prod.fst (rest_withoutAll ids s)
  refine ⟨(ordered _).trans (ordered _).symm, ?_⟩
  rw [groups_withoutAll, groups_withoutAll]
  refine List.filter_congr fun group _ => ?_
  rw [decide_eq_decide]
  constructor
  · intro others id mem same
    have kept : group.groupId ∈ dedupeIds groupIds := mem_dedupeIds.mpr ⟨id, mem, same⟩
    exact others _ kept (normalizedId_fixed same)
  · intro others id mem same
    obtain ⟨value, given, trimmed⟩ := mem_dedupeIds.mp mem
    rw [normalizedId_fixed trimmed] at same
    exact others value given (trimmed.trans same)

/-- After an accepted batch and after its single calls the states are alike. -/
theorem like_singles {s : State D} {call : Call C U} (accepted : Accepts policy s call) :
    Like (performed policy call s).2 ((workbench policy itemIds).runFrom s (singles call)) := by
  have here : SameGroups s s := ⟨rfl, rfl⟩
  have one : ∀ single : Call C U, (workbench policy itemIds).runFrom s [single] =
      (performed policy single s).2 := fun _ => rfl
  cases call with
  | createGroup input =>
    rw [singles, one]
    exact .of_counter ⟨rfl, rfl⟩ rfl
  | createGroups inputs =>
    have lets := creates_namedInputs policy accepted.1 accepted.2
    obtain ⟨same, number⟩ := runFrom_createGroup policy itemIds here accepted.1 accepted.2
    have keys := keys_withGroups policy lets
    rw [namedInputs_snd] at keys
    rw [← nextCreateGroupIds, ← namedInputs] at same
    have counter := nextGroupNumber_of_rest (rest_withGroups policy (namedInputs inputs s) s)
    rw [performed_createGroups policy accepted.1 accepted.2, singles]
    refine Like.recorded ⟨same, fun n => ?_, ?_⟩ .createGroups
    · rw [← same.keys, keys, counter, number, nextCreateGroupIds]
      exact free_nextAfter_iff s.keys inputs.length s.nextGroupNumber n
    · rw [counter, number]
      exact nextAfter_ge s.keys inputs.length s.nextGroupNumber
  | updateGroup input =>
    rw [singles, one]
    exact .of_counter ⟨rfl, rfl⟩ rfl
  | updateGroups inputs =>
    obtain ⟨valid, ids, t, lets⟩ := accepted
    obtain ⟨same, number⟩ := runFrom_updateGroup policy itemIds here valid lets
    rw [performed_updateGroups policy valid lets, singles]
    refine Like.recorded (.of_counter same ?_) .updateGroups
    rw [number]
    exact nextGroupNumber_of_rest (rest_updatesAll policy lets)
  | deleteGroup groupId =>
    rw [singles, one]
    exact .of_counter ⟨rfl, rfl⟩ rfl
  | deleteGroups groupIds =>
    obtain ⟨deleted, released, result⟩ := performed_deleteGroups policy s accepted
    obtain ⟨same, number⟩ := runFrom_deleteGroup policy itemIds groupIds here
    have all := sameGroups_dedupeIds groupIds s
    rw [result, singles]
    refine Like.recorded (.of_counter ⟨all.1.trans same.1, all.2.trans same.2⟩ ?_) .deleteGroups
    rw [number]
    exact nextGroupNumber_of_rest (rest_withoutAll (dedupeIds groupIds) s)
  | refused reason => exact absurd accepted id

/-- Ids handed out so far name numbers that are passed or in use. -/
def Spent (issued : List String) (s : State D) : Prop :=
  ∀ id ∈ issued, ∃ n, id = groupName n ∧ (n < s.nextGroupNumber ∨ groupName n ∈ s.keys)

theorem Spent.performed {issued : List String} {s : State D} {call : Call C U}
    (h : Spent issued s) (distinct : issued.Nodup) (regular : Regular policy s call) :
    (issued ++ handedOut (performed policy call s).1).Nodup ∧
      Spent (issued ++ handedOut (performed policy call s).1) (performed policy call s).2 := by
  obtain ⟨numbers, ids, counter, names⟩ := names_of_regular policy regular
  rw [ids]
  constructor
  · refine distinct.append (names.distinct.map groupName_injective) ?_
    intro id old new
    obtain ⟨n, rfl, spent⟩ := h id old
    obtain ⟨m, given, same⟩ := List.mem_map.mp new
    obtain ⟨low, absent⟩ := names.free m given
    rw [groupName_injective same] at low absent
    rcases spent with below | used
    · omega
    · exact absent used
  · intro id mem
    rcases List.mem_append.mp mem with old | new
    · obtain ⟨n, rfl, spent⟩ := h id old
      refine ⟨n, rfl, ?_⟩
      rw [names.counts]
      have passes := names.passes
      rcases Nat.lt_or_ge n s.nextGroupNumber with below | low
      · exact .inl (by omega)
      · have used : groupName n ∈ s.keys := spent.resolve_left (by omega)
        exact .inr ((names.keys n low).mpr (.inl used))
    · obtain ⟨m, given, rfl⟩ := List.mem_map.mp new
      exact ⟨m, rfl, .inr ((names.keys m (names.free m given).1).mpr (.inr given))⟩

theorem Spent.handedOutFrom {issued : List String} {s : State D} {calls : List (Call C U)}
    (h : Spent issued s) (distinct : issued.Nodup) (regular : RegularFrom policy itemIds s calls) :
    (issued ++ (handedOutFrom policy itemIds s calls).flatten).Nodup := by
  induction calls generalizing issued s with
  | nil => simpa [Workbench.handedOutFrom, System.stepsFrom] using distinct
  | cons call later ih =>
    obtain ⟨distinct', spent⟩ :=
      h.performed policy distinct (regular (s, call) List.mem_cons_self)
    have rest := ih spent distinct' fun step mem => regular step (List.mem_cons_of_mem _ mem)
    rw [List.append_assoc] at rest
    exact rest

/-- Over a run: a call that raises leaves no trace, a batch equals its single calls, and no
id is handed out twice. -/
structure Reliable (calls : List (Call C U)) : Prop where
  atomic : ∀ step ∈ (workbench policy itemIds).steps calls, ∀ e,
    (performed policy step.2 step.1).1 = .error e → (performed policy step.2 step.1).2 = step.1
  sequential : ∀ earlier call later, calls = earlier ++ call :: later →
    ∀ result, (performed policy call ((workbench policy itemIds).run earlier)).1 = .ok result →
      ((workbench policy itemIds).run (earlier ++ [call])).groups =
        ((workbench policy itemIds).run (earlier ++ singles call)).groups ∧
      handedOutFrom policy itemIds ((workbench policy itemIds).run (earlier ++ [call])) later =
        handedOutFrom policy itemIds ((workbench policy itemIds).run (earlier ++ singles call)) later
  distinct : (handedOutFrom policy itemIds (workbench policy itemIds).initial calls).flatten.Nodup

theorem accepts_of_ok {s : State D} {call : Call C U} {result : MutationResult}
    (regular : Regular policy s call) (ok : (performed policy call s).1 = .ok result) :
    Accepts policy s call := by
  by_contra refused
  obtain ⟨e, raises⟩ := performed_of_refused policy regular refused
  rw [raises] at ok
  cases ok

theorem performed_of_error {s : State D} {call : Call C U} {e : String}
    (regular : Regular policy s call) (raises : (performed policy call s).1 = .error e) :
    (performed policy call s).2 = s := by
  by_cases accepted : Accepts policy s call
  · obtain ⟨⟨result, ok, _⟩, _⟩ := names_of_accepts policy regular accepted
    rw [ok] at raises
    cases raises
  · obtain ⟨e', result⟩ := performed_of_refused policy regular accepted
    rw [result]

theorem reliable_of_regular {calls : List (Call C U)}
    (regular : RegularFrom policy itemIds (workbench policy itemIds).initial calls) :
    Reliable policy itemIds calls where
  atomic := fun step mem _ raises => performed_of_error policy (regular step mem) raises
  sequential := by
    rintro earlier call later rfl result ok
    rw [RegularFrom, System.stepsFrom_append, List.forall_mem_append] at regular
    obtain ⟨here, after⟩ := List.forall_mem_cons.mp regular.2
    have alike := like_singles policy itemIds (accepts_of_ok policy here ok)
    have batch : (workbench policy itemIds).run (earlier ++ [call]) =
        (performed policy call ((workbench policy itemIds).run earlier)).2 :=
      (workbench policy itemIds).run_concat earlier call
    have sequence : (workbench policy itemIds).run (earlier ++ singles call) =
        (workbench policy itemIds).runFrom ((workbench policy itemIds).run earlier)
          (singles call) :=
      (workbench policy itemIds).runFrom_append _ earlier (singles call)
    rw [batch, sequence]
    exact ⟨alike.same.2, alike.handedOutFrom policy itemIds after⟩
  distinct := by
    have fresh : Spent [] (workbench policy itemIds).initial := by
      intro id mem
      cases mem
    simpa using fresh.handedOutFrom policy itemIds List.nodup_nil regular

end Runs

end Policies

end Workbench
