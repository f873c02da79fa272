import Mathlib.Data.List.Pairwise
import Mathlib.Data.List.ReduceOption
import SecReviewBot.Agents.TriageBatches

/-!
# Merged triage drafts

The drafts of the batches complete in any order and are collected by the number of their
batch. Collecting goes through `create_groups` of the one workbench, which checks the groups
again, numbers them anew and takes their items away from other groups; the batches hold
different items, so no group loses any.
-/

namespace BatchMerging

open TextCodecs FirstOccurrences KeyedGroups TransitionSystems BoundedFanOut Workbench
open DiscoveryStage TriageWorkbench TriageStage BucketPacking TriageBatches

section Collecting

variable (services : Services) (candidates : List DiscoveryCandidateResult)
  (batches : List (List String)) (edits : Edits)

/-- The workbenches of the batches after their drafts, the first with this number. -/
def draftedStates : Nat → List (List String) → List (State TriageData)
  | _, [] => []
  | index, batch :: rest =>
    (triageWorkbench services.lower (batchCandidates candidates batch)).run (edits.batch index) ::
      draftedStates (index + 1) rest

/-- `run_batch`: the number of a batch and its drafts. -/
def runBatch (task : Nat) : Nat × List (CreateInput TriageFields) :=
  (task + 1, groupDrafts ((triageWorkbench services.lower
    (batchCandidates candidates (batches.getD task []))).run (edits.batch (task + 1))))

/-- `asyncio.gather`: a draft is stored at the place of its batch, whenever it completes. -/
def gathered (order : List Nat) : List (Option (Nat × List (CreateInput TriageFields))) :=
  store id (fun task => some (runBatch services candidates batches edits task)) order
    (List.replicate batches.length none)

/-- The loop over the numbers of the batches. -/
def createAll (lower : String → String) (indexed : List (Nat × List (CreateInput TriageFields))) :
    List Nat → State TriageData → Except String (State TriageData)
  | [], s => .ok s
  | index :: rest, s =>
    match indexed.lookup index with
    | none => .error "KeyError"
    | some [] => createAll lower indexed rest s
    | some (draft :: drafts) =>
      match performed (policy lower) (.createGroups (draft :: drafts)) s with
      | (.error e, _) => .error e
      | (.ok _, next) => createAll lower indexed rest next

/-- The workbench before refinement, where the drafts complete in this order. -/
def mergedWorkbench (order : List Nat) : Except String (State TriageData) :=
  createAll services.lower (gathered services candidates batches edits order).reduceOption
    (List.range' 1 batches.length) (triageWorkbench services.lower candidates).initial

/-- The drafts one after another. -/
def collect (lower : String → String) :
    List (State TriageData) → State TriageData → Except String (State TriageData)
  | [], s => .ok s
  | drafted :: rest, s =>
    if groupDrafts drafted = [] then collect lower rest s
    else match performed (policy lower) (.createGroups (groupDrafts drafted)) s with
      | (.error e, _) => .error e
      | (.ok _, next) => collect lower rest next

theorem adoptDrafts_eq (index : Nat) (s : State TriageData) :
    adoptDrafts services candidates edits index batches s =
      collect services.lower (draftedStates services candidates edits index batches) s := by
  induction batches generalizing index s with
  | nil => rfl
  | cons batch rest ih =>
    rw [adoptDrafts, draftedStates, collect]
    split
    · exact ih _ _
    · generalize performed (policy services.lower) _ s = made
      obtain ⟨_ | _, next⟩ := made
      · rfl
      · exact ih _ _

/-- In whatever order the drafts complete, they are stored in the order of the batches. -/
theorem gathered_eq {order : List Nat} (all : order.Perm (List.range batches.length)) :
    (gathered services candidates batches edits order).reduceOption =
      (List.range batches.length).map (runBatch services candidates batches edits) := by
  have stored : gathered services candidates batches edits order =
      (List.range (List.replicate batches.length
        (none : Option (Nat × List (CreateInput TriageFields)))).length).map fun task =>
          some (runBatch services candidates batches edits task) := by
    refine store_eq_map id _ _ _ _ (fun _ _ => rfl) fun i inside absent => ?_
    rw [List.length_replicate] at inside
    rw [List.map_id] at absent
    exact absurd (all.mem_iff.mpr (List.mem_range.mpr inside)) absent
  rw [stored, List.length_replicate, List.reduceOption, List.filterMap_map]
  exact congrFun List.filterMap_eq_map _

theorem lookup_indexed {start count task : Nat} (f : Nat → List (CreateInput TriageFields))
    (inside : task < count) :
    ((List.range count).map fun task => (task + start, f task)).lookup (task + start) =
      some (f task) := by
  induction count with
  | zero => omega
  | succ count ih =>
    rw [List.range_succ, List.map_append, List.lookup_append]
    by_cases last : task = count
    · have earlier : ((List.range count).map fun task => (task + start, f task)).lookup
          (count + start) = none := by
        rw [List.lookup_eq_none_iff]
        intro pair mem
        obtain ⟨other, below, rfl⟩ := List.mem_map.mp mem
        have smaller := List.mem_range.mp below
        simp
        omega
      rw [last, earlier]
      simp
    · rw [ih (by omega)]
      rfl

theorem createAll_eq {start : Nat} {rest : List (List String)} (s : State TriageData)
    (own : batches.drop start = rest) :
    createAll services.lower
        ((List.range batches.length).map (runBatch services candidates batches edits))
        (List.range' (start + 1) rest.length) s =
      collect services.lower (draftedStates services candidates edits (start + 1) rest) s := by
  induction rest generalizing start s with
  | nil => rfl
  | cons batch rest ih =>
    have inside : start < batches.length := by
      by_contra past
      rw [List.drop_eq_nil_of_le (by omega)] at own
      cases own
    have here : batches.getD start [] = batch := by
      have first := congrArg List.head? own
      rw [List.head?_drop] at first
      rw [List.getD_eq_getElem?_getD, first]
      rfl
    have later : batches.drop (start + 1) = rest := by
      have tails := congrArg List.tail own
      rwa [List.tail_drop] at tails
    have found : ((List.range batches.length).map
        (runBatch services candidates batches edits)).lookup (start + 1) =
        some (groupDrafts ((triageWorkbench services.lower
          (batchCandidates candidates batch)).run (edits.batch (start + 1)))) := by
      rw [← here]
      exact lookup_indexed (fun task => (runBatch services candidates batches edits task).2) inside
    rw [List.length_cons, List.range'_succ, createAll, found, draftedStates, collect]
    cases drafts : groupDrafts ((triageWorkbench services.lower
        (batchCandidates candidates batch)).run (edits.batch (start + 1))) with
    | nil =>
      rw [if_pos rfl]
      exact ih s later
    | cons draft more =>
      rw [if_neg (by simp)]
      dsimp only
      rcases performed (policy services.lower) (.createGroups (draft :: more)) s with
        ⟨e | result, next⟩
      · rfl
      · exact ih next later

/-- The merged workbench collects the drafts one after another, in whatever order they
complete. -/
theorem mergedWorkbench_eq {order : List Nat} (all : order.Perm (List.range batches.length)) :
    mergedWorkbench services candidates batches edits order =
      collect services.lower (draftedStates services candidates edits 1 batches)
        (triageWorkbench services.lower candidates).initial := by
  rw [mergedWorkbench, gathered_eq services candidates batches edits all]
  exact createAll_eq services candidates batches edits _ (List.drop_zero)

/-- The passes of the stage go on with the merged workbench. -/
theorem adoptDrafts_merged {order : List Nat} (all : order.Perm (List.range batches.length)) :
    adoptDrafts services candidates edits 1 batches
        (triageWorkbench services.lower candidates).initial =
      mergedWorkbench services candidates batches edits order := by
  rw [adoptDrafts_eq, mergedWorkbench_eq services candidates batches edits all]

end Collecting

/-- Texts that are trimmed, as a group keeps them. -/
structure Trimmed (data : TriageData) : Prop where
  reason : normalizedText data.reason = data.reason
  summary : normalizedText data.summary = data.summary
  category : normalizedText data.category = data.category
  evidence : nonEmptyStrings (some data.evidence) = data.evidence

theorem normalizedText_again (value : Option String) :
    normalizedText (normalizedText value) = normalizedText value := by
  cases trimmed : normalizedText value with
  | none => rfl
  | some id =>
    obtain ⟨given, -, own⟩ := Option.bind_eq_some_iff.mp trimmed
    exact normalizedId_fixed own

theorem nonEmptyStrings_again (values : Option (List String)) :
    nonEmptyStrings (some (nonEmptyStrings values)) = nonEmptyStrings values := by
  have again : ∀ value, (normalizedId value).bind normalizedId = normalizedId value :=
    fun value => normalizedText_again (some value)
  rw [nonEmptyStrings, Option.getD_some, nonEmptyStrings, List.filterMap_filterMap]
  exact List.filterMap_congr fun value _ => again value

theorem trimmed_newGroup {lower : String → String} {fields : TriageFields} {data : TriageData}
    (made : newGroup lower fields = .ok data) : Trimmed data := by
  rw [newGroup] at made
  cases kind : normalizedGroupKind lower fields.kind with
  | error e =>
    rw [kind] at made
    cases made
  | ok found =>
    rw [kind] at made
    cases made
    exact ⟨normalizedText_again _, normalizedText_again _, normalizedText_again _,
      nonEmptyStrings_again _⟩

theorem revisedText_again {given current : Option String}
    (trimmed : normalizedText current = current) :
    normalizedText (revisedText given current) = revisedText given current := by
  cases given with
  | none => exact trimmed
  | some text => exact normalizedText_again (some text)

theorem trimmed_revise {lower : String → String} {fields : TriageFields} {data revised : TriageData}
    (trimmed : Trimmed data) (made : revise lower fields data = .ok revised) : Trimmed revised := by
  rw [revise] at made
  cases kind : revisedKind lower fields.kind data.kind with
  | error e =>
    rw [kind] at made
    cases made
  | ok found =>
    rw [kind] at made
    cases made
    refine ⟨revisedText_again trimmed.reason, revisedText_again trimmed.summary,
      revisedText_again trimmed.category, ?_⟩
    cases fields.evidence with
    | none => exact trimmed.evidence
    | some items => exact nonEmptyStrings_again (some items)

section Texts

variable {D C U : Type} (policy : Policy D C U)

theorem data_giveNamed (groupId : String) (itemIds : Option (List String)) (s : State D) :
    (giveNamed policy groupId itemIds s).groups.map ItemGroup.data =
      s.groups.map ItemGroup.data := by
  cases itemIds with
  | none => rfl
  | some ids =>
    rw [giveNamed, giveItems, List.map_map]
    refine List.map_congr_left fun group _ => ?_
    rw [Function.comp_apply]
    split <;> rfl

/-- Texts that a new group has and a revision keeps are those of every group. -/
theorem texts_invariant {Q : D → Prop} (made : ∀ fields data, policy.newGroup fields = .ok data → Q data)
    (revised : ∀ fields data data', Q data → policy.revise fields data = .ok data' → Q data') :
    Invariant policy fun s => ∀ data ∈ s.groups.map ItemGroup.data, Q data where
  recorded := fun _ h => h
  counted := fun h => h
  added := by
    intro s groupId fields data itemIds h _ new _ other mem
    rw [withGroup, data_giveNamed, List.map_append] at mem
    rcases List.mem_append.mp mem with old | last
    · exact h other old
    · rw [List.map_singleton, List.mem_singleton] at last
      rw [last]
      exact made fields data new
  revised := by
    intro s input group data h lets other mem
    rw [withRevision, data_giveNamed, List.map_map] at mem
    obtain ⟨held, own, rfl⟩ := List.mem_map.mp mem
    rw [Function.comp_apply]
    split
    · exact revised _ _ _ (h _ (List.mem_map_of_mem (findGroup_some lets.found).2)) lets.made
    · exact h _ (List.mem_map_of_mem own)
  removed := by
    intro s groupId h data mem
    obtain ⟨group, own, rfl⟩ := List.mem_map.mp mem
    exact h _ (List.mem_map_of_mem (List.mem_of_mem_filter own))

end Texts

/-- The texts and the items of a group, without its number. -/
def content (group : ItemGroup TriageData) : TriageData × List String :=
  (group.data, group.itemIds)

/-- The groups of a workbench that hold items. -/
def heldGroups (s : State TriageData) : List (ItemGroup TriageData) :=
  s.groups.filter fun group => group.itemIds ≠ []

/-- What a new group becomes. -/
def Becomes (lower : String → String) (pair : CreateInput TriageFields × String)
    (made : TriageData × List String) : Prop :=
  newGroup lower pair.1.fields = .ok made.1 ∧ pair.1.itemIds = some made.2 ∧
    dedupeIds made.2 = made.2

theorem withGroup_apart {lower : String → String} {s : State TriageData} {groupId : String}
    {data : TriageData} {ids : List String} (new : groupId ∉ s.keys) (distinct : dedupeIds ids = ids)
    (apart : ∀ group ∈ s.groups, group.itemIds.Disjoint ids) :
    (withGroup (policy lower) groupId data (some ids) s).groups =
      s.groups ++ [{ groupId, data, itemIds := ids }] := by
  have given : Workbench.given (policy lower) ids
      { s with groups := s.groups ++ [{ groupId, data, itemIds := [] }] } = ids := distinct
  rw [withGroup, giveNamed, given, giveItems, List.map_append, List.map_singleton, if_pos rfl]
  refine congrArg (· ++ _) ?_
  conv_rhs => rw [← List.map_id s.groups]
  refine List.map_congr_left fun group mem => ?_
  have other : group.groupId ≠ groupId := by
    rintro rfl
    exact new (List.mem_map_of_mem mem)
  have kept : group.itemIds.filter (fun item => item ∉ ids) = group.itemIds := by
    rw [List.filter_eq_self]
    intro item own
    exact decide_eq_true fun given => apart group mem own given
  rw [if_neg other, kept]
  rfl

/-- Groups whose items no group holds are added as they are. -/
theorem withGroups_apart {lower : String → String} {pairs : List (CreateInput TriageFields × String)}
    {made : List (TriageData × List String)} {s : State TriageData}
    (becomes : List.Forall₂ (Becomes lower) pairs made)
    (lets : Creates (policy lower) s pairs)
    (each : made.Pairwise fun a b => a.2.Disjoint b.2)
    (apart : ∀ group ∈ s.groups, ∀ new ∈ made, group.itemIds.Disjoint new.2) :
    (withGroups (policy lower) pairs s).groups.map content = s.groups.map content ++ made := by
  induction becomes generalizing s with
  | nil => simp [withGroups]
  | @cons pair new later more first _ ih =>
    obtain ⟨fields, ids, distinct⟩ := first
    have made : (policy lower).newGroup pair.1.fields = .ok new.1 := fields
    obtain ⟨separate, each⟩ := List.pairwise_cons.mp each
    have added := @withGroup_apart lower s pair.2 new.1 new.2 (lets.new pair List.mem_cons_self)
      distinct
      fun group mem => apart group mem new List.mem_cons_self
    have tail := @Creates.tail _ _ _ (policy lower) s pair.1 pair.2 new.1 later lets
    rw [withGroups, made]
    dsimp only
    rw [ids] at tail ⊢
    rw [ih tail each, added, List.map_append, List.append_assoc]
    · rfl
    · intro group mem other own
      rw [added] at mem
      rcases List.mem_append.mp mem with old | last
      · exact apart group old other (List.mem_cons_of_mem _ own)
      · rw [List.mem_singleton.mp last]
        exact separate other own

/-- The texts a group of its kind has to have. -/
def TextsMet (data : TriageData) : Prop :=
  match data.kind with
  | .keep => normalizedText data.summary ≠ none ∧ normalizedText data.category ≠ none ∧
    nonEmptyStrings (some data.evidence) ≠ []
  | .suppress => normalizedText data.reason ≠ none

/-- A draft that is collected as it is. -/
def Draftable (s : State TriageData) : Prop := ∀ group ∈ heldGroups s, TextsMet group.data

theorem groupErrors_eq_nil_iff (group : ItemGroup TriageData) :
    groupErrors group = [] ↔ group.itemIds ≠ [] ∧ TextsMet group.data := by
  rw [groupErrors, TextsMet]
  cases group.data.kind with
  | keep =>
    by_cases empty : group.itemIds = []
    · simp [empty]
    · simp only [if_neg empty]
      by_cases summary : normalizedText group.data.summary = none <;>
        by_cases category : normalizedText group.data.category = none <;>
          by_cases evidence : nonEmptyStrings (some group.data.evidence) = [] <;>
            simp [empty, summary, category, evidence]
  | suppress =>
    by_cases empty : group.itemIds = []
    · simp [empty]
    · by_cases reason : normalizedText group.data.reason = none <;> simp [empty, reason]

/-- What every reached workbench is like. -/
structure Drafted (s : State TriageData) : Prop where
  texts : ∀ data ∈ s.groups.map ItemGroup.data, Trimmed data
  ids : ∀ group ∈ s.groups, dedupeIds group.itemIds = group.itemIds
  apart : s.groups.Pairwise fun a b => a.itemIds.Disjoint b.itemIds
  known : ∀ group ∈ s.groups, ∀ item ∈ group.itemIds, item ∈ s.orderedItemIds

theorem drafted_of_reachable {lower : String → String} {candidates : List DiscoveryCandidateResult}
    {s : State TriageData} (reachable : (triageWorkbench lower candidates).Reachable s) :
    Drafted s := by
  have held := partitioned_reachable (policy lower) reachable
  have ordered := orderedItemIds_reachable (policy lower) reachable
  have texts := (texts_invariant (policy lower) (fun _ _ => trimmed_newGroup)
    fun _ _ _ => trimmed_revise).reachable (by simp [emptyState]) reachable
  have known : ∀ group ∈ s.groups, ∀ item ∈ group.itemIds, item ∈ s.orderedItemIds :=
    fun group mem item own => held.known _ (List.mem_map_of_mem mem) item own
  refine ⟨texts, fun group mem => ?_, ?_, known⟩
  · refine dedupeIds_eq_self (fun id own => ?_) (held.once.each _ (List.mem_map_of_mem mem))
    have kept := known group mem id own
    rw [ordered] at kept
    exact normalizedId_of_mem kept
  · have apart := held.once.apart
    rw [holdings, List.pairwise_map] at apart
    exact apart

/-- The draft of one group. -/
def draftOf (group : ItemGroup TriageData) : CreateInput TriageFields where
  fields := {
    kind := some group.data.kind.text
    reason := group.data.reason
    summary := group.data.summary
    category := group.data.category
    evidence := some group.data.evidence }
  itemIds := some group.itemIds

theorem groupDrafts_eq (s : State TriageData) : groupDrafts s = (heldGroups s).map draftOf := rfl

section Adopting

variable {lower : String → String} (lowered : ∀ kind : Kind, lower kind.text = kind.text)

include lowered

theorem normalizedGroupKind_text (kind : Kind) :
    normalizedGroupKind lower (some kind.text) = .ok kind := by
  have same := lowered kind
  have trimmed : strip pythonSpace kind.text = kind.text := by cases kind <;> rfl
  have some : kind.text ≠ "" := by cases kind <;> decide
  simp only [normalizedGroupKind, Option.getD_some, if_neg some, trimmed, same]
  cases kind <;> rfl

theorem checkCreate_draft {group : ItemGroup TriageData} (some : group.itemIds ≠ [])
    (ids : dedupeIds group.itemIds = group.itemIds) :
    checkCreate (policy lower) (draftOf group) = .ok () ↔ TextsMet group.data := by
  have named : dedupeIds ((draftOf group).itemIds.getD []) ≠ [] := by
    rw [draftOf, Option.getD_some, ids]
    exact some
  have texts : (policy lower).validateCreate (draftOf group).fields =
      validateCreate lower (draftOf group).fields := rfl
  have kind : normalizedGroupKind lower (draftOf group).fields.kind = .ok group.data.kind :=
    normalizedGroupKind_text lowered group.data.kind
  rw [checkCreate, if_neg named, texts, validateCreate, kind, TextsMet]
  cases group.data.kind with
  | keep =>
    dsimp only
    split
    · next missing =>
      constructor
      · intro refused
        cases refused
      · rintro ⟨summary, category, evidence⟩
        rcases missing with none | none | none
        · exact absurd none summary
        · exact absurd none category
        · exact absurd none evidence
    · next met =>
      rw [not_or, not_or] at met
      exact ⟨fun _ => met, fun _ => rfl⟩
  | suppress =>
    dsimp only
    split
    · next missing =>
      constructor
      · intro refused
        cases refused
      · exact fun reason => absurd missing reason
    · next met => exact ⟨fun _ => met, fun _ => rfl⟩

theorem newGroup_draft {group : ItemGroup TriageData} (trimmed : Trimmed group.data) :
    newGroup lower (draftOf group).fields = .ok group.data := by
  have kind : normalizedGroupKind lower (draftOf group).fields.kind = .ok group.data.kind :=
    normalizedGroupKind_text lowered group.data.kind
  rw [newGroup, kind]
  refine congrArg Except.ok ?_
  have reason := trimmed.reason
  have summary := trimmed.summary
  have category := trimmed.category
  have evidence := trimmed.evidence
  cases data : group.data
  rw [data] at reason summary category evidence
  simp_all [draftOf]

theorem becomes_drafts {groups : List (ItemGroup TriageData)} {names : List String}
    (length : names.length = groups.length)
    (kept : ∀ group ∈ groups, Trimmed group.data ∧ dedupeIds group.itemIds = group.itemIds) :
    List.Forall₂ (Becomes lower) ((groups.map draftOf).zip names) (groups.map content) := by
  induction groups generalizing names with
  | nil => exact List.Forall₂.nil
  | cons group later ih =>
    cases names with
    | nil => cases length
    | cons name names =>
      obtain ⟨first, others⟩ := List.forall_mem_cons.mp kept
      exact List.Forall₂.cons ⟨newGroup_draft lowered first.1, rfl, first.2⟩
        (ih (Nat.succ.inj length) others)

/-- A draft is collected as it is, or it is refused for the texts of a group. -/
theorem performed_draft {drafted s : State TriageData} (h : Drafted drafted)
    (known : ∀ item ∈ drafted.orderedItemIds, item ∈ s.orderedItemIds)
    (apart : ∀ group ∈ s.groups, ∀ item ∈ group.itemIds, item ∉ drafted.orderedItemIds) :
    (Draftable drafted → ∃ result t,
      performed (policy lower) (.createGroups (groupDrafts drafted)) s = (.ok result, t) ∧
        t.orderedItemIds = s.orderedItemIds ∧
        t.groups.map content = s.groups.map content ++ (heldGroups drafted).map content) ∧
    (¬ Draftable drafted → ∃ e,
      performed (policy lower) (.createGroups (groupDrafts drafted)) s = (.error e, s)) := by
  have held : ∀ group ∈ heldGroups drafted, group ∈ drafted.groups ∧ group.itemIds ≠ [] := by
    intro group mem
    obtain ⟨own, some⟩ := List.mem_filter.mp mem
    exact ⟨own, of_decide_eq_true some⟩
  have checks : (∀ input ∈ groupDrafts drafted, checkCreate (policy lower) input = .ok ()) ↔
      Draftable drafted := by
    rw [groupDrafts_eq, List.forall_mem_map, Draftable]
    refine forall₂_congr fun group mem => ?_
    exact checkCreate_draft lowered (held group mem).2 (h.ids group (held group mem).1)
  constructor
  · intro draftable
    have valid := checks.mpr draftable
    have listed : ∀ input ∈ groupDrafts drafted,
        unknownItemIds s (input.itemIds.getD []) = [] := by
      rw [groupDrafts_eq, List.forall_mem_map]
      intro group mem
      rw [draftOf, Option.getD_some, unknownItemIds_eq_nil_iff, h.ids group (held group mem).1]
      exact fun id own => known id (h.known group (held group mem).1 id own)
    have lets := creates_namedInputs (policy lower) valid listed
    have becomes : List.Forall₂ (Becomes lower) (namedInputs (groupDrafts drafted) s)
        ((heldGroups drafted).map content) := by
      refine becomes_drafts lowered ?_ fun group mem =>
        ⟨h.texts _ (List.mem_map_of_mem (held group mem).1), h.ids group (held group mem).1⟩
      rw [nextCreateGroupIds, List.length_map, FreshNames.freshMany_length]
      exact List.length_map _
    have separate : ((heldGroups drafted).map content).Pairwise fun a b => a.2.Disjoint b.2 :=
      List.pairwise_map.mpr (h.apart.filter _)
    have merged := withGroups_apart becomes lets separate (by
      intro group mem new own
      obtain ⟨each, inside, rfl⟩ := List.mem_map.mp own
      exact fun item mine theirs => apart group mem item mine
        (h.known each (held each inside).1 item theirs))
    refine ⟨_, _, performed_createGroups (policy lower) valid listed, ?_, merged⟩
    exact congrArg Prod.fst (rest_withGroups (policy lower) (namedInputs (groupDrafts drafted) s) s)
  · intro refused
    refine performed_refused (policy lower) (fun accepted => refused (checks.mp accepted.1)) ?_
    intro input same
    cases same

end Adopting

section Merging

variable {lower : String → String} (lowered : ∀ kind : Kind, lower kind.text = kind.text)

/-- Workbenches whose drafts can be collected in `s` without taking items from each other. -/
structure Separate (drafted : List (State TriageData)) (s : State TriageData) : Prop where
  each : ∀ one ∈ drafted, Drafted one
  known : ∀ one ∈ drafted, ∀ item ∈ one.orderedItemIds, item ∈ s.orderedItemIds
  apart : drafted.Pairwise fun a b => a.orderedItemIds.Disjoint b.orderedItemIds
  fresh : ∀ one ∈ drafted, ∀ group ∈ s.groups, ∀ item ∈ group.itemIds, item ∉ one.orderedItemIds

/-- What one draft adds leaves the others as separate as they were. -/
theorem Separate.tail {one : State TriageData} {rest : List (State TriageData)}
    {s t : State TriageData} (h : Separate (one :: rest) s)
    (ordered : t.orderedItemIds = s.orderedItemIds)
    (groups : t.groups.map content = s.groups.map content ++ (heldGroups one).map content) :
    Separate rest t where
  each := fun other mem => h.each other (List.mem_cons_of_mem _ mem)
  known := fun other mem item own => by
    rw [ordered]
    exact h.known other (List.mem_cons_of_mem _ mem) item own
  apart := (List.pairwise_cons.mp h.apart).2
  fresh := by
    intro other mem group held item own theirs
    have listed : content group ∈ s.groups.map content ++ (heldGroups one).map content :=
      groups ▸ List.mem_map_of_mem held
    rcases List.mem_append.mp listed with old | new
    · obtain ⟨earlier, before, same⟩ := List.mem_map.mp old
      have items : earlier.itemIds = group.itemIds := congrArg Prod.snd same
      exact h.fresh other (List.mem_cons_of_mem _ mem) earlier before item (items ▸ own) theirs
    · obtain ⟨added, inside, same⟩ := List.mem_map.mp new
      have items : added.itemIds = group.itemIds := congrArg Prod.snd same
      have mine := (h.each one List.mem_cons_self).known added (List.mem_of_mem_filter inside)
        item (items ▸ own)
      exact (List.pairwise_cons.mp h.apart).1 other mem mine theirs

include lowered

/-- Drafts without missing texts are collected group by group, in their order. -/
theorem collect_draftable {drafted : List (State TriageData)} {s : State TriageData}
    (h : Separate drafted s) (draftable : ∀ one ∈ drafted, Draftable one) :
    ∃ t, collect lower drafted s = .ok t ∧ t.orderedItemIds = s.orderedItemIds ∧
      t.groups.map content =
        s.groups.map content ++ drafted.flatMap fun one => (heldGroups one).map content := by
  induction drafted generalizing s with
  | nil => exact ⟨s, rfl, rfl, by simp⟩
  | cons one rest ih =>
    obtain ⟨first, others⟩ := List.forall_mem_cons.mp draftable
    rw [collect]
    split
    · next none =>
      rw [groupDrafts_eq, List.map_eq_nil_iff] at none
      have same : s.groups.map content =
          s.groups.map content ++ (heldGroups one).map content := by simp [none]
      obtain ⟨t, done, ordered, groups⟩ := ih (h.tail rfl same) others
      exact ⟨t, done, ordered, by simpa [none] using groups⟩
    · obtain ⟨result, next, made, ordered, groups⟩ :=
        (performed_draft lowered (h.each one List.mem_cons_self)
          (h.known one List.mem_cons_self) (h.fresh one List.mem_cons_self)).1 first
      obtain ⟨t, done, ordered', groups'⟩ := ih (h.tail ordered groups) others
      rw [made]
      refine ⟨t, done, ordered'.trans ordered, ?_⟩
      rw [groups', groups, List.flatMap_cons, List.append_assoc]

/-- A draft with missing texts ends the collection. -/
theorem collect_refused {drafted : List (State TriageData)} {s : State TriageData}
    (h : Separate drafted s) (refused : ¬ ∀ one ∈ drafted, Draftable one) :
    ∃ e, collect lower drafted s = .error e := by
  induction drafted generalizing s with
  | nil => exact absurd (by simp) refused
  | cons one rest ih =>
    rw [List.forall_mem_cons, not_and] at refused
    obtain ⟨adopts, raises⟩ := performed_draft lowered (h.each one List.mem_cons_self)
      (h.known one List.mem_cons_self) (h.fresh one List.mem_cons_self)
    rw [collect]
    by_cases draftable : Draftable one
    · obtain ⟨result, next, made, ordered, groups⟩ := adopts draftable
      split
      · next none =>
        rw [groupDrafts_eq, List.map_eq_nil_iff] at none
        have same : s.groups.map content =
            s.groups.map content ++ (heldGroups one).map content := by simp [none]
        exact ih (h.tail rfl same) (refused draftable)
      · rw [made]
        exact ih (h.tail ordered groups) (refused draftable)
    · obtain ⟨e, made⟩ := raises draftable
      split
      · next none =>
        rw [groupDrafts_eq, List.map_eq_nil_iff] at none
        exact absurd (fun group mem => by rw [none] at mem; cases mem) draftable
      · rw [made]
        exact ⟨e, rfl⟩

end Merging

theorem constraints_eq_nil_iff {lower : String → String} {s : State TriageData} :
    constraints (policy lower) s = [] ↔
      unprocessedItemIds s = [] ∧ ∀ group ∈ s.groups, groupErrors group = [] := by
  constructor
  · exact constraints_ok
  · rintro ⟨covered, none⟩
    rw [constraints, if_pos covered, List.nil_append, List.flatMap_eq_nil_iff]
    exact none

theorem unprocessed_eq_nil_iff {s : State TriageData} :
    unprocessedItemIds s = [] ↔
      ∀ item ∈ s.orderedItemIds, ∃ held ∈ s.groups.map content, item ∈ held.2 := by
  rw [unprocessedItemIds, List.filter_eq_nil_iff]
  refine forall₂_congr fun item _ => ?_
  simp [content]

/-- No complaint but about groups without items. -/
def CompleteButEmpty (lower : String → String) (s : State TriageData) : Prop :=
  ∀ error ∈ constraints (policy lower) s, ∃ groupId, error = .emptyGroup groupId

theorem completeButEmpty_iff {lower : String → String} {s : State TriageData}
    (draftable : Draftable s) : CompleteButEmpty lower s ↔ unprocessedItemIds s = [] := by
  constructor
  · intro complete
    by_contra left
    obtain ⟨groupId, same⟩ := complete (.incompleteCoverage (unprocessedItemIds s)) (by
      rw [constraints, if_neg left]
      exact List.mem_append_left _ (List.mem_singleton_self _))
    cases same
  · intro covered error mem
    rw [constraints, if_pos covered, List.nil_append] at mem
    obtain ⟨group, own, error'⟩ := List.mem_flatMap.mp mem
    by_cases empty : group.itemIds = []
    · have only : (policy lower).groupErrors group = [.emptyGroup group.groupId] := by
        show groupErrors group = _
        rw [groupErrors, if_pos empty]
      rw [only, List.mem_singleton] at error'
      exact ⟨group.groupId, error'⟩
    · have met := draftable group (List.mem_filter.mpr ⟨own, decide_eq_true empty⟩)
      have none : (policy lower).groupErrors group = [] :=
        (groupErrors_eq_nil_iff group).mpr ⟨empty, met⟩
      rw [none] at error'
      cases error'

/-- What was collected is complete when each draft covers the items of its batch. -/
theorem complete_iff {lower : String → String} {drafted : List (State TriageData)}
    {t : State TriageData} (each : ∀ one ∈ drafted, Drafted one)
    (draftable : ∀ one ∈ drafted, Draftable one)
    (apart : drafted.Pairwise fun a b => a.orderedItemIds.Disjoint b.orderedItemIds)
    (items : ∀ item, item ∈ t.orderedItemIds ↔ ∃ one ∈ drafted, item ∈ one.orderedItemIds)
    (groups : t.groups.map content = drafted.flatMap fun one => (heldGroups one).map content) :
    constraints (policy lower) t = [] ↔ ∀ one ∈ drafted, CompleteButEmpty lower one := by
  have held : ∀ group ∈ t.groups, groupErrors group = [] := by
    intro group mem
    have listed : content group ∈ drafted.flatMap fun one => (heldGroups one).map content :=
      groups ▸ List.mem_map_of_mem mem
    obtain ⟨one, own, inside⟩ := List.mem_flatMap.mp listed
    obtain ⟨source, kept, same⟩ := List.mem_map.mp inside
    have some : source.itemIds ≠ [] := of_decide_eq_true (List.mem_filter.mp kept).2
    have data : source.data = group.data := congrArg Prod.fst same
    have ids : source.itemIds = group.itemIds := congrArg Prod.snd same
    exact (groupErrors_eq_nil_iff group).mpr ⟨ids ▸ some, data ▸ draftable one own source kept⟩
  rw [constraints_eq_nil_iff, and_iff_left held]
  have covers : (∀ one ∈ drafted, CompleteButEmpty lower one) ↔
      ∀ one ∈ drafted, unprocessedItemIds one = [] :=
    forall₂_congr fun one own => completeButEmpty_iff (draftable one own)
  rw [covers, unprocessed_eq_nil_iff, groups]
  constructor
  · intro all one own
    rw [unprocessed_eq_nil_iff]
    intro item mine
    obtain ⟨made, listed, inside⟩ := all item ((items item).mpr ⟨one, own, mine⟩)
    obtain ⟨other, theirs, kept⟩ := List.mem_flatMap.mp listed
    obtain ⟨source, place, rfl⟩ := List.mem_map.mp kept
    have source' := List.mem_of_mem_filter place
    have known := (each other theirs).known source source' item inside
    obtain rfl : other = one := by
      by_contra differs
      have symmetric : Std.Symm fun a b : State TriageData =>
          a.orderedItemIds.Disjoint b.orderedItemIds := ⟨fun _ _ separate _ mine theirs => separate theirs mine⟩
      exact apart.forall theirs own differs known mine
    exact ⟨content source, List.mem_map_of_mem source', inside⟩
  · intro all item mine
    obtain ⟨one, own, inside⟩ := (items item).mp mine
    obtain ⟨made, listed, place⟩ := unprocessed_eq_nil_iff.mp (all one own) item inside
    obtain ⟨source, kept, rfl⟩ := List.mem_map.mp listed
    refine ⟨content source, List.mem_flatMap.mpr ⟨one, own, ?_⟩, place⟩
    refine List.mem_map_of_mem (List.mem_filter.mpr ⟨kept, decide_eq_true ?_⟩)
    intro none
    have empty : (content source).2 = [] := none
    rw [empty] at place
    cases place

theorem triageItems_snd (lower : String → String) (candidates : List DiscoveryCandidateResult) :
    (triageItems lower candidates).map Prod.snd =
      (candidates.map DiscoveryCandidateResult.candidateId).filterMap normalizedId := by
  rw [triageItems, List.map_filterMap, List.filterMap_map]
  refine List.filterMap_congr fun result _ => ?_
  cases named : normalizedId result.candidateId <;> simp [named]

theorem mem_batchCandidates {candidates : List DiscoveryCandidateResult} {batch : List String}
    {id : String} :
    id ∈ dedupeIds ((batchCandidates candidates batch).map DiscoveryCandidateResult.candidateId) ↔
      id ∈ batch ∧ id ∈ dedupeIds (candidates.map DiscoveryCandidateResult.candidateId) := by
  rw [mem_dedupeIds, mem_dedupeIds]
  constructor
  · rintro ⟨value, mem, named⟩
    obtain ⟨result, held, rfl⟩ := List.mem_map.mp mem
    obtain ⟨own, routed⟩ := List.mem_filter.mp held
    have same : id = strip pythonSpace result.candidateId := by
      rw [normalizedId] at named
      split at named
      · cases named
      · exact (Option.some.inj named).symm
    refine ⟨?_, _, List.mem_map_of_mem own, named⟩
    rw [same]
    exact of_decide_eq_true routed
  · rintro ⟨listed, value, mem, named⟩
    obtain ⟨result, own, rfl⟩ := List.mem_map.mp mem
    refine ⟨_, List.mem_map_of_mem (List.mem_filter.mpr ⟨own, decide_eq_true ?_⟩), named⟩
    have same : id = strip pythonSpace result.candidateId := by
      rw [normalizedId] at named
      split at named
      · cases named
      · exact (Option.some.inj named).symm
    rw [← same]
    exact listed

section Stage

variable {services : Services} {candidates : List DiscoveryCandidateResult} {edits : Edits}

theorem mem_orderedItemIds (calls : List TriageCall) {batch : List String} {item : String} :
    item ∈ ((triageWorkbench services.lower
        (batchCandidates candidates batch)).run calls).orderedItemIds ↔
      item ∈ batch ∧ item ∈ dedupeIds (candidates.map DiscoveryCandidateResult.candidateId) := by
  have reachable : (triageWorkbench services.lower (batchCandidates candidates batch)).Reachable
      ((triageWorkbench services.lower (batchCandidates candidates batch)).run calls) :=
    ⟨calls, rfl⟩
  rw [orderedItemIds_reachable (policy services.lower) reachable]
  exact mem_batchCandidates

/-- What is known of the workbench of a batch. -/
theorem mem_draftedStates {index : Nat} {batches : List (List String)} {one : State TriageData}
    (mem : one ∈ draftedStates services candidates edits index batches) :
    Drafted one ∧ ∃ batch ∈ batches, ∀ item, item ∈ one.orderedItemIds ↔
      item ∈ batch ∧ item ∈ dedupeIds (candidates.map DiscoveryCandidateResult.candidateId) := by
  induction batches generalizing index with
  | nil => cases mem
  | cons batch rest ih =>
    rw [draftedStates] at mem
    rcases List.mem_cons.mp mem with rfl | later
    · exact ⟨drafted_of_reachable ⟨edits.batch index, rfl⟩, batch, List.mem_cons_self,
        fun _ => mem_orderedItemIds _⟩
    · obtain ⟨drafted, batch', held, own⟩ := ih later
      exact ⟨drafted, batch', List.mem_cons_of_mem _ held, own⟩

theorem exists_draftedState {index : Nat} {batches : List (List String)} {batch : List String}
    (mem : batch ∈ batches) :
    ∃ one ∈ draftedStates services candidates edits index batches, ∀ item,
      item ∈ one.orderedItemIds ↔
        item ∈ batch ∧ item ∈ dedupeIds (candidates.map DiscoveryCandidateResult.candidateId) := by
  induction batches generalizing index with
  | nil => cases mem
  | cons first rest ih =>
    rcases List.mem_cons.mp mem with rfl | later
    · exact ⟨_, List.mem_cons_self, fun _ => mem_orderedItemIds _⟩
    · obtain ⟨one, own, items⟩ := @ih (index + 1) later
      exact ⟨one, List.mem_cons_of_mem _ own, items⟩

theorem draftedStates_apart {index : Nat} {batches : List (List String)}
    (distinct : batches.flatten.Nodup) :
    (draftedStates services candidates edits index batches).Pairwise fun a b =>
      a.orderedItemIds.Disjoint b.orderedItemIds := by
  induction batches generalizing index with
  | nil => exact List.Pairwise.nil
  | cons batch rest ih =>
    rw [List.flatten_cons, List.nodup_append] at distinct
    refine List.Pairwise.cons (fun other mem item mine theirs => ?_) (ih distinct.2.1)
    obtain ⟨-, batch', held, items⟩ := mem_draftedStates mem
    exact distinct.2.2 item ((mem_orderedItemIds _).mp mine).1 item
      (List.mem_flatten.mpr ⟨batch', held, ((items item).mp theirs).1⟩) rfl

/-- What the stage makes of the drafts of its batches, in whatever order they complete. -/
structure Merges (services : Services) (candidates : List DiscoveryCandidateResult) (edits : Edits)
    (batches : List (List String)) (order : List Nat) : Prop where
  adopted : (∀ one ∈ draftedStates services candidates edits 1 batches, Draftable one) →
    ∃ t, mergedWorkbench services candidates batches edits order = .ok t ∧
      t.groups.map content = (draftedStates services candidates edits 1 batches).flatMap
        (fun one => (heldGroups one).map content) ∧
      (constraints (policy services.lower) t = [] ↔
        ∀ one ∈ draftedStates services candidates edits 1 batches,
          CompleteButEmpty services.lower one)
  refused : (¬ ∀ one ∈ draftedStates services candidates edits 1 batches, Draftable one) →
    ∃ e, mergedWorkbench services candidates batches edits order = .error e

theorem merges_of_batching (lowered : ∀ kind : Kind, services.lower kind.text = kind.text)
    {size : Nat} {batches : List (List String)}
    (batching : Batching size (triageItems services.lower candidates) batches)
    (distinct : ((triageItems services.lower candidates).map Prod.snd).Nodup)
    {order : List Nat} (all : order.Perm (List.range batches.length)) :
    Merges services candidates edits batches order := by
  have flat : batches.flatten.Nodup := batching.items.nodup_iff.mpr distinct
  have ids : ∀ item, item ∈ batches.flatten ↔
      item ∈ dedupeIds (candidates.map DiscoveryCandidateResult.candidateId) := by
    intro item
    rw [batching.items.mem_iff, triageItems_snd, List.mem_filterMap, mem_dedupeIds]
  have apart := @draftedStates_apart services candidates edits 1 batches flat
  have initial : ((triageWorkbench services.lower candidates).initial).orderedItemIds =
      dedupeIds (candidates.map DiscoveryCandidateResult.candidateId) := rfl
  have separate : Separate (draftedStates services candidates edits 1 batches)
      (triageWorkbench services.lower candidates).initial := by
    refine ⟨fun one mem => (mem_draftedStates mem).1, fun one mem item own => ?_, apart, ?_⟩
    · obtain ⟨-, batch, -, items⟩ := mem_draftedStates mem
      exact ((items item).mp own).2
    · intro one mem group none
      cases none
  constructor
  · intro draftable
    obtain ⟨t, done, ordered, groups⟩ := collect_draftable lowered separate draftable
    refine ⟨t, ?_, groups, ?_⟩
    · rw [mergedWorkbench_eq services candidates batches edits all, done]
    · refine complete_iff separate.each draftable apart (fun item => ?_) groups
      rw [ordered, initial]
      constructor
      · intro mem
        obtain ⟨batch, held, inside⟩ := List.mem_flatten.mp ((ids item).mpr mem)
        obtain ⟨one, own, items⟩ := exists_draftedState held
        exact ⟨one, own, (items item).mpr ⟨inside, mem⟩⟩
      · rintro ⟨one, own, inside⟩
        obtain ⟨-, batch, -, items⟩ := mem_draftedStates own
        exact ((items item).mp inside).2
  · intro refused
    obtain ⟨e, raises⟩ := collect_refused lowered separate refused
    exact ⟨e, by rw [mergedWorkbench_eq services candidates batches edits all, raises]⟩

end Stage

/-- Batches partition the work, whatever its order, and the merged drafts are the groups of
the batches that hold items. -/
theorem batches_partition_and_merge (services : Services)
    (lowered : ∀ kind : Kind, services.lower kind.text = kind.text) (maxBatchSize : Int)
    (positive : 1 ≤ maxBatchSize) :
    (∀ candidates : List DiscoveryCandidateResult,
      ((triageItems services.lower candidates).map Prod.snd).Nodup →
      ∃ batches, triageCandidateBatches services.lower candidates maxBatchSize = .ok batches ∧
        Batching maxBatchSize.toNat (triageItems services.lower candidates) batches ∧
        (∀ others, others.Perm candidates →
          triageCandidateBatches services.lower others maxBatchSize = .ok batches) ∧
        ∀ edits order, order.Perm (List.range batches.length) →
          Merges services candidates edits batches order) ∧
    ∀ planningCases : List PlanningBatches.PlanningCase,
      ((PlanningBatches.planningItems planningCases).map Prod.snd).Nodup →
      ∃ batches, PlanningBatches.planningCaseIdBatches planningCases maxBatchSize = .ok batches ∧
        Batching maxBatchSize.toNat (PlanningBatches.planningItems planningCases) batches ∧
        ∀ others, others.Perm planningCases →
          PlanningBatches.planningCaseIdBatches others maxBatchSize = .ok batches := by
  have positive : 0 < maxBatchSize := by omega
  constructor
  · intro candidates distinct
    obtain ⟨batches, done, batching⟩ := @triage_batching services.lower candidates _ positive
    refine ⟨batches, done, batching, fun others perm => ?_, fun edits order all => ?_⟩
    · rw [triage_order positive perm distinct, done]
    · exact merges_of_batching lowered batching distinct all
  · intro planningCases distinct
    obtain ⟨batches, done, batching⟩ := PlanningBatches.planning_batching positive
    refine ⟨batches, done, batching, fun others perm => ?_⟩
    rw [PlanningBatches.planning_order positive perm distinct, done]

/-- All groups of the batches, and complete when all of them are. -/
def MergesAll (services : Services) (candidates : List DiscoveryCandidateResult) (edits : Edits)
    (batches : List (List String)) (order : List Nat) : Prop :=
  ∃ t, mergedWorkbench services candidates batches edits order = .ok t ∧
    t.groups.map content = (draftedStates services candidates edits 1 batches).flatMap
      (fun one => one.groups.map content) ∧
    (constraints (policy services.lower) t = [] ↔
      ∀ one ∈ draftedStates services candidates edits 1 batches,
        constraints (policy services.lower) one = [])

def suppressGroup (candidateId : String) : TriageCall :=
  .createGroup {
    fields := {
      kind := some "suppress", reason := some "duplicate", summary := none,
      category := none, evidence := none }
    itemIds := some [candidateId] }

/-- The agent of the first batch keeps its candidate, and then suppresses it in a second group;
the one of the second batch keeps its candidate. -/
def secondThoughts (first second : String) : Edits where
  draft := []
  batch := fun index =>
    if index = 1 then [keepGroup first, suppressGroup first] else [keepGroup second]
  refinement := []

/-- The agent keeps its candidate, and then takes the summary away again. -/
def summaryRemoved (candidateId : String) : Edits where
  draft := []
  batch := fun _ => [
    keepGroup candidateId,
    .updateGroup {
      groupId := "group-1"
      fields := {
        kind := none, reason := none, summary := some " ", category := none, evidence := none }
      itemIds := none }]
  refinement := []

theorem lowered_someServices : ∀ kind : Kind, someServices.lower kind.text = kind.text :=
  fun _ => rfl

/-- The group left empty is not merged, and the one without its summary is refused. -/
theorem empty_group_not_merged :
    triageCandidateBatches someServices.lower [resultOf []] 30 = .ok [["fce9d79ebc8e809b"]] ∧
      ¬ MergesAll someServices [resultOf []] (secondThoughts "fce9d79ebc8e809b" "")
        [["fce9d79ebc8e809b"]] [0] ∧
      ¬ MergesAll someServices [resultOf []] (summaryRemoved "fce9d79ebc8e809b")
        [["fce9d79ebc8e809b"]] [0] := by
  refine ⟨by decide +kernel, ?_, ?_⟩
  · rintro ⟨t, done, groups, -⟩
    have one : (mergedWorkbench someServices [resultOf []] [["fce9d79ebc8e809b"]]
        (secondThoughts "fce9d79ebc8e809b" "") [0]).toOption.map
          (fun merged => (merged.groups.map content).length) = some 1 := by
      decide
    have two : ((draftedStates someServices [resultOf []] (secondThoughts "fce9d79ebc8e809b" "") 1
        [["fce9d79ebc8e809b"]]).flatMap fun one => one.groups.map content).length = 2 := by
      decide
    rw [done] at one
    have length : (t.groups.map content).length = 1 := Option.some.inj one
    rw [groups, two] at length
    cases length
  · rintro ⟨t, done, -⟩
    have refused : (mergedWorkbench someServices [resultOf []] [["fce9d79ebc8e809b"]]
        (summaryRemoved "fce9d79ebc8e809b") [0]).toOption.isNone = true := by
      decide
    rw [done] at refused
    cases refused

/-- Two candidates of one file are two batches, and the second one's drafts come back first. -/
theorem singletons_batch_and_merge :
    (∃ batches, batches.length = 2 ∧
      triageCandidateBatches someServices.lower [resultOf [], sinkResult] 1 = .ok batches ∧
      Batching 1 (triageItems someServices.lower [resultOf [], sinkResult]) batches ∧
      Merges someServices [resultOf [], sinkResult]
        (secondThoughts "b15fee58aa83c469" "fce9d79ebc8e809b") batches [1, 0]) ∧
    ∃ batches, PlanningBatches.planningCaseIdBatches
        [⟨"case-b", ["/src/a.py"]⟩, ⟨"case-a", ["src/a.py"]⟩] 1 = .ok batches ∧
      Batching 1 (PlanningBatches.planningItems
        [⟨"case-b", ["/src/a.py"]⟩, ⟨"case-a", ["src/a.py"]⟩]) batches := by
  have both := batches_partition_and_merge someServices lowered_someServices 1 (by decide)
  constructor
  · obtain ⟨batches, done, batching, -, merges⟩ := both.1 [resultOf [], sinkResult] (by decide)
    have two : batches.length = 2 := by
      rw [Batching.length_of_one batching]
      rfl
    refine ⟨batches, two, done, batching, merges _ _ ?_⟩
    rw [two]
    decide
  · obtain ⟨batches, done, batching, -⟩ := both.2
      [⟨"case-b", ["/src/a.py"]⟩, ⟨"case-a", ["src/a.py"]⟩] (by decide)
    exact ⟨batches, done, batching⟩

end BatchMerging
