import SecReviewBot.Agents.Workbench

/-!
# What the calls of a workbench do

Each call either raises before it changes anything, or it is a change of the groups that is
described here by a function of the state; the one exception is `create_group`, which moves
the counter before it looks at the items. From these descriptions follows that no item is
ever in two groups.
-/

namespace Workbench

open TextCodecs TextPieces FreshNames KeyedGroups FirstOccurrences ThrowingPrograms
open TransitionSystems

variable {D C U : Type}

theorem normalizedId_fixed {value id : String} (h : normalizedId value = some id) :
    normalizedId id = some id := by
  rw [normalizedId] at h
  split at h
  · cases h
  · next visible =>
    cases h
    rw [normalizedId, strip_strip, if_neg visible]

theorem normalizedId_of_mem {values : List String} {id : String} (mem : id ∈ dedupeIds values) :
    normalizedId id = some id := by
  rw [dedupeIds, List.mem_eraseDups] at mem
  obtain ⟨value, _, eq⟩ := List.mem_filterMap.mp mem
  exact normalizedId_fixed eq

theorem nodup_dedupeIds (values : List String) : (dedupeIds values).Nodup :=
  nodup_eraseDups _

theorem dedupeIds_eq_self {ids : List String} (trimmed : ∀ id ∈ ids, normalizedId id = some id)
    (distinct : ids.Nodup) : dedupeIds ids = ids := by
  rw [dedupeIds, List.filterMap_congr trimmed, List.filterMap_some, eraseDups_of_nodup distinct]

@[simp] theorem dedupeIds_dedupeIds (values : List String) :
    dedupeIds (dedupeIds values) = dedupeIds values :=
  dedupeIds_eq_self (fun _ mem => normalizedId_of_mem mem) (nodup_dedupeIds values)

theorem groupName_injective : Function.Injective groupName := by
  intro a b same
  have digits : numeral a = numeral b := by
    simpa [groupName] using congrArg String.toList same
  have value : Nat.ofDigitChars 10 (numeral a) 0 = Nat.ofDigitChars 10 (numeral b) 0 := by
    rw [digits]
  rwa [numeral, numeral, Nat.ofDigitChars_ten_toDigits, Nat.ofDigitChars_ten_toDigits] at value

theorem pythonSpace_of_isDigit {c : Char} (digit : c.isDigit = true) : pythonSpace c = false := by
  simp only [Char.isDigit, Bool.and_eq_true, decide_eq_true_eq] at digit
  have bounds : 48 ≤ c.toNat ∧ c.toNat ≤ 57 := digit
  exact pythonSpace_of_visible (by omega) (by omega)

theorem normalizedId_groupName (n : Nat) : normalizedId (groupName n) = some (groupName n) := by
  have visible : ∀ c ∈ (groupName n).toList, pythonSpace c = false := by
    intro c mem
    rw [groupName, String.toList_append, List.mem_append] at mem
    rcases mem with mem | mem
    · have each : ("group-".toList.all fun c => !pythonSpace c) = true := by decide
      simpa using List.all_eq_true.mp each c mem
    · rw [String.toList_ofList] at mem
      exact pythonSpace_of_isDigit (numeral_isDigit mem)
  have some : groupName n ≠ "" := by
    intro empty
    have chars := congrArg String.toList empty
    simp [groupName] at chars
  rw [normalizedId, strip_of_no_space visible, if_neg some]

theorem run_raised {α : Type} (x : Except String α) (s : State D) :
    (raised x : Edit D α).run.run s = (x, s) := by
  cases x <;> rfl

theorem run_stagedRun {α : Type} (program : Edit D α) (s : State D) :
    (stagedRun program).run.run s = match program.run.run s with
      | (.ok a, staged) => (.ok (a, staged), s)
      | (.error e, _) => (.error e, s) := by
  simp only [stagedRun, run_bind, run_get]
  rcases program.run.run s with ⟨e | a, t⟩ <;> rfl

theorem run_validateKnownItemIds (itemIds : List String) (s : State D) :
    (validateKnownItemIds itemIds : Edit D Unit).run.run s =
      if unknownItemIds s itemIds = [] then (.ok (), s)
      else (.error ("unknown item_id(s): " ++ ", ".intercalate (unknownItemIds s itemIds)), s) := by
  rw [validateKnownItemIds, run_bind, run_get]
  by_cases known : unknownItemIds s itemIds = []
  · simp only [known, ne_eq, not_true_eq_false, if_false, if_true]
    rfl
  · simp only [known, ne_eq, not_false_eq_true, if_true, if_false]
    rfl

theorem unknownItemIds_dedupeIds (s : State D) (itemIds : List String) :
    unknownItemIds s (dedupeIds itemIds) = unknownItemIds s itemIds := by
  rw [unknownItemIds, unknownItemIds, dedupeIds_dedupeIds]

/-- `unknownItemIds` is empty when every id is known. -/
theorem unknownItemIds_eq_nil_iff {s : State D} {itemIds : List String} :
    unknownItemIds s itemIds = [] ↔ ∀ id ∈ dedupeIds itemIds, id ∈ s.orderedItemIds := by
  rw [unknownItemIds, List.filter_eq_nil_iff]
  simp

/-- The number a single call gives out next. -/
def nextNumber (s : State D) : Nat := fresh groupName s.keys s.nextGroupNumber

/-- The counter moved past the number given out. -/
def counted (s : State D) : State D := { s with nextGroupNumber := nextNumber s + 1 }

theorem nextNumber_notMem (s : State D) : groupName (nextNumber s) ∉ (counted s).keys :=
  fresh_notMem groupName_injective s.keys s.nextGroupNumber

section Policies

variable (policy : Policy D C U)

/-- The items of a group after it was given some. -/
def given (itemIds : List String) (s : State D) : List String :=
  policy.place s.orderedItemIds (dedupeIds itemIds)

/-- The items are given to the group, if any were named. -/
def giveNamed (groupId : String) (itemIds : Option (List String)) (s : State D) : State D :=
  match itemIds with
  | some ids => giveItems groupId (given policy ids s) s
  | none => s

theorem run_replaceGroupItems (groupId : String) (ids : List String) {s : State D}
    (known : unknownItemIds s ids = []) :
    (replaceGroupItems policy groupId ids).run.run s =
      (.ok (), giveItems groupId (given policy ids s) s) := by
  rw [replaceGroupItems, run_bind, run_validateKnownItemIds, unknownItemIds_dedupeIds, known,
    if_pos rfl]
  rfl

/-- The state with one more group, holding the named items. -/
def withGroup (groupId : String) (data : D) (itemIds : Option (List String)) (s : State D) :
    State D :=
  giveNamed policy groupId itemIds { s with groups := s.groups ++ [{ groupId, data, itemIds := [] }] }

/-- `_create_group` once the id is chosen. -/
theorem run_addGroup {input : CreateInput C} {chosen : Option String} {id : String}
    {data : D} {s t : State D}
    (choice : (chooseGroupId chosen : Edit D String).run.run s = (.ok id, t))
    (new : id ∉ t.keys) (made : policy.newGroup input.fields = .ok data) :
    (addGroup policy input chosen).run.run s =
      if unknownItemIds t (input.itemIds.getD []) = [] then
        (.ok id, withGroup policy id data input.itemIds t)
      else
        (.error ("unknown item_id(s): " ++
          ", ".intercalate (unknownItemIds t (input.itemIds.getD []))), t) := by
  rw [addGroup, run_bind, choice]
  simp only [run_bind, run_get, new, if_false, run_validateKnownItemIds, made]
  by_cases known : unknownItemIds t (input.itemIds.getD []) = []
  · simp only [known, if_true, run_raised, run_modify]
    cases named : input.itemIds with
    | none => rfl
    | some ids =>
      rw [named] at known
      have known' : unknownItemIds (D := D)
          { t with groups := t.groups ++ [{ groupId := id, data, itemIds := [] }] } ids = [] := known
      simp only [run_bind, run_replaceGroupItems policy id ids known', run_pure]
      rfl
  · simp only [known, if_false]

theorem run_chooseGroupId_named {id : String} (trimmed : normalizedId id = some id) (s : State D) :
    (chooseGroupId (some id) : Edit D String).run.run s = (.ok id, s) := by
  simp only [chooseGroupId, Option.bind_some, trimmed]
  rfl

theorem run_chooseGroupId_next (s : State D) :
    (chooseGroupId none : Edit D String).run.run s =
      (.ok (groupName (nextNumber s)), counted s) := rfl

/-- The group an id of the agent means. -/
def findGroup (s : State D) (groupId : String) : Option (ItemGroup D) :=
  (normalizedId groupId).bind fun id => s.groups.find? fun group => group.groupId = id

/-- The state with the texts of a group revised and the named items given to it. -/
def withRevision (groupId : String) (data : D) (itemIds : Option (List String)) (s : State D) :
    State D :=
  giveNamed policy groupId itemIds { s with
    groups := s.groups.map fun other =>
      if other.groupId = groupId then { other with data } else other }

/-- An update that is let through: the group is there, its items are known and its texts
can be revised. -/
structure Updates (input : UpdateInput U) (s : State D) (group : ItemGroup D) (data : D) : Prop where
  found : findGroup s input.groupId = some group
  known : unknownItemIds s (input.itemIds.getD []) = []
  made : policy.revise input.fields group.data = .ok data

theorem run_changeGroup {input : UpdateInput U} {s : State D} {group : ItemGroup D} {data : D}
    (h : Updates policy input s group data) :
    (changeGroup policy input).run.run s =
      (.ok group.groupId, withRevision policy group.groupId data input.itemIds s) := by
  have found := h.found
  have known := h.known
  rw [findGroup] at found
  simp only [changeGroup, run_bind, run_get, found, run_validateKnownItemIds, known, if_true,
    h.made, run_raised, run_modify]
  cases named : input.itemIds with
  | none => rfl
  | some ids =>
    rw [named] at known
    have known' : unknownItemIds (D := D) { s with
        groups := s.groups.map fun other =>
          if other.groupId = group.groupId then { other with data } else other } ids = [] := known
    simp only [run_bind, run_replaceGroupItems policy group.groupId ids known', run_pure]
    rfl

/-- An update raises and changes nothing, or is let through. -/
theorem changeGroup_cases {input : UpdateInput U} (s : State D)
    (valid : policy.validateUpdate input.fields = .ok ()) :
    (∃ e, (changeGroup policy input).run.run s = (.error e, s)) ∨
      ∃ group data, Updates policy input s group data := by
  cases found : findGroup s input.groupId with
  | none =>
    refine .inl ⟨"unknown group_id: " ++ input.groupId, ?_⟩
    rw [findGroup] at found
    simp only [changeGroup, run_bind, run_get, found]
    rfl
  | some group =>
    by_cases known : unknownItemIds s (input.itemIds.getD []) = []
    · obtain ⟨data, made⟩ := policy.revise_valid input.fields group.data valid
      exact .inr ⟨group, data, found, known, made⟩
    · refine .inl ⟨"unknown item_id(s): " ++
        ", ".intercalate (unknownItemIds s (input.itemIds.getD [])), ?_⟩
      rw [findGroup] at found
      simp only [changeGroup, run_bind, run_get, found, run_validateKnownItemIds, known, if_false]

/-- The state without the group an id means, if there is one. -/
def without (groupId : String) (s : State D) : State D :=
  { s with groups := s.groups.filter fun other => some other.groupId ≠ normalizedId groupId }

theorem findGroup_some {s : State D} {groupId : String} {group : ItemGroup D}
    (found : findGroup s groupId = some group) :
    normalizedId groupId = some group.groupId ∧ group ∈ s.groups := by
  rw [findGroup, Option.bind_eq_some_iff] at found
  obtain ⟨id, trimmed, found⟩ := found
  have same : group.groupId = id := by simpa using List.find?_some found
  rw [trimmed, same]
  exact ⟨rfl, List.mem_of_find?_eq_some found⟩

theorem without_of_findGroup_none {s : State D} {groupId : String}
    (absent : findGroup s groupId = none) : without groupId s = s := by
  have kept : s.groups.filter (fun other => some other.groupId ≠ normalizedId groupId) =
      s.groups := by
    rw [List.filter_eq_self]
    intro group mem
    cases trimmed : normalizedId groupId with
    | none => simp
    | some id =>
      rw [findGroup, trimmed, Option.bind_some, List.find?_eq_none] at absent
      simpa using absent group mem
  rw [without, kept]

theorem run_removeGroup (groupId : String) (s : State D) :
    (removeGroup groupId).run.run s =
      (.ok ((findGroup s groupId).map ItemGroup.groupId,
        ((findGroup s groupId).map ItemGroup.itemIds).getD []), without groupId s) := by
  cases found : findGroup s groupId with
  | none =>
    have found' := found
    rw [findGroup] at found'
    simp only [removeGroup, run_bind, run_get, found', without_of_findGroup_none found]
    rfl
  | some group =>
    have left : without groupId s =
        { s with groups := s.groups.filter fun other => other.groupId ≠ group.groupId } := by
      rw [without, (findGroup_some found).1]
      simp
    rw [findGroup] at found
    simp only [removeGroup, run_bind, run_get, found, left]
    rfl

@[simp] theorem keys_giveItems (groupId : String) (items : List String) (s : State D) :
    (giveItems groupId items s).keys = s.keys := by
  rw [State.keys, giveItems, List.map_map, State.keys]
  refine List.map_congr_left fun group _ => ?_
  rw [Function.comp_apply]
  split <;> rfl

@[simp] theorem keys_giveNamed (groupId : String) (itemIds : Option (List String)) (s : State D) :
    (giveNamed policy groupId itemIds s).keys = s.keys := by
  cases itemIds with
  | none => rfl
  | some ids => exact keys_giveItems _ _ _

@[simp] theorem keys_withGroup (groupId : String) (data : D) (itemIds : Option (List String))
    (s : State D) : (withGroup policy groupId data itemIds s).keys = s.keys ++ [groupId] := by
  rw [withGroup, keys_giveNamed, State.keys, List.map_append]
  rfl

@[simp] theorem keys_withRevision (groupId : String) (data : D) (itemIds : Option (List String))
    (s : State D) : (withRevision policy groupId data itemIds s).keys = s.keys := by
  rw [withRevision, keys_giveNamed, State.keys, List.map_map, State.keys]
  refine List.map_congr_left fun group _ => ?_
  rw [Function.comp_apply]
  split <;> rfl

/-- Everything but the groups. -/
def rest (s : State D) : List String × List Operation × Nat :=
  (s.orderedItemIds, s.editEvents, s.nextGroupNumber)

@[simp] theorem rest_giveNamed (groupId : String) (itemIds : Option (List String)) (s : State D) :
    rest (giveNamed policy groupId itemIds s) = rest s := by
  cases itemIds <;> rfl

@[simp] theorem rest_withGroup (groupId : String) (data : D) (itemIds : Option (List String))
    (s : State D) : rest (withGroup policy groupId data itemIds s) = rest s := by
  rw [withGroup, rest_giveNamed]
  rfl

@[simp] theorem rest_withRevision (groupId : String) (data : D) (itemIds : Option (List String))
    (s : State D) : rest (withRevision policy groupId data itemIds s) = rest s := by
  rw [withRevision, rest_giveNamed]
  rfl

@[simp] theorem rest_without (groupId : String) (s : State D) : rest (without groupId s) = rest s :=
  rfl

theorem unknownItemIds_of_rest {s t : State D} (same : rest s = rest t) (ids : List String) :
    unknownItemIds s ids = unknownItemIds t ids := by
  have items : s.orderedItemIds = t.orderedItemIds := congrArg Prod.fst same
  rw [unknownItemIds, unknownItemIds, items]

/-- A copy that differs in its groups alone is taken over as it is. -/
theorem run_adopt {s staged : State D} (same : rest staged = rest s) :
    (adopt staged : Edit D Unit).run.run s = (.ok (), staged) := by
  obtain ⟨ordered, groups, events, number⟩ := s
  obtain ⟨ordered', groups', events', number'⟩ := staged
  cases same
  rfl

theorem forM_eq_ok_iff {α : Type} (f : α → Except String Unit) (xs : List α) :
    forM xs f = .ok () ↔ ∀ x ∈ xs, f x = .ok () := by
  induction xs with
  | nil => simp [pure, Except.pure]
  | cons x xs ih =>
    rw [List.forM_cons, List.forall_mem_cons, ← ih]
    cases f x with
    | error e => simp [bind, Except.bind]
    | ok a => simp [bind, Except.bind]

theorem run_validateAll {inputs : List (CreateInput C)} {s : State D}
    (known : ∀ input ∈ inputs, unknownItemIds s (input.itemIds.getD []) = []) :
    (forM inputs fun input => validateKnownItemIds (input.itemIds.getD []) :
      Edit D Unit).run.run s = (.ok (), s) := by
  induction inputs with
  | nil => rfl
  | cons input inputs ih =>
    rw [List.forall_mem_cons] at known
    simp only [List.forM_cons, run_bind, run_validateKnownItemIds, known.1, if_true]
    exact ih known.2

/-- The first input with an unknown item raises. -/
theorem run_validateAll_refused {inputs : List (CreateInput C)} {s : State D}
    (unknown : ¬ ∀ input ∈ inputs, unknownItemIds s (input.itemIds.getD []) = []) :
    ∃ e, (forM inputs fun input => validateKnownItemIds (input.itemIds.getD []) :
      Edit D Unit).run.run s = (.error e, s) := by
  induction inputs with
  | nil => exact absurd (by simp) unknown
  | cons input inputs ih =>
    rw [List.forall_mem_cons, not_and] at unknown
    simp only [List.forM_cons, run_bind, run_validateKnownItemIds]
    by_cases known : unknownItemIds s (input.itemIds.getD []) = []
    · simp only [known, if_true]
      exact ih (unknown known)
    · simp only [known, if_false]
      exact ⟨_, rfl⟩

/-- The groups of a batch, added one after another. -/
def withGroups : List (CreateInput C × String) → State D → State D
  | [], s => s
  | (input, groupId) :: later, s =>
    match policy.newGroup input.fields with
    | .ok data => withGroups later (withGroup policy groupId data input.itemIds s)
    | .error _ => withGroups later s

@[simp] theorem rest_withGroups (pairs : List (CreateInput C × String)) (s : State D) :
    rest (withGroups policy pairs s) = rest s := by
  induction pairs generalizing s with
  | nil => rfl
  | cons pair later ih =>
    rw [withGroups]
    split
    · rw [ih, rest_withGroup]
    · rw [ih]

/-- Groups that can be added one after another under the names they come with. -/
structure Creates (s : State D) (pairs : List (CreateInput C × String)) : Prop where
  valid : ∀ pair ∈ pairs, ∃ data, policy.newGroup pair.1.fields = .ok data
  known : ∀ pair ∈ pairs, unknownItemIds s (pair.1.itemIds.getD []) = []
  trimmed : ∀ pair ∈ pairs, normalizedId pair.2 = some pair.2
  new : ∀ pair ∈ pairs, pair.2 ∉ s.keys
  distinct : (pairs.map Prod.snd).Nodup

theorem Creates.tail {s : State D} {input : CreateInput C} {id : String} {data : D}
    {later : List (CreateInput C × String)} (h : Creates policy s ((input, id) :: later)) :
    Creates policy (withGroup policy id data input.itemIds s) later where
  valid := fun other mem => h.valid other (List.mem_cons_of_mem _ mem)
  known := fun other mem => by
    rw [unknownItemIds_of_rest (rest_withGroup policy id data input.itemIds s)]
    exact h.known other (List.mem_cons_of_mem _ mem)
  trimmed := fun other mem => h.trimmed other (List.mem_cons_of_mem _ mem)
  new := fun other mem => by
    rw [keys_withGroup, List.mem_append, List.mem_singleton, not_or]
    refine ⟨h.new other (List.mem_cons_of_mem _ mem), ?_⟩
    intro same
    have distinct := h.distinct
    rw [List.map_cons, List.nodup_cons] at distinct
    exact distinct.1 (List.mem_map.mpr ⟨other, mem, same⟩)
  distinct := (List.nodup_cons.mp h.distinct).2

theorem keys_withGroups {pairs : List (CreateInput C × String)} {s : State D}
    (h : Creates policy s pairs) :
    (withGroups policy pairs s).keys = s.keys ++ pairs.map Prod.snd := by
  induction pairs generalizing s with
  | nil => simp [withGroups]
  | cons pair later ih =>
    obtain ⟨data, made⟩ := h.valid pair List.mem_cons_self
    simp only [withGroups, made]
    rw [ih h.tail, keys_withGroup, List.append_assoc]
    rfl

theorem run_addGroups {pairs : List (CreateInput C × String)} {s : State D}
    (h : Creates policy s pairs) :
    (addGroups policy pairs).run.run s = (.ok (pairs.map Prod.snd), withGroups policy pairs s) := by
  induction pairs generalizing s with
  | nil => rfl
  | cons pair later ih =>
    obtain ⟨input, id⟩ := pair
    obtain ⟨data, made⟩ := h.valid _ List.mem_cons_self
    have first := run_addGroup policy (run_chooseGroupId_named (h.trimmed _ List.mem_cons_self) s)
      (h.new _ List.mem_cons_self) made
    rw [if_pos (h.known _ List.mem_cons_self)] at first
    simp only [addGroups, run_bind, first, ih h.tail, run_pure, withGroups, made]
    rfl

/-- A batch of updates, each let through in the state the earlier ones left. -/
inductive UpdatesAll : List (UpdateInput U) → State D → List String → State D → Prop
  | nil (s : State D) : UpdatesAll [] s [] s
  | cons {input : UpdateInput U} {later : List (UpdateInput U)} {s t : State D}
      {group : ItemGroup D} {data : D} {ids : List String} (first : Updates policy input s group data)
      (next : UpdatesAll later (withRevision policy group.groupId data input.itemIds s) ids t) :
      UpdatesAll (input :: later) s (group.groupId :: ids) t

theorem run_changeGroups {inputs : List (UpdateInput U)} {s t : State D} {ids : List String}
    (h : UpdatesAll policy inputs s ids t) :
    (changeGroups policy inputs).run.run s = (.ok ids, t) := by
  induction h with
  | nil s => rfl
  | cons first next ih =>
    simp only [changeGroups, run_bind, run_changeGroup policy first, ih]
    rfl

theorem changeGroups_cases {inputs : List (UpdateInput U)} (s : State D)
    (valid : ∀ input ∈ inputs, policy.validateUpdate input.fields = .ok ()) :
    (∃ e t, (changeGroups policy inputs).run.run s = (.error e, t)) ∨
      ∃ ids t, UpdatesAll policy inputs s ids t := by
  induction inputs generalizing s with
  | nil => exact .inr ⟨[], s, .nil s⟩
  | cons input later ih =>
    rw [List.forall_mem_cons] at valid
    rcases changeGroup_cases policy s valid.1 with ⟨e, raises⟩ | ⟨group, data, first⟩
    · refine .inl ⟨e, s, ?_⟩
      simp only [changeGroups, run_bind, raises]
    · rcases ih (withRevision policy group.groupId data input.itemIds s) valid.2 with
        ⟨e, t, raises⟩ | ⟨ids, t, next⟩
      · refine .inl ⟨e, t, ?_⟩
        simp only [changeGroups, run_bind, run_changeGroup policy first, raises]
      · exact .inr ⟨group.groupId :: ids, t, .cons first next⟩

theorem rest_updatesAll {inputs : List (UpdateInput U)} {s t : State D} {ids : List String}
    (h : UpdatesAll policy inputs s ids t) : rest t = rest s := by
  induction h with
  | nil s => rfl
  | cons first next ih => rw [ih, rest_withRevision]

def withoutAll (groupIds : List String) (s : State D) : State D :=
  groupIds.foldl (fun s groupId => without groupId s) s

@[simp] theorem rest_withoutAll (groupIds : List String) (s : State D) :
    rest (withoutAll groupIds s) = rest s := by
  induction groupIds generalizing s with
  | nil => rfl
  | cons id later ih => exact (ih (without id s)).trans (rest_without id s)

theorem run_removeGroups (groupIds : List String) (s : State D) :
    ∃ removed, (removeGroups groupIds).run.run s = (.ok removed, withoutAll groupIds s) := by
  induction groupIds generalizing s with
  | nil => exact ⟨([], []), rfl⟩
  | cons id later ih =>
    obtain ⟨removed, next⟩ := ih (without id s)
    refine ⟨(((findGroup s id).map ItemGroup.groupId).toList ++ removed.1,
      ((findGroup s id).map ItemGroup.itemIds).getD [] ++ removed.2), ?_⟩
    simp only [removeGroups, run_bind, run_removeGroup, next]
    rfl

/-- The state with the call on record. -/
def recorded (operation : Operation) (s : State D) : State D :=
  { s with editEvents := s.editEvents ++ [operation] }

theorem checkCreate_data {input : CreateInput C} (valid : checkCreate policy input = .ok ()) :
    ∃ data, policy.newGroup input.fields = .ok data := by
  rw [checkCreate] at valid
  split at valid
  · cases valid
  · exact policy.newGroup_valid _ valid

theorem checkUpdate_valid {input : UpdateInput U} (valid : checkUpdate policy input = .ok ()) :
    policy.validateUpdate input.fields = .ok () := by
  rw [checkUpdate] at valid
  split at valid
  · cases valid
  · cases texts : policy.validateUpdate input.fields with
    | error e =>
      simp only [texts, bind, Except.bind] at valid
      cases valid
    | ok a => rfl

/-- The call does not raise. -/
def Accepts (s : State D) : Call C U → Prop
  | .createGroup input =>
    checkCreate policy input = .ok () ∧ unknownItemIds s (input.itemIds.getD []) = []
  | .createGroups inputs =>
    (∀ input ∈ inputs, checkCreate policy input = .ok ()) ∧
      ∀ input ∈ inputs, unknownItemIds s (input.itemIds.getD []) = []
  | .updateGroup input =>
    checkUpdate policy input = .ok () ∧ ∃ group data, Updates policy input s group data
  | .updateGroups inputs =>
    (∀ input ∈ inputs, checkUpdate policy input = .ok ()) ∧
      ∃ ids t, UpdatesAll policy inputs s ids t
  | .deleteGroup groupId => normalizedId groupId ≠ none
  | .deleteGroups groupIds => dedupeIds groupIds ≠ []
  | .refused _ => False

/-- `create_group` once its texts are accepted. -/
theorem performed_createGroup {input : CreateInput C} {s : State D} {data : D}
    (check : checkCreate policy input = .ok ())
    (known : unknownItemIds s (input.itemIds.getD []) = [])
    (made : policy.newGroup input.fields = .ok data) :
    performed policy (.createGroup input) s =
      (.ok (mutationResult policy .createGroup [groupName (nextNumber s)]
          [groupName (nextNumber s)] [] [] none
          (recorded .createGroup
            (withGroup policy (groupName (nextNumber s)) data input.itemIds (counted s)))),
        recorded .createGroup
          (withGroup policy (groupName (nextNumber s)) data input.itemIds (counted s))) := by
  have added := run_addGroup policy (run_chooseGroupId_next s) (nextNumber_notMem s) made
  have known' : unknownItemIds (counted s) (input.itemIds.getD []) = [] := known
  rw [if_pos known'] at added
  simp only [performed, perform, createGroup, run_bind, check, run_raised, added, recordEdit,
    run_modify, run_get, run_pure]
  rfl

/-- A `create_group` that raises over its items has already moved the counter. -/
theorem performed_createGroup_refused {input : CreateInput C} {s : State D}
    (refused : ¬ Accepts policy s (.createGroup input)) :
    ∃ e, performed policy (.createGroup input) s =
      (.error e, if checkCreate policy input = .ok () then counted s else s) := by
  cases check : checkCreate policy input with
  | error e =>
    refine ⟨e, ?_⟩
    simp only [performed, perform, createGroup, run_bind, check, run_raised]
    rfl
  | ok _ =>
    obtain ⟨data, made⟩ := checkCreate_data policy check
    have added := run_addGroup policy (run_chooseGroupId_next s) (nextNumber_notMem s) made
    have unknown : ¬ unknownItemIds (counted s) (input.itemIds.getD []) = [] := fun known =>
      refused ⟨check, known⟩
    rw [if_neg unknown] at added
    refine ⟨"unknown item_id(s): " ++
      ", ".intercalate (unknownItemIds (counted s) (input.itemIds.getD [])), ?_⟩
    simp only [performed, perform, createGroup, run_bind, check, run_raised, added, if_true]

/-- The inputs of a batch with the names chosen for them. -/
def namedInputs (inputs : List (CreateInput C)) (s : State D) : List (CreateInput C × String) :=
  inputs.zip (nextCreateGroupIds s inputs.length)

theorem namedInputs_snd (inputs : List (CreateInput C)) (s : State D) :
    (namedInputs inputs s).map Prod.snd = nextCreateGroupIds s inputs.length := by
  rw [namedInputs, List.map_snd_zip]
  simp [nextCreateGroupIds, freshMany_length]

theorem nodup_nextCreateGroupIds (s : State D) (count : Nat) :
    (nextCreateGroupIds s count).Nodup :=
  (freshMany_nodup groupName_injective _ _ _).map groupName_injective

theorem creates_namedInputs {inputs : List (CreateInput C)} {s : State D}
    (valid : ∀ input ∈ inputs, checkCreate policy input = .ok ())
    (known : ∀ input ∈ inputs, unknownItemIds s (input.itemIds.getD []) = []) :
    Creates policy s (namedInputs inputs s) where
  valid := fun _ mem => checkCreate_data policy (valid _ (List.of_mem_zip mem).1)
  known := fun _ mem => known _ (List.of_mem_zip mem).1
  trimmed := fun pair mem => by
    obtain ⟨n, _, eq⟩ := List.mem_map.mp (List.of_mem_zip mem).2
    rw [← eq]
    exact normalizedId_groupName n
  new := fun pair mem => by
    obtain ⟨n, given, eq⟩ := List.mem_map.mp (List.of_mem_zip mem).2
    rw [← eq]
    exact (freshMany_free groupName_injective _ _ _ n given).2
  distinct := by
    rw [namedInputs_snd]
    exact nodup_nextCreateGroupIds s inputs.length

/-- `create_groups` adds its groups under the next free names. -/
theorem performed_createGroups {inputs : List (CreateInput C)} {s : State D}
    (valid : ∀ input ∈ inputs, checkCreate policy input = .ok ())
    (known : ∀ input ∈ inputs, unknownItemIds s (input.itemIds.getD []) = []) :
    performed policy (.createGroups inputs) s =
      (.ok (mutationResult policy .createGroups (nextCreateGroupIds s inputs.length)
          (nextCreateGroupIds s inputs.length) [] [] none
          (recorded .createGroups (withGroups policy (namedInputs inputs s) s))),
        recorded .createGroups (withGroups policy (namedInputs inputs s) s)) := by
  have added := run_addGroups policy (creates_namedInputs policy valid known)
  rw [namedInputs_snd, namedInputs] at added
  have check : forM inputs (checkCreate policy) = .ok () := (forM_eq_ok_iff _ _).mpr valid
  simp only [performed, perform, createGroups, run_bind, check, run_raised, run_stagedRun,
    run_get, run_validateAll known, added, run_adopt (rest_withGroups policy _ s), recordEdit,
    run_modify, run_pure]
  rfl

theorem performed_updateGroup {input : UpdateInput U} {s : State D} {group : ItemGroup D} {data : D}
    (check : checkUpdate policy input = .ok ()) (lets : Updates policy input s group data) :
    performed policy (.updateGroup input) s =
      (.ok (mutationResult policy .updateGroup [] [group.groupId] [] [] none
          (recorded .updateGroup (withRevision policy group.groupId data input.itemIds s))),
        recorded .updateGroup (withRevision policy group.groupId data input.itemIds s)) := by
  simp only [performed, perform, updateGroup, run_bind, check, run_raised,
    run_changeGroup policy lets, recordEdit, run_modify, run_get, run_pure]
  rfl

theorem performed_updateGroups {inputs : List (UpdateInput U)} {s t : State D} {ids : List String}
    (valid : ∀ input ∈ inputs, checkUpdate policy input = .ok ())
    (lets : UpdatesAll policy inputs s ids t) :
    performed policy (.updateGroups inputs) s =
      (.ok (mutationResult policy .updateGroups [] ids [] [] none (recorded .updateGroups t)),
        recorded .updateGroups t) := by
  have check : forM inputs (checkUpdate policy) = .ok () := (forM_eq_ok_iff _ _).mpr valid
  simp only [performed, perform, updateGroups, run_bind, check, run_raised, run_stagedRun,
    run_changeGroups policy lets, run_adopt (rest_updatesAll policy lets), recordEdit,
    run_modify, run_get, run_pure]
  rfl

theorem performed_deleteGroup {groupId : String} (s : State D)
    (named : normalizedId groupId ≠ none) :
    ∃ deleted released, performed policy (.deleteGroup groupId) s =
      (.ok (mutationResult policy .deleteGroup [] [] deleted released (some released)
          (recorded .deleteGroup (without groupId s))),
        recorded .deleteGroup (without groupId s)) := by
  refine ⟨((findGroup s groupId).map ItemGroup.groupId).toList,
    ((findGroup s groupId).map ItemGroup.itemIds).getD [], ?_⟩
  simp only [performed, perform, deleteGroup, named, if_false, run_bind, run_removeGroup,
    recordEdit, run_modify, run_get, run_pure]
  rfl

theorem performed_deleteGroups {groupIds : List String} (s : State D)
    (named : dedupeIds groupIds ≠ []) :
    ∃ deleted released, performed policy (.deleteGroups groupIds) s =
      (.ok (mutationResult policy .deleteGroups [] [] deleted released (some released)
          (recorded .deleteGroups (withoutAll (dedupeIds groupIds) s))),
        recorded .deleteGroups (withoutAll (dedupeIds groupIds) s)) := by
  obtain ⟨⟨deleted, released⟩, removes⟩ := run_removeGroups (dedupeIds groupIds) s
  refine ⟨deleted, released, ?_⟩
  simp only [performed, perform, deleteGroups, named, if_false, run_bind, run_stagedRun, removes,
    run_adopt (rest_withoutAll _ s), recordEdit, run_modify, run_get, run_pure]
  rfl

/-- Every other call that raises leaves the state as it was. -/
theorem performed_refused {call : Call C U} {s : State D} (refused : ¬ Accepts policy s call)
    (other : ∀ input, call ≠ .createGroup input) :
    ∃ e, performed policy call s = (.error e, s) := by
  cases call with
  | createGroup input => exact absurd rfl (other input)
  | createGroups inputs =>
    cases check : forM inputs (checkCreate policy) with
    | error e =>
      refine ⟨e, ?_⟩
      simp only [performed, perform, createGroups, run_bind, check, run_raised]
    | ok _ =>
      have valid := (forM_eq_ok_iff _ _).mp check
      obtain ⟨e, raises⟩ := run_validateAll_refused (s := s) fun known => refused ⟨valid, known⟩
      refine ⟨e, ?_⟩
      simp only [performed, perform, createGroups, run_bind, check, run_raised, run_stagedRun,
        run_get, raises]
  | updateGroup input =>
    cases check : checkUpdate policy input with
    | error e =>
      refine ⟨e, ?_⟩
      simp only [performed, perform, updateGroup, run_bind, check, run_raised]
    | ok _ =>
      rcases changeGroup_cases policy s (checkUpdate_valid policy check) with ⟨e, raises⟩ | lets
      · refine ⟨e, ?_⟩
        simp only [performed, perform, updateGroup, run_bind, check, run_raised, raises]
      · exact absurd ⟨check, lets⟩ refused
  | updateGroups inputs =>
    cases check : forM inputs (checkUpdate policy) with
    | error e =>
      refine ⟨e, ?_⟩
      simp only [performed, perform, updateGroups, run_bind, check, run_raised]
    | ok _ =>
      have valid := (forM_eq_ok_iff _ _).mp check
      rcases changeGroups_cases policy s fun input mem =>
        checkUpdate_valid policy (valid input mem) with ⟨e, t, raises⟩ | lets
      · refine ⟨e, ?_⟩
        simp only [performed, perform, updateGroups, run_bind, check, run_raised, run_stagedRun,
          raises]
      · exact absurd ⟨valid, lets⟩ refused
  | deleteGroup groupId =>
    have blank : normalizedId groupId = none := not_not.mp refused
    refine ⟨"delete_group requires group_id.", ?_⟩
    simp only [performed, perform, deleteGroup, blank, if_true]
    rfl
  | deleteGroups groupIds =>
    have blank : dedupeIds groupIds = [] := not_not.mp refused
    refine ⟨"delete_groups requires at least one non-empty group id.", ?_⟩
    simp only [performed, perform, deleteGroups, blank, if_true]
    rfl
  | refused reason => exact ⟨reason, rfl⟩

end Policies

end Workbench
