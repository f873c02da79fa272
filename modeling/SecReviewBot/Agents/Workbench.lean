import SecReviewBot.FirstOccurrences
import SecReviewBot.FreshNames
import SecReviewBot.KeyedGroups
import SecReviewBot.TextPieces
import SecReviewBot.ThrowingPrograms
import SecReviewBot.TransitionSystems

/-!
# Workbenches

The triage agent and the delivery planning agent edit groups of items through the same six
calls (`agents/triage/workbench_state.py`, `agents/delivery_planning/workbench_state.py`).
The two classes differ in the texts a group carries, in how its items are ordered and in
the constraints; a `Policy` is that difference. A call that raises keeps what it had changed
by then: single calls edit the state itself, batch calls a copy.
-/

namespace Workbench

open TextCodecs TextPieces FreshNames KeyedGroups ThrowingPrograms TransitionSystems

/-- `_normalized_id` and `_normalized_text` of a given value. -/
def normalizedId (value : String) : Option String :=
  if strip pythonSpace value = "" then none else some (strip pythonSpace value)

def dedupeIds (values : List String) : List String := (values.filterMap normalizedId).eraseDups

def nonEmptyStrings (values : Option (List String)) : List String :=
  (values.getD []).filterMap normalizedId

/-- `f"group-{number}"`. -/
def groupName (number : Nat) : String := "group-" ++ String.ofList (numeral number)

structure ItemGroup (D : Type) where
  groupId : String
  data : D
  itemIds : List String
  deriving DecidableEq

inductive Operation where
  | createGroup | createGroups | updateGroup | updateGroups | deleteGroup | deleteGroups
  deriving DecidableEq

/-- The groups in the order in which they were made; the known items are those of
`orderedItemIds`. -/
structure State (D : Type) where
  orderedItemIds : List String
  groups : List (ItemGroup D)
  editEvents : List Operation
  nextGroupNumber : Nat
  deriving DecidableEq

inductive ConstraintError where
  | incompleteCoverage (itemIds : List String)
  | emptyGroup (groupId : String)
  | keepMissingSummary (groupId : String)
  | keepMissingCategory (groupId : String)
  | keepMissingEvidence (groupId : String)
  | suppressMissingReason (groupId : String)
  | invalidGroupKind (groupId kind : String) (allowedKinds : List String)
  deriving DecidableEq

structure CreateInput (C : Type) where
  fields : C
  itemIds : Option (List String)

structure UpdateInput (U : Type) where
  groupId : String
  fields : U
  itemIds : Option (List String)

/-- What one workbench does differently from the other. -/
structure Policy (D C U : Type) where
  /-- The part of `validate_create` about the texts. -/
  validateCreate : C → Except String Unit
  newGroup : C → Except String D
  newGroup_valid : ∀ fields, validateCreate fields = .ok () → ∃ data, newGroup fields = .ok data
  validateUpdate : U → Except String Unit
  revise : U → D → Except String D
  revise_valid : ∀ fields data, validateUpdate fields = .ok () →
    ∃ revised, revise fields data = .ok revised
  /-- The order in which a group keeps the items it is given. -/
  place : List String → List String → List String
  place_nodup : ∀ ordered ids, ordered.Nodup → ids.Nodup → (place ordered ids).Nodup
  mem_place : ∀ ordered ids item, (∀ id ∈ ids, id ∈ ordered) →
    (item ∈ place ordered ids ↔ item ∈ ids)
  kind : D → String
  groupErrors : ItemGroup D → List ConstraintError

variable {D C U : Type}

def State.keys (s : State D) : List String := s.groups.map ItemGroup.groupId

def unprocessedItemIds (s : State D) : List String :=
  s.orderedItemIds.filter fun item => item ∉ s.groups.flatMap ItemGroup.itemIds

def constraints (policy : Policy D C U) (s : State D) : List ConstraintError :=
  (if unprocessedItemIds s = [] then [] else [.incompleteCoverage (unprocessedItemIds s)]) ++
    s.groups.flatMap policy.groupErrors

abbrev Edit (D : Type) := ExceptT String (StateM (State D))

def raised {α : Type} : Except String α → Edit D α
  | .ok a => pure a
  | .error e => throw e

/-- Work on a deep copy: when it raises, the original is untouched. -/
def stagedRun {α : Type} (program : Edit D α) : Edit D (α × State D) := do
  let s ← get
  match program.run.run s with
  | (.ok a, staged) => pure (a, staged)
  | (.error e, _) => throw e

def unknownItemIds (s : State D) (itemIds : List String) : List String :=
  (dedupeIds itemIds).filter fun item => item ∉ s.orderedItemIds

def validateKnownItemIds (itemIds : List String) : Edit D Unit := do
  let s ← get
  if unknownItemIds s itemIds ≠ [] then
    throw ("unknown item_id(s): " ++ ", ".intercalate (unknownItemIds s itemIds))
  else pure ()

def nextGroupId : Edit D String := do
  let s ← get
  set { s with nextGroupNumber := fresh groupName s.keys s.nextGroupNumber + 1 }
  pure (groupName (fresh groupName s.keys s.nextGroupNumber))

/-- `_normalized_id(group_id) or self._next_group_id()`. -/
def chooseGroupId (groupId : Option String) : Edit D String :=
  match groupId.bind normalizedId with
  | some id => pure id
  | none => nextGroupId

/-- `_next_create_group_ids`; the counter does not move. -/
def nextCreateGroupIds (s : State D) (count : Nat) : List String :=
  (freshMany groupName s.keys count s.nextGroupNumber).map groupName

/-- The group gets the items and the others lose them. -/
def giveItems (groupId : String) (items : List String) (s : State D) : State D :=
  { s with
    groups := s.groups.map fun group =>
      if group.groupId = groupId then { group with itemIds := items }
      else { group with itemIds := group.itemIds.filter fun item => item ∉ items } }

def recordEdit (operation : Operation) : Edit D Unit :=
  modify fun s => { s with editEvents := s.editEvents ++ [operation] }

structure MutationResult where
  operation : Operation
  createdGroupIds : List String
  changedGroupIds : List String
  deletedGroupIds : List String
  changedItemIds : List String
  /-- Id, kind and items of the changed groups. -/
  changedGroups : List (String × String × List String)
  constraintsOk : Bool
  errorCount : Nat
  unprocessedItemIds : Option (List String)
  deriving DecidableEq

section Calls

variable (policy : Policy D C U)

def mutationResult (operation : Operation) (createdGroupIds changedGroupIds deletedGroupIds
    changedItemIds : List String) (unprocessedItemIds : Option (List String)) (s : State D) :
    MutationResult :=
  let changed := (dedupeIds changedGroupIds).filterMap fun id =>
    s.groups.find? fun group => group.groupId = id
  { operation
    createdGroupIds := dedupeIds createdGroupIds
    changedGroupIds := dedupeIds changedGroupIds
    deletedGroupIds := dedupeIds deletedGroupIds
    changedItemIds := dedupeIds (changedItemIds ++ changed.flatMap ItemGroup.itemIds)
    changedGroups := changed.map fun group =>
      (group.groupId, policy.kind group.data, group.itemIds)
    constraintsOk := (constraints policy s).isEmpty
    errorCount := (constraints policy s).length
    unprocessedItemIds := unprocessedItemIds.map dedupeIds }

/-- `_CreateGroupInput`. -/
def checkCreate (input : CreateInput C) : Except String Unit :=
  if dedupeIds (input.itemIds.getD []) = [] then
    .error "create_group requires non-empty item_ids."
  else policy.validateCreate input.fields

/-- `_UpdateGroupInput`. -/
def checkUpdate (input : UpdateInput U) : Except String Unit := do
  if normalizedId input.groupId = none then .error "update_group requires group_id."
  else do
    policy.validateUpdate input.fields
    if input.itemIds.any fun ids => dedupeIds ids = [] then
      .error "item_ids must contain at least one non-empty item id."
    else .ok ()

/-- `_replace_group_items`. -/
def replaceGroupItems (groupId : String) (itemIds : List String) : Edit D Unit := do
  validateKnownItemIds (dedupeIds itemIds)
  modify fun s => giveItems groupId (policy.place s.orderedItemIds (dedupeIds itemIds)) s

/-- `_create_group`. -/
def addGroup (input : CreateInput C) (groupId : Option String) : Edit D String := do
  let groupId ← chooseGroupId groupId
  if groupId ∈ (← get).keys then throw ("group already exists: " ++ groupId)
  else do
    validateKnownItemIds (input.itemIds.getD [])
    let data ← raised (policy.newGroup input.fields)
    modify fun s => { s with groups := s.groups ++ [{ groupId, data, itemIds := [] }] }
    match input.itemIds with
    | some ids => replaceGroupItems policy groupId ids
    | none => pure ()
    pure groupId

def addGroups : List (CreateInput C × String) → Edit D (List String)
  | [] => pure []
  | (input, groupId) :: rest => do
    let created ← addGroup policy input (some groupId)
    return created :: (← addGroups rest)

/-- `_update_group`. -/
def changeGroup (input : UpdateInput U) : Edit D String := do
  let s ← get
  match (normalizedId input.groupId).bind fun id => s.groups.find? fun group => group.groupId = id with
  | none => throw ("unknown group_id: " ++ input.groupId)
  | some group => do
    validateKnownItemIds (input.itemIds.getD [])
    let data ← raised (policy.revise input.fields group.data)
    modify fun s => { s with
      groups := s.groups.map fun other =>
        if other.groupId = group.groupId then { other with data } else other }
    match input.itemIds with
    | some ids => replaceGroupItems policy group.groupId ids
    | none => pure ()
    pure group.groupId

def changeGroups : List (UpdateInput U) → Edit D (List String)
  | [] => pure []
  | input :: rest => do
    let changed ← changeGroup policy input
    return changed :: (← changeGroups rest)

/-- `_delete_group`: the id of the group, if there was one, and the items it held. -/
def removeGroup (groupId : String) : Edit D (Option String × List String) := do
  let s ← get
  match (normalizedId groupId).bind fun id => s.groups.find? fun group => group.groupId = id with
  | none => pure (none, [])
  | some group => do
    set { s with groups := s.groups.filter fun other => other.groupId ≠ group.groupId }
    pure (some group.groupId, group.itemIds)

def removeGroups : List String → Edit D (List String × List String)
  | [] => pure ([], [])
  | groupId :: rest => do
    let (deleted, released) ← removeGroup groupId
    let (deletedLater, releasedLater) ← removeGroups rest
    pure (deleted.toList ++ deletedLater, released ++ releasedLater)

/-- Take over the groups of the copy. -/
def adopt (staged : State D) : Edit D Unit :=
  modify fun s => { s with groups := staged.groups, nextGroupNumber := staged.nextGroupNumber }

def createGroup (input : CreateInput C) : Edit D MutationResult := do
  raised (checkCreate policy input)
  let created ← addGroup policy input none
  recordEdit .createGroup
  return mutationResult policy .createGroup [created] [created] [] [] none (← get)

def createGroups (inputs : List (CreateInput C)) : Edit D MutationResult := do
  raised (forM inputs (checkCreate policy))
  let (created, staged) ← stagedRun do
    let preflightGroupIds := nextCreateGroupIds (← get) inputs.length
    forM inputs fun input => validateKnownItemIds (input.itemIds.getD [])
    addGroups policy (inputs.zip preflightGroupIds)
  adopt staged
  recordEdit .createGroups
  return mutationResult policy .createGroups created created [] [] none (← get)

def updateGroup (input : UpdateInput U) : Edit D MutationResult := do
  raised (checkUpdate policy input)
  let changed ← changeGroup policy input
  recordEdit .updateGroup
  return mutationResult policy .updateGroup [] [changed] [] [] none (← get)

def updateGroups (inputs : List (UpdateInput U)) : Edit D MutationResult := do
  raised (forM inputs (checkUpdate policy))
  let (changed, staged) ← stagedRun (changeGroups policy inputs)
  adopt staged
  recordEdit .updateGroups
  return mutationResult policy .updateGroups [] changed [] [] none (← get)

def deleteGroup (groupId : String) : Edit D MutationResult := do
  if normalizedId groupId = none then throw "delete_group requires group_id."
  else do
    let (deleted, released) ← removeGroup groupId
    recordEdit .deleteGroup
    return mutationResult policy .deleteGroup [] [] deleted.toList released (some released) (← get)

def deleteGroups (groupIds : List String) : Edit D MutationResult := do
  if dedupeIds groupIds = [] then throw "delete_groups requires at least one non-empty group id."
  else do
    let ((deleted, released), staged) ← stagedRun (removeGroups (dedupeIds groupIds))
    adopt staged
    recordEdit .deleteGroups
    return mutationResult policy .deleteGroups [] [] deleted released (some released) (← get)

end Calls

/-- A call of the agent. Arguments that are not even of the declared types are refused
before anything else. -/
inductive Call (C U : Type) where
  | createGroup (input : CreateInput C)
  | createGroups (inputs : List (CreateInput C))
  | updateGroup (input : UpdateInput U)
  | updateGroups (inputs : List (UpdateInput U))
  | deleteGroup (groupId : String)
  | deleteGroups (groupIds : List String)
  | refused (reason : String)

def perform (policy : Policy D C U) : Call C U → Edit D MutationResult
  | .createGroup input => createGroup policy input
  | .createGroups inputs => createGroups policy inputs
  | .updateGroup input => updateGroup policy input
  | .updateGroups inputs => updateGroups policy inputs
  | .deleteGroup groupId => deleteGroup policy groupId
  | .deleteGroups groupIds => deleteGroups policy groupIds
  | .refused reason => throw reason

/-- The outcome of a call and the state it leaves. -/
def performed (policy : Policy D C U) (call : Call C U) (s : State D) :
    Except String MutationResult × State D :=
  (perform policy call).run.run s

/-- A workbench whose items have these ids. -/
def emptyState (itemIds : List String) : State D where
  orderedItemIds := dedupeIds itemIds
  groups := []
  editEvents := []
  nextGroupNumber := 1

def workbench (policy : Policy D C U) (itemIds : List String) : System (State D) (Call C U) where
  initial := emptyState itemIds
  step s call := (performed policy call s).2

end Workbench
