import Mathlib.Data.List.MinMax
import Mathlib.Order.Nat
import SecReviewBot.MemoryCatalog.CatalogChanges

/-!
# The history of memory tree revisions

Revisions are numbered from one without gaps and never rewritten; only the
active pointer moves, also backwards. The invariant says where the pointer and
every predecessor lie; the origin of a revision (the call that created it, and
the catalog it was created in) is found by going back along the run.
-/

namespace RevisionHistory

open KeyedTables MemoryCatalogSchema CatalogStore CatalogChanges TransitionSystems

/-- The revision consumed the observation. -/
def Consumes (c : Catalog) (id : ExtractionId) (number : Nat) : Prop :=
  ∃ o, c.observations.row id = some o ∧ o.consumedRevision = some number

/-- What a change does to the history. -/
inductive HistoryStep (c : Catalog) (call : Call) (next : Catalog) : Prop
  | same (revisions : next.revisions = c.revisions)
      (active : next.treeState.activeRevision = c.treeState.activeRevision)
      (control : next.control = c.control)
      (operations : next.controlOperations = c.controlOperations)
      (consumed : ∀ id number, Consumes next id number ↔ Consumes c id number)
  | created (input : RevisionCreation) (called : call = .createMemoryTreeRevision input)
      (committable : Committable input c)
      (revisions : next.revisions = c.revisions.put (nextRevision c) (revisionOf input c.clock))
      (active : next.treeState.activeRevision = nextRevision c)
      (control : next.control = c.control)
      (operations : next.controlOperations = c.controlOperations)
      (consumed : ∀ id number, Consumes next id number ↔ Consumes c id number ∨
        number = nextRevision c ∧ id ∈ input.source.extractionIds)
  | restored (input : RestoreRequest) (restorable : Restorable input c)
      (revisions : next.revisions = c.revisions)
      (active : next.treeState.activeRevision = input.restoredRevision)
      (control : next.control = c.control)
      (operations : next.controlOperations = c.controlOperations)
      (consumed : ∀ id number, Consumes next id number ↔ Consumes c id number)
  | controlled (input : ControlRequest) (changeable : Changeable input c)
      (revisions : next.revisions = c.revisions)
      (active : next.treeState.activeRevision = c.treeState.activeRevision)
      (control : next.control = changedControl input c)
      (operations : ∃ row, next.controlOperations =
        c.controlOperations.put input.operationId row)
      (consumed : ∀ id number, Consumes next id number ↔ Consumes c id number)

theorem consumes_withExtraction {input : ExtractionRegistration} {c : Catalog}
    (unobserved : input.observation ≠ none → c.observations.row input.extractionId = none)
    (id : ExtractionId) (number : Nat) :
    Consumes (withExtraction input c) id number ↔ Consumes c id number := by
  simp only [Consumes, withExtraction]
  split
  · exact Iff.rfl
  · next body observes =>
    have absent := unobserved (by simp [observes])
    by_cases here : id = input.extractionId
    · simp [here, absent]
    · simp [here]

theorem consumes_withRevision {input : RevisionCreation} {c : Catalog}
    (pending : ∀ id ∈ input.source.extractionIds, ∃ o, c.observations.row id = some o ∧
      o.consumedRevision = none) (created : Nat) (id : ExtractionId)
    (number : Nat) :
    Consumes (withRevision input created c) id number ↔
      Consumes c id number ∨ number = created ∧ id ∈ input.source.extractionIds := by
  by_cases taken : id ∈ input.source.extractionIds
  · obtain ⟨o, found, fresh⟩ := pending id taken
    simp [Consumes, withRevision, found, consumeObservation, taken, fresh, eq_comm]
  · have untouched : ∀ o, consumeObservation input.source.extractionIds created id o = o := by
      intro o
      simp [consumeObservation, taken]
    cases found : c.observations.row id <;> simp [Consumes, withRevision, found, taken, untouched]

theorem history_step {c next : Catalog} {call : Call} (h : Change c call next) :
    HistoryStep c call next := by
  cases h with
  | reserveExtraction intent absent =>
    simp only [insertExtractionPublication, absent]
    exact .same rfl rfl rfl rfl fun _ _ => Iff.rfl
  | reserveRevision intent absent =>
    simp only [insertRevisionPublication, absent]
    exact .same rfl rfl rfl rfl fun _ _ => Iff.rfl
  | @register input identity row confirmed absent unobserved =>
    exact .same rfl rfl rfl rfl (consumes_withExtraction unobserved)
  | @create input row confirmed committable =>
    exact .created input rfl committable rfl rfl rfl rfl
      (consumes_withRevision committable.pending _)
  | @restore input restorable =>
    exact .restored input restorable rfl rfl rfl rfl fun _ _ => Iff.rfl
  | @control input changeable =>
    exact .controlled input changeable rfl rfl rfl ⟨_, rfl⟩ fun _ _ => Iff.rfl
  | _ => exact .same rfl rfl rfl rfl fun _ _ => Iff.rfl

structure HistorySound (c : Catalog) : Prop where
  numbered : ∀ number, (c.revisions.row number).isSome = true ↔
    1 ≤ number ∧ number ≤ c.revisions.keys.length
  first : ∀ number row, c.revisions.row number = some row →
    (row.predecessorRevision = none ↔ number = 1)
  predecessor : ∀ number row previous, c.revisions.row number = some row →
    row.predecessorRevision = some previous → 1 ≤ previous ∧ previous < number
  empty : c.treeState.activeRevision = 0 ↔ c.revisions.keys.length = 0
  active : c.treeState.activeRevision ≠ 0 →
    (c.revisions.row c.treeState.activeRevision).isSome = true
  consumer : ∀ id number, Consumes c id number → (c.revisions.row number).isSome = true
  generation : c.control.generation = c.controlOperations.keys.length
  parity : c.control.state = .enabled ↔ c.control.generation % 2 = 0

theorem historySound_initial : HistorySound Catalog.initial := by
  refine ⟨?_, nofun, nofun, by decide, by decide, ?_, rfl, by decide⟩
  · intro number
    have absent : Catalog.initial.revisions.row number = none := rfl
    have none : Catalog.initial.revisions.keys = [] := rfl
    rw [absent, none]
    simp
    omega
  · rintro id number ⟨o, found, -⟩
    cases found

theorem nextRevision_eq {c : Catalog} (h : HistorySound c) :
    nextRevision c = c.revisions.keys.length + 1 := by
  have low : c.revisions.keys.foldr max 0 ≤ c.revisions.keys.length := by
    apply List.max_le_of_forall_le
    intro number known
    exact ((h.numbered number).mp ((c.revisions.mem_keys number).mp known)).2
  have high : c.revisions.keys.length ≤ c.revisions.keys.foldr max 0 := by
    rcases Nat.eq_zero_or_pos c.revisions.keys.length with zero | some
    · rw [zero]
      exact Nat.zero_le _
    · have last : c.revisions.keys.length ∈ c.revisions.keys :=
        (c.revisions.mem_keys _).mpr ((h.numbered _).mpr ⟨some, le_rfl⟩)
      exact List.le_max_of_le last le_rfl
  rw [nextRevision, le_antisymm low high]

theorem historySound_step {c next : Catalog} {call : Call} (h : HistorySound c)
    (step : HistoryStep c call next) : HistorySound next := by
  cases step with
  | same revisions active control operations consumed =>
    refine ⟨?_, ?_, ?_, ?_, ?_, ?_, ?_, ?_⟩
    · rw [revisions]
      exact h.numbered
    · rw [revisions]
      exact h.first
    · rw [revisions]
      exact h.predecessor
    · rw [revisions, active]
      exact h.empty
    · rw [revisions, active]
      exact h.active
    · intro id number taken
      rw [revisions]
      exact h.consumer id number ((consumed id number).mp taken)
    · rw [control, operations]
      exact h.generation
    · rw [control]
      exact h.parity
  | created input called committable revisions active control operations consumed =>
    have number := nextRevision_eq h
    have length : next.revisions.keys.length = c.revisions.keys.length + 1 := by
      rw [revisions, Table.put_keys_of_absent committable.unused, List.length_append]
      rfl
    refine ⟨?_, ?_, ?_, ?_, ?_, ?_, ?_, ?_⟩
    · intro k
      rw [length, revisions, Table.put_row, number]
      by_cases new : k = c.revisions.keys.length + 1
      · simp [new]
      · rw [if_neg new, h.numbered k]
        omega
    · intro k row found
      rw [revisions] at found
      rcases Table.put_row_cases found with ⟨rfl, rfl⟩ | ⟨-, old⟩
      · have empty := h.empty
        rw [committable.active] at empty
        simp only [revisionOf, nullifZero, number]
        by_cases zero : input.expectedActiveRevision = 0
        · simp [zero, empty.mp zero]
        · have some : c.revisions.keys.length ≠ 0 := fun none => zero (empty.mpr none)
          simp [zero, some]
      · exact h.first k row old
    · intro k row previous found named
      rw [revisions] at found
      rcases Table.put_row_cases found with ⟨rfl, rfl⟩ | ⟨-, old⟩
      · simp only [revisionOf, nullifZero] at named
        split at named
        · cases named
        · next some =>
          obtain rfl := Option.some.inj named
          rw [← committable.active] at some ⊢
          have known := (h.numbered _).mp (h.active some)
          omega
      · exact h.predecessor k row previous old named
    · rw [active, length, number]
    · intro _
      rw [active, revisions]
      simp
    · intro id k taken
      rw [revisions, Table.put_row]
      split
      · rfl
      · next old =>
        rcases (consumed id k).mp taken with before | ⟨new, -⟩
        · exact h.consumer id k before
        · exact absurd new old
    · rw [control, operations]
      exact h.generation
    · rw [control]
      exact h.parity
  | restored input restorable revisions active control operations consumed =>
    have target := (h.numbered _).mp restorable.restored
    refine ⟨?_, ?_, ?_, ?_, ?_, ?_, ?_, ?_⟩
    · rw [revisions]
      exact h.numbered
    · rw [revisions]
      exact h.first
    · rw [revisions]
      exact h.predecessor
    · rw [revisions, active]
      omega
    · intro _
      rw [revisions, active]
      exact restorable.restored
    · intro id number taken
      rw [revisions]
      exact h.consumer id number ((consumed id number).mp taken)
    · rw [control, operations]
      exact h.generation
    · rw [control]
      exact h.parity
  | controlled input changeable revisions active control operations consumed =>
    refine ⟨?_, ?_, ?_, ?_, ?_, ?_, ?_, ?_⟩
    · rw [revisions]
      exact h.numbered
    · rw [revisions]
      exact h.first
    · rw [revisions]
      exact h.predecessor
    · rw [revisions, active]
      exact h.empty
    · rw [revisions, active]
      exact h.active
    · intro id number taken
      rw [revisions]
      exact h.consumer id number ((consumed id number).mp taken)
    · obtain ⟨row, operations⟩ := operations
      rw [control, operations, Table.put_keys_of_absent changeable.fresh, List.length_append,
        ← h.generation]
      rfl
    · rw [control]
      have parity := h.parity
      rw [changeable.state] at parity
      cases target : input.targetState with
      | enabled =>
        simp only [target, expectedState, reduceCtorEq, false_iff] at parity
        simp only [changedControl, target, true_iff]
        omega
      | paused =>
        simp only [target, expectedState, true_iff] at parity
        simp only [changedControl, target, reduceCtorEq, false_iff]
        omega

theorem historySound_reachable {collation : Collation} {c : Catalog}
    (reachable : (catalog collation).Reachable c) : HistorySound c := by
  have preserved : ∀ s call, HistorySound s → HistorySound ((catalog collation).step s call) :=
    fun s call h => historySound_step h (history_step (execute_change collation s call))
  exact (catalog collation).reachable_invariant historySound_initial preserved reachable

/-- A revision that exists gets no further observations. -/
theorem consumes_stable {c next : Catalog} {call : Call} (step : HistoryStep c call next) {number : Nat}
    (known : (c.revisions.row number).isSome = true) (id : ExtractionId) :
    Consumes next id number ↔ Consumes c id number := by
  cases step with
  | same revisions active control operations consumed => exact consumed id number
  | restored input restorable revisions active control operations consumed =>
    exact consumed id number
  | controlled input changeable revisions active control operations consumed =>
    exact consumed id number
  | created input called committable revisions active control operations consumed =>
    rw [consumed]
    refine or_iff_left ?_
    rintro ⟨rfl, -⟩
    simp [committable.unused] at known

/-- The call that created a revision, and what it found and took. -/
structure Origin (collation : Collation) (calls : List Call) (number : Nat) (row : Revision)
    (before : List Call) (input : RevisionCreation) (after : List Call) : Prop where
  position : calls = before ++ .createMemoryTreeRevision input :: after
  absent : ((catalog collation).run before).revisions.row number = none
  present : ((catalog collation).run
    (before ++ [.createMemoryTreeRevision input])).revisions.row number = some row
  source : row.origin = originOf input.source
  predecessor : row.predecessorRevision =
    nullifZero ((catalog collation).run before).treeState.activeRevision
  consumed : ∀ id, Consumes ((catalog collation).run calls) id number ↔
    id ∈ input.source.extractionIds

theorem revision_origin (collation : Collation) (calls : List Call) {number : Nat}
    {row : Revision} (found : ((catalog collation).run calls).revisions.row number = some row) :
    ∃ before input after, Origin collation calls number row before input after := by
  -- the last call created the revision, or it is one of the calls before
  induction calls using List.reverseRecOn with
  | nil => cases found
  | append_singleton calls call ih =>
    have reachable : (catalog collation).Reachable ((catalog collation).run calls) := ⟨calls, rfl⟩
    have change := execute_change collation ((catalog collation).run calls) call
    have step := history_step change
    have after_ : (catalog collation).run (calls ++ [call]) =
        call.execute collation ((catalog collation).run calls) :=
      (catalog collation).run_concat calls call
    cases earlier : ((catalog collation).run calls).revisions.row number with
    | some old =>
      have kept := (kept_change change).revisions number old earlier
      rw [after_, kept] at found
      obtain rfl := Option.some.inj found
      obtain ⟨before, input, after, origin⟩ := ih earlier
      refine ⟨before, input, after ++ [call], ?_, origin.absent, origin.present,
        origin.source, origin.predecessor, ?_⟩
      · rw [origin.position, List.append_assoc, List.cons_append]
      · intro id
        rw [after_, consumes_stable step (by simp [earlier]) id]
        exact origin.consumed id
    | none =>
      rw [after_] at found
      have unchanged : ∀ {next : Catalog},
          next.revisions = ((catalog collation).run calls).revisions →
            next.revisions.row number ≠ some row := by
        intro next revisions found'
        rw [revisions, earlier] at found'
        cases found'
      cases step with
      | same revisions => exact absurd found (unchanged revisions)
      | restored input restorable revisions => exact absurd found (unchanged revisions)
      | controlled input changeable revisions => exact absurd found (unchanged revisions)
      | created input called committable revisions active control operations consumed =>
        have present := found
        rw [revisions] at found
        rcases Table.put_row_cases found with ⟨rfl, rfl⟩ | ⟨-, old⟩
        · refine ⟨calls, input, [], ?_, earlier, ?_, rfl, ?_, ?_⟩
          · rw [called]
          · rw [← called, after_]
            exact present
          · rw [committable.active]
            rfl
          · intro id
            rw [after_, consumed]
            refine (or_iff_right ?_).trans (and_iff_right rfl)
            intro taken
            have known := (historySound_reachable reachable).consumer id _ taken
            simp [committable.unused] at known
        · rw [earlier] at old
          cases old

/-- The history of revisions, observations and control operations after a run. -/
structure WellFormedHistory (collation : Collation) (calls : List Call) (c : Catalog) : Prop where
  numbered : ∀ number, (c.revisions.row number).isSome = true ↔
    1 ≤ number ∧ number ≤ c.revisions.keys.length
  first : ∀ number row, c.revisions.row number = some row →
    (row.predecessorRevision = none ↔ number = 1)
  predecessor : ∀ number row previous, c.revisions.row number = some row →
    row.predecessorRevision = some previous →
      previous < number ∧ (c.revisions.row previous).isSome = true
  /-- A call created the revision on top of the one that was active, and the
  revision has consumed the observations of that call: none, for an operator. -/
  created : ∀ number row, c.revisions.row number = some row →
    ∃ before input after, Origin collation calls number row before input after
  empty : c.treeState.activeRevision = 0 ↔ c.revisions.keys.length = 0
  active : c.treeState.activeRevision ≠ 0 →
    (c.revisions.row c.treeState.activeRevision).isSome = true
  once : ∀ id first second, Consumes c id first → Consumes c id second → first = second
  consumedForever : ∀ later id number, Consumes c id number →
    Consumes ((catalog collation).runFrom c later) id number
  immutable : ∀ later number row, c.revisions.row number = some row →
    ((catalog collation).runFrom c later).revisions.row number = some row
  generation : c.control.generation = c.controlOperations.keys.length
  enabled : c.control.state = .enabled ↔ c.control.generation % 2 = 0

/-- Whatever calls were made, the history of memory revisions is well formed. -/
theorem revision_history_well_formed (collation : Collation) (calls : List Call) :
    WellFormedHistory collation calls ((catalog collation).run calls) := by
  have reachable : (catalog collation).Reachable ((catalog collation).run calls) := ⟨calls, rfl⟩
  have h := historySound_reachable reachable
  refine ⟨h.numbered, h.first, ?_, fun number row => revision_origin collation calls, h.empty,
    h.active, ?_, ?_, ?_, h.generation, h.parity⟩
  · intro number row previous found named
    obtain ⟨positive, smaller⟩ := h.predecessor number row previous found named
    have last := ((h.numbered number).mp (by simp [found])).2
    exact ⟨smaller, (h.numbered previous).mpr ⟨positive, by omega⟩⟩
  · rintro id first second ⟨o, found, consumed⟩ ⟨o', found', consumed'⟩
    obtain rfl := Option.some.inj (found.symm.trans found')
    exact Option.some.inj (consumed.symm.trans consumed')
  · rintro later id number ⟨o, found, consumed⟩
    have kept := kept_run collation ((catalog collation).run calls) later
    exact ⟨o, kept.consumed id o found (by simp [consumed]), consumed⟩
  · intro later number row
    exact (kept_run collation ((catalog collation).run calls) later).revisions number row

end RevisionHistory
