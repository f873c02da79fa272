import SecReviewBot.ReadCommitted
import SecReviewBot.MemoryCatalog.Resends

/-!
# The same request twice at once

`restoreMemoryTree` and `changeMaintenanceControl` first look for a recorded
operation, without a lock, and only then lock the row they change. Here each is
a program of statements, with the same statements as the atomic call, and two
copies of it run under read committed.
-/

namespace ConcurrentDuplicates

open MemoryCatalogSchema CatalogStore CatalogChanges Resends ReadCommitted

abbrev Statements := Program Catalog Answer CatalogError

/-- A replay ends the transaction. -/
def answerReplay {α : Type} (wrap : α → Answer) : Except CatalogError α → Statements
  | .ok result => .done (.ok (wrap result))
  | .error e => .done (.error e)

/-- `restoreMemoryTree` once it has locked the active pointer. -/
def restoreLocked (input : RestoreRequest) (c : Catalog) : Statements :=
  match checkActive input.expectedActiveRevision c with
  | .error e => .done (.error e)
  | .ok _ => .read fun c =>
    match checkRestored input c with
    | .error e => .done (.error e)
    | .ok _ => .write (insertRestore input) fun _ =>
      .write (fun c => .ok (setActive input.restoredRevision c)) fun _ =>
        .done (.ok (.restore ⟨true, input.restoredRevision, input.operationId⟩))

def restoreLook (input : RestoreRequest) (c : Catalog) : Statements :=
  match restoreReplay input c with
  | some replay => answerReplay .restore replay
  | none => .lock (restoreLocked input)

/-- `changeMaintenanceControl` once it has locked the control row. -/
def controlLocked (input : ControlRequest) (c : Catalog) : Statements :=
  match checkControl input c with
  | .error e => .done (.error e)
  | .ok _ => .write (fun c => .ok (updateControl input c)) fun changed =>
    .write (insertControlOperation input) fun _ =>
      .done (.ok (.control ⟨true, changed.control⟩))

def controlLook (input : ControlRequest) (c : Catalog) : Statements :=
  match controlReplay input c with
  | some replay => answerReplay .control replay
  | none => .lock (controlLocked input)

inductive Request where
  | restoreMemoryTree (input : RestoreRequest)
  | changeMaintenanceControl (input : ControlRequest)

namespace Request

def look : Request → Catalog → Statements
  | .restoreMemoryTree input => restoreLook input
  | .changeMaintenanceControl input => controlLook input

def locked : Request → Catalog → Statements
  | .restoreMemoryTree input => restoreLocked input
  | .changeMaintenanceControl input => controlLocked input

def program (x : Request) : Statements := .read x.look

/-- The statements of a request that is carried out, the commit included. -/
def statements : Request → Nat
  | .restoreMemoryTree _ => 6
  | .changeMaintenanceControl _ => 5

/-- The request as one atomic call. -/
def single (c : Catalog) : Request → Except CatalogError (Answer × Catalog)
  | .restoreMemoryTree input => answered .restore (CatalogStore.restoreMemoryTree input c)
  | .changeMaintenanceControl input =>
    answered .control (CatalogStore.changeMaintenanceControl input c)

/-- Nothing is recorded under the id, and the row is as the request expects. -/
def applicable (c : Catalog) : Request → Prop
  | .restoreMemoryTree input => Restorable input c
  | .changeMaintenanceControl input => Changeable input c

end Request

def created : Answer → Bool
  | .registration created => created
  | .revision result => result.created
  | .restore result => result.created
  | .control result => result.created

/-- How a transaction ends, given the atomic call. -/
def endsWith (c : Catalog) : Except CatalogError (Answer × Catalog) →
    Except CatalogError Answer × Catalog
  | .ok (answer, next) => (.ok answer, next)
  | .error e => (.error e, c)

theorem answerReplay_alone {α : Type} (wrap : α → Answer) (replay : Except CatalogError α)
    (c : Catalog) : (answerReplay wrap replay).alone id c =
      endsWith c (answered wrap (replay >>= fun result => .ok (result, c))) := by
  cases replay <;> rfl

theorem restore_alone (input : RestoreRequest) (c : Catalog) :
    (restoreLook input c).alone id c =
      endsWith c (answered .restore (restoreMemoryTree input c)) := by
  cases replayed : restoreReplay input c with
  | some replay =>
    simp only [restoreLook, restoreMemoryTree, replayed]
    exact answerReplay_alone .restore replay c
  | none =>
    simp only [restoreLook, restoreMemoryTree, replayed, Program.alone, id, restoreLocked]
    cases checkActive input.expectedActiveRevision c with
    | error e => rfl
    | ok u =>
      simp only [Program.alone, id, ok_bind]
      cases checkRestored input c with
      | error e => rfl
      | ok u =>
        simp only [Program.alone, id, ok_bind]
        cases inserted : insertRestore input c with
        | error e => rfl
        | ok next => simp [overlay, inserted, answered, endsWith, pure, Except.pure]

theorem control_alone (input : ControlRequest) (c : Catalog) :
    (controlLook input c).alone id c =
      endsWith c (answered .control (changeMaintenanceControl input c)) := by
  cases replayed : controlReplay input c with
  | some replay =>
    simp only [controlLook, changeMaintenanceControl, replayed]
    exact answerReplay_alone .control replay c
  | none =>
    simp only [controlLook, changeMaintenanceControl, replayed, Program.alone, id, controlLocked]
    cases checkControl input c with
    | error e => rfl
    | ok u =>
      simp only [Program.alone, overlay, id, ok_bind]
      cases recorded : insertControlOperation input (updateControl input c) with
      | error e => rfl
      | ok next => simp [answered, endsWith, pure, Except.pure]

/-- Alone, the statements are the atomic call. -/
theorem program_alone (x : Request) (c : Catalog) :
    x.program.alone id c = endsWith c (x.single c) := by
  cases x with
  | restoreMemoryTree input => exact restore_alone input c
  | changeMaintenanceControl input => exact control_alone input c

theorem checkActive_ok {c : Catalog} {expected : Nat}
    (active : c.treeState.activeRevision = expected) : checkActive expected c = .ok () := by
  simp [checkActive, active]

theorem insertRestore_ok {input : RestoreRequest} {c : Catalog} (h : Restorable input c) :
    insertRestore input c = .ok { c with
      restores := c.restores.put input.operationId
        { expectedActiveRevision := input.expectedActiveRevision,
          restoredRevision := input.restoredRevision, actor := input.actor,
          createdAt := c.clock } } := by
  simp [insertRestore, h.fresh, h.expected, h.restored, pure, Except.pure]

/-- A second restore that has looked before the first one committed: the
pointer has moved, or the primary key of the ledger refuses. -/
theorem restore_refused (input : RestoreRequest) {c : Catalog} (h : Restorable input c) :
    ∃ e, (Program.lock (restoreLocked input)).alone id (withRestore input c) =
      (.error e, withRestore input c) := by
  by_cases same : input.restoredRevision = input.expectedActiveRevision
  · have active : checkActive input.expectedActiveRevision (withRestore input c) = .ok () :=
      checkActive_ok same
    have restored : checkRestored input (withRestore input c) = .ok () := by
      simp [checkRestored, withRestore, h.restored]
    have refused : insertRestore input (withRestore input c) =
        .error (.constraintViolation "memory_tree_restore_operations_pkey") := by
      simp [insertRestore, withRestore, ensure, bind, Except.bind]
    refine ⟨.constraintViolation "memory_tree_restore_operations_pkey", ?_⟩
    simp only [Program.alone, id, restoreLocked, active, restored, refused]
  · have moved : ∃ e, checkActive input.expectedActiveRevision (withRestore input c) =
        .error e := by
      simp [checkActive, withRestore, same, ensure]
    obtain ⟨e, moved⟩ := moved
    exact ⟨e, by simp only [Program.alone, id, restoreLocked, moved]⟩

theorem restore_looksThenLocks {input : RestoreRequest} {c : Catalog} (h : Restorable input c) :
    ∃ e, LooksThenLocks (restoreLook input) (restoreLocked input) c (withRestore input c)
      (.restore ⟨true, input.restoredRevision, input.operationId⟩)
      (.restore ⟨false, input.restoredRevision, input.operationId⟩) e 6 := by
  have fresh : restoreLook input c = .lock (restoreLocked input) := by
    simp [restoreLook, restoreReplay, h.fresh]
  have active := checkActive_ok h.active
  have restored : checkRestored input c = .ok () := by
    simp [checkRestored, h.restored]
  have inserted := insertRestore_ok h
  have works : (Program.read (restoreLook input)).alone id c =
      (.ok (.restore ⟨true, input.restoredRevision, input.operationId⟩), withRestore input c) := by
    simp [Program.alone, fresh, restoreLocked, active, restored, inserted, overlay, setActive,
      withRestore]
  have counted : (Program.read (restoreLook input)).statements id c = 6 := by
    simp [Program.statements, fresh, restoreLocked, active, restored, inserted]
  have recorded : restoreLook input (withRestore input c) =
      .done (.ok (.restore ⟨false, input.restoredRevision, input.operationId⟩)) := by
    simp [restoreLook, restoreReplay, withRestore, identicalRestore, answerReplay]
  obtain ⟨e, refused⟩ := restore_refused input h
  exact ⟨e, fresh, works, counted, recorded, refused⟩

theorem control_looksThenLocks {input : ControlRequest} {c : Catalog} (h : Changeable input c) :
    ∃ e, LooksThenLocks (controlLook input) (controlLocked input) c (withControl input c)
      (.control ⟨true, changedControl input c⟩) (.control ⟨false, changedControl input c⟩)
      e 5 := by
  have fresh : controlLook input c = .lock (controlLocked input) := by
    simp [controlLook, controlReplay, h.fresh]
  have checked : checkControl input c = .ok () := by
    simp [checkControl, h.generation, h.state]
  have inserted : insertControlOperation input (updateControl input c) =
      .ok (withControl input c) := by
    simp [insertControlOperation, updateControl, h.fresh, withControl, changedControl, pure,
      Except.pure]
  have works : (Program.read (controlLook input)).alone id c =
      (.ok (.control ⟨true, changedControl input c⟩), withControl input c) := by
    simp [Program.alone, fresh, controlLocked, checked, overlay, inserted]
    rfl
  have counted : (Program.read (controlLook input)).statements id c = 5 := by
    simp [Program.statements, fresh, controlLocked, checked, overlay, inserted]
  have recorded : controlLook input (withControl input c) =
      .done (.ok (.control ⟨false, changedControl input c⟩)) := by
    simp [controlLook, controlReplay, withControl, identicalControl, answerReplay, changedControl]
  have moved : ∃ e, checkControl input (withControl input c) = .error e := by
    simp [checkControl, withControl, changedControl, h.generation, ensure, bind, Except.bind]
  obtain ⟨e, moved⟩ := moved
  refine ⟨e, fresh, works, counted, recorded, ?_⟩
  simp only [Program.alone, id, controlLocked, moved]

/-- One copy carries the request out, the other one answers from its record, and
the catalog is the one a single call leaves. -/
def Collapses (x : Request) (c : Catalog) (s : Session Bool Catalog Answer CatalogError) : Prop :=
  ∃ i answer final, x.single c = .ok (answer, final) ∧ created answer = true ∧
    (s.transactions i).outcome = some (.ok answer) ∧
    (s.transactions (!i)).outcome = some (.ok answer.replayed) ∧ s.committed = final

theorem applicable_of_created {x : Request} {c final : Catalog} {answer : Answer}
    (single : x.single c = .ok (answer, final)) (new : created answer = true) :
    x.applicable c := by
  cases x with
  | restoreMemoryTree input =>
    obtain ⟨result, called, rfl⟩ := answered_ok single
    rcases restoreMemoryTree_ok called with ⟨-, restorable, -⟩ | ⟨rfl, -, -⟩
    · exact restorable
    · cases new
  | changeMaintenanceControl input =>
    obtain ⟨result, called, rfl⟩ := answered_ok single
    rcases changeMaintenanceControl_ok called with ⟨-, changeable, -⟩ | ⟨-, row, -, -, rfl⟩
    · exact changeable
    · cases new

theorem request_looksThenLocks {x : Request} {c : Catalog} (h : x.applicable c) :
    ∃ answer final e, created answer = true ∧
      LooksThenLocks x.look x.locked c final answer answer.replayed e x.statements := by
  cases x with
  | restoreMemoryTree input =>
    obtain ⟨e, looks⟩ := restore_looksThenLocks h
    exact ⟨_, _, e, rfl, looks⟩
  | changeMaintenanceControl input =>
    obtain ⟨e, looks⟩ := control_looksThenLocks h
    exact ⟨_, _, e, rfl, looks⟩

/-- Two concurrent copies of a request collapse to one operation exactly when
the request can be carried out and one copy commits before the other one looks
for a recorded operation. -/
theorem duplicates_collapse_iff (x : Request) (c : Catalog) (schedule : List Bool)
    (finished : Finished ((duplicates x.program c).run schedule)) :
    Collapses x c ((duplicates x.program c).run schedule) ↔
      x.applicable c ∧ ∃ i, schedule.take x.statements = List.replicate x.statements i := by
  constructor
  · rintro ⟨i, answer, final, single, new, won, replayed, -⟩
    have applicable := applicable_of_created single new
    refine ⟨applicable, ?_⟩
    by_contra racing
    obtain ⟨first, final, e, -, looks⟩ := request_looksThenLocks applicable
    obtain ⟨j, -, refused⟩ := racing_duplicates looks racing finished
    have answered : ∀ k, ∃ answer,
        (((duplicates x.program c).run schedule).transactions k).outcome =
          some (.ok answer) := by
      intro k
      by_cases here : k = i
      · exact ⟨answer, here ▸ won⟩
      · exact ⟨answer.replayed, by rw [Bool.eq_not_of_ne here, replayed]⟩
    obtain ⟨other, ok⟩ := answered (!j)
    have clash := ok.symm.trans refused
    cases clash
  · rintro ⟨applicable, i, serial⟩
    obtain ⟨answer, final, e, new, looks⟩ := request_looksThenLocks applicable
    obtain ⟨won, replayed, committed⟩ := serial_duplicates looks serial finished
    refine ⟨i, answer, final, ?_, new, won, replayed, committed⟩
    have ends := (program_alone x c).symm.trans looks.works
    cases single : x.single c with
    | error e => simp [single, endsWith] at ends
    | ok pair =>
      simp only [single, endsWith, Prod.mk.injEq, Except.ok.injEq] at ends
      rw [← ends.1, ← ends.2]

/-- The first pause of a new catalog. -/
def firstPause : Request :=
  .changeMaintenanceControl ⟨.paused, "pause-1", 0, ⟨.user, "operator"⟩⟩

/-- One pause commits before the other one looks. -/
def oneAfterTheOther : List Bool := List.replicate 5 true ++ List.replicate 2 false

/-- Both pauses look first. -/
def bothLookFirst : List Bool := [true, false] ++ List.replicate 4 true ++ List.replicate 2 false

theorem firstPause_applicable : firstPause.applicable Catalog.initial :=
  ⟨rfl, rfl, by decide⟩

theorem oneAfterTheOther_finished :
    Finished ((duplicates firstPause.program Catalog.initial).run oneAfterTheOther) := by
  intro i
  cases i <;> exact Option.some_ne_none _

theorem bothLookFirst_finished :
    Finished ((duplicates firstPause.program Catalog.initial).run bothLookFirst) := by
  intro i
  cases i <;> exact Option.some_ne_none _

theorem serial_pauses_collapse :
    Collapses firstPause Catalog.initial
      ((duplicates firstPause.program Catalog.initial).run oneAfterTheOther) :=
  (duplicates_collapse_iff firstPause Catalog.initial oneAfterTheOther
    oneAfterTheOther_finished).mpr ⟨firstPause_applicable, true, rfl⟩

/-- A request that can be carried out, and a copy of it that surfaces a
conflict. -/
theorem racing_pauses_conflict :
    ¬ ∀ (x : Request) (c : Catalog) (schedule : List Bool), x.applicable c →
      Finished ((duplicates x.program c).run schedule) →
        Collapses x c ((duplicates x.program c).run schedule) := by
  intro collapse
  obtain ⟨i, answer, final, -, -, won, replayed, -⟩ :=
    collapse firstPause Catalog.initial bothLookFirst firstPause_applicable bothLookFirst_finished
  have refused : ∃ e, (((duplicates firstPause.program Catalog.initial).run
      bothLookFirst).transactions false).outcome = some (.error e) := ⟨_, rfl⟩
  obtain ⟨e, refused⟩ := refused
  cases i with
  | false => cases won.symm.trans refused
  | true => cases replayed.symm.trans refused

end ConcurrentDuplicates
