import SecReviewBot.ReviewRuns.SubmissionBoundary

/-!
# Recovery claims and the tasks that hold them

Every recovery of a submission works under a claim token it drew. What one
operation does to the execution row, what one event does to a task, and the
fence that follows: a token belongs to one task and to the run it claimed.
-/

namespace RecoveryClaims

open KeyedTables ReviewRunsSchema ReviewRunsTransactions Coordination TransitionSystems
open Statements RowEffects CrossAxis Submissions SubmissionBoundary

/-- What a transaction keeps of an execution that may be replayed. -/
structure DoubtKept (claiming : Prop) (e next : Execution) : Prop where
  pending : next.status = .pending → e.status = .pending
  uncertain : next.status = .uncertain → e.status = .pending ∨
    e.status = .uncertain ∧ e.attemptCount ≤ next.attemptCount ∧
      (next.claimToken = e.claimToken ∨ claiming)

theorem doubtKept_refl (claiming : Prop) (e : Execution) : DoubtKept claiming e e :=
  ⟨id, fun uncertain => .inr ⟨uncertain, le_rfl, .inl rfl⟩⟩

theorem DoubtKept.trans {claiming : Prop} {a b c : Execution} (h : DoubtKept claiming a b)
    (h' : DoubtKept claiming b c) : DoubtKept claiming a c := by
  refine ⟨fun pending => h.pending (h'.pending pending), fun uncertain => ?_⟩
  rcases h'.uncertain uncertain with pending | ⟨before, count, token⟩
  · exact .inl (h.pending pending)
  · rcases h.uncertain before with pending | ⟨first, count', token'⟩
    · exact .inl pending
    · refine .inr ⟨first, count'.trans count, ?_⟩
      rcases token with token | claims
      · rcases token' with token' | claims
        · exact .inl (token.trans token')
        · exact .inr claims
      · exact .inr claims

theorem doubtKept_of_write {resuming : Prop} (other : ¬ resuming) {drawn : Token → Prop}
    {claiming : Prop} (claims : ∀ t, drawn t → claiming) {now : Timestamp} {e next : Execution}
    (write : ExecutionWrite resuming drawn now e next) : DoubtKept claiming e next := by
  cases write with
  | skip | recover | failRecovery | start | succeed | disconnect | fail | stop | queue =>
    exact ⟨nofun, nofun⟩
  | doubt error waiting => exact ⟨fun _ => waiting, fun _ => .inl waiting⟩
  | claimRecovery token fresh doubtful =>
    exact ⟨id, fun _ => .inr ⟨doubtful, le_rfl, .inr (claims token fresh)⟩⟩
  | resume parked resumes => exact absurd resumes other
  | countUnknown token held =>
    exact ⟨id, fun uncertain => .inr ⟨uncertain, Nat.le_succ _, .inl rfl⟩⟩
  | saveInput | observe | storeArtifact =>
    exact ⟨id, fun uncertain => .inr ⟨uncertain, le_rfl, .inl rfl⟩⟩

theorem doubtKept_of_sequence {action : RunAction} (other : ¬ Resumes action) {origin tx : Tx}
    (h : Sequence action origin tx) :
    DoubtKept (action = .claimSubmissionRecovery) origin.run.execution tx.run.execution := by
  induction h with
  | start => exact doubtKept_refl _ _
  | next h s ih =>
    cases s with
    | execution f write => exact ih.trans (doubtKept_of_write other (fun _ drawn => drawn.1) write)
    | notice sourceEventId kind axis reasonCode known =>
      simp only [queueRunNotice]
      split <;> exact ih
    | _ => exact ih

theorem pending_of_sequence {action : RunAction} {origin tx : Tx}
    (h : Sequence action origin tx) (pending : tx.run.execution.status = .pending) :
    origin.run.execution.status = .pending := by
  induction h with
  | start => exact pending
  | @next before after h s ih =>
    cases s with
    | execution f write =>
      apply ih
      simp only [updateExecution] at pending
      generalize f before.run.execution = next at write pending
      cases write with
      | saveInput | observe | storeArtifact | claimRecovery | countUnknown => exact pending
      | _ => cases pending
    | notice sourceEventId kind axis reasonCode known =>
      simp only [queueRunNotice] at pending
      split at pending <;> exact ih pending
    | _ => exact ih pending

/-- Recovery tokens come from the transaction that wrote them. -/
theorem claimToken_of_sequence {action : RunAction} {origin tx : Tx}
    (h : Sequence action origin tx) {token : Token}
    (claimed : tx.run.execution.claimToken = some token) :
    origin.run.execution.claimToken = some token ∨
      origin.nextToken ≤ token ∧ token < tx.nextToken := by
  induction h with
  | start => exact .inl claimed
  | @next before after h s ih =>
    cases s with
    | execution f write =>
      have kept : before.run.execution.claimToken = some token ∨
          origin.nextToken ≤ token ∧ token < before.nextToken := by
        simp only [updateExecution] at claimed
        generalize f before.run.execution = next at write claimed
        cases write with
        | claimRecovery drawn fresh doubtful =>
          obtain rfl : drawn = token := by simpa using claimed
          exact .inr fresh.2
        | recover | failRecovery | resume | disconnect | fail | stop => simp at claimed
        | _ => exact .inl claimed
      exact kept.elim ih .inr
    | token =>
      rcases ih claimed with old | ⟨low, high⟩
      · exact .inl old
      · exact .inr ⟨low, Nat.lt_succ_of_lt high⟩
    | notice sourceEventId kind axis reasonCode known =>
      simp only [queueRunNotice] at claimed ⊢
      split at claimed <;> split <;> exact ih claimed
    | _ => exact ih claimed

/-- Resuming leaves an execution alone that is not disconnected. -/
theorem resume_idle {store : Store} {id : RunId} {action : RunAction} {tx : Tx}
    (resumes : Resumes action) (other : tx.run.execution.status ≠ .disconnected) :
    (action.result store id tx).run.execution = tx.run.execution := by
  have unresumed : ExecutionStore.resumeDisconnectedSubmissionRecoveryOn tx = none := by
    simp [ExecutionStore.resumeDisconnectedSubmissionRecoveryOn, other]
  rcases resumes with rfl | rfl | rfl
  · simp [RunAction.result, RunAction.perform, written, Except.map,
      ExecutionStore.resumeDisconnectedSubmissionRecovery, unresumed]
  · simp [RunAction.result, RunAction.perform, written, Except.map,
      OperatorDecisionStore.resumeDisconnectedExecution, unresumed]
  · by_cases prepared : tx.run.preparation.status = .disconnected
    · by_cases waiting : tx.run.execution.status = .pending
      · simp [RunAction.result, RunAction.perform, written, Except.map,
          OperatorDecisionStore.resumeDisconnectedRun, prepared, waiting,
          OperatorDecisionStore.resumeDisconnectedPreparation, supersedeRunAttentionNotices,
          appendEvent]
      · simp [RunAction.result, RunAction.perform, written, Except.map,
          OperatorDecisionStore.resumeDisconnectedRun, prepared, waiting]
    · by_cases parked : tx.run.publication.status = .disconnected
      · simp [RunAction.result, RunAction.perform, written, Except.map,
          OperatorDecisionStore.resumeDisconnectedRun, prepared, other, parked,
          OperatorDecisionStore.resumeDisconnectedPublication,
          PublicationStore.resumeDisconnectedOn, supersedeRunAttentionNotices, appendEvent]
      · simp [RunAction.result, RunAction.perform, written, Except.map,
          OperatorDecisionStore.resumeDisconnectedRun, prepared, other, parked]

/-- The claim that `claimSubmissionRecovery` would take. -/
def recoverable (store : Store) (now : Timestamp) (e : Execution) : Bool :=
  e.status = .uncertain && ExecutionStore.recoveryUnowned store now e

theorem claim_refused {store : Store} {id : RunId} {tx : Tx}
    (refused : recoverable store tx.now tx.run.execution = false) :
    RunAction.result store id .claimSubmissionRecovery tx = tx := by
  simp only [recoverable] at refused
  simp [RunAction.result, RunAction.perform, written, Except.map,
    ExecutionStore.claimSubmissionRecovery, refused]

/-- What one operation does to the recovery of a run. -/
structure RecoveryEffect (call : Call) (db : Database) (id : RunId) (run next : Run) : Prop where
  connector : next.connectorId = run.connectorId
  token : ∀ token, next.execution.claimToken = some token →
    run.execution.claimToken = some token ∨
      db.nextToken ≤ token ∧ token < (call.2.execute call.1 db).nextToken
  pending : next.execution.status = .pending → run.execution.status = .pending
  uncertain : next.execution.status = .uncertain → run.execution.status ≠ .disconnected →
    run.execution.status = .pending ∨
      run.execution.status = .uncertain ∧
        run.execution.attemptCount ≤ next.execution.attemptCount ∧
        (next.execution.claimToken = run.execution.claimToken ∨
          actionOn call db id = some .claimSubmissionRecovery ∧
            recoverable call.1 db.clock run.execution = true)

theorem execute_recovery (call : Call) {db : Database} {id : RunId} {run : Run}
    (row : db.runs.row id = some run) :
    ∃ next, (call.2.execute call.1 db).runs.row id = some next ∧
      RecoveryEffect call db id run next := by
  obtain ⟨tx, sees, row', counted⟩ := execute_existing call row
  refine ⟨_, row', ?_⟩
  cases acts : actionOn call db id with
  | none =>
    simp only [resultOf, sees.run]
    exact ⟨rfl, fun _ held => .inl held, fun pending => pending,
      fun uncertain _ => .inr ⟨uncertain, le_rfl, .inl rfl⟩⟩
  | some action =>
    rw [acts] at counted
    have sequence : Sequence action tx (action.result call.1 id tx) :=
      result_statements call.1 id action tx
    constructor
    · rw [← sees.run]
      exact (result_writes call.1 id action tx).advances.connector
    · intro token held
      rcases claimToken_of_sequence sequence held with old | ⟨low, high⟩
      · exact .inl (sees.run ▸ old)
      · exact .inr ⟨sees.token.trans low, high.trans_le counted.token⟩
    · intro pending
      exact sees.run ▸ pending_of_sequence sequence pending
    · intro uncertain undisturbed
      rw [← sees.run] at undisturbed ⊢
      by_cases resumes : Resumes action
      · have same : (action.result call.1 id tx).run.execution = tx.run.execution :=
          resume_idle resumes undisturbed
        simp only [resultOf] at uncertain ⊢
        rw [same] at uncertain ⊢
        exact .inr ⟨uncertain, le_rfl, .inl rfl⟩
      · rcases (doubtKept_of_sequence resumes sequence).uncertain uncertain with
          pending | ⟨before, count, token | rfl⟩
        · exact .inl pending
        · exact .inr ⟨before, count, .inl token⟩
        · refine .inr ⟨before, count, ?_⟩
          cases free : recoverable call.1 db.clock tx.run.execution with
          | true => exact .inr ⟨acts, rfl⟩
          | false =>
            left
            rw [← sees.now] at free
            rw [resultOf, claim_refused free]

/-- The claim a recovery task works under. -/
def recoveryToken : Work → Option Token
  | .recovery _ (.submitting token _) | .recovery _ (.completing token)
  | .recovery _ (.deferring token) | .recovery _ (.failing token _) => some token
  | _ => none
def eventTask : Event → Option Nat
  | .storeCall i _ | .send i | .receive i _ | .crash i => some i
  | _ => none

theorem setWork_get {w : World} {i j : Nat} {event : Event} {task : Task}
    (found : w.tasks[j]? = some task) :
    (w.setWork i event)[j]? = some (if i = j then { task with work := w.taskAfter task event }
      else task) := by
  simp only [World.setWork]
  by_cases same : i = j
  · subst same
    have inside : i < w.tasks.length := (List.getElem?_eq_some_iff.mp found).1
    simp [found, List.getElem?_set_self inside]
  · split
    · simp [same, found]
    · simp [same, found, List.getElem?_set_ne]

theorem tasksAfter_get (w : World) (event : Event) {j : Nat} {task : Task}
    (found : w.tasks[j]? = some task) :
    (w.tasksAfter event)[j]? = some (if eventTask event = some j then
      { task with work := w.taskAfter task event } else task) := by
  have inside : j < w.tasks.length := (List.getElem?_eq_some_iff.mp found).1
  cases event with
  | storeCall i reply => simpa [World.tasksAfter, eventTask] using setWork_get found
  | send i => simpa [World.tasksAfter, eventTask] using setWork_get found
  | receive i answer => simpa [World.tasksAfter, eventTask] using setWork_get found
  | crash i => simpa [World.tasksAfter, eventTask] using setWork_get found
  | submitPreparedRun store runId retries token context input =>
    simp only [World.tasksAfter, eventTask]
    split
    · simp [List.getElem?_append_left inside, found]
    · simp [found]
  | recoverReviewRunSubmission store runId retries input =>
    simp [World.tasksAfter, eventTask, List.getElem?_append_left inside, found]
  | _ => simp [World.tasksAfter, eventTask, found]

theorem setWork_length (w : World) (i : Nat) (event : Event) :
    (w.setWork i event).length = w.tasks.length := by
  simp only [World.setWork]
  split <;> simp

/-- A task that just started works under no claim. -/
theorem tasksAfter_new {w : World} {event : Event} {j : Nat} {task : Task}
    (absent : w.tasks[j]? = none) (found : (w.tasksAfter event)[j]? = some task) :
    recoveryToken task.work = none := by
  have outside : w.tasks.length ≤ j := List.getElem?_eq_none_iff.mp absent
  have inside : j < (w.tasksAfter event).length := (List.getElem?_eq_some_iff.mp found).1
  have last : ∀ new : Task, w.tasksAfter event = w.tasks ++ [new] → task = new := by
    intro new appended
    rw [appended, List.getElem?_append_right outside, List.getElem?_singleton] at found
    split at found
    · exact (Option.some.inj found).symm
    · cases found
  cases event with
  | submitPreparedRun store runId retries token context input =>
    simp only [World.tasksAfter] at last inside
    split at last
    · rw [last _ rfl]
      rfl
    · next missing =>
      rw [if_neg missing] at inside
      omega
  | recoverReviewRunSubmission store runId retries input =>
    rw [last _ rfl]
    rfl
  | storeCall i reply =>
    simp only [World.tasksAfter, setWork_length] at inside
    omega
  | send i =>
    simp only [World.tasksAfter, setWork_length] at inside
    omega
  | receive i answer =>
    simp only [World.tasksAfter, setWork_length] at inside
    omega
  | crash i =>
    simp only [World.tasksAfter, setWork_length] at inside
    omega
  | _ =>
    simp only [World.tasksAfter] at inside
    omega

/-- A recovery without an input never reaches its submission. -/
def Supplied : Work → Prop
  | .recovery none (.submitting _ _) | .recovery none (.completing _)
  | .recovery none (.deferring _) => False
  | _ => True

/-- How a recovery task comes to its claim. -/
def Claims (task : Task) (db : Database) (event : Event) (token : Token) : Prop :=
  ∃ i input, event = .storeCall i .answered ∧ task.work = .recovery input .claiming ∧
    claimRecoveryResult task db = .ok (some token)

theorem afterCall_token {task : Task} {db : Database} {i : Nat} {reply : Reply} {token : Token}
    (h : recoveryToken (task.afterCall db reply) = some token) :
    recoveryToken task.work = some token ∨ Claims task db (.storeCall i reply) token := by
  obtain ⟨store, runId, retries, work⟩ := task
  cases work with
  | prepared held context input phase => cases phase <;> cases h
  | recovery input phase =>
    cases phase with
    | claiming =>
      right
      cases reply with
      | lost committed e => cases h
      | answered =>
        refine ⟨i, input, rfl, rfl, ?_⟩
        simp only [Task.afterCall, Reply.deliver] at h
        split at h
        · next held claimed =>
          rw [claimed]
          cases input <;> simp_all [recoveryToken]
        · cases h
        · cases h
    | completing held =>
      left
      simp only [Task.afterCall] at h
      split at h
      · cases h
      · exact h
    | submitting held submit => exact .inl h
    | deferring held => cases h
    | failing held error => cases h
    | finished => cases h

theorem recoveryToken_withSubmit (submit : Submit) (work : Work) :
    recoveryToken (work.withSubmit submit) = recoveryToken work := by
  rcases work with ⟨_, _, _, phase⟩ | ⟨_, phase⟩ <;> cases phase <;> rfl

theorem recoveryToken_afterSubmit (result : SubmitResult) (work : Work) :
    recoveryToken (work.afterSubmit result) = recoveryToken work := by
  rcases work with ⟨_, _, _, phase⟩ | ⟨_, phase⟩ <;> cases phase <;> try rfl
  cases result with
  | threw error => cases error <;> rfl
  | _ => rfl

theorem supplied_withSubmit {work : Work} (submit : Submit) (h : Supplied work) :
    Supplied (work.withSubmit submit) := by
  rcases work with ⟨_, _, _, phase⟩ | ⟨input, phase⟩
  · cases phase <;> exact trivial
  · cases input with
    | some input => cases phase <;> exact trivial
    | none => cases phase <;> first | exact trivial | exact absurd h id

theorem recoveryToken_crashed (work : Work) : recoveryToken work.crashed = none := by
  cases work <;> rfl

theorem supplied_crashed (work : Work) : Supplied work.crashed := by
  rcases work with ⟨_, _, _, _⟩ | ⟨input, _⟩
  · exact trivial
  · cases input <;> exact trivial

theorem supplied_afterSubmit {work : Work} (result : SubmitResult) (h : Supplied work) :
    Supplied (work.afterSubmit result) := by
  rcases work with ⟨_, _, _, phase⟩ | ⟨input, phase⟩
  · cases phase <;> exact trivial
  · cases input with
    | some input => cases phase <;> exact trivial
    | none => cases phase <;> first | exact trivial | exact absurd h id

/-- Receiving an answer keeps the task, or moves it on by a result. -/
theorem receive_cases (w : World) (task : Task) (i : Nat) (answer : Answer) :
    w.taskAfter task (.receive i answer) = task.work ∨
      ∃ attempt request result status, task.work.submit = some (.waiting attempt request) ∧
        submitExecutionRun task.runId task.retries attempt status answer = some result ∧
        w.taskAfter task (.receive i answer) = task.work.afterSubmit result := by
  simp only [World.taskAfter]
  split
  · next attempt request waiting =>
    split
    · exact .inl rfl
    · next r found =>
      split
      · exact .inl rfl
      · next result outcome => exact .inr ⟨attempt, request, result, _, waiting, outcome, rfl⟩
  · exact .inl rfl

theorem send_cases (w : World) (task : Task) (i : Nat) :
    w.taskAfter task (.send i) = task.work ∨
      ∃ attempt, task.work.submit = some (.sending attempt) ∧
        w.taskAfter task (.send i) =
          task.work.withSubmit (.waiting attempt w.requests.length) := by
  simp only [World.taskAfter]
  split
  · next attempt sending => exact .inr ⟨attempt, sending, rfl⟩
  · exact .inl rfl

theorem taskAfter_token {w : World} {task : Task} {event : Event} {token : Token}
    (h : recoveryToken (w.taskAfter task event) = some token) :
    recoveryToken task.work = some token ∨ Claims task w.db event token := by
  cases event with
  | storeCall i reply => exact afterCall_token h
  | send i =>
    left
    rcases send_cases w task i with same | ⟨attempt, -, moved⟩
    · exact same ▸ h
    · rw [moved, recoveryToken_withSubmit] at h
      exact h
  | receive i answer =>
    left
    rcases receive_cases w task i answer with same | ⟨_, _, result, _, -, -, moved⟩
    · exact same ▸ h
    · rw [moved, recoveryToken_afterSubmit] at h
      exact h
  | crash i =>
    simp [World.taskAfter, recoveryToken_crashed] at h
  | _ => exact .inl h

theorem afterCall_supplied {task : Task} (db : Database) (reply : Reply)
    (h : Supplied task.work) : Supplied (task.afterCall db reply) := by
  obtain ⟨store, runId, retries, work⟩ := task
  cases work with
  | prepared held context input phase => cases phase <;> exact trivial
  | recovery input phase =>
    cases phase with
    | claiming =>
      simp only [Task.afterCall]
      split
      · cases input <;> exact trivial
      · cases input <;> exact trivial
      · cases input <;> exact trivial
    | completing held =>
      simp only [Task.afterCall]
      split <;> cases input <;> exact trivial
    | submitting held submit => exact h
    | deferring held => cases input <;> exact trivial
    | failing held error => cases input <;> exact trivial
    | finished => cases input <;> exact trivial

theorem taskAfter_supplied {w : World} {task : Task} (event : Event) (h : Supplied task.work) :
    Supplied (w.taskAfter task event) := by
  cases event with
  | storeCall i reply => exact afterCall_supplied w.db reply h
  | send i =>
    rcases send_cases w task i with same | ⟨attempt, -, moved⟩
    · exact same ▸ h
    · exact moved ▸ supplied_withSubmit _ h
  | receive i answer =>
    rcases receive_cases w task i answer with same | ⟨_, _, result, _, -, -, moved⟩
    · exact same ▸ h
    · exact moved ▸ supplied_afterSubmit result h
  | crash i => exact supplied_crashed task.work
  | _ => exact h

theorem dbAfter_grows (w : World) (event : Event) : Grows w.db (w.dbAfter event) := by
  simp only [World.dbAfter]
  split
  · exact grows_refl _
  · next call _ => exact execute_grows call w.db

/-- Where the row of a run after an event comes from. -/
theorem dbAfter_row {w : World} {event : Event} {id : RunId} {next : Run}
    (row' : (w.dbAfter event).runs.row id = some next) :
    (w.db.runs.row id = none ∧ next.execution.status = .pending ∧
        next.execution.claimToken = none) ∨
      (w.calls event = none ∧ w.db.runs.row id = some next) ∨
      ∃ call run, w.calls event = some call ∧ w.db.runs.row id = some run ∧
        w.dbAfter event = call.2.execute call.1 w.db ∧ RecoveryEffect call w.db id run next := by
  cases made : w.calls event with
  | none =>
    simp only [World.dbAfter, made] at row'
    exact .inr (.inl ⟨rfl, row'⟩)
  | some call =>
    have after : w.dbAfter event = call.2.execute call.1 w.db := by
      simp only [World.dbAfter, made]
    rw [after] at row'
    cases row : w.db.runs.row id with
    | none =>
      rcases execute_absent call row with absent | ⟨args, new, -⟩
      · simp [absent] at row'
      · obtain rfl := Option.some.inj (row'.symm.trans new)
        exact .inl ⟨rfl, rfl, rfl⟩
    | some run =>
      obtain ⟨found, new, effect⟩ := execute_recovery call row
      obtain rfl := Option.some.inj (row'.symm.trans new)
      exact .inr (.inr ⟨call, run, rfl, rfl, after, effect⟩)

theorem dbAfter_present {w : World} (event : Event) {id : RunId} {run : Run}
    (row : w.db.runs.row id = some run) : ∃ next, (w.dbAfter event).runs.row id = some next := by
  simp only [World.dbAfter]
  split
  · exact ⟨run, row⟩
  · next call _ =>
    obtain ⟨next, row', -⟩ := execute_recovery call row
    exact ⟨next, row'⟩

theorem dbAfter_claimToken {w : World} {event : Event} {id : RunId} {next : Run} {token : Token}
    (row' : (w.dbAfter event).runs.row id = some next)
    (held : next.execution.claimToken = some token) :
    (∃ run, w.db.runs.row id = some run ∧ run.execution.claimToken = some token ∧
        next.connectorId = run.connectorId) ∨
      w.db.nextToken ≤ token ∧ token < (w.dbAfter event).nextToken := by
  rcases dbAfter_row row' with ⟨-, -, none⟩ | ⟨-, row⟩ | ⟨call, run, -, row, after, effect⟩
  · rw [none] at held
    cases held
  · exact .inl ⟨next, row, held, rfl⟩
  · rcases effect.token token held with old | drawn
    · exact .inl ⟨run, row, old, effect.connector⟩
    · exact .inr (after ▸ drawn)

theorem claimRecovery_ok {task : Task} {db : Database} {token : Token}
    (h : claimRecoveryResult task db = .ok (some token)) :
    ∃ run, find db task.store task.runId = some run ∧ token = db.nextToken ∧
      (apply task.store task.runId .claimSubmissionRecovery db).nextToken = token + 1 := by
  rcases transaction_ok h with missing | ⟨run, next, found, performed⟩
  · cases missing
  · refine ⟨run, found, ?_⟩
    simp only [ExecutionStore.claimSubmissionRecovery] at performed
    split at performed
    · next free =>
      simp only [randomUUID, Except.ok.injEq, Prod.mk.injEq, Option.some.injEq] at performed
      obtain ⟨rfl, -⟩ := performed
      refine ⟨rfl, ?_⟩
      simp [apply, found, RunAction.result, RunAction.perform, written, Except.map,
        ExecutionStore.claimSubmissionRecovery, free, appendEvent, commit]
    · cases performed

/-- Tokens of recovery tasks and of executions: each was drawn, no two tasks
share one, and an execution that has the token of a task is the one the task
claimed. -/
structure Fenced (w : World) : Prop where
  reachable : coordination.Reachable w.db
  drawn : ∀ id run token, w.db.runs.row id = some run →
    run.execution.claimToken = some token → token < w.db.nextToken
  bounded : ∀ (j : Nat) task token, w.tasks[j]? = some task →
    recoveryToken task.work = some token → token < w.db.nextToken
  distinct : ∀ (i j : Nat) a b token, w.tasks[i]? = some a → w.tasks[j]? = some b →
    recoveryToken a.work = some token → recoveryToken b.work = some token → i = j
  owner : ∀ (j : Nat) task token id run, w.tasks[j]? = some task →
    recoveryToken task.work = some token → w.db.runs.row id = some run →
    run.execution.claimToken = some token →
      id = task.runId ∧ run.connectorId = task.store.connectorId
  supplied : ∀ (j : Nat) task, w.tasks[j]? = some task → Supplied task.work

/-- A task's token after an event: the one it had, or the one it has just
drawn. -/
theorem task_origin {w : World} {event : Event} {j : Nat} {task : Task} {token : Token}
    (found : (w.tasksAfter event)[j]? = some task)
    (held : recoveryToken task.work = some token) :
    ∃ before, w.tasks[j]? = some before ∧ task.runId = before.runId ∧
      task.store = before.store ∧ (recoveryToken before.work = some token ∨
        eventTask event = some j ∧ Claims before w.db event token) := by
  cases was : w.tasks[j]? with
  | none =>
    rw [tasksAfter_new was found] at held
    cases held
  | some before =>
    rw [tasksAfter_get w event was] at found
    split at found
    · next here =>
      obtain rfl := Option.some.inj found
      refine ⟨before, rfl, rfl, rfl, ?_⟩
      exact (taskAfter_token held).imp_right fun claims => ⟨here, claims⟩
    · obtain rfl := Option.some.inj found
      exact ⟨before, rfl, rfl, rfl, .inl held⟩

theorem claims_drawn {w : World} {event : Event} {j : Nat} {task : Task} {token : Token}
    (found : w.tasks[j]? = some task) (here : eventTask event = some j)
    (claims : Claims task w.db event token) :
    token = w.db.nextToken ∧ (w.dbAfter event).nextToken = token + 1 ∧
      ∃ run, find w.db task.store task.runId = some run ∧
        w.dbAfter event = apply task.store task.runId .claimSubmissionRecovery w.db := by
  obtain ⟨i, input, rfl, claiming, claimed⟩ := claims
  obtain rfl : i = j := Option.some.inj here
  obtain ⟨run, visible, drawn, after⟩ := claimRecovery_ok claimed
  have applied : w.dbAfter (.storeCall i .answered) =
      apply task.store task.runId .claimSubmissionRecovery w.db := by
    simp only [World.dbAfter, World.calls, found, Reply.commits, Task.action, claiming]
    exact onRun_execute _ _ _ _
  exact ⟨drawn, applied ▸ after, run, visible, applied⟩

theorem fenced_step {w : World} (h : Fenced w) (event : Event) : Fenced (w.step event) := by
  have grows : w.db.nextToken ≤ (w.dbAfter event).nextToken := (dbAfter_grows w event).token
  refine ⟨dbAfter_reachable h.reachable event, ?_, ?_, ?_, ?_, ?_⟩
  · intro id run token row held
    rcases dbAfter_claimToken row held with ⟨before, row, old, -⟩ | ⟨-, high⟩
    · exact (h.drawn id before token row old).trans_le grows
    · exact high
  · intro j task token found held
    obtain ⟨before, was, -, -, old | ⟨here, claims⟩⟩ := task_origin found held
    · exact (h.bounded j before token was old).trans_le grows
    · have next : (w.step event).db.nextToken = token + 1 := (claims_drawn was here claims).2.1
      rw [next]
      exact Nat.lt_succ_self token
  · intro i j a b token foundA foundB heldA heldB
    obtain ⟨a', wasA, -, -, oldA | ⟨hereA, claimsA⟩⟩ := task_origin foundA heldA <;>
      obtain ⟨b', wasB, -, -, oldB | ⟨hereB, claimsB⟩⟩ := task_origin foundB heldB
    · exact h.distinct i j a' b' token wasA wasB oldA oldB
    · have below := h.bounded i a' token wasA oldA
      exact absurd (claims_drawn wasB hereB claimsB).1 below.ne
    · have below := h.bounded j b' token wasB oldB
      exact absurd (claims_drawn wasA hereA claimsA).1 below.ne
    · exact Option.some.inj (hereA.symm.trans hereB)
  · intro j task token id run found held row claimed
    obtain ⟨before, was, sameRun, sameStore, old | ⟨here, claims⟩⟩ := task_origin found held
    · rw [sameRun, sameStore]
      rcases dbAfter_claimToken row claimed with ⟨run', row', claimed', connector⟩ | ⟨low, -⟩
      · rw [connector]
        exact h.owner j before token id run' was old row' claimed'
      · exact absurd low (h.bounded j before token was old).not_ge
    · rw [sameRun, sameStore]
      obtain ⟨drawn, -, reads, visible, applied⟩ := claims_drawn was here claims
      have row'' : (apply before.store before.runId .claimSubmissionRecovery w.db).runs.row id
          = some run := applied ▸ row
      have same : id = before.runId := by
        by_contra other
        rw [apply_row_other _ other] at row''
        exact (h.drawn id run token row'' claimed).ne drawn
      subst same
      simp only [apply, visible, commit, Table.put_row, if_true, Option.some.injEq] at row''
      refine ⟨rfl, ?_⟩
      rw [← row'', (result_writes _ _ _ _).advances.connector]
      exact (find_some visible).2
  · intro j task found
    cases was : w.tasks[j]? with
    | none =>
      have idle := tasksAfter_new was found
      rcases task with ⟨_, _, _, ⟨_, _, _, _⟩ | ⟨input, phase⟩⟩
      · exact trivial
      · cases input <;> cases phase <;> first | exact trivial | cases idle
    | some before =>
      have found' := (tasksAfter_get w event was).symm.trans found
      split at found'
      · obtain rfl := Option.some.inj found'
        exact taskAfter_supplied event (h.supplied j before was)
      · obtain rfl := Option.some.inj found'
        exact h.supplied j before was

theorem fenced_empty : Fenced World.empty := by
  refine ⟨coordination.reachable_initial, ?_, ?_, ?_, ?_, ?_⟩
  · intro id run token row
    cases row
  · intro j task token found
    cases found
  · intro i j a b token found
    cases found
  · intro j task token id run found
    cases found
  · intro j task found
    cases found

end RecoveryClaims
