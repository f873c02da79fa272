import SecReviewBot.ReviewRuns.CrossAxis
import SecReviewBot.ReviewRuns.Submissions

/-!
# An accepted submission and an execution that never ran

`skipped` tells everybody that the Execution was never called. Two branches
write it, the last expiry of a preparation and a failure that ends it with any
code other than `SUBMISSION_STATE_UNCERTAIN`, and neither asks what earlier
owners of the preparation sent. A run is exposed while a request for it is
unanswered or accepted, or a caller may still send one. As long as no exposed
run is skipped, no accepted run is ever `skipped`.
-/

namespace SubmissionBoundary

open KeyedTables ReviewRunsSchema ReviewRunsTransactions Coordination TransitionSystems
open RowEffects Lifecycles LifecycleView ActionMoves CrossAxis Submissions

theorem skipped_cases {move : Move} {L : Lifecycle}
    (skipped : (move.apply L).execution = .skipped) :
    L.execution = .skipped ∨ ∃ code, move = .endUnsubmitted code := by
  rw [Move.apply_execution] at skipped
  cases move with
  | endUnsubmitted code => exact .inr ⟨code, rfl⟩
  | endParkedPreparation code stop =>
    cases stop with
    | false => exact .inl skipped
    | true =>
      simp only [Move.executionAfter, Move.stopExecution_execution] at skipped
      split at skipped
      · cases skipped
      · exact .inl skipped
  | _ => first | exact .inl skipped | cases skipped

/-- The branches that conclude that the Execution was never called. -/
def skips (store : Store) (now : Timestamp) (run : Run) : RunAction → Bool
  | .expirePreparation =>
    PreparationStore.expirable store now run
      && PreparationStore.maxPreparationAttempts ≤ run.preparation.attemptCount
      && run.execution.status = .pending
  | .failPreparation token error options =>
    PreparationStore.holdsClaim token run.preparation
      && !(options.retry
        && run.preparation.attemptCount < PreparationStore.maxPreparationAttempts)
      && run.execution.status = .pending
      && error.code ≠ some PreparationStore.submissionStateUncertain
  | _ => false

theorem skips_of_move {store : Store} {tx : Tx} {action : RunAction} {code : Option String}
    (h : moveOf store tx action = .endUnsubmitted code) :
    skips store tx.now tx.run action = true := by
  cases action
  case expirePreparation =>
    simp only [moveOf, expiryMove] at h
    split_ifs at h with expirable exhausted pending
    simp [skips, expirable, exhausted, pending]
  case failPreparation token error options =>
    simp only [moveOf, failPreparationMove] at h
    split_ifs at h with holds retries pending certain
    simp only [skips, holds, pending, decide_true, Bool.true_and, Bool.and_true,
      Bool.and_eq_true, Bool.not_eq_true', decide_eq_true_eq]
    refine ⟨?_, certain⟩
    simpa using retries
  all_goals
    simp only [moveOf, refusedClaimMove] at h
    try split_ifs at h
    all_goals cases h

/-- A run is `skipped` after an operation only if it was before, or the
operation took one of those branches. -/
theorem execute_skipped {db : Database} (reachable : coordination.Reachable db) (call : Call)
    {id : RunId} {next : Run} (row' : (call.2.execute call.1 db).runs.row id = some next)
    (skipped : next.execution.status = .skipped) :
    ∃ run, db.runs.row id = some run ∧
      (run.execution.status = .skipped ∨
        ∃ action, actionOn call db id = some action ∧
          skips call.1 db.clock run action = true) := by
  cases row : db.runs.row id with
  | none =>
    rcases execute_absent call row with absent | ⟨args, new, -⟩
    · simp [absent] at row'
    · obtain rfl := Option.some.inj (row'.symm.trans new)
      cases skipped
  | some run =>
    refine ⟨run, rfl, ?_⟩
    obtain ⟨after, row'', idle | ⟨action, tx, acts, sees, now, -, moved⟩⟩ :=
      execute_moves reachable call row
    · obtain rfl := Option.some.inj (row'.symm.trans row'')
      exact .inl (idle.2 ▸ skipped)
    · obtain rfl := Option.some.inj (row'.symm.trans row'')
      have ends : ((moveOf call.1 tx action).apply (view run)).execution = .skipped := by
        rw [← moved]
        exact skipped
      rcases skipped_cases ends with before | ⟨code, made⟩
      · exact .inl before
      · rw [← now, ← sees]
        exact .inr ⟨action, acts, skips_of_move made⟩

/-- The Execution has the request or may still get it. -/
def isOpen : RequestStatus → Bool
  | .inFlight | .accepted => true
  | .refused _ => false

/-- The task may send another request without asking the store first. -/
def maySend (task : Task) : Bool :=
  match task.work.submit with
  | none => false
  | some (.sending _) => true
  | some (.waiting attempt _) => attempt < task.retries

def exposed (w : World) (id : RunId) : Bool :=
  w.tasks.any (fun task => task.runId = id && maySend task)
    || w.requests.any (fun r => r.runId = id && isOpen r.status)

/-- The Execution accepted a submission of the run. -/
def Accepted (w : World) (id : RunId) : Prop :=
  ∃ r ∈ w.requests, r.runId = id ∧ r.status = .accepted

instance (w : World) (id : RunId) : Decidable (Accepted w id) :=
  inferInstanceAs (Decidable (∃ r ∈ w.requests, r.runId = id ∧ r.status = .accepted))

theorem exposed_iff (w : World) (id : RunId) : exposed w id = true ↔
    (∃ task ∈ w.tasks, task.runId = id ∧ maySend task = true) ∨
      ∃ r ∈ w.requests, r.runId = id ∧ isOpen r.status = true := by
  simp [exposed]

theorem exposed_of_accepted {w : World} {id : RunId} (h : Accepted w id) :
    exposed w id = true := by
  obtain ⟨r, mem, same, accepted⟩ := h
  rw [exposed_iff]
  exact .inr ⟨r, mem, same, by rw [accepted]; rfl⟩

theorem submit_crashed (work : Work) : work.crashed.submit = none := by
  cases work <;> rfl

/-- Only another try of the same loop stays in the submission. -/
theorem submit_afterSubmit {work : Work} {submit : Submit} (h : work.submit = some submit)
    (result : SubmitResult) :
    (work.afterSubmit result).submit = match result with
      | .again attempt => some (.sending attempt)
      | _ => none := by
  cases work with
  | prepared token context input phase =>
    cases phase <;> cases h
    cases result <;> rfl
  | recovery input phase =>
    cases phase <;> cases h
    cases result with
    | threw error => cases error <;> rfl
    | _ => rfl

theorem submitExecutionRun_again {runId : RunId} {retries attempt next : Nat}
    {status : RequestStatus} {answer : Answer}
    (h : submitExecutionRun runId retries attempt status answer = some (.again next)) :
    attempt < retries ∧ next = attempt + 1 := by
  have budget : ∀ message, retryOr retries attempt message = .again next →
      attempt < retries ∧ next = attempt + 1 := by
    intro message again
    simp only [retryOr] at again
    split at again
    · next left =>
      cases again
      exact ⟨left, rfl⟩
    · cases again
  cases answer with
  | success valid => cases status <;> cases valid <;> simp [submitExecutionRun] at h
  | refusal => cases status <;> simp [submitExecutionRun] at h
  | unavailable httpStatus =>
    have again : (if isRetryableStatus httpStatus then some (retryOr retries attempt
        s!"Execution submission returned HTTP {httpStatus} for run {runId}.") else none)
        = some (.again next) := by
      cases status <;> exact h
    rw [Option.ite_none_right_eq_some, Option.some.injEq] at again
    exact budget _ again.2
  | transportError transient =>
    cases transient with
    | false => cases status <;> simp [submitExecutionRun] at h
    | true =>
      apply budget s!"Execution submission state is uncertain for run {runId}."
      cases status <;> exact Option.some.inj h

/-- The store lets a task through to its submission. -/
def Begins (task : Task) (db : Database) (reply : Reply) : Prop :=
  reply = .answered ∧
    ((∃ token context input, task.work = .prepared token context input .saving ∧
        saveResult task token context input db = .ok ()) ∨
      ∃ token input, task.work = .recovery input .claiming ∧
        claimRecoveryResult task db = .ok (some token))

theorem afterCall_maySend {task : Task} {db : Database} {reply : Reply}
    (h : maySend { task with work := task.afterCall db reply } = true) :
    maySend task = true ∨ Begins task db reply := by
  obtain ⟨store, runId, retries, work⟩ := task
  cases work with
  | prepared token context input phase =>
    cases phase with
    | saving =>
      right
      cases reply with
      | lost committed e => simp [maySend, Task.afterCall, Reply.deliver, Work.submit] at h
      | answered =>
        refine ⟨rfl, .inl ⟨token, context, input, rfl, ?_⟩⟩
        cases saved : saveResult ⟨store, runId, retries, .prepared token context input .saving⟩
            token context input db with
        | ok answer => rfl
        | error e => simp [maySend, Task.afterCall, Reply.deliver, Work.submit, saved] at h
    | submitting submit => exact .inl h
    | queueing =>
      simp only [maySend, Task.afterCall] at h
      cases queued : reply.deliver (markQueuedResult ⟨store, runId, retries,
          .prepared token context input .queueing⟩ token context db) <;>
        simp [queued, Work.submit] at h
    | cleaning error retry => cases h
    | finished => cases h
  | recovery input phase =>
    cases phase with
    | claiming =>
      right
      cases reply with
      | lost committed e => simp [maySend, Task.afterCall, Reply.deliver, Work.submit] at h
      | answered =>
        refine ⟨rfl, .inr ?_⟩
        cases claimed : claimRecoveryResult ⟨store, runId, retries, .recovery input .claiming⟩
            db with
        | error e => simp [maySend, Task.afterCall, Reply.deliver, Work.submit, claimed] at h
        | ok answer =>
          cases answer with
          | none => simp [maySend, Task.afterCall, Reply.deliver, Work.submit, claimed] at h
          | some token => exact ⟨token, input, rfl, rfl⟩
    | submitting token submit => exact .inl h
    | completing token =>
      simp only [maySend, Task.afterCall] at h
      cases completed : reply.deliver (completeRecoveryResult ⟨store, runId, retries,
          .recovery input (.completing token)⟩ token db) <;>
        simp [completed, Work.submit] at h
    | deferring token => cases h
    | failing token error => cases h
    | finished => cases h

theorem taskAfter_maySend {w : World} {task : Task} {event : Event}
    (h : maySend { task with work := w.taskAfter task event } = true) :
    maySend task = true ∨ ∃ i reply, event = .storeCall i reply ∧ Begins task w.db reply := by
  cases event with
  | storeCall i reply =>
    rcases afterCall_maySend h with before | begins
    · exact .inl before
    · exact .inr ⟨i, reply, rfl, begins⟩
  | send i =>
    left
    cases inside : task.work.submit with
    | none => simpa [World.taskAfter, inside] using h
    | some submit =>
      cases submit with
      | sending attempt => simp [maySend, inside]
      | waiting attempt request => simpa [World.taskAfter, inside] using h
  | receive i answer =>
    left
    cases inside : task.work.submit with
    | none => simpa [World.taskAfter, inside] using h
    | some submit =>
      cases submit with
      | sending attempt => simp [maySend, inside]
      | waiting attempt request =>
        simp only [World.taskAfter, inside] at h
        split at h
        · exact h
        · split at h
          · exact h
          · next result outcome =>
            simp only [maySend, submit_afterSubmit inside result] at h
            cases result with
            | again next => simp [maySend, inside, (submitExecutionRun_again outcome).1]
            | returned => cases h
            | threw error => cases h
  | crash i => simp [World.taskAfter, maySend, submit_crashed] at h
  | _ => exact .inl h

theorem mem_setWork {w : World} {i : Nat} {event : Event} {task : Task}
    (mem : task ∈ w.setWork i event) : task ∈ w.tasks ∨
      ∃ before, w.tasks[i]? = some before ∧
        task = { before with work := w.taskAfter before event } := by
  simp only [World.setWork] at mem
  split at mem
  · exact .inl mem
  · next before found =>
    rcases List.mem_or_eq_of_mem_set mem with old | new
    · exact .inl old
    · exact .inr ⟨before, found, new⟩

/-- A task that may send did so before, or was just let through. -/
theorem tasksAfter_maySend {w : World} {event : Event} {task : Task}
    (mem : task ∈ w.tasksAfter event) (sends : maySend task = true) :
    (∃ before ∈ w.tasks, before.runId = task.runId ∧ maySend before = true) ∨
      ∃ i reply before, event = .storeCall i reply ∧ w.tasks[i]? = some before ∧
        before.runId = task.runId ∧ Begins before w.db reply := by
  have changed : ∀ i, task ∈ w.setWork i event →
      (∀ j reply, event = .storeCall j reply → j = i) →
      (∃ before ∈ w.tasks, before.runId = task.runId ∧ maySend before = true) ∨
        ∃ i reply before, event = .storeCall i reply ∧ w.tasks[i]? = some before ∧
          before.runId = task.runId ∧ Begins before w.db reply := by
    intro i mem same
    rcases mem_setWork mem with old | ⟨before, found, rfl⟩
    · exact .inl ⟨task, old, rfl, sends⟩
    · rcases taskAfter_maySend sends with still | ⟨j, reply, made, begins⟩
      · exact .inl ⟨before, List.mem_of_getElem? found, rfl, still⟩
      · obtain rfl := same j reply made
        exact .inr ⟨j, reply, before, made, found, rfl, begins⟩
  cases event with
  | storeCall i reply => exact changed i mem (by rintro j r ⟨⟩; rfl)
  | send i => exact changed i mem (by rintro j r ⟨⟩)
  | receive i answer => exact changed i mem (by rintro j r ⟨⟩)
  | crash i => exact changed i mem (by rintro j r ⟨⟩)
  | submitPreparedRun store runId retries token context input =>
    simp only [World.tasksAfter] at mem
    split at mem
    · rcases List.mem_append.mp mem with old | new
      · exact .inl ⟨task, old, rfl, sends⟩
      · obtain rfl := List.mem_singleton.mp new
        cases sends
    · exact .inl ⟨task, mem, rfl, sends⟩
  | recoverReviewRunSubmission store runId retries input =>
    rcases List.mem_append.mp mem with old | new
    · exact .inl ⟨task, old, rfl, sends⟩
    · obtain rfl := List.mem_singleton.mp new
      cases sends
  | _ => exact .inl ⟨task, mem, rfl, sends⟩

theorem settleRequest_open {w : World} {i : Nat} {status : RequestStatus} {r : Request}
    (mem : r ∈ w.settleRequest i status) (isopen : isOpen r.status = true) :
    ∃ before ∈ w.requests, before.runId = r.runId ∧ isOpen before.status = true := by
  simp only [World.settleRequest] at mem
  split at mem
  · next runId found =>
    rcases List.mem_or_eq_of_mem_set mem with old | rfl
    · exact ⟨r, old, rfl, isopen⟩
    · exact ⟨_, List.mem_of_getElem? found, rfl, rfl⟩
  · exact ⟨r, mem, rfl, isopen⟩

/-- An open request was open before, or a task that may send has just sent it. -/
theorem requestsAfter_open {w : World} {event : Event} {r : Request}
    (mem : r ∈ w.requestsAfter event) (isopen : isOpen r.status = true) :
    exposed w r.runId = true := by
  rw [exposed_iff]
  cases event with
  | send i =>
    simp only [World.requestsAfter] at mem
    split at mem
    · exact .inr ⟨r, mem, rfl, isopen⟩
    · next task found =>
      split at mem
      · next attempt sending =>
        rcases List.mem_append.mp mem with old | new
        · exact .inr ⟨r, old, rfl, isopen⟩
        · obtain rfl := List.mem_singleton.mp new
          exact .inl ⟨task, List.mem_of_getElem? found, rfl, by simp [maySend, sending]⟩
      · exact .inr ⟨r, mem, rfl, isopen⟩
  | accept i => exact .inr (settleRequest_open mem isopen)
  | refuse i refusal => exact .inr (settleRequest_open mem isopen)
  | _ => exact .inr ⟨r, mem, rfl, isopen⟩

theorem exposed_step {w : World} {event : Event} {id : RunId}
    (h : exposed (w.step event) id = true) : exposed w id = true ∨
      ∃ i reply task, event = .storeCall i reply ∧ w.tasks[i]? = some task ∧
        task.runId = id ∧ Begins task w.db reply := by
  rcases (exposed_iff _ _).mp h with ⟨task, mem, rfl, sends⟩ | ⟨r, mem, rfl, isopen⟩
  · rcases tasksAfter_maySend mem sends with before | begins
    · exact .inl ((exposed_iff _ _).mpr (.inl before))
    · exact .inr begins
  · exact .inl (requestsAfter_open mem isopen)

theorem transaction_ok {α : Type} {store : Store} {id : RunId} {missing : Except StoreError α}
    {body : Tx → Outcome α} {db : Database} {answer : α}
    (h : (transaction store id missing body db).1 = .ok answer) :
    missing = .ok answer ∨
      ∃ run next, find db store id = some run ∧ body (begin db run) = .ok (answer, next) := by
  simp only [transaction] at h
  split at h
  · exact .inl h
  · next run found =>
    split at h
    · cases h
    · next result next performed =>
      obtain rfl := Except.ok.inj h
      exact .inr ⟨run, next, found, performed⟩

theorem preparing_of_saved {store : Store} {id : RunId} {token : Token}
    {context input : JsonValues.Json} {tx next : Tx}
    (saved : SubmissionTransitionStore.savePreparedSubmission store id token context input tx =
      .ok ((), next)) : tx.run.preparation.status = .preparing := by
  simp only [SubmissionTransitionStore.savePreparedSubmission] at saved
  split at saved
  · cases saved
  · next claimed =>
    simp only [InputBundleCandidateStore.requirePreparationClaim] at claimed
    split at claimed
    · next holds =>
      simp only [PreparationStore.holdsClaim, Bool.and_eq_true, decide_eq_true_eq] at holds
      exact holds.1.1
    · cases claimed

theorem uncertain_of_claimed {store : Store} {token : Token} {tx next : Tx}
    (claimed : ExecutionStore.claimSubmissionRecovery store tx = .ok (some token, next)) :
    tx.run.execution.status = .uncertain := by
  simp only [ExecutionStore.claimSubmissionRecovery] at claimed
  split at claimed
  · next free =>
    simp only [Bool.and_eq_true, decide_eq_true_eq] at free
    exact free.1
  · cases claimed

/-- A task is let through only while the run's execution is still open, by a
call that does not skip it. -/
theorem Begins.unskipped {task : Task} {db : Database} {reply : Reply}
    (reachable : coordination.Reachable db) (h : Begins task db reply) :
    ∃ run action, db.runs.row task.runId = some run ∧ run.execution.status ≠ .skipped ∧
      reply.commits = true ∧ task.action = some action ∧
      ∀ store now row, skips store now row action = false := by
  obtain ⟨rfl, ⟨token, context, input, saving, saved⟩ | ⟨token, input, claiming, claimed⟩⟩ := h
  · rcases transaction_ok saved with missing | ⟨run, next, found, performed⟩
    · cases missing
    · have row := (find_some found).1
      have preparing : run.preparation.status = .preparing := preparing_of_saved performed
      have pending : run.execution.status = .pending :=
        ((view_consistent reachable row).unsubmitted (.inr (.inl preparing))).1
      refine ⟨run, .savePreparedSubmission token context input, row, ?_, rfl, ?_,
        fun _ _ _ => rfl⟩
      · simp [pending]
      · simp [Task.action, saving]
  · rcases transaction_ok claimed with missing | ⟨run, next, found, performed⟩
    · cases missing
    · have uncertain : run.execution.status = .uncertain := uncertain_of_claimed performed
      refine ⟨run, .claimSubmissionRecovery, (find_some found).1, ?_, rfl, ?_, fun _ _ _ => rfl⟩
      · simp [uncertain]
      · simp [Task.action, claiming]

/-- The event concludes that the Execution was never called, for an exposed run. -/
def skipsExposed (w : World) (event : Event) : Bool :=
  match w.calls event with
  | none => false
  | some call =>
    w.db.runs.keys.any fun id => exposed w id && (w.db.runs.row id).any fun run =>
      (actionOn call w.db id).any (skips call.1 w.db.clock run)

/-- No exposed run is `skipped`. -/
structure Bounded (w : World) : Prop where
  reachable : coordination.Reachable w.db
  unexposed : ∀ id run, w.db.runs.row id = some run → run.execution.status = .skipped →
    exposed w id = false

theorem dbAfter_reachable {w : World} (reachable : coordination.Reachable w.db) (event : Event) :
    coordination.Reachable (w.dbAfter event) := by
  simp only [World.dbAfter]
  split
  · exact reachable
  · next call _ => exact coordination.reachable_step reachable call

/-- Where the `skipped` of a row comes from. -/
theorem step_skipped {w : World} (reachable : coordination.Reachable w.db) {event : Event}
    {id : RunId} {next : Run} (row' : (w.dbAfter event).runs.row id = some next)
    (skipped : next.execution.status = .skipped) :
    ∃ run, w.db.runs.row id = some run ∧
      (run.execution.status = .skipped ∨ ∃ call action, w.calls event = some call ∧
        actionOn call w.db id = some action ∧ skips call.1 w.db.clock run action = true) := by
  cases made : w.calls event with
  | none =>
    simp only [World.dbAfter, made] at row'
    exact ⟨next, row', .inl skipped⟩
  | some call =>
    simp only [World.dbAfter, made] at row'
    obtain ⟨run, row, source⟩ := execute_skipped reachable call row' skipped
    refine ⟨run, row, source.imp_right ?_⟩
    rintro ⟨action, acts, skip⟩
    exact ⟨call, action, rfl, acts, skip⟩

theorem skipsExposed_of {w : World} {event : Event} {id : RunId} {run : Run} {call : Call}
    {action : RunAction} (row : w.db.runs.row id = some run) (open_ : exposed w id = true)
    (made : w.calls event = some call) (acts : actionOn call w.db id = some action)
    (skip : skips call.1 w.db.clock run action = true) : skipsExposed w event = true := by
  simp only [skipsExposed, made, List.any_eq_true, Bool.and_eq_true]
  refine ⟨id, Table.mem_keys_of_row row, open_, ?_⟩
  simp [row, acts, skip]

/-- A run whose task was just let through is not `skipped`. -/
theorem Begins.step_unskipped {w : World} (reachable : coordination.Reachable w.db) {i : Nat}
    {reply : Reply} {task : Task} (found : w.tasks[i]? = some task)
    (begins : Begins task w.db reply) {next : Run}
    (row' : (w.dbAfter (.storeCall i reply)).runs.row task.runId = some next) :
    next.execution.status ≠ .skipped := by
  intro skipped
  obtain ⟨run, action, row, unskipped, commits, performs, harmless⟩ := begins.unskipped reachable
  obtain ⟨same, here, before | ⟨call, performed, made, acts, skip⟩⟩ :=
    step_skipped reachable row' skipped
  · obtain rfl := Option.some.inj (row.symm.trans here)
    exact unskipped before
  · simp only [World.calls, found, commits, if_true, performs, Option.map_some,
      Option.some.injEq] at made
    subst made
    simp only [actionOn, actsOn, if_true, Option.ite_none_right_eq_some, Option.some.injEq] at acts
    rw [← acts.2, harmless] at skip
    cases skip

theorem bounded_step {w : World} {event : Event} (safe : skipsExposed w event = false)
    (h : Bounded w) : Bounded (w.step event) := by
  refine ⟨dbAfter_reachable h.reachable event, ?_⟩
  intro id next row' skipped
  rw [← Bool.not_eq_true]
  intro exposes
  rcases exposed_step exposes with open_ | ⟨i, reply, task, rfl, found, rfl, begins⟩
  · obtain ⟨run, row, before | ⟨call, action, made, acts, skip⟩⟩ :=
      step_skipped h.reachable row' skipped
    · rw [h.unexposed id run row before] at open_
      cases open_
    · rw [skipsExposed_of row open_ made acts skip] at safe
      cases safe
  · exact begins.step_unskipped h.reachable found row' skipped

/-- In every run of the saga in which no exposed run is concluded as never
called, an accepted run is never `skipped`. -/
theorem accepted_never_skipped (events : List Event)
    (safe : ∀ step ∈ saga.steps events, skipsExposed step.1 step.2 = false) :
    ∀ w ∈ saga.visited events, ∀ id run, Accepted w id → w.db.runs.row id = some run →
      run.execution.status ≠ .skipped := by
  intro w visited id run accepted row skipped
  have initially : Bounded saga.initial := by
    refine ⟨coordination.reachable_initial, ?_⟩
    intro id run row
    cases row
  have preserved : ∀ w event, skipsExposed w event = false → Bounded w →
      Bounded (saga.step w event) := fun _ _ safe h => bounded_step safe h
  have bounded := saga.visitedFrom_invariant preserved initially safe visited
  have unexposed := bounded.unexposed id run row skipped
  rw [exposed_of_accepted accepted] at unexposed
  cases unexposed

def bundle : InputBundleCandidateStore.InputBundleReference where
  uri := "file:///bundles/input-bundle.v1.tar.zst"
  digest := "sha256:0000000000000000000000000000000000000000000000000000000000000000"
  mediaType := "application/tar+zstd"
  sizeBytes := 1

def bundleInput : JsonValues.Json := .obj [("input_bundle", bundle.toJson)]

def operations (ops : List Operation) : List Event :=
  ops.map fun operation => .operation (defaultStore, operation)

/-- The owner with this token publishes its input bundle and calls
`submitPreparedRun`, whose request the Execution accepts. -/
def toAccepted (token : Token) : List Event :=
  operations (onRun1
      [.reserveCandidate token ⟨bundle, bundleInput, .obj []⟩,
        .settleCandidate token bundle.digest .present]) ++
    [.submitPreparedRun defaultStore "run-1" 2 token (.obj []) bundleInput,
      .storeCall 0 .answered, .send 0, .accept 0]

/-- The first owner's submission, answered and queued. -/
def queuedSubmission : List Event :=
  operations [.create issueRun] ++ toAccepted 0 ++
    [.receive 0 (.success true), .storeCall 0 .answered]

theorem accepted_submission_queued :
    (∀ step ∈ saga.steps queuedSubmission, skipsExposed step.1 step.2 = false) ∧
      ∃ run, (saga.run queuedSubmission).db.runs.row "run-1" = some run ∧
        run.execution.status ≠ .skipped := by
  have safe : ∀ step ∈ saga.steps queuedSubmission, skipsExposed step.1 step.2 = false := by
    have each : ((saga.steps queuedSubmission).all fun step =>
        !skipsExposed step.1 step.2) = true := by decide +kernel
    simpa using each
  have row : ((saga.run queuedSubmission).db.runs.row "run-1").isSome = true := by decide +kernel
  obtain ⟨run, here⟩ := Option.isSome_iff_exists.mp row
  have accepted : Accepted (saga.run queuedSubmission) "run-1" := by decide +kernel
  exact ⟨safe, run, here,
    accepted_never_skipped _ safe _ (saga.run_visited _) _ run accepted here⟩

/-- Eight owners in a row; the last one crashes once its request is accepted, and
its lease lapses. -/
def crashedOnLastAttempt : List Event :=
  operations ([.create issueRun] ++ (List.replicate 7
      [.advance 600000, .expireStale fun _ => false, .claimNextPreparation fun _ => false]).flatten)
    ++ toAccepted 7 ++ [.crash 0]
    ++ operations [.advance 600000, .expireStale fun _ => false]

/-- The expiry of the last attempt records that the Execution was never called. -/
theorem crashed_submission_skipped :
    ¬ ∀ events : List Event, ∀ w ∈ saga.visited events, ∀ id run, Accepted w id →
      w.db.runs.row id = some run → run.execution.status ≠ .skipped := by
  intro never
  have accepted : Accepted (saga.run crashedOnLastAttempt) "run-1" := by decide +kernel
  have skipped : ((saga.run crashedOnLastAttempt).db.runs.row "run-1").any
      (fun run => run.execution.status = .skipped) = true := by decide +kernel
  simp only [Option.any_eq_true, decide_eq_true_eq] at skipped
  obtain ⟨run, row, status⟩ := skipped
  exact never _ _ (saga.run_visited _) "run-1" run accepted row status

end SubmissionBoundary
