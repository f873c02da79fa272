import SecReviewBot.ReviewRuns.RecoveryPasses
import SecReviewBot.ReviewRuns.RecoveryClaims

/-!
# How often recovery replays a submission

`attempt_count` counts the replays that ended with the outcome unknown, and it
is written only after the replay, by the owner of the claim. So it bounds the
replays as long as every replay is started under the current claim while the
count is below the budget, and every outcome is recorded before another owner
takes the claim. A replay in progress under the current claim is the one that
the count may lack.
-/

namespace ReplayBudget

open KeyedTables ReviewRunsSchema ReviewRunsTransactions Coordination TransitionSystems
open RowEffects CrossAxis Submissions SubmissionBoundary RecoveryPasses RecoveryClaims

/-- The task has invoked `submit` under this claim and has not recorded what
came of it. -/
def replaying (token : Token) : Work → Bool
  | .recovery _ (.submitting _ (.sending 0)) => false
  | .recovery _ (.submitting held _) | .recovery _ (.completing held)
  | .recovery _ (.deferring held) | .recovery (some _) (.failing held _) => held = token
  | _ => false

/-- A replay is in progress under the claim the execution has. -/
def unrecorded (w : World) (id : RunId) (e : Execution) : Bool :=
  w.tasks.any fun task => task.runId = id && e.claimToken.any fun token =>
    replaying token task.work

/-- The task replays under the current claim of the run. -/
def inProgress (id : RunId) (w : World) (i : Nat) : Bool :=
  match w.tasks[i]? with
  | none => false
  | some task => task.runId = id && (w.db.runs.row id).any fun run =>
      run.execution.status = .uncertain && run.execution.claimToken.any fun token =>
        replaying token task.work

/-- The task may invoke `submit`: it has the current claim and the budget is
not spent. -/
def mayInvoke (id : RunId) (w : World) (i : Nat) : Bool :=
  match w.tasks[i]? with
  | none => false
  | some task => (w.db.runs.row id).any fun run => run.execution.status = .uncertain
      && run.execution.claimToken.isSome && recoveryToken task.work = run.execution.claimToken
      && run.execution.attemptCount < maxSubmissionRecoveryAttempts

/-- The next call of the task is the last one of its replay. -/
def concludes (w : World) (i : Nat) : Bool :=
  match w.tasks[i]? with
  | none => false
  | some task =>
    match task.work with
    | .recovery _ (.deferring _) | .recovery _ (.failing _ _) => true
    | _ => false

/-- Another recovery takes the claim of a replay in progress. -/
def claimsOver (id : RunId) (w : World) (event : Event) : Bool :=
  match w.calls event with
  | none => false
  | some call =>
    match actionOn call w.db id with
    | some .claimSubmissionRecovery => (w.db.runs.row id).any fun run =>
        recoverable call.1 w.db.clock run.execution && unrecorded w id run.execution
    | _ => false

/-- A replay escapes the count: it starts without the claim or over the budget,
its owner dies or its last call is lost before it is recorded, or the claim is
taken over before that. -/
def stray (id : RunId) (w : World) (event : Event) : Bool :=
  claimsOver id w event || match event with
    | .send i => invokesSubmit id w event && !mayInvoke id w i
    | .crash i => inProgress id w i
    | .storeCall i (.lost false _) => inProgress id w i && concludes w i
    | _ => false

theorem recoveryToken_of_replaying {token : Token} {work : Work}
    (h : replaying token work = true) : recoveryToken work = some token := by
  unfold replaying at h
  split at h <;> simp_all [recoveryToken]

/-- How the replay of a task ends. -/
def Finishes (task : Task) (db : Database) : Event → Prop
  | .crash _ => True
  | .storeCall _ reply =>
    (∃ input token answer, task.work = .recovery input (.completing token) ∧
      reply.deliver (completeRecoveryResult task token db) = .ok answer) ∨
    (∃ input token, task.work = .recovery input (.deferring token)) ∨
    ∃ input token error, task.work = .recovery input (.failing token error)
  | _ => False

theorem taskAfter_replaying {w : World} {task : Task} {event : Event} {token : Token}
    (supplied : Supplied task.work) (h : replaying token task.work = true) :
    replaying token (w.taskAfter task event) = true ∨ Finishes task w.db event := by
  obtain ⟨store, runId, retries, work⟩ := task
  rcases work with ⟨_, _, _, phase⟩ | ⟨input, phase⟩
  · cases h
  cases event with
  | storeCall i reply =>
    cases phase with
    | claiming => cases h
    | submitting held submit => exact .inl h
    | completing held =>
      simp only [World.taskAfter, Task.afterCall]
      split
      · next answer answered => exact .inr (.inl ⟨input, held, answer, rfl, answered⟩)
      · left
        cases input with
        | none => exact absurd supplied id
        | some input => exact h
    | deferring held => exact .inr (.inr (.inl ⟨input, held, rfl⟩))
    | failing held error => exact .inr (.inr (.inr ⟨input, held, error, rfl⟩))
    | finished => cases h
  | send i =>
    left
    rcases send_cases w ⟨store, runId, retries, .recovery input phase⟩ i with
      same | ⟨attempt, sending, moved⟩
    · exact same ▸ h
    · rw [moved]
      have held := recoveryToken_of_replaying h
      cases phase <;> cases sending
      cases held
      simp [Work.withSubmit, replaying]
  | receive i answer =>
    left
    rcases receive_cases w ⟨store, runId, retries, .recovery input phase⟩ i answer with
      same | ⟨attempt, request, result, status, waiting, outcome, moved⟩
    · exact same ▸ h
    · rw [moved]
      have held := recoveryToken_of_replaying h
      cases phase <;> cases waiting
      cases held
      cases input with
      | none => exact absurd supplied id
      | some input =>
        cases result with
        | again next =>
          obtain ⟨m, rfl⟩ : ∃ m, next = m + 1 := ⟨attempt, (submitExecutionRun_again outcome).2⟩
          simp [Work.afterSubmit, replaying]
        | returned => simp [Work.afterSubmit, replaying]
        | threw error => cases error <;> simp [Work.afterSubmit, replaying]
  | crash i => exact .inr trivial
  | _ => exact .inl h

theorem unpublished_of_uncertain {db : Database} (reachable : coordination.Reachable db)
    {id : RunId} {run : Run} (row : db.runs.row id = some run)
    (uncertain : run.execution.status = .uncertain) : run.publication.status = .pending := by
  obtain ⟨-, -, -, -, published, skipped⟩ := view_consistent reachable row
  simp only [LifecycleView.view, uncertain] at published skipped
  cases status : run.publication.status <;> simp_all

theorem concludeExecutionFailed_execution (previous : ExecutionStatus) (code : Option String)
    (tx : Tx) :
    (SubmissionTransitionStore.concludeExecutionFailed previous code tx).run.execution =
      tx.run.execution := by
  simp only [SubmissionTransitionStore.concludeExecutionFailed, abandonInFlightPublication]
  split <;> simp only [appendAbandonEvent, appendEventWithNotice, queueRunNotice] <;> split <;> rfl

/-- The store call of the task that owns the claim of a run is made on its row. -/
theorem owner_row {w : World} (h : Fenced w) {i : Nat} {task : Task} {token : Token}
    (found : w.tasks[i]? = some task) (owns : recoveryToken task.work = some token)
    {id : RunId} {run : Run} (row : w.db.runs.row id = some run)
    (held : run.execution.claimToken = some token) {action : RunAction}
    (acts : task.action = some action) {reply : Reply} (commits : reply.commits = true) :
    (w.dbAfter (.storeCall i reply)).runs.row id =
      some (action.result task.store id (begin w.db run)).run := by
  obtain ⟨same, connector⟩ := h.owner i task token id run found owns row held
  have visible : find w.db task.store id = some run := by
    simp [find, row, connector]
  have applied : w.dbAfter (.storeCall i reply) = apply task.store id action w.db := by
    simp only [World.dbAfter, World.calls, found, commits, if_true, acts, Option.map_some]
    rw [same]
    exact onRun_execute _ _ _ _
  rw [applied, apply, visible]
  simp [commit]

/-- The last call of a replay in progress is committed, unless the replay goes
astray. -/
theorem commits_of_concludes {id : RunId} {w : World} {i : Nat} {reply : Reply}
    (counts : stray id w (.storeCall i reply) = false) (busy : inProgress id w i = true)
    (last : concludes w i = true) : reply.commits = true := by
  cases reply with
  | answered => rfl
  | lost committed error =>
    cases committed with
    | true => rfl
    | false => simp [stray, busy, last] at counts

/-- A replay in progress under the current claim is counted when it ends. -/
theorem finish_counted {w : World} (h : Fenced w) {i : Nat} {task : Task} {event : Event}
    (found : w.tasks[i]? = some task) (here : eventTask event = some i) {run next : Run}
    (row : w.db.runs.row task.runId = some run) (uncertain : run.execution.status = .uncertain)
    {token : Token} (held : run.execution.claimToken = some token)
    (replays : replaying token task.work = true) (finishes : Finishes task w.db event)
    (counts : stray task.runId w event = false)
    (row' : (w.dbAfter event).runs.row task.runId = some next)
    (uncertain' : next.execution.status = .uncertain) :
    run.execution.attemptCount + 1 ≤ next.execution.attemptCount := by
  have owns := recoveryToken_of_replaying replays
  have busy : inProgress task.runId w i = true := by
    simp [inProgress, found, row, uncertain, held, replays]
  have waiting := unpublished_of_uncertain h.reachable row uncertain
  cases event with
  | crash j =>
    obtain rfl : j = i := Option.some.inj here
    simp [stray, busy] at counts
  | storeCall j reply =>
    obtain rfl : j = i := Option.some.inj here
    rcases finishes with ⟨input, own, answer, completing, answered⟩ | ⟨input, own, deferring⟩ |
        ⟨input, own, error, failing⟩
    · cases reply with
      | lost committed error => cases answered
      | answered =>
        obtain rfl : own = token := by simpa [completing, recoveryToken] using owns
        have acts : task.action = some (.completeSubmissionRecovery own) := by
          simp [Task.action, completing]
        rw [owner_row h found owns row held acts rfl] at row'
        obtain rfl := Option.some.inj row'
        simp [RunAction.result, RunAction.perform, written, Except.map,
          SubmissionTransitionStore.completeSubmissionRecovery,
          SubmissionTransitionStore.holdsRecovery, begin, uncertain, held, waiting,
          appendEvent, updateExecution] at uncertain'
    · obtain rfl : own = token := by simpa [deferring, recoveryToken] using owns
      have commits := commits_of_concludes counts busy (by simp [concludes, found, deferring])
      have acts : task.action = some (.recordUnknownRecoveryOutcome own) := by
        simp [Task.action, deferring]
      rw [owner_row h found owns row held acts commits] at row'
      obtain rfl := Option.some.inj row'
      simp [RunAction.result, RunAction.perform, written, Except.map,
        ExecutionStore.recordUnknownRecoveryOutcome, SubmissionTransitionStore.holdsRecovery,
        begin, uncertain, held, updateExecution]
    · obtain rfl : own = token := by simpa [failing, recoveryToken] using owns
      have commits := commits_of_concludes counts busy (by simp [concludes, found, failing])
      have acts : task.action = some (.failSubmissionRecovery own error) := by
        simp [Task.action, failing]
      rw [owner_row h found owns row held acts commits] at row'
      obtain rfl := Option.some.inj row'
      simp [RunAction.result, RunAction.perform, written, Except.map,
        SubmissionTransitionStore.failSubmissionRecovery,
        SubmissionTransitionStore.holdsRecovery, begin, uncertain, held,
        concludeExecutionFailed_execution] at uncertain'
  | _ => exact absurd finishes id

/-- The number of replays the row and the tasks account for. -/
def accounted (w : World) (id : RunId) (e : Execution) : Nat :=
  e.attemptCount + if unrecorded w id e then 1 else 0

theorem unrecorded_iff {w : World} {id : RunId} {e : Execution} :
    unrecorded w id e = true ↔ ∃ (i : Nat) (task : Task) (token : Token),
      w.tasks[i]? = some task ∧ task.runId = id ∧ e.claimToken = some token ∧
        replaying token task.work = true := by
  simp only [unrecorded, List.any_eq_true, Bool.and_eq_true, decide_eq_true_eq,
    Option.any_eq_true]
  constructor
  · rintro ⟨task, known, mine, token, held, replays⟩
    obtain ⟨i, found⟩ := List.mem_iff_getElem?.mp known
    exact ⟨i, task, token, found, mine, held, replays⟩
  · rintro ⟨i, task, token, found, mine, held, replays⟩
    exact ⟨task, List.mem_of_getElem? found, mine, token, held, replays⟩

theorem accounted_of_unrecorded {w : World} {id : RunId} {e : Execution}
    (h : unrecorded w id e = true) : accounted w id e = e.attemptCount + 1 := by
  simp [accounted, h]

theorem accounted_of_recorded {w : World} {id : RunId} {e : Execution}
    (h : unrecorded w id e = false) : accounted w id e = e.attemptCount := by
  simp [accounted, h]

theorem attemptCount_le_accounted (w : World) (id : RunId) (e : Execution) :
    e.attemptCount ≤ accounted w id e := Nat.le_add_right _ _

/-- No event forgets a replay under a claim that stays. -/
theorem accounted_step {w : World} (h : Fenced w) {event : Event} {id : RunId}
    (counts : stray id w event = false) {run next : Run}
    (row : w.db.runs.row id = some run) (uncertain : run.execution.status = .uncertain)
    (row' : (w.dbAfter event).runs.row id = some next)
    (uncertain' : next.execution.status = .uncertain)
    (token : next.execution.claimToken = run.execution.claimToken)
    (grows : run.execution.attemptCount ≤ next.execution.attemptCount) :
    accounted w id run.execution ≤ accounted (w.step event) id next.execution := by
  cases busy : unrecorded w id run.execution with
  | false =>
    rw [accounted_of_recorded busy]
    exact grows.trans (attemptCount_le_accounted _ _ _)
  | true =>
    rw [accounted_of_unrecorded busy]
    obtain ⟨i, task, held, found, rfl, claimed, replays⟩ := unrecorded_iff.mp busy
    have found' := tasksAfter_get w event found
    -- a task other than the event's own stays as it is
    by_cases here : eventTask event = some i
    · rw [if_pos here] at found'
      rcases taskAfter_replaying (h.supplied i task found) replays with still | finishes
      · have busy' : unrecorded (w.step event) task.runId next.execution = true :=
          unrecorded_iff.mpr ⟨i, _, held, found', rfl, token.trans claimed, still⟩
        rw [accounted_of_unrecorded busy']
        exact Nat.succ_le_succ grows
      · have counted := finish_counted h found here row uncertain claimed replays finishes counts
          row' uncertain'
        exact counted.trans (attemptCount_le_accounted _ _ _)
    · rw [if_neg here] at found'
      have busy' : unrecorded (w.step event) task.runId next.execution = true :=
        unrecorded_iff.mpr ⟨i, task, held, found', rfl, token.trans claimed, replays⟩
      rw [accounted_of_unrecorded busy']
      exact Nat.succ_le_succ grows

/-- The replays since the last resume, as far as the row tells. -/
structure Counted (id : RunId) (w : World) (replays : Nat) : Prop where
  bounded : replays ≤ maxSubmissionRecoveryAttempts
  absent : w.db.runs.row id = none → replays = 0
  pending : ∀ run, w.db.runs.row id = some run → run.execution.status = .pending → replays = 0
  uncertain : ∀ run, w.db.runs.row id = some run → run.execution.status = .uncertain →
    replays ≤ accounted w id run.execution

theorem counted_zero (id : RunId) (w : World) : Counted id w 0 :=
  ⟨Nat.zero_le _, fun _ => rfl, fun _ _ _ => rfl, fun _ _ _ => Nat.zero_le _⟩

/-- An event that invokes no `submit` keeps the count, or resets it. -/
theorem counted_step_idle {id : RunId} {w : World} (h : Fenced w) {replays : Nat}
    (counted : Counted id w replays) {event : Event} (counts : stray id w event = false) :
    Counted id (w.step event) (if resumed id w.db (w.dbAfter event) then 0 else replays) := by
  split
  · exact counted_zero id _
  next unresumed =>
  have recounted : ∀ next, (w.dbAfter event).runs.row id = some next →
      next.execution.status = .uncertain →
        replays ≤ accounted (w.step event) id next.execution := by
    intro next row' uncertain'
    rcases dbAfter_row row' with ⟨-, pending, -⟩ | ⟨-, row⟩ | ⟨call, run, made, row, -, effect⟩
    · rw [pending] at uncertain'
      cases uncertain'
    · exact (counted.uncertain next row uncertain').trans
        (accounted_step h counts row uncertain' row' uncertain' rfl le_rfl)
    · have undisturbed : run.execution.status ≠ .disconnected := by
        intro parked
        simp [resumed, executionStatus, row, row', parked, uncertain'] at unresumed
      rcases effect.uncertain uncertain' undisturbed with pending | ⟨uncertain, grows, token⟩
      · rw [counted.pending run row pending]
        exact Nat.zero_le _
      · have known := counted.uncertain run row uncertain
        rcases token with token | ⟨claims, free⟩
        · exact known.trans (accounted_step h counts row uncertain row' uncertain' token grows)
        · have recorded : unrecorded w id run.execution = false := by
            have unclaimed : claimsOver id w event = false := by
              simp only [stray, Bool.or_eq_false_iff] at counts
              exact counts.1
            simpa [claimsOver, made, claims, row, free] using unclaimed
          rw [accounted_of_recorded recorded] at known
          exact known.trans (grows.trans (attemptCount_le_accounted _ _ _))
  refine ⟨counted.bounded, ?_, ?_, recounted⟩
  · intro absent
    cases row : w.db.runs.row id with
    | none => exact counted.absent row
    | some run =>
      obtain ⟨next, row'⟩ := dbAfter_present event row
      exact absurd (absent.symm.trans row') nofun
  · intro next row' pending
    rcases dbAfter_row row' with ⟨absent, -, -⟩ | ⟨-, row⟩ | ⟨call, run, -, row, -, effect⟩
    · exact counted.absent absent
    · exact counted.pending next row pending
    · exact counted.pending run row (effect.pending pending)

theorem invokesSubmit_send {id : RunId} {w : World} {i : Nat}
    (h : invokesSubmit id w (.send i) = true) :
    ∃ task input token, w.tasks[i]? = some task ∧ task.runId = id ∧
      task.work = .recovery input (.submitting token (.sending 0)) := by
  simp only [invokesSubmit] at h
  split at h
  · cases h
  · next task found =>
    obtain ⟨mine, sends⟩ := Bool.and_eq_true_iff.mp h
    split at sends
    · next input token work =>
      exact ⟨task, input, token, found, of_decide_eq_true mine, work⟩
    · cases sends

/-- The invocation that the owner of the claim makes is accounted for. -/
theorem counted_step_invoking {id : RunId} {w : World} (h : Fenced w) {replays : Nat}
    (counted : Counted id w replays) {i : Nat} (invokes : invokesSubmit id w (.send i) = true)
    (counts : stray id w (.send i) = false) :
    Counted id (w.step (.send i)) (replays + 1) := by
  have may : mayInvoke id w i = true := by
    simp only [stray, invokes, Bool.or_eq_false_iff] at counts
    simpa using counts.2
  obtain ⟨task, input, token, found, rfl, work⟩ := invokesSubmit_send invokes
  have owns : recoveryToken task.work = some token := by rw [work]; rfl
  simp only [mayInvoke, found, Option.any_eq_true, Bool.and_eq_true, decide_eq_true_eq] at may
  obtain ⟨run, row, ⟨⟨uncertain, -⟩, mine⟩, budget⟩ := may
  have held : run.execution.claimToken = some token := mine.symm.trans owns
  -- the claim has one owner, and that one has not invoked `submit` yet
  have recorded : unrecorded w task.runId run.execution = false := by
    by_contra busy
    obtain ⟨j, other, held', found', -, claimed, replays'⟩ :=
      unrecorded_iff.mp (eq_true_of_ne_false busy)
    obtain rfl : held' = token := Option.some.inj (claimed.symm.trans held)
    obtain rfl := h.distinct i j task other held' found found' owns
      (recoveryToken_of_replaying replays')
    obtain rfl := Option.some.inj (found.symm.trans found')
    rw [work] at replays'
    cases replays'
  have known := counted.uncertain run row uncertain
  rw [accounted_of_recorded recorded] at known
  have sent : (w.tasksAfter (.send i))[i]? = some { task with
      work := .recovery input (.submitting token (.waiting 0 w.requests.length)) } := by
    rw [tasksAfter_get w (.send i) found]
    simp [eventTask, World.taskAfter, work, Work.submit, Work.withSubmit]
  have same : (w.step (.send i)).db = w.db := rfl
  refine ⟨?_, ?_, ?_, ?_⟩
  · exact Nat.succ_le_of_lt (known.trans_lt budget)
  · intro absent
    rw [same, row] at absent
    cases absent
  · intro next row' pending
    rw [same, row] at row'
    obtain rfl := Option.some.inj row'
    rw [uncertain] at pending
    cases pending
  · intro next row' _
    rw [same, row] at row'
    obtain rfl := Option.some.inj row'
    have busy : unrecorded (w.step (.send i)) task.runId run.execution = true :=
      unrecorded_iff.mpr ⟨i, _, token, sent, rfl, held, by simp [replaying]⟩
    rw [accounted_of_unrecorded busy]
    exact Nat.succ_le_succ known

theorem resumed_refl (id : RunId) (db : Database) : resumed id db db = false := by
  cases status : executionStatus id db with
  | none => simp [resumed, status]
  | some s => cases s <;> simp [resumed, status]

theorem counted_step {id : RunId} {w : World} (h : Fenced w) {replays : Nat}
    (counted : Counted id w replays) {event : Event} (counts : stray id w event = false) :
    Counted id (w.step event) (recount id w (w.step event) event replays) := by
  cases invokes : invokesSubmit id w event with
  | false =>
    simp only [recount, invokes]
    exact counted_step_idle h counted counts
  | true =>
    cases event with
    | send i =>
      have same : resumed id w.db (w.step (.send i)).db = false := resumed_refl id w.db
      simp only [recount, invokes, same]
      exact counted_step_invoking h counted invokes counts
    | _ => cases invokes

/-- The event of a pass lets a replay escape the count. -/
def escapes (id : RunId) (pw : PassWorld) : PassEvent → Bool
  | .saga event => stray id pw.world event
  | _ => false

/-- What a recovery pass does to the saga itself. -/
theorem pass_world (pw : PassWorld) {event : PassEvent} (own : ∀ inner, event ≠ .saga inner) :
    ∃ mid, (mid = pw.world ∨ ∃ pass, mid = pw.world.step (.operation (disconnectCall pass))) ∧
      ((pw.step event).world = mid ∨ ∃ store runId retries input,
        (pw.step event).world =
          mid.step (.recoverReviewRunSubmission store runId retries input)) := by
  cases event with
  | saga inner => exact absurd rfl (own inner)
  | recoverSubmission store runId retries input => exact ⟨pw.world, .inl rfl, .inl rfl⟩
  | readAttemptCount i =>
    refine ⟨pw.world, .inl rfl, ?_⟩
    simp only [PassWorld.step, PassWorld.readAttemptCount]
    split
    · split
      · split
        · exact .inr ⟨_, _, _, _, rfl⟩
        · exact .inl rfl
      · exact .inl rfl
    · exact .inl rfl
  | disconnectExhausted i reply =>
    simp only [PassWorld.step, PassWorld.disconnectExhausted]
    split
    · next pass _ =>
      split
      · cases reply.commits with
        | true =>
          refine ⟨_, .inr ⟨pass, rfl⟩, ?_⟩
          split
          · exact .inr ⟨_, _, _, _, rfl⟩
          · exact .inl rfl
          · exact .inl rfl
        | false =>
          refine ⟨pw.world, .inl rfl, ?_⟩
          split
          · exact .inr ⟨_, _, _, _, rfl⟩
          · exact .inl rfl
          · exact .inl rfl
      · exact ⟨pw.world, .inl rfl, .inl rfl⟩
    · exact ⟨pw.world, .inl rfl, .inl rfl⟩
  | abort i =>
    refine ⟨pw.world, .inl rfl, ?_⟩
    simp only [PassWorld.step, PassWorld.abort]
    split <;> exact .inl rfl

theorem stray_disconnect (id : RunId) (w : World) (pass : Pass) :
    stray id w (.operation (disconnectCall pass)) = false := by
  have other : actionOn (disconnectCall pass) w.db id ≠ some .claimSubmissionRecovery := by
    intro claims
    by_cases visible : (find w.db pass.store id).isSome = true
    · by_cases mine : id = pass.runId <;> simp_all [actionOn, disconnectCall, actsOn]
    · simp_all [actionOn, disconnectCall]
  simp [stray, claimsOver, World.calls]

/-- Recovery starts without touching the database. -/
theorem counted_recover {id : RunId} {w : World} (h : Fenced w) {replays : Nat}
    (counted : Counted id w replays) (store : Store) (runId : RunId) (retries : Nat)
    (input : Option JsonValues.Json) :
    Counted id (w.step (.recoverReviewRunSubmission store runId retries input)) replays := by
  have quiet : stray id w (.recoverReviewRunSubmission store runId retries input) = false := rfl
  have kept := counted_step_idle h counted quiet
  have same : resumed id w.db (w.dbAfter
      (.recoverReviewRunSubmission store runId retries input)) = false := resumed_refl id w.db
  rwa [same] at kept

theorem counted_pass {id : RunId} {pw : PassWorld} (h : Fenced pw.world) {replays : Nat}
    (counted : Counted id pw.world replays) {event : PassEvent}
    (own : ∀ inner, event ≠ .saga inner) :
    Fenced (pw.step event).world ∧ Counted id (pw.step event).world
      (if resumed id pw.world.db (pw.step event).world.db then 0 else replays) := by
  obtain ⟨mid, begins, ends⟩ := pass_world pw own
  have first : Fenced mid ∧
      Counted id mid (if resumed id pw.world.db mid.db then 0 else replays) := by
    rcases begins with rfl | ⟨pass, rfl⟩
    · rw [resumed_refl]
      exact ⟨h, counted⟩
    · exact ⟨fenced_step h _, counted_step_idle h counted (stray_disconnect id pw.world pass)⟩
  rcases ends with same | ⟨store, runId, retries, input, next⟩
  · rw [same]
    exact first
  · rw [next]
    exact ⟨fenced_step first.1 _, counted_recover first.1 first.2 store runId retries input⟩

theorem countedPasses_step {id : RunId} {s : PassWorld × Nat} {event : PassEvent}
    (counts : escapes id s.1 event = false) (h : Fenced s.1.world ∧ Counted id s.1.world s.2) :
    Fenced ((countedPasses id).step s event).1.world ∧
      Counted id ((countedPasses id).step s event).1.world
        ((countedPasses id).step s event).2 := by
  cases event with
  | saga inner =>
    cases inner with
    | recoverReviewRunSubmission store runId retries input =>
      have same : recount id s.1.world s.1.world
          (.recoverReviewRunSubmission store runId retries input) s.2 = s.2 := by
        simp [recount, resumed_refl, invokesSubmit]
      simp only [countedPasses, PassWorld.step, same]
      exact h
    | _ => exact ⟨fenced_step h.1 _, counted_step h.1 h.2 counts⟩
  | _ =>
    refine counted_pass h.1 h.2 ?_
    intro inner same
    cases same

/-- As long as every replay is started under the current claim with budget left
and is recorded before its owner is lost or replaced, recovery replays a
submission at most as often as the budget says between two resumes. -/
theorem replays_within_budget (id : RunId) (events : List PassEvent)
    (counts : ∀ step ∈ (countedPasses id).steps events, escapes id step.1.1 step.2 = false)
    {s : PassWorld × Nat} (visited : s ∈ (countedPasses id).visited events) :
    s.2 ≤ maxSubmissionRecoveryAttempts := by
  have preserved : ∀ s event, escapes id s.1 event = false →
      (Fenced s.1.world ∧ Counted id s.1.world s.2) →
        Fenced ((countedPasses id).step s event).1.world ∧
          Counted id ((countedPasses id).step s event).1.world
            ((countedPasses id).step s event).2 :=
    fun _ _ => countedPasses_step
  have initially : Fenced World.empty ∧ Counted id World.empty 0 :=
    ⟨fenced_empty, counted_zero id _⟩
  exact ((countedPasses id).visitedFrom_invariant preserved initially counts visited).2.bounded

/-- A run whose submission became uncertain. -/
def doubtfulRun : List PassEvent :=
  [.saga (.operation (defaultStore, .create { issueRun with executionInput := some (.obj []) })),
    .saga (.operation (defaultStore, .onRun "run-1" (.failPreparation 0
      { code := some PreparationStore.submissionStateUncertain, message := "response lost" }
      { retry := false, retryAfterMs := none })))]

/-- A pass that gets as far as its first request. -/
def beginReplay (i : Nat) : List PassEvent :=
  [.recoverSubmission defaultStore "run-1" 2 (some (.obj [])), .readAttemptCount i,
    .saga (.storeCall i .answered), .saga (.send i)]

/-- The owner goes on, or is lost, and its lease runs out. -/
def recordReplay (i : Nat) : List PassEvent :=
  [.saga (.receive i (.transportError false)), .saga (.storeCall i .answered),
    .saga (.operation (defaultStore, .advance 600000))]

def loseReplay (i : Nat) : List PassEvent :=
  [.saga (.crash i), .saga (.operation (defaultStore, .advance 600000))]

def recordedReplays (n : Nat) : List PassEvent :=
  doubtfulRun ++ (List.range n).flatMap fun i => beginReplay i ++ recordReplay i

def lostReplays (n : Nat) : List PassEvent :=
  doubtfulRun ++ (List.range n).flatMap fun i => beginReplay i ++ loseReplay i

theorem recorded_replays_within_budget :
    ((countedPasses "run-1").run (recordedReplays 8)).2 = 8 ∧
      ((countedPasses "run-1").run (recordedReplays 8)).2 ≤ maxSubmissionRecoveryAttempts :=
  ⟨by decide, replays_within_budget "run-1" (recordedReplays 8)
    (by decide) ((countedPasses "run-1").run_visited _)⟩

/-- Every owner crashes after its request: the count stays at zero. -/
theorem lost_replays_exceed_budget :
    ¬ ∀ (id : RunId) (events : List PassEvent), ∀ s ∈ (countedPasses id).visited events,
      s.2 ≤ maxSubmissionRecoveryAttempts := by
  intro bounded
  have nine : ((countedPasses "run-1").run (lostReplays 9)).2 = 9 := by decide
  have within := bounded "run-1" (lostReplays 9) _ ((countedPasses "run-1").run_visited _)
  rw [nine] at within
  exact absurd within (by decide)

end ReplayBudget
