import SecReviewBot.ReviewRuns.PublicationAxis

/-!
# The budget of a publication step

A side effect on the remote system happens under a granted step only, and a
step counts its grants in `attempt_count`, whether or not their owners ever
report. Only an operator's resume takes the count back, so between two of them
the number of grants is the difference of two counts, and the count is bounded.
-/

namespace StepBudget

open KeyedTables ReviewRunsSchema ReviewRunsTransactions Coordination TransitionSystems
open TransactionWrites RowEffects Lifecycles LifecycleView ActionMoves PublicationAxis

/-- Everything that can happen to the step `key` in one move. -/
inductive StepChange (move : Move) (key : StepKey) (L next : Lifecycle) : Prop where
  | kept (quiet : move ≠ .grantStep key) (row : next.steps.row key = L.steps.row key)
  | created (quiet : move ≠ .grantStep key) (absent : L.steps.row key = none)
      (row : next.steps.row key = some .fresh)
  | granted (made : move = .grantStep key) {s : StepState} (before : L.steps.row key = some s)
      (grantable : s.Grantable) (row : next.steps.row key = some s.grant)
  | completed (quiet : move ≠ .grantStep key) {s : StepState}
      (before : L.steps.row key = some s) (running : s.status = .running)
      (row : next.steps.row key = some s.complete)
  | revised (quiet : move ≠ .grantStep key) {s : StepState} (revision : Revision)
      (before : L.steps.row key = some s) (applies : revision.Applies s)
      (row : next.steps.row key = some (revision.revise s))
  | resumed (made : move = .resumePublication) {s : StepState}
      (before : L.steps.row key = some s) (parked : s.status = .disconnected)
      (row : next.steps.row key = some .fresh)

theorem initialize_row (keys : List StepKey) (steps : Table StepKey StepState) (key : StepKey) :
    (keys.foldl (fun t k => t.put k StepState.fresh) steps).row key =
      if key ∈ keys then some .fresh else steps.row key :=
  Table.foldl_put_row keys StepState.fresh steps key

theorem reviseStep_other (L : Lifecycle) {key other : StepKey} (h : other ≠ key)
    (f : StepState → StepState) :
    (L.reviseStep key f).steps.row other = L.steps.row other := by
  cases row : L.steps.row key with
  | none => simp [Lifecycle.reviseStep, row]
  | some s => simp [L.reviseStep_steps row, h]

theorem apply_stepChange (move : Move) (L : Lifecycle) (enabled : move.Enabled L)
    (key : StepKey) : StepChange move key L (move.apply L) := by
  cases move with
  | initializeSteps keys =>
    have absent := Table.row_of_no_keys enabled.2 key
    have row := initialize_row keys L.steps key
    by_cases mem : key ∈ keys
    · rw [if_pos mem] at row
      exact .created (by simp) absent row
    · rw [if_neg mem] at row
      exact .kept (by simp) row
  | grantStep granted =>
    obtain ⟨-, s, before, grantable⟩ := enabled
    by_cases same : key = granted
    · subst same
      exact .granted rfl before grantable (by simp [Move.apply, L.reviseStep_steps before])
    · refine .kept (by simpa using Ne.symm same) ?_
      exact reviseStep_other L same _
  | completeStep done =>
    obtain ⟨-, s, before, running⟩ := enabled
    by_cases same : key = done
    · subst same
      exact .completed (by simp) before running (by simp [Move.apply, L.reviseStep_steps before])
    · exact .kept (by simp) (reviseStep_other L same _)
  | reviseStep revised revision =>
    obtain ⟨-, s, before, applies⟩ := enabled
    by_cases same : key = revised
    · subst same
      exact .revised (by simp) revision before applies
        (by simp [Move.apply, L.reviseStep_steps before])
    · refine .kept (by simp) ?_
      simp only [Move.apply, Lifecycle.derive_steps]
      exact reviseStep_other L same _
  | endAtStep ended code =>
    obtain ⟨-, s, before, applies⟩ := enabled
    by_cases same : key = ended
    · subst same
      exact .revised (by simp) (.fail (some false)) before applies
        (by simp [Move.apply, L.reviseStep_steps before])
    · refine .kept (by simp) ?_
      simp only [Move.apply, Lifecycle.announceFailure_steps, Lifecycle.record_steps,
        Lifecycle.derive_steps]
      exact reviseStep_other L same _
  | resumePublication =>
    cases row : L.steps.row key with
    | none => exact .kept (by simp) (by simp [Move.apply, row])
    | some s =>
      by_cases parked : s.status = .disconnected
      · exact .resumed rfl row parked (by simp [Move.apply, row, StepState.resume, parked])
      · exact .kept (by simp) (by simp [Move.apply, row, StepState.resume, parked])
  | endParkedPreparation code stop =>
    refine .kept (by simp) ?_
    cases stop with
    | false => simp [Move.apply]
    | true =>
      simp only [Move.apply, if_true, Lifecycle.abandon_steps, Move.stopExecution]
      split <;> rfl
  | failPublication retry code => cases retry <;> exact .kept (by simp) rfl
  | endUnsubmitted code => exact .kept (by simp) (by simp [Move.apply])
  | failExecution code => exact .kept (by simp) (by simp [Move.apply])
  | giveUpExecution => exact .kept (by simp) (by simp [Move.apply])
  | rederive => exact .kept (by simp) (by simp [Move.apply])
  | _ => exact .kept (by simp) rfl

/-- The counts stay within the two budgets; a step that spent the second one is
parked. -/
structure Budgeted (s : StepState) : Prop where
  attempts : s.attempts ≤ 3
  recoveries : s.recoveries ≤ 3
  unparked : s.status ≠ .disconnected → s.recoveries ≤ 2

theorem fresh_budgeted : Budgeted .fresh := by
  constructor <;> simp [StepState.fresh]

theorem revise_budgeted {revision : Revision} {s : StepState} (applies : revision.Applies s)
    (h : Budgeted s) : Budgeted (revision.revise s) := by
  have recoveries := h.unparked (applies_not_disconnected applies)
  cases revision with
  | doubt => exact ⟨h.attempts, h.recoveries, fun _ => recoveries⟩
  | settle found => exact ⟨h.attempts, h.recoveries, fun _ => recoveries⟩
  | fail retry =>
    by_cases doubted : s.status = .uncertain ∧ retry = some true
    · simp only [Revision.revise, if_pos doubted]
      refine ⟨h.attempts, by dsimp only; omega, ?_⟩
      intro unparked
      dsimp only at unparked ⊢
      by_contra spent
      exact unparked (if_pos (by omega))
    · simp only [Revision.revise, if_neg doubted]
      exact ⟨h.attempts, h.recoveries, fun _ => recoveries⟩

def AllBudgeted (L : Lifecycle) : Prop := ∀ key s, L.steps.row key = some s → Budgeted s

theorem apply_budgeted (move : Move) (L : Lifecycle) (enabled : move.Enabled L)
    (h : AllBudgeted L) : AllBudgeted (move.apply L) := by
  intro key t found
  cases apply_stepChange move L enabled key with
  | kept quiet row => exact h key t (row ▸ found)
  | created quiet absent row =>
    obtain rfl := Option.some.inj (row.symm.trans found)
    exact fresh_budgeted
  | granted made before grantable row =>
    obtain rfl := Option.some.inj (row.symm.trans found)
    have budgeted := h key _ before
    have unparked := budgeted.unparked (by rcases grantable.2 with hs | hs | hs <;> simp [hs])
    exact ⟨grantable.1, budgeted.recoveries, fun _ => unparked⟩
  | completed quiet before running row =>
    obtain rfl := Option.some.inj (row.symm.trans found)
    have budgeted := h key _ before
    exact ⟨budgeted.attempts, budgeted.recoveries,
      fun _ => budgeted.unparked (by simp [running])⟩
  | revised quiet revision before applies row =>
    obtain rfl := Option.some.inj (row.symm.trans found)
    exact revise_budgeted applies (h key _ before)
  | resumed made before parked row =>
    obtain rfl := Option.some.inj (row.symm.trans found)
    exact fresh_budgeted

theorem admitted_budgeted : AllBudgeted admitted := by
  intro key s row
  cases row

def attemptsAt (L : Lifecycle) (key : StepKey) : Nat := (L.steps.row key).elim 0 (·.attempts)

/-- Outside an operator's resume every grant is counted and nothing else is. -/
theorem attempts_apply {move : Move} {L : Lifecycle} (enabled : move.Enabled L) {key : StepKey}
    (noReset : ¬ (move = .resumePublication ∧
      ∃ s, L.steps.row key = some s ∧ s.status = .disconnected)) :
    (move = .grantStep key ∧ attemptsAt (move.apply L) key = attemptsAt L key + 1) ∨
      (move ≠ .grantStep key ∧ attemptsAt (move.apply L) key = attemptsAt L key) := by
  cases apply_stepChange move L enabled key with
  | kept quiet row => exact .inr ⟨quiet, by simp [attemptsAt, row]⟩
  | created quiet absent row =>
    exact .inr ⟨quiet, by simp [attemptsAt, row, absent, StepState.fresh]⟩
  | granted made before grantable row =>
    exact .inl ⟨made, by simp [attemptsAt, row, before, StepState.grant]⟩
  | completed quiet before running row =>
    exact .inr ⟨quiet, by simp [attemptsAt, row, before, StepState.complete]⟩
  | revised quiet revision before applies row =>
    refine .inr ⟨quiet, ?_⟩
    have same : ∀ s, (revision.revise s).attempts = s.attempts := by
      intro s
      cases revision with
      | doubt => rfl
      | settle found => rfl
      | fail retry =>
        simp only [Revision.revise]
        split <;> rfl
    simp [attemptsAt, row, before, same]
  | resumed made before parked row => exact absurd ⟨made, _, before, parked⟩ noReset

def Finished (status : StepStatus) : Prop := status = .succeeded ∨ status = .terminalFailed

/-- A finished step is left alone by every move. -/
theorem finished_kept {move : Move} {L : Lifecycle} (enabled : move.Enabled L) {key : StepKey}
    {s : StepState} (before : L.steps.row key = some s) (finished : Finished s.status) :
    move ≠ .grantStep key ∧ (move.apply L).steps.row key = some s := by
  have same : ∀ {t}, L.steps.row key = some t → Finished t.status := by
    intro t ht
    obtain rfl := Option.some.inj (before.symm.trans ht)
    exact finished
  cases apply_stepChange move L enabled key with
  | kept quiet row => exact ⟨quiet, row.trans before⟩
  | created quiet absent row => simp [absent] at before
  | granted made found grantable row =>
    have ended := same found
    rcases grantable.2 with hs | hs | hs <;> simp [Finished, hs] at ended
  | completed quiet found running row =>
    have ended := same found
    simp [Finished, running] at ended
  | revised quiet revision found applies row =>
    have ended := same found
    cases revision with
    | doubt => rcases applies.2 with hs | hs | hs <;> simp [Finished, hs] at ended
    | settle found => simp [Finished, applies.2] at ended
    | fail retry => rcases applies with hs | hs <;> simp [Finished, hs] at ended
  | resumed made found parked row =>
    have ended := same found
    simp [Finished, parked] at ended

def isGranted : Outcome PublicationStore.StepClaim → Bool
  | .ok (.granted, _) => true
  | _ => false

/-- The operation grants the step to its caller. -/
def grants (id : RunId) (key : StepKey) (step : Database × Call) : Bool :=
  match step.1.runs.row id, actionOn step.2 step.1 id with
  | some run, some (.requirePublicationStepClaim token stepKey) =>
    stepKey = key &&
      isGranted (PublicationStore.requirePublicationStepClaim token stepKey (begin step.1 run))
  | _, _ => false

def isOperatorResume : RunAction → Bool
  | .resumeDisconnectedPublication | .resumeDisconnectedRun => true
  | _ => false

/-- The operation is an operator's resume that turns the parked step into
pending work. -/
def resets (id : RunId) (key : StepKey) (step : Database × Call) : Bool :=
  (actionOn step.2 step.1 id).any isOperatorResume
    && ((step.1.runs.row id).bind (·.steps.row key)).any (·.status = .disconnected)
    && (((coordination.step step.1 step.2).runs.row id).bind (·.steps.row key)).any
      (·.status = .pending)

theorem isGranted_iff (token : Token) (key : StepKey) (tx : Tx) :
    isGranted (PublicationStore.requirePublicationStepClaim token key tx) = true ↔
      stepReady token key (PublicationStore.stepClaimable token) tx = true := by
  simp only [PublicationStore.requirePublicationStepClaim, PublicationStore.claimPublicationStep]
  rcases updateOwnedStep_cases token key (PublicationStore.stepClaimable token)
    (PublicationStore.startStep token tx.now) tx with ⟨refused, none⟩ | ⟨s, ready, -, -, -, some⟩
  · simp [none, refused, isGranted]
  · simp [some, ready, isGranted]

theorem moveOf_grantStep_iff (store : Store) (tx : Tx) (action : RunAction) (key : StepKey) :
    moveOf store tx action = .grantStep key ↔
      ∃ token, action = .requirePublicationStepClaim token key ∧
        isGranted (PublicationStore.requirePublicationStepClaim token key tx) = true := by
  simp only [isGranted_iff]
  cases action
  case requirePublicationStepClaim token stepKey =>
    simp only [moveOf, refusedClaimMove]
    split_ifs with ready doubt
    · constructor
      · intro same
        cases same
        exact ⟨token, rfl, ready⟩
      · rintro ⟨token, same, -⟩
        cases same
        rfl
    all_goals
      refine iff_of_false (by simp) ?_
      rintro ⟨token, same, granted⟩
      cases same
      exact ready granted
  all_goals
    refine iff_of_false ?_ (by simp)
    simp only [moveOf, expiryMove, failPreparationMove, refusedClaimMove]
    try split_ifs
    all_goals simp

theorem moveOf_resumePublication {store : Store} {tx : Tx} {action : RunAction}
    (h : moveOf store tx action = .resumePublication) : isOperatorResume action = true := by
  cases action
  case resumeDisconnectedPublication => rfl
  case resumeDisconnectedRun => rfl
  all_goals
    simp only [moveOf, expiryMove, failPreparationMove, refusedClaimMove] at h
    try split_ifs at h
    all_goals cases h

/-- The answer depends on the rows only. -/
theorem isGranted_congr {tx other : Tx} (same : tx.run = other.run) (token : Token)
    (key : StepKey) :
    isGranted (PublicationStore.requirePublicationStepClaim token key tx) =
      isGranted (PublicationStore.requirePublicationStepClaim token key other) := by
  rw [Bool.eq_iff_iff, isGranted_iff, isGranted_iff, stepReady, stepReady, same]

theorem grants_iff {db : Database} {call : Call} {id : RunId} {run : Run} {action : RunAction}
    {tx : Tx} (row : db.runs.row id = some run) (acts : actionOn call db id = some action)
    (same : tx.run = run) (key : StepKey) :
    grants id key (db, call) = true ↔ moveOf call.1 tx action = .grantStep key := by
  have rows : tx.run = (begin db run).run := same
  rw [moveOf_grantStep_iff]
  simp only [isGranted_congr rows]
  cases action
  case requirePublicationStepClaim token stepKey =>
    simp only [grants, row, acts, Bool.and_eq_true, decide_eq_true_eq]
    constructor
    · rintro ⟨rfl, granted⟩
      exact ⟨token, rfl, granted⟩
    · rintro ⟨other, same, granted⟩
      cases same
      exact ⟨rfl, granted⟩
  all_goals simp [grants, row, acts]

theorem stepState_row {run : Run} {key : StepKey} {st : StepState}
    (h : (view run).steps.row key = some st) :
    ∃ s, run.steps.row key = some s ∧ stepState s = st := by
  simpa [view, Table.mapRows_row] using h

theorem resets_of_move {db : Database} {call : Call} {id : RunId} {run next : Run}
    {action : RunAction} {tx : Tx} {key : StepKey} {st : StepState}
    (row : db.runs.row id = some run) (acts : actionOn call db id = some action)
    (row' : (call.2.execute call.1 db).runs.row id = some next)
    (after : view next = (moveOf call.1 tx action).apply (view run))
    (made : moveOf call.1 tx action = .resumePublication)
    (step : (view run).steps.row key = some st) (parked : st.status = .disconnected) :
    resets id key (db, call) = true := by
  obtain ⟨s, before, rfl⟩ := stepState_row step
  have fresh : (view next).steps.row key = some .fresh := by
    rw [after, made]
    simp [Move.apply, step, StepState.resume, parked]
  obtain ⟨t, found, returned⟩ := stepState_row fresh
  have disconnected : s.status = .disconnected := parked
  have pending : t.status = .pending := congrArg StepState.status returned
  have next' : (coordination.step db call).runs.row id = some next := row'
  simp [resets, acts, moveOf_resumePublication made, row, before, disconnected, next', found,
    pending]

/-- `attempt_count` of a step, none for a step that does not exist yet. -/
def attemptCountAt (id : RunId) (key : StepKey) (db : Database) : Nat :=
  ((db.runs.row id).bind (·.steps.row key)).elim 0 (·.attemptCount)

theorem attemptCountAt_view {db : Database} {id : RunId} {run : Run}
    (row : db.runs.row id = some run) (key : StepKey) :
    attemptCountAt id key db = attemptsAt (view run) key := by
  cases step : run.steps.row key with
  | none => simp [attemptCountAt, attemptsAt, row, step, view]
  | some s => simp [attemptCountAt, attemptsAt, row, step, view, stepState]

theorem attemptCount_step {db : Database} (reachable : coordination.Reachable db) (call : Call)
    (id : RunId) (key : StepKey) (noReset : resets id key (db, call) = false) :
    attemptCountAt id key (coordination.step db call) =
      attemptCountAt id key db + if grants id key (db, call) then 1 else 0 := by
  cases row : db.runs.row id with
  | none =>
    have quiet : grants id key (db, call) = false := by simp [grants, row]
    have none_ : attemptCountAt id key db = 0 := by simp [attemptCountAt, row]
    rw [quiet, none_]
    rcases execute_absent call row with absent | ⟨args, new, -⟩
    · have absent' : (coordination.step db call).runs.row id = none := absent
      simp [attemptCountAt, absent']
    · have new' : (coordination.step db call).runs.row id =
          some (AdmissionStore.insertWith call.1 args db).run := new
      rw [attemptCountAt_view new', view_insertWith]
      rfl
  | some run =>
    obtain ⟨next, row', idle | ⟨action, tx, acts, same, now, enabled, after⟩⟩ :=
      execute_moves reachable call row
    · have row'' : (coordination.step db call).runs.row id = some next := row'
      have quiet : grants id key (db, call) = false := by simp [grants, row, idle.1]
      rw [attemptCountAt_view row, attemptCountAt_view row'', idle.2, quiet]
      rfl
    · have row'' : (coordination.step db call).runs.row id = some next := row'
      have kept : ¬ (moveOf call.1 tx action = .resumePublication ∧
          ∃ s, (view run).steps.row key = some s ∧ s.status = .disconnected) := by
        rintro ⟨made, st, step, parked⟩
        have reset := resets_of_move row acts row' after made step parked
        rw [noReset] at reset
        cases reset
      rw [attemptCountAt_view row, attemptCountAt_view row'', after]
      rcases attempts_apply enabled kept with ⟨made, counted⟩ | ⟨quiet, counted⟩
      · rw [counted, if_pos ((grants_iff row acts same key).mpr made)]
      · rw [counted, if_neg (mt (grants_iff row acts same key).mp quiet)]
        rfl

theorem budgeted_reachable {db : Database} (reachable : coordination.Reachable db) {id : RunId}
    {run : Run} (row : db.runs.row id = some run) {key : StepKey} {s : PublicationStep}
    (step : run.steps.row key = some s) :
    s.attemptCount ≤ 3 ∧ s.recoveryAttemptCount ≤ 3 := by
  have budgeted := view_reachable admitted_budgeted apply_budgeted reachable row key _
    (view_steps_row step)
  exact ⟨budgeted.attempts, budgeted.recoveries⟩

theorem attemptCountAt_le {db : Database} (reachable : coordination.Reachable db) (id : RunId)
    (key : StepKey) : attemptCountAt id key db ≤ 3 := by
  simp only [attemptCountAt]
  cases found : (db.runs.row id).bind (·.steps.row key) with
  | none => simp
  | some s =>
    obtain ⟨run, row, step⟩ := Option.bind_eq_some_iff.mp found
    exact (budgeted_reachable reachable row step).1

theorem grants_le {db : Database} (reachable : coordination.Reachable db) (calls : List Call)
    (id : RunId) (key : StepKey)
    (noReset : ∀ step ∈ coordination.stepsFrom db calls, resets id key step = false) :
    (coordination.stepsFrom db calls).countP (grants id key) ≤ 3 := by
  have preserved : ∀ db call, coordination.Reachable db →
      coordination.Reachable (coordination.step db call) :=
    fun _ call h => coordination.reachable_step h call
  have counted := coordination.runFrom_count preserved (attemptCountAt id key) (grants id key)
    reachable calls fun step taken here => attemptCount_step here step.2 id key (noReset step taken)
  have bounded := attemptCountAt_le (coordination.reachable_runFrom reachable calls) id key
  omega

/-- A reachable database in which the step has this status. -/
def StepHas (id : RunId) (key : StepKey) (status : StepStatus) (db : Database) : Prop :=
  coordination.Reachable db ∧
    ∃ run s, db.runs.row id = some run ∧ run.steps.row key = some s ∧ s.status = status

theorem finished_step {id : RunId} {key : StepKey} {status : StepStatus}
    (finished : Finished status) {db : Database} (h : StepHas id key status db) (call : Call) :
    StepHas id key status (coordination.step db call) ∧ grants id key (db, call) = false := by
  obtain ⟨reachable, run, s, row, step, rfl⟩ := h
  have later := coordination.reachable_step reachable call
  obtain ⟨next, row', idle | ⟨action, tx, acts, same, now, enabled, after⟩⟩ :=
    execute_moves reachable call row
  · have quiet : grants id key (db, call) = false := by simp [grants, row, idle.1]
    exact ⟨⟨later, next, s, row', idle.2 ▸ step, rfl⟩, quiet⟩
  · obtain ⟨quiet, kept⟩ := finished_kept enabled (view_steps_row step) finished
    rw [← after] at kept
    obtain ⟨t, found, unchanged⟩ := stepState_row kept
    refine ⟨⟨later, next, t, row', found, congrArg StepState.status unchanged⟩, ?_⟩
    rw [← Bool.not_eq_true, grants_iff row acts same]
    exact quiet

/-- All steps of a published publication succeeded. -/
def PublishedWhole (run : Run) : Prop :=
  run.publication.status = .published →
    ∀ key s, run.steps.row key = some s → s.status = .succeeded

theorem published_reachable {db : Database} (reachable : coordination.Reachable db) {id : RunId}
    {run : Run} (row : db.runs.row id = some run) : PublishedWhole run := by
  have stable : Stable fun tx => Fresh tx ∧ PublishedWhole tx.run := by
    intro tx next h same token event notice
    exact ⟨fresh_stable tx next h.1 same token event notice, same ▸ h.2⟩
  have initially : Initially fun tx => Fresh tx ∧ PublishedWhole tx.run := by
    intro store args db
    refine ⟨fresh_initially store args db, ?_⟩
    intro published
    cases published
  have preserved : ∀ store id action tx, Fresh tx ∧ PublishedWhole tx.run →
      Fresh (RunAction.result store id action tx) ∧
        PublishedWhole (RunAction.result store id action tx).run := by
    intro store id action tx h
    refine ⟨fresh_result store id action h.1, ?_⟩
    intro published key s step
    obtain ⟨enabled, after⟩ := perform_refines store id h.1 action
    have ends : ((moveOf store tx action).apply (view tx.run)).publication = .published := by
      rw [← after]
      exact published
    rcases published_cases enabled ends with made | before
    · rw [made] at enabled after
      have kept : (view (RunAction.result store id action tx).run).steps =
          (view tx.run).steps := by
        rw [after]
        rfl
      have found := view_steps_row step
      rw [kept] at found
      exact enabled.2 key _ found
    · have kept := ((Statements.result_statements store id action tx).concluded
        (.inl before)).2
      exact h.2 before key s (kept ▸ step)
  exact (everywhere_reachable stable initially preserved reachable id run row).2

/-- A database in which the run is published with these steps. -/
def PublishedWith (id : RunId) (steps : Table StepKey PublicationStep) (db : Database) : Prop :=
  ∃ run, db.runs.row id = some run ∧ run.publication.status = .published ∧ run.steps = steps

theorem published_step {id : RunId} {steps : Table StepKey PublicationStep} {db : Database}
    (h : PublishedWith id steps db) (call : Call) :
    PublishedWith id steps (coordination.step db call) := by
  obtain ⟨run, row, published, rfl⟩ := h
  obtain ⟨tx, sees, row', -⟩ := execute_existing call row
  refine ⟨_, row', ?_⟩
  obtain ⟨_, sequence⟩ := resultOf_statements call.1 id tx (actionOn call db id)
  have kept := sequence.concluded (.inl (sees.run ▸ published))
  rw [kept.1, kept.2, sees.run]
  exact ⟨published, rfl⟩

/-- The budget of a step and what happens once it is finished, over any history
of operations from any reachable database. -/
theorem step_budget {db : Database} (reachable : coordination.Reachable db) (calls : List Call)
    (id : RunId) (key : StepKey) :
    ((∀ step ∈ coordination.stepsFrom db calls, resets id key step = false) →
      (coordination.stepsFrom db calls).countP (grants id key) ≤ 3) ∧
    (∀ run s, db.runs.row id = some run → run.steps.row key = some s →
      s.attemptCount ≤ 3 ∧ s.recoveryAttemptCount ≤ 3 ∧
      (s.status = .succeeded ∨ s.status = .terminalFailed →
        (∃ next t, (coordination.runFrom db calls).runs.row id = some next ∧
          next.steps.row key = some t ∧ t.status = s.status) ∧
        ∀ step ∈ coordination.stepsFrom db calls, grants id key step = false)) ∧
    (∀ run, db.runs.row id = some run → run.publication.status = .published →
      (∀ k s, run.steps.row k = some s → s.status = .succeeded) ∧
      ∃ next, (coordination.runFrom db calls).runs.row id = some next ∧
        next.steps = run.steps) := by
  refine ⟨grants_le reachable calls id key, ?_, ?_⟩
  · intro run s row step
    obtain ⟨attempts, recoveries⟩ := budgeted_reachable reachable row step
    refine ⟨attempts, recoveries, ?_⟩
    intro finished
    have here : StepHas id key s.status db := ⟨reachable, run, s, row, step, rfl⟩
    have preserved := fun db call (h : StepHas id key s.status db) =>
      (finished_step finished h call).1
    constructor
    · exact (coordination.runFrom_invariant preserved here calls).2
    · intro step taken
      have before := coordination.stepsFrom_invariant preserved here taken
      exact (finished_step finished before step.2).2
  · intro run row published
    refine ⟨published_reachable reachable row published, ?_⟩
    have here : PublishedWith id run.steps db := ⟨run, row, published, rfl⟩
    have preserved : ∀ db call, PublishedWith id run.steps db →
        PublishedWith id run.steps (coordination.step db call) :=
      fun _ call h => published_step h call
    obtain ⟨next, row', -, same⟩ := coordination.runFrom_invariant preserved here calls
    exact ⟨next, row', same⟩

/-- Three attempts whose answers are lost, and a fourth that is refused. -/
theorem step_budget_spent :
    (coordination.stepsFrom (coordination.run (byDefault toPublishing))
      (byDefault (toUncertain.drop toPublishing.length))).countP (grants "run-1" summaryStep) = 3 ∧
    (coordination.stepsFrom (coordination.run (byDefault toPublishing))
      (byDefault (toUncertain.drop toPublishing.length))).countP (grants "run-1" summaryStep)
        ≤ 3 := by
  refine ⟨by decide, ?_⟩
  exact (step_budget ⟨_, rfl⟩ _ "run-1" summaryStep).1 (by decide)

end StepBudget
