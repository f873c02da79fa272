import SecReviewBot.TransitionSystems
import SecReviewBot.ReviewRuns.Coordination
import SecReviewBot.GithubIntegration.StepFrames

/-!
# Looking for the effect of an exhausted step

A step without attempts is looked for on GitHub, and Review Runs counts the times
that fails: the third one parks the step for an operator. Only the delivery batch
reports such a failure, and its pass then reports the publication as failed, which
returns the axis to `pending`. The other publishers report nothing, and look again
on every pass.
-/

namespace Reconciliation

open KeyedTables ReviewRunsSchema ReviewRunsTransactions ThrowingPrograms PublicationFailure
open ReviewRunsClient Publishers PublicationCoordinator StepRequests StepFrames
open TransitionSystems
open PublicationStore (RemoteObject ownsPublication awaitsReconciliation isStepExhausted
  derivePublicationStatus maxPublicationStepRecoveryAttempts)

/-- A pass, with the database it finds around the rows of the run. -/
structure Visit where
  db : Database
  pass : Pass

def visit (store : Store) (runId : RunId) (run : Run) (v : Visit) : World :=
  publishReviewRunsOnce store runId v.pass (begin v.db run)

/-- The run, and how many passes have asked GitHub for the step. -/
structure Watch where
  run : Run
  finds : Nat

def watching (store : Store) (runId : RunId) (key : StepKey) (run : Run) : System Watch Visit where
  initial := ⟨run, 0⟩
  step w v :=
    let ended := visit store runId w.run v
    ⟨ended.tx.run, if .find key ∈ ended.calls then w.finds + 1 else w.finds⟩

def Exhausted (key : StepKey) (run : Run) : Prop :=
  ∃ s, run.steps.row key = some s ∧ awaitsReconciliation s = true

/-- GitHub does not say whether the effect exists. -/
def Unanswered (key : StepKey) (pass : Pass) : Prop :=
  ∃ e, pass.find key = .error e ∧ e.claimLost = false ∧
    (classifyPublicationFailure e).retry = true

/-- The step and its publication wait for an operator. -/
structure Parked (key : StepKey) (run : Run) : Prop where
  step : ∃ s, run.steps.row key = some s ∧ s.status = .disconnected
  axis : run.publication.status = .disconnected

/-- Three passes ask for the step, and none after them. -/
structure Bounded (store : Store) (runId : RunId) (key : StepKey) (w : Watch) : Prop where
  finds : w.finds ≤ maxPublicationStepRecoveryAttempts
  parked : w.finds = maxPublicationStepRecoveryAttempts →
    Parked key w.run ∧ ∀ v, .find key ∉ (visit store runId w.run v).calls

def IsDelivery (key : StepKey) : Prop := ∃ delivery, key = deliveryStepKey delivery

theorem not_delivery {key : StepKey} (letter : key.toList[11]? ≠ some 'd') : ¬ IsDelivery key := by
  rintro ⟨delivery, rfl⟩
  exact letter (deliveryStepKey_letter delivery)

def lastRecovery (s : PublicationStep) : Bool :=
  maxPublicationStepRecoveryAttempts ≤ s.recoveryAttemptCount + 1

/-- The step's failure reaches Review Runs and uses the last recovery. -/
structure Spends (key : StepKey) (s : PublicationStep) (pass : Pass) : Prop where
  delivery : IsDelivery key
  last : lastRecovery s = true
  recorded : (pass.reply (.failPublicationStep key)).commits = true

/-- The failure of the publication does not reach it. -/
def Unreported (pass : Pass) : Prop := (pass.reply (.failPublication .failed)).commits = false

/-- The step has not come up yet. -/
structure Unasked (key : StepKey) (s : PublicationStep) (w : World) : Prop where
  row : w.tx.run.steps.row key = some s
  quiet : .find key ∉ w.calls

/-- Still without an outcome. -/
def Unsettled (key : StepKey) (run : Run) : Prop :=
  ∃ s, run.steps.row key = some s ∧ (awaitsReconciliation s = true ∨ s.status = .disconnected)

/-- The claim of the step was refused: its effect has to be looked for. -/
structure Doubted (work : Work) (key : StepKey) (s : PublicationStep) (w : World) : Prop where
  owns : ownsPublication work.token w.tx.run.publication = true
  row : ∃ doubted, w.tx.run.steps.row key = some doubted ∧ doubted.status = .uncertain ∧
    isStepExhausted doubted = true ∧ doubted.recoveryAttemptCount = s.recoveryAttemptCount

/-- It was looked for in vain, and the failure is recorded if the publisher does that. -/
structure Asked (pass : Pass) (work : Work) (key : StepKey) (s : PublicationStep) (w : World) :
    Prop where
  owns : ownsPublication work.token w.tx.run.publication = true
  row : ∃ asked, w.tx.run.steps.row key = some asked ∧
    (asked.status = .disconnected ↔ Spends key s pass)
  axis : Spends key s pass → w.tx.run.publication.status = .disconnected

/-- How a publisher is interrupted. -/
structure Stopped (pass : Pass) (work : Work) (key : StepKey) (s : PublicationStep)
    (e : PublishError) (w : World) : Prop where
  unsettled : Unsettled key w.tx.run
  asked : .find key ∈ w.calls → Asked pass work key s w ∧ e.claimLost = false ∧
    (classifyPublicationFailure e).retry = true

section Steps

variable {pass : Pass} {work : Work} {key : StepKey} {s : PublicationStep} {w : World}

theorem awaits_undecided (awaits : awaitsReconciliation s = true) :
    s.status ≠ .terminalFailed ∧ s.status ≠ .succeeded := by
  simp only [awaitsReconciliation, Bool.and_eq_true, Bool.or_eq_true, decide_eq_true_eq] at awaits
  rcases awaits.2 with (failed | running) | uncertain
  · simp [failed]
  · simp [running]
  · simp [uncertain]

theorem unasked_unsettled (awaits : awaitsReconciliation s = true) (h : Unasked key s w) :
    Unsettled key w.tx.run :=
  ⟨s, h.row, .inl awaits⟩

theorem stopped_of_quiet {e : PublishError} (unsettled : Unsettled key w.tx.run)
    (quiet : .find key ∉ w.calls) : Stopped pass work key s e w :=
  ⟨unsettled, fun asked => absurd asked quiet⟩

theorem doubted_unsettled (h : Doubted work key s w) : Unsettled key w.tx.run := by
  obtain ⟨doubted, row, uncertain, exhausted, -⟩ := h.row
  exact ⟨doubted, row, .inl (by simp [awaitsReconciliation, exhausted, uncertain])⟩

/-- What another step does is not seen here. -/
theorem keeps_unasked {α : Type} {x : Publishing α} {other : StepKey} (ne : other ≠ key)
    (aside : ∀ w₀, Keeps (Aside other w₀) x) : Keeps (Unasked key s) x := by
  intro w unasked
  have kept : ∀ t, Aside other w t → Unasked key s t := by
    intro t beside
    refine ⟨(beside.rows key ne.symm).trans unasked.row, fun mem => unasked.quiet ?_⟩
    exact beside.mem_calls (c := .find key) ne.symm mem
  exact (aside w w (aside_refl other w)).mono (fun _ t => kept t) fun _ t => kept t

theorem keeps_unasked_request {α : Type} {r : Request} {body : Tx → Outcome α}
    (kept : ∀ tx answer next, body tx = .ok (answer, next) →
      tx.run.steps.row key = some s → next.run.steps.row key = some s) :
    Keeps (Unasked key s) (request pass r body) := by
  apply keeps_request
  intro w answer tx unasked result
  exact ⟨kept w.tx answer tx result unasked.row, unasked.quiet⟩

/-- Where `requirePublicationStepClaim` leaves an exhausted step. -/
theorem doubted_refused {tx : Tx} (calls : List RemoteCall) (lost : Bool)
    (awaits : awaitsReconciliation s = true)
    (owns : ownsPublication work.token tx.run.publication = true) :
    Doubted work key s ⟨derivePublicationStatus (updateSteps (fun steps =>
      steps.put key (PublicationStore.doubtStep tx.now s)) tx), calls, lost⟩ where
  owns := by
    rw [derive_owns]
    exact owns
  row := by
    rw [awaitsReconciliation, Bool.and_eq_true] at awaits
    refine ⟨PublicationStore.doubtStep tx.now s, by simp [derive_steps], ?_⟩
    by_cases uncertain : s.status = .uncertain
    · rw [PublicationStore.doubtStep, if_pos uncertain]
      exact ⟨uncertain, awaits.1, rfl⟩
    · rw [PublicationStore.doubtStep, if_neg uncertain]
      exact ⟨rfl, awaits.1, rfl⟩

theorem reconcileStep_exhausted {e refused : PublishError} {Q : RemoteObject → World → Prop}
    {E : PublishError → World → Prop} (exhausted : isPublicationStepExhausted refused = true)
    (find : pass.find key = .error e) (h : E e { w with calls := w.calls ++ [.find key] }) :
    Ends (reconcileStep pass work key refused) w Q E := by
  rw [reconcileStep, if_pos exhausted, ends_bind, settleExhaustedStep, ends_bind, ends_remote, find]
  exact h

theorem reconcileStep_other {refused : PublishError} {Q : RemoteObject → World → Prop}
    {E : PublishError → World → Prop} (other : isPublicationStepExhausted refused = false)
    (h : E refused w) : Ends (reconcileStep pass work key refused) w Q E := by
  rw [reconcileStep, if_neg (by simp [other])]
  exact h

/-- The claim of an exhausted step is refused. Under the claim of the publication
its effect is then looked for in vain; a lost answer ends the search before that. -/
theorem refused_ends {e : PublishError} {Q : RemoteObject → World → Prop}
    {E : PublishError → World → Prop} (awaits : awaitsReconciliation s = true)
    (unasked : Unasked key s w) (find : pass.find key = .error e)
    (looked : ∀ t, Doubted work key s t → E e t)
    (closed : ∀ t, Unasked key s t → ownsPublication work.token t.tx.run.publication = false →
      E (httpError (PublicationStore.refusal key false)) t)
    (faulted : ∀ (fault : Fault) t, Unsettled key t.tx.run → .find key ∉ t.calls →
      E fault.error t) :
    Ends (requirePublicationStepClaim pass work key) w (fun _ _ => False)
      (fun e t => Ends (reconcileStep pass work key e) t Q E) := by
  have fault : ∀ (fault : Fault) t, Unsettled key t.tx.run → .find key ∉ t.calls →
      Ends (reconcileStep pass work key fault.error) t Q E := fun fault t unsettled quiet =>
    reconcileStep_other (fault_not_exhausted fault) (faulted fault t unsettled quiet)
  rw [requirePublicationStepClaim, ends_bind]
  cases owns : ownsPublication work.token w.tx.run.publication with
  | true =>
    have answer := require_exhausted owns unasked.row awaits
    have doubted : ∀ calls, Doubted work key s ⟨_, calls, w.lost⟩ := fun calls =>
      doubted_refused calls w.lost awaits owns
    refine ends_request (fun _ => ?_) (fun _ reply => ?_) fun _ reply => ?_
    · rw [ends_perform, answer]
      exact reconcileStep_exhausted rfl find (looked _ (doubted _))
    · exact fault reply w (unasked_unsettled awaits unasked) unasked.quiet
    · rw [final_perform answer]
      exact fault reply _ (doubted_unsettled (doubted w.calls)) unasked.quiet
  | false =>
    have answer : PublicationStore.requirePublicationStepClaim work.token key w.tx = _ :=
      require_unowned owns
    have kept : Unasked key s { w with tx := derivePublicationStatus w.tx } :=
      ⟨by rw [derive_steps]; exact unasked.row, unasked.quiet⟩
    refine ends_request (fun _ => ?_) (fun _ reply => ?_) fun _ reply => ?_
    · have other : isPublicationStepExhausted
          (httpError (PublicationStore.refusal key false)) = false := by
        simp [httpError, PublicationStore.refusal, PublishError.plain, isPublicationStepExhausted]
      have rethrown : Ends (reconcileStep pass work key _) _ Q E :=
        reconcileStep_other other (closed _ kept ((derive_owns _ _).trans owns))
      rw [ends_perform, answer]
      exact rethrown
    · exact fault reply w (unasked_unsettled awaits unasked) unasked.quiet
    · rw [final_perform answer]
      exact fault reply _ (unasked_unsettled awaits kept) kept.quiet

theorem asked_of_doubted (h : Doubted work key s w) (unspent : ¬ Spends key s pass) :
    Asked pass work key s w where
  owns := h.owns
  row := by
    obtain ⟨doubted, row, uncertain, -⟩ := h.row
    exact ⟨doubted, row, by simp [uncertain, unspent]⟩
  axis := fun spends => absurd spends unspent

theorem failStep_status (failure : Failure) (now : Timestamp) (s : PublicationStep) :
    (PublicationStore.failStep failure (some true) now s).status =
      if s.status = .uncertain then if lastRecovery s then .disconnected else .uncertain
      else .failed := by
  by_cases uncertain : s.status = .uncertain
  · simp [PublicationStore.failStep, uncertain, lastRecovery]
  · simp [PublicationStore.failStep, uncertain]

/-- A retried failure leaves an exhausted step waiting or parks it. -/
theorem failStep_waits (failure : Failure) (now : Timestamp) (exhausted : isStepExhausted s = true) :
    awaitsReconciliation (PublicationStore.failStep failure (some true) now s) = true ∨
      (PublicationStore.failStep failure (some true) now s).status = .disconnected := by
  have spent : isStepExhausted (PublicationStore.failStep failure (some true) now s) = true :=
    exhausted
  rw [awaitsReconciliation, failStep_status, spent]
  by_cases uncertain : s.status = .uncertain
  · cases lastRecovery s <;> simp [uncertain]
  · simp [uncertain]

/-- A recorded failure of a doubted step uses one recovery. -/
theorem doubted_fails {failure : Failure} (h : Doubted work key s w) (delivery : IsDelivery key)
    (recorded : (pass.reply (.failPublicationStep key)).commits = true) :
    ∃ failed, PublicationStore.failPublicationStep work.runId work.token key failure (some true)
        w.tx = .ok (true, failed) ∧
      Unsettled key failed.run ∧ Asked pass work key s { w with tx := failed } := by
  obtain ⟨doubted, row, uncertain, exhausted, count⟩ := h.row
  have spends : Spends key s pass ↔ lastRecovery doubted = true := by
    rw [lastRecovery, count]
    exact ⟨fun spends => spends.last, fun last => ⟨delivery, last, recorded⟩⟩
  have status : (PublicationStore.failStep failure (some true) w.tx.now doubted).status =
      if lastRecovery doubted then .disconnected else .uncertain := by
    rw [failStep_status, if_pos uncertain]
  have failedRow : (updateSteps (fun steps => steps.put key
      (PublicationStore.failStep failure (some true) w.tx.now doubted)) w.tx).run.steps.row key =
      some (PublicationStore.failStep failure (some true) w.tx.now doubted) := by
    simp
  refine ⟨_, failStep_uncertain work.runId failure h.owns row uncertain, ?_, ?_, ?_, ?_⟩
  · exact ⟨_, by rw [derive_steps]; exact failedRow, failStep_waits failure _ exhausted⟩
  · rw [derive_owns]
    exact h.owns
  · refine ⟨_, by rw [derive_steps]; exact failedRow, ?_⟩
    rw [status, spends]
    cases lastRecovery doubted <;> simp
  · intro parks
    refine derive_parked h.owns failedRow ?_
    rw [status, if_pos (spends.mp parks)]

theorem failStep_unsettled {runId : RunId} {token : Token} {failure : Failure} {answer : Bool}
    {tx next : Tx} (h : Unsettled key tx.run)
    (result : PublicationStore.failPublicationStep runId token key failure (some true) tx =
      .ok (answer, next)) : Unsettled key next.run := by
  obtain ⟨s, row, waits⟩ := h
  simp only [PublicationStore.failPublicationStep] at result
  rcases LifecycleView.updateOwnedStep_cases token key
      (fun s => s.status = .running || s.status = .uncertain)
      (PublicationStore.failStep failure (some true) tx.now) tx with
    ⟨-, none⟩ | ⟨before, -, -, sameRow, applies, updated⟩
  · rw [none] at result
    cases result
    exact ⟨s, row, waits⟩
  · obtain rfl := Option.some.inj (row.symm.trans sameRow)
    rw [updated] at result
    cases result
    have exhausted : isStepExhausted s = true := by
      rcases waits with awaits | parked
      · rw [awaitsReconciliation, Bool.and_eq_true] at awaits
        exact awaits.1
      · simp [parked] at applies
    exact ⟨PublicationStore.failStep failure (some true) tx.now s, by simp [derive_steps],
      failStep_waits failure _ exhausted⟩

section Deliveries

variable {delivery : Delivery}

theorem recordDeliveryFailure_looked {e : PublishError}
    (h : Doubted work (deliveryStepKey delivery) s w) (ours : e.claimLost = false)
    (retry : (classifyPublicationFailure e).retry = true) :
    Ends (recordDeliveryFailure pass work delivery e) w (fun _ _ => False)
      (Stopped pass work (deliveryStepKey delivery) s) := by
  simp only [recordDeliveryFailure, ours, Bool.false_eq_true, if_false, retry,
    scope_of_retry retry, if_true]
  rw [ends_bind, failPublicationStep]
  refine ends_request (fun recorded => ?_) (fun lost fault => ?_) fun recorded fault => ?_
  · obtain ⟨failed, result, unsettled, asked⟩ := doubted_fails h ⟨delivery, rfl⟩ recorded
    rw [ends_perform, result]
    exact ⟨unsettled, fun _ => ⟨asked, rfl, plain_retried _⟩⟩
  · have unspent : ¬ Spends (deliveryStepKey delivery) s pass := by
      intro spends
      rw [spends.recorded] at lost
      cases lost
    exact ⟨doubted_unsettled h,
      fun _ => ⟨asked_of_doubted h unspent, fault_not_lost fault, fault_retried fault⟩⟩
  · obtain ⟨failed, result, unsettled, asked⟩ := doubted_fails h ⟨delivery, rfl⟩ recorded
    rw [final_perform result]
    exact ⟨unsettled, fun _ => ⟨asked, fault_not_lost fault, fault_retried fault⟩⟩

/-- Without the publication nothing is recorded, and the batch goes on. -/
theorem recordDeliveryFailure_closed (awaits : awaitsReconciliation s = true)
    (unasked : Unasked (deliveryStepKey delivery) s w)
    (lost : ownsPublication work.token w.tx.run.publication = false) :
    Ends (recordDeliveryFailure pass work delivery
        (httpError (PublicationStore.refusal (deliveryStepKey delivery) false))) w
      (fun _ => Unasked (deliveryStepKey delivery) s)
      (Stopped pass work (deliveryStepKey delivery) s) := by
  obtain ⟨terminal, scope⟩ := refusal_classified
    (e := httpError (PublicationStore.refusal (deliveryStepKey delivery) false)) rfl (.inl rfl)
  have ours : (httpError (PublicationStore.refusal (deliveryStepKey delivery) false)).claimLost =
      false := rfl
  simp only [recordDeliveryFailure, ours, Bool.false_eq_true, if_false, scope, reduceCtorEq]
  rw [ends_bind, failPublicationStep, terminal]
  have stopped : ∀ e, Stopped pass work (deliveryStepKey delivery) s e w := fun _ =>
    stopped_of_quiet (unasked_unsettled awaits unasked) unasked.quiet
  have result : ∀ failure, PublicationStore.failPublicationStep work.runId work.token
      (deliveryStepKey delivery) failure (some false) w.tx = .ok (false, w.tx) := fun failure =>
    failStep_unowned work.runId failure (some false) lost
  refine ends_request (fun _ => ?_) (fun _ _ => stopped _) fun _ _ => ?_
  · rw [ends_perform, result]
    exact unasked
  · rw [final_perform (result _)]
    exact stopped _

theorem recordDeliveryFailure_faulted (fault : Fault)
    (unsettled : Unsettled (deliveryStepKey delivery) w.tx.run)
    (quiet : .find (deliveryStepKey delivery) ∉ w.calls) :
    Ends (recordDeliveryFailure pass work delivery fault.error) w (fun _ _ => False)
      (Stopped pass work (deliveryStepKey delivery) s) := by
  have kept : ∀ failure, Keeps (fun t => Unsettled (deliveryStepKey delivery) t.tx.run ∧
      .find (deliveryStepKey delivery) ∉ t.calls)
      (failPublicationStep pass work (deliveryStepKey delivery) failure true) := fun failure =>
    keeps_request fun w answer tx h result => ⟨failStep_unsettled h.1 result, h.2⟩
  simp only [recordDeliveryFailure, fault_not_lost, Bool.false_eq_true, if_false, fault_retried,
    scope_of_retry (fault_retried fault), if_true]
  rw [ends_bind]
  exact (kept _ w ⟨unsettled, quiet⟩).mono (fun _ _ h => stopped_of_quiet h.1 h.2)
    fun _ _ h => stopped_of_quiet h.1 h.2

end Deliveries

end Steps

/-- Before the step has come up, the program leaves it so or is interrupted. -/
def Attends (pass : Pass) (work : Work) (key : StepKey) (s : PublicationStep) {α : Type}
    (x : Publishing α) : Prop :=
  ∀ w, Unasked key s w → Ends x w (fun _ => Unasked key s) (Stopped pass work key s)

section Attending

variable {pass : Pass} {work : Work} {key : StepKey} {s : PublicationStep}

theorem Attends.bind {α β : Type} {x : Publishing α} {f : α → Publishing β}
    (hx : Attends pass work key s x) (hf : ∀ a, Attends pass work key s (f a)) :
    Attends pass work key s (x >>= f) := by
  intro w unasked
  rw [ends_bind]
  exact (hx w unasked).mono (fun a t => hf a t) fun _ _ stopped => stopped

theorem attends_pure {α : Type} (a : α) : Attends pass work key s (pure a : Publishing α) :=
  fun _ unasked => unasked

variable (awaits : awaitsReconciliation s = true)
include awaits

theorem attends_of_keeps {α : Type} {x : Publishing α} (kept : Keeps (Unasked key s) x) :
    Attends pass work key s x := fun w unasked =>
  (kept w unasked).mono (fun _ _ h => h)
    fun _ _ h => stopped_of_quiet (unasked_unsettled awaits h) h.quiet

theorem attends_throw {α : Type} (e : PublishError) :
    Attends pass work key s (throw e : Publishing α) :=
  attends_of_keeps awaits (keeps_throw e)

/-- The steps as they are read have the row. -/
theorem list_attends {w : World} (unasked : Unasked key s w) (point : Reading) :
    Ends (listPublicationSteps pass point) w
      (fun steps t => steps.row key = some s ∧ Unasked key s t) (Stopped pass work key s) := by
  have stopped : ∀ e, Stopped pass work key s e w := fun _ =>
    stopped_of_quiet (unasked_unsettled awaits unasked) unasked.quiet
  refine ends_request (fun _ => ?_) (fun _ _ => stopped _) fun _ _ => ?_
  · rw [ends_perform]
    exact ⟨unasked.row, unasked⟩
  · rw [final_perform rfl]
    exact stopped _

theorem initialize_attends (stepKeys : List StepKey) :
    Attends pass work key s (initializePublicationSteps pass work stepKeys) :=
  attends_of_keeps awaits (keeps_unasked_request fun _ _ _ result row => initialize_row result row)

variable (unanswered : Unanswered key pass)
include unanswered

/-- The step itself: nothing is recorded, and the pass is over. -/
theorem runPublicationStep_stops (single : ¬ IsDelivery key) {w : World}
    (unasked : Unasked key s w) :
    Ends (runPublicationStep pass work key) w (fun _ _ => False) (Stopped pass work key s) := by
  obtain ⟨e, find, ours, retry⟩ := unanswered
  have unfinished : (some s).filter (fun s => s.status = .succeeded) = none := by
    simp [(awaits_undecided awaits).2]
  have unspent : ¬ Spends key s pass := fun spends => single spends.delivery
  rw [runPublicationStep, ends_bind]
  refine (list_attends awaits unasked _).mono ?_ fun _ _ stopped => stopped
  rintro steps t ⟨row, unasked⟩
  simp only [row, unfinished]
  rw [ends_bind, ends_attempt]
  have refused := refused_ends (Q := fun _ _ => False) (E := Stopped pass work key s) awaits
    unasked find
    (fun u doubted => ⟨doubted_unsettled doubted,
      fun _ => ⟨asked_of_doubted doubted unspent, ours, retry⟩⟩)
    (fun u kept _ => stopped_of_quiet (unasked_unsettled awaits kept) kept.quiet)
    (fun _ u unsettled quiet => stopped_of_quiet unsettled quiet)
  refine refused.mono (fun _ _ impossible => impossible.elim) fun e u ended => ?_
  rw [ends_bind]
  exact ended.mono (fun _ _ impossible => impossible.elim) fun _ _ stopped => stopped

theorem runPublicationStep_attends {other : StepKey} (single : ¬ IsDelivery other) :
    Attends pass work key s (runPublicationStep pass work other) := by
  by_cases same : other = key
  · subst same
    exact fun w unasked => (runPublicationStep_stops awaits unanswered single unasked).mono
      (fun _ _ impossible => impossible.elim) fun _ _ stopped => stopped
  · exact attends_of_keeps awaits (keeps_unasked same (runPublicationStep_aside pass work other))

theorem publishDelivery_attends {persisted : Table StepKey PublicationStep}
    (row : persisted.row key = some s) (delivery : Delivery) :
    Attends pass work key s (publishDelivery pass work persisted delivery) := by
  by_cases same : deliveryStepKey delivery = key
  · subst same
    obtain ⟨e, find, ours, retry⟩ := unanswered
    intro w unasked
    have refused := refused_ends (Q := fun _ _ => False)
      (E := fun e t => Ends (recordDeliveryFailure pass work delivery e) t
        (fun _ => Unasked (deliveryStepKey delivery) s)
        (Stopped pass work (deliveryStepKey delivery) s)) awaits unasked find
      (fun t doubted => (recordDeliveryFailure_looked doubted ours retry).mono
        (fun _ _ impossible => impossible.elim) fun _ _ stopped => stopped)
      (fun t kept lost => recordDeliveryFailure_closed awaits kept lost)
      (fun fault t unsettled quiet =>
        (recordDeliveryFailure_faulted fault unsettled quiet).mono
          (fun _ _ impossible => impossible.elim) fun _ _ stopped => stopped)
    rw [publishDelivery, ends_tryCatch, deliver_undecided row (awaits_undecided awaits), ends_bind,
      publishOrReconcileDeliveryDraftPr, ends_bind, ends_attempt]
    refine refused.mono (fun _ _ impossible => impossible.elim) fun e t ended => ?_
    exact ended.mono (fun _ _ impossible => impossible.elim) fun _ _ recorded => recorded
  · exact attends_of_keeps awaits
      (keeps_unasked same fun _ => publishDelivery_aside persisted delivery)

theorem publishEach_attends {persisted : Table StepKey PublicationStep}
    (row : persisted.row key = some s) (deliveries : List Delivery) :
    Attends pass work key s (publishEach pass work persisted deliveries) := by
  induction deliveries with
  | nil => exact attends_pure _
  | cons delivery rest ih =>
    rw [publishEach]
    refine (publishDelivery_attends awaits unanswered row delivery).bind fun entry => ?_
    exact ih.bind fun entries => attends_pure _

theorem publishDeliveryDraftPrs_attends (workspaceRef : String) (deliveries : List Delivery) :
    Attends pass work key s (publishDeliveryDraftPrs pass work workspaceRef deliveries) := by
  rw [publishDeliveryDraftPrs]
  split
  · exact attends_throw awaits _
  · intro w unasked
    rw [ends_bind]
    refine (list_attends awaits unasked _).mono ?_ fun _ _ stopped => stopped
    rintro persisted t ⟨row, unasked⟩
    exact publishEach_attends awaits unanswered row deliveries t unasked

theorem publishSummary_attends : Attends pass work key s (publishSummary pass work) := by
  have comments : Attends pass work key s (do
      let _ ← runPublicationStep pass work summaryCommentKey) :=
    (runPublicationStep_attends awaits unanswered (not_delivery summaryCommentKey_letter)).bind
      fun _ => attends_pure _
  have listed : Attends pass work key s (listPublicationSteps pass .summary) := fun w unasked =>
    (list_attends awaits unasked _).mono (fun _ _ h => h.2) fun _ _ stopped => stopped
  refine listed.bind fun steps => ?_
  dsimp only
  split
  · exact comments
  · refine Attends.bind ?_ fun _ => comments
    refine (runPublicationStep_attends awaits unanswered
      (not_delivery summaryIssueKey_letter)).bind fun step => ?_
    split
    · exact attends_pure _
    · exact attends_throw awaits _

theorem publishWork_attends : Attends pass work key s (publishWork pass work) := by
  have comment : Attends pass work key s (runPublicationStep pass work "issue:summary-comment") :=
    runPublicationStep_attends awaits unanswered (not_delivery (by simp))
  rw [publishWork]
  split
  · exact attends_throw awaits _
  · rw [publishIssueReviewResult]
    split
    · refine (initialize_attends awaits _).bind fun _ => ?_
      refine (runPublicationStep_attends awaits unanswered (not_delivery (by simp))).bind fun _ => ?_
      exact comment.bind fun _ => attends_pure _
    · refine (initialize_attends awaits _).bind fun _ => ?_
      exact comment.bind fun _ => attends_pure _
  · refine (initialize_attends awaits _).bind fun _ => ?_
    exact (runPublicationStep_attends awaits unanswered (not_delivery (by simp))).bind
      fun _ => attends_pure _
  · refine (initialize_attends awaits _).bind fun _ => ?_
    refine (publishDeliveryDraftPrs_attends awaits unanswered _ _).bind fun _ => ?_
    exact publishSummary_attends awaits unanswered

end Attending

/-- Where a pass leaves the step. -/
structure Visited (pass : Pass) (key : StepKey) (s : PublicationStep) (w : World) : Prop where
  unsettled : Unsettled key w.tx.run
  asked : .find key ∈ w.calls → (Parked key w.tx.run ↔ Spends key s pass ∧ Unreported pass)

section Coordinating

variable {pass : Pass} {work : Work} {key : StepKey} {s : PublicationStep} {w : World}

theorem visited_of_quiet (unsettled : Unsettled key w.tx.run) (quiet : .find key ∉ w.calls) :
    Visited pass key s w :=
  ⟨unsettled, fun asked => absurd asked quiet⟩

theorem unsettled_of_steps {run next : Run} (same : next.steps = run.steps)
    (h : Unsettled key run) : Unsettled key next := by
  obtain ⟨s, row, waits⟩ := h
  exact ⟨s, by rw [same]; exact row, waits⟩

theorem failPublication_unasked (conclusion : Conclusion) (failure : Failure) (retry : Bool) :
    Keeps (Unasked key s) (failPublication pass work conclusion failure retry) :=
  keeps_unasked_request fun _ _ _ result row => by
    rw [fail_steps result]
    exact row

theorem heartbeat_attends (awaits : awaitsReconciliation s = true) {operation : Publishing Unit}
    (h : Attends pass work key s operation) :
    Attends pass work key s (withPublicationHeartbeat pass work operation) := by
  have owned : ∀ point, Keeps (Unasked key s) (assertOwned pass work point) := fun point =>
    assertOwned_keeps point
      (fun _ _ same unasked => ⟨by rw [same]; exact unasked.row, unasked.quiet⟩)
      fun _ unasked => ⟨unasked.row, unasked.quiet⟩
  refine (attends_of_keeps awaits (owned _).attempt).bind fun started => ?_
  split
  · exact attends_pure _
  · refine h.bind fun _ => (attends_of_keeps awaits (owned _).attempt).bind fun finished => ?_
    split <;> exact attends_pure _

theorem conclude_attends (awaits : awaitsReconciliation s = true) :
    Attends pass work key s (concludePublication pass work) := by
  have completed : Keeps (Unasked key s) (completePublication pass work) :=
    keeps_unasked_request fun _ _ _ result row => by
      rw [complete_steps result]
      exact row
  refine (attends_of_keeps awaits completed).bind fun accepted => ?_
  split
  · exact attends_pure _
  · exact (attends_of_keeps awaits (failPublication_unasked _ _ _)).bind fun _ => attends_pure _

/-- A step that was asked for is parked when the failure of its publication is
not reported. -/
theorem visited_unreported (unsettled : Unsettled key w.tx.run) (asked : Asked pass work key s w)
    (unreported : Unreported pass) : Visited pass key s w := by
  refine ⟨unsettled, fun _ => ⟨fun parked => ⟨?_, unreported⟩, fun spent => ⟨?_, asked.axis spent.1⟩⟩⟩
  · obtain ⟨s', row, status⟩ := asked.row
    obtain ⟨parkedStep, sameRow, disconnected⟩ := parked.step
    obtain rfl := Option.some.inj (row.symm.trans sameRow)
    exact status.mp disconnected
  · obtain ⟨s', row, status⟩ := asked.row
    exact ⟨s', row, status.mpr spent.1⟩

theorem visited_reported (unsettled : Unsettled key w.tx.run)
    (pending : w.tx.run.publication.status = .pending)
    (reported : (pass.reply (.failPublication .failed)).commits = true) :
    Visited pass key s w := by
  refine ⟨unsettled, fun _ => ⟨fun parked => ?_, fun spent => ?_⟩⟩
  · have status := parked.axis
    rw [pending] at status
    cases status
  · have unreported := spent.2
    rw [Unreported, reported] at unreported
    cases unreported

theorem reportFailure_visited {e : PublishError} (h : Stopped pass work key s e w) :
    Ends (reportFailure pass work e) w (fun _ => Visited pass key s)
      (fun _ => Visited pass key s) := by
  by_cases mem : .find key ∈ w.calls
  · obtain ⟨asked, ours, retry⟩ := h.asked mem
    simp only [reportFailure, ours, Bool.false_eq_true, if_false, retry]
    rw [ends_bind, failPublication]
    have reported : ∀ failure, ∃ failed,
        PublicationStore.fail work.token failure true w.tx = .ok (true, failed) ∧
        ((pass.reply (.failPublication .failed)).commits = true →
          Visited pass key s { w with tx := failed }) := by
      intro failure
      obtain ⟨failed, result, pending⟩ := fail_retried failure asked.owns
      exact ⟨failed, result,
        visited_reported (unsettled_of_steps (fail_steps result) h.unsettled) pending⟩
    obtain ⟨failed, result, visited⟩ :=
      reported ⟨e.code.or (classifyPublicationFailure e).code, e.message⟩
    refine ends_request (fun committed => ?_)
      (fun lost _ => visited_unreported h.unsettled asked lost) fun committed _ => ?_
    · rw [ends_perform, result]
      exact visited committed
    · rw [final_perform result]
      exact visited committed
  · have quiet : Keeps (fun t => Unsettled key t.tx.run ∧ .find key ∉ t.calls)
        (reportFailure pass work e) := by
      rw [reportFailure]
      split
      · exact keeps_pure _
      · refine Keeps.bind (keeps_request fun w answer tx kept result => ?_) fun _ => keeps_pure _
        exact ⟨unsettled_of_steps (fail_steps result) kept.1, kept.2⟩
    exact (quiet w ⟨h.unsettled, mem⟩).mono (fun _ _ kept => visited_of_quiet kept.1 kept.2)
      fun _ _ kept => visited_of_quiet kept.1 kept.2

theorem publishClaimed_visited (awaits : awaitsReconciliation s = true)
    (unanswered : Unanswered key pass) (unasked : Unasked key s w) :
    Visited pass key s (final (publishClaimed pass work) w) := by
  have untouched : ∀ t, Unasked key s t → Visited pass key s t := fun _ h =>
    visited_of_quiet (unasked_unsettled awaits h) h.quiet
  rw [← ends_final (x := publishClaimed pass work) (P := Visited pass key s), publishClaimed]
  split
  · rw [ends_bind]
    exact (failPublication_unasked _ _ _ w unasked).mono (fun _ t h => untouched t h)
      fun _ t h => untouched t h
  · have attended : Attends pass work key s (do
        if ← withPublicationHeartbeat pass work (publishWork pass work) then
          concludePublication pass work
        else pure ()) := by
      refine (heartbeat_attends awaits (publishWork_attends awaits unanswered)).bind fun held => ?_
      split
      · exact conclude_attends awaits
      · exact attends_pure _
    rw [ends_tryCatch]
    exact (attended w unasked).mono (fun _ t h => untouched t h)
      fun _ t stopped => reportFailure_visited stopped

end Coordinating

section Visits

variable {store : Store} {runId : RunId} {key : StepKey} {run : Run} {s : PublicationStep}

theorem visit_visited {v : Visit} (awaits : awaitsReconciliation s = true)
    (row : run.steps.row key = some s) (unanswered : Unanswered key v.pass) :
    Visited v.pass key s (visit store runId run v) := by
  have untouched : ∀ tx : Tx, tx.run.steps = run.steps → Visited v.pass key s ⟨tx, [], false⟩ :=
    fun tx same => visited_of_quiet ⟨s, by rw [same]; exact row, .inl awaits⟩ (by simp)
  simp only [visit, publishReviewRunsOnce]
  split
  · next token claimed result =>
    have same := claim_steps result
    split
    · exact publishClaimed_visited awaits unanswered ⟨by rw [same]; exact row, by simp⟩
    · next committed _ _ =>
      cases committed with
      | true => exact untouched claimed same
      | false => exact untouched _ rfl
  · exact untouched _ rfl

/-- A run with a parked step is not claimed. -/
theorem visit_parked (row : run.steps.row key = some s) (parked : s.status = .disconnected)
    (v : Visit) : visit store runId run v = ⟨begin v.db run, [], false⟩ := by
  have has : run.steps.any (fun s => s.status = .disconnected) = true :=
    (Table.any_iff _ _).mpr ⟨key, s, row, by simp [parked]⟩
  have unclaimable : PublicationClaimStore.claimable store (begin v.db run).now
      (begin v.db run).run = false := by
    simp [PublicationClaimStore.claimable, begin, has]
  simp [visit, publishReviewRunsOnce, PublicationClaimStore.claim, unclaimable]

theorem parked_quiet (parked : Parked key run) (v : Visit) :
    .find key ∉ (visit store runId run v).calls := by
  obtain ⟨s, row, status⟩ := parked.step
  simp [visit_parked row status]

/-- If this pass is the third to ask for the step, the step is a delivery with one
recovery left, its failure is recorded, and that of the publication is not. -/
def ParksThird (store : Store) (runId : RunId) (key : StepKey) (w : Watch) (v : Visit) : Prop :=
  w.finds + 1 = maxPublicationStepRecoveryAttempts →
    .find key ∈ (visit store runId w.run v).calls →
    ∃ s, w.run.steps.row key = some s ∧ Spends key s v.pass ∧ Unreported v.pass

theorem watching_unsettled {w : Watch} {v : Visit} (unanswered : Unanswered key v.pass)
    (h : Unsettled key w.run) :
    Unsettled key ((watching store runId key run).step w v).run := by
  obtain ⟨s, row, awaits | parked⟩ := h
  · exact (visit_visited awaits row unanswered).unsettled
  · have same : ((watching store runId key run).step w v).run = w.run := by
      simp [watching, visit_parked row parked, begin]
    rw [same]
    exact ⟨s, row, .inr parked⟩

theorem bounded_step_iff {w : Watch} {v : Visit} (unanswered : Unanswered key v.pass)
    (unsettled : Unsettled key w.run) (bounded : Bounded store runId key w) :
    Bounded store runId key ((watching store runId key run).step w v) ↔
      ParksThird store runId key w v := by
  obtain ⟨s, row, awaits | parked⟩ := unsettled
  · have visited : Visited v.pass key s (visit store runId w.run v) :=
      visit_visited awaits row unanswered
    have unparked : ¬ Parked key w.run := by
      rintro ⟨⟨s', sameRow, status⟩, -⟩
      obtain rfl := Option.some.inj (row.symm.trans sameRow)
      simp [awaitsReconciliation, status] at awaits
    have few : w.finds < maxPublicationStepRecoveryAttempts :=
      lt_of_le_of_ne bounded.finds fun third => unparked (bounded.parked third).1
    by_cases mem : .find key ∈ (visit store runId w.run v).calls
    · have next : (watching store runId key run).step w v =
          ⟨(visit store runId w.run v).tx.run, w.finds + 1⟩ := by
        simp [watching, mem]
      rw [next]
      constructor
      · intro after third _
        exact ⟨s, row, (visited.asked mem).mp (after.parked third).1⟩
      · intro parks
        refine ⟨few, fun third => ?_⟩
        obtain ⟨s', sameRow, spent⟩ := parks third mem
        obtain rfl := Option.some.inj (row.symm.trans sameRow)
        have parked := (visited.asked mem).mpr spent
        exact ⟨parked, parked_quiet parked⟩
    · have next : (watching store runId key run).step w v =
          ⟨(visit store runId w.run v).tx.run, w.finds⟩ := by
        simp [watching, mem]
      rw [next]
      refine ⟨fun _ _ asked => absurd asked mem, fun _ => ⟨few.le, fun third => ?_⟩⟩
      exact absurd third few.ne
  · have next : (watching store runId key run).step w v = w := by
      simp [watching, visit_parked row parked, begin]
    rw [next]
    refine ⟨fun _ _ asked => ?_, fun _ => bounded⟩
    simp [visit_parked row parked] at asked

variable (store runId) in
/-- In every run of passes that do not find the effect of an exhausted step, the
search ends with a parked step and publication after three of them exactly when the
third meets `ParksThird`. -/
theorem reconciliation_bounded_iff (exhausted : Exhausted key run) {visits : List Visit}
    (unanswered : ∀ v ∈ visits, Unanswered key v.pass) :
    (∀ w ∈ (watching store runId key run).visited visits, Bounded store runId key w) ↔
      ∀ p ∈ (watching store runId key run).steps visits, ParksThird store runId key p.1 p.2 := by
  have initially : Unsettled key run := by
    obtain ⟨s, row, awaits⟩ := exhausted
    exact ⟨s, row, .inl awaits⟩
  have unasked : Bounded store runId key ⟨run, 0⟩ := ⟨Nat.zero_le _, fun third => by cases third⟩
  exact (watching store runId key run).holds_along_iff (fun v => Unanswered key v.pass)
    (fun w => Unsettled key w.run) (Bounded store runId key) (ParksThird store runId key) initially
    unasked (fun w v allowed h => watching_unsettled allowed h)
    (fun w v allowed h bounded => bounded_step_iff allowed h bounded) visits unanswered

end Visits

def badGateway : PublishError := { PublishError.plain "Bad Gateway" with status := some 502 }

/-- GitHub fails at everything. `reported` says whether the failure of the
publication reaches Review Runs. -/
def outage (plan : Plan) (reported : Bool) : Pass where
  contextError := none
  plan := .ok plan
  find := fun _ => .error badGateway
  effect := fun _ => .error badGateway
  reply := fun r =>
    if r = .failPublication .failed && !reported then .lost false .internal else .answered

theorem outage_unanswered (key : StepKey) (plan : Plan) (reported : Bool) :
    Unanswered key (outage plan reported) :=
  ⟨badGateway, rfl, rfl, by decide⟩

def visitAt (time : Timestamp) (pass : Pass) : Visit where
  db := { Database.empty with clock := time, nextToken := time }
  pass := pass

/-- A run whose result waits to be published. -/
def executedRun (workflow : Workflow) : Run :=
  let admitted := AdmissionStore.insertWith Coordination.defaultStore
    { Coordination.issueRun with workflow := workflow } Database.empty
  ([Coordination.RunAction.markQueued 0 (.obj []),
    .recordExecutionSuccess (some (.obj [])) none].foldl
    (fun tx action => action.result Coordination.defaultStore "run-1" tx) admitted).run

/-- Three passes have tried the step in vain. -/
def exhaustedRun (workflow : Workflow) (plan : Plan) (key : StepKey) : Run :=
  ((watching Coordination.defaultStore "run-1" key (executedRun workflow)).run
    [visitAt 1 (outage plan true), visitAt 2 (outage plan true), visitAt 3 (outage plan true)]).run

def deliveryA : Delivery := ⟨"delivery-a"⟩

def deliveryPlan : Plan := .repositoryReview "main" [deliveryA]

/-- The third pass records the failed search and dies before it reports the publication. -/
def interruptedVisits : List Visit :=
  [visitAt 4 (outage deliveryPlan true), visitAt 5 (outage deliveryPlan true),
    visitAt 6 (outage deliveryPlan false)]

def deliveryRun : Run := exhaustedRun .repositoryReview deliveryPlan (deliveryStepKey deliveryA)

theorem deliveryRun_exhausted : Exhausted (deliveryStepKey deliveryA) deliveryRun := by
  have waits : (deliveryRun.steps.row (deliveryStepKey deliveryA)).any awaitsReconciliation =
      true := by
    decide
  exact (Option.any_eq_true _ _).mp waits

theorem interrupted_last :
    (((watching Coordination.defaultStore "run-1" (deliveryStepKey deliveryA) deliveryRun).run
      (interruptedVisits.take 2)).run.steps.row (deliveryStepKey deliveryA)).any lastRecovery =
      true := by
  decide

theorem interrupted_delivery_parks :
    Parked (deliveryStepKey deliveryA)
      ((watching Coordination.defaultStore "run-1" (deliveryStepKey deliveryA) deliveryRun).run
        interruptedVisits).run := by
  have unanswered : ∀ v ∈ interruptedVisits, Unanswered (deliveryStepKey deliveryA) v.pass := by
    simp [interruptedVisits, visitAt, outage_unanswered]
  have third : ∀ p ∈ (watching Coordination.defaultStore "run-1" (deliveryStepKey deliveryA)
      deliveryRun).steps interruptedVisits,
      ParksThird Coordination.defaultStore "run-1" (deliveryStepKey deliveryA) p.1 p.2 := by
    simp only [interruptedVisits, System.steps, System.stepsFrom, List.mem_cons, List.not_mem_nil,
      or_false]
    rintro p (rfl | rfl | rfl) count asked
    · exact absurd count (by decide)
    · exact absurd count (by decide)
    · obtain ⟨s, row, last⟩ := (Option.any_eq_true _ _).mp interrupted_last
      exact ⟨s, row, ⟨⟨deliveryA, rfl⟩, last, rfl⟩, rfl⟩
  have bounded := (reconciliation_bounded_iff Coordination.defaultStore "run-1"
    deliveryRun_exhausted unanswered).mpr third
  exact ((bounded _ (System.run_visited _ _)).parked (by decide)).1

/-- The comment of an issue review is looked for three times and is not parked. -/
theorem comment_never_parks :
    ¬ ∀ (store : Store) (runId : RunId) (key : StepKey) (run : Run) (visits : List Visit),
      Exhausted key run → (∀ v ∈ visits, Unanswered key v.pass) →
        ∀ w ∈ (watching store runId key run).visited visits, Bounded store runId key w := by
  intro all
  have waits : ((exhaustedRun .issueReview (.issueReview false) "issue:summary-comment").steps.row
      "issue:summary-comment").any awaitsReconciliation = true := by
    decide
  have bounded := all Coordination.defaultStore "run-1" "issue:summary-comment"
    (exhaustedRun .issueReview (.issueReview false) "issue:summary-comment")
    [visitAt 4 (outage (.issueReview false) true), visitAt 5 (outage (.issueReview false) true),
      visitAt 6 (outage (.issueReview false) true)] ((Option.any_eq_true _ _).mp waits)
    (by simp [visitAt, outage_unanswered]) _ (System.run_visited _ _)
  have parked := (bounded.parked (by decide +kernel)).1
  exact absurd parked.axis (by decide +kernel)

end Reconciliation
