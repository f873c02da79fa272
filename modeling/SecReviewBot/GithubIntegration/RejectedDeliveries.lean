import SecReviewBot.ReviewRuns.Coordination
import SecReviewBot.GithubIntegration.StepFrames

/-!
# A rejected delivery

The batch goes on after a failure that is about one delivery only. The store does
not: `failPublicationStep` without a retry ends the publication and drops its
token, and every later step is refused. Here the whole publication of a
repository review runs under one claim with every request answered.
-/

namespace RejectedDeliveries

open KeyedTables ReviewRunsSchema ReviewRunsTransactions ThrowingPrograms PublicationFailure
open ReviewRunsClient Publishers StepRequests StepFrames
open PublicationStore (RemoteObject ownsPublication stepClaimable)

/-- The claim is held. -/
structure Held (work : Work) (w : World) : Prop where
  owns : ownsPublication work.token w.tx.run.publication = true
  kept : w.lost = false

/-- The publication has ended or belongs to another claim. -/
def Closed (work : Work) (w : World) : Prop :=
  ownsPublication work.token w.tx.run.publication = false

def Startable (work : Work) (steps : Table StepKey PublicationStep) (key : StepKey) : Prop :=
  ∃ s, steps.row key = some s ∧ stepClaimable work.token s = true

def StepIs (status : StepStatus) (key : StepKey) (w : World) : Prop :=
  ∃ s, w.tx.run.steps.row key = some s ∧ s.status = status

theorem undecided_of_claimable {token : Token} {s : PublicationStep}
    (claimable : stepClaimable token s = true) :
    s.status ≠ .terminalFailed ∧ s.status ≠ .succeeded := by
  simp only [stepClaimable, Bool.and_eq_true, Bool.or_eq_true, decide_eq_true_eq] at claimable
  rcases claimable.2 with (pending | running) | failed
  · simp [pending]
  · simp [running.1]
  · simp [failed]

theorem stepIs_put {tx : Tx} {key : StepKey} {s : PublicationStep} (calls : List RemoteCall)
    (lost : Bool) :
    StepIs s.status key ⟨updateSteps (fun steps => steps.put key s) tx, calls, lost⟩ :=
  ⟨s, by simp, rfl⟩

/-- What a closed publication answers to a request for a step. -/
def refused (key : StepKey) : PublishError := httpError (PublicationStore.refusal key false)

section Requests

variable {pass : Pass} {work : Work} {key : StepKey} {w : World}

theorem reconcileStep_refused {Q : RemoteObject → World → Prop}
    {E : PublishError → World → Prop} (h : E (refused key) w) :
    Ends (reconcileStep pass work key (refused key)) w Q E :=
  h

variable (answered : ∀ r, pass.reply r = .answered)
include answered

theorem list_ends (point : Reading) {Q : Table StepKey PublicationStep → World → Prop}
    {E : PublishError → World → Prop} (h : Q w.tx.run.steps w) :
    Ends (listPublicationSteps pass point) w Q E := by
  rw [listPublicationSteps, request_answered (answered _), ends_perform]
  exact h

theorem require_startable (held : Held work w) (startable : Startable work w.tx.run.steps key) :
    Ends (requirePublicationStepClaim pass work key) w
      (fun _ t => Held work t ∧ StepIs .running key t) (fun _ _ => False) := by
  obtain ⟨s, row, claimable⟩ := startable
  rw [requirePublicationStepClaim, ends_bind, request_answered (answered _), ends_perform,
    require_granted held.owns row claimable]
  exact ⟨⟨held.owns, held.kept⟩, stepIs_put w.calls w.lost⟩

theorem require_closed (closed : Closed work w) :
    Ends (requirePublicationStepClaim pass work key) w (fun _ _ => False)
      (fun e t => e = refused key ∧ Closed work t ∧ t.calls = w.calls) := by
  rw [requirePublicationStepClaim, ends_bind, request_answered (answered _), ends_perform,
    require_unowned closed]
  exact ⟨rfl, (derive_owns work.token w.tx).trans closed, rfl⟩

theorem assertOwned_held (held : Held work w) (point : Renewal) :
    Ends (assertOwned pass work point) w
      (fun _ t => Held work t ∧ t.tx.run.steps = w.tx.run.steps) (fun _ _ => False) := by
  have renewed : Ends (renewPublicationClaim pass work point) w
      (fun answer t => answer = true ∧ Held work t ∧ t.tx.run.steps = w.tx.run.steps)
      (fun _ _ => False) := by
    rw [renewPublicationClaim, request_answered (answered _), ends_perform]
    simp only [PublicationStore.renewClaim, held.owns, if_true]
    exact ⟨trivial, ⟨held.owns, held.kept⟩, rfl⟩
  rw [assertOwned, ends_bind, ends_get]
  simp only [held.kept, Bool.false_eq_true, if_false]
  rw [ends_bind, ends_attempt]
  refine renewed.mono ?_ fun _ _ impossible => impossible.elim
  rintro answer t ⟨rfl, kept⟩
  exact kept

theorem performStep_ok (held : Held work w) (running : StepIs .running key w)
    {published : Option RemoteObject} (effect : pass.effect key = .ok published) :
    Ends (performStep pass work key) w
      (fun remote t => remote = published.getD ⟨none, none⟩ ∧ Held work t ∧
        StepIs .succeeded key t ∧ .effect key ∈ t.calls) (fun _ _ => False) := by
  rw [performStep, ends_bind]
  refine (assertOwned_held answered held _).mono ?_ fun _ _ impossible => impossible.elim
  rintro - t ⟨held, same⟩
  obtain ⟨s, row, status⟩ := running
  rw [← same] at row
  rw [ends_bind, ends_remote, effect]
  dsimp only
  rw [ends_bind, completePublicationStep, request_answered (answered _), ends_perform,
    complete_running _ held.owns row status]
  exact ⟨rfl, ⟨held.owns, held.kept⟩, stepIs_put _ t.lost,
    List.mem_append_right _ List.mem_cons_self⟩

theorem performStep_error (held : Held work w) (running : StepIs .running key w)
    {e : PublishError} (effect : pass.effect key = .error e) :
    Ends (performStep pass work key) w (fun _ _ => False)
      (fun e' t => e' = e ∧ Held work t ∧ StepIs .running key t ∧ .effect key ∈ t.calls) := by
  rw [performStep, ends_bind]
  refine (assertOwned_held answered held _).mono ?_ fun _ _ impossible => impossible.elim
  rintro - t ⟨held, same⟩
  obtain ⟨s, row, status⟩ := running
  rw [← same] at row
  rw [ends_bind, ends_remote, effect]
  exact ⟨rfl, ⟨held.owns, held.kept⟩, ⟨s, row, status⟩,
    List.mem_append_right _ List.mem_cons_self⟩

theorem publishOrReconcile_ok (held : Held work w)
    (startable : Startable work w.tx.run.steps key) {published : Option RemoteObject}
    (effect : pass.effect key = .ok published) :
    Ends (publishOrReconcileDeliveryDraftPr pass work key) w
      (fun _ t => Held work t ∧ StepIs .succeeded key t ∧ .effect key ∈ t.calls)
      (fun _ _ => False) := by
  rw [publishOrReconcileDeliveryDraftPr, ends_bind, ends_attempt]
  refine (require_startable answered held startable).mono ?_ fun _ _ impossible => impossible.elim
  rintro - t ⟨held, running⟩
  refine (performStep_ok answered held running effect).mono ?_ fun _ _ impossible => impossible
  rintro remote u ⟨-, done⟩
  exact done

theorem publishOrReconcile_error (held : Held work w)
    (startable : Startable work w.tx.run.steps key) {e : PublishError}
    (effect : pass.effect key = .error e) :
    Ends (publishOrReconcileDeliveryDraftPr pass work key) w (fun _ _ => False)
      (fun e' t => e' = e ∧ Held work t ∧ StepIs .running key t ∧ .effect key ∈ t.calls) := by
  rw [publishOrReconcileDeliveryDraftPr, ends_bind, ends_attempt]
  refine (require_startable answered held startable).mono ?_ fun _ _ impossible => impossible.elim
  rintro - t ⟨held, running⟩
  exact performStep_error answered held running effect

theorem publishOrReconcile_closed (closed : Closed work w) :
    Ends (publishOrReconcileDeliveryDraftPr pass work key) w (fun _ _ => False)
      (fun e t => e = refused key ∧ Closed work t) := by
  rw [publishOrReconcileDeliveryDraftPr, ends_bind, ends_attempt]
  refine (require_closed answered closed).mono (fun _ _ impossible => impossible.elim) ?_
  rintro e t ⟨rfl, closed, -⟩
  exact reconcileStep_refused ⟨rfl, closed⟩

end Requests

theorem deliver_startable {pass : Pass} {work : Work} {persisted : Table StepKey PublicationStep}
    {delivery : Delivery} (fresh : Startable work persisted (deliveryStepKey delivery)) :
    deliver pass work (persisted.row (deliveryStepKey delivery)) delivery = (do
      let remote ← publishOrReconcileDeliveryDraftPr pass work (deliveryStepKey delivery)
      pure (some ⟨delivery.deliveryId, remote.url.getD ""⟩)) := by
  obtain ⟨s, row, claimable⟩ := fresh
  exact deliver_undecided row (undecided_of_claimable claimable)

section Deliveries

variable {pass : Pass} {work : Work} {persisted : Table StepKey PublicationStep}
  {delivery : Delivery} {w : World}
variable (answered : ∀ r, pass.reply r = .answered)
include answered

theorem publishDelivery_ok (held : Held work w)
    (fresh : Startable work persisted (deliveryStepKey delivery))
    (startable : Startable work w.tx.run.steps (deliveryStepKey delivery))
    {published : Option RemoteObject}
    (effect : pass.effect (deliveryStepKey delivery) = .ok published) :
    Ends (publishDelivery pass work persisted delivery) w
      (fun _ t => Held work t ∧ StepIs .succeeded (deliveryStepKey delivery) t ∧
        .effect (deliveryStepKey delivery) ∈ t.calls) (fun _ _ => False) := by
  rw [publishDelivery, ends_tryCatch, deliver_startable fresh, ends_bind]
  exact (publishOrReconcile_ok answered held startable effect).mono (fun _ _ done => done)
    fun _ _ impossible => impossible.elim

/-- A failure about this delivery only: the batch goes on, the store has closed. -/
theorem publishDelivery_rejected (held : Held work w)
    (fresh : Startable work persisted (deliveryStepKey delivery))
    (startable : Startable work w.tx.run.steps (deliveryStepKey delivery)) {e : PublishError}
    (effect : pass.effect (deliveryStepKey delivery) = .error e) (ours : e.claimLost = false)
    (scope : (classifyPublicationFailure e).scope = .step) :
    Ends (publishDelivery pass work persisted delivery) w (fun _ t => Closed work t)
      (fun _ _ => False) := by
  rw [publishDelivery, ends_tryCatch, deliver_startable fresh, ends_bind]
  refine (publishOrReconcile_error answered held startable effect).mono
    (fun _ _ impossible => impossible.elim) ?_
  rintro e t ⟨rfl, held, ⟨s, row, running⟩, -⟩
  obtain ⟨failed, ended, closed⟩ := failStep_terminal work.runId
    ⟨(classifyPublicationFailure e).code, e.message⟩ held.owns row running
  simp only [recordDeliveryFailure, ours, Bool.false_eq_true, if_false, scope, reduceCtorEq]
  rw [ends_bind, failPublicationStep, request_answered (answered _), ends_perform,
    retry_of_step scope, ended]
  exact closed work.token

theorem publishDelivery_closed (closed : Closed work w)
    (fresh : Startable work persisted (deliveryStepKey delivery)) :
    Ends (publishDelivery pass work persisted delivery) w (fun _ t => Closed work t)
      (fun _ _ => False) := by
  rw [publishDelivery, ends_tryCatch, deliver_startable fresh, ends_bind]
  refine (publishOrReconcile_closed answered closed).mono
    (fun _ _ impossible => impossible.elim) ?_
  rintro e t ⟨rfl, closed⟩
  obtain ⟨terminal, scope⟩ :=
    refusal_classified (e := refused (deliveryStepKey delivery)) rfl (.inl rfl)
  have ours : (refused (deliveryStepKey delivery)).claimLost = false := rfl
  simp only [recordDeliveryFailure, ours, Bool.false_eq_true, if_false, scope, reduceCtorEq]
  rw [ends_bind, failPublicationStep, request_answered (answered _), ends_perform,
    failStep_unowned _ _ _ closed]
  exact closed

end Deliveries

/-- Only these steps were worked on. -/
structure Around (keys : List StepKey) (w t : World) : Prop where
  rows : ∀ key, key ∉ keys → t.tx.run.steps.row key = w.tx.run.steps.row key
  calls : ∀ c ∈ t.calls, c ∈ w.calls ∨ stepKey c ∈ keys
  kept : ∀ c ∈ w.calls, c ∈ t.calls

theorem around_of_aside {key : StepKey} {keys : List StepKey} {w t u : World}
    (first : Aside key w t) (rest : Around keys t u) : Around (key :: keys) w u where
  rows := by
    intro other outside
    rw [List.mem_cons, not_or] at outside
    rw [rest.rows other outside.2, first.rows other outside.1]
  calls := by
    intro c mem
    rcases rest.calls c mem with mem | mem
    · by_cases mine : stepKey c = key
      · exact .inr (mine ▸ List.mem_cons_self)
      · exact .inl (first.mem_calls mine mem)
    · exact .inr (List.mem_cons_of_mem _ mem)
  kept := fun c mem => rest.kept c (first.calls_kept mem)

theorem around_refl (keys : List StepKey) (w : World) : Around keys w w :=
  ⟨fun _ _ => rfl, fun _ mem => .inl mem, fun _ mem => mem⟩

theorem publishEach_around (pass : Pass) (work : Work)
    (persisted : Table StepKey PublicationStep) (rest : List Delivery) (w : World) :
    Ends (publishEach pass work persisted rest) w
      (fun _ t => Around (rest.map deliveryStepKey) w t)
      (fun _ t => Around (rest.map deliveryStepKey) w t) := by
  induction rest generalizing w with
  | nil => exact around_refl [] w
  | cons delivery rest ih =>
    rw [publishEach, ends_bind]
    refine (publishDelivery_aside persisted delivery w (aside_refl _ w)).mono ?_ ?_
    · intro entry t aside
      rw [ends_bind]
      exact (ih t).mono (fun _ _ around => around_of_aside aside around)
        fun _ _ around => around_of_aside aside around
    · exact fun _ t aside => around_of_aside aside (around_refl _ t)

/-- Later deliveries are not touched by this one. -/
theorem startable_after {work : Work} {delivery : Delivery} {rest : List Delivery} {w t : World}
    (distinct : ((delivery :: rest).map deliveryStepKey).Nodup)
    (aside : Aside (deliveryStepKey delivery) w t)
    (startable : ∀ d ∈ delivery :: rest, Startable work w.tx.run.steps (deliveryStepKey d)) :
    ∀ d ∈ rest, Startable work t.tx.run.steps (deliveryStepKey d) := by
  intro d mem
  rw [List.map_cons, List.nodup_cons] at distinct
  have other : deliveryStepKey d ≠ deliveryStepKey delivery := by
    intro same
    exact distinct.1 (same ▸ List.mem_map_of_mem mem)
  obtain ⟨s, row, claimable⟩ := startable d (List.mem_cons_of_mem _ mem)
  exact ⟨s, (aside.rows _ other).trans row, claimable⟩

section Batch

variable {pass : Pass} {work : Work} {persisted : Table StepKey PublicationStep}
variable (answered : ∀ r, pass.reply r = .answered)
include answered

theorem publishEach_closed {rest : List Delivery} {w : World} (closed : Closed work w)
    (fresh : ∀ d ∈ rest, Startable work persisted (deliveryStepKey d)) :
    Ends (publishEach pass work persisted rest) w (fun _ t => Closed work t)
      (fun _ _ => False) := by
  induction rest generalizing w with
  | nil => exact closed
  | cons delivery rest ih =>
    rw [publishEach, ends_bind]
    refine (publishDelivery_closed answered closed (fresh delivery List.mem_cons_self)).mono ?_
      fun _ _ impossible => impossible
    intro entry t closed
    rw [ends_bind]
    exact ih closed fun d mem => fresh d (List.mem_cons_of_mem _ mem)

theorem publishEach_ok {rest : List Delivery} {w : World} (held : Held work w)
    (distinct : (rest.map deliveryStepKey).Nodup)
    (fresh : ∀ d ∈ rest, Startable work persisted (deliveryStepKey d))
    (startable : ∀ d ∈ rest, Startable work w.tx.run.steps (deliveryStepKey d))
    (effects : ∀ d ∈ rest, ∃ published, pass.effect (deliveryStepKey d) = .ok published) :
    Ends (publishEach pass work persisted rest) w
      (fun _ t => Held work t ∧ ∀ d ∈ rest, StepIs .succeeded (deliveryStepKey d) t ∧
        .effect (deliveryStepKey d) ∈ t.calls) (fun _ _ => False) := by
  induction rest generalizing w with
  | nil => exact ⟨held, by simp⟩
  | cons delivery rest ih =>
    obtain ⟨published, effect⟩ := effects delivery List.mem_cons_self
    rw [publishEach, ends_bind]
    refine ((publishDelivery_ok answered held (fresh delivery List.mem_cons_self)
      (startable delivery List.mem_cons_self) effect).and
        (publishDelivery_aside persisted delivery w (aside_refl _ w))).mono ?_
      fun _ _ impossible => impossible.1
    rintro entry t ⟨⟨held, succeeded, created⟩, aside⟩
    have later := List.nodup_cons.mp distinct
    rw [ends_bind]
    refine ((ih held later.2 (fun d mem => fresh d (List.mem_cons_of_mem _ mem))
      (startable_after distinct aside startable)
      (fun d mem => effects d (List.mem_cons_of_mem _ mem))).and
        (publishEach_around pass work persisted rest t)).mono ?_
      fun _ _ impossible => impossible.1
    rintro entries u ⟨⟨held, done⟩, around⟩
    refine ⟨held, ?_⟩
    intro d mem
    rcases List.mem_cons.mp mem with rfl | mem
    · obtain ⟨s, row, status⟩ := succeeded
      exact ⟨⟨s, (around.rows _ later.1).trans row, status⟩, around.kept _ created⟩
    · exact done d mem

theorem publishEach_rejected {rest : List Delivery} {w : World} (held : Held work w)
    (distinct : (rest.map deliveryStepKey).Nodup)
    (fresh : ∀ d ∈ rest, Startable work persisted (deliveryStepKey d))
    (startable : ∀ d ∈ rest, Startable work w.tx.run.steps (deliveryStepKey d))
    (single : ∀ d ∈ rest, ∀ e, pass.effect (deliveryStepKey d) = .error e →
      e.claimLost = false ∧ (classifyPublicationFailure e).scope = .step)
    (rejected : ∃ d ∈ rest, ∃ e, pass.effect (deliveryStepKey d) = .error e) :
    Ends (publishEach pass work persisted rest) w (fun _ t => Closed work t)
      (fun _ _ => False) := by
  induction rest generalizing w with
  | nil => simp at rejected
  | cons delivery rest ih =>
    have freshLater := fun d mem => fresh d (List.mem_cons_of_mem delivery mem)
    rw [publishEach, ends_bind]
    cases effect : pass.effect (deliveryStepKey delivery) with
    | error e =>
      obtain ⟨ours, scope⟩ := single delivery List.mem_cons_self e effect
      refine (publishDelivery_rejected answered held (fresh delivery List.mem_cons_self)
        (startable delivery List.mem_cons_self) effect ours scope).mono ?_
        fun _ _ impossible => impossible
      intro entry t closed
      rw [ends_bind]
      exact publishEach_closed answered closed freshLater
    | ok published =>
      refine ((publishDelivery_ok answered held (fresh delivery List.mem_cons_self)
        (startable delivery List.mem_cons_self) effect).and
          (publishDelivery_aside persisted delivery w (aside_refl _ w))).mono ?_
        fun _ _ impossible => impossible.1
      rintro entry t ⟨⟨held, -, -⟩, aside⟩
      have later : ∃ d ∈ rest, ∃ e, pass.effect (deliveryStepKey d) = .error e := by
        obtain ⟨d, mem, e, failed⟩ := rejected
        rcases List.mem_cons.mp mem with rfl | mem
        · rw [effect] at failed
          cases failed
        · exact ⟨d, mem, e, failed⟩
      rw [ends_bind]
      exact ih held (List.nodup_cons.mp distinct).2 freshLater
        (startable_after distinct aside startable)
        (fun d mem => single d (List.mem_cons_of_mem _ mem)) later

end Batch

section Summary

variable {pass : Pass} {work : Work} {key : StepKey} {w : World}

theorem recordStepFailure_throws (e : PublishError) (w : World) :
    Ends (recordStepFailure pass work key e) w (fun _ _ => False) (fun _ _ => True) := by
  simp only [recordStepFailure]
  split
  · trivial
  · rw [ends_bind]
    exact ends_trivial _ w

variable (answered : ∀ r, pass.reply r = .answered)
include answered

/-- The step is claimed and performed; what follows depends on how that ends. -/
theorem runPublicationStep_startable (held : Held work w)
    (startable : Startable work w.tx.run.steps key) {Q : PublicationStepRun → World → Prop}
    {E : PublishError → World → Prop}
    (performs : ∀ t, Held work t → StepIs .running key t →
      Ends (tryCatch (performStep pass work key) (recordStepFailure pass work key)) t
        (fun remote u => ∀ previousAttempts, Q ⟨remote, false, false, previousAttempts⟩ u) E) :
    Ends (runPublicationStep pass work key) w Q E := by
  obtain ⟨s, row, claimable⟩ := startable
  have unfinished : (some s).filter (fun s => s.status = .succeeded) = none := by
    have := (undecided_of_claimable claimable).2
    simp [this]
  rw [runPublicationStep, ends_bind]
  refine list_ends answered _ ?_
  simp only [row, unfinished]
  rw [ends_bind, ends_attempt]
  refine (require_startable answered held ⟨s, row, claimable⟩).mono ?_
    fun _ _ impossible => impossible.elim
  rintro - t ⟨held, running⟩
  rw [ends_bind]
  exact (performs t held running).mono (fun _ _ done => done _) fun _ _ failed => failed

theorem runPublicationStep_ok (held : Held work w)
    (startable : Startable work w.tx.run.steps key) {published : Option RemoteObject}
    (effect : pass.effect key = .ok published) :
    Ends (runPublicationStep pass work key) w
      (fun run t => run.remote = published.getD ⟨none, none⟩ ∧ Held work t ∧
        .effect key ∈ t.calls) (fun _ _ => False) := by
  refine runPublicationStep_startable answered held startable ?_
  intro t held running
  rw [ends_tryCatch]
  refine (performStep_ok answered held running effect).mono ?_ fun _ _ impossible => impossible.elim
  rintro remote u ⟨same, held, -, called⟩
  exact fun _ => ⟨same, held, called⟩

theorem runPublicationStep_error (held : Held work w)
    (startable : Startable work w.tx.run.steps key) {e : PublishError}
    (effect : pass.effect key = .error e) :
    Ends (runPublicationStep pass work key) w (fun _ _ => False)
      (fun _ t => .effect key ∈ t.calls) := by
  refine runPublicationStep_startable answered held startable ?_
  intro t held running
  rw [ends_tryCatch]
  refine (performStep_error answered held running effect).mono
    (fun _ _ impossible => impossible.elim) ?_
  rintro e' u ⟨-, -, -, called⟩
  refine ((recordStepFailure_throws e' u).and
    (recordStepFailure_aside e' u (aside_refl key u))).mono ?_ ?_
  · exact fun _ _ impossible => impossible.1.elim
  · exact fun _ _ thrown => thrown.2.calls_kept called

/-- Claimed, the effect is asked for, whatever comes of it. -/
theorem runPublicationStep_attempts (held : Held work w)
    (startable : Startable work w.tx.run.steps key) :
    Ends (runPublicationStep pass work key) w (fun _ t => .effect key ∈ t.calls)
      (fun _ t => .effect key ∈ t.calls) := by
  cases effect : pass.effect key with
  | ok published =>
    exact (runPublicationStep_ok answered held startable effect).mono (fun _ _ done => done.2.2)
      fun _ _ impossible => impossible.elim
  | error e =>
    exact (runPublicationStep_error answered held startable effect).mono
      (fun _ _ impossible => impossible.elim) fun _ _ called => called

/-- Nothing is asked of GitHub for a closed publication. -/
def Quiet (work : Work) (w t : World) : Prop := Closed work t ∧ t.calls = w.calls

theorem runPublicationStep_closed (closed : Closed work w) :
    Ends (runPublicationStep pass work key) w (fun _ t => Quiet work w t)
      (fun _ t => Quiet work w t) := by
  rw [runPublicationStep, ends_bind]
  refine list_ends answered _ ?_
  dsimp only
  split
  · exact ⟨closed, rfl⟩
  · rw [ends_bind, ends_attempt]
    refine (require_closed answered closed).mono (fun _ _ impossible => impossible.elim) ?_
    rintro e t ⟨rfl, closed, same⟩
    rw [ends_bind]
    exact reconcileStep_refused ⟨closed, same⟩

theorem publishSummary_closed (closed : Closed work w) :
    Ends (publishSummary pass work) w (fun _ t => Quiet work w t) (fun _ t => Quiet work w t) := by
  have comment : ∀ t, Quiet work w t → Ends (runPublicationStep pass work summaryCommentKey) t
      (fun _ u => Quiet work w u) (fun _ u => Quiet work w u) := by
    intro t quiet
    exact (runPublicationStep_closed answered quiet.1).mono
      (fun _ u later => ⟨later.1, later.2.trans quiet.2⟩)
      fun _ u later => ⟨later.1, later.2.trans quiet.2⟩
  rw [publishSummary, ends_bind]
  refine list_ends answered _ ?_
  dsimp only
  split
  · rw [ends_bind]
    exact comment w ⟨closed, rfl⟩
  · rw [ends_bind, claimOrReconcileSummaryIssue, ends_bind]
    refine (runPublicationStep_closed answered closed).mono ?_ fun _ _ quiet => quiet
    intro run t quiet
    split
    · rw [ends_pure, ends_bind]
      exact comment t quiet
    · exact quiet

/-- The summary issue gets an issue number in this pass. -/
def IssueNumbered (pass : Pass) : Prop :=
  ∃ remote, pass.effect summaryIssueKey = .ok (some remote) ∧ isIssueNumber remote.id = true

structure Summarised (pass : Pass) (w t : World) : Prop where
  issue : .effect summaryIssueKey ∈ t.calls
  comment : IssueNumbered pass → .effect summaryCommentKey ∈ t.calls
  around : Around [summaryIssueKey, summaryCommentKey] w t

theorem publishSummary_held (held : Held work w)
    (issue : Startable work w.tx.run.steps summaryIssueKey)
    (comment : Startable work w.tx.run.steps summaryCommentKey) :
    Ends (publishSummary pass work) w (fun _ t => Summarised pass w t)
      (fun _ t => Summarised pass w t) := by
  have other : summaryCommentKey ≠ summaryIssueKey := by simp [summaryIssueKey, summaryCommentKey]
  have unrecorded : ((w.tx.run.steps.row summaryIssueKey).any fun s =>
      s.status = .succeeded && truthy s.remoteObjectId) = false := by
    obtain ⟨s, row, claimable⟩ := issue
    simp [row, (undecided_of_claimable claimable).2]
  -- the comment is attempted once the issue has a number, and only then
  have stopped : ∀ t, ¬ IssueNumbered pass → .effect summaryIssueKey ∈ t.calls →
      Aside summaryIssueKey w t → Summarised pass w t := fun t unnumbered called aside =>
    ⟨called, fun numbered => absurd numbered unnumbered,
      around_of_aside aside (around_refl _ t)⟩
  have issueAside := runPublicationStep_aside pass work summaryIssueKey w w (aside_refl _ w)
  rw [publishSummary, ends_bind]
  refine list_ends answered _ ?_
  simp only [unrecorded, Bool.false_eq_true, if_false]
  rw [ends_bind, claimOrReconcileSummaryIssue, ends_bind]
  cases effect : pass.effect summaryIssueKey with
  | error e =>
    have unnumbered : ¬ IssueNumbered pass := by
      rintro ⟨remote, ok, -⟩
      rw [effect] at ok
      cases ok
    exact ((runPublicationStep_error answered held issue effect).and issueAside).mono
      (fun _ _ impossible => impossible.1.elim)
      fun _ t thrown => stopped t unnumbered thrown.1 thrown.2
  | ok published =>
    refine ((runPublicationStep_ok answered held issue effect).and issueAside).mono ?_
      fun _ _ impossible => impossible.1.elim
    rintro run t ⟨⟨same, held, called⟩, aside⟩
    rw [same]
    by_cases number : isIssueNumber (published.getD ⟨none, none⟩).id = true
    · rw [if_pos number, ends_pure, ends_bind]
      have later : Startable work t.tx.run.steps summaryCommentKey := by
        obtain ⟨s, row, claimable⟩ := comment
        exact ⟨s, (aside.rows _ other).trans row, claimable⟩
      have both := (runPublicationStep_attempts answered held later).and
        (runPublicationStep_aside pass work summaryCommentKey t t (aside_refl _ t))
      have summarised : ∀ u, .effect summaryCommentKey ∈ u.calls →
          Aside summaryCommentKey t u → Summarised pass w u := fun u attempted second =>
        ⟨second.calls_kept called, fun _ => attempted,
          around_of_aside aside (around_of_aside second (around_refl _ u))⟩
      exact both.mono (fun _ u done => summarised u done.1 done.2)
        fun _ u done => summarised u done.1 done.2
    · rw [if_neg number]
      refine stopped t ?_ called aside
      rintro ⟨remote, ok, numbered⟩
      rw [effect] at ok
      obtain rfl := Except.ok.inj ok
      exact number numbered

end Summary

/-- No step is stored yet, or the stored ones are those of this run and every one
of them can still be started. -/
def Ready (work : Work) (keys : List StepKey) (steps : Table StepKey PublicationStep) : Prop :=
  steps.keys = [] ∨
    PublicationStore.sortKeys steps.keys = PublicationStore.sortKeys keys ∧
      ∀ key ∈ keys, Startable work steps key

theorem initialize_ready {pass : Pass} {work : Work} {keys : List StepKey} {w : World}
    (answered : ∀ r, pass.reply r = .answered) (held : Held work w) (distinct : keys.Nodup)
    (nonempty : keys ≠ []) (ready : Ready work keys w.tx.run.steps) :
    Ends (initializePublicationSteps pass work keys) w
      (fun _ t => Held work t ∧ (∀ key ∈ keys, Startable work t.tx.run.steps key) ∧
        t.calls = w.calls) (fun _ _ => False) := by
  rw [initializePublicationSteps, request_answered (answered _), ends_perform]
  rcases ready with empty | ⟨same, startable⟩
  · simp only [PublicationStore.initializePublicationSteps, distinct, held.owns, empty, not_true,
      if_false, Bool.not_true, Bool.false_eq_true, if_true]
    refine ⟨⟨held.owns, held.kept⟩, ?_, trivial⟩
    intro key mem
    have sorted : key ∈ PublicationStore.sortKeys keys :=
      (List.perm_insertionSort _ keys).mem_iff.mpr mem
    refine ⟨PublicationStore.newStep w.tx.now, ?_, rfl⟩
    rw [updateSteps, PublicationStore.insertSteps, Table.foldl_put_row, if_pos sorted]
  · have stored : w.tx.run.steps.keys ≠ [] := by
      intro empty
      obtain ⟨key, mem⟩ := List.exists_mem_of_ne_nil keys nonempty
      obtain ⟨s, row, -⟩ := startable key mem
      have := Table.mem_keys_of_row row
      simp [empty] at this
    simp only [PublicationStore.initializePublicationSteps, distinct, held.owns, stored, same,
      not_true, if_false, Bool.not_true, Bool.false_eq_true, ne_eq]
    exact ⟨held, startable, trivial⟩

/-- A repository review published under one claim, in which a failing delivery
fails for itself only. -/
structure Uninterrupted (pass : Pass) (work : Work) (workspaceRef : String)
    (deliveries : List Delivery) (tx : Tx) : Prop where
  answered : ∀ r, pass.reply r = .answered
  workspace : workspaceRef ≠ ""
  distinct : (deliveries.map (·.deliveryId)).Nodup
  owns : ownsPublication work.token tx.run.publication = true
  ready : Ready work (repositoryStepKeys deliveries) tx.run.steps
  single : ∀ d ∈ deliveries, ∀ e, pass.effect (deliveryStepKey d) = .error e →
    e.claimLost = false ∧ (classifyPublicationFailure e).scope = .step

/-- Every delivery is attempted, the summary steps are executed, and what was
created is recorded. -/
structure Reached (pass : Pass) (deliveries : List Delivery) (t : World) : Prop where
  attempted : ∀ d ∈ deliveries, .effect (deliveryStepKey d) ∈ t.calls
  summary : .effect summaryIssueKey ∈ t.calls
  comment : IssueNumbered pass → .effect summaryCommentKey ∈ t.calls
  recorded : ∀ d ∈ deliveries, (∃ published, pass.effect (deliveryStepKey d) = .ok published) →
    StepIs .succeeded (deliveryStepKey d) t

section Publication

variable {pass : Pass} {work : Work} {workspaceRef : String} {deliveries : List Delivery} {tx : Tx}

/-- What the deliveries find when the steps have been initialized. -/
theorem publication_begins (h : Uninterrupted pass work workspaceRef deliveries tx)
    {Q : Unit → World → Prop} {E : PublishError → World → Prop}
    (begins : ∀ w, Held work w → w.calls = [] →
      (∀ key ∈ repositoryStepKeys deliveries, Startable work w.tx.run.steps key) →
      Ends (publishEach pass work w.tx.run.steps deliveries) w
        (fun _ t => Ends (publishSummary pass work) t Q E) E) :
    Ends (publishRepositoryReviewResult pass work workspaceRef deliveries) ⟨tx, [], false⟩ Q E := by
  have keys := repositoryStepKeys_nodup h.distinct
  have nonempty : repositoryStepKeys deliveries ≠ [] := by simp [repositoryStepKeys]
  have held : Held work ⟨tx, [], false⟩ := ⟨h.owns, rfl⟩
  rw [publishRepositoryReviewResult, ends_bind]
  refine (initialize_ready h.answered held keys nonempty h.ready).mono ?_
    fun _ _ impossible => impossible.elim
  rintro - w ⟨held, startable, called⟩
  rw [ends_bind, publishDeliveryDraftPrs, if_neg h.workspace, ends_bind]
  exact list_ends h.answered _ (begins w held called startable)

theorem delivery_key_mem {d : Delivery} (mem : d ∈ deliveries) :
    deliveryStepKey d ∈ repositoryStepKeys deliveries :=
  List.mem_append_left _ (List.mem_map_of_mem mem)

/-- Beside the deliveries' keys, only the summary's. -/
theorem summary_not_delivery {key : StepKey} (letter : key.toList[11]? ≠ some 'd') :
    key ∉ deliveries.map deliveryStepKey := by
  intro mem
  obtain ⟨d, -, same⟩ := List.mem_map.mp mem
  exact deliveryStepKey_ne letter same

/-- A publication whose deliveries all succeed runs to its end. -/
theorem all_reached (h : Uninterrupted pass work workspaceRef deliveries tx)
    (effects : ∀ d ∈ deliveries, ∃ published, pass.effect (deliveryStepKey d) = .ok published) :
    Ends (publishRepositoryReviewResult pass work workspaceRef deliveries) ⟨tx, [], false⟩
      (fun _ t => Reached pass deliveries t) (fun _ t => Reached pass deliveries t) := by
  have keys := repositoryStepKeys_nodup h.distinct
  refine publication_begins h ?_
  intro w held called startable
  have each := fun d (mem : d ∈ deliveries) => startable _ (delivery_key_mem mem)
  refine ((publishEach_ok h.answered held (List.Nodup.of_append_left keys) each each effects).and
    (publishEach_around pass work _ deliveries w)).mono ?_ fun _ _ impossible => impossible.1.elim
  rintro entries t ⟨⟨held, done⟩, around⟩
  have untouched : ∀ key, key ∈ [summaryIssueKey, summaryCommentKey] →
      key.toList[11]? ≠ some 'd' → Startable work t.tx.run.steps key := by
    intro key mem letter
    obtain ⟨s, row, claimable⟩ := startable key (List.mem_append_right _ mem)
    exact ⟨s, (around.rows _ (summary_not_delivery letter)).trans row, claimable⟩
  have finish : ∀ u, Summarised pass t u → Reached pass deliveries u := by
    intro u summarised
    refine ⟨fun d mem => summarised.around.kept _ (done d mem).2, summarised.issue,
      summarised.comment, fun d mem _ => ?_⟩
    obtain ⟨s, row, status⟩ := (done d mem).1
    refine ⟨s, (summarised.around.rows _ ?_).trans row, status⟩
    simp only [List.mem_cons, List.not_mem_nil, or_false, not_or]
    exact ⟨deliveryStepKey_ne summaryIssueKey_letter, deliveryStepKey_ne summaryCommentKey_letter⟩
  have summarised := publishSummary_held h.answered held
    (untouched summaryIssueKey (by simp) summaryIssueKey_letter)
    (untouched summaryCommentKey (by simp) summaryCommentKey_letter)
  exact summarised.mono (fun _ u => finish u) fun _ u => finish u

/-- One rejected delivery, and the summary is never executed. -/
theorem summary_silenced (h : Uninterrupted pass work workspaceRef deliveries tx)
    (rejected : ∃ d ∈ deliveries, ∃ e, pass.effect (deliveryStepKey d) = .error e) :
    Ends (publishRepositoryReviewResult pass work workspaceRef deliveries) ⟨tx, [], false⟩
      (fun _ t => .effect summaryIssueKey ∉ t.calls)
      (fun _ t => .effect summaryIssueKey ∉ t.calls) := by
  have keys := repositoryStepKeys_nodup h.distinct
  refine publication_begins h ?_
  intro w held called startable
  have each := fun d (mem : d ∈ deliveries) => startable _ (delivery_key_mem mem)
  refine ((publishEach_rejected h.answered held (List.Nodup.of_append_left keys) each each h.single
    rejected).and (publishEach_around pass work _ deliveries w)).mono ?_
    fun _ _ impossible => impossible.1.elim
  rintro entries t ⟨closed, around⟩
  have silent : ∀ u, Quiet work t u → .effect summaryIssueKey ∉ u.calls := by
    intro u quiet mem
    rw [quiet.2] at mem
    rcases around.calls _ mem with before | mine
    · simp [called] at before
    · exact summary_not_delivery summaryIssueKey_letter mine
  exact (publishSummary_closed h.answered closed).mono (fun _ u => silent u) fun _ u => silent u

/-- A repository publication reaches its other deliveries and its summary exactly
when no delivery is rejected. -/
theorem rejected_deliveries_isolated_iff
    (h : Uninterrupted pass work workspaceRef deliveries tx) :
    Reached pass deliveries
        (final (publishRepositoryReviewResult pass work workspaceRef deliveries) ⟨tx, [], false⟩) ↔
      ∀ d ∈ deliveries, ∃ published, pass.effect (deliveryStepKey d) = .ok published := by
  constructor
  · intro reached d mem
    cases effect : pass.effect (deliveryStepKey d) with
    | ok published => exact ⟨published, rfl⟩
    | error e =>
      have silenced := ends_final.mp (summary_silenced h ⟨d, mem, e, effect⟩)
      exact absurd reached.summary silenced
  · exact fun effects => ends_final.mp (all_reached h effects)

end Publication

/-- GitHub rejects what it cannot validate. -/
def unprocessable : PublishError :=
  { PublishError.plain "Validation failed." with status := some 422 }

def draftPr : RemoteObject := ⟨some "12", some "https://example.test/pull/12"⟩

def deliveryA : Delivery := ⟨"delivery-a"⟩
def deliveryB : Delivery := ⟨"delivery-b"⟩

/-- GitHub creates everything but the draft pull requests of these deliveries. -/
def rejecting (rejected : List Delivery) : Pass where
  contextError := none
  plan := .ok (.repositoryReview "main" [deliveryA, deliveryB])
  find := fun _ => .ok none
  effect := fun key =>
    if key ∈ rejected.map deliveryStepKey then .error unprocessable else .ok (some draftPr)
  reply := fun _ => .answered

/-- A repository review that has been executed and claimed for publication; the
token is 1. -/
def claimedTx : Tx :=
  let admitted := AdmissionStore.insertWith Coordination.defaultStore
    { Coordination.issueRun with workflow := .repositoryReview } Database.empty
  [Coordination.RunAction.markQueued 0 (.obj []),
    .recordExecutionSuccess (some (.obj [])) none, .claimPublication].foldl
    (fun tx action => action.result Coordination.defaultStore "run-1" tx) admitted

theorem rejecting_uninterrupted (rejected : List Delivery) :
    Uninterrupted (rejecting rejected) ⟨"run-1", 1⟩ "main" [deliveryA, deliveryB] claimedTx where
  answered := fun _ => rfl
  workspace := by decide
  distinct := by decide
  owns := by decide
  ready := .inl rfl
  single := by
    intro d _ e failed
    simp only [rejecting] at failed
    split at failed
    · obtain rfl := Except.error.inj failed
      exact ⟨rfl, by decide⟩
    · cases failed

theorem unrejected_reached :
    Reached (rejecting []) [deliveryA, deliveryB]
      (final (publishRepositoryReviewResult (rejecting []) ⟨"run-1", 1⟩ "main"
        [deliveryA, deliveryB]) ⟨claimedTx, [], false⟩) :=
  (rejected_deliveries_isolated_iff (rejecting_uninterrupted [])).mpr
    fun _ _ => ⟨some draftPr, rfl⟩

/-- The first of two deliveries is rejected, and the summary is not written. -/
theorem rejection_silences_summary :
    ¬ ∀ (pass : Pass) (work : Work) (workspaceRef : String) (deliveries : List Delivery) (tx : Tx),
      Uninterrupted pass work workspaceRef deliveries tx → Reached pass deliveries
        (final (publishRepositoryReviewResult pass work workspaceRef deliveries)
          ⟨tx, [], false⟩) := by
  intro isolated
  have uninterrupted := rejecting_uninterrupted [deliveryA]
  have reached := isolated _ _ _ _ _ uninterrupted
  have rejected : (rejecting [deliveryA]).effect (deliveryStepKey deliveryA) =
      .error unprocessable := by
    simp [rejecting]
  have silenced := ends_final.mp
    (summary_silenced uninterrupted ⟨deliveryA, by simp, unprocessable, rejected⟩)
  exact silenced reached.summary

end RejectedDeliveries
