import SecReviewBot.ReviewRuns.StepRequests
import SecReviewBot.GithubIntegration.PublicationCoordinator

/-!
# What publishing one step leaves alone

Whatever happens while a publisher is at one step, whichever requests are lost
and however it ends, the other steps keep their rows and GitHub is asked for
nothing that belongs to another step.
-/

namespace StepFrames

open KeyedTables ReviewRunsSchema ReviewRunsTransactions ThrowingPrograms PublicationFailure
open ReviewRunsClient Publishers StepRequests
open PublicationStore (RemoteObject)

def stepKey : RemoteCall → StepKey
  | .find key => key
  | .effect key => key

/-- Only `key` was worked on. -/
structure Aside (key : StepKey) (w t : World) : Prop where
  rows : Beside key w.tx t.tx
  calls : ∃ more, t.calls = w.calls ++ more ∧ ∀ c ∈ more, stepKey c = key

variable {pass : Pass} {work : Work} {key : StepKey} {w₀ : World}

theorem aside_refl (key : StepKey) (w : World) : Aside key w w :=
  ⟨beside_of_steps rfl, [], by simp, by simp⟩

theorem Aside.call {w : World} (h : Aside key w₀ w) {c : RemoteCall} (mine : stepKey c = key) :
    Aside key w₀ { w with calls := w.calls ++ [c] } := by
  obtain ⟨more, calls, about⟩ := h.calls
  refine ⟨h.rows, more ++ [c], by simp [calls], ?_⟩
  intro other mem
  rcases List.mem_append.mp mem with mem | mem
  · exact about other mem
  · rw [List.mem_singleton.mp mem, mine]

/-- A call for another step was there before. -/
theorem Aside.mem_calls {w : World} (h : Aside key w₀ w) {c : RemoteCall} (other : stepKey c ≠ key)
    (mem : c ∈ w.calls) : c ∈ w₀.calls := by
  obtain ⟨more, calls, about⟩ := h.calls
  rw [calls] at mem
  exact (List.mem_append.mp mem).elim id fun new => absurd (about c new) other

theorem Aside.calls_kept {w : World} (h : Aside key w₀ w) {c : RemoteCall}
    (mem : c ∈ w₀.calls) : c ∈ w.calls := by
  obtain ⟨more, calls, -⟩ := h.calls
  rw [calls]
  exact List.mem_append_left _ mem

theorem request_aside {α : Type} {r : Request} {body : Tx → Outcome α}
    (beside : ∀ tx answer next, body tx = .ok (answer, next) → Beside key tx next) :
    Keeps (Aside key w₀) (request pass r body) := by
  apply keeps_request
  intro w answer tx aside result
  exact ⟨aside.rows.trans (beside w.tx answer tx result), aside.calls⟩

theorem remote_aside {c : RemoteCall} (mine : stepKey c = key)
    (answer : Except PublishError (Option RemoteObject)) :
    Keeps (Aside key w₀) (remote c answer) := by
  intro w aside
  rw [ends_remote]
  cases answer <;> exact aside.call mine

/-- A renewal moves neither the steps nor the calls. -/
theorem assertOwned_keeps {P : World → Prop} (point : Renewal)
    (moves : ∀ w tx, tx.run.steps = w.tx.run.steps → P w → P { w with tx := tx })
    (flags : ∀ w, P w → P { w with lost := true }) :
    Keeps P (assertOwned pass work point) := by
  have renewed : Keeps P (renewPublicationClaim pass work point) :=
    keeps_request fun w _ tx kept result => moves w tx (renew_steps result) kept
  refine Keeps.bind (fun _ kept => kept) fun w => ?_
  split
  · exact keeps_throw _
  · refine Keeps.bind renewed.attempt fun answer => ?_
    split
    · exact keeps_pure _
    · exact Keeps.bind flags fun _ => keeps_throw _

theorem assertOwned_aside (point : Renewal) :
    Keeps (Aside key w₀) (assertOwned pass work point) :=
  assertOwned_keeps point
    (fun _ _ same aside => ⟨aside.rows.trans (beside_of_steps same), aside.calls⟩)
    fun _ aside => ⟨aside.rows, aside.calls⟩

theorem list_aside (point : Reading) :
    Keeps (Aside key w₀) (listPublicationSteps pass point) :=
  request_aside fun _ _ _ result => by
    cases result
    exact beside_of_steps rfl

theorem require_aside : Keeps (Aside key w₀) (requirePublicationStepClaim pass work key) := by
  refine Keeps.bind (request_aside fun _ _ _ => require_beside) fun claim => ?_
  cases claim with
  | granted => exact keeps_pure _
  | refused e => exact keeps_throw _

theorem failStep_aside (failure : Failure) (retry : Bool) :
    Keeps (Aside key w₀) (failPublicationStep pass work key failure retry) :=
  request_aside fun _ _ _ => failStep_beside

theorem reconcileStep_aside (refused : PublishError) :
    Keeps (Aside key w₀) (reconcileStep pass work key refused) := by
  have settled : Keeps (Aside key w₀) (settleExhaustedStep pass work key) := by
    refine Keeps.bind (remote_aside (c := .find key) rfl _) fun found => ?_
    refine Keeps.bind (request_aside fun _ _ _ => settle_beside) fun accepted => ?_
    split <;> exact keeps_pure _
  simp only [reconcileStep]
  split
  · refine Keeps.bind settled fun outcome => ?_
    split
    · exact keeps_pure _
    · exact keeps_throw _
  · exact keeps_throw _

theorem performStep_aside : Keeps (Aside key w₀) (performStep pass work key) := by
  refine Keeps.bind (assertOwned_aside _) fun _ => ?_
  refine Keeps.bind (remote_aside (c := .effect key) rfl _) fun published => ?_
  refine Keeps.bind (request_aside fun _ _ _ => complete_beside) fun accepted => ?_
  split
  · exact keeps_pure _
  · exact keeps_throw _

theorem recordStepFailure_aside (e : PublishError) :
    Keeps (Aside key w₀) (recordStepFailure pass work key e) := by
  simp only [recordStepFailure]
  split
  · exact keeps_throw _
  · exact Keeps.bind (failStep_aside _ _) fun _ => keeps_throw _

variable (pass work) in
theorem runPublicationStep_aside (key : StepKey) (w₀ : World) :
    Keeps (Aside key w₀) (runPublicationStep pass work key) := by
  refine Keeps.bind (list_aside _) fun steps => ?_
  dsimp only
  split
  · exact keeps_pure _
  · refine Keeps.bind require_aside.attempt fun claim => ?_
    split
    · exact Keeps.bind (reconcileStep_aside _) fun _ => keeps_pure _
    · exact Keeps.bind (performStep_aside.tryCatch recordStepFailure_aside) fun _ => keeps_pure _

theorem publishOrReconcile_aside :
    Keeps (Aside key w₀) (publishOrReconcileDeliveryDraftPr pass work key) := by
  refine Keeps.bind require_aside.attempt fun claim => ?_
  split
  · exact reconcileStep_aside _
  · exact performStep_aside

/-- A delivery whose step has no outcome yet is published. -/
theorem deliver_undecided {persisted : Table StepKey PublicationStep} {delivery : Delivery}
    {s : PublicationStep} (row : persisted.row (deliveryStepKey delivery) = some s)
    (undecided : s.status ≠ .terminalFailed ∧ s.status ≠ .succeeded) :
    deliver pass work (persisted.row (deliveryStepKey delivery)) delivery = (do
      let remote ← publishOrReconcileDeliveryDraftPr pass work (deliveryStepKey delivery)
      pure (some ⟨delivery.deliveryId, remote.url.getD ""⟩)) := by
  have unrecorded : (some s).filter recordedDraftPr = none := by
    simp [recordedDraftPr, undecided.2]
  simp [deliver, row, undecided.1, unrecorded]

theorem publishDelivery_aside (persisted : Table StepKey PublicationStep) (delivery : Delivery) :
    Keeps (Aside (deliveryStepKey delivery) w₀)
      (publishDelivery pass work persisted delivery) := by
  refine Keeps.tryCatch ?_ fun e => ?_
  · simp only [deliver]
    split
    · exact keeps_pure _
    · split
      · exact keeps_pure _
      · exact Keeps.bind publishOrReconcile_aside fun _ => keeps_pure _
  · simp only [recordDeliveryFailure]
    split
    · exact keeps_throw _
    · refine Keeps.bind (failStep_aside _ _) fun _ => ?_
      split
      · exact keeps_throw _
      · exact keeps_pure _

end StepFrames
