import SecReviewBot.GithubIntegration.ReviewRunsClient

/-!
# The publishers

`publication-step.ts` drives one step to a recorded outcome and
`settle-exhausted-step.ts` concludes one that has no attempt left. The issue,
pull request and repository publishers put their steps in order; the deliveries
of a repository review are a batch that records its failures itself.
-/

namespace Publishers

open KeyedTables ReviewRunsSchema ReviewRunsTransactions ThrowingPrograms PublicationFailure
open ReviewRunsClient
open PublicationStore (RemoteObject)

variable (pass : Pass) (work : Work)

/-- `renewSerially` of `withPublicationHeartbeat`, handed to the publishers as
`assert_publication_claim`. A claim that was lost once stays lost. -/
def assertOwned (point : Renewal) : Publishing Unit := do
  if (← get).lost then throw (.lostClaim work.runId)
  else
    match ← attempt (renewPublicationClaim pass work point) with
    | .ok true => pure ()
    | _ =>
      modify fun w => { w with lost := true }
      throw (.lostClaim work.runId)

/-- What Review Runs now stores; `recorded none` is a `terminal_failed` step. -/
inductive SettleExhaustedOutcome where
  | recorded (remote : Option RemoteObject)
  | notOwned

def settleExhaustedStep (stepKey : StepKey) : Publishing SettleExhaustedOutcome := do
  let found ← remote (.find stepKey) (pass.find stepKey)
  if ← settleExhaustedPublicationStep pass work stepKey found then pure (.recorded found)
  else pure .notOwned

structure PublicationStepRun where
  remote : RemoteObject
  alreadySucceeded : Bool
  reconciled : Bool
  previousAttempts : Nat

/-- The step was refused because it has no attempt left, and the refusal stands
unless the effect is found. -/
def reconcileStep (stepKey : StepKey) (refused : PublishError) : Publishing RemoteObject := do
  if isPublicationStepExhausted refused then
    match ← settleExhaustedStep pass work stepKey with
    | .recorded (some found) => pure found
    | _ => throw refused
  else throw refused

/-- The side effect of a claimed step, and its completion. -/
def performStep (stepKey : StepKey) : Publishing RemoteObject := do
  assertOwned pass work (.step stepKey)
  let published := (← remote (.effect stepKey) (pass.effect stepKey)).getD ⟨none, none⟩
  if ← completePublicationStep pass work stepKey published then pure published
  else throw (.lostClaim work.runId)

/-- A failure is recorded on the step and rethrown. -/
def recordStepFailure (stepKey : StepKey) (e : PublishError) : Publishing RemoteObject := do
  if e.claimLost then throw e
  else
    let failure := classifyPublicationFailure e
    let _ ← failPublicationStep pass work stepKey ⟨failure.code, e.message⟩ failure.retry
    throw e

def runPublicationStep (stepKey : StepKey) : Publishing PublicationStepRun := do
  let step := (← listPublicationSteps pass (.step stepKey)).row stepKey
  let previousAttempts := step.elim 0 (·.attemptCount)
  match step.filter fun s => s.status = .succeeded with
  | some s => pure ⟨⟨s.remoteObjectId, s.remoteObjectUrl⟩, true, false, previousAttempts⟩
  | none =>
    match ← attempt (requirePublicationStepClaim pass work stepKey) with
    | .error refused =>
      let found ← reconcileStep pass work stepKey refused
      pure ⟨found, true, true, previousAttempts⟩
    | .ok _ =>
      let published ← tryCatch (performStep pass work stepKey)
        (recordStepFailure pass work stepKey)
      pure ⟨published, false, false, previousAttempts⟩

def deliveryStepKey (delivery : Delivery) : StepKey :=
  "repository:delivery:" ++ delivery.deliveryId

/-- The publish-time entry of the summary; its other fields are content. -/
structure PublishedDeliveryEntry where
  deliveryId : String
  htmlUrl : String

/-- A delivery's failure is not recorded here: the batch does that. -/
def publishOrReconcileDeliveryDraftPr (stepKey : StepKey) : Publishing RemoteObject := do
  match ← attempt (requirePublicationStepClaim pass work stepKey) with
  | .error refused => reconcileStep pass work stepKey refused
  | .ok _ => performStep pass work stepKey

/-- A JavaScript string that is neither absent nor empty. -/
def truthy (s : Option String) : Bool := s.any fun s => s ≠ ""

/-- The draft pull request an earlier pass recorded. -/
def recordedDraftPr (s : PublicationStep) : Bool :=
  s.status = .succeeded && truthy s.remoteObjectId && truthy s.remoteObjectUrl

/-- The body of the loop over the deliveries, inside its `try`. -/
def deliver (persisted : Option PublicationStep) (delivery : Delivery) :
    Publishing (Option PublishedDeliveryEntry) := do
  if persisted.any fun s => s.status = .terminalFailed then pure none
  else
    let url ← match persisted.filter recordedDraftPr with
      | some s => pure s.remoteObjectUrl
      | none => do pure (← publishOrReconcileDeliveryDraftPr pass work (deliveryStepKey delivery)).url
    pure (some ⟨delivery.deliveryId, url.getD ""⟩)

/-- Its `catch`: record the failure, and abort when it is about more than this
delivery. -/
def recordDeliveryFailure (delivery : Delivery) (e : PublishError) :
    Publishing (Option PublishedDeliveryEntry) := do
  if e.claimLost then throw e
  else
    let failure := classifyPublicationFailure e
    let _ ← failPublicationStep pass work (deliveryStepKey delivery) ⟨failure.code, e.message⟩
      failure.retry
    if failure.scope = .publication then
      throw (.plain s!"Failed to publish repository delivery {delivery.deliveryId}: {e.message}")
    else pure none

def publishDelivery (persisted : Table StepKey PublicationStep) (delivery : Delivery) :
    Publishing (Option PublishedDeliveryEntry) :=
  tryCatch (deliver pass work (persisted.row (deliveryStepKey delivery)) delivery)
    (recordDeliveryFailure pass work delivery)

def publishEach (persisted : Table StepKey PublicationStep) :
    List Delivery → Publishing (List PublishedDeliveryEntry)
  | [] => pure []
  | delivery :: rest => do
    let entry ← publishDelivery pass work persisted delivery
    let entries ← publishEach persisted rest
    pure (entry.toList ++ entries)

/-- `workspaceRef` is trimmed. -/
def publishDeliveryDraftPrs (workspaceRef : String) (deliveries : List Delivery) :
    Publishing (List PublishedDeliveryEntry) := do
  if workspaceRef = "" then
    throw (.plain ("Repository publish context is missing workspace_ref before "
      ++ "delivery branch creation."))
  else
    let persisted ← listPublicationSteps pass .deliveries
    publishEach pass work persisted deliveries

def summaryIssueKey : StepKey := "repository:summary-issue"
def summaryCommentKey : StepKey := "repository:summary-comment"

/-- The value of a decimal numeral, as `String(number)` writes it. -/
def numeral (s : String) : Nat := s.toList.foldl (fun n c => 10 * n + (c.toNat - '0'.toNat)) 0

/-- `Number(id)` is a safe integer from 1 on. -/
def isIssueNumber (id : Option String) : Bool :=
  id.any fun s => s.toList.all Char.isDigit && 1 ≤ numeral s && numeral s ≤ 9007199254740991

def claimOrReconcileSummaryIssue : Publishing Unit := do
  let step ← runPublicationStep pass work summaryIssueKey
  if isIssueNumber step.remote.id then pure ()
  else throw (.plain "Repository summary issue step is succeeded without a recorded issue number.")

/-- The steps of a repository review, deliveries first. -/
def repositoryStepKeys (deliveries : List Delivery) : List StepKey :=
  deliveries.map deliveryStepKey ++ [summaryIssueKey, summaryCommentKey]

/-- The two summary steps, after the deliveries. -/
def publishSummary : Publishing Unit := do
  let steps ← listPublicationSteps pass .summary
  let recorded := (steps.row summaryIssueKey).any fun s =>
    s.status = .succeeded && truthy s.remoteObjectId
  if recorded then
    let _ ← runPublicationStep pass work summaryCommentKey
  else
    claimOrReconcileSummaryIssue pass work
    let _ ← runPublicationStep pass work summaryCommentKey

def publishRepositoryReviewResult (workspaceRef : String) (deliveries : List Delivery) :
    Publishing Unit := do
  initializePublicationSteps pass work (repositoryStepKeys deliveries)
  let _ ← publishDeliveryDraftPrs pass work workspaceRef deliveries
  publishSummary pass work

/-- A delivery's key is none of the fixed ones. -/
theorem deliveryStepKey_letter (delivery : Delivery) :
    (deliveryStepKey delivery).toList[11]? = some 'd' := by
  have letters : (deliveryStepKey delivery).toList =
      "repository:delivery:".toList ++ delivery.deliveryId.toList := String.toList_append
  rw [letters]
  simp

theorem deliveryStepKey_inj {a b : Delivery} (h : deliveryStepKey a = deliveryStepKey b) :
    a.deliveryId = b.deliveryId := by
  have letters : "repository:delivery:".toList ++ a.deliveryId.toList =
      "repository:delivery:".toList ++ b.deliveryId.toList := by
    rw [← String.toList_append, ← String.toList_append]
    exact congrArg String.toList h
  exact String.toList_inj.mp (List.append_cancel_left letters)

theorem deliveryStepKey_ne {delivery : Delivery} {key : StepKey}
    (h : key.toList[11]? ≠ some 'd') : deliveryStepKey delivery ≠ key := by
  rintro rfl
  exact h (deliveryStepKey_letter delivery)

theorem summaryIssueKey_letter : summaryIssueKey.toList[11]? ≠ some 'd' := by
  simp [summaryIssueKey]

theorem summaryCommentKey_letter : summaryCommentKey.toList[11]? ≠ some 'd' := by
  simp [summaryCommentKey]

theorem repositoryStepKeys_nodup {deliveries : List Delivery}
    (distinct : (deliveries.map (·.deliveryId)).Nodup) :
    (repositoryStepKeys deliveries).Nodup := by
  have keys : (deliveries.map deliveryStepKey).Nodup := by
    rw [List.nodup_map_iff_inj_on (List.Nodup.of_map _ distinct)]
    intro a ha b hb same
    exact List.inj_on_of_nodup_map distinct ha hb (deliveryStepKey_inj same)
  have summary : [summaryIssueKey, summaryCommentKey].Nodup := by
    simp [summaryIssueKey, summaryCommentKey]
  refine keys.append summary ?_
  intro key mem fixed
  obtain ⟨delivery, -, rfl⟩ := List.mem_map.mp mem
  simp only [List.mem_cons, List.not_mem_nil, or_false] at fixed
  rcases fixed with same | same
  · exact deliveryStepKey_ne summaryIssueKey_letter same
  · exact deliveryStepKey_ne summaryCommentKey_letter same

def publishIssueReviewResult (shouldOpenPr : Bool) : Publishing Unit := do
  if shouldOpenPr then
    initializePublicationSteps pass work ["issue:draft-pr", "issue:summary-comment"]
    let _ ← runPublicationStep pass work "issue:draft-pr"
    let _ ← runPublicationStep pass work "issue:summary-comment"
  else
    initializePublicationSteps pass work ["issue:summary-comment"]
    let _ ← runPublicationStep pass work "issue:summary-comment"

def publishPullRequestReviewResult : Publishing Unit := do
  initializePublicationSteps pass work ["pull-request:review"]
  let _ ← runPublicationStep pass work "pull-request:review"

end Publishers
