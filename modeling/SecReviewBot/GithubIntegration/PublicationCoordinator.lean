import SecReviewBot.GithubIntegration.Publishers

/-!
# `publication-coordinator.ts`

One pass claims a run, publishes it under a heartbeat, and reports how that
ended. The renewals of the timer only move the lease and are left out; the ones
a publisher waits for are here.
-/

namespace PublicationCoordinator

open ReviewRunsSchema ReviewRunsTransactions ThrowingPrograms PublicationFailure
open ReviewRunsClient Publishers

variable (pass : Pass) (work : Work)

def publishWork : Publishing Unit :=
  match pass.plan with
  | .error e => throw e
  | .ok (.issueReview shouldOpenPr) => publishIssueReviewResult pass work shouldOpenPr
  | .ok .pullRequestReview => publishPullRequestReviewResult pass work
  | .ok (.repositoryReview workspaceRef deliveries) =>
    publishRepositoryReviewResult pass work workspaceRef deliveries

/-- Whether the claim was held to the end. -/
def withPublicationHeartbeat (operation : Publishing Unit) : Publishing Bool := do
  match ← attempt (assertOwned pass work .start) with
  | .error _ => pure false
  | .ok _ =>
    operation
    match ← attempt (assertOwned pass work .finish) with
    | .error _ => pure false
    | .ok _ => pure true

/-- The end of a pass whose publisher returned. -/
def concludePublication : Publishing Unit := do
  if ← completePublication pass work then pure ()
  else
    let _ ← failPublication pass work .incomplete
      ⟨some "PUBLICATION_STEPS_INCOMPLETE",
        "Publication completed without all required steps succeeding."⟩ false

/-- The end of a pass that threw. Without the claim nothing may be recorded. -/
def reportFailure (e : PublishError) : Publishing Unit := do
  if e.claimLost then pure ()
  else
    let classification := classifyPublicationFailure e
    let _ ← failPublication pass work .failed ⟨e.code.or classification.code, e.message⟩
      classification.retry

def publishClaimed : Publishing Unit :=
  match pass.contextError with
  | some e => do
    -- a corrupt record consumes its claim into a terminal failure
    let _ ← failPublication pass work .invalidContext
      ⟨e.code.or (some "PUBLISH_CONTEXT_INVALID"), e.message⟩ false
    throw e
  | none =>
    tryCatch (do
        if ← withPublicationHeartbeat pass work (publishWork pass work) then
          concludePublication pass work
        else pure ())
      (reportFailure pass work)

/-- A pass over the run in `tx`. Nothing happens when it cannot be claimed, and
a claim whose answer is lost stays until its lease lapses. -/
def publishReviewRunsOnce (store : Store) (runId : RunId) (pass : Pass) (tx : Tx) : World :=
  match PublicationClaimStore.claim store tx with
  | .ok (some token, claimed) =>
    match pass.reply .claimNextPublication with
    | .answered => final (publishClaimed pass ⟨runId, token⟩) ⟨claimed, [], false⟩
    | .lost committed _ => ⟨if committed then claimed else tx, [], false⟩
  | _ => ⟨tx, [], false⟩

end PublicationCoordinator
