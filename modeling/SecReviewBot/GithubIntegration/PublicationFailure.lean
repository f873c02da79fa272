import Mathlib.Data.List.Infix
import SecReviewBot.JsonValues

/-!
# `publication-failure.ts`

What a failed publication call means: whether another attempt could end
differently, and whether the failure is about one step or about the whole
publication. The codes are those of `publish-error-code.ts`.
-/

namespace PublicationFailure

open JsonValues

/-- What is read of a thrown value (`error-utils.ts`). `status` is the error's
own, else its response's; `claimLost` is `instanceof PublicationClaimLostError`. -/
structure PublishError where
  name : String
  message : String
  code : Option String
  status : Option Nat
  headers : List (String × Json)
  responseMessage : Option String
  claimLost : Bool

namespace PublishError

/-- `new Error(message)`. -/
def plain (message : String) : PublishError where
  name := "Error"
  message := message
  code := none
  status := none
  headers := []
  responseMessage := none
  claimLost := false

/-- `new PublicationClaimLostError(runId)`. -/
def lostClaim (runId : String) : PublishError where
  name := "PublicationClaimLostError"
  message := s!"Publication claim is no longer provably owned for review run {runId}."
  code := none
  status := none
  headers := []
  responseMessage := none
  claimLost := true

/-- `headers[name] ?? headers[alternative]`. -/
def header (e : PublishError) (name alternative : String) : Option Json :=
  match e.headers.lookup name with
  | some .null | none => e.headers.lookup alternative
  | some value => some value

end PublishError

inductive FailureScope where
  | step | publication
  deriving DecidableEq

structure PublishFailureClassification where
  retry : Bool
  scope : FailureScope
  code : Option String
  reason : String
  deriving DecidableEq

/-- The class always has a code, and a plain object of that name with a code
counts too. -/
def isDeterministicExecutionPublishError (e : PublishError) : Bool :=
  e.name = "DeterministicExecutionPublishError" && e.code.isSome

def deterministicReviewRunsPublicationCodes : List String :=
  ["PUBLICATION_STEP_SET_DUPLICATE", "PUBLICATION_STEP_SET_CHANGED",
    "PUBLICATION_STEP_NOT_CLAIMABLE"]

/-- `isPublicationStepExhausted` of `settle-exhausted-step.ts`. -/
def isPublicationStepExhausted (e : PublishError) : Bool :=
  e.code = some "PUBLICATION_STEP_RETRY_EXHAUSTED"

def isTransportFault (e : PublishError) : Bool := e.status.all fun status => 500 ≤ status

/-- `message.includes(text)`, the message in lower case. -/
def mentions (text message : String) : Bool :=
  decide (text.toList <:+: message.toList.map Char.toLower)

def isRateLimitOrAbuseLimit (e : PublishError) : Bool :=
  let message := e.message ++ " " ++ e.responseMessage.getD ""
  (e.header "retry-after" "Retry-After").isSome
    || e.header "x-ratelimit-remaining" "X-RateLimit-Remaining" = some (.str "0")
    || mentions "rate limit" message || mentions "abuse" message

def classifyPublicationFailure (e : PublishError) : PublishFailureClassification :=
  if isDeterministicExecutionPublishError e then
    ⟨false, .step, e.code, "deterministic-publish-result"⟩
  else if isPublicationStepExhausted e then
    let retry := isTransportFault e
    ⟨retry, if retry then .publication else .step, e.code, "publication-step-retry-exhausted"⟩
  else if e.code.any deterministicReviewRunsPublicationCodes.contains then
    ⟨false, .step, e.code, "review-runs-deterministic-publication-fault"⟩
  else match e.status with
  | none => ⟨true, .publication, e.code, "unknown-publish-error"⟩
  | some status =>
    if 500 ≤ status || status = 408 || status = 409 || status = 429 then
      ⟨true, .publication, e.code, "github-transient-response"⟩
    else if status = 403 && isRateLimitOrAbuseLimit e then
      ⟨true, .publication, e.code, "github-rate-limited"⟩
    else if status = 401 || status = 403 then
      ⟨false, .publication, e.code.or (some "GITHUB_AUTH_REJECTED"), "github-auth-rejected"⟩
    else if status = 404 then
      ⟨false, .step, e.code.or (some "GITHUB_NOT_FOUND"), "github-not-found"⟩
    else if status = 422 then
      ⟨false, .step, e.code.or (some "GITHUB_VALIDATION_REJECTED"),
        "github-validation-rejected"⟩
    else if 400 ≤ status && status < 500 then
      ⟨false, .step, e.code.or (some "GITHUB_PUBLISH_REJECTED"),
        "github-deterministic-response"⟩
    else ⟨true, .publication, e.code, "github-unclassified-response"⟩

/-- A failure is retried only as a whole publication. -/
theorem scope_of_retry {e : PublishError} (h : (classifyPublicationFailure e).retry = true) :
    (classifyPublicationFailure e).scope = .publication := by
  revert h
  simp only [classifyPublicationFailure]
  repeat' split
  all_goals simp_all

theorem retry_of_step {e : PublishError} (h : (classifyPublicationFailure e).scope = .step) :
    (classifyPublicationFailure e).retry = false := by
  by_contra retried
  have whole := scope_of_retry (e := e) (by simpa using retried)
  rw [h] at whole
  cases whole

/-- A refusal by Review Runs is about one step and is not retried. -/
theorem refusal_classified {e : PublishError} (status : e.status = some 409)
    (code : e.code = some "PUBLICATION_STEP_NOT_CLAIMABLE"
      ∨ e.code = some "PUBLICATION_STEP_RETRY_EXHAUSTED") :
    (classifyPublicationFailure e).retry = false ∧
      (classifyPublicationFailure e).scope = .step := by
  by_cases deterministic : isDeterministicExecutionPublishError e = true
  · simp [classifyPublicationFailure, deterministic]
  · rcases code with code | code <;>
      simp [classifyPublicationFailure, deterministic, isPublicationStepExhausted,
        deterministicReviewRunsPublicationCodes, isTransportFault, code, status]

theorem plain_retried (message : String) :
    (classifyPublicationFailure (.plain message)).retry = true := by
  simp [classifyPublicationFailure, PublishError.plain, isDeterministicExecutionPublishError,
    isPublicationStepExhausted]

end PublicationFailure
