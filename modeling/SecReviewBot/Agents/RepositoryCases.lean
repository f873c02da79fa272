import SecReviewBot.Agents.WorkbenchEdits

/-!
# Repository cases

What a reviewed case carries to delivery and publication: the case result with its
disposition (`workflows/repository_case/stage.py`, `result.py`) and the part of it that
delivery reads (`workflows/repository/workflow.py`). The analysis and scoring sections of a
review record are passed through unread and left out.
-/

namespace RepositoryCases

open TextCodecs Workbench

inductive ContentEncoding where
  | utf8 | base64
  deriving DecidableEq

inductive FileMode where
  | regular | executable | symbolicLink
  deriving DecidableEq

inductive FileChange where
  | deleted (path : String)
  | upsert (path content : String) (contentEncoding : ContentEncoding) (mode : Option FileMode)
  deriving DecidableEq

def FileChange.path : FileChange → String
  | .deleted path => path
  | .upsert path _ _ _ => path

/-- The distinct paths in the order of their first change. -/
def fileChangePaths (fileChanges : List FileChange) : List String :=
  ((fileChanges.map FileChange.path).filter (· ≠ "")).eraseDups

inductive CoverageStatus where
  | full | partially | localOnly | unresolved | misaligned
  deriving DecidableEq

inductive RegressionStatus where
  | passed | failed | notRun | notApplicable | unresolved
  deriving DecidableEq

inductive NextStep where
  | none | retryAi | manualReview
  deriving DecidableEq

structure MitigationStageResult where
  overview : String
  fileChanges : List FileChange
  patchDiff : String
  deriving DecidableEq

structure VerificationStageResult where
  coverage : Option CoverageStatus
  regression : Option RegressionStatus
  nextStep : NextStep
  deriving DecidableEq

structure ReviewRecordMitigation where
  overview : Option String
  fileChanges : List FileChange
  patchDiff : Option String
  deriving DecidableEq

structure ReviewRecordVerification where
  coverage : Option CoverageStatus
  regression : Option RegressionStatus
  nextStep : Option NextStep
  deriving DecidableEq

structure ReviewRecord where
  mitigation : ReviewRecordMitigation
  verification : ReviewRecordVerification
  deriving DecidableEq

def buildReviewRecord (mitigation : Option MitigationStageResult)
    (verification : Option VerificationStageResult) : ReviewRecord where
  mitigation := match mitigation with
    | none => { overview := none, fileChanges := [], patchDiff := none }
    | some result =>
      { overview := some result.overview, fileChanges := result.fileChanges,
        patchDiff := some result.patchDiff }
  verification := match verification with
    | none => { coverage := none, regression := none, nextStep := none }
    | some result =>
      { coverage := result.coverage, regression := result.regression,
        nextStep := some result.nextStep }

inductive Disposition where
  | keep | blocked
  deriving DecidableEq

/-- What the verifier must have said for a patch to go out. -/
def Cleared (result : VerificationStageResult) : Prop :=
  result.coverage = some .full ∧
    (result.regression = some .passed ∨ result.regression = some .notRun ∨
      result.regression = some .notApplicable) ∧
    result.nextStep = .none

/-- The patch of a case may be delivered. -/
def Approved (mitigation : Option MitigationStageResult)
    (verification : Option VerificationStageResult) : Prop :=
  (∃ result, mitigation = some result ∧ fileChangePaths result.fileChanges ≠ []) ∧
    ∃ result, verification = some result ∧ Cleared result

def deriveCaseDisposition (mitigation : Option MitigationStageResult)
    (verification : Option VerificationStageResult) : Disposition × String :=
  if fileChangePaths (mitigation.elim [] MitigationStageResult.fileChanges) = [] then
    (.blocked, "The case did not produce an applied patch.")
  else match verification with
    | none =>
      (.blocked, "The verifier did not fully approve the patch for delivery execution.")
    | some result =>
      if result.coverage ≠ some .full then
        (.blocked, "The verifier did not fully approve the patch for delivery execution.")
      -- full coverage is about the security target only, a regression still blocks
      else if result.regression ∉ [some .passed, some .notRun, some .notApplicable] then
        (.blocked, "The verifier did not clear regression risk for delivery execution.")
      else if result.nextStep ≠ .none then
        (.blocked, "The verifier requires follow-up before delivery execution.")
      else (.keep, "Case produced a patch approved by verifier for delivery execution.")

/-- The id was stripped when the result was built, and is not blank. -/
structure RepositoryCaseResult where
  caseId : String
  disposition : Disposition
  reason : Option String
  reviewRecord : ReviewRecord
  stripped : normalizedId caseId = some caseId
  deriving DecidableEq

/-- Of a request for a case review, its id: text that is not blank. -/
structure RepositoryCaseReviewRequest where
  caseId : String
  content : strip pythonSpace caseId ≠ ""
  deriving DecidableEq

theorem normalizedId_strip (request : RepositoryCaseReviewRequest) :
    normalizedId (strip pythonSpace request.caseId) = some (strip pythonSpace request.caseId) := by
  rw [normalizedId, strip_strip, if_neg request.content]

def buildRepositoryCaseResult (request : RepositoryCaseReviewRequest)
    (mitigation : Option MitigationStageResult) (verification : Option VerificationStageResult) :
    RepositoryCaseResult where
  caseId := strip pythonSpace request.caseId
  disposition := (deriveCaseDisposition mitigation verification).1
  reason := normalizedId (deriveCaseDisposition mitigation verification).2
  reviewRecord := buildReviewRecord mitigation verification
  stripped := normalizedId_strip request

def buildBlockedRepositoryCaseResult (request : RepositoryCaseReviewRequest) (reason : String) :
    RepositoryCaseResult where
  caseId := strip pythonSpace request.caseId
  disposition := .blocked
  reason := normalizedId reason
  reviewRecord := buildReviewRecord none none
  stripped := normalizedId_strip request

theorem deriveCaseDisposition_keep_iff (mitigation : Option MitigationStageResult)
    (verification : Option VerificationStageResult) :
    (deriveCaseDisposition mitigation verification).1 = .keep ↔
      Approved mitigation verification := by
  cases mitigation with
  | none => simp [deriveCaseDisposition, Approved, fileChangePaths]
  | some patch =>
    by_cases paths : fileChangePaths patch.fileChanges = []
    · simp [deriveCaseDisposition, Approved, paths]
    cases verification with
    | none => simp [deriveCaseDisposition, Approved, paths]
    | some result =>
      by_cases coverage : result.coverage = some .full
      · by_cases regression : result.regression = some .passed ∨
          result.regression = some .notRun ∨ result.regression = some .notApplicable
        · by_cases next : result.nextStep = .none
          · simp [deriveCaseDisposition, Approved, Cleared, paths, coverage, regression, next]
          · simp [deriveCaseDisposition, Approved, Cleared, paths, coverage, regression, next]
        · simp [deriveCaseDisposition, Approved, Cleared, paths, coverage, regression]
      · simp [deriveCaseDisposition, Approved, Cleared, paths, coverage]

structure DeliveryCaseInput where
  caseId : String
  disposition : Disposition
  reason : Option String
  mitigationOverview : String
  mitigatorFileChanges : List FileChange
  mitigatorPatchDiff : Option String
  deriving DecidableEq

def keepRepositoryCaseResults (caseResults : List RepositoryCaseResult) :
    List RepositoryCaseResult :=
  caseResults.filter fun item => item.disposition = .keep

def projectRepositoryCaseResultForDelivery (caseResult : RepositoryCaseResult) :
    DeliveryCaseInput where
  caseId := caseResult.caseId
  disposition := caseResult.disposition
  reason := caseResult.reason
  mitigationOverview := caseResult.reviewRecord.mitigation.overview.getD ""
  mitigatorFileChanges := caseResult.reviewRecord.mitigation.fileChanges
  mitigatorPatchDiff := caseResult.reviewRecord.mitigation.patchDiff

def deliveryCaseInputs (caseResults : List RepositoryCaseResult) : List DeliveryCaseInput :=
  (keepRepositoryCaseResults caseResults).map projectRepositoryCaseResultForDelivery

end RepositoryCases
