import SecReviewBot.TransitionSystems
import SecReviewBot.KeyedTables
import SecReviewBot.AuditChains
import SecReviewBot.CandidateLedgers
import SecReviewBot.ReadCommitted
import SecReviewBot.ThrowingPrograms
import SecReviewBot.JsonValues
import SecReviewBot.KeysetPages
import SecReviewBot.TextCodecs
import SecReviewBot.Calendars
import SecReviewBot.JsonTexts
import SecReviewBot.StableSorts
import SecReviewBot.JsonOrders
import SecReviewBot.JsonWriting
import SecReviewBot.GroupedSums
import SecReviewBot.DoubleSums
import SecReviewBot.FirstOccurrences
import SecReviewBot.TextPieces
import SecReviewBot.GitDiffs
import SecReviewBot.KeyedGroups
import SecReviewBot.FreshNames
import SecReviewBot.MemoryCatalog.Schema
import SecReviewBot.MemoryCatalog.CatalogStore
import SecReviewBot.MemoryCatalog.CatalogChanges
import SecReviewBot.MemoryCatalog.RevisionHistory
import SecReviewBot.MemoryCatalog.PublicationLedger
import SecReviewBot.MemoryCatalog.Resends
import SecReviewBot.MemoryCatalog.ConcurrentDuplicates
import SecReviewBot.MemoryCatalog.CatalogQueries
import SecReviewBot.ReviewRuns.Schema
import SecReviewBot.ReviewRuns.ExecutionStatisticsStore
import SecReviewBot.ReviewRuns.StatisticsSettlement
import SecReviewBot.ReviewRuns.ExecutionStatistics
import SecReviewBot.ReviewRuns.StatisticsConservation
import SecReviewBot.ReviewRuns.StatisticsOrder
import SecReviewBot.ReviewRuns.Transactions
import SecReviewBot.ReviewRuns.PreparationStore
import SecReviewBot.ReviewRuns.InputBundleCandidateStore
import SecReviewBot.ReviewRuns.SubmissionTransitionStore
import SecReviewBot.ReviewRuns.ExecutionStore
import SecReviewBot.ReviewRuns.ReviewRunQueries
import SecReviewBot.ReviewRuns.PublicationClaimStore
import SecReviewBot.ReviewRuns.PublicationStore
import SecReviewBot.ReviewRuns.OperatorDecisionStore
import SecReviewBot.ReviewRuns.RunNoticeStore
import SecReviewBot.ReviewRuns.AdmissionStore
import SecReviewBot.ReviewRuns.Coordination
import SecReviewBot.ReviewRuns.Statements
import SecReviewBot.ReviewRuns.TransactionWrites
import SecReviewBot.ReviewRuns.RowEffects
import SecReviewBot.ReviewRuns.TerminalStates
import SecReviewBot.ReviewRuns.SchemaConstraints
import SecReviewBot.ReviewRuns.InputCandidates
import SecReviewBot.ReviewRuns.Lifecycle
import SecReviewBot.ReviewRuns.LifecycleView
import SecReviewBot.ReviewRuns.ActionMoves
import SecReviewBot.ReviewRuns.CrossAxis
import SecReviewBot.ReviewRuns.PublicationAxis
import SecReviewBot.ReviewRuns.AuditLog
import SecReviewBot.ReviewRuns.StateMachines
import SecReviewBot.ReviewRuns.Notices
import SecReviewBot.ReviewRuns.StepBudget
import SecReviewBot.ReviewRuns.Fencing
import SecReviewBot.ReviewRuns.Progress
import SecReviewBot.ReviewRuns.Submissions
import SecReviewBot.ReviewRuns.SubmissionBoundary
import SecReviewBot.ReviewRuns.RecoveryClaims
import SecReviewBot.ReviewRuns.RecoveryPasses
import SecReviewBot.ReviewRuns.ReplayBudget
import SecReviewBot.ReviewRuns.StepRequests
import SecReviewBot.GithubIntegration.PublicationFailure
import SecReviewBot.GithubIntegration.ReviewRunsClient
import SecReviewBot.GithubIntegration.Publishers
import SecReviewBot.GithubIntegration.PublicationCoordinator
import SecReviewBot.GithubIntegration.StepFrames
import SecReviewBot.GithubIntegration.RejectedDeliveries
import SecReviewBot.GithubIntegration.Reconciliation
import SecReviewBot.GithubIntegration.WorkspaceHistory
import SecReviewBot.GithubIntegration.WindowExport
import SecReviewBot.GithubIntegration.SuggestionAnchors
import SecReviewBot.FencedBlocks
import SecReviewBot.GitQuoting
import SecReviewBot.GithubIntegration.SuggestionService
import SecReviewBot.GithubIntegration.SuggestionBodies
import SecReviewBot.GithubIntegration.PatchParsing
import SecReviewBot.GithubIntegration.DraftPullRequest
import SecReviewBot.GithubIntegration.InputStorage
import SecReviewBot.GithubIntegration.InputBundlePublication
import SecReviewBot.ReviewRuns.CandidateWrites
import SecReviewBot.GithubIntegration.StoredBundles
import SecReviewBot.GithubIntegration.PublishedCandidates
import SecReviewBot.GithubIntegration.PublishedInputs
import SecReviewBot.Agents.Workbench
import SecReviewBot.Agents.WorkbenchEdits
import SecReviewBot.Agents.WorkbenchRuns
import SecReviewBot.Agents.WorkbenchBatches
import SecReviewBot.Agents.DiscoveryStage
import SecReviewBot.Agents.TriageWorkbench
import SecReviewBot.Agents.DeliveryWorkbench
import SecReviewBot.Agents.WorkbenchGuarantees
import SecReviewBot.Agents.TriageStage
import SecReviewBot.BoundedFanOut
import SecReviewBot.Agents.RepositoryCases
import SecReviewBot.Agents.DeliveryExecution
import SecReviewBot.Agents.RepositoryWorkflows
import SecReviewBot.Agents.DeliveryGuarantees
import SecReviewBot.FileTrees
import SecReviewBot.Agents.WorkspacePatches
import SecReviewBot.GithubIntegration.SuggestionRuns
import SecReviewBot.GithubIntegration.SuggestionCoverage
import SecReviewBot.LineEdits
import SecReviewBot.GithubIntegration.SuggestedRepairs
import SecReviewBot.DirectoryListings
import SecReviewBot.PythonPaths
import SecReviewBot.Agents.ScanManifests
import SecReviewBot.Agents.DeletionCases
import SecReviewBot.CalendarDays
import SecReviewBot.CalendarMonths
import SecReviewBot.CronSchedules
import SecReviewBot.CronGaps
import SecReviewBot.CronSteps
import SecReviewBot.GithubIntegration.ScheduledReview
import SecReviewBot.ShellPrograms
import SecReviewBot.Agents.SetupDeclarations
import SecReviewBot.Agents.SetupBootstrap
import SecReviewBot.GithubIntegration.RepositoryPaths
import SecReviewBot.GitReferences
import SecReviewBot.GithubIntegration.DeliveryBranches
import SecReviewBot.Agents.ChunkPacking
import SecReviewBot.Agents.CandidateGrounding
import SecReviewBot.BucketPacking
import SecReviewBot.Agents.PlanningBatches
import SecReviewBot.Agents.TriageBatches
import SecReviewBot.Agents.BatchMerging
import SecReviewBot.Checks
import SecReviewBot.AgentTranscript.Records
import SecReviewBot.Agents.TokenUsage
import SecReviewBot.ControlPlaneUi.TrajectoryEvents
import SecReviewBot.Agents.TrajectoryRecords
import SecReviewBot.Agents.TrajectoryWriter
import SecReviewBot.Agents.WriterOutcomes
import SecReviewBot.Agents.ShownInstructions
import SecReviewBot.AgentTranscript.ReaderAgreement
import SecReviewBot.AgentTranscript.Files
import SecReviewBot.ControlPlaneUi.TrajectoryModel
import SecReviewBot.ControlPlaneUi.RecordedUsage
import SecReviewBot.Interleavings
import SecReviewBot.ControlPlaneUi.MessageViews
import SecReviewBot.ControlPlaneUi.ToolLinks
import SecReviewBot.StreamMerges
import SecReviewBot.ControlPlaneUi.DiffParse
import SecReviewBot.ControlPlaneUi.DiffRows
import SecReviewBot.ControlPlaneUi.DiffRoundTrips
import SecReviewBot.Agents.AgentInvocations
import SecReviewBot.Agents.ReadableTranscripts
import SecReviewBot.Agents.RecordedMessages
import SecReviewBot.ExecutionGateway.Fingerprints
import SecReviewBot.ExecutionGateway.TemporalExecutions
import SecReviewBot.ExecutionGateway.ReplayedStarts
