import EvalEngine.Transitions
import EvalEngine.JsonValues
import EvalEngine.Exceptions
import EvalEngine.QueryResults
import EvalEngine.RunModel
import EvalEngine.SubmissionModel
import EvalEngine.RunWriters
import EvalEngine.RunLifecycle
import EvalEngine.BaseEvalTask
import EvalEngine.EffectivelyOnce
import EvalEngine.Orchestrator
import EvalEngine.PythonCall
import EvalEngine.TaskObjects
import EvalEngine.BodyReached
import EvalEngine.PipelineMessages
import EvalEngine.StrandedRuns
import EvalEngine.PipelineDispatch
import EvalEngine.SingleDispatch
import EvalEngine.OrchestratorRetry
import EvalEngine.Rounding
import EvalEngine.SortedSets
import EvalEngine.SlidingWindow
import EvalEngine.RateLimiting
import EvalEngine.LimiterRuns
import EvalEngine.WindowSafety
import EvalEngine.ServedQuota
import EvalEngine.Finalize
import EvalEngine.FinalizeCrash
import EvalEngine.KeyedRows
import EvalEngine.StageTables
import EvalEngine.CrossCheck
import EvalEngine.Fabrication
import EvalEngine.LlmJudge
import EvalEngine.StageContracts
import EvalEngine.StageRedelivery
import EvalEngine.Transactions
import EvalEngine.ConstrainedTables
import EvalEngine.PythonText
import EvalEngine.ServiceTables
import EvalEngine.AuditService
import EvalEngine.ServiceContracts
import EvalEngine.RowOperations
import EvalEngine.AuthService
import EvalEngine.AuthContracts
import EvalEngine.DatasetService
import EvalEngine.SubmissionService
import EvalEngine.TriggerEvaluation
import EvalEngine.EvaluationService
import EvalEngine.MetricService
import EvalEngine.ServiceRequests
import EvalEngine.AuditCommit
import EvalEngine.GuardedFailure
import EvalEngine.LoginLockout
import EvalEngine.RunTransactions
import EvalEngine.ConcurrencyLimit
import EvalEngine.DispatchBeforeCommit
import EvalEngine.CompareAndSwap
import EvalEngine.OptimisticLock
import EvalEngine.LostUpdates
import EvalEngine.WorkerCounters
import EvalEngine.SubmissionLifecycle
import EvalEngine.ThreeValued
import EvalEngine.ScoreImmutability
import EvalEngine.LateStages
import EvalEngine.LateWrites
import EvalEngine.Noninterference
import EvalEngine.PipelineDatabase
import EvalEngine.ReadServices
import EvalEngine.ResultService
import EvalEngine.TenantRows
import EvalEngine.TenantReads
import EvalEngine.TenantWrites
import EvalEngine.Lineage
import EvalEngine.KeptRuns
import EvalEngine.InheritedOwners
import EvalEngine.TenantIsolation
import EvalEngine.WebhookNotification
import EvalEngine.HostLiterals
import EvalEngine.WebhookValidation
import EvalEngine.StoredWebhooks
import EvalEngine.CurrentUser
import EvalEngine.TokenRevocation
import EvalEngine.DatasetLifecycle
import EvalEngine.ConfigEdits
import EvalEngine.Retries
import EvalEngine.DeadLetters
import EvalEngine.ScaledProgress
import EvalEngine.TaskReports
import EvalEngine.ProgressReports
import EvalEngine.LimiterAgreement
import EvalEngine.MiddlewareStack
import EvalEngine.OrganizationLimits
import EvalEngine.CascadeDeletion
import EvalEngine.Retention
import EvalEngine.Paging
import EvalEngine.ClaimPages
import EvalEngine.ExportCompleteness
import EvalEngine.FromAttributes
import EvalEngine.ResponseSchemas
import EvalEngine.ResponseEndpoints
import EvalEngine.CacheAside
import EvalEngine.SubmissionCache
import EvalEngine.MetricNames
import EvalEngine.UncommittedRows
import EvalEngine.RegisterUser
import EvalEngine.PythonValues
import EvalEngine.JsonText
import EvalEngine.JsonRoundTrip
import EvalEngine.FailOpenCache
import EvalEngine.WeightedMean
import EvalEngine.FinalScore
import EvalEngine.RegularExpressions
import EvalEngine.DecimalDigits
import EvalEngine.PairwiseLoop
import EvalEngine.ExceptLists
import EvalEngine.DetectContradiction
import EvalEngine.StoredFindings
import EvalEngine.ContradictionOrder
import EvalEngine.ClaimsKept
import EvalEngine.LowerCase
import EvalEngine.AnalysisClaims
import EvalEngine.JsonSchema
import EvalEngine.JudgeOutput
import EvalEngine.SyntheticScores
import EvalEngine.Billing
import EvalEngine.ClaimRisk
import EvalEngine.TopSelection
import EvalEngine.FabricationReport
import EvalEngine.DeadLetterRetry
import EvalEngine.IndexedStore
import EvalEngine.DeadLetterIndex
import EvalEngine.WebhookDelivery
import EvalEngine.ObjectErasure
import EvalEngine.OrphanFiles
import EvalEngine.SubmissionColumns
import EvalEngine.Doubles
import EvalEngine.ListPages
import EvalEngine.RetryAfter
import EvalEngine.EarlyRefresh
import EvalEngine.CacheRecovery
import EvalEngine.RoundedSums
import EvalEngine.Joins
import EvalEngine.OrgDashboard
import EvalEngine.Validators
import EvalEngine.ByteRanges
import EvalEngine.VideoChunks
import EvalEngine.WordRuns
import EvalEngine.SanitizedText
import EvalEngine.OrganizationSlugs
import EvalEngine.UrlText
import EvalEngine.DeckLocations
import EvalEngine.GroupSubstitution
import EvalEngine.LogMasking
import EvalEngine.LogSecrets
import EvalEngine.TokenRefresh
import EvalEngine.RefreshQueue
import EvalEngine.WebSocketHook
import EvalEngine.LiveStreams
import EvalEngine.SoftDeletion
import EvalEngine.ApiEndpoints
import EvalEngine.AccessControl
import EvalEngine.AuditTrail
import EvalEngine.CsvText
import EvalEngine.CsvExports
import EvalEngine.Catalogs
import EvalEngine.RevisionChains
import EvalEngine.SchemaRevisions
import EvalEngine.PathLabels
import EvalEngine.HttpMetrics
import EvalEngine.AdvertisedQuota
import EvalEngine.JudgeStage
import EvalEngine.PubSub
import EvalEngine.LiveRelay
import EvalEngine.GithubAnalysis
import EvalEngine.ModuleImports
import EvalEngine.SubmissionModules
import EvalEngine.CheckedDispatch
