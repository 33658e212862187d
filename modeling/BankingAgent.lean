import BankingAgent.ApprovalDeadline
import BankingAgent.AuditChain
import BankingAgent.AuditTrail
import BankingAgent.Authorization
import BankingAgent.AuthorizedEffects
import BankingAgent.Banking.Currency
import BankingAgent.Banking.DraftGuard
import BankingAgent.Banking.Isolation
import BankingAgent.Banking.ValidatedArguments
import BankingAgent.CheckpointStore
import BankingAgent.CircuitBreaker
import BankingAgent.DirectReplies
import BankingAgent.DirectRoute
import BankingAgent.ExpiryTests
import BankingAgent.GateExactness
import BankingAgent.Identity
import BankingAgent.JsonExtraction
import BankingAgent.KeywordReading
import BankingAgent.LatestCheckpoint
import BankingAgent.MakerChecker
import BankingAgent.MemoryStore
import BankingAgent.MessagePairing
import BankingAgent.Metrics
import BankingAgent.MigrationAtomic
import BankingAgent.Numbers.IsoFormat
import BankingAgent.OperationKinds
import BankingAgent.PendingApprovals
import BankingAgent.PlanRuns
import BankingAgent.PlanValidation
import BankingAgent.ProviderErrors
import BankingAgent.Quiescence
import BankingAgent.RateLimit
import BankingAgent.RecordHistory
import BankingAgent.ReplaySafety
import BankingAgent.ResumeService
import BankingAgent.ResumedDispatch
import BankingAgent.Retriever
import BankingAgent.RetryLoop
import BankingAgent.RoleGrants
import BankingAgent.Routing
import BankingAgent.SandboxAdapter
import BankingAgent.Search.WordSearch
import BankingAgent.Server
import BankingAgent.SessionVersion
import BankingAgent.SingleUseGrant
import BankingAgent.StepBound
import BankingAgent.StoredAnswers
import BankingAgent.UnknownOutcomes
import BankingAgent.UntrustedCaller
import BankingAgent.UserIsolation
import BankingAgent.OrderedDict
import BankingAgent.ThreadRegistry
import BankingAgent.Governance
import BankingAgent.PromptTemplate
import BankingAgent.Redaction
import BankingAgent.ClosedApprovals
import BankingAgent.SharedCheckpoints
import BankingAgent.EventLog
import BankingAgent.SessionLifecycle
import BankingAgent.Oidc
import BankingAgent.Lifecycle
import BankingAgent.StoreConnections
import BankingAgent.SplitApproval
