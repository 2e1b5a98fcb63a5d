import WiseOrder.Foundation.Run
import WiseOrder.Foundation.Program
import WiseOrder.Foundation.Pool
import WiseOrder.Foundation.Script
import WiseOrder.Foundation.Contract
import WiseOrder.Foundation.Table
import WiseOrder.Foundation.WorkQueue
import WiseOrder.Foundation.Once
import WiseOrder.Foundation.Lease
import WiseOrder.Foundation.Budget
import WiseOrder.Foundation.Digits
import WiseOrder.Foundation.Json
import WiseOrder.Foundation.JsonRoundTrip
import WiseOrder.Foundation.Sha256
import WiseOrder.Python
import WiseOrder.Isoformat
import WiseOrder.Memory.Models
import WiseOrder.Configs.Singletons
import WiseOrder.Memory.Session
import WiseOrder.Memory.Ownership
import WiseOrder.Memory.Queries
import WiseOrder.Watchers.Records
import WiseOrder.Queues.Redis
import WiseOrder.Effects
import WiseOrder.Queues.Dedup
import WiseOrder.Queues.RedisQueue
import WiseOrder.Approvals.Gateway
import WiseOrder.Workflows.CommitPipeline
import WiseOrder.Workflows.DemoForge
import WiseOrder.Orchestrator.Main
import WiseOrder.Runtime.Protocol
import WiseOrder.Runtime.Rules
import WiseOrder.Runtime.Lifecycle
import WiseOrder.Approvals.Decision
import WiseOrder.Approvals.Delivery
import WiseOrder.Approvals.Cards
import WiseOrder.Runtime.Faults
import WiseOrder.Runtime.System
import WiseOrder.Workflows.CommitCalls
import WiseOrder.Workflows.CommitProgress
import WiseOrder.Workflows.CommitSteps
import WiseOrder.Workflows.CommitOutcome
import WiseOrder.Workflows.DemoOutcome
import WiseOrder.Runtime.Invariants
import WiseOrder.Runtime.Shadow
import WiseOrder.Queues.Slot
import WiseOrder.Workflows.CommitRuns
import WiseOrder.Workflows.Refusals
import WiseOrder.Runtime.Upkeep
import WiseOrder.Workflows.CommitMachine
import WiseOrder.Workflows.CommitSettles
import WiseOrder.Queues.SlotOwner
import WiseOrder.Queues.SlotLifetime
import WiseOrder.Queues.DedupSafety
import WiseOrder.Queues.Exclusion
import WiseOrder.Workflows.Duplicates
import WiseOrder.Workflows.NonInterference
import WiseOrder.Workflows.DemoFailure
import WiseOrder.Workflows.CardCalls
import WiseOrder.Workflows.CardStatus
import WiseOrder.Orchestrator.Reaper
import WiseOrder.Orchestrator.Restart
import WiseOrder.Api.Effects
import WiseOrder.Workflows.DailySummary
import WiseOrder.Workflows.AllClear
import WiseOrder.Foundation.Ranking
import WiseOrder.Workflows.FailureCounts
import WiseOrder.Api.Authorization
import WiseOrder.Api.Server
import WiseOrder.Api.Gate
import WiseOrder.Events.Watcher
import WiseOrder.Events.Handling
import WiseOrder.Events.Observed
import WiseOrder.Events.Landed
import WiseOrder.Foundation.Eval
import WiseOrder.Orchestrator.Popped
import WiseOrder.Orchestrator.Lifetime
import WiseOrder.Orchestrator.Startup
import WiseOrder.Orchestrator.Shutdown
import WiseOrder.Orchestrator.WorkerTurns
import WiseOrder.Orchestrator.JobBoard
import WiseOrder.Orchestrator.Stopping
import WiseOrder.Api.Concealment
import WiseOrder.Approvals.Desk
import WiseOrder.Approvals.ApprovalsFile
import WiseOrder.Workflows.SummaryRuns
import WiseOrder.Workflows.SummaryDates
import WiseOrder.Workflows.VectorIndex
import WiseOrder.Workflows.SummarySchedule
import WiseOrder.Workflows.SummaryTurns
import WiseOrder.Workflows.SummaryPeriods
import WiseOrder.Agents.LlmCall
import WiseOrder.Memory.Scope
import WiseOrder.Orchestrator.ReapOrphans
import WiseOrder.Foundation.PollLoop
import WiseOrder.Watchers.Integrity
import WiseOrder.Watchers.Verification
import WiseOrder.Foundation.JsonScanner
import WiseOrder.Foundation.Patterns
import WiseOrder.Agents.Extraction
import WiseOrder.Foundation.Substitution
import WiseOrder.Agents.Prompts
import WiseOrder.Agents.Summarizer
import WiseOrder.Watchers.CiWatcher
import WiseOrder.Watchers.CiPolling
import WiseOrder.Workflows.DemoOutputs
import WiseOrder.Workflows.DemoMixing
import WiseOrder.Watchers.Histories
import WiseOrder.Foundation.KeyOrder
import WiseOrder.Workflows.DemoCards
import WiseOrder.Queues.DeadLetters
import WiseOrder.Workflows.FailureShapes
import WiseOrder.Workflows.WorkflowLogs
import WiseOrder.Workflows.LogBounds
import WiseOrder.Api.RecentLogs
import WiseOrder.Foundation.Markdown
import WiseOrder.Approvals.TelegramText
import WiseOrder.Foundation.Markup
import WiseOrder.Approvals.RiskLevels
import WiseOrder.Api.Dashboard
