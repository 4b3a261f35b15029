import Codex2Lark.Lib.Runs
import Codex2Lark.Lib.Dict
import Codex2Lark.Lib.Table
import Codex2Lark.Lib.Log
import Codex2Lark.Core.Errors
import Codex2Lark.Core.Json
import Codex2Lark.Core.Budgets
import Codex2Lark.Core.Events
import Codex2Lark.Storage.Schema
import Codex2Lark.Storage.SessionStore
import Codex2Lark.Storage.RuntimeStore
import Codex2Lark.Storage.TaskQueue
import Codex2Lark.Storage.Store
import Codex2Lark.Storage.RunStatus
import Codex2Lark.Storage.Checkpoints
import Codex2Lark.Storage.Idempotency
import Codex2Lark.Storage.Inbox
import Codex2Lark.Storage.Retention
import Codex2Lark.Storage.AgentStore
import Codex2Lark.Storage.GraphOps
import Codex2Lark.Storage.GraphShape
import Codex2Lark.Storage.GraphRuns
import Codex2Lark.Storage.BudgetReservations
import Codex2Lark.Storage.NodeLifecycle
import Codex2Lark.Runtime.Types
import Codex2Lark.Runtime.Context
import Codex2Lark.Runtime.Tools
import Codex2Lark.Runtime.MultiAgent
import Codex2Lark.Runtime.Turn
import Codex2Lark.Runtime.Harness
import Codex2Lark.Runtime.Operations
import Codex2Lark.Runtime.Approvals
import Codex2Lark.Runtime.Tasks
import Codex2Lark.Runtime.Loop
import Codex2Lark.Runtime.RunSystem
import Codex2Lark.Runtime.ControlJournal
import Codex2Lark.Runtime.ChildControls
import Codex2Lark.Runtime.BlindReplay
import Codex2Lark.Runtime.ApprovalDeferral
import Codex2Lark.Runtime.EffectGate
import Codex2Lark.Runtime.ControlDelivery
import Codex2Lark.Im.TaskHandler
import Codex2Lark.Storage.NodeEnds
import Codex2Lark.Storage.FailurePropagation
import Codex2Lark.Storage.CancelledSubtrees
import Codex2Lark.Lib.Acyclic
import Codex2Lark.Storage.Deadlock
import Codex2Lark.Storage.TaskLeasing
import Codex2Lark.Storage.TaskLimits
import Codex2Lark.Storage.LaneFairness
import Codex2Lark.Runtime.TaskWorker
import Codex2Lark.Runtime.TaskAttempts
import Codex2Lark.Capabilities.WriteTargets
import Codex2Lark.Storage.LockExclusion
import Codex2Lark.Runtime.WriteLocks
import Codex2Lark.Storage.TerminalLocks
import Codex2Lark.Storage.Mailbox
import Codex2Lark.Runtime.MailWaiting
import Codex2Lark.Runtime.Capacity
import Codex2Lark.Storage.Outbox
import Codex2Lark.Storage.OutboxDelivery
import Codex2Lark.Storage.Admissions
import Codex2Lark.Runtime.ApprovalHistory
import Codex2Lark.Im.Admission
import Codex2Lark.Lib.Revisions
import Codex2Lark.Runtime.RevisionGuard
import Codex2Lark.Storage.StarGraph
import Codex2Lark.Runtime.Delegation
import Codex2Lark.Runtime.DelegationSteps
import Codex2Lark.Runtime.RootLease
import Codex2Lark.Runtime.LostSlots
import Codex2Lark.Runtime.ChildMessages
import Codex2Lark.Runtime.BuiltContext
import Codex2Lark.Runtime.TrustedContext
import Codex2Lark.Runtime.TurnRule
import Codex2Lark.Runtime.WriteBudget
import Codex2Lark.Runtime.ToolPairs
import Codex2Lark.Runtime.PairedContexts
import Codex2Lark.Lib.Like
import Codex2Lark.Im.Mirror
import Codex2Lark.Im.Convergence
import Codex2Lark.Im.Tombstones
import Codex2Lark.Im.Attachments
import Codex2Lark.Im.ContextProvider
import Codex2Lark.Im.CurrentEvidence
import Codex2Lark.Im.BlobFiles
import Codex2Lark.Im.SourceIndex
import Codex2Lark.Im.Membership
import Codex2Lark.Im.ChatAccess
import Codex2Lark.Im.AccessOrder
import Codex2Lark.Storage.TargetFrame
import Codex2Lark.Storage.PurgeErasure
import Codex2Lark.Storage.GarbageProgress
import Codex2Lark.Storage.CollectedSources
import Codex2Lark.Storage.RotationRuns
import Codex2Lark.Storage.BackupChecks
import Codex2Lark.Storage.SchemaVersions
import Codex2Lark.Storage.ActorRuns
import Codex2Lark.Storage.SessionPort
import Codex2Lark.Im.RecentMessages
import Codex2Lark.Im.CollectedPages
import Codex2Lark.Im.Redelivery
import Codex2Lark.Storage.ScopeRenewal
import Codex2Lark.Runtime.ArtifactMerge
import Codex2Lark.Authoring.TableLayout
import Codex2Lark.Capabilities.Reconciliation
import Codex2Lark.Lib.Selection
import Codex2Lark.Runtime.CopiesToGo
import Codex2Lark.Runtime.DroppedEvidence
import Codex2Lark.Core.JsonText
import Codex2Lark.Storage.CheckpointPayload
import Codex2Lark.Storage.StoredCheckpoints
import Codex2Lark.Services.DigestMessages
import Codex2Lark.Authoring.CompiledDocument
import Codex2Lark.Lib.Unwinding
import Codex2Lark.Storage.RunEvents
import Codex2Lark.Runtime.RedactedRuns
import Codex2Lark.Runtime.WallTime
import Codex2Lark.Runtime.CallBudget
import Codex2Lark.Runtime.FamilySystem
import Codex2Lark.Runtime.FamilySteps
import Codex2Lark.Runtime.FamilyBudget
