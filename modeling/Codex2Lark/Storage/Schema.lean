import Codex2Lark.Core.Events
import Codex2Lark.Lib.Table
import Codex2Lark.Runtime.Types

/-!
The runtime tables of `storage/migrations.py` that the session store and the
runtime store read and write. Encrypted columns hold their plaintext. Columns
that no modelled statement reads are left out.
-/

namespace Codex2Lark

open Lib

inductive RunControlKind where
  | steer
  | followUp
  | interrupt
  | cancel
deriving DecidableEq, Repr

inductive ControlState where
  | pending
  | applied
  | superseded
deriving DecidableEq, Repr

inductive ApprovalState where
  | pending
  | approved
  | rejected
  | expired
deriving DecidableEq, Repr

def ApprovalState.value : ApprovalState → String
  | .pending => "pending"
  | .approved => "approved"
  | .rejected => "rejected"
  | .expired => "expired"

structure EventRow where
  eventPk : Nat
  event : NormalizedEvent
  createdAtMs : Int
deriving DecidableEq, Repr

structure TaskRow where
  taskId : String
  eventPk : Option Nat
  pluginId : String
  commandType : String
  sessionKey : String
  tenantKey : String
  appId : String
  groupId : Option String
  priority : Int
  payload : List (String × Json)
  state : TaskState
  availableAtMs : Int
  leaseOwner : Option String
  leaseExpiresAtMs : Option Int
  attemptCount : Nat
  maxAttempts : Nat
  lastErrorCode : Option String
  createdAtMs : Int
  updatedAtMs : Int
deriving DecidableEq, Repr

structure RunRow where
  runId : String
  taskId : String
  sessionKey : String
  agentDefinitionId : String
  agentDefinitionVersion : Nat
  policyVersion : Nat
  status : RunStatus
  createdAtMs : Int
  updatedAtMs : Int
  traceId : String
deriving DecidableEq, Repr

structure RunEventRow where
  runId : String
  sequence : Nat
  eventType : String
  payload : List (String × Json)
  createdAtMs : Int
deriving DecidableEq, Repr

structure ControlRow where
  controlId : String
  eventPk : Nat
  targetTaskId : String
  sessionKey : String
  kind : RunControlKind
  text : String
  actorId : String
  sourceMessageId : String
  state : ControlState
  createdAtMs : Int
  appliedAtMs : Option Int
deriving DecidableEq, Repr

structure ApprovalRow where
  approvalId : String
  taskId : String
  runId : String
  tenantKey : String
  appId : String
  sessionKey : String
  actorId : String
  toolId : String
  argumentDigest : String
  state : ApprovalState
  expiresAtMs : Int
  createdAtMs : Int
  decidedAtMs : Option Int
  traceId : String
deriving DecidableEq, Repr

structure OutboxRow where
  outboxId : String
  taskId : Option String
  draft : OutboxDraft
  state : OutboxState
  availableAtMs : Int
  leaseOwner : Option String
  leaseExpiresAtMs : Option Int
  attemptCount : Nat
  maxAttempts : Nat
  lastErrorCode : Option String
  upstreamRef : Option String
  createdAtMs : Int
  updatedAtMs : Int
deriving DecidableEq, Repr

structure CheckpointRow where
  runId : String
  payload : RunCheckpoint
  createdAtMs : Int
  updatedAtMs : Int
deriving DecidableEq, Repr

structure CheckpointSourceRow where
  runId : String
  sourceRef : String
  sourceVersion : String
deriving DecidableEq, Repr

structure LaneRow where
  scopeKind : String
  scopeKey : String
  lastServedSequence : Nat
  updatedAtMs : Int
deriving DecidableEq, Repr

/-- `eventSequence` is the `AUTOINCREMENT` counter of `runtime_events` and
`schedulerSequence` the one row of `runtime_scheduler_state`. -/
structure Database where
  events : List EventRow := []
  eventSequence : Nat := 0
  tasks : List TaskRow := []
  runs : List RunRow := []
  runEvents : List RunEventRow := []
  controls : List ControlRow := []
  approvals : List ApprovalRow := []
  outbox : List OutboxRow := []
  checkpoints : List CheckpointRow := []
  checkpointSources : List CheckpointSourceRow := []
  schedulerSequence : Nat := 0
  lanes : List LaneRow := []
deriving DecidableEq, Repr

/-- `SQLiteDatabase.transaction`: an operation that raises is rolled back. -/
def Database.transaction {α : Type} (operation : Database → Except PyError (α × Database))
    (db : Database) : Except PyError α × Database :=
  match operation db with
  | .ok (value, after) => (.ok value, after)
  | .error e => (.error e, db)

end Codex2Lark
