import Codex2Lark.Core.Json

/-!
`core/events.py` and `core/scheduling.py`: normalized events, task commands,
outbox drafts and the limits of the task queue.
-/

namespace Codex2Lark

inductive TaskState where
  | pending
  | leased
  | succeeded
  | blocked
  | failed
  | cancelled
deriving DecidableEq, Repr

def TaskState.value : TaskState → String
  | .pending => "pending"
  | .leased => "leased"
  | .succeeded => "succeeded"
  | .blocked => "blocked"
  | .failed => "failed"
  | .cancelled => "cancelled"

/-- The states that `finish_task` and a task execution result accept. -/
def TaskState.isTerminal : TaskState → Bool
  | .pending | .leased => false
  | .succeeded | .blocked | .failed | .cancelled => true

theorem TaskState.failed_terminal : TaskState.failed.isTerminal = true := rfl

inductive OutboxState where
  | pending
  | leased
  | sent
  | failed
deriving DecidableEq, Repr

structure NormalizedEvent where
  eventId : String
  pluginId : String
  eventType : String
  tenantKey : String
  appId : String
  occurredAtMs : Int
  receivedAtMs : Int
  resourceKind : String
  resourceId : String
  traceId : String
  schemaVersion : Nat := 1
  correlationId : Option String := none
  sourcePayload : Option String := none
  payloadExpiresAtMs : Option Int := none
deriving DecidableEq, Repr

structure TaskCommand where
  pluginId : String
  commandType : String
  sessionKey : String
  payload : List (String × Json)
  priority : Int := 0
  availableAtMs : Int := 0
  maxAttempts : Nat := 5
  groupId : Option String := none
deriving DecidableEq, Repr

structure OutboxDraft where
  publisherId : String
  destinationRef : String
  messageKind : String
  idempotencyKey : String
  payload : List (String × Json)
  availableAtMs : Int := 0
deriving DecidableEq, Repr

structure LeasedTask where
  taskId : String
  eventId : Option String
  pluginId : String
  commandType : String
  sessionKey : String
  payload : List (String × Json)
  attemptCount : Nat
  maxAttempts : Nat
  leaseExpiresAtMs : Int
  recoveryErrorCode : Option String := none
  tenantKey : String := ""
  appId : String := ""
  groupId : Option String := none
  traceId : String := ""
deriving DecidableEq, Repr

structure LeasedOutboxMessage where
  outboxId : String
  runId : Option String
  publisherId : String
  destinationRef : String
  messageKind : String
  idempotencyKey : String
  payload : List (String × Json)
  attemptCount : Nat
  leaseExpiresAtMs : Int
deriving DecidableEq, Repr

/-- The fields carry what `__post_init__` checks. -/
structure TaskConcurrencyLimits where
  globalLimit : Nat
  tenantLimit : Nat
  appLimit : Nat
  groupLimit : Nat
  groupPositive : 1 ≤ groupLimit
  groupLeApp : groupLimit ≤ appLimit
  appLeTenant : appLimit ≤ tenantLimit
  tenantLeGlobal : tenantLimit ≤ globalLimit

end Codex2Lark
