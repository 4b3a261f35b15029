import Codex2Lark.Core.Budgets
import Codex2Lark.Core.Json

/-!
`runtime/types.py`: the provider-neutral values that the harness, the tool
executor and the session store exchange.
-/

namespace Codex2Lark

open Lib

inductive MessageRole where
  | system
  | user
  | assistant
  | tool
deriving DecidableEq, Repr

def MessageRole.value : MessageRole → String
  | .system => "system"
  | .user => "user"
  | .assistant => "assistant"
  | .tool => "tool"

inductive RunStatus where
  | running
  | waiting
  | completed
  | blocked
  | failed
  | cancelled
deriving DecidableEq, Repr

def RunStatus.value : RunStatus → String
  | .running => "running"
  | .waiting => "waiting"
  | .completed => "completed"
  | .blocked => "blocked"
  | .failed => "failed"
  | .cancelled => "cancelled"

inductive ToolEffect where
  | read
  | write
  | destructive
deriving DecidableEq, Repr

/-- `effect in (ToolEffect.WRITE, ToolEffect.DESTRUCTIVE)`. -/
def ToolEffect.isWrite : ToolEffect → Bool
  | .read => false
  | .write | .destructive => true

inductive VerificationState where
  | notRequired
  | verified
  | uncertain
  | failed
deriving DecidableEq, Repr

def VerificationState.value : VerificationState → String
  | .notRequired => "not_required"
  | .verified => "verified"
  | .uncertain => "uncertain"
  | .failed => "failed"

structure ToolCall where
  callId : String
  toolId : String
  arguments : List (String × Json)
deriving DecidableEq, Repr

structure ModelMessage where
  role : MessageRole
  content : String
  name : Option String := none
  toolCallId : Option String := none
  trusted : Bool := false
  toolCalls : List ToolCall := []
deriving DecidableEq, Repr

structure ToolDefinition where
  toolId : String
  version : Nat
  description : String
  inputSchema : List (String × Json)
  effect : ToolEffect
  parallelSafe : Bool := false
deriving DecidableEq, Repr

structure ModelUsage where
  inputTokens : Int := 0
  outputTokens : Int := 0
  costMicros : Int := 0
deriving DecidableEq, Repr

structure ModelResponse where
  content : String
  toolCalls : List ToolCall := []
  usage : ModelUsage := {}
  providerResponseId : Option String := none
deriving DecidableEq, Repr

structure VerificationRecord where
  state : VerificationState
  verifierId : String
  summary : String
  resourceRefs : List String := []
deriving DecidableEq, Repr

structure ToolResult where
  callId : String
  toolId : String
  observation : List (String × Json)
  effect : ToolEffect
  verification : VerificationRecord
  errorCode : Option String := none
  checkpointSafeObservation : Bool := true
deriving DecidableEq, Repr

def ToolResult.succeeded (result : ToolResult) : Bool := result.errorCode.isNone

/-- `__post_init__` refuses every other value. -/
structure AgentDefinition where
  agentId : String
  version : Nat
  instructions : String
  modelProfile : String
  toolIds : List String
  resourcePackages : List String := []
  budgetLimits : List BudgetLimit := []
  maxContextTokens : Nat := 64000
  requireVerifiedExternalEffect : Bool := false
  policyVersion : Nat := 1
  compactorVersion : Nat := 1
  identified : agentId ≠ "" ∧ 1 ≤ version ∧ instructions ≠ "" := by decide
  contextPositive : 1 ≤ maxContextTokens := by decide
  uniqueTools : toolIds.Nodup := by decide
deriving DecidableEq, Repr

structure RunCheckpoint where
  runId : String
  agentId : String
  agentVersion : Nat
  resourceVersions : Dict String String
  nextTurn : Nat
  messages : List ModelMessage
  verifiedEffects : List VerificationRecord
  blockers : List String
  sourceVersions : Dict String String
  consumedBudget : Dict String Int
  compactorVersion : Nat
  appliedControlIds : List String := []
  unresolvedExternalEffects : List String := []
  policyVersion : Nat := 0
  toolSchemaFingerprint : String := ""
deriving DecidableEq, Repr

structure AgentOutcome where
  status : RunStatus
  summary : String
  resourceRefs : List String := []
  warnings : List String := []
deriving DecidableEq, Repr

end Codex2Lark
