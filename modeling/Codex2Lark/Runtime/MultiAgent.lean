import Codex2Lark.Core.Errors
import Codex2Lark.Core.Json
import Codex2Lark.Lib.Dict
import Codex2Lark.Runtime.Tools

/-!
The records of `runtime/multi_agent.py` and the checks of its supervisor before a
child is spawned. Fields that no modelled function reads are left out.
-/

namespace Codex2Lark

open Lib

inductive AgentRole where
  | orchestrator
  | researcher
  | author
  | dataAnalyst
  | verifier
  | operator
deriving DecidableEq, Repr

def AgentRole.value : AgentRole → String
  | .orchestrator => "orchestrator"
  | .researcher => "researcher"
  | .author => "author"
  | .dataAnalyst => "data_analyst"
  | .verifier => "verifier"
  | .operator => "operator"

inductive GraphStatus where
  | active
  | completed
  | blocked
  | failed
  | cancelled
deriving DecidableEq, Repr

inductive NodeStatus where
  | created
  | ready
  | running
  | waiting
  | completed
  | blocked
  | failed
  | interrupted
  | cancelling
  | cancelled
deriving DecidableEq, Repr

/-- `status IN ('completed', 'blocked', 'failed', 'cancelled')`. -/
def NodeStatus.isTerminal : NodeStatus → Bool
  | .completed | .blocked | .failed | .cancelled => true
  | _ => false

inductive MailboxKind where
  | task
  | message
  | followUp
  | steer
  | artifact
  | question
  | answer
  | cancel
  | status
deriving DecidableEq, Repr

def MailboxKind.value : MailboxKind → String
  | .task => "task"
  | .message => "message"
  | .followUp => "follow_up"
  | .steer => "steer"
  | .artifact => "artifact"
  | .question => "question"
  | .answer => "answer"
  | .cancel => "cancel"
  | .status => "status"

inductive MailboxState where
  | pending
  | delivered
  | acknowledged
deriving DecidableEq, Repr

theorem defaultLimits_positive : 1 ≤ min (min 3 8) 3 := by decide

/-- `__post_init__` refuses limits that are not positive. -/
structure GraphLimits where
  maxDepth : Nat := 3
  maxNodes : Nat := 8
  maxConcurrency : Nat := 3
  positive : 1 ≤ min (min maxDepth maxNodes) maxConcurrency := by
    first | exact defaultLimits_positive | decide
deriving DecidableEq, Repr

theorem GraphLimits.maxConcurrency_pos (limits : GraphLimits) : 1 ≤ limits.maxConcurrency :=
  limits.positive.trans (min_le_right _ _)

/-- The keys of the budgets are unique because they are the keys of a `dict`. -/
structure NodeSpec where
  name : String
  role : AgentRole
  taskBrief : String
  expectedOutputType : String
  toolIds : List String
  budgets : Dict String Nat
  deadlineMs : Option Int := none
  dependencyNodeIds : List String := []
  requiresWriteScope : Bool := false
  budgetKeys : (budgets.map Prod.fst).Nodup := by first | exact List.nodup_nil | decide
deriving DecidableEq, Repr

namespace NodeSpec

/-- `[a-z0-9_]+`. -/
def isName (text : String) : Bool :=
  text ≠ "" && text.toList.all fun c => c.isLower || c.isDigit || c = '_'

/-- The checks of `__post_init__`; a negative budget has no representation. -/
def postInit (spec : NodeSpec) : Except PyError NodeSpec :=
  if !isName spec.name then
    .error (.valueError
      "node name must contain lowercase letters, digits, or underscores")
  else if spec.taskBrief = "" ∨ spec.expectedOutputType = "" then
    .error (.valueError "node task brief and output type are required")
  else if ¬ spec.toolIds.Nodup then .error (.valueError "node tool_ids must be unique")
  else .ok spec

theorem postInit_ok {spec made : NodeSpec} (hok : postInit spec = .ok made) : made = spec := by
  unfold postInit at hok
  split at hok
  · cases hok
  · split at hok
    · cases hok
    · split at hok
      · cases hok
      · cases hok
        rfl

end NodeSpec

structure GraphRecord where
  graphId : String
  rootRunId : String
  rootNodeId : String
  tenantKey : String
  status : GraphStatus
  limits : GraphLimits
deriving DecidableEq, Repr

structure AgentNode where
  nodeId : String
  graphId : String
  parentNodeId : Option String
  canonicalPath : String
  spec : NodeSpec
  depth : Nat
  status : NodeStatus
  attemptCount : Nat := 0
  leaseOwner : Option String := none
  leaseExpiresAtMs : Option Int := none
deriving DecidableEq, Repr

structure MailboxItem where
  itemId : String
  graphId : String
  senderNodeId : String
  recipientNodeId : String
  kind : MailboxKind
  sequence : Nat
  payload : List (String × Json)
  state : MailboxState
  correlationId : Option String := none
deriving DecidableEq, Repr

structure ArtifactDraft where
  artifactType : String
  payload : List (String × Json)
  sourceVersions : Dict String String
  verificationState : VerificationState
deriving DecidableEq, Repr

structure Artifact where
  artifactId : String
  graphId : String
  producerNodeId : String
  artifactType : String
  payload : List (String × Json)
  sourceVersions : Dict String String
  verificationState : VerificationState
deriving DecidableEq, Repr

structure ResourceTarget where
  tenantKey : String
  resourceType : String
  resourceId : String
  expectedRevision : Option String := none
deriving DecidableEq, Repr

structure NodeExecutionResult where
  artifact : ArtifactDraft
  acknowledgedMailIds : List String := []
deriving DecidableEq, Repr

namespace MultiAgentSupervisor

/-- The table `_delegation`. -/
def delegation : AgentRole → List AgentRole
  | .orchestrator => [.orchestrator, .researcher, .author, .dataAnalyst, .verifier, .operator]
  | .author | .dataAnalyst => [.verifier, .operator]
  | .researcher | .verifier | .operator => []

/-- `spawn` between `get_node` and `spawn_child`. -/
def spawnChecks (graphId : String) (parent : AgentNode) (spec : NodeSpec) :
    Except PyError Unit :=
  if parent.graphId ≠ graphId then .error (.valueError "parent does not belong to graph")
  else if spec.role ∉ delegation parent.spec.role then
    .error (.permissionError
      ("role " ++ parent.spec.role.value ++ " cannot delegate " ++ spec.role.value))
  else if !spec.toolIds.all parent.spec.toolIds.contains then
    .error (.permissionError "child tool authority exceeds parent authority")
  else
    match spec.budgets.find? fun budget => parent.spec.budgets.getD budget.1 0 < budget.2 with
    | some (kind, _) =>
        .error (.permissionError ("child " ++ kind ++ " budget exceeds parent budget"))
    | none => .ok ()

end MultiAgentSupervisor

end Codex2Lark
