import Codex2Lark.Runtime.Types

/-!
`runtime/tools.py`: the tool registry and the guards of `ToolExecutor.execute`
before a permitted call runs. What the awaited collaborators answer, the policy,
the approval broker and the permitted execution, is an argument.
-/

namespace Codex2Lark

open Lib

structure WriteScopeTarget where
  resourceType : String
  resourceId : String
  expectedRevision : Option String := none
deriving DecidableEq, Repr

structure ToolContext where
  runId : String
  nodeId : String
  tenantKey : String
  appId : String
  actorId : String
  sessionKey : String
  identityRef : String
  policyVersion : Nat
  taskId : Option String := none
  chatId : Option String := none
  sourceMessageId : Option String := none
  replyInThread : Bool := false
  writeScope : List WriteScopeTarget := []
  writeScopeRequired : Bool := false
  traceId : Option String := none
deriving DecidableEq, Repr

structure PolicyDecision where
  allowed : Bool
  reason : String
  approvalRequired : Bool := false
deriving DecidableEq, Repr

/-- The synchronous side of a semantic tool. `validate` is `none` when the
arguments are accepted; `parallelSafeFor` is absent for most tools. -/
structure SemanticTool where
  definition : ToolDefinition
  validate : List (String × Json) → Option PyError := fun _ => none
  parallelSafeFor : Option (List (String × Json) → Bool) := none

/-- The constructor refuses two tools of one identifier. -/
structure ToolRegistry where
  tools : List SemanticTool
  unique : (tools.map fun tool => tool.definition.toolId).Nodup

namespace ToolRegistry

def require (registry : ToolRegistry) (toolId : String) : Except PyError SemanticTool :=
  match registry.tools.find? fun tool => tool.definition.toolId = toolId with
  | some tool => .ok tool
  | none => .error (.lookupError ("semantic tool is unavailable: " ++ toolId))

def definitions (registry : ToolRegistry) (allowedIds : List String) :
    Except PyError (List ToolDefinition) :=
  allowedIds.mapM fun toolId => (registry.require toolId).map SemanticTool.definition

def parallelSafe (tool : SemanticTool) (call : ToolCall) : Bool :=
  tool.definition.effect = .read && tool.definition.parallelSafe &&
    (tool.parallelSafeFor.all fun guard => guard call.arguments)

def batchParallelSafe (registry : ToolRegistry) (calls : List ToolCall) : Bool :=
  2 ≤ calls.length && calls.all fun call =>
    match registry.require call.toolId with
    | .ok tool => parallelSafe tool call
    | .error _ => false

/-- The effect that a call declares through its tool; an unknown tool has none. -/
def effectOf (registry : ToolRegistry) (call : ToolCall) : ToolEffect :=
  match registry.require call.toolId with
  | .ok tool => tool.definition.effect
  | .error _ => .read

end ToolRegistry

namespace ToolExecutor

/-- `_failure`. -/
def failure (call : ToolCall) (effect : ToolEffect) (code summary : String) : ToolResult :=
  { callId := call.callId, toolId := call.toolId, observation := [], effect
    verification := { state := .failed, verifierId := "harness", summary }
    errorCode := some code }

/-- `_uncertain`. -/
def uncertain (call : ToolCall) (effect : ToolEffect) (code summary : String) : ToolResult :=
  { callId := call.callId, toolId := call.toolId, observation := [], effect
    verification := { state := .uncertain, verifierId := "operation_journal", summary }
    errorCode := some code }

/-- What `_execute_with_capacity` puts in its result. The identifiers and the
effect of a result are those of the call and of its definition. -/
structure PermittedAnswer where
  observation : List (String × Json)
  verification : VerificationRecord
  errorCode : Option String := none
  checkpointSafeObservation : Bool := true
deriving DecidableEq, Repr

/-- The answers that one `execute` awaits, in the order of its awaits. -/
structure ToolAnswer where
  decision : Except PyError PolicyDecision
  approval : Except PyError Bool
  permitted : Except PyError PermittedAnswer

def permittedResult (definition : ToolDefinition) (call : ToolCall) (answer : PermittedAnswer) :
    ToolResult :=
  { callId := call.callId, toolId := call.toolId, observation := answer.observation
    effect := definition.effect, verification := answer.verification
    errorCode := answer.errorCode
    checkpointSafeObservation := answer.checkpointSafeObservation }

def runPermitted (definition : ToolDefinition) (call : ToolCall) (answer : ToolAnswer) :
    Except PyError ToolResult :=
  answer.permitted.map (permittedResult definition call)

/-- `except (TypeError, ValueError)` of the validation. -/
def isValidationError : PyError → Bool
  | .typeError _ | .valueError _ | .wallTimeBudgetExceeded _ => true
  | _ => false

/-- The awaits after a successful validation. -/
def authorized (definition : ToolDefinition) (call : ToolCall) (answer : ToolAnswer) :
    Except PyError ToolResult :=
  match answer.decision with
  | .error e => .error e
  | .ok decision =>
      if !decision.allowed then
        .ok (failure call definition.effect "policy_error" decision.reason)
      else if !decision.approvalRequired then runPermitted definition call answer
      else
        match answer.approval with
        | .error e => .error e
        | .ok false =>
            .ok (failure call definition.effect "approval_rejected"
              "the requester rejected or did not approve this operation")
        | .ok true => runPermitted definition call answer

def execute (registry : ToolRegistry) (call : ToolCall) (answer : ToolAnswer) :
    Except PyError ToolResult :=
  match registry.require call.toolId with
  | .error e => .ok (failure call .read "tool_unavailable" e.text)
  | .ok tool =>
      match tool.validate call.arguments with
      | some e =>
          if isValidationError e then
            .ok (failure call tool.definition.effect "validation_error" e.text)
          else .error e
      | none => authorized tool.definition call answer

/-- The result is one of this call under this definition. -/
def IsResultOf (definition : ToolDefinition) (call : ToolCall) (result : ToolResult) : Prop :=
  result.callId = call.callId ∧ result.toolId = call.toolId ∧ result.effect = definition.effect

theorem failure_isResultOf (definition : ToolDefinition) (call : ToolCall)
    (code summary : String) :
    IsResultOf definition call (failure call definition.effect code summary) :=
  ⟨rfl, rfl, rfl⟩

theorem runPermitted_isResultOf {definition : ToolDefinition} {call : ToolCall}
    {answer : ToolAnswer} {result : ToolResult}
    (hok : runPermitted definition call answer = .ok result) :
    IsResultOf definition call result := by
  unfold runPermitted at hok
  cases hpermitted : answer.permitted with
  | error e =>
      rw [hpermitted] at hok
      cases hok
  | ok permitted =>
      rw [hpermitted] at hok
      cases hok
      exact ⟨rfl, rfl, rfl⟩

theorem authorized_isResultOf {definition : ToolDefinition} {call : ToolCall}
    {answer : ToolAnswer} {result : ToolResult}
    (hok : authorized definition call answer = .ok result) :
    IsResultOf definition call result := by
  unfold authorized at hok
  split at hok
  · cases hok
  · split at hok
    · cases hok
      exact failure_isResultOf ..
    · split at hok
      · exact runPermitted_isResultOf hok
      · split at hok
        · cases hok
        · cases hok
          exact failure_isResultOf ..
        · exact runPermitted_isResultOf hok

/-- A result carries the identifiers of its call and the effect its tool
declares. -/
theorem execute_result {registry : ToolRegistry} {call : ToolCall} {answer : ToolAnswer}
    {result : ToolResult} (hok : execute registry call answer = .ok result) :
    result.callId = call.callId ∧ result.toolId = call.toolId ∧
      result.effect = registry.effectOf call := by
  unfold execute at hok
  unfold ToolRegistry.effectOf
  cases hrequire : registry.require call.toolId with
  | error e =>
      simp only [hrequire] at hok
      cases hok
      exact ⟨rfl, rfl, rfl⟩
  | ok tool =>
      simp only [hrequire] at hok
      cases hvalid : tool.validate call.arguments with
      | none =>
          simp only [hvalid] at hok
          exact authorized_isResultOf hok
      | some e =>
          simp only [hvalid] at hok
          split at hok
          · cases hok
            exact failure_isResultOf ..
          · cases hok

end ToolExecutor

end Codex2Lark
