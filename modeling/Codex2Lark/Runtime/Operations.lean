import Codex2Lark.Runtime.Tools
import Codex2Lark.Storage.Idempotency

/-!
`ToolExecutor._execute_operation` and `_claim_write` with an operation store.
Any number of attempts run concurrently. An attempt stops at each await; a
database operation commits in one step and its caller resumes in a later one,
because the database actor runs on its own thread. `crash` is a cancelled or
dead caller at whatever await it stands.
-/

namespace Codex2Lark.Operations

open Lib Idempotency ToolExecutor

structure ToolReconciliation where
  observation : List (String × Json)
  verification : VerificationRecord
  safeToExecute : Bool := false
deriving DecidableEq, Repr

/-- One call of `_execute_operation`, with its operation key and its owner
`run_id:node_id`. -/
structure OperationRequest where
  key : String
  owner : String
  call : ToolCall
  definition : ToolDefinition
  checkpointSafeObservation : Bool := true
deriving DecidableEq, Repr

/-- The await at which an attempt stands. `completing` has its result ready;
`completed` carries what the completing transaction raised. -/
inductive OperationPhase where
  | claiming
  | answered (claim : IdempotencyClaim)
  | reconciling
  | executing
  | verifying (observation : List (String × Json))
  | completing (resultRef : String) (result : ToolResult)
  | completed (error : Option PyError) (result : ToolResult)
  | returned (result : ToolResult)
  | raised (error : PyError)
  | crashed
deriving DecidableEq, Repr

/-- The attempt is over: nothing of it is left to run or to cancel. -/
def OperationPhase.isOver : OperationPhase → Bool
  | .returned _ | .raised _ | .crashed => true
  | _ => false

inductive OperationEvent where
  | claimed (attempt : Nat) (key : String) (claim : IdempotencyClaim)
  | reconciled (attempt : Nat) (key : String) (answer : ToolReconciliation)
  | started (attempt : Nat) (key : String)
  | completed (key resultRef : String)
  | returned (attempt : Nat) (result : ToolResult)
deriving DecidableEq, Repr

/-- The replayed result of a completed operation. -/
def replay (request : OperationRequest) (resultRef : String) : ToolResult :=
  { callId := request.call.callId, toolId := request.call.toolId
    observation := [("resource", .obj [("reference", .str resultRef)]),
      ("idempotent_replay", .bool true)]
    effect := request.definition.effect
    verification :=
      { state := .verified, verifierId := "operation_journal"
        summary := "verified completed operation reused", resourceRefs := [resultRef] }
    checkpointSafeObservation := false }

def reconciledResult (request : OperationRequest) (answer : ToolReconciliation)
    (errorCode : Option String) : ToolResult :=
  { callId := request.call.callId, toolId := request.call.toolId
    observation := answer.observation, effect := request.definition.effect
    verification := answer.verification, errorCode
    checkpointSafeObservation := request.checkpointSafeObservation }

/-- What an attempt does between two awaits: the events and the next await. -/
abbrev Segment := List OperationEvent × OperationPhase

def finished (attempt : Nat) (result : ToolResult) : Segment :=
  ([.returned attempt result], .returned result)

def start (attempt : Nat) (request : OperationRequest) : Segment :=
  ([.started attempt request.key], .executing)

/-- `_claim_write` after its claim is answered. -/
def afterClaim (attempt : Nat) (request : OperationRequest) (claim : IdempotencyClaim) :
    Segment :=
  if claim.state = .completed ∧ claim.resultRef.any (· ≠ "") then
    finished attempt (replay request (claim.resultRef.getD ""))
  else if !claim.acquired then
    finished attempt (uncertain request.call request.definition.effect "operation_in_progress"
      "write claim is still active")
  else if !claim.recoveryRequired then start attempt request
  else ([], .reconciling)

def afterReconcile (attempt : Nat) (request : OperationRequest)
    (answer : Except PyError ToolReconciliation) : Segment :=
  match answer with
  | .error e =>
      if e.isException then
        finished attempt (uncertain request.call request.definition.effect
          "ambiguous_external_effect" ("live reconciliation failed: " ++ e.className))
      else ([], .raised e)
  | .ok answer =>
      let event := OperationEvent.reconciled attempt request.key answer
      if answer.verification.state = .verified then
        match answer.verification.resourceRefs with
        | ref :: _ => ([event], .completing ref (reconciledResult request answer none))
        | [] =>
            let (events, phase) := finished attempt (reconciledResult request answer none)
            (event :: events, phase)
      else if answer.safeToExecute then
        let (events, phase) := start attempt request
        (event :: events, phase)
      else
        let (events, phase) := finished attempt
          (reconciledResult request answer (some "ambiguous_external_effect"))
        (event :: events, phase)

/-- The two `except` clauses around `tool.execute` and `tool.verify`. -/
def executionFailed (attempt : Nat) (request : OperationRequest) (e : PyError) : Segment :=
  match e with
  | .timeoutError text =>
      finished attempt (failure request.call request.definition.effect "timeout_error" text)
  | e =>
      if e.isException then
        finished attempt (failure request.call request.definition.effect "tool_error" e.text)
      else ([], .raised e)

def afterExecute (attempt : Nat) (request : OperationRequest)
    (answer : Except PyError (List (String × Json))) : Segment :=
  match answer with
  | .error e => executionFailed attempt request e
  | .ok observation => ([], .verifying observation)

def afterVerify (attempt : Nat) (request : OperationRequest)
    (observation : List (String × Json)) (answer : Except PyError VerificationRecord) : Segment :=
  match answer with
  | .error e => executionFailed attempt request e
  | .ok verification =>
      let result : ToolResult :=
        { callId := request.call.callId, toolId := request.call.toolId, observation
          effect := request.definition.effect, verification
          checkpointSafeObservation := request.checkpointSafeObservation }
      match verification.resourceRefs with
      | ref :: _ =>
          if request.definition.effect.isWrite ∧ verification.state = .verified then
            ([], .completing ref result)
          else finished attempt result
      | [] => finished attempt result

def afterComplete (attempt : Nat) (error : Option PyError) (result : ToolResult) : Segment :=
  match error with
  | some e => ([], .raised e)
  | none => finished attempt result

structure Attempt where
  request : OperationRequest
  phase : OperationPhase
deriving DecidableEq, Repr

structure System where
  rows : List IdempotencyRow := []
  attempts : List Attempt := []
  log : List OperationEvent := []
deriving DecidableEq, Repr

inductive OperationStep where
  | call (request : OperationRequest)
  | claim (attempt : Nat) (nowMs : Int)
  | resume (attempt : Nat)
  | reconcile (attempt : Nat) (answer : Except PyError ToolReconciliation)
  | execute (attempt : Nat) (answer : Except PyError (List (String × Json)))
  | verify (attempt : Nat) (answer : Except PyError VerificationRecord)
  | complete (attempt : Nat) (nowMs : Int)
  | resumeCompleted (attempt : Nat)
  | crash (attempt : Nat)

namespace System

/-- The attempt stands at a new await after a segment. -/
def advance (s : System) (attempt : Nat) (request : OperationRequest) (segment : Segment) :
    System :=
  { s with
    attempts := s.attempts.set attempt ⟨request, segment.2⟩
    log := s.log ++ segment.1 }

/-- The first segment: a read takes no claim. -/
def call (s : System) (request : OperationRequest) : System :=
  { s with attempts := s.attempts ++
      [⟨request, if request.definition.effect.isWrite then .claiming else .executing⟩] }

def commitClaim (s : System) (claimLeaseMs : Int) (attempt : Nat) (request : OperationRequest)
    (nowMs : Int) : System :=
  let (claim, rows) := claimIdempotency
    { key := request.key, operationKind := request.definition.toolId, owner := request.owner
      expiresAtMs := nowMs + claimLeaseMs, nowMs } s.rows
  { s with rows }.advance attempt request
    ([.claimed attempt request.key claim], .answered claim)

def commitComplete (s : System) (attempt : Nat) (request : OperationRequest)
    (resultRef : String) (result : ToolResult) (nowMs : Int) : System :=
  match completeIdempotency ⟨request.key, request.owner, resultRef, nowMs⟩ s.rows with
  | .ok rows =>
      { s with rows }.advance attempt request
        ([.completed request.key resultRef], .completed none result)
  | .error e => s.advance attempt request ([], .completed (some e) result)

/-- `claimLeaseMs` is the execution lease that the executor is built with. -/
def step (claimLeaseMs : Int) (s : System) : OperationStep → Option System
  | .call request => some (s.call request)
  | .claim attempt nowMs =>
      match s.attempts[attempt]? with
      | some ⟨request, .claiming⟩ => some (s.commitClaim claimLeaseMs attempt request nowMs)
      | _ => none
  | .resume attempt =>
      match s.attempts[attempt]? with
      | some ⟨request, .answered claim⟩ =>
          some (s.advance attempt request (afterClaim attempt request claim))
      | _ => none
  | .reconcile attempt answer =>
      match s.attempts[attempt]? with
      | some ⟨request, .reconciling⟩ =>
          some (s.advance attempt request (afterReconcile attempt request answer))
      | _ => none
  | .execute attempt answer =>
      match s.attempts[attempt]? with
      | some ⟨request, .executing⟩ =>
          some (s.advance attempt request (afterExecute attempt request answer))
      | _ => none
  | .verify attempt answer =>
      match s.attempts[attempt]? with
      | some ⟨request, .verifying observation⟩ =>
          some (s.advance attempt request (afterVerify attempt request observation answer))
      | _ => none
  | .complete attempt nowMs =>
      match s.attempts[attempt]? with
      | some ⟨request, .completing resultRef result⟩ =>
          some (s.commitComplete attempt request resultRef result nowMs)
      | _ => none
  | .resumeCompleted attempt =>
      match s.attempts[attempt]? with
      | some ⟨request, .completed error result⟩ =>
          some (s.advance attempt request (afterComplete attempt error result))
      | _ => none
  | .crash attempt =>
      match s.attempts[attempt]? with
      | some ⟨request, phase⟩ =>
          if phase.isOver then none else some (s.advance attempt request ([], .crashed))
      | none => none

end System

end Codex2Lark.Operations
