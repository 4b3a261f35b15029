import Codex2Lark.Runtime.Context
import Codex2Lark.Runtime.Tools
import Codex2Lark.Storage.RuntimeStore

/-!
The synchronous parts of `runtime/harness.py`: the local variables of
`AgentHarness.run` and what the code between two awaits does to them.
-/

namespace Codex2Lark

open Lib

structure HarnessRequest where
  runId : String
  taskId : String
  nodeId : String
  userRequest : String
  toolContext : ToolContext
  evidence : List ContextEvidence := []
deriving DecidableEq, Repr

/-- Everything one call of `AgentHarness.run` is given and never changes. The
harness has a control inbox or not; `digest` is the SHA-256 hex digest. -/
structure Invocation where
  request : HarnessRequest
  definition : AgentDefinition
  registry : ToolRegistry
  loaded : LoadedResources
  hasInbox : Bool
  clockMs : Int
  digest : String → String

def ToolEffect.value : ToolEffect → String
  | .read => "read"
  | .write => "write"
  | .destructive => "destructive"

namespace ToolRegistry

def schemaEntry (definition : ToolDefinition) : Json :=
  .obj [("tool_id", .str definition.toolId), ("version", .int definition.version),
    ("effect", .str definition.effect.value), ("parallel_safe", .bool definition.parallelSafe),
    ("input_schema", .obj definition.inputSchema)]

def schemaFingerprint (registry : ToolRegistry) (digest : String → String)
    (allowedIds : List String) : Except PyError String :=
  (registry.definitions allowedIds).map fun definitions =>
    digest (Json.dumps Json.compact (.arr (definitions.map schemaEntry)))

end ToolRegistry

/-- The local variables of `run`. `cancelled` is the reason held by the
cancellation token; the two clock values belong to `_ActiveWallTime`. -/
structure Locals where
  turn : Nat := 0
  journal : List ModelMessage := []
  verified : List VerificationRecord := []
  unresolvedExternalEffects : List String := []
  nonpersistableCalls : List String := []
  appliedControlIds : List String := []
  pendingAckIds : List String := []
  ledger : BudgetLedger
  fingerprint : String
  cancelled : Option String := none
  lastNs : Int := 0
  remainderNs : Int := 0
deriving DecidableEq, Repr

namespace AgentHarness

def sourceVersions (request : HarnessRequest) : Dict String String :=
  Dict.ofEntries (request.evidence.map fun item => (item.sourceRef, item.sourceVersion))

/-- The reason with which `_validate_checkpoint` raises. -/
def validateCheckpoint (inv : Invocation) (fingerprint : String) (checkpoint : RunCheckpoint) :
    Option String :=
  if (checkpoint.agentId, checkpoint.agentVersion) ≠
      (inv.definition.agentId, inv.definition.version) then
    some "checkpoint AgentDefinition is incompatible"
  else if !checkpoint.resourceVersions.sameItems inv.loaded.versions then
    some "checkpoint resources are incompatible"
  else if !checkpoint.sourceVersions.sameItems (sourceVersions inv.request) then
    some "checkpoint source evidence is stale"
  else if checkpoint.compactorVersion ≠ inv.definition.compactorVersion then
    some "checkpoint compactor is incompatible"
  else if checkpoint.policyVersion ≠ inv.definition.policyVersion then
    some "checkpoint policy is incompatible"
  else if checkpoint.toolSchemaFingerprint ≠ fingerprint then
    some "checkpoint tool schema is incompatible"
  else none

def redacted : String := "\x7b\"observation_redacted_refetch_required\":true\x7d"

def checkpointMessage (nonpersistableCalls : List String) (message : ModelMessage) :
    ModelMessage :=
  if message.role = .tool ∧ message.toolCallId.any nonpersistableCalls.contains then
    { message with content := redacted }
  else message

/-- The checkpoint that both saving places build. -/
def checkpointOf (inv : Invocation) (l : Locals) (sourceVersions : Dict String String) :
    RunCheckpoint :=
  { runId := inv.request.runId, agentId := inv.definition.agentId
    agentVersion := inv.definition.version, resourceVersions := inv.loaded.versions
    nextTurn := l.turn + 1
    messages := l.journal.map (checkpointMessage l.nonpersistableCalls)
    verifiedEffects := l.verified, blockers := [], sourceVersions
    consumedBudget := l.ledger.consumed.map fun entry => (entry.1.value, entry.2)
    compactorVersion := inv.definition.compactorVersion
    appliedControlIds := l.appliedControlIds.insertionSort (fun a b => a ≤ b)
    unresolvedExternalEffects := l.unresolvedExternalEffects
    policyVersion := inv.definition.policyVersion, toolSchemaFingerprint := l.fingerprint }

/-- What an accepted checkpoint puts back before its controls are acknowledged. -/
def restore (l : Locals) (checkpoint : RunCheckpoint) : Locals :=
  { l with
    turn := checkpoint.nextTurn - 1, journal := checkpoint.messages
    verified := checkpoint.verifiedEffects
    unresolvedExternalEffects := checkpoint.unresolvedExternalEffects
    appliedControlIds := checkpoint.appliedControlIds }

/-- The loop over `consumed_budget`. -/
def restoreBudget : Dict String Int → BudgetLedger → Except PyError BudgetLedger
  | [], ledger => .ok ledger
  | (key, amount) :: rest, ledger =>
      match BudgetKind.ofValue? key with
      | none => .error (.valueError ("'" ++ key ++ "' is not a valid BudgetKind"))
      | some kind =>
          restoreBudget rest
            (if ledger.limits.contains kind then
              { ledger with consumed := ledger.consumed.set kind amount } else ledger)

def controlMessage (control : ControlRow) : ModelMessage :=
  let label := if control.kind = .steer then "Steering update" else "Follow-up"
  { role := .user
    content := label ++ " from the originating requester:\n" ++ control.text }

/-- `CancellationToken.cancel`: the first reason stays. -/
def cancel (l : Locals) (reason : String) : Locals :=
  { l with cancelled := some (l.cancelled.getD reason) }

/-- The body of the loop in `_apply_controls`. -/
def applyControl (l : Locals) (control : ControlRow) : Locals :=
  if l.appliedControlIds.contains control.controlId then
    if l.pendingAckIds.contains control.controlId then l
    else { l with pendingAckIds := l.pendingAckIds ++ [control.controlId] }
  else
    let l := { l with
      appliedControlIds := l.appliedControlIds ++ [control.controlId]
      pendingAckIds := l.pendingAckIds ++ [control.controlId] }
    match control.kind with
    | .cancel => cancel l "Cancelled by the originating requester."
    | .interrupt => cancel l "Interrupted by the originating requester."
    | .steer | .followUp => { l with journal := l.journal ++ [controlMessage control] }

def applyControls (l : Locals) (controls : List ControlRow) : Locals :=
  controls.foldl applyControl l

/-- `token.raise_if_cancelled()`. -/
def raiseIfCancelled (l : Locals) : Except PyError Unit :=
  match l.cancelled with
  | some reason => .error (.cancelledByPolicy (if reason = "" then "cancelled" else reason))
  | none => .ok ()

def unresolvedEffect (result : ToolResult) : String :=
  result.callId ++ ":" ++ result.toolId ++ ":" ++
    (result.errorCode.filter (· ≠ "")).getD result.verification.state.value

def resultMessage (result : ToolResult) : ModelMessage :=
  { role := .tool
    content := Json.dumps {} (.obj
      [("observation", .obj result.observation), ("error_code", Json.optStr result.errorCode),
        ("verification", .obj
          [("state", .str result.verification.state.value),
            ("summary", .str result.verification.summary),
            ("resource_refs", .arr (result.verification.resourceRefs.map Json.str))])])
    name := some result.toolId, toolCallId := some result.callId }

/-- The body of the loop over the results of a batch, up to its event. -/
def recordResult (l : Locals) (result : ToolResult) : Except PyError Locals := do
  let ledger ← if result.effect.isWrite then l.ledger.consumeIfLimited .externalWrites 1
    else .ok l.ledger
  let l := { l with ledger }
  let l :=
    if result.verification.state = .verified then
      { l with verified := l.verified ++ [result.verification] }
    else if result.effect.isWrite then
      { l with
        unresolvedExternalEffects := l.unresolvedExternalEffects ++ [unresolvedEffect result] }
    else l
  let l := if result.checkpointSafeObservation then l
    else { l with nonpersistableCalls := l.nonpersistableCalls ++ [result.callId] }
  .ok { l with journal := l.journal ++ [resultMessage result] }

/-- `_outcome`. -/
def outcomeOf (content : String) (definition : AgentDefinition) (l : Locals) : AgentOutcome :=
  let verifiedRefs := l.verified.flatMap VerificationRecord.resourceRefs
  if !l.unresolvedExternalEffects.isEmpty then
    { status := .failed
      summary := "The Agent produced a response, but at least one external effect " ++
        "was not verified. Completion cannot be claimed safely."
      resourceRefs := verifiedRefs, warnings := ["external_effect_unverified"] }
  else if definition.requireVerifiedExternalEffect ∧ l.verified.isEmpty then
    { status := .failed
      summary := "The Agent produced a response but no required external effect was verified."
      warnings := ["verification_missing"] }
  else
    { status := .completed, summary := if content = "" then "Completed." else content
      resourceRefs := verifiedRefs }

/-- `_ActiveWallTime.charge`. -/
def charge (l : Locals) (nowNs : Int) : Except PyError Locals :=
  let total := l.remainderNs + max 0 (nowNs - l.lastNs)
  let elapsedMs := total / 1000000
  let l := { l with lastNs := nowNs, remainderNs := total % 1000000 }
  if elapsedMs ≠ 0 ∧ l.ledger.limits.contains .wallTimeMs then
    match l.ledger.consume .wallTimeMs elapsedMs with
    | .ok ledger => .ok { l with ledger }
    | .error _ => .error (.wallTimeBudgetExceeded "wall_time_ms budget exceeded")
  else .ok l

/-- `wait_for` up to its await. -/
def enterWait (l : Locals) (nowNs : Int) : Except PyError Locals := do
  let l ← charge l nowNs
  if l.ledger.limits.contains .wallTimeMs ∧ l.ledger.available .wallTimeMs ≤ 0 then
    .error (.wallTimeBudgetExceeded "wall_time_ms budget exceeded")
  else .ok l

/-- `wait_for` after its await. A timeout is the answer `timeoutError`; the
charge of the `finally` clause replaces whatever was raised when it raises. -/
def leaveWait {α : Type} (l : Locals) (nowNs : Int) (answer : Except PyError α) :
    Except PyError (Locals × α) :=
  if l.ledger.limits.contains .wallTimeMs then do
    let l ← charge l nowNs
    match answer with
    | .ok value => .ok (l, value)
    | .error (.timeoutError _) =>
        .error (.wallTimeBudgetExceeded "wall_time_ms budget exceeded")
    | .error e => .error e
  else answer.map fun value => (l, value)

/-! ### What each part changes -/

/-- A charge touches the clock and the ledger only. -/
theorem charge_ok {l after : Locals} {nowNs : Int} (hok : charge l nowNs = .ok after) :
    after = { l with
      lastNs := after.lastNs, remainderNs := after.remainderNs, ledger := after.ledger } ∧
    (after.ledger = l.ledger ∨ ∃ elapsedMs, 
      l.ledger.consume .wallTimeMs elapsedMs = .ok after.ledger) := by
  unfold charge at hok
  dsimp only at hok
  split at hok
  · split at hok
    · rename_i ledger hledger
      cases hok
      exact ⟨rfl, Or.inr ⟨_, hledger⟩⟩
    · cases hok
  · cases hok
    exact ⟨rfl, Or.inl rfl⟩

theorem enterWait_ok {l after : Locals} {nowNs : Int} (hok : enterWait l nowNs = .ok after) :
    charge l nowNs = .ok after := by
  unfold enterWait at hok
  cases hcharge : charge l nowNs with
  | error e =>
      rw [hcharge] at hok
      cases hok
  | ok charged =>
      rw [hcharge] at hok
      simp only [bind, Except.bind] at hok
      split at hok
      · cases hok
      · cases hok
        rfl

/-- The value comes from the awaited answer, the locals from a charge if any. -/
theorem leaveWait_ok {α : Type} {l after : Locals} {nowNs : Int} {answer : Except PyError α}
    {value : α} (hok : leaveWait l nowNs answer = .ok (after, value)) :
    answer = .ok value ∧ (after = l ∨ charge l nowNs = .ok after) := by
  unfold leaveWait at hok
  split at hok
  · cases hcharge : charge l nowNs with
    | error e =>
        rw [hcharge] at hok
        cases hok
    | ok charged =>
        rw [hcharge] at hok
        simp only [bind, Except.bind] at hok
        split at hok
        · cases hok
          exact ⟨rfl, Or.inr rfl⟩
        · cases hok
        · cases hok
  · cases answer with
    | error e => cases hok
    | ok value =>
        cases hok
        exact ⟨rfl, Or.inl rfl⟩

/-- What recording a result assigns, once its write is charged. -/
def recorded (l : Locals) (result : ToolResult) (ledger : BudgetLedger) : Locals :=
  { l with
    ledger
    verified := if result.verification.state = .verified then
      l.verified ++ [result.verification] else l.verified
    unresolvedExternalEffects :=
      if result.verification.state ≠ .verified ∧ result.effect.isWrite then
        l.unresolvedExternalEffects ++ [unresolvedEffect result]
      else l.unresolvedExternalEffects
    nonpersistableCalls := if result.checkpointSafeObservation then l.nonpersistableCalls
      else l.nonpersistableCalls ++ [result.callId]
    journal := l.journal ++ [resultMessage result] }

theorem recordResult_eq (l : Locals) (result : ToolResult) : recordResult l result =
    (if result.effect.isWrite then l.ledger.consumeIfLimited .externalWrites 1
      else .ok l.ledger).map (recorded l result) := by
  unfold recordResult
  cases hwrite : result.effect.isWrite <;>
    cases hsafe : result.checkpointSafeObservation <;>
      by_cases hverified : result.verification.state = .verified <;>
        cases hcharge : l.ledger.consumeIfLimited .externalWrites 1 <;>
          simp [recorded, Except.map, bind, Except.bind, hwrite, hsafe, hverified]

/-- What recording one result adds to the locals. -/
theorem recordResult_ok {l after : Locals} {result : ToolResult}
    (hok : recordResult l result = .ok after) :
    after = { l with
      ledger := after.ledger
      verified := if result.verification.state = .verified then
        l.verified ++ [result.verification] else l.verified
      unresolvedExternalEffects :=
        if result.verification.state ≠ .verified ∧ result.effect.isWrite then
          l.unresolvedExternalEffects ++ [unresolvedEffect result]
        else l.unresolvedExternalEffects
      nonpersistableCalls := after.nonpersistableCalls
      journal := l.journal ++ [resultMessage result] } ∧
    (if result.effect.isWrite then
      l.ledger.consumeIfLimited .externalWrites 1 = .ok after.ledger
    else after.ledger = l.ledger) := by
  rw [recordResult_eq] at hok
  cases hledger : (if result.effect.isWrite then l.ledger.consumeIfLimited .externalWrites 1
      else .ok l.ledger) with
  | error e =>
      rw [hledger] at hok
      cases hok
  | ok ledger =>
      rw [hledger] at hok
      cases hok
      refine ⟨rfl, ?_⟩
      by_cases hwrite : result.effect.isWrite = true
      · rw [if_pos hwrite] at hledger ⊢
        exact hledger
      · rw [if_neg hwrite] at hledger ⊢
        exact (Except.ok.inj hledger).symm

end AgentHarness

end Codex2Lark
