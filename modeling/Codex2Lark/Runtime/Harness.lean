import Codex2Lark.Runtime.Turn

/-!
`AgentHarness.run` as a machine that stops at every await. A phase names the
await and carries the local values that its continuation still reads. One step
performs the awaited operation and runs the code up to the next await; the
database commits within that step. A crash may fall between any two steps.
-/

namespace Codex2Lark

open Lib

inductive HarnessPhase where
  -- before the `try`
  | startRun
  | runStarted
  | loadCheckpoint
  | runStatus (checkpoint : Option RunCheckpoint)
  | discardCheckpoint (reason : String)
  | checkpointInvalidated (reason : String)
  | acknowledgeCheckpoint (checkpoint : RunCheckpoint)
  -- the turn up to the answer of the model
  | pollBeforeModel
  | contextCompacted (build : ContextBuild)
  | turnStarted (build : ContextBuild)
  | completeModel (build : ContextBuild)
  | modelRunning (build : ContextBuild)
  | modelCompleted (build : ContextBuild) (response : ModelResponse)
  | pollAfterModel (build : ContextBuild) (response : ModelResponse)
  -- an answer without tool calls
  | saveAnswer (build : ContextBuild)
  | acknowledgeAnswer
  | finishAnswer (outcome : AgentOutcome)
  -- the tool batch; `rest` starts with the call or result of the await
  | toolRequested (build : ContextBuild) (calls rest : List ToolCall)
  | executeBatch (build : ContextBuild) (calls : List ToolCall)
  | batchRunning (build : ContextBuild) (calls : List ToolCall)
  | executeCall (build : ContextBuild) (call : ToolCall) (rest : List ToolCall)
      (results : List ToolResult)
  | callRunning (build : ContextBuild) (call : ToolCall) (rest : List ToolCall)
      (results : List ToolResult)
  | resultRecorded (build : ContextBuild) (result : ToolResult) (rest : List ToolResult)
  -- the end of the turn
  | pollAfterTools (build : ContextBuild)
  | saveCheckpoint (build : ContextBuild)
  | acknowledgeTurn (nextTurn : Nat)
  | checkpointSaved (nextTurn : Nat)
  -- the `except` clauses and the end
  | finishCancelled (outcome : AgentOutcome)
  | acknowledgeCancelled (outcome : AgentOutcome)
  | finishFailed (outcome : AgentOutcome)
  | returned (outcome : AgentOutcome)
  | raised (error : PyError)
deriving DecidableEq, Repr

/-- The coroutine is finished. -/
def HarnessPhase.isOver : HarnessPhase → Bool
  | .returned _ | .raised _ => true
  | _ => false

/-- The outcome that the awaited closing transaction tries to record. -/
def HarnessPhase.closing? : HarnessPhase → Option AgentOutcome
  | .finishAnswer outcome | .finishCancelled outcome | .finishFailed outcome => some outcome
  | _ => none

/-- The monotonic clock where a step reads it: first when it leaves a wait,
then when it enters one. -/
structure ClockReadings where
  leaveNs : Int := 0
  enterNs : Int := 0
deriving DecidableEq, Repr

inductive HarnessEvent where
  | modelRequested (journal : List ModelMessage)
  | toolStarted (call : ToolCall) (effect : ToolEffect)
  | toolReturned (call : ToolCall) (result : ToolResult)
deriving DecidableEq, Repr

/-- Code between two awaits inside the `try`: the new locals with the next await
or with the exception that leaves the `try`. -/
abbrev HarnessSegment := Locals × Except PyError HarnessPhase

namespace AgentHarness

def limited (l : Locals) (step : Except PyError Locals) (next : Locals → HarnessSegment) :
    HarnessSegment :=
  match step with
  | .ok after => next after
  | .error e => (l, .error e)

/-- Await the control inbox, or go on when the harness has none. -/
def poll (inv : Invocation) (l : Locals) (phase : HarnessPhase)
    (next : Locals → HarnessSegment) : HarnessSegment :=
  if inv.hasInbox then (l, .ok phase) else next l

/-- From the built context to the event `turn_started`. -/
def requestModel (inv : Invocation) (l : Locals) (build : ContextBuild) : HarnessSegment :=
  match inv.registry.definitions inv.definition.toolIds with
  | .error e => (l, .error e)
  | .ok _ => (l, .ok (.turnStarted build))

def buildContext (inv : Invocation) (l : Locals) : HarnessSegment :=
  match raiseIfCancelled l with
  | .error e => (l, .error e)
  | .ok () =>
      match ContextEngine.build inv.definition inv.loaded inv.request.userRequest
          inv.request.evidence l.journal with
      | .error e => (l, .error e)
      | .ok build =>
          if build.journalCompacted then (l, .ok (.contextCompacted build))
          else requestModel inv l build

/-- The head of the `while` loop. -/
def beginTurn (inv : Invocation) (l : Locals) : HarnessSegment :=
  let l := { l with turn := l.turn + 1 }
  poll inv l .pollBeforeModel (buildContext inv)

def assistantMessage (response : ModelResponse) : ModelMessage :=
  { role := .assistant, content := response.content, toolCalls := response.toolCalls }

def receiveAnswer (l : Locals) (build : ContextBuild) (response : ModelResponse) :
    HarnessSegment :=
  match l.ledger.consumeIfLimited .costMicros response.usage.costMicros with
  | .error e => (l, .error e)
  | .ok ledger =>
      ({ l with ledger, journal := l.journal ++ [assistantMessage response] },
        .ok (.modelCompleted build response))

def closeTurn (l : Locals) (build : ContextBuild) : HarnessSegment :=
  match raiseIfCancelled l with
  | .error e => (l, .error e)
  | .ok () => (l, .ok (.saveCheckpoint build))

/-- The results of the batch are recorded one at a time, then the inbox is
polled once more. -/
def recordNext (inv : Invocation) (l : Locals) (build : ContextBuild) :
    List ToolResult → HarnessSegment
  | [] => poll inv l (.pollAfterTools build) fun l => closeTurn l build
  | result :: rest =>
      limited l (recordResult l result) fun l => (l, .ok (.resultRecorded build result rest))

/-- The sequential branch of the batch. -/
def nextCall (inv : Invocation) (l : Locals) (build : ContextBuild) (enterNs : Int)
    (rest : List ToolCall) (results : List ToolResult) : HarnessSegment :=
  match rest with
  | [] => recordNext inv l build results
  | call :: rest =>
      limited l (enterWait l enterNs) fun l => (l, .ok (.executeCall build call rest results))

def executeTools (inv : Invocation) (l : Locals) (build : ContextBuild) (enterNs : Int)
    (calls : List ToolCall) : HarnessSegment :=
  if inv.registry.batchParallelSafe calls then
    limited l (enterWait l enterNs) fun l => (l, .ok (.executeBatch build calls))
  else nextCall inv l build enterNs calls []

/-- The loop that charges and announces every call before the first one runs. -/
def requestTools (inv : Invocation) (l : Locals) (build : ContextBuild) (enterNs : Int)
    (calls rest : List ToolCall) : HarnessSegment :=
  match rest with
  | [] => executeTools inv l build enterNs calls
  | _ :: _ =>
      match raiseIfCancelled l with
      | .error e => (l, .error e)
      | .ok () =>
          match l.ledger.consumeIfLimited .toolCalls 1 with
          | .error e => (l, .error e)
          | .ok ledger => ({ l with ledger }, .ok (.toolRequested build calls rest))

/-- After the poll that follows the answer of the model. -/
def useAnswer (inv : Invocation) (l : Locals) (build : ContextBuild) (response : ModelResponse)
    (enterNs : Int) : HarnessSegment :=
  match raiseIfCancelled l with
  | .error e => (l, .error e)
  | .ok () =>
      if response.toolCalls.isEmpty then
        if !l.pendingAckIds.isEmpty then (l, .ok (.saveAnswer build))
        else (l, .ok (.finishAnswer (outcomeOf response.content inv.definition l)))
      else requestTools inv l build enterNs response.toolCalls response.toolCalls

/-- After `save_checkpoint` of an answer that has controls to acknowledge. -/
def afterAnswerSaved (inv : Invocation) (l : Locals) : HarnessSegment :=
  if inv.hasInbox then (l, .ok .acknowledgeAnswer)
  else beginTurn inv { l with pendingAckIds := [] }

/-- After `save_checkpoint` of a tool turn: the acknowledgement is awaited only
when there is something to acknowledge. -/
def afterTurnSaved (inv : Invocation) (l : Locals) : HarnessSegment :=
  if inv.hasInbox ∧ !l.pendingAckIds.isEmpty then (l, .ok (.acknowledgeTurn (l.turn + 1)))
  else ({ l with pendingAckIds := [] }, .ok (.checkpointSaved (l.turn + 1)))

/-- The `except` clauses. -/
def settle : HarnessSegment → Locals × HarnessPhase
  | (l, .ok phase) => (l, phase)
  | (l, .error (.cancelledByPolicy text)) =>
      (l, .finishCancelled { status := .cancelled, summary := text })
  | (l, .error (.wallTimeBudgetExceeded text)) =>
      (l, .finishFailed
        { status := .failed, summary := text, warnings := ["wall_time_budget_exhausted"] })
  | (l, .error e) =>
      if e.isLookupValueOrRuntime then
        (l, .finishFailed
          { status := .failed, summary := e.text, warnings := [e.className] })
      else (l, .raised e)

theorem settle_ok {s : HarnessSegment} {phase : HarnessPhase} (hok : s.2 = .ok phase) :
    settle s = (s.1, phase) := by
  obtain ⟨l, result⟩ := s
  cases hok
  rfl

/-- An exception in the `try` closes the run as cancelled or failed, or leaves
the coroutine; the locals stay. -/
theorem settle_error {s : HarnessSegment} {e : PyError} (herror : s.2 = .error e) :
    (settle s).1 = s.1 ∧
      ((∃ outcome, (settle s).2 = .finishCancelled outcome ∧ outcome.status = .cancelled) ∨
        (∃ outcome, (settle s).2 = .finishFailed outcome ∧ outcome.status = .failed) ∨
        (settle s).2 = .raised e) := by
  obtain ⟨l, result⟩ := s
  cases herror
  unfold settle
  split
  · rename_i hsame
    cases hsame
  · rename_i hsame
    cases hsame
    exact ⟨rfl, Or.inl ⟨_, rfl, rfl⟩⟩
  · rename_i hsame
    cases hsame
    exact ⟨rfl, Or.inr (Or.inl ⟨_, rfl, rfl⟩)⟩
  · rename_i hsame
    cases hsame
    split
    · exact ⟨rfl, Or.inr (Or.inl ⟨_, rfl, rfl⟩)⟩
    · exact ⟨rfl, Or.inr (Or.inr rfl)⟩

theorem settle_error_not_returned {s : HarnessSegment} {e : PyError} (herror : s.2 = .error e)
    (outcome : AgentOutcome) : (settle s).2 ≠ .returned outcome := by
  rcases (settle_error herror).2 with ⟨_, hphase, _⟩ | ⟨_, hphase, _⟩ | hphase
  all_goals
    rw [hphase]
    nofun

/-! ### Rules for the pieces of a turn -/

section Rules

variable {P : Locals → HarnessPhase → Prop} {inv : Invocation} {l : Locals}
  {next : Locals → HarnessSegment}

/-- The phase that the piece goes on to, if it does, has the property. -/
def GoesOn (P : Locals → HarnessPhase → Prop) (s : HarnessSegment) : Prop :=
  ∀ phase, s.2 = .ok phase → P s.1 phase

theorem goesOn_ok {phase : HarnessPhase} (hphase : P l phase) : GoesOn P (l, .ok phase) := by
  rintro _ ⟨⟩
  exact hphase

theorem goesOn_error (e : PyError) : GoesOn P (l, .error e) := by
  rintro _ ⟨⟩

theorem goesOn_limited {step : Except PyError Locals}
    (hnext : ∀ after, step = .ok after → GoesOn P (next after)) :
    GoesOn P (limited l step next) := by
  unfold limited
  cases hresult : step with
  | error e => exact goesOn_error e
  | ok after => exact hnext after hresult

theorem goesOn_poll {phase : HarnessPhase} (hphase : P l phase) (hnext : GoesOn P (next l)) :
    GoesOn P (poll inv l phase next) := by
  unfold poll
  split
  · exact goesOn_ok hphase
  · exact hnext

/-- The `except` clauses close the run as cancelled or failed, or let the exception through. -/
theorem settle_rule {s : HarnessSegment} (hs : GoesOn P s)
    (hcancelled : ∀ outcome, outcome.status = .cancelled → P s.1 (.finishCancelled outcome))
    (hfailed : ∀ outcome, outcome.status = .failed → P s.1 (.finishFailed outcome))
    (hraised : ∀ e, P s.1 (.raised e)) : P (settle s).1 (settle s).2 := by
  cases hresult : s.2 with
  | ok phase =>
      rw [settle_ok hresult]
      exact hs phase hresult
  | error e =>
      obtain ⟨hlocals, hclosing⟩ := settle_error hresult
      rw [hlocals]
      rcases hclosing with ⟨outcome, hphase, hstatus⟩ | ⟨outcome, hphase, hstatus⟩ | hphase
      · rw [hphase]
        exact hcancelled outcome hstatus
      · rw [hphase]
        exact hfailed outcome hstatus
      · rw [hphase]
        exact hraised e

end Rules

/-- `_ActiveWallTime` is created and the loop is entered. -/
def enterLoop (inv : Invocation) (l : Locals) (clock : ClockReadings) : Locals × HarnessPhase :=
  settle (beginTurn inv { l with lastNs := clock.leaveNs, remainderNs := 0 })

def enterRestored (inv : Invocation) (l : Locals) (checkpoint : RunCheckpoint)
    (clock : ClockReadings) : Locals × HarnessPhase :=
  match restoreBudget checkpoint.consumedBudget l.ledger with
  | .error e => (l, .raised e)
  | .ok ledger => enterLoop inv { l with ledger } clock

def useCheckpoint (inv : Invocation) (l : Locals) (checkpoint : Option RunCheckpoint)
    (status : Option RunStatus) (clock : ClockReadings) : Locals × HarnessPhase :=
  if status ≠ some .running then
    (l, .raised (.lookupError ("running run is unavailable: " ++ inv.request.runId)))
  else
    match checkpoint with
    | none => enterLoop inv l clock
    | some checkpoint =>
        match validateCheckpoint inv l.fingerprint checkpoint with
        | some reason => (l, .discardCheckpoint reason)
        | none =>
            let l := restore l checkpoint
            if inv.hasInbox ∧ !checkpoint.appliedControlIds.isEmpty then
              (l, .acknowledgeCheckpoint checkpoint)
            else enterRestored inv l checkpoint clock

/-- The run is not running, or its checkpoint is missing, discarded or taken up. -/
theorem useCheckpoint_rule {P : Locals × HarnessPhase → Prop} {inv : Invocation} {l : Locals}
    {loaded : Option RunCheckpoint} {status : Option RunStatus} {clock : ClockReadings}
    (hraised : ∀ e, P (l, .raised e))
    (hmissing : status = some .running → loaded = none → P (enterLoop inv l clock))
    (hdiscarded : ∀ checkpoint reason, status = some .running → loaded = some checkpoint →
      validateCheckpoint inv l.fingerprint checkpoint = some reason →
        P (l, .discardCheckpoint reason))
    (haccepted : ∀ checkpoint, status = some .running → loaded = some checkpoint →
      validateCheckpoint inv l.fingerprint checkpoint = none →
        (inv.hasInbox = true → P (restore l checkpoint, .acknowledgeCheckpoint checkpoint)) ∧
          P (enterRestored inv (restore l checkpoint) checkpoint clock)) :
    P (useCheckpoint inv l loaded status clock) := by
  unfold useCheckpoint
  split
  · exact hraised _
  · rename_i hstatus
    have hrunning : status = some .running := not_not.mp hstatus
    split
    · exact hmissing hrunning rfl
    · rename_i checkpoint
      split
      · rename_i reason hreason
        exact hdiscarded checkpoint reason hrunning rfl hreason
      · rename_i hnone
        obtain ⟨hacknowledged, hentered⟩ := haccepted checkpoint hrunning rfl hnone
        dsimp only
        split
        · rename_i hinbox
          exact hacknowledged hinbox.1
        · exact hentered

/-- The code before the first await. -/
def launch (inv : Invocation) (resume : Bool) : Except PyError (Locals × HarnessPhase) := do
  let fingerprint ← inv.registry.schemaFingerprint inv.digest inv.definition.toolIds
  let ledger ← BudgetLedger.fromLimits inv.definition.budgetLimits
  .ok ({ ledger, fingerprint }, if resume then .loadCheckpoint else .startRun)

/-! ### Where a turn begins -/

theorem requestModel_cases (inv : Invocation) (l : Locals) (build : ContextBuild) :
    (requestModel inv l build).1 = l ∧
      ((requestModel inv l build).2 = .ok (.turnStarted build) ∨
        ∃ e, (requestModel inv l build).2 = .error e) := by
  unfold requestModel
  split
  · exact ⟨rfl, Or.inr ⟨_, rfl⟩⟩
  · exact ⟨rfl, Or.inl rfl⟩

theorem buildContext_cases (inv : Invocation) (l : Locals) :
    (buildContext inv l).1 = l ∧
      ((∃ build, (buildContext inv l).2 = .ok (.contextCompacted build) ∨
        (buildContext inv l).2 = .ok (.turnStarted build)) ∨
        ∃ e, (buildContext inv l).2 = .error e) := by
  unfold buildContext
  split
  · exact ⟨rfl, Or.inr ⟨_, rfl⟩⟩
  · split
    · exact ⟨rfl, Or.inr ⟨_, rfl⟩⟩
    · rename_i build _
      split
      · exact ⟨rfl, Or.inl ⟨build, Or.inl rfl⟩⟩
      · obtain ⟨hlocals, hstarted | herror⟩ := requestModel_cases inv l build
        · exact ⟨hlocals, Or.inl ⟨build, Or.inr hstarted⟩⟩
        · exact ⟨hlocals, Or.inr herror⟩

theorem beginTurn_cases (inv : Invocation) (l : Locals) :
    (beginTurn inv l).1 = { l with turn := l.turn + 1 } ∧
      ((beginTurn inv l).2 = .ok .pollBeforeModel ∨
        (∃ build, (beginTurn inv l).2 = .ok (.contextCompacted build) ∨
          (beginTurn inv l).2 = .ok (.turnStarted build)) ∨
        ∃ e, (beginTurn inv l).2 = .error e) := by
  unfold beginTurn poll
  dsimp only
  split
  · exact ⟨rfl, Or.inl rfl⟩
  · obtain ⟨hlocals, hcases⟩ := buildContext_cases inv { l with turn := l.turn + 1 }
    exact ⟨hlocals, Or.inr hcases⟩

/-! ### The awaited transactions -/

/-- A transaction inside the `try`. -/
def inTry {α : Type} (l : Locals) (operation : Database → Except PyError (α × Database))
    (db : Database) (next : α → HarnessSegment) : Database × Locals × HarnessPhase :=
  match operation db with
  | .ok (value, after) => (after, settle (next value))
  | .error e => (db, settle (l, .error e))

/-- A transaction before the `try` or in an `except` clause. -/
def outside {α : Type} (l : Locals) (operation : Database → Except PyError (α × Database))
    (db : Database) (next : α → Locals × HarnessPhase) : Database × Locals × HarnessPhase :=
  match operation db with
  | .ok (value, after) => (after, next value)
  | .error e => (db, l, .raised e)

section Rules

variable {α : Type} {P : Locals × HarnessPhase → Prop} {l : Locals} {db after : Database}
  {state : Locals × HarnessPhase} {operation : Database → Except PyError (α × Database)}

theorem inTry_rule {next : α → HarnessSegment}
    (hcommit : inTry l operation db next = (after, state))
    (hok : ∀ value, operation db = .ok (value, after) → P (settle (next value)))
    (herror : ∀ e, P (settle (l, .error e))) : P state := by
  unfold inTry at hcommit
  cases hop : operation db with
  | error e =>
      rw [hop] at hcommit
      cases hcommit
      exact herror e
  | ok result =>
      rw [hop] at hcommit
      cases hcommit
      exact hok result.1 hop

theorem outside_rule {next : α → Locals × HarnessPhase}
    (hcommit : outside l operation db next = (after, state))
    (hok : ∀ value, operation db = .ok (value, after) → P (next value))
    (hraised : ∀ e, P (l, .raised e)) : P state := by
  unfold outside at hcommit
  cases hop : operation db with
  | error e =>
      rw [hop] at hcommit
      cases hcommit
      exact hraised e
  | ok result =>
      rw [hop] at hcommit
      cases hcommit
      exact hok result.1 hop

end Rules

def event (inv : Invocation) (eventType : String) (payload : List (String × Json)) :
    Database → Except PyError (Unit × Database) :=
  SessionStore.appendEvent inv.request.runId eventType payload inv.clockMs

def save (inv : Invocation) (l : Locals) (build : ContextBuild) :
    Database → Except PyError (Unit × Database) :=
  SessionStore.saveCheckpoint (checkpointOf inv l build.sourceVersions) inv.clockMs

def finish (inv : Invocation) (outcome : AgentOutcome) (appliedControlIds : List String) :
    Database → Except PyError (Bool × Database) :=
  SessionStore.tryFinishWithOutcome inv.request.runId outcome appliedControlIds inv.clockMs

def acknowledge (inv : Invocation) (controlIds : List String) (db : Database) : Database :=
  RuntimeStore.acknowledgeControls inv.request.taskId controlIds inv.clockMs db

def pending (inv : Invocation) (db : Database) : List ControlRow :=
  RuntimeStore.pendingControls inv.request.taskId db

def startRunArgs (inv : Invocation) : SessionStore.StartRun :=
  { runId := inv.request.runId, taskId := inv.request.taskId
    sessionKey := inv.request.toolContext.sessionKey, agentId := inv.definition.agentId
    agentVersion := inv.definition.version, policyVersion := inv.definition.policyVersion
    traceId := (inv.request.toolContext.traceId.filter (· ≠ "")).getD inv.request.runId }

def runStartedPayload (inv : Invocation) : List (String × Json) :=
  [("agent_id", .str inv.definition.agentId), ("agent_version", .int inv.definition.version),
    ("node_id", .str inv.request.nodeId)]

def compactedPayload (inv : Invocation) (build : ContextBuild) : List (String × Json) :=
  [("compactor_version", .int inv.definition.compactorVersion),
    ("input_message_count", .int build.inputMessageCount),
    ("output_message_count", .int build.messages.length),
    ("estimated_tokens", .int build.estimatedTokens)]

def turnStartedPayload (l : Locals) (build : ContextBuild) : List (String × Json) :=
  [("turn", .int l.turn), ("context_tokens", .int build.estimatedTokens),
    ("truncated_sources", .arr (build.truncatedSources.map Json.str))]

def modelCompletedPayload (l : Locals) (response : ModelResponse) : List (String × Json) :=
  [("turn", .int l.turn), ("tool_call_count", .int response.toolCalls.length),
    ("provider_response_id", Json.optStr response.providerResponseId),
    ("usage", .obj [("input_tokens", .int response.usage.inputTokens),
      ("output_tokens", .int response.usage.outputTokens),
      ("cost_micros", .int response.usage.costMicros)])]

def toolRequestedPayload (rest : List ToolCall) : List (String × Json) :=
  (rest.head?.map fun call =>
    [("call_id", Json.str call.callId), ("tool_id", .str call.toolId)]).getD []

def toolResultPayload (result : ToolResult) : List (String × Json) :=
  [("call_id", .str result.callId), ("tool_id", .str result.toolId),
    ("error_code", Json.optStr result.errorCode),
    ("verification", .str result.verification.state.value)]

/-- The step of a phase that awaits the database. -/
def commit (inv : Invocation) (clock : ClockReadings) (db : Database) (l : Locals) :
    HarnessPhase → Option (Database × Locals × HarnessPhase)
  | .startRun =>
      some (outside l (SessionStore.startRun (startRunArgs inv) inv.clockMs) db
        fun _ => (l, .runStarted))
  | .runStarted =>
      some (outside l (event inv "run_started" (runStartedPayload inv)) db
        fun _ => enterLoop inv l clock)
  | .loadCheckpoint =>
      some (db, l, .runStatus (SessionStore.loadCheckpoint inv.request.runId db))
  | .runStatus checkpoint =>
      some (db, useCheckpoint inv l checkpoint
        (SessionStore.runStatus inv.request.runId db) clock)
  | .discardCheckpoint reason =>
      some (outside l (SessionStore.discardCheckpoint inv.request.runId) db
        fun _ => (l, .checkpointInvalidated reason))
  | .checkpointInvalidated reason =>
      some (outside l (event inv "checkpoint_invalidated" [("reason", .str reason)]) db
        fun _ => enterLoop inv l clock)
  | .acknowledgeCheckpoint checkpoint =>
      some (acknowledge inv checkpoint.appliedControlIds db,
        enterRestored inv l checkpoint clock)
  | .pollBeforeModel =>
      some (db, settle (buildContext inv (applyControls l (pending inv db))))
  | .contextCompacted build =>
      some (inTry l (event inv "context_compacted" (compactedPayload inv build)) db
        fun _ => requestModel inv l build)
  | .turnStarted build =>
      some (inTry l (event inv "turn_started" (turnStartedPayload l build)) db
        fun _ => limited l (enterWait l clock.enterNs) fun l => (l, .ok (.completeModel build)))
  | .modelCompleted build response =>
      some (inTry l (event inv "model_completed" (modelCompletedPayload l response)) db
        fun _ => poll inv l (.pollAfterModel build response)
          fun l => useAnswer inv l build response clock.enterNs)
  | .pollAfterModel build response =>
      some (db, settle (useAnswer inv (applyControls l (pending inv db)) build response
        clock.enterNs))
  | .saveAnswer build => some (inTry l (save inv l build) db fun _ => afterAnswerSaved inv l)
  | .acknowledgeAnswer =>
      some (acknowledge inv l.pendingAckIds db,
        settle (beginTurn inv { l with pendingAckIds := [] }))
  | .finishAnswer outcome =>
      some (inTry l (finish inv outcome []) db
        fun closed => if closed then (l, .ok (.returned outcome)) else beginTurn inv l)
  | .toolRequested build calls rest =>
      some (inTry l (event inv "tool_requested" (toolRequestedPayload rest)) db
        fun _ => requestTools inv l build clock.enterNs calls rest.tail)
  | .resultRecorded build result rest =>
      some (inTry l (event inv (if result.succeeded then "tool_completed" else "tool_failed")
        (toolResultPayload result)) db fun _ => recordNext inv l build rest)
  | .pollAfterTools build =>
      some (db, settle (closeTurn (applyControls l (pending inv db)) build))
  | .saveCheckpoint build => some (inTry l (save inv l build) db fun _ => afterTurnSaved inv l)
  | .acknowledgeTurn nextTurn =>
      some (acknowledge inv l.pendingAckIds db,
        { l with pendingAckIds := [] }, .checkpointSaved nextTurn)
  | .checkpointSaved nextTurn =>
      some (inTry l (event inv "checkpoint_saved" [("next_turn", .int nextTurn)]) db
        fun _ => beginTurn inv l)
  | .finishCancelled outcome =>
      some (outside l (finish inv outcome l.pendingAckIds) db fun _ =>
        (l, if inv.hasInbox ∧ !l.pendingAckIds.isEmpty then .acknowledgeCancelled outcome
          else .returned outcome))
  | .acknowledgeCancelled outcome =>
      some (acknowledge inv l.pendingAckIds db, l, .returned outcome)
  | .finishFailed outcome =>
      some (outside l (finish inv outcome []) db fun _ => (l, .returned outcome))
  | .completeModel _ | .modelRunning _ | .executeBatch _ _ | .batchRunning _ _
  | .executeCall _ _ _ _ | .callRunning _ _ _ _ | .returned _ | .raised _ => none

end AgentHarness

structure Harness where
  inv : Invocation
  locals : Locals
  phase : HarnessPhase

/-- `begin` starts the awaited coroutine; the answers end it. An answer is the
exception that the await raises, a timeout included, or the value. `gather`
answers with all results or with the exception of one call. -/
inductive HarnessLabel where
  | commit (clock : ClockReadings)
  | begin
  | model (answer : Except PyError ModelResponse) (clock : ClockReadings)
  | batch (answer : Except PyError (List ToolExecutor.ToolAnswer)) (clock : ClockReadings)
  | tool (answer : Except PyError ToolExecutor.ToolAnswer) (clock : ClockReadings)
  | cancelToken (reason : String)
  | abort

namespace AgentHarness

/-- The results of a batch, or the first exception in the order of the calls. -/
def batchResults (registry : ToolRegistry) :
    List ToolCall → List ToolExecutor.ToolAnswer → Except PyError (List ToolResult)
  | [], _ => .ok []
  | _ :: _, [] => .error (.runtimeError "a call of the batch was not answered")
  | call :: calls, answer :: answers => do
      let result ← ToolExecutor.execute registry call answer
      let results ← batchResults registry calls answers
      .ok (result :: results)

def started (registry : ToolRegistry) (call : ToolCall) : HarnessEvent :=
  .toolStarted call (registry.effectOf call)

/-- After the await of `gather`. -/
def afterBatch (inv : Invocation) (l : Locals) (build : ContextBuild) (calls : List ToolCall)
    (answer : Except PyError (List ToolResult)) (clock : ClockReadings) :
    List HarnessEvent × HarnessSegment :=
  match leaveWait l clock.leaveNs answer with
  | .error e => ([], l, .error e)
  | .ok (l, results) =>
      ((calls.zip results).map fun entry => .toolReturned entry.1 entry.2,
        recordNext inv l build results)

/-- After the await of one call of the sequential branch. -/
def afterCall (inv : Invocation) (l : Locals) (build : ContextBuild) (call : ToolCall)
    (rest : List ToolCall) (results : List ToolResult) (answer : Except PyError ToolResult)
    (clock : ClockReadings) : List HarnessEvent × HarnessSegment :=
  match leaveWait l clock.leaveNs answer with
  | .error e => ([], l, .error e)
  | .ok (l, result) =>
      ([.toolReturned call result],
        nextCall inv l build clock.enterNs rest (results ++ [result]))

def afterModel (l : Locals) (build : ContextBuild) (answer : Except PyError ModelResponse)
    (clock : ClockReadings) : HarnessSegment :=
  match leaveWait l clock.leaveNs answer with
  | .error e => (l, .error e)
  | .ok (l, response) => receiveAnswer l build response

end AgentHarness

namespace Harness

open AgentHarness

def become (h : Harness) (state : Locals × HarnessPhase) : Harness :=
  { h with locals := state.1, phase := state.2 }

def step (db : Database) (h : Harness) :
    HarnessLabel → Option (Database × Harness × List HarnessEvent)
  | .commit clock =>
      (AgentHarness.commit h.inv clock db h.locals h.phase).map fun (after, state) =>
        (after, h.become state, [])
  | .begin =>
      match h.phase with
      | .completeModel build =>
          some (db, { h with phase := .modelRunning build },
            [.modelRequested h.locals.journal])
      | .executeBatch build calls =>
          some (db, { h with phase := .batchRunning build calls },
            calls.map (started h.inv.registry))
      | .executeCall build call rest results =>
          some (db, { h with phase := .callRunning build call rest results },
            [started h.inv.registry call])
      | _ => none
  | .model answer clock =>
      match h.phase with
      | .modelRunning build =>
          some (db, h.become (settle (afterModel h.locals build answer clock)), [])
      | _ => none
  | .batch answer clock =>
      match h.phase with
      | .batchRunning build calls =>
          let (events, segment) := afterBatch h.inv h.locals build calls
            (answer.bind (batchResults h.inv.registry calls)) clock
          some (db, h.become (settle segment), events)
      | _ => none
  | .tool answer clock =>
      match h.phase with
      | .callRunning build call rest results =>
          let (events, segment) := afterCall h.inv h.locals build call rest results
            (answer.bind (ToolExecutor.execute h.inv.registry call)) clock
          some (db, h.become (settle segment), events)
      | _ => none
  | .cancelToken reason =>
      if h.phase.isOver then none
      else some (db, { h with locals := AgentHarness.cancel h.locals reason }, [])
  | .abort =>
      if h.phase.isOver then none
      else some (db, { h with phase := .raised .cancelledError }, [])

/-- Only the awaited transactions look at the database. -/
theorem step_database {db after : Database} {h h' : Harness} {label : HarnessLabel}
    {events : List HarnessEvent} (hlabel : ∀ clock, label ≠ .commit clock)
    (hstep : h.step db label = some (after, h', events)) :
    after = db ∧ ∀ other, h.step other label = some (other, h', events) := by
  cases label with
  | commit clock => exact absurd rfl (hlabel clock)
  | begin =>
      simp only [step] at hstep ⊢
      split at hstep <;> cases hstep <;> exact ⟨rfl, fun _ => by simp_all⟩
  | model answer clock =>
      simp only [step] at hstep ⊢
      split at hstep <;> cases hstep
      exact ⟨rfl, fun _ => by simp_all⟩
  | batch answer clock =>
      simp only [step] at hstep ⊢
      split at hstep <;> cases hstep
      exact ⟨rfl, fun _ => by simp_all⟩
  | tool answer clock =>
      simp only [step] at hstep ⊢
      split at hstep <;> cases hstep
      exact ⟨rfl, fun _ => by simp_all⟩
  | cancelToken reason =>
      simp only [step] at hstep ⊢
      split at hstep <;> cases hstep
      exact ⟨rfl, fun _ => by simp_all⟩
  | abort =>
      simp only [step] at hstep ⊢
      split at hstep <;> cases hstep
      exact ⟨rfl, fun _ => by simp_all⟩

theorem step_inv {db after : Database} {h h' : Harness} {label : HarnessLabel}
    {events : List HarnessEvent} (hstep : h.step db label = some (after, h', events)) :
    h'.inv = h.inv := by
  cases label with
  | commit clock =>
      simp only [step, Option.map_eq_some_iff] at hstep
      obtain ⟨_, _, hresult⟩ := hstep
      cases hresult
      rfl
  | _ =>
      simp only [step] at hstep
      split at hstep <;> cases hstep
      all_goals rfl

end Harness

end Codex2Lark
