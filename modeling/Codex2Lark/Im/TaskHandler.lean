import Codex2Lark.Runtime.Tasks
import Codex2Lark.Runtime.Types

/-!
`IMMentionTaskHandler` of `capabilities/im/task_handler.py`: what becomes of the
outcome or the exception of the root harness.
-/

namespace Codex2Lark

open Lib

structure IMResponseTemplates where
  progressStarted : String
  completedSuffix : String
  blockedSuffix : String
  failedSuffix : String
  cancelledSuffix : String
deriving DecidableEq, Repr

/-- `graphLifecycle` says whether the optional collaborator is present. -/
structure IMMentionTaskHandler where
  templates : IMResponseTemplates
  graphLifecycle : Bool

namespace IMMentionTaskHandler

structure Binding where
  tenantKey : String
  appId : String
  chatId : String
  messageId : String
  senderId : String
deriving DecidableEq, Repr

def requiredField (payload : List (String × Json)) (field : String) : Except PyError String :=
  match Json.field? payload field with
  | some (.str value) =>
      if value = "" then .error (.valueError ("IM mention task requires " ++ field))
      else .ok value
  | _ => .error (.valueError ("IM mention task requires " ++ field))

/-- `_binding`. -/
def binding (task : LeasedTask) : Except PyError Binding := do
  let tenantKey ← requiredField task.payload "tenant_key"
  let appId ← requiredField task.payload "app_id"
  let chatId ← requiredField task.payload "chat_id"
  let messageId ← requiredField task.payload "message_id"
  let senderId ← requiredField task.payload "sender_id"
  .ok ⟨tenantKey, appId, chatId, messageId, senderId⟩

/-- `str.isspace` of one character. -/
def isSpace (c : Char) : Bool :=
  let n := c.toNat
  (9 ≤ n && n ≤ 13) || (28 ≤ n && n ≤ 32) || n = 133 || n = 160 || n = 5760 ||
    (8192 ≤ n && n ≤ 8202) || n = 8232 || n = 8233 || n = 8239 || n = 8287 || n = 12288

/-- `str.strip`. -/
def strip (text : String) : String :=
  String.ofList (((text.toList.dropWhile isSpace).reverse.dropWhile isSpace).reverse)

/-- `dict.fromkeys`: the first of equal items stays. -/
def firstOccurrences (items : List String) : List String :=
  items.foldl (fun kept item => if kept.contains item then kept else kept ++ [item]) []

/-- `_present_warnings`. -/
def presentWarnings (warnings : List String) : List String :=
  let remaining := firstOccurrences warnings
  let (remaining, presented) :=
    if remaining.contains "im_context_history_unavailable" then
      ((remaining.erase "im_context_history_unavailable").erase "im_context_incomplete",
        ["提示: 飞书拒绝了机器人读取群聊历史 (230027), " ++
          "本次回答仅基于当前消息。请检查应用身份已开通 " ++
          "im:message:readonly (或 im:message) 与 im:message.group_msg, " ++
          "并确认机器人仍在群中。"])
    else if remaining.contains "im_context_incomplete" then
      (remaining.erase "im_context_incomplete", ["提示: 本次读取的群聊上下文可能不完整。"])
    else (remaining, [])
  if remaining.isEmpty then presented
  else presented ++ ["Warnings: " ++ ", ".intercalate remaining]

/-- The suffixes by status; a running outcome has none. -/
def suffix (templates : IMResponseTemplates) : RunStatus → Option String
  | .completed => some templates.completedSuffix
  | .blocked | .waiting => some templates.blockedSuffix
  | .failed => some templates.failedSuffix
  | .cancelled => some templates.cancelledSuffix
  | .running => none

/-- `_render`. -/
def render (outcome : AgentOutcome) (suffix : String) : String :=
  let summary := strip outcome.summary
  let parts := [if summary = "" then outcome.status.value else summary] ++
    (if outcome.resourceRefs.isEmpty then []
      else ["文档链接:\n" ++ "\n".intercalate (outcome.resourceRefs.map fun item => "- " ++ item)]) ++
    presentWarnings outcome.warnings ++ [suffix]
  "\n\n".intercalate parts

/-- The task state of a run status. -/
def taskState : RunStatus → Option TaskState
  | .completed => some .succeeded
  | .blocked | .waiting => some .blocked
  | .failed => some .failed
  | .cancelled => some .cancelled
  | .running => none

theorem taskState_terminal {status : RunStatus} {state : TaskState}
    (hstate : taskState status = some state) : state.isTerminal = true := by
  cases status <;> cases hstate <;> rfl

def isTruthy : Option Json → Bool
  | none | some .null | some (.bool false) | some (.int 0) | some (.str "")
  | some (.arr []) | some (.obj []) => false
  | some (.float shown) => shown ≠ "0.0" && shown ≠ "-0.0"
  | some _ => true

def terminalKey (b : Binding) : String :=
  "im:" ++ b.tenantKey ++ ":" ++ b.appId ++ ":" ++ b.messageId ++ ":terminal:v1"

def messageKind : TaskState → String
  | .succeeded => "completed"
  | state => state.value

def terminalDraft (task : LeasedTask) (b : Binding)
    (outcome : AgentOutcome) (suffix : String) (state : TaskState) : OutboxDraft :=
  { publisherId := "feishu-im.reply", destinationRef := b.messageId
    messageKind := messageKind state, idempotencyKey := terminalKey b
    payload := [("chat_id", .str b.chatId), ("message_id", .str b.messageId),
      ("reply_in_thread", .bool (isTruthy (Json.field? task.payload "thread_id"))),
      ("text", .str (render outcome suffix))] }

/-- `_result`. -/
def result (handler : IMMentionTaskHandler) (task : LeasedTask) (b : Binding)
    (outcome : AgentOutcome) : Except PyError TaskExecutionResult :=
  match hstate : taskState outcome.status, suffix handler.templates outcome.status with
  | some state, some suffix =>
      .ok { state, terminalMessage := some (terminalDraft task b outcome suffix state)
            errorCode := if state = .succeeded then none else some (messageKind state)
            terminal := taskState_terminal hstate }
  | _, _ => .error (.valueError "Agent outcome is not terminal")

def failure (handler : IMMentionTaskHandler) (task : LeasedTask) (e : PyError) :
    Except PyError TaskExecutionResult := do
  let b ← binding task
  handler.result task b
    { status := .failed
      summary := "The request could not be completed after the retry limit."
      warnings := [e.className] }

/-- `execute` from the end of the `try` on. `lifecycle` is the answer of the one
`finish` of the graph that is awaited. -/
def afterRun (handler : IMMentionTaskHandler) (task : LeasedTask) (b : Binding)
    (contextWarnings : List String) (lifecycle : Except PyError Unit)
    (answer : Except PyError AgentOutcome) : Except PyError TaskExecutionResult :=
  match answer with
  | .error e => do
      if e.isException ∧ handler.graphLifecycle ∧ task.maxAttempts ≤ task.attemptCount then
        lifecycle
      .error e
  | .ok outcome => do
      if handler.graphLifecycle then lifecycle
      handler.result task b
        (if contextWarnings.isEmpty then outcome
          else { outcome with warnings := outcome.warnings ++ contextWarnings })

/-- A failed outcome is a failed task with a terminal message. -/
theorem result_failed (handler : IMMentionTaskHandler) (task : LeasedTask) (b : Binding)
    {outcome : AgentOutcome} (hfailed : outcome.status = .failed) :
    ∃ settled draft, handler.result task b outcome = .ok settled ∧ settled.state = .failed ∧
      settled.terminalMessage = some draft ∧ draft.idempotencyKey = terminalKey b := by
  obtain ⟨status, summary, resourceRefs, warnings⟩ := outcome
  cases hfailed
  exact ⟨_, _, rfl, rfl, rfl, rfl⟩

theorem afterRun_failed {handler : IMMentionTaskHandler} {task : LeasedTask} {b : Binding}
    {contextWarnings : List String} {lifecycle : Except PyError Unit} {outcome : AgentOutcome}
    (hfailed : outcome.status = .failed) (hlifecycle : lifecycle = .ok ()) :
    ∃ settled draft, handler.afterRun task b contextWarnings lifecycle (.ok outcome) = .ok settled ∧
      settled.state = .failed ∧ settled.terminalMessage = some draft ∧
      draft.idempotencyKey = terminalKey b := by
  have hwarned : (if contextWarnings.isEmpty then outcome else
      { outcome with warnings := outcome.warnings ++ contextWarnings }).status = .failed := by
    split <;> exact hfailed
  obtain ⟨settled, draft, hresult, hrest⟩ := handler.result_failed task b hwarned
  refine ⟨settled, draft, ?_, hrest⟩
  subst hlifecycle
  unfold afterRun
  cases handler.graphLifecycle <;> exact hresult

end IMMentionTaskHandler

end Codex2Lark
