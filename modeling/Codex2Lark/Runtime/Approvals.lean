import Codex2Lark.Runtime.Tools
import Codex2Lark.Storage.RuntimeStore

/-!
`DurableApprovalBroker` and `ApprovalDecisionService` of `runtime/approvals.py`. The
approval row is committed before the broker answers, so its exception rolls nothing
back.
-/

namespace Codex2Lark

open Lib

/-- `digest` is the SHA-256 hex digest. -/
structure DurableApprovalBroker where
  ttlMs : Nat := 15 * 60 * 1000
  pollDelayMs : Nat := 2000
  digest : String → String
  timingPositive : 1 ≤ min ttlMs pollDelayMs := by decide

namespace DurableApprovalBroker

/-- The separator of the hashed identifier. -/
def nul : String := String.ofList [Char.ofNat 0]

def approvalId (broker : DurableApprovalBroker) (runId toolId argumentDigest : String) : String :=
  "apr_" ++ broker.digest (runId ++ nul ++ toolId ++ nul ++ argumentDigest)

def plainText (content : String) : Json :=
  .obj [("tag", .str "plain_text"), ("content", .str content)]

def button (label kind approvalId decision : String) : Json :=
  .obj [("tag", .str "button"), ("text", plainText label), ("type", .str kind),
    ("value", .obj [("approval_id", .str approvalId), ("decision", .str decision)])]

def cardContent (toolId approvalId : String) (expiresAtMs : Int) : Json :=
  .obj [("schema", .str "2.0"), ("config", .obj [("wide_screen_mode", .bool true)]),
    ("header", .obj [("title", plainText "需要你的确认")]),
    ("body", .obj [("elements", .arr
      [.obj [("tag", .str "markdown"),
        ("content", .str ("即将执行一项可能删除或覆盖数据的操作。\n" ++
          "**操作类型：** `" ++ toolId ++ "`\n" ++
          "**目标：** 当前请求绑定的飞书资源\n" ++
          "请确认是否继续。为保护隐私，卡片不会展示原始参数。"))],
       .obj [("tag", .str "action"),
        ("actions", .arr [button "确认执行" "primary" approvalId "approved",
          button "暂不执行" "default" approvalId "rejected"])],
       .obj [("tag", .str "note"),
        ("elements", .arr
          [plainText ("审批将在 " ++ toString expiresAtMs ++ "（Unix ms）后失效。")])]])])]

/-- `_card`. -/
def card (definition : ToolDefinition) (context : ToolContext) (approvalId : String)
    (expiresAtMs : Int) : OutboxDraft :=
  { publisherId := "feishu-im.reply", destinationRef := context.sourceMessageId.getD ""
    messageKind := "approval", idempotencyKey := "approval:" ++ approvalId ++ ":request:v1"
    payload := [("chat_id", Json.optStr context.chatId),
      ("message_id", Json.optStr context.sourceMessageId),
      ("reply_in_thread", .bool context.replyInThread),
      ("card", cardContent definition.toolId approvalId expiresAtMs)] }

/-- The row that one call asks for. -/
def approvalRequest (broker : DurableApprovalBroker) (definition : ToolDefinition)
    (call : ToolCall) (context : ToolContext) (taskId : String) (nowMs : Int) :
    RuntimeStore.ApprovalRequest :=
  let argumentDigest := broker.digest (Json.dumps Json.compact (.obj call.arguments))
  let approvalId := broker.approvalId context.runId definition.toolId argumentDigest
  { approvalId, taskId, runId := context.runId, tenantKey := context.tenantKey
    appId := context.appId, sessionKey := context.sessionKey, actorId := context.actorId
    toolId := definition.toolId, argumentDigest
    traceId := (context.traceId.filter (· ≠ "")).getD context.runId
    expiresAtMs := nowMs + broker.ttlMs
    card := card definition context approvalId (nowMs + broker.ttlMs) }

/-- What the broker makes of the state of the row. -/
def answer (broker : DurableApprovalBroker) : ApprovalState → Except PyError Bool
  | .approved => .ok true
  | .pending => .error (.taskDeferred "approval_pending" broker.pollDelayMs)
  | .rejected | .expired => .ok false

def request (broker : DurableApprovalBroker) (definition : ToolDefinition) (call : ToolCall)
    (context : ToolContext) (outboxId : String) (nowMs : Int) (db : Database) :
    Except PyError Bool × Database :=
  match context.taskId, context.chatId, context.sourceMessageId with
  | some taskId, some _, some _ =>
      let (state, after) := db.transaction
        (RuntimeStore.requestApproval
          (broker.approvalRequest definition call context taskId nowMs) outboxId nowMs)
      (state.bind broker.answer, after)
  | _, _, _ =>
      (.error (.runtimeError "destructive approval requires a durable IM task binding"), db)

end DurableApprovalBroker

namespace ApprovalDecisionService

def mapping : Option Json → Except PyError (List (String × Json))
  | some (.obj fields) => .ok fields
  | _ => .error (.valueError "approval callback field is not an object")

/-- `_text`. -/
def requiredText (value : Option Json) (field : String) : Except PyError String :=
  match value with
  | some (.str text) =>
      if text = "" then .error (.valueError ("approval callback requires " ++ field)) else .ok text
  | _ => .error (.valueError ("approval callback requires " ++ field))

/-- `_messages.get(result, ...)`. -/
def message (result : String) : String :=
  if result = "approved" then "好的，已经收到你的确认，我继续处理喔～"
  else if result = "rejected" then "好的，这项操作不会执行。如果想换个方式处理，告诉我就好。"
  else if result = "expired" then "这次确认已经过期了，请重新发起请求，我再帮你处理。"
  else if result = "unauthorized" then "这张确认卡只能由最初提出请求的人操作喔。"
  else "这次确认已经处理。"

def acknowledgement (approvalId eventId chatId messageId result : String) : OutboxDraft :=
  { publisherId := "feishu-im.reply", destinationRef := messageId, messageKind := "progress"
    idempotencyKey := "approval:" ++ approvalId ++ ":decision:" ++ eventId
    payload := [("chat_id", .str chatId), ("message_id", .str messageId),
      ("reply_in_thread", .bool false), ("text", .str (message result))] }

/-- The decision that a callback asks for. -/
def decisionOf (appId : String) (raw : List (String × Json)) (nowMs : Int) :
    Except PyError RuntimeStore.ApprovalDecision := do
  let header ← mapping (Json.field? raw "header")
  let event ← mapping (Json.field? raw "event")
  let action ← mapping (Json.field? event "action")
  let value ← mapping (Json.field? action "value")
  let operator ← mapping (Json.field? event "operator")
  let callbackContext ← mapping (Json.field? event "context")
  let approvalId ← requiredText (Json.field? value "approval_id") "approval_id"
  let decision ← requiredText (Json.field? value "decision") "decision"
  let actorId ← requiredText (Json.field? operator "open_id") "operator.open_id"
  let tenantKey ← requiredText (Json.field? operator "tenant_key") "operator.tenant_key"
  let messageId ← requiredText (Json.field? callbackContext "open_message_id") "message_id"
  let chatId ← requiredText (Json.field? callbackContext "open_chat_id") "chat_id"
  let eventId ← requiredText (Json.field? header "event_id") "header.event_id"
  .ok
    { event :=
        { eventId, pluginId := "feishu-im", eventType := "card.approval.decided", tenantKey, appId
          occurredAtMs := nowMs, receivedAtMs := nowMs, resourceKind := "im.message"
          resourceId := messageId, traceId := eventId
          sourcePayload := some (Json.dumps {} (.obj raw)) }
      approvalId, actorId, decision
      acknowledgement := acknowledgement approvalId eventId chatId messageId }

def handle (appId : String) (raw : List (String × Json)) (outboxId : String) (nowMs : Int)
    (db : Database) : Except PyError String × Database :=
  match decisionOf appId raw nowMs with
  | .error e => (.error e, db)
  | .ok args => db.transaction (RuntimeStore.decideApproval args outboxId nowMs)

end ApprovalDecisionService

end Codex2Lark
