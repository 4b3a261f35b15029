import Codex2Lark.Im.Mirror
import Codex2Lark.Runtime.TaskWorker

/-!
The events of a bot that joins or leaves a chat: `capabilities/im/membership.py` and the access
part of `capabilities/im/lifecycle.py`. Each event is admitted as one task, and the task writes
the access of the chat.
-/

namespace Codex2Lark

open Lib

/-- The clock and the identifiers that an admission draws. -/
structure AdmissionInputs where
  nowMs : Int
  traceId : String
  taskId : String
deriving DecidableEq, Repr

structure Admission where
  event : NormalizedEvent
  command : TaskCommand
deriving DecidableEq, Repr

/-- `_required_text`; `source` names the event in the message. -/
def requiredText (source field : String) : Option Json → Except PyError String
  | some (.str value) =>
      if value = "" then .error (.valueError (source ++ " is missing " ++ field)) else .ok value
  | _ => .error (.valueError (source ++ " is missing " ++ field))

/-- `_timestamp_ms`: seconds are scaled. `intOf` is `int` of a string. -/
def timestampMs (intOf : String → Except PyError Int) (source field : String) :
    Option Json → Except PyError Int
  | some (.str text) => (intOf text).map fun n => if n < 1000000000000 then n * 1000 else n
  | some (.int n) => .ok (if n < 1000000000000 then n * 1000 else n)
  | _ => .error (.valueError (source ++ " is missing " ++ field))

def chatPayload (chat : ChatKey) : List (String × Json) :=
  [("tenant_key", .str chat.tenantKey), ("app_id", .str chat.appId), ("chat_id", .str chat.chatId)]

/-- What the two admissions have in common; `sourcePayload` is the encoded payload. -/
def chatAdmission (chat : ChatKey) (eventId eventType commandType sessionSuffix : String)
    (occurredAtMs : Int) (sourcePayload : String) (inputs : AdmissionInputs) : Admission :=
  { event :=
      { eventId, pluginId := "feishu-im", eventType, tenantKey := chat.tenantKey
        appId := chat.appId, occurredAtMs, receivedAtMs := inputs.nowMs, resourceKind := "im.chat"
        resourceId := chat.chatId, traceId := inputs.traceId, sourcePayload := some sourcePayload
        payloadExpiresAtMs := some (inputs.nowMs + 24 * 60 * 60 * 1000) }
    command :=
      { pluginId := "feishu-im", commandType
        sessionKey := chat.tenantKey ++ "/" ++ chat.appId ++ "/" ++ chat.chatId ++ sessionSuffix
        payload := chatPayload chat, availableAtMs := inputs.nowMs, groupId := some chat.chatId } }

/-- The attributes `raw` and `chat_id` of the event. -/
structure BotAddedEvent where
  raw : Option Json
  chatId : Option Json
deriving DecidableEq, Repr

structure BotAddedAdmissionService where
  appId : String
  intOf : String → Except PyError Int
  identified : appId ≠ ""

namespace BotAddedAdmissionService

def header (event : BotAddedEvent) : List (String × Json) :=
  match event.raw with
  | some (.obj raw) =>
      match Json.field? raw "header" with
      | some (.obj header) => header
      | _ => []
  | _ => []

def handleBotAdded (service : BotAddedAdmissionService) (event : BotAddedEvent)
    (inputs : AdmissionInputs) : Except PyError Admission := do
  let header := header event
  let eventId ← requiredText "bot-added event" "event_id" (Json.field? header "event_id")
  let tenantKey ← requiredText "bot-added event" "tenant_key" (Json.field? header "tenant_key")
  let chatId ← requiredText "bot-added event" "chat_id" event.chatId
  let occurredAtMs ← timestampMs service.intOf "bot-added event" "create_time"
    (Json.field? header "create_time")
  let chat : ChatKey := ⟨tenantKey, service.appId, chatId⟩
  .ok (chatAdmission chat eventId "im.chat.member.bot.added_v1" "im.ensure_owner_membership"
    "/membership" occurredAtMs (Json.dumpsAscii Json.compact (.obj (chatPayload chat))) inputs)

end BotAddedAdmissionService

structure IMLifecycleAdmissionService where
  appId : String
  intOf : String → Except PyError Int
  identified : appId ≠ ""

namespace IMLifecycleAdmissionService

def envelope (raw : List (String × Json)) :
    Except PyError (List (String × Json) × List (String × Json)) :=
  match Json.field? raw "header", Json.field? raw "event" with
  | some (.obj header), some (.obj event) => .ok (header, event)
  | _, _ => .error (.valueError "lifecycle event envelope is malformed")

/-- `_admit` for a whole chat. -/
def admitChat (service : IMLifecycleAdmissionService) (header : List (String × Json))
    (eventType commandType sessionSuffix chatId : String) (inputs : AdmissionInputs) :
    Except PyError Admission := do
  let tenantKey ← requiredText "lifecycle event" "tenant_key" (Json.field? header "tenant_key")
  let occurredAtMs ← timestampMs service.intOf "lifecycle event" "create_time"
    (Json.field? header "create_time")
  let eventId ← requiredText "lifecycle event" "event_id" (Json.field? header "event_id")
  let chat : ChatKey := ⟨tenantKey, service.appId, chatId⟩
  .ok (chatAdmission chat eventId eventType commandType sessionSuffix occurredAtMs
    (Json.dumps Json.compact (.obj (chatPayload chat))) inputs)

def handleBotRemoved (service : IMLifecycleAdmissionService) (raw : List (String × Json))
    (inputs : AdmissionInputs) : Except PyError Admission := do
  let (header, event) ← envelope raw
  let chatId ← requiredText "lifecycle event" "chat_id" (Json.field? event "chat_id")
  let _ ← requiredText "lifecycle event" "tenant_key" (Json.field? header "tenant_key")
  service.admitChat header "im.chat.member.bot.deleted_v1" "im.revoke_chat_access"
    "/lifecycle/access" chatId inputs

end IMLifecycleAdmissionService

/-! ### The handlers -/

def succeeded : TaskExecutionResult := { state := .succeeded, terminal := rfl }

def failedWith (e : PyError) : TaskExecutionResult :=
  { state := .failed, errorCode := some e.className, terminal := TaskState.failed_terminal }

namespace MembershipTaskHandler

/-- The check before `ensure_current_user`. -/
def chatId (task : LeasedTask) : Except PyError String :=
  match Json.field? task.payload "chat_id" with
  | some (.str chatId) =>
      if chatId = "" then .error (.valueError "membership task requires chat_id") else .ok chatId
  | _ => .error (.valueError "membership task requires chat_id")

/-- The chat whose access is restored after it. -/
def chat (task : LeasedTask) : Except PyError ChatKey := do
  let chatId ← chatId task
  match Json.field? task.payload "tenant_key", Json.field? task.payload "app_id" with
  | some (.str tenantKey), some (.str appId) => .ok ⟨tenantKey, appId, chatId⟩
  | _, _ => .error (.valueError "membership task requires tenant_key and app_id")

def failure (_ : LeasedTask) (e : PyError) : Except PyError TaskExecutionResult := .ok (failedWith e)

end MembershipTaskHandler

namespace IMLifecycleTaskHandler

def field (task : LeasedTask) (name : String) : Except PyError String :=
  match Json.field? task.payload name with
  | some (.str value) =>
      if value = "" then .error (.valueError ("IM lifecycle task requires " ++ name)) else .ok value
  | _ => .error (.valueError ("IM lifecycle task requires " ++ name))

def chat (task : LeasedTask) : Except PyError ChatKey := do
  let tenantKey ← field task "tenant_key"
  let appId ← field task "app_id"
  let chatId ← field task "chat_id"
  .ok ⟨tenantKey, appId, chatId⟩

def failure (_ : LeasedTask) (e : PyError) : Except PyError TaskExecutionResult := .ok (failedWith e)

end IMLifecycleTaskHandler

/-- A worker over the handlers of the gateway; the handler of mentions is any. -/
structure GatewayWorker where
  mention : TaskHandler
  workerId : String
  leaseMs : Nat := 300000
  retryDelayMs : Nat := 2000

def GatewayWorker.tasks (gateway : GatewayWorker) : DurableTaskWorker :=
  { handlers := [("im.handle_mention", gateway.mention),
      ("im.ensure_owner_membership", ⟨MembershipTaskHandler.failure⟩),
      ("im.invalidate_message", ⟨IMLifecycleTaskHandler.failure⟩),
      ("im.revoke_chat_access", ⟨IMLifecycleTaskHandler.failure⟩)]
    workerId := gateway.workerId, leaseMs := gateway.leaseMs, retryDelayMs := gateway.retryDelayMs }

end Codex2Lark
