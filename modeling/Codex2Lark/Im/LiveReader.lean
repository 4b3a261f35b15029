import Codex2Lark.Capabilities.WriteTargets
import Codex2Lark.Im.ContextProvider

/-!
`OfficialIMMessageAPI.list` and `OfficialLiveIMReader.recent_messages` of
`capabilities/im/live_reader.py`, and `recent_messages` of the mirror. The client of the Feishu API
is a parameter.
-/

namespace Codex2Lark

open Lib IMRepository

/-! ### The Feishu API -/

structure ListMessageRequest where
  containerIdType : String
  containerId : String
  sortType : String
  pageSize : Nat
  /-- Seconds. -/
  startTime : Option Int
  endTime : Option Int
  pageToken : Option String
deriving DecidableEq, Repr

/-- A field that is no text is `none`. -/
structure WireMention where
  id : Option String
  name : Option String
  key : Option String
deriving DecidableEq, Repr

inductive WireTime where
  | missing
  | text (value : String)
  | number (value : Int)
  | other
deriving DecidableEq, Repr

structure WireMessage where
  messageId : Option String
  chatId : Option String
  senderId : Option String
  senderType : Option String := none
  tenantKey : Option String := none
  msgType : Option String := none
  content : Option String := none
  mentions : List WireMention := []
  createTime : WireTime
  updateTime : WireTime := .missing
  threadId : Option String := none
  rootId : Option String := none
  parentId : Option String := none
  deleted : Bool := false
deriving DecidableEq, Repr

structure ListMessageResponse where
  code : Int
  requestId : Option String := none
  items : List WireMessage
  hasMore : Bool
  pageToken : Option String
deriving DecidableEq, Repr

structure WireMessagePage where
  items : List WireMessage
  hasMore : Bool
  pageToken : Option String
deriving DecidableEq, Repr

/-- `alist` is `client.im.v1.message.alist`, `loads` is `json.loads`, `parseInt` is `int`. -/
structure OfficialLiveIMReader where
  alist : ListMessageRequest → ListMessageResponse
  botOpenId : Option String
  loads : String → Option Json
  parseInt : String → Option Int

namespace OfficialLiveIMReader

variable (reader : OfficialLiveIMReader)

/-- `_require_success` after `list`. -/
def requireSuccess (response : ListMessageResponse) : Except PyError Unit :=
  let request := "request_id=" ++ response.requestId.getD "None"
  if response.code = 0 then .ok ()
  else if response.code = 230027 then
    .error (.other "IMHistoryUnavailableError" ("Feishu group history is unavailable: " ++ request))
  else
    .error (.runtimeError
      ("Feishu list messages failed: code=" ++ toString response.code ++ ", " ++ request))

def listRequest (containerType containerId : String) (startTimeS endTimeS : Option Int) (limit : Nat)
    (pageToken : Option String) : ListMessageRequest where
  containerIdType := containerType
  containerId := containerId
  sortType := "ByCreateTimeAsc"
  pageSize := min 50 limit
  startTime := startTimeS
  endTime := endTimeS
  pageToken := pageToken.filter (· ≠ "")

/-- `OfficialIMMessageAPI.list`. -/
def list (containerType containerId : String) (startTimeS endTimeS : Option Int) (limit : Nat)
    (pageToken : Option String) : Except PyError WireMessagePage := do
  let response :=
    reader.alist (listRequest containerType containerId startTimeS endTimeS limit pageToken)
  requireSuccess response
  .ok ⟨response.items, response.hasMore, response.pageToken.filter (· ≠ "")⟩

/-! ### `_normalize` -/

def requiredText (value : Option String) (field : String) : Except PyError String :=
  let result := value.getD ""
  if result = "" then .error (.valueError ("Feishu message is missing " ++ field)) else .ok result

/-- `_text(value) or default`. -/
def textOr (value : Option String) (default : String) : String := (value.filter (· ≠ "")).getD default

/-- `_content`: an object, or nothing. -/
def content (value : Option String) : List (String × Json) :=
  match value.filter (· ≠ "") with
  | none => []
  | some text =>
      match reader.loads text with
      | some (.obj fields) => fields
      | _ => []

/-- `_text(content.get(key))`. -/
def contentText (fields : List (String × Json)) (key : String) : String :=
  match Json.field? fields key with
  | some (.str value) => value
  | _ => ""

/-- The text of a message without the mentions of the bot. -/
def plainText (value : WireMessage) (mentions : List String) (text : String) : String :=
  let removed := mentions.foldl (fun text openId =>
    if some openId = reader.botOpenId then
      value.mentions.foldl (fun text item =>
        if item.id = some openId ∧ item.key.getD "" ≠ "" then text.replace (item.key.getD "") ""
        else text) text
    else text) text
  " ".intercalate (WriteTargets.splitWords removed)

/-- `_body`. -/
def body (value : WireMessage) (messageType : String) (fields : List (String × Json))
    (mentions : List String) : String × List AttachmentReference :=
  if messageType = "text" then
    (reader.plainText value mentions (contentText fields "text"), [])
  else
    let key := contentText fields (if messageType = "image" then "image_key" else "file_key")
    let filename := contentText fields "file_name"
    if hidentified : key ≠ "" ∧ messageType ≠ "" then
      ("", [{ resourceKey := key, resourceType := messageType
              filename := if filename = "" then none else some filename
              identified := hidentified }])
    else (contentText fields "text", [])

def timestampMs (value : WireTime) : Except PyError Int :=
  let scaled (result : Int) : Int := if result < 1000000000000 then result * 1000 else result
  match value with
  | .number result => .ok (scaled result)
  | .text text =>
      match reader.parseInt text with
      | some result => .ok (scaled result)
      | none => .error (.valueError ("invalid literal for int() with base 10: '" ++ text ++ "'"))
  | .missing | .other => .error (.valueError "Feishu message timestamp is invalid")

def optionalTimestampMs (value : WireTime) : Except PyError (Option Int) :=
  if value = .missing ∨ value = .text "" ∨ value = .number 0 then .ok none
  else (reader.timestampMs value).map some

def normalize (request : IMContextRequest) (value : WireMessage) :
    Except PyError MirroredMessage := do
  let messageId ← requiredText value.messageId "message_id"
  let chatId ← requiredText value.chatId "chat_id"
  let senderId ← requiredText value.senderId "sender.id"
  let senderType := textOr value.senderType "user"
  let tenantKey := textOr value.tenantKey request.tenantKey
  let messageType := textOr value.msgType "unknown"
  let mentions := value.mentions.filterMap fun item => item.id.filter (· ≠ "")
  let (bodyText, attachments) :=
    reader.body value messageType (reader.content value.content) mentions
  let occurredAtMs ← reader.timestampMs value.createTime
  let updatedAtMs ← reader.optionalTimestampMs value.updateTime
  let version := (updatedAtMs.filter (· ≠ 0)).getD occurredAtMs
  let eventId := "live:" ++ messageId ++ ":" ++ toString version
  if identified : ∀ field ∈ [eventId, tenantKey, request.appId, chatId, messageId, messageType,
      senderId, senderType], IMMentionTaskHandler.strip field ≠ "" then
    .ok { eventId, tenantKey, appId := request.appId, chatId, chatType := "group", messageId
          messageType, senderId, senderType, bodyText, mentions, occurredAtMs
          receivedAtMs := occurredAtMs, threadId := value.threadId.filter (· ≠ "")
          rootId := value.rootId.filter (· ≠ ""), identified, attachments
          parentId := value.parentId.filter (· ≠ ""), updatedAtMs, isDeleted := value.deleted }
  else .error (.valueError "message identity fields must be non-empty")

/-! ### `_collect` -/

theorem ne_empty_of_strip {value : String} (hstrip : IMMentionTaskHandler.strip value ≠ "") :
    value ≠ "" := by
  rintro rfl
  exact hstrip (by decide)

def contextRequest (trigger : MirroredMessage) : IMContextRequest where
  tenantKey := trigger.tenantKey
  appId := trigger.appId
  chatId := trigger.chatId
  messageId := trigger.messageId
  bound value hvalue := by
    refine ne_empty_of_strip (trigger.identified value ?_)
    simp only [List.mem_cons, List.not_mem_nil, or_false] at hvalue ⊢
    tauto

/-- The loop of `_collect`, in at most so many pages. -/
def collect (request : IMContextRequest) (containerType containerId : String)
    (startTimeS endTimeS : Option Int) (limit : Nat) :
    Nat → List MirroredMessage → Option String → Option (Except PyError MessagePage)
  | 0, messages, _ =>
      if messages.length < limit then none else some (.ok ⟨messages.take limit, true⟩)
  | pages + 1, messages, token =>
      if messages.length < limit then
        match reader.list containerType containerId startTimeS endTimeS (limit - messages.length)
          token with
        | .error failure => some (.error failure)
        | .ok page =>
            match page.items.mapM (reader.normalize request) with
            | .error failure => some (.error failure)
            | .ok items =>
                let messages := messages ++ items
                if !page.hasMore then some (.ok ⟨messages.take limit, true⟩)
                else
                  match page.pageToken with
                  | none => some (.ok ⟨messages.take limit, false⟩)
                  | some token =>
                      if limit ≤ messages.length then some (.ok ⟨messages.take limit, false⟩)
                      else
                        collect request containerType containerId startTimeS endTimeS limit pages
                          messages (some token)
      else some (.ok ⟨messages.take limit, true⟩)

/-- `recent_messages` of the live reader. -/
def recentMessages (pages : Nat) (trigger : MirroredMessage) (sinceMs : Int) (limit : Nat) :
    Option (Except PyError MessagePage) :=
  reader.collect (contextRequest trigger) "chat" trigger.chatId (some (sinceMs / 1000))
    (some (trigger.occurredAtMs / 1000 + 1)) limit pages [] none

end OfficialLiveIMReader

/-! ### The mirror -/

namespace IMRepository

/-- `ORDER BY created_at_source_ms DESC, message_id DESC`. -/
def laterFirst (a b : MessageRow) : Bool :=
  b.createdAtSourceMs < a.createdAtSourceMs ||
    (a.createdAtSourceMs = b.createdAtSourceMs && b.key.messageId ≤ a.key.messageId)

def visibleUntil (chat : ChatKey) (beforeMs : Int) (db : MirrorDatabase) : List MessageRow :=
  db.messages.filter fun row =>
    row.chatKey = chat && row.createdAtSourceMs ≤ beforeMs && !row.isGone

/-- `recent_messages` of the mirror. -/
def recentMessages (chat : ChatKey) (beforeMs : Int) (limit : Nat) (db : MirrorDatabase) :
    Except PyError (List MessageRow) :=
  if limit < 1 ∨ limit > 100 then
    .error (.valueError "message context limit must be between 1 and 100")
  else .ok (((visibleUntil chat beforeMs db).mergeSort laterFirst).take limit).reverse

end IMRepository

end Codex2Lark
