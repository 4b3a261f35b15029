import Codex2Lark.Im.Admission
import Codex2Lark.Lib.Like

/-!
`SQLiteIMRepository` of `capabilities/im/repository.py`: the mirror of chats, messages and
attachments, in one database with the runtime tables. Encrypted columns hold their plaintext;
columns that no statement reads are left out.
-/

namespace Codex2Lark

open Lib

/-- The two fields that `__post_init__` checks are not empty. -/
structure AttachmentReference where
  resourceKey : String
  resourceType : String
  filename : Option String := none
  mediaType : Option String := none
  declaredSize : Option Nat := none
  identified : resourceKey ≠ "" ∧ resourceType ≠ "" := by decide

/-- `IncomingMessage` with the fields that only the mirror reads. -/
structure MirroredMessage extends IncomingMessage where
  attachments : List AttachmentReference := []
  chatName : Option String := none
  parentId : Option String := none
  senderName : Option String := none
  updatedAtMs : Option Int := none
  isRecalled : Bool := false
  isDeleted : Bool := false

structure ChatKey where
  tenantKey : String
  appId : String
  chatId : String
deriving DecidableEq, Repr

structure MessageKey where
  tenantKey : String
  appId : String
  messageId : String
deriving DecidableEq, Repr

structure AttachmentKey where
  message : MessageKey
  resourceKey : String
deriving DecidableEq, Repr

namespace MirroredMessage

/-- `updated_at_ms or occurred_at_ms`. -/
def sourceVersionMs (message : MirroredMessage) : Int :=
  (message.updatedAtMs.filter (· ≠ 0)).getD message.occurredAtMs

def chatKey (message : MirroredMessage) : ChatKey :=
  ⟨message.tenantKey, message.appId, message.chatId⟩

def key (message : MirroredMessage) : MessageKey :=
  ⟨message.tenantKey, message.appId, message.messageId⟩

/-- `is_recalled or is_deleted`. -/
def isGone (message : MirroredMessage) : Bool := message.isRecalled || message.isDeleted

end MirroredMessage

inductive BotMemberState where
  | present
  | removed
deriving DecidableEq, Repr

inductive AccessState where
  | visible
  | revoked
deriving DecidableEq, Repr

structure ChatRow where
  key : ChatKey
  name : Option String := none
  chatMode : String
  enabled : Bool
  botMemberState : BotMemberState
  accessState : AccessState
  lastReconciledAtMs : Int
  purgeAfterMs : Option Int := none
deriving DecidableEq, Repr

structure MessageRow where
  key : MessageKey
  chatId : String
  threadId : Option String := none
  rootId : Option String := none
  parentId : Option String := none
  senderType : String
  senderId : String
  senderName : Option String := none
  messageType : String
  content : String
  mentions : List String
  createdAtSourceMs : Int
  updatedAtSourceMs : Int
  isRecalled : Bool
  isDeleted : Bool
  expiresAtMs : Option Int
deriving DecidableEq, Repr

inductive DownloadState where
  | referenced
  | downloaded
deriving DecidableEq, Repr

inductive ParseState where
  | notParsed
  | parsed
  | metadataOnly
  | blocked
  | failed
deriving DecidableEq, Repr

structure AttachmentRow where
  key : AttachmentKey
  chatId : String
  resourceType : String
  filename : Option String
  mediaType : Option String
  declaredSize : Option Nat
  blobId : Option String := none
  downloadState : DownloadState := .referenced
  parseState : ParseState := .notParsed
  parsedContent : Option String := none
  warningCode : Option String := none
  expiresAtMs : Option Int
deriving DecidableEq, Repr

structure FileBlobRow where
  blobId : String
  byteSize : Nat
  mediaType : Option String
  createdAtMs : Int
deriving DecidableEq, Repr

/-- The tables of the mirror beside those of the runtime. -/
structure MirrorDatabase where
  runtime : Database := {}
  chats : List ChatRow := []
  messages : List MessageRow := []
  attachments : List AttachmentRow := []
  fileBlobs : List FileBlobRow := []
deriving DecidableEq, Repr

namespace MessageRow

def chatKey (row : MessageRow) : ChatKey := ⟨row.key.tenantKey, row.key.appId, row.chatId⟩

def isGone (row : MessageRow) : Bool := row.isRecalled || row.isDeleted

end MessageRow

namespace AttachmentRow

def chatKey (row : AttachmentRow) : ChatKey :=
  ⟨row.key.message.tenantKey, row.key.message.appId, row.chatId⟩

end AttachmentRow

namespace IMRepository

def messageRef (messageId : String) : String := "im.message:" ++ messageId

def attachmentRef (messageId resourceKey : String) : String :=
  "im.attachment:" ++ messageId ++ ":" ++ resourceKey

/-- `source_ref = ? OR source_ref LIKE ?` for a message and its attachments. -/
def refersTo (messageId sourceRef : String) : Bool :=
  sourceRef = messageRef messageId ||
    like (("im.attachment:" ++ messageId ++ ":%").toList) sourceRef.toList

/-- `DELETE FROM runtime_checkpoints` for the runs whose source index has such a reference; the
index rows go with the checkpoint. -/
def deleteCheckpoints (refers : String → Bool) (db : Database) : Database :=
  let runIds := (db.checkpointSources.filter fun row => refers row.sourceRef).map
    CheckpointSourceRow.runId
  { db with
    checkpoints := Table.delete (fun row => runIds.contains row.runId) db.checkpoints
    checkpointSources := Table.delete (fun row => runIds.contains row.runId) db.checkpointSources }

def findChat (db : MirrorDatabase) (key : ChatKey) : Option ChatRow :=
  db.chats.find? fun row => row.key = key

def isRevoked (db : MirrorDatabase) (key : ChatKey) : Bool :=
  (findChat db key).any fun row => row.accessState = .revoked

def findMessage (db : MirrorDatabase) (key : MessageKey) : Option MessageRow :=
  db.messages.find? fun row => row.key = key

/-- `_upsert_chat`. -/
def upsertChat (message : MirroredMessage) (db : MirrorDatabase) : MirrorDatabase :=
  { db with
    chats := Table.put ChatRow.key
      { key := message.chatKey, name := message.chatName, chatMode := message.chatType
        enabled := true, botMemberState := .present, accessState := .visible
        lastReconciledAtMs := message.receivedAtMs }
      (fun row => { row with
        name := message.chatName.orElse fun _ => row.name
        chatMode := message.chatType
        botMemberState := if row.accessState = .revoked then row.botMemberState else .present
        accessState := if row.accessState = .revoked then row.accessState else .visible
        lastReconciledAtMs := message.receivedAtMs })
      db.chats }

def messageRow (message : MirroredMessage) : MessageRow :=
  { key := message.key, chatId := message.chatId, threadId := message.threadId
    rootId := message.rootId, parentId := message.parentId, senderType := message.senderType
    senderId := message.senderId, senderName := message.senderName
    messageType := message.messageType, content := message.bodyText, mentions := message.mentions
    createdAtSourceMs := message.occurredAtMs, updatedAtSourceMs := message.sourceVersionMs
    isRecalled := message.isRecalled, isDeleted := message.isDeleted
    expiresAtMs := some (message.receivedAtMs + 90 * 24 * 60 * 60 * 1000) }

def attachmentRow (message : MirroredMessage) (attachment : AttachmentReference) : AttachmentRow :=
  { key := ⟨message.key, attachment.resourceKey⟩, chatId := message.chatId
    resourceType := attachment.resourceType, filename := attachment.filename
    mediaType := attachment.mediaType, declaredSize := attachment.declaredSize
    expiresAtMs := some (message.receivedAtMs + 30 * 24 * 60 * 60 * 1000) }

/-- The rows that an accepted version writes. -/
def storeMessage (message : MirroredMessage) (db : MirrorDatabase) :
    Except PyError (Bool × MirrorDatabase) :=
  if (message.attachments.map AttachmentReference.resourceKey).Nodup then
    .ok (true, { db with
      -- the creation time of a stored row stays
      messages := Table.put MessageRow.key (messageRow message)
        (fun row => { messageRow message with
          key := row.key, createdAtSourceMs := row.createdAtSourceMs }) db.messages
      attachments := Table.delete (fun row => row.key.message = message.key) db.attachments ++
        message.attachments.map (attachmentRow message) })
  else .error (.integrityError ("UNIQUE constraint failed: im_attachments.tenant_key, " ++
    "im_attachments.app_id, im_attachments.message_id, im_attachments.resource_key"))

def upsertMessage (message : MirroredMessage) (db : MirrorDatabase) :
    Except PyError (Bool × MirrorDatabase) :=
  let db := upsertChat message db
  if isRevoked db message.chatKey then .ok (false, db)
  else
    match findMessage db message.key with
    | none => storeMessage message db
    | some existing =>
        if existing.updatedAtSourceMs > message.sourceVersionMs ∨
            (existing.updatedAtSourceMs = message.sourceVersionMs ∧ existing.isGone ∧
              ¬ message.isGone) then .ok (true, db)
        else if existing.updatedAtSourceMs ≠ message.sourceVersionMs then
          storeMessage message
            { db with runtime := deleteCheckpoints (refersTo message.messageId) db.runtime }
        else storeMessage message db

/-- The blobs of the attachments that meet the condition, each once. -/
def attachmentBlobIds (owns : AttachmentRow → Bool) (db : MirrorDatabase) : List String :=
  ((db.attachments.filter owns).filterMap AttachmentRow.blobId).dedup

/-- `_drop_unreferenced_blob_metadata`. -/
def dropUnreferencedBlobMetadata (candidates : List String) (db : MirrorDatabase) :
    List String × MirrorDatabase :=
  let unreferenced := candidates.filter fun blobId =>
    !(db.attachments.any fun row => row.blobId = some blobId)
  (unreferenced, { db with
    fileBlobs := Table.delete (fun row => unreferenced.contains row.blobId) db.fileBlobs })

structure Invalidation where
  chat : ChatKey
  messageId : String
  sourceVersionMs : Int
  nowMs : Int
deriving DecidableEq, Repr

def Invalidation.key (args : Invalidation) : MessageKey :=
  ⟨args.chat.tenantKey, args.chat.appId, args.messageId⟩

/-- The tombstone of a message that the mirror does not know. -/
def tombstone (args : Invalidation) : MessageRow :=
  { key := args.key, chatId := args.chat.chatId, senderType := "unknown", senderId := "unknown"
    messageType := "unknown", content := "", mentions := []
    createdAtSourceMs := args.sourceVersionMs, updatedAtSourceMs := args.sourceVersionMs
    isRecalled := true, isDeleted := false
    expiresAtMs := some (args.nowMs + 90 * 24 * 60 * 60 * 1000) }

def invalidateMessage (args : Invalidation) (db : MirrorDatabase) : List String × MirrorDatabase :=
  let existing := findMessage db args.key
  if existing.any fun row => row.updatedAtSourceMs > args.sourceVersionMs then ([], db)
  else
    let candidates := attachmentBlobIds (fun row => row.key.message = args.key) db
    let chats := Table.put ChatRow.key
      { key := args.chat, chatMode := "unknown", enabled := true, botMemberState := .present
        accessState := .visible, lastReconciledAtMs := args.nowMs } id db.chats
    let messages :=
      if existing.isNone then db.messages ++ [tombstone args]
      else
        Table.update (fun row => row.key = args.key)
          (fun row => { row with isRecalled := true, updatedAtSourceMs := args.sourceVersionMs })
          db.messages
    dropUnreferencedBlobMetadata candidates
      { db with
        chats, messages
        runtime := deleteCheckpoints (refersTo args.messageId) db.runtime
        attachments := Table.delete (fun row => row.key.message = args.key) db.attachments }

/-- The pending tasks that a revocation cancels. -/
def isCancelled (chat : ChatKey) (task : TaskRow) : Bool :=
  like ((chat.tenantKey ++ "/" ++ chat.appId ++ "/" ++ chat.chatId ++ "/%").toList)
      task.sessionKey.toList &&
    task.state = .pending && task.commandType ≠ "im.revoke_chat_access"

/-- The attachments go with their messages (`ON DELETE CASCADE`). -/
def revokeChatAccess (chat : ChatKey) (nowMs : Int) (db : MirrorDatabase) :
    List String × MirrorDatabase :=
  let candidates := attachmentBlobIds (fun row => row.chatKey = chat) db
  let purged := db.messages.filter fun row => row.chatKey = chat
  let sourceRefs := purged.map fun row => messageRef row.key.messageId
  let runtime := deleteCheckpoints sourceRefs.contains db.runtime
  dropUnreferencedBlobMetadata candidates
    { db with
      runtime := { runtime with
        tasks := Table.update (isCancelled chat)
          (fun task => { task with state := .cancelled, updatedAtMs := nowMs }) runtime.tasks }
      messages := Table.delete (fun row => row.chatKey = chat) db.messages
      attachments := Table.delete
        (fun row => purged.any fun message => message.key = row.key.message) db.attachments
      chats := Table.put ChatRow.key
        { key := chat, chatMode := "unknown", enabled := false, botMemberState := .removed
          accessState := .revoked, lastReconciledAtMs := nowMs, purgeAfterMs := some nowMs }
        (fun row => { row with
          enabled := false, botMemberState := .removed, accessState := .revoked
          lastReconciledAtMs := nowMs, purgeAfterMs := some nowMs }) db.chats }

def restoreChatAccess (chat : ChatKey) (nowMs : Int) (db : MirrorDatabase) : MirrorDatabase :=
  { db with
    chats := Table.put ChatRow.key
      { key := chat, chatMode := "unknown", enabled := true, botMemberState := .present
        accessState := .visible, lastReconciledAtMs := nowMs }
      (fun row => { row with
        enabled := true, botMemberState := .present, accessState := .visible
        lastReconciledAtMs := nowMs, purgeAfterMs := none }) db.chats }

def getAttachment (db : MirrorDatabase) (key : AttachmentKey) (chatId : String) :
    Option AttachmentRow :=
  db.attachments.find? fun row => row.key = key && row.chatId = chatId

/-- The attachments of the visible messages of a chat, the latest messages first. -/
def recentAttachments (chat : ChatKey) (sinceMs beforeMs : Int) (limit : Nat) (db : MirrorDatabase) :
    Except PyError (List AttachmentRow) :=
  if limit < 1 ∨ limit > 500 then
    .error (.valueError "attachment discovery limit must be between 1 and 500")
  else
    let joined := db.attachments.filterMap fun row =>
      (findMessage db row.key.message).bind fun message =>
        if row.chatKey = chat ∧ sinceMs ≤ message.createdAtSourceMs ∧
            message.createdAtSourceMs ≤ beforeMs ∧ ¬ message.isGone then
          some (message.createdAtSourceMs, row)
        else none
    let ordered := joined.mergeSort fun a b =>
      b.1 < a.1 || (a.1 = b.1 && b.2.key.message.messageId ≤ a.2.key.message.messageId)
    .ok ((ordered.map Prod.snd).take limit)

structure RecordBlob where
  key : AttachmentKey
  chatId : String
  blobId : String
  byteSize : Nat
  mediaType : Option String
  nowMs : Int
deriving DecidableEq, Repr

def recordAttachmentBlob (args : RecordBlob) (db : MirrorDatabase) :
    Except PyError (Unit × MirrorDatabase) :=
  let known := db.fileBlobs.any fun row => row.blobId = args.blobId
  let fileBlobs :=
    if known then db.fileBlobs
    else db.fileBlobs ++ [⟨args.blobId, args.byteSize, args.mediaType, args.nowMs⟩]
  let owns := fun row : AttachmentRow => row.key = args.key && row.chatId = args.chatId
  if Table.rowcount owns db.attachments ≠ 1 then
    .error (.lookupError "attachment reference disappeared during ingest")
  else
    .ok ((), { db with
      fileBlobs
      attachments := Table.update owns
        (fun row => { row with
          blobId := some args.blobId
          mediaType := args.mediaType.orElse fun _ => row.mediaType
          downloadState := .downloaded }) db.attachments })

structure RecordParse where
  key : AttachmentKey
  chatId : String
  content : Option String
  state : ParseState
  warningCode : Option String
deriving DecidableEq, Repr

def recordAttachmentParse (args : RecordParse) (db : MirrorDatabase) :
    Except PyError (Unit × MirrorDatabase) :=
  if args.state = .notParsed then .error (.valueError "invalid attachment parse state")
  else
    let owns := fun row : AttachmentRow => row.key = args.key && row.chatId = args.chatId
    if Table.rowcount owns db.attachments ≠ 1 then
      .error (.lookupError "attachment reference disappeared during parse")
    else
      .ok ((), { db with
        attachments := Table.update owns
          (fun row => { row with
            parseState := args.state, parsedContent := args.content
            warningCode := args.warningCode }) db.attachments })

end IMRepository

open IMRepository

/-! ### The transactions -/

inductive MessageWrite where
  | upsert (message : MirroredMessage)
  | invalidate (args : Invalidation)

/-- The transactions of the mirror; those of the runtime tables go on beside them. -/
inductive MirrorOp where
  | message (write : MessageWrite)
  | revoke (chat : ChatKey) (nowMs : Int)
  | restore (chat : ChatKey) (nowMs : Int)
  | recordBlob (args : RecordBlob)
  | recordParse (args : RecordParse)
  | runtime (op : StoreOp)

/-- `SQLiteDatabase.transaction`: the tables after a transaction that commits or is rolled back. -/
def MirrorDatabase.committed {α : Type}
    (operation : MirrorDatabase → Except PyError (α × MirrorDatabase)) (db : MirrorDatabase) :
    MirrorDatabase :=
  match operation db with
  | .ok (_, after) => after
  | .error _ => db

def MessageWrite.key : MessageWrite → MessageKey
  | .upsert message => message.key
  | .invalidate args => args.key

def MessageWrite.chatKey : MessageWrite → ChatKey
  | .upsert message => message.chatKey
  | .invalidate args => args.chat

def MessageWrite.apply (db : MirrorDatabase) : MessageWrite → MirrorDatabase
  | .upsert message => db.committed (upsertMessage message)
  | .invalidate args => (invalidateMessage args db).2

def MirrorOp.apply (db : MirrorDatabase) : MirrorOp → MirrorDatabase
  | .message write => write.apply db
  | .revoke chat nowMs => (revokeChatAccess chat nowMs db).2
  | .restore chat nowMs => restoreChatAccess chat nowMs db
  | .recordBlob args => db.committed (recordAttachmentBlob args)
  | .recordParse args => db.committed (recordAttachmentParse args)
  | .runtime op => { db with runtime := op.apply db.runtime }

end Codex2Lark
