import Codex2Lark.Im.Mirror
import Codex2Lark.Lib.Sorted
import Codex2Lark.Storage.Crypto
import Mathlib.Data.String.Basic
import Mathlib.Algebra.GroupWithZero.Nat

/-!
`KeyRotationService` of `storage/key_rotation.py`, beside the associated data that the stores
themselves use. A rotation is a sequence of atomic steps: the marker, one transaction over all
tables, one replacement of a file at a time, the verification, the removal of the marker.
-/

namespace Codex2Lark

open Lib

/-! ### The encrypted columns -/

/-- The tables with encrypted columns. -/
inductive CipherTable where
  | runtimeEvents
  | runtimeTasks
  | runtimeOutbox
  | runtimeRunControls
  | runtimeRunEvents
  | runtimeCheckpoints
  | runtimeAgentNodes
  | runtimeMailbox
  | runtimeArtifacts
  | runtimeAgentCheckpoints
  | imChats
  | imMessages
  | imAttachments
deriving DecidableEq, Repr

/-- The names of these columns, without `_ciphertext`. -/
inductive CipherField where
  | payload
  | taskBrief
  | toolIds
  | budget
  | sourceVersions
  | state
  | name
  | senderName
  | content
  | mentions
  | filename
  | parsedContent
deriving DecidableEq, Repr

/-- The columns that identify a row. -/
inductive RowKey where
  | event (tenantKey appId eventId : String) (schemaVersion : Nat)
  | task (taskId : String)
  | outbox (outboxId : String)
  | control (controlId : String)
  | runEvent (runId : String) (sequence : Nat)
  | checkpoint (runId : String)
  | node (nodeId : String)
  | mail (itemId : String)
  | artifact (artifactId : String)
  | agentCheckpoint (checkpointId : String)
  | chat (key : ChatKey)
  | message (key : MessageKey)
  | attachment (key : AttachmentKey)
deriving DecidableEq, Repr

namespace RowKey

def table : RowKey → CipherTable
  | .event .. => .runtimeEvents
  | .task _ => .runtimeTasks
  | .outbox _ => .runtimeOutbox
  | .control _ => .runtimeRunControls
  | .runEvent .. => .runtimeRunEvents
  | .checkpoint _ => .runtimeCheckpoints
  | .node _ => .runtimeAgentNodes
  | .mail _ => .runtimeMailbox
  | .artifact _ => .runtimeArtifacts
  | .agentCheckpoint _ => .runtimeAgentCheckpoints
  | .chat _ => .imChats
  | .message _ => .imMessages
  | .attachment _ => .imAttachments

/-- `row[column]` as text. -/
def text : RowKey → String → String
  | .event tenantKey appId eventId schemaVersion, column =>
      if column = "tenant_key" then tenantKey
      else if column = "app_id" then appId
      else if column = "event_id" then eventId
      else if column = "schema_version" then toString schemaVersion
      else ""
  | .task taskId, column => if column = "task_id" then taskId else ""
  | .outbox outboxId, column => if column = "outbox_id" then outboxId else ""
  | .control controlId, column => if column = "control_id" then controlId else ""
  | .runEvent runId sequence, column =>
      if column = "run_id" then runId
      else if column = "sequence" then toString sequence
      else ""
  | .checkpoint runId, column => if column = "run_id" then runId else ""
  | .node nodeId, column => if column = "node_id" then nodeId else ""
  | .mail itemId, column => if column = "item_id" then itemId else ""
  | .artifact artifactId, column => if column = "artifact_id" then artifactId else ""
  | .agentCheckpoint checkpointId, column =>
      if column = "checkpoint_id" then checkpointId else ""
  | .chat key, column =>
      if column = "tenant_key" then key.tenantKey
      else if column = "app_id" then key.appId
      else if column = "chat_id" then key.chatId
      else ""
  | .message key, column =>
      if column = "tenant_key" then key.tenantKey
      else if column = "app_id" then key.appId
      else if column = "message_id" then key.messageId
      else ""
  | .attachment key, column =>
      if column = "tenant_key" then key.message.tenantKey
      else if column = "app_id" then key.message.appId
      else if column = "message_id" then key.message.messageId
      else if column = "resource_key" then key.resourceKey
      else ""

end RowKey

/-- The encrypted columns of a table in the schema. -/
def CipherTable.columns : CipherTable → List CipherField
  | .runtimeAgentNodes => [.taskBrief, .toolIds, .budget]
  | .runtimeArtifacts => [.payload, .sourceVersions]
  | .runtimeAgentCheckpoints => [.state]
  | .imChats => [.name]
  | .imMessages => [.senderName, .content, .mentions]
  | .imAttachments => [.filename, .parsedContent]
  | _ => [.payload]

/-! ### The associated data of the stores -/

/-- `SQLiteRuntimeStore._event_aad`. -/
def eventAad (tenantKey appId eventId : String) (schemaVersion : Nat) : Bytes :=
  utf8 ("runtime_events:" ++ tenantKey ++ ":" ++ appId ++ ":" ++ eventId ++ ":v" ++
    toString schemaVersion)

/-- `SQLiteRuntimeStore._task_aad`. -/
def taskAad (taskId : String) : Bytes := utf8 ("runtime_tasks:" ++ taskId ++ ":v1")

/-- `SQLiteRuntimeStore._outbox_aad`. -/
def outboxAad (outboxId : String) : Bytes := utf8 ("runtime_outbox:" ++ outboxId ++ ":v1")

/-- `SQLiteRuntimeStore._control_aad`. -/
def controlAad (controlId : String) : Bytes := utf8 ("runtime_run_controls:" ++ controlId ++ ":v1")

/-- `SQLiteSessionStore._event_aad`. -/
def runEventAad (runId : String) (sequence : Nat) : Bytes :=
  utf8 ("runtime_run_events:" ++ runId ++ ":" ++ toString sequence ++ ":v1")

/-- `SQLiteSessionStore._checkpoint_aad`. -/
def checkpointAad (runId : String) : Bytes := utf8 ("runtime_checkpoints:" ++ runId ++ ":v1")

/-- `SQLiteAgentGraphStore._node_aad`. -/
def nodeAad (nodeId field : String) : Bytes :=
  utf8 ("runtime_agent_nodes:" ++ nodeId ++ ":" ++ field ++ ":v1")

/-- `SQLiteAgentGraphStore._mail_aad`. -/
def mailAad (itemId : String) : Bytes := utf8 ("runtime_mailbox:" ++ itemId ++ ":v1")

/-- `SQLiteAgentGraphStore._artifact_aad`. -/
def artifactAad (artifactId field : String) : Bytes :=
  utf8 ("runtime_artifacts:" ++ artifactId ++ ":" ++ field ++ ":v1")

/-- `SQLiteAgentGraphStore._checkpoint_aad`. -/
def agentCheckpointAad (checkpointId : String) : Bytes :=
  utf8 ("runtime_agent_checkpoints:" ++ checkpointId ++ ":state:v1")

/-- `SQLiteIMRepository._chat_aad`. -/
def chatAad (key : ChatKey) : Bytes :=
  utf8 ("im_chats:" ++ key.tenantKey ++ ":" ++ key.appId ++ ":" ++ key.chatId ++ ":name:v1")

/-- `SQLiteIMRepository._message_identity_aad`. -/
def messageIdentityAad (key : MessageKey) (field : String) : Bytes :=
  utf8 ("im_messages:" ++ key.tenantKey ++ ":" ++ key.appId ++ ":" ++ key.messageId ++ ":" ++
    field ++ ":v1")

/-- `SQLiteIMRepository._attachment_identity_aad`. -/
def attachmentIdentityAad (key : AttachmentKey) (field : String) : Bytes :=
  utf8 ("im_attachments:" ++ key.message.tenantKey ++ ":" ++ key.message.appId ++ ":" ++
    key.message.messageId ++ ":" ++ key.resourceKey ++ ":" ++ field ++ ":v1")

/-- `EncryptedBlobStore._aad`. -/
def blobAad (blobId : String) : Bytes := utf8 ("blob:" ++ blobId ++ ":v1")

/-- What the store that owns the row passes for the column. -/
def storeAad : RowKey → CipherField → Bytes
  | .event tenantKey appId eventId schemaVersion, _ =>
      eventAad tenantKey appId eventId schemaVersion
  | .task taskId, _ => taskAad taskId
  | .outbox outboxId, _ => outboxAad outboxId
  | .control controlId, _ => controlAad controlId
  | .runEvent runId sequence, _ => runEventAad runId sequence
  | .checkpoint runId, _ => checkpointAad runId
  | .node nodeId, .taskBrief => nodeAad nodeId "task"
  | .node nodeId, .toolIds => nodeAad nodeId "tools"
  | .node nodeId, _ => nodeAad nodeId "budget"
  | .mail itemId, _ => mailAad itemId
  | .artifact artifactId, .payload => artifactAad artifactId "payload"
  | .artifact artifactId, _ => artifactAad artifactId "sources"
  | .agentCheckpoint checkpointId, _ => agentCheckpointAad checkpointId
  | .chat key, _ => chatAad key
  | .message key, .senderName => messageIdentityAad key "sender_name"
  | .message key, .content => messageIdentityAad key "content"
  | .message key, _ => messageIdentityAad key "mentions"
  | .attachment key, .filename => attachmentIdentityAad key "filename"
  | .attachment key, _ => attachmentIdentityAad key "parsed_content"

/-! ### The data directory -/

/-- A row has envelopes in the encrypted columns of its table only. -/
structure EncryptedRow where
  key : RowKey
  envelopes : CipherField → Option Envelope
  schema : ∀ field, field ∉ key.table.columns → envelopes field = none

/-- `UPDATE ... SET field = ?` for a column that is not null. -/
def EncryptedRow.replace (row : EncryptedRow) (field : CipherField) (envelope : Envelope) :
    EncryptedRow where
  key := row.key
  envelopes := fun other =>
    if other = field then (row.envelopes other).map fun _ => envelope else row.envelopes other
  schema := by
    intro other hother
    simp [row.schema other hother]

structure EncryptedBlob where
  blobId : String
  envelope : Envelope

structure RotationMarker where
  format : String
  previousKeyId : String
  newKeyId : String
deriving DecidableEq, Repr

/-- The text of `key-rotation.json`. -/
inductive MarkerFile where
  | marker (marker : RotationMarker)
  /-- Any other JSON value. -/
  | other
  /-- No JSON. -/
  | invalid
deriving DecidableEq, Repr

structure EncryptedDirectory where
  rows : List EncryptedRow
  blobs : List EncryptedBlob
  marker : Option MarkerFile

structure KeyRotationResult where
  ok : Bool
  previousKeyId : String
  newKeyId : String
  databaseEnvelopes : Nat
  blobEnvelopes : Nat
deriving DecidableEq, Repr

namespace KeyRotation

/-- `_EnvelopeSpec`. -/
structure EnvelopeSpec where
  table : CipherTable
  fields : List CipherField
  aad : RowKey → CipherField → Bytes

/-- `_node_aad`. -/
def rotatedNodeAad (row : RowKey) (field : CipherField) : Bytes :=
  let name := match field with
    | .taskBrief => "task"
    | .toolIds => "tools"
    | _ => "budget"
  utf8 ("runtime_agent_nodes:" ++ row.text "node_id" ++ ":" ++ name ++ ":v1")

/-- `_message_aad`. -/
def rotatedMessageAad (row : RowKey) (field : CipherField) : Bytes :=
  let name := match field with
    | .senderName => "sender_name"
    | .content => "content"
    | _ => "mentions"
  utf8 ("im_messages:" ++ row.text "tenant_key" ++ ":" ++ row.text "app_id" ++ ":" ++
    row.text "message_id" ++ ":" ++ name ++ ":v1")

/-- `_specs`. -/
def specs : List EnvelopeSpec :=
  [{ table := .runtimeEvents
     fields := [.payload]
     aad := fun row _ => utf8 ("runtime_events:" ++ row.text "tenant_key" ++ ":" ++
      row.text "app_id" ++ ":" ++ row.text "event_id" ++ ":v" ++ row.text "schema_version") },
   { table := .runtimeTasks
     fields := [.payload]
     aad := fun row _ => utf8 ("runtime_tasks:" ++ row.text "task_id" ++ ":v1") },
   { table := .runtimeOutbox
     fields := [.payload]
     aad := fun row _ => utf8 ("runtime_outbox:" ++ row.text "outbox_id" ++ ":v1") },
   { table := .runtimeRunControls
     fields := [.payload]
     aad := fun row _ => utf8 ("runtime_run_controls:" ++ row.text "control_id" ++ ":v1") },
   { table := .runtimeRunEvents
     fields := [.payload]
     aad := fun row _ => utf8 ("runtime_run_events:" ++ row.text "run_id" ++ ":" ++
      row.text "sequence" ++ ":v1") },
   { table := .runtimeCheckpoints
     fields := [.payload]
     aad := fun row _ => utf8 ("runtime_checkpoints:" ++ row.text "run_id" ++ ":v1") },
   { table := .runtimeAgentNodes
     fields := [.taskBrief, .toolIds, .budget]
     aad := rotatedNodeAad },
   { table := .runtimeMailbox
     fields := [.payload]
     aad := fun row _ => utf8 ("runtime_mailbox:" ++ row.text "item_id" ++ ":v1") },
   { table := .runtimeArtifacts
     fields := [.payload, .sourceVersions]
     aad := fun row field => utf8 ("runtime_artifacts:" ++ row.text "artifact_id" ++ ":" ++
      (if field = .payload then "payload" else "sources") ++ ":v1") },
   { table := .runtimeAgentCheckpoints
     fields := [.state]
     aad := fun row _ => utf8 ("runtime_agent_checkpoints:" ++ row.text "checkpoint_id" ++
      ":state:v1") },
   { table := .imChats
     fields := [.name]
     aad := fun row _ => utf8 ("im_chats:" ++ row.text "tenant_key" ++ ":" ++ row.text "app_id" ++
      ":" ++ row.text "chat_id" ++ ":name:v1") },
   { table := .imMessages
     fields := [.senderName, .content, .mentions]
     aad := rotatedMessageAad },
   { table := .imAttachments
     fields := [.filename, .parsedContent]
     aad := fun row field => utf8 ("im_attachments:" ++ row.text "tenant_key" ++ ":" ++
      row.text "app_id" ++ ":" ++ row.text "message_id" ++ ":" ++ row.text "resource_key" ++ ":" ++
      (if field = .filename then "filename" else "parsed_content") ++ ":v1") }]

variable (crypto : CryptoPrimitives) (current target : MasterKey)

/-- The loop over the fields of a row; `nonce` is the nonce of each call of `rewrap`. -/
def rewrapRow (spec : EnvelopeSpec) (nonce : RowKey → CipherField → Bytes) (row : EncryptedRow) :
    Except PyError EncryptedRow :=
  spec.fields.foldlM
    (fun row field =>
      match row.envelopes field with
      | none => pure row
      | some envelope => do
          let rewrapped ← EnvelopeCipher.rewrap crypto current target (nonce row.key field) envelope
            (spec.aad row.key field)
          pure (row.replace field rewrapped))
    row

/-- The loop over the rows of a table. -/
def rewrapTable (spec : EnvelopeSpec) (nonce : RowKey → CipherField → Bytes)
    (rows : List EncryptedRow) : Except PyError (List EncryptedRow) :=
  rows.mapM fun row =>
    if row.key.table = spec.table then rewrapRow crypto current target spec nonce row else pure row

/-- `_rotate_database`. -/
def rotateDatabase (nonce : RowKey → CipherField → Bytes) (rows : List EncryptedRow) :
    Except PyError (List EncryptedRow) :=
  specs.foldlM (fun rows spec => rewrapTable crypto current target spec nonce rows) rows

/-- The envelopes of the table that are not yet under the new key. -/
def pendingEnvelopes (target : MasterKey) (rows : List EncryptedRow) (spec : EnvelopeSpec) : Nat :=
  ((rows.filter fun row => row.key.table = spec.table).map fun row =>
    spec.fields.countP fun field =>
      (row.envelopes field).any fun envelope => envelope.keyId ≠ target.keyId).sum

/-- The body of the loop of `_rotate_blobs`. -/
def rotateBlob (blobId : String) (nonce : Bytes) (blobs : List EncryptedBlob) :
    Except PyError (List EncryptedBlob) :=
  blobs.mapM fun blob =>
    if blob.blobId = blobId then do
      let rewrapped ← EnvelopeCipher.rewrap crypto current target nonce blob.envelope (blobAad blobId)
      pure { blob with envelope := rewrapped }
    else pure blob

/-- Some envelope in a column of the specifications does not name the key. -/
def rowsLeft (targetKeyId : String) (dir : EncryptedDirectory) : Bool :=
  specs.any fun spec => dir.rows.any fun row => row.key.table = spec.table &&
    spec.fields.any fun field =>
      (row.envelopes field).any fun envelope => envelope.keyId ≠ targetKeyId

def blobsLeft (targetKeyId : String) (dir : EncryptedDirectory) : Bool :=
  dir.blobs.any fun blob => blob.envelope.keyId ≠ targetKeyId

/-- `_verify`. -/
def verify (targetKeyId : String) (dir : EncryptedDirectory) : Except PyError Unit :=
  if rowsLeft targetKeyId dir then
    .error (.runtimeError "database key rotation verification failed")
  else if blobsLeft targetKeyId dir then
    .error (.runtimeError "blob key rotation verification failed")
  else .ok ()

/-- `expected` of `_ensure_marker`. -/
def expectedMarker : RotationMarker :=
  ⟨"codex2lark-key-rotation-v1", current.keyId, target.keyId⟩

def ensureMarker (marker : Option MarkerFile) : Except PyError MarkerFile :=
  match marker with
  | none => .ok (.marker (expectedMarker current target))
  | some .invalid => .error (.runtimeError "key rotation recovery marker is invalid")
  | some existing =>
      if existing = .marker (expectedMarker current target) then .ok existing
      else .error (.runtimeError "key rotation marker requires the original old/new keys")

/-! ### The steps of a rotation -/

/-- What a call of `rotate` is about to do; `stopped` when there is no call or it was interrupted. -/
inductive RotationPhase where
  | stopped
  | marking
  | database
  | blobs (databaseEnvelopes blobEnvelopes : Nat) (remaining : List String)
  | verifying (databaseEnvelopes blobEnvelopes : Nat)
  | unlinking (databaseEnvelopes blobEnvelopes : Nat)
  | ended (result : Except PyError KeyRotationResult)

structure RotationState where
  dir : EncryptedDirectory
  phase : RotationPhase

inductive RotationLabel where
  | call
  /-- The next step of the call; the nonces are drawn when it rewraps. -/
  | advance (nonce : RowKey → CipherField → Bytes) (blobNonce : Bytes)
  | interrupt

def advance (nonce : RowKey → CipherField → Bytes) (blobNonce : Bytes) (s : RotationState) :
    Option RotationState :=
  match s.phase with
  | .stopped | .ended _ => none
  | .marking =>
      match ensureMarker current target s.dir.marker with
      | .error e => some { s with phase := .ended (.error e) }
      | .ok marker => some ⟨{ s.dir with marker := some marker }, .database⟩
  | .database =>
      match rotateDatabase crypto current target nonce s.dir.rows with
      | .error e => some { s with phase := .ended (.error e) }
      | .ok rows => some ⟨{ s.dir with rows },
          .blobs ((specs.map (pendingEnvelopes target s.dir.rows)).sum) 0
            (Sorted.sorted (s.dir.blobs.map EncryptedBlob.blobId))⟩
  | .blobs databaseEnvelopes blobEnvelopes [] =>
      some { s with phase := .verifying databaseEnvelopes blobEnvelopes }
  | .blobs databaseEnvelopes blobEnvelopes (blobId :: remaining) =>
      match rotateBlob crypto current target blobId blobNonce s.dir.blobs with
      | .error e => some { s with phase := .ended (.error e) }
      | .ok blobs =>
          let replaced := s.dir.blobs.countP fun blob =>
            blob.blobId = blobId && blob.envelope.keyId ≠ target.keyId
          some ⟨{ s.dir with blobs }, .blobs databaseEnvelopes (blobEnvelopes + replaced) remaining⟩
  | .verifying databaseEnvelopes blobEnvelopes =>
      match verify target.keyId s.dir with
      | .error e => some { s with phase := .ended (.error e) }
      | .ok () => some { s with phase := .unlinking databaseEnvelopes blobEnvelopes }
  | .unlinking databaseEnvelopes blobEnvelopes =>
      some ⟨{ s.dir with marker := none },
        .ended (.ok ⟨true, current.keyId, target.keyId, databaseEnvelopes, blobEnvelopes⟩)⟩

def sameKey : PyError := .valueError "new key identifier must differ from the current key"

def step (s : RotationState) : RotationLabel → Option RotationState
  | .call =>
      match s.phase with
      | .stopped | .ended _ =>
          if current.keyId = target.keyId then
            some { s with phase := .ended (.error sameKey) }
          else some { s with phase := .marking }
      | _ => none
  | .advance nonce blobNonce => advance crypto current target nonce blobNonce s
  | .interrupt =>
      match s.phase with
      | .stopped | .ended _ => none
      | _ => some { s with phase := .stopped }

end KeyRotation

end Codex2Lark
