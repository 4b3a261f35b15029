import Codex2Lark.Lib.Sorted
import Codex2Lark.Storage.Purge
import Mathlib.Data.String.Basic

/-!
`StorageMaintenance.garbage_collect`: one bounded transaction over the expired rows, and after its
commit a bounded sweep over the blob files that no attachment names any more.
-/

namespace Codex2Lark

open Lib Idempotency IMRepository

/-- The order in which a query without `ORDER BY` yields its values. -/
structure ScanOrder where
  order : List String → List String := id
  perm : ∀ values, (order values).Perm values := by exact fun values => List.Perm.refl values

structure GarbageCollectionResult where
  eventPayloads : Nat
  messages : Nat
  attachments : Nat
  artifacts : Nat
  idempotency : Nat
  checkpoints : Nat
  blobsDeleted : Nat
  bytesReclaimed : Nat
deriving DecidableEq, Repr

namespace StorageMaintenance

/-! ### What is expired -/

/-- `expires_at_ms IS NOT NULL AND expires_at_ms <= ?`. -/
def isDue (dueMs : Int) (expiresAtMs : Option Int) : Bool := expiresAtMs.any (· ≤ dueMs)

def messageExpired (dueMs : Int) (row : MessageRow) : Bool := isDue dueMs row.expiresAtMs

def attachmentExpired (dueMs : Int) (row : AttachmentRow) : Bool := isDue dueMs row.expiresAtMs

def payloadExpired (dueMs : Int) (row : EventRow) : Bool :=
  row.event.sourcePayload.isSome && isDue dueMs row.event.payloadExpiresAtMs

/-- The column `expires_at_ms` of the artifact. -/
def artifactExpiresAtMs (expiry : List (String × Int)) (row : ArtifactRow) : Option Int :=
  (expiry.find? fun entry => entry.1 = row.artifact.artifactId).map Prod.snd

def artifactExpired (dueMs : Int) (expiry : List (String × Int)) (row : ArtifactRow) : Bool :=
  isDue dueMs (artifactExpiresAtMs expiry row)

/-- The left join of the first query: the message of the attachment is expired. -/
def ownerExpired (dueMs : Int) (db : StorageDatabase) (row : AttachmentRow) : Bool :=
  db.mirror.messages.any fun message =>
    message.key = row.key.message && messageExpired dueMs message

/-! ### The transaction -/

/-- The first query of the collection. -/
def expiredBlobIds (scan : ScanOrder) (dueMs : Int) (limit : Nat) (db : StorageDatabase) :
    List String :=
  (scan.order (attachmentBlobIds
    (fun row => attachmentExpired dueMs row || ownerExpired dueMs db row) db.mirror)).take limit

/-- `session_key LIKE tenant_key || '/' || app_id || '/%'`. -/
def inAppSession (key : MessageKey) (sessionKey : String) : Bool :=
  like ((key.tenantKey ++ "/" ++ key.appId ++ "/%").toList) sessionKey.toList

/-- The condition on a source of a run: it names an expired message or attachment. -/
def namesExpired (dueMs : Int) (db : StorageDatabase) (sessionKey sourceRef : String) : Bool :=
  (db.mirror.messages.any fun message =>
    messageExpired dueMs message && inAppSession message.key sessionKey &&
      refersTo message.key.messageId sourceRef) ||
  db.mirror.attachments.any fun attachment =>
    attachmentExpired dueMs attachment && inAppSession attachment.key.message sessionKey &&
      sourceRef = attachmentRef attachment.key.message.messageId attachment.key.resourceKey

/-- The runs whose checkpoint is derived from something expired. -/
def derivedRunIds (dueMs : Int) (db : StorageDatabase) : List String :=
  ((db.mirror.runtime.checkpointSources.filter fun source =>
    db.mirror.runtime.runs.any fun run =>
      run.runId = source.runId && namesExpired dueMs db run.sessionKey source.sourceRef).map
    CheckpointSourceRow.runId).dedup

/-- The runs whose checkpoint one call deletes. -/
def collectedRunIds (scan : ScanOrder) (dueMs : Int) (batch : Nat) (db : StorageDatabase) :
    List String :=
  (scan.order (derivedRunIds dueMs db)).take batch

def clearPayload (row : EventRow) : EventRow :=
  { row with event := { row.event with sourcePayload := none } }

def clearPayloads (dueMs : Int) (batch : Nat) (db : StorageDatabase) : StorageDatabase :=
  let runtime := db.mirror.runtime
  { db with
    mirror := { db.mirror with
      runtime := { runtime with
        events := Table.updateFirst (payloadExpired dueMs) clearPayload batch runtime.events } } }

def deleteExpiredAttachments (dueMs : Int) (batch : Nat) (db : StorageDatabase) : StorageDatabase :=
  { db with
    mirror := { db.mirror with
      attachments :=
        Table.deleteFirst (attachmentExpired dueMs) batch db.mirror.attachments } }

/-- The attachments of a message go with it. -/
def deleteExpiredMessages (dueMs : Int) (batch : Nat) (db : StorageDatabase) : StorageDatabase :=
  let gone := Table.firstRows (messageExpired dueMs) batch db.mirror.messages
  { db with
    mirror := { db.mirror with
      messages := Table.deleteFirst (messageExpired dueMs) batch db.mirror.messages
      attachments := Table.delete
        (fun row => gone.any fun message => message.key = row.key.message)
        db.mirror.attachments } }

/-- The date of an artifact goes with it. -/
def deleteExpiredArtifacts (dueMs : Int) (batch : Nat) (db : StorageDatabase) : StorageDatabase :=
  let artifacts :=
    Table.deleteFirst (artifactExpired dueMs db.artifactExpiry) batch db.agents.artifacts
  { db with
    agents := { db.agents with artifacts }
    artifactExpiry := db.artifactExpiry.filter fun entry =>
      artifacts.any fun row => row.artifact.artifactId = entry.1 }

/-- The rows of the transaction, the operation journal apart. -/
def collectRows (scan : ScanOrder) (dueMs : Int) (batch : Nat) (db : StorageDatabase) :
    StorageDatabase :=
  let runIds := collectedRunIds scan dueMs batch db
  let db := clearPayloads dueMs batch (deletePurgedCheckpoints runIds.contains db)
  let db := deleteExpiredMessages dueMs batch (deleteExpiredAttachments dueMs batch db)
  deleteOrphanSchedulerLanes (deleteExpiredArtifacts dueMs batch db)

/-! ### The sweep -/

/-- `blob_id[:2]`, the directory of the file. -/
def blobParent (blobId : String) : String := String.ofList (blobId.toList.take 2)

/-- The files below `blobs`, directory by directory. -/
def blobListing (blobIds : List String) : List String :=
  (Sorted.sorted (blobIds.map blobParent).dedup).flatMap fun parent =>
    Sorted.sorted (blobIds.filter fun blobId => blobParent blobId = parent)

/-- `_bounded_blob_files`. -/
def boundedBlobFiles (limit : Nat) (dir : DataDirectory) : List String :=
  (blobListing (dir.blobs.map BlobFile.blobId)).take limit

/-- `SELECT 1 FROM im_attachments WHERE blob_id = ?`. -/
def isReferenced (db : StorageDatabase) (blobId : String) : Bool :=
  db.mirror.attachments.any fun row => row.blobId = some blobId

def forgetBlob (blobId : String) (db : StorageDatabase) : StorageDatabase :=
  { db with
    mirror := { db.mirror with
      fileBlobs := Table.delete (fun row => row.blobId = blobId) db.mirror.fileBlobs } }

structure BlobSweep where
  dir : DataDirectory
  deleted : Nat := 0
  reclaimed : Nat := 0

/-- One turn of the loop. -/
def collectBlob (blobId : String) (sweep : BlobSweep) : BlobSweep :=
  if isReferenced sweep.dir.db blobId then sweep
  else
    let (deleted, reclaimed) := reclaims sweep.dir [blobId]
    { dir := { sweep.dir with db := forgetBlob blobId sweep.dir.db }.unlink [blobId]
      deleted := sweep.deleted + deleted
      reclaimed := sweep.reclaimed + reclaimed }

def invalidBlobId : PyError :=
  .runtimeError "database or blob directory contains an invalid blob identifier"

/-- The loop over the candidates. -/
def collectBlobs : List String → BlobSweep → Option PyError × BlobSweep
  | [], sweep => (none, sweep)
  | blobId :: blobIds, sweep =>
      if isBlobId blobId then collectBlobs blobIds (collectBlob blobId sweep)
      else (some invalidBlobId, sweep)

/-- The candidates of the sweep. -/
def sweepIds (expired : List String) (batch : Nat) (dir : DataDirectory) : List String :=
  (Sorted.sorted (expired ++ boundedBlobFiles batch dir).dedup).take batch

/-- The result; the files of the sweep are not counted yet. -/
def collectionCounts (scan : ScanOrder) (dueMs : Int) (batch : Nat) (db : StorageDatabase) :
    GarbageCollectionResult :=
  let runtime := db.mirror.runtime
  { eventPayloads := min batch (Table.rowcount (payloadExpired dueMs) runtime.events)
    messages := min batch (Table.rowcount (messageExpired dueMs) db.mirror.messages)
    attachments := min batch (Table.rowcount (attachmentExpired dueMs) db.mirror.attachments)
    artifacts := min batch
      (Table.rowcount (artifactExpired dueMs db.artifactExpiry) db.agents.artifacts)
    idempotency := (expiredBatch dueMs batch db.idempotency).length
    checkpoints := Table.rowcount
      (fun row => (collectedRunIds scan dueMs batch db).contains row.runId) runtime.checkpoints
    blobsDeleted := 0
    bytesReclaimed := 0 }

/-- What follows the sweep. When it fails, the rows of the files already unlinked come back. -/
def finishCollection (counts : GarbageCollectionResult) (committed : StorageDatabase) :
    Option PyError × BlobSweep → Except PyError GarbageCollectionResult × DataDirectory
  | (some e, sweep) => (.error e, { sweep.dir with db := committed })
  | (none, sweep) =>
      (.ok { counts with blobsDeleted := sweep.deleted, bytesReclaimed := sweep.reclaimed },
        sweep.dir)

def garbageCollect (scan : ScanOrder) (dueMs batchSize : Int) (dir : DataDirectory) :
    Except PyError GarbageCollectionResult × DataDirectory :=
  -- the bounds of the batch are checked before anything is read
  match Idempotency.garbageCollect dueMs batchSize dir.db.idempotency with
  | .error e => (.error e, dir)
  | .ok idempotency =>
      let batch := batchSize.toNat
      let expired := expiredBlobIds scan dueMs (batch * 2) dir.db
      let committed : DataDirectory :=
        { dir with db := collectRows scan dueMs batch { dir.db with idempotency } }
      finishCollection (collectionCounts scan dueMs batch dir.db) committed.db
        (collectBlobs (sweepIds expired batch committed) { dir := committed })

end StorageMaintenance

end Codex2Lark
