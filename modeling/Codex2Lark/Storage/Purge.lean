import Codex2Lark.Storage.StoredRows
import Codex2Lark.Storage.TaskQueue
import Mathlib.Algebra.GroupWithZero.Nat

/-!
`purge_message`, `purge_chat` and `purge_tenant` of `StorageMaintenance`. Each collects the
identifiers of the target in temporary tables and deletes by them, in one transaction under
`PRAGMA foreign_keys=ON`; the files of blobs that nothing names any more go after the commit.
-/

namespace Codex2Lark

open Lib Idempotency IMRepository TaskQueue

inductive PurgeTarget where
  | message (key : MessageKey)
  | chat (key : ChatKey)
deriving DecidableEq, Repr

namespace PurgeTarget

def tenantKey : PurgeTarget → String
  | .message key => key.tenantKey
  | .chat key => key.tenantKey

def appId : PurgeTarget → String
  | .message key => key.appId
  | .chat key => key.appId

def resourceId : PurgeTarget → String
  | .message key => key.messageId
  | .chat key => key.chatId

/-- `target_kind`. -/
def kind : PurgeTarget → String
  | .message _ => "message"
  | .chat _ => "chat"

end PurgeTarget

/-- `_validate_blob_id`: the hexadecimal digits of a SHA-256 digest. -/
def isBlobId (blobId : String) : Bool :=
  blobId.length = 64 && blobId.toList.all "0123456789abcdef".toList.contains

/-- A file below `blobs`, at the path that `blobs.py` gives to its identifier. -/
structure BlobFile where
  blobId : String
  byteSize : Nat
  valid : isBlobId blobId = true := by decide
deriving DecidableEq, Repr

/-- `runtime.db` and the files below `blobs`. -/
structure DataDirectory where
  db : StorageDatabase := {}
  blobs : List BlobFile := []
  distinct : (blobs.map BlobFile.blobId).Nodup := by first | exact List.nodup_nil | decide

/-- `path.unlink()` for the files with these identifiers. -/
def DataDirectory.unlink (dir : DataDirectory) (blobIds : List String) : DataDirectory :=
  { dir with
    blobs := dir.blobs.filter fun file => !blobIds.contains file.blobId
    distinct := dir.distinct.sublist (List.filter_sublist.map _) }

/-- The numbers of deleted rows. -/
structure PurgeCounts where
  messages : Nat
  attachments : Nat
  checkpoints : Nat
  tasks : Nat
  runs : Nat
  outbox : Nat
deriving DecidableEq, Repr

structure PurgeResult where
  targetKind : String
  counts : PurgeCounts
  blobsDeleted : Nat
  bytesReclaimed : Nat
deriving DecidableEq, Repr

/-- The temporary tables. -/
structure PurgeTables where
  messages : List String
  tasks : List String
  runs : List String
  events : List Nat
deriving DecidableEq, Repr

namespace StorageMaintenance

/-! ### The temporary tables -/

/-- The event is about this message. -/
def isMessageEvent (key : MessageKey) (row : EventRow) : Bool :=
  row.event.tenantKey = key.tenantKey && row.event.appId = key.appId &&
    row.event.resourceKind = "im.message" && row.event.resourceId = key.messageId

/-- The event is about this chat. -/
def isChatEvent (key : ChatKey) (row : EventRow) : Bool :=
  row.event.tenantKey = key.tenantKey && row.event.appId = key.appId &&
    row.event.resourceKind = "im.chat" && row.event.resourceId = key.chatId

/-- `session_key LIKE ?` for a chat. -/
def inChatSession (key : ChatKey) (task : TaskRow) : Bool :=
  like ((key.tenantKey ++ "/" ++ key.appId ++ "/" ++ key.chatId ++ "/%").toList)
    task.sessionKey.toList

/-- `session_key LIKE ?` for a tenant. -/
def inTenantSession (tenantKey : String) (task : TaskRow) : Bool :=
  like ((tenantKey ++ "/%").toList) task.sessionKey.toList

/-- The task that joins an event with this property. -/
def hasEvent (db : StorageDatabase) (p : EventRow → Bool) (task : TaskRow) : Bool :=
  db.mirror.runtime.events.any fun row => p row && task.eventPk = some row.eventPk

def purgeTask (db : StorageDatabase) : PurgeTarget → TaskRow → Bool
  | .message key => hasEvent db (isMessageEvent key)
  | .chat key => inChatSession key

def tenantTask (db : StorageDatabase) (tenantKey : String) (task : TaskRow) : Bool :=
  hasEvent db (fun row => row.event.tenantKey = tenantKey) task || inTenantSession tenantKey task

def taskIds (db : StorageDatabase) (p : TaskRow → Bool) : List String :=
  (db.mirror.runtime.tasks.filter p).map TaskRow.taskId

def runIds (db : StorageDatabase) (tasks : List String) : List String :=
  (db.mirror.runtime.runs.filter fun row => tasks.contains row.taskId).map RunRow.runId

/-- `_prepare_purge_tables`. -/
def preparePurgeTables (target : PurgeTarget) (db : StorageDatabase) : PurgeTables :=
  let tasks := taskIds db (purgeTask db target)
  { messages :=
      match target with
      | .message key => [key.messageId]
      | .chat key =>
          (db.mirror.messages.filter fun row => row.chatKey = key).map fun row => row.key.messageId
    tasks
    runs := runIds db tasks
    events :=
      (db.mirror.runtime.tasks.filter fun row => tasks.contains row.taskId).filterMap
          TaskRow.eventPk ++
        match target with
        | .message _ => []
        | .chat key => (db.mirror.runtime.events.filter (isChatEvent key)).map EventRow.eventPk }

/-- `_prepare_tenant_purge_tables`. -/
def prepareTenantPurgeTables (tenantKey : String) (db : StorageDatabase) : PurgeTables :=
  let tasks := taskIds db (tenantTask db tenantKey)
  { messages := (db.mirror.messages.filter fun row => row.key.tenantKey = tenantKey).map
      fun row => row.key.messageId
    tasks
    runs := runIds db tasks
    events := (db.mirror.runtime.events.filter fun row => row.event.tenantKey = tenantKey).map
      EventRow.eventPk }

/-! ### The rows that a statement deletes -/

variable (t : PurgeTables)

/-- The checkpoint is that of a purged run or cites a purged message. -/
def citesPurged (db : StorageDatabase) (runId : String) : Bool :=
  t.runs.contains runId || db.mirror.runtime.checkpointSources.any fun source =>
    source.runId = runId && t.messages.any fun messageId => refersTo messageId source.sourceRef

def purgesControl (row : ControlRow) : Bool :=
  t.tasks.contains row.targetTaskId || t.events.contains row.eventPk

/-- The column `run_id` of the outbox is never written. -/
def purgesOutbox (row : OutboxRow) : Bool := row.taskId.any t.tasks.contains

/-- `owner LIKE r.run_id || ':%'`. -/
def purgesClaim (row : IdempotencyRow) : Bool :=
  t.runs.any fun runId => like ((runId ++ ":%").toList) row.owner.toList

/-- The cascade of a deletion of graphs. -/
def withoutGraphs (p : GraphRow → Bool) (db : StorageDatabase) : StorageDatabase :=
  let graphIds := (db.agents.graphs.filter p).map GraphRow.graphId
  { db with
    agents :=
      { graphs := Table.delete p db.agents.graphs
        nodes := Table.delete (fun row => graphIds.contains row.graphId) db.agents.nodes
        edges := Table.delete (fun row => graphIds.contains row.graphId) db.agents.edges
        ledger := Table.delete (fun row => graphIds.contains row.graphId) db.agents.ledger
        locks := Table.delete (fun row => graphIds.contains row.graphId) db.agents.locks
        artifacts := Table.delete (fun row => graphIds.contains row.artifact.graphId)
          db.agents.artifacts
        mailbox := Table.delete (fun row => graphIds.contains row.graphId) db.agents.mailbox }
    agentCheckpoints := Table.delete (fun row => graphIds.contains row.graphId)
      db.agentCheckpoints }

/-- The nodes that rows refer to. -/
def nodeReferences (db : StorageDatabase) : List String :=
  db.agents.nodes.filterMap NodeRow.parentNodeId ++
    db.agents.edges.flatMap (fun row => [row.predecessorNodeId, row.dependentNodeId]) ++
    db.agents.mailbox.flatMap (fun row => [row.senderNodeId, row.recipientNodeId]) ++
    db.agents.artifacts.map (fun row => row.artifact.producerNodeId) ++
    db.agents.locks.map LockRow.ownerNodeId ++ db.agents.ledger.map LedgerRow.nodeId

/-- A row of another graph refers to a node that went with its graph. -/
def nodesDangle (p : GraphRow → Bool) (db : StorageDatabase) : Bool :=
  let graphIds := (db.agents.graphs.filter p).map GraphRow.graphId
  let nodeIds := (db.agents.nodes.filter fun row => graphIds.contains row.graphId).map NodeRow.nodeId
  (nodeReferences (withoutGraphs p db)).any nodeIds.contains

/-- A row that is left refers to a purged run. -/
def runsDangle (db : StorageDatabase) : Bool :=
  db.mirror.runtime.runEvents.any fun row => t.runs.contains row.runId

/-- A row that is left refers to a purged task. -/
def tasksDangle (db : StorageDatabase) : Bool :=
  (db.mirror.runtime.runs.any fun row => t.tasks.contains row.taskId) ||
    db.mirror.runtime.outbox.any (purgesOutbox t) ||
    (db.mirror.runtime.controls.any fun row => t.tasks.contains row.targetTaskId) ||
    db.mirror.runtime.approvals.any fun row => t.tasks.contains row.taskId

/-- A row that is left refers to a purged event. -/
def eventsDangle (db : StorageDatabase) : Bool :=
  (db.mirror.runtime.tasks.any fun row => row.eventPk.any t.events.contains) ||
    db.mirror.runtime.controls.any fun row => t.events.contains row.eventPk

/-- The attachments go with their messages. -/
def withoutMessages (p : MessageRow → Bool) (q : AttachmentRow → Bool) (db : StorageDatabase) :
    StorageDatabase :=
  let gone := db.mirror.messages.filter p
  { db with
    mirror := { db.mirror with
      messages := Table.delete p db.mirror.messages
      attachments := Table.delete
        (fun row => q row || gone.any fun message => message.key = row.key.message)
        db.mirror.attachments } }

/-- The messages go with their chats, and the attachments with these. -/
def withoutChats (p : ChatRow → Bool) (db : StorageDatabase) : StorageDatabase :=
  let gone := (db.mirror.chats.filter p).map ChatRow.key
  withoutMessages (fun row => gone.contains row.chatKey) (fun _ => false)
    { db with mirror := { db.mirror with chats := Table.delete p db.mirror.chats } }

/-- Some task is served in the lane. -/
def usesLane (lane : LaneRow) (task : TaskRow) : Bool :=
  (lane.scopeKind = "tenant" && task.tenantKey = lane.scopeKey) ||
    (lane.scopeKind = "app" && appLaneKey task = lane.scopeKey) ||
    (lane.scopeKind = "group" &&
      task.groupId.any fun groupId => groupLaneKey task groupId = lane.scopeKey) ||
    (lane.scopeKind = "session" && task.sessionKey = lane.scopeKey)

def laneKinds : List String := ["tenant", "app", "group", "session"]

/-- `_delete_orphan_scheduler_lanes`. -/
def deleteOrphanSchedulerLanes (db : StorageDatabase) : StorageDatabase :=
  let runtime := db.mirror.runtime
  { db with
    mirror := { db.mirror with
      runtime := { runtime with
        lanes := Table.delete
          (fun lane => laneKinds.contains lane.scopeKind && !runtime.tasks.any (usesLane lane))
          runtime.lanes } } }

def foreignKeyFailed : PyError := .integrityError "FOREIGN KEY constraint failed"

/-- A constraint that is checked when its statement has run. -/
def checked (dangles : StorageDatabase → Bool) (db : StorageDatabase) :
    Except PyError StorageDatabase :=
  if dangles db then .error foreignKeyFailed else .ok db

/-! ### The statements in order -/

def deletePurgedCheckpoints (p : String → Bool) (db : StorageDatabase) : StorageDatabase :=
  let runtime := db.mirror.runtime
  { db with
    mirror := { db.mirror with
      runtime := { runtime with
        checkpoints := Table.delete (fun row => p row.runId) runtime.checkpoints
        checkpointSources := Table.delete (fun row => p row.runId) runtime.checkpointSources } } }

/-- Controls, messages of the outbox and events of runs, to which no row refers. -/
def deletePurgedLeaves (db : StorageDatabase) : StorageDatabase :=
  let runtime := db.mirror.runtime
  { db with
    mirror := { db.mirror with
      runtime := { runtime with
        controls := Table.delete (purgesControl t) runtime.controls
        outbox := Table.delete (purgesOutbox t) runtime.outbox
        runEvents := Table.delete (fun row => t.runs.contains row.runId) runtime.runEvents } } }

/-- The checkpoints of the runs are gone before. -/
def deletePurgedRuns (db : StorageDatabase) : StorageDatabase :=
  let runtime := db.mirror.runtime
  { db with
    mirror := { db.mirror with
      runtime := { runtime with
        runs := Table.delete (fun row => t.runs.contains row.runId) runtime.runs } } }

def deletePurgedTasks (db : StorageDatabase) : StorageDatabase :=
  let runtime := db.mirror.runtime
  { db with
    mirror := { db.mirror with
      runtime := { runtime with
        tasks := Table.delete (fun row => t.tasks.contains row.taskId) runtime.tasks } } }

def deletePurgedEvents (db : StorageDatabase) : StorageDatabase :=
  let runtime := db.mirror.runtime
  { db with
    mirror := { db.mirror with
      runtime := { runtime with
        events := Table.delete (fun row => t.events.contains row.eventPk) runtime.events } } }

/-- `tenant_key = ? AND app_id = ? AND message_id IN purge_messages`. -/
def isPurgedMessage (target : PurgeTarget) (key : MessageKey) : Bool :=
  key.tenantKey = target.tenantKey && key.appId = target.appId && t.messages.contains key.messageId

/-- The deletions from the mirror. -/
def deletePurgedMirror (target : PurgeTarget) (db : StorageDatabase) : StorageDatabase :=
  let db := withoutMessages (fun row => isPurgedMessage t target row.key)
    (fun row => isPurgedMessage t target row.key.message) db
  match target with
  | .message _ => db
  | .chat key => withoutChats (fun row => row.key = key) db

/-- `_drop_blob_metadata`. -/
def dropBlobMetadata (candidates : List String) (db : StorageDatabase) :
    List String × StorageDatabase :=
  let (unreferenced, mirror) := dropUnreferencedBlobMetadata candidates db.mirror
  (unreferenced, { db with mirror })

/-- The row of the target exists. -/
def targetExists (db : StorageDatabase) : PurgeTarget → Bool
  | .message key => db.mirror.messages.any fun row => row.key = key
  | .chat key => db.mirror.chats.any fun row => row.key = key

/-- `not value.strip()`. -/
def isBlank (value : String) : Bool := IMMentionTaskHandler.strip value = ""

def isPurgedGraph (row : GraphRow) : Bool := t.runs.contains row.rootRunId

/-- The deletions from the runtime tables; they stop at the first constraint that fails. -/
def deletePurged (db : StorageDatabase) : Except PyError StorageDatabase := do
  let db := deletePurgedLeaves t (deletePurgedCheckpoints (citesPurged t db) db)
  if nodesDangle (isPurgedGraph t) db then throw foreignKeyFailed
  let db ← checked (runsDangle t) (deletePurgedRuns t (withoutGraphs (isPurgedGraph t) db))
  let db ← checked (tasksDangle t) (deletePurgedTasks t db)
  checked (eventsDangle t) (deletePurgedEvents t db)

def purgeCounts (target : PurgeTarget) (db : StorageDatabase) : PurgeCounts :=
  let runtime := db.mirror.runtime
  { messages := Table.rowcount (fun row => isPurgedMessage t target row.key) db.mirror.messages
    attachments := Table.rowcount (fun row => isPurgedMessage t target row.key.message)
      db.mirror.attachments
    checkpoints := Table.rowcount (fun row => citesPurged t db row.runId) runtime.checkpoints
    tasks := Table.rowcount (fun row => t.tasks.contains row.taskId) runtime.tasks
    runs := Table.rowcount (fun row => t.runs.contains row.runId) runtime.runs
    outbox := Table.rowcount (purgesOutbox t) runtime.outbox }

/-- The transaction of `_purge`, with the blobs that nothing names any more. -/
def purgeRows (target : PurgeTarget) (db : StorageDatabase) :
    Except PyError ((PurgeCounts × List String) × StorageDatabase) := do
  if isBlank target.tenantKey || isBlank target.appId || isBlank target.resourceId then
    throw (.valueError "purge target identifiers are required")
  if !targetExists db target then
    throw (.lookupError ("exact " ++ target.kind ++ " purge target does not exist"))
  let t := preparePurgeTables target db
  let candidates := attachmentBlobIds (fun row => isPurgedMessage t target row.key.message) db.mirror
  let counts := purgeCounts t target db
  let db ← deletePurged t db
  let (unreferenced, db) := dropBlobMetadata candidates (deletePurgedMirror t target db)
  pure ((counts, unreferenced), deleteOrphanSchedulerLanes db)

/-- Some row shows that the tenant exists. -/
def tenantExists (db : StorageDatabase) (tenantKey : String) : Bool :=
  (db.mirror.chats.any fun row => row.key.tenantKey = tenantKey) ||
    (db.mirror.runtime.events.any fun row => row.event.tenantKey = tenantKey) ||
    (db.agents.graphs.any fun row => row.tenantKey = tenantKey) ||
    db.mirror.runtime.tasks.any (inTenantSession tenantKey)

/-- The deletions of `purge_tenant`. -/
def deleteTenant (tenantKey : String) (db : StorageDatabase) : StorageDatabase :=
  let runtime := db.mirror.runtime
  let db : StorageDatabase :=
    { db with
      mirror := { db.mirror with
        runtime := { runtime with
          approvals := Table.delete (fun row => t.tasks.contains row.taskId) runtime.approvals } }
      idempotency := Table.delete (purgesClaim t) db.idempotency }
  let db := deletePurgedCheckpoints t.runs.contains (deletePurgedLeaves t db)
  let db := withoutGraphs (fun row => row.tenantKey = tenantKey) db
  let db := deletePurgedEvents t (deletePurgedTasks t (deletePurgedRuns t db))
  withoutChats (fun row => row.key.tenantKey = tenantKey)
    (withoutMessages (fun row => row.key.tenantKey = tenantKey)
      (fun row => row.key.message.tenantKey = tenantKey) db)

def tenantCounts (tenantKey : String) (db : StorageDatabase) : PurgeCounts :=
  let runtime := db.mirror.runtime
  { messages := Table.rowcount (fun row => row.key.tenantKey = tenantKey) db.mirror.messages
    attachments := Table.rowcount (fun row => row.key.message.tenantKey = tenantKey)
      db.mirror.attachments
    checkpoints := Table.rowcount (fun row => t.runs.contains row.runId) runtime.checkpoints
    tasks := t.tasks.length
    runs := t.runs.length
    outbox := Table.rowcount (purgesOutbox t) runtime.outbox }

/-- The transaction of `purge_tenant`. The constraints are deferred to the commit. -/
def purgeTenantRows (tenantKey : String) (db : StorageDatabase) :
    Except PyError ((PurgeCounts × List String) × StorageDatabase) := do
  if isBlank tenantKey then throw (.valueError "tenant purge target is required")
  if !tenantExists db tenantKey then
    throw (.lookupError "exact tenant purge target does not exist")
  let t := prepareTenantPurgeTables tenantKey db
  -- the identifier alone is the key of the temporary table
  if ¬ t.messages.Nodup then
    throw (.integrityError "UNIQUE constraint failed: purge_messages.message_id")
  let candidates := attachmentBlobIds (fun row => row.key.message.tenantKey = tenantKey) db.mirror
  let counts := tenantCounts t tenantKey db
  let dangles := nodesDangle (fun row => row.tenantKey = tenantKey) db
  let (unreferenced, db) := dropBlobMetadata candidates (deleteTenant t tenantKey db)
  if dangles || runsDangle t db || tasksDangle t db || eventsDangle t db then
    throw foreignKeyFailed
  pure ((counts, unreferenced), deleteOrphanSchedulerLanes db)

/-! ### The calls -/

/-- The number and the size of the files that are there. -/
def reclaims (dir : DataDirectory) (blobIds : List String) : Nat × Nat :=
  let gone := dir.blobs.filter fun file => blobIds.contains file.blobId
  (gone.length, (gone.map BlobFile.byteSize).sum)

/-- What follows the commit or the rollback. -/
def finishPurge (kind : String) (dir : DataDirectory) :
    Except PyError ((PurgeCounts × List String) × StorageDatabase) →
      Except PyError PurgeResult × DataDirectory
  | .error e => (.error e, dir)
  | .ok ((counts, unreferenced), db) =>
      let (deleted, reclaimed) := reclaims dir unreferenced
      (.ok ⟨kind, counts, deleted, reclaimed⟩, { dir with db }.unlink unreferenced)

def purge (target : PurgeTarget) (dir : DataDirectory) : Except PyError PurgeResult × DataDirectory :=
  finishPurge target.kind dir (purgeRows target dir.db)

def purgeMessage (key : MessageKey) : DataDirectory → Except PyError PurgeResult × DataDirectory :=
  purge (.message key)

def purgeChat (key : ChatKey) : DataDirectory → Except PyError PurgeResult × DataDirectory :=
  purge (.chat key)

def purgeTenant (tenantKey : String) (dir : DataDirectory) :
    Except PyError PurgeResult × DataDirectory :=
  finishPurge "tenant" dir (purgeTenantRows tenantKey dir.db)

end StorageMaintenance

end Codex2Lark
