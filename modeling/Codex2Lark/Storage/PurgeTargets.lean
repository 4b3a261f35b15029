import Codex2Lark.Storage.Purge
import Mathlib.Data.List.Dedup

/-!
Which rows belong to a message, a chat or a tenant, and which rows a purge deletes. What belongs
to whom is read from the columns that name it: an event has its resource, a task its event, tenant,
application and chat, and every other row of the runtime a task, a run or a graph.
-/

namespace Codex2Lark

open Lib Idempotency IMRepository TaskQueue

inductive DataScope where
  | message (key : MessageKey)
  | chat (key : ChatKey)
  | tenant (tenantKey : String)
deriving DecidableEq, Repr

def PurgeTarget.scope : PurgeTarget → DataScope
  | .message key => .message key
  | .chat key => .chat key

namespace StorageMaintenance

/-! ### Belonging -/

section Belonging

variable (db : StorageDatabase)

def ownsTask : DataScope → TaskRow → Bool
  | .message key, task => hasEvent db (isMessageEvent key) task
  | .chat key, task =>
      task.tenantKey = key.tenantKey && task.appId = key.appId && task.groupId = some key.chatId
  | .tenant tenantKey, task => task.tenantKey = tenantKey

def ownsTaskId (scope : DataScope) (taskId : String) : Bool :=
  db.mirror.runtime.tasks.any fun task => task.taskId = taskId && ownsTask db scope task

def ownsRunId (scope : DataScope) (runId : String) : Bool :=
  db.mirror.runtime.runs.any fun run => run.runId = runId && ownsTaskId db scope run.taskId

def eventIs (p : EventRow → Bool) (eventPk : Nat) : Bool :=
  db.mirror.runtime.events.any fun row => row.eventPk = eventPk && p row

def isScopeEvent : DataScope → EventRow → Bool
  | .message key, row => isMessageEvent key row
  | .chat key, row => isChatEvent key row || db.mirror.messages.any fun message =>
      message.chatKey = key && isMessageEvent message.key row
  | .tenant tenantKey, row => row.event.tenantKey = tenantKey

/-- The message of a control belongs to the chat of the task that it controls. -/
def isControlEvent : DataScope → Nat → Bool
  | .chat key, eventPk => db.mirror.runtime.controls.any fun control =>
      control.eventPk = eventPk && ownsTaskId db (.chat key) control.targetTaskId
  | _, _ => false

def ownsEventPk (scope : DataScope) (eventPk : Nat) : Bool :=
  eventIs db (isScopeEvent db scope) eventPk ||
    (db.mirror.runtime.tasks.any fun task =>
      task.eventPk = some eventPk && ownsTaskId db scope task.taskId) ||
    isControlEvent db scope eventPk

def ownsControl (scope : DataScope) (row : ControlRow) : Bool :=
  ownsTaskId db scope row.targetTaskId || ownsEventPk db scope row.eventPk

/-- The task is one of this tenant and application. -/
def isAppTask (tenantKey appId taskId : String) : Bool :=
  db.mirror.runtime.tasks.any fun task =>
    task.taskId = taskId && task.tenantKey = tenantKey && task.appId = appId

/-- A reply names the message that it answers, also where another task sends it. -/
def ownsOutbox (scope : DataScope) (row : OutboxRow) : Bool :=
  row.taskId.any fun taskId => ownsTaskId db scope taskId ||
    match scope with
    | .message key =>
        row.draft.destinationRef = key.messageId && isAppTask db key.tenantKey key.appId taskId
    | _ => false

/-- The mirror has this attachment of the tenant and the application. -/
def isNamedAttachment (key : MessageKey) (sourceRef : String) (row : AttachmentRow) : Bool :=
  row.key.message.tenantKey = key.tenantKey && row.key.message.appId = key.appId &&
    attachmentRef row.key.message.messageId row.key.resourceKey = sourceRef

/-- The reference is that of the message or of one of its attachments. Where both identifiers of an
attachment may contain a colon, the attachments that the mirror has tell where the first ends. -/
def namesSource (key : MessageKey) (sourceRef : String) : Bool :=
  sourceRef = messageRef key.messageId ||
    (attachmentRef key.messageId "").toList.isPrefixOf sourceRef.toList &&
      let known := db.mirror.attachments.filter (isNamedAttachment key sourceRef)
      known.isEmpty || known.any fun row => row.key.message = key

/-- The run is one of this tenant and application. -/
def isAppRun (tenantKey appId runId : String) : Bool :=
  db.mirror.runtime.runs.any fun run => run.runId = runId && isAppTask db tenantKey appId run.taskId

/-- The index of the checkpoint has a source with this property. -/
def hasSource (p : String → Bool) (runId : String) : Bool :=
  db.mirror.runtime.checkpointSources.any fun source => source.runId = runId && p source.sourceRef

/-- The checkpoint of a run belongs to its task and to the messages that it is derived from. -/
def ownsCheckpoint (scope : DataScope) (runId : String) : Bool :=
  ownsRunId db scope runId ||
    match scope with
    | .message key => isAppRun db key.tenantKey key.appId runId && hasSource db (namesSource db key) runId
    | .chat key =>
        isAppRun db key.tenantKey key.appId runId && db.mirror.messages.any fun message =>
          message.chatKey = key && hasSource db (namesSource db message.key) runId
    | .tenant _ => false

def ownsGraph : DataScope → GraphRow → Bool
  | .tenant tenantKey, row => row.tenantKey = tenantKey
  | scope, row => ownsRunId db scope row.rootRunId

def ownsGraphId (scope : DataScope) (graphId : String) : Bool :=
  db.agents.graphs.any fun graph => graph.graphId = graphId && ownsGraph db scope graph

/-- The owner of a claim is `run_id:node_id`, and nodes have no colon in their names. -/
def claimRunId (owner : String) : String :=
  String.ofList ((owner.toList.reverse.dropWhile (· ≠ ':')).drop 1).reverse

/-- A child runs under the name of its node. -/
def ownsClaim (scope : DataScope) (row : IdempotencyRow) : Bool :=
  ownsRunId db scope (claimRunId row.owner) || db.agents.nodes.any fun node =>
    node.nodeId = claimRunId row.owner && ownsGraphId db scope node.graphId

def ownsMessageKey : DataScope → MessageKey → Bool
  | .message key, this => this = key
  | .chat key, this => db.mirror.messages.any fun message =>
      message.key = this && message.chatKey = key
  | .tenant tenantKey, this => this.tenantKey = tenantKey

/-- Attachments of the scope, and no others, name the blob. -/
def ownsBlob (scope : DataScope) (blobId : String) : Bool :=
  (db.mirror.attachments.any fun row =>
      row.blobId = some blobId && ownsMessageKey db scope row.key.message) &&
    !db.mirror.attachments.any fun row =>
      row.blobId = some blobId && !ownsMessageKey db scope row.key.message

def ownsChat : DataScope → ChatRow → Bool
  | .message _, _ => false
  | .chat key, row => row.key = key
  | .tenant tenantKey, row => row.key.tenantKey = tenantKey

/-- A lane belongs to the tasks that are served in it. -/
def ownsLane (scope : DataScope) (lane : LaneRow) : Bool :=
  laneKinds.contains lane.scopeKind &&
    !db.mirror.runtime.tasks.any fun task => usesLane lane task && !ownsTaskId db scope task.taskId

def owns (scope : DataScope) : StoredRow → Bool
  | .event row => ownsEventPk db scope row.eventPk
  | .task row => ownsTaskId db scope row.taskId
  | .run row => ownsRunId db scope row.runId
  | .runEvent row => ownsRunId db scope row.runId
  | .control row => ownsControl db scope row
  | .approval row => ownsTaskId db scope row.taskId
  | .outbox row => ownsOutbox db scope row
  | .checkpoint row => ownsCheckpoint db scope row.runId
  | .checkpointSource row => ownsCheckpoint db scope row.runId
  | .lane row => ownsLane db scope row
  | .idempotency row => ownsClaim db scope row
  | .graph row => ownsGraph db scope row
  | .node row => ownsGraphId db scope row.graphId
  | .edge row => ownsGraphId db scope row.graphId
  | .ledger row => ownsGraphId db scope row.graphId
  | .lock row => ownsGraphId db scope row.graphId
  | .artifact row => ownsGraphId db scope row.artifact.graphId
  | .mail row => ownsGraphId db scope row.graphId
  | .agentCheckpoint row => ownsGraphId db scope row.graphId
  | .chat row => ownsChat scope row
  | .message row => ownsMessageKey db scope row.key
  | .attachment row => ownsMessageKey db scope row.key.message
  | .fileBlob row => ownsBlob db scope row.blobId

end Belonging

/-! ### What a purge deletes -/

section Deletions

variable (t : PurgeTables) (db : StorageDatabase)

/-- A graph with this identifier has the property. -/
def graphGone (p : GraphRow → Bool) (graphId : String) : Bool :=
  ((db.agents.graphs.filter p).map GraphRow.graphId).contains graphId

/-- What both purges delete alike, `p` being the graphs that they delete. -/
def purgesRuntime (p : GraphRow → Bool) : StoredRow → Bool
  | .event row => t.events.contains row.eventPk
  | .task row => t.tasks.contains row.taskId
  | .run row => t.runs.contains row.runId
  | .runEvent row => t.runs.contains row.runId
  | .control row => purgesControl t row
  | .outbox row => purgesOutbox t row
  | .lane lane => laneKinds.contains lane.scopeKind &&
      !db.mirror.runtime.tasks.any fun task => !t.tasks.contains task.taskId && usesLane lane task
  | .graph row => p row
  | .node row => graphGone db p row.graphId
  | .edge row => graphGone db p row.graphId
  | .ledger row => graphGone db p row.graphId
  | .lock row => graphGone db p row.graphId
  | .artifact row => graphGone db p row.artifact.graphId
  | .mail row => graphGone db p row.graphId
  | .agentCheckpoint row => graphGone db p row.graphId
  | _ => false

/-- The blob is named by an attachment of the first kind and by none that stays. -/
def blobGone (isTarget isGone : AttachmentRow → Bool) (blobId : String) : Bool :=
  (db.mirror.attachments.any fun row => isTarget row && row.blobId = some blobId) &&
    !db.mirror.attachments.any fun row => !isGone row && row.blobId = some blobId

/-- The message is deleted, by itself or with its chat. -/
def messageGone (target : PurgeTarget) (row : MessageRow) : Bool :=
  isPurgedMessage t target row.key ||
    match target with
    | .message _ => false
    | .chat key => row.chatKey = key && db.mirror.chats.any fun chat => chat.key = key

/-- The attachment is deleted, by itself or with its message. -/
def attachmentGone (target : PurgeTarget) (row : AttachmentRow) : Bool :=
  isPurgedMessage t target row.key.message ||
    db.mirror.messages.any fun message =>
      message.key = row.key.message && messageGone t db target message

/-- The rows of `_purge`. -/
def purges (target : PurgeTarget) : StoredRow → Bool
  | .checkpoint row => citesPurged t db row.runId
  | .checkpointSource row => citesPurged t db row.runId
  | .chat row =>
      match target with
      | .message _ => false
      | .chat key => row.key = key
  | .message row => messageGone t db target row
  | .attachment row => attachmentGone t db target row
  | .fileBlob row => blobGone db (fun row => isPurgedMessage t target row.key.message)
      (attachmentGone t db target) row.blobId
  | row => purgesRuntime t db (isPurgedGraph t) row

/-- The rows of `purge_tenant`. -/
def purgesTenant (tenantKey : String) : StoredRow → Bool
  | .approval row => t.tasks.contains row.taskId
  | .checkpoint row => t.runs.contains row.runId
  | .checkpointSource row => t.runs.contains row.runId
  | .idempotency row => purgesClaim t row
  | .chat row => row.key.tenantKey = tenantKey
  | .message row => row.key.tenantKey = tenantKey
  | .attachment row => row.key.message.tenantKey = tenantKey
  | .fileBlob row => blobGone db (fun row => row.key.message.tenantKey = tenantKey)
      (fun row => row.key.message.tenantKey = tenantKey) row.blobId
  | row => purgesRuntime t db (fun row => row.tenantKey = tenantKey) row

end Deletions

/-- Nothing refuses the purge: the target is there, no row of another graph refers to a node of a
purged one, no approval to a purged task, and no other task to a purged event. -/
structure Purgeable (target : PurgeTarget) (db : StorageDatabase) : Prop where
  named : ¬ (isBlank target.tenantKey || isBlank target.appId || isBlank target.resourceId) = true
  found : targetExists db target = true
  nodes : nodesDangle (isPurgedGraph (preparePurgeTables target db)) db = false
  approvals : ∀ row ∈ db.mirror.runtime.approvals,
    (preparePurgeTables target db).tasks.contains row.taskId = false
  events : ∀ task ∈ db.mirror.runtime.tasks,
    (preparePurgeTables target db).tasks.contains task.taskId = false →
      task.eventPk.any (preparePurgeTables target db).events.contains = false

/-- The same for `purge_tenant`, whose list of messages has each identifier once. -/
structure TenantPurgeable (tenantKey : String) (db : StorageDatabase) : Prop where
  named : isBlank tenantKey = false
  found : tenantExists db tenantKey = true
  messages : (prepareTenantPurgeTables tenantKey db).messages.Nodup
  nodes : nodesDangle (fun row => row.tenantKey = tenantKey) db = false

section Specification

variable {t : PurgeTables} {target : PurgeTarget} {db after : StorageDatabase} {tenantKey : String}
  {result : PurgeCounts × List String}

/-- The rows of the mirror that are left, and the blobs that they name. -/
theorem mem_dropBlobMetadata {isTarget isGone : AttachmentRow → Bool}
    (hattachments : after.mirror.attachments = Table.delete isGone db.mirror.attachments)
    (hblobs : after.mirror.fileBlobs = db.mirror.fileBlobs) {row : FileBlobRow} :
    row ∈ (dropBlobMetadata (attachmentBlobIds isTarget db.mirror) after).2.mirror.fileBlobs ↔
      row ∈ db.mirror.fileBlobs ∧ blobGone db isTarget isGone row.blobId = false := by
  change row ∈ Table.delete _ after.mirror.fileBlobs ↔ _
  rw [Table.mem_delete, hblobs]
  refine and_congr_right fun _ => ?_
  have hcandidate : row.blobId ∈ attachmentBlobIds isTarget db.mirror ↔
      (db.mirror.attachments.any fun attachment =>
        isTarget attachment && attachment.blobId = some row.blobId) = true := by
    unfold attachmentBlobIds
    rw [List.mem_dedup, List.mem_filterMap, List.any_eq_true]
    constructor
    · rintro ⟨attachment, hmem, hblob⟩
      obtain ⟨hmem, htarget⟩ := List.mem_filter.mp hmem
      exact ⟨attachment, hmem, by simp [htarget, hblob]⟩
    · rintro ⟨attachment, hmem, hboth⟩
      obtain ⟨htarget, hblob⟩ := Bool.and_eq_true_iff.mp hboth
      exact ⟨attachment, List.mem_filter.mpr ⟨hmem, htarget⟩, of_decide_eq_true hblob⟩
  have hnamed : (after.mirror.attachments.any fun attachment =>
      decide (attachment.blobId = some row.blobId)) = db.mirror.attachments.any fun attachment =>
        !isGone attachment && attachment.blobId = some row.blobId := by
    rw [hattachments]
    unfold Table.delete
    rw [List.any_filter]
  unfold blobGone
  rw [← Bool.not_eq_true, ← Bool.not_eq_true, List.contains_iff_mem, List.mem_filter, hcandidate,
    hnamed, Bool.and_eq_true_iff]

/-- The runs of the temporary table are all the runs of its tasks. -/
theorem purged_run {tasks : List String} {run : RunRow} (hrun : run ∈ db.mirror.runtime.runs)
    (htask : tasks.contains run.taskId = true) : (runIds db tasks).contains run.runId = true :=
  List.contains_iff_mem.mpr (List.mem_map.mpr ⟨run, List.mem_filter.mpr ⟨hrun, htask⟩, rfl⟩)

theorem preparePurgeTables_runs : (preparePurgeTables target db).runs =
    runIds db (preparePurgeTables target db).tasks := rfl

/-! What is left after the leaves have gone refers to no purged run; it refers to a purged task only
from an approval, and to a purged event only from another task. -/

theorem runsDangle_deleted {runEvents : List RunEventRow}
    (hrunEvents : after.mirror.runtime.runEvents =
      Table.delete (fun row => t.runs.contains row.runId) runEvents) :
    runsDangle t after = false := by
  unfold runsDangle
  rw [hrunEvents, List.any_eq_false]
  intro row hrow
  rw [(Table.mem_delete.mp hrow).2]
  exact Bool.false_ne_true

theorem tasksDangle_deleted (db : StorageDatabase) (htables : t.runs = runIds db t.tasks)
    (hruns : after.mirror.runtime.runs =
      Table.delete (fun row => t.runs.contains row.runId) db.mirror.runtime.runs)
    (houtbox : after.mirror.runtime.outbox =
      Table.delete (purgesOutbox t) db.mirror.runtime.outbox)
    (hcontrols : after.mirror.runtime.controls =
      Table.delete (purgesControl t) db.mirror.runtime.controls) :
    tasksDangle t after =
      after.mirror.runtime.approvals.any fun row => t.tasks.contains row.taskId := by
  have hkeptRuns : after.mirror.runtime.runs.any
      (fun row => t.tasks.contains row.taskId) = false := by
    rw [hruns, List.any_eq_false]
    intro run hrun htask
    obtain ⟨hrun, hkept⟩ := Table.mem_delete.mp hrun
    rw [htables, purged_run hrun htask] at hkept
    cases hkept
  have hkeptOutbox : after.mirror.runtime.outbox.any (purgesOutbox t) = false := by
    rw [houtbox, List.any_eq_false]
    intro row hrow
    rw [(Table.mem_delete.mp hrow).2]
    exact Bool.false_ne_true
  have hkeptControls : after.mirror.runtime.controls.any
      (fun row => t.tasks.contains row.targetTaskId) = false := by
    rw [hcontrols, List.any_eq_false]
    intro row hrow htask
    have hkept := (Table.mem_delete.mp hrow).2
    unfold purgesControl at hkept
    rw [htask, Bool.true_or] at hkept
    cases hkept
  unfold tasksDangle
  rw [hkeptRuns, hkeptOutbox, hkeptControls]
  rfl

theorem eventsDangle_deleted (db : StorageDatabase)
    (htasks : after.mirror.runtime.tasks =
      Table.delete (fun row => t.tasks.contains row.taskId) db.mirror.runtime.tasks)
    (hcontrols : after.mirror.runtime.controls =
      Table.delete (purgesControl t) db.mirror.runtime.controls) :
    eventsDangle t after = db.mirror.runtime.tasks.any fun row =>
      !t.tasks.contains row.taskId && row.eventPk.any t.events.contains := by
  have hkeptControls : after.mirror.runtime.controls.any
      (fun row => t.events.contains row.eventPk) = false := by
    rw [hcontrols, List.any_eq_false]
    intro row hrow hevent
    have hkept := (Table.mem_delete.mp hrow).2
    unfold purgesControl at hkept
    rw [hevent, Bool.or_true] at hkept
    cases hkept
  unfold eventsDangle
  rw [hkeptControls, Bool.or_false, htasks]
  unfold Table.delete
  rw [List.any_filter]

/-- The database after the statements of `_purge` on the runtime tables. -/
def purgedRuntime (t : PurgeTables) (db : StorageDatabase) : StorageDatabase :=
  deletePurgedEvents t (deletePurgedTasks t (deletePurgedRuns t (withoutGraphs (isPurgedGraph t)
    (deletePurgedLeaves t (deletePurgedCheckpoints (citesPurged t db) db)))))

/-- Where the constraints fail is read off the database before the purge. -/
theorem deletePurged_eq (hruns : t.runs = runIds db t.tasks) :
    deletePurged t db =
      if nodesDangle (isPurgedGraph t) db ||
          (db.mirror.runtime.approvals.any fun row => t.tasks.contains row.taskId) ||
          db.mirror.runtime.tasks.any fun row =>
            !t.tasks.contains row.taskId && row.eventPk.any t.events.contains then
        .error foreignKeyFailed
      else .ok (purgedRuntime t db) := by
  have hrunEvents : runsDangle t (deletePurgedRuns t (withoutGraphs (isPurgedGraph t)
      (deletePurgedLeaves t (deletePurgedCheckpoints (citesPurged t db) db)))) = false :=
    runsDangle_deleted rfl
  have htasks : tasksDangle t (deletePurgedTasks t (deletePurgedRuns t (withoutGraphs
      (isPurgedGraph t) (deletePurgedLeaves t (deletePurgedCheckpoints (citesPurged t db) db))))) =
        db.mirror.runtime.approvals.any fun row => t.tasks.contains row.taskId :=
    tasksDangle_deleted db hruns rfl rfl rfl
  have hevents : eventsDangle t (purgedRuntime t db) =
      db.mirror.runtime.tasks.any fun row =>
        !t.tasks.contains row.taskId && row.eventPk.any t.events.contains :=
    eventsDangle_deleted db rfl rfl
  have hnodes : nodesDangle (isPurgedGraph t)
      (deletePurgedLeaves t (deletePurgedCheckpoints (citesPurged t db) db)) =
        nodesDangle (isPurgedGraph t) db := rfl
  unfold purgedRuntime at hevents ⊢
  unfold deletePurged checked
  dsimp only
  rw [hnodes]
  cases nodesDangle (isPurgedGraph t) db with
  | true => rfl
  | false =>
      rw [if_neg Bool.false_ne_true, hrunEvents, if_neg Bool.false_ne_true]
      generalize deletePurgedRuns t _ = runless at htasks hevents ⊢
      change ((if tasksDangle t (deletePurgedTasks t runless) = true then
          Except.error foreignKeyFailed
        else Except.ok (deletePurgedTasks t runless)) >>= fun db =>
          if eventsDangle t (deletePurgedEvents t db) = true then Except.error foreignKeyFailed
          else Except.ok (deletePurgedEvents t db)) = _
      rw [htasks, Bool.false_or]
      cases db.mirror.runtime.approvals.any _ with
      | true => rfl
      | false =>
          rw [if_neg Bool.false_ne_true, Bool.false_or, ← hevents]
          rfl

/-- The database that a purge commits. -/
def purged (target : PurgeTarget) (db : StorageDatabase) : StorageDatabase :=
  let t := preparePurgeTables target db
  deleteOrphanSchedulerLanes (dropBlobMetadata
    (attachmentBlobIds (fun row => isPurgedMessage t target row.key.message) db.mirror)
    (deletePurgedMirror t target (purgedRuntime t db))).2

theorem purgeRows_of_purgeable (hpurgeable : Purgeable target db) :
    ∃ result, purgeRows target db = .ok (result, purged target db) := by
  have happrovals : (db.mirror.runtime.approvals.any fun row =>
      (preparePurgeTables target db).tasks.contains row.taskId) = false := by
    rw [List.any_eq_false]
    intro row hrow
    rw [hpurgeable.approvals row hrow]
    exact Bool.false_ne_true
  have htasks : (db.mirror.runtime.tasks.any fun row =>
      !(preparePurgeTables target db).tasks.contains row.taskId &&
        row.eventPk.any (preparePurgeTables target db).events.contains) = false := by
    rw [List.any_eq_false]
    intro row hrow hboth
    obtain ⟨hkept, hevent⟩ := Bool.and_eq_true_iff.mp hboth
    rw [hpurgeable.events row hrow (Bool.not_eq_true' _ ▸ hkept)] at hevent
    cases hevent
  have hdeleted : deletePurged (preparePurgeTables target db) db = _ :=
    deletePurged_eq preparePurgeTables_runs
  rw [hpurgeable.nodes, happrovals, htasks, if_neg (by decide)] at hdeleted
  refine ⟨(purgeCounts (preparePurgeTables target db) target db, (dropBlobMetadata
    (attachmentBlobIds (fun row => isPurgedMessage (preparePurgeTables target db) target
      row.key.message) db.mirror)
    (deletePurgedMirror (preparePurgeTables target db) target
      (purgedRuntime (preparePurgeTables target db) db))).1), ?_⟩
  unfold purgeRows
  rw [if_neg hpurgeable.named, hpurgeable.found]
  dsimp only
  rw [hdeleted]
  rfl

theorem purgeable_of_ok (hok : purgeRows target db = .ok (result, after)) :
    Purgeable target db := by
  unfold purgeRows at hok
  by_cases hnamed : (isBlank target.tenantKey || isBlank target.appId ||
      isBlank target.resourceId) = true
  · rw [if_pos hnamed] at hok
    cases hok
  rw [if_neg hnamed] at hok
  cases hfound : targetExists db target with
  | false =>
      rw [hfound] at hok
      cases hok
  | true =>
      rw [hfound, if_neg (by decide)] at hok
      dsimp only at hok
      rw [deletePurged_eq preparePurgeTables_runs] at hok
      split at hok
      · cases hok
      · rename_i hrefused
        rw [Bool.not_eq_true, Bool.or_eq_false_iff, Bool.or_eq_false_iff] at hrefused
        obtain ⟨⟨hnodes, happrovals⟩, hevents⟩ := hrefused
        refine ⟨hnamed, hfound, hnodes, fun row hrow => ?_, fun task htask hkept => ?_⟩
        · exact Bool.eq_false_iff.mpr (List.any_eq_false.mp happrovals row hrow)
        · have hnone := List.any_eq_false.mp hevents task htask
          rw [hkept] at hnone
          simpa using hnone

theorem withoutMessages_attachments {p : MessageRow → Bool} {q : AttachmentRow → Bool} :
    (withoutMessages p q db).mirror.attachments = Table.delete (fun row =>
      q row || db.mirror.messages.any fun message => message.key = row.key.message && p message)
      db.mirror.attachments := by
  unfold withoutMessages
  dsimp only
  apply Table.delete_congr
  intro row _
  rw [List.any_filter]
  simp only [Bool.and_comm]

/-- Which messages go with the chat of the target. -/
theorem goneChat_contains {key : ChatKey} {row : MessageRow} :
    ((db.mirror.chats.filter fun chat => chat.key = key).map ChatRow.key).contains row.chatKey =
      (decide (row.chatKey = key) && db.mirror.chats.any fun chat => chat.key = key) := by
  rw [Bool.eq_iff_iff, List.contains_iff_mem, List.mem_map, Bool.and_eq_true_iff, List.any_eq_true]
  constructor
  · rintro ⟨chat, hmem, hkey⟩
    obtain ⟨hmem, hthis⟩ := List.mem_filter.mp hmem
    have hthis : chat.key = key := of_decide_eq_true hthis
    exact ⟨decide_eq_true (hkey.symm.trans hthis), chat, hmem, decide_eq_true hthis⟩
  · rintro ⟨hrow, chat, hmem, hthis⟩
    exact ⟨chat, List.mem_filter.mpr ⟨hmem, hthis⟩,
      (of_decide_eq_true hthis).trans (of_decide_eq_true hrow).symm⟩

theorem messageGone_chat {key : ChatKey} {row : MessageRow} : messageGone t db (.chat key) row =
    (isPurgedMessage t (.chat key) row.key ||
      ((db.mirror.chats.filter fun chat => chat.key = key).map ChatRow.key).contains row.chatKey) :=
  congrArg _ goneChat_contains.symm

/-- The mirror after its statements. -/
theorem deletePurgedMirror_messages : (deletePurgedMirror t target db).mirror.messages =
    Table.delete (messageGone t db target) db.mirror.messages := by
  cases target with
  | message key =>
      refine Table.delete_congr fun row _ => ?_
      unfold messageGone
      rw [Bool.or_false]
  | chat key =>
      exact (Table.delete_delete _ _).trans
        (Table.delete_congr fun row _ => messageGone_chat.symm)

theorem deletePurgedMirror_attachments : (deletePurgedMirror t target db).mirror.attachments =
    Table.delete (attachmentGone t db target) db.mirror.attachments := by
  cases target with
  | message key =>
      refine withoutMessages_attachments.trans (Table.delete_congr fun row _ => ?_)
      unfold attachmentGone messageGone
      simp only [Bool.or_false]
  | chat key =>
      refine withoutMessages_attachments.trans ?_
      change Table.delete _ (withoutMessages _ _ db).mirror.attachments = _
      rw [withoutMessages_attachments, Table.delete_delete]
      refine Table.delete_congr fun row _ => ?_
      unfold attachmentGone
      rw [Bool.or_assoc]
      refine congrArg _ ?_
      change (_ || (false || (Table.delete _ db.mirror.messages).any _)) = _
      unfold Table.delete
      rw [Bool.false_or, List.any_filter, Bool.eq_iff_iff, Bool.or_eq_true, List.any_eq_true,
        List.any_eq_true, List.any_eq_true]
      constructor
      · rintro (⟨message, hmem, hboth⟩ | ⟨message, hmem, hboth⟩)
        · obtain ⟨hkey, hpurged⟩ := Bool.and_eq_true_iff.mp hboth
          refine ⟨message, hmem, ?_⟩
          rw [hkey, messageGone_chat, hpurged]
          rfl
        · obtain ⟨_, hboth⟩ := Bool.and_eq_true_iff.mp hboth
          obtain ⟨hkey, hchat⟩ := Bool.and_eq_true_iff.mp hboth
          refine ⟨message, hmem, ?_⟩
          rw [hkey, messageGone_chat]
          exact Bool.or_eq_true_iff.mpr (.inr hchat)
      · rintro ⟨message, hmem, hboth⟩
        obtain ⟨hkey, hgone⟩ := Bool.and_eq_true_iff.mp hboth
        cases hpurged : isPurgedMessage t (.chat key) message.key with
        | true => exact .inl ⟨message, hmem, Bool.and_eq_true_iff.mpr ⟨hkey, hpurged⟩⟩
        | false =>
            rw [messageGone_chat, hpurged, Bool.false_or] at hgone
            refine .inr ⟨message, hmem, ?_⟩
            dsimp only
            rw [hpurged, hkey]
            exact hgone

/-- A lane is left when a task that is left uses it. -/
theorem mem_orphanLanes (after : StorageDatabase) (tasks : List String)
    (htasks : after.mirror.runtime.tasks =
      Table.delete (fun row => tasks.contains row.taskId) db.mirror.runtime.tasks)
    (hlanes : after.mirror.runtime.lanes = db.mirror.runtime.lanes) {lane : LaneRow} :
    lane ∈ (deleteOrphanSchedulerLanes after).mirror.runtime.lanes ↔
      lane ∈ db.mirror.runtime.lanes ∧ (laneKinds.contains lane.scopeKind &&
        !db.mirror.runtime.tasks.any fun task =>
          !tasks.contains task.taskId && usesLane lane task) = false := by
  change lane ∈ Table.delete _ after.mirror.runtime.lanes ↔ _
  rw [Table.mem_delete, hlanes, htasks]
  unfold Table.delete
  rw [List.any_filter]

/-- What a purge leaves: every row that it does not select. -/
theorem has_purged (row : StoredRow) : (purged target db).Has row ↔
    db.Has row ∧ purges (preparePurgeTables target db) db target row = false := by
  cases row with
  | approval row => cases target <;> exact ⟨fun h => ⟨h, rfl⟩, And.left⟩
  | idempotency row => cases target <;> exact ⟨fun h => ⟨h, rfl⟩, And.left⟩
  | lane lane =>
      exact mem_orphanLanes _ (preparePurgeTables target db).tasks
        (by cases target <;> rfl) (by cases target <;> rfl)
  | chat row =>
      cases target with
      | message key => exact ⟨fun h => ⟨h, rfl⟩, And.left⟩
      | chat key => exact Table.mem_delete
  | message row =>
      change row ∈ (deletePurgedMirror _ target (purgedRuntime _ db)).mirror.messages ↔ _
      rw [deletePurgedMirror_messages]
      exact Table.mem_delete
  | attachment row =>
      change row ∈ (deletePurgedMirror _ target (purgedRuntime _ db)).mirror.attachments ↔ _
      rw [deletePurgedMirror_attachments]
      exact Table.mem_delete
  | fileBlob row =>
      have hattachments : (deletePurgedMirror (preparePurgeTables target db) target
          (purgedRuntime (preparePurgeTables target db) db)).mirror.attachments =
            Table.delete (attachmentGone (preparePurgeTables target db) db target)
              db.mirror.attachments := deletePurgedMirror_attachments
      refine mem_dropBlobMetadata hattachments ?_
      cases target <;> rfl
  | _ => cases target <;> exact Table.mem_delete

/-! ### A tenant -/

/-- The database that a purge of a tenant commits. -/
def purgedTenant (tenantKey : String) (db : StorageDatabase) : StorageDatabase :=
  deleteOrphanSchedulerLanes (dropBlobMetadata
    (attachmentBlobIds (fun row => row.key.message.tenantKey = tenantKey) db.mirror)
    (deleteTenant (prepareTenantPurgeTables tenantKey db) tenantKey db)).2

/-- Every task on an event of the tenant is selected. -/
theorem tenant_task_selected {task : TaskRow} (htask : task ∈ db.mirror.runtime.tasks)
    (hevent : task.eventPk.any (prepareTenantPurgeTables tenantKey db).events.contains = true) :
    (prepareTenantPurgeTables tenantKey db).tasks.contains task.taskId = true := by
  obtain ⟨pk, hpk, hlisted⟩ := (Option.any_eq_true _ _).mp hevent
  obtain ⟨event, hmem, rfl⟩ := List.mem_map.mp (List.contains_iff_mem.mp hlisted)
  obtain ⟨hmem, htenant⟩ := List.mem_filter.mp hmem
  refine List.contains_iff_mem.mpr (List.mem_map.mpr ⟨task, List.mem_filter.mpr ⟨htask, ?_⟩, rfl⟩)
  unfold tenantTask hasEvent
  rw [Bool.or_eq_true, List.any_eq_true]
  exact .inl ⟨event, hmem, by simpa [hpk] using htenant⟩

/-- Beyond the nodes of graphs, no constraint fails at the commit. -/
theorem tenant_references_kept :
    runsDangle (prepareTenantPurgeTables tenantKey db)
        (deleteTenant (prepareTenantPurgeTables tenantKey db) tenantKey db) = false ∧
      tasksDangle (prepareTenantPurgeTables tenantKey db)
        (deleteTenant (prepareTenantPurgeTables tenantKey db) tenantKey db) = false ∧
      eventsDangle (prepareTenantPurgeTables tenantKey db)
        (deleteTenant (prepareTenantPurgeTables tenantKey db) tenantKey db) = false := by
  refine ⟨runsDangle_deleted rfl, ?_, ?_⟩
  · rw [tasksDangle_deleted db rfl rfl rfl rfl, List.any_eq_false]
    intro row hrow htask
    have hkept : (prepareTenantPurgeTables tenantKey db).tasks.contains row.taskId = false :=
      (Table.mem_delete.mp hrow).2
    rw [htask] at hkept
    cases hkept
  · rw [eventsDangle_deleted db rfl rfl, List.any_eq_false]
    intro task htask hboth
    obtain ⟨hkept, hevent⟩ := Bool.and_eq_true_iff.mp hboth
    rw [tenant_task_selected htask hevent] at hkept
    cases hkept

theorem purgeTenantRows_of_purgeable (hpurgeable : TenantPurgeable tenantKey db) :
    ∃ result, purgeTenantRows tenantKey db = .ok (result, purgedTenant tenantKey db) := by
  refine ⟨(tenantCounts (prepareTenantPurgeTables tenantKey db) tenantKey db, (dropBlobMetadata
    (attachmentBlobIds (fun row => row.key.message.tenantKey = tenantKey) db.mirror)
    (deleteTenant (prepareTenantPurgeTables tenantKey db) tenantKey db)).1), ?_⟩
  obtain ⟨hruns, htasks, hevents⟩ := @tenant_references_kept db tenantKey
  unfold purgeTenantRows
  rw [hpurgeable.named, hpurgeable.found]
  dsimp only
  rw [if_neg (by decide), if_neg (by decide), if_neg (not_not.mpr hpurgeable.messages)]
  have hdangles : (nodesDangle (fun row => row.tenantKey = tenantKey) db ||
      runsDangle (prepareTenantPurgeTables tenantKey db)
        (deleteTenant (prepareTenantPurgeTables tenantKey db) tenantKey db) ||
      tasksDangle (prepareTenantPurgeTables tenantKey db)
        (deleteTenant (prepareTenantPurgeTables tenantKey db) tenantKey db) ||
      eventsDangle (prepareTenantPurgeTables tenantKey db)
        (deleteTenant (prepareTenantPurgeTables tenantKey db) tenantKey db)) = false := by
    rw [hpurgeable.nodes, hruns, htasks, hevents]
    rfl
  exact if_neg fun hfails => Bool.false_ne_true (hdangles.symm.trans hfails)

theorem tenantPurgeable_of_ok (hok : purgeTenantRows tenantKey db = .ok (result, after)) :
    TenantPurgeable tenantKey db := by
  unfold purgeTenantRows at hok
  cases hnamed : isBlank tenantKey with
  | true =>
      rw [hnamed] at hok
      cases hok
  | false =>
      rw [hnamed, if_neg (by decide)] at hok
      cases hfound : tenantExists db tenantKey with
      | false =>
          rw [hfound] at hok
          cases hok
      | true =>
          rw [hfound, if_neg (by decide)] at hok
          dsimp only at hok
          by_cases hmessages : (prepareTenantPurgeTables tenantKey db).messages.Nodup
          · rw [if_neg (not_not.mpr hmessages)] at hok
            refine ⟨hnamed, hfound, hmessages, ?_⟩
            cases hnodes : nodesDangle (fun row => row.tenantKey = tenantKey) db with
            | false => rfl
            | true =>
                rw [hnodes] at hok
                cases hok
          · rw [if_pos hmessages] at hok
            cases hok

/-- A chat of the tenant has messages of the tenant only. -/
theorem goneTenantChat {row : MessageRow}
    (hgone : ((db.mirror.chats.filter fun chat => chat.key.tenantKey = tenantKey).map
      ChatRow.key).contains row.chatKey = true) : row.key.tenantKey = tenantKey := by
  obtain ⟨chat, hmem, hkey⟩ := List.mem_map.mp (List.contains_iff_mem.mp hgone)
  have htenant : chat.key.tenantKey = tenantKey := of_decide_eq_true (List.mem_filter.mp hmem).2
  rw [hkey] at htenant
  exact htenant

theorem deleteTenant_messages : (deleteTenant t tenantKey db).mirror.messages =
    Table.delete (fun row => row.key.tenantKey = tenantKey) db.mirror.messages := by
  refine (Table.delete_delete _ _).trans (Table.delete_congr fun row _ => ?_)
  rw [Bool.eq_iff_iff, Bool.or_eq_true, decide_eq_true_iff]
  exact ⟨fun h => h.elim id goneTenantChat, .inl⟩

theorem deleteTenant_attachments : (deleteTenant t tenantKey db).mirror.attachments =
    Table.delete (fun row => row.key.message.tenantKey = tenantKey) db.mirror.attachments := by
  refine withoutMessages_attachments.trans ?_
  change Table.delete _ (withoutMessages _ _ _).mirror.attachments = _
  rw [withoutMessages_attachments, Table.delete_delete]
  refine Table.delete_congr fun row _ => ?_
  have howner {message : MessageRow} (hkey : message.key = row.key.message)
      (htenant : message.key.tenantKey = tenantKey) : row.key.message.tenantKey = tenantKey :=
    hkey ▸ htenant
  rw [Bool.eq_iff_iff, Bool.or_eq_true, Bool.or_eq_true, Bool.or_eq_true, decide_eq_true_iff,
    List.any_eq_true, List.any_eq_true]
  constructor
  · rintro ((htenant | ⟨message, _, hboth⟩) | (hfalse | ⟨message, _, hboth⟩))
    · exact htenant
    · obtain ⟨hkey, htenant⟩ := Bool.and_eq_true_iff.mp hboth
      exact howner (of_decide_eq_true hkey) (of_decide_eq_true htenant)
    · cases hfalse
    · obtain ⟨hkey, hgone⟩ := Bool.and_eq_true_iff.mp hboth
      exact howner (of_decide_eq_true hkey) (goneTenantChat hgone)
  · exact fun htenant => .inl (.inl htenant)

/-- What the purge of a tenant leaves. -/
theorem has_purgedTenant (row : StoredRow) : (purgedTenant tenantKey db).Has row ↔
    db.Has row ∧ purgesTenant (prepareTenantPurgeTables tenantKey db) db tenantKey row = false := by
  cases row with
  | lane lane =>
      exact mem_orphanLanes _ (prepareTenantPurgeTables tenantKey db).tasks (by rfl) (by rfl)
  | message row =>
      change row ∈ (deleteTenant _ tenantKey db).mirror.messages ↔ _
      rw [deleteTenant_messages]
      exact Table.mem_delete
  | attachment row =>
      change row ∈ (deleteTenant _ tenantKey db).mirror.attachments ↔ _
      rw [deleteTenant_attachments]
      exact Table.mem_delete
  | fileBlob row => exact mem_dropBlobMetadata deleteTenant_attachments rfl
  | _ => exact Table.mem_delete

end Specification

end StorageMaintenance

end Codex2Lark
