import Codex2Lark.Im.Convergence
import Codex2Lark.Storage.PurgeTargets

/-!
Which rows the writes for one message, chat or tenant touch. Tasks and claims are found by `LIKE`
patterns over joined identifiers and checkpoints by references without a tenant; everything else by
the columns that the rows have. A write keeps to its target when these searches do.
-/

namespace Codex2Lark

open Lib Idempotency IMRepository StorageMaintenance

inductive TargetedOp where
  | upsertMessage (message : MirroredMessage)
  | invalidateMessage (args : Invalidation)
  | revokeChatAccess (chat : ChatKey) (nowMs : Int)
  | purgeMessage (key : MessageKey)
  | purgeChat (key : ChatKey)
  | purgeTenant (tenantKey : String)

namespace TargetedOp

def apply (dir : DataDirectory) : TargetedOp → DataDirectory
  | upsertMessage message => { dir with db := dir.db.mirrored (.message (.upsert message)) }
  | invalidateMessage args => { dir with db := dir.db.mirrored (.message (.invalidate args)) }
  | revokeChatAccess chat nowMs => { dir with db := dir.db.mirrored (.revoke chat nowMs) }
  | purgeMessage key => (StorageMaintenance.purgeMessage key dir).2
  | purgeChat key => (StorageMaintenance.purgeChat key dir).2
  | purgeTenant tenantKey => (StorageMaintenance.purgeTenant tenantKey dir).2

def scope : TargetedOp → DataScope
  | upsertMessage message => .message message.key
  | invalidateMessage args => .message args.key
  | revokeChatAccess chat _ => .chat chat
  | purgeMessage key => .message key
  | purgeChat key => .chat key
  | purgeTenant tenantKey => .tenant tenantKey

/-- The chat that a write for a message names. -/
def namedChat : TargetedOp → Option ChatKey
  | upsertMessage message => some message.chatKey
  | invalidateMessage args => some args.chat
  | _ => none

/-- The rows that the write is for. -/
def targets (db : StorageDatabase) (op : TargetedOp) : StoredRow → Bool
  | .chat row => ownsChat op.scope row || op.namedChat = some row.key
  | row => owns db op.scope row

/-- No row of another target is written, deleted or added. -/
def OnlyTarget (dir : DataDirectory) (op : TargetedOp) : Prop :=
  ∀ row, op.targets dir.db row = false → ((op.apply dir).db.Has row ↔ dir.db.Has row)

/-- The upsert replaces an older version. -/
def replacesVersion (db : MirrorDatabase) (message : MirroredMessage) : Bool :=
  !isRevoked db message.chatKey &&
    ((findMessage db message.key).any fun row => row.updatedAtSourceMs < message.sourceVersionMs) &&
    decide (message.attachments.map AttachmentReference.resourceKey).Nodup

/-- The invalidation is not older than the stored version. -/
def isCurrent (db : MirrorDatabase) (args : Invalidation) : Bool :=
  !(findMessage db args.key).any fun row => row.updatedAtSourceMs > args.sourceVersionMs

/-- Whatever checkpoint has a source with such a reference belongs to the target. -/
def SourcesOwn (db : StorageDatabase) (scope : DataScope) (refers : String → Bool) : Prop :=
  ∀ source ∈ db.mirror.runtime.checkpointSources, refers source.sourceRef = true →
    ownsCheckpoint db scope source.runId = true

/-- Whatever task is found belongs to the target. -/
def TasksOwn (db : StorageDatabase) (scope : DataScope) (finds : TaskRow → Bool) : Prop :=
  ∀ task ∈ db.mirror.runtime.tasks, finds task = true → ownsTaskId db scope task.taskId = true

/-- The searches of the write find the target only, unless it is refused or ignored anyway. -/
def FindsOwn (db : StorageDatabase) : TargetedOp → Prop
  | upsertMessage message => replacesVersion db.mirror message = true →
      SourcesOwn db (.message message.key) (refersTo message.messageId)
  | invalidateMessage args => isCurrent db.mirror args = true →
      SourcesOwn db (.message args.key) (refersTo args.messageId)
  | revokeChatAccess chat _ =>
      TasksOwn db (.chat chat) (isCancelled chat) ∧
        SourcesOwn db (.chat chat) fun sourceRef => db.mirror.messages.any fun row =>
          row.chatKey = chat && sourceRef = messageRef row.key.messageId
  | purgeMessage key => Purgeable (.message key) db →
      SourcesOwn db (.message key) (refersTo key.messageId)
  | purgeChat key => Purgeable (.chat key) db →
      TasksOwn db (.chat key) (inChatSession key) ∧
        SourcesOwn db (.chat key) fun sourceRef => db.mirror.messages.any fun row =>
          row.chatKey = key && refersTo row.key.messageId sourceRef
  | purgeTenant tenantKey => TenantPurgeable tenantKey db →
      TasksOwn db (.tenant tenantKey) (tenantTask db tenantKey) ∧
        ∀ claim ∈ db.idempotency,
          purgesClaim (prepareTenantPurgeTables tenantKey db) claim = true →
            ownsClaim db (.tenant tenantKey) claim = true

/-! ### The purges -/

variable {db after : StorageDatabase} {scope : DataScope} {t : PurgeTables} {target : PurgeTarget}
  {tenantKey : String}

theorem runs_own (htasks : ∀ taskId, t.tasks.contains taskId = true →
      ownsTaskId db scope taskId = true) (htables : t.runs = runIds db t.tasks) {runId : String}
    (hrun : t.runs.contains runId = true) : ownsRunId db scope runId = true := by
  rw [htables] at hrun
  obtain ⟨run, hmem, rfl⟩ := List.mem_map.mp (List.contains_iff_mem.mp hrun)
  obtain ⟨hmem, htask⟩ := List.mem_filter.mp hmem
  refine List.any_eq_true.mpr ⟨run, hmem, ?_⟩
  rw [htasks _ htask]
  simp

theorem graph_own {p : GraphRow → Bool}
    (hgraphs : ∀ graph ∈ db.agents.graphs, p graph = true → ownsGraph db scope graph = true)
    {graphId : String} (hgone : graphGone db p graphId = true) :
    ownsGraphId db scope graphId = true := by
  obtain ⟨graph, hmem, rfl⟩ := List.mem_map.mp (List.contains_iff_mem.mp hgone)
  obtain ⟨hmem, hp⟩ := List.mem_filter.mp hmem
  refine List.any_eq_true.mpr ⟨graph, hmem, ?_⟩
  rw [hgraphs graph hmem hp]
  simp

theorem purgesRuntime_own {p : GraphRow → Bool}
    (htasks : ∀ taskId, t.tasks.contains taskId = true → ownsTaskId db scope taskId = true)
    (htables : t.runs = runIds db t.tasks)
    (hevents : ∀ eventPk, t.events.contains eventPk = true → ownsEventPk db scope eventPk = true)
    (hgraphs : ∀ graph ∈ db.agents.graphs, p graph = true → ownsGraph db scope graph = true)
    {row : StoredRow} (hhas : db.Has row) (hpurged : purgesRuntime t db p row = true) :
    owns db scope row = true := by
  cases row with
  | event row => exact hevents _ hpurged
  | task row => exact htasks _ hpurged
  | run row => exact runs_own htasks htables hpurged
  | runEvent row => exact runs_own htasks htables hpurged
  | control row =>
      change (ownsTaskId db scope _ || ownsEventPk db scope _) = true
      rcases Bool.or_eq_true_iff.mp hpurged with htask | hevent
      · rw [htasks _ htask, Bool.true_or]
      · rw [hevents _ hevent, Bool.or_true]
  | outbox row =>
      obtain ⟨taskId, htaskId, hlisted⟩ := (Option.any_eq_true _ _).mp hpurged
      refine (Option.any_eq_true _ _).mpr ⟨taskId, htaskId, ?_⟩
      rw [htasks _ hlisted, Bool.true_or]
  | lane lane =>
      obtain ⟨hkind, hunused⟩ := Bool.and_eq_true_iff.mp hpurged
      change (laneKinds.contains lane.scopeKind && !_) = true
      rw [hkind, Bool.true_and, Bool.not_eq_true', List.any_eq_false]
      rw [Bool.not_eq_true', List.any_eq_false] at hunused
      intro task htask hboth
      obtain ⟨huses, hforeign⟩ := Bool.and_eq_true_iff.mp hboth
      have hlisted : t.tasks.contains task.taskId = true := by
        by_contra hkept
        rw [Bool.not_eq_true] at hkept
        refine hunused task htask ?_
        rw [hkept, huses]
        rfl
      rw [htasks _ hlisted] at hforeign
      cases hforeign
  | graph row => exact hgraphs row hhas hpurged
  | node row => exact graph_own hgraphs hpurged
  | edge row => exact graph_own hgraphs hpurged
  | ledger row => exact graph_own hgraphs hpurged
  | lock row => exact graph_own hgraphs hpurged
  | artifact row => exact graph_own hgraphs hpurged
  | mail row => exact graph_own hgraphs hpurged
  | agentCheckpoint row => exact graph_own hgraphs hpurged
  | _ => cases hpurged

/-- A blob that goes is named by attachments of the target only. -/
theorem blobGone_own {isTarget isGone : AttachmentRow → Bool}
    (hgone : ∀ row ∈ db.mirror.attachments, isGone row = true →
      ownsMessageKey db scope row.key.message = true)
    {blobId : String} (hpurged : blobGone db isTarget isGone blobId = true) :
    ownsBlob db scope blobId = true := by
  obtain ⟨hnamed, hunnamed⟩ := Bool.and_eq_true_iff.mp hpurged
  rw [Bool.not_eq_true', List.any_eq_false] at hunnamed
  have hdeleted {row : AttachmentRow} (hrow : row ∈ db.mirror.attachments)
      (hblob : decide (row.blobId = some blobId) = true) : isGone row = true := by
    by_contra hkept
    rw [Bool.not_eq_true] at hkept
    exact hunnamed row hrow (by rw [hkept, hblob]; rfl)
  obtain ⟨row, hmem, hboth⟩ := List.any_eq_true.mp hnamed
  obtain ⟨_, hblob⟩ := Bool.and_eq_true_iff.mp hboth
  refine Bool.and_eq_true_iff.mpr ⟨List.any_eq_true.mpr ⟨row, hmem, ?_⟩, ?_⟩
  · rw [hblob, hgone row hmem (hdeleted hmem hblob)]
    rfl
  · rw [Bool.not_eq_true', List.any_eq_false]
    intro other hother hforeign
    obtain ⟨hblob, hforeign⟩ := Bool.and_eq_true_iff.mp hforeign
    rw [hgone other hother (hdeleted hother hblob)] at hforeign
    cases hforeign

theorem taskIds_own {finds : TaskRow → Bool} (htasks : TasksOwn db scope finds) {taskId : String}
    (hlisted : (taskIds db finds).contains taskId = true) : ownsTaskId db scope taskId = true := by
  obtain ⟨task, hmem, rfl⟩ := List.mem_map.mp (List.contains_iff_mem.mp hlisted)
  obtain ⟨hmem, hfound⟩ := List.mem_filter.mp hmem
  exact htasks task hmem hfound

theorem isPurgedMessage_own {key : MessageKey}
    (hpurged : isPurgedMessage (preparePurgeTables target db) target key = true) :
    ownsMessageKey db target.scope key = true := by
  obtain ⟨hboth, hlisted⟩ := Bool.and_eq_true_iff.mp hpurged
  obtain ⟨htenant, happ⟩ := Bool.and_eq_true_iff.mp hboth
  have htenant : key.tenantKey = target.tenantKey := of_decide_eq_true htenant
  have happ : key.appId = target.appId := of_decide_eq_true happ
  cases target with
  | message this =>
      have hmessage : key.messageId = this.messageId :=
        List.mem_singleton.mp (List.contains_iff_mem.mp hlisted)
      obtain ⟨tenantKey, appId, messageId⟩ := key
      cases htenant
      cases happ
      cases hmessage
      exact decide_eq_true rfl
  | chat this =>
      obtain ⟨message, hmem, hmessage⟩ := List.mem_map.mp (List.contains_iff_mem.mp hlisted)
      obtain ⟨hmem, hchat⟩ := List.mem_filter.mp hmem
      have hchat : message.chatKey = this := of_decide_eq_true hchat
      refine List.any_eq_true.mpr ⟨message, hmem, ?_⟩
      have hkey : message.key = key := by
        have htenant' : message.key.tenantKey = this.tenantKey := congrArg ChatKey.tenantKey hchat
        have happ' : message.key.appId = this.appId := congrArg ChatKey.appId hchat
        obtain ⟨⟨_, _, _⟩⟩ := message
        obtain ⟨_, _, _⟩ := key
        cases htenant.trans htenant'.symm
        cases happ.trans happ'.symm
        cases hmessage
        rfl
      rw [decide_eq_true hkey, decide_eq_true hchat]
      rfl

theorem messageGone_own {row : MessageRow} (hrow : row ∈ db.mirror.messages)
    (hgone : messageGone (preparePurgeTables target db) db target row = true) :
    ownsMessageKey db target.scope row.key = true := by
  rcases Bool.or_eq_true_iff.mp hgone with hpurged | hchat
  · exact isPurgedMessage_own hpurged
  · cases target with
    | message key => cases hchat
    | chat key =>
        obtain ⟨hchat, _⟩ := Bool.and_eq_true_iff.mp hchat
        exact List.any_eq_true.mpr ⟨row, hrow, by rw [hchat, decide_eq_true rfl]; rfl⟩

theorem attachmentGone_own {row : AttachmentRow}
    (hgone : attachmentGone (preparePurgeTables target db) db target row = true) :
    ownsMessageKey db target.scope row.key.message = true := by
  rcases Bool.or_eq_true_iff.mp hgone with hpurged | hmessage
  · exact isPurgedMessage_own hpurged
  · obtain ⟨message, hmem, hboth⟩ := List.any_eq_true.mp hmessage
    obtain ⟨hkey, hgone⟩ := Bool.and_eq_true_iff.mp hboth
    exact (of_decide_eq_true hkey : message.key = row.key.message) ▸ messageGone_own hmem hgone

theorem events_own (htasks : TasksOwn db target.scope (purgeTask db target)) {eventPk : Nat}
    (hlisted : (preparePurgeTables target db).events.contains eventPk = true) :
    ownsEventPk db target.scope eventPk = true := by
  rcases List.mem_append.mp (List.contains_iff_mem.mp hlisted) with hevent | hchat
  · obtain ⟨task, hmem, hpk⟩ := List.mem_filterMap.mp hevent
    obtain ⟨hmem, hselected⟩ := List.mem_filter.mp hmem
    have hown : (db.mirror.runtime.tasks.any fun task =>
        task.eventPk = some eventPk && ownsTaskId db target.scope task.taskId) = true :=
      List.any_eq_true.mpr ⟨task, hmem, by rw [hpk, taskIds_own htasks hselected]; simp⟩
    unfold ownsEventPk
    rw [hown, Bool.or_true, Bool.true_or]
  · cases target with
    | message key => cases hchat
    | chat key =>
        obtain ⟨event, hmem, rfl⟩ := List.mem_map.mp hchat
        obtain ⟨hmem, hevent⟩ := List.mem_filter.mp hmem
        have hown : eventIs db (isScopeEvent db (.chat key)) event.eventPk = true :=
          List.any_eq_true.mpr ⟨event, hmem, by simp [isScopeEvent, hevent]⟩
        change ownsEventPk db (.chat key) event.eventPk = true
        unfold ownsEventPk
        rw [hown, Bool.true_or, Bool.true_or]

/-- What a purge deletes belongs to the target when its searches keep to it. -/
theorem purges_own (htasks : TasksOwn db target.scope (purgeTask db target))
    (hsources : SourcesOwn db target.scope fun sourceRef =>
      (preparePurgeTables target db).messages.any fun messageId => refersTo messageId sourceRef)
    {row : StoredRow} (hhas : db.Has row)
    (hpurged : purges (preparePurgeTables target db) db target row = true) :
    owns db target.scope row = true := by
  have hcheckpoint {runId : String}
      (hcited : citesPurged (preparePurgeTables target db) db runId = true) :
      ownsCheckpoint db target.scope runId = true := by
    rcases Bool.or_eq_true_iff.mp hcited with hrun | hsource
    · unfold ownsCheckpoint
      rw [runs_own (fun _ => taskIds_own htasks) preparePurgeTables_runs hrun, Bool.true_or]
    · obtain ⟨source, hmem, hboth⟩ := List.any_eq_true.mp hsource
      obtain ⟨hrun, hrefers⟩ := Bool.and_eq_true_iff.mp hboth
      exact (of_decide_eq_true hrun : source.runId = runId) ▸ hsources source hmem hrefers
  have hruntime (hgone : purgesRuntime (preparePurgeTables target db) db
      (isPurgedGraph (preparePurgeTables target db)) row = true) :
      owns db target.scope row = true := by
    refine purgesRuntime_own (fun _ => taskIds_own htasks) preparePurgeTables_runs
      (fun _ => events_own htasks) ?_ hhas hgone
    intro graph _ hroot
    have hroot := runs_own (fun _ => taskIds_own htasks) preparePurgeTables_runs hroot
    cases target <;> exact hroot
  cases row with
  | checkpoint row => exact hcheckpoint hpurged
  | checkpointSource row => exact hcheckpoint hpurged
  | chat row =>
      cases target with
      | message key => cases hpurged
      | chat key => exact hpurged
  | message row => exact messageGone_own hhas hpurged
  | attachment row => exact attachmentGone_own hpurged
  | fileBlob row =>
      exact blobGone_own (fun _ _ => attachmentGone_own) hpurged
  | _ => exact hruntime hpurged

theorem purgesTenant_own (htasks : TasksOwn db (.tenant tenantKey) (tenantTask db tenantKey))
    (hclaims : ∀ claim ∈ db.idempotency,
      purgesClaim (prepareTenantPurgeTables tenantKey db) claim = true →
        ownsClaim db (.tenant tenantKey) claim = true)
    {row : StoredRow} (hhas : db.Has row)
    (hpurged : purgesTenant (prepareTenantPurgeTables tenantKey db) db tenantKey row = true) :
    owns db (.tenant tenantKey) row = true := by
  have hcheckpoint {runId : String}
      (hrun : (prepareTenantPurgeTables tenantKey db).runs.contains runId = true) :
      ownsCheckpoint db (.tenant tenantKey) runId = true := by
    unfold ownsCheckpoint
    rw [runs_own (fun _ => taskIds_own htasks) rfl hrun, Bool.true_or]
  have hevents {eventPk : Nat}
      (hlisted : (prepareTenantPurgeTables tenantKey db).events.contains eventPk = true) :
      ownsEventPk db (.tenant tenantKey) eventPk = true := by
    obtain ⟨event, hmem, rfl⟩ := List.mem_map.mp (List.contains_iff_mem.mp hlisted)
    obtain ⟨hmem, htenant⟩ := List.mem_filter.mp hmem
    have hown : eventIs db (isScopeEvent db (.tenant tenantKey)) event.eventPk = true :=
      List.any_eq_true.mpr ⟨event, hmem, by rw [decide_eq_true rfl]; exact htenant⟩
    unfold ownsEventPk
    rw [hown, Bool.true_or, Bool.true_or]
  have hruntime (hgone : purgesRuntime (prepareTenantPurgeTables tenantKey db) db
      (fun row => row.tenantKey = tenantKey) row = true) :
      owns db (.tenant tenantKey) row = true :=
    purgesRuntime_own (fun _ => taskIds_own htasks) rfl (fun _ => hevents) (fun _ _ h => h) hhas hgone
  cases row with
  | approval row => exact taskIds_own htasks hpurged
  | checkpoint row => exact hcheckpoint hpurged
  | checkpointSource row => exact hcheckpoint hpurged
  | idempotency row => exact hclaims row hhas hpurged
  | chat row => exact hpurged
  | message row => exact hpurged
  | attachment row => exact hpurged
  | fileBlob row => exact blobGone_own (fun _ _ h => h) hpurged
  | _ => exact hruntime hpurged

theorem purge_db_of_purgeable {dir : DataDirectory} (hpurgeable : Purgeable target dir.db) :
    (purge target dir).2.db = purged target dir.db := by
  obtain ⟨result, hok⟩ := purgeRows_of_purgeable hpurgeable
  unfold purge
  rw [hok]
  rfl

theorem purge_db_of_refused {dir : DataDirectory} (hrefused : ¬ Purgeable target dir.db) :
    (purge target dir).2.db = dir.db := by
  unfold purge
  cases hresult : purgeRows target dir.db with
  | error e => rfl
  | ok result => exact absurd (purgeable_of_ok hresult) hrefused

theorem purgeTenant_db_of_purgeable {dir : DataDirectory}
    (hpurgeable : TenantPurgeable tenantKey dir.db) :
    (StorageMaintenance.purgeTenant tenantKey dir).2.db = purgedTenant tenantKey dir.db := by
  obtain ⟨result, hok⟩ := purgeTenantRows_of_purgeable hpurgeable
  unfold StorageMaintenance.purgeTenant
  rw [hok]
  rfl

theorem purgeTenant_db_of_refused {dir : DataDirectory}
    (hrefused : ¬ TenantPurgeable tenantKey dir.db) :
    (StorageMaintenance.purgeTenant tenantKey dir).2.db = dir.db := by
  unfold StorageMaintenance.purgeTenant
  cases hresult : purgeTenantRows tenantKey dir.db with
  | error e => rfl
  | ok result => exact absurd (tenantPurgeable_of_ok hresult) hrefused

/-- A purge keeps to the target when what it selects belongs to it. -/
theorem frame_iff_of_deletes {selects isOwn : StoredRow → Bool}
    (hhas : ∀ row, after.Has row ↔ db.Has row ∧ selects row = false) :
    (∀ row, isOwn row = false → (after.Has row ↔ db.Has row)) ↔
      ∀ row, db.Has row → selects row = true → isOwn row = true := by
  constructor
  · intro hframe row hrow hselected
    by_contra hforeign
    rw [Bool.not_eq_true] at hforeign
    have hkept := ((hhas row).mp ((hframe row hforeign).mpr hrow)).2
    rw [hselected] at hkept
    cases hkept
  · intro howns row hforeign
    refine (hhas row).trans (and_iff_left_of_imp fun hrow => ?_)
    by_contra hselected
    rw [Bool.not_eq_false] at hselected
    rw [howns row hrow hselected] at hforeign
    cases hforeign

theorem purges_own_iff :
    (∀ row, db.Has row → purges (preparePurgeTables target db) db target row = true →
        owns db target.scope row = true) ↔
      TasksOwn db target.scope (purgeTask db target) ∧
        SourcesOwn db target.scope fun sourceRef =>
          (preparePurgeTables target db).messages.any fun messageId =>
            refersTo messageId sourceRef := by
  constructor
  · intro howns
    constructor
    · intro task htask hfound
      exact howns (.task task) htask (List.contains_iff_mem.mpr
        (List.mem_map.mpr ⟨task, List.mem_filter.mpr ⟨htask, hfound⟩, rfl⟩))
    · intro source hsource hrefers
      refine howns (.checkpointSource source) hsource (Bool.or_eq_true_iff.mpr (.inr ?_))
      exact List.any_eq_true.mpr ⟨source, hsource, by rw [decide_eq_true rfl]; exact hrefers⟩
  · rintro ⟨htasks, hsources⟩ row hhas hpurged
    exact purges_own htasks hsources hhas hpurged

theorem purgesTenant_own_iff :
    (∀ row, db.Has row →
        purgesTenant (prepareTenantPurgeTables tenantKey db) db tenantKey row = true →
          owns db (.tenant tenantKey) row = true) ↔
      TasksOwn db (.tenant tenantKey) (tenantTask db tenantKey) ∧
        ∀ claim ∈ db.idempotency,
          purgesClaim (prepareTenantPurgeTables tenantKey db) claim = true →
            ownsClaim db (.tenant tenantKey) claim = true := by
  constructor
  · intro howns
    constructor
    · intro task htask hfound
      exact howns (.task task) htask (List.contains_iff_mem.mpr
        (List.mem_map.mpr ⟨task, List.mem_filter.mpr ⟨htask, hfound⟩, rfl⟩))
    · exact fun claim hclaim hfound => howns (.idempotency claim) hclaim hfound
  · rintro ⟨htasks, hclaims⟩ row hhas hpurged
    exact purgesTenant_own htasks hclaims hhas hpurged

/-! ### The writes of the mirror -/

/-- What a write of the mirror does to the runtime tables. -/
def writeRuntime (refers : String → Bool) (cancels : TaskRow → Bool) (nowMs : Int)
    (runtime : Database) : Database :=
  { deleteCheckpoints refers runtime with
    tasks := Table.update cancels
      (fun task => { task with state := .cancelled, updatedAtMs := nowMs }) runtime.tasks }

theorem writeRuntime_nothing (nowMs : Int) (runtime : Database) :
    writeRuntime (fun _ => false) (fun _ => false) nowMs runtime = runtime := by
  have hkept {ρ : Type} (rows : List ρ) : Table.delete (fun _ => false) rows = rows :=
    List.filter_true rows
  have htasks : Table.update (fun _ => false)
      (fun task : TaskRow => { task with state := .cancelled, updatedAtMs := nowMs })
      runtime.tasks = runtime.tasks := Table.update_eq_self fun _ _ => rfl
  unfold writeRuntime deleteCheckpoints
  rw [htasks, List.filter_false]
  exact congrArg₂ (fun checkpoints checkpointSources =>
    { runtime with checkpoints, checkpointSources }) (hkept _) (hkept _)

theorem writeRuntime_checkpoints (refers : String → Bool) (nowMs : Int) (runtime : Database) :
    writeRuntime refers (fun _ => false) nowMs runtime = deleteCheckpoints refers runtime := by
  have htasks : Table.update (fun _ => false)
      (fun task : TaskRow => { task with state := .cancelled, updatedAtMs := nowMs })
      runtime.tasks = runtime.tasks := Table.update_eq_self fun _ _ => rfl
  unfold writeRuntime
  rw [htasks]
  rfl

theorem deleteCheckpoints_run {refers : String → Bool} {runtime : Database} {runId : String} :
    ((runtime.checkpointSources.filter fun row => refers row.sourceRef).map
        CheckpointSourceRow.runId).contains runId = true ↔
      ∃ source ∈ runtime.checkpointSources, source.runId = runId ∧
        refers source.sourceRef = true := by
  rw [List.contains_iff_mem, List.mem_map]
  constructor
  · rintro ⟨source, hmem, hrun⟩
    obtain ⟨hmem, hrefers⟩ := List.mem_filter.mp hmem
    exact ⟨source, hmem, hrun, hrefers⟩
  · rintro ⟨source, hmem, hrun, hrefers⟩
    exact ⟨source, List.mem_filter.mpr ⟨hmem, hrefers⟩, hrun⟩

/-- Beside its own rows of the mirror, a write changes the tasks and the checkpoints it finds. -/
theorem mirror_frame_iff (db : StorageDatabase) (op : TargetedOp) {refers : String → Bool} {cancels : TaskRow → Bool}
    {nowMs : Int} (hoff : ∀ task : TaskRow,
      cancels { task with state := .cancelled, updatedAtMs := nowMs } = false)
    {mirror : MirrorDatabase} (hruntime : mirror.runtime =
      writeRuntime refers cancels nowMs db.mirror.runtime)
    (hchats : ∀ row, op.targets db (.chat row) = false →
      (row ∈ mirror.chats ↔ row ∈ db.mirror.chats))
    (hmessages : ∀ row, op.targets db (.message row) = false →
      (row ∈ mirror.messages ↔ row ∈ db.mirror.messages))
    (hattachments : ∀ row, op.targets db (.attachment row) = false →
      (row ∈ mirror.attachments ↔ row ∈ db.mirror.attachments))
    (hblobs : ∀ row, op.targets db (.fileBlob row) = false →
      (row ∈ mirror.fileBlobs ↔ row ∈ db.mirror.fileBlobs)) :
    (∀ row, op.targets db row = false → (({ db with mirror } : StorageDatabase).Has row ↔ db.Has row)) ↔
      TasksOwn db op.scope cancels ∧ SourcesOwn db op.scope refers := by
  constructor
  · intro hframe
    constructor
    · intro task htask hcancels
      by_contra hforeign
      have hkept : task ∈ mirror.runtime.tasks :=
        (hframe (.task task) (Bool.eq_false_iff.mpr hforeign)).mpr htask
      rw [hruntime] at hkept
      obtain ⟨_, hnot⟩ | ⟨old, _, _, rfl⟩ := Table.mem_update_cases hkept
      · rw [hcancels] at hnot
        cases hnot
      · rw [hoff] at hcancels
        cases hcancels
    · intro source hsource hrefers
      by_contra hforeign
      have hkept : source ∈ mirror.runtime.checkpointSources :=
        (hframe (.checkpointSource source) (Bool.eq_false_iff.mpr hforeign)).mpr hsource
      rw [hruntime] at hkept
      have hgone := (Table.mem_delete.mp hkept).2
      rw [deleteCheckpoints_run.mpr ⟨source, hsource, rfl, hrefers⟩] at hgone
      cases hgone
  · rintro ⟨htasks, hsources⟩ row hforeign
    have hkeptRun {runId : String} (hrow : ownsCheckpoint db op.scope runId = false) :
        ((db.mirror.runtime.checkpointSources.filter fun row => refers row.sourceRef).map
          CheckpointSourceRow.runId).contains runId = false := by
      rw [← Bool.not_eq_true, deleteCheckpoints_run]
      rintro ⟨source, hsource, rfl, hrefers⟩
      rw [hsources source hsource hrefers] at hrow
      cases hrow
    cases row with
    | task task =>
        change task ∈ mirror.runtime.tasks ↔ task ∈ db.mirror.runtime.tasks
        rw [hruntime]
        constructor
        · intro hmem
          obtain ⟨hold, _⟩ | ⟨old, hold, hcancels, rfl⟩ := Table.mem_update_cases hmem
          · exact hold
          · exact absurd (htasks old hold hcancels) (Bool.eq_false_iff.mp hforeign)
        · intro hmem
          refine Table.mem_update_of_not hmem ?_
          by_contra hcancels
          exact absurd (htasks task hmem (Bool.not_eq_false _ ▸ hcancels))
            (Bool.eq_false_iff.mp hforeign)
    | checkpoint row =>
        change row ∈ mirror.runtime.checkpoints ↔ row ∈ db.mirror.runtime.checkpoints
        rw [hruntime]
        exact Table.mem_delete.trans (and_iff_left (hkeptRun hforeign))
    | checkpointSource row =>
        change row ∈ mirror.runtime.checkpointSources ↔ row ∈ db.mirror.runtime.checkpointSources
        rw [hruntime]
        exact Table.mem_delete.trans (and_iff_left (hkeptRun hforeign))
    | chat row => exact hchats row hforeign
    | message row => exact hmessages row hforeign
    | attachment row => exact hattachments row hforeign
    | fileBlob row => exact hblobs row hforeign
    | event row =>
        change row ∈ mirror.runtime.events ↔ _
        rw [hruntime]
        rfl
    | run row =>
        change row ∈ mirror.runtime.runs ↔ _
        rw [hruntime]
        rfl
    | runEvent row =>
        change row ∈ mirror.runtime.runEvents ↔ _
        rw [hruntime]
        rfl
    | control row =>
        change row ∈ mirror.runtime.controls ↔ _
        rw [hruntime]
        rfl
    | approval row =>
        change row ∈ mirror.runtime.approvals ↔ _
        rw [hruntime]
        rfl
    | outbox row =>
        change row ∈ mirror.runtime.outbox ↔ _
        rw [hruntime]
        rfl
    | lane row =>
        change row ∈ mirror.runtime.lanes ↔ _
        rw [hruntime]
        rfl
    | _ => exact Iff.rfl

theorem committed_of_eq {α : Type} {db : MirrorDatabase}
    {operation : MirrorDatabase → Except PyError (α × MirrorDatabase)}
    {result : Except PyError (α × MirrorDatabase)} (hresult : operation db = result) :
    db.committed operation = db.committed fun _ => result := by
  unfold MirrorDatabase.committed
  rw [hresult]

theorem storeMessage_runtime (message : MirroredMessage) (base db : MirrorDatabase) :
    (db.committed fun _ => storeMessage message base).runtime =
      if (message.attachments.map AttachmentReference.resourceKey).Nodup then base.runtime
      else db.runtime := by
  unfold MirrorDatabase.committed storeMessage
  by_cases hkeys : (message.attachments.map AttachmentReference.resourceKey).Nodup
  · rw [if_pos hkeys, if_pos hkeys]
  · rw [if_neg hkeys, if_neg hkeys]

/-- An upsert deletes checkpoints exactly when it replaces an older version. -/
theorem upsert_runtime_eq (message : MirroredMessage) (db : MirrorDatabase) :
    (db.committed (IMRepository.upsertMessage message)).runtime =
      if replacesVersion db message = true then
        deleteCheckpoints (refersTo message.messageId) db.runtime
      else db.runtime := by
  have hfind : findMessage (upsertChat message db) message.key = findMessage db message.key := rfl
  have hupsert : IMRepository.upsertMessage message db =
      if isRevoked db message.chatKey = true then .ok (false, upsertChat message db)
      else
        (findMessage db message.key).elim (storeMessage message (upsertChat message db))
          fun existing =>
            if existing.updatedAtSourceMs > message.sourceVersionMs ∨
                (existing.updatedAtSourceMs = message.sourceVersionMs ∧ existing.isGone ∧
                  ¬ message.isGone) then .ok (true, upsertChat message db)
            else if existing.updatedAtSourceMs ≠ message.sourceVersionMs then
              storeMessage message { upsertChat message db with
                runtime := deleteCheckpoints (refersTo message.messageId) db.runtime }
            else storeMessage message (upsertChat message db) := by
    unfold IMRepository.upsertMessage
    dsimp only
    rw [isRevoked_upsertChat, hfind]
    cases findMessage db message.key <;> rfl
  unfold replacesVersion
  cases hopen : isRevoked db message.chatKey with
  | true =>
      rw [hopen, if_pos rfl] at hupsert
      rw [committed_of_eq hupsert]
      rfl
  | false =>
      rw [hopen, if_neg Bool.false_ne_true] at hupsert
      cases hfound : findMessage db message.key with
      | none =>
          rw [hfound] at hupsert
          dsimp only [Option.elim] at hupsert
          rw [committed_of_eq hupsert, storeMessage_runtime]
          split <;> rfl
      | some row =>
          rw [hfound] at hupsert
          dsimp only [Option.elim, Option.any_some] at hupsert ⊢
          rcases lt_trichotomy row.updatedAtSourceMs message.sourceVersionMs with
            holder | hsame | hnewer
          · rw [if_neg (by omega), if_pos (by omega)] at hupsert
            rw [committed_of_eq hupsert, storeMessage_runtime]
            by_cases hkeys : (message.attachments.map AttachmentReference.resourceKey).Nodup
            · rw [if_pos hkeys, if_pos (by simp [holder, hkeys])]
            · rw [if_neg hkeys, if_neg (by simp [hkeys])]
          · have hnot : ¬ row.updatedAtSourceMs < message.sourceVersionMs := by omega
            rw [if_neg (by simp [hnot])]
            split at hupsert
            · rw [committed_of_eq hupsert]
              rfl
            · rw [if_neg (not_not.mpr hsame)] at hupsert
              rw [committed_of_eq hupsert, storeMessage_runtime]
              split <;> rfl
          · have hnot : ¬ row.updatedAtSourceMs < message.sourceVersionMs := by omega
            rw [if_pos (.inl hnewer)] at hupsert
            rw [committed_of_eq hupsert, if_neg (by simp [hnot])]
            rfl

theorem tasksOwn_none : TasksOwn db scope fun _ => false := fun _ _ hfound => by cases hfound

/-- The chats other than the named one. -/
theorem mem_putChat {op : TargetedOp} {key : ChatKey} (hnamed : op.namedChat = some key)
    {new row : ChatRow} {change : ChatRow → ChatRow} (hnew : new.key = key)
    (hkeep : ∀ other, (change other).key = other.key)
    (hforeign : op.targets db (.chat row) = false) :
    row ∈ Table.put ChatRow.key new change db.mirror.chats ↔ row ∈ db.mirror.chats := by
  refine Table.mem_put_other hkeep fun hsame => ?_
  have hchat := (Bool.or_eq_false_iff.mp hforeign).2
  rw [hnamed, decide_eq_false_iff_not] at hchat
  exact hchat (congrArg some (hsame.trans hnew).symm)

theorem upsert_frame_iff (message : MirroredMessage) :
    (∀ row, (upsertMessage message).targets db row = false →
      ((db.mirrored (.message (.upsert message))).Has row ↔ db.Has row)) ↔
        FindsOwn db (upsertMessage message) := by
  have hruntime : (db.mirror.committed (IMRepository.upsertMessage message)).runtime =
      writeRuntime (fun sourceRef => replacesVersion db.mirror message && refersTo message.messageId
        sourceRef) (fun _ => false) 0 db.mirror.runtime := by
    rw [upsert_runtime_eq]
    cases replacesVersion db.mirror message with
    | true => exact (writeRuntime_checkpoints (refersTo message.messageId) 0 _).symm
    | false => exact (writeRuntime_nothing 0 _).symm
  refine (mirror_frame_iff db (upsertMessage message) (fun _ => rfl) hruntime ?_ ?_ ?_ ?_).trans ?_
  · intro row hforeign
    refine upsert_rule (P := fun after => row ∈ after.chats ↔ row ∈ db.mirror.chats) message
      db.mirror fun result hcases => ?_
    cases hcases with
    | refused _ _ => exact Iff.rfl
    | revoked _ => exact mem_putChat rfl rfl (fun _ => rfl) hforeign
    | ignored _ _ _ => exact mem_putChat rfl rfl (fun _ => rfl) hforeign
    | accepted _ _ _ _ => exact mem_putChat rfl rfl (fun _ => rfl) hforeign
  · intro row hforeign
    have hother : row.key ≠ message.key := of_decide_eq_false hforeign
    refine upsert_rule (P := fun after => row ∈ after.messages ↔ row ∈ db.mirror.messages) message
      db.mirror fun result hcases => ?_
    cases hcases with
    | refused _ _ => exact Iff.rfl
    | revoked _ => exact Iff.rfl
    | ignored _ _ _ => exact Iff.rfl
    | accepted _ _ _ _ => exact Table.mem_put_other (fun _ => rfl) hother
  · intro row hforeign
    have hother : row.key.message ≠ message.key := of_decide_eq_false hforeign
    refine upsert_rule (P := fun after => row ∈ after.attachments ↔ row ∈ db.mirror.attachments)
      message db.mirror fun result hcases => ?_
    cases hcases with
    | refused _ _ => exact Iff.rfl
    | revoked _ => exact Iff.rfl
    | ignored _ _ _ => exact Iff.rfl
    | accepted _ _ _ _ =>
        refine List.mem_append.trans ((or_iff_left ?_).trans
          (Table.mem_delete.trans (and_iff_left (decide_eq_false hother))))
        intro hnew
        obtain ⟨attachment, _, rfl⟩ := List.mem_map.mp hnew
        exact hother rfl
  · intro row _
    refine upsert_rule (P := fun after => row ∈ after.fileBlobs ↔ row ∈ db.mirror.fileBlobs)
      message db.mirror fun result hcases => ?_
    cases hcases <;> exact Iff.rfl
  · refine (and_iff_right tasksOwn_none).trans ?_
    unfold FindsOwn SourcesOwn
    constructor
    · intro hown hreplaces source hsource hrefers
      exact hown source hsource (Bool.and_eq_true_iff.mpr ⟨hreplaces, hrefers⟩)
    · intro hown source hsource hboth
      obtain ⟨hreplaces, hrefers⟩ := Bool.and_eq_true_iff.mp hboth
      exact hown hreplaces source hsource hrefers

/-- The metadata that a write drops is that of blobs of the target. -/
theorem mem_droppedBlobs {isTarget isGone : AttachmentRow → Bool} {mirror : MirrorDatabase}
    (hattachments : mirror.attachments = Table.delete isGone db.mirror.attachments)
    (hblobs : mirror.fileBlobs = db.mirror.fileBlobs)
    (hgone : ∀ row ∈ db.mirror.attachments, isGone row = true →
      ownsMessageKey db scope row.key.message = true) {row : FileBlobRow}
    (hforeign : ownsBlob db scope row.blobId = false) :
    row ∈ (dropUnreferencedBlobMetadata (attachmentBlobIds isTarget db.mirror) mirror).2.fileBlobs ↔
      row ∈ db.mirror.fileBlobs := by
  have hdropped : row ∈ (dropBlobMetadata (attachmentBlobIds isTarget db.mirror)
      { db with mirror }).2.mirror.fileBlobs ↔ _ := mem_dropBlobMetadata hattachments hblobs
  refine hdropped.trans (and_iff_left ?_)
  by_contra hpurged
  rw [Bool.not_eq_false] at hpurged
  rw [blobGone_own hgone hpurged] at hforeign
  cases hforeign

theorem invalidate_frame_iff (args : Invalidation) :
    (∀ row, (invalidateMessage args).targets db row = false →
      ((db.mirrored (.message (.invalidate args))).Has row ↔ db.Has row)) ↔
        FindsOwn db (invalidateMessage args) := by
  change _ ↔ (isCurrent db.mirror args = true → _)
  cases hcurrent : isCurrent db.mirror args with
  | false =>
      have hsame : (MirrorOp.message (.invalidate args)).apply db.mirror = db.mirror := by
        change (IMRepository.invalidateMessage args db.mirror).2 = db.mirror
        unfold IMRepository.invalidateMessage
        dsimp only
        rw [if_pos (by simpa [isCurrent] using hcurrent)]
      unfold StorageDatabase.mirrored
      rw [hsame]
      exact ⟨fun _ h => Bool.noConfusion h, fun _ _ _ => Iff.rfl⟩
  | true =>
      have hafter : ∃ chats messages, (MirrorOp.message (.invalidate args)).apply db.mirror =
          (dropUnreferencedBlobMetadata
            (attachmentBlobIds (fun row => row.key.message = args.key) db.mirror)
            { db.mirror with
              chats, messages
              runtime := deleteCheckpoints (refersTo args.messageId) db.mirror.runtime
              attachments := Table.delete (fun row => row.key.message = args.key)
                db.mirror.attachments }).2 ∧
          (∀ row, (invalidateMessage args).targets db (.chat row) = false →
            (row ∈ chats ↔ row ∈ db.mirror.chats)) ∧
          ∀ row : MessageRow, row.key ≠ args.key → (row ∈ messages ↔ row ∈ db.mirror.messages) := by
        change ∃ chats messages, (IMRepository.invalidateMessage args db.mirror).2 = _ ∧ _
        unfold IMRepository.invalidateMessage
        dsimp only
        rw [if_neg (by simpa [isCurrent] using hcurrent)]
        refine ⟨_, _, rfl, fun row hforeign => mem_putChat rfl rfl (fun _ => rfl) hforeign, ?_⟩
        intro row hother
        split
        · rw [List.mem_append, List.mem_singleton]
          exact or_iff_left fun hnew => hother (congrArg MessageRow.key hnew)
        · constructor
          · intro hmem
            obtain ⟨hold, _⟩ | ⟨old, _, hkey, rfl⟩ := Table.mem_update_cases hmem
            · exact hold
            · exact absurd (of_decide_eq_true hkey) hother
          · exact fun hmem => Table.mem_update_of_not hmem (decide_eq_false hother)
      obtain ⟨chats, messages, hafter, hchats, hmessages⟩ := hafter
      unfold StorageDatabase.mirrored
      rw [hafter]
      refine (mirror_frame_iff db (invalidateMessage args) (fun _ => rfl)
        (writeRuntime_checkpoints (refersTo args.messageId) 0 _).symm hchats ?_ ?_ ?_).trans ?_
      · exact fun row hforeign => hmessages row (of_decide_eq_false hforeign)
      · intro row hforeign
        exact Table.mem_delete.trans (and_iff_left hforeign)
      · intro row hforeign
        exact mem_droppedBlobs (by rfl) (by rfl) (fun _ _ hgone => hgone) hforeign
      · exact (and_iff_right tasksOwn_none).trans ⟨fun hown _ => hown, fun hown => hown rfl⟩

theorem revoke_frame_iff (chat : ChatKey) (nowMs : Int) :
    (∀ row, (revokeChatAccess chat nowMs).targets db row = false →
      ((db.mirrored (.revoke chat nowMs)).Has row ↔ db.Has row)) ↔
        FindsOwn db (revokeChatAccess chat nowMs) := by
  have howner {row : MessageRow} (hrow : row ∈ db.mirror.messages) (hchat : row.chatKey = chat) :
      ownsMessageKey db (.chat chat) row.key = true :=
    List.any_eq_true.mpr ⟨row, hrow, by rw [decide_eq_true rfl, decide_eq_true hchat]; rfl⟩
  have hattachment {row : AttachmentRow}
      (hgone : ((db.mirror.messages.filter fun row => row.chatKey = chat).any fun message =>
        message.key = row.key.message) = true) :
      ownsMessageKey db (.chat chat) row.key.message = true := by
    obtain ⟨message, hmem, hkey⟩ := List.any_eq_true.mp hgone
    obtain ⟨hmem, hchat⟩ := List.mem_filter.mp hmem
    exact (of_decide_eq_true hkey : message.key = row.key.message) ▸
      howner hmem (of_decide_eq_true hchat)
  have hruntime : (IMRepository.revokeChatAccess chat nowMs db.mirror).2.runtime =
      writeRuntime ((db.mirror.messages.filter fun row => row.chatKey = chat).map fun row =>
        messageRef row.key.messageId).contains (isCancelled chat) nowMs db.mirror.runtime := rfl
  refine (mirror_frame_iff db (revokeChatAccess chat nowMs) ?_ hruntime ?_ ?_ ?_ ?_).trans ?_
  · intro task
    simp [isCancelled]
  · intro row hforeign
    exact Table.mem_put_other (fun _ => rfl)
      (of_decide_eq_false (Bool.or_eq_false_iff.mp hforeign).1)
  · intro row hforeign
    refine Table.mem_delete.trans (and_iff_left_of_imp fun hrow => decide_eq_false fun hchat => ?_)
    exact Bool.noConfusion (hforeign.symm.trans (howner hrow hchat))
  · intro row hforeign
    refine Table.mem_delete.trans (and_iff_left ?_)
    by_contra hgone
    exact Bool.noConfusion (hforeign.symm.trans (hattachment (Bool.not_eq_false _ ▸ hgone)))
  · intro row hforeign
    exact mem_droppedBlobs (by rfl) (by rfl) (fun _ _ => hattachment) hforeign
  · refine and_congr_right fun _ => forall₂_congr fun source _ => imp_congr_left ?_
    rw [List.contains_iff_mem, List.mem_map, List.any_eq_true]
    constructor
    · rintro ⟨message, hmem, href⟩
      obtain ⟨hmem, hchat⟩ := List.mem_filter.mp hmem
      exact ⟨message, hmem, by rw [hchat, href, decide_eq_true rfl]; rfl⟩
    · rintro ⟨message, hmem, hboth⟩
      obtain ⟨hchat, href⟩ := Bool.and_eq_true_iff.mp hboth
      exact ⟨message, List.mem_filter.mpr ⟨hmem, hchat⟩, (of_decide_eq_true href).symm⟩

theorem targets_of_unnamed {op : TargetedOp} (hnone : op.namedChat = none) :
    op.targets db = owns db op.scope := by
  funext row
  cases row with
  | chat row =>
      change (ownsChat op.scope row || decide (op.namedChat = some row.key)) = ownsChat op.scope row
      rw [hnone]
      simp
  | _ => rfl

theorem only_target_of_unnamed {op : TargetedOp} (dir : DataDirectory)
    (hnone : op.namedChat = none) :
    OnlyTarget dir op ↔ ∀ row, owns dir.db op.scope row = false →
      ((op.apply dir).db.Has row ↔ dir.db.Has row) := by
  unfold OnlyTarget
  rw [targets_of_unnamed hnone]

theorem purge_frame_iff (dir : DataDirectory) (op : TargetedOp) (target : PurgeTarget)
    (hnone : op.namedChat = none) (hscope : op.scope = target.scope)
    (happly : op.apply dir = (purge target dir).2) :
    OnlyTarget dir op ↔ (Purgeable target dir.db →
      TasksOwn dir.db target.scope (purgeTask dir.db target) ∧
        SourcesOwn dir.db target.scope fun sourceRef =>
          (preparePurgeTables target dir.db).messages.any fun messageId =>
            refersTo messageId sourceRef) := by
  rw [only_target_of_unnamed dir hnone, hscope, happly]
  by_cases hpurgeable : Purgeable target dir.db
  · rw [purge_db_of_purgeable hpurgeable, frame_iff_of_deletes has_purged, purges_own_iff]
    exact (imp_iff_right hpurgeable).symm
  · rw [purge_db_of_refused hpurgeable]
    exact ⟨fun _ h => absurd h hpurgeable, fun _ _ _ => Iff.rfl⟩

theorem purgeTenant_frame_iff (dir : DataDirectory) (op : TargetedOp) (tenantKey : String)
    (hnone : op.namedChat = none) (hscope : op.scope = .tenant tenantKey)
    (happly : op.apply dir = (StorageMaintenance.purgeTenant tenantKey dir).2) :
    OnlyTarget dir op ↔ (TenantPurgeable tenantKey dir.db →
      TasksOwn dir.db (.tenant tenantKey) (tenantTask dir.db tenantKey) ∧
        ∀ claim ∈ dir.db.idempotency,
          purgesClaim (prepareTenantPurgeTables tenantKey dir.db) claim = true →
            ownsClaim dir.db (.tenant tenantKey) claim = true) := by
  rw [only_target_of_unnamed dir hnone, hscope, happly]
  by_cases hpurgeable : TenantPurgeable tenantKey dir.db
  · rw [purgeTenant_db_of_purgeable hpurgeable, frame_iff_of_deletes has_purgedTenant,
      purgesTenant_own_iff]
    exact (imp_iff_right hpurgeable).symm
  · rw [purgeTenant_db_of_refused hpurgeable]
    exact ⟨fun _ h => absurd h hpurgeable, fun _ _ _ => Iff.rfl⟩

/-- A write touches rows of its target only exactly when its searches find nothing else. -/
theorem only_target_iff (dir : DataDirectory) (op : TargetedOp) :
    OnlyTarget dir op ↔ op.FindsOwn dir.db := by
  cases op with
  | upsertMessage message => exact upsert_frame_iff message
  | invalidateMessage args => exact invalidate_frame_iff args
  | revokeChatAccess chat nowMs => exact revoke_frame_iff chat nowMs
  | purgeMessage key =>
      refine (purge_frame_iff dir (.purgeMessage key) (.message key) rfl rfl rfl).trans
        (imp_congr_right fun _ => ?_)
      refine (and_iff_right ?_).trans (forall₂_congr fun source _ => imp_congr_left ?_)
      · intro task htask hfound
        refine List.any_eq_true.mpr ⟨task, htask, ?_⟩
        rw [decide_eq_true rfl]
        exact hfound
      · change (refersTo key.messageId source.sourceRef || false) = true ↔ _
        rw [Bool.or_false]
  | purgeChat key =>
      refine (purge_frame_iff dir (.purgeChat key) (.chat key) rfl rfl rfl).trans
        (imp_congr_right fun _ => ?_)
      refine and_congr_right fun _ => forall₂_congr fun source _ => imp_congr_left ?_
      change (((dir.db.mirror.messages.filter _).map _).any _) = true ↔ _
      rw [List.any_map, List.any_filter]
      rfl
  | purgeTenant tenantKey => exact purgeTenant_frame_iff dir (.purgeTenant tenantKey) tenantKey rfl rfl rfl

/-- A row of another target that is there before the write and not after it. -/
theorem not_only_of_lost {dir : DataDirectory} {op : TargetedOp} (row : StoredRow)
    (hforeign : op.targets dir.db row = false) (hhas : dir.db.Has row)
    (hlost : ¬ (op.apply dir).db.Has row) : ¬ OnlyTarget dir op :=
  fun honly => hlost ((honly row hforeign).mpr hhas)

/-- The message of one chat, admitted with its task. -/
private def admittedIn (tenantKey chatId messageId : String) : MirrorOp :=
  .runtime (.admitEvent
    { eventId := "event-1", pluginId := "feishu-im", eventType := "im.message.receive_v1"
      tenantKey, appId := "app", occurredAtMs := 1, receivedAtMs := 2
      resourceKind := "im.message", resourceId := messageId, traceId := "trace" }
    { pluginId := "feishu-im", commandType := "im.handle_mention"
      sessionKey := tenantKey ++ "/app/" ++ chatId ++ "/" ++ messageId, payload := []
      groupId := some chatId }
    none "task-1" "out-1" 2)

private def dirAfter (ops : List MirrorOp) : DataDirectory :=
  { db := ops.foldl StorageDatabase.mirrored {} }

/-- A run on the message, whose checkpoint cites it. -/
private def checkpointOf (tenantKey messageId : String) : List MirrorOp :=
  [admittedIn tenantKey "chat" messageId,
    .runtime (.startRun
      { runId := "run-1", taskId := "task-1"
        sessionKey := tenantKey ++ "/app/chat/" ++ messageId, agentId := "agent"
        agentVersion := 1, policyVersion := 0 } 3),
    .runtime (.saveCheckpoint
      { runId := "run-1", agentId := "agent", agentVersion := 1, resourceVersions := []
        nextTurn := 1, messages := [], verifiedEffects := [], blockers := []
        sourceVersions := [(messageRef messageId, "1")], consumedBudget := []
        compactorVersion := 1 } 4)]

private def otherTask (dir : DataDirectory) : StoredRow :=
  match dir.db.mirror.runtime.tasks with
  | task :: _ => .task task
  | [] => .lane ⟨"", "", 0, 0⟩

/-- The access of the chat `oc_1` is revoked while a task of the chat `ocX1` is pending; a tenant
recalls a message whose identifier another tenant has, too; and the tenant `Acme` is purged beside
the tenant `acme`. -/
theorem searches_find_others :
    ¬ OnlyTarget (dirAfter [admittedIn "acme" "ocX1" "message-1"])
        (revokeChatAccess ⟨"acme", "app", "oc_1"⟩ 5) ∧
      ¬ OnlyTarget (dirAfter (checkpointOf "acme" "message-1"))
        (invalidateMessage ⟨⟨"emca", "app", "chat"⟩, "message-1", 5, 6⟩) ∧
      ¬ OnlyTarget (dirAfter [admittedIn "acme" "chat" "message-1"]) (purgeTenant "Acme") := by
  refine ⟨not_only_of_lost (otherTask (dirAfter [admittedIn "acme" "ocX1" "message-1"])) ?_ ?_ ?_,
    not_only_of_lost (.checkpointSource ⟨"run-1", messageRef "message-1", "1"⟩) ?_ ?_ ?_,
    not_only_of_lost (otherTask (dirAfter [admittedIn "acme" "chat" "message-1"])) ?_ ?_ ?_⟩
  all_goals decide +kernel

end TargetedOp

end Codex2Lark
