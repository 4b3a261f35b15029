import Codex2Lark.Storage.PurgeTargets

/-!
What a purge of a message or a chat leaves behind. The purge follows tasks to their runs, events and
replies; it does not look at approvals, whose tasks it cannot delete, nor at claims, nor at events
that were admitted as controls of another task.
-/

namespace Codex2Lark

open Lib Idempotency IMRepository StorageMaintenance

namespace StorageMaintenance

/-- The purge succeeds and nothing of the target is left. -/
def PurgeErases (target : PurgeTarget) (dir : DataDirectory) : Prop :=
  (∃ result, (purge target dir).1 = .ok result) ∧
    ∀ row, owns dir.db target.scope row = true → ¬ (purge target dir).2.db.Has row

/-- What a purge needs to find. -/
structure FindsAll (target : PurgeTarget) (db : StorageDatabase) : Prop where
  /-- No approval has been asked for by a purged task. -/
  approvals : ∀ row ∈ db.mirror.runtime.approvals,
    (preparePurgeTables target db).tasks.contains row.taskId = false
  /-- No claim belongs to a run of the target or to one of its children. -/
  claims : ∀ row ∈ db.idempotency, ownsClaim db target.scope row = false
  /-- Every task of the target is found. -/
  tasks : ∀ row ∈ db.mirror.runtime.tasks, ownsTaskId db target.scope row.taskId = true →
    (preparePurgeTables target db).tasks.contains row.taskId = true
  /-- Every event of the target is that of a task that is found, or one of the chat itself: no
  message has been admitted as a control. -/
  events : ∀ row ∈ db.mirror.runtime.events, ownsEventPk db target.scope row.eventPk = true →
    (preparePurgeTables target db).events.contains row.eventPk = true
  controls : ∀ row ∈ db.mirror.runtime.controls, ownsControl db target.scope row = true →
    purgesControl (preparePurgeTables target db) row = true
  /-- No other task has answered the target. -/
  outbox : ∀ row ∈ db.mirror.runtime.outbox, ownsOutbox db target.scope row = true →
    purgesOutbox (preparePurgeTables target db) row = true
  /-- No other task has a purged event, and no other graph a purged node. -/
  otherTasks : ∀ task ∈ db.mirror.runtime.tasks,
    (preparePurgeTables target db).tasks.contains task.taskId = false →
      task.eventPk.any (preparePurgeTables target db).events.contains = false
  otherGraphs : nodesDangle (isPurgedGraph (preparePurgeTables target db)) db = false

variable {db : StorageDatabase} {target : PurgeTarget} {dir : DataDirectory}

/-- The searches for a message cover what names it. -/
theorem refersTo_of_names {key : MessageKey} {sourceRef : String}
    (hnames : namesSource db key sourceRef = true) : refersTo key.messageId sourceRef = true := by
  rcases Bool.or_eq_true_iff.mp hnames with hmessage | hattachment
  · unfold refersTo
    rw [hmessage, Bool.true_or]
  · obtain ⟨hstarts, _⟩ := Bool.and_eq_true_iff.mp hattachment
    obtain ⟨resourceKey, hresource⟩ := List.isPrefixOf_iff_prefix.mp hstarts
    have hpattern : ("im.attachment:" ++ key.messageId ++ ":%").toList =
        (attachmentRef key.messageId "").toList ++ ['%'] := by
      change _ = ("im.attachment:" ++ key.messageId ++ ":" ++ "").toList ++ ['%']
      simp
    unfold refersTo
    rw [Bool.or_eq_true]
    refine .inr ?_
    rw [hpattern, ← hresource]
    exact like_append _ (like_any _)

theorem isPurgedMessage_of_owns {key : MessageKey}
    (howns : ownsMessageKey db target.scope key = true) :
    isPurgedMessage (preparePurgeTables target db) target key = true := by
  cases target with
  | message this =>
      obtain rfl : key = this := of_decide_eq_true howns
      simp [isPurgedMessage, PurgeTarget.tenantKey, PurgeTarget.appId, preparePurgeTables]
  | chat this =>
      obtain ⟨message, hmem, hboth⟩ := List.any_eq_true.mp howns
      obtain ⟨hkey, hchat⟩ := Bool.and_eq_true_iff.mp hboth
      obtain rfl : message.key = key := of_decide_eq_true hkey
      have hthis : message.chatKey = this := of_decide_eq_true hchat
      have hlisted : (preparePurgeTables (.chat this) db).messages.contains
          message.key.messageId = true :=
        List.contains_iff_mem.mpr (List.mem_map.mpr ⟨message, List.mem_filter.mpr ⟨hmem, hchat⟩, rfl⟩)
      unfold isPurgedMessage
      rw [hlisted, Bool.and_true, Bool.and_eq_true_iff]
      exact ⟨decide_eq_true (congrArg ChatKey.tenantKey hthis),
        decide_eq_true (congrArg ChatKey.appId hthis)⟩

namespace FindsAll

theorem taskId_selected (hfinds : FindsAll target db) {taskId : String}
    (howns : ownsTaskId db target.scope taskId = true) :
    (preparePurgeTables target db).tasks.contains taskId = true := by
  obtain ⟨task, hmem, hboth⟩ := List.any_eq_true.mp howns
  obtain ⟨hid, _⟩ := Bool.and_eq_true_iff.mp hboth
  obtain rfl : task.taskId = taskId := of_decide_eq_true hid
  exact hfinds.tasks task hmem howns

theorem runId_selected (hfinds : FindsAll target db) {runId : String}
    (howns : ownsRunId db target.scope runId = true) :
    (preparePurgeTables target db).runs.contains runId = true := by
  obtain ⟨run, hmem, hboth⟩ := List.any_eq_true.mp howns
  obtain ⟨hid, htask⟩ := Bool.and_eq_true_iff.mp hboth
  obtain rfl : run.runId = runId := of_decide_eq_true hid
  exact purged_run hmem (hfinds.taskId_selected htask)

theorem graph_selected (hfinds : FindsAll target db) {row : GraphRow}
    (howns : ownsGraph db target.scope row = true) :
    isPurgedGraph (preparePurgeTables target db) row = true := by
  have howns : ownsRunId db target.scope row.rootRunId = true := by
    cases target <;> exact howns
  exact hfinds.runId_selected howns

theorem graphId_selected (hfinds : FindsAll target db) {graphId : String}
    (howns : ownsGraphId db target.scope graphId = true) :
    graphGone db (isPurgedGraph (preparePurgeTables target db)) graphId = true := by
  obtain ⟨graph, hmem, hboth⟩ := List.any_eq_true.mp howns
  obtain ⟨hid, hgraph⟩ := Bool.and_eq_true_iff.mp hboth
  obtain rfl : graph.graphId = graphId := of_decide_eq_true hid
  exact List.contains_iff_mem.mpr (List.mem_map.mpr
    ⟨graph, List.mem_filter.mpr ⟨hmem, hfinds.graph_selected hgraph⟩, rfl⟩)

theorem checkpoint_selected (hfinds : FindsAll target db) {runId : String}
    (howns : ownsCheckpoint db target.scope runId = true) :
    citesPurged (preparePurgeTables target db) db runId = true := by
  unfold citesPurged
  rcases Bool.or_eq_true_iff.mp howns with hrun | hsource
  · rw [hfinds.runId_selected hrun, Bool.true_or]
  · rw [Bool.or_eq_true]
    right
    have hcites {key : MessageKey}
        (hlisted : key.messageId ∈ (preparePurgeTables target db).messages)
        (hsource : hasSource db (namesSource db key) runId = true) :
        (db.mirror.runtime.checkpointSources.any fun source => source.runId = runId &&
          (preparePurgeTables target db).messages.any fun messageId =>
            refersTo messageId source.sourceRef) = true := by
      obtain ⟨source, hmem, hboth⟩ := List.any_eq_true.mp hsource
      obtain ⟨hrun, hnames⟩ := Bool.and_eq_true_iff.mp hboth
      exact List.any_eq_true.mpr ⟨source, hmem, Bool.and_eq_true_iff.mpr
        ⟨hrun, List.any_eq_true.mpr ⟨key.messageId, hlisted, refersTo_of_names hnames⟩⟩⟩
    cases target with
    | message key => exact hcites (List.mem_singleton.mpr rfl) (Bool.and_eq_true_iff.mp hsource).2
    | chat key =>
        obtain ⟨message, hmem, hboth⟩ := List.any_eq_true.mp (Bool.and_eq_true_iff.mp hsource).2
        obtain ⟨hchat, hsource⟩ := Bool.and_eq_true_iff.mp hboth
        exact hcites (List.mem_map.mpr ⟨message, List.mem_filter.mpr ⟨hmem, hchat⟩, rfl⟩) hsource

/-- Then every row of the target is selected. -/
theorem purges_of_owns (hfinds : FindsAll target db) {row : StoredRow} (hhas : db.Has row)
    (howns : owns db target.scope row = true) :
    purges (preparePurgeTables target db) db target row = true := by
  have hattachment {row : AttachmentRow}
      (howns : ownsMessageKey db target.scope row.key.message = true) :
      attachmentGone (preparePurgeTables target db) db target row = true := by
    unfold attachmentGone
    rw [isPurgedMessage_of_owns howns, Bool.true_or]
  cases row with
  | event row => exact hfinds.events row hhas howns
  | task row => exact hfinds.tasks row hhas howns
  | run row => exact hfinds.runId_selected howns
  | runEvent row => exact hfinds.runId_selected howns
  | control row => exact hfinds.controls row hhas howns
  | approval row =>
      have hselected := hfinds.taskId_selected howns
      rw [hfinds.approvals row hhas] at hselected
      cases hselected
  | outbox row => exact hfinds.outbox row hhas howns
  | checkpoint row => exact hfinds.checkpoint_selected howns
  | checkpointSource row => exact hfinds.checkpoint_selected howns
  | idempotency row => exact Bool.noConfusion ((hfinds.claims row hhas).symm.trans howns)
  | lane lane =>
      obtain ⟨hkind, hunused⟩ := Bool.and_eq_true_iff.mp howns
      rw [Bool.not_eq_true', List.any_eq_false] at hunused
      refine Bool.and_eq_true_iff.mpr ⟨hkind, ?_⟩
      rw [Bool.not_eq_true', List.any_eq_false]
      intro task htask hboth
      obtain ⟨hkept, huses⟩ := Bool.and_eq_true_iff.mp hboth
      have hforeign : ownsTaskId db target.scope task.taskId = false := by
        by_contra howned
        rw [hfinds.taskId_selected (Bool.not_eq_false _ ▸ howned)] at hkept
        cases hkept
      exact hunused task htask (by rw [huses, hforeign]; rfl)
  | graph row => exact hfinds.graph_selected howns
  | node row => exact hfinds.graphId_selected howns
  | edge row => exact hfinds.graphId_selected howns
  | ledger row => exact hfinds.graphId_selected howns
  | lock row => exact hfinds.graphId_selected howns
  | artifact row => exact hfinds.graphId_selected howns
  | mail row => exact hfinds.graphId_selected howns
  | agentCheckpoint row => exact hfinds.graphId_selected howns
  | chat row =>
      cases target with
      | message key => cases howns
      | chat key => exact howns
  | message row => exact Bool.or_eq_true_iff.mpr (.inl (isPurgedMessage_of_owns howns))
  | attachment row => exact hattachment howns
  | fileBlob row =>
      obtain ⟨hnamed, hothers⟩ := Bool.and_eq_true_iff.mp howns
      rw [Bool.not_eq_true', List.any_eq_false] at hothers
      obtain ⟨attachment, hmem, hboth⟩ := List.any_eq_true.mp hnamed
      obtain ⟨hblob, howned⟩ := Bool.and_eq_true_iff.mp hboth
      refine Bool.and_eq_true_iff.mpr ⟨List.any_eq_true.mpr ⟨attachment, hmem, ?_⟩, ?_⟩
      · exact Bool.and_eq_true_iff.mpr ⟨isPurgedMessage_of_owns howned, hblob⟩
      · rw [Bool.not_eq_true', List.any_eq_false]
        intro other hother hboth
        obtain ⟨hkept, hblob⟩ := Bool.and_eq_true_iff.mp hboth
        refine hothers other hother ?_
        cases howned : ownsMessageKey db target.scope other.key.message with
        | false => rw [hblob]; rfl
        | true =>
            rw [hattachment howned] at hkept
            cases hkept

end FindsAll

theorem purge_of_purgeable (hpurgeable : Purgeable target dir.db) :
    (∃ result, (purge target dir).1 = .ok result) ∧
      (purge target dir).2.db = purged target dir.db := by
  obtain ⟨result, hok⟩ := purgeRows_of_purgeable hpurgeable
  unfold purge
  rw [hok]
  exact ⟨⟨_, rfl⟩, rfl⟩

/-- A target that is there is erased exactly when the purge finds all that belongs to it. -/
theorem purge_erases_iff
    (hnamed : ¬ (isBlank target.tenantKey || isBlank target.appId || isBlank target.resourceId) = true)
    (hfound : targetExists dir.db target = true) :
    PurgeErases target dir ↔ FindsAll target dir.db := by
  constructor
  · rintro ⟨⟨result, hok⟩, hgone⟩
    have hpurgeable : Purgeable target dir.db := by
      unfold purge at hok
      cases hrows : purgeRows target dir.db with
      | error e =>
          rw [hrows] at hok
          cases hok
      | ok rows => exact purgeable_of_ok hrows
    have hselected (row : StoredRow) (hhas : dir.db.Has row)
        (howns : owns dir.db target.scope row = true) :
        purges (preparePurgeTables target dir.db) dir.db target row = true := by
      by_contra hkept
      refine hgone row howns ?_
      rw [(purge_of_purgeable hpurgeable).2, has_purged]
      exact ⟨hhas, Bool.eq_false_iff.mpr hkept⟩
    exact
      { approvals := hpurgeable.approvals
        claims := fun row hrow => by
          by_contra howns
          cases hselected (.idempotency row) hrow (Bool.not_eq_false _ ▸ howns)
        tasks := fun row hrow howns => hselected (.task row) hrow howns
        events := fun row hrow howns => hselected (.event row) hrow howns
        controls := fun row hrow howns => hselected (.control row) hrow howns
        outbox := fun row hrow howns => hselected (.outbox row) hrow howns
        otherTasks := hpurgeable.events
        otherGraphs := hpurgeable.nodes }
  · intro hfinds
    have hpurgeable : Purgeable target dir.db :=
      ⟨hnamed, hfound, hfinds.otherGraphs, hfinds.approvals, hfinds.otherTasks⟩
    obtain ⟨hok, hdb⟩ := purge_of_purgeable hpurgeable
    refine ⟨hok, fun row howns hhas => ?_⟩
    rw [hdb, has_purged] at hhas
    rw [hfinds.purges_of_owns hhas.1 howns] at hhas
    cases hhas.2

private def question (messageId : String)
    (hid : IMMentionTaskHandler.strip messageId ≠ "" := by decide) : MirroredMessage :=
  { eventId := "event-1", tenantKey := "tenant", appId := "app", chatId := "chat"
    chatType := "group", messageId, messageType := "text", senderId := "user", senderType := "user"
    bodyText := "question", mentions := [], occurredAtMs := 1, receivedAtMs := 2
    identified := by simpa using ⟨by decide, by decide, by decide, by decide, hid, by decide⟩ }

private def eventOf (messageId : String) : NormalizedEvent :=
  { eventId := messageId, pluginId := "feishu-im", eventType := "im.message.receive_v1"
    tenantKey := "tenant", appId := "app", occurredAtMs := 1, receivedAtMs := 2
    resourceKind := "im.message", resourceId := messageId, traceId := "trace" }

private def answerTo (messageId kind : String) : OutboxDraft :=
  ⟨"feishu-im.reply", messageId, kind, messageId ++ ":" ++ kind, [], 2⟩

private theorem first_identified : IMMentionTaskHandler.strip "message-1" ≠ "" := by decide

private theorem second_identified : IMMentionTaskHandler.strip "message-2" ≠ "" := by decide

/-- A question in a thread, with its task and a run. -/
private def askedQuestion : List MirrorOp :=
  [.message (.upsert (question "message-1" first_identified)),
    .runtime (.admitEvent (eventOf "message-1")
      { pluginId := "feishu-im", commandType := "im.handle_mention"
        sessionKey := "tenant/app/chat/thread", payload := [("sender_id", .str "user")]
        groupId := some "chat" }
      (some (answerTo "message-1" "acknowledgement")) "task-1" "out-1" 2),
    .runtime (.startRun
      { runId := "run-1", taskId := "task-1", sessionKey := "tenant/app/chat/thread"
        agentId := "agent", agentVersion := 1, policyVersion := 0 } 3)]

/-- The run asks for an approval. -/
private def askedApproval : MirrorOp :=
  .runtime (.requestApproval ⟨"approval-1", "task-1", "run-1", "tenant", "app",
    "tenant/app/chat/thread", "user", "feishu.docs.edit", "digest", "trace", 1000,
    answerTo "message-1" "approval"⟩ "out-2" 4)

/-- A second message in the thread steers the task of the first. -/
private def steered : List MirrorOp :=
  [.message (.upsert (question "message-2" second_identified)),
    .runtime (.admitControl ⟨eventOf "message-2", "tenant/app/chat/thread", "user", .steer,
      "go on", answerTo "message-2" "acknowledgement"⟩ "control-1" "out-3" 5)]

private def dirOf (ops : List MirrorOp) (claims : List ClaimArgs) : DataDirectory :=
  { db :=
      { ops.foldl StorageDatabase.mirrored {} with
        idempotency := claims.foldl (fun rows args => (claimIdempotency args rows).2) [] } }

private def firstMessage : MessageKey := ⟨"tenant", "app", "message-1"⟩

theorem purge_erases_question : PurgeErases (.message firstMessage) (dirOf askedQuestion []) := by
  refine (purge_erases_iff (by decide) (by decide +kernel)).mpr ?_
  constructor <;> decide +kernel

theorem not_erases_of_refused (hrefused : (purge target dir).1.toOption = none) :
    ¬ PurgeErases target dir := by
  rintro ⟨⟨result, hok⟩, _⟩
  rw [hok] at hrefused
  cases hrefused

theorem not_erases_of_left (row : StoredRow) (howns : owns dir.db target.scope row = true)
    (hleft : (purge target dir).2.db.Has row) : ¬ PurgeErases target dir :=
  fun herases => herases.2 row howns hleft

private def controlOf (dir : DataDirectory) : StoredRow :=
  match dir.db.mirror.runtime.controls with
  | control :: _ => .control control
  | [] => .lane ⟨"", "", 0, 0⟩

private def claimOf (dir : DataDirectory) : StoredRow :=
  match dir.db.idempotency with
  | claim :: _ => .idempotency claim
  | [] => .lane ⟨"", "", 0, 0⟩

/-- The purge is refused once the run has asked for an approval; the control that the second message
was admitted as is left when that message is purged; and so is a claim of the run, also when the
chat is purged. -/
theorem purge_leaves_rows :
    ¬ PurgeErases (.message firstMessage) (dirOf (askedQuestion ++ [askedApproval]) []) ∧
      ¬ PurgeErases (.message ⟨"tenant", "app", "message-2"⟩) (dirOf (askedQuestion ++ steered) []) ∧
      ¬ PurgeErases (.chat ⟨"tenant", "app", "chat"⟩)
        (dirOf askedQuestion [⟨"tool:write", "tool", "run-1:root", 100, 4⟩]) := by
  refine ⟨not_erases_of_refused ?_,
    not_erases_of_left (controlOf (dirOf (askedQuestion ++ steered) [])) ?_ ?_,
    not_erases_of_left
      (claimOf (dirOf askedQuestion [⟨"tool:write", "tool", "run-1:root", 100, 4⟩])) ?_ ?_⟩
  all_goals decide +kernel

end StorageMaintenance

end Codex2Lark
