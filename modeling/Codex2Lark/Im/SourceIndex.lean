import Codex2Lark.Im.ContextProvider
import Codex2Lark.Im.Tombstones
import Codex2Lark.Storage.Checkpoints

/-!
The index of the sources that checkpoints are derived from. Each invalidation deletes the
checkpoints that it finds; the index stays clean as long as nobody saves from what has been
invalidated, and a revocation finds every checkpoint by a message of the chat.
-/

namespace Codex2Lark

open Lib IMRepository

/-- Content that must not be used any more: a message up to this version, and its attachments,
whose versions have no order. -/
structure StaleSource where
  messageId : String
  version : Int
deriving DecidableEq, Repr

/-- The reference names the content at a version that is not newer. -/
def StaleSource.covers (stale : StaleSource) (source : String × String) : Prop :=
  (source.1 = messageRef stale.messageId ∧
    ∃ version ≤ stale.version, source.2 = toString version) ∨
  ∃ resourceKey, source.1 = attachmentRef stale.messageId resourceKey

/-- The version that an upsert has replaced by a newer one. -/
def replaced (db after : MirrorDatabase) (key : MessageKey) : List StaleSource :=
  match findMessage db key, findMessage after key with
  | some old, some new =>
      if old.updatedAtSourceMs < new.updatedAtSourceMs then
        [⟨key.messageId, old.updatedAtSourceMs⟩]
      else []
  | _, _ => []

/-- What a transaction invalidates. -/
def invalidated (db : MirrorDatabase) : MirrorOp → List StaleSource
  | .message (.upsert message) =>
      replaced db (db.committed (upsertMessage message)) message.key
  | .message (.invalidate args) =>
      -- an invalidation older than the stored version is ignored
      if (findMessage db args.key).any fun row => row.updatedAtSourceMs > args.sourceVersionMs then
        []
      else [⟨args.messageId, args.sourceVersionMs⟩]
  | .revoke chat _ =>
      (db.messages.filter fun row => row.chatKey = chat).map fun row =>
        ⟨row.key.messageId, row.updatedAtSourceMs⟩
  | _ => []

/-- `stale` is history: what has been invalidated so far. -/
structure SourceHistory where
  db : MirrorDatabase := {}
  stale : List StaleSource := []

namespace SourceHistory

def step (s : SourceHistory) (op : MirrorOp) : Option SourceHistory :=
  some ⟨op.apply s.db, s.stale ++ invalidated s.db op⟩

/-- No row of the source index names invalidated content. -/
def Purged (s : SourceHistory) : Prop :=
  ∀ row ∈ s.db.runtime.checkpointSources, ∀ stale ∈ s.stale,
    ¬ stale.covers (row.sourceRef, row.sourceVersion)

/-- A save names no content that has been invalidated; and when a chat is revoked, a checkpoint
that names an attachment of one of its stored messages also names one of these messages. -/
def staysCurrent (s : SourceHistory) : MirrorOp → Prop
  | .runtime (.saveCheckpoint checkpoint _) =>
      SessionStore.findRun s.db.runtime checkpoint.runId ≠ none →
        ∀ source ∈ checkpoint.sourceVersions, ∀ stale ∈ s.stale, ¬ stale.covers source
  | .revoke chat _ =>
      ∀ source ∈ s.db.runtime.checkpointSources, ∀ message ∈ s.db.messages,
        message.chatKey = chat → ∀ resourceKey,
          source.sourceRef = attachmentRef message.key.messageId resourceKey →
            ∃ other ∈ s.db.runtime.checkpointSources, other.runId = source.runId ∧
              ∃ purged ∈ s.db.messages, purged.chatKey = chat ∧
                other.sourceRef = messageRef purged.key.messageId
  | _ => True

variable {s t : SourceHistory} {db : Database}

/-! ### The index under the transactions -/

theorem mem_deleteCheckpoints {refers : String → Bool} {row : CheckpointSourceRow} :
    row ∈ (deleteCheckpoints refers db).checkpointSources ↔
      row ∈ db.checkpointSources ∧ ∀ other ∈ db.checkpointSources, other.runId = row.runId →
        refers other.sourceRef = false := by
  unfold deleteCheckpoints
  dsimp only
  rw [Table.mem_delete]
  refine and_congr_right fun _ => ?_
  constructor
  · intro hkept other hother hrun
    by_contra hrefers
    have hlisted : row.runId ∈ (db.checkpointSources.filter fun row =>
        refers row.sourceRef).map CheckpointSourceRow.runId :=
      List.mem_map.mpr ⟨other, List.mem_filter.mpr ⟨hother, by simpa using hrefers⟩, hrun⟩
    rw [List.contains_iff_mem.mpr hlisted] at hkept
    cases hkept
  · intro hnone
    by_contra hdeleted
    have hlisted := List.contains_iff_mem.mp (Bool.not_eq_false _ ▸ hdeleted)
    obtain ⟨other, hother, hrun⟩ := List.mem_map.mp hlisted
    obtain ⟨hmem, hrefers⟩ := List.mem_filter.mp hother
    exact Bool.noConfusion (hrefers.symm.trans (hnone other hmem hrun))

/-- Without its run a checkpoint cannot be saved. -/
theorem saved_without_run {checkpoint : RunCheckpoint} {nowMs : Int}
    (hrun : SessionStore.findRun db checkpoint.runId = none) :
    (StoreOp.saveCheckpoint checkpoint nowMs).apply db = db := by
  change db.committed (SessionStore.saveCheckpoint checkpoint nowMs) = db
  unfold Database.committed Database.transaction SessionStore.saveCheckpoint
  dsimp only
  rw [hrun, Option.isNone_none, if_pos rfl]

/-- What a saved checkpoint leaves in the index. -/
theorem mem_saved {checkpoint : RunCheckpoint} {nowMs : Int} {row : CheckpointSourceRow}
    (hrun : SessionStore.findRun db checkpoint.runId ≠ none) :
    row ∈ ((StoreOp.saveCheckpoint checkpoint nowMs).apply db).checkpointSources ↔
      (row ∈ db.checkpointSources ∧ row.runId ≠ checkpoint.runId) ∨
        ∃ source ∈ checkpoint.sourceVersions, row = ⟨checkpoint.runId, source.1, source.2⟩ := by
  change row ∈ (db.committed (SessionStore.saveCheckpoint checkpoint nowMs)).checkpointSources ↔ _
  unfold Database.committed Database.transaction SessionStore.saveCheckpoint
  dsimp only
  rw [if_neg (by simpa using hrun)]
  dsimp only
  rw [List.mem_append, Table.mem_delete, (List.perm_insertionSort _ _).mem_iff, List.mem_map]
  refine or_congr (and_congr_right fun _ => decide_eq_false_iff_not) ?_
  constructor
  · rintro ⟨source, hsource, rfl⟩
    exact ⟨source, hsource, rfl⟩
  · rintro ⟨source, hsource, rfl⟩
    exact ⟨source, hsource, rfl⟩

/-- Only saves add to the index. -/
theorem mem_of_apply {op : StoreOp} (hop : op.savesFor = none) {row : CheckpointSourceRow}
    (hrow : row ∈ (op.apply db).checkpointSources) : row ∈ db.checkpointSources := by
  cases hsession : op.isSession with
  | false =>
      have hsame : (op.apply db).checkpointSources = db.checkpointSources :=
        congrArg (fun tables => tables.2.2.2) (StoreOp.sessionTables_apply db hsession)
      rw [hsame] at hrow
      exact hrow
  | true =>
      cases op with
      | saveCheckpoint checkpoint nowMs => cases hop
      | discardCheckpoint runId => exact (Table.mem_delete.mp hrow).1
      | startRun args nowMs =>
          have hsame : (db.committed (SessionStore.startRun args nowMs)).checkpointSources =
              db.checkpointSources := by
            apply Database.committed_column Database.checkpointSources
            intro value after hok
            rw [(SessionStore.startRun_ok hok).1]
          exact hsame ▸ hrow
      | appendEvent runId eventType payload nowMs =>
          have hsame : (db.committed (SessionStore.appendEvent runId eventType payload
              nowMs)).checkpointSources = db.checkpointSources := by
            apply Database.committed_column Database.checkpointSources
            intro value after hok
            rw [SessionStore.appendEvent_ok hok]
            rfl
          exact hsame ▸ hrow
      | tryFinishWithOutcome runId outcome appliedControlIds nowMs =>
          have hsame : (db.committed (SessionStore.tryFinishWithOutcome runId outcome
              appliedControlIds nowMs)).checkpointSources = db.checkpointSources := by
            apply Database.committed_column Database.checkpointSources
            intro closed after hok
            exact (SessionStore.tryFinishWithOutcome_checkpoints hok).2
          exact hsame ▸ hrow
      | _ => cases hsession

/-! ### The three invalidations -/

/-- The rule by which an upsert and an invalidation look for a message covers its attachments. -/
theorem refersTo_of_covers {stale : StaleSource} {source : String × String}
    (hcovers : stale.covers source) : refersTo stale.messageId source.1 = true := by
  unfold refersTo
  rw [Bool.or_eq_true]
  rcases hcovers with ⟨href, _⟩ | ⟨resourceKey, href⟩
  · exact .inl (decide_eq_true href)
  · refine .inr ?_
    rw [href]
    unfold attachmentRef
    have hpattern : ("im.attachment:" ++ stale.messageId ++ ":%").toList =
        ("im.attachment:" ++ stale.messageId ++ ":").toList ++ ['%'] := by
      simp
    rw [hpattern, String.toList_append (s := "im.attachment:" ++ stale.messageId ++ ":")]
    exact like_append _ (like_any _)

/-- An upsert that replaces an older version deletes what was derived from the message. -/
theorem upsert_runtime (message : MirroredMessage) (db : MirrorDatabase) :
    (db.committed (upsertMessage message)).runtime =
        deleteCheckpoints (refersTo message.messageId) db.runtime ∨
      (db.committed (upsertMessage message)).runtime = db.runtime ∧
        replaced db (db.committed (upsertMessage message)) message.key = [] := by
  have hunchanged (after : MirrorDatabase) (hsame : findMessage after message.key =
      findMessage db message.key) : replaced db after message.key = [] := by
    unfold replaced
    rw [hsame]
    cases findMessage db message.key with
    | none => rfl
    | some row => exact if_neg (lt_irrefl _)
  refine upsert_rule (P := fun after =>
    after.runtime = deleteCheckpoints (refersTo message.messageId) db.runtime ∨
      after.runtime = db.runtime ∧ replaced db after message.key = []) message db
    fun result hcases => ?_
  cases hcases with
  | revoked _ => exact .inr ⟨rfl, hunchanged _ rfl⟩
  | ignored _ _ _ => exact .inr ⟨rfl, hunchanged _ rfl⟩
  | @accepted runtime _ _ _ hruntime =>
      rcases hruntime with ⟨rfl, hsame⟩ | rfl
      · refine .inr ⟨rfl, ?_⟩
        have hversion := version_stored message { upsertChat message db with runtime := db.runtime }
          message.key
        rw [if_pos rfl] at hversion
        obtain ⟨new, hnew, hthis⟩ := Option.map_eq_some_iff.mp hversion
        have hupdated : new.updatedAtSourceMs = message.sourceVersionMs :=
          congrArg (fun version => (ofLex version).1) hthis
        unfold replaced
        dsimp only [MirrorDatabase.committed]
        rw [hnew]
        cases hold : findMessage db message.key with
        | none => rfl
        | some old =>
            refine if_neg ?_
            rw [hupdated, hsame old hold]
            exact lt_irrefl _
      · exact .inl rfl
  | refused _ _ => exact .inr ⟨rfl, hunchanged _ rfl⟩

theorem mem_replaced {db after : MirrorDatabase} {key : MessageKey} {stale : StaleSource}
    (hmem : stale ∈ replaced db after key) : stale.messageId = key.messageId := by
  unfold replaced at hmem
  split at hmem
  · split at hmem
    · rw [List.mem_singleton.mp hmem]
    · cases hmem
  · cases hmem

theorem invalidate_runtime (args : Invalidation) (db : MirrorDatabase) :
    (invalidateMessage args db).2.runtime = deleteCheckpoints (refersTo args.messageId) db.runtime ∨
      (invalidateMessage args db).2.runtime = db.runtime ∧
        invalidated db (.message (.invalidate args)) = [] := by
  unfold invalidateMessage invalidated
  dsimp only
  split
  · exact .inr ⟨rfl, rfl⟩
  · exact .inl rfl

theorem mem_invalidated {db : MirrorDatabase} {args : Invalidation} {stale : StaleSource}
    (hmem : stale ∈ invalidated db (.message (.invalidate args))) :
    stale.messageId = args.messageId := by
  unfold invalidated at hmem
  dsimp only at hmem
  split at hmem
  · cases hmem
  · rw [List.mem_singleton.mp hmem]

/-- A deletion by that rule leaves nothing of the message. -/
theorem not_covers_of_deleted {stale : StaleSource} {row : CheckpointSourceRow}
    (hrow : row ∈ (deleteCheckpoints (refersTo stale.messageId) db).checkpointSources) :
    ¬ stale.covers (row.sourceRef, row.sourceVersion) := by
  intro hcovers
  obtain ⟨hmem, hnone⟩ := mem_deleteCheckpoints.mp hrow
  exact Bool.noConfusion ((hnone row hmem rfl).symm.trans (refersTo_of_covers hcovers))

theorem revoke_sources (chat : ChatKey) (nowMs : Int) (db : MirrorDatabase) :
    (revokeChatAccess chat nowMs db).2.runtime.checkpointSources =
      (deleteCheckpoints ((db.messages.filter fun row => row.chatKey = chat).map fun row =>
        messageRef row.key.messageId).contains db.runtime).checkpointSources := rfl

/-- A row that a revocation leaves names no stored message of the chat, nor does its checkpoint. -/
theorem mem_revoked {chat : ChatKey} {nowMs : Int} {db : MirrorDatabase}
    {row : CheckpointSourceRow} :
    row ∈ (revokeChatAccess chat nowMs db).2.runtime.checkpointSources ↔
      row ∈ db.runtime.checkpointSources ∧ ¬ ∃ other ∈ db.runtime.checkpointSources,
        other.runId = row.runId ∧ ∃ purged ∈ db.messages, purged.chatKey = chat ∧
          other.sourceRef = messageRef purged.key.messageId := by
  rw [revoke_sources, mem_deleteCheckpoints]
  refine and_congr_right fun _ => ?_
  constructor
  · rintro hnone ⟨other, hother, hrun, purged, hpurged, hchat, href⟩
    have hfree := hnone other hother hrun
    have hlisted : other.sourceRef ∈ (db.messages.filter fun row => row.chatKey = chat).map
        fun row => messageRef row.key.messageId := by
      rw [href]
      exact List.mem_map_of_mem (List.mem_filter.mpr ⟨hpurged, decide_eq_true hchat⟩)
    rw [List.contains_iff_mem.mpr hlisted] at hfree
    cases hfree
  · intro hnone other hother hrun
    by_contra hlisted
    have hmem := List.contains_iff_mem.mp (Bool.not_eq_false _ ▸ hlisted)
    obtain ⟨purged, hpurged, href⟩ := List.mem_map.mp hmem
    obtain ⟨hin, hchat⟩ := List.mem_filter.mp hpurged
    exact hnone ⟨other, hother, hrun, purged, hin, of_decide_eq_true hchat, href.symm⟩

/-! ### Histories -/

/-- A transaction that adds nothing to the index, and leaves nothing of what it invalidates. -/
theorem Purged.transact (hpurged : Purged s) {db : MirrorDatabase} {new : List StaleSource}
    (hsub : ∀ row ∈ db.runtime.checkpointSources, row ∈ s.db.runtime.checkpointSources)
    (hnew : ∀ stale ∈ new, ∀ row ∈ db.runtime.checkpointSources,
      ¬ stale.covers (row.sourceRef, row.sourceVersion)) : Purged ⟨db, s.stale ++ new⟩ := by
  intro row hrow stale hstale
  rcases List.mem_append.mp hstale with hold | hadded
  · exact hpurged row (hsub row hrow) stale hold
  · exact hnew stale hadded row hrow

/-- The two ways in which a write of one message leaves the index. -/
theorem Purged.write (hpurged : Purged s) {db : MirrorDatabase} {new : List StaleSource}
    {messageId : String} (hid : ∀ stale ∈ new, stale.messageId = messageId)
    (hruntime : db.runtime = deleteCheckpoints (refersTo messageId) s.db.runtime ∨
      db.runtime = s.db.runtime ∧ new = []) : Purged ⟨db, s.stale ++ new⟩ := by
  rcases hruntime with hdeleted | ⟨hsame, rfl⟩
  · refine hpurged.transact ?_ ?_
    · intro row hrow
      rw [hdeleted] at hrow
      exact (mem_deleteCheckpoints.mp hrow).1
    · intro stale hstale row hrow
      rw [hdeleted, ← hid stale hstale] at hrow
      exact not_covers_of_deleted hrow
  · refine hpurged.transact ?_ ?_
    · intro row hrow
      rw [hsame] at hrow
      exact hrow
    · intro stale hstale
      cases hstale

theorem purged_save (hpurged : Purged s) (checkpoint : RunCheckpoint) (nowMs : Int) :
    Purged ⟨(MirrorOp.runtime (.saveCheckpoint checkpoint nowMs)).apply s.db, s.stale⟩ ↔
      staysCurrent s (.runtime (.saveCheckpoint checkpoint nowMs)) := by
  have hruntime : ((MirrorOp.runtime (.saveCheckpoint checkpoint nowMs)).apply s.db).runtime =
      (StoreOp.saveCheckpoint checkpoint nowMs).apply s.db.runtime := rfl
  by_cases hrun : SessionStore.findRun s.db.runtime checkpoint.runId = none
  · refine iff_of_true ?_ fun hthere => absurd hrun hthere
    intro row hrow
    rw [hruntime, saved_without_run hrun] at hrow
    exact hpurged row hrow
  · constructor
    · intro hafter _ source hsource stale hstale
      refine hafter ⟨checkpoint.runId, source.1, source.2⟩ ?_ stale hstale
      rw [hruntime]
      exact (mem_saved hrun).mpr (.inr ⟨source, hsource, rfl⟩)
    · intro hcurrent row hrow stale hstale
      rw [hruntime] at hrow
      rcases (mem_saved hrun).mp hrow with ⟨hold, _⟩ | ⟨source, hsource, rfl⟩
      · exact hpurged row hold stale hstale
      · exact hcurrent hrun source hsource stale hstale

theorem purged_revoke (hpurged : Purged s) (chat : ChatKey) (nowMs : Int) :
    Purged ⟨(revokeChatAccess chat nowMs s.db).2, s.stale ++ invalidated s.db (.revoke chat nowMs)⟩ ↔
      staysCurrent s (.revoke chat nowMs) := by
  have hstale {message : MessageRow} (hmessage : message ∈ s.db.messages)
      (hchat : message.chatKey = chat) :
      (⟨message.key.messageId, message.updatedAtSourceMs⟩ : StaleSource) ∈
        invalidated s.db (.revoke chat nowMs) :=
    List.mem_map.mpr ⟨message, List.mem_filter.mpr ⟨hmessage, decide_eq_true hchat⟩, rfl⟩
  constructor
  · intro hafter source hsource message hmessage hchat resourceKey href
    by_contra hnone
    refine hafter source (mem_revoked.mpr ⟨hsource, hnone⟩) _
      (List.mem_append_right _ (hstale hmessage hchat)) ?_
    exact .inr ⟨resourceKey, href⟩
  · intro hcurrent
    refine hpurged.transact (fun row hrow => (mem_revoked.mp hrow).1) ?_
    intro stale hadded row hrow hcovers
    obtain ⟨hold, hnone⟩ := mem_revoked.mp hrow
    obtain ⟨message, hlisted, rfl⟩ := List.mem_map.mp hadded
    obtain ⟨hmessage, hchat⟩ := List.mem_filter.mp hlisted
    have hchat : message.chatKey = chat := of_decide_eq_true hchat
    rcases hcovers with ⟨href, _⟩ | ⟨resourceKey, href⟩
    · exact hnone ⟨row, hold, rfl, message, hmessage, hchat, href⟩
    · exact hnone (hcurrent row hold message hmessage hchat resourceKey href)

/-- A transaction keeps the index clean exactly when it meets the condition. -/
theorem purged_step (hpurged : Purged s) (op : MirrorOp) :
    Purged ⟨op.apply s.db, s.stale ++ invalidated s.db op⟩ ↔ staysCurrent s op := by
  have hnothing (db : MirrorDatabase)
      (hsub : ∀ row ∈ db.runtime.checkpointSources, row ∈ s.db.runtime.checkpointSources) :
      Purged ⟨db, s.stale ++ []⟩ :=
    hpurged.transact hsub fun stale hstale => by cases hstale
  cases op with
  | message write =>
      refine iff_of_true ?_ trivial
      cases write with
      | upsert message =>
          exact hpurged.write (fun _ hmem => mem_replaced hmem) (upsert_runtime message s.db)
      | invalidate args =>
          exact hpurged.write (fun _ hmem => mem_invalidated hmem) (invalidate_runtime args s.db)
  | revoke chat nowMs => exact purged_revoke hpurged chat nowMs
  | restore chat nowMs => exact iff_of_true (hnothing _ fun _ hrow => hrow) trivial
  | recordBlob args =>
      obtain ⟨fileBlobs, attachments, hafter⟩ := recordBlob_frame args s.db
      rw [hafter]
      exact iff_of_true (hnothing _ fun _ hrow => hrow) trivial
  | recordParse args =>
      obtain ⟨attachments, hafter⟩ := recordParse_frame args s.db
      rw [hafter]
      exact iff_of_true (hnothing _ fun _ hrow => hrow) trivial
  | runtime op =>
      have hnone : invalidated s.db (.runtime op) = [] := rfl
      rw [hnone]
      cases hsaves : op.savesFor with
      | none =>
          refine iff_of_true (hnothing _ fun _ hrow => mem_of_apply hsaves hrow) ?_
          cases op <;> trivial
      | some runId =>
          cases op with
          | saveCheckpoint checkpoint nowMs =>
              rw [List.append_nil]
              exact purged_save hpurged checkpoint nowMs
          | _ => cases hsaves

/-- In every history of the mirror and the runtime, the index names no invalidated content at any
time if and only if every save and every revocation meets the condition. -/
theorem index_purged (history : List MirrorOp) :
    Always step Purged history {} ↔ Along step staysCurrent history {} := by
  refine always_iff_along (I := Purged) ?_ (fun _ hpurged => hpurged) ?_ ?_
  · intro s op t hpurged hcurrent hstep
    obtain rfl := Option.some.inj hstep
    exact (purged_step hpurged op).mpr hcurrent
  · intro s op hpurged hafter
    exact (purged_step hpurged op).mp (hafter _ rfl)
  · intro row hrow
    cases hrow

/-- A test that a clean index passes: no row names version 1 of a message that is stale at that
version, or its attachment `minutes`. -/
private def indexPasses (s : SourceHistory) : Bool :=
  s.db.runtime.checkpointSources.all fun row => s.stale.all fun stale =>
    !(row.sourceRef = messageRef stale.messageId && row.sourceVersion = toString (1 : Int) &&
      1 ≤ stale.version || row.sourceRef = attachmentRef stale.messageId "minutes")

private theorem indexPasses_of_purged (s : SourceHistory) (hpurged : Purged s) :
    indexPasses s = true := by
  refine List.all_eq_true.mpr ?_
  intro row hrow
  refine List.all_eq_true.mpr ?_
  intro stale hstale
  have hnot := hpurged row hrow stale hstale
  rw [Bool.not_eq_true']
  by_contra hflagged
  refine hnot ?_
  rcases Bool.or_eq_true_iff.mp (Bool.not_eq_false _ ▸ hflagged) with hmessage | hattachment
  · obtain ⟨hboth, hversion⟩ := Bool.and_eq_true_iff.mp hmessage
    obtain ⟨href, hsame⟩ := Bool.and_eq_true_iff.mp hboth
    exact .inl ⟨of_decide_eq_true href, 1, of_decide_eq_true hversion, of_decide_eq_true hsame⟩
  · exact .inr ⟨"minutes", of_decide_eq_true hattachment⟩

private def report : MirroredMessage :=
  { eventId := "event-report", tenantKey := "tenant", appId := "app", chatId := "chat"
    chatType := "group", messageId := "message-1", messageType := "text", senderId := "user"
    senderType := "user", bodyText := "report", mentions := [], occurredAtMs := 1
    receivedAtMs := 2
    attachments :=
      [{ resourceKey := "minutes", resourceType := "file", filename := some "minutes.txt" }]
    identified := by decide }

private def digestOfMinutes : String :=
  "8f434346648f6b96df89dda901c5176b10a6d83961dd3c1ac88b59b2dc327aa4"

/-- What the harness saves after its first turn, from the evidence of its request. -/
private def savedFrom (evidence : List ContextEvidence) : MirrorOp :=
  .runtime (.saveCheckpoint
    { runId := "run-1", agentId := "agent", agentVersion := 1, resourceVersions := []
      nextTurn := 1, messages := [], verifiedEffects := [], blockers := []
      sourceVersions :=
        Dict.ofEntries (evidence.map fun item => (item.sourceRef, item.sourceVersion))
      consumedBudget := [], compactorVersion := 1 } 5)

/-- The report is mirrored and a run is under way that was asked about it. -/
private def askedRun : List MirrorOp :=
  [.message (.upsert report),
    .runtime (.admitEvent
      { eventId := "event-2", pluginId := "feishu-im", eventType := "im.message"
        tenantKey := "tenant", appId := "app", occurredAtMs := 3, receivedAtMs := 3
        resourceKind := "im.message", resourceId := "message-2", traceId := "trace" }
      { pluginId := "feishu-im", commandType := "im.handle_mention"
        sessionKey := "tenant/app/chat/message-2", payload := [] } none "task-1" "out-1" 3),
    .runtime (.startRun
      { runId := "run-1", taskId := "task-1", sessionKey := "tenant/app/chat/message-2"
        agentId := "agent", agentVersion := 1, policyVersion := 0 } 4)]

/-- The run saves again from evidence that has been recalled in the meantime; and a revocation does
not find the checkpoint of a run whose evidence is an attachment alone. -/
theorem stale_sources_indexed :
    let message := IMContextProvider.evidence report
    let attachment : ContextEvidence :=
      { sourceRef := attachmentRef "message-1" "minutes", content := "hi"
        sourceVersion := digestOfMinutes }
    let withdrawal : MirrorOp := .message (.invalidate ⟨report.chatKey, "message-1", 2, 6⟩)
    ¬ Always step Purged (askedRun ++ [savedFrom [message], withdrawal, savedFrom [message]]) {} ∧
      ¬ Always step Purged (askedRun ++ [savedFrom [attachment], .revoke report.chatKey 6]) {} :=
  ⟨not_always_of_check indexPasses_of_purged (by decide +kernel),
    not_always_of_check indexPasses_of_purged (by decide +kernel)⟩

end SourceHistory

end Codex2Lark
