import Codex2Lark.Storage.GarbageProgress

/-!
Garbage collection and the checkpoints that are derived from what it deletes. Every such checkpoint
is selected, but the selection is cut at the same bound as the deletions it is to follow.
-/

namespace Codex2Lark

open Lib IMRepository

namespace StorageMaintenance

variable {scan : ScanOrder} {dueMs batchSize : Int} {batch : Nat} {db : StorageDatabase}
  {dir after : DataDirectory} {row : StoredRow} {source : CheckpointSourceRow}

/-- The source of a run in a session of this tenant and app. -/
def InApp (db : StorageDatabase) (key : MessageKey) (runId : String) : Prop :=
  ∃ run ∈ db.mirror.runtime.runs, run.runId = runId ∧
    (key.tenantKey ++ "/" ++ key.appId ++ "/").toList <+: run.sessionKey.toList

/-- The index row refers to the message or attachment. -/
def Cites (db : StorageDatabase) (source : CheckpointSourceRow) : StoredRow → Prop
  | .message row =>
      source.sourceRef = messageRef row.key.messageId ∧ InApp db row.key source.runId
  | .attachment row =>
      source.sourceRef = attachmentRef row.key.message.messageId row.key.resourceKey ∧
        InApp db row.key.message source.runId
  | _ => False

/-- Nothing derived from a deleted message or attachment is left. -/
def DropsDerived (before after : StorageDatabase) : Prop :=
  ∀ row, before.Has row → ¬ after.Has row →
    (∀ source ∈ after.mirror.runtime.checkpointSources, ¬ Cites after source row) ∧
    ∀ source ∈ before.mirror.runtime.checkpointSources, Cites before source row →
      ∀ checkpoint ∈ after.mirror.runtime.checkpoints, checkpoint.runId ≠ source.runId

/-- The bounded deletions of messages and attachments take the row. -/
def Takes (dueMs : Int) (batch : Nat) (db : StorageDatabase) : StoredRow → Prop
  | .message row => row ∈ Table.firstRows (messageExpired dueMs) batch db.mirror.messages
  | .attachment row => row ∈ db.mirror.attachments ∧
      (row ∈ Table.firstRows (attachmentExpired dueMs) batch db.mirror.attachments ∨
        ∃ message ∈ Table.firstRows (messageExpired dueMs) batch db.mirror.messages,
          message.key = row.key.message)
  | _ => False

/-- The runs that the bound on checkpoints leaves out cite nothing that goes. -/
def CutSparesDerived (scan : ScanOrder) (dueMs : Int) (batch : Nat) (db : StorageDatabase) : Prop :=
  ∀ runId ∈ (scan.order (derivedRunIds dueMs db)).drop batch,
    ∀ source ∈ db.mirror.runtime.checkpointSources, source.runId = runId →
      ∀ row, Takes dueMs batch db row → ¬ Cites db source row

/-- The primary keys of messages and attachments. -/
structure MirrorKeys (db : StorageDatabase) : Prop where
  messages : (db.mirror.messages.map MessageRow.key).Nodup
  attachments : (db.mirror.attachments.map AttachmentRow.key).Nodup

theorem inAppSession_of_start {key : MessageKey} {sessionKey : String}
    (hstart : (key.tenantKey ++ "/" ++ key.appId ++ "/").toList <+: sessionKey.toList) :
    inAppSession key sessionKey = true := by
  obtain ⟨rest, hrest⟩ := hstart
  have hpattern : (key.tenantKey ++ "/" ++ key.appId ++ "/%").toList =
      (key.tenantKey ++ "/" ++ key.appId ++ "/").toList ++ ['%'] := by simp
  unfold inAppSession
  rw [hpattern, ← hrest]
  exact like_append _ (like_any rest)

theorem refersTo_attachmentRef (messageId resourceKey : String) :
    refersTo messageId (attachmentRef messageId resourceKey) = true := by
  have hpattern : ("im.attachment:" ++ messageId ++ ":%").toList =
      ("im.attachment:" ++ messageId ++ ":").toList ++ ['%'] := by simp
  unfold refersTo attachmentRef
  rw [Bool.or_eq_true, hpattern, String.toList_append (s := "im.attachment:" ++ messageId ++ ":")]
  exact .inr (like_append _ (like_any _))

/-- What cites a row that goes is selected. -/
theorem mem_derivedRunIds (hsource : source ∈ db.mirror.runtime.checkpointSources)
    (htakes : Takes dueMs batch db row) (hcites : Cites db source row) :
    source.runId ∈ derivedRunIds dueMs db := by
  have hselected : ∃ run ∈ db.mirror.runtime.runs, run.runId = source.runId ∧
      namesExpired dueMs db run.sessionKey source.sourceRef = true := by
    unfold namesExpired
    cases row with
    | message message =>
        obtain ⟨href, run, hrun, hid, hstart⟩ := hcites
        obtain ⟨hmem, hexpired⟩ := List.mem_filter.mp (List.mem_of_mem_take htakes)
        refine ⟨run, hrun, hid, Bool.or_eq_true_iff.mpr (.inl ?_)⟩
        refine List.any_eq_true.mpr ⟨message, hmem, ?_⟩
        rw [hexpired, inAppSession_of_start hstart, href]
        simp [refersTo]
    | attachment attachment =>
        obtain ⟨href, run, hrun, hid, hstart⟩ := hcites
        refine ⟨run, hrun, hid, Bool.or_eq_true_iff.mpr ?_⟩
        obtain ⟨_, hfirst | ⟨message, hmessage, hkey⟩⟩ := htakes
        · obtain ⟨hmem, hexpired⟩ := List.mem_filter.mp (List.mem_of_mem_take hfirst)
          refine .inr (List.any_eq_true.mpr ⟨attachment, hmem, ?_⟩)
          rw [hexpired, inAppSession_of_start hstart, href]
          simp
        · obtain ⟨hmem, hexpired⟩ := List.mem_filter.mp (List.mem_of_mem_take hmessage)
          refine .inl (List.any_eq_true.mpr ⟨message, hmem, ?_⟩)
          rw [hkey, hexpired, inAppSession_of_start hstart, href, refersTo_attachmentRef]
          rfl
    | _ => cases hcites
  obtain ⟨run, hrun, hid, hnames⟩ := hselected
  refine List.mem_dedup.mpr (List.mem_map.mpr ⟨source, List.mem_filter.mpr ⟨hsource, ?_⟩, rfl⟩)
  refine List.any_eq_true.mpr ⟨run, hrun, ?_⟩
  rw [hnames]
  simpa using hid

/-- The selected runs that the bound leaves out are those whose checkpoints stay. -/
theorem mem_cut (scan : ScanOrder) (batch : Nat) {runId : String}
    (hderived : runId ∈ derivedRunIds dueMs db) :
    runId ∉ collectedRunIds scan dueMs batch db ↔
      runId ∈ (scan.order (derivedRunIds dueMs db)).drop batch := by
  have hperm := scan.perm (derivedRunIds dueMs db)
  have hnodup : (scan.order (derivedRunIds dueMs db)).Nodup :=
    hperm.nodup_iff.mpr (List.nodup_dedup _)
  have hmem := hperm.mem_iff.mpr hderived
  rw [← List.take_append_drop batch (scan.order (derivedRunIds dueMs db))] at hnodup hmem
  refine ⟨(List.mem_append.mp hmem).resolve_left, fun hdrop htake => ?_⟩
  exact List.disjoint_of_nodup_append hnodup htake hdrop

/-! ### The rows that go -/

section Gone

variable (hcollected : Collected scan dueMs batch dir after)
include hcollected

theorem Collected.takes_of_gone (hhas : dir.db.Has row) (hgone : ¬ after.db.Has row)
    (hcites : Cites db source row) : Takes dueMs batch dir.db row := by
  cases row with
  | message message =>
      change message ∉ after.db.mirror.messages at hgone
      rw [hcollected.messages] at hgone
      exact (List.mem_append.mp ((Table.deleteFirst_perm _ batch _).mem_iff.mpr hhas)).resolve_right
        hgone
  | attachment attachment =>
      refine ⟨hhas, ?_⟩
      change attachment ∉ after.db.mirror.attachments at hgone
      rw [hcollected.attachments, Table.mem_delete, not_and_or] at hgone
      rcases hgone with hdeleted | hcascade
      · exact .inl ((List.mem_append.mp
          ((Table.deleteFirst_perm _ batch _).mem_iff.mpr hhas)).resolve_right hdeleted)
      · obtain ⟨message, hmessage, hkey⟩ :=
          List.any_eq_true.mp (Bool.eq_true_of_not_eq_false hcascade)
        exact .inr ⟨message, hmessage, of_decide_eq_true hkey⟩
  | _ => cases hcites

theorem Collected.gone_of_takes (hkeys : MirrorKeys dir.db) (htakes : Takes dueMs batch dir.db row) :
    dir.db.Has row ∧ ¬ after.db.Has row := by
  cases row with
  | message message =>
      refine ⟨(List.mem_filter.mp (List.mem_of_mem_take htakes)).1, ?_⟩
      change message ∉ after.db.mirror.messages
      rw [hcollected.messages, Table.mem_deleteFirst_iff hkeys.messages]
      exact fun hleft => hleft.2 htakes
  | attachment attachment =>
      obtain ⟨hmem, hhow⟩ := htakes
      refine ⟨hmem, ?_⟩
      change attachment ∉ after.db.mirror.attachments
      rw [hcollected.attachments, Table.mem_delete,
        Table.mem_deleteFirst_iff hkeys.attachments]
      rintro ⟨⟨_, hnot⟩, hspared⟩
      rcases hhow with hfirst | ⟨message, hmessage, hkey⟩
      · exact hnot hfirst
      · exact List.any_eq_false.mp hspared message hmessage (decide_eq_true hkey)
  | _ => cases htakes

theorem Collected.cites_iff : Cites after.db source row ↔ Cites dir.db source row := by
  have happ (key : MessageKey) (runId : String) : InApp after.db key runId ↔ InApp dir.db key runId := by
    unfold InApp
    rw [hcollected.runs]
  cases row with
  | message message => exact and_congr_right fun _ => happ _ _
  | attachment attachment => exact and_congr_right fun _ => happ _ _
  | _ => exact Iff.rfl

theorem Collected.dropsDerived_iff (hkeys : MirrorKeys dir.db) :
    DropsDerived dir.db after.db ↔ CutSparesDerived scan dueMs batch dir.db := by
  constructor
  · intro hdrops runId hcut source hsource hid row htakes hcites
    subst hid
    obtain ⟨hhas, hgone⟩ := hcollected.gone_of_takes hkeys htakes
    refine (hdrops row hhas hgone).1 source ?_ (hcollected.cites_iff.mpr hcites)
    have hleft := (mem_cut scan batch (mem_derivedRunIds hsource htakes hcites)).mpr hcut
    rw [hcollected.sources, Table.mem_delete]
    exact ⟨hsource, by simpa using hleft⟩
  · intro hspares row hhas hgone
    refine ⟨fun source hleft hcites => ?_, fun source hsource hcites checkpoint hleft hid => ?_⟩
    · rw [hcollected.sources, Table.mem_delete] at hleft
      have hcites := hcollected.cites_iff.mp hcites
      have htakes := hcollected.takes_of_gone hhas hgone hcites
      have hcut := (mem_cut scan batch (mem_derivedRunIds hleft.1 htakes hcites)).mp
        (by simpa using hleft.2)
      exact hspares _ hcut source hleft.1 rfl row htakes hcites
    · rw [hcollected.checkpoints, Table.mem_delete, hid] at hleft
      have htakes := hcollected.takes_of_gone hhas hgone hcites
      have hcut := (mem_cut scan batch (mem_derivedRunIds hsource htakes hcites)).mp
        (by simpa using hleft.2)
      exact hspares _ hcut source hsource rfl row htakes hcites

end Gone

/-- Everything derived from what a call deletes goes with it exactly when the call is refused or the
runs that its bound on checkpoints leaves out cite nothing that it deletes. -/
theorem collection_drops_derived_iff (scan : ScanOrder) (dueMs batchSize : Int)
    (hkeys : MirrorKeys dir.db) :
    DropsDerived dir.db (garbageCollect scan dueMs batchSize dir).2.db ↔
      (batchSize < 1 ∨ batchSize > 10000) ∨
        CutSparesDerived scan dueMs batchSize.toNat dir.db := by
  by_cases hbatch : batchSize < 1 ∨ batchSize > 10000
  · rw [garbageCollect_refused hbatch]
    exact ⟨fun _ => .inl hbatch, fun _ row hhas hgone => absurd hhas hgone⟩
  · have hcollected : Collected scan dueMs batchSize.toNat dir
        (garbageCollect scan dueMs batchSize dir).2 :=
      collected_of_accepted (by omega) (by omega) scan dueMs dir
    rw [hcollected.dropsDerived_iff hkeys]
    exact ⟨.inr, fun hor => hor.resolve_left hbatch⟩

private def runOf (runId : String) : RunRow :=
  ⟨runId, "task-" ++ runId, "tenant/app/chat/thread", "agent", 1, 1, .waiting, 0, 0, "trace"⟩

private def checkpointFor (runId : String) : CheckpointRow :=
  ⟨runId, ⟨runId, "agent", 1, [], 1, [], [], [], [("im.message:message", "1")], [], 1, [], [], 1, ""⟩,
    0, 0⟩

private def expiredMessage : MessageRow :=
  { key := ⟨"tenant", "app", "message"⟩, chatId := "chat", senderType := "user", senderId := "user"
    messageType := "text", content := "question", mentions := [], createdAtSourceMs := 0
    updatedAtSourceMs := 0, isRecalled := false, isDeleted := false, expiresAtMs := some 5 }

/-- Runs with checkpoints that cite one expired message. -/
private def citing (runIds : List String) : DataDirectory where
  db :=
    { mirror :=
        { messages := [expiredMessage]
          runtime :=
            { runs := runIds.map runOf
              checkpoints := runIds.map checkpointFor
              checkpointSources := runIds.map fun runId => ⟨runId, "im.message:message", "1"⟩ } } }

theorem collection_drops_only_run :
    DropsDerived (citing ["run-1"]).db (garbageCollect {} 10 1 (citing ["run-1"])).2.db := by
  refine (collection_drops_derived_iff {} 10 1 ⟨by decide, by decide⟩).mpr (.inr ?_)
  have hnone : (ScanOrder.order {} (derivedRunIds 10 (citing ["run-1"]).db)).drop 1 = [] := by
    decide +kernel
  intro runId hcut
  rw [show Int.toNat 1 = 1 from rfl, hnone] at hcut
  cases hcut

/-- With batches of one the second checkpoint outlives the message that it cites. -/
theorem collection_leaves_derived :
    ¬ DropsDerived (citing ["run-1", "run-2"]).db
      (garbageCollect {} 10 1 (citing ["run-1", "run-2"])).2.db := by
  intro hdrops
  have hcites : Cites (garbageCollect {} 10 1 (citing ["run-1", "run-2"])).2.db
      ⟨"run-2", "im.message:message", "1"⟩ (.message expiredMessage) :=
    ⟨by decide, runOf "run-2", by decide +kernel, by decide, by decide⟩
  exact (hdrops (.message expiredMessage) (by decide +kernel) (by decide +kernel)).1 _
    (by decide +kernel) hcites

end StorageMaintenance

end Codex2Lark
