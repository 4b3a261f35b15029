import Codex2Lark.Storage.GarbageCollection
import Mathlib.Data.List.Dedup
import Mathlib.Data.List.TakeWhile

/-!
Repeated garbage collection. What a call leaves of the expired rows shrinks until nothing is left,
while the blob files that surviving attachments name stay and keep their places in the listing: an
orphan file behind a whole batch of them is never reached.
-/

namespace Codex2Lark

open Lib IMRepository

namespace StorageMaintenance

variable {scan : ScanOrder} {dueMs batchSize : Int} {batch : Nat} {db : StorageDatabase}
  {dir after : DataDirectory} {row : AttachmentRow}

/-- Neither the attachment nor its message is expired. -/
def survives (dueMs : Int) (db : StorageDatabase) (row : AttachmentRow) : Bool :=
  !attachmentExpired dueMs row && !ownerExpired dueMs db row

/-- A surviving attachment names the blob. -/
def isLive (dueMs : Int) (db : StorageDatabase) (blobId : String) : Bool :=
  db.mirror.attachments.any fun row => survives dueMs db row && row.blobId = some blobId

/-- The sweep changes nothing of the database but the rows of blobs. -/
theorem collectBlob_db (blobId : String) (sweep : BlobSweep) :
    ∃ fileBlobs, (collectBlob blobId sweep).dir.db =
      { sweep.dir.db with mirror := { sweep.dir.db.mirror with fileBlobs } } := by
  unfold collectBlob
  split
  · exact ⟨sweep.dir.db.mirror.fileBlobs, rfl⟩
  · exact ⟨_, rfl⟩

theorem collectBlobs_db (blobIds : List String) (sweep : BlobSweep) :
    ∃ fileBlobs, (collectBlobs blobIds sweep).2.dir.db =
      { sweep.dir.db with mirror := { sweep.dir.db.mirror with fileBlobs } } := by
  induction blobIds generalizing sweep with
  | nil => exact ⟨sweep.dir.db.mirror.fileBlobs, rfl⟩
  | cons blobId blobIds ih =>
      unfold collectBlobs
      split
      · obtain ⟨between, hbetween⟩ := collectBlob_db blobId sweep
        obtain ⟨fileBlobs, hrest⟩ := ih (collectBlob blobId sweep)
        rw [hbetween] at hrest
        exact ⟨fileBlobs, hrest⟩
      · exact ⟨sweep.dir.db.mirror.fileBlobs, rfl⟩

theorem isReferenced_collectBlob (blobId other : String) (sweep : BlobSweep) :
    isReferenced (collectBlob blobId sweep).dir.db other = isReferenced sweep.dir.db other := by
  obtain ⟨fileBlobs, hdb⟩ := collectBlob_db blobId sweep
  rw [hdb]
  rfl

theorem collectBlob_blobs (blobId : String) (sweep : BlobSweep) :
    (collectBlob blobId sweep).dir.blobs = sweep.dir.blobs.filter fun file =>
      !(file.blobId = blobId && !isReferenced sweep.dir.db file.blobId) := by
  unfold collectBlob
  split
  · rename_i hreferenced
    refine (List.filter_eq_self.mpr fun file _ => ?_).symm
    by_cases hfile : file.blobId = blobId
    · simp [hfile, hreferenced]
    · simp [hfile]
  · rename_i hreferenced
    refine List.filter_congr fun file _ => ?_
    by_cases hfile : file.blobId = blobId
    · simp [hfile, hreferenced]
    · simp [hfile]

/-- The files that go: those of unreferenced candidates before the first invalid one. -/
theorem collectBlobs_blobs (blobIds : List String) (sweep : BlobSweep) :
    (collectBlobs blobIds sweep).2.dir.blobs = sweep.dir.blobs.filter fun file =>
      !((blobIds.takeWhile isBlobId).contains file.blobId &&
        !isReferenced sweep.dir.db file.blobId) := by
  induction blobIds generalizing sweep with
  | nil =>
      refine (List.filter_eq_self.mpr fun file _ => ?_).symm
      simp
  | cons blobId blobIds ih =>
      unfold collectBlobs
      cases hvalid : isBlobId blobId with
      | true =>
          rw [if_pos rfl, ih, collectBlob_blobs, List.filter_filter,
            List.takeWhile_cons_of_pos hvalid]
          refine List.filter_congr fun file _ => ?_
          rw [isReferenced_collectBlob, List.contains_cons]
          cases hreferenced : isReferenced sweep.dir.db file.blobId with
          | true => simp
          | false => by_cases hfile : file.blobId = blobId <;> simp [hfile]
      | false =>
          rw [if_neg (by simp), List.takeWhile_cons_of_neg (by simp [hvalid])]
          refine (List.filter_eq_self.mpr fun file _ => ?_).symm
          simp

/-! ### One call -/

/-- What an accepted call does. -/
structure Collected (scan : ScanOrder) (dueMs : Int) (batch : Nat) (dir after : DataDirectory) :
    Prop where
  events : after.db.mirror.runtime.events =
    Table.updateFirst (payloadExpired dueMs) clearPayload batch dir.db.mirror.runtime.events
  messages : after.db.mirror.messages =
    Table.deleteFirst (messageExpired dueMs) batch dir.db.mirror.messages
  attachments : after.db.mirror.attachments = Table.delete
    (fun row => (Table.firstRows (messageExpired dueMs) batch dir.db.mirror.messages).any
      fun message => message.key = row.key.message)
    (Table.deleteFirst (attachmentExpired dueMs) batch dir.db.mirror.attachments)
  artifacts : after.db.agents.artifacts =
    Table.deleteFirst (artifactExpired dueMs dir.db.artifactExpiry) batch dir.db.agents.artifacts
  artifactExpiry : after.db.artifactExpiry = dir.db.artifactExpiry.filter fun entry =>
    after.db.agents.artifacts.any fun row => row.artifact.artifactId = entry.1
  sources : after.db.mirror.runtime.checkpointSources = Table.delete
    (fun row => (collectedRunIds scan dueMs batch dir.db).contains row.runId)
    dir.db.mirror.runtime.checkpointSources
  checkpoints : after.db.mirror.runtime.checkpoints = Table.delete
    (fun row => (collectedRunIds scan dueMs batch dir.db).contains row.runId)
    dir.db.mirror.runtime.checkpoints
  runs : after.db.mirror.runtime.runs = dir.db.mirror.runtime.runs
  blobs : after.blobs = dir.blobs.filter fun file =>
    !(((sweepIds (expiredBlobIds scan dueMs (batch * 2) dir.db) batch dir).takeWhile
      isBlobId).contains file.blobId && !isReferenced after.db file.blobId)

theorem finishCollection_dir (counts : GarbageCollectionResult) (committed : DataDirectory)
    (blobIds : List String) :
    let result := finishCollection counts committed.db (collectBlobs blobIds { dir := committed })
    result.2.blobs = (collectBlobs blobIds { dir := committed }).2.dir.blobs ∧
      ∃ fileBlobs, result.2.db =
        { committed.db with mirror := { committed.db.mirror with fileBlobs } } := by
  have hdb := collectBlobs_db blobIds { dir := committed }
  generalize collectBlobs blobIds { dir := committed } = swept at hdb ⊢
  obtain ⟨failure, sweep⟩ := swept
  cases failure with
  | none => exact ⟨rfl, hdb⟩
  | some e => exact ⟨rfl, committed.db.mirror.fileBlobs, rfl⟩

theorem collected_of_accepted (hlow : 1 ≤ batchSize) (hhigh : batchSize ≤ 10000)
    (scan : ScanOrder) (dueMs : Int) (dir : DataDirectory) :
    Collected scan dueMs batchSize.toNat dir (garbageCollect scan dueMs batchSize dir).2 := by
  have hidempotency : ∃ idempotency, Idempotency.garbageCollect dueMs batchSize
      dir.db.idempotency = .ok idempotency := by
    unfold Idempotency.garbageCollect
    rw [if_neg (by omega)]
    exact ⟨_, rfl⟩
  obtain ⟨idempotency, hidempotency⟩ := hidempotency
  unfold garbageCollect
  rw [hidempotency]
  dsimp only
  let committed : DataDirectory :=
    { dir with db := collectRows scan dueMs batchSize.toNat { dir.db with idempotency } }
  let ids := sweepIds (expiredBlobIds scan dueMs (batchSize.toNat * 2) dir.db) batchSize.toNat dir
  obtain ⟨hafter, fileBlobs, hrows⟩ := finishCollection_dir
    (collectionCounts scan dueMs batchSize.toNat dir.db) committed ids
  rw [collectBlobs_blobs] at hafter
  refine ⟨?_, ?_, ?_, ?_, ?_, ?_, ?_, ?_, ?_⟩
  · exact congrArg (fun db => db.mirror.runtime.events) hrows
  · exact congrArg (fun db => db.mirror.messages) hrows
  · exact congrArg (fun db => db.mirror.attachments) hrows
  · exact congrArg (fun db => db.agents.artifacts) hrows
  · refine (congrArg StorageDatabase.artifactExpiry hrows).trans ?_
    exact congrArg (fun db : StorageDatabase => dir.db.artifactExpiry.filter fun entry =>
      db.agents.artifacts.any fun row => row.artifact.artifactId = entry.1) hrows.symm
  · exact congrArg (fun db => db.mirror.runtime.checkpointSources) hrows
  · exact congrArg (fun db => db.mirror.runtime.checkpoints) hrows
  · exact congrArg (fun db => db.mirror.runtime.runs) hrows
  · refine hafter.trans ?_
    exact congrArg (fun db => dir.blobs.filter fun file =>
      !((ids.takeWhile isBlobId).contains file.blobId && !isReferenced db file.blobId)) hrows.symm

theorem garbageCollect_refused (hbatch : batchSize < 1 ∨ batchSize > 10000) (scan : ScanOrder)
    (dueMs : Int) (dir : DataDirectory) : (garbageCollect scan dueMs batchSize dir).2 = dir := by
  unfold garbageCollect Idempotency.garbageCollect
  rw [if_pos hbatch]

/-! ### The survivors -/

section Survivors

variable (hcollected : Collected scan dueMs batch dir after)
include hcollected

end Survivors

end StorageMaintenance

end Codex2Lark
