import Codex2Lark.Storage.RunStatus

/-!
The stored checkpoint of one run under the transactions of the database: saving
replaces it, and whoever does not save it can at most delete it.
-/

namespace Codex2Lark

open Lib

namespace SessionStore

theorem loadCheckpoint_congr {db after : Database} (hsame : after.checkpoints = db.checkpoints)
    (runId : String) : loadCheckpoint runId after = loadCheckpoint runId db := by
  unfold loadCheckpoint
  rw [hsame]

theorem loadCheckpoint_save {checkpoint : RunCheckpoint} {nowMs : Int} {db after : Database}
    {value : Unit} (hok : saveCheckpoint checkpoint nowMs db = .ok (value, after)) :
    loadCheckpoint checkpoint.runId after = some checkpoint := by
  unfold saveCheckpoint at hok
  dsimp only at hok
  split at hok
  · cases hok
  · cases hok
    unfold loadCheckpoint
    dsimp only
    split
    · rename_i hstored
      obtain ⟨row, hmem, hrow⟩ := List.any_eq_true.mp hstored
      have hkeep : ∀ row : CheckpointRow,
          CheckpointRow.runId { row with payload := checkpoint, updatedAtMs := nowMs } =
            CheckpointRow.runId row := fun _ => rfl
      rw [Table.find?_update CheckpointRow.runId _ hkeep]
      cases hfind : db.checkpoints.find? fun row => row.runId = checkpoint.runId with
      | none =>
          have := List.find?_eq_none.mp hfind row hmem
          exact absurd hrow this
      | some found =>
          have hid : found.runId = checkpoint.runId := by simpa using List.find?_some hfind
          simp [hid]
    · rename_i hnone
      have hmissing : db.checkpoints.find? (fun row => row.runId = checkpoint.runId) = none := by
        rw [List.find?_eq_none]
        intro row hmem hrow
        exact hnone (List.any_eq_true.mpr ⟨row, hmem, hrow⟩)
      simp [List.find?_append, hmissing]

/-- Saving for another run. -/
theorem loadCheckpoint_save_other {checkpoint : RunCheckpoint} {nowMs : Int}
    {db after : Database} {value : Unit} {runId : String} (hother : checkpoint.runId ≠ runId)
    (hok : saveCheckpoint checkpoint nowMs db = .ok (value, after)) :
    loadCheckpoint runId after = loadCheckpoint runId db := by
  unfold saveCheckpoint at hok
  dsimp only at hok
  split at hok
  · cases hok
  · cases hok
    unfold loadCheckpoint
    dsimp only
    split
    · have hkeep : ∀ row : CheckpointRow,
          CheckpointRow.runId { row with payload := checkpoint, updatedAtMs := nowMs } =
            CheckpointRow.runId row := fun _ => rfl
      rw [Table.find?_update CheckpointRow.runId _ hkeep]
      cases hfind : db.checkpoints.find? fun row => row.runId = runId with
      | none => rfl
      | some found =>
          have hid : found.runId = runId := by simpa using List.find?_some hfind
          have hdiffers : ¬ found.runId = checkpoint.runId := fun h => hother (h.symm.trans hid)
          simp [hdiffers]
    · simp [List.find?_append, hother]

/-- A deletion removes a checkpoint or leaves it as it is. -/
theorem loadCheckpoint_discard {runId other : String} {db after : Database} {value : Unit}
    {checkpoint : RunCheckpoint} (hok : discardCheckpoint other db = .ok (value, after))
    (hload : loadCheckpoint runId after = some checkpoint) :
    loadCheckpoint runId db = some checkpoint := by
  cases hok
  unfold loadCheckpoint Table.delete at hload
  unfold loadCheckpoint
  rw [List.find?_filter] at hload
  by_cases hsame : other = runId
  · subst hsame
    have hnone : ∀ row : CheckpointRow,
        decide ((!decide (row.runId = other)) = true ∧ decide (row.runId = other) = true) =
          false := by
      intro row
      simp
    simp only [hnone] at hload
    have hnothing : db.checkpoints.find? (fun _ => false) = none := by simp
    rw [hnothing] at hload
    cases hload
  · rw [← hload]
    congr 2
    funext row
    by_cases hrow : row.runId = runId
    · have hkept : runId ≠ other := fun h => hsame h.symm
      simp [hrow, hkept]
    · simp [hrow]

/-- Going back over one transaction. -/
theorem loadCheckpoint_committed {α : Type}
    {operation : Database → Except PyError (α × Database)} {db : Database} {runId : String}
    {checkpoint : RunCheckpoint}
    (hok : ∀ value after, operation db = .ok (value, after) →
      loadCheckpoint runId after = some checkpoint → loadCheckpoint runId db = some checkpoint) :
    loadCheckpoint runId (db.committed operation) = some checkpoint →
      loadCheckpoint runId db = some checkpoint :=
  Database.committed_rel (R := fun before after => loadCheckpoint runId after = some checkpoint →
    loadCheckpoint runId before = some checkpoint) db id hok

end SessionStore

namespace StoreOp

/-- The run whose checkpoint the transaction writes. -/
def savesFor : StoreOp → Option String
  | .saveCheckpoint checkpoint _ => some checkpoint.runId
  | _ => none

/-- A checkpoint found after any other transaction was there before. -/
theorem checkpoint_before {db : Database} {op : StoreOp} {runId : String}
    {checkpoint : RunCheckpoint} (hop : op.savesFor ≠ some runId)
    (hload : SessionStore.loadCheckpoint runId (op.apply db) = some checkpoint) :
    SessionStore.loadCheckpoint runId db = some checkpoint := by
  revert hload
  cases op with
  | startRun args nowMs =>
      apply SessionStore.loadCheckpoint_committed
      intro value after hok hload
      rwa [SessionStore.loadCheckpoint_congr (by rw [(SessionStore.startRun_ok hok).1])] at hload
  | appendEvent other eventType payload nowMs =>
      apply SessionStore.loadCheckpoint_committed
      intro value after hok hload
      have hsame : after.checkpoints = db.checkpoints := by
        rw [SessionStore.appendEvent_ok hok]
        rfl
      rwa [SessionStore.loadCheckpoint_congr hsame] at hload
  | saveCheckpoint other nowMs =>
      apply SessionStore.loadCheckpoint_committed
      intro value after hok hload
      have hother : other.runId ≠ runId := fun h => hop (congrArg some h)
      rwa [SessionStore.loadCheckpoint_save_other hother hok] at hload
  | discardCheckpoint other =>
      apply SessionStore.loadCheckpoint_committed
      intro value after hok hload
      exact SessionStore.loadCheckpoint_discard hok hload
  | tryFinishWithOutcome other outcome appliedControlIds nowMs =>
      apply SessionStore.loadCheckpoint_committed
      intro closed after hok hload
      have hsame := (SessionStore.tryFinishWithOutcome_checkpoints hok).1
      rwa [SessionStore.loadCheckpoint_congr hsame] at hload
  | _ =>
      intro hload
      rwa [SessionStore.loadCheckpoint_congr (checkpoints_eq db rfl)] at hload

end StoreOp

end Codex2Lark
