import Codex2Lark.Lib.Runs
import Codex2Lark.Storage.TaskQueue

/-!
The transactions of the runtime database as labels. Every label commits or rolls
back on its own; the identifiers that a transaction draws are part of its label.
-/

namespace Codex2Lark

open Lib

inductive StoreOp where
  | admitEvent (event : NormalizedEvent) (command : TaskCommand)
      (acknowledgement : Option OutboxDraft) (taskId outboxId : String) (nowMs : Int)
  | enqueueTaskOutbox (taskId : String) (draft : OutboxDraft) (outboxId : String) (nowMs : Int)
  | requestApproval (request : RuntimeStore.ApprovalRequest) (outboxId : String) (nowMs : Int)
  | decideApproval (args : RuntimeStore.ApprovalDecision) (outboxId : String) (nowMs : Int)
  | admitControl (args : RuntimeStore.ControlAdmission) (controlId outboxId : String)
      (nowMs : Int)
  | acknowledgeControls (taskId : String) (controlIds : List String) (nowMs : Int)
  | leaseTasks (args : TaskQueue.LeaseArgs) (limits : Option TaskConcurrencyLimits)
  | finishTask (args : TaskQueue.FinishTask) (outboxId : String) (nowMs : Int)
  | retryTask (taskId workerId : String) (availableAtMs : Int) (errorCode : String) (nowMs : Int)
  | deferTask (taskId workerId : String) (availableAtMs : Int) (reason : String) (nowMs : Int)
  | startRun (args : SessionStore.StartRun) (nowMs : Int)
  | appendEvent (runId eventType : String) (payload : List (String × Json)) (nowMs : Int)
  | saveCheckpoint (checkpoint : RunCheckpoint) (nowMs : Int)
  | discardCheckpoint (runId : String)
  | tryFinishWithOutcome (runId : String) (outcome : AgentOutcome)
      (appliedControlIds : List String) (nowMs : Int)

/-- The tables after one transaction. -/
def Database.committed {α : Type} (operation : Database → Except PyError (α × Database))
    (db : Database) : Database :=
  (db.transaction operation).2

def StoreOp.apply (db : Database) : StoreOp → Database
  | .admitEvent event command acknowledgement taskId outboxId nowMs =>
      db.committed (RuntimeStore.admitEvent event command acknowledgement taskId outboxId nowMs)
  | .enqueueTaskOutbox taskId draft outboxId nowMs =>
      db.committed (RuntimeStore.enqueueTaskOutbox taskId draft outboxId nowMs)
  | .requestApproval request outboxId nowMs =>
      db.committed (RuntimeStore.requestApproval request outboxId nowMs)
  | .decideApproval args outboxId nowMs =>
      db.committed (RuntimeStore.decideApproval args outboxId nowMs)
  | .admitControl args controlId outboxId nowMs =>
      db.committed (RuntimeStore.admitControl args controlId outboxId nowMs)
  | .acknowledgeControls taskId controlIds nowMs =>
      RuntimeStore.acknowledgeControls taskId controlIds nowMs db
  | .leaseTasks args limits => db.committed (TaskQueue.leaseTasks args limits)
  | .finishTask args outboxId nowMs => db.committed (TaskQueue.finishTask args outboxId nowMs)
  | .retryTask taskId workerId availableAtMs errorCode nowMs =>
      db.committed (TaskQueue.retryTask taskId workerId availableAtMs errorCode nowMs)
  | .deferTask taskId workerId availableAtMs reason nowMs =>
      db.committed (TaskQueue.deferTask taskId workerId availableAtMs reason nowMs)
  | .startRun args nowMs => db.committed (SessionStore.startRun args nowMs)
  | .appendEvent runId eventType payload nowMs =>
      db.committed (SessionStore.appendEvent runId eventType payload nowMs)
  | .saveCheckpoint checkpoint nowMs =>
      db.committed (SessionStore.saveCheckpoint checkpoint nowMs)
  | .discardCheckpoint runId => db.committed (SessionStore.discardCheckpoint runId)
  | .tryFinishWithOutcome runId outcome appliedControlIds nowMs =>
      db.committed (SessionStore.tryFinishWithOutcome runId outcome appliedControlIds nowMs)

def StoreOp.step (db : Database) (op : StoreOp) : Option Database := some (op.apply db)

namespace Database

variable {α : Type}

theorem committed_ok {operation : Database → Except PyError (α × Database)} {db after : Database}
    {value : α} (hok : operation db = .ok (value, after)) : db.committed operation = after := by
  simp [committed, transaction, hok]

theorem committed_error {operation : Database → Except PyError (α × Database)} {db : Database}
    {e : PyError} (herror : operation db = .error e) : db.committed operation = db := by
  simp [committed, transaction, herror]

/-- A relation that is reflexive and holds of every successful operation holds
of the transaction. -/
theorem committed_rel {operation : Database → Except PyError (α × Database)}
    {R : Database → Database → Prop} (db : Database) (hrefl : R db db)
    (hok : ∀ value after, operation db = .ok (value, after) → R db after) :
    R db (db.committed operation) := by
  cases hop : operation db with
  | error e =>
      rw [committed_error hop]
      exact hrefl
  | ok result =>
      obtain ⟨value, after⟩ := result
      rw [committed_ok hop]
      exact hok value after hop

/-- Part of the tables that every successful operation leaves alone. -/
theorem committed_column {β : Type} (column : Database → β)
    {operation : Database → Except PyError (α × Database)} {db : Database}
    (hok : ∀ value after, operation db = .ok (value, after) → column after = column db) :
    column (db.committed operation) = column db :=
  committed_rel (R := fun before after => column after = column before) db rfl hok

end Database

/-! ### The tables of the exchange with the outside -/

/-- Nothing is admitted, decided or put into the outbox. -/
structure SameExchange (db after : Database) : Prop where
  events : after.events = db.events
  eventSequence : after.eventSequence = db.eventSequence
  approvals : after.approvals = db.approvals
  outbox : after.outbox = db.outbox

theorem SameExchange.refl (db : Database) : SameExchange db db := ⟨rfl, rfl, rfl, rfl⟩

/-- The transactions that only move tasks, runs, controls and checkpoints. -/
def StoreOp.isInternal : StoreOp → Bool
  | .admitEvent .. | .enqueueTaskOutbox .. | .requestApproval .. | .decideApproval ..
  | .admitControl .. | .finishTask .. => false
  | .acknowledgeControls .. | .leaseTasks .. | .retryTask .. | .deferTask .. | .startRun ..
  | .appendEvent .. | .saveCheckpoint .. | .discardCheckpoint _ | .tryFinishWithOutcome .. => true

theorem closingInbox_exchange (db : Database) (taskId : String) (controlIds : List String)
    (nowMs : Int) : SameExchange db (SessionStore.closingInbox db taskId controlIds nowMs) := by
  unfold SessionStore.closingInbox
  split <;> exact ⟨rfl, rfl, rfl, rfl⟩

theorem StoreOp.sameExchange (db : Database) {op : StoreOp} (hinternal : op.isInternal = true) :
    SameExchange db (op.apply db) := by
  cases op with
  | admitEvent | enqueueTaskOutbox | requestApproval | decideApproval | admitControl
  | finishTask => cases hinternal
  | acknowledgeControls taskId controlIds nowMs =>
      simp only [StoreOp.apply, RuntimeStore.acknowledgeControls]
      split <;> exact ⟨rfl, rfl, rfl, rfl⟩
  | leaseTasks args limits =>
      refine Database.committed_rel db (.refl db) fun _ after hok => ?_
      rw [TaskQueue.leaseTasks_ok hok]
      exact ⟨rfl, rfl, rfl, rfl⟩
  | retryTask taskId workerId availableAtMs errorCode nowMs =>
      refine Database.committed_rel db (.refl db) fun _ after hok => ?_
      rw [TaskQueue.retryTask_ok hok]
      exact ⟨rfl, rfl, rfl, rfl⟩
  | deferTask taskId workerId availableAtMs reason nowMs =>
      refine Database.committed_rel db (.refl db) fun _ after hok => ?_
      rw [TaskQueue.deferTask_ok hok]
      exact ⟨rfl, rfl, rfl, rfl⟩
  | startRun args nowMs =>
      refine Database.committed_rel db (.refl db) fun _ after hok => ?_
      rw [(SessionStore.startRun_ok hok).1]
      exact ⟨rfl, rfl, rfl, rfl⟩
  | appendEvent runId eventType payload nowMs =>
      refine Database.committed_rel db (.refl db) fun _ after hok => ?_
      rw [SessionStore.appendEvent_ok hok]
      exact ⟨rfl, rfl, rfl, rfl⟩
  | saveCheckpoint checkpoint nowMs =>
      refine Database.committed_rel db (.refl db) fun _ after hok => ?_
      rw [SessionStore.saveCheckpoint_ok hok]
      exact ⟨rfl, rfl, rfl, rfl⟩
  | discardCheckpoint runId =>
      refine Database.committed_rel db (.refl db) fun _ after hok => ?_
      rw [SessionStore.discardCheckpoint_ok hok]
      exact ⟨rfl, rfl, rfl, rfl⟩
  | tryFinishWithOutcome runId outcome appliedControlIds nowMs =>
      refine Database.committed_rel db (.refl db) fun closed after hok => ?_
      obtain ⟨run, _, _, hcases⟩ := SessionStore.tryFinishWithOutcome_ok hok
      have hinbox := closingInbox_exchange db run.taskId appliedControlIds nowMs
      rcases hcases with ⟨_, _, _, rfl⟩ | ⟨_, _, rfl⟩
      · exact hinbox
      · split
        · exact ⟨hinbox.events, hinbox.eventSequence, hinbox.approvals, hinbox.outbox⟩
        · exact ⟨hinbox.events, hinbox.eventSequence, hinbox.approvals, hinbox.outbox⟩

end Codex2Lark
