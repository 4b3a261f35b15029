import Codex2Lark.Storage.Store

/-!
The run events are written and never read by the transactions: tables that differ in
them only differ in them only after any transaction, and what it returns is the same.
-/

namespace Codex2Lark

open Lib

namespace Database

/-- The tables with these rows for the run events. -/
def withRunEvents (db : Database) (rows : List RunEventRow) : Database :=
  { db with runEvents := rows }

section Columns

variable (db : Database) (rows : List RunEventRow)

@[simp] theorem events_withRunEvents : (db.withRunEvents rows).events = db.events := rfl

@[simp] theorem tasks_withRunEvents : (db.withRunEvents rows).tasks = db.tasks := rfl

@[simp] theorem runs_withRunEvents : (db.withRunEvents rows).runs = db.runs := rfl

@[simp] theorem controls_withRunEvents : (db.withRunEvents rows).controls = db.controls := rfl

@[simp] theorem outbox_withRunEvents : (db.withRunEvents rows).outbox = db.outbox := rfl

@[simp] theorem checkpoints_withRunEvents :
    (db.withRunEvents rows).checkpoints = db.checkpoints := rfl

@[simp] theorem findRun_withRunEvents (runId : String) :
    SessionStore.findRun (db.withRunEvents rows) runId = SessionStore.findRun db runId := rfl

@[simp] theorem runStatus_withRunEvents (runId : String) :
    SessionStore.runStatus runId (db.withRunEvents rows) = SessionStore.runStatus runId db := rfl

end Columns

/-- The two databases differ in the run events at most. -/
def SameTables (db db' : Database) : Prop := ∃ rows, db' = db.withRunEvents rows

theorem SameTables.refl (db : Database) : SameTables db db := ⟨db.runEvents, rfl⟩

theorem SameTables.symm {db db' : Database} (h : SameTables db db') : SameTables db' db := by
  obtain ⟨rows, rfl⟩ := h
  exact ⟨db.runEvents, rfl⟩

/-- What the operation returns and writes elsewhere does not depend on the run events. -/
def IgnoresRunEvents {α : Type} (operation : Database → Except PyError (α × Database)) : Prop :=
  ∀ db rows, ∃ rows', operation (db.withRunEvents rows) =
    (operation db).map fun result => (result.1, result.2.withRunEvents rows')

theorem IgnoresRunEvents.committed {α : Type}
    {operation : Database → Except PyError (α × Database)} (h : IgnoresRunEvents operation)
    {db db' : Database} (hsame : SameTables db db') :
    SameTables (db.committed operation) (db'.committed operation) := by
  obtain ⟨rows, rfl⟩ := hsame
  obtain ⟨rows', heq⟩ := h db rows
  cases hop : operation db with
  | error e =>
      rw [hop] at heq
      rw [committed_error hop, committed_error heq]
      exact ⟨rows, rfl⟩
  | ok result =>
      rw [hop] at heq
      rw [committed_ok hop, committed_ok heq]
      exact ⟨rows', rfl⟩

end Database

open Database

/-! ### Runs, events and checkpoints -/

namespace SessionStore

theorem startRun_ignores (args : StartRun) (nowMs : Int) :
    IgnoresRunEvents (startRun args nowMs) := by
  intro db rows
  refine ⟨rows, ?_⟩
  simp only [startRun, apply_ite (Except.map _)]
  rfl

theorem appendEvent_ignores (runId eventType : String) (payload : List (String × Json))
    (nowMs : Int) : IgnoresRunEvents (appendEvent runId eventType payload nowMs) := by
  intro db rows
  refine ⟨(insertEvent (db.withRunEvents rows) runId eventType payload nowMs).runEvents, ?_⟩
  simp only [appendEvent, apply_ite (Except.map _)]
  rfl

theorem saveCheckpoint_ignores (checkpoint : RunCheckpoint) (nowMs : Int) :
    IgnoresRunEvents (saveCheckpoint checkpoint nowMs) := by
  intro db rows
  refine ⟨rows, ?_⟩
  simp only [saveCheckpoint, apply_ite (Except.map _)]
  rfl

theorem discardCheckpoint_ignores (runId : String) :
    IgnoresRunEvents (discardCheckpoint runId) := fun _ rows => ⟨rows, rfl⟩

theorem closingInbox_withRunEvents (db : Database) (rows : List RunEventRow) (taskId : String)
    (controlIds : List String) (nowMs : Int) :
    closingInbox (db.withRunEvents rows) taskId controlIds nowMs =
      (closingInbox db taskId controlIds nowMs).withRunEvents rows := by
  unfold closingInbox
  split <;> rfl

theorem tryFinishWithOutcome_ignores (runId : String) (outcome : AgentOutcome)
    (appliedControlIds : List String) (nowMs : Int) :
    IgnoresRunEvents (tryFinishWithOutcome runId outcome appliedControlIds nowMs) := by
  intro db rows
  simp only [tryFinishWithOutcome, findRun_withRunEvents, closingInbox_withRunEvents]
  split
  · exact ⟨rows, rfl⟩
  · cases findRun db runId with
    | none => exact ⟨rows, rfl⟩
    | some run =>
        dsimp only
        split
        · exact ⟨rows, rfl⟩
        · generalize closingInbox db run.taskId appliedControlIds nowMs = inbox
          have hpending : hasPending (inbox.withRunEvents rows) run.taskId =
              hasPending inbox run.taskId := rfl
          rw [hpending]
          split
          · exact ⟨rows, rfl⟩
          · split
            · exact ⟨(closeRun (supersedeControls (inbox.withRunEvents rows) run.taskId nowMs) runId
                outcome nowMs).runEvents, rfl⟩
            · exact ⟨(closeRun (inbox.withRunEvents rows) runId outcome nowMs).runEvents, rfl⟩

end SessionStore

/-! ### Admissions and approvals -/

namespace RuntimeStore

theorem insertEvent_ignores (event : NormalizedEvent) (nowMs : Int) (db : Database)
    (rows : List RunEventRow) : insertEvent event nowMs (db.withRunEvents rows) =
      (insertEvent event nowMs db).map fun result => (result.1, result.2.withRunEvents rows) := by
  simp only [insertEvent, apply_ite (Except.map _)]
  rfl

theorem insertOutbox_withRunEvents (draft : OutboxDraft) (taskId outboxId : String) (nowMs : Int)
    (db : Database) (rows : List RunEventRow) :
    insertOutbox draft taskId outboxId nowMs (db.withRunEvents rows) =
      (insertOutbox draft taskId outboxId nowMs db).withRunEvents rows := by
  simp only [insertOutbox, apply_ite fun after : Database => after.withRunEvents rows]
  rfl

theorem admitEvent_ignores (event : NormalizedEvent) (command : TaskCommand)
    (acknowledgement : Option OutboxDraft) (taskId outboxId : String) (nowMs : Int) :
    IgnoresRunEvents (admitEvent event command acknowledgement taskId outboxId nowMs) := by
  intro db rows
  refine ⟨rows, ?_⟩
  simp only [admitEvent, events_withRunEvents, tasks_withRunEvents, insertEvent_ignores]
  split
  · rfl
  · cases insertEvent event nowMs db with
    | error e => rfl
    | ok inserted =>
        obtain ⟨pk, middle⟩ := inserted
        dsimp only [bind, Except.bind]
        rw [apply_ite (Except.map _)]
        refine if_congr Iff.rfl rfl ?_
        cases acknowledgement with
        | none => rfl
        | some draft =>
            dsimp only [Except.map]
            rw [← insertOutbox_withRunEvents]
            rfl

theorem enqueueTaskOutbox_ignores (taskId : String) (draft : OutboxDraft) (outboxId : String)
    (nowMs : Int) : IgnoresRunEvents (enqueueTaskOutbox taskId draft outboxId nowMs) := by
  intro db rows
  refine ⟨rows, ?_⟩
  simp only [enqueueTaskOutbox, insertOutbox_withRunEvents, apply_ite (Except.map _)]
  rfl

theorem requestApproval_ignores (request : ApprovalRequest) (outboxId : String) (nowMs : Int) :
    IgnoresRunEvents (requestApproval request outboxId nowMs) := by
  intro db rows
  refine ⟨rows, ?_⟩
  have hfind : findApproval request.approvalId (db.withRunEvents rows) =
      findApproval request.approvalId db := rfl
  simp only [requestApproval, hfind]
  split
  · split
    · rfl
    · split <;> rfl
  · have htasks : (db.withRunEvents rows).tasks = db.tasks := rfl
    rw [htasks]
    split
    · rfl
    · dsimp only [Except.map]
      rw [← insertOutbox_withRunEvents]
      rfl

theorem decideApproval_ignores (args : ApprovalDecision) (outboxId : String) (nowMs : Int) :
    IgnoresRunEvents (decideApproval args outboxId nowMs) := by
  intro db rows
  refine ⟨rows, ?_⟩
  have hfind : findApproval args.approvalId (db.withRunEvents rows) =
      findApproval args.approvalId db := rfl
  simp only [decideApproval, hfind, events_withRunEvents, insertEvent_ignores]
  split
  · rfl
  · split
    · rfl
    · split
      · rfl
      · cases insertEvent args.event nowMs db with
        | error e => rfl
        | ok inserted =>
            refine congrArg (fun after => Except.ok (_, after)) ?_
            rw [← insertOutbox_withRunEvents]
            congr 1
            dsimp only
            split <;> rfl

theorem insertControl_ignores (args : ControlAdmission) (controlId : String) (eventPk : Nat)
    (taskId : String) (nowMs : Int) (db : Database) (rows : List RunEventRow) :
    insertControl args controlId eventPk taskId nowMs (db.withRunEvents rows) =
      (insertControl args controlId eventPk taskId nowMs db).map
        fun result => (result.1, result.2.withRunEvents rows) := by
  simp only [insertControl, apply_ite (Except.map _)]
  rfl

theorem admitControl_ignores (args : ControlAdmission) (controlId outboxId : String)
    (nowMs : Int) : IgnoresRunEvents (admitControl args controlId outboxId nowMs) := by
  intro db rows
  refine ⟨rows, ?_⟩
  have hcandidate : controlCandidate (db.withRunEvents rows) args.sessionKey =
      controlCandidate db args.sessionKey := rfl
  simp only [admitControl, events_withRunEvents, controls_withRunEvents, hcandidate,
    insertEvent_ignores]
  split
  · rfl
  · split
    · rfl
    · split
      · rfl
      · split
        · rfl
        · cases insertEvent args.event nowMs db with
          | error e => rfl
          | ok inserted =>
              obtain ⟨pk, middle⟩ := inserted
              dsimp only [bind, Except.bind, Except.map]
              rw [insertControl_ignores]
              cases insertControl args controlId pk _ nowMs middle with
              | error e => rfl
              | ok controlled =>
                  dsimp only [Except.map]
                  rw [← insertOutbox_withRunEvents]

end RuntimeStore

/-! ### The task queue -/

namespace TaskQueue

theorem selectLimited_withRunEvents (limits : TaskConcurrencyLimits) (args : LeaseArgs)
    (rounds : Nat) (db : Database) (rows : List RunEventRow) :
    selectLimited limits args rounds (db.withRunEvents rows) =
      ((selectLimited limits args rounds db).1,
        (selectLimited limits args rounds db).2.withRunEvents rows) := by
  induction rounds generalizing db with
  | zero => rfl
  | succ rounds ih =>
      have hnext : nextCandidate limits args.nowMs (db.withRunEvents rows) =
          nextCandidate limits args.nowMs db := rfl
      simp only [selectLimited, hnext]
      cases nextCandidate limits args.nowMs db with
      | none => rfl
      | some task =>
          have hadvance := ih (advanceLanes task args.nowMs
            { db with tasks := leaseTask args task.taskId db.tasks })
          dsimp only
          exact congrArg (fun rest => (task.taskId :: rest.1, rest.2)) hadvance

theorem leaseTasks_ignores (args : LeaseArgs) (limits : Option TaskConcurrencyLimits) :
    IgnoresRunEvents (leaseTasks args limits) := by
  intro db rows
  refine ⟨rows, ?_⟩
  unfold leaseTasks
  split
  · rfl
  · cases limits with
    | none => rfl
    | some limits =>
        have hselect := selectLimited_withRunEvents limits args
          (min args.limit (limits.globalLimit -
            liveCount (sweepExpired args.nowMs db.tasks) args.nowMs fun _ => true))
          { db with tasks := sweepExpired args.nowMs db.tasks } rows
        exact congrArg (fun selected : List String × Database => Except.ok
          (((selected.2.tasks.filter fun task =>
            selected.1.contains task.taskId && task.leaseOwner = some args.workerId).insertionSort
              (fun a b => taskLe a b)).map (leasedTask selected.2), selected.2)) hselect

theorem updateOwned_ignores (taskId workerId : String) (change : TaskRow → TaskRow)
    (db : Database) (rows : List RunEventRow) :
    updateOwned taskId workerId change (db.withRunEvents rows) =
      (updateOwned taskId workerId change db).map
        fun result => (result.1, result.2.withRunEvents rows) := by
  simp only [updateOwned, apply_ite (Except.map _)]
  rfl

theorem finishTask_ignores (args : FinishTask) (outboxId : String) (nowMs : Int) :
    IgnoresRunEvents (finishTask args outboxId nowMs) := by
  intro db rows
  refine ⟨rows, ?_⟩
  simp only [finishTask, updateOwned_ignores]
  split
  · rfl
  · cases updateOwned args.taskId args.workerId (finished args nowMs) db with
    | error e => rfl
    | ok updated =>
        cases args.terminalMessage with
        | none => rfl
        | some draft =>
            dsimp only [Except.map, bind, Except.bind]
            rw [← RuntimeStore.insertOutbox_withRunEvents]

theorem retryTask_ignores (taskId workerId : String) (availableAtMs : Int) (errorCode : String)
    (nowMs : Int) : IgnoresRunEvents (retryTask taskId workerId availableAtMs errorCode nowMs) :=
  fun db rows => ⟨rows, updateOwned_ignores taskId workerId _ db rows⟩

theorem deferTask_ignores (taskId workerId : String) (availableAtMs : Int) (reason : String)
    (nowMs : Int) : IgnoresRunEvents (deferTask taskId workerId availableAtMs reason nowMs) := by
  intro db rows
  refine ⟨rows, ?_⟩
  simp only [deferTask, updateOwned_ignores, apply_ite (Except.map _)]
  rfl

end TaskQueue

theorem RuntimeStore.acknowledgeControls_sameTables {db db' : Database} (h : SameTables db db')
    (taskId : String) (controlIds : List String) (nowMs : Int) :
    SameTables (acknowledgeControls taskId controlIds nowMs db)
      (acknowledgeControls taskId controlIds nowMs db') := by
  obtain ⟨rows, rfl⟩ := h
  refine ⟨rows, ?_⟩
  unfold acknowledgeControls
  split <;> rfl

/-- Every transaction keeps tables the same that are the same but for the run events. -/
theorem StoreOp.apply_sameTables (op : StoreOp) {db db' : Database} (h : SameTables db db') :
    SameTables (op.apply db) (op.apply db') := by
  cases op with
  | admitEvent event command acknowledgement taskId outboxId nowMs =>
      exact (RuntimeStore.admitEvent_ignores event command acknowledgement taskId outboxId
        nowMs).committed h
  | enqueueTaskOutbox taskId draft outboxId nowMs =>
      exact (RuntimeStore.enqueueTaskOutbox_ignores taskId draft outboxId nowMs).committed h
  | requestApproval request outboxId nowMs =>
      exact (RuntimeStore.requestApproval_ignores request outboxId nowMs).committed h
  | decideApproval args outboxId nowMs =>
      exact (RuntimeStore.decideApproval_ignores args outboxId nowMs).committed h
  | admitControl args controlId outboxId nowMs =>
      exact (RuntimeStore.admitControl_ignores args controlId outboxId nowMs).committed h
  | acknowledgeControls taskId controlIds nowMs =>
      exact RuntimeStore.acknowledgeControls_sameTables h taskId controlIds nowMs
  | leaseTasks args limits => exact (TaskQueue.leaseTasks_ignores args limits).committed h
  | finishTask args outboxId nowMs =>
      exact (TaskQueue.finishTask_ignores args outboxId nowMs).committed h
  | retryTask taskId workerId availableAtMs errorCode nowMs =>
      exact (TaskQueue.retryTask_ignores taskId workerId availableAtMs errorCode nowMs).committed h
  | deferTask taskId workerId availableAtMs reason nowMs =>
      exact (TaskQueue.deferTask_ignores taskId workerId availableAtMs reason nowMs).committed h
  | startRun args nowMs => exact (SessionStore.startRun_ignores args nowMs).committed h
  | appendEvent runId eventType payload nowMs =>
      exact (SessionStore.appendEvent_ignores runId eventType payload nowMs).committed h
  | saveCheckpoint checkpoint nowMs =>
      exact (SessionStore.saveCheckpoint_ignores checkpoint nowMs).committed h
  | discardCheckpoint runId => exact (SessionStore.discardCheckpoint_ignores runId).committed h
  | tryFinishWithOutcome runId outcome appliedControlIds nowMs =>
      exact (SessionStore.tryFinishWithOutcome_ignores runId outcome appliedControlIds
        nowMs).committed h

end Codex2Lark
