import Codex2Lark.Storage.Store

/-!
The control inbox and the task queue. A control is admitted for an open task
only, so a pending control on a terminal task can only come from the transaction
that makes the task terminal.
-/

namespace Codex2Lark

open Lib

/-- Rows keep their identifiers, and none of them becomes terminal. -/
structure TasksProgress (before after : List TaskRow) : Prop where
  sameIds : after.map TaskRow.taskId = before.map TaskRow.taskId
  noneCloses : ∀ row ∈ after, ∃ old ∈ before, old.taskId = row.taskId ∧
    (row.state.isTerminal = true → old.state.isTerminal = true)

namespace TasksProgress

theorem refl (tasks : List TaskRow) : TasksProgress tasks tasks :=
  ⟨rfl, fun row hmem => ⟨row, hmem, rfl, id⟩⟩

theorem trans {first second third : List TaskRow} (hfirst : TasksProgress first second)
    (hsecond : TasksProgress second third) : TasksProgress first third := by
  refine ⟨hsecond.sameIds.trans hfirst.sameIds, ?_⟩
  intro row hmem
  obtain ⟨middle, hmiddle, hid, hstate⟩ := hsecond.noneCloses row hmem
  obtain ⟨old, hold, hid', hstate'⟩ := hfirst.noneCloses middle hmiddle
  exact ⟨old, hold, hid'.trans hid, hstate' ∘ hstate⟩

theorem update {cond : TaskRow → Bool} {change : TaskRow → TaskRow} (tasks : List TaskRow)
    (hid : ∀ row, (change row).taskId = row.taskId)
    (hopen : ∀ row, (change row).state.isTerminal = false) :
    TasksProgress tasks (Table.update cond change tasks) := by
  refine ⟨Table.map_update TaskRow.taskId hid, ?_⟩
  intro row hmem
  rcases Table.mem_update_cases hmem with ⟨hold, _⟩ | ⟨old, hold, _, rfl⟩
  · exact ⟨row, hold, rfl, id⟩
  · refine ⟨old, hold, (hid old).symm, ?_⟩
    intro hterminal
    rw [hopen old] at hterminal
    cases hterminal

end TasksProgress

namespace TaskQueue

theorem sweepExpired_progress (nowMs : Int) (tasks : List TaskRow) :
    TasksProgress tasks (sweepExpired nowMs tasks) := by
  unfold sweepExpired
  refine TasksProgress.trans (TasksProgress.update tasks ?_ ?_) (TasksProgress.update _ ?_ ?_)
  all_goals
    intro row
    rfl

theorem leaseTask_progress (args : LeaseArgs) (taskId : String) (tasks : List TaskRow) :
    TasksProgress tasks (leaseTask args taskId tasks) :=
  TasksProgress.update tasks (fun _ => rfl) fun _ => rfl

theorem leaseAll_progress (args : LeaseArgs) (taskIds : List String) (tasks : List TaskRow) :
    TasksProgress tasks
      (taskIds.foldl (fun tasks taskId => leaseTask args taskId tasks) tasks) := by
  induction taskIds generalizing tasks with
  | nil => exact TasksProgress.refl tasks
  | cons taskId rest ih => exact (leaseTask_progress args taskId tasks).trans (ih _)

theorem selectLimited_progress (limits : TaskConcurrencyLimits) (args : LeaseArgs)
    (rounds : Nat) (db : Database) :
    TasksProgress db.tasks (selectLimited limits args rounds db).2.tasks := by
  induction rounds generalizing db with
  | zero => exact TasksProgress.refl _
  | succ rounds ih =>
      unfold selectLimited
      cases hnext : nextCandidate limits args.nowMs db with
      | none => exact TasksProgress.refl _
      | some task =>
          exact (leaseTask_progress args task.taskId db.tasks).trans
            (ih (advanceLanes task args.nowMs
              { db with tasks := leaseTask args task.taskId db.tasks }))

/-- Leasing, the sweep included, closes no task. -/
theorem leaseTasks_progress {args : LeaseArgs} {limits : Option TaskConcurrencyLimits}
    {db after : Database} {leased : List LeasedTask}
    (hok : leaseTasks args limits db = .ok (leased, after)) :
    TasksProgress db.tasks after.tasks := by
  unfold leaseTasks at hok
  split at hok
  · cases hok
  · cases hok
    refine (sweepExpired_progress args.nowMs db.tasks).trans ?_
    cases limits with
    | none => exact leaseAll_progress args _ _
    | some limits =>
        exact selectLimited_progress limits args _
          { db with tasks := sweepExpired args.nowMs db.tasks }

end TaskQueue

/-- Controls that are pending afterwards were pending before, as the same rows. -/
def NoneReopens (before after : List ControlRow) : Prop :=
  ∀ row ∈ after, row.state = .pending → row ∈ before

theorem noneReopens_update {cond : ControlRow → Bool} {change : ControlRow → ControlRow}
    (controls : List ControlRow) (hclose : ∀ row, (change row).state ≠ .pending) :
    NoneReopens controls (Table.update cond change controls) := by
  intro row hmem hpending
  rcases Table.mem_update_cases hmem with ⟨hold, _⟩ | ⟨old, _, _, rfl⟩
  · exact hold
  · exact absurd hpending (hclose old)

namespace SessionStore

theorem closingInbox_reopens (db : Database) (taskId : String) (controlIds : List String)
    (nowMs : Int) :
    NoneReopens db.controls (closingInbox db taskId controlIds nowMs).controls := by
  unfold closingInbox
  split
  · exact fun row hmem _ => hmem
  · exact noneReopens_update _ fun row => by simp

/-- A closing attempt leaves the tasks alone and reopens no control. -/
theorem tryFinishWithOutcome_inbox {runId : String} {outcome : AgentOutcome}
    {appliedControlIds : List String} {nowMs : Int} {db after : Database} {closed : Bool}
    (hok : tryFinishWithOutcome runId outcome appliedControlIds nowMs db = .ok (closed, after)) :
    after.tasks = db.tasks ∧ NoneReopens db.controls after.controls := by
  obtain ⟨run, _, _, hcases⟩ := tryFinishWithOutcome_ok hok
  have htasks : (closingInbox db run.taskId appliedControlIds nowMs).tasks = db.tasks := by
    unfold closingInbox
    split <;> rfl
  have hinbox := closingInbox_reopens db run.taskId appliedControlIds nowMs
  rcases hcases with ⟨_, _, _, rfl⟩ | ⟨_, _, rfl⟩
  · exact ⟨htasks, hinbox⟩
  · split
    · refine ⟨htasks, ?_⟩
      intro row hmem hpending
      exact hinbox row (noneReopens_update _ (fun row => by simp) row hmem hpending) hpending
    · exact ⟨htasks, hinbox⟩

end SessionStore

namespace Database

/-- Every pending control waits for an open task. -/
def NoStrandedControl (db : Database) : Prop :=
  ∀ control ∈ db.controls, control.state = .pending →
    ∀ task ∈ db.tasks, task.taskId = control.targetTaskId → task.state.isTerminal = false

instance (db : Database) : Decidable db.NoStrandedControl :=
  inferInstanceAs (Decidable (∀ control ∈ db.controls, control.state = .pending →
    ∀ task ∈ db.tasks, task.taskId = control.targetTaskId → task.state.isTerminal = false))

structure InboxOk (db : Database) : Prop where
  uniqueTasks : (db.tasks.map TaskRow.taskId).Nodup
  noStranded : db.NoStrandedControl

/-- Neither the tasks nor the controls move towards a stranded control. -/
structure InboxProgress (before after : Database) : Prop where
  tasks : TasksProgress before.tasks after.tasks
  controls : NoneReopens before.controls after.controls

theorem InboxProgress.of_same {before after : Database} (htasks : after.tasks = before.tasks)
    (hcontrols : after.controls = before.controls) : InboxProgress before after :=
  ⟨htasks ▸ TasksProgress.refl _, fun _ hmem _ => hcontrols ▸ hmem⟩

theorem InboxProgress.refl (db : Database) : InboxProgress db db := .of_same rfl rfl

theorem InboxOk.progress {before after : Database} (hok : before.InboxOk)
    (hprogress : InboxProgress before after) : after.InboxOk := by
  refine ⟨by rw [hprogress.tasks.sameIds]; exact hok.uniqueTasks, ?_⟩
  intro control hmem hpending task htask hid
  obtain ⟨old, hold, hsame, hstate⟩ := hprogress.tasks.noneCloses task htask
  have hopen := hok.noStranded control (hprogress.controls control hmem hpending) hpending old hold
    (hsame.trans hid)
  by_contra hterminal
  rw [hstate (by simpa using hterminal)] at hopen
  cases hopen

end Database

/-- A task is finished only when no control waits for it. -/
def FinishesWithEmptyInbox (db : Database) : StoreOp → Prop
  | .finishTask args _ _ => args.state.isTerminal = true →
      Table.rowcount (TaskQueue.ownedBy args.taskId args.workerId) db.tasks = 1 →
        SessionStore.hasPending db args.taskId = false
  | _ => True

/-- The operations that open no control and close no task. -/
theorem inboxProgress_of_other (db : Database) {op : StoreOp}
    (hop : match op with
      | .admitEvent .. | .admitControl .. | .finishTask .. => False
      | _ => True) : Database.InboxProgress db (op.apply db) := by
  have hrefl := Database.InboxProgress.refl db
  cases op with
  | admitEvent event command acknowledgement taskId outboxId nowMs => exact hop.elim
  | admitControl args controlId outboxId nowMs => exact hop.elim
  | finishTask args outboxId nowMs => exact hop.elim
  | enqueueTaskOutbox taskId draft outboxId nowMs =>
      refine Database.committed_rel db hrefl fun value after hok => ?_
      rw [RuntimeStore.enqueueTaskOutbox_ok hok]
      exact .of_same rfl rfl
  | requestApproval request outboxId nowMs =>
      refine Database.committed_rel db hrefl fun value after hok => ?_
      rw [RuntimeStore.requestApproval_ok hok]
      exact .of_same rfl rfl
  | decideApproval args outboxId nowMs =>
      refine Database.committed_rel db hrefl fun value after hok => ?_
      rw [RuntimeStore.decideApproval_ok hok]
      exact .of_same rfl rfl
  | acknowledgeControls taskId controlIds nowMs =>
      simp only [StoreOp.apply, RuntimeStore.acknowledgeControls]
      split
      · exact hrefl
      · exact ⟨TasksProgress.refl _, noneReopens_update _ fun row => by simp⟩
  | leaseTasks args limits =>
      refine Database.committed_rel db hrefl fun value after hok => ?_
      have hprogress := TaskQueue.leaseTasks_progress hok
      refine ⟨hprogress, ?_⟩
      rw [TaskQueue.leaseTasks_ok hok]
      exact fun row hmem _ => hmem
  | retryTask taskId workerId availableAtMs errorCode nowMs =>
      refine Database.committed_rel db hrefl fun value after hok => ?_
      obtain ⟨_, rfl⟩ := TaskQueue.updateOwned_ok hok
      exact ⟨TasksProgress.update _ (fun _ => rfl) fun _ => rfl, fun row hmem _ => hmem⟩
  | deferTask taskId workerId availableAtMs reason nowMs =>
      refine Database.committed_rel db hrefl fun value after hok => ?_
      unfold TaskQueue.deferTask at hok
      split at hok
      · cases hok
      · obtain ⟨_, rfl⟩ := TaskQueue.updateOwned_ok hok
        exact ⟨TasksProgress.update _ (fun _ => rfl) fun _ => rfl, fun row hmem _ => hmem⟩
  | startRun args nowMs =>
      refine Database.committed_rel db hrefl fun value after hok => ?_
      rw [(SessionStore.startRun_ok hok).1]
      exact .of_same rfl rfl
  | appendEvent runId eventType payload nowMs =>
      refine Database.committed_rel db hrefl fun value after hok => ?_
      rw [SessionStore.appendEvent_ok hok]
      exact .of_same rfl rfl
  | saveCheckpoint checkpoint nowMs =>
      refine Database.committed_rel db hrefl fun value after hok => ?_
      rw [SessionStore.saveCheckpoint_ok hok]
      exact .of_same rfl rfl
  | discardCheckpoint runId =>
      refine Database.committed_rel db hrefl fun value after hok => ?_
      rw [SessionStore.discardCheckpoint_ok hok]
      exact .of_same rfl rfl
  | tryFinishWithOutcome runId outcome appliedControlIds nowMs =>
      refine Database.committed_rel db hrefl fun value after hok => ?_
      obtain ⟨htasks, hcontrols⟩ := SessionStore.tryFinishWithOutcome_inbox hok
      exact ⟨htasks ▸ TasksProgress.refl _, hcontrols⟩

namespace Database

theorem InboxOk.admitEvent {db after : Database} (hok : db.InboxOk) {event : NormalizedEvent}
    {command : TaskCommand} {acknowledgement : Option OutboxDraft} {taskId outboxId : String}
    {nowMs : Int} {result : RuntimeStore.AdmissionResult}
    (hadmission : RuntimeStore.admitEvent event command acknowledgement taskId outboxId nowMs db =
      .ok (result, after)) : after.InboxOk := by
  obtain ⟨hafter, htasks⟩ := RuntimeStore.admitEvent_ok hadmission
  have hcontrols : after.controls = db.controls := by rw [hafter]
  rcases htasks with hsame | ⟨row, htasks, hpending, hfresh⟩
  · exact hok.progress (.of_same hsame hcontrols)
  · refine ⟨?_, ?_⟩
    · rw [htasks, List.map_append]
      refine List.nodup_append.mpr ⟨hok.uniqueTasks, List.nodup_singleton _, ?_⟩
      simp only [List.mem_map, List.map_cons, List.map_nil, List.mem_singleton]
      rintro _ ⟨task, htask, rfl⟩ _ rfl
      exact hfresh task htask
    · intro control hmem hwaiting task htask hid
      rw [hcontrols] at hmem
      rw [htasks] at htask
      rcases List.mem_append.mp htask with hold | hnew
      · exact hok.noStranded control hmem hwaiting task hold hid
      · rw [List.mem_singleton.mp hnew, hpending]
        rfl

/-- The target of a new control is open, and no other row has its identifier. -/
theorem InboxOk.admitControl {db after : Database} (hok : db.InboxOk)
    {args : RuntimeStore.ControlAdmission} {controlId outboxId : String} {nowMs : Int}
    {result : Option RuntimeStore.ControlAdmissionResult}
    (hadmission : RuntimeStore.admitControl args controlId outboxId nowMs db =
      .ok (result, after)) : after.InboxOk := by
  obtain ⟨hafter, hcontrols⟩ := RuntimeStore.admitControl_ok hadmission
  have htasks : after.tasks = db.tasks := by rw [hafter]
  rcases hcontrols with hsame | ⟨target, htarget, row, hcandidate, hrow, _, _, _, _, _, _, hcontrols⟩
  · exact hok.progress (.of_same htasks hsame)
  · refine ⟨by rw [htasks]; exact hok.uniqueTasks, ?_⟩
    intro control hmem hwaiting task htask hid
    rw [htasks] at htask
    rw [hcontrols] at hmem
    rcases List.mem_append.mp hmem with hold | hnew
    · exact hok.noStranded control hold hwaiting task htask hid
    · have hsame : task = target := by
        refine List.inj_on_of_nodup_map hok.uniqueTasks htask htarget ?_
        rw [hid, List.mem_singleton.mp hnew, hrow]
      have hopen : target.state = .pending ∨ target.state = .leased := by
        simp only [RuntimeStore.isControlCandidate, Bool.and_eq_true, Bool.or_eq_true,
          decide_eq_true_eq] at hcandidate
        exact hcandidate.1.2
      rw [hsame]
      rcases hopen with hopen | hopen <;> rw [hopen] <;> rfl

theorem InboxOk.finishTask {db after : Database} (hok : db.InboxOk) {args : TaskQueue.FinishTask}
    {outboxId : String} {nowMs : Int} {value : Unit}
    (hguard : FinishesWithEmptyInbox db (.finishTask args outboxId nowMs))
    (hfinish : TaskQueue.finishTask args outboxId nowMs db = .ok (value, after)) :
    after.InboxOk := by
  obtain ⟨hterminal, hcount, hafter⟩ := TaskQueue.finishTask_ok hfinish
  have hempty := hguard hterminal hcount
  have hcontrols : after.controls = db.controls := by rw [hafter]
  have htasks : after.tasks = Table.update (TaskQueue.ownedBy args.taskId args.workerId)
      (TaskQueue.finished args nowMs) db.tasks := by rw [hafter]
  refine ⟨?_, ?_⟩
  · rw [htasks, Table.map_update TaskRow.taskId (TaskQueue.finished_taskId args nowMs)]
    exact hok.uniqueTasks
  · intro control hmem hwaiting task htask hid
    rw [hcontrols] at hmem
    rw [htasks] at htask
    rcases Table.mem_update_cases htask with ⟨hold, _⟩ | ⟨old, hold, howned, rfl⟩
    · exact hok.noStranded control hmem hwaiting task hold hid
    · exfalso
      have hthis : old.taskId = args.taskId := by
        simp only [TaskQueue.ownedBy, Bool.and_eq_true, decide_eq_true_eq] at howned
        exact howned.1.1
      have hpending : SessionStore.hasPending db args.taskId = true := by
        refine List.any_eq_true.mpr ⟨control, hmem, ?_⟩
        simp only [Bool.and_eq_true, decide_eq_true_eq]
        exact ⟨hid.symm.trans hthis, hwaiting⟩
      rw [hempty] at hpending
      cases hpending

theorem InboxOk.apply {db : Database} (hok : db.InboxOk) {op : StoreOp}
    (hguard : FinishesWithEmptyInbox db op) : (op.apply db).InboxOk := by
  cases op with
  | admitEvent event command acknowledgement taskId outboxId nowMs =>
      exact Database.committed_rel (R := fun before after => before.InboxOk → after.InboxOk) db id
        (fun _ _ hadmission hok => hok.admitEvent hadmission) hok
  | admitControl args controlId outboxId nowMs =>
      exact Database.committed_rel (R := fun before after => before.InboxOk → after.InboxOk) db id
        (fun _ _ hadmission hok => hok.admitControl hadmission) hok
  | finishTask args outboxId nowMs =>
      refine Database.committed_rel (R := fun _ after => after.InboxOk) db hok ?_
      exact fun _ _ hfinish => hok.finishTask hguard hfinish
  | _ => exact hok.progress (inboxProgress_of_other db trivial)

/-- A finish that commits over a waiting control strands it. -/
theorem finishesWithEmptyInbox_of_noStranded {db : Database} {op : StoreOp}
    (hafter : (op.apply db).NoStrandedControl) : FinishesWithEmptyInbox db op := by
  cases op with
  | finishTask args outboxId nowMs =>
      intro hterminal hcount
      cases hpending : SessionStore.hasPending db args.taskId with
      | false => rfl
      | true =>
          exfalso
          obtain ⟨control, hmem, hwaiting⟩ := List.any_eq_true.mp hpending
          simp only [Bool.and_eq_true, decide_eq_true_eq] at hwaiting
          obtain ⟨task, htask, howned⟩ := List.countP_pos_iff.mp
            (show 0 < db.tasks.countP (TaskQueue.ownedBy args.taskId args.workerId) by
              simp only [Table.rowcount] at hcount
              omega)
          obtain ⟨after, hfinish⟩ : ∃ after,
              TaskQueue.finishTask args outboxId nowMs db = .ok ((), after) := by
            simp only [TaskQueue.finishTask, TaskQueue.updateOwned, hterminal, hcount]
            cases args.terminalMessage with
            | none => exact ⟨_, rfl⟩
            | some draft => exact ⟨_, rfl⟩
          obtain ⟨_, _, hshape⟩ := TaskQueue.finishTask_ok hfinish
          rw [StoreOp.apply, Database.committed_ok hfinish, hshape] at hafter
          have hid : task.taskId = args.taskId := by
            simp only [TaskQueue.ownedBy, Bool.and_eq_true, decide_eq_true_eq] at howned
            exact howned.1.1
          have hopen := hafter control hmem hwaiting.2 _
            (Table.mem_update_of_cond htask howned) (hid.trans hwaiting.1.symm)
          rw [TaskQueue.finished, hterminal] at hopen
          cases hopen
  | _ => trivial

end Database

/-- Over every run from the empty database, no control is stranded in any state
reached exactly when tasks are finished with an empty inbox. -/
theorem no_stranded_control_iff_finishes_with_empty_inbox (ops : List StoreOp) :
    Always StoreOp.step Database.NoStrandedControl ops {} ↔
      Along StoreOp.step FinishesWithEmptyInbox ops {} := by
  have hstart : Database.InboxOk {} := ⟨List.nodup_nil, by simp [Database.NoStrandedControl]⟩
  refine always_iff_along ?_ (fun _ hok => hok.noStranded) ?_ hstart
  · intro db op after hok hguard hstep
    cases hstep
    exact hok.apply hguard
  · intro db op _ hnext
    exact Database.finishesWithEmptyInbox_of_noStranded (hnext _ rfl)

/-- A task with one attempt is leased, a steering update is acknowledged to its
requester, and the worker finalizes the task as failed. -/
theorem failed_task_strands_steering_update :
    let mention : NormalizedEvent :=
      { eventId := "event-1", pluginId := "im", eventType := "im.message", tenantKey := "tenant"
        appId := "app", occurredAtMs := 0, receivedAtMs := 0, resourceKind := "message"
        resourceId := "message-1", traceId := "trace-1" }
    let command : TaskCommand :=
      { pluginId := "im", commandType := "im.handle_mention", sessionKey := "tenant/app/chat"
        payload := [("sender_id", .str "user")], maxAttempts := 1 }
    let steer : RuntimeStore.ControlAdmission :=
      { event := { mention with eventId := "event-2", resourceId := "message-2" }
        sessionKey := "tenant/app/chat", actorId := "user", kind := .steer
        text := "use the other table"
        acknowledgement := ⟨"im", "chat", "reply", "control:event-2", [], 0⟩ }
    ¬ Always StoreOp.step Database.NoStrandedControl
      [.admitEvent mention command none "task" "outbox-1" 0, .leaseTasks ⟨"worker", 1, 60000, 1⟩ none,
        .admitControl steer "control" "outbox-2" 2,
        .finishTask ⟨"task", "worker", .failed, some "task_failed", none⟩ "outbox-3" 3] {} := by
  intro mention command steer hall
  have hlast := always_iff_reached.mp hall _ (List.prefix_refl _) _ rfl
  exact absurd hlast (by decide)

end Codex2Lark
