import Codex2Lark.Storage.Store

/-!
The status of one run under the transactions of the database. A run row is
inserted once and closed once; nothing else writes its status, and the events of
a run are never taken back.
-/

namespace Codex2Lark

open Lib

namespace SessionStore

theorem runStatus_congr {db after : Database} (hruns : after.runs = db.runs) (runId : String) :
    runStatus runId after = runStatus runId db := by
  unfold runStatus findRun
  rw [hruns]

theorem findRun_setStatus (db : Database) (runId other : String) (status : RunStatus)
    (nowMs : Int) : findRun (setStatus db runId status nowMs) other =
      (findRun db other).map fun run =>
        if run.runId = runId then { run with status, updatedAtMs := nowMs } else run := by
  unfold findRun setStatus
  have hkeep : ∀ run : RunRow,
      RunRow.runId { run with status, updatedAtMs := nowMs } = RunRow.runId run := fun _ => rfl
  have hfound : (Table.update (fun run : RunRow => run.runId = runId)
      (fun run => { run with status, updatedAtMs := nowMs }) db.runs).find?
        (fun run => run.runId = other) = _ := Table.find?_update RunRow.runId other hkeep
  simpa using hfound

theorem findRun_runId {db : Database} {runId : String} {run : RunRow}
    (hrun : findRun db runId = some run) : run.runId = runId := by
  unfold findRun at hrun
  simpa using List.find?_some hrun

@[simp] theorem runs_insertEvent (db : Database) (runId eventType : String)
    (payload : List (String × Json)) (nowMs : Int) :
    (insertEvent db runId eventType payload nowMs).runs = db.runs := rfl

@[simp] theorem runs_applyControls (db : Database) (taskId : String) (controlIds : List String)
    (nowMs : Int) : (applyControls db taskId controlIds nowMs).runs = db.runs := rfl

@[simp] theorem runs_supersedeControls (db : Database) (taskId : String) (nowMs : Int) :
    (supersedeControls db taskId nowMs).runs = db.runs := rfl

@[simp] theorem runs_closingInbox (db : Database) (taskId : String) (controlIds : List String)
    (nowMs : Int) : (closingInbox db taskId controlIds nowMs).runs = db.runs := by
  unfold closingInbox
  split <;> rfl

@[simp] theorem runEvents_closingInbox (db : Database) (taskId : String)
    (controlIds : List String) (nowMs : Int) :
    (closingInbox db taskId controlIds nowMs).runEvents = db.runEvents := by
  unfold closingInbox
  split <;> rfl

/-- Closing a run writes the status of that run only. -/
theorem runStatus_closeRun (db : Database) (runId other : String) (outcome : AgentOutcome)
    (nowMs : Int) : runStatus other (closeRun db runId outcome nowMs) =
      if other = runId then (runStatus runId db).map fun _ => outcome.status
      else runStatus other db := by
  have hfind : findRun (insertEvent db runId "run_terminal" (outcomePayload outcome) nowMs) other =
      findRun db other := rfl
  unfold runStatus closeRun
  rw [findRun_setStatus, hfind]
  cases hrun : findRun db other with
  | none =>
      by_cases hsame : other = runId
      · subst hsame
        simp [hrun]
      · simp [hsame]
  | some run =>
      have hid := findRun_runId hrun
      by_cases hsame : other = runId
      · subst hsame
        simp [hrun, hid]
      · simp [hsame, hid]

/-- What a closing attempt does to the status of each run. -/
theorem tryFinishWithOutcome_status {runId : String} {outcome : AgentOutcome}
    {appliedControlIds : List String} {nowMs : Int} {db after : Database} {closed : Bool}
    (hok : tryFinishWithOutcome runId outcome appliedControlIds nowMs db = .ok (closed, after))
    (other : String) :
    runStatus runId db = some .running ∧
      runStatus other after =
        if other = runId ∧ closed = true then some outcome.status else runStatus other db := by
  obtain ⟨run, hrun, hrunning, hcases⟩ := tryFinishWithOutcome_ok hok
  have hstatus : runStatus runId db = some .running := by simp [runStatus, hrun, hrunning]
  refine ⟨hstatus, ?_⟩
  rcases hcases with ⟨rfl, _, _, rfl⟩ | ⟨rfl, _, rfl⟩
  · simp [runStatus_congr (runs_closingInbox db _ _ _)]
  · rw [runStatus_closeRun]
    split <;> split <;> simp_all [runStatus_congr (runs_supersedeControls _ _ _),
      runStatus_congr (runs_closingInbox db _ _ _)]

theorem tryFinishWithOutcome_checkpoints {runId : String} {outcome : AgentOutcome}
    {appliedControlIds : List String} {nowMs : Int} {db after : Database} {closed : Bool}
    (hok : tryFinishWithOutcome runId outcome appliedControlIds nowMs db = .ok (closed, after)) :
    after.checkpoints = db.checkpoints ∧ after.checkpointSources = db.checkpointSources := by
  obtain ⟨run, _, _, hcases⟩ := tryFinishWithOutcome_ok hok
  have hinbox : (closingInbox db run.taskId appliedControlIds nowMs).checkpoints =
        db.checkpoints ∧
      (closingInbox db run.taskId appliedControlIds nowMs).checkpointSources =
        db.checkpointSources := by
    unfold closingInbox
    split <;> exact ⟨rfl, rfl⟩
  rcases hcases with ⟨_, _, _, rfl⟩ | ⟨_, _, rfl⟩
  · exact hinbox
  · unfold closeRun setStatus insertEvent
    split <;> exact hinbox

/-- A closed run has its terminal event. -/
theorem tryFinishWithOutcome_event {runId : String} {outcome : AgentOutcome}
    {appliedControlIds : List String} {nowMs : Int} {db after : Database} {closed : Bool}
    (hok : tryFinishWithOutcome runId outcome appliedControlIds nowMs db = .ok (closed, after)) :
    db.runEvents <+: after.runEvents ∧
      (closed = true → ∃ event ∈ after.runEvents,
        event.runId = runId ∧ event.eventType = "run_terminal") := by
  obtain ⟨run, _, _, hcases⟩ := tryFinishWithOutcome_ok hok
  rcases hcases with ⟨rfl, _, _, rfl⟩ | ⟨rfl, _, rfl⟩
  · exact ⟨by simp, by nofun⟩
  · unfold closeRun setStatus insertEvent
    have hevents : ∀ middle : Database, middle.runEvents = db.runEvents →
        db.runEvents <+: middle.runEvents ++ [⟨runId, nextSequence middle runId, "run_terminal",
          outcomePayload outcome, nowMs⟩] := by
      intro middle hsame
      rw [hsame]
      exact List.prefix_append ..
    refine ⟨hevents _ ?_, fun _ => ⟨_, List.mem_append_right _ List.mem_cons_self, rfl, rfl⟩⟩
    split <;> simp [supersedeControls]

theorem startRun_status {args : StartRun} {nowMs : Int} {db after : Database} {value : Unit}
    (hok : startRun args nowMs db = .ok (value, after)) (other : String) :
    runStatus args.runId db = none ∧
      runStatus other after =
        if other = args.runId then some .running else runStatus other db := by
  obtain ⟨_, hfresh, run, hruns, hid, _, hstatus⟩ := startRun_ok hok
  have hnone : runStatus args.runId db = none := by simp [runStatus, hfresh]
  refine ⟨hnone, ?_⟩
  unfold runStatus findRun at hnone ⊢
  rw [hruns, List.find?_append]
  by_cases hsame : other = args.runId
  · subst hsame
    have hmissing : db.runs.find? (fun run => decide (run.runId = args.runId)) = none := by
      simpa using hnone
    simp [hmissing, hid, hstatus]
  · have hother : ¬ args.runId = other := fun h => hsame h.symm
    simp [hsame, hid, hother]

end SessionStore

namespace Database

/-- The tables of the session store. -/
def sessionTables (db : Database) :
    List RunRow × List RunEventRow × List CheckpointRow × List CheckpointSourceRow :=
  (db.runs, db.runEvents, db.checkpoints, db.checkpointSources)

end Database

namespace StoreOp

def isSession : StoreOp → Bool
  | .startRun _ _ | .appendEvent _ _ _ _ | .saveCheckpoint _ _ | .discardCheckpoint _
  | .tryFinishWithOutcome _ _ _ _ => true
  | _ => false

/-- The admissions, the approvals and the task queue leave the session store
alone. -/
theorem sessionTables_apply (db : Database) {op : StoreOp} (hop : op.isSession = false) :
    (op.apply db).sessionTables = db.sessionTables := by
  cases op with
  | startRun args nowMs => cases hop
  | appendEvent runId eventType payload nowMs => cases hop
  | saveCheckpoint checkpoint nowMs => cases hop
  | discardCheckpoint runId => cases hop
  | tryFinishWithOutcome runId outcome appliedControlIds nowMs => cases hop
  | admitEvent event command acknowledgement taskId outboxId nowMs =>
      apply Database.committed_column
      intro value after hok
      rw [(RuntimeStore.admitEvent_ok hok).1]
      rfl
  | enqueueTaskOutbox taskId draft outboxId nowMs =>
      apply Database.committed_column
      intro value after hok
      rw [RuntimeStore.enqueueTaskOutbox_ok hok]
      rfl
  | requestApproval request outboxId nowMs =>
      apply Database.committed_column
      intro value after hok
      rw [RuntimeStore.requestApproval_ok hok]
      rfl
  | decideApproval args outboxId nowMs =>
      apply Database.committed_column
      intro value after hok
      rw [RuntimeStore.decideApproval_ok hok]
      rfl
  | admitControl args controlId outboxId nowMs =>
      apply Database.committed_column
      intro value after hok
      rw [(RuntimeStore.admitControl_ok hok).1]
      rfl
  | acknowledgeControls taskId controlIds nowMs =>
      simp only [apply, RuntimeStore.acknowledgeControls]
      split <;> rfl
  | leaseTasks args limits =>
      apply Database.committed_column
      intro value after hok
      rw [TaskQueue.leaseTasks_ok hok]
      rfl
  | finishTask args outboxId nowMs =>
      apply Database.committed_column
      intro value after hok
      rw [(TaskQueue.finishTask_ok hok).2.2]
      rfl
  | retryTask taskId workerId availableAtMs errorCode nowMs =>
      apply Database.committed_column
      intro value after hok
      rw [TaskQueue.retryTask_ok hok]
      rfl
  | deferTask taskId workerId availableAtMs reason nowMs =>
      apply Database.committed_column
      intro value after hok
      rw [TaskQueue.deferTask_ok hok]
      rfl

/-- The run whose status the transaction may write. -/
def writesStatusOf : StoreOp → Option String
  | .startRun args _ => some args.runId
  | .tryFinishWithOutcome runId _ _ _ => some runId
  | _ => none

/-- Every other transaction leaves the run rows as they are. -/
theorem runs_apply (db : Database) {op : StoreOp} (hop : op.writesStatusOf = none) :
    (op.apply db).runs = db.runs := by
  cases op with
  | startRun args nowMs => cases hop
  | tryFinishWithOutcome runId outcome appliedControlIds nowMs => cases hop
  | appendEvent runId eventType payload nowMs =>
      apply Database.committed_column Database.runs
      intro value after hok
      rw [SessionStore.appendEvent_ok hok]
      rfl
  | saveCheckpoint checkpoint nowMs =>
      apply Database.committed_column Database.runs
      intro value after hok
      rw [SessionStore.saveCheckpoint_ok hok]
  | discardCheckpoint runId =>
      apply Database.committed_column Database.runs
      intro value after hok
      rw [SessionStore.discardCheckpoint_ok hok]
  | _ => exact congrArg Prod.fst (sessionTables_apply db rfl)

theorem runEvents_eq (db : Database) {op : StoreOp} (hop : op.isSession = false) :
    (op.apply db).runEvents = db.runEvents :=
  congrArg (fun tables => tables.2.1) (sessionTables_apply db hop)

theorem checkpoints_eq (db : Database) {op : StoreOp} (hop : op.isSession = false) :
    (op.apply db).checkpoints = db.checkpoints :=
  congrArg (fun tables => tables.2.2.1) (sessionTables_apply db hop)

/-- Events are appended only. -/
theorem runEvents_prefix (db : Database) (op : StoreOp) :
    db.runEvents <+: (op.apply db).runEvents := by
  cases op with
  | startRun args nowMs =>
      refine Database.committed_rel (R := fun b a => b.runEvents <+: a.runEvents) db
        (List.prefix_refl _) ?_
      intro value after hok
      rewrite [(SessionStore.startRun_ok hok).1]
      exact List.prefix_refl _
  | tryFinishWithOutcome runId outcome appliedControlIds nowMs =>
      refine Database.committed_rel (R := fun b a => b.runEvents <+: a.runEvents) db
        (List.prefix_refl _) ?_
      intro closed after hok
      exact (SessionStore.tryFinishWithOutcome_event hok).1
  | appendEvent runId eventType payload nowMs =>
      refine Database.committed_rel (R := fun b a => b.runEvents <+: a.runEvents) db
        (List.prefix_refl _) ?_
      intro value after hok
      rw [SessionStore.appendEvent_ok hok]
      exact List.prefix_append ..
  | saveCheckpoint checkpoint nowMs =>
      refine Database.committed_rel (R := fun b a => b.runEvents <+: a.runEvents) db
        (List.prefix_refl _) ?_
      intro value after hok
      rewrite [SessionStore.saveCheckpoint_ok hok]
      exact List.prefix_refl _
  | discardCheckpoint runId =>
      refine Database.committed_rel (R := fun b a => b.runEvents <+: a.runEvents) db
        (List.prefix_refl _) ?_
      intro value after hok
      rewrite [SessionStore.discardCheckpoint_ok hok]
      exact List.prefix_refl _
  | _ =>
      rewrite [runEvents_eq db rfl]
      exact List.prefix_refl _

/-- A status other than running is final. -/
theorem closed_status_stays {db : Database} {runId : String} {status : RunStatus}
    (hstatus : SessionStore.runStatus runId db = some status) (hclosed : status ≠ .running)
    (op : StoreOp) : SessionStore.runStatus runId (op.apply db) = some status := by
  cases op with
  | startRun args nowMs =>
      refine Database.committed_rel
        (R := fun _ after => SessionStore.runStatus runId after = some status) db hstatus ?_
      intro value after hok
      obtain ⟨hfresh, hafter⟩ := SessionStore.startRun_status hok runId
      have hother : runId ≠ args.runId := by
        rintro rfl
        rw [hfresh] at hstatus
        cases hstatus
      rw [hafter, if_neg hother, hstatus]
  | tryFinishWithOutcome other outcome appliedControlIds nowMs =>
      refine Database.committed_rel
        (R := fun _ after => SessionStore.runStatus runId after = some status) db hstatus ?_
      intro closed after hok
      obtain ⟨hrunning, hafter⟩ := SessionStore.tryFinishWithOutcome_status hok runId
      have hother : runId ≠ other := by
        rintro rfl
        rw [hrunning] at hstatus
        cases hstatus
        exact hclosed rfl
      rw [hafter, if_neg fun h => hother h.1, hstatus]
  | _ => rw [SessionStore.runStatus_congr (runs_apply db rfl), hstatus]

/-- A run that has a row keeps one. -/
theorem run_stays {db : Database} {runId : String}
    (hrun : SessionStore.runStatus runId db ≠ none) (op : StoreOp) :
    SessionStore.runStatus runId (op.apply db) ≠ none := by
  cases op with
  | startRun args nowMs =>
      refine Database.committed_rel
        (R := fun _ after => SessionStore.runStatus runId after ≠ none) db hrun ?_
      intro value after hok
      rw [(SessionStore.startRun_status hok runId).2]
      split
      · nofun
      · exact hrun
  | tryFinishWithOutcome other outcome appliedControlIds nowMs =>
      refine Database.committed_rel
        (R := fun _ after => SessionStore.runStatus runId after ≠ none) db hrun ?_
      intro closed after hok
      rw [(SessionStore.tryFinishWithOutcome_status hok runId).2]
      split
      · nofun
      · exact hrun
  | _ =>
      rw [SessionStore.runStatus_congr (runs_apply db rfl)]
      exact hrun

end StoreOp

end Codex2Lark
