import Codex2Lark.Runtime.TaskWorker
import Codex2Lark.Lib.Log

/-!
The attempts of a task under workers that settle, die or are overtaken. Leases and
deferrals count them, and an exhausted task is marked in its error code until a
lease is finished.
-/

namespace Codex2Lark

open Lib TaskQueue

namespace TaskQueue

/-! ### One row -/

structure AttemptsOk (task : TaskRow) : Prop where
  positive : 1 ≤ task.maxAttempts
  bounded : task.attemptCount ≤ task.maxAttempts
  leasable : task.state = .pending → CanLease task

/-- The row after `retry_task`. -/
def retriedRow (availableAtMs : Int) (errorCode : String) (nowMs : Int) (task : TaskRow) : TaskRow :=
  { dropLease nowMs task with
    availableAtMs
    lastErrorCode := if task.maxAttempts ≤ task.attemptCount then some "retry_exhausted"
      else some errorCode }

/-- The row after `defer_task`. -/
def deferredRow (availableAtMs : Int) (reason : String) (nowMs : Int) (task : TaskRow) : TaskRow :=
  { dropLease nowMs task with
    availableAtMs
    attemptCount := task.attemptCount - 1
    lastErrorCode := some reason }

theorem admittedRow_ok {command : TaskCommand} (hmax : ¬ command.maxAttempts < 1)
    (event : NormalizedEvent) (taskId : String) (eventPk : Nat) (nowMs : Int) :
    AttemptsOk (admittedRow event command taskId eventPk nowMs) := by
  have hpositive : 1 ≤ command.maxAttempts := Nat.le_of_not_lt hmax
  exact ⟨hpositive, Nat.zero_le _, fun _ => .inl hpositive⟩

theorem sweptRow_ok {task : TaskRow} (h : AttemptsOk task) (nowMs : Int) :
    AttemptsOk (sweptRow nowMs task) := by
  unfold sweptRow
  split
  · split
    · rename_i hleft
      exact ⟨h.positive, h.bounded, fun _ => .inl hleft⟩
    · exact ⟨h.positive, h.bounded, fun _ => .inr rfl⟩
  · exact h

theorem sweptRow_attempts (nowMs : Int) (task : TaskRow) :
    (sweptRow nowMs task).attemptCount = task.attemptCount := by
  unfold sweptRow
  split
  · split <;> rfl
  · rfl

/-- The sweep never takes a marker away. -/
theorem sweptRow_marker {nowMs : Int} {task : TaskRow}
    (hmarker : isExhaustionMarker task.lastErrorCode = true) :
    isExhaustionMarker (sweptRow nowMs task).lastErrorCode = true := by
  unfold sweptRow
  split
  · split
    · exact hmarker
    · rfl
  · exact hmarker

/-- A lease counts an attempt, unless it is taken to finalize the task. -/
theorem leasedRow_attempts (args : LeaseArgs) (task : TaskRow) :
    (leasedRow args task).attemptCount =
      task.attemptCount + if isExhaustionMarker task.lastErrorCode then 0 else 1 := by
  unfold leasedRow
  dsimp only
  split <;> rfl

theorem leasedRow_ok {args : LeaseArgs} {task : TaskRow} (h : AttemptsOk task)
    (hcan : CanLease task) : AttemptsOk (leasedRow args task) := by
  refine ⟨h.positive, ?_, fun hpending => by cases hpending⟩
  have hbounded := h.bounded
  rw [leasedRow_attempts]
  change task.attemptCount + _ ≤ task.maxAttempts
  split
  · exact hbounded
  · rename_i hunmarked
    rcases hcan with hleft | hmarked
    · exact hleft
    · exact absurd hmarked hunmarked

theorem finished_ok {task : TaskRow} (h : AttemptsOk task) (args : FinishTask) (nowMs : Int)
    (hterminal : args.state.isTerminal = true) : AttemptsOk (finished args nowMs task) := by
  refine ⟨h.positive, h.bounded, ?_⟩
  intro hpending
  rw [show args.state = .pending from hpending] at hterminal
  cases hterminal

theorem retriedRow_ok {task : TaskRow} (h : AttemptsOk task) (availableAtMs : Int)
    (errorCode : String) (nowMs : Int) :
    AttemptsOk (retriedRow availableAtMs errorCode nowMs task) := by
  refine ⟨h.positive, h.bounded, fun _ => ?_⟩
  unfold CanLease retriedRow
  dsimp only [dropLease]
  split
  · exact .inr rfl
  · exact .inl (by omega)

theorem deferredRow_ok {task : TaskRow} (h : AttemptsOk task) (availableAtMs : Int)
    (reason : String) (nowMs : Int) : AttemptsOk (deferredRow availableAtMs reason nowMs task) := by
  have hpositive := h.positive
  have hbounded := h.bounded
  have hless : task.attemptCount - 1 < task.maxAttempts := by omega
  exact ⟨hpositive, Nat.le_of_lt hless, fun _ => .inl hless⟩

/-- A row after a lease transaction, in terms of the row before. -/
theorem leaseTasks_rows {args : LeaseArgs} {limits : Option TaskConcurrencyLimits}
    {db after : Database} {leased : List LeasedTask} (hunique : (db.tasks.map TaskRow.taskId).Nodup)
    (hok : leaseTasks args limits db = .ok (leased, after)) :
    ∃ ids : List String, List.Forall₂ (fun old row => PickedRow args CanLease ids
        (sweptRow args.nowMs old) row) db.tasks after.tasks ∧
      leased = ((after.tasks.filter fun task => ids.contains task.taskId &&
        task.leaseOwner = some args.workerId).insertionSort (fun a b => taskLe a b)).map
          (leasedTask after) := by
  obtain ⟨ids, hpicks, hleased⟩ := leaseTasks_picks hunique hok
  have hrows := hpicks.rows (fun _ _ h => h) (by rwa [sweepExpired_ids])
  rw [sweepExpired_eq, List.forall₂_map_left_iff] at hrows
  exact ⟨ids, hrows, hleased⟩

/-- The terminal message of a finished task is in the outbox. -/
theorem finishTask_message {args : FinishTask} {outboxId : String} {nowMs : Int}
    {db after : Database} {value : Unit} {draft : OutboxDraft}
    (hok : finishTask args outboxId nowMs db = .ok (value, after))
    (hmessage : args.terminalMessage = some draft)
    (hfresh : (db.outbox.any fun row => row.outboxId = outboxId) = false) :
    ∃ row ∈ after.outbox, row.draft.idempotencyKey = draft.idempotencyKey := by
  unfold finishTask at hok
  split at hok
  · cases hok
  · obtain ⟨⟨value, middle⟩, hupdate, hok⟩ := PyError.bind_eq_ok.mp hok
    obtain ⟨_, rfl⟩ := updateOwned_ok hupdate
    rw [hmessage] at hok
    cases hok
    unfold RuntimeStore.insertOutbox
    split
    · rename_i hexists
      obtain ⟨row, hrow, hsame⟩ := List.any_eq_true.mp hexists
      have hid : ¬ row.outboxId = outboxId := by
        intro hid
        rw [List.any_eq_false] at hfresh
        exact hfresh row hrow (by simp [hid])
      refine ⟨row, hrow, ?_⟩
      simpa [hid] using hsame
    · exact ⟨_, List.mem_append_right _ List.mem_cons_self, rfl⟩

end TaskQueue

namespace TaskWorkers

/-! ### What a step does -/

/-- The tables after a settlement, and the deferral that it records. -/
inductive SettleEffect (execution : Execution) (answer : Except PyError TaskExecutionResult)
    (nowMs : Int) (outboxId : String) (db : Database) : Database → List WorkerEvent → Prop
  | rolledBack : SettleEffect execution answer nowMs outboxId db db []
  | finished {after : Database} (result : TaskExecutionResult)
      (hsettlement : execution.worker.settlement execution.task answer = .finish result)
      (hok : finishTask ⟨execution.task.taskId, execution.worker.workerId, result.state,
        result.errorCode, result.terminalMessage⟩ outboxId nowMs db = .ok ((), after)) :
      SettleEffect execution answer nowMs outboxId db after []
  | retried (e : PyError) (availableAtMs : Int)
      (hsettlement : execution.worker.settlement execution.task answer = .retry e) :
      SettleEffect execution answer nowMs outboxId db
        { db with
          tasks := Table.update (ownedBy execution.task.taskId execution.worker.workerId)
            (retriedRow availableAtMs e.className nowMs) db.tasks } []
  | deferred (delayMs : Nat) (reason : String) (availableAtMs : Int)
      (hsettlement : execution.worker.settlement execution.task answer = .defer delayMs reason)
      (howned : ∃ row ∈ db.tasks,
        ownedBy execution.task.taskId execution.worker.workerId row = true) :
      SettleEffect execution answer nowMs outboxId db
        { db with
          tasks := Table.update (ownedBy execution.task.taskId execution.worker.workerId)
            (deferredRow availableAtMs reason nowMs) db.tasks }
        [.deferred execution.task.taskId]

theorem settleEffect (execution : Execution) (answer : Except PyError TaskExecutionResult)
    (nowMs : Int) (outboxId : String) (db : Database) :
    SettleEffect execution answer nowMs outboxId db
      (execution.worker.execute execution.task nowMs outboxId answer db).2
      (deferrals execution answer nowMs db) := by
  rw [DurableTaskWorker.execute_settles]
  unfold deferrals
  cases hsettlement : execution.worker.settlement execution.task answer with
  | raise => exact .rolledBack
  | finish result =>
      refine Database.committed_rel (R := fun db after =>
        SettleEffect execution answer nowMs outboxId db after []) db .rolledBack ?_
      exact fun _ _ hok => .finished result hsettlement hok
  | retry e =>
      refine Database.committed_rel (R := fun db after =>
        SettleEffect execution answer nowMs outboxId db after []) db .rolledBack ?_
      intro value after hok
      obtain ⟨_, rfl⟩ := updateOwned_ok hok
      exact .retried e _ hsettlement
  | defer delayMs reason =>
      change SettleEffect execution answer nowMs outboxId db (db.committed (deferTask
        execution.task.taskId execution.worker.workerId (nowMs + delayMs) reason nowMs)) _
      dsimp only
      cases hdefer : deferTask execution.task.taskId execution.worker.workerId (nowMs + delayMs)
        reason nowMs db with
      | error e =>
          rw [Database.committed_error hdefer]
          exact .rolledBack
      | ok result =>
          obtain ⟨value, after⟩ := result
          rw [Database.committed_ok hdefer]
          unfold deferTask at hdefer
          split at hdefer
          · cases hdefer
          · obtain ⟨hcount, rfl⟩ := updateOwned_ok hdefer
            refine .deferred delayMs reason (nowMs + delayMs) hsettlement ?_
            exact List.countP_pos_iff.mp (Nat.lt_of_lt_of_eq Nat.one_pos hcount.symm)

inductive Effect (s : WorkerState) : WorkerLabel → WorkerState → Prop
  | quiet {label : WorkerLabel} {t : WorkerState} (hdb : t.db = s.db) (hlog : t.log = s.log) :
      Effect s label t
  | admitted {event : NormalizedEvent} {command : TaskCommand}
      {acknowledgement : Option OutboxDraft} {taskId outboxId : String} {nowMs : Int}
      {t : WorkerState} (hmax : ¬ command.maxAttempts < 1)
      (htasks : t.db.tasks = s.db.tasks ∨ (∀ task ∈ s.db.tasks, task.taskId ≠ taskId) ∧
        ∃ eventPk, t.db.tasks = s.db.tasks ++ [admittedRow event command taskId eventPk nowMs])
      (hlog : t.log = s.log ++ (exhaustions t.db ++ [])) :
      Effect s (.admitEvent event command acknowledgement taskId outboxId nowMs) t
  | leased {worker : DurableTaskWorker} {nowMs : Int} {concurrency : Nat}
      {limits : Option TaskConcurrencyLimits} {leased : List LeasedTask} {t : WorkerState}
      (hok : leaseTasks (leaseArgs worker nowMs concurrency) limits s.db = .ok (leased, t.db))
      (hlog : t.log = s.log ++ (exhaustions t.db ++ starts worker leased)) :
      Effect s (.runOnce worker nowMs concurrency limits) t
  | settled {index : Nat} {answer : Except PyError TaskExecutionResult} {nowMs : Int}
      {outboxId : String} {events : List WorkerEvent} {t : WorkerState} (execution : Execution)
      (hrunning : s.running[index]? = some execution)
      (hfresh : (s.db.outbox.any fun row => row.outboxId = outboxId) = false)
      (heffect : SettleEffect execution answer nowMs outboxId s.db t.db events)
      (hlog : t.log = s.log ++ (exhaustions t.db ++ events)) :
      Effect s (.settle index answer nowMs outboxId) t

theorem effect {s t : WorkerState} {label : WorkerLabel} (hstep : step s label = some t) :
    Effect s label t := by
  cases label with
  | admitEvent event command acknowledgement taskId outboxId nowMs =>
      dsimp only [step] at hstep
      split at hstep
      · cases hstep
      · rename_i hmax
        cases hstep
        refine .admitted hmax ?_ (by rw [List.append_nil])
        exact Database.committed_rel (R := fun db after => after.tasks = db.tasks ∨
          (∀ task ∈ db.tasks, task.taskId ≠ taskId) ∧ ∃ eventPk,
            after.tasks = db.tasks ++ [admittedRow event command taskId eventPk nowMs]) s.db
          (.inl rfl) fun _ _ hok => admitEvent_tasks hok
  | runOnce worker nowMs concurrency limits =>
      dsimp only [step] at hstep
      split at hstep
      · cases hstep
        exact .quiet rfl rfl
      · rename_i leased db hok
        cases hstep
        exact .leased hok rfl
  | settle index answer nowMs outboxId =>
      dsimp only [step] at hstep
      split at hstep
      · cases hstep
      · rename_i execution hrunning
        split at hstep
        · cases hstep
        · rename_i hfresh
          cases hstep
          exact .settled execution hrunning (Bool.eq_false_iff.mpr hfresh)
            (settleEffect execution answer nowMs outboxId s.db) rfl
  | abandon index =>
      cases hstep
      exact .quiet rfl rfl
  | crash workerId =>
      cases hstep
      exact .quiet rfl rfl

/-- A settlement changes at most the rows it owns, and gives back at most the attempts
that it records as deferred. -/
theorem SettleEffect.tasks {execution : Execution} {answer : Except PyError TaskExecutionResult}
    {nowMs : Int} {outboxId : String} {db after : Database} {events : List WorkerEvent}
    (heffect : SettleEffect execution answer nowMs outboxId db after events) :
    (events = [] ∨ events = [.deferred execution.task.taskId] ∧
        ∃ row ∈ db.tasks, row.taskId = execution.task.taskId) ∧
      (after.tasks = db.tasks ∧ events = [] ∨ ∃ change : TaskRow → TaskRow,
        after.tasks = Table.update (ownedBy execution.task.taskId execution.worker.workerId) change
          db.tasks ∧ ∀ task, SameTask task (change task) ∧
            (AttemptsOk task → AttemptsOk (change task)) ∧
            task.attemptCount ≤ (change task).attemptCount + events.length) := by
  cases heffect with
  | rolledBack => exact ⟨.inl rfl, .inl ⟨rfl, rfl⟩⟩
  | finished result hsettlement hok =>
      obtain ⟨hterminal, _, hafter⟩ := finishTask_ok hok
      have htasks := congrArg Database.tasks hafter
      refine ⟨.inl rfl, .inr ⟨_, htasks, fun task => ⟨⟨rfl, rfl, rfl, rfl, rfl, rfl⟩, ?_, le_rfl⟩⟩⟩
      exact fun hok => finished_ok hok _ _ hterminal
  | retried e availableAtMs hsettlement =>
      refine ⟨.inl rfl, .inr ⟨_, rfl, fun task => ⟨⟨rfl, rfl, rfl, rfl, rfl, rfl⟩, ?_, le_rfl⟩⟩⟩
      exact fun hok => retriedRow_ok hok _ _ _
  | deferred delayMs reason availableAtMs hsettlement howned =>
      obtain ⟨row, hrow, hown⟩ := howned
      have hid : row.taskId = execution.task.taskId := by
        simp only [ownedBy, Bool.and_eq_true, decide_eq_true_eq] at hown
        exact hown.1.1
      refine ⟨.inr ⟨rfl, row, hrow, hid⟩, .inr ⟨_, rfl, fun task => ⟨⟨rfl, rfl, rfl, rfl, rfl, rfl⟩, ?_, ?_⟩⟩⟩
      · exact fun hok => deferredRow_ok hok _ _ _
      · change task.attemptCount ≤ task.attemptCount - 1 + 1
        omega

/-! ### The starts of one batch -/

section Batch

variable {worker : DurableTaskWorker} {nowMs : Int} {concurrency : Nat}
  {limits : Option TaskConcurrencyLimits} {db after : Database} {leased : List LeasedTask}

/-- A started task was leased in this transaction, and not to be finalized. -/
theorem mem_starts (hunique : (db.tasks.map TaskRow.taskId).Nodup)
    (hok : leaseTasks (leaseArgs worker nowMs concurrency) limits db = .ok (leased, after))
    {taskId : String} (hstarted : .started taskId ∈ starts worker leased) :
    ∃ old ∈ db.tasks, ∃ row ∈ after.tasks, row.taskId = taskId ∧
      row = leasedRow (leaseArgs worker nowMs concurrency) (sweptRow nowMs old) ∧
      isExhaustionMarker row.lastErrorCode = false := by
  obtain ⟨ids, hrows, rfl⟩ := leaseTasks_rows hunique hok
  obtain ⟨task, htask, heq⟩ := List.mem_map.mp hstarted
  obtain ⟨hleased, hcalls⟩ := List.mem_filter.mp htask
  obtain ⟨row, hrow, rfl⟩ := List.mem_map.mp hleased
  rw [List.mem_insertionSort, List.mem_filter] at hrow
  have hid : row.taskId ∈ ids := by simpa using (Bool.and_eq_true_iff.mp hrow.2).1
  have hunmarked : isExhaustionMarker row.lastErrorCode = false := by
    rw [Execution.calls, Bool.and_eq_true] at hcalls
    have hnone := hcalls.2
    cases hmarker : isExhaustionMarker row.lastErrorCode with
    | false => rfl
    | true =>
        have hsome : row.lastErrorCode.isSome = true := by
          cases hcode : row.lastErrorCode with
          | none =>
              rw [hcode] at hmarker
              cases hmarker
          | some code => rfl
        simp only [leasedTask, hmarker, if_true, Option.isNone_iff_eq_none] at hnone
        rw [hnone] at hsome
        cases hsome
  obtain ⟨old, hold, hpicked⟩ := Table.Forall₂.of_mem_right hrows hrow.1
  refine ⟨old, hold, row, hrow.1, WorkerEvent.started.inj heq, ?_, hunmarked⟩
  cases hpicked with
  | keep hnot => exact absurd hid hnot
  | lease => rfl

theorem starts_nodup (hunique : (db.tasks.map TaskRow.taskId).Nodup)
    (hok : leaseTasks (leaseArgs worker nowMs concurrency) limits db = .ok (leased, after)) :
    (starts worker leased).Nodup := by
  have hafter : (after.tasks.map TaskRow.taskId).Nodup := by
    rwa [leaseTasks_ids hunique hok]
  obtain ⟨ids, _, rfl⟩ := leaseTasks_rows hunique hok
  have hids (rows : List TaskRow) : (rows.map (leasedTask after)).map LeasedTask.taskId =
      rows.map TaskRow.taskId := by
    rw [List.map_map]
    rfl
  have hleased : ((((after.tasks.filter fun task => ids.contains task.taskId &&
      task.leaseOwner = some (leaseArgs worker nowMs concurrency).workerId).insertionSort
        (fun a b => taskLe a b)).map (leasedTask after)).map LeasedTask.taskId).Nodup := by
    rw [hids, ((List.perm_insertionSort _ _).map TaskRow.taskId).nodup_iff]
    exact hafter.sublist (List.filter_sublist.map TaskRow.taskId)
  have hstarted := hleased.sublist
    ((List.filter_sublist (p := fun task => Execution.calls ⟨worker, task⟩)).map LeasedTask.taskId)
  unfold starts
  rw [show (fun task : LeasedTask => WorkerEvent.started task.taskId) =
    WorkerEvent.started ∘ LeasedTask.taskId from rfl, ← List.map_map]
  exact hstarted.map fun _ _ h => WorkerEvent.started.inj h

end Batch

/-! ### Attempts, starts and deferrals -/

def startCount (s : WorkerState) (taskId : String) : Nat := s.log.count (.started taskId)

def deferralCount (s : WorkerState) (taskId : String) : Nat := s.log.count (.deferred taskId)

def WorkerEvent.taskId : WorkerEvent → String
  | .exhausted taskId | .started taskId | .deferred taskId => taskId

structure WorkerInvariant (s : WorkerState) : Prop where
  uniqueTasks : (s.db.tasks.map TaskRow.taskId).Nodup
  attempts : ∀ task ∈ s.db.tasks, AttemptsOk task
  counted : ∀ task ∈ s.db.tasks,
    startCount s task.taskId ≤ task.attemptCount + deferralCount s task.taskId
  known : ∀ event ∈ s.log, ∃ task ∈ s.db.tasks, task.taskId = WorkerEvent.taskId event

theorem WorkerInvariant.empty : WorkerInvariant {} := by
  refine ⟨List.nodup_nil, ?_, ?_, ?_⟩ <;> exact fun _ hmem => absurd hmem List.not_mem_nil

section Log

variable {s t : WorkerState} {events : List WorkerEvent}

theorem startCount_append (hlog : t.log = s.log ++ (exhaustions t.db ++ events)) (taskId : String) :
    startCount t taskId = startCount s taskId + events.count (.started taskId) := by
  have hnone : (exhaustions t.db).count (.started taskId) = 0 :=
    List.count_eq_zero_of_not_mem (by simp [exhaustions])
  simp [startCount, hlog, hnone]

theorem deferralCount_append (hlog : t.log = s.log ++ (exhaustions t.db ++ events))
    (taskId : String) :
    deferralCount t taskId = deferralCount s taskId + events.count (.deferred taskId) := by
  have hnone : (exhaustions t.db).count (.deferred taskId) = 0 :=
    List.count_eq_zero_of_not_mem (by simp [exhaustions])
  simp [deferralCount, hlog, hnone]

theorem known_append
    (hknown : ∀ event ∈ s.log, ∃ task ∈ s.db.tasks, task.taskId = WorkerEvent.taskId event)
    (hkept : ∀ task ∈ s.db.tasks, ∃ row ∈ t.db.tasks, row.taskId = task.taskId)
    (hlog : t.log = s.log ++ (exhaustions t.db ++ events))
    (hevents : ∀ event ∈ events, ∃ task ∈ s.db.tasks, task.taskId = WorkerEvent.taskId event) :
    ∀ event ∈ t.log, ∃ task ∈ t.db.tasks, task.taskId = WorkerEvent.taskId event := by
  have hold : ∀ event ∈ s.log ++ events,
      ∃ task ∈ t.db.tasks, task.taskId = WorkerEvent.taskId event := by
    intro event hevent
    obtain ⟨task, htask, hid⟩ := (List.mem_append.mp hevent).elim (hknown event) (hevents event)
    obtain ⟨row, hrow, hrowId⟩ := hkept task htask
    exact ⟨row, hrow, hrowId.trans hid⟩
  intro event hevent
  rw [hlog] at hevent
  rcases List.mem_append.mp hevent with hbefore | hnew
  · exact hold event (List.mem_append_left _ hbefore)
  · rcases List.mem_append.mp hnew with hexhausted | hown
    · obtain ⟨task, htask, rfl⟩ := List.mem_map.mp hexhausted
      exact ⟨task, List.mem_of_mem_filter htask, rfl⟩
    · exact hold event (List.mem_append_right _ hown)

end Log

section Step

variable {s t : WorkerState}

theorem WorkerInvariant.admitted (hinv : WorkerInvariant s) {event : NormalizedEvent}
    {command : TaskCommand} {taskId : String} {nowMs : Int} (hmax : ¬ command.maxAttempts < 1)
    (htasks : t.db.tasks = s.db.tasks ∨ (∀ task ∈ s.db.tasks, task.taskId ≠ taskId) ∧
      ∃ eventPk, t.db.tasks = s.db.tasks ++ [admittedRow event command taskId eventPk nowMs])
    (hlog : t.log = s.log ++ (exhaustions t.db ++ [])) : WorkerInvariant t := by
  have hold : ∀ task ∈ s.db.tasks,
      startCount t task.taskId ≤ task.attemptCount + deferralCount t task.taskId := by
    intro task htask
    rw [startCount_append hlog, deferralCount_append hlog]
    exact hinv.counted task htask
  rcases htasks with hsame | ⟨hfresh, eventPk, hgrown⟩
  · refine ⟨hsame ▸ hinv.uniqueTasks, hsame ▸ hinv.attempts, hsame ▸ hold, ?_⟩
    refine known_append hinv.known (fun task htask => ⟨task, hsame ▸ htask, rfl⟩) hlog ?_
    exact fun _ hevent => absurd hevent List.not_mem_nil
  · have hnever : startCount t taskId = 0 := by
      rw [startCount_append hlog]
      refine List.count_eq_zero_of_not_mem fun hstarted => ?_
      obtain ⟨other, hother, hid⟩ := hinv.known _ hstarted
      exact hfresh other hother hid
    refine ⟨?_, ?_, ?_, known_append hinv.known ?_ hlog
      fun _ hevent => absurd hevent List.not_mem_nil⟩
    · rw [hgrown]
      exact uniqueTasks_concat hinv.uniqueTasks hfresh
    · rw [hgrown]
      intro task htask
      rcases List.mem_append.mp htask with hbefore | hnew
      · exact hinv.attempts task hbefore
      · rw [List.mem_singleton.mp hnew]
        exact admittedRow_ok hmax event taskId eventPk nowMs
    · rw [hgrown]
      intro task htask
      rcases List.mem_append.mp htask with hbefore | hnew
      · exact hold task hbefore
      · rw [List.mem_singleton.mp hnew]
        exact hnever.le.trans (Nat.zero_le _)
    · intro task htask
      rw [hgrown]
      exact ⟨task, List.mem_append_left _ htask, rfl⟩

theorem WorkerInvariant.leased (hinv : WorkerInvariant s) {worker : DurableTaskWorker} {nowMs : Int}
    {concurrency : Nat} {limits : Option TaskConcurrencyLimits} {leased : List LeasedTask}
    (hok : leaseTasks (leaseArgs worker nowMs concurrency) limits s.db = .ok (leased, t.db))
    (hlog : t.log = s.log ++ (exhaustions t.db ++ starts worker leased)) : WorkerInvariant t := by
  have hids := leaseTasks_ids hinv.uniqueTasks hok
  obtain ⟨ids, hrows, _⟩ := leaseTasks_rows hinv.uniqueTasks hok
  have hunique : (t.db.tasks.map TaskRow.taskId).Nodup := by
    rw [hids]
    exact hinv.uniqueTasks
  have hkept : ∀ task ∈ s.db.tasks, ∃ row ∈ t.db.tasks, row.taskId = task.taskId := by
    intro task htask
    have hmem := List.mem_map_of_mem (f := TaskRow.taskId) htask
    rw [← hids] at hmem
    exact List.mem_map.mp hmem
  refine ⟨hunique, ?_, ?_, known_append hinv.known hkept hlog ?_⟩
  · intro row hrow
    obtain ⟨old, hold, hpicked⟩ := Table.Forall₂.of_mem_right hrows hrow
    have hswept := sweptRow_ok (hinv.attempts old hold) nowMs
    cases hpicked with
    | keep => exact hswept
    | lease _ _ hcan => exact leasedRow_ok hswept hcan
  · intro row hrow
    obtain ⟨old, hold, hpicked⟩ := Table.Forall₂.of_mem_right hrows hrow
    have hcounted := hinv.counted old hold
    have hattempts : old.attemptCount + (starts worker leased).count (.started row.taskId) ≤
        row.attemptCount := by
      have honce := List.nodup_iff_count_le_one.mp (starts_nodup hinv.uniqueTasks hok)
        (.started row.taskId)
      have hswept := sweptRow_attempts nowMs old
      -- a start of this row was counted by the lease
      have hstarted : .started row.taskId ∈ starts worker leased →
          row.attemptCount = old.attemptCount + 1 := by
        intro hmem
        obtain ⟨old', hold', row', hrow', hid, hleased, hunmarked⟩ :=
          mem_starts hinv.uniqueTasks hok hmem
        obtain rfl : row' = row := List.inj_on_of_nodup_map hunique hrow' hrow hid
        have hsameId : old'.taskId = old.taskId := by
          have hrowId := (sweptRow_same nowMs old').taskId
          have hbefore : old.taskId = row'.taskId := by
            cases hpicked with
            | keep => exact (sweptRow_same nowMs old).taskId
            | lease => exact (sweptRow_same nowMs old).taskId
          rw [hbefore, hleased]
          exact hrowId
        obtain rfl : old' = old := List.inj_on_of_nodup_map hinv.uniqueTasks hold' hold hsameId
        have hmarker : isExhaustionMarker (sweptRow nowMs old').lastErrorCode = false := by
          rw [hleased] at hunmarked
          exact hunmarked
        rw [hleased, leasedRow_attempts, hmarker, hswept]
        rfl
      by_cases hmem : .started row.taskId ∈ starts worker leased
      · rw [hstarted hmem]
        omega
      · rw [List.count_eq_zero_of_not_mem hmem]
        cases hpicked with
        | keep => exact hswept.ge
        | lease =>
            rw [leasedRow_attempts, ← hswept]
            exact Nat.le_add_right _ _
    have hid : row.taskId = old.taskId := by
      cases hpicked with
      | keep => exact (sweptRow_same nowMs old).taskId.symm
      | lease => exact (sweptRow_same nowMs old).taskId.symm
    have hnoDeferral : (starts worker leased).count (.deferred row.taskId) = 0 :=
      List.count_eq_zero_of_not_mem (by simp [starts])
    rw [startCount_append hlog, deferralCount_append hlog, hnoDeferral]
    rw [← hid] at hcounted
    omega
  · intro event hevent
    obtain ⟨task, htask, rfl⟩ := List.mem_map.mp hevent
    obtain ⟨old, hold, row, _, hid, hleased, _⟩ := mem_starts hinv.uniqueTasks hok hevent
    refine ⟨old, hold, ?_⟩
    rw [(sweptRow_same nowMs old).taskId]
    rw [hleased] at hid
    exact hid

theorem WorkerInvariant.settled (hinv : WorkerInvariant s) {execution : Execution}
    {answer : Except PyError TaskExecutionResult} {nowMs : Int} {outboxId : String}
    {events : List WorkerEvent}
    (hsettle : SettleEffect execution answer nowMs outboxId s.db t.db events)
    (hlog : t.log = s.log ++ (exhaustions t.db ++ events)) : WorkerInvariant t := by
  obtain ⟨hevents, htasks⟩ := hsettle.tasks
  have hnoStart (taskId : String) : events.count (.started taskId) = 0 := by
    rcases hevents with rfl | ⟨rfl, _⟩ <;> simp
  have hknown : ∀ event ∈ events, ∃ task ∈ s.db.tasks, task.taskId = WorkerEvent.taskId event := by
    rcases hevents with rfl | ⟨rfl, hrow⟩
    · exact fun _ hevent => absurd hevent List.not_mem_nil
    · simpa [WorkerEvent.taskId] using hrow
  rcases htasks with ⟨hsame, rfl⟩ | ⟨change, hchanged, hchange⟩
  · refine ⟨hsame ▸ hinv.uniqueTasks, hsame ▸ hinv.attempts, ?_,
      known_append hinv.known (fun task htask => ⟨task, hsame ▸ htask, rfl⟩) hlog hknown⟩
    intro task htask
    rw [startCount_append hlog, deferralCount_append hlog]
    exact hinv.counted task (hsame ▸ htask)
  · have hrows : List.Forall₂ (fun old row => SameTask old row ∧
        (AttemptsOk old → AttemptsOk row) ∧
        old.attemptCount ≤ row.attemptCount + events.count (.deferred old.taskId)) s.db.tasks
          t.db.tasks := by
      rw [hchanged]
      refine Table.forall₂_update ?_ fun old _ _ => ⟨.refl old, id, Nat.le_add_right _ _⟩
      intro old _ hown
      obtain ⟨hsame, hok, hattempts⟩ := hchange old
      refine ⟨hsame, hok, ?_⟩
      have hid : old.taskId = execution.task.taskId := by
        simp only [ownedBy, Bool.and_eq_true, decide_eq_true_eq] at hown
        exact hown.1.1
      have hlength : events.count (.deferred old.taskId) = events.length := by
        rcases hevents with rfl | ⟨rfl, _⟩ <;> simp [hid]
      rwa [hlength]
    refine ⟨?_, ?_, ?_, known_append hinv.known ?_ hlog hknown⟩
    · rw [Table.Forall₂.map_eq (fun _ _ h => h.1.taskId) hrows]
      exact hinv.uniqueTasks
    · intro row hrow
      obtain ⟨old, hold, _, hok, _⟩ := Table.Forall₂.of_mem_right hrows hrow
      exact hok (hinv.attempts old hold)
    · intro row hrow
      obtain ⟨old, hold, hsame, _, hattempts⟩ := Table.Forall₂.of_mem_right hrows hrow
      have hcounted := hinv.counted old hold
      rw [startCount_append hlog, deferralCount_append hlog, hnoStart, ← hsame.taskId]
      omega
    · intro task htask
      obtain ⟨row, hrow, hsame, _⟩ := Table.Forall₂.of_mem_left hrows htask
      exact ⟨row, hrow, hsame.taskId.symm⟩

theorem WorkerInvariant.step {label : WorkerLabel} (hinv : WorkerInvariant s)
    (heffect : Effect s label t) : WorkerInvariant t := by
  cases heffect with
  | quiet hdb hlog =>
      obtain ⟨db, running, log⟩ := t
      obtain rfl : db = s.db := hdb
      obtain rfl : log = s.log := hlog
      exact ⟨hinv.uniqueTasks, hinv.attempts, hinv.counted, hinv.known⟩
  | admitted hmax htasks hlog => exact hinv.admitted hmax htasks hlog
  | leased hok hlog => exact hinv.leased hok hlog
  | settled execution hrunning hfresh hsettle hlog => exact hinv.settled hsettle hlog

end Step

/-! ### After exhaustion -/

/-- The settlement leaves an exhausted task that it owns to its finalization: it is a
finish, a retry of spent attempts, or its code is a marker itself. -/
def KeepsMarkers (s : WorkerState) : WorkerLabel → Prop
  | .settle index answer _ _ =>
      ∀ execution ∈ s.running[index]?, ∀ row ∈ s.db.tasks,
        ownedBy execution.task.taskId execution.worker.workerId row = true →
        isExhaustionMarker row.lastErrorCode = true →
        match execution.worker.settlement execution.task answer with
        | .retry e => row.maxAttempts ≤ row.attemptCount ∨ isExhaustionMarker (some e.className) = true
        | .defer _ reason => isExhaustionMarker (some reason) = true
        | .finish _ | .raise => True
  | _ => True

/-- The task is closed, or marked to be finalized. -/
def Finalizing (task : TaskRow) : Prop :=
  task.state.isTerminal = true ∨ isExhaustionMarker task.lastErrorCode = true

structure MarkerInvariant (s : WorkerState) : Prop where
  marked : ∀ taskId, .exhausted taskId ∈ s.log → ∀ task ∈ s.db.tasks, task.taskId = taskId →
    Finalizing task
  ordered : ∀ taskId, ¬ [.exhausted taskId, .started taskId].Sublist s.log

theorem MarkerInvariant.empty : MarkerInvariant {} := by
  refine ⟨fun _ hmem => absurd hmem List.not_mem_nil, fun taskId hsub => ?_⟩
  have hlength := hsub.length_le
  simp at hlength

section Markers

variable {s t : WorkerState}

theorem MarkerInvariant.extend (hmarkers : MarkerInvariant s) (hinv : WorkerInvariant s)
    (hinv' : WorkerInvariant t) {events : List WorkerEvent}
    (hlog : t.log = s.log ++ (exhaustions t.db ++ events))
    (hquiet : ∀ taskId, .exhausted taskId ∉ events)
    (hrows : ∀ row ∈ t.db.tasks, (∀ task ∈ s.db.tasks, task.taskId ≠ row.taskId) ∨
      ∃ old ∈ s.db.tasks, old.taskId = row.taskId ∧ (Finalizing old → Finalizing row))
    (hstarted : ∀ taskId, .started taskId ∈ events →
      ∃ row ∈ t.db.tasks, row.taskId = taskId ∧ ¬ Finalizing row) : MarkerInvariant t := by
  have hmarked : ∀ taskId, .exhausted taskId ∈ t.log → ∀ task ∈ t.db.tasks,
      task.taskId = taskId → Finalizing task := by
    rintro _ hexhausted row hrow rfl
    rw [hlog] at hexhausted
    rcases List.mem_append.mp hexhausted with hbefore | hnew
    · rcases hrows row hrow with hfresh | ⟨old, hold, hid, hkept⟩
      · obtain ⟨task, htask, hid⟩ := hinv.known _ hbefore
        exact absurd hid (hfresh task htask)
      · exact hkept (hmarkers.marked _ hbefore old hold hid)
    · rcases List.mem_append.mp hnew with hmarker | hevent
      · obtain ⟨other, hother, heq⟩ := List.mem_map.mp hmarker
        obtain ⟨hmem, hcode⟩ := List.mem_filter.mp hother
        have hsame := List.inj_on_of_nodup_map hinv'.uniqueTasks hmem hrow
          (WorkerEvent.exhausted.inj heq)
        exact .inr (hsame ▸ hcode)
      · exact absurd hevent (hquiet _)
  refine ⟨hmarked, fun taskId hsub => ?_⟩
  by_cases hstart : .started taskId ∈ events
  · obtain ⟨row, hrow, hid, hopen⟩ := hstarted taskId hstart
    exact hopen (hmarked taskId (hsub.subset List.mem_cons_self) row hrow hid)
  · rw [hlog] at hsub
    refine hmarkers.ordered taskId (Log.pair_append hsub fun hmem => ?_)
    rcases List.mem_append.mp hmem with hmarker | hevent
    · obtain ⟨_, _, heq⟩ := List.mem_map.mp hmarker
      cases heq
    · exact hstart hevent

theorem Finalizing.swept {task : TaskRow} (h : Finalizing task) (nowMs : Int) :
    Finalizing (sweptRow nowMs task) := by
  rcases h with hterminal | hmarker
  · left
    unfold sweptRow
    split
    · rename_i hexpired
      have hleased : task.state = .leased := by
        simp only [leaseExpired, Bool.and_eq_true, decide_eq_true_eq] at hexpired
        exact hexpired.1
      rw [hleased] at hterminal
      cases hterminal
    · exact hterminal
  · exact .inr (sweptRow_marker hmarker)

theorem MarkerInvariant.leased (hmarkers : MarkerInvariant s) (hinv : WorkerInvariant s)
    (hinv' : WorkerInvariant t) {worker : DurableTaskWorker} {nowMs : Int} {concurrency : Nat}
    {limits : Option TaskConcurrencyLimits} {leased : List LeasedTask}
    (hok : leaseTasks (leaseArgs worker nowMs concurrency) limits s.db = .ok (leased, t.db))
    (hlog : t.log = s.log ++ (exhaustions t.db ++ starts worker leased)) : MarkerInvariant t := by
  obtain ⟨ids, hrows, _⟩ := leaseTasks_rows hinv.uniqueTasks hok
  refine hmarkers.extend hinv hinv' hlog (by simp [starts]) ?_ ?_
  · intro row hrow
    obtain ⟨old, hold, hpicked⟩ := Table.Forall₂.of_mem_right hrows hrow
    have hid := (sweptRow_same nowMs old).taskId
    refine .inr ⟨old, hold, ?_, fun hfinal => ?_⟩
    · cases hpicked with
      | keep => exact hid
      | lease => exact hid
    · have hswept := hfinal.swept nowMs
      cases hpicked with
      | keep => exact hswept
      | lease _ hpending _ =>
          rcases hswept with hterminal | hmarker
          · have hstate : (sweptRow nowMs old).state = .pending := hpending
            rw [hstate] at hterminal
            cases hterminal
          · exact .inr hmarker
  · intro taskId hstarted
    obtain ⟨_, _, row, hrow, hid, hleased, hunmarked⟩ := mem_starts hinv.uniqueTasks hok hstarted
    refine ⟨row, hrow, hid, ?_⟩
    rintro (hterminal | hmarker)
    · rw [hleased] at hterminal
      cases hterminal
    · rw [hunmarked] at hmarker
      cases hmarker

theorem MarkerInvariant.settled (hmarkers : MarkerInvariant s) (hinv : WorkerInvariant s)
    (hinv' : WorkerInvariant t) {index : Nat} {execution : Execution}
    {answer : Except PyError TaskExecutionResult} {nowMs : Int} {outboxId : String}
    {events : List WorkerEvent} (hrunning : s.running[index]? = some execution)
    (hkeeps : KeepsMarkers s (.settle index answer nowMs outboxId))
    (hsettle : SettleEffect execution answer nowMs outboxId s.db t.db events)
    (hlog : t.log = s.log ++ (exhaustions t.db ++ events)) : MarkerInvariant t := by
  have hkept : ∀ row ∈ s.db.tasks,
      ownedBy execution.task.taskId execution.worker.workerId row = true → Finalizing row →
      match execution.worker.settlement execution.task answer with
      | .retry e => row.maxAttempts ≤ row.attemptCount ∨ isExhaustionMarker (some e.className) = true
      | .defer _ reason => isExhaustionMarker (some reason) = true
      | .finish _ | .raise => True := by
    intro row hrow howned hfinal
    rcases hfinal with hterminal | hmarker
    · simp only [ownedBy, Bool.and_eq_true, decide_eq_true_eq] at howned
      rw [howned.1.2] at hterminal
      cases hterminal
    · exact hkeeps execution hrunning row hrow howned hmarker
  have hevents : events = [] ∨ events = [.deferred execution.task.taskId] :=
    hsettle.tasks.1.imp_right And.left
  refine hmarkers.extend hinv hinv' hlog ?_ ?_ ?_
  · rcases hevents with rfl | rfl <;> simp
  · intro row hrow
    right
    have hmove {change : TaskRow → TaskRow}
        (hin : row ∈ Table.update (ownedBy execution.task.taskId execution.worker.workerId) change
          s.db.tasks) (hid : ∀ task, (change task).taskId = task.taskId)
        (hfinal : ∀ old ∈ s.db.tasks, ownedBy execution.task.taskId execution.worker.workerId old =
          true → Finalizing old → Finalizing (change old)) :
        ∃ old ∈ s.db.tasks, old.taskId = row.taskId ∧ (Finalizing old → Finalizing row) := by
      rcases Table.mem_update_cases hin with ⟨hold, _⟩ | ⟨old, hold, howned, rfl⟩
      · exact ⟨row, hold, rfl, id⟩
      · exact ⟨old, hold, (hid old).symm, hfinal old hold howned⟩
    generalize hdb : t.db = after at hsettle hrow
    cases hsettle with
    | rolledBack => exact ⟨row, hrow, rfl, id⟩
    | finished result hsettlement hok =>
        obtain ⟨hterminal, _, hafter⟩ := finishTask_ok hok
        rw [hafter] at hrow
        exact hmove hrow (fun _ => rfl) fun _ _ _ _ => .inl hterminal
    | retried e availableAtMs hsettlement =>
        refine hmove hrow (fun _ => rfl) ?_
        intro old hold howned hfinal
        have hcode := hkept old hold howned hfinal
        rw [hsettlement] at hcode
        right
        unfold retriedRow
        dsimp only
        split
        · rfl
        · exact hcode.resolve_left ‹_›
    | deferred delayMs reason availableAtMs hsettlement howned =>
        refine hmove hrow (fun _ => rfl) ?_
        intro old hold howned hfinal
        have hcode := hkept old hold howned hfinal
        rw [hsettlement] at hcode
        exact .inr hcode
  · rcases hevents with rfl | rfl <;> simp

theorem MarkerInvariant.step {label : WorkerLabel} (hmarkers : MarkerInvariant s)
    (hinv : WorkerInvariant s) (hkeeps : KeepsMarkers s label) (heffect : Effect s label t) :
    MarkerInvariant t := by
  have hinv' := hinv.step heffect
  cases heffect with
  | quiet hdb hlog =>
      obtain ⟨db, running, log⟩ := t
      obtain rfl : db = s.db := hdb
      obtain rfl : log = s.log := hlog
      exact ⟨hmarkers.marked, hmarkers.ordered⟩
  | admitted hmax htasks hlog =>
      refine hmarkers.extend hinv hinv' hlog (by simp) ?_ (by simp)
      intro row hrow
      rcases htasks with hsame | ⟨hfresh, eventPk, hgrown⟩
      · rw [hsame] at hrow
        exact .inr ⟨row, hrow, rfl, id⟩
      · rw [hgrown] at hrow
        rcases List.mem_append.mp hrow with hold | hnew
        · exact .inr ⟨row, hold, rfl, id⟩
        · left
          rw [List.mem_singleton.mp hnew]
          exact hfresh
  | leased hok hlog => exact hmarkers.leased hinv hinv' hok hlog
  | settled execution hrunning hfresh hsettle hlog =>
      exact hmarkers.settled hinv hinv' hrunning hkeeps hsettle hlog

end Markers

/-! ### Terminal tasks -/

theorem sweptRow_terminal {nowMs : Int} {task : TaskRow} (hterminal : task.state.isTerminal = true ∨
    (sweptRow nowMs task).state.isTerminal = true) : sweptRow nowMs task = task := by
  unfold sweptRow at hterminal ⊢
  split
  · rename_i hexpired
    have hleased : task.state = .leased := by
      simp only [leaseExpired, Bool.and_eq_true, decide_eq_true_eq] at hexpired
      exact hexpired.1
    rw [hleased, if_pos hexpired] at hterminal
    rcases hterminal with hbefore | hafter
    · cases hbefore
    · split at hafter <;> cases hafter
  · rfl

/-- A terminal row stays as it is, and a row becomes terminal only in the transaction of
an execution that finishes it, with its terminal message in the outbox. -/
def CommitsTerminal (s : WorkerState) (label : WorkerLabel) : Prop :=
  ∀ t, step s label = some t →
    (∀ row ∈ s.db.tasks, row.state.isTerminal = true → row ∈ t.db.tasks) ∧
    ∀ row ∈ t.db.tasks, row.state.isTerminal = true → row ∈ s.db.tasks ∨
      ∃ index answer nowMs outboxId execution result,
        label = .settle index answer nowMs outboxId ∧ s.running[index]? = some execution ∧
        execution.task.taskId = row.taskId ∧
        execution.worker.settlement execution.task answer = .finish result ∧
        row.state = result.state ∧
        ∀ draft ∈ result.terminalMessage, ∃ message ∈ t.db.outbox,
          message.draft.idempotencyKey = draft.idempotencyKey

theorem commitsTerminal {s : WorkerState} (hinv : WorkerInvariant s) (label : WorkerLabel) :
    CommitsTerminal s label := by
  intro t hstep
  have heffect := effect hstep
  cases heffect with
  | quiet hdb _ =>
      rw [hdb]
      exact ⟨fun _ hrow _ => hrow, fun _ hrow _ => .inl hrow⟩
  | admitted hmax htasks hlog =>
      rcases htasks with hsame | ⟨hfresh, eventPk, hgrown⟩
      · rw [hsame]
        exact ⟨fun _ hrow _ => hrow, fun _ hrow _ => .inl hrow⟩
      · rw [hgrown]
        refine ⟨fun _ hrow _ => List.mem_append_left _ hrow, fun row hrow hterminal => ?_⟩
        rcases List.mem_append.mp hrow with hold | hnew
        · exact .inl hold
        · rw [List.mem_singleton.mp hnew] at hterminal
          cases hterminal
  | @leased worker nowMs concurrency limits leased _ hok hlog =>
      obtain ⟨ids, hrows, _⟩ := leaseTasks_rows hinv.uniqueTasks hok
      constructor
      · intro old hold hterminal
        obtain ⟨row, hrow, hpicked⟩ := Table.Forall₂.of_mem_left hrows hold
        have hsame : sweptRow nowMs old = old := sweptRow_terminal (.inl hterminal)
        change PickedRow _ CanLease ids (sweptRow nowMs old) row at hpicked
        rw [hsame] at hpicked
        cases hpicked with
        | keep => exact hrow
        | lease _ hpending _ =>
            rw [hpending] at hterminal
            cases hterminal
      · intro row hrow hterminal
        obtain ⟨old, hold, hpicked⟩ := Table.Forall₂.of_mem_right hrows hrow
        cases hpicked with
        | keep =>
            have hsame : sweptRow nowMs old = old := sweptRow_terminal (.inr hterminal)
            left
            change sweptRow nowMs old ∈ s.db.tasks
            rwa [hsame]
        | lease => cases hterminal
  | @settled index answer nowMs outboxId events _ execution hrunning hfresh hsettle hlog =>
      have hfrom {change : TaskRow → TaskRow} {row : TaskRow} (hrow : row ∈ s.db.tasks)
          (hterminal : row.state.isTerminal = true) : row ∈ Table.update
            (ownedBy execution.task.taskId execution.worker.workerId) change s.db.tasks := by
        refine Table.mem_update_of_not hrow ?_
        rw [Bool.eq_false_iff]
        intro howned
        simp only [ownedBy, Bool.and_eq_true, decide_eq_true_eq] at howned
        rw [howned.1.2] at hterminal
        cases hterminal
      generalize hdb : t.db = after at hsettle
      cases hsettle with
      | rolledBack => exact ⟨fun _ hrow _ => hrow, fun _ hrow _ => .inl hrow⟩
      | finished result hsettlement hok =>
          obtain ⟨_, _, hafter⟩ := finishTask_ok hok
          have htasks := congrArg Database.tasks hafter
          rw [htasks]
          refine ⟨fun _ hrow hterminal => hfrom hrow hterminal, fun row hrow hterminal => ?_⟩
          rcases Table.mem_update_cases hrow with ⟨hold, _⟩ | ⟨old, hold, howned, rfl⟩
          · exact .inl hold
          · right
            simp only [ownedBy, Bool.and_eq_true, decide_eq_true_eq] at howned
            refine ⟨index, answer, nowMs, outboxId, execution, result, rfl, hrunning,
              howned.1.1.symm, hsettlement, rfl, ?_⟩
            intro draft hdraft
            exact finishTask_message hok hdraft hfresh
      | retried e availableAtMs hsettlement =>
          refine ⟨fun _ hrow hterminal => hfrom hrow hterminal, fun row hrow hterminal => ?_⟩
          rcases Table.mem_update_cases hrow with ⟨hold, _⟩ | ⟨old, hold, howned, rfl⟩
          · exact .inl hold
          · cases hterminal
      | deferred delayMs reason availableAtMs hsettlement howned =>
          refine ⟨fun _ hrow hterminal => hfrom hrow hterminal, fun row hrow hterminal => ?_⟩
          rcases Table.mem_update_cases hrow with ⟨hold, _⟩ | ⟨old, hold, howned, rfl⟩
          · exact .inl hold
          · cases hterminal

/-! ### Every run -/

structure QueueKeepsAttempts (s : WorkerState) : Prop where
  bounded : ∀ task ∈ s.db.tasks, task.attemptCount ≤ task.maxAttempts
  leasable : ∀ task ∈ s.db.tasks, task.state = .pending →
    (task.attemptCount < task.maxAttempts ∨ isExhaustionMarker task.lastErrorCode = true) ∧
    ∀ nowMs, task.availableAtMs ≤ nowMs →
      (∀ active ∈ s.db.tasks, active.sessionKey = task.sessionKey → leaseLive nowMs active = false) →
      isAvailable s.db.tasks nowMs task = true
  starts : ∀ task ∈ s.db.tasks,
    startCount s task.taskId ≤ task.maxAttempts + deferralCount s task.taskId

/-- Once a task is exhausted, `handler.execute` does not start for it any more. -/
def NoStartAfterExhaustion (s : WorkerState) : Prop :=
  ∀ taskId, ¬ [.exhausted taskId, .started taskId].Sublist s.log

theorem WorkerInvariant.keepsAttempts {s : WorkerState} (hinv : WorkerInvariant s) :
    QueueKeepsAttempts s := by
  refine ⟨fun task htask => (hinv.attempts task htask).bounded, ?_, ?_⟩
  · intro task htask hpending
    have hcan := (hinv.attempts task htask).leasable hpending
    exact ⟨hcan, fun nowMs havailable hfree =>
      isAvailable_iff.mpr ⟨hpending, havailable, hcan, hfree⟩⟩
  · intro task htask
    have hcounted := hinv.counted task htask
    have hbounded := (hinv.attempts task htask).bounded
    omega

/-- The counting needs no condition on the run. -/
theorem queue_keeps_attempts (labels : List WorkerLabel) :
    Always step QueueKeepsAttempts labels {} ∧ Along step CommitsTerminal labels {} := by
  have hany : Along step (fun _ _ => True) labels {} := along_of_forall (fun _ _ => trivial) _ _
  constructor
  · exact always_of_invariant (I := WorkerInvariant) (fun _ _ _ hinv _ hstep => hinv.step (effect hstep))
      (fun _ hinv => hinv.keepsAttempts) .empty hany
  · exact along_of_invariant (I := WorkerInvariant)
      (fun _ _ _ hinv _ hstep => hinv.step (effect hstep))
      (fun _ label hinv _ => commitsTerminal hinv label) .empty hany

/-- While no execution gives back the finalization lease of a task that it has lost, the
attempts are bounded, no task is stuck, `handler.execute` starts at most as often as the
attempts allow and never after exhaustion, and tasks close for good with their message. -/
theorem attempts_kept {labels : List WorkerLabel} (hkeeps : Along step KeepsMarkers labels {}) :
    Always step (fun s => QueueKeepsAttempts s ∧ NoStartAfterExhaustion s) labels {} ∧
      Along step CommitsTerminal labels {} := by
  refine ⟨?_, (queue_keeps_attempts labels).2⟩
  refine always_of_invariant (I := fun s => WorkerInvariant s ∧ MarkerInvariant s) ?_
    (fun _ h => ⟨h.1.keepsAttempts, h.2.ordered⟩) ⟨.empty, .empty⟩ hkeeps
  rintro s label t ⟨hinv, hmarkers⟩ hlabel hstep
  have heffect := effect hstep
  exact ⟨hinv.step heffect, hmarkers.step hinv hlabel heffect⟩

section Examples

instance (s : WorkerState) (label : WorkerLabel) : Decidable (KeepsMarkers s label) :=
  match label with
  | .settle index answer _ _ =>
      have (execution : Execution) (row : TaskRow) : Decidable
          (match execution.worker.settlement execution.task answer with
          | .retry e => row.maxAttempts ≤ row.attemptCount ∨
              isExhaustionMarker (some e.className) = true
          | .defer _ reason => isExhaustionMarker (some reason) = true
          | .finish _ | .raise => True) :=
        match execution.worker.settlement execution.task answer with
        | .retry _ => inferInstance
        | .defer _ _ => inferInstance
        | .finish _ => .isTrue trivial
        | .raise => .isTrue trivial
      inferInstanceAs (Decidable (∀ execution ∈ s.running[index]?, ∀ row ∈ s.db.tasks, _ → _ → _))
  | .admitEvent .. | .runOnce .. | .abandon _ | .crash _ => .isTrue trivial

private def request (eventId sessionKey : String) (maxAttempts : Nat) : WorkerLabel :=
  .admitEvent
    { eventId, pluginId := "im", eventType := "im.message", tenantKey := "tenant", appId := "app"
      occurredAtMs := 0, receivedAtMs := 0, resourceKind := "message", resourceId := eventId
      traceId := eventId }
    { pluginId := "im", commandType := "im.handle_mention", sessionKey, payload := [], maxAttempts }
    none eventId ("ack-" ++ eventId) 0

private def replying : TaskHandler where
  failure task _ := .ok
    { state := .failed, errorCode := some "failed", terminal := TaskState.failed_terminal
      terminalMessage := some
        { publisherId := "feishu-im.reply", destinationRef := task.taskId, messageKind := "failed"
          idempotencyKey := task.taskId, payload := [] } }

private def refusing : TaskHandler where
  failure _ _ := .error (.valueError "IM mention task requires message_id")

/-- The process dies in the last attempt; the next lease finalizes the task. -/
theorem attempts_kept_of_crash :
    let worker : DurableTaskWorker := { handlers := [("im.handle_mention", replying)], workerId := "w" }
    let labels : List WorkerLabel :=
      [request "task-1" "chat-1" 1, .runOnce worker 1 4 none, .crash "w",
        .runOnce worker 400000 4 none, .settle 0 (.error .cancelledError) 400001 "reply-1"]
    (exec step labels {}).map (fun s => (s.db.tasks.map (fun task => (task.state, task.attemptCount)),
        s.db.outbox.map fun row => row.draft.idempotencyKey)) =
      some ([(.failed, 1)], ["task-1"]) ∧
    Always step (fun s => QueueKeepsAttempts s ∧ NoStartAfterExhaustion s) labels {} ∧
      Along step CommitsTerminal labels {} := by
  intro worker labels
  exact ⟨by decide +kernel, attempts_kept (along_of_decide (by decide +kernel))⟩

/-- The other execution of the batch raises, so `run_once` returns while the first task
still runs; the next `run_once` of the same worker takes the lost lease to finalize it,
and the deferral of the first execution gives that lease back. -/
theorem lost_execution_reopens_exhausted_task :
    let worker : DurableTaskWorker :=
      { handlers := [("im.handle_mention", refusing)], workerId := "w" }
    let labels : List WorkerLabel :=
      [request "task-1" "chat-1" 1, request "task-2" "chat-2" 1, .runOnce worker 1 4 none,
        .settle 1 (.error (.valueError "invalid payload")) 2 "reply-2",
        .runOnce worker 300001 1 none,
        .settle 0 (.error (.taskDeferred "approval_pending" 2000)) 300002 "reply-1",
        .runOnce worker 400000 1 none]
    ¬ (Always step (fun s => QueueKeepsAttempts s ∧ NoStartAfterExhaustion s) labels {} ∧
      Along step CommitsTerminal labels {}) := by
  rintro worker labels ⟨hall, _⟩
  have hcheck : ∀ s, QueueKeepsAttempts s ∧ NoStartAfterExhaustion s →
      (!decide ([WorkerEvent.exhausted "task-1", .started "task-1"].Sublist s.log)) = true := by
    rintro s ⟨_, hnever⟩
    simpa using hnever "task-1"
  exact not_always_of_check hcheck (by decide +kernel) hall

end Examples

end TaskWorkers

end Codex2Lark
