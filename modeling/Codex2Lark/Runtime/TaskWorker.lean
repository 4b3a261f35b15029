import Codex2Lark.Runtime.Tasks
import Codex2Lark.Storage.TaskLeasing

/-!
Workers over the task queue. A batch of `run_once` is leased in one transaction and
each of its executions ends in at most one more; `gather` does not wait for the other
executions when one of them raises, so executions of several batches of one worker
can be under way at once. A process can die between any two transactions.
-/

namespace Codex2Lark

open Lib TaskQueue

namespace DurableTaskWorker

/-- How `_execute` ends: with one call of the queue, or with the exception of
`handler.failure`. -/
inductive Settlement where
  | finish (result : TaskExecutionResult)
  | retry (e : PyError)
  | defer (delayMs : Nat) (reason : String)
  | raise

/-- The last two `except` clauses. -/
def settleError (worker : DurableTaskWorker) (task : LeasedTask) (e : PyError) : Settlement :=
  if !e.isException then .defer 0 "shutdown_cancelled"
  else if !isPermanent e ∧ task.attemptCount < task.maxAttempts then .retry e
  else
    match worker.failure task e with
    | .error _ => .raise
    | .ok result => .finish result

def settlement (worker : DurableTaskWorker) (task : LeasedTask)
    (answer : Except PyError TaskExecutionResult) : Settlement :=
  match worker.attempt task answer with
  | .ok result => .finish result
  | .error (.taskDeferred reason delayMs) => .defer delayMs reason
  | .error e => worker.settleError task e

/-- The transaction of a settlement. -/
def Settlement.op (worker : DurableTaskWorker) (task : LeasedTask) (nowMs : Int)
    (outboxId : String) : Settlement → Option StoreOp
  | .finish result =>
      some (.finishTask ⟨task.taskId, worker.workerId, result.state, result.errorCode,
        result.terminalMessage⟩ outboxId nowMs)
  | .retry e =>
      some (.retryTask task.taskId worker.workerId (nowMs + worker.retryDelayMs) e.className nowMs)
  | .defer delayMs reason =>
      some (.deferTask task.taskId worker.workerId (nowMs + delayMs) reason nowMs)
  | .raise => none

theorem settlement_error {worker : DurableTaskWorker} {task : LeasedTask}
    {answer : Except PyError TaskExecutionResult} {e : PyError}
    (hattempted : worker.attempt task answer = .error e)
    (hdeferred : ∀ reason delayMs, e ≠ .taskDeferred reason delayMs) :
    worker.settlement task answer = worker.settleError task e := by
  unfold settlement
  rw [hattempted]
  cases e with
  | taskDeferred reason delayMs => exact (hdeferred reason delayMs rfl).elim
  | _ => rfl

theorem execute_settles (worker : DurableTaskWorker) (task : LeasedTask) (nowMs : Int)
    (outboxId : String) (answer : Except PyError TaskExecutionResult) (db : Database) :
    (worker.execute task nowMs outboxId answer db).2 =
      (((worker.settlement task answer).op worker task nowMs outboxId).map
        (StoreOp.apply db)).getD db := by
  unfold execute
  split
  · rename_i result hattempted
    have hsettlement : worker.settlement task answer = .finish result := by
      unfold settlement
      rw [hattempted]
    rw [hsettlement]
    rfl
  · rename_i reason delayMs hattempted
    have hsettlement : worker.settlement task answer = .defer delayMs reason := by
      unfold settlement
      rw [hattempted]
    rw [hsettlement]
    rfl
  · rename_i e hdeferred hattempted
    rw [settlement_error hattempted fun reason delayMs h => hdeferred reason delayMs h]
    unfold settleError
    split
    · rfl
    · split
      · rfl
      · cases worker.failure task e <;> rfl

end DurableTaskWorker

/-! ### The system -/

structure Execution where
  worker : DurableTaskWorker
  task : LeasedTask

/-- The execution calls `handler.execute`. -/
def Execution.calls (execution : Execution) : Bool :=
  (execution.worker.handlerFor execution.task).isSome && execution.task.recoveryErrorCode.isNone

/-- What a reader of the history sees of one task: that it carries an exhaustion marker,
that `handler.execute` starts, that a deferral or a cancellation gives the lease back. -/
inductive WorkerEvent where
  | exhausted (taskId : String)
  | started (taskId : String)
  | deferred (taskId : String)
deriving DecidableEq, Repr

structure WorkerState where
  db : Database := {}
  running : List Execution := []
  log : List WorkerEvent := []

/-- `abandon` is an execution that ends outside the `try`, without a transaction;
`crash` is the death of a worker's process. -/
inductive WorkerLabel where
  | admitEvent (event : NormalizedEvent) (command : TaskCommand) (acknowledgement : Option OutboxDraft)
      (taskId outboxId : String) (nowMs : Int)
  | runOnce (worker : DurableTaskWorker) (nowMs : Int) (concurrency : Nat)
      (limits : Option TaskConcurrencyLimits)
  | settle (index : Nat) (answer : Except PyError TaskExecutionResult) (nowMs : Int)
      (outboxId : String)
  | abandon (index : Nat)
  | crash (workerId : String)

namespace TaskWorkers

def exhaustions (db : Database) : List WorkerEvent :=
  (db.tasks.filter fun task => isExhaustionMarker task.lastErrorCode).map fun task =>
    .exhausted task.taskId

/-- The executions of a batch that reach the handler; an execution whose process dies
before its first step counts as started. -/
def starts (worker : DurableTaskWorker) (leased : List LeasedTask) : List WorkerEvent :=
  (leased.filter fun task => Execution.calls ⟨worker, task⟩).map fun task => .started task.taskId

def leaseArgs (worker : DurableTaskWorker) (nowMs : Int) (concurrency : Nat) : LeaseArgs :=
  { workerId := worker.workerId, nowMs, leaseMs := worker.leaseMs, limit := concurrency }

/-- A deferral that commits. -/
def deferrals (execution : Execution) (answer : Except PyError TaskExecutionResult) (nowMs : Int)
    (db : Database) : List WorkerEvent :=
  match execution.worker.settlement execution.task answer with
  | .defer delayMs reason =>
      match deferTask execution.task.taskId execution.worker.workerId (nowMs + delayMs) reason
        nowMs db with
      | .ok _ => [.deferred execution.task.taskId]
      | .error _ => []
  | _ => []

/-- One step. `TaskCommand` refuses a maximum below one, and `uuid4` draws an unused
identifier for the terminal message. -/
def step (s : WorkerState) : WorkerLabel → Option WorkerState
  | .admitEvent event command acknowledgement taskId outboxId nowMs =>
      if command.maxAttempts < 1 then none
      else
        let db := StoreOp.apply s.db
          (.admitEvent event command acknowledgement taskId outboxId nowMs)
        some { s with db, log := s.log ++ exhaustions db }
  | .runOnce worker nowMs concurrency limits =>
      match leaseTasks (leaseArgs worker nowMs concurrency) limits s.db with
      | .error _ => some s
      | .ok (leased, db) =>
          some
            { db, running := s.running ++ leased.map (Execution.mk worker)
              log := s.log ++ (exhaustions db ++ starts worker leased) }
  | .settle index answer nowMs outboxId =>
      match s.running[index]? with
      | none => none
      | some execution =>
          if s.db.outbox.any fun row => row.outboxId = outboxId then none
          else
            let db := (execution.worker.execute execution.task nowMs outboxId answer s.db).2
            some
              { db, running := s.running.eraseIdx index
                log := s.log ++ (exhaustions db ++ deferrals execution answer nowMs s.db) }
  | .abandon index => some { s with running := s.running.eraseIdx index }
  | .crash workerId =>
      some { s with running := s.running.filter fun execution => execution.worker.workerId ≠ workerId }

end TaskWorkers

end Codex2Lark
