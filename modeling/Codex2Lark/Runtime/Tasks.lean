import Codex2Lark.Storage.RunStatus

/-!
`DurableTaskWorker` of `runtime/tasks.py`. The handler's awaited answer is an
argument; what the worker does with it is one transaction of the queue.
-/

namespace Codex2Lark

open Lib

/-- The field carries what `__post_init__` checks. -/
structure TaskExecutionResult where
  state : TaskState
  terminalMessage : Option OutboxDraft := none
  errorCode : Option String := none
  terminal : state.isTerminal = true

/-- The synchronous method of a handler. -/
structure TaskHandler where
  failure : LeasedTask → PyError → Except PyError TaskExecutionResult

structure DurableTaskWorker where
  handlers : List (String × TaskHandler)
  workerId : String
  leaseMs : Nat := 300000
  retryDelayMs : Nat := 2000

namespace DurableTaskWorker

def handlerFor (worker : DurableTaskWorker) (task : LeasedTask) : Option TaskHandler :=
  (worker.handlers.find? fun entry => entry.1 = task.commandType).map Prod.snd

/-- The body of the `try`. -/
def attempt (worker : DurableTaskWorker) (task : LeasedTask)
    (answer : Except PyError TaskExecutionResult) : Except PyError TaskExecutionResult :=
  match worker.handlerFor task, task.recoveryErrorCode with
  | none, _ =>
      .error (.runtimeError ("task handler is unavailable: " ++ task.commandType))
  | some _, some code => .error (.permanentTaskError code)
  | some _, none => answer

def handlerUnavailable : TaskExecutionResult :=
  { state := .failed, errorCode := some "handler_unavailable"
    terminal := TaskState.failed_terminal }

/-- `handler.failure`, or the result when there is no handler. -/
def failure (worker : DurableTaskWorker) (task : LeasedTask) (e : PyError) :
    Except PyError TaskExecutionResult :=
  match worker.handlerFor task with
  | some handler => handler.failure task e
  | none => .ok handlerUnavailable

def isPermanent : PyError → Bool
  | .permanentTaskError _ => true
  | _ => false

/-- Await one queue operation, then return or raise `value`. -/
def awaiting {α : Type} (operation : Database → Except PyError (Unit × Database))
    (value : Except PyError α) (db : Database) : Except PyError α × Database :=
  let (result, after) := db.transaction operation
  (result.bind fun _ => value, after)

def finish (worker : DurableTaskWorker) (task : LeasedTask) (nowMs : Int) (outboxId : String)
    (result : TaskExecutionResult) : Database → Except PyError Bool × Database :=
  awaiting
    (TaskQueue.finishTask
      { taskId := task.taskId, workerId := worker.workerId, state := result.state
        errorCode := result.errorCode, terminalMessage := result.terminalMessage }
      outboxId nowMs) (.ok false)

def defer (worker : DurableTaskWorker) (task : LeasedTask) (nowMs : Int) (delayMs : Nat)
    (reason : String) (value : Except PyError Bool) :
    Database → Except PyError Bool × Database :=
  awaiting (TaskQueue.deferTask task.taskId worker.workerId (nowMs + delayMs) reason nowMs) value

def retry (worker : DurableTaskWorker) (task : LeasedTask) (nowMs : Int) (e : PyError) :
    Database → Except PyError Bool × Database :=
  awaiting (TaskQueue.retryTask task.taskId worker.workerId (nowMs + worker.retryDelayMs)
    e.className nowMs) (.ok true)

/-- `_execute` from the handler's answer to its end. `nowMs` is `transition_ms`;
the value says whether the task is tried again. -/
def execute (worker : DurableTaskWorker) (task : LeasedTask) (nowMs : Int) (outboxId : String)
    (answer : Except PyError TaskExecutionResult) (db : Database) :
    Except PyError Bool × Database :=
  match worker.attempt task answer with
  | .ok result => worker.finish task nowMs outboxId result db
  | .error (.taskDeferred reason delayMs) =>
      worker.defer task nowMs delayMs reason (.ok true) db
  | .error e =>
      if !e.isException then worker.defer task nowMs 0 "shutdown_cancelled" (.error e) db
      else if !isPermanent e ∧ task.attemptCount < task.maxAttempts then
        worker.retry task nowMs e db
      else
        match worker.failure task e with
        | .error e => (.error e, db)
        | .ok result => worker.finish task nowMs outboxId result db

theorem execute_database (worker : DurableTaskWorker) (task : LeasedTask) (nowMs : Int)
    (outboxId : String) (answer : Except PyError TaskExecutionResult) (db : Database) :
    (worker.execute task nowMs outboxId answer db).2 = db ∨
      ∃ op : StoreOp, op.isSession = false ∧
        (worker.execute task nowMs outboxId answer db).2 = op.apply db := by
  have hfinish : ∀ result : TaskExecutionResult, ∃ op : StoreOp, op.isSession = false ∧
      (worker.finish task nowMs outboxId result db).2 = op.apply db := fun result =>
    ⟨.finishTask ⟨task.taskId, worker.workerId, result.state, result.errorCode,
      result.terminalMessage⟩ outboxId nowMs, rfl, rfl⟩
  have hdefer : ∀ delayMs reason value, ∃ op : StoreOp, op.isSession = false ∧
      (worker.defer task nowMs delayMs reason value db).2 = op.apply db :=
    fun delayMs reason value =>
      ⟨.deferTask task.taskId worker.workerId (nowMs + delayMs) reason nowMs, rfl, rfl⟩
  unfold execute
  split
  · exact Or.inr (hfinish _)
  · exact Or.inr (hdefer ..)
  · split
    · exact Or.inr (hdefer ..)
    · split
      · exact Or.inr ⟨.retryTask task.taskId worker.workerId (nowMs + worker.retryDelayMs) _ nowMs,
          rfl, rfl⟩
      · split
        · exact Or.inl rfl
        · exact Or.inr (hfinish _)

/-- A result that reaches the worker finishes the task. -/
theorem execute_ok {worker : DurableTaskWorker} {task : LeasedTask} {nowMs : Int}
    {outboxId : String} {answer : Except PyError TaskExecutionResult} {db : Database}
    {result : TaskExecutionResult} (hok : worker.attempt task answer = .ok result) :
    worker.execute task nowMs outboxId answer db =
      worker.finish task nowMs outboxId result db := by
  unfold execute
  rw [hok]

end DurableTaskWorker

end Codex2Lark
