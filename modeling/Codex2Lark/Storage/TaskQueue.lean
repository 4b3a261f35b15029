import Codex2Lark.Storage.RuntimeStore

/-!
The leased task queue of `storage/runtime_store.py`. A lease transaction first
sweeps the expired leases, then picks candidates one at a time; every pick moves
the last-served sequence of the picked task's lanes.
-/

namespace Codex2Lark.TaskQueue

open Lib

/-- `last_error_code IN ('retry_exhausted', 'lease_retry_exhausted')`. -/
def isExhaustionMarker (code : Option String) : Bool :=
  code = some "retry_exhausted" || code = some "lease_retry_exhausted"

def leaseExpired (nowMs : Int) (task : TaskRow) : Bool :=
  task.state = .leased && (task.leaseExpiresAtMs.any fun expiry => expiry ≤ nowMs)

def leaseLive (nowMs : Int) (task : TaskRow) : Bool :=
  task.state = .leased && (task.leaseExpiresAtMs.any fun expiry => nowMs < expiry)

def dropLease (nowMs : Int) (task : TaskRow) : TaskRow :=
  { task with state := .pending, leaseOwner := none, leaseExpiresAtMs := none,
              updatedAtMs := nowMs }

/-- The two `UPDATE` statements at the head of `lease_tasks`. -/
def sweepExpired (nowMs : Int) (tasks : List TaskRow) : List TaskRow :=
  let retried := Table.update
    (fun task => leaseExpired nowMs task && decide (task.attemptCount < task.maxAttempts))
    (dropLease nowMs) tasks
  Table.update
    (fun task => leaseExpired nowMs task && decide (task.maxAttempts ≤ task.attemptCount))
    (fun task => { dropLease nowMs task with lastErrorCode := some "lease_retry_exhausted" })
    retried

/-- The `WHERE` of the common table expression `ranked`. -/
def isAvailable (tasks : List TaskRow) (nowMs : Int) (task : TaskRow) : Bool :=
  task.state = .pending && decide (task.availableAtMs ≤ nowMs) &&
    (decide (task.attemptCount < task.maxAttempts) || isExhaustionMarker task.lastErrorCode) &&
    !tasks.any fun active => active.sessionKey = task.sessionKey && leaseLive nowMs active

/-- `priority DESC, created_at_ms, task_id`. -/
def taskLe (a b : TaskRow) : Bool :=
  if a.priority ≠ b.priority then b.priority < a.priority
  else if a.createdAtMs ≠ b.createdAtMs then a.createdAtMs < b.createdAtMs
  else a.taskId ≤ b.taskId

/-- `session_rank = 1` among the available tasks. -/
def isSessionHead (tasks : List TaskRow) (nowMs : Int) (task : TaskRow) : Bool :=
  isAvailable tasks nowMs task && (tasks.filter (isAvailable tasks nowMs)).all fun other =>
    other.sessionKey ≠ task.sessionKey || taskLe task other

def separator : String := String.ofList [Char.ofNat 31]

def appLaneKey (task : TaskRow) : String := task.tenantKey ++ separator ++ task.appId

def groupLaneKey (task : TaskRow) (groupId : String) : String :=
  appLaneKey task ++ separator ++ groupId

/-- `COALESCE(last_served_sequence, 0)` of one joined lane. -/
def lastServed (lanes : List LaneRow) (kind key : String) : Nat :=
  ((lanes.find? fun lane => lane.scopeKind = kind && lane.scopeKey = key).map
    LaneRow.lastServedSequence).getD 0

def servedKey (lanes : List LaneRow) (task : TaskRow) : List Nat :=
  [lastServed lanes "tenant" task.tenantKey, lastServed lanes "app" (appLaneKey task),
    (task.groupId.map fun groupId => lastServed lanes "group" (groupLaneKey task groupId)).getD 0,
    lastServed lanes "session" task.sessionKey]

def candidateLe (lanes : List LaneRow) (a b : TaskRow) : Bool :=
  if servedKey lanes a ≠ servedKey lanes b then servedKey lanes a < servedKey lanes b
  else taskLe a b

def liveCount (tasks : List TaskRow) (nowMs : Int) (scope : TaskRow → Bool) : Nat :=
  tasks.countP fun active => leaseLive nowMs active && scope active

/-- The three `COUNT(*)` limits of the candidate query. -/
def withinLimits (limits : TaskConcurrencyLimits) (tasks : List TaskRow) (nowMs : Int)
    (task : TaskRow) : Bool :=
  decide (liveCount tasks nowMs (fun active => active.tenantKey = task.tenantKey) <
      limits.tenantLimit) &&
    decide (liveCount tasks nowMs (fun active =>
      active.tenantKey = task.tenantKey && active.appId = task.appId) < limits.appLimit) &&
    (task.groupId.isNone ||
      decide (liveCount tasks nowMs (fun active =>
        active.tenantKey = task.tenantKey && active.appId = task.appId &&
          active.groupId = task.groupId) < limits.groupLimit))

structure LeaseArgs where
  workerId : String
  nowMs : Int
  leaseMs : Int
  limit : Nat := 1
deriving DecidableEq, Repr

/-- `_lease_task`; the selected row is pending, so the statement matches it. -/
def leaseTask (args : LeaseArgs) (taskId : String) (tasks : List TaskRow) : List TaskRow :=
  Table.update (fun task => task.taskId = taskId && task.state = .pending)
    (fun task =>
      { task with
        state := .leased
        leaseOwner := some args.workerId
        leaseExpiresAtMs := some (args.nowMs + args.leaseMs)
        attemptCount := if isExhaustionMarker task.lastErrorCode then task.attemptCount
          else task.attemptCount + 1
        updatedAtMs := args.nowMs }) tasks

def putLane (sequence : Nat) (nowMs : Int) (lanes : List LaneRow) (lane : String × String) :
    List LaneRow :=
  let same := fun row : LaneRow => decide (row.scopeKind = lane.1) && row.scopeKey = lane.2
  if lanes.any same then
    Table.update same
      (fun row => { row with lastServedSequence := sequence, updatedAtMs := nowMs }) lanes
  else lanes ++ [⟨lane.1, lane.2, sequence, nowMs⟩]

/-- `_advance_scheduler_lanes`. -/
def advanceLanes (task : TaskRow) (nowMs : Int) (db : Database) : Database :=
  let sequence := db.schedulerSequence + 1
  let lanes := [("tenant", task.tenantKey), ("app", appLaneKey task),
      ("session", task.sessionKey)] ++
    (task.groupId.map fun groupId => ("group", groupLaneKey task groupId)).toList
  { db with
    schedulerSequence := sequence
    lanes := lanes.foldl (putLane sequence nowMs) db.lanes }

/-- The selection without concurrency limits. -/
def selectUnlimited (args : LeaseArgs) (db : Database) : List String × Database :=
  let heads := (db.tasks.filter (isSessionHead db.tasks args.nowMs)).insertionSort
    (fun a b => taskLe a b)
  let taskIds := (heads.take args.limit).map TaskRow.taskId
  (taskIds, { db with
    tasks := taskIds.foldl (fun tasks taskId => leaseTask args taskId tasks) db.tasks })

/-- The candidate that one round of the limited selection returns. -/
def nextCandidate (limits : TaskConcurrencyLimits) (nowMs : Int) (db : Database) :
    Option TaskRow :=
  ((db.tasks.filter fun task =>
      isSessionHead db.tasks nowMs task && withinLimits limits db.tasks nowMs task).insertionSort
    (fun a b => candidateLe db.lanes a b)).head?

/-- The loop of `_select_task_ids`: `rounds` picks at most. -/
def selectLimited (limits : TaskConcurrencyLimits) (args : LeaseArgs) :
    Nat → Database → List String × Database
  | 0, db => ([], db)
  | rounds + 1, db =>
      match nextCandidate limits args.nowMs db with
      | none => ([], db)
      | some task =>
          let leased := { db with tasks := leaseTask args task.taskId db.tasks }
          let (rest, after) := selectLimited limits args rounds
            (advanceLanes task args.nowMs leased)
          (task.taskId :: rest, after)

def selectTaskIds (limits : Option TaskConcurrencyLimits) (args : LeaseArgs) (db : Database) :
    List String × Database :=
  match limits with
  | none => selectUnlimited args db
  | some limits =>
      let active := liveCount db.tasks args.nowMs fun _ => true
      selectLimited limits args (min args.limit (limits.globalLimit - active)) db

/-- `_leased_task` of one row joined with its event. -/
def leasedTask (db : Database) (task : TaskRow) : LeasedTask :=
  let event := task.eventPk.bind fun pk => db.events.find? fun row => row.eventPk = pk
  { taskId := task.taskId, eventId := event.map fun row => row.event.eventId
    pluginId := task.pluginId, commandType := task.commandType, sessionKey := task.sessionKey
    payload := task.payload, attemptCount := task.attemptCount, maxAttempts := task.maxAttempts
    leaseExpiresAtMs := task.leaseExpiresAtMs.getD 0
    recoveryErrorCode := if isExhaustionMarker task.lastErrorCode then task.lastErrorCode else none
    tenantKey := task.tenantKey, appId := task.appId, groupId := task.groupId
    traceId := ((event.map fun row => row.event.traceId).filter (· ≠ "")).getD task.taskId }

def leaseTasks (args : LeaseArgs) (limits : Option TaskConcurrencyLimits) (db : Database) :
    Except PyError (List LeasedTask × Database) :=
  if args.workerId = "" ∨ args.leaseMs ≤ 0 ∨ args.limit = 0 then
    .error (.valueError "worker_id, lease_ms, and limit must be positive")
  else
    let swept := { db with tasks := sweepExpired args.nowMs db.tasks }
    let (taskIds, after) := selectTaskIds limits args swept
    let leased := after.tasks.filter fun task =>
      taskIds.contains task.taskId && task.leaseOwner = some args.workerId
    .ok ((leased.insertionSort (fun a b => taskLe a b)).map (leasedTask after), after)

/-- `WHERE task_id = ? AND state = 'leased' AND lease_owner = ?`. -/
def ownedBy (taskId workerId : String) (task : TaskRow) : Bool :=
  task.taskId = taskId && task.state = .leased && task.leaseOwner = some workerId

/-- The three lease-ending operations update one owned row or raise. -/
def updateOwned (taskId workerId : String) (change : TaskRow → TaskRow) (db : Database) :
    Except PyError (Unit × Database) :=
  if Table.rowcount (ownedBy taskId workerId) db.tasks ≠ 1 then
    .error (.runtimeError "task lease is not owned by worker")
  else
    .ok ((), { db with tasks := Table.update (ownedBy taskId workerId) change db.tasks })

structure FinishTask where
  taskId : String
  workerId : String
  state : TaskState
  errorCode : Option String := none
  terminalMessage : Option OutboxDraft := none
deriving DecidableEq, Repr

def finished (args : FinishTask) (nowMs : Int) (task : TaskRow) : TaskRow :=
  { task with
    state := args.state, leaseOwner := none, leaseExpiresAtMs := none
    lastErrorCode := args.errorCode, updatedAtMs := nowMs }

@[simp] theorem finished_taskId (args : FinishTask) (nowMs : Int) (task : TaskRow) :
    (finished args nowMs task).taskId = task.taskId := rfl

def finishTask (args : FinishTask) (outboxId : String) (nowMs : Int) (db : Database) :
    Except PyError (Unit × Database) :=
  if !args.state.isTerminal then
    .error (.valueError "finish_task requires a terminal task state")
  else do
    let (_, db) ← updateOwned args.taskId args.workerId (finished args nowMs) db
    match args.terminalMessage with
    | none => .ok ((), db)
    | some draft => .ok ((), RuntimeStore.insertOutbox draft args.taskId outboxId nowMs db)

def retryTask (taskId workerId : String) (availableAtMs : Int) (errorCode : String)
    (nowMs : Int) (db : Database) : Except PyError (Unit × Database) :=
  updateOwned taskId workerId
    (fun task => { dropLease nowMs task with
      availableAtMs
      lastErrorCode := if task.maxAttempts ≤ task.attemptCount then some "retry_exhausted"
        else some errorCode }) db

def deferTask (taskId workerId : String) (availableAtMs : Int) (reason : String)
    (nowMs : Int) (db : Database) : Except PyError (Unit × Database) :=
  if reason = "" then .error (.valueError "task deferral reason is required")
  else
    updateOwned taskId workerId
      (fun task => { dropLease nowMs task with
        availableAtMs
        attemptCount := task.attemptCount - 1
        lastErrorCode := some reason }) db

/-! ### What each transaction may change -/

theorem selectLimited_frame (limits : TaskConcurrencyLimits) (args : LeaseArgs) (rounds : Nat)
    (db : Database) : (selectLimited limits args rounds db).2 =
      { db with
        tasks := (selectLimited limits args rounds db).2.tasks
        schedulerSequence := (selectLimited limits args rounds db).2.schedulerSequence
        lanes := (selectLimited limits args rounds db).2.lanes } := by
  induction rounds generalizing db with
  | zero => rfl
  | succ rounds ih =>
      unfold selectLimited
      cases hnext : nextCandidate limits args.nowMs db with
      | none => rfl
      | some task =>
          exact ih (advanceLanes task args.nowMs
            { db with tasks := leaseTask args task.taskId db.tasks })

theorem leaseTasks_ok {args : LeaseArgs} {limits : Option TaskConcurrencyLimits}
    {db after : Database} {leased : List LeasedTask}
    (hok : leaseTasks args limits db = .ok (leased, after)) :
    after = { db with
      tasks := after.tasks, schedulerSequence := after.schedulerSequence
      lanes := after.lanes } := by
  unfold leaseTasks at hok
  split at hok
  · cases hok
  · cases hok
    cases limits with
    | none => rfl
    | some limits => exact selectLimited_frame limits args _ _

theorem updateOwned_ok {taskId workerId : String} {change : TaskRow → TaskRow}
    {db after : Database} {value : Unit}
    (hok : updateOwned taskId workerId change db = .ok (value, after)) :
    Table.rowcount (ownedBy taskId workerId) db.tasks = 1 ∧
      after = { db with tasks := Table.update (ownedBy taskId workerId) change db.tasks } := by
  unfold updateOwned at hok
  split at hok
  · cases hok
  · rename_i hcount
    cases hok
    exact ⟨by omega, rfl⟩

/-- The one way a task becomes terminal. -/
theorem finishTask_ok {args : FinishTask} {outboxId : String} {nowMs : Int} {db after : Database}
    {value : Unit} (hok : finishTask args outboxId nowMs db = .ok (value, after)) :
    args.state.isTerminal = true ∧
      Table.rowcount (ownedBy args.taskId args.workerId) db.tasks = 1 ∧
      after = { db with
        tasks := Table.update (ownedBy args.taskId args.workerId) (finished args nowMs) db.tasks
        outbox := after.outbox } := by
  unfold finishTask at hok
  split at hok
  · cases hok
  · rename_i hterminal
    cases hupdate : updateOwned args.taskId args.workerId (finished args nowMs) db with
    | error e =>
        rw [hupdate] at hok
        cases hok
    | ok updated =>
        obtain ⟨value, middle⟩ := updated
        obtain ⟨hcount, hmiddle⟩ := updateOwned_ok hupdate
        rw [hupdate] at hok
        simp only [bind, Except.bind] at hok
        refine ⟨by simpa using hterminal, hcount, ?_⟩
        split at hok
        · cases hok
          rw [hmiddle]
        · cases hok
          rw [RuntimeStore.insertOutbox_eq, hmiddle]

theorem retryTask_ok {taskId workerId errorCode : String} {availableAtMs nowMs : Int}
    {db after : Database} {value : Unit}
    (hok : retryTask taskId workerId availableAtMs errorCode nowMs db = .ok (value, after)) :
    after = { db with tasks := after.tasks } := by
  obtain ⟨_, hafter⟩ := updateOwned_ok hok
  rw [hafter]

theorem deferTask_ok {taskId workerId reason : String} {availableAtMs nowMs : Int}
    {db after : Database} {value : Unit}
    (hok : deferTask taskId workerId availableAtMs reason nowMs db = .ok (value, after)) :
    after = { db with tasks := after.tasks } := by
  unfold deferTask at hok
  split at hok
  · cases hok
  · obtain ⟨_, hafter⟩ := updateOwned_ok hok
    rw [hafter]

end Codex2Lark.TaskQueue
