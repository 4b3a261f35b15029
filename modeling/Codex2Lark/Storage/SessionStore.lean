import Codex2Lark.Storage.Schema

/-!
`storage/session_store.py`. Every operation is one transaction: it returns its
value with the new tables, or the exception that rolled it back.
-/

namespace Codex2Lark.SessionStore

open Lib

def findRun (db : Database) (runId : String) : Option RunRow :=
  db.runs.find? fun run => run.runId = runId

/-- `COALESCE(MAX(sequence), 0) + 1`. -/
def nextSequence (db : Database) (runId : String) : Nat :=
  ((db.runEvents.filter fun event => event.runId = runId).map RunEventRow.sequence).foldl max 0 + 1

def insertEvent (db : Database) (runId eventType : String) (payload : List (String × Json))
    (nowMs : Int) : Database :=
  { db with
    runEvents := db.runEvents ++
      [{ runId, sequence := nextSequence db runId, eventType, payload, createdAtMs := nowMs }] }

structure StartRun where
  runId : String
  taskId : String
  sessionKey : String
  agentId : String
  agentVersion : Nat
  policyVersion : Nat
  traceId : String := ""
deriving DecidableEq, Repr

/-- The primary key and the foreign key to `runtime_tasks` are the constraints
that can refuse the row. -/
def startRun (args : StartRun) (nowMs : Int) (db : Database) :
    Except PyError (Unit × Database) :=
  if (findRun db args.runId).isSome then
    .error (.integrityError "UNIQUE constraint failed: runtime_runs.run_id")
  else if !db.tasks.any (fun task => task.taskId = args.taskId) then
    .error (.integrityError "FOREIGN KEY constraint failed")
  else
    .ok ((), { db with runs := db.runs ++
      [{ runId := args.runId, taskId := args.taskId, sessionKey := args.sessionKey
         agentDefinitionId := args.agentId, agentDefinitionVersion := args.agentVersion
         policyVersion := args.policyVersion, status := .running
         createdAtMs := nowMs, updatedAtMs := nowMs
         traceId := if args.traceId = "" then args.runId else args.traceId }] })

def appendEvent (runId eventType : String) (payload : List (String × Json)) (nowMs : Int)
    (db : Database) : Except PyError (Unit × Database) :=
  if (findRun db runId).isNone then .error (.lookupError ("run does not exist: " ++ runId))
  else .ok ((), insertEvent db runId eventType payload nowMs)

def saveCheckpoint (checkpoint : RunCheckpoint) (nowMs : Int) (db : Database) :
    Except PyError (Unit × Database) :=
  let runId := checkpoint.runId
  if (findRun db runId).isNone then .error (.integrityError "FOREIGN KEY constraint failed")
  else
    let stored := db.checkpoints.any fun row => row.runId = runId
    let checkpoints :=
      if stored then
        Table.update (fun row => row.runId = runId)
          (fun row => { row with payload := checkpoint, updatedAtMs := nowMs }) db.checkpoints
      else db.checkpoints ++
        [{ runId, payload := checkpoint, createdAtMs := nowMs, updatedAtMs := nowMs }]
    let sources := checkpoint.sourceVersions.map fun item =>
      { runId, sourceRef := item.1, sourceVersion := item.2 : CheckpointSourceRow }
    .ok ((), { db with
      checkpoints
      checkpointSources :=
        Table.delete (fun row => row.runId = runId) db.checkpointSources ++
          sources.insertionSort (fun a b => a.sourceRef ≤ b.sourceRef) })

/-- The index rows go with the checkpoint (`ON DELETE CASCADE`). -/
def discardCheckpoint (runId : String) (db : Database) : Except PyError (Unit × Database) :=
  .ok ((), { db with
    checkpoints := Table.delete (fun row => row.runId = runId) db.checkpoints
    checkpointSources := Table.delete (fun row => row.runId = runId) db.checkpointSources })

def loadCheckpoint (runId : String) (db : Database) : Option RunCheckpoint :=
  (db.checkpoints.find? fun row => row.runId = runId).map CheckpointRow.payload

def runStatus (runId : String) (db : Database) : Option RunStatus :=
  (findRun db runId).map RunRow.status

def setStatus (db : Database) (runId : String) (status : RunStatus) (nowMs : Int) : Database :=
  { db with
    runs := Table.update (fun run => run.runId = runId)
      (fun run => { run with status, updatedAtMs := nowMs }) db.runs }

/-- `AgentOutcome` as the payload of the terminal event. -/
def outcomePayload (outcome : AgentOutcome) : List (String × Json) :=
  [("status", .str outcome.status.value), ("summary", .str outcome.summary),
    ("resource_refs", .arr (outcome.resourceRefs.map Json.str)),
    ("warnings", .arr (outcome.warnings.map Json.str))]

/-- The statement that applies the listed controls of one task. -/
def applyControls (db : Database) (taskId : String) (controlIds : List String) (nowMs : Int) :
    Database :=
  { db with
    controls := Table.update
      (fun control => control.targetTaskId = taskId && control.state = .pending &&
        controlIds.contains control.controlId)
      (fun control => { control with state := .applied, appliedAtMs := some nowMs })
      db.controls }

def supersedeControls (db : Database) (taskId : String) (nowMs : Int) : Database :=
  { db with
    controls := Table.update
      (fun control => control.targetTaskId = taskId && control.state = .pending)
      (fun control => { control with state := .superseded, appliedAtMs := some nowMs })
      db.controls }

/-- `SELECT 1 ... WHERE target_task_id = ? AND state = 'pending'`. -/
def hasPending (db : Database) (taskId : String) : Bool :=
  db.controls.any fun control => control.targetTaskId = taskId && control.state = .pending

/-- The terminal event and the new status, the last two statements. -/
def closeRun (db : Database) (runId : String) (outcome : AgentOutcome) (nowMs : Int) : Database :=
  setStatus (insertEvent db runId "run_terminal" (outcomePayload outcome) nowMs)
    runId outcome.status nowMs

/-- The inbox at the closing check: the controls that caused a cancellation are
applied first. -/
def closingInbox (db : Database) (taskId : String) (appliedControlIds : List String)
    (nowMs : Int) : Database :=
  if appliedControlIds.isEmpty then db else applyControls db taskId appliedControlIds nowMs

def tryFinishWithOutcome (runId : String) (outcome : AgentOutcome)
    (appliedControlIds : List String) (nowMs : Int) (db : Database) :
    Except PyError (Bool × Database) :=
  if outcome.status = .running ∨ outcome.status = .waiting then
    .error (.valueError "terminal outcome is required")
  else
    match findRun db runId with
    | none => .error (.lookupError ("run does not exist: " ++ runId))
    | some run =>
        if run.status ≠ .running then .error (.valueError "run is already terminal")
        else
          let db := closingInbox db run.taskId appliedControlIds nowMs
          if hasPending db run.taskId ∧ outcome.status = .completed then .ok (false, db)
          else
            let db := if hasPending db run.taskId then supersedeControls db run.taskId nowMs
              else db
            .ok (true, closeRun db runId outcome nowMs)

/-! ### What each transaction may change -/

theorem startRun_ok {args : StartRun} {nowMs : Int} {db after : Database} {value : Unit}
    (hok : startRun args nowMs db = .ok (value, after)) :
    after = { db with runs := after.runs } ∧ findRun db args.runId = none ∧
      ∃ run, after.runs = db.runs ++ [run] ∧ run.runId = args.runId ∧
        run.taskId = args.taskId ∧ run.status = .running := by
  unfold startRun at hok
  split at hok
  · cases hok
  · rename_i hfresh
    split at hok
    · cases hok
    · cases hok
      exact ⟨rfl, by simpa using hfresh, _, rfl, rfl, rfl, rfl⟩

theorem appendEvent_ok {runId eventType : String} {payload : List (String × Json)} {nowMs : Int}
    {db after : Database} {value : Unit}
    (hok : appendEvent runId eventType payload nowMs db = .ok (value, after)) :
    after = insertEvent db runId eventType payload nowMs := by
  unfold appendEvent at hok
  split at hok
  · cases hok
  · cases hok
    rfl

theorem saveCheckpoint_ok {checkpoint : RunCheckpoint} {nowMs : Int} {db after : Database}
    {value : Unit} (hok : saveCheckpoint checkpoint nowMs db = .ok (value, after)) :
    after = { db with
      checkpoints := after.checkpoints, checkpointSources := after.checkpointSources } := by
  unfold saveCheckpoint at hok
  dsimp only at hok
  split at hok
  · cases hok
  · cases hok
    rfl

theorem discardCheckpoint_ok {runId : String} {db after : Database} {value : Unit}
    (hok : discardCheckpoint runId db = .ok (value, after)) :
    after = { db with
      checkpoints := after.checkpoints, checkpointSources := after.checkpointSources } := by
  cases hok
  rfl

/-- A closing attempt either declines, or closes the run with no pending control
left on its task. -/
theorem tryFinishWithOutcome_ok {runId : String} {outcome : AgentOutcome}
    {appliedControlIds : List String} {nowMs : Int} {db after : Database} {closed : Bool}
    (hok : tryFinishWithOutcome runId outcome appliedControlIds nowMs db = .ok (closed, after)) :
    ∃ run, findRun db runId = some run ∧ run.status = .running ∧
      ((closed = false ∧ outcome.status = .completed ∧
        hasPending (closingInbox db run.taskId appliedControlIds nowMs) run.taskId = true ∧
        after = closingInbox db run.taskId appliedControlIds nowMs) ∨
      (closed = true ∧
        (hasPending (closingInbox db run.taskId appliedControlIds nowMs) run.taskId = true →
          outcome.status ≠ .completed) ∧
        after = closeRun
          (if hasPending (closingInbox db run.taskId appliedControlIds nowMs) run.taskId then
            supersedeControls (closingInbox db run.taskId appliedControlIds nowMs) run.taskId nowMs
          else closingInbox db run.taskId appliedControlIds nowMs) runId outcome nowMs)) := by
  unfold tryFinishWithOutcome at hok
  split at hok
  · cases hok
  · cases hrun : findRun db runId with
    | none =>
        rw [hrun] at hok
        cases hok
    | some run =>
        simp only [hrun] at hok
        split at hok
        · cases hok
        · rename_i hrunning
          refine ⟨run, rfl, by simpa using hrunning, ?_⟩
          split at hok
          · rename_i hdeclined
            cases hok
            exact Or.inl ⟨rfl, hdeclined.2, hdeclined.1, rfl⟩
          · rename_i hclosed
            cases hok
            exact Or.inr ⟨rfl, fun hpending hcompleted => hclosed ⟨hpending, hcompleted⟩, rfl⟩

end Codex2Lark.SessionStore
