import Codex2Lark.Storage.SessionStore

/-!
`storage/runtime_store.py`: event admission, the run-control inbox, approvals
and the leased task queue. Identifiers that the code draws with `uuid4` are
arguments; a value that is already in use violates the primary key.
-/

namespace Codex2Lark.RuntimeStore

open Lib

def sameEvent (event : NormalizedEvent) (row : EventRow) : Bool :=
  row.event.tenantKey = event.tenantKey && row.event.appId = event.appId &&
    row.event.eventId = event.eventId

/-- The `INSERT INTO runtime_events` shared by the three admissions. -/
def insertEvent (event : NormalizedEvent) (nowMs : Int) (db : Database) :
    Except PyError (Nat × Database) :=
  if db.events.any (sameEvent event) then
    .error (.integrityError "UNIQUE constraint failed: runtime_events.tenant_key")
  else
    let eventPk := db.eventSequence + 1
    .ok (eventPk, { db with
      events := db.events ++ [{ eventPk, event, createdAtMs := nowMs }]
      eventSequence := eventPk })

/-- `INSERT OR IGNORE INTO runtime_outbox`. -/
def insertOutbox (draft : OutboxDraft) (taskId outboxId : String) (nowMs : Int)
    (db : Database) : Database :=
  if db.outbox.any fun row =>
      row.draft.idempotencyKey = draft.idempotencyKey || row.outboxId = outboxId then db
  else
    { db with
      outbox := db.outbox ++
        [{ outboxId, taskId := some taskId, draft, state := .pending
           availableAtMs := draft.availableAtMs, leaseOwner := none, leaseExpiresAtMs := none
           attemptCount := 0, maxAttempts := 8, lastErrorCode := none, upstreamRef := none
           createdAtMs := nowMs, updatedAtMs := nowMs }] }

structure AdmissionResult where
  created : Bool
  taskId : String
deriving DecidableEq, Repr

/-- The method `admit`. `taskId` and `outboxId` are the fresh identifiers of the
call. -/
def admitEvent (event : NormalizedEvent) (command : TaskCommand)
    (acknowledgement : Option OutboxDraft) (taskId outboxId : String) (nowMs : Int)
    (db : Database) : Except PyError (AdmissionResult × Database) :=
  let existing := (db.events.filter (sameEvent event)).findSome? fun row =>
    db.tasks.find? fun task => task.eventPk = some row.eventPk
  match existing with
  | some task => .ok (⟨false, task.taskId⟩, db)
  | none => do
      let (eventPk, db) ← insertEvent event nowMs db
      if db.tasks.any fun task => task.taskId = taskId then
        .error (.integrityError "UNIQUE constraint failed: runtime_tasks.task_id")
      else
        let row : TaskRow :=
          { taskId, eventPk := some eventPk, pluginId := command.pluginId
            commandType := command.commandType, sessionKey := command.sessionKey
            tenantKey := event.tenantKey, appId := event.appId, groupId := command.groupId
            priority := command.priority, payload := command.payload, state := .pending
            availableAtMs := command.availableAtMs, leaseOwner := none
            leaseExpiresAtMs := none, attemptCount := 0, maxAttempts := command.maxAttempts
            lastErrorCode := none, createdAtMs := nowMs, updatedAtMs := nowMs }
        let db := { db with tasks := db.tasks ++ [row] }
        let db := match acknowledgement with
          | some draft => insertOutbox draft taskId outboxId nowMs db
          | none => db
        .ok (⟨true, taskId⟩, db)

def enqueueTaskOutbox (taskId : String) (draft : OutboxDraft) (outboxId : String) (nowMs : Int)
    (db : Database) : Except PyError (Unit × Database) :=
  if !db.tasks.any (fun task => task.taskId = taskId) then
    .error (.lookupError "outbox task does not exist")
  else .ok ((), insertOutbox draft taskId outboxId nowMs db)

structure ApprovalRequest where
  approvalId : String
  taskId : String
  runId : String
  tenantKey : String
  appId : String
  sessionKey : String
  actorId : String
  toolId : String
  argumentDigest : String
  traceId : String
  expiresAtMs : Int
  card : OutboxDraft
deriving DecidableEq, Repr

def setApproval (approvalId : String) (state : ApprovalState) (nowMs : Int) (db : Database) :
    Database :=
  { db with
    approvals := Table.update
      (fun row => row.approvalId = approvalId && row.state = .pending)
      (fun row => { row with state, decidedAtMs := some nowMs }) db.approvals }

def findApproval (approvalId : String) (db : Database) : Option ApprovalRow :=
  db.approvals.find? fun row => row.approvalId = approvalId

def requestApproval (request : ApprovalRequest) (outboxId : String) (nowMs : Int)
    (db : Database) : Except PyError (ApprovalState × Database) :=
  match findApproval request.approvalId db with
  | some row =>
      if (row.taskId, row.runId, row.actorId, row.toolId, row.argumentDigest) ≠
          (request.taskId, request.runId, request.actorId, request.toolId,
            request.argumentDigest) then
        .error (.runtimeError "approval identity collision")
      else if row.state = .pending ∧ row.expiresAtMs ≤ nowMs then
        .ok (.expired, setApproval request.approvalId .expired nowMs db)
      else .ok (row.state, db)
  | none =>
      if !db.tasks.any (fun task => task.taskId = request.taskId) then
        .error (.integrityError "FOREIGN KEY constraint failed")
      else
        let row : ApprovalRow :=
          { approvalId := request.approvalId, taskId := request.taskId, runId := request.runId
            tenantKey := request.tenantKey, appId := request.appId
            sessionKey := request.sessionKey, actorId := request.actorId
            toolId := request.toolId, argumentDigest := request.argumentDigest
            state := .pending, expiresAtMs := request.expiresAtMs, createdAtMs := nowMs
            decidedAtMs := none, traceId := request.traceId }
        .ok (.pending, insertOutbox request.card request.taskId outboxId nowMs
          { db with approvals := db.approvals ++ [row] })

structure ApprovalDecision where
  event : NormalizedEvent
  approvalId : String
  actorId : String
  decision : String
  acknowledgement : String → OutboxDraft

/-- The answer of a decision on an existing request, and the state it sets. -/
def decisionResult (args : ApprovalDecision) (decision : ApprovalState) (row : ApprovalRow)
    (nowMs : Int) : String × Option ApprovalState :=
  if ¬(row.tenantKey = args.event.tenantKey ∧ row.appId = args.event.appId ∧
      row.actorId = args.actorId) then ("unauthorized", none)
  else if row.state = .pending ∧ row.expiresAtMs ≤ nowMs then ("expired", some .expired)
  else if row.state = .pending then (args.decision, some decision)
  else (row.state.value, none)

def decideApproval (args : ApprovalDecision) (outboxId : String) (nowMs : Int)
    (db : Database) : Except PyError (String × Database) :=
  match [ApprovalState.approved, .rejected].find? fun state => state.value = args.decision with
  | none => .error (.valueError "approval decision is invalid")
  | some decision =>
      match findApproval args.approvalId db with
      | none => .error (.lookupError "approval request does not exist")
      | some row =>
          if db.events.any (sameEvent args.event) then .ok (row.state.value, db)
          else do
            let (_, db) ← insertEvent args.event nowMs db
            let (result, state) := decisionResult args decision row nowMs
            let db := match state with
              | some state => setApproval args.approvalId state nowMs db
              | none => db
            .ok (result, insertOutbox (args.acknowledgement result) row.taskId outboxId nowMs db)

structure ControlAdmission where
  event : NormalizedEvent
  sessionKey : String
  actorId : String
  kind : RunControlKind
  text : String
  acknowledgement : OutboxDraft
deriving DecidableEq, Repr

structure ControlAdmissionResult where
  created : Bool
  controlId : String
  taskId : String
deriving DecidableEq, Repr

/-- The `LEFT JOIN` with `runtime_runs`: the task has no run, or a running one. -/
def joinsOpenRun (db : Database) (task : TaskRow) : Bool :=
  !db.runs.any (fun run => run.taskId = task.taskId) ||
    db.runs.any fun run => run.taskId = task.taskId && run.status = .running

def isControlCandidate (db : Database) (sessionKey : String) (task : TaskRow) : Bool :=
  task.sessionKey = sessionKey && task.commandType = "im.handle_mention" &&
    (task.state = .pending || task.state = .leased) && joinsOpenRun db task

/-- `ORDER BY` leased first, then `created_at_ms, task_id`. -/
def controlCandidateLe (a b : TaskRow) : Bool :=
  if a.state = .leased ∧ b.state ≠ .leased then true
  else if b.state = .leased ∧ a.state ≠ .leased then false
  else if a.createdAtMs ≠ b.createdAtMs then a.createdAtMs < b.createdAtMs
  else a.taskId ≤ b.taskId

/-- The row that `LIMIT 1` returns. -/
def controlCandidate (db : Database) (sessionKey : String) : Option TaskRow :=
  ((db.tasks.filter (isControlCandidate db sessionKey)).insertionSort
    (fun a b => controlCandidateLe a b)).head?

/-- Insert the control row of an admitted event for its target task. -/
def insertControl (args : ControlAdmission) (controlId : String) (eventPk : Nat)
    (taskId : String) (nowMs : Int) (db : Database) : Except PyError (Unit × Database) :=
  if db.controls.any fun row => row.controlId = controlId || row.eventPk = eventPk then
    .error (.integrityError "UNIQUE constraint failed: runtime_run_controls.control_id")
  else
    .ok ((), { db with
      controls := db.controls ++
        [{ controlId, eventPk, targetTaskId := taskId, sessionKey := args.sessionKey
           kind := args.kind, text := args.text, actorId := args.actorId
           sourceMessageId := args.event.resourceId, state := .pending
           createdAtMs := nowMs, appliedAtMs := none }] })

def admitControl (args : ControlAdmission) (controlId outboxId : String) (nowMs : Int)
    (db : Database) : Except PyError (Option ControlAdmissionResult × Database) :=
  let existing := (db.events.filter (sameEvent args.event)).findSome? fun row =>
    db.controls.find? fun control => control.eventPk = row.eventPk
  match existing with
  | some control => .ok (some ⟨false, control.controlId, control.targetTaskId⟩, db)
  | none =>
      if db.events.any (sameEvent args.event) then .ok (none, db)
      else
        match controlCandidate db args.sessionKey with
        | none => .ok (none, db)
        | some task =>
            if Json.field? task.payload "sender_id" ≠ some (.str args.actorId) then .ok (none, db)
            else do
              let (eventPk, db) ← insertEvent args.event nowMs db
              let (_, db) ← insertControl args controlId eventPk task.taskId nowMs db
              .ok (some ⟨true, controlId, task.taskId⟩,
                insertOutbox args.acknowledgement task.taskId outboxId nowMs db)

/-- `ORDER BY created_at_ms, control_id`. -/
def controlLe (a b : ControlRow) : Bool :=
  if a.createdAtMs ≠ b.createdAtMs then a.createdAtMs < b.createdAtMs
  else a.controlId ≤ b.controlId

def pendingControls (taskId : String) (db : Database) : List ControlRow :=
  (db.controls.filter fun row => row.targetTaskId = taskId && row.state = .pending).insertionSort
    (fun a b => controlLe a b)

def acknowledgeControls (taskId : String) (controlIds : List String) (nowMs : Int)
    (db : Database) : Database :=
  if controlIds.isEmpty then db else SessionStore.applyControls db taskId controlIds nowMs

/-! ### What each transaction may change -/

theorem insertEvent_ok {event : NormalizedEvent} {nowMs : Int} {db after : Database} {pk : Nat}
    (hok : insertEvent event nowMs db = .ok (pk, after)) :
    after = { db with events := after.events, eventSequence := after.eventSequence } := by
  unfold insertEvent at hok
  split at hok
  · cases hok
  · cases hok
    rfl

theorem insertOutbox_eq (draft : OutboxDraft) (taskId outboxId : String) (nowMs : Int)
    (db : Database) : insertOutbox draft taskId outboxId nowMs db =
      { db with outbox := (insertOutbox draft taskId outboxId nowMs db).outbox } := by
  unfold insertOutbox
  split <;> rfl

/-- An admission adds at most one task, which is pending and has a new
identifier. -/
theorem admitEvent_ok {event : NormalizedEvent} {command : TaskCommand}
    {acknowledgement : Option OutboxDraft} {taskId outboxId : String} {nowMs : Int}
    {db after : Database} {result : AdmissionResult}
    (hok : admitEvent event command acknowledgement taskId outboxId nowMs db = .ok (result, after)) :
    after = { db with
      events := after.events, eventSequence := after.eventSequence
      tasks := after.tasks, outbox := after.outbox } ∧
    (after.tasks = db.tasks ∨ ∃ row, after.tasks = db.tasks ++ [row] ∧ row.state = .pending ∧
      ∀ task ∈ db.tasks, task.taskId ≠ row.taskId) := by
  unfold admitEvent at hok
  dsimp only at hok
  split at hok
  · cases hok
    exact ⟨rfl, Or.inl rfl⟩
  · cases hinsert : insertEvent event nowMs db with
    | error e =>
        rw [hinsert] at hok
        cases hok
    | ok inserted =>
        obtain ⟨pk, middle⟩ := inserted
        have hmiddle := insertEvent_ok hinsert
        have htasks : middle.tasks = db.tasks := by rw [hmiddle]
        rw [hinsert] at hok
        simp only [bind, Except.bind] at hok
        split at hok
        · cases hok
        · rename_i hfresh
          cases hok
          have hnew : ∀ task ∈ db.tasks, task.taskId ≠ taskId := by
            simpa [htasks] using hfresh
          cases acknowledgement with
          | none =>
              rw [hmiddle]
              exact ⟨rfl, Or.inr ⟨_, rfl, rfl, hnew⟩⟩
          | some draft =>
              dsimp only
              rw [insertOutbox_eq, hmiddle]
              exact ⟨rfl, Or.inr ⟨_, rfl, rfl, hnew⟩⟩

theorem enqueueTaskOutbox_ok {taskId outboxId : String} {draft : OutboxDraft} {nowMs : Int}
    {db after : Database} {value : Unit}
    (hok : enqueueTaskOutbox taskId draft outboxId nowMs db = .ok (value, after)) :
    after = { db with outbox := after.outbox } := by
  unfold enqueueTaskOutbox at hok
  split at hok
  · cases hok
  · cases hok
    exact insertOutbox_eq ..

theorem requestApproval_ok {request : ApprovalRequest} {outboxId : String} {nowMs : Int}
    {db after : Database} {state : ApprovalState}
    (hok : requestApproval request outboxId nowMs db = .ok (state, after)) :
    after = { db with approvals := after.approvals, outbox := after.outbox } := by
  unfold requestApproval at hok
  split at hok
  · split at hok
    · cases hok
    · split at hok <;> cases hok <;> rfl
  · split at hok
    · cases hok
    · cases hok
      rw [insertOutbox_eq]

theorem decideApproval_ok {args : ApprovalDecision} {outboxId : String} {nowMs : Int}
    {db after : Database} {result : String}
    (hok : decideApproval args outboxId nowMs db = .ok (result, after)) :
    after = { db with
      events := after.events, eventSequence := after.eventSequence
      approvals := after.approvals, outbox := after.outbox } := by
  unfold decideApproval at hok
  split at hok
  · cases hok
  · split at hok
    · cases hok
    · split at hok
      · cases hok
        rfl
      · cases hinsert : insertEvent args.event nowMs db with
        | error e =>
            rw [hinsert] at hok
            cases hok
        | ok inserted =>
            obtain ⟨pk, middle⟩ := inserted
            rw [hinsert] at hok
            simp only [bind, Except.bind] at hok
            cases hok
            rw [insertOutbox_eq]
            rw [insertEvent_ok hinsert]
            split <;> rfl

/-- A control is admitted at most once per call, pending, with a new identifier
and for an open task of its session. -/
theorem admitControl_ok {args : ControlAdmission} {controlId outboxId : String} {nowMs : Int}
    {db after : Database} {result : Option ControlAdmissionResult}
    (hok : admitControl args controlId outboxId nowMs db = .ok (result, after)) :
    after = { db with
      events := after.events, eventSequence := after.eventSequence
      controls := after.controls, outbox := after.outbox } ∧
    (after.controls = db.controls ∨ ∃ task ∈ db.tasks, ∃ row,
      isControlCandidate db args.sessionKey task = true ∧ row.targetTaskId = task.taskId ∧
      row.controlId = controlId ∧ row.kind = args.kind ∧ row.text = args.text ∧
      row.state = .pending ∧ row.createdAtMs = nowMs ∧
      (∀ control ∈ db.controls, control.controlId ≠ controlId) ∧
      after.controls = db.controls ++ [row]) := by
  unfold admitControl at hok
  dsimp only at hok
  split at hok
  · cases hok
    exact ⟨rfl, Or.inl rfl⟩
  · split at hok
    · cases hok
      exact ⟨rfl, Or.inl rfl⟩
    · split at hok
      · cases hok
        exact ⟨rfl, Or.inl rfl⟩
      · rename_i task hcandidate
        split at hok
        · cases hok
          exact ⟨rfl, Or.inl rfl⟩
        · have htask : task ∈ db.tasks ∧ isControlCandidate db args.sessionKey task = true := by
            have hmem := List.mem_of_mem_head? hcandidate
            rw [List.mem_insertionSort] at hmem
            exact List.mem_filter.mp hmem
          cases hinsert : insertEvent args.event nowMs db with
          | error e =>
              rw [hinsert] at hok
              cases hok
          | ok inserted =>
              obtain ⟨pk, middle⟩ := inserted
              have hmiddle := insertEvent_ok hinsert
              have hcontrols : middle.controls = db.controls := by rw [hmiddle]
              rw [hinsert] at hok
              simp only [bind, Except.bind, insertControl] at hok
              split at hok
              · cases hok
              · rename_i hfresh
                split at hfresh
                · cases hfresh
                · rename_i hunused
                  cases hfresh
                  cases hok
                  rw [insertOutbox_eq, hmiddle]
                  refine ⟨rfl, Or.inr ⟨task, htask.1, _, htask.2, rfl, rfl, rfl, rfl, rfl, rfl, ?_,
                    rfl⟩⟩
                  intro control hmem hsame
                  refine hunused (List.any_eq_true.mpr ⟨control, ?_, by simp [hsame]⟩)
                  rwa [hcontrols]

end Codex2Lark.RuntimeStore
