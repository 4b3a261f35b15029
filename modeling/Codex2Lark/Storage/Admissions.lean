import Codex2Lark.Storage.Store

/-!
What becomes of an event: a task, a run control or a decision on an approval. Every
admission inserts its event in the same transaction, and the event's key is unique, so
an event that is known is never admitted again.
-/

namespace Codex2Lark

open Lib RuntimeStore

/-- A decision event that was new when it was delivered. -/
structure DecisionRecord where
  event : NormalizedEvent
  approvalId : String
  actorId : String
  decision : String
  nowMs : Int
deriving DecidableEq, Repr

/-- The store with the record of its decisions. -/
structure StoreHistory where
  db : Database := {}
  decisions : List DecisionRecord := []
deriving DecidableEq, Repr

namespace StoreHistory

/-- What a transaction adds to the record. -/
def recorded (db : Database) : StoreOp → List DecisionRecord
  | .decideApproval args outboxId nowMs =>
      match decideApproval args outboxId nowMs db with
      | .ok _ =>
          if db.events.any (sameEvent args.event) then []
          else [⟨args.event, args.approvalId, args.actorId, args.decision, nowMs⟩]
      | .error _ => []
  | _ => []

def step (s : StoreHistory) (op : StoreOp) : Option StoreHistory :=
  some ⟨op.apply s.db, s.decisions ++ recorded s.db op⟩

end StoreHistory

/-- The columns of a task that say where it came from. -/
def taskKey (row : TaskRow) : String × Option Nat := (row.taskId, row.eventPk)

def controlKey (row : ControlRow) : String × Nat × String :=
  (row.controlId, row.eventPk, row.targetTaskId)

/-! ### Transactions that admit nothing -/

/-- No task and no control is added, and none changes its origin. -/
structure SameProducts (db after : Database) : Prop where
  tasks : after.tasks.map taskKey = db.tasks.map taskKey
  controls : after.controls.map controlKey = db.controls.map controlKey

theorem SameProducts.refl (db : Database) : SameProducts db db := ⟨rfl, rfl⟩

namespace TaskQueue

theorem leaseTask_keys (args : LeaseArgs) (taskId : String) (tasks : List TaskRow) :
    (leaseTask args taskId tasks).map taskKey = tasks.map taskKey :=
  Table.map_update taskKey fun _ => rfl

theorem leaseAll_keys (args : LeaseArgs) (taskIds : List String) (tasks : List TaskRow) :
    (taskIds.foldl (fun tasks taskId => leaseTask args taskId tasks) tasks).map taskKey =
      tasks.map taskKey := by
  induction taskIds generalizing tasks with
  | nil => rfl
  | cons taskId rest ih =>
      rw [List.foldl_cons, ih]
      exact leaseTask_keys args taskId tasks

theorem selectLimited_keys (limits : TaskConcurrencyLimits) (args : LeaseArgs) (rounds : Nat)
    (db : Database) :
    (selectLimited limits args rounds db).2.tasks.map taskKey = db.tasks.map taskKey := by
  induction rounds generalizing db with
  | zero => rfl
  | succ rounds ih =>
      unfold selectLimited
      cases hnext : nextCandidate limits args.nowMs db with
      | none => rfl
      | some task =>
          dsimp only
          rw [ih]
          exact leaseTask_keys args task.taskId db.tasks

theorem leaseTasks_keys {args : LeaseArgs} {limits : Option TaskConcurrencyLimits}
    {db after : Database} {leased : List LeasedTask}
    (hok : leaseTasks args limits db = .ok (leased, after)) :
    after.tasks.map taskKey = db.tasks.map taskKey := by
  have hswept : (sweepExpired args.nowMs db.tasks).map taskKey = db.tasks.map taskKey := by
    unfold sweepExpired
    refine (Table.map_update taskKey ?_).trans (Table.map_update taskKey ?_)
    · exact fun _ => rfl
    · exact fun _ => rfl
  unfold leaseTasks at hok
  split at hok
  · cases hok
  · cases hok
    cases limits with
    | none => exact (leaseAll_keys args _ _).trans hswept
    | some limits => exact (selectLimited_keys limits args _ _).trans hswept

theorem updateOwned_keys {taskId workerId : String} {change : TaskRow → TaskRow}
    {db after : Database} {value : Unit} (hkeep : ∀ row, taskKey (change row) = taskKey row)
    (hok : updateOwned taskId workerId change db = .ok (value, after)) : SameProducts db after := by
  obtain ⟨_, rfl⟩ := updateOwned_ok hok
  exact ⟨Table.map_update taskKey hkeep, rfl⟩

end TaskQueue

theorem applyControls_keys (db : Database) (taskId : String) (controlIds : List String)
    (nowMs : Int) : SameProducts db (SessionStore.applyControls db taskId controlIds nowMs) :=
  ⟨rfl, Table.map_update controlKey fun _ => rfl⟩

theorem closingInbox_keys (db : Database) (taskId : String) (controlIds : List String)
    (nowMs : Int) : SameProducts db (SessionStore.closingInbox db taskId controlIds nowMs) := by
  unfold SessionStore.closingInbox
  split
  · exact .refl db
  · exact applyControls_keys db taskId controlIds nowMs

/-- The two transactions that create a task or a control. -/
def StoreOp.createsProduct : StoreOp → Bool
  | .admitEvent .. | .admitControl .. => true
  | _ => false

theorem StoreOp.sameProducts (db : Database) {op : StoreOp} (hnone : op.createsProduct = false) :
    SameProducts db (op.apply db) := by
  cases op with
  | admitEvent | admitControl => cases hnone
  | enqueueTaskOutbox taskId draft outboxId nowMs =>
      refine Database.committed_rel db (.refl db) fun _ after hok => ?_
      rw [enqueueTaskOutbox_ok hok]
      exact ⟨rfl, rfl⟩
  | requestApproval request outboxId nowMs =>
      refine Database.committed_rel db (.refl db) fun _ after hok => ?_
      rw [requestApproval_ok hok]
      exact ⟨rfl, rfl⟩
  | decideApproval args outboxId nowMs =>
      refine Database.committed_rel db (.refl db) fun _ after hok => ?_
      rw [decideApproval_ok hok]
      exact ⟨rfl, rfl⟩
  | acknowledgeControls taskId controlIds nowMs =>
      simp only [StoreOp.apply, RuntimeStore.acknowledgeControls]
      split
      · exact .refl db
      · exact applyControls_keys db taskId controlIds nowMs
  | leaseTasks args limits =>
      refine Database.committed_rel db (.refl db) fun _ after hok => ?_
      refine ⟨TaskQueue.leaseTasks_keys hok, ?_⟩
      rw [TaskQueue.leaseTasks_ok hok]
  | finishTask args outboxId nowMs =>
      refine Database.committed_rel db (.refl db) fun _ after hok => ?_
      rw [(TaskQueue.finishTask_ok hok).2.2]
      exact ⟨Table.map_update taskKey fun _ => rfl, rfl⟩
  | retryTask taskId workerId availableAtMs errorCode nowMs =>
      refine Database.committed_rel db (.refl db) fun _ after hok => ?_
      refine TaskQueue.updateOwned_keys ?_ hok
      exact fun _ => rfl
  | deferTask taskId workerId availableAtMs reason nowMs =>
      refine Database.committed_rel db (.refl db) fun _ after hok => ?_
      unfold TaskQueue.deferTask at hok
      split at hok
      · cases hok
      · refine TaskQueue.updateOwned_keys ?_ hok
        exact fun _ => rfl
  | startRun args nowMs =>
      refine Database.committed_rel db (.refl db) fun _ after hok => ?_
      rw [(SessionStore.startRun_ok hok).1]
      exact ⟨rfl, rfl⟩
  | appendEvent runId eventType payload nowMs =>
      refine Database.committed_rel db (.refl db) fun _ after hok => ?_
      rw [SessionStore.appendEvent_ok hok]
      exact ⟨rfl, rfl⟩
  | saveCheckpoint checkpoint nowMs =>
      refine Database.committed_rel db (.refl db) fun _ after hok => ?_
      rw [SessionStore.saveCheckpoint_ok hok]
      exact ⟨rfl, rfl⟩
  | discardCheckpoint runId =>
      refine Database.committed_rel db (.refl db) fun _ after hok => ?_
      rw [SessionStore.discardCheckpoint_ok hok]
      exact ⟨rfl, rfl⟩
  | tryFinishWithOutcome runId outcome appliedControlIds nowMs =>
      refine Database.committed_rel db (.refl db) fun closed after hok => ?_
      obtain ⟨run, _, _, hcases⟩ := SessionStore.tryFinishWithOutcome_ok hok
      have hinbox := closingInbox_keys db run.taskId appliedControlIds nowMs
      rcases hcases with ⟨_, _, _, rfl⟩ | ⟨_, _, rfl⟩
      · exact hinbox
      · split
        · refine ⟨hinbox.tasks, (Table.map_update controlKey ?_).trans hinbox.controls⟩
          exact fun _ => rfl
        · exact ⟨hinbox.tasks, hinbox.controls⟩

/-! ### Transactions that admit an event -/

/-- The event is inserted with the next key. -/
structure EventInserted (db after : Database) (event : NormalizedEvent) (nowMs : Int) :
    Prop where
  fresh : db.events.any (sameEvent event) = false
  events : after.events = db.events ++ [⟨db.eventSequence + 1, event, nowMs⟩]
  eventSequence : after.eventSequence = db.eventSequence + 1

theorem insertEvent_inserted {event : NormalizedEvent} {nowMs : Int} {db after : Database}
    {pk : Nat} (hok : insertEvent event nowMs db = .ok (pk, after)) :
    pk = db.eventSequence + 1 ∧ EventInserted db after event nowMs := by
  unfold insertEvent at hok
  split at hok
  · cases hok
  · rename_i hfresh
    cases hok
    exact ⟨rfl, ⟨by simpa using hfresh, rfl, rfl⟩⟩

/-- What the event of a transaction has become. -/
inductive Product (db after : Database) : List DecisionRecord → NormalizedEvent → Prop
  | task {event : NormalizedEvent} (taskId : String)
      (htasks : after.tasks.map taskKey =
        db.tasks.map taskKey ++ [(taskId, some (db.eventSequence + 1))])
      (hcontrols : after.controls.map controlKey = db.controls.map controlKey) :
      Product db after [] event
  | control {event : NormalizedEvent} (controlId taskId : String)
      (htasks : after.tasks.map taskKey = db.tasks.map taskKey)
      (hcontrols : after.controls.map controlKey =
        db.controls.map controlKey ++ [(controlId, db.eventSequence + 1, taskId)]) :
      Product db after [] event
  | decision (d : DecisionRecord) (hsame : SameProducts db after) : Product db after [d] d.event

/-- A transaction admits no event, or a new one as one of the three. -/
inductive AdmissionEffect (db : Database) (op : StoreOp) (after : Database) : Prop
  | same (hevents : after.events = db.events) (hsequence : after.eventSequence = db.eventSequence)
      (hproducts : SameProducts db after) (hrecorded : StoreHistory.recorded db op = [])
  | insert (event : NormalizedEvent) (nowMs : Int)
      (hinserted : EventInserted db after event nowMs)
      (hproduct : Product db after (StoreHistory.recorded db op) event)

theorem AdmissionEffect.refl {db : Database} {op : StoreOp}
    (hrecorded : StoreHistory.recorded db op = []) : AdmissionEffect db op db :=
  .same rfl rfl (.refl db) hrecorded

theorem admitEvent_effect {event : NormalizedEvent} {command : TaskCommand}
    {acknowledgement : Option OutboxDraft} {taskId outboxId : String} {nowMs : Int}
    {db after : Database} {result : AdmissionResult}
    (hok : admitEvent event command acknowledgement taskId outboxId nowMs db = .ok (result, after)) :
    AdmissionEffect db (.admitEvent event command acknowledgement taskId outboxId nowMs) after := by
  unfold admitEvent at hok
  dsimp only at hok
  split at hok
  · cases hok
    exact .refl rfl
  · obtain ⟨⟨pk, middle⟩, hinsert, hok⟩ := PyError.bind_eq_ok.mp hok
    obtain ⟨rfl, hinserted⟩ := insertEvent_inserted hinsert
    have htasks : middle.tasks = db.tasks := by rw [insertEvent_ok hinsert]
    have hcontrols : middle.controls = db.controls := by rw [insertEvent_ok hinsert]
    dsimp only at hok
    split at hok
    · cases hok
    · cases hok
      refine .insert event nowMs ?_ (.task taskId ?_ ?_)
      · cases acknowledgement with
        | none => exact ⟨hinserted.fresh, hinserted.events, hinserted.eventSequence⟩
        | some draft =>
            dsimp only
            rw [insertOutbox_eq]
            exact ⟨hinserted.fresh, hinserted.events, hinserted.eventSequence⟩
      · cases acknowledgement with
        | none => simp [htasks, taskKey]
        | some draft =>
            dsimp only
            rw [insertOutbox_eq]
            simp [htasks, taskKey]
      · cases acknowledgement with
        | none => rw [← hcontrols]
        | some draft =>
            dsimp only
            rw [insertOutbox_eq, ← hcontrols]

theorem admitControl_effect {args : ControlAdmission} {controlId outboxId : String} {nowMs : Int}
    {db after : Database} {result : Option ControlAdmissionResult}
    (hok : admitControl args controlId outboxId nowMs db = .ok (result, after)) :
    AdmissionEffect db (.admitControl args controlId outboxId nowMs) after := by
  unfold admitControl at hok
  dsimp only at hok
  split at hok
  · cases hok
    exact .refl rfl
  · split at hok
    · cases hok
      exact .refl rfl
    · split at hok
      · cases hok
        exact .refl rfl
      · rename_i task _
        split at hok
        · cases hok
          exact .refl rfl
        · obtain ⟨⟨pk, middle⟩, hinsert, hok⟩ := PyError.bind_eq_ok.mp hok
          obtain ⟨rfl, hinserted⟩ := insertEvent_inserted hinsert
          have htasks : middle.tasks = db.tasks := by rw [insertEvent_ok hinsert]
          have hcontrols : middle.controls = db.controls := by rw [insertEvent_ok hinsert]
          obtain ⟨⟨_, later⟩, hcontrol, hok⟩ := PyError.bind_eq_ok.mp hok
          unfold insertControl at hcontrol
          split at hcontrol
          · cases hcontrol
          · cases hcontrol
            cases hok
            refine .insert args.event nowMs ?_ (.control controlId task.taskId ?_ ?_)
            · rw [insertOutbox_eq]
              exact ⟨hinserted.fresh, hinserted.events, hinserted.eventSequence⟩
            · rw [insertOutbox_eq, ← htasks]
            · rw [insertOutbox_eq]
              simp [hcontrols, controlKey]

theorem decideApproval_admission {args : ApprovalDecision} {outboxId : String} {nowMs : Int}
    {db after : Database} {result : String}
    (hok : decideApproval args outboxId nowMs db = .ok (result, after)) :
    AdmissionEffect db (.decideApproval args outboxId nowMs) after := by
  have hrecorded : StoreHistory.recorded db (.decideApproval args outboxId nowMs) =
      if db.events.any (sameEvent args.event) then []
      else [⟨args.event, args.approvalId, args.actorId, args.decision, nowMs⟩] := by
    simp [StoreHistory.recorded, hok]
  unfold decideApproval at hok
  split at hok
  · cases hok
  · split at hok
    · cases hok
    · split at hok
      · rename_i hknown
        cases hok
        exact .refl (by rw [hrecorded, if_pos hknown])
      · rename_i hnew
        obtain ⟨⟨pk, middle⟩, hinsert, hok⟩ := PyError.bind_eq_ok.mp hok
        obtain ⟨rfl, hinserted⟩ := insertEvent_inserted hinsert
        have hmiddle := insertEvent_ok hinsert
        cases hok
        rw [if_neg hnew] at hrecorded
        refine .insert args.event nowMs ?_ ?_
        · rw [insertOutbox_eq]
          split <;> exact ⟨hinserted.fresh, hinserted.events, hinserted.eventSequence⟩
        · rw [hrecorded]
          refine .decision ⟨args.event, args.approvalId, args.actorId, args.decision, nowMs⟩ ?_
          rw [insertOutbox_eq, hmiddle]
          split <;> exact ⟨rfl, rfl⟩

theorem recorded_of_internal (db : Database) {op : StoreOp} (hinternal : op.isInternal = true) :
    StoreHistory.recorded db op = [] := by
  cases op with
  | decideApproval => cases hinternal
  | _ => rfl

theorem admissionEffect (db : Database) (op : StoreOp) :
    AdmissionEffect db op (op.apply db) := by
  cases hinternal : op.isInternal with
  | true =>
      have hexchange := op.sameExchange db hinternal
      have hnone : op.createsProduct = false := by
        cases op with
        | admitEvent | admitControl => cases hinternal
        | _ => rfl
      exact .same hexchange.events hexchange.eventSequence (StoreOp.sameProducts db hnone)
        (recorded_of_internal db hinternal)
  | false =>
      cases op with
      | admitEvent event command acknowledgement taskId outboxId nowMs =>
          exact Database.committed_rel (R := fun db after => AdmissionEffect db _ after) db (.refl rfl)
            fun _ _ hok => admitEvent_effect hok
      | admitControl args controlId outboxId nowMs =>
          exact Database.committed_rel (R := fun db after => AdmissionEffect db _ after) db (.refl rfl)
            fun _ _ hok => admitControl_effect hok
      | decideApproval args outboxId nowMs =>
          cases hop : decideApproval args outboxId nowMs db with
          | error e =>
              rw [StoreOp.apply, Database.committed_error hop]
              exact .refl (by simp [StoreHistory.recorded, hop])
          | ok result =>
              obtain ⟨result, after⟩ := result
              rw [StoreOp.apply, Database.committed_ok hop]
              exact decideApproval_admission hop
      | enqueueTaskOutbox taskId draft outboxId nowMs =>
          refine .same ?_ ?_ (StoreOp.sameProducts db rfl) rfl
          · refine Database.committed_column Database.events fun value after hok => ?_
            rw [enqueueTaskOutbox_ok hok]
          · refine Database.committed_column Database.eventSequence fun value after hok => ?_
            rw [enqueueTaskOutbox_ok hok]
      | requestApproval request outboxId nowMs =>
          refine .same ?_ ?_ (StoreOp.sameProducts db rfl) rfl
          · refine Database.committed_column Database.events fun value after hok => ?_
            rw [requestApproval_ok hok]
          · refine Database.committed_column Database.eventSequence fun value after hok => ?_
            rw [requestApproval_ok hok]
      | finishTask args outboxId nowMs =>
          refine .same ?_ ?_ (StoreOp.sameProducts db rfl) rfl
          · refine Database.committed_column Database.events fun value after hok => ?_
            rw [(TaskQueue.finishTask_ok hok).2.2]
          · refine Database.committed_column Database.eventSequence fun value after hok => ?_
            rw [(TaskQueue.finishTask_ok hok).2.2]
      | acknowledgeControls | leaseTasks | retryTask | deferTask | startRun | appendEvent
      | saveCheckpoint | discardCheckpoint | tryFinishWithOutcome => cases hinternal

/-! ### Deliveries of one event -/

/-- Two deliveries of one event. -/
structure SameDelivery (a b : NormalizedEvent) : Prop where
  tenantKey : a.tenantKey = b.tenantKey
  appId : a.appId = b.appId
  eventId : a.eventId = b.eventId

theorem sameEvent_iff {event : NormalizedEvent} {row : EventRow} :
    sameEvent event row = true ↔ SameDelivery row.event event := by
  simp only [sameEvent, Bool.and_eq_true, decide_eq_true_eq]
  exact ⟨fun ⟨⟨htenant, happ⟩, hid⟩ => ⟨htenant, happ, hid⟩,
    fun h => ⟨⟨h.tenantKey, h.appId⟩, h.eventId⟩⟩

theorem SameDelivery.sameEvent_eq {a b : NormalizedEvent} (hsame : SameDelivery a b) :
    sameEvent a = sameEvent b := by
  funext row
  simp [sameEvent, hsame.tenantKey, hsame.appId, hsame.eventId]

/-- The event is in the store. -/
def Database.knows (db : Database) (event : NormalizedEvent) : Bool :=
  db.events.any (sameEvent event)

theorem SameDelivery.knows_eq {a b : NormalizedEvent} (hsame : SameDelivery a b) (db : Database) :
    db.knows a = db.knows b := by
  unfold Database.knows
  rw [hsame.sameEvent_eq]

/-- The event that a transaction delivers. -/
def StoreOp.event? : StoreOp → Option NormalizedEvent
  | .admitEvent event _ _ _ _ _ => some event
  | .decideApproval args _ _ => some args.event
  | .admitControl args _ _ _ => some args.event
  | _ => none

theorem insertEvent_known {event : NormalizedEvent} {nowMs : Int} {db : Database}
    (hknown : db.knows event = true) : insertEvent event nowMs db =
      .error (.integrityError "UNIQUE constraint failed: runtime_events.tenant_key") :=
  if_pos hknown

/-- A decision on an event that is known changes nothing. -/
theorem decideApproval_known {args : ApprovalDecision} {outboxId : String} {nowMs : Int}
    {db : Database} (hknown : db.knows args.event = true) :
    (StoreOp.decideApproval args outboxId nowMs).apply db = db := by
  refine Database.committed_rel (R := fun before after => after = before) db rfl ?_
  intro result after hok
  unfold decideApproval at hok
  split at hok
  · cases hok
  · split at hok
    · cases hok
    · rw [if_pos (show db.events.any (sameEvent args.event) = true from hknown)] at hok
      cases hok
      rfl

/-- Delivering an event that is known changes nothing, whichever admission it reaches. -/
theorem StoreOp.apply_known {op : StoreOp} {event : NormalizedEvent} {db : Database}
    (hevent : op.event? = some event) (hknown : db.knows event = true) : op.apply db = db := by
  cases op with
  | admitEvent delivered command acknowledgement taskId outboxId nowMs =>
      cases hevent
      refine Database.committed_rel (R := fun before after => after = before) db rfl ?_
      intro result after hok
      unfold RuntimeStore.admitEvent at hok
      dsimp only at hok
      split at hok
      · cases hok
        rfl
      · rw [insertEvent_known hknown] at hok
        cases hok
  | decideApproval args outboxId nowMs =>
      cases hevent
      exact decideApproval_known hknown
  | admitControl args controlId outboxId nowMs =>
      cases hevent
      refine Database.committed_rel (R := fun before after => after = before) db rfl ?_
      intro result after hok
      unfold RuntimeStore.admitControl at hok
      dsimp only at hok
      split at hok
      · cases hok
        rfl
      · rw [if_pos (show db.events.any (sameEvent args.event) = true from hknown)] at hok
        cases hok
        rfl
  | _ => cases hevent

theorem AdmissionEffect.knows {db after : Database} {op : StoreOp}
    (heffect : AdmissionEffect db op after) {event : NormalizedEvent}
    (hknown : db.knows event = true) : after.knows event = true := by
  unfold Database.knows at hknown ⊢
  cases heffect with
  | same hevents => rwa [hevents]
  | insert inserted nowMs hinserted hproduct => simp [hinserted.events, hknown]

theorem AdmissionEffect.recorded_known {db after : Database} {op : StoreOp}
    (heffect : AdmissionEffect db op after) :
    ∀ d ∈ StoreHistory.recorded db op, after.knows d.event = true := by
  cases heffect with
  | same _ _ _ hrecorded =>
      rw [hrecorded]
      exact fun d hd => absurd hd List.not_mem_nil
  | insert event nowMs hinserted hproduct =>
      intro d hd
      generalize StoreHistory.recorded db op = ds at hproduct hd
      cases hproduct with
      | task => cases hd
      | control => cases hd
      | decision decision _ =>
          rw [List.mem_singleton.mp hd]
          simp [Database.knows, hinserted.events, sameEvent]

/-! ### What an event was admitted as -/

/-- What a message event was admitted as. -/
inductive AdmittedIdentity where
  | task (taskId : String)
  | control (controlId taskId : String)
deriving DecidableEq, Repr

/-- The join of `admit` with `runtime_tasks`. -/
def existingTask (db : Database) (event : NormalizedEvent) : Option TaskRow :=
  (db.events.filter (sameEvent event)).findSome? fun row =>
    db.tasks.find? fun task => task.eventPk = some row.eventPk

/-- The join of `admit_control` with `runtime_run_controls`. -/
def existingControl (db : Database) (event : NormalizedEvent) : Option ControlRow :=
  (db.events.filter (sameEvent event)).findSome? fun row =>
    db.controls.find? fun control => control.eventPk = row.eventPk

def identity (db : Database) (event : NormalizedEvent) : Option AdmittedIdentity :=
  match existingControl db event with
  | some control => some (.control control.controlId control.targetTaskId)
  | none => (existingTask db event).map fun task => .task task.taskId

/-- The same from the columns that no transaction changes. -/
def identityOf (rows : List EventRow) (tasks : List (String × Option Nat))
    (controls : List (String × Nat × String)) : Option AdmittedIdentity :=
  match rows.findSome? fun row => controls.find? fun key => key.2.1 = row.eventPk with
  | some key => some (.control key.1 key.2.2)
  | none => (rows.findSome? fun row => tasks.find? fun key => key.2 = some row.eventPk).map
      fun key => .task key.1

theorem findSome?_map {α β γ : Type*} (f : α → Option β) (g : β → γ) (rows : List α) :
    rows.findSome? (fun row => (f row).map g) = (rows.findSome? f).map g := by
  induction rows with
  | nil => rfl
  | cons row rest ih =>
      cases hrow : f row with
      | none => simp [hrow, ih]
      | some b => simp [hrow]

theorem findSome?_congr {α β : Type*} {f g : α → Option β} {rows : List α}
    (heq : ∀ row ∈ rows, f row = g row) : rows.findSome? f = rows.findSome? g := by
  induction rows with
  | nil => rfl
  | cons row rest ih =>
      rw [List.findSome?_cons, List.findSome?_cons, heq row List.mem_cons_self,
        ih fun other hother => heq other (List.mem_cons_of_mem _ hother)]

theorem identity_eq (db : Database) (event : NormalizedEvent) :
    identity db event = identityOf (db.events.filter (sameEvent event)) (db.tasks.map taskKey)
      (db.controls.map controlKey) := by
  have hcontrols : ((db.events.filter (sameEvent event)).findSome? fun row =>
      (db.controls.map controlKey).find? fun key => key.2.1 = row.eventPk) =
      (existingControl db event).map controlKey := by
    unfold existingControl
    rw [← findSome?_map]
    congr 1
    funext row
    rw [List.find?_map]
    rfl
  have htasks : ((db.events.filter (sameEvent event)).findSome? fun row =>
      (db.tasks.map taskKey).find? fun key => key.2 = some row.eventPk) =
      (existingTask db event).map taskKey := by
    unfold existingTask
    rw [← findSome?_map]
    congr 1
    funext row
    rw [List.find?_map]
    rfl
  unfold identity identityOf
  rw [hcontrols, htasks]
  cases existingControl db event with
  | some control => rfl
  | none => cases existingTask db event <;> rfl

theorem knows_of_identity {db : Database} {event : NormalizedEvent} {chosen : AdmittedIdentity}
    (hidentity : identity db event = some chosen) : db.knows event = true := by
  unfold Database.knows
  by_contra hunknown
  have hnone : db.events.filter (sameEvent event) = [] := by
    rw [List.filter_eq_nil_iff]
    intro row hrow hsame
    exact hunknown (List.any_eq_true.mpr ⟨row, hrow, hsame⟩)
  rw [identity_eq, hnone] at hidentity
  cases hidentity

namespace StoreHistory

/-- The row belongs to the event. -/
def belongs (db : Database) (event : NormalizedEvent) (eventPk : Option Nat) : Bool :=
  db.events.any fun row => sameEvent event row && eventPk = some row.eventPk

def sameKey (a b : NormalizedEvent) : Bool :=
  a.tenantKey = b.tenantKey && a.appId = b.appId && a.eventId = b.eventId

theorem sameKey_iff {a b : NormalizedEvent} : sameKey a b = true ↔ SameDelivery a b := by
  simp only [sameKey, Bool.and_eq_true, decide_eq_true_eq]
  exact ⟨fun ⟨⟨htenant, happ⟩, hid⟩ => ⟨htenant, happ, hid⟩,
    fun h => ⟨⟨h.tenantKey, h.appId⟩, h.eventId⟩⟩

/-- The tasks, run controls and decisions that an event has created. -/
def productCount (s : StoreHistory) (event : NormalizedEvent) : Nat :=
  (s.db.tasks.countP fun task => belongs s.db event task.eventPk) +
    (s.db.controls.countP fun control => belongs s.db event (some control.eventPk)) +
    s.decisions.countP fun d => sameKey d.event event

structure AdmissionInvariant (s : StoreHistory) : Prop where
  eventPks : ∀ row ∈ s.db.events, row.eventPk ≤ s.db.eventSequence
  taskPks : ∀ key ∈ s.db.tasks.map taskKey, ∀ pk, key.2 = some pk → pk ≤ s.db.eventSequence
  controlPks : ∀ key ∈ s.db.controls.map controlKey, key.2.1 ≤ s.db.eventSequence
  known : ∀ d ∈ s.decisions, s.db.knows d.event = true
  oneEvent : ∀ event, s.db.events.countP (sameEvent event) ≤ 1
  oneProduct : ∀ event, s.productCount event ≤ 1

theorem admissionInvariant_init : AdmissionInvariant {} :=
  { eventPks := fun _ hrow => absurd hrow List.not_mem_nil
    taskPks := fun _ hkey => absurd hkey List.not_mem_nil
    controlPks := fun _ hkey => absurd hkey List.not_mem_nil
    known := fun _ hd => absurd hd List.not_mem_nil
    oneEvent := fun _ => Nat.zero_le 1
    oneProduct := fun _ => Nat.zero_le 1 }

variable {s t : StoreHistory} {db after : Database} {event inserted : NormalizedEvent} {nowMs : Int}

/-! ### After an insertion -/

/-- The rows of an event that is known are the rows it had. -/
theorem filter_inserted (hinserted : EventInserted db after inserted nowMs)
    (hknown : db.knows event = true) :
    after.events.filter (sameEvent event) = db.events.filter (sameEvent event) := by
  have hother : sameEvent event ⟨db.eventSequence + 1, inserted, nowMs⟩ = false := by
    rw [Bool.eq_false_iff]
    intro hsame
    have hdelivery : SameDelivery inserted event := sameEvent_iff.mp hsame
    have hfresh := hinserted.fresh
    rw [hdelivery.sameEvent_eq] at hfresh
    unfold Database.knows at hknown
    rw [hknown] at hfresh
    cases hfresh
  rw [hinserted.events, List.filter_append, List.filter_cons_of_neg (by simp [hother]),
    List.filter_nil, List.append_nil]

theorem belongs_inserted (hinserted : EventInserted db after inserted nowMs)
    (eventPk : Option Nat) : belongs after event eventPk =
      (belongs db event eventPk ||
        (sameKey inserted event && eventPk = some (db.eventSequence + 1))) := by
  have hkey : sameEvent event ⟨db.eventSequence + 1, inserted, nowMs⟩ = sameKey inserted event :=
    rfl
  simp [belongs, hinserted.events, hkey]

/-- The key of the inserted event is no row's yet. -/
theorem belongs_next (hpks : ∀ row ∈ db.events, row.eventPk ≤ db.eventSequence) :
    belongs db event (some (db.eventSequence + 1)) = false := by
  unfold belongs
  rw [List.any_eq_false]
  intro row hrow hmatch
  simp only [Bool.and_eq_true, decide_eq_true_eq, Option.some.injEq] at hmatch
  have hle := hpks row hrow
  omega

/-- A key that was handed out before belongs to the events it belonged to. -/
theorem belongs_old (hinserted : EventInserted db after inserted nowMs) {eventPk : Option Nat}
    (hold : ∀ pk, eventPk = some pk → pk ≤ db.eventSequence) :
    belongs after event eventPk = belongs db event eventPk := by
  rw [belongs_inserted hinserted]
  have hne : eventPk ≠ some (db.eventSequence + 1) := by
    intro heq
    have hle := hold _ heq
    omega
  simp [hne]

/-- An event that the store does not know has created nothing. -/
theorem belongs_unknown (hunknown : db.knows event = false) (eventPk : Option Nat) :
    belongs db event eventPk = false := by
  unfold Database.knows at hunknown
  rw [List.any_eq_false] at hunknown
  unfold belongs
  rw [List.any_eq_false]
  intro row hrow hmatch
  exact hunknown row hrow (Bool.and_eq_true_iff.mp hmatch).1

theorem productCount_unknown (hinv : AdmissionInvariant s) (hunknown : s.db.knows event = false) :
    s.productCount event = 0 := by
  have hdecisions : s.decisions.countP (fun d => sameKey d.event event) = 0 := by
    rw [List.countP_eq_zero]
    intro d hd hsame
    have hknown := hinv.known d hd
    rw [(sameKey_iff.mp hsame).knows_eq, hunknown] at hknown
    cases hknown
  simp [productCount, belongs_unknown hunknown, hdecisions]

/-- The counts are functions of the columns that no transaction changes. -/
theorem productCount_eq (s : StoreHistory) (event : NormalizedEvent) :
    s.productCount event = ((s.db.tasks.map taskKey).countP fun key => belongs s.db event key.2) +
      ((s.db.controls.map controlKey).countP fun key => belongs s.db event (some key.2.1)) +
      s.decisions.countP fun d => sameKey d.event event := by
  rw [productCount, List.countP_map, List.countP_map]
  rfl

/-- An admission adds one to its own event and nothing to the others. -/
theorem productCount_inserted {ds : List DecisionRecord} (hinv : AdmissionInvariant s)
    (hinserted : EventInserted s.db after inserted nowMs)
    (hproduct : Product s.db after ds inserted) (event : NormalizedEvent) :
    productCount ⟨after, s.decisions ++ ds⟩ event =
      s.productCount event + if sameKey inserted event then 1 else 0 := by
  have htasks : ((s.db.tasks.map taskKey).countP fun key => belongs after event key.2) =
      (s.db.tasks.map taskKey).countP fun key => belongs s.db event key.2 := by
    refine List.countP_congr fun key hkey => ?_
    rw [belongs_old hinserted (hinv.taskPks key hkey)]
  have hcontrols : ((s.db.controls.map controlKey).countP fun key =>
      belongs after event (some key.2.1)) =
      (s.db.controls.map controlKey).countP fun key => belongs s.db event (some key.2.1) := by
    refine List.countP_congr fun key hkey => ?_
    rw [belongs_old hinserted]
    intro pk hpk
    cases hpk
    exact hinv.controlPks key hkey
  have hnext : belongs after event (some (s.db.eventSequence + 1)) = sameKey inserted event := by
    rw [belongs_inserted hinserted, belongs_next hinv.eventPks]
    simp
  rw [productCount_eq, productCount_eq]
  dsimp only
  cases hproduct with
  | task taskId htaskKeys hcontrolKeys =>
      rw [htaskKeys, hcontrolKeys, List.countP_append, htasks, hcontrols, List.append_nil]
      simp only [List.countP_singleton, hnext]
      omega
  | control controlId taskId htaskKeys hcontrolKeys =>
      rw [htaskKeys, hcontrolKeys, List.countP_append, htasks, hcontrols, List.append_nil]
      simp only [List.countP_singleton, hnext]
      omega
  | decision d hsame =>
      rw [hsame.tasks, hsame.controls, htasks, hcontrols, List.countP_append]
      simp only [List.countP_singleton]
      omega

theorem AdmissionInvariant.insert {ds : List DecisionRecord} (hinv : AdmissionInvariant s)
    (hinserted : EventInserted s.db after inserted nowMs)
    (hproduct : Product s.db after ds inserted)
    (hknown : ∀ d ∈ s.decisions ++ ds, after.knows d.event = true) :
    AdmissionInvariant ⟨after, s.decisions ++ ds⟩ := by
  have hsequence := hinserted.eventSequence
  have holdTasks : ∀ key ∈ s.db.tasks.map taskKey, ∀ pk, key.2 = some pk →
      pk ≤ after.eventSequence := by
    intro key hkey pk hpk
    have hle := hinv.taskPks key hkey pk hpk
    omega
  have holdControls : ∀ key ∈ s.db.controls.map controlKey, key.2.1 ≤ after.eventSequence := by
    intro key hkey
    have hle := hinv.controlPks key hkey
    omega
  have hfresh : s.db.knows inserted = false := hinserted.fresh
  refine ⟨?_, ?_, ?_, hknown, ?_, ?_⟩
  · intro row hrow
    dsimp only at hrow ⊢
    rw [hinserted.events, List.mem_append, List.mem_singleton] at hrow
    rcases hrow with hold | rfl
    · have hle := hinv.eventPks row hold
      omega
    · exact Nat.le_of_eq hsequence.symm
  · cases hproduct with
    | task taskId htaskKeys _ =>
        intro key hkey pk hpk
        dsimp only at hkey
        rw [htaskKeys, List.mem_append, List.mem_singleton] at hkey
        rcases hkey with hold | rfl
        · exact holdTasks key hold pk hpk
        · cases hpk
          exact Nat.le_of_eq hsequence.symm
    | control _ _ htaskKeys _ => rwa [htaskKeys]
    | decision d hsame => rwa [hsame.tasks]
  · cases hproduct with
    | task _ _ hcontrolKeys => rwa [hcontrolKeys]
    | control controlId taskId _ hcontrolKeys =>
        intro key hkey
        dsimp only at hkey
        rw [hcontrolKeys, List.mem_append, List.mem_singleton] at hkey
        rcases hkey with hold | rfl
        · exact holdControls key hold
        · exact Nat.le_of_eq hsequence.symm
    | decision d hsame => rwa [hsame.controls]
  · intro event
    dsimp only
    rw [hinserted.events, List.countP_append]
    by_cases hsame : sameKey inserted event = true
    · have hnone : s.db.events.countP (sameEvent event) = 0 := by
        rw [List.countP_eq_zero]
        rw [(sameKey_iff.mp hsame).knows_eq] at hfresh
        exact fun row hrow => List.any_eq_false.mp hfresh row hrow
      rw [hnone, List.countP_singleton]
      split <;> omega
    · have hother : sameEvent event ⟨s.db.eventSequence + 1, inserted, nowMs⟩ = false := by
        exact Bool.eq_false_iff.mpr hsame
      rw [List.countP_singleton, hother]
      exact hinv.oneEvent event
  · intro event
    rw [productCount_inserted hinv hinserted hproduct]
    by_cases hsame : sameKey inserted event = true
    · rw [(sameKey_iff.mp hsame).knows_eq] at hfresh
      rw [productCount_unknown hinv hfresh]
      split <;> omega
    · rw [if_neg hsame]
      exact hinv.oneProduct event

theorem AdmissionInvariant.step {op : StoreOp} (hinv : AdmissionInvariant s)
    (hstep : step s op = some t) : AdmissionInvariant t := by
  cases hstep
  have heffect := admissionEffect s.db op
  have hknown : ∀ d ∈ s.decisions ++ recorded s.db op, (op.apply s.db).knows d.event = true := by
    intro d hd
    rcases List.mem_append.mp hd with hold | hnew
    · exact heffect.knows (hinv.known d hold)
    · exact heffect.recorded_known d hnew
  cases heffect with
  | same hevents hsequence hproducts hrecorded =>
      rw [hrecorded, List.append_nil] at hknown ⊢
      have hbelongs : ∀ event eventPk,
          belongs (op.apply s.db) event eventPk = belongs s.db event eventPk := by
        intro event eventPk
        rw [belongs, hevents, ← belongs]
      refine ⟨?_, ?_, ?_, hknown, ?_, ?_⟩
      · rw [hevents, hsequence]
        exact hinv.eventPks
      · rw [hproducts.tasks, hsequence]
        exact hinv.taskPks
      · rw [hproducts.controls, hsequence]
        exact hinv.controlPks
      · rw [hevents]
        exact hinv.oneEvent
      · intro event
        rw [productCount_eq]
        simp only [hproducts.tasks, hproducts.controls, hbelongs]
        rw [← productCount_eq]
        exact hinv.oneProduct event
  | insert event nowMs hinserted hproduct => exact hinv.insert hinserted hproduct hknown

/-- What a known event was admitted as never changes. -/
theorem identity_kept {op : StoreOp} (hinv : AdmissionInvariant s)
    (hknown : s.db.knows event = true) :
    identity (op.apply s.db) event = identity s.db event := by
  rw [identity_eq, identity_eq]
  have hpks : ∀ row ∈ s.db.events.filter (sameEvent event), row.eventPk ≤ s.db.eventSequence :=
    fun row hrow => hinv.eventPks row (List.mem_of_mem_filter hrow)
  cases admissionEffect s.db op with
  | same hevents _ hproducts _ => rw [hevents, hproducts.tasks, hproducts.controls]
  | insert inserted nowMs hinserted hproduct =>
      rw [filter_inserted hinserted hknown]
      generalize s.db.events.filter (sameEvent event) = rows at hpks ⊢
      generalize recorded s.db op = ds at hproduct
      -- the new key is above the keys of all the rows that are looked up
      have hcontrol : ∀ row ∈ rows, ∀ controlId taskId : String,
          (s.db.controls.map controlKey ++ [(controlId, s.db.eventSequence + 1, taskId)]).find?
            (fun key => key.2.1 = row.eventPk) =
          (s.db.controls.map controlKey).find? (fun key => key.2.1 = row.eventPk) := by
        intro row hrow controlId taskId
        have hne : s.db.eventSequence + 1 ≠ row.eventPk := by
          have hle := hpks row hrow
          omega
        rw [List.find?_append]
        simp [hne]
      have htask : ∀ row ∈ rows, ∀ taskId : String,
          (s.db.tasks.map taskKey ++ [(taskId, some (s.db.eventSequence + 1))]).find?
            (fun key => key.2 = some row.eventPk) =
          (s.db.tasks.map taskKey).find? (fun key => key.2 = some row.eventPk) := by
        intro row hrow taskId
        have hne : s.db.eventSequence + 1 ≠ row.eventPk := by
          have hle := hpks row hrow
          omega
        rw [List.find?_append]
        simp [hne]
      unfold identityOf
      cases hproduct with
      | task taskId htaskKeys hcontrolKeys =>
          rw [htaskKeys, hcontrolKeys, findSome?_congr fun row hrow => htask row hrow taskId]
      | control controlId taskId htaskKeys hcontrolKeys =>
          rw [htaskKeys, hcontrolKeys,
            findSome?_congr fun row hrow => hcontrol row hrow controlId taskId]
      | decision d hsame => rw [hsame.tasks, hsame.controls]

end StoreHistory

end Codex2Lark
