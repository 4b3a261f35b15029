import Codex2Lark.Storage.Inbox

/-!
What a lease transaction does to the rows of the task queue: the sweep changes each
row by itself, and the selection is a sequence of picks, each of which leases one
pending row.
-/

namespace Codex2Lark.TaskQueue

open Lib

/-! ### The sweep -/

def sweptRow (nowMs : Int) (task : TaskRow) : TaskRow :=
  if leaseExpired nowMs task then
    if task.attemptCount < task.maxAttempts then dropLease nowMs task
    else { dropLease nowMs task with lastErrorCode := some "lease_retry_exhausted" }
  else task

theorem sweepExpired_eq (nowMs : Int) (tasks : List TaskRow) :
    sweepExpired nowMs tasks = tasks.map (sweptRow nowMs) := by
  simp only [sweepExpired, Table.update, List.map_map]
  apply List.map_congr_left
  intro task _
  cases hexpired : leaseExpired nowMs task with
  | false => simp [sweptRow, hexpired]
  | true =>
      by_cases hleft : task.attemptCount < task.maxAttempts
      · have hdropped : leaseExpired nowMs (dropLease nowMs task) = false := rfl
        simp [sweptRow, hexpired, hleft, hdropped]
      · have hspent : task.maxAttempts ≤ task.attemptCount := Nat.le_of_not_lt hleft
        simp [sweptRow, hexpired, hleft, hspent]

/-- The columns that no transaction of the queue writes. -/
structure SameTask (a b : TaskRow) : Prop where
  taskId : a.taskId = b.taskId
  sessionKey : a.sessionKey = b.sessionKey
  tenantKey : a.tenantKey = b.tenantKey
  appId : a.appId = b.appId
  groupId : a.groupId = b.groupId
  maxAttempts : a.maxAttempts = b.maxAttempts

theorem SameTask.refl (task : TaskRow) : SameTask task task := ⟨rfl, rfl, rfl, rfl, rfl, rfl⟩

theorem SameTask.trans {a b c : TaskRow} (hab : SameTask a b) (hbc : SameTask b c) :
    SameTask a c :=
  ⟨hab.1.trans hbc.1, hab.2.trans hbc.2, hab.3.trans hbc.3, hab.4.trans hbc.4, hab.5.trans hbc.5,
    hab.6.trans hbc.6⟩

theorem sweptRow_same (nowMs : Int) (task : TaskRow) : SameTask task (sweptRow nowMs task) := by
  unfold sweptRow
  split
  · split <;> exact ⟨rfl, rfl, rfl, rfl, rfl, rfl⟩
  · exact .refl task

theorem sweepExpired_ids (nowMs : Int) (tasks : List TaskRow) :
    (sweepExpired nowMs tasks).map TaskRow.taskId = tasks.map TaskRow.taskId := by
  rw [sweepExpired_eq, List.map_map]
  have hsame : TaskRow.taskId ∘ sweptRow nowMs = TaskRow.taskId :=
    funext fun task => (sweptRow_same nowMs task).taskId.symm
  rw [hsame]

/-- A leased row that the sweep leaves is the row it was. -/
theorem sweptRow_leased {nowMs : Int} {task : TaskRow}
    (hleased : (sweptRow nowMs task).state = .leased) :
    sweptRow nowMs task = task ∧ leaseExpired nowMs task = false := by
  unfold sweptRow at hleased ⊢
  cases hexpired : leaseExpired nowMs task with
  | false => simp
  | true =>
      rw [hexpired] at hleased
      simp only [if_true] at hleased
      split at hleased <;> cases hleased

/-! ### Picks -/

def leasedRow (args : LeaseArgs) (task : TaskRow) : TaskRow :=
  { task with
    state := .leased
    leaseOwner := some args.workerId
    leaseExpiresAtMs := some (args.nowMs + args.leaseMs)
    attemptCount := if isExhaustionMarker task.lastErrorCode then task.attemptCount
      else task.attemptCount + 1
    updatedAtMs := args.nowMs }

theorem leasedRow_same (args : LeaseArgs) (task : TaskRow) : SameTask task (leasedRow args task) :=
  ⟨rfl, rfl, rfl, rfl, rfl, rfl⟩

theorem leaseTask_eq (args : LeaseArgs) (taskId : String) (tasks : List TaskRow) :
    leaseTask args taskId tasks =
      Table.update (fun task => task.taskId = taskId && task.state = .pending) (leasedRow args)
        tasks := rfl

/-- Rows that are leased one after the other, each of them when the condition holds. -/
inductive Picks (args : LeaseArgs) (P : List TaskRow → TaskRow → Prop) :
    List TaskRow → List String → List TaskRow → Prop
  | nil (tasks : List TaskRow) : Picks args P tasks [] tasks
  | cons {tasks after : List TaskRow} {ids : List String} (task : TaskRow) (hmem : task ∈ tasks)
      (hpending : task.state = .pending) (hcond : P tasks task)
      (hrest : Picks args P (leaseTask args task.taskId tasks) ids after) :
      Picks args P tasks (task.taskId :: ids) after

variable {args : LeaseArgs} {P : List TaskRow → TaskRow → Prop} {tasks after : List TaskRow}
  {ids : List String}

theorem leaseTask_ids (args : LeaseArgs) (taskId : String) (tasks : List TaskRow) :
    (leaseTask args taskId tasks).map TaskRow.taskId = tasks.map TaskRow.taskId :=
  Table.map_update TaskRow.taskId fun _ => rfl

/-- With unique identifiers a pick changes exactly the picked row. -/
theorem mem_leaseTask (hunique : (tasks.map TaskRow.taskId).Nodup) {task : TaskRow}
    (hmem : task ∈ tasks) (hpending : task.state = .pending) {row : TaskRow} :
    row ∈ leaseTask args task.taskId tasks ↔
      row = leasedRow args task ∨ row ∈ tasks ∧ row.taskId ≠ task.taskId := by
  rw [leaseTask_eq]
  constructor
  · intro hrow
    rcases Table.mem_update_cases hrow with ⟨hold, hcond⟩ | ⟨old, hold, hcond, rfl⟩
    · right
      refine ⟨hold, ?_⟩
      intro hid
      rw [List.inj_on_of_nodup_map hunique hold hmem hid] at hcond
      simp [hpending] at hcond
    · left
      simp only [Bool.and_eq_true, decide_eq_true_eq] at hcond
      rw [List.inj_on_of_nodup_map hunique hold hmem hcond.1]
  · rintro (rfl | ⟨hold, hne⟩)
    · exact Table.mem_update_of_cond hmem (by simp [hpending])
    · exact Table.mem_update_of_not hold (by simp [hne])

/-- The induction rule of the picks. -/
theorem Picks.invariant {I : List TaskRow → Prop} (hpicks : Picks args P tasks ids after)
    (hunique : (tasks.map TaskRow.taskId).Nodup) (hinit : I tasks)
    (hstep : ∀ tasks task, (tasks.map TaskRow.taskId).Nodup → task ∈ tasks →
      task.state = .pending → P tasks task → I tasks → I (leaseTask args task.taskId tasks)) :
    I after := by
  induction hpicks with
  | nil tasks => exact hinit
  | cons task hmem hpending hcond _ ih =>
      refine ih ?_ (hstep _ task hunique hmem hpending hcond hinit)
      rwa [leaseTask_ids]

/-- What the picks with these identifiers do to one row. -/
inductive PickedRow (args : LeaseArgs) (Q : TaskRow → Prop) (ids : List String) :
    TaskRow → TaskRow → Prop
  | keep (row : TaskRow) (hnot : row.taskId ∉ ids) : PickedRow args Q ids row row
  | lease (row : TaskRow) (hid : row.taskId ∈ ids) (hpending : row.state = .pending)
      (hcond : Q row) : PickedRow args Q ids row (leasedRow args row)

theorem Picks.rows {Q : TaskRow → Prop} (hpicks : Picks args P tasks ids after)
    (himp : ∀ tasks task, P tasks task → Q task) (hunique : (tasks.map TaskRow.taskId).Nodup) :
    List.Forall₂ (PickedRow args Q ids) tasks after := by
  induction hpicks with
  | nil tasks => exact List.forall₂_same.mpr fun row _ => .keep row List.not_mem_nil
  | @cons tasks after ids task hmem hpending hcond hrest ih =>
      have hfirst : List.Forall₂ (PickedRow args Q [task.taskId]) tasks
          (leaseTask args task.taskId tasks) := by
        refine Table.forall₂_update ?_ ?_
        · intro old hold hmatch
          simp only [Bool.and_eq_true, decide_eq_true_eq] at hmatch
          refine .lease old (by simp [hmatch.1]) hmatch.2 ?_
          rw [List.inj_on_of_nodup_map hunique hold hmem hmatch.1]
          exact himp tasks task hcond
        · intro old hold hmatch
          refine .keep old ?_
          rw [List.mem_singleton]
          intro hid
          rw [List.inj_on_of_nodup_map hunique hold hmem hid] at hmatch
          simp [hpending] at hmatch
      have hlater := ih (by rwa [leaseTask_ids])
      refine Table.Forall₂.comp ?_ hfirst hlater
      intro old middle row hleft hright
      cases hleft with
      | keep hnot =>
          rw [List.mem_singleton] at hnot
          cases hright with
          | keep hnotLater => exact .keep old (by simp [hnot, hnotLater])
          | lease hid hstill hcond' => exact .lease old (List.mem_cons_of_mem _ hid) hstill hcond'
      | lease hid hstill hcond' =>
          have hin : old.taskId ∈ task.taskId :: ids := by
            rw [List.mem_singleton.mp hid]
            exact List.mem_cons_self
          cases hright with
          | keep => exact .lease old hin hstill hcond'
          | lease _ hpending' _ => cases hpending'

/-! ### The selections are picks -/

/-- A pending row whose attempts are not spent, or that is to be finalized. -/
def CanLease (task : TaskRow) : Prop :=
  task.attemptCount < task.maxAttempts ∨ isExhaustionMarker task.lastErrorCode = true

theorem isAvailable_iff {tasks : List TaskRow} {nowMs : Int} {task : TaskRow} :
    isAvailable tasks nowMs task = true ↔ task.state = .pending ∧ task.availableAtMs ≤ nowMs ∧
      CanLease task ∧
      ∀ active ∈ tasks, active.sessionKey = task.sessionKey → leaseLive nowMs active = false := by
  simp [isAvailable, CanLease, and_assoc]

theorem isSessionHead_available {tasks : List TaskRow} {nowMs : Int} {task : TaskRow}
    (hhead : isSessionHead tasks nowMs task = true) : isAvailable tasks nowMs task = true := by
  simp only [isSessionHead, Bool.and_eq_true] at hhead
  exact hhead.1

/-- What one round of the limited selection found. -/
def IsCandidate (limits : TaskConcurrencyLimits) (nowMs : Int) (tasks : List TaskRow)
    (task : TaskRow) : Prop :=
  isSessionHead tasks nowMs task = true ∧ withinLimits limits tasks nowMs task = true

theorem nextCandidate_some {limits : TaskConcurrencyLimits} {nowMs : Int} {db : Database}
    {task : TaskRow} (hnext : nextCandidate limits nowMs db = some task) :
    task ∈ db.tasks ∧ IsCandidate limits nowMs db.tasks task := by
  have hmem := List.mem_of_mem_head? hnext
  rw [List.mem_insertionSort, List.mem_filter, Bool.and_eq_true] at hmem
  exact hmem

theorem selectLimited_picks (limits : TaskConcurrencyLimits) (args : LeaseArgs) (rounds : Nat)
    (db : Database) :
    Picks args (IsCandidate limits args.nowMs) db.tasks (selectLimited limits args rounds db).1
      (selectLimited limits args rounds db).2.tasks ∧
    (selectLimited limits args rounds db).1.length ≤ rounds := by
  induction rounds generalizing db with
  | zero => exact ⟨.nil db.tasks, Nat.le_refl 0⟩
  | succ rounds ih =>
      unfold selectLimited
      cases hnext : nextCandidate limits args.nowMs db with
      | none => exact ⟨.nil db.tasks, Nat.zero_le _⟩
      | some task =>
          obtain ⟨hmem, hcandidate⟩ := nextCandidate_some hnext
          have hpending := (isAvailable_iff.mp (isSessionHead_available hcandidate.1)).1
          obtain ⟨hpicks, hlength⟩ := ih (advanceLanes task args.nowMs
            { db with tasks := leaseTask args task.taskId db.tasks })
          exact ⟨.cons task hmem hpending hcandidate hpicks, Nat.succ_le_succ hlength⟩

/-- Distinct pending rows that are leased one after the other. -/
theorem leaseAll_picks {tasks rows : List TaskRow} (hunique : (tasks.map TaskRow.taskId).Nodup)
    (hids : (rows.map TaskRow.taskId).Nodup)
    (hrows : ∀ row ∈ rows, row ∈ tasks ∧ row.state = .pending ∧ CanLease row) :
    Picks args (fun _ task => CanLease task) tasks (rows.map TaskRow.taskId)
      ((rows.map TaskRow.taskId).foldl (fun tasks taskId => leaseTask args taskId tasks) tasks) := by
  induction rows generalizing tasks with
  | nil => exact .nil tasks
  | cons row rest ih =>
      obtain ⟨hmem, hpending, hcan⟩ := hrows row List.mem_cons_self
      obtain ⟨hnotIn, hrest⟩ := List.nodup_cons.mp hids
      refine .cons row hmem hpending hcan (ih (by rwa [leaseTask_ids]) hrest ?_)
      intro other hother
      obtain ⟨hotherMem, hotherRest⟩ := hrows other (List.mem_cons_of_mem _ hother)
      refine ⟨(mem_leaseTask hunique hmem hpending).mpr (.inr ⟨hotherMem, ?_⟩), hotherRest⟩
      intro hsame
      exact hnotIn (hsame ▸ List.mem_map_of_mem hother)

theorem selectUnlimited_picks (args : LeaseArgs) (db : Database)
    (hunique : (db.tasks.map TaskRow.taskId).Nodup) :
    Picks args (fun _ task => CanLease task) db.tasks (selectUnlimited args db).1
      (selectUnlimited args db).2.tasks := by
  let heads := (db.tasks.filter (isSessionHead db.tasks args.nowMs)).insertionSort
    (fun a b => taskLe a b)
  have hperm : heads.Perm (db.tasks.filter (isSessionHead db.tasks args.nowMs)) :=
    List.perm_insertionSort _ _
  have hnodup : (heads.map TaskRow.taskId).Nodup :=
    ((hperm.map TaskRow.taskId).nodup_iff).mpr
      (hunique.sublist (List.filter_sublist.map TaskRow.taskId))
  have hpicks : Picks args (fun _ task => CanLease task) db.tasks
      ((heads.take args.limit).map TaskRow.taskId) (((heads.take args.limit).map TaskRow.taskId).foldl
        (fun tasks taskId => leaseTask args taskId tasks) db.tasks) := by
    refine leaseAll_picks hunique (hnodup.sublist ((List.take_sublist _ _).map _)) ?_
    intro row hrow
    have hhead := List.mem_filter.mp (hperm.mem_iff.mp (List.mem_of_mem_take hrow))
    obtain ⟨hpending, _, hcan, _⟩ := isAvailable_iff.mp (isSessionHead_available hhead.2)
    exact ⟨hhead.1, hpending, hcan⟩
  exact hpicks

theorem Picks.mono {Q : List TaskRow → TaskRow → Prop} (hpicks : Picks args P tasks ids after)
    (himp : ∀ tasks task, P tasks task → Q tasks task) : Picks args Q tasks ids after := by
  induction hpicks with
  | nil tasks => exact .nil tasks
  | cons task hmem hpending hcond _ ih => exact .cons task hmem hpending (himp _ task hcond) ih

/-- The lease transaction under limits: at most as many picks as the global limit
leaves room for. -/
theorem leaseTasks_limited {limits : TaskConcurrencyLimits} {db after : Database}
    {leased : List LeasedTask} (hok : leaseTasks args (some limits) db = .ok (leased, after)) :
    0 < args.leaseMs ∧ ∃ ids,
      Picks args (IsCandidate limits args.nowMs) (sweepExpired args.nowMs db.tasks) ids
        after.tasks ∧
      ids.length ≤ limits.globalLimit -
        liveCount (sweepExpired args.nowMs db.tasks) args.nowMs fun _ => true := by
  unfold leaseTasks at hok
  split at hok
  · cases hok
  · rename_i hargs
    cases hok
    obtain ⟨hpicks, hlength⟩ := selectLimited_picks limits args (min args.limit
      (limits.globalLimit - liveCount (sweepExpired args.nowMs db.tasks) args.nowMs fun _ => true))
      { db with tasks := sweepExpired args.nowMs db.tasks }
    exact ⟨by omega, _, hpicks, hlength.trans (Nat.min_le_right _ _)⟩

/-- A lease transaction sweeps and picks, and returns the picked rows. -/
theorem leaseTasks_picks {limits : Option TaskConcurrencyLimits} {db after : Database}
    {leased : List LeasedTask} (hunique : (db.tasks.map TaskRow.taskId).Nodup)
    (hok : leaseTasks args limits db = .ok (leased, after)) :
    ∃ ids,
      Picks args (fun _ task => CanLease task) (sweepExpired args.nowMs db.tasks) ids after.tasks ∧
      leased = ((after.tasks.filter fun task => ids.contains task.taskId &&
        task.leaseOwner = some args.workerId).insertionSort (fun a b => taskLe a b)).map
          (leasedTask after) := by
  have hswept : ((sweepExpired args.nowMs db.tasks).map TaskRow.taskId).Nodup := by
    rwa [sweepExpired_ids]
  unfold leaseTasks at hok
  split at hok
  · cases hok
  · cases hok
    cases limits with
    | none =>
        exact ⟨_, selectUnlimited_picks args
          { db with tasks := sweepExpired args.nowMs db.tasks } hswept, rfl⟩
    | some limits =>
        obtain ⟨hpicks, _⟩ := selectLimited_picks limits args (min args.limit
          (limits.globalLimit - liveCount (sweepExpired args.nowMs db.tasks) args.nowMs fun _ => true))
          { db with tasks := sweepExpired args.nowMs db.tasks }
        refine ⟨_, hpicks.mono ?_, rfl⟩
        intro tasks task hcandidate
        exact (isAvailable_iff.mp (isSessionHead_available hcandidate.1)).2.2.1

theorem leaseTasks_ids {limits : Option TaskConcurrencyLimits} {db after : Database}
    {leased : List LeasedTask} (hunique : (db.tasks.map TaskRow.taskId).Nodup)
    (hok : leaseTasks args limits db = .ok (leased, after)) :
    after.tasks.map TaskRow.taskId = db.tasks.map TaskRow.taskId := by
  obtain ⟨ids, hpicks, _⟩ := leaseTasks_picks hunique hok
  have hswept := sweepExpired_ids args.nowMs db.tasks
  refine hpicks.invariant (I := fun tasks => tasks.map TaskRow.taskId = db.tasks.map TaskRow.taskId)
    (by rwa [hswept]) hswept ?_
  intro tasks task _ _ _ _ hinv
  rwa [leaseTask_ids]

theorem leaseTasks_same {limits : Option TaskConcurrencyLimits} {db after : Database}
    {leased : List LeasedTask} (hunique : (db.tasks.map TaskRow.taskId).Nodup)
    (hok : leaseTasks args limits db = .ok (leased, after)) :
    ∀ row ∈ after.tasks, ∃ old ∈ db.tasks, SameTask old row := by
  obtain ⟨ids, hpicks, _⟩ := leaseTasks_picks hunique hok
  refine hpicks.invariant (I := fun tasks => ∀ row ∈ tasks, ∃ old ∈ db.tasks, SameTask old row)
    (by rwa [sweepExpired_ids]) ?_ ?_
  · intro row hrow
    rw [sweepExpired_eq] at hrow
    obtain ⟨old, hold, rfl⟩ := List.mem_map.mp hrow
    exact ⟨old, hold, sweptRow_same args.nowMs old⟩
  · intro tasks task _ _ _ _ hinv row hrow
    rw [leaseTask_eq] at hrow
    rcases Table.mem_update_cases hrow with ⟨hold, _⟩ | ⟨middle, hmiddle, _, rfl⟩
    · exact hinv row hold
    · obtain ⟨old, hold, hsame⟩ := hinv middle hmiddle
      exact ⟨old, hold, hsame.trans (leasedRow_same args middle)⟩

/-! ### What a transaction does to the queue -/

/-- The row that an admission inserts. -/
def admittedRow (event : NormalizedEvent) (command : TaskCommand) (taskId : String) (eventPk : Nat)
    (nowMs : Int) : TaskRow :=
  { taskId, eventPk := some eventPk, pluginId := command.pluginId
    commandType := command.commandType, sessionKey := command.sessionKey
    tenantKey := event.tenantKey, appId := event.appId, groupId := command.groupId
    priority := command.priority, payload := command.payload, state := .pending
    availableAtMs := command.availableAtMs, leaseOwner := none, leaseExpiresAtMs := none
    attemptCount := 0, maxAttempts := command.maxAttempts, lastErrorCode := none
    createdAtMs := nowMs, updatedAtMs := nowMs }

/-- A redelivery changes nothing; else there is one more task, of a new identifier. -/
theorem admitEvent_result {event : NormalizedEvent} {command : TaskCommand}
    {acknowledgement : Option OutboxDraft} {taskId outboxId : String} {nowMs : Int}
    {db after : Database} {result : RuntimeStore.AdmissionResult}
    (hok : RuntimeStore.admitEvent event command acknowledgement taskId outboxId nowMs db =
      .ok (result, after)) :
    (result.created = false ∧ after = db) ∨
      (result = ⟨true, taskId⟩ ∧ (∀ task ∈ db.tasks, task.taskId ≠ taskId) ∧
        ∃ eventPk, after.tasks = db.tasks ++ [admittedRow event command taskId eventPk nowMs]) := by
  unfold RuntimeStore.admitEvent at hok
  dsimp only at hok
  split at hok
  · cases hok
    exact .inl ⟨rfl, rfl⟩
  · obtain ⟨⟨pk, middle⟩, hinsert, hok⟩ := PyError.bind_eq_ok.mp hok
    have htasks : middle.tasks = db.tasks := by rw [RuntimeStore.insertEvent_ok hinsert]
    split at hok
    · cases hok
    · rename_i hfresh
      cases hok
      refine .inr ⟨rfl, by simpa [htasks] using hfresh, pk, ?_⟩
      cases acknowledgement with
      | none => exact congrArg (· ++ _) htasks
      | some draft =>
          dsimp only
          rw [RuntimeStore.insertOutbox_eq]
          exact congrArg (· ++ _) htasks

theorem admitEvent_tasks {event : NormalizedEvent} {command : TaskCommand}
    {acknowledgement : Option OutboxDraft} {taskId outboxId : String} {nowMs : Int}
    {db after : Database} {result : RuntimeStore.AdmissionResult}
    (hok : RuntimeStore.admitEvent event command acknowledgement taskId outboxId nowMs db =
      .ok (result, after)) :
    after.tasks = db.tasks ∨ (∀ task ∈ db.tasks, task.taskId ≠ taskId) ∧
      ∃ eventPk, after.tasks = db.tasks ++ [admittedRow event command taskId eventPk nowMs] := by
  rcases admitEvent_result hok with ⟨_, rfl⟩ | ⟨_, hadmitted⟩
  · exact .inl rfl
  · exact .inr hadmitted

/-- The transactions that write the queue. -/
def movesTasks : StoreOp → Bool
  | .admitEvent .. | .leaseTasks .. | .finishTask .. | .retryTask .. | .deferTask .. => true
  | _ => false

theorem tasks_same {op : StoreOp} (hstill : movesTasks op = false) (db : Database) :
    (op.apply db).tasks = db.tasks := by
  cases op with
  | admitEvent | leaseTasks | finishTask | retryTask | deferTask => cases hstill
  | admitControl args controlId outboxId nowMs =>
      refine Database.committed_column Database.tasks fun result after hok => ?_
      rw [(RuntimeStore.admitControl_ok hok).1]
  | enqueueTaskOutbox taskId draft outboxId nowMs =>
      refine Database.committed_column Database.tasks fun value after hok => ?_
      rw [RuntimeStore.enqueueTaskOutbox_ok hok]
  | requestApproval request outboxId nowMs =>
      refine Database.committed_column Database.tasks fun state after hok => ?_
      rw [RuntimeStore.requestApproval_ok hok]
  | decideApproval args outboxId nowMs =>
      refine Database.committed_column Database.tasks fun result after hok => ?_
      rw [RuntimeStore.decideApproval_ok hok]
  | acknowledgeControls taskId controlIds nowMs =>
      simp only [StoreOp.apply, RuntimeStore.acknowledgeControls]
      split <;> rfl
  | startRun args nowMs =>
      refine Database.committed_column Database.tasks fun value after hok => ?_
      rw [(SessionStore.startRun_ok hok).1]
  | appendEvent runId eventType payload nowMs =>
      refine Database.committed_column Database.tasks fun value after hok => ?_
      rw [SessionStore.appendEvent_ok hok]
      rfl
  | saveCheckpoint checkpoint nowMs =>
      refine Database.committed_column Database.tasks fun value after hok => ?_
      rw [SessionStore.saveCheckpoint_ok hok]
  | discardCheckpoint runId =>
      refine Database.committed_column Database.tasks fun value after hok => ?_
      rw [SessionStore.discardCheckpoint_ok hok]
  | tryFinishWithOutcome runId outcome appliedControlIds nowMs =>
      exact Database.committed_column Database.tasks fun closed after hok =>
        (SessionStore.tryFinishWithOutcome_inbox hok).1

/-- The queue after one transaction of the store. -/
inductive TaskEffect (db : Database) : StoreOp → List TaskRow → Prop
  | same {op : StoreOp} : TaskEffect db op db.tasks
  | admission {event : NormalizedEvent} {command : TaskCommand} {acknowledgement : Option OutboxDraft}
      {taskId outboxId : String} {nowMs : Int} (eventPk : Nat)
      (hfresh : ∀ task ∈ db.tasks, task.taskId ≠ taskId) :
      TaskEffect db (.admitEvent event command acknowledgement taskId outboxId nowMs)
        (db.tasks ++ [admittedRow event command taskId eventPk nowMs])
  | lease {args : LeaseArgs} {limits : Option TaskConcurrencyLimits} {leased : List LeasedTask}
      {after : Database} (hok : leaseTasks args limits db = .ok (leased, after)) :
      TaskEffect db (.leaseTasks args limits) after.tasks
  | settle {op : StoreOp} (taskId workerId : String) (change : TaskRow → TaskRow)
      (hsame : ∀ task, SameTask task (change task))
      (hended : ∀ task, (change task).state ≠ .leased) :
      TaskEffect db op (Table.update (ownedBy taskId workerId) change db.tasks)

theorem taskEffect (db : Database) (op : StoreOp) : TaskEffect db op (op.apply db).tasks := by
  have hsame (op : StoreOp) {after : Database} (htasks : after.tasks = db.tasks) :
      TaskEffect db op after.tasks := by
    rw [htasks]
    exact .same
  cases op with
  | admitEvent event command acknowledgement taskId outboxId nowMs =>
      refine Database.committed_rel (R := fun db after => TaskEffect db _ after.tasks) db .same ?_
      intro result after hok
      rcases admitEvent_tasks hok with htasks | ⟨hfresh, pk, htasks⟩
      · exact hsame _ htasks
      · rw [htasks]
        exact .admission pk hfresh
  | leaseTasks args limits =>
      exact Database.committed_rel (R := fun db after => TaskEffect db _ after.tasks) db .same
        fun _ _ hok => .lease hok
  | finishTask args outboxId nowMs =>
      refine Database.committed_rel (R := fun db after => TaskEffect db _ after.tasks) db .same ?_
      intro value after hok
      obtain ⟨hterminal, _, hafter⟩ := finishTask_ok hok
      rw [hafter]
      refine .settle args.taskId args.workerId _ (fun _ => ⟨rfl, rfl, rfl, rfl, rfl, rfl⟩) ?_
      intro task hleased
      rw [show args.state = .leased from hleased] at hterminal
      cases hterminal
  | retryTask taskId workerId availableAtMs errorCode nowMs =>
      refine Database.committed_rel (R := fun db after => TaskEffect db _ after.tasks) db .same ?_
      intro value after hok
      obtain ⟨_, rfl⟩ := updateOwned_ok hok
      exact .settle taskId workerId _ (fun _ => ⟨rfl, rfl, rfl, rfl, rfl, rfl⟩)
        fun _ => TaskState.noConfusion
  | deferTask taskId workerId availableAtMs reason nowMs =>
      refine Database.committed_rel (R := fun db after => TaskEffect db _ after.tasks) db .same ?_
      intro value after hok
      unfold deferTask at hok
      split at hok
      · cases hok
      · obtain ⟨_, rfl⟩ := updateOwned_ok hok
        exact .settle taskId workerId _ (fun _ => ⟨rfl, rfl, rfl, rfl, rfl, rfl⟩)
          fun _ => TaskState.noConfusion
  | admitControl | enqueueTaskOutbox | requestApproval | decideApproval | acknowledgeControls
  | startRun | appendEvent | saveCheckpoint | discardCheckpoint | tryFinishWithOutcome =>
      exact hsame _ (tasks_same rfl db)

theorem uniqueTasks_concat {row : TaskRow} (hunique : (tasks.map TaskRow.taskId).Nodup)
    (hfresh : ∀ task ∈ tasks, task.taskId ≠ row.taskId) :
    ((tasks ++ [row]).map TaskRow.taskId).Nodup := by
  rw [List.map_append, List.nodup_append]
  refine ⟨hunique, by simp, ?_⟩
  simp only [List.mem_map, List.map_cons, List.map_nil, List.mem_singleton]
  rintro _ ⟨task, htask, rfl⟩ _ rfl
  exact hfresh task htask

theorem TaskEffect.uniqueTasks {db : Database} {op : StoreOp} {after : List TaskRow}
    (heffect : TaskEffect db op after) (hunique : (db.tasks.map TaskRow.taskId).Nodup) :
    (after.map TaskRow.taskId).Nodup := by
  cases heffect with
  | same => exact hunique
  | admission eventPk hfresh => exact uniqueTasks_concat hunique hfresh
  | lease hok =>
      rw [leaseTasks_ids hunique hok]
      exact hunique
  | settle taskId workerId change hsame hended =>
      rw [Table.map_update TaskRow.taskId fun task => (hsame task).taskId.symm]
      exact hunique

end Codex2Lark.TaskQueue
