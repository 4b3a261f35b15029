import Codex2Lark.Im.ChatAccess
import Codex2Lark.Im.Convergence
import Codex2Lark.Runtime.TaskAttempts

/-!
The access of a chat follows its latest event as long as the writes commit in the order of the
events. The invariant accounts for every ended task: it has been applied, or a later removal
has cancelled it.
-/

namespace Codex2Lark

open Lib TaskQueue TaskWorkers IMRepository

namespace AccessSystem

/-! ### The access of a chat -/

section Access

variable {db : MirrorDatabase} {request : BotRequest}

theorem shows_congr {after : MirrorDatabase}
    (haccess : ∀ row, findChat db request.chat = some row → ∃ moved,
      findChat after request.chat = some moved ∧ moved.enabled = row.enabled ∧
        moved.accessState = row.accessState)
    (hshown : shows db request = true) : shows after request = true := by
  unfold shows at hshown ⊢
  cases hfind : findChat db request.chat with
  | none =>
      rw [hfind] at hshown
      cases hshown
  | some row =>
      obtain ⟨moved, hmoved, henabled, hstate⟩ := haccess row hfind
      rw [hfind] at hshown
      rw [hmoved]
      simpa [henabled, hstate] using hshown

/-- An `INSERT ... ON CONFLICT` that does not touch the access of a stored chat. -/
theorem shows_put (row : ChatRow) {change : ChatRow → ChatRow}
    (hkey : ∀ other, (change other).key = other.key)
    (henabled : ∀ other, (change other).enabled = other.enabled)
    (hstate : ∀ other, (change other).accessState = other.accessState)
    (hshown : shows db request = true) {after : MirrorDatabase}
    (hchats : after.chats = Table.put ChatRow.key row change db.chats) :
    shows after request = true := by
  refine shows_congr ?_ hshown
  intro stored hstored
  unfold findChat at hstored ⊢
  rw [hchats, Table.find?_put row hkey, hstored]
  split
  · exact ⟨change stored, rfl, henabled stored, hstate stored⟩
  · exact ⟨stored, rfl, rfl, rfl⟩

theorem shows_upsertChat (message : MirroredMessage) (hshown : shows db request = true) :
    shows (upsertChat message db) request = true := by
  have hstate (row : ChatRow) :
      (if row.accessState = .revoked then row.accessState else .visible) = row.accessState := by
    cases row.accessState <;> rfl
  have hput : (upsertChat message db).chats = Table.put ChatRow.key _ _ db.chats := rfl
  refine shows_put _ ?_ ?_ ?_ hshown hput
  · exact fun _ => rfl
  · exact fun _ => rfl
  · exact hstate

theorem shows_message (write : MessageWrite) (hshown : shows db request = true) :
    shows (write.apply db) request = true := by
  cases write with
  | upsert message =>
      have hchat := shows_upsertChat message hshown
      refine upsert_rule (P := fun after => shows after request = true) message db
        fun result hcases => ?_
      cases hcases with
      | revoked | ignored | accepted => exact hchat
      | refused => exact hshown
  | invalidate args =>
      change shows (invalidateMessage args db).2 request = true
      unfold invalidateMessage
      dsimp only
      split
      · exact hshown
      · exact shows_put _ (fun _ => rfl) (fun _ => rfl) (fun _ => rfl) hshown rfl

theorem tasks_message (write : MessageWrite) (db : MirrorDatabase) :
    (write.apply db).runtime.tasks = db.runtime.tasks := by
  cases write with
  | upsert message =>
      refine upsert_rule (P := fun after => after.runtime.tasks = db.runtime.tasks) message db
        fun result hcases => ?_
      cases hcases with
      | revoked | ignored | refused => rfl
      | accepted hopen hnewer hkeys hruntime =>
          rcases hruntime with ⟨rfl, _⟩ | rfl
          · rfl
          · rfl
  | invalidate args =>
      change (invalidateMessage args db).2.runtime.tasks = db.runtime.tasks
      unfold invalidateMessage
      dsimp only
      split
      · rfl
      · rfl

/-- The other transactions leave the access of a stored chat alone. -/
theorem shows_other {op : MirrorOp} (hother : isOther op = true) (hshown : shows db request = true) :
    shows (op.apply db) request = true := by
  cases op with
  | revoke | restore => cases hother
  | message write => exact shows_message write hshown
  | recordBlob args =>
      obtain ⟨fileBlobs, attachments, hafter⟩ := recordBlob_frame args db
      rw [hafter]
      exact hshown
  | recordParse args =>
      obtain ⟨attachments, hafter⟩ := recordParse_frame args db
      rw [hafter]
      exact hshown
  | runtime op => exact hshown

end Access

/-! ### Tasks that move -/

structure SameWork (old row : TaskRow) : Prop where
  taskId : row.taskId = old.taskId
  commandType : row.commandType = old.commandType
  payload : row.payload = old.payload

def isOpen (task : TaskRow) : Bool := task.state = .pending || task.state = .leased

/-- The row stays as far as it was, or open. -/
structure Requeued (old row : TaskRow) : Prop extends SameWork old row where
  state : row.state = old.state ∨ isOpen old = true ∧ isOpen row = true

theorem Requeued.refl (task : TaskRow) : Requeued task task := ⟨⟨rfl, rfl, rfl⟩, .inl rfl⟩

theorem Requeued.trans {a b c : TaskRow} (hab : Requeued a b) (hbc : Requeued b c) :
    Requeued a c := by
  refine ⟨⟨hbc.taskId.trans hab.taskId, hbc.commandType.trans hab.commandType,
    hbc.payload.trans hab.payload⟩, ?_⟩
  rcases hab.state with hsame | ⟨hold, hmiddle⟩
  · rcases hbc.state with hsame' | ⟨hmiddle', hrow⟩
    · exact .inl (hsame'.trans hsame)
    · right
      unfold isOpen at hmiddle' ⊢
      rw [← hsame]
      exact ⟨hmiddle', hrow⟩
  · right
    rcases hbc.state with hsame' | ⟨_, hrow⟩
    · refine ⟨hold, ?_⟩
      unfold isOpen at hmiddle ⊢
      rwa [hsame']
    · exact ⟨hold, hrow⟩

theorem sweptRow_requeued (nowMs : Int) (task : TaskRow) : Requeued task (sweptRow nowMs task) := by
  unfold sweptRow
  split
  · rename_i hexpired
    have hopen : isOpen task = true := by
      unfold leaseExpired at hexpired
      unfold isOpen
      rw [(Bool.and_eq_true_iff.mp hexpired).1, Bool.or_true]
    split
    · exact ⟨⟨rfl, rfl, rfl⟩, .inr ⟨hopen, rfl⟩⟩
    · exact ⟨⟨rfl, rfl, rfl⟩, .inr ⟨hopen, rfl⟩⟩
  · exact .refl task

theorem leaseTasks_requeued {args : LeaseArgs} {limits : Option TaskConcurrencyLimits}
    {db after : Database} {leased : List LeasedTask} (hunique : (db.tasks.map TaskRow.taskId).Nodup)
    (hok : leaseTasks args limits db = .ok (leased, after)) :
    List.Forall₂ Requeued db.tasks after.tasks ∧
      ∀ task ∈ leased, ∃ row ∈ after.tasks, task.taskId = row.taskId ∧
        task.commandType = row.commandType ∧ task.payload = row.payload := by
  obtain ⟨ids, hrows, rfl⟩ := leaseTasks_rows hunique hok
  constructor
  · refine hrows.imp ?_
    intro old row hpicked
    refine (sweptRow_requeued args.nowMs old).trans ?_
    cases hpicked with
    | keep => exact .refl _
    | lease hid hpending =>
        refine ⟨⟨rfl, rfl, rfl⟩, .inr ⟨?_, rfl⟩⟩
        unfold isOpen
        rw [hpending]
        rfl
  · intro task htask
    obtain ⟨row, hrow, rfl⟩ := List.mem_map.mp htask
    rw [List.mem_insertionSort] at hrow
    exact ⟨row, List.mem_of_mem_filter hrow, rfl, rfl, rfl⟩

/-- The other transactions admit tasks of other commands at most. -/
theorem tasks_foreign {op : StoreOp} (hforeign : isForeign op = true) (db : Database) :
    (op.apply db).tasks = db.tasks ∨ ∃ row, (op.apply db).tasks = db.tasks ++ [row] ∧
      (∀ task ∈ db.tasks, task.taskId ≠ row.taskId) ∧ row.state = .pending ∧
      ∀ kind : BotEventKind, row.commandType ≠ kind.commandType := by
  cases hmoves : movesTasks op with
  | false => exact .inl (tasks_same hmoves db)
  | true =>
      cases op with
      | admitEvent event command acknowledgement taskId outboxId nowMs =>
          refine Database.committed_rel (R := fun db after => after.tasks = db.tasks ∨
            ∃ row, after.tasks = db.tasks ++ [row] ∧ (∀ task ∈ db.tasks, task.taskId ≠ row.taskId) ∧
              row.state = .pending ∧ ∀ kind : BotEventKind, row.commandType ≠ kind.commandType)
              db (.inl rfl) ?_
          intro result after hok
          rcases admitEvent_tasks hok with htasks | ⟨hfresh, eventPk, htasks⟩
          · exact .inl htasks
          · refine .inr ⟨_, htasks, hfresh, rfl, ?_⟩
            have hcommand : command.commandType ≠ "im.ensure_owner_membership" ∧
                command.commandType ≠ "im.revoke_chat_access" := by
              simpa [isForeign] using hforeign
            intro kind
            cases kind with
            | added => exact hcommand.1
            | removed => exact hcommand.2
      | leaseTasks | finishTask | retryTask | deferTask => cases hforeign
      | _ => cases hmoves

/-! ### The invariant -/

/-- The row is the task of the request. -/
structure Carries (request : BotRequest) (task : TaskRow) : Prop where
  taskId : task.taskId = request.taskId
  commandType : task.commandType = request.kind.commandType
  payload : task.payload = chatPayload request.chat

/-- What the histories know of a task that has ended. -/
def Accounted (applied : List BotRequest) (request : BotRequest) (task : TaskRow) : Prop :=
  isOpen task = true ∨ (task.state = .succeeded ∧ request ∈ applied) ∨
    (task.state = .cancelled ∧ ∃ other ∈ applied, other.chat = request.chat ∧
      request.occurredAtMs < other.occurredAtMs)

/-- What an execution is about to do belongs to a request, and has been done if it succeeded. -/
def Serves (admitted applied : List BotRequest) (execution : AccessExecution) : Prop :=
  match execution.phase with
  | .ensuring | .writing => ∃ request ∈ admitted, request.taskId = execution.task.taskId
  | .elsewhere => ∀ request ∈ admitted, request.taskId ≠ execution.task.taskId
  | .answered (.error _) => True
  | .answered (.ok result) => ∀ request ∈ admitted, request.taskId = execution.task.taskId →
      result.state = .succeeded ∧ request ∈ applied

/-- A worker of the gateway executes this task. -/
structure Performs (execution : AccessExecution) (task : TaskRow) : Prop where
  worker : ∃ gateway : GatewayWorker, execution.worker = gateway.tasks
  taskId : execution.task.taskId = task.taskId
  commandType : execution.task.commandType = task.commandType
  payload : execution.task.payload = task.payload

def ofChat (requests : List BotRequest) (chat : ChatKey) : List BotRequest :=
  requests.filter fun request => request.chat = chat

/-- The requests and their tasks. -/
structure Tracked (tasks : List TaskRow) (admitted : List BotRequest) : Prop where
  unique : (tasks.map TaskRow.taskId).Nodup
  distinct : (admitted.map BotRequest.taskId).Nodup
  carried : ∀ request ∈ admitted, ∃ task ∈ tasks, Carries request task
  owned : ∀ task ∈ tasks, ∀ kind : BotEventKind, task.commandType = kind.commandType →
    ∃ request ∈ admitted, request.taskId = task.taskId

structure Invariant (s : AccessSystem) : Prop where
  tracked : Tracked s.db.runtime.tasks s.admitted
  accounted : ∀ request ∈ s.admitted, ∀ task ∈ s.db.runtime.tasks, task.taskId = request.taskId →
    Accounted s.applied request task
  leased : ∀ execution ∈ s.executions, ∃ task ∈ s.db.runtime.tasks, Performs execution task
  served : ∀ execution ∈ s.executions, Serves s.admitted s.applied execution
  recorded : ∀ request ∈ s.applied, request ∈ s.admitted
  sorted : ∀ chat, (ofChat s.applied chat).Pairwise fun a b => a.occurredAtMs ≤ b.occurredAtMs
  shown : ∀ chat request, (ofChat s.applied chat).getLast? = some request →
    shows s.db request = true

theorem invariant_init : Invariant {} := by
  refine ⟨⟨List.nodup_nil, List.nodup_nil, ?_, ?_⟩, ?_, ?_, ?_, ?_, fun _ => List.Pairwise.nil, ?_⟩
  · exact fun _ hmem => absurd hmem List.not_mem_nil
  · exact fun _ hmem => absurd hmem List.not_mem_nil
  · exact fun _ hmem => absurd hmem List.not_mem_nil
  · exact fun _ hmem => absurd hmem List.not_mem_nil
  · exact fun _ hmem => absurd hmem List.not_mem_nil
  · exact fun _ hmem => absurd hmem List.not_mem_nil
  · intro chat request hlast
    cases hlast

/-! ### The invariant gives the law -/

theorem Latest.eq_last {requests : List BotRequest} {request last : BotRequest}
    (hlatest : Latest requests request) (hmem : request ∈ requests)
    (hsorted : (ofChat requests request.chat).Pairwise fun a b => a.occurredAtMs ≤ b.occurredAtMs)
    (hlast : (ofChat requests request.chat).getLast? = some last) : last = request := by
  by_contra hne
  have hin : request ∈ ofChat requests request.chat := List.mem_filter.mpr ⟨hmem, by simp⟩
  have hlastIn := List.mem_filter.mp (List.mem_of_getLast? hlast)
  have hlater : last.occurredAtMs < request.occurredAtMs :=
    hlatest last hlastIn.1 (by simpa using hlastIn.2) hne
  have hle : request.occurredAtMs ≤ last.occurredAtMs := by
    obtain ⟨earlier, hsplit⟩ := List.getLast?_eq_some_iff.mp hlast
    rw [hsplit] at hin hsorted
    rcases List.mem_append.mp hin with hbefore | hself
    · exact (List.pairwise_append.mp hsorted).2.2 request hbefore last List.mem_cons_self
    · exact absurd (List.mem_singleton.mp hself).symm hne
  omega

theorem Invariant.shows_latest {s : AccessSystem} (hinv : Invariant s) {request : BotRequest}
    (hmem : request ∈ s.applied) (hlatest : Latest s.applied request) :
    shows s.db request = true := by
  have hin : request ∈ ofChat s.applied request.chat := List.mem_filter.mpr ⟨hmem, by simp⟩
  cases hlast : (ofChat s.applied request.chat).getLast? with
  | none =>
      rw [List.getLast?_eq_none_iff] at hlast
      rw [hlast] at hin
      exact absurd hin List.not_mem_nil
  | some last =>
      obtain rfl := hlatest.eq_last hmem (hinv.sorted _) hlast
      exact hinv.shown _ _ hlast

theorem Invariant.follows {s : AccessSystem} (hinv : Invariant s) : AccessFollows s := by
  refine ⟨?_, fun request hmem => hinv.shows_latest hmem, ?_⟩
  · intro request hadmitted hlatest hended
    obtain ⟨task, htask, hcarries⟩ := hinv.tracked.carried request hadmitted
    have hend := List.all_eq_true.mp (hended request hadmitted rfl) task htask
    rcases hinv.accounted request hadmitted task htask hcarries.taskId with
      hopen | ⟨_, happlied⟩ | ⟨_, other, hother, hchat, hlater⟩
    · unfold isOpen at hopen
      simp [hcarries.taskId] at hend hopen
      rcases hopen with hpending | hleased
      · exact absurd hpending hend.1
      · exact absurd hleased hend.2
    · refine hinv.shows_latest happlied ?_
      exact fun other hother => hlatest other (hinv.recorded other hother)
    · -- a cancelled request has a later one, so it is not the latest
      have hearlier := hlatest other (hinv.recorded other hother) hchat (by
        rintro rfl
        exact lt_irrefl _ hlater)
      omega
  · intro request hadmitted task htask hid hcancelled
    rcases hinv.accounted request hadmitted task htask hid with
      hopen | ⟨hsucceeded, _⟩ | ⟨_, hlater⟩
    · unfold isOpen at hopen
      rw [hcancelled] at hopen
      cases hopen
    · rw [hcancelled] at hsucceeded
      cases hsucceeded
    · exact hlater

/-! ### The steps -/

section Steps

variable {s : AccessSystem}

theorem Tracked.moved {tasks after : List TaskRow} {admitted : List BotRequest}
    (htracked : Tracked tasks admitted) (hmoved : List.Forall₂ SameWork tasks after) :
    Tracked after admitted := by
  have hids : after.map TaskRow.taskId = tasks.map TaskRow.taskId :=
    Table.Forall₂.map_eq (fun _ _ h => h.taskId.symm) hmoved
  refine ⟨by rw [hids]; exact htracked.unique, htracked.distinct, ?_, ?_⟩
  · intro request hrequest
    obtain ⟨task, htask, hcarries⟩ := htracked.carried request hrequest
    obtain ⟨row, hrow, hsame⟩ := Table.Forall₂.of_mem_left hmoved htask
    exact ⟨row, hrow, hsame.taskId.trans hcarries.taskId,
      hsame.commandType.trans hcarries.commandType, hsame.payload.trans hcarries.payload⟩
  · intro row hrow kind hkind
    obtain ⟨task, htask, hsame⟩ := Table.Forall₂.of_mem_right hmoved hrow
    obtain ⟨request, hrequest, hid⟩ :=
      htracked.owned task htask kind (hsame.commandType.symm.trans hkind)
    exact ⟨request, hrequest, hid.trans hsame.taskId.symm⟩

theorem Performs.moved {execution : AccessExecution} {task : TaskRow} {tasks after : List TaskRow}
    (hperforms : Performs execution task) (hmoved : List.Forall₂ SameWork tasks after)
    (htask : task ∈ tasks) : ∃ row ∈ after, Performs execution row := by
  obtain ⟨row, hrow, hsame⟩ := Table.Forall₂.of_mem_left hmoved htask
  exact ⟨row, hrow, hperforms.worker, hperforms.taskId.trans hsame.taskId.symm,
    hperforms.commandType.trans hsame.commandType.symm, hperforms.payload.trans hsame.payload.symm⟩

/-- Tasks that move and stay accounted for, under a database that keeps the access rows. -/
theorem Invariant.moveTasks (hinv : Invariant s) {db : MirrorDatabase}
    (hmoved : List.Forall₂ SameWork s.db.runtime.tasks db.runtime.tasks)
    (haccounted : ∀ request ∈ s.admitted, ∀ task ∈ db.runtime.tasks,
      task.taskId = request.taskId → Accounted s.applied request task)
    (hshown : ∀ request, shows s.db request = true → shows db request = true) :
    Invariant { s with db } := by
  refine ⟨hinv.tracked.moved hmoved, haccounted, ?_, hinv.served, hinv.recorded, hinv.sorted, ?_⟩
  · intro execution hexecution
    obtain ⟨task, htask, hperforms⟩ := hinv.leased execution hexecution
    exact hperforms.moved hmoved htask
  · exact fun chat request hlast => hshown request (hinv.shown chat request hlast)

theorem Accounted.requeued {applied : List BotRequest} {request : BotRequest} {old row : TaskRow}
    (haccounted : Accounted applied request old) (hmoved : Requeued old row) :
    Accounted applied request row := by
  rcases hmoved.state with hsame | ⟨_, hopen⟩
  · unfold Accounted isOpen at haccounted ⊢
    rwa [hsame]
  · exact .inl hopen

theorem Invariant.requeue (hinv : Invariant s) {runtime : Database}
    (hmoved : List.Forall₂ Requeued s.db.runtime.tasks runtime.tasks) :
    Invariant { s with db := { s.db with runtime } } := by
  refine hinv.moveTasks (hmoved.imp fun _ _ h => h.toSameWork) ?_ fun _ hshown => hshown
  intro request hrequest row hrow hid
  obtain ⟨task, htask, hrequeued⟩ := Table.Forall₂.of_mem_right hmoved hrow
  have hold := hinv.accounted request hrequest task htask (hrequeued.taskId.symm.trans hid)
  exact hold.requeued hrequeued

/-- Fewer executions. -/
theorem Invariant.drop (hinv : Invariant s) {executions : List AccessExecution}
    (hsub : executions ⊆ s.executions) : Invariant { s with executions } :=
  ⟨hinv.tracked, hinv.accounted, fun execution hexecution => hinv.leased execution (hsub hexecution),
    fun execution hexecution => hinv.served execution (hsub hexecution), hinv.recorded, hinv.sorted,
    hinv.shown⟩

theorem Invariant.setPhase (hinv : Invariant s) {i : Nat} {execution : AccessExecution}
    (hi : s.executions[i]? = some execution) {phase : AccessPhase}
    (hserves : Serves s.admitted s.applied { execution with phase }) :
    Invariant (s.setPhase i execution phase) := by
  have hmem : execution ∈ s.executions := List.mem_of_getElem? hi
  refine ⟨hinv.tracked, hinv.accounted, ?_, ?_, hinv.recorded, hinv.sorted, hinv.shown⟩
  · intro other hother
    rcases List.mem_or_eq_of_mem_set hother with hold | rfl
    · exact hinv.leased other hold
    · obtain ⟨task, htask, hperforms⟩ := hinv.leased execution hmem
      exact ⟨task, htask, hperforms.worker, hperforms.taskId, hperforms.commandType,
        hperforms.payload⟩
  · intro other hother
    rcases List.mem_or_eq_of_mem_set hother with hold | rfl
    · exact hinv.served other hold
    · exact hserves

/-! ### Admissions -/

/-- The admission of an event of this kind. -/
structure Asks (kind : BotEventKind) (admission : Admission) : Prop where
  commandType : admission.command.commandType = kind.commandType
  payload : admission.command.payload = chatPayload
    ⟨admission.event.tenantKey, admission.event.appId, admission.event.resourceId⟩

theorem handleBotAdded_asks {service : BotAddedAdmissionService} {event : BotAddedEvent}
    {inputs : AdmissionInputs} {admission : Admission}
    (hok : service.handleBotAdded event inputs = .ok admission) : Asks .added admission := by
  obtain ⟨eventId, _, hok⟩ := PyError.bind_eq_ok.mp hok
  obtain ⟨tenantKey, _, hok⟩ := PyError.bind_eq_ok.mp hok
  obtain ⟨chatId, _, hok⟩ := PyError.bind_eq_ok.mp hok
  obtain ⟨occurredAtMs, _, hok⟩ := PyError.bind_eq_ok.mp hok
  cases hok
  exact ⟨rfl, rfl⟩

theorem handleBotRemoved_asks {service : IMLifecycleAdmissionService} {raw : List (String × Json)}
    {inputs : AdmissionInputs} {admission : Admission}
    (hok : service.handleBotRemoved raw inputs = .ok admission) : Asks .removed admission := by
  obtain ⟨⟨header, event⟩, _, hok⟩ := PyError.bind_eq_ok.mp hok
  obtain ⟨chatId, _, hok⟩ := PyError.bind_eq_ok.mp hok
  obtain ⟨_, _, hok⟩ := PyError.bind_eq_ok.mp hok
  obtain ⟨tenantKey, _, hok⟩ := PyError.bind_eq_ok.mp hok
  obtain ⟨occurredAtMs, _, hok⟩ := PyError.bind_eq_ok.mp hok
  obtain ⟨eventId, _, hok⟩ := PyError.bind_eq_ok.mp hok
  cases hok
  exact ⟨rfl, rfl⟩

theorem Serves.grown {admitted applied requests : List BotRequest} {execution : AccessExecution}
    (hserves : Serves admitted applied execution)
    (hnever : ∀ request ∈ requests, request.taskId ≠ execution.task.taskId) :
    Serves (admitted ++ requests) applied execution := by
  have hgrown : (∃ request ∈ admitted, request.taskId = execution.task.taskId) →
      ∃ request ∈ admitted ++ requests, request.taskId = execution.task.taskId := by
    rintro ⟨request, hrequest, hid⟩
    exact ⟨request, List.mem_append_left _ hrequest, hid⟩
  unfold Serves at hserves ⊢
  split
  · rename_i hphase
    rw [hphase] at hserves
    exact hgrown hserves
  · rename_i hphase
    rw [hphase] at hserves
    exact hgrown hserves
  · rename_i hphase
    rw [hphase] at hserves
    intro request hrequest
    exact (List.mem_append.mp hrequest).elim (hserves request) (hnever request)
  · trivial
  · rename_i result hphase
    rw [hphase] at hserves
    intro request hrequest hid
    rcases List.mem_append.mp hrequest with hold | hnew
    · exact hserves request hold hid
    · exact absurd hid (hnever request hnew)

/-- One more task, with its request if it is of one of the two commands. -/
theorem Invariant.grown (hinv : Invariant s) {db : MirrorDatabase} {row : TaskRow}
    {requests : List BotRequest} (htasks : db.runtime.tasks = s.db.runtime.tasks ++ [row])
    (hfresh : ∀ task ∈ s.db.runtime.tasks, task.taskId ≠ row.taskId) (hpending : row.state = .pending)
    (hcarries : ∀ request ∈ requests, Carries request row)
    (hone : (requests.map BotRequest.taskId).Nodup)
    (hasked : ∀ kind : BotEventKind, row.commandType = kind.commandType →
      ∃ request ∈ requests, request.taskId = row.taskId)
    (hshown : ∀ request, shows s.db request = true → shows db request = true) :
    Invariant { s with db, admitted := s.admitted ++ requests } := by
  have hnever : ∀ request ∈ requests, ∀ task ∈ s.db.runtime.tasks,
      task.taskId ≠ request.taskId := by
    intro request hrequest task htask hid
    exact hfresh task htask (hid.trans (hcarries request hrequest).taskId.symm)
  have hdistinct : ∀ other ∈ s.admitted, ∀ request ∈ requests, other.taskId ≠ request.taskId := by
    intro other hother request hrequest hid
    obtain ⟨task, htask, hcarried⟩ := hinv.tracked.carried other hother
    exact hnever request hrequest task htask (hcarried.taskId.trans hid)
  refine ⟨⟨?_, ?_, ?_, ?_⟩, ?_, ?_, ?_, ?_, hinv.sorted,
    fun chat request hlast => hshown request (hinv.shown chat request hlast)⟩
  · rw [htasks]
    exact uniqueTasks_concat hinv.tracked.unique hfresh
  · rw [List.map_append, List.nodup_append]
    refine ⟨hinv.tracked.distinct, hone, ?_⟩
    intro id hid otherId hotherId
    obtain ⟨other, hother, rfl⟩ := List.mem_map.mp hid
    obtain ⟨request, hrequest, rfl⟩ := List.mem_map.mp hotherId
    exact hdistinct other hother request hrequest
  · intro request hrequest
    rw [htasks]
    rcases List.mem_append.mp hrequest with hold | hnew
    · obtain ⟨task, htask, hcarried⟩ := hinv.tracked.carried request hold
      exact ⟨task, List.mem_append_left _ htask, hcarried⟩
    · exact ⟨row, List.mem_append_right _ List.mem_cons_self, hcarries request hnew⟩
  · intro task htask kind hkind
    rw [htasks] at htask
    rcases List.mem_append.mp htask with hold | hnew
    · obtain ⟨request, hrequest, hid⟩ := hinv.tracked.owned task hold kind hkind
      exact ⟨request, List.mem_append_left _ hrequest, hid⟩
    · obtain rfl := List.mem_singleton.mp hnew
      obtain ⟨request, hrequest, hid⟩ := hasked kind hkind
      exact ⟨request, List.mem_append_right _ hrequest, hid⟩
  · intro request hrequest task htask hid
    change task ∈ db.runtime.tasks at htask
    rw [htasks] at htask
    rcases List.mem_append.mp htask with hold | hnew
    · rcases List.mem_append.mp hrequest with hknown | hasks
      · exact hinv.accounted request hknown task hold hid
      · exact absurd hid (hnever request hasks task hold)
    · obtain rfl := List.mem_singleton.mp hnew
      left
      unfold isOpen
      rw [hpending]
      rfl
  · intro execution hexecution
    obtain ⟨task, htask, hperforms⟩ := hinv.leased execution hexecution
    exact ⟨task, htasks ▸ List.mem_append_left _ htask, hperforms⟩
  · intro execution hexecution
    obtain ⟨task, htask, hperforms⟩ := hinv.leased execution hexecution
    refine (hinv.served execution hexecution).grown fun request hrequest hsame => ?_
    exact hnever request hrequest task htask (hperforms.taskId.symm.trans hsame.symm)
  · exact fun request happlied => List.mem_append_left _ (hinv.recorded request happlied)

theorem Invariant.admitRequest (hinv : Invariant s) {kind : BotEventKind} {inputs : AdmissionInputs}
    {answer : Except PyError Admission} (hasks : ∀ admission, answer = .ok admission →
      Asks kind admission) : Invariant (s.admitRequest kind inputs answer) := by
  cases answer with
  | error e => exact hinv
  | ok admission =>
      obtain ⟨event, command⟩ := admission
      have hask := hasks _ rfl
      unfold AccessSystem.admitRequest
      dsimp only
      split
      · exact hinv
      · rename_i result runtime hok
        rcases admitEvent_result hok with ⟨hcreated, rfl⟩ | ⟨rfl, hfresh, eventPk, htasks⟩
        · rw [hcreated, if_neg Bool.false_ne_true, List.append_nil]
          exact hinv
        · refine hinv.grown htasks hfresh rfl ?_ (List.nodup_singleton _)
            (fun _ _ => ⟨_, List.mem_cons_self, rfl⟩) fun _ h => h
          intro request hrequest
          obtain rfl := List.mem_singleton.mp hrequest
          exact ⟨rfl, hask.commandType, hask.payload⟩

theorem Invariant.other (hinv : Invariant s) {op : MirrorOp} (hother : isOther op = true) :
    Invariant { s with db := op.apply s.db } := by
  have hshown (request : BotRequest) : shows s.db request = true →
      shows (op.apply s.db) request = true := shows_other hother
  have hsame (htasks : (op.apply s.db).runtime.tasks = s.db.runtime.tasks) :
      Invariant { s with db := op.apply s.db } := by
    refine hinv.moveTasks ?_ ?_ hshown
    · rw [htasks]
      exact List.forall₂_same.mpr fun _ _ => ⟨rfl, rfl, rfl⟩
    · rw [htasks]
      exact hinv.accounted
  cases op with
  | revoke | restore => cases hother
  | message write => exact hsame (tasks_message write s.db)
  | recordBlob args =>
      obtain ⟨fileBlobs, attachments, hafter⟩ := recordBlob_frame args s.db
      exact hsame (by rw [hafter])
  | recordParse args =>
      obtain ⟨attachments, hafter⟩ := recordParse_frame args s.db
      exact hsame (by rw [hafter])
  | runtime op =>
      rcases tasks_foreign hother s.db.runtime with
        htasks | ⟨row, htasks, hfresh, hpending, hforeign⟩
      · exact hsame htasks
      · have hnone : Invariant { s with
            db := (MirrorOp.runtime op).apply s.db, admitted := s.admitted ++ [] } :=
          hinv.grown htasks hfresh hpending (fun _ hmem => absurd hmem List.not_mem_nil)
            List.nodup_nil (fun kind hkind => absurd hkind (hforeign kind)) hshown
        rwa [List.append_nil] at hnone

/-! ### Executions -/

theorem Tracked.carries {tasks : List TaskRow} {admitted : List BotRequest}
    (htracked : Tracked tasks admitted) {request : BotRequest} (hrequest : request ∈ admitted)
    {task : TaskRow} (htask : task ∈ tasks) (hid : task.taskId = request.taskId) :
    Carries request task := by
  obtain ⟨other, hother, hcarries⟩ := htracked.carried request hrequest
  rwa [List.inj_on_of_nodup_map htracked.unique htask hother (hid.trans hcarries.taskId.symm)]

theorem serves_start {tasks : List TaskRow} {admitted applied : List BotRequest}
    (htracked : Tracked tasks admitted) {worker : DurableTaskWorker} {nowMs : Int}
    {task : LeasedTask} {row : TaskRow} (hrow : row ∈ tasks)
    (hperforms : Performs (AccessExecution.start worker nowMs task) row) :
    Serves admitted applied (AccessExecution.start worker nowMs task) := by
  have hid : task.taskId = row.taskId := hperforms.taskId
  have hcommand : task.commandType = row.commandType := hperforms.commandType
  have hserved (kind : BotEventKind) (hkind : task.commandType = kind.commandType) :
      ∃ request ∈ admitted, request.taskId = task.taskId := by
    obtain ⟨request, hrequest, hsame⟩ := htracked.owned row hrow kind (hcommand.symm.trans hkind)
    exact ⟨request, hrequest, hsame.trans hid.symm⟩
  unfold Serves AccessExecution.start
  dsimp only
  cases task.recoveryErrorCode with
  | some code => trivial
  | none =>
      dsimp only
      by_cases hadded : task.commandType = "im.ensure_owner_membership"
      · rw [if_pos hadded]
        cases MembershipTaskHandler.chatId task with
        | error e => trivial
        | ok chatId => exact hserved .added hadded
      · rw [if_neg hadded]
        by_cases hremoved : task.commandType = "im.revoke_chat_access"
        · rw [if_pos hremoved]
          cases IMLifecycleTaskHandler.chat task with
          | error e => trivial
          | ok chat => exact hserved .removed hremoved
        · rw [if_neg hremoved]
          intro request hrequest hsame
          have hcarries := htracked.carries hrequest hrow (hid.symm.trans hsame.symm)
          have hkind := hcommand.trans hcarries.commandType
          cases hrequested : request.kind with
          | added => exact hadded (by rw [hkind, hrequested]; rfl)
          | removed => exact hremoved (by rw [hkind, hrequested]; rfl)

theorem Invariant.run (hinv : Invariant s) {gateway : GatewayWorker} {nowMs : Int}
    {concurrency : Nat} {limits : Option TaskConcurrencyLimits} {leased : List LeasedTask}
    {runtime : Database} (hok : leaseTasks (leaseArgs gateway.tasks nowMs concurrency) limits
      s.db.runtime = .ok (leased, runtime)) :
    Invariant { s with
      db := { s.db with runtime }
      executions := s.executions ++ leased.map (AccessExecution.start gateway.tasks nowMs) } := by
  obtain ⟨hmoved, hrows⟩ := leaseTasks_requeued hinv.tracked.unique hok
  have hmiddle := hinv.requeue hmoved
  have hstarted : ∀ execution ∈ leased.map (AccessExecution.start gateway.tasks nowMs),
      (∃ task ∈ runtime.tasks, Performs execution task) ∧
        Serves s.admitted s.applied execution := by
    intro execution hexecution
    obtain ⟨task, htask, rfl⟩ := List.mem_map.mp hexecution
    obtain ⟨row, hrow, hid, hcommand, hpayload⟩ := hrows task htask
    have hperforms : Performs (AccessExecution.start gateway.tasks nowMs task) row :=
      ⟨⟨gateway, rfl⟩, hid, hcommand, hpayload⟩
    exact ⟨⟨row, hrow, hperforms⟩, serves_start hmiddle.tracked hrow hperforms⟩
  refine ⟨hmiddle.tracked, hmiddle.accounted, ?_, ?_, hmiddle.recorded, hmiddle.sorted,
    hmiddle.shown⟩
  · intro execution hexecution
    rcases List.mem_append.mp hexecution with hold | hnew
    · exact hmiddle.leased execution hold
    · exact (hstarted execution hnew).1
  · intro execution hexecution
    rcases List.mem_append.mp hexecution with hold | hnew
    · exact hmiddle.served execution hold
    · exact (hstarted execution hnew).2

/-- A task of one of the two commands succeeds through its handler only. -/
theorem settlement_succeeded {gateway : GatewayWorker} {task : LeasedTask} {kind : BotEventKind}
    (hkind : task.commandType = kind.commandType) {answer : Except PyError TaskExecutionResult}
    {result : TaskExecutionResult}
    (hsettlement : gateway.tasks.settlement task answer = .finish result)
    (hsucceeded : result.state = .succeeded) : answer = .ok result := by
  have hfailure (e : PyError) : gateway.tasks.failure task e = .ok (failedWith e) := by
    unfold DurableTaskWorker.failure DurableTaskWorker.handlerFor
    rw [hkind]
    cases kind <;> rfl
  have hsettles (e : PyError) : gateway.tasks.settleError task e ≠ .finish result := by
    unfold DurableTaskWorker.settleError
    rw [hfailure e]
    split
    · exact fun h => by cases h
    · split
      · exact fun h => by cases h
      · intro h
        cases h
        cases hsucceeded
  have hattempt : gateway.tasks.attempt task answer = answer ∨
      ∃ e, gateway.tasks.attempt task answer = .error e := by
    unfold DurableTaskWorker.attempt
    split
    · exact .inr ⟨_, rfl⟩
    · exact .inr ⟨_, rfl⟩
    · exact .inl rfl
  unfold DurableTaskWorker.settlement at hsettlement
  split at hsettlement
  · rename_i attempted hattempted
    cases hsettlement
    rcases hattempt with hanswer | ⟨e, herror⟩
    · exact hanswer.symm.trans hattempted
    · rw [herror] at hattempted
      cases hattempted
  · cases hsettlement
  · exact absurd hsettlement (hsettles _)

theorem Invariant.requested (hinv : Invariant s) {request : BotRequest}
    (hrequest : request ∈ s.admitted) : s.requested request.taskId = some request :=
  (Table.find?_key_iff hinv.tracked.distinct).mpr ⟨hrequest, rfl⟩

/-- An owned row that is requeued. -/
theorem update_requeued {taskId workerId : String} {change : TaskRow → TaskRow}
    (hwork : ∀ task, SameWork task (change task)) (hopen : ∀ task, isOpen (change task) = true)
    (tasks : List TaskRow) :
    List.Forall₂ Requeued tasks (Table.update (ownedBy taskId workerId) change tasks) := by
  refine Table.forall₂_update ?_ fun task _ _ => .refl task
  intro task _ howned
  refine ⟨hwork task, .inr ⟨?_, hopen task⟩⟩
  simp only [ownedBy, Bool.and_eq_true, decide_eq_true_eq] at howned
  unfold isOpen
  rw [howned.1.2]
  rfl

theorem Invariant.settle (hinv : Invariant s) {execution : AccessExecution}
    (hmem : execution ∈ s.executions) {answer : Except PyError TaskExecutionResult}
    (hphase : execution.phase = .answered answer) (nowMs : Int) (outboxId : String)
    (hends : (s.requested execution.task.taskId).isNone = true ∨
      ∀ result, execution.worker.settlement execution.task answer = .finish result →
        result.state = .succeeded) :
    Invariant { s with
      db := { s.db with
        runtime := (execution.worker.execute execution.task nowMs outboxId answer
          s.db.runtime).2 } } := by
  have heffect := settleEffect execution.toExecution answer nowMs outboxId s.db.runtime
  generalize (execution.worker.execute execution.task nowMs outboxId answer s.db.runtime).2 =
    runtime at heffect
  generalize deferrals execution.toExecution answer nowMs s.db.runtime = events at heffect
  cases heffect with
  | rolledBack => exact hinv
  | retried e availableAtMs hsettlement =>
      refine hinv.requeue (update_requeued ?_ ?_ s.db.runtime.tasks)
      · exact fun _ => ⟨rfl, rfl, rfl⟩
      · exact fun _ => rfl
  | deferred delayMs reason availableAtMs hsettlement howned =>
      refine hinv.requeue (update_requeued ?_ ?_ s.db.runtime.tasks)
      · exact fun _ => ⟨rfl, rfl, rfl⟩
      · exact fun _ => rfl
  | finished result hsettlement hok =>
      obtain ⟨_, _, hafter⟩ := finishTask_ok hok
      have htasks := congrArg Database.tasks hafter
      refine hinv.moveTasks ?_ ?_ fun _ hshown => hshown
      · change List.Forall₂ SameWork s.db.runtime.tasks runtime.tasks
        rw [htasks]
        exact Table.forall₂_update (fun _ _ _ => ⟨rfl, rfl, rfl⟩) fun _ _ _ => ⟨rfl, rfl, rfl⟩
      · intro request hrequest task htask hid
        change task ∈ runtime.tasks at htask
        rw [htasks] at htask
        rcases Table.mem_update_cases htask with ⟨hold, _⟩ | ⟨old, hold, howned, rfl⟩
        · exact hinv.accounted request hrequest task hold hid
        · simp only [ownedBy, Bool.and_eq_true, decide_eq_true_eq] at howned
          have hsame : request.taskId = execution.task.taskId := hid.symm.trans howned.1.1
          have hsucceeded : result.state = .succeeded := by
            rcases hends with hnone | hfinished
            · rw [← hsame, hinv.requested hrequest] at hnone
              cases hnone
            · exact hfinished result hsettlement
          obtain ⟨row, hrow, hperforms⟩ := hinv.leased execution hmem
          obtain ⟨gateway, hworker⟩ := hperforms.worker
          have hcarries := hinv.tracked.carries hrequest hrow
            (hperforms.taskId.symm.trans hsame.symm)
          have hanswer : answer = .ok result := by
            rw [hworker] at hsettlement
            exact settlement_succeeded (hperforms.commandType.trans hcarries.commandType)
              hsettlement hsucceeded
          have hserves := hinv.served execution hmem
          unfold Serves at hserves
          rw [hphase, hanswer] at hserves
          exact .inr (.inl ⟨hsucceeded, (hserves request hrequest hsame).2⟩)

/-! ### The writes -/

/-- The transaction of a request. -/
def accessOp (kind : BotEventKind) (chat : ChatKey) (nowMs : Int) : MirrorOp :=
  match kind with
  | .added => .restore chat nowMs
  | .removed => .revoke chat nowMs

theorem membershipChat_eq {task : LeasedTask} {chat key : ChatKey}
    (hpayload : task.payload = chatPayload chat)
    (hok : MembershipTaskHandler.chat task = .ok key) : key = chat := by
  obtain ⟨chatId, hchatId, hok⟩ := PyError.bind_eq_ok.mp hok
  unfold MembershipTaskHandler.chatId at hchatId
  rw [hpayload] at hchatId hok
  have hchat : chatId = chat.chatId := by
    change (if chat.chatId = "" then _ else _) = _ at hchatId
    split at hchatId
    · cases hchatId
    · exact (Except.ok.inj hchatId).symm
  rw [hchat] at hok
  exact (Except.ok.inj hok).symm

theorem lifecycleField_eq {task : LeasedTask} {name value expected : String}
    (hfield : Json.field? task.payload name = some (.str expected))
    (hok : IMLifecycleTaskHandler.field task name = .ok value) : value = expected := by
  unfold IMLifecycleTaskHandler.field at hok
  rw [hfield] at hok
  dsimp only at hok
  split at hok
  · cases hok
  · exact (Except.ok.inj hok).symm

theorem lifecycleChat_eq {task : LeasedTask} {chat key : ChatKey}
    (hpayload : task.payload = chatPayload chat)
    (hok : IMLifecycleTaskHandler.chat task = .ok key) : key = chat := by
  obtain ⟨tenantKey, htenant, hok⟩ := PyError.bind_eq_ok.mp hok
  obtain ⟨appId, happ, hok⟩ := PyError.bind_eq_ok.mp hok
  obtain ⟨chatId, hchat, hok⟩ := PyError.bind_eq_ok.mp hok
  obtain rfl := lifecycleField_eq (by rw [hpayload]; rfl) htenant
  obtain rfl := lifecycleField_eq (by rw [hpayload]; rfl) happ
  obtain rfl := lifecycleField_eq (by rw [hpayload]; rfl) hchat
  exact (Except.ok.inj hok).symm

theorem op_eq {execution : AccessExecution} {request : BotRequest} {op : MirrorOp}
    (hcommand : execution.task.commandType = request.kind.commandType)
    (hpayload : execution.task.payload = chatPayload request.chat)
    (hok : execution.op = .ok op) : op = accessOp request.kind request.chat execution.nowMs := by
  unfold AccessExecution.op at hok
  rw [hcommand] at hok
  cases hkind : request.kind with
  | added =>
      rw [hkind] at hok
      change (MembershipTaskHandler.chat execution.task).map _ = _ at hok
      cases hchat : MembershipTaskHandler.chat execution.task with
      | error e =>
          rw [hchat] at hok
          cases hok
      | ok chat =>
          rw [hchat, membershipChat_eq hpayload hchat] at hok
          exact (Except.ok.inj hok).symm
  | removed =>
      rw [hkind] at hok
      change (IMLifecycleTaskHandler.chat execution.task).map _ = _ at hok
      cases hchat : IMLifecycleTaskHandler.chat execution.task with
      | error e =>
          rw [hchat] at hok
          cases hok
      | ok chat =>
          rw [hchat, lifecycleChat_eq hpayload hchat] at hok
          exact (Except.ok.inj hok).symm

theorem find?_accessOp (kind : BotEventKind) (chat : ChatKey) (nowMs : Int) (db : MirrorDatabase)
    (key : ChatKey) : ∃ row change,
      (∀ other : ChatRow, (change other).enabled = kind.enabled ∧
        (change other).accessState = kind.accessState) ∧
      row.enabled = kind.enabled ∧ row.accessState = kind.accessState ∧
      findChat ((accessOp kind chat nowMs).apply db) key =
        if key = chat then some (((findChat db key).map change).getD row) else findChat db key := by
  cases kind with
  | added =>
      refine ⟨{ key := chat, chatMode := "unknown", enabled := true, botMemberState := .present,
                accessState := .visible, lastReconciledAtMs := nowMs },
        fun row => { row with
          enabled := true, botMemberState := .present, accessState := .visible
          lastReconciledAtMs := nowMs, purgeAfterMs := none },
        fun _ => ⟨rfl, rfl⟩, rfl, rfl, ?_⟩
      refine Table.find?_put _ ?_ key
      exact fun _ => rfl
  | removed =>
      refine ⟨{ key := chat, chatMode := "unknown", enabled := false, botMemberState := .removed,
                accessState := .revoked, lastReconciledAtMs := nowMs, purgeAfterMs := some nowMs },
        fun row => { row with
          enabled := false, botMemberState := .removed, accessState := .revoked
          lastReconciledAtMs := nowMs, purgeAfterMs := some nowMs },
        fun _ => ⟨rfl, rfl⟩, rfl, rfl, ?_⟩
      refine Table.find?_put _ ?_ key
      exact fun _ => rfl

theorem shows_accessOp (request : BotRequest) (nowMs : Int) (db : MirrorDatabase) :
    shows ((accessOp request.kind request.chat nowMs).apply db) request = true := by
  obtain ⟨row, change, hchange, henabled, hstate, hfind⟩ :=
    find?_accessOp request.kind request.chat nowMs db request.chat
  unfold shows
  rw [hfind, if_pos rfl]
  cases findChat db request.chat with
  | none => simp [henabled, hstate]
  | some stored => simp [hchange stored]

theorem shows_accessOp_other {kind : BotEventKind} {chat : ChatKey} {nowMs : Int}
    {db : MirrorDatabase} {other : BotRequest} (hchat : other.chat ≠ chat)
    (hshown : shows db other = true) :
    shows ((accessOp kind chat nowMs).apply db) other = true := by
  obtain ⟨row, change, _, _, _, hfind⟩ := find?_accessOp kind chat nowMs db other.chat
  unfold shows at hshown ⊢
  rwa [hfind, if_neg hchat]

/-- What the transaction does to a task. -/
inductive Rewritten (kind : BotEventKind) (chat : ChatKey) (old : TaskRow) : TaskRow → Prop
  | same : Rewritten kind chat old old
  | cancelled {row : TaskRow} (hkind : kind = .removed) (hcancelled : isCancelled chat old = true)
      (hwork : SameWork old row) (hstate : row.state = .cancelled) : Rewritten kind chat old row

theorem Rewritten.work {kind : BotEventKind} {chat : ChatKey} {old row : TaskRow}
    (h : Rewritten kind chat old row) : SameWork old row := by
  cases h with
  | same => exact ⟨rfl, rfl, rfl⟩
  | cancelled _ _ hwork _ => exact hwork

theorem tasks_accessOp (kind : BotEventKind) (chat : ChatKey) (nowMs : Int) (db : MirrorDatabase) :
    List.Forall₂ (Rewritten kind chat) db.runtime.tasks
      ((accessOp kind chat nowMs).apply db).runtime.tasks := by
  cases kind with
  | added => exact List.forall₂_same.mpr fun _ _ => .same
  | removed =>
      have hupdate : List.Forall₂ (Rewritten .removed chat) db.runtime.tasks
          (Table.update (isCancelled chat)
            (fun task => { task with state := .cancelled, updatedAtMs := nowMs })
            db.runtime.tasks) :=
        Table.forall₂_update (fun _ _ hcancelled => .cancelled rfl hcancelled ⟨rfl, rfl, rfl⟩ rfl)
          fun _ _ _ => .same
      exact hupdate

/-! ### A write that is in order -/

theorem Accounted.mono {applied later : List BotRequest} {request : BotRequest} {task : TaskRow}
    (haccounted : Accounted applied request task) (hsub : applied ⊆ later) :
    Accounted later request task := by
  rcases haccounted with hopen | ⟨hsucceeded, happlied⟩ | ⟨hcancelled, other, hother, hrest⟩
  · exact .inl hopen
  · exact .inr (.inl ⟨hsucceeded, hsub happlied⟩)
  · exact .inr (.inr ⟨hcancelled, other, hsub hother, hrest⟩)

theorem Serves.mono {admitted applied later : List BotRequest} {execution : AccessExecution}
    (hserves : Serves admitted applied execution) (hsub : applied ⊆ later) :
    Serves admitted later execution := by
  unfold Serves at hserves ⊢
  split
  · rename_i hphase
    rwa [hphase] at hserves
  · rename_i hphase
    rwa [hphase] at hserves
  · rename_i hphase
    rwa [hphase] at hserves
  · trivial
  · rename_i result hphase
    rw [hphase] at hserves
    intro request hrequest hid
    obtain ⟨hsucceeded, happlied⟩ := hserves request hrequest hid
    exact ⟨hsucceeded, hsub happlied⟩

theorem ofChat_append (applied : List BotRequest) (request : BotRequest) (chat : ChatKey) :
    ofChat (applied ++ [request]) chat =
      ofChat applied chat ++ if request.chat = chat then [request] else [] := by
  unfold ofChat
  rw [List.filter_append, List.filter_singleton]
  by_cases hchat : request.chat = chat
  · simp [hchat]
  · simp [hchat]

/-- A task that an in-order revocation cancels is that of an earlier request for the chat. -/
theorem cancelled_older (hinv : Invariant s) {request other : BotRequest} {task : TaskRow}
    (hcancels : s.cancelsOlder request = true) (hkind : request.kind = .removed)
    (htask : task ∈ s.db.runtime.tasks) (hcancelled : isCancelled request.chat task = true)
    (hother : other ∈ s.admitted) (hid : task.taskId = other.taskId) :
    other.chat = request.chat ∧ other.occurredAtMs < request.occurredAtMs := by
  unfold cancelsOlder at hcancels
  rw [hkind] at hcancels
  have holder := List.all_eq_true.mp hcancels task htask
  rw [hcancelled, hid, hinv.requested hother] at holder
  simpa using holder

theorem Invariant.write (hinv : Invariant s) {i : Nat} {execution : AccessExecution}
    (hi : s.executions[i]? = some execution) {op : MirrorOp} (hop : execution.op = .ok op)
    (after : Except PyError Unit) {request : BotRequest}
    (hrequested : s.requested execution.task.taskId = some request)
    (hnewest : ∀ other ∈ s.applied, other.chat = request.chat →
      other.occurredAtMs ≤ request.occurredAtMs)
    (hcancels : s.cancelsOlder request = true) :
    Invariant { s.setPhase i execution (.answered (after.map fun _ => succeeded)) with
      db := op.apply s.db, applied := s.applied ++ [request] } := by
  have hmem : execution ∈ s.executions := List.mem_of_getElem? hi
  obtain ⟨hrequest, hid⟩ := (Table.find?_key_iff hinv.tracked.distinct).mp hrequested
  obtain ⟨row, hrow, hperforms⟩ := hinv.leased execution hmem
  have hcarries := hinv.tracked.carries hrequest hrow (hperforms.taskId.symm.trans hid.symm)
  obtain rfl := op_eq (hperforms.commandType.trans hcarries.commandType)
    (hperforms.payload.trans hcarries.payload) hop
  have hsub : s.applied ⊆ s.applied ++ [request] := List.subset_append_left _ _
  have hself : request ∈ s.applied ++ [request] := List.mem_append_right _ List.mem_cons_self
  have hrewritten := tasks_accessOp request.kind request.chat execution.nowMs s.db
  have hmoved := hrewritten.imp fun _ _ h => h.work
  refine ⟨hinv.tracked.moved hmoved, ?_, ?_, ?_, ?_, ?_, ?_⟩
  · intro other hother task htask hotherId
    obtain ⟨old, hold, hmove⟩ := Table.Forall₂.of_mem_right hrewritten htask
    have holdId : old.taskId = other.taskId := hmove.work.taskId.symm.trans hotherId
    cases hmove with
    | same => exact (hinv.accounted other hother task hold holdId).mono hsub
    | cancelled hkind hcancelled _ hstate =>
        obtain ⟨hchat, hlater⟩ := cancelled_older hinv hcancels hkind hold hcancelled hother holdId
        exact .inr (.inr ⟨hstate, request, hself, hchat.symm, hlater⟩)
  · intro other hother
    rcases List.mem_or_eq_of_mem_set hother with hold | rfl
    · obtain ⟨task, htask, hother⟩ := hinv.leased other hold
      exact hother.moved hmoved htask
    · exact Performs.moved ⟨hperforms.worker, hperforms.taskId, hperforms.commandType,
        hperforms.payload⟩ hmoved hrow
  · intro other hother
    rcases List.mem_or_eq_of_mem_set hother with hold | rfl
    · exact (hinv.served other hold).mono hsub
    · cases after with
      | error e => trivial
      | ok _ =>
          intro candidate hcandidate hsame
          have heq := hinv.requested hcandidate
          rw [hsame] at heq
          obtain rfl := Option.some.inj (hrequested.symm.trans heq)
          exact ⟨rfl, hself⟩
  · intro other hother
    rcases List.mem_append.mp hother with hold | hnew
    · exact hinv.recorded other hold
    · exact List.mem_singleton.mp hnew ▸ hrequest
  · intro chat
    dsimp only
    rw [ofChat_append]
    refine List.pairwise_append.mpr ⟨hinv.sorted chat, ?_, ?_⟩
    · split
      · exact List.pairwise_singleton _ _
      · exact List.Pairwise.nil
    · intro other hother last hlast
      split at hlast
      · rename_i hchat
        obtain rfl := List.mem_singleton.mp hlast
        have hin := List.mem_filter.mp hother
        exact hnewest other hin.1 ((by simpa using hin.2 : other.chat = chat).trans hchat.symm)
      · exact absurd hlast List.not_mem_nil
  · intro chat last hlast
    dsimp only at hlast ⊢
    rw [ofChat_append] at hlast
    split at hlast
    · rw [List.getLast?_concat] at hlast
      obtain rfl := Option.some.inj hlast
      exact shows_accessOp request execution.nowMs s.db
    · rename_i hchat
      rw [List.append_nil] at hlast
      have hin := List.mem_filter.mp (List.mem_of_getLast? hlast)
      have hlastChat : last.chat = chat := by simpa using hin.2
      refine shows_accessOp_other ?_ (hinv.shown chat last hlast)
      rw [hlastChat]
      exact fun h => hchat h.symm

theorem inOrder_write {i : Nat} {after : Except PyError Unit} {execution : AccessExecution}
    {request : BotRequest} (hguard : s.inOrder (.write i after) = true)
    (hi : s.executions[i]? = some execution)
    (hrequested : s.requested execution.task.taskId = some request) :
    (∀ other ∈ s.applied, other.chat = request.chat →
      other.occurredAtMs ≤ request.occurredAtMs) ∧ s.cancelsOlder request = true := by
  dsimp only [inOrder] at hguard
  rw [hi, Option.bind_some, hrequested] at hguard
  obtain ⟨hnewest, hcancels⟩ := Bool.and_eq_true_iff.mp hguard
  refine ⟨?_, hcancels⟩
  intro other hother hchat
  have hle := List.all_eq_true.mp hnewest other hother
  simpa [hchat] using hle

theorem inOrder_settle {i : Nat} {nowMs : Int} {outboxId : String} {execution : AccessExecution}
    {answer : Except PyError TaskExecutionResult}
    (hguard : s.inOrder (.settle i nowMs outboxId) = true)
    (hi : s.executions[i]? = some execution) (hphase : execution.phase = .answered answer) :
    (s.requested execution.task.taskId).isNone = true ∨
      ∀ result, execution.worker.settlement execution.task answer = .finish result →
        result.state = .succeeded := by
  dsimp only [inOrder] at hguard
  rw [hi, Option.all_some, hphase] at hguard
  rcases Bool.or_eq_true_iff.mp hguard with hnone | hfinished
  · exact .inl hnone
  · right
    intro result hsettlement
    dsimp only at hfinished
    rw [hsettlement] at hfinished
    exact of_decide_eq_true hfinished

theorem invariant_step {l : AccessLabel} {t : AccessSystem} (hinv : Invariant s)
    (hguard : s.inOrder l = true) (hstep : s.step l = some t) : Invariant t := by
  cases l with
  | botAdded service event inputs =>
      cases hstep
      exact hinv.admitRequest fun _ hok => handleBotAdded_asks hok
  | botRemoved service raw inputs =>
      cases hstep
      exact hinv.admitRequest fun _ hok => handleBotRemoved_asks hok
  | other op =>
      dsimp only [step] at hstep
      split at hstep
      · rename_i hother
        cases hstep
        exact hinv.other hother
      · cases hstep
  | runOnce gateway nowMs concurrency limits =>
      dsimp only [step] at hstep
      split at hstep
      · cases hstep
        exact hinv
      · rename_i hok
        cases hstep
        exact hinv.run hok
  | ensured i =>
      dsimp only [step] at hstep
      split at hstep
      · cases hstep
      · rename_i execution hi
        split at hstep
        · rename_i hphase
          cases hstep
          refine hinv.setPhase hi ?_
          have hserves := hinv.served execution (List.mem_of_getElem? hi)
          unfold Serves at hserves
          rw [hphase] at hserves
          unfold Serves AccessExecution.afterEnsured
          cases MembershipTaskHandler.chat execution.task with
          | error e => trivial
          | ok chat => exact hserves
        · cases hstep
  | write i after =>
      dsimp only [step] at hstep
      split at hstep
      · cases hstep
      · rename_i execution hi
        split at hstep
        · rename_i op hphase hop
          have hserves := hinv.served execution (List.mem_of_getElem? hi)
          unfold Serves at hserves
          rw [hphase] at hserves
          obtain ⟨request, hrequest, hid⟩ := hserves
          have hrequested := hinv.requested hrequest
          rw [hid] at hrequested
          obtain ⟨hnewest, hcancels⟩ := inOrder_write hguard hi hrequested
          cases hstep
          rw [hrequested]
          exact hinv.write hi hop after hrequested hnewest hcancels
        · cases hstep
  | answer i answer =>
      dsimp only [step] at hstep
      split at hstep
      · cases hstep
      · rename_i execution hi
        split at hstep
        · rename_i hphase
          cases hstep
          refine hinv.setPhase hi ?_
          have hserves := hinv.served execution (List.mem_of_getElem? hi)
          unfold Serves at hserves
          rw [hphase] at hserves
          cases answer with
          | error e => trivial
          | ok result => exact fun request hrequest hid => absurd hid (hserves request hrequest)
        · cases hstep
  | raised i e =>
      dsimp only [step] at hstep
      split at hstep
      · cases hstep
      · rename_i execution hi
        split at hstep
        · cases hstep
          exact hinv.setPhase hi trivial
        · cases hstep
          exact hinv.setPhase hi trivial
        · cases hstep
  | settle i nowMs outboxId =>
      dsimp only [step] at hstep
      split at hstep
      · cases hstep
      · rename_i execution hi
        split at hstep
        · rename_i answer hphase
          cases hstep
          have hsettled := hinv.settle (List.mem_of_getElem? hi) hphase nowMs outboxId
            (inOrder_settle hguard hi hphase)
          exact hsettled.drop (List.eraseIdx_sublist _ _).subset
        · cases hstep
  | abandon i =>
      cases hstep
      exact hinv.drop (List.eraseIdx_sublist _ _).subset
  | crash workerId =>
      cases hstep
      exact hinv.drop (List.filter_subset_self _)

end Steps

/-- Bot-added and bot-removed events of any chats, their tasks in any schedule: as long as every
write commits in the order of the events and ended tasks have succeeded, the access of a chat
follows its latest event. -/
theorem access_follows (ls : List AccessLabel)
    (hguard : Along step (fun s l => s.inOrder l = true) ls {}) :
    Always step AccessFollows ls {} :=
  always_of_invariant (fun _ _ _ hinv hl hstep => invariant_step hinv hl hstep)
    (fun _ hinv => hinv.follows) invariant_init hguard

private def chatKey : ChatKey := ⟨"tenant", "app", "chat"⟩

private def header (eventId createTime : String) : Json :=
  .obj [("event_id", .str eventId), ("tenant_key", .str "tenant"), ("create_time", .str createTime)]

private def seconds : String → Except PyError Int
  | "1" => .ok 1
  | "2" => .ok 2
  | _ => .error (.valueError "invalid literal for int() with base 10")

private def botAddedAt (createTime taskId : String) : AccessLabel :=
  .botAdded ⟨"app", seconds, by decide⟩
    ⟨some (.obj [("header", header taskId createTime)]), some (.str "chat")⟩ ⟨10, "trace", taskId⟩

private def botRemovedAt (createTime taskId : String) : AccessLabel :=
  .botRemoved ⟨"app", seconds, by decide⟩
    [("header", header taskId createTime), ("event", .obj [("chat_id", .str "chat")])]
    ⟨10, "trace", taskId⟩

private def worker : GatewayWorker := { mention := ⟨fun _ e => .ok (failedWith e)⟩, workerId := "w" }

private def runAt (nowMs : Int) (concurrency : Nat) : AccessLabel :=
  .runOnce worker nowMs concurrency none

/-- The bot is added, its task fails once and is tried again; then the bot is removed, with a
redelivery of each event. -/
private def addedThenRemoved : List AccessLabel :=
  [botAddedAt "1" "task-1", runAt 20 4, .raised 0 (.runtimeError "not yet"), .settle 0 30 "out",
    botAddedAt "1" "task-1b", botRemovedAt "2" "task-2", runAt 5000 1, .ensured 0,
    .write 0 (.ok ()), .settle 0 5001 "out", runAt 6000 4, .write 0 (.ok ()), .settle 0 6001 "out",
    botRemovedAt "2" "task-2b"]

theorem access_follows_in_order : Always step AccessFollows addedThenRemoved {} :=
  access_follows addedThenRemoved (along_of_check (fun _ _ hl => hl) (by decide +kernel))

private def settledCheck (s : AccessSystem) : Bool :=
  s.admitted.all fun request =>
    !decide (Latest s.admitted request) ||
      !(s.admitted.all fun other => other.chat ≠ request.chat || ended s.db other.taskId) ||
      shows s.db request

private theorem settledCheck_of_follows (s : AccessSystem) (hfollows : AccessFollows s) :
    settledCheck s = true := by
  refine List.all_eq_true.mpr ?_
  intro request hrequest
  simp only [Bool.or_eq_true, Bool.not_eq_true', decide_eq_false_iff_not]
  by_cases hlatest : Latest s.admitted request
  · cases hended : s.admitted.all fun other => other.chat ≠ request.chat || ended s.db other.taskId with
    | false => exact .inl (.inr rfl)
    | true =>
        right
        refine hfollows.settled request hrequest hlatest ?_
        intro other hother hchat
        have hend := List.all_eq_true.mp hended other hother
        simpa [hchat] using hend
  · exact .inl (.inl hlatest)

/-- The bot is removed and added again. Both tasks are leased together and the older write commits
last; or the older write commits first and cancels the pending task of the newer event. -/
theorem older_removal_wins :
    ¬ Always step AccessFollows
        [botRemovedAt "1" "task-1", botAddedAt "2" "task-2", runAt 20 4, .ensured 1,
          .write 1 (.ok ()), .write 0 (.ok ()), .settle 1 30 "out", .settle 0 31 "out"] {} ∧
      ¬ Always step AccessFollows
        [botRemovedAt "1" "task-1", runAt 20 4, botAddedAt "2" "task-2", .write 0 (.ok ()),
          .settle 0 30 "out"] {} := by
  constructor
  · exact not_always_of_check settledCheck_of_follows (by decide +kernel)
  · exact not_always_of_check settledCheck_of_follows (by decide +kernel)

end AccessSystem

end Codex2Lark
