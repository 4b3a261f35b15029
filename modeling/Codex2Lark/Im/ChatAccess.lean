import Codex2Lark.Im.Membership

/-!
The access of a chat under the tasks of its bot-added and bot-removed events. The two kinds run
under different session keys, so their executions overlap; a revocation also cancels pending
tasks. The rows carry no time of the event, so the order in which the tasks commit decides.
-/

namespace Codex2Lark

open Lib TaskQueue TaskWorkers RuntimeStore IMRepository

inductive BotEventKind where
  | added
  | removed
deriving DecidableEq, Repr

namespace BotEventKind

def commandType : BotEventKind → String
  | .added => "im.ensure_owner_membership"
  | .removed => "im.revoke_chat_access"

def enabled : BotEventKind → Bool
  | .added => true
  | .removed => false

def accessState : BotEventKind → AccessState
  | .added => .visible
  | .removed => .revoked

end BotEventKind

/-- An admitted event with its task. -/
structure BotRequest where
  taskId : String
  kind : BotEventKind
  chat : ChatKey
  occurredAtMs : Int
deriving DecidableEq, Repr

/-- Where an execution stands: `ensuring` waits for `ensure_current_user`, `writing` for the
transaction, `elsewhere` is in the handler of another command. -/
inductive AccessPhase where
  | ensuring
  | writing
  | elsewhere
  | answered (answer : Except PyError TaskExecutionResult)

/-- `nowMs` is the time that `run_once` hands to every execution of a batch. -/
structure AccessExecution extends Execution where
  nowMs : Int
  phase : AccessPhase

/-- `admitted` and `applied` are histories: the requests in the order of their admission, and
in the order in which their writes committed. -/
structure AccessSystem where
  db : MirrorDatabase := {}
  executions : List AccessExecution := []
  admitted : List BotRequest := []
  applied : List BotRequest := []

/-- `raised` ends an await with an exception before anything is committed; `write` commits, and
`after` is what follows in the handler (the deletion of blobs, a cancellation). -/
inductive AccessLabel where
  | botAdded (service : BotAddedAdmissionService) (event : BotAddedEvent) (inputs : AdmissionInputs)
  | botRemoved (service : IMLifecycleAdmissionService) (raw : List (String × Json))
      (inputs : AdmissionInputs)
  | other (op : MirrorOp)
  | runOnce (gateway : GatewayWorker) (nowMs : Int) (concurrency : Nat)
      (limits : Option TaskConcurrencyLimits)
  | ensured (i : Nat)
  | write (i : Nat) (after : Except PyError Unit)
  | answer (i : Nat) (answer : Except PyError TaskExecutionResult)
  | raised (i : Nat) (e : PyError)
  | settle (i : Nat) (nowMs : Int) (outboxId : String)
  | abandon (i : Nat)
  | crash (workerId : String)

namespace AccessExecution

/-- The first step of an execution. -/
def start (worker : DurableTaskWorker) (nowMs : Int) (task : LeasedTask) : AccessExecution :=
  { worker, task, nowMs
    phase :=
      match task.recoveryErrorCode with
      | some code => .answered (.error (.permanentTaskError code))
      | none =>
          if task.commandType = "im.ensure_owner_membership" then
            match MembershipTaskHandler.chatId task with
            | .error e => .answered (.error e)
            | .ok _ => .ensuring
          else if task.commandType = "im.revoke_chat_access" then
            match IMLifecycleTaskHandler.chat task with
            | .error e => .answered (.error e)
            | .ok _ => .writing
          else .elsewhere }

/-- The transaction that a handler waits for. -/
def op (execution : AccessExecution) : Except PyError MirrorOp :=
  if execution.task.commandType = "im.ensure_owner_membership" then
    (MembershipTaskHandler.chat execution.task).map fun chat => .restore chat execution.nowMs
  else (IMLifecycleTaskHandler.chat execution.task).map fun chat => .revoke chat execution.nowMs

/-- `ensure_current_user` has returned. -/
def afterEnsured (execution : AccessExecution) : AccessPhase :=
  match MembershipTaskHandler.chat execution.task with
  | .error e => .answered (.error e)
  | .ok _ => .writing

end AccessExecution

namespace AccessSystem

def request (kind : BotEventKind) (event : NormalizedEvent) (taskId : String) : BotRequest :=
  { taskId, kind, chat := ⟨event.tenantKey, event.appId, event.resourceId⟩
    occurredAtMs := event.occurredAtMs }

/-- The admission of an event, whose redelivery creates nothing. -/
def admitRequest (s : AccessSystem) (kind : BotEventKind) (inputs : AdmissionInputs) :
    Except PyError Admission → AccessSystem
  | .error _ => s
  | .ok ⟨event, command⟩ =>
      match admitEvent event command none inputs.taskId "" inputs.nowMs s.db.runtime with
      | .error _ => s
      | .ok (result, runtime) =>
          { s with
            db := { s.db with runtime }
            admitted := s.admitted ++
              if result.created then [request kind event result.taskId] else [] }

/-- The transactions of the runtime that the queue and the two admissions do not make. -/
def isForeign : StoreOp → Bool
  | .admitEvent _ command .. =>
      command.commandType ≠ "im.ensure_owner_membership" &&
        command.commandType ≠ "im.revoke_chat_access"
  | .leaseTasks .. | .finishTask .. | .retryTask .. | .deferTask .. => false
  | _ => true

/-- What else may commit: messages, attachments, other tasks and runs. -/
def isOther : MirrorOp → Bool
  | .revoke .. | .restore .. => false
  | .message _ | .recordBlob _ | .recordParse _ => true
  | .runtime op => isForeign op

def setPhase (s : AccessSystem) (i : Nat) (execution : AccessExecution) (phase : AccessPhase) :
    AccessSystem :=
  { s with executions := s.executions.set i { execution with phase } }

/-- The request whose task this is. -/
def requested (s : AccessSystem) (taskId : String) : Option BotRequest :=
  s.admitted.find? fun request => request.taskId = taskId

def step (s : AccessSystem) : AccessLabel → Option AccessSystem
  | .botAdded service event inputs =>
      some (s.admitRequest .added inputs (service.handleBotAdded event inputs))
  | .botRemoved service raw inputs =>
      some (s.admitRequest .removed inputs (service.handleBotRemoved raw inputs))
  | .other op => if isOther op then some { s with db := op.apply s.db } else none
  | .runOnce gateway nowMs concurrency limits =>
      match leaseTasks (leaseArgs gateway.tasks nowMs concurrency) limits s.db.runtime with
      | .error _ => some s
      | .ok (leased, runtime) =>
          some { s with
            db := { s.db with runtime }
            executions := s.executions ++ leased.map (AccessExecution.start gateway.tasks nowMs) }
  | .ensured i =>
      match s.executions[i]? with
      | none => none
      | some execution =>
          match execution.phase with
          | .ensuring => some (s.setPhase i execution execution.afterEnsured)
          | _ => none
  | .write i after =>
      match s.executions[i]? with
      | none => none
      | some execution =>
          match execution.phase, execution.op with
          | .writing, .ok op =>
              some { s.setPhase i execution (.answered (after.map fun _ => succeeded)) with
                db := op.apply s.db
                applied := s.applied ++ (s.requested execution.task.taskId).toList }
          | _, _ => none
  | .answer i answer =>
      match s.executions[i]? with
      | none => none
      | some execution =>
          match execution.phase with
          | .elsewhere => some (s.setPhase i execution (.answered answer))
          | _ => none
  | .raised i e =>
      match s.executions[i]? with
      | none => none
      | some execution =>
          match execution.phase with
          | .ensuring | .writing => some (s.setPhase i execution (.answered (.error e)))
          | _ => none
  | .settle i nowMs outboxId =>
      match s.executions[i]? with
      | none => none
      | some execution =>
          match execution.phase with
          | .answered answer =>
              let runtime := (execution.worker.execute execution.task nowMs outboxId answer
                s.db.runtime).2
              some { s with
                db := { s.db with runtime }, executions := s.executions.eraseIdx i }
          | _ => none
  | .abandon i => some { s with executions := s.executions.eraseIdx i }
  | .crash workerId =>
      some { s with
        executions := s.executions.filter fun execution => execution.worker.workerId ≠ workerId }

/-! ### The law -/

/-- The chat has the access that the request asks for. -/
def shows (db : MirrorDatabase) (request : BotRequest) : Bool :=
  (findChat db request.chat).any fun row =>
    row.enabled = request.kind.enabled && row.accessState = request.kind.accessState

/-- The task is neither pending nor leased. -/
def ended (db : MirrorDatabase) (taskId : String) : Bool :=
  db.runtime.tasks.all fun task =>
    task.taskId ≠ taskId || (task.state ≠ .pending && task.state ≠ .leased)

/-- No other request of the list is as late as this one, among those for its chat. -/
def Latest (requests : List BotRequest) (request : BotRequest) : Prop :=
  ∀ other ∈ requests, other.chat = request.chat → other ≠ request →
    other.occurredAtMs < request.occurredAtMs

instance (requests : List BotRequest) (request : BotRequest) : Decidable (Latest requests request) :=
  inferInstanceAs (Decidable (∀ other ∈ requests, _))

structure AccessFollows (s : AccessSystem) : Prop where
  /-- Once all tasks of a chat have ended, it has the access of its latest event. -/
  settled : ∀ request ∈ s.admitted, Latest s.admitted request →
    (∀ other ∈ s.admitted, other.chat = request.chat → ended s.db other.taskId = true) →
    shows s.db request = true
  /-- At any time it has the access of the latest event whose write has committed. -/
  kept : ∀ request ∈ s.applied, Latest s.applied request → shows s.db request = true
  /-- Only a later removal cancels a task. -/
  cancelled : ∀ request ∈ s.admitted, ∀ task ∈ s.db.runtime.tasks, task.taskId = request.taskId →
    task.state = .cancelled → ∃ other ∈ s.applied, other.chat = request.chat ∧
      request.occurredAtMs < other.occurredAtMs

/-- The tasks that the write of this request cancels belong to earlier events of its chat. -/
def cancelsOlder (s : AccessSystem) (request : BotRequest) : Bool :=
  request.kind = .added || s.db.runtime.tasks.all fun task =>
    !isCancelled request.chat task || (s.requested task.taskId).all fun other =>
      other.chat = request.chat && other.occurredAtMs < request.occurredAtMs

/-- A write commits after those of all earlier events of its chat and cancels no task of another
event than these; a task that ends has succeeded. -/
def inOrder (s : AccessSystem) : AccessLabel → Bool
  | .write i _ => (s.executions[i]?.bind fun execution => s.requested execution.task.taskId).all
      fun request =>
        (s.applied.all fun other =>
          other.chat ≠ request.chat || other.occurredAtMs ≤ request.occurredAtMs) &&
        s.cancelsOlder request
  | .settle i _ _ => s.executions[i]?.all fun execution =>
      (s.requested execution.task.taskId).isNone ||
        match execution.phase with
        | .answered answer =>
            match execution.worker.settlement execution.task answer with
            | .finish result => result.state = .succeeded
            | _ => true
        | _ => true
  | _ => true

end AccessSystem

end Codex2Lark
