import Codex2Lark.Storage.NodeLifecycle
import Codex2Lark.Storage.Mailbox

/-!
`MultiAgentCoordinator.delegate` and `message` on the graph of one root run, as the sequences
of their awaits, with the executions that `MultiAgentSupervisor.execute_ready` gathers. One
step of a call or of an execution is one request to the database actor together with the
code up to the next await; a read whose rows never change is taken with the request after it.
-/

namespace Codex2Lark

open Lib

/-! ### The requests -/

/-- The arguments of `agent.delegate`; a target is a pair of `tool_id` and `resource`. -/
structure DelegateArguments where
  name : String
  role : AgentRole
  taskBrief : String
  expectedOutputType : String
  toolIds : List String
  targets : List (String × String) := []
deriving DecidableEq, Repr

/-- The arguments of `agent.message`. -/
structure MessageArguments where
  childName : String
  kind : MailboxKind
  key : String
  text : String
deriving DecidableEq, Repr

inductive CoordinatorRequest where
  | delegate (arguments : DelegateArguments)
  | message (arguments : MessageArguments)
deriving DecidableEq, Repr

/-- The collaborators of `MultiAgentCoordinator` that decide anything here. -/
structure Coordinator where
  childTools : ToolRegistry
  sha256 : String → String

namespace Coordinator

variable (coordinator : Coordinator)

def delegateChecks (arguments : DelegateArguments) (context : ToolContext) : Except PyError Unit :=
  if context.nodeId ≠ "/root" then
    .error (.permissionError "only the root Agent may use agent.delegate")
  else if arguments.toolIds.contains "agent.delegate" then
    .error (.permissionError "delegated workers cannot receive recursive delegation")
  else
    match coordinator.childTools.definitions arguments.toolIds with
    | .error e => .error e
    | .ok definitions =>
        if (arguments.role = .researcher ∨ arguments.role = .verifier) ∧
            definitions.any (fun item => item.effect ≠ .read) then
          .error (.permissionError
            (arguments.role.value ++ " workers may receive read-only tools only"))
        else .ok ()

def messageChecks (arguments : MessageArguments) (context : ToolContext) : Except PyError Unit :=
  if context.nodeId ≠ "/root" then
    .error (.permissionError "only the root Agent may use collaboration tools")
  else if arguments.kind ∉ [MailboxKind.message, .steer, .followUp] then
    .error (.valueError "unsupported root mailbox message kind")
  else .ok ()

/-- `_resolve_targets` before its loop: whether the resolvers are asked. -/
def asksResolvers (arguments : DelegateArguments) : Except PyError Bool :=
  match coordinator.childTools.definitions arguments.toolIds with
  | .error e => .error e
  | .ok definitions =>
      let writers := (definitions.filter fun item => item.effect.isWrite).map ToolDefinition.toolId
      if (writers ≠ [] ∧ arguments.targets = []) ∨ (arguments.targets ≠ [] ∧
          !writers.all fun toolId => arguments.targets.any fun target => target.1 = toolId) then
        .error (.valueError "every delegated writer requires a declared target")
      else .ok (arguments.targets ≠ [])

def childSpec (arguments : DelegateArguments) (targets : List ResourceTarget) : NodeSpec where
  name := arguments.name
  role := arguments.role
  taskBrief := arguments.taskBrief
  expectedOutputType := arguments.expectedOutputType
  toolIds := arguments.toolIds
  budgets := [("tool_calls", 6), ("external_writes", 2)]
  requiresWriteScope := targets ≠ []

/-- `NodeSpec(…)` and `MultiAgentSupervisor.spawn`. -/
def spawn (graph : GraphRecord) (arguments : DelegateArguments) (targets : List ResourceTarget)
    (nodeId : String) (nowMs : Int) (db : GraphDatabase) :
    Except PyError (AgentNode × GraphDatabase) :=
  match (childSpec arguments targets).postInit with
  | .error e => .error e
  | .ok spec =>
      match AgentStore.getNode graph.rootNodeId db with
      | .error e => .error e
      | .ok parent =>
          match MultiAgentSupervisor.spawnChecks graph.graphId parent spec with
          | .error e => .error e
          | .ok () =>
              AgentStore.spawnChild graph.graphId graph.rootNodeId spec (targets = []) nodeId nowMs db

/-- The direct child of a name among the nodes of the graph. -/
def childNamed (graph : GraphRecord) (name : String) (db : GraphDatabase) : Option AgentNode :=
  (AgentStore.listNodes graph.graphId db).find? fun item =>
    item.parentNodeId = some graph.rootNodeId && item.spec.name = name

/-- `_artifact_for`. -/
def artifactFor (nodeId : String) (artifacts : List Artifact) : Option Artifact :=
  artifacts.find? fun item => item.producerNodeId = nodeId

/-- The statuses of a child that `message` accepts. -/
def acceptsMail (status : NodeStatus) : Bool :=
  status = .created || status = .ready || status = .interrupted

def mailOf (graph : GraphRecord) (arguments : MessageArguments) (context : ToolContext)
    (child : AgentNode) : AgentStore.SendMail where
  graphId := graph.graphId
  senderNodeId := graph.rootNodeId
  recipientNodeId := child.nodeId
  kind := arguments.kind
  payload := [("text", .str arguments.text)]
  correlationId := some (coordinator.sha256 (context.runId ++ "\u0000" ++ child.nodeId ++ "\u0000" ++
    arguments.kind.value ++ "\u0000" ++ arguments.key))

end Coordinator

/-! ### The state -/

/-- Where a call is: the request that it makes next, or how it has ended. -/
inductive CallPhase where
  | started (request : CoordinatorRequest)
  | entering (graph : GraphRecord) (request : CoordinatorRequest)
  | findingArtifact (graph : GraphRecord) (arguments : DelegateArguments) (existing : AgentNode)
  | resolving (graph : GraphRecord) (arguments : DelegateArguments) (existing : Option AgentNode)
  | spawning (graph : GraphRecord) (arguments : DelegateArguments) (targets : List ResourceTarget)
  | locking (graph : GraphRecord) (child : AgentNode) (target : ResourceTarget)
      (rest : List ResourceTarget)
  | releasing (graph : GraphRecord) (child : AgentNode)
  | cancelling (graph : GraphRecord) (child : AgentNode)
  | activating (graph : GraphRecord) (child : AgentNode)
  | atBarrier (graph : GraphRecord) (child : AgentNode)
  | listingArtifacts (graph : GraphRecord) (child : AgentNode)
  | leasing (graph : GraphRecord) (child : AgentNode)
  | executing (graph : GraphRecord) (child : AgentNode)
  | pollingArtifact (graph : GraphRecord) (child : AgentNode)
  | pollingNode (graph : GraphRecord) (child : AgentNode)
  | sending (graph : GraphRecord) (arguments : MessageArguments) (child : AgentNode)
  | returned (child : AgentNode) (artifact : Artifact)
  | sent (child : AgentNode) (item : MailboxItem)
  | raised (error : PyError)
  | aborted
deriving Repr

structure CoordinatorCall where
  context : ToolContext
  nowMs : Int
  phase : CallPhase

/-- Where one `execute_node` is. -/
inductive WorkerPhase where
  | receiving
  | working
  | failing
  | completing (result : NodeExecutionResult)
  | acknowledging (artifact : Artifact) (itemId : String) (rest : List String)
  | finished (artifact : Option Artifact)
  | raised (error : PyError)
  | aborted
deriving Repr

/-- The execution of a leased node for one call. `mailbox` is what `receive_mail` has
returned to it. -/
structure NodeWorker where
  call : Nat
  workerId : String
  nowMs : Int
  node : AgentNode
  mailbox : Option (List MailboxItem) := none
  phase : WorkerPhase := .receiving

/-- `gate` is the queue of `_delegation_gate`, its first call inside, and `accepted` are the
items that `message` has created, with their children. -/
structure Delegations where
  db : GraphDatabase
  gate : List Nat := []
  calls : List CoordinatorCall := []
  workers : List NodeWorker := []
  accepted : List (String × String) := []

/-- `drawn` is the identifier that the step draws, and `targets` what the resolvers of the
declared targets answer. Other graphs, and the root node, show in the locks that they hold. -/
inductive DelegationLabel where
  | request (request : CoordinatorRequest) (context : ToolContext) (nowMs : Int)
  | call (i : Nat) (drawn : String) (targets : Except PyError (List ResourceTarget))
  | timeout (i : Nat)
  | abort (i : Nat)
  | worker (j : Nat) (drawn : String) (answer : Except PyError NodeExecutionResult)
  | locks (locks : List LockRow)
  | finish (rootRunId : String) (status : RunStatus) (nowMs : Int)
  | crash

namespace Delegations

/-! ### The steps of a call -/

/-- What a step of a call does. -/
structure CallOutcome where
  phase : CallPhase
  db : GraphDatabase
  gate : List Nat
  leased : List AgentNode := []
  accepted : List (String × String) := []

section Call

variable (coordinator : Coordinator) (s : Delegations) (i : Nat) (call : CoordinatorCall)

def goesOn (db : GraphDatabase) (phase : CallPhase) : CallOutcome :=
  { phase, db, gate := s.gate }

/-- The call leaves the gate, or ends without having entered it. -/
def leaves (db : GraphDatabase) (phase : CallPhase) : CallOutcome :=
  { phase, db, gate := s.gate.erase i }

/-- The call leaves the gate and queues for it again: the barrier. -/
def queuesAgain (graph : GraphRecord) (child : AgentNode) (db : GraphDatabase) : CallOutcome :=
  { phase := .atBarrier graph child, db, gate := s.gate.erase i ++ [i] }

/-- `if targets:` with the child found or spawned. -/
def locksTargets (graph : GraphRecord) (child : AgentNode) (db : GraphDatabase) :
    List ResourceTarget → CallOutcome
  | [] => s.queuesAgain i graph child db
  | target :: rest => s.goesOn db (.locking graph child target rest)

def startedStep : CoordinatorRequest → CallOutcome := fun request =>
  match (AgentStore.findGraphByRootRun call.context.runId s.db).filter
      fun graph => graph.status = .active with
  | none => s.leaves i s.db (.raised (.runtimeError "active root Agent graph is unavailable"))
  | some graph =>
      let checked := match request with
        | .delegate arguments => coordinator.delegateChecks arguments call.context
        | .message arguments => Coordinator.messageChecks arguments call.context
      match checked with
      | .error e => s.leaves i s.db (.raised e)
      | .ok () => { phase := .entering graph request, db := s.db, gate := s.gate ++ [i] }

/-- The first requests inside of the gate. -/
def enteringStep (graph : GraphRecord) : CoordinatorRequest → CallOutcome
  | .delegate arguments =>
      match Coordinator.childNamed graph arguments.name s.db with
      | some existing => s.goesOn s.db (.findingArtifact graph arguments existing)
      | none => s.goesOn s.db (.resolving graph arguments none)
  | .message arguments =>
      match Coordinator.childNamed graph arguments.childName s.db with
      | none => s.leaves i s.db (.raised (.lookupError "direct child Agent does not exist"))
      | some child =>
          if Coordinator.acceptsMail child.status then
            s.goesOn s.db (.sending graph arguments child)
          else
            s.leaves i s.db (.raised
              (.runtimeError "child Agent is no longer accepting pre-lease messages"))

def resolvingStep (graph : GraphRecord) (arguments : DelegateArguments) (existing : Option AgentNode)
    (targets : Except PyError (List ResourceTarget)) : CallOutcome :=
  let resolved : Except PyError (List ResourceTarget) :=
    match coordinator.asksResolvers arguments with
    | .error e => .error e
    | .ok false => .ok []
    | .ok true => targets
  match resolved, existing with
  | .error e, _ => s.leaves i s.db (.raised e)
  | .ok targets, some child => s.locksTargets i graph child s.db targets
  | .ok targets, none => s.goesOn s.db (.spawning graph arguments targets)

def spawningStep (graph : GraphRecord) (arguments : DelegateArguments)
    (targets : List ResourceTarget) (drawn : String) : CallOutcome :=
  match s.db.transaction (Coordinator.spawn graph arguments targets drawn call.nowMs) with
  | (.error e, db) => s.leaves i db (.raised e)
  | (.ok child, db) => s.locksTargets i graph child db targets

def lockingStep (graph : GraphRecord) (child : AgentNode) (target : ResourceTarget)
    (rest : List ResourceTarget) : CallOutcome :=
  match s.db.transaction
      (AgentStore.acquireLock graph.graphId child.nodeId target call.nowMs 300000) with
  | (.error e, db) => s.leaves i db (.raised e)
  | (.ok false, db) => s.goesOn db (.releasing graph child)
  | (.ok true, db) =>
      match rest with
      | next :: rest => s.goesOn db (.locking graph child next rest)
      | [] =>
          if child.status = .created then s.goesOn db (.activating graph child)
          else s.queuesAgain i graph child db

def cancellingStep (child : AgentNode) : CallOutcome :=
  s.leaves i
    (s.db.transaction (AgentStore.cancelSubtree AgentStore.clampZero child.nodeId call.nowMs)).2
    (.raised (.runtimeError "delegated write target is already locked"))

def activatingStep (graph : GraphRecord) (child : AgentNode) : CallOutcome :=
  match s.db.transaction (AgentStore.activateNode child.nodeId call.nowMs) with
  | (.error e, db) => s.leaves i db (.raised e)
  | (.ok child, db) => s.queuesAgain i graph child db

def listingStep (graph : GraphRecord) (child : AgentNode) : CallOutcome :=
  match Coordinator.artifactFor child.nodeId (AgentStore.listArtifacts graph.graphId s.db) with
  | some artifact => s.goesOn s.db (.returned child artifact)
  | none => s.goesOn s.db (.leasing graph child)

/-- `worker_id`, the clock, the lease and the limit of `execute_ready`. -/
def leaseArgs (graph : GraphRecord) : AgentStore.LeaseReady :=
  ⟨"delegate:" ++ call.context.runId, call.nowMs, 300000, graph.limits.maxConcurrency⟩

def leasingStep (graph : GraphRecord) (child : AgentNode) : CallOutcome :=
  match s.db.transaction (AgentStore.leaseReady graph.graphId (leaseArgs call graph)) with
  | (.error e, db) => s.goesOn db (.raised e)
  | (.ok leased, db) => { s.goesOn db (.executing graph child) with leased }

/-- The exception of an execution, which ends `asyncio.gather` at once. -/
def WorkerPhase.error? : WorkerPhase → Option PyError
  | .raised e => some e
  | _ => none

def WorkerPhase.isFinished : WorkerPhase → Bool
  | .finished _ => true
  | _ => false

/-- What follows `execute_ready`; the call waits as long as an execution is under way. -/
def executingStep (graph : GraphRecord) (child : AgentNode) : Option CallOutcome :=
  let own := s.workers.filter fun worker => worker.call = i
  match own.findSome? fun worker => WorkerPhase.error? worker.phase with
  | some e => some (s.goesOn s.db (.raised e))
  | none =>
      if !own.all fun worker => WorkerPhase.isFinished worker.phase then none
      else
        match own.find? fun worker => worker.node.nodeId = child.nodeId with
        | some ⟨_, _, _, _, _, .finished none⟩ =>
            some (s.goesOn s.db (.raised (.runtimeError "delegated Agent failed")))
        | some ⟨_, _, _, _, _, .finished (some artifact)⟩ =>
            some (s.goesOn s.db (.returned child artifact))
        | _ => some (s.goesOn s.db (.pollingArtifact graph child))

def withoutArtifact (db : GraphDatabase) : CallOutcome :=
  s.goesOn db (.raised (.runtimeError "delegated Agent did not produce an artifact"))

def pollingArtifactStep (graph : GraphRecord) (child : AgentNode) : CallOutcome :=
  match Coordinator.artifactFor child.nodeId (AgentStore.listArtifacts graph.graphId s.db) with
  | some artifact => s.goesOn s.db (.returned child artifact)
  | none => s.goesOn s.db (.pollingNode graph child)

def pollingNodeStep (graph : GraphRecord) (child : AgentNode) : CallOutcome :=
  match AgentStore.getNode child.nodeId s.db with
  | .error e => s.goesOn s.db (.raised e)
  | .ok node =>
      if node.status = .blocked ∨ node.status = .failed ∨ node.status = .cancelled then
        s.withoutArtifact s.db
      else s.goesOn s.db (.pollingArtifact graph child)

def sendingStep (graph : GraphRecord) (arguments : MessageArguments) (child : AgentNode)
    (drawn : String) : CallOutcome :=
  let mail := coordinator.mailOf graph arguments call.context child
  match s.db.transaction (AgentStore.sendMail mail drawn) with
  | (.error e, db) => s.leaves i db (.raised e)
  | (.ok item, db) =>
      { s.leaves i db (.sent child item) with
        accepted :=
          if s.db.mailbox.any (AgentStore.isCorrelated mail) then []
          else [(item.itemId, child.nodeId)] }

/-- The next step of a call; `none` while it waits for the gate or for its executions, and
when it has ended. -/
def callStep (drawn : String) (targets : Except PyError (List ResourceTarget)) :
    Option CallOutcome :=
  match call.phase with
  | .started request => some (s.startedStep coordinator i call request)
  | .entering graph request =>
      if s.gate.head? = some i then some (s.enteringStep i graph request) else none
  | .findingArtifact graph arguments existing =>
      match Coordinator.artifactFor existing.nodeId
          (AgentStore.listArtifacts graph.graphId s.db) with
      | some artifact => some (s.leaves i s.db (.returned existing artifact))
      | none => some (s.goesOn s.db (.resolving graph arguments (some existing)))
  | .resolving graph arguments existing =>
      some (s.resolvingStep coordinator i graph arguments existing targets)
  | .spawning graph arguments targets => some (s.spawningStep i call graph arguments targets drawn)
  | .locking graph child target rest => some (s.lockingStep i call graph child target rest)
  | .releasing graph child =>
      some (s.goesOn (AgentStore.releaseLocks child.nodeId s.db) (.cancelling graph child))
  | .cancelling _ child => some (s.cancellingStep i call child)
  | .activating graph child => some (s.activatingStep i call graph child)
  | .atBarrier graph child =>
      if s.gate.head? = some i then some (s.leaves i s.db (.listingArtifacts graph child)) else none
  | .listingArtifacts graph child => some (s.listingStep graph child)
  | .leasing graph child => some (s.leasingStep call graph child)
  | .executing graph child => s.executingStep i graph child
  | .pollingArtifact graph child => some (s.pollingArtifactStep graph child)
  | .pollingNode graph child => some (s.pollingNodeStep graph child)
  | .sending graph arguments child =>
      some (s.sendingStep coordinator i call graph arguments child drawn)
  | .returned _ _ | .sent _ _ | .raised _ | .aborted => none

/-- The call and its new executions after the step. -/
def settleCall (outcome : CallOutcome) : Delegations where
  db := outcome.db
  gate := outcome.gate
  calls := s.calls.set i { call with phase := outcome.phase }
  workers := s.workers ++ outcome.leased.map fun node =>
    { call := i, workerId := "delegate:" ++ call.context.runId, nowMs := call.nowMs, node }
  accepted := s.accepted ++ outcome.accepted

end Call

/-! ### The steps of an execution -/

/-- The next step of an execution: what it leaves in the database, and where it goes on.
Without the subset of `acknowledged_mail_ids` the node is failed, too. -/
def workerStep (db : GraphDatabase) (worker : NodeWorker) (drawn : String)
    (answer : Except PyError NodeExecutionResult) : Option (GraphDatabase × NodeWorker) :=
  let node := worker.node
  match worker.phase with
  | .receiving =>
      let (mailbox, db) := AgentStore.receiveMail node.nodeId db
      some (db, { worker with mailbox := some mailbox, phase := .working })
  | .working =>
      match answer with
      | .error e =>
          some (db, { worker with phase := if e.isException then .failing else .raised e })
      | .ok result =>
          let available := (worker.mailbox.getD []).map MailboxItem.itemId
          some (db, { worker with
            phase := if result.acknowledgedMailIds.all available.contains then .completing result
              else .failing })
  | .failing =>
      match db.transaction
          (AgentStore.failNode AgentStore.clampZero node.nodeId worker.workerId worker.nowMs) with
      | (.error e, db) => some (db, { worker with phase := .raised e })
      | (.ok (), db) => some (db, { worker with phase := .finished none })
  | .completing result =>
      match db.transaction (AgentStore.completeNode AgentStore.clampZero node.nodeId worker.workerId
          result.artifact drawn worker.nowMs) with
      | (.error e, db) => some (db, { worker with phase := .raised e })
      | (.ok artifact, db) =>
          some (db, { worker with
            phase := match result.acknowledgedMailIds with
              | [] => .finished (some artifact)
              | itemId :: rest => .acknowledging artifact itemId rest })
  | .acknowledging artifact itemId rest =>
      match db.transaction (AgentStore.acknowledgeMail itemId node.nodeId) with
      | (.error e, db) => some (db, { worker with phase := .raised e })
      | (.ok (), db) =>
          some (db, { worker with
            phase := match rest with
              | [] => .finished (some artifact)
              | itemId :: rest => .acknowledging artifact itemId rest })
  | .finished _ | .raised _ | .aborted => none

/-! ### The system -/

def CallPhase.isEnded : CallPhase → Bool
  | .returned _ _ | .sent _ _ | .raised _ | .aborted => true
  | _ => false

def CallPhase.isExecuting : CallPhase → Bool
  | .executing _ _ => true
  | _ => false

/-- The cancellation of `asyncio.gather` cancels the executions that are under way. -/
def abortWorker (worker : NodeWorker) : NodeWorker :=
  match worker.phase with
  | .finished _ | .raised _ => worker
  | _ => { worker with phase := .aborted }

def abortCall (call : CoordinatorCall) : CoordinatorCall :=
  if CallPhase.isEnded call.phase then call else { call with phase := .aborted }

/-- `publish_terminal`'s table; a cancelled run is cancelled instead. -/
def graphStatus : RunStatus → Option GraphStatus
  | .completed => some .completed
  | .blocked => some .blocked
  | .failed => some .failed
  | .cancelled => some .cancelled
  | _ => none

/-- `MultiAgentCoordinator.finish`. -/
def finishRun (rootRunId : String) (status : RunStatus) (nowMs : Int) (db : GraphDatabase) :
    GraphDatabase :=
  match (AgentStore.findGraphByRootRun rootRunId db).filter fun graph => graph.status = .active with
  | none => db
  | some graph =>
      if status = .cancelled then
        (db.transaction (AgentStore.cancelSubtree AgentStore.clampZero graph.rootNodeId nowMs)).2
      else
        match graphStatus status with
        | none => db
        | some published =>
            (db.transaction
              (AgentStore.finishGraph graph.graphId graph.rootNodeId published nowMs)).2

def step (coordinator : Coordinator) (s : Delegations) : DelegationLabel → Option Delegations
  | .request request context nowMs =>
      some { s with calls := s.calls ++ [⟨context, nowMs, .started request⟩] }
  | .call i drawn targets =>
      match s.calls[i]? with
      | none => none
      | some call => (s.callStep coordinator i call drawn targets).map (s.settleCall i call)
  | .timeout i =>
      match s.calls[i]? with
      | none => none
      | some call =>
          match call.phase with
          | .pollingArtifact _ _ | .pollingNode _ _ =>
              some (s.settleCall i call (s.withoutArtifact s.db))
          | _ => none
  | .abort i =>
      match s.calls[i]? with
      | none => none
      | some call =>
          if CallPhase.isEnded call.phase then none
          else some { s with
            gate := s.gate.erase i
            calls := s.calls.set i { call with phase := .aborted }
            workers := if CallPhase.isExecuting call.phase then
              s.workers.map fun worker => if worker.call = i then abortWorker worker else worker
              else s.workers }
  | .worker j drawn answer =>
      match s.workers[j]? with
      | none => none
      | some worker => (workerStep s.db worker drawn answer).map fun (db, worker) =>
          { s with db, workers := s.workers.set j worker }
  | .locks locks => some { s with db := { s.db with locks } }
  | .finish rootRunId status nowMs => some { s with db := finishRun rootRunId status nowMs s.db }
  | .crash =>
      some { s with
        gate := [], calls := s.calls.map abortCall, workers := s.workers.map abortWorker }

end Delegations

/-! ### The graph of a root run -/

/-- What `prepare` creates the graph of a root run from, and the identifiers that it draws. -/
structure RootGraph where
  rootRunId : String
  tenantKey : String
  taskBrief : String
  toolIds : List String
  budgets : Dict String Nat
  budgetKeys : (budgets.map Prod.fst).Nodup := by decide
  limits : GraphLimits := {}
  graphId : String
  rootNodeId : String
  nowMs : Int

namespace RootGraph

def rootSpec (root : RootGraph) : NodeSpec where
  name := "root"
  role := .orchestrator
  taskBrief := root.taskBrief
  expectedOutputType := "AgentOutcome"
  toolIds := root.toolIds
  budgets := root.budgets
  budgetKeys := root.budgetKeys

/-- The tables after `prepare`, before the first call. -/
def start (root : RootGraph) : Delegations where
  db := GraphOp.apply AgentStore.clampZero
    (.createGraph ⟨root.rootRunId, root.tenantKey, root.rootSpec, root.limits⟩ root.graphId
      root.rootNodeId root.nowMs) {}

end RootGraph

end Codex2Lark
