import Codex2Lark.Runtime.Delegation
import Codex2Lark.Storage.StarGraph

/-!
What one step of the delegations does to the graph store, and that all of their calls are
about the one graph of their root run.
-/

namespace Codex2Lark

open Lib

namespace Delegations

/-! ### The transaction of a step -/

/-- The transaction that the next step of a call makes, unless it is refused before. -/
def callOp (coordinator : Coordinator) (call : CoordinatorCall) (drawn : String) : Option GraphOp :=
  match call.phase with
  | .spawning graph arguments targets =>
      some (.spawnChild graph.graphId graph.rootNodeId (Coordinator.childSpec arguments targets)
        (targets = []) drawn call.nowMs)
  | .locking graph child target _ =>
      some (.acquireLock graph.graphId child.nodeId target call.nowMs 300000)
  | .releasing _ child => some (.releaseLocks child.nodeId)
  | .cancelling _ child => some (.cancelSubtree child.nodeId call.nowMs)
  | .activating _ child => some (.activateNode child.nodeId call.nowMs)
  | .leasing graph _ => some (.leaseReady graph.graphId (leaseArgs call graph))
  | .sending graph arguments child =>
      some (.sendMail (coordinator.mailOf graph arguments call.context child) drawn)
  | _ => none

def workerOp (worker : NodeWorker) (drawn : String) : Option GraphOp :=
  match worker.phase with
  | .receiving => some (.receiveMail worker.node.nodeId)
  | .failing => some (.failNode worker.node.nodeId worker.workerId worker.nowMs)
  | .completing result =>
      some (.completeNode worker.node.nodeId worker.workerId result.artifact drawn worker.nowMs)
  | .acknowledging _ itemId _ => some (.acknowledgeMail itemId worker.node.nodeId)
  | _ => none

/-- The step leaves the database, or makes the transaction. -/
def Transacts (op : Option GraphOp) (db after : GraphDatabase) : Prop :=
  after = db ∨ ∃ made, op = some made ∧ after = made.apply AgentStore.clampZero db

theorem Transacts.same {op : Option GraphOp} (db : GraphDatabase) : Transacts op db db := .inl rfl

/-- A transaction that the step makes, whatever it answers. -/
theorem Transacts.of_eq {op : Option GraphOp} {made : GraphOp} {db after : GraphDatabase}
    (hop : op = some made) (hafter : after = made.apply AgentStore.clampZero db) :
    Transacts op db after := .inr ⟨made, hop, hafter⟩

section Call

variable {coordinator : Coordinator} {s t : Delegations} {i : Nat} {call : CoordinatorCall}
  {drawn : String} {targets : Except PyError (List ResourceTarget)} {outcome : CallOutcome}

theorem locksTargets_db (graph : GraphRecord) (child : AgentNode) (db : GraphDatabase)
    (targets : List ResourceTarget) : (s.locksTargets i graph child db targets).db = db := by
  cases targets <;> rfl

theorem startedStep_db (request : CoordinatorRequest) :
    (s.startedStep coordinator i call request).db = s.db := by
  unfold startedStep
  split
  · rfl
  · dsimp only
    split <;> rfl

theorem enteringStep_db (graph : GraphRecord) (request : CoordinatorRequest) :
    (s.enteringStep i graph request).db = s.db := by
  cases request with
  | delegate arguments =>
      unfold enteringStep
      dsimp only
      split <;> rfl
  | message arguments =>
      unfold enteringStep
      dsimp only
      split
      · rfl
      · split <;> rfl

theorem resolvingStep_db (graph : GraphRecord) (arguments : DelegateArguments)
    (existing : Option AgentNode) :
    (s.resolvingStep coordinator i graph arguments existing targets).db = s.db := by
  unfold resolvingStep
  dsimp only
  split
  · rfl
  · exact locksTargets_db _ _ _ _
  · rfl

theorem spawningStep_db (graph : GraphRecord) (arguments : DelegateArguments)
    (targets : List ResourceTarget) :
    (s.spawningStep i call graph arguments targets drawn).db =
      (s.db.transaction (Coordinator.spawn graph arguments targets drawn call.nowMs)).2 := by
  unfold spawningStep
  split
  · rename_i hspawn
    rw [hspawn]
    rfl
  · rename_i hspawn
    rw [hspawn]
    exact locksTargets_db _ _ _ _

theorem lockingStep_db (graph : GraphRecord) (child : AgentNode) (target : ResourceTarget)
    (rest : List ResourceTarget) :
    (s.lockingStep i call graph child target rest).db =
      GraphOp.apply AgentStore.clampZero
        (.acquireLock graph.graphId child.nodeId target call.nowMs 300000) s.db := by
  unfold lockingStep
  split
  · rename_i hlock
    exact congrArg Prod.snd hlock.symm
  · rename_i hlock
    exact congrArg Prod.snd hlock.symm
  · rename_i hlock
    have hafter := congrArg Prod.snd hlock.symm
    split
    · exact hafter
    · split <;> exact hafter

theorem activatingStep_db (graph : GraphRecord) (child : AgentNode) :
    (s.activatingStep i call graph child).db =
      GraphOp.apply AgentStore.clampZero (.activateNode child.nodeId call.nowMs) s.db := by
  unfold activatingStep
  split
  · rename_i hactivate
    exact congrArg Prod.snd hactivate.symm
  · rename_i hactivate
    exact congrArg Prod.snd hactivate.symm

theorem leasingStep_db (graph : GraphRecord) (child : AgentNode) :
    (s.leasingStep call graph child).db =
      GraphOp.apply AgentStore.clampZero (.leaseReady graph.graphId (leaseArgs call graph)) s.db := by
  unfold leasingStep
  split
  · rename_i hlease
    exact congrArg Prod.snd hlease.symm
  · rename_i hlease
    exact congrArg Prod.snd hlease.symm

theorem sendingStep_db (graph : GraphRecord) (arguments : MessageArguments) (child : AgentNode) :
    (s.sendingStep coordinator i call graph arguments child drawn).db =
      GraphOp.apply AgentStore.clampZero
        (.sendMail (coordinator.mailOf graph arguments call.context child) drawn) s.db := by
  unfold sendingStep
  dsimp only
  split
  · rename_i hsend
    exact congrArg Prod.snd hsend.symm
  · rename_i hsend
    exact congrArg Prod.snd hsend.symm

theorem listingStep_db (graph : GraphRecord) (child : AgentNode) :
    (s.listingStep graph child).db = s.db := by
  unfold listingStep
  split <;> rfl

theorem executingStep_db {graph : GraphRecord} {child : AgentNode}
    (hstep : s.executingStep i graph child = some outcome) : outcome.db = s.db := by
  unfold executingStep at hstep
  dsimp only at hstep
  split at hstep
  · cases hstep
    rfl
  · split at hstep
    · cases hstep
    · split at hstep <;> cases hstep <;> rfl

theorem pollingArtifactStep_db (graph : GraphRecord) (child : AgentNode) :
    (s.pollingArtifactStep graph child).db = s.db := by
  unfold pollingArtifactStep
  split <;> rfl

theorem pollingNodeStep_db (graph : GraphRecord) (child : AgentNode) :
    (s.pollingNodeStep graph child).db = s.db := by
  unfold pollingNodeStep
  split
  · rfl
  · split <;> rfl

/-- A spawn is refused before its transaction, or is that of the specification itself. -/
theorem spawn_cases (graph : GraphRecord) (arguments : DelegateArguments)
    (targets : List ResourceTarget) (nodeId : String) (nowMs : Int) (db : GraphDatabase) :
    (∃ e, Coordinator.spawn graph arguments targets nodeId nowMs db = .error e) ∨
      Coordinator.spawn graph arguments targets nodeId nowMs db =
        AgentStore.spawnChild graph.graphId graph.rootNodeId (Coordinator.childSpec arguments targets)
          (targets = []) nodeId nowMs db := by
  unfold Coordinator.spawn
  split
  · exact .inl ⟨_, rfl⟩
  · rename_i spec hspec
    have hmade := NodeSpec.postInit_ok hspec
    split
    · exact .inl ⟨_, rfl⟩
    · split
      · exact .inl ⟨_, rfl⟩
      · exact .inr (by rw [hmade])

theorem spawn_transaction (graph : GraphRecord) (arguments : DelegateArguments)
    (targets : List ResourceTarget) (nodeId : String) (nowMs : Int) (db : GraphDatabase) :
    Transacts (some (.spawnChild graph.graphId graph.rootNodeId
        (Coordinator.childSpec arguments targets) (targets = []) nodeId nowMs)) db
      (db.transaction (Coordinator.spawn graph arguments targets nodeId nowMs)).2 := by
  rcases spawn_cases graph arguments targets nodeId nowMs db with ⟨e, herror⟩ | hspawn
  · refine .inl ?_
    simp [GraphDatabase.transaction, herror]
  · refine .of_eq rfl ?_
    simp only [GraphOp.apply, GraphDatabase.transaction, hspawn]

theorem callStep_transacts (hstep : s.callStep coordinator i call drawn targets = some outcome) :
    Transacts (callOp coordinator call drawn) s.db outcome.db := by
  unfold callStep at hstep
  unfold callOp
  cases hphase : call.phase with
  | started request =>
      simp only [hphase] at hstep
      cases hstep
      exact .inl (startedStep_db request)
  | entering graph request =>
      simp only [hphase] at hstep
      split at hstep
      · cases hstep
        exact .inl (enteringStep_db graph request)
      · cases hstep
  | findingArtifact graph arguments existing =>
      simp only [hphase] at hstep
      split at hstep <;> cases hstep <;> exact .same _
  | resolving graph arguments existing =>
      simp only [hphase] at hstep
      cases hstep
      exact .inl (resolvingStep_db graph arguments existing)
  | spawning graph arguments resolved =>
      simp only [hphase] at hstep
      cases hstep
      rw [spawningStep_db]
      exact spawn_transaction graph arguments resolved drawn call.nowMs s.db
  | locking graph child target rest =>
      simp only [hphase] at hstep
      cases hstep
      exact .of_eq rfl (lockingStep_db graph child target rest)
  | releasing graph child =>
      simp only [hphase] at hstep
      cases hstep
      exact .of_eq rfl rfl
  | cancelling graph child =>
      simp only [hphase] at hstep
      cases hstep
      exact .of_eq rfl rfl
  | activating graph child =>
      simp only [hphase] at hstep
      cases hstep
      exact .of_eq rfl (activatingStep_db graph child)
  | atBarrier graph child =>
      simp only [hphase] at hstep
      split at hstep
      · cases hstep
        exact .same _
      · cases hstep
  | listingArtifacts graph child =>
      simp only [hphase] at hstep
      cases hstep
      exact .inl (listingStep_db graph child)
  | leasing graph child =>
      simp only [hphase] at hstep
      cases hstep
      exact .of_eq rfl (leasingStep_db graph child)
  | executing graph child =>
      simp only [hphase] at hstep
      exact .inl (executingStep_db hstep)
  | pollingArtifact graph child =>
      simp only [hphase] at hstep
      cases hstep
      exact .inl (pollingArtifactStep_db graph child)
  | pollingNode graph child =>
      simp only [hphase] at hstep
      cases hstep
      exact .inl (pollingNodeStep_db graph child)
  | sending graph arguments child =>
      simp only [hphase] at hstep
      cases hstep
      exact .of_eq rfl (sendingStep_db graph arguments child)
  | returned child artifact => simp [hphase] at hstep
  | sent child item => simp [hphase] at hstep
  | raised e => simp [hphase] at hstep
  | aborted => simp [hphase] at hstep

/-! ### Where a step leads -/

/-- The graph and the child of a delegation that has its child. -/
def CallPhase.child? : CallPhase → Option (GraphRecord × AgentNode)
  | .findingArtifact graph _ child | .resolving graph _ (some child) | .locking graph child _ _
  | .releasing graph child | .cancelling graph child | .activating graph child
  | .atBarrier graph child | .listingArtifacts graph child | .leasing graph child
  | .executing graph child | .pollingArtifact graph child | .pollingNode graph child =>
      some (graph, child)
  | _ => none

/-- What a step of a call comes to. Until it ends, a call keeps its graph, and a delegation the
child that it has found, spawned or activated. -/
inductive CallMove (coordinator : Coordinator) (s : Delegations) (call : CoordinatorCall)
    (drawn : String) : CallOutcome → Prop
  | ends {phase : CallPhase} {db : GraphDatabase} {gate : List Nat}
      (hended : CallPhase.isEnded phase = true) : CallMove coordinator s call drawn { phase, db, gate }
  | enters {graph : GraphRecord} {request : CoordinatorRequest} {gate : List Nat}
      (hgraph : AgentStore.findGraphByRootRun call.context.runId s.db = some graph) :
      CallMove coordinator s call drawn { phase := .entering graph request, db := s.db, gate }
  | finds {graph : GraphRecord} {arguments : DelegateArguments} {child : AgentNode} {gate : List Nat}
      (hphase : call.phase = .entering graph (.delegate arguments))
      (hnamed : Coordinator.childNamed graph arguments.name s.db = some child) :
      CallMove coordinator s call drawn
        { phase := .findingArtifact graph arguments child, db := s.db, gate }
  | meets {graph : GraphRecord} {arguments : MessageArguments} {child : AgentNode} {gate : List Nat}
      (hphase : call.phase = .entering graph (.message arguments))
      (hnamed : Coordinator.childNamed graph arguments.childName s.db = some child)
      (haccepts : Coordinator.acceptsMail child.status = true) :
      CallMove coordinator s call drawn
        { phase := .sending graph arguments child, db := s.db, gate }
  | resolves {graph : GraphRecord} {arguments : DelegateArguments} {gate : List Nat}
      (hphase : call.phase = .entering graph (.delegate arguments)) :
      CallMove coordinator s call drawn
        { phase := .resolving graph arguments none, db := s.db, gate }
  | spawns {graph : GraphRecord} {arguments : DelegateArguments} {resolved : List ResourceTarget}
      {gate : List Nat} (hphase : call.phase = .resolving graph arguments none) :
      CallMove coordinator s call drawn
        { phase := .spawning graph arguments resolved, db := s.db, gate }
  | spawned {graph : GraphRecord} {arguments : DelegateArguments} {resolved : List ResourceTarget}
      {child : AgentNode} {phase : CallPhase} {db : GraphDatabase} {gate : List Nat}
      (hphase : call.phase = .spawning graph arguments resolved)
      (hspawn : s.db.transaction (Coordinator.spawn graph arguments resolved drawn call.nowMs) =
        (.ok child, db)) (hnext : CallPhase.child? phase = some (graph, child)) :
      CallMove coordinator s call drawn { phase, db, gate }
  | activated {graph : GraphRecord} {created child : AgentNode} {db : GraphDatabase}
      {gate : List Nat} (hphase : call.phase = .activating graph created)
      (hactivate : s.db.transaction (AgentStore.activateNode created.nodeId call.nowMs) =
        (.ok child, db)) :
      CallMove coordinator s call drawn { phase := .atBarrier graph child, db, gate }
  | keeps {graph : GraphRecord} {child : AgentNode} {phase : CallPhase} {db : GraphDatabase}
      {gate : List Nat} (hphase : CallPhase.child? call.phase = some (graph, child))
      (hnext : CallPhase.child? phase = some (graph, child)) :
      CallMove coordinator s call drawn { phase, db, gate }
  | leases {graph : GraphRecord} {child : AgentNode} {leased : List AgentNode}
      {db : GraphDatabase} {gate : List Nat} (hphase : call.phase = .leasing graph child)
      (hlease : s.db.transaction (AgentStore.leaseReady graph.graphId (leaseArgs call graph)) =
        (.ok leased, db)) :
      CallMove coordinator s call drawn { phase := .executing graph child, db, gate, leased }
  | sends {graph : GraphRecord} {arguments : MessageArguments} {child : AgentNode}
      {item : MailboxItem} {db : GraphDatabase} {gate : List Nat}
      (hphase : call.phase = .sending graph arguments child)
      (hsend : s.db.transaction (AgentStore.sendMail
        (coordinator.mailOf graph arguments call.context child) drawn) = (.ok item, db)) :
      CallMove coordinator s call drawn
        { phase := .sent child item, db, gate
          accepted :=
            if s.db.mailbox.any (AgentStore.isCorrelated
              (coordinator.mailOf graph arguments call.context child)) then []
            else [(item.itemId, child.nodeId)] }

theorem locksTargets_eq (graph : GraphRecord) (child : AgentNode) (db : GraphDatabase)
    (resolved : List ResourceTarget) : ∃ phase gate, CallPhase.child? phase = some (graph, child) ∧
      s.locksTargets i graph child db resolved = { phase, db, gate } := by
  cases resolved with
  | nil => exact ⟨_, _, rfl, rfl⟩
  | cons target rest => exact ⟨.locking graph child target rest, s.gate, rfl, rfl⟩

theorem startedStep_move (request : CoordinatorRequest) :
    CallMove coordinator s call drawn (s.startedStep coordinator i call request) := by
  unfold startedStep
  split
  · exact .ends rfl
  · rename_i graph hgraph
    dsimp only
    split
    · exact .ends rfl
    · exact .enters (Option.filter_eq_some_iff.mp hgraph).1

theorem enteringStep_move {graph : GraphRecord} {request : CoordinatorRequest}
    (hphase : call.phase = .entering graph request) :
    CallMove coordinator s call drawn (s.enteringStep i graph request) := by
  cases request with
  | delegate arguments =>
      unfold enteringStep
      dsimp only
      split
      · exact .finds hphase ‹_›
      · exact .resolves hphase
  | message arguments =>
      unfold enteringStep
      dsimp only
      split
      · exact .ends rfl
      · split
        · exact .meets hphase ‹_› ‹_›
        · exact .ends rfl

theorem resolvingStep_move {graph : GraphRecord} {arguments : DelegateArguments}
    {existing : Option AgentNode} (hphase : call.phase = .resolving graph arguments existing) :
    CallMove coordinator s call drawn
      (s.resolvingStep coordinator i graph arguments existing targets) := by
  unfold resolvingStep
  dsimp only
  split
  · exact .ends rfl
  · rename_i resolved child _
    obtain ⟨phase, gate, hnext, hlocks⟩ := locksTargets_eq (s := s) (i := i) graph child s.db resolved
    rw [hlocks]
    exact .keeps (congrArg CallPhase.child? hphase) hnext
  · exact .spawns hphase

theorem spawningStep_move {graph : GraphRecord} {arguments : DelegateArguments}
    {resolved : List ResourceTarget} (hphase : call.phase = .spawning graph arguments resolved) :
    CallMove coordinator s call drawn (s.spawningStep i call graph arguments resolved drawn) := by
  unfold spawningStep
  split
  · exact .ends rfl
  · rename_i child db hspawn
    obtain ⟨phase, gate, hnext, hlocks⟩ := locksTargets_eq (s := s) (i := i) graph child db resolved
    rw [hlocks]
    exact .spawned hphase hspawn hnext

theorem lockingStep_move {graph : GraphRecord} {child : AgentNode} {target : ResourceTarget}
    {rest : List ResourceTarget} (hphase : call.phase = .locking graph child target rest) :
    CallMove coordinator s call drawn (s.lockingStep i call graph child target rest) := by
  have hchild : CallPhase.child? call.phase = some (graph, child) := congrArg CallPhase.child? hphase
  unfold lockingStep
  split
  · exact .ends rfl
  · exact .keeps hchild rfl
  · split
    · exact .keeps hchild rfl
    · split
      · exact .keeps hchild rfl
      · exact .keeps hchild rfl

theorem executingStep_move {graph : GraphRecord} {child : AgentNode}
    (hphase : call.phase = .executing graph child)
    (hstep : s.executingStep i graph child = some outcome) :
    CallMove coordinator s call drawn outcome := by
  unfold executingStep at hstep
  dsimp only at hstep
  split at hstep
  · cases hstep
    exact .ends rfl
  · split at hstep
    · cases hstep
    · split at hstep <;> cases hstep
      · exact .ends rfl
      · exact .ends rfl
      · exact .keeps (congrArg CallPhase.child? hphase) rfl

/-- One step of a call. -/
theorem callStep_move (hstep : s.callStep coordinator i call drawn targets = some outcome) :
    CallMove coordinator s call drawn outcome := by
  unfold callStep at hstep
  cases hphase : call.phase with
  | started request =>
      simp only [hphase] at hstep
      cases hstep
      exact startedStep_move request
  | entering graph request =>
      simp only [hphase] at hstep
      split at hstep
      · cases hstep
        exact enteringStep_move hphase
      · cases hstep
  | findingArtifact graph arguments existing =>
      simp only [hphase] at hstep
      split at hstep <;> cases hstep
      · exact .ends rfl
      · exact .keeps (congrArg CallPhase.child? hphase) rfl
  | resolving graph arguments existing =>
      simp only [hphase] at hstep
      cases hstep
      exact resolvingStep_move hphase
  | spawning graph arguments resolved =>
      simp only [hphase] at hstep
      cases hstep
      exact spawningStep_move hphase
  | locking graph child target rest =>
      simp only [hphase] at hstep
      cases hstep
      exact lockingStep_move hphase
  | releasing graph child =>
      simp only [hphase] at hstep
      cases hstep
      exact .keeps (congrArg CallPhase.child? hphase) rfl
  | cancelling graph child =>
      simp only [hphase] at hstep
      cases hstep
      exact .ends rfl
  | activating graph child =>
      simp only [hphase] at hstep
      cases hstep
      unfold activatingStep
      split
      · exact .ends rfl
      · exact .activated hphase ‹_›
  | atBarrier graph child =>
      simp only [hphase] at hstep
      split at hstep
      · cases hstep
        exact .keeps (congrArg CallPhase.child? hphase) rfl
      · cases hstep
  | listingArtifacts graph child =>
      simp only [hphase] at hstep
      cases hstep
      unfold listingStep
      split
      · exact .ends rfl
      · exact .keeps (congrArg CallPhase.child? hphase) rfl
  | leasing graph child =>
      simp only [hphase] at hstep
      cases hstep
      unfold leasingStep
      split
      · exact .ends rfl
      · exact .leases hphase ‹_›
  | executing graph child =>
      simp only [hphase] at hstep
      exact executingStep_move hphase hstep
  | pollingArtifact graph child =>
      simp only [hphase] at hstep
      cases hstep
      unfold pollingArtifactStep
      split
      · exact .ends rfl
      · exact .keeps (congrArg CallPhase.child? hphase) rfl
  | pollingNode graph child =>
      simp only [hphase] at hstep
      cases hstep
      unfold pollingNodeStep
      split
      · exact .ends rfl
      · split
        · exact .ends rfl
        · exact .keeps (congrArg CallPhase.child? hphase) rfl
  | sending graph arguments child =>
      simp only [hphase] at hstep
      cases hstep
      unfold sendingStep
      dsimp only
      split
      · exact .ends rfl
      · exact .sends hphase ‹_›
  | returned child artifact => simp [hphase] at hstep
  | sent child item => simp [hphase] at hstep
  | raised e => simp [hphase] at hstep
  | aborted => simp [hphase] at hstep

end Call

theorem workerStep_transacts {db after : GraphDatabase} {worker moved : NodeWorker} {drawn : String}
    {answer : Except PyError NodeExecutionResult}
    (hstep : workerStep db worker drawn answer = some (after, moved)) :
    Transacts (workerOp worker drawn) db after := by
  unfold workerStep at hstep
  unfold workerOp
  cases hphase : worker.phase with
  | receiving =>
      simp only [hphase] at hstep
      cases hstep
      exact .of_eq rfl rfl
  | working =>
      simp only [hphase] at hstep
      split at hstep <;> cases hstep <;> exact .same _
  | failing =>
      simp only [hphase] at hstep
      split at hstep <;> cases hstep <;> rename_i hfail <;>
        exact .of_eq rfl (congrArg Prod.snd hfail.symm)
  | completing result =>
      simp only [hphase] at hstep
      split at hstep <;> cases hstep <;> rename_i hcomplete <;>
        exact .of_eq rfl (congrArg Prod.snd hcomplete.symm)
  | acknowledging artifact itemId rest =>
      simp only [hphase] at hstep
      split at hstep <;> cases hstep <;> rename_i hacknowledge <;>
        exact .of_eq rfl (congrArg Prod.snd hacknowledge.symm)
  | finished artifact => simp [hphase] at hstep
  | raised e => simp [hphase] at hstep
  | aborted => simp [hphase] at hstep

/-- An execution stays the one of its node, for its call. -/
theorem workerStep_keeps {db after : GraphDatabase} {worker moved : NodeWorker} {drawn : String}
    {answer : Except PyError NodeExecutionResult}
    (hstep : workerStep db worker drawn answer = some (after, moved)) :
    moved.node = worker.node ∧ moved.call = worker.call ∧
      (worker.phase ≠ .receiving → moved.mailbox = worker.mailbox) := by
  unfold workerStep at hstep
  cases hphase : worker.phase with
  | receiving =>
      simp only [hphase] at hstep
      cases hstep
      exact ⟨rfl, rfl, fun hother => absurd rfl hother⟩
  | working =>
      simp only [hphase] at hstep
      split at hstep <;> cases hstep <;> exact ⟨rfl, rfl, fun _ => rfl⟩
  | failing =>
      simp only [hphase] at hstep
      split at hstep <;> cases hstep <;> exact ⟨rfl, rfl, fun _ => rfl⟩
  | completing result =>
      simp only [hphase] at hstep
      split at hstep <;> cases hstep <;> exact ⟨rfl, rfl, fun _ => rfl⟩
  | acknowledging artifact itemId rest =>
      simp only [hphase] at hstep
      split at hstep <;> cases hstep <;> exact ⟨rfl, rfl, fun _ => rfl⟩
  | finished artifact => simp [hphase] at hstep
  | raised e => simp [hphase] at hstep
  | aborted => simp [hphase] at hstep

theorem abortWorker_keeps (worker : NodeWorker) :
    (abortWorker worker).node = worker.node ∧ (abortWorker worker).mailbox = worker.mailbox := by
  unfold abortWorker
  split <;> exact ⟨rfl, rfl⟩

/-- The transaction of `finish`, once it has found the graph active. -/
def finishOp (rootRunId : String) (status : RunStatus) (nowMs : Int) (db : GraphDatabase) :
    Option GraphOp :=
  match (AgentStore.findGraphByRootRun rootRunId db).filter fun graph => graph.status = .active with
  | none => none
  | some graph =>
      if status = .cancelled then some (.cancelSubtree graph.rootNodeId nowMs)
      else (graphStatus status).map fun published =>
        .finishGraph graph.graphId graph.rootNodeId published nowMs

theorem finishRun_transacts (rootRunId : String) (status : RunStatus) (nowMs : Int)
    (db : GraphDatabase) :
    Transacts (finishOp rootRunId status nowMs db) db (finishRun rootRunId status nowMs db) := by
  unfold finishRun finishOp
  cases hgraph : (AgentStore.findGraphByRootRun rootRunId db).filter
      fun graph => graph.status = .active with
  | none => exact .same db
  | some graph =>
      by_cases hcancelled : status = .cancelled
      · simp only [hcancelled, if_true]
        exact .of_eq rfl rfl
      · simp only [hcancelled, if_false]
        cases hstatus : graphStatus status with
        | none => exact .same db
        | some published => exact .of_eq rfl rfl

def stepOp (coordinator : Coordinator) (s : Delegations) : DelegationLabel → Option GraphOp
  | .call i drawn _ => (s.calls[i]?).bind fun call => callOp coordinator call drawn
  | .worker j drawn _ => (s.workers[j]?).bind fun worker => workerOp worker drawn
  | .finish rootRunId status nowMs => finishOp rootRunId status nowMs s.db
  | _ => none

section Step

variable {coordinator : Coordinator} {s t : Delegations}

theorem step_call {i : Nat} {drawn : String} {targets : Except PyError (List ResourceTarget)}
    (hstep : step coordinator s (.call i drawn targets) = some t) :
    ∃ call outcome, s.calls[i]? = some call ∧
      s.callStep coordinator i call drawn targets = some outcome ∧ t = s.settleCall i call outcome := by
  unfold step at hstep
  dsimp only at hstep
  split at hstep
  · cases hstep
  · rename_i call hcall
    obtain ⟨outcome, houtcome, rfl⟩ := Option.map_eq_some_iff.mp hstep
    exact ⟨call, outcome, hcall, houtcome, rfl⟩

theorem step_worker {j : Nat} {drawn : String} {answer : Except PyError NodeExecutionResult}
    (hstep : step coordinator s (.worker j drawn answer) = some t) :
    ∃ worker db moved, s.workers[j]? = some worker ∧
      workerStep s.db worker drawn answer = some (db, moved) ∧
      t = { s with db, workers := s.workers.set j moved } := by
  unfold step at hstep
  dsimp only at hstep
  split at hstep
  · cases hstep
  · rename_i worker hworker
    obtain ⟨⟨db, moved⟩, hmoved, rfl⟩ := Option.map_eq_some_iff.mp hstep
    exact ⟨worker, db, moved, hworker, hmoved, rfl⟩

theorem step_timeout {i : Nat} (hstep : step coordinator s (.timeout i) = some t) :
    ∃ call, s.calls[i]? = some call ∧
      (∃ graph child, call.phase = .pollingArtifact graph child ∨
        call.phase = .pollingNode graph child) ∧
      t = s.settleCall i call (s.withoutArtifact s.db) := by
  unfold step at hstep
  dsimp only at hstep
  split at hstep
  · cases hstep
  · rename_i call hcall
    split at hstep
    · cases hstep
      exact ⟨call, hcall, ⟨_, _, .inl ‹_›⟩, rfl⟩
    · cases hstep
      exact ⟨call, hcall, ⟨_, _, .inr ‹_›⟩, rfl⟩
    · cases hstep

theorem step_abort {i : Nat} (hstep : step coordinator s (.abort i) = some t) :
    ∃ call, s.calls[i]? = some call ∧ CallPhase.isEnded call.phase = false ∧
      t = { s with
        gate := s.gate.erase i
        calls := s.calls.set i { call with phase := .aborted }
        workers := if CallPhase.isExecuting call.phase then
          s.workers.map fun worker => if worker.call = i then abortWorker worker else worker
          else s.workers } := by
  unfold step at hstep
  dsimp only at hstep
  split at hstep
  · cases hstep
  · rename_i call hcall
    split at hstep
    · cases hstep
    · rename_i hopen
      cases hstep
      exact ⟨call, hcall, by simpa using hopen, rfl⟩

/-- Only another holder of a lock changes the tables without a transaction. -/
theorem step_transacts {label : DelegationLabel} (hstep : step coordinator s label = some t) :
    Transacts (stepOp coordinator s label) s.db t.db ∨ ∃ locks, t.db = { s.db with locks } := by
  cases label with
  | request request context nowMs =>
      cases hstep
      exact .inl (.same _)
  | call i drawn targets =>
      obtain ⟨call, outcome, hcall, houtcome, rfl⟩ := step_call hstep
      rw [stepOp, hcall]
      exact .inl (callStep_transacts houtcome)
  | timeout i =>
      obtain ⟨call, _, _, rfl⟩ := step_timeout hstep
      exact .inl (.same _)
  | abort i =>
      obtain ⟨call, _, _, rfl⟩ := step_abort hstep
      exact .inl (.same _)
  | worker j drawn answer =>
      obtain ⟨worker, db, moved, hworker, hmoved, rfl⟩ := step_worker hstep
      rw [stepOp, hworker]
      exact .inl (workerStep_transacts hmoved)
  | locks locks =>
      cases hstep
      exact .inr ⟨locks, rfl⟩
  | finish rootRunId status nowMs =>
      cases hstep
      exact .inl (finishRun_transacts rootRunId status nowMs s.db)
  | crash =>
      cases hstep
      exact .inl (.same _)

end Step

end Delegations

/-! ### The graph that the calls are about -/

namespace RootGraph

/-- The row that `prepare` inserts. -/
def graphRow (root : RootGraph) : GraphRow :=
  ⟨root.graphId, root.rootRunId, root.rootNodeId, root.tenantKey, .active, root.limits, root.nowMs⟩

def rootRow (root : RootGraph) : NodeRow :=
  AgentStore.newNode root.rootNodeId root.graphId none "/root" root.rootSpec 1 .ready root.nowMs

theorem start_db (root : RootGraph) : root.start.db =
    { graphs := [root.graphRow], nodes := [root.rootRow]
      ledger := AgentStore.newLedger root.rootNodeId root.graphId root.rootSpec root.nowMs } := by
  simp [start, GraphOp.apply, GraphDatabase.transaction, AgentStore.createGraph,
    AgentStore.insertNode, graphRow, rootRow, bind, Except.bind]

/-- The record is that of the graph. -/
def Describes (root : RootGraph) (graph : GraphRecord) : Prop :=
  graph.graphId = root.graphId ∧ graph.rootNodeId = root.rootNodeId ∧ graph.limits = root.limits

def IsChild (root : RootGraph) (child : AgentNode) : Prop := child.nodeId ≠ root.rootNodeId

end RootGraph

namespace Delegations

/-- A call is about the graph of its root run, and about a child. -/
def CallPhase.Within (root : RootGraph) : CallPhase → Prop
  | .entering graph _ | .resolving graph _ none | .spawning graph _ _ => root.Describes graph
  | .findingArtifact graph _ child | .resolving graph _ (some child) | .locking graph child _ _
  | .releasing graph child | .cancelling graph child | .activating graph child
  | .atBarrier graph child | .listingArtifacts graph child | .leasing graph child
  | .executing graph child | .pollingArtifact graph child | .pollingNode graph child
  | .sending graph _ child => root.Describes graph ∧ root.IsChild child
  | .started _ | .returned _ _ | .sent _ _ | .raised _ | .aborted => True

structure Wired (root : RootGraph) (s : Delegations) : Prop where
  star : StarGraph root.graphId root.rootNodeId s.db
  graph : List.Forall₂ GraphRow.Follows [root.graphRow] s.db.graphs
  calls : ∀ call ∈ s.calls, CallPhase.Within root call.phase

section Call

variable {coordinator : Coordinator} {root : RootGraph} {s : Delegations} {i : Nat}
  {call : CoordinatorCall} {drawn : String} {targets : Except PyError (List ResourceTarget)}
  {outcome : CallOutcome}

/-- The only graph row, as it is now. -/
theorem Wired.graphs_eq (hwired : Wired root s) :
    ∃ row, s.db.graphs = [row] ∧ root.graphRow.Follows row := by
  have hgraph := hwired.graph
  generalize s.db.graphs = graphs at hgraph
  cases hgraph with
  | cons hhead htail =>
      cases htail
      exact ⟨_, rfl, hhead⟩

theorem Wired.describes (hwired : Wired root s) {rootRunId : String} {graph : GraphRecord}
    (hgraph : AgentStore.findGraphByRootRun rootRunId s.db = some graph) : root.Describes graph := by
  obtain ⟨row, hrow, rfl⟩ := Option.map_eq_some_iff.mp hgraph
  obtain ⟨only, honly, hfollows⟩ := hwired.graphs_eq
  have hmem := List.mem_of_find?_eq_some hrow
  rw [honly, List.mem_singleton] at hmem
  subst hmem
  exact ⟨hfollows.1.graphId.symm, hfollows.1.rootNodeId.symm, hfollows.1.limits.symm⟩

theorem childNamed_row {graph : GraphRecord} {name : String} {db : GraphDatabase} {child : AgentNode}
    (hchild : Coordinator.childNamed graph name db = some child) :
    ∃ row ∈ db.nodes, child = AgentStore.nodeOf db row ∧
      row.parentNodeId = some graph.rootNodeId := by
  have hmem := List.mem_of_find?_eq_some hchild
  have hnamed := List.find?_some hchild
  obtain ⟨row, hrow, rfl⟩ := List.mem_map.mp hmem
  rw [List.mem_insertionSort, List.mem_filter] at hrow
  simp only [Bool.and_eq_true, decide_eq_true_eq] at hnamed
  exact ⟨row, hrow.1, rfl, hnamed.1⟩

theorem Wired.isChild_named (hwired : Wired root s) {graph : GraphRecord} {name : String}
    {child : AgentNode} (hchild : Coordinator.childNamed graph name s.db = some child) :
    root.IsChild child := by
  obtain ⟨row, hrow, rfl, hparent⟩ := childNamed_row hchild
  intro hroot
  have hrows := (hwired.star.rows row hrow).2.2
  have hid : row.nodeId = root.rootNodeId := hroot
  rw [hparent, if_pos hid] at hrows
  cases hrows

theorem spawnChild_nodeId {graphId parentNodeId nodeId : String} {spec : NodeSpec} {ready : Bool}
    {nowMs : Int} {db after : GraphDatabase} {child : AgentNode}
    (hok : AgentStore.spawnChild graphId parentNodeId spec ready nodeId nowMs db =
      .ok (child, after)) : child.nodeId = nodeId := by
  unfold AgentStore.spawnChild at hok
  split at hok
  · cases hok
  · split at hok
    · cases hok
    · split at hok
      · cases hok
      · split at hok
        · cases hok
        · split at hok
          · cases hok
          · obtain ⟨_, _, hok⟩ := PyError.bind_eq_ok.mp hok
            obtain ⟨_, _, hok⟩ := PyError.bind_eq_ok.mp hok
            obtain ⟨_, _, hok⟩ := PyError.bind_eq_ok.mp hok
            cases hok
            rfl

theorem isChild_spawned {graph : GraphRecord} (hgraph : root.Describes graph) {arguments : DelegateArguments} {resolved : List ResourceTarget}
    {nodeId : String} {nowMs : Int} {child : AgentNode} {db : GraphDatabase}
    (hspawn : s.db.transaction (Coordinator.spawn graph arguments resolved nodeId nowMs) =
      (.ok child, db)) : root.IsChild child := by
  obtain ⟨hid, hrootId, _⟩ := hgraph
  unfold GraphDatabase.transaction at hspawn
  split at hspawn
  · rename_i value after hok
    cases hspawn
    rcases spawn_cases graph arguments resolved nodeId nowMs s.db with ⟨e, herror⟩ | hsame
    · rw [herror] at hok
      cases hok
    · rw [hsame, hid, hrootId] at hok
      obtain ⟨row, parent, reserved, hspawned⟩ := AgentStore.spawnChild_ok hok
      intro hroot
      rw [spawnChild_nodeId hok] at hroot
      exact hspawned.fresh parent hspawned.parentMem (hspawned.parentIs.trans hroot.symm)
  · cases hspawn

theorem activateNode_nodeId {nodeId : String} {nowMs : Int} {db after : GraphDatabase}
    {child : AgentNode} (hactivate : db.transaction (AgentStore.activateNode nodeId nowMs) =
      (.ok child, after)) : child.nodeId = nodeId := by
  unfold GraphDatabase.transaction at hactivate
  split at hactivate
  · rename_i value after hok
    cases hactivate
    obtain ⟨_, row, hrow, rfl⟩ := AgentStore.activateNode_ok hok
    exact (AgentStore.findNode_some hrow).2
  · cases hactivate

theorem within_of_isEnded {phase : CallPhase} (hended : CallPhase.isEnded phase = true) :
    CallPhase.Within root phase := by
  cases phase with
  | returned child artifact => trivial
  | sent child item => trivial
  | raised e => trivial
  | aborted => trivial
  | _ => cases hended

theorem within_iff_of_child {phase : CallPhase} {graph : GraphRecord} {child : AgentNode}
    (hchild : CallPhase.child? phase = some (graph, child)) :
    CallPhase.Within root phase ↔ root.Describes graph ∧ root.IsChild child := by
  cases phase with
  | resolving graph arguments existing =>
      cases existing with
      | none => cases hchild
      | some child =>
          cases hchild
          rfl
  | entering | started | spawning | sending | returned | sent | raised | aborted => cases hchild
  | _ =>
      cases hchild
      rfl

theorem callStep_within (hwired : Wired root s) (hwithin : CallPhase.Within root call.phase)
    (hstep : s.callStep coordinator i call drawn targets = some outcome) :
    CallPhase.Within root outcome.phase := by
  cases callStep_move hstep with
  | ends hended => exact within_of_isEnded hended
  | enters hgraph => exact hwired.describes hgraph
  | finds hphase hnamed =>
      rw [hphase] at hwithin
      exact ⟨hwithin, hwired.isChild_named hnamed⟩
  | meets hphase hnamed haccepts =>
      rw [hphase] at hwithin
      exact ⟨hwithin, hwired.isChild_named hnamed⟩
  | resolves hphase =>
      rw [hphase] at hwithin
      exact hwithin
  | spawns hphase =>
      rw [hphase] at hwithin
      exact hwithin
  | spawned hphase hspawn hnext =>
      rw [hphase] at hwithin
      exact (within_iff_of_child hnext).mpr ⟨hwithin, isChild_spawned hwithin hspawn⟩
  | activated hphase hactivate =>
      rw [hphase] at hwithin
      have hid := activateNode_nodeId hactivate
      exact ⟨hwithin.1, fun hroot => hwithin.2 (hid.symm.trans hroot)⟩
  | keeps hphase hnext =>
      exact (within_iff_of_child hnext).mpr ((within_iff_of_child hphase).mp hwithin)
  | leases hphase hlease =>
      rw [hphase] at hwithin
      exact hwithin
  | sends hphase hsend => trivial

/-- Only a lease hands nodes out, and only a message creates an item. -/
inductive Yields (coordinator : Coordinator) (s : Delegations) (call : CoordinatorCall)
    (drawn : String) (outcome : CallOutcome) : Prop
  | nothing (hleased : outcome.leased = []) (haccepted : outcome.accepted = [])
  | leases {graph : GraphRecord} {child : AgentNode} (hphase : call.phase = .leasing graph child)
      (hok : AgentStore.leaseReady graph.graphId (leaseArgs call graph) s.db =
        .ok (outcome.leased, outcome.db))
      (hnext : outcome.phase = .executing graph child) (haccepted : outcome.accepted = [])
  | accepts {graph : GraphRecord} {arguments : MessageArguments} {child : AgentNode}
      {item : MailboxItem} (hphase : call.phase = .sending graph arguments child)
      (hok : AgentStore.sendMail (coordinator.mailOf graph arguments call.context child) drawn s.db =
        .ok (item, outcome.db)) (hleased : outcome.leased = [])
      (hfresh : s.db.mailbox.any (AgentStore.isCorrelated
        (coordinator.mailOf graph arguments call.context child)) = false)
      (haccepted : outcome.accepted = [(item.itemId, child.nodeId)])

theorem transaction_ok {α : Type} {operation : GraphDatabase → Except PyError (α × GraphDatabase)}
    {db after : GraphDatabase} {value : α} (hok : db.transaction operation = (.ok value, after)) :
    operation db = .ok (value, after) := by
  unfold GraphDatabase.transaction at hok
  split at hok
  · rename_i heq
    cases hok
    exact heq
  · cases hok

theorem transaction_error {α : Type} {operation : GraphDatabase → Except PyError (α × GraphDatabase)}
    {db after : GraphDatabase} {e : PyError} (hraised : db.transaction operation = (.error e, after)) :
    after = db := by
  unfold GraphDatabase.transaction at hraised
  split at hraised <;> cases hraised
  rfl

theorem callStep_yields (hstep : s.callStep coordinator i call drawn targets = some outcome) :
    Yields coordinator s call drawn outcome := by
  cases callStep_move hstep with
  | leases hphase hlease => exact .leases hphase (transaction_ok hlease) rfl rfl
  | @sends graph arguments child item db gate hphase hsend =>
      cases hcorrelated : s.db.mailbox.any (AgentStore.isCorrelated
          (coordinator.mailOf graph arguments call.context child)) with
      | true => exact .nothing rfl rfl
      | false => exact .accepts hphase (transaction_ok hsend) rfl hcorrelated rfl
  | _ => exact .nothing rfl rfl

end Call

/-! ### The invariant -/

section Wired

variable {coordinator : Coordinator} {root : RootGraph} {s t : Delegations}

theorem Wired.start (root : RootGraph) : Wired root root.start := by
  refine ⟨⟨?_, ?_, ?_, ?_⟩, ?_, ?_⟩
  · dsimp only [RootGraph.start]
    exact LifecycleInvariant.empty.apply _
  · rw [root.start_db]
    simp [RootGraph.graphRow]
  · rw [root.start_db]
  · rw [root.start_db]
    simp [RootGraph.rootRow, AgentStore.newNode, RootGraph.rootSpec]
  · rw [root.start_db]
    exact .cons (.refl _) .nil
  · intro call hcall
    cases hcall

/-- The transactions of the calls, of the executions and of `finish` are those of a star. -/
theorem Wired.isStarOp (hwired : Wired root s) {label : DelegationLabel} {op : GraphOp}
    (hop : stepOp coordinator s label = some op) : op.IsStarOp root.graphId root.rootNodeId := by
  cases label with
  | call i drawn targets =>
      obtain ⟨call, hcall, hcallOp⟩ := Option.bind_eq_some_iff.mp hop
      have hwithin := hwired.calls call (List.mem_of_getElem? hcall)
      unfold callOp at hcallOp
      split at hcallOp <;> cases hcallOp
      all_goals first
        | trivial
        | skip
      rename_i graph arguments resolved hphase
      rw [hphase] at hwithin
      exact ⟨hwithin.1, hwithin.2.1, rfl, rfl⟩
  | worker j drawn answer =>
      obtain ⟨worker, _, hworkerOp⟩ := Option.bind_eq_some_iff.mp hop
      unfold workerOp at hworkerOp
      split at hworkerOp <;> cases hworkerOp <;> trivial
  | finish rootRunId status nowMs =>
      simp only [stepOp, finishOp] at hop
      split at hop
      · cases hop
      · split at hop
        · cases hop
          trivial
        · obtain ⟨published, _, rfl⟩ := Option.map_eq_some_iff.mp hop
          trivial
  | request request context nowMs => cases hop
  | timeout i => cases hop
  | abort i => cases hop
  | locks locks => cases hop
  | crash => cases hop

theorem within_abortCall {call : CoordinatorCall} (hwithin : CallPhase.Within root call.phase) :
    CallPhase.Within root (abortCall call).phase := by
  unfold abortCall
  split
  · exact hwithin
  · trivial

theorem Wired.step (hwired : Wired root s) {label : DelegationLabel}
    (hstep : Delegations.step coordinator s label = some t) : Wired root t := by
  have hstar : StarGraph root.graphId root.rootNodeId t.db ∧
      List.Forall₂ GraphRow.Follows s.db.graphs t.db.graphs := by
    rcases step_transacts hstep with (hsame | ⟨op, hop, hdb⟩) | ⟨locks, hdb⟩
    · rw [hsame]
      exact ⟨hwired.star, List.forall₂_same.mpr fun row _ => .refl row⟩
    · have hstarOp := hwired.isStarOp hop
      rw [hdb]
      exact ⟨hwired.star.apply hstarOp, hwired.star.follows hstarOp⟩
    · rw [hdb]
      exact ⟨hwired.star.locks locks, List.forall₂_same.mpr fun row _ => .refl row⟩
  refine ⟨hstar.1, Table.Forall₂.trans (fun _ _ _ => GraphRow.Follows.trans) hwired.graph hstar.2, ?_⟩
  have hset {i : Nat} {phase : CallPhase} {call : CoordinatorCall}
      (hphase : CallPhase.Within root phase) :
      ∀ other ∈ s.calls.set i { call with phase }, CallPhase.Within root other.phase := by
    intro other hother
    rcases List.mem_or_eq_of_mem_set hother with hkept | rfl
    · exact hwired.calls other hkept
    · exact hphase
  cases label with
  | request request context nowMs =>
      cases hstep
      intro call hcall
      rcases List.mem_append.mp hcall with hold | hnew
      · exact hwired.calls call hold
      · rw [List.mem_singleton.mp hnew]
        trivial
  | call i drawn targets =>
      obtain ⟨call, outcome, hcall, houtcome, rfl⟩ := step_call hstep
      exact hset (callStep_within hwired (hwired.calls call (List.mem_of_getElem? hcall)) houtcome)
  | timeout i =>
      obtain ⟨call, _, _, rfl⟩ := step_timeout hstep
      exact hset trivial
  | abort i =>
      obtain ⟨call, _, _, rfl⟩ := step_abort hstep
      exact hset (trivial : CallPhase.Within root .aborted)
  | worker j drawn answer =>
      obtain ⟨worker, db, moved, _, _, rfl⟩ := step_worker hstep
      exact hwired.calls
  | locks locks =>
      cases hstep
      exact hwired.calls
  | finish rootRunId status nowMs =>
      cases hstep
      exact hwired.calls
  | crash =>
      cases hstep
      intro call hcall
      obtain ⟨old, hold, rfl⟩ := List.mem_map.mp hcall
      exact within_abortCall (hwired.calls old hold)

end Wired

end Delegations

end Codex2Lark
