import Codex2Lark.Lib.Table
import Codex2Lark.Runtime.MultiAgent
import Mathlib.Data.List.Sort

/-!
`storage/agent_store.py`: the tables of the multi-agent schema and their
transactions. Encrypted columns hold their plaintext; the identifiers that a
transaction draws are arguments.
-/

namespace Codex2Lark

open Lib

structure GraphRow where
  graphId : String
  rootRunId : String
  rootNodeId : String
  tenantKey : String
  status : GraphStatus
  limits : GraphLimits
  updatedAtMs : Int
deriving DecidableEq, Repr

structure NodeRow where
  nodeId : String
  graphId : String
  parentNodeId : Option String
  canonicalPath : String
  spec : NodeSpec
  depth : Nat
  status : NodeStatus
  leaseOwner : Option String
  leaseExpiresAtMs : Option Int
  attemptCount : Nat
  createdAtMs : Int
  updatedAtMs : Int
deriving DecidableEq, Repr

/-- The only kind of edge is `depends_on`. -/
structure EdgeRow where
  graphId : String
  predecessorNodeId : String
  dependentNodeId : String
deriving DecidableEq, Repr

structure LedgerRow where
  graphId : String
  nodeId : String
  budgetKind : String
  maximum : Int
  reserved : Int
  consumed : Int
  updatedAtMs : Int
deriving DecidableEq, Repr

structure LockRow where
  tenantKey : String
  resourceType : String
  resourceId : String
  graphId : String
  ownerNodeId : String
  expectedRevision : Option String
  leaseExpiresAtMs : Int
deriving DecidableEq, Repr

structure ArtifactRow where
  artifact : Artifact
  createdAtMs : Int
deriving DecidableEq, Repr

structure GraphDatabase where
  graphs : List GraphRow := []
  nodes : List NodeRow := []
  edges : List EdgeRow := []
  ledger : List LedgerRow := []
  locks : List LockRow := []
  artifacts : List ArtifactRow := []
  mailbox : List MailboxItem := []
deriving DecidableEq, Repr

/-- `SQLiteDatabase.transaction`: an operation that raises is rolled back. -/
def GraphDatabase.transaction {α : Type}
    (operation : GraphDatabase → Except PyError (α × GraphDatabase)) (db : GraphDatabase) :
    Except PyError α × GraphDatabase :=
  match operation db with
  | .ok (value, after) => (.ok value, after)
  | .error e => (.error e, db)

namespace AgentStore

def graphRecord (row : GraphRow) : GraphRecord :=
  ⟨row.graphId, row.rootRunId, row.rootNodeId, row.tenantKey, row.status, row.limits⟩

def findGraph (db : GraphDatabase) (graphId : String) : Option GraphRow :=
  db.graphs.find? fun row => row.graphId = graphId

def findGraphByRootRun (rootRunId : String) (db : GraphDatabase) : Option GraphRecord :=
  (db.graphs.find? fun row => row.rootRunId = rootRunId).map graphRecord

def findNode (db : GraphDatabase) (nodeId : String) : Option NodeRow :=
  db.nodes.find? fun row => row.nodeId = nodeId

/-- `_dependencies`. -/
def dependencies (db : GraphDatabase) (nodeId : String) : List String :=
  ((db.edges.filter fun edge => edge.dependentNodeId = nodeId).map
    EdgeRow.predecessorNodeId).insertionSort (fun a b => a ≤ b)

/-- `_node`. -/
def nodeOf (db : GraphDatabase) (row : NodeRow) : AgentNode :=
  { nodeId := row.nodeId, graphId := row.graphId, parentNodeId := row.parentNodeId
    canonicalPath := row.canonicalPath
    spec := { row.spec with dependencyNodeIds := dependencies db row.nodeId }
    depth := row.depth, status := row.status, attemptCount := row.attemptCount
    leaseOwner := row.leaseOwner, leaseExpiresAtMs := row.leaseExpiresAtMs }

def getNode (nodeId : String) (db : GraphDatabase) : Except PyError AgentNode :=
  match findNode db nodeId with
  | some row => .ok (nodeOf db row)
  | none => .error (.lookupError ("Agent node does not exist: " ++ nodeId))

/-- `ORDER BY depth, canonical_path`. -/
def listLe (a b : NodeRow) : Bool :=
  if a.depth ≠ b.depth then a.depth < b.depth else a.canonicalPath ≤ b.canonicalPath

def listNodes (graphId : String) (db : GraphDatabase) : List AgentNode :=
  ((db.nodes.filter fun row => row.graphId = graphId).insertionSort fun a b => listLe a b).map
    (nodeOf db)

def listArtifacts (graphId : String) (db : GraphDatabase) : List Artifact :=
  ((db.artifacts.filter fun row => row.artifact.graphId = graphId).insertionSort
    fun a b => a.createdAtMs ≤ b.createdAtMs).map ArtifactRow.artifact

/-! ### Nodes and budgets -/

def setNodes (db : GraphDatabase) (cond : NodeRow → Bool) (change : NodeRow → NodeRow) :
    GraphDatabase :=
  { db with nodes := Table.update cond change db.nodes }

/-- `SET status = ?, lease_owner = NULL, lease_expires_at_ms = NULL, updated_at_ms = ?`. -/
def unleased (status : NodeStatus) (nowMs : Int) (row : NodeRow) : NodeRow :=
  { row with status, leaseOwner := none, leaseExpiresAtMs := none, updatedAtMs := nowMs }

def settleNode (db : GraphDatabase) (nodeId : String) (status : NodeStatus) (nowMs : Int) :
    GraphDatabase :=
  setNodes db (fun row => row.nodeId = nodeId) (unleased status nowMs)

def newNode (nodeId graphId : String) (parentNodeId : Option String) (canonicalPath : String)
    (spec : NodeSpec) (depth : Nat) (status : NodeStatus) (nowMs : Int) : NodeRow :=
  { nodeId, graphId, parentNodeId, canonicalPath, spec, depth, status, leaseOwner := none
    leaseExpiresAtMs := none, attemptCount := 0, createdAtMs := nowMs, updatedAtMs := nowMs }

def newLedger (nodeId graphId : String) (spec : NodeSpec) (nowMs : Int) : List LedgerRow :=
  spec.budgets.map fun budget => ⟨graphId, nodeId, budget.1, budget.2, 0, 0, nowMs⟩

/-- `_insert_node` under the primary key and the unique path. The path ends with the
name, so `UNIQUE (graph_id, parent_node_id, name)` refuses nothing more. -/
def insertNode (db : GraphDatabase) (nodeId graphId : String) (parentNodeId : Option String)
    (canonicalPath : String) (spec : NodeSpec) (depth : Nat) (status : NodeStatus)
    (nowMs : Int) : Except PyError GraphDatabase :=
  if db.nodes.any fun row => row.nodeId = nodeId then
    .error (.integrityError "UNIQUE constraint failed: runtime_agent_nodes.node_id")
  else if db.nodes.any fun row => row.graphId = graphId && row.canonicalPath = canonicalPath then
    .error (.integrityError
      "UNIQUE constraint failed: runtime_agent_nodes.graph_id, runtime_agent_nodes.canonical_path")
  else .ok { db with
    nodes := db.nodes ++
      [newNode nodeId graphId parentNodeId canonicalPath spec depth status nowMs]
    ledger := db.ledger ++ newLedger nodeId graphId spec nowMs }

def isLedgerOf (graphId nodeId kind : String) (row : LedgerRow) : Bool :=
  row.graphId = graphId && row.nodeId = nodeId && row.budgetKind = kind

/-- The `WHERE` clause of a reservation. -/
def hasRoom (graphId nodeId kind : String) (amount : Nat) (row : LedgerRow) : Bool :=
  isLedgerOf graphId nodeId kind row && amount ≤ row.maximum - row.reserved - row.consumed

/-- `_reserve_parent_budget`. -/
def reserveParentBudget (graphId parentNodeId : String) (nowMs : Int) :
    Dict String Nat → GraphDatabase → Except PyError GraphDatabase
  | [], db => .ok db
  | (kind, amount) :: rest, db =>
      if Table.rowcount (hasRoom graphId parentNodeId kind amount) db.ledger ≠ 1 then
        .error (.valueError ("insufficient parent budget: " ++ kind))
      else
        reserveParentBudget graphId parentNodeId nowMs rest
          { db with ledger := Table.update (hasRoom graphId parentNodeId kind amount) (fun row =>
              { row with reserved := row.reserved + amount, updatedAtMs := nowMs }) db.ledger }

/-- `MAX(0, …)`. -/
def clampZero (amount : Int) : Int := max 0 amount

def hasOpenChild (db : GraphDatabase) (nodeId : String) : Bool :=
  db.nodes.any fun child => child.parentNodeId = some nodeId && !child.status.isTerminal

/-- `_wake_parent`. -/
def wakeParent (db : GraphDatabase) (parentNodeId : Option String) (nowMs : Int) :
    GraphDatabase :=
  match parentNodeId with
  | none => db
  | some parentId =>
      if hasOpenChild db parentId then db
      else setNodes db (fun row => row.nodeId = parentId && row.status = .waiting)
        fun row => { row with status := .ready, updatedAtMs := nowMs }

/-- The rows that `_block_dependents` reads. -/
def openDependents (db : GraphDatabase) (predecessorNodeId : String) : List NodeRow :=
  (db.edges.filter fun edge => edge.predecessorNodeId = predecessorNodeId).flatMap fun edge =>
    db.nodes.filter fun row => row.nodeId = edge.dependentNodeId && !row.status.isTerminal

def deleteLocksOf (db : GraphDatabase) (nodeId : String) : GraphDatabase :=
  { db with locks := Table.delete (fun lock => lock.ownerNodeId = nodeId) db.locks }

def purgeLocks (db : GraphDatabase) (nowMs : Int) : GraphDatabase :=
  { db with locks := Table.delete (fun lock => lock.leaseExpiresAtMs ≤ nowMs) db.locks }

section Release

-- What a release does to the difference: `clampZero` in the code.
variable (floor : Int → Int)

def releaseBudget (node : NodeRow) (parentId : String) (nowMs : Int) (ledger : List LedgerRow)
    (budget : String × Nat) : List LedgerRow :=
  Table.update (isLedgerOf node.graphId parentId budget.1)
    (fun row => { row with reserved := floor (row.reserved - budget.2), updatedAtMs := nowMs })
    ledger

/-- `_release_parent_budget`. -/
def releaseParentBudget (db : GraphDatabase) (node : NodeRow) (nowMs : Int) : GraphDatabase :=
  match node.parentNodeId with
  | none => db
  | some parentId =>
      { db with
        ledger := node.spec.budgets.foldl (releaseBudget floor node parentId nowMs) db.ledger }

/-- The body of the loop of `_block_dependents`. -/
def blockNode (nowMs : Int) (db : GraphDatabase) (row : NodeRow) : GraphDatabase :=
  wakeParent (releaseParentBudget floor (settleNode db row.nodeId .blocked nowMs) row nowMs)
    row.parentNodeId nowMs

/-- `_block_dependents`. The rows are read before the first of them is blocked. -/
def blockDependents (db : GraphDatabase) (predecessorNodeId : String) (nowMs : Int) :
    GraphDatabase :=
  (openDependents db predecessorNodeId).foldl (blockNode floor nowMs) db

end Release

/-! ### The transactions -/

structure CreateGraph where
  rootRunId : String
  tenantKey : String
  rootSpec : NodeSpec
  limits : GraphLimits := {}
deriving DecidableEq, Repr

def createGraph (args : CreateGraph) (graphId rootNodeId : String) (nowMs : Int)
    (db : GraphDatabase) : Except PyError (Unit × GraphDatabase) :=
  if db.graphs.any fun row =>
      row.graphId = graphId || row.rootRunId = args.rootRunId || row.rootNodeId = rootNodeId then
    .error (.integrityError "UNIQUE constraint failed: runtime_graphs")
  else do
    let db := { db with graphs := db.graphs ++
      [⟨graphId, args.rootRunId, rootNodeId, args.tenantKey, .active, args.limits, nowMs⟩] }
    let db ← insertNode db rootNodeId graphId none "/root" args.rootSpec 1 .ready nowMs
    .ok ((), db)

/-- The edges of a new node, under the primary key. -/
def insertEdges (db : GraphDatabase) (graphId nodeId : String) :
    List String → Except PyError GraphDatabase
  | [] => .ok db
  | dependencyId :: rest =>
      if (⟨graphId, dependencyId, nodeId⟩ : EdgeRow) ∈ db.edges then
        .error (.integrityError "UNIQUE constraint failed: runtime_agent_edges")
      else insertEdges { db with edges := db.edges ++ [⟨graphId, dependencyId, nodeId⟩] }
        graphId nodeId rest

/-- A parent that is not at work waits for its child. -/
def suspendParent (db : GraphDatabase) (parent : NodeRow) (nowMs : Int) : GraphDatabase :=
  if parent.status = .ready ∨ parent.status = .interrupted then
    setNodes db (fun row => row.nodeId = parent.nodeId)
      fun row => { row with status := .waiting, updatedAtMs := nowMs }
  else db

def spawnChild (graphId parentNodeId : String) (spec : NodeSpec) (ready : Bool)
    (nodeId : String) (nowMs : Int) (db : GraphDatabase) :
    Except PyError (AgentNode × GraphDatabase) :=
  match (findGraph db graphId).filter fun graph => graph.status = .active with
  | none => .error (.runtimeError "graph is not active")
  | some graph =>
      match db.nodes.find? fun row => row.nodeId = parentNodeId && row.graphId = graphId with
      | none => .error (.lookupError "parent node does not exist in graph")
      | some parent =>
          if graph.limits.maxNodes ≤ db.nodes.countP fun row => row.graphId = graphId then
            .error (.valueError "graph node limit exceeded")
          else if graph.limits.maxDepth < parent.depth + 1 then
            .error (.valueError "graph depth limit exceeded")
          else if !spec.dependencyNodeIds.all fun dependencyId =>
              db.nodes.any fun row => row.graphId = graphId && row.nodeId = dependencyId then
            .error (.valueError "dependency does not belong to graph")
          else do
            let db ← reserveParentBudget graphId parentNodeId nowMs spec.budgets
              (suspendParent db parent nowMs)
            let path := parent.canonicalPath ++ "/" ++ spec.name
            let status := if ready then .ready else .created
            let db ← insertNode db nodeId graphId (some parentNodeId) path spec (parent.depth + 1)
              status nowMs
            let db ← insertEdges db graphId nodeId spec.dependencyNodeIds
            .ok ({ nodeId, graphId, parentNodeId := some parentNodeId, canonicalPath := path, spec
                   depth := parent.depth + 1, status }, db)

def activateNode (nodeId : String) (nowMs : Int) (db : GraphDatabase) :
    Except PyError (AgentNode × GraphDatabase) :=
  let isCreated (row : NodeRow) : Bool := row.nodeId = nodeId && row.status = .created
  let updated := Table.rowcount isCreated db.nodes
  let db := setNodes db isCreated fun row => { row with status := .ready, updatedAtMs := nowMs }
  match findNode db nodeId with
  | none => .error (.lookupError "Agent node does not exist")
  | some row =>
      if updated ≠ 1 ∧ row.status ≠ .ready then
        .error (.runtimeError "only a created node can be activated")
      else .ok (nodeOf db row, db)

/-- `UPDATE … WHERE status = 'running' AND lease_expires_at_ms <= ?`. -/
def expireLeases (db : GraphDatabase) (graphId : String) (nowMs : Int) : GraphDatabase :=
  setNodes db (fun row => row.graphId = graphId && row.status = .running &&
    row.leaseExpiresAtMs.any (· ≤ nowMs)) (unleased .ready nowMs)

def runningCount (db : GraphDatabase) (graphId : String) : Nat :=
  db.nodes.countP fun row => row.graphId = graphId && row.status = .running

/-- The `WHERE` clause of the selection in `lease_ready`. -/
def isLeasable (db : GraphDatabase) (graphId : String) (nowMs : Int) (row : NodeRow) : Bool :=
  row.graphId = graphId && (row.status = .ready || row.status = .interrupted) &&
    row.spec.deadlineMs.all (nowMs < ·) && !hasOpenChild db row.nodeId &&
    !db.edges.any fun edge =>
      edge.graphId = row.graphId && edge.dependentNodeId = row.nodeId &&
        db.nodes.any fun p => p.nodeId = edge.predecessorNodeId && p.status ≠ .completed

/-- `ORDER BY depth DESC, created_at_ms, node_id`. -/
def leaseLe (a b : NodeRow) : Bool :=
  if a.depth ≠ b.depth then b.depth < a.depth
  else if a.createdAtMs ≠ b.createdAtMs then a.createdAtMs < b.createdAtMs
  else a.nodeId ≤ b.nodeId

structure LeaseReady where
  workerId : String
  nowMs : Int
  leaseMs : Int
  limit : Nat
deriving DecidableEq, Repr

def leasedRow (args : LeaseReady) (row : NodeRow) : NodeRow :=
  { row with
    status := .running, leaseOwner := some args.workerId
    leaseExpiresAtMs := some (args.nowMs + args.leaseMs), attemptCount := row.attemptCount + 1
    updatedAtMs := args.nowMs }

/-- The rows that the selection returns, after the expired leases are reset. -/
def leaseSelection (graph : GraphRow) (args : LeaseReady) (db : GraphDatabase) : List NodeRow :=
  let capacity := min args.limit (graph.limits.maxConcurrency - runningCount db graph.graphId)
  ((db.nodes.filter (isLeasable db graph.graphId args.nowMs)).insertionSort
    fun a b => leaseLe a b).take capacity

def leaseReady (graphId : String) (args : LeaseReady) (db : GraphDatabase) :
    Except PyError (List AgentNode × GraphDatabase) :=
  if args.leaseMs < 1 ∨ args.limit < 1 ∨ args.workerId = "" then
    .error (.valueError "worker, lease, and limit must be positive")
  else
    let db := purgeLocks (expireLeases db graphId args.nowMs) args.nowMs
    match (findGraph db graphId).filter fun graph => graph.status = .active with
    | none => .ok ([], db)
    | some graph =>
        let rows := leaseSelection graph args db
        .ok (rows.map fun row => nodeOf db (leasedRow args row),
          setNodes db (fun row => rows.any fun leased => leased.nodeId = row.nodeId)
            (leasedRow args))

/-- The row that `fail_node` and `complete_node` look for. -/
def ownedNode (db : GraphDatabase) (nodeId workerId : String) : Except PyError NodeRow :=
  match db.nodes.find? fun row =>
      row.nodeId = nodeId && row.status = .running && row.leaseOwner = some workerId with
  | some row => .ok row
  | none => .error (.runtimeError "Agent node lease is not owned by worker")

def failNode (floor : Int → Int) (nodeId workerId : String) (nowMs : Int) (db : GraphDatabase) :
    Except PyError (Unit × GraphDatabase) := do
  let node ← ownedNode db nodeId workerId
  let db := deleteLocksOf (settleNode db nodeId .failed nowMs) nodeId
  let db := blockDependents floor (releaseParentBudget floor db node nowMs) nodeId nowMs
  .ok ((), wakeParent db node.parentNodeId nowMs)

def interruptNode (nodeId : String) (nowMs : Int) (db : GraphDatabase) :
    Except PyError (Unit × GraphDatabase) :=
  let isInterruptible (row : NodeRow) : Bool := row.nodeId = nodeId &&
    (row.status = .ready || row.status = .running || row.status = .waiting)
  if Table.rowcount isInterruptible db.nodes ≠ 1 then
    .error (.runtimeError "Agent node is not interruptible")
  else .ok ((), deleteLocksOf (setNodes db isInterruptible (unleased .interrupted nowMs)) nodeId)

def draftedArtifact (node : NodeRow) (draft : ArtifactDraft) (artifactId : String) : Artifact :=
  ⟨artifactId, node.graphId, node.nodeId, draft.artifactType, draft.payload, draft.sourceVersions,
    draft.verificationState⟩

def recordArtifact (db : GraphDatabase) (artifact : Artifact) (nowMs : Int) : GraphDatabase :=
  { db with artifacts := db.artifacts ++ [⟨artifact, nowMs⟩] }

def completeNode (floor : Int → Int) (nodeId workerId : String) (draft : ArtifactDraft)
    (artifactId : String) (nowMs : Int) (db : GraphDatabase) :
    Except PyError (Artifact × GraphDatabase) := do
  let node ← ownedNode db nodeId workerId
  if db.artifacts.any fun row => row.artifact.artifactId = artifactId then
    .error (.integrityError "UNIQUE constraint failed: runtime_artifacts.artifact_id")
  else
    let artifact := draftedArtifact node draft artifactId
    let db := deleteLocksOf (settleNode (recordArtifact db artifact nowMs) nodeId .completed nowMs)
      nodeId
    .ok (artifact, wakeParent (releaseParentBudget floor db node nowMs) node.parentNodeId nowMs)

/-- The recursive query of `cancel_subtree`, one generation after the other. -/
def descendants (nodes : List NodeRow) : Nat → List String → List String
  | 0, _ => []
  | generations + 1, current =>
      current ++ descendants nodes generations (current.flatMap fun nodeId =>
        (nodes.filter fun row => row.parentNodeId = some nodeId).map NodeRow.nodeId)

/-- The body of the first loop of `cancel_subtree`. -/
def cancelNode (floor : Int → Int) (nowMs : Int) (db : GraphDatabase) (nodeId : String) :
    GraphDatabase :=
  match (findNode db nodeId).filter fun row => !row.status.isTerminal with
  | none => db
  | some row =>
      let db := deleteLocksOf (settleNode db nodeId .cancelled nowMs) nodeId
      blockDependents floor (releaseParentBudget floor db row nowMs) nodeId nowMs

/-- The parents outside of the subtree. -/
def outerParents (db : GraphDatabase) (ids : List String) : List String :=
  (ids.filterMap fun nodeId => (findNode db nodeId).bind NodeRow.parentNodeId).filter
    fun parentId => !ids.contains parentId

/-- The second loop of `cancel_subtree`. -/
def wakeParents (db : GraphDatabase) (parents : List String) (nowMs : Int) : GraphDatabase :=
  parents.foldl (fun db parentId => wakeParent db (some parentId) nowMs) db

def cancelGraphOf (db : GraphDatabase) (nodeId : String) (nowMs : Int) : GraphDatabase :=
  { db with
    graphs := Table.update (fun graph => graph.rootNodeId = nodeId && graph.status = .active)
      (fun graph => { graph with status := .cancelled, updatedAtMs := nowMs }) db.graphs }

/-- The identifiers that `cancel_subtree` selects. -/
def subtree (db : GraphDatabase) (nodeId : String) : List String :=
  descendants db.nodes db.nodes.length ((findNode db nodeId).toList.map NodeRow.nodeId)

def cancelSubtree (floor : Int → Int) (nodeId : String) (nowMs : Int) (db : GraphDatabase) :
    Except PyError (List String × GraphDatabase) :=
  let ids := subtree db nodeId
  let db := ids.foldl (cancelNode floor nowMs) db
  .ok (ids, cancelGraphOf (wakeParents db (outerParents db ids) nowMs) nodeId nowMs)

def finishGraph (graphId nodeId : String) (status : GraphStatus) (nowMs : Int)
    (db : GraphDatabase) : Except PyError (Unit × GraphDatabase) :=
  if status = .active then .error (.valueError "finish_graph requires a terminal status")
  else
    match findGraph db graphId with
    | none => .error (.lookupError "graph does not exist")
    | some graph =>
        if graph.rootNodeId ≠ nodeId then
          .error (.permissionError "only the root Agent may publish the terminal result")
        else if graph.status ≠ .active then .error (.runtimeError "graph is already terminal")
        else .ok ((), { db with
          graphs := Table.update (fun row => row.graphId = graphId)
            (fun row => { row with status, updatedAtMs := nowMs }) db.graphs })

/-! ### Mail -/

structure SendMail where
  graphId : String
  senderNodeId : String
  recipientNodeId : String
  kind : MailboxKind
  payload : List (String × Json)
  correlationId : Option String
deriving DecidableEq, Repr

/-- The row has the correlation identity of the call. -/
def isCorrelated (args : SendMail) (item : MailboxItem) : Bool :=
  args.correlationId.isSome && item.graphId = args.graphId &&
    item.senderNodeId = args.senderNodeId && item.recipientNodeId = args.recipientNodeId &&
    item.kind = args.kind && item.correlationId = args.correlationId

/-- `COALESCE(MAX(sequence), 0) + 1`. -/
def nextSequence (db : GraphDatabase) (recipientNodeId : String) : Nat :=
  ((db.mailbox.filter fun item => item.recipientNodeId = recipientNodeId).map
    MailboxItem.sequence).foldl max 0 + 1

def newMail (args : SendMail) (itemId : String) (sequence : Nat) : MailboxItem :=
  ⟨itemId, args.graphId, args.senderNodeId, args.recipientNodeId, args.kind, sequence,
    args.payload, .pending, args.correlationId⟩

/-- The insertion under the primary key, the unique sequence and the correlation index. -/
def insertMail (args : SendMail) (item : MailboxItem) (db : GraphDatabase) :
    Except PyError GraphDatabase :=
  if db.mailbox.any fun row => row.itemId = item.itemId then
    .error (.integrityError "UNIQUE constraint failed: runtime_mailbox.item_id")
  else if db.mailbox.any fun row =>
      row.recipientNodeId = item.recipientNodeId && row.sequence = item.sequence then
    .error (.integrityError
      "UNIQUE constraint failed: runtime_mailbox.recipient_node_id, runtime_mailbox.sequence")
  else if db.mailbox.any (isCorrelated args) then
    .error (.integrityError ("UNIQUE constraint failed: runtime_mailbox.graph_id, " ++
      "runtime_mailbox.sender_node_id, runtime_mailbox.recipient_node_id, " ++
      "runtime_mailbox.kind, runtime_mailbox.correlation_id"))
  else .ok { db with mailbox := db.mailbox ++ [item] }

def sendMail (args : SendMail) (itemId : String) (db : GraphDatabase) :
    Except PyError (MailboxItem × GraphDatabase) :=
  let isMember (nodeId : String) : Bool :=
    db.nodes.any fun row => row.graphId = args.graphId && row.nodeId = nodeId
  if !(isMember args.senderNodeId && isMember args.recipientNodeId) then
    .error (.valueError "mail sender and recipient must belong to graph")
  else
    match db.mailbox.find? (isCorrelated args) with
    | some item =>
        if !Json.same (.obj item.payload) (.obj args.payload) then
          .error (.runtimeError "mailbox correlation identity collision")
        else .ok (item, db)
    | none =>
        let item := newMail args itemId (nextSequence db args.recipientNodeId)
        (insertMail args item db).map fun after => (item, after)

def receiveMail (nodeId : String) (db : GraphDatabase) : List MailboxItem × GraphDatabase :=
  let items := (db.mailbox.filter fun item =>
    item.recipientNodeId = nodeId && item.state ≠ .acknowledged).insertionSort
      fun a b => a.sequence ≤ b.sequence
  (items.map fun item => { item with state := .delivered },
    { db with
      mailbox := Table.update (fun item => item.recipientNodeId = nodeId && item.state = .pending)
        (fun item => { item with state := .delivered }) db.mailbox })

def isMailTo (itemId nodeId : String) (item : MailboxItem) : Bool :=
  item.itemId = itemId && item.recipientNodeId = nodeId

def acknowledgeMail (itemId nodeId : String) (db : GraphDatabase) :
    Except PyError (Unit × GraphDatabase) :=
  if Table.rowcount (isMailTo itemId nodeId) db.mailbox ≠ 1 then
    .error (.lookupError "mailbox item does not belong to recipient")
  else .ok ((), { db with
    mailbox := Table.update (isMailTo itemId nodeId)
      (fun item => { item with state := .acknowledged }) db.mailbox })

/-! ### Locks -/

def isLockOf (tenantKey resourceType resourceId : String) (lock : LockRow) : Bool :=
  lock.tenantKey = tenantKey && lock.resourceType = resourceType && lock.resourceId = resourceId

/-- The insertion, and the renewal when the primary key is taken: `false` when
another owner holds the lock. -/
def takeLock (db : GraphDatabase) (lock : LockRow) : Bool × GraphDatabase :=
  let isHeld := isLockOf lock.tenantKey lock.resourceType lock.resourceId
  match db.locks.find? isHeld with
  | none => (true, { db with locks := db.locks ++ [lock] })
  | some existing =>
      if existing.ownerNodeId ≠ lock.ownerNodeId then (false, db)
      else (true, { db with
        locks := Table.update isHeld (fun row =>
          { row with
            leaseExpiresAtMs := lock.leaseExpiresAtMs
            expectedRevision := lock.expectedRevision }) db.locks })

def acquireLock (graphId nodeId : String) (target : ResourceTarget) (nowMs leaseMs : Int)
    (db : GraphDatabase) : Except PyError (Bool × GraphDatabase) :=
  if leaseMs < 1 then .error (.valueError "resource lock lease must be positive")
  else if !db.nodes.any fun row => row.graphId = graphId && row.nodeId = nodeId &&
      (row.status = .created || row.status = .ready || row.status = .running) then
    .error (.valueError "lock owner must be a running node in the graph")
  else .ok (takeLock (purgeLocks db nowMs)
    ⟨target.tenantKey, target.resourceType, target.resourceId, graphId, nodeId,
      target.expectedRevision, nowMs + leaseMs⟩)

/-- The statuses of the root node that `acquire_root_write_scope` accepts. -/
def grantsRootWrites (status : NodeStatus) : Bool :=
  status = .created || status = .ready || status = .running

def acquireRootWriteScope (rootRunId tenantKey : String) (target : WriteScopeTarget)
    (nowMs leaseMs : Int) (db : GraphDatabase) : Except PyError (Option String × GraphDatabase) :=
  if rootRunId = "" ∨ tenantKey = "" ∨ leaseMs < 1 then
    .error (.valueError "root run, tenant, and positive lock lease are required")
  else
    match db.graphs.find? fun graph => graph.rootRunId = rootRunId with
    | none => .error (.lookupError "root Agent graph is unavailable")
    | some graph =>
        match findNode db graph.rootNodeId with
        | none => .error (.lookupError "root Agent graph is unavailable")
        | some root =>
            if graph.tenantKey ≠ tenantKey then
              .error (.permissionError "root Agent tenant binding does not match the graph")
            else if graph.status ≠ .active ∨ !grantsRootWrites root.status then
              .error (.lookupError "root Agent graph is no longer active")
            else
              let (granted, db) := takeLock (purgeLocks db nowMs)
                ⟨tenantKey, target.resourceType, target.resourceId, graph.graphId,
                  graph.rootNodeId, target.expectedRevision, nowMs + leaseMs⟩
              .ok (if granted then some graph.rootNodeId else none, db)

def releaseLocks (nodeId : String) (db : GraphDatabase) : GraphDatabase :=
  deleteLocksOf db nodeId

def releaseWriteScope (ownerId : String) (target : WriteScopeTarget) (db : GraphDatabase) :
    GraphDatabase :=
  { db with locks := Table.delete (fun lock => lock.ownerNodeId = ownerId &&
      lock.resourceType = target.resourceType && lock.resourceId = target.resourceId) db.locks }

/-- `list_locks`, which deletes the expired ones first. -/
def listLocks (nodeId : String) (nowMs : Int) (db : GraphDatabase) :
    List WriteScopeTarget × GraphDatabase :=
  let db := purgeLocks db nowMs
  (((db.locks.filter fun lock => lock.ownerNodeId = nodeId).insertionSort fun a b =>
      if a.resourceType ≠ b.resourceType then a.resourceType < b.resourceType
      else a.resourceId ≤ b.resourceId).map fun lock =>
        ⟨lock.resourceType, lock.resourceId, lock.expectedRevision⟩, db)

def ownsWriteScope (ownerId : String) (targets : List WriteScopeTarget) (nowMs : Int)
    (db : GraphDatabase) : Bool × GraphDatabase :=
  if targets = [] then (false, db)
  else
    let db := purgeLocks db nowMs
    (targets.all fun target => db.locks.any fun lock => lock.ownerNodeId = ownerId &&
      lock.resourceType = target.resourceType && lock.resourceId = target.resourceId &&
      lock.expectedRevision = target.expectedRevision, db)

/-- The `WHERE` clause of the renewal, which names no tenant. -/
def isRenewable (ownerId : String) (nowMs : Int) (target : WriteScopeTarget) (lock : LockRow) :
    Bool :=
  lock.ownerNodeId = ownerId && lock.resourceType = target.resourceType &&
    lock.resourceId = target.resourceId && lock.expectedRevision = target.expectedRevision &&
    nowMs < lock.leaseExpiresAtMs

def renewTarget (db : GraphDatabase) (ownerId : String) (nowMs leaseMs : Int)
    (target : WriteScopeTarget) : GraphDatabase :=
  { db with
    locks := Table.update (isRenewable ownerId nowMs target)
      (fun lock => { lock with leaseExpiresAtMs := nowMs + leaseMs }) db.locks }

/-- The loop of `renew_write_scope`. What was renewed before a refusal is committed. -/
def renewTargets (ownerId : String) (nowMs leaseMs : Int) :
    List WriteScopeTarget → GraphDatabase → Bool × GraphDatabase
  | [], db => (true, db)
  | target :: rest, db =>
      let after := renewTarget db ownerId nowMs leaseMs target
      if Table.rowcount (isRenewable ownerId nowMs target) db.locks ≠ 1 then (false, after)
      else renewTargets ownerId nowMs leaseMs rest after

def renewWriteScope (ownerId : String) (targets : List WriteScopeTarget) (nowMs leaseMs : Int)
    (db : GraphDatabase) : Bool × GraphDatabase :=
  if targets = [] ∨ leaseMs < 1 then (false, db)
  else renewTargets ownerId nowMs leaseMs targets db

end AgentStore

end Codex2Lark
