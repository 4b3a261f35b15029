import Codex2Lark.Lib.Runs
import Codex2Lark.Storage.AgentStore
import Mathlib.Logic.Relation

/-!
Runs of the agent graph store: one label for each of its transactions. What a
transaction does to the nodes, their ledger and the graphs is a sequence of the
moves of `GraphMove`, apart from the two transactions that create a node.
-/

namespace Codex2Lark

open Lib

inductive GraphOp where
  | createGraph (args : AgentStore.CreateGraph) (graphId rootNodeId : String) (nowMs : Int)
  | spawnChild (graphId parentNodeId : String) (spec : NodeSpec) (ready : Bool)
      (nodeId : String) (nowMs : Int)
  | activateNode (nodeId : String) (nowMs : Int)
  | leaseReady (graphId : String) (args : AgentStore.LeaseReady)
  | failNode (nodeId workerId : String) (nowMs : Int)
  | interruptNode (nodeId : String) (nowMs : Int)
  | completeNode (nodeId workerId : String) (draft : ArtifactDraft) (artifactId : String)
      (nowMs : Int)
  | cancelSubtree (nodeId : String) (nowMs : Int)
  | finishGraph (graphId nodeId : String) (status : GraphStatus) (nowMs : Int)
  | sendMail (args : AgentStore.SendMail) (itemId : String)
  | receiveMail (nodeId : String)
  | acknowledgeMail (itemId nodeId : String)
  | acquireLock (graphId nodeId : String) (target : ResourceTarget) (nowMs leaseMs : Int)
  | releaseLocks (nodeId : String)
  | acquireRootWriteScope (rootRunId tenantKey : String) (target : WriteScopeTarget)
      (nowMs leaseMs : Int)
  | releaseWriteScope (ownerId : String) (target : WriteScopeTarget)
  | listLocks (nodeId : String) (nowMs : Int)
  | ownsWriteScope (ownerId : String) (targets : List WriteScopeTarget) (nowMs : Int)
  | renewWriteScope (ownerId : String) (targets : List WriteScopeTarget) (nowMs leaseMs : Int)
deriving DecidableEq, Repr

/-- The columns that no transaction writes after the insertion. -/
structure NodeRow.Same (a b : NodeRow) : Prop where
  nodeId : a.nodeId = b.nodeId
  graphId : a.graphId = b.graphId
  parentNodeId : a.parentNodeId = b.parentNodeId
  canonicalPath : a.canonicalPath = b.canonicalPath
  spec : a.spec = b.spec
  depth : a.depth = b.depth

namespace NodeRow

theorem Same.refl (row : NodeRow) : row.Same row := ⟨rfl, rfl, rfl, rfl, rfl, rfl⟩

theorem Same.trans {a b c : NodeRow} (hab : a.Same b) (hbc : b.Same c) : a.Same c :=
  ⟨hab.1.trans hbc.1, hab.2.trans hbc.2, hab.3.trans hbc.3, hab.4.trans hbc.4, hab.5.trans hbc.5,
    hab.6.trans hbc.6⟩

end NodeRow

/-- The key of a ledger row and what it was opened with. -/
structure LedgerRow.Same (a b : LedgerRow) : Prop where
  graphId : a.graphId = b.graphId
  nodeId : a.nodeId = b.nodeId
  budgetKind : a.budgetKind = b.budgetKind
  maximum : a.maximum = b.maximum
  consumed : a.consumed = b.consumed

structure GraphRow.Same (a b : GraphRow) : Prop where
  graphId : a.graphId = b.graphId
  rootRunId : a.rootRunId = b.rootRunId
  rootNodeId : a.rootNodeId = b.rootNodeId
  tenantKey : a.tenantKey = b.tenantKey
  limits : a.limits = b.limits

theorem LedgerRow.Same.refl (row : LedgerRow) : row.Same row := ⟨rfl, rfl, rfl, rfl, rfl⟩

theorem LedgerRow.Same.trans {a b c : LedgerRow} (hab : a.Same b) (hbc : b.Same c) : a.Same c :=
  ⟨hab.1.trans hbc.1, hab.2.trans hbc.2, hab.3.trans hbc.3, hab.4.trans hbc.4, hab.5.trans hbc.5⟩

theorem GraphRow.Same.refl (row : GraphRow) : row.Same row := ⟨rfl, rfl, rfl, rfl, rfl⟩

theorem GraphRow.Same.trans {a b c : GraphRow} (hab : a.Same b) (hbc : b.Same c) : a.Same c :=
  ⟨hab.1.trans hbc.1, hab.2.trans hbc.2, hab.3.trans hbc.3, hab.4.trans hbc.4, hab.5.trans hbc.5⟩

namespace GraphOp

open AgentStore

/-- The database after the transaction; one that raised leaves it as it was. -/
def apply (floor : Int → Int) : GraphOp → GraphDatabase → GraphDatabase
  | .createGraph args graphId rootNodeId nowMs, db =>
      (db.transaction (AgentStore.createGraph args graphId rootNodeId nowMs)).2
  | .spawnChild graphId parentNodeId spec ready nodeId nowMs, db =>
      (db.transaction (AgentStore.spawnChild graphId parentNodeId spec ready nodeId nowMs)).2
  | .activateNode nodeId nowMs, db => (db.transaction (AgentStore.activateNode nodeId nowMs)).2
  | .leaseReady graphId args, db => (db.transaction (AgentStore.leaseReady graphId args)).2
  | .failNode nodeId workerId nowMs, db =>
      (db.transaction (AgentStore.failNode floor nodeId workerId nowMs)).2
  | .interruptNode nodeId nowMs, db => (db.transaction (AgentStore.interruptNode nodeId nowMs)).2
  | .completeNode nodeId workerId draft artifactId nowMs, db =>
      (db.transaction (AgentStore.completeNode floor nodeId workerId draft artifactId nowMs)).2
  | .cancelSubtree nodeId nowMs, db =>
      (db.transaction (AgentStore.cancelSubtree floor nodeId nowMs)).2
  | .finishGraph graphId nodeId status nowMs, db =>
      (db.transaction (AgentStore.finishGraph graphId nodeId status nowMs)).2
  | .sendMail args itemId, db => (db.transaction (AgentStore.sendMail args itemId)).2
  | .receiveMail nodeId, db => (AgentStore.receiveMail nodeId db).2
  | .acknowledgeMail itemId nodeId, db =>
      (db.transaction (AgentStore.acknowledgeMail itemId nodeId)).2
  | .acquireLock graphId nodeId target nowMs leaseMs, db =>
      (db.transaction (AgentStore.acquireLock graphId nodeId target nowMs leaseMs)).2
  | .releaseLocks nodeId, db => AgentStore.releaseLocks nodeId db
  | .acquireRootWriteScope rootRunId tenantKey target nowMs leaseMs, db =>
      (db.transaction
        (AgentStore.acquireRootWriteScope rootRunId tenantKey target nowMs leaseMs)).2
  | .releaseWriteScope ownerId target, db => AgentStore.releaseWriteScope ownerId target db
  | .listLocks nodeId nowMs, db => (AgentStore.listLocks nodeId nowMs db).2
  | .ownsWriteScope ownerId targets nowMs, db =>
      (AgentStore.ownsWriteScope ownerId targets nowMs db).2
  | .renewWriteScope ownerId targets nowMs leaseMs, db =>
      (AgentStore.renewWriteScope ownerId targets nowMs leaseMs db).2

def step (floor : Int → Int) (db : GraphDatabase) (op : GraphOp) : Option GraphDatabase :=
  some (op.apply floor db)

end GraphOp

/-! ### The moves -/

/-- An open node that is not leased becomes ready, or an open node gives its
lease up. -/
inductive NodeMove : NodeRow → NodeRow → Prop
  | ready {row : NodeRow} (nowMs : Int) (hopen : row.status.isTerminal = false)
      (hidle : row.status ≠ .running) :
      NodeMove row { row with status := .ready, updatedAtMs := nowMs }
  | unlease {row : NodeRow} (status : NodeStatus) (nowMs : Int)
      (hopen : row.status.isTerminal = false) (hstatus : status = .ready ∨ status = .interrupted) :
      NodeMove row (AgentStore.unleased status nowMs row)

open AgentStore in
/-- The moves that neither end a node nor make one wait. -/
inductive QuietMove : GraphDatabase → GraphDatabase → Prop
  /-- Locks, artifacts and mail. -/
  | side {db after : GraphDatabase} (hgraphs : after.graphs = db.graphs)
      (hnodes : after.nodes = db.nodes) (hedges : after.edges = db.edges)
      (hledger : after.ledger = db.ledger) : QuietMove db after
  | rows {db : GraphDatabase} (cond : NodeRow → Bool) (change : NodeRow → NodeRow)
      (hmoves : ∀ row ∈ db.nodes, cond row = true → NodeMove row (change row)) :
      QuietMove db (setNodes db cond change)
  | lease {db : GraphDatabase} (graph : GraphRow) (args : LeaseReady) (hgraph : graph ∈ db.graphs) :
      QuietMove db (setNodes db
        (fun row => (leaseSelection graph args db).any fun leased => leased.nodeId = row.nodeId)
        (leasedRow args))
  | graphStatus {db : GraphDatabase} (cond : GraphRow → Bool) (status : GraphStatus)
      (nowMs : Int) (hended : status ≠ .active) :
      QuietMove db { db with
        graphs := Table.update cond
          (fun graph => { graph with status, updatedAtMs := nowMs }) db.graphs }

open AgentStore in
inductive GraphMove (floor : Int → Int) : GraphDatabase → GraphDatabase → Prop
  | quiet {db after : GraphDatabase} (hquiet : QuietMove db after) : GraphMove floor db after
  | suspend {db : GraphDatabase} {parent : NodeRow} (nowMs : Int) (hparent : parent ∈ db.nodes)
      (hidle : parent.status = .ready ∨ parent.status = .interrupted) :
      GraphMove floor db (setNodes db (fun row => row.nodeId = parent.nodeId)
        fun row => { row with status := .waiting, updatedAtMs := nowMs })
  | close {db : GraphDatabase} {row : NodeRow} (status : NodeStatus) (nowMs : Int)
      (hrow : row ∈ db.nodes) (hopen : row.status.isTerminal = false)
      (hterminal : status.isTerminal = true) :
      GraphMove floor db
        (releaseParentBudget floor (settleNode db row.nodeId status nowMs) row nowMs)

/-- The frame of a move. -/
structure GraphFrame (db after : GraphDatabase) : Prop where
  graphs : List.Forall₂ GraphRow.Same db.graphs after.graphs
  nodes : List.Forall₂ NodeRow.Same db.nodes after.nodes
  edges : after.edges = db.edges
  ledger : List.Forall₂ LedgerRow.Same db.ledger after.ledger

theorem GraphFrame.refl (db : GraphDatabase) : GraphFrame db db :=
  ⟨List.forall₂_same.mpr fun row _ => .refl row, List.forall₂_same.mpr fun row _ => .refl row,
    rfl, List.forall₂_same.mpr fun row _ => .refl row⟩

theorem GraphFrame.trans {a b c : GraphDatabase} (hab : GraphFrame a b) (hbc : GraphFrame b c) :
    GraphFrame a c :=
  ⟨Table.Forall₂.trans (fun _ _ _ => GraphRow.Same.trans) hab.graphs hbc.graphs,
    Table.Forall₂.trans (fun _ _ _ => NodeRow.Same.trans) hab.nodes hbc.nodes,
    hbc.edges.trans hab.edges,
    Table.Forall₂.trans (fun _ _ _ => LedgerRow.Same.trans) hab.ledger hbc.ledger⟩

theorem NodeMove.same {row moved : NodeRow} (hmove : NodeMove row moved) : row.Same moved := by
  cases hmove with
  | ready nowMs _ _ => exact ⟨rfl, rfl, rfl, rfl, rfl, rfl⟩
  | unlease status nowMs _ _ => exact ⟨rfl, rfl, rfl, rfl, rfl, rfl⟩

namespace AgentStore

variable {db : GraphDatabase}

@[simp] theorem setNodes_nodes (cond : NodeRow → Bool) (change : NodeRow → NodeRow) :
    (setNodes db cond change).nodes = Table.update cond change db.nodes := rfl

@[simp] theorem settleNode_nodes (nodeId : String) (status : NodeStatus) (nowMs : Int) :
    (settleNode db nodeId status nowMs).nodes =
      Table.update (fun row => row.nodeId = nodeId) (unleased status nowMs) db.nodes := rfl

variable {floor : Int → Int}

@[simp] theorem releaseParentBudget_nodes (node : NodeRow) (nowMs : Int) :
    (releaseParentBudget floor db node nowMs).nodes = db.nodes := by
  unfold releaseParentBudget
  split <;> rfl

@[simp] theorem releaseParentBudget_graphs (node : NodeRow) (nowMs : Int) :
    (releaseParentBudget floor db node nowMs).graphs = db.graphs := by
  unfold releaseParentBudget
  split <;> rfl

@[simp] theorem releaseParentBudget_edges (node : NodeRow) (nowMs : Int) :
    (releaseParentBudget floor db node nowMs).edges = db.edges := by
  unfold releaseParentBudget
  split <;> rfl

theorem setNodes_frame {cond : NodeRow → Bool} {change : NodeRow → NodeRow}
    (hsame : ∀ row ∈ db.nodes, cond row = true → row.Same (change row)) :
    GraphFrame db (setNodes db cond change) :=
  { GraphFrame.refl db with
    nodes := Table.forall₂_update hsame fun row _ _ => .refl row }

theorem releaseBudget_same (node : NodeRow) (parentId : String) (nowMs : Int)
    (ledger : List LedgerRow) (budget : String × Nat) :
    List.Forall₂ LedgerRow.Same ledger (releaseBudget floor node parentId nowMs ledger budget) :=
  Table.forall₂_update (fun _ _ _ => ⟨rfl, rfl, rfl, rfl, rfl⟩) fun row _ _ => .refl row

theorem releaseBudgets_same (node : NodeRow) (parentId : String) (nowMs : Int)
    (budgets : Dict String Nat) (ledger : List LedgerRow) :
    List.Forall₂ LedgerRow.Same ledger
      (budgets.foldl (releaseBudget floor node parentId nowMs) ledger) := by
  induction budgets generalizing ledger with
  | nil => exact List.forall₂_same.mpr fun row _ => .refl row
  | cons budget rest ih =>
      exact Table.Forall₂.trans (fun _ _ _ => LedgerRow.Same.trans)
        (releaseBudget_same node parentId nowMs ledger budget) (ih _)

theorem releaseParentBudget_frame (node : NodeRow) (nowMs : Int) :
    GraphFrame db (releaseParentBudget floor db node nowMs) := by
  refine ⟨?_, ?_, releaseParentBudget_edges node nowMs, ?_⟩
  · rw [releaseParentBudget_graphs]
    exact (GraphFrame.refl db).graphs
  · rw [releaseParentBudget_nodes]
    exact (GraphFrame.refl db).nodes
  · unfold releaseParentBudget
    split
    · exact (GraphFrame.refl db).ledger
    · exact releaseBudgets_same node _ nowMs _ _

end AgentStore

open AgentStore in
theorem QuietMove.frame {db after : GraphDatabase} (hmove : QuietMove db after) :
    GraphFrame db after := by
  cases hmove with
  | side hgraphs hnodes hedges hledger =>
      have hrefl := GraphFrame.refl db
      refine ⟨?_, ?_, hedges, ?_⟩
      · rw [hgraphs]
        exact hrefl.graphs
      · rw [hnodes]
        exact hrefl.nodes
      · rw [hledger]
        exact hrefl.ledger
  | rows cond change hmoves =>
      exact setNodes_frame fun row hrow hcond => (hmoves row hrow hcond).same
  | lease graph args hgraph =>
      exact setNodes_frame fun _ _ _ => ⟨rfl, rfl, rfl, rfl, rfl, rfl⟩
  | graphStatus cond status nowMs hended =>
      exact { GraphFrame.refl db with
        graphs := Table.forall₂_update (fun _ _ _ => ⟨rfl, rfl, rfl, rfl, rfl⟩)
          fun row _ _ => .refl row }

open AgentStore in
theorem GraphMove.frame {floor : Int → Int} {db after : GraphDatabase}
    (hmove : GraphMove floor db after) : GraphFrame db after := by
  cases hmove with
  | quiet hquiet => exact hquiet.frame
  | suspend nowMs hparent hidle =>
      exact setNodes_frame fun _ _ _ => ⟨rfl, rfl, rfl, rfl, rfl, rfl⟩
  | close status nowMs hrow hopen hterminal =>
      refine GraphFrame.trans (setNodes_frame ?_) (releaseParentBudget_frame _ nowMs)
      exact fun _ _ _ => ⟨rfl, rfl, rfl, rfl, rfl, rfl⟩

abbrev QuietMoves : GraphDatabase → GraphDatabase → Prop :=
  Relation.ReflTransGen QuietMove

abbrev GraphMoves (floor : Int → Int) : GraphDatabase → GraphDatabase → Prop :=
  Relation.ReflTransGen (GraphMove floor)

theorem QuietMoves.moves {floor : Int → Int} {db after : GraphDatabase}
    (hquiet : QuietMoves db after) : GraphMoves floor db after := by
  induction hquiet with
  | refl => exact .refl
  | tail _ hlast ih => exact .tail ih (.quiet hlast)

theorem GraphMoves.frame {floor : Int → Int} {db after : GraphDatabase}
    (hmoves : GraphMoves floor db after) : GraphFrame db after := by
  induction hmoves with
  | refl => exact GraphFrame.refl db
  | tail _ hlast ih => exact ih.trans hlast.frame

end Codex2Lark
