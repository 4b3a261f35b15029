import Codex2Lark.Storage.GraphOps

/-!
What holds of the tables of the agent graph store in every reachable state,
whatever the statuses: keys, references, depths and limits. Every transaction
that creates no node is a sequence of moves, so it keeps the shape.
-/

namespace Codex2Lark

open Lib

structure GraphShape (db : GraphDatabase) : Prop where
  graphIds : (db.graphs.map GraphRow.graphId).Nodup
  rootOf : ∀ graph ∈ db.graphs,
    ∃ row ∈ db.nodes, row.nodeId = graph.rootNodeId ∧ row.graphId = graph.graphId
  nodeIds : (db.nodes.map NodeRow.nodeId).Nodup
  graphOf : ∀ row ∈ db.nodes, ∃ graph ∈ db.graphs, graph.graphId = row.graphId
  parentOf : ∀ row ∈ db.nodes, ∀ parentId, row.parentNodeId = some parentId →
    ∃ parent ∈ db.nodes, parent.nodeId = parentId ∧ parent.graphId = row.graphId ∧
      row.depth = parent.depth + 1
  depthPos : ∀ row ∈ db.nodes, 1 ≤ row.depth
  depthLe : ∀ row ∈ db.nodes, row.depth ≤ db.nodes.length
  depthLimit : ∀ row ∈ db.nodes, ∀ graph ∈ db.graphs, graph.graphId = row.graphId →
    row.depth ≤ graph.limits.maxDepth
  nodeLimit : ∀ graph ∈ db.graphs,
    (db.nodes.countP fun row => row.graphId = graph.graphId) ≤ graph.limits.maxNodes
  edgeKeys : db.edges.Nodup
  predecessorOf : ∀ edge ∈ db.edges,
    ∃ row ∈ db.nodes, row.nodeId = edge.predecessorNodeId ∧ row.graphId = edge.graphId
  dependentOf : ∀ edge ∈ db.edges,
    ∃ row ∈ db.nodes, row.nodeId = edge.dependentNodeId ∧ row.graphId = edge.graphId
  ledgerKeys : (db.ledger.map fun row => (row.nodeId, row.budgetKind)).Nodup
  ledgerOf : ∀ row ∈ db.ledger,
    ∃ node ∈ db.nodes, node.nodeId = row.nodeId ∧ node.graphId = row.graphId

namespace GraphShape

theorem empty : GraphShape {} := by
  constructor <;> simp

variable {db after : GraphDatabase}

theorem node_eq (hshape : GraphShape db) {row other : NodeRow} (hrow : row ∈ db.nodes)
    (hother : other ∈ db.nodes) (hid : row.nodeId = other.nodeId) : row = other :=
  List.inj_on_of_nodup_map hshape.nodeIds hrow hother hid

theorem graph_eq (hshape : GraphShape db) {graph other : GraphRow} (hgraph : graph ∈ db.graphs)
    (hother : other ∈ db.graphs) (hid : graph.graphId = other.graphId) : graph = other :=
  List.inj_on_of_nodup_map hshape.graphIds hgraph hother hid

/-- A frame keeps the shape: each row of a table has its counterpart in the other. -/
theorem of_frame (hshape : GraphShape db) (hframe : GraphFrame db after) : GraphShape after := by
  have hback : ∀ row ∈ after.nodes, ∃ old ∈ db.nodes, old.Same row :=
    fun row hrow => Table.Forall₂.of_mem_right hframe.nodes hrow
  have hforth : ∀ old ∈ db.nodes, ∃ row ∈ after.nodes, old.Same row :=
    fun old hold => Table.Forall₂.of_mem_left hframe.nodes hold
  have hgraphBack : ∀ graph ∈ after.graphs, ∃ old ∈ db.graphs, old.Same graph :=
    fun graph hgraph => Table.Forall₂.of_mem_right hframe.graphs hgraph
  have hgraphForth : ∀ old ∈ db.graphs, ∃ graph ∈ after.graphs, old.Same graph :=
    fun old hold => Table.Forall₂.of_mem_left hframe.graphs hold
  have hlength : after.nodes.length = db.nodes.length := hframe.nodes.length_eq.symm
  refine
    { graphIds := ?_, rootOf := ?_, nodeIds := ?_, graphOf := ?_, parentOf := ?_, depthPos := ?_
      depthLe := ?_, depthLimit := ?_, nodeLimit := ?_, edgeKeys := ?_, predecessorOf := ?_
      dependentOf := ?_, ledgerKeys := ?_, ledgerOf := ?_ }
  · rw [Table.Forall₂.map_eq (fun _ _ hsame => hsame.graphId) hframe.graphs]
    exact hshape.graphIds
  · intro graph hgraph
    obtain ⟨old, hold, hsame⟩ := hgraphBack graph hgraph
    obtain ⟨row, hrow, hid, hin⟩ := hshape.rootOf old hold
    obtain ⟨new, hnew, hnewSame⟩ := hforth row hrow
    refine ⟨new, hnew, ?_, ?_⟩
    · rw [← hnewSame.nodeId, hid, hsame.rootNodeId]
    · rw [← hnewSame.graphId, hin, hsame.graphId]
  · rw [Table.Forall₂.map_eq (fun _ _ hsame => hsame.nodeId) hframe.nodes]
    exact hshape.nodeIds
  · intro row hrow
    obtain ⟨old, hold, hsame⟩ := hback row hrow
    obtain ⟨graph, hgraph, hid⟩ := hshape.graphOf old hold
    obtain ⟨new, hnew, hnewSame⟩ := hgraphForth graph hgraph
    exact ⟨new, hnew, by rw [← hnewSame.graphId, hid, hsame.graphId]⟩
  · intro row hrow parentId hparent
    obtain ⟨old, hold, hsame⟩ := hback row hrow
    obtain ⟨parent, hmem, hid, hin, hdepth⟩ :=
      hshape.parentOf old hold parentId (hsame.parentNodeId.trans hparent)
    obtain ⟨new, hnew, hnewSame⟩ := hforth parent hmem
    refine ⟨new, hnew, ?_, ?_, ?_⟩
    · rw [← hnewSame.nodeId, hid]
    · rw [← hnewSame.graphId, hin, hsame.graphId]
    · rw [← hsame.depth, hdepth, hnewSame.depth]
  · intro row hrow
    obtain ⟨old, hold, hsame⟩ := hback row hrow
    rw [← hsame.depth]
    exact hshape.depthPos old hold
  · intro row hrow
    obtain ⟨old, hold, hsame⟩ := hback row hrow
    rw [← hsame.depth, hlength]
    exact hshape.depthLe old hold
  · intro row hrow graph hgraph hid
    obtain ⟨old, hold, hsame⟩ := hback row hrow
    obtain ⟨oldGraph, holdGraph, hgraphSame⟩ := hgraphBack graph hgraph
    have hlimit := hshape.depthLimit old hold oldGraph holdGraph
      (by rw [hgraphSame.graphId, hid, hsame.graphId])
    rw [hsame.depth, hgraphSame.limits] at hlimit
    exact hlimit
  · intro graph hgraph
    obtain ⟨old, hold, hsame⟩ := hgraphBack graph hgraph
    have hcount : (after.nodes.countP fun row => row.graphId = graph.graphId) ≤
        db.nodes.countP fun row => row.graphId = graph.graphId := by
      apply Table.Forall₂.countP_le _ hframe.nodes
      intro a b hab hb
      simpa [hab.graphId] using hb
    have hlimit := hshape.nodeLimit old hold
    rw [hsame.graphId, hsame.limits] at hlimit
    exact hcount.trans hlimit
  · rw [hframe.edges]
    exact hshape.edgeKeys
  · intro edge hedge
    rw [hframe.edges] at hedge
    obtain ⟨row, hrow, hid, hin⟩ := hshape.predecessorOf edge hedge
    obtain ⟨new, hnew, hsame⟩ := hforth row hrow
    exact ⟨new, hnew, hsame.nodeId.symm.trans hid, hsame.graphId.symm.trans hin⟩
  · intro edge hedge
    rw [hframe.edges] at hedge
    obtain ⟨row, hrow, hid, hin⟩ := hshape.dependentOf edge hedge
    obtain ⟨new, hnew, hsame⟩ := hforth row hrow
    exact ⟨new, hnew, hsame.nodeId.symm.trans hid, hsame.graphId.symm.trans hin⟩
  · rw [Table.Forall₂.map_eq (fun _ _ hsame => by rw [hsame.nodeId, hsame.budgetKind])
      hframe.ledger]
    exact hshape.ledgerKeys
  · intro row hrow
    obtain ⟨old, hold, hsame⟩ := Table.Forall₂.of_mem_right hframe.ledger hrow
    obtain ⟨node, hnode, hid, hin⟩ := hshape.ledgerOf old hold
    obtain ⟨new, hnew, hnewSame⟩ := hforth node hnode
    refine ⟨new, hnew, ?_, ?_⟩
    · rw [← hnewSame.nodeId, hid, hsame.nodeId]
    · rw [← hnewSame.graphId, hin, hsame.graphId]

end GraphShape

/-! ### What the transactions that create a node did -/

namespace AgentStore

variable {db after : GraphDatabase}

theorem insertNode_ok {nodeId graphId path : String} {parentNodeId : Option String}
    {spec : NodeSpec} {depth : Nat} {status : NodeStatus} {nowMs : Int}
    (hok : insertNode db nodeId graphId parentNodeId path spec depth status nowMs = .ok after) :
    (∀ row ∈ db.nodes, row.nodeId ≠ nodeId) ∧
      after = { db with
        nodes := db.nodes ++ [newNode nodeId graphId parentNodeId path spec depth status nowMs]
        ledger := db.ledger ++ newLedger nodeId graphId spec nowMs } := by
  unfold insertNode at hok
  split at hok
  · cases hok
  · rename_i hfresh
    split at hok
    · cases hok
    · cases hok
      refine ⟨?_, rfl⟩
      intro row hrow hid
      exact hfresh (List.any_eq_true.mpr ⟨row, hrow, by simp [hid]⟩)

theorem insertEdges_ok {graphId nodeId : String} {dependencies : List String}
    (hok : insertEdges db graphId nodeId dependencies = .ok after) :
    after = { db with edges := db.edges ++ dependencies.map fun d => ⟨graphId, d, nodeId⟩ } ∧
      (db.edges.Nodup → after.edges.Nodup) := by
  induction dependencies generalizing db with
  | nil =>
      cases hok
      simp
  | cons dependencyId rest ih =>
      unfold insertEdges at hok
      split at hok
      · cases hok
      · rename_i hnew
        obtain ⟨hafter, hnodup⟩ := ih hok
        refine ⟨?_, ?_⟩
        · rw [hafter]
          simp
        · intro hkeys
          apply hnodup
          rw [List.nodup_append]
          refine ⟨hkeys, by simp, ?_⟩
          intro edge hedge other hother hsame
          rw [List.mem_singleton.mp hother] at hsame
          rw [hsame] at hedge
          exact hnew hedge

theorem reserveParentBudget_ok {graphId parentNodeId : String} {nowMs : Int}
    {budgets : Dict String Nat}
    (hok : reserveParentBudget graphId parentNodeId nowMs budgets db = .ok after) :
    after = { db with ledger := after.ledger } ∧
      List.Forall₂ LedgerRow.Same db.ledger after.ledger := by
  induction budgets generalizing db with
  | nil =>
      cases hok
      exact ⟨rfl, (GraphFrame.refl _).ledger⟩
  | cons budget rest ih =>
      obtain ⟨kind, amount⟩ := budget
      unfold reserveParentBudget at hok
      split at hok
      · cases hok
      · obtain ⟨hafter, hsame⟩ := ih hok
        refine ⟨hafter, ?_⟩
        refine Table.Forall₂.trans (fun _ _ _ => LedgerRow.Same.trans) ?_ hsame
        exact Table.forall₂_update (fun _ _ _ => ⟨rfl, rfl, rfl, rfl, rfl⟩) fun row _ _ => .refl row

theorem createGraph_ok {args : CreateGraph} {graphId rootNodeId : String} {nowMs : Int} {u : Unit}
    (hok : createGraph args graphId rootNodeId nowMs db = .ok (u, after)) :
    (∀ graph ∈ db.graphs, graph.graphId ≠ graphId ∧ graph.rootNodeId ≠ rootNodeId) ∧
      (∀ row ∈ db.nodes, row.nodeId ≠ rootNodeId) ∧
      after = { db with
        graphs := db.graphs ++
          [⟨graphId, args.rootRunId, rootNodeId, args.tenantKey, .active, args.limits, nowMs⟩]
        nodes := db.nodes ++
          [newNode rootNodeId graphId none "/root" args.rootSpec 1 .ready nowMs]
        ledger := db.ledger ++ newLedger rootNodeId graphId args.rootSpec nowMs } := by
  unfold createGraph at hok
  split at hok
  · cases hok
  · rename_i hfresh
    obtain ⟨inserted, hinsert, hdone⟩ := PyError.bind_eq_ok.mp hok
    cases hdone
    obtain ⟨hnode, rfl⟩ := insertNode_ok hinsert
    refine ⟨?_, hnode, rfl⟩
    intro graph hgraph
    have hany : ¬ (graph.graphId = graphId ∨ graph.rootRunId = args.rootRunId ∨
        graph.rootNodeId = rootNodeId) := by
      intro hsame
      apply hfresh
      exact List.any_eq_true.mpr ⟨graph, hgraph, by simpa [or_assoc] using hsame⟩
    exact ⟨fun h => hany (.inl h), fun h => hany (.inr (.inr h))⟩

/-- A created node becomes ready, and the node is returned as it is then. -/
theorem activateNode_ok {nodeId : String} {nowMs : Int} {node : AgentNode}
    (hok : activateNode nodeId nowMs db = .ok (node, after)) :
    after = setNodes db (fun row => row.nodeId = nodeId && row.status = .created)
        (fun row => { row with status := .ready, updatedAtMs := nowMs }) ∧
      ∃ row, findNode after nodeId = some row ∧ node = nodeOf after row := by
  unfold activateNode at hok
  dsimp only at hok
  split at hok
  · cases hok
  · rename_i row hrow
    split at hok
    · cases hok
    · cases hok
      exact ⟨rfl, row, hrow, rfl⟩

/-- What a lease does once the expired leases and locks are gone: nothing in a graph that is
not active. -/
inductive LeaseOutcome (db : GraphDatabase) (graphId : String) (args : LeaseReady) :
    List AgentNode → GraphDatabase → Prop
  | inactive
      (hnone : (findGraph db graphId).filter (fun graph => graph.status = .active) = none) :
      LeaseOutcome db graphId args [] (purgeLocks (expireLeases db graphId args.nowMs) args.nowMs)
  | selected {graph : GraphRow}
      (hgraph : (findGraph db graphId).filter (fun graph => graph.status = .active) = some graph) :
      LeaseOutcome db graphId args
        ((leaseSelection graph args
          (purgeLocks (expireLeases db graphId args.nowMs) args.nowMs)).map fun row =>
            nodeOf (purgeLocks (expireLeases db graphId args.nowMs) args.nowMs)
              (leasedRow args row))
        (setNodes (purgeLocks (expireLeases db graphId args.nowMs) args.nowMs) (fun row =>
          (leaseSelection graph args (purgeLocks (expireLeases db graphId args.nowMs)
            args.nowMs)).any fun leased => leased.nodeId = row.nodeId) (leasedRow args))

theorem leaseReady_ok {graphId : String} {args : LeaseReady} {leased : List AgentNode}
    (hok : leaseReady graphId args db = .ok (leased, after)) :
    (1 ≤ args.leaseMs ∧ 1 ≤ args.limit ∧ args.workerId ≠ "") ∧
      LeaseOutcome db graphId args leased after := by
  unfold leaseReady at hok
  split at hok
  · cases hok
  · rename_i hargs
    simp only [not_or, not_lt] at hargs
    refine ⟨hargs, ?_⟩
    dsimp only at hok
    split at hok
    · cases hok
      exact .inactive ‹_›
    · cases hok
      exact .selected ‹_›

theorem interruptNode_ok {nodeId : String} {nowMs : Int} {u : Unit}
    (hok : interruptNode nodeId nowMs db = .ok (u, after)) :
    after = deleteLocksOf (setNodes db (fun row => row.nodeId = nodeId &&
      (row.status = .ready || row.status = .running || row.status = .waiting))
        (unleased .interrupted nowMs)) nodeId := by
  unfold interruptNode at hok
  dsimp only at hok
  split at hok
  · cases hok
  · cases hok
    rfl

theorem finishGraph_ok {graphId nodeId : String} {status : GraphStatus} {nowMs : Int} {u : Unit}
    (hok : finishGraph graphId nodeId status nowMs db = .ok (u, after)) :
    status ≠ .active ∧ after = { db with
      graphs := Table.update (fun row => row.graphId = graphId)
        (fun row => { row with status, updatedAtMs := nowMs }) db.graphs } := by
  unfold finishGraph at hok
  split at hok
  · cases hok
  · rename_i hended
    split at hok
    · cases hok
    · split at hok
      · cases hok
      · split at hok
        · cases hok
        · cases hok
          exact ⟨hended, rfl⟩

/-- An accepted child: what was checked, and what the insertion changed after the
parent was suspended and its budget reserved. -/
structure Spawned (db : GraphDatabase) (graphId parentNodeId : String) (spec : NodeSpec)
    (ready : Bool) (nodeId : String) (nowMs : Int) (after : GraphDatabase) (graph : GraphRow)
    (parent : NodeRow) (reserved : List LedgerRow) : Prop where
  graphMem : graph ∈ db.graphs
  graphIs : graph.graphId = graphId
  active : graph.status = .active
  parentMem : parent ∈ db.nodes
  parentIs : parent.nodeId = parentNodeId
  parentGraph : parent.graphId = graphId
  belowNodes : (db.nodes.countP fun row => row.graphId = graphId) < graph.limits.maxNodes
  belowDepth : parent.depth + 1 ≤ graph.limits.maxDepth
  dependencies : ∀ d ∈ spec.dependencyNodeIds,
    ∃ row ∈ db.nodes, row.nodeId = d ∧ row.graphId = graphId
  fresh : ∀ row ∈ db.nodes, row.nodeId ≠ nodeId
  reserve : reserveParentBudget graphId parentNodeId nowMs spec.budgets
    (suspendParent db parent nowMs) =
      .ok { suspendParent db parent nowMs with ledger := reserved }
  ledgerSame : List.Forall₂ LedgerRow.Same db.ledger reserved
  edgeKeys : db.edges.Nodup → after.edges.Nodup
  result : after = { db with
    nodes := (suspendParent db parent nowMs).nodes ++
      [newNode nodeId graphId (some parentNodeId) (parent.canonicalPath ++ "/" ++ spec.name) spec
        (parent.depth + 1) (if ready then .ready else .created) nowMs]
    edges := db.edges ++ spec.dependencyNodeIds.map fun d => ⟨graphId, d, nodeId⟩
    ledger := reserved ++ newLedger nodeId graphId spec nowMs }

theorem suspendParent_eq (db : GraphDatabase) (parent : NodeRow) (nowMs : Int) :
    suspendParent db parent nowMs =
      { db with nodes := (suspendParent db parent nowMs).nodes } := by
  unfold suspendParent
  split <;> rfl

theorem suspendParent_ids (parent : NodeRow) (nowMs : Int) :
    (suspendParent db parent nowMs).nodes.map NodeRow.nodeId = db.nodes.map NodeRow.nodeId := by
  unfold suspendParent
  split
  · exact Table.map_update NodeRow.nodeId fun _ => rfl
  · rfl

theorem spawnChild_ok {graphId parentNodeId : String} {spec : NodeSpec} {ready : Bool}
    {nodeId : String} {nowMs : Int} {child : AgentNode}
    (hok : spawnChild graphId parentNodeId spec ready nodeId nowMs db = .ok (child, after)) :
    ∃ graph parent reserved,
      Spawned db graphId parentNodeId spec ready nodeId nowMs after graph parent reserved := by
  unfold spawnChild at hok
  split at hok
  · cases hok
  · rename_i graph hgraph
    obtain ⟨hfind, hactive⟩ := Option.filter_eq_some_iff.mp hgraph
    split at hok
    · cases hok
    · rename_i parent hparent
      have hparentIs := List.find?_some hparent
      have hparentId : parent.nodeId = parentNodeId := by simp at hparentIs; exact hparentIs.1
      have hparentGraph : parent.graphId = graphId := by simp at hparentIs; exact hparentIs.2
      split at hok
      · cases hok
      · rename_i hcount
        split at hok
        · cases hok
        · rename_i hdepth
          split at hok
          · cases hok
          · rename_i hdependencies
            obtain ⟨reserved, hreserve, hok⟩ := PyError.bind_eq_ok.mp hok
            obtain ⟨inserted, hinsert, hok⟩ := PyError.bind_eq_ok.mp hok
            obtain ⟨linked, hlink, hok⟩ := PyError.bind_eq_ok.mp hok
            cases hok
            obtain ⟨hreserved, hsame⟩ := reserveParentBudget_ok hreserve
            have hsuspended := suspendParent_eq db parent nowMs
            rw [hsuspended] at hreserved hsame
            obtain ⟨hfresh, hinserted⟩ := insertNode_ok hinsert
            obtain ⟨hlinked, hkeys⟩ := insertEdges_ok hlink
            rw [hreserved] at hinserted hfresh
            have hedges : inserted.edges = db.edges := by rw [hinserted]
            refine ⟨graph, parent, reserved.ledger, ?_⟩
            refine
              { graphMem := List.mem_of_find?_eq_some hfind
                graphIs := by simpa using List.find?_some hfind
                active := by simpa using hactive
                parentMem := List.mem_of_find?_eq_some hparent
                parentIs := hparentId, parentGraph := hparentGraph
                belowNodes := Nat.lt_of_not_le hcount
                belowDepth := Nat.le_of_not_lt hdepth
                dependencies := ?_, fresh := ?_, reserve := ?_, ledgerSame := hsame
                edgeKeys := ?_, result := ?_ }
            · intro d hd
              have hall : (spec.dependencyNodeIds.all fun d =>
                  db.nodes.any fun row => row.graphId = graphId && row.nodeId = d) = true := by
                simpa using hdependencies
              obtain ⟨row, hrow, his⟩ := List.any_eq_true.mp (List.all_eq_true.mp hall d hd)
              have his : row.graphId = graphId ∧ row.nodeId = d := by simpa using his
              exact ⟨row, hrow, his.2, his.1⟩
            · intro row hrow hid
              have hin : nodeId ∈ (suspendParent db parent nowMs).nodes.map NodeRow.nodeId := by
                rw [suspendParent_ids]
                exact List.mem_map.mpr ⟨row, hrow, hid⟩
              obtain ⟨other, hother, hotherId⟩ := List.mem_map.mp hin
              exact hfresh other hother hotherId
            · rw [hreserve, hreserved]
              rw [hsuspended]
            · intro hnodup
              exact hkeys (hedges ▸ hnodup)
            · rw [hlinked, hinserted]

end AgentStore

end Codex2Lark
