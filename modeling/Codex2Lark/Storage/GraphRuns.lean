import Codex2Lark.Storage.GraphShape

/-!
One transaction of the agent graph store: either a sequence of moves, or the
creation of one node. Invariants of whole runs are derived from that.
-/

namespace Codex2Lark

open Lib

/-! ### What a move does to one row -/

open AgentStore in
inductive RowMove : NodeRow → NodeRow → Prop
  | keep (row : NodeRow) : RowMove row row
  | node {row moved : NodeRow} (hmove : NodeMove row moved) : RowMove row moved
  | lease {row : NodeRow} (args : LeaseReady)
      (hready : row.status = .ready ∨ row.status = .interrupted) :
      RowMove row (leasedRow args row)
  | suspend {row : NodeRow} (nowMs : Int)
      (hidle : row.status = .ready ∨ row.status = .interrupted) :
      RowMove row { row with status := .waiting, updatedAtMs := nowMs }
  | close {row : NodeRow} (status : NodeStatus) (nowMs : Int)
      (hopen : row.status.isTerminal = false) (hterminal : status.isTerminal = true) :
      RowMove row (unleased status nowMs row)

theorem RowMove.same {row moved : NodeRow} (hmove : RowMove row moved) : row.Same moved := by
  cases hmove with
  | keep => exact .refl row
  | node hnode => exact hnode.same
  | lease args hready => exact ⟨rfl, rfl, rfl, rfl, rfl, rfl⟩
  | suspend nowMs hidle => exact ⟨rfl, rfl, rfl, rfl, rfl, rfl⟩
  | close status nowMs hopen hterminal => exact ⟨rfl, rfl, rfl, rfl, rfl, rfl⟩

/-- What a quiet move can do to a row. -/
structure QuietRow (row moved : NodeRow) : Prop where
  same : row.Same moved
  openness : moved.status.isTerminal = row.status.isTerminal
  ended : row.status.isTerminal = true → moved.status = row.status
  waiting : moved.status = .waiting → row.status = .waiting

theorem QuietRow.refl (row : NodeRow) : QuietRow row row := ⟨.refl row, rfl, fun _ => rfl, id⟩

theorem QuietRow.trans {a b c : NodeRow} (hab : QuietRow a b) (hbc : QuietRow b c) :
    QuietRow a c := by
  refine ⟨hab.same.trans hbc.same, hbc.openness.trans hab.openness, ?_, fun h =>
    hab.waiting (hbc.waiting h)⟩
  intro hended
  rw [hbc.ended (hab.openness.trans hended), hab.ended hended]

theorem NodeMove.quiet {row moved : NodeRow} (hmove : NodeMove row moved) : QuietRow row moved := by
  cases hmove with
  | ready nowMs hopen hidle =>
      refine ⟨⟨rfl, rfl, rfl, rfl, rfl, rfl⟩, hopen.symm, ?_, NodeStatus.noConfusion⟩
      intro hended
      rw [hopen] at hended
      cases hended
  | unlease status nowMs hopen hstatus =>
      have hstays : status.isTerminal = false := by
        rcases hstatus with rfl | rfl <;> rfl
      refine ⟨⟨rfl, rfl, rfl, rfl, rfl, rfl⟩, hstays.trans hopen.symm, ?_, ?_⟩
      · intro hended
        rw [hopen] at hended
        cases hended
      · intro hwaiting
        simp only [AgentStore.unleased] at hwaiting
        rcases hstatus with rfl | rfl <;> cases hwaiting

namespace AgentStore

theorem isLeasable_status {db : GraphDatabase} {graphId : String} {nowMs : Int} {row : NodeRow}
    (hleasable : isLeasable db graphId nowMs row = true) :
    row.graphId = graphId ∧ (row.status = .ready ∨ row.status = .interrupted) := by
  simp only [isLeasable, Bool.and_eq_true, Bool.or_eq_true, decide_eq_true_eq] at hleasable
  exact ⟨hleasable.1.1.1.1, hleasable.1.1.1.2⟩

theorem mem_leaseSelection {db : GraphDatabase} {graph : GraphRow} {args : LeaseReady}
    {row : NodeRow} (hrow : row ∈ leaseSelection graph args db) :
    row ∈ db.nodes ∧ isLeasable db graph.graphId args.nowMs row = true := by
  have hsorted := List.mem_of_mem_take hrow
  rw [List.mem_insertionSort, List.mem_filter] at hsorted
  exact hsorted

/-- The rows that a lease updates are the selected ones. -/
theorem isLeased_iff {db : GraphDatabase} (hshape : GraphShape db) {graph : GraphRow}
    {args : LeaseReady} {row : NodeRow} (hrow : row ∈ db.nodes) :
    ((leaseSelection graph args db).any fun leased => leased.nodeId = row.nodeId) = true ↔
      row ∈ leaseSelection graph args db := by
  rw [List.any_eq_true]
  constructor
  · rintro ⟨leased, hleased, hid⟩
    rw [← hshape.node_eq (mem_leaseSelection hleased).1 hrow (by simpa using hid)]
    exact hleased
  · intro hleased
    exact ⟨row, hleased, by simp⟩

end AgentStore

open AgentStore in
theorem QuietMove.rows_quiet {db after : GraphDatabase} (hshape : GraphShape db)
    (hmove : QuietMove db after) : List.Forall₂ QuietRow db.nodes after.nodes := by
  cases hmove with
  | side _ hnodes _ _ =>
      rw [hnodes]
      exact List.forall₂_same.mpr fun row _ => .refl row
  | rows cond change hmoves =>
      exact Table.forall₂_update (fun row hrow hcond => (hmoves row hrow hcond).quiet)
        fun row _ _ => .refl row
  | lease graph args hgraph =>
      refine Table.forall₂_update ?_ fun row _ _ => .refl row
      intro row hrow hcond
      have hselected := mem_leaseSelection ((isLeased_iff hshape hrow).mp hcond)
      have hready := (isLeasable_status hselected.2).2
      have hopen : row.status.isTerminal = false := by
        rcases hready with h | h <;> rw [h] <;> rfl
      refine ⟨⟨rfl, rfl, rfl, rfl, rfl, rfl⟩, hopen.symm, ?_, NodeStatus.noConfusion⟩
      intro hended
      rw [hopen] at hended
      cases hended
  | graphStatus cond status nowMs hended => exact List.forall₂_same.mpr fun row _ => .refl row

theorem QuietMoves.rows_quiet {db after : GraphDatabase} (hshape : GraphShape db)
    (hmoves : QuietMoves db after) : List.Forall₂ QuietRow db.nodes after.nodes := by
  induction hmoves with
  | refl => exact List.forall₂_same.mpr fun row _ => .refl row
  | tail hbefore hlast ih =>
      have hmoved : GraphMoves id db _ := QuietMoves.moves hbefore
      have hshape' := hshape.of_frame hmoved.frame
      exact Table.Forall₂.trans (fun _ _ _ => QuietRow.trans) ih (hlast.rows_quiet hshape')

open AgentStore in
theorem GraphMove.row_moves {floor : Int → Int} {db after : GraphDatabase} (hshape : GraphShape db)
    (hmove : GraphMove floor db after) : List.Forall₂ RowMove db.nodes after.nodes := by
  cases hmove with
  | quiet hquiet =>
      cases hquiet with
      | side _ hnodes _ _ =>
          rw [hnodes]
          exact List.forall₂_same.mpr fun row _ => .keep row
      | rows cond change hmoves =>
          exact Table.forall₂_update (fun row hrow hcond => .node (hmoves row hrow hcond))
            fun row _ _ => .keep row
      | lease graph args hgraph =>
          refine Table.forall₂_update ?_ fun row _ _ => .keep row
          intro row hrow hcond
          have hselected := mem_leaseSelection ((isLeased_iff hshape hrow).mp hcond)
          exact .lease args (isLeasable_status hselected.2).2
      | graphStatus cond status nowMs hended => exact List.forall₂_same.mpr fun row _ => .keep row
  | suspend nowMs hparent hidle =>
      refine Table.forall₂_update ?_ fun row _ _ => .keep row
      intro row hrow hid
      rw [hshape.node_eq hrow hparent (by simpa using hid)]
      exact .suspend nowMs hidle
  | close status nowMs hmem hopen hterminal =>
      rw [releaseParentBudget_nodes]
      refine Table.forall₂_update ?_ fun row _ _ => .keep row
      intro row hrow hid
      rw [hshape.node_eq hrow hmem (by simpa using hid)]
      exact .close status nowMs hopen hterminal

/-! ### Creation keeps the shape -/

namespace AgentStore

theorem newLedger_keys (nodeId graphId : String) (spec : NodeSpec) (nowMs : Int) :
    ((newLedger nodeId graphId spec nowMs).map fun row => (row.nodeId, row.budgetKind)).Nodup := by
  have hkinds := spec.budgetKeys
  simp only [newLedger, List.map_map]
  refine List.Nodup.map_on ?_ (List.Nodup.of_map Prod.fst hkinds)
  intro a ha b hb hab
  simp only [Function.comp_apply, Prod.mk.injEq, true_and] at hab
  exact List.inj_on_of_nodup_map hkinds ha hb hab

theorem mem_newLedger {nodeId graphId : String} {spec : NodeSpec} {nowMs : Int} {row : LedgerRow} :
    row ∈ newLedger nodeId graphId spec nowMs ↔
      ∃ budget ∈ spec.budgets, row = ⟨graphId, nodeId, budget.1, budget.2, 0, 0, nowMs⟩ := by
  simp only [newLedger, List.mem_map, eq_comm]

end AgentStore

namespace GraphShape

open AgentStore

variable {db : GraphDatabase}

/-- The keys of a ledger stay unique when a new node opens its own rows. -/
theorem ledgerKeys_append (hshape : GraphShape db) {nodeId graphId : String} {spec : NodeSpec}
    {nowMs : Int} {ledger : List LedgerRow}
    (hsame : List.Forall₂ LedgerRow.Same db.ledger ledger)
    (hfresh : ∀ row ∈ db.nodes, row.nodeId ≠ nodeId) :
    ((ledger ++ newLedger nodeId graphId spec nowMs).map
      fun row => (row.nodeId, row.budgetKind)).Nodup := by
  rw [List.map_append, List.nodup_append]
  refine ⟨?_, newLedger_keys nodeId graphId spec nowMs, ?_⟩
  · rw [Table.Forall₂.map_eq (fun _ _ h => by rw [h.nodeId, h.budgetKind]) hsame]
    exact hshape.ledgerKeys
  · intro key hkey other hother hsameKey
    obtain ⟨row, hrow, rfl⟩ := List.mem_map.mp hkey
    obtain ⟨opened, hopened, rfl⟩ := List.mem_map.mp hother
    obtain ⟨old, hold, holdSame⟩ := Table.Forall₂.of_mem_right hsame hrow
    obtain ⟨node, hnode, hid, _⟩ := hshape.ledgerOf old hold
    obtain ⟨budget, _, hbudget⟩ := mem_newLedger.mp hopened
    have hnodeId : row.nodeId = nodeId := by
      rw [(Prod.mk.inj hsameKey).1, hbudget]
    exact hfresh node hnode (by rw [hid, holdSame.nodeId, hnodeId])

theorem createGraph (hshape : GraphShape db) {args : CreateGraph} {graphId rootNodeId : String}
    {nowMs : Int} {u : Unit} {after : GraphDatabase}
    (hok : AgentStore.createGraph args graphId rootNodeId nowMs db = .ok (u, after)) :
    GraphShape after := by
  obtain ⟨hgraphs, hfresh, rfl⟩ := createGraph_ok hok
  have hnoNode : ∀ row ∈ db.nodes, row.graphId ≠ graphId := by
    intro row hrow hin
    obtain ⟨graph, hgraph, hid⟩ := hshape.graphOf row hrow
    exact (hgraphs graph hgraph).1 (hid.trans hin)
  refine
    { graphIds := ?_, rootOf := ?_, nodeIds := ?_, graphOf := ?_, parentOf := ?_, depthPos := ?_
      depthLe := ?_, depthLimit := ?_, nodeLimit := ?_, edgeKeys := hshape.edgeKeys
      predecessorOf := ?_, dependentOf := ?_, ledgerKeys := ?_, ledgerOf := ?_ } <;>
    simp only [List.map_append, List.map_cons, List.map_nil, List.mem_append, List.mem_singleton,
      List.length_append, List.length_singleton, List.countP_append, List.countP_singleton]
  · rw [List.nodup_append]
    refine ⟨hshape.graphIds, by simp, ?_⟩
    simp only [List.mem_map, List.mem_singleton]
    rintro _ ⟨graph, hgraph, rfl⟩ _ rfl
    exact (hgraphs graph hgraph).1
  · rintro graph (hgraph | rfl)
    · obtain ⟨row, hrow, hid, hin⟩ := hshape.rootOf graph hgraph
      exact ⟨row, .inl hrow, hid, hin⟩
    · exact ⟨_, .inr rfl, rfl, rfl⟩
  · rw [List.nodup_append]
    refine ⟨hshape.nodeIds, by simp, ?_⟩
    simp only [List.mem_map, List.mem_singleton]
    rintro _ ⟨row, hrow, rfl⟩ _ rfl
    exact hfresh row hrow
  · rintro row (hrow | rfl)
    · obtain ⟨graph, hgraph, hid⟩ := hshape.graphOf row hrow
      exact ⟨graph, .inl hgraph, hid⟩
    · exact ⟨_, .inr rfl, rfl⟩
  · rintro row (hrow | rfl) parentId hparent
    · obtain ⟨parent, hmem, hparent⟩ := hshape.parentOf row hrow parentId hparent
      exact ⟨parent, .inl hmem, hparent⟩
    · cases hparent
  · rintro row (hrow | rfl)
    · exact hshape.depthPos row hrow
    · exact Nat.le_refl 1
  · rintro row (hrow | rfl)
    · have := hshape.depthLe row hrow
      omega
    · simp [newNode]
  · rintro row (hrow | rfl) graph (hgraph | rfl) hid
    · exact hshape.depthLimit row hrow graph hgraph hid
    · exact absurd hid.symm (hnoNode row hrow)
    · exact absurd hid (hgraphs graph hgraph).1
    · have := args.limits.positive
      simp only [newNode]
      omega
  · rintro graph (hgraph | rfl)
    · have hlimit := hshape.nodeLimit graph hgraph
      have hother : graphId ≠ graph.graphId := fun h => (hgraphs graph hgraph).1 h.symm
      simpa [newNode, hother] using hlimit
    · have hnone : (db.nodes.countP fun row => row.graphId = graphId) = 0 := by
        rw [List.countP_eq_zero]
        intro row hrow
        simpa using hnoNode row hrow
      have := args.limits.positive
      simp only [hnone, newNode]
      simp
      omega
  · intro edge hedge
    obtain ⟨row, hrow, his⟩ := hshape.predecessorOf edge hedge
    exact ⟨row, .inl hrow, his⟩
  · intro edge hedge
    obtain ⟨row, hrow, his⟩ := hshape.dependentOf edge hedge
    exact ⟨row, .inl hrow, his⟩
  · rw [← List.map_append]
    exact hshape.ledgerKeys_append (GraphFrame.refl db).ledger hfresh
  · rintro row (hrow | hrow)
    · obtain ⟨node, hnode, his⟩ := hshape.ledgerOf row hrow
      exact ⟨node, .inl hnode, his⟩
    · obtain ⟨budget, _, rfl⟩ := mem_newLedger.mp hrow
      exact ⟨_, .inr rfl, rfl, rfl⟩

end GraphShape

namespace AgentStore

variable {db : GraphDatabase}

/-- Suspending the parent of a new child is a move. -/
theorem suspendParent_moves (floor : Int → Int) {parent : NodeRow} (hparent : parent ∈ db.nodes)
    (nowMs : Int) : GraphMoves floor db (suspendParent db parent nowMs) := by
  unfold suspendParent
  split
  · rename_i hidle
    exact .single (.suspend nowMs hparent hidle)
  · exact .refl

end AgentStore

open AgentStore in
theorem GraphShape.spawnChild {db after : GraphDatabase} (hshape : GraphShape db)
    {graphId parentNodeId nodeId : String} {spec : NodeSpec} {ready : Bool} {nowMs : Int}
    {graph : GraphRow} {parent : NodeRow} {reserved : List LedgerRow}
    (hspawn : Spawned db graphId parentNodeId spec ready nodeId nowMs after graph parent reserved) :
    GraphShape after := by
  have hframe : GraphFrame db (suspendParent db parent nowMs) :=
    (suspendParent_moves id hspawn.parentMem nowMs).frame
  have hback : ∀ row ∈ (suspendParent db parent nowMs).nodes, ∃ old ∈ db.nodes, old.Same row :=
    fun row hrow => Table.Forall₂.of_mem_right hframe.nodes hrow
  have hforth : ∀ old ∈ db.nodes, ∃ row ∈ (suspendParent db parent nowMs).nodes, old.Same row :=
    fun old hold => Table.Forall₂.of_mem_left hframe.nodes hold
  have hwas := hshape.of_frame hframe
  have hsuspended := suspendParent_eq db parent nowMs
  have hgraphs : (suspendParent db parent nowMs).graphs = db.graphs := by rw [hsuspended]
  have hedges : (suspendParent db parent nowMs).edges = db.edges := by rw [hsuspended]
  have hledger : (suspendParent db parent nowMs).ledger = db.ledger := by rw [hsuspended]
  have hfresh : ∀ row ∈ (suspendParent db parent nowMs).nodes, row.nodeId ≠ nodeId := by
    intro row hrow
    obtain ⟨old, hold, hsame⟩ := hback row hrow
    rw [← hsame.nodeId]
    exact hspawn.fresh old hold
  have hcountEq : ∀ other, ((suspendParent db parent nowMs).nodes.countP
      fun row => row.graphId = other) = db.nodes.countP fun row => row.graphId = other := by
    intro other
    apply Nat.le_antisymm
    · apply Table.Forall₂.countP_le _ hframe.nodes
      intro a b hab hb
      simpa [hab.graphId] using hb
    · apply Table.Forall₂.countP_le (R := fun b a => NodeRow.Same a b) _ hframe.nodes.flip
      intro a b hab hb
      simpa [hab.graphId] using hb
  have hedgeKeys := hspawn.edgeKeys hshape.edgeKeys
  rw [hspawn.result] at hedgeKeys ⊢
  refine
    { graphIds := hshape.graphIds, rootOf := ?_, nodeIds := ?_, graphOf := ?_, parentOf := ?_
      depthPos := ?_, depthLe := ?_, depthLimit := ?_, nodeLimit := ?_, edgeKeys := hedgeKeys
      predecessorOf := ?_, dependentOf := ?_, ledgerKeys := ?_, ledgerOf := ?_ } <;>
    simp only [List.map_append, List.map_cons, List.map_nil, List.mem_append, List.mem_singleton,
      List.length_append, List.length_singleton, List.countP_append, List.countP_singleton]
  · intro root hroot
    obtain ⟨row, hrow, his⟩ := hwas.rootOf root (by rw [hgraphs]; exact hroot)
    exact ⟨row, .inl hrow, his⟩
  · rw [List.nodup_append]
    refine ⟨hwas.nodeIds, by simp, ?_⟩
    simp only [List.mem_map, List.mem_singleton]
    rintro _ ⟨row, hrow, rfl⟩ _ rfl
    exact hfresh row hrow
  · rintro row (hrow | rfl)
    · obtain ⟨old, hold, hsame⟩ := hback row hrow
      rw [← hsame.graphId]
      exact hshape.graphOf old hold
    · exact ⟨graph, hspawn.graphMem, hspawn.graphIs⟩
  · rintro row (hrow | rfl) parentId hparent
    · obtain ⟨other, hmem, his⟩ := hwas.parentOf row hrow parentId hparent
      exact ⟨other, .inl hmem, his⟩
    · obtain ⟨other, hmem, hsame⟩ := hforth parent hspawn.parentMem
      refine ⟨other, .inl hmem, ?_, ?_, ?_⟩
      · rw [← hsame.nodeId, hspawn.parentIs]
        exact Option.some.inj hparent
      · rw [← hsame.graphId, hspawn.parentGraph]
        rfl
      · rw [← hsame.depth]
        rfl
  · rintro row (hrow | rfl)
    · exact hwas.depthPos row hrow
    · simp [newNode]
  · have hlength : (suspendParent db parent nowMs).nodes.length = db.nodes.length :=
      hframe.nodes.length_eq.symm
    rintro row (hrow | rfl)
    · have := hwas.depthLe row hrow
      omega
    · have := hshape.depthLe parent hspawn.parentMem
      simp only [newNode]
      omega
  · rintro row (hrow | rfl) other hother hid
    · exact hwas.depthLimit row hrow other (by rw [hgraphs]; exact hother) hid
    · have hsame : other = graph := hshape.graph_eq hother hspawn.graphMem
        (hid.trans hspawn.graphIs.symm)
      rw [hsame]
      exact hspawn.belowDepth
  · intro other hother
    rw [hcountEq]
    by_cases hin : graphId = other.graphId
    · have hsame : other = graph := hshape.graph_eq hother hspawn.graphMem
        (hin.symm.trans hspawn.graphIs.symm)
      have hbelow := hspawn.belowNodes
      rw [hsame, hspawn.graphIs]
      simp only [newNode, decide_true, if_true]
      omega
    · simpa [newNode, hin] using hshape.nodeLimit other hother
  · rintro edge (hedge | hedge)
    · obtain ⟨row, hrow, his⟩ := hwas.predecessorOf edge (by rw [hedges]; exact hedge)
      exact ⟨row, .inl hrow, his⟩
    · obtain ⟨d, hd, rfl⟩ := List.mem_map.mp hedge
      obtain ⟨old, hold, hid, hin⟩ := hspawn.dependencies d hd
      obtain ⟨row, hrow, hsame⟩ := hforth old hold
      exact ⟨row, .inl hrow, hsame.nodeId.symm.trans hid, hsame.graphId.symm.trans hin⟩
  · rintro edge (hedge | hedge)
    · obtain ⟨row, hrow, his⟩ := hwas.dependentOf edge (by rw [hedges]; exact hedge)
      exact ⟨row, .inl hrow, his⟩
    · obtain ⟨d, _, rfl⟩ := List.mem_map.mp hedge
      exact ⟨_, .inr rfl, rfl, rfl⟩
  · rw [← List.map_append]
    exact hshape.ledgerKeys_append hspawn.ledgerSame hspawn.fresh
  · rintro row (hrow | hrow)
    · obtain ⟨old, hold, hsame⟩ := Table.Forall₂.of_mem_right hspawn.ledgerSame hrow
      obtain ⟨node, hnode, hid, hin⟩ := hwas.ledgerOf old (by rw [hledger]; exact hold)
      exact ⟨node, .inl hnode, hid.trans hsame.nodeId, hin.trans hsame.graphId⟩
    · obtain ⟨budget, _, rfl⟩ := mem_newLedger.mp hrow
      exact ⟨_, .inr rfl, rfl, rfl⟩

/-! ### Transactions as sequences of moves -/

namespace AgentStore

variable {floor : Int → Int} {db : GraphDatabase}

theorem deleteLocksOf_moves (nodeId : String) : QuietMoves db (deleteLocksOf db nodeId) :=
  .single (.side rfl rfl rfl rfl)

theorem purgeLocks_moves (nowMs : Int) : QuietMoves db (purgeLocks db nowMs) :=
  .single (.side rfl rfl rfl rfl)

/-- Waking a parent changes waiting nodes only. -/
theorem wakeParent_eq (db : GraphDatabase) (parentNodeId : Option String) (nowMs : Int) :
    ∃ cond : NodeRow → Bool, (∀ row, cond row = true → row.status = .waiting) ∧
      wakeParent db parentNodeId nowMs =
        setNodes db cond fun row => { row with status := .ready, updatedAtMs := nowMs } := by
  have hnothing : db = setNodes db (fun _ => false)
      fun row => { row with status := .ready, updatedAtMs := nowMs } := by
    simp [setNodes, Table.update]
  unfold wakeParent
  split
  · exact ⟨fun _ => false, fun _ h => Bool.noConfusion h, hnothing⟩
  · split
    · exact ⟨fun _ => false, fun _ h => Bool.noConfusion h, hnothing⟩
    · exact ⟨_, fun row h => by simp at h; exact h.2, rfl⟩

theorem wakeParent_moves (parentNodeId : Option String) (nowMs : Int) :
    QuietMoves db (wakeParent db parentNodeId nowMs) := by
  obtain ⟨cond, hcond, heq⟩ := wakeParent_eq db parentNodeId nowMs
  rw [heq]
  refine .single (.rows _ _ ?_)
  intro row _ hrow
  have hwaiting := hcond row hrow
  have hopen : row.status.isTerminal = false := by
    rw [hwaiting]
    rfl
  have hidle : row.status ≠ .running := by
    rw [hwaiting]
    exact NodeStatus.noConfusion
  exact NodeMove.ready nowMs hopen hidle

theorem releaseParentBudget_congr {row current : NodeRow} (hsame : row.Same current)
    (nowMs : Int) :
    releaseParentBudget floor db row nowMs = releaseParentBudget floor db current nowMs := by
  unfold releaseParentBudget releaseBudget
  rw [hsame.parentNodeId, hsame.spec, hsame.graphId]

theorem releaseParentBudget_deleteLocksOf (row : NodeRow) (nodeId : String) (nowMs : Int) :
    releaseParentBudget floor (deleteLocksOf db nodeId) row nowMs =
      deleteLocksOf (releaseParentBudget floor db row nowMs) nodeId := by
  unfold releaseParentBudget
  split <;> rfl

/-- A node ends, its locks go and its reservation returns to the parent. -/
theorem close_moves (floor : Int → Int) {row : NodeRow} (hrow : row ∈ db.nodes)
    (hopen : row.status.isTerminal = false) (status : NodeStatus)
    (hterminal : status.isTerminal = true) (nowMs : Int) :
    GraphMoves floor db (releaseParentBudget floor
      (deleteLocksOf (settleNode db row.nodeId status nowMs) row.nodeId) row nowMs) := by
  rw [releaseParentBudget_deleteLocksOf]
  exact .tail (.single (.close status nowMs hrow hopen hterminal)) (.quiet (.side rfl rfl rfl rfl))

/-- The node that was read as `row` is still open. -/
def IsOpenRow (db : GraphDatabase) (row : NodeRow) : Prop :=
  ∃ current ∈ db.nodes, row.Same current ∧ current.status.isTerminal = false

theorem IsOpenRow.close {row other : NodeRow} {status : NodeStatus} {nowMs : Int}
    {nodeId : String} (hopen : IsOpenRow db other) (hne : other.nodeId ≠ nodeId) :
    IsOpenRow (releaseParentBudget floor (settleNode db nodeId status nowMs) row nowMs) other := by
  obtain ⟨current, hmem, hsame, hcurrent⟩ := hopen
  refine ⟨current, ?_, hsame, hcurrent⟩
  rw [releaseParentBudget_nodes, settleNode_nodes]
  apply Table.mem_update_of_not hmem
  rw [hsame.nodeId] at hne
  simpa using hne

theorem IsOpenRow.wake {other : NodeRow} (hopen : IsOpenRow db other)
    (parentNodeId : Option String) (nowMs : Int) :
    IsOpenRow (wakeParent db parentNodeId nowMs) other := by
  obtain ⟨current, hmem, hsame, hcurrent⟩ := hopen
  obtain ⟨cond, _, heq⟩ := wakeParent_eq db parentNodeId nowMs
  rw [heq]
  cases hcond : cond current with
  | false => exact ⟨current, Table.mem_update_of_not hmem hcond, hsame, hcurrent⟩
  | true =>
      refine ⟨_, Table.mem_update_of_cond hmem hcond, ?_, rfl⟩
      exact ⟨hsame.1, hsame.2, hsame.3, hsame.4, hsame.5, hsame.6⟩

theorem blockNode_moves {row : NodeRow} (hopen : IsOpenRow db row) (nowMs : Int) :
    GraphMoves floor db (blockNode floor nowMs db row) := by
  obtain ⟨current, hmem, hsame, hcurrent⟩ := hopen
  unfold blockNode
  rw [releaseParentBudget_congr hsame, hsame.nodeId]
  exact .trans (.single (.close .blocked nowMs hmem hcurrent rfl)) (wakeParent_moves _ nowMs).moves

theorem IsOpenRow.blockNode {row other : NodeRow} (hopen : IsOpenRow db other)
    (hne : other.nodeId ≠ row.nodeId) (nowMs : Int) :
    IsOpenRow (blockNode floor nowMs db row) other :=
  (hopen.close hne).wake _ nowMs

/-- The loop of `_block_dependents` over rows that are distinct and still open. -/
theorem blockNodes_rule {I : GraphDatabase → Prop} {nowMs : Int}
    (hstep : ∀ db row, I db → IsOpenRow db row → I (AgentStore.blockNode floor nowMs db row))
    {rows : List NodeRow} (hids : (rows.map NodeRow.nodeId).Nodup)
    (hopen : ∀ row ∈ rows, IsOpenRow db row) (hinit : I db) :
    I (rows.foldl (AgentStore.blockNode floor nowMs) db) := by
  induction rows generalizing db with
  | nil => exact hinit
  | cons row rest ih =>
      obtain ⟨hnotIn, hrest⟩ := List.nodup_cons.mp hids
      refine ih hrest ?_ (hstep db row hinit (hopen row List.mem_cons_self))
      intro other hother
      refine (hopen other (List.mem_cons_of_mem _ hother)).blockNode ?_ nowMs
      intro hsame
      exact hnotIn (hsame ▸ List.mem_map_of_mem hother)

theorem mem_openDependents {row : NodeRow} {nodeId : String} :
    row ∈ openDependents db nodeId ↔ row ∈ db.nodes ∧ row.status.isTerminal = false ∧
      ∃ edge ∈ db.edges, edge.predecessorNodeId = nodeId ∧ edge.dependentNodeId = row.nodeId := by
  simp only [openDependents, List.mem_flatMap, List.mem_filter, decide_eq_true_eq,
    Bool.and_eq_true, Bool.not_eq_true']
  constructor
  · rintro ⟨edge, ⟨hedge, hfrom⟩, hrow, hto, hopen⟩
    exact ⟨hrow, hopen, edge, hedge, hfrom, hto.symm⟩
  · rintro ⟨hrow, hopen, edge, hedge, hfrom, hto⟩
    exact ⟨edge, ⟨hedge, hfrom⟩, hrow, hto.symm, hopen⟩

/-- Two edges with the same ends are one edge, so no dependent is read twice. -/
theorem openDependents_nodup (hshape : GraphShape db) (nodeId : String) :
    ((openDependents db nodeId).map NodeRow.nodeId).Nodup := by
  unfold openDependents
  rw [List.map_flatMap, List.nodup_flatMap]
  constructor
  · intro edge _
    exact hshape.nodeIds.sublist (List.Sublist.map _ List.filter_sublist)
  · have hkeys := hshape.edgeKeys.filter fun edge => decide (edge.predecessorNodeId = nodeId)
    refine hkeys.imp_of_mem ?_
    intro edge other hedge hother hne id hid hid'
    obtain ⟨row, hrow, rfl⟩ := List.mem_map.mp hid
    obtain ⟨row', hrow', hsame⟩ := List.mem_map.mp hid'
    simp only [List.mem_filter, decide_eq_true_eq, Bool.and_eq_true] at hedge hother hrow hrow'
    apply hne
    obtain ⟨dependent, hdependent, hto, hin⟩ := hshape.dependentOf edge hedge.1
    obtain ⟨dependent', hdependent', hto', hin'⟩ := hshape.dependentOf other hother.1
    have hends : edge.dependentNodeId = other.dependentNodeId := by
      rw [← hrow.2.1, ← hrow'.2.1, hsame]
    have hone : dependent = dependent' :=
      hshape.node_eq hdependent hdependent' (by rw [hto, hto', hends])
    have hgraph : edge.graphId = other.graphId := by rw [← hin, ← hin', hone]
    obtain ⟨g, p, d⟩ := edge
    obtain ⟨g', p', d'⟩ := other
    simp only [EdgeRow.mk.injEq]
    exact ⟨hgraph, hedge.2.trans hother.2.symm, hends⟩

theorem openDependents_open {nodeId : String} {row : NodeRow}
    (hrow : row ∈ openDependents db nodeId) : IsOpenRow db row := by
  obtain ⟨hmem, hopen, _⟩ := mem_openDependents.mp hrow
  exact ⟨row, hmem, .refl row, hopen⟩

/-- What each blocking keeps, blocking all the dependents keeps. -/
theorem blockDependents_rule {I : GraphDatabase → Prop} {nowMs : Int} (hshape : GraphShape db)
    (hstep : ∀ db row, GraphShape db → I db → IsOpenRow db row →
      I (AgentStore.blockNode floor nowMs db row))
    (nodeId : String) (hinit : I db) : I (blockDependents floor db nodeId nowMs) := by
  have hboth : GraphShape (blockDependents floor db nodeId nowMs) ∧
      I (blockDependents floor db nodeId nowMs) := by
    refine blockNodes_rule (I := fun db => GraphShape db ∧ I db) ?_
      (openDependents_nodup hshape nodeId) (fun _ => openDependents_open) ⟨hshape, hinit⟩
    rintro db row ⟨hshape, hI⟩ hopen
    have hmoved : GraphMoves floor db (AgentStore.blockNode floor nowMs db row) :=
      blockNode_moves hopen nowMs
    exact ⟨hshape.of_frame hmoved.frame, hstep db row hshape hI hopen⟩
  exact hboth.2

theorem blockDependents_moves (floor : Int → Int) (hshape : GraphShape db) (nodeId : String)
    (nowMs : Int) : GraphMoves floor db (blockDependents floor db nodeId nowMs) :=
  blockDependents_rule hshape
    (fun _ _ _ hmoves hopen => Relation.ReflTransGen.trans hmoves (blockNode_moves hopen nowMs))
    nodeId .refl

theorem ownedNode_ok {nodeId workerId : String} {row : NodeRow}
    (hok : ownedNode db nodeId workerId = .ok row) :
    row ∈ db.nodes ∧ row.nodeId = nodeId ∧ row.status = .running ∧
      row.leaseOwner = some workerId := by
  unfold ownedNode at hok
  split at hok
  · rename_i found hfind
    cases hok
    have his := List.find?_some hfind
    simp only [Bool.and_eq_true, decide_eq_true_eq] at his
    exact ⟨List.mem_of_find?_eq_some hfind, his.1.1, his.1.2, his.2⟩
  · cases hok

theorem activateNode_moves {nodeId : String} {nowMs : Int} {node : AgentNode}
    {after : GraphDatabase} (hok : activateNode nodeId nowMs db = .ok (node, after)) :
    QuietMoves db after := by
  obtain ⟨rfl, _⟩ := activateNode_ok hok
  refine .single (.rows _ _ ?_)
  intro row _ hrow
  have hcreated : row.status = .created := by
    simp only [Bool.and_eq_true, decide_eq_true_eq] at hrow
    exact hrow.2
  have hopen : row.status.isTerminal = false := by
    rw [hcreated]
    rfl
  have hidle : row.status ≠ .running := by
    rw [hcreated]
    exact NodeStatus.noConfusion
  exact NodeMove.ready nowMs hopen hidle

theorem expireLeases_moves (graphId : String) (nowMs : Int) :
    QuietMoves db (expireLeases db graphId nowMs) := by
  refine .single (.rows _ _ ?_)
  intro row _ hrow
  have hrunning : row.status = .running := by
    simp only [Bool.and_eq_true, decide_eq_true_eq] at hrow
    exact hrow.1.2
  have hopen : row.status.isTerminal = false := by
    rw [hrunning]
    rfl
  exact NodeMove.unlease .ready nowMs hopen (.inl rfl)

theorem leaseReady_moves {graphId : String} {args : LeaseReady} {leased : List AgentNode}
    {after : GraphDatabase} (hok : leaseReady graphId args db = .ok (leased, after)) :
    QuietMoves db after := by
  have hreset : QuietMoves db (purgeLocks (expireLeases db graphId args.nowMs) args.nowMs) :=
    .trans (expireLeases_moves graphId args.nowMs) (purgeLocks_moves args.nowMs)
  cases (leaseReady_ok hok).2 with
  | inactive => exact hreset
  | selected hgraph =>
      have hfound := (Option.filter_eq_some_iff.mp hgraph).1
      exact .tail hreset (.lease _ args (List.mem_of_find?_eq_some hfound))

theorem failNode_moves (hshape : GraphShape db) {nodeId workerId : String} {nowMs : Int} {u : Unit}
    {after : GraphDatabase} (hok : failNode floor nodeId workerId nowMs db = .ok (u, after)) :
    GraphMoves floor db after := by
  obtain ⟨node, howned, hdone⟩ := PyError.bind_eq_ok.mp hok
  obtain ⟨hnode, rfl, hrunning, _⟩ := ownedNode_ok howned
  cases hdone
  have hopen : node.status.isTerminal = false := by
    rw [hrunning]
    rfl
  have hclosed := close_moves floor hnode hopen .failed rfl nowMs
  have hblocked := blockDependents_moves floor (hshape.of_frame hclosed.frame)
    node.nodeId nowMs
  exact .trans (.trans hclosed hblocked) (wakeParent_moves _ nowMs).moves

theorem interruptNode_moves {nodeId : String} {nowMs : Int} {u : Unit} {after : GraphDatabase}
    (hok : interruptNode nodeId nowMs db = .ok (u, after)) : QuietMoves db after := by
  obtain rfl := interruptNode_ok hok
  refine .tail (.single (.rows _ _ ?_)) (.side rfl rfl rfl rfl)
  intro row _ hrow
  have hstatus : (row.status = .ready ∨ row.status = .running) ∨ row.status = .waiting := by
    simp only [Bool.and_eq_true, Bool.or_eq_true, decide_eq_true_eq] at hrow
    exact hrow.2
  have hopen : row.status.isTerminal = false := by
    rcases hstatus with (h | h) | h <;> rw [h] <;> rfl
  exact NodeMove.unlease .interrupted nowMs hopen (.inr rfl)

theorem recordArtifact_moves (artifact : Artifact) (nowMs : Int) :
    QuietMoves db (recordArtifact db artifact nowMs) :=
  .single (.side rfl rfl rfl rfl)

theorem completeNode_moves {nodeId workerId artifactId : String} {draft : ArtifactDraft}
    {nowMs : Int} {artifact : Artifact} {after : GraphDatabase}
    (hok : completeNode floor nodeId workerId draft artifactId nowMs db = .ok (artifact, after)) :
    GraphMoves floor db after := by
  obtain ⟨node, howned, hdone⟩ := PyError.bind_eq_ok.mp hok
  obtain ⟨hnode, rfl, hrunning, _⟩ := ownedNode_ok howned
  split at hdone
  · cases hdone
  · cases hdone
    have hopen : node.status.isTerminal = false := by
      rw [hrunning]
      rfl
    have hrecorded :
        node ∈ (recordArtifact db (draftedArtifact node draft artifactId) nowMs).nodes := hnode
    have hclosed := close_moves floor hrecorded hopen .completed rfl nowMs
    refine .trans (.trans (recordArtifact_moves _ nowMs).moves hclosed) ?_
    exact (wakeParent_moves _ nowMs).moves

theorem findNode_some {nodeId : String} {row : NodeRow} (hfind : findNode db nodeId = some row) :
    row ∈ db.nodes ∧ row.nodeId = nodeId :=
  ⟨List.mem_of_find?_eq_some hfind, by simpa using List.find?_some hfind⟩

theorem cancelNode_moves (floor : Int → Int) (hshape : GraphShape db) (nodeId : String) (nowMs : Int) :
    GraphMoves floor db (cancelNode floor nowMs db nodeId) := by
  unfold cancelNode
  split
  · exact .refl
  · rename_i row hrow
    obtain ⟨hfind, hopen⟩ := Option.filter_eq_some_iff.mp hrow
    obtain ⟨hmem, rfl⟩ := findNode_some hfind
    have hclosed := close_moves floor hmem (by simpa using hopen) .cancelled rfl nowMs
    exact .trans hclosed (blockDependents_moves floor (hshape.of_frame hclosed.frame) row.nodeId nowMs)

/-- What each cancellation keeps, the loop of `cancel_subtree` keeps. -/
theorem cancelNodes_rule {I : GraphDatabase → Prop} {nowMs : Int} (hshape : GraphShape db)
    {ids : List String} (hstep : ∀ db, ∀ nodeId ∈ ids, GraphShape db → I db →
      I (cancelNode floor nowMs db nodeId)) (hinit : I db) :
    I (ids.foldl (cancelNode floor nowMs) db) := by
  induction ids generalizing db with
  | nil => exact hinit
  | cons nodeId rest ih =>
      have hfirst := cancelNode_moves floor hshape nodeId nowMs
      refine ih (hshape.of_frame hfirst.frame) ?_ (hstep db nodeId List.mem_cons_self hshape hinit)
      exact fun db other hother => hstep db other (List.mem_cons_of_mem _ hother)

theorem cancelNodes_moves (floor : Int → Int) (hshape : GraphShape db) (ids : List String)
    (nowMs : Int) : GraphMoves floor db (ids.foldl (cancelNode floor nowMs) db) :=
  cancelNodes_rule hshape (fun _ nodeId _ hshape hmoves =>
    Relation.ReflTransGen.trans hmoves (cancelNode_moves floor hshape nodeId nowMs)) .refl

theorem wakeParents_moves (parents : List String) (nowMs : Int) :
    QuietMoves db (wakeParents db parents nowMs) := by
  unfold wakeParents
  induction parents generalizing db with
  | nil => exact .refl
  | cons parentId rest ih => exact .trans (wakeParent_moves _ nowMs) ih

theorem cancelGraphOf_moves (nodeId : String) (nowMs : Int) :
    QuietMoves db (cancelGraphOf db nodeId nowMs) :=
  .single (.graphStatus _ .cancelled nowMs GraphStatus.noConfusion)

theorem cancelSubtree_moves (hshape : GraphShape db) {nodeId : String} {nowMs : Int}
    {ids : List String} {after : GraphDatabase}
    (hok : cancelSubtree floor nodeId nowMs db = .ok (ids, after)) : GraphMoves floor db after := by
  cases hok
  have hcancelled := cancelNodes_moves floor hshape (subtree db nodeId) nowMs
  exact .trans (.trans hcancelled (wakeParents_moves _ nowMs).moves)
    (cancelGraphOf_moves nodeId nowMs).moves

theorem finishGraph_moves {graphId nodeId : String} {status : GraphStatus} {nowMs : Int} {u : Unit}
    {after : GraphDatabase} (hok : finishGraph graphId nodeId status nowMs db = .ok (u, after)) :
    QuietMoves db after := by
  obtain ⟨hended, rfl⟩ := finishGraph_ok hok
  exact .single (.graphStatus _ status nowMs hended)

/-- Taking a lock touches the locks only. -/
theorem takeLock_moves (lock : LockRow) : QuietMoves db (takeLock db lock).2 := by
  unfold takeLock
  simp only
  split
  · exact .single (.side rfl rfl rfl rfl)
  · split
    · exact .refl
    · exact .single (.side rfl rfl rfl rfl)

theorem renewTargets_moves (ownerId : String) (nowMs leaseMs : Int)
    (targets : List WriteScopeTarget) :
    QuietMoves db (renewTargets ownerId nowMs leaseMs targets db).2 := by
  induction targets generalizing db with
  | nil => exact .refl
  | cons target rest ih =>
      unfold renewTargets
      simp only
      split
      · exact .single (.side rfl rfl rfl rfl)
      · exact .trans (.single (.side rfl rfl rfl rfl) :
          QuietMoves db (renewTarget db ownerId nowMs leaseMs target)) ih

/-- The statuses in which a node may take a lock. -/
theorem acquireLock_ok {graphId nodeId : String} {target : ResourceTarget} {nowMs leaseMs : Int}
    {granted : Bool} {after : GraphDatabase}
    (hok : acquireLock graphId nodeId target nowMs leaseMs db = .ok (granted, after)) :
    1 ≤ leaseMs ∧ takeLock (purgeLocks db nowMs)
      ⟨target.tenantKey, target.resourceType, target.resourceId, graphId, nodeId,
        target.expectedRevision, nowMs + leaseMs⟩ = (granted, after) := by
  unfold acquireLock at hok
  split at hok
  · cases hok
  · rename_i hlease
    split at hok
    · cases hok
    · exact ⟨by omega, Except.ok.inj hok⟩

theorem acquireRootWriteScope_ok {rootRunId tenantKey : String} {target : WriteScopeTarget}
    {nowMs leaseMs : Int} {owner : Option String} {after : GraphDatabase}
    (hok : acquireRootWriteScope rootRunId tenantKey target nowMs leaseMs db = .ok (owner, after)) :
    1 ≤ leaseMs ∧ ∃ graph ∈ db.graphs, graph.rootRunId = rootRunId ∧ graph.tenantKey = tenantKey ∧
      graph.status = .active ∧
      ∃ granted, owner = (if granted = true then some graph.rootNodeId else none) ∧
        takeLock (purgeLocks db nowMs)
          ⟨tenantKey, target.resourceType, target.resourceId, graph.graphId, graph.rootNodeId,
            target.expectedRevision, nowMs + leaseMs⟩ = (granted, after) := by
  unfold acquireRootWriteScope at hok
  split at hok
  · cases hok
  · rename_i hargs
    split at hok
    · cases hok
    · rename_i graph hgraph
      split at hok
      · cases hok
      · split at hok
        · cases hok
        · rename_i htenant
          split at hok
          · cases hok
          · rename_i hactive
            have howner := congrArg Prod.fst (Except.ok.inj hok)
            have hafter := congrArg Prod.snd (Except.ok.inj hok)
            simp only at howner hafter
            refine ⟨by omega, graph, List.mem_of_find?_eq_some hgraph, ?_, ?_, ?_, ?_⟩
            · simpa using List.find?_some hgraph
            · exact not_not.mp htenant
            · exact not_not.mp fun h => hactive (.inl h)
            · exact ⟨_, howner.symm, Prod.ext rfl hafter⟩

/-- What a successful `send_mail` does: it finds the item of an earlier call with the same
correlation, or adds one. -/
inductive Sent (args : SendMail) (itemId : String) (db : GraphDatabase) :
    MailboxItem → GraphDatabase → Prop
  | again {item : MailboxItem} (hitem : item ∈ db.mailbox)
      (hcorrelated : isCorrelated args item = true)
      (hpayload : Json.same (.obj item.payload) (.obj args.payload) = true) :
      Sent args itemId db item db
  | fresh (hid : ∀ row ∈ db.mailbox, row.itemId ≠ itemId)
      (hcorrelated : ∀ row ∈ db.mailbox, isCorrelated args row = false) :
      Sent args itemId db (newMail args itemId (nextSequence db args.recipientNodeId))
        { db with mailbox := db.mailbox ++
          [newMail args itemId (nextSequence db args.recipientNodeId)] }

theorem insertMail_ok {args : SendMail} {item : MailboxItem} {after : GraphDatabase}
    (hok : insertMail args item db = .ok after) :
    (∀ row ∈ db.mailbox, row.itemId ≠ item.itemId) ∧
      (∀ row ∈ db.mailbox, isCorrelated args row = false) ∧
      after = { db with mailbox := db.mailbox ++ [item] } := by
  unfold insertMail at hok
  split at hok
  · cases hok
  · rename_i hid
    split at hok
    · cases hok
    · split at hok
      · cases hok
      · rename_i hcorrelated
        refine ⟨?_, ?_, (Except.ok.inj hok).symm⟩
        · simpa using hid
        · simpa using hcorrelated

theorem sendMail_ok {args : SendMail} {itemId : String} {item : MailboxItem}
    {after : GraphDatabase} (hok : sendMail args itemId db = .ok (item, after)) :
    Sent args itemId db item after := by
  unfold sendMail at hok
  simp only at hok
  split at hok
  · cases hok
  · split at hok
    · rename_i found hfound
      split at hok
      · cases hok
      · rename_i hpayload
        cases hok
        exact .again (List.mem_of_find?_eq_some hfound)
          (List.find?_some (p := isCorrelated args) hfound) (by simpa using hpayload)
    · cases hinsert : insertMail args
        (newMail args itemId (nextSequence db args.recipientNodeId)) db with
      | error e => simp [hinsert, Except.map] at hok
      | ok inserted =>
          simp only [hinsert, Except.map, Except.ok.injEq, Prod.mk.injEq] at hok
          obtain ⟨rfl, rfl⟩ := hok
          obtain ⟨hid, hcorrelated, rfl⟩ := insertMail_ok hinsert
          exact .fresh hid hcorrelated

theorem sendMail_members {args : SendMail} {itemId : String}
    {result : MailboxItem × GraphDatabase} (hok : sendMail args itemId db = .ok result) :
    (∃ row ∈ db.nodes, row.graphId = args.graphId ∧ row.nodeId = args.senderNodeId) ∧
      ∃ row ∈ db.nodes, row.graphId = args.graphId ∧ row.nodeId = args.recipientNodeId := by
  unfold sendMail at hok
  simp only at hok
  split at hok
  · cases hok
  · rename_i hmembers
    simpa using hmembers

theorem acknowledgeMail_ok {itemId nodeId : String} {u : Unit} {after : GraphDatabase}
    (hok : acknowledgeMail itemId nodeId db = .ok (u, after)) :
    Table.rowcount (isMailTo itemId nodeId) db.mailbox = 1 ∧
      after = { db with
        mailbox := Table.update (isMailTo itemId nodeId)
          (fun item => { item with state := .acknowledged }) db.mailbox } := by
  unfold acknowledgeMail at hok
  split at hok
  · cases hok
  · rename_i hcount
    exact ⟨not_not.mp hcount, (congrArg Prod.snd (Except.ok.inj hok)).symm⟩

end AgentStore

/-! ### One transaction -/

theorem GraphDatabase.transaction_rule {α : Type} {P : GraphDatabase → Prop}
    {operation : GraphDatabase → Except PyError (α × GraphDatabase)} {db : GraphDatabase}
    (hraised : P db) (hdone : ∀ value after, operation db = .ok (value, after) → P after) :
    P (db.transaction operation).2 := by
  unfold GraphDatabase.transaction
  split
  · rename_i value after heq
    exact hdone value after heq
  · exact hraised

namespace GraphOp

open AgentStore

/-- What a transaction did: it ended nodes, created one, or was quiet. A transaction
that raised was quiet. -/
inductive Effect (floor : Int → Int) (db : GraphDatabase) : GraphOp → GraphDatabase → Prop
  | quiet {op : GraphOp} {after : GraphDatabase} (hquiet : QuietMoves db after) :
      Effect floor db op after
  | fail {nodeId workerId : String} {nowMs : Int} {after : GraphDatabase}
      (hok : AgentStore.failNode floor nodeId workerId nowMs db = .ok ((), after)) :
      Effect floor db (.failNode nodeId workerId nowMs) after
  | complete {nodeId workerId artifactId : String} {draft : ArtifactDraft} {nowMs : Int}
      {artifact : Artifact} {after : GraphDatabase}
      (hok : AgentStore.completeNode floor nodeId workerId draft artifactId nowMs db =
        .ok (artifact, after)) :
      Effect floor db (.completeNode nodeId workerId draft artifactId nowMs) after
  | cancel {nodeId : String} {nowMs : Int} {ids : List String} {after : GraphDatabase}
      (hok : AgentStore.cancelSubtree floor nodeId nowMs db = .ok (ids, after)) :
      Effect floor db (.cancelSubtree nodeId nowMs) after
  | create {args : CreateGraph} {graphId rootNodeId : String} {nowMs : Int}
      {after : GraphDatabase}
      (hok : AgentStore.createGraph args graphId rootNodeId nowMs db = .ok ((), after)) :
      Effect floor db (.createGraph args graphId rootNodeId nowMs) after
  | spawn {graphId parentNodeId nodeId : String} {spec : NodeSpec} {ready : Bool} {nowMs : Int}
      {child : AgentNode} {after : GraphDatabase} {graph : GraphRow} {parent : NodeRow}
      {reserved : List LedgerRow}
      (hok : AgentStore.spawnChild graphId parentNodeId spec ready nodeId nowMs db =
        .ok (child, after))
      (hspawned : Spawned db graphId parentNodeId spec ready nodeId nowMs after graph parent
        reserved) :
      Effect floor db (.spawnChild graphId parentNodeId spec ready nodeId nowMs) after

theorem effect (floor : Int → Int) (db : GraphDatabase) (op : GraphOp) :
    Effect floor db op (op.apply floor db) := by
  have hstay : ∀ op, Effect floor db op db := fun op => .quiet .refl
  cases op with
  | createGraph args graphId rootNodeId nowMs =>
      exact GraphDatabase.transaction_rule (hstay _) fun _ after hok => .create hok
  | spawnChild graphId parentNodeId spec ready nodeId nowMs =>
      refine GraphDatabase.transaction_rule (hstay _) fun _ after hok => ?_
      obtain ⟨graph, parent, reserved, hspawned⟩ := spawnChild_ok hok
      exact .spawn hok hspawned
  | activateNode nodeId nowMs =>
      exact GraphDatabase.transaction_rule (hstay _) fun _ after hok =>
        Effect.quiet (activateNode_moves hok)
  | leaseReady graphId args =>
      exact GraphDatabase.transaction_rule (hstay _) fun _ after hok =>
        Effect.quiet (leaseReady_moves hok)
  | failNode nodeId workerId nowMs =>
      exact GraphDatabase.transaction_rule (hstay _) fun _ after hok => .fail hok
  | interruptNode nodeId nowMs =>
      exact GraphDatabase.transaction_rule (hstay _) fun _ after hok =>
        Effect.quiet (interruptNode_moves hok)
  | completeNode nodeId workerId draft artifactId nowMs =>
      exact GraphDatabase.transaction_rule (hstay _) fun _ after hok => .complete hok
  | cancelSubtree nodeId nowMs =>
      exact GraphDatabase.transaction_rule (hstay _) fun _ after hok => .cancel hok
  | finishGraph graphId nodeId status nowMs =>
      exact GraphDatabase.transaction_rule (hstay _) fun _ after hok =>
        Effect.quiet (finishGraph_moves hok)
  | sendMail args itemId =>
      refine GraphDatabase.transaction_rule (hstay _) fun _ after hok => Effect.quiet ?_
      cases sendMail_ok hok with
      | again hitem hcorrelated hpayload => exact .refl
      | fresh hid hcorrelated => exact .single (.side rfl rfl rfl rfl)
  | receiveMail nodeId => exact .quiet (.single (.side rfl rfl rfl rfl))
  | acknowledgeMail itemId nodeId =>
      refine GraphDatabase.transaction_rule (hstay _) fun _ after hok => Effect.quiet ?_
      obtain ⟨_, rfl⟩ := acknowledgeMail_ok hok
      exact .single (.side rfl rfl rfl rfl)
  | acquireLock graphId nodeId target nowMs leaseMs =>
      refine GraphDatabase.transaction_rule (hstay _) fun granted after hok => Effect.quiet ?_
      have htaken := congrArg Prod.snd (acquireLock_ok hok).2
      simp only at htaken
      rw [← htaken]
      exact .trans (purgeLocks_moves nowMs) (takeLock_moves _)
  | releaseLocks nodeId => exact .quiet (deleteLocksOf_moves nodeId)
  | acquireRootWriteScope rootRunId tenantKey target nowMs leaseMs =>
      refine GraphDatabase.transaction_rule (hstay _) fun owner after hok => Effect.quiet ?_
      obtain ⟨_, graph, _, _, _, _, granted, _, htaken⟩ := acquireRootWriteScope_ok hok
      have hafter := congrArg Prod.snd htaken
      simp only at hafter
      rw [← hafter]
      exact .trans (purgeLocks_moves nowMs) (takeLock_moves _)
  | releaseWriteScope ownerId target => exact .quiet (.single (.side rfl rfl rfl rfl))
  | listLocks nodeId nowMs => exact .quiet (purgeLocks_moves nowMs)
  | ownsWriteScope ownerId targets nowMs =>
      apply Effect.quiet
      simp only [apply, AgentStore.ownsWriteScope]
      split
      · exact .refl
      · exact purgeLocks_moves nowMs
  | renewWriteScope ownerId targets nowMs leaseMs =>
      apply Effect.quiet
      simp only [apply, AgentStore.renewWriteScope]
      split
      · exact .refl
      · exact renewTargets_moves ownerId nowMs leaseMs targets

/-- A transaction that creates no node is a sequence of moves. -/
theorem apply_rule {floor : Int → Int} {db : GraphDatabase} (hshape : GraphShape db)
    {P : GraphDatabase → Prop} (hmoves : ∀ after, GraphMoves floor db after → P after)
    (hcreate : ∀ args graphId rootNodeId nowMs after,
      AgentStore.createGraph args graphId rootNodeId nowMs db = .ok ((), after) → P after)
    (hspawn : ∀ graphId parentNodeId spec ready nodeId nowMs after graph parent reserved,
      Spawned db graphId parentNodeId spec ready nodeId nowMs after graph parent reserved →
        P after)
    (op : GraphOp) : P (op.apply floor db) := by
  cases effect floor db op with
  | quiet hquiet => exact hmoves _ hquiet.moves
  | fail hok => exact hmoves _ (failNode_moves hshape hok)
  | complete hok => exact hmoves _ (completeNode_moves hok)
  | cancel hok => exact hmoves _ (cancelSubtree_moves hshape hok)
  | create hok => exact hcreate _ _ _ _ _ hok
  | spawn _ hspawned => exact hspawn _ _ _ _ _ _ _ _ _ _ hspawned

theorem shape {floor : Int → Int} {db : GraphDatabase} (hshape : GraphShape db) (op : GraphOp) :
    GraphShape (op.apply floor db) :=
  apply_rule hshape (fun _ hmoves => hshape.of_frame hmoves.frame)
    (fun _ _ _ _ _ hok => hshape.createGraph hok)
    (fun _ _ _ _ _ _ _ _ _ _ hspawned => hshape.spawnChild hspawned) op

end GraphOp

end Codex2Lark
