import Codex2Lark.Storage.GraphRuns

/-!
The life of an agent node: a node that ended stays ended, a lease exists exactly
while its node runs, the graphs keep their limits, and no parent waits for
children that have all ended.
-/

namespace Codex2Lark

open Lib AgentStore

/-! ### Lease columns -/

inductive NodeRow.LeaseColumns (row : NodeRow) : Prop
  | running (hrunning : row.status = .running) (howner : row.leaseOwner.isSome)
      (hexpiry : row.leaseExpiresAtMs.isSome)
  | idle (hidle : row.status ≠ .running) (howner : row.leaseOwner = none)
      (hexpiry : row.leaseExpiresAtMs = none)

theorem NodeRow.LeaseColumns.iff {row : NodeRow} (hcolumns : row.LeaseColumns) :
    row.status = .running ↔ row.leaseOwner.isSome ∧ row.leaseExpiresAtMs.isSome := by
  cases hcolumns with
  | running hrunning howner hexpiry => exact ⟨fun _ => ⟨howner, hexpiry⟩, fun _ => hrunning⟩
  | idle hidle howner hexpiry =>
      refine ⟨fun h => absurd h hidle, ?_⟩
      rw [howner]
      intro h
      exact absurd h.1 Bool.false_ne_true

theorem RowMove.leaseColumns {row moved : NodeRow} (hmove : RowMove row moved)
    (hcolumns : row.LeaseColumns) : moved.LeaseColumns := by
  have hnone (hidle : row.status ≠ .running) :
      row.leaseOwner = none ∧ row.leaseExpiresAtMs = none := by
    cases hcolumns with
    | running hrunning _ _ => exact absurd hrunning hidle
    | idle _ howner hexpiry => exact ⟨howner, hexpiry⟩
  cases hmove with
  | keep => exact hcolumns
  | node hnode =>
      cases hnode with
      | ready nowMs hopen hidle =>
          exact .idle NodeStatus.noConfusion (hnone hidle).1 (hnone hidle).2
      | unlease status nowMs hopen hstatus =>
          refine .idle ?_ rfl rfl
          rcases hstatus with rfl | rfl <;> exact NodeStatus.noConfusion
  | lease args hready => exact .running rfl rfl rfl
  | suspend nowMs hidle =>
      have hnot : row.status ≠ .running := by
        rcases hidle with h | h <;> rw [h] <;> exact NodeStatus.noConfusion
      exact .idle NodeStatus.noConfusion (hnone hnot).1 (hnone hnot).2
  | close status nowMs hopen hterminal =>
      refine .idle ?_ rfl rfl
      rintro rfl
      cases hterminal

/-! ### A node that ended -/

theorem RowMove.ended {row moved : NodeRow} (hmove : RowMove row moved)
    (hended : row.status.isTerminal = true) : moved.status = row.status := by
  have hnot (hopen : row.status.isTerminal = false) : moved.status = row.status := by
    rw [hopen] at hended
    cases hended
  cases hmove with
  | keep => rfl
  | node hnode => exact hnode.quiet.ended hended
  | lease args hready => exact hnot (by rcases hready with h | h <;> rw [h] <;> rfl)
  | suspend nowMs hidle => exact hnot (by rcases hidle with h | h <;> rw [h] <;> rfl)
  | close status nowMs hopen hterminal => exact hnot hopen

/-- The same node, with the status it ended in if it had ended. -/
structure KeepsEnd (row moved : NodeRow) : Prop where
  same : row.Same moved
  ended : row.status.isTerminal = true → moved.status = row.status

theorem KeepsEnd.refl (row : NodeRow) : KeepsEnd row row := ⟨.refl row, fun _ => rfl⟩

theorem KeepsEnd.trans {a b c : NodeRow} (hab : KeepsEnd a b) (hbc : KeepsEnd b c) :
    KeepsEnd a c := by
  refine ⟨hab.same.trans hbc.same, ?_⟩
  intro hended
  have hstatus := hab.ended hended
  exact (hbc.ended (hstatus ▸ hended)).trans hstatus

theorem GraphMoves.rows_keepEnd {floor : Int → Int} {db after : GraphDatabase}
    (hshape : GraphShape db) (hmoves : GraphMoves floor db after) :
    List.Forall₂ KeepsEnd db.nodes after.nodes := by
  induction hmoves with
  | refl => exact List.forall₂_same.mpr fun row _ => .refl row
  | tail hbefore hlast ih =>
      have hbetween := hshape.of_frame (GraphMoves.frame hbefore)
      exact Table.Forall₂.trans (fun _ _ _ => KeepsEnd.trans) ih
        ((hlast.row_moves hbetween).imp fun _ _ hmove => ⟨hmove.same, hmove.ended⟩)

/-- Every node that ended before the transaction has the same status after it. -/
def EndedKept (db after : GraphDatabase) : Prop :=
  ∀ row ∈ db.nodes, row.status.isTerminal = true →
    ∃ kept ∈ after.nodes, kept.nodeId = row.nodeId ∧ kept.status = row.status

theorem EndedKept.of_rows {db after : GraphDatabase} {nodes : List NodeRow}
    (hkept : List.Forall₂ KeepsEnd db.nodes nodes) (hmem : ∀ row ∈ nodes, row ∈ after.nodes) :
    EndedKept db after := by
  intro row hrow hended
  obtain ⟨kept, hin, hkeeps⟩ := Table.Forall₂.of_mem_left hkept hrow
  exact ⟨kept, hmem kept hin, hkeeps.same.nodeId.symm, hkeeps.ended hended⟩

theorem GraphOp.endedKept {floor : Int → Int} {db : GraphDatabase} (hshape : GraphShape db)
    (op : GraphOp) : EndedKept db (op.apply floor db) := by
  refine apply_rule hshape ?_ ?_ ?_ op
  · intro after hmoves
    exact .of_rows (hmoves.rows_keepEnd hshape) fun _ hrow => hrow
  · intro args graphId rootNodeId nowMs after hok
    obtain ⟨_, _, rfl⟩ := createGraph_ok hok
    exact .of_rows (List.forall₂_same.mpr fun row _ => .refl row)
      fun row hrow => List.mem_append_left _ hrow
  · intro graphId parentNodeId spec ready nodeId nowMs after graph parent reserved hspawned
    have hsuspended := suspendParent_moves floor hspawned.parentMem nowMs
    refine .of_rows (hsuspended.rows_keepEnd hshape) ?_
    rw [hspawned.result]
    exact fun row hrow => List.mem_append_left _ hrow

/-! ### Concurrency -/

theorem NodeMove.not_running {row moved : NodeRow} (hmove : NodeMove row moved) :
    moved.status ≠ .running := by
  cases hmove with
  | ready nowMs hopen hidle => exact NodeStatus.noConfusion
  | unlease status nowMs hopen hstatus =>
      intro hrunning
      simp only [unleased] at hrunning
      rcases hstatus with rfl | rfl <;> cases hrunning

/-- No graph runs more nodes than its limit. -/
def WithinConcurrency (db : GraphDatabase) : Prop :=
  ∀ graph ∈ db.graphs, runningCount db graph.graphId ≤ graph.limits.maxConcurrency

/-- An update that starts no node. -/
theorem runningCount_setNodes_le {db : GraphDatabase} {cond : NodeRow → Bool}
    {change : NodeRow → NodeRow}
    (hidle : ∀ row ∈ db.nodes, cond row = true → (change row).status ≠ .running)
    (graphId : String) : runningCount (setNodes db cond change) graphId ≤ runningCount db graphId := by
  unfold runningCount
  rw [setNodes_nodes, Table.update, List.countP_map]
  apply List.countP_mono_left
  intro row hrow hcounted
  by_cases hcond : cond row = true
  · have hnot := hidle row hrow hcond
    simp [hcond, hnot] at hcounted
  · simpa [hcond] using hcounted

theorem lease_withinConcurrency {db : GraphDatabase} (hshape : GraphShape db)
    (hwithin : WithinConcurrency db) {graph : GraphRow} (hgraph : graph ∈ db.graphs)
    (args : LeaseReady) : WithinConcurrency (setNodes db
      (fun row => (leaseSelection graph args db).any fun leased => leased.nodeId = row.nodeId)
      (leasedRow args)) := by
  intro other hother
  let rows := leaseSelection graph args db
  let cond : NodeRow → Bool := fun row => rows.any fun leased => leased.nodeId = row.nodeId
  have hafter : runningCount (setNodes db cond (leasedRow args)) other.graphId =
      db.nodes.countP fun row => row.graphId = other.graphId &&
        (cond row || row.status = .running) := by
    unfold runningCount
    rw [setNodes_nodes, Table.update, List.countP_map]
    apply List.countP_congr
    intro row _
    by_cases hcond : cond row = true <;> simp [hcond, leasedRow]
  change runningCount (setNodes db cond (leasedRow args)) other.graphId ≤ _
  rw [hafter]
  by_cases hsame : other = graph
  · have hrows : rows.length ≤
        graph.limits.maxConcurrency - runningCount db graph.graphId := by
      refine (List.length_take_le _ _).trans ?_
      exact Nat.min_le_right _ _
    have hsplit : (db.nodes.countP fun row => row.graphId = other.graphId &&
        (cond row || row.status = .running)) ≤
          db.nodes.countP cond + runningCount db other.graphId := by
      refine le_trans ?_ (Table.countP_or_le cond _ db.nodes)
      apply List.countP_mono_left
      intro row _ hrow
      simp only [Bool.and_eq_true, Bool.or_eq_true, decide_eq_true_eq] at hrow ⊢
      exact hrow.2.imp_right fun h => ⟨hrow.1, h⟩
    have hcount : db.nodes.countP cond ≤ rows.length :=
      Table.countP_any_key_le rows hshape.nodeIds
    have hlimit := hwithin graph hgraph
    rw [hsame] at hsplit ⊢
    omega
  · have hnone : ∀ row ∈ db.nodes, row.graphId = other.graphId → cond row = false := by
      intro row hrow hin
      by_contra hcond
      have hselected := (isLeased_iff hshape hrow).mp (by simpa [cond, rows] using hcond)
      have hgraphId := (isLeasable_status (mem_leaseSelection hselected).2).1
      exact hsame (hshape.graph_eq hother hgraph (hin.symm.trans hgraphId))
    refine le_trans (le_of_eq ?_) (hwithin other hother)
    apply List.countP_congr
    intro row hrow
    by_cases hin : row.graphId = other.graphId
    · simp [hin, hnone row hrow hin]
    · simp [hin]

theorem GraphMove.withinConcurrency {floor : Int → Int} {db after : GraphDatabase}
    (hshape : GraphShape db) (hwithin : WithinConcurrency db) (hmove : GraphMove floor db after) :
    WithinConcurrency after := by
  have hfewer (hcount : ∀ graphId, runningCount after graphId ≤ runningCount db graphId) :
      WithinConcurrency after := by
    intro graph hgraph
    obtain ⟨old, hold, hsame⟩ := Table.Forall₂.of_mem_right hmove.frame.graphs hgraph
    rw [← hsame.graphId, ← hsame.limits]
    exact (hcount old.graphId).trans (hwithin old hold)
  cases hmove with
  | quiet hquiet =>
      cases hquiet with
      | side _ hnodes _ _ =>
          apply hfewer
          intro graphId
          unfold runningCount
          rw [hnodes]
      | rows cond change hmoves =>
          apply hfewer
          exact runningCount_setNodes_le fun row hrow hcond => (hmoves row hrow hcond).not_running
      | lease graph args hgraph => exact lease_withinConcurrency hshape hwithin hgraph args
      | graphStatus cond status nowMs hended => exact hfewer fun _ => Nat.le_refl _
  | suspend nowMs hparent hidle =>
      apply hfewer
      exact runningCount_setNodes_le fun _ _ _ => NodeStatus.noConfusion
  | @close row status nowMs hrow hopen hterminal =>
      apply hfewer
      intro graphId
      have hnot : status ≠ .running := by
        rintro rfl
        cases hterminal
      have hcount : runningCount (settleNode db row.nodeId status nowMs) graphId ≤
          runningCount db graphId :=
        runningCount_setNodes_le (fun _ _ _ => hnot) graphId
      unfold runningCount at hcount ⊢
      rwa [releaseParentBudget_nodes]

/-- A new node does not run. -/
theorem WithinConcurrency.append {db after : GraphDatabase} (hwithin : WithinConcurrency db)
    {node : NodeRow} (hnodes : after.nodes = db.nodes ++ [node]) (hidle : node.status ≠ .running)
    (hgraphs : ∀ graph ∈ after.graphs, graph ∈ db.graphs ∨
      ∀ row ∈ db.nodes, row.graphId ≠ graph.graphId) : WithinConcurrency after := by
  intro graph hgraph
  have hcount : runningCount after graph.graphId = runningCount db graph.graphId := by
    unfold runningCount
    rw [hnodes, List.countP_append]
    simp [hidle]
  rw [hcount]
  rcases hgraphs graph hgraph with hold | hnone
  · exact hwithin graph hold
  · have hzero : runningCount db graph.graphId = 0 := by
      unfold runningCount
      rw [List.countP_eq_zero]
      intro row hrow
      simp [hnone row hrow]
    rw [hzero]
    exact Nat.zero_le _

/-! ### Waiting parents -/

/-- Every waiting node has an open child, apart from the nodes in `E`. -/
def WaitsForChild (E : String → Prop) (db : GraphDatabase) : Prop :=
  ∀ row ∈ db.nodes, row.status = .waiting → hasOpenChild db row.nodeId = true ∨ E row.nodeId

theorem hasOpenChild_iff {db : GraphDatabase} {nodeId : String} :
    hasOpenChild db nodeId = true ↔
      ∃ child ∈ db.nodes, child.parentNodeId = some nodeId ∧ child.status.isTerminal = false := by
  simp [hasOpenChild]

variable {E : String → Prop} {floor : Int → Int} {db after : GraphDatabase}

theorem WaitsForChild.mono {F : String → Prop} (hwaits : WaitsForChild E db)
    (himp : ∀ id, E id → F id) : WaitsForChild F db :=
  fun row hrow hwaiting => (hwaits row hrow hwaiting).imp_right (himp _)

theorem WaitsForChild.of_quiet (hwaits : WaitsForChild E db)
    (hquiet : List.Forall₂ QuietRow db.nodes after.nodes) : WaitsForChild E after := by
  intro row hrow hwaiting
  obtain ⟨old, hold, hmove⟩ := Table.Forall₂.of_mem_right hquiet hrow
  rw [← hmove.same.nodeId]
  refine (hwaits old hold (hmove.waiting hwaiting)).imp_left ?_
  intro hchild
  obtain ⟨child, hmem, hparent, hopen⟩ := hasOpenChild_iff.mp hchild
  obtain ⟨moved, hmoved, hchildMove⟩ := Table.Forall₂.of_mem_left hquiet hmem
  exact hasOpenChild_iff.mpr ⟨moved, hmoved, hchildMove.same.parentNodeId.symm.trans hparent,
    hchildMove.openness.trans hopen⟩

/-- The end of a node concerns its parent only. -/
theorem WaitsForChild.close (hshape : GraphShape db) (hwaits : WaitsForChild E db) {row : NodeRow}
    (hrow : row ∈ db.nodes) (status : NodeStatus) (hterminal : status.isTerminal = true)
    (nowMs : Int) : WaitsForChild (fun id => E id ∨ row.parentNodeId = some id)
      (settleNode db row.nodeId status nowMs) := by
  intro moved hmoved hwaiting
  rw [settleNode_nodes] at hmoved
  rcases Table.mem_update_cases hmoved with ⟨hmem, hother⟩ | ⟨old, hold, _, rfl⟩
  · rcases hwaits moved hmem hwaiting with hchild | hexcept
    · obtain ⟨child, hchildMem, hparent, hopen⟩ := hasOpenChild_iff.mp hchild
      by_cases hid : child.nodeId = row.nodeId
      · have hsame : child = row := hshape.node_eq hchildMem hrow hid
        exact .inr (.inr (hsame ▸ hparent))
      · refine .inl (hasOpenChild_iff.mpr ⟨child, ?_, hparent, hopen⟩)
        rw [settleNode_nodes]
        exact Table.mem_update_of_not hchildMem (by simpa using hid)
    · exact .inr (.inl hexcept)
  · simp only [unleased] at hwaiting
    rw [hwaiting] at hterminal
    cases hterminal

theorem WaitsForChild.side (hwaits : WaitsForChild E db) (hnodes : after.nodes = db.nodes) :
    WaitsForChild E after := by
  unfold WaitsForChild hasOpenChild at *
  rwa [hnodes]

/-- Waking a parent settles its case. -/
theorem WaitsForChild.wake (hshape : GraphShape db) (hwaits : WaitsForChild E db)
    (parentId : String) (nowMs : Int) :
    WaitsForChild (fun id => E id ∧ id ≠ parentId) (wakeParent db (some parentId) nowMs) := by
  have hkept : WaitsForChild E (wakeParent db (some parentId) nowMs) :=
    hwaits.of_quiet ((wakeParent_moves _ nowMs).rows_quiet hshape)
  intro row hrow hwaiting
  by_cases hid : row.nodeId = parentId
  · left
    unfold wakeParent at hrow ⊢
    simp only at hrow ⊢
    split at hrow
    · rename_i hopen
      rw [if_pos hopen, hid]
      exact hopen
    · rcases Table.mem_update_cases hrow with ⟨hmem, hother⟩ | ⟨old, hold, _, rfl⟩
      · simp [hid, hwaiting] at hother
      · cases hwaiting
  · exact (hkept row hrow hwaiting).imp_right fun h => ⟨h, hid⟩

/-- Waking the parent of the node that ended last. -/
theorem WaitsForChild.wake_parent (hshape : GraphShape db) {parentNodeId : Option String}
    (hwaits : WaitsForChild (fun id => E id ∨ parentNodeId = some id) db) (nowMs : Int) :
    WaitsForChild E (wakeParent db parentNodeId nowMs) := by
  cases parentNodeId with
  | none => exact hwaits.mono fun id h => h.resolve_right nofun
  | some parentId =>
      refine (hwaits.wake hshape parentId nowMs).mono ?_
      rintro id ⟨hexcept | hparent, hne⟩
      · exact hexcept
      · exact absurd (Option.some.inj hparent).symm hne

theorem WaitsForChild.release (floor : Int → Int) (hwaits : WaitsForChild E db) (row : NodeRow)
    (nowMs : Int) :
    WaitsForChild E (releaseParentBudget floor db row nowMs) :=
  hwaits.side (releaseParentBudget_nodes row nowMs)

/-- Blocking a node wakes its own parent. -/
theorem WaitsForChild.blockNode (hshape : GraphShape db) (hwaits : WaitsForChild E db)
    {row : NodeRow} (hopen : IsOpenRow db row) (nowMs : Int) :
    WaitsForChild E (blockNode floor nowMs db row) := by
  obtain ⟨current, hmem, hsame, hcurrent⟩ := hopen
  unfold AgentStore.blockNode
  rw [releaseParentBudget_congr hsame, hsame.nodeId, hsame.parentNodeId]
  have hclosed := (hwaits.close hshape hmem .blocked rfl nowMs).release floor current nowMs
  have hmoved : GraphMoves floor db _ := .single (.close .blocked nowMs hmem hcurrent rfl)
  exact hclosed.wake_parent (hshape.of_frame hmoved.frame) nowMs

theorem WaitsForChild.blockDependents (hshape : GraphShape db) (hwaits : WaitsForChild E db)
    (nodeId : String) (nowMs : Int) :
    WaitsForChild E (blockDependents floor db nodeId nowMs) :=
  blockDependents_rule hshape
    (fun _ _ hshape hwaits hopen => WaitsForChild.blockNode hshape hwaits hopen nowMs) nodeId hwaits

/-- The end of a node in a transaction: its locks and its reservation go as well. -/
theorem WaitsForChild.close_node (floor : Int → Int) (hshape : GraphShape db)
    (hwaits : WaitsForChild E db) {row : NodeRow} (hrow : row ∈ db.nodes) (status : NodeStatus)
    (hterminal : status.isTerminal = true) (nowMs : Int) :
    WaitsForChild (fun id => E id ∨ row.parentNodeId = some id) (releaseParentBudget floor
      (deleteLocksOf (settleNode db row.nodeId status nowMs) row.nodeId) row nowMs) := by
  have hclosed := hwaits.close hshape hrow status hterminal nowMs
  have hunlocked : WaitsForChild _
      (deleteLocksOf (settleNode db row.nodeId status nowMs) row.nodeId) := hclosed.side rfl
  exact hunlocked.release floor row nowMs

theorem WaitsForChild.failNode (hshape : GraphShape db) (hwaits : WaitsForChild E db)
    {nodeId workerId : String} {nowMs : Int} {u : Unit}
    (hok : failNode floor nodeId workerId nowMs db = .ok (u, after)) : WaitsForChild E after := by
  obtain ⟨node, howned, hdone⟩ := PyError.bind_eq_ok.mp hok
  obtain ⟨hnode, rfl, hrunning, _⟩ := ownedNode_ok howned
  cases hdone
  have hopen : node.status.isTerminal = false := by
    rw [hrunning]
    rfl
  have hclosed := hwaits.close_node floor hshape hnode .failed rfl nowMs
  have hshape' := hshape.of_frame (close_moves floor hnode hopen .failed rfl nowMs).frame
  have hshape'' := hshape'.of_frame (blockDependents_moves floor hshape' node.nodeId nowMs).frame
  exact (hclosed.blockDependents hshape' node.nodeId nowMs).wake_parent hshape'' nowMs

theorem WaitsForChild.completeNode (hshape : GraphShape db) (hwaits : WaitsForChild E db)
    {nodeId workerId artifactId : String} {draft : ArtifactDraft} {nowMs : Int}
    {artifact : Artifact}
    (hok : completeNode floor nodeId workerId draft artifactId nowMs db = .ok (artifact, after)) :
    WaitsForChild E after := by
  obtain ⟨node, howned, hdone⟩ := PyError.bind_eq_ok.mp hok
  obtain ⟨hnode, rfl, hrunning, _⟩ := ownedNode_ok howned
  split at hdone
  · cases hdone
  · cases hdone
    have hopen : node.status.isTerminal = false := by
      rw [hrunning]
      rfl
    have hrecorded :
        node ∈ (recordArtifact db (draftedArtifact node draft artifactId) nowMs).nodes := hnode
    have hquiet : QuietMoves db (recordArtifact db (draftedArtifact node draft artifactId) nowMs) :=
      recordArtifact_moves _ nowMs
    have hmoved : GraphMoves floor db _ := hquiet.moves
    have hshape' := hshape.of_frame hmoved.frame
    have hwaits' := hwaits.of_quiet (hquiet.rows_quiet hshape)
    have hclosed := hwaits'.close_node floor hshape' hrecorded .completed rfl nowMs
    have hshape'' := hshape'.of_frame (close_moves floor hrecorded hopen .completed rfl nowMs).frame
    exact hclosed.wake_parent hshape'' nowMs

/-- A node that has ended when its turn comes is skipped; another one is cancelled. -/
theorem cancelNode_cases {P : GraphDatabase → Prop} {nodeId : String} {nowMs : Int}
    (hskip : (∀ row ∈ db.nodes, findNode db nodeId = some row → row.status.isTerminal = true) →
      P db)
    (hcancel : ∀ row ∈ db.nodes, row.nodeId = nodeId → row.status.isTerminal = false →
      P (AgentStore.blockDependents floor (releaseParentBudget floor
        (deleteLocksOf (settleNode db row.nodeId .cancelled nowMs) row.nodeId) row nowMs)
        row.nodeId nowMs)) :
    P (cancelNode floor nowMs db nodeId) := by
  unfold cancelNode
  split
  · rename_i hnone
    apply hskip
    intro row _ hfind
    rw [hfind] at hnone
    simpa using hnone
  · rename_i row hrow
    obtain ⟨hfind, hopen⟩ := Option.filter_eq_some_iff.mp hrow
    obtain ⟨hmem, rfl⟩ := findNode_some hfind
    exact hcancel row hmem rfl (by simpa using hopen)

/-- The exceptions that the loop of `cancel_subtree` leaves are parents of the nodes
it visits. -/
theorem WaitsForChild.cancelNode (hshape : GraphShape db) (hwaits : WaitsForChild E db)
    {nodeId : String} (hparents : ∀ row ∈ db.nodes, row.nodeId = nodeId →
      ∀ parentId, row.parentNodeId = some parentId → E parentId) (nowMs : Int) :
    WaitsForChild E (cancelNode floor nowMs db nodeId) := by
  refine cancelNode_cases (fun _ => hwaits) ?_
  intro row hrow hid hopen
  have hclosed := hwaits.close_node floor hshape hrow .cancelled rfl nowMs
  have hshape' := hshape.of_frame (close_moves floor hrow hopen .cancelled rfl nowMs).frame
  refine (hclosed.mono ?_).blockDependents hshape' row.nodeId nowMs
  rintro id (hexcept | hparent)
  · exact hexcept
  · exact hparents row hrow hid id hparent

/-- The node has ended, if it exists. -/
def HasEnded (db : GraphDatabase) (nodeId : String) : Prop :=
  ∀ row ∈ db.nodes, row.nodeId = nodeId → row.status.isTerminal = true

theorem HasEnded.moves {nodeId : String} (hended : HasEnded db nodeId) (hshape : GraphShape db)
    (hmoves : GraphMoves floor db after) : HasEnded after nodeId := by
  intro row hrow hid
  obtain ⟨old, hold, hkeeps⟩ := Table.Forall₂.of_mem_right (hmoves.rows_keepEnd hshape) hrow
  have hwas := hended old hold (hkeeps.same.nodeId.trans hid)
  rw [hkeeps.ended hwas]
  exact hwas

theorem settleNode_ended (row : NodeRow) {status : NodeStatus}
    (hterminal : status.isTerminal = true) (nowMs : Int) :
    HasEnded (releaseParentBudget floor
      (deleteLocksOf (settleNode db row.nodeId status nowMs) row.nodeId) row nowMs) row.nodeId := by
  intro moved hmoved hid
  rw [releaseParentBudget_nodes] at hmoved
  rcases Table.mem_update_cases hmoved with ⟨_, hother⟩ | ⟨old, _, _, rfl⟩
  · simp [hid] at hother
  · exact hterminal

theorem cancelNode_ended (floor : Int → Int) (hshape : GraphShape db) (nodeId : String)
    (nowMs : Int) : HasEnded (AgentStore.cancelNode floor nowMs db nodeId) nodeId := by
  refine cancelNode_cases (P := fun db => HasEnded db nodeId) ?_ ?_
  · intro hskip row hrow hid
    refine hskip row hrow ?_
    unfold findNode
    exact (Table.find?_key_iff hshape.nodeIds).mpr ⟨hrow, hid⟩
  · intro row hrow hid hopen
    subst hid
    have hshape' := hshape.of_frame (close_moves floor hrow hopen .cancelled rfl nowMs).frame
    exact (settleNode_ended row rfl nowMs).moves hshape'
      (blockDependents_moves floor hshape' row.nodeId nowMs)

/-- Every visited node has ended when the loop is over. -/
theorem cancelNodes_ended (floor : Int → Int) (hshape : GraphShape db) {ids : List String}
    (nowMs : Int) : ∀ id ∈ ids, HasEnded (ids.foldl (AgentStore.cancelNode floor nowMs) db) id := by
  induction ids generalizing db with
  | nil => exact fun _ hid => absurd hid List.not_mem_nil
  | cons nodeId rest ih =>
      have hfirst := cancelNode_moves floor hshape nodeId nowMs
      have hshape' := hshape.of_frame hfirst.frame
      intro id hid
      rcases List.mem_cons.mp hid with rfl | hrest
      · exact (cancelNode_ended floor hshape id nowMs).moves hshape'
          (cancelNodes_moves floor hshape' rest nowMs)
      · exact ih hshape' id hrest

/-- Every node of a cancelled subtree has ended. -/
theorem cancelSubtree_ended (hshape : GraphShape db) {nodeId : String} {nowMs : Int}
    {ids : List String} (hok : cancelSubtree floor nodeId nowMs db = .ok (ids, after)) :
    ∀ id ∈ subtree db nodeId, HasEnded after id := by
  cases hok
  intro id hid
  have hended := cancelNodes_ended floor hshape nowMs id hid
  have hshape' := hshape.of_frame (cancelNodes_moves floor hshape (subtree db nodeId) nowMs).frame
  let cancelled := (subtree db nodeId).foldl (AgentStore.cancelNode floor nowMs) db
  have hwaking : QuietMoves cancelled
      (AgentStore.wakeParents cancelled (outerParents cancelled (subtree db nodeId)) nowMs) :=
    wakeParents_moves _ nowMs
  have hmarking : QuietMoves _ (cancelGraphOf (AgentStore.wakeParents cancelled
      (outerParents cancelled (subtree db nodeId)) nowMs) nodeId nowMs) :=
    cancelGraphOf_moves nodeId nowMs
  have hquiet : QuietMoves cancelled _ := hwaking.trans hmarking
  have hmoves : GraphMoves floor cancelled _ := QuietMoves.moves hquiet
  exact hended.moves hshape' hmoves

theorem WaitsForChild.wakeParents (hshape : GraphShape db) (hwaits : WaitsForChild E db)
    (parents : List String) (nowMs : Int) :
    WaitsForChild (fun id => E id ∧ id ∉ parents) (wakeParents db parents nowMs) := by
  unfold AgentStore.wakeParents
  induction parents generalizing db E with
  | nil => exact hwaits.mono fun id h => ⟨h, List.not_mem_nil⟩
  | cons parentId rest ih =>
      have hmoved : GraphMoves id db (wakeParent db (some parentId) nowMs) :=
        (wakeParent_moves _ nowMs).moves
      refine (ih (hshape.of_frame hmoved.frame) (hwaits.wake hshape parentId nowMs)).mono ?_
      rintro id ⟨⟨hexcept, hne⟩, hnot⟩
      exact ⟨hexcept, by simp [hne, hnot]⟩

/-- No parent of the cancelled subtree is left waiting: the inner ones have ended and
the outer ones are woken. -/
theorem WaitsForChild.cancelSubtree (hshape : GraphShape db) (hwaits : WaitsForChild E db)
    {nodeId : String} {nowMs : Int} {ids : List String}
    (hok : cancelSubtree floor nodeId nowMs db = .ok (ids, after)) : WaitsForChild E after := by
  cases hok
  let ids := subtree db nodeId
  let F : String → Prop := fun parentId => E parentId ∨
    ∃ row ∈ db.nodes, row.nodeId ∈ ids ∧ row.parentNodeId = some parentId
  have hcancelled := cancelNodes_moves floor hshape ids nowMs
  have hshape' := hshape.of_frame hcancelled.frame
  have hended : ∀ id ∈ ids, HasEnded (ids.foldl (AgentStore.cancelNode floor nowMs) db) id :=
    cancelNodes_ended floor hshape nowMs
  have hloop : GraphFrame db (ids.foldl (AgentStore.cancelNode floor nowMs) db) ∧
      WaitsForChild F (ids.foldl (AgentStore.cancelNode floor nowMs) db) := by
    refine cancelNodes_rule (I := fun db' => GraphFrame db db' ∧ WaitsForChild F db') hshape ?_
      ⟨.refl db, hwaits.mono fun _ => .inl⟩
    rintro db' id hid hshape' ⟨hframe, hwaits'⟩
    refine ⟨hframe.trans (cancelNode_moves floor hshape' id nowMs).frame,
      hwaits'.cancelNode hshape' ?_ nowMs⟩
    intro row hrow hrowId parentId hparent
    obtain ⟨old, hold, hsame⟩ := Table.Forall₂.of_mem_right hframe.nodes hrow
    exact .inr ⟨old, hold, by rw [hsame.nodeId, hrowId]; exact hid,
      hsame.parentNodeId.trans hparent⟩
  have hwoken := hloop.2.wakeParents hshape' (outerParents
    (ids.foldl (AgentStore.cancelNode floor nowMs) db) ids) nowMs
  have hwaking : GraphMoves floor (ids.foldl (AgentStore.cancelNode floor nowMs) db) _ :=
    (wakeParents_moves (outerParents
      (ids.foldl (AgentStore.cancelNode floor nowMs) db) ids) nowMs).moves
  refine WaitsForChild.side ?_ rfl
  · intro row hrow hwaiting
    refine (hwoken row hrow hwaiting).imp_right ?_
    rintro ⟨hexcept | ⟨child, hchild, hid, hparent⟩, houter⟩
    · exact hexcept
    · exfalso
      obtain ⟨current, hcurrent, hsame⟩ := Table.Forall₂.of_mem_left hloop.1.nodes hchild
      have hfind : findNode (ids.foldl (AgentStore.cancelNode floor nowMs) db) child.nodeId =
          some current :=
        (Table.find?_key_iff hshape'.nodeIds).mpr ⟨hcurrent, hsame.nodeId.symm⟩
      have hinner : row.nodeId ∈ ids := by
        by_contra hout
        apply houter
        refine List.mem_filter.mpr ⟨List.mem_filterMap.mpr ⟨child.nodeId, hid, ?_⟩, by simpa using hout⟩
        rw [hfind, Option.bind_some, ← hsame.parentNodeId, hparent]
      have hover := (hended row.nodeId hinner).moves hshape' hwaking row hrow rfl
      rw [hwaiting] at hover
      cases hover

/-- A table that grew by one node which does not wait. -/
theorem WaitsForChild.append (hwaits : WaitsForChild E db) {node : NodeRow}
    (hnodes : after.nodes = db.nodes ++ [node]) (hidle : node.status ≠ .waiting)
    (hopen : node.status.isTerminal = false) :
    WaitsForChild (fun id => E id ∧ node.parentNodeId ≠ some id) after := by
  intro row hrow hwaiting
  rw [hnodes] at hrow
  rcases List.mem_append.mp hrow with hold | hnew
  · by_cases hparent : node.parentNodeId = some row.nodeId
    · left
      rw [hasOpenChild_iff, hnodes]
      exact ⟨node, List.mem_append_right _ List.mem_cons_self, hparent, hopen⟩
    · refine (hwaits row hold hwaiting).imp ?_ fun hexcept => ⟨hexcept, hparent⟩
      rw [hasOpenChild_iff, hasOpenChild_iff, hnodes]
      rintro ⟨child, hchild, his⟩
      exact ⟨child, List.mem_append_left _ hchild, his⟩
  · rw [List.mem_singleton.mp hnew] at hwaiting
    exact absurd hwaiting hidle

/-- Suspending a parent concerns that parent only. -/
theorem WaitsForChild.suspend (hwaits : WaitsForChild E db) (parent : NodeRow) (nowMs : Int) :
    WaitsForChild (fun id => E id ∨ parent.nodeId = id) (suspendParent db parent nowMs) := by
  unfold suspendParent
  split
  · rename_i hidle
    intro row hrow hwaiting
    rcases Table.mem_update_cases hrow with ⟨hmem, hother⟩ | ⟨old, hold, hid, rfl⟩
    · rcases hwaits row hmem hwaiting with hchild | hexcept
      · left
        obtain ⟨child, hchildMem, hparent, hopen⟩ := hasOpenChild_iff.mp hchild
        rw [hasOpenChild_iff, setNodes_nodes]
        by_cases hcond : decide (child.nodeId = parent.nodeId) = true
        · exact ⟨_, Table.mem_update_of_cond hchildMem hcond, hparent, rfl⟩
        · exact ⟨child, Table.mem_update_of_not hchildMem (by simpa using hcond), hparent, hopen⟩
      · exact .inr (.inl hexcept)
    · exact .inr (.inr (by simpa [eq_comm] using hid))
  · exact hwaits.mono fun _ => .inl

theorem GraphOp.waitsForChild (hshape : GraphShape db) (hwaits : WaitsForChild (fun _ => False) db)
    (op : GraphOp) : WaitsForChild (fun _ => False) (op.apply floor db) := by
  cases effect floor db op with
  | quiet hquiet => exact hwaits.of_quiet (hquiet.rows_quiet hshape)
  | fail hok => exact hwaits.failNode hshape hok
  | complete hok => exact hwaits.completeNode hshape hok
  | cancel hok => exact hwaits.cancelSubtree hshape hok
  | create hok =>
      obtain ⟨_, _, heq⟩ := createGraph_ok hok
      rw [heq]
      exact (hwaits.append rfl NodeStatus.noConfusion rfl).mono fun _ h => h.1
  | @spawn _ _ _ _ ready nowMs _ _ _ parent _ _ hspawned =>
      have hsuspended := hwaits.suspend parent nowMs
      rw [hspawned.result]
      refine (hsuspended.append rfl ?_ ?_).mono ?_
      · cases ready <;> exact NodeStatus.noConfusion
      · cases ready <;> rfl
      · rintro id ⟨hexcept | rfl, hnot⟩
        · exact hexcept
        · exact hnot (congrArg some hspawned.parentIs.symm)

/-! ### Every reachable state -/

/-- What every reachable state keeps. -/
structure NodeLifecycle (db : GraphDatabase) : Prop where
  nodeIds : (db.nodes.map NodeRow.nodeId).Nodup
  leased : ∀ row ∈ db.nodes,
    row.status = .running ↔ row.leaseOwner.isSome ∧ row.leaseExpiresAtMs.isSome
  concurrency : ∀ graph ∈ db.graphs,
    runningCount db graph.graphId ≤ graph.limits.maxConcurrency
  nodeLimit : ∀ graph ∈ db.graphs,
    (db.nodes.countP fun row => row.graphId = graph.graphId) ≤ graph.limits.maxNodes
  depthLimit : ∀ row ∈ db.nodes, ∃ graph ∈ db.graphs, graph.graphId = row.graphId ∧
    row.depth ≤ graph.limits.maxDepth
  depthOf : ∀ row ∈ db.nodes, ∀ parentId, row.parentNodeId = some parentId →
    ∃ parent ∈ db.nodes, parent.nodeId = parentId ∧ row.depth = parent.depth + 1
  waiting : ∀ row ∈ db.nodes, row.status = .waiting →
    ∃ child ∈ db.nodes, child.parentNodeId = some row.nodeId ∧ child.status.isTerminal = false

/-- The invariant behind it. -/
structure LifecycleInvariant (db : GraphDatabase) : Prop where
  shape : GraphShape db
  columns : ∀ row ∈ db.nodes, row.LeaseColumns
  concurrency : WithinConcurrency db
  waits : WaitsForChild (fun _ => False) db

theorem LifecycleInvariant.empty : LifecycleInvariant {} :=
  ⟨.empty, fun _ hrow => absurd hrow List.not_mem_nil, fun _ hgraph =>
    absurd hgraph List.not_mem_nil, fun _ hrow => absurd hrow List.not_mem_nil⟩

theorem LifecycleInvariant.lifecycle (hinv : LifecycleInvariant db) : NodeLifecycle db where
  nodeIds := hinv.shape.nodeIds
  leased := fun row hrow => (hinv.columns row hrow).iff
  concurrency := hinv.concurrency
  nodeLimit := hinv.shape.nodeLimit
  depthLimit := by
    intro row hrow
    obtain ⟨graph, hgraph, hid⟩ := hinv.shape.graphOf row hrow
    exact ⟨graph, hgraph, hid, hinv.shape.depthLimit row hrow graph hgraph hid⟩
  depthOf := by
    intro row hrow parentId hparent
    obtain ⟨parent, hmem, hid, _, hdepth⟩ := hinv.shape.parentOf row hrow parentId hparent
    exact ⟨parent, hmem, hid, hdepth⟩
  waiting := by
    intro row hrow hwaiting
    exact hasOpenChild_iff.mp ((hinv.waits row hrow hwaiting).resolve_right id)

theorem GraphMoves.leaseColumns (hshape : GraphShape db) (hmoves : GraphMoves floor db after)
    (hcolumns : ∀ row ∈ db.nodes, row.LeaseColumns) : ∀ row ∈ after.nodes, row.LeaseColumns := by
  induction hmoves with
  | refl => exact hcolumns
  | tail hbefore hlast ih =>
      intro row hrow
      have hbetween := hshape.of_frame (GraphMoves.frame hbefore)
      obtain ⟨old, hold, hmove⟩ := Table.Forall₂.of_mem_right (hlast.row_moves hbetween) hrow
      exact hmove.leaseColumns (ih old hold)

theorem GraphMoves.withinConcurrency (hshape : GraphShape db) (hmoves : GraphMoves floor db after)
    (hwithin : WithinConcurrency db) : WithinConcurrency after := by
  induction hmoves with
  | refl => exact hwithin
  | tail hbefore hlast ih =>
      exact hlast.withinConcurrency (hshape.of_frame (GraphMoves.frame hbefore)) ih

theorem newNode_leaseColumns {nodeId graphId path : String} {parentNodeId : Option String}
    {spec : NodeSpec} {depth : Nat} {status : NodeStatus} (hidle : status ≠ .running)
    (nowMs : Int) :
    (newNode nodeId graphId parentNodeId path spec depth status nowMs).LeaseColumns :=
  .idle hidle rfl rfl

theorem LifecycleInvariant.apply (hinv : LifecycleInvariant db) (op : GraphOp) :
    LifecycleInvariant (op.apply floor db) := by
  refine ⟨GraphOp.shape hinv.shape op, ?_, ?_, GraphOp.waitsForChild hinv.shape hinv.waits op⟩
  · refine GraphOp.apply_rule (P := fun db => ∀ row ∈ db.nodes, row.LeaseColumns) hinv.shape
      ?_ ?_ ?_ op
    · exact fun after hmoves => hmoves.leaseColumns hinv.shape hinv.columns
    · intro args graphId rootNodeId nowMs after hok row hrow
      obtain ⟨_, _, rfl⟩ := createGraph_ok hok
      rcases List.mem_append.mp hrow with hold | hnew
      · exact hinv.columns row hold
      · rw [List.mem_singleton.mp hnew]
        exact newNode_leaseColumns NodeStatus.noConfusion nowMs
    · intro graphId parentNodeId spec ready nodeId nowMs after graph parent reserved hspawned row hrow
      have hsuspended := suspendParent_moves floor hspawned.parentMem nowMs
      rw [hspawned.result] at hrow
      rcases List.mem_append.mp hrow with hold | hnew
      · exact hsuspended.leaseColumns hinv.shape hinv.columns row hold
      · rw [List.mem_singleton.mp hnew]
        exact newNode_leaseColumns (by cases ready <;> exact NodeStatus.noConfusion) nowMs
  · refine GraphOp.apply_rule hinv.shape ?_ ?_ ?_ op
    · exact fun after hmoves => hmoves.withinConcurrency hinv.shape hinv.concurrency
    · intro args graphId rootNodeId nowMs after hok
      obtain ⟨hgraphs, _, rfl⟩ := createGraph_ok hok
      refine hinv.concurrency.append rfl NodeStatus.noConfusion ?_
      intro graph hgraph
      rcases List.mem_append.mp hgraph with hold | hnew
      · exact .inl hold
      · rw [List.mem_singleton.mp hnew]
        right
        intro row hrow hin
        obtain ⟨other, hother, hid⟩ := hinv.shape.graphOf row hrow
        exact (hgraphs other hother).1 (hid.trans hin)
    · intro graphId parentNodeId spec ready nodeId nowMs after graph parent reserved hspawned
      have hsuspended := suspendParent_moves floor hspawned.parentMem nowMs
      have hwithin := hsuspended.withinConcurrency hinv.shape hinv.concurrency
      rw [hspawned.result]
      refine hwithin.append rfl (by cases ready <;> exact NodeStatus.noConfusion) ?_
      intro graph hgraph
      left
      rw [suspendParent_eq db parent nowMs]
      exact hgraph

/-- Any transactions in any order and at any times: a node that ended stays as it
ended, and every state has the properties of `NodeLifecycle`. -/
theorem node_lifecycle (ops : List GraphOp) :
    Always (GraphOp.step clampZero) NodeLifecycle ops {} ∧
      Along (GraphOp.step clampZero) (fun db op => EndedKept db (op.apply clampZero db)) ops {} := by
  have hkeep : ∀ db op after, LifecycleInvariant db → GraphOp.step clampZero db op = some after →
      LifecycleInvariant after := by
    intro db op after hinv hstep
    cases hstep
    exact hinv.apply op
  constructor
  · exact always_of_invariant (C := fun _ _ => True) (fun db op after hinv _ => hkeep db op after hinv)
      (fun _ => LifecycleInvariant.lifecycle) .empty (along_of_forall (fun _ _ => trivial) ops _)
  · exact along_of_invariant (C := fun _ _ => True) (fun db op after hinv _ => hkeep db op after hinv)
      (fun db op hinv _ => GraphOp.endedKept hinv.shape op) .empty
      (along_of_forall (fun _ _ => trivial) ops _)

end Codex2Lark
