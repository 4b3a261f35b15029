import Codex2Lark.Storage.NodeLifecycle
import Codex2Lark.Storage.NodeEnds

/-!
The graph of one root run: a root node and its children, without dependencies between
them. What each transaction that a delegation makes does to the status of a node.
-/

namespace Codex2Lark

open Lib AgentStore

structure StarGraph (graphId rootNodeId : String) (db : GraphDatabase) : Prop where
  life : LifecycleInvariant db
  graphs : ∀ graph ∈ db.graphs, graph.graphId = graphId ∧ graph.rootNodeId = rootNodeId
  edges : db.edges = []
  rows : ∀ row ∈ db.nodes, row.graphId = graphId ∧ row.spec.deadlineMs = none ∧
    row.parentNodeId = if row.nodeId = rootNodeId then none else some rootNodeId

/-- The transactions of a delegation: none of them creates a graph or interrupts a node,
and they spawn children of the root only. -/
def GraphOp.IsStarOp (graphId rootNodeId : String) : GraphOp → Prop
  | .createGraph _ _ _ _ | .interruptNode _ _ => False
  | .spawnChild inGraph parentNodeId spec _ _ _ => inGraph = graphId ∧ parentNodeId = rootNodeId ∧
      spec.dependencyNodeIds = [] ∧ spec.deadlineMs = none
  | _ => True

namespace StarGraph

variable {floor : Int → Int} {graphId rootNodeId : String} {db after : GraphDatabase}

theorem of_frame (hstar : StarGraph graphId rootNodeId db) (hlife : LifecycleInvariant after)
    (hframe : GraphFrame db after) : StarGraph graphId rootNodeId after := by
  refine ⟨hlife, ?_, hframe.edges.trans hstar.edges, ?_⟩
  · intro graph hgraph
    obtain ⟨old, hold, hsame⟩ := Table.Forall₂.of_mem_right hframe.graphs hgraph
    rw [← hsame.graphId, ← hsame.rootNodeId]
    exact hstar.graphs old hold
  · intro row hrow
    obtain ⟨old, hold, hsame⟩ := Table.Forall₂.of_mem_right hframe.nodes hrow
    rw [← hsame.graphId, ← hsame.spec, ← hsame.parentNodeId, ← hsame.nodeId]
    exact hstar.rows old hold

theorem apply (hstar : StarGraph graphId rootNodeId db) {op : GraphOp}
    (hop : op.IsStarOp graphId rootNodeId) : StarGraph graphId rootNodeId (op.apply floor db) := by
  have hlife : LifecycleInvariant (op.apply floor db) := hstar.life.apply op
  have heffect := GraphOp.effect floor db op
  revert hlife heffect
  generalize op.apply floor db = after
  intro hlife heffect
  cases heffect with
  | quiet hquiet => exact hstar.of_frame hlife (hquiet.moves : GraphMoves floor db after).frame
  | fail hok => exact hstar.of_frame hlife (failNode_moves hstar.life.shape hok).frame
  | complete hok => exact hstar.of_frame hlife (completeNode_moves hok).frame
  | cancel hok => exact hstar.of_frame hlife (cancelSubtree_moves hstar.life.shape hok).frame
  | create hok => exact hop.elim
  | @spawn _ parentNodeId nodeId spec ready nowMs _ _ _ parent _ _ hspawned =>
      obtain ⟨rfl, rfl, hdependencies, hdeadline⟩ := hop
      have hsuspended := (suspendParent_moves floor hspawned.parentMem nowMs).frame
      have hresult := hspawned.result
      refine ⟨hlife, ?_, ?_, ?_⟩
      · rw [hresult]
        exact hstar.graphs
      · rw [hresult, hdependencies]
        simpa using hstar.edges
      · intro row hrow
        rw [hresult] at hrow
        rcases List.mem_append.mp hrow with hold | hnew
        · obtain ⟨old, holdMem, hsame⟩ := Table.Forall₂.of_mem_right hsuspended.nodes hold
          rw [← hsame.graphId, ← hsame.spec, ← hsame.parentNodeId, ← hsame.nodeId]
          exact hstar.rows old holdMem
        · have hfresh : nodeId ≠ parentNodeId := by
            intro heq
            exact hspawned.fresh parent hspawned.parentMem (hspawned.parentIs.trans heq.symm)
          rw [List.mem_singleton.mp hnew]
          exact ⟨rfl, hdeadline, by simp [newNode, hfresh]⟩

/-- The locks are no part of the star. -/
theorem locks (hstar : StarGraph graphId rootNodeId db) (locks : List LockRow) :
    StarGraph graphId rootNodeId { db with locks } := by
  have hquiet : QuietMoves db { db with locks } := .single (.side rfl rfl rfl rfl)
  have hmoves : GraphMoves id db { db with locks } := hquiet.moves
  refine hstar.of_frame ⟨hstar.life.shape.of_frame hmoves.frame, hstar.life.columns,
    hmoves.withinConcurrency hstar.life.shape hstar.life.concurrency, ?_⟩ hmoves.frame
  exact hstar.life.waits.side rfl

end StarGraph

/-! ### What a transaction does to the status of a node -/

/-- The nodes that a transaction is to end; without edges it ends no others. -/
def GraphOp.endedIds (db : GraphDatabase) : GraphOp → List String
  | .failNode nodeId _ _ => [nodeId]
  | .completeNode nodeId _ _ _ _ => [nodeId]
  | .cancelSubtree nodeId _ => subtree db nodeId
  | _ => []

/-- The status of one row before and after a transaction: it stays, the node ends, a
waiting parent without an open child is woken, the node is activated, or a lease queues it
again or starts it. -/
inductive StatusMove (op : GraphOp) (db after : GraphDatabase) (old moved : NodeRow) : Prop
  | kept (hstatus : moved.status = old.status)
  | ended (hopen : old.status.isTerminal = false) (hterminal : moved.status.isTerminal = true)
      (hworked : moved.status ≠ .cancelled → old.status = .running)
      (hid : old.nodeId ∈ op.endedIds db)
  | woken (hwaiting : old.status = .waiting) (hready : moved.status = .ready)
      (hnone : hasOpenChild after old.nodeId = false)
  | activated (hcreated : old.status = .created) (hready : moved.status = .ready)
      (hop : ∃ nowMs, op = .activateNode old.nodeId nowMs)
  | queued (hrunning : old.status = .running) (hready : moved.status = .ready)
      (hop : ∃ graphId args, op = .leaseReady graphId args)
  | leased (hidle : old.status = .running ∨ old.status = .ready ∨ old.status = .interrupted)
      (hrunning : moved.status = .running) (hnone : hasOpenChild db old.nodeId = false)
      (hop : ∃ graphId args, op = .leaseReady graphId args)

/-- Every row of the table after the transaction is a row of the table before it that has
moved so. -/
def StatusMoves (op : GraphOp) (db after : GraphDatabase) : Prop :=
  ∀ moved ∈ after.nodes, ∃ old ∈ db.nodes, old.Same moved ∧ StatusMove op db after old moved

section Moves

variable {floor : Int → Int} {op : GraphOp} {db middle after : GraphDatabase}

theorem StatusMoves.of_nodes (hnodes : after.nodes = db.nodes) : StatusMoves op db after :=
  fun moved hmoved => ⟨moved, hnodes ▸ hmoved, .refl moved, .kept rfl⟩

/-! #### The end of nodes, without dependents -/

theorem blockDependents_of_no_edges (hedges : db.edges = []) (nodeId : String) (nowMs : Int) :
    blockDependents floor db nodeId nowMs = db := by
  simp [blockDependents, openDependents, hedges]

/-- Some open nodes of the list have ended. -/
def ClosedRows (ids : List String) (db middle : GraphDatabase) : Prop :=
  ∀ row ∈ middle.nodes, ∃ old ∈ db.nodes, old.Same row ∧ (row.status = old.status ∨
    old.status.isTerminal = false ∧ row.status.isTerminal = true ∧
      (row.status ≠ .cancelled → old.status = .running) ∧ old.nodeId ∈ ids)

/-- Some waiting nodes have been woken, each without an open child. -/
def WokenRows (middle after : GraphDatabase) : Prop :=
  ∀ moved ∈ after.nodes, ∃ row ∈ middle.nodes, row.Same moved ∧ (moved.status = row.status ∨
    row.status = .waiting ∧ moved.status = .ready ∧ hasOpenChild after row.nodeId = false)

theorem StatusMoves.of_closed (hclosed : ClosedRows (op.endedIds db) db middle) (hwoken : WokenRows middle after) :
    StatusMoves op db after := by
  intro moved hmoved
  obtain ⟨row, hrow, hsame, hwake⟩ := hwoken moved hmoved
  obtain ⟨old, hold, hsame', hclose⟩ := hclosed row hrow
  refine ⟨old, hold, hsame'.trans hsame, ?_⟩
  rcases hwake with hstatus | ⟨hwaiting, hready, hnone⟩
  · rcases hclose with hkept | ⟨hopen, hterminal, hworked, hid⟩
    · exact .kept (hstatus.trans hkept)
    · exact .ended hopen (hstatus ▸ hterminal) (hstatus ▸ hworked) hid
  · rcases hclose with hkept | ⟨_, hterminal, _⟩
    · exact .woken (hkept.symm.trans hwaiting) hready (hsame'.nodeId ▸ hnone)
    · rw [hwaiting] at hterminal
      cases hterminal

theorem ClosedRows.refl (ids : List String) (db : GraphDatabase) : ClosedRows ids db db :=
  fun row hrow => ⟨row, hrow, .refl row, .inl rfl⟩

theorem ClosedRows.settle {ids : List String} (hclosed : ClosedRows ids db middle)
    (hshape : GraphShape middle) {row : NodeRow} (hrow : row ∈ middle.nodes) (hid : row.nodeId ∈ ids)
    (hopen : row.status.isTerminal = false)
    (status : NodeStatus) (hterminal : status.isTerminal = true)
    (hworked : status ≠ .cancelled → row.status = .running) (nowMs : Int)
    (hnodes : after.nodes = (settleNode middle row.nodeId status nowMs).nodes) :
    ClosedRows ids db after := by
  intro moved hmoved
  rw [hnodes, settleNode_nodes] at hmoved
  rcases Table.mem_update_cases hmoved with ⟨hkept, _⟩ | ⟨ending, hending, hending', rfl⟩
  · exact hclosed moved hkept
  · have hsame : ending = row := hshape.node_eq hending hrow (by simpa using hending')
    subst hsame
    obtain ⟨old, hold, hsame', hclose⟩ := hclosed ending hending
    refine ⟨old, hold, hsame'.trans ⟨rfl, rfl, rfl, rfl, rfl, rfl⟩, .inr ?_⟩
    rcases hclose with hkept | ⟨_, hover, _⟩
    · exact ⟨hkept ▸ hopen, hterminal, fun hstatus => hkept ▸ hworked hstatus, hsame'.nodeId ▸ hid⟩
    · rw [hopen] at hover
      cases hover

/-- An update that neither ends nor opens a node leaves every node's open children. -/
theorem setNodes_hasOpenChild {cond : NodeRow → Bool} {set : NodeRow → NodeRow}
    (hparent : ∀ row, (set row).parentNodeId = row.parentNodeId)
    (hopen : ∀ row, cond row → (set row).status.isTerminal = row.status.isTerminal)
    (nodeId : String) : hasOpenChild (setNodes db cond set) nodeId = hasOpenChild db nodeId := by
  rw [hasOpenChild, hasOpenChild, setNodes, Table.update, List.any_map, Bool.eq_iff_iff,
    List.any_eq_true, List.any_eq_true]
  refine exists_congr fun row => and_congr_right fun _ => ?_
  simp only [Function.comp_apply]
  cases hcond : cond row with
  | false => simp
  | true => simp [hparent row, hopen row hcond]

/-- Waking leaves every node open that was open. -/
theorem wakeParent_hasOpenChild (parentNodeId : Option String) (nowMs : Int) (nodeId : String) :
    hasOpenChild (wakeParent db parentNodeId nowMs) nodeId = hasOpenChild db nodeId := by
  obtain ⟨cond, hwaiting, hwoken⟩ := wakeParent_eq db parentNodeId nowMs
  rw [hwoken]
  refine setNodes_hasOpenChild ?_ ?_ nodeId
  · exact fun _ => rfl
  · intro row hcond
    rw [hwaiting row hcond]
    rfl

theorem WokenRows.of_nodes (hnodes : after.nodes = middle.nodes) : WokenRows middle after :=
  fun moved hmoved => ⟨moved, hnodes ▸ hmoved, .refl moved, .inl rfl⟩

theorem WokenRows.wake (hwoken : WokenRows middle after) (parentNodeId : Option String)
    (nowMs : Int) : WokenRows middle (wakeParent after parentNodeId nowMs) := by
  intro moved hmoved
  have hbefore {id : String} : hasOpenChild (wakeParent after parentNodeId nowMs) id =
      hasOpenChild after id := wakeParent_hasOpenChild parentNodeId nowMs id
  have hcase : moved ∈ after.nodes ∨ ∃ old ∈ after.nodes, old.status = .waiting ∧
      hasOpenChild after old.nodeId = false ∧
      moved = { old with status := .ready, updatedAtMs := nowMs } := by
    unfold wakeParent at hmoved
    split at hmoved
    · exact .inl hmoved
    · split at hmoved
      · exact .inl hmoved
      · rename_i hnone
        rcases Table.mem_update_cases hmoved with ⟨hkept, _⟩ | ⟨old, hold, hcond, rfl⟩
        · exact .inl hkept
        · simp only [Bool.and_eq_true, decide_eq_true_eq] at hcond
          exact .inr ⟨old, hold, hcond.2, hcond.1 ▸ by simpa using hnone, rfl⟩
  rcases hcase with hkept | ⟨old, hold, hwaiting, hnone, rfl⟩
  · obtain ⟨row, hrow, hsame, hmove⟩ := hwoken moved hkept
    refine ⟨row, hrow, hsame, hmove.imp_right ?_⟩
    rintro ⟨hwaiting, hready, hnone⟩
    exact ⟨hwaiting, hready, hbefore.trans hnone⟩
  · obtain ⟨row, hrow, hsame, hmove⟩ := hwoken old hold
    refine ⟨row, hrow, hsame.trans ⟨rfl, rfl, rfl, rfl, rfl, rfl⟩, .inr ?_⟩
    rcases hmove with hstatus | ⟨_, hready, _⟩
    · exact ⟨hstatus.symm.trans hwaiting, rfl, hbefore.trans (hsame.nodeId ▸ hnone)⟩
    · rw [hready] at hwaiting
      cases hwaiting

theorem WokenRows.wakeAll (hwoken : WokenRows middle after) (parents : List String) (nowMs : Int) :
    WokenRows middle (wakeParents after parents nowMs) := by
  unfold wakeParents
  induction parents generalizing after with
  | nil => exact hwoken
  | cons parentId rest ih => exact ih (hwoken.wake (some parentId) nowMs)

theorem failNode_statusMoves (hshape : GraphShape db) (hedges : db.edges = [])
    {nodeId workerId : String} {nowMs : Int} {u : Unit}
    (hok : failNode floor nodeId workerId nowMs db = .ok (u, after)) :
    StatusMoves (.failNode nodeId workerId nowMs) db after := by
  obtain ⟨row, howned, hdone⟩ := PyError.bind_eq_ok.mp hok
  obtain ⟨hrow, rfl, hrunning, _⟩ := ownedNode_ok howned
  cases hdone
  have hopen : row.status.isTerminal = false := by
    rw [hrunning]
    rfl
  have hunlinked : (releaseParentBudget floor
      (deleteLocksOf (settleNode db row.nodeId .failed nowMs) row.nodeId) row nowMs).edges = [] := by
    rw [releaseParentBudget_edges]
    exact hedges
  rw [blockDependents_of_no_edges hunlinked]
  have hclosed : ClosedRows [row.nodeId] db (releaseParentBudget floor
      (deleteLocksOf (settleNode db row.nodeId .failed nowMs) row.nodeId) row nowMs) := by
    refine (ClosedRows.refl _ db).settle hshape hrow (List.mem_singleton_self _) hopen
      .failed rfl (fun _ => hrunning) nowMs ?_
    rw [releaseParentBudget_nodes]
    rfl
  exact .of_closed hclosed ((WokenRows.of_nodes rfl).wake row.parentNodeId nowMs)

theorem completeNode_statusMoves (hshape : GraphShape db) {nodeId workerId artifactId : String}
    {draft : ArtifactDraft} {nowMs : Int} {artifact : Artifact}
    (hok : completeNode floor nodeId workerId draft artifactId nowMs db = .ok (artifact, after)) :
    StatusMoves (.completeNode nodeId workerId draft artifactId nowMs) db after := by
  obtain ⟨row, howned, hdone⟩ := PyError.bind_eq_ok.mp hok
  obtain ⟨hrow, rfl, hrunning, _⟩ := ownedNode_ok howned
  split at hdone
  · cases hdone
  · cases hdone
    have hopen : row.status.isTerminal = false := by
      rw [hrunning]
      rfl
    have hclosed : ClosedRows [row.nodeId] db (releaseParentBudget floor (deleteLocksOf (settleNode
        (recordArtifact db (draftedArtifact row draft artifactId) nowMs) row.nodeId .completed nowMs)
        row.nodeId) row nowMs) := by
      refine (ClosedRows.refl _ db).settle hshape hrow (List.mem_singleton_self _) hopen
        .completed rfl (fun _ => hrunning) nowMs ?_
      rw [releaseParentBudget_nodes]
      rfl
    exact .of_closed hclosed ((WokenRows.of_nodes rfl).wake row.parentNodeId nowMs)

/-- The loop of `cancel_subtree`. -/
theorem cancelNodes_closed (hshape : GraphShape db) (hedges : db.edges = []) (ids : List String)
    (nowMs : Int) : ClosedRows ids db (ids.foldl (cancelNode floor nowMs) db) := by
  refine (cancelNodes_rule (I := fun middle => middle.edges = [] ∧ ClosedRows ids db middle) hshape ?_
    ⟨hedges, .refl ids db⟩).2
  rintro middle nodeId hmem hshape' ⟨hedges', hclosed⟩
  refine cancelNode_cases (P := fun after => after.edges = [] ∧ ClosedRows ids db after)
    (fun _ => ⟨hedges', hclosed⟩) ?_
  intro row hrow hid hopen
  have hunlinked : (releaseParentBudget floor
      (deleteLocksOf (settleNode middle row.nodeId .cancelled nowMs) row.nodeId) row nowMs).edges =
      [] := by
    rw [releaseParentBudget_edges]
    exact hedges'
  rw [blockDependents_of_no_edges hunlinked]
  refine ⟨hunlinked, hclosed.settle hshape' hrow (hid ▸ hmem) hopen .cancelled rfl
    (fun hother => absurd rfl hother) nowMs ?_⟩
  rw [releaseParentBudget_nodes]
  rfl

theorem cancelSubtree_statusMoves (hshape : GraphShape db) (hedges : db.edges = [])
    {nodeId : String} {nowMs : Int} {ids : List String}
    (hok : cancelSubtree floor nodeId nowMs db = .ok (ids, after)) :
    StatusMoves (.cancelSubtree nodeId nowMs) db after := by
  cases hok
  let cancelled := (subtree db nodeId).foldl (cancelNode floor nowMs) db
  have hclosed : ClosedRows (subtree db nodeId) db cancelled :=
    cancelNodes_closed hshape hedges (subtree db nodeId) nowMs
  have hwoken : WokenRows cancelled
      (wakeParents cancelled (outerParents cancelled (subtree db nodeId)) nowMs) :=
    (WokenRows.of_nodes rfl).wakeAll _ nowMs
  exact .of_closed hclosed hwoken

/-! #### Activation and leases -/

theorem activateNode_statusMoves {nodeId : String} {nowMs : Int} {node : AgentNode}
    (hok : activateNode nodeId nowMs db = .ok (node, after)) :
    StatusMoves (.activateNode nodeId nowMs) db after := by
  obtain ⟨rfl, _⟩ := activateNode_ok hok
  intro moved hmoved
  rcases Table.mem_update_cases hmoved with ⟨hkept, _⟩ | ⟨old, hold, hcond, rfl⟩
  · exact ⟨moved, hkept, .refl moved, .kept rfl⟩
  · simp only [Bool.and_eq_true, decide_eq_true_eq] at hcond
    exact ⟨old, hold, ⟨rfl, rfl, rfl, rfl, rfl, rfl⟩,
      .activated hcond.2 rfl ⟨nowMs, by rw [hcond.1]⟩⟩

theorem expireLeases_hasOpenChild (graphId : String) (nowMs : Int) (nodeId : String) :
    hasOpenChild (expireLeases db graphId nowMs) nodeId = hasOpenChild db nodeId := by
  refine setNodes_hasOpenChild ?_ ?_ nodeId
  · exact fun _ => rfl
  · intro row hcond
    simp only [Bool.and_eq_true, decide_eq_true_eq] at hcond
    rw [hcond.1.2]
    rfl

theorem isLeasable_childless {graphId : String} {nowMs : Int} {row : NodeRow}
    (hleasable : isLeasable db graphId nowMs row = true) : hasOpenChild db row.nodeId = false := by
  simp only [isLeasable, Bool.and_eq_true, Bool.not_eq_true'] at hleasable
  exact hleasable.1.2

theorem leaseReady_statusMoves (hshape : GraphShape db) {graphId : String} {args : LeaseReady}
    {leased : List AgentNode} (hok : leaseReady graphId args db = .ok (leased, after)) :
    StatusMoves (.leaseReady graphId args) db after := by
  have hexpired : ∀ row ∈ (expireLeases db graphId args.nowMs).nodes, ∃ old ∈ db.nodes,
      old.Same row ∧ (row.status = old.status ∨ old.status = .running ∧ row.status = .ready) := by
    intro row hrow
    rcases Table.mem_update_cases hrow with ⟨hkept, _⟩ | ⟨old, hold, hcond, rfl⟩
    · exact ⟨row, hkept, .refl row, .inl rfl⟩
    · simp only [Bool.and_eq_true, decide_eq_true_eq] at hcond
      exact ⟨old, hold, ⟨rfl, rfl, rfl, rfl, rfl, rfl⟩, .inr ⟨hcond.1.2, rfl⟩⟩
  have hreset : QuietMoves db (purgeLocks (expireLeases db graphId args.nowMs) args.nowMs) :=
    .trans (expireLeases_moves graphId args.nowMs) (purgeLocks_moves args.nowMs)
  have hshape' : GraphShape (purgeLocks (expireLeases db graphId args.nowMs) args.nowMs) :=
    hshape.of_frame (hreset.moves : GraphMoves id db _).frame
  have hunselected : ∀ row ∈ (expireLeases db graphId args.nowMs).nodes, ∃ old ∈ db.nodes,
      old.Same row ∧ StatusMove (.leaseReady graphId args) db after old row := by
    intro row hrow
    obtain ⟨old, hold, hsame, hkept | ⟨hrunning, hready⟩⟩ := hexpired row hrow
    · exact ⟨old, hold, hsame, .kept hkept⟩
    · exact ⟨old, hold, hsame, .queued hrunning hready ⟨graphId, args, rfl⟩⟩
  cases (leaseReady_ok hok).2 with
  | inactive hnone => exact hunselected
  | selected hgraph =>
    intro moved hmoved
    rcases Table.mem_update_cases hmoved with ⟨hkept, _⟩ | ⟨row, hrow, hcond, rfl⟩
    · exact hunselected moved hkept
    · obtain ⟨old, hold, hsame, hcase⟩ := hexpired row hrow
      have hselected := (isLeased_iff hshape' hrow).mp hcond
      have hleasable := (mem_leaseSelection hselected).2
      have hnone : hasOpenChild db old.nodeId = false := by
        have hnone' := isLeasable_childless hleasable
        rw [← hsame.nodeId] at hnone'
        exact (expireLeases_hasOpenChild graphId args.nowMs old.nodeId).symm.trans hnone'
      refine ⟨old, hold, hsame.trans ⟨rfl, rfl, rfl, rfl, rfl, rfl⟩,
        .leased ?_ rfl hnone ⟨graphId, args, rfl⟩⟩
      have hidle := (isLeasable_status hleasable).2
      rcases hcase with hstatus | ⟨hrunning, _⟩
      · rw [hstatus] at hidle
        exact .inr hidle
      · exact .inl hrunning

/-! #### Any transaction -/

theorem takeLock_nodes (db : GraphDatabase) (lock : LockRow) :
    (takeLock db lock).2.nodes = db.nodes := by
  unfold takeLock
  simp only
  split
  · rfl
  · split <;> rfl

theorem renewTargets_nodes (ownerId : String) (nowMs leaseMs : Int)
    (targets : List WriteScopeTarget) (db : GraphDatabase) :
    (renewTargets ownerId nowMs leaseMs targets db).2.nodes = db.nodes := by
  induction targets generalizing db with
  | nil => rfl
  | cons target rest ih =>
      unfold renewTargets
      simp only
      split
      · rfl
      · rw [ih]
        rfl

theorem finishGraph_nodes {graphId nodeId : String} {status : GraphStatus} {nowMs : Int} {u : Unit}
    (hok : finishGraph graphId nodeId status nowMs db = .ok (u, after)) :
    after.nodes = db.nodes := by
  obtain ⟨_, rfl⟩ := finishGraph_ok hok
  rfl

/-- Every transaction but a creation or an interruption. -/
theorem GraphOp.statusMoves (hshape : GraphShape db) (hedges : db.edges = []) (op : GraphOp)
    (hcreate : ∀ args graphId rootNodeId nowMs, op ≠ .createGraph args graphId rootNodeId nowMs)
    (hspawn : ∀ graphId parentNodeId spec ready nodeId nowMs,
      op ≠ .spawnChild graphId parentNodeId spec ready nodeId nowMs)
    (hinterrupt : ∀ nodeId nowMs, op ≠ .interruptNode nodeId nowMs) :
    StatusMoves op db (op.apply floor db) := by
  have hstay (op : GraphOp) : StatusMoves op db db := .of_nodes rfl
  cases op with
  | createGraph args graphId rootNodeId nowMs => exact absurd rfl (hcreate _ _ _ _)
  | spawnChild graphId parentNodeId spec ready nodeId nowMs => exact absurd rfl (hspawn _ _ _ _ _ _)
  | interruptNode nodeId nowMs => exact absurd rfl (hinterrupt _ _)
  | activateNode nodeId nowMs =>
      exact GraphDatabase.transaction_rule (hstay _) fun _ _ hok => activateNode_statusMoves hok
  | leaseReady graphId args =>
      exact GraphDatabase.transaction_rule (hstay _) fun _ _ hok => leaseReady_statusMoves hshape hok
  | failNode nodeId workerId nowMs =>
      exact GraphDatabase.transaction_rule (hstay _) fun _ _ hok =>
        failNode_statusMoves hshape hedges hok
  | completeNode nodeId workerId draft artifactId nowMs =>
      exact GraphDatabase.transaction_rule (hstay _) fun _ _ hok => completeNode_statusMoves hshape hok
  | cancelSubtree nodeId nowMs =>
      exact GraphDatabase.transaction_rule (hstay _) fun _ _ hok =>
        cancelSubtree_statusMoves hshape hedges hok
  | finishGraph graphId nodeId status nowMs =>
      refine GraphDatabase.transaction_rule (hstay _) fun _ after hok => .of_nodes ?_
      exact finishGraph_nodes hok
  | sendMail args itemId =>
      refine GraphDatabase.transaction_rule (hstay _) fun _ after hok => .of_nodes ?_
      cases sendMail_ok hok <;> rfl
  | receiveMail nodeId => exact .of_nodes rfl
  | acknowledgeMail itemId nodeId =>
      refine GraphDatabase.transaction_rule (hstay _) fun _ after hok => .of_nodes ?_
      obtain ⟨_, rfl⟩ := acknowledgeMail_ok hok
      rfl
  | acquireLock graphId nodeId target nowMs leaseMs =>
      refine GraphDatabase.transaction_rule (hstay _) fun granted after hok => .of_nodes ?_
      have htaken := congrArg Prod.snd (acquireLock_ok hok).2
      simp only at htaken
      rw [← htaken, takeLock_nodes]
      rfl
  | releaseLocks nodeId => exact .of_nodes rfl
  | acquireRootWriteScope rootRunId tenantKey target nowMs leaseMs =>
      refine GraphDatabase.transaction_rule (hstay _) fun owner after hok => .of_nodes ?_
      obtain ⟨_, graph, _, _, _, _, granted, _, htaken⟩ := acquireRootWriteScope_ok hok
      have hafter := congrArg Prod.snd htaken
      simp only at hafter
      rw [← hafter, takeLock_nodes]
      rfl
  | releaseWriteScope ownerId target => exact .of_nodes rfl
  | listLocks nodeId nowMs => exact .of_nodes rfl
  | ownsWriteScope ownerId targets nowMs =>
      refine .of_nodes ?_
      simp only [GraphOp.apply, AgentStore.ownsWriteScope]
      split <;> rfl
  | renewWriteScope ownerId targets nowMs leaseMs =>
      refine .of_nodes ?_
      simp only [GraphOp.apply, AgentStore.renewWriteScope]
      split
      · rfl
      · exact renewTargets_nodes ownerId nowMs leaseMs targets db

end Moves

/-! ### What a transaction of a delegation does to a star -/

/-- Whose row a row of the table after the transaction is: that of an old row, of the root
that is suspended for a new child, or of the new child. -/
inductive StarMove (rootNodeId : String) (op : GraphOp) (db after : GraphDatabase)
    (moved : NodeRow) : Prop
  | moved (old : NodeRow) (hold : old ∈ db.nodes) (hsame : old.Same moved)
      (hmove : StatusMove op db after old moved)
  | suspended (old : NodeRow) (hold : old ∈ db.nodes) (hsame : old.Same moved)
      (hroot : moved.nodeId = rootNodeId) (hidle : old.status = .ready ∨ old.status = .interrupted)
      (hwaiting : moved.status = .waiting)
  | spawned (hfresh : ∀ old ∈ db.nodes, old.nodeId ≠ moved.nodeId) (hchild : moved.nodeId ≠ rootNodeId)
      (hnew : moved.status = .created ∨ moved.status = .ready)
      (hop : ∃ graphId spec ready nowMs,
        op = .spawnChild graphId rootNodeId spec ready moved.nodeId nowMs)

/-- The graph row before and after a transaction; a graph that has ended stays so. -/
def GraphRow.Follows (old moved : GraphRow) : Prop :=
  old.Same moved ∧ (moved.status = .active → old.status = .active)

theorem GraphRow.Follows.refl (row : GraphRow) : row.Follows row := ⟨.refl row, id⟩

theorem GraphRow.Follows.trans {a b c : GraphRow} (hab : a.Follows b) (hbc : b.Follows c) :
    a.Follows c := ⟨hab.1.trans hbc.1, fun hactive => hab.2 (hbc.2 hactive)⟩

theorem GraphMoves.follows {floor : Int → Int} {db after : GraphDatabase}
    (hmoves : GraphMoves floor db after) :
    List.Forall₂ GraphRow.Follows db.graphs after.graphs := by
  have hrefl (db : GraphDatabase) : List.Forall₂ GraphRow.Follows db.graphs db.graphs :=
    List.forall₂_same.mpr fun row _ => .refl row
  induction hmoves with
  | refl => exact hrefl _
  | @tail before last _ hlast ih =>
      refine Table.Forall₂.trans (fun _ _ _ => GraphRow.Follows.trans) ih ?_
      cases hlast with
      | quiet hquiet =>
          cases hquiet with
          | side hgraphs _ _ _ =>
              rw [hgraphs]
              exact hrefl _
          | rows cond change hmoves => exact hrefl _
          | lease graph args hgraph => exact hrefl _
          | graphStatus cond status nowMs hended =>
              refine Table.forall₂_update ?_ fun row _ _ => .refl row
              exact fun _ _ _ => ⟨⟨rfl, rfl, rfl, rfl, rfl⟩, fun hactive => absurd hactive hended⟩
      | suspend nowMs hparent hidle => exact hrefl _
      | close status nowMs hrow hopen hterminal =>
          rw [releaseParentBudget_graphs]
          exact hrefl _

namespace StarGraph

variable {floor : Int → Int} {graphId rootNodeId : String} {db after : GraphDatabase}

theorem follows (hstar : StarGraph graphId rootNodeId db) {op : GraphOp}
    (hop : op.IsStarOp graphId rootNodeId) :
    List.Forall₂ GraphRow.Follows db.graphs (op.apply floor db).graphs := by
  have heffect := GraphOp.effect floor db op
  generalize op.apply floor db = after at heffect ⊢
  cases heffect with
  | quiet hquiet => exact (hquiet.moves : GraphMoves floor db after).follows
  | fail hok => exact (failNode_moves hstar.life.shape hok).follows
  | complete hok => exact (completeNode_moves hok).follows
  | cancel hok => exact (cancelSubtree_moves hstar.life.shape hok).follows
  | create hok => exact hop.elim
  | spawn hok hspawned =>
      rw [hspawned.result]
      exact List.forall₂_same.mpr fun row _ => .refl row

theorem suspend_cases (hshape : GraphShape db) {parent row : NodeRow} (hparent : parent ∈ db.nodes)
    {nowMs : Int} (hrow : row ∈ (suspendParent db parent nowMs).nodes) :
    row ∈ db.nodes ∨ (parent.status = .ready ∨ parent.status = .interrupted) ∧
      row = { parent with status := .waiting, updatedAtMs := nowMs } := by
  unfold suspendParent at hrow
  split at hrow
  · rename_i hidle
    rcases Table.mem_update_cases hrow with ⟨hkept, _⟩ | ⟨old, hold, hid, rfl⟩
    · exact .inl hkept
    · rw [hshape.node_eq hold hparent (by simpa using hid)]
      exact .inr ⟨hidle, rfl⟩
  · exact .inl hrow

/-- Every row of the table after a transaction of a delegation. -/
theorem moves (hstar : StarGraph graphId rootNodeId db) {op : GraphOp}
    (hop : op.IsStarOp graphId rootNodeId) :
    ∀ moved ∈ (op.apply floor db).nodes, StarMove rootNodeId op db (op.apply floor db) moved := by
  have hshape := hstar.life.shape
  by_cases hspawn : ∃ inGraph parentNodeId spec ready nodeId nowMs,
      op = .spawnChild inGraph parentNodeId spec ready nodeId nowMs
  · obtain ⟨inGraph, parentNodeId, spec, ready, nodeId, nowMs, rfl⟩ := hspawn
    obtain ⟨rfl, rfl, _⟩ := hop
    refine GraphDatabase.transaction_rule (P := fun after => ∀ moved ∈ after.nodes,
      StarMove parentNodeId (.spawnChild inGraph parentNodeId spec ready nodeId nowMs) db after moved)
      (fun moved hmoved => .moved moved hmoved (.refl moved) (.kept rfl)) ?_
    intro child after hok moved hmoved
    obtain ⟨graph, parent, reserved, hspawned⟩ := spawnChild_ok hok
    rw [hspawned.result] at hmoved
    rcases List.mem_append.mp hmoved with hold | hnew
    · rcases suspend_cases hshape hspawned.parentMem hold with hkept | ⟨hidle, rfl⟩
      · exact .moved moved hkept (.refl moved) (.kept rfl)
      · exact .suspended parent hspawned.parentMem ⟨rfl, rfl, rfl, rfl, rfl, rfl⟩ hspawned.parentIs
          hidle rfl
    · rw [List.mem_singleton.mp hnew]
      refine .spawned hspawned.fresh ?_ ?_ ⟨inGraph, spec, ready, nowMs, rfl⟩
      · intro heq
        exact hspawned.fresh parent hspawned.parentMem (hspawned.parentIs.trans heq.symm)
      · cases ready
        · exact .inl rfl
        · exact .inr rfl
  · intro moved hmoved
    obtain ⟨old, hold, hsame, hmove⟩ := GraphOp.statusMoves hshape hstar.edges op
      (fun _ _ _ _ heq => by rw [heq] at hop; exact hop)
      (fun _ _ _ _ _ _ heq => hspawn ⟨_, _, _, _, _, _, heq⟩)
      (fun _ _ heq => by rw [heq] at hop; exact hop) moved hmoved
    exact .moved old hold hsame hmove

/-! ### The root -/

theorem mem_descendants {nodes : List NodeRow} {generations : Nat} {current : List String}
    {id : String} (hid : id ∈ descendants nodes generations current) :
    id ∈ current ∨ ∃ row ∈ nodes, row.nodeId = id ∧ row.parentNodeId ≠ none := by
  induction generations generalizing current with
  | zero => exact absurd hid List.not_mem_nil
  | succ generations ih =>
      unfold descendants at hid
      rcases List.mem_append.mp hid with hhere | hbelow
      · exact .inl hhere
      · rcases ih hbelow with hnext | hchild
        · obtain ⟨parentId, _, hmem⟩ := List.mem_flatMap.mp hnext
          obtain ⟨row, hrow, rfl⟩ := List.mem_map.mp hmem
          obtain ⟨hrow, hparent⟩ := List.mem_filter.mp hrow
          have hparent : row.parentNodeId = some parentId := by simpa using hparent
          exact .inr ⟨row, hrow, rfl, by simp [hparent]⟩
        · exact .inr hchild

/-- The root is in no subtree but its own. -/
theorem root_not_mem_subtree (hstar : StarGraph graphId rootNodeId db) {nodeId : String}
    (hchild : nodeId ≠ rootNodeId) : rootNodeId ∉ subtree db nodeId := by
  intro hroot
  rcases mem_descendants hroot with hhere | ⟨row, hrow, hid, hparent⟩
  · obtain ⟨row, hrow, hid⟩ := List.mem_map.mp hhere
    have hfind : findNode db nodeId = some row := by simpa using hrow
    have hfound : row.nodeId = nodeId := by simpa using List.find?_some hfind
    exact hchild (hfound.symm.trans hid)
  · apply hparent
    rw [(hstar.rows row hrow).2.2, if_pos hid]

/-- The children of a star have none. -/
theorem childless (hstar : StarGraph graphId rootNodeId db) {nodeId : String}
    (hchild : nodeId ≠ rootNodeId) : hasOpenChild db nodeId = false := by
  rw [hasOpenChild, List.any_eq_false]
  intro row hrow
  rw [(hstar.rows row hrow).2.2]
  split
  · simp
  · simp [Ne.symm hchild]

/-- Only the root ever waits. -/
theorem not_waiting (hstar : StarGraph graphId rootNodeId db) {row : NodeRow} (hrow : row ∈ db.nodes)
    (hchild : row.nodeId ≠ rootNodeId) : row.status ≠ .waiting := by
  intro hwaiting
  rcases hstar.life.waits row hrow hwaiting with hopen | hexempt
  · rw [hstar.childless hchild] at hopen
    cases hopen
  · exact hexempt

/-- A new child makes a root wait that was ready. -/
theorem suspended_of_spawned (hstar : StarGraph graphId rootNodeId db) {spec : NodeSpec}
    {ready : Bool} {nodeId : String} {nowMs : Int} {child : AgentNode}
    (hok : spawnChild graphId rootNodeId spec ready nodeId nowMs db = .ok (child, after))
    {row : NodeRow} (hrow : row ∈ after.nodes) (hroot : row.nodeId = rootNodeId) :
    row.status ≠ .ready := by
  obtain ⟨graph, parent, reserved, hspawned⟩ := spawnChild_ok hok
  rw [hspawned.result] at hrow
  rcases List.mem_append.mp hrow with hold | hnew
  · have hparent {row : NodeRow} (hrow : row ∈ db.nodes) (hroot : row.nodeId = rootNodeId) :
        row = parent :=
      hstar.life.shape.node_eq hrow hspawned.parentMem (hroot.trans hspawned.parentIs.symm)
    unfold suspendParent at hold
    split at hold
    · rcases Table.mem_update_cases hold with ⟨hkept, hother⟩ | ⟨old, _, _, rfl⟩
      · rw [hparent hkept hroot] at hother
        simp at hother
      · exact NodeStatus.noConfusion
    · rename_i hbusy
      rw [hparent hold hroot]
      exact fun hready => hbusy (.inl hready)
  · rw [List.mem_singleton.mp hnew] at hroot
    exact absurd (hspawned.parentIs.trans hroot.symm) (hspawned.fresh parent hspawned.parentMem)

/-- The cancellation of the root ends the graph. -/
theorem cancelled_root (hstar : StarGraph graphId rootNodeId db) (nowMs : Int) :
    ∀ graph ∈ (GraphOp.apply floor (.cancelSubtree rootNodeId nowMs) db).graphs,
      graph.status ≠ .active := by
  intro graph hgraph hactive
  have hafter : StarGraph graphId rootNodeId
      (GraphOp.apply floor (.cancelSubtree rootNodeId nowMs) db) := hstar.apply trivial
  have hroot := (hafter.graphs graph hgraph).2
  simp only [GraphOp.apply, GraphDatabase.transaction, cancelSubtree, cancelGraphOf] at hgraph
  rcases Table.mem_update_cases hgraph with ⟨_, hother⟩ | ⟨old, _, _, rfl⟩
  · simp [hroot, hactive] at hother
  · cases hactive

/-- Only the root of a star has children that open. -/
theorem hasOpenChild_back (hstar : StarGraph graphId rootNodeId db) {op : GraphOp}
    (hop : op.IsStarOp graphId rootNodeId)
    (hspawn : ∀ inGraph parentNodeId spec ready nodeId nowMs,
      op ≠ .spawnChild inGraph parentNodeId spec ready nodeId nowMs)
    (hopen : hasOpenChild (op.apply floor db) rootNodeId = true) :
    hasOpenChild db rootNodeId = true := by
  obtain ⟨child, hchild, hparent, hnot⟩ := hasOpenChild_iff.mp hopen
  refine hasOpenChild_iff.mpr ?_
  cases hstar.moves hop child hchild with
  | moved old hold hsame hmove =>
      refine ⟨old, hold, hsame.parentNodeId.trans hparent, ?_⟩
      cases hmove with
      | kept hstatus => rw [← hstatus, hnot]
      | ended hopen _ _ _ => exact hopen
      | woken hwaiting _ _ => rw [hwaiting]; rfl
      | activated hcreated _ _ => rw [hcreated]; rfl
      | queued hrunning _ _ => rw [hrunning]; rfl
      | leased hidle _ _ _ => rcases hidle with h | h | h <;> rw [h] <;> rfl
  | suspended old hold hsame hroot hidle _ =>
      refine ⟨old, hold, hsame.parentNodeId.trans hparent, ?_⟩
      rcases hidle with h | h <;> rw [h] <;> rfl
  | spawned _ _ _ hop =>
      obtain ⟨inGraph, spec, ready, nowMs, rfl⟩ := hop
      exact absurd rfl (hspawn _ _ _ _ _ _)

/-! ### The transactions that leave the graph rows -/

theorem wakeParent_graphs (db : GraphDatabase) (parentNodeId : Option String) (nowMs : Int) :
    (wakeParent db parentNodeId nowMs).graphs = db.graphs := by
  obtain ⟨cond, _, hwoken⟩ := wakeParent_eq db parentNodeId nowMs
  rw [hwoken]
  rfl

theorem wakeParents_graphs (db : GraphDatabase) (parents : List String) (nowMs : Int) :
    (wakeParents db parents nowMs).graphs = db.graphs := by
  unfold wakeParents
  induction parents generalizing db with
  | nil => rfl
  | cons parentId rest ih => exact (ih _).trans (wakeParent_graphs db _ nowMs)

theorem takeLock_graphs (db : GraphDatabase) (lock : LockRow) :
    (takeLock db lock).2.graphs = db.graphs := by
  unfold takeLock
  dsimp only
  split
  · rfl
  · split <;> rfl

theorem failNode_graphs (hstar : StarGraph graphId rootNodeId db) {nodeId workerId : String}
    {nowMs : Int} {u : Unit} (hok : failNode floor nodeId workerId nowMs db = .ok (u, after)) :
    after.graphs = db.graphs := by
  obtain ⟨row, _, hdone⟩ := PyError.bind_eq_ok.mp hok
  cases hdone
  rw [wakeParent_graphs, blockDependents_of_no_edges, releaseParentBudget_graphs]
  · rfl
  · rw [releaseParentBudget_edges]
    exact hstar.edges

theorem completeNode_graphs {nodeId workerId artifactId : String} {draft : ArtifactDraft}
    {nowMs : Int} {artifact : Artifact}
    (hok : completeNode floor nodeId workerId draft artifactId nowMs db = .ok (artifact, after)) :
    after.graphs = db.graphs := by
  obtain ⟨row, _, hdone⟩ := PyError.bind_eq_ok.mp hok
  split at hdone
  · cases hdone
  · cases hdone
    rw [wakeParent_graphs, releaseParentBudget_graphs]
    rfl

/-- Only the cancellation of the root ends the graph, too. -/
theorem cancelSubtree_graphs (hstar : StarGraph graphId rootNodeId db) {nodeId : String}
    (hchild : nodeId ≠ rootNodeId) {nowMs : Int} {ids : List String}
    (hok : cancelSubtree floor nodeId nowMs db = .ok (ids, after)) : after.graphs = db.graphs := by
  cases hok
  have hcancelled : ((subtree db nodeId).foldl (cancelNode floor nowMs) db).edges = [] ∧
      ((subtree db nodeId).foldl (cancelNode floor nowMs) db).graphs = db.graphs := by
    refine cancelNodes_rule (I := fun middle => middle.edges = [] ∧ middle.graphs = db.graphs)
      hstar.life.shape ?_ ⟨hstar.edges, rfl⟩
    rintro middle id _ _ ⟨hedges, hgraphs⟩
    refine cancelNode_cases (P := fun after => after.edges = [] ∧ after.graphs = db.graphs)
      (fun _ => ⟨hedges, hgraphs⟩) ?_
    intro row _ _ _
    have hunlinked : (releaseParentBudget floor
        (deleteLocksOf (settleNode middle row.nodeId .cancelled nowMs) row.nodeId) row nowMs).edges =
        [] := by
      rw [releaseParentBudget_edges]
      exact hedges
    rw [blockDependents_of_no_edges hunlinked, releaseParentBudget_graphs]
    exact ⟨hunlinked, hgraphs⟩
  simp only [cancelGraphOf, wakeParents_graphs, hcancelled.2]
  refine Table.update_eq_self ?_
  intro graph hgraph
  simp [(hstar.graphs graph hgraph).2, Ne.symm hchild]

end StarGraph

/-! ### The nodes that a lease hands out -/

/-- A node that is handed out: the graph is active, the node has no open child, and its row
is running afterwards. -/
theorem AgentStore.leaseReady_leased {db after : GraphDatabase} {graphId : String}
    {args : LeaseReady} {leased : List AgentNode}
    (hok : leaseReady graphId args db = .ok (leased, after)) {node : AgentNode}
    (hnode : node ∈ leased) :
    (∃ graph ∈ db.graphs, graph.graphId = graphId ∧ graph.status = .active) ∧
      hasOpenChild db node.nodeId = false ∧ (∃ row ∈ db.nodes, row.nodeId = node.nodeId) ∧
      ∀ row ∈ after.nodes, row.nodeId = node.nodeId → row.status = .running := by
  cases (leaseReady_ok hok).2 with
  | inactive _ => exact absurd hnode List.not_mem_nil
  | @selected graph hgraph =>
    obtain ⟨row, hselected, rfl⟩ := List.mem_map.mp hnode
    obtain ⟨hfind, hactive⟩ := Option.filter_eq_some_iff.mp hgraph
    obtain ⟨hrow, hleasable⟩ := mem_leaseSelection hselected
    refine ⟨⟨graph, List.mem_of_find?_eq_some hfind, by simpa using List.find?_some hfind,
      by simpa using hactive⟩, ?_, ?_, ?_⟩
    · have hnone := isLeasable_childless hleasable
      exact (expireLeases_hasOpenChild graphId args.nowMs row.nodeId).symm.trans hnone
    · have hmoves : GraphMoves id db (expireLeases db graphId args.nowMs) :=
        QuietMoves.moves (expireLeases_moves graphId args.nowMs)
      obtain ⟨old, hold, hsame⟩ := Table.Forall₂.of_mem_right hmoves.frame.nodes hrow
      exact ⟨old, hold, hsame.nodeId⟩
    · intro moved hmoved hid
      rcases Table.mem_update_cases hmoved with ⟨_, hother⟩ | ⟨old, _, _, rfl⟩
      · have hid' : row.nodeId = moved.nodeId := hid.symm
        have hin : (leaseSelection graph args (purgeLocks (expireLeases db graphId args.nowMs)
            args.nowMs)).any (fun leased => leased.nodeId = moved.nodeId) = true :=
          List.any_eq_true.mpr ⟨row, hselected, by simpa using hid'⟩
        rw [hin] at hother
        cases hother
      · rfl

end Codex2Lark
