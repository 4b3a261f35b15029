import Codex2Lark.Lib.Acyclic
import Codex2Lark.Storage.NodeEnds
import Mathlib.Data.Set.Finite.Basic

/-!
Which nodes of an agent graph wait for which. An idle node waits for its open
children and for the dependencies that are not complete, so the parents and the
dependencies together decide whether a graph can go on.
-/

namespace Codex2Lark

open Lib AgentStore Relation

/-- The statuses of a node that was activated, has not ended and is not at work. -/
def NodeStatus.isIdle : NodeStatus → Bool
  | .ready | .waiting | .interrupted => true
  | _ => false

def IsIdle (db : GraphDatabase) (nodeId : String) : Prop :=
  ∃ row ∈ db.nodes, row.nodeId = nodeId ∧ row.status.isIdle = true

/-- The other node is a child or a dependency of the node. -/
def Linked (db : GraphDatabase) (nodeId other : String) : Prop :=
  IsParentOf db nodeId other ∨ DependsOn db nodeId [other]

/-- What an idle node waits for; the nodes in `X` count as idle. -/
def Waits (db : GraphDatabase) (X : String → Prop) (nodeId other : String) : Prop :=
  (IsIdle db nodeId ∨ X nodeId) ∧ IsOpen db other ∧ Linked db nodeId other

def IsCreated (db : GraphDatabase) (nodeId : String) : Prop :=
  ∃ row ∈ db.nodes, row.nodeId = nodeId ∧ row.status = .created

/-- The `WHERE` clause of the expiry in `lease_ready`. -/
def isExpired (graphId : String) (nowMs : Int) (row : NodeRow) : Bool :=
  row.graphId = graphId && row.status = .running && row.leaseExpiresAtMs.any (· ≤ nowMs)

def Expires (db : GraphDatabase) (graphId : String) (nowMs : Int) (nodeId : String) : Prop :=
  ∃ row ∈ db.nodes, row.nodeId = nodeId ∧ isExpired graphId nowMs row = true

/-- An operation of a run in which no node fails, is cancelled, is interrupted or has
a deadline. -/
def RunsSmoothly : GraphOp → Prop
  | .createGraph args _ _ _ => args.rootSpec.deadlineMs = none
  | .spawnChild _ _ spec _ _ _ => spec.deadlineMs = none
  | .activateNode .. | .leaseReady .. | .completeNode .. => True
  | _ => False

/-- No node that starts to wait closes a cycle: a ready child does not depend on a node
from which its idle parent is reached, and no node that is activated or whose lease
expires waits for itself. -/
def ClosesNoCycle (db : GraphDatabase) : GraphOp → Prop
  | .spawnChild graphId parentNodeId spec ready nodeId nowMs =>
      (∃ result, spawnChild graphId parentNodeId spec ready nodeId nowMs db = .ok result) →
        ready = true → IsIdle db parentNodeId → ∀ dependencyId ∈ spec.dependencyNodeIds,
          ¬ ReflTransGen (Waits db fun _ => False) dependencyId parentNodeId
  | .activateNode nodeId _ =>
      IsCreated db nodeId → ¬ TransGen (Waits db fun id => id = nodeId) nodeId nodeId
  | .leaseReady graphId args =>
      1 ≤ args.leaseMs → 1 ≤ args.limit → args.workerId ≠ "" →
        ∀ id, Expires db graphId args.nowMs id →
          ¬ TransGen (Waits db (Expires db graphId args.nowMs)) id id
  | _ => True

/-- As long as its root is open, an active graph has a node that runs or was not yet
activated, or any lease finds a node. -/
def Progressing (db : GraphDatabase) : Prop :=
  ∀ graph ∈ db.graphs, graph.status = .active → IsOpen db graph.rootNodeId →
    (∃ row ∈ db.nodes, row.graphId = graph.graphId ∧
      (row.status = .running ∨ row.status = .created)) ∨
    ∀ args, 1 ≤ args.leaseMs → 1 ≤ args.limit → args.workerId ≠ "" →
      ∃ leased after, leaseReady graph.graphId args db = .ok (leased, after) ∧ leased ≠ []

variable {floor : Int → Int} {db middle after : GraphDatabase}

/-! ### What a transaction changes of the waits -/

theorem Linked.of_frame (hframe : GraphFrame db after) {nodeId other : String}
    (hlinked : Linked after nodeId other) : Linked db nodeId other := by
  refine hlinked.imp ?_ ?_
  · exact (isParentOf_of_frame hframe nodeId other).mp
  · exact (dependsOn_congr hframe.edges nodeId [other]).mp

theorem Linked.exists (hshape : GraphShape db) {nodeId other : String}
    (hlinked : Linked db nodeId other) :
    (∃ row ∈ db.nodes, row.nodeId = nodeId) ∧ ∃ row ∈ db.nodes, row.nodeId = other := by
  rcases hlinked with ⟨child, hchild, hid, hparent⟩ | ⟨edge, hedge, hto, hfrom⟩
  · obtain ⟨parent, hmem, hparentId, _⟩ := hshape.parentOf child hchild nodeId hparent
    exact ⟨⟨parent, hmem, hparentId⟩, child, hchild, hid⟩
  · obtain ⟨dependent, hdependent, hdependentId, _⟩ := hshape.dependentOf edge hedge
    obtain ⟨predecessor, hpredecessor, hpredecessorId, _⟩ := hshape.predecessorOf edge hedge
    exact ⟨⟨dependent, hdependent, hdependentId.trans hto⟩, predecessor, hpredecessor,
      hpredecessorId.trans (List.mem_singleton.mp hfrom)⟩

/-- A transaction that opens nothing waits for nothing new, apart from the nodes it
makes idle. -/
theorem Waits.of_frame {X : String → Prop} (hframe : GraphFrame db after)
    (hopen : ∀ id, IsOpen after id → IsOpen db id)
    (hidle : ∀ id, IsIdle after id → IsIdle db id ∨ X id) {nodeId other : String}
    (hwaits : Waits after (fun _ => False) nodeId other) : Waits db X nodeId other := by
  obtain ⟨hnode, hother, hlinked⟩ := hwaits
  exact ⟨hidle nodeId (hnode.resolve_right id), hopen other hother, hlinked.of_frame hframe⟩

theorem IsIdle.of_setNodes {cond : NodeRow → Bool} {change : NodeRow → NodeRow}
    {id : String} (hidle : IsIdle (setNodes db cond change) id)
    (hsame : ∀ row, (change row).nodeId = row.nodeId) :
    IsIdle db id ∨ ∃ row ∈ db.nodes, row.nodeId = id ∧ cond row = true ∧
      (change row).status.isIdle = true := by
  obtain ⟨moved, hmoved, hid, hstatus⟩ := hidle
  rcases Table.mem_update_cases hmoved with ⟨hmem, _⟩ | ⟨old, hold, hcond, rfl⟩
  · exact .inl ⟨moved, hmem, hid, hstatus⟩
  · exact .inr ⟨old, hold, (hsame old).symm.trans hid, hcond, hstatus⟩

theorem IsIdle.congr (hnodes : after.nodes = db.nodes) {id : String} (hidle : IsIdle after id) :
    IsIdle db id := by
  unfold IsIdle at *
  rwa [← hnodes]

theorem IsIdle.of_wake {parentNodeId : Option String} {nowMs : Int} {id : String}
    (hidle : IsIdle (wakeParent db parentNodeId nowMs) id) : IsIdle db id := by
  obtain ⟨cond, hcond, heq⟩ := wakeParent_eq db parentNodeId nowMs
  rw [heq] at hidle
  rcases hidle.of_setNodes fun _ => rfl with hwas | ⟨row, hrow, hid, hwaiting, _⟩
  · exact hwas
  · exact ⟨row, hrow, hid, by rw [hcond row hwaiting]; rfl⟩

theorem IsIdle.of_completeNode {nodeId workerId artifactId : String} {draft : ArtifactDraft}
    {nowMs : Int} {artifact : Artifact}
    (hok : completeNode floor nodeId workerId draft artifactId nowMs db = .ok (artifact, after))
    {id : String} (hidle : IsIdle after id) : IsIdle db id := by
  obtain ⟨node, _, hdone⟩ := PyError.bind_eq_ok.mp hok
  split at hdone
  · cases hdone
  · cases hdone
    have hreleased := hidle.of_wake.congr (releaseParentBudget_nodes node nowMs)
    have hsettled : IsIdle (settleNode
        (recordArtifact db (draftedArtifact node draft artifactId) nowMs) nodeId .completed nowMs)
        id := hreleased
    rcases hsettled.of_setNodes fun _ => rfl with hwas | ⟨_, _, _, _, hended⟩
    · exact hwas
    · cases hended

theorem IsIdle.of_activateNode {nodeId : String} {nowMs : Int} {node : AgentNode}
    (hok : activateNode nodeId nowMs db = .ok (node, after)) {id : String}
    (hidle : IsIdle after id) : IsIdle db id ∨ IsCreated db nodeId ∧ id = nodeId := by
  obtain ⟨rfl, _⟩ := activateNode_ok hok
  refine (hidle.of_setNodes fun _ => rfl).imp_right ?_
  rintro ⟨row, hrow, hid, hcond, _⟩
  simp only [Bool.and_eq_true, decide_eq_true_eq] at hcond
  exact ⟨⟨row, hrow, hcond⟩, hid.symm.trans hcond.1⟩

theorem IsIdle.of_leaseReady {graphId : String} {args : LeaseReady} {leased : List AgentNode}
    (hok : leaseReady graphId args db = .ok (leased, after)) {id : String}
    (hidle : IsIdle after id) : IsIdle db id ∨ Expires db graphId args.nowMs id := by
  have hexpired (hreset : IsIdle (purgeLocks (expireLeases db graphId args.nowMs) args.nowMs) id) :
      IsIdle db id ∨ Expires db graphId args.nowMs id := by
    have hreset' : IsIdle (expireLeases db graphId args.nowMs) id := hreset
    refine (hreset'.of_setNodes fun _ => rfl).imp_right ?_
    rintro ⟨row, hrow, hid, hcond, _⟩
    exact ⟨row, hrow, hid, hcond⟩
  cases (leaseReady_ok hok).2 with
  | inactive => exact hexpired hidle
  | selected =>
      rcases hidle.of_setNodes fun _ => rfl with hwas | ⟨_, _, _, _, hrunning⟩
      · exact hexpired hwas
      · cases hrunning

/-! ### No transaction closes a cycle -/

/-- No idle node waits for itself, directly or through others. -/
def NoDeadlock (db : GraphDatabase) : Prop := Acyclic (Waits db fun _ => False)

theorem NoDeadlock.of_frame {X : String → Prop} (hnone : NoDeadlock db)
    (hframe : GraphFrame db after) (hopen : ∀ id, IsOpen after id → IsOpen db id)
    (hidle : ∀ id, IsIdle after id → IsIdle db id ∨ X id)
    (hguard : ∀ id, X id → ¬ TransGen (Waits db X) id id) : NoDeadlock after := by
  have hextended : Acyclic (Waits db X) := by
    refine hnone.extend_sources (X := X) ?_ hguard
    rintro nodeId other ⟨hnode, hneeds⟩
    exact hnode.imp_left fun h => ⟨.inl h, hneeds⟩
  exact hextended.mono fun _ _ => Waits.of_frame hframe hopen hidle

theorem NoDeadlock.quiet {X : String → Prop} (hnone : NoDeadlock db) (hshape : GraphShape db)
    (hquiet : QuietMoves db after) (hidle : ∀ id, IsIdle after id → IsIdle db id ∨ X id)
    (hguard : ∀ id, X id → ¬ TransGen (Waits db X) id id) : NoDeadlock after := by
  have hrows := (hquiet.rows_quiet hshape).imp fun _ _ => QuietRow.sameEnd
  exact hnone.of_frame (hquiet.moves : GraphMoves clampZero db after).frame
    (fun id => (isOpen_of_sameEnd hrows id).mp) hidle hguard

/-- An idle node among the old nodes and a new one. -/
theorem IsIdle.of_append {node : NodeRow} (hnodes : after.nodes = middle.nodes ++ [node])
    {id : String} (hidle : IsIdle after id) :
    IsIdle middle id ∨ id = node.nodeId ∧ node.status.isIdle = true := by
  obtain ⟨row, hrow, hid, hstatus⟩ := hidle
  rw [hnodes] at hrow
  rcases List.mem_append.mp hrow with hold | hnew
  · exact .inl ⟨row, hold, hid, hstatus⟩
  · rw [List.mem_singleton.mp hnew] at hid hstatus
    exact .inr ⟨hid.symm, hstatus⟩

theorem NoDeadlock.createGraph (hnone : NoDeadlock db) (hshape : GraphShape db)
    {args : CreateGraph} {graphId rootNodeId : String} {nowMs : Int}
    (hok : AgentStore.createGraph args graphId rootNodeId nowMs db = .ok ((), after)) :
    NoDeadlock after := by
  obtain ⟨_, hfresh, rfl⟩ := createGraph_ok hok
  have hnot (id : String) (hmem : ∃ row ∈ db.nodes, row.nodeId = id) : id ≠ rootNodeId := by
    obtain ⟨row, hrow, rfl⟩ := hmem
    exact hfresh row hrow
  refine hnone.mono ?_
  rintro nodeId other ⟨hnode, hother, hlinked⟩
  have hlinked' : Linked db nodeId other := by
    refine hlinked.imp_left fun hparent => ?_
    rcases (isParentOf_append (GraphFrame.refl db).nodes rfl nodeId other).mp hparent with
      hold | ⟨_, hroot⟩
    · exact hold
    · cases hroot
  obtain ⟨hnodeMem, hotherMem⟩ := hlinked'.exists hshape
  refine ⟨.inl ?_, ?_, hlinked'⟩
  · rcases (hnode.resolve_right id).of_append rfl with hidle | ⟨hroot, _⟩
    · exact hidle
    · exact absurd hroot (hnot nodeId hnodeMem)
  · rcases (isOpen_append rfl (by rfl) other).mp hother with hopen | hroot
    · exact hopen
    · exact absurd hroot (hnot other hotherMem)

section Spawned

variable {graphId parentNodeId nodeId : String} {spec : NodeSpec} {ready : Bool} {nowMs : Int}
  {graph : GraphRow} {parent : NodeRow} {reserved : List LedgerRow}

theorem Linked.of_spawned
    (hspawned : Spawned db graphId parentNodeId spec ready nodeId nowMs after graph parent reserved)
    {a b : String} (hlinked : Linked after a b) :
    Linked db a b ∨ a = parentNodeId ∧ b = nodeId ∨ a = nodeId ∧ b ∈ spec.dependencyNodeIds := by
  rcases hlinked with hparent | ⟨edge, hedge, hto, hfrom⟩
  · rcases (hspawned.isParentOf a b).mp hparent with hold | ⟨hb, ha⟩
    · exact .inl (.inl hold)
    · exact .inr (.inl ⟨ha, hb⟩)
  · rw [hspawned.result] at hedge
    rcases List.mem_append.mp hedge with hold | hnew
    · exact .inl (.inr ⟨edge, hold, hto, hfrom⟩)
    · obtain ⟨d, hd, rfl⟩ := List.mem_map.mp hnew
      exact .inr (.inr ⟨hto.symm, List.mem_singleton.mp hfrom ▸ hd⟩)

theorem IsIdle.of_spawned (hshape : GraphShape db)
    (hspawned : Spawned db graphId parentNodeId spec ready nodeId nowMs after graph parent reserved)
    {id : String} (hidle : IsIdle after id) : IsIdle db id ∨ id = nodeId ∧ ready = true := by
  have hnodes : after.nodes = (suspendParent db parent nowMs).nodes ++ [newNode nodeId graphId
      (some parentNodeId) (parent.canonicalPath ++ "/" ++ spec.name) spec (parent.depth + 1)
      (if ready then .ready else .created) nowMs] := by rw [hspawned.result]
  rcases hidle.of_append hnodes with hmiddle | ⟨hid, hnew⟩
  · left
    unfold suspendParent at hmiddle
    split at hmiddle
    · rename_i hparent
      rcases hmiddle.of_setNodes fun _ => rfl with hwas | ⟨row, hrow, hid, hcond, _⟩
      · exact hwas
      · refine ⟨row, hrow, hid, ?_⟩
        rw [hshape.node_eq hrow hspawned.parentMem (by simpa using hcond)]
        rcases hparent with h | h <;> rw [h] <;> rfl
    · exact hmiddle
  · refine .inr ⟨hid, ?_⟩
    cases ready with
    | true => rfl
    | false => cases hnew

theorem NoDeadlock.spawnChild (hnone : NoDeadlock db) (hshape : GraphShape db)
    (hspawned : Spawned db graphId parentNodeId spec ready nodeId nowMs after graph parent reserved)
    (hguard : ready = true → IsIdle db parentNodeId → ∀ d ∈ spec.dependencyNodeIds,
      ¬ ReflTransGen (Waits db fun _ => False) d parentNodeId) : NoDeadlock after := by
  have hnot (id : String) (hmem : ∃ row ∈ db.nodes, row.nodeId = id) : id ≠ nodeId := by
    obtain ⟨row, hrow, rfl⟩ := hmem
    exact hspawned.fresh row hrow
  have hparent : parentNodeId ≠ nodeId := hnot _ ⟨parent, hspawned.parentMem, hspawned.parentIs⟩
  have hnoSelf : nodeId ∉ spec.dependencyNodeIds := by
    intro hmem
    obtain ⟨row, hrow, hid, _⟩ := hspawned.dependencies nodeId hmem
    exact hspawned.fresh row hrow hid
  have hidleOld (id : String) (hidle : IsIdle after id) (hne : id ≠ nodeId) : IsIdle db id :=
    (hidle.of_spawned hshape hspawned).resolve_right fun h => hne h.1
  refine hnone.insert (p := parentNodeId) (n := nodeId)
    (D := fun d => ready = true ∧ d ∈ spec.dependencyNodeIds) ?_ hparent (fun h => hnoSelf h.2) ?_ ?_
  · rintro a b ⟨hnode, hother, hlinked⟩
    have hidle : IsIdle after a := hnode.resolve_right id
    rcases hlinked.of_spawned hspawned with hold | hlink | ⟨rfl, hd⟩
    · obtain ⟨ha, hb⟩ := hold.exists hshape
      left
      refine ⟨.inl (hidleOld a hidle (hnot a ha)), ?_, hold⟩
      exact ((hspawned.isOpen hshape b).mp hother).resolve_right (hnot b hb)
    · exact .inr (.inl hlink)
    · rcases hidle.of_spawned hshape hspawned with ⟨row, hrow, hid, _⟩ | ⟨_, hready⟩
      · exact absurd hid (hspawned.fresh row hrow)
      · exact .inr (.inr ⟨rfl, hready, hd⟩)
  · intro a
    constructor
    · rintro ⟨_, _, hlinked⟩
      exact hnot _ (hlinked.exists hshape).2 rfl
    · rintro ⟨_, _, hlinked⟩
      exact hnot _ (hlinked.exists hshape).1 rfl
  · rintro ⟨hnode, _⟩ d ⟨hready, hd⟩
    exact hguard hready (hidleOld _ (hnode.resolve_right id) hparent) d hd

end Spawned

theorem GraphOp.noDeadlock (hshape : GraphShape db) (hnone : NoDeadlock db) {op : GraphOp}
    (hsmooth : RunsSmoothly op) (hguard : ClosesNoCycle db op) :
    NoDeadlock (op.apply floor db) := by
  cases op with
  | createGraph args graphId rootNodeId nowMs =>
      exact GraphDatabase.transaction_rule hnone fun _ after hok => hnone.createGraph hshape hok
  | spawnChild graphId parentNodeId spec ready nodeId nowMs =>
      refine GraphDatabase.transaction_rule hnone fun child after hok => ?_
      obtain ⟨graph, parent, reserved, hspawned⟩ := spawnChild_ok hok
      exact hnone.spawnChild hshape hspawned (hguard ⟨_, hok⟩)
  | activateNode nodeId nowMs =>
      refine GraphDatabase.transaction_rule hnone fun node after hok => ?_
      by_cases hcreated : IsCreated db nodeId
      · refine hnone.quiet (X := fun id => id = nodeId) hshape (activateNode_moves hok)
          (fun id hidle => ?_) ?_
        · exact (IsIdle.of_activateNode hok hidle).imp_right fun h => h.2
        · rintro id rfl
          exact hguard hcreated
      · refine hnone.quiet (X := fun _ => False) hshape (activateNode_moves hok)
          (fun id hidle => ?_) fun _ h => h.elim
        exact (IsIdle.of_activateNode hok hidle).imp_right fun h => hcreated h.1
  | leaseReady graphId args =>
      refine GraphDatabase.transaction_rule hnone fun leased after hok => ?_
      obtain ⟨hlease, hlimit, hworker⟩ := (leaseReady_ok hok).1
      exact hnone.quiet hshape (leaseReady_moves hok) (fun id => IsIdle.of_leaseReady hok)
        (hguard hlease hlimit hworker)
  | completeNode nodeId workerId draft artifactId nowMs =>
      refine GraphDatabase.transaction_rule hnone fun artifact after hok => ?_
      have hends := completeNode_ends hshape hok
      exact hnone.of_frame (X := fun _ => False) (completeNode_moves hok).frame
        (fun id hopen => ((hends.isOpen id).mp hopen).1)
        (fun id hidle => .inl (IsIdle.of_completeNode hok hidle)) fun _ h => h.elim
  | _ => exact hsmooth.elim

/-! ### The other properties of a smooth run -/

/-- Nodes have no deadline and end completed only; none is in `cancelling`, which no
transaction writes. -/
structure Smooth (db : GraphDatabase) : Prop where
  deadline : ∀ row ∈ db.nodes, row.spec.deadlineMs = none
  ended : ∀ row ∈ db.nodes, row.status.isTerminal = true → row.status = .completed
  status : ∀ row ∈ db.nodes, row.status ≠ .cancelling

theorem RowMove.status_ne_cancelling {row moved : NodeRow} (hmove : RowMove row moved)
    (hstatus : row.status ≠ .cancelling) : moved.status ≠ .cancelling := by
  cases hmove with
  | keep => exact hstatus
  | node hnode =>
      cases hnode with
      | ready nowMs hopen hidle => exact NodeStatus.noConfusion
      | unlease status nowMs hopen hready =>
          rcases hready with rfl | rfl <;> exact NodeStatus.noConfusion
  | lease args hready => exact NodeStatus.noConfusion
  | suspend nowMs hidle => exact NodeStatus.noConfusion
  | close status nowMs hopen hterminal =>
      rintro rfl
      cases hterminal

theorem GraphMoves.status_ne_cancelling (hshape : GraphShape db) (hmoves : GraphMoves floor db after)
    (hstatus : ∀ row ∈ db.nodes, row.status ≠ .cancelling) :
    ∀ row ∈ after.nodes, row.status ≠ .cancelling := by
  induction hmoves with
  | refl => exact hstatus
  | tail hbefore hlast ih =>
      have hbetween := hshape.of_frame (GraphMoves.frame hbefore)
      intro row hrow
      obtain ⟨old, hold, hmove⟩ := Table.Forall₂.of_mem_right (hlast.row_moves hbetween) hrow
      exact hmove.status_ne_cancelling (ih old hold)

theorem Smooth.of_moves (hsmooth : Smooth db) (hshape : GraphShape db)
    (hmoves : GraphMoves floor db after)
    (hended : ∀ id status, status.isTerminal = true → EndedAs after id status →
      EndedAs db id status ∨ status = .completed) : Smooth after := by
  refine ⟨?_, ?_, hmoves.status_ne_cancelling hshape hsmooth.status⟩
  · intro row hrow
    obtain ⟨old, hold, hsame⟩ := Table.Forall₂.of_mem_right hmoves.frame.nodes hrow
    rw [← hsame.spec]
    exact hsmooth.deadline old hold
  · intro row hrow hterminal
    rcases hended row.nodeId row.status hterminal ⟨row, hrow, rfl, rfl⟩ with
      ⟨old, hold, _, hstatus⟩ | hcompleted
    · rw [← hstatus]
      exact hsmooth.ended old hold (hstatus ▸ hterminal)
    · exact hcompleted

theorem Smooth.quiet (hsmooth : Smooth db) (hshape : GraphShape db) (hquiet : QuietMoves db after) :
    Smooth after := by
  have hrows := (hquiet.rows_quiet hshape).imp fun _ _ => QuietRow.sameEnd
  exact hsmooth.of_moves hshape (hquiet.moves : GraphMoves clampZero db after) fun id _ hterminal h =>
    .inl ((endedAs_of_sameEnd hrows id hterminal).mp h)

theorem Smooth.append {node : NodeRow} (hsmooth : Smooth middle)
    (hnodes : after.nodes = middle.nodes ++ [node]) (hdeadline : node.spec.deadlineMs = none)
    (hstatus : node.status = .ready ∨ node.status = .created) : Smooth after := by
  have hnew {P : NodeRow → Prop} (hold : ∀ row ∈ middle.nodes, P row) (hnode : P node) :
      ∀ row ∈ after.nodes, P row := by
    intro row hrow
    rw [hnodes] at hrow
    rcases List.mem_append.mp hrow with hmem | hmem
    · exact hold row hmem
    · rw [List.mem_singleton.mp hmem]
      exact hnode
  refine ⟨hnew hsmooth.deadline hdeadline, hnew hsmooth.ended ?_, hnew hsmooth.status ?_⟩
  · rcases hstatus with h | h <;> rw [h] <;> exact fun hterminal => nomatch hterminal
  · rcases hstatus with h | h <;> rw [h] <;> exact NodeStatus.noConfusion

theorem GraphOp.smooth (hshape : GraphShape db) (hsmooth : Smooth db) {op : GraphOp}
    (hop : RunsSmoothly op) : Smooth (op.apply floor db) := by
  have heffect := effect floor db op
  revert heffect
  generalize op.apply floor db = after
  intro heffect
  cases heffect with
  | quiet hquiet => exact hsmooth.quiet hshape hquiet
  | fail hok => exact hop.elim
  | complete hok =>
      have hends := completeNode_ends hshape hok
      refine hsmooth.of_moves hshape (completeNode_moves hok) ?_
      intro id status hterminal hended
      exact ((hends.endedAs id status hterminal).mp hended).imp_right fun h => h.2
  | cancel hok => exact hop.elim
  | create hok =>
      obtain ⟨_, _, rfl⟩ := createGraph_ok hok
      exact hsmooth.append rfl hop (.inl rfl)
  | @spawn _ _ _ _ ready nowMs _ _ _ parent _ hok hspawned =>
      have hmoves := suspendParent_moves clampZero hspawned.parentMem nowMs
      have hrows := suspendParent_sameEnd hshape hspawned.parentMem nowMs
      have hsuspended := hsmooth.of_moves hshape hmoves fun id _ hterminal h =>
        .inl ((endedAs_of_sameEnd hrows id hterminal).mp h)
      rw [hspawned.result]
      refine hsuspended.append rfl hop ?_
      cases ready with
      | true => exact .inl rfl
      | false => exact .inr rfl

/-! ### Progress -/

theorem expireLeases_of_idle {graphId : String} (hidle : ∀ row ∈ db.nodes, row.graphId = graphId →
    row.status ≠ .running) (nowMs : Int) : expireLeases db graphId nowMs = db := by
  have hsame : Table.update (fun row => row.graphId = graphId && row.status = .running &&
      row.leaseExpiresAtMs.any (· ≤ nowMs)) (unleased .ready nowMs) db.nodes = db.nodes := by
    refine Table.update_eq_self ?_
    intro row hrow
    by_cases hin : row.graphId = graphId
    · simp [hin, hidle row hrow hin]
    · simp [hin]
  unfold expireLeases setNodes
  rw [hsame]

/-- A node that nobody keeps waiting can be leased when nothing runs in the graph. -/
theorem leaseReady_finds {graph : GraphRow} (hgraph : findGraph db graph.graphId = some graph)
    (hactive : graph.status = .active)
    (hidle : ∀ row ∈ db.nodes, row.graphId = graph.graphId → row.status ≠ .running)
    {args : LeaseReady} (hlease : 1 ≤ args.leaseMs) (hlimit : 1 ≤ args.limit)
    (hworker : args.workerId ≠ "") {row : NodeRow} (hrow : row ∈ db.nodes)
    (hleasable : isLeasable db graph.graphId args.nowMs row = true) :
    ∃ leased after, leaseReady graph.graphId args db = .ok (leased, after) ∧ leased ≠ [] := by
  have hvalid : ¬ (args.leaseMs < 1 ∨ args.limit < 1 ∨ args.workerId = "") := by
    rintro (h | h | h)
    · omega
    · omega
    · exact hworker h
  have hfound : (findGraph (purgeLocks db args.nowMs) graph.graphId).filter
      (fun graph => graph.status = .active) = some graph :=
    Option.filter_eq_some_iff.mpr ⟨hgraph, by simpa using hactive⟩
  unfold leaseReady
  rw [if_neg hvalid, expireLeases_of_idle hidle]
  simp only [hfound]
  refine ⟨_, _, rfl, ?_⟩
  have hzero : runningCount (purgeLocks db args.nowMs) graph.graphId = 0 := by
    rw [runningCount, List.countP_eq_zero]
    intro other hother
    by_cases hin : other.graphId = graph.graphId
    · simp [hin, hidle other hother hin]
    · simp [hin]
  have hcapacity : 1 ≤ min args.limit (graph.limits.maxConcurrency -
      runningCount (purgeLocks db args.nowMs) graph.graphId) := by
    have := graph.limits.maxConcurrency_pos
    omega
  have hselected : leaseSelection graph args (purgeLocks db args.nowMs) ≠ [] := by
    have hcandidate : row ∈ (db.nodes.filter (isLeasable db graph.graphId args.nowMs)).insertionSort
        fun a b => leaseLe a b := by
      rw [List.mem_insertionSort, List.mem_filter]
      exact ⟨hrow, hleasable⟩
    unfold leaseSelection
    intro hempty
    rcases List.take_eq_nil_iff.mp hempty with hnone | hnone
    · omega
    · have hcandidates : (db.nodes.filter (isLeasable db graph.graphId args.nowMs)).insertionSort
          (fun a b => leaseLe a b) = [] := hnone
      rw [hcandidates] at hcandidate
      exact absurd hcandidate List.not_mem_nil
  simpa using hselected

structure ProgressInvariant (db : GraphDatabase) : Prop where
  shape : GraphShape db
  waiting : WaitsForChild (fun _ => False) db
  smooth : Smooth db
  noDeadlock : NoDeadlock db

theorem isOpen_iff (hshape : GraphShape db) {row : NodeRow} (hrow : row ∈ db.nodes) :
    IsOpen db row.nodeId ↔ row.status.isTerminal = false := by
  constructor
  · rintro ⟨other, hother, hid, hopen⟩
    rwa [← hshape.node_eq hother hrow hid]
  · exact fun hopen => ⟨row, hrow, rfl, hopen⟩

theorem NodeStatus.open_cases {status : NodeStatus} (hopen : status.isTerminal = false)
    (hcancelling : status ≠ .cancelling) :
    (status = .running ∨ status = .created) ∨ status.isIdle = true := by
  cases status <;> simp_all [NodeStatus.isTerminal, NodeStatus.isIdle]

/-- A node that waits for nobody can be leased. -/
theorem ProgressInvariant.leasable (hinv : ProgressInvariant db) {row : NodeRow}
    (hrow : row ∈ db.nodes) (hidle : row.status.isIdle = true)
    (hnobody : ∀ other, ¬ Waits db (fun _ => False) row.nodeId other) (nowMs : Int) :
    isLeasable db row.graphId nowMs row = true := by
  have hfree (other : String) (hopen : IsOpen db other) : ¬ Linked db row.nodeId other :=
    fun hlinked => hnobody other ⟨.inl ⟨row, hrow, rfl, hidle⟩, hopen, hlinked⟩
  have hnoChild : hasOpenChild db row.nodeId = false := by
    rw [← Bool.not_eq_true, hasOpenChild_iff]
    rintro ⟨child, hchild, hparent, hopen⟩
    exact hfree child.nodeId ⟨child, hchild, rfl, hopen⟩ (.inl ⟨child, hchild, rfl, hparent⟩)
  have hready : row.status = .ready ∨ row.status = .interrupted := by
    cases hstatus : row.status with
    | ready => exact .inl rfl
    | interrupted => exact .inr rfl
    | waiting =>
        rcases hinv.waiting row hrow hstatus with hchild | hnever
        · rw [hnoChild] at hchild
          cases hchild
        · exact hnever.elim
    | _ =>
        rw [hstatus] at hidle
        cases hidle
  have hcomplete : (db.edges.any fun edge =>
      edge.graphId = row.graphId && edge.dependentNodeId = row.nodeId &&
        db.nodes.any fun p => p.nodeId = edge.predecessorNodeId && p.status ≠ .completed) = false := by
    rw [← Bool.not_eq_true, List.any_eq_true]
    rintro ⟨edge, hedge, hwaits⟩
    simp only [Bool.and_eq_true, decide_eq_true_eq, List.any_eq_true, ne_eq, decide_not,
      Bool.not_eq_true', decide_eq_false_iff_not] at hwaits
    obtain ⟨⟨_, hto⟩, predecessor, hpredecessor, hid, hincomplete⟩ := hwaits
    have hopen : predecessor.status.isTerminal = false := by
      by_contra hended
      exact hincomplete (hinv.smooth.ended predecessor hpredecessor (by simpa using hended))
    refine hfree predecessor.nodeId ⟨predecessor, hpredecessor, rfl, hopen⟩ (.inr ?_)
    exact ⟨edge, hedge, hto, by rw [hid]; exact List.mem_singleton.mpr rfl⟩
  simp only [isLeasable, hnoChild, hcomplete, hinv.smooth.deadline row hrow]
  rcases hready with h | h <;> simp [h]

theorem ProgressInvariant.progressing (hinv : ProgressInvariant db) : Progressing db := by
  intro graph hgraph hactive hrootOpen
  by_cases hbusy : ∃ row ∈ db.nodes, row.graphId = graph.graphId ∧
      (row.status = .running ∨ row.status = .created)
  · exact .inl hbusy
  right
  intro args hlease hlimit hworker
  have hnotBusy : ∀ row ∈ db.nodes, row.graphId = graph.graphId →
      ¬ (row.status = .running ∨ row.status = .created) :=
    fun row hrow hin hstatus => hbusy ⟨row, hrow, hin, hstatus⟩
  -- The open nodes of the graph; following the waits from the root ends in one of them.
  let points : Set String := { id | ∃ row ∈ db.nodes, row.nodeId = id ∧
    row.graphId = graph.graphId ∧ row.status.isTerminal = false }
  have hfinite : points.Finite := by
    refine (List.finite_toSet (db.nodes.map NodeRow.nodeId)).subset ?_
    rintro id ⟨row, hrow, rfl, _⟩
    exact List.mem_map_of_mem hrow
  have hclosed : ∀ a b, a ∈ points → Waits db (fun _ => False) a b → b ∈ points := by
    rintro a b ⟨row, hrow, rfl, hin, _⟩ ⟨_, ⟨other, hother, rfl, hopen⟩, hlinked⟩
    refine ⟨other, hother, rfl, ?_, hopen⟩
    rcases hlinked with ⟨child, hchild, hid, hparent⟩ | ⟨edge, hedge, hto, hfrom⟩
    · obtain ⟨parent, hparentMem, hparentId, hsameGraph, _⟩ :=
        hinv.shape.parentOf child hchild _ hparent
      rw [← hinv.shape.node_eq hchild hother hid, ← hsameGraph,
        hinv.shape.node_eq hparentMem hrow hparentId]
      exact hin
    · obtain ⟨dependent, hdependent, hdependentId, hdependentGraph⟩ :=
        hinv.shape.dependentOf edge hedge
      obtain ⟨predecessor, hpredecessor, hpredecessorId, hpredecessorGraph⟩ :=
        hinv.shape.predecessorOf edge hedge
      have hfrom' := List.mem_singleton.mp hfrom
      rw [hinv.shape.node_eq hother hpredecessor (by rw [hpredecessorId, hfrom']), hpredecessorGraph,
        ← hdependentGraph, hinv.shape.node_eq hdependent hrow (hdependentId.trans hto)]
      exact hin
  obtain ⟨root, hroot, hrootId, hrootGraph⟩ := hinv.shape.rootOf graph hgraph
  have hstart : graph.rootNodeId ∈ points := by
    refine ⟨root, hroot, hrootId, hrootGraph, ?_⟩
    rw [← hrootId] at hrootOpen
    exact (isOpen_iff hinv.shape hroot).mp hrootOpen
  obtain ⟨sink, ⟨row, hrow, rfl, hin, hopen⟩, _, hlast⟩ :=
    hinv.noDeadlock.exists_sink hfinite hclosed hstart
  have hidle := (NodeStatus.open_cases hopen (hinv.smooth.status row hrow)).resolve_left
    (hnotBusy row hrow hin)
  have hleasable := hinv.leasable hrow hidle hlast args.nowMs
  have hfind : findGraph db graph.graphId = some graph :=
    (Table.find?_key_iff hinv.shape.graphIds).mpr ⟨hgraph, rfl⟩
  refine leaseReady_finds hfind hactive ?_ hlease hlimit hworker hrow (hin ▸ hleasable)
  exact fun row hrow hin hrunning => hnotBusy row hrow hin (.inl hrunning)

theorem ProgressInvariant.empty : ProgressInvariant {} := by
  refine ⟨.empty, ?_, ?_, ?_⟩
  · exact fun _ hrow => absurd hrow List.not_mem_nil
  · constructor <;> exact fun _ hrow => absurd hrow List.not_mem_nil
  · intro id hcycle
    obtain ⟨_, ⟨_, ⟨_, hrow, _⟩, _⟩, _⟩ := TransGen.head'_iff.mp hcycle
    exact absurd hrow List.not_mem_nil

/-! ### Runs -/

/-- In a run without failures, cancellations, interruptions and deadlines, the graphs
can go on in every state if no node that starts to wait closes a cycle. -/
theorem smooth_run_progresses {ops : List GraphOp} (hsmooth : ∀ op ∈ ops, RunsSmoothly op)
    (hguard : Along (GraphOp.step clampZero) ClosesNoCycle ops {}) :
    Always (GraphOp.step clampZero) Progressing ops {} := by
  refine always_of_invariant (I := ProgressInvariant) ?_ (fun _ => ProgressInvariant.progressing)
    .empty (hguard.and_mem hsmooth)
  rintro db op after hinv ⟨hcloses, hop⟩ hstep
  cases hstep
  exact ⟨GraphOp.shape hinv.shape op, GraphOp.waitsForChild hinv.shape hinv.waiting op,
    GraphOp.smooth hinv.shape hinv.smooth hop, GraphOp.noDeadlock hinv.shape hinv.noDeadlock hop hcloses⟩

/-- The node is the parent of no node and depends on none. -/
def isUnlinked (db : GraphDatabase) (nodeId : String) : Bool :=
  (db.nodes.all fun row => row.parentNodeId ≠ some nodeId) &&
    db.edges.all fun edge => edge.dependentNodeId ≠ nodeId

/-- A test for `ClosesNoCycle` in runs that activate no node and let no lease expire. -/
def namesUnlinked (db : GraphDatabase) : GraphOp → Bool
  | .spawnChild _ parentNodeId spec _ _ _ =>
      spec.dependencyNodeIds.all fun id => id ≠ parentNodeId && isUnlinked db id
  | .activateNode .. => false
  | .leaseReady graphId args => db.nodes.all fun row => !isExpired graphId args.nowMs row
  | _ => true

theorem closesNoCycle_of_test (db : GraphDatabase) (op : GraphOp)
    (htest : namesUnlinked db op = true) : ClosesNoCycle db op := by
  cases op with
  | spawnChild graphId parentNodeId spec ready nodeId nowMs =>
      intro _ _ _ d hd hreaches
      have hunlinked := List.all_eq_true.mp htest d hd
      simp only [isUnlinked, Bool.and_eq_true, List.all_eq_true, decide_eq_true_eq, ne_eq]
        at hunlinked
      obtain ⟨hne, hnoChild, hnoEdge⟩ := hunlinked
      rcases ReflTransGen.cases_head hreaches with hsame | ⟨other, ⟨_, _, hlinked⟩, _⟩
      · exact hne hsame
      · rcases hlinked with ⟨child, hchild, _, hparent⟩ | ⟨edge, hedge, hto, _⟩
        · exact hnoChild child hchild hparent
        · exact hnoEdge edge hedge hto
  | activateNode nodeId nowMs => cases htest
  | leaseReady graphId args =>
      rintro _ _ _ id ⟨row, hrow, _, hexpired⟩
      have hnot := List.all_eq_true.mp htest row hrow
      rw [hexpired] at hnot
      cases hnot
  | _ => trivial

section Examples

/-- A node that does not say more than its role and its dependencies. -/
def plainSpec (name : String) (role : AgentRole) (dependencyNodeIds : List String) : NodeSpec :=
  { name, role, taskBrief := "Do it.", expectedOutputType := "report", toolIds := []
    budgets := [], dependencyNodeIds }

/-- A child that depends on a completed sibling is leased. -/
theorem dependent_sibling_progresses :
    Always (GraphOp.step clampZero) Progressing
      [.createGraph ⟨"run", "tenant", plainSpec "root" .orchestrator [], {}⟩ "graph" "root" 0,
        .spawnChild "graph" "root" (plainSpec "a" .researcher []) true "a" 1,
        .spawnChild "graph" "root" (plainSpec "b" .researcher ["a"]) true "b" 2,
        .leaseReady "graph" ⟨"worker", 3, 60000, 1⟩,
        .completeNode "a" "worker" ⟨"report", [], [], .verified⟩ "artifact" 4,
        .leaseReady "graph" ⟨"worker", 5, 60000, 1⟩] {} := by
  refine smooth_run_progresses ?_ (along_of_check closesNoCycle_of_test (by decide +kernel))
  simp [RunsSmoothly, plainSpec]

/-- A test that `Progressing` implies, for one lease. -/
def canGoOn (args : LeaseReady) (db : GraphDatabase) : Bool :=
  db.graphs.all fun graph => graph.status ≠ .active || !decide (IsOpen db graph.rootNodeId) ||
    (db.nodes.any fun row => row.graphId = graph.graphId &&
      (row.status = .running || row.status = .created)) ||
    match leaseReady graph.graphId args db with
    | .ok (leased, _) => leased ≠ []
    | .error _ => false

theorem Progressing.canGoOn (hprogress : Progressing db) :
    canGoOn ⟨"worker", 0, 1, 1⟩ db = true := by
  rw [Codex2Lark.canGoOn, List.all_eq_true]
  intro graph hgraph
  by_cases hactive : graph.status = .active
  · by_cases hopen : IsOpen db graph.rootNodeId
    · rcases hprogress graph hgraph hactive hopen with ⟨row, hrow, hin, hstatus⟩ | hlease
      · have hbusy : (db.nodes.any fun row => row.graphId = graph.graphId &&
            (row.status = .running || row.status = .created)) = true :=
          List.any_eq_true.mpr ⟨row, hrow, by simpa [hin] using hstatus⟩
        simp [hbusy]
      · obtain ⟨leased, after, hok, hfound⟩ := hlease ⟨"worker", 0, 1, 1⟩ (by decide) (by decide)
          (by decide)
        simp [hok, hfound]
    · simp [hopen]
  · simp [hactive]

/-- A child that depends on its own parent: neither of them can ever be leased. -/
theorem child_depending_on_parent_deadlocks :
    let ops : List GraphOp :=
      [.createGraph ⟨"run", "tenant", plainSpec "root" .orchestrator [], {}⟩ "graph" "root" 0,
        .spawnChild "graph" "root" (plainSpec "a" .researcher ["root"]) true "a" 1]
    (∀ op ∈ ops, RunsSmoothly op) ∧ ¬ Always (GraphOp.step clampZero) Progressing ops {} := by
  intro ops
  refine ⟨by simp [ops, RunsSmoothly, plainSpec], ?_⟩
  exact not_always_of_check (fun _ => Progressing.canGoOn) (by decide +kernel)

end Examples

end Codex2Lark
