import Codex2Lark.Storage.NodeLifecycle

/-!
Which nodes a transaction of the agent graph store ends, and how. A node that fails
or is cancelled strikes its open dependents, which end blocked; the dependents of
those are not visited.
-/

namespace Codex2Lark

open Lib AgentStore

def IsOpen (db : GraphDatabase) (nodeId : String) : Prop :=
  ∃ row ∈ db.nodes, row.nodeId = nodeId ∧ row.status.isTerminal = false

def EndedAs (db : GraphDatabase) (nodeId : String) (status : NodeStatus) : Prop :=
  ∃ row ∈ db.nodes, row.nodeId = nodeId ∧ row.status = status

/-- The node depends directly on one of the nodes. -/
def DependsOn (db : GraphDatabase) (nodeId : String) (predecessors : List String) : Prop :=
  ∃ edge ∈ db.edges, edge.dependentNodeId = nodeId ∧ edge.predecessorNodeId ∈ predecessors

def IsParentOf (db : GraphDatabase) (parentId nodeId : String) : Prop :=
  ∃ row ∈ db.nodes, row.nodeId = nodeId ∧ row.parentNodeId = some parentId

instance (db : GraphDatabase) (nodeId : String) : Decidable (IsOpen db nodeId) :=
  inferInstanceAs (Decidable (∃ row ∈ db.nodes, _))

instance (db : GraphDatabase) (nodeId : String) (status : NodeStatus) :
    Decidable (EndedAs db nodeId status) :=
  inferInstanceAs (Decidable (∃ row ∈ db.nodes, _))

instance (db : GraphDatabase) (nodeId : String) (predecessors : List String) :
    Decidable (DependsOn db nodeId predecessors) :=
  inferInstanceAs (Decidable (∃ edge ∈ db.edges, _))

variable {floor : Int → Int} {db middle after : GraphDatabase}

/-- The same node, open as long as it was open and ended as it ended. -/
structure SameEnd (row moved : NodeRow) : Prop where
  same : row.Same moved
  openness : moved.status.isTerminal = row.status.isTerminal
  ended : row.status.isTerminal = true → moved.status = row.status

theorem QuietRow.sameEnd {row moved : NodeRow} (hquiet : QuietRow row moved) :
    SameEnd row moved := ⟨hquiet.same, hquiet.openness, hquiet.ended⟩

theorem isOpen_of_sameEnd (hrows : List.Forall₂ SameEnd db.nodes after.nodes) (nodeId : String) :
    IsOpen after nodeId ↔ IsOpen db nodeId := by
  constructor
  · rintro ⟨row, hrow, hid, hopen⟩
    obtain ⟨old, hold, hmove⟩ := Table.Forall₂.of_mem_right hrows hrow
    exact ⟨old, hold, hmove.same.nodeId.trans hid, hmove.openness.symm.trans hopen⟩
  · rintro ⟨row, hrow, hid, hopen⟩
    obtain ⟨moved, hmoved, hmove⟩ := Table.Forall₂.of_mem_left hrows hrow
    exact ⟨moved, hmoved, hmove.same.nodeId.symm.trans hid, hmove.openness.trans hopen⟩

theorem endedAs_of_sameEnd (hrows : List.Forall₂ SameEnd db.nodes after.nodes) (nodeId : String)
    {status : NodeStatus} (hterminal : status.isTerminal = true) :
    EndedAs after nodeId status ↔ EndedAs db nodeId status := by
  constructor
  · rintro ⟨row, hrow, hid, hstatus⟩
    obtain ⟨old, hold, hmove⟩ := Table.Forall₂.of_mem_right hrows hrow
    have hended : old.status.isTerminal = true := by
      rw [← hmove.openness, hstatus]
      exact hterminal
    exact ⟨old, hold, hmove.same.nodeId.trans hid, (hmove.ended hended).symm.trans hstatus⟩
  · rintro ⟨row, hrow, hid, hstatus⟩
    obtain ⟨moved, hmoved, hmove⟩ := Table.Forall₂.of_mem_left hrows hrow
    refine ⟨moved, hmoved, hmove.same.nodeId.symm.trans hid, ?_⟩
    rw [hmove.ended (hstatus ▸ hterminal), hstatus]

theorem isParentOf_of_frame (hframe : GraphFrame db after) (parentId id : String) :
    IsParentOf after parentId id ↔ IsParentOf db parentId id := by
  constructor
  · rintro ⟨row, hrow, hid, hparent⟩
    obtain ⟨old, hold, hsame⟩ := Table.Forall₂.of_mem_right hframe.nodes hrow
    exact ⟨old, hold, hsame.nodeId.trans hid, hsame.parentNodeId.trans hparent⟩
  · rintro ⟨row, hrow, hid, hparent⟩
    obtain ⟨moved, hmoved, hsame⟩ := Table.Forall₂.of_mem_left hframe.nodes hrow
    exact ⟨moved, hmoved, hsame.nodeId.symm.trans hid, hsame.parentNodeId.symm.trans hparent⟩

/-! ### One node ends -/

/-- Exactly the listed nodes end, with this status. -/
structure EndsExactly (status : NodeStatus) (ids : List String) (db after : GraphDatabase) :
    Prop where
  edges : after.edges = db.edges
  isOpen : ∀ id, IsOpen after id ↔ IsOpen db id ∧ id ∉ ids
  endedAs : ∀ id ended, ended.isTerminal = true →
    (EndedAs after id ended ↔ EndedAs db id ended ∨ id ∈ ids ∧ ended = status)

theorem EndsExactly.nil (status : NodeStatus) (db : GraphDatabase) :
    EndsExactly status [] db db := by
  constructor <;> simp

theorem EndsExactly.append {status : NodeStatus} {first second : List String}
    (hfirst : EndsExactly status first db middle) (hsecond : EndsExactly status second middle after) :
    EndsExactly status (first ++ second) db after := by
  refine ⟨hsecond.edges.trans hfirst.edges, ?_, ?_⟩
  · intro id
    rw [hsecond.isOpen, hfirst.isOpen, List.mem_append, not_or, and_assoc]
  · intro id ended hterminal
    rw [hsecond.endedAs id ended hterminal, hfirst.endedAs id ended hterminal, List.mem_append]
    tauto

theorem EndsExactly.sameEnd {status : NodeStatus} {ids : List String}
    (hends : EndsExactly status ids db middle) (hedges : after.edges = middle.edges)
    (hrows : List.Forall₂ SameEnd middle.nodes after.nodes) : EndsExactly status ids db after := by
  refine ⟨hedges.trans hends.edges, ?_, ?_⟩
  · intro id
    rw [isOpen_of_sameEnd hrows, hends.isOpen]
  · intro id ended hterminal
    rw [endedAs_of_sameEnd hrows id hterminal, hends.endedAs id ended hterminal]

theorem settleNode_ends (hshape : GraphShape db) {row : NodeRow} (hrow : row ∈ db.nodes)
    (hopen : row.status.isTerminal = false) (status : NodeStatus)
    (hterminal : status.isTerminal = true) (nowMs : Int) :
    EndsExactly status [row.nodeId] db (settleNode db row.nodeId status nowMs) := by
  refine ⟨rfl, ?_, ?_⟩
  · intro id
    rw [List.mem_singleton]
    constructor
    · rintro ⟨moved, hmoved, hid, hstill⟩
      rcases Table.mem_update_cases hmoved with ⟨hmem, hother⟩ | ⟨old, _, _, rfl⟩
      · have hne : moved.nodeId ≠ row.nodeId := by simpa using hother
        exact ⟨⟨moved, hmem, hid, hstill⟩, hid ▸ hne⟩
      · simp only [unleased] at hstill
        rw [hterminal] at hstill
        cases hstill
    · rintro ⟨⟨old, hold, hid, hstill⟩, hne⟩
      refine ⟨old, Table.mem_update_of_not hold ?_, hid, hstill⟩
      simpa [hid] using hne
  · intro id ended hended
    rw [List.mem_singleton]
    constructor
    · rintro ⟨moved, hmoved, hid, hstatus⟩
      rcases Table.mem_update_cases hmoved with ⟨hmem, _⟩ | ⟨old, hold, hcond, rfl⟩
      · exact .inl ⟨moved, hmem, hid, hstatus⟩
      · refine .inr ⟨?_, hstatus.symm⟩
        have hthis : old.nodeId = row.nodeId := by simpa using hcond
        exact hid.symm.trans hthis
    · rintro (⟨old, hold, hid, hstatus⟩ | ⟨rfl, rfl⟩)
      · refine ⟨old, Table.mem_update_of_not hold ?_, hid, hstatus⟩
        by_contra hsame
        rw [hshape.node_eq hold hrow (by simpa using hsame)] at hstatus
        rw [hstatus, hended] at hopen
        cases hopen
      · exact ⟨_, Table.mem_update_of_cond hrow (by simp), rfl, rfl⟩

theorem EndsExactly.release (floor : Int → Int) {status : NodeStatus} {ids : List String}
    (hends : EndsExactly status ids db middle) (row : NodeRow) (nowMs : Int) :
    EndsExactly status ids db (releaseParentBudget floor middle row nowMs) := by
  refine hends.sameEnd (releaseParentBudget_edges row nowMs) ?_
  rw [releaseParentBudget_nodes]
  exact List.forall₂_same.mpr fun row _ => (QuietRow.refl row).sameEnd

theorem EndsExactly.moves {status : NodeStatus} {ids : List String} (hshape : GraphShape middle)
    (hends : EndsExactly status ids db middle) (hmoves : QuietMoves middle after) :
    EndsExactly status ids db after := by
  have hframe : GraphFrame middle after := (hmoves.moves : GraphMoves id middle after).frame
  exact hends.sameEnd hframe.edges ((hmoves.rows_quiet hshape).imp fun _ _ => QuietRow.sameEnd)

/-! ### A node ends and strikes its dependents -/

theorem blockNode_ends (floor : Int → Int) (hshape : GraphShape db) {row : NodeRow} (hopen : IsOpenRow db row)
    (nowMs : Int) : EndsExactly .blocked [row.nodeId] db (blockNode floor nowMs db row) := by
  obtain ⟨current, hmem, hsame, hcurrent⟩ := hopen
  have hsettled := settleNode_ends hshape hmem hcurrent .blocked rfl nowMs
  have hreleased := hsettled.release floor current nowMs
  have hmoved : GraphMoves floor db _ := .single (.close .blocked nowMs hmem hcurrent rfl)
  unfold blockNode
  rw [releaseParentBudget_congr hsame, hsame.nodeId, hsame.parentNodeId]
  exact hreleased.moves (hshape.of_frame hmoved.frame) (wakeParent_moves _ nowMs)

/-- The loop blocks the rows it was given, and no other node. -/
theorem blockNodes_ends (floor : Int → Int) (hshape : GraphShape db) {rows : List NodeRow}
    (hids : (rows.map NodeRow.nodeId).Nodup) (hopen : ∀ row ∈ rows, IsOpenRow db row)
    (nowMs : Int) :
    EndsExactly .blocked (rows.map NodeRow.nodeId) db (rows.foldl (blockNode floor nowMs) db) := by
  induction rows generalizing db with
  | nil => exact .nil .blocked db
  | cons row rest ih =>
      obtain ⟨hnotIn, hrest⟩ := List.nodup_cons.mp hids
      have hrow := hopen row List.mem_cons_self
      have hfirst := blockNode_ends floor hshape hrow nowMs
      have hmoved : GraphMoves floor db _ := blockNode_moves hrow nowMs
      refine hfirst.append (ih (hshape.of_frame hmoved.frame) hrest ?_)
      intro other hother
      refine (hopen other (List.mem_cons_of_mem _ hother)).blockNode ?_ nowMs
      intro hsame
      exact hnotIn (hsame ▸ List.mem_map_of_mem hother)

theorem blockDependents_ends (floor : Int → Int) (hshape : GraphShape db) (nodeId : String)
    (nowMs : Int) :
    EndsExactly .blocked ((openDependents db nodeId).map NodeRow.nodeId) db
      (blockDependents floor db nodeId nowMs) :=
  blockNodes_ends floor hshape (openDependents_nodup hshape nodeId) (fun _ => openDependents_open) nowMs

theorem mem_openDependents_ids {nodeId id : String} :
    id ∈ (openDependents db nodeId).map NodeRow.nodeId ↔ IsOpen db id ∧ DependsOn db id [nodeId] := by
  simp only [List.mem_map, mem_openDependents, IsOpen, DependsOn, List.mem_singleton]
  constructor
  · rintro ⟨row, ⟨hrow, hopen, edge, hedge, hfrom, hto⟩, rfl⟩
    exact ⟨⟨row, hrow, rfl, hopen⟩, edge, hedge, hto, hfrom⟩
  · rintro ⟨⟨row, hrow, hid, hopen⟩, edge, hedge, hto, hfrom⟩
    exact ⟨row, ⟨hrow, hopen, edge, hedge, hfrom, hto.trans hid.symm⟩, hid⟩

/-- The listed nodes end with the status, and the open nodes that depend directly on
one of them end blocked. -/
structure Struck (status : NodeStatus) (ids : List String) (db after : GraphDatabase) : Prop where
  edges : after.edges = db.edges
  isOpen : ∀ id, IsOpen after id ↔ IsOpen db id ∧ id ∉ ids ∧ ¬ DependsOn db id ids
  endedAs : ∀ id ended, ended.isTerminal = true →
    (EndedAs after id ended ↔ EndedAs db id ended ∨ id ∈ ids ∧ ended = status ∨
      ended = .blocked ∧ IsOpen db id ∧ id ∉ ids ∧ DependsOn db id ids)

theorem dependsOn_nil (nodeId : String) : ¬ DependsOn db nodeId [] := by
  simp [DependsOn]

theorem dependsOn_append {nodeId : String} {first second : List String} :
    DependsOn db nodeId (first ++ second) ↔ DependsOn db nodeId first ∨ DependsOn db nodeId second := by
  simp only [DependsOn, List.mem_append]
  constructor
  · rintro ⟨edge, hedge, hto, hfrom | hfrom⟩
    · exact .inl ⟨edge, hedge, hto, hfrom⟩
    · exact .inr ⟨edge, hedge, hto, hfrom⟩
  · rintro (⟨edge, hedge, hto, hfrom⟩ | ⟨edge, hedge, hto, hfrom⟩)
    · exact ⟨edge, hedge, hto, .inl hfrom⟩
    · exact ⟨edge, hedge, hto, .inr hfrom⟩

theorem dependsOn_congr (hedges : after.edges = db.edges) (nodeId : String) (ids : List String) :
    DependsOn after nodeId ids ↔ DependsOn db nodeId ids := by
  unfold DependsOn
  rw [hedges]

theorem Struck.nil (status : NodeStatus) (db : GraphDatabase) : Struck status [] db db := by
  constructor <;> simp [dependsOn_nil]

theorem Struck.sameEnd {status : NodeStatus} {ids : List String} (hstruck : Struck status ids db middle)
    (hedges : after.edges = middle.edges) (hrows : List.Forall₂ SameEnd middle.nodes after.nodes) :
    Struck status ids db after := by
  refine ⟨hedges.trans hstruck.edges, ?_, ?_⟩
  · intro id
    rw [isOpen_of_sameEnd hrows, hstruck.isOpen]
  · intro id ended hterminal
    rw [endedAs_of_sameEnd hrows id hterminal, hstruck.endedAs id ended hterminal]

theorem Struck.moves {status : NodeStatus} {ids : List String} (hshape : GraphShape middle)
    (hstruck : Struck status ids db middle) (hmoves : QuietMoves middle after) :
    Struck status ids db after := by
  have hframe : GraphFrame middle after := (hmoves.moves : GraphMoves id middle after).frame
  exact hstruck.sameEnd hframe.edges ((hmoves.rows_quiet hshape).imp fun _ _ => QuietRow.sameEnd)

/-- Nodes struck later were still open. -/
theorem Struck.append {status : NodeStatus} {first second : List String}
    (hfirst : Struck status first db middle) (hsecond : Struck status second middle after)
    (hopen : ∀ id ∈ second, IsOpen middle id) : Struck status (first ++ second) db after := by
  refine ⟨hsecond.edges.trans hfirst.edges, ?_, ?_⟩
  · intro id
    rw [hsecond.isOpen, hfirst.isOpen, dependsOn_congr hfirst.edges, List.mem_append,
      dependsOn_append]
    tauto
  · intro id ended hterminal
    have hlate : id ∈ second → id ∉ first ∧ ¬ DependsOn db id first := by
      intro hid
      exact ((hfirst.isOpen id).mp (hopen id hid)).2
    rw [hsecond.endedAs id ended hterminal, hfirst.endedAs id ended hterminal, hfirst.isOpen,
      dependsOn_congr hfirst.edges, List.mem_append, dependsOn_append]
    grind

/-- A node ends, its locks and its reservation go, and its dependents are blocked. -/
theorem close_strikes (floor : Int → Int) (hshape : GraphShape db) {row : NodeRow}
    (hrow : row ∈ db.nodes) (hopen : row.status.isTerminal = false) (status : NodeStatus)
    (hterminal : status.isTerminal = true) (nowMs : Int) :
    Struck status [row.nodeId] db (blockDependents floor (releaseParentBudget floor
      (deleteLocksOf (settleNode db row.nodeId status nowMs) row.nodeId) row nowMs)
      row.nodeId nowMs) := by
  have hsettled := settleNode_ends hshape hrow hopen status hterminal nowMs
  have hunlocked : EndsExactly status [row.nodeId] db
      (deleteLocksOf (settleNode db row.nodeId status nowMs) row.nodeId) :=
    hsettled.sameEnd rfl (List.forall₂_same.mpr fun row _ => (QuietRow.refl row).sameEnd)
  have hclosed := hunlocked.release floor row nowMs
  have hshape' := hshape.of_frame (close_moves floor hrow hopen status hterminal nowMs).frame
  have hblocked := blockDependents_ends floor hshape' row.nodeId nowMs
  refine ⟨hblocked.edges.trans hclosed.edges, ?_, ?_⟩
  · intro id
    rw [hblocked.isOpen, mem_openDependents_ids, hclosed.isOpen, dependsOn_congr hclosed.edges]
    tauto
  · intro id ended hended
    rw [hblocked.endedAs id ended hended, mem_openDependents_ids,
      hclosed.endedAs id ended hended, hclosed.isOpen, dependsOn_congr hclosed.edges]
    tauto

/-! ### New nodes -/

theorem suspendParent_sameEnd (hshape : GraphShape db) {parent : NodeRow}
    (hparent : parent ∈ db.nodes) (nowMs : Int) :
    List.Forall₂ SameEnd db.nodes (suspendParent db parent nowMs).nodes := by
  unfold suspendParent
  split
  · rename_i hidle
    refine Table.forall₂_update ?_ fun row _ _ => (QuietRow.refl row).sameEnd
    intro row hrow hid
    rw [hshape.node_eq hrow hparent (by simpa using hid)]
    have hopen : parent.status.isTerminal = false := by
      rcases hidle with h | h <;> rw [h] <;> rfl
    refine ⟨⟨rfl, rfl, rfl, rfl, rfl, rfl⟩, hopen.symm, ?_⟩
    intro hended
    rw [hopen] at hended
    cases hended
  · exact List.forall₂_same.mpr fun row _ => (QuietRow.refl row).sameEnd

/-- A new open node beside the nodes of `middle`. -/
theorem isOpen_append {node : NodeRow} (hnodes : after.nodes = middle.nodes ++ [node])
    (hopen : node.status.isTerminal = false) (id : String) :
    IsOpen after id ↔ IsOpen middle id ∨ id = node.nodeId := by
  simp only [IsOpen, hnodes, List.mem_append, List.mem_singleton]
  constructor
  · rintro ⟨row, hrow | rfl, hid, hstill⟩
    · exact .inl ⟨row, hrow, hid, hstill⟩
    · exact .inr hid.symm
  · rintro (⟨row, hrow, hid, hstill⟩ | hid)
    · exact ⟨row, .inl hrow, hid, hstill⟩
    · exact ⟨node, .inr rfl, hid.symm, hopen⟩

theorem endedAs_append {node : NodeRow} (hnodes : after.nodes = middle.nodes ++ [node])
    (hopen : node.status.isTerminal = false) (id : String) {status : NodeStatus}
    (hterminal : status.isTerminal = true) : EndedAs after id status ↔ EndedAs middle id status := by
  simp only [EndedAs, hnodes, List.mem_append, List.mem_singleton]
  constructor
  · rintro ⟨row, hrow | rfl, hid, hstatus⟩
    · exact ⟨row, hrow, hid, hstatus⟩
    · rw [hstatus, hterminal] at hopen
      cases hopen
  · rintro ⟨row, hrow, hid, hstatus⟩
    exact ⟨row, .inl hrow, hid, hstatus⟩

/-- The parents of the nodes once a node is inserted beside them. -/
theorem isParentOf_append {node : NodeRow} {rows : List NodeRow}
    (hrows : List.Forall₂ NodeRow.Same db.nodes rows) (hnodes : after.nodes = rows ++ [node])
    (parentId id : String) :
    IsParentOf after parentId id ↔
      IsParentOf db parentId id ∨ id = node.nodeId ∧ node.parentNodeId = some parentId := by
  simp only [IsParentOf, hnodes, List.mem_append, List.mem_singleton]
  constructor
  · rintro ⟨row, hrow | rfl, hid, hparent⟩
    · obtain ⟨old, hold, hsame⟩ := Table.Forall₂.of_mem_right hrows hrow
      exact .inl ⟨old, hold, hsame.nodeId.trans hid, hsame.parentNodeId.trans hparent⟩
    · exact .inr ⟨hid.symm, hparent⟩
  · rintro (⟨row, hrow, hid, hparent⟩ | ⟨hid, hparent⟩)
    · obtain ⟨moved, hmoved, hsame⟩ := Table.Forall₂.of_mem_left hrows hrow
      exact ⟨moved, .inl hmoved, hsame.nodeId.symm.trans hid, hsame.parentNodeId.symm.trans hparent⟩
    · exact ⟨node, .inr rfl, hid.symm, hparent⟩

section Spawned

variable {graphId parentNodeId nodeId : String} {spec : NodeSpec} {ready : Bool} {nowMs : Int}
  {graph : GraphRow} {parent : NodeRow} {reserved : List LedgerRow}

theorem AgentStore.Spawned.nodes
    (hspawned : Spawned db graphId parentNodeId spec ready nodeId nowMs after graph parent reserved) :
    ∃ node : NodeRow, node.nodeId = nodeId ∧ node.parentNodeId = some parentNodeId ∧
      node.graphId = graphId ∧ node.status.isTerminal = false ∧
      after.nodes = (suspendParent db parent nowMs).nodes ++ [node] := by
  refine ⟨_, rfl, rfl, rfl, ?_, by rw [hspawned.result]⟩
  simp only [newNode]
  split <;> rfl

theorem AgentStore.Spawned.isOpen (hshape : GraphShape db)
    (hspawned : Spawned db graphId parentNodeId spec ready nodeId nowMs after graph parent reserved)
    (id : String) : IsOpen after id ↔ IsOpen db id ∨ id = nodeId := by
  obtain ⟨node, rfl, _, _, hopen, hnodes⟩ := hspawned.nodes
  rw [isOpen_append hnodes hopen,
    isOpen_of_sameEnd (suspendParent_sameEnd hshape hspawned.parentMem nowMs)]

theorem AgentStore.Spawned.endedAs (hshape : GraphShape db)
    (hspawned : Spawned db graphId parentNodeId spec ready nodeId nowMs after graph parent reserved)
    (id : String) {status : NodeStatus} (hterminal : status.isTerminal = true) :
    EndedAs after id status ↔ EndedAs db id status := by
  obtain ⟨node, _, _, _, hopen, hnodes⟩ := hspawned.nodes
  rw [endedAs_append hnodes hopen id hterminal,
    endedAs_of_sameEnd (suspendParent_sameEnd hshape hspawned.parentMem nowMs) id hterminal]

theorem AgentStore.Spawned.isParentOf
    (hspawned : Spawned db graphId parentNodeId spec ready nodeId nowMs after graph parent reserved)
    (ancestor id : String) :
    IsParentOf after ancestor id ↔ IsParentOf db ancestor id ∨ id = nodeId ∧ ancestor = parentNodeId := by
  obtain ⟨node, rfl, hparent, _, _, hnodes⟩ := hspawned.nodes
  have hframe := (suspendParent_moves clampZero hspawned.parentMem nowMs).frame
  rw [isParentOf_append hframe.nodes hnodes, hparent, Option.some_inj]
  exact or_congr_right (and_congr_right fun _ => eq_comm)

end Spawned

/-! ### What a transaction strikes -/

theorem failNode_strikes (hshape : GraphShape db) {nodeId workerId : String} {nowMs : Int}
    {u : Unit} (hok : failNode floor nodeId workerId nowMs db = .ok (u, after)) :
    Struck .failed [nodeId] db after := by
  obtain ⟨node, howned, hdone⟩ := PyError.bind_eq_ok.mp hok
  obtain ⟨hnode, rfl, hrunning, _⟩ := ownedNode_ok howned
  cases hdone
  have hopen : node.status.isTerminal = false := by
    rw [hrunning]
    rfl
  have hclosed := close_moves floor hnode hopen .failed rfl nowMs
  have hshape' := hshape.of_frame hclosed.frame
  have hblocked := blockDependents_moves floor hshape' node.nodeId nowMs
  exact (close_strikes floor hshape hnode hopen .failed rfl nowMs).moves
    (hshape'.of_frame hblocked.frame) (wakeParent_moves _ nowMs)

theorem completeNode_ends (hshape : GraphShape db) {nodeId workerId artifactId : String}
    {draft : ArtifactDraft} {nowMs : Int} {artifact : Artifact}
    (hok : completeNode floor nodeId workerId draft artifactId nowMs db = .ok (artifact, after)) :
    EndsExactly .completed [nodeId] db after := by
  obtain ⟨node, howned, hdone⟩ := PyError.bind_eq_ok.mp hok
  obtain ⟨hnode, rfl, hrunning, _⟩ := ownedNode_ok howned
  split at hdone
  · cases hdone
  · cases hdone
    have hopen : node.status.isTerminal = false := by
      rw [hrunning]
      rfl
    let recorded := recordArtifact db (draftedArtifact node draft artifactId) nowMs
    have hrecorded : node ∈ recorded.nodes := hnode
    have hframe : GraphFrame db recorded := ⟨(GraphFrame.refl db).graphs, (GraphFrame.refl db).nodes,
      rfl, (GraphFrame.refl db).ledger⟩
    have hshape' := hshape.of_frame hframe
    have hsettled : EndsExactly .completed [node.nodeId] recorded _ :=
      settleNode_ends hshape' hrecorded hopen .completed rfl nowMs
    have hunlocked : EndsExactly .completed [node.nodeId] recorded
        (deleteLocksOf (settleNode recorded node.nodeId .completed nowMs) node.nodeId) :=
      hsettled.sameEnd rfl (List.forall₂_same.mpr fun row _ => (QuietRow.refl row).sameEnd)
    have hmoved := close_moves floor hrecorded hopen .completed rfl nowMs
    have hends := (hunlocked.release floor node nowMs).moves (hshape'.of_frame hmoved.frame)
      (wakeParent_moves node.parentNodeId nowMs)
    exact ⟨hends.edges, hends.isOpen, hends.endedAs⟩

/-- The nodes that the loop of `cancel_subtree` cancels: a node that ended before its
turn, be it blocked by one cancelled earlier, is skipped. -/
def struckIds (db : GraphDatabase) : List String → List String → List String
  | struck, [] => struck
  | struck, nodeId :: rest =>
      if IsOpen db nodeId ∧ nodeId ∉ struck ∧ ¬ DependsOn db nodeId struck then
        struckIds db (struck ++ [nodeId]) rest
      else struckIds db struck rest

theorem cancelNode_strikes (floor : Int → Int) (hshape : GraphShape db) (nodeId : String)
    (nowMs : Int) :
    Struck .cancelled (if IsOpen db nodeId then [nodeId] else []) db
      (cancelNode floor nowMs db nodeId) := by
  refine cancelNode_cases ?_ ?_
  · intro hskip
    have hclosed : ¬ IsOpen db nodeId := by
      rintro ⟨row, hrow, hid, hopen⟩
      have hended := hskip row hrow ((Table.find?_key_iff hshape.nodeIds).mpr ⟨hrow, hid⟩)
      rw [hopen] at hended
      cases hended
    rw [if_neg hclosed]
    exact .nil .cancelled db
  · intro row hrow hid hopen
    rw [if_pos ⟨row, hrow, hid, hopen⟩, ← hid]
    exact close_strikes floor hshape hrow hopen .cancelled rfl nowMs

/-- The loop, when `struck` has been cancelled so far. -/
theorem cancelNodes_strikes (floor : Int → Int) (hshape : GraphShape middle) {struck : List String}
    (hstruck : Struck .cancelled struck db middle) (ids : List String) (nowMs : Int) :
    Struck .cancelled (struckIds db struck ids) db (ids.foldl (cancelNode floor nowMs) middle) := by
  induction ids generalizing struck middle with
  | nil => exact hstruck
  | cons nodeId rest ih =>
      have hnext := cancelNode_strikes floor hshape nodeId nowMs
      have hshape' := hshape.of_frame (cancelNode_moves floor hshape nodeId nowMs).frame
      have happend := hstruck.append hnext (by
        intro id hid
        split at hid
        · rename_i hopen
          rwa [List.mem_singleton.mp hid]
        · cases hid)
      have hturn := hstruck.isOpen nodeId
      unfold struckIds
      split at happend
      · rename_i hopen
        rw [if_pos (hturn.mp hopen)]
        exact ih hshape' happend
      · rename_i hclosed
        rw [if_neg fun h => hclosed (hturn.mpr h)]
        rw [List.append_nil] at happend
        exact ih hshape' happend

theorem cancelSubtree_strikes (hshape : GraphShape db) {nodeId : String} {nowMs : Int}
    {ids : List String} (hok : cancelSubtree floor nodeId nowMs db = .ok (ids, after)) :
    Struck .cancelled (struckIds db [] (subtree db nodeId)) db after := by
  cases hok
  have hstruck := cancelNodes_strikes floor hshape (.nil .cancelled db) (subtree db nodeId) nowMs
  have hcancelled := hshape.of_frame (cancelNodes_moves floor hshape (subtree db nodeId) nowMs).frame
  let cancelled := (subtree db nodeId).foldl (cancelNode floor nowMs) db
  have hwaking : QuietMoves cancelled
      (wakeParents cancelled (outerParents cancelled (subtree db nodeId)) nowMs) :=
    wakeParents_moves _ nowMs
  have hwoken := hstruck.moves hcancelled hwaking
  have hframe := (hwaking.moves : GraphMoves floor _ _).frame
  exact hwoken.moves (hcancelled.of_frame hframe) (cancelGraphOf_moves nodeId nowMs)

end Codex2Lark
