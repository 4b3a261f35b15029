import Codex2Lark.Runtime.DelegationSteps

/-!
The root node among the delegations of its run. `lease_ready` selects any ready node of the
graph, and only an open child of the root keeps it from the root itself: the root waits for
its open children, and its own writes are granted again when the last of them has ended.
-/

namespace Codex2Lark

open Lib AgentStore

namespace Delegations

/-! ### What the root is kept from, and what it keeps -/

def isActive (s : Delegations) : Bool := s.db.graphs.any fun graph => graph.status = .active

/-- No execution is that of the root node. -/
def SparesRoot (root : RootGraph) (s : Delegations) : Prop :=
  ∀ worker ∈ s.workers, worker.node.nodeId ≠ root.rootNodeId

/-- `acquire_root_write_scope` lets the root pass to the locks. -/
def GrantsRootWrites (root : RootGraph) (s : Delegations) : Prop :=
  ∀ target nowMs leaseMs, 1 ≤ leaseMs → ∃ result,
    acquireRootWriteScope root.rootRunId root.tenantKey target nowMs leaseMs s.db = .ok result

def CallPhase.isLeasing : CallPhase → Bool
  | .leasing _ _ => true
  | _ => false

/-- A lease on the active graph is taken while some child of the root is open. -/
def leasesBesideChild (root : RootGraph) (s : Delegations) : DelegationLabel → Bool
  | .call i _ _ => (s.calls[i]?).all fun call =>
      !CallPhase.isLeasing call.phase || !s.isActive || hasOpenChild s.db root.rootNodeId
  | _ => true

/-! ### The status of the root -/

/-- The root waits for its open children, and is ready when it has none. -/
def RootStatus (rootNodeId : String) (db : GraphDatabase) : Prop :=
  ∀ row ∈ db.nodes, row.nodeId = rootNodeId →
    row.status = if hasOpenChild db rootNodeId then .waiting else .ready

/-- A ready root stays without open children: a new child would have made it wait. -/
theorem ready_root_childless {graphId rootNodeId : String} {floor : Int → Int} {db : GraphDatabase}
    (hstar : StarGraph graphId rootNodeId db) {op : GraphOp} (hop : op.IsStarOp graphId rootNodeId)
    (hnone : hasOpenChild db rootNodeId = false) {row : NodeRow}
    (hrow : row ∈ (op.apply floor db).nodes) (hroot : row.nodeId = rootNodeId)
    (hready : row.status = .ready) : hasOpenChild (op.apply floor db) rootNodeId = false := by
  by_cases hspawn : ∃ inGraph parentNodeId spec ready nodeId nowMs,
      op = .spawnChild inGraph parentNodeId spec ready nodeId nowMs
  · obtain ⟨inGraph, parentNodeId, spec, ready, nodeId, nowMs, rfl⟩ := hspawn
    obtain ⟨rfl, rfl, _⟩ := hop
    revert hrow
    refine GraphDatabase.transaction_rule (P := fun after => row ∈ after.nodes →
      hasOpenChild after parentNodeId = false) (fun _ => hnone) ?_
    intro child after hok hrow
    exact absurd hready (hstar.suspended_of_spawned hok hrow hroot)
  · cases hopen : hasOpenChild (op.apply floor db) rootNodeId with
    | false => rfl
    | true =>
        rw [hstar.hasOpenChild_back hop (fun _ _ _ _ _ _ heq => hspawn ⟨_, _, _, _, _, _, heq⟩)
          hopen] at hnone
        cases hnone

theorem RootStatus.apply {graphId rootNodeId : String} {floor : Int → Int} {db : GraphDatabase}
    (hstatus : RootStatus rootNodeId db) (hstar : StarGraph graphId rootNodeId db) {op : GraphOp}
    (hop : op.IsStarOp graphId rootNodeId) (hends : rootNodeId ∉ op.endedIds db)
    (hlease : ∀ graphId args, op = .leaseReady graphId args → hasOpenChild db rootNodeId = true) :
    RootStatus rootNodeId (op.apply floor db) := by
  intro row hrow hroot
  have hwait (hwaiting : row.status = .waiting) :
      row.status = if hasOpenChild (op.apply floor db) rootNodeId then .waiting else .ready := by
    rcases (hstar.apply hop).life.waits row hrow hwaiting with hopen | hexempt
    · rw [hroot] at hopen
      rw [if_pos hopen, hwaiting]
    · exact hexempt.elim
  cases hstar.moves hop row hrow with
  | moved old hold hsame hmove =>
      have hid : old.nodeId = rootNodeId := hsame.nodeId.trans hroot
      have hbefore := hstatus old hold hid
      cases hmove with
      | kept hkept =>
          cases hopen : hasOpenChild db rootNodeId with
          | true =>
              rw [hopen, if_pos rfl] at hbefore
              exact hwait (hkept.trans hbefore)
          | false =>
              rw [hopen, if_neg Bool.false_ne_true] at hbefore
              have hready := hkept.trans hbefore
              rw [ready_root_childless hstar hop hopen hrow hroot hready, hready]
              rfl
      | ended _ _ _ hended => exact absurd (hid ▸ hended) hends
      | woken _ hready hnone =>
          rw [hid] at hnone
          rw [hnone, hready]
          rfl
      | activated hcreated _ _ =>
          rw [hcreated] at hbefore
          split at hbefore <;> cases hbefore
      | queued hrunning _ _ =>
          rw [hrunning] at hbefore
          split at hbefore <;> cases hbefore
      | leased _ _ hnone hleased =>
          obtain ⟨inGraph, args, heq⟩ := hleased
          rw [hid, hlease inGraph args heq] at hnone
          cases hnone
  | suspended _ _ _ _ _ hwaiting => exact hwait hwaiting
  | spawned _ hchild _ _ => exact absurd hroot hchild

/-! ### The invariant of the runs whose leases find an open child -/

structure RootKept (root : RootGraph) (s : Delegations) : Prop where
  wired : Wired root s
  spares : SparesRoot root s
  status : s.isActive = true → RootStatus root.rootNodeId s.db

section Step

variable {coordinator : Coordinator} {root : RootGraph} {s t : Delegations}

theorem isActive_iff : s.isActive = true ↔ ∃ graph ∈ s.db.graphs, graph.status = .active := by
  simp [isActive]

/-- A graph that is active has been so before. -/
theorem Wired.isActive_back (hwired : Wired root s) {label : DelegationLabel}
    (hstep : Delegations.step coordinator s label = some t) (hactive : t.isActive = true) :
    s.isActive = true := by
  obtain ⟨graph, hgraph, hstatus⟩ := isActive_iff.mp hactive
  have hfollows : List.Forall₂ GraphRow.Follows s.db.graphs t.db.graphs := by
    rcases step_transacts hstep with (hsame | ⟨op, hop, hdb⟩) | ⟨locks, hdb⟩
    · rw [hsame]
      exact List.forall₂_same.mpr fun row _ => .refl row
    · rw [hdb]
      exact hwired.star.follows (hwired.isStarOp hop)
    · rw [hdb]
      exact List.forall₂_same.mpr fun row _ => .refl row
  obtain ⟨old, hold, hfollow⟩ := Table.Forall₂.of_mem_right hfollows hgraph
  exact isActive_iff.mpr ⟨old, hold, hfollow.2 hstatus⟩

/-- The only transaction that is to end the root is that of `finish`. -/
theorem RootKept.ends (hkept : RootKept root s) {label : DelegationLabel} {op : GraphOp}
    (hop : stepOp coordinator s label = some op) :
    root.rootNodeId ∉ op.endedIds s.db ∨ ∃ nowMs, op = .cancelSubtree root.rootNodeId nowMs := by
  cases label with
  | call i drawn targets =>
      obtain ⟨call, hcall, hcallOp⟩ := Option.bind_eq_some_iff.mp hop
      have hwithin := hkept.wired.calls call (List.mem_of_getElem? hcall)
      left
      unfold callOp at hcallOp
      split at hcallOp <;> cases hcallOp
      case h_4 graph child hphase =>
        rw [hphase] at hwithin
        exact hkept.wired.star.root_not_mem_subtree hwithin.2
      all_goals exact List.not_mem_nil
  | worker j drawn answer =>
      obtain ⟨worker, hworker, hworkerOp⟩ := Option.bind_eq_some_iff.mp hop
      have hspared := hkept.spares worker (List.mem_of_getElem? hworker)
      left
      unfold workerOp at hworkerOp
      split at hworkerOp <;> cases hworkerOp
      · exact List.not_mem_nil
      · exact fun hmem => hspared (List.mem_singleton.mp hmem).symm
      · exact fun hmem => hspared (List.mem_singleton.mp hmem).symm
      · exact List.not_mem_nil
  | finish rootRunId status nowMs =>
      simp only [stepOp, finishOp] at hop
      split at hop
      · cases hop
      · rename_i graph hgraph
        have hdescribes := hkept.wired.describes (Option.filter_eq_some_iff.mp hgraph).1
        split at hop
        · cases hop
          exact .inr ⟨nowMs, by rw [hdescribes.2.1]⟩
        · obtain ⟨published, _, rfl⟩ := Option.map_eq_some_iff.mp hop
          exact .inl List.not_mem_nil
  | request request context nowMs => cases hop
  | timeout i => cases hop
  | abort i => cases hop
  | locks locks => cases hop
  | crash => cases hop

/-- A lease is the transaction of a call that is at its lease. -/
theorem leases_of_stepOp {label : DelegationLabel} {graphId : String} {args : LeaseReady}
    (hop : stepOp coordinator s label = some (.leaseReady graphId args))
    (hguard : leasesBesideChild root s label = true) (hactive : s.isActive = true) :
    hasOpenChild s.db root.rootNodeId = true := by
  cases label with
  | call i drawn targets =>
      obtain ⟨call, hcall, hcallOp⟩ := Option.bind_eq_some_iff.mp hop
      have hleasing : CallPhase.isLeasing call.phase = true := by
        unfold callOp at hcallOp
        split at hcallOp <;> cases hcallOp
        rename_i hphase
        rw [hphase]
        rfl
      simpa [leasesBesideChild, hcall, hleasing, hactive] using hguard
  | worker j drawn answer =>
      obtain ⟨worker, _, hworkerOp⟩ := Option.bind_eq_some_iff.mp hop
      unfold workerOp at hworkerOp
      split at hworkerOp <;> cases hworkerOp
  | finish rootRunId status nowMs =>
      simp only [stepOp, finishOp] at hop
      split at hop
      · cases hop
      · split at hop
        · cases hop
        · obtain ⟨published, _, hother⟩ := Option.map_eq_some_iff.mp hop
          cases hother
  | request request context nowMs => cases hop
  | timeout i => cases hop
  | abort i => cases hop
  | locks locks => cases hop
  | crash => cases hop

theorem RootKept.status_step (hkept : RootKept root s) {label : DelegationLabel}
    (hguard : leasesBesideChild root s label = true)
    (hstep : Delegations.step coordinator s label = some t) (hactive : t.isActive = true) :
    RootStatus root.rootNodeId t.db := by
  have hbefore := hkept.wired.isActive_back hstep hactive
  have hstatus := hkept.status hbefore
  rcases step_transacts hstep with (hsame | ⟨op, hop, hdb⟩) | ⟨locks, hdb⟩
  · rw [hsame]
    exact hstatus
  · have hstar := hkept.wired.isStarOp hop
    rcases hkept.ends hop with hends | ⟨nowMs, rfl⟩
    · rw [hdb]
      refine hstatus.apply hkept.wired.star hstar hends ?_
      rintro graphId args rfl
      exact leases_of_stepOp hop hguard hbefore
    · obtain ⟨graph, hgraph, hstill⟩ := isActive_iff.mp hactive
      rw [hdb] at hgraph
      exact absurd hstill (hkept.wired.star.cancelled_root nowMs graph hgraph)
  · rw [hdb]
    exact hstatus

/-- The nodes that a guarded lease hands out are children. -/
theorem leased_children {i : Nat} {drawn : String}
    {targets : Except PyError (List ResourceTarget)} {call : CoordinatorCall} {outcome : CallOutcome}
    (hguard : leasesBesideChild root s (.call i drawn targets) = true)
    (hcall : s.calls[i]? = some call)
    (hstep : s.callStep coordinator i call drawn targets = some outcome) :
    ∀ node ∈ outcome.leased, node.nodeId ≠ root.rootNodeId := by
  intro node hnode hroot
  cases callStep_yields hstep with
  | nothing hleased _ =>
      rw [hleased] at hnode
      cases hnode
  | @leases graph child hphase hok hnext _ =>
      obtain ⟨⟨row, hrow, _, hstatus⟩, hnone, _⟩ := leaseReady_leased hok hnode
      have hactive : s.isActive = true := isActive_iff.mpr ⟨row, hrow, hstatus⟩
      have hop : stepOp coordinator s (.call i drawn targets) =
          some (.leaseReady graph.graphId (leaseArgs call graph)) := by
        simp [stepOp, hcall, callOp, hphase]
      rw [hroot, leases_of_stepOp hop hguard hactive] at hnone
      cases hnone
  | accepts _ _ hleased _ _ =>
      rw [hleased] at hnode
      cases hnode

theorem RootKept.step (hkept : RootKept root s) {label : DelegationLabel}
    (hguard : leasesBesideChild root s label = true)
    (hstep : Delegations.step coordinator s label = some t) : RootKept root t := by
  refine ⟨hkept.wired.step hstep, ?_, hkept.status_step hguard hstep⟩
  have hspares := hkept.spares
  cases label with
  | request request context nowMs =>
      cases hstep
      exact hspares
  | call i drawn targets =>
      obtain ⟨call, outcome, hcall, houtcome, rfl⟩ := step_call hstep
      intro worker hworker
      rcases List.mem_append.mp hworker with hold | hnew
      · exact hspares worker hold
      · obtain ⟨node, hnode, rfl⟩ := List.mem_map.mp hnew
        exact leased_children hguard hcall houtcome node hnode
  | timeout i =>
      obtain ⟨call, _, _, rfl⟩ := step_timeout hstep
      intro worker hworker
      exact hspares worker (by simpa [settleCall, withoutArtifact, goesOn] using hworker)
  | abort i =>
      obtain ⟨call, _, _, rfl⟩ := step_abort hstep
      intro worker hworker
      dsimp only at hworker
      split at hworker
      · obtain ⟨old, hold, rfl⟩ := List.mem_map.mp hworker
        split
        · rw [(abortWorker_keeps old).1]
          exact hspares old hold
        · exact hspares old hold
      · exact hspares worker hworker
  | worker j drawn answer =>
      obtain ⟨worker, db, moved, hworker, hmoved, rfl⟩ := step_worker hstep
      intro other hother
      rcases List.mem_or_eq_of_mem_set hother with hold | rfl
      · exact hspares other hold
      · rw [(workerStep_keeps hmoved).1]
        exact hspares worker (List.mem_of_getElem? hworker)
  | locks locks =>
      cases hstep
      exact hspares
  | finish rootRunId status nowMs =>
      cases hstep
      exact hspares
  | crash =>
      cases hstep
      intro worker hworker
      obtain ⟨old, hold, rfl⟩ := List.mem_map.mp hworker
      rw [(abortWorker_keeps old).1]
      exact hspares old hold

/-! ### Until `finish` -/

def isFinish : DelegationLabel → Bool
  | .finish _ _ _ => true
  | _ => false

theorem transaction_graphs {α : Type} {db : GraphDatabase}
    {operation : GraphDatabase → Except PyError (α × GraphDatabase)}
    (hdone : ∀ value after, operation db = .ok (value, after) → after.graphs = db.graphs) :
    (db.transaction operation).2.graphs = db.graphs :=
  GraphDatabase.transaction_rule (P := fun after => after.graphs = db.graphs) rfl hdone

theorem callStep_graphs (hwired : Wired root s) {i : Nat} {drawn : String}
    {targets : Except PyError (List ResourceTarget)} {call : CoordinatorCall} {outcome : CallOutcome}
    (hwithin : CallPhase.Within root call.phase)
    (hstep : s.callStep coordinator i call drawn targets = some outcome) :
    outcome.db.graphs = s.db.graphs := by
  rcases callStep_transacts hstep with hsame | ⟨op, hop, hdb⟩
  · rw [hsame]
  · rw [hdb]
    unfold callOp at hop
    split at hop <;> cases hop
    · refine transaction_graphs fun child after hok => ?_
      obtain ⟨graph, parent, reserved, hspawned⟩ := spawnChild_ok hok
      rw [hspawned.result]
    · refine transaction_graphs fun granted after hok => ?_
      have htaken := congrArg Prod.snd (acquireLock_ok hok).2
      dsimp only at htaken
      rw [← htaken, StarGraph.takeLock_graphs]
      rfl
    · rfl
    · rename_i hphase
      rw [hphase] at hwithin
      refine transaction_graphs fun ids after hok => ?_
      exact hwired.star.cancelSubtree_graphs hwithin.2 hok
    · refine transaction_graphs fun node after hok => ?_
      obtain ⟨rfl, _⟩ := activateNode_ok hok
      rfl
    · refine transaction_graphs fun leased after hok => ?_
      cases (leaseReady_ok hok).2 <;> rfl
    · refine transaction_graphs fun item after hok => ?_
      cases sendMail_ok hok <;> rfl

theorem workerStep_graphs (hwired : Wired root s) {worker moved : NodeWorker} {drawn : String}
    {answer : Except PyError NodeExecutionResult} {db : GraphDatabase}
    (hstep : workerStep s.db worker drawn answer = some (db, moved)) : db.graphs = s.db.graphs := by
  rcases workerStep_transacts hstep with hsame | ⟨op, hop, hdb⟩
  · rw [hsame]
  · rw [hdb]
    unfold workerOp at hop
    split at hop <;> cases hop
    · rfl
    · refine transaction_graphs fun u after hok => ?_
      exact hwired.star.failNode_graphs hok
    · refine transaction_graphs fun artifact after hok => ?_
      exact StarGraph.completeNode_graphs hok
    · refine transaction_graphs fun u after hok => ?_
      rw [(acknowledgeMail_ok hok).2]

/-- The graph is active until `finish` is called. -/
theorem Wired.isActive_step (hwired : Wired root s) {label : DelegationLabel}
    (hstep : Delegations.step coordinator s label = some t) (hfinish : isFinish label = false)
    (hactive : s.isActive = true) : t.isActive = true := by
  have hgraphs : t.db.graphs = s.db.graphs := by
    cases label with
    | request request context nowMs =>
        cases hstep
        rfl
    | call i drawn targets =>
        obtain ⟨call, outcome, hcall, houtcome, rfl⟩ := step_call hstep
        exact callStep_graphs hwired (hwired.calls call (List.mem_of_getElem? hcall)) houtcome
    | timeout i =>
        obtain ⟨call, _, _, rfl⟩ := step_timeout hstep
        rfl
    | abort i =>
        obtain ⟨call, _, _, rfl⟩ := step_abort hstep
        rfl
    | worker j drawn answer =>
        obtain ⟨worker, db, moved, _, hmoved, rfl⟩ := step_worker hstep
        exact workerStep_graphs hwired hmoved
    | locks locks =>
        cases hstep
        rfl
    | finish rootRunId status nowMs => cases hfinish
    | crash =>
        cases hstep
        rfl
  unfold isActive at hactive ⊢
  rwa [hgraphs]

end Step

/-! ### The root in a run -/

section Run

variable {coordinator : Coordinator} {root : RootGraph}

theorem RootKept.start (root : RootGraph) : RootKept root root.start := by
  refine ⟨.start root, ?_, ?_⟩
  · intro worker hworker
    cases hworker
  · intro _ row hrow hroot
    rw [root.start_db] at hrow ⊢
    rw [List.mem_singleton.mp hrow]
    simp [hasOpenChild, RootGraph.rootRow, newNode]

/-- What `acquire_root_write_scope` finds in a run. -/
theorem Wired.acquireRootWriteScope_eq {s : Delegations} (hwired : Wired root s)
    (hactive : s.isActive = true) (hrun : root.rootRunId ≠ "") (htenant : root.tenantKey ≠ "")
    (target : WriteScopeTarget) (nowMs : Int) {leaseMs : Int} (hlease : 1 ≤ leaseMs) :
    ∃ row ∈ s.db.nodes, row.nodeId = root.rootNodeId ∧
      ((∃ result, acquireRootWriteScope root.rootRunId root.tenantKey target nowMs leaseMs s.db =
        .ok result) ↔ grantsRootWrites row.status = true) := by
  obtain ⟨graph, hgraphs, hfollows⟩ := hwired.graphs_eq
  have hrunId : graph.rootRunId = root.rootRunId := hfollows.1.rootRunId.symm
  have htenantKey : graph.tenantKey = root.tenantKey := hfollows.1.tenantKey.symm
  have hrootId : graph.rootNodeId = root.rootNodeId := hfollows.1.rootNodeId.symm
  have hstatus : graph.status = .active := by
    obtain ⟨other, hother, hstill⟩ := isActive_iff.mp hactive
    rw [hgraphs, List.mem_singleton] at hother
    rwa [← hother]
  have hmem : graph ∈ s.db.graphs := by rw [hgraphs]; exact List.mem_singleton_self _
  obtain ⟨row, hrow, hid, _⟩ := hwired.star.life.shape.rootOf graph hmem
  have hfind : findNode s.db root.rootNodeId = some row := by
    have hsome : (findNode s.db root.rootNodeId).isSome = true :=
      List.find?_isSome.mpr ⟨row, hrow, by simpa [hrootId] using hid⟩
    obtain ⟨found, hfound⟩ := Option.isSome_iff_exists.mp hsome
    have hfoundId : found.nodeId = root.rootNodeId := by simpa using List.find?_some hfound
    rw [hfound, hwired.star.life.shape.node_eq (List.mem_of_find?_eq_some hfound) hrow
      (hfoundId.trans (hid.trans hrootId).symm)]
  refine ⟨row, hrow, hid.trans hrootId, ?_⟩
  have hvalid : ¬ (root.rootRunId = "" ∨ root.tenantKey = "" ∨ leaseMs < 1) := by
    rintro (h | h | h)
    · exact hrun h
    · exact htenant h
    · omega
  unfold acquireRootWriteScope
  rw [if_neg hvalid, hgraphs]
  simp only [List.find?_cons, hrunId, decide_true, hrootId, hfind, htenantKey, ne_eq,
    not_true_eq_false, if_false, hstatus, false_or]
  cases hgrants : grantsRootWrites row.status with
  | true => simp
  | false => simp

theorem RootKept.grants {s : Delegations} (hkept : RootKept root s) (hactive : s.isActive = true)
    (hrun : root.rootRunId ≠ "") (htenant : root.tenantKey ≠ "") :
    GrantsRootWrites root s ↔ hasOpenChild s.db root.rootNodeId = false := by
  have hstatus (target : WriteScopeTarget) (nowMs : Int) {leaseMs : Int} (hlease : 1 ≤ leaseMs) :
      (∃ result, acquireRootWriteScope root.rootRunId root.tenantKey target nowMs leaseMs s.db =
        .ok result) ↔ hasOpenChild s.db root.rootNodeId = false := by
    obtain ⟨row, hrow, hid, hiff⟩ :=
      hkept.wired.acquireRootWriteScope_eq hactive hrun htenant target nowMs hlease
    rw [hiff, hkept.status hactive row hrow hid]
    cases hasOpenChild s.db root.rootNodeId <;> decide
  constructor
  · intro hgrants
    exact (hstatus ⟨"", "", none⟩ 0 (le_refl 1)).mp (hgrants _ _ _ (le_refl 1))
  · intro hnone target nowMs leaseMs hlease
    exact (hstatus target nowMs hlease).mpr hnone

/-- In a run whose leases all find an open child, the root is never leased, and until
`finish` its own writes are granted exactly while it has no open child. -/
theorem root_spared (coordinator : Coordinator) (root : RootGraph) (ls : List DelegationLabel)
    (hguard : Along (step coordinator) (fun s l => leasesBesideChild root s l = true) ls root.start) :
    Always (step coordinator) (SparesRoot root) ls root.start ∧
      (root.rootRunId ≠ "" → root.tenantKey ≠ "" → (∀ l ∈ ls, isFinish l = false) →
        Always (step coordinator) (fun s => s.isActive = true ∧
          (GrantsRootWrites root s ↔ hasOpenChild s.db root.rootNodeId = false)) ls root.start) := by
  refine ⟨?_, ?_⟩
  · exact always_of_invariant (I := RootKept root) (fun s l t hkept hl hstep => hkept.step hl hstep)
      (fun s hkept => hkept.spares) (.start root) hguard
  · intro hrun htenant hfinish
    refine always_of_invariant (I := fun s => RootKept root s ∧ s.isActive = true)
      (C := fun s l => leasesBesideChild root s l = true ∧ isFinish l = false) ?_ ?_ ?_
      (hguard.and_mem hfinish)
    · rintro s l t ⟨hkept, hactive⟩ ⟨hl, hl'⟩ hstep
      exact ⟨hkept.step hl hstep, hkept.wired.isActive_step hstep hl' hactive⟩
    · rintro s ⟨hkept, hactive⟩
      exact ⟨hactive, hkept.grants hactive hrun htenant⟩
    · refine ⟨.start root, ?_⟩
      unfold isActive
      rw [root.start_db]
      rfl

end Run

/-! ### Runs -/

/-- Without child tools. -/
def plainCoordinator : Coordinator := ⟨⟨[], List.nodup_nil⟩, id⟩

def plainRoot : RootGraph where
  rootRunId := "run"
  tenantKey := "tenant"
  taskBrief := "brief"
  toolIds := []
  budgets := [("tool_calls", 40), ("external_writes", 8)]
  graphId := "graph"
  rootNodeId := "root"
  nowMs := 0

def plainContext : ToolContext :=
  ⟨"run", "/root", "tenant", "app", "actor", "session", "identity", 1, none, none, none, false, [],
    false, none⟩

/-- The call that delegates to a child of the name. -/
def delegates (name : String) : DelegationLabel :=
  .request (.delegate ⟨name, .researcher, "brief", "text", [], []⟩) plainContext 0

/-- The steps of the call `i`, one after the other; a spawned child is named by `drawn`. -/
def callSteps (i : Nat) (drawn : String) (n : Nat) : List DelegationLabel :=
  List.replicate n (.call i drawn (.ok []))

/-- The execution reads its mailbox, its worker answers, and the answer is recorded. -/
def workerSteps (j : Nat) (drawn : String) (answer : Except PyError NodeExecutionResult) :
    List DelegationLabel :=
  List.replicate 3 (.worker j drawn answer)

/-- A delegation whose child gives the answer. -/
def firstDelegation (answer : Except PyError NodeExecutionResult) : List DelegationLabel :=
  delegates "a" :: callSteps 0 "a" 7 ++ workerSteps 0 "artifact" answer ++ callSteps 0 "" 1

def textAnswer : NodeExecutionResult := ⟨⟨"text", [], [], .notRequired⟩, []⟩

theorem root_spared_once :
    Always (step plainCoordinator) (SparesRoot plainRoot) (firstDelegation (.ok textAnswer))
        plainRoot.start ∧
      Always (step plainCoordinator) (fun s => s.isActive = true ∧
        (GrantsRootWrites plainRoot s ↔ hasOpenChild s.db plainRoot.rootNodeId = false))
        (firstDelegation (.ok textAnswer)) plainRoot.start := by
  have hspared := root_spared plainCoordinator plainRoot (firstDelegation (.ok textAnswer))
    (along_of_check (fun _ _ hcheck => hcheck) (by decide +kernel))
  exact ⟨hspared.1, hspared.2 (by decide) (by decide) (by decide +kernel)⟩

/-- The second delegation names the failed child again: without an open child, its lease
takes the root. -/
def repeatedDelegation : List DelegationLabel :=
  firstDelegation (.error (.runtimeError "")) ++ delegates "a" :: callSteps 1 "" 7

/-- A test that the root could make. -/
theorem GrantsRootWrites.passes {root : RootGraph} {s : Delegations}
    (hgrants : s.isActive = true → GrantsRootWrites root s) :
    (!s.isActive || (acquireRootWriteScope root.rootRunId root.tenantKey ⟨"docx", "handbook", none⟩ 0 1
      s.db).isOk) = true := by
  cases hactive : s.isActive with
  | false => rfl
  | true =>
      obtain ⟨result, hok⟩ := hgrants hactive ⟨"docx", "handbook", none⟩ 0 1 (le_refl 1)
      rw [hok]
      rfl

/-- The second delegation leases the root. In the first one, already, the root waits for the
open child, and its writes are refused. -/
theorem root_leased_and_refused :
    ¬ Always (step plainCoordinator) (SparesRoot plainRoot) repeatedDelegation plainRoot.start ∧
      ¬ Always (step plainCoordinator) (fun s => s.isActive = true → GrantsRootWrites plainRoot s)
        (delegates "a" :: callSteps 0 "a" 4) plainRoot.start := by
  have hcheck (s : Delegations) (hspares : SparesRoot plainRoot s) :
      (s.workers.all fun worker => decide (worker.node.nodeId ≠ plainRoot.rootNodeId)) = true := by
    simpa [SparesRoot] using hspares
  refine ⟨?_, ?_⟩
  · exact not_always_of_check hcheck (by decide +kernel)
  · exact not_always_of_check (fun _ => GrantsRootWrites.passes) (by decide +kernel)

end Delegations

end Codex2Lark
