import Codex2Lark.Runtime.RootLease

/-!
The slots of a graph among overlapping delegations. Each call leases once, for all of them,
and then waits for its own child; a slot that frees later is filled only by a call that has
yet to come to its lease.
-/

namespace Codex2Lark

open Lib AgentStore

namespace Delegations

/-! ### The calls that have yet to lease -/

/-- A delegation before its `execute_ready`. -/
def CallPhase.isAhead : CallPhase → Bool
  | .started (.delegate _) | .entering _ (.delegate _) | .findingArtifact _ _ _ | .resolving _ _ _
  | .spawning _ _ _ | .locking _ _ _ _ | .releasing _ _ | .cancelling _ _ | .activating _ _
  | .atBarrier _ _ | .listingArtifacts _ _ | .leasing _ _ => true
  | _ => false

def CallPhase.isPolling : CallPhase → Bool
  | .pollingArtifact _ _ | .pollingNode _ _ => true
  | _ => false

theorem CallPhase.not_ahead {phase : CallPhase} (hpolling : CallPhase.isPolling phase = true) :
    CallPhase.isAhead phase = false := by
  cases phase with
  | pollingArtifact graph child => rfl
  | pollingNode graph child => rfl
  | _ => cases hpolling

/-- A delegation that has neither returned nor raised. -/
def CallPhase.isDelegating (phase : CallPhase) : Bool :=
  CallPhase.isAhead phase || CallPhase.isExecuting phase || CallPhase.isPolling phase

def someAhead (s : Delegations) : Bool := s.calls.any fun call => CallPhase.isAhead call.phase

/-- The statuses that a lease takes. -/
def awaitsLease (status : NodeStatus) : Bool := status = .ready || status = .interrupted

/-- No child is leasable beside a free slot while every delegation under way only polls. -/
def NotStranded (root : RootGraph) (s : Delegations) : Prop :=
  s.isActive = true → (∀ call ∈ s.calls, CallPhase.isDelegating call.phase = true →
      CallPhase.isPolling call.phase = true) →
    runningCount s.db root.graphId < root.limits.maxConcurrency →
    ∀ row ∈ s.db.nodes, row.nodeId ≠ root.rootNodeId →
      ∀ nowMs, isLeasable s.db root.graphId nowMs row = false

/-- A child that awaits its lease has a delegation that is to lease it. -/
def LeaseAhead (root : RootGraph) (s : Delegations) : Prop :=
  s.isActive = true → ∀ row ∈ s.db.nodes, row.nodeId ≠ root.rootNodeId →
    awaitsLease row.status = true → s.someAhead = true

/-! ### The guard -/

/-- With its expired leases reset, the graph has a slot for every leasable node. -/
def slotsSuffice (root : RootGraph) (nowMs : Int) (db : GraphDatabase) : Bool :=
  let db := purgeLocks (expireLeases db root.graphId nowMs) nowMs
  runningCount db root.graphId + db.nodes.countP (isLeasable db root.graphId nowMs) ≤
    root.limits.maxConcurrency

def callAt (s : Delegations) : DelegationLabel → Option CoordinatorCall
  | .call i _ _ => s.calls[i]?
  | _ => none

/-- No child awaits a lease but one that the call cancels. -/
def noneAwaits (root : RootGraph) (s : Delegations) (label : DelegationLabel) : Bool :=
  s.db.nodes.all fun row => row.nodeId = root.rootNodeId || !awaitsLease row.status ||
    match (s.callAt label).map CoordinatorCall.phase with
    | some (.cancelling _ child) => row.nodeId = child.nodeId
    | _ => false

/-- When the last delegation that has yet to lease comes to its lease, the free slots are
enough; when it ends before, no child is left to lease. -/
def leavesNone (coordinator : Coordinator) (root : RootGraph) (s : Delegations)
    (label : DelegationLabel) : Bool :=
  !s.isActive || !s.someAhead || (step coordinator s label).all fun t => t.someAhead ||
    match s.callAt label with
    | some ⟨_, nowMs, .leasing _ _⟩ => slotsSuffice root nowMs s.db
    | _ => noneAwaits root s label

/-! ### A lease with enough slots -/

section Lease

variable {graphId rootNodeId : String} {db after : GraphDatabase}

/-- Every child that awaits its lease is leasable. -/
theorem leasable_of_awaits (hstar : StarGraph graphId rootNodeId db) {row : NodeRow} {nowMs : Int}
    (hrow : row ∈ (purgeLocks (expireLeases db graphId nowMs) nowMs).nodes)
    (hchild : row.nodeId ≠ rootNodeId) (hawaits : awaitsLease row.status = true) :
    isLeasable (purgeLocks (expireLeases db graphId nowMs) nowMs) graphId nowMs row = true := by
  have hmoves : GraphMoves id db (expireLeases db graphId nowMs) :=
    QuietMoves.moves (expireLeases_moves graphId nowMs)
  obtain ⟨old, hold, hsame⟩ := Table.Forall₂.of_mem_right hmoves.frame.nodes hrow
  obtain ⟨hgraph, hdeadline, _⟩ := hstar.rows old hold
  rw [hsame.graphId] at hgraph
  rw [hsame.spec] at hdeadline
  have hnone : hasOpenChild (purgeLocks (expireLeases db graphId nowMs) nowMs) row.nodeId = false :=
    (expireLeases_hasOpenChild graphId nowMs row.nodeId).trans (hstar.childless hchild)
  have hedges : (purgeLocks (expireLeases db graphId nowMs) nowMs).edges = [] := hstar.edges
  unfold isLeasable
  rw [hgraph, hdeadline, hnone, hedges]
  simpa [awaitsLease] using hawaits

theorem leaseReady_takes_all (hstar : StarGraph graphId rootNodeId db) {graph : GraphRow}
    (hgraphs : db.graphs = [graph]) (hactive : graph.status = .active) {args : LeaseReady}
    (hlimit : args.limit = graph.limits.maxConcurrency)
    (hfits : runningCount (purgeLocks (expireLeases db graphId args.nowMs) args.nowMs) graphId +
      (purgeLocks (expireLeases db graphId args.nowMs) args.nowMs).nodes.countP
        (isLeasable (purgeLocks (expireLeases db graphId args.nowMs) args.nowMs) graphId args.nowMs) ≤
      graph.limits.maxConcurrency) {leased : List AgentNode}
    (hok : leaseReady graphId args db = .ok (leased, after)) :
    ∀ row ∈ after.nodes, row.nodeId ≠ rootNodeId → awaitsLease row.status = false := by
  intro row hrow hchild
  have hid : graph.graphId = graphId :=
    (hstar.graphs graph (by rw [hgraphs]; exact List.mem_singleton_self _)).1
  have hfind : (findGraph db graphId).filter (fun graph => decide (graph.status = .active)) =
      some graph := by
    rw [findGraph, hgraphs]
    simp [hid, hactive]
  cases (leaseReady_ok hok).2 with
  | inactive hnone =>
    rw [hfind] at hnone
    cases hnone
  | selected hgraph =>
    rw [hfind] at hgraph
    cases hgraph
    rcases Table.mem_update_cases hrow with ⟨hkept, hother⟩ | ⟨old, _, _, rfl⟩
    · cases hawaits : awaitsLease row.status with
      | false => rfl
      | true =>
          have hleasable := leasable_of_awaits hstar hkept hchild hawaits
          have hselected : row ∈ leaseSelection graph args
              (purgeLocks (expireLeases db graphId args.nowMs) args.nowMs) := by
            unfold leaseSelection
            rw [hid, hlimit, List.take_of_length_le]
            · rw [List.mem_insertionSort, List.mem_filter]
              exact ⟨hkept, hleasable⟩
            · rw [List.length_insertionSort, ← List.countP_eq_length_filter]
              omega
          have hany : ((leaseSelection graph args
              (purgeLocks (expireLeases db graphId args.nowMs) args.nowMs)).any
                fun leased => leased.nodeId = row.nodeId) = true :=
            List.any_eq_true.mpr ⟨row, hselected, by simp⟩
          rw [hany] at hother
          cases hother
    · rfl

end Lease

/-! ### A step by which no delegation is left to lease -/

section Step

variable {coordinator : Coordinator} {root : RootGraph} {s t : Delegations} {i : Nat}
  {call : CoordinatorCall} {drawn : String} {targets : Except PyError (List ResourceTarget)}
  {outcome : CallOutcome}

/-- A new child is still to be leased by the call that has spawned it. -/
theorem spawningStep_ahead (graph : GraphRecord) (arguments : DelegateArguments)
    (resolved : List ResourceTarget) :
    CallPhase.isAhead (s.spawningStep i call graph arguments resolved drawn).phase = true ∨
      (s.spawningStep i call graph arguments resolved drawn).db = s.db := by
  unfold spawningStep
  split
  · rename_i e db hspawn
    exact .inr (transaction_error hspawn)
  · left
    cases resolved <;> rfl

theorem activatingStep_ahead (graph : GraphRecord) (child : AgentNode) :
    CallPhase.isAhead (s.activatingStep i call graph child).phase = true ∨
      (s.activatingStep i call graph child).db = s.db := by
  unfold activatingStep
  split
  · rename_i e db hactivate
    exact .inr (transaction_error hactivate)
  · exact .inl rfl

/-- The other transactions make no child await a lease. -/
theorem awaits_back (hwired : Wired root s) {op : GraphOp}
    (hop : op.IsStarOp root.graphId root.rootNodeId)
    (hspawn : ∀ graphId parentNodeId spec ready nodeId nowMs,
      op ≠ .spawnChild graphId parentNodeId spec ready nodeId nowMs)
    (hactivate : ∀ nodeId nowMs, op ≠ .activateNode nodeId nowMs)
    (hlease : ∀ graphId args, op ≠ .leaseReady graphId args) {row : NodeRow}
    (hrow : row ∈ (op.apply clampZero s.db).nodes) (hchild : row.nodeId ≠ root.rootNodeId)
    (hawaits : awaitsLease row.status = true) :
    ∃ old ∈ s.db.nodes, old.nodeId = row.nodeId ∧ awaitsLease old.status = true := by
  cases hwired.star.moves hop row hrow with
  | moved old hold hsame hmove =>
      have hchild' : old.nodeId ≠ root.rootNodeId := hsame.nodeId ▸ hchild
      refine ⟨old, hold, hsame.nodeId, ?_⟩
      cases hmove with
      | kept hkept => rwa [← hkept]
      | ended _ hterminal _ _ =>
          simp only [awaitsLease, Bool.or_eq_true, decide_eq_true_eq] at hawaits
          rcases hawaits with h | h <;> rw [h] at hterminal <;> cases hterminal
      | woken hwaiting _ _ => exact absurd hwaiting (hwired.star.not_waiting hold hchild')
      | activated _ _ hop =>
          obtain ⟨nowMs, rfl⟩ := hop
          exact absurd rfl (hactivate _ _)
      | queued _ _ hop =>
          obtain ⟨graphId, args, rfl⟩ := hop
          exact absurd rfl (hlease _ _)
      | leased _ _ _ hop =>
          obtain ⟨graphId, args, rfl⟩ := hop
          exact absurd rfl (hlease _ _)
  | suspended _ _ _ hroot _ _ => exact absurd hroot hchild
  | spawned _ _ _ hop =>
      obtain ⟨graphId, spec, ready, nowMs, rfl⟩ := hop
      exact absurd rfl (hspawn _ _ _ _ _ _)

theorem mem_subtree_self {db : GraphDatabase} {row : NodeRow} (hrow : row ∈ db.nodes) :
    row.nodeId ∈ subtree db row.nodeId := by
  have hsome : (findNode db row.nodeId).isSome = true :=
    List.find?_isSome.mpr ⟨row, hrow, by simp⟩
  obtain ⟨found, hfound⟩ := Option.isSome_iff_exists.mp hsome
  have hid : found.nodeId = row.nodeId := by simpa using List.find?_some hfound
  obtain ⟨generations, hlength⟩ : ∃ generations, db.nodes.length = generations + 1 :=
    ⟨db.nodes.length - 1, by have := List.length_pos_of_mem hrow; omega⟩
  rw [subtree, hlength, hfound, descendants]
  exact List.mem_append_left _ (by simp [hid])

/-- The child of a call that gives up is ended. -/
theorem cancelled_ended (hwired : Wired root s) {nowMs : Int} {row : NodeRow} {nodeId : String}
    (hrow : row ∈ (GraphOp.apply clampZero (.cancelSubtree nodeId nowMs) s.db).nodes)
    (hid : row.nodeId = nodeId) : awaitsLease row.status = false := by
  have hshape := hwired.star.life.shape
  have hok : cancelSubtree clampZero nodeId nowMs s.db = .ok (subtree s.db nodeId,
      GraphOp.apply clampZero (.cancelSubtree nodeId nowMs) s.db) := rfl
  obtain ⟨old, hold, hsame⟩ :=
    Table.Forall₂.of_mem_right (cancelSubtree_moves hshape hok).frame.nodes hrow
  have hmem : nodeId ∈ subtree s.db nodeId := by
    rw [← hid, ← hsame.nodeId]
    exact mem_subtree_self hold
  have hended := cancelSubtree_ended hshape hok nodeId hmem row hrow hid
  cases hstatus : row.status <;> rw [hstatus] at hended <;> first | rfl | cases hended

theorem someAhead_iff : s.someAhead = true ↔ ∃ call ∈ s.calls, CallPhase.isAhead call.phase = true := by
  simp [someAhead]

theorem someAhead_of_call (hcall : s.calls[i]? = some call)
    (hahead : CallPhase.isAhead call.phase = true) : s.someAhead = true :=
  someAhead_iff.mpr ⟨call, List.mem_of_getElem? hcall, hahead⟩

theorem someAhead_settled (hcall : s.calls[i]? = some call)
    (hahead : CallPhase.isAhead outcome.phase = true) :
    (s.settleCall i call outcome).someAhead = true := by
  refine someAhead_iff.mpr ⟨{ call with phase := outcome.phase }, ?_, hahead⟩
  have hlt := (List.getElem?_eq_some_iff.mp hcall).1
  exact List.mem_set hlt _

/-- What the guard says of a step after which no delegation is left to lease. -/
theorem leavesNone_last {label : DelegationLabel} (hguard : leavesNone coordinator root s label = true)
    (hactive : s.isActive = true) (hahead : s.someAhead = true)
    (hstep : step coordinator s label = some t) (hlast : t.someAhead = false) :
    (match s.callAt label with
    | some ⟨_, nowMs, .leasing _ _⟩ => slotsSuffice root nowMs s.db
    | _ => noneAwaits root s label) = true := by
  simpa [leavesNone, hactive, hahead, hstep, hlast] using hguard

/-- A transaction of a call that neither creates nor leases. -/
theorem awaits_of_call (hwired : Wired root s) (hcall : s.calls[i]? = some call)
    (hstep : s.callStep coordinator i call drawn targets = some outcome)
    (hlast : CallPhase.isAhead outcome.phase = false)
    (hleasing : ∀ graph child, call.phase ≠ .leasing graph child) {row : NodeRow}
    (hrow : row ∈ outcome.db.nodes) (hchild : row.nodeId ≠ root.rootNodeId)
    (hawaits : awaitsLease row.status = true) :
    ∃ old ∈ s.db.nodes, old.nodeId = row.nodeId ∧ awaitsLease old.status = true := by
  rcases callStep_transacts hstep with hsame | ⟨op, hop, hdb⟩
  · rw [hsame] at hrow
    exact ⟨row, hrow, rfl, hawaits⟩
  · have hstepOp : stepOp coordinator s (.call i drawn targets) = some op := by
      rw [stepOp, hcall]
      exact hop
    rw [hdb] at hrow
    have hsame (hdb' : outcome.db = s.db) :
        ∃ old ∈ s.db.nodes, old.nodeId = row.nodeId ∧ awaitsLease old.status = true := by
      rw [← hdb, hdb'] at hrow
      exact ⟨row, hrow, rfl, hawaits⟩
    by_cases hspawn : ∃ graph arguments resolved, call.phase = .spawning graph arguments resolved
    · obtain ⟨graph, arguments, resolved, hphase⟩ := hspawn
      simp only [callStep, hphase, Option.some.injEq] at hstep
      subst hstep
      rcases spawningStep_ahead graph arguments resolved with hahead | hdb'
      · rw [hahead] at hlast
        cases hlast
      · exact hsame hdb'
    · by_cases hactivate : ∃ graph child, call.phase = .activating graph child
      · obtain ⟨graph, child, hphase⟩ := hactivate
        simp only [callStep, hphase, Option.some.injEq] at hstep
        subst hstep
        rcases activatingStep_ahead graph child with hahead | hdb'
        · rw [hahead] at hlast
          cases hlast
        · exact hsame hdb'
      · refine awaits_back hwired (hwired.isStarOp hstepOp) ?_ ?_ ?_ hrow hchild hawaits
        · rintro graphId parentNodeId spec ready nodeId nowMs rfl
          unfold callOp at hop
          split at hop <;> cases hop
          exact hspawn ⟨_, _, _, ‹_›⟩
        · rintro nodeId nowMs rfl
          unfold callOp at hop
          split at hop <;> cases hop
          exact hactivate ⟨_, _, ‹_›⟩
        · rintro graphId args rfl
          unfold callOp at hop
          split at hop <;> cases hop
          exact hleasing _ _ ‹_›

/-- A call that comes to its lease, with enough slots, leaves no child to lease. -/
theorem none_awaits_leased (hwired : Wired root s) (hcall : s.calls[i]? = some call)
    (hactive : s.isActive = true) {graph : GraphRecord} {child : AgentNode}
    (hphase : call.phase = .leasing graph child)
    (hfits : slotsSuffice root call.nowMs s.db = true) :
    ∀ row ∈ (s.leasingStep call graph child).db.nodes, row.nodeId ≠ root.rootNodeId →
      awaitsLease row.status = false := by
  have hwithin := hwired.calls call (List.mem_of_getElem? hcall)
  rw [hphase] at hwithin
  obtain ⟨⟨hid, _, hlimits⟩, _⟩ := hwithin
  obtain ⟨only, hgraphs, hfollows⟩ := hwired.graphs_eq
  have honly : only.limits = root.limits := hfollows.1.limits.symm
  have hstatus : only.status = .active := by
    obtain ⟨other, hother, hstill⟩ := isActive_iff.mp hactive
    rw [hgraphs, List.mem_singleton] at hother
    rwa [← hother]
  have hargs : ¬ ((leaseArgs call graph).leaseMs < 1 ∨ (leaseArgs call graph).limit < 1 ∨
      (leaseArgs call graph).workerId = "") := by
    have hpositive := graph.limits.maxConcurrency_pos
    rintro (h | h | h)
    · exact absurd h (show ¬ ((300000 : Int) < 1) by decide)
    · have hlimit : graph.limits.maxConcurrency < 1 := h
      omega
    · have hlength := congrArg String.length h
      simp [leaseArgs] at hlength
  have hok : ∃ leased after, leaseReady graph.graphId (leaseArgs call graph) s.db =
      .ok (leased, after) := by
    unfold leaseReady
    rw [if_neg hargs]
    dsimp only
    split
    · exact ⟨_, _, rfl⟩
    · exact ⟨_, _, rfl⟩
  obtain ⟨leased, after, hok⟩ := hok
  have hdb : (s.leasingStep call graph child).db = after := by
    rw [leasingStep_db]
    simp [GraphOp.apply, GraphDatabase.transaction, hok]
  rw [hdb]
  rw [hid] at hok
  refine leaseReady_takes_all hwired.star hgraphs hstatus ?_ ?_ hok
  · rw [honly, ← hlimits]
    rfl
  · rw [honly]
    exact of_decide_eq_true hfits

/-- An execution and `finish` make no child await a lease. -/
theorem awaits_of_other (hwired : Wired root s) {label : DelegationLabel}
    (hstep : Delegations.step coordinator s label = some t) (hcall : ∀ i drawn targets,
      label ≠ .call i drawn targets) {row : NodeRow} (hrow : row ∈ t.db.nodes)
    (hchild : row.nodeId ≠ root.rootNodeId) (hawaits : awaitsLease row.status = true) :
    ∃ old ∈ s.db.nodes, old.nodeId ≠ root.rootNodeId ∧ awaitsLease old.status = true := by
  rcases step_transacts hstep with (hsame | ⟨op, hop, hdb⟩) | ⟨locks, hdb⟩
  · rw [hsame] at hrow
    exact ⟨row, hrow, hchild, hawaits⟩
  · have hstar := hwired.isStarOp hop
    rw [hdb] at hrow
    have hother : (∀ graphId parentNodeId spec ready nodeId nowMs,
        op ≠ .spawnChild graphId parentNodeId spec ready nodeId nowMs) ∧
        (∀ nodeId nowMs, op ≠ .activateNode nodeId nowMs) ∧
        ∀ graphId args, op ≠ .leaseReady graphId args := by
      cases label with
      | call i drawn targets => exact absurd rfl (hcall _ _ _)
      | worker j drawn answer =>
          obtain ⟨worker, _, hworkerOp⟩ := Option.bind_eq_some_iff.mp hop
          unfold workerOp at hworkerOp
          split at hworkerOp <;> cases hworkerOp <;> refine ⟨?_, ?_, ?_⟩ <;> intros <;> rintro ⟨⟩
      | finish rootRunId status nowMs =>
          simp only [stepOp, finishOp] at hop
          split at hop
          · cases hop
          · split at hop
            · cases hop
              refine ⟨?_, ?_, ?_⟩ <;> intros <;> rintro ⟨⟩
            · obtain ⟨published, _, rfl⟩ := Option.map_eq_some_iff.mp hop
              refine ⟨?_, ?_, ?_⟩ <;> intros <;> rintro ⟨⟩
      | request request context nowMs => cases hop
      | timeout i => cases hop
      | abort i => cases hop
      | locks locks => cases hop
      | crash => cases hop
    obtain ⟨old, hold, hid, holdAwaits⟩ :=
      awaits_back hwired hstar hother.1 hother.2.1 hother.2.2 hrow hchild hawaits
    exact ⟨old, hold, hid ▸ hchild, holdAwaits⟩
  · rw [hdb] at hrow
    exact ⟨row, hrow, hchild, hawaits⟩

theorem LeaseAhead.step (hwired : Wired root s) (hahead : LeaseAhead root s) {label : DelegationLabel}
    (hguard : leavesNone coordinator root s label = true)
    (hstep : Delegations.step coordinator s label = some t) : LeaseAhead root t := by
  intro hactive row hrow hchild hawaits
  have hbefore := hwired.isActive_back hstep hactive
  cases hlast : t.someAhead with
  | true => rfl
  | false =>
      exfalso
      -- Without a step of a call, the child has awaited its lease before, and it may not.
      have hquiet (hcall : ∀ i drawn targets, label ≠ .call i drawn targets) : False := by
        obtain ⟨old, hold, hid, holdAwaits⟩ := awaits_of_other hwired hstep hcall hrow hchild hawaits
        have hsome := hahead hbefore old hold hid holdAwaits
        have hnone := leavesNone_last hguard hbefore hsome hstep hlast
        have hcallAt : s.callAt label = none := by
          cases label with
          | call i drawn targets => exact absurd rfl (hcall _ _ _)
          | _ => rfl
        rw [hcallAt] at hnone
        have holdRow := List.all_eq_true.mp hnone old hold
        simp [hcallAt, hid, holdAwaits] at holdRow
      cases label with
      | request request context nowMs => exact hquiet nofun
      | call i drawn targets =>
          obtain ⟨call, outcome, hcall, houtcome, rfl⟩ := step_call hstep
          have houtcomeLast : CallPhase.isAhead outcome.phase = false := by
            cases hphase : CallPhase.isAhead outcome.phase with
            | false => rfl
            | true =>
                rw [someAhead_settled hcall hphase] at hlast
                cases hlast
          by_cases hleasing : ∃ graph child, call.phase = .leasing graph child
          · obtain ⟨graph, child, hphase⟩ := hleasing
            have hsome := someAhead_of_call hcall (by rw [hphase]; rfl)
            have hfits := leavesNone_last hguard hbefore hsome hstep hlast
            obtain ⟨context, nowMs, phase⟩ := call
            cases hphase
            simp only [callAt, hcall] at hfits
            simp only [callStep, Option.some.injEq] at houtcome
            subst houtcome
            have hnone := none_awaits_leased hwired hcall hbefore rfl hfits row hrow hchild
            rw [hnone] at hawaits
            cases hawaits
          · have hother : ∀ graph child, call.phase ≠ .leasing graph child :=
              fun graph child heq => hleasing ⟨graph, child, heq⟩
            obtain ⟨old, hold, hid, holdAwaits⟩ :=
              awaits_of_call hwired hcall houtcome houtcomeLast hother hrow hchild hawaits
            have hsome := hahead hbefore old hold (hid ▸ hchild) holdAwaits
            have hnone := leavesNone_last hguard hbefore hsome hstep hlast
            have hnone : noneAwaits root s (.call i drawn targets) = true := by
              obtain ⟨context, nowMs, phase⟩ := call
              cases phase <;> simp only [callAt, hcall] at hnone <;> first
                | exact hnone
                | exact absurd rfl (hother _ _)
            have holdRow := List.all_eq_true.mp hnone old hold
            have hid' : old.nodeId ≠ root.rootNodeId := hid ▸ hchild
            simp only [callAt, hcall, Option.map_some, hid', holdAwaits, decide_false,
              Bool.not_true, Bool.false_or, Bool.or_false] at holdRow
            split at holdRow
            · rename_i graph cancelled hphase
              have hphase : call.phase = .cancelling graph cancelled := by simpa using hphase
              have hcancelled : old.nodeId = cancelled.nodeId := by simpa using holdRow
              simp only [callStep, hphase, Option.some.injEq] at houtcome
              subst houtcome
              rw [cancelled_ended hwired hrow (hid.symm.trans hcancelled)] at hawaits
              cases hawaits
            · cases holdRow
      | timeout i => exact hquiet nofun
      | abort i => exact hquiet nofun
      | worker j drawn answer => exact hquiet nofun
      | locks locks => exact hquiet nofun
      | finish rootRunId status nowMs => exact hquiet nofun
      | crash => exact hquiet nofun

end Step

/-! ### The slots in a run -/

section Run

variable {coordinator : Coordinator} {root : RootGraph}

theorem LeaseAhead.notStranded {s : Delegations} (hahead : LeaseAhead root s) :
    NotStranded root s := by
  intro hactive hpolling _ row hrow hchild nowMs
  cases hleasable : isLeasable s.db root.graphId nowMs row with
  | false => rfl
  | true =>
      have hawaits : awaitsLease row.status = true := by
        simpa [awaitsLease] using (isLeasable_status hleasable).2
      obtain ⟨call, hcall, hphase⟩ := someAhead_iff.mp (hahead hactive row hrow hchild hawaits)
      have hdelegating : CallPhase.isDelegating call.phase = true := by
        simp [CallPhase.isDelegating, hphase]
      rw [CallPhase.not_ahead (hpolling call hcall hdelegating)] at hphase
      cases hphase

/-- As long as the last delegation that has yet to lease finds slots for all of the leasable
nodes, or leaves no child to lease, every child that awaits its lease has a delegation that
is still to lease it, so none is stranded among delegations that only poll. -/
theorem slots_not_lost (coordinator : Coordinator) (root : RootGraph) (ls : List DelegationLabel)
    (hguard : Along (step coordinator)
      (fun s l => leavesNone coordinator root s l = true) ls root.start) :
    Always (step coordinator) (fun s => NotStranded root s ∧ LeaseAhead root s) ls root.start := by
  refine always_of_invariant (I := fun s => Wired root s ∧ LeaseAhead root s) ?_ ?_ ?_ hguard
  · rintro s l t ⟨hwired, hahead⟩ hl hstep
    exact ⟨hwired.step hstep, hahead.step hwired hl hstep⟩
  · rintro s ⟨_, hahead⟩
    exact ⟨hahead.notStranded, hahead⟩
  · refine ⟨.start root, ?_⟩
    intro _ row hrow hchild
    rw [root.start_db] at hrow
    exact absurd (congrArg NodeRow.nodeId (List.mem_singleton.mp hrow)) hchild

end Run

/-! ### Runs -/

/-- Delegations to the children of the names, up to their barrier. -/
def declares (names : List String) : List DelegationLabel :=
  names.map delegates ++
    (names.zipIdx.flatMap fun (name, i) => callSteps i name 1) ++
    names.zipIdx.flatMap fun (name, i) => callSteps i name 3

/-- Three delegations lease and execute their children. -/
def threeDelegations : List DelegationLabel :=
  declares ["a", "b", "c"] ++ callSteps 0 "" 3 ++ callSteps 1 "" 4 ++ callSteps 2 "" 4

theorem slots_not_lost_of_three :
    Always (step plainCoordinator) (fun s => NotStranded plainRoot s ∧ LeaseAhead plainRoot s)
      threeDelegations plainRoot.start :=
  slots_not_lost plainCoordinator plainRoot threeDelegations
    (along_of_check (fun _ _ hcheck => hcheck) (by decide +kernel))

/-- The first of four delegations leases three children, and the others come to their
leases while the slots are taken; then the three children are done, and the first
delegation returns. -/
def fourDelegations : List DelegationLabel :=
  declares ["a", "b", "c", "d"] ++ callSteps 0 "" 3 ++ callSteps 1 "" 4 ++ callSteps 2 "" 4 ++
    callSteps 3 "" 4 ++ workerSteps 0 "first" (.ok textAnswer) ++
    workerSteps 1 "second" (.ok textAnswer) ++ workerSteps 2 "third" (.ok textAnswer) ++
    callSteps 0 "" 1

/-- What the property asks of one state, at one time. -/
theorem NotStranded.check {root : RootGraph} {s : Delegations} (hnot : NotStranded root s) :
    (!s.isActive || s.calls.any (fun call => CallPhase.isDelegating call.phase &&
      !CallPhase.isPolling call.phase) || decide (root.limits.maxConcurrency ≤
        runningCount s.db root.graphId) || s.db.nodes.all fun row =>
      row.nodeId = root.rootNodeId || !isLeasable s.db root.graphId 0 row) = true := by
  cases hactive : s.isActive with
  | false => rfl
  | true =>
      by_cases hpolling : ∀ call ∈ s.calls, CallPhase.isDelegating call.phase = true →
          CallPhase.isPolling call.phase = true
      · by_cases hfree : runningCount s.db root.graphId < root.limits.maxConcurrency
        · have hall := hnot hactive hpolling hfree
          have hrows : (s.db.nodes.all fun row =>
              row.nodeId = root.rootNodeId || !isLeasable s.db root.graphId 0 row) = true := by
            refine List.all_eq_true.mpr fun row hrow => ?_
            by_cases hroot : row.nodeId = root.rootNodeId
            · simp [hroot]
            · simp [hall row hrow hroot 0]
          rw [hrows, Bool.or_true]
        · simp [Nat.le_of_not_lt hfree]
      · push Not at hpolling
        obtain ⟨call, hcall, hdelegating, hbusy⟩ := hpolling
        have hany : (s.calls.any fun call => CallPhase.isDelegating call.phase &&
            !CallPhase.isPolling call.phase) = true :=
          List.any_eq_true.mpr ⟨call, hcall, by simp [hdelegating, hbusy]⟩
        rw [hany]
        simp

/-- The fourth child is ready, no node is running, and the delegations under way only poll. -/
theorem fourth_child_stranded :
    ¬ Always (step plainCoordinator) (NotStranded plainRoot) fourDelegations plainRoot.start :=
  not_always_of_check (fun _ => NotStranded.check) (by decide +kernel)

end Delegations

end Codex2Lark
