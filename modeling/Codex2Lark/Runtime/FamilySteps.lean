import Codex2Lark.Runtime.FamilySystem

/-!
What one step does to what the members of a family hold: a batch of the root under way gets no
calls that were not in it when it began, a node that has ended stays closed, and a node is added
by a spawn only.
-/

namespace Codex2Lark

open Lib AgentStore

/-! ### The batch of the root -/

namespace AgentHarness

/-- At most `b` calls of the batch under way have not been started. -/
def UnstartedAt (registry : ToolRegistry) (kind : BudgetKind) (b : Nat) : TurnPoint → Locals → Prop
  | .quiet, _ => True
  | .waiting calls results, _ => results ≠ [] → registry.uses kind calls ≤ b
  | .running _ rest _, _ => registry.uses kind rest ≤ b

theorem unstarted_rule (registry : ToolRegistry) (kind : BudgetKind) (b : Nat) :
    TurnRule registry (fun _ => True) (UnstartedAt registry kind b) where
  turn _ := trivial
  spend := by
    intro point l ledger lastNs remainderNs _ hl
    cases point <;> exact hl
  answer _ _ := fun hsome => absurd rfl hsome
  returned hl _ := fun _ => hl
  record hl _ := fun _ => hl (List.cons_ne_nil _ _)
  finished _ := trivial
  control _ _ := trivial
  controlWaiting _ _ := fun hsome => absurd rfl hsome
  acknowledged _ := trivial
  cancelled := by
    intro point l reason hl
    cases point <;> exact hl

variable {inv : Invocation} {l : Locals} {registry : ToolRegistry} {kind : BudgetKind} {b : Nat}
  {db after : Database} {clock : ClockReadings} {state : Locals × HarnessPhase}

theorem unstarted_of_inTurn {phase : HarnessPhase}
    (hturn : InTurn (UnstartedAt registry kind b) l phase) :
    registry.uses kind (FamilySystem.unstarted phase) ≤ b := by
  cases phase with
  | executeCall build call rest results =>
      cases results with
      | nil => exact Nat.zero_le b
      | cons result results => exact hturn (List.cons_ne_nil _ _)
  | callRunning build call rest results => exact hturn
  | _ => exact Nat.zero_le b

theorem unstarted_outside {α : Type} {operation : Database → Except PyError (α × Database)}
    {next : α → Locals × HarnessPhase}
    (hnext : ∀ value, registry.uses kind (FamilySystem.unstarted (next value).2) ≤ b) :
    registry.uses kind (FamilySystem.unstarted (outside l operation db next).2.2) ≤ b :=
  outside_rule (P := fun state => registry.uses kind (FamilySystem.unstarted state.2) ≤ b) rfl
    (fun value _ => hnext value) fun _ => Nat.zero_le b

theorem unstarted_enterLoop :
    registry.uses kind (FamilySystem.unstarted (enterLoop inv l clock).2) ≤ b :=
  unstarted_of_inTurn (inTurn_enterLoop (unstarted_rule registry kind b) trivial clock)

theorem unstarted_enterRestored {checkpoint : RunCheckpoint} :
    registry.uses kind (FamilySystem.unstarted (enterRestored inv l checkpoint clock).2) ≤ b :=
  unstarted_of_inTurn (inTurn_enterRestored (unstarted_rule registry kind b) fun _ _ => trivial)

theorem unstarted_useCheckpoint {loaded : Option RunCheckpoint} {status : Option RunStatus} :
    registry.uses kind
      (FamilySystem.unstarted (useCheckpoint inv l loaded status clock).2) ≤ b := by
  refine useCheckpoint_rule
    (P := fun state => registry.uses kind (FamilySystem.unstarted state.2) ≤ b)
    (fun _ => Nat.zero_le b) (fun _ _ => unstarted_enterLoop) (fun _ _ _ _ _ => Nat.zero_le b)
    fun _ _ _ _ => ⟨fun _ => Nat.zero_le b, unstarted_enterRestored⟩

/-- No transaction is made between the calls of a batch. -/
theorem unstarted_commit {phase : HarnessPhase}
    (hcommit : commit inv clock db l phase = some (after, state)) :
    registry.uses kind (FamilySystem.unstarted state.2) ≤ b := by
  have hloop (hturn : InTurn (UnstartedAt registry kind b) l phase) :
      registry.uses kind (FamilySystem.unstarted state.2) ≤ b :=
    unstarted_of_inTurn (inTurn_commit (unstarted_rule registry kind b) hturn hcommit)
  cases phase with
  | startRun =>
      obtain rfl := congrArg Prod.snd (Option.some.inj hcommit)
      exact unstarted_outside fun _ => Nat.zero_le b
  | runStarted =>
      obtain rfl := congrArg Prod.snd (Option.some.inj hcommit)
      exact unstarted_outside fun _ => unstarted_enterLoop
  | loadCheckpoint =>
      cases hcommit
      exact Nat.zero_le b
  | runStatus loaded =>
      cases hcommit
      exact unstarted_useCheckpoint
  | discardCheckpoint reason =>
      obtain rfl := congrArg Prod.snd (Option.some.inj hcommit)
      exact unstarted_outside fun _ => Nat.zero_le b
  | checkpointInvalidated reason =>
      obtain rfl := congrArg Prod.snd (Option.some.inj hcommit)
      exact unstarted_outside fun _ => unstarted_enterLoop
  | acknowledgeCheckpoint checkpoint =>
      cases hcommit
      exact unstarted_enterRestored
  | modelCompleted build response | pollAfterModel build response =>
      exact hloop fun hsome => absurd rfl hsome
  | toolRequested build calls rest => exact hloop fun hsome => absurd rfl hsome
  | resultRecorded build result rest => exact hloop fun _ => Nat.zero_le b
  | completeModel _ | modelRunning _ | executeBatch _ _ | batchRunning _ _
  | executeCall _ _ _ _ | callRunning _ _ _ _ | returned _ | raised _ => cases hcommit
  | _ => exact hloop trivial

theorem uses_cons (call : ToolCall) (rest : List ToolCall) :
    registry.uses kind (call :: rest) = registry.uses kind [call] + registry.uses kind rest := by
  unfold ToolRegistry.uses
  rw [List.countP_cons, List.countP_singleton, Nat.add_comm]

/-- Only the beginning of a batch takes calls that were not held before. -/
theorem unstarted_step (kind : BudgetKind) {h h' : Harness} {label : HarnessLabel} {events : List HarnessEvent}
    (hstep : h.step db label = some (after, h', events)) :
    h'.inv = h.inv ∧ (events.countP (HarnessEvent.uses kind) +
        h.inv.registry.uses kind (FamilySystem.unstarted h'.phase) ≤
          h.inv.registry.uses kind (FamilySystem.unstarted h.phase) ∨
      ∃ calls, label = .begin ∧ WriteSystem.beginning h.phase = some calls ∧
        events.countP (HarnessEvent.uses kind) +
          h.inv.registry.uses kind (FamilySystem.unstarted h'.phase) =
            h.inv.registry.uses kind calls) := by
  obtain ⟨inv, l, phase⟩ := h
  cases label with
  | commit clock =>
      obtain ⟨state, hcommit, rfl, rfl⟩ := Harness.commit_cases hstep
      refine ⟨rfl, .inl ?_⟩
      rw [List.countP_nil, Nat.zero_add]
      exact unstarted_commit hcommit
  | begin =>
      simp only [Harness.step] at hstep
      cases phase with
      | completeModel build =>
          cases hstep
          exact ⟨rfl, .inl (Nat.zero_le _)⟩
      | executeBatch build calls =>
          cases hstep
          exact ⟨rfl, .inr ⟨calls, rfl, rfl, uses_started inv.registry kind calls⟩⟩
      | executeCall build call rest results =>
          cases hstep
          have hstarted : [AgentHarness.started inv.registry call].countP (HarnessEvent.uses kind) =
              inv.registry.uses kind [call] := uses_started inv.registry kind [call]
          have hboth : [AgentHarness.started inv.registry call].countP (HarnessEvent.uses kind) +
              inv.registry.uses kind rest = inv.registry.uses kind (call :: rest) := by
            rw [hstarted, ← uses_cons]
          cases results with
          | nil => exact ⟨rfl, .inr ⟨call :: rest, rfl, rfl, hboth⟩⟩
          | cons result results => exact ⟨rfl, .inl hboth.le⟩
      | _ => cases hstep
  | model answer clock =>
      simp only [Harness.step] at hstep
      cases phase with
      | modelRunning build =>
          cases hstep
          refine ⟨rfl, .inl ?_⟩
          rw [List.countP_nil, Nat.zero_add]
          exact unstarted_of_inTurn (@inTurn_model inv.registry _ _ l
            (unstarted_rule inv.registry kind 0) build answer trivial (fun _ _ => trivial) clock)
      | _ => cases hstep
  | batch answer clock =>
      simp only [Harness.step] at hstep
      cases phase with
      | batchRunning build calls =>
          cases hstep
          refine ⟨rfl, .inl ?_⟩
          rw [uses_afterBatch, Nat.zero_add]
          exact unstarted_of_inTurn (inTurn_batch (unstarted_rule inv.registry kind 0) build rfl
            (Nat.zero_le _) answer clock)
      | _ => cases hstep
  | tool answer clock =>
      simp only [Harness.step] at hstep
      cases phase with
      | callRunning build call rest results =>
          cases hstep
          refine ⟨rfl, .inl ?_⟩
          rw [uses_afterCall, Nat.zero_add]
          exact unstarted_of_inTurn (inTurn_tool
            (unstarted_rule inv.registry kind (inv.registry.uses kind rest)) build rfl
            (le_refl _) answer clock)
      | _ => cases hstep
  | cancelToken reason =>
      simp only [Harness.step] at hstep
      split at hstep
      · cases hstep
      · cases hstep
        exact ⟨rfl, .inl (Nat.zero_add _).le⟩
  | abort =>
      simp only [Harness.step] at hstep
      split at hstep <;> cases hstep
      exact ⟨rfl, .inl (Nat.zero_le _)⟩

end AgentHarness

/-! ### The rows of the graph -/

namespace Delegations

variable {coordinator : Coordinator} {root : RootGraph} {s t : Delegations}
  {label : DelegationLabel}

/-- The nodes stay, each ended as it ended, or a call has spawned one more. -/
inductive RowsAfter (root : RootGraph) (s : Delegations) (label : DelegationLabel)
    (after : List NodeRow) : Prop
  | kept (hrows : List.Forall₂ KeepsEnd s.db.nodes after)
  | spawned {i : Nat} {drawn : String} {targets : Except PyError (List ResourceTarget)}
      {call : CoordinatorCall} {graph : GraphRecord} {arguments : DelegateArguments}
      {resolved : List ResourceTarget} {nodes : List NodeRow} {child : NodeRow}
      (hlabel : label = .call i drawn targets) (hcall : s.calls[i]? = some call)
      (hphase : call.phase = .spawning graph arguments resolved)
      (hafter : after = nodes ++ [child]) (hrows : List.Forall₂ KeepsEnd s.db.nodes nodes)
      (hspec : child.spec = Coordinator.childSpec arguments resolved)
      (hopen : child.status.isTerminal = false) (hchild : child.nodeId ≠ root.rootNodeId)

theorem keepsEnd_refl (rows : List NodeRow) : List.Forall₂ KeepsEnd rows rows :=
  List.forall₂_same.mpr fun row _ => .refl row

theorem stepOp_spawns {graphId parentNodeId nodeId : String} {spec : NodeSpec} {ready : Bool}
    {nowMs : Int} (hop : stepOp coordinator s label =
      some (.spawnChild graphId parentNodeId spec ready nodeId nowMs)) :
    ∃ i drawn targets call graph arguments resolved, label = .call i drawn targets ∧
      s.calls[i]? = some call ∧ call.phase = .spawning graph arguments resolved ∧
      spec = Coordinator.childSpec arguments resolved := by
  cases label with
  | call i drawn targets =>
      obtain ⟨call, hcall, hcallOp⟩ := Option.bind_eq_some_iff.mp hop
      unfold callOp at hcallOp
      split at hcallOp <;> cases hcallOp
      rename_i graph arguments resolved hphase
      exact ⟨i, _, targets, call, graph, arguments, resolved, rfl, hcall, hphase, rfl⟩
  | worker j drawn answer =>
      obtain ⟨worker, _, hworkerOp⟩ := Option.bind_eq_some_iff.mp hop
      unfold workerOp at hworkerOp
      split at hworkerOp <;> cases hworkerOp
  | finish rootRunId status nowMs =>
      simp only [stepOp, finishOp] at hop
      split at hop
      · cases hop
      · split at hop
        · cases hop
        · obtain ⟨published, _, hpublished⟩ := Option.map_eq_some_iff.mp hop
          cases hpublished
  | request request context nowMs => cases hop
  | timeout i => cases hop
  | abort i => cases hop
  | locks locks => cases hop
  | crash => cases hop

theorem Wired.rows_step (hwired : Wired root s) (hstep : Delegations.step coordinator s label = some t) :
    RowsAfter root s label t.db.nodes := by
  rcases step_transacts hstep with (hsame | ⟨op, hop, hdb⟩) | ⟨locks, hdb⟩
  · rw [hsame]
    exact .kept (keepsEnd_refl _)
  · have hstar := hwired.isStarOp hop
    have hshape := hwired.star.life.shape
    have heffect := GraphOp.effect clampZero s.db op
    rw [hdb]
    generalize op.apply clampZero s.db = after at heffect ⊢
    cases heffect with
    | quiet hquiet =>
        exact .kept ((hquiet.moves : GraphMoves clampZero s.db after).rows_keepEnd hshape)
    | fail hok => exact .kept ((failNode_moves hshape hok).rows_keepEnd hshape)
    | complete hok => exact .kept ((completeNode_moves hok).rows_keepEnd hshape)
    | cancel hok => exact .kept ((cancelSubtree_moves hshape hok).rows_keepEnd hshape)
    | create hok => exact hstar.elim
    | spawn hok hspawned =>
        obtain ⟨i, drawn, targets, call, graph, arguments, resolved, hlabel, hcall, hphase, hspec⟩ :=
          stepOp_spawns hop
        obtain ⟨rfl, rfl, _⟩ := hstar
        refine .spawned hlabel hcall hphase (congrArg GraphDatabase.nodes hspawned.result)
          ((suspendParent_moves clampZero hspawned.parentMem _).rows_keepEnd hshape) hspec ?_ ?_
        · dsimp only [newNode]
          split <;> rfl
        · intro heq
          exact hspawned.fresh _ hspawned.parentMem (hspawned.parentIs.trans heq.symm)
  · rw [hdb]
    exact .kept (keepsEnd_refl _)

theorem RowsAfter.keeps {after : List NodeRow} (hrows : RowsAfter root s label after) {row : NodeRow}
    (hrow : row ∈ s.db.nodes) : ∃ moved ∈ after, KeepsEnd row moved := by
  cases hrows with
  | kept hkept => exact Table.Forall₂.of_mem_left hkept hrow
  | spawned _ _ _ hafter hkept _ _ _ =>
      obtain ⟨moved, hmoved, hkeeps⟩ := Table.Forall₂.of_mem_left hkept hrow
      exact ⟨moved, hafter ▸ List.mem_append_left _ hmoved, hkeeps⟩

/-- Whose row a row is afterwards: that of an old one, or of a child with the slices. -/
theorem RowsAfter.origin {after : List NodeRow} (hrows : RowsAfter root s label after)
    {row : NodeRow} (hrow : row ∈ after) :
    (∃ old ∈ s.db.nodes, KeepsEnd old row) ∨ row.nodeId ≠ root.rootNodeId ∧
      row.spec.budgets = [("tool_calls", 6), ("external_writes", 2)] := by
  cases hrows with
  | kept hkept => exact .inl (Table.Forall₂.of_mem_right hkept hrow)
  | spawned _ _ _ hafter hkept hspec _ hchild =>
      rw [hafter] at hrow
      rcases List.mem_append.mp hrow with hold | hnew
      · exact .inl (Table.Forall₂.of_mem_right hkept hold)
      · rw [List.mem_singleton.mp hnew]
        exact .inr ⟨hchild, hspec ▸ rfl⟩

/-! ### The executions of the nodes -/

/-- The node that the execution was handed is that of the row. -/
structure NodeWorker.IsOf (worker : NodeWorker) (row : NodeRow) : Prop where
  nodeId : row.nodeId = worker.node.nodeId
  budgets : row.spec.budgets = worker.node.spec.budgets
  toolIds : row.spec.toolIds = worker.node.spec.toolIds

theorem leased_running {db after : GraphDatabase} {graphId : String} {args : LeaseReady}
    {leased : List AgentNode} (hok : leaseReady graphId args db = .ok (leased, after))
    {node : AgentNode} (hnode : node ∈ leased) :
    ∃ row ∈ after.nodes, row.nodeId = node.nodeId ∧ row.spec.budgets = node.spec.budgets ∧
      row.spec.toolIds = node.spec.toolIds ∧ row.status = .running := by
  cases (leaseReady_ok hok).2 with
  | inactive => cases hnode
  | selected =>
      obtain ⟨row, hselected, rfl⟩ := List.mem_map.mp hnode
      refine ⟨_, Table.mem_update_of_cond (mem_leaseSelection hselected).1 ?_, rfl, rfl, rfl, rfl⟩
      exact List.any_eq_true.mpr ⟨row, hselected, decide_eq_true rfl⟩

theorem workerStep_live {db after : GraphDatabase} {worker moved : NodeWorker} {drawn : String}
    {answer : Except PyError NodeExecutionResult}
    (hstep : workerStep db worker drawn answer = some (after, moved))
    (hlive : moved.phase.isLive = true) : worker.phase.isLive = true := by
  unfold workerStep at hstep
  cases hphase : worker.phase with
  | receiving => rfl
  | working => rfl
  | failing =>
      simp only [hphase] at hstep
      split at hstep <;> cases hstep <;> cases hlive
  | completing result =>
      simp only [hphase] at hstep
      split at hstep
      · cases hstep
        cases hlive
      · cases hstep
        dsimp only at hlive
        split at hlive <;> cases hlive
  | acknowledging artifact itemId rest =>
      simp only [hphase] at hstep
      split at hstep
      · cases hstep
        cases hlive
      · cases hstep
        dsimp only at hlive
        split at hlive <;> cases hlive
  | finished artifact => simp [hphase] at hstep
  | raised e => simp [hphase] at hstep
  | aborted => simp [hphase] at hstep

theorem abortWorker_live {worker : NodeWorker} (hlive : (abortWorker worker).phase.isLive = true) :
    worker.phase.isLive = true := by
  unfold abortWorker at hlive
  split at hlive
  · exact hlive
  · exact hlive
  · cases hlive

/-- An execution goes on, or has begun with a lease of its node. -/
theorem step_workers (hstep : step coordinator s label = some t) :
    ∀ worker ∈ t.workers,
      (∃ old ∈ s.workers, worker.node = old.node ∧
        (worker.phase.isLive = true → old.phase.isLive = true)) ∨
      ∃ row ∈ t.db.nodes, NodeWorker.IsOf worker row ∧ row.status = .running := by
  intro worker hworker
  cases label with
  | request request context nowMs =>
      cases hstep
      exact .inl ⟨worker, hworker, rfl, id⟩
  | call i drawn targets =>
      obtain ⟨call, outcome, _, houtcome, rfl⟩ := step_call hstep
      rcases List.mem_append.mp hworker with hold | hnew
      · exact .inl ⟨worker, hold, rfl, id⟩
      · obtain ⟨node, hnode, rfl⟩ := List.mem_map.mp hnew
        cases callStep_yields houtcome with
        | nothing hleased _ =>
            rw [hleased] at hnode
            cases hnode
        | leases _ hok _ _ =>
            obtain ⟨row, hrow, hid, hbudgets, htoolIds, hrunning⟩ := leased_running hok hnode
            exact .inr ⟨row, hrow, ⟨hid, hbudgets, htoolIds⟩, hrunning⟩
        | accepts _ _ hleased _ _ =>
            rw [hleased] at hnode
            cases hnode
  | timeout i =>
      obtain ⟨call, _, _, rfl⟩ := step_timeout hstep
      rcases List.mem_append.mp hworker with hold | hnew
      · exact .inl ⟨worker, hold, rfl, id⟩
      · cases hnew
  | abort i =>
      obtain ⟨call, _, _, rfl⟩ := step_abort hstep
      dsimp only at hworker
      split at hworker
      · obtain ⟨old, hold, rfl⟩ := List.mem_map.mp hworker
        split
        · exact .inl ⟨old, hold, (abortWorker_keeps old).1, abortWorker_live⟩
        · exact .inl ⟨old, hold, rfl, id⟩
      · exact .inl ⟨worker, hworker, rfl, id⟩
  | worker j drawn answer =>
      obtain ⟨old, db, moved, hold, hmoved, rfl⟩ := step_worker hstep
      rcases List.mem_or_eq_of_mem_set hworker with hkept | rfl
      · exact .inl ⟨worker, hkept, rfl, id⟩
      · exact .inl ⟨old, List.mem_of_getElem? hold, (workerStep_keeps hmoved).1,
          workerStep_live hmoved⟩
  | locks locks =>
      cases hstep
      exact .inl ⟨worker, hworker, rfl, id⟩
  | finish rootRunId status nowMs =>
      cases hstep
      exact .inl ⟨worker, hworker, rfl, id⟩
  | crash =>
      cases hstep
      obtain ⟨old, hold, rfl⟩ := List.mem_map.mp hworker
      exact .inl ⟨old, hold, (abortWorker_keeps old).1, abortWorker_live⟩

end Delegations

end Codex2Lark
