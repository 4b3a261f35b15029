import Codex2Lark.Runtime.FamilySteps
import Mathlib.Algebra.Order.BigOperators.Group.List
import Mathlib.Algebra.Order.Group.Nat

/-!
The limits of a root run over its whole family. The slice of a child is reserved beside other
reservations only, and given back when the child ends, whatever it has used; the root charges
its own calls without a look at its children. The limits hold in every run in which each batch
of the root and each spawn takes what is left.
-/

namespace Codex2Lark

open Lib

variable {kind : BudgetKind} {family : DelegatingRun}

/-! ### The limit of a child -/

/-- The run of a child has kept its slice so far. -/
def CountedRun.InSlice (run : RootRun) (child : CountedRun) : BudgetKind → Prop
  | .toolCalls => child.CallsOk run (FamilySystem.slice .toolCalls)
  | .externalWrites =>
      WriteSystem.WritesOk run (FamilySystem.slice .externalWrites) ⟨child.system, child.started⟩
  | _ => False

namespace CountedRun

variable {run : RootRun} {child next : CountedRun} {label : RunStep}

theorem inSlice_start (hkind : kind = .toolCalls ∨ kind = .externalWrites) :
    InSlice run {} kind := by
  rcases hkind with rfl | rfl
  · exact callsOk_start
  · exact WriteSystem.writesOk_start

theorem InSlice.bounded (hchild : InSlice run child kind) :
    child.started ≤ FamilySystem.slice kind := by
  cases kind with
  | toolCalls => exact CallsOk.bounded hchild
  | externalWrites => exact WriteSystem.WritesOk.bounded hchild
  | _ => exact hchild.elim

theorem uses_externalWrites : HarnessEvent.uses .externalWrites = HarnessEvent.isWriteStart := by
  funext event
  cases event <;> rfl

/-- Every lifetime of the child runs a definition whose limits are the slices. -/
def sliced (label : RunStep) : Prop :=
  limited .toolCalls (FamilySystem.slice .toolCalls) label = true ∧
    WriteSystem.limited (FamilySystem.slice .externalWrites) label = true

theorem InSlice.step (hchild : InSlice run child kind) (hsliced : sliced label)
    (hguard : FamilySystem.childCounts kind run child label = true)
    (hstep : child.step kind run label = some next) : InSlice run next kind := by
  cases kind with
  | toolCalls => exact callsOk_step hchild hsliced.1 hguard hstep
  | externalWrites =>
      obtain ⟨system, hsystem, rfl⟩ := Option.map_eq_some_iff.mp hstep
      refine WriteSystem.writesOk_step hchild hsliced.2 hguard ?_
      unfold WriteSystem.step
      rw [hsystem, uses_externalWrites]
      rfl
  | _ => exact hchild.elim

/-- The end of an execution is a crash of its lifetime. -/
theorem InSlice.ended (hchild : InSlice run child kind) :
    InSlice run { child with system := { child.system with harness := none } } kind := by
  have hsliced : sliced .crash := ⟨rfl, rfl⟩
  have hguard : FamilySystem.childCounts kind run child .crash = true := by
    cases kind <;> rfl
  exact hchild.step hsliced hguard rfl

end CountedRun

namespace FamilySystem

variable {s t : FamilySystem} {label : FamilyStep}

/-! ### The shares -/

theorem share_le {row moved : NodeRow} (hkeeps : KeepsEnd row moved)
    (hclosed : s.isClosed row = true → t.isClosed moved = true ∧
      (t.child row.nodeId).started = (s.child row.nodeId).started)
    (hbound : row.nodeId ≠ family.graph.rootNodeId →
      (t.child row.nodeId).started ≤ row.spec.budgets.getD kind.value 0) :
    t.share kind family moved ≤ s.share kind family row := by
  unfold share
  rw [← hkeeps.same.nodeId, ← hkeeps.same.spec]
  split
  · exact le_refl 0
  · rename_i hchild
    cases hs : s.isClosed row with
    | true =>
        obtain ⟨ht, hstarted⟩ := hclosed hs
        rw [ht, if_pos rfl, if_pos rfl, hstarted]
    | false =>
        rw [if_neg Bool.false_ne_true]
        split
        · exact hbound hchild
        · exact le_refl _

theorem held_le {nodes : List NodeRow} (hrows : List.Forall₂ KeepsEnd s.graph.db.nodes nodes)
    (hshares : ∀ row ∈ s.graph.db.nodes, ∀ moved, KeepsEnd row moved →
      t.share kind family moved ≤ s.share kind family row) :
    (nodes.map (t.share kind family)).sum ≤ s.held kind family := by
  unfold held
  apply List.Forall₂.sum_le_sum
  rw [List.forall₂_map_left_iff, List.forall₂_map_right_iff]
  exact List.Forall₂.flip (Table.Forall₂.imp_of_mem hshares hrows)

/-! ### The invariant -/

/-- All nodes but the root have the slices as their budgets, an execution is that of a row, no
run of a child has left its slice, and what the members hold is within the limit. The run of
the root node never begins: its tools are those of the root, not those of a child. -/
structure FamilyOk (kind : BudgetKind) (family : DelegatingRun) (s : FamilySystem) : Prop where
  wired : Delegations.Wired family.graph s.graph
  slices : ∀ row ∈ s.graph.db.nodes, row.nodeId ≠ family.graph.rootNodeId →
    row.spec.budgets = [("tool_calls", 6), ("external_writes", 2)]
  rootTools : ∀ row ∈ s.graph.db.nodes, row.nodeId = family.graph.rootNodeId →
    row.spec.toolIds = family.definition.toolIds
  workers : ∀ worker ∈ s.graph.workers, ∃ row ∈ s.graph.db.nodes,
    Delegations.NodeWorker.IsOf worker row
  children : ∀ nodeId, nodeId ≠ family.graph.rootNodeId →
    CountedRun.InSlice (family.childRun nodeId) (s.child nodeId) kind
  rootIdle : (s.child family.graph.rootNodeId).started = 0 ∧
    (s.child family.graph.rootNodeId).system.harness = none
  room : ∀ n, family.definition.limit? kind = some n →
    s.rootHeld kind + s.held kind family ≤ n

theorem FamilyOk.bounded (hs : FamilyOk kind family s) {row : NodeRow}
    (hrow : row ∈ s.graph.db.nodes) (hchild : row.nodeId ≠ family.graph.rootNodeId) :
    (s.child row.nodeId).started ≤ row.spec.budgets.getD kind.value 0 := by
  rw [hs.slices row hrow hchild]
  exact (hs.children row.nodeId hchild).bounded

theorem FamilyOk.withinLimit (hs : FamilyOk kind family s) : s.WithinLimit kind family := by
  intro n hn
  refine le_trans ?_ (hs.room n hn)
  refine Nat.add_le_add (Nat.le_add_right _ _) (List.sum_le_sum fun row hrow => ?_)
  unfold share
  split
  · rename_i hroot
    rw [hroot, hs.rootIdle.1]
  · rename_i hchild
    split
    · exact le_refl _
    · exact hs.bounded hrow hchild

theorem familyOk_start (hkind : kind = .toolCalls ∨ kind = .externalWrites) :
    FamilyOk kind family family.start := by
  have hnodes : family.start.graph.db.nodes = [family.graph.rootRow] :=
    congrArg GraphDatabase.nodes family.graph.start_db
  constructor
  · exact .start family.graph
  · intro row hrow hchild
    rw [hnodes, List.mem_singleton] at hrow
    exact absurd (congrArg NodeRow.nodeId hrow) hchild
  · intro row hrow _
    rw [hnodes, List.mem_singleton] at hrow
    rw [hrow]
    exact family.toolIds
  · intro worker hworker
    cases hworker
  · intro nodeId _
    exact CountedRun.inSlice_start hkind
  · exact ⟨rfl, rfl⟩
  · intro n _
    have hnone : family.start.held kind family = 0 := by
      unfold held
      rw [hnodes]
      exact if_pos rfl
    rw [hnone]
    exact Nat.zero_le n

/-! ### The steps of the members -/

theorem step_admits (hstep : s.step kind family label = some t) :
    s.admits family label = true := by
  unfold step at hstep
  split at hstep
  · assumption
  · cases hstep

theorem step_root {label : RunStep} (hstep : s.step kind family (.root label) = some t) :
    ∃ root, s.root.step kind family.rootRun label = some root ∧ t = { s with root } := by
  have hadmits := step_admits hstep
  unfold step at hstep
  rw [if_pos hadmits] at hstep
  obtain ⟨root, hroot, rfl⟩ := Option.map_eq_some_iff.mp hstep
  exact ⟨root, hroot, rfl⟩

theorem step_graph {label : DelegationLabel} (hstep : s.step kind family (.graph label) = some t) :
    ∃ graph, Delegations.step family.coordinator s.graph label = some graph ∧
      t = s.settled graph := by
  have hadmits := step_admits hstep
  unfold step at hstep
  rw [if_pos hadmits] at hstep
  obtain ⟨graph, hgraph, rfl⟩ := Option.map_eq_some_iff.mp hstep
  exact ⟨graph, hgraph, rfl⟩

theorem step_child {nodeId : String} {label : RunStep}
    (hstep : s.step kind family (.child nodeId label) = some t) :
    ∃ run, (s.child nodeId).step kind (family.childRun nodeId) label = some run ∧
      t = { s with child := fun other => if other = nodeId then run else s.child other } := by
  have hadmits := step_admits hstep
  unfold step at hstep
  rw [if_pos hadmits] at hstep
  obtain ⟨run, hrun, rfl⟩ := Option.map_eq_some_iff.mp hstep
  exact ⟨run, hrun, rfl⟩

/-- The root holds no more after a step, or it has begun a batch. -/
theorem rootHeld_step {root : CountedRun} {label : RunStep}
    (hstep : s.root.step kind family.rootRun label = some root) :
    ({ s with root } : FamilySystem).rootHeld kind ≤ s.rootHeld kind ∨
      ∃ h calls, label = .harness .begin ∧ s.root.system.harness = some h ∧
        WriteSystem.beginning h.phase = some calls ∧
        ({ s with root } : FamilySystem).rootHeld kind =
          s.root.started + h.inv.registry.uses kind calls := by
  obtain ⟨system, hsystem, rfl⟩ := Option.map_eq_some_iff.mp hstep
  unfold rootHeld
  cases label with
  | store op =>
      obtain ⟨_, rfl⟩ := RunSystem.store_cases hsystem
      exact .inl (le_refl _)
  | launch inv resume =>
      obtain ⟨_, harness, rfl, hnew⟩ := RunSystem.launch_cases hsystem
      refine .inl (Nat.add_le_add (le_refl _) ?_)
      cases harness with
      | none => exact Nat.zero_le _
      | some h =>
          have hphase := (hnew h rfl).2.1
          dsimp only [Option.elim]
          rw [hphase]
          cases resume <;> exact Nat.zero_le _
  | crash =>
      obtain rfl := RunSystem.crash_cases hsystem
      exact .inl (Nat.add_le_add (le_refl _) (Nat.zero_le _))
  | harness label =>
      obtain ⟨h, after, h', events, hh, hnext, rfl⟩ := RunSystem.harness_cases hsystem
      rw [WriteSystem.events_harness hh hnext, hh]
      dsimp only [Option.elim]
      obtain ⟨hinv, hless | ⟨calls, rfl, hcalls, huses⟩⟩ :=
        AgentHarness.unstarted_step kind hnext
      · rw [hinv]
        refine .inl ?_
        omega
      · refine .inr ⟨h, calls, rfl, rfl, hcalls, ?_⟩
        rw [hinv]
        omega

theorem familyOk_root {label : RunStep} (hs : FamilyOk kind family s)
    (hguard : s.takesWhatIsLeft kind family (.root label) = true)
    (hstep : s.step kind family (.root label) = some t) : FamilyOk kind family t := by
  obtain ⟨root, hroot, rfl⟩ := step_root hstep
  refine ⟨hs.wired, hs.slices, hs.rootTools, hs.workers, hs.children, hs.rootIdle, ?_⟩
  intro n hn
  have hheld : ({ s with root } : FamilySystem).held kind family = s.held kind family := rfl
  have hroom := hs.room n hn
  rw [hheld]
  rcases rootHeld_step hroot with hless | ⟨h, calls, rfl, hh, hcalls, hbegun⟩
  · omega
  · rw [hbegun]
    simpa [takesWhatIsLeft, hh, hcalls, hn] using hguard

@[simp] theorem settled_started (graph : Delegations) (nodeId : String) :
    ((s.settled graph).child nodeId).started = (s.child nodeId).started := by
  unfold settled
  dsimp only
  split <;> rfl

/-- A closed node stays closed: it is not leased again. -/
theorem closed_step {graph : Delegations} {label : DelegationLabel} {row moved : NodeRow}
    (hwired : Delegations.Wired family.graph s.graph)
    (hstep : Delegations.step family.coordinator s.graph label = some graph)
    (hrow : row ∈ s.graph.db.nodes) (hkeeps : KeepsEnd row moved) (hclosed : s.isClosed row = true) :
    (s.settled graph).isClosed moved = true := by
  simp only [isClosed, Bool.and_eq_true, Bool.not_eq_true', List.any_eq_false] at hclosed ⊢
  obtain ⟨hended, hnone⟩ := hclosed
  refine ⟨(hkeeps.ended hended).symm ▸ hended, ?_⟩
  rintro worker hworker ⟨hid, hlive⟩
  have hid : worker.node.nodeId = row.nodeId :=
    (of_decide_eq_true hid).trans hkeeps.same.nodeId.symm
  rcases Delegations.step_workers hstep worker hworker with ⟨old, hold, hsame, hwas⟩ |
    ⟨leased, hleased, hof, hrunning⟩
  · exact hnone old hold ⟨decide_eq_true (hsame ▸ hid), hwas hlive⟩
  · -- the leased row is that of the node, which has ended
    obtain ⟨after, hafter, hkept⟩ := (hwired.rows_step hstep).keeps hrow
    have hshape := (hwired.step hstep).star.life.shape
    have hsame : leased = after :=
      hshape.node_eq hleased hafter (hof.nodeId.trans (hid.trans hkept.same.nodeId))
    rw [hsame, hkept.ended hended] at hrunning
    rw [hrunning] at hended
    cases hended

theorem held_graph {graph : Delegations} {label : DelegationLabel} (hs : FamilyOk kind family s)
    (hstep : Delegations.step family.coordinator s.graph label = some graph)
    {nodes : List NodeRow} (hrows : List.Forall₂ KeepsEnd s.graph.db.nodes nodes) :
    (nodes.map ((s.settled graph).share kind family)).sum ≤ s.held kind family := by
  refine held_le hrows fun row hrow moved hkeeps => share_le hkeeps ?_ ?_
  · exact fun hclosed => ⟨closed_step hs.wired hstep hrow hkeeps hclosed, settled_started _ _⟩
  · rw [settled_started]
    exact hs.bounded hrow

theorem familyOk_graph {label : DelegationLabel} (hs : FamilyOk kind family s)
    (hguard : s.takesWhatIsLeft kind family (.graph label) = true)
    (hstep : s.step kind family (.graph label) = some t) : FamilyOk kind family t := by
  obtain ⟨graph, hgraph, rfl⟩ := step_graph hstep
  have hrows := hs.wired.rows_step hgraph
  constructor
  · exact hs.wired.step hgraph
  · intro row hrow hchild
    rcases hrows.origin hrow with ⟨old, hold, hkeeps⟩ | ⟨_, hslices⟩
    · rw [← hkeeps.same.spec]
      exact hs.slices old hold (hkeeps.same.nodeId ▸ hchild)
    · exact hslices
  · intro row hrow hroot
    rcases hrows.origin hrow with ⟨old, hold, hkeeps⟩ | ⟨hchild, _⟩
    · rw [← hkeeps.same.spec]
      exact hs.rootTools old hold (hkeeps.same.nodeId.trans hroot)
    · exact absurd hroot hchild
  · intro worker hworker
    rcases Delegations.step_workers hgraph worker hworker with ⟨old, hold, hsame, _⟩ |
      ⟨row, hrow, hof, _⟩
    · obtain ⟨row, hrow, hof⟩ := hs.workers old hold
      obtain ⟨moved, hmoved, hkeeps⟩ := hrows.keeps hrow
      have hnodeId := hkeeps.same.nodeId
      have hspec := hkeeps.same.spec
      refine ⟨moved, hmoved, ⟨?_, ?_, ?_⟩⟩
      · rw [← hnodeId, hsame, hof.nodeId]
      · rw [← hspec, hsame, hof.budgets]
      · rw [← hspec, hsame, hof.toolIds]
    · exact ⟨row, hrow, hof⟩
  · intro nodeId hchild
    unfold settled
    dsimp only
    split
    · exact (hs.children nodeId hchild).ended
    · exact hs.children nodeId hchild
  · refine ⟨(settled_started _ _).trans hs.rootIdle.1, ?_⟩
    unfold settled
    dsimp only
    split
    · rfl
    · exact hs.rootIdle.2
  · intro n hn
    have hroot : (s.settled graph).rootHeld kind = s.rootHeld kind := rfl
    have hroom := hs.room n hn
    rw [hroot]
    cases hrows with
    | kept hkept =>
        have hheld := held_graph hs hgraph hkept
        exact le_trans (Nat.add_le_add_left hheld _) hroom
    | @spawned i drawn targets call record arguments resolved nodes child hlabel hcall hphase hafter
        hkept hspec hopen hchild =>
        have hheld := held_graph hs hgraph hkept
        have hshare : (s.settled graph).share kind family child = slice kind := by
          unfold share isClosed
          rw [if_neg hchild, hopen, hspec]
          rfl
        have hsum : (s.settled graph).held kind family =
            (nodes.map ((s.settled graph).share kind family)).sum + slice kind := by
          unfold held
          rw [show (s.settled graph).graph.db.nodes = nodes ++ [child] from hafter, List.map_append,
            List.sum_append, List.map_singleton, List.sum_singleton, hshare]
        subst hlabel
        have hleft : s.rootHeld kind + s.held kind family + slice kind ≤ n := by
          simpa [takesWhatIsLeft, hcall, hphase, hn] using hguard
        rw [hsum]
        omega

theorem working_mem {nodeId : String} {worker : NodeWorker}
    (hworking : s.working nodeId = some worker) :
    worker ∈ s.graph.workers ∧ worker.node.nodeId = nodeId ∧ worker.phase.isWorking = true := by
  have hfound := List.find?_some hworking
  rw [Bool.and_eq_true] at hfound
  exact ⟨List.mem_of_find?_eq_some hworking, of_decide_eq_true hfound.1, hfound.2⟩

theorem launches_cases {nodeId : String} {inv : Invocation} {resume : Bool}
    (hlaunches : s.launches family nodeId inv resume = true) :
    ∃ worker tools huniqueTools, s.working nodeId = some worker ∧
      family.coordinator.childTools.definitions worker.node.spec.toolIds = .ok tools ∧
      inv.definition =
        DelegatedHarnessWorker.definition family.modelProfile worker.node tools huniqueTools := by
  unfold launches at hlaunches
  cases hworking : s.working nodeId with
  | none =>
      rw [hworking] at hlaunches
      cases hlaunches
  | some worker =>
      rw [hworking] at hlaunches
      dsimp only [Option.any] at hlaunches
      cases htools : family.coordinator.childTools.definitions worker.node.spec.toolIds with
      | error e =>
          rw [htools] at hlaunches
          cases hlaunches
      | ok tools =>
          rw [htools] at hlaunches
          dsimp only at hlaunches
          split at hlaunches
          · rename_i huniqueTools
            simp only [Bool.and_eq_true, decide_eq_true_eq] at hlaunches
            exact ⟨worker, tools, huniqueTools, rfl, htools, hlaunches.1.1.1⟩
          · cases hlaunches

/-- The limits of a child are its slices. -/
theorem sliced_launch {modelProfile : String} {node : AgentNode} {tools : List ToolDefinition}
    {huniqueTools : node.spec.toolIds.Nodup}
    (hbudgets : node.spec.budgets = [("tool_calls", 6), ("external_writes", 2)]) {inv : Invocation}
    (hdefinition : inv.definition =
      DelegatedHarnessWorker.definition modelProfile node tools huniqueTools)
    (resume : Bool) : CountedRun.sliced (.launch inv resume) := by
  have hlimits : inv.definition.budgetLimits = [⟨.toolCalls, 6⟩, ⟨.externalWrites, 2⟩] := by
    rw [hdefinition]
    dsimp only [DelegatedHarnessWorker.definition]
    rw [hbudgets]
    rfl
  unfold CountedRun.sliced CountedRun.limited WriteSystem.limited AgentDefinition.limit?
    AgentDefinition.externalWrites
  dsimp only
  rw [hlimits]
  exact ⟨rfl, rfl⟩

/-- The worker of the root node has no tools to run with. -/
theorem FamilyOk.not_launched (hs : FamilyOk kind family s) {inv : Invocation} {resume : Bool} :
    s.launches family family.graph.rootNodeId inv resume = false := by
  rw [Bool.eq_false_iff]
  intro hlaunches
  obtain ⟨worker, tools, _, hworking, htools, _⟩ := launches_cases hlaunches
  obtain ⟨hworker, hid, _⟩ := working_mem hworking
  obtain ⟨row, hrow, hof⟩ := hs.workers worker hworker
  have hroot := family.rootOnly
  rw [← hs.rootTools row hrow (hof.nodeId.trans hid), hof.toolIds, htools] at hroot
  cases hroot

theorem FamilyOk.sliced (hs : FamilyOk kind family s) {nodeId : String} {label : RunStep}
    (hchild : nodeId ≠ family.graph.rootNodeId)
    (hadmits : s.admits family (.child nodeId label) = true) : CountedRun.sliced label := by
  cases label with
  | launch inv resume =>
      obtain ⟨worker, tools, _, hworking, _, hdefinition⟩ := launches_cases hadmits
      obtain ⟨hworker, hid, _⟩ := working_mem hworking
      obtain ⟨row, hrow, hof⟩ := hs.workers worker hworker
      refine sliced_launch ?_ hdefinition resume
      rw [← hof.budgets]
      exact hs.slices row hrow fun hroot => hchild (hid.symm.trans (hof.nodeId.symm.trans hroot))
  | _ => exact ⟨rfl, rfl⟩

/-- The run of the root node stays unused. -/
theorem FamilyOk.rootIdle_step (hs : FamilyOk kind family s) {label : RunStep} {run : CountedRun}
    (hadmits : s.admits family (.child family.graph.rootNodeId label) = true)
    (hstep : (s.child family.graph.rootNodeId).step kind
      (family.childRun family.graph.rootNodeId) label = some run) :
    run.started = 0 ∧ run.system.harness = none := by
  obtain ⟨hzero, hnone⟩ := hs.rootIdle
  obtain ⟨system, hsystem, rfl⟩ := Option.map_eq_some_iff.mp hstep
  cases label with
  | store op =>
      obtain ⟨_, rfl⟩ := RunSystem.store_cases hsystem
      exact ⟨hzero, hnone⟩
  | launch inv resume =>
      have hlaunches : s.launches family family.graph.rootNodeId inv resume = true := hadmits
      rw [hs.not_launched] at hlaunches
      cases hlaunches
  | harness label =>
      obtain ⟨h, _, _, _, hh, _⟩ := RunSystem.harness_cases hsystem
      rw [hnone] at hh
      cases hh
  | crash => cases hadmits

/-- Only the child of a node that is not closed starts calls. -/
theorem started_closed {row : NodeRow} {label : RunStep} {run : CountedRun}
    (hadmits : s.admits family (.child row.nodeId label) = true)
    (hstep : (s.child row.nodeId).step kind (family.childRun row.nodeId) label = some run)
    (hclosed : s.isClosed row = true) : run.started = (s.child row.nodeId).started := by
  obtain ⟨system, _, rfl⟩ := Option.map_eq_some_iff.mp hstep
  cases label with
  | harness label =>
      obtain ⟨worker, hworking⟩ := Option.isSome_iff_exists.mp hadmits
      obtain ⟨hworker, hid, hphase⟩ := working_mem hworking
      have hlive : worker.phase.isLive = true := by
        cases hworkerPhase : worker.phase <;> rw [hworkerPhase] at hphase <;> cases hphase
        rfl
      simp only [isClosed, Bool.and_eq_true, Bool.not_eq_true', List.any_eq_false] at hclosed
      exact absurd ⟨decide_eq_true hid, hlive⟩ (hclosed.2 worker hworker)
  | _ => rfl

theorem familyOk_child {nodeId : String} {label : RunStep} (hs : FamilyOk kind family s)
    (hguard : s.takesWhatIsLeft kind family (.child nodeId label) = true)
    (hstep : s.step kind family (.child nodeId label) = some t) : FamilyOk kind family t := by
  have hadmits := step_admits hstep
  obtain ⟨run, hrun, rfl⟩ := step_child hstep
  have hchildren : ∀ other, other ≠ family.graph.rootNodeId → CountedRun.InSlice
      (family.childRun other) (if other = nodeId then run else s.child other) kind := by
    intro other hother
    split
    · rename_i hid
      subst hid
      exact (hs.children other hother).step (hs.sliced hother hadmits) hguard hrun
    · exact hs.children other hother
  refine ⟨hs.wired, hs.slices, hs.rootTools, hs.workers, hchildren, ?_, ?_⟩
  · dsimp only
    split
    · rename_i hid
      subst hid
      exact hs.rootIdle_step hadmits hrun
    · exact hs.rootIdle
  · intro n hn
    refine le_trans (Nat.add_le_add_left ?_ _) (hs.room n hn)
    refine List.sum_le_sum fun row hrow => share_le (.refl row) ?_ ?_
    · intro hclosed
      refine ⟨hclosed, ?_⟩
      dsimp only
      split
      · rename_i hid
        subst hid
        exact started_closed hadmits hrun hclosed
      · rfl
    · intro hchild
      rw [hs.slices row hrow hchild]
      exact (hchildren row.nodeId hchild).bounded

theorem familyOk_step (hs : FamilyOk kind family s)
    (hguard : s.takesWhatIsLeft kind family label = true)
    (hstep : s.step kind family label = some t) : FamilyOk kind family t := by
  cases label with
  | root label => exact familyOk_root hs hguard hstep
  | graph label => exact familyOk_graph hs hguard hstep
  | child nodeId label => exact familyOk_child hs hguard hstep

/-- Over any interleaving of the root run, the delegations and the runs of the children, with
their crashes and resumes: the calls of the whole family stay within the limit of the root when
every batch of the root and every spawn takes what is left of it, and no child loses count of
its own calls. -/
theorem family_within_limit (family : DelegatingRun) (kind : BudgetKind)
    (hkind : kind = .toolCalls ∨ kind = .externalWrites) (steps : List FamilyStep)
    (hguard : Along (step kind family) (fun s label => s.takesWhatIsLeft kind family label = true)
      steps family.start) :
    Always (step kind family) (fun s => s.WithinLimit kind family) steps family.start :=
  always_of_invariant (fun _ _ _ hs hl hstep => familyOk_step hs hl hstep)
    (fun _ hs => hs.withinLimit) (familyOk_start hkind) hguard

/-! ### Runs -/

def readTool : SemanticTool where
  definition := ⟨"doc.read", 1, "Read a document.", [], .read, true⟩

def delegateTool : SemanticTool where
  definition := ⟨"agent.delegate", 1, "Delegate a part of the task.", [], .read, true⟩

/-- The limits of the gateway, and children that may read. -/
def readingRun : DelegatingRun where
  graph :=
    { rootRunId := "run", tenantKey := "tenant", taskBrief := "brief"
      toolIds := ["doc.read", "agent.delegate"]
      budgets := [("tool_calls", 16), ("external_writes", 6)]
      graphId := "graph", rootNodeId := "root", nowMs := 0 }
  taskId := "task"
  definition :=
    { agentId := "feishu-group-root", version := 1, instructions := "Help.", modelProfile := "default"
      toolIds := ["doc.read", "agent.delegate"], maxContextTokens := 32000
      budgetLimits := [⟨.toolCalls, 16⟩, ⟨.externalWrites, 6⟩] }
  coordinator := ⟨⟨[readTool], by decide⟩, id⟩
  modelProfile := "default"
  toolIds := rfl
  budgets := rfl
  rootOnly := rfl

def rootInvocation : Invocation where
  request :=
    { runId := "run", taskId := "task", nodeId := "/root", userRequest := "compare them"
      toolContext :=
        { runId := "run", nodeId := "/root", tenantKey := "tenant", appId := "app"
          actorId := "user", sessionKey := "tenant/app/chat", identityRef := "bot"
          policyVersion := 1, taskId := some "task" } }
  definition := readingRun.definition
  registry := ⟨[readTool, delegateTool], by decide⟩
  loaded := ⟨[], [], []⟩
  hasInbox := false
  clockMs := 3
  digest := fun _ => "digest"

def delegateArguments : DelegateArguments where
  name := "a"
  role := .researcher
  taskBrief := "brief"
  expectedOutputType := "text"
  toolIds := ["doc.read"]

def childInvocation : Invocation :=
  let node := AgentStore.nodeOf {} (AgentStore.newNode "child" "graph" (some "root") "/root/a"
    (Coordinator.childSpec delegateArguments []) 2 .ready 0)
  let context := rootInvocation.request.toolContext
  { rootInvocation with
    request :=
      { rootInvocation.request with
        runId := "child", nodeId := "/root/a"
        toolContext := { context with runId := "child", nodeId := "/root/a" } }
    definition := DelegatedHarnessWorker.definition "default" node [readTool.definition] (by decide)
    registry := ⟨[readTool], by decide⟩ }

def reads (callIds : List String) : List ToolCall :=
  callIds.map fun callId => ⟨callId, "doc.read", []⟩

def commits (n : Nat) : List RunStep := List.replicate n (.harness (.commit {}))

/-- A lifetime up to its first question to the model. -/
def startSteps (inv : Invocation) : List RunStep :=
  let mention : NormalizedEvent :=
    { eventId := "event-1", pluginId := "im", eventType := "im.message", tenantKey := "tenant"
      appId := "app", occurredAtMs := 0, receivedAtMs := 0, resourceKind := "message"
      resourceId := "message-1", traceId := "trace-1" }
  [.store (.admitEvent mention ⟨"im", "im.handle_mention", "tenant/app/chat", [], 0, 0, 5, none⟩
      none "task" "outbox-0" 0), .launch inv false] ++ commits 3

/-- The model asks for the calls, and their execution begins. -/
def batchSteps (calls : List ToolCall) : List RunStep :=
  [.harness .begin, .harness (.model (.ok { content := "", toolCalls := calls }) {})] ++
    commits (calls.length + 1) ++ [.harness .begin]

/-- The `n` calls of the batch return, and the turn ends. -/
def returnSteps (n : Nat) : List RunStep :=
  .harness (.batch (.ok (List.replicate n ⟨.ok ⟨true, "", false⟩, .ok true,
    .ok { observation := [], verification := ⟨.notRequired, "doc", "read", []⟩ }⟩)) {}) ::
      commits (n + 3)

def answerSteps : List RunStep :=
  [.harness .begin, .harness (.model (.ok { content := "done" }) {})] ++ commits 2

/-- The root reads and delegates at once, up to the execution of its child. -/
def delegation (callIds : List String) : List FamilyStep :=
  (startSteps rootInvocation ++
    batchSteps (reads callIds ++ [⟨"delegate", "agent.delegate", []⟩])).map .root ++
  .graph (.request (.delegate delegateArguments) rootInvocation.request.toolContext 0) ::
    List.replicate 7 (.graph (.call 0 "child" (.ok []))) ++
  [.graph (.worker 0 "" (.error (.runtimeError "")))]

def childReads (callIds : List String) : List FamilyStep :=
  (startSteps childInvocation ++ batchSteps (reads callIds)).map (.child "child")

/-- The root begins two calls, its child reads twice and ends; twelve calls are left then. -/
theorem family_within_limit_of_used :
    let artifact : NodeExecutionResult := ⟨⟨"text", [], [], .notRequired⟩, []⟩
    let later := ["3", "4", "5", "6", "7", "8", "9", "10", "11", "12", "13", "14"]
    Always (step .toolCalls readingRun) (fun s => s.WithinLimit .toolCalls readingRun)
      (delegation ["1"] ++ childReads ["1", "2"] ++
        (returnSteps 2 ++ answerSteps).map (.child "child") ++
        List.replicate 2 (.graph (.worker 0 "artifact" (.ok artifact))) ++
        [.graph (.call 0 "" (.ok []))] ++
        (returnSteps 2 ++ batchSteps (reads later)).map .root) readingRun.start := by
  intro artifact later
  apply family_within_limit readingRun .toolCalls (.inl rfl)
  exact along_of_check (fun _ _ hcheck => hcheck) (by decide +kernel)

/-- Eleven calls of the root and six of its child are each within their own limit of 16 and 6. -/
theorem seventeen_calls_started :
    ¬ Always (step .toolCalls readingRun) (fun s => s.WithinLimit .toolCalls readingRun)
      (delegation ["1", "2", "3", "4", "5", "6", "7", "8", "9", "10"] ++
        childReads ["1", "2", "3", "4", "5", "6"]) readingRun.start := by
  have hcheck (s : FamilySystem) (hwithin : s.WithinLimit .toolCalls readingRun) :
      decide (s.total ≤ 16) = true := decide_eq_true (hwithin 16 rfl)
  exact not_always_of_check hcheck (by decide +kernel)

end FamilySystem

end Codex2Lark
