import Codex2Lark.Runtime.CallBudget
import Codex2Lark.Runtime.DelegationSteps
import Mathlib.Algebra.GroupWithZero.Nat

/-!
A root run with the runs of its children: the root harness, the coordinator behind
`agent.delegate`, and the harnesses that `DelegatedHarnessWorker` runs. Each harness has a ledger
of its own for its lifetime; the spawns reserve in `runtime_budget_ledger`, which no harness
reads or writes. What the family may do within the limits of the root is said here step by step.
-/

namespace Codex2Lark

open Lib

/-! ### The worker of a delegated node -/

namespace DelegatedHarnessWorker

/-- `_instructions`. -/
def instructions (node : AgentNode) : String :=
  "You are the " ++ node.spec.role.value ++ " worker at " ++ node.canonicalPath ++ ". " ++
    "Complete only the assigned bounded deliverable. Use only enabled tools, never " ++
    "claim unverified writes, and return a concise evidence-based result to the parent."

def budgetLimits (budgets : Dict String Nat) : List BudgetLimit :=
  budgets.filterMap fun entry =>
    (BudgetKind.ofValue? entry.1).map fun kind => ⟨kind, entry.2⟩

theorem append_ne_empty {start : String} (hstart : start ≠ "") (rest : String) :
    start ++ rest ≠ "" :=
  fun hempty => hstart (String.append_eq_empty_iff.mp hempty).1

theorem instructions_ne_empty (node : AgentNode) : instructions node ≠ "" := by
  unfold instructions
  iterate 6 refine append_ne_empty ?_ _
  decide

theorem agentId_ne_empty (node : AgentNode) : "feishu-" ++ node.spec.role.value ≠ "" :=
  append_ne_empty (by decide) _

/-- The definition that `execute` makes for a node. -/
def definition (modelProfile : String) (node : AgentNode) (tools : List ToolDefinition)
    (huniqueTools : node.spec.toolIds.Nodup) : AgentDefinition where
  agentId := "feishu-" ++ node.spec.role.value
  version := 1
  instructions := instructions node
  modelProfile := modelProfile
  toolIds := node.spec.toolIds
  resourcePackages := ["delegated-worker-core"]
  budgetLimits := budgetLimits node.spec.budgets
  maxContextTokens := 16000
  requireVerifiedExternalEffect := tools.any fun item => item.effect.isWrite
  identified := ⟨agentId_ne_empty node, le_rfl, instructions_ne_empty node⟩
  uniqueTools := huniqueTools

end DelegatedHarnessWorker

/-! ### The system -/

/-- What is fixed for a root run. `prepare` copies the tools and the limits of the definition to
the root node; the registry of the child harness lacks `agent.delegate`, which the root has. -/
structure DelegatingRun where
  graph : RootGraph
  taskId : String
  definition : AgentDefinition
  coordinator : Coordinator
  modelProfile : String
  toolIds : graph.toolIds = definition.toolIds
  budgets : graph.budgets =
    definition.budgetLimits.map fun limit => (limit.kind.value, limit.maximum)
  rootOnly : (coordinator.childTools.definitions definition.toolIds).isOk = false

/-- `child` gives the run of each node; most nodes have none yet. -/
structure FamilySystem where
  graph : Delegations
  root : CountedRun := {}
  child : String → CountedRun := fun _ => {}

/-- A crash of the process is the crash of the root and of the graph, one after the other. -/
inductive FamilyStep where
  | root (label : RunStep)
  | graph (label : DelegationLabel)
  | child (nodeId : String) (label : RunStep)

def HarnessPhase.runsTool (toolId : String) : HarnessPhase → Bool
  | .batchRunning _ calls => calls.any fun call => call.toolId = toolId
  | .callRunning _ call _ _ => call.toolId = toolId
  | _ => false

def CoordinatorRequest.toolId : CoordinatorRequest → String
  | .delegate _ => "agent.delegate"
  | .message _ => "agent.message"

/-- `DelegatedHarnessWorker.execute` is under way, or is about to be. -/
def WorkerPhase.isLive : WorkerPhase → Bool
  | .receiving | .working => true
  | _ => false

def WorkerPhase.isWorking : WorkerPhase → Bool
  | .working => true
  | _ => false

namespace DelegatingRun

variable (family : DelegatingRun)

def start : FamilySystem where
  graph := family.graph.start

def rootRun : RootRun := ⟨family.graph.rootRunId, family.taskId⟩

def childRun (nodeId : String) : RootRun := ⟨nodeId, family.taskId⟩

end DelegatingRun

namespace FamilySystem

variable (s : FamilySystem)

def working (nodeId : String) : Option NodeWorker :=
  s.graph.workers.find? fun worker =>
    worker.node.nodeId = nodeId && worker.phase.isWorking

/-- The run that an execution starts. -/
def launches (family : DelegatingRun) (nodeId : String) (inv : Invocation) (resume : Bool) : Bool :=
  (s.working nodeId).any fun worker =>
    let status := SessionStore.runStatus nodeId (s.child nodeId).system.db
    match family.coordinator.childTools.definitions worker.node.spec.toolIds with
    | .error _ => false
    | .ok tools =>
        -- the constructor of the definition refuses repeated tools
        if huniqueTools : worker.node.spec.toolIds.Nodup then
          inv.definition = DelegatedHarnessWorker.definition family.modelProfile worker.node tools
              huniqueTools &&
            !inv.hasInbox && (status = none || status = some .running) &&
            (resume == (status = some .running : Bool))
        else false

/-- The answer of an execution: its run is over, and an artifact needs a completed outcome, of
this run or of an earlier one that the run row tells. -/
def answers (worker : NodeWorker) (answer : Except PyError NodeExecutionResult) : Bool :=
  let run := (s.child worker.node.nodeId).system
  run.isIdle && (!answer.isOk || match run.harness.map Harness.phase with
    | some (.returned outcome) => outcome.status = .completed
    | some _ => false
    | none => SessionStore.runStatus worker.node.nodeId run.db = some .completed)

/-- What the other parts of the family ask of a step. -/
def admits (family : DelegatingRun) : FamilyStep → Bool
  | .root (.launch inv _) => inv.definition = family.definition
  | .root _ => true
  | .graph (.request request context _) => s.root.system.harness.any fun h =>
      h.phase.runsTool request.toolId && context = h.inv.request.toolContext
  | .graph (.worker j _ answer) => s.graph.workers[j]?.all fun worker =>
      !worker.phase.isWorking || s.answers worker answer
  | .graph _ => true
  | .child _ (.store _) => true
  | .child nodeId (.launch inv resume) => s.launches family nodeId inv resume
  | .child nodeId (.harness _) => (s.working nodeId).isSome
  | .child _ .crash => false

/-- An execution that has ended takes its coroutine with it. -/
def settled (graph : Delegations) : FamilySystem :=
  { s with
    graph
    child := fun nodeId =>
      if ({ s with graph } : FamilySystem).working nodeId = none then
        { s.child nodeId with system := { (s.child nodeId).system with harness := none } }
      else s.child nodeId }

/-- The history of `kind` is kept for every run of the family. -/
def step (kind : BudgetKind) (family : DelegatingRun) (s : FamilySystem) (label : FamilyStep) :
    Option FamilySystem :=
  if s.admits family label then
    match label with
    | .root label => (s.root.step kind family.rootRun label).map fun root => { s with root }
    | .graph label => (Delegations.step family.coordinator s.graph label).map s.settled
    | .child nodeId label =>
        ((s.child nodeId).step kind (family.childRun nodeId) label).map fun run =>
          { s with child := fun other => if other = nodeId then run else s.child other }
  else none

/-- The calls of the kind that the root and its children have started, whatever has become of
the children. -/
def total : Nat :=
  s.root.started + (s.graph.db.nodes.map fun row => (s.child row.nodeId).started).sum

/-- The limit of the root's definition holds for the whole family. -/
def WithinLimit (kind : BudgetKind) (family : DelegatingRun) : Prop :=
  ∀ n, family.definition.limit? kind = some n → s.total ≤ n

/-! ### What is left of the limit -/

/-- The calls of a batch under way that have not been started. -/
def unstarted : HarnessPhase → List ToolCall
  | .executeCall _ call rest (_ :: _) => call :: rest
  | .callRunning _ _ rest _ => rest
  | _ => []

/-- What the root takes of its limit. -/
def rootHeld (kind : BudgetKind) : Nat :=
  s.root.started +
    s.root.system.harness.elim 0 fun h => h.inv.registry.uses kind (unstarted h.phase)

/-- The node has ended, and no execution of it goes on. -/
def isClosed (row : NodeRow) : Bool :=
  row.status.isTerminal &&
    !s.graph.workers.any fun worker => worker.node.nodeId = row.nodeId && worker.phase.isLive

/-- A child holds its slice until it is closed, and then what it has used. -/
def share (kind : BudgetKind) (family : DelegatingRun) (row : NodeRow) : Nat :=
  if row.nodeId = family.graph.rootNodeId then 0
  else if s.isClosed row then (s.child row.nodeId).started
  else row.spec.budgets.getD kind.value 0

def held (kind : BudgetKind) (family : DelegatingRun) : Nat :=
  (s.graph.db.nodes.map (s.share kind family)).sum

/-- The slice of every child. -/
def slice (kind : BudgetKind) : Nat :=
  Dict.getD [("tool_calls", 6), ("external_writes", 2)] kind.value 0

/-- The child's own limit counts what the child has done: a resumed lifetime takes over all calls
that have been started, and no batch asks for more writes than are left. -/
def childCounts (kind : BudgetKind) (run : RootRun) (child : CountedRun) (label : RunStep) : Bool :=
  match kind with
  | .externalWrites => WriteSystem.writesCounted run ⟨child.system, child.started⟩ label
  | _ => child.callsRemembered run label

/-- Each step takes what is left of the limit: when a batch of the root begins and when a child
is spawned, it fits beside what the root has started and what the children hold. -/
def takesWhatIsLeft (kind : BudgetKind) (family : DelegatingRun) : FamilyStep → Bool
  | .root (.harness .begin) => s.root.system.harness.all fun h =>
      (WriteSystem.beginning h.phase).all fun calls =>
        (family.definition.limit? kind).all fun n =>
          s.root.started + h.inv.registry.uses kind calls + s.held kind family ≤ n
  | .graph (.call i _ _) => s.graph.calls[i]?.all fun call =>
      match call.phase with
      | .spawning _ _ _ => (family.definition.limit? kind).all fun n =>
          s.rootHeld kind + s.held kind family + slice kind ≤ n
      | _ => true
  | .child nodeId label => childCounts kind (family.childRun nodeId) (s.child nodeId) label
  | _ => true

end FamilySystem

end Codex2Lark
