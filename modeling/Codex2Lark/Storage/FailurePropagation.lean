import Codex2Lark.Storage.NodeEnds

/-!
What the failure of an agent node does to the nodes that depend on it. The store
blocks the direct dependents only, and a spawn does not look at the status of the
dependencies it names.
-/

namespace Codex2Lark

open Lib AgentStore

/-- The node failed, was blocked or was cancelled. -/
def IsDead (db : GraphDatabase) (nodeId : String) : Prop :=
  EndedAs db nodeId .failed ∨ EndedAs db nodeId .blocked ∨ EndedAs db nodeId .cancelled

instance (db : GraphDatabase) (nodeId : String) : Decidable (IsDead db nodeId) :=
  inferInstanceAs (Decidable (_ ∨ _ ∨ _))

/-- No open node depends on a node that failed, was blocked or was cancelled. -/
def FailurePropagated (db : GraphDatabase) : Prop :=
  ∀ edge ∈ db.edges, IsOpen db edge.dependentNodeId → ¬ IsDead db edge.predecessorNodeId

instance (db : GraphDatabase) : Decidable (FailurePropagated db) :=
  inferInstanceAs (Decidable (∀ edge ∈ db.edges, _))

/-- Each open dependent of an open node that depends on one of the nodes is one of
them, or depends directly on one of them too. -/
def Contained (db : GraphDatabase) (ids : List String) : Prop :=
  ∀ edge ∈ db.edges, IsOpen db edge.predecessorNodeId → DependsOn db edge.predecessorNodeId ids →
    IsOpen db edge.dependentNodeId →
    edge.dependentNodeId ∈ ids ∨ DependsOn db edge.dependentNodeId ids

instance (db : GraphDatabase) (ids : List String) : Decidable (Contained db ids) :=
  inferInstanceAs (Decidable (∀ edge ∈ db.edges, _))

/-- The nodes that a failure or a cancellation ends are `Contained`, and an accepted
child depends on no dead node. -/
def ContainsFailure (db : GraphDatabase) : GraphOp → Prop
  | .failNode nodeId workerId _ =>
      (∃ row, ownedNode db nodeId workerId = .ok row) → Contained db [nodeId]
  | .cancelSubtree nodeId _ => Contained db (struckIds db [] (subtree db nodeId))
  | .spawnChild graphId parentNodeId spec ready nodeId nowMs =>
      (∃ result, spawnChild graphId parentNodeId spec ready nodeId nowMs db = .ok result) →
        ∀ dependencyId ∈ spec.dependencyNodeIds, ¬ IsDead db dependencyId
  | _ => True

variable {floor : Int → Int} {db after : GraphDatabase}

/-! ### Dead nodes after a transaction -/

theorem isDead_of_endedAs (hended : ∀ id ended, ended.isTerminal = true →
    (EndedAs after id ended ↔ EndedAs db id ended)) (id : String) :
    IsDead after id ↔ IsDead db id := by
  unfold IsDead
  rw [hended id .failed rfl, hended id .blocked rfl, hended id .cancelled rfl]

theorem Struck.isDead {status : NodeStatus} {ids : List String} (hstruck : Struck status ids db after)
    (hstatus : status = .failed ∨ status = .cancelled) (id : String) :
    IsDead after id ↔ IsDead db id ∨ id ∈ ids ∨ IsOpen db id ∧ id ∉ ids ∧ DependsOn db id ids := by
  unfold IsDead
  rw [hstruck.endedAs id .failed rfl, hstruck.endedAs id .blocked rfl,
    hstruck.endedAs id .cancelled rfl]
  rcases hstatus with rfl | rfl <;> simp only [reduceCtorEq, and_true, and_false, false_and,
    true_and, or_false, false_or] <;> tauto

theorem EndsExactly.isDead {ids : List String} (hends : EndsExactly .completed ids db after)
    (id : String) : IsDead after id ↔ IsDead db id := by
  unfold IsDead
  rw [hends.endedAs id .failed rfl, hends.endedAs id .blocked rfl,
    hends.endedAs id .cancelled rfl]
  simp

/-! ### The failures that a transaction propagates -/

theorem FailurePropagated.of_same (hpropagated : FailurePropagated db) (hedges : after.edges = db.edges)
    (hopen : ∀ id, IsOpen after id → IsOpen db id) (hdead : ∀ id, IsDead after id ↔ IsDead db id) :
    FailurePropagated after := by
  intro edge hedge hdependent
  rw [hedges] at hedge
  rw [hdead]
  exact hpropagated edge hedge (hopen _ hdependent)

theorem FailurePropagated.struck_iff (hpropagated : FailurePropagated db) {status : NodeStatus}
    {ids : List String} (hstruck : Struck status ids db after)
    (hstatus : status = .failed ∨ status = .cancelled) :
    FailurePropagated after ↔ Contained db ids := by
  constructor
  · intro hafter edge hedge hpredecessor hdepends hdependent
    by_contra hmissed
    obtain ⟨hnotIn, hnotDepends⟩ := not_or.mp hmissed
    have hstill := (hstruck.isOpen _).mpr ⟨hdependent, hnotIn, hnotDepends⟩
    refine hafter edge (by rw [hstruck.edges]; exact hedge) hstill ?_
    rw [hstruck.isDead hstatus]
    by_cases hin : edge.predecessorNodeId ∈ ids
    · exact .inr (.inl hin)
    · exact .inr (.inr ⟨hpredecessor, hin, hdepends⟩)
  · intro hcontained edge hedge hstill hdead
    rw [hstruck.edges] at hedge
    obtain ⟨hdependent, hnotIn, hnotDepends⟩ := (hstruck.isOpen _).mp hstill
    rcases (hstruck.isDead hstatus _).mp hdead with hwas | hin | ⟨hpredecessor, _, hdepends⟩
    · exact hpropagated edge hedge hdependent hwas
    · exact hnotDepends ⟨edge, hedge, rfl, hin⟩
    · rcases hcontained edge hedge hpredecessor hdepends hdependent with hin | hdirect
      · exact hnotIn hin
      · exact hnotDepends hdirect

section Spawned

variable {graphId parentNodeId nodeId : String} {spec : NodeSpec} {ready : Bool} {nowMs : Int}
  {graph : GraphRow} {parent : NodeRow} {reserved : List LedgerRow}

theorem FailurePropagated.spawned_iff (hshape : GraphShape db) (hpropagated : FailurePropagated db)
    (hspawned : Spawned db graphId parentNodeId spec ready nodeId nowMs after graph parent reserved) :
    FailurePropagated after ↔ ∀ d ∈ spec.dependencyNodeIds, ¬ IsDead db d := by
  have hdead := isDead_of_endedAs fun id _ => hspawned.endedAs hshape id
  have hedges : after.edges =
      db.edges ++ spec.dependencyNodeIds.map fun d => ⟨graphId, d, nodeId⟩ := by
    rw [hspawned.result]
  constructor
  · intro hafter d hd
    rw [← hdead]
    refine hafter ⟨graphId, d, nodeId⟩ ?_ ((hspawned.isOpen hshape nodeId).mpr (.inr rfl))
    rw [hedges]
    exact List.mem_append_right _ (List.mem_map_of_mem hd)
  · intro halive edge hedge hdependent
    rw [hdead]
    rw [hedges] at hedge
    rcases List.mem_append.mp hedge with hold | hnew
    · rcases (hspawned.isOpen hshape _).mp hdependent with hopen | hfresh
      · exact hpropagated edge hold hopen
      · obtain ⟨row, hrow, hid, _⟩ := hshape.dependentOf edge hold
        exact absurd (hid.trans hfresh) (hspawned.fresh row hrow)
    · obtain ⟨d, hd, rfl⟩ := List.mem_map.mp hnew
      exact halive d hd

end Spawned

theorem FailurePropagated.createGraph (hpropagated : FailurePropagated db)
    (hshape : GraphShape db) {args : CreateGraph} {graphId rootNodeId : String} {nowMs : Int}
    (hok : AgentStore.createGraph args graphId rootNodeId nowMs db = .ok ((), after)) :
    FailurePropagated after := by
  obtain ⟨_, hfresh, rfl⟩ := createGraph_ok hok
  intro edge hedge hdependent
  rw [isDead_of_endedAs fun id _ => endedAs_append rfl (by rfl) id]
  rcases (isOpen_append rfl (by rfl) _).mp hdependent with hopen | hroot
  · exact hpropagated edge hedge hopen
  · obtain ⟨row, hrow, hid, _⟩ := hshape.dependentOf edge hedge
    exact absurd (hid.trans hroot) (hfresh row hrow)

theorem GraphOp.failurePropagated (hshape : GraphShape db) (hpropagated : FailurePropagated db)
    {op : GraphOp} (hcontains : ContainsFailure db op) : FailurePropagated (op.apply floor db) := by
  have heffect := effect floor db op
  revert heffect
  generalize op.apply floor db = after
  intro heffect
  cases heffect with
  | quiet hquiet =>
      have hframe := (hquiet.moves : GraphMoves floor db after).frame
      have hrows := (hquiet.rows_quiet hshape).imp fun _ _ => QuietRow.sameEnd
      exact hpropagated.of_same hframe.edges (fun id => (isOpen_of_sameEnd hrows id).mp)
        (isDead_of_endedAs fun id _ => endedAs_of_sameEnd hrows id)
  | fail hok =>
      have howned := PyError.bind_eq_ok.mp hok
      obtain ⟨row, howned, _⟩ := howned
      exact (hpropagated.struck_iff (failNode_strikes hshape hok) (.inl rfl)).mpr
        (hcontains ⟨row, howned⟩)
  | complete hok =>
      have hends := completeNode_ends hshape hok
      exact hpropagated.of_same hends.edges (fun id h => ((hends.isOpen id).mp h).1) hends.isDead
  | cancel hok =>
      exact (hpropagated.struck_iff (cancelSubtree_strikes hshape hok) (.inr rfl)).mpr hcontains
  | create hok => exact hpropagated.createGraph hshape hok
  | spawn hok hspawned =>
      exact (hpropagated.spawned_iff hshape hspawned).mpr (hcontains ⟨_, hok⟩)

/-- A transaction that leaves every failure propagated met the condition. -/
theorem GraphOp.containsFailure (hshape : GraphShape db) (hpropagated : FailurePropagated db)
    (op : GraphOp) (hafter : FailurePropagated (op.apply floor db)) : ContainsFailure db op := by
  cases op with
  | failNode nodeId workerId nowMs =>
      rintro ⟨row, howned⟩
      have hok : AgentStore.failNode floor nodeId workerId nowMs db = .ok ((), _) :=
        PyError.bind_eq_ok.mpr ⟨row, howned, rfl⟩
      refine (hpropagated.struck_iff (failNode_strikes hshape hok) (.inl rfl)).mp ?_
      simpa only [apply, GraphDatabase.transaction, hok] using hafter
  | cancelSubtree nodeId nowMs =>
      have hok : AgentStore.cancelSubtree floor nodeId nowMs db = .ok (_, _) := rfl
      exact (hpropagated.struck_iff (cancelSubtree_strikes hshape hok) (.inr rfl)).mp hafter
  | spawnChild graphId parentNodeId spec ready nodeId nowMs =>
      rintro ⟨⟨child, accepted⟩, hok⟩
      obtain ⟨graph, parent, reserved, hspawned⟩ := spawnChild_ok hok
      refine (hpropagated.spawned_iff hshape hspawned).mp ?_
      simpa only [apply, GraphDatabase.transaction, hok] using hafter
  | _ => trivial

/-! ### Runs -/

/-- A run keeps every failure propagated if and only if each of its failures and
cancellations is contained and each accepted child depends on live nodes. -/
theorem failure_propagated_iff (ops : List GraphOp) :
    Always (GraphOp.step clampZero) FailurePropagated ops {} ↔
      Along (GraphOp.step clampZero) ContainsFailure ops {} := by
  refine always_iff_along (I := fun db => GraphShape db ∧ FailurePropagated db) ?_
    (fun _ hinv => hinv.2) ?_ ⟨.empty, fun _ hedge => absurd hedge List.not_mem_nil⟩
  · rintro db op after ⟨hshape, hpropagated⟩ hcontains hstep
    cases hstep
    exact ⟨GraphOp.shape hshape op, GraphOp.failurePropagated hshape hpropagated hcontains⟩
  · rintro db op ⟨hshape, hpropagated⟩ hafter
    exact GraphOp.containsFailure hshape hpropagated op (hafter _ rfl)

/-- The middle of a chain of three is blocked; the last one stays ready for ever. -/
theorem failure_stops_at_direct_dependents :
    let spec (name : String) (role : AgentRole) (dependencies : List String) : NodeSpec :=
      { name, role, taskBrief := "Look it up.", expectedOutputType := "report"
        toolIds := [], budgets := [], dependencyNodeIds := dependencies }
    ¬ Always (GraphOp.step clampZero) FailurePropagated
      [.createGraph ⟨"run", "tenant", spec "root" .orchestrator [], {}⟩ "graph" "root" 0,
        .spawnChild "graph" "root" (spec "a" .researcher []) true "a" 1,
        .spawnChild "graph" "root" (spec "b" .researcher ["a"]) true "b" 2,
        .spawnChild "graph" "root" (spec "c" .researcher ["b"]) true "c" 3,
        .leaseReady "graph" ⟨"worker", 4, 60000, 1⟩, .failNode "a" "worker" 5] {} := by
  intro spec
  exact not_always_of_check (P := FailurePropagated)
    (fun _ hpropagated => decide_eq_true hpropagated) (by decide +kernel)

end Codex2Lark
