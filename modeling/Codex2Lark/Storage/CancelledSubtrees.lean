import Codex2Lark.Storage.NodeEnds

/-!
What the cancellation of an agent node does to its subtree. The cascade ends every
descendant there is; a spawn does not look at the status of the parent.
-/

namespace Codex2Lark

open Lib AgentStore Relation

/-- Every descendant of a cancelled node has ended. -/
def CancelledClosed (db : GraphDatabase) : Prop :=
  ∀ ancestor, EndedAs db ancestor .cancelled →
    ∀ id, TransGen (IsParentOf db) ancestor id → HasEnded db id

/-- An accepted child has no cancelled ancestor. -/
def RespectsCancellation (db : GraphDatabase) : GraphOp → Prop
  | .spawnChild graphId parentNodeId spec ready nodeId nowMs =>
      (∃ result, spawnChild graphId parentNodeId spec ready nodeId nowMs db = .ok result) →
        ∀ ancestor, ReflTransGen (IsParentOf db) ancestor parentNodeId →
          ¬ EndedAs db ancestor .cancelled
  | _ => True

variable {floor : Int → Int} {db after : GraphDatabase}

theorem hasEnded_iff {id : String} : HasEnded db id ↔ ¬ IsOpen db id := by
  constructor
  · rintro hended ⟨row, hrow, hid, hopen⟩
    rw [hended row hrow hid] at hopen
    cases hopen
  · intro hclosed row hrow hid
    by_contra hopen
    exact hclosed ⟨row, hrow, hid, by simpa using hopen⟩

/-! ### The subtree -/

theorem descends_of_frame (hframe : GraphFrame db after) {ancestor id : String}
    (hdescends : TransGen (IsParentOf after) ancestor id) : TransGen (IsParentOf db) ancestor id :=
  TransGen.mono (fun parentId id => (isParentOf_of_frame hframe parentId id).mp) _ _ hdescends

theorem mem_children {parentIds : List String} {id : String} :
    (id ∈ parentIds.flatMap fun parentId =>
      (db.nodes.filter fun row => row.parentNodeId = some parentId).map NodeRow.nodeId) ↔
      ∃ parentId ∈ parentIds, IsParentOf db parentId id := by
  simp only [List.mem_flatMap, List.mem_map, List.mem_filter, decide_eq_true_eq, IsParentOf]
  constructor
  · rintro ⟨parentId, hmem, row, ⟨hrow, hparent⟩, hid⟩
    exact ⟨parentId, hmem, row, hrow, hid, hparent⟩
  · rintro ⟨parentId, hmem, row, hrow, hid, hparent⟩
    exact ⟨parentId, hmem, row, ⟨hrow, hparent⟩, hid⟩

/-- The recursive query closes under children. The generations do not run out,
because each of them is one level deeper and no depth exceeds the number of nodes. -/
theorem descendants_closed (hshape : GraphShape db) {generations : Nat} {current : List String}
    (hdeep : ∀ row ∈ db.nodes, row.nodeId ∈ current → db.nodes.length < row.depth + generations)
    {parentId id : String} (hparent : parentId ∈ descendants db.nodes generations current)
    (hchild : IsParentOf db parentId id) : id ∈ descendants db.nodes generations current := by
  induction generations generalizing current with
  | zero => exact absurd hparent List.not_mem_nil
  | succ generations ih =>
      have hnext : ∀ row ∈ db.nodes, (row.nodeId ∈ current.flatMap fun parentId =>
          (db.nodes.filter fun row => row.parentNodeId = some parentId).map NodeRow.nodeId) →
          db.nodes.length < row.depth + generations := by
        intro row hrow hmem
        obtain ⟨above, habove, other, hother, hid, hof⟩ := mem_children.mp hmem
        rw [hshape.node_eq hother hrow hid] at hof
        obtain ⟨parent, hparentMem, hparentId, _, hdepth⟩ := hshape.parentOf row hrow above hof
        have := hdeep parent hparentMem (hparentId ▸ habove)
        omega
      unfold descendants at hparent ⊢
      rcases List.mem_append.mp hparent with hhere | hbelow
      · have hmem := mem_children.mpr ⟨parentId, hhere, hchild⟩
        obtain ⟨row, hrow, hid, _⟩ := hchild
        have hmore := hnext row hrow (hid ▸ hmem)
        have hdepth := hshape.depthLe row hrow
        obtain ⟨fewer, rfl⟩ : ∃ fewer, generations = fewer + 1 := ⟨generations - 1, by omega⟩
        exact List.mem_append_right _ (List.mem_append_left _ hmem)
      · exact List.mem_append_right _ (ih hnext hbelow)

theorem subtree_closed (hshape : GraphShape db) {nodeId ancestor id : String}
    (hancestor : ancestor ∈ subtree db nodeId) (hdescends : TransGen (IsParentOf db) ancestor id) :
    id ∈ subtree db nodeId := by
  have hstep {parentId id : String} (hparent : parentId ∈ subtree db nodeId)
      (hchild : IsParentOf db parentId id) : id ∈ subtree db nodeId := by
    refine descendants_closed hshape ?_ hparent hchild
    intro row hrow _
    have := hshape.depthPos row hrow
    omega
  induction hdescends with
  | single hchild => exact hstep hancestor hchild
  | tail _ hchild ih => exact hstep ih hchild

theorem struckIds_subset {struck ids : List String} {id : String}
    (hid : id ∈ struckIds db struck ids) : id ∈ struck ∨ id ∈ ids := by
  induction ids generalizing struck with
  | nil => exact .inl hid
  | cons nodeId rest ih =>
      unfold struckIds at hid
      split at hid
      · rcases ih hid with hstruck | hrest
        · rcases List.mem_append.mp hstruck with hold | hnew
          · exact .inl hold
          · exact .inr (List.mem_cons.mpr (.inl (List.mem_singleton.mp hnew)))
        · exact .inr (List.mem_cons_of_mem _ hrest)
      · exact (ih hid).imp_right (List.mem_cons_of_mem _)

/-! ### Transactions -/

/-- Transactions that cancel no further node and open none. -/
theorem CancelledClosed.of_frame (hclosed : CancelledClosed db) (hframe : GraphFrame db after)
    (hopen : ∀ id, IsOpen after id → IsOpen db id)
    (hended : ∀ id, EndedAs after id .cancelled → EndedAs db id .cancelled) :
    CancelledClosed after := by
  intro ancestor hcancelled id hdescends
  rw [hasEnded_iff]
  intro hstill
  have hwas := hclosed ancestor (hended ancestor hcancelled) id (descends_of_frame hframe hdescends)
  exact hasEnded_iff.mp hwas (hopen id hstill)

theorem CancelledClosed.cancelSubtree (hshape : GraphShape db) (hclosed : CancelledClosed db)
    {nodeId : String} {nowMs : Int} {ids : List String}
    (hok : AgentStore.cancelSubtree floor nodeId nowMs db = .ok (ids, after)) :
    CancelledClosed after := by
  have hstruck := cancelSubtree_strikes hshape hok
  have hframe := (cancelSubtree_moves hshape hok).frame
  intro ancestor hcancelled id hdescends
  have hdescended := descends_of_frame hframe hdescends
  rcases (hstruck.endedAs ancestor .cancelled rfl).mp hcancelled with hwas | ⟨hnow, _⟩ | ⟨h, _⟩
  · rw [hasEnded_iff]
    intro hstill
    have hended := hclosed ancestor hwas id hdescended
    exact hasEnded_iff.mp hended ((hstruck.isOpen id).mp hstill).1
  · have hancestor := (struckIds_subset hnow).resolve_left List.not_mem_nil
    have hid := subtree_closed hshape hancestor hdescended
    exact cancelSubtree_ended hshape hok id hid
  · cases h

theorem CancelledClosed.createGraph (hclosed : CancelledClosed db) {args : CreateGraph} {graphId rootNodeId : String} {nowMs : Int}
    (hok : AgentStore.createGraph args graphId rootNodeId nowMs db = .ok ((), after)) :
    CancelledClosed after := by
  obtain ⟨_, hfresh, rfl⟩ := createGraph_ok hok
  intro ancestor hcancelled id hdescends
  have hwas := (endedAs_append rfl (by rfl) ancestor rfl).mp hcancelled
  have hbelow : TransGen (IsParentOf db) ancestor id := by
    refine TransGen.mono (fun parentId id hparent => ?_) _ _ hdescends
    rcases (isParentOf_append (GraphFrame.refl db).nodes rfl parentId id).mp hparent with
      hold | ⟨_, hnone⟩
    · exact hold
    · cases hnone
  rw [hasEnded_iff, isOpen_append rfl (by rfl)]
  rintro (hopen | hroot)
  · exact hasEnded_iff.mp (hclosed ancestor hwas id hbelow) hopen
  · obtain ⟨_, _, row, hrow, hid, _⟩ := TransGen.tail'_iff.mp hbelow
    exact hfresh row hrow (hid.trans hroot)

section Spawned

variable {graphId parentNodeId nodeId : String} {spec : NodeSpec} {ready : Bool} {nowMs : Int}
  {graph : GraphRow} {parent : NodeRow} {reserved : List LedgerRow}

/-- The new node has no children yet, so it is the last of its line. -/
theorem AgentStore.Spawned.descends (hshape : GraphShape db)
    (hspawned : Spawned db graphId parentNodeId spec ready nodeId nowMs after graph parent reserved)
    {ancestor id : String} (hdescends : TransGen (IsParentOf after) ancestor id) :
    TransGen (IsParentOf db) ancestor id ∨
      id = nodeId ∧ ReflTransGen (IsParentOf db) ancestor parentNodeId := by
  induction hdescends with
  | single hchild =>
      rcases (hspawned.isParentOf ancestor _).mp hchild with hold | ⟨hid, hparent⟩
      · exact .inl (.single hold)
      · exact .inr ⟨hid, hparent ▸ .refl⟩
  | tail _ hchild ih =>
      rcases (hspawned.isParentOf _ _).mp hchild with hold | ⟨hid, hparent⟩
      · rcases ih with hbefore | ⟨hnew, _⟩
        · exact .inl (.tail hbefore hold)
        · obtain ⟨row, hrow, _, hparent⟩ := hold
          obtain ⟨above, habove, haboveId, _⟩ := hshape.parentOf row hrow _ hparent
          exact absurd (haboveId.trans hnew) (hspawned.fresh above habove)
      · rcases ih with hbefore | ⟨hnew, _⟩
        · exact .inr ⟨hid, hparent ▸ hbefore.to_reflTransGen⟩
        · have hmem := hspawned.parentMem
          exact absurd (hspawned.parentIs.trans (hparent.symm.trans hnew)) (hspawned.fresh parent hmem)

theorem CancelledClosed.spawned_iff (hshape : GraphShape db) (hclosed : CancelledClosed db)
    (hspawned : Spawned db graphId parentNodeId spec ready nodeId nowMs after graph parent reserved) :
    CancelledClosed after ↔ ∀ ancestor, ReflTransGen (IsParentOf db) ancestor parentNodeId →
      ¬ EndedAs db ancestor .cancelled := by
  constructor
  · intro hafter ancestor hancestor hcancelled
    have hlonger : TransGen (IsParentOf after) ancestor nodeId := by
      refine TransGen.tail' ?_ ((hspawned.isParentOf parentNodeId nodeId).mpr (.inr ⟨rfl, rfl⟩))
      exact ReflTransGen.mono (fun a b h => (hspawned.isParentOf a b).mpr (.inl h)) _ _ hancestor
    have hended := hafter ancestor ((hspawned.endedAs hshape ancestor rfl).mpr hcancelled) nodeId
      hlonger
    exact hasEnded_iff.mp hended ((hspawned.isOpen hshape nodeId).mpr (.inr rfl))
  · intro hrespects ancestor hcancelled id hdescends
    have hwas := (hspawned.endedAs hshape ancestor rfl).mp hcancelled
    rcases hspawned.descends hshape hdescends with hold | ⟨_, hancestor⟩
    · have hended := hclosed ancestor hwas id hold
      rw [hasEnded_iff, hspawned.isOpen hshape]
      rintro (hopen | rfl)
      · exact hasEnded_iff.mp hended hopen
      · obtain ⟨_, _, row, hrow, hid, _⟩ := TransGen.tail'_iff.mp hold
        exact hspawned.fresh row hrow hid
    · exact absurd hwas (hrespects ancestor hancestor)

end Spawned

theorem GraphOp.cancelledClosed (hshape : GraphShape db) (hclosed : CancelledClosed db)
    {op : GraphOp} (hrespects : RespectsCancellation db op) :
    CancelledClosed (op.apply floor db) := by
  have heffect := effect floor db op
  revert heffect
  generalize op.apply floor db = after
  intro heffect
  cases heffect with
  | quiet hquiet =>
      have hrows := (hquiet.rows_quiet hshape).imp fun _ _ => QuietRow.sameEnd
      exact hclosed.of_frame (hquiet.moves : GraphMoves floor db after).frame
        (fun id => (isOpen_of_sameEnd hrows id).mp) fun id => (endedAs_of_sameEnd hrows id rfl).mp
  | fail hok =>
      have hstruck := failNode_strikes hshape hok
      refine hclosed.of_frame (failNode_moves hshape hok).frame
        (fun id hopen => ((hstruck.isOpen id).mp hopen).1) ?_
      intro id hcancelled
      rcases (hstruck.endedAs id .cancelled rfl).mp hcancelled with hwas | ⟨_, h⟩ | ⟨h, _⟩
      · exact hwas
      · cases h
      · cases h
  | complete hok =>
      have hends := completeNode_ends hshape hok
      refine hclosed.of_frame (completeNode_moves hok).frame
        (fun id hopen => ((hends.isOpen id).mp hopen).1) ?_
      intro id hcancelled
      rcases (hends.endedAs id .cancelled rfl).mp hcancelled with hwas | ⟨_, h⟩
      · exact hwas
      · cases h
  | cancel hok => exact hclosed.cancelSubtree hshape hok
  | create hok => exact hclosed.createGraph hok
  | spawn hok hspawned => exact (hclosed.spawned_iff hshape hspawned).mpr (hrespects ⟨_, hok⟩)

theorem GraphOp.respectsCancellation (hshape : GraphShape db) (hclosed : CancelledClosed db)
    (op : GraphOp) (hafter : CancelledClosed (op.apply floor db)) : RespectsCancellation db op := by
  cases op with
  | spawnChild graphId parentNodeId spec ready nodeId nowMs =>
      rintro ⟨⟨child, accepted⟩, hok⟩
      obtain ⟨graph, parent, reserved, hspawned⟩ := spawnChild_ok hok
      refine (hclosed.spawned_iff hshape hspawned).mp ?_
      simpa only [apply, GraphDatabase.transaction, hok] using hafter
  | _ => trivial

/-! ### Runs -/

/-- A run keeps the descendants of the cancelled nodes ended if and only if no
accepted child has a cancelled ancestor. -/
theorem cancelled_closed_iff (ops : List GraphOp) :
    Always (GraphOp.step clampZero) CancelledClosed ops {} ↔
      Along (GraphOp.step clampZero) RespectsCancellation ops {} := by
  refine always_iff_along (I := fun db => GraphShape db ∧ CancelledClosed db) ?_
    (fun _ hinv => hinv.2) ?_ ⟨.empty, ?_⟩
  · rintro db op after ⟨hshape, hclosed⟩ hrespects hstep
    cases hstep
    exact ⟨GraphOp.shape hshape op, GraphOp.cancelledClosed hshape hclosed hrespects⟩
  · rintro db op ⟨hshape, hclosed⟩ hafter
    exact GraphOp.respectsCancellation hshape hclosed op (hafter _ rfl)
  · rintro ancestor ⟨row, hrow, _⟩
    cases hrow

/-- A test that fails once a child of a cancelled node is open. -/
def childrenOfCancelledEnded (db : GraphDatabase) : Bool :=
  db.nodes.all fun row => row.status.isTerminal ||
    !db.nodes.any fun parent => row.parentNodeId = some parent.nodeId && parent.status = .cancelled

theorem CancelledClosed.children_ended (hclosed : CancelledClosed db) :
    childrenOfCancelledEnded db = true := by
  rw [childrenOfCancelledEnded, List.all_eq_true]
  intro row hrow
  by_contra hopen
  simp only [Bool.or_eq_true, Bool.not_eq_true', not_or, Bool.not_eq_true, Bool.not_eq_false,
    List.any_eq_true, Bool.and_eq_true, decide_eq_true_eq] at hopen
  obtain ⟨hstill, parent, hparent, hof, hcancelled⟩ := hopen
  have hended := hclosed parent.nodeId ⟨parent, hparent, rfl, hcancelled⟩ row.nodeId
    (.single ⟨row, hrow, rfl, hof⟩) row hrow rfl
  rw [hstill] at hended
  cases hended

/-- A verifier that is spawned for an author after the author was cancelled is ready. -/
theorem cancelled_parent_gets_ready_child :
    let spec (name : String) (role : AgentRole) : NodeSpec :=
      { name, role, taskBrief := "Do it.", expectedOutputType := "report", toolIds := []
        budgets := [] }
    ¬ Always (GraphOp.step clampZero) CancelledClosed
      [.createGraph ⟨"run", "tenant", spec "root" .orchestrator, {}⟩ "graph" "root" 0,
        .spawnChild "graph" "root" (spec "author" .author) true "author" 1,
        .cancelSubtree "author" 2,
        .spawnChild "graph" "author" (spec "verifier" .verifier) true "verifier" 3] {} := by
  intro spec
  exact not_always_of_check (fun _ => CancelledClosed.children_ended) (by decide +kernel)

end Codex2Lark
