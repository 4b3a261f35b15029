import Codex2Lark.Storage.LockExclusion

/-!
Which nodes own resource locks. A node that completes, fails or is cancelled gives its
locks up; one that is blocked because a predecessor ended keeps them.
-/

namespace Codex2Lark

open Lib AgentStore

/-- No node in a terminal status owns a lock. -/
def TerminalOwnsNoLock (db : GraphDatabase) : Prop :=
  ∀ lock ∈ db.locks, ∀ row ∈ db.nodes, row.nodeId = lock.ownerNodeId →
    row.status.isTerminal = false

instance (db : GraphDatabase) : Decidable (TerminalOwnsNoLock db) :=
  inferInstanceAs (Decidable (∀ lock ∈ db.locks, _))

/-- No owner of a lock depends directly on one of the nodes, unless it is one of them. -/
def DependentsUnlocked (db : GraphDatabase) (ids : List String) : Prop :=
  ∀ lock ∈ db.locks, lock.ownerNodeId ∉ ids → ¬ DependsOn db lock.ownerNodeId ids

instance (db : GraphDatabase) (ids : List String) : Decidable (DependentsUnlocked db ids) :=
  inferInstanceAs (Decidable (∀ lock ∈ db.locks, _))

/-- The nodes that a failure or a cancellation blocks own no lock. -/
def BlocksUnlocked (db : GraphDatabase) : GraphOp → Prop
  | .failNode nodeId workerId _ =>
      (ownedNode db nodeId workerId).isOk = true → DependentsUnlocked db [nodeId]
  | .cancelSubtree nodeId _ => DependentsUnlocked db (struckIds db [] (subtree db nodeId))
  | _ => True

instance (db : GraphDatabase) : (op : GraphOp) → Decidable (BlocksUnlocked db op)
  | .failNode nodeId workerId _ =>
      inferInstanceAs (Decidable ((ownedNode db nodeId workerId).isOk = true →
        DependentsUnlocked db [nodeId]))
  | .cancelSubtree nodeId _ =>
      inferInstanceAs (Decidable (DependentsUnlocked db (struckIds db [] (subtree db nodeId))))
  | .createGraph .. | .spawnChild .. | .activateNode .. | .leaseReady .. | .interruptNode ..
  | .completeNode .. | .finishGraph .. | .sendMail .. | .receiveMail .. | .acknowledgeMail ..
  | .acquireLock .. | .releaseLocks .. | .acquireRootWriteScope .. | .releaseWriteScope ..
  | .listLocks .. | .ownsWriteScope .. | .renewWriteScope .. => .isTrue trivial

/-- Every lock belongs to an open node. -/
def OwnersOpen (db : GraphDatabase) : Prop :=
  ∀ lock ∈ db.locks, IsOpen db lock.ownerNodeId

variable {floor : Int → Int} {db after : GraphDatabase}

theorem OwnersOpen.terminalOwnsNoLock (hshape : GraphShape db) (howners : OwnersOpen db) :
    TerminalOwnsNoLock db := by
  intro lock hlock row hrow hid
  obtain ⟨owner, howner, hownerId, hopen⟩ := howners lock hlock
  rw [hshape.node_eq hrow howner (hid.trans hownerId.symm)]
  exact hopen

/-! ### Who is given a lock -/

theorem acquireLock_open {graphId nodeId : String} {target : ResourceTarget} {nowMs leaseMs : Int}
    {granted : Bool}
    (hok : acquireLock graphId nodeId target nowMs leaseMs db = .ok (granted, after)) :
    IsOpen db nodeId := by
  unfold acquireLock at hok
  split at hok
  · cases hok
  · split at hok
    · cases hok
    · rename_i hany
      have hfound : (db.nodes.any fun row => row.graphId = graphId && row.nodeId = nodeId &&
          (row.status = .created || row.status = .ready || row.status = .running)) = true := by
        rwa [Bool.not_eq_true', Bool.not_eq_false] at hany
      obtain ⟨row, hrow, his⟩ := List.any_eq_true.mp hfound
      simp only [Bool.and_eq_true, Bool.or_eq_true, decide_eq_true_eq] at his
      obtain ⟨⟨_, hid⟩, hstatus⟩ := his
      refine ⟨row, hrow, hid, ?_⟩
      rcases hstatus with (h | h) | h <;> rw [h] <;> rfl

theorem acquireRootWriteScope_open {rootRunId tenantKey : String} {target : WriteScopeTarget}
    {nowMs leaseMs : Int} {owner : String}
    (hok : acquireRootWriteScope rootRunId tenantKey target nowMs leaseMs db =
      .ok (some owner, after)) : IsOpen db owner := by
  unfold acquireRootWriteScope at hok
  split at hok
  · cases hok
  · split at hok
    · cases hok
    · split at hok
      · cases hok
      · rename_i root hroot
        split at hok
        · cases hok
        · split at hok
          · cases hok
          · rename_i hactive
            generalize takeLock _ _ = taken at hok
            have howner := congrArg Prod.fst (Except.ok.inj hok)
            simp only at howner
            have hgrants : grantsRootWrites root.status = true := by
              by_contra hrefuses
              exact hactive (.inr (by simpa using hrefuses))
            split at howner
            · cases howner
              refine ⟨root, List.mem_of_find?_eq_some hroot, by simpa using List.find?_some hroot, ?_⟩
              simp only [grantsRootWrites, Bool.or_eq_true, decide_eq_true_eq] at hgrants
              rcases hgrants with (h | h) | h <;> rw [h] <;> rfl
            · cases howner

theorem GraphOp.granted_open (howners : OwnersOpen db) {op : GraphOp} {owner : String}
    {key : LockKey} (hgranted : (op.grantedExpiry db owner key).isSome) : IsOpen db owner := by
  cases op with
  | acquireLock graphId nodeId target nowMs leaseMs =>
      simp only [grantedExpiry] at hgranted
      split at hgranted
      · rename_i hok
        obtain ⟨expiry, hexpiry⟩ := Option.isSome_iff_exists.mp hgranted
        obtain ⟨⟨rfl, _⟩, _⟩ := Option.ite_none_right_eq_some.mp hexpiry
        exact acquireLock_open hok
      · cases hgranted
  | acquireRootWriteScope rootRunId tenantKey target nowMs leaseMs =>
      simp only [grantedExpiry] at hgranted
      split at hgranted
      · rename_i hok
        obtain ⟨expiry, hexpiry⟩ := Option.isSome_iff_exists.mp hgranted
        obtain ⟨⟨rfl, _⟩, _⟩ := Option.ite_none_right_eq_some.mp hexpiry
        exact acquireRootWriteScope_open hok
      · cases hgranted
  | renewWriteScope ownerId targets nowMs leaseMs =>
      obtain ⟨expiry, hexpiry⟩ := Option.isSome_iff_exists.mp hgranted
      obtain ⟨⟨_, rfl, _, _, lock, hlock, hrenewable, _⟩, _⟩ :=
        Option.ite_none_right_eq_some.mp hexpiry
      simp only [isRenewable, Bool.and_eq_true, decide_eq_true_eq] at hrenewable
      exact hrenewable.1.1.1.1 ▸ howners lock hlock
  | _ => cases hgranted

/-- A row after the transaction was there before, with its owner, or has just been
granted. -/
theorem GraphOp.LockEffect.mem_after {clock : Int} {op : GraphOp}
    (heffect : LockEffect floor clock db op after) (hunique : UniqueLocks db) {lock : LockRow}
    (hlock : lock ∈ after.locks) :
    (∃ old ∈ db.locks, old.ownerNodeId = lock.ownerNodeId) ∨
      (op.grantedExpiry db lock.ownerNodeId lock.key).isSome := by
  cases heffect with
  | drop cond hlocks _ _ =>
      rw [hlocks] at hlock
      exact .inl ⟨lock, (Table.mem_delete.mp hlock).1, rfl⟩
  | take taken hlocks hgrants =>
      have hpurged : UniqueLocks (purgeLocks db (op.nowMs clock)) := hunique.delete rfl
      rw [hlocks] at hlock
      rcases takeLock_cases hpurged taken with ⟨_, htake⟩ | ⟨existing, hmem, _, hcase⟩
      · rw [htake] at hlock
        rcases List.mem_append.mp hlock with hold | hnew
        · exact .inl ⟨lock, (mem_purgeLocks.mp hold).1, rfl⟩
        · right
          rw [List.mem_singleton.mp hnew, hgrants, htake]
          simp
      · rcases hcase with ⟨_, htake⟩ | ⟨_, htake⟩
        · rw [htake] at hlock
          exact .inl ⟨lock, (mem_purgeLocks.mp hlock).1, rfl⟩
        · rw [htake] at hlock
          rcases Table.mem_update_cases hlock with ⟨hold, _⟩ | ⟨old, hold, _, rfl⟩
          · exact .inl ⟨lock, (mem_purgeLocks.mp hold).1, rfl⟩
          · exact .inl ⟨old, (mem_purgeLocks.mp hold).1, rfl⟩
  | renew ownerId targets nowMs leaseMs _ _ hlocks _ =>
      rw [hlocks] at hlock
      rcases Table.mem_update_cases hlock with ⟨hold, _⟩ | ⟨old, hold, _, rfl⟩
      · exact .inl ⟨lock, hold, rfl⟩
      · exact .inl ⟨old, hold, rfl⟩

/-! ### Transactions -/

/-- The owners stay open exactly when no dependent of the struck nodes owns a lock. -/
theorem OwnersOpen.struck_iff (howners : OwnersOpen db) {status : NodeStatus} {ids : List String}
    (hstruck : Struck status ids db after)
    (hlocks : after.locks = Table.delete (fun lock => lock.ownerNodeId ∈ ids) db.locks) :
    OwnersOpen after ↔ DependentsUnlocked db ids := by
  constructor
  · intro hafter lock hlock hnotIn
    have hkept : lock ∈ after.locks := by
      rw [hlocks, Table.mem_delete]
      exact ⟨hlock, by simpa using hnotIn⟩
    exact ((hstruck.isOpen _).mp (hafter lock hkept)).2.2
  · intro hunlocked lock hlock
    rw [hlocks, Table.mem_delete] at hlock
    have hnotIn : lock.ownerNodeId ∉ ids := by simpa using hlock.2
    exact (hstruck.isOpen _).mpr ⟨howners lock hlock.1, hnotIn, hunlocked lock hlock.1 hnotIn⟩

theorem failNode_owners_iff (hshape : GraphShape db) (howners : OwnersOpen db)
    {nodeId workerId : String} {nowMs : Int} {u : Unit}
    (hok : AgentStore.failNode floor nodeId workerId nowMs db = .ok (u, after)) :
    OwnersOpen after ↔ DependentsUnlocked db [nodeId] := by
  refine howners.struck_iff (failNode_strikes hshape hok) ?_
  rw [failNode_locks hok]
  simp

theorem cancelSubtree_owners_iff (hshape : GraphShape db) (howners : OwnersOpen db)
    {nodeId : String} {nowMs : Int} {ids : List String}
    (hok : AgentStore.cancelSubtree floor nodeId nowMs db = .ok (ids, after)) :
    OwnersOpen after ↔ DependentsUnlocked db (struckIds db [] (subtree db nodeId)) :=
  howners.struck_iff (cancelSubtree_strikes hshape hok) (cancelSubtree_locks hshape hok)

/-- The rows are unique and belong to open nodes. -/
structure LocksOwned (db : GraphDatabase) : Prop where
  shape : GraphShape db
  unique : UniqueLocks db
  owners : OwnersOpen db

theorem LocksOwned.apply (howned : LocksOwned db) {op : GraphOp} (hblocks : BlocksUnlocked db op) :
    LocksOwned (op.apply floor db) := by
  have hshape := howned.shape
  have hlockEffect := GraphOp.lockEffect floor 0 hshape op
  refine ⟨GraphOp.shape hshape op, hlockEffect.unique howned.unique, ?_⟩
  have heffect := GraphOp.effect floor db op
  revert heffect hlockEffect
  generalize op.apply floor db = after
  intro hlockEffect heffect
  -- Nothing that a transaction below leaves open loses a row, and what is granted is open.
  have hquiet (hopen : ∀ id, IsOpen db id → IsOpen after id) : OwnersOpen after := by
    intro lock hlock
    rcases hlockEffect.mem_after howned.unique hlock with ⟨old, hold, howner⟩ | hgranted
    · exact hopen _ (howner ▸ howned.owners old hold)
    · exact hopen _ (GraphOp.granted_open howned.owners hgranted)
  cases heffect with
  | quiet hmoves =>
      have hrows := (hmoves.rows_quiet hshape).imp fun _ _ => QuietRow.sameEnd
      exact hquiet fun id => (isOpen_of_sameEnd hrows id).mpr
  | fail hok =>
      obtain ⟨row, hrow, _⟩ := PyError.bind_eq_ok.mp hok
      exact (failNode_owners_iff hshape howned.owners hok).mpr (hblocks (by rw [hrow]; rfl))
  | complete hok =>
      have hends := completeNode_ends hshape hok
      intro lock hlock
      rw [completeNode_locks hok, Table.mem_delete] at hlock
      refine (hends.isOpen _).mpr ⟨howned.owners lock hlock.1, ?_⟩
      simpa using hlock.2
  | cancel hok => exact (cancelSubtree_owners_iff hshape howned.owners hok).mpr hblocks
  | create hok =>
      obtain ⟨_, _, rfl⟩ := createGraph_ok hok
      exact hquiet fun id hopen => (isOpen_append rfl (by rfl) id).mpr (.inl hopen)
  | spawn _ hspawned =>
      exact hquiet fun id hopen => (hspawned.isOpen hshape id).mpr (.inl hopen)

/-- Locks of nodes that exist. -/
theorem TerminalOwnsNoLock.ownersOpen (hnone : TerminalOwnsNoLock after)
    (hframe : GraphFrame db after) {cond : LockRow → Bool}
    (hlocks : after.locks = Table.delete cond db.locks) (howners : OwnersOpen db) :
    OwnersOpen after := by
  intro lock hlock
  have hold := hlock
  rw [hlocks, Table.mem_delete] at hold
  obtain ⟨row, hrow, hid, _⟩ := howners lock hold.1
  obtain ⟨moved, hmoved, hsame⟩ := Table.Forall₂.of_mem_left hframe.nodes hrow
  have hmovedId : moved.nodeId = lock.ownerNodeId := hsame.nodeId.symm.trans hid
  exact ⟨moved, hmoved, hmovedId, hnone lock hlock moved hmoved hmovedId⟩

/-- A transaction after which no terminal node owns a lock met the condition. -/
theorem LocksOwned.blocksUnlocked (howned : LocksOwned db) (op : GraphOp)
    (hafter : TerminalOwnsNoLock (op.apply floor db)) : BlocksUnlocked db op := by
  have hshape := howned.shape
  cases op with
  | failNode nodeId workerId nowMs =>
      intro hfound
      cases hrow : ownedNode db nodeId workerId with
      | error e =>
          rw [hrow] at hfound
          cases hfound
      | ok row =>
          have hok : AgentStore.failNode floor nodeId workerId nowMs db = .ok ((), _) :=
            PyError.bind_eq_ok.mpr ⟨row, hrow, rfl⟩
          simp only [GraphOp.apply, GraphDatabase.transaction, hok] at hafter
          exact (failNode_owners_iff hshape howned.owners hok).mp
            (hafter.ownersOpen (failNode_moves hshape hok).frame (failNode_locks hok) howned.owners)
  | cancelSubtree nodeId nowMs =>
      have hok : AgentStore.cancelSubtree floor nodeId nowMs db = .ok (_, _) := rfl
      exact (cancelSubtree_owners_iff hshape howned.owners hok).mp
        (hafter.ownersOpen (cancelSubtree_moves hshape hok).frame (cancelSubtree_locks hshape hok)
          howned.owners)
  | _ => trivial

/-! ### Runs -/

/-- No terminal node ever owns a lock if and only if every failure and cancellation of
the run finds the dependents that it blocks without locks. -/
theorem terminal_nodes_own_no_lock_iff (ops : List GraphOp) :
    Always (GraphOp.step clampZero) TerminalOwnsNoLock ops {} ↔
      Along (GraphOp.step clampZero) BlocksUnlocked ops {} := by
  refine always_iff_along (I := LocksOwned) ?_ ?_ ?_ ⟨.empty, List.nodup_nil, ?_⟩
  · intro db op after howned hblocks hstep
    cases hstep
    exact howned.apply hblocks
  · exact fun db howned => howned.owners.terminalOwnsNoLock howned.shape
  · intro db op howned hafter
    exact howned.blocksUnlocked op (hafter _ rfl)
  · exact fun _ hlock => absurd hlock List.not_mem_nil

/-- A writer that holds its lock in `created` is blocked by the failure of the node that
it depends on, and keeps the lock. -/
theorem blocked_writer_keeps_lock :
    let spec (name : String) (role : AgentRole) (dependencies : List String) : NodeSpec :=
      { name, role, taskBrief := "Write it up.", expectedOutputType := "report"
        toolIds := [], budgets := [], dependencyNodeIds := dependencies }
    ¬ Always (GraphOp.step clampZero) TerminalOwnsNoLock
      [.createGraph ⟨"run", "tenant", spec "root" .orchestrator [], {}⟩ "graph" "root" 0,
        .spawnChild "graph" "root" (spec "a" .researcher []) true "a" 1,
        .spawnChild "graph" "root" (spec "b" .author ["a"]) false "b" 2,
        .acquireLock "graph" "b" ⟨"tenant", "docx", "handbook", none⟩ 3 300000,
        .leaseReady "graph" ⟨"worker", 4, 60000, 1⟩, .failNode "a" "worker" 5] {} := by
  intro spec
  exact not_always_of_check (P := TerminalOwnsNoLock)
    (fun _ hnone => decide_eq_true hnone) (by decide +kernel)

end Codex2Lark
