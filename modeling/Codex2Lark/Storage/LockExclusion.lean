import Codex2Lark.Storage.NodeEnds

/-!
The resource locks over the runs of the agent graph store under one clock that does
not go back. A run carries, beside the tables, the expiry that every owner was last
granted on every key and has not released since.
-/

namespace Codex2Lark

open Lib AgentStore

/-- `PRIMARY KEY (tenant_key, resource_type, resource_id)`. -/
structure LockKey where
  tenantKey : String
  resourceType : String
  resourceId : String
deriving DecidableEq, Repr

def LockRow.key (lock : LockRow) : LockKey :=
  ⟨lock.tenantKey, lock.resourceType, lock.resourceId⟩

def UniqueLocks (db : GraphDatabase) : Prop := (db.locks.map LockRow.key).Nodup

namespace GraphOp

/-- The reading of the clock that the transaction is given; `clock` for one that is
given none. -/
def nowMs (clock : Int) : GraphOp → Int
  | .createGraph _ _ _ nowMs | .spawnChild _ _ _ _ _ nowMs | .activateNode _ nowMs
  | .failNode _ _ nowMs | .interruptNode _ nowMs | .completeNode _ _ _ _ nowMs
  | .cancelSubtree _ nowMs | .finishGraph _ _ _ nowMs | .acquireLock _ _ _ nowMs _
  | .acquireRootWriteScope _ _ _ nowMs _ | .listLocks _ nowMs | .ownsWriteScope _ _ nowMs
  | .renewWriteScope _ _ nowMs _ => nowMs
  | .leaseReady _ args => args.nowMs
  | .sendMail _ _ | .receiveMail _ | .acknowledgeMail _ _ | .releaseLocks _
  | .releaseWriteScope _ _ => clock

/-- The expiry that a successful acquisition or renewal grants to the owner on the
key. A renewal names no tenant: its keys are those of the rows it finds. -/
def grantedExpiry (db : GraphDatabase) (owner : String) (key : LockKey) : GraphOp → Option Int
  | .acquireLock graphId nodeId target nowMs leaseMs =>
      match AgentStore.acquireLock graphId nodeId target nowMs leaseMs db with
      | .ok (true, _) =>
          if owner = nodeId ∧ key = ⟨target.tenantKey, target.resourceType, target.resourceId⟩ then
            some (nowMs + leaseMs)
          else none
      | _ => none
  | .acquireRootWriteScope rootRunId tenantKey target nowMs leaseMs =>
      match AgentStore.acquireRootWriteScope rootRunId tenantKey target nowMs leaseMs db with
      | .ok (some ownerId, _) =>
          if owner = ownerId ∧ key = ⟨tenantKey, target.resourceType, target.resourceId⟩ then
            some (nowMs + leaseMs)
          else none
      | _ => none
  | .renewWriteScope ownerId targets nowMs leaseMs =>
      if (AgentStore.renewWriteScope ownerId targets nowMs leaseMs db).1 = true ∧ owner = ownerId ∧
          ∃ target ∈ targets, ∃ lock ∈ db.locks,
            isRenewable ownerId nowMs target lock = true ∧ lock.key = key then
        some (nowMs + leaseMs)
      else none
  | _ => none

/-- The node was open, and the transaction ended it other than by blocking it. -/
def Terminates (floor : Int → Int) (db : GraphDatabase) (op : GraphOp) (nodeId : String) : Prop :=
  IsOpen db nodeId ∧ (EndedAs (op.apply floor db) nodeId .completed ∨
    EndedAs (op.apply floor db) nodeId .failed ∨ EndedAs (op.apply floor db) nodeId .cancelled)

/-- The owner gives the key up, or its node is terminated or interrupted. -/
def Releases (floor : Int → Int) (db : GraphDatabase) (owner : String) (key : LockKey)
    (op : GraphOp) : Prop :=
  match op with
  | .releaseLocks nodeId => owner = nodeId
  | .releaseWriteScope ownerId target => owner = ownerId ∧
      key.resourceType = target.resourceType ∧ key.resourceId = target.resourceId
  | .interruptNode nodeId nowMs =>
      (AgentStore.interruptNode nodeId nowMs db).isOk = true ∧ owner = nodeId
  | op => op.Terminates floor db owner

instance (floor : Int → Int) (db : GraphDatabase) (op : GraphOp) (nodeId : String) :
    Decidable (op.Terminates floor db nodeId) :=
  inferInstanceAs (Decidable (_ ∧ _))

instance (floor : Int → Int) (db : GraphDatabase) (owner : String) (key : LockKey) (op : GraphOp) :
    Decidable (op.Releases floor db owner key) := by
  cases op <;> unfold Releases <;> infer_instance

end GraphOp

/-- The store, its clock, and the expiry last granted to every owner on every key
and not released since. -/
structure LockRun where
  db : GraphDatabase
  clock : Int
  granted : String → LockKey → Option Int

namespace LockRun

def start (clock : Int) : LockRun := ⟨{}, clock, fun _ _ => none⟩

def record (floor : Int → Int) (s : LockRun) (op : GraphOp) (owner : String) (key : LockKey) :
    Option Int :=
  match op.grantedExpiry s.db owner key with
  | some expiry => some expiry
  | none => if op.Releases floor s.db owner key then none else s.granted owner key

/-- A transaction whose clock would go back is not a step. -/
def step (floor : Int → Int) (s : LockRun) (op : GraphOp) : Option LockRun :=
  if op.nowMs s.clock < s.clock then none
  else some ⟨op.apply floor s.db, op.nowMs s.clock, s.record floor op⟩

/-- Nobody is granted a key while an expiry granted to another owner, and not
released since, is still ahead. -/
def Exclusive (s : LockRun) (op : GraphOp) : Prop :=
  s.clock ≤ op.nowMs s.clock → ∀ key first second, first ≠ second →
    (op.grantedExpiry s.db second key).isSome →
      ∀ expiry, s.granted first key = some expiry → expiry ≤ op.nowMs s.clock

end LockRun

/-! ### What the transactions do to the table of locks -/

variable {floor : Int → Int} {db after : GraphDatabase}

theorem UniqueLocks.delete (hunique : UniqueLocks db) {cond : LockRow → Bool}
    (hlocks : after.locks = Table.delete cond db.locks) : UniqueLocks after := by
  unfold UniqueLocks
  rw [hlocks]
  exact hunique.sublist (List.Sublist.map _ List.filter_sublist)

theorem UniqueLocks.update (hunique : UniqueLocks db) {cond : LockRow → Bool}
    {change : LockRow → LockRow} (hkey : ∀ lock, (change lock).key = lock.key)
    (hlocks : after.locks = Table.update cond change db.locks) : UniqueLocks after := by
  unfold UniqueLocks
  rw [hlocks, Table.map_update _ hkey]
  exact hunique

namespace AgentStore

theorem isLockOf_iff {tenantKey resourceType resourceId : String} {lock : LockRow} :
    isLockOf tenantKey resourceType resourceId lock = true ↔
      lock.key = ⟨tenantKey, resourceType, resourceId⟩ := by
  simp [isLockOf, LockRow.key, and_assoc]

@[simp] theorem releaseParentBudget_locks (node : NodeRow) (nowMs : Int) :
    (releaseParentBudget floor db node nowMs).locks = db.locks := by
  unfold releaseParentBudget
  split <;> rfl

@[simp] theorem wakeParent_locks (parentNodeId : Option String) (nowMs : Int) :
    (wakeParent db parentNodeId nowMs).locks = db.locks := by
  unfold wakeParent
  split
  · rfl
  · split <;> rfl

theorem blockNodes_locks (rows : List NodeRow) (nowMs : Int) :
    (rows.foldl (blockNode floor nowMs) db).locks = db.locks := by
  induction rows generalizing db with
  | nil => rfl
  | cons row rest ih =>
      rw [List.foldl_cons, ih]
      simp [blockNode, settleNode, setNodes]

@[simp] theorem blockDependents_locks (nodeId : String) (nowMs : Int) :
    (blockDependents floor db nodeId nowMs).locks = db.locks :=
  blockNodes_locks _ nowMs

theorem wakeParents_locks (parents : List String) (nowMs : Int) :
    (wakeParents db parents nowMs).locks = db.locks := by
  unfold wakeParents
  induction parents generalizing db with
  | nil => rfl
  | cons parentId rest ih => rw [List.foldl_cons, ih, wakeParent_locks]

/-- The lock goes to the requester exactly when nobody else has it, and the other
rows stay. -/
theorem takeLock_cases (hunique : UniqueLocks db) (lock : LockRow) :
    ((∀ other ∈ db.locks, other.key ≠ lock.key) ∧
      takeLock db lock = (true, { db with locks := db.locks ++ [lock] })) ∨
    ∃ existing ∈ db.locks, existing.key = lock.key ∧
      (existing.ownerNodeId ≠ lock.ownerNodeId ∧ takeLock db lock = (false, db) ∨
        existing.ownerNodeId = lock.ownerNodeId ∧
          takeLock db lock = (true, { db with
            locks := Table.update (fun row => row.key = lock.key) (fun row =>
              { row with
                leaseExpiresAtMs := lock.leaseExpiresAtMs
                expectedRevision := lock.expectedRevision }) db.locks })) := by
  have hheld : isLockOf lock.tenantKey lock.resourceType lock.resourceId =
      fun row => decide (row.key = lock.key) := by
    funext row
    rw [Bool.eq_iff_iff, isLockOf_iff, decide_eq_true_iff]
    rfl
  unfold takeLock
  simp only [hheld]
  cases hfind : db.locks.find? fun row => decide (row.key = lock.key) with
  | none =>
      refine .inl ⟨?_, rfl⟩
      intro other hother hkey
      simpa [hkey] using List.find?_eq_none.mp hfind other hother
  | some existing =>
      obtain ⟨hmem, hkey⟩ := (Table.find?_key_iff hunique).mp hfind
      refine .inr ⟨existing, hmem, hkey, ?_⟩
      by_cases howner : existing.ownerNodeId = lock.ownerNodeId
      · exact .inr ⟨howner, by simp [howner]⟩
      · exact .inl ⟨howner, by simp [howner]⟩

theorem takeLock_unique (hunique : UniqueLocks db) (lock : LockRow) :
    UniqueLocks (takeLock db lock).2 := by
  rcases takeLock_cases hunique lock with ⟨hfree, htake⟩ | ⟨_, _, _, ⟨_, htake⟩ | ⟨_, htake⟩⟩
  · rw [htake]
    unfold UniqueLocks
    rw [List.map_append, List.map_singleton, List.nodup_append_comm]
    refine List.nodup_cons.mpr ⟨?_, hunique⟩
    intro hmem
    obtain ⟨other, hother, hkey⟩ := List.mem_map.mp hmem
    exact hfree other hother hkey
  · rw [htake]
    exact hunique
  · rw [htake]
    refine hunique.update ?_ rfl
    exact fun _ => rfl

theorem renewed_isRenewable {ownerId : String} {nowMs leaseMs : Int} (hlease : 1 ≤ leaseMs)
    {target : WriteScopeTarget} {lock : LockRow}
    (hrenewable : isRenewable ownerId nowMs target lock = true) (other : WriteScopeTarget) :
    isRenewable ownerId nowMs other { lock with leaseExpiresAtMs := nowMs + leaseMs } =
      isRenewable ownerId nowMs other lock := by
  simp only [isRenewable, Bool.and_eq_true, decide_eq_true_eq] at hrenewable
  have hlive : nowMs < lock.leaseExpiresAtMs := hrenewable.2
  have hahead : nowMs < nowMs + leaseMs := by omega
  simp [isRenewable, hlive, hahead]

end AgentStore

/-- The targets that a renewal comes to: it stops at the first that does not match
exactly one row. -/
def reachedTargets (ownerId : String) (nowMs : Int) (locks : List LockRow) :
    List WriteScopeTarget → List WriteScopeTarget
  | [] => []
  | target :: rest =>
      if Table.rowcount (isRenewable ownerId nowMs target) locks ≠ 1 then [target]
      else target :: reachedTargets ownerId nowMs locks rest

theorem reachedTargets_subset {ownerId : String} {nowMs : Int} {locks : List LockRow}
    {targets : List WriteScopeTarget} {target : WriteScopeTarget}
    (htarget : target ∈ reachedTargets ownerId nowMs locks targets) : target ∈ targets := by
  induction targets with
  | nil => cases htarget
  | cons head rest ih =>
      unfold reachedTargets at htarget
      split at htarget
      · exact List.mem_cons.mpr (.inl (List.mem_singleton.mp htarget))
      · rcases List.mem_cons.mp htarget with rfl | hrest
        · exact List.mem_cons_self
        · exact List.mem_cons_of_mem _ (ih hrest)

def isReached (ownerId : String) (nowMs : Int) (locks : List LockRow)
    (targets : List WriteScopeTarget) (lock : LockRow) : Bool :=
  (reachedTargets ownerId nowMs locks targets).any fun target =>
    isRenewable ownerId nowMs target lock

/-- The renewal is refused. -/
def isRefused (ownerId : String) (nowMs : Int) (locks : List LockRow)
    (targets : List WriteScopeTarget) : Bool :=
  targets.any fun target => Table.rowcount (isRenewable ownerId nowMs target) locks ≠ 1

theorem reachedTargets_of_renewed {ownerId : String} {nowMs : Int} {locks : List LockRow}
    {targets : List WriteScopeTarget}
    (hrenewed : isRefused ownerId nowMs locks targets = false) :
    reachedTargets ownerId nowMs locks targets = targets := by
  induction targets with
  | nil => rfl
  | cons head rest ih =>
      simp only [isRefused, List.any_cons, Bool.or_eq_false_iff, decide_eq_false_iff_not,
        not_not] at hrenewed
      unfold reachedTargets
      rw [if_neg (not_not.mpr hrenewed.1), ih hrenewed.2]

/-- Earlier renewals of a call hide nothing from the later ones. -/
theorem rowcount_renewed {ownerId : String} {nowMs leaseMs : Int} (hlease : 1 ≤ leaseMs)
    (target other : WriteScopeTarget) (locks : List LockRow) :
    Table.rowcount (isRenewable ownerId nowMs other)
        (Table.update (isRenewable ownerId nowMs target)
          (fun lock => { lock with leaseExpiresAtMs := nowMs + leaseMs }) locks) =
      Table.rowcount (isRenewable ownerId nowMs other) locks := by
  unfold Table.rowcount Table.update
  rw [List.countP_map]
  apply List.countP_congr
  intro lock _
  by_cases hrenewable : isRenewable ownerId nowMs target lock = true
  · simp [hrenewable, renewed_isRenewable hlease hrenewable]
  · simp [hrenewable]

theorem reachedTargets_renewed {ownerId : String} {nowMs leaseMs : Int} (hlease : 1 ≤ leaseMs)
    (target : WriteScopeTarget) (locks : List LockRow) (targets : List WriteScopeTarget) :
    reachedTargets ownerId nowMs
        (Table.update (isRenewable ownerId nowMs target)
          (fun lock => { lock with leaseExpiresAtMs := nowMs + leaseMs }) locks) targets =
      reachedTargets ownerId nowMs locks targets := by
  induction targets with
  | nil => rfl
  | cons other rest ih => simp only [reachedTargets, rowcount_renewed hlease, ih]

/-- A renewal succeeds unless it is refused, and either way keeps what it renewed. -/
theorem renewTargets_eq {ownerId : String} {nowMs leaseMs : Int} (hlease : 1 ≤ leaseMs)
    (targets : List WriteScopeTarget) :
    renewTargets ownerId nowMs leaseMs targets db =
      (!isRefused ownerId nowMs db.locks targets, { db with
        locks := Table.update (isReached ownerId nowMs db.locks targets)
          (fun lock => { lock with leaseExpiresAtMs := nowMs + leaseMs }) db.locks }) := by
  induction targets generalizing db with
  | nil =>
      have hsame : Table.update (isReached ownerId nowMs db.locks [])
          (fun lock => { lock with leaseExpiresAtMs := nowMs + leaseMs }) db.locks = db.locks :=
        Table.update_eq_self fun _ _ => rfl
      rw [hsame]
      rfl
  | cons target rest ih =>
      by_cases hcount : Table.rowcount (isRenewable ownerId nowMs target) db.locks = 1
      · have hrest : isRefused ownerId nowMs (renewTarget db ownerId nowMs leaseMs target).locks rest =
            isRefused ownerId nowMs db.locks rest := by
          simp only [isRefused, renewTarget, rowcount_renewed hlease]
        have hlocks : Table.update
              (isReached ownerId nowMs (renewTarget db ownerId nowMs leaseMs target).locks rest)
              (fun lock => { lock with leaseExpiresAtMs := nowMs + leaseMs })
              (renewTarget db ownerId nowMs leaseMs target).locks =
            Table.update (isReached ownerId nowMs db.locks (target :: rest))
              (fun lock => { lock with leaseExpiresAtMs := nowMs + leaseMs }) db.locks := by
          unfold isReached renewTarget
          simp only [reachedTargets_renewed hlease]
          simp only [reachedTargets, hcount, ne_eq, not_true_eq_false, if_false, List.any_cons,
            Table.update, List.map_map]
          apply List.map_congr_left
          intro lock _
          by_cases hrenewable : isRenewable ownerId nowMs target lock = true
          · simp [hrenewable]
          · simp [hrenewable]
        simp only [renewTargets, hcount, ne_eq, not_true_eq_false, if_false]
        rw [ih, hrest, hlocks]
        simp [isRefused, hcount, renewTarget]
      · have hreached : isReached ownerId nowMs db.locks (target :: rest) =
            isRenewable ownerId nowMs target := by
          funext lock
          simp [isReached, reachedTargets, hcount]
        simp only [renewTargets, ne_eq, hcount, not_false_eq_true, if_true, hreached]
        simp [isRefused, hcount, renewTarget]

/-! ### Nodes that end -/

theorem struckIds_open {struck ids : List String} {id : String}
    (hid : id ∈ struckIds db struck ids) : id ∈ struck ∨ IsOpen db id := by
  induction ids generalizing struck with
  | nil => exact .inl hid
  | cons nodeId rest ih =>
      unfold struckIds at hid
      split at hid
      · rename_i hturn
        rcases ih hid with hstruck | hopen
        · rcases List.mem_append.mp hstruck with hold | hnew
          · exact .inl hold
          · exact .inr (List.mem_singleton.mp hnew ▸ hturn.1)
        · exact .inr hopen
      · exact ih hid

theorem cancelNode_locks (floor : Int → Int) (hshape : GraphShape db) (nodeId : String) (nowMs : Int) :
    (cancelNode floor nowMs db nodeId).locks =
      if IsOpen db nodeId then Table.delete (fun lock => lock.ownerNodeId = nodeId) db.locks
      else db.locks := by
  refine cancelNode_cases (P := fun after => after.locks =
    if IsOpen db nodeId then Table.delete (fun lock => lock.ownerNodeId = nodeId) db.locks
    else db.locks) ?_ ?_
  · intro hskip
    rw [if_neg]
    rintro ⟨row, hrow, hid, hopen⟩
    have hended := hskip row hrow ((Table.find?_key_iff hshape.nodeIds).mpr ⟨hrow, hid⟩)
    rw [hopen] at hended
    cases hended
  · intro row hrow hid hopen
    rw [if_pos ⟨row, hrow, hid, hopen⟩, blockDependents_locks, releaseParentBudget_locks, ← hid]
    rfl

/-- The loop of the cancellation, when `struck` has been cancelled so far. -/
theorem cancelNodes_locks (floor : Int → Int) {middle : GraphDatabase}
    (hshape : GraphShape middle)
    {struck : List String} (hstruck : Struck .cancelled struck db middle)
    (hlocks : middle.locks = Table.delete (fun lock => lock.ownerNodeId ∈ struck) db.locks)
    (ids : List String) (nowMs : Int) :
    (ids.foldl (cancelNode floor nowMs) middle).locks =
      Table.delete (fun lock => lock.ownerNodeId ∈ struckIds db struck ids) db.locks := by
  induction ids generalizing struck middle with
  | nil => exact hlocks
  | cons nodeId rest ih =>
      have hnext := cancelNode_strikes floor hshape nodeId nowMs
      have hcancelled := cancelNode_locks floor hshape nodeId nowMs
      have hshape' := hshape.of_frame (cancelNode_moves floor hshape nodeId nowMs).frame
      have hturn := hstruck.isOpen nodeId
      rw [List.foldl_cons]
      unfold struckIds
      by_cases hopen : IsOpen middle nodeId
      · rw [if_pos hopen] at hnext hcancelled
        rw [if_pos (hturn.mp hopen)]
        refine ih hshape' (hstruck.append hnext ?_) ?_
        · intro id hid
          rwa [List.mem_singleton.mp hid]
        · rw [hcancelled, hlocks]
          unfold Table.delete
          rw [List.filter_filter]
          apply List.filter_congr
          intro lock _
          simp [Bool.and_comm]
      · rw [if_neg hopen] at hnext hcancelled
        rw [if_neg fun h => hopen (hturn.mpr h)]
        have happend := hstruck.append hnext (by simp)
        rw [List.append_nil] at happend
        exact ih hshape' happend (hcancelled.trans hlocks)

theorem failNode_locks {nodeId workerId : String} {nowMs : Int} {u : Unit}
    (hok : AgentStore.failNode floor nodeId workerId nowMs db = .ok (u, after)) :
    after.locks = Table.delete (fun lock => lock.ownerNodeId = nodeId) db.locks := by
  obtain ⟨node, _, hdone⟩ := PyError.bind_eq_ok.mp hok
  cases hdone
  rw [wakeParent_locks, blockDependents_locks, releaseParentBudget_locks]
  rfl

theorem completeNode_locks {nodeId workerId artifactId : String} {draft : ArtifactDraft}
    {nowMs : Int} {artifact : Artifact}
    (hok : AgentStore.completeNode floor nodeId workerId draft artifactId nowMs db =
      .ok (artifact, after)) :
    after.locks = Table.delete (fun lock => lock.ownerNodeId = nodeId) db.locks := by
  obtain ⟨node, _, hdone⟩ := PyError.bind_eq_ok.mp hok
  split at hdone
  · cases hdone
  · cases hdone
    rw [wakeParent_locks, releaseParentBudget_locks]
    rfl

theorem cancelSubtree_locks (hshape : GraphShape db) {nodeId : String} {nowMs : Int}
    {ids : List String}
    (hok : AgentStore.cancelSubtree floor nodeId nowMs db = .ok (ids, after)) :
    after.locks =
      Table.delete (fun lock => lock.ownerNodeId ∈ struckIds db [] (subtree db nodeId)) db.locks := by
  have hlocks := cancelNodes_locks floor hshape (.nil .cancelled db) (by simp [Table.delete])
    (subtree db nodeId) nowMs
  cases hok
  rw [← hlocks]
  exact wakeParents_locks _ nowMs

/-! ### One transaction -/

namespace GraphOp

open AgentStore

/-- What a transaction does to the table of locks: it deletes rows that have expired
or that it releases, or it acquires one, or it renews some. -/
inductive LockEffect (floor : Int → Int) (clock : Int) (db : GraphDatabase) (op : GraphOp)
    (after : GraphDatabase) : Prop
  | drop (cond : LockRow → Bool) (hlocks : after.locks = Table.delete cond db.locks)
      (hwhy : ∀ lock ∈ db.locks, cond lock = true → lock.leaseExpiresAtMs ≤ op.nowMs clock ∨
        op.Releases floor db lock.ownerNodeId lock.key)
      (hgrants : ∀ owner key, op.grantedExpiry db owner key = none)
  | take (taken : LockRow)
      (hlocks : after.locks = (takeLock (purgeLocks db (op.nowMs clock)) taken).2.locks)
      (hgrants : ∀ owner key, op.grantedExpiry db owner key =
        if (takeLock (purgeLocks db (op.nowMs clock)) taken).1 = true ∧
            owner = taken.ownerNodeId ∧ key = taken.key then
          some taken.leaseExpiresAtMs
        else none)
  | renew (ownerId : String) (targets : List WriteScopeTarget) (nowMs leaseMs : Int)
      (hop : op = .renewWriteScope ownerId targets nowMs leaseMs) (hlease : 1 ≤ leaseMs)
      (hlocks : after.locks = Table.update (isReached ownerId nowMs db.locks targets)
        (fun lock => { lock with leaseExpiresAtMs := nowMs + leaseMs }) db.locks)
      (hgrants : ∀ owner key, op.grantedExpiry db owner key =
        if isRefused ownerId nowMs db.locks targets = false ∧ owner = ownerId ∧
            ∃ target ∈ targets, ∃ lock ∈ db.locks,
              isRenewable ownerId nowMs target lock = true ∧ lock.key = key then
          some (nowMs + leaseMs)
        else none)

variable {clock : Int}

theorem LockEffect.stay {op : GraphOp} (hlocks : after.locks = db.locks)
    (hgrants : ∀ owner key, op.grantedExpiry db owner key = none) :
    LockEffect floor clock db op after := by
  refine .drop (fun _ => false) ?_ ?_ hgrants
  · rw [hlocks]
    simp [Table.delete]
  · intro lock _ hcond
    cases hcond

theorem purgeEffect {op : GraphOp} {nowMs : Int} (hnow : op.nowMs clock = nowMs)
    (hlocks : after.locks = (purgeLocks db nowMs).locks)
    (hgrants : ∀ owner key, op.grantedExpiry db owner key = none) :
    LockEffect floor clock db op after := by
  refine .drop (fun lock => lock.leaseExpiresAtMs ≤ nowMs) hlocks ?_ hgrants
  intro lock _ hcond
  rw [hnow]
  exact .inl (by simpa using hcond)

theorem releaseEffect {op : GraphOp} (nodeId : String)
    (hlocks : after.locks = (deleteLocksOf db nodeId).locks)
    (hreleases : ∀ key, op.Releases floor db nodeId key)
    (hgrants : ∀ owner key, op.grantedExpiry db owner key = none) :
    LockEffect floor clock db op after := by
  refine .drop (fun lock => lock.ownerNodeId = nodeId) hlocks ?_ hgrants
  intro lock _ hcond
  have howner : lock.ownerNodeId = nodeId := by simpa using hcond
  rw [howner]
  exact .inr (hreleases _)

theorem failNode_lockEffect (hshape : GraphShape db) {nodeId workerId : String} {nowMs : Int}
    {u : Unit} (hok : AgentStore.failNode floor nodeId workerId nowMs db = .ok (u, after)) :
    LockEffect floor clock db (.failNode nodeId workerId nowMs) after := by
  have hstruck := failNode_strikes hshape hok
  have hafter : (GraphOp.failNode nodeId workerId nowMs).apply floor db = after := by
    simp [GraphOp.apply, GraphDatabase.transaction, hok]
  obtain ⟨node, howned, _⟩ := PyError.bind_eq_ok.mp hok
  obtain ⟨hnode, hid, hrunning, _⟩ := ownedNode_ok howned
  have hopen : IsOpen db nodeId := ⟨node, hnode, hid, by rw [hrunning]; rfl⟩
  refine releaseEffect nodeId (failNode_locks hok) ?_ fun _ _ => rfl
  intro key
  refine ⟨hopen, .inr (.inl ?_)⟩
  rw [hafter]
  exact (hstruck.endedAs nodeId .failed rfl).mpr (.inr (.inl ⟨List.mem_cons_self, rfl⟩))

theorem completeNode_lockEffect (hshape : GraphShape db) {nodeId workerId artifactId : String}
    {draft : ArtifactDraft} {nowMs : Int} {artifact : Artifact}
    (hok : AgentStore.completeNode floor nodeId workerId draft artifactId nowMs db =
      .ok (artifact, after)) :
    LockEffect floor clock db (.completeNode nodeId workerId draft artifactId nowMs) after := by
  have hends := completeNode_ends hshape hok
  have hafter : (GraphOp.completeNode nodeId workerId draft artifactId nowMs).apply floor db =
      after := by
    simp [GraphOp.apply, GraphDatabase.transaction, hok]
  obtain ⟨node, howned, _⟩ := PyError.bind_eq_ok.mp hok
  obtain ⟨hnode, hid, hrunning, _⟩ := ownedNode_ok howned
  have hopen : IsOpen db nodeId := ⟨node, hnode, hid, by rw [hrunning]; rfl⟩
  refine releaseEffect nodeId (completeNode_locks hok) ?_ fun _ _ => rfl
  intro key
  refine ⟨hopen, .inl ?_⟩
  rw [hafter]
  exact (hends.endedAs nodeId .completed rfl).mpr (.inr ⟨List.mem_cons_self, rfl⟩)

theorem cancelSubtree_lockEffect (hshape : GraphShape db) {nodeId : String} {nowMs : Int}
    {ids : List String}
    (hok : AgentStore.cancelSubtree floor nodeId nowMs db = .ok (ids, after)) :
    LockEffect floor clock db (.cancelSubtree nodeId nowMs) after := by
  have hstruck := cancelSubtree_strikes hshape hok
  have hafter : (GraphOp.cancelSubtree nodeId nowMs).apply floor db = after := by
    simp [GraphOp.apply, GraphDatabase.transaction, hok]
  refine .drop _ (cancelSubtree_locks hshape hok) ?_ fun _ _ => rfl
  intro lock _ hcond
  have howner : lock.ownerNodeId ∈ struckIds db [] (subtree db nodeId) := by simpa using hcond
  refine .inr ⟨(struckIds_open howner).resolve_left List.not_mem_nil, .inr (.inr ?_)⟩
  rw [hafter]
  exact (hstruck.endedAs _ .cancelled rfl).mpr (.inr (.inl ⟨howner, rfl⟩))

theorem acquireLock_lockEffect {graphId nodeId : String} {target : ResourceTarget}
    {nowMs leaseMs : Int} {granted : Bool}
    (hok : AgentStore.acquireLock graphId nodeId target nowMs leaseMs db = .ok (granted, after)) :
    LockEffect floor clock db (.acquireLock graphId nodeId target nowMs leaseMs) after := by
  obtain ⟨_, htake⟩ := acquireLock_ok hok
  refine .take _ (congrArg (fun taken => taken.2.locks) htake.symm) ?_
  intro owner key
  simp only [GraphOp.nowMs, htake, grantedExpiry, hok]
  cases granted with
  | true => simp [LockRow.key]
  | false => simp

theorem acquireRootWriteScope_lockEffect {rootRunId tenantKey : String}
    {target : WriteScopeTarget} {nowMs leaseMs : Int} {granted : Option String}
    (hok : AgentStore.acquireRootWriteScope rootRunId tenantKey target nowMs leaseMs db =
      .ok (granted, after)) :
    LockEffect floor clock db (.acquireRootWriteScope rootRunId tenantKey target nowMs leaseMs)
      after := by
  obtain ⟨_, graph, _, _, _, _, taken, howner, htake⟩ := acquireRootWriteScope_ok hok
  refine .take _ (congrArg (fun taken => taken.2.locks) htake.symm) ?_
  intro owner key
  simp only [GraphOp.nowMs, htake, grantedExpiry, hok]
  cases taken with
  | true => simp [howner, LockRow.key]
  | false => simp [howner]

theorem renewWriteScope_lockEffect (ownerId : String) (targets : List WriteScopeTarget)
    (nowMs leaseMs : Int) :
    LockEffect floor clock db (.renewWriteScope ownerId targets nowMs leaseMs)
      (AgentStore.renewWriteScope ownerId targets nowMs leaseMs db).2 := by
  by_cases hskip : targets = [] ∨ leaseMs < 1
  · refine .stay (by simp [AgentStore.renewWriteScope, hskip]) ?_
    intro owner key
    simp [grantedExpiry, AgentStore.renewWriteScope, hskip]
  · have hlease : 1 ≤ leaseMs := by
      have hnot := (not_or.mp hskip).2
      omega
    have hrenewed : AgentStore.renewWriteScope ownerId targets nowMs leaseMs db =
        renewTargets ownerId nowMs leaseMs targets db := if_neg hskip
    rw [renewTargets_eq hlease] at hrenewed
    refine .renew ownerId targets nowMs leaseMs rfl hlease (by rw [hrenewed]) ?_
    intro owner key
    simp only [grantedExpiry, hrenewed, Bool.not_eq_true']

theorem lockEffect (floor : Int → Int) (clock : Int) (hshape : GraphShape db) (op : GraphOp) :
    LockEffect floor clock db op (op.apply floor db) := by
  have hraised : ∀ op : GraphOp, (∀ owner key, op.grantedExpiry db owner key = none) →
      LockEffect floor clock db op db := fun op => .stay rfl
  cases op with
  | createGraph args graphId rootNodeId nowMs =>
      refine GraphDatabase.transaction_rule (hraised _ fun _ _ => rfl) fun _ after hok => ?_
      obtain ⟨_, _, rfl⟩ := createGraph_ok hok
      exact .stay rfl fun _ _ => rfl
  | spawnChild graphId parentNodeId spec ready nodeId nowMs =>
      refine GraphDatabase.transaction_rule (hraised _ fun _ _ => rfl) fun _ after hok => ?_
      obtain ⟨graph, parent, reserved, hspawned⟩ := spawnChild_ok hok
      refine .stay ?_ fun _ _ => rfl
      rw [hspawned.result]
  | activateNode nodeId nowMs =>
      refine GraphDatabase.transaction_rule (hraised _ fun _ _ => rfl) fun _ after hok => ?_
      refine .stay ?_ fun _ _ => rfl
      obtain ⟨rfl, _⟩ := activateNode_ok hok
      rfl
  | leaseReady graphId args =>
      refine GraphDatabase.transaction_rule (hraised _ fun _ _ => rfl) fun _ after hok => ?_
      refine purgeEffect rfl ?_ fun _ _ => rfl
      cases (leaseReady_ok hok).2 <;> rfl
  | failNode nodeId workerId nowMs =>
      exact GraphDatabase.transaction_rule (hraised _ fun _ _ => rfl) fun _ after hok =>
        failNode_lockEffect hshape hok
  | interruptNode nodeId nowMs =>
      refine GraphDatabase.transaction_rule (hraised _ fun _ _ => rfl) fun _ after hok => ?_
      refine releaseEffect nodeId ?_ ?_ fun _ _ => rfl
      · rw [interruptNode_ok hok]
        rfl
      · intro key
        exact ⟨by rw [hok]; rfl, rfl⟩
  | completeNode nodeId workerId draft artifactId nowMs =>
      exact GraphDatabase.transaction_rule (hraised _ fun _ _ => rfl) fun _ after hok =>
        completeNode_lockEffect hshape hok
  | cancelSubtree nodeId nowMs =>
      exact GraphDatabase.transaction_rule (hraised _ fun _ _ => rfl) fun _ after hok =>
        cancelSubtree_lockEffect hshape hok
  | finishGraph graphId nodeId status nowMs =>
      refine GraphDatabase.transaction_rule (hraised _ fun _ _ => rfl) fun _ after hok => ?_
      refine .stay ?_ fun _ _ => rfl
      obtain ⟨_, rfl⟩ := finishGraph_ok hok
      rfl
  | sendMail args itemId =>
      refine GraphDatabase.transaction_rule (hraised _ fun _ _ => rfl) fun _ after hok => ?_
      refine .stay ?_ fun _ _ => rfl
      cases sendMail_ok hok with
      | again hitem hcorrelated hpayload => rfl
      | fresh hid hcorrelated => rfl
  | receiveMail nodeId => exact .stay rfl fun _ _ => rfl
  | acknowledgeMail itemId nodeId =>
      refine GraphDatabase.transaction_rule (hraised _ fun _ _ => rfl) fun _ after hok => ?_
      refine .stay ?_ fun _ _ => rfl
      obtain ⟨_, rfl⟩ := acknowledgeMail_ok hok
      rfl
  | acquireLock graphId nodeId target nowMs leaseMs =>
      cases hok : AgentStore.acquireLock graphId nodeId target nowMs leaseMs db with
      | error e =>
          simp only [apply, GraphDatabase.transaction, hok]
          exact hraised _ fun _ _ => by simp [grantedExpiry, hok]
      | ok result =>
          simp only [apply, GraphDatabase.transaction, hok]
          exact acquireLock_lockEffect hok
  | releaseLocks nodeId => exact releaseEffect nodeId rfl (fun _ => rfl) fun _ _ => rfl
  | acquireRootWriteScope rootRunId tenantKey target nowMs leaseMs =>
      cases hok : AgentStore.acquireRootWriteScope rootRunId tenantKey target nowMs leaseMs db with
      | error e =>
          simp only [apply, GraphDatabase.transaction, hok]
          exact hraised _ fun _ _ => by simp [grantedExpiry, hok]
      | ok result =>
          simp only [apply, GraphDatabase.transaction, hok]
          exact acquireRootWriteScope_lockEffect hok
  | releaseWriteScope ownerId target =>
      refine .drop _ rfl ?_ fun _ _ => rfl
      intro lock _ hcond
      simp only [Bool.and_eq_true, decide_eq_true_eq] at hcond
      exact .inr ⟨hcond.1.1, hcond.1.2, hcond.2⟩
  | listLocks nodeId nowMs => exact purgeEffect rfl rfl fun _ _ => rfl
  | ownsWriteScope ownerId targets nowMs =>
      simp only [apply, AgentStore.ownsWriteScope]
      split
      · exact .stay rfl fun _ _ => rfl
      · exact purgeEffect rfl rfl fun _ _ => rfl
  | renewWriteScope ownerId targets nowMs leaseMs =>
      exact renewWriteScope_lockEffect ownerId targets nowMs leaseMs

theorem LockEffect.unique {op : GraphOp} (heffect : LockEffect floor clock db op after)
    (hunique : UniqueLocks db) : UniqueLocks after := by
  cases heffect with
  | drop cond hlocks _ _ => exact hunique.delete hlocks
  | take taken hlocks _ =>
      have hpurged : UniqueLocks (purgeLocks db (op.nowMs clock)) := hunique.delete rfl
      have htaken := takeLock_unique hpurged taken
      unfold UniqueLocks
      rw [hlocks]
      exact htaken
  | renew ownerId targets nowMs leaseMs _ _ hlocks _ =>
      refine hunique.update ?_ hlocks
      exact fun _ => rfl

theorem mem_purgeLocks {nowMs : Int} {lock : LockRow} :
    lock ∈ (purgeLocks db nowMs).locks ↔ lock ∈ db.locks ∧ nowMs < lock.leaseExpiresAtMs := by
  simp [purgeLocks, Table.mem_delete]

/-- What is granted is in the table. -/
theorem LockEffect.grant_backed {op : GraphOp} (heffect : LockEffect floor clock db op after)
    (hunique : UniqueLocks db) {owner : String} {key : LockKey} {expiry : Int}
    (hgranted : op.grantedExpiry db owner key = some expiry) :
    ∃ lock ∈ after.locks, lock.ownerNodeId = owner ∧ lock.key = key ∧
      expiry ≤ lock.leaseExpiresAtMs := by
  cases heffect with
  | drop _ _ _ hgrants =>
      rw [hgrants] at hgranted
      cases hgranted
  | take taken hlocks hgrants =>
      rw [hgrants] at hgranted
      obtain ⟨⟨htaken, rfl, rfl⟩, hexpiry⟩ := Option.ite_none_right_eq_some.mp hgranted
      cases hexpiry
      have hpurged : UniqueLocks (purgeLocks db (op.nowMs clock)) := hunique.delete rfl
      rw [hlocks]
      rcases takeLock_cases hpurged taken with ⟨_, htake⟩ | ⟨existing, hmem, hkey, hcase⟩
      · rw [htake]
        exact ⟨taken, by simp, rfl, rfl, le_refl _⟩
      · rcases hcase with ⟨_, htake⟩ | ⟨howner, htake⟩
        · rw [htake] at htaken
          cases htaken
        · rw [htake]
          exact ⟨_, Table.mem_update_of_cond hmem (by simpa using hkey), howner, hkey, le_refl _⟩
  | renew ownerId targets nowMs leaseMs _ _ hlocks hgrants =>
      rw [hgrants] at hgranted
      obtain ⟨⟨hrenewed, rfl, target, htarget, lock, hlock, hrenewable, rfl⟩, hexpiry⟩ :=
        Option.ite_none_right_eq_some.mp hgranted
      cases hexpiry
      have hreached : isReached owner nowMs db.locks targets lock = true := by
        refine List.any_eq_true.mpr ⟨target, ?_, hrenewable⟩
        rw [reachedTargets_of_renewed hrenewed]
        exact htarget
      have howner : lock.ownerNodeId = owner := by
        simp only [isRenewable, Bool.and_eq_true, decide_eq_true_eq] at hrenewable
        exact hrenewable.1.1.1.1
      rw [hlocks]
      exact ⟨_, Table.mem_update_of_cond hlock hreached, howner, rfl, le_refl _⟩

/-- A key that is granted has no live row of another owner. -/
theorem LockEffect.grant_exclusive {op : GraphOp} (heffect : LockEffect floor clock db op after)
    (hunique : UniqueLocks db) {owner : String} {key : LockKey}
    (hgranted : (op.grantedExpiry db owner key).isSome) {lock : LockRow} (hlock : lock ∈ db.locks)
    (hkey : lock.key = key) (hother : lock.ownerNodeId ≠ owner) :
    lock.leaseExpiresAtMs ≤ op.nowMs clock := by
  obtain ⟨expiry, hexpiry⟩ := Option.isSome_iff_exists.mp hgranted
  cases heffect with
  | drop _ _ _ hgrants =>
      rw [hgrants] at hexpiry
      cases hexpiry
  | take taken hlocks hgrants =>
      rw [hgrants] at hexpiry
      obtain ⟨⟨htaken, rfl, rfl⟩, _⟩ := Option.ite_none_right_eq_some.mp hexpiry
      have hpurged : UniqueLocks (purgeLocks db (op.nowMs clock)) := hunique.delete rfl
      by_contra hlive
      have hstays : lock ∈ (purgeLocks db (op.nowMs clock)).locks :=
        mem_purgeLocks.mpr ⟨hlock, by omega⟩
      rcases takeLock_cases hpurged taken with ⟨hfree, _⟩ | ⟨existing, hmem, hsame, hcase⟩
      · exact hfree lock hstays hkey
      · have hexisting : existing = lock :=
          List.inj_on_of_nodup_map hpurged hmem hstays (hsame.trans hkey.symm)
        rcases hcase with ⟨_, htake⟩ | ⟨howner, _⟩
        · rw [htake] at htaken
          cases htaken
        · exact hother (hexisting ▸ howner)
  | renew ownerId targets nowMs leaseMs _ _ _ hgrants =>
      rw [hgrants] at hexpiry
      obtain ⟨⟨_, rfl, target, _, own, hown, hrenewable, hownKey⟩, _⟩ :=
        Option.ite_none_right_eq_some.mp hexpiry
      have hsame : own = lock :=
        List.inj_on_of_nodup_map hunique hown hlock (hownKey.trans hkey.symm)
      simp only [isRenewable, Bool.and_eq_true, decide_eq_true_eq] at hrenewable
      exact absurd (hsame ▸ hrenewable.1.1.1.1) hother

/-- A live row that is neither released nor granted anew stays; only a refused renewal
rewrites it. -/
theorem LockEffect.lock_stays {op : GraphOp} (heffect : LockEffect floor clock db op after)
    (hunique : UniqueLocks db) {lock : LockRow} (hlock : lock ∈ db.locks)
    (hlive : op.nowMs clock < lock.leaseExpiresAtMs)
    (hnotGranted : op.grantedExpiry db lock.ownerNodeId lock.key = none)
    (hheld : ¬ op.Releases floor db lock.ownerNodeId lock.key) :
    lock ∈ after.locks ∨
      ∃ ownerId targets nowMs leaseMs, op = .renewWriteScope ownerId targets nowMs leaseMs ∧
        1 ≤ leaseMs ∧ isRefused ownerId nowMs db.locks targets = true ∧
        isReached ownerId nowMs db.locks targets lock = true ∧ lock.ownerNodeId = ownerId ∧
        { lock with leaseExpiresAtMs := nowMs + leaseMs } ∈ after.locks := by
  cases heffect with
  | drop cond hlocks hwhy _ =>
      refine .inl ?_
      rw [hlocks, Table.mem_delete]
      refine ⟨hlock, ?_⟩
      cases hcond : cond lock with
      | false => rfl
      | true =>
          rcases hwhy lock hlock hcond with hpast | hreleased
          · omega
          · exact absurd hreleased hheld
  | take taken hlocks hgrants =>
      refine .inl ?_
      have hpurged : UniqueLocks (purgeLocks db (op.nowMs clock)) := hunique.delete rfl
      have hstays : lock ∈ (purgeLocks db (op.nowMs clock)).locks :=
        mem_purgeLocks.mpr ⟨hlock, hlive⟩
      rw [hlocks]
      rw [hgrants] at hnotGranted
      rcases takeLock_cases hpurged taken with ⟨_, htake⟩ | ⟨existing, hmem, hkey, hcase⟩
      · rw [htake]
        exact List.mem_append_left _ hstays
      · rcases hcase with ⟨_, htake⟩ | ⟨howner, htake⟩
        · rw [htake]
          exact hstays
        · rw [htake] at hnotGranted ⊢
          refine Table.mem_update_of_not hstays ?_
          rw [decide_eq_false_iff_not]
          intro hsame
          have hexisting : existing = lock :=
            List.inj_on_of_nodup_map hpurged hmem hstays (hkey.trans hsame.symm)
          simp [← hexisting, howner, hkey] at hnotGranted
  | renew ownerId targets nowMs leaseMs hop hlease hlocks hgrants =>
      rw [hlocks]
      cases hreached : isReached ownerId nowMs db.locks targets lock with
      | false => exact .inl (Table.mem_update_of_not hlock hreached)
      | true =>
          obtain ⟨target, htarget, hrenewable⟩ := List.any_eq_true.mp hreached
          have howner : lock.ownerNodeId = ownerId := by
            simp only [isRenewable, Bool.and_eq_true, decide_eq_true_eq] at hrenewable
            exact hrenewable.1.1.1.1
          refine .inr ⟨ownerId, targets, nowMs, leaseMs, hop, hlease, ?_, hreached, howner,
            Table.mem_update_of_cond hlock hreached⟩
          by_contra hrenewed
          have hrenewed : isRefused ownerId nowMs db.locks targets = false := by
            simpa using hrenewed
          rw [hgrants, if_pos] at hnotGranted
          · cases hnotGranted
          · exact ⟨hrenewed, howner, target, reachedTargets_subset htarget, lock, hlock, hrenewable,
              rfl⟩

end GraphOp

/-! ### Runs -/

namespace LockRun

/-- A refused renewal brings no row below the expiry last granted on it. -/
def KeepsGrants (s : LockRun) (op : GraphOp) : Prop :=
  match op with
  | .renewWriteScope ownerId targets nowMs leaseMs =>
      1 ≤ leaseMs → isRefused ownerId nowMs s.db.locks targets = true →
        ∀ lock ∈ s.db.locks, isReached ownerId nowMs s.db.locks targets lock = true →
          (s.granted ownerId lock.key).all (· ≤ nowMs + leaseMs) = true
  | _ => True

instance (s : LockRun) (op : GraphOp) : Decidable (s.KeepsGrants op) := by
  cases op <;> unfold KeepsGrants <;> infer_instance

/-- What is still ahead of the clock is backed by a row. -/
structure Backed (s : LockRun) : Prop where
  shape : GraphShape s.db
  unique : UniqueLocks s.db
  backed : ∀ owner key expiry, s.granted owner key = some expiry →
    expiry ≤ s.clock ∨ ∃ lock ∈ s.db.locks, lock.ownerNodeId = owner ∧ lock.key = key ∧
      expiry ≤ lock.leaseExpiresAtMs

theorem start_backed (clock : Int) : (start clock).Backed := by
  refine ⟨GraphShape.empty, List.nodup_nil, ?_⟩
  intro owner key expiry hgranted
  cases hgranted

theorem Backed.step {s t : LockRun} {op : GraphOp} (hbacked : s.Backed) (hkeeps : s.KeepsGrants op)
    (hstep : LockRun.step floor s op = some t) : t.Backed := by
  unfold LockRun.step at hstep
  split at hstep
  · cases hstep
  · rename_i hclock
    cases hstep
    have heffect := GraphOp.lockEffect floor s.clock hbacked.shape op
    refine ⟨GraphOp.shape hbacked.shape op, heffect.unique hbacked.unique, ?_⟩
    intro owner key expiry hrecord
    simp only [record] at hrecord
    cases hgrant : op.grantedExpiry s.db owner key with
    | some granted =>
        rw [hgrant] at hrecord
        cases hrecord
        exact .inr (heffect.grant_backed hbacked.unique hgrant)
    | none =>
        simp only [hgrant] at hrecord
        obtain ⟨hheld, hgranted⟩ := Option.ite_none_left_eq_some.mp hrecord
        rcases hbacked.backed owner key expiry hgranted with hpast | ⟨lock, hlock, rfl, rfl, hrow⟩
        · exact .inl (by simp only; omega)
        · by_cases hlive : op.nowMs s.clock < lock.leaseExpiresAtMs
          · refine .inr ?_
            rcases heffect.lock_stays hbacked.unique hlock hlive hgrant hheld with
              hstays | ⟨ownerId, targets, nowMs, leaseMs, rfl, hlease, hrefused, hreached, rfl, hcut⟩
            · exact ⟨lock, hstays, rfl, rfl, hrow⟩
            · have hshort := hkeeps hlease hrefused lock hlock hreached
              rw [hgranted] at hshort
              exact ⟨_, hcut, rfl, rfl, by simpa using hshort⟩
          · exact .inl (by simp only; omega)

theorem Backed.exclusive {s : LockRun} (hbacked : s.Backed) (op : GraphOp) : s.Exclusive op := by
  intro hclock key first second hne hgrant expiry hgranted
  have heffect := GraphOp.lockEffect id s.clock hbacked.shape op
  rcases hbacked.backed first key expiry hgranted with hpast | ⟨lock, hlock, rfl, hkey, hrow⟩
  · omega
  · have hended := heffect.grant_exclusive hbacked.unique hgrant hlock hkey hne
    omega

/-- While refused renewals keep what was granted, two owners are never granted one key
at overlapping times. -/
theorem exclusive_along (floor : Int → Int) (clock : Int) {ops : List GraphOp}
    (hkeeps : Along (LockRun.step floor) KeepsGrants ops (start clock)) :
    Along (LockRun.step floor) Exclusive ops (start clock) :=
  along_of_invariant (fun _ _ _ hbacked hkeep hstep => hbacked.step hkeep hstep)
    (fun _ op hbacked _ => hbacked.exclusive op) (start_backed clock) hkeeps

end LockRun

end Codex2Lark
