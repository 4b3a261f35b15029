import Codex2Lark.Runtime.Tools
import Codex2Lark.Storage.LockExclusion

/-!
`ToolExecutor._execute_permitted`: the resource lock that a write proves or takes
before its operation starts, and the release of the one that it took.
-/

namespace Codex2Lark

open Lib

namespace ToolExecutor

/-- Whether the executor has a `write_scope_store`, and `write_lock_lease_ms`. -/
structure LockSettings where
  hasStore : Bool
  writeLockLeaseMs : Int := 300000
  positive : 1 ≤ writeLockLeaseMs := by decide

/-- One call as `_execute_permitted` receives it, what `resolve_write_target` of its
tool answers (`none` without such a method), and the reading of the clock. -/
structure PermittedCall where
  definition : ToolDefinition
  call : ToolCall
  context : ToolContext
  resolver : Option (Except PyError WriteScopeTarget) := none
  nowMs : Int

namespace PermittedCall

def refusal (permitted : PermittedCall) (code summary : String) : ToolResult :=
  failure permitted.call permitted.definition.effect code summary

/-- `is_runtime_root_write`. -/
def isRuntimeRootWrite (permitted : PermittedCall) : Bool :=
  permitted.definition.effect.isWrite && permitted.context.nodeId = "/root" &&
    permitted.context.taskId.isSome && permitted.context.writeScope.isEmpty

end PermittedCall

/-- How the guards end: with a failure, or by starting the operation under the lease
that the heartbeat renews, with the lock that is released afterwards. -/
inductive WriteGate where
  | refused (result : ToolResult)
  | starts (lease : Option (String × List WriteScopeTarget))
      (transient : Option (String × WriteScopeTarget))

def resolutionFailed (permitted : PermittedCall) (e : PyError) : Except PyError WriteGate :=
  if e.isException then
    .ok (.refused (permitted.refusal "write_scope_resolution_failed"
      ("live write target resolution failed: " ++ e.className)))
  else .error e

/-- The target of the scope that a live target falls under. -/
def allowedTarget (context : ToolContext) (actual : WriteScopeTarget) : Option WriteScopeTarget :=
  context.writeScope.find? fun target =>
    target.resourceType = actual.resourceType && target.resourceId = actual.resourceId

/-- The branch of a write with a scope. -/
def scopedGate (settings : LockSettings) (permitted : PermittedCall) (db : GraphDatabase) :
    Except PyError WriteGate × GraphDatabase :=
  let context := permitted.context
  let starts : WriteGate :=
    .starts (if settings.hasStore then some (context.runId, context.writeScope) else none) none
  match permitted.resolver with
  | none =>
      (.ok (.refused (permitted.refusal "write_scope_unsupported"
        "the scoped writer tool cannot resolve its live target")), db)
  | some (.error e) => (resolutionFailed permitted e, db)
  | some (.ok actual) =>
      match allowedTarget context actual with
      | none =>
          (.ok (.refused (permitted.refusal "write_scope_violation"
            "the actual write target is outside the delegated lock scope")), db)
      | some allowed =>
          if allowed.expectedRevision.isSome ∧
              actual.expectedRevision ≠ allowed.expectedRevision then
            (.ok (.refused (permitted.refusal "write_revision_conflict"
              "the live target revision changed after the delegated lock was acquired")), db)
          else if context.writeScopeRequired ∧ settings.hasStore then
            match AgentStore.renewWriteScope context.runId context.writeScope permitted.nowMs
                settings.writeLockLeaseMs db with
            | (true, db) => (.ok starts, db)
            | (false, db) =>
                (.ok (.refused (permitted.refusal "write_lock_expired"
                  "the delegated writer's durable resource lock expired")), db)
          else (.ok starts, db)

/-- `except (LookupError, PermissionError)`, then `except Exception`. -/
def rootFailed (permitted : PermittedCall) (e : PyError) : Except PyError WriteGate :=
  match e with
  | .lookupError text | .permissionError text =>
      .ok (.refused (permitted.refusal "write_lock_unavailable" text))
  | e => resolutionFailed permitted e

/-- The branch of `is_runtime_root_write`. -/
def rootGate (settings : LockSettings) (permitted : PermittedCall) (db : GraphDatabase) :
    Except PyError WriteGate × GraphDatabase :=
  let context := permitted.context
  if !settings.hasStore then
    (.ok (.refused (permitted.refusal "write_lock_validator_missing"
      "the root Agent has no durable resource lock store")), db)
  else
    match permitted.resolver with
    | none =>
        (.ok (.refused (permitted.refusal "write_scope_unsupported"
          "the root writer tool cannot resolve its live target")), db)
    | some (.error e) => (rootFailed permitted e, db)
    | some (.ok target) =>
        match db.transaction (AgentStore.acquireRootWriteScope context.runId context.tenantKey
            target permitted.nowMs settings.writeLockLeaseMs) with
        | (.error e, db) => (rootFailed permitted e, db)
        | (.ok none, db) =>
            (.ok (.refused (permitted.refusal "write_target_busy"
              "the live write target is locked by another Agent graph")), db)
        | (.ok (some owner), db) =>
            (.ok (.starts (some (owner, [target])) (some (owner, target))), db)

/-- `_execute_permitted` up to the start of the operation. -/
def writeGate (settings : LockSettings) (permitted : PermittedCall) (db : GraphDatabase) :
    Except PyError WriteGate × GraphDatabase :=
  let context := permitted.context
  let isWrite := permitted.definition.effect.isWrite
  if context.writeScopeRequired ∧ context.writeScope = [] ∧ isWrite then
    (.ok (.refused (permitted.refusal "write_lock_missing"
      "the delegated writer no longer owns its required resource lock")), db)
  else if context.writeScopeRequired ∧ !settings.hasStore ∧ isWrite then
    (.ok (.refused (permitted.refusal "write_lock_validator_missing"
      "the delegated writer has no runtime lock validator")), db)
  else if context.writeScope ≠ [] ∧ isWrite then scopedGate settings permitted db
  else if permitted.isRuntimeRootWrite then rootGate settings permitted db
  else (.ok (.starts none none), db)

/-- `_execute_permitted`. The operation runs under the heartbeat of its lease; whatever
it ends with, a lock that was taken for it is released. -/
def executePermitted (settings : LockSettings) (permitted : PermittedCall)
    (operation : Option (String × List WriteScopeTarget) → GraphDatabase →
      Except PyError ToolResult × GraphDatabase) (db : GraphDatabase) :
    Except PyError ToolResult × GraphDatabase :=
  match writeGate settings permitted db with
  | (.error e, db) => (.error e, db)
  | (.ok (.refused result), db) => (.ok result, db)
  | (.ok (.starts lease transient), db) =>
      let (result, db) := operation lease db
      match transient with
      | some (owner, target) => (result, AgentStore.releaseWriteScope owner target db)
      | none => (result, db)

/-! ### What a started write has been granted -/

variable {settings : LockSettings} {permitted : PermittedCall} {db after : GraphDatabase}
  {lease : Option (String × List WriteScopeTarget)} {transient : Option (String × WriteScopeTarget)}

theorem resolutionFailed_not_starts {e : PyError} :
    resolutionFailed permitted e ≠ .ok (.starts lease transient) := by
  unfold resolutionFailed
  split
  · nofun
  · nofun

theorem rootFailed_not_starts {e : PyError} :
    rootFailed permitted e ≠ .ok (.starts lease transient) := by
  unfold rootFailed
  split
  · nofun
  · nofun
  · exact resolutionFailed_not_starts

theorem allowedTarget_some {context : ToolContext} {actual allowed : WriteScopeTarget}
    (hallowed : allowedTarget context actual = some allowed) :
    allowed ∈ context.writeScope ∧ allowed.resourceType = actual.resourceType ∧
      allowed.resourceId = actual.resourceId := by
  refine ⟨List.mem_of_find?_eq_some hallowed, ?_⟩
  simpa using List.find?_some hallowed

theorem rootGate_starts
    (hgate : rootGate settings permitted db = (.ok (.starts lease transient), after)) :
    ∃ owner target, permitted.resolver = some (.ok target) ∧ lease = some (owner, [target]) ∧
      transient = some (owner, target) ∧
      AgentStore.acquireRootWriteScope permitted.context.runId permitted.context.tenantKey target
        permitted.nowMs settings.writeLockLeaseMs db = .ok (some owner, after) := by
  unfold rootGate at hgate
  simp only at hgate
  split at hgate
  · cases hgate
  · split at hgate
    · cases hgate
    · exact absurd (congrArg Prod.fst hgate) rootFailed_not_starts
    · rename_i target hresolver
      cases hacquire : AgentStore.acquireRootWriteScope permitted.context.runId
          permitted.context.tenantKey target permitted.nowMs settings.writeLockLeaseMs db with
      | error e =>
          simp only [GraphDatabase.transaction, hacquire] at hgate
          exact absurd (congrArg Prod.fst hgate) rootFailed_not_starts
      | ok result =>
          obtain ⟨granted, acquired⟩ := result
          cases granted with
          | none =>
              simp only [GraphDatabase.transaction, hacquire] at hgate
              cases hgate
          | some owner =>
              simp only [GraphDatabase.transaction, hacquire] at hgate
              cases hgate
              exact ⟨owner, target, hresolver, rfl, rfl, hacquire⟩

theorem scopedGate_starts (hrequired : permitted.context.writeScopeRequired = true)
    (hstore : settings.hasStore = true)
    (hgate : scopedGate settings permitted db = (.ok (.starts lease transient), after)) :
    ∃ target allowed, permitted.resolver = some (.ok target) ∧
      allowedTarget permitted.context target = some allowed ∧
      lease = some (permitted.context.runId, permitted.context.writeScope) ∧ transient = none ∧
      AgentStore.renewWriteScope permitted.context.runId permitted.context.writeScope
        permitted.nowMs settings.writeLockLeaseMs db = (true, after) := by
  unfold scopedGate at hgate
  simp only at hgate
  split at hgate
  · cases hgate
  · exact absurd (congrArg Prod.fst hgate) resolutionFailed_not_starts
  · rename_i target hresolver
    split at hgate
    · cases hgate
    · rename_i allowed hallowed
      split at hgate
      · cases hgate
      · rw [if_pos ⟨hrequired, hstore⟩] at hgate
        split at hgate
        · rename_i renewed hrenew
          cases hgate
          exact ⟨target, allowed, hresolver, hallowed, rfl, rfl, hrenew⟩
        · cases hgate

/-- The transaction took the tables to `after` and granted the key to the owner. -/
def GrantedBy (floor : Int → Int) (op : GraphOp) (db after : GraphDatabase) (owner : String)
    (key : LockKey) : Prop :=
  after = op.apply floor db ∧ (op.grantedExpiry db owner key).isSome

/-- A write starts only after the store granted its live target: to the root node for
the call, or by the renewal of the whole scope of a delegated writer, under the one
tenant that the writer's locks are taken for. -/
def StartsLocked (floor : Int → Int) (settings : LockSettings) (permitted : PermittedCall)
    (db : GraphDatabase) : Prop :=
  ∀ lease transient after,
    writeGate settings permitted db = (.ok (.starts lease transient), after) →
    let context := permitted.context
    (permitted.isRuntimeRootWrite = true → ∃ owner target,
      permitted.resolver = some (.ok target) ∧ lease = some (owner, [target]) ∧
      transient = some (owner, target) ∧
      GrantedBy floor (.acquireRootWriteScope context.runId context.tenantKey target
        permitted.nowMs settings.writeLockLeaseMs) db after owner
        ⟨context.tenantKey, target.resourceType, target.resourceId⟩) ∧
    (permitted.definition.effect.isWrite = true → context.writeScopeRequired = true →
      ∃ target, permitted.resolver = some (.ok target) ∧
      lease = some (context.runId, context.writeScope) ∧ transient = none ∧
      ∀ tenantKey, (∀ lock ∈ db.locks, lock.ownerNodeId = context.runId →
          lock.tenantKey = tenantKey) →
        GrantedBy floor (.renewWriteScope context.runId context.writeScope permitted.nowMs
          settings.writeLockLeaseMs) db after context.runId
          ⟨tenantKey, target.resourceType, target.resourceId⟩)

theorem acquired_grantedBy (floor : Int → Int) {rootRunId tenantKey owner : String}
    {target : WriteScopeTarget} {nowMs leaseMs : Int}
    (hok : AgentStore.acquireRootWriteScope rootRunId tenantKey target nowMs leaseMs db =
      .ok (some owner, after)) :
    GrantedBy floor (.acquireRootWriteScope rootRunId tenantKey target nowMs leaseMs) db after owner
      ⟨tenantKey, target.resourceType, target.resourceId⟩ := by
  refine ⟨?_, ?_⟩
  · simp [GraphOp.apply, GraphDatabase.transaction, hok]
  · simp [GraphOp.grantedExpiry, hok]

theorem renewed_grantedBy (floor : Int → Int) {ownerId tenantKey : String}
    {targets : List WriteScopeTarget} {nowMs leaseMs : Int}
    (hrenew : AgentStore.renewWriteScope ownerId targets nowMs leaseMs db = (true, after))
    {target : WriteScopeTarget} (htarget : target ∈ targets)
    (htenant : ∀ lock ∈ db.locks, lock.ownerNodeId = ownerId → lock.tenantKey = tenantKey) :
    GrantedBy floor (.renewWriteScope ownerId targets nowMs leaseMs) db after ownerId
      ⟨tenantKey, target.resourceType, target.resourceId⟩ := by
  refine ⟨by simp [GraphOp.apply, hrenew], ?_⟩
  have hlease : ¬ (targets = [] ∨ leaseMs < 1) := by
    intro hskip
    rw [AgentStore.renewWriteScope, if_pos hskip] at hrenew
    cases hrenew
  have hpositive : 1 ≤ leaseMs := by
    have hnot := (not_or.mp hlease).2
    omega
  have htargets : AgentStore.renewWriteScope ownerId targets nowMs leaseMs db =
      AgentStore.renewTargets ownerId nowMs leaseMs targets db := if_neg hlease
  rw [htargets, renewTargets_eq hpositive] at hrenew
  have hrenewed : isRefused ownerId nowMs db.locks targets = false := by
    simpa using congrArg Prod.fst hrenew
  have hcount : db.locks.countP (AgentStore.isRenewable ownerId nowMs target) = 1 := by
    have hone := List.any_eq_false.mp hrenewed target htarget
    rw [decide_eq_true_iff, not_not] at hone
    exact hone
  obtain ⟨lock, hlock, hrenewable⟩ :=
    List.countP_pos_iff.mp (hcount.symm ▸ Nat.one_pos)
  have hmatch := hrenewable
  simp only [AgentStore.isRenewable, Bool.and_eq_true, decide_eq_true_eq] at hmatch
  obtain ⟨⟨⟨⟨howner, htype⟩, hid⟩, _⟩, _⟩ := hmatch
  have hkey : lock.key = ⟨tenantKey, target.resourceType, target.resourceId⟩ := by
    simp [LockRow.key, htenant lock hlock howner, htype, hid]
  simp only [GraphOp.grantedExpiry, htargets, renewTargets_eq hpositive, hrenewed, Bool.not_false]
  rw [if_pos ⟨trivial, trivial, target, htarget, lock, hlock, hrenewable, hkey⟩]
  rfl

theorem startsLocked (floor : Int → Int) (settings : LockSettings) (permitted : PermittedCall)
    (db : GraphDatabase) : StartsLocked floor settings permitted db := by
  intro lease transient after hgate
  unfold writeGate at hgate
  simp only at hgate
  split at hgate
  · cases hgate
  · rename_i hscoped
    split at hgate
    · cases hgate
    · rename_i hvalidated
      constructor
      · intro hroot
        have hscope : permitted.context.writeScope = [] := by
          simp only [PermittedCall.isRuntimeRootWrite, Bool.and_eq_true, List.isEmpty_iff] at hroot
          exact hroot.2
        rw [if_neg (by simp [hscope]), if_pos hroot] at hgate
        obtain ⟨owner, target, hresolver, hlease, htransient, hacquire⟩ := rootGate_starts hgate
        exact ⟨owner, target, hresolver, hlease, htransient, acquired_grantedBy floor hacquire⟩
      · intro hwrite hrequired
        have hscope : permitted.context.writeScope ≠ [] :=
          fun hempty => hscoped ⟨hrequired, hempty, hwrite⟩
        have hstore : settings.hasStore = true := by
          by_contra hnone
          exact hvalidated ⟨hrequired, by simpa using hnone, hwrite⟩
        rw [if_pos ⟨hscope, hwrite⟩] at hgate
        obtain ⟨target, allowed, hresolver, hallowed, hlease, htransient, hrenew⟩ :=
          scopedGate_starts hrequired hstore hgate
        obtain ⟨hmem, htype, hid⟩ := allowedTarget_some hallowed
        refine ⟨target, hresolver, hlease, htransient, ?_⟩
        intro tenantKey htenant
        rw [← htype, ← hid]
        exact renewed_grantedBy floor hrenew hmem htenant

/-! ### The operation -/

variable {first second : Option (String × List WriteScopeTarget) → GraphDatabase →
  Except PyError ToolResult × GraphDatabase}

/-- The operation is reached only from a start of the gate, with its lease and its tables. -/
theorem executePermitted_congr
    (hsame : ∀ lease transient after,
      writeGate settings permitted db = (.ok (.starts lease transient), after) →
        first lease after = second lease after) :
    executePermitted settings permitted first db = executePermitted settings permitted second db := by
  unfold executePermitted
  match hgate : writeGate settings permitted db with
  | (.error e, after) => rfl
  | (.ok (.refused result), after) => rfl
  | (.ok (.starts lease transient), after) =>
      dsimp only
      rw [hsame lease transient after hgate]

/-- A root writes only while its root node owns the live target. -/
theorem executePermitted_root (floor : Int → Int) (hroot : permitted.isRuntimeRootWrite = true)
    (hsame : ∀ owner target after, permitted.resolver = some (.ok target) →
      GrantedBy floor (.acquireRootWriteScope permitted.context.runId permitted.context.tenantKey
        target permitted.nowMs settings.writeLockLeaseMs) db after owner
        ⟨permitted.context.tenantKey, target.resourceType, target.resourceId⟩ →
      first (some (owner, [target])) after = second (some (owner, [target])) after) :
    executePermitted settings permitted first db = executePermitted settings permitted second db := by
  refine executePermitted_congr fun lease transient after hgate => ?_
  obtain ⟨owner, target, hresolver, hlease, _, hgranted⟩ :=
    (startsLocked floor settings permitted db lease transient after hgate).1 hroot
  rw [hlease]
  exact hsame owner target after hresolver hgranted

/-- A delegated writer writes only after the renewal of its whole scope. -/
theorem executePermitted_delegated (floor : Int → Int) {tenantKey : String}
    (hwrite : permitted.definition.effect.isWrite = true)
    (hrequired : permitted.context.writeScopeRequired = true)
    (htenant : ∀ lock ∈ db.locks, lock.ownerNodeId = permitted.context.runId →
      lock.tenantKey = tenantKey)
    (hsame : ∀ target after, permitted.resolver = some (.ok target) →
      GrantedBy floor (.renewWriteScope permitted.context.runId permitted.context.writeScope
        permitted.nowMs settings.writeLockLeaseMs) db after permitted.context.runId
        ⟨tenantKey, target.resourceType, target.resourceId⟩ →
      first (some (permitted.context.runId, permitted.context.writeScope)) after =
        second (some (permitted.context.runId, permitted.context.writeScope)) after) :
    executePermitted settings permitted first db = executePermitted settings permitted second db := by
  refine executePermitted_congr fun lease transient after hgate => ?_
  obtain ⟨target, hresolver, hlease, _, hgranted⟩ :=
    (startsLocked floor settings permitted db lease transient after hgate).2 hwrite hrequired
  rw [hlease]
  exact hsame target after hresolver (hgranted tenantKey htenant)

theorem releaseWriteScope_keeps (owner : String) (target : WriteScopeTarget) (db : GraphDatabase)
    {lock : LockRow} (hlock : lock ∈ db.locks) (hother : lock.ownerNodeId ≠ owner) :
    lock ∈ (AgentStore.releaseWriteScope owner target db).locks := by
  refine Table.mem_delete.mpr ⟨hlock, ?_⟩
  simp [hother]

end ToolExecutor

open ToolExecutor in
/-- No two owners are granted one key at overlapping times, as long as every refused
renewal leaves no expiry behind the one last granted; a write starts only once its live
target is granted; and a release touches no lock of another owner. -/
theorem write_locks_exclude (floor : Int → Int) (clock : Int) (ops : List GraphOp)
    (hkeeps : Along (LockRun.step floor) LockRun.KeepsGrants ops (LockRun.start clock)) :
    Along (LockRun.step floor) LockRun.Exclusive ops (LockRun.start clock) ∧
      (∀ settings permitted db, StartsLocked floor settings permitted db) ∧
      ∀ owner target db, ∀ lock ∈ db.locks, lock.ownerNodeId ≠ owner →
        lock ∈ (AgentStore.releaseWriteScope owner target db).locks :=
  ⟨LockRun.exclusive_along floor clock hkeeps, startsLocked floor,
    fun owner target db _ hlock hother => releaseWriteScope_keeps owner target db hlock hother⟩

/-! ### Two graphs that want one document -/

namespace ContendedDocument

def document : WriteScopeTarget := ⟨"docx", "handbook", none⟩

def sheet : WriteScopeTarget := ⟨"sheet", "budget", none⟩

def rootSpec : NodeSpec :=
  { name := "root", role := .orchestrator, taskBrief := "brief", expectedOutputType := "text"
    toolIds := [], budgets := [] }

/-- The first graph holds the document and renews it with a target that it does not
hold; the second graph asks for the document at 20. -/
def run (leaseMs : Int) : List GraphOp :=
  [.createGraph ⟨"run-a", "tenant", rootSpec, {}⟩ "graph-a" "root-a" 0,
   .createGraph ⟨"run-b", "tenant", rootSpec, {}⟩ "graph-b" "root-b" 0,
   .acquireRootWriteScope "run-a" "tenant" document 0 1000,
   .renewWriteScope "root-a" [document, sheet] 10 leaseMs]

def second : GraphOp := .acquireRootWriteScope "run-b" "tenant" document 20 1000

/-- `Exclusive` for one pair of owners and one key. -/
def excludesAt (first second : String) (key : LockKey) (s : LockRun) (op : GraphOp) : Bool :=
  !(decide (s.clock ≤ op.nowMs s.clock) && (op.grantedExpiry s.db second key).isSome) ||
    (s.granted first key).all (· ≤ op.nowMs s.clock)

theorem excludesAt_of_exclusive {first second : String} (hne : first ≠ second) (key : LockKey)
    (s : LockRun) (op : GraphOp) (hexclusive : s.Exclusive op) :
    excludesAt first second key s op = true := by
  unfold excludesAt
  by_cases hclock : s.clock ≤ op.nowMs s.clock
  · by_cases hgrant : (op.grantedExpiry s.db second key).isSome = true
    · cases hgranted : s.granted first key with
      | none => simp
      | some expiry =>
          have hpast := hexclusive hclock key first second hne hgrant expiry hgranted
          simp [hpast]
    · simp [hgrant]
  · simp [hclock]

end ContendedDocument

open ContendedDocument in
/-- The refused renewal at 10 leaves the first graph's expiry at 15, so the second graph is
granted the document at 20; the first was granted it until 1000. -/
theorem refused_renewal_shortens_lock :
    ¬ Along (LockRun.step AgentStore.clampZero) LockRun.Exclusive (run 5 ++ [second])
      (LockRun.start 0) := by
  have hne : "root-a" ≠ "root-b" := by decide
  exact not_along_of_check (excludesAt_of_exclusive hne ⟨"tenant", "docx", "handbook"⟩)
    (by decide +kernel)

open ContendedDocument in
/-- With the lease of the acquisition the refused renewal takes nothing away. -/
theorem write_locks_exclude_of_equal_leases :
    Along (LockRun.step AgentStore.clampZero) LockRun.Exclusive (run 1000 ++ [second])
        (LockRun.start 0) ∧
      (∀ settings permitted db,
        ToolExecutor.StartsLocked AgentStore.clampZero settings permitted db) ∧
      ∀ owner target db, ∀ lock ∈ db.locks, lock.ownerNodeId ≠ owner →
        lock ∈ (AgentStore.releaseWriteScope owner target db).locks :=
  write_locks_exclude AgentStore.clampZero 0 (run 1000 ++ [second])
    (along_of_decide (by decide +kernel))

end Codex2Lark
