import Codex2Lark.Core.JsonText
import Codex2Lark.Lib.Revisions
import Codex2Lark.Runtime.MultiAgent
import Codex2Lark.Capabilities.WriteTargets
import Codex2Lark.Runtime.WriteLocks

/-!
The revision that a delegated write is checked against. `_resolve_targets` reads the live
revision of a declared target, `acquire_lock` writes it to the lock row, the worker copies
it to the write scope of the child's `ToolContext`, and every write of the child compares
it with the live revision. No write of the child moves it.
-/

namespace Codex2Lark

open Lib ToolExecutor

/-! ### The child and its live targets -/

/-- The context that `DelegatedHarnessWorker` builds from the context of the parent. -/
def DelegatedHarnessWorker.toolContext (parent : ToolContext) (node : AgentNode)
    (locks : List WriteScopeTarget) : ToolContext :=
  { parent with
    runId := node.nodeId
    nodeId := node.canonicalPath
    writeScope := locks
    writeScopeRequired := node.spec.requiresWriteScope }

/-- Who edited a live target: the child, with a verified result or without, or anybody
else. -/
inductive Editor where
  | child (verified : Bool)
  | other
deriving DecidableEq, Repr

/-- The marks of a lock in the log of edits: when the revision of its target was read,
and when it was acquired. -/
structure Pin where
  readAt : Nat
  lockedAt : Nat
deriving DecidableEq, Repr

/-- One delegated writer, the graph store, and the live targets as a log of edits.
`resolved` are the targets that delegations have read, and `pins` and `scopePins` the
marks of the child's lock rows and of the scope that its run was started with. -/
structure LockedChild where
  nodeId : String
  tenantKey : String
  initial : String × String → Option Nat
  db : GraphDatabase := {}
  log : List (Edit (String × String) Editor) := []
  resolved : List (ResourceTarget × Nat) := []
  pins : String × String → Pin := fun _ => ⟨0, 0⟩
  context : Option ToolContext := none
  scopePins : String × String → Pin := fun _ => ⟨0, 0⟩
  writing : Option (String × String) := none

/-- One write of the child: `target` is what `resolve_write_target` finds the arguments to
name, `none` without such a method. -/
structure ChildWrite where
  definition : ToolDefinition
  call : ToolCall
  target : Option (Except PyError (String × String))
  nowMs : Int

inductive ChildEvent where
  | edited (key : String × String) (version : Option Nat)
  | resolve (key : String × String)
  | transact (op : GraphOp)
  | acquire (graphId : String) (index : Nat) (nowMs leaseMs : Int)
  | start (parent : ToolContext) (nowMs : Int)
  | write (write : ChildWrite)
  | settle (edit : Option (Option Nat)) (verified : Bool)

/-- The transaction takes a lock for the node, other than by renewing one. -/
def GraphOp.takesFor (db : GraphDatabase) (nodeId : String) : GraphOp → Bool
  | .acquireLock _ owner _ _ _ => owner = nodeId
  | .acquireRootWriteScope rootRunId tenantKey target nowMs leaseMs =>
      ((GraphOp.acquireRootWriteScope rootRunId tenantKey target nowMs leaseMs).grantedExpiry db
        nodeId ⟨tenantKey, target.resourceType, target.resourceId⟩).isSome
  | _ => false

namespace LockedChild

/-- What the resolver of a tool answers for a live target: `str(revision)` of one that
has a revision. -/
def liveTarget (s : LockedChild) (key : String × String) : WriteScopeTarget :=
  ⟨key.1, key.2, (Edit.versionOf s.initial s.log key).map toString⟩

def permitted (s : LockedChild) (context : ToolContext) (write : ChildWrite) : PermittedCall where
  definition := write.definition
  call := write.call
  context
  resolver := write.target.map fun answer => answer.map s.liveTarget
  nowMs := write.nowMs

/-- An edit has to raise the revision of its target. -/
def edit (s : LockedChild) (key : String × String) (version : Option Nat) (author : Editor) :
    Option LockedChild :=
  if Edit.Raises (Edit.versionOf s.initial s.log key) version then
    some { s with log := ⟨key, version, author⟩ :: s.log }
  else none

variable (floor : Int → Int) (settings : LockSettings)

/-- A delegation acquires only locks of targets that it has read; nobody else takes a lock
for the child, which is the root of no graph. `settle` ends the write that has started, with
the edit that it has made. -/
def step (s : LockedChild) : ChildEvent → Option LockedChild
  | .edited key version => s.edit key version .other
  | .resolve key =>
      let live := s.liveTarget key
      some { s with
        resolved := s.resolved ++
          [(⟨s.tenantKey, live.resourceType, live.resourceId, live.expectedRevision⟩,
            s.log.length)] }
  | .transact op =>
      if op.takesFor s.db s.nodeId then none else some { s with db := op.apply floor s.db }
  | .acquire graphId index nowMs leaseMs =>
      match s.resolved[index]? with
      | none => none
      | some (target, readAt) =>
          match AgentStore.acquireLock graphId s.nodeId target nowMs leaseMs s.db with
          | .error _ => some s
          | .ok (false, db) => some { s with db }
          | .ok (true, db) =>
              some { s with
                db
                pins := Function.update s.pins (target.resourceType, target.resourceId)
                  ⟨readAt, s.log.length⟩ }
  | .start parent nowMs =>
      match (AgentStore.findNode s.db s.nodeId).filter fun row => row.status = .running with
      | none => none
      | some row =>
          let (locks, db) := AgentStore.listLocks s.nodeId nowMs s.db
          some { s with
            db
            context := some
              (DelegatedHarnessWorker.toolContext parent (AgentStore.nodeOf s.db row) locks)
            scopePins := s.pins
            writing := none }
  | .write write =>
      match s.context with
      | none => none
      | some context =>
          if context.writeScope = [] ∨ s.writing.isSome ∨ !write.definition.effect.isWrite then none
          else
            match writeGate settings (s.permitted context write) s.db with
            | (.ok (.starts _ _), db) =>
                some { s with db, writing := write.target.bind Except.toOption }
            | (_, db) => some { s with db }
  | .settle edit verified =>
      match s.writing, edit with
      | none, _ => none
      | some _, none => some { s with writing := none }
      | some key, some version =>
          ({ s with writing := none }).edit key version (.child verified)

/-! ### The refusal -/

/-- Somebody else edited the target after the child's lock was acquired, and after the last
verified write of the child. -/
def EditedByOthers (s : LockedChild) (key : String × String) : Prop :=
  ∃ e ∈ (Edit.since s.log (s.scopePins key).lockedAt).takeWhile fun e =>
      !decide (e.key = key ∧ e.author = .child true),
    e.key = key ∧ e.author = .other

instance (s : LockedChild) (key : String × String) : Decidable (s.EditedByOthers key) :=
  inferInstanceAs (Decidable (∃ e ∈ _, _))

def refusesWith (code : String) : Except PyError WriteGate → Bool
  | .ok (.refused result) => result.errorCode = some code
  | _ => false

/-- A write of the child is refused for its revision only if somebody else edited its
target. -/
def RefusedForOthers (s : LockedChild) : ChildEvent → Prop
  | .write write => ∀ context, s.context = some context → s.writing = none →
      refusesWith "write_revision_conflict" (writeGate settings (s.permitted context write) s.db).1 =
        true →
      ∃ key, write.target = some (.ok key) ∧ s.EditedByOthers key
  | _ => True

/-- The lock of the target was acquired with a revision. -/
def isPinned (s : LockedChild) (context : ToolContext) (key : String × String) : Bool :=
  (allowedTarget context (s.liveTarget key)).any fun allowed => allowed.expectedRevision.isSome

/-- A pinned target that the child asks to write, and that anybody has edited since its
revision was read, has been edited by somebody else since the lock and the last verified
write of the child. -/
def MovedByOthers (s : LockedChild) : ChildEvent → Prop
  | .write write => ∀ context, s.context = some context → s.writing = none →
      write.definition.effect.isWrite = true →
      (context.writeScopeRequired = true → settings.hasStore = true) →
      ∀ key, write.target = some (.ok key) → s.isPinned context key = true →
      (∃ e ∈ Edit.since s.log (s.scopePins key).readAt, e.key = key) → s.EditedByOthers key
  | _ => True

end LockedChild

/-! ### When the guards refuse for the revision -/

namespace ToolExecutor

open LockedChild

variable {settings : LockSettings} {permitted : PermittedCall} {db : GraphDatabase}

theorem resolutionFailed_conflict (e : PyError) :
    refusesWith "write_revision_conflict" (resolutionFailed permitted e) = false := by
  unfold resolutionFailed
  split
  · simp [refusesWith, PermittedCall.refusal, failure]
  · rfl

theorem rootFailed_conflict (e : PyError) :
    refusesWith "write_revision_conflict" (rootFailed permitted e) = false := by
  unfold rootFailed
  split
  · simp [refusesWith, PermittedCall.refusal, failure]
  · simp [refusesWith, PermittedCall.refusal, failure]
  · exact resolutionFailed_conflict _

theorem rootGate_conflict :
    refusesWith "write_revision_conflict" (rootGate settings permitted db).1 = false := by
  unfold rootGate
  simp only
  split
  · simp [refusesWith, PermittedCall.refusal, failure]
  · split
    · simp [refusesWith, PermittedCall.refusal, failure]
    · exact rootFailed_conflict _
    · split
      · exact rootFailed_conflict _
      · simp [refusesWith, PermittedCall.refusal, failure]
      · rfl

/-- The resolved target of the call falls under a target of the scope, with another
revision than the one that the scope holds for it. -/
def Conflicts (permitted : PermittedCall) : Prop :=
  ∃ actual allowed, permitted.resolver = some (.ok actual) ∧
    allowedTarget permitted.context actual = some allowed ∧
    allowed.expectedRevision.isSome = true ∧ actual.expectedRevision ≠ allowed.expectedRevision

theorem scopedGate_conflict_iff :
    refusesWith "write_revision_conflict" (scopedGate settings permitted db).1 = true ↔
      Conflicts permitted := by
  unfold scopedGate Conflicts
  simp only
  cases hresolver : permitted.resolver with
  | none => simp [refusesWith, PermittedCall.refusal, failure]
  | some answer =>
      cases answer with
      | error e => simp [resolutionFailed_conflict]
      | ok actual =>
          cases hallowed : allowedTarget permitted.context actual with
          | none => simp [hallowed, refusesWith, PermittedCall.refusal, failure]
          | some allowed =>
              by_cases hconflict : allowed.expectedRevision.isSome = true ∧
                  actual.expectedRevision ≠ allowed.expectedRevision
              · refine iff_of_true ?_ ⟨actual, allowed, rfl, hallowed, hconflict⟩
                simp only [hallowed, if_pos hconflict]
                simp [refusesWith, PermittedCall.refusal, failure]
              · refine iff_of_false ?_ ?_
                · simp only [hallowed, if_neg hconflict]
                  split
                  · split
                    · simp [refusesWith]
                    · simp [refusesWith, PermittedCall.refusal, failure]
                  · simp [refusesWith]
                · rintro ⟨_, _, hactual, hallowed', hother⟩
                  cases hactual
                  rw [hallowed] at hallowed'
                  cases hallowed'
                  exact hconflict hother

theorem writeGate_conflict_iff :
    refusesWith "write_revision_conflict" (writeGate settings permitted db).1 = true ↔
      permitted.definition.effect.isWrite = true ∧
      (permitted.context.writeScopeRequired = true → settings.hasStore = true) ∧
      Conflicts permitted := by
  have hscoped : Conflicts permitted → permitted.context.writeScope ≠ [] := by
    rintro ⟨actual, allowed, _, hallowed, _⟩ hempty
    have hmem := (allowedTarget_some hallowed).1
    rw [hempty] at hmem
    cases hmem
  unfold writeGate
  simp only
  split
  · rename_i hmissing
    refine iff_of_false (by simp [refusesWith, PermittedCall.refusal, failure]) ?_
    exact fun hconflict => hscoped hconflict.2.2 hmissing.2.1
  · split
    · rename_i hunvalidated
      refine iff_of_false (by simp [refusesWith, PermittedCall.refusal, failure]) ?_
      intro hconflict
      have hstore := hconflict.2.1 hunvalidated.1
      simp [hstore] at hunvalidated
    · rename_i hvalidated
      split
      · rename_i hscope
        rw [scopedGate_conflict_iff]
        refine ⟨fun hconflict => ⟨hscope.2, ?_, hconflict⟩, fun hconflict => hconflict.2.2⟩
        intro hrequired
        by_contra hnone
        exact hvalidated ⟨hrequired, by simpa using hnone, hscope.2⟩
      · rename_i hunscoped
        have hno : ¬ (permitted.definition.effect.isWrite = true ∧
            (permitted.context.writeScopeRequired = true → settings.hasStore = true) ∧
            Conflicts permitted) :=
          fun hconflict => hunscoped ⟨hscoped hconflict.2.2, hconflict.1⟩
        split
        · exact iff_of_false (by simp [rootGate_conflict]) hno
        · exact iff_of_false (by simp [refusesWith]) hno

end ToolExecutor

/-! ### The revisions of the lock rows -/

/-- The rows agree on the owner, the key and the revision. -/
structure LockRow.SamePin (a b : LockRow) : Prop where
  owner : a.ownerNodeId = b.ownerNodeId
  key : a.key = b.key
  revision : a.expectedRevision = b.expectedRevision

theorem LockRow.SamePin.refl (lock : LockRow) : lock.SamePin lock := ⟨rfl, rfl, rfl⟩

section Rows

variable {floor : Int → Int} {db after : GraphDatabase}

/-- A transaction that grants the owner nothing writes no revision to its rows. -/
theorem GraphOp.LockEffect.mem_samePin {clock : Int} {op : GraphOp}
    (heffect : LockEffect floor clock db op after) (hunique : UniqueLocks db) {lock : LockRow}
    (hlock : lock ∈ after.locks)
    (hnone : ∀ key, op.grantedExpiry db lock.ownerNodeId key = none) :
    ∃ old ∈ db.locks, old.SamePin lock := by
  cases heffect with
  | drop cond hlocks _ _ =>
      rw [hlocks] at hlock
      exact ⟨lock, (Table.mem_delete.mp hlock).1, .refl lock⟩
  | take taken hlocks hgrants =>
      have hpurged : UniqueLocks (AgentStore.purgeLocks db (op.nowMs clock)) := hunique.delete rfl
      rw [hlocks] at hlock
      have hungranted := hnone taken.key
      rw [hgrants] at hungranted
      rcases AgentStore.takeLock_cases hpurged taken with ⟨_, htake⟩ | ⟨existing, hmem, hkey, hcase⟩
      · rw [htake] at hlock
        rcases List.mem_append.mp hlock with hold | hnew
        · exact ⟨lock, (mem_purgeLocks.mp hold).1, .refl lock⟩
        · rw [List.mem_singleton.mp hnew, htake] at hungranted
          simp at hungranted
      · rcases hcase with ⟨_, htake⟩ | ⟨howner, htake⟩
        · rw [htake] at hlock
          exact ⟨lock, (mem_purgeLocks.mp hlock).1, .refl lock⟩
        · rw [htake] at hlock
          rcases Table.mem_update_cases hlock with ⟨hold, _⟩ | ⟨old, hold, holdKey, rfl⟩
          · exact ⟨lock, (mem_purgeLocks.mp hold).1, .refl lock⟩
          · -- The updated row is the one that the owner has held.
            have hsame : old = existing :=
              List.inj_on_of_nodup_map hpurged hold hmem ((of_decide_eq_true holdKey).trans hkey.symm)
            rw [htake, hsame] at hungranted
            simp [howner] at hungranted
  | renew ownerId targets nowMs leaseMs _ _ hlocks _ =>
      rw [hlocks] at hlock
      rcases Table.mem_update_cases hlock with ⟨hold, _⟩ | ⟨old, hold, _, rfl⟩
      · exact ⟨lock, hold, .refl lock⟩
      · exact ⟨old, hold, rfl, rfl, rfl⟩

theorem renewWriteScope_samePin {ownerId : String} {targets : List WriteScopeTarget}
    {nowMs leaseMs : Int} {lock : LockRow}
    (hlock : lock ∈ (AgentStore.renewWriteScope ownerId targets nowMs leaseMs db).2.locks) :
    ∃ old ∈ db.locks, old.SamePin lock := by
  unfold AgentStore.renewWriteScope at hlock
  split at hlock
  · exact ⟨lock, hlock, .refl lock⟩
  · rename_i hskip
    have hlease : 1 ≤ leaseMs := by
      have hnot := (not_or.mp hskip).2
      omega
    rw [renewTargets_eq hlease] at hlock
    rcases Table.mem_update_cases hlock with ⟨hold, _⟩ | ⟨old, hold, _, rfl⟩
    · exact ⟨lock, hold, .refl lock⟩
    · exact ⟨old, hold, rfl, rfl, rfl⟩

theorem GraphOp.grantedExpiry_of_not_takesFor {op : GraphOp} {nodeId : String}
    (htakes : op.takesFor db nodeId = false)
    (hrenew : ∀ ownerId targets nowMs leaseMs, op ≠ .renewWriteScope ownerId targets nowMs leaseMs)
    (key : LockKey) : op.grantedExpiry db nodeId key = none := by
  cases op with
  | acquireLock graphId owner target nowMs leaseMs =>
      have hother : nodeId ≠ owner := fun heq => by simp [takesFor, heq] at htakes
      simp only [grantedExpiry]
      split
      · simp [hother]
      · rfl
  | acquireRootWriteScope rootRunId tenantKey target nowMs leaseMs =>
      simp only [takesFor, grantedExpiry] at htakes
      simp only [grantedExpiry]
      split
      · rename_i ownerId _ hok
        rw [hok] at htakes
        have hother : nodeId ≠ ownerId := fun heq => by simp [heq] at htakes
        simp [hother]
      · rfl
  | renewWriteScope ownerId targets nowMs leaseMs =>
      exact absurd rfl (hrenew ownerId targets nowMs leaseMs)
  | _ => rfl

/-- A transaction that takes no lock for the node leaves the revisions of its locks. -/
theorem GraphOp.apply_samePin (hshape : GraphShape db) (hunique : UniqueLocks db) {op : GraphOp}
    {nodeId : String} (htakes : op.takesFor db nodeId = false) {lock : LockRow}
    (hlock : lock ∈ (op.apply floor db).locks) (howner : lock.ownerNodeId = nodeId) :
    ∃ old ∈ db.locks, old.SamePin lock := by
  by_cases hrenew : ∃ ownerId targets nowMs leaseMs,
      op = .renewWriteScope ownerId targets nowMs leaseMs
  · obtain ⟨ownerId, targets, nowMs, leaseMs, rfl⟩ := hrenew
    exact renewWriteScope_samePin hlock
  · have hnone : ∀ key, op.grantedExpiry db nodeId key = none := by
      refine GraphOp.grantedExpiry_of_not_takesFor htakes ?_
      intro ownerId targets nowMs leaseMs heq
      exact hrenew ⟨ownerId, targets, nowMs, leaseMs, heq⟩
    exact (lockEffect floor 0 hshape op).mem_samePin hunique hlock (howner ▸ hnone)

/-- A lock that is acquired for a node gets the revision of its target; the other locks of
the node keep theirs. -/
theorem acquireLock_revision (hunique : UniqueLocks db) {graphId nodeId : String}
    {target : ResourceTarget} {nowMs leaseMs : Int} {granted : Bool}
    (hok : AgentStore.acquireLock graphId nodeId target nowMs leaseMs db = .ok (granted, after))
    {lock : LockRow} (hlock : lock ∈ after.locks) :
    (granted = true ∧ lock.ownerNodeId = nodeId ∧
      lock.key = ⟨target.tenantKey, target.resourceType, target.resourceId⟩ ∧
        lock.expectedRevision = target.expectedRevision) ∨
    ((granted = true → lock.key ≠ ⟨target.tenantKey, target.resourceType, target.resourceId⟩) ∧
      ∃ old ∈ db.locks, old.SamePin lock) := by
  obtain ⟨_, htake⟩ := AgentStore.acquireLock_ok hok
  have hpurged : UniqueLocks (AgentStore.purgeLocks db nowMs) := hunique.delete rfl
  rcases AgentStore.takeLock_cases hpurged ⟨target.tenantKey, target.resourceType, target.resourceId, graphId,
      nodeId, target.expectedRevision, nowMs + leaseMs⟩ with
    ⟨hfree, htaken⟩ | ⟨existing, hmem, hkey, ⟨_, htaken⟩ | ⟨howner, htaken⟩⟩
  · rw [htaken] at htake
    cases htake
    rcases List.mem_append.mp hlock with hold | hnew
    · exact .inr ⟨fun _ => hfree lock hold, lock, (GraphOp.mem_purgeLocks.mp hold).1, .refl lock⟩
    · rw [List.mem_singleton.mp hnew]
      exact .inl ⟨rfl, rfl, rfl, rfl⟩
  · rw [htaken] at htake
    cases htake
    exact .inr ⟨nofun, lock, (GraphOp.mem_purgeLocks.mp hlock).1, .refl lock⟩
  · rw [htaken] at htake
    cases htake
    rcases Table.mem_update_cases hlock with ⟨hold, hother⟩ | ⟨old, hold, holdKey, rfl⟩
    · refine .inr ⟨fun _ => ?_, lock, (GraphOp.mem_purgeLocks.mp hold).1, .refl lock⟩
      simpa [LockRow.key] using hother
    · have hsame : old = existing :=
        List.inj_on_of_nodup_map hpurged hold hmem ((of_decide_eq_true holdKey).trans hkey.symm)
      exact .inl ⟨rfl, hsame ▸ howner, of_decide_eq_true holdKey, rfl⟩

end Rows

namespace LockedChild

variable {floor : Int → Int} {settings : LockSettings} {s t : LockedChild}

/-- The text is the revision that the target had at the mark. -/
structure ReadAs (s : LockedChild) (text : Option String) (key : String × String) (mark : Nat) :
    Prop where
  past : mark ≤ s.log.length
  text : text = (Edit.versionOf s.initial (Edit.before s.log mark) key).map toString

/-- Every revision that is compared or copied was read at its mark. -/
structure Pinned (s : LockedChild) : Prop where
  shape : GraphShape s.db
  unique : UniqueLocks s.db
  raising : Edit.Raising s.initial s.log
  resolved : ∀ entry ∈ s.resolved, entry.1.tenantKey = s.tenantKey ∧
    s.ReadAs entry.1.expectedRevision (entry.1.resourceType, entry.1.resourceId) entry.2
  locks : ∀ lock ∈ s.db.locks, lock.ownerNodeId = s.nodeId → lock.tenantKey = s.tenantKey ∧
    s.ReadAs lock.expectedRevision (lock.resourceType, lock.resourceId)
      (s.pins (lock.resourceType, lock.resourceId)).readAt
  scope : ∀ context, s.context = some context → ∀ target ∈ context.writeScope,
    s.ReadAs target.expectedRevision target.key (s.scopePins target.key).readAt

theorem ReadAs.now (s : LockedChild) (key : String × String) :
    s.ReadAs (s.liveTarget key).expectedRevision key s.log.length := by
  refine ⟨le_refl _, ?_⟩
  rw [Edit.before_length]
  rfl

/-- A revision that was read is another than the live one exactly when the target has been
edited since. -/
theorem ReadAs.conflict_iff {text : Option String} {key : String × String} {mark : Nat}
    (hread : s.ReadAs text key mark) (hraising : Edit.Raising s.initial s.log)
    (htext : text.isSome = true) :
    (s.liveTarget key).expectedRevision ≠ text ↔ ∃ e ∈ Edit.since s.log mark, e.key = key := by
  have hsome : (Edit.versionOf s.initial (Edit.before s.log mark) key).isSome = true := by
    rw [hread.text, Option.isSome_map] at htext
    exact htext
  have hunedited := Edit.versionOf_eq_iff hraising hread.past hsome
  rw [hread.text, liveTarget, ne_eq, (Option.map_injective Json.toString_injective).eq_iff, hunedited]
  simp

/-- A write is refused for its revision exactly when its target is pinned and has been edited
since the revision was read. -/
theorem Pinned.refused_iff (hpinned : s.Pinned) {context : ToolContext}
    (hcontext : s.context = some context) (write : ChildWrite) :
    refusesWith "write_revision_conflict" (writeGate settings (s.permitted context write) s.db).1 =
        true ↔
      write.definition.effect.isWrite = true ∧
      (context.writeScopeRequired = true → settings.hasStore = true) ∧
      ∃ key, write.target = some (.ok key) ∧ s.isPinned context key = true ∧
        ∃ e ∈ Edit.since s.log (s.scopePins key).readAt, e.key = key := by
  rw [writeGate_conflict_iff]
  refine and_congr_right fun _ => and_congr_right fun _ => ?_
  have hresolver (actual : WriteScopeTarget) :
      (s.permitted context write).resolver = some (.ok actual) ↔
        ∃ key, write.target = some (.ok key) ∧ s.liveTarget key = actual := by
    unfold permitted
    cases write.target with
    | none => simp
    | some answer => cases answer <;> simp [Except.map]
  have hread {key : String × String} {allowed : WriteScopeTarget}
      (hallowed : allowedTarget context (s.liveTarget key) = some allowed) :
      s.ReadAs allowed.expectedRevision key (s.scopePins key).readAt := by
    obtain ⟨hmem, htype, hid⟩ := allowedTarget_some hallowed
    have hkey : allowed.key = key := Prod.ext htype hid
    exact hkey ▸ hpinned.scope context hcontext allowed hmem
  constructor
  · rintro ⟨actual, allowed, hactual, hallowed, hsome, hother⟩
    obtain ⟨key, hkey, rfl⟩ := (hresolver actual).mp hactual
    refine ⟨key, hkey, ?_, ((hread hallowed).conflict_iff hpinned.raising hsome).mp hother⟩
    exact (Option.any_eq_true _ _).mpr ⟨allowed, hallowed, hsome⟩
  · rintro ⟨key, hkey, hpin, hedited⟩
    unfold isPinned at hpin
    obtain ⟨allowed, hallowed, hsome⟩ := (Option.any_eq_true _ _).mp hpin
    refine ⟨s.liveTarget key, allowed, (hresolver _).mpr ⟨key, hkey, rfl⟩, hallowed, hsome, ?_⟩
    exact ((hread hallowed).conflict_iff hpinned.raising hsome).mpr hedited

theorem Pinned.refusedForOthers_iff (hpinned : s.Pinned) (event : ChildEvent) :
    s.RefusedForOthers settings event ↔ s.MovedByOthers settings event := by
  cases event with
  | write write =>
      constructor
      · intro hproperty context hcontext hidle hwrite hstore key hkey hpin hedited
        have hrefused := (hpinned.refused_iff hcontext write).mpr
          ⟨hwrite, hstore, key, hkey, hpin, hedited⟩
        obtain ⟨key', hkey', hothers⟩ := hproperty context hcontext hidle hrefused
        rw [hkey] at hkey'
        cases hkey'
        exact hothers
      · intro hmoved context hcontext hidle hrefused
        obtain ⟨hwrite, hstore, key, hkey, hpin, hedited⟩ :=
          (hpinned.refused_iff hcontext write).mp hrefused
        exact ⟨key, hkey, hmoved context hcontext hidle hwrite hstore key hkey hpin hedited⟩
  | _ => exact Iff.rfl

/-! ### Runs -/

theorem ReadAs.edited {text : Option String} {key : String × String} {mark : Nat}
    (hread : s.ReadAs text key mark) {e : Edit (String × String) Editor}
    (hlog : t.log = e :: s.log) (hinitial : t.initial = s.initial) : t.ReadAs text key mark := by
  refine ⟨?_, ?_⟩
  · rw [hlog]
    exact Nat.le_succ_of_le hread.past
  · rw [hlog, hinitial, Edit.before_cons hread.past]
    exact hread.text

theorem ReadAs.same {text : Option String} {key : String × String} {mark : Nat}
    (hread : s.ReadAs text key mark) (hlog : t.log = s.log) (hinitial : t.initial = s.initial) :
    t.ReadAs text key mark := by
  refine ⟨hlog ▸ hread.past, ?_⟩
  rw [hlog, hinitial]
  exact hread.text

theorem Pinned.edit (hpinned : s.Pinned) {key : String × String} {version : Option Nat}
    {author : Editor} (hedit : s.edit key version author = some t) : t.Pinned := by
  unfold LockedChild.edit at hedit
  split at hedit
  · rename_i hraises
    cases hedit
    have hkeeps {text : Option String} {key' : String × String} {mark : Nat}
        (hread : s.ReadAs text key' mark) :
        ({ s with log := ⟨key, version, author⟩ :: s.log } : LockedChild).ReadAs text key' mark :=
      hread.edited rfl rfl
    refine ⟨hpinned.shape, hpinned.unique, ⟨hraises, hpinned.raising⟩, ?_, ?_, ?_⟩
    · intro entry hentry
      exact ⟨(hpinned.resolved entry hentry).1, hkeeps (hpinned.resolved entry hentry).2⟩
    · intro lock hlock howner
      exact ⟨(hpinned.locks lock hlock howner).1, hkeeps (hpinned.locks lock hlock howner).2⟩
    · intro context hcontext target htarget
      exact hkeeps (hpinned.scope context hcontext target htarget)
  · cases hedit

/-- A transaction that leaves the revisions of the child's rows. -/
theorem Pinned.transact (hpinned : s.Pinned) {db : GraphDatabase} (hshape : GraphShape db)
    (hunique : UniqueLocks db)
    (hrows : ∀ lock ∈ db.locks, lock.ownerNodeId = s.nodeId → ∃ old ∈ s.db.locks, old.SamePin lock)
    (writing : Option (String × String)) : ({ s with db, writing } : LockedChild).Pinned := by
  refine ⟨hshape, hunique, hpinned.raising, ?_, ?_, ?_⟩
  · intro entry hentry
    exact ⟨(hpinned.resolved entry hentry).1, (hpinned.resolved entry hentry).2.same rfl rfl⟩
  · intro lock hlock howner
    obtain ⟨old, hold, hsame⟩ := hrows lock hlock howner
    obtain ⟨htenant, hread⟩ := hpinned.locks old hold (hsame.owner.trans howner)
    have hkey := hsame.key
    simp only [LockRow.key, LockKey.mk.injEq] at hkey
    obtain ⟨hsameTenant, htype, hid⟩ := hkey
    rw [htype, hid, hsame.revision] at hread
    exact ⟨hsameTenant ▸ htenant, hread.same rfl rfl⟩
  · intro context hcontext target htarget
    exact (hpinned.scope context hcontext target htarget).same rfl rfl

theorem Pinned.apply (hpinned : s.Pinned) {op : GraphOp} (htakes : op.takesFor s.db s.nodeId = false)
    (writing : Option (String × String)) :
    ({ s with db := op.apply floor s.db, writing } : LockedChild).Pinned :=
  hpinned.transact (GraphOp.shape hpinned.shape op)
    ((GraphOp.lockEffect floor 0 hpinned.shape op).unique hpinned.unique)
    (fun _ hlock howner => op.apply_samePin hpinned.shape hpinned.unique htakes hlock howner) writing

theorem Pinned.resolve (hpinned : s.Pinned) (key : String × String) :
    ({ s with
      resolved := s.resolved ++ [(⟨s.tenantKey, (s.liveTarget key).resourceType,
        (s.liveTarget key).resourceId, (s.liveTarget key).expectedRevision⟩, s.log.length)] } :
      LockedChild).Pinned := by
  refine ⟨hpinned.shape, hpinned.unique, hpinned.raising, ?_, ?_, ?_⟩
  · intro entry hentry
    rcases List.mem_append.mp hentry with hold | hnew
    · exact ⟨(hpinned.resolved entry hold).1, (hpinned.resolved entry hold).2.same rfl rfl⟩
    · rw [List.mem_singleton.mp hnew]
      exact ⟨rfl, (ReadAs.now s key).same rfl rfl⟩
  · intro lock hlock howner
    exact ⟨(hpinned.locks lock hlock howner).1, (hpinned.locks lock hlock howner).2.same rfl rfl⟩
  · intro context hcontext target htarget
    exact (hpinned.scope context hcontext target htarget).same rfl rfl

theorem Pinned.acquire (hpinned : s.Pinned) {graphId : String} {entry : ResourceTarget × Nat}
    (hentry : entry ∈ s.resolved) {nowMs leaseMs : Int} {db : GraphDatabase}
    (hok : AgentStore.acquireLock graphId s.nodeId entry.1 nowMs leaseMs s.db = .ok (true, db)) :
    ({ s with
      db
      pins := Function.update s.pins (entry.1.resourceType, entry.1.resourceId)
        ⟨entry.2, s.log.length⟩ } : LockedChild).Pinned := by
  obtain ⟨htenant, hread⟩ := hpinned.resolved entry hentry
  have happly : GraphOp.apply id (.acquireLock graphId s.nodeId entry.1 nowMs leaseMs) s.db = db := by
    simp [GraphOp.apply, GraphDatabase.transaction, hok]
  have hshape : GraphShape (GraphOp.apply id (.acquireLock graphId s.nodeId entry.1 nowMs leaseMs)
      s.db) := GraphOp.shape hpinned.shape _
  have hunique := (GraphOp.lockEffect id 0 hpinned.shape
    (.acquireLock graphId s.nodeId entry.1 nowMs leaseMs)).unique hpinned.unique
  rw [happly] at hshape hunique
  refine ⟨hshape, hunique, hpinned.raising, ?_, ?_, ?_⟩
  · intro other hother
    exact ⟨(hpinned.resolved other hother).1, (hpinned.resolved other hother).2.same rfl rfl⟩
  · intro lock hlock howner
    rcases acquireLock_revision hpinned.unique hok hlock with
      ⟨_, _, hkey, hrevision⟩ | ⟨hother, old, hold, hsame⟩
    · simp only [LockRow.key, LockKey.mk.injEq] at hkey
      obtain ⟨hlockTenant, htype, hid⟩ := hkey
      refine ⟨hlockTenant.trans htenant, ?_⟩
      rw [htype, hid, hrevision]
      simp only [Function.update_self]
      exact hread.same rfl rfl
    · obtain ⟨holdTenant, holdRead⟩ := hpinned.locks old hold (hsame.owner.trans howner)
      have hkey := hsame.key
      simp only [LockRow.key, LockKey.mk.injEq] at hkey
      obtain ⟨hsameTenant, htype, hid⟩ := hkey
      have hlockTenant : lock.tenantKey = s.tenantKey := hsameTenant ▸ holdTenant
      have hne : (lock.resourceType, lock.resourceId) ≠
          (entry.1.resourceType, entry.1.resourceId) := by
        intro heq
        obtain ⟨htype', hid'⟩ := Prod.mk.injEq .. ▸ heq
        exact hother rfl (by simp [LockRow.key, htype', hid', hlockTenant, htenant])
      refine ⟨hlockTenant, ?_⟩
      simp only [Function.update_of_ne hne]
      rw [htype, hid, hsame.revision] at holdRead
      exact holdRead.same rfl rfl
  · intro context hcontext target htarget
    exact (hpinned.scope context hcontext target htarget).same rfl rfl

/-- The scope of a run is made of the rows that the child owns. -/
theorem Pinned.start (hpinned : s.Pinned) (parent : ToolContext) (node : AgentNode) (nowMs : Int) :
    ({ s with
      db := (AgentStore.listLocks s.nodeId nowMs s.db).2
      context := some (DelegatedHarnessWorker.toolContext parent node
        (AgentStore.listLocks s.nodeId nowMs s.db).1)
      scopePins := s.pins
      writing := none } : LockedChild).Pinned := by
  have hlisted : ({ s with
      db := GraphOp.apply id (.listLocks s.nodeId nowMs) s.db
      writing := none } : LockedChild).Pinned := hpinned.apply rfl none
  refine ⟨hlisted.shape, hlisted.unique, hlisted.raising, ?_, ?_, ?_⟩
  · intro entry hentry
    exact ⟨(hpinned.resolved entry hentry).1, (hpinned.resolved entry hentry).2.same rfl rfl⟩
  · intro lock hlock howner
    exact ⟨(hlisted.locks lock hlock howner).1, (hlisted.locks lock hlock howner).2.same rfl rfl⟩
  · intro context hcontext target htarget
    cases hcontext
    simp only [DelegatedHarnessWorker.toolContext, AgentStore.listLocks, List.mem_map,
      List.mem_insertionSort, List.mem_filter, decide_eq_true_eq] at htarget
    obtain ⟨lock, ⟨hlock, howner⟩, rfl⟩ := htarget
    have hold := (GraphOp.mem_purgeLocks.mp hlock).1
    exact (hpinned.locks lock hold howner).2.same rfl rfl

theorem Pinned.init (nodeId tenantKey : String) (initial : String × String → Option Nat) :
    ({ nodeId, tenantKey, initial } : LockedChild).Pinned :=
  ⟨GraphShape.empty, List.nodup_nil, trivial, fun _ h => absurd h List.not_mem_nil,
    fun _ h => absurd h List.not_mem_nil, nofun⟩

/-- The guards of a write under a scope leave the store as it is, or renew the scope. -/
theorem writeGate_db (floor : Int → Int) (settings : LockSettings) {permitted : PermittedCall}
    (db : GraphDatabase)
    (hscope : permitted.context.writeScope ≠ [])
    (hwrite : permitted.definition.effect.isWrite = true) :
    (writeGate settings permitted db).2 = db ∨
      (writeGate settings permitted db).2 =
        (GraphOp.renewWriteScope permitted.context.runId permitted.context.writeScope
          permitted.nowMs settings.writeLockLeaseMs).apply floor db := by
  unfold writeGate
  simp only
  split
  · exact .inl rfl
  · split
    · exact .inl rfl
    · rw [if_pos ⟨hscope, hwrite⟩]
      unfold scopedGate
      simp only [GraphOp.apply]
      split
      · exact .inl rfl
      · exact .inl rfl
      · split
        · exact .inl rfl
        · split
          · exact .inl rfl
          · split
            · split
              · rename_i hrenew
                exact .inr (by rw [hrenew])
              · rename_i hrenew
                exact .inr (by rw [hrenew])
            · exact .inl rfl

theorem Pinned.write (hpinned : s.Pinned) (settings : LockSettings) {context : ToolContext} {write : ChildWrite}
    (hscope : context.writeScope ≠ []) (hwrite : write.definition.effect.isWrite = true)
    (writing : Option (String × String)) :
    ({ s with db := (writeGate settings (s.permitted context write) s.db).2, writing } :
      LockedChild).Pinned := by
  have hscope' : (s.permitted context write).context.writeScope ≠ [] := hscope
  rcases writeGate_db id settings s.db hscope' hwrite with hsame | hrenewed
  · rw [hsame]
    exact hpinned.transact hpinned.shape hpinned.unique
      (fun lock hlock _ => ⟨lock, hlock, .refl lock⟩) writing
  · rw [hrenewed]
    exact hpinned.apply rfl writing

theorem Pinned.step (hpinned : s.Pinned) {event : ChildEvent}
    (hstep : s.step floor settings event = some t) : t.Pinned := by
  cases event with
  | edited key version => exact hpinned.edit hstep
  | resolve key =>
      cases hstep
      exact hpinned.resolve key
  | transact op =>
      dsimp only [LockedChild.step] at hstep
      split at hstep
      · cases hstep
      · rename_i htakes
        cases hstep
        exact hpinned.apply (by simpa using htakes) s.writing
  | acquire graphId index nowMs leaseMs =>
      dsimp only [LockedChild.step] at hstep
      split at hstep
      · cases hstep
      · rename_i target readAt hentry
        have hmem : (target, readAt) ∈ s.resolved := List.mem_of_getElem? hentry
        split at hstep
        · cases hstep
          exact hpinned
        · rename_i db hok
          cases hstep
          have happly : GraphOp.apply id (.acquireLock graphId s.nodeId target nowMs leaseMs) s.db =
              db := by
            simp [GraphOp.apply, GraphDatabase.transaction, hok]
          refine hpinned.transact (happly ▸ GraphOp.shape hpinned.shape _) (happly ▸
            (GraphOp.lockEffect id 0 hpinned.shape _).unique hpinned.unique) ?_ s.writing
          intro lock hlock _
          rcases acquireLock_revision hpinned.unique hok hlock with ⟨hgranted, _⟩ | ⟨_, hold⟩
          · cases hgranted
          · exact hold
        · rename_i db hok
          cases hstep
          exact hpinned.acquire hmem hok
  | start parent nowMs =>
      dsimp only [LockedChild.step] at hstep
      split at hstep
      · cases hstep
      · cases hstep
        exact hpinned.start parent _ nowMs
  | write write =>
      dsimp only [LockedChild.step] at hstep
      split at hstep
      · cases hstep
      · rename_i context _
        split at hstep
        · cases hstep
        · rename_i hlocked
          rw [not_or, not_or] at hlocked
          obtain ⟨hscope, _, hwrite⟩ := hlocked
          have heffect : write.definition.effect.isWrite = true := by simpa using hwrite
          have hgate (writing : Option (String × String)) :=
            hpinned.write settings hscope heffect writing
          split at hstep
          · rename_i hstarts
            cases hstep
            rw [hstarts] at hgate
            exact hgate _
          · rename_i hrefused
            cases hstep
            rw [hrefused] at hgate
            exact hgate s.writing
  | settle edit verified =>
      dsimp only [LockedChild.step] at hstep
      have hended := hpinned.transact hpinned.shape hpinned.unique
        (fun lock hlock _ => ⟨lock, hlock, .refl lock⟩) none
      split at hstep
      · cases hstep
      · cases hstep
        exact hended
      · exact hended.edit hstep

end LockedChild

open LockedChild in
/-- A write of a locked child is refused for the revision of its target only if somebody
else has edited the target exactly as long as the child writes no pinned target that was
edited, by itself or before it was locked, and by nobody else since. -/
theorem revision_conflict_iff (floor : Int → Int) (settings : LockSettings)
    (nodeId tenantKey : String) (initial : String × String → Option Nat) (ls : List ChildEvent) :
    Along (LockedChild.step floor settings) (RefusedForOthers settings) ls
        { nodeId, tenantKey, initial } ↔
      Along (LockedChild.step floor settings) (MovedByOthers settings) ls
        { nodeId, tenantKey, initial } :=
  along_congr (fun _ _ _ hpinned hstep => Pinned.step hpinned hstep)
    (fun _ event hpinned => hpinned.refusedForOthers_iff event) (Pinned.init nodeId tenantKey initial)

/-! ### A child that edits one document twice -/

namespace SecondEdit

open LockedChild

def handbook : String × String := ("docx", "handbook")

def editTool : ToolDefinition :=
  ⟨"feishu.docs.edit", 1, "edit a document", [], .write, false⟩

def spec (name : String) (role : AgentRole) (toolIds : List String) : NodeSpec :=
  { name, role, taskBrief := "Write it up.", expectedOutputType := "report", toolIds, budgets := []
    requiresWriteScope := toolIds ≠ [] }

def parent : ToolContext :=
  { runId := "run", nodeId := "/root", tenantKey := "tenant", appId := "app", actorId := "user"
    sessionKey := "tenant/app/chat", identityRef := "bot", policyVersion := 1
    taskId := some "task" }

def write (callId : String) (nowMs : Int) : ChildEvent :=
  .write ⟨editTool, ⟨callId, "feishu.docs.edit", []⟩, some (.ok handbook), nowMs⟩

/-- The delegation locks the handbook at revision 1, and the first edit of the child makes
it revision 2. -/
def firstEdit : List ChildEvent :=
  [.transact (.createGraph ⟨"run", "tenant", spec "root" .orchestrator [], {}⟩ "graph" "root" 0),
    .transact (.spawnChild "graph" "root" (spec "author" .author ["feishu.docs.edit"]) false
      "child" 1),
    .resolve handbook, .acquire "graph" 0 1 300000, .transact (.activateNode "child" 1),
    .transact (.leaseReady "graph" ⟨"delegate:run", 1, 300000, 3⟩), .start parent 1,
    write "call-1" 10, .settle (some (some 2)) true]

/-- `RefusedForOthers` for a write of the handbook. -/
def refusedForOthersAt (settings : LockSettings) (s : LockedChild) : ChildEvent → Bool
  | .write write =>
      s.context.all fun context => s.writing.isSome ||
        !refusesWith "write_revision_conflict"
          (writeGate settings (s.permitted context write) s.db).1 ||
        decide (s.EditedByOthers handbook)
  | _ => true

theorem refusedForOthersAt_of_refusedForOthers {settings : LockSettings} {s : LockedChild}
    {callId : String} {nowMs : Int}
    (hothers : s.RefusedForOthers settings (write callId nowMs)) :
    refusedForOthersAt settings s (write callId nowMs) = true := by
  unfold write at hothers ⊢
  unfold refusedForOthersAt
  cases hcontext : s.context with
  | none => rfl
  | some context =>
      by_cases hwriting : s.writing = none
      · cases hrefuses : refusesWith "write_revision_conflict" (writeGate settings
            (s.permitted context ⟨editTool, ⟨callId, "feishu.docs.edit", []⟩, some (.ok handbook),
              nowMs⟩) s.db).1 with
        | false => simp [hrefuses]
        | true =>
            obtain ⟨key, hkey, hedited⟩ := hothers context hcontext hwriting hrefuses
            cases hkey
            simp [hedited]
      · simp [Option.isSome_iff_ne_none.mpr hwriting]

end SecondEdit

open SecondEdit in
/-- Nobody but the child edits the handbook, and its second edit is refused for the
revision. -/
theorem own_edit_refuses_the_next :
    ¬ Along (LockedChild.step AgentStore.clampZero { hasStore := true })
      (LockedChild.RefusedForOthers { hasStore := true }) (firstEdit ++ [write "call-2" 20])
      { nodeId := "child", tenantKey := "tenant"
        initial := fun key => if key = handbook then some 1 else none } := by
  intro hall
  obtain ⟨s, hrun, htest⟩ := Option.map_eq_some_iff.mp
    (show (exec (LockedChild.step AgentStore.clampZero { hasStore := true }) firstEdit
        { nodeId := "child", tenantKey := "tenant"
          initial := fun key => if key = handbook then some 1 else none }).map
        (fun s => refusedForOthersAt { hasStore := true } s (write "call-2" 20)) = some false by
      decide +kernel)
  rw [refusedForOthersAt_of_refusedForOthers (along_last hall hrun)] at htest
  cases htest

end Codex2Lark
