import Codex2Lark.Lib.Runs
import Codex2Lark.Storage.Idempotency

/-!
Journal retention. A key stays open from an acquired claim until a completion.
An open key has to be answered with `recovery_required`, whatever is run in
between. Garbage collection looks at `expires_at_ms` only, which for an
incomplete row is the end of the execution lease and not the retention date.
-/

namespace Codex2Lark.Idempotency

open Lib

/-- The journal with the keys that were acquired and not completed since. -/
structure Journal where
  rows : List IdempotencyRow := []
  openKeys : List String := []

inductive JournalOp where
  | claim (args : ClaimArgs)
  | complete (args : CompleteArgs)
  | garbageCollect (nowMs batchSize : Int)

namespace Journal

def claim (args : ClaimArgs) (s : Journal) : Journal :=
  let (outcome, rows) := claimIdempotency args s.rows
  { rows, openKeys := if outcome.acquired then args.key :: s.openKeys else s.openKeys }

def complete (args : CompleteArgs) (s : Journal) : Journal :=
  match completeIdempotency args s.rows with
  | .ok rows => { rows, openKeys := s.openKeys.filter (· ≠ args.key) }
  | .error _ => s

def collect (nowMs batchSize : Int) (s : Journal) : Journal :=
  match garbageCollect nowMs batchSize s.rows with
  | .ok rows => { s with rows }
  | .error _ => s

def step (s : Journal) : JournalOp → Option Journal
  | .claim args => some (s.claim args)
  | .complete args => some (s.complete args)
  | .garbageCollect nowMs batchSize => some (s.collect nowMs batchSize)

/-- Every claim of an open key that acquires it asks for recovery. -/
def RecoveryKept (s : Journal) : Prop :=
  ∀ args, args.key ∈ s.openKeys → (claimIdempotency args s.rows).1.acquired = true →
    (claimIdempotency args s.rows).1.recoveryRequired = true

/-- A collection whose batch of expired rows holds completed rows only. -/
def CollectsCompleted (s : Journal) : JournalOp → Prop
  | .garbageCollect nowMs batchSize =>
      1 ≤ batchSize → batchSize ≤ 10000 →
        ∀ row ∈ expiredBatch nowMs batchSize.toNat s.rows, row.state = .completed
  | _ => True

/-- Keys are unique, and the open keys are those of the incomplete rows. -/
structure Ok (s : Journal) : Prop where
  unique : (s.rows.map IdempotencyRow.key).Nodup
  held : ∀ key, key ∈ s.openKeys ↔ ∃ row ∈ s.rows, row.key = key ∧ row.state ≠ .completed

end Journal

theorem mem_expiredBatch {dueMs : Int} {n : Nat} {rows : List IdempotencyRow}
    {row : IdempotencyRow} (hmem : row ∈ expiredBatch dueMs n rows) : row ∈ rows :=
  List.mem_of_mem_filter (List.mem_of_mem_take hmem)

namespace Journal

theorem claim_ok {s : Journal} (hok : s.Ok) (args : ClaimArgs) : (s.claim args).Ok := by
  have hunique : ((claimIdempotency args s.rows).2.map IdempotencyRow.key).Nodup :=
    claim_keys_nodup hok.unique
  refine ⟨hunique, ?_⟩
  intro key
  have hheld := hok.held key
  simp only [← and_assoc, ← findRow_some_iff hok.unique] at hheld
  simp only [← and_assoc, ← findRow_some_iff hunique, claim]
  by_cases hthis : key = args.key
  · subst hthis
    rcases claimIdempotency_cases args s.rows with
      ⟨hfind, hanswer, fresh, hkey, hstate, hrows⟩ |
      ⟨row, hfind, ⟨_, hanswer, hrows⟩ | ⟨hopen, _, hanswer, hrows⟩⟩
    · have hafter : findRow args.key (s.rows ++ [fresh]) = some fresh := by
        unfold findRow at hfind ⊢
        simp [List.find?_append, hfind, hkey]
      simp [hanswer, hrows, hafter, hstate]
    · simp [hanswer, hrows, hheld]
    · simp [hanswer, hrows, findRow_reassign_self hfind, reassigned]
  · rw [findRow_claim_ne hthis, ← hheld]
    split <;> simp [hthis]

theorem complete_ok {s : Journal} (hok : s.Ok) (args : CompleteArgs) :
    (s.complete args).Ok := by
  unfold complete
  cases hdone : completeIdempotency args s.rows with
  | error e => exact hok
  | ok rows =>
      obtain ⟨rfl, row, hfind, _, _, hafter⟩ := completeIdempotency_ok hok.unique hdone
      have hunique : ((Table.update (heldBy args.key args.owner) (markCompleted args)
          s.rows).map IdempotencyRow.key).Nodup := by
        rw [completed_keys]
        exact hok.unique
      refine ⟨hunique, ?_⟩
      intro key
      simp only [List.mem_filter, decide_eq_true_eq, hok.held key,
        ← findRow_some_iff hok.unique, ← findRow_some_iff hunique, ← and_assoc]
      by_cases hthis : key = args.key
      · subst hthis
        simp [hafter, markCompleted]
      · simp [findRow_complete_ne hthis, hthis]

theorem garbageCollect_ok_iff {dueMs batchSize : Int} {rows after : List IdempotencyRow} :
    garbageCollect dueMs batchSize rows = .ok after ↔
      1 ≤ batchSize ∧ batchSize ≤ 10000 ∧
        after = Table.delete (fun row => ((expiredBatch dueMs batchSize.toNat rows).map
          IdempotencyRow.key).contains row.key) rows := by
  unfold garbageCollect
  split
  · constructor
    · intro hbad
      cases hbad
    · rintro ⟨hlow, hhigh, _⟩
      omega
  · constructor
    · intro hsame
      cases hsame
      exact ⟨by omega, by omega, rfl⟩
    · rintro ⟨_, _, rfl⟩
      rfl

theorem collect_ok {s : Journal} (hok : s.Ok) {nowMs batchSize : Int}
    (hguard : s.CollectsCompleted (.garbageCollect nowMs batchSize)) :
    (s.collect nowMs batchSize).Ok := by
  unfold collect
  cases hdone : garbageCollect nowMs batchSize s.rows with
  | error e => exact hok
  | ok rows =>
      obtain ⟨hlow, hhigh, rfl⟩ := garbageCollect_ok_iff.mp hdone
      refine ⟨hok.unique.sublist (List.filter_sublist.map _), ?_⟩
      intro key
      simp only [hok.held key, Table.mem_delete]
      constructor
      · rintro ⟨row, hmem, hkey, hstate⟩
        refine ⟨row, ⟨hmem, ?_⟩, hkey, hstate⟩
        simp only [List.contains_eq_mem, List.mem_map, decide_eq_false_iff_not]
        rintro ⟨doomed, hdoomed, hsame⟩
        have hrow : doomed = row :=
          List.inj_on_of_nodup_map hok.unique (mem_expiredBatch hdoomed) hmem hsame
        exact hstate (hrow ▸ hguard hlow hhigh doomed hdoomed)
      · rintro ⟨row, ⟨hmem, _⟩, hkey, hstate⟩
        exact ⟨row, hmem, hkey, hstate⟩

theorem step_ok {s t : Journal} {op : JournalOp} (hok : s.Ok)
    (hguard : s.CollectsCompleted op) (hstep : step s op = some t) : t.Ok := by
  cases op with
  | claim args =>
      cases hstep
      exact claim_ok hok args
  | complete args =>
      cases hstep
      exact complete_ok hok args
  | garbageCollect nowMs batchSize =>
      cases hstep
      exact collect_ok hok hguard

theorem recoveryKept_of_ok {s : Journal} (hok : s.Ok) : s.RecoveryKept := by
  intro args hopen hacquired
  obtain ⟨row, hmem, hkey, hstate⟩ := (hok.held args.key).mp hopen
  have hfind : findRow args.key s.rows = some row :=
    (findRow_some_iff hok.unique).mpr ⟨hmem, hkey⟩
  rcases claimIdempotency_cases args s.rows with
    ⟨hnone, _, _⟩ | ⟨_, _, ⟨_, hanswer, _⟩ | ⟨_, _, hanswer, _⟩⟩
  · rw [hfind] at hnone
    cases hnone
  · rw [hanswer] at hacquired
    cases hacquired
  · rw [hanswer]

/-- A collection that takes an incomplete row makes its key fresh again. -/
theorem fresh_after_collect {s : Journal} {nowMs batchSize : Int} (hlow : 1 ≤ batchSize)
    (hhigh : batchSize ≤ 10000) {row : IdempotencyRow}
    (hmem : row ∈ expiredBatch nowMs batchSize.toNat s.rows) {args : ClaimArgs}
    (hkey : args.key = row.key) :
    (claimIdempotency args (s.collect nowMs batchSize).rows).1 = ⟨true, .claimed, none, false⟩ := by
  have hrows : (s.collect nowMs batchSize).rows =
      Table.delete (fun row => ((expiredBatch nowMs batchSize.toNat s.rows).map
        IdempotencyRow.key).contains row.key) s.rows := by
    rw [collect, garbageCollect_ok_iff.mpr ⟨hlow, hhigh, rfl⟩]
  have hnone : findRow args.key (s.collect nowMs batchSize).rows = none := by
    rw [findRow_none_iff, hrows]
    intro other hother hsame
    have hkept := (Table.mem_delete.mp hother).2
    simp only [List.contains_eq_mem, List.mem_map, decide_eq_false_iff_not] at hkept
    exact hkept ⟨row, hmem, by rw [hsame, hkey]⟩
  simp [claimIdempotency, hnone]

theorem collectsCompleted_of_recoveryKept {s : Journal} {op : JournalOp} (hok : s.Ok)
    (hnext : ∀ t, step s op = some t → t.RecoveryKept) : s.CollectsCompleted op := by
  cases op with
  | claim args => trivial
  | complete args => trivial
  | garbageCollect nowMs batchSize =>
      intro hlow hhigh row hmem
      by_contra hstate
      let args : ClaimArgs :=
        { key := row.key, operationKind := row.operationKind, owner := row.owner
          expiresAtMs := 0, nowMs := 0 }
      have hanswer := fresh_after_collect hlow hhigh hmem (rfl : args.key = row.key)
      have hopenKeys : (s.collect nowMs batchSize).openKeys = s.openKeys := by
        unfold collect
        split <;> rfl
      have hopen : args.key ∈ (s.collect nowMs batchSize).openKeys := by
        rw [hopenKeys]
        exact (hok.held _).mpr ⟨row, mem_expiredBatch hmem, rfl, hstate⟩
      have hrecover := hnext _ rfl args hopen (by rw [hanswer])
      rw [hanswer] at hrecover
      cases hrecover

/-- Over every run from the empty journal, open keys keep asking for recovery
in all states reached exactly when every collection takes completed rows only. -/
theorem recovery_kept_iff_collects_completed (ops : List JournalOp) :
    Always step RecoveryKept ops {} ↔ Along step CollectsCompleted ops {} := by
  have hstart : Journal.Ok {} := ⟨List.nodup_nil, by simp⟩
  exact always_iff_along (fun _ _ _ hok hguard hstep => step_ok hok hguard hstep)
    (fun _ hok => recoveryKept_of_ok hok)
    (fun _ _ hok hnext => collectsCompleted_of_recoveryKept hok hnext) hstart

/-- One claim that outlives its lease, and one collection with the default
batch size: the next claim of the key is fresh. -/
theorem expired_claim_is_collected :
    ¬ Always step RecoveryKept
      [.claim ⟨"operation", "lark.doc.append", "run:/root", 300000, 0⟩,
        .garbageCollect 300000 500] {} := by
  intro hall
  have hlast := (hall.2 _ rfl).2 _ rfl
  have hfresh := hlast ⟨"operation", "lark.doc.append", "run:/root", 600001, 300001⟩
    (by decide) (by decide)
  exact absurd hfresh (by decide)

end Journal

end Codex2Lark.Idempotency
