import Codex2Lark.Core.Errors
import Codex2Lark.Lib.Table

/-!
The operation journal: `claim_idempotency` and `complete_idempotency` of
`storage/runtime_store.py`, and the statement of
`StorageMaintenance.garbage_collect` that deletes journal rows. The table lists
its rows in rowid order.
-/

namespace Codex2Lark.Idempotency

open Lib

inductive IdempotencyState where
  | claimed
  | reconciliationRequired
  | completed
deriving DecidableEq, Repr

structure IdempotencyRow where
  key : String
  operationKind : String
  state : IdempotencyState
  owner : String
  resultRef : Option String
  expiresAtMs : Int
  createdAtMs : Int
  updatedAtMs : Int
deriving DecidableEq, Repr

structure IdempotencyClaim where
  acquired : Bool
  state : IdempotencyState
  resultRef : Option String := none
  recoveryRequired : Bool := false
deriving DecidableEq, Repr

/-- The caller may run the operation without looking at the live resource. -/
def IdempotencyClaim.isFresh (claim : IdempotencyClaim) : Bool :=
  claim.acquired && !claim.recoveryRequired

structure ClaimArgs where
  key : String
  operationKind : String
  owner : String
  expiresAtMs : Int
  nowMs : Int
deriving DecidableEq, Repr

def findRow (key : String) (rows : List IdempotencyRow) : Option IdempotencyRow :=
  rows.find? fun row => row.key = key

def reassigned (args : ClaimArgs) (row : IdempotencyRow) : IdempotencyRow :=
  { row with
    state := .reconciliationRequired, owner := args.owner
    expiresAtMs := args.expiresAtMs, updatedAtMs := args.nowMs }

/-- The row of the key goes to the new owner. -/
def reassign (args : ClaimArgs) (rows : List IdempotencyRow) : List IdempotencyRow :=
  Table.update (fun row => row.key = args.key) (reassigned args) rows

def claimIdempotency (args : ClaimArgs) (rows : List IdempotencyRow) :
    IdempotencyClaim × List IdempotencyRow :=
  match findRow args.key rows with
  | some row =>
      if row.state = .completed then (⟨false, .completed, row.resultRef, false⟩, rows)
      else if args.nowMs < row.expiresAtMs then (⟨false, row.state, row.resultRef, false⟩, rows)
      else (⟨true, .reconciliationRequired, none, true⟩, reassign args rows)
  | none =>
      (⟨true, .claimed, none, false⟩,
        rows ++ [{ key := args.key, operationKind := args.operationKind, state := .claimed
                   owner := args.owner, resultRef := none, expiresAtMs := args.expiresAtMs
                   createdAtMs := args.nowMs, updatedAtMs := args.nowMs }])

structure CompleteArgs where
  key : String
  owner : String
  resultRef : String
  nowMs : Int
deriving DecidableEq, Repr

/-- The `WHERE` of the completing statement. -/
def heldBy (key owner : String) (row : IdempotencyRow) : Bool :=
  row.key = key && (row.state = .claimed || row.state = .reconciliationRequired) &&
    row.owner = owner

def markCompleted (args : CompleteArgs) (row : IdempotencyRow) : IdempotencyRow :=
  { row with
    state := .completed, resultRef := some args.resultRef, updatedAtMs := args.nowMs }

def completeIdempotency (args : CompleteArgs) (rows : List IdempotencyRow) :
    Except PyError (List IdempotencyRow) :=
  if Table.rowcount (heldBy args.key args.owner) rows ≠ 1 then
    .error (.runtimeError "idempotency claim is not owned by caller")
  else
    .ok (Table.update (heldBy args.key args.owner) (markCompleted args) rows)

/-- `SELECT rowid ... WHERE expires_at_ms <= ? ORDER BY rowid LIMIT ?`. -/
def expiredBatch (dueMs : Int) (batchSize : Nat) (rows : List IdempotencyRow) :
    List IdempotencyRow :=
  (rows.filter fun row => row.expiresAtMs ≤ dueMs).take batchSize

def garbageCollect (dueMs batchSize : Int) (rows : List IdempotencyRow) :
    Except PyError (List IdempotencyRow) :=
  if batchSize < 1 ∨ batchSize > 10000 then
    .error (.valueError "gc batch size must be between 1 and 10000")
  else
    let doomed := (expiredBatch dueMs batchSize.toNat rows).map IdempotencyRow.key
    .ok (Table.delete (fun row => doomed.contains row.key) rows)

@[simp] theorem reassigned_key (args : ClaimArgs) (row : IdempotencyRow) :
    (reassigned args row).key = row.key := rfl

@[simp] theorem markCompleted_key (args : CompleteArgs) (row : IdempotencyRow) :
    (markCompleted args row).key = row.key := rfl

theorem findRow_some_iff {rows : List IdempotencyRow}
    (hunique : (rows.map IdempotencyRow.key).Nodup) {key : String} {row : IdempotencyRow} :
    findRow key rows = some row ↔ row ∈ rows ∧ row.key = key :=
  Table.find?_key_iff hunique

theorem findRow_none_iff {rows : List IdempotencyRow} {key : String} :
    findRow key rows = none ↔ ∀ row ∈ rows, row.key ≠ key := by
  simp [findRow]

/-- The four answers of a claim, with the table each of them leaves. -/
theorem claimIdempotency_cases (args : ClaimArgs) (rows : List IdempotencyRow) :
    (findRow args.key rows = none ∧
      (claimIdempotency args rows).1 = ⟨true, .claimed, none, false⟩ ∧
      ∃ row, row.key = args.key ∧ row.state = .claimed ∧
        (claimIdempotency args rows).2 = rows ++ [row]) ∨
    (∃ row, findRow args.key rows = some row ∧
      (((row.state = .completed ∨ args.nowMs < row.expiresAtMs) ∧
        (claimIdempotency args rows).1 = ⟨false, row.state, row.resultRef, false⟩ ∧
        (claimIdempotency args rows).2 = rows) ∨
      (row.state ≠ .completed ∧ row.expiresAtMs ≤ args.nowMs ∧
        (claimIdempotency args rows).1 = ⟨true, .reconciliationRequired, none, true⟩ ∧
        (claimIdempotency args rows).2 = reassign args rows))) := by
  unfold claimIdempotency
  cases hfind : findRow args.key rows with
  | none => exact Or.inl ⟨rfl, rfl, _, rfl, rfl, rfl⟩
  | some row =>
      refine Or.inr ⟨row, rfl, ?_⟩
      by_cases hdone : row.state = .completed
      · simp [hdone]
      · by_cases hlive : args.nowMs < row.expiresAtMs
        · simp [hdone, hlive]
        · have hexpired : row.expiresAtMs ≤ args.nowMs := by omega
          simp [hdone, hlive, hexpired]

theorem reassign_keys (args : ClaimArgs) (rows : List IdempotencyRow) :
    (reassign args rows).map IdempotencyRow.key = rows.map IdempotencyRow.key :=
  Table.map_update IdempotencyRow.key fun _ => rfl

theorem completed_keys (args : CompleteArgs) (rows : List IdempotencyRow) :
    (Table.update (heldBy args.key args.owner) (markCompleted args) rows).map
      IdempotencyRow.key = rows.map IdempotencyRow.key :=
  Table.map_update IdempotencyRow.key fun _ => rfl

theorem findRow_update {cond : IdempotencyRow → Bool} {change : IdempotencyRow → IdempotencyRow}
    (hkeep : ∀ row, (change row).key = row.key) (key : String) (rows : List IdempotencyRow) :
    findRow key (Table.update cond change rows) =
      (findRow key rows).map fun row => if cond row then change row else row :=
  Table.find?_update IdempotencyRow.key key hkeep

theorem key_of_findRow {key : String} {rows : List IdempotencyRow} {row : IdempotencyRow}
    (hfind : findRow key rows = some row) : row.key = key := by
  simpa using List.find?_some hfind

theorem findRow_reassign_self {args : ClaimArgs} {rows : List IdempotencyRow}
    {row : IdempotencyRow} (hfind : findRow args.key rows = some row) :
    findRow args.key (reassign args rows) = some (reassigned args row) := by
  rw [reassign, findRow_update (reassigned_key args), hfind]
  simp [key_of_findRow hfind]

theorem findRow_claim_ne {args : ClaimArgs} {rows : List IdempotencyRow} {key : String}
    (hne : key ≠ args.key) :
    findRow key (claimIdempotency args rows).2 = findRow key rows := by
  rcases claimIdempotency_cases args rows with
    ⟨_, _, fresh, hfresh, _, hrows⟩ | ⟨_, _, ⟨_, _, hrows⟩ | ⟨_, _, _, hrows⟩⟩
  · have hother : fresh.key ≠ key := by
      rw [hfresh]
      exact hne.symm
    rw [hrows]
    simp [findRow, List.find?_append, hother]
  · rw [hrows]
  · rw [hrows, reassign, findRow_update (reassigned_key args)]
    cases hfind : findRow key rows with
    | none => rfl
    | some row =>
        have hother : row.key ≠ args.key := by
          rw [key_of_findRow hfind]
          exact hne
        simp [hother]

theorem findRow_claim_self (args : ClaimArgs) (rows : List IdempotencyRow) :
    ∃ row, findRow args.key (claimIdempotency args rows).2 = some row ∧
      (row.state = .completed → findRow args.key rows = some row) := by
  rcases claimIdempotency_cases args rows with
    ⟨hfind, _, fresh, hfresh, hstate, hrows⟩ | ⟨row, hfind, ⟨_, _, hrows⟩ | ⟨_, _, _, hrows⟩⟩
  · refine ⟨fresh, ?_, by simp [hstate]⟩
    rw [hrows]
    unfold findRow at hfind ⊢
    simp [List.find?_append, hfind, hfresh]
  · rw [hrows]
    exact ⟨row, hfind, fun _ => hfind⟩
  · rw [hrows]
    exact ⟨reassigned args row, findRow_reassign_self hfind, by simp [reassigned]⟩

theorem claim_of_completed {args : ClaimArgs} {rows : List IdempotencyRow} {row : IdempotencyRow}
    (hfind : findRow args.key rows = some row) (hstate : row.state = .completed) :
    claimIdempotency args rows = (⟨false, .completed, row.resultRef, false⟩, rows) := by
  simp [claimIdempotency, hfind, hstate]

theorem completed_of_claim {args : ClaimArgs} {rows : List IdempotencyRow}
    (hstate : (claimIdempotency args rows).1.state = .completed) :
    ∃ row, findRow args.key rows = some row ∧ row.state = .completed := by
  rcases claimIdempotency_cases args rows with
    ⟨_, hanswer, _⟩ | ⟨row, hfind, ⟨_, hanswer, _⟩ | ⟨_, _, hanswer, _⟩⟩
  · rw [hanswer] at hstate
    cases hstate
  · rw [hanswer] at hstate
    exact ⟨row, hfind, hstate⟩
  · rw [hanswer] at hstate
    cases hstate

theorem absent_of_fresh {args : ClaimArgs} {rows : List IdempotencyRow}
    (hfresh : (claimIdempotency args rows).1.isFresh = true) : findRow args.key rows = none := by
  rcases claimIdempotency_cases args rows with
    ⟨hfind, _⟩ | ⟨_, _, ⟨_, hanswer, _⟩ | ⟨_, _, hanswer, _⟩⟩
  · exact hfind
  · rw [hanswer] at hfresh
    cases hfresh
  · rw [hanswer] at hfresh
    cases hfresh

theorem claim_keys_nodup {args : ClaimArgs} {rows : List IdempotencyRow}
    (hunique : (rows.map IdempotencyRow.key).Nodup) :
    ((claimIdempotency args rows).2.map IdempotencyRow.key).Nodup := by
  rcases claimIdempotency_cases args rows with
    ⟨hfind, _, fresh, hfresh, _, hrows⟩ | ⟨_, _, ⟨_, _, hrows⟩ | ⟨_, _, _, hrows⟩⟩
  · rw [hrows, List.map_append]
    refine List.nodup_append.mpr ⟨hunique, List.nodup_singleton _, ?_⟩
    simp only [List.mem_map, List.map_cons, List.map_nil, List.mem_singleton]
    rintro _ ⟨old, hold, rfl⟩ _ rfl
    rw [hfresh]
    exact findRow_none_iff.mp hfind old hold
  · rw [hrows]
    exact hunique
  · rw [hrows, reassign_keys]
    exact hunique

/-- An accepted completion: the caller held the row, which is completed now. -/
theorem completeIdempotency_ok {args : CompleteArgs} {rows after : List IdempotencyRow}
    (hunique : (rows.map IdempotencyRow.key).Nodup)
    (hok : completeIdempotency args rows = .ok after) :
    after = Table.update (heldBy args.key args.owner) (markCompleted args) rows ∧
      ∃ row, findRow args.key rows = some row ∧ row.state ≠ .completed ∧
        row.owner = args.owner ∧ findRow args.key after = some (markCompleted args row) := by
  unfold completeIdempotency at hok
  split at hok
  · cases hok
  · rename_i hcount
    cases hok
    have hpos : 0 < rows.countP (heldBy args.key args.owner) := by
      have hone : Table.rowcount (heldBy args.key args.owner) rows = 1 := by omega
      simp only [Table.rowcount] at hone
      omega
    obtain ⟨row, hmem, hheld⟩ := List.countP_pos_iff.mp hpos
    have hfacts := hheld
    simp only [heldBy, Bool.and_eq_true, Bool.or_eq_true, decide_eq_true_eq] at hfacts
    obtain ⟨⟨hkey, hstate⟩, howner⟩ := hfacts
    have hfind : findRow args.key rows = some row :=
      (findRow_some_iff hunique).mpr ⟨hmem, hkey⟩
    refine ⟨rfl, row, hfind, ?_, howner, ?_⟩
    · rcases hstate with hstate | hstate <;> simp [hstate]
    · rw [findRow_update (markCompleted_key args), hfind]
      simp [hheld]

theorem findRow_complete_ne {args : CompleteArgs} {rows : List IdempotencyRow} {key : String}
    (hne : key ≠ args.key) :
    findRow key (Table.update (heldBy args.key args.owner) (markCompleted args) rows) =
      findRow key rows := by
  rw [findRow_update (markCompleted_key args)]
  cases hfind : findRow key rows with
  | none => rfl
  | some row =>
      have hother : row.key ≠ args.key := by
        rw [key_of_findRow hfind]
        exact hne
      simp [heldBy, hother]

end Codex2Lark.Idempotency
