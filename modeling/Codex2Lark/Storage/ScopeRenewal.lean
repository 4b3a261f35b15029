import Codex2Lark.Storage.LockExclusion

/-!
`renew_write_scope` as one operation: what it answers, and what a refused renewal leaves behind. The
loop returns early, and the transaction commits what the loop has renewed by then.
-/

namespace Codex2Lark

open Lib AgentStore GraphOp

namespace AgentStore

/-- The lock table after the renewal of every lock that meets the condition. -/
def renewed (renews : LockRow → Bool) (nowMs leaseMs : Int) (locks : List LockRow) : List LockRow :=
  Table.update renews (fun lock => { lock with leaseExpiresAtMs := nowMs + leaseMs }) locks

/-- The owner holds the target, with its revision and an unexpired lease. -/
def HoldsTarget (ownerId : String) (nowMs : Int) (locks : List LockRow) (target : WriteScopeTarget) :
    Prop :=
  ∃ lock ∈ locks, isRenewable ownerId nowMs target lock = true

instance (ownerId : String) (nowMs : Int) (locks : List LockRow) (target : WriteScopeTarget) :
    Decidable (HoldsTarget ownerId nowMs locks target) :=
  inferInstanceAs (Decidable (∃ lock ∈ locks, _))

variable {ownerId : String} {targets : List WriteScopeTarget} {nowMs leaseMs : Int}
  {locks : List LockRow} {db : GraphDatabase}

theorem holdsTarget_iff {target : WriteScopeTarget} :
    HoldsTarget ownerId nowMs locks target ↔
      0 < Table.rowcount (isRenewable ownerId nowMs target) locks :=
  List.countP_pos_iff.symm

theorem isRefused_eq_false_iff :
    isRefused ownerId nowMs locks targets = false ↔
      ∀ target ∈ targets, Table.rowcount (isRenewable ownerId nowMs target) locks = 1 := by
  simp [isRefused]

/-- A renewal changes nothing when what it reaches ends at that time already. -/
theorem renewed_eq_self_iff {renews : LockRow → Bool} :
    renewed renews nowMs leaseMs locks = locks ↔
      ∀ lock ∈ locks, renews lock = true → lock.leaseExpiresAtMs = nowMs + leaseMs := by
  unfold renewed Table.update
  constructor
  · intro hsame lock hlock hrenews
    have hfixed : (if renews lock = true then { lock with leaseExpiresAtMs := nowMs + leaseMs }
        else lock) = id lock :=
      List.map_inj_left.mp (hsame.trans locks.map_id.symm) lock hlock
    rw [if_pos hrenews] at hfixed
    exact (congrArg LockRow.leaseExpiresAtMs hfixed).symm
  · intro hends
    refine Eq.trans (List.map_congr_left ?_) locks.map_id
    intro lock hlock
    by_cases hrenews : renews lock = true
    · rw [if_pos hrenews, ← hends lock hlock hrenews]
      rfl
    · exact if_neg hrenews

/-- With every target held once, all of them are reached and nothing else. -/
theorem isReached_of_held (hheld : isRefused ownerId nowMs locks targets = false) :
    isReached ownerId nowMs locks targets =
      fun lock => targets.any fun target => isRenewable ownerId nowMs target lock := by
  funext lock
  rw [isReached, reachedTargets_of_renewed hheld]

/-- The renewal answers `True` exactly when the owner holds every target, then renews these leases
and changes nothing else, and changes no lock when it answers `False`: so it is when every target is
held by exactly one row, or when some target is not held and the loop has renewed nothing by then. -/
theorem renew_write_scope_iff (hsome : targets ≠ []) :
    (((renewWriteScope ownerId targets nowMs leaseMs db).1 = true ↔
          ∀ target ∈ targets, HoldsTarget ownerId nowMs db.locks target) ∧
        ((renewWriteScope ownerId targets nowMs leaseMs db).1 = true →
          (renewWriteScope ownerId targets nowMs leaseMs db).2 = { db with
            locks := renewed (fun lock => targets.any fun target =>
              isRenewable ownerId nowMs target lock) nowMs leaseMs db.locks }) ∧
        ((renewWriteScope ownerId targets nowMs leaseMs db).1 = false →
          (renewWriteScope ownerId targets nowMs leaseMs db).2.locks = db.locks)) ↔
      (1 ≤ leaseMs ∧ ∀ target ∈ targets,
          Table.rowcount (isRenewable ownerId nowMs target) db.locks = 1) ∨
        ((∃ target ∈ targets, ¬ HoldsTarget ownerId nowMs db.locks target) ∧
          (leaseMs < 1 ∨ ∀ lock ∈ db.locks, isReached ownerId nowMs db.locks targets lock = true →
            lock.leaseExpiresAtMs = nowMs + leaseMs)) := by
  by_cases hlease : 1 ≤ leaseMs
  · have hskip : ¬ (targets = [] ∨ leaseMs < 1) := not_or.mpr ⟨hsome, by omega⟩
    have hlong : ¬ leaseMs < 1 := by omega
    have heq : renewWriteScope ownerId targets nowMs leaseMs db =
        (!isRefused ownerId nowMs db.locks targets, { db with
          locks := renewed (isReached ownerId nowMs db.locks targets) nowMs leaseMs db.locks }) := by
      rw [renewWriteScope, if_neg hskip]
      exact renewTargets_eq hlease targets
    rw [heq]
    cases hrefused : isRefused ownerId nowMs db.locks targets with
    | false =>
        have honce := isRefused_eq_false_iff.mp hrefused
        refine iff_of_true ⟨?_, ?_, fun hanswer => by cases hanswer⟩ (.inl ⟨hlease, honce⟩)
        · refine iff_of_true rfl ?_
          intro target htarget
          exact holdsTarget_iff.mpr (by rw [honce target htarget]; decide)
        · intro _
          rw [isReached_of_held hrefused]
    | true =>
        have hnot : ¬ ∀ target ∈ targets,
            Table.rowcount (isRenewable ownerId nowMs target) db.locks = 1 := by
          intro honce
          rw [isRefused_eq_false_iff.mpr honce] at hrefused
          cases hrefused
        constructor
        · rintro ⟨hanswer, -, hunchanged⟩
          have hmissing : ¬ ∀ target ∈ targets, HoldsTarget ownerId nowMs db.locks target := by
            intro hall
            cases hanswer.mpr hall
          refine .inr ⟨by simpa using hmissing, .inr ?_⟩
          exact renewed_eq_self_iff.mp (hunchanged rfl)
        · rintro (⟨-, honce⟩ | ⟨⟨target, htarget, hmissing⟩, hshort | hends⟩)
          · exact absurd honce hnot
          · exact absurd hshort hlong
          · refine ⟨iff_of_false Bool.false_ne_true fun hall => hmissing (hall target htarget),
              fun hanswer => absurd hanswer Bool.false_ne_true, ?_⟩
            intro _
            exact renewed_eq_self_iff.mpr hends
  · have hskip : targets = [] ∨ leaseMs < 1 := .inr (by omega)
    rw [renewWriteScope, if_pos hskip]
    constructor
    · rintro ⟨hanswer, -, -⟩
      have hmissing : ¬ ∀ target ∈ targets, HoldsTarget ownerId nowMs db.locks target := by
        intro hall
        cases hanswer.mpr hall
      exact .inr ⟨by simpa using hmissing, .inl (by omega)⟩
    · rintro (⟨hlong, -⟩ | ⟨⟨target, htarget, hmissing⟩, -⟩)
      · exact absurd hlong hlease
      · exact ⟨iff_of_false Bool.false_ne_true fun hall => hmissing (hall target htarget),
          fun hanswer => absurd hanswer Bool.false_ne_true, fun _ => rfl⟩

private def pageLock : LockRow := ⟨"tenant", "docx", "page-1", "graph", "writer", none, 100⟩

private def pages : List WriteScopeTarget := [⟨"docx", "page-1", none⟩, ⟨"docx", "page-2", none⟩]

/-- Both pages are held. -/
theorem renew_write_scope_both :
    let db : GraphDatabase := { locks := [pageLock, { pageLock with resourceId := "page-2" }] }
    (renewWriteScope "writer" pages 50 1000 db).1 = true := by
  intro db
  have hcontract := (renew_write_scope_iff (by decide)).mpr
    (.inl (⟨by decide, by decide +kernel⟩ : (1 : Int) ≤ 1000 ∧ ∀ target ∈ pages,
      Table.rowcount (isRenewable "writer" 50 target) db.locks = 1))
  exact hcontract.1.mpr (by decide +kernel)

/-- The lock of the second page is lost: the renewal is refused, and the first lease has moved. -/
theorem refused_renewal_moves_lease :
    let db : GraphDatabase := { locks := [pageLock] }
    (renewWriteScope "writer" pages 50 1000 db).1 = false ∧
      (renewWriteScope "writer" pages 50 1000 db).2.locks =
        [{ pageLock with leaseExpiresAtMs := 1050 }] := by
  decide +kernel

end AgentStore

end Codex2Lark
