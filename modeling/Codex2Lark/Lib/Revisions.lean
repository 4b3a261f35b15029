import Mathlib.Data.List.Basic

/-!
Logs of the edits of versioned resources, the newest edit first. A mark is the length
that the log had at some moment: `before` is the log at that moment and `since` what has
been added to it. A resource that every edit raises has its old version exactly as long
as nobody edits it.
-/

namespace Codex2Lark.Lib

/-- One edit of the resource `key`; a resource without a version keeps having none. -/
structure Edit (κ α : Type*) where
  key : κ
  version : Option Nat
  author : α
deriving DecidableEq, Repr

namespace Edit

variable {κ α : Type*}

def since (log : List (Edit κ α)) (mark : Nat) : List (Edit κ α) :=
  log.take (log.length - mark)

def before (log : List (Edit κ α)) (mark : Nat) : List (Edit κ α) :=
  log.drop (log.length - mark)

/-- Two versions that one edit may lead from and to. -/
def Raises : Option Nat → Option Nat → Prop
  | some old, some new => old < new
  | none, none => True
  | _, _ => False

instance (old new : Option Nat) : Decidable (Raises old new) := by
  unfold Raises
  split <;> infer_instance

variable {log : List (Edit κ α)} {e : Edit κ α} {mark : Nat}

@[simp] theorem since_length (log : List (Edit κ α)) : since log log.length = [] := by
  simp [since]

@[simp] theorem before_length (log : List (Edit κ α)) : before log log.length = log := by
  simp [before]

theorem since_cons (hmark : mark ≤ log.length) : since (e :: log) mark = e :: since log mark := by
  have hlength : (e :: log).length - mark = log.length - mark + 1 := by
    simp only [List.length_cons]
    omega
  rw [since, hlength]
  rfl

theorem before_cons (hmark : mark ≤ log.length) : before (e :: log) mark = before log mark := by
  have hlength : (e :: log).length - mark = log.length - mark + 1 := by
    simp only [List.length_cons]
    omega
  rw [before, hlength]
  rfl

variable [DecidableEq κ] {initial : κ → Option Nat} {key : κ}

/-- The version of a resource after the edits of the log. -/
def versionOf (initial : κ → Option Nat) : List (Edit κ α) → κ → Option Nat
  | [], key => initial key
  | e :: log, key => if e.key = key then e.version else versionOf initial log key

/-- Every edit raised the version of its resource. -/
def Raising (initial : κ → Option Nat) : List (Edit κ α) → Prop
  | [] => True
  | e :: log => Raises (versionOf initial log e.key) e.version ∧ Raising initial log

/-- Since a mark the version of a resource is unchanged and nobody has edited it, or it
has been raised. -/
theorem versionOf_since (hraising : Raising initial log) (hmark : mark ≤ log.length) {old : Nat}
    (hold : versionOf initial (before log mark) key = some old) :
    (versionOf initial log key = some old ∧ ∀ e ∈ since log mark, e.key ≠ key) ∨
      ∃ new, old < new ∧ versionOf initial log key = some new ∧ ∃ e ∈ since log mark, e.key = key := by
  induction log with
  | nil =>
      left
      refine ⟨by simpa [before] using hold, ?_⟩
      simp [since]
  | cons e log ih =>
      obtain ⟨hraise, hrest⟩ := hraising
      rcases Nat.lt_or_ge log.length mark with hlast | hearlier
      · have hall : mark = (e :: log).length := Nat.le_antisymm hmark hlast
        left
        rw [hall, before_length] at hold
        rw [hall, since_length]
        exact ⟨hold, by simp⟩
      · rw [before_cons hearlier] at hold
        rw [since_cons hearlier]
        have hstep := ih hrest hearlier hold
        by_cases hkey : e.key = key
        · -- The edit raises what the log before it had, which is the old version or above.
          right
          have hedited : ∃ e' ∈ e :: since log mark, e'.key = key := ⟨e, by simp, hkey⟩
          rw [hkey] at hraise
          cases hnew : e.version with
          | none =>
              rcases hstep with ⟨hsame, _⟩ | ⟨middle, _, hmiddle, _⟩
              · simp [Raises, hsame, hnew] at hraise
              · simp [Raises, hmiddle, hnew] at hraise
          | some new =>
              refine ⟨new, ?_, by simp [versionOf, hkey, hnew], hedited⟩
              rcases hstep with ⟨hsame, _⟩ | ⟨middle, hlt, hmiddle, _⟩
              · simpa [Raises, hsame, hnew] using hraise
              · have hraised : middle < new := by simpa [Raises, hmiddle, hnew] using hraise
                exact Nat.lt_trans hlt hraised
        · have hversion : versionOf initial (e :: log) key = versionOf initial log key := by
            simp [versionOf, hkey]
          rw [hversion]
          rcases hstep with ⟨hsame, hnone⟩ | ⟨new, hlt, hnew, edit, hedit, heditKey⟩
          · exact .inl ⟨hsame, by simpa [hkey] using hnone⟩
          · exact .inr ⟨new, hlt, hnew, edit, List.mem_cons_of_mem e hedit, heditKey⟩

/-- A version read at a mark is the current one exactly when nobody has edited the
resource since. -/
theorem versionOf_eq_iff (hraising : Raising initial log) (hmark : mark ≤ log.length)
    (hread : (versionOf initial (before log mark) key).isSome) :
    versionOf initial log key = versionOf initial (before log mark) key ↔
      ∀ e ∈ since log mark, e.key ≠ key := by
  obtain ⟨old, hold⟩ := Option.isSome_iff_exists.mp hread
  rw [hold]
  rcases versionOf_since hraising hmark hold with ⟨hsame, hnone⟩ | ⟨new, hlt, hnew, e, he, hkey⟩
  · exact iff_of_true hsame hnone
  · refine iff_of_false ?_ fun hnone => hnone e he hkey
    rw [hnew]
    intro heq
    exact absurd (Option.some.inj heq) (Nat.ne_of_gt hlt)

end Edit

end Codex2Lark.Lib
