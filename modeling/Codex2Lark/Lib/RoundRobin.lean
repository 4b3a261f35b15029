import Mathlib.Data.List.Nodup

/-!
A round-robin ring as a list whose head has the next turn. The members ahead of one
that waits are the only ones that can have a turn before it, and a turn takes its
member out of them.
-/

namespace Codex2Lark.Lib

variable {κ : Type*} [DecidableEq κ]

/-- The members of the ring before the first occurrence of `lane`. -/
def ahead (lane : κ) (ring : List κ) : List κ := ring.takeWhile fun other => other ≠ lane

variable {lane other : κ} {ring rest : List κ}

@[simp] theorem ahead_cons_self : ahead lane (lane :: rest) = [] := by
  simp [ahead]

theorem ahead_cons_of_ne (hne : other ≠ lane) :
    ahead lane (other :: rest) = other :: ahead lane rest := by
  simp [ahead, hne]

/-- Who joins the ring joins behind every member. -/
theorem ahead_append (hmem : lane ∈ ring) (joined : List κ) :
    ahead lane (ring ++ joined) = ahead lane ring := by
  induction ring with
  | nil => cases hmem
  | cons first rest ih =>
      rw [List.cons_append]
      by_cases hfirst : first = lane
      · rw [hfirst, ahead_cons_self, ahead_cons_self]
      · have hrest : lane ∈ rest := (List.mem_cons.mp hmem).resolve_left (Ne.symm hfirst)
        rw [ahead_cons_of_ne hfirst, ahead_cons_of_ne hfirst, ih hrest]

/-- Who leaves the ring leaves the members ahead, and nobody else moves. -/
theorem ahead_erase (hne : other ≠ lane) :
    ahead lane (ring.erase other) = (ahead lane ring).erase other := by
  induction ring with
  | nil => rfl
  | cons first rest ih =>
      by_cases hfirst : first = lane
      · rw [hfirst, List.erase_cons_tail (by simpa using Ne.symm hne), ahead_cons_self,
          ahead_cons_self, List.erase_nil]
      · by_cases hout : first = other
        · rw [hout, List.erase_cons_head, ahead_cons_of_ne hne, List.erase_cons_head]
        · rw [List.erase_cons_tail (by simpa using hout), ahead_cons_of_ne hfirst,
            ahead_cons_of_ne hfirst, List.erase_cons_tail (by simpa using hout), ih]

/-- A list of turns that `lane` has no part in. -/
theorem ahead_append_of_not_mem (hout : lane ∉ ring) (turns : List κ) :
    ahead lane (ring ++ turns) = ring ++ ahead lane turns := by
  unfold ahead
  rw [List.takeWhile_append_of_pos]
  intro first hfirst
  have hne : first ≠ lane := fun h => hout (h ▸ hfirst)
  simpa using hne

/-! ### Counting turns -/

/-- How often `other` occurs before the first occurrence of `lane`: at most once in a
ring, and in a list of turns the turns that it has before `lane` has one. -/
def aheadCount (lane other : κ) (ring : List κ) : Nat := (ahead lane ring).count other

@[simp] theorem aheadCount_nil : aheadCount lane other [] = 0 := rfl

@[simp] theorem aheadCount_cons_self : aheadCount lane other (lane :: rest) = 0 := by
  simp [aheadCount]

theorem aheadCount_cons_of_ne {first : κ} (hne : first ≠ lane) :
    aheadCount lane other (first :: rest) =
      aheadCount lane other rest + if first = other then 1 else 0 := by
  unfold aheadCount
  rw [ahead_cons_of_ne hne, List.count_cons]
  simp

theorem aheadCount_le_one (hnodup : ring.Nodup) : aheadCount lane other ring ≤ 1 :=
  List.nodup_iff_count_le_one.mp (hnodup.sublist (List.takeWhile_sublist _)) other

theorem aheadCount_append (hmem : lane ∈ ring) (joined : List κ) :
    aheadCount lane other (ring ++ joined) = aheadCount lane other ring := by
  unfold aheadCount
  rw [ahead_append hmem]

theorem aheadCount_append_of_not_mem (hout : lane ∉ ring) (turns : List κ) :
    aheadCount lane other (ring ++ turns) = ring.count other + aheadCount lane other turns := by
  unfold aheadCount
  rw [ahead_append_of_not_mem hout, List.count_append]

theorem aheadCount_of_not_mem (hout : lane ∉ ring) :
    aheadCount lane other ring = ring.count other := by
  simpa using aheadCount_append_of_not_mem hout []

theorem aheadCount_erase_le {gone : κ} (hne : gone ≠ lane) :
    aheadCount lane other (ring.erase gone) ≤ aheadCount lane other ring := by
  unfold aheadCount
  rw [ahead_erase hne]
  exact List.erase_sublist.count_le other

end Codex2Lark.Lib
