import Mathlib.Data.List.Nodup
import Mathlib.Data.List.Basic
import Mathlib.Order.Basic

/-!
Windows of a log in ascending order: the entries between two times, and the last few of them.
-/

namespace Codex2Lark.Lib.Windows

variable {α : Type*} {l : List α} {time : α → Int} {since bound : Int} {n : Nat}

/-- The last `n` entries. -/
def latest (n : Nat) (l : List α) : List α := l.drop (l.length - n)

/-- The entries from `since` to `bound`. -/
def between (time : α → Int) (since bound : Int) (l : List α) : List α :=
  l.filter fun x => since ≤ time x ∧ time x ≤ bound

theorem mem_between {x : α} :
    x ∈ between time since bound l ↔ x ∈ l ∧ since ≤ time x ∧ time x ≤ bound := by
  simp [between]

theorem latest_of_length_le (hfits : l.length ≤ n) : latest n l = l := by
  simp [latest, Nat.sub_eq_zero_of_le hfits]

/-- The first `n` of a list read backwards, turned around. -/
theorem reverse_take_eq_latest (l : List α) (n : Nat) : (l.take n).reverse = latest n l.reverse := by
  simp [latest, List.reverse_take]

/-- What a condition that is never met again keeps of a list is where the list starts. -/
theorem filter_eq_take {p : α → Bool} (hmono : l.Pairwise fun x y => p y = true → p x = true) :
    l.filter p = l.take (l.filter p).length := by
  induction l with
  | nil => rfl
  | cons a l ih =>
      obtain ⟨hhead, htail⟩ := List.pairwise_cons.mp hmono
      by_cases ha : p a = true
      · rw [List.filter_cons_of_pos ha, List.length_cons, List.take_succ_cons, ← ih htail]
      · have hnone : l.filter p = [] := by
          rw [List.filter_eq_nil_iff]
          intro b hb hpb
          exact ha (hhead b hb hpb)
        simp [List.filter_cons_of_neg ha, hnone]

/-- Nothing older than `since`: the window is where the log starts. -/
theorem between_eq_take (hsorted : l.Pairwise fun x y => time x ≤ time y)
    (hsince : ∀ x ∈ l, since ≤ time x) :
    between time since bound l = l.take (between time since bound l).length := by
  refine filter_eq_take (List.Pairwise.imp_of_mem ?_ hsorted)
  intro x y hx _ hle hy
  have hbound : time y ≤ bound := (of_decide_eq_true hy).2
  exact decide_eq_true ⟨hsince x hx, Int.le_trans hle hbound⟩

/-- The first `n` entries are the last `n` of the window when the window has no more, nothing is
older than it, and nothing is later unless the first `n` stop before it. -/
theorem take_eq_latest_iff (hsorted : l.Pairwise fun x y => time x ≤ time y) (hnodup : l.Nodup)
    (hn : 1 ≤ n) :
    l.take n = latest n (between time since bound l) ↔
      (∀ x ∈ l, since ≤ time x) ∧ (between time since bound l).length ≤ n ∧
        ((between time since bound l).length < n → ∀ x ∈ l, time x ≤ bound) := by
  constructor
  · intro heq
    have hwindow : ∀ x ∈ l.take n, x ∈ between time since bound l := by
      intro x hx
      rw [heq] at hx
      exact List.mem_of_mem_drop hx
    have hsince : ∀ x ∈ l, since ≤ time x := by
      intro x hx
      obtain ⟨first, rest, rfl⟩ := List.exists_cons_of_ne_nil (List.ne_nil_of_mem hx)
      have hfirst : first ∈ (first :: rest).take n := by
        rw [show n = (n - 1) + 1 from by omega]
        exact List.mem_cons_self
      have hle : since ≤ time first := (mem_between.mp (hwindow first hfirst)).2.1
      rcases List.mem_cons.mp hx with rfl | hx
      · exact hle
      · exact Int.le_trans hle ((List.pairwise_cons.mp hsorted).1 x hx)
    have htake : between time since bound l = l.take (between time since bound l).length :=
      between_eq_take hsorted hsince
    have hfits : (between time since bound l).length ≤ n := by
      by_contra hmore
      obtain ⟨first, rest, rfl⟩ := List.exists_cons_of_ne_nil
        (List.ne_nil_of_length_pos (l := l) (by
          have hlen : (between time since bound l).length ≤ l.length := List.length_filter_le _ _
          omega))
      have hfirst : first ∈ (first :: rest).take n := by
        rw [show n = (n - 1) + 1 from by omega]
        exact List.mem_cons_self
      -- the first entry is the first one of the window, so not among the last `n`
      obtain ⟨others, hothers⟩ : ∃ others, between time since bound (first :: rest) =
          first :: others := by
        refine ⟨rest.take ((between time since bound (first :: rest)).length - 1), ?_⟩
        rw [← List.take_succ_cons]
        rw [show (between time since bound (first :: rest)).length - 1 + 1 =
          (between time since bound (first :: rest)).length from by omega]
        exact htake
      have hfresh : first ∉ others := by
        have hkept : (between time since bound (first :: rest)).Nodup := hnodup.filter _
        rw [hothers] at hkept
        exact (List.nodup_cons.mp hkept).1
      rw [heq, latest, hothers, List.length_cons] at hfirst
      rw [hothers, List.length_cons] at hmore
      rw [show others.length + 1 - n = (others.length - n) + 1 from by omega,
        List.drop_succ_cons] at hfirst
      exact hfresh (List.mem_of_mem_drop hfirst)
    refine ⟨hsince, hfits, ?_⟩
    intro hfewer x hx
    rw [latest_of_length_le hfits] at heq
    have hshort : l.length < n := by
      have hlen := congrArg List.length heq
      rw [List.length_take] at hlen
      omega
    rw [List.take_of_length_le (Nat.le_of_lt hshort)] at heq
    rw [heq] at hx
    exact (mem_between.mp hx).2.2
  · rintro ⟨hsince, hfits, hlater⟩
    rw [latest_of_length_le hfits]
    rcases Nat.lt_or_eq_of_le hfits with hfewer | hexact
    · have hall : between time since bound l = l := by
        refine List.filter_eq_self.mpr ?_
        intro x hx
        exact decide_eq_true ⟨hsince x hx, hlater hfewer x hx⟩
      rw [hall] at hfewer ⊢
      exact List.take_of_length_le (Nat.le_of_lt hfewer)
    · rw [between_eq_take hsorted hsince, hexact]

end Codex2Lark.Lib.Windows
