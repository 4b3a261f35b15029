import Mathlib.Data.List.Induction

/-!
The first of each value of a list, where values are compared by a test of their own.
-/

namespace Codex2Lark.Lib.Distinct

variable {α : Type*} (same : α → α → Bool)

/-- `if value not in unique: unique.append(value)`, value by value. -/
def distinct (values : List α) : List α :=
  values.foldl (fun unique value =>
    if unique.any fun seen => same seen value then unique else unique ++ [value]) []

variable {same} {values : List α} {value : α}

theorem distinct_concat (values : List α) (value : α) :
    distinct same (values ++ [value]) =
      if (distinct same values).any fun seen => same seen value then distinct same values
      else distinct same values ++ [value] := by
  simp [distinct, List.foldl_append]

theorem mem_of_mem_distinct (hmem : value ∈ distinct same values) : value ∈ values := by
  induction values using List.reverseRecOn with
  | nil => cases hmem
  | append_singleton values last ih =>
      rw [distinct_concat] at hmem
      split at hmem
      · exact List.mem_append_left _ (ih hmem)
      · rcases List.mem_append.mp hmem with hmem | hmem
        · exact List.mem_append_left _ (ih hmem)
        · exact List.mem_append_right _ hmem

/-- Every value is kept, or passed over for one that the test takes for it. -/
theorem distinct_covers (hmem : value ∈ values) :
    ∃ kept ∈ distinct same values, kept = value ∨ same kept value = true := by
  induction values using List.reverseRecOn with
  | nil => cases hmem
  | append_singleton values last ih =>
      rw [distinct_concat]
      rcases List.mem_append.mp hmem with hmem | hmem
      · obtain ⟨kept, hkept, hsame⟩ := ih hmem
        refine ⟨kept, ?_, hsame⟩
        split
        · exact hkept
        · exact List.mem_append_left _ hkept
      · obtain rfl := List.mem_singleton.mp hmem
        split
        · rename_i hseen
          obtain ⟨kept, hkept, hsame⟩ := List.any_eq_true.mp hseen
          exact ⟨kept, hkept, .inr hsame⟩
        · exact ⟨value, List.mem_append_right _ List.mem_cons_self, .inl rfl⟩

theorem pairwise_distinct (values : List α) :
    (distinct same values).Pairwise fun earlier later => same earlier later = false := by
  induction values using List.reverseRecOn with
  | nil => exact List.Pairwise.nil
  | append_singleton values last ih =>
      rw [distinct_concat]
      split
      · exact ih
      · rename_i hnew
        refine List.pairwise_append.mpr ⟨ih, List.pairwise_singleton _ _, ?_⟩
        intro earlier hearlier later hlater
        obtain rfl := List.mem_singleton.mp hlater
        exact Bool.eq_false_iff.mpr fun hsame => hnew (List.any_eq_true.mpr ⟨_, hearlier, hsame⟩)

theorem distinct_ne_nil (hvalues : values ≠ []) : distinct same values ≠ [] := by
  obtain ⟨value, hvalue⟩ := List.exists_mem_of_ne_nil _ hvalues
  obtain ⟨kept, hkept, -⟩ : ∃ kept ∈ distinct same values, kept = value ∨ same kept value = true :=
    distinct_covers hvalue
  exact List.ne_nil_of_mem hkept

/-- Values that are changed alike by the test are the same after the change. -/
theorem distinct_map {β : Type*} {other : β → β → Bool} {change : α → β}
    (hsame : ∀ a ∈ values, ∀ b ∈ values, other (change a) (change b) = same a b) :
    distinct other (values.map change) = (distinct same values).map change := by
  induction values using List.reverseRecOn with
  | nil => rfl
  | append_singleton values last ih =>
      have hbefore : distinct other (values.map change) = (distinct same values).map change :=
        ih fun a ha b hb => hsame a (List.mem_append_left _ ha) b (List.mem_append_left _ hb)
      have hseen : ((distinct same values).map change).any (fun seen => other seen (change last)) =
          (distinct same values).any fun seen => same seen last := by
        rw [List.any_map, Bool.eq_iff_iff, List.any_eq_true, List.any_eq_true]
        refine exists_congr fun seen => and_congr_right fun hmem => ?_
        rw [Function.comp_apply, hsame seen (List.mem_append_left _ (mem_of_mem_distinct hmem)) last
          (List.mem_append_right _ List.mem_cons_self)]
      rw [List.map_append, List.map_singleton, distinct_concat, distinct_concat, hbefore, hseen]
      split
      · rfl
      · rw [List.map_append, List.map_singleton]

end Codex2Lark.Lib.Distinct
