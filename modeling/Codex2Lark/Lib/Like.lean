import Mathlib.Data.List.Infix

/-!
The `LIKE` operator of SQLite without an escape character: `%` stands for any text, `_` for any
character, and the case of ASCII letters does not matter.
-/

namespace Codex2Lark.Lib

def like : List Char → List Char → Bool
  | [], text => text.isEmpty
  | p :: pattern, text =>
      if p = '%' then text.tails.any (like pattern)
      else
        match text with
        | [] => false
        | c :: text => (p = '_' || p.toLower = c.toLower) && like pattern text

theorem like_percent {pattern text : List Char} :
    like ('%' :: pattern) text = true ↔ ∃ tail, tail <:+ text ∧ like pattern tail = true := by
  change text.tails.any (like pattern) = true ↔ _
  rw [List.any_eq_true]
  simp only [List.mem_tails]

theorem like_any (text : List Char) : like ['%'] text = true :=
  like_percent.mpr ⟨[], List.nil_suffix, rfl⟩

/-- A text matches the pattern that repeats it, wildcards or not. -/
theorem like_append {pattern rest : List Char} (start : List Char)
    (hrest : like pattern rest = true) : like (start ++ pattern) (start ++ rest) = true := by
  induction start with
  | nil => exact hrest
  | cons c start ih =>
      by_cases hpercent : c = '%'
      · subst hpercent
        exact like_percent.mpr ⟨start ++ rest, List.suffix_cons _ _, ih⟩
      · rw [List.cons_append, List.cons_append, like.eq_def]
        simpa [hpercent] using ih

end Codex2Lark.Lib
