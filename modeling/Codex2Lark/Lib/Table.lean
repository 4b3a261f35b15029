import Mathlib.Data.List.Forall2
import Mathlib.Data.List.Nodup
import Mathlib.Data.List.Perm.Subperm
import Mathlib.Algebra.Ring.Int.Defs

/-!
Rows of a database table as a list in insertion order, with the three ways a
statement changes it: update the matching rows in place, delete them, or append
a new one.
-/

namespace Codex2Lark.Lib.Table

variable {ρ : Type*}

/-- `UPDATE ... SET change WHERE cond`. -/
def update (cond : ρ → Bool) (change : ρ → ρ) (rows : List ρ) : List ρ :=
  rows.map fun row => if cond row then change row else row

/-- `DELETE ... WHERE cond`. -/
def delete (cond : ρ → Bool) (rows : List ρ) : List ρ :=
  rows.filter fun row => !cond row

/-- `cursor.rowcount` of an update or a delete with this condition. -/
def rowcount (cond : ρ → Bool) (rows : List ρ) : Nat :=
  rows.countP cond

variable {cond : ρ → Bool} {change : ρ → ρ} {rows : List ρ}

theorem update_cons (row : ρ) : update cond change (row :: rows) =
    (if cond row then change row else row) :: update cond change rows := rfl

theorem mem_update {row : ρ} : row ∈ update cond change rows ↔
    ∃ old ∈ rows, row = if cond old then change old else old := by
  unfold update
  rw [List.mem_map]
  constructor
  · rintro ⟨old, hold, hrow⟩
    exact ⟨old, hold, hrow.symm⟩
  · rintro ⟨old, hold, hrow⟩
    exact ⟨old, hold, hrow.symm⟩

theorem mem_update_cases {row : ρ} (hmem : row ∈ update cond change rows) :
    (row ∈ rows ∧ cond row = false) ∨ ∃ old ∈ rows, cond old = true ∧ row = change old := by
  obtain ⟨old, hold, hrow⟩ := mem_update.mp hmem
  cases hcond : cond old with
  | true =>
      rw [hcond] at hrow
      exact Or.inr ⟨old, hold, hcond, hrow⟩
  | false =>
      rw [hcond] at hrow
      have hsame : row = old := by simpa using hrow
      rw [hsame]
      exact Or.inl ⟨hold, hcond⟩

theorem mem_update_of_not {row : ρ} (hmem : row ∈ rows) (hcond : cond row = false) :
    row ∈ update cond change rows :=
  mem_update.mpr ⟨row, hmem, by simp [hcond]⟩

theorem mem_update_of_cond {row : ρ} (hmem : row ∈ rows) (hcond : cond row = true) :
    change row ∈ update cond change rows :=
  mem_update.mpr ⟨row, hmem, by simp [hcond]⟩

/-- An update that matches nothing leaves the table as it is. -/
theorem update_eq_self (hnone : ∀ row ∈ rows, cond row = false) :
    update cond change rows = rows := by
  unfold update
  conv_rhs => rw [← List.map_id rows]
  apply List.map_congr_left
  intro row hmem
  simp [hnone row hmem]

theorem find?_update {κ : Type*} [DecidableEq κ] (key : ρ → κ) (k : κ)
    (hkeep : ∀ row, key (change row) = key row) :
    (update cond change rows).find? (fun row => key row = k) =
      (rows.find? fun row => key row = k).map fun row => if cond row then change row else row := by
  unfold update
  induction rows with
  | nil => rfl
  | cons row rest ih =>
      have hsame : key (if cond row then change row else row) = key row := by
        split
        · exact hkeep row
        · rfl
      by_cases hkey : key row = k
      · simp [hsame, hkey]
      · simpa [hsame, hkey] using ih

/-- With unique keys a lookup finds exactly the row that carries the key. -/
theorem find?_key_iff {κ : Type*} [DecidableEq κ] {key : ρ → κ}
    (hunique : (rows.map key).Nodup) {k : κ} {row : ρ} :
    rows.find? (fun row => key row = k) = some row ↔ row ∈ rows ∧ key row = k := by
  constructor
  · intro hfind
    exact ⟨List.mem_of_find?_eq_some hfind, by simpa using List.find?_some hfind⟩
  · rintro ⟨hmem, hkey⟩
    cases hfind : rows.find? fun row => key row = k with
    | none =>
        have := List.find?_eq_none.mp hfind row hmem
        simp [hkey] at this
    | some found =>
        have hfound : key found = k := by simpa using List.find?_some hfind
        have hsame : found = row :=
          List.inj_on_of_nodup_map hunique (List.mem_of_find?_eq_some hfind) hmem
            (hfound.trans hkey.symm)
        rw [hsame]

/-- A condition that implies the key of a row it holds of counts that row only. -/
theorem rowcount_eq_one {κ : Type*} [DecidableEq κ] {key : ρ → κ} {row : ρ}
    (hkeys : (rows.map key).Nodup) (hrow : row ∈ rows) (hcond : cond row = true)
    (hkey : ∀ other, cond other = true → key other = key row) : rowcount cond rows = 1 := by
  have hle : rows.countP cond ≤ (rows.map key).count (key row) := by
    rw [List.count, List.countP_map]
    refine List.countP_mono_left fun other _ hother => ?_
    simp [hkey other hother]
  have hone := List.nodup_iff_count_le_one.mp hkeys (key row)
  have hpos : 0 < rows.countP cond := List.countP_pos_iff.mpr ⟨row, hrow, hcond⟩
  unfold rowcount
  omega

/-- A lookup that at most one row answers. -/
theorem find?_of_pairwise {p : ρ → Bool} {row : ρ}
    (hone : rows.Pairwise fun a b => p a = true → p b = false) (hrow : row ∈ rows)
    (hp : p row = true) : rows.find? p = some row := by
  induction rows with
  | nil => cases hrow
  | cons first rest ih =>
      obtain ⟨hhead, hrest⟩ := List.pairwise_cons.mp hone
      cases hfirst : p first with
      | true =>
          rw [List.find?_cons_of_pos hfirst]
          obtain rfl | hmem := List.mem_cons.mp hrow
          · rfl
          · rw [hhead row hmem hfirst] at hp
            cases hp
      | false =>
          rw [List.find?_cons_of_neg (by simp [hfirst])]
          obtain rfl | hmem := List.mem_cons.mp hrow
          · rw [hp] at hfirst
            cases hfirst
          · exact ih hrest hmem

/-- A condition that the update does not change. -/
theorem rowcount_update {p : ρ → Bool} (hkeep : ∀ row, p (change row) = p row) :
    rowcount p (update cond change rows) = rowcount p rows := by
  unfold rowcount update
  rw [List.countP_map]
  apply List.countP_congr
  intro row _
  by_cases hcond : cond row = true <;> simp [hcond, hkeep]

/-- An update that has nothing left to change. -/
theorem update_update (hcond : ∀ row, cond (change row) = cond row)
    (hchange : ∀ row, change (change row) = change row) :
    update cond change (update cond change rows) = update cond change rows := by
  unfold update
  rw [List.map_map]
  apply List.map_congr_left
  intro row _
  by_cases h : cond row = true <;> simp [h, hcond, hchange]

/-- A column that the update does not write. -/
theorem map_update {β : Type*} (column : ρ → β)
    (hkeep : ∀ row, column (change row) = column row) :
    (update cond change rows).map column = rows.map column := by
  simp only [update, List.map_map]
  apply List.map_congr_left
  intro row _
  by_cases hcond : cond row = true <;> simp [hcond, hkeep]

/-- Changing the one row of a key changes a sum over the table by that row's part. -/
theorem sum_update_key {κ : Type*} [DecidableEq κ] {key : ρ → κ} (f : ρ → Int)
    (hunique : (rows.map key).Nodup) {row : ρ} (hrow : row ∈ rows) :
    ((update (fun other => key other = key row) change rows).map f).sum =
      (rows.map f).sum - f row + f (change row) := by
  induction rows with
  | nil => cases hrow
  | cons head rest ih =>
      obtain ⟨hhead, hrest⟩ := List.nodup_cons.mp hunique
      rcases List.mem_cons.mp hrow with rfl | htail
      · have hkeep : update (fun other => key other = key row) change rest = rest := by
          apply update_eq_self
          intro other hother
          have hne : key other ≠ key row := fun h => hhead (h ▸ List.mem_map_of_mem hother)
          simpa using hne
        rw [update_cons, hkeep]
        simp only [List.map_cons, List.sum_cons, decide_true, if_true]
        omega
      · have hne : key head ≠ key row := fun h => hhead (h ▸ List.mem_map_of_mem htail)
        have htail' := ih hrest htail
        rw [update_cons]
        simp only [List.map_cons, List.sum_cons, hne, decide_false, Bool.false_eq_true, if_false]
        omega

/-- A union is counted at most twice. -/
theorem countP_or_le (p q : ρ → Bool) (rows : List ρ) :
    rows.countP (fun row => p row || q row) ≤ rows.countP p + rows.countP q := by
  induction rows with
  | nil => simp
  | cons row rest ih =>
      rw [List.countP_cons, List.countP_cons, List.countP_cons]
      cases p row <;> cases q row <;> simp <;> omega

/-- Rows with distinct keys that match one of the given keys. -/
theorem countP_any_key_le {κ : Type*} [DecidableEq κ] {key : ρ → κ} (chosen : List ρ)
    (hunique : (rows.map key).Nodup) :
    (rows.countP fun row => chosen.any fun other => key other = key row) ≤ chosen.length := by
  rw [List.countP_eq_length_filter]
  have hnodup : ((rows.filter fun row =>
      chosen.any fun other => key other = key row).map key).Nodup :=
    hunique.sublist (List.Sublist.map _ List.filter_sublist)
  have hsubset : ((rows.filter fun row =>
      chosen.any fun other => key other = key row).map key) ⊆ chosen.map key := by
    intro k hk
    obtain ⟨row, hrow, rfl⟩ := List.mem_map.mp hk
    obtain ⟨other, hother, hsame⟩ := List.any_eq_true.mp (List.mem_filter.mp hrow).2
    exact List.mem_map.mpr ⟨other, hother, by simpa using hsame⟩
  simpa using (List.subperm_of_subset hnodup hsubset).length_le

theorem mem_delete {row : ρ} : row ∈ delete cond rows ↔ row ∈ rows ∧ cond row = false := by
  simp [delete]

theorem delete_delete (p q : ρ → Bool) :
    delete q (delete p rows) = delete (fun row => p row || q row) rows := by
  unfold delete
  rw [List.filter_filter]
  apply List.filter_congr
  intro row _
  rw [Bool.not_or, Bool.and_comm]

theorem delete_congr {p q : ρ → Bool} (hsame : ∀ row ∈ rows, p row = q row) :
    delete p rows = delete q rows := by
  unfold delete
  apply List.filter_congr
  intro row hrow
  rw [hsame row hrow]

/-- A deletion that spares the rows of a key. -/
theorem find?_delete_of_spared {κ : Type*} [DecidableEq κ] {key : ρ → κ} {k : κ}
    (hspared : ∀ row ∈ rows, key row = k → cond row = false) :
    (delete cond rows).find? (fun row => key row = k) = rows.find? fun row => key row = k := by
  unfold delete
  induction rows with
  | nil => rfl
  | cons row rest ih =>
      have hrest := ih fun other hother => hspared other (List.mem_cons_of_mem _ hother)
      by_cases hkey : key row = k
      · have hkept := hspared row List.mem_cons_self hkey
        simp [hkept, hkey]
      · cases hcond : cond row with
        | true => simpa [List.filter_cons, hcond, hkey] using hrest
        | false => simpa [List.filter_cons, hcond, hkey] using hrest

/-- `INSERT ... ON CONFLICT(key) DO UPDATE SET change`. -/
def put {κ : Type*} [DecidableEq κ] (key : ρ → κ) (row : ρ) (change : ρ → ρ) (rows : List ρ) :
    List ρ :=
  if rows.any fun other => key other = key row then
    update (fun other => key other = key row) change rows
  else rows ++ [row]

theorem find?_put {κ : Type*} [DecidableEq κ] {key : ρ → κ} (row : ρ)
    (hkeep : ∀ other, key (change other) = key other) (k : κ) :
    (put key row change rows).find? (fun other => key other = k) =
      if k = key row then
        some (((rows.find? fun other => key other = k).map change).getD row)
      else rows.find? fun other => key other = k := by
  unfold put
  split
  · rename_i hstored
    obtain ⟨old, hold, hsame⟩ := List.any_eq_true.mp hstored
    rw [find?_update key k hkeep]
    by_cases hk : k = key row
    · subst hk
      rw [if_pos rfl]
      cases hfind : rows.find? fun other => key other = key row with
      | none => exact absurd hsame (List.find?_eq_none.mp hfind old hold)
      | some found =>
          have hfound : key found = key row := by simpa using List.find?_some hfind
          simp [hfound]
    · rw [if_neg hk]
      cases hfind : rows.find? fun other => key other = k with
      | none => rfl
      | some found =>
          have hfound : key found = k := by simpa using List.find?_some hfind
          simp [hfound, hk]
  · rename_i hnone
    have hmissing : rows.find? (fun other => key other = key row) = none := by
      rw [List.find?_eq_none]
      intro other hother hsame
      exact hnone (List.any_eq_true.mpr ⟨other, hother, hsame⟩)
    rw [List.find?_append]
    by_cases hk : k = key row
    · subst hk
      simp [hmissing]
    · have hother : ¬ key row = k := fun h => hk h.symm
      simp [hk, hother]

/-- An upsert leaves the rows of other keys alone. -/
theorem mem_put_other {κ : Type*} [DecidableEq κ] {key : ρ → κ} {new row : ρ}
    (hkeep : ∀ other, key (change other) = key other) (hother : key row ≠ key new) :
    row ∈ put key new change rows ↔ row ∈ rows := by
  unfold put
  split
  · constructor
    · intro hmem
      obtain ⟨hold, _⟩ | ⟨old, _, hsame, rfl⟩ := mem_update_cases hmem
      · exact hold
      · rw [hkeep] at hother
        exact absurd (of_decide_eq_true hsame) hother
    · exact fun hmem => mem_update_of_not hmem (decide_eq_false hother)
  · rw [List.mem_append, List.mem_singleton]
    exact or_iff_left fun hsame => hother (congrArg key hsame)

theorem nodup_put {κ : Type*} [DecidableEq κ] {key : ρ → κ} (row : ρ)
    (hkeep : ∀ other, key (change other) = key other) (hkeys : (rows.map key).Nodup) :
    ((put key row change rows).map key).Nodup := by
  unfold put
  split
  · rwa [map_update key hkeep]
  · rename_i hnone
    rw [List.map_append, List.map_singleton]
    refine List.nodup_append.mpr ⟨hkeys, List.nodup_singleton _, ?_⟩
    intro k hk k' hk'
    obtain rfl := List.mem_singleton.mp hk'
    rintro rfl
    obtain ⟨other, hother, hsame⟩ := List.mem_map.mp hk
    exact hnone (List.any_eq_true.mpr ⟨other, hother, by simpa using hsame⟩)

theorem nodup_delete {κ : Type*} {key : ρ → κ} (hkeys : (rows.map key).Nodup) :
    ((delete cond rows).map key).Nodup :=
  hkeys.sublist (List.Sublist.map _ List.filter_sublist)

/-! ### Rows that move

A transaction that only updates takes every row to its successor. `List.Forall₂ R`
relates the two tables when each row moved along `R`.
-/

/-! ### Bounded statements -/

/-- `UPDATE ... WHERE rowid IN (SELECT rowid ... WHERE cond ORDER BY rowid LIMIT n)`. -/
def updateFirst (cond : ρ → Bool) (change : ρ → ρ) : Nat → List ρ → List ρ
  | 0, rows => rows
  | _, [] => []
  | n + 1, row :: rows =>
      if cond row then change row :: updateFirst cond change n rows
      else row :: updateFirst cond change (n + 1) rows

/-- `DELETE ... WHERE rowid IN (SELECT rowid ... WHERE cond ORDER BY rowid LIMIT n)`. -/
def deleteFirst (cond : ρ → Bool) : Nat → List ρ → List ρ
  | 0, rows => rows
  | _, [] => []
  | n + 1, row :: rows =>
      if cond row then deleteFirst cond n rows else row :: deleteFirst cond (n + 1) rows

/-- The rows of a bounded statement. -/
def firstRows (cond : ρ → Bool) (n : Nat) (rows : List ρ) : List ρ := (rows.filter cond).take n

/-- What the statement leaves it has not selected, and it takes what it selects. -/
theorem deleteFirst_perm (cond : ρ → Bool) (n : Nat) (rows : List ρ) :
    (firstRows cond n rows ++ deleteFirst cond n rows).Perm rows := by
  unfold firstRows
  induction rows generalizing n with
  | nil => cases n <;> simp [deleteFirst]
  | cons row rest ih =>
      cases n with
      | zero => simp [deleteFirst]
      | succ n =>
          unfold deleteFirst
          cases hcond : cond row with
          | true =>
              rw [List.filter_cons_of_pos hcond, List.take_succ_cons, List.cons_append]
              simpa using (ih n).cons row
          | false =>
              rw [List.filter_cons_of_neg (by simp [hcond])]
              simpa using List.perm_middle.trans ((ih (n + 1)).cons row)

/-- With unique keys the statement deletes exactly what it selects. -/
theorem mem_deleteFirst_iff {κ : Type*} {key : ρ → κ} (hkeys : (rows.map key).Nodup) {n : Nat}
    {row : ρ} :
    row ∈ deleteFirst cond n rows ↔ row ∈ rows ∧ row ∉ firstRows cond n rows := by
  have hperm := deleteFirst_perm cond n rows
  have hnodup := hperm.nodup_iff.mpr (List.Nodup.of_map key hkeys)
  have hdisjoint := List.disjoint_of_nodup_append hnodup
  constructor
  · intro hleft
    exact ⟨hperm.mem_iff.mp (List.mem_append_right _ hleft), fun hfirst => hdisjoint hfirst hleft⟩
  · rintro ⟨hmem, hfirst⟩
    exact (List.mem_append.mp (hperm.mem_iff.mpr hmem)).resolve_left hfirst

section Moves

variable {R S T : ρ → ρ → Prop} {after : List ρ}

theorem forall₂_update (hchange : ∀ row ∈ rows, cond row = true → R row (change row))
    (hkeep : ∀ row ∈ rows, cond row = false → R row row) :
    List.Forall₂ R rows (update cond change rows) := by
  unfold update
  rw [List.forall₂_map_right_iff, List.forall₂_same]
  intro row hmem
  cases hcond : cond row with
  | true => simpa [hcond] using hchange row hmem hcond
  | false => simpa [hcond] using hkeep row hmem hcond

theorem Forall₂.comp (hcomp : ∀ a b c, R a b → S b c → T a c) {middle : List ρ}
    (hfirst : List.Forall₂ R rows middle) (hsecond : List.Forall₂ S middle after) :
    List.Forall₂ T rows after := by
  induction hfirst generalizing after with
  | nil =>
      cases hsecond
      exact .nil
  | cons hhead _ ih =>
      cases hsecond with
      | cons hhead' htail' => exact .cons (hcomp _ _ _ hhead hhead') (ih htail')

theorem Forall₂.trans (htrans : ∀ a b c, R a b → R b c → R a c) {middle : List ρ}
    (hfirst : List.Forall₂ R rows middle) (hsecond : List.Forall₂ R middle after) :
    List.Forall₂ R rows after :=
  Forall₂.comp htrans hfirst hsecond

theorem Forall₂.imp_of_mem {β : Type*} {R S : ρ → β → Prop} {after : List β}
    (himp : ∀ a ∈ rows, ∀ b, R a b → S a b)
    (hmoved : List.Forall₂ R rows after) : List.Forall₂ S rows after := by
  induction hmoved with
  | nil => exact .nil
  | cons hhead _ ih =>
      exact .cons (himp _ List.mem_cons_self _ hhead)
        (ih fun a ha => himp a (List.mem_cons_of_mem _ ha))

theorem Forall₂.of_mem_right {β : Type*} {R : β → ρ → Prop} {before : List β}
    (hmoved : List.Forall₂ R before after) {row : ρ} (hmem : row ∈ after) :
    ∃ old ∈ before, R old row := by
  induction hmoved with
  | nil => cases hmem
  | cons hhead _ ih =>
      rcases List.mem_cons.mp hmem with rfl | htail
      · exact ⟨_, List.mem_cons_self, hhead⟩
      · obtain ⟨old, hold, hR⟩ := ih htail
        exact ⟨old, List.mem_cons_of_mem _ hold, hR⟩

theorem Forall₂.of_mem_left {β : Type*} {R : ρ → β → Prop} {after : List β}
    (hmoved : List.Forall₂ R rows after) {row : ρ} (hmem : row ∈ rows) :
    ∃ new ∈ after, R row new := by
  induction hmoved with
  | nil => cases hmem
  | cons hhead _ ih =>
      rcases List.mem_cons.mp hmem with rfl | htail
      · exact ⟨_, List.mem_cons_self, hhead⟩
      · obtain ⟨new, hnew, hR⟩ := ih htail
        exact ⟨new, List.mem_cons_of_mem _ hnew, hR⟩

/-- A column that the moves keep. -/
theorem Forall₂.map_eq {β : Type*} {column : ρ → β} (hkeep : ∀ a b, R a b → column a = column b)
    (hmoved : List.Forall₂ R rows after) : after.map column = rows.map column := by
  induction hmoved with
  | nil => rfl
  | cons hhead _ ih => simp [ih, hkeep _ _ hhead]

/-- A move that only leaves the condition leaves fewer rows in it. -/
theorem Forall₂.countP_le {p : ρ → Bool} (hback : ∀ a b, R a b → p b = true → p a = true)
    (hmoved : List.Forall₂ R rows after) : after.countP p ≤ rows.countP p := by
  induction hmoved with
  | nil => simp
  | @cons a b _ _ hhead _ ih =>
      rw [List.countP_cons, List.countP_cons]
      have hone : (if p b = true then 1 else 0) ≤ (if p a = true then 1 else 0) := by
        by_cases hb : p b = true
        · simp [hb, hback a b hhead hb]
        · simp [hb]
      omega

/-- A fallible loop over the rows that succeeds at each of them. -/
theorem Forall₂.mapM_ok {β ε : Type*} {P Q : ρ → β → Prop} {f : ρ → Except ε ρ} {others : List β}
    (hstep : ∀ row other, P row other → ∃ new, f row = .ok new ∧ Q new other)
    (hrows : List.Forall₂ P rows others) :
    ∃ news, rows.mapM f = .ok news ∧ List.Forall₂ Q news others := by
  induction hrows with
  | nil => exact ⟨[], rfl, .nil⟩
  | @cons row other _ _ hhead _ ih =>
      obtain ⟨new, hnew, hQ⟩ := hstep row other hhead
      obtain ⟨news, hnews, hrest⟩ := ih
      refine ⟨new :: news, ?_, .cons hQ hrest⟩
      rw [List.mapM_cons, hnew, hnews]
      rfl

/-- What a fallible loop over the rows has found at each of them. -/
theorem forall₂_of_mapM {β ε : Type*} {f : ρ → Except ε β} {news : List β}
    (hok : rows.mapM f = .ok news) : List.Forall₂ (fun row new => f row = .ok new) rows news := by
  induction rows generalizing news with
  | nil =>
      cases hok
      exact .nil
  | cons row rest ih =>
      rw [List.mapM_cons] at hok
      cases hhead : f row with
      | error e =>
          rw [hhead] at hok
          cases hok
      | ok new =>
          rw [hhead] at hok
          cases hrest : rest.mapM f with
          | error e =>
              rw [hrest] at hok
              cases hok
          | ok others =>
              rw [hrest] at hok
              cases hok
              exact .cons hhead (ih hrest)

theorem mapM_of_forall₂ {β ε : Type*} {f : ρ → Except ε β} {news : List β}
    (hrows : List.Forall₂ (fun row new => f row = .ok new) rows news) : rows.mapM f = .ok news := by
  induction hrows with
  | nil => rfl
  | cons hhead _ ih =>
      rw [List.mapM_cons, hhead, ih]
      rfl

end Moves

end Codex2Lark.Lib.Table
