import Mathlib.Data.List.Basic

/-!
Insertion-ordered dictionaries as association lists. Assignment keeps the place
of a key that is already present and appends a new one.
-/

namespace Codex2Lark.Lib

/-- A dictionary with keys `κ` and values `ν`. -/
abbrev Dict (κ ν : Type*) := List (κ × ν)

namespace Dict

variable {κ ν : Type*} [DecidableEq κ]

def get? (d : Dict κ ν) (key : κ) : Option ν :=
  (d.find? fun entry => entry.1 = key).map Prod.snd

def contains (d : Dict κ ν) (key : κ) : Bool :=
  d.any fun entry => entry.1 = key

def getD (d : Dict κ ν) (key : κ) (default : ν) : ν :=
  (d.get? key).getD default

/-- `d[key] = value`. -/
def set (d : Dict κ ν) (key : κ) (value : ν) : Dict κ ν :=
  if d.contains key then
    d.map fun entry => if entry.1 = key then (key, value) else entry
  else d ++ [(key, value)]

/-- `del d[key]`. -/
def erase (d : Dict κ ν) (key : κ) : Dict κ ν := d.filter fun entry => entry.1 ≠ key

/-- A dictionary display or comprehension: later entries win. -/
def ofEntries (entries : List (κ × ν)) : Dict κ ν :=
  entries.foldl (fun d entry => d.set entry.1 entry.2) []

/-- Equality of dictionaries, which does not see the insertion order. -/
def sameItems [DecidableEq ν] (d e : Dict κ ν) : Bool :=
  (d ++ e).all fun entry => d.get? entry.1 = e.get? entry.1

omit [DecidableEq κ] in
private theorem find_entry_map [DecidableEq κ] (d : Dict κ ν) (key other : κ) (value : ν) :
    (d.map fun entry => if entry.1 = key then (key, value) else entry).find?
        (fun entry => entry.1 = other) =
      (d.find? fun entry => entry.1 = other).map
        (fun entry => if entry.1 = key then (key, value) else entry) := by
  induction d with
  | nil => rfl
  | cons entry rest ih =>
      by_cases hkey : entry.1 = key <;> by_cases hother : entry.1 = other <;> simp_all

@[simp] theorem get?_set_self (d : Dict κ ν) (key : κ) (value : ν) :
    (d.set key value).get? key = some value := by
  unfold set get?
  split
  · rename_i hin
    rw [find_entry_map]
    obtain ⟨entry, hmem, hkey⟩ := List.any_eq_true.mp hin
    cases hfind : d.find? fun entry => entry.1 = key with
    | none =>
        have := List.find?_eq_none.mp hfind entry hmem
        exact absurd hkey this
    | some found =>
        have hfound : found.1 = key := by
          simpa using List.find?_some hfind
        simp [hfound]
  · rename_i hout
    have hnone : d.find? (fun entry => entry.1 = key) = none := by
      rw [List.find?_eq_none]
      intro entry hmem hkey
      exact hout (List.any_eq_true.mpr ⟨entry, hmem, hkey⟩)
    simp [List.find?_append, hnone]

@[simp] theorem get?_set_ne (d : Dict κ ν) {key other : κ} (value : ν)
    (hne : other ≠ key) : (d.set key value).get? other = d.get? other := by
  unfold set get?
  split
  · rw [find_entry_map]
    cases hfind : d.find? fun entry => entry.1 = other with
    | none => rfl
    | some found =>
        have hfound : found.1 = other := by
          simpa using List.find?_some hfind
        have hkey : found.1 ≠ key := by rw [hfound]; exact hne
        simp [hkey]
  · cases hfind : d.find? fun entry => entry.1 = other with
    | none => simp [List.find?_append, hfind, hne.symm]
    | some found => simp [List.find?_append, hfind]

@[simp] theorem get?_erase_self (d : Dict κ ν) (key : κ) : (d.erase key).get? key = none := by
  simp [get?, erase, List.find?_eq_none]

@[simp] theorem get?_erase_ne (d : Dict κ ν) {key other : κ} (hne : other ≠ key) :
    (d.erase key).get? other = d.get? other := by
  unfold get? erase
  rw [List.find?_filter]
  congr 2
  funext entry
  by_cases hentry : entry.1 = other
  · simp [hentry, hne]
  · simp [hentry]

theorem mem_set {d : Dict κ ν} {key : κ} {value : ν} {entry : κ × ν}
    (hmem : entry ∈ d.set key value) : entry = (key, value) ∨ entry ∈ d ∧ entry.1 ≠ key := by
  unfold set at hmem
  split at hmem
  · obtain ⟨old, hold, rfl⟩ := List.mem_map.mp hmem
    by_cases hkey : old.1 = key
    · rw [if_pos hkey]
      exact .inl rfl
    · rw [if_neg hkey]
      exact .inr ⟨hold, hkey⟩
  · rename_i hout
    rcases List.mem_append.mp hmem with hold | hnew
    · refine .inr ⟨hold, ?_⟩
      intro hkey
      exact hout (List.any_eq_true.mpr ⟨entry, hold, by simpa using hkey⟩)
    · exact .inl (List.mem_singleton.mp hnew)

theorem nodup_set {d : Dict κ ν} (hkeys : (d.map Prod.fst).Nodup) (key : κ) (value : ν) :
    ((d.set key value).map Prod.fst).Nodup := by
  unfold set
  split
  · have hsame : (d.map fun entry => if entry.1 = key then (key, value) else entry).map Prod.fst =
        d.map Prod.fst := by
      rw [List.map_map]
      refine List.map_congr_left ?_
      intro entry _
      by_cases hkey : entry.1 = key
      · simp [hkey]
      · simp [hkey]
    rw [hsame]
    exact hkeys
  · rename_i hout
    rw [List.map_append]
    refine List.nodup_append.mpr ⟨hkeys, by simp, ?_⟩
    rintro other hother last hlast rfl
    obtain rfl : other = key := by simpa using hlast
    obtain ⟨entry, hentry, hkey⟩ := List.mem_map.mp hother
    exact hout (List.any_eq_true.mpr ⟨entry, hentry, by simpa using hkey⟩)

/-- Entries with unique keys are a dictionary as they stand. -/
theorem ofEntries_of_nodup {entries : List (κ × ν)} (hkeys : (entries.map Prod.fst).Nodup) :
    ofEntries entries = entries := by
  have hfold : ∀ (before after : List (κ × ν)), ((before ++ after).map Prod.fst).Nodup →
      after.foldl (fun d entry => Dict.set d entry.1 entry.2) before = before ++ after := by
    intro before after
    induction after generalizing before with
    | nil => simp
    | cons entry rest ih =>
        intro hboth
        have hnew : Dict.set before entry.1 entry.2 = before ++ [entry] := by
          unfold set
          rw [if_neg]
          intro hin
          obtain ⟨old, hold, hsame⟩ := List.any_eq_true.mp hin
          rw [List.map_append, List.nodup_append] at hboth
          exact hboth.2.2 old.1 (List.mem_map_of_mem hold) entry.1 (by simp) (by simpa using hsame)
        rw [List.foldl_cons, hnew, ih (before ++ [entry]) (by simpa using hboth)]
        simp
  exact hfold [] entries hkeys

/-- A comprehension that keeps the keys and drops some of the values. -/
theorem get?_filterMap {μ : Type*} {d : Dict κ ν} (hkeys : (d.map Prod.fst).Nodup)
    (keep : ν → Option μ) (key : κ) :
    get? (d.filterMap fun entry => (keep entry.2).map fun value => (entry.1, value)) key =
      (d.get? key).bind keep := by
  induction d with
  | nil => rfl
  | cons entry rest ih =>
      obtain ⟨hout, hrest⟩ := List.nodup_cons.mp hkeys
      have hnext := ih hrest
      unfold get? at hnext ⊢
      by_cases hkey : entry.1 = key
      · have hnone : rest.find? (fun entry => entry.1 = key) = none := by
          refine List.find?_eq_none.mpr ?_
          intro other hother hsame
          refine hout (List.mem_map.mpr ⟨other, hother, ?_⟩)
          rw [hkey]
          simpa using hsame
        rw [hnone] at hnext
        cases hkept : keep entry.2 with
        | none => simpa [List.filterMap_cons, hkept, hkey] using hnext
        | some value => simp [hkept, hkey]
      · cases hkept : keep entry.2 with
        | none => simpa [List.filterMap_cons, hkept, hkey] using hnext
        | some value => simpa [List.filterMap_cons, hkept, hkey] using hnext

theorem getD_set_self (d : Dict κ ν) (key : κ) (value default : ν) :
    (d.set key value).getD key default = value := by
  simp [getD]

theorem getD_set_ne (d : Dict κ ν) {key other : κ} (value default : ν)
    (hne : other ≠ key) : (d.set key value).getD other default = d.getD other default := by
  simp [getD, hne]

theorem getD_cons (entry : κ × ν) (rest : Dict κ ν) (key : κ) (default : ν) :
    Dict.getD (entry :: rest) key default =
      if entry.1 = key then entry.2 else Dict.getD rest key default := by
  by_cases hkey : entry.1 = key <;> simp [getD, get?, hkey]

/-- A key that no entry carries. -/
theorem getD_of_not_mem {d : Dict κ ν} {key : κ} (hout : key ∉ d.map Prod.fst) (default : ν) :
    d.getD key default = default := by
  have hnone : d.find? (fun entry => entry.1 = key) = none := by
    rw [List.find?_eq_none]
    intro entry hmem hkey
    exact hout (List.mem_map.mpr ⟨entry, hmem, by simpa using hkey⟩)
  simp [getD, get?, hnone]

theorem contains_iff_get? (d : Dict κ ν) (key : κ) :
    d.contains key = true ↔ ∃ value, d.get? key = some value := by
  constructor
  · intro hin
    obtain ⟨entry, hmem, hkey⟩ := List.any_eq_true.mp hin
    cases hfind : d.find? fun entry => entry.1 = key with
    | none => exact absurd hkey (List.find?_eq_none.mp hfind entry hmem)
    | some found => exact ⟨found.2, by simp [get?, hfind]⟩
  · rintro ⟨value, hget⟩
    obtain ⟨found, hfind, _⟩ := Option.map_eq_some_iff.mp hget
    have hkey : found.1 = key := by simpa using List.find?_some hfind
    exact List.any_eq_true.mpr ⟨found, List.mem_of_find?_eq_some hfind, by simp [hkey]⟩

end Dict

end Codex2Lark.Lib
