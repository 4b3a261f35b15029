import Mathlib.Data.List.Count
import Mathlib.Data.List.Perm.Subperm

/-!
Choosing from a list of labelled items as many of each key as are wanted. Every wanted key has a
label booked for it, and the labels of the chosen items are to be the booked ones. Where at most
one key is wanted in part, whether there is such a choice is a matter of counting.
-/

namespace Codex2Lark.Lib

variable {α κ β : Type} [DecidableEq κ] [DecidableEq β]

/-- The keys of the chosen items are the wanted ones, and their labels those booked for them. -/
structure Selects (key : α → κ) (label : α → β) (booked : κ → β) (wanted : List κ)
    (items chosen : List α) : Prop where
  sub : chosen.Sublist items
  keys : (chosen.map key).Perm wanted
  labels : (chosen.map label).Perm (wanted.map booked)

/-- Every item with the key is wanted. -/
def wantsAll (key : α → κ) (wanted : List κ) (items : List α) (a : κ) : Bool :=
  (items.map key).count a ≤ wanted.count a

/-- There are enough items of each key. What is booked under a label covers the items of this label
whose whole key is wanted, and is covered by those whose key is wanted at all. -/
structure Selectable (key : α → κ) (label : α → β) (booked : κ → β) (wanted : List κ)
    (items : List α) : Prop where
  enough : ∀ a ∈ wanted, wanted.count a ≤ (items.map key).count a
  labels : ∀ item ∈ items,
    (items.countP fun other => label other = label item && wantsAll key wanted items (key other)) ≤
        (wanted.map booked).count (label item) ∧
      (wanted.map booked).count (label item) ≤
        items.countP fun other => label other = label item && wanted.contains (key other)

instance (key : α → κ) (label : α → β) (booked : κ → β) (wanted : List κ) (items : List α) :
    Decidable (Selectable key label booked wanted items) :=
  decidable_of_iff
    ((∀ a ∈ wanted, wanted.count a ≤ (items.map key).count a) ∧ ∀ item ∈ items, _ ∧ _)
    ⟨fun h => ⟨h.1, h.2⟩, fun h => ⟨h.enough, h.labels⟩⟩

variable {key : α → κ} {label : α → β} {booked : κ → β} {wanted : List κ} {items chosen : List α}

theorem count_map (l : List α) (b : β) :
    (l.map label).count b = l.countP fun item => label item = b := by
  rw [List.count, List.countP_map]
  exact List.countP_congr fun item _ => by simp

omit [DecidableEq κ] [DecidableEq β] in
theorem Selects.of_perm {other : List κ} (hselects : Selects key label booked wanted items chosen)
    (hperm : wanted.Perm other) : Selects key label booked other items chosen :=
  ⟨hselects.sub, hselects.keys.trans hperm, hselects.labels.trans (hperm.map booked)⟩

omit [DecidableEq β] in
/-- What is left behind has no key that is wanted as a whole. -/
theorem Selects.left_behind (hselects : Selects key label booked wanted items chosen)
    {left : List α} (hsplit : items.Perm (chosen ++ left)) {item : α} (hitem : item ∈ left) :
    wantsAll key wanted items (key item) = false := by
  have hcount := (hsplit.map key).count_eq (key item)
  have hchosen := hselects.keys.count_eq (key item)
  have hleft : 0 < (left.map key).count (key item) :=
    List.count_pos_iff.mpr (List.mem_map_of_mem hitem)
  rw [List.map_append, List.count_append] at hcount
  unfold wantsAll
  rw [decide_eq_false_iff_not]
  omega

theorem Selects.selectable (hselects : Selects key label booked wanted items chosen) :
    Selectable key label booked wanted items := by
  refine ⟨?_, ?_⟩
  · intro a _
    rw [← hselects.keys.count_eq a]
    exact (hselects.sub.map key).count_le a
  · intro item _
    obtain ⟨left, hsplit⟩ := hselects.sub.exists_perm_append
    rw [← hselects.labels.count_eq, count_map]
    constructor
    · have hnone : (left.countP fun other =>
          label other = label item && wantsAll key wanted items (key other)) = 0 := by
        rw [List.countP_eq_zero]
        intro other hother
        simp [hselects.left_behind hsplit hother]
      rw [hsplit.countP_eq, List.countP_append, hnone]
      exact List.countP_mono_left fun other _ hboth => (Bool.and_eq_true_iff.mp hboth).1
    · have hwanted : (chosen.countP fun other => label other = label item) =
          chosen.countP fun other => label other = label item && wanted.contains (key other) := by
        refine List.countP_congr fun other hother => ?_
        have hkey := hselects.keys.subset (List.mem_map_of_mem hother)
        simp [hkey]
      rw [hwanted]
      exact hselects.sub.countP_le

omit [DecidableEq κ] in
/-- Lists of one length that share their only member. -/
theorem eq_of_members_eq {first second : List κ} (hlength : first.length = second.length)
    (hsame : ∀ a ∈ first, ∀ b ∈ second, a = b) : first = second :=
  List.ext_getElem hlength fun _ _ _ => hsame _ (List.getElem_mem _) _ (List.getElem_mem _)

/-- The items whose whole key is wanted. -/
def wholeItems (key : α → κ) (wanted : List κ) (items : List α) : List α :=
  items.filter fun item => wantsAll key wanted items (key item)

/-- The items of which some, but not all with their key are wanted. -/
def partItems (key : α → κ) (wanted : List κ) (items : List α) : List α :=
  (items.filter fun item => !wantsAll key wanted items (key item)).filter fun item =>
    wanted.contains (key item)

section Choice

variable (hselectable : Selectable key label booked wanted items)

include hselectable

/-- The labels of the whole items are among the booked ones, and there are items in part for the
others. -/
theorem Selectable.bounds (hbooked : ∀ a ∈ wanted, ∃ item ∈ items, label item = booked a) (b : β) :
    ((wholeItems key wanted items).map label).count b ≤ (wanted.map booked).count b ∧
      (wanted.map booked).count b ≤ ((wholeItems key wanted items).map label).count b +
        ((partItems key wanted items).map label).count b := by
  by_cases hlabel : ∃ item ∈ items, label item = b
  · obtain ⟨item, hitem, rfl⟩ := hlabel
    obtain ⟨hlow, hhigh⟩ := hselectable.labels item hitem
    rw [count_map (wholeItems key wanted items), count_map (partItems key wanted items), wholeItems,
      partItems, List.countP_filter, List.countP_filter, List.countP_filter]
    refine ⟨hlow, Nat.le_trans hhigh ?_⟩
    rw [List.countP_eq_countP_filter_add _ _ fun other => wantsAll key wanted items (key other),
      List.countP_filter, List.countP_filter]
    apply Nat.add_le_add
    · exact List.countP_mono_left fun other _ => by simp +contextual
    · exact List.countP_mono_left fun other _ => by simp +contextual
  · have hnone (l : List α) (hsub : ∀ item ∈ l, item ∈ items) : (l.map label).count b = 0 := by
      rw [List.count_eq_zero]
      intro hmem
      obtain ⟨item, hitem, hsame⟩ := List.mem_map.mp hmem
      exact hlabel ⟨item, hsub item hitem, hsame⟩
    have hunbooked : (wanted.map booked).count b = 0 := by
      rw [List.count_eq_zero]
      intro hmem
      obtain ⟨a, ha, rfl⟩ := List.mem_map.mp hmem
      exact hlabel (hbooked a ha)
    rw [hnone (wholeItems key wanted items) fun item hitem => (List.mem_filter.mp hitem).1, hunbooked]
    exact ⟨Nat.le_refl _, Nat.zero_le _⟩

theorem Selectable.whole_keys : ((wholeItems key wanted items).map key).Perm
    (wanted.filter (wantsAll key wanted items)) := by
  have hmap : (wholeItems key wanted items).map key =
      (items.map key).filter (wantsAll key wanted items) := by
    rw [List.filter_map]
    rfl
  rw [hmap, List.perm_iff_count]
  intro a
  cases hall : wantsAll key wanted items a with
  | false => rw [List.count_eq_zero.mpr, List.count_eq_zero.mpr] <;> simp [hall]
  | true =>
      rw [List.count_filter hall, List.count_filter hall]
      apply Nat.le_antisymm (of_decide_eq_true hall)
      by_cases ha : a ∈ wanted
      · exact hselectable.enough a ha
      · simp [List.count_eq_zero.mpr ha]

theorem Selectable.selects
    (hpart : ∀ a ∈ wanted, ∀ b ∈ wanted, wanted.count a < (items.map key).count a →
      wanted.count b < (items.map key).count b → a = b)
    (hbooked : ∀ a ∈ wanted, ∃ item ∈ items, label item = booked a) :
    ∃ chosen, Selects key label booked wanted items chosen := by
  -- what is booked beyond the whole items is taken from the items in part
  have hrest := List.subperm_append_diff_self_of_count_le fun b _ =>
    (hselectable.bounds hbooked b).1
  have hsub : ((wanted.map booked).diff ((wholeItems key wanted items).map label)).Subperm
      ((partItems key wanted items).map label) := by
    rw [List.subperm_ext_iff]
    intro b _
    rw [List.count_diff]
    have hhigh := (hselectable.bounds hbooked b).2
    omega
  obtain ⟨labels, hperm, hlabels⟩ := hsub
  obtain ⟨taken, htaken, rfl⟩ := List.sublist_map_iff.mp hlabels
  have hlabels : ((wholeItems key wanted items ++ taken).map label).Perm (wanted.map booked) := by
    rw [List.map_append]
    exact (hperm.append_left _).trans hrest
  have hwhole := hselectable.whole_keys
  have htakenKeys : taken.map key = wanted.filter fun a => !wantsAll key wanted items a := by
    apply eq_of_members_eq
    · have hboth := hlabels.length_eq
      have hlength := hwhole.length_eq
      have hsplit := (List.filter_append_perm (wantsAll key wanted items) wanted).length_eq
      simp only [List.length_map, List.length_append] at hboth hlength hsplit ⊢
      omega
    · intro a ha b hb
      obtain ⟨item, hitem, rfl⟩ := List.mem_map.mp ha
      obtain ⟨hin, hwanted⟩ := List.mem_filter.mp (htaken.subset hitem)
      obtain ⟨hb, hout⟩ := List.mem_filter.mp hb
      have hin := (List.mem_filter.mp hin).2
      simp only [wantsAll, List.contains_iff_mem, Bool.not_eq_true', decide_eq_false_iff_not,
        Nat.not_le] at hwanted hin hout
      exact hpart _ hwanted _ hb hin hout
  have hkeys : ((wholeItems key wanted items ++ taken).map key).Perm wanted := by
    rw [List.map_append, htakenKeys]
    exact (hwhole.append_right _).trans (List.filter_append_perm _ _)
  -- the choice is put in the order of the items
  have hitems : (wholeItems key wanted items ++ taken).Subperm items := by
    have htail := (htaken.trans List.filter_sublist).append_left (wholeItems key wanted items)
    exact htail.subperm.trans (List.filter_append_perm _ _).subperm
  obtain ⟨chosen, hchosen, hsublist⟩ := hitems
  exact ⟨chosen, hsublist, (hchosen.map key).trans hkeys, (hchosen.map label).trans hlabels⟩

end Choice

/-- Counting decides whether there is a choice. -/
theorem exists_selects_iff
    (hpart : ∀ a ∈ wanted, ∀ b ∈ wanted, wanted.count a < (items.map key).count a →
      wanted.count b < (items.map key).count b → a = b)
    (hbooked : ∀ a ∈ wanted, ∃ item ∈ items, label item = booked a) :
    (∃ chosen, Selects key label booked wanted items chosen) ↔
      Selectable key label booked wanted items :=
  ⟨fun ⟨_, hselects⟩ => hselects.selectable, fun h => h.selects hpart hbooked⟩

/-- Where the label of an item is the one that is booked for its key, only the keys count. -/
theorem selectable_of_labels (hlabels : ∀ item ∈ items, label item = booked (key item))
    (henough : ∀ a ∈ wanted, wanted.count a ≤ (items.map key).count a) :
    Selectable key label booked wanted items := by
  obtain ⟨keys, hkeys, hsub⟩ := List.subperm_ext_iff.mpr henough
  obtain ⟨chosen, hchosen, rfl⟩ := List.sublist_map_iff.mp hsub
  have hsame : chosen.map label = (chosen.map key).map booked := by
    rw [List.map_map]
    exact List.map_congr_left fun item hitem => hlabels item (hchosen.subset hitem)
  have hselects : Selects key label booked wanted items chosen :=
    ⟨hchosen, hkeys, hsame ▸ hkeys.map booked⟩
  exact hselects.selectable

/-- A list that repeats each of some keys a number of times. -/
theorem count_repeated {keys : List κ} (hnodup : keys.Nodup) (times : κ → Nat) (a : κ) :
    (keys.flatMap fun b => List.replicate (times b) b).count a =
      if a ∈ keys then times a else 0 := by
  induction keys with
  | nil => rfl
  | cons b rest ih =>
      obtain ⟨hb, hrest⟩ := List.nodup_cons.mp hnodup
      rw [List.flatMap_cons, List.count_append, List.count_replicate, ih hrest]
      by_cases hsame : b = a
      · subst hsame
        simp [hb]
      · simp [hsame, Ne.symm hsame]

end Codex2Lark.Lib
