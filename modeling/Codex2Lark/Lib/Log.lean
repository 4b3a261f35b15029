import Mathlib.Data.List.Infix

/-!
Append-only logs. `Separated` states that between any two marks of a log some
separator stands, and `Followed` that every separator has a later mark.
-/

namespace Codex2Lark.Lib.Log

variable {ε : Type*}

def Separated (mark separator : ε → Prop) (log : List ε) : Prop :=
  ∀ a b mid, mark a → mark b → (a :: mid ++ [b]) <:+: log → ∃ e ∈ mid, separator e

def Followed (mark separator : ε → Prop) (log : List ε) : Prop :=
  ∀ before e after, log = before ++ e :: after → separator e → ∃ m ∈ after, mark m

variable {mark separator : ε → Prop} {log : List ε}

/-- A stretch of an extended log is a stretch of the old one or ends with the
new entry. -/
theorem infix_concat_cases {stretch : List ε} {b e : ε}
    (hstretch : (stretch ++ [b]) <:+: log ++ [e]) :
    (stretch ++ [b]) <:+: log ∨ (b = e ∧ stretch <:+ log) := by
  rcases List.infix_concat_iff.mp hstretch with hsuffix | hold
  · rcases List.suffix_concat_iff.mp hsuffix with hnil | ⟨t, ht, hsuffix⟩
    · simp at hnil
    · obtain ⟨hstretch, hlast⟩ := List.append_inj' ht rfl
      right
      refine ⟨by simpa using hlast, ?_⟩
      rw [hstretch]
      exact hsuffix
  · exact Or.inl hold

/-- Two entries of an extended log in their order. -/
theorem pair_concat_cases {a b e : ε} (hsub : [a, b].Sublist (log ++ [e])) :
    [a, b].Sublist log ∨ (b = e ∧ a ∈ log) := by
  rcases List.sublist_append_iff.mp hsub with ⟨l₁, l₂, hsplit, h₁, h₂⟩
  match l₂, h₂ with
  | [], _ =>
      rw [List.append_nil] at hsplit
      rw [← hsplit] at h₁
      exact Or.inl h₁
  | [x], h₂ =>
      have hx : x = e := by simpa using h₂
      obtain ⟨hinit, hlast⟩ := List.append_inj' (show [a] ++ [b] = l₁ ++ [x] from hsplit) rfl
      right
      refine ⟨by simpa [hx] using hlast, ?_⟩
      rw [← hinit] at h₁
      simpa using h₁
  | _ :: _ :: _, h₂ =>
      have hlength := h₂.length_le
      simp at hlength

theorem pair_concat {a b : ε} (hmem : a ∈ log) : [a, b].Sublist (log ++ [b]) := by
  have hfirst : [a].Sublist log := List.singleton_sublist.mpr hmem
  exact hfirst.append (List.Sublist.refl [b])

theorem pair_append {a b : ε} {events : List ε} (hsub : [a, b].Sublist (log ++ events))
    (hnew : b ∉ events) : [a, b].Sublist log := by
  induction events generalizing log with
  | nil => simpa using hsub
  | cons e rest ih =>
      rw [List.mem_cons, not_or] at hnew
      obtain ⟨hne, hrest⟩ := hnew
      have hsplit : log ++ e :: rest = (log ++ [e]) ++ rest := by simp
      rw [hsplit] at hsub
      rcases pair_concat_cases (ih hsub hrest) with hold | ⟨hlast, _⟩
      · exact hold
      · exact absurd hlast hne

theorem separated_nil : Separated mark separator ([] : List ε) := by
  intro a b mid _ _ hstretch
  simp at hstretch

theorem separated_concat_other (hlog : Separated mark separator log) {e : ε}
    (hother : ¬ mark e) : Separated mark separator (log ++ [e]) := by
  intro a b mid ha hb hstretch
  rcases infix_concat_cases hstretch with hold | ⟨rfl, _⟩
  · exact hlog a b mid ha hb hold
  · exact absurd hb hother

/-- The first mark of a log. -/
theorem separated_concat_first (hnone : ∀ e ∈ log, ¬ mark e) (e : ε) :
    Separated mark separator (log ++ [e]) := by
  intro a b mid ha hb hstretch
  exfalso
  rcases infix_concat_cases hstretch with hold | ⟨_, hsuffix⟩
  · exact hnone a (hold.subset (by simp)) ha
  · exact hnone a (hsuffix.subset (by simp)) ha

/-- A separator and its mark enter the log together. -/
theorem separated_concat_pair (hlog : Separated mark separator log) {e m : ε}
    (hsep : separator e) (hother : ¬ mark e) :
    Separated mark separator (log ++ [e] ++ [m]) := by
  intro a b mid ha hb hstretch
  rcases infix_concat_cases hstretch with hold | ⟨_, hsuffix⟩
  · exact separated_concat_other hlog hother a b mid ha hb hold
  · rcases List.suffix_concat_iff.mp hsuffix with hnil | ⟨t, ht, _⟩
    · simp at hnil
    · rcases List.eq_nil_or_concat mid with rfl | ⟨init, last, rfl⟩
      · have hsame : a = e := by
          simpa using (List.append_inj' (show [] ++ [a] = t ++ [e] from ht) rfl).2
        exact absurd (hsame ▸ ha) hother
      · obtain ⟨_, hlast⟩ := List.append_inj'
          (show (a :: init) ++ [last] = t ++ [e] by simpa using ht) rfl
        have hsame : last = e := by simpa using hlast
        exact ⟨last, by simp, hsame ▸ hsep⟩

theorem followed_nil : Followed mark separator ([] : List ε) := by
  intro before e after hsplit
  simp at hsplit

theorem followed_concat_other (hlog : Followed mark separator log) {e : ε}
    (hother : ¬ separator e) : Followed mark separator (log ++ [e]) := by
  intro before x after hsplit hsep
  rcases List.eq_nil_or_concat after with rfl | ⟨init, last, rfl⟩
  · obtain ⟨_, hlast⟩ := List.append_inj' hsplit rfl
    have hsame : e = x := by simpa using hlast
    exact absurd (hsame ▸ hsep) hother
  · obtain ⟨hinit, _⟩ := List.append_inj'
      (show log ++ [e] = (before ++ x :: init) ++ [last] by simpa using hsplit) rfl
    obtain ⟨m, hmem, hmark⟩ := hlog before x init hinit hsep
    exact ⟨m, by simp [hmem], hmark⟩

theorem followed_concat_mark {m : ε} (hmark : mark m) (hother : ¬ separator m) :
    Followed mark separator (log ++ [m]) := by
  intro before x after hsplit hsep
  rcases List.eq_nil_or_concat after with rfl | ⟨init, last, rfl⟩
  · obtain ⟨_, hlast⟩ := List.append_inj' hsplit rfl
    have hsame : m = x := by simpa using hlast
    exact absurd (hsame ▸ hsep) hother
  · obtain ⟨_, hlast⟩ := List.append_inj'
      (show log ++ [m] = (before ++ x :: init) ++ [last] by simpa using hsplit) rfl
    have hsame : m = last := by simpa using hlast
    exact ⟨last, by simp, hsame ▸ hmark⟩

/-- Where every separator is followed by a mark, a further mark on its own
breaks the separation. -/
theorem not_separated_concat_mark (hlog : Followed mark separator log) {m e : ε}
    (hmem : m ∈ log) (hm : mark m) (he : mark e) :
    ¬ Separated mark separator (log ++ [e]) := by
  classical
  intro hsep
  -- the last mark of the old log
  obtain ⟨last, hlast⟩ : ∃ last, log.reverse.find? (fun x => mark x) = some last := by
    cases hfind : log.reverse.find? (fun x => mark x) with
    | some last => exact ⟨last, rfl⟩
    | none =>
        have := List.find?_eq_none.mp hfind m (by simpa using hmem)
        simp [hm] at this
  obtain ⟨hmark, later, earlier, hsplit, hnone⟩ := List.find?_eq_some_iff_append.mp hlast
  have hlog' : log = earlier.reverse ++ last :: later.reverse := by
    rw [← List.reverse_reverse log, hsplit]
    simp
  have hmark' : mark last := by simpa using hmark
  obtain ⟨x, hx, hxsep⟩ := hsep last e later.reverse hmark' he
    ⟨earlier.reverse, [], by rw [hlog']; simp⟩
  obtain ⟨before, after, hxsplit⟩ := List.append_of_mem hx
  obtain ⟨m', hm'mem, hm'⟩ := hlog (earlier.reverse ++ last :: before) x after
    (by rw [hlog', hxsplit]; simp) hxsep
  have hm'later : m' ∈ later := by
    rw [← List.mem_reverse, hxsplit]
    simp [hm'mem]
  have := hnone m' hm'later
  simp [hm'] at this

end Codex2Lark.Lib.Log
