import Mathlib.Data.List.Basic

/-!
Runs of a partial labelled step function. A label names one atomic action; a
state refuses the labels that are not enabled in it. `Along` states that a
condition holds at every step of a run, so that a guard on the steps and a
conclusion about the states reached are two separate statements.
-/

namespace Codex2Lark.Lib

variable {σ ℓ : Type*}

/-- Execute the labels in order; `none` as soon as one of them is refused. -/
def exec (step : σ → ℓ → Option σ) : List ℓ → σ → Option σ
  | [], s => some s
  | l :: ls, s => (step s l).bind (exec step ls)

/-- The condition `C` holds of every state and label met while running `ls`.
Nothing is asked after a refused label. -/
def Along (step : σ → ℓ → Option σ) (C : σ → ℓ → Prop) : List ℓ → σ → Prop
  | [], _ => True
  | l :: ls, s => C s l ∧ ∀ t, step s l = some t → Along step C ls t

/-- The state property `P` holds in every state that running `ls` goes
through, the first one and the last one included. -/
def Always (step : σ → ℓ → Option σ) (P : σ → Prop) : List ℓ → σ → Prop
  | [], s => P s
  | l :: ls, s => P s ∧ ∀ t, step s l = some t → Always step P ls t

variable {step : σ → ℓ → Option σ} {C D : σ → ℓ → Prop} {I P : σ → Prop}

@[simp] theorem exec_nil (s : σ) : exec step [] s = some s := rfl

@[simp] theorem exec_cons (l : ℓ) (ls : List ℓ) (s : σ) :
    exec step (l :: ls) s = (step s l).bind (exec step ls) := rfl

@[simp] theorem along_nil (s : σ) : Along step C [] s := trivial

theorem exec_cons_of_step {l : ℓ} {ls : List ℓ} {s t : σ}
    (hstep : step s l = some t) : exec step (l :: ls) s = exec step ls t := by
  simp [hstep]

theorem along_cons_of_step {l : ℓ} {ls : List ℓ} {s t : σ}
    (hstep : step s l = some t) :
    Along step C (l :: ls) s ↔ C s l ∧ Along step C ls t := by
  constructor
  · rintro ⟨hl, hrest⟩
    exact ⟨hl, hrest t hstep⟩
  · rintro ⟨hl, hrest⟩
    refine ⟨hl, ?_⟩
    intro t' ht'
    rw [hstep] at ht'
    cases ht'
    exact hrest

theorem exec_append (ls ms : List ℓ) (s : σ) :
    exec step (ls ++ ms) s = (exec step ls s).bind (exec step ms) := by
  induction ls generalizing s with
  | nil => simp
  | cons l ls ih =>
      cases hstep : step s l with
      | none => simp [hstep]
      | some t => simpa [hstep] using ih t

/-- The invariant rule. `I` holds at the start and every guarded step keeps
it, so it holds wherever a guarded run ends. -/
theorem exec_invariant (hkeep : ∀ s l t, I s → C s l → step s l = some t → I t)
    {ls : List ℓ} {s t : σ} (hs : I s) (hguard : Along step C ls s)
    (hrun : exec step ls s = some t) : I t := by
  induction ls generalizing s with
  | nil =>
      cases hrun
      exact hs
  | cons l ls ih =>
      obtain ⟨hl, hrest⟩ := hguard
      cases hstep : step s l with
      | none => simp [hstep] at hrun
      | some m =>
          rw [exec_cons_of_step hstep] at hrun
          exact ih (hkeep s l m hs hl hstep) (hrest m hstep) hrun

theorem along_of_forall (hall : ∀ s l, C s l) (ls : List ℓ) (s : σ) : Along step C ls s := by
  induction ls generalizing s with
  | nil => exact along_nil s
  | cons l ls ih => exact ⟨hall s l, fun t _ => ih t⟩

/-- The invariant rule without a guard. -/
theorem exec_invariant_of_step (hkeep : ∀ s l t, I s → step s l = some t → I t)
    {ls : List ℓ} {s t : σ} (hs : I s) (hrun : exec step ls s = some t) : I t :=
  exec_invariant (C := fun _ _ => True) (fun s l t hI _ hstep => hkeep s l t hI hstep) hs
    (along_of_forall (fun _ _ => trivial) ls s) hrun

/-- The invariant rule for a conclusion about every step of the run. -/
theorem along_of_invariant (hkeep : ∀ s l t, I s → C s l → step s l = some t → I t)
    (hstep : ∀ s l, I s → C s l → D s l) {ls : List ℓ} {s : σ} (hs : I s)
    (hguard : Along step C ls s) : Along step D ls s := by
  induction ls generalizing s with
  | nil => exact along_nil s
  | cons l ls ih =>
      obtain ⟨hl, hrest⟩ := hguard
      refine ⟨hstep s l hs hl, ?_⟩
      intro t ht
      exact ih (hkeep s l t hs hl ht) (hrest t ht)

/-- Two step conditions that agree in the states of an invariant agree along
every run that starts in it. -/
theorem along_congr (hkeep : ∀ s l t, I s → step s l = some t → I t)
    (hiff : ∀ s l, I s → (C s l ↔ D s l)) {ls : List ℓ} {s : σ} (hs : I s) :
    Along step C ls s ↔ Along step D ls s := by
  induction ls generalizing s with
  | nil => simp
  | cons l ls ih =>
      constructor
      · rintro ⟨hl, hrest⟩
        refine ⟨(hiff s l hs).mp hl, ?_⟩
        intro t ht
        exact (ih (hkeep s l t hs ht)).mp (hrest t ht)
      · rintro ⟨hl, hrest⟩
        refine ⟨(hiff s l hs).mpr hl, ?_⟩
        intro t ht
        exact (ih (hkeep s l t hs ht)).mpr (hrest t ht)

theorem Along.and_mem {K : ℓ → Prop} {ls : List ℓ} {s : σ} (hall : Along step C ls s)
    (hmem : ∀ l ∈ ls, K l) : Along step (fun s l => C s l ∧ K l) ls s := by
  induction ls generalizing s with
  | nil => exact along_nil s
  | cons l ls ih =>
      refine ⟨⟨hall.1, hmem l List.mem_cons_self⟩, ?_⟩
      intro t ht
      exact ih (hall.2 t ht) fun l' hl' => hmem l' (List.mem_cons_of_mem l hl')

theorem along_append {ls ms : List ℓ} {s : σ} :
    Along step C (ls ++ ms) s ↔
      Along step C ls s ∧ ∀ t, exec step ls s = some t → Along step C ms t := by
  induction ls generalizing s with
  | nil => simp
  | cons l ls ih =>
      cases hstep : step s l with
      | none => simp [Along, hstep]
      | some m =>
          simp only [List.cons_append, along_cons_of_step hstep,
            exec_cons_of_step hstep, ih, and_assoc]

/-- The condition at the last step of a run. -/
theorem along_last {ls : List ℓ} {l : ℓ} {s t : σ} (hall : Along step C (ls ++ [l]) s)
    (hrun : exec step ls s = some t) : C t l :=
  ((along_append.mp hall).2 t hrun).1

theorem Always.head {ls : List ℓ} {s : σ} (hall : Always step P ls s) : P s := by
  cases ls with
  | nil => exact hall
  | cons l ls => exact hall.1

/-- `Always` speaks about the states reached by the prefixes of a run. -/
theorem always_iff_reached {ls : List ℓ} {s : σ} :
    Always step P ls s ↔ ∀ pre, pre <+: ls → ∀ t, exec step pre s = some t → P t := by
  induction ls generalizing s with
  | nil =>
      constructor
      · intro hP pre hpre t hrun
        rw [List.prefix_nil.mp hpre] at hrun
        cases hrun
        exact hP
      · intro hall
        exact hall [] (List.prefix_refl _) s rfl
  | cons l ls ih =>
      constructor
      · rintro ⟨hP, hrest⟩ pre hpre t hrun
        rcases List.prefix_cons_iff.mp hpre with rfl | ⟨rest, rfl, hrest'⟩
        · cases hrun
          exact hP
        · cases hstep : step s l with
          | none => simp [hstep] at hrun
          | some m =>
              rw [exec_cons_of_step hstep] at hrun
              exact ih.mp (hrest m hstep) rest hrest' t hrun
      · intro hall
        refine ⟨hall [] List.nil_prefix s rfl, ?_⟩
        intro m hstep
        refine ih.mpr ?_
        intro pre hpre t hrun
        refine hall (l :: pre) (List.cons_prefix_cons.mpr ⟨rfl, hpre⟩) t ?_
        rw [exec_cons_of_step hstep]
        exact hrun

/-- A guarded invariant that implies `P` gives `P` in every state of a guarded
run. -/
theorem always_of_invariant (hkeep : ∀ s l t, I s → C s l → step s l = some t → I t)
    (himp : ∀ s, I s → P s) {ls : List ℓ} {s : σ} (hs : I s)
    (hguard : Along step C ls s) : Always step P ls s := by
  induction ls generalizing s with
  | nil => exact himp s hs
  | cons l ls ih =>
      refine ⟨himp s hs, ?_⟩
      intro t ht
      exact ih (hkeep s l t hs hguard.1 ht) (hguard.2 t ht)

/-- When a step outside the guard leaves `P`, the guard is exactly what keeps
`P` throughout a run. -/
theorem always_iff_along (hkeep : ∀ s l t, I s → C s l → step s l = some t → I t)
    (himp : ∀ s, I s → P s)
    (hbreak : ∀ s l, I s → (∀ t, step s l = some t → P t) → C s l)
    {ls : List ℓ} {s : σ} (hs : I s) :
    Always step P ls s ↔ Along step C ls s := by
  constructor
  · intro hall
    induction ls generalizing s with
    | nil => exact along_nil s
    | cons l ls ih =>
        have hl : C s l := hbreak s l hs fun t ht => (hall.2 t ht).head
        refine ⟨hl, ?_⟩
        intro t ht
        exact ih (hkeep s l t hs hl ht) (hall.2 t ht)
  · exact always_of_invariant hkeep himp hs

/-! ### Testing a condition on one run -/

/-- A test at every step of a run. -/
def checkAlong (step : σ → ℓ → Option σ) (check : σ → ℓ → Bool) : List ℓ → σ → Bool
  | [], _ => true
  | l :: ls, s => check s l && (step s l).all (checkAlong step check ls)

theorem along_of_check {check : σ → ℓ → Bool} (hcheck : ∀ s l, check s l = true → C s l)
    {ls : List ℓ} {s : σ} (hpass : checkAlong step check ls s = true) : Along step C ls s := by
  induction ls generalizing s with
  | nil => exact along_nil s
  | cons l ls ih =>
      obtain ⟨hl, hrest⟩ := Bool.and_eq_true_iff.mp hpass
      refine ⟨hcheck s l hl, ?_⟩
      intro t ht
      rw [ht] at hrest
      exact ih hrest

theorem along_of_decide [∀ s l, Decidable (C s l)] {ls : List ℓ} {s : σ}
    (hpass : checkAlong step (fun s l => decide (C s l)) ls s = true) : Along step C ls s :=
  along_of_check (fun _ _ => of_decide_eq_true) hpass

/-- A run whose last step fails a test that the condition implies. -/
theorem not_along_of_check {check : σ → ℓ → Bool} (hcheck : ∀ s l, C s l → check s l = true)
    {ls : List ℓ} {l : ℓ} {s : σ}
    (hfail : (exec step ls s).map (fun t => check t l) = some false) :
    ¬ Along step C (ls ++ [l]) s := by
  intro hall
  obtain ⟨t, hrun, htest⟩ := Option.map_eq_some_iff.mp hfail
  rw [hcheck t l (along_last hall hrun)] at htest
  cases htest

/-- A run whose last state fails a test that the property implies. -/
theorem not_always_of_check {check : σ → Bool} (hcheck : ∀ s, P s → check s = true)
    {ls : List ℓ} {s : σ} (hfail : (exec step ls s).map check = some false) :
    ¬ Always step P ls s := by
  intro hall
  obtain ⟨t, hrun, htest⟩ := Option.map_eq_some_iff.mp hfail
  rw [hcheck t (always_iff_reached.mp hall ls (List.prefix_refl ls) t hrun)] at htest
  cases htest

end Codex2Lark.Lib
