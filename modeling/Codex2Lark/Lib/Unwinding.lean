import Codex2Lark.Lib.Runs

/-!
Two runs of one system, compared by what an observer sees of their steps. The
unwinding rule carries a relation through both runs: a step that the observer does
not see keeps it on its own, two steps that look the same keep it together. What
the runs put out is then the same.
-/

namespace Codex2Lark.Lib

variable {σ ℓ α β : Type*}

/-- What the steps of a run put out, in their order. -/
def outputs (step : σ → ℓ → Option σ) (out : σ → ℓ → Option α) : List ℓ → σ → List α
  | [], _ => []
  | l :: ls, s =>
      match step s l with
      | none => []
      | some t => (out s l).toList ++ outputs step out ls t

/-- `see` is what the observer sees of a step, `out` what the step puts out. -/
structure Unwinding (step : σ → ℓ → Option σ) (see : σ → ℓ → Option α)
    (out : σ → ℓ → Option β) (C : σ → ℓ → Prop) (R : σ → σ → Prop) : Prop where
  symm : ∀ {s t}, R s t → R t s
  silent : ∀ {s t l s'}, R s t → C s l → see s l = none → step s l = some s' →
    R s' t ∧ out s l = none
  visible : ∀ {s t l m o s' t'}, R s t → C s l → C t m → see s l = some o → see t m = some o →
    step s l = some s' → step t m = some t' → R s' t' ∧ out s l = out t m

section Outputs

variable {step : σ → ℓ → Option σ} {out : σ → ℓ → Option α}

theorem outputs_cons_of_step {l : ℓ} {ls : List ℓ} {s t : σ} (hstep : step s l = some t) :
    outputs step out (l :: ls) s = (out s l).toList ++ outputs step out ls t := by
  simp [outputs, hstep]

theorem outputs_cons_of_none {l : ℓ} {ls : List ℓ} {s t : σ} (hstep : step s l = some t)
    (hout : out s l = none) : outputs step out (l :: ls) s = outputs step out ls t := by
  rw [outputs_cons_of_step hstep, hout]
  rfl

theorem outputs_cons_of_some {l : ℓ} {ls : List ℓ} {s t : σ} {o : α} (hstep : step s l = some t)
    (hout : out s l = some o) : outputs step out (l :: ls) s = o :: outputs step out ls t := by
  rw [outputs_cons_of_step hstep, hout]
  rfl

/-- A run that can go its first step. -/
theorem step_of_exec_cons {l : ℓ} {ls : List ℓ} {s t : σ}
    (hrun : exec step (l :: ls) s = some t) :
    ∃ m, step s l = some m ∧ exec step ls m = some t :=
  Option.bind_eq_some_iff.mp hrun

theorem outputs_append {ls ms : List ℓ} {s t : σ} (hrun : exec step ls s = some t) :
    outputs step out (ls ++ ms) s = outputs step out ls s ++ outputs step out ms t := by
  induction ls generalizing s with
  | nil =>
      cases hrun
      rfl
  | cons l ls ih =>
      obtain ⟨m, hstep, hrest⟩ := step_of_exec_cons hrun
      rw [List.cons_append, outputs_cons_of_step hstep, outputs_cons_of_step hstep, ih hrest,
        List.append_assoc]

/-- A run whose outputs are those of its labels. -/
theorem outputs_of_along {f : ℓ → Option α} {ls : List ℓ} {s t : σ}
    (hall : Along step (fun s l => out s l = f l) ls s) (hrun : exec step ls s = some t) :
    outputs step out ls s = ls.filterMap f := by
  induction ls generalizing s with
  | nil => rfl
  | cons l ls ih =>
      obtain ⟨m, hstep, hrest⟩ := step_of_exec_cons hrun
      obtain ⟨hout, hall⟩ := (along_cons_of_step hstep).mp hall
      rw [outputs_cons_of_step hstep, hout, ih hall hrest]
      cases hf : f l with
      | none => rw [List.filterMap_cons_none hf, Option.toList_none, List.nil_append]
      | some o => rw [List.filterMap_cons_some hf, Option.toList_some, List.singleton_append]

end Outputs

namespace Unwinding

variable {step : σ → ℓ → Option σ} {see : σ → ℓ → Option α} {out : σ → ℓ → Option β}
  {C : σ → ℓ → Prop} {R : σ → σ → Prop}

/-- A run of which the observer sees nothing. -/
theorem unseen (rule : Unwinding step see out C R) {ls : List ℓ} {s s' t : σ} (hR : R s t)
    (hguard : Along step C ls s) (hrun : exec step ls s = some s')
    (hseen : outputs step see ls s = []) : R s' t ∧ outputs step out ls s = [] := by
  induction ls generalizing s with
  | nil =>
      cases hrun
      exact ⟨hR, rfl⟩
  | cons l ls ih =>
      obtain ⟨m, hstep, hrest⟩ := step_of_exec_cons hrun
      obtain ⟨hl, hguard⟩ := (along_cons_of_step hstep).mp hguard
      cases hsee : see s l with
      | some o =>
          rw [outputs_cons_of_some hstep hsee] at hseen
          cases hseen
      | none =>
          rw [outputs_cons_of_none hstep hsee] at hseen
          obtain ⟨hR', hout⟩ := rule.silent hR hl hsee hstep
          rw [outputs_cons_of_none hstep hout]
          exact ih hR' hguard hrest hseen

/-- The unwinding rule: runs that look the same end related and put out the same. -/
theorem outputs_eq (rule : Unwinding step see out C R) {ls ms : List ℓ} {s s' t t' : σ}
    (hR : R s t) (hguard : Along step C ls s) (hguard' : Along step C ms t)
    (hrun : exec step ls s = some s') (hrun' : exec step ms t = some t')
    (hseen : outputs step see ls s = outputs step see ms t) :
    R s' t' ∧ outputs step out ls s = outputs step out ms t := by
  induction ls generalizing s t ms with
  | nil =>
      cases hrun
      obtain ⟨hR', hout⟩ := rule.unseen (rule.symm hR) hguard' hrun' hseen.symm
      exact ⟨rule.symm hR', hout.symm⟩
  | cons l ls ih =>
      obtain ⟨m, hstep, hrest⟩ := step_of_exec_cons hrun
      obtain ⟨hl, hguard⟩ := (along_cons_of_step hstep).mp hguard
      cases hsee : see s l with
      | none =>
          rw [outputs_cons_of_none hstep hsee] at hseen
          obtain ⟨hR', hout⟩ := rule.silent hR hl hsee hstep
          rw [outputs_cons_of_none hstep hout]
          exact ih hR' hguard hguard' hrest hrun' hseen
      | some o =>
          rw [outputs_cons_of_some hstep hsee] at hseen
          -- the other run has silent steps before the one that looks like this one
          induction ms generalizing t with
          | nil => cases hseen
          | cons k ms ih' =>
              obtain ⟨m', hstep', hrest'⟩ := step_of_exec_cons hrun'
              obtain ⟨hk, hguard'⟩ := (along_cons_of_step hstep').mp hguard'
              cases hsee' : see t k with
              | none =>
                  rw [outputs_cons_of_none hstep' hsee'] at hseen
                  obtain ⟨hR', hout⟩ := rule.silent (rule.symm hR) hk hsee' hstep'
                  rw [outputs_cons_of_none hstep' hout]
                  exact ih' (rule.symm hR') hguard' hrest' hseen
              | some o' =>
                  rw [outputs_cons_of_some hstep' hsee'] at hseen
                  obtain ⟨rfl, hlater⟩ := List.cons.inj hseen
                  obtain ⟨hR', hout⟩ := rule.visible hR hl hk hsee hsee' hstep hstep'
                  obtain ⟨hend, houts⟩ := ih hR' hguard hguard' hrest hrest' hlater
                  refine ⟨hend, ?_⟩
                  rw [outputs_cons_of_step hstep, outputs_cons_of_step hstep', hout, houts]

end Unwinding

end Codex2Lark.Lib
