import Codex2Lark.Lib.Unwinding
import Codex2Lark.Runtime.RedactedSteps

/-!
The checkpoints of two executions of `AgentHarness.run`. The executions see the same controls,
clocks and answers of the model, and results of tools that differ in observations only that are
not safe for a checkpoint. While every context can be built, the checkpoints they save are the
same, over all turns and process lifetimes.
-/

namespace Codex2Lark

open Lib Database

/-! ### Executions -/

/-- The tables and the coroutine of the current lifetime, of whichever run it is. -/
structure HarnessExecution where
  db : Database := {}
  harness : Option Harness := none

/-- What a step shows: the transactions of others, the lifetimes, the clocks and the answers. A
result of a tool shows what may be kept of it. -/
inductive Seen where
  | store (op : StoreOp)
  | launch (inv : Invocation) (resume : Bool)
  | crash
  | commit (clock : ClockReadings)
  | begin
  | model (answer : Except PyError ModelResponse) (clock : ClockReadings)
  | results (answer : Except PyError (List ToolResult)) (clock : ClockReadings)
  | cancelToken (reason : String)
  | abort

/-- What a step of the harness may show. -/
def Seen.isHarness : Seen → Bool
  | .store _ | .launch _ _ | .crash => false
  | _ => true

namespace Harness

/-- The event of a compaction is not seen: the executions may compact in different turns. -/
def seen (h : Harness) : HarnessLabel → Option Seen
  | .commit clock =>
      match h.phase with
      | .contextCompacted _ => none
      | _ => some (.commit clock)
  | .begin => some .begin
  | .model answer clock => some (.model answer clock)
  | .batch answer clock =>
      match h.phase with
      | .batchRunning _ calls =>
          some (.results ((answer.bind (AgentHarness.batchResults h.inv.registry calls)).map
            (List.map ToolResult.persistable)) clock)
      | _ => none
  | .tool answer clock =>
      match h.phase with
      | .callRunning _ call _ _ =>
          some (.results ((answer.bind (ToolExecutor.execute h.inv.registry call)).map
            fun result => [result.persistable]) clock)
      | _ => none
  | .cancelToken reason => some (.cancelToken reason)
  | .abort => some .abort

/-- The checkpoint that a step saves. -/
def saved (db : Database) (h : Harness) : HarnessLabel → Option RunCheckpoint
  | .commit _ =>
      h.phase.saving?.bind fun build =>
        match AgentHarness.save h.inv h.locals build db with
        | .ok _ => some (AgentHarness.checkpointOf h.inv h.locals build.sourceVersions)
        | .error _ => none
  | _ => none

end Harness

namespace HarnessExecution

def step (s : HarnessExecution) : RunStep → Option HarnessExecution
  | .store op => some { s with db := op.apply s.db }
  | .launch inv resume =>
      if s.harness.all fun h => h.phase.isOver then
        match AgentHarness.launch inv resume with
        | .ok (locals, phase) => some { s with harness := some ⟨inv, locals, phase⟩ }
        | .error _ => some { s with harness := none }
      else none
  | .harness label =>
      s.harness.bind fun h =>
        (h.step s.db label).map fun (after, h, _) => ⟨after, some h⟩
  | .crash => some { s with harness := none }

def seen (s : HarnessExecution) : RunStep → Option Seen
  | .store op => some (.store op)
  | .launch inv resume => some (.launch inv resume)
  | .harness label => s.harness.bind fun h => h.seen label
  | .crash => some .crash

def saved (s : HarnessExecution) : RunStep → Option RunCheckpoint
  | .harness label => s.harness.bind fun h => h.saved s.db label
  | _ => none

/-- The context that the step builds, if it builds one, can be built. -/
def BuildsContext (s : HarnessExecution) : RunStep → Prop
  | .harness (.commit clock) => ∀ h after state, s.harness = some h → h.phase.beginsTurn = true →
      AgentHarness.commit h.inv clock s.db h.locals h.phase = some (after, state) →
        AgentHarness.StateFits h.inv state
  | _ => True

/-- A root run is such an execution. -/
theorem step_of_runSystem {run : RootRun} {s t : RunSystem} {label : RunStep}
    (hstep : s.step run label = some t) :
    step ⟨s.db, s.harness⟩ label = some ⟨t.db, t.harness⟩ := by
  cases label with
  | store op =>
      obtain ⟨_, rfl⟩ := RunSystem.store_cases hstep
      rfl
  | launch inv resume =>
      simp only [RunSystem.step] at hstep
      split at hstep
      · rename_i hidle
        have hover : (s.harness.all fun h => h.phase.isOver) = true := hidle.1
        simp only [step]
        rw [if_pos hover]
        cases hlaunch : AgentHarness.launch inv resume with
        | error e =>
            simp only [hlaunch] at hstep ⊢
            cases hstep
            rfl
        | ok state =>
            simp only [hlaunch] at hstep ⊢
            cases hstep
            rfl
      · cases hstep
  | harness label =>
      obtain ⟨h, after, h', events, hh, hnext, rfl⟩ := RunSystem.harness_cases hstep
      simp only [step, hh, Option.bind_some, hnext, Option.map_some]
  | crash =>
      obtain rfl := RunSystem.crash_cases hstep
      rfl

end HarnessExecution

/-! ### One step of the harness -/

structure SameHarness (h h' : Harness) : Prop where
  inv : h'.inv = h.inv
  locals : SameSaved h.locals h'.locals
  phase : SamePhase h.phase h'.phase

theorem SameHarness.symm {h h' : Harness} (hh : SameHarness h h') : SameHarness h' h :=
  ⟨hh.inv.symm, hh.locals.symm, hh.phase.symm⟩

namespace Harness

variable {h h' g g' : Harness} {db db' after after' : Database} {label label' : HarnessLabel}
  {events events' : List HarnessEvent}

theorem seen_isHarness {o : Seen} (hseen : h.seen label = some o) : o.isHarness = true := by
  cases label with
  | commit clock | batch answer clock | tool answer clock =>
      simp only [seen] at hseen
      split at hseen <;> cases hseen
      rfl
  | _ =>
      cases hseen
      rfl

/-- Only the event of a compaction shows nothing. -/
theorem seen_none (hseen : h.seen label = none) (hstep : h.step db label = some (after, g, events)) :
    ∃ clock build, label = .commit clock ∧ h.phase = .contextCompacted build := by
  cases label with
  | commit clock =>
      simp only [seen] at hseen
      split at hseen
      · rename_i build hphase
        exact ⟨clock, build, rfl, hphase⟩
      · cases hseen
  | batch answer clock =>
      simp only [seen] at hseen
      split at hseen
      · cases hseen
      · rename_i hphase
        simp only [step] at hstep
        cases hstep
  | tool answer clock =>
      simp only [seen] at hseen
      split at hseen
      · cases hseen
      · rename_i hphase
        simp only [step] at hstep
        cases hstep
  | _ => cases hseen

theorem seen_commit {clock : ClockReadings} (hseen : h.seen label = some (.commit clock)) :
    label = .commit clock ∧ ∀ build, h.phase ≠ .contextCompacted build := by
  cases label with
  | commit other =>
      simp only [seen] at hseen
      split at hseen
      · cases hseen
      · rename_i hphase
        cases hseen
        exact ⟨rfl, hphase⟩
  | batch answer other | tool answer other =>
      simp only [seen] at hseen
      split at hseen <;> cases hseen
  | _ => cases hseen

theorem seen_begin (hseen : h.seen label = some .begin) : label = .begin := by
  cases label with
  | begin => rfl
  | commit other | batch answer other | tool answer other =>
      simp only [seen] at hseen
      split at hseen <;> cases hseen
  | _ => cases hseen

theorem seen_model {answer : Except PyError ModelResponse} {clock : ClockReadings}
    (hseen : h.seen label = some (.model answer clock)) : label = .model answer clock := by
  cases label with
  | model other _ =>
      cases hseen
      rfl
  | commit other | batch other _ | tool other _ =>
      simp only [seen] at hseen
      split at hseen <;> cases hseen
  | _ => cases hseen

theorem seen_cancelToken {reason : String} (hseen : h.seen label = some (.cancelToken reason)) :
    label = .cancelToken reason := by
  cases label with
  | cancelToken other =>
      cases hseen
      rfl
  | commit other | batch answer other | tool answer other =>
      simp only [seen] at hseen
      split at hseen <;> cases hseen
  | _ => cases hseen

theorem seen_abort (hseen : h.seen label = some .abort) : label = .abort := by
  cases label with
  | abort => rfl
  | commit other | batch answer other | tool answer other =>
      simp only [seen] at hseen
      split at hseen <;> cases hseen
  | _ => cases hseen

/-- Both steps save the same checkpoint, or none. -/
theorem saved_commit_same (hh : SameHarness h h') (htables : SameTables db db')
    (clock : ClockReadings) : h.saved db (.commit clock) = h'.saved db' (.commit clock) := by
  obtain ⟨_, l, phase⟩ := h
  obtain ⟨inv, l', phase'⟩ := h'
  obtain ⟨rfl, hl, hphase⟩ := hh
  have hsaving : ∀ {build build'}, SameSources build build' →
      (match AgentHarness.save inv l build db with
        | .ok _ => some (AgentHarness.checkpointOf inv l build.sourceVersions)
        | .error _ => none) =
      match AgentHarness.save inv l' build' db' with
        | .ok _ => some (AgentHarness.checkpointOf inv l' build'.sourceVersions)
        | .error _ => none := by
    intro build build' hbuild
    have hsave := AgentHarness.save_same inv hl htables hbuild
    unfold AgentHarness.SameOperation at hsave
    rw [AgentHarness.checkpointOf_same hl, ← hbuild]
    generalize AgentHarness.save inv l build db = result at hsave ⊢
    generalize AgentHarness.save inv l' build' db' = result' at hsave ⊢
    cases hsave with
    | ok _ => rfl
    | error e => rfl
  cases hphase with
  | saveAnswer hbuild => exact hsaving hbuild
  | saveCheckpoint hbuild => exact hsaving hbuild
  | _ => rfl

theorem commit_step_same {clock : ClockReadings} {definitions : List ToolDefinition}
    (hdefinitions : h.inv.registry.definitions h.inv.definition.toolIds = .ok definitions)
    (hh : SameHarness h h') (htables : SameTables db db')
    (hawaited : ∀ build, h.phase ≠ .contextCompacted build)
    (hawaited' : ∀ build, h'.phase ≠ .contextCompacted build)
    (hfits : ∀ after state, h.phase.beginsTurn = true →
      AgentHarness.commit h.inv clock db h.locals h.phase = some (after, state) →
        AgentHarness.StateFits h.inv state)
    (hfits' : ∀ after state, h'.phase.beginsTurn = true →
      AgentHarness.commit h'.inv clock db' h'.locals h'.phase = some (after, state) →
        AgentHarness.StateFits h'.inv state)
    (hstep : h.step db (.commit clock) = some (after, g, events))
    (hstep' : h'.step db' (.commit clock) = some (after', g', events')) :
    SameTables after after' ∧ SameHarness g g' := by
  obtain ⟨state, hcommit, rfl, _⟩ := commit_cases hstep
  obtain ⟨state', hcommit', rfl, _⟩ := commit_cases hstep'
  obtain ⟨_, l, phase⟩ := h
  obtain ⟨inv, l', phase'⟩ := h'
  obtain ⟨rfl, hl, hphase⟩ := hh
  obtain ⟨hafter, hstate⟩ := AgentHarness.commit_same hdefinitions hl hphase htables hawaited
    hawaited' (fun hbegins => hfits _ _ hbegins hcommit) (fun hbegins => hfits' _ _ hbegins hcommit')
    hcommit hcommit'
  exact ⟨hafter, rfl, hstate.1, hstate.2⟩

theorem begin_same (hh : SameHarness h h') (htables : SameTables db db')
    (hstep : h.step db .begin = some (after, g, events))
    (hstep' : h'.step db' .begin = some (after', g', events')) :
    SameTables after after' ∧ SameHarness g g' := by
  obtain ⟨_, l, phase⟩ := h
  obtain ⟨inv, l', phase'⟩ := h'
  obtain ⟨rfl, hl, hphase⟩ := hh
  cases hphase with
  | completeModel hbuild =>
      cases hstep
      cases hstep'
      exact ⟨htables, rfl, hl, .modelRunning hbuild⟩
  | executeBatch hbuild calls =>
      cases hstep
      cases hstep'
      exact ⟨htables, rfl, hl, .batchRunning hbuild calls⟩
  | executeCall hbuild call rest hresults =>
      cases hstep
      cases hstep'
      exact ⟨htables, rfl, hl, .callRunning hbuild call rest hresults⟩
  | _ => cases hstep

theorem model_same {answer : Except PyError ModelResponse} {clock : ClockReadings}
    (hh : SameHarness h h') (htables : SameTables db db')
    (hstep : h.step db (.model answer clock) = some (after, g, events))
    (hstep' : h'.step db' (.model answer clock) = some (after', g', events')) :
    SameTables after after' ∧ SameHarness g g' := by
  obtain ⟨_, l, phase⟩ := h
  obtain ⟨inv, l', phase'⟩ := h'
  obtain ⟨rfl, hl, hphase⟩ := hh
  cases hphase with
  | modelRunning hbuild =>
      cases hstep
      cases hstep'
      have hstate := AgentHarness.settle_same
        (AgentHarness.afterModel_same hl hbuild answer clock)
      exact ⟨htables, rfl, hstate.1, hstate.2⟩
  | _ => cases hstep

theorem cancelToken_same {reason : String} (hh : SameHarness h h') (htables : SameTables db db')
    (hstep : h.step db (.cancelToken reason) = some (after, g, events))
    (hstep' : h'.step db' (.cancelToken reason) = some (after', g', events')) :
    SameTables after after' ∧ SameHarness g g' := by
  simp only [step] at hstep hstep'
  split at hstep <;> cases hstep
  split at hstep' <;> cases hstep'
  exact ⟨htables, hh.inv, AgentHarness.cancel_same hh.locals reason, hh.phase⟩

theorem abort_same (hh : SameHarness h h') (htables : SameTables db db')
    (hstep : h.step db .abort = some (after, g, events))
    (hstep' : h'.step db' .abort = some (after', g', events')) :
    SameTables after after' ∧ SameHarness g g' := by
  simp only [step] at hstep hstep'
  split at hstep <;> cases hstep
  split at hstep' <;> cases hstep'
  exact ⟨htables, hh.inv, hh.locals, .raised _⟩

/-- The batch has returned what may be kept the same. -/
theorem batch_same {answer : Except PyError (List ToolExecutor.ToolAnswer)} {clock : ClockReadings}
    {seenResults : Except PyError (List ToolResult)} (hh : SameHarness h h')
    (htables : SameTables db db')
    (hseen : h.seen (.batch answer clock) = some (.results seenResults clock))
    (hseen' : h'.seen label' = some (.results seenResults clock))
    (hstep : h.step db (.batch answer clock) = some (after, g, events))
    (hstep' : h'.step db' label' = some (after', g', events')) :
    SameTables after after' ∧ SameHarness g g' ∧ h'.saved db' label' = none := by
  obtain ⟨_, l, phase⟩ := h
  obtain ⟨inv, l', phase'⟩ := h'
  obtain ⟨rfl, hl, hphase⟩ := hh
  cases hphase with
  | batchRunning hbuild calls =>
      cases label' with
      | batch answer' clock' =>
          simp only [seen, Option.some.injEq, Seen.results.injEq] at hseen hseen'
          obtain ⟨hresults, _⟩ := hseen
          obtain ⟨hresults', rfl⟩ := hseen'
          have hanswer : Alike SameResults
              (answer.bind (AgentHarness.batchResults inv.registry calls))
              (answer'.bind (AgentHarness.batchResults inv.registry calls)) :=
            AgentHarness.alike_of_map (hresults.trans hresults'.symm)
          cases hstep
          cases hstep'
          have hstate := AgentHarness.settle_same
            (AgentHarness.afterBatch_same inv hl hbuild calls hanswer clock')
          exact ⟨htables, ⟨rfl, hstate.1, hstate.2⟩, rfl⟩
      | _ => cases hseen'
  | _ => cases hstep

theorem tool_same {answer : Except PyError ToolExecutor.ToolAnswer} {clock : ClockReadings}
    {seenResults : Except PyError (List ToolResult)} (hh : SameHarness h h')
    (htables : SameTables db db')
    (hseen : h.seen (.tool answer clock) = some (.results seenResults clock))
    (hseen' : h'.seen label' = some (.results seenResults clock))
    (hstep : h.step db (.tool answer clock) = some (after, g, events))
    (hstep' : h'.step db' label' = some (after', g', events')) :
    SameTables after after' ∧ SameHarness g g' ∧ h'.saved db' label' = none := by
  obtain ⟨_, l, phase⟩ := h
  obtain ⟨inv, l', phase'⟩ := h'
  obtain ⟨rfl, hl, hphase⟩ := hh
  cases hphase with
  | callRunning hbuild call rest hresults =>
      cases label' with
      | tool answer' clock' =>
          simp only [seen, Option.some.injEq, Seen.results.injEq] at hseen hseen'
          obtain ⟨hkept, _⟩ := hseen
          obtain ⟨hkept', rfl⟩ := hseen'
          have hanswer : Alike (fun result result' => [result.persistable] = [result'.persistable])
              (answer.bind (ToolExecutor.execute inv.registry call))
              (answer'.bind (ToolExecutor.execute inv.registry call)) :=
            AgentHarness.alike_of_map (hkept.trans hkept'.symm)
          have hsame : Alike (fun result result' => result.persistable = result'.persistable)
              (answer.bind (ToolExecutor.execute inv.registry call))
              (answer'.bind (ToolExecutor.execute inv.registry call)) :=
            hanswer.imp fun _ _ h => (List.cons.inj h).1
          cases hstep
          cases hstep'
          have hstate := AgentHarness.settle_same
            (AgentHarness.afterCall_same inv hl hbuild call rest hresults hsame clock')
          exact ⟨htables, ⟨rfl, hstate.1, hstate.2⟩, rfl⟩
      | _ => cases hseen'
  | _ => cases hstep

/-- Two steps of the harness that look the same. -/
theorem step_same {definitions : List ToolDefinition} {o : Seen}
    (hdefinitions : h.inv.registry.definitions h.inv.definition.toolIds = .ok definitions)
    (hh : SameHarness h h') (htables : SameTables db db') (hseen : h.seen label = some o)
    (hseen' : h'.seen label' = some o)
    (hfits : ∀ clock after state, label = .commit clock → h.phase.beginsTurn = true →
      AgentHarness.commit h.inv clock db h.locals h.phase = some (after, state) →
        AgentHarness.StateFits h.inv state)
    (hfits' : ∀ clock after state, label' = .commit clock → h'.phase.beginsTurn = true →
      AgentHarness.commit h'.inv clock db' h'.locals h'.phase = some (after, state) →
        AgentHarness.StateFits h'.inv state)
    (hstep : h.step db label = some (after, g, events))
    (hstep' : h'.step db' label' = some (after', g', events')) :
    SameTables after after' ∧ SameHarness g g' ∧ h.saved db label = h'.saved db' label' := by
  cases label with
  | commit clock =>
      have hawaited : ∀ build, h.phase ≠ .contextCompacted build := by
        intro build hphase
        simp only [seen, hphase] at hseen
        cases hseen
      have hshown : h.seen (.commit clock) = some (.commit clock) := by simp only [seen]
      obtain ⟨rfl, hawaited'⟩ := seen_commit (hseen'.trans (hseen.symm.trans hshown))
      obtain ⟨hafter, hnext⟩ := commit_step_same hdefinitions hh htables hawaited hawaited'
        (fun after state => hfits clock after state rfl)
        (fun after state => hfits' clock after state rfl) hstep hstep'
      exact ⟨hafter, hnext, saved_commit_same hh htables clock⟩
  | begin =>
      cases hseen
      obtain rfl := seen_begin hseen'
      obtain ⟨hafter, hnext⟩ := begin_same hh htables hstep hstep'
      exact ⟨hafter, hnext, rfl⟩
  | model answer clock =>
      cases hseen
      obtain rfl := seen_model hseen'
      obtain ⟨hafter, hnext⟩ := model_same hh htables hstep hstep'
      exact ⟨hafter, hnext, rfl⟩
  | batch answer clock =>
      have hresults := hseen
      simp only [seen] at hseen
      split at hseen
      · cases hseen
        obtain ⟨hafter, hnext, hnone⟩ := batch_same hh htables hresults hseen' hstep hstep'
        exact ⟨hafter, hnext, hnone.symm⟩
      · cases hseen
  | tool answer clock =>
      have hresults := hseen
      simp only [seen] at hseen
      split at hseen
      · cases hseen
        obtain ⟨hafter, hnext, hnone⟩ := tool_same hh htables hresults hseen' hstep hstep'
        exact ⟨hafter, hnext, hnone.symm⟩
      · cases hseen
  | cancelToken reason =>
      cases hseen
      obtain rfl := seen_cancelToken hseen'
      obtain ⟨hafter, hnext⟩ := cancelToken_same hh htables hstep hstep'
      exact ⟨hafter, hnext, rfl⟩
  | abort =>
      cases hseen
      obtain rfl := seen_abort hseen'
      obtain ⟨hafter, hnext⟩ := abort_same hh htables hstep hstep'
      exact ⟨hafter, hnext, rfl⟩

/-- The event of a compaction leaves the execution where the other one already is. -/
theorem compacted_step {definitions : List ToolDefinition} {clock : ClockReadings}
    {build : ContextBuild}
    (hdefinitions : h.inv.registry.definitions h.inv.definition.toolIds = .ok definitions)
    (hrun : SessionStore.runStatus h.inv.request.runId db ≠ none) (hh : SameHarness h h')
    (htables : SameTables db db') (hphase : h.phase = .contextCompacted build)
    (hstep : h.step db (.commit clock) = some (after, g, events)) :
    SameTables after db' ∧ SameHarness g h' := by
  obtain ⟨state, hcommit, rfl, _⟩ := commit_cases hstep
  obtain ⟨_, l, phase⟩ := h
  obtain ⟨inv, l', phase'⟩ := h'
  obtain ⟨rfl, hl, hsame⟩ := hh
  dsimp only at hphase hrun
  subst hphase
  have hfound : (SessionStore.findRun db inv.request.runId).isNone = false := by
    cases hfind : SessionStore.findRun db inv.request.runId with
    | none => simp [SessionStore.runStatus, hfind] at hrun
    | some run => rfl
  simp only [AgentHarness.commit, AgentHarness.inTry, AgentHarness.event,
    SessionStore.appendEvent, hfound, AgentHarness.requestModel_ok hdefinitions] at hcommit
  cases hcommit
  refine ⟨?_, rfl, hl, ?_⟩
  · obtain ⟨rows, rfl⟩ := htables
    exact ⟨rows, rfl⟩
  · cases hsame with
    | contextCompacted hbuild => exact .compactedSecond hbuild
    | compactedFirst hbuild => exact .turnStarted hbuild

end Harness

/-! ### Whole executions -/

namespace HarnessExecution

variable {s t s' t' : HarnessExecution} {label label' : RunStep}

/-- A lifetime has the definitions of its tools, and past its first awaits the row of its run. -/
def Sound (s : HarnessExecution) : Prop := ∀ h, s.harness = some h →
  (∃ definitions, h.inv.registry.definitions h.inv.definition.toolIds = .ok definitions) ∧
    (h.phase.isActive = true → SessionStore.runStatus h.inv.request.runId s.db ≠ none)

theorem sound_of_none (hnone : s.harness = none) : s.Sound := by
  intro h hh
  rw [hnone] at hh
  cases hh

theorem launch_definitions {inv : Invocation} {resume : Bool} {launched : Locals × HarnessPhase}
    (hlaunch : AgentHarness.launch inv resume = .ok launched) :
    ∃ definitions, inv.registry.definitions inv.definition.toolIds = .ok definitions := by
  unfold AgentHarness.launch ToolRegistry.schemaFingerprint at hlaunch
  cases hdefinitions : inv.registry.definitions inv.definition.toolIds with
  | ok definitions => exact ⟨definitions, rfl⟩
  | error e =>
      rw [hdefinitions] at hlaunch
      cases hlaunch

theorem launch_cases {inv : Invocation} {resume : Bool}
    (hstep : s.step (.launch inv resume) = some t) :
    (∃ l phase, AgentHarness.launch inv resume = .ok (l, phase) ∧
        t = { s with harness := some ⟨inv, l, phase⟩ }) ∨
      (∃ e, AgentHarness.launch inv resume = .error e ∧ t = { s with harness := none }) := by
  simp only [step] at hstep
  split at hstep
  · cases hlaunch : AgentHarness.launch inv resume with
    | error e =>
        rw [hlaunch] at hstep
        exact Or.inr ⟨e, rfl, (Option.some.inj hstep).symm⟩
    | ok launched =>
        rw [hlaunch] at hstep
        exact Or.inl ⟨launched.1, launched.2, rfl, (Option.some.inj hstep).symm⟩
  · cases hstep

theorem harness_cases {label : HarnessLabel} (hstep : s.step (.harness label) = some t) :
    ∃ h after h' events, s.harness = some h ∧ h.step s.db label = some (after, h', events) ∧
      t = ⟨after, some h'⟩ := by
  simp only [step] at hstep
  obtain ⟨h, hh, hstep⟩ := Option.bind_eq_some_iff.mp hstep
  obtain ⟨⟨after, h', events⟩, hnext, ht⟩ := Option.map_eq_some_iff.mp hstep
  exact ⟨h, after, h', events, hh, hnext, ht.symm⟩

theorem sound_harness {label : HarnessLabel} (hs : s.Sound)
    (hstep : s.step (.harness label) = some t) : t.Sound := by
  obtain ⟨h, after, h', events, hh, hnext, rfl⟩ := harness_cases hstep
  obtain ⟨hdefinitions, hrun⟩ := hs h hh
  intro other hother
  obtain rfl := Option.some.inj hother
  have hinv := Harness.step_inv hnext
  rw [hinv]
  refine ⟨hdefinitions, fun hactive => ?_⟩
  by_cases hlabel : ∃ clock, label = .commit clock
  · obtain ⟨clock, rfl⟩ := hlabel
    obtain ⟨state, hcommit, rfl, _⟩ := Harness.commit_cases hnext
    have hactive' : state.2.isActive = true := hactive
    rcases AgentHarness.commit_status hcommit with
      ⟨hsame, hfrom⟩ | ⟨_, hrunning, _⟩ | ⟨_, _, _, hstatus, _⟩
    · rw [hsame]
      rcases hfrom hactive' with hbefore | hrunning
      · exact hrun hbefore
      · rw [hrunning]
        nofun
    · rw [hrunning]
      nofun
    · rw [hstatus]
      nofun
  · have hcommits : ∀ clock, label ≠ .commit clock := fun clock h => hlabel ⟨clock, h⟩
    obtain ⟨rfl, _⟩ := Harness.step_database hcommits hnext
    exact hrun (Harness.active_before hcommits hnext hactive)

theorem sound_step (hs : s.Sound) (hstep : s.step label = some t) : t.Sound := by
  cases label with
  | store op =>
      obtain rfl := Option.some.inj hstep
      intro h hh
      obtain ⟨hdefinitions, hrun⟩ := hs h hh
      exact ⟨hdefinitions, fun hactive => StoreOp.run_stays (hrun hactive) op⟩
  | launch inv resume =>
      rcases launch_cases hstep with ⟨l, phase, hlaunch, rfl⟩ | ⟨e, _, rfl⟩
      · intro h hh
        obtain rfl := Option.some.inj hh
        refine ⟨launch_definitions hlaunch, fun hactive => ?_⟩
        obtain ⟨_, _, _, rfl⟩ := AgentHarness.launch_ok hlaunch
        cases resume <;> cases hactive
      · exact sound_of_none rfl
  | harness label => exact sound_harness hs hstep
  | crash =>
      obtain rfl := Option.some.inj hstep
      exact sound_of_none rfl

theorem seen_harness {label : HarnessLabel} {o : Seen}
    (hseen : t.seen (.harness label) = some o) : o.isHarness = true := by
  obtain ⟨h, _, hseen⟩ := Option.bind_eq_some_iff.mp hseen
  exact Harness.seen_isHarness hseen

theorem seen_store {op : StoreOp} (hseen : t.seen label = some (.store op)) :
    label = .store op := by
  cases label with
  | store other =>
      cases hseen
      rfl
  | harness label => cases seen_harness hseen
  | _ => cases hseen

theorem seen_launch {inv : Invocation} {resume : Bool}
    (hseen : t.seen label = some (.launch inv resume)) : label = .launch inv resume := by
  cases label with
  | launch other _ =>
      cases hseen
      rfl
  | harness label => cases seen_harness hseen
  | _ => cases hseen

theorem seen_crash (hseen : t.seen label = some .crash) : label = .crash := by
  cases label with
  | crash => rfl
  | harness label => cases seen_harness hseen
  | _ => cases hseen

theorem harness_of_seen {o : Seen} (hown : o.isHarness = true) (hseen : t.seen label = some o) :
    ∃ harnessLabel, label = .harness harnessLabel := by
  cases label with
  | harness label => exact ⟨label, rfl⟩
  | _ =>
      cases hseen
      cases hown

/-- The same tables but for the run events, and the same lifetime. -/
structure Same (s t : HarnessExecution) : Prop where
  tables : SameTables s.db t.db
  harness : Option.Rel SameHarness s.harness t.harness
  sound : s.Sound
  sound' : t.Sound

theorem rel_symm {harness harness' : Option Harness} (h : Option.Rel SameHarness harness harness') :
    Option.Rel SameHarness harness' harness := by
  cases h with
  | none => exact .none
  | some hh => exact .some hh.symm

theorem Same.symm (h : Same s t) : Same t s :=
  ⟨h.tables.symm, rel_symm h.harness, h.sound', h.sound⟩

theorem same_start (db : Database) : Same { db } { db } :=
  ⟨.refl db, .none, sound_of_none rfl, sound_of_none rfl⟩

/-- A step that shows nothing is the event of a compaction. -/
theorem silent_same (hsame : Same s t) (hseen : s.seen label = none)
    (hstep : s.step label = some s') : Same s' t ∧ s.saved label = none := by
  have hsound := sound_step hsame.sound hstep
  cases label with
  | store op => cases hseen
  | launch inv resume => cases hseen
  | crash => cases hseen
  | harness label =>
      obtain ⟨h, after, g, events, hh, hnext, rfl⟩ := harness_cases hstep
      obtain ⟨⟨definitions, hdefinitions⟩, hrun⟩ := hsame.sound h hh
      have hseen' : h.seen label = none := by
        simpa only [seen, hh, Option.bind_some] using hseen
      obtain ⟨clock, build, rfl, hphase⟩ := Harness.seen_none hseen' hnext
      have hharness := hsame.harness
      rw [hh] at hharness
      generalize hother : t.harness = other at hharness
      cases hharness with
      | @some _ h' hsameHarness =>
          obtain ⟨htables, hcontinues⟩ := Harness.compacted_step hdefinitions
            (hrun (by rw [hphase]; rfl)) hsameHarness hsame.tables hphase hnext
          refine ⟨⟨htables, ?_, hsound, hsame.sound'⟩, ?_⟩
          · rw [hother]
            exact .some hcontinues
          · simp only [saved, hh, Option.bind_some, Harness.saved, hphase, HarnessPhase.saving?,
              Option.bind_none]

/-- Two steps that look the same save the same. -/
theorem visible_same {o : Seen} (hsame : Same s t) (hbuilds : s.BuildsContext label)
    (hbuilds' : t.BuildsContext label') (hseen : s.seen label = some o)
    (hseen' : t.seen label' = some o) (hstep : s.step label = some s')
    (hstep' : t.step label' = some t') :
    Same s' t' ∧ s.saved label = t.saved label' := by
  have hsound := sound_step hsame.sound hstep
  have hsound' := sound_step hsame.sound' hstep'
  cases label with
  | store op =>
      cases hseen
      obtain rfl := seen_store hseen'
      cases hstep
      cases hstep'
      exact ⟨⟨StoreOp.apply_sameTables op hsame.tables, hsame.harness, hsound, hsound'⟩, rfl⟩
  | launch inv resume =>
      cases hseen
      obtain rfl := seen_launch hseen'
      refine ⟨?_, rfl⟩
      rcases launch_cases hstep with ⟨l, phase, hlaunch, rfl⟩ | ⟨e, hlaunch, rfl⟩ <;>
        rcases launch_cases hstep' with ⟨l', phase', hlaunch', rfl⟩ | ⟨e', hlaunch', rfl⟩ <;>
          cases hlaunch.symm.trans hlaunch'
      · obtain ⟨_, _, _, rfl⟩ := AgentHarness.launch_ok hlaunch
        refine ⟨hsame.tables, .some ⟨rfl, .refl _, ?_⟩, hsound, hsound'⟩
        cases resume with
        | true => exact .loadCheckpoint
        | false => exact .startRun
      · exact ⟨hsame.tables, .none, hsound, hsound'⟩
  | crash =>
      cases hseen
      obtain rfl := seen_crash hseen'
      cases hstep
      cases hstep'
      exact ⟨⟨hsame.tables, .none, hsound, hsound'⟩, rfl⟩
  | harness label =>
      obtain ⟨h, after, g, events, hh, hnext, rfl⟩ := harness_cases hstep
      have hseenHarness : h.seen label = some o := by
        simpa only [seen, hh, Option.bind_some] using hseen
      obtain ⟨label', rfl⟩ := harness_of_seen (seen_harness hseen) hseen'
      obtain ⟨h', after', g', events', hh', hnext', rfl⟩ := harness_cases hstep'
      have hseenHarness' : h'.seen label' = some o := by
        simpa only [seen, hh', Option.bind_some] using hseen'
      obtain ⟨⟨definitions, hdefinitions⟩, _⟩ := hsame.sound h hh
      have hharness := hsame.harness
      rw [hh, hh'] at hharness
      cases hharness with
      | some hsameHarness =>
          obtain ⟨htables, hcontinues, hsaved⟩ := Harness.step_same hdefinitions hsameHarness
            hsame.tables hseenHarness hseenHarness'
            (fun clock after state hlabel hbegins hcommit => by
              subst hlabel
              exact hbuilds h after state hh hbegins hcommit)
            (fun clock after state hlabel hbegins hcommit => by
              subst hlabel
              exact hbuilds' h' after state hh' hbegins hcommit) hnext hnext'
          refine ⟨⟨htables, .some hcontinues, hsound, hsound'⟩, ?_⟩
          simp only [saved, hh, hh', Option.bind_some, hsaved]

theorem unwinding : Unwinding step seen saved BuildsContext Same where
  symm := Same.symm
  silent hsame _ hseen hstep := silent_same hsame hseen hstep
  visible hsame hbuilds hbuilds' hseen hseen' hstep hstep' :=
    visible_same hsame hbuilds hbuilds' hseen hseen' hstep hstep'

/-- Executions that look the same, and in which every context can be built, save the same
checkpoints. -/
theorem saved_checkpoints_same {db : Database} {steps steps' : List RunStep}
    {s s' : HarnessExecution} (hrun : exec step steps { db } = some s)
    (hrun' : exec step steps' { db } = some s') (hbuilds : Along step BuildsContext steps { db })
    (hbuilds' : Along step BuildsContext steps' { db })
    (hseen : outputs step seen steps { db } = outputs step seen steps' { db }) :
    outputs step saved steps { db } = outputs step saved steps' { db } ∧
      s.db.checkpoints = s'.db.checkpoints := by
  obtain ⟨hsame, hsaved⟩ :=
    unwinding.outputs_eq (same_start db) hbuilds hbuilds' hrun hrun' hseen
  obtain ⟨rows, htables⟩ := hsame.tables
  refine ⟨hsaved, ?_⟩
  rw [htables]
  rfl

/-! ### A document that is read twice -/

/-- A step after which the lifetime goes on has built its context. -/
theorem buildsContext_of_check (s : HarnessExecution) (label : RunStep)
    (hcheck : ((s.step label).all fun t => t.harness.all fun h => match h.phase with
      | .finishCancelled _ | .finishFailed _ | .raised _ => false
      | _ => true) = true) : s.BuildsContext label := by
  cases label with
  | harness label =>
      cases label with
      | commit clock =>
          intro h after state hh _ hcommit e hphase
          have hnext : s.step (.harness (.commit clock)) = some ⟨after, some (h.become state)⟩ := by
            simp only [step, hh, Option.bind_some, Harness.step, hcommit, Option.map_some]
          rw [hnext] at hcheck
          have hsettled := (AgentHarness.settle_error (s := (state.1, .error e)) rfl).2
          rw [← hphase] at hsettled
          rcases hsettled with ⟨outcome, hstate, _⟩ | ⟨outcome, hstate, _⟩ | hstate <;>
            simp [Harness.become, hstate] at hcheck
      | _ => trivial
  | _ => trivial

/-- What an answer shows of an observation that is not safe for a checkpoint. -/
theorem seen_unsafe (h : Harness) (decision : Except PyError PolicyDecision)
    (approval : Except PyError Bool) (permitted : ToolExecutor.PermittedAnswer)
    (observation : List (String × Json)) (clock : ClockReadings)
    (hunkept : permitted.checkpointSafeObservation = false) :
    h.seen (.tool (.ok ⟨decision, approval, .ok permitted⟩) clock) =
      h.seen (.tool (.ok ⟨decision, approval, .ok { permitted with observation }⟩) clock) := by
  have hresult : ∀ definition call,
      (ToolExecutor.permittedResult definition call permitted).persistable =
        (ToolExecutor.permittedResult definition call { permitted with observation }).persistable := by
    intro definition call
    simp [ToolExecutor.permittedResult, ToolResult.persistable, hunkept]
  have hexecuted : ∀ call,
      (ToolExecutor.execute h.inv.registry call ⟨decision, approval, .ok permitted⟩).map
          (fun result => [result.persistable]) =
        (ToolExecutor.execute h.inv.registry call
          ⟨decision, approval, .ok { permitted with observation }⟩).map
            fun result => [result.persistable] := by
    intro call
    have hpermitted : ∀ definition, Except.ok (ε := PyError)
        [(ToolExecutor.permittedResult definition call permitted).persistable] =
          .ok [(ToolExecutor.permittedResult definition call
            { permitted with observation }).persistable] := fun definition => by rw [hresult]
    unfold ToolExecutor.execute
    cases h.inv.registry.require call.toolId with
    | error e => rfl
    | ok tool =>
        dsimp only
        cases tool.validate call.arguments with
        | some e => rfl
        | none =>
            unfold ToolExecutor.authorized
            cases decision with
            | error e => rfl
            | ok decision =>
                obtain ⟨allowed, reason, required⟩ := decision
                cases allowed with
                | false => rfl
                | true =>
                    cases required with
                    | false => exact hpermitted _
                    | true =>
                        cases approval with
                        | error e => rfl
                        | ok approved =>
                            cases approved with
                            | false => rfl
                            | true => exact hpermitted _
  cases hphase : h.phase <;> simp only [Harness.seen, hphase]
  exact congrArg (fun results => some (Seen.results results clock)) (hexecuted _)

/-- What a step shows that awaits no answer. -/
private def shown : RunStep → Option Seen
  | .launch inv resume => some (.launch inv resume)
  | .crash => some .crash
  | .harness (.commit clock) => some (.commit clock)
  | _ => none

private def showsItself (s : HarnessExecution) : RunStep → Bool
  | .launch _ _ | .crash => true
  | .harness (.commit clock) => (s.seen (.harness (.commit clock))).isSome
  | _ => false

private theorem seen_shown (s : HarnessExecution) (label : RunStep)
    (hshows : s.showsItself label = true) : s.seen label = shown label := by
  cases label with
  | launch inv resume => rfl
  | crash => rfl
  | store op => cases hshows
  | harness label =>
      cases label with
      | commit clock =>
          obtain ⟨o, hseen⟩ := Option.isSome_iff_exists.mp hshows
          obtain ⟨h, hh, hown⟩ := Option.bind_eq_some_iff.mp hseen
          simp only [Harness.seen] at hown
          split at hown
          · cases hown
          · rw [hseen, ← hown]
            rfl
      | _ => cases hshows

/-- A document is read, the process ends after the checkpoint, and the run goes on from it. What the
document says differs. -/
theorem read_checkpoints_same :
    let inv : Invocation :=
      { request :=
          { runId := "run", taskId := "task", nodeId := "/root", userRequest := "read it"
            toolContext :=
              { runId := "run", nodeId := "/root", tenantKey := "tenant", appId := "app"
                actorId := "user", sessionKey := "tenant/app/chat", identityRef := "bot"
                policyVersion := 1, taskId := some "task" } }
        definition :=
          { agentId := "root", version := 1, instructions := "Help.", modelProfile := "default"
            toolIds := ["doc.read"] }
        registry := ⟨[{ definition :=
          ⟨"doc.read", 1, "Read a document.", [], .read, false⟩ }], by decide⟩
        loaded := ⟨[], [], []⟩, hasInbox := false, clockMs := 3, digest := fun _ => "digest" }
    let mention : NormalizedEvent :=
      { eventId := "event-1", pluginId := "im", eventType := "im.message", tenantKey := "tenant"
        appId := "app", occurredAtMs := 0, receivedAtMs := 0, resourceKind := "message"
        resourceId := "message-1", traceId := "trace-1" }
    let command : TaskCommand := ⟨"im", "im.handle_mention", "tenant/app/chat", [], 0, 0, 5, none⟩
    let commit : RunStep := .harness (.commit {})
    let read : ToolExecutor.PermittedAnswer :=
      { observation := [("text", .str "the salaries")]
        verification := ⟨.notRequired, "doc", "read", []⟩, checkpointSafeObservation := false }
    let asked : List RunStep :=
      [.store (.admitEvent mention command none "task" "outbox-1" 0), .launch inv false, commit,
        commit, commit, .harness .begin,
        .harness (.model (.ok { content := "", toolCalls := [⟨"call-1", "doc.read", []⟩] }) {}),
        commit, commit, .harness .begin]
    let answered (read : ToolExecutor.PermittedAnswer) : RunStep :=
      .harness (.tool (.ok ⟨.ok ⟨true, "", false⟩, .ok true, .ok read⟩) {})
    let continued : List RunStep :=
      [commit, commit, commit, .crash, .launch inv true, commit, commit]
    let other := { read with observation := [("text", .str "the menu of the canteen")] }
    ∃ s s', exec step (asked ++ answered read :: continued) {} = some s ∧
      exec step (asked ++ answered other :: continued) {} = some s' ∧
      (outputs step saved (asked ++ answered read :: continued) {}).length = 1 ∧
      outputs step saved (asked ++ answered read :: continued) {} =
        outputs step saved (asked ++ answered other :: continued) {} ∧
      s.db.checkpoints = s'.db.checkpoints := by
  intro inv mention command commit read asked answered continued other
  have hends : ((exec step (asked ++ answered read :: continued) {}).isSome &&
      (exec step (asked ++ answered other :: continued) {}).isSome) = true := by
    decide +kernel
  obtain ⟨hends, hends'⟩ := Bool.and_eq_true_iff.mp hends
  obtain ⟨s, hs⟩ := Option.isSome_iff_exists.mp hends
  obtain ⟨s', hs'⟩ := Option.isSome_iff_exists.mp hends'
  have hbuilds : Along step BuildsContext (asked ++ answered read :: continued) {} :=
    along_of_check buildsContext_of_check (by decide +kernel)
  have hbuilds' : Along step BuildsContext (asked ++ answered other :: continued) {} :=
    along_of_check buildsContext_of_check (by decide +kernel)
  have hmiddle : (exec step asked {}).isSome = true := by decide +kernel
  obtain ⟨m, hm⟩ := Option.isSome_iff_exists.mp hmiddle
  have hseen : m.seen (answered read) = m.seen (answered other) := by
    cases hh : m.harness with
    | none => simp only [seen, answered, hh, Option.bind_none]
    | some h =>
        simp only [seen, answered, hh, Option.bind_some]
        exact seen_unsafe h _ _ read _ {} rfl
  have hall : ∀ r t, exec step (asked ++ answered r :: continued) {} = some t →
      (exec step (asked ++ [answered r]) {}).all (checkAlong step showsItself continued) = true →
      outputs step seen (asked ++ answered r :: continued) {} =
        outputs step seen asked {} ++
          ((m.seen (answered r)).toList ++ continued.filterMap shown) := by
    intro r t hrun hshows
    rw [exec_append, hm] at hrun hshows
    obtain ⟨n, hstep, hrest⟩ := step_of_exec_cons hrun
    have hn : exec step [answered r] m = some n := by
      rw [exec_cons, hstep]
      rfl
    rw [Option.bind_some, hn] at hshows
    rw [outputs_append hm, outputs_cons_of_step hstep,
      outputs_of_along (along_of_check seen_shown hshows) hrest]
  have hsame := saved_checkpoints_same hs hs' hbuilds hbuilds'
    ((hall read s hs (by decide +kernel)).trans
      (hseen ▸ (hall other s' hs' (by decide +kernel)).symm))
  exact ⟨s, s', hs, hs', by decide +kernel, hsame⟩

end HarnessExecution

end Codex2Lark
