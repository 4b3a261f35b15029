import Codex2Lark.Runtime.RunSystem

/-!
The outcome gate over the lifetimes of a run. Within one lifetime every executed
write without a verified result is on the list of unresolved effects before the
outcome is built; between lifetimes the list lives in the checkpoint only.
-/

namespace Codex2Lark

open Lib

namespace RunSystem

/-- A completed run has no executed write without a verified result. -/
def CompletedVerified (run : RootRun) (s : RunSystem) : Prop :=
  SessionStore.runStatus run.runId s.db = some .completed → s.unverified = []

/-- When a resumed lifetime has read its checkpoint and finds the run running while
an executed write is unverified, that checkpoint is accepted and lists an
unresolved effect. -/
def ResumesWithUnresolved (run : RootRun) (s : RunSystem) : RunStep → Prop
  | .harness (.commit _) => ∀ h loaded, s.harness = some h → h.phase = .runStatus loaded →
      SessionStore.runStatus run.runId s.db = some .running → s.unverified ≠ [] →
        ∃ checkpoint, loaded = some checkpoint ∧
          AgentHarness.validateCheckpoint h.inv h.locals.fingerprint checkpoint = none ∧
          checkpoint.unresolvedExternalEffects ≠ []
  | _ => True

/-- The write is unverified in this result. -/
def isUnverifiedWrite (result : ToolResult) : Prop :=
  result.effect.isWrite = true ∧ result.verification.state ≠ .verified

/-- An unverified write is on the list, or its result waits to be recorded. -/
def effectOutline (unverified : List ToolCall) : Annotation where
  between results l := unverified ≠ [] →
    l.unresolvedExternalEffects ≠ [] ∨ ∃ result ∈ results, isUnverifiedWrite result

theorem effect_rule (unverified : List ToolCall) :
    AgentHarness.LoopRule (effectOutline unverified) where
  turn hl := hl
  spend _ _ _ hl := hl
  answer _ hl := hl
  acknowledged hl := hl
  cancelled _ hl := hl
  savedCancelled _ hl := hl
  record := by
    intro result rest l after hl hrecord hunverified
    have hafter := (AgentHarness.recordResult_ok hrecord).1
    rw [hafter]
    dsimp only
    rcases hl hunverified with hlisted | ⟨other, hmem, hwrite, hstate⟩
    · left
      split
      · simp
      · exact hlisted
    · rcases List.mem_cons.mp hmem with rfl | hrest
      · left
        rw [if_pos ⟨hstate, hwrite⟩]
        simp
      · exact Or.inr ⟨other, hrest, hwrite, hstate⟩

/-- A write call that starts is unverified until its result says otherwise. -/
def withStarted (unverified : List ToolCall) (call : ToolCall) (effect : ToolEffect) :
    List ToolCall :=
  if effect.isWrite then call :: unverified else unverified

/-- The annotation at the phases before the loop, and while a call is running. -/
def LiveOk (unverified : List ToolCall) (inv : Invocation) (state : Locals × HarnessPhase) :
    Prop :=
  match state.2 with
  | .startRun | .loadCheckpoint | .runStatus _ => True
  | .runStarted | .discardCheckpoint _ | .checkpointInvalidated _ => unverified = []
  | .acknowledgeCheckpoint _ => (effectOutline unverified).between [] state.1
  | .callRunning _ call _ results =>
      (effectOutline unverified).between results state.1 ∨
        ∃ settled, unverified = withStarted settled call (inv.registry.effectOf call) ∧
          (effectOutline settled).between results state.1
  | phase => AgentHarness.InLoop inv (effectOutline unverified) state.1 phase

theorem liveOk_of_inLoop {unverified : List ToolCall} {inv : Invocation}
    {state : Locals × HarnessPhase}
    (hloop : AgentHarness.InLoop inv (effectOutline unverified) state.1 state.2) :
    LiveOk unverified inv state := by
  obtain ⟨l, phase⟩ := state
  cases phase with
  | startRun | runStarted | loadCheckpoint | runStatus _ | discardCheckpoint _
  | checkpointInvalidated _ | acknowledgeCheckpoint _ => exact hloop.elim
  | callRunning build call rest results => exact Or.inl hloop
  | _ => exact hloop

structure EffectOk (run : RootRun) (s : RunSystem) : Prop where
  attached : s.Attached run
  completed : s.CompletedVerified run
  known : s.unverified ≠ [] → SessionStore.runStatus run.runId s.db ≠ none
  live : ∀ h, s.harness = some h → LiveOk s.unverified h.inv (h.locals, h.phase)

section Commits

open AgentHarness

theorem unresolved_applyControls (l : Locals) (controls : List ControlRow) :
    (applyControls l controls).unresolvedExternalEffects = l.unresolvedExternalEffects := by
  unfold applyControls
  induction controls generalizing l with
  | nil => rfl
  | cons control rest ih =>
      rw [List.foldl_cons, ih]
      unfold applyControl
      split
      · split <;> rfl
      · dsimp only
        split <;> rfl

variable {unverified : List ToolCall} {inv : Invocation} {l : Locals} {db after : Database}
  {clock : ClockReadings} {state : Locals × HarnessPhase}

/-- The locals of a fresh lifetime, when nothing is unverified. -/
theorem liveOk_enterLoop (hnone : unverified = []) :
    LiveOk unverified inv (enterLoop inv l clock) := by
  apply liveOk_of_inLoop
  apply inLoop_enterLoop (effect_rule unverified)
  intro hunverified
  exact absurd hnone hunverified

theorem liveOk_outside {α : Type} {operation : Database → Except PyError (α × Database)}
    {next : α → Locals × HarnessPhase}
    (hnext : ∀ value, LiveOk unverified inv (next value)) :
    LiveOk unverified inv (outside l operation db next).2 :=
  outside_rule rfl (fun value _ => hnext value) fun _ => trivial

/-- The step at which a resumed lifetime decides about its checkpoint. -/
theorem liveOk_useCheckpoint {loaded : Option RunCheckpoint} {status : Option RunStatus}
    (hguard : status = some .running → unverified ≠ [] → ∃ checkpoint,
      loaded = some checkpoint ∧ validateCheckpoint inv l.fingerprint checkpoint = none ∧
        checkpoint.unresolvedExternalEffects ≠ []) :
    LiveOk unverified inv (useCheckpoint inv l loaded status clock) := by
  refine useCheckpoint_rule (fun _ => trivial) ?_ ?_ ?_
  · rintro hrunning rfl
    apply liveOk_enterLoop
    by_contra hunverified
    obtain ⟨checkpoint, hloaded, _⟩ := hguard hrunning hunverified
    cases hloaded
  · rintro checkpoint reason hrunning rfl hrefused
    by_contra hunverified
    obtain ⟨other, hloaded, haccepted, _⟩ := hguard hrunning hunverified
    cases hloaded
    rw [haccepted] at hrefused
    cases hrefused
  · rintro checkpoint hrunning rfl _
    have hbetween : (effectOutline unverified).between [] (restore l checkpoint) := by
      intro hunverified
      obtain ⟨other, hloaded, _, hlisted⟩ := hguard hrunning hunverified
      cases hloaded
      exact Or.inl hlisted
    refine ⟨fun _ => hbetween, ?_⟩
    apply liveOk_of_inLoop
    exact inLoop_enterRestored (effect_rule unverified) hbetween checkpoint clock

/-- A transaction keeps the annotation, given the guard of the resumed lifetime. -/
theorem liveOk_commit {phase : HarnessPhase} (hlive : LiveOk unverified inv (l, phase))
    (hfresh : phase = .startRun → SessionStore.runStatus inv.request.runId db = none →
      unverified = [])
    (hguard : ∀ loaded, phase = .runStatus loaded →
      SessionStore.runStatus inv.request.runId db = some .running → unverified ≠ [] →
        ∃ checkpoint, loaded = some checkpoint ∧
          validateCheckpoint inv l.fingerprint checkpoint = none ∧
            checkpoint.unresolvedExternalEffects ≠ [])
    (hcommit : commit inv clock db l phase = some (after, state)) :
    LiveOk unverified inv state := by
  have hinLoop (hloop : InLoop inv (effectOutline unverified) l phase) :
      LiveOk unverified inv state :=
    liveOk_of_inLoop (inLoop_commit (effect_rule unverified) hloop
      (fun _ hl hunverified => by
        rw [unresolved_applyControls]
        exact hl hunverified)
      (fun _ _ _ _ => trivial) (fun _ _ _ _ => trivial) hcommit)
  cases phase with
  | startRun =>
      cases hstart : SessionStore.startRun (startRunArgs inv) inv.clockMs db with
      | error e =>
          simp only [commit, outside, hstart, Option.some.injEq] at hcommit
          cases hcommit
          trivial
      | ok result =>
          have hnone := (SessionStore.startRun_status hstart inv.request.runId).1
          simp only [commit, outside, hstart, Option.some.injEq] at hcommit
          cases hcommit
          exact hfresh rfl hnone
  | runStarted =>
      obtain rfl : _ = state := congrArg Prod.snd (Option.some.inj hcommit)
      exact liveOk_outside fun _ => liveOk_enterLoop hlive
  | loadCheckpoint =>
      cases hcommit
      trivial
  | runStatus loaded =>
      cases hcommit
      exact liveOk_useCheckpoint (hguard loaded rfl)
  | discardCheckpoint reason =>
      obtain rfl : _ = state := congrArg Prod.snd (Option.some.inj hcommit)
      exact liveOk_outside fun _ => hlive
  | checkpointInvalidated reason =>
      obtain rfl : _ = state := congrArg Prod.snd (Option.some.inj hcommit)
      exact liveOk_outside fun _ => liveOk_enterLoop hlive
  | acknowledgeCheckpoint checkpoint =>
      cases hcommit
      exact liveOk_of_inLoop
        (inLoop_enterRestored (effect_rule unverified) hlive checkpoint clock)
  | callRunning build call rest results => cases hcommit
  | _ => exact hinLoop hlive

end Commits

section Answers

open AgentHarness

variable {registry : ToolRegistry}

/-- A batch that runs in parallel reads only. -/
theorem effectOf_batch {calls : List ToolCall} (hsafe : registry.batchParallelSafe calls = true) :
    ∀ call ∈ calls, registry.effectOf call = .read := by
  intro call hmem
  unfold ToolRegistry.batchParallelSafe at hsafe
  have hcall := List.all_eq_true.mp (Bool.and_eq_true_iff.mp hsafe).2 call hmem
  unfold ToolRegistry.effectOf
  cases hrequire : registry.require call.toolId with
  | error e => rfl
  | ok tool =>
      simp only [hrequire, ToolRegistry.parallelSafe, Bool.and_eq_true, decide_eq_true_eq] at hcall
      exact hcall.1.1

theorem batchResults_effects {calls : List ToolCall} {answers : List ToolExecutor.ToolAnswer}
    {results : List ToolResult} (hok : batchResults registry calls answers = .ok results) :
    ∀ entry ∈ calls.zip results, entry.2.effect = registry.effectOf entry.1 := by
  induction calls generalizing answers results with
  | nil => simp
  | cons call calls ih =>
      cases answers with
      | nil => cases hok
      | cons answer answers =>
          unfold batchResults at hok
          cases hfirst : ToolExecutor.execute registry call answer with
          | error e =>
              rw [hfirst] at hok
              cases hok
          | ok result =>
              cases hrest : batchResults registry calls answers with
              | error e =>
                  rw [hfirst, hrest] at hok
                  cases hok
              | ok rest =>
                  rw [hfirst, hrest] at hok
                  cases hok
                  intro entry hmem
                  rcases List.mem_cons.mp hmem with rfl | hmem
                  · exact (ToolExecutor.execute_result hfirst).2.2
                  · exact ih hrest entry hmem

theorem record_reads_started {calls : List ToolCall}
    (hreads : ∀ call ∈ calls, registry.effectOf call = .read) (unverified : List ToolCall) :
    (calls.map (started registry)).foldl record unverified = unverified := by
  induction calls generalizing unverified with
  | nil => rfl
  | cons call calls ih =>
      have hcall := hreads call List.mem_cons_self
      simp only [List.map_cons, List.foldl_cons, started, record, hcall, ToolEffect.isWrite,
        Bool.false_eq_true, if_false]
      exact ih (fun other hmem => hreads other (List.mem_cons_of_mem _ hmem)) unverified

theorem record_reads_returned {entries : List (ToolCall × ToolResult)}
    (hreads : ∀ entry ∈ entries, entry.2.effect = .read) (unverified : List ToolCall) :
    (entries.map fun entry => HarnessEvent.toolReturned entry.1 entry.2).foldl record unverified =
      unverified := by
  induction entries generalizing unverified with
  | nil => rfl
  | cons entry entries ih =>
      have hentry := hreads entry List.mem_cons_self
      simp only [List.map_cons, List.foldl_cons, record, hentry, ToolEffect.isWrite,
        Bool.false_eq_true, false_and, if_false]
      exact ih (fun other hmem => hreads other (List.mem_cons_of_mem _ hmem)) unverified

variable {unverified : List ToolCall} {inv : Invocation} {l : Locals} {build : ContextBuild}
  {clock : ClockReadings}

variable (build clock) in
/-- The parallel batch changes nothing about the writes. -/
theorem liveOk_batch {calls : List ToolCall} (hl : (effectOutline unverified).between [] l)
    (hsafe : inv.registry.batchParallelSafe calls = true)
    (answer : Except PyError (List ToolExecutor.ToolAnswer)) :
    let after := afterBatch inv l build calls (answer.bind (batchResults inv.registry calls)) clock
    after.1.foldl record unverified = unverified ∧ LiveOk unverified inv (settle after.2) := by
  have hreads := effectOf_batch hsafe
  constructor
  · unfold afterBatch
    split
    · rfl
    · rename_i results hwait
      apply record_reads_returned
      intro entry hmem
      have hok := (leaveWait_ok hwait).1
      cases answer with
      | error e => cases hok
      | ok answers =>
          have hresults : batchResults inv.registry calls answers = .ok results := hok
          have heffect := batchResults_effects hresults entry hmem
          rw [heffect]
          exact hreads entry.1 (List.of_mem_zip hmem).1
  · apply liveOk_of_inLoop
    apply inLoop_batch (effect_rule unverified)
    intro results _ hunverified
    rcases hl hunverified with hlisted | ⟨result, hmem, _⟩
    · exact Or.inl hlisted
    · cases hmem

/-- The call that was running answers: its write is verified now, or its result
waits to be recorded. -/
theorem liveOk_tool {call : ToolCall} {rest : List ToolCall} {results : List ToolResult}
    (hl : (effectOutline unverified).between results l ∨
      ∃ settled, unverified = withStarted settled call (inv.registry.effectOf call) ∧
        (effectOutline settled).between results l)
    (answer : Except PyError ToolExecutor.ToolAnswer) :
    let after := afterCall inv l build call rest results
      (answer.bind (ToolExecutor.execute inv.registry call)) clock
    LiveOk (after.1.foldl record unverified) inv (settle after.2) := by
  unfold afterCall
  split
  · exact liveOk_of_inLoop (settle_inLoop (segment_error _))
  · rename_i l' result hwait
    obtain ⟨hok, hcharged⟩ := leaveWait_ok hwait
    have heffect : result.effect = inv.registry.effectOf call := by
      cases answer with
      | error e => cases hok
      | ok answer => exact (ToolExecutor.execute_result hok).2.2
    have hbetween : (effectOutline ([HarnessEvent.toolReturned call result].foldl record
        unverified)).between (results ++ [result]) l := by
      have hmono : ∀ other, (effectOutline other).between results l → other ≠ [] →
          l.unresolvedExternalEffects ≠ [] ∨
            ∃ item ∈ results ++ [result], isUnverifiedWrite item := by
        intro other hother hnonempty
        rcases hother hnonempty with hlisted | ⟨item, hmem, hitem⟩
        · exact Or.inl hlisted
        · exact Or.inr ⟨item, List.mem_append_left _ hmem, hitem⟩
      intro hunverified
      simp only [List.foldl_cons, List.foldl_nil, record] at hunverified
      rcases hl with hl | ⟨settled, rfl, hl⟩
      · apply hmono unverified hl
        rintro rfl
        split at hunverified <;> simp at hunverified
      · unfold withStarted at hunverified
        rw [← heffect] at hunverified
        cases hwrite : result.effect.isWrite with
        | false =>
            simp only [hwrite, Bool.false_eq_true, if_false, false_and] at hunverified
            exact hmono settled hl hunverified
        | true =>
            by_cases hverified : result.verification.state = .verified
            · simp only [hwrite, hverified, if_true, and_self, List.erase_cons_head] at hunverified
              exact hmono settled hl hunverified
            · exact Or.inr ⟨result, List.mem_append_right _ List.mem_cons_self, hwrite, hverified⟩
    apply liveOk_of_inLoop
    apply settle_inLoop
    exact segment_nextCall (effect_rule _)
      (between_leaveWait (effect_rule _) hbetween hwait) build _ rest

end Answers

/-- A step of the harness that is no transaction. -/
theorem liveOk_step {unverified : List ToolCall} {db after : Database} {h h' : Harness}
    {label : HarnessLabel} {events : List HarnessEvent}
    (hlabel : ∀ clock, label ≠ .commit clock)
    (hlive : LiveOk unverified h.inv (h.locals, h.phase))
    (hstep : h.step db label = some (after, h', events)) :
    LiveOk (events.foldl record unverified) h'.inv (h'.locals, h'.phase) := by
  obtain ⟨inv, l, phase⟩ := h
  cases label with
  | commit clock => exact absurd rfl (hlabel clock)
  | begin =>
      simp only [Harness.step] at hstep
      cases phase with
      | completeModel build =>
          cases hstep
          exact hlive
      | executeBatch build calls =>
          cases hstep
          rw [record_reads_started (effectOf_batch hlive.2)]
          exact hlive
      | executeCall build call rest results =>
          cases hstep
          exact Or.inr ⟨unverified, rfl, hlive⟩
      | _ => cases hstep
  | model answer clock =>
      simp only [Harness.step] at hstep
      cases phase with
      | modelRunning build =>
          cases hstep
          exact liveOk_of_inLoop
            (AgentHarness.inLoop_model (effect_rule unverified) hlive answer clock)
      | _ => cases hstep
  | batch answer clock =>
      simp only [Harness.step] at hstep
      cases phase with
      | batchRunning build calls =>
          cases hstep
          obtain ⟨hsame, hnext⟩ := liveOk_batch build clock hlive.1 hlive.2 answer
          rw [hsame]
          exact hnext
      | _ => cases hstep
  | tool answer clock =>
      simp only [Harness.step] at hstep
      cases phase with
      | callRunning build call rest results =>
          cases hstep
          exact liveOk_tool hlive answer
      | _ => cases hstep
  | cancelToken reason =>
      simp only [Harness.step] at hstep
      split at hstep
      · cases hstep
      · cases hstep
        have hcancel (hloop : AgentHarness.InLoop inv (effectOutline unverified) l phase) :
            LiveOk unverified inv (AgentHarness.cancel l reason, phase) :=
          liveOk_of_inLoop (AgentHarness.inLoop_cancel (effect_rule unverified) hloop reason)
        cases phase with
        | startRun | runStarted | loadCheckpoint | runStatus _ | discardCheckpoint _
        | checkpointInvalidated _ | acknowledgeCheckpoint _ | callRunning _ _ _ _ => exact hlive
        | _ => exact hcancel hlive
  | abort =>
      simp only [Harness.step] at hstep
      split at hstep <;> cases hstep
      trivial

/-! ### Runs -/

variable {run : RootRun}

/-- A transaction that closes the run as completed finds nothing unverified. -/
theorem completed_commit {s : RunSystem} (hs : s.EffectOk run) {h : Harness}
    (hh : s.harness = some h) {clock : ClockReadings} {after : Database}
    {state : Locals × HarnessPhase}
    (hcommit : AgentHarness.commit h.inv clock s.db h.locals h.phase = some (after, state)) :
    SessionStore.runStatus run.runId after = some .completed → s.unverified = [] := by
  intro hcompleted
  have hlive := hs.live h hh
  have hstatus := AgentHarness.commit_status hcommit
  rw [(hs.attached.owns h hh).1, hcompleted] at hstatus
  rcases hstatus with ⟨hsame, _⟩ | ⟨_, hrunning, _⟩ | ⟨outcome, hclosing, _, houtcome, _⟩
  · exact hs.completed hsame.symm
  · cases hrunning
  · have hdone : outcome.status = .completed := (Option.some.inj houtcome).symm
    cases hphase : h.phase with
    | finishAnswer other =>
        rw [hphase] at hclosing hlive
        obtain ⟨hl, content, houtcomeOf⟩ := hlive
        obtain rfl : other = outcome := Option.some.inj hclosing
        by_contra hunverified
        rcases hl hunverified with hlisted | ⟨_, hmem, _⟩
        · rw [houtcomeOf] at hdone
          simp [AgentHarness.outcomeOf, hlisted] at hdone
        · cases hmem
    | finishCancelled other =>
        rw [hphase] at hclosing hlive
        obtain rfl : other = outcome := Option.some.inj hclosing
        have hcancelled : other.status = .cancelled := hlive
        rw [hcancelled] at hdone
        cases hdone
    | finishFailed other =>
        rw [hphase] at hclosing hlive
        obtain rfl : other = outcome := Option.some.inj hclosing
        have hfailed : other.status = .failed := hlive
        rw [hfailed] at hdone
        cases hdone
    | _ =>
        rw [hphase] at hclosing
        cases hclosing

/-- A run row is never deleted. -/
theorem known_step {s t : RunSystem} {label : RunStep} (hs : s.Attached run)
    (hstep : s.step run label = some t)
    (hknown : SessionStore.runStatus run.runId s.db ≠ none) :
    SessionStore.runStatus run.runId t.db ≠ none := by
  cases label with
  | store op =>
      obtain ⟨hforeign, rfl⟩ := store_cases hstep
      rw [foreign_status hforeign]
      exact hknown
  | launch inv resume =>
      obtain ⟨_, harness, rfl, _⟩ := launch_cases hstep
      exact hknown
  | crash =>
      obtain rfl := crash_cases hstep
      exact hknown
  | harness label =>
      obtain ⟨h, after, h', events, hh, hnext, rfl⟩ := harness_cases hstep
      by_cases hlabel : ∃ clock, label = .commit clock
      · obtain ⟨clock, rfl⟩ := hlabel
        obtain ⟨state, hcommit, _, _⟩ := Harness.commit_cases hnext
        have hstatus := AgentHarness.commit_status hcommit
        rw [(hs.owns h hh).1] at hstatus
        rcases hstatus with ⟨hsame, _⟩ | ⟨_, hrunning, _⟩ | ⟨_, _, _, houtcome, _⟩
        · simpa [hsame] using hknown
        · simp [hrunning]
        · simp [houtcome]
      · obtain ⟨rfl, _⟩ := Harness.step_database (fun clock h => hlabel ⟨clock, h⟩) hnext
        exact hknown

theorem effectOk_start (db : Database) : EffectOk run ⟨db, none, []⟩ := by
  constructor
  · exact attached_of_none rfl
  · intro _
    rfl
  · intro hunverified
    exact absurd rfl hunverified
  · intro h hh
    cases hh

theorem effectOk_harness {s t : RunSystem} {label : HarnessLabel} (hs : s.EffectOk run)
    (hguard : s.ResumesWithUnresolved run (.harness label))
    (hstep : s.step run (.harness label) = some t) : t.EffectOk run := by
  have hattached := attached_step hs.attached hstep
  have hknown := known_step hs.attached hstep
  obtain ⟨h, after, h', events, hh, hnext, rfl⟩ := harness_cases hstep
  have hrunId := (hs.attached.owns h hh).1
  have hlive := hs.live h hh
  by_cases hlabel : ∃ clock, label = .commit clock
  · obtain ⟨clock, rfl⟩ := hlabel
    obtain ⟨state, hcommit, rfl, rfl⟩ := Harness.commit_cases hnext
    refine ⟨hattached, completed_commit hs hh hcommit, fun hunverified =>
      hknown (hs.known hunverified), ?_⟩
    intro other hother
    obtain rfl := Option.some.inj hother
    refine liveOk_commit hlive (fun _ hnone => ?_) (fun loaded hphase hrunning => ?_) hcommit
    · by_contra hunverified
      have hstatus : SessionStore.runStatus run.runId s.db = none := hrunId ▸ hnone
      exact hs.known hunverified hstatus
    · have hstatus : SessionStore.runStatus run.runId s.db = some .running := hrunId ▸ hrunning
      exact hguard h loaded hh hphase hstatus
  · have hcommits : ∀ clock, label ≠ .commit clock := fun clock h => hlabel ⟨clock, h⟩
    obtain ⟨rfl, _⟩ := Harness.step_database hcommits hnext
    have hsame : h.phase.isActive = false → events.foldl record s.unverified = s.unverified := by
      intro hidle
      rw [Harness.idle_events hidle hnext]
      rfl
    have hrunning := hs.attached.running h hh
    refine ⟨hattached, ?_, ?_, ?_⟩
    · intro hcompleted
      cases hactive : h.phase.isActive with
      | true =>
          have hstatus := hrunning hactive
          rw [hcompleted] at hstatus
          cases hstatus
      | false =>
          rw [hsame hactive]
          exact hs.completed hcompleted
    · intro hunverified
      cases hactive : h.phase.isActive with
      | true =>
          rw [hrunning hactive]
          nofun
      | false =>
          rw [hsame hactive] at hunverified
          exact hs.known hunverified
    · intro other hother
      obtain rfl := Option.some.inj hother
      exact liveOk_step hcommits hlive hnext

theorem effectOk_step {s t : RunSystem} {label : RunStep} (hs : s.EffectOk run)
    (hguard : s.ResumesWithUnresolved run label) (hstep : s.step run label = some t) :
    t.EffectOk run := by
  have hattached := attached_step hs.attached hstep
  cases label with
  | store op =>
      obtain ⟨hforeign, rfl⟩ := store_cases hstep
      have hstatus := foreign_status hforeign
      refine ⟨hattached, ?_, ?_, hs.live⟩
      · intro hcompleted
        rw [hstatus] at hcompleted
        exact hs.completed hcompleted
      · intro hunverified
        rw [hstatus]
        exact hs.known hunverified
  | launch inv resume =>
      obtain ⟨_, harness, rfl, hnew⟩ := launch_cases hstep
      refine ⟨hattached, hs.completed, hs.known, ?_⟩
      intro h hh
      unfold LiveOk
      rw [(hnew h hh).2.1]
      cases resume <;> trivial
  | harness label => exact effectOk_harness hs hguard hstep
  | crash =>
      obtain rfl := crash_cases hstep
      refine ⟨hattached, hs.completed, hs.known, ?_⟩
      intro h hh
      cases hh

/-- Over any crashes, resumes and checkpoint deletions: when every resumed lifetime
finds an unresolved effect in an accepted checkpoint whenever an executed write is
unverified, a completed run has verified all its writes. -/
theorem completed_run_verified (run : RootRun) (steps : List RunStep)
    (hguard : Along (step run) (ResumesWithUnresolved run) steps {}) :
    Always (step run) (CompletedVerified run) steps {} :=
  always_of_invariant (fun _ _ _ hs hl hstep => effectOk_step hs hl hstep)
    (fun _ hs => hs.completed) (effectOk_start {}) hguard

/-- A sufficient test: nothing is unverified when a lifetime decides about its
checkpoint. -/
def resumesVerified (s : RunSystem) : RunStep → Bool
  | .harness (.commit _) =>
      s.unverified.isEmpty || s.harness.all fun h =>
        match h.phase with
        | .runStatus _ => false
        | _ => true
  | _ => true

theorem resumes_of_verified (run : RootRun) (s : RunSystem) (label : RunStep)
    (hverified : s.resumesVerified label = true) : s.ResumesWithUnresolved run label := by
  cases label with
  | harness label =>
      cases label with
      | commit clock =>
          intro h loaded hh hphase _ hunverified
          simp [resumesVerified, hh, hphase, hunverified] at hverified
      | _ => trivial
  | _ => trivial

def completedVerifiedNow (run : RootRun) (s : RunSystem) : Bool :=
  SessionStore.runStatus run.runId s.db ≠ some .completed || s.unverified.isEmpty

theorem completedVerifiedNow_of (run : RootRun) (s : RunSystem)
    (hverified : s.CompletedVerified run) : s.completedVerifiedNow run = true := by
  unfold completedVerifiedNow
  by_cases hcompleted : SessionStore.runStatus run.runId s.db = some .completed
  · simp [hverified hcompleted]
  · simp [hcompleted]

/-- A lifetime that verifies its write, crashes before the checkpoint and is
resumed meets the condition. -/
theorem completed_run_verified_after_crash :
    let inv : Invocation :=
      { request :=
          { runId := "run", taskId := "task", nodeId := "/root", userRequest := "update it"
            toolContext :=
              { runId := "run", nodeId := "/root", tenantKey := "tenant", appId := "app"
                actorId := "user", sessionKey := "tenant/app/chat", identityRef := "bot"
                policyVersion := 1, taskId := some "task" } }
        definition :=
          { agentId := "root", version := 1, instructions := "Help.", modelProfile := "default"
            toolIds := ["doc.update"] }
        registry := ⟨[{ definition :=
          ⟨"doc.update", 1, "Update a document.", [], .write, false⟩ }], by decide⟩
        loaded := ⟨[], [], []⟩, hasInbox := false, clockMs := 3, digest := fun _ => "digest" }
    let mention : NormalizedEvent :=
      { eventId := "event-1", pluginId := "im", eventType := "im.message", tenantKey := "tenant"
        appId := "app", occurredAtMs := 0, receivedAtMs := 0, resourceKind := "message"
        resourceId := "message-1", traceId := "trace-1" }
    let commit : RunStep := .harness (.commit {})
    let call : ToolCall := ⟨"call-1", "doc.update", []⟩
    let written : ToolExecutor.PermittedAnswer :=
      { observation := [], verification := ⟨.verified, "doc", "read back", ["doc-1"]⟩ }
    Always (step ⟨"run", "task"⟩) (CompletedVerified ⟨"run", "task"⟩)
      [.store (.admitEvent mention ⟨"im", "im.handle_mention", "tenant/app/chat", [], 0, 0, 5, none⟩
          none "task" "outbox-0" 0),
        .launch inv false, commit, commit, commit, .harness .begin,
        .harness (.model (.ok { content := "", toolCalls := [call] }) {}), commit, commit,
        .harness .begin,
        .harness (.tool (.ok ⟨.ok ⟨true, "", false⟩, .ok true, .ok written⟩) {}), .crash,
        .launch inv true, commit, commit, commit, .harness .begin,
        .harness (.model (.ok { content := "done" }) {}), commit, commit] {} := by
  intro inv mention commit call written
  apply completed_run_verified
  exact along_of_check (resumes_of_verified _) (by decide +kernel)

/-- A write call is running when the process dies. The resumed run has no
checkpoint, starts over with an empty list and is completed by an answer without
tool calls. -/
theorem crash_forgets_running_write :
    let inv : Invocation :=
      { request :=
          { runId := "run", taskId := "task", nodeId := "/root", userRequest := "update it"
            toolContext :=
              { runId := "run", nodeId := "/root", tenantKey := "tenant", appId := "app"
                actorId := "user", sessionKey := "tenant/app/chat", identityRef := "bot"
                policyVersion := 1, taskId := some "task" } }
        definition :=
          { agentId := "root", version := 1, instructions := "Help.", modelProfile := "default"
            toolIds := ["doc.update"] }
        registry := ⟨[{ definition :=
          ⟨"doc.update", 1, "Update a document.", [], .write, false⟩ }], by decide⟩
        loaded := ⟨[], [], []⟩, hasInbox := true, clockMs := 3, digest := fun _ => "digest" }
    let mention : NormalizedEvent :=
      { eventId := "event-1", pluginId := "im", eventType := "im.message", tenantKey := "tenant"
        appId := "app", occurredAtMs := 0, receivedAtMs := 0, resourceKind := "message"
        resourceId := "message-1", traceId := "trace-1" }
    let commit : RunStep := .harness (.commit {})
    ¬ Always (step ⟨"run", "task"⟩) (CompletedVerified ⟨"run", "task"⟩)
      [.store (.admitEvent mention ⟨"im", "im.handle_mention", "tenant/app/chat", [], 0, 0, 5, none⟩
          none "task" "outbox-0" 0),
        .store (.leaseTasks ⟨"worker", 1, 60000, 1⟩ none),
        .launch inv false, commit, commit, commit, commit, .harness .begin,
        .harness (.model (.ok { content := "", toolCalls := [⟨"call-1", "doc.update", []⟩] }) {}),
        commit, commit, commit, .harness .begin, .crash,
        .launch inv true, commit, commit, commit, commit, .harness .begin,
        .harness (.model (.ok { content := "done" }) {}), commit, commit, commit] {} := by
  intro inv mention commit
  exact not_always_of_check (completedVerifiedNow_of _) (by decide +kernel)

end RunSystem

end Codex2Lark
