import Codex2Lark.Runtime.Loop
import Codex2Lark.Storage.RunStatus

/-!
One root run over its whole life: process lifetimes of its harness follow each
other, a lifetime may end at any await, and the transactions of everybody else
fall in between.
-/

namespace Codex2Lark

open Lib

structure RootRun where
  runId : String
  taskId : String
deriving DecidableEq, Repr

/-- The transactions of others. Only the harness of a run writes its row, its
events and its checkpoint and acknowledges the controls of its task; anybody may
delete the checkpoint, and a delegated run of the same task closes without
controls to apply. -/
def StoreOp.isForeign (run : RootRun) (db : Database) : StoreOp → Bool
  | .startRun args _ => args.runId ≠ run.runId
  | .appendEvent runId _ _ _ => runId ≠ run.runId
  | .saveCheckpoint checkpoint _ => checkpoint.runId ≠ run.runId
  | .tryFinishWithOutcome runId _ appliedControlIds _ =>
      runId ≠ run.runId &&
        (appliedControlIds.isEmpty ||
          (SessionStore.findRun db runId).all fun other => other.taskId ≠ run.taskId)
  | .acknowledgeControls taskId _ _ => taskId ≠ run.taskId
  | _ => true

/-- `harness` is the coroutine of the current lifetime. `unverified` is history:
the write calls passed to `ToolExecutor.execute` that have no verified result. -/
structure RunSystem where
  db : Database := {}
  harness : Option Harness := none
  unverified : List ToolCall := []

inductive RunStep where
  | store (op : StoreOp)
  | launch (inv : Invocation) (resume : Bool)
  | harness (label : HarnessLabel)
  | crash

namespace RunSystem

/-- The history after one event. -/
def record (unverified : List ToolCall) : HarnessEvent → List ToolCall
  | .modelRequested _ => unverified
  | .toolStarted call effect => if effect.isWrite then call :: unverified else unverified
  | .toolReturned call result =>
      if result.effect.isWrite ∧ result.verification.state = .verified then unverified.erase call
      else unverified

def isIdle (s : RunSystem) : Bool := s.harness.all fun h => h.phase.isOver

def step (run : RootRun) (s : RunSystem) : RunStep → Option RunSystem
  | .store op => if op.isForeign run s.db then some { s with db := op.apply s.db } else none
  | .launch inv resume =>
      if s.isIdle ∧ inv.request.runId = run.runId ∧ inv.request.taskId = run.taskId then
        match AgentHarness.launch inv resume with
        | .ok (locals, phase) => some { s with harness := some ⟨inv, locals, phase⟩ }
        | .error _ => some { s with harness := none }
      else none
  | .harness label =>
      match s.harness with
      | none => none
      | some h =>
          (h.step s.db label).map fun (after, h, events) =>
            { db := after, harness := some h, unverified := events.foldl record s.unverified }
  | .crash => some { s with harness := none }

end RunSystem

/-- The coroutine is past the check that the run is running and has not closed it. -/
def HarnessPhase.isActive : HarnessPhase → Bool
  | .startRun | .loadCheckpoint | .runStatus _ | .acknowledgeCancelled _ | .returned _
  | .raised _ => false
  | _ => true

/-- The phases that write the run row. -/
def HarnessPhase.writesRun : HarnessPhase → Bool
  | .startRun | .finishAnswer _ | .finishCancelled _ | .finishFailed _ => true
  | _ => false

namespace AgentHarness

theorem launch_ok {inv : Invocation} {resume : Bool} {l : Locals} {phase : HarnessPhase}
    (hlaunch : launch inv resume = .ok (l, phase)) :
    ∃ ledger fingerprint, l = { ledger, fingerprint } ∧
      phase = if resume then .loadCheckpoint else .startRun := by
  unfold launch at hlaunch
  cases hfingerprint : inv.registry.schemaFingerprint inv.digest inv.definition.toolIds with
  | error e =>
      rw [hfingerprint] at hlaunch
      cases hlaunch
  | ok fingerprint =>
      rw [hfingerprint] at hlaunch
      cases hledger : BudgetLedger.fromLimits inv.definition.budgetLimits with
      | error e =>
          rw [hledger] at hlaunch
          cases hlaunch
      | ok ledger =>
          rw [hledger] at hlaunch
          cases hlaunch
          exact ⟨ledger, fingerprint, rfl, rfl⟩

variable {inv : Invocation} {clock : ClockReadings} {db after : Database} {l : Locals}

theorem inTry_database {α : Type} {operation : Database → Except PyError (α × Database)}
    {next : α → HarnessSegment} : (inTry l operation db next).1 = db.committed operation := by
  unfold inTry Database.committed Database.transaction
  split <;> simp_all

theorem outside_database {α : Type} {operation : Database → Except PyError (α × Database)}
    {next : α → Locals × HarnessPhase} :
    (outside l operation db next).1 = db.committed operation := by
  unfold outside Database.committed Database.transaction
  split <;> simp_all

/-- The transaction that a phase awaits. A phase that only reads awaits none. -/
def operation (inv : Invocation) (l : Locals) : HarnessPhase → Option StoreOp
  | .startRun => some (.startRun (startRunArgs inv) inv.clockMs)
  | .runStarted =>
      some (.appendEvent inv.request.runId "run_started" (runStartedPayload inv) inv.clockMs)
  | .discardCheckpoint _ => some (.discardCheckpoint inv.request.runId)
  | .checkpointInvalidated reason =>
      some (.appendEvent inv.request.runId "checkpoint_invalidated" [("reason", .str reason)]
        inv.clockMs)
  | .acknowledgeCheckpoint checkpoint =>
      some (.acknowledgeControls inv.request.taskId checkpoint.appliedControlIds inv.clockMs)
  | .contextCompacted build =>
      some (.appendEvent inv.request.runId "context_compacted" (compactedPayload inv build)
        inv.clockMs)
  | .turnStarted build =>
      some (.appendEvent inv.request.runId "turn_started" (turnStartedPayload l build) inv.clockMs)
  | .modelCompleted _ response =>
      some (.appendEvent inv.request.runId "model_completed" (modelCompletedPayload l response)
        inv.clockMs)
  | .saveAnswer build | .saveCheckpoint build =>
      some (.saveCheckpoint (checkpointOf inv l build.sourceVersions) inv.clockMs)
  | .acknowledgeAnswer | .acknowledgeTurn _ | .acknowledgeCancelled _ =>
      some (.acknowledgeControls inv.request.taskId l.pendingAckIds inv.clockMs)
  | .finishAnswer outcome | .finishFailed outcome =>
      some (.tryFinishWithOutcome inv.request.runId outcome [] inv.clockMs)
  | .finishCancelled outcome =>
      some (.tryFinishWithOutcome inv.request.runId outcome l.pendingAckIds inv.clockMs)
  | .toolRequested _ _ rest =>
      some (.appendEvent inv.request.runId "tool_requested" (toolRequestedPayload rest) inv.clockMs)
  | .resultRecorded _ result _ =>
      some (.appendEvent inv.request.runId
        (if result.succeeded then "tool_completed" else "tool_failed") (toolResultPayload result)
        inv.clockMs)
  | .checkpointSaved nextTurn =>
      some (.appendEvent inv.request.runId "checkpoint_saved" [("next_turn", .int nextTurn)]
        inv.clockMs)
  | .loadCheckpoint | .runStatus _ | .pollBeforeModel | .pollAfterModel _ _ | .pollAfterTools _
  | .completeModel _ | .modelRunning _ | .executeBatch _ _ | .batchRunning _ _
  | .executeCall _ _ _ _ | .callRunning _ _ _ _ | .returned _ | .raised _ => none

/-- A step of the harness changes the tables by that transaction only. -/
theorem commit_operation {phase : HarnessPhase} {state : Locals × HarnessPhase}
    (hcommit : commit inv clock db l phase = some (after, state)) :
    after = ((operation inv l phase).map fun op => op.apply db).getD db := by
  cases phase with
  | completeModel _ | modelRunning _ | executeBatch _ _ | batchRunning _ _
  | executeCall _ _ _ _ | callRunning _ _ _ _ | returned _ | raised _ => cases hcommit
  | loadCheckpoint | runStatus _ | pollBeforeModel | pollAfterModel _ _ | pollAfterTools _
  | acknowledgeCheckpoint _ | acknowledgeAnswer | acknowledgeTurn _ | acknowledgeCancelled _ =>
      cases hcommit
      rfl
  | startRun | runStarted | discardCheckpoint _ | checkpointInvalidated _ | finishCancelled _
  | finishFailed _ =>
      obtain rfl : _ = after := congrArg Prod.fst (Option.some.inj hcommit)
      exact outside_database
  | _ =>
      obtain rfl : _ = after := congrArg Prod.fst (Option.some.inj hcommit)
      exact inTry_database

/-- The transactions that leave the run rows alone. -/
theorem commit_runs {phase : HarnessPhase} {state : Locals × HarnessPhase}
    (hphase : phase.writesRun = false)
    (hcommit : commit inv clock db l phase = some (after, state)) : after.runs = db.runs := by
  rw [commit_operation hcommit]
  cases phase with
  | startRun | finishAnswer _ | finishCancelled _ | finishFailed _ => cases hphase
  | loadCheckpoint | runStatus _ | pollBeforeModel | pollAfterModel _ _ | pollAfterTools _
  | completeModel _ | modelRunning _ | executeBatch _ _ | batchRunning _ _
  | executeCall _ _ _ _ | callRunning _ _ _ _ | returned _ | raised _ => rfl
  | _ =>
      simp only [operation, Option.map_some, Option.getD_some]
      apply StoreOp.runs_apply
      rfl

/-- A closing transaction of an `except` clause. -/
theorem outside_finish_status {outcome : AgentOutcome} {appliedControlIds : List String}
    {next : Bool → Locals × HarnessPhase} {state : Locals × HarnessPhase}
    (hnext : ∀ closed, (next closed).2.isActive = false)
    (hcommit : outside l (finish inv outcome appliedControlIds) db next = (after, state)) :
    state.2.isActive = false ∧
      (SessionStore.runStatus inv.request.runId after =
          SessionStore.runStatus inv.request.runId db ∨
        SessionStore.runStatus inv.request.runId db = some .running ∧
          SessionStore.runStatus inv.request.runId after = some outcome.status) := by
  unfold outside at hcommit
  cases hfinish : finish inv outcome appliedControlIds db with
  | error e =>
      simp only [hfinish] at hcommit
      cases hcommit
      exact ⟨rfl, Or.inl rfl⟩
  | ok result =>
      obtain ⟨closed, middle⟩ := result
      simp only [hfinish] at hcommit
      obtain ⟨rfl, rfl⟩ := Prod.mk.inj hcommit
      obtain ⟨hrunning, hstatus⟩ :=
        SessionStore.tryFinishWithOutcome_status hfinish inv.request.runId
      refine ⟨hnext closed, ?_⟩
      cases closed with
      | false =>
          rw [if_neg (by simp)] at hstatus
          exact Or.inl hstatus
      | true =>
          rw [if_pos ⟨rfl, rfl⟩] at hstatus
          exact Or.inr ⟨hrunning, hstatus⟩

/-- What one transaction of the harness does to the status of its run. -/
theorem commit_status {phase : HarnessPhase} {state : Locals × HarnessPhase}
    (hcommit : commit inv clock db l phase = some (after, state)) :
    (SessionStore.runStatus inv.request.runId after = SessionStore.runStatus inv.request.runId db ∧
      (state.2.isActive = true →
        phase.isActive = true ∨
          SessionStore.runStatus inv.request.runId db = some .running)) ∨
    (SessionStore.runStatus inv.request.runId db = none ∧
      SessionStore.runStatus inv.request.runId after = some .running ∧ phase = .startRun) ∨
    ∃ outcome, phase.closing? = some outcome ∧
      SessionStore.runStatus inv.request.runId db = some .running ∧
      SessionStore.runStatus inv.request.runId after = some outcome.status ∧
      state.2.isActive = false := by
  cases hwrites : phase.writesRun with
  | false =>
      refine Or.inl ⟨SessionStore.runStatus_congr (commit_runs hwrites hcommit) _, ?_⟩
      intro hactive
      cases phase with
      | loadCheckpoint =>
          cases hcommit
          cases hactive
      | runStatus checkpoint =>
          cases hcommit
          right
          by_contra hnot
          have hraised : (useCheckpoint inv l checkpoint
              (SessionStore.runStatus inv.request.runId db) clock).2.isActive = false := by
            unfold useCheckpoint
            rw [if_pos hnot]
            rfl
          rw [hraised] at hactive
          cases hactive
      | acknowledgeCancelled outcome =>
          cases hcommit
          cases hactive
      | startRun => cases hwrites
      | returned _ | raised _ => cases hcommit
      | _ => exact Or.inl rfl
  | true =>
      cases phase with
      | startRun =>
          simp only [commit, outside, Option.some.injEq] at hcommit
          cases hstart : SessionStore.startRun (startRunArgs inv) inv.clockMs db with
          | error e =>
              simp only [hstart] at hcommit
              cases hcommit
              exact Or.inl ⟨rfl, nofun⟩
          | ok result =>
              simp only [hstart] at hcommit
              cases hcommit
              obtain ⟨hfresh, hstatus⟩ := SessionStore.startRun_status hstart inv.request.runId
              rw [if_pos (by rfl)] at hstatus
              exact Or.inr (Or.inl ⟨hfresh, hstatus, rfl⟩)
      | finishAnswer outcome =>
          simp only [commit, inTry, Option.some.injEq] at hcommit
          cases hfinish : finish inv outcome [] db with
          | error e =>
              simp only [hfinish] at hcommit
              cases hcommit
              exact Or.inl ⟨rfl, fun _ => Or.inl rfl⟩
          | ok result =>
              obtain ⟨closed, middle⟩ := result
              simp only [hfinish] at hcommit
              cases hcommit
              obtain ⟨hrunning, hstatus⟩ :=
                SessionStore.tryFinishWithOutcome_status hfinish inv.request.runId
              cases closed with
              | false =>
                  rw [if_neg (by simp)] at hstatus
                  exact Or.inl ⟨hstatus, fun _ => Or.inl rfl⟩
              | true =>
                  rw [if_pos ⟨rfl, rfl⟩] at hstatus
                  exact Or.inr (Or.inr ⟨outcome, rfl, hrunning, hstatus, rfl⟩)
      | finishCancelled outcome =>
          have hnext : ∀ _ : Bool, (if inv.hasInbox = true ∧ (!l.pendingAckIds.isEmpty) = true then
              HarnessPhase.acknowledgeCancelled outcome
            else .returned outcome).isActive = false := by
            intro _
            split <;> rfl
          obtain ⟨hover, hsame | ⟨hrunning, hstatus⟩⟩ :=
            outside_finish_status hnext (Option.some.inj hcommit)
          · exact Or.inl ⟨hsame, fun _ => Or.inl rfl⟩
          · exact Or.inr (Or.inr ⟨outcome, rfl, hrunning, hstatus, hover⟩)
      | finishFailed outcome =>
          obtain ⟨hover, hsame | ⟨hrunning, hstatus⟩⟩ :=
            outside_finish_status (fun _ => rfl) (Option.some.inj hcommit)
          · exact Or.inl ⟨hsame, fun _ => Or.inl rfl⟩
          · exact Or.inr (Or.inr ⟨outcome, rfl, hrunning, hstatus, hover⟩)
      | _ => cases hwrites

end AgentHarness

namespace Harness

theorem commit_cases {db after : Database} {h h' : Harness} {clock : ClockReadings}
    {events : List HarnessEvent} (hstep : h.step db (.commit clock) = some (after, h', events)) :
    ∃ state, AgentHarness.commit h.inv clock db h.locals h.phase = some (after, state) ∧
      h' = h.become state ∧ events = [] := by
  simp only [step, Option.map_eq_some_iff] at hstep
  obtain ⟨⟨middle, state⟩, hcommit, hresult⟩ := hstep
  cases hresult
  exact ⟨state, hcommit, rfl, rfl⟩

/-- Only a transaction enters the active phases. -/
theorem active_before {db after : Database} {h h' : Harness} {label : HarnessLabel}
    {events : List HarnessEvent} (hlabel : ∀ clock, label ≠ .commit clock)
    (hstep : h.step db label = some (after, h', events)) (hactive : h'.phase.isActive = true) :
    h.phase.isActive = true := by
  cases label with
  | commit clock => exact absurd rfl (hlabel clock)
  | begin =>
      simp only [step] at hstep
      split at hstep <;> rename_i hphase
      · rw [hphase]
        rfl
      · rw [hphase]
        rfl
      · rw [hphase]
        rfl
      · cases hstep
  | cancelToken reason =>
      simp only [step] at hstep
      split at hstep <;> cases hstep
      exact hactive
  | abort =>
      simp only [step] at hstep
      split at hstep <;> cases hstep
      cases hactive
  | _ =>
      simp only [step] at hstep
      split at hstep <;> rename_i hphase
      · rw [hphase]
        rfl
      · cases hstep

/-- A lifetime that is not in the loop has no history. -/
theorem idle_events {db after : Database} {h h' : Harness} {label : HarnessLabel}
    {events : List HarnessEvent} (hidle : h.phase.isActive = false)
    (hstep : h.step db label = some (after, h', events)) : events = [] := by
  obtain ⟨inv, l, phase⟩ := h
  cases label with
  | commit clock =>
      obtain ⟨_, _, _, hnone⟩ := commit_cases hstep
      exact hnone
  | abort =>
      simp only [step] at hstep
      split at hstep <;> cases hstep
      rfl
  | cancelToken reason =>
      simp only [step] at hstep
      split at hstep <;> cases hstep
      rfl
  | begin =>
      cases phase with
      | completeModel _ | executeBatch _ _ | executeCall _ _ _ _ => cases hidle
      | _ => cases hstep
  | model answer clock =>
      cases phase with
      | modelRunning _ => cases hidle
      | _ => cases hstep
  | batch answer clock =>
      cases phase with
      | batchRunning _ _ => cases hidle
      | _ => cases hstep
  | tool answer clock =>
      cases phase with
      | callRunning _ _ _ _ => cases hidle
      | _ => cases hstep

end Harness

namespace RunSystem

variable {run : RootRun}

/-- A transaction of somebody else leaves the status of the run alone. -/
theorem foreign_status {db : Database} {op : StoreOp} (hforeign : op.isForeign run db = true) :
    SessionStore.runStatus run.runId (op.apply db) = SessionStore.runStatus run.runId db := by
  cases op with
  | startRun args nowMs =>
      have hother : run.runId ≠ args.runId := fun h => by
        simp [StoreOp.isForeign, h] at hforeign
      apply Database.committed_column (SessionStore.runStatus run.runId)
      intro value after hok
      rw [(SessionStore.startRun_status hok run.runId).2, if_neg hother]
  | tryFinishWithOutcome runId outcome appliedControlIds nowMs =>
      have hother : run.runId ≠ runId := fun h => by
        simp [StoreOp.isForeign, h] at hforeign
      apply Database.committed_column (SessionStore.runStatus run.runId)
      intro closed after hok
      rw [(SessionStore.tryFinishWithOutcome_status hok run.runId).2, if_neg fun h => hother h.1]
  | _ => exact SessionStore.runStatus_congr (StoreOp.runs_apply db rfl) _

/-! ### What each kind of step does -/

theorem store_cases {s t : RunSystem} {op : StoreOp} (hstep : s.step run (.store op) = some t) :
    op.isForeign run s.db = true ∧ t = { s with db := op.apply s.db } := by
  simp only [step] at hstep
  split at hstep
  · rename_i hforeign
    exact ⟨hforeign, (Option.some.inj hstep).symm⟩
  · cases hstep

theorem launch_cases {s t : RunSystem} {inv : Invocation} {resume : Bool}
    (hstep : s.step run (.launch inv resume) = some t) :
    (inv.request.runId = run.runId ∧ inv.request.taskId = run.taskId) ∧
      ∃ harness, t = { s with harness } ∧ ∀ h, harness = some h →
        h.inv = inv ∧ h.phase = (if resume then .loadCheckpoint else .startRun) ∧
          ∃ ledger fingerprint, h.locals = { ledger, fingerprint } := by
  simp only [step] at hstep
  split at hstep
  · rename_i hguard
    refine ⟨hguard.2, ?_⟩
    cases hlaunch : AgentHarness.launch inv resume with
    | error e =>
        simp only [hlaunch] at hstep
        refine ⟨none, (Option.some.inj hstep).symm, ?_⟩
        intro h hh
        cases hh
    | ok launched =>
        obtain ⟨l, phase⟩ := launched
        simp only [hlaunch] at hstep
        obtain ⟨ledger, fingerprint, hl, hphase⟩ := AgentHarness.launch_ok hlaunch
        refine ⟨some ⟨inv, l, phase⟩, (Option.some.inj hstep).symm, ?_⟩
        intro h hh
        obtain rfl := Option.some.inj hh
        exact ⟨rfl, hphase, ledger, fingerprint, hl⟩
  · cases hstep

theorem harness_cases {s t : RunSystem} {label : HarnessLabel}
    (hstep : s.step run (.harness label) = some t) :
    ∃ h after h' events, s.harness = some h ∧ h.step s.db label = some (after, h', events) ∧
      t = ⟨after, some h', events.foldl record s.unverified⟩ := by
  simp only [step] at hstep
  cases hh : s.harness with
  | none => simp [hh] at hstep
  | some h =>
      simp only [hh, Option.map_eq_some_iff] at hstep
      obtain ⟨⟨after, h', events⟩, hnext, ht⟩ := hstep
      exact ⟨h, after, h', events, rfl, hnext, ht.symm⟩

theorem crash_cases {s t : RunSystem} (hstep : s.step run .crash = some t) :
    t = { s with harness := none } :=
  (Option.some.inj hstep).symm

/-- The harness belongs to the run, and its active phases find the run running. -/
structure Attached (run : RootRun) (s : RunSystem) : Prop where
  owns : ∀ h, s.harness = some h →
    h.inv.request.runId = run.runId ∧ h.inv.request.taskId = run.taskId
  running : ∀ h, s.harness = some h → h.phase.isActive = true →
    SessionStore.runStatus run.runId s.db = some .running

theorem attached_of_none {s : RunSystem} (hnone : s.harness = none) : s.Attached run := by
  constructor
  · intro h hh
    rw [hnone] at hh
    cases hh
  · intro h hh
    rw [hnone] at hh
    cases hh

theorem attached_harness {s t : RunSystem} {label : HarnessLabel} (hs : s.Attached run)
    (hstep : s.step run (.harness label) = some t) : t.Attached run := by
  obtain ⟨h, after, h', events, hh, hnext, ht⟩ := harness_cases hstep
  have hrunId := (hs.owns h hh).1
  subst ht
  constructor
  · intro other hother
    obtain rfl := Option.some.inj hother
    rw [Harness.step_inv hnext]
    exact hs.owns h hh
  · intro other hother hactive
    obtain rfl := Option.some.inj hother
    by_cases hlabel : ∃ clock, label = .commit clock
    · obtain ⟨clock, rfl⟩ := hlabel
      obtain ⟨state, hcommit, rfl, _⟩ := Harness.commit_cases hnext
      have hstatus := AgentHarness.commit_status hcommit
      rw [hrunId] at hstatus
      have hactive' : state.2.isActive = true := hactive
      rcases hstatus with ⟨hsame, hfrom⟩ | ⟨_, hrunning, _⟩ | ⟨_, _, _, _, hover⟩
      · rw [hsame]
        rcases hfrom hactive' with hbefore | hrunning
        · exact hs.running h hh hbefore
        · exact hrunning
      · exact hrunning
      · rw [hover] at hactive'
        cases hactive'
    · have hcommits : ∀ clock, label ≠ .commit clock := fun clock h => hlabel ⟨clock, h⟩
      obtain ⟨rfl, _⟩ := Harness.step_database hcommits hnext
      exact hs.running h hh (Harness.active_before hcommits hnext hactive)

theorem attached_step {s t : RunSystem} {label : RunStep} (hs : s.Attached run)
    (hstep : s.step run label = some t) : t.Attached run := by
  cases label with
  | store op =>
      obtain ⟨hforeign, rfl⟩ := store_cases hstep
      refine ⟨hs.owns, ?_⟩
      intro h hh hactive
      rw [foreign_status hforeign]
      exact hs.running h hh hactive
  | launch inv resume =>
      obtain ⟨howns, harness, rfl, hnew⟩ := launch_cases hstep
      constructor
      · intro h hh
        rw [(hnew h hh).1]
        exact howns
      · intro h hh hactive
        rw [(hnew h hh).2.1] at hactive
        cases resume <;> cases hactive
  | harness label => exact attached_harness hs hstep
  | crash =>
      obtain rfl := crash_cases hstep
      exact attached_of_none rfl

end RunSystem

end Codex2Lark
