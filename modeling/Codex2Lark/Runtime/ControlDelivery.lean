import Codex2Lark.Runtime.ControlJournal
import Codex2Lark.Runtime.RunSystem
import Codex2Lark.Storage.Checkpoints

/-!
Steering and follow-up controls over the lifetimes of a run: what is applied in
the inbox, what the journal holds and what the checkpoint remembers.
-/

namespace Codex2Lark

open Lib

/-! ### What a transaction does to the controls -/

namespace SessionStore

variable {db after : Database} {taskId : String}

theorem applyControls_rewrites (other : String) (controlIds : List String) (nowMs : Int) :
    Rewrites taskId controlIds db.controls (applyControls db other controlIds nowMs).controls := by
  apply Rewrites.of_update (by nofun)
  intro _ c hcond _
  simp only [Bool.and_eq_true, List.contains_iff_mem] at hcond
  exact hcond.2

theorem applyControls_other {other : String} (hother : other ≠ taskId)
    (controlIds : List String) (nowMs : Int) :
    Rewrites taskId [] db.controls (applyControls db other controlIds nowMs).controls := by
  apply Rewrites.of_update (by nofun)
  intro _ c hcond htask
  simp only [Bool.and_eq_true, decide_eq_true_eq] at hcond
  exact absurd (hcond.1.1.symm.trans htask) hother

theorem supersedeControls_rewrites (held : List String) (other : String) (nowMs : Int) :
    Rewrites taskId held db.controls (supersedeControls db other nowMs).controls :=
  Rewrites.of_update (by nofun) (by nofun)

/-- A closing attempt, given what it does to the controls it applies itself. -/
theorem tryFinishWithOutcome_rewrites {runId : String} {outcome : AgentOutcome}
    {appliedControlIds held : List String} {nowMs : Int} {closed : Bool}
    (hok : tryFinishWithOutcome runId outcome appliedControlIds nowMs db = .ok (closed, after))
    (hclosing : ∀ run, findRun db runId = some run → Rewrites taskId held db.controls
      (closingInbox db run.taskId appliedControlIds nowMs).controls) :
    Rewrites taskId held db.controls after.controls := by
  obtain ⟨run, hrun, _, hcases⟩ := tryFinishWithOutcome_ok hok
  have hinbox := hclosing run hrun
  rcases hcases with ⟨_, _, _, rfl⟩ | ⟨_, _, rfl⟩
  · exact hinbox
  · unfold closeRun setStatus insertEvent
    split
    · exact hinbox.trans (supersedeControls_rewrites held run.taskId nowMs)
    · exact hinbox

theorem closingInbox_rewrites (other : String) (controlIds : List String) (nowMs : Int) :
    Rewrites taskId controlIds db.controls (closingInbox db other controlIds nowMs).controls := by
  unfold closingInbox
  split
  · exact Rewrites.of_eq rfl
  · exact applyControls_rewrites other controlIds nowMs

end SessionStore

namespace StoreOp

/-- The transactions that touch the inbox. -/
def isInbox : StoreOp → Bool
  | .admitControl _ _ _ _ | .acknowledgeControls _ _ _ | .tryFinishWithOutcome _ _ _ _ => true
  | _ => false

theorem controls_apply (db : Database) {op : StoreOp} (hop : op.isInbox = false) :
    (op.apply db).controls = db.controls := by
  cases op with
  | admitControl args controlId outboxId nowMs => cases hop
  | acknowledgeControls taskId controlIds nowMs => cases hop
  | tryFinishWithOutcome runId outcome appliedControlIds nowMs => cases hop
  | admitEvent event command acknowledgement taskId outboxId nowMs =>
      apply Database.committed_column Database.controls
      intro value after hok
      rw [(RuntimeStore.admitEvent_ok hok).1]
  | enqueueTaskOutbox taskId draft outboxId nowMs =>
      apply Database.committed_column Database.controls
      intro value after hok
      rw [RuntimeStore.enqueueTaskOutbox_ok hok]
  | requestApproval request outboxId nowMs =>
      apply Database.committed_column Database.controls
      intro value after hok
      rw [RuntimeStore.requestApproval_ok hok]
  | decideApproval args outboxId nowMs =>
      apply Database.committed_column Database.controls
      intro value after hok
      rw [RuntimeStore.decideApproval_ok hok]
  | leaseTasks args limits =>
      apply Database.committed_column Database.controls
      intro value after hok
      rw [TaskQueue.leaseTasks_ok hok]
  | finishTask args outboxId nowMs =>
      apply Database.committed_column Database.controls
      intro value after hok
      rw [(TaskQueue.finishTask_ok hok).2.2]
  | retryTask taskId workerId availableAtMs errorCode nowMs =>
      apply Database.committed_column Database.controls
      intro value after hok
      rw [TaskQueue.retryTask_ok hok]
  | deferTask taskId workerId availableAtMs reason nowMs =>
      apply Database.committed_column Database.controls
      intro value after hok
      rw [TaskQueue.deferTask_ok hok]
  | startRun args nowMs =>
      apply Database.committed_column Database.controls
      intro value after hok
      rw [(SessionStore.startRun_ok hok).1]
  | appendEvent runId eventType payload nowMs =>
      apply Database.committed_column Database.controls
      intro value after hok
      rw [SessionStore.appendEvent_ok hok]
      rfl
  | saveCheckpoint checkpoint nowMs =>
      apply Database.committed_column Database.controls
      intro value after hok
      rw [SessionStore.saveCheckpoint_ok hok]
  | discardCheckpoint runId =>
      apply Database.committed_column Database.controls
      intro value after hok
      rw [SessionStore.discardCheckpoint_ok hok]

/-- A transaction of somebody else admits one control or applies none of the
task. -/
theorem foreign_controls {run : RootRun} {db : Database} {op : StoreOp}
    (hforeign : op.isForeign run db = true) :
    Rewrites run.taskId [] db.controls (op.apply db).controls ∨
      ∃ row, (op.apply db).controls = db.controls ++ [row] ∧ row.state = .pending ∧
        ∀ c ∈ db.controls, c.controlId ≠ row.controlId := by
  cases op with
  | admitControl args controlId outboxId nowMs =>
      simp only [apply]
      cases hadmit : RuntimeStore.admitControl args controlId outboxId nowMs db with
      | error e =>
          rw [Database.committed_error hadmit]
          exact Or.inl (Rewrites.of_eq rfl)
      | ok result =>
          rw [Database.committed_ok hadmit]
          obtain ⟨_, hsame | ⟨task, _, row, _, _, hid, _, _, hpending, _, hfresh, hafter⟩⟩ :=
            RuntimeStore.admitControl_ok hadmit
          · exact Or.inl (Rewrites.of_eq hsame)
          · refine Or.inr ⟨row, hafter, hpending, ?_⟩
            intro c hmem
            rw [hid]
            exact hfresh c hmem
  | acknowledgeControls other controlIds nowMs =>
      have hother : other ≠ run.taskId := by simpa [isForeign] using hforeign
      left
      simp only [apply, RuntimeStore.acknowledgeControls]
      split
      · exact Rewrites.of_eq rfl
      · exact SessionStore.applyControls_other hother controlIds nowMs
  | tryFinishWithOutcome runId outcome appliedControlIds nowMs =>
      left
      simp only [isForeign, Bool.and_eq_true, Bool.or_eq_true] at hforeign
      refine Database.committed_rel
        (R := fun b a => Rewrites run.taskId [] b.controls a.controls) db (Rewrites.of_eq rfl) ?_
      intro closed after hok
      refine SessionStore.tryFinishWithOutcome_rewrites hok ?_
      intro other hfind
      unfold SessionStore.closingInbox
      split
      · exact Rewrites.of_eq rfl
      · rename_i hnonempty
        have hother : other.taskId ≠ run.taskId := by
          rcases hforeign.2 with hempty | htask
          · exact absurd hempty hnonempty
          · simpa [hfind] using htask
        exact SessionStore.applyControls_other hother appliedControlIds nowMs
  | _ => exact Or.inl (Rewrites.of_eq (controls_apply db rfl))

end StoreOp

/-! ### What a transaction of the harness does to the controls -/

/-- The controls that the transaction of a phase acknowledges. -/
def HarnessPhase.acks (l : Locals) : HarnessPhase → List String
  | .acknowledgeCheckpoint checkpoint => checkpoint.appliedControlIds
  | .acknowledgeAnswer | .acknowledgeTurn _ | .acknowledgeCancelled _ | .finishCancelled _ =>
      l.pendingAckIds
  | _ => []

namespace AgentHarness

variable {inv : Invocation} {clock : ClockReadings} {db after : Database} {l : Locals}
  {phase : HarnessPhase} {state : Locals × HarnessPhase}

theorem commit_controls (taskId : String)
    (hcommit : commit inv clock db l phase = some (after, state)) :
    Rewrites taskId (phase.acks l) db.controls after.controls := by
  have hfinish (outcome : AgentOutcome) (controlIds : List String) :
      Rewrites taskId controlIds db.controls
        (db.committed (finish inv outcome controlIds)).controls := by
    refine Database.committed_rel
      (R := fun b a => Rewrites taskId controlIds b.controls a.controls) db (Rewrites.of_eq rfl) ?_
    intro closed middle hok
    exact SessionStore.tryFinishWithOutcome_rewrites hok
      fun other _ => SessionStore.closingInbox_rewrites other.taskId controlIds inv.clockMs
  have hacknowledge (controlIds : List String) :
      Rewrites taskId controlIds db.controls (acknowledge inv controlIds db).controls := by
    unfold acknowledge RuntimeStore.acknowledgeControls
    split
    · exact Rewrites.of_eq rfl
    · exact SessionStore.applyControls_rewrites inv.request.taskId controlIds inv.clockMs
  rw [commit_operation hcommit]
  cases phase with
  | loadCheckpoint | runStatus _ | pollBeforeModel | pollAfterModel _ _ | pollAfterTools _
  | completeModel _ | modelRunning _ | executeBatch _ _ | batchRunning _ _
  | executeCall _ _ _ _ | callRunning _ _ _ _ | returned _ | raised _ => exact Rewrites.of_eq rfl
  | acknowledgeCheckpoint _ | acknowledgeAnswer | acknowledgeTurn _ | acknowledgeCancelled _ =>
      exact hacknowledge _
  | finishAnswer outcome | finishFailed outcome => exact hfinish outcome []
  | finishCancelled outcome => exact hfinish outcome l.pendingAckIds
  | _ =>
      apply Rewrites.of_eq
      simp only [operation, Option.map_some, Option.getD_some]
      apply StoreOp.controls_apply
      rfl

theorem commit_polls (hpolls : phase.polls = true)
    (hcommit : commit inv clock db l phase = some (after, state)) : after = db := by
  rw [commit_operation hcommit]
  cases phase with
  | pollBeforeModel | pollAfterModel _ _ | pollAfterTools _ => rfl
  | _ => cases hpolls

/-- Only a completed outcome leaves the run open. -/
theorem finish_closes {outcome : AgentOutcome} {controlIds : List String} {closed : Bool}
    (hok : finish inv outcome controlIds db = .ok (closed, after))
    (hstatus : outcome.status ≠ .completed) : closed = true := by
  obtain ⟨_, _, _, ⟨_, hcompleted, _⟩ | ⟨hclosed, _⟩⟩ := SessionStore.tryFinishWithOutcome_ok hok
  · exact absurd hcompleted hstatus
  · exact hclosed

/-- A checkpoint that is there after a transaction was there before or has just
been saved. -/
theorem commit_checkpoint {checkpoint : RunCheckpoint}
    (hcommit : commit inv clock db l phase = some (after, state))
    (hload : SessionStore.loadCheckpoint inv.request.runId after = some checkpoint) :
    SessionStore.loadCheckpoint inv.request.runId db = some checkpoint ∨
      ∃ build, phase.saving? = some build ∧
        checkpoint = checkpointOf inv l build.sourceVersions := by
  have hsave (build : ContextBuild) (hsaved : SessionStore.loadCheckpoint inv.request.runId
      (db.committed (save inv l build)) = some checkpoint) :
      SessionStore.loadCheckpoint inv.request.runId db = some checkpoint ∨
        checkpoint = checkpointOf inv l build.sourceVersions := by
    cases hok : save inv l build db with
    | error e =>
        rw [Database.committed_error hok] at hsaved
        exact Or.inl hsaved
    | ok result =>
        rw [Database.committed_ok hok, ← show (checkpointOf inv l build.sourceVersions).runId =
          inv.request.runId from rfl, SessionStore.loadCheckpoint_save hok] at hsaved
        exact Or.inr (Option.some.inj hsaved).symm
  rw [commit_operation hcommit] at hload
  cases phase with
  | loadCheckpoint | runStatus _ | pollBeforeModel | pollAfterModel _ _ | pollAfterTools _
  | completeModel _ | modelRunning _ | executeBatch _ _ | batchRunning _ _
  | executeCall _ _ _ _ | callRunning _ _ _ _ | returned _ | raised _ => exact Or.inl hload
  | saveAnswer build | saveCheckpoint build =>
      exact (hsave build hload).imp_right fun hsaved => ⟨build, rfl, hsaved⟩
  | _ =>
      simp only [operation, Option.map_some, Option.getD_some] at hload
      refine Or.inl (StoreOp.checkpoint_before ?_ hload)
      intro hsaves
      cases hsaves

end AgentHarness

/-! ### The invariant of a run -/

namespace RunSystem

open AgentHarness

/-- The journal of a model request holds, in order, updates of the task and among
them every one that is applied, each once. -/
def JournalExact (run : RootRun) (s : RunSystem) : RunStep → Prop
  | .harness .begin => ∀ h build, s.harness = some h → h.phase = .completeModel build →
      ∃ cs : List ControlRow,
        (∀ c ∈ cs, c ∈ s.db.controls ∧ c.IsUpdateOf run.taskId) ∧ cs.Pairwise controlLt ∧
        userMessages h.locals.journal = cs.map controlMessage ∧
        ∀ c ∈ s.db.controls, c.IsUpdateOf run.taskId → c.state = .applied → c ∈ cs
  | _ => True

/-- The checkpoint that a resumed lifetime has read and not yet decided about. -/
def loaded? (s : RunSystem) : Option RunCheckpoint :=
  s.harness.bind fun h =>
    match h.phase with
    | .runStatus loaded => loaded
    | _ => none

/-- The controls taken up by the current lifetime or by a checkpoint. -/
def takenIds (run : RootRun) (s : RunSystem) : List String :=
  (s.harness.toList.flatMap fun h => h.locals.appliedControlIds) ++
    s.loaded?.toList.flatMap RunCheckpoint.appliedControlIds ++
    (SessionStore.loadCheckpoint run.runId s.db).toList.flatMap RunCheckpoint.appliedControlIds

/-- A control is admitted after every control that is taken up already, and a
resumed lifetime that finds an applied control has an accepted checkpoint. -/
def DeliversInOrder (run : RootRun) (s : RunSystem) : RunStep → Prop
  | .store op => ∀ row, (op.apply s.db).controls = s.db.controls ++ [row] →
      row.IsUpdateOf run.taskId → ∀ c ∈ s.db.controls, c.IsUpdateOf run.taskId →
        c.controlId ∈ s.takenIds run → controlLt c row
  | .harness (.commit _) => ∀ h loaded, s.harness = some h → h.phase = .runStatus loaded →
      SessionStore.runStatus run.runId s.db = some .running →
        (∃ c ∈ s.db.controls, c.IsUpdateOf run.taskId ∧ c.state = .applied) →
          ∃ checkpoint, loaded = some checkpoint ∧
            validateCheckpoint h.inv h.locals.fingerprint checkpoint = none
  | _ => True

/-- Every stored checkpoint of the run lists the identifiers. -/
def Remembered (run : RootRun) (db : Database) (ids : List String) : Prop :=
  ∀ checkpoint, SessionStore.loadCheckpoint run.runId db = some checkpoint →
    ∀ id ∈ ids, id ∈ checkpoint.appliedControlIds

structure CheckpointOk (run : RootRun) (db : Database) (checkpoint : RunCheckpoint) : Prop where
  delivered : Delivered run.taskId db.controls checkpoint.messages checkpoint.appliedControlIds
  held : SessionStore.runStatus run.runId db = some .running →
    AppliedHeld run.taskId db.controls checkpoint.appliedControlIds

structure ControlsOk (run : RootRun) (db : Database) : Prop where
  unique : (db.controls.map ControlRow.controlId).Nodup
  unstarted : SessionStore.runStatus run.runId db = none → AppliedHeld run.taskId db.controls []
  stored : ∀ checkpoint, SessionStore.loadCheckpoint run.runId db = some checkpoint →
    CheckpointOk run db checkpoint

def journalOutline (run : RootRun) (db : Database) : Annotation where
  between _ l := Delivered run.taskId db.controls l.journal l.appliedControlIds ∧
    AppliedHeld run.taskId db.controls l.appliedControlIds ∧
    ∀ id ∈ l.pendingAckIds, id ∈ l.appliedControlIds
  saved l := Remembered run db l.appliedControlIds
  closed := ∃ status, SessionStore.runStatus run.runId db = some status ∧ status ≠ .running

theorem journal_rule (run : RootRun) (db : Database) : LoopRule (journalOutline run db) where
  turn hl := hl
  spend _ _ _ hl := hl
  cancelled _ hl := hl
  savedCancelled _ hl := hl
  answer := by
    rintro l response ⟨hdelivered, hheld, hacks⟩
    exact ⟨hdelivered.of_mem_iff (userMessages_answer l.journal response) fun _ => Iff.rfl, hheld,
      hacks⟩
  acknowledged := by
    rintro l ⟨hdelivered, hheld, _⟩
    exact ⟨hdelivered, hheld, nofun⟩
  record := by
    rintro result rest l after ⟨hdelivered, hheld, hacks⟩ hrecord
    rw [(recordResult_ok hrecord).1]
    exact ⟨hdelivered.of_mem_iff (userMessages_result l.journal result) fun _ => Iff.rfl, hheld,
      hacks⟩

structure Fresh (l : Locals) : Prop where
  journal : l.journal = []
  appliedControlIds : l.appliedControlIds = []
  pendingAckIds : l.pendingAckIds = []

/-- The annotation, and what holds before the loop is entered. -/
def Delivering (run : RootRun) (db : Database) (inv : Invocation)
    (state : Locals × HarnessPhase) : Prop :=
  match state.2 with
  | .startRun | .loadCheckpoint => Fresh state.1
  | .runStatus loaded => Fresh state.1 ∧ ∀ checkpoint, loaded = some checkpoint →
      CheckpointOk run db checkpoint ∧ Remembered run db checkpoint.appliedControlIds
  | .runStarted | .discardCheckpoint _ | .checkpointInvalidated _ =>
      Fresh state.1 ∧ AppliedHeld run.taskId db.controls []
  | .acknowledgeCheckpoint checkpoint =>
      (journalOutline run db).between [] state.1 ∧ (journalOutline run db).saved state.1 ∧
        state.1.appliedControlIds = checkpoint.appliedControlIds
  | phase => InLoop inv (journalOutline run db) state.1 phase

/-! ### Across one transaction -/

/-- The identifiers say of the controls after a transaction what they said before. -/
structure Carries (run : RootRun) (db after : Database) (ids : List String) : Prop where
  delivered : ∀ journal, Delivered run.taskId db.controls journal ids →
    Delivered run.taskId after.controls journal ids
  held : AppliedHeld run.taskId db.controls ids → AppliedHeld run.taskId after.controls ids

section Carrying

variable {run : RootRun} {db after : Database} {ids : List String}

theorem carries_of_rewrites {held : List String}
    (hrewrites : Rewrites run.taskId held db.controls after.controls)
    (hheld : ∀ id ∈ held, id ∈ ids) : Carries run db after ids := by
  constructor
  · intro journal hdelivered
    exact hdelivered.rewrites hrewrites
  · intro happlied
    exact happlied.rewrites hrewrites hheld

theorem between_carries {results : List ToolResult} {l : Locals}
    (hcarries : Carries run db after l.appliedControlIds)
    (hl : (journalOutline run db).between results l) :
    (journalOutline run after).between results l :=
  ⟨hcarries.delivered _ hl.1, hcarries.held hl.2.1, hl.2.2⟩

theorem inLoop_carries {inv : Invocation} {l : Locals} {phase : HarnessPhase}
    (hcarries : (journalOutline run db).between [] l →
      Carries run db after l.appliedControlIds)
    (hsaved : Remembered run db l.appliedControlIds → Remembered run after l.appliedControlIds)
    (hclosed : (journalOutline run db).closed → (journalOutline run after).closed)
    (hphase : InLoop inv (journalOutline run db) l phase) :
    InLoop inv (journalOutline run after) l phase :=
  hphase.imp (fun _ hl => between_carries (hcarries hl) hl) hsaved hclosed

/-- A checkpoint is deleted or stays. -/
theorem Remembered.of_before (hremembered : Remembered run db ids)
    (hbefore : ∀ checkpoint, SessionStore.loadCheckpoint run.runId after = some checkpoint →
      SessionStore.loadCheckpoint run.runId db = some checkpoint) : Remembered run after ids :=
  fun checkpoint hload => hremembered checkpoint (hbefore checkpoint hload)

end Carrying

/-! ### The transactions of others -/

section Foreign

variable {run : RootRun} {s : RunSystem} {op : StoreOp}

theorem foreign_carries (hforeign : op.isForeign run s.db = true)
    (hguard : s.DeliversInOrder run (.store op)) {ids : List String}
    (htaken : ∀ id ∈ ids, id ∈ s.takenIds run) : Carries run s.db (op.apply s.db) ids := by
  rcases StoreOp.foreign_controls hforeign with hrewrites | ⟨row, hafter, hpending, hfresh⟩
  · exact carries_of_rewrites hrewrites (by nofun)
  · constructor
    · intro journal hdelivered
      rw [hafter]
      apply hdelivered.append hfresh
      intro hupdate c hmem hcupdate happlied
      exact hguard row hafter hupdate c hmem hcupdate (htaken _ happlied)
    · intro hheld
      rw [hafter]
      exact hheld.append hpending

theorem foreign_checkpoint (hforeign : op.isForeign run s.db = true) (checkpoint : RunCheckpoint)
    (hload : SessionStore.loadCheckpoint run.runId (op.apply s.db) = some checkpoint) :
    SessionStore.loadCheckpoint run.runId s.db = some checkpoint := by
  refine StoreOp.checkpoint_before ?_ hload
  intro hsaves
  cases op with
  | saveCheckpoint other nowMs =>
      have hsame : other.runId = run.runId := Option.some.inj hsaves
      simp [StoreOp.isForeign, hsame] at hforeign
  | _ => cases hsaves

theorem taken_stored {checkpoint : RunCheckpoint}
    (hload : SessionStore.loadCheckpoint run.runId s.db = some checkpoint) :
    ∀ id ∈ checkpoint.appliedControlIds, id ∈ s.takenIds run := by
  intro id hmem
  simp [takenIds, hload, hmem]

theorem taken_live {h : Harness} (hh : s.harness = some h) :
    ∀ id ∈ h.locals.appliedControlIds, id ∈ s.takenIds run := by
  intro id hmem
  simp [takenIds, hh, hmem]

theorem taken_loaded {h : Harness} {checkpoint : RunCheckpoint} (hh : s.harness = some h)
    (hphase : h.phase = .runStatus (some checkpoint)) :
    ∀ id ∈ checkpoint.appliedControlIds, id ∈ s.takenIds run := by
  intro id hmem
  simp [takenIds, loaded?, hh, hphase, hmem]

theorem controlsOk_store (hs : ControlsOk run s.db) (hforeign : op.isForeign run s.db = true)
    (hguard : s.DeliversInOrder run (.store op)) : ControlsOk run (op.apply s.db) := by
  have hcarries {ids : List String} (htaken : ∀ id ∈ ids, id ∈ s.takenIds run) :=
    foreign_carries hforeign hguard htaken
  constructor
  · rcases StoreOp.foreign_controls hforeign with hrewrites | ⟨row, hafter, _, hfresh⟩
    · rw [hrewrites.ids]
      exact hs.unique
    · rw [hafter, List.map_append, List.nodup_append]
      refine ⟨hs.unique, by simp, ?_⟩
      intro id hmem other hother
      obtain ⟨c, hc, rfl⟩ := List.mem_map.mp hmem
      obtain rfl : other = row.controlId := by simpa using hother
      exact hfresh c hc
  · rw [foreign_status hforeign]
    intro hnone
    exact (hcarries (by nofun)).held (hs.unstarted hnone)
  · intro checkpoint hload
    have hbefore := foreign_checkpoint hforeign checkpoint hload
    have hok := hs.stored checkpoint hbefore
    have hkept := hcarries (taken_stored hbefore)
    constructor
    · exact hkept.delivered _ hok.delivered
    · rw [foreign_status hforeign]
      intro hrunning
      exact hkept.held (hok.held hrunning)

theorem delivering_store {h : Harness} (hh : s.harness = some h)
    (hlive : Delivering run s.db h.inv (h.locals, h.phase))
    (hforeign : op.isForeign run s.db = true) (hguard : s.DeliversInOrder run (.store op)) :
    Delivering run (op.apply s.db) h.inv (h.locals, h.phase) := by
  have hcarries {ids : List String} (htaken : ∀ id ∈ ids, id ∈ s.takenIds run) :=
    foreign_carries hforeign hguard htaken
  have hlocals := hcarries (taken_live hh)
  have hsaved {ids : List String} (hremembered : Remembered run s.db ids) :=
    hremembered.of_before (foreign_checkpoint hforeign)
  have hstatus := foreign_status hforeign
  obtain ⟨inv, l, phase⟩ := h
  have hloop : InLoop inv (journalOutline run s.db) l phase →
      InLoop inv (journalOutline run (op.apply s.db)) l phase := by
    refine inLoop_carries (fun _ => hlocals) hsaved ?_
    rintro ⟨status, hold, hclosed⟩
    exact ⟨status, hstatus.trans hold, hclosed⟩
  cases phase with
  | startRun | loadCheckpoint => exact hlive
  | runStatus loaded =>
      refine ⟨hlive.1, ?_⟩
      rintro checkpoint rfl
      obtain ⟨hok, hremembered⟩ := hlive.2 checkpoint rfl
      have hkept := hcarries (taken_loaded hh rfl)
      refine ⟨⟨hkept.delivered _ hok.delivered, ?_⟩, hsaved hremembered⟩
      rw [hstatus]
      intro hrunning
      exact hkept.held (hok.held hrunning)
  | runStarted | discardCheckpoint _ | checkpointInvalidated _ =>
      exact ⟨hlive.1, (hcarries (by nofun)).held hlive.2⟩
  | acknowledgeCheckpoint checkpoint =>
      exact ⟨between_carries hlocals hlive.1, hsaved hlive.2.1, hlive.2.2⟩
  | _ => exact hloop hlive

end Foreign

/-! ### The transactions of the harness -/

section Commits

variable {run : RootRun} {inv : Invocation} {clock : ClockReadings} {db after : Database}
  {l : Locals} {phase : HarnessPhase} {state : Locals × HarnessPhase}

theorem delivering_of_inLoop (hloop : InLoop inv (journalOutline run db) state.1 state.2) :
    Delivering run db inv state := by
  obtain ⟨l, phase⟩ := state
  cases phase with
  | startRun | runStarted | loadCheckpoint | runStatus _ | discardCheckpoint _
  | checkpointInvalidated _ | acknowledgeCheckpoint _ => exact hloop.elim
  | _ => exact hloop

theorem Fresh.between (hfresh : Fresh l) (hheld : AppliedHeld run.taskId db.controls []) :
    (journalOutline run db).between [] l := by
  refine ⟨?_, ?_, ?_⟩
  · rw [hfresh.journal, hfresh.appliedControlIds]
    exact delivered_nil _ _
  · rw [hfresh.appliedControlIds]
    exact hheld
  · rw [hfresh.pendingAckIds]
    nofun

/-- What waits for an acknowledgement is in the journal. -/
theorem acks_applied (hlive : Delivering run db inv (l, phase))
    (hl : (journalOutline run db).between [] l) :
    ∀ id ∈ phase.acks l, id ∈ l.appliedControlIds := by
  cases phase with
  | acknowledgeCheckpoint checkpoint =>
      rw [hlive.2.2]
      exact fun _ hmem => hmem
  | acknowledgeAnswer | acknowledgeTurn _ | acknowledgeCancelled _ | finishCancelled _ =>
      exact hl.2.2
  | _ => nofun

theorem acks_started (hlive : Delivering run db inv (l, phase))
    (hrunning : phase.isActive = true →
      SessionStore.runStatus run.runId db = some .running)
    (hnone : SessionStore.runStatus run.runId db = none) : phase.acks l = [] := by
  have hidle : phase.isActive = false := by
    by_contra hactive
    rw [Bool.not_eq_false] at hactive
    rw [hrunning hactive] at hnone
    cases hnone
  cases phase with
  | acknowledgeCheckpoint _ | acknowledgeAnswer | acknowledgeTurn _ | finishCancelled _ =>
      cases hidle
  | acknowledgeCancelled outcome =>
      obtain ⟨_, status, hstatus, _⟩ := hlive
      rw [hnone] at hstatus
      cases hstatus
  | _ => rfl

/-- While the run goes on, what its harness acknowledges is in its checkpoint. -/
theorem acks_remembered (hlive : Delivering run db inv (l, phase))
    (hrunId : inv.request.runId = run.runId)
    (hcommit : commit inv clock db l phase = some (after, state))
    (hrunning : SessionStore.runStatus run.runId after = some .running)
    {checkpoint : RunCheckpoint}
    (hload : SessionStore.loadCheckpoint run.runId db = some checkpoint) :
    ∃ held, Rewrites run.taskId held db.controls after.controls ∧
      ∀ id ∈ held, id ∈ checkpoint.appliedControlIds := by
  have hrewrites := commit_controls run.taskId hcommit
  cases phase with
  | acknowledgeCheckpoint accepted =>
      refine ⟨_, hrewrites, ?_⟩
      intro id hmem
      apply hlive.2.1 checkpoint hload
      rw [hlive.2.2]
      exact hmem
  | acknowledgeAnswer | acknowledgeTurn _ =>
      refine ⟨_, hrewrites, ?_⟩
      intro id hmem
      exact hlive.2 checkpoint hload id (hlive.1.2.2 id hmem)
  | acknowledgeCancelled outcome =>
      obtain ⟨_, status, hstatus, hclosed⟩ := hlive
      rw [SessionStore.runStatus_congr (commit_runs rfl hcommit), hstatus] at hrunning
      exact absurd (Option.some.inj hrunning) hclosed
  | finishCancelled outcome =>
      have hcancelled : outcome.status = .cancelled := hlive
      simp only [commit, outside, Option.some.injEq] at hcommit
      cases hfinish : finish inv outcome l.pendingAckIds db with
      | error e =>
          simp only [hfinish] at hcommit
          cases hcommit
          exact ⟨[], Rewrites.of_eq rfl, fun id hid => absurd hid List.not_mem_nil⟩
      | ok result =>
          obtain ⟨closed, middle⟩ := result
          simp only [hfinish] at hcommit
          cases hcommit
          have hclosed := finish_closes hfinish (by rw [hcancelled]; rintro ⟨⟩)
          have hstatus := (SessionStore.tryFinishWithOutcome_status hfinish run.runId).2
          rw [if_pos ⟨hrunId.symm, hclosed⟩, hrunning, hcancelled] at hstatus
          cases hstatus
  | _ => exact ⟨[], hrewrites, fun id hid => absurd hid List.not_mem_nil⟩

theorem saved_ids (checkpointVersions : Dict String String) (id : String) :
    id ∈ (checkpointOf inv l checkpointVersions).appliedControlIds ↔ id ∈ l.appliedControlIds :=
  List.mem_insertionSort _

theorem controlsOk_commit (hs : ControlsOk run db) (hlive : Delivering run db inv (l, phase))
    (hrunId : inv.request.runId = run.runId)
    (hrunning : phase.isActive = true → SessionStore.runStatus run.runId db = some .running)
    (hcommit : commit inv clock db l phase = some (after, state)) : ControlsOk run after := by
  have hrewrites := commit_controls run.taskId hcommit
  have hstatus := commit_status hcommit
  rw [hrunId] at hstatus
  constructor
  · rw [hrewrites.ids]
    exact hs.unique
  · intro hnone
    have hbefore : SessionStore.runStatus run.runId db = none := by
      rcases hstatus with ⟨hsame, _⟩ | ⟨hnone', _⟩ | ⟨_, _, _, hclosed, _⟩
      · exact hsame.symm.trans hnone
      · exact hnone'
      · rw [hnone] at hclosed
        cases hclosed
    rw [acks_started hlive hrunning hbefore] at hrewrites
    exact (hs.unstarted hbefore).rewrites hrewrites nofun
  · intro checkpoint hload
    rw [← hrunId] at hload
    rcases commit_checkpoint hcommit hload with hstored | ⟨build, hsaving, rfl⟩
    · rw [hrunId] at hstored
      have hok := hs.stored checkpoint hstored
      refine ⟨hok.delivered.rewrites hrewrites, ?_⟩
      intro hrunning'
      have hheld : AppliedHeld run.taskId db.controls checkpoint.appliedControlIds := by
        rcases hstatus with ⟨hsame, _⟩ | ⟨hnone, _⟩ | ⟨_, _, hbefore, _⟩
        · exact hok.held (hsame.symm.trans hrunning')
        · exact (hs.unstarted hnone).mono nofun
        · exact hok.held hbefore
      obtain ⟨held, hheldRewrites, hremembered⟩ :=
        acks_remembered hlive hrunId hcommit hrunning' hstored
      exact hheld.rewrites hheldRewrites hremembered
    · have hl : (journalOutline run db).between [] l := by
        cases phase with
        | saveAnswer _ | saveCheckpoint _ => exact hlive
        | _ => cases hsaving
      have hnone : phase.acks l = [] := by
        cases phase with
        | saveAnswer _ | saveCheckpoint _ => rfl
        | _ => cases hsaving
      rw [hnone] at hrewrites
      constructor
      · refine Delivered.rewrites ?_ hrewrites
        exact hl.1.of_mem_iff (userMessages_checkpoint _ _) (saved_ids _)
      · intro _
        refine AppliedHeld.rewrites ?_ hrewrites nofun
        exact hl.2.1.mono fun id hmem => (saved_ids _ id).mpr hmem

/-- A poll keeps the annotation. -/
theorem between_poll (hunique : (db.controls.map ControlRow.controlId).Nodup)
    (htask : inv.request.taskId = run.taskId)
    (hl : (journalOutline run db).between [] l) :
    (journalOutline run db).between [] (applyControls l (pending inv db)) := by
  unfold pending
  rw [htask]
  refine ⟨?_, ?_, applyControls_pendingAckIds hl.2.2⟩
  · refine hl.1.applyControls hunique ?_ (RuntimeStore.pendingControls_sorted run.taskId db) ?_
    · intro c hmem
      exact RuntimeStore.mem_pendingControls.mp hmem
    · intro c hmem hupdate hpending _
      exact RuntimeStore.mem_pendingControls.mpr ⟨hmem, hupdate.1, hpending⟩
  · exact hl.2.1.mono fun id hmem => mem_applyControls hmem

theorem delivering_outside {α : Type} {operation : Database → Except PyError (α × Database)}
    {next : α → Locals × HarnessPhase}
    (hnext : ∀ value, operation db = .ok (value, after) → Delivering run after inv (next value))
    (hcommit : outside l operation db next = (after, state)) :
    Delivering run after inv state :=
  outside_rule hcommit hnext fun _ => trivial

theorem delivering_enterLoop (hfresh : Fresh l) (hheld : AppliedHeld run.taskId db.controls []) :
    Delivering run db inv (enterLoop inv l clock) :=
  delivering_of_inLoop (inLoop_enterLoop (journal_rule run db) (hfresh.between hheld) clock)

/-- The step at which a resumed lifetime decides about its checkpoint. -/
theorem delivering_useCheckpoint {loaded : Option RunCheckpoint}
    (hfresh : Fresh l) (hloaded : ∀ checkpoint, loaded = some checkpoint →
      CheckpointOk run db checkpoint ∧ Remembered run db checkpoint.appliedControlIds)
    (hguard : SessionStore.runStatus run.runId db = some .running →
      (∃ c ∈ db.controls, c.IsUpdateOf run.taskId ∧ c.state = .applied) →
        ∃ checkpoint, loaded = some checkpoint ∧
          validateCheckpoint inv l.fingerprint checkpoint = none) :
    Delivering run db inv
      (useCheckpoint inv l loaded (SessionStore.runStatus run.runId db) clock) := by
  have hunheld (hrunning : SessionStore.runStatus run.runId db = some .running)
      (hrefused : ∀ checkpoint, loaded = some checkpoint →
        validateCheckpoint inv l.fingerprint checkpoint ≠ none) :
      AppliedHeld run.taskId db.controls [] := by
    intro c hmem hupdate hstate
    obtain ⟨checkpoint, hsome, haccepted⟩ := hguard hrunning ⟨c, hmem, hupdate, hstate⟩
    exact absurd haccepted (hrefused checkpoint hsome)
  refine useCheckpoint_rule (fun _ => trivial) ?_ ?_ ?_
  · rintro hrunning rfl
    refine delivering_enterLoop hfresh (hunheld hrunning ?_)
    rintro checkpoint ⟨⟩
  · rintro checkpoint reason hrunning rfl hreason
    refine ⟨hfresh, hunheld hrunning ?_⟩
    rintro other ⟨⟩
    rw [hreason]
    exact Option.some_ne_none reason
  · rintro checkpoint hrunning rfl haccepted
    obtain ⟨hok, hremembered⟩ := hloaded checkpoint rfl
    have hl : (journalOutline run db).between [] (restore l checkpoint) := by
      refine ⟨hok.delivered, hok.held hrunning, ?_⟩
      intro id hmem
      rw [show (restore l checkpoint).pendingAckIds = [] from hfresh.pendingAckIds] at hmem
      cases hmem
    refine ⟨fun _ => ⟨hl, hremembered, rfl⟩, ?_⟩
    apply delivering_of_inLoop
    exact inLoop_enterRestored (journal_rule run db) hl checkpoint clock

theorem remembered_commit (hrunId : inv.request.runId = run.runId)
    (hcommit : commit inv clock db l phase = some (after, state))
    (hremembered : Remembered run db l.appliedControlIds) :
    Remembered run after l.appliedControlIds := by
  intro checkpoint hload
  rw [← hrunId] at hload
  rcases commit_checkpoint hcommit hload with hstored | ⟨build, _, rfl⟩
  · rw [hrunId] at hstored
    exact hremembered checkpoint hstored
  · intro id hmem
    exact (saved_ids _ id).mpr hmem

theorem closed_commit (hrunId : inv.request.runId = run.runId)
    (hcommit : commit inv clock db l phase = some (after, state))
    (hclosed : (journalOutline run db).closed) : (journalOutline run after).closed := by
  obtain ⟨status, hold, hclosed⟩ := hclosed
  have hstatus := commit_status hcommit
  rw [hrunId, hold] at hstatus
  rcases hstatus with ⟨hsame, _⟩ | ⟨hnone, _⟩ | ⟨_, _, hrunning, _⟩
  · exact ⟨status, hsame, hclosed⟩
  · cases hnone
  · exact absurd (Option.some.inj hrunning) hclosed

theorem delivering_commit (hs : ControlsOk run db) (hlive : Delivering run db inv (l, phase))
    (howns : inv.request.runId = run.runId ∧ inv.request.taskId = run.taskId)
    (hguard : ∀ loaded, phase = .runStatus loaded →
      SessionStore.runStatus run.runId db = some .running →
        (∃ c ∈ db.controls, c.IsUpdateOf run.taskId ∧ c.state = .applied) →
          ∃ checkpoint, loaded = some checkpoint ∧
            validateCheckpoint inv l.fingerprint checkpoint = none)
    (hcommit : commit inv clock db l phase = some (after, state)) :
    Delivering run after inv state := by
  have hrewrites := commit_controls run.taskId hcommit
  have hcarries (hl : (journalOutline run db).between [] l) :
      Carries run db after l.appliedControlIds :=
    carries_of_rewrites hrewrites (acks_applied hlive hl)
  have hinLoop (hloop : InLoop inv (journalOutline run db) l phase) :
      Delivering run after inv state := by
    apply delivering_of_inLoop
    refine inLoop_commit (journal_rule run after) (inLoop_carries hcarries
      (remembered_commit howns.1 hcommit) (closed_commit howns.1 hcommit) hloop)
      ?_ ?_ ?_ hcommit
    · intro hpolls hl
      obtain rfl := commit_polls hpolls hcommit
      exact between_poll hs.unique howns.2 hl
    · intro build value hsaving hsave checkpoint hload id hmem
      rw [← howns.1, show inv.request.runId = (checkpointOf inv l build.sourceVersions).runId
        from rfl, SessionStore.loadCheckpoint_save hsave] at hload
      obtain rfl := Option.some.inj hload
      exact (saved_ids _ id).mpr hmem
    · rintro outcome closed rfl hfinish
      have hcancelled : outcome.status = .cancelled := hloop
      have hclosed := finish_closes hfinish (by rw [hcancelled]; nofun)
      have hstatus := (SessionStore.tryFinishWithOutcome_status hfinish run.runId).2
      rw [if_pos ⟨howns.1.symm, hclosed⟩, hcancelled] at hstatus
      exact ⟨_, hstatus, nofun⟩
  cases phase with
  | startRun =>
      refine delivering_outside (fun _ hstart => ?_) (Option.some.inj hcommit)
      refine ⟨hlive, AppliedHeld.rewrites (hs.unstarted ?_) hrewrites nofun⟩
      rw [← howns.1]
      exact (SessionStore.startRun_status hstart inv.request.runId).1
  | runStarted | checkpointInvalidated _ =>
      refine delivering_outside (fun _ _ => ?_) (Option.some.inj hcommit)
      exact delivering_enterLoop hlive.1 (hlive.2.rewrites hrewrites nofun)
  | loadCheckpoint =>
      cases hcommit
      refine ⟨hlive, ?_⟩
      intro checkpoint hload
      rw [howns.1] at hload
      refine ⟨hs.stored checkpoint hload, ?_⟩
      intro other hother
      rw [hload] at hother
      obtain rfl := Option.some.inj hother
      exact fun _ hmem => hmem
  | runStatus loaded =>
      cases hcommit
      rw [howns.1]
      exact delivering_useCheckpoint hlive.1 hlive.2 (hguard loaded rfl)
  | discardCheckpoint reason =>
      refine delivering_outside (fun _ _ => ?_) (Option.some.inj hcommit)
      exact ⟨hlive.1, hlive.2.rewrites hrewrites nofun⟩
  | acknowledgeCheckpoint checkpoint =>
      have hl := between_carries (hcarries hlive.1) hlive.1
      cases hcommit
      apply delivering_of_inLoop
      exact inLoop_enterRestored (journal_rule run _) hl checkpoint clock
  | _ => exact hinLoop hlive

end Commits

/-- A step of the harness that is no transaction. -/
theorem delivering_step {run : RootRun} {db after : Database} {h h' : Harness}
    {label : HarnessLabel} {events : List HarnessEvent}
    (hlabel : ∀ clock, label ≠ .commit clock)
    (hlive : Delivering run db h.inv (h.locals, h.phase))
    (hstep : h.step db label = some (after, h', events)) :
    Delivering run db h'.inv (h'.locals, h'.phase) := by
  have rule := journal_rule run db
  obtain ⟨inv, l, phase⟩ := h
  cases label with
  | commit clock => exact absurd rfl (hlabel clock)
  | begin =>
      simp only [Harness.step] at hstep
      cases phase with
      | completeModel _ =>
          cases hstep
          exact hlive
      | executeBatch _ _ =>
          cases hstep
          exact hlive
      | executeCall _ _ _ _ =>
          cases hstep
          exact hlive
      | _ => cases hstep
  | model answer clock =>
      simp only [Harness.step] at hstep
      cases phase with
      | modelRunning build =>
          cases hstep
          exact delivering_of_inLoop (inLoop_model rule hlive answer clock)
      | _ => cases hstep
  | batch answer clock =>
      simp only [Harness.step] at hstep
      cases phase with
      | batchRunning build calls =>
          cases hstep
          exact delivering_of_inLoop (inLoop_batch rule fun _ _ => hlive.1)
      | _ => cases hstep
  | tool answer clock =>
      simp only [Harness.step] at hstep
      cases phase with
      | callRunning build call rest results =>
          cases hstep
          exact delivering_of_inLoop (inLoop_tool rule fun _ _ => hlive)
      | _ => cases hstep
  | cancelToken reason =>
      simp only [Harness.step] at hstep
      split at hstep
      · cases hstep
      · cases hstep
        have hcancel (hloop : InLoop inv (journalOutline run db) l phase) :
            Delivering run db inv (cancel l reason, phase) :=
          delivering_of_inLoop (inLoop_cancel rule hloop reason)
        cases phase with
        | startRun | loadCheckpoint => exact ⟨hlive.journal, hlive.appliedControlIds,
            hlive.pendingAckIds⟩
        | runStarted | discardCheckpoint _ | checkpointInvalidated _ | runStatus _ =>
            exact ⟨⟨hlive.1.journal, hlive.1.appliedControlIds, hlive.1.pendingAckIds⟩, hlive.2⟩
        | acknowledgeCheckpoint _ => exact hlive
        | _ => exact hcancel hlive
  | abort =>
      simp only [Harness.step] at hstep
      split at hstep <;> cases hstep
      trivial

/-! ### Runs -/

structure JournalOk (run : RootRun) (s : RunSystem) : Prop where
  attached : s.Attached run
  controls : ControlsOk run s.db
  live : ∀ h, s.harness = some h → Delivering run s.db h.inv (h.locals, h.phase)

section Runs

variable {run : RootRun}

theorem journalOk_start (run : RootRun) : JournalOk run {} := by
  refine ⟨attached_of_none rfl, ⟨List.nodup_nil, ?_, ?_⟩, ?_⟩
  · intro _ c hmem
    cases hmem
  · intro checkpoint hload
    cases hload
  · intro h hh
    cases hh

theorem journalOk_step {s t : RunSystem} {label : RunStep} (hs : s.JournalOk run)
    (hguard : s.DeliversInOrder run label) (hstep : s.step run label = some t) :
    t.JournalOk run := by
  have hattached := attached_step hs.attached hstep
  cases label with
  | store op =>
      obtain ⟨hforeign, rfl⟩ := store_cases hstep
      refine ⟨hattached, controlsOk_store hs.controls hforeign hguard, ?_⟩
      intro h hh
      exact delivering_store hh (hs.live h hh) hforeign hguard
  | launch inv resume =>
      obtain ⟨_, harness, rfl, hnew⟩ := launch_cases hstep
      refine ⟨hattached, hs.controls, ?_⟩
      intro h hh
      obtain ⟨_, hphase, ledger, fingerprint, hl⟩ := hnew h hh
      rw [hphase, hl]
      cases resume <;> exact ⟨rfl, rfl, rfl⟩
  | harness label =>
      obtain ⟨h, after, h', events, hh, hnext, rfl⟩ := harness_cases hstep
      have howns := hs.attached.owns h hh
      have hlive := hs.live h hh
      by_cases hlabel : ∃ clock, label = .commit clock
      · obtain ⟨clock, rfl⟩ := hlabel
        obtain ⟨state, hcommit, rfl, rfl⟩ := Harness.commit_cases hnext
        refine ⟨hattached, controlsOk_commit hs.controls hlive howns.1 (hs.attached.running h hh)
          hcommit, ?_⟩
        intro other hother
        obtain rfl := Option.some.inj hother
        refine delivering_commit hs.controls hlive howns ?_ hcommit
        intro loaded hphase
        exact hguard h loaded hh hphase
      · have hcommits : ∀ clock, label ≠ .commit clock := fun clock h => hlabel ⟨clock, h⟩
        obtain ⟨rfl, _⟩ := Harness.step_database hcommits hnext
        refine ⟨hattached, hs.controls, ?_⟩
        intro other hother
        obtain rfl := Option.some.inj hother
        exact delivering_step hcommits hlive hnext
  | crash =>
      obtain rfl := crash_cases hstep
      refine ⟨hattached, hs.controls, ?_⟩
      intro h hh
      cases hh

theorem journalExact_of_journalOk {s : RunSystem} {label : RunStep} (hs : s.JournalOk run) :
    s.JournalExact run label := by
  cases label with
  | harness label =>
      cases label with
      | begin =>
          intro h build hh hphase
          have hlive := hs.live h hh
          rw [hphase] at hlive
          obtain ⟨⟨cs, hcs⟩, hheld, _⟩ := hlive
          refine ⟨cs, hcs.rows, hcs.ordered, hcs.messages, ?_⟩
          intro c hmem hupdate hstate
          exact (hcs.exact c hmem hupdate).mp (hheld c hmem hupdate hstate)
      | _ => trivial
  | _ => trivial

/-- Over any admissions, crashes, resumes and checkpoint deletions: when controls
are admitted in order and no resumed lifetime loses the checkpoint behind an
applied control, every model request is built from a journal that holds each
applied update once and in order. -/
theorem applied_controls_once (run : RootRun) (steps : List RunStep)
    (hguard : Along (step run) (DeliversInOrder run) steps {}) :
    Along (step run) (JournalExact run) steps {} :=
  along_of_invariant (fun _ _ _ hs hl hstep => journalOk_step hs hl hstep)
    (fun _ _ hs _ => journalExact_of_journalOk hs) (journalOk_start run) hguard

/-- A sufficient test of the condition. -/
def deliversInOrderNow (run : RootRun) (s : RunSystem) : RunStep → Bool
  | .store op => ((op.apply s.db).controls.drop s.db.controls.length).all fun row =>
      s.db.controls.all fun c => RuntimeStore.controlLe c row && c.controlId ≠ row.controlId
  | .harness (.commit _) => s.harness.all fun h =>
      match h.phase with
      | .runStatus loaded =>
          !(s.db.controls.any fun c => c.targetTaskId = run.taskId && c.state = .applied) ||
            loaded.any fun checkpoint =>
              (validateCheckpoint h.inv h.locals.fingerprint checkpoint).isNone
      | _ => true
  | _ => true

theorem deliversInOrder_of_now (s : RunSystem) (label : RunStep)
    (hnow : s.deliversInOrderNow run label = true) : s.DeliversInOrder run label := by
  cases label with
  | store op =>
      intro row hafter _ c hmem _ _
      have hall : ∀ row ∈ (op.apply s.db).controls.drop s.db.controls.length, ∀ c ∈ s.db.controls,
          RuntimeStore.controlLe c row = true ∧ c.controlId ≠ row.controlId := by
        simpa [deliversInOrderNow] using hnow
      apply hall row _ c hmem
      rw [hafter, List.drop_left]
      exact List.mem_singleton_self row
  | harness label =>
      cases label with
      | commit clock =>
          intro h loaded hh hphase _ ⟨c, hmem, hupdate, hstate⟩
          simp only [deliversInOrderNow, hh, hphase, Option.all_some, Bool.or_eq_true] at hnow
          rcases hnow with hnone | haccepted
          · rw [Bool.not_eq_true', List.any_eq_false] at hnone
            exact absurd (by simp [hupdate.1, hstate]) (hnone c hmem)
          · obtain ⟨checkpoint, hsome, htest⟩ := (Option.any_eq_true _ _).mp haccepted
            exact ⟨checkpoint, hsome, Option.isNone_iff_eq_none.mp htest⟩
      | _ => trivial
  | _ => trivial

/-- A steering message arrives, its turn is saved and acknowledged, the process
dies, and the run is resumed from its checkpoint. -/
theorem applied_controls_once_after_resume :
    let inv : Invocation :=
      { request :=
          { runId := "run", taskId := "task", nodeId := "/root", userRequest := "read it"
            toolContext :=
              { runId := "run", nodeId := "/root", tenantKey := "tenant", appId := "app"
                actorId := "user", sessionKey := "tenant/app/chat", identityRef := "bot"
                policyVersion := 1, taskId := some "task" } }
        definition :=
          { agentId := "root", version := 1, instructions := "Help.", modelProfile := "default"
            toolIds := ["doc.read"] }
        registry := ⟨[{ definition :=
          ⟨"doc.read", 1, "Read a document.", [], .read, false⟩ }], by decide⟩
        loaded := ⟨[], [], []⟩, hasInbox := true, clockMs := 3, digest := fun _ => "digest" }
    let mention : NormalizedEvent :=
      { eventId := "event-1", pluginId := "im", eventType := "im.message", tenantKey := "tenant"
        appId := "app", occurredAtMs := 0, receivedAtMs := 0, resourceKind := "message"
        resourceId := "message-1", traceId := "trace-1" }
    let command : TaskCommand :=
      { pluginId := "im", commandType := "im.handle_mention", sessionKey := "tenant/app/chat"
        payload := [("sender_id", .str "user")], maxAttempts := 5 }
    let steer : RuntimeStore.ControlAdmission :=
      { event := { mention with eventId := "event-2", resourceId := "message-2" }
        sessionKey := "tenant/app/chat", actorId := "user", kind := .steer
        text := "use the other table"
        acknowledgement := ⟨"im", "chat", "reply", "control:event-2", [], 0⟩ }
    let commit : RunStep := .harness (.commit {})
    let call : ToolCall := ⟨"call-1", "doc.read", []⟩
    let read : ToolExecutor.PermittedAnswer :=
      { observation := [], verification := ⟨.notRequired, "doc", "read", []⟩ }
    Along (step ⟨"run", "task"⟩) (JournalExact ⟨"run", "task"⟩)
      [.store (.admitEvent mention command none "task" "outbox-1" 0),
        .store (.leaseTasks ⟨"worker", 1, 60000, 1⟩ none), .launch inv false, commit, commit,
        .store (.admitControl steer "control" "outbox-2" 2), commit, commit, .harness .begin,
        .harness (.model (.ok { content := "", toolCalls := [call] }) {}), commit, commit, commit,
        .harness .begin,
        .harness (.tool (.ok ⟨.ok ⟨true, "", false⟩, .ok true, .ok read⟩) {}), commit, commit,
        commit, commit, .crash, .launch inv true, commit, commit, commit, commit, commit,
        .harness .begin] {} := by
  intro inv mention command steer commit call read
  apply applied_controls_once
  exact along_of_check deliversInOrder_of_now (by decide +kernel)

/-- A test that an exact journal passes. -/
def journalHoldsUpdates (run : RootRun) (s : RunSystem) : RunStep → Bool
  | .harness .begin => s.harness.all fun h =>
      match h.phase with
      | .completeModel _ =>
          !(s.db.controls.any fun c =>
            c.targetTaskId = run.taskId && c.kind.isUpdate && c.state = .applied) ||
            !(userMessages h.locals.journal).isEmpty
      | _ => true
  | _ => true

theorem journalHoldsUpdates_of (s : RunSystem) (label : RunStep)
    (hexact : s.JournalExact run label) : s.journalHoldsUpdates run label = true := by
  cases label with
  | harness label =>
      cases label with
      | begin =>
          simp only [journalHoldsUpdates, Option.all_eq_true]
          intro h hh
          split
          · rename_i build hphase
            obtain ⟨cs, _, _, hmessages, happlied⟩ := hexact h build hh hphase
            rw [hmessages, Bool.or_eq_true, Bool.not_eq_true', List.any_eq_false]
            by_contra hnot
            rw [not_or, not_forall] at hnot
            obtain ⟨⟨c, hc⟩, hempty⟩ := hnot
            have hmem : c ∈ cs := by
              simp only [Classical.not_imp, not_not, Bool.and_eq_true, decide_eq_true_eq] at hc
              exact happlied c hc.1 hc.2.1 hc.2.2
            cases cs with
            | nil => cases hmem
            | cons first rest => exact hempty rfl
          · rfl
      | _ => rfl
  | _ => rfl

/-- The control is applied and saved, the process dies, and the run is resumed
under the next version of its definition: the checkpoint is discarded and the
model is asked without the control. -/
theorem discarded_checkpoint_loses_control :
    let inv : Invocation :=
      { request :=
          { runId := "run", taskId := "task", nodeId := "/root", userRequest := "read it"
            toolContext :=
              { runId := "run", nodeId := "/root", tenantKey := "tenant", appId := "app"
                actorId := "user", sessionKey := "tenant/app/chat", identityRef := "bot"
                policyVersion := 1, taskId := some "task" } }
        definition :=
          { agentId := "root", version := 1, instructions := "Help.", modelProfile := "default"
            toolIds := ["doc.read"] }
        registry := ⟨[{ definition :=
          ⟨"doc.read", 1, "Read a document.", [], .read, false⟩ }], by decide⟩
        loaded := ⟨[], [], []⟩, hasInbox := true, clockMs := 3, digest := fun _ => "digest" }
    let upgraded : Invocation :=
      { inv with
        definition :=
          { agentId := "root", version := 2, instructions := "Help.", modelProfile := "default"
            toolIds := ["doc.read"] } }
    let mention : NormalizedEvent :=
      { eventId := "event-1", pluginId := "im", eventType := "im.message", tenantKey := "tenant"
        appId := "app", occurredAtMs := 0, receivedAtMs := 0, resourceKind := "message"
        resourceId := "message-1", traceId := "trace-1" }
    let command : TaskCommand :=
      { pluginId := "im", commandType := "im.handle_mention", sessionKey := "tenant/app/chat"
        payload := [("sender_id", .str "user")], maxAttempts := 5 }
    let steer : RuntimeStore.ControlAdmission :=
      { event := { mention with eventId := "event-2", resourceId := "message-2" }
        sessionKey := "tenant/app/chat", actorId := "user", kind := .steer
        text := "use the other table"
        acknowledgement := ⟨"im", "chat", "reply", "control:event-2", [], 0⟩ }
    let commit : RunStep := .harness (.commit {})
    let call : ToolCall := ⟨"call-1", "doc.read", []⟩
    let read : ToolExecutor.PermittedAnswer :=
      { observation := [], verification := ⟨.notRequired, "doc", "read", []⟩ }
    ¬ Along (step ⟨"run", "task"⟩) (JournalExact ⟨"run", "task"⟩)
      ([.store (.admitEvent mention command none "task" "outbox-1" 0),
        .store (.leaseTasks ⟨"worker", 1, 60000, 1⟩ none), .launch inv false, commit, commit,
        .store (.admitControl steer "control" "outbox-2" 2), commit, commit, .harness .begin,
        .harness (.model (.ok { content := "", toolCalls := [call] }) {}), commit, commit, commit,
        .harness .begin,
        .harness (.tool (.ok ⟨.ok ⟨true, "", false⟩, .ok true, .ok read⟩) {}), commit, commit,
        commit, commit, .crash, .launch upgraded true, commit, commit, commit, commit, commit,
        commit] ++ [.harness .begin]) {} := by
  intro inv upgraded mention command steer commit call read
  exact not_along_of_check journalHoldsUpdates_of (by decide +kernel)

end Runs

end RunSystem

end Codex2Lark
