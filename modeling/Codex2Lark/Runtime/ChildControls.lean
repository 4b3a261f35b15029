import Codex2Lark.Runtime.Harness
import Codex2Lark.Storage.Store

/-!
Delegated runs and the control inbox. `DelegatedHarnessWorker` builds a harness
without an inbox, but its run row carries the task of the parent, and the closing
transaction looks at the pending controls of that task.
-/

namespace Codex2Lark

open Lib

def Database.setControls (controls : List ControlRow) (db : Database) : Database :=
  { db with controls }

/-- The database in which no control is waiting. -/
def Database.withoutPending (db : Database) : Database :=
  db.setControls (db.controls.filter fun control => control.state ≠ .pending)

/-- The phases that a harness without an inbox never enters. The `except` clauses
close a run as failed or cancelled only. -/
def HarnessPhase.beyondChild : HarnessPhase → Bool
  | .acknowledgeCheckpoint _ | .pollBeforeModel | .pollAfterModel _ _ | .acknowledgeAnswer
  | .pollAfterTools _ | .acknowledgeTurn _ | .acknowledgeCancelled _ => true
  | .finishCancelled outcome | .finishFailed outcome => outcome.status = .completed
  | _ => false

namespace AgentHarness

/-- Without an inbox nothing waits for an acknowledgement. -/
def Detached (l : Locals) (phase : HarnessPhase) : Prop :=
  l.pendingAckIds = [] ∧ phase.beyondChild = false

def DetachedSegment (s : HarnessSegment) : Prop :=
  s.1.pendingAckIds = [] ∧ ∀ phase, s.2 = .ok phase → phase.beyondChild = false

section Segments

variable {inv : Invocation} {l : Locals}

theorem detached_ok (hl : l.pendingAckIds = []) {phase : HarnessPhase}
    (hphase : phase.beyondChild = false) : DetachedSegment (l, .ok phase) := by
  refine ⟨hl, ?_⟩
  rintro _ ⟨⟩
  exact hphase

theorem detached_error (hl : l.pendingAckIds = []) (e : PyError) :
    DetachedSegment (l, .error e) :=
  ⟨hl, nofun⟩

theorem detached_limited (hl : l.pendingAckIds = []) {step : Except PyError Locals}
    (hstep : ∀ after, step = .ok after → after.pendingAckIds = l.pendingAckIds)
    {next : Locals → HarnessSegment}
    (hnext : ∀ after, after.pendingAckIds = [] → DetachedSegment (next after)) :
    DetachedSegment (limited l step next) := by
  unfold limited
  cases hresult : step with
  | error e => exact detached_error hl e
  | ok after => exact hnext after ((hstep after hresult).trans hl)

theorem charge_pendingAckIds {after : Locals} {nowNs : Int} (hok : charge l nowNs = .ok after) :
    after.pendingAckIds = l.pendingAckIds := by
  rw [(charge_ok hok).1]

theorem enterWait_pendingAckIds {nowNs : Int} : ∀ after, enterWait l nowNs = .ok after →
    after.pendingAckIds = l.pendingAckIds :=
  fun _ hok => charge_pendingAckIds (enterWait_ok hok)

theorem leaveWait_pendingAckIds {α : Type} {after : Locals} {nowNs : Int}
    {answer : Except PyError α} {value : α} (hok : leaveWait l nowNs answer = .ok (after, value)) :
    after.pendingAckIds = l.pendingAckIds := by
  rcases (leaveWait_ok hok).2 with rfl | hcharge
  · rfl
  · exact charge_pendingAckIds hcharge

theorem recordResult_pendingAckIds {result : ToolResult} :
    ∀ after, recordResult l result = .ok after → after.pendingAckIds = l.pendingAckIds := by
  intro after hok
  rw [(recordResult_ok hok).1]

variable (hinv : inv.hasInbox = false)
include hinv

theorem detached_poll {phase : HarnessPhase}
    {next : Locals → HarnessSegment} (hnext : DetachedSegment (next l)) :
    DetachedSegment (poll inv l phase next) := by
  simpa [poll, hinv] using hnext

omit hinv in
theorem detached_requestModel (hl : l.pendingAckIds = []) (build : ContextBuild) :
    DetachedSegment (requestModel inv l build) := by
  unfold requestModel
  split
  · exact detached_error hl _
  · exact detached_ok hl rfl

omit hinv in
theorem detached_buildContext (hl : l.pendingAckIds = []) :
    DetachedSegment (buildContext inv l) := by
  unfold buildContext
  split
  · exact detached_error hl _
  · split
    · exact detached_error hl _
    · split
      · exact detached_ok hl rfl
      · exact detached_requestModel hl _

theorem detached_beginTurn (hl : l.pendingAckIds = []) : DetachedSegment (beginTurn inv l) := by
  refine detached_poll hinv (detached_buildContext ?_)
  exact hl

omit hinv in
theorem detached_closeTurn (hl : l.pendingAckIds = []) (build : ContextBuild) :
    DetachedSegment (closeTurn l build) := by
  unfold closeTurn
  split
  · exact detached_error hl _
  · exact detached_ok hl rfl

theorem detached_recordNext (hl : l.pendingAckIds = []) (build : ContextBuild)
    (results : List ToolResult) : DetachedSegment (recordNext inv l build results) := by
  cases results with
  | nil => exact detached_poll hinv (detached_closeTurn hl build)
  | cons result rest =>
      exact detached_limited hl recordResult_pendingAckIds fun after hafter =>
        detached_ok hafter rfl

theorem detached_nextCall (hl : l.pendingAckIds = []) (build : ContextBuild) (enterNs : Int)
    (rest : List ToolCall) (results : List ToolResult) :
    DetachedSegment (nextCall inv l build enterNs rest results) := by
  cases rest with
  | nil => exact detached_recordNext hinv hl build results
  | cons call rest =>
      exact detached_limited hl enterWait_pendingAckIds fun after hafter => detached_ok hafter rfl

theorem detached_executeTools (hl : l.pendingAckIds = []) (build : ContextBuild) (enterNs : Int)
    (calls : List ToolCall) : DetachedSegment (executeTools inv l build enterNs calls) := by
  unfold executeTools
  split
  · exact detached_limited hl enterWait_pendingAckIds fun after hafter => detached_ok hafter rfl
  · exact detached_nextCall hinv hl build enterNs calls []

theorem detached_requestTools (hl : l.pendingAckIds = []) (build : ContextBuild) (enterNs : Int)
    (calls rest : List ToolCall) :
    DetachedSegment (requestTools inv l build enterNs calls rest) := by
  cases rest with
  | nil => exact detached_executeTools hinv hl build enterNs calls
  | cons call rest =>
      simp only [requestTools]
      split
      · exact detached_error hl _
      · split
        · exact detached_error hl _
        · exact detached_ok hl rfl

theorem detached_useAnswer (hl : l.pendingAckIds = []) (build : ContextBuild)
    (response : ModelResponse) (enterNs : Int) :
    DetachedSegment (useAnswer inv l build response enterNs) := by
  unfold useAnswer
  split
  · exact detached_error hl _
  · split
    · split
      · exact detached_ok hl rfl
      · exact detached_ok hl rfl
    · exact detached_requestTools hinv hl build enterNs _ _

theorem detached_afterTurnSaved : DetachedSegment (afterTurnSaved inv l) := by
  simp only [afterTurnSaved, hinv, Bool.false_eq_true, false_and, if_false]
  exact detached_ok rfl rfl

theorem detached_afterAnswerSaved : DetachedSegment (afterAnswerSaved inv l) := by
  simp only [afterAnswerSaved, hinv, Bool.false_eq_true, if_false]
  exact detached_beginTurn hinv rfl

omit hinv in
theorem detached_settle {s : HarnessSegment} (hs : DetachedSegment s) :
    Detached (settle s).1 (settle s).2 := by
  obtain ⟨hl, hphase⟩ := hs
  unfold settle
  split
  · exact ⟨hl, hphase _ rfl⟩
  · exact ⟨hl, rfl⟩
  · exact ⟨hl, rfl⟩
  · split
    · exact ⟨hl, rfl⟩
    · exact ⟨hl, rfl⟩

theorem detached_enterLoop (hl : l.pendingAckIds = []) (clock : ClockReadings) :
    Detached (enterLoop inv l clock).1 (enterLoop inv l clock).2 :=
  detached_settle (detached_beginTurn hinv hl)

theorem detached_enterRestored (hl : l.pendingAckIds = []) (checkpoint : RunCheckpoint)
    (clock : ClockReadings) :
    Detached (enterRestored inv l checkpoint clock).1 (enterRestored inv l checkpoint clock).2 := by
  unfold enterRestored
  split
  · exact ⟨hl, rfl⟩
  · refine detached_enterLoop hinv ?_ clock
    exact hl

theorem detached_useCheckpoint (hl : l.pendingAckIds = []) (checkpoint : Option RunCheckpoint)
    (status : Option RunStatus) (clock : ClockReadings) :
    Detached (useCheckpoint inv l checkpoint status clock).1
      (useCheckpoint inv l checkpoint status clock).2 := by
  refine useCheckpoint_rule (P := fun state => Detached state.1 state.2) (fun _ => ⟨hl, rfl⟩)
    (fun _ _ => detached_enterLoop hinv hl clock) (fun _ _ _ _ _ => ⟨hl, rfl⟩) ?_
  intro checkpoint _ _ _
  constructor
  · intro hinbox
    rw [hinv] at hinbox
    cases hinbox
  · refine detached_enterRestored hinv ?_ checkpoint clock
    exact hl

end Segments

section Steps

variable {inv : Invocation} {l : Locals} {db : Database} {clock : ClockReadings}

theorem detached_inTry {α : Type} {operation : Database → Except PyError (α × Database)}
    {next : α → HarnessSegment} (hl : l.pendingAckIds = [])
    (hnext : ∀ value, DetachedSegment (next value)) :
    Detached (inTry l operation db next).2.1 (inTry l operation db next).2.2 :=
  inTry_rule (P := fun state => Detached state.1 state.2) rfl
    (fun value _ => detached_settle (hnext value)) fun e => detached_settle (detached_error hl e)

theorem detached_outside {α : Type} {operation : Database → Except PyError (α × Database)}
    {next : α → Locals × HarnessPhase} (hl : l.pendingAckIds = [])
    (hnext : ∀ value, Detached (next value).1 (next value).2) :
    Detached (outside l operation db next).2.1 (outside l operation db next).2.2 :=
  outside_rule (P := fun state => Detached state.1 state.2) rfl (fun value _ => hnext value)
    fun _ => ⟨hl, rfl⟩

theorem detached_commit (hinv : inv.hasInbox = false) {phase : HarnessPhase}
    (hdetached : Detached l phase) {after : Database} {state : Locals × HarnessPhase}
    (hcommit : commit inv clock db l phase = some (after, state)) :
    Detached state.1 state.2 := by
  obtain ⟨hl, hphase⟩ := hdetached
  cases phase with
  | startRun =>
      obtain rfl := congrArg Prod.snd (Option.some.inj hcommit)
      exact detached_outside hl fun _ => ⟨hl, rfl⟩
  | runStarted =>
      obtain rfl := congrArg Prod.snd (Option.some.inj hcommit)
      exact detached_outside hl fun _ => detached_enterLoop hinv hl clock
  | loadCheckpoint =>
      obtain rfl := congrArg Prod.snd (Option.some.inj hcommit)
      exact ⟨hl, rfl⟩
  | runStatus checkpoint =>
      obtain rfl := congrArg Prod.snd (Option.some.inj hcommit)
      exact detached_useCheckpoint hinv hl _ _ clock
  | discardCheckpoint reason =>
      obtain rfl := congrArg Prod.snd (Option.some.inj hcommit)
      exact detached_outside hl fun _ => ⟨hl, rfl⟩
  | checkpointInvalidated reason =>
      obtain rfl := congrArg Prod.snd (Option.some.inj hcommit)
      exact detached_outside hl fun _ => detached_enterLoop hinv hl clock
  | contextCompacted build =>
      obtain rfl := congrArg Prod.snd (Option.some.inj hcommit)
      exact detached_inTry hl fun _ => detached_requestModel hl build
  | turnStarted build =>
      obtain rfl := congrArg Prod.snd (Option.some.inj hcommit)
      exact detached_inTry hl fun _ => detached_limited hl enterWait_pendingAckIds
        fun _ hafter => detached_ok hafter rfl
  | modelCompleted build response =>
      obtain rfl := congrArg Prod.snd (Option.some.inj hcommit)
      exact detached_inTry hl fun _ => detached_poll hinv
        (detached_useAnswer hinv hl build response clock.enterNs)
  | saveAnswer build =>
      obtain rfl := congrArg Prod.snd (Option.some.inj hcommit)
      exact detached_inTry hl fun _ => detached_afterAnswerSaved hinv
  | finishAnswer outcome =>
      obtain rfl := congrArg Prod.snd (Option.some.inj hcommit)
      refine detached_inTry hl fun closed => ?_
      cases closed with
      | true => exact detached_ok hl rfl
      | false => exact detached_beginTurn hinv hl
  | toolRequested build calls rest =>
      obtain rfl := congrArg Prod.snd (Option.some.inj hcommit)
      exact detached_inTry hl fun _ => detached_requestTools hinv hl build clock.enterNs calls _
  | resultRecorded build result rest =>
      obtain rfl := congrArg Prod.snd (Option.some.inj hcommit)
      exact detached_inTry hl fun _ => detached_recordNext hinv hl build rest
  | saveCheckpoint build =>
      obtain rfl := congrArg Prod.snd (Option.some.inj hcommit)
      exact detached_inTry hl fun _ => detached_afterTurnSaved hinv
  | checkpointSaved nextTurn =>
      obtain rfl := congrArg Prod.snd (Option.some.inj hcommit)
      exact detached_inTry hl fun _ => detached_beginTurn hinv hl
  | finishCancelled outcome =>
      obtain rfl := congrArg Prod.snd (Option.some.inj hcommit)
      refine detached_outside hl fun _ => ⟨hl, ?_⟩
      simp [hinv, HarnessPhase.beyondChild]
  | finishFailed outcome =>
      obtain rfl := congrArg Prod.snd (Option.some.inj hcommit)
      exact detached_outside hl fun _ => ⟨hl, rfl⟩
  | acknowledgeCheckpoint _ | pollBeforeModel | pollAfterModel _ _ | acknowledgeAnswer
  | pollAfterTools _ | acknowledgeTurn _ | acknowledgeCancelled _ => cases hphase
  | completeModel _ | modelRunning _ | executeBatch _ _ | batchRunning _ _
  | executeCall _ _ _ _ | callRunning _ _ _ _ | returned _ | raised _ => cases hcommit

theorem detached_launch {resume : Bool} {phase : HarnessPhase}
    (hlaunch : launch inv resume = .ok (l, phase)) : Detached l phase := by
  unfold launch at hlaunch
  cases hfingerprint : inv.registry.schemaFingerprint inv.digest inv.definition.toolIds with
  | error e =>
      rw [hfingerprint] at hlaunch
      cases hlaunch
  | ok fingerprint =>
      rw [hfingerprint] at hlaunch
      cases hledger : BudgetLedger.fromLimits inv.definition.budgetLimits with
      | error e =>
          rw [hledger] at hlaunch
          cases hlaunch
      | ok ledger =>
          rw [hledger] at hlaunch
          cases hlaunch
          cases resume <;> exact ⟨rfl, rfl⟩

/-! ### Transactions that do not look at the controls -/

def Blind {α : Type} (operation : Database → Except PyError (α × Database)) : Prop :=
  ∀ controls db, operation (db.setControls controls) =
    (operation db).map fun result => (result.1, result.2.setControls controls)

theorem findRun_setControls (controls : List ControlRow) (db : Database) :
    SessionStore.findRun (db.setControls controls) = SessionStore.findRun db := rfl

theorem blind_startRun (args : SessionStore.StartRun) (nowMs : Int) :
    Blind (SessionStore.startRun args nowMs) := by
  intro controls db
  have htasks : (db.setControls controls).tasks = db.tasks := rfl
  unfold SessionStore.startRun
  rw [findRun_setControls, htasks]
  by_cases hrun : (SessionStore.findRun db args.runId).isSome = true
  · simp [hrun, Except.map]
  · by_cases htask : (!db.tasks.any fun task => task.taskId = args.taskId) = true
    · simp only [hrun, htask, if_true, Bool.false_eq_true, if_false, Except.map]
    · simp only [hrun, htask, Bool.false_eq_true, if_false, Except.map]
      rfl

theorem blind_event (inv : Invocation) (eventType : String) (payload : List (String × Json)) :
    Blind (event inv eventType payload) := by
  intro controls db
  unfold event SessionStore.appendEvent
  rw [findRun_setControls]
  by_cases hrun : (SessionStore.findRun db inv.request.runId).isNone = true
  · simp [hrun, Except.map]
  · simp only [hrun, Bool.false_eq_true, if_false, Except.map]
    rfl

theorem blind_save (inv : Invocation) (l : Locals) (build : ContextBuild) :
    Blind (save inv l build) := by
  intro controls db
  unfold save SessionStore.saveCheckpoint
  rw [findRun_setControls]
  dsimp only
  by_cases hrun : (SessionStore.findRun db
      (checkpointOf inv l build.sourceVersions).runId).isNone = true
  · simp [hrun, Except.map]
  · simp only [hrun, Bool.false_eq_true, if_false, Except.map]
    rfl

theorem blind_discardCheckpoint (runId : String) :
    Blind (SessionStore.discardCheckpoint runId) := fun _ _ => rfl

theorem Blind.inTry {α : Type} {operation : Database → Except PyError (α × Database)}
    (hblind : Blind operation) (controls : List ControlRow) (next : α → HarnessSegment) :
    AgentHarness.inTry l operation (db.setControls controls) next =
      ((AgentHarness.inTry l operation db next).1.setControls controls,
        (AgentHarness.inTry l operation db next).2) := by
  unfold AgentHarness.inTry
  rw [hblind controls db]
  cases operation db <;> rfl

theorem Blind.outside {α : Type} {operation : Database → Except PyError (α × Database)}
    (hblind : Blind operation) (controls : List ControlRow)
    (next : α → Locals × HarnessPhase) :
    AgentHarness.outside l operation (db.setControls controls) next =
      ((AgentHarness.outside l operation db next).1.setControls controls,
        (AgentHarness.outside l operation db next).2) := by
  unfold AgentHarness.outside
  rw [hblind controls db]
  cases operation db <;> rfl

/-- A detached harness that is not closing its run works on any inbox alike. -/
theorem commit_blind {phase : HarnessPhase} (hphase : phase.beyondChild = false)
    (hclosing : phase.closing? = none) (controls : List ControlRow) :
    commit inv clock (db.setControls controls) l phase =
      (commit inv clock db l phase).map fun result =>
        (result.1.setControls controls, result.2) := by
  cases phase with
  | startRun => exact congrArg some ((blind_startRun _ _).outside controls _)
  | runStarted => exact congrArg some ((blind_event inv _ _).outside controls _)
  | discardCheckpoint reason =>
      exact congrArg some ((blind_discardCheckpoint _).outside controls _)
  | checkpointInvalidated reason => exact congrArg some ((blind_event inv _ _).outside controls _)
  | contextCompacted build => exact congrArg some ((blind_event inv _ _).inTry controls _)
  | turnStarted build => exact congrArg some ((blind_event inv _ _).inTry controls _)
  | modelCompleted build response => exact congrArg some ((blind_event inv _ _).inTry controls _)
  | saveAnswer build => exact congrArg some ((blind_save inv l build).inTry controls _)
  | toolRequested build calls rest => exact congrArg some ((blind_event inv _ _).inTry controls _)
  | resultRecorded build result rest =>
      exact congrArg some ((blind_event inv _ _).inTry controls _)
  | saveCheckpoint build => exact congrArg some ((blind_save inv l build).inTry controls _)
  | checkpointSaved nextTurn => exact congrArg some ((blind_event inv _ _).inTry controls _)
  | finishAnswer _ | finishCancelled _ | finishFailed _ => cases hclosing
  | acknowledgeCheckpoint _ | pollBeforeModel | pollAfterModel _ _ | acknowledgeAnswer
  | pollAfterTools _ | acknowledgeTurn _ | acknowledgeCancelled _ => cases hphase
  | loadCheckpoint | runStatus _ => rfl
  | completeModel _ | modelRunning _ | executeBatch _ _ | batchRunning _ _
  | executeCall _ _ _ _ | callRunning _ _ _ _ | returned _ | raised _ => rfl

end Steps

section Closing

variable {inv : Invocation} {db : Database} {outcome : AgentOutcome}

/-- The closing transaction finds a running run and a terminal outcome. -/
def Closes (inv : Invocation) (outcome : AgentOutcome) (db : Database) (run : RunRow) : Prop :=
  outcome.status ≠ .running ∧ outcome.status ≠ .waiting ∧
    SessionStore.findRun db inv.request.runId = some run ∧ run.status = .running

theorem finish_of_closes {run : RunRow} (hcloses : Closes inv outcome db run) :
    finish inv outcome [] db =
      if SessionStore.hasPending db run.taskId = true ∧ outcome.status = .completed then
        .ok (false, db)
      else
        .ok (true, SessionStore.closeRun
          (if SessionStore.hasPending db run.taskId then
            SessionStore.supersedeControls db run.taskId inv.clockMs else db)
          inv.request.runId outcome inv.clockMs) := by
  obtain ⟨hrunning, hwaiting, hrun, hstatus⟩ := hcloses
  simp [finish, SessionStore.tryFinishWithOutcome, SessionStore.closingInbox, hrunning, hwaiting,
    hrun, hstatus]

theorem finish_of_not_closes (hnot : ∀ run, ¬ Closes inv outcome db run) :
    ∃ e, ∀ controls, finish inv outcome [] (db.setControls controls) = .error e := by
  unfold finish SessionStore.tryFinishWithOutcome
  simp only [findRun_setControls]
  by_cases hterminal : outcome.status = .running ∨ outcome.status = .waiting
  · simp [hterminal]
  · rw [not_or] at hterminal
    cases hrun : SessionStore.findRun db inv.request.runId with
    | none => simp [hterminal]
    | some run =>
        have hstatus : run.status ≠ .running := fun hstatus =>
          hnot run ⟨hterminal.1, hterminal.2, hrun, hstatus⟩
        simp [hterminal, hstatus]

theorem hasPending_withoutPending (db : Database) (taskId : String) :
    SessionStore.hasPending db.withoutPending taskId = false := by
  simp only [SessionStore.hasPending, Database.withoutPending, Database.setControls,
    List.any_eq_false]
  intro control hmem
  have hstate := (List.mem_filter.mp hmem).2
  simp at hstate
  simp [hstate]

/-- Over an empty inbox the closing transaction is blind as well. -/
theorem finish_withoutPending
    (hempty : ∀ run, Closes inv outcome db run → SessionStore.hasPending db run.taskId = false) :
    finish inv outcome [] db.withoutPending =
        (finish inv outcome [] db).map (fun result =>
          (result.1, result.2.setControls db.withoutPending.controls)) ∧
      ∀ closed after, finish inv outcome [] db = .ok (closed, after) →
        after.controls = db.controls := by
  by_cases hcloses : ∃ run, Closes inv outcome db run
  · obtain ⟨run, hrun⟩ := hcloses
    have hrun' : Closes inv outcome db.withoutPending run := hrun
    rw [finish_of_closes hrun, finish_of_closes hrun', hasPending_withoutPending,
      hempty run hrun]
    simp only [Bool.false_eq_true, false_and, if_false, Except.map]
    refine ⟨rfl, ?_⟩
    rintro closed after ⟨⟩
    rfl
  · rw [not_exists] at hcloses
    obtain ⟨e, herror⟩ := finish_of_not_closes hcloses
    have hhere : finish inv outcome [] db = .error e := herror db.controls
    refine ⟨?_, ?_⟩
    · rw [Database.withoutPending, herror, hhere]
      rfl
    · intro closed after hok
      rw [hhere] at hok
      cases hok

/-- A failing child supersedes the controls that wait for its parent. -/
theorem finish_supersedes {run : RunRow} (hcloses : Closes inv outcome db run)
    (hpending : SessionStore.hasPending db run.taskId = true)
    (hstatus : outcome.status ≠ .completed) :
    ∃ after, finish inv outcome [] db = .ok (true, after) ∧ after.controls ≠ db.controls := by
  rw [finish_of_closes hcloses]
  simp only [hpending, hstatus, and_false, if_false, if_true]
  refine ⟨_, rfl, ?_⟩
  intro hsame
  have hnone : SessionStore.hasPending (SessionStore.supersedeControls db run.taskId inv.clockMs)
      run.taskId = false := by
    simp only [SessionStore.hasPending, List.any_eq_false]
    intro control hmem
    rcases Table.mem_update_cases hmem with ⟨_, hother⟩ | ⟨old, _, _, rfl⟩
    · simpa using hother
    · simp
  have hcontrols : (SessionStore.supersedeControls db run.taskId inv.clockMs).controls =
      db.controls := hsame
  rw [SessionStore.hasPending, hcontrols] at hnone
  rw [SessionStore.hasPending, hnone] at hpending
  cases hpending

theorem beginTurn_not_returned (inv : Invocation) (l : Locals) (outcome : AgentOutcome) :
    (settle (beginTurn inv l)).2 ≠ .returned outcome := by
  obtain ⟨_, hpoll | ⟨build, hcompacted | hstarted⟩ | ⟨e, herror⟩⟩ := beginTurn_cases inv l
  · rw [settle_ok hpoll]
    nofun
  · rw [settle_ok hcompacted]
    nofun
  · rw [settle_ok hstarted]
    nofun
  · exact settle_error_not_returned herror outcome

end Closing

end AgentHarness

/-! ### Delegated runs among the other transactions -/

/-- The harnesses of the delegated runs; a finished or dead one keeps its place. -/
structure ChildSystem where
  db : Database := {}
  children : List Harness := []

inductive ChildStep where
  | store (op : StoreOp)
  | delegate (inv : Invocation) (resume : Bool)
  | child (index : Nat) (label : HarnessLabel)

namespace ChildSystem

/-- `DelegatedHarnessWorker` passes no `controls` to the harness it builds. -/
def delegate (s : ChildSystem) (inv : Invocation) (resume : Bool) : ChildSystem :=
  let inv := { inv with hasInbox := false }
  match AgentHarness.launch inv resume with
  | .ok (locals, phase) => { s with children := s.children ++ [⟨inv, locals, phase⟩] }
  | .error _ => s

def step (s : ChildSystem) : ChildStep → Option ChildSystem
  | .store op => some { s with db := op.apply s.db }
  | .delegate inv resume => some (s.delegate inv resume)
  | .child index label =>
      match s.children[index]? with
      | none => none
      | some h =>
          (h.step s.db label).map fun (after, h', _) =>
            { db := after, children := s.children.set index h' }

/-- The step of a child leaves every control row alone, and the child goes on as
it would over an empty inbox: the closing transaction answers the same and the
loop stops or continues the same. -/
def ControlsUntouched (s : ChildSystem) : ChildStep → Prop
  | .child index label => ∀ h after h' events, s.children[index]? = some h →
      h.step s.db label = some (after, h', events) →
        after.controls = s.db.controls ∧
          ∃ other, h.step s.db.withoutPending label = some (other, h', events)
  | _ => True

/-- A child closes its run while no control waits for the task of that run. -/
def ClosesOverEmptyInbox (s : ChildSystem) : ChildStep → Prop
  | .child index (.commit _) => ∀ h outcome run, s.children[index]? = some h →
      h.phase.closing? = some outcome → AgentHarness.Closes h.inv outcome s.db run →
        SessionStore.hasPending s.db run.taskId = false
  | _ => True

def Detached (s : ChildSystem) : Prop :=
  ∀ h ∈ s.children, h.inv.hasInbox = false ∧ AgentHarness.Detached h.locals h.phase

end ChildSystem

namespace Harness

open AgentHarness

theorem detached_step {db after : Database} {h h' : Harness} {label : HarnessLabel}
    {events : List HarnessEvent} (hinv : h.inv.hasInbox = false)
    (hdetached : Detached h.locals h.phase)
    (hstep : h.step db label = some (after, h', events)) :
    h'.inv.hasInbox = false ∧ Detached h'.locals h'.phase := by
  obtain ⟨inv, l, phase⟩ := h
  have hl : l.pendingAckIds = [] := hdetached.1
  cases label with
  | commit clock =>
      simp only [step, Option.map_eq_some_iff] at hstep
      obtain ⟨⟨middle, state⟩, hcommit, hresult⟩ := hstep
      cases hresult
      exact ⟨hinv, detached_commit hinv hdetached hcommit⟩
  | begin =>
      simp only [step] at hstep
      split at hstep <;> cases hstep
      all_goals exact ⟨hinv, hl, rfl⟩
  | model answer clock =>
      simp only [step] at hstep
      split at hstep
      · cases hstep
        refine ⟨hinv, detached_settle ?_⟩
        unfold afterModel
        split
        · exact detached_error hl _
        · rename_i hleave
          have hafter := (leaveWait_pendingAckIds hleave).trans hl
          unfold receiveAnswer
          split
          · exact detached_error hafter _
          · exact detached_ok hafter rfl
      · cases hstep
  | batch answer clock =>
      simp only [step] at hstep
      split at hstep
      · cases hstep
        refine ⟨hinv, detached_settle ?_⟩
        unfold afterBatch
        split
        · exact detached_error hl _
        · rename_i hleave
          exact detached_recordNext hinv ((leaveWait_pendingAckIds hleave).trans hl) _ _
      · cases hstep
  | tool answer clock =>
      simp only [step] at hstep
      split at hstep
      · cases hstep
        refine ⟨hinv, detached_settle ?_⟩
        unfold afterCall
        split
        · exact detached_error hl _
        · rename_i hleave
          exact detached_nextCall hinv ((leaveWait_pendingAckIds hleave).trans hl) _ _ _ _
      · cases hstep
  | cancelToken reason =>
      simp only [step] at hstep
      split at hstep
      · cases hstep
      · cases hstep
        exact ⟨hinv, hdetached⟩
  | abort =>
      simp only [step] at hstep
      split at hstep
      · cases hstep
      · cases hstep
        exact ⟨hinv, hl, rfl⟩

/-- The closing transaction that a phase awaits, and what its answer leads to. -/
theorem commit_closing (inv : Invocation) {l : Locals} {phase : HarnessPhase}
    (hdetached : Detached l phase) {outcome : AgentOutcome}
    (hclosing : phase.closing? = some outcome) :
    (∃ failed : PyError → Locals × HarnessPhase, ∃ closed : Bool → Locals × HarnessPhase,
      ∀ clock db, AgentHarness.commit inv clock db l phase =
        some (match finish inv outcome [] db with
          | .ok (answer, after) => (after, closed answer)
          | .error e => (db, failed e)) ∧
        (outcome.status = .completed → closed false ≠ closed true)) := by
  obtain ⟨hl, hphase⟩ := hdetached
  cases phase with
  | finishAnswer other =>
      cases hclosing
      refine ⟨fun e => settle (l, .error e),
        fun closed => settle (if closed then (l, .ok (.returned outcome)) else beginTurn inv l), ?_⟩
      intro clock db
      refine ⟨?_, ?_⟩
      · simp only [AgentHarness.commit, AgentHarness.inTry]
        cases finish inv outcome [] db <;> rfl
      · intro _ hsame
        exact beginTurn_not_returned inv l outcome (congrArg Prod.snd hsame)
  | finishCancelled other =>
      cases hclosing
      refine ⟨fun e => (l, .raised e), fun _ => (l, .returned outcome), ?_⟩
      intro clock db
      refine ⟨?_, ?_⟩
      · simp only [AgentHarness.commit, AgentHarness.outside, hl, List.isEmpty_nil, Bool.not_true,
          Bool.false_eq_true, and_false, if_false]
        cases finish inv outcome [] db <;> rfl
      · intro hcompleted
        simp [HarnessPhase.beyondChild, hcompleted] at hphase
  | finishFailed other =>
      cases hclosing
      refine ⟨fun e => (l, .raised e), fun _ => (l, .returned outcome), ?_⟩
      intro clock db
      refine ⟨?_, ?_⟩
      · simp only [AgentHarness.commit, AgentHarness.outside]
        cases finish inv outcome [] db <;> rfl
      · intro hcompleted
        simp [HarnessPhase.beyondChild, hcompleted] at hphase
  | _ => cases hclosing

theorem untouched_of_empty {db after : Database} {h h' : Harness} {clock : ClockReadings}
    {events : List HarnessEvent} (hdetached : Detached h.locals h.phase)
    (hempty : ∀ outcome run, h.phase.closing? = some outcome → Closes h.inv outcome db run →
      SessionStore.hasPending db run.taskId = false)
    (hstep : h.step db (.commit clock) = some (after, h', events)) :
    after.controls = db.controls ∧
      ∃ other, h.step db.withoutPending (.commit clock) = some (other, h', events) := by
  obtain ⟨inv, l, phase⟩ := h
  simp only [step, Option.map_eq_some_iff] at hstep ⊢
  obtain ⟨⟨middle, state⟩, hcommit, hresult⟩ := hstep
  cases hresult
  cases hclosing : phase.closing? with
  | none =>
      have hblind : ∀ controls, AgentHarness.commit inv clock (db.setControls controls) l phase =
          (AgentHarness.commit inv clock db l phase).map fun result =>
            (result.1.setControls controls, result.2) :=
        fun controls => commit_blind hdetached.2 hclosing controls
      have hhere := hblind db.controls
      have hother := hblind db.withoutPending.controls
      rw [hcommit] at hother
      refine ⟨?_, _, ⟨_, hother, rfl⟩⟩
      change AgentHarness.commit inv clock db l phase = _ at hhere
      rw [hcommit] at hhere
      have hsame : middle = middle.setControls db.controls :=
        congrArg Prod.fst (Option.some.inj hhere)
      rw [hsame]
      rfl
  | some outcome =>
      obtain ⟨failed, closed, hclosed⟩ := commit_closing inv hdetached hclosing
      obtain ⟨hother, hcontrols⟩ := finish_withoutPending fun run => hempty outcome run hclosing
      rw [(hclosed clock db).1] at hcommit
      rw [(hclosed clock db.withoutPending).1, hother]
      cases hfinish : finish inv outcome [] db with
      | error e =>
          rw [hfinish] at hcommit
          cases hcommit
          exact ⟨rfl, _, _, rfl, rfl⟩
      | ok result =>
          obtain ⟨answer, closedDb⟩ := result
          rw [hfinish] at hcommit
          cases hcommit
          exact ⟨hcontrols answer _ hfinish, _, _, rfl, rfl⟩

theorem empty_of_untouched {db : Database} {h : Harness} {clock : ClockReadings}
    (hdetached : Detached h.locals h.phase)
    (huntouched : ∀ after h' events, h.step db (.commit clock) = some (after, h', events) →
      after.controls = db.controls ∧
        ∃ other, h.step db.withoutPending (.commit clock) = some (other, h', events))
    {outcome : AgentOutcome} {run : RunRow} (hclosing : h.phase.closing? = some outcome)
    (hcloses : Closes h.inv outcome db run) :
    SessionStore.hasPending db run.taskId = false := by
  obtain ⟨inv, l, phase⟩ := h
  obtain ⟨failed, closed, hclosed⟩ := commit_closing inv hdetached hclosing
  cases hpending : SessionStore.hasPending db run.taskId with
  | false => rfl
  | true =>
      exfalso
      by_cases hcompleted : outcome.status = .completed
      · have hhere : finish inv outcome [] db = .ok (false, db) := by
          rw [finish_of_closes hcloses]
          simp [hpending, hcompleted]
        have hthere : ∃ after, finish inv outcome [] db.withoutPending = .ok (true, after) := by
          rw [finish_of_closes (show Closes inv outcome db.withoutPending run from hcloses)]
          simp [hasPending_withoutPending]
        obtain ⟨after, hthere⟩ := hthere
        obtain ⟨_, other, hother⟩ := huntouched db ⟨inv, (closed false).1, (closed false).2⟩ [] (by
          simp [step, (hclosed clock db).1, hhere, become])
        simp only [step, (hclosed clock db.withoutPending).1, hthere, become, Option.map_some,
          Option.some.injEq, Prod.mk.injEq, Harness.mk.injEq, true_and] at hother
        exact (hclosed clock db).2 hcompleted
          (Prod.ext hother.2.1.1.symm hother.2.1.2.symm)
      · obtain ⟨after, hfinish, hchanged⟩ := finish_supersedes hcloses hpending hcompleted
        refine hchanged (huntouched after ⟨inv, (closed true).1, (closed true).2⟩ [] ?_).1
        simp [step, (hclosed clock db).1, hfinish, become]

end Harness

namespace ChildSystem

theorem detached_step {s t : ChildSystem} {label : ChildStep} (hs : s.Detached)
    (hstep : s.step label = some t) : t.Detached := by
  cases label with
  | store op =>
      cases hstep
      exact hs
  | delegate inv resume =>
      cases hstep
      unfold delegate
      dsimp only
      split
      · rename_i locals phase hlaunch
        intro h hmem
        rcases List.mem_append.mp hmem with hold | hnew
        · exact hs h hold
        · rw [List.mem_singleton.mp hnew]
          exact ⟨rfl, AgentHarness.detached_launch hlaunch⟩
      · exact hs
  | child index label =>
      simp only [step] at hstep
      split at hstep
      · cases hstep
      · rename_i h hget
        obtain ⟨⟨after, h', events⟩, hchild, hresult⟩ := Option.map_eq_some_iff.mp hstep
        cases hresult
        have hdetached := hs h (List.mem_of_getElem? hget)
        intro other hmem
        rcases List.mem_or_eq_of_mem_set hmem with hold | rfl
        · exact hs other hold
        · exact Harness.detached_step hdetached.1 hdetached.2 hchild

theorem controlsUntouched_iff {s : ChildSystem} (hs : s.Detached) (label : ChildStep) :
    s.ControlsUntouched label ↔ s.ClosesOverEmptyInbox label := by
  cases label with
  | store op => exact Iff.rfl
  | delegate inv resume => exact Iff.rfl
  | child index label =>
      by_cases hlabel : ∃ clock, label = .commit clock
      · obtain ⟨clock, rfl⟩ := hlabel
        constructor
        · intro huntouched h outcome run hget hclosing hcloses
          exact Harness.empty_of_untouched (hs h (List.mem_of_getElem? hget)).2
            (fun after h' events => huntouched h after h' events hget) hclosing hcloses
        · intro hempty h after h' events hget hstep
          exact Harness.untouched_of_empty (hs h (List.mem_of_getElem? hget)).2
            (fun outcome run => hempty h outcome run hget) hstep
      · have hother : ∀ clock, label ≠ .commit clock := fun clock hsame =>
          hlabel ⟨clock, hsame⟩
        refine ⟨fun _ => ?_, fun _ h after h' events _ hstep => ?_⟩
        · cases label with
          | commit clock => exact absurd rfl (hother clock)
          | _ => trivial
        · obtain ⟨rfl, hany⟩ := Harness.step_database hother hstep
          exact ⟨rfl, _, hany _⟩

/-- Whatever the other transactions do, the delegated runs leave the inbox alone
in every step exactly when they close their runs over an empty inbox. -/
theorem controls_untouched_iff_closes_over_empty_inbox (db : Database)
    (steps : List ChildStep) :
    Along step ControlsUntouched steps ⟨db, []⟩ ↔
      Along step ClosesOverEmptyInbox steps ⟨db, []⟩ := by
  have hstart : Detached ⟨db, []⟩ := by simp [Detached]
  exact along_congr (fun _ _ _ hs hstep => detached_step hs hstep)
    (fun _ label hs => controlsUntouched_iff hs label) hstart

/-- The visible half of `ControlsUntouched`, as a test. -/
def keepsControls (s : ChildSystem) (label : ChildStep) : Bool :=
  match label with
  | .child _ _ => (s.step label).all fun t => t.db.controls = s.db.controls
  | _ => true

theorem keepsControls_of_untouched (s : ChildSystem) (label : ChildStep)
    (huntouched : s.ControlsUntouched label) : s.keepsControls label = true := by
  cases label with
  | store op => rfl
  | delegate inv resume => rfl
  | child index label =>
      simp only [keepsControls, step]
      cases hget : s.children[index]? with
      | none => rfl
      | some h =>
          cases hstep : h.step s.db label with
          | none => simp [hstep]
          | some result =>
              obtain ⟨after, h', events⟩ := result
              simpa [hstep] using (huntouched h after h' events hget hstep).1

/-- The model of a delegated run fails while a steering update waits for the root
run: closing the child run supersedes the update. -/
theorem failed_child_supersedes_steering_update :
    let mention : NormalizedEvent :=
      { eventId := "event-1", pluginId := "im", eventType := "im.message", tenantKey := "tenant"
        appId := "app", occurredAtMs := 0, receivedAtMs := 0, resourceKind := "message"
        resourceId := "message-1", traceId := "trace-1" }
    let command : TaskCommand :=
      { pluginId := "im", commandType := "im.handle_mention", sessionKey := "tenant/app/chat"
        payload := [("sender_id", .str "user")] }
    let steer : RuntimeStore.ControlAdmission :=
      { event := { mention with eventId := "event-2", resourceId := "message-2" }
        sessionKey := "tenant/app/chat", actorId := "user", kind := .steer
        text := "use the other table"
        acknowledgement := ⟨"im", "chat", "reply", "control:event-2", [], 0⟩ }
    let child : Invocation :=
      { request :=
          { runId := "run:/root/reader", taskId := "task", nodeId := "/root/reader"
            userRequest := "read the table"
            toolContext :=
              { runId := "run:/root/reader", nodeId := "/root/reader", tenantKey := "tenant"
                appId := "app", actorId := "user", sessionKey := "tenant/app/chat"
                identityRef := "user", policyVersion := 1 } }
        definition :=
          { agentId := "reader", version := 1, instructions := "Read.", modelProfile := "default"
            toolIds := [] }
        registry := ⟨[], List.nodup_nil⟩, loaded := ⟨[], [], []⟩, hasInbox := false
        clockMs := 3, digest := id }
    ¬ Along step ControlsUntouched
      ([.store (.admitEvent mention command none "task" "outbox-1" 0),
        .store (.leaseTasks ⟨"worker", 1, 60000, 1⟩ none),
        .store (.startRun ⟨"run", "task", "tenant/app/chat", "root", 1, 1, "trace-1"⟩ 1),
        .delegate child false, .child 0 (.commit {}), .child 0 (.commit {}),
        .child 0 (.commit {}), .child 0 .begin,
        .store (.admitControl steer "control" "outbox-2" 2),
        .child 0 (.model (.error (.runtimeError "provider unavailable")) {})] ++
        [.child 0 (.commit {})]) ⟨{}, []⟩ := by
  intro mention command steer child
  exact not_along_of_check keepsControls_of_untouched (by decide +kernel)

end ChildSystem

end Codex2Lark
