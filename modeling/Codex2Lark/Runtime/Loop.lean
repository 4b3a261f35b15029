import Codex2Lark.Runtime.Harness

/-!
The invariant rule for the loop of `AgentHarness.run`. An annotation says what
holds of the locals between two awaits; the rule carries it through every piece
of code of the loop, so that a property of the loop is proved on the few
assignments that matter to it.
-/

namespace Codex2Lark

open Lib

/-- `between` speaks of the locals and of the results of the running batch that are
not recorded yet, `saved` of the locals whose checkpoint has just been saved, and
`closed` holds once the run is closed as cancelled. -/
structure Annotation where
  between : List ToolResult → Locals → Prop
  saved : Locals → Prop := fun _ => True
  closed : Prop := True

/-- The phases that read the inbox. -/
def HarnessPhase.polls : HarnessPhase → Bool
  | .pollBeforeModel | .pollAfterModel _ _ | .pollAfterTools _ => true
  | _ => false

/-- The phases that save a checkpoint of this turn. -/
def HarnessPhase.saving? : HarnessPhase → Option ContextBuild
  | .saveAnswer build | .saveCheckpoint build => some build
  | _ => none

namespace AgentHarness

/-- What the annotation has to survive. -/
structure LoopRule (ann : Annotation) : Prop where
  turn : ∀ {l}, ann.between [] l → ann.between [] { l with turn := l.turn + 1 }
  spend : ∀ {results l} ledger lastNs remainderNs, ann.between results l →
    ann.between results { l with ledger, lastNs, remainderNs }
  answer : ∀ {l} response, ann.between [] l →
    ann.between [] { l with journal := l.journal ++ [assistantMessage response] }
  record : ∀ {result rest l after}, ann.between (result :: rest) l →
    recordResult l result = .ok after → ann.between rest after
  acknowledged : ∀ {l}, ann.between [] l → ann.between [] { l with pendingAckIds := [] }
  cancelled : ∀ {results l} reason, ann.between results l → ann.between results (cancel l reason)
  savedCancelled : ∀ {l} reason, ann.saved l → ann.saved (cancel l reason)

/-- The annotation at each await inside the `try` and after it. -/
def InLoop (inv : Invocation) (ann : Annotation) (l : Locals) : HarnessPhase → Prop
  | .pollBeforeModel | .contextCompacted _ | .turnStarted _ | .completeModel _ | .modelRunning _
  | .modelCompleted _ _ | .pollAfterModel _ _ | .saveAnswer _ | .toolRequested _ _ _
  | .pollAfterTools _ | .saveCheckpoint _ | .checkpointSaved _ => ann.between [] l
  | .acknowledgeAnswer | .acknowledgeTurn _ => ann.between [] l ∧ ann.saved l
  | .finishAnswer outcome =>
      ann.between [] l ∧ ∃ content, outcome = outcomeOf content inv.definition l
  | .executeBatch _ calls | .batchRunning _ calls =>
      ann.between [] l ∧ inv.registry.batchParallelSafe calls = true
  | .executeCall _ _ _ results | .callRunning _ _ _ results => ann.between results l
  | .resultRecorded _ _ rest => ann.between rest l
  | .finishCancelled outcome => outcome.status = .cancelled
  | .finishFailed outcome => outcome.status = .failed
  | .acknowledgeCancelled outcome => outcome.status = .cancelled ∧ ann.closed
  | .returned _ | .raised _ => True
  | .startRun | .runStarted | .loadCheckpoint | .runStatus _ | .discardCheckpoint _
  | .checkpointInvalidated _ | .acknowledgeCheckpoint _ => False

/-- The same for a piece of code that may end in an exception. -/
def SegmentInLoop (inv : Invocation) (ann : Annotation) (s : HarnessSegment) : Prop :=
  ∀ phase, s.2 = .ok phase → InLoop inv ann s.1 phase

section Segments

variable {inv : Invocation} {ann : Annotation} {l : Locals}

theorem segment_ok {phase : HarnessPhase} (hphase : InLoop inv ann l phase) :
    SegmentInLoop inv ann (l, .ok phase) :=
  goesOn_ok hphase

theorem segment_error (e : PyError) : SegmentInLoop inv ann (l, .error e) :=
  goesOn_error e

theorem segment_limited {step : Except PyError Locals} {next : Locals → HarnessSegment}
    (hnext : ∀ after, step = .ok after → SegmentInLoop inv ann (next after)) :
    SegmentInLoop inv ann (limited l step next) :=
  goesOn_limited hnext

theorem segment_poll {phase : HarnessPhase} {next : Locals → HarnessSegment}
    (hphase : InLoop inv ann l phase) (hnext : SegmentInLoop inv ann (next l)) :
    SegmentInLoop inv ann (poll inv l phase next) :=
  goesOn_poll hphase hnext

theorem segment_requestModel (hl : ann.between [] l) (build : ContextBuild) :
    SegmentInLoop inv ann (requestModel inv l build) := by
  unfold requestModel
  split
  · exact segment_error _
  · exact segment_ok hl

theorem segment_buildContext (hl : ann.between [] l) :
    SegmentInLoop inv ann (buildContext inv l) := by
  unfold buildContext
  split
  · exact segment_error _
  · split
    · exact segment_error _
    · split
      · exact segment_ok hl
      · exact segment_requestModel hl _

theorem segment_closeTurn (hl : ann.between [] l) (build : ContextBuild) :
    SegmentInLoop inv ann (closeTurn l build) := by
  unfold closeTurn
  split
  · exact segment_error _
  · exact segment_ok hl

theorem settle_inLoop {s : HarnessSegment} (hs : SegmentInLoop inv ann s) :
    InLoop inv ann (settle s).1 (settle s).2 :=
  settle_rule hs (fun _ hstatus => hstatus) (fun _ hstatus => hstatus) fun _ => trivial

variable (rule : LoopRule ann)
include rule

theorem between_charge {results : List ToolResult} {after : Locals} {nowNs : Int}
    (hl : ann.between results l) (hok : charge l nowNs = .ok after) :
    ann.between results after := by
  rw [(charge_ok hok).1]
  exact rule.spend _ _ _ hl

theorem between_leaveWait {α : Type} {results : List ToolResult} {after : Locals} {nowNs : Int}
    {answer : Except PyError α} {value : α} (hl : ann.between results l)
    (hok : leaveWait l nowNs answer = .ok (after, value)) : ann.between results after := by
  rcases (leaveWait_ok hok).2 with rfl | hcharge
  · exact hl
  · exact between_charge rule hl hcharge

/-- A charge to the ledger alone. -/
theorem between_ledger {results : List ToolResult} (hl : ann.between results l)
    (ledger : BudgetLedger) : ann.between results { l with ledger } :=
  rule.spend ledger l.lastNs l.remainderNs hl

theorem segment_beginTurn (hl : ann.between [] l) :
    SegmentInLoop inv ann (beginTurn inv l) := by
  have hturn := rule.turn hl
  exact segment_poll hturn (segment_buildContext hturn)

theorem segment_receiveAnswer (hl : ann.between [] l) (build : ContextBuild)
    (response : ModelResponse) : SegmentInLoop inv ann (receiveAnswer l build response) := by
  unfold receiveAnswer
  split
  · exact segment_error _
  · rename_i ledger _
    have hanswer := rule.answer response (between_ledger rule hl ledger)
    exact segment_ok hanswer

theorem segment_recordNext {results : List ToolResult} (hl : ann.between results l)
    (build : ContextBuild) : SegmentInLoop inv ann (recordNext inv l build results) := by
  cases results with
  | nil => exact segment_poll hl (segment_closeTurn hl build)
  | cons result rest =>
      apply segment_limited
      intro after hafter
      exact segment_ok (rule.record hl hafter)

theorem segment_nextCall {results : List ToolResult} (hl : ann.between results l)
    (build : ContextBuild) (enterNs : Int) (rest : List ToolCall) :
    SegmentInLoop inv ann (nextCall inv l build enterNs rest results) := by
  cases rest with
  | nil => exact segment_recordNext rule hl build
  | cons call rest =>
      apply segment_limited
      intro after hafter
      exact segment_ok (between_charge rule hl (enterWait_ok hafter))

theorem segment_executeTools (hl : ann.between [] l) (build : ContextBuild) (enterNs : Int)
    (calls : List ToolCall) : SegmentInLoop inv ann (executeTools inv l build enterNs calls) := by
  unfold executeTools
  split
  · rename_i hparallel
    apply segment_limited
    intro after hafter
    exact segment_ok ⟨between_charge rule hl (enterWait_ok hafter), hparallel⟩
  · exact segment_nextCall rule hl build enterNs calls

theorem segment_requestTools (hl : ann.between [] l) (build : ContextBuild) (enterNs : Int)
    (calls rest : List ToolCall) :
    SegmentInLoop inv ann (requestTools inv l build enterNs calls rest) := by
  unfold requestTools
  split
  · exact segment_executeTools rule hl build enterNs calls
  · split
    · exact segment_error _
    · split
      · exact segment_error _
      · rename_i ledger _
        have hledger := between_ledger rule hl ledger
        exact segment_ok hledger

theorem segment_useAnswer (hl : ann.between [] l) (build : ContextBuild)
    (response : ModelResponse) (enterNs : Int) :
    SegmentInLoop inv ann (useAnswer inv l build response enterNs) := by
  unfold useAnswer
  split
  · exact segment_error _
  · split
    · split
      · exact segment_ok hl
      · exact segment_ok ⟨hl, _, rfl⟩
    · exact segment_requestTools rule hl build enterNs _ _

theorem segment_afterAnswerSaved (hl : ann.between [] l) (hsaved : ann.saved l) :
    SegmentInLoop inv ann (afterAnswerSaved inv l) := by
  unfold afterAnswerSaved
  split
  · exact segment_ok ⟨hl, hsaved⟩
  · exact segment_beginTurn rule (rule.acknowledged hl)

theorem segment_afterTurnSaved (hl : ann.between [] l) (hsaved : ann.saved l) :
    SegmentInLoop inv ann (afterTurnSaved inv l) := by
  unfold afterTurnSaved
  split
  · exact segment_ok ⟨hl, hsaved⟩
  · exact segment_ok (rule.acknowledged hl)

/-- The loop is entered with the annotation. -/
theorem inLoop_enterLoop (hl : ann.between [] l) (clock : ClockReadings) :
    InLoop inv ann (enterLoop inv l clock).1 (enterLoop inv l clock).2 :=
  settle_inLoop (segment_beginTurn rule (rule.spend l.ledger _ _ hl))

theorem inLoop_enterRestored (hl : ann.between [] l) (checkpoint : RunCheckpoint)
    (clock : ClockReadings) :
    InLoop inv ann (enterRestored inv l checkpoint clock).1
      (enterRestored inv l checkpoint clock).2 := by
  unfold enterRestored
  split
  · trivial
  · exact inLoop_enterLoop rule (between_ledger rule hl _) clock

theorem inLoop_model {build : ContextBuild} (hl : ann.between [] l)
    (answer : Except PyError ModelResponse) (clock : ClockReadings) :
    InLoop inv ann (settle (afterModel l build answer clock)).1
      (settle (afterModel l build answer clock)).2 := by
  apply settle_inLoop
  unfold afterModel
  cases hwait : leaveWait l clock.leaveNs answer with
  | error e => exact segment_error e
  | ok result => exact segment_receiveAnswer rule (between_leaveWait rule hl hwait) build _

theorem inLoop_batch {build : ContextBuild} {calls : List ToolCall}
    {answer : Except PyError (List ToolResult)} {clock : ClockReadings}
    (hl : ∀ results, answer = .ok results → ann.between results l) :
    InLoop inv ann (settle (afterBatch inv l build calls answer clock).2).1
      (settle (afterBatch inv l build calls answer clock).2).2 := by
  apply settle_inLoop
  unfold afterBatch
  cases hwait : leaveWait l clock.leaveNs answer with
  | error e => exact segment_error e
  | ok result =>
      have hresults := hl _ (leaveWait_ok hwait).1
      exact segment_recordNext rule (between_leaveWait rule hresults hwait) build

theorem inLoop_tool {build : ContextBuild} {call : ToolCall} {rest : List ToolCall}
    {results : List ToolResult} {answer : Except PyError ToolResult} {clock : ClockReadings}
    (hl : ∀ result, answer = .ok result → ann.between (results ++ [result]) l) :
    InLoop inv ann (settle (afterCall inv l build call rest results answer clock).2).1
      (settle (afterCall inv l build call rest results answer clock).2).2 := by
  apply settle_inLoop
  unfold afterCall
  cases hwait : leaveWait l clock.leaveNs answer with
  | error e => exact segment_error e
  | ok result =>
      have hresult := hl _ (leaveWait_ok hwait).1
      exact segment_nextCall rule (between_leaveWait rule hresult hwait) build _ rest

end Segments

section Commits

variable {inv : Invocation} {ann : Annotation} {l : Locals} {db : Database}

theorem inLoop_inTry {α : Type} {operation : Database → Except PyError (α × Database)}
    {next : α → HarnessSegment} {after : Database} {state : Locals × HarnessPhase}
    (hnext : ∀ value, operation db = .ok (value, after) → SegmentInLoop inv ann (next value))
    (hcommit : inTry l operation db next = (after, state)) : InLoop inv ann state.1 state.2 :=
  inTry_rule (P := fun state => InLoop inv ann state.1 state.2) hcommit
    (fun value hop => settle_inLoop (hnext value hop)) fun e => settle_inLoop (segment_error e)

theorem inLoop_outside {α : Type} {operation : Database → Except PyError (α × Database)}
    {next : α → Locals × HarnessPhase} {after : Database} {state : Locals × HarnessPhase}
    (hnext : ∀ value, operation db = .ok (value, after) →
      InLoop inv ann (next value).1 (next value).2)
    (hcommit : outside l operation db next = (after, state)) :
    InLoop inv ann state.1 state.2 :=
  outside_rule (P := fun state => InLoop inv ann state.1 state.2) hcommit hnext fun _ => trivial

/-- One awaited transaction of the loop. The annotation may speak of the tables;
then it is the one after the transaction. -/
theorem inLoop_commit (rule : LoopRule ann) {clock : ClockReadings} {phase : HarnessPhase}
    {after : Database} {state : Locals × HarnessPhase} (hphase : InLoop inv ann l phase)
    (hpoll : phase.polls = true → ann.between [] l →
      ann.between [] (applyControls l (pending inv db)))
    (hsaved : ∀ build value, phase.saving? = some build →
      save inv l build db = .ok (value, after) → ann.saved l)
    (hclosed : ∀ outcome value, phase = .finishCancelled outcome →
      finish inv outcome l.pendingAckIds db = .ok (value, after) → ann.closed)
    (hcommit : commit inv clock db l phase = some (after, state)) :
    InLoop inv ann state.1 state.2 := by
  cases phase with
  | startRun | runStarted | loadCheckpoint | runStatus _ | discardCheckpoint _
  | checkpointInvalidated _ | acknowledgeCheckpoint _ => exact hphase.elim
  | pollBeforeModel =>
      cases hcommit
      exact settle_inLoop (segment_buildContext (hpoll rfl hphase))
  | contextCompacted build =>
      exact inLoop_inTry (fun _ _ => segment_requestModel hphase build) (Option.some.inj hcommit)
  | turnStarted build =>
      refine inLoop_inTry (fun _ _ => ?_) (Option.some.inj hcommit)
      apply segment_limited
      intro after hafter
      exact segment_ok (between_charge rule hphase (enterWait_ok hafter))
  | modelCompleted build response =>
      refine inLoop_inTry (fun _ _ => ?_) (Option.some.inj hcommit)
      exact segment_poll hphase (segment_useAnswer rule hphase build response clock.enterNs)
  | pollAfterModel build response =>
      cases hcommit
      exact settle_inLoop (segment_useAnswer rule (hpoll rfl hphase) build response clock.enterNs)
  | saveAnswer build =>
      refine inLoop_inTry (fun _ hok => ?_) (Option.some.inj hcommit)
      exact segment_afterAnswerSaved rule hphase (hsaved build _ rfl hok)
  | acknowledgeAnswer =>
      cases hcommit
      exact settle_inLoop (segment_beginTurn rule (rule.acknowledged hphase.1))
  | finishAnswer outcome =>
      refine inLoop_inTry (fun closed _ => ?_) (Option.some.inj hcommit)
      cases closed with
      | true => exact segment_ok trivial
      | false => exact segment_beginTurn rule hphase.1
  | toolRequested build calls rest =>
      refine inLoop_inTry (fun _ _ => ?_) (Option.some.inj hcommit)
      exact segment_requestTools rule hphase build clock.enterNs calls _
  | resultRecorded build result rest =>
      refine inLoop_inTry (fun _ _ => ?_) (Option.some.inj hcommit)
      exact segment_recordNext rule hphase build
  | pollAfterTools build =>
      cases hcommit
      exact settle_inLoop (segment_closeTurn (hpoll rfl hphase) build)
  | saveCheckpoint build =>
      refine inLoop_inTry (fun _ hok => ?_) (Option.some.inj hcommit)
      exact segment_afterTurnSaved rule hphase (hsaved build _ rfl hok)
  | acknowledgeTurn nextTurn =>
      cases hcommit
      exact rule.acknowledged hphase.1
  | checkpointSaved nextTurn =>
      refine inLoop_inTry (fun _ _ => ?_) (Option.some.inj hcommit)
      exact segment_beginTurn rule hphase
  | finishCancelled outcome =>
      refine inLoop_outside (fun _ hok => ?_) (Option.some.inj hcommit)
      dsimp only
      split
      · exact ⟨hphase, hclosed outcome _ rfl hok⟩
      · trivial
  | acknowledgeCancelled outcome =>
      cases hcommit
      trivial
  | finishFailed outcome =>
      refine inLoop_outside (fun _ _ => ?_) (Option.some.inj hcommit)
      trivial
  | completeModel _ | modelRunning _ | executeBatch _ _ | batchRunning _ _
  | executeCall _ _ _ _ | callRunning _ _ _ _ | returned _ | raised _ => cases hcommit

/-- A stronger annotation. -/
theorem InLoop.imp {other : Annotation} {phase : HarnessPhase} (hphase : InLoop inv ann l phase)
    (hbetween : ∀ results, ann.between results l → other.between results l)
    (hsaved : ann.saved l → other.saved l) (hclosed : ann.closed → other.closed) :
    InLoop inv other l phase := by
  cases phase with
  | startRun | runStarted | loadCheckpoint | runStatus _ | discardCheckpoint _
  | checkpointInvalidated _ | acknowledgeCheckpoint _ => exact hphase.elim
  | acknowledgeAnswer | acknowledgeTurn _ => exact ⟨hbetween _ hphase.1, hsaved hphase.2⟩
  | finishAnswer _ | executeBatch _ _ | batchRunning _ _ => exact ⟨hbetween _ hphase.1, hphase.2⟩
  | acknowledgeCancelled _ => exact ⟨hphase.1, hclosed hphase.2⟩
  | finishCancelled _ | finishFailed _ | returned _ | raised _ => exact hphase
  | _ => exact hbetween _ hphase

/-- A request to cancel arrives between two awaits. -/
theorem inLoop_cancel (rule : LoopRule ann) {phase : HarnessPhase}
    (hphase : InLoop inv ann l phase) (reason : String) :
    InLoop inv ann (cancel l reason) phase := by
  cases phase with
  | startRun | runStarted | loadCheckpoint | runStatus _ | discardCheckpoint _
  | checkpointInvalidated _ | acknowledgeCheckpoint _ => exact hphase.elim
  | finishAnswer outcome => exact ⟨rule.cancelled reason hphase.1, hphase.2⟩
  | acknowledgeAnswer | acknowledgeTurn _ =>
      exact ⟨rule.cancelled reason hphase.1, rule.savedCancelled reason hphase.2⟩
  | executeBatch _ _ | batchRunning _ _ => exact ⟨rule.cancelled reason hphase.1, hphase.2⟩
  | finishCancelled _ | finishFailed _ | acknowledgeCancelled _ | returned _ | raised _ =>
      exact hphase
  | _ => exact rule.cancelled reason hphase

end Commits

end AgentHarness

end Codex2Lark
