import Codex2Lark.Runtime.Harness

/-!
A rule for the turns of `AgentHarness.run` that follows the tool calls of an answer: which
of them have not been started, which are running, and which results are still to be
recorded. It is for properties of the journal and of the external writes, which change
within a turn.
-/

namespace Codex2Lark

open Lib

/-- Where the tool calls of a turn are. -/
inductive TurnPoint where
  | quiet
  | waiting (calls : List ToolCall) (results : List ToolResult)
  | running (calls rest : List ToolCall) (results : List ToolResult)

/-- A charge of another kind than the external writes. -/
structure BudgetLedger.SameWrites (ledger after : BudgetLedger) : Prop where
  limits : after.limits = ledger.limits
  reserved : after.reserved = ledger.reserved
  writes : after.consumedOf .externalWrites = ledger.consumedOf .externalWrites

theorem BudgetLedger.SameWrites.refl (ledger : BudgetLedger) : ledger.SameWrites ledger :=
  ⟨rfl, rfl, rfl⟩

theorem BudgetLedger.SameWrites.consume {ledger after : BudgetLedger} {kind : BudgetKind}
    {amount : Int} (hkind : .externalWrites ≠ kind) (hok : ledger.consume kind amount = .ok after) :
    ledger.SameWrites after := by
  obtain ⟨_, _, hlimits, hreserved, _, hother⟩ := BudgetLedger.consume_ok hok
  exact ⟨hlimits, hreserved, hother _ hkind⟩

theorem BudgetLedger.SameWrites.consumeIfLimited {ledger after : BudgetLedger} {kind : BudgetKind}
    {amount : Int} (hkind : .externalWrites ≠ kind)
    (hok : ledger.consumeIfLimited kind amount = .ok after) : ledger.SameWrites after := by
  obtain ⟨hlimits, hreserved, hother, _⟩ := BudgetLedger.consumeIfLimited_ok hok
  exact ⟨hlimits, hreserved, hother _ hkind⟩

namespace AgentHarness

/-- The result of the call, under the effect that its tool declares. -/
def Answers (registry : ToolRegistry) (call : ToolCall) (result : ToolResult) : Prop :=
  result.callId = call.callId ∧ result.toolId = call.toolId ∧
    result.effect = registry.effectOf call

theorem batchResults_answers {registry : ToolRegistry} {calls : List ToolCall}
    {answers : List ToolExecutor.ToolAnswer} {results : List ToolResult}
    (hok : batchResults registry calls answers = .ok results) :
    List.Forall₂ (Answers registry) calls results := by
  induction calls generalizing answers results with
  | nil =>
      cases hok
      exact .nil
  | cons call calls ih =>
      cases answers with
      | nil => cases hok
      | cons answer answers =>
          obtain ⟨result, hfirst, hlater⟩ := PyError.bind_eq_ok.mp hok
          obtain ⟨rest, hrest, hdone⟩ := PyError.bind_eq_ok.mp hlater
          cases hdone
          exact .cons (ToolExecutor.execute_result hfirst) (ih hrest)

/-- What an annotation of the turn points has to survive. `accepts` is asked of the answers of
the model. -/
structure TurnRule (registry : ToolRegistry) (accepts : ModelResponse → Prop)
    (holds : TurnPoint → Locals → Prop) : Prop where
  turn : ∀ {l}, holds .quiet l → holds .quiet { l with turn := l.turn + 1 }
  spend : ∀ {point l ledger} lastNs remainderNs, l.ledger.SameWrites ledger → holds point l →
    holds point { l with ledger, lastNs, remainderNs }
  answer : ∀ {l response}, accepts response → holds .quiet l →
    holds (.waiting response.toolCalls []) { l with journal := l.journal ++ [assistantMessage response] }
  returned : ∀ {calls rest results answers l}, holds (.running calls rest results) l →
    List.Forall₂ (Answers registry) calls answers → holds (.waiting rest (results ++ answers)) l
  record : ∀ {result rest l after}, holds (.waiting [] (result :: rest)) l →
    recordResult l result = .ok after → holds (.waiting [] rest) after
  finished : ∀ {l}, holds (.waiting [] []) l → holds .quiet l
  control : ∀ {l} control, holds .quiet l → holds .quiet (applyControl l control)
  controlWaiting : ∀ {calls l} control, holds (.waiting calls []) l →
    holds (.waiting calls []) (applyControl l control)
  acknowledged : ∀ {l}, holds .quiet l → holds .quiet { l with pendingAckIds := [] }
  cancelled : ∀ {point l} reason, holds point l → holds point (cancel l reason)

/-- The annotation at each await of the loop. -/
def InTurn (holds : TurnPoint → Locals → Prop) (l : Locals) : HarnessPhase → Prop
  | .pollBeforeModel | .contextCompacted _ | .turnStarted _ | .completeModel _ | .modelRunning _
  | .saveAnswer _ | .acknowledgeAnswer | .finishAnswer _ | .pollAfterTools _ | .saveCheckpoint _
  | .acknowledgeTurn _ | .checkpointSaved _ => holds .quiet l
  | .modelCompleted _ response | .pollAfterModel _ response =>
      holds (.waiting response.toolCalls []) l
  | .toolRequested _ calls _ | .executeBatch _ calls => holds (.waiting calls []) l
  | .batchRunning _ calls => holds (.running calls [] []) l
  | .executeCall _ call rest results => holds (.waiting (call :: rest) results) l
  | .callRunning _ call rest results => holds (.running [call] rest results) l
  | .resultRecorded _ _ rest => holds (.waiting [] rest) l
  | .finishCancelled _ | .finishFailed _ | .acknowledgeCancelled _ | .returned _ | .raised _ => True
  | .startRun | .runStarted | .loadCheckpoint | .runStatus _ | .discardCheckpoint _
  | .checkpointInvalidated _ | .acknowledgeCheckpoint _ => False

def SegmentInTurn (holds : TurnPoint → Locals → Prop) (s : HarnessSegment) : Prop :=
  ∀ phase, s.2 = .ok phase → InTurn holds s.1 phase

section Segments

variable {inv : Invocation} {registry : ToolRegistry} {accepts : ModelResponse → Prop}
  {holds : TurnPoint → Locals → Prop} {l : Locals}

theorem turn_ok {phase : HarnessPhase} (hphase : InTurn holds l phase) :
    SegmentInTurn holds (l, .ok phase) :=
  goesOn_ok hphase

theorem turn_error (e : PyError) : SegmentInTurn holds (l, .error e) :=
  goesOn_error e

theorem turn_limited {step : Except PyError Locals} {next : Locals → HarnessSegment}
    (hnext : ∀ after, step = .ok after → SegmentInTurn holds (next after)) :
    SegmentInTurn holds (limited l step next) :=
  goesOn_limited hnext

theorem turn_poll {phase : HarnessPhase} {next : Locals → HarnessSegment}
    (hphase : InTurn holds l phase) (hnext : SegmentInTurn holds (next l)) :
    SegmentInTurn holds (poll inv l phase next) :=
  goesOn_poll hphase hnext

theorem turn_requestModel (hl : holds .quiet l) (build : ContextBuild) :
    SegmentInTurn holds (requestModel inv l build) := by
  unfold requestModel
  split
  · exact turn_error _
  · exact turn_ok hl

theorem turn_buildContext (hl : holds .quiet l) : SegmentInTurn holds (buildContext inv l) := by
  unfold buildContext
  split
  · exact turn_error _
  · split
    · exact turn_error _
    · split
      · exact turn_ok hl
      · exact turn_requestModel hl _

theorem turn_closeTurn (hl : holds .quiet l) (build : ContextBuild) :
    SegmentInTurn holds (closeTurn l build) := by
  unfold closeTurn
  split
  · exact turn_error _
  · exact turn_ok hl

theorem settle_inTurn {s : HarnessSegment} (hs : SegmentInTurn holds s) :
    InTurn holds (settle s).1 (settle s).2 :=
  settle_rule hs (fun _ _ => trivial) (fun _ _ => trivial) fun _ => trivial

variable (rule : TurnRule registry accepts holds)
include rule

theorem holds_charge {point : TurnPoint} {after : Locals} {nowNs : Int} (hl : holds point l)
    (hok : charge l nowNs = .ok after) : holds point after := by
  obtain ⟨hafter, hledger⟩ := charge_ok hok
  rw [hafter]
  refine rule.spend _ _ ?_ hl
  rcases hledger with hsame | ⟨elapsedMs, hconsumed⟩
  · rw [hsame]
    exact .refl _
  · exact .consume (by decide) hconsumed

theorem holds_leaveWait {α : Type} {point : TurnPoint} {after : Locals} {nowNs : Int}
    {answer : Except PyError α} {value : α} (hl : holds point l)
    (hok : leaveWait l nowNs answer = .ok (after, value)) : holds point after := by
  rcases (leaveWait_ok hok).2 with rfl | hcharge
  · exact hl
  · exact holds_charge rule hl hcharge

theorem holds_consume {point : TurnPoint} {kind : BudgetKind} {amount : Int} {ledger : BudgetLedger}
    (hkind : .externalWrites ≠ kind) (hl : holds point l)
    (hok : l.ledger.consumeIfLimited kind amount = .ok ledger) : holds point { l with ledger } :=
  rule.spend l.lastNs l.remainderNs (.consumeIfLimited hkind hok) hl

theorem holds_applyControls {controls : List ControlRow} (hl : holds .quiet l) :
    holds .quiet (applyControls l controls) := by
  unfold applyControls
  induction controls generalizing l with
  | nil => exact hl
  | cons control rest ih => exact ih (rule.control control hl)

theorem holds_applyControls_waiting {calls : List ToolCall} {controls : List ControlRow}
    (hl : holds (.waiting calls []) l) : holds (.waiting calls []) (applyControls l controls) := by
  unfold applyControls
  induction controls generalizing l with
  | nil => exact hl
  | cons control rest ih => exact ih (rule.controlWaiting control hl)

theorem turn_beginTurn (hl : holds .quiet l) : SegmentInTurn holds (beginTurn inv l) := by
  have hturn := rule.turn hl
  exact turn_poll hturn (turn_buildContext hturn)

theorem turn_receiveAnswer (hl : holds .quiet l) (build : ContextBuild) {response : ModelResponse}
    (haccepts : accepts response) : SegmentInTurn holds (receiveAnswer l build response) := by
  unfold receiveAnswer
  split
  · exact turn_error _
  · rename_i ledger hledger
    have hspent := holds_consume rule (by decide) hl hledger
    exact turn_ok (rule.answer haccepts hspent)

theorem turn_recordNext {results : List ToolResult} (hl : holds (.waiting [] results) l)
    (build : ContextBuild) : SegmentInTurn holds (recordNext inv l build results) := by
  cases results with
  | nil =>
      have hquiet := rule.finished hl
      exact turn_poll hquiet (turn_closeTurn hquiet build)
  | cons result rest =>
      apply turn_limited
      intro after hafter
      exact turn_ok (rule.record hl hafter)

theorem turn_nextCall {rest : List ToolCall} {results : List ToolResult}
    (hl : holds (.waiting rest results) l) (build : ContextBuild) (enterNs : Int) :
    SegmentInTurn holds (nextCall inv l build enterNs rest results) := by
  cases rest with
  | nil => exact turn_recordNext rule hl build
  | cons call rest =>
      apply turn_limited
      intro after hafter
      exact turn_ok (holds_charge rule hl (enterWait_ok hafter))

theorem turn_executeTools {calls : List ToolCall} (hl : holds (.waiting calls []) l)
    (build : ContextBuild) (enterNs : Int) :
    SegmentInTurn holds (executeTools inv l build enterNs calls) := by
  unfold executeTools
  split
  · apply turn_limited
    intro after hafter
    exact turn_ok (holds_charge rule hl (enterWait_ok hafter))
  · exact turn_nextCall rule hl build enterNs

theorem turn_requestTools {calls : List ToolCall} (hl : holds (.waiting calls []) l)
    (build : ContextBuild) (enterNs : Int) (rest : List ToolCall) :
    SegmentInTurn holds (requestTools inv l build enterNs calls rest) := by
  unfold requestTools
  split
  · exact turn_executeTools rule hl build enterNs
  · split
    · exact turn_error _
    · split
      · exact turn_error _
      · rename_i ledger hledger
        have hspent := holds_consume rule (by decide) hl hledger
        exact turn_ok hspent

theorem turn_useAnswer {response : ModelResponse} (hl : holds (.waiting response.toolCalls []) l)
    (build : ContextBuild) (enterNs : Int) :
    SegmentInTurn holds (useAnswer inv l build response enterNs) := by
  unfold useAnswer
  split
  · exact turn_error _
  · split
    · rename_i hempty
      rw [List.isEmpty_iff.mp hempty] at hl
      have hquiet := rule.finished hl
      split
      · exact turn_ok hquiet
      · exact turn_ok hquiet
    · exact turn_requestTools rule hl build enterNs _

theorem turn_afterAnswerSaved (hl : holds .quiet l) :
    SegmentInTurn holds (afterAnswerSaved inv l) := by
  unfold afterAnswerSaved
  split
  · exact turn_ok hl
  · exact turn_beginTurn rule (rule.acknowledged hl)

theorem turn_afterTurnSaved (hl : holds .quiet l) : SegmentInTurn holds (afterTurnSaved inv l) := by
  unfold afterTurnSaved
  split
  · exact turn_ok hl
  · exact turn_ok (rule.acknowledged hl)

theorem inTurn_enterLoop (hl : holds .quiet l) (clock : ClockReadings) :
    InTurn holds (enterLoop inv l clock).1 (enterLoop inv l clock).2 :=
  settle_inTurn (turn_beginTurn rule (rule.spend _ _ (.refl _) hl))

theorem inTurn_enterRestored {checkpoint : RunCheckpoint} {clock : ClockReadings}
    (hl : ∀ ledger, restoreBudget checkpoint.consumedBudget l.ledger = .ok ledger →
      holds .quiet { l with ledger }) :
    InTurn holds (enterRestored inv l checkpoint clock).1
      (enterRestored inv l checkpoint clock).2 := by
  unfold enterRestored
  split
  · trivial
  · rename_i ledger hledger
    exact inTurn_enterLoop rule (hl ledger hledger) clock

theorem inTurn_model {build : ContextBuild} {answer : Except PyError ModelResponse}
    (hl : holds .quiet l) (haccepts : ∀ response, answer = .ok response → accepts response)
    (clock : ClockReadings) :
    InTurn holds (settle (afterModel l build answer clock)).1
      (settle (afterModel l build answer clock)).2 := by
  apply settle_inTurn
  unfold afterModel
  cases hwait : leaveWait l clock.leaveNs answer with
  | error e => exact turn_error e
  | ok result =>
      have haccepted := haccepts _ (leaveWait_ok hwait).1
      exact turn_receiveAnswer rule (holds_leaveWait rule hl hwait) build haccepted

theorem inTurn_batch {calls : List ToolCall} (build : ContextBuild) (hregistry : inv.registry = registry)
    (hl : holds (.running calls [] []) l) (answer : Except PyError (List ToolExecutor.ToolAnswer))
    (clock : ClockReadings) :
    InTurn holds
      (settle (afterBatch inv l build calls (answer.bind (batchResults inv.registry calls)) clock).2).1
      (settle (afterBatch inv l build calls (answer.bind (batchResults inv.registry calls)) clock).2).2 := by
  apply settle_inTurn
  unfold afterBatch
  cases hwait : leaveWait l clock.leaveNs (answer.bind (batchResults inv.registry calls)) with
  | error e => exact turn_error e
  | ok result =>
      obtain ⟨answers, _, hanswers⟩ := PyError.bind_eq_ok.mp (leaveWait_ok hwait).1
      rw [hregistry] at hanswers
      have hresults := rule.returned (holds_leaveWait rule hl hwait) (batchResults_answers hanswers)
      exact turn_recordNext rule hresults build

theorem inTurn_tool {call : ToolCall} {rest : List ToolCall}
    {results : List ToolResult} (build : ContextBuild) (hregistry : inv.registry = registry)
    (hl : holds (.running [call] rest results) l) (answer : Except PyError ToolExecutor.ToolAnswer)
    (clock : ClockReadings) :
    InTurn holds
      (settle (afterCall inv l build call rest results
        (answer.bind (ToolExecutor.execute inv.registry call)) clock).2).1
      (settle (afterCall inv l build call rest results
        (answer.bind (ToolExecutor.execute inv.registry call)) clock).2).2 := by
  apply settle_inTurn
  unfold afterCall
  cases hwait : leaveWait l clock.leaveNs (answer.bind (ToolExecutor.execute inv.registry call)) with
  | error e => exact turn_error e
  | ok result =>
      obtain ⟨answered, _, hanswer⟩ := PyError.bind_eq_ok.mp (leaveWait_ok hwait).1
      rw [hregistry] at hanswer
      have hresult := rule.returned (holds_leaveWait rule hl hwait)
        (.cons (ToolExecutor.execute_result hanswer) .nil)
      exact turn_nextCall rule hresult build _

end Segments

section Commits

variable {inv : Invocation} {registry : ToolRegistry} {accepts : ModelResponse → Prop}
  {holds : TurnPoint → Locals → Prop} {l : Locals} {db after : Database}

theorem inTurn_inTry {α : Type} {operation : Database → Except PyError (α × Database)}
    {next : α → HarnessSegment} (hnext : ∀ value, SegmentInTurn holds (next value)) :
    InTurn holds (inTry l operation db next).2.1 (inTry l operation db next).2.2 :=
  inTry_rule (P := fun state => InTurn holds state.1 state.2) rfl
    (fun value _ => settle_inTurn (hnext value)) fun e => settle_inTurn (turn_error e)

theorem inTurn_outside {α : Type} {operation : Database → Except PyError (α × Database)}
    {next : α → Locals × HarnessPhase}
    (hnext : ∀ value, InTurn holds (next value).1 (next value).2) :
    InTurn holds (outside l operation db next).2.1 (outside l operation db next).2.2 :=
  outside_rule (P := fun state => InTurn holds state.1 state.2) rfl (fun value _ => hnext value)
    fun _ => trivial

/-- One awaited transaction of the loop. -/
theorem inTurn_commit (rule : TurnRule registry accepts holds) {clock : ClockReadings}
    {phase : HarnessPhase} {state : Locals × HarnessPhase} (hphase : InTurn holds l phase)
    (hcommit : commit inv clock db l phase = some (after, state)) :
    InTurn holds state.1 state.2 := by
  cases phase with
  | startRun | runStarted | loadCheckpoint | runStatus _ | discardCheckpoint _
  | checkpointInvalidated _ | acknowledgeCheckpoint _ => exact hphase.elim
  | pollBeforeModel =>
      cases hcommit
      exact settle_inTurn (turn_buildContext (holds_applyControls rule hphase))
  | contextCompacted build =>
      obtain rfl := congrArg Prod.snd (Option.some.inj hcommit)
      exact inTurn_inTry fun _ => turn_requestModel hphase build
  | turnStarted build =>
      obtain rfl := congrArg Prod.snd (Option.some.inj hcommit)
      refine inTurn_inTry fun _ => turn_limited fun after hafter => ?_
      exact turn_ok (holds_charge rule hphase (enterWait_ok hafter))
  | modelCompleted build response =>
      obtain rfl := congrArg Prod.snd (Option.some.inj hcommit)
      exact inTurn_inTry fun _ => turn_poll hphase (turn_useAnswer rule hphase build clock.enterNs)
  | pollAfterModel build response =>
      cases hcommit
      have hpolled : holds (.waiting response.toolCalls []) (applyControls l (pending inv db)) :=
        holds_applyControls_waiting rule hphase
      exact settle_inTurn (turn_useAnswer rule hpolled build clock.enterNs)
  | saveAnswer build =>
      obtain rfl := congrArg Prod.snd (Option.some.inj hcommit)
      exact inTurn_inTry fun _ => turn_afterAnswerSaved rule hphase
  | acknowledgeAnswer =>
      cases hcommit
      exact settle_inTurn (turn_beginTurn rule (rule.acknowledged hphase))
  | finishAnswer outcome =>
      obtain rfl := congrArg Prod.snd (Option.some.inj hcommit)
      refine inTurn_inTry fun closed => ?_
      cases closed with
      | true => exact turn_ok trivial
      | false => exact turn_beginTurn rule hphase
  | toolRequested build calls rest =>
      obtain rfl := congrArg Prod.snd (Option.some.inj hcommit)
      exact inTurn_inTry fun _ => turn_requestTools rule hphase build clock.enterNs _
  | resultRecorded build result rest =>
      obtain rfl := congrArg Prod.snd (Option.some.inj hcommit)
      exact inTurn_inTry fun _ => turn_recordNext rule hphase build
  | pollAfterTools build =>
      cases hcommit
      exact settle_inTurn (turn_closeTurn (holds_applyControls rule hphase) build)
  | saveCheckpoint build =>
      obtain rfl := congrArg Prod.snd (Option.some.inj hcommit)
      exact inTurn_inTry fun _ => turn_afterTurnSaved rule hphase
  | acknowledgeTurn nextTurn =>
      cases hcommit
      exact rule.acknowledged hphase
  | checkpointSaved nextTurn =>
      obtain rfl := congrArg Prod.snd (Option.some.inj hcommit)
      exact inTurn_inTry fun _ => turn_beginTurn rule hphase
  | finishCancelled outcome =>
      obtain rfl := congrArg Prod.snd (Option.some.inj hcommit)
      refine inTurn_outside fun _ => ?_
      dsimp only
      split <;> trivial
  | acknowledgeCancelled outcome =>
      cases hcommit
      trivial
  | finishFailed outcome =>
      obtain rfl := congrArg Prod.snd (Option.some.inj hcommit)
      exact inTurn_outside fun _ => trivial
  | completeModel _ | modelRunning _ | executeBatch _ _ | batchRunning _ _
  | executeCall _ _ _ _ | callRunning _ _ _ _ | returned _ | raised _ => cases hcommit

theorem inTurn_cancel (rule : TurnRule registry accepts holds) {phase : HarnessPhase}
    (hphase : InTurn holds l phase) (reason : String) : InTurn holds (cancel l reason) phase := by
  cases phase with
  | startRun | runStarted | loadCheckpoint | runStatus _ | discardCheckpoint _
  | checkpointInvalidated _ | acknowledgeCheckpoint _ => exact hphase.elim
  | finishCancelled _ | finishFailed _ | acknowledgeCancelled _ | returned _ | raised _ => trivial
  | _ => exact rule.cancelled reason hphase

end Commits

end AgentHarness

end Codex2Lark
