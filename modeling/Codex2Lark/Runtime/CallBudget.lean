import Codex2Lark.Runtime.WriteBudget

/-!
The limit on tool calls over the lifetimes of a run. Every call of an answer is charged before
the first of them runs, so the ledger of a lifetime keeps its calls within the limit; over all
lifetimes the limit holds as long as no started call is forgotten.
-/

namespace Codex2Lark

open Lib

/-- The calls that are charged under a kind of budget. -/
def BudgetKind.counts : BudgetKind → ToolEffect → Bool
  | .toolCalls, _ => true
  | .externalWrites, effect => effect.isWrite
  | _, _ => false

def ToolRegistry.uses (registry : ToolRegistry) (kind : BudgetKind) (calls : List ToolCall) : Nat :=
  calls.countP fun call => kind.counts (registry.effectOf call)

def HarnessEvent.uses (kind : BudgetKind) : HarnessEvent → Bool
  | .toolStarted _ effect => kind.counts effect
  | _ => false

/-- `limits[kind]`. -/
def AgentDefinition.limit? (definition : AgentDefinition) (kind : BudgetKind) : Option Nat :=
  Dict.get? (Dict.ofEntries (definition.budgetLimits.map fun limit => (limit.kind, limit.maximum)))
    kind

/-- What a checkpoint says of a kind. -/
def RunCheckpoint.consumedOf (checkpoint : RunCheckpoint) (kind : BudgetKind) : Int :=
  Dict.getD (Dict.ofEntries checkpoint.consumedBudget) kind.value 0

/-- `started` counts the calls of the kind for which `ToolExecutor.execute` has been started. -/
structure CountedRun where
  system : RunSystem := {}
  started : Nat := 0

namespace CountedRun

def step (kind : BudgetKind) (run : RootRun) (s : CountedRun) (label : RunStep) :
    Option CountedRun :=
  (s.system.step run label).map fun system =>
    ⟨system, s.started + (s.system.events label).countP (HarnessEvent.uses kind)⟩

/-- Every lifetime runs a definition with the limit. -/
def limited (kind : BudgetKind) (n : Nat) : RunStep → Bool
  | .launch inv _ => inv.definition.limit? kind = some n
  | _ => true

/-- The calls that a resumed lifetime takes over. -/
def resumed (h : Harness) : Option RunCheckpoint → Int
  | none => 0
  | some checkpoint =>
      if AgentHarness.validateCheckpoint h.inv h.locals.fingerprint checkpoint = none then
        checkpoint.consumedOf .toolCalls
      else 0

/-- A lifetime that resumes the running run takes all of the started calls over. -/
def callsRemembered (run : RootRun) (s : CountedRun) : RunStep → Bool
  | .harness (.commit _) => s.system.harness.all fun h =>
      match h.phase with
      | .runStatus loaded =>
          SessionStore.runStatus run.runId s.system.db ≠ some .running ||
            (s.started : Int) ≤ resumed h loaded
      | _ => true
  | _ => true

end CountedRun

/-- The calls that have been charged and not been started. -/
def HarnessPhase.ahead : HarnessPhase → Nat
  | .toolRequested _ calls rest => calls.length + 1 - rest.length
  | .executeBatch _ calls => calls.length
  | .executeCall _ _ rest _ => rest.length + 1
  | .callRunning _ _ rest _ => rest.length
  | _ => 0

/-! ### The ledger of a lifetime -/

/-- A charge of another kind than the tool calls. -/
structure BudgetLedger.SameCalls (ledger after : BudgetLedger) : Prop where
  limits : after.limits = ledger.limits
  reserved : after.reserved = ledger.reserved
  calls : after.consumedOf .toolCalls = ledger.consumedOf .toolCalls

theorem BudgetLedger.SameCalls.consume {ledger after : BudgetLedger} {kind : BudgetKind}
    {amount : Int} (hkind : .toolCalls ≠ kind) (hok : ledger.consume kind amount = .ok after) :
    ledger.SameCalls after := by
  obtain ⟨_, _, hlimits, hreserved, _, hother⟩ := BudgetLedger.consume_ok hok
  exact ⟨hlimits, hreserved, hother _ hkind⟩

theorem BudgetLedger.SameCalls.consumeIfLimited {ledger after : BudgetLedger} {kind : BudgetKind}
    {amount : Int} (hkind : .toolCalls ≠ kind)
    (hok : ledger.consumeIfLimited kind amount = .ok after) : ledger.SameCalls after := by
  obtain ⟨hlimits, hreserved, hother, _⟩ := BudgetLedger.consumeIfLimited_ok hok
  exact ⟨hlimits, hreserved, hother _ hkind⟩

namespace AgentHarness

/-- The limit of the lifetime. -/
structure CallLimit (n : Nat) (ledger : BudgetLedger) : Prop where
  limit : ledger.limits.get? .toolCalls = some n
  reserved : ledger.reserved = []

/-- The started calls, and those that are still ahead, are charged; and while calls are ahead
the charge is within the limit. -/
structure Charged (n started ahead : Nat) (ledger : BudgetLedger) : Prop extends
    CallLimit n ledger where
  counted : (started + ahead : Int) ≤ ledger.consumedOf .toolCalls
  within : ahead ≠ 0 → ledger.consumedOf .toolCalls ≤ n

variable {n started ahead : Nat} {ledger after : BudgetLedger}

theorem CallLimit.contains (hlimit : CallLimit n ledger) :
    ledger.limits.contains .toolCalls = true :=
  (Dict.contains_iff_get? _ _).mpr ⟨n, hlimit.limit⟩

theorem CallLimit.available (hlimit : CallLimit n ledger) :
    ledger.available .toolCalls = n - ledger.consumedOf .toolCalls := by
  unfold BudgetLedger.available BudgetLedger.reservedOf
  rw [hlimit.reserved, Dict.getD, hlimit.limit]
  simp [Dict.getD, Dict.get?]

theorem Charged.mono {fewer : Nat} (hcharged : Charged n started ahead ledger)
    (hle : fewer ≤ ahead) : Charged n started fewer ledger := by
  refine ⟨hcharged.toCallLimit, ?_, ?_⟩
  · have hcounted := hcharged.counted
    omega
  · intro hfewer
    exact hcharged.within (by omega)

theorem Charged.spend (hcharged : Charged n started ahead ledger)
    (hsame : ledger.SameCalls after) : Charged n started ahead after := by
  refine ⟨⟨hsame.limits ▸ hcharged.limit, hsame.reserved ▸ hcharged.reserved⟩, ?_, ?_⟩
  · rw [hsame.calls]
    exact hcharged.counted
  · rw [hsame.calls]
    exact hcharged.within

/-- One more call is charged. -/
theorem Charged.request (hcharged : Charged n started ahead ledger)
    (hok : ledger.consumeIfLimited .toolCalls 1 = .ok after) :
    Charged n started (ahead + 1) after := by
  obtain ⟨hlimits, hreserved, _, hin, _⟩ := BudgetLedger.consumeIfLimited_ok hok
  obtain ⟨_, hfits, hconsumed⟩ := hin hcharged.toCallLimit.contains
  rw [hcharged.toCallLimit.available] at hfits
  refine ⟨⟨hlimits ▸ hcharged.limit, hreserved ▸ hcharged.reserved⟩, ?_, ?_⟩
  · have hcounted := hcharged.counted
    rw [hconsumed]
    push_cast
    omega
  · intro _
    rw [hconsumed]
    omega

/-- Calls that were ahead are started: they are within the limit. -/
theorem Charged.start {begun : Nat} (hcharged : Charged n started (begun + ahead) ledger) :
    Charged n (started + begun) ahead ledger ∧ (begun ≠ 0 → started + begun ≤ n) := by
  have hcounted := hcharged.counted
  push_cast at hcounted
  refine ⟨⟨hcharged.toCallLimit, ?_, fun hahead => hcharged.within (by omega)⟩, ?_⟩
  · push_cast
    omega
  · intro hbegun
    have hwithin := hcharged.within (by omega)
    omega

theorem launch_callLimit {inv : Invocation} {resume : Bool} {l : Locals} {phase : HarnessPhase}
    (hn : inv.definition.limit? .toolCalls = some n) (hlaunch : launch inv resume = .ok (l, phase)) :
    CallLimit n l.ledger ∧ l.ledger.consumedOf .toolCalls = 0 := by
  obtain ⟨fingerprint, _, hrest⟩ := PyError.bind_eq_ok.mp hlaunch
  obtain ⟨ledger, hledger, hdone⟩ := PyError.bind_eq_ok.mp hrest
  cases hdone
  unfold BudgetLedger.fromLimits at hledger
  dsimp only at hledger
  split at hledger
  · cases hledger
  · cases hledger
    exact ⟨⟨hn, rfl⟩, rfl⟩

/-! ### One turn -/

/-- The ledger at every await. Before the loop, the calls are those that the lifetime is to take
over. -/
def InCalls (n started : Nat) (l : Locals) : HarnessPhase → Prop
  | .startRun | .loadCheckpoint | .runStatus _ =>
      CallLimit n l.ledger ∧ l.ledger.consumedOf .toolCalls = 0
  | .acknowledgeCheckpoint checkpoint =>
      CallLimit n l.ledger ∧ l.ledger.consumedOf .toolCalls = 0 ∧
        (started : Int) ≤ checkpoint.consumedOf .toolCalls
  | .finishCancelled _ | .finishFailed _ | .acknowledgeCancelled _ | .returned _ | .raised _ => True
  | phase => Charged n started phase.ahead l.ledger

def SegmentInCalls (n started : Nat) (s : HarnessSegment) : Prop :=
  ∀ phase, s.2 = .ok phase → InCalls n started s.1 phase

section Segments

variable {inv : Invocation} {l : Locals}

theorem calls_ok {phase : HarnessPhase} (hphase : InCalls n started l phase) :
    SegmentInCalls n started (l, .ok phase) :=
  goesOn_ok hphase

theorem calls_error (e : PyError) : SegmentInCalls n started (l, .error e) :=
  goesOn_error e

theorem calls_limited {step : Except PyError Locals} {next : Locals → HarnessSegment}
    (hnext : ∀ after, step = .ok after → SegmentInCalls n started (next after)) :
    SegmentInCalls n started (limited l step next) :=
  goesOn_limited hnext

theorem calls_poll {phase : HarnessPhase} {next : Locals → HarnessSegment}
    (hphase : InCalls n started l phase) (hnext : SegmentInCalls n started (next l)) :
    SegmentInCalls n started (poll inv l phase next) :=
  goesOn_poll hphase hnext

theorem settle_inCalls {s : HarnessSegment} (hs : SegmentInCalls n started s) :
    InCalls n started (settle s).1 (settle s).2 :=
  settle_rule hs (fun _ _ => trivial) (fun _ _ => trivial) fun _ => trivial

theorem charged_charge {after : Locals} {nowNs : Int} (hl : Charged n started ahead l.ledger)
    (hok : charge l nowNs = .ok after) : Charged n started ahead after.ledger := by
  rcases (charge_ok hok).2 with hsame | ⟨elapsedMs, hconsumed⟩
  · rw [hsame]
    exact hl
  · exact hl.spend (.consume (by decide) hconsumed)

theorem charged_leaveWait {α : Type} {after : Locals} {nowNs : Int} {answer : Except PyError α}
    {value : α} (hl : Charged n started ahead l.ledger)
    (hok : leaveWait l nowNs answer = .ok (after, value)) :
    Charged n started ahead after.ledger := by
  rcases (leaveWait_ok hok).2 with rfl | hcharge
  · exact hl
  · exact charged_charge hl hcharge

theorem charged_recordResult {result : ToolResult} {after : Locals}
    (hl : Charged n started ahead l.ledger) (hok : recordResult l result = .ok after) :
    Charged n started ahead after.ledger := by
  have hledger := (recordResult_ok hok).2
  split at hledger
  · exact hl.spend (.consumeIfLimited (by decide) hledger)
  · rw [hledger]
    exact hl

theorem applyControls_ledger (l : Locals) (controls : List ControlRow) :
    (applyControls l controls).ledger = l.ledger := by
  unfold applyControls
  induction controls generalizing l with
  | nil => rfl
  | cons control rest ih => exact (ih (applyControl l control)).trans (applyControl_ledger l control)

theorem calls_requestModel (hl : Charged n started 0 l.ledger) (build : ContextBuild) :
    SegmentInCalls n started (requestModel inv l build) := by
  unfold requestModel
  split
  · exact calls_error _
  · exact calls_ok hl

theorem calls_buildContext (hl : Charged n started 0 l.ledger) :
    SegmentInCalls n started (buildContext inv l) := by
  unfold buildContext
  split
  · exact calls_error _
  · split
    · exact calls_error _
    · split
      · exact calls_ok hl
      · exact calls_requestModel hl _

theorem calls_closeTurn (hl : Charged n started 0 l.ledger) (build : ContextBuild) :
    SegmentInCalls n started (closeTurn l build) := by
  unfold closeTurn
  split
  · exact calls_error _
  · exact calls_ok hl

theorem calls_beginTurn (hl : Charged n started 0 l.ledger) :
    SegmentInCalls n started (beginTurn inv l) := by
  have hturn : Charged n started 0 { l with turn := l.turn + 1 }.ledger := hl
  exact calls_poll hturn (calls_buildContext hturn)

theorem calls_receiveAnswer (hl : Charged n started 0 l.ledger) (build : ContextBuild)
    (response : ModelResponse) : SegmentInCalls n started (receiveAnswer l build response) := by
  unfold receiveAnswer
  split
  · exact calls_error _
  · rename_i ledger hledger
    exact calls_ok (hl.spend (.consumeIfLimited (by decide) hledger))

theorem calls_recordNext (hl : Charged n started 0 l.ledger) (build : ContextBuild)
    (results : List ToolResult) : SegmentInCalls n started (recordNext inv l build results) := by
  cases results with
  | nil => exact calls_poll hl (calls_closeTurn hl build)
  | cons result rest =>
      apply calls_limited
      intro after hafter
      exact calls_ok (charged_recordResult hl hafter)

/-- The calls of the list are ahead. -/
theorem calls_nextCall {rest : List ToolCall} (hl : Charged n started rest.length l.ledger)
    (build : ContextBuild) (enterNs : Int) (results : List ToolResult) :
    SegmentInCalls n started (nextCall inv l build enterNs rest results) := by
  cases rest with
  | nil => exact calls_recordNext hl build results
  | cons call rest =>
      apply calls_limited
      intro after hafter
      exact calls_ok (charged_charge hl (enterWait_ok hafter))

theorem calls_executeTools {calls : List ToolCall} (hl : Charged n started calls.length l.ledger)
    (build : ContextBuild) (enterNs : Int) :
    SegmentInCalls n started (executeTools inv l build enterNs calls) := by
  unfold executeTools
  split
  · apply calls_limited
    intro after hafter
    exact calls_ok (charged_charge hl (enterWait_ok hafter))
  · exact calls_nextCall hl build enterNs []

/-- All calls but those of `rest` have been charged. -/
theorem calls_requestTools {calls rest : List ToolCall}
    (hl : Charged n started (calls.length - rest.length) l.ledger) (build : ContextBuild)
    (enterNs : Int) : SegmentInCalls n started (requestTools inv l build enterNs calls rest) := by
  unfold requestTools
  split
  · exact calls_executeTools hl build enterNs
  · split
    · exact calls_error _
    · split
      · exact calls_error _
      · rename_i ledger hledger
        refine calls_ok ((hl.request hledger).mono ?_)
        simp only [HarnessPhase.ahead]
        omega

theorem calls_useAnswer {response : ModelResponse} (hl : Charged n started 0 l.ledger)
    (build : ContextBuild) (enterNs : Int) :
    SegmentInCalls n started (useAnswer inv l build response enterNs) := by
  unfold useAnswer
  split
  · exact calls_error _
  · split
    · split
      · exact calls_ok hl
      · exact calls_ok hl
    · exact calls_requestTools (hl.mono (by omega)) build enterNs

theorem calls_afterAnswerSaved (hl : Charged n started 0 l.ledger) :
    SegmentInCalls n started (afterAnswerSaved inv l) := by
  unfold afterAnswerSaved
  split
  · exact calls_ok hl
  · exact calls_beginTurn hl

theorem calls_afterTurnSaved (hl : Charged n started 0 l.ledger) :
    SegmentInCalls n started (afterTurnSaved inv l) := by
  unfold afterTurnSaved
  split
  · exact calls_ok hl
  · exact calls_ok hl

theorem inCalls_enterLoop (hl : Charged n started 0 l.ledger) (clock : ClockReadings) :
    InCalls n started (enterLoop inv l clock).1 (enterLoop inv l clock).2 :=
  settle_inCalls (calls_beginTurn hl)

theorem inCalls_enterRestored {checkpoint : RunCheckpoint} (hlimit : CallLimit n l.ledger)
    (hfresh : l.ledger.consumedOf .toolCalls = 0)
    (hcounted : (started : Int) ≤ checkpoint.consumedOf .toolCalls) (clock : ClockReadings) :
    InCalls n started (enterRestored inv l checkpoint clock).1
      (enterRestored inv l checkpoint clock).2 := by
  unfold enterRestored
  split
  · trivial
  · rename_i ledger hledger
    have hnothing : l.ledger.consumedOf .toolCalls =
        Dict.getD [] BudgetKind.toolCalls.value 0 := hfresh
    obtain ⟨hlimits, hreserved, hconsumed⟩ :=
      restoreBudget_consumed hlimit.contains hnothing hledger
    have htaken : (started : Int) ≤ ledger.consumedOf .toolCalls := hconsumed ▸ hcounted
    refine inCalls_enterLoop ⟨⟨hlimits ▸ hlimit.limit, hreserved ▸ hlimit.reserved⟩, ?_, ?_⟩ clock
    · dsimp only
      omega
    · intro hnone
      exact absurd rfl hnone

theorem inCalls_useCheckpoint {loaded : Option RunCheckpoint} {status : Option RunStatus}
    (hlimit : CallLimit n l.ledger) (hfresh : l.ledger.consumedOf .toolCalls = 0)
    (hguard : status = some .running →
      (started : Int) ≤ CountedRun.resumed ⟨inv, l, .runStatus loaded⟩ loaded)
    (clock : ClockReadings) :
    InCalls n started (useCheckpoint inv l loaded status clock).1
      (useCheckpoint inv l loaded status clock).2 := by
  have hnone (hcounted : (started : Int) ≤ 0) : Charged n started 0 l.ledger :=
    ⟨hlimit, by rw [hfresh]; simpa using hcounted, fun hahead => absurd rfl hahead⟩
  refine useCheckpoint_rule (P := fun state => InCalls n started state.1 state.2)
    (fun _ => trivial) ?_ ?_ ?_
  · rintro hrunning rfl
    exact inCalls_enterLoop (hnone (hguard hrunning)) clock
  · rintro checkpoint reason hrunning rfl hrefused
    have hcounted := hguard hrunning
    unfold CountedRun.resumed at hcounted
    dsimp only at hcounted
    rw [hrefused, if_neg (Option.some_ne_none reason)] at hcounted
    exact hnone hcounted
  · rintro checkpoint hrunning rfl haccepted
    have hcounted := hguard hrunning
    unfold CountedRun.resumed at hcounted
    dsimp only at hcounted
    rw [haccepted, if_pos rfl] at hcounted
    have hrestored : CallLimit n (restore l checkpoint).ledger := hlimit
    exact ⟨fun _ => ⟨hlimit, hfresh, hcounted⟩,
      inCalls_enterRestored hrestored hfresh hcounted clock⟩

end Segments

/-! ### One step of a lifetime -/

section Steps

variable {inv : Invocation} {l : Locals} {db next : Database} {clock : ClockReadings}
  {state : Locals × HarnessPhase}

theorem inCalls_inTry {α : Type} {operation : Database → Except PyError (α × Database)}
    {segment : α → HarnessSegment} (hsegment : ∀ value, SegmentInCalls n started (segment value)) :
    InCalls n started (inTry l operation db segment).2.1 (inTry l operation db segment).2.2 :=
  inTry_rule (P := fun state => InCalls n started state.1 state.2) rfl
    (fun value _ => settle_inCalls (hsegment value)) fun e => settle_inCalls (calls_error e)

theorem inCalls_outside {α : Type} {operation : Database → Except PyError (α × Database)}
    {goesOn : α → Locals × HarnessPhase}
    (hgoesOn : ∀ value next, operation db = .ok (value, next) →
      InCalls n started (goesOn value).1 (goesOn value).2) :
    InCalls n started (outside l operation db goesOn).2.1 (outside l operation db goesOn).2.2 :=
  outside_rule (P := fun state => InCalls n started state.1 state.2) rfl
    (fun value => hgoesOn value _) fun _ => trivial

/-- One awaited transaction. -/
theorem inCalls_commit {phase : HarnessPhase} (hlive : InCalls n started l phase)
    (hfresh : phase = .startRun → SessionStore.runStatus inv.request.runId db = none → started = 0)
    (hguard : ∀ loaded, phase = .runStatus loaded →
      SessionStore.runStatus inv.request.runId db = some .running →
        (started : Int) ≤ CountedRun.resumed ⟨inv, l, phase⟩ loaded)
    (hcommit : commit inv clock db l phase = some (next, state)) :
    InCalls n started state.1 state.2 := by
  cases phase with
  | startRun =>
      obtain ⟨hlimit, hzero⟩ := hlive
      obtain rfl := congrArg Prod.snd (Option.some.inj hcommit)
      refine inCalls_outside fun value after hstart => ?_
      have hnone := (SessionStore.startRun_status hstart inv.request.runId).1
      refine ⟨hlimit, ?_, fun hahead => absurd rfl hahead⟩
      rw [hzero, hfresh rfl hnone]
      rfl
  | runStarted =>
      obtain rfl := congrArg Prod.snd (Option.some.inj hcommit)
      exact inCalls_outside fun _ _ _ => inCalls_enterLoop hlive clock
  | loadCheckpoint =>
      cases hcommit
      exact hlive
  | runStatus loaded =>
      cases hcommit
      exact inCalls_useCheckpoint hlive.1 hlive.2 (hguard loaded rfl) clock
  | discardCheckpoint reason =>
      obtain rfl := congrArg Prod.snd (Option.some.inj hcommit)
      exact inCalls_outside fun _ _ _ => hlive
  | checkpointInvalidated reason =>
      obtain rfl := congrArg Prod.snd (Option.some.inj hcommit)
      exact inCalls_outside fun _ _ _ => inCalls_enterLoop hlive clock
  | acknowledgeCheckpoint checkpoint =>
      cases hcommit
      exact inCalls_enterRestored hlive.1 hlive.2.1 hlive.2.2 clock
  | pollBeforeModel =>
      cases hcommit
      refine settle_inCalls (calls_buildContext ?_)
      rw [applyControls_ledger]
      exact hlive
  | contextCompacted build =>
      obtain rfl := congrArg Prod.snd (Option.some.inj hcommit)
      exact inCalls_inTry fun _ => calls_requestModel hlive build
  | turnStarted build =>
      obtain rfl := congrArg Prod.snd (Option.some.inj hcommit)
      refine inCalls_inTry fun _ => calls_limited fun after hafter => ?_
      exact calls_ok (charged_charge hlive (enterWait_ok hafter))
  | modelCompleted build response =>
      obtain rfl := congrArg Prod.snd (Option.some.inj hcommit)
      exact inCalls_inTry fun _ => calls_poll hlive (calls_useAnswer hlive build clock.enterNs)
  | pollAfterModel build response =>
      cases hcommit
      refine settle_inCalls (calls_useAnswer ?_ build clock.enterNs)
      rw [applyControls_ledger]
      exact hlive
  | saveAnswer build =>
      obtain rfl := congrArg Prod.snd (Option.some.inj hcommit)
      exact inCalls_inTry fun _ => calls_afterAnswerSaved hlive
  | acknowledgeAnswer =>
      cases hcommit
      exact settle_inCalls (calls_beginTurn hlive)
  | finishAnswer outcome =>
      obtain rfl := congrArg Prod.snd (Option.some.inj hcommit)
      refine inCalls_inTry fun closed => ?_
      cases closed with
      | true => exact calls_ok trivial
      | false => exact calls_beginTurn hlive
  | toolRequested build calls rest =>
      obtain rfl := congrArg Prod.snd (Option.some.inj hcommit)
      refine inCalls_inTry fun _ => calls_requestTools (Charged.mono hlive ?_) build clock.enterNs
      simp only [HarnessPhase.ahead, List.length_tail]
      omega
  | resultRecorded build result rest =>
      obtain rfl := congrArg Prod.snd (Option.some.inj hcommit)
      exact inCalls_inTry fun _ => calls_recordNext hlive build rest
  | pollAfterTools build =>
      cases hcommit
      refine settle_inCalls (calls_closeTurn ?_ build)
      rw [applyControls_ledger]
      exact hlive
  | saveCheckpoint build =>
      obtain rfl := congrArg Prod.snd (Option.some.inj hcommit)
      exact inCalls_inTry fun _ => calls_afterTurnSaved hlive
  | acknowledgeTurn nextTurn =>
      cases hcommit
      exact hlive
  | checkpointSaved nextTurn =>
      obtain rfl := congrArg Prod.snd (Option.some.inj hcommit)
      exact inCalls_inTry fun _ => calls_beginTurn hlive
  | finishCancelled outcome =>
      obtain rfl := congrArg Prod.snd (Option.some.inj hcommit)
      refine inCalls_outside fun _ _ _ => ?_
      dsimp only
      split <;> trivial
  | acknowledgeCancelled outcome =>
      cases hcommit
      trivial
  | finishFailed outcome =>
      obtain rfl := congrArg Prod.snd (Option.some.inj hcommit)
      exact inCalls_outside fun _ _ _ => trivial
  | completeModel _ | modelRunning _ | executeBatch _ _ | batchRunning _ _
  | executeCall _ _ _ _ | callRunning _ _ _ _ | returned _ | raised _ => cases hcommit

theorem uses_started (registry : ToolRegistry) (kind : BudgetKind) (calls : List ToolCall) :
    (calls.map (AgentHarness.started registry)).countP (HarnessEvent.uses kind) =
      registry.uses kind calls := by
  unfold ToolRegistry.uses
  rw [List.countP_map]
  rfl

theorem uses_returned (kind : BudgetKind) (entries : List (ToolCall × ToolResult)) :
    (entries.map fun entry => HarnessEvent.toolReturned entry.1 entry.2).countP
      (HarnessEvent.uses kind) = 0 := by
  rw [List.countP_map]
  simp [Function.comp_def, HarnessEvent.uses]

theorem uses_afterBatch (kind : BudgetKind) (build : ContextBuild) (calls : List ToolCall)
    (answer : Except PyError (List ToolResult)) :
    (afterBatch inv l build calls answer clock).1.countP (HarnessEvent.uses kind) = 0 := by
  unfold afterBatch
  split
  · rfl
  · exact uses_returned kind _

theorem uses_afterCall (kind : BudgetKind) (build : ContextBuild) (call : ToolCall)
    (rest : List ToolCall) (results : List ToolResult) (answer : Except PyError ToolResult) :
    (afterCall inv l build call rest results answer clock).1.countP (HarnessEvent.uses kind) = 0 := by
  unfold afterCall
  split <;> rfl

theorem uses_toolCalls (registry : ToolRegistry) (calls : List ToolCall) :
    registry.uses .toolCalls calls = calls.length := by
  unfold ToolRegistry.uses
  exact List.countP_true ▸ rfl

/-- The steps that are no transactions: the started calls are within the limit, and charged. -/
theorem inCalls_step {h h' : Harness} {label : HarnessLabel} {events : List HarnessEvent}
    (hlabel : ∀ clock, label ≠ .commit clock) (hlive : InCalls n started h.locals h.phase)
    (hbound : started ≤ n) (hstep : h.step db label = some (next, h', events)) :
    InCalls n (started + events.countP (HarnessEvent.uses .toolCalls)) h'.locals h'.phase ∧
      started + events.countP (HarnessEvent.uses .toolCalls) ≤ n := by
  obtain ⟨inv, l, phase⟩ := h
  cases label with
  | commit clock => exact absurd rfl (hlabel clock)
  | begin =>
      simp only [Harness.step] at hstep
      cases phase with
      | completeModel build =>
          cases hstep
          exact ⟨hlive, hbound⟩
      | executeBatch build calls =>
          cases hstep
          rw [uses_started, uses_toolCalls]
          have hall : Charged n started (calls.length + 0) l.ledger := hlive
          obtain ⟨hcharged, hwithin⟩ := hall.start
          refine ⟨hcharged, ?_⟩
          by_cases hnone : calls.length = 0
          · omega
          · exact hwithin hnone
      | executeCall build call rest results =>
          cases hstep
          have hone : Charged n started (1 + rest.length) l.ledger :=
            Charged.mono hlive (by simp only [HarnessPhase.ahead]; omega)
          obtain ⟨hcharged, hwithin⟩ := hone.start
          exact ⟨hcharged, hwithin Nat.one_ne_zero⟩
      | _ => cases hstep
  | model answer clock =>
      simp only [Harness.step] at hstep
      cases phase with
      | modelRunning build =>
          cases hstep
          refine ⟨settle_inCalls ?_, hbound⟩
          unfold afterModel
          cases hwait : leaveWait l clock.leaveNs answer with
          | error e => exact calls_error e
          | ok result => exact calls_receiveAnswer (charged_leaveWait hlive hwait) build result.2
      | _ => cases hstep
  | batch answer clock =>
      simp only [Harness.step] at hstep
      cases phase with
      | batchRunning build calls =>
          cases hstep
          rw [uses_afterBatch]
          refine ⟨settle_inCalls ?_, hbound⟩
          unfold afterBatch
          cases hwait : leaveWait l clock.leaveNs (answer.bind (batchResults inv.registry calls)) with
          | error e => exact calls_error e
          | ok result => exact calls_recordNext (charged_leaveWait hlive hwait) build result.2
      | _ => cases hstep
  | tool answer clock =>
      simp only [Harness.step] at hstep
      cases phase with
      | callRunning build call rest results =>
          cases hstep
          rw [uses_afterCall]
          refine ⟨settle_inCalls ?_, hbound⟩
          unfold afterCall
          cases hwait : leaveWait l clock.leaveNs
              (answer.bind (ToolExecutor.execute inv.registry call)) with
          | error e => exact calls_error e
          | ok result =>
              exact calls_nextCall (charged_leaveWait hlive hwait) build clock.enterNs _
      | _ => cases hstep
  | cancelToken reason =>
      simp only [Harness.step] at hstep
      split at hstep
      · cases hstep
      · cases hstep
        refine ⟨?_, hbound⟩
        cases phase <;> exact hlive
  | abort =>
      simp only [Harness.step] at hstep
      split at hstep <;> cases hstep
      exact ⟨trivial, hbound⟩

end Steps

end AgentHarness

namespace CountedRun

open AgentHarness

variable {run : RootRun} {n : Nat}

/-! ### Runs -/

/-- The invariant: no call has been started in a run without a row. -/
structure CallsOk (run : RootRun) (n : Nat) (s : CountedRun) : Prop where
  attached : s.system.Attached run
  known : s.started ≠ 0 → SessionStore.runStatus run.runId s.system.db ≠ none
  bounded : s.started ≤ n
  live : ∀ h, s.system.harness = some h → InCalls n s.started h.locals h.phase

theorem callsOk_start : CallsOk run n {} := by
  constructor
  · exact RunSystem.attached_of_none rfl
  · intro hstarted
    exact absurd rfl hstarted
  · exact Nat.zero_le n
  · intro h hh
    cases hh

theorem callsOk_harness {s : CountedRun} {t : RunSystem} {label : HarnessLabel}
    (hs : s.CallsOk run n) (hguard : s.callsRemembered run (.harness label) = true)
    (hstep : s.system.step run (.harness label) = some t) :
    CallsOk run n
      ⟨t, s.started + (s.system.events (.harness label)).countP (HarnessEvent.uses .toolCalls)⟩ := by
  have hattached := RunSystem.attached_step hs.attached hstep
  have hknown := RunSystem.known_step hs.attached hstep
  obtain ⟨h, after, h', events, hh, hnext, rfl⟩ := RunSystem.harness_cases hstep
  rw [WriteSystem.events_harness hh hnext]
  have hrunId := (hs.attached.owns h hh).1
  have hlive := hs.live h hh
  by_cases hlabel : ∃ clock, label = .commit clock
  · obtain ⟨clock, rfl⟩ := hlabel
    obtain ⟨state, hcommit, rfl, rfl⟩ := Harness.commit_cases hnext
    refine ⟨hattached, fun hstarted => hknown (hs.known hstarted), hs.bounded, ?_⟩
    intro other hother
    obtain rfl := Option.some.inj hother
    refine inCalls_commit hlive (fun _ hnone => ?_) (fun loaded hphase hrunning => ?_) hcommit
    · by_contra hstarted
      have hstatus : SessionStore.runStatus run.runId s.system.db = none := hrunId ▸ hnone
      exact hs.known hstarted hstatus
    · have hstatus : SessionStore.runStatus run.runId s.system.db = some .running :=
        hrunId ▸ hrunning
      have hcounted : (s.started : Int) ≤ resumed h loaded := by
        simpa [callsRemembered, hh, hphase, hstatus] using hguard
      exact hcounted
  · have hcommits : ∀ clock, label ≠ .commit clock := fun clock h => hlabel ⟨clock, h⟩
    obtain ⟨rfl, _⟩ := Harness.step_database hcommits hnext
    obtain ⟨hafter, hbound⟩ := inCalls_step hcommits hlive hs.bounded hnext
    refine ⟨hattached, ?_, hbound, ?_⟩
    · intro hstarted
      cases hactive : h.phase.isActive with
      | true =>
          rw [hs.attached.running h hh hactive]
          nofun
      | false =>
          rw [Harness.idle_events hactive hnext] at hstarted
          exact hs.known hstarted
    · intro other hother
      obtain rfl := Option.some.inj hother
      exact hafter

theorem callsOk_step {s t : CountedRun} {label : RunStep} (hs : s.CallsOk run n)
    (hlimited : limited .toolCalls n label = true) (hguard : s.callsRemembered run label = true)
    (hstep : s.step .toolCalls run label = some t) : t.CallsOk run n := by
  obtain ⟨system, hsystem, rfl⟩ := Option.map_eq_some_iff.mp hstep
  have hattached := RunSystem.attached_step hs.attached hsystem
  have hknown := RunSystem.known_step hs.attached hsystem
  cases label with
  | harness label => exact callsOk_harness hs hguard hsystem
  | store op =>
      obtain ⟨_, rfl⟩ := RunSystem.store_cases hsystem
      exact ⟨hattached, fun hstarted => hknown (hs.known hstarted), hs.bounded, hs.live⟩
  | launch inv resume =>
      refine ⟨hattached, fun hstarted => hknown (hs.known hstarted), hs.bounded, ?_⟩
      intro h hh
      have hn : inv.definition.limit? .toolCalls = some n := of_decide_eq_true hlimited
      obtain ⟨l, phase, hlaunch, rfl⟩ := RunSystem.launched hsystem hh
      have hfresh := launch_callLimit hn hlaunch
      obtain ⟨_, _, _, hphase⟩ := AgentHarness.launch_ok hlaunch
      subst hphase
      cases resume with
      | false => exact hfresh
      | true => exact hfresh
  | crash =>
      obtain rfl := RunSystem.crash_cases hsystem
      refine ⟨hattached, fun hstarted => hknown (hs.known hstarted), hs.bounded, ?_⟩
      intro h hh
      cases hh

/-- Over any crashes and resumes: when every resumed lifetime takes over the calls that have been
started, no more calls are started than the limit allows. -/
theorem started_calls_bounded (run : RootRun) (n : Nat) (steps : List RunStep)
    (hguard : Along (step .toolCalls run)
      (fun s label => limited .toolCalls n label = true ∧ s.callsRemembered run label = true)
      steps {}) :
    Always (step .toolCalls run) (fun s => s.started ≤ n) steps {} :=
  always_of_invariant (fun _ _ _ hs hl hstep => callsOk_step hs hl.1 hl.2 hstep)
    (fun _ hs => hs.bounded) callsOk_start hguard

end CountedRun

end Codex2Lark
