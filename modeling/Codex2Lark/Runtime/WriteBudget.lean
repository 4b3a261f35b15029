import Codex2Lark.Runtime.EffectGate
import Codex2Lark.Runtime.TurnRule

/-!
The limit on external writes over the lifetimes of a run. A call is charged after it has run,
and a resumed lifetime knows the writes that its checkpoint has counted; so the limit holds
as long as no answer asks for more writes than are left, and no started write is forgotten.
-/

namespace Codex2Lark

open Lib

/-- `limits[EXTERNAL_WRITES]`. -/
def AgentDefinition.externalWrites (definition : AgentDefinition) : Option Nat :=
  Dict.get? (Dict.ofEntries (definition.budgetLimits.map fun limit => (limit.kind, limit.maximum)))
    .externalWrites

/-- The writing calls among the calls of an answer. -/
def ToolRegistry.writes (registry : ToolRegistry) (calls : List ToolCall) : Nat :=
  calls.countP fun call => (registry.effectOf call).isWrite

def HarnessEvent.isWriteStart : HarnessEvent → Bool
  | .toolStarted _ effect => effect.isWrite
  | _ => false

/-- What a checkpoint says of the external writes. -/
def RunCheckpoint.externalWrites (checkpoint : RunCheckpoint) : Int :=
  Dict.getD (Dict.ofEntries checkpoint.consumedBudget) BudgetKind.externalWrites.value 0

namespace RunSystem

/-- The history of one step. -/
def events (s : RunSystem) : RunStep → List HarnessEvent
  | .harness label => (s.harness.bind fun h => h.step s.db label).elim [] fun result => result.2.2
  | _ => []

theorem launched {run : RootRun} {s t : RunSystem} {inv : Invocation} {resume : Bool}
    (hstep : s.step run (.launch inv resume) = some t) {h : Harness} (hh : t.harness = some h) :
    ∃ l phase, AgentHarness.launch inv resume = .ok (l, phase) ∧ h = ⟨inv, l, phase⟩ := by
  simp only [step] at hstep
  split at hstep
  · cases hlaunch : AgentHarness.launch inv resume with
    | error e =>
        rw [hlaunch] at hstep
        cases hstep
        cases hh
    | ok state =>
        rw [hlaunch] at hstep
        cases hstep
        exact ⟨state.1, state.2, rfl, (Option.some.inj hh).symm⟩
  · cases hstep

end RunSystem

/-- `started` counts the writing calls for which `ToolExecutor.execute` has been started. -/
structure WriteSystem where
  system : RunSystem := {}
  started : Nat := 0

namespace WriteSystem

def step (run : RootRun) (s : WriteSystem) (label : RunStep) : Option WriteSystem :=
  (s.system.step run label).map fun system =>
    ⟨system, s.started + (s.system.events label).countP HarnessEvent.isWriteStart⟩

/-- Every lifetime runs a definition with the limit. -/
def limited (n : Nat) : RunStep → Bool
  | .launch inv _ => inv.definition.externalWrites = some n
  | _ => true

/-- The writes that a resumed lifetime takes over. -/
def resumed (h : Harness) : Option RunCheckpoint → Int
  | none => 0
  | some checkpoint =>
      if AgentHarness.validateCheckpoint h.inv h.locals.fingerprint checkpoint = none then
        checkpoint.externalWrites
      else 0

/-- The writes among the calls are left in the budget. -/
def fits (h : Harness) (calls : List ToolCall) : Bool :=
  h.inv.registry.writes calls = 0 ||
    (h.inv.registry.writes calls : Int) ≤ h.locals.ledger.available .externalWrites

/-- The calls of an answer whose execution is about to begin. -/
def beginning : HarnessPhase → Option (List ToolCall)
  | .executeBatch _ calls => some calls
  | .executeCall _ call rest [] => some (call :: rest)
  | _ => none

/-- No batch begins that asks for more writes than are left; and a lifetime that resumes the
running run takes all of the started writes over from its checkpoint. -/
def writesCounted (run : RootRun) (s : WriteSystem) : RunStep → Bool
  | .harness .begin => s.system.harness.all fun h => (beginning h.phase).all (fits h)
  | .harness (.commit _) => s.system.harness.all fun h =>
      match h.phase with
      | .runStatus loaded =>
          SessionStore.runStatus run.runId s.system.db ≠ some .running ||
            (s.started : Int) ≤ resumed h loaded
      | _ => true
  | _ => true

end WriteSystem

/-! ### The ledger of a lifetime -/

theorem BudgetKind.value_injective : Function.Injective BudgetKind.value := by
  intro a b hvalue
  cases a <;> cases b <;> first | rfl | simp [BudgetKind.value] at hvalue

namespace AgentHarness

/-- The limit of the lifetime. -/
def Limited (n : Nat) (ledger : BudgetLedger) : Prop :=
  ledger.limits.get? .externalWrites = some n ∧ ledger.reserved = []

theorem Limited.available {n : Nat} {ledger : BudgetLedger} (hlimited : Limited n ledger) :
    ledger.available .externalWrites = n - ledger.consumedOf .externalWrites := by
  unfold BudgetLedger.available BudgetLedger.reservedOf
  rw [hlimited.2, Dict.getD, hlimited.1]
  simp [Dict.getD, Dict.get?]

theorem Limited.contains {n : Nat} {ledger : BudgetLedger} (hlimited : Limited n ledger) :
    ledger.limits.contains .externalWrites = true :=
  (Dict.contains_iff_get? _ _).mpr ⟨n, hlimited.1⟩

theorem Limited.spend {n : Nat} {ledger after : BudgetLedger} (hlimited : Limited n ledger)
    (hsame : ledger.SameWrites after) : Limited n after := by
  unfold Limited
  rw [hsame.limits, hsame.reserved]
  exact hlimited

theorem launch_limited {inv : Invocation} {resume : Bool} {l : Locals} {phase : HarnessPhase}
    {n : Nat} (hn : inv.definition.externalWrites = some n)
    (hlaunch : launch inv resume = .ok (l, phase)) :
    Limited n l.ledger ∧ l.ledger.consumedOf .externalWrites = 0 := by
  obtain ⟨fingerprint, _, hrest⟩ := PyError.bind_eq_ok.mp hlaunch
  obtain ⟨ledger, hledger, hdone⟩ := PyError.bind_eq_ok.mp hrest
  cases hdone
  unfold BudgetLedger.fromLimits at hledger
  dsimp only at hledger
  split at hledger
  · cases hledger
  · cases hledger
    exact ⟨⟨hn, rfl⟩, rfl⟩

/-- The loop over `consumed_budget` sets what the checkpoint says of a limited kind. -/
theorem restoreBudget_consumed {kind : BudgetKind} {budget : Dict String Int}
    {ledger after : BudgetLedger} {counted : Dict String Int}
    (hlimited : ledger.limits.contains kind = true)
    (hbefore : ledger.consumedOf kind = counted.getD kind.value 0)
    (hok : restoreBudget budget ledger = .ok after) :
    after.limits = ledger.limits ∧ after.reserved = ledger.reserved ∧ after.consumedOf kind =
      Dict.getD (budget.foldl (fun d entry => Dict.set d entry.1 entry.2) counted) kind.value 0 := by
  induction budget generalizing ledger counted with
  | nil =>
      cases hok
      exact ⟨rfl, rfl, hbefore⟩
  | cons entry rest ih =>
      obtain ⟨key, amount⟩ := entry
      unfold restoreBudget at hok
      cases hentry : BudgetKind.ofValue? key with
      | none => simp [hentry] at hok
      | some entryKind =>
          simp only [hentry] at hok
          have hkey : entryKind.value = key := by simpa using List.find?_some hentry
          rw [List.foldl_cons]
          have hstep : ∀ next, next = (if ledger.limits.contains entryKind then
              { ledger with consumed := ledger.consumed.set entryKind amount } else ledger) →
              next.limits = ledger.limits ∧ next.reserved = ledger.reserved ∧
                next.consumedOf kind = (counted.set key amount).getD kind.value 0 := by
            rintro _ rfl
            by_cases hkind : entryKind = kind
            · subst hkind
              rw [if_pos hlimited]
              simp [BudgetLedger.consumedOf, Dict.getD_set_self, ← hkey]
            · have hother : kind.value ≠ key := by
                rw [← hkey]
                exact BudgetKind.value_injective.ne (Ne.symm hkind)
              rw [Dict.getD_set_ne _ _ _ hother, ← hbefore]
              split
              · simp [BudgetLedger.consumedOf, Dict.getD_set_ne _ _ _ (Ne.symm hkind)]
              · simp
          obtain ⟨hlimits, hreserved, hconsumed⟩ := hstep _ rfl
          obtain ⟨hlimits', hreserved', hafter⟩ := ih (by rwa [hlimits]) hconsumed hok
          exact ⟨hlimits'.trans hlimits, hreserved'.trans hreserved, hafter⟩

theorem restoreBudget_writes {n : Nat} {budget : Dict String Int} {ledger after : BudgetLedger}
    {counted : Dict String Int} (hlimited : Limited n ledger)
    (hbefore : ledger.consumedOf .externalWrites =
      counted.getD BudgetKind.externalWrites.value 0)
    (hok : restoreBudget budget ledger = .ok after) :
    Limited n after ∧ after.consumedOf .externalWrites =
      Dict.getD (budget.foldl (fun d entry => Dict.set d entry.1 entry.2) counted)
        BudgetKind.externalWrites.value 0 := by
  obtain ⟨hlimits, hreserved, hconsumed⟩ :=
    restoreBudget_consumed hlimited.contains hbefore hok
  exact ⟨⟨hlimits ▸ hlimited.1, hreserved ▸ hlimited.2⟩, hconsumed⟩

/-! ### One turn -/

def writeResults (results : List ToolResult) : Nat := results.countP fun result => result.effect.isWrite

/-- With `started` writes: those of recorded results are charged, and once a batch has begun
there is room for its calls that have not been started. -/
def WritesAt (registry : ToolRegistry) (n started : Nat) : TurnPoint → Locals → Prop
  | .quiet, l => Limited n l.ledger ∧ (started : Int) ≤ l.ledger.consumedOf .externalWrites
  | .waiting calls results, l => Limited n l.ledger ∧
      (results ≠ [] → started + registry.writes calls ≤ n) ∧
      (started : Int) ≤ l.ledger.consumedOf .externalWrites + writeResults results
  | .running calls rest results, l => Limited n l.ledger ∧ started + registry.writes rest ≤ n ∧
      (started : Int) ≤ l.ledger.consumedOf .externalWrites + writeResults results +
        registry.writes calls

theorem writeResults_answers {registry : ToolRegistry} {calls : List ToolCall}
    {answers : List ToolResult} (hanswers : List.Forall₂ (Answers registry) calls answers) :
    writeResults answers = registry.writes calls := by
  induction hanswers with
  | nil => rfl
  | cons hanswer _ ih =>
      unfold writeResults ToolRegistry.writes at ih ⊢
      rw [List.countP_cons, List.countP_cons, ih, hanswer.2.2]

theorem applyControl_ledger (l : Locals) (control : ControlRow) :
    (applyControl l control).ledger = l.ledger := by
  unfold applyControl
  split
  · split <;> rfl
  · dsimp only
    split <;> rfl

theorem writes_rule (registry : ToolRegistry) (n started : Nat) :
    TurnRule registry (fun _ => True) (WritesAt registry n started) where
  turn hl := hl
  acknowledged hl := hl
  spend := by
    intro point l ledger lastNs remainderNs hsame hl
    cases point with
    | quiet => exact ⟨hl.1.spend hsame, hsame.writes ▸ hl.2⟩
    | waiting calls results => exact ⟨hl.1.spend hsame, hl.2.1, hsame.writes ▸ hl.2.2⟩
    | running calls rest results => exact ⟨hl.1.spend hsame, hl.2.1, hsame.writes ▸ hl.2.2⟩
  answer := by
    intro l response _ hl
    exact ⟨hl.1, fun hsome => absurd rfl hsome, by simpa [writeResults] using hl.2⟩
  returned := by
    intro calls rest results answers l hl hanswers
    refine ⟨hl.1, fun _ => hl.2.1, ?_⟩
    have hnew := writeResults_answers hanswers
    have hcounted := hl.2.2
    unfold writeResults at hnew hcounted ⊢
    rw [List.countP_append]
    omega
  record := by
    intro result rest l after hl hrecord
    obtain ⟨hlimited, hroom, hcounted⟩ := hl
    have hroom : rest ≠ [] → started + registry.writes [] ≤ n := fun _ => hroom (List.cons_ne_nil _ _)
    have hledger := (recordResult_ok hrecord).2
    unfold writeResults at hcounted
    rw [List.countP_cons] at hcounted
    cases hwrite : result.effect.isWrite with
    | false =>
        rw [hwrite] at hledger hcounted
        simp only [Bool.false_eq_true, if_false] at hledger hcounted
        rw [WritesAt, hledger]
        exact ⟨hlimited, hroom, by simpa [writeResults] using hcounted⟩
    | true =>
        rw [hwrite] at hledger hcounted
        simp only [if_true] at hledger hcounted
        obtain ⟨hlimits, hreserved, _, hcharged, _⟩ := BudgetLedger.consumeIfLimited_ok hledger
        obtain ⟨_, _, hconsumed⟩ := hcharged hlimited.contains
        refine ⟨?_, hroom, ?_⟩
        · unfold Limited
          rw [hlimits, hreserved]
          exact hlimited
        · rw [hconsumed]
          unfold writeResults
          push_cast at hcounted
          omega
  finished := by
    intro l hl
    exact ⟨hl.1, by simpa [writeResults] using hl.2.2⟩
  control := by
    intro l control hl
    rw [WritesAt, applyControl_ledger]
    exact hl
  controlWaiting := by
    intro calls l control hl
    rw [WritesAt, applyControl_ledger]
    exact hl
  cancelled := by
    intro point l reason hl
    cases point <;> exact hl

/-! ### One step of a lifetime -/

/-- The annotation at every await. Before the loop, the writes are those that the lifetime is
to take over. -/
def LiveWrites (n started : Nat) (h : Harness) : Prop :=
  match h.phase with
  | .startRun | .loadCheckpoint | .runStatus _ =>
      Limited n h.locals.ledger ∧ h.locals.ledger.consumedOf .externalWrites = 0
  | .runStarted | .discardCheckpoint _ | .checkpointInvalidated _ =>
      WritesAt h.inv.registry n started .quiet h.locals
  | .acknowledgeCheckpoint checkpoint =>
      Limited n h.locals.ledger ∧ h.locals.ledger.consumedOf .externalWrites = 0 ∧
        (started : Int) ≤ checkpoint.externalWrites
  | phase => InTurn (WritesAt h.inv.registry n started) h.locals phase

theorem countP_started {registry : ToolRegistry} (calls : List ToolCall) :
    (calls.map (started registry)).countP HarnessEvent.isWriteStart = registry.writes calls := by
  unfold ToolRegistry.writes
  rw [List.countP_map]
  rfl

theorem countP_returned (entries : List (ToolCall × ToolResult)) :
    (entries.map fun entry => HarnessEvent.toolReturned entry.1 entry.2).countP
      HarnessEvent.isWriteStart = 0 := by
  rw [List.countP_map]
  simp [Function.comp_def, HarnessEvent.isWriteStart]

variable {n started : Nat} {inv : Invocation} {l : Locals} {db after : Database}
  {clock : ClockReadings} {state : Locals × HarnessPhase}

theorem liveWrites_of_inTurn
    (hturn : InTurn (WritesAt inv.registry n started) state.1 state.2) :
    LiveWrites n started ⟨inv, state.1, state.2⟩ := by
  obtain ⟨l, phase⟩ := state
  cases phase with
  | startRun | runStarted | loadCheckpoint | runStatus _ | discardCheckpoint _
  | checkpointInvalidated _ | acknowledgeCheckpoint _ => exact hturn.elim
  | _ => exact hturn

theorem liveWrites_enterLoop (hl : WritesAt inv.registry n started .quiet l) :
    LiveWrites n started ⟨inv, (enterLoop inv l clock).1, (enterLoop inv l clock).2⟩ :=
  liveWrites_of_inTurn (inTurn_enterLoop (writes_rule inv.registry n started) hl clock)

theorem liveWrites_enterRestored {checkpoint : RunCheckpoint} (hlimited : Limited n l.ledger)
    (hfresh : l.ledger.consumedOf .externalWrites = 0)
    (hcounted : (started : Int) ≤ checkpoint.externalWrites) :
    LiveWrites n started ⟨inv, (enterRestored inv l checkpoint clock).1,
      (enterRestored inv l checkpoint clock).2⟩ := by
  refine liveWrites_of_inTurn (inTurn_enterRestored (writes_rule inv.registry n started) ?_)
  intro ledger hledger
  have hnothing : l.ledger.consumedOf .externalWrites =
      Dict.getD [] BudgetKind.externalWrites.value 0 := hfresh
  obtain ⟨hafter, hconsumed⟩ := restoreBudget_writes hlimited hnothing hledger
  exact ⟨hafter, hconsumed ▸ hcounted⟩

theorem liveWrites_useCheckpoint {loaded : Option RunCheckpoint} {status : Option RunStatus}
    (hlimited : Limited n l.ledger) (hfresh : l.ledger.consumedOf .externalWrites = 0)
    (hguard : status = some .running → (started : Int) ≤ WriteSystem.resumed ⟨inv, l, .runStatus loaded⟩ loaded) :
    LiveWrites n started ⟨inv, (useCheckpoint inv l loaded status clock).1,
      (useCheckpoint inv l loaded status clock).2⟩ := by
  refine useCheckpoint_rule (P := fun state => LiveWrites n started ⟨inv, state.1, state.2⟩)
    (fun _ => trivial) ?_ ?_ ?_
  · rintro hrunning rfl
    refine liveWrites_enterLoop ⟨hlimited, ?_⟩
    rw [hfresh]
    exact hguard hrunning
  · rintro checkpoint reason hrunning rfl hrefused
    have hcounted := hguard hrunning
    unfold WriteSystem.resumed at hcounted
    dsimp only at hcounted
    rw [hrefused, if_neg (Option.some_ne_none reason)] at hcounted
    refine ⟨hlimited, ?_⟩
    dsimp only
    rw [hfresh]
    exact hcounted
  · rintro checkpoint hrunning rfl haccepted
    have hcounted := hguard hrunning
    unfold WriteSystem.resumed at hcounted
    dsimp only at hcounted
    rw [haccepted, if_pos rfl] at hcounted
    exact ⟨fun _ => ⟨hlimited, hfresh, hcounted⟩, liveWrites_enterRestored hlimited hfresh hcounted⟩

theorem liveWrites_outside {α : Type} {operation : Database → Except PyError (α × Database)}
    {next : α → Locals × HarnessPhase}
    (hnext : ∀ value after, operation db = .ok (value, after) →
      LiveWrites n started ⟨inv, (next value).1, (next value).2⟩) :
    LiveWrites n started
      ⟨inv, (outside l operation db next).2.1, (outside l operation db next).2.2⟩ :=
  outside_rule (P := fun state => LiveWrites n started ⟨inv, state.1, state.2⟩) rfl
    (fun value => hnext value _) fun _ => trivial

theorem liveWrites_commit {phase : HarnessPhase} (hlive : LiveWrites n started ⟨inv, l, phase⟩)
    (hfresh : phase = .startRun → SessionStore.runStatus inv.request.runId db = none → started = 0)
    (hguard : ∀ loaded, phase = .runStatus loaded →
      SessionStore.runStatus inv.request.runId db = some .running →
        (started : Int) ≤ WriteSystem.resumed ⟨inv, l, phase⟩ loaded)
    (hcommit : commit inv clock db l phase = some (after, state)) :
    LiveWrites n started ⟨inv, state.1, state.2⟩ := by
  have hinTurn (hturn : InTurn (WritesAt inv.registry n started) l phase) :
      LiveWrites n started ⟨inv, state.1, state.2⟩ :=
    liveWrites_of_inTurn (inTurn_commit (writes_rule inv.registry n started) hturn hcommit)
  cases phase with
  | startRun =>
      obtain ⟨hlimited, hzero⟩ := hlive
      obtain rfl := congrArg Prod.snd (Option.some.inj hcommit)
      refine liveWrites_outside fun value after hstart => ?_
      have hnone := (SessionStore.startRun_status hstart inv.request.runId).1
      refine ⟨hlimited, ?_⟩
      dsimp only at hzero ⊢
      rw [hzero, hfresh rfl hnone]
      exact le_refl _
  | runStarted =>
      obtain rfl := congrArg Prod.snd (Option.some.inj hcommit)
      exact liveWrites_outside fun _ _ _ => liveWrites_enterLoop hlive
  | loadCheckpoint =>
      cases hcommit
      exact hlive
  | runStatus loaded =>
      cases hcommit
      exact liveWrites_useCheckpoint hlive.1 hlive.2 (hguard loaded rfl)
  | discardCheckpoint reason =>
      obtain rfl := congrArg Prod.snd (Option.some.inj hcommit)
      exact liveWrites_outside fun _ _ _ => hlive
  | checkpointInvalidated reason =>
      obtain rfl := congrArg Prod.snd (Option.some.inj hcommit)
      exact liveWrites_outside fun _ _ _ => liveWrites_enterLoop hlive
  | acknowledgeCheckpoint checkpoint =>
      cases hcommit
      exact liveWrites_enterRestored hlive.1 hlive.2.1 hlive.2.2
  | _ => exact hinTurn hlive

theorem room_of_fits {h : Harness} {calls : List ToolCall} (hlimited : Limited n h.locals.ledger)
    (hbound : started ≤ n)
    (hcounted : (started : Int) ≤ h.locals.ledger.consumedOf .externalWrites + writeResults [])
    (hfits : WriteSystem.fits h calls = true) : started + h.inv.registry.writes calls ≤ n := by
  have hnone : writeResults [] = 0 := rfl
  unfold WriteSystem.fits at hfits
  rw [hlimited.available] at hfits
  simp only [Bool.or_eq_true, decide_eq_true_eq] at hfits
  omega

/-- The steps that are no transactions: the started writes are within the limit, and are
counted. -/
theorem liveWrites_step {h h' : Harness} {label : HarnessLabel} {events : List HarnessEvent}
    (hlabel : ∀ clock, label ≠ .commit clock) (hlive : LiveWrites n started h) (hbound : started ≤ n)
    (hfits : ∀ calls, label = .begin → WriteSystem.beginning h.phase = some calls →
      WriteSystem.fits h calls = true)
    (hstep : h.step db label = some (after, h', events)) :
    LiveWrites n (started + events.countP HarnessEvent.isWriteStart) h' ∧
      started + events.countP HarnessEvent.isWriteStart ≤ n := by
  obtain ⟨inv, l, phase⟩ := h
  cases label with
  | commit clock => exact absurd rfl (hlabel clock)
  | begin =>
      simp only [Harness.step] at hstep
      cases phase with
      | completeModel build =>
          cases hstep
          exact ⟨hlive, hbound⟩
      | executeBatch build calls =>
          cases hstep
          obtain ⟨hlimited, _, hcounted⟩ := hlive
          have hnone : writeResults [] = 0 := rfl
          have hroom := room_of_fits hlimited hbound hcounted (hfits calls rfl rfl)
          dsimp only at hroom hcounted
          rw [countP_started]
          refine ⟨⟨hlimited, ?_, ?_⟩, hroom⟩
          · simpa [ToolRegistry.writes] using hroom
          · dsimp only
            push_cast
            omega
      | executeCall build call rest results =>
          cases hstep
          obtain ⟨hlimited, hroom, hcounted⟩ := hlive
          have hstarted : [AgentHarness.started inv.registry call].countP HarnessEvent.isWriteStart =
              inv.registry.writes [call] := countP_started [call]
          have hsplit : inv.registry.writes (call :: rest) =
              inv.registry.writes [call] + inv.registry.writes rest := by
            unfold ToolRegistry.writes
            rw [List.countP_cons, List.countP_singleton, Nat.add_comm]
          have hroom : started + inv.registry.writes (call :: rest) ≤ n := by
            cases results with
            | nil => exact room_of_fits hlimited hbound hcounted (hfits (call :: rest) rfl rfl)
            | cons result results => exact hroom (List.cons_ne_nil _ _)
          dsimp only at hcounted
          rw [hsplit] at hroom
          rw [hstarted]
          refine ⟨⟨hlimited, ?_, ?_⟩, ?_⟩
          · dsimp only
            omega
          · dsimp only
            push_cast
            omega
          · omega
      | _ => cases hstep
  | model answer clock =>
      simp only [Harness.step] at hstep
      cases phase with
      | modelRunning build =>
          cases hstep
          refine ⟨liveWrites_of_inTurn ?_, hbound⟩
          exact inTurn_model (writes_rule inv.registry n started) hlive (fun _ _ => trivial) clock
      | _ => cases hstep
  | batch answer clock =>
      simp only [Harness.step] at hstep
      cases phase with
      | batchRunning build calls =>
          cases hstep
          have hturn := inTurn_batch (writes_rule inv.registry n started) build rfl hlive answer clock
          have hnone : ((afterBatch inv l build calls (answer.bind (batchResults inv.registry calls))
              clock).1).countP HarnessEvent.isWriteStart = 0 := by
            unfold afterBatch
            split
            · rfl
            · exact countP_returned _
          rw [hnone]
          exact ⟨liveWrites_of_inTurn hturn, hbound⟩
      | _ => cases hstep
  | tool answer clock =>
      simp only [Harness.step] at hstep
      cases phase with
      | callRunning build call rest results =>
          cases hstep
          have hturn := inTurn_tool (writes_rule inv.registry n started) build rfl hlive answer clock
          have hnone : ((afterCall inv l build call rest results
              (answer.bind (ToolExecutor.execute inv.registry call)) clock).1).countP
                HarnessEvent.isWriteStart = 0 := by
            unfold afterCall
            split
            · rfl
            · rfl
          rw [hnone]
          exact ⟨liveWrites_of_inTurn hturn, hbound⟩
      | _ => cases hstep
  | cancelToken reason =>
      simp only [Harness.step] at hstep
      split at hstep
      · cases hstep
      · cases hstep
        refine ⟨?_, hbound⟩
        have hcancel (hturn : InTurn (WritesAt inv.registry n started) l phase) :
            LiveWrites n started ⟨inv, cancel l reason, phase⟩ :=
          @liveWrites_of_inTurn n started inv (cancel l reason, phase)
            (inTurn_cancel (writes_rule inv.registry n started) hturn reason)
        cases phase with
        | startRun | runStarted | loadCheckpoint | runStatus _ | discardCheckpoint _
        | checkpointInvalidated _ | acknowledgeCheckpoint _ => exact hlive
        | _ => exact hcancel hlive
  | abort =>
      simp only [Harness.step] at hstep
      split at hstep <;> cases hstep
      exact ⟨trivial, hbound⟩

end AgentHarness

namespace WriteSystem

open AgentHarness

variable {run : RootRun} {n : Nat}

/-! ### Runs -/

/-- The invariant: no write has been started in a run without a row. -/
structure WritesOk (run : RootRun) (n : Nat) (s : WriteSystem) : Prop where
  attached : s.system.Attached run
  known : s.started ≠ 0 → SessionStore.runStatus run.runId s.system.db ≠ none
  bounded : s.started ≤ n
  live : ∀ h, s.system.harness = some h → LiveWrites n s.started h

theorem writesOk_start : WritesOk run n {} := by
  constructor
  · exact RunSystem.attached_of_none rfl
  · intro hstarted
    exact absurd rfl hstarted
  · exact Nat.zero_le n
  · intro h hh
    cases hh

theorem events_harness {s : RunSystem} {h h' : Harness} {after : Database} {label : HarnessLabel}
    {events : List HarnessEvent} (hh : s.harness = some h)
    (hnext : h.step s.db label = some (after, h', events)) :
    s.events (.harness label) = events := by
  unfold RunSystem.events
  rw [hh]
  dsimp only [Option.bind]
  rw [hnext]
  rfl

theorem writesOk_harness {s : WriteSystem} {t : RunSystem} {label : HarnessLabel}
    (hs : s.WritesOk run n) (hguard : s.writesCounted run (.harness label) = true)
    (hstep : s.system.step run (.harness label) = some t) :
    WritesOk run n
      ⟨t, s.started + (s.system.events (.harness label)).countP HarnessEvent.isWriteStart⟩ := by
  have hattached := RunSystem.attached_step hs.attached hstep
  have hknown := RunSystem.known_step hs.attached hstep
  obtain ⟨h, after, h', events, hh, hnext, rfl⟩ := RunSystem.harness_cases hstep
  rw [events_harness hh hnext]
  have hrunId := (hs.attached.owns h hh).1
  have hlive := hs.live h hh
  by_cases hlabel : ∃ clock, label = .commit clock
  · obtain ⟨clock, rfl⟩ := hlabel
    obtain ⟨state, hcommit, rfl, rfl⟩ := Harness.commit_cases hnext
    refine ⟨hattached, fun hstarted => hknown (hs.known hstarted), hs.bounded, ?_⟩
    intro other hother
    obtain rfl := Option.some.inj hother
    refine liveWrites_commit hlive (fun _ hnone => ?_) (fun loaded hphase hrunning => ?_) hcommit
    · by_contra hstarted
      have hstatus : SessionStore.runStatus run.runId s.system.db = none := hrunId ▸ hnone
      exact hs.known hstarted hstatus
    · have hstatus : SessionStore.runStatus run.runId s.system.db = some .running :=
        hrunId ▸ hrunning
      have hcounted : (s.started : Int) ≤ resumed h loaded := by
        simpa [writesCounted, hh, hphase, hstatus] using hguard
      exact hcounted
  · have hcommits : ∀ clock, label ≠ .commit clock := fun clock h => hlabel ⟨clock, h⟩
    obtain ⟨rfl, _⟩ := Harness.step_database hcommits hnext
    have hfits : ∀ calls, label = .begin → beginning h.phase = some calls →
        fits h calls = true := by
      rintro calls rfl hcalls
      simpa [writesCounted, hh, hcalls] using hguard
    obtain ⟨hafter, hbound⟩ := liveWrites_step hcommits hlive hs.bounded hfits hnext
    refine ⟨hattached, ?_, hbound, ?_⟩
    · intro hstarted
      cases hactive : h.phase.isActive with
      | true =>
          rw [hs.attached.running h hh hactive]
          nofun
      | false =>
          rw [Harness.idle_events hactive hnext] at hstarted
          exact hs.known hstarted
    · intro other hother
      obtain rfl := Option.some.inj hother
      exact hafter

theorem writesOk_step {s t : WriteSystem} {label : RunStep} (hs : s.WritesOk run n)
    (hlimited : limited n label = true) (hguard : s.writesCounted run label = true)
    (hstep : s.step run label = some t) : t.WritesOk run n := by
  obtain ⟨system, hsystem, rfl⟩ := Option.map_eq_some_iff.mp hstep
  have hattached := RunSystem.attached_step hs.attached hsystem
  have hknown := RunSystem.known_step hs.attached hsystem
  cases label with
  | harness label => exact writesOk_harness hs hguard hsystem
  | store op =>
      obtain ⟨_, rfl⟩ := RunSystem.store_cases hsystem
      exact ⟨hattached, fun hstarted => hknown (hs.known hstarted), hs.bounded, hs.live⟩
  | launch inv resume =>
      refine ⟨hattached, fun hstarted => hknown (hs.known hstarted), hs.bounded, ?_⟩
      intro h hh
      have hn : inv.definition.externalWrites = some n := of_decide_eq_true hlimited
      obtain ⟨l, phase, hlaunch, rfl⟩ := RunSystem.launched hsystem hh
      obtain ⟨hfresh, hzero⟩ := launch_limited hn hlaunch
      obtain ⟨_, _, _, hphase⟩ := AgentHarness.launch_ok hlaunch
      subst hphase
      cases resume with
      | false => exact ⟨hfresh, hzero⟩
      | true => exact ⟨hfresh, hzero⟩
  | crash =>
      obtain rfl := RunSystem.crash_cases hsystem
      refine ⟨hattached, fun hstarted => hknown (hs.known hstarted), hs.bounded, ?_⟩
      intro h hh
      cases hh

/-- Over any crashes and resumes: when no batch begins that asks for more writes than are left
in the budget, and every resumed lifetime takes over the writes that have been started, no more
writes are started than the limit allows. -/
theorem started_writes_bounded (run : RootRun) (n : Nat) (steps : List RunStep)
    (hguard : Along (step run)
      (fun s label => limited n label = true ∧ s.writesCounted run label = true) steps {}) :
    Always (step run) (fun s => s.started ≤ n) steps {} :=
  always_of_invariant (fun _ _ _ hs hl hstep => writesOk_step hs hl.1 hl.2 hstep)
    (fun _ hs => hs.bounded) writesOk_start hguard

/-- A lifetime that writes once within a limit of one, saves its checkpoint, dies and is resumed
to finish meets the condition. -/
theorem started_writes_bounded_resumed :
    let inv : Invocation :=
      { request :=
          { runId := "run", taskId := "task", nodeId := "/root", userRequest := "update it"
            toolContext :=
              { runId := "run", nodeId := "/root", tenantKey := "tenant", appId := "app"
                actorId := "user", sessionKey := "tenant/app/chat", identityRef := "bot"
                policyVersion := 1, taskId := some "task" } }
        definition :=
          { agentId := "root", version := 1, instructions := "Help.", modelProfile := "default"
            toolIds := ["doc.update"], budgetLimits := [⟨.externalWrites, 1⟩] }
        registry := ⟨[{ definition :=
          ⟨"doc.update", 1, "Update a document.", [], .write, false⟩ }], by decide⟩
        loaded := ⟨[], [], []⟩, hasInbox := false, clockMs := 3, digest := fun _ => "digest" }
    let mention : NormalizedEvent :=
      { eventId := "event-1", pluginId := "im", eventType := "im.message", tenantKey := "tenant"
        appId := "app", occurredAtMs := 0, receivedAtMs := 0, resourceKind := "message"
        resourceId := "message-1", traceId := "trace-1" }
    let commit : RunStep := .harness (.commit {})
    let call : ToolCall := ⟨"call-1", "doc.update", []⟩
    let written : ToolExecutor.PermittedAnswer :=
      { observation := [], verification := ⟨.verified, "doc", "read back", ["doc-1"]⟩ }
    Always (step ⟨"run", "task"⟩) (fun s => s.started ≤ 1)
      [.store (.admitEvent mention ⟨"im", "im.handle_mention", "tenant/app/chat", [], 0, 0, 5, none⟩
          none "task" "outbox-0" 0),
        .launch inv false, commit, commit, commit, .harness .begin,
        .harness (.model (.ok { content := "", toolCalls := [call] }) {}), commit, commit,
        .harness .begin,
        .harness (.tool (.ok ⟨.ok ⟨true, "", false⟩, .ok true, .ok written⟩) {}), commit, commit,
        commit, commit, .crash,
        .launch inv true, commit, commit, commit, .harness .begin,
        .harness (.model (.ok { content := "done" }) {}), commit, commit] {} := by
  intro inv mention commit call written
  apply started_writes_bounded
  exact along_of_decide (by decide +kernel)

/-- One answer asks for two writes under a limit of one. Both calls are executed before the
first of them is charged. -/
theorem second_write_started :
    let inv : Invocation :=
      { request :=
          { runId := "run", taskId := "task", nodeId := "/root", userRequest := "update it"
            toolContext :=
              { runId := "run", nodeId := "/root", tenantKey := "tenant", appId := "app"
                actorId := "user", sessionKey := "tenant/app/chat", identityRef := "bot"
                policyVersion := 1, taskId := some "task" } }
        definition :=
          { agentId := "root", version := 1, instructions := "Help.", modelProfile := "default"
            toolIds := ["doc.update"], budgetLimits := [⟨.externalWrites, 1⟩] }
        registry := ⟨[{ definition :=
          ⟨"doc.update", 1, "Update a document.", [], .write, false⟩ }], by decide⟩
        loaded := ⟨[], [], []⟩, hasInbox := false, clockMs := 3, digest := fun _ => "digest" }
    let mention : NormalizedEvent :=
      { eventId := "event-1", pluginId := "im", eventType := "im.message", tenantKey := "tenant"
        appId := "app", occurredAtMs := 0, receivedAtMs := 0, resourceKind := "message"
        resourceId := "message-1", traceId := "trace-1" }
    let commit : RunStep := .harness (.commit {})
    let written : ToolExecutor.PermittedAnswer :=
      { observation := [], verification := ⟨.verified, "doc", "read back", ["doc-1"]⟩ }
    ¬ Always (step ⟨"run", "task"⟩) (fun s => s.started ≤ 1)
      [.store (.admitEvent mention ⟨"im", "im.handle_mention", "tenant/app/chat", [], 0, 0, 5, none⟩
          none "task" "outbox-0" 0),
        .launch inv false, commit, commit, commit, .harness .begin,
        .harness (.model (.ok
          { content := ""
            toolCalls := [⟨"call-1", "doc.update", []⟩, ⟨"call-2", "doc.update", []⟩] }) {}),
        commit, commit, commit, .harness .begin,
        .harness (.tool (.ok ⟨.ok ⟨true, "", false⟩, .ok true, .ok written⟩) {}),
        .harness .begin] {} := by
  intro inv mention commit written
  exact not_always_of_check (fun _ => decide_eq_true) (by decide +kernel)

end WriteSystem

end Codex2Lark
