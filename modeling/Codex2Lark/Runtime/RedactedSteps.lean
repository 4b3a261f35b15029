import Codex2Lark.Runtime.Redaction
import Codex2Lark.Runtime.RunSystem
import Codex2Lark.Storage.RunEvents

/-!
The awaited transactions and answers of two executions whose locals save the same. A step of one
and the same step of the other leave them so, in the same phase and over the same tables but for
the run events, while every context can be built.
-/

namespace Codex2Lark

open Lib Database

/-- The phases whose continuation begins a turn or goes on with its context. -/
def HarnessPhase.beginsTurn : HarnessPhase → Bool
  | .runStarted | .runStatus _ | .checkpointInvalidated _ | .acknowledgeCheckpoint _
  | .pollBeforeModel | .saveAnswer _ | .acknowledgeAnswer | .finishAnswer _
  | .checkpointSaved _ => true
  | _ => false

namespace AgentHarness

variable {inv : Invocation} {definitions : List ToolDefinition} {l l' : Locals}

/-- The phase reached is not the failure of a context that does not fit. -/
def StateFits (inv : Invocation) (state : Locals × HarnessPhase) : Prop :=
  ∀ e, state.2 = (settle (state.1, .error e)).2 → state.1.cancelled = none →
    contextBuild inv state.1 ≠ .error e

theorem contextFits_of_settle {s : HarnessSegment} (hfits : StateFits inv (settle s)) :
    ContextFits inv s := by
  intro e herror hcancelled hbuild
  have hlocals : (settle s).1 = s.1 := (settle_error herror).1
  have hphase : (settle s).2 = (settle ((settle s).1, .error e)).2 := by
    rw [hlocals, ← herror]
  exact hfits e hphase (hlocals ▸ hcancelled) (hlocals ▸ hbuild)

/-! ### Where a lifetime enters the loop -/

theorem enterLoop_same (hdefinitions : inv.registry.definitions inv.definition.toolIds =
    .ok definitions) (h : SameSaved l l') (clock : ClockReadings)
    (hfits : StateFits inv (enterLoop inv l clock))
    (hfits' : StateFits inv (enterLoop inv l' clock)) :
    SameState (enterLoop inv l clock) (enterLoop inv l' clock) := by
  have hclock : SameSaved { l with lastNs := clock.leaveNs, remainderNs := 0 }
      { l' with lastNs := clock.leaveNs, remainderNs := 0 } := by
    obtain ⟨journal, rfl, hjournal⟩ := h
    exact ⟨journal, rfl, hjournal⟩
  exact settle_same (beginTurn_same hdefinitions hclock (contextFits_of_settle hfits)
    (contextFits_of_settle hfits'))

theorem enterRestored_same (hdefinitions : inv.registry.definitions inv.definition.toolIds =
    .ok definitions) (h : SameSaved l l') (checkpoint : RunCheckpoint) (clock : ClockReadings)
    (hfits : StateFits inv (enterRestored inv l checkpoint clock))
    (hfits' : StateFits inv (enterRestored inv l' checkpoint clock)) :
    SameState (enterRestored inv l checkpoint clock) (enterRestored inv l' checkpoint clock) := by
  have hledger : l'.ledger = l.ledger := by
    obtain ⟨journal, rfl, _⟩ := h
    rfl
  unfold enterRestored at hfits hfits' ⊢
  rw [hledger] at hfits' ⊢
  cases hbudget : restoreBudget checkpoint.consumedBudget l.ledger with
  | error e => exact ⟨h, .raised e⟩
  | ok ledger =>
      rw [hbudget] at hfits hfits'
      have hrestored : SameSaved { l with ledger } { l' with ledger } := by
        obtain ⟨journal, rfl, hjournal⟩ := h
        exact ⟨journal, rfl, hjournal⟩
      exact enterLoop_same hdefinitions hrestored clock hfits hfits'

/-- A restored journal is the same in both executions. -/
theorem restore_same (h : SameSaved l l') (checkpoint : RunCheckpoint) :
    SameSaved (restore l checkpoint) (restore l' checkpoint) := by
  obtain ⟨journal, rfl, _⟩ := h
  exact .refl _

theorem useCheckpoint_same (hdefinitions : inv.registry.definitions inv.definition.toolIds =
    .ok definitions) (h : SameSaved l l') (checkpoint : Option RunCheckpoint)
    (status : Option RunStatus) (clock : ClockReadings)
    (hfits : StateFits inv (useCheckpoint inv l checkpoint status clock))
    (hfits' : StateFits inv (useCheckpoint inv l' checkpoint status clock)) :
    SameState (useCheckpoint inv l checkpoint status clock)
      (useCheckpoint inv l' checkpoint status clock) := by
  have hfingerprint : l'.fingerprint = l.fingerprint := by
    obtain ⟨journal, rfl, _⟩ := h
    rfl
  unfold useCheckpoint at hfits hfits' ⊢
  split
  · exact ⟨h, .raised _⟩
  · rename_i hrunning
    rw [if_neg hrunning] at hfits hfits'
    cases checkpoint with
    | none => exact enterLoop_same hdefinitions h clock hfits hfits'
    | some checkpoint =>
        dsimp only at hfits hfits' ⊢
        rw [hfingerprint] at hfits' ⊢
        cases hvalid : validateCheckpoint inv l.fingerprint checkpoint with
        | some reason => exact ⟨h, .discardCheckpoint reason⟩
        | none =>
            rw [hvalid] at hfits hfits'
            dsimp only at hfits hfits' ⊢
            split
            · exact ⟨restore_same h checkpoint, .acknowledgeCheckpoint checkpoint⟩
            · rename_i hacknowledged
              rw [if_neg hacknowledged] at hfits hfits'
              exact enterRestored_same hdefinitions (restore_same h checkpoint) checkpoint clock
                hfits hfits'

/-! ### The awaited transactions -/

variable {db db' after after' : Database} {state state' : Locals × HarnessPhase} {α : Type}

/-- The operations return the same, and leave the same tables but for the run events. -/
abbrev SameOperation (operation operation' : Database → Except PyError (α × Database))
    (db db' : Database) : Prop :=
  Alike (fun result result' => result.1 = result'.1 ∧ SameTables result.2 result'.2)
    (operation db) (operation' db')

theorem sameOperation_of_ignores {operation : Database → Except PyError (α × Database)}
    (hignores : IgnoresRunEvents operation) (htables : SameTables db db') :
    SameOperation operation operation db db' := by
  obtain ⟨rows, rfl⟩ := htables
  obtain ⟨rows', heq⟩ := hignores db rows
  unfold SameOperation
  rw [heq]
  cases operation db with
  | error e => exact .error e
  | ok result => exact .ok ⟨rfl, rows', rfl⟩

/-- An event is recorded on both sides, whatever it says. -/
theorem sameOperation_event (inv : Invocation) (htables : SameTables db db') (eventType : String)
    (payload payload' : List (String × Json)) :
    SameOperation (event inv eventType payload) (event inv eventType payload') db db' := by
  obtain ⟨rows, rfl⟩ := htables
  unfold SameOperation event SessionStore.appendEvent
  rw [findRun_withRunEvents]
  split
  · exact .error _
  · exact .ok ⟨rfl, (SessionStore.insertEvent (db.withRunEvents rows) inv.request.runId eventType
      payload' inv.clockMs).runEvents, rfl⟩

theorem inTry_same (h : SameSaved l l') (htables : SameTables db db')
    {operation operation' : Database → Except PyError (α × Database)}
    {next next' : α → HarnessSegment} (hoperation : SameOperation operation operation' db db')
    (hnext : ∀ value, state = settle (next value) → state' = settle (next' value) →
      SameSegment (next value) (next' value))
    (hcommit : some (inTry l operation db next) = some (after, state))
    (hcommit' : some (inTry l' operation' db' next') = some (after', state')) :
    SameTables after after' ∧ SameState state state' := by
  unfold inTry at hcommit hcommit'
  unfold SameOperation at hoperation
  generalize operation db = result at hcommit hoperation
  generalize operation' db' = result' at hcommit' hoperation
  cases hoperation with
  | error e =>
      cases hcommit
      cases hcommit'
      exact ⟨htables, settle_same (segment_same_error h e)⟩
  | @ok result result' hresult =>
      obtain ⟨value, tables⟩ := result
      obtain ⟨value', tables'⟩ := result'
      obtain ⟨rfl, hafter⟩ := hresult
      cases hcommit
      cases hcommit'
      exact ⟨hafter, settle_same (hnext value rfl rfl)⟩

theorem outside_same (h : SameSaved l l') (htables : SameTables db db')
    {operation operation' : Database → Except PyError (α × Database)}
    {next next' : α → Locals × HarnessPhase}
    (hoperation : SameOperation operation operation' db db')
    (hnext : ∀ value, state = next value → state' = next' value →
      SameState (next value) (next' value))
    (hcommit : some (outside l operation db next) = some (after, state))
    (hcommit' : some (outside l' operation' db' next') = some (after', state')) :
    SameTables after after' ∧ SameState state state' := by
  unfold outside at hcommit hcommit'
  unfold SameOperation at hoperation
  generalize operation db = result at hcommit hoperation
  generalize operation' db' = result' at hcommit' hoperation
  cases hoperation with
  | error e =>
      cases hcommit
      cases hcommit'
      exact ⟨htables, h, .raised e⟩
  | @ok result result' hresult =>
      obtain ⟨value, tables⟩ := result
      obtain ⟨value', tables'⟩ := result'
      obtain ⟨rfl, hafter⟩ := hresult
      cases hcommit
      cases hcommit'
      exact ⟨hafter, hnext value rfl rfl⟩

theorem pending_same (inv : Invocation) (htables : SameTables db db') :
    pending inv db' = pending inv db := by
  obtain ⟨rows, rfl⟩ := htables
  rfl

theorem poll_controls_same (inv : Invocation) (h : SameSaved l l') (htables : SameTables db db') :
    SameSaved (applyControls l (pending inv db)) (applyControls l' (pending inv db')) := by
  rw [pending_same inv htables]
  exact applyControls_same h _

theorem save_same (inv : Invocation) (h : SameSaved l l') (htables : SameTables db db')
    {build build' : ContextBuild} (hbuild : SameSources build build') :
    SameOperation (save inv l build) (save inv l' build') db db' := by
  unfold save
  rw [checkpointOf_same h, ← hbuild]
  exact sameOperation_of_ignores (SessionStore.saveCheckpoint_ignores _ _) htables

theorem finish_same (inv : Invocation) (htables : SameTables db db') (outcome : AgentOutcome)
    (controlIds : List String) :
    SameOperation (finish inv outcome controlIds) (finish inv outcome controlIds) db db' :=
  sameOperation_of_ignores (SessionStore.tryFinishWithOutcome_ignores _ _ _ _) htables

theorem acknowledge_same (inv : Invocation) (htables : SameTables db db')
    (controlIds : List String) :
    SameTables (acknowledge inv controlIds db) (acknowledge inv controlIds db') :=
  RuntimeStore.acknowledgeControls_sameTables htables _ _ _

theorem cleared_same (h : SameSaved l l') :
    SameSaved { l with pendingAckIds := [] } { l' with pendingAckIds := [] } := by
  obtain ⟨journal, rfl, hjournal⟩ := h
  exact ⟨journal, rfl, hjournal⟩

/-- One awaited transaction, neither of them the event of a compaction. -/
theorem commit_same (hdefinitions : inv.registry.definitions inv.definition.toolIds =
    .ok definitions) {clock : ClockReadings} {phase phase' : HarnessPhase} (h : SameSaved l l')
    (hphase : SamePhase phase phase') (htables : SameTables db db')
    (hawaited : ∀ build, phase ≠ .contextCompacted build)
    (hawaited' : ∀ build, phase' ≠ .contextCompacted build)
    (hfits : phase.beginsTurn = true → StateFits inv state)
    (hfits' : phase'.beginsTurn = true → StateFits inv state')
    (hcommit : commit inv clock db l phase = some (after, state))
    (hcommit' : commit inv clock db' l' phase' = some (after', state')) :
    SameTables after after' ∧ SameState state state' := by
  have hpending : l'.pendingAckIds = l.pendingAckIds := by
    obtain ⟨journal, rfl, _⟩ := h
    rfl
  have hturn : l'.turn = l.turn := by
    obtain ⟨journal, rfl, _⟩ := h
    rfl
  cases hphase with
  | startRun =>
      exact outside_same h htables
        (sameOperation_of_ignores (SessionStore.startRun_ignores _ _) htables)
        (fun _ _ _ => ⟨h, .runStarted⟩) hcommit hcommit'
  | runStarted =>
      refine outside_same h htables (sameOperation_event inv htables _ _ _) ?_ hcommit hcommit'
      intro _ hstate hstate'
      exact enterLoop_same hdefinitions h clock (hstate ▸ hfits rfl) (hstate' ▸ hfits' rfl)
  | loadCheckpoint =>
      obtain ⟨rows, rfl⟩ := htables
      cases hcommit
      cases hcommit'
      exact ⟨⟨rows, rfl⟩, h, .runStatus _⟩
  | runStatus checkpoint =>
      obtain ⟨rows, rfl⟩ := htables
      cases hcommit
      cases hcommit'
      exact ⟨⟨rows, rfl⟩, useCheckpoint_same hdefinitions h checkpoint _ clock (hfits rfl)
        (hfits' rfl)⟩
  | discardCheckpoint reason =>
      exact outside_same h htables
        (sameOperation_of_ignores (SessionStore.discardCheckpoint_ignores _) htables)
        (fun _ _ _ => ⟨h, .checkpointInvalidated reason⟩) hcommit hcommit'
  | checkpointInvalidated reason =>
      refine outside_same h htables (sameOperation_event inv htables _ _ _) ?_ hcommit hcommit'
      intro _ hstate hstate'
      exact enterLoop_same hdefinitions h clock (hstate ▸ hfits rfl) (hstate' ▸ hfits' rfl)
  | acknowledgeCheckpoint checkpoint =>
      cases hcommit
      cases hcommit'
      exact ⟨acknowledge_same inv htables _, enterRestored_same hdefinitions h checkpoint clock
        (hfits rfl) (hfits' rfl)⟩
  | pollBeforeModel =>
      cases hcommit
      cases hcommit'
      exact ⟨htables, settle_same (buildContext_same hdefinitions
        (poll_controls_same inv h htables) (contextFits_of_settle (hfits rfl))
        (contextFits_of_settle (hfits' rfl)))⟩
  | contextCompacted _ => exact absurd rfl (hawaited _)
  | compactedFirst _ => exact absurd rfl (hawaited _)
  | compactedSecond _ => exact absurd rfl (hawaited' _)
  | turnStarted hbuild =>
      refine inTry_same h htables (sameOperation_event inv htables _ _ _) ?_ hcommit hcommit'
      intro _ _ _
      refine limited_same h (enterWait_same h clock.enterNs) ?_
      intro ready ready' hready
      exact segment_same_ok hready (.completeModel hbuild)
  | completeModel _ | modelRunning _ | executeBatch _ _ | batchRunning _ _ | executeCall _ _ _ _
  | callRunning _ _ _ _ | returned _ | raised _ => cases hcommit
  | modelCompleted hbuild response =>
      refine inTry_same h htables (sameOperation_event inv htables _ _ _) ?_ hcommit hcommit'
      intro _ _ _
      exact poll_same inv h (.pollAfterModel hbuild response)
        (useAnswer_same inv h hbuild response clock.enterNs)
  | pollAfterModel hbuild response =>
      cases hcommit
      cases hcommit'
      exact ⟨htables, settle_same (useAnswer_same inv (poll_controls_same inv h htables) hbuild
        response clock.enterNs)⟩
  | saveAnswer hbuild =>
      refine inTry_same h htables (save_same inv h htables hbuild) ?_ hcommit hcommit'
      intro _ hstate hstate'
      exact afterAnswerSaved_same hdefinitions h
        (contextFits_of_settle (hstate ▸ hfits rfl)) (contextFits_of_settle (hstate' ▸ hfits' rfl))
  | acknowledgeAnswer =>
      cases hcommit
      cases hcommit'
      rw [hpending]
      exact ⟨acknowledge_same inv htables _, settle_same (beginTurn_same hdefinitions
        (cleared_same h) (contextFits_of_settle (hfits rfl)) (contextFits_of_settle (hfits' rfl)))⟩
  | finishAnswer outcome =>
      refine inTry_same h htables (finish_same inv htables outcome []) ?_ hcommit hcommit'
      intro closed hstate hstate'
      cases closed with
      | true => exact segment_same_ok h (.returned outcome)
      | false =>
          exact beginTurn_same hdefinitions h (contextFits_of_settle (hstate ▸ hfits rfl))
            (contextFits_of_settle (hstate' ▸ hfits' rfl))
  | toolRequested hbuild calls rest =>
      refine inTry_same h htables (sameOperation_event inv htables _ _ _) ?_ hcommit hcommit'
      intro _ _ _
      exact requestTools_same inv h hbuild clock.enterNs calls _
  | @resultRecorded build build' result result' rest rest' hbuild hresults =>
      have hsucceeded : result'.succeeded = result.succeeded := by
        rcases persistable_cases hresults.cons_inv.1 with rfl | ⟨_, heq⟩
        · rfl
        · rw [heq]
          rfl
      simp only [commit, hsucceeded] at hcommit hcommit'
      refine inTry_same h htables (sameOperation_event inv htables _ _ _) ?_ hcommit hcommit'
      intro _ _ _
      exact recordNext_same inv h hbuild hresults.cons_inv.2
  | pollAfterTools hbuild =>
      cases hcommit
      cases hcommit'
      exact ⟨htables, settle_same (closeTurn_same (poll_controls_same inv h htables) hbuild)⟩
  | saveCheckpoint hbuild =>
      refine inTry_same h htables (save_same inv h htables hbuild) ?_ hcommit hcommit'
      intro _ _ _
      exact afterTurnSaved_same inv h
  | acknowledgeTurn nextTurn =>
      cases hcommit
      cases hcommit'
      rw [hpending]
      exact ⟨acknowledge_same inv htables _, cleared_same h, .checkpointSaved nextTurn⟩
  | checkpointSaved nextTurn =>
      refine inTry_same h htables (sameOperation_event inv htables _ _ _) ?_ hcommit hcommit'
      intro _ hstate hstate'
      exact beginTurn_same hdefinitions h (contextFits_of_settle (hstate ▸ hfits rfl))
        (contextFits_of_settle (hstate' ▸ hfits' rfl))
  | finishCancelled outcome =>
      simp only [commit, hpending] at hcommit hcommit'
      refine outside_same h htables (finish_same inv htables outcome _) ?_ hcommit hcommit'
      intro _ _ _
      refine ⟨h, ?_⟩
      dsimp only
      split
      · exact .acknowledgeCancelled outcome
      · exact .returned outcome
  | acknowledgeCancelled outcome =>
      cases hcommit
      cases hcommit'
      rw [hpending]
      exact ⟨acknowledge_same inv htables _, h, .returned outcome⟩
  | finishFailed outcome =>
      exact outside_same h htables (finish_same inv htables outcome [])
        (fun _ _ _ => ⟨h, .returned outcome⟩) hcommit hcommit'

/-! ### The awaited answers -/

theorem alike_of_map {α β : Type} {f : α → β} {x x' : Except PyError α} (h : x.map f = x'.map f) :
    Alike (fun a b => f a = f b) x x' := by
  cases x with
  | error e =>
      cases x' with
      | error e' =>
          cases h
          exact .error e
      | ok b => cases h
  | ok a =>
      cases x' with
      | error e' => cases h
      | ok b => exact .ok (Except.ok.inj h)

theorem afterModel_same (h : SameSaved l l') {build build' : ContextBuild}
    (hbuild : SameSources build build') (answer : Except PyError ModelResponse)
    (clock : ClockReadings) :
    SameSegment (afterModel l build answer clock) (afterModel l' build' answer clock) := by
  have hanswer : Alike Eq answer answer := by
    cases answer with
    | error e => exact .error e
    | ok response => exact .ok rfl
  have hwait := leaveWait_same h clock.leaveNs hanswer
  unfold afterModel
  generalize leaveWait l clock.leaveNs answer = result at hwait ⊢
  generalize leaveWait l' clock.leaveNs answer = result' at hwait ⊢
  cases hwait with
  | error e => exact segment_same_error h e
  | @ok result result' hresult =>
      obtain ⟨hafter, hresponse⟩ := hresult
      dsimp only
      rw [← hresponse]
      exact receiveAnswer_same hafter hbuild result.2

theorem afterBatch_same (inv : Invocation) (h : SameSaved l l') {build build' : ContextBuild}
    (hbuild : SameSources build build') (calls : List ToolCall)
    {answer answer' : Except PyError (List ToolResult)} (hanswer : Alike SameResults answer answer')
    (clock : ClockReadings) :
    SameSegment (afterBatch inv l build calls answer clock).2
      (afterBatch inv l' build' calls answer' clock).2 := by
  have hwait := leaveWait_same h clock.leaveNs hanswer
  unfold afterBatch
  generalize leaveWait l clock.leaveNs answer = result at hwait ⊢
  generalize leaveWait l' clock.leaveNs answer' = result' at hwait ⊢
  cases hwait with
  | error e => exact segment_same_error h e
  | ok hresult => exact recordNext_same inv hresult.1 hbuild hresult.2

theorem afterCall_same (inv : Invocation) (h : SameSaved l l') {build build' : ContextBuild}
    (hbuild : SameSources build build') (call : ToolCall) (rest : List ToolCall)
    {results results' : List ToolResult} (hresults : SameResults results results')
    {answer answer' : Except PyError ToolResult}
    (hanswer : Alike (fun result result' => result.persistable = result'.persistable)
      answer answer') (clock : ClockReadings) :
    SameSegment (afterCall inv l build call rest results answer clock).2
      (afterCall inv l' build' call rest results' answer' clock).2 := by
  have hwait := leaveWait_same h clock.leaveNs hanswer
  unfold afterCall
  generalize leaveWait l clock.leaveNs answer = result at hwait ⊢
  generalize leaveWait l' clock.leaveNs answer' = result' at hwait ⊢
  cases hwait with
  | error e => exact segment_same_error h e
  | @ok result result' hresult =>
      have hmore : SameResults [result.2] [result'.2] := congrArg (fun r => [r]) hresult.2
      exact nextCall_same inv hresult.1 hbuild clock.enterNs rest (hresults.append hmore)

end AgentHarness

end Codex2Lark
