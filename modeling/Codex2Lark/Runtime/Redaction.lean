import Codex2Lark.Runtime.Loop

/-!
What reaches a checkpoint from the results of tools. Two executions are compared whose results
differ in observations that are not safe for a checkpoint: their locals save the same messages,
and every piece of code of the loop keeps it so. A context may be built from different messages,
and be compacted in one execution only.
-/

namespace Codex2Lark

open Lib AgentHarness

/-- The result without an observation that is not safe for a checkpoint. -/
def ToolResult.persistable (result : ToolResult) : ToolResult :=
  if result.checkpointSafeObservation then result else { result with observation := [] }

/-- The locals differ in messages at most that are saved the same. -/
def SameSaved (l l' : Locals) : Prop :=
  ∃ journal, l' = { l with journal } ∧
    journal.map (checkpointMessage l.nonpersistableCalls) =
      l.journal.map (checkpointMessage l.nonpersistableCalls)

/-- The builds have the versions of the sources in common. -/
def SameSources (build build' : ContextBuild) : Prop := build.sourceVersions = build'.sourceVersions

def SameResults (results results' : List ToolResult) : Prop :=
  results.map ToolResult.persistable = results'.map ToolResult.persistable

/-- The same await. The event of a compaction may still be awaited in one execution only. -/
inductive SamePhase : HarnessPhase → HarnessPhase → Prop
  | startRun : SamePhase .startRun .startRun
  | runStarted : SamePhase .runStarted .runStarted
  | loadCheckpoint : SamePhase .loadCheckpoint .loadCheckpoint
  | runStatus (checkpoint) : SamePhase (.runStatus checkpoint) (.runStatus checkpoint)
  | discardCheckpoint (reason) : SamePhase (.discardCheckpoint reason) (.discardCheckpoint reason)
  | checkpointInvalidated (reason) :
      SamePhase (.checkpointInvalidated reason) (.checkpointInvalidated reason)
  | acknowledgeCheckpoint (checkpoint) :
      SamePhase (.acknowledgeCheckpoint checkpoint) (.acknowledgeCheckpoint checkpoint)
  | pollBeforeModel : SamePhase .pollBeforeModel .pollBeforeModel
  | contextCompacted {build build'} (hbuild : SameSources build build') :
      SamePhase (.contextCompacted build) (.contextCompacted build')
  | compactedFirst {build build'} (hbuild : SameSources build build') :
      SamePhase (.contextCompacted build) (.turnStarted build')
  | compactedSecond {build build'} (hbuild : SameSources build build') :
      SamePhase (.turnStarted build) (.contextCompacted build')
  | turnStarted {build build'} (hbuild : SameSources build build') :
      SamePhase (.turnStarted build) (.turnStarted build')
  | completeModel {build build'} (hbuild : SameSources build build') :
      SamePhase (.completeModel build) (.completeModel build')
  | modelRunning {build build'} (hbuild : SameSources build build') :
      SamePhase (.modelRunning build) (.modelRunning build')
  | modelCompleted {build build'} (hbuild : SameSources build build') (response) :
      SamePhase (.modelCompleted build response) (.modelCompleted build' response)
  | pollAfterModel {build build'} (hbuild : SameSources build build') (response) :
      SamePhase (.pollAfterModel build response) (.pollAfterModel build' response)
  | saveAnswer {build build'} (hbuild : SameSources build build') :
      SamePhase (.saveAnswer build) (.saveAnswer build')
  | acknowledgeAnswer : SamePhase .acknowledgeAnswer .acknowledgeAnswer
  | finishAnswer (outcome) : SamePhase (.finishAnswer outcome) (.finishAnswer outcome)
  | toolRequested {build build'} (hbuild : SameSources build build') (calls rest) :
      SamePhase (.toolRequested build calls rest) (.toolRequested build' calls rest)
  | executeBatch {build build'} (hbuild : SameSources build build') (calls) :
      SamePhase (.executeBatch build calls) (.executeBatch build' calls)
  | batchRunning {build build'} (hbuild : SameSources build build') (calls) :
      SamePhase (.batchRunning build calls) (.batchRunning build' calls)
  | executeCall {build build' results results'} (hbuild : SameSources build build') (call rest)
      (hresults : SameResults results results') :
      SamePhase (.executeCall build call rest results) (.executeCall build' call rest results')
  | callRunning {build build' results results'} (hbuild : SameSources build build') (call rest)
      (hresults : SameResults results results') :
      SamePhase (.callRunning build call rest results) (.callRunning build' call rest results')
  | resultRecorded {build build' result result' rest rest'} (hbuild : SameSources build build')
      (hresults : SameResults (result :: rest) (result' :: rest')) :
      SamePhase (.resultRecorded build result rest) (.resultRecorded build' result' rest')
  | pollAfterTools {build build'} (hbuild : SameSources build build') :
      SamePhase (.pollAfterTools build) (.pollAfterTools build')
  | saveCheckpoint {build build'} (hbuild : SameSources build build') :
      SamePhase (.saveCheckpoint build) (.saveCheckpoint build')
  | acknowledgeTurn (nextTurn) : SamePhase (.acknowledgeTurn nextTurn) (.acknowledgeTurn nextTurn)
  | checkpointSaved (nextTurn) : SamePhase (.checkpointSaved nextTurn) (.checkpointSaved nextTurn)
  | finishCancelled (outcome) : SamePhase (.finishCancelled outcome) (.finishCancelled outcome)
  | acknowledgeCancelled (outcome) :
      SamePhase (.acknowledgeCancelled outcome) (.acknowledgeCancelled outcome)
  | finishFailed (outcome) : SamePhase (.finishFailed outcome) (.finishFailed outcome)
  | returned (outcome) : SamePhase (.returned outcome) (.returned outcome)
  | raised (error) : SamePhase (.raised error) (.raised error)

/-- Both computations raise the same exception or end in related values. -/
inductive Alike {α : Type} (R : α → α → Prop) : Except PyError α → Except PyError α → Prop
  | ok {a b : α} (h : R a b) : Alike R (.ok a) (.ok b)
  | error (e : PyError) : Alike R (.error e) (.error e)

theorem SamePhase.symm {phase phase' : HarnessPhase} (h : SamePhase phase phase') :
    SamePhase phase' phase := by
  cases h with
  | contextCompacted hbuild => exact .contextCompacted hbuild.symm
  | compactedFirst hbuild => exact .compactedSecond hbuild.symm
  | compactedSecond hbuild => exact .compactedFirst hbuild.symm
  | executeCall hbuild call rest hresults => exact .executeCall hbuild.symm call rest hresults.symm
  | callRunning hbuild call rest hresults => exact .callRunning hbuild.symm call rest hresults.symm
  | resultRecorded hbuild hresults => exact .resultRecorded hbuild.symm hresults.symm
  | _ => constructor <;> exact Eq.symm ‹_›

theorem Alike.bind {α β : Type} {R : α → α → Prop} {S : β → β → Prop} {x x' : Except PyError α}
    {f f' : α → Except PyError β} (h : Alike R x x')
    (hf : ∀ a a', R a a' → Alike S (f a) (f' a')) : Alike S (x >>= f) (x' >>= f') := by
  cases h with
  | ok h => exact hf _ _ h
  | error e => exact .error e

theorem Alike.imp {α : Type} {R S : α → α → Prop} {x x' : Except PyError α} (h : Alike R x x')
    (hRS : ∀ a a', R a a' → S a a') : Alike S x x' := by
  cases h with
  | ok h => exact .ok (hRS _ _ h)
  | error e => exact .error e

def SameSegment (s s' : HarnessSegment) : Prop := SameSaved s.1 s'.1 ∧ Alike SamePhase s.2 s'.2

def SameState (state state' : Locals × HarnessPhase) : Prop :=
  SameSaved state.1 state'.1 ∧ SamePhase state.2 state'.2

/-! ### Messages and results -/

theorem checkpointMessage_twice {calls more : List String} (hmore : ∀ call ∈ calls, call ∈ more)
    (message : ModelMessage) :
    checkpointMessage more (checkpointMessage calls message) = checkpointMessage more message := by
  unfold checkpointMessage
  by_cases hredacted : message.role = .tool ∧ message.toolCallId.any calls.contains
  · have hlater : message.role = .tool ∧ message.toolCallId.any more.contains := by
      refine ⟨hredacted.1, ?_⟩
      cases hcallId : message.toolCallId with
      | none => simp [hcallId] at hredacted
      | some callId =>
          have hcall : callId ∈ calls := by simpa [hcallId] using hredacted.2
          simpa using hmore callId hcall
    rw [if_pos hredacted, if_pos hlater]
    exact (if_pos hlater).symm
  · rw [if_neg hredacted]

/-- Messages that are saved the same stay so when more calls are redacted. -/
theorem checkpointMessages_more {calls more : List String} (hmore : ∀ call ∈ calls, call ∈ more)
    {journal journal' : List ModelMessage}
    (hsame : journal.map (checkpointMessage calls) = journal'.map (checkpointMessage calls)) :
    journal.map (checkpointMessage more) = journal'.map (checkpointMessage more) := by
  have htwice : ∀ messages : List ModelMessage, messages.map (checkpointMessage more) =
      (messages.map (checkpointMessage calls)).map (checkpointMessage more) := by
    intro messages
    rw [List.map_map]
    exact List.map_congr_left fun message _ => (checkpointMessage_twice hmore message).symm
  rw [htwice journal, htwice journal', hsame]

namespace SameSaved

theorem refl (l : Locals) : SameSaved l l := ⟨l.journal, rfl, rfl⟩

theorem symm {l l' : Locals} (h : SameSaved l l') : SameSaved l' l := by
  obtain ⟨journal, rfl, hjournal⟩ := h
  exact ⟨l.journal, rfl, hjournal.symm⟩

end SameSaved

theorem SameResults.cons_inv {result result' : ToolResult} {rest rest' : List ToolResult}
    (h : SameResults (result :: rest) (result' :: rest')) :
    result.persistable = result'.persistable ∧ SameResults rest rest' :=
  List.cons.inj h

theorem SameResults.append {results results' more more' : List ToolResult}
    (h : SameResults results results') (hmore : SameResults more more') :
    SameResults (results ++ more) (results' ++ more') := by
  unfold SameResults at h hmore ⊢
  rw [List.map_append, List.map_append, h, hmore]

/-- Related results are the same, or they differ in observations that are both redacted. -/
theorem persistable_cases {result result' : ToolResult}
    (h : result.persistable = result'.persistable) :
    result' = result ∨ result.checkpointSafeObservation = false ∧
      result' = { result with observation := result'.observation } := by
  obtain ⟨callId, toolId, observation, effect, verification, errorCode, safe⟩ := result
  obtain ⟨callId', toolId', observation', effect', verification', errorCode', safe'⟩ := result'
  cases safe <;> cases safe' <;> simp_all [ToolResult.persistable]

/-! ### The parts of a turn -/

namespace AgentHarness

section Parts

variable {l l' : Locals}

theorem raiseIfCancelled_same (h : SameSaved l l') : raiseIfCancelled l' = raiseIfCancelled l := by
  obtain ⟨journal, rfl, _⟩ := h
  rfl

theorem outcomeOf_same (h : SameSaved l l') (content : String) (definition : AgentDefinition) :
    outcomeOf content definition l' = outcomeOf content definition l := by
  obtain ⟨journal, rfl, _⟩ := h
  rfl

theorem checkpointOf_same (h : SameSaved l l') (inv : Invocation)
    (sourceVersions : Dict String String) :
    checkpointOf inv l' sourceVersions = checkpointOf inv l sourceVersions := by
  obtain ⟨journal, rfl, hjournal⟩ := h
  unfold checkpointOf
  rw [hjournal]

theorem cancel_same (h : SameSaved l l') (reason : String) :
    SameSaved (cancel l reason) (cancel l' reason) := by
  obtain ⟨journal, rfl, hjournal⟩ := h
  exact ⟨journal, rfl, hjournal⟩

theorem applyControl_same (h : SameSaved l l') (control : ControlRow) :
    SameSaved (applyControl l control) (applyControl l' control) := by
  obtain ⟨journal, rfl, hjournal⟩ := h
  unfold applyControl
  dsimp only
  split
  · split
    · exact ⟨journal, rfl, hjournal⟩
    · exact ⟨journal, rfl, hjournal⟩
  · split
    · exact ⟨journal, rfl, hjournal⟩
    · exact ⟨journal, rfl, hjournal⟩
    · refine ⟨journal ++ [controlMessage control], rfl, ?_⟩
      simp only [List.map_append, hjournal]
    · refine ⟨journal ++ [controlMessage control], rfl, ?_⟩
      simp only [List.map_append, hjournal]

theorem applyControls_same (h : SameSaved l l') (controls : List ControlRow) :
    SameSaved (applyControls l controls) (applyControls l' controls) := by
  induction controls generalizing l l' with
  | nil => exact h
  | cons control rest ih => exact ih (applyControl_same h control)

theorem charge_same (h : SameSaved l l') (nowNs : Int) :
    Alike SameSaved (charge l nowNs) (charge l' nowNs) := by
  obtain ⟨journal, rfl, hjournal⟩ := h
  unfold charge
  dsimp only
  split
  · split
    · exact .ok ⟨journal, rfl, hjournal⟩
    · exact .error _
  · exact .ok ⟨journal, rfl, hjournal⟩

theorem enterWait_same (h : SameSaved l l') (nowNs : Int) :
    Alike SameSaved (enterWait l nowNs) (enterWait l' nowNs) := by
  refine (charge_same h nowNs).bind ?_
  rintro after _ ⟨journal, rfl, hjournal⟩
  dsimp only
  split
  · exact .error _
  · exact .ok ⟨journal, rfl, hjournal⟩

theorem leaveWait_same {α : Type} {R : α → α → Prop} (h : SameSaved l l') (nowNs : Int)
    {answer answer' : Except PyError α} (hanswer : Alike R answer answer') :
    Alike (fun after after' => SameSaved after.1 after'.1 ∧ R after.2 after'.2)
      (leaveWait l nowNs answer) (leaveWait l' nowNs answer') := by
  have hlimits : l'.ledger.limits = l.ledger.limits := by
    obtain ⟨journal, rfl, _⟩ := h
    rfl
  unfold leaveWait
  rw [hlimits]
  split
  · refine (charge_same h nowNs).bind fun after after' hafter => ?_
    cases hanswer with
    | ok hvalue => exact .ok ⟨hafter, hvalue⟩
    | error e => cases e <;> exact .error _
  · cases hanswer with
    | ok hvalue => exact .ok ⟨h, hvalue⟩
    | error e => exact .error e

theorem resultMessage_redacted {calls : List String} {result : ToolResult}
    (hcall : result.callId ∈ calls) : checkpointMessage calls (resultMessage result) =
      { resultMessage result with content := redacted } :=
  if_pos ⟨rfl, by simpa [resultMessage] using hcall⟩

theorem recorded_same (h : SameSaved l l') {result result' : ToolResult}
    (hresult : result.persistable = result'.persistable) (ledger : BudgetLedger) :
    SameSaved (recorded l result ledger) (recorded l' result' ledger) := by
  obtain ⟨journal, rfl, hjournal⟩ := h
  have hmore : ∀ call ∈ l.nonpersistableCalls,
      call ∈ (recorded l result ledger).nonpersistableCalls := by
    intro call hcall
    unfold recorded
    dsimp only
    split
    · exact hcall
    · exact List.mem_append_left _ hcall
  have hbefore := checkpointMessages_more hmore hjournal
  rcases persistable_cases hresult with rfl | ⟨hunkept, heq⟩
  · refine ⟨journal ++ [resultMessage result'], rfl, ?_⟩
    rw [List.map_append, hbefore, ← List.map_append]
    rfl
  · have hcall : result.callId ∈ (recorded l result ledger).nonpersistableCalls := by
      simp [recorded, hunkept]
    have hcall' : result'.callId ∈ (recorded l result ledger).nonpersistableCalls := by
      rw [heq]
      exact hcall
    refine ⟨journal ++ [resultMessage result'], ?_, ?_⟩
    · rw [heq]
      rfl
    · have hsaved : checkpointMessage (recorded l result ledger).nonpersistableCalls
          (resultMessage result') = checkpointMessage (recorded l result ledger).nonpersistableCalls
            (resultMessage result) := by
        rw [resultMessage_redacted hcall', resultMessage_redacted hcall, heq]
        rfl
      have hadded : (recorded l result ledger).journal = l.journal ++ [resultMessage result] := rfl
      rw [hadded, List.map_append, List.map_append, hbefore, List.map_cons, hsaved]
      rfl

/-- One result is recorded. An observation that may differ is redacted from now on. -/
theorem recordResult_same (h : SameSaved l l') {result result' : ToolResult}
    (hresult : result.persistable = result'.persistable) :
    Alike SameSaved (recordResult l result) (recordResult l' result') := by
  have hrecorded := fun ledger => recorded_same h hresult ledger
  have hledger : l'.ledger = l.ledger := by
    obtain ⟨journal, rfl, _⟩ := h
    rfl
  have heffect : result'.effect = result.effect := by
    rcases persistable_cases hresult with rfl | ⟨_, heq⟩
    · rfl
    · rw [heq]
  rw [recordResult_eq, recordResult_eq, hledger, heffect]
  cases (if result.effect.isWrite then l.ledger.consumeIfLimited .externalWrites 1
    else .ok l.ledger) with
  | error e => exact .error e
  | ok ledger => exact .ok (hrecorded ledger)

/-! ### The code between two awaits -/

theorem settle_same {s s' : HarnessSegment} (h : SameSegment s s') :
    SameState (settle s) (settle s') := by
  obtain ⟨l, result⟩ := s
  obtain ⟨l', result'⟩ := s'
  obtain ⟨hl, hresult⟩ := h
  cases hresult with
  | ok hphase => exact ⟨hl, hphase⟩
  | error e =>
      unfold settle
      cases e with
      | cancelledByPolicy text => exact ⟨hl, .finishCancelled _⟩
      | wallTimeBudgetExceeded text => exact ⟨hl, .finishFailed _⟩
      | _ =>
          dsimp only
          split
          · exact ⟨hl, .finishFailed _⟩
          · exact ⟨hl, .raised _⟩

theorem segment_same_ok (h : SameSaved l l') {phase phase' : HarnessPhase}
    (hphase : SamePhase phase phase') : SameSegment (l, .ok phase) (l', .ok phase') := ⟨h, .ok hphase⟩

theorem segment_same_error (h : SameSaved l l') (e : PyError) :
    SameSegment (l, .error e) (l', .error e) := ⟨h, .error e⟩

theorem limited_same (h : SameSaved l l') {step step' : Except PyError Locals}
    {next next' : Locals → HarnessSegment} (hstep : Alike SameSaved step step')
    (hnext : ∀ after after', SameSaved after after' → SameSegment (next after) (next' after')) :
    SameSegment (limited l step next) (limited l' step' next') := by
  cases hstep with
  | ok hafter => exact hnext _ _ hafter
  | error e => exact segment_same_error h e

theorem poll_same (inv : Invocation) (h : SameSaved l l') {phase phase' : HarnessPhase}
    {next next' : Locals → HarnessSegment} (hphase : SamePhase phase phase')
    (hnext : SameSegment (next l) (next' l')) :
    SameSegment (poll inv l phase next) (poll inv l' phase' next') := by
  unfold poll
  split
  · exact segment_same_ok h hphase
  · exact hnext

/-- Code behind `raise_if_cancelled`. -/
theorem cancellable_same (h : SameSaved l l') {next next' : HarnessSegment}
    (hnext : l.cancelled = none → SameSegment next next') :
    SameSegment
      (match raiseIfCancelled l with
        | .error e => (l, .error e)
        | .ok () => next)
      (match raiseIfCancelled l' with
        | .error e => (l', .error e)
        | .ok () => next') := by
  rw [raiseIfCancelled_same h]
  cases hcancelled : l.cancelled with
  | some reason =>
      simp only [raiseIfCancelled, hcancelled]
      exact segment_same_error h _
  | none =>
      simp only [raiseIfCancelled, hcancelled]
      exact hnext hcancelled

theorem closeTurn_same (h : SameSaved l l') {build build' : ContextBuild}
    (hbuild : SameSources build build') : SameSegment (closeTurn l build) (closeTurn l' build') :=
  cancellable_same h fun _ => segment_same_ok h (.saveCheckpoint hbuild)

theorem receiveAnswer_same (h : SameSaved l l') {build build' : ContextBuild}
    (hbuild : SameSources build build') (response : ModelResponse) :
    SameSegment (receiveAnswer l build response) (receiveAnswer l' build' response) := by
  obtain ⟨journal, rfl, hjournal⟩ := h
  unfold receiveAnswer
  dsimp only
  split
  · exact segment_same_error ⟨journal, rfl, hjournal⟩ _
  · rename_i ledger _
    refine segment_same_ok ⟨journal ++ [assistantMessage response], rfl, ?_⟩
      (.modelCompleted hbuild response)
    simp only [List.map_append, hjournal]

theorem recordNext_same (inv : Invocation) (h : SameSaved l l') {build build' : ContextBuild}
    (hbuild : SameSources build build') {results results' : List ToolResult}
    (hresults : SameResults results results') :
    SameSegment (recordNext inv l build results) (recordNext inv l' build' results') := by
  cases results with
  | nil =>
      obtain rfl : results' = [] := List.map_eq_nil_iff.mp hresults.symm
      exact poll_same inv h (.pollAfterTools hbuild) (closeTurn_same h hbuild)
  | cons result rest =>
      cases results' with
      | nil => cases hresults
      | cons result' rest' =>
          refine limited_same h (recordResult_same h hresults.cons_inv.1) ?_
          intro after after' hafter
          exact segment_same_ok hafter (.resultRecorded hbuild hresults)

theorem nextCall_same (inv : Invocation) (h : SameSaved l l') {build build' : ContextBuild}
    (hbuild : SameSources build build') (enterNs : Int) (rest : List ToolCall)
    {results results' : List ToolResult} (hresults : SameResults results results') :
    SameSegment (nextCall inv l build enterNs rest results)
      (nextCall inv l' build' enterNs rest results') := by
  cases rest with
  | nil => exact recordNext_same inv h hbuild hresults
  | cons call rest =>
      refine limited_same h (enterWait_same h enterNs) ?_
      intro after after' hafter
      exact segment_same_ok hafter (.executeCall hbuild call rest hresults)

theorem executeTools_same (inv : Invocation) (h : SameSaved l l') {build build' : ContextBuild}
    (hbuild : SameSources build build') (enterNs : Int) (calls : List ToolCall) :
    SameSegment (executeTools inv l build enterNs calls)
      (executeTools inv l' build' enterNs calls) := by
  unfold executeTools
  split
  · refine limited_same h (enterWait_same h enterNs) ?_
    intro after after' hafter
    exact segment_same_ok hafter (.executeBatch hbuild calls)
  · exact nextCall_same inv h hbuild enterNs calls rfl

theorem requestTools_same (inv : Invocation) (h : SameSaved l l') {build build' : ContextBuild}
    (hbuild : SameSources build build') (enterNs : Int) (calls rest : List ToolCall) :
    SameSegment (requestTools inv l build enterNs calls rest)
      (requestTools inv l' build' enterNs calls rest) := by
  cases rest with
  | nil => exact executeTools_same inv h hbuild enterNs calls
  | cons call rest =>
      refine cancellable_same h fun _ => ?_
      obtain ⟨journal, rfl, hjournal⟩ := h
      dsimp only
      split
      · exact segment_same_error ⟨journal, rfl, hjournal⟩ _
      · exact ⟨⟨journal, rfl, hjournal⟩, .ok (.toolRequested hbuild calls _)⟩

theorem useAnswer_same (inv : Invocation) (h : SameSaved l l') {build build' : ContextBuild}
    (hbuild : SameSources build build') (response : ModelResponse) (enterNs : Int) :
    SameSegment (useAnswer inv l build response enterNs)
      (useAnswer inv l' build' response enterNs) := by
  refine cancellable_same h fun _ => ?_
  have hpending : l'.pendingAckIds = l.pendingAckIds := by
    obtain ⟨journal, rfl, _⟩ := h
    rfl
  rw [hpending, outcomeOf_same h]
  split
  · split
    · exact segment_same_ok h (.saveAnswer hbuild)
    · exact segment_same_ok h (.finishAnswer _)
  · exact requestTools_same inv h hbuild enterNs _ _

end Parts

/-! ### The context of a turn -/

/-- The build that the locals call for. -/
def contextBuild (inv : Invocation) (l : Locals) : Except PyError ContextBuild :=
  ContextEngine.build inv.definition inv.loaded inv.request.userRequest inv.request.evidence
    l.journal

/-- The code did not end in the exception of a context that does not fit. -/
def ContextFits (inv : Invocation) (s : HarnessSegment) : Prop :=
  ∀ e, s.2 = .error e → s.1.cancelled = none → contextBuild inv s.1 ≠ .error e

theorem contextBuild_sources {inv : Invocation} {l : Locals} {build : ContextBuild}
    (hbuild : contextBuild inv l = .ok build) :
    build.sourceVersions = sourceVersions inv.request := by
  unfold contextBuild ContextEngine.build at hbuild
  dsimp only at hbuild
  split at hbuild
  · cases hbuild
    rfl
  · split at hbuild
    · cases hbuild
    · split at hbuild
      · cases hbuild
      · cases hbuild
        rfl

section Contexts

variable {inv : Invocation} {definitions : List ToolDefinition} {l l' : Locals}

theorem buildContext_built (hcancelled : l.cancelled = none) {build : ContextBuild}
    (hbuild : contextBuild inv l = .ok build) : buildContext inv l =
      if build.journalCompacted then (l, .ok (.contextCompacted build))
      else requestModel inv l build := by
  unfold buildContext
  unfold contextBuild at hbuild
  simp only [raiseIfCancelled, hcancelled, hbuild]

theorem buildContext_fits (hcancelled : l.cancelled = none)
    (hfits : ContextFits inv (buildContext inv l)) : ∃ build, contextBuild inv l = .ok build := by
  cases hbuild : contextBuild inv l with
  | ok build => exact ⟨build, rfl⟩
  | error e =>
      have hfailed : buildContext inv l = (l, .error e) := by
        unfold buildContext
        unfold contextBuild at hbuild
        simp only [raiseIfCancelled, hcancelled, hbuild]
      rw [hfailed] at hfits
      exact absurd hbuild (hfits e rfl hcancelled)

theorem requestModel_ok (hdefinitions : inv.registry.definitions inv.definition.toolIds =
    .ok definitions) (l : Locals) (build : ContextBuild) :
    requestModel inv l build = (l, .ok (.turnStarted build)) := by
  unfold requestModel
  rw [hdefinitions]

/-- Both executions build their context; one of them may have to record a compaction first. -/
theorem buildContext_same (hdefinitions : inv.registry.definitions inv.definition.toolIds =
    .ok definitions) (h : SameSaved l l') (hfits : ContextFits inv (buildContext inv l))
    (hfits' : ContextFits inv (buildContext inv l')) :
    SameSegment (buildContext inv l) (buildContext inv l') := by
  cases hcancelled : l.cancelled with
  | some reason =>
      have hcancelled' : l'.cancelled = some reason := by
        obtain ⟨journal, rfl, _⟩ := h
        exact hcancelled
      simp only [buildContext, raiseIfCancelled, hcancelled, hcancelled']
      exact segment_same_error h _
  | none =>
      have hcancelled' : l'.cancelled = none := by
        obtain ⟨journal, rfl, _⟩ := h
        exact hcancelled
      obtain ⟨build, hbuild⟩ := buildContext_fits hcancelled hfits
      obtain ⟨build', hbuild'⟩ := buildContext_fits hcancelled' hfits'
      have hsources : SameSources build build' :=
        (contextBuild_sources hbuild).trans (contextBuild_sources hbuild').symm
      rw [buildContext_built hcancelled hbuild, buildContext_built hcancelled' hbuild',
        requestModel_ok hdefinitions, requestModel_ok hdefinitions]
      split
      · split
        · exact segment_same_ok h (.contextCompacted hsources)
        · exact segment_same_ok h (.compactedFirst hsources)
      · split
        · exact segment_same_ok h (.compactedSecond hsources)
        · exact segment_same_ok h (.turnStarted hsources)

theorem beginTurn_same (hdefinitions : inv.registry.definitions inv.definition.toolIds =
    .ok definitions) (h : SameSaved l l') (hfits : ContextFits inv (beginTurn inv l))
    (hfits' : ContextFits inv (beginTurn inv l')) :
    SameSegment (beginTurn inv l) (beginTurn inv l') := by
  have hturn : SameSaved { l with turn := l.turn + 1 } { l' with turn := l'.turn + 1 } := by
    obtain ⟨journal, rfl, hjournal⟩ := h
    exact ⟨journal, rfl, hjournal⟩
  unfold beginTurn poll at hfits hfits' ⊢
  dsimp only at hfits hfits' ⊢
  split
  · exact segment_same_ok hturn .pollBeforeModel
  · rename_i hinbox
    rw [if_neg hinbox] at hfits hfits'
    exact buildContext_same hdefinitions hturn hfits hfits'

theorem afterAnswerSaved_same (hdefinitions : inv.registry.definitions inv.definition.toolIds =
    .ok definitions) (h : SameSaved l l') (hfits : ContextFits inv (afterAnswerSaved inv l))
    (hfits' : ContextFits inv (afterAnswerSaved inv l')) :
    SameSegment (afterAnswerSaved inv l) (afterAnswerSaved inv l') := by
  have hcleared : SameSaved { l with pendingAckIds := [] } { l' with pendingAckIds := [] } := by
    obtain ⟨journal, rfl, hjournal⟩ := h
    exact ⟨journal, rfl, hjournal⟩
  unfold afterAnswerSaved at hfits hfits' ⊢
  split
  · exact segment_same_ok h .acknowledgeAnswer
  · rename_i hinbox
    rw [if_neg hinbox] at hfits hfits'
    exact beginTurn_same hdefinitions hcleared hfits hfits'

theorem afterTurnSaved_same (inv : Invocation) (h : SameSaved l l') :
    SameSegment (afterTurnSaved inv l) (afterTurnSaved inv l') := by
  obtain ⟨journal, rfl, hjournal⟩ := h
  unfold afterTurnSaved
  dsimp only
  split
  · exact segment_same_ok ⟨journal, rfl, hjournal⟩ (.acknowledgeTurn _)
  · exact ⟨⟨journal, rfl, hjournal⟩, .ok (.checkpointSaved _)⟩

end Contexts

end AgentHarness

end Codex2Lark
