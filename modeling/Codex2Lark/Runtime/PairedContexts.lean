import Codex2Lark.Runtime.ControlDelivery
import Codex2Lark.Runtime.ToolPairs
import Codex2Lark.Runtime.TurnRule

/-!
The contexts of a run. Between two turns the journal is complete, in every lifetime and in every
stored checkpoint; so a context pairs tool calls with their results unless it is compacted at a
steering message within a turn.
-/

namespace Codex2Lark

open Lib

/-- The turn has no call whose result is still to be recorded. -/
def HarnessPhase.betweenTurns : HarnessPhase → Bool
  | .pollBeforeModel | .contextCompacted _ | .turnStarted _ | .completeModel _ | .modelRunning _
  | .saveAnswer _ | .acknowledgeAnswer | .finishAnswer _ | .pollAfterTools _ | .saveCheckpoint _
  | .acknowledgeTurn _ | .checkpointSaved _ => true
  | _ => false

namespace AgentHarness

/-! ### One turn -/

/-- The last answer of the journal waits for the results of these calls. Users are heard only
until the first result is recorded. -/
def Awaits (owed : List ToolCall) (results : List ToolResult) (journal : List ModelMessage) : Prop :=
  ∃ before answer users recorded, Complete before ∧
    Exchange answer users recorded (results.map ToolResult.callId ++ owed.map ToolCall.callId) ∧
    journal = before ++ answer :: (users ++ recorded) ∧ (owed ≠ [] → recorded = [])

def Owes : List ToolCall → List ToolResult → List ModelMessage → Prop
  | [], [], journal => Complete journal
  | owed, results, journal => Awaits owed results journal

def JournalAt : TurnPoint → Locals → Prop
  | .quiet, l => Complete l.journal
  | .waiting calls results, l => Owes calls results l.journal
  | .running calls rest results, l => Owes (calls ++ rest) results l.journal

theorem owes_of_awaits {owed : List ToolCall} {results : List ToolResult}
    {journal : List ModelMessage} (h : Awaits owed results journal) : Owes owed results journal := by
  cases owed with
  | cons call owed => exact h
  | nil =>
      cases results with
      | cons result results => exact h
      | nil =>
          obtain ⟨before, answer, users, recorded, hbefore, hexchange, rfl, _⟩ := h
          exact hbefore.exchange hexchange

theorem answers_ids {registry : ToolRegistry} {calls : List ToolCall} {answers : List ToolResult}
    (hanswers : List.Forall₂ (Answers registry) calls answers) :
    answers.map ToolResult.callId = calls.map ToolCall.callId := by
  induction hanswers with
  | nil => rfl
  | cons hanswer _ ih => rw [List.map_cons, List.map_cons, ih, hanswer.1]

theorem Owes.returned {registry : ToolRegistry} {calls rest : List ToolCall}
    {results answers : List ToolResult} {journal : List ModelMessage}
    (h : Owes (calls ++ rest) results journal)
    (hanswers : List.Forall₂ (Answers registry) calls answers) :
    Owes rest (results ++ answers) journal := by
  have hids := answers_ids hanswers
  by_cases hnothing : calls ++ rest = [] ∧ results = []
  · obtain ⟨hcalls, rfl⟩ := hnothing
    obtain ⟨rfl, rfl⟩ := List.append_eq_nil_iff.mp hcalls
    cases hanswers
    exact h
  · have hawaits : Awaits (calls ++ rest) results journal := by
      unfold Owes at h
      split at h
      · rename_i hcalls
        exact absurd ⟨hcalls, rfl⟩ hnothing
      · exact h
    obtain ⟨before, answer, users, recorded, hbefore, hexchange, hjournal, hearly⟩ := hawaits
    refine owes_of_awaits ⟨before, answer, users, recorded, hbefore, ?_, hjournal, fun hrest =>
      hearly fun hnone => hrest (List.append_eq_nil_iff.mp hnone).2⟩
    refine ⟨hexchange.answers, hexchange.said, hexchange.returned, ?_⟩
    have hcalls := hexchange.calls
    simp only [List.map_append, List.append_assoc, hids] at hcalls ⊢
    exact hcalls

theorem complete_control {l : Locals} (control : ControlRow) (hl : Complete l.journal) :
    Complete (applyControl l control).journal := by
  rw [applyControl_journal]
  split
  · exact hl.user rfl
  · exact hl

/-- A control that arrives before the first result. -/
theorem owes_control {calls : List ToolCall} {l : Locals} (control : ControlRow)
    (hl : Owes calls [] l.journal) : Owes calls [] (applyControl l control).journal := by
  cases calls with
  | nil => exact complete_control control hl
  | cons call calls =>
      obtain ⟨before, answer, users, recorded, hbefore, hexchange, hjournal, hearly⟩ := hl
      obtain rfl := hearly (List.cons_ne_nil _ _)
      rw [List.append_nil] at hjournal
      rw [applyControl_journal]
      split
      · refine ⟨before, answer, users ++ [controlMessage control], [], hbefore,
          ⟨hexchange.answers, ?_, hexchange.returned, hexchange.calls⟩, ?_, fun _ => rfl⟩
        · intro message hmem
          rcases List.mem_append.mp hmem with hold | hnew
          · exact hexchange.said message hold
          · rw [List.mem_singleton.mp hnew]
            rfl
        · rw [hjournal]
          simp
      · exact ⟨before, answer, users, [], hbefore, hexchange, by rw [hjournal, List.append_nil],
          fun _ => rfl⟩

theorem journal_rule (registry : ToolRegistry) :
    TurnRule registry (fun _ => True) JournalAt where
  turn hl := hl
  acknowledged hl := hl
  finished hl := hl
  spend := by
    intro point l ledger lastNs remainderNs _ hl
    cases point <;> exact hl
  cancelled := by
    intro point l reason hl
    cases point <;> exact hl
  answer := by
    intro l response _ hl
    refine owes_of_awaits ⟨l.journal, assistantMessage response, [], [], hl, ?_, rfl, fun _ => rfl⟩
    exact ⟨rfl, fun _ hmem => absurd hmem List.not_mem_nil,
      fun _ hmem => absurd hmem List.not_mem_nil, by simp [assistantMessage]⟩
  returned hl hanswers := hl.returned hanswers
  record := by
    intro result rest l after hl hrecord
    rw [(recordResult_ok hrecord).1]
    obtain ⟨before, answer, users, recorded, hbefore, hexchange, hjournal, _⟩ := hl
    refine owes_of_awaits ⟨before, answer, users, recorded ++ [resultMessage result], hbefore, ?_, ?_,
      fun hsome => absurd rfl hsome⟩
    · refine ⟨hexchange.answers, hexchange.said, ?_, ?_⟩
      · intro message hmem
        rcases List.mem_append.mp hmem with hold | hnew
        · exact hexchange.returned message hold
        · rw [List.mem_singleton.mp hnew]
          rfl
      · have hcalls := hexchange.calls
        simpa [resultMessage] using hcalls
    · rw [hjournal]
      simp
  control control hl := complete_control control hl
  controlWaiting control hl := owes_control control hl

/-! ### One step of a lifetime -/

/-- The annotation at every await; before the loop, the journal is empty or restored. -/
def LiveJournal (h : Harness) : Prop :=
  match h.phase with
  | .startRun | .runStarted | .loadCheckpoint | .discardCheckpoint _ | .checkpointInvalidated _
  | .acknowledgeCheckpoint _ => Complete h.locals.journal
  | .runStatus loaded => Complete h.locals.journal ∧
      ∀ checkpoint, loaded = some checkpoint → Complete checkpoint.messages
  | phase => InTurn JournalAt h.locals phase

variable {inv : Invocation} {l : Locals} {db after : Database} {clock : ClockReadings}
  {state : Locals × HarnessPhase}

theorem liveJournal_of_inTurn (hturn : InTurn JournalAt state.1 state.2) :
    LiveJournal ⟨inv, state.1, state.2⟩ := by
  obtain ⟨l, phase⟩ := state
  cases phase with
  | startRun | runStarted | loadCheckpoint | runStatus _ | discardCheckpoint _
  | checkpointInvalidated _ | acknowledgeCheckpoint _ => exact hturn.elim
  | _ => exact hturn

theorem liveJournal_enterLoop (hl : Complete l.journal) :
    LiveJournal ⟨inv, (enterLoop inv l clock).1, (enterLoop inv l clock).2⟩ :=
  liveJournal_of_inTurn (inTurn_enterLoop (journal_rule inv.registry) hl clock)

theorem liveJournal_enterRestored {checkpoint : RunCheckpoint} (hl : Complete l.journal) :
    LiveJournal ⟨inv, (enterRestored inv l checkpoint clock).1,
      (enterRestored inv l checkpoint clock).2⟩ :=
  liveJournal_of_inTurn (inTurn_enterRestored (journal_rule inv.registry) fun _ _ => hl)

theorem liveJournal_useCheckpoint {loaded : Option RunCheckpoint} {status : Option RunStatus}
    (hl : Complete l.journal)
    (hloaded : ∀ checkpoint, loaded = some checkpoint → Complete checkpoint.messages) :
    LiveJournal ⟨inv, (useCheckpoint inv l loaded status clock).1,
      (useCheckpoint inv l loaded status clock).2⟩ := by
  refine useCheckpoint_rule (P := fun state => LiveJournal ⟨inv, state.1, state.2⟩)
    (fun _ => trivial) (fun _ _ => liveJournal_enterLoop hl) (fun _ _ _ _ _ => hl) ?_
  rintro checkpoint _ rfl _
  have hrestored : Complete (restore l checkpoint).journal := hloaded checkpoint rfl
  exact ⟨fun _ => hrestored, liveJournal_enterRestored hrestored⟩

theorem liveJournal_outside {α : Type} {operation : Database → Except PyError (α × Database)}
    {next : α → Locals × HarnessPhase}
    (hnext : ∀ value, LiveJournal ⟨inv, (next value).1, (next value).2⟩) :
    LiveJournal ⟨inv, (outside l operation db next).2.1, (outside l operation db next).2.2⟩ :=
  outside_rule (P := fun state => LiveJournal ⟨inv, state.1, state.2⟩) rfl
    (fun value _ => hnext value) fun _ => trivial

theorem liveJournal_commit {phase : HarnessPhase} (hlive : LiveJournal ⟨inv, l, phase⟩)
    (hstored : ∀ checkpoint, SessionStore.loadCheckpoint inv.request.runId db = some checkpoint →
      Complete checkpoint.messages)
    (hcommit : commit inv clock db l phase = some (after, state)) :
    LiveJournal ⟨inv, state.1, state.2⟩ := by
  have hinTurn (hturn : InTurn JournalAt l phase) : LiveJournal ⟨inv, state.1, state.2⟩ :=
    liveJournal_of_inTurn (inTurn_commit (journal_rule inv.registry) hturn hcommit)
  cases phase with
  | startRun =>
      obtain rfl := congrArg Prod.snd (Option.some.inj hcommit)
      exact liveJournal_outside fun _ => hlive
  | runStarted =>
      obtain rfl := congrArg Prod.snd (Option.some.inj hcommit)
      exact liveJournal_outside fun _ => liveJournal_enterLoop hlive
  | loadCheckpoint =>
      cases hcommit
      exact ⟨hlive, hstored⟩
  | runStatus loaded =>
      cases hcommit
      exact liveJournal_useCheckpoint hlive.1 hlive.2
  | discardCheckpoint reason =>
      obtain rfl := congrArg Prod.snd (Option.some.inj hcommit)
      exact liveJournal_outside fun _ => hlive
  | checkpointInvalidated reason =>
      obtain rfl := congrArg Prod.snd (Option.some.inj hcommit)
      exact liveJournal_outside fun _ => liveJournal_enterLoop hlive
  | acknowledgeCheckpoint checkpoint =>
      cases hcommit
      exact liveJournal_enterRestored hlive
  | _ => exact hinTurn hlive

/-- The steps that are no transactions. -/
theorem liveJournal_step {h h' : Harness} {label : HarnessLabel} {events : List HarnessEvent}
    (hlabel : ∀ clock, label ≠ .commit clock) (hlive : LiveJournal h)
    (hstep : h.step db label = some (after, h', events)) : LiveJournal h' := by
  obtain ⟨inv, l, phase⟩ := h
  cases label with
  | commit clock => exact absurd rfl (hlabel clock)
  | begin =>
      simp only [Harness.step] at hstep
      cases phase with
      | completeModel build =>
          cases hstep
          exact hlive
      | executeBatch build calls =>
          cases hstep
          have hcalls : Owes (calls ++ []) [] l.journal := by
            rw [List.append_nil]
            exact hlive
          exact hcalls
      | executeCall build call rest results =>
          cases hstep
          exact hlive
      | _ => cases hstep
  | model answer clock =>
      simp only [Harness.step] at hstep
      cases phase with
      | modelRunning build =>
          cases hstep
          exact liveJournal_of_inTurn
            (inTurn_model (journal_rule inv.registry) hlive (fun _ _ => trivial) clock)
      | _ => cases hstep
  | batch answer clock =>
      simp only [Harness.step] at hstep
      cases phase with
      | batchRunning build calls =>
          cases hstep
          exact liveJournal_of_inTurn
            (inTurn_batch (journal_rule inv.registry) build rfl hlive answer clock)
      | _ => cases hstep
  | tool answer clock =>
      simp only [Harness.step] at hstep
      cases phase with
      | callRunning build call rest results =>
          cases hstep
          exact liveJournal_of_inTurn
            (inTurn_tool (journal_rule inv.registry) build rfl hlive answer clock)
      | _ => cases hstep
  | cancelToken reason =>
      simp only [Harness.step] at hstep
      split at hstep
      · cases hstep
      · cases hstep
        have hcancel (hturn : InTurn JournalAt l phase) :
            LiveJournal ⟨inv, cancel l reason, phase⟩ :=
          @liveJournal_of_inTurn inv (cancel l reason, phase)
            (inTurn_cancel (journal_rule inv.registry) hturn reason)
        cases phase with
        | startRun | runStarted | loadCheckpoint | runStatus _ | discardCheckpoint _
        | checkpointInvalidated _ | acknowledgeCheckpoint _ => exact hlive
        | _ => exact hcancel hlive
  | abort =>
      simp only [Harness.step] at hstep
      split at hstep <;> cases hstep
      trivial

/-- A map that keeps the roles, the calls and their identifiers. -/
theorem complete_map {f : ModelMessage → ModelMessage}
    (hkeep : ∀ message, (f message).role = message.role ∧
      (f message).toolCalls = message.toolCalls ∧ (f message).toolCallId = message.toolCallId)
    {journal : List ModelMessage} (h : Complete journal) : Complete (journal.map f) := by
  have hrole {messages : List ModelMessage} {role : MessageRole}
      (hall : ∀ message ∈ messages, message.role = role) :
      ∀ message ∈ messages.map f, message.role = role := by
    intro message hmem
    obtain ⟨old, hold, rfl⟩ := List.mem_map.mp hmem
    rw [(hkeep old).1]
    exact hall old hold
  induction h with
  | nil => exact .nil
  | @user journal message hjournal huser ih =>
      rw [List.map_append]
      exact ih.user (by rw [(hkeep message).1, huser])
  | @exchange journal answer users results hjournal hexchange ih =>
      rw [List.map_append, List.map_cons, List.map_append]
      refine ih.exchange ⟨?_, hrole hexchange.said, hrole hexchange.returned, ?_⟩
      · rw [(hkeep answer).1]
        exact hexchange.answers
      · rw [(hkeep answer).2.1, ← hexchange.calls, List.map_map]
        congr 1
        exact List.map_congr_left fun message _ => (hkeep message).2.2

theorem checkpointMessage_keeps (nonpersistableCalls : List String) (message : ModelMessage) :
    (checkpointMessage nonpersistableCalls message).role = message.role ∧
      (checkpointMessage nonpersistableCalls message).toolCalls = message.toolCalls ∧
      (checkpointMessage nonpersistableCalls message).toolCallId = message.toolCallId := by
  unfold checkpointMessage
  split
  · exact ⟨rfl, rfl, rfl⟩
  · exact ⟨rfl, rfl, rfl⟩

theorem complete_saved {phase : HarnessPhase} {build : ContextBuild}
    (hlive : LiveJournal ⟨inv, l, phase⟩) (hsaving : phase.saving? = some build) :
    Complete (checkpointOf inv l build.sourceVersions).messages := by
  have hjournal : Complete l.journal := by
    cases phase with
    | saveAnswer other => exact hlive
    | saveCheckpoint other => exact hlive
    | _ => cases hsaving
  exact complete_map (checkpointMessage_keeps l.nonpersistableCalls) hjournal

end AgentHarness

namespace RunSystem

open AgentHarness

variable {run : RootRun}

/-! ### Runs -/

structure JournalsOk (run : RootRun) (s : RunSystem) : Prop where
  attached : s.Attached run
  stored : ∀ checkpoint, SessionStore.loadCheckpoint run.runId s.db = some checkpoint →
    Complete checkpoint.messages
  live : ∀ h, s.harness = some h → LiveJournal h

theorem journalsOk_start : JournalsOk run {} := by
  constructor
  · exact attached_of_none rfl
  · intro checkpoint hload
    cases hload
  · intro h hh
    cases hh

theorem journalsOk_step {s t : RunSystem} {label : RunStep} (hs : s.JournalsOk run)
    (hstep : s.step run label = some t) : t.JournalsOk run := by
  have hattached := attached_step hs.attached hstep
  cases label with
  | store op =>
      obtain ⟨hforeign, rfl⟩ := store_cases hstep
      exact ⟨hattached, fun checkpoint hload =>
        hs.stored checkpoint (foreign_checkpoint hforeign checkpoint hload), hs.live⟩
  | launch inv resume =>
      obtain ⟨_, harness, rfl, hnew⟩ := launch_cases hstep
      refine ⟨hattached, hs.stored, ?_⟩
      intro h hh
      obtain ⟨_, hphase, _, _, hlocals⟩ := hnew h hh
      unfold LiveJournal
      rw [hphase, hlocals]
      cases resume with
      | false => exact .nil
      | true => exact .nil
  | crash =>
      obtain rfl := crash_cases hstep
      refine ⟨hattached, hs.stored, ?_⟩
      intro h hh
      cases hh
  | harness label =>
      obtain ⟨h, after, h', events, hh, hnext, rfl⟩ := harness_cases hstep
      have hlive := hs.live h hh
      have hrunId := (hs.attached.owns h hh).1
      by_cases hlabel : ∃ clock, label = .commit clock
      · obtain ⟨clock, rfl⟩ := hlabel
        obtain ⟨state, hcommit, rfl, rfl⟩ := Harness.commit_cases hnext
        refine ⟨hattached, ?_, ?_⟩
        · intro checkpoint hload
          rw [← hrunId] at hload
          rcases commit_checkpoint hcommit hload with hbefore | ⟨build, hsaving, rfl⟩
          · exact hs.stored checkpoint (hrunId ▸ hbefore)
          · exact complete_saved hlive hsaving
        · intro other hother
          obtain rfl := Option.some.inj hother
          exact liveJournal_commit hlive (fun checkpoint hload =>
            hs.stored checkpoint (hrunId ▸ hload)) hcommit
      · have hcommits : ∀ clock, label ≠ .commit clock := fun clock h => hlabel ⟨clock, h⟩
        obtain ⟨rfl, _⟩ := Harness.step_database hcommits hnext
        refine ⟨hattached, hs.stored, ?_⟩
        intro other hother
        obtain rfl := Option.some.inj hother
        exact liveJournal_step hcommits hlive hnext

theorem complete_between {h : Harness} (hlive : LiveJournal h)
    (hphase : h.phase.betweenTurns = true) : Complete h.locals.journal := by
  obtain ⟨inv, l, phase⟩ := h
  cases phase <;> first | exact hlive | cases hphase

/-- Over any steering, crashes and resumes: a context that is built of the journal pairs tool
calls with their results, unless the context overflows without its optional evidence and a
steering message splits the turn at which the journal is cut. -/
theorem contexts_pair_tools (run : RootRun) (steps : List RunStep) (s : RunSystem) (h : Harness)
    (hreached : exec (step run) steps {} = some s) (hh : s.harness = some h)
    (hphase : h.phase.betweenTurns = true) (definition : AgentDefinition)
    (resources : LoadedResources) (userRequest : String) (evidence : List ContextEvidence)
    (built : ContextBuild)
    (hbuilt : ContextEngine.build definition resources userRequest evidence h.locals.journal =
      .ok built) :
    PairsTools built.messages ↔
      ¬ (ContextInput.Overflows definition resources ⟨userRequest, evidence, h.locals.journal⟩ ∧
        SplitsTurn h.locals.journal) := by
  have hinvariant : s.JournalsOk run :=
    exec_invariant_of_step (fun _ _ _ hs hstep => journalsOk_step hs hstep) journalsOk_start
      hreached
  have hjournal := complete_between (hinvariant.live h hh) hphase
  exact ContextInput.pairsTools_iff hjournal hbuilt

/-- After one tool call. -/
theorem contexts_pair_tools_after_call :
    let inv : Invocation :=
      { request :=
          { runId := "run", taskId := "task", nodeId := "/root", userRequest := "read it"
            toolContext :=
              { runId := "run", nodeId := "/root", tenantKey := "tenant", appId := "app"
                actorId := "user", sessionKey := "tenant/app/chat", identityRef := "bot"
                policyVersion := 1, taskId := some "task" } }
        definition :=
          { agentId := "root", version := 1, instructions := "Help.", modelProfile := "default"
            toolIds := ["doc.read"] }
        registry := ⟨[{ definition :=
          ⟨"doc.read", 1, "Read a document.", [], .read, false⟩ }], by decide⟩
        loaded := ⟨[], [], []⟩, hasInbox := false, clockMs := 3, digest := fun _ => "digest" }
    let mention : NormalizedEvent :=
      { eventId := "event-1", pluginId := "im", eventType := "im.message", tenantKey := "tenant"
        appId := "app", occurredAtMs := 0, receivedAtMs := 0, resourceKind := "message"
        resourceId := "message-1", traceId := "trace-1" }
    let command : TaskCommand := ⟨"im", "im.handle_mention", "tenant/app/chat", [], 0, 0, 5, none⟩
    let commit : RunStep := .harness (.commit {})
    let read : ToolExecutor.PermittedAnswer :=
      { observation := [], verification := ⟨.notRequired, "doc", "read", []⟩ }
    let steps : List RunStep :=
      [.store (.admitEvent mention command none "task" "outbox-1" 0), .launch inv false, commit,
        commit, commit, .harness .begin,
        .harness (.model (.ok { content := "", toolCalls := [⟨"call-1", "doc.read", []⟩] }) {}),
        commit, commit, .harness .begin,
        .harness (.tool (.ok ⟨.ok ⟨true, "", false⟩, .ok true, .ok read⟩) {}), commit, commit,
        commit]
    ∃ s h built, exec (step ⟨"run", "task"⟩) steps {} = some s ∧ s.harness = some h ∧
      ContextEngine.build inv.definition inv.loaded "read it" [] h.locals.journal = .ok built ∧
      PairsTools built.messages := by
  intro inv mention command commit read steps
  have hcheck : ((exec (step ⟨"run", "task"⟩) steps {}).bind fun s => s.harness.map fun h =>
      h.phase.betweenTurns && decide (¬ SplitsTurn h.locals.journal) &&
        (ContextEngine.build inv.definition inv.loaded "read it" [] h.locals.journal).isOk) =
      some true := by
    decide +kernel
  obtain ⟨s, hs, hrest⟩ := Option.bind_eq_some_iff.mp hcheck
  obtain ⟨h, hh, htests⟩ := Option.map_eq_some_iff.mp hrest
  simp only [Bool.and_eq_true, decide_eq_true_eq] at htests
  obtain ⟨⟨hphase, hwhole⟩, hok⟩ := htests
  cases hbuilt : ContextEngine.build inv.definition inv.loaded "read it" [] h.locals.journal with
  | error e =>
      rw [hbuilt] at hok
      cases hok
  | ok built =>
      exact ⟨s, h, built, hs, hh, hbuilt, (contexts_pair_tools ⟨"run", "task"⟩ steps s h hs hh hphase
        inv.definition inv.loaded "read it" [] built hbuilt).mpr fun hsplit => hwhole hsplit.2⟩

/-- A long answer calls six tools, and a steering message arrives before their results. The
compacted context begins with the steering message. -/
theorem steering_splits_turn :
    let inv : Invocation :=
      { request :=
          { runId := "run", taskId := "task", nodeId := "/root", userRequest := "read it"
            toolContext :=
              { runId := "run", nodeId := "/root", tenantKey := "tenant", appId := "app"
                actorId := "user", sessionKey := "tenant/app/chat", identityRef := "bot"
                policyVersion := 1, taskId := some "task" } }
        definition :=
          { agentId := "root", version := 1, instructions := "Help.", modelProfile := "default"
            toolIds := ["doc.read"] }
        registry := ⟨[{ definition :=
          ⟨"doc.read", 1, "Read a document.", [], .read, true⟩ }], by decide⟩
        loaded := ⟨[], [], []⟩, hasInbox := true, clockMs := 3, digest := fun _ => "digest" }
    let mention : NormalizedEvent :=
      { eventId := "event-1", pluginId := "im", eventType := "im.message", tenantKey := "tenant"
        appId := "app", occurredAtMs := 0, receivedAtMs := 0, resourceKind := "message"
        resourceId := "message-1", traceId := "trace-1" }
    let command : TaskCommand :=
      { pluginId := "im", commandType := "im.handle_mention", sessionKey := "tenant/app/chat"
        payload := [("sender_id", .str "user")], maxAttempts := 5 }
    let steer : RuntimeStore.ControlAdmission :=
      { event := { mention with eventId := "event-2", resourceId := "message-2" }
        sessionKey := "tenant/app/chat", actorId := "user", kind := .steer
        text := "use the other table"
        acknowledgement := ⟨"im", "chat", "reply", "control:event-2", [], 0⟩ }
    let commit : RunStep := .harness (.commit {})
    let response : ModelResponse :=
      { content := String.ofList (List.replicate 400 'a')
        toolCalls := ["1", "2", "3", "4", "5", "6"].map fun id => ⟨id, "doc.read", []⟩ }
    let read : ToolExecutor.ToolAnswer := ⟨.ok ⟨true, "", false⟩, .ok true,
      .ok { observation := [], verification := ⟨.notRequired, "doc", "read", []⟩ }⟩
    let steps : List RunStep :=
      [.store (.admitEvent mention command none "task" "outbox-1" 0),
        .store (.leaseTasks ⟨"worker", 1, 60000, 1⟩ none), .launch inv false, commit, commit,
        commit, commit, .harness .begin, .harness (.model (.ok response) {}),
        .store (.admitControl steer "control" "outbox-2" 2)] ++
      List.replicate 8 commit ++
      [.harness .begin, .harness (.batch (.ok (List.replicate 6 read)) {})] ++
      List.replicate 10 commit
    ¬ ∀ (s : RunSystem) (h : Harness) (definition : AgentDefinition) (built : ContextBuild),
      exec (step ⟨"run", "task"⟩) steps {} = some s → s.harness = some h →
      h.phase.betweenTurns = true →
      ContextEngine.build definition inv.loaded "read it" [] h.locals.journal = .ok built →
      PairsTools built.messages := by
  intro inv mention command steer commit response read steps hall
  have hcheck : ((exec (step ⟨"run", "task"⟩) steps {}).bind fun s => s.harness.map fun h =>
      h.phase.betweenTurns && decide (SplitsTurn h.locals.journal) &&
        decide (h.locals.journal.take (ContextEngine.journalCut h.locals.journal) =
          [AgentHarness.assistantMessage response])) = some true := by
    decide +kernel
  obtain ⟨s, hs, hrest⟩ := Option.bind_eq_some_iff.mp hcheck
  obtain ⟨h, hh, htests⟩ := Option.map_eq_some_iff.mp hrest
  simp only [Bool.and_eq_true, decide_eq_true_eq] at htests
  obtain ⟨⟨hphase, hsplits⟩, hcut⟩ := htests
  have hlong : 400 ≤ (AgentHarness.assistantMessage response).content.length := by
    change 400 ≤ (String.ofList (List.replicate 400 'a')).length
    rw [String.length_ofList, List.length_replicate]
  obtain ⟨narrow, built, hover, hbuilt⟩ := ContextInput.build_compacts inv.definition inv.loaded
    (by rw [hcut]; exact List.cons_ne_nil _ _)
    (by rw [hcut]; exact ContextInput.summary_shorter rfl hlong)
  have hpairs := hall s h narrow built hs hh hphase hbuilt
  have hinvariant : s.JournalsOk ⟨"run", "task"⟩ :=
    exec_invariant_of_step (fun _ _ _ hs hstep => journalsOk_step hs hstep) journalsOk_start hs
  have hjournal := complete_between (hinvariant.live h hh) hphase
  exact (@ContextInput.pairsTools_iff _ _ ⟨"read it", [], h.locals.journal⟩ built hjournal
    hbuilt).mp hpairs ⟨hover, hsplits⟩

end RunSystem

end Codex2Lark
