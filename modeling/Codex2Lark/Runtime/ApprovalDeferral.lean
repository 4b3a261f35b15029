import Codex2Lark.Im.TaskHandler
import Codex2Lark.Runtime.Approvals
import Codex2Lark.Runtime.Harness
import Codex2Lark.Storage.RunStatus

/-!
A destructive call whose approval is pending, from the broker through the
executor, the harness and the handler to the task worker. `TaskDeferred` is a
`RuntimeError`, and the last `except` clause of the harness takes it.
-/

namespace Codex2Lark

open Lib

/-- One leased task: its handler, the harness of its root run and the worker that
waits for the handler. `result` is what `_execute` returned or raised. -/
structure TaskSystem where
  db : Database
  harness : Harness
  broker : DurableApprovalBroker
  handler : IMMentionTaskHandler
  worker : DurableTaskWorker
  task : LeasedTask
  binding : IMMentionTaskHandler.Binding
  contextWarnings : List String := []
  result : Option (Except PyError Bool) := none

/-- What the other awaits of the call answer, with the fresh identifier and the
clock of the broker. -/
structure ApprovalStep where
  decision : PolicyDecision
  permitted : Except PyError ToolExecutor.PermittedAnswer
  outboxId : String
  nowMs : Int
  clock : ClockReadings

inductive TaskStep where
  | store (op : StoreOp)
  | harness (label : HarnessLabel)
  | approval (args : ApprovalStep)
  | worker (lifecycle : Except PyError Unit) (nowMs : Int) (outboxId : String)

def HarnessPhase.runningCall? : HarnessPhase → Option ToolCall
  | .callRunning _ call _ _ => some call
  | _ => none

/-- What `harness.run` has answered. -/
def HarnessPhase.answer? : HarnessPhase → Option (Except PyError AgentOutcome)
  | .returned outcome => some (.ok outcome)
  | .raised e => some (.error e)
  | _ => none

namespace TaskSystem

/-- The broker's answer for the running call, when `execute` gets as far as the
broker. -/
def brokerAnswer (s : TaskSystem) (args : ApprovalStep) : Option (Except PyError Bool × Database) :=
  match s.harness.phase.runningCall? with
  | none => none
  | some call =>
      match s.harness.inv.registry.require call.toolId with
      | .error _ => none
      | .ok tool =>
          if (tool.validate call.arguments).isNone ∧ args.decision.allowed ∧
              args.decision.approvalRequired then
            some (s.broker.request tool.definition call s.harness.inv.request.toolContext
              args.outboxId args.nowMs s.db)
          else none

def step (s : TaskSystem) : TaskStep → Option TaskSystem
  | .store op => some { s with db := op.apply s.db }
  | .harness label =>
      (s.harness.step s.db label).map fun (after, h, _) => { s with db := after, harness := h }
  | .approval args =>
      match s.brokerAnswer args with
      | none => none
      | some (approval, after) =>
          (s.harness.step after
            (.tool (.ok ⟨.ok args.decision, approval, args.permitted⟩) args.clock)).map
              fun (after, h, _) => { s with db := after, harness := h }
  | .worker lifecycle nowMs outboxId =>
      match s.result, s.harness.phase.answer? with
      | none, some answer =>
          let (result, after) := s.worker.execute s.task nowMs outboxId
            (s.handler.afterRun s.task s.binding s.contextWarnings lifecycle answer) s.db
          some { s with db := after, result := some result }
      | _, _ => none

/-- The broker raises the deferral in this step. -/
def Defers (s : TaskSystem) (args : ApprovalStep) : Prop :=
  ∃ reason delayMs after,
    s.brokerAnswer args = some (.error (.taskDeferred reason delayMs), after)

/-- The deferral is kept: it leaves the harness, the run stays open and the task
waits for a later lease with its attempt given back. -/
structure DeferralKept (s : TaskSystem) : Prop where
  propagated : ∃ reason delayMs, s.harness.phase = .raised (.taskDeferred reason delayMs)
  running : SessionStore.runStatus s.harness.inv.request.runId s.db = some .running
  noTerminalEvent : ∀ event ∈ s.db.runEvents, event.runId = s.harness.inv.request.runId →
    event.eventType ≠ "run_terminal"
  pending : ∃ row ∈ s.db.tasks, row.taskId = s.task.taskId ∧ row.state = .pending ∧
    row.attemptCount + 1 = s.task.attemptCount
  noTerminalMessage : ∀ row ∈ s.db.outbox,
    row.draft.idempotencyKey ≠ IMMentionTaskHandler.terminalKey s.binding

/-- The run is closed as failed, with its event. -/
structure ClosedAsFailed (s : TaskSystem) : Prop where
  failed : SessionStore.runStatus s.harness.inv.request.runId s.db = some .failed
  terminalEvent : ∃ event ∈ s.db.runEvents,
    event.runId = s.harness.inv.request.runId ∧ event.eventType = "run_terminal"

/-- What a deferral leads to: the harness closes its run as failed, unless the
closing itself raises or the coroutine is aborted. -/
def Closing (s : TaskSystem) : Prop :=
  match s.harness.phase with
  | .finishFailed outcome => outcome.status = .failed
  | .returned outcome => outcome.status = .failed ∧ s.ClosedAsFailed
  | .raised e => ∀ reason delayMs, e ≠ .taskDeferred reason delayMs
  | _ => False

end TaskSystem

namespace AgentHarness

/-- The wait adds at most an exhausted budget to the exception it passes on. -/
theorem leaveWait_error {α : Type} {l : Locals} {nowNs : Int} {e : PyError}
    (hnotimeout : ∀ text, e ≠ .timeoutError text) :
    (leaveWait (α := α) l nowNs (.error e)) = .error e ∨
      ∃ text, leaveWait (α := α) l nowNs (.error e) = .error (.wallTimeBudgetExceeded text) := by
  unfold leaveWait
  split
  · cases hcharge : charge l nowNs with
    | error charged =>
        right
        unfold charge at hcharge
        dsimp only at hcharge
        split at hcharge
        · split at hcharge
          · cases hcharge
          · cases hcharge
            exact ⟨_, rfl⟩
        · cases hcharge
    | ok charged =>
        left
        cases e with
        | timeoutError text => exact absurd rfl (hnotimeout text)
        | _ => rfl
  · exact Or.inl rfl

/-- A deferral of the running call ends in the closing of the run as failed. -/
theorem afterCall_deferred (inv : Invocation) (l : Locals) (build : ContextBuild)
    (call : ToolCall) (rest : List ToolCall) (results : List ToolResult) (reason : String)
    (delayMs : Nat) (clock : ClockReadings) :
    ∃ outcome, (settle (afterCall inv l build call rest results
      (.error (.taskDeferred reason delayMs)) clock).2).2 = .finishFailed outcome ∧
        outcome.status = .failed := by
  unfold afterCall
  have hdeferred : ∀ text, (.taskDeferred reason delayMs : PyError) ≠ .timeoutError text := by nofun
  have herror : leaveWait (α := ToolResult) l clock.leaveNs (.error (.taskDeferred reason delayMs)) =
      _ ∨ _ := leaveWait_error hdeferred
  rcases herror with hsame | ⟨text, htext⟩
  · rw [hsame]
    exact ⟨_, rfl, rfl⟩
  · rw [htext]
    exact ⟨_, rfl, rfl⟩

/-- The closing of a failed run. -/
theorem commit_finishFailed {inv : Invocation} {clock : ClockReadings} {db after : Database}
    {l l' : Locals} {outcome : AgentOutcome} {phase : HarnessPhase}
    (hfailed : outcome.status = .failed)
    (hcommit : commit inv clock db l (.finishFailed outcome) = some (after, l', phase)) :
    (phase = .returned outcome ∧
      SessionStore.runStatus inv.request.runId after = some .failed ∧
      ∃ event ∈ after.runEvents,
        event.runId = inv.request.runId ∧ event.eventType = "run_terminal") ∨
    ∃ e, phase = .raised e ∧ ∀ reason delayMs, e ≠ .taskDeferred reason delayMs := by
  simp only [commit, outside, Option.some.injEq] at hcommit
  cases hfinish : finish inv outcome [] db with
  | error e =>
      rw [hfinish] at hcommit
      cases hcommit
      refine Or.inr ⟨e, rfl, ?_⟩
      rintro reason delayMs rfl
      unfold finish SessionStore.tryFinishWithOutcome at hfinish
      simp only [hfailed] at hfinish
      cases hrun : SessionStore.findRun db inv.request.runId with
      | none => simp [hrun] at hfinish
      | some run => by_cases hstatus : run.status = .running <;> simp [hrun, hstatus] at hfinish
  | ok result =>
      obtain ⟨closed, middle⟩ := result
      rw [hfinish] at hcommit
      cases hcommit
      have hclosed : closed = true := by
        obtain ⟨run, _, _, ⟨_, hcompleted, _⟩ | ⟨hclosed, _⟩⟩ :=
          SessionStore.tryFinishWithOutcome_ok hfinish
        · rw [hfailed] at hcompleted
          cases hcompleted
        · exact hclosed
      have hstatus := (SessionStore.tryFinishWithOutcome_status hfinish inv.request.runId).2
      have hevent := (SessionStore.tryFinishWithOutcome_event hfinish).2 hclosed
      rw [if_pos ⟨rfl, hclosed⟩, hfailed] at hstatus
      exact Or.inl ⟨rfl, hstatus, hevent⟩

end AgentHarness

namespace TaskSystem

/-- Whatever only appends events and keeps closed runs closed. -/
theorem ClosedAsFailed.keep {s t : TaskSystem} (hclosed : s.ClosedAsFailed)
    (hharness : t.harness.inv = s.harness.inv)
    (hstatus : SessionStore.runStatus s.harness.inv.request.runId t.db = some .failed)
    (hevents : s.db.runEvents <+: t.db.runEvents) : t.ClosedAsFailed := by
  obtain ⟨event, hmem, hevent⟩ := hclosed.terminalEvent
  constructor
  · rw [hharness]
    exact hstatus
  · rw [hharness]
    exact ⟨event, hevents.subset hmem, hevent⟩

theorem ClosedAsFailed.apply {s : TaskSystem} (hclosed : s.ClosedAsFailed) (op : StoreOp) :
    ({ s with db := op.apply s.db } : TaskSystem).ClosedAsFailed :=
  hclosed.keep rfl (StoreOp.closed_status_stays hclosed.failed (by decide) op)
    (StoreOp.runEvents_prefix s.db op)

/-- `Closing` depends on the harness and, once it has returned, on its run. -/
theorem Closing.of_database {s t : TaskSystem} (hs : s.Closing) (hharness : t.harness = s.harness)
    (hkeep : s.ClosedAsFailed → t.ClosedAsFailed) : t.Closing := by
  unfold Closing at hs ⊢
  rw [hharness]
  split at hs
  · exact hs
  · exact ⟨hs.1, hkeep hs.2⟩
  · exact hs
  · exact hs.elim

theorem closing_harness {s : TaskSystem} {label : HarnessLabel} {after : Database} {h : Harness}
    {events : List HarnessEvent} (hs : s.Closing)
    (hstep : s.harness.step s.db label = some (after, h, events)) :
    ({ s with db := after, harness := h } : TaskSystem).Closing := by
  obtain ⟨db, ⟨inv, l, phase⟩, broker, handler, worker, task, binding, warnings, result⟩ := s
  unfold Closing at hs
  split at hs
  · rename_i outcome hphase
    dsimp only at hphase hstep
    subst hphase
    cases label with
    | commit clock =>
        simp only [Harness.step] at hstep
        cases hcommit : AgentHarness.commit inv clock db l (.finishFailed outcome) with
        | none => simp [hcommit] at hstep
        | some committed =>
            obtain ⟨middle, l', phase⟩ := committed
            rw [hcommit] at hstep
            cases hstep
            rcases AgentHarness.commit_finishFailed hs hcommit with
              ⟨rfl, hstatus, hevent⟩ | ⟨e, rfl, hother⟩
            · exact ⟨hs, hstatus, hevent⟩
            · exact hother
    | cancelToken reason =>
        cases hstep
        exact hs
    | abort =>
        cases hstep
        rintro reason delayMs ⟨⟩
    | begin => cases hstep
    | model answer clock => cases hstep
    | batch answer clock => cases hstep
    | tool answer clock => cases hstep
  · rename_i outcome hphase
    dsimp only at hphase hstep
    subst hphase
    cases label <;> cases hstep
  · rename_i e hphase
    dsimp only at hphase hstep
    subst hphase
    cases label <;> cases hstep
  · exact hs.elim

theorem runningCall?_of_closing {s : TaskSystem} (hs : s.Closing) :
    s.harness.phase.runningCall? = none := by
  unfold Closing at hs
  split at hs
  · rename_i hphase
    rw [hphase]
    rfl
  · rename_i hphase
    rw [hphase]
    rfl
  · rename_i hphase
    rw [hphase]
    rfl
  · exact hs.elim

/-- Every later step of anybody keeps it. -/
theorem closing_step {s t : TaskSystem} {label : TaskStep} (hs : s.Closing)
    (hstep : s.step label = some t) : t.Closing := by
  cases label with
  | store op =>
      cases hstep
      exact hs.of_database rfl fun hclosed => hclosed.apply op
  | harness label =>
      simp only [step] at hstep
      cases hnext : s.harness.step s.db label with
      | none => simp [hnext] at hstep
      | some next =>
          rw [hnext] at hstep
          cases hstep
          exact closing_harness hs hnext
  | approval args =>
      have hnone : s.brokerAnswer args = none := by
        unfold brokerAnswer
        rw [runningCall?_of_closing hs]
      simp [step, hnone] at hstep
  | worker lifecycle nowMs outboxId =>
      simp only [step] at hstep
      split at hstep
      · rename_i answer _ _
        cases hstep
        refine hs.of_database rfl fun hclosed => ?_
        rcases s.worker.execute_database s.task nowMs outboxId
          (s.handler.afterRun s.task s.binding s.contextWarnings lifecycle answer) s.db with
          hsame | ⟨op, hop, hafter⟩
        · refine hclosed.keep rfl ?_ ?_
          · rw [hsame]
            exact hclosed.failed
          · rewrite [hsame]
            exact List.prefix_refl _
        · refine hclosed.keep rfl ?_ ?_
          · rw [hafter]
            exact (hclosed.apply op).failed
          · rw [hafter]
            exact StoreOp.runEvents_prefix s.db op
      · cases hstep

/-- The step in which the broker defers. -/
theorem closing_of_defers {s t : TaskSystem} {args : ApprovalStep} (hdefers : s.Defers args)
    (hstep : s.step (.approval args) = some t) : t.Closing := by
  obtain ⟨reason, delayMs, after, hanswer⟩ := hdefers
  obtain ⟨db, ⟨inv, l, phase⟩, broker, handler, worker, task, binding, warnings, result⟩ := s
  simp only [step, hanswer] at hstep
  unfold brokerAnswer at hanswer
  dsimp only at hanswer
  cases phase with
  | callRunning build call rest results =>
      simp only [HarnessPhase.runningCall?] at hanswer
      cases hrequire : inv.registry.require call.toolId with
      | error e => simp [hrequire] at hanswer
      | ok tool =>
          simp only [hrequire] at hanswer
          split at hanswer
          · rename_i hguards
            obtain ⟨hvalid, hallowed, happroval⟩ := hguards
            have hvalid' : tool.validate call.arguments = none := by simpa using hvalid
            have hexecute : ToolExecutor.execute inv.registry call
                ⟨.ok args.decision, .error (.taskDeferred reason delayMs), args.permitted⟩ =
                  .error (.taskDeferred reason delayMs) := by
              simp [ToolExecutor.execute, hrequire, hvalid', ToolExecutor.authorized, hallowed,
                happroval]
            obtain ⟨outcome, hphase, hfailed⟩ := AgentHarness.afterCall_deferred inv l build call
              rest results reason delayMs args.clock
            simp only [Harness.step, Except.bind, hexecute, Option.map_some] at hstep
            cases hstep
            unfold Closing Harness.become
            rw [hphase]
            exact hfailed
          · cases hanswer
  | _ => cases hanswer

/-- When the failed outcome reaches the worker, the task is finished as failed with
a terminal message. -/
theorem worker_finishes_failed {s : TaskSystem} {outcome : AgentOutcome} {handler : TaskHandler}
    (hs : s.Closing) (hphase : s.harness.phase = .returned outcome) (hopen : s.result = none)
    (hhandler : s.worker.handlerFor s.task = some handler)
    (hrecovery : s.task.recoveryErrorCode = none) (nowMs : Int) (outboxId : String) :
    ∃ settled draft, settled.state = .failed ∧ settled.terminalMessage = some draft ∧
      draft.idempotencyKey = IMMentionTaskHandler.terminalKey s.binding ∧
      s.step (.worker (.ok ()) nowMs outboxId) =
        let (result, after) := s.worker.finish s.task nowMs outboxId settled s.db
        some { s with db := after, result := some result } := by
  have hfailed : outcome.status = .failed := by
    unfold Closing at hs
    rw [hphase] at hs
    exact hs.1
  obtain ⟨settled, draft, hafter, hstate, hmessage, hkey⟩ : ∃ settled draft,
      s.handler.afterRun s.task s.binding s.contextWarnings (.ok ()) (.ok outcome) = .ok settled ∧
        settled.state = .failed ∧ settled.terminalMessage = some draft ∧
        draft.idempotencyKey = IMMentionTaskHandler.terminalKey s.binding :=
    IMMentionTaskHandler.afterRun_failed hfailed rfl
  refine ⟨settled, draft, hstate, hmessage, hkey, ?_⟩
  have hattempt : s.worker.attempt s.task (.ok settled) = .ok settled := by
    simp [DurableTaskWorker.attempt, hhandler, hrecovery]
  simp only [step, hopen, hphase, HarnessPhase.answer?, hafter,
    DurableTaskWorker.execute_ok hattempt]

/-- `Defers`, as a test. -/
def defersNow (s : TaskSystem) (args : ApprovalStep) : Bool :=
  match s.brokerAnswer args with
  | some (.error (.taskDeferred _ _), _) => true
  | _ => false

theorem defers_of_now {s : TaskSystem} {args : ApprovalStep} (hnow : s.defersNow args = true) :
    s.Defers args := by
  unfold defersNow at hnow
  split at hnow
  · rename_i hanswer
    exact ⟨_, _, _, hanswer⟩
  · cases hnow

/-- Once the broker has deferred the task, no later state keeps the deferral: the
harness never raises it, and when it returns, its run is closed as failed. -/
theorem deferral_never_kept {s t : TaskSystem} {args : ApprovalStep} {labels : List TaskStep}
    (hdefers : s.Defers args) (hrun : exec step (.approval args :: labels) s = some t) :
    ¬ t.DeferralKept ∧ ∀ outcome, t.harness.phase = .returned outcome →
      outcome.status = .failed ∧ t.ClosedAsFailed := by
  have hclosing : t.Closing := by
    cases hstep : s.step (.approval args) with
    | none => simp [hstep] at hrun
    | some next =>
        rw [exec_cons_of_step hstep] at hrun
        exact exec_invariant_of_step (fun _ _ _ hs hnext => closing_step hs hnext)
          (closing_of_defers hdefers hstep) hrun
  unfold Closing at hclosing
  constructor
  · intro hkept
    obtain ⟨reason, delayMs, hphase⟩ := hkept.propagated
    rw [hphase] at hclosing
    exact hclosing reason delayMs rfl
  · intro outcome hphase
    rw [hphase] at hclosing
    exact hclosing

/-- A root harness in the middle of a destructive call of a leased task that has no
approval row yet. -/
theorem deferral_never_kept_of_first_request :
    let mention : NormalizedEvent :=
      { eventId := "event-1", pluginId := "im", eventType := "im.message", tenantKey := "tenant"
        appId := "app", occurredAtMs := 0, receivedAtMs := 0, resourceKind := "message"
        resourceId := "message-1", traceId := "trace-1" }
    let command : TaskCommand :=
      ⟨"im", "im.handle_mention", "tenant/app/chat", [], 0, 0, 5, none⟩
    let inv : Invocation :=
      { request :=
          { runId := "run", taskId := "task", nodeId := "/root", userRequest := "delete it"
            toolContext :=
              { runId := "run", nodeId := "/root", tenantKey := "tenant", appId := "app"
                actorId := "user", sessionKey := "tenant/app/chat", identityRef := "bot"
                policyVersion := 1, taskId := some "task", chatId := some "chat"
                sourceMessageId := some "message-1" } }
        definition :=
          { agentId := "root", version := 1, instructions := "Help.", modelProfile := "default"
            toolIds := ["doc.delete"] }
        registry := ⟨[{ definition :=
          ⟨"doc.delete", 1, "Delete a document.", [], .destructive, false⟩ }], by decide⟩
        loaded := ⟨[], [], []⟩, hasInbox := true, clockMs := 3, digest := id }
    let s : TaskSystem :=
      { db := (StoreOp.leaseTasks ⟨"worker", 1, 60000, 1⟩ none).apply
          ((StoreOp.admitEvent mention command none "task" "outbox-0" 0).apply {})
        harness := ⟨inv, { turn := 1, ledger := ⟨[], [], []⟩, fingerprint := "" },
          .callRunning ⟨[], [], [], 0, false, 0⟩ ⟨"call-1", "doc.delete", []⟩ [] []⟩
        broker := { digest := id }, handler := ⟨⟨"s", "c", "b", "f", "x"⟩, false⟩
        worker := ⟨[], "worker", 300000, 2000⟩
        task := ⟨"task", none, "im", "im.handle_mention", "tenant/app/chat", [], 1, 5, 60000, none,
          "tenant", "app", none, ""⟩
        binding := ⟨"tenant", "app", "chat", "message-1", "user"⟩ }
    let args : ApprovalStep := ⟨⟨true, "", true⟩, .error .cancelledError, "outbox-1", 2, {}⟩
    s.Defers args ∧ ∃ t, exec step [.approval args, .harness (.commit {})] s = some t ∧
      ¬ t.DeferralKept := by
  intro mention command inv s args
  have hdefers : s.Defers args := defers_of_now (by decide +kernel)
  have hsome : (exec step [.approval args, .harness (.commit {})] s).isSome = true := by
    decide +kernel
  obtain ⟨t, hrun⟩ := Option.isSome_iff_exists.mp hsome
  exact ⟨hdefers, t, hrun, (deferral_never_kept hdefers hrun).1⟩

/-- The task is finished as failed and its requester is told so. -/
def finishedAsFailed (s : TaskSystem) : Bool :=
  SessionStore.runStatus s.harness.inv.request.runId s.db = some .failed &&
    s.db.tasks.any (fun row => row.taskId = s.task.taskId && row.state = .failed) &&
    s.db.outbox.any fun row =>
      row.draft.idempotencyKey = IMMentionTaskHandler.terminalKey s.binding

theorem not_kept_of_failed {s : TaskSystem} (hfailed : s.finishedAsFailed = true) :
    ¬ s.DeferralKept := by
  intro hkept
  have hstatus : SessionStore.runStatus s.harness.inv.request.runId s.db = some .failed := by
    simp only [finishedAsFailed, Bool.and_eq_true, decide_eq_true_eq] at hfailed
    exact hfailed.1.1
  rw [hkept.running] at hstatus
  cases hstatus

/-- The first turn of a leased task asks for a destructive call. The approval row
is created pending, and the task ends failed with a terminal message. -/
theorem pending_approval_fails_the_task :
    let mention : NormalizedEvent :=
      { eventId := "event-1", pluginId := "im", eventType := "im.message", tenantKey := "tenant"
        appId := "app", occurredAtMs := 0, receivedAtMs := 0, resourceKind := "message"
        resourceId := "message-1", traceId := "trace-1" }
    let payload : List (String × Json) :=
      [("tenant_key", .str "tenant"), ("app_id", .str "app"), ("chat_id", .str "chat"),
        ("message_id", .str "message-1"), ("sender_id", .str "user")]
    let inv : Invocation :=
      { request :=
          { runId := "run", taskId := "task", nodeId := "/root", userRequest := "delete it"
            toolContext :=
              { runId := "run", nodeId := "/root", tenantKey := "tenant", appId := "app"
                actorId := "user", sessionKey := "tenant/app/chat", identityRef := "bot"
                policyVersion := 1, taskId := some "task", chatId := some "chat"
                sourceMessageId := some "message-1" } }
        definition :=
          { agentId := "root", version := 1, instructions := "Help.", modelProfile := "default"
            toolIds := ["doc.delete"] }
        registry := ⟨[{ definition :=
          ⟨"doc.delete", 1, "Delete a document.", [], .destructive, false⟩ }], by decide⟩
        loaded := ⟨[], [], []⟩, hasInbox := true, clockMs := 3, digest := fun _ => "digest" }
    let handler : IMMentionTaskHandler := ⟨⟨"started", "done", "blocked", "failed", "x"⟩, false⟩
    let s : TaskSystem :=
      { db := {}, harness := ⟨inv, { ledger := ⟨[], [], []⟩, fingerprint := "digest" }, .startRun⟩
        broker := { digest := fun _ => "digest" }, handler
        worker := ⟨[("im.handle_mention", ⟨handler.failure⟩)], "worker", 300000, 2000⟩
        task := ⟨"task", some "event-1", "im", "im.handle_mention", "tenant/app/chat", payload, 1, 5,
          60001, none, "tenant", "app", none, "trace-1"⟩
        binding := ⟨"tenant", "app", "chat", "message-1", "user"⟩ }
    let commit : TaskStep := .harness (.commit {})
    let args : ApprovalStep := ⟨⟨true, "", true⟩, .error .cancelledError, "outbox-1", 4, {}⟩
    let before : List TaskStep :=
      [.store (.admitEvent mention ⟨"im", "im.handle_mention", "tenant/app/chat", payload, 0, 0, 5,
          none⟩ none "task" "outbox-0" 0),
        .store (.leaseTasks ⟨"worker", 1, 60000, 1⟩ none), commit, commit, commit, commit,
        .harness .begin,
        .harness (.model (.ok { content := "", toolCalls := [⟨"call-1", "doc.delete", []⟩] }) {}),
        commit, commit, commit, .harness .begin]
    ∃ t u, exec step before s = some t ∧ t.Defers args ∧
      exec step [.approval args, commit, .worker (.ok ()) 5 "outbox-2"] t = some u ∧
      u.finishedAsFailed = true ∧ ¬ u.DeferralKept := by
  intro mention payload inv handler s commit args before
  have hchecked : ((exec step before s).map fun t => t.defersNow args &&
      (exec step [.approval args, commit, .worker (.ok ()) 5 "outbox-2"] t).any
        finishedAsFailed) = some true := by
    decide +kernel
  obtain ⟨t, ht, hchecks⟩ := Option.map_eq_some_iff.mp hchecked
  obtain ⟨hnow, hafter⟩ := Bool.and_eq_true_iff.mp hchecks
  obtain ⟨u, hu, hfailed⟩ := (Option.any_eq_true _ _).mp hafter
  exact ⟨t, u, ht, defers_of_now hnow, hu, hfailed, not_kept_of_failed hfailed⟩

end TaskSystem

end Codex2Lark
