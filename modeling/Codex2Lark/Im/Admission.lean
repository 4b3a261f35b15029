import Codex2Lark.Im.TaskHandler
import Codex2Lark.Storage.Admissions

/-!
`IMAdmissionService` of `capabilities/im/admission.py` under any interleaving of
deliveries. A message that passes the checks is offered to `admit_control` and, when
that declines, to `admit`; each of the two is one transaction.
-/

namespace Codex2Lark

open Lib RuntimeStore

inductive IMAdmissionReason where
  | admitted
  | notGroup
  | botSender
  | botNotMentioned
  | emptyRequest
  | accessRevoked
  | disabledGroup
  | unauthorizedActor
  | malformed
deriving DecidableEq, Repr

/-- `mentions` holds the open ids. The last field is what `__post_init__` checks. -/
structure IncomingMessage where
  eventId : String
  tenantKey : String
  appId : String
  chatId : String
  chatType : String
  messageId : String
  messageType : String
  senderId : String
  senderType : String
  bodyText : String
  mentions : List String
  occurredAtMs : Int
  receivedAtMs : Int
  threadId : Option String := none
  rootId : Option String := none
  identified : ∀ value ∈ [eventId, tenantKey, appId, chatId, messageId, messageType, senderId,
    senderType], IMMentionTaskHandler.strip value ≠ "" := by decide

namespace IncomingMessage

/-- `thread_id or root_id`. -/
def thread (message : IncomingMessage) : Option String :=
  match message.threadId.filter (· ≠ "") with
  | some thread => some thread
  | none => message.rootId

def sessionKey (message : IncomingMessage) : String :=
  let conversation := (message.thread.filter (· ≠ "")).getD message.messageId
  "/".intercalate [message.tenantKey, message.appId, message.chatId, conversation]

end IncomingMessage

structure IMAdmissionPolicy where
  enabledChatIds : List String := []
  authorizedActorIds : List String := []
deriving DecidableEq, Repr

def IMAdmissionPolicy.evaluate (policy : IMAdmissionPolicy) (message : IncomingMessage) :
    IMAdmissionReason :=
  if !policy.enabledChatIds.isEmpty && !policy.enabledChatIds.contains message.chatId then
    .disabledGroup
  else if !policy.authorizedActorIds.isEmpty &&
      !policy.authorizedActorIds.contains message.senderId then .unauthorizedActor
  else .admitted

structure IMAdmissionDecision where
  reason : IMAdmissionReason
  taskId : Option String := none
  created : Bool := false
  controlId : Option String := none
deriving DecidableEq, Repr

/-- `casefold` is `str.casefold`. -/
structure IMAdmissionService where
  acknowledgementText : String
  agentDefinitionVersion : IncomingMessage → Int
  policy : IMAdmissionPolicy := {}
  casefold : String → String

/-- What one delivery reads elsewhere: the answers of the message mirror, the bot's open
id, and the trace id that it draws. -/
structure DeliveryInputs where
  chatDenial : Option IMAdmissionReason := none
  upserted : Bool := true
  botOpenId : Option String
  traceId : String
deriving DecidableEq, Repr

namespace IMAdmissionService

def evaluateSource (message : IncomingMessage) : IMAdmissionReason :=
  if message.chatType ≠ "group" then .notGroup
  else if ["bot", "app", "system"].contains message.senderType then .botSender
  else .admitted

def evaluateTrigger (botOpenId : Option String) (message : IncomingMessage) :
    IMAdmissionReason :=
  match botOpenId.filter (· ≠ "") with
  | none => .botNotMentioned
  | some openId =>
      if !message.mentions.contains openId then .botNotMentioned
      else if IMMentionTaskHandler.strip message.bodyText = "" then .emptyRequest
      else .admitted

/-- The checks of `admit` before it reads the store, in their order. -/
def check (service : IMAdmissionService) (message : IncomingMessage) (inputs : DeliveryInputs) :
    IMAdmissionReason :=
  if evaluateSource message ≠ .admitted then evaluateSource message
  else if service.policy.evaluate message ≠ .admitted then service.policy.evaluate message
  else
    match inputs.chatDenial with
    | some reason => reason
    | none => if !inputs.upserted then .accessRevoked else evaluateTrigger inputs.botOpenId message

def selectedVersion (service : IMAdmissionService) (message : IncomingMessage) :
    Except PyError Int :=
  if service.agentDefinitionVersion message < 1 then
    .error (.valueError "selected Agent definition version must be positive")
  else .ok (service.agentDefinitionVersion message)

def steerLabels : List String :=
  ["/steer ", "更正：", "更正:", "调整：", "调整:", "改为：", "改为:"]

/-- `_classify_control`. -/
def classifyControl (service : IMAdmissionService) (body : String) : RunControlKind × String :=
  let text := IMMentionTaskHandler.strip body
  let normalized := service.casefold text
  if ["/cancel", "取消任务", "停止任务"].contains normalized then (.cancel, text)
  else if ["/interrupt", "暂停任务"].contains normalized then (.interrupt, text)
  else
    let instructions := steerLabels.filterMap fun label =>
      let instruction := IMMentionTaskHandler.strip (String.ofList (text.toList.drop label.length))
      if (service.casefold label).toList.isPrefixOf normalized.toList && instruction ≠ "" then
        some instruction
      else none
    match instructions.head? with
    | some instruction => (.steer, instruction)
    | none => (.followUp, text)

def event (message : IncomingMessage) (traceId : String) : NormalizedEvent :=
  { eventId := message.eventId, pluginId := "feishu-im", eventType := "im.message.receive_v1"
    tenantKey := message.tenantKey, appId := message.appId, occurredAtMs := message.occurredAtMs
    receivedAtMs := message.receivedAtMs, resourceKind := "im.message"
    resourceId := message.messageId, correlationId := message.thread, traceId
    sourcePayload := some (Json.dumpsAscii Json.compact (.obj
      [("chat_id", .str message.chatId), ("message_id", .str message.messageId),
        ("sender_id", .str message.senderId), ("thread_id", Json.optStr message.threadId)]))
    payloadExpiresAtMs := some (message.receivedAtMs + 7 * 24 * 60 * 60 * 1000) }

def command (message : IncomingMessage) (version : Int) : TaskCommand :=
  { pluginId := "feishu-im", commandType := "im.handle_mention"
    sessionKey := message.sessionKey
    payload := [("tenant_key", .str message.tenantKey), ("app_id", .str message.appId),
      ("chat_id", .str message.chatId), ("message_id", .str message.messageId),
      ("thread_id", Json.optStr message.threadId), ("root_id", Json.optStr message.rootId),
      ("sender_id", .str message.senderId),
      ("request", .str (IMMentionTaskHandler.strip message.bodyText)),
      ("agent_definition_version", .int version)]
    availableAtMs := message.receivedAtMs, groupId := some message.chatId }

def acknowledgement (service : IMAdmissionService) (message : IncomingMessage) : OutboxDraft :=
  { publisherId := "feishu-im.reply", destinationRef := message.messageId
    messageKind := "acknowledgement"
    idempotencyKey := "im:" ++ message.tenantKey ++ ":" ++ message.appId ++ ":" ++
      message.messageId ++ ":acknowledgement:v1"
    payload := [("chat_id", .str message.chatId), ("message_id", .str message.messageId),
      ("reply_in_thread", .bool message.threadId.isSome),
      ("text", .str service.acknowledgementText)]
    availableAtMs := message.receivedAtMs }

def control (service : IMAdmissionService) (message : IncomingMessage) (traceId : String) :
    ControlAdmission :=
  let (kind, text) := service.classifyControl message.bodyText
  { event := event message traceId, sessionKey := message.sessionKey, actorId := message.senderId
    kind, text, acknowledgement := service.acknowledgement message }

end IMAdmissionService

/-- Where a delivery is: ended by the checks, between the transactions, or ended by one
of them. -/
inductive DeliveryPhase where
  | stopped (result : Except PyError IMAdmissionReason)
  | offering
  | admitting
  | ended (result : Except PyError IMAdmissionDecision)

/-- `known` and `first` say what the store held of the event when the delivery began. -/
structure Delivery where
  service : IMAdmissionService
  message : IncomingMessage
  traceId : String
  version : Int
  known : Bool
  first : Option AdmittedIdentity
  phase : DeliveryPhase

namespace Delivery

def event (call : Delivery) : NormalizedEvent :=
  IMAdmissionService.event call.message call.traceId

/-- The transaction of `admit_control`. -/
def offerOp (call : Delivery) (controlId outboxId : String) : StoreOp :=
  .admitControl (call.service.control call.message call.traceId) controlId outboxId
    call.message.receivedAtMs

/-- The transaction of `admit`. -/
def admitOp (call : Delivery) (taskId outboxId : String) : StoreOp :=
  .admitEvent call.event (IMAdmissionService.command call.message call.version)
    (some (call.service.acknowledgement call.message)) taskId outboxId call.message.receivedAtMs

/-- What the delivery does with the answer of `admit_control`. -/
def offered : Except PyError (Option ControlAdmissionResult × Database) → DeliveryPhase
  | .ok (some result, _) =>
      .ended (.ok ⟨.admitted, some result.taskId, result.created, some result.controlId⟩)
  | .ok (none, _) => .admitting
  | .error e => .ended (.error e)

/-- What it does with the answer of `admit`. -/
def admitted : Except PyError (AdmissionResult × Database) → DeliveryPhase
  | .ok (result, _) => .ended (.ok ⟨.admitted, some result.taskId, result.created, none⟩)
  | .error e => .ended (.error e)

end Delivery

structure Deliveries where
  history : StoreHistory := {}
  calls : List Delivery := []

inductive DeliveryLabel where
  /-- Any transaction of the store, those of the other admissions among them. -/
  | store (op : StoreOp)
  | deliver (service : IMAdmissionService) (message : IncomingMessage) (inputs : DeliveryInputs)
  | offer (call : Nat) (controlId outboxId : String)
  | admitMessage (call : Nat) (taskId outboxId : String)
  /-- The process dies; the store stays. -/
  | crash

namespace Deliveries

def db (s : Deliveries) : Database := s.history.db

def transact (s : Deliveries) (op : StoreOp) : Deliveries :=
  { s with history := ⟨op.apply s.db, s.history.decisions ++ StoreHistory.recorded s.db op⟩ }

/-- A delivery up to its first transaction. -/
def begin (s : Deliveries) (service : IMAdmissionService) (message : IncomingMessage)
    (inputs : DeliveryInputs) : Delivery :=
  let event := IMAdmissionService.event message inputs.traceId
  let phase :=
    if service.check message inputs ≠ .admitted then
      .stopped (.ok (service.check message inputs))
    else
      match service.selectedVersion message with
      | .error e => .stopped (.error e)
      | .ok _ => .offering
  { service, message, traceId := inputs.traceId
    version := service.agentDefinitionVersion message, known := s.db.knows event
    first := identity s.db event, phase }

def step (s : Deliveries) : DeliveryLabel → Option Deliveries
  | .store op => some (s.transact op)
  | .deliver service message inputs =>
      some { s with calls := s.calls ++ [s.begin service message inputs] }
  | .offer i controlId outboxId =>
      match s.calls[i]? with
      | none => none
      | some call =>
          match call.phase with
          | .offering =>
              let answer := admitControl (call.service.control call.message call.traceId) controlId
                outboxId call.message.receivedAtMs s.db
              some { s.transact (call.offerOp controlId outboxId) with
                calls := s.calls.set i { call with phase := Delivery.offered answer } }
          | _ => none
  | .admitMessage i taskId outboxId =>
      match s.calls[i]? with
      | none => none
      | some call =>
          match call.phase with
          | .admitting =>
              let answer := admitEvent call.event
                (IMAdmissionService.command call.message call.version)
                (some (call.service.acknowledgement call.message)) taskId outboxId
                call.message.receivedAtMs s.db
              some { s.transact (call.admitOp taskId outboxId) with
                calls := s.calls.set i { call with phase := Delivery.admitted answer } }
          | _ => none
  | .crash => some { s with calls := [] }

variable {s t : Deliveries}

@[simp] theorem transact_db (s : Deliveries) (op : StoreOp) : (s.transact op).db = op.apply s.db :=
  rfl

@[simp] theorem transact_calls (s : Deliveries) (op : StoreOp) :
    (s.transact op).calls = s.calls := rfl

/-! ### One step -/

/-- What a step does: the store steps or stays, and at most one delivery moves. -/
inductive StepEffect (s : Deliveries) : DeliveryLabel → Deliveries → Prop
  | store (op : StoreOp) : StepEffect s (.store op) (s.transact op)
  | deliver (service : IMAdmissionService) (message : IncomingMessage) (inputs : DeliveryInputs) :
      StepEffect s (.deliver service message inputs)
        { s with calls := s.calls ++ [s.begin service message inputs] }
  | offer {i : Nat} {controlId outboxId : String} (call : Delivery) (hcall : s.calls[i]? = some call)
      (hphase : call.phase = .offering) :
      StepEffect s (.offer i controlId outboxId)
        { s.transact (call.offerOp controlId outboxId) with
          calls := s.calls.set i { call with
            phase := Delivery.offered (admitControl
              (call.service.control call.message call.traceId) controlId outboxId
              call.message.receivedAtMs s.db) } }
  | admitMessage {i : Nat} {taskId outboxId : String} (call : Delivery)
      (hcall : s.calls[i]? = some call) (hphase : call.phase = .admitting) :
      StepEffect s (.admitMessage i taskId outboxId)
        { s.transact (call.admitOp taskId outboxId) with
          calls := s.calls.set i { call with
            phase := Delivery.admitted (admitEvent call.event
              (IMAdmissionService.command call.message call.version)
              (some (call.service.acknowledgement call.message)) taskId outboxId
              call.message.receivedAtMs s.db) } }
  | crash : StepEffect s .crash { s with calls := [] }

theorem step_effect {l : DeliveryLabel} (hstep : step s l = some t) : StepEffect s l t := by
  cases l with
  | store op =>
      cases hstep
      exact .store op
  | deliver service message inputs =>
      cases hstep
      exact .deliver service message inputs
  | offer i controlId outboxId =>
      dsimp only [step] at hstep
      split at hstep
      · cases hstep
      · rename_i call hcall
        split at hstep
        · rename_i hphase
          cases hstep
          exact .offer call hcall hphase
        · cases hstep
  | admitMessage i taskId outboxId =>
      dsimp only [step] at hstep
      split at hstep
      · cases hstep
      · rename_i call hcall
        split at hstep
        · rename_i hphase
          cases hstep
          exact .admitMessage call hcall hphase
        · cases hstep
  | crash =>
      cases hstep
      exact .crash

/-- Seen from the store every step is one of its transactions, or none. -/
theorem StepEffect.history {l : DeliveryLabel} (heffect : StepEffect s l t) :
    t.history = s.history ∨ ∃ op, StoreHistory.step s.history op = some t.history := by
  cases heffect with
  | store op => exact .inr ⟨op, rfl⟩
  | deliver => exact .inl rfl
  | offer call => exact .inr ⟨call.offerOp _ _, rfl⟩
  | admitMessage call => exact .inr ⟨call.admitOp _ _, rfl⟩
  | crash => exact .inl rfl

/-! ### Redeliveries -/

/-- The decision that names an identity as found. -/
def decisionOf : AdmittedIdentity → IMAdmissionDecision
  | .task taskId => ⟨.admitted, some taskId, false, none⟩
  | .control controlId taskId => ⟨.admitted, some taskId, false, some controlId⟩

/-- What a delivery has returned or raised. -/
def result : DeliveryPhase → Option (Except PyError IMAdmissionDecision)
  | .stopped (.ok reason) => some (.ok ⟨reason, none, false, none⟩)
  | .stopped (.error e) => some (.error e)
  | .offering | .admitting => none
  | .ended result => some result

/-- Where a redelivery of this identity can be. -/
inductive Answers (chosen : AdmittedIdentity) : DeliveryPhase → Prop
  | stopped (result : Except PyError IMAdmissionReason) : Answers chosen (.stopped result)
  | offering : Answers chosen .offering
  | admitting (taskId : String) (hchosen : chosen = .task taskId) : Answers chosen .admitting
  | ended : Answers chosen (.ended (.ok (decisionOf chosen)))

theorem identity_control {db : Database} {event : NormalizedEvent} {controlId taskId : String}
    (hidentity : identity db event = some (.control controlId taskId)) :
    ∃ control, existingControl db event = some control ∧ control.controlId = controlId ∧
      control.targetTaskId = taskId := by
  unfold identity at hidentity
  cases hcontrol : existingControl db event with
  | some control =>
      rw [hcontrol] at hidentity
      cases hidentity
      exact ⟨control, rfl, rfl, rfl⟩
  | none =>
      rw [hcontrol] at hidentity
      cases htask : existingTask db event with
      | none =>
          rw [htask] at hidentity
          cases hidentity
      | some task =>
          rw [htask] at hidentity
          cases hidentity

theorem identity_task {db : Database} {event : NormalizedEvent} {taskId : String}
    (hidentity : identity db event = some (.task taskId)) :
    existingControl db event = none ∧
      ∃ task, existingTask db event = some task ∧ task.taskId = taskId := by
  unfold identity at hidentity
  cases hcontrol : existingControl db event with
  | some control =>
      rw [hcontrol] at hidentity
      cases hidentity
  | none =>
      rw [hcontrol] at hidentity
      cases htask : existingTask db event with
      | none =>
          rw [htask] at hidentity
          cases hidentity
      | some task =>
          rw [htask] at hidentity
          cases hidentity
          exact ⟨rfl, task, rfl, rfl⟩

/-- `admit_control` answers with the control that the event became, and declines an event
that became a task. -/
theorem offered_identity {args : ControlAdmission} {controlId outboxId : String} {nowMs : Int}
    {db : Database} {chosen : AdmittedIdentity} (hidentity : identity db args.event = some chosen) :
    Answers chosen (Delivery.offered (admitControl args controlId outboxId nowMs db)) := by
  have hknown := knows_of_identity hidentity
  cases chosen with
  | control chosenId taskId =>
      obtain ⟨control, hcontrol, rfl, rfl⟩ := identity_control hidentity
      have hanswer : admitControl args controlId outboxId nowMs db =
          .ok (some ⟨false, control.controlId, control.targetTaskId⟩, db) := by
        unfold existingControl at hcontrol
        unfold admitControl
        dsimp only
        rw [hcontrol]
      rw [hanswer]
      exact .ended
  | task taskId =>
      obtain ⟨hcontrol, _⟩ := identity_task hidentity
      have hanswer : admitControl args controlId outboxId nowMs db = .ok (none, db) := by
        unfold existingControl at hcontrol
        unfold admitControl
        dsimp only
        rw [hcontrol]
        exact if_pos hknown
      rw [hanswer]
      exact .admitting taskId rfl

/-- `admit` answers with the task that the event became. -/
theorem admitted_identity {event : NormalizedEvent} {command : TaskCommand}
    {acknowledgement : Option OutboxDraft} {drawn outboxId taskId : String} {nowMs : Int}
    {db : Database} (hidentity : identity db event = some (.task taskId)) :
    Answers (.task taskId)
      (Delivery.admitted (admitEvent event command acknowledgement drawn outboxId nowMs db)) := by
  obtain ⟨_, task, htask, rfl⟩ := identity_task hidentity
  have hanswer : admitEvent event command acknowledgement drawn outboxId nowMs db =
      .ok (⟨false, task.taskId⟩, db) := by
    unfold existingTask at htask
    unfold admitEvent
    dsimp only
    rw [htask]
  rw [hanswer]
  exact .ended

structure Invariant (s : Deliveries) : Prop where
  history : StoreHistory.AdmissionInvariant s.history
  known : ∀ call ∈ s.calls, call.known = true → s.db.knows call.event = true
  first : ∀ call ∈ s.calls, ∀ chosen, call.first = some chosen →
    identity s.db call.event = some chosen
  answers : ∀ call ∈ s.calls, ∀ chosen, call.first = some chosen → Answers chosen call.phase

theorem invariant_init : Invariant {} :=
  { history := StoreHistory.admissionInvariant_init
    known := fun _ hcall => absurd hcall List.not_mem_nil
    first := fun _ hcall => absurd hcall List.not_mem_nil
    answers := fun _ hcall => absurd hcall List.not_mem_nil }

theorem Invariant.transact (hinv : Invariant s) (op : StoreOp) : Invariant (s.transact op) := by
  have hknows : ∀ event, s.db.knows event = true → (op.apply s.db).knows event = true :=
    fun event => (admissionEffect s.db op).knows
  have hstep : StoreHistory.step s.history op = some (s.transact op).history := rfl
  refine ⟨hinv.history.step hstep, ?_, ?_, hinv.answers⟩
  · intro call hcall hknown
    exact hknows _ (hinv.known call hcall hknown)
  · intro call hcall chosen hfirst
    have hidentity := hinv.first call hcall chosen hfirst
    exact (StoreHistory.identity_kept hinv.history (knows_of_identity hidentity)).trans hidentity

/-- Moving one delivery on. -/
theorem Invariant.move (hinv : Invariant s) {i : Nat} {call : Delivery}
    (hcall : s.calls[i]? = some call) {phase : DeliveryPhase}
    (hanswers : ∀ chosen, call.first = some chosen → Answers chosen phase) :
    Invariant { s with calls := s.calls.set i { call with phase } } := by
  have hmem : call ∈ s.calls := List.mem_of_getElem? hcall
  have hcases : ∀ other ∈ s.calls.set i { call with phase },
      other ∈ s.calls ∨ other = { call with phase } :=
    fun other hother => List.mem_or_eq_of_mem_set hother
  refine ⟨hinv.history, ?_, ?_, ?_⟩
  · intro other hother hknown
    rcases hcases other hother with hold | rfl
    · exact hinv.known other hold hknown
    · exact hinv.known call hmem hknown
  · intro other hother chosen hfirst
    rcases hcases other hother with hold | rfl
    · exact hinv.first other hold chosen hfirst
    · exact hinv.first call hmem chosen hfirst
  · intro other hother chosen hfirst
    rcases hcases other hother with hold | rfl
    · exact hinv.answers other hold chosen hfirst
    · exact hanswers chosen hfirst

theorem begin_answers (s : Deliveries) (service : IMAdmissionService) (message : IncomingMessage)
    (inputs : DeliveryInputs) (chosen : AdmittedIdentity) :
    Answers chosen (s.begin service message inputs).phase := by
  unfold begin
  dsimp only
  split
  · exact .stopped _
  · split
    · exact .stopped _
    · exact .offering

theorem invariant_step {l : DeliveryLabel} (hinv : Invariant s) (hstep : step s l = some t) :
    Invariant t := by
  cases step_effect hstep with
  | store op => exact hinv.transact op
  | deliver service message inputs =>
      have hcases : ∀ call ∈ s.calls ++ [s.begin service message inputs],
          call ∈ s.calls ∨ call = s.begin service message inputs := by
        intro call hcall
        simpa using hcall
      refine ⟨hinv.history, ?_, ?_, ?_⟩
      · intro call hcall hknown
        rcases hcases call hcall with hold | rfl
        · exact hinv.known call hold hknown
        · exact hknown
      · intro call hcall chosen hfirst
        rcases hcases call hcall with hold | rfl
        · exact hinv.first call hold chosen hfirst
        · exact hfirst
      · intro call hcall chosen hfirst
        rcases hcases call hcall with hold | rfl
        · exact hinv.answers call hold chosen hfirst
        · exact begin_answers s service message inputs chosen
  | offer call hcall hphase =>
      refine (hinv.transact (call.offerOp _ _)).move hcall ?_
      intro chosen hfirst
      exact offered_identity (hinv.first call (List.mem_of_getElem? hcall) chosen hfirst)
  | admitMessage call hcall hphase =>
      refine (hinv.transact (call.admitOp _ _)).move hcall ?_
      intro chosen hfirst
      have hmem := List.mem_of_getElem? hcall
      have hanswers := hinv.answers call hmem chosen hfirst
      rw [hphase] at hanswers
      cases hanswers with
      | admitting taskId hchosen =>
          rw [hchosen] at hfirst ⊢
          exact admitted_identity (hinv.first call hmem _ hfirst)
  | crash =>
      exact ⟨hinv.history, fun _ hcall => absurd hcall List.not_mem_nil,
        fun _ hcall => absurd hcall List.not_mem_nil, fun _ hcall => absurd hcall List.not_mem_nil⟩

/-! ### The contract -/

/-- The delivery that a label moves. -/
def DeliveryLabel.call? : DeliveryLabel → Option Nat
  | .offer i _ _ | .admitMessage i _ _ => some i
  | .store _ | .deliver .. | .crash => none

/-- What admission promises in one state of a run. -/
structure AdmissionContract (s : Deliveries) : Prop where
  oneEvent : ∀ event, s.db.events.countP (sameEvent event) ≤ 1
  oneProduct : ∀ event, s.history.productCount event ≤ 1
  /-- What a message event was admitted as stays as it is. -/
  identityKept : ∀ event chosen, identity s.db event = some chosen →
    ∀ ls t, exec step ls s = some t → identity t.db event = some chosen
  /-- A redelivery that the checks let through returns the identity chosen first. -/
  answered : ∀ call ∈ s.calls, ∀ chosen, call.first = some chosen →
    ∀ answer, result call.phase = some answer →
      (∃ stop, call.phase = .stopped stop) ∨ answer = .ok (decisionOf chosen)
  /-- A redelivery of a message changes no row. -/
  unchanged : ∀ i call, s.calls[i]? = some call → call.known = true →
    ∀ l t, DeliveryLabel.call? l = some i → step s l = some t → t.db = s.db
  /-- Nor does a redelivery through any other admission. -/
  redelivered : ∀ (op : StoreOp) event, op.event? = some event → s.db.knows event = true → op.apply s.db = s.db

theorem identity_exec {ls : List DeliveryLabel} {event : NormalizedEvent} {chosen : AdmittedIdentity}
    (hinv : Invariant s) (hidentity : identity s.db event = some chosen)
    (hrun : exec step ls s = some t) : identity t.db event = some chosen := by
  refine (exec_invariant_of_step (I := fun s => Invariant s ∧ identity s.db event = some chosen) ?_
    ⟨hinv, hidentity⟩ hrun).2
  rintro s l t ⟨hinv, hidentity⟩ hstep
  refine ⟨invariant_step hinv hstep, ?_⟩
  rcases (step_effect hstep).history with hsame | ⟨op, hop⟩
  · unfold db
    rwa [hsame]
  · have hafter : t.db = op.apply s.db := congrArg StoreHistory.db (Option.some.inj hop).symm
    rw [hafter]
    exact (StoreHistory.identity_kept hinv.history (knows_of_identity hidentity)).trans hidentity

theorem Invariant.contract (hinv : Invariant s) : AdmissionContract s := by
  refine ⟨hinv.history.oneEvent, hinv.history.oneProduct, ?_, ?_, ?_, ?_⟩
  · exact fun event chosen hidentity ls t hrun => identity_exec hinv hidentity hrun
  · intro call hcall chosen hfirst answer hanswer
    have hanswers := hinv.answers call hcall chosen hfirst
    cases hphase : call.phase with
    | stopped stop => exact .inl ⟨stop, rfl⟩
    | offering =>
        rw [hphase] at hanswer
        cases hanswer
    | admitting =>
        rw [hphase] at hanswer
        cases hanswer
    | ended ending =>
        rw [hphase] at hanswer hanswers
        cases hanswer
        cases hanswers
        exact .inr rfl
  · intro i call hcall hknown l t hl hstep
    have hknows := hinv.known call (List.mem_of_getElem? hcall) hknown
    cases step_effect hstep with
    | store op => cases hl
    | deliver => cases hl
    | offer other hother hphase =>
        cases hl
        rw [hcall] at hother
        cases hother
        have hevent (taskId outboxId : String) :
            (call.offerOp taskId outboxId).event? = some call.event := rfl
        exact StoreOp.apply_known (hevent _ _) hknows
    | admitMessage other hother hphase =>
        cases hl
        rw [hcall] at hother
        cases hother
        have hevent (taskId outboxId : String) :
            (call.admitOp taskId outboxId).event? = some call.event := rfl
        exact StoreOp.apply_known (hevent _ _) hknows
    | crash => cases hl
  · exact fun op event hevent hknown => StoreOp.apply_known hevent hknown

/-- Every run of deliveries and transactions, in any interleaving. -/
theorem admission_contract (ls : List DeliveryLabel) : Always step AdmissionContract ls {} :=
  always_of_invariant (C := fun _ _ => True) (fun _ _ _ hinv _ hstep => invariant_step hinv hstep)
    (fun _ hinv => hinv.contract) invariant_init (along_of_forall (fun _ _ => trivial) ls _)

/-- A message is admitted as a task; then the bot loses its access to the chat, and the
redelivery of the message is answered without an identity. -/
theorem revoked_redelivery_names_no_identity :
    ¬ ∀ ls s, exec step ls {} = some s → ∀ call ∈ s.calls, ∀ chosen, call.first = some chosen →
      ∀ answer, result call.phase = some answer → answer = .ok (decisionOf chosen) := by
  intro hall
  let service : IMAdmissionService :=
    { acknowledgementText := "on it", agentDefinitionVersion := fun _ => 1, casefold := id }
  let message : IncomingMessage :=
    { eventId := "event-1", tenantKey := "tenant", appId := "app", chatId := "chat"
      chatType := "group", messageId := "message-1", messageType := "text", senderId := "user"
      senderType := "user", bodyText := "write a summary", mentions := ["bot"]
      occurredAtMs := 0, receivedAtMs := 0 }
  have hcheck : ((exec step
      [.deliver service message ⟨none, true, some "bot", "trace-1"⟩, .offer 0 "control" "outbox-1",
        .admitMessage 0 "task" "outbox-2",
        .deliver service message ⟨some .accessRevoked, true, some "bot", "trace-2"⟩] {}).any
      fun s => s.calls.any fun call => call.first = some (.task "task") &&
        (result call.phase).any fun answer => answer.toOption.any fun decision =>
          decision.reason = .accessRevoked) = true := by decide +kernel
  obtain ⟨s, hrun, hcalls⟩ := (Option.any_eq_true ..).mp hcheck
  obtain ⟨call, hcall, hfound⟩ := List.any_eq_true.mp hcalls
  obtain ⟨hfirst, hreason⟩ := Bool.and_eq_true_iff.mp hfound
  have hanswer := hall _ s hrun call hcall (.task "task") (of_decide_eq_true hfirst)
  cases hresult : result call.phase with
  | none =>
      rw [hresult] at hreason
      cases hreason
  | some answer =>
      rw [hanswer answer hresult] at hresult
      rw [hresult] at hreason
      cases hreason

end Deliveries

end Codex2Lark
