import Codex2Lark.Runtime.Approvals
import Codex2Lark.Storage.Outbox
import Codex2Lark.Storage.Admissions

/-!
Approvals over whole histories of the store: requests by the broker, clicks on the
card and every other transaction.
-/

namespace Codex2Lark

open Lib RuntimeStore

/-- The requester's own click on an approval that had not expired. -/
structure DecisionRecord.Approves (d : DecisionRecord) (row : ApprovalRow) : Prop where
  approvalId : d.approvalId = row.approvalId
  tenantKey : d.event.tenantKey = row.tenantKey
  appId : d.event.appId = row.appId
  actorId : d.actorId = row.actorId
  decision : d.decision = "approved"
  before : d.nowMs < row.expiresAtMs

/-! ### The two transactions -/

/-- The row that a request inserts. -/
def pendingApproval (request : ApprovalRequest) (nowMs : Int) : ApprovalRow :=
  { approvalId := request.approvalId, taskId := request.taskId, runId := request.runId
    tenantKey := request.tenantKey, appId := request.appId, sessionKey := request.sessionKey
    actorId := request.actorId, toolId := request.toolId, argumentDigest := request.argumentDigest
    state := .pending, expiresAtMs := request.expiresAtMs, createdAtMs := nowMs
    decidedAtMs := none, traceId := request.traceId }

/-- The row is the one that the request names. -/
structure SameRequest (request : ApprovalRequest) (row : ApprovalRow) : Prop where
  approvalId : row.approvalId = request.approvalId
  taskId : row.taskId = request.taskId
  runId : row.runId = request.runId
  actorId : row.actorId = request.actorId
  toolId : row.toolId = request.toolId
  argumentDigest : row.argumentDigest = request.argumentDigest

theorem findApproval_some {approvalId : String} {db : Database} {row : ApprovalRow}
    (hfind : findApproval approvalId db = some row) :
    row ∈ db.approvals ∧ row.approvalId = approvalId :=
  ⟨List.mem_of_find?_eq_some hfind, by simpa using List.find?_some hfind⟩

/-- What a request finds and does. -/
inductive RequestEffect (request : ApprovalRequest) (outboxId : String) (nowMs : Int)
    (db : Database) : ApprovalState → Database → Prop
  | found (row : ApprovalRow) (hmem : row ∈ db.approvals) (hsame : SameRequest request row) :
      RequestEffect request outboxId nowMs db row.state db
  | expired (row : ApprovalRow) (hmem : row ∈ db.approvals) (hsame : SameRequest request row) :
      RequestEffect request outboxId nowMs db .expired
        (setApproval request.approvalId .expired nowMs db)
  | created (hfresh : ∀ row ∈ db.approvals, row.approvalId ≠ request.approvalId)
      (htask : ∃ task ∈ db.tasks, task.taskId = request.taskId) :
      RequestEffect request outboxId nowMs db .pending
        (insertOutbox request.card request.taskId outboxId nowMs
          { db with approvals := db.approvals ++ [pendingApproval request nowMs] })

theorem requestApproval_effect {request : ApprovalRequest} {outboxId : String} {nowMs : Int}
    {db after : Database} {state : ApprovalState}
    (hok : requestApproval request outboxId nowMs db = .ok (state, after)) :
    RequestEffect request outboxId nowMs db state after := by
  unfold requestApproval at hok
  cases hfind : findApproval request.approvalId db with
  | none =>
      rw [hfind] at hok
      dsimp only at hok
      split at hok
      · cases hok
      · rename_i htask
        cases hok
        refine .created ?_ (by simpa using htask)
        intro row hrow hid
        have hnone := List.find?_eq_none.mp hfind row hrow
        simp [hid] at hnone
  | some row =>
      obtain ⟨hmem, hid⟩ := findApproval_some hfind
      rw [hfind] at hok
      dsimp only at hok
      split at hok
      · cases hok
      · rename_i hcolumns
        simp only [ne_eq, Decidable.not_not, Prod.mk.injEq] at hcolumns
        obtain ⟨htask, hrun, hactor, htool, hdigest⟩ := hcolumns
        have hsame : SameRequest request row := ⟨hid, htask, hrun, hactor, htool, hdigest⟩
        split at hok
        · cases hok
          exact .expired row hmem hsame
        · cases hok
          exact .found row hmem hsame

/-- A decision settles an approval as expired, or as its requester chose in time. -/
theorem decisionResult_some {args : ApprovalDecision} {decision state : ApprovalState}
    {row : ApprovalRow} {nowMs : Int} {result : String}
    (hresult : decisionResult args decision row nowMs = (result, some state)) :
    state = .expired ∨ (state = decision ∧ row.tenantKey = args.event.tenantKey ∧
      row.appId = args.event.appId ∧ row.actorId = args.actorId ∧ nowMs < row.expiresAtMs) := by
  unfold decisionResult at hresult
  split at hresult
  · cases hresult
  · rename_i hauthorized
    obtain ⟨htenant, happ, hactor⟩ := not_not.mp hauthorized
    split at hresult
    · cases hresult
      exact .inl rfl
    · rename_i hlive
      split at hresult
      · rename_i hpending
        cases hresult
        refine .inr ⟨rfl, htenant, happ, hactor, ?_⟩
        by_contra hlate
        exact hlive ⟨hpending, by omega⟩
      · cases hresult

/-- What a decision does: nothing when its event is known, and otherwise it records the
event, settles the approval when it may, and acknowledges. -/
theorem decideApproval_effect {args : ApprovalDecision} {outboxId : String} {nowMs : Int}
    {db after : Database} {result : String}
    (hok : decideApproval args outboxId nowMs db = .ok (result, after)) :
    ∃ row, findApproval args.approvalId db = some row ∧
      ((db.events.any (sameEvent args.event) = true ∧ after = db) ∨
      (db.events.any (sameEvent args.event) = false ∧
        (∃ pk, after.events = db.events ++ [⟨pk, args.event, nowMs⟩]) ∧
        ∃ decision state, decision.value = args.decision ∧ decision ≠ .pending ∧
          decisionResult args decision row nowMs = (result, state) ∧
          after.approvals = (state.elim db fun state =>
            setApproval args.approvalId state nowMs db).approvals)) := by
  unfold decideApproval at hok
  split at hok
  · cases hok
  · rename_i decision hdecision
    have hvalue : decision.value = args.decision := by simpa using List.find?_some hdecision
    have hsettled : decision ≠ .pending := by
      intro hpending
      have hmem := List.mem_of_find?_eq_some hdecision
      rw [hpending] at hmem
      exact absurd hmem (by decide)
    split at hok
    · cases hok
    · rename_i row hfind
      refine ⟨row, hfind, ?_⟩
      split at hok
      · rename_i hknown
        cases hok
        exact .inl ⟨hknown, rfl⟩
      · rename_i hnew
        obtain ⟨⟨pk, middle⟩, hinsert, hok⟩ := PyError.bind_eq_ok.mp hok
        have happrovals : middle.approvals = db.approvals := by rw [insertEvent_ok hinsert]
        have hevents : middle.events = db.events ++ [⟨pk, args.event, nowMs⟩] := by
          unfold insertEvent at hinsert
          split at hinsert
          · cases hinsert
          · cases hinsert
            rfl
        cases hanswer : decisionResult args decision row nowMs with
        | mk answer state =>
            simp only [hanswer] at hok
            cases hok
            refine .inr ⟨by simpa using hnew, ⟨pk, ?_⟩, decision, state, hvalue, hsettled, hanswer,
              ?_⟩
            · rw [insertOutbox_eq]
              cases state <;> exact hevents
            · rw [insertOutbox_eq]
              cases state with
              | none => exact happrovals
              | some state => simp [setApproval, happrovals]

/-- The approvals after a transaction. Every settlement is of pending rows, and one that
approves is backed by what the transaction adds to the record. -/
inductive ApprovalEffect (db : Database) : StoreOp → List ApprovalRow → Prop
  | same {op : StoreOp} : ApprovalEffect db op db.approvals
  | create {request : ApprovalRequest} {outboxId : String} {nowMs : Int}
      (hfresh : ∀ row ∈ db.approvals, row.approvalId ≠ request.approvalId) :
      ApprovalEffect db (.requestApproval request outboxId nowMs)
        (db.approvals ++ [pendingApproval request nowMs])
  | settle {op : StoreOp} (approvalId : String) (state : ApprovalState) (nowMs : Int) (hstate : state ≠ .pending)
      (hwhy : state = .approved → ∃ row, findApproval approvalId db = some row ∧
        ∃ d ∈ StoreHistory.recorded db op, d.Approves row) :
      ApprovalEffect db op (setApproval approvalId state nowMs db).approvals

theorem approvalEffect (db : Database) (op : StoreOp) :
    ApprovalEffect db op (op.apply db).approvals := by
  have hsame {op : StoreOp} {after : Database} (heq : after.approvals = db.approvals) :
      ApprovalEffect db op after.approvals := by
    rw [heq]
    exact .same
  cases hinternal : op.isInternal with
  | true => exact hsame (op.sameExchange db hinternal).approvals
  | false =>
      cases op with
      | admitEvent event command acknowledgement taskId outboxId nowMs =>
          refine hsame (Database.committed_column Database.approvals fun result after hok => ?_)
          rw [(admitEvent_ok hok).1]
      | enqueueTaskOutbox taskId draft outboxId nowMs =>
          refine hsame (Database.committed_column Database.approvals fun value after hok => ?_)
          rw [enqueueTaskOutbox_ok hok]
      | admitControl args controlId outboxId nowMs =>
          refine hsame (Database.committed_column Database.approvals fun result after hok => ?_)
          rw [(admitControl_ok hok).1]
      | finishTask args outboxId nowMs =>
          refine hsame (Database.committed_column Database.approvals fun value after hok => ?_)
          rw [(TaskQueue.finishTask_ok hok).2.2]
      | requestApproval request outboxId nowMs =>
          refine Database.committed_rel (R := fun db after => ApprovalEffect db _ after.approvals) db
            .same ?_
          intro state after hok
          cases requestApproval_effect hok with
          | found row hmem hmatch => exact .same
          | expired row hmem hmatch =>
              exact .settle request.approvalId .expired nowMs ApprovalState.noConfusion
                ApprovalState.noConfusion
          | created hfresh =>
              rw [insertOutbox_eq]
              exact .create hfresh
      | decideApproval args outboxId nowMs =>
          refine Database.committed_rel (R := fun db after => ApprovalEffect db _ after.approvals) db
            .same ?_
          intro result after hok
          obtain ⟨row, hfind, hcases⟩ := decideApproval_effect hok
          rcases hcases with ⟨_, hafter⟩ | ⟨hnew, _, decision, state, hvalue, hsettled, hanswer,
            happrovals⟩
          · rw [hafter]
            exact .same
          · rw [happrovals]
            cases state with
            | none => exact .same
            | some state =>
                rcases decisionResult_some hanswer with rfl | ⟨rfl, htenant, happ, hactor, hbefore⟩
                · exact .settle args.approvalId .expired nowMs ApprovalState.noConfusion
                    ApprovalState.noConfusion
                · refine .settle args.approvalId state nowMs hsettled ?_
                  intro happroved
                  refine ⟨row, hfind,
                    ⟨args.event, args.approvalId, args.actorId, args.decision, nowMs⟩, ?_, ?_⟩
                  · simp [StoreHistory.recorded, hok, hnew]
                  · refine ⟨(findApproval_some hfind).2.symm, htenant.symm, happ.symm, hactor.symm,
                      ?_, hbefore⟩
                    rw [← hvalue, happroved]
                    rfl
      | acknowledgeControls | leaseTasks | retryTask | deferTask | startRun | appendEvent
      | saveCheckpoint | discardCheckpoint | tryFinishWithOutcome => cases hinternal

/-! ### The history of an approval -/

namespace StoreHistory

structure ApprovalInvariant (s : StoreHistory) : Prop where
  unique : (s.db.approvals.map ApprovalRow.approvalId).Nodup
  approved : ∀ row ∈ s.db.approvals, row.state = .approved → ∃ d ∈ s.decisions, d.Approves row
  known : ∀ d ∈ s.decisions, s.db.knows d.event = true

theorem approvalInvariant_init : ApprovalInvariant {} :=
  { unique := List.nodup_nil
    approved := fun _ hrow => absurd hrow List.not_mem_nil
    known := fun _ hd => absurd hd List.not_mem_nil }

variable {s t : StoreHistory}

theorem setApproval_ids (approvalId : String) (state : ApprovalState) (nowMs : Int)
    (db : Database) : (setApproval approvalId state nowMs db).approvals.map ApprovalRow.approvalId =
      db.approvals.map ApprovalRow.approvalId :=
  Table.map_update ApprovalRow.approvalId fun _ => rfl

theorem ApprovalInvariant.step {op : StoreOp} (hinv : ApprovalInvariant s)
    (hstep : step s op = some t) : ApprovalInvariant t := by
  cases hstep
  have hadmission := admissionEffect s.db op
  have hknown : ∀ d ∈ s.decisions ++ recorded s.db op,
      (op.apply s.db).knows d.event = true := by
    intro d hd
    rcases List.mem_append.mp hd with hold | hnew
    · exact hadmission.knows (hinv.known d hold)
    · exact hadmission.recorded_known d hnew
  suffices hrows : ((op.apply s.db).approvals.map ApprovalRow.approvalId).Nodup ∧
      ∀ row ∈ (op.apply s.db).approvals, row.state = .approved →
        ∃ d ∈ s.decisions ++ recorded s.db op, d.Approves row from ⟨hrows.1, hrows.2, hknown⟩
  have hold : ∀ row ∈ s.db.approvals, row.state = .approved →
      ∃ d ∈ s.decisions ++ recorded s.db op, d.Approves row := by
    intro row hrow happroved
    obtain ⟨d, hd, happroves⟩ := hinv.approved row hrow happroved
    exact ⟨d, List.mem_append_left _ hd, happroves⟩
  have heffect := approvalEffect s.db op
  generalize (op.apply s.db).approvals = after at heffect ⊢
  cases heffect with
  | same => exact ⟨hinv.unique, hold⟩
  | create hfresh =>
      refine ⟨?_, ?_⟩
      · rw [List.map_append, List.nodup_append]
        refine ⟨hinv.unique, by simp, ?_⟩
        simp only [List.mem_map, List.map_cons, List.map_nil, List.mem_singleton]
        rintro _ ⟨row, hrow, rfl⟩ _ rfl
        exact hfresh row hrow
      · intro row hrow happroved
        rcases List.mem_append.mp hrow with hkept | hnew
        · exact hold row hkept happroved
        · rw [List.mem_singleton.mp hnew] at happroved
          cases happroved
  | settle approvalId state nowMs hstate hwhy =>
      refine ⟨by rw [setApproval_ids]; exact hinv.unique, ?_⟩
      intro row hrow happroved
      rcases Table.mem_update_cases hrow with ⟨hkept, _⟩ | ⟨old, holdMem, hcond, rfl⟩
      · exact hold row hkept happroved
      · obtain ⟨found, hfound, d, hd, happroves⟩ := hwhy happroved
        obtain ⟨hfoundMem, hfoundId⟩ := findApproval_some hfound
        simp only [Bool.and_eq_true, decide_eq_true_eq] at hcond
        have hsame : found = old := List.inj_on_of_nodup_map hinv.unique hfoundMem holdMem
          (hfoundId.trans hcond.1.symm)
        rw [hsame] at happroves
        exact ⟨d, List.mem_append_right _ hd, happroves.approvalId, happroves.tenantKey,
          happroves.appId, happroves.actorId, happroves.decision, happroves.before⟩

/-- A settled approval stays the row it is. -/
theorem settled_kept {op : StoreOp} (hstep : step s op = some t) {row : ApprovalRow}
    (hrow : row ∈ s.db.approvals) (hsettled : row.state ≠ .pending) : row ∈ t.db.approvals := by
  cases hstep
  have heffect := approvalEffect s.db op
  dsimp only
  generalize (op.apply s.db).approvals = after at heffect ⊢
  cases heffect with
  | same => exact hrow
  | create => exact List.mem_append_left _ hrow
  | settle approvalId state nowMs hstate hwhy =>
      exact Table.mem_update_of_not hrow (by simp [hsettled])

/-- What the broker finds when it lets a call pass. -/
theorem approved_of_request {broker : DurableApprovalBroker} {definition : ToolDefinition}
    {call : ToolCall} {context : ToolContext} {outboxId : String} {nowMs : Int} {db : Database}
    (hpassed : (broker.request definition call context outboxId nowMs db).1 = .ok true) :
    ∃ taskId, context.taskId = some taskId ∧ ∃ row ∈ db.approvals, row.state = .approved ∧
      SameRequest (broker.approvalRequest definition call context taskId nowMs) row := by
  unfold DurableApprovalBroker.request at hpassed
  split at hpassed
  · rename_i taskId _ _ htask _ _
    refine ⟨taskId, htask, ?_⟩
    unfold Database.transaction at hpassed
    cases hop : requestApproval (broker.approvalRequest definition call context taskId nowMs)
        outboxId nowMs db with
    | error e =>
        rw [hop] at hpassed
        cases hpassed
    | ok result =>
        obtain ⟨state, after⟩ := result
        rw [hop] at hpassed
        have hanswer : broker.answer state = .ok true := hpassed
        have happroved : state = .approved := by
          cases state <;> first | rfl | cases hanswer
        cases requestApproval_effect hop with
        | found row hmem hsame => exact ⟨row, hmem, happroved, hsame⟩
        | expired => cases happroved
        | created => cases happroved
  · cases hpassed

/-- What holds of the approvals in every state of every run. -/
structure ApprovalContract (s : StoreHistory) : Prop where
  /-- An approval leaves `pending` once and for all. -/
  absorbing : ∀ row ∈ s.db.approvals, row.state ≠ .pending →
    ∀ ls t, exec step ls s = some t → row ∈ t.db.approvals
  unique : (s.db.approvals.map ApprovalRow.approvalId).Nodup
  /-- The broker lets a call pass only if the requester approved it in time. -/
  authorized : ∀ (broker : DurableApprovalBroker) definition call context outboxId nowMs,
    (broker.request definition call context outboxId nowMs s.db).1 = .ok true →
    ∃ taskId, context.taskId = some taskId ∧ ∃ row ∈ s.db.approvals,
      SameRequest (broker.approvalRequest definition call context taskId nowMs) row ∧
      ∃ d ∈ s.decisions, d.Approves row
  /-- A decision event that is delivered again changes nothing. -/
  redelivered : ∀ d ∈ s.decisions, ∀ args : ApprovalDecision, SameDelivery args.event d.event →
    ∀ outboxId nowMs, (StoreOp.decideApproval args outboxId nowMs).apply s.db = s.db

theorem ApprovalInvariant.contract (hinv : ApprovalInvariant s) : ApprovalContract s := by
  refine ⟨?_, hinv.unique, ?_, ?_⟩
  · intro row hrow hsettled ls t hrun
    exact exec_invariant_of_step (I := fun s => row ∈ s.db.approvals)
      (fun s op t hmem hstep => settled_kept hstep hmem hsettled) hrow hrun
  · intro broker definition call context outboxId nowMs hpassed
    obtain ⟨taskId, htask, row, hrow, happroved, hsame⟩ := approved_of_request hpassed
    exact ⟨taskId, htask, row, hrow, hsame, hinv.approved row hrow happroved⟩
  · intro d hd args hsame outboxId nowMs
    apply decideApproval_known
    rw [hsame.knows_eq]
    exact hinv.known d hd

/-! ### The cards -/

/-- The idempotency key of an approval's card. -/
def cardKey (approvalId : String) : String := "approval:" ++ approvalId ++ ":request:v1"

/-- The idempotency key of a decision's acknowledgement. -/
def decisionKey (approvalId eventId : String) : String :=
  "approval:" ++ approvalId ++ ":decision:" ++ eventId

/-- What the callers of the store put in: the broker's card and its digest, the decision
service's acknowledgement, and keys of their own elsewhere. `new_outbox_id` draws an
identifier that is not in use. -/
def Keyed (db : Database) : StoreOp → Prop
  | .requestApproval request outboxId _ =>
      ':' ∉ request.approvalId.toList ∧ request.card.idempotencyKey = cardKey request.approvalId ∧
        ∀ row ∈ db.outbox, row.outboxId ≠ outboxId
  | .decideApproval args _ _ =>
      ∀ result, (args.acknowledgement result).idempotencyKey =
        decisionKey args.approvalId args.event.eventId
  | op => ∀ draft, mayEnqueue op draft → ∀ rest, draft.idempotencyKey ≠ "approval:" ++ rest

theorem append_cons_inj {α : Type*} {sep : α} {a b left right : List α} (ha : sep ∉ a)
    (hb : sep ∉ b) (heq : a ++ sep :: left = b ++ sep :: right) : a = b ∧ left = right := by
  induction a generalizing b with
  | nil =>
      cases b with
      | nil => simpa using heq
      | cons c rest =>
          simp only [List.nil_append, List.cons_append, List.cons.injEq] at heq
          exact absurd (heq.1 ▸ List.mem_cons_self) hb
  | cons c rest ih =>
      cases b with
      | nil =>
          simp only [List.nil_append, List.cons_append, List.cons.injEq] at heq
          exact absurd (heq.1 ▸ List.mem_cons_self) ha
      | cons d more =>
          simp only [List.cons_append, List.cons.injEq] at heq
          obtain ⟨hrest, htail⟩ := ih (fun h => ha (List.mem_cons_of_mem _ h))
            (fun h => hb (List.mem_cons_of_mem _ h)) heq.2
          exact ⟨by rw [heq.1, hrest], htail⟩

theorem cardKey_inj {a b : String} (ha : ':' ∉ a.toList) (hb : ':' ∉ b.toList)
    (heq : cardKey a = cardKey b) : a = b := by
  have hchars := congrArg String.toList heq
  simp only [cardKey, String.toList_append] at hchars
  rw [show ":request:v1".toList = ':' :: "request:v1".toList from rfl, List.append_assoc,
    List.append_assoc] at hchars
  exact String.toList_inj.mp (append_cons_inj ha hb (List.append_cancel_left hchars)).1

theorem decisionKey_ne_cardKey {a b eventId : String} (ha : ':' ∉ a.toList)
    (hb : ':' ∉ b.toList) : decisionKey a eventId ≠ cardKey b := by
  intro heq
  have hchars := congrArg String.toList heq
  simp only [decisionKey, cardKey, String.toList_append] at hchars
  rw [show ":request:v1".toList = ':' :: 'r' :: "equest:v1".toList from rfl,
    show ":decision:".toList = ':' :: 'd' :: "ecision:".toList from rfl, List.append_assoc,
    List.append_assoc, List.append_assoc, List.cons_append, List.cons_append] at hchars
  have hrest := (append_cons_inj ha hb (List.append_cancel_left hchars)).2
  cases hrest

/-- The messages that carry an approval's card. -/
def cardCount (db : Database) (approvalId : String) : Nat :=
  db.outbox.countP fun row => row.draft.idempotencyKey = cardKey approvalId

structure CardInvariant (db : Database) : Prop where
  ids : ∀ row ∈ db.approvals, ':' ∉ row.approvalId.toList
  cards : ∀ row ∈ db.approvals, cardCount db row.approvalId = 1
  owners : ∀ message ∈ db.outbox, ∀ approvalId : String, ':' ∉ approvalId.toList →
    message.draft.idempotencyKey = cardKey approvalId →
    ∃ row ∈ db.approvals, row.approvalId = approvalId

theorem cardInvariant_init : CardInvariant {} :=
  { ids := fun _ hrow => absurd hrow List.not_mem_nil
    cards := fun _ hrow => absurd hrow List.not_mem_nil
    owners := fun _ hmessage => absurd hmessage List.not_mem_nil }

/-- A transaction that keeps the approvals and adds no card. -/
theorem CardInvariant.of_effect {db after : Database} {may : OutboxDraft → Prop}
    (hinv : CardInvariant db)
    (hids : after.approvals.map ApprovalRow.approvalId = db.approvals.map ApprovalRow.approvalId)
    (heffect : OutboxEffect may db.outbox after.outbox)
    (hother : ∀ draft, may draft → ∀ approvalId : String, ':' ∉ approvalId.toList →
      draft.idempotencyKey ≠ cardKey approvalId) : CardInvariant after := by
  have hback : ∀ row ∈ after.approvals, ∃ old ∈ db.approvals, old.approvalId = row.approvalId := by
    intro row hrow
    have hmem : row.approvalId ∈ db.approvals.map ApprovalRow.approvalId :=
      hids ▸ List.mem_map_of_mem hrow
    exact List.mem_map.mp hmem
  have hforth : ∀ row ∈ db.approvals, ∃ new ∈ after.approvals, new.approvalId = row.approvalId := by
    intro row hrow
    have hmem : row.approvalId ∈ after.approvals.map ApprovalRow.approvalId :=
      hids ▸ List.mem_map_of_mem hrow
    exact List.mem_map.mp hmem
  have hclean : ∀ row ∈ after.approvals, ':' ∉ row.approvalId.toList := by
    intro row hrow
    obtain ⟨old, hold, hid⟩ := hback row hrow
    rw [← hid]
    exact hinv.ids old hold
  have hcards : ∀ row ∈ after.approvals, cardCount db row.approvalId = 1 := by
    intro row hrow
    obtain ⟨old, hold, hid⟩ := hback row hrow
    rw [← hid]
    exact hinv.cards old hold
  have howners : ∀ message ∈ db.outbox, ∀ approvalId : String, ':' ∉ approvalId.toList →
      message.draft.idempotencyKey = cardKey approvalId →
      ∃ row ∈ after.approvals, row.approvalId = approvalId := by
    intro message hmessage approvalId hcolon hkey
    obtain ⟨row, hrow, hid⟩ := hinv.owners message hmessage approvalId hcolon hkey
    obtain ⟨new, hnew, hnewId⟩ := hforth row hrow
    exact ⟨new, hnew, hnewId.trans hid⟩
  unfold cardCount at hcards
  refine ⟨hclean, ?_, ?_⟩
  · intro row hrow
    unfold cardCount
    have hcard := hcards row hrow
    have hcolon := hclean row hrow
    generalize after.outbox = rows at heffect ⊢
    cases heffect with
    | same => exact hcard
    | insert draft taskId outboxId nowMs hmay hfresh =>
        have hne : (insertedOutbox draft taskId outboxId nowMs).draft.idempotencyKey ≠
            cardKey row.approvalId := hother draft hmay row.approvalId hcolon
        rw [List.countP_append, hcard]
        simp [hne]
  · generalize after.outbox = rows at heffect ⊢
    cases heffect with
    | same => exact howners
    | insert draft taskId outboxId nowMs hmay hfresh =>
        intro message hmessage approvalId hcolon hkey
        rcases List.mem_append.mp hmessage with hold | hnew
        · exact howners message hold approvalId hcolon hkey
        · rw [List.mem_singleton.mp hnew] at hkey
          exact absurd hkey (hother draft hmay approvalId hcolon)

/-- A new approval gets its card. -/
theorem CardInvariant.create {db : Database} (hinv : CardInvariant db)
    {request : ApprovalRequest} {outboxId : String} {nowMs : Int}
    (hkeyed : Keyed db (.requestApproval request outboxId nowMs))
    (hnew : ∀ row ∈ db.approvals, row.approvalId ≠ request.approvalId) :
    CardInvariant (insertOutbox request.card request.taskId outboxId nowMs
      { db with approvals := db.approvals ++ [pendingApproval request nowMs] }) := by
  obtain ⟨hcolon, hcard, hfresh⟩ := hkeyed
  have hunused : ∀ message ∈ db.outbox,
      message.draft.idempotencyKey ≠ cardKey request.approvalId := by
    intro message hmessage hkey
    obtain ⟨row, hrow, hid⟩ := hinv.owners message hmessage request.approvalId hcolon hkey
    exact hnew row hrow hid
  have hinsert : insertOutbox request.card request.taskId outboxId nowMs
      { db with approvals := db.approvals ++ [pendingApproval request nowMs] } =
      { db with
        approvals := db.approvals ++ [pendingApproval request nowMs]
        outbox := db.outbox ++ [insertedOutbox request.card request.taskId outboxId nowMs] } := by
    unfold insertOutbox
    rw [if_neg]
    · rfl
    · intro hany
      obtain ⟨message, hmessage, hmatch⟩ := List.any_eq_true.mp hany
      simp only [Bool.or_eq_true, decide_eq_true_eq, hcard] at hmatch
      exact hmatch.elim (hunused message hmessage) (hfresh message hmessage)
  rw [hinsert]
  have hpending : (pendingApproval request nowMs).approvalId = request.approvalId := rfl
  have hkey : (insertedOutbox request.card request.taskId outboxId nowMs).draft.idempotencyKey =
      cardKey request.approvalId := hcard
  refine ⟨?_, ?_, ?_⟩
  · intro row hrow
    rcases List.mem_append.mp hrow with hold | hlast
    · exact hinv.ids row hold
    · rwa [List.mem_singleton.mp hlast, hpending]
  · intro row hrow
    unfold cardCount
    rw [List.countP_append]
    rcases List.mem_append.mp hrow with hold | hlast
    · have hne : cardKey request.approvalId ≠ cardKey row.approvalId := fun heq =>
        hnew row hold (cardKey_inj hcolon (hinv.ids row hold) heq).symm
      have hone := hinv.cards row hold
      unfold cardCount at hone
      rw [hone]
      simp [hkey, hne]
    · have hzero : db.outbox.countP
          (fun message => message.draft.idempotencyKey = cardKey request.approvalId) = 0 :=
        List.countP_eq_zero.mpr fun message hmessage => by simpa using hunused message hmessage
      rw [List.mem_singleton.mp hlast, hpending, hzero]
      simp [hkey]
  · intro message hmessage approvalId hclean hmatch
    rcases List.mem_append.mp hmessage with hold | hlast
    · obtain ⟨row, hrow, hid⟩ := hinv.owners message hold approvalId hclean hmatch
      exact ⟨row, List.mem_append_left _ hrow, hid⟩
    · rw [List.mem_singleton.mp hlast, hkey] at hmatch
      exact ⟨_, List.mem_append_right _ (List.mem_singleton_self _),
        cardKey_inj hcolon hclean hmatch⟩

/-- Only a request adds an approval. -/
theorem approvalIds_kept {db : Database} {op : StoreOp}
    (hother : ∀ request outboxId nowMs, op ≠ .requestApproval request outboxId nowMs) :
    (op.apply db).approvals.map ApprovalRow.approvalId =
      db.approvals.map ApprovalRow.approvalId := by
  have heffect := approvalEffect db op
  generalize (op.apply db).approvals = after at heffect ⊢
  cases heffect with
  | same => rfl
  | create => exact absurd rfl (hother _ _ _)
  | settle approvalId state nowMs => exact setApproval_ids approvalId state nowMs db

theorem CardInvariant.apply {db : Database} {op : StoreOp} (hinv : CardInvariant db)
    (hkeyed : Keyed db op) : CardInvariant (op.apply db) := by
  cases op with
  | requestApproval request outboxId nowMs =>
      cases hop : requestApproval request outboxId nowMs db with
      | error e =>
          rw [StoreOp.apply, Database.committed_error hop]
          exact hinv
      | ok result =>
          obtain ⟨state, after⟩ := result
          rw [StoreOp.apply, Database.committed_ok hop]
          cases requestApproval_effect hop with
          | found => exact hinv
          | expired =>
              have heffect : OutboxEffect (fun _ => False) db.outbox db.outbox := .same
              exact hinv.of_effect (setApproval_ids request.approvalId .expired nowMs db) heffect
                fun _ hmay => hmay.elim
          | created hnew => exact hinv.create hkeyed hnew
  | decideApproval args outboxId nowMs =>
      cases hop : decideApproval args outboxId nowMs db with
      | error e =>
          rw [StoreOp.apply, Database.committed_error hop]
          exact hinv
      | ok result =>
          obtain ⟨result, after⟩ := result
          obtain ⟨row, hfind, _⟩ := decideApproval_effect hop
          obtain ⟨hrow, hid⟩ := findApproval_some hfind
          have hcolon : ':' ∉ args.approvalId.toList := hid ▸ hinv.ids row hrow
          refine hinv.of_effect (approvalIds_kept (by rintro _ _ _ ⟨⟩)) (outboxEffect db _) ?_
          rintro draft ⟨answer, rfl⟩ approvalId hclean
          rw [show (args.acknowledgement answer).idempotencyKey = _ from hkeyed answer]
          exact decisionKey_ne_cardKey hcolon hclean
  | _ =>
      refine hinv.of_effect (approvalIds_kept (by rintro _ _ _ ⟨⟩)) (outboxEffect db _) ?_
      intro draft hmay approvalId _
      have hne := hkeyed draft hmay (approvalId ++ ":request:v1")
      rwa [← String.append_assoc] at hne

/-- Every approval has exactly one card in the outbox. -/
def OneCard (s : StoreHistory) : Prop :=
  ∀ row ∈ s.db.approvals, cardCount s.db row.approvalId = 1

/-- In every run of the store the approvals keep their contract, and with the keys that
the callers use each of them gets exactly one card. -/
theorem approval_contract (ls : List StoreOp) :
    Always step ApprovalContract ls {} ∧
      (Along step (fun s op => Keyed s.db op) ls {} → Always step OneCard ls {}) := by
  refine ⟨?_, ?_⟩
  · exact always_of_invariant (C := fun _ _ => True) (fun _ _ _ hinv _ hstep => hinv.step hstep)
      (fun _ hinv => hinv.contract) approvalInvariant_init
      (along_of_forall (fun _ _ => trivial) ls _)
  · refine always_of_invariant (I := fun s : StoreHistory => CardInvariant s.db) ?_ (fun _ hinv => hinv.cards)
      cardInvariant_init
    intro s op t hinv hkeyed hstep
    cases hstep
    exact hinv.apply hkeyed

/-- A request of an admitted and leased task, its approval, and a later click that changes its mind. -/
theorem approval_contract_of_two_clicks :
    let mention : NormalizedEvent :=
      { eventId := "event-0", pluginId := "feishu-im", eventType := "im.message"
        tenantKey := "tenant", appId := "app", occurredAtMs := 0, receivedAtMs := 0
        resourceKind := "im.message", resourceId := "message", traceId := "trace" }
    let command : TaskCommand :=
      { pluginId := "feishu-im", commandType := "im.handle_mention"
        sessionKey := "tenant/app/chat", payload := [("sender_id", .str "user")] }
    let context : ToolContext :=
      { runId := "run", nodeId := "root", tenantKey := "tenant", appId := "app", actorId := "user"
        sessionKey := "tenant/app/chat", identityRef := "bot", policyVersion := 1
        taskId := some "task", chatId := some "chat", sourceMessageId := some "message" }
    let request : ApprovalRequest :=
      { approvalId := "apr_0a", taskId := "task", runId := "run", tenantKey := "tenant"
        appId := "app", sessionKey := "tenant/app/chat", actorId := "user"
        toolId := "feishu.docs.delete", argumentDigest := "0a", traceId := "run"
        expiresAtMs := 900000
        card := DurableApprovalBroker.card
          ⟨"feishu.docs.delete", 1, "delete a document", [], .destructive, false⟩ context "apr_0a"
          900000 }
    let click (eventId decision : String) : ApprovalDecision :=
      { event :=
          { eventId, pluginId := "feishu-im", eventType := "card.approval.decided"
            tenantKey := "tenant", appId := "app", occurredAtMs := 5, receivedAtMs := 5
            resourceKind := "im.message", resourceId := "message", traceId := eventId }
        approvalId := "apr_0a", actorId := "user", decision
        acknowledgement :=
          ApprovalDecisionService.acknowledgement "apr_0a" eventId "chat" "message" }
    let steps : List StoreOp :=
      [.admitEvent mention command none "task" "outbox-0" 0,
        .leaseTasks ⟨"worker", 1, 60000, 1⟩ none, .requestApproval request "outbox-1" 2,
        .decideApproval (click "event-1" "approved") "outbox-2" 5,
        .decideApproval (click "event-2" "rejected") "outbox-3" 6]
    (exec step steps {}).map (fun s => s.db.approvals.map ApprovalRow.state) =
      some [.approved] ∧ Always step OneCard steps {} := by
  intro mention command context request click steps
  refine ⟨by decide +kernel, (approval_contract _).2 ?_⟩
  refine ⟨nofun, ?_⟩
  rintro _ ⟨⟩
  refine ⟨nofun, ?_⟩
  rintro _ ⟨⟩
  refine ⟨⟨by decide, rfl, by decide +kernel⟩, ?_⟩
  intro _ _
  refine ⟨fun _ => rfl, ?_⟩
  intro _ _
  exact ⟨fun _ => rfl, fun _ _ => trivial⟩

end StoreHistory

/-! ### The callers -/

/-- The digest of `hashlib.sha256(...).hexdigest()` is in hexadecimal. -/
def IsHexDigest (digest : String → String) : Prop :=
  ∀ text, ∀ c ∈ (digest text).toList, c ∈ "0123456789abcdef".toList

namespace DurableApprovalBroker

theorem approvalId_colon {broker : DurableApprovalBroker} (hhex : IsHexDigest broker.digest)
    (runId toolId argumentDigest : String) :
    ':' ∉ (broker.approvalId runId toolId argumentDigest).toList := by
  intro hcolon
  rw [approvalId, String.toList_append, List.mem_append] at hcolon
  rcases hcolon with hlabel | hdigest
  · exact absurd hlabel (by decide)
  · exact absurd (hhex _ ':' hdigest) (by decide)

/-- A request of the broker is one transaction of the store, keyed as required. -/
theorem request_keyed {broker : DurableApprovalBroker} (hhex : IsHexDigest broker.digest)
    {context : ToolContext} {taskId chatId messageId : String}
    (htask : context.taskId = some taskId) (hchat : context.chatId = some chatId)
    (hmessage : context.sourceMessageId = some messageId) (definition : ToolDefinition)
    (call : ToolCall) {outboxId : String} (nowMs : Int) {db : Database}
    (hfresh : ∀ row ∈ db.outbox, row.outboxId ≠ outboxId) :
    let op := StoreOp.requestApproval
      (broker.approvalRequest definition call context taskId nowMs) outboxId nowMs
    (broker.request definition call context outboxId nowMs db).2 = op.apply db ∧
      StoreHistory.Keyed db op := by
  refine ⟨?_, approvalId_colon hhex _ _ _, rfl, hfresh⟩
  simp only [request, htask, hchat, hmessage]
  rfl

end DurableApprovalBroker

namespace ApprovalDecisionService

/-- A decision that the callback asks for is acknowledged under its own key. -/
theorem decisionOf_keyed {appId : String} {raw : List (String × Json)} {nowMs : Int}
    {args : ApprovalDecision} (hok : decisionOf appId raw nowMs = .ok args) (outboxId : String)
    (db : Database) :
    let op := StoreOp.decideApproval args outboxId nowMs
    (handle appId raw outboxId nowMs db).2 = op.apply db ∧ StoreHistory.Keyed db op := by
  refine ⟨by simp only [handle, hok]; rfl, ?_⟩
  unfold decisionOf at hok
  obtain ⟨header, _, hok⟩ := PyError.bind_eq_ok.mp hok
  obtain ⟨event, _, hok⟩ := PyError.bind_eq_ok.mp hok
  obtain ⟨action, _, hok⟩ := PyError.bind_eq_ok.mp hok
  obtain ⟨value, _, hok⟩ := PyError.bind_eq_ok.mp hok
  obtain ⟨operator, _, hok⟩ := PyError.bind_eq_ok.mp hok
  obtain ⟨callbackContext, _, hok⟩ := PyError.bind_eq_ok.mp hok
  obtain ⟨approvalId, _, hok⟩ := PyError.bind_eq_ok.mp hok
  obtain ⟨decision, _, hok⟩ := PyError.bind_eq_ok.mp hok
  obtain ⟨actorId, _, hok⟩ := PyError.bind_eq_ok.mp hok
  obtain ⟨tenantKey, _, hok⟩ := PyError.bind_eq_ok.mp hok
  obtain ⟨messageId, _, hok⟩ := PyError.bind_eq_ok.mp hok
  obtain ⟨chatId, _, hok⟩ := PyError.bind_eq_ok.mp hok
  obtain ⟨eventId, _, hok⟩ := PyError.bind_eq_ok.mp hok
  cases hok
  exact fun _ => rfl

end ApprovalDecisionService

end Codex2Lark
