import Codex2Lark.Storage.Store

/-!
The leased outbox of `storage/runtime_store.py`. A lease transaction sweeps the
expired leases, selects the messages whose earlier messages of the same task are
all sent, and leases them; the two settlements are bound to the lease's owner.
-/

namespace Codex2Lark.RuntimeStore

open Lib

/-- The `CASE message_kind` of the three queries. -/
def kindRank (messageKind : String) : Nat :=
  if messageKind = "acknowledgement" then 0
  else if messageKind = "progress" then 1
  else if messageKind = "approval" then 2
  else 3

structure LeaseOutbox where
  workerId : String
  nowMs : Int
  leaseMs : Int
  limit : Nat := 10
deriving DecidableEq, Repr

def outboxExpired (nowMs : Int) (row : OutboxRow) : Bool :=
  row.state = .leased && (row.leaseExpiresAtMs.any fun expiry => expiry ≤ nowMs)

def dropOutboxLease (nowMs : Int) (row : OutboxRow) : OutboxRow :=
  { row with state := .pending, leaseOwner := none, leaseExpiresAtMs := none,
             updatedAtMs := nowMs }

def failOutbox (nowMs : Int) (row : OutboxRow) : OutboxRow :=
  { row with state := .failed, lastErrorCode := some "retry_exhausted", leaseOwner := none,
             leaseExpiresAtMs := none, updatedAtMs := nowMs }

/-- The two `UPDATE` statements at the head of `lease_outbox`. -/
def sweepOutbox (nowMs : Int) (rows : List OutboxRow) : List OutboxRow :=
  let retried := Table.update
    (fun row => outboxExpired nowMs row && decide (row.attemptCount < row.maxAttempts))
    (dropOutboxLease nowMs) rows
  Table.update
    (fun row => outboxExpired nowMs row && decide (row.maxAttempts ≤ row.attemptCount))
    (failOutbox nowMs) retried

/-- `prior.task_id = o.task_id`, which no `NULL` satisfies. -/
def sameTask (prior row : OutboxRow) : Bool :=
  prior.taskId.isSome && prior.taskId = row.taskId

/-- Strictly before in `(created_at_ms, kind rank)`. -/
def isEarlier (prior row : OutboxRow) : Bool :=
  decide (prior.createdAtMs < row.createdAtMs) ||
    (prior.createdAtMs = row.createdAtMs &&
      decide (kindRank prior.draft.messageKind < kindRank row.draft.messageKind))

/-- The `WHERE` of the selection. -/
def isSendable (rows : List OutboxRow) (nowMs : Int) (row : OutboxRow) : Bool :=
  row.state = .pending && decide (row.availableAtMs ≤ nowMs) &&
    decide (row.attemptCount < row.maxAttempts) &&
    !rows.any fun prior => sameTask prior row && prior.state ≠ .sent && isEarlier prior row

/-- `ORDER BY created_at_ms, kind rank, outbox_id`. -/
def outboxLe (a b : OutboxRow) : Bool :=
  if a.createdAtMs ≠ b.createdAtMs then a.createdAtMs < b.createdAtMs
  else if kindRank a.draft.messageKind ≠ kindRank b.draft.messageKind then
    kindRank a.draft.messageKind < kindRank b.draft.messageKind
  else a.outboxId ≤ b.outboxId

def selectOutbox (args : LeaseOutbox) (rows : List OutboxRow) : List String :=
  (((rows.filter (isSendable rows args.nowMs)).insertionSort (fun a b => outboxLe a b)).take
    args.limit).map OutboxRow.outboxId

def leasedOutboxRow (args : LeaseOutbox) (row : OutboxRow) : OutboxRow :=
  { row with
    state := .leased
    leaseOwner := some args.workerId
    leaseExpiresAtMs := some (args.nowMs + args.leaseMs)
    attemptCount := row.attemptCount + 1
    updatedAtMs := args.nowMs }

/-- The `UPDATE` of one selected message. -/
def leaseOutboxRow (args : LeaseOutbox) (outboxId : String) (rows : List OutboxRow) :
    List OutboxRow :=
  Table.update (fun row => row.outboxId = outboxId && row.state = .pending)
    (leasedOutboxRow args) rows

/-- `_leased_outbox`; the inserts of the store leave `run_id` empty. -/
def leasedOutbox (row : OutboxRow) : LeasedOutboxMessage :=
  { outboxId := row.outboxId, runId := none, publisherId := row.draft.publisherId
    destinationRef := row.draft.destinationRef, messageKind := row.draft.messageKind
    idempotencyKey := row.draft.idempotencyKey, payload := row.draft.payload
    attemptCount := row.attemptCount, leaseExpiresAtMs := row.leaseExpiresAtMs.getD 0 }

def leaseOutbox (args : LeaseOutbox) (db : Database) :
    Except PyError (List LeasedOutboxMessage × Database) :=
  if args.workerId = "" ∨ args.leaseMs ≤ 0 ∨ args.limit = 0 then
    .error (.valueError "worker_id, lease_ms, and limit must be positive")
  else
    let swept := sweepOutbox args.nowMs db.outbox
    let ids := selectOutbox args swept
    let rows := ids.foldl (fun rows outboxId => leaseOutboxRow args outboxId rows) swept
    let leased := (rows.filter fun row =>
      ids.contains row.outboxId && row.leaseOwner = some args.workerId).insertionSort
        (fun a b => outboxLe a b)
    .ok (leased.map leasedOutbox, { db with outbox := rows })

/-- `WHERE outbox_id = ? AND state = 'leased' AND lease_owner = ?`. -/
def outboxOwnedBy (outboxId workerId : String) (row : OutboxRow) : Bool :=
  row.outboxId = outboxId && row.state = .leased && row.leaseOwner = some workerId

/-- The settlements: update the one row that the worker holds, or raise. -/
def updateOwnedOutbox (outboxId workerId : String) (change : OutboxRow → OutboxRow)
    (db : Database) : Except PyError (Unit × Database) :=
  if Table.rowcount (outboxOwnedBy outboxId workerId) db.outbox = 1 then
    .ok ((), { db with
      outbox := Table.update (outboxOwnedBy outboxId workerId) change db.outbox })
  else .error (.runtimeError "outbox lease is not owned by worker")

def sentOutbox (upstreamRef : String) (nowMs : Int) (row : OutboxRow) : OutboxRow :=
  { row with state := .sent, upstreamRef := some upstreamRef, leaseOwner := none,
             leaseExpiresAtMs := none, updatedAtMs := nowMs }

def markOutboxSent (outboxId workerId upstreamRef : String) (nowMs : Int) (db : Database) :
    Except PyError (Unit × Database) :=
  updateOwnedOutbox outboxId workerId (sentOutbox upstreamRef nowMs) db

def retriedOutbox (errorCode : String) (availableAtMs nowMs : Int) (row : OutboxRow) :
    OutboxRow :=
  { row with
    state := if row.maxAttempts ≤ row.attemptCount then .failed else .pending
    availableAtMs
    leaseOwner := none
    leaseExpiresAtMs := none
    lastErrorCode := some errorCode
    updatedAtMs := nowMs }

def retryOutbox (outboxId workerId errorCode : String) (availableAtMs nowMs : Int)
    (db : Database) : Except PyError (Unit × Database) :=
  updateOwnedOutbox outboxId workerId (retriedOutbox errorCode availableAtMs nowMs) db

variable {args : LeaseOutbox} {rows after : List OutboxRow}

/-! ### The sweep -/

def sweptOutbox (nowMs : Int) (row : OutboxRow) : OutboxRow :=
  if outboxExpired nowMs row then
    if row.attemptCount < row.maxAttempts then dropOutboxLease nowMs row
    else failOutbox nowMs row
  else row

theorem sweepOutbox_eq (nowMs : Int) (rows : List OutboxRow) :
    sweepOutbox nowMs rows = rows.map (sweptOutbox nowMs) := by
  simp only [sweepOutbox, Table.update, List.map_map]
  apply List.map_congr_left
  intro row _
  cases hexpired : outboxExpired nowMs row with
  | false => simp [sweptOutbox, hexpired]
  | true =>
      by_cases hleft : row.attemptCount < row.maxAttempts
      · have hdropped : outboxExpired nowMs (dropOutboxLease nowMs row) = false := rfl
        simp [sweptOutbox, hexpired, hleft, hdropped]
      · have hspent : row.maxAttempts ≤ row.attemptCount := Nat.le_of_not_lt hleft
        simp [sweptOutbox, hexpired, hleft, hspent]

/-- What the sweep does to one row. -/
theorem sweptOutbox_cases (nowMs : Int) (row : OutboxRow) :
    (sweptOutbox nowMs row = row ∧ outboxExpired nowMs row = false) ∨
    (outboxExpired nowMs row = true ∧ row.attemptCount < row.maxAttempts ∧
      sweptOutbox nowMs row = dropOutboxLease nowMs row) ∨
    (outboxExpired nowMs row = true ∧ row.maxAttempts ≤ row.attemptCount ∧
      sweptOutbox nowMs row = failOutbox nowMs row) := by
  unfold sweptOutbox
  cases hexpired : outboxExpired nowMs row with
  | false => simp
  | true =>
      by_cases hleft : row.attemptCount < row.maxAttempts
      · exact .inr (.inl ⟨rfl, hleft, by simp [hleft]⟩)
      · exact .inr (.inr ⟨rfl, Nat.le_of_not_lt hleft, by simp [hleft]⟩)

/-- The columns that no transaction of the outbox writes. -/
structure SameMessage (a b : OutboxRow) : Prop where
  outboxId : a.outboxId = b.outboxId
  taskId : a.taskId = b.taskId
  draft : a.draft = b.draft
  createdAtMs : a.createdAtMs = b.createdAtMs
  maxAttempts : a.maxAttempts = b.maxAttempts

theorem SameMessage.trans {a b c : OutboxRow} (hab : SameMessage a b) (hbc : SameMessage b c) :
    SameMessage a c :=
  ⟨hab.1.trans hbc.1, hab.2.trans hbc.2, hab.3.trans hbc.3, hab.4.trans hbc.4, hab.5.trans hbc.5⟩

theorem SameMessage.sameTask {a b c d : OutboxRow} (hab : SameMessage a b)
    (hcd : SameMessage c d) : sameTask a c = sameTask b d := by
  simp [RuntimeStore.sameTask, hab.taskId, hcd.taskId]

theorem SameMessage.isEarlier {a b c d : OutboxRow} (hab : SameMessage a b)
    (hcd : SameMessage c d) : isEarlier a c = isEarlier b d := by
  simp [RuntimeStore.isEarlier, hab.createdAtMs, hcd.createdAtMs, hab.draft, hcd.draft]

theorem sweptOutbox_same (nowMs : Int) (row : OutboxRow) :
    SameMessage row (sweptOutbox nowMs row) := by
  unfold sweptOutbox
  split
  · split <;> exact ⟨rfl, rfl, rfl, rfl, rfl⟩
  · exact ⟨rfl, rfl, rfl, rfl, rfl⟩

/-- Only leased rows are swept. -/
theorem sweptOutbox_eq_self {nowMs : Int} {row : OutboxRow}
    (hunleased : row.state ≠ .leased) : sweptOutbox nowMs row = row := by
  simp [sweptOutbox, outboxExpired, hunleased]

theorem sweptOutbox_sent {nowMs : Int} {row : OutboxRow} :
    (sweptOutbox nowMs row).state = .sent ↔ row.state = .sent := by
  constructor
  · intro hsent
    rcases sweptOutbox_cases nowMs row with ⟨hsame, _⟩ | ⟨_, _, hdrop⟩ | ⟨_, _, hfail⟩
    · rwa [hsame] at hsent
    · rw [hdrop] at hsent
      cases hsent
    · rw [hfail] at hsent
      cases hsent
  · intro hsent
    rw [sweptOutbox_eq_self (by simp [hsent]), hsent]

theorem sweepOutbox_ids (nowMs : Int) (rows : List OutboxRow) :
    (sweepOutbox nowMs rows).map OutboxRow.outboxId = rows.map OutboxRow.outboxId := by
  rw [sweepOutbox_eq, List.map_map]
  have hsame : OutboxRow.outboxId ∘ sweptOutbox nowMs = OutboxRow.outboxId :=
    funext fun row => (sweptOutbox_same nowMs row).outboxId.symm
  rw [hsame]

/-! ### The selection -/

/-- The rows that the updates of a lease transaction match. -/
def isSelected (ids : List String) (row : OutboxRow) : Bool :=
  row.state = .pending && ids.contains row.outboxId

/-- The updates of the selected messages, one after the other, as one. -/
theorem leaseOutboxRows_eq (ids : List String) (rows : List OutboxRow) :
    ids.foldl (fun rows outboxId => leaseOutboxRow args outboxId rows) rows =
      Table.update (isSelected ids) (leasedOutboxRow args) rows := by
  induction ids generalizing rows with
  | nil =>
      rw [List.foldl_nil, Table.update_eq_self]
      intro row _
      simp [isSelected]
  | cons outboxId rest ih =>
      rw [List.foldl_cons, ih]
      simp only [leaseOutboxRow, Table.update, List.map_map]
      apply List.map_congr_left
      intro row _
      have hleased : (leasedOutboxRow args row).state ≠ .pending := OutboxState.noConfusion
      by_cases hid : row.outboxId = outboxId
      · by_cases hpending : row.state = .pending
        · simp [hid, hpending, hleased, isSelected]
        · simp [hpending, isSelected]
      · simp [hid, isSelected]

theorem isSendable_iff {nowMs : Int} {row : OutboxRow} :
    isSendable rows nowMs row = true ↔ row.state = .pending ∧ row.availableAtMs ≤ nowMs ∧
      row.attemptCount < row.maxAttempts ∧ ∀ prior ∈ rows, sameTask prior row = true →
        isEarlier prior row = true → prior.state = .sent := by
  simp only [isSendable, Bool.and_eq_true, decide_eq_true_eq, Bool.not_eq_true', and_assoc]
  refine and_congr_right fun _ => and_congr_right fun _ => and_congr_right fun _ => ?_
  simp only [List.any_eq_false]
  refine forall₂_congr fun prior _ => ?_
  by_cases hsent : prior.state = .sent
  · simp [hsent]
  · simp [hsent]

theorem mem_selectOutbox {outboxId : String} (hmem : outboxId ∈ selectOutbox args rows) :
    ∃ row ∈ rows, row.outboxId = outboxId ∧ isSendable rows args.nowMs row = true := by
  obtain ⟨row, hrow, hid⟩ := List.mem_map.mp hmem
  have hsorted := List.mem_of_mem_take hrow
  rw [List.mem_insertionSort, List.mem_filter] at hsorted
  exact ⟨row, hsorted.1, hid, hsorted.2⟩

/-- With room for the whole table every sendable message is selected. -/
theorem selectOutbox_of_sendable {row : OutboxRow} (hmem : row ∈ rows)
    (hsendable : isSendable rows args.nowMs row = true) (hlimit : rows.length ≤ args.limit) :
    row.outboxId ∈ selectOutbox args rows := by
  have hlength : ((rows.filter (isSendable rows args.nowMs)).insertionSort
      (fun a b => outboxLe a b)).length ≤ args.limit := by
    rw [List.length_insertionSort]
    exact (List.length_filter_le _ _).trans hlimit
  rw [selectOutbox, List.take_of_length_le hlength]
  refine List.mem_map_of_mem ?_
  rw [List.mem_insertionSort, List.mem_filter]
  exact ⟨hmem, hsendable⟩

/-- A row that is selected, when identifiers are unique. -/
theorem isSelected_sendable (hunique : (rows.map OutboxRow.outboxId).Nodup) {row : OutboxRow}
    (hmem : row ∈ rows) (hin : row.outboxId ∈ selectOutbox args rows) :
    isSendable rows args.nowMs row = true := by
  obtain ⟨other, hother, hid, hsendable⟩ := mem_selectOutbox hin
  have hsame : other = row := List.inj_on_of_nodup_map hunique hother hmem hid
  rwa [hsame] at hsendable

/-! ### The lease transaction -/

/-- What a lease transaction does to one row. -/
inductive LeaseMove (args : LeaseOutbox) (rows : List OutboxRow) (row : OutboxRow) :
    OutboxRow → Prop
  | sweep : LeaseMove args rows row (sweptOutbox args.nowMs row)
  | lease (hsendable : isSendable (sweepOutbox args.nowMs rows) args.nowMs
        (sweptOutbox args.nowMs row) = true) :
      LeaseMove args rows row (leasedOutboxRow args (sweptOutbox args.nowMs row))

theorem LeaseMove.same {row moved : OutboxRow} (hmove : LeaseMove args rows row moved) :
    SameMessage row moved := by
  cases hmove with
  | sweep => exact sweptOutbox_same args.nowMs row
  | lease => exact (sweptOutbox_same args.nowMs row).trans ⟨rfl, rfl, rfl, rfl, rfl⟩

/-- A lease transaction sweeps, and leases the selected rows. -/
theorem leaseOutbox_ok {db dbAfter : Database} {items : List LeasedOutboxMessage}
    (hok : leaseOutbox args db = .ok (items, dbAfter)) :
    args.workerId ≠ "" ∧ 0 < args.leaseMs ∧
    (dbAfter = { db with
      outbox := Table.update (isSelected (selectOutbox args (sweepOutbox args.nowMs db.outbox)))
        (leasedOutboxRow args) (sweepOutbox args.nowMs db.outbox) }) ∧
    items = ((dbAfter.outbox.filter fun row =>
      (selectOutbox args (sweepOutbox args.nowMs db.outbox)).contains row.outboxId &&
        row.leaseOwner = some args.workerId).insertionSort (fun a b => outboxLe a b)).map
          leasedOutbox := by
  unfold leaseOutbox at hok
  split at hok
  · cases hok
  · rename_i hargs
    rw [not_or, not_or] at hargs
    dsimp only at hok
    rw [leaseOutboxRows_eq] at hok
    cases hok
    exact ⟨hargs.1, by omega, rfl, rfl⟩

theorem leaseOutbox_moves {db dbAfter : Database} {items : List LeasedOutboxMessage}
    (hunique : (db.outbox.map OutboxRow.outboxId).Nodup)
    (hok : leaseOutbox args db = .ok (items, dbAfter)) :
    List.Forall₂ (LeaseMove args db.outbox) db.outbox dbAfter.outbox := by
  obtain ⟨_, _, hafter, _⟩ := leaseOutbox_ok hok
  have houtbox : dbAfter.outbox = Table.update
      (isSelected (selectOutbox args (sweepOutbox args.nowMs db.outbox))) (leasedOutboxRow args)
      (sweepOutbox args.nowMs db.outbox) := by rw [hafter]
  have hswept : ((sweepOutbox args.nowMs db.outbox).map OutboxRow.outboxId).Nodup := by
    rwa [sweepOutbox_ids]
  rw [houtbox]
  unfold Table.update
  rw [List.forall₂_map_right_iff]
  conv => rhs; rw [sweepOutbox_eq]
  rw [List.forall₂_map_right_iff, List.forall₂_same]
  intro row hrow
  have hmem : sweptOutbox args.nowMs row ∈ sweepOutbox args.nowMs db.outbox := by
    rw [sweepOutbox_eq]
    exact List.mem_map_of_mem hrow
  cases hselected : isSelected (selectOutbox args (sweepOutbox args.nowMs db.outbox))
      (sweptOutbox args.nowMs row) with
  | false => exact .sweep
  | true =>
      simp only [isSelected, Bool.and_eq_true, List.contains_iff_mem] at hselected
      exact .lease (isSelected_sendable hswept hmem hselected.2)

/-- What a dispatcher is handed are rows that this transaction leased. -/
theorem leaseOutbox_items {db dbAfter : Database} {items : List LeasedOutboxMessage}
    (hunique : (db.outbox.map OutboxRow.outboxId).Nodup)
    (hok : leaseOutbox args db = .ok (items, dbAfter)) {item : LeasedOutboxMessage}
    (hitem : item ∈ items) :
    ∃ old ∈ db.outbox, isSendable (sweepOutbox args.nowMs db.outbox) args.nowMs
        (sweptOutbox args.nowMs old) = true ∧
      leasedOutboxRow args (sweptOutbox args.nowMs old) ∈ dbAfter.outbox ∧
      item = leasedOutbox (leasedOutboxRow args (sweptOutbox args.nowMs old)) := by
  obtain ⟨_, _, hafter, hitems⟩ := leaseOutbox_ok hok
  rw [hitems] at hitem
  obtain ⟨row, hrow, rfl⟩ := List.mem_map.mp hitem
  rw [List.mem_insertionSort, List.mem_filter, Bool.and_eq_true, List.contains_iff_mem] at hrow
  obtain ⟨hmem, hselected, _⟩ := hrow
  have hswept : ((sweepOutbox args.nowMs db.outbox).map OutboxRow.outboxId).Nodup := by
    rwa [sweepOutbox_ids]
  rw [hafter] at hmem
  rcases Table.mem_update_cases hmem with ⟨hold, hnot⟩ | ⟨swept, hold, _, rfl⟩
  · have hsendable := isSelected_sendable hswept hold hselected
    simp [isSelected, (isSendable_iff.mp hsendable).1, hselected] at hnot
  · have hsendable := isSelected_sendable hswept hold hselected
    rw [sweepOutbox_eq] at hold
    obtain ⟨old, holdMem, rfl⟩ := List.mem_map.mp hold
    exact ⟨old, holdMem, hsendable, by rwa [hafter], rfl⟩

/-! ### The other transactions -/

/-- The row that `_insert_outbox` inserts. -/
def insertedOutbox (draft : OutboxDraft) (taskId outboxId : String) (nowMs : Int) : OutboxRow :=
  { outboxId, taskId := some taskId, draft, state := .pending
    availableAtMs := draft.availableAtMs, leaseOwner := none, leaseExpiresAtMs := none
    attemptCount := 0, maxAttempts := 8, lastErrorCode := none, upstreamRef := none
    createdAtMs := nowMs, updatedAtMs := nowMs }

/-- The messages that a transaction may put into the outbox. -/
def mayEnqueue : StoreOp → OutboxDraft → Prop
  | .admitEvent _ _ acknowledgement _ _ _, draft => acknowledgement = some draft
  | .enqueueTaskOutbox _ enqueued _ _, draft => draft = enqueued
  | .requestApproval request _ _, draft => draft = request.card
  | .decideApproval args _ _, draft => ∃ result, draft = args.acknowledgement result
  | .admitControl args _ _ _, draft => draft = args.acknowledgement
  | .finishTask args _ _, draft => args.terminalMessage = some draft
  | _, _ => False

/-- The outbox after a transaction of the store: as it was, or with one new message
behind, whose identifier and idempotency key are new too. -/
inductive OutboxEffect (may : OutboxDraft → Prop) (rows : List OutboxRow) :
    List OutboxRow → Prop
  | same : OutboxEffect may rows rows
  | insert (draft : OutboxDraft) (taskId outboxId : String) (nowMs : Int) (hmay : may draft)
      (hfresh : ∀ row ∈ rows,
        row.draft.idempotencyKey ≠ draft.idempotencyKey ∧ row.outboxId ≠ outboxId) :
      OutboxEffect may rows (rows ++ [insertedOutbox draft taskId outboxId nowMs])

theorem insertOutbox_effect {may : OutboxDraft → Prop} {db middle : Database}
    (hsame : middle.outbox = db.outbox) {draft : OutboxDraft} (hmay : may draft)
    (taskId outboxId : String) (nowMs : Int) :
    OutboxEffect may db.outbox (insertOutbox draft taskId outboxId nowMs middle).outbox := by
  unfold insertOutbox
  split
  · rw [hsame]
    exact .same
  · rename_i hfresh
    rw [hsame] at hfresh ⊢
    refine .insert draft taskId outboxId nowMs hmay ?_
    intro row hrow
    have hnot := List.any_eq_false.mp (Bool.eq_false_iff.mpr hfresh) row hrow
    simpa [not_or] using hnot

theorem outboxEffect (db : Database) (op : StoreOp) :
    OutboxEffect (mayEnqueue op) db.outbox (op.apply db).outbox := by
  have hrel {α : Type} {operation : Database → Except PyError (α × Database)}
      (hok : ∀ value after, operation db = .ok (value, after) →
        OutboxEffect (mayEnqueue op) db.outbox after.outbox) :
      OutboxEffect (mayEnqueue op) db.outbox (db.committed operation).outbox :=
    Database.committed_rel (R := fun db after => OutboxEffect (mayEnqueue op) db.outbox after.outbox)
      db .same hok
  cases hinternal : op.isInternal with
  | true =>
      rw [(op.sameExchange db hinternal).outbox]
      exact .same
  | false =>
      cases op with
      | admitEvent event command acknowledgement taskId outboxId nowMs =>
          refine hrel fun result after hok => ?_
          unfold admitEvent at hok
          dsimp only at hok
          split at hok
          · cases hok
            exact .same
          · obtain ⟨⟨pk, middle⟩, hinsert, hok⟩ := PyError.bind_eq_ok.mp hok
            have hmiddle : middle.outbox = db.outbox := by rw [insertEvent_ok hinsert]
            split at hok
            · cases hok
            · cases hok
              cases acknowledgement with
              | none =>
                  rw [show _ = db.outbox from hmiddle]
                  exact .same
              | some draft =>
                  refine insertOutbox_effect ?_ ?_ ..
                  · exact hmiddle
                  · rfl
      | enqueueTaskOutbox taskId draft outboxId nowMs =>
          refine hrel fun value after hok => ?_
          unfold enqueueTaskOutbox at hok
          split at hok
          · cases hok
          · cases hok
            refine insertOutbox_effect ?_ ?_ ..
            · rfl
            · rfl
      | requestApproval request outboxId nowMs =>
          refine hrel fun state after hok => ?_
          unfold requestApproval at hok
          split at hok
          · split at hok
            · cases hok
            · split at hok <;> cases hok <;> exact .same
          · split at hok
            · cases hok
            · cases hok
              refine insertOutbox_effect ?_ ?_ ..
              · rfl
              · rfl
      | decideApproval args outboxId nowMs =>
          refine hrel fun result after hok => ?_
          unfold decideApproval at hok
          split at hok
          · cases hok
          · split at hok
            · cases hok
            · split at hok
              · cases hok
                exact .same
              · obtain ⟨⟨pk, middle⟩, hinsert, hok⟩ := PyError.bind_eq_ok.mp hok
                have hmiddle : middle.outbox = db.outbox := by rw [insertEvent_ok hinsert]
                cases hok
                refine insertOutbox_effect ?_ ?_ ..
                · split <;> exact hmiddle
                · exact ⟨_, rfl⟩
      | admitControl args controlId outboxId nowMs =>
          refine hrel fun result after hok => ?_
          unfold admitControl at hok
          dsimp only at hok
          split at hok
          · cases hok
            exact .same
          · split at hok
            · cases hok
              exact .same
            · split at hok
              · cases hok
                exact .same
              · split at hok
                · cases hok
                  exact .same
                · obtain ⟨⟨pk, middle⟩, hinsert, hok⟩ := PyError.bind_eq_ok.mp hok
                  have hmiddle : middle.outbox = db.outbox := by rw [insertEvent_ok hinsert]
                  obtain ⟨⟨_, later⟩, hcontrol, hok⟩ := PyError.bind_eq_ok.mp hok
                  unfold insertControl at hcontrol
                  split at hcontrol
                  · cases hcontrol
                  · cases hcontrol
                    cases hok
                    refine insertOutbox_effect ?_ ?_ ..
                    · exact hmiddle
                    · rfl
      | finishTask args outboxId nowMs =>
          refine hrel fun value after hok => ?_
          unfold TaskQueue.finishTask at hok
          split at hok
          · cases hok
          · obtain ⟨⟨_, middle⟩, hupdate, hok⟩ := PyError.bind_eq_ok.mp hok
            have hmiddle : middle.outbox = db.outbox := by
              rw [(TaskQueue.updateOwned_ok hupdate).2]
            dsimp only at hok
            split at hok
            · cases hok
              rw [hmiddle]
              exact .same
            · cases hok
              rename_i hdraft
              refine insertOutbox_effect ?_ ?_ ..
              · exact hmiddle
              · exact hdraft
      | acknowledgeControls | leaseTasks | retryTask | deferTask | startRun | appendEvent
      | saveCheckpoint | discardCheckpoint | tryFinishWithOutcome => cases hinternal

end Codex2Lark.RuntimeStore
