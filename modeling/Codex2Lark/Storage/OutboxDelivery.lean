import Codex2Lark.Storage.Outbox

/-!
The outbox under any number of dispatchers. A run interleaves every transaction of
the store with leases, deliveries and retries by any worker; the record of a lease
stays with the worker until it settles the message.
-/

namespace Codex2Lark

open Lib RuntimeStore

/-- The lease that a worker was given. -/
structure OutboxGrant where
  outboxId : String
  workerId : String
  expiresAtMs : Int
deriving DecidableEq, Repr

/-- `clock` is the latest reading that any call was made with. -/
structure OutboxSystem where
  db : Database := {}
  clock : Int
  grants : List OutboxGrant := []
deriving DecidableEq, Repr

inductive OutboxLabel where
  | store (op : StoreOp)
  | lease (args : LeaseOutbox)
  | sent (outboxId workerId upstreamRef : String) (nowMs : Int)
  | retry (outboxId workerId errorCode : String) (availableAtMs nowMs : Int)

namespace OutboxSystem

def granted (args : LeaseOutbox) (items : List LeasedOutboxMessage) : List OutboxGrant :=
  items.map fun item => ⟨item.outboxId, args.workerId, item.leaseExpiresAtMs⟩

def settled (outboxId workerId : String) (grants : List OutboxGrant) : List OutboxGrant :=
  Table.delete (fun grant => grant.outboxId = outboxId && grant.workerId = workerId) grants

/-- A settlement that raises leaves the tables and the worker's leases. -/
def settle (s : OutboxSystem) (outboxId workerId : String) (nowMs : Int)
    (result : Except PyError (Unit × Database)) : OutboxSystem :=
  match result with
  | .ok (_, db) => ⟨db, max s.clock nowMs, settled outboxId workerId s.grants⟩
  | .error _ => { s with clock := max s.clock nowMs }

def step (s : OutboxSystem) : OutboxLabel → Option OutboxSystem
  | .store op => some { s with db := op.apply s.db }
  | .lease args =>
      match leaseOutbox args s.db with
      | .ok (items, db) => some ⟨db, max s.clock args.nowMs, s.grants ++ granted args items⟩
      | .error _ => some s
  | .sent outboxId workerId upstreamRef nowMs =>
      some (s.settle outboxId workerId nowMs
        (markOutboxSent outboxId workerId upstreamRef nowMs s.db))
  | .retry outboxId workerId errorCode availableAtMs nowMs =>
      some (s.settle outboxId workerId nowMs
        (retryOutbox outboxId workerId errorCode availableAtMs nowMs s.db))

end OutboxSystem

/-! ### One message -/

/-- Pending with attempts left, or on its way. -/
def OutboxRow.isOpen (row : OutboxRow) : Bool :=
  (row.state = .pending && decide (row.attemptCount < row.maxAttempts)) || row.state = .leased

/-- A strictly earlier message of the same task is still open. -/
def OpenBefore (rows : List OutboxRow) (message : OutboxRow) : Prop :=
  ∃ prior ∈ rows, sameTask prior message = true ∧ isEarlier prior message = true ∧
    prior.isOpen = true

/-- A strictly earlier message of the same task has failed. -/
def FailedBefore (rows : List OutboxRow) (message : OutboxRow) : Prop :=
  ∃ prior ∈ rows, sameTask prior message = true ∧ isEarlier prior message = true ∧
    prior.state = .failed

instance (rows : List OutboxRow) (message : OutboxRow) : Decidable (OpenBefore rows message) :=
  inferInstanceAs (Decidable (∃ prior ∈ rows, _))

instance (rows : List OutboxRow) (message : OutboxRow) : Decidable (FailedBefore rows message) :=
  inferInstanceAs (Decidable (∃ prior ∈ rows, _))

/-- What a settlement may do to the row that it finds. -/
structure Settles (change : OutboxRow → OutboxRow) : Prop where
  same : ∀ row, SameMessage row (change row)
  attemptCount : ∀ row, (change row).attemptCount = row.attemptCount
  unleased : ∀ row, (change row).state ≠ .leased
  pending : ∀ row, (change row).state = .pending → row.attemptCount < row.maxAttempts

theorem sentOutbox_settles (upstreamRef : String) (nowMs : Int) :
    Settles (sentOutbox upstreamRef nowMs) :=
  { same := fun _ => ⟨rfl, rfl, rfl, rfl, rfl⟩
    attemptCount := fun _ => rfl
    unleased := fun _ => OutboxState.noConfusion
    pending := fun _ => OutboxState.noConfusion }

theorem retriedOutbox_settles (errorCode : String) (availableAtMs nowMs : Int) :
    Settles (retriedOutbox errorCode availableAtMs nowMs) := by
  have hstate (row : OutboxRow) : (retriedOutbox errorCode availableAtMs nowMs row).state =
      if row.maxAttempts ≤ row.attemptCount then .failed else .pending := rfl
  refine ⟨fun _ => ⟨rfl, rfl, rfl, rfl, rfl⟩, fun _ => rfl, ?_, ?_⟩
  · intro row hleased
    rw [hstate] at hleased
    split at hleased <;> cases hleased
  · intro row hpending
    rw [hstate] at hpending
    split at hpending
    · cases hpending
    · omega

namespace OutboxSystem

/-- The grant is the lease that the row carries. -/
structure Holds (grant : OutboxGrant) (row : OutboxRow) : Prop where
  outboxId : row.outboxId = grant.outboxId
  state : row.state = .leased
  leaseOwner : row.leaseOwner = some grant.workerId
  leaseExpiresAtMs : row.leaseExpiresAtMs = some grant.expiresAtMs

/-- An attempt is counted when the message is leased, so a pending message has one
left; a lease that no clock has passed is the one in the table. -/
structure Invariant (s : OutboxSystem) : Prop where
  unique : (s.db.outbox.map OutboxRow.outboxId).Nodup
  attempts : ∀ row ∈ s.db.outbox, row.attemptCount ≤ row.maxAttempts
  pending : ∀ row ∈ s.db.outbox, row.state = .pending → row.attemptCount < row.maxAttempts
  grants : ∀ grant ∈ s.grants, grant.expiresAtMs ≤ s.clock ∨ ∃ row ∈ s.db.outbox, Holds grant row

theorem invariant_init (start : Int) : Invariant { clock := start } :=
  { unique := List.nodup_nil
    attempts := fun _ hrow => absurd hrow List.not_mem_nil
    pending := fun _ hrow => absurd hrow List.not_mem_nil
    grants := fun _ hgrant => absurd hgrant List.not_mem_nil }

variable {s t : OutboxSystem}

/-! ### A transaction of the store -/

theorem mem_of_effect {may : OutboxDraft → Prop} {rows after : List OutboxRow}
    (heffect : OutboxEffect may rows after)
    {row : OutboxRow} (hrow : row ∈ rows) : row ∈ after := by
  cases heffect with
  | same => exact hrow
  | insert draft taskId outboxId nowMs hmay hfresh => exact List.mem_append_left _ hrow

theorem Invariant.store (hinv : Invariant s) (op : StoreOp) :
    Invariant { s with db := op.apply s.db } := by
  have heffect := outboxEffect s.db op
  have hgrants : ∀ grant ∈ s.grants,
      grant.expiresAtMs ≤ s.clock ∨ ∃ row ∈ (op.apply s.db).outbox, Holds grant row := by
    intro grant hgrant
    refine (hinv.grants grant hgrant).imp_right ?_
    rintro ⟨row, hrow, hholds⟩
    exact ⟨row, mem_of_effect heffect hrow, hholds⟩
  suffices hrows : ((op.apply s.db).outbox.map OutboxRow.outboxId).Nodup ∧
      ∀ row ∈ (op.apply s.db).outbox, row.attemptCount ≤ row.maxAttempts ∧
        (row.state = .pending → row.attemptCount < row.maxAttempts) from
    ⟨hrows.1, fun row hrow => (hrows.2 row hrow).1, fun row hrow => (hrows.2 row hrow).2, hgrants⟩
  clear hgrants
  generalize (op.apply s.db).outbox = after at heffect ⊢
  cases heffect with
  | same => exact ⟨hinv.unique, fun row hrow => ⟨hinv.attempts row hrow, hinv.pending row hrow⟩⟩
  | insert draft taskId outboxId nowMs hmay hfresh =>
      refine ⟨?_, ?_⟩
      · rw [List.map_append, List.nodup_append]
        refine ⟨hinv.unique, by simp, ?_⟩
        simp only [List.mem_map, List.map_cons, List.map_nil, List.mem_singleton]
        rintro _ ⟨row, hrow, rfl⟩ _ rfl
        exact (hfresh row hrow).2
      · intro row hrow
        rcases List.mem_append.mp hrow with hold | hnew
        · exact ⟨hinv.attempts row hold, hinv.pending row hold⟩
        · rw [List.mem_singleton.mp hnew]
          exact ⟨Nat.zero_le 8, fun _ => Nat.zero_lt_succ 7⟩

/-! ### A lease -/

/-- A lease that has not expired by the clock of the call is not swept. -/
theorem Holds.moved {grant : OutboxGrant} {row moved : OutboxRow} {args : LeaseOutbox}
    {rows : List OutboxRow} (hholds : Holds grant row) (hlive : args.nowMs < grant.expiresAtMs)
    (hmove : LeaseMove args rows row moved) : moved = row := by
  have hkept : sweptOutbox args.nowMs row = row := by
    have hnotExpired : outboxExpired args.nowMs row = false := by
      simp [outboxExpired, hholds.leaseExpiresAtMs, hlive]
    simp [sweptOutbox, hnotExpired]
  cases hmove with
  | sweep => exact hkept
  | lease hsendable =>
      have hpending := (isSendable_iff.mp hsendable).1
      rw [hkept, hholds.state] at hpending
      cases hpending

theorem Invariant.lease (hinv : Invariant s) {args : LeaseOutbox}
    {items : List LeasedOutboxMessage} {after : Database}
    (hok : leaseOutbox args s.db = .ok (items, after)) :
    Invariant ⟨after, max s.clock args.nowMs, s.grants ++ granted args items⟩ := by
  have hmoves := leaseOutbox_moves hinv.unique hok
  refine ⟨?_, ?_, ?_, ?_⟩
  · rw [Table.Forall₂.map_eq (fun _ _ hmove => hmove.same.outboxId) hmoves]
    exact hinv.unique
  · intro row hrow
    obtain ⟨old, hold, hmove⟩ := Table.Forall₂.of_mem_right hmoves hrow
    have hattempts := hinv.attempts old hold
    cases hmove with
    | sweep =>
        rcases sweptOutbox_cases args.nowMs old with ⟨hsame, _⟩ | ⟨_, _, hdrop⟩ | ⟨_, _, hfail⟩
        · rwa [hsame]
        · rwa [hdrop]
        · rwa [hfail]
    | lease hsendable => exact (isSendable_iff.mp hsendable).2.2.1
  · intro row hrow hpending
    obtain ⟨old, hold, hmove⟩ := Table.Forall₂.of_mem_right hmoves hrow
    cases hmove with
    | sweep =>
        rcases sweptOutbox_cases args.nowMs old with ⟨hsame, _⟩ | ⟨_, hleft, hdrop⟩ | ⟨_, _, hfail⟩
        · rw [hsame] at hpending ⊢
          exact hinv.pending old hold hpending
        · rwa [hdrop]
        · rw [hfail] at hpending
          cases hpending
    | lease => cases hpending
  · intro grant hgrant
    dsimp only
    rcases List.mem_append.mp hgrant with hold | hnew
    · by_cases hexpired : grant.expiresAtMs ≤ max s.clock args.nowMs
      · exact .inl hexpired
      · have hlive : s.clock < grant.expiresAtMs ∧ args.nowMs < grant.expiresAtMs := by omega
        obtain ⟨row, hrow, hholds⟩ :=
          (hinv.grants grant hold).resolve_left (Int.not_le.mpr hlive.1)
        obtain ⟨moved, hmoved, hmove⟩ := Table.Forall₂.of_mem_left hmoves hrow
        rw [hholds.moved hlive.2 hmove] at hmoved
        exact .inr ⟨row, hmoved, hholds⟩
    · obtain ⟨item, hitem, rfl⟩ := List.mem_map.mp hnew
      obtain ⟨old, _, _, hmem, rfl⟩ := leaseOutbox_items hinv.unique hok hitem
      exact .inr ⟨_, hmem, rfl, rfl, rfl, rfl⟩

/-! ### A settlement -/

theorem settle_cases (s : OutboxSystem) (outboxId workerId : String) (nowMs : Int)
    (change : OutboxRow → OutboxRow) :
    s.settle outboxId workerId nowMs (updateOwnedOutbox outboxId workerId change s.db) =
        { s with clock := max s.clock nowMs } ∨
      s.settle outboxId workerId nowMs (updateOwnedOutbox outboxId workerId change s.db) =
        ⟨{ s.db with
            outbox := Table.update (outboxOwnedBy outboxId workerId) change s.db.outbox },
          max s.clock nowMs, settled outboxId workerId s.grants⟩ := by
  unfold updateOwnedOutbox
  split
  · exact .inr rfl
  · exact .inl rfl

theorem outboxOwnedBy_iff {outboxId workerId : String} {row : OutboxRow} :
    outboxOwnedBy outboxId workerId row = true ↔
      row.outboxId = outboxId ∧ row.state = .leased ∧ row.leaseOwner = some workerId := by
  simp [outboxOwnedBy, and_assoc]

theorem Invariant.advance (hinv : Invariant s) (nowMs : Int) :
    Invariant { s with clock := max s.clock nowMs } :=
  { hinv with
    grants := fun grant hgrant =>
      (hinv.grants grant hgrant).imp_left fun hexpired => Int.le_trans hexpired (Int.le_max_left ..) }

theorem Invariant.settle (hinv : Invariant s) {change : OutboxRow → OutboxRow}
    (hsettles : Settles change) (outboxId workerId : String) (nowMs : Int) :
    Invariant (s.settle outboxId workerId nowMs
      (updateOwnedOutbox outboxId workerId change s.db)) := by
  rcases settle_cases s outboxId workerId nowMs change with hsame | hsettled
  · rw [hsame]
    exact hinv.advance nowMs
  · rw [hsettled]
    refine ⟨?_, ?_, ?_, ?_⟩
    · rw [Table.map_update OutboxRow.outboxId fun row => (hsettles.same row).outboxId.symm]
      exact hinv.unique
    · intro row hrow
      rcases Table.mem_update_cases hrow with ⟨hold, _⟩ | ⟨old, hold, _, rfl⟩
      · exact hinv.attempts row hold
      · rw [hsettles.attemptCount, ← (hsettles.same old).maxAttempts]
        exact hinv.attempts old hold
    · intro row hrow hpending
      rcases Table.mem_update_cases hrow with ⟨hold, _⟩ | ⟨old, hold, _, rfl⟩
      · exact hinv.pending row hold hpending
      · rw [hsettles.attemptCount, ← (hsettles.same old).maxAttempts]
        exact hsettles.pending old hpending
    · intro grant hgrant
      obtain ⟨hold, hother⟩ := Table.mem_delete.mp hgrant
      rcases hinv.grants grant hold with hexpired | ⟨row, hrow, hholds⟩
      · exact .inl (Int.le_trans hexpired (Int.le_max_left ..))
      · refine .inr ⟨row, Table.mem_update_of_not hrow ?_, hholds⟩
        rw [Bool.eq_false_iff]
        intro howned
        obtain ⟨hid, _, howner⟩ := outboxOwnedBy_iff.mp howned
        rw [hholds.leaseOwner, Option.some.injEq] at howner
        rw [hholds.outboxId] at hid
        simp [hid, howner] at hother

/-! ### A run -/

theorem invariant_step {l : OutboxLabel} (hinv : Invariant s) (hstep : step s l = some t) :
    Invariant t := by
  cases l with
  | store op =>
      cases hstep
      exact hinv.store op
  | lease args =>
      dsimp only [step] at hstep
      split at hstep
      · rename_i hok
        cases hstep
        exact hinv.lease hok
      · cases hstep
        exact hinv
  | sent outboxId workerId upstreamRef nowMs =>
      cases hstep
      exact hinv.settle (sentOutbox_settles upstreamRef nowMs) outboxId workerId nowMs
  | retry outboxId workerId errorCode availableAtMs nowMs =>
      cases hstep
      exact hinv.settle (retriedOutbox_settles errorCode availableAtMs nowMs) outboxId workerId
        nowMs

/-- A message that is sent is not touched again. -/
theorem sent_kept {l : OutboxLabel} (hinv : Invariant s) (hstep : step s l = some t)
    {row : OutboxRow} (hrow : row ∈ s.db.outbox) (hsent : row.state = .sent) :
    row ∈ t.db.outbox := by
  have hsettled (change : OutboxRow → OutboxRow) (outboxId workerId : String) (nowMs : Int) :
      row ∈ (s.settle outboxId workerId nowMs
        (updateOwnedOutbox outboxId workerId change s.db)).db.outbox := by
    rcases settle_cases s outboxId workerId nowMs change with hsame | hafter
    · rwa [hsame]
    · rw [hafter]
      refine Table.mem_update_of_not hrow ?_
      simp [outboxOwnedBy, hsent]
  cases l with
  | store op =>
      cases hstep
      exact mem_of_effect (outboxEffect s.db op) hrow
  | lease args =>
      dsimp only [step] at hstep
      split at hstep
      · rename_i hok
        cases hstep
        obtain ⟨moved, hmoved, hmove⟩ :=
          Table.Forall₂.of_mem_left (leaseOutbox_moves hinv.unique hok) hrow
        have hkept : sweptOutbox args.nowMs row = row := sweptOutbox_eq_self (by simp [hsent])
        cases hmove with
        | sweep => rwa [hkept] at hmoved
        | lease hsendable =>
            have hpending := (isSendable_iff.mp hsendable).1
            rw [hkept, hsent] at hpending
            cases hpending
      · cases hstep
        exact hrow
  | sent outboxId workerId upstreamRef nowMs =>
      cases hstep
      exact hsettled (sentOutbox upstreamRef nowMs) outboxId workerId nowMs
  | retry outboxId workerId errorCode availableAtMs nowMs =>
      cases hstep
      exact hsettled (retriedOutbox errorCode availableAtMs nowMs) outboxId workerId nowMs

theorem sent_kept_exec {ls : List OutboxLabel} (hinv : Invariant s)
    (hrun : exec step ls s = some t) {row : OutboxRow} (hrow : row ∈ s.db.outbox)
    (hsent : row.state = .sent) : row ∈ t.db.outbox := by
  refine (exec_invariant_of_step (I := fun s => Invariant s ∧ row ∈ s.db.outbox) ?_
    ⟨hinv, hrow⟩ hrun).2
  rintro s l t ⟨hinv, hrow⟩ hstep
  exact ⟨invariant_step hinv hstep, sent_kept hinv hstep hrow hsent⟩

/-- Every message of the selected one's task that comes before it is sent. -/
theorem sendable_order {args : LeaseOutbox} {rows : List OutboxRow} {row prior : OutboxRow}
    (hsendable : isSendable (sweepOutbox args.nowMs rows) args.nowMs
      (sweptOutbox args.nowMs row) = true) (hprior : prior ∈ rows)
    (htask : sameTask prior row = true) (hearlier : isEarlier prior row = true) :
    prior.state = .sent := by
  have hsame := sweptOutbox_same args.nowMs
  have hmem : sweptOutbox args.nowMs prior ∈ sweepOutbox args.nowMs rows := by
    rw [sweepOutbox_eq]
    exact List.mem_map_of_mem hprior
  rw [(hsame prior).sameTask (hsame row)] at htask
  rw [(hsame prior).isEarlier (hsame row)] at hearlier
  exact sweptOutbox_sent.mp ((isSendable_iff.mp hsendable).2.2.2 _ hmem htask hearlier)

/-- The only step that leases a message is a lease call that selects it. -/
theorem leased_by_lease {l : OutboxLabel} (hinv : Invariant s) (hstep : step s l = some t)
    {row : OutboxRow} (hrow : row ∈ t.db.outbox) (hleased : row.state = .leased)
    (hnew : row ∉ s.db.outbox) :
    ∃ args, ∃ old ∈ s.db.outbox, l = .lease args ∧
      isSendable (sweepOutbox args.nowMs s.db.outbox) args.nowMs
        (sweptOutbox args.nowMs old) = true ∧
      row = leasedOutboxRow args (sweptOutbox args.nowMs old) := by
  have hsettled {change : OutboxRow → OutboxRow} (hsettles : Settles change)
      (outboxId workerId : String) (nowMs : Int) :
      row ∉ (s.settle outboxId workerId nowMs
        (updateOwnedOutbox outboxId workerId change s.db)).db.outbox := by
    intro hmem
    rcases settle_cases s outboxId workerId nowMs change with hsame | hafter
    · rw [hsame] at hmem
      exact hnew hmem
    · rw [hafter] at hmem
      rcases Table.mem_update_cases hmem with ⟨hold, _⟩ | ⟨old, _, _, rfl⟩
      · exact hnew hold
      · exact hsettles.unleased old hleased
  cases l with
  | store op =>
      cases hstep
      have heffect := outboxEffect s.db op
      dsimp only at hrow
      generalize (op.apply s.db).outbox = after at heffect hrow
      cases heffect with
      | same => exact absurd hrow hnew
      | insert draft taskId outboxId nowMs hmay hfresh =>
          rcases List.mem_append.mp hrow with hold | hinserted
          · exact absurd hold hnew
          · rw [List.mem_singleton.mp hinserted] at hleased
            cases hleased
  | lease args =>
      dsimp only [step] at hstep
      split at hstep
      · rename_i hok
        cases hstep
        obtain ⟨old, hold, hmove⟩ :=
          Table.Forall₂.of_mem_right (leaseOutbox_moves hinv.unique hok) hrow
        cases hmove with
        | sweep =>
            rcases sweptOutbox_cases args.nowMs old with ⟨hsame, _⟩ | ⟨_, _, hdrop⟩ | ⟨_, _, hfail⟩
            · rw [hsame] at hnew
              exact absurd hold hnew
            · rw [hdrop] at hleased
              cases hleased
            · rw [hfail] at hleased
              cases hleased
        | lease hsendable => exact ⟨args, old, hold, rfl, hsendable, rfl⟩
      · cases hstep
        exact absurd hrow hnew
  | sent outboxId workerId upstreamRef nowMs =>
      cases hstep
      exact absurd hrow (hsettled (sentOutbox_settles upstreamRef nowMs) outboxId workerId nowMs)
  | retry outboxId workerId errorCode availableAtMs nowMs =>
      cases hstep
      exact absurd hrow
        (hsettled (retriedOutbox_settles errorCode availableAtMs nowMs) outboxId workerId nowMs)

/-- What the outbox promises in one state of a run. -/
structure OutboxContract (s : OutboxSystem) : Prop where
  attempts : ∀ row ∈ s.db.outbox, row.attemptCount ≤ row.maxAttempts
  exclusive : ∀ a ∈ s.grants, ∀ b ∈ s.grants, a.outboxId = b.outboxId →
    s.clock < a.expiresAtMs → s.clock < b.expiresAtMs → a.workerId = b.workerId
  /-- A step that leases a message finds all the earlier ones of its task sent, and
  they stay as they are. -/
  ordered : ∀ l t, step s l = some t → ∀ row ∈ t.db.outbox, row.state = .leased →
    row ∉ s.db.outbox → ∀ prior ∈ s.db.outbox, sameTask prior row = true →
      isEarlier prior row = true → prior.state = .sent ∧
        ∀ ls u, exec step ls t = some u → prior ∈ u.db.outbox
  /-- A dispatcher is handed nothing but what its call leased. -/
  handed : ∀ args items after, leaseOutbox args s.db = .ok (items, after) → ∀ item ∈ items,
    ∃ row ∈ after.outbox, row.outboxId = item.outboxId ∧ row.state = .leased ∧
      row.leaseOwner = some args.workerId ∧ row ∉ s.db.outbox

theorem Invariant.exclusive (hinv : Invariant s) {a b : OutboxGrant} (ha : a ∈ s.grants)
    (hb : b ∈ s.grants) (hid : a.outboxId = b.outboxId) (hliveA : s.clock < a.expiresAtMs)
    (hliveB : s.clock < b.expiresAtMs) : a.workerId = b.workerId := by
  obtain ⟨rowA, hmemA, hholdsA⟩ := (hinv.grants a ha).resolve_left (Int.not_le.mpr hliveA)
  obtain ⟨rowB, hmemB, hholdsB⟩ := (hinv.grants b hb).resolve_left (Int.not_le.mpr hliveB)
  have hsame : rowA = rowB := List.inj_on_of_nodup_map hinv.unique hmemA hmemB
    (hholdsA.outboxId.trans (hid.trans hholdsB.outboxId.symm))
  have howner := hholdsA.leaseOwner
  rw [hsame, hholdsB.leaseOwner, Option.some.injEq] at howner
  exact howner.symm

theorem Invariant.contract (hinv : Invariant s) : OutboxContract s := by
  refine ⟨hinv.attempts, fun a ha b hb => hinv.exclusive ha hb, ?_, ?_⟩
  · intro l t hstep row hrow hleased hnew prior hprior htask hearlier
    obtain ⟨args, old, _, _, hsendable, hrowEq⟩ :=
      leased_by_lease hinv hstep hrow hleased hnew
    have hsame : SameMessage old row := by
      rw [hrowEq]
      exact (sweptOutbox_same args.nowMs old).trans ⟨rfl, rfl, rfl, rfl, rfl⟩
    have hprior' : SameMessage prior prior := ⟨rfl, rfl, rfl, rfl, rfl⟩
    rw [← hprior'.sameTask hsame] at htask
    rw [← hprior'.isEarlier hsame] at hearlier
    have hsent := sendable_order hsendable hprior htask hearlier
    refine ⟨hsent, ?_⟩
    intro ls u hrun
    exact sent_kept_exec (invariant_step hinv hstep) hrun (sent_kept hinv hstep hprior hsent) hsent
  · intro args items after hok item hitem
    obtain ⟨old, hold, hsendable, hmem, rfl⟩ := leaseOutbox_items hinv.unique hok hitem
    refine ⟨_, hmem, rfl, rfl, rfl, ?_⟩
    intro hkept
    have hid : (leasedOutboxRow args (sweptOutbox args.nowMs old)).outboxId = old.outboxId :=
      (sweptOutbox_same args.nowMs old).outboxId.symm
    have hsame := List.inj_on_of_nodup_map hinv.unique hkept hold hid
    have hstate : old.state = .leased := by rw [← hsame]; rfl
    have hcount : (sweptOutbox args.nowMs old).attemptCount + 1 = old.attemptCount := by
      conv => rhs; rw [← hsame]
      rfl
    rcases sweptOutbox_cases args.nowMs old with ⟨hswept, _⟩ | ⟨_, _, hswept⟩ | ⟨_, _, hswept⟩
    · rw [hswept] at hcount
      omega
    · rw [hswept] at hcount
      exact absurd hcount (by simp [dropOutboxLease])
    · rw [hswept] at hcount
      exact absurd hcount (by simp [failOutbox])

/-- Every run, from any clock on: the attempts are bounded, two workers never hold live
leases on one message, and a message is leased only after the earlier ones of its task
are sent for good. -/
theorem outbox_contract (start : Int) (ls : List OutboxLabel) :
    Always step OutboxContract ls { clock := start } :=
  always_of_invariant (C := fun _ _ => True) (fun _ _ _ hinv _ hstep => invariant_step hinv hstep)
    (fun _ hinv => hinv.contract) (invariant_init start) (along_of_forall (fun _ _ => trivial) ls _)

/-! ### Progress -/

/-- From now on some lease call is handed the message. -/
def Leasable (s : OutboxSystem) (message : OutboxRow) : Prop :=
  ∃ args items after, s.clock ≤ args.nowMs ∧ leaseOutbox args s.db = .ok (items, after) ∧
    ∃ item ∈ items, item.outboxId = message.outboxId

theorem leaseOutbox_succeeds {args : LeaseOutbox} {db : Database} (hworker : args.workerId ≠ "")
    (hlease : 0 < args.leaseMs) (hlimit : 0 < args.limit) :
    ∃ items after, leaseOutbox args db = .ok (items, after) := by
  have hargs : ¬(args.workerId = "" ∨ args.leaseMs ≤ 0 ∨ args.limit = 0) := by
    simp only [hworker, false_or]
    omega
  unfold leaseOutbox
  rw [if_neg hargs]
  exact ⟨_, _, rfl⟩

/-- A call that selects a pending message hands it out. -/
theorem handed_of_selected {args : LeaseOutbox}
    {items : List LeasedOutboxMessage} {after : Database}
    (hok : leaseOutbox args s.db = .ok (items, after)) {message : OutboxRow}
    (hmem : message ∈ s.db.outbox) (hpending : message.state = .pending)
    (hselected : message.outboxId ∈ selectOutbox args (sweepOutbox args.nowMs s.db.outbox)) :
    ∃ item ∈ items, item.outboxId = message.outboxId := by
  obtain ⟨_, _, hafter, hitems⟩ := leaseOutbox_ok hok
  have hkept : sweptOutbox args.nowMs message = message := sweptOutbox_eq_self (by simp [hpending])
  have hswept : message ∈ sweepOutbox args.nowMs s.db.outbox := by
    rw [sweepOutbox_eq, ← hkept]
    exact List.mem_map_of_mem hmem
  have hleased : leasedOutboxRow args message ∈ after.outbox := by
    rw [hafter]
    exact Table.mem_update_of_cond hswept (by simp [isSelected, hpending, hselected])
  refine ⟨leasedOutbox (leasedOutboxRow args message), ?_, rfl⟩
  rw [hitems]
  refine List.mem_map_of_mem ?_
  rw [List.mem_insertionSort, List.mem_filter]
  refine ⟨hleased, ?_⟩
  have howner : (leasedOutboxRow args message).leaseOwner = some args.workerId := rfl
  have hid : (leasedOutboxRow args message).outboxId = message.outboxId := rfl
  simp [hid, hselected, howner]

/-- With all the earlier messages of its task sent, a pending message is leasable. -/
theorem leasable_of_all_sent (hinv : Invariant s) {message : OutboxRow}
    (hmem : message ∈ s.db.outbox) (hpending : message.state = .pending)
    (hsent : ∀ prior ∈ s.db.outbox, sameTask prior message = true →
      isEarlier prior message = true → prior.state = .sent) : s.Leasable message := by
  let args : LeaseOutbox :=
    { workerId := "dispatcher", nowMs := max s.clock message.availableAtMs, leaseMs := 1
      limit := s.db.outbox.length }
  have hlimit : 0 < args.limit := List.length_pos_of_mem hmem
  have hworker : args.workerId ≠ "" := show "dispatcher" ≠ "" by decide
  have hlease : 0 < args.leaseMs := Int.one_pos
  obtain ⟨items, after, hok⟩ : ∃ items after, leaseOutbox args s.db = .ok (items, after) :=
    leaseOutbox_succeeds hworker hlease hlimit
  refine ⟨args, items, after, Int.le_max_left .., hok, handed_of_selected hok hmem hpending ?_⟩
  have hkept : sweptOutbox args.nowMs message = message := sweptOutbox_eq_self (by simp [hpending])
  have hswept : message ∈ sweepOutbox args.nowMs s.db.outbox := by
    rw [sweepOutbox_eq, ← hkept]
    exact List.mem_map_of_mem hmem
  have hlength : (sweepOutbox args.nowMs s.db.outbox).length ≤ args.limit := by
    rw [sweepOutbox_eq, List.length_map]
  refine selectOutbox_of_sendable hswept (isSendable_iff.mpr ?_) hlength
  refine ⟨hpending, Int.le_max_right .., hinv.pending message hmem hpending, ?_⟩
  intro prior hprior htask hearlier
  rw [sweepOutbox_eq] at hprior
  obtain ⟨old, hold, rfl⟩ := List.mem_map.mp hprior
  have hsame := sweptOutbox_same args.nowMs old
  have hself : SameMessage message message := ⟨rfl, rfl, rfl, rfl, rfl⟩
  rw [← hsame.sameTask hself] at htask
  rw [← hsame.isEarlier hself] at hearlier
  exact sweptOutbox_sent.mpr (hsent old hold htask hearlier)

/-- A leasable message has no failed message of its task before it. -/
theorem Leasable.not_failed (hinv : Invariant s) {message : OutboxRow}
    (hmem : message ∈ s.db.outbox) (hleasable : s.Leasable message) :
    ¬ FailedBefore s.db.outbox message := by
  obtain ⟨args, items, after, _, hok, item, hitem, hid⟩ := hleasable
  obtain ⟨old, hold, hsendable, _, rfl⟩ := leaseOutbox_items hinv.unique hok hitem
  have hsame : old = message := List.inj_on_of_nodup_map hinv.unique hold hmem
    ((sweptOutbox_same args.nowMs old).outboxId.trans hid)
  rintro ⟨prior, hprior, htask, hearlier, hfailed⟩
  rw [← hsame] at htask hearlier
  rw [sendable_order hsendable hprior htask hearlier] at hfailed
  cases hfailed

theorem Invariant.deliverable_iff (hinv : Invariant s) {message : OutboxRow}
    (hmem : message ∈ s.db.outbox) (hpending : message.state = .pending) :
    s.Leasable message ∨ OpenBefore s.db.outbox message ↔
      (FailedBefore s.db.outbox message → OpenBefore s.db.outbox message) := by
  constructor
  · rintro (hleasable | hopen) hfailed
    · exact absurd hfailed (hleasable.not_failed hinv hmem)
    · exact hopen
  · intro hcond
    by_cases hopen : OpenBefore s.db.outbox message
    · exact .inr hopen
    · refine .inl (leasable_of_all_sent hinv hmem hpending ?_)
      intro prior hprior htask hearlier
      cases hstate : prior.state with
      | sent => rfl
      | failed => exact absurd (hcond ⟨prior, hprior, htask, hearlier, hstate⟩) hopen
      | leased =>
          exact absurd ⟨prior, hprior, htask, hearlier, by simp [OutboxRow.isOpen, hstate]⟩ hopen
      | pending =>
          have hleft := hinv.pending prior hprior hstate
          exact absurd ⟨prior, hprior, htask, hearlier, by simp [OutboxRow.isOpen, hstate, hleft]⟩
            hopen

theorem invariant_run {start : Int} {ls : List OutboxLabel}
    (hrun : exec step ls { clock := start } = some s) : Invariant s :=
  exec_invariant_of_step (fun _ _ _ hinv hstep => invariant_step hinv hstep)
    (invariant_init start) hrun

/-- In every state of every run: a pending message with attempts left can still be
delivered exactly when no earlier message of its task has failed, or another one before
it is still open. -/
theorem pending_deliverable_iff (start : Int) (ls : List OutboxLabel) :
    Always step (fun s => ∀ message ∈ s.db.outbox, message.state = .pending →
      message.attemptCount < message.maxAttempts →
      (s.Leasable message ∨ OpenBefore s.db.outbox message ↔
        (FailedBefore s.db.outbox message → OpenBefore s.db.outbox message)))
      ls { clock := start } :=
  always_of_invariant (C := fun _ _ => True) (fun _ _ _ hinv _ hstep => invariant_step hinv hstep)
    (fun _ hinv _ hmem hpending _ => hinv.deliverable_iff hmem hpending) (invariant_init start)
    (along_of_forall (fun _ _ => trivial) ls _)

/-- The acknowledgement of a task is retried until its eight attempts are spent; the
task is finished meanwhile, and its reply stays behind the failed acknowledgement. -/
theorem failed_acknowledgement_strands_reply :
    let mention : NormalizedEvent :=
      { eventId := "event-1", pluginId := "im", eventType := "im.message", tenantKey := "tenant"
        appId := "app", occurredAtMs := 0, receivedAtMs := 0, resourceKind := "message"
        resourceId := "message-1", traceId := "trace-1" }
    let command : TaskCommand :=
      { pluginId := "im", commandType := "im.handle_mention", sessionKey := "tenant/app/chat"
        payload := [] }
    let acknowledgement : OutboxDraft :=
      ⟨"feishu-im.reply", "message-1", "acknowledgement", "message-1:acknowledgement", [], 0⟩
    let reply : OutboxDraft :=
      ⟨"feishu-im.reply", "message-1", "completed", "message-1:terminal", [], 0⟩
    let attempt (nowMs : Int) : List OutboxLabel :=
      [.lease ⟨"dispatcher", nowMs, 30000, 10⟩,
        .retry "outbox-1" "dispatcher" "TransportError" (nowMs + 1000) nowMs]
    ∃ s message, exec step
        ([.store (.admitEvent mention command (some acknowledgement) "task" "outbox-1" 0),
          .store (.leaseTasks ⟨"worker", 0, 60000, 1⟩ none)] ++
          attempt 1000 ++ attempt 2000 ++ attempt 3000 ++ attempt 4000 ++ attempt 5000 ++
          attempt 6000 ++ attempt 7000 ++ attempt 8000 ++
          [.store (.finishTask ⟨"task", "worker", .succeeded, none, some reply⟩ "outbox-2" 9000)])
        { clock := 0 } = some s ∧
      message ∈ s.db.outbox ∧ message.draft = reply ∧ message.state = .pending ∧
      message.attemptCount = 0 ∧ message.maxAttempts = 8 ∧
      ¬ (s.Leasable message ∨ OpenBefore s.db.outbox message) := by
  intro mention command acknowledgement reply attempt
  let message : OutboxRow := insertedOutbox reply "task" "outbox-2" 9000
  obtain ⟨s, hrun, hrows⟩ : ∃ s, exec step
        ([.store (.admitEvent mention command (some acknowledgement) "task" "outbox-1" 0),
          .store (.leaseTasks ⟨"worker", 0, 60000, 1⟩ none)] ++
          attempt 1000 ++ attempt 2000 ++ attempt 3000 ++ attempt 4000 ++ attempt 5000 ++
          attempt 6000 ++ attempt 7000 ++ attempt 8000 ++
          [.store (.finishTask ⟨"task", "worker", .succeeded, none, some reply⟩ "outbox-2" 9000)])
        { clock := 0 } = some s ∧ s.db.outbox =
      [{ insertedOutbox acknowledgement "task" "outbox-1" 0 with
          state := .failed, availableAtMs := 9000, attemptCount := 8
          lastErrorCode := some "TransportError", updatedAtMs := 8000 }, message] := by
    refine ⟨_, rfl, ?_⟩
    decide
  refine ⟨s, message, hrun, by simp [hrows], rfl, rfl, rfl, rfl, ?_⟩
  rw [(invariant_run hrun).deliverable_iff (by simp [hrows]) rfl, hrows]
  intro hcond
  exact absurd (hcond (by decide)) (by decide)

end OutboxSystem

end Codex2Lark
