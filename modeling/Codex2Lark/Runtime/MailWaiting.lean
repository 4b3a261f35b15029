import Codex2Lark.Storage.Mailbox

/-!
`MultiAgentSupervisor.send` and `wait_for_mail` between their awaits. A request to the
database actor is committed in one step and its caller is resumed, by polling, in
another; the lock of the condition is never held across an await.
-/

namespace Codex2Lark

open Lib

/-- Where a call of `wait_for_mail` is. -/
inductive WaitPhase where
  | querying
  | queried (available : List MailboxItem)
  | waiting
  | woken
  | timedOut
  | requerying
  | requeried (available : List MailboxItem)
  | returned (items : List MailboxItem)
  | cancelled
deriving DecidableEq, Repr

structure MailWaiter where
  nodeId : String
  phase : WaitPhase
deriving DecidableEq, Repr

/-- `notify_all` resolves the future of a call that waits. -/
def MailWaiter.notified (w : MailWaiter) : MailWaiter :=
  if w.phase = .waiting then { w with phase := .woken } else w

/-- Where a call of `send` is. -/
inductive SendPhase where
  | sending
  | committed (item : MailboxItem)
  | failed (error : PyError)
  | returned (item : MailboxItem)
  | raised (error : PyError)
deriving DecidableEq, Repr

/-- `itemId` is the identifier that `send_mail` draws. -/
structure MailSend where
  args : AgentStore.SendMail
  itemId : String
  phase : SendPhase
deriving DecidableEq, Repr

/-- The send holds the item and has still to notify. -/
def MailSend.owes (itemId : String) (call : MailSend) : Bool :=
  match call.phase with
  | .committed item => item.itemId = itemId
  | _ => false

structure MailSystem where
  db : GraphDatabase := {}
  waiters : List MailWaiter := []
  sends : List MailSend := []
deriving DecidableEq, Repr

inductive MailLabel where
  | wait (nodeId : String)
  | query (waiter : Nat)
  | resumeWait (waiter : Nat)
  | timeout (waiter : Nat)
  | cancelWait (waiter : Nat)
  | send (args : AgentStore.SendMail) (itemId : String)
  | commit (send : Nat)
  | resumeSend (send : Nat)
  /-- Any other transaction of the graph store. -/
  | transact (op : GraphOp)
  /-- `_notify` after any other operation of the supervisor. -/
  | notify
  /-- The calls of the process are gone, the database stays. -/
  | restart
deriving DecidableEq, Repr

def GraphOp.sendsMail : GraphOp → Bool
  | .sendMail _ _ => true
  | _ => false

namespace MailSystem

def setWaiter (s : MailSystem) (i : Nat) (w : MailWaiter) (phase : WaitPhase) : MailSystem :=
  { s with waiters := s.waiters.set i { w with phase } }

def setSend (s : MailSystem) (j : Nat) (call : MailSend) (phase : SendPhase) : MailSystem :=
  { s with sends := s.sends.set j { call with phase } }

/-- `notify_all`. -/
def notifyAll (s : MailSystem) : MailSystem :=
  { s with waiters := s.waiters.map MailWaiter.notified }

def query (s : MailSystem) (i : Nat) (w : MailWaiter)
    (answered : List MailboxItem → WaitPhase) : MailSystem :=
  let (items, db) := AgentStore.receiveMail w.nodeId s.db
  { s with db }.setWaiter i w (answered items)

/-- What `wait_for_mail` does when it is resumed; `none` while nothing resumes it. -/
def resumed : WaitPhase → Option WaitPhase
  | .queried [] => some .waiting
  | .queried available => some (.returned available)
  | .woken => some .requerying
  | .timedOut => some (.returned [])
  | .requeried available => some (.returned available)
  | .querying | .waiting | .requerying | .returned _ | .cancelled => none

def step (floor : Int → Int) (s : MailSystem) : MailLabel → Option MailSystem
  | .wait nodeId => some { s with waiters := s.waiters ++ [⟨nodeId, .querying⟩] }
  | .query i =>
      match s.waiters[i]? with
      | none => none
      | some w =>
          match w.phase with
          | .querying => some (s.query i w .queried)
          | .requerying => some (s.query i w .requeried)
          | _ => none
  | .resumeWait i =>
      match s.waiters[i]? with
      | none => none
      | some w => (resumed w.phase).map (s.setWaiter i w)
  -- A waiter that was notified and not yet resumed is cancelled like a waiting one.
  | .timeout i =>
      match s.waiters[i]? with
      | none => none
      | some w =>
          if w.phase = .waiting ∨ w.phase = .woken then some (s.setWaiter i w .timedOut) else none
  | .cancelWait i =>
      match s.waiters[i]? with
      | none => none
      | some w =>
          match w.phase with
          | .returned _ | .cancelled => none
          | _ => some (s.setWaiter i w .cancelled)
  | .send args itemId => some { s with sends := s.sends ++ [⟨args, itemId, .sending⟩] }
  | .commit j =>
      match s.sends[j]? with
      | none => none
      | some call =>
          if call.phase ≠ .sending then none
          else
            match AgentStore.sendMail call.args call.itemId s.db with
            | .ok (item, db) => some ({ s with db }.setSend j call (.committed item))
            | .error e => some (s.setSend j call (.failed e))
  | .resumeSend j =>
      match s.sends[j]? with
      | none => none
      | some call =>
          match call.phase with
          | .committed item => some (s.setSend j call (.returned item)).notifyAll
          | .failed e => some (s.setSend j call (.raised e))
          | _ => none
  | .transact op => if op.sendsMail then none else some { s with db := op.apply floor s.db }
  | .notify => some s.notifyAll
  | .restart => some { s with waiters := [], sends := [] }

/-- The unacknowledged items of the node. -/
def openMail (db : GraphDatabase) (nodeId : String) : List MailboxItem :=
  (mailOf db nodeId).filter fun item => item.state ≠ .acknowledged

/-- Every unacknowledged item of a node that a call waits for is held by a send whose
notification wakes the call. -/
def WakesWaiters (floor : Int → Int) (s : MailSystem) : Prop :=
  ∀ (i : Nat) (w : MailWaiter), s.waiters[i]? = some w → w.phase = .waiting → ∀ item ∈ openMail s.db w.nodeId,
    ∃ j call t, s.sends[j]? = some call ∧ call.owes item.itemId = true ∧
      step floor s (.resumeSend j) = some t ∧ t.waiters[i]? = some ⟨w.nodeId, .woken⟩

/-- A call that returns no item leaves no unacknowledged one behind. -/
def EmptyMeansNoMail (floor : Int → Int) (s : MailSystem) (l : MailLabel) : Prop :=
  ∀ (i : Nat) (t : MailSystem) (w : MailWaiter), l = .resumeWait i → step floor s l = some t → t.waiters[i]? = some w →
    w.phase = .returned [] → openMail t.db w.nodeId = []

/-- The step does not fall into one of the gaps between query, wait and return. -/
def inTime (s : MailSystem) : MailLabel → Bool
  -- The notification comes while a call that has found no item is not registered yet.
  | .resumeSend j =>
      match s.sends[j]? with
      | some ⟨_, _, .committed item⟩ =>
          s.waiters.all fun w => w.phase ≠ .queried [] ||
            (openMail s.db w.nodeId).all (fun row => row.itemId ≠ item.itemId) ||
            (s.sends.eraseIdx j).any (MailSend.owes item.itemId)
      | _ => true
  -- The time runs out between the commit and the notification, or between the
  -- notification and the resumption.
  | .timeout i =>
      match s.waiters[i]? with
      | some ⟨nodeId, .waiting⟩ =>
          (openMail s.db nodeId).all fun item => !s.sends.any (MailSend.owes item.itemId)
      | some ⟨nodeId, .woken⟩ => (openMail s.db nodeId).isEmpty
      | _ => true
  -- The item is committed when the call has its empty answer and has not returned it.
  | .commit j =>
      match s.sends[j]? with
      | some call =>
          match AgentStore.sendMail call.args call.itemId s.db with
          | .ok (item, _) =>
              item.state = .acknowledged || s.waiters.all fun w =>
                w.nodeId ≠ call.args.recipientNodeId ||
                  (w.phase ≠ .timedOut && w.phase ≠ .requeried [])
          | .error _ => true
      | none => true
  | _ => true

/-! ### The invariant -/

structure WaitInvariant (s : MailSystem) : Prop where
  mail : MailboxInvariant s.db
  owed : ∀ w ∈ s.waiters, w.phase = .queried [] ∨ w.phase = .waiting →
    ∀ item ∈ openMail s.db w.nodeId, s.sends.any (MailSend.owes item.itemId) = true
  settled : ∀ w ∈ s.waiters, w.phase = .timedOut ∨ w.phase = .requeried [] →
    openMail s.db w.nodeId = []

variable {floor : Int → Int} {s t : MailSystem}

/-- The identifiers of the unacknowledged items only go away. -/
structure MailShrinks (db after : GraphDatabase) : Prop where
  mail : MailboxInvariant after
  items : ∀ nodeId, ∀ item ∈ openMail after nodeId, ∃ old ∈ openMail db nodeId,
    old.itemId = item.itemId

theorem mem_openMail {db : GraphDatabase} {nodeId : String} {item : MailboxItem} :
    item ∈ openMail db nodeId ↔
      item ∈ db.mailbox ∧ item.recipientNodeId = nodeId ∧ item.state ≠ .acknowledged := by
  simp only [openMail, mailOf, List.mem_filter, decide_eq_true_eq, and_assoc]

theorem MailShrinks.nil {db after : GraphDatabase} (hshrinks : MailShrinks db after)
    {nodeId : String} (hnone : openMail db nodeId = []) : openMail after nodeId = [] := by
  apply List.eq_nil_iff_forall_not_mem.mpr
  intro item hitem
  obtain ⟨old, hold, _⟩ := hshrinks.items nodeId item hitem
  rw [hnone] at hold
  cases hold

theorem apply_shrinks {db : GraphDatabase} (hmail : MailboxInvariant db) {op : GraphOp}
    (hop : ∀ args itemId, op ≠ .sendMail args itemId) : MailShrinks db (op.apply floor db) := by
  refine ⟨hmail.apply op, ?_⟩
  intro nodeId item hitem
  have heffect := op.mailEffect floor db
  generalize op.apply floor db = after at hitem heffect
  obtain ⟨hmem, hto, hopen⟩ := mem_openMail.mp hitem
  cases heffect with
  | none hsame _ => exact ⟨item, mem_openMail.mpr ⟨hsame ▸ hmem, hto, hopen⟩, rfl⟩
  | sent _ _ _ _ => exact absurd rfl (hop _ _)
  | received =>
      obtain ⟨hold, _⟩ | ⟨old, hold, hcond, rfl⟩ := Table.mem_update_cases hmem
      · exact ⟨item, mem_openMail.mpr ⟨hold, hto, hopen⟩, rfl⟩
      · simp only [Bool.and_eq_true, decide_eq_true_eq] at hcond
        exact ⟨old, mem_openMail.mpr ⟨hold, hto, by simp [hcond.2]⟩, rfl⟩
  | acknowledged =>
      obtain ⟨hold, _⟩ | ⟨old, hold, hcond, rfl⟩ := Table.mem_update_cases hmem
      · exact ⟨item, mem_openMail.mpr ⟨hold, hto, hopen⟩, rfl⟩
      · exact absurd rfl hopen

/-- A change of the database by anything but a send. -/
theorem WaitInvariant.shrink (hinv : WaitInvariant s) {after : GraphDatabase}
    (hshrinks : MailShrinks s.db after) : WaitInvariant { s with db := after } := by
  refine ⟨hshrinks.mail, ?_, ?_⟩
  · intro w hw hphase item hitem
    obtain ⟨old, hold, hid⟩ := hshrinks.items w.nodeId item hitem
    exact hid ▸ hinv.owed w hw hphase old hold
  · intro w hw hphase
    exact hshrinks.nil (hinv.settled w hw hphase)

/-- A call that moves to another phase. -/
theorem WaitInvariant.setWaiter (hinv : WaitInvariant s) {i : Nat} {w : MailWaiter}
    {phase : WaitPhase}
    (howed : phase = .queried [] ∨ phase = .waiting → ∀ item ∈ openMail s.db w.nodeId,
      s.sends.any (MailSend.owes item.itemId) = true)
    (hsettled : phase = .timedOut ∨ phase = .requeried [] → openMail s.db w.nodeId = []) :
    WaitInvariant (s.setWaiter i w phase) := by
  refine ⟨hinv.mail, ?_, ?_⟩
  · intro other hother hphase
    obtain hold | rfl := List.mem_or_eq_of_mem_set hother
    · exact hinv.owed other hold hphase
    · exact howed hphase
  · intro other hother hphase
    obtain hold | rfl := List.mem_or_eq_of_mem_set hother
    · exact hinv.settled other hold hphase
    · exact hsettled hphase

/-- After a notification only the calls that are not registered yet need a send that
has still to notify. -/
theorem WaitInvariant.notifyAll (hmail : MailboxInvariant s.db)
    (howed : ∀ w ∈ s.waiters, w.phase = .queried [] → ∀ item ∈ openMail s.db w.nodeId,
      s.sends.any (MailSend.owes item.itemId) = true)
    (hsettled : ∀ w ∈ s.waiters, w.phase = .timedOut ∨ w.phase = .requeried [] →
      openMail s.db w.nodeId = []) : WaitInvariant s.notifyAll := by
  refine ⟨hmail, ?_, ?_⟩
  · intro other hother hphase
    obtain ⟨w, hw, rfl⟩ := List.mem_map.mp hother
    unfold MailWaiter.notified at hphase ⊢
    split at hphase
    · obtain hphase | hphase := hphase <;> cases hphase
    · rename_i hidle
      rw [if_neg hidle]
      exact howed w hw (hphase.resolve_right hidle)
  · intro other hother hphase
    obtain ⟨w, hw, rfl⟩ := List.mem_map.mp hother
    unfold MailWaiter.notified at hphase ⊢
    split at hphase
    · obtain hphase | hphase := hphase <;> cases hphase
    · rename_i hidle
      rw [if_neg hidle]
      exact hsettled w hw hphase

theorem query_eq (i : Nat) (w : MailWaiter) (answered : List MailboxItem → WaitPhase) :
    s.query i w answered =
      { s with db := (AgentStore.receiveMail w.nodeId s.db).2 }.setWaiter i w
        (answered (AgentStore.receiveMail w.nodeId s.db).1) := rfl

/-- The answer of a query is empty only when the node has no unacknowledged item. -/
theorem openMail_of_receiveMail {db : GraphDatabase} {nodeId : String}
    (hnone : (AgentStore.receiveMail nodeId db).1 = []) : openMail db nodeId = [] := by
  apply List.eq_nil_iff_forall_not_mem.mpr
  intro item hitem
  obtain ⟨hmem, hto, hopen⟩ := mem_openMail.mp hitem
  have hgot := MailboxInvariant.mem_receiveMail.mpr ⟨item, hmem, hto, hopen, rfl⟩
  rw [hnone] at hgot
  cases hgot

theorem WaitInvariant.query (hinv : WaitInvariant s) (i : Nat) (w : MailWaiter)
    {answered : List MailboxItem → WaitPhase}
    (hanswered : ∀ items, answered items ≠ .waiting ∧ answered items ≠ .timedOut ∧
      (answered items = .queried [] ∨ answered items = .requeried [] → items = [])) :
    WaitInvariant (s.query i w answered) := by
  have hshrinks : MailShrinks s.db (AgentStore.receiveMail w.nodeId s.db).2 :=
    (apply_shrinks hinv.mail nofun :
      MailShrinks s.db (GraphOp.apply id (.receiveMail w.nodeId) s.db))
  obtain ⟨hwaiting, htimedOut, hempty⟩ := hanswered (AgentStore.receiveMail w.nodeId s.db).1
  rw [query_eq]
  refine (hinv.shrink hshrinks).setWaiter ?_ ?_
  · rintro (hphase | hphase)
    · have hnone := hshrinks.nil (openMail_of_receiveMail (hempty (.inl hphase)))
      intro item hitem
      rw [hnone] at hitem
      cases hitem
    · exact absurd hphase hwaiting
  · rintro (hphase | hphase)
    · exact absurd hphase htimedOut
    · exact hshrinks.nil (openMail_of_receiveMail (hempty (.inr hphase)))

theorem any_owes_set {sends : List MailSend} {j : Nat} {call : MailSend} (phase : SendPhase)
    {itemId : String} (hcall : sends[j]? = some call) (hidle : call.owes itemId = false)
    (howed : sends.any (MailSend.owes itemId) = true) :
    (sends.set j { call with phase }).any (MailSend.owes itemId) = true := by
  obtain ⟨other, hother, howes⟩ := List.any_eq_true.mp howed
  obtain ⟨k, hk⟩ := List.mem_iff_getElem?.mp hother
  refine List.any_eq_true.mpr ⟨other, ?_, howes⟩
  apply List.mem_iff_getElem?.mpr
  refine ⟨k, ?_⟩
  rw [List.getElem?_set_ne, hk]
  rintro rfl
  rw [hcall] at hk
  cases hk
  rw [hidle] at howes
  cases howes

/-- A send that held nothing and holds nothing. -/
theorem WaitInvariant.setSend (hinv : WaitInvariant s) {j : Nat} {call : MailSend}
    (hcall : s.sends[j]? = some call) (phase : SendPhase)
    (hidle : ∀ itemId, call.owes itemId = false) : WaitInvariant (s.setSend j call phase) := by
  refine ⟨hinv.mail, ?_, hinv.settled⟩
  intro w hw hphase item hitem
  exact any_owes_set phase hcall (hidle _) (hinv.owed w hw hphase item hitem)

/-- The unacknowledged items after a send: those before it, and the one that it holds. -/
theorem openMail_sent {args : AgentStore.SendMail} {itemId : String} {item : MailboxItem}
    {db after : GraphDatabase} (hok : AgentStore.sendMail args itemId db = .ok (item, after))
    {nodeId : String} {row : MailboxItem} (hrow : row ∈ openMail after nodeId) :
    row ∈ openMail db nodeId ∨
      (row = item ∧ nodeId = args.recipientNodeId ∧ item.state ≠ .acknowledged) := by
  cases AgentStore.sendMail_ok hok with
  | again hitem hcorrelated hpayload => exact .inl hrow
  | fresh hid hcorrelated =>
      obtain ⟨hmem, hto, hopen⟩ := mem_openMail.mp hrow
      obtain hold | hnew := List.mem_append.mp hmem
      · exact .inl (mem_openMail.mpr ⟨hold, hto, hopen⟩)
      · have hnew := List.mem_singleton.mp hnew
        rw [hnew] at hto hopen
        exact .inr ⟨hnew, hto.symm, hopen⟩

theorem WaitInvariant.commit (hinv : WaitInvariant s) {j : Nat} {call : MailSend}
    (hcall : s.sends[j]? = some call) (hidle : ∀ itemId, call.owes itemId = false)
    {item : MailboxItem} {after : GraphDatabase}
    (hok : AgentStore.sendMail call.args call.itemId s.db = .ok (item, after))
    (hguard : item.state = .acknowledged ∨ ∀ w ∈ s.waiters,
      w.nodeId = call.args.recipientNodeId → w.phase ≠ .timedOut ∧ w.phase ≠ .requeried []) :
    WaitInvariant ({ s with db := after }.setSend j call (.committed item)) := by
  have hmail : MailboxInvariant after := by
    have happly : MailboxInvariant (GraphOp.apply id (.sendMail call.args call.itemId) s.db) :=
      hinv.mail.apply _
    simpa [GraphOp.apply, GraphDatabase.transaction, hok] using happly
  refine ⟨hmail, ?_, ?_⟩
  · intro w hw hphase row hrow
    obtain hold | ⟨rfl, _, _⟩ := openMail_sent hok hrow
    · exact any_owes_set _ hcall (hidle _) (hinv.owed w hw hphase row hold)
    · obtain ⟨hj, _⟩ := List.getElem?_eq_some_iff.mp hcall
      refine List.any_eq_true.mpr ⟨_, List.mem_set hj _, ?_⟩
      simp [MailSend.owes]
  · intro w hw hphase
    apply List.eq_nil_iff_forall_not_mem.mpr
    intro row hrow
    obtain hold | ⟨rfl, hto, hopen⟩ := openMail_sent hok hrow
    · rw [hinv.settled w hw hphase] at hold
      cases hold
    · obtain ⟨htimedOut, hrequeried⟩ := hguard.resolve_left hopen w hw hto
      exact hphase.elim htimedOut hrequeried

theorem WaitInvariant.resumeSend (hinv : WaitInvariant s) {j : Nat} {call : MailSend}
    (hcall : s.sends[j]? = some call) {item : MailboxItem} (hphase : call.phase = .committed item)
    (hguard : ∀ w ∈ s.waiters, w.phase = .queried [] →
      (∀ row ∈ openMail s.db w.nodeId, row.itemId ≠ item.itemId) ∨
        (s.sends.eraseIdx j).any (MailSend.owes item.itemId) = true) :
    WaitInvariant (s.setSend j call (.returned item)).notifyAll := by
  refine .notifyAll hinv.mail ?_ hinv.settled
  intro w hw hqueried row hrow
  by_cases hid : row.itemId = item.itemId
  · -- Another send of the same item has still to notify.
    have hother := (hguard w hw hqueried).resolve_left fun hnone => hnone row hrow hid
    obtain ⟨other, hmem, howes⟩ := List.any_eq_true.mp hother
    obtain ⟨k, hk, hat⟩ := List.mem_eraseIdx_iff_getElem?.mp hmem
    refine List.any_eq_true.mpr ⟨other, List.mem_iff_getElem?.mpr ⟨k, ?_⟩, hid ▸ howes⟩
    exact (List.getElem?_set_ne (Ne.symm hk)).trans hat
  · refine any_owes_set _ hcall ?_ (hinv.owed w hw (.inl hqueried) row hrow)
    simp [MailSend.owes, hphase, Ne.symm hid]

theorem resumed_cases {before after : WaitPhase} (hresumed : resumed before = some after) :
    (before = .queried [] ∧ after = .waiting) ∨ (before = .woken ∧ after = .requerying) ∨
      ∃ items, after = .returned items ∧
        (items = [] → before = .timedOut ∨ before = .requeried []) := by
  cases before with
  | queried available =>
      cases available with
      | nil => exact .inl ⟨rfl, (Option.some.inj hresumed).symm⟩
      | cons item rest => exact .inr (.inr ⟨_, (Option.some.inj hresumed).symm, nofun⟩)
  | woken => exact .inr (.inl ⟨rfl, (Option.some.inj hresumed).symm⟩)
  | timedOut => exact .inr (.inr ⟨_, (Option.some.inj hresumed).symm, fun _ => .inl rfl⟩)
  | requeried available =>
      exact .inr (.inr ⟨_, (Option.some.inj hresumed).symm, fun h => .inr (h ▸ rfl)⟩)
  | querying => cases hresumed
  | waiting => cases hresumed
  | requerying => cases hresumed
  | returned items => cases hresumed
  | cancelled => cases hresumed

/-- A call that is timed out in time has no mail. -/
theorem WaitInvariant.openMail_of_timeout (hinv : WaitInvariant s) {i : Nat} {w : MailWaiter}
    (hw : s.waiters[i]? = some w) (hphase : w.phase = .waiting ∨ w.phase = .woken)
    (hguard : inTime s (.timeout i) = true) : openMail s.db w.nodeId = [] := by
  obtain ⟨nodeId, phase⟩ := w
  simp only [inTime, hw] at hguard
  obtain rfl | rfl := hphase
  · apply List.eq_nil_iff_forall_not_mem.mpr
    intro item hitem
    have howed := hinv.owed _ (List.mem_of_getElem? hw) (.inr rfl) item hitem
    have hnone := List.all_eq_true.mp hguard item hitem
    rw [howed] at hnone
    cases hnone
  · simpa using hguard

theorem WaitInvariant.step (hinv : WaitInvariant s) {l : MailLabel}
    (hguard : inTime s l = true) (hstep : step floor s l = some t) : WaitInvariant t := by
  cases l with
  | wait nodeId =>
      cases hstep
      refine ⟨hinv.mail, ?_, ?_⟩
      · intro w hw hphase
        obtain hold | hnew := List.mem_append.mp hw
        · exact hinv.owed w hold hphase
        · rw [List.mem_singleton.mp hnew] at hphase
          obtain hphase | hphase := hphase <;> cases hphase
      · intro w hw hphase
        obtain hold | hnew := List.mem_append.mp hw
        · exact hinv.settled w hold hphase
        · rw [List.mem_singleton.mp hnew] at hphase
          obtain hphase | hphase := hphase <;> cases hphase
  | query i =>
      dsimp only [MailSystem.step] at hstep
      split at hstep
      · cases hstep
      · split at hstep
        · cases hstep
          exact hinv.query i _ fun items => ⟨nofun, nofun, by simp⟩
        · cases hstep
          exact hinv.query i _ fun items => ⟨nofun, nofun, by simp⟩
        · cases hstep
  | resumeWait i =>
      dsimp only [MailSystem.step] at hstep
      split at hstep
      · cases hstep
      · rename_i w hw
        obtain ⟨phase, hresumed, rfl⟩ := Option.map_eq_some_iff.mp hstep
        have hmem := List.mem_of_getElem? hw
        obtain ⟨hfrom, rfl⟩ | ⟨_, rfl⟩ | ⟨items, rfl, _⟩ := resumed_cases hresumed
        · exact hinv.setWaiter (fun _ => hinv.owed w hmem (.inl hfrom)) (by simp)
        · exact hinv.setWaiter (by simp) (by simp)
        · exact hinv.setWaiter (by simp) (by simp)
  | timeout i =>
      dsimp only [MailSystem.step] at hstep
      split at hstep
      · cases hstep
      · rename_i w hw
        split at hstep
        · rename_i hphase
          cases hstep
          refine hinv.setWaiter (by simp) fun _ => ?_
          exact hinv.openMail_of_timeout hw hphase hguard
        · cases hstep
  | cancelWait i =>
      dsimp only [MailSystem.step] at hstep
      split at hstep
      · cases hstep
      · split at hstep
        · cases hstep
        · cases hstep
        · cases hstep
          exact hinv.setWaiter (by simp) (by simp)
  | send args itemId =>
      cases hstep
      refine ⟨hinv.mail, ?_, hinv.settled⟩
      intro w hw hphase item hitem
      have howed := hinv.owed w hw hphase item hitem
      simp only [List.any_append, howed, Bool.true_or]
  | commit j =>
      dsimp only [MailSystem.step, inTime] at hstep hguard
      split at hstep
      · cases hstep
      · rename_i call hcall
        rw [hcall] at hguard
        split at hstep
        · cases hstep
        · rename_i hsending
          have hidle : ∀ itemId, call.owes itemId = false := by
            intro itemId
            simp [MailSend.owes, not_not.mp hsending]
          split at hstep
          · rename_i item after hok
            cases hstep
            simp only [hok] at hguard
            refine hinv.commit hcall hidle hok ?_
            simpa [imp_iff_not_or] using hguard
          · cases hstep
            exact hinv.setSend hcall _ hidle
  | resumeSend j =>
      dsimp only [MailSystem.step, inTime] at hstep hguard
      split at hstep
      · cases hstep
      · rename_i call hcall
        rw [hcall] at hguard
        obtain ⟨args, itemId, phase⟩ := call
        split at hstep
        · rename_i item hphase
          cases hstep
          cases hphase
          refine hinv.resumeSend hcall rfl ?_
          simpa [imp_iff_not_or, or_assoc] using hguard
        · rename_i e hphase
          cases hstep
          cases hphase
          exact hinv.setSend hcall _ fun _ => rfl
        · cases hstep
  | transact op =>
      dsimp only [MailSystem.step] at hstep
      split at hstep
      · cases hstep
      · rename_i hother
        cases hstep
        refine hinv.shrink (apply_shrinks hinv.mail ?_)
        rintro args itemId rfl
        exact hother rfl
  | notify =>
      cases hstep
      exact .notifyAll hinv.mail (fun w hw hphase => hinv.owed w hw (.inl hphase)) hinv.settled
  | restart =>
      cases hstep
      exact ⟨hinv.mail, fun _ h => absurd h List.not_mem_nil, fun _ h => absurd h List.not_mem_nil⟩

theorem WaitInvariant.initial : WaitInvariant {} :=
  ⟨.initial, fun _ h => absurd h List.not_mem_nil, fun _ h => absurd h List.not_mem_nil⟩

theorem WaitInvariant.wakes (hinv : WaitInvariant s) : WakesWaiters floor s := by
  intro i w hw hphase item hitem
  have howed := hinv.owed w (List.mem_of_getElem? hw) (.inr hphase) item hitem
  obtain ⟨call, hmem, howes⟩ := List.any_eq_true.mp howed
  obtain ⟨j, hcall⟩ := List.mem_iff_getElem?.mp hmem
  cases hcommitted : call.phase with
  | committed held =>
      refine ⟨j, call, (s.setSend j call (.returned held)).notifyAll, hcall, howes, ?_, ?_⟩
      · simp only [MailSystem.step, hcall, hcommitted]
      · have hwaiters : (s.setSend j call (.returned held)).waiters = s.waiters := rfl
        simp [MailSystem.notifyAll, hwaiters, hw, MailWaiter.notified, hphase]
  | sending => simp [MailSend.owes, hcommitted] at howes
  | failed e => simp [MailSend.owes, hcommitted] at howes
  | returned held => simp [MailSend.owes, hcommitted] at howes
  | raised e => simp [MailSend.owes, hcommitted] at howes

theorem WaitInvariant.emptyMeansNoMail (hinv : WaitInvariant s) (l : MailLabel) :
    EmptyMeansNoMail floor s l := by
  rintro i t other rfl hstep hother hreturned
  dsimp only [MailSystem.step] at hstep
  split at hstep
  · cases hstep
  · rename_i w hw
    obtain ⟨phase, hresumed, rfl⟩ := Option.map_eq_some_iff.mp hstep
    have hat : (s.setWaiter i w phase).waiters[i]? = some { w with phase } := by
      obtain ⟨hi, _⟩ := List.getElem?_eq_some_iff.mp hw
      exact List.getElem?_set_self hi
    rw [hat] at hother
    cases hother
    obtain ⟨_, rfl⟩ | ⟨_, rfl⟩ | ⟨items, rfl, hfrom⟩ := resumed_cases hresumed
    · cases hreturned
    · cases hreturned
    · cases hreturned
      exact hinv.settled w (List.mem_of_getElem? hw) (hfrom rfl)

/-- When no commit, notification or timeout falls into a gap of a waiting call, every
unacknowledged item wakes the calls that wait for it, and no call returns empty while its
node has one. -/
theorem waits_miss_no_mail {ls : List MailLabel}
    (hguard : Along (step floor) (fun s l => inTime s l = true) ls {}) :
    Always (step floor) (WakesWaiters floor) ls {} ∧
      Along (step floor) (EmptyMeansNoMail floor) ls {} := by
  have hkeep : ∀ s l t, WaitInvariant s → inTime s l = true → step floor s l = some t →
      WaitInvariant t := fun s l t hinv hguard hstep => hinv.step hguard hstep
  refine ⟨always_of_invariant hkeep (fun s hinv => hinv.wakes) .initial hguard, ?_⟩
  exact along_of_invariant hkeep (fun s l hinv _ => hinv.emptyMeansNoMail l) .initial hguard

/-- A root and a child to write to. -/
def family : List MailLabel :=
  let spec (name : String) (role : AgentRole) : NodeSpec :=
    { name, role, taskBrief := "Answer.", expectedOutputType := "report"
      toolIds := [], budgets := [], dependencyNodeIds := [] }
  [.transact (.createGraph ⟨"run", "tenant", spec "root" .orchestrator, {}⟩ "graph" "root" 0),
    .transact (.spawnChild "graph" "root" (spec "child" .researcher) true "child" 1)]

def question : AgentStore.SendMail :=
  ⟨"graph", "root", "child", .question, [("text", .str "When?")], none⟩

/-- The send notifies the waiting call, which finds the item. -/
theorem waits_miss_no_mail_of_wakeup :
    let run := family ++ [.wait "child", .query 0, .resumeWait 0, .send question "item",
      .commit 0, .resumeSend 0, .resumeWait 0, .query 0, .resumeWait 0]
    (exec (step AgentStore.clampZero) run {}).map (fun s => s.waiters.map MailWaiter.phase) =
        some [.returned [⟨"item", "graph", "root", "child", .question, 1,
          [("text", .str "When?")], .delivered, none⟩]] ∧
      Always (step AgentStore.clampZero) (WakesWaiters AgentStore.clampZero) run {} ∧
      Along (step AgentStore.clampZero) (EmptyMeansNoMail AgentStore.clampZero) run {} := by
  intro run
  exact ⟨by decide +kernel, waits_miss_no_mail (along_of_decide (by decide +kernel))⟩

/-- `EmptyMeansNoMail` of one call, as a test. -/
def returnsRight (floor : Int → Int) (i : Nat) (s : MailSystem) (l : MailLabel) : Bool :=
  l ≠ .resumeWait i || (step floor s l).all fun t => t.waiters[i]?.all fun w =>
    w.phase ≠ .returned [] || (openMail t.db w.nodeId).isEmpty

theorem EmptyMeansNoMail.returnsRight {l : MailLabel} (hempty : EmptyMeansNoMail floor s l)
    (i : Nat) : returnsRight floor i s l = true := by
  by_cases hl : l = .resumeWait i
  · cases hstep : step floor s l with
    | none => simp [MailSystem.returnsRight, hstep]
    | some t =>
        cases hw : t.waiters[i]? with
        | none => simp [MailSystem.returnsRight, hstep, hw]
        | some w =>
            have hmail := hempty i t w hl hstep hw
            by_cases hreturned : w.phase = .returned []
            · simp [MailSystem.returnsRight, hstep, hw, hmail hreturned]
            · simp [MailSystem.returnsRight, hstep, hw, hreturned]
  · simp [MailSystem.returnsRight, hl]

/-- The query has its empty answer, the send commits and notifies, and only then the
call registers: nothing wakes it, and it returns empty when its time runs out. -/
theorem notification_before_registration_is_lost :
    let early := family ++ [.wait "child", .query 0, .send question "item", .commit 0,
      .resumeSend 0, .resumeWait 0, .timeout 0]
    ¬ (Always (step AgentStore.clampZero) (WakesWaiters AgentStore.clampZero)
        (early ++ [.resumeWait 0]) {} ∧
      Along (step AgentStore.clampZero) (EmptyMeansNoMail AgentStore.clampZero)
        (early ++ [.resumeWait 0]) {}) := by
  intro early hclaim
  refine not_along_of_check (C := EmptyMeansNoMail AgentStore.clampZero)
    (fun s l hempty => hempty.returnsRight 0) ?_ hclaim.2
  decide +kernel

end MailSystem

end Codex2Lark
