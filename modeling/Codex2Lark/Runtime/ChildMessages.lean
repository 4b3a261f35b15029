import Codex2Lark.Runtime.RootLease

/-!
The messages of the root to its children. `message` looks at the status of the child in one
request and inserts the item in another; a call that is past the barrier may lease the child
in between, and the execution reads its mailbox once.
-/

namespace Codex2Lark

open Lib AgentStore

namespace Delegations

/-! ### Who has read, and what has arrived -/

/-- Which executions of the node have read their mailbox, the latest one last. -/
def readings (workers : List NodeWorker) (nodeId : String) : List Bool :=
  workers.filterMap fun worker =>
    if worker.node.nodeId = nodeId then some worker.mailbox.isSome else none

/-- The statuses of a child whose lease has not been taken back. -/
def isUnderWay (status : NodeStatus) : Bool :=
  status = .running || status = .completed || status = .failed

def underWay (db : GraphDatabase) (nodeId : String) : Bool :=
  db.nodes.any fun row => row.nodeId = nodeId && isUnderWay row.status

/-- The present execution of the node has read its mailbox. -/
def isHanded (s : Delegations) (nodeId : String) : Bool :=
  (readings s.workers nodeId).getLast? = some true && underWay s.db nodeId

/-- An execution of the node has been handed the item. -/
def DeliveredTo (s : Delegations) (itemId nodeId : String) : Prop :=
  ∃ worker ∈ s.workers, worker.node.nodeId = nodeId ∧
    ∃ items, worker.mailbox = some items ∧ itemId ∈ items.map MailboxItem.itemId

/-- Every item that `message` has created is handed over, or its child is yet to read. -/
def MessagesReach (s : Delegations) : Prop :=
  ∀ accepted ∈ s.accepted, DeliveredTo s accepted.1 accepted.2 ∨ isHanded s accepted.2 = false

/-- No later execution of the node has been started. -/
def isCurrent (s : Delegations) (j : Nat) (nodeId : String) : Bool :=
  (s.workers.drop (j + 1)).all fun worker => worker.node.nodeId ≠ nodeId

def isSendingTo (nodeId : String) : CallPhase → Bool
  | .sending _ _ child => child.nodeId = nodeId
  | _ => false

/-- The present execution of a child reads its mailbox while no message is between the
status check and the insert of an item for it. -/
def readsBetweenMessages (s : Delegations) : DelegationLabel → Bool
  | .worker j _ _ => (s.workers[j]?).all fun worker =>
      match worker.phase with
      | .receiving => !s.isCurrent j worker.node.nodeId || !underWay s.db worker.node.nodeId ||
          s.calls.all fun call => !isSendingTo worker.node.nodeId call.phase
      | _ => true
  | _ => true

/-! ### The readings of a list of executions -/

section Readings

variable {workers : List NodeWorker} {nodeId : String}

theorem filterMap_set {α β : Type} {f : α → Option β} {l : List α} {j : Nat} {old new : α}
    (hold : l[j]? = some old) (hsame : f new = f old) :
    (l.set j new).filterMap f = l.filterMap f := by
  induction l generalizing j with
  | nil => rfl
  | cons head tail ih =>
      cases j with
      | zero =>
          simp only [List.getElem?_cons_zero, Option.some.injEq] at hold
          subst hold
          simp [List.filterMap_cons, hsame]
      | succ j =>
          simp only [List.getElem?_cons_succ] at hold
          simp [List.filterMap_cons, ih hold]

theorem readings_set {j : Nat} {old new : NodeWorker} (hold : workers[j]? = some old)
    (hnode : new.node = old.node) (hmailbox : new.mailbox = old.mailbox) :
    readings (workers.set j new) nodeId = readings workers nodeId :=
  filterMap_set hold (by rw [hnode, hmailbox])

/-- An execution of another node. -/
theorem readings_set_other {j : Nat} {old new : NodeWorker} (hold : workers[j]? = some old)
    (hnode : new.node = old.node) (hother : old.node.nodeId ≠ nodeId) :
    readings (workers.set j new) nodeId = readings workers nodeId :=
  filterMap_set hold (by rw [hnode, if_neg hother, if_neg hother])

theorem readings_map {change : NodeWorker → NodeWorker} (hnode : ∀ w, (change w).node = w.node)
    (hmailbox : ∀ w, (change w).mailbox = w.mailbox) :
    readings (workers.map change) nodeId = readings workers nodeId := by
  unfold readings
  rw [List.filterMap_map]
  refine List.filterMap_congr fun w _ => ?_
  simp only [Function.comp_apply, hnode, hmailbox]

/-- A new execution has not read yet. -/
theorem readings_append (call : Nat) (workerId : String) (nowMs : Int) (leased : List AgentNode) :
    readings (workers ++ leased.map fun node => ({ call, workerId, nowMs, node } : NodeWorker))
        nodeId =
      readings workers nodeId ++
        (leased.filter fun node => node.nodeId = nodeId).map fun _ => false := by
  unfold readings
  rw [List.filterMap_append]
  congr 1
  induction leased with
  | nil => rfl
  | cons node rest ih =>
      by_cases hid : node.nodeId = nodeId
      · rw [List.map_cons, List.filterMap_cons, ih, List.filter_cons_of_pos (by simpa using hid)]
        simp [hid]
      · rw [List.map_cons, List.filterMap_cons, ih, List.filter_cons_of_neg (by simpa using hid)]
        simp [hid]

/-- A read of an execution that a later one has replaced is not the last. -/
theorem readings_set_replaced {j : Nat} {old new : NodeWorker} (hold : workers[j]? = some old)
    (hlater : (workers.drop (j + 1)).all (fun worker => worker.node.nodeId ≠ nodeId) = false) :
    (readings (workers.set j new) nodeId).getLast? = (readings workers nodeId).getLast? := by
  have hlt := (List.getElem?_eq_some_iff.mp hold).1
  have hsplit : workers = workers.take (j + 1) ++ workers.drop (j + 1) :=
    (List.take_append_drop (j + 1) workers).symm
  have hset : workers.set j new = (workers.take j ++ [new]) ++ workers.drop (j + 1) := by
    rw [List.set_eq_take_append_cons_drop, if_pos hlt]
    simp
  have hnonempty : readings (workers.drop (j + 1)) nodeId ≠ [] := by
    intro hnil
    obtain ⟨worker, hworker, hid⟩ := List.all_eq_false.mp hlater
    have hid : worker.node.nodeId = nodeId := by simpa using hid
    have hmem : worker.mailbox.isSome ∈ readings (workers.drop (j + 1)) nodeId :=
      List.mem_filterMap.mpr ⟨worker, hworker, by simp [hid]⟩
    rw [hnil] at hmem
    cases hmem
  have hlast (first : List NodeWorker) :
      (readings (first ++ workers.drop (j + 1)) nodeId).getLast? =
        (readings (workers.drop (j + 1)) nodeId).getLast? := by
    unfold readings at hnonempty ⊢
    rw [List.filterMap_append, List.getLast?_append_of_ne_nil _ hnonempty]
  rw [hset, hlast]
  conv_rhs => rw [hsplit]
  exact (hlast _).symm

end Readings

/-! ### How a child comes to be under way -/

section UnderWay

variable {db after : GraphDatabase} {nodeId : String}

theorem underWay_iff : underWay db nodeId = true ↔
    ∃ row ∈ db.nodes, row.nodeId = nodeId ∧ isUnderWay row.status = true := by
  simp [underWay]

theorem leaseReady_underWay {graphId : String} {args : LeaseReady} {leased : List AgentNode}
    (hok : leaseReady graphId args db = .ok (leased, after)) (hunder : underWay after nodeId = true) :
    (∃ node ∈ leased, node.nodeId = nodeId) ∨ underWay db nodeId = true := by
  obtain ⟨row, hrow, hid, hstatus⟩ := underWay_iff.mp hunder
  have hexpired (row : NodeRow) (hrow : row ∈ (expireLeases db graphId args.nowMs).nodes)
      (hid : row.nodeId = nodeId) (hstatus : isUnderWay row.status = true) :
      underWay db nodeId = true := by
    rcases Table.mem_update_cases hrow with ⟨hkept, _⟩ | ⟨old, _, _, rfl⟩
    · exact underWay_iff.mpr ⟨row, hkept, hid, hstatus⟩
    · cases hstatus
  cases (leaseReady_ok hok).2 with
  | inactive => exact .inr (hexpired row hrow hid hstatus)
  | selected =>
      rcases Table.mem_update_cases hrow with ⟨hkept, _⟩ | ⟨old, _, hselected, rfl⟩
      · exact .inr (hexpired row hkept hid hstatus)
      · obtain ⟨chosen, hchosen, hchosenId⟩ := List.any_eq_true.mp hselected
        have hsame : chosen.nodeId = old.nodeId := by simpa using hchosenId
        exact .inl ⟨_, List.mem_map.mpr ⟨chosen, hchosen, rfl⟩, hsame.trans hid⟩

/-- The other transactions bring no child under way. -/
theorem underWay_back {graphId rootNodeId : String} (hstar : StarGraph graphId rootNodeId db)
    {op : GraphOp} (hop : op.IsStarOp graphId rootNodeId)
    (hlease : ∀ graphId args, op ≠ .leaseReady graphId args)
    (hunder : underWay (op.apply clampZero db) nodeId = true) : underWay db nodeId = true := by
  obtain ⟨row, hrow, hid, hstatus⟩ := underWay_iff.mp hunder
  cases hstar.moves hop row hrow with
  | moved old hold hsame hmove =>
      refine underWay_iff.mpr ⟨old, hold, hsame.nodeId.trans hid, ?_⟩
      cases hmove with
      | kept hkept => rwa [← hkept]
      | ended _ _ hworked _ =>
          have hnot : row.status ≠ .cancelled := by
            intro hcancelled
            rw [hcancelled] at hstatus
            cases hstatus
          rw [hworked hnot]
          rfl
      | woken _ hready _ =>
          rw [hready] at hstatus
          cases hstatus
      | activated _ hready _ =>
          rw [hready] at hstatus
          cases hstatus
      | queued _ hready _ =>
          rw [hready] at hstatus
          cases hstatus
      | leased _ _ _ hop =>
          obtain ⟨inGraph, args, rfl⟩ := hop
          exact absurd rfl (hlease _ _)
  | suspended _ _ _ _ _ hwaiting =>
      rw [hwaiting] at hstatus
      cases hstatus
  | spawned _ _ hnew _ =>
      rcases hnew with hcreated | hready
      · rw [hcreated] at hstatus
        cases hstatus
      · rw [hready] at hstatus
        cases hstatus

end UnderWay

/-! ### What one step does -/

section Step

variable {coordinator : Coordinator} {root : RootGraph} {s t : Delegations} {nodeId : String}

/-- Every mailbox that has been handed over stays so. -/
def Grows (s t : Delegations) : Prop :=
  ∀ worker ∈ s.workers, ∀ items, worker.mailbox = some items →
    ∃ later ∈ t.workers, later.node = worker.node ∧ later.mailbox = some items

theorem DeliveredTo.grow (hgrows : Grows s t) {itemId : String} (hdelivered : DeliveredTo s itemId nodeId) :
    DeliveredTo t itemId nodeId := by
  obtain ⟨worker, hworker, hnode, items, hmailbox, hmem⟩ := hdelivered
  obtain ⟨later, hlater, hsame, hkept⟩ := hgrows worker hworker items hmailbox
  exact ⟨later, hlater, by rw [hsame, hnode], items, hkept, hmem⟩

theorem isHanded_iff : isHanded s nodeId = true ↔
    (readings s.workers nodeId).getLast? = some true ∧ underWay s.db nodeId = true := by
  simp [isHanded]

/-- A child that a call hands out has not been handed its mailbox. -/
theorem handed_call {i : Nat} {call : CoordinatorCall} {outcome : CallOutcome} {drawn : String}
    {targets : Except PyError (List ResourceTarget)} (hwired : Wired root s)
    (hcall : s.calls[i]? = some call)
    (hstep : s.callStep coordinator i call drawn targets = some outcome)
    (hhanded : isHanded (s.settleCall i call outcome) nodeId = true) : isHanded s nodeId = true := by
  obtain ⟨hlast, hunder⟩ := isHanded_iff.mp hhanded
  have hreadings : readings (s.settleCall i call outcome).workers nodeId =
      readings s.workers nodeId ++
        (outcome.leased.filter fun node => node.nodeId = nodeId).map fun _ => false :=
    readings_append i _ _ _
  have hnone : outcome.leased.filter (fun node => node.nodeId = nodeId) = [] := by
    cases hfilter : outcome.leased.filter fun node => node.nodeId = nodeId with
    | nil => rfl
    | cons node rest =>
        rw [hreadings, hfilter, List.getLast?_append_of_ne_nil _ (by simp)] at hlast
        have hmem := List.mem_of_getLast? hlast
        simp at hmem
  rw [hreadings, hnone, List.map_nil, List.append_nil] at hlast
  refine isHanded_iff.mpr ⟨hlast, ?_⟩
  have hnot : ∀ node ∈ outcome.leased, node.nodeId ≠ nodeId := by
    intro node hnode hid
    have hmem : node ∈ outcome.leased.filter fun node => node.nodeId = nodeId :=
      List.mem_filter.mpr ⟨hnode, by simpa using hid⟩
    rw [hnone] at hmem
    cases hmem
  have hdb : (s.settleCall i call outcome).db = outcome.db := rfl
  rw [hdb] at hunder
  by_cases hleasing : ∃ graph child, call.phase = .leasing graph child
  · obtain ⟨graph, child, hphase⟩ := hleasing
    simp only [callStep, hphase, Option.some.injEq] at hstep
    subst hstep
    unfold leasingStep at hunder hnot
    split at hunder
    · rename_i e after hlease
      rwa [transaction_error hlease] at hunder
    · rename_i leased after hlease
      rcases leaseReady_underWay (transaction_ok hlease) hunder with ⟨node, hnode, hid⟩ | hbefore
      · rw [hlease] at hnot
        exact absurd hid (hnot node hnode)
      · exact hbefore
  · rcases callStep_transacts hstep with hsame | ⟨op, hop, hafter⟩
    · rwa [← hsame]
    · have hstepOp : stepOp coordinator s (.call i drawn targets) = some op := by
        rw [stepOp, hcall]
        exact hop
      rw [hafter] at hunder
      refine underWay_back hwired.star (hwired.isStarOp hstepOp) ?_ hunder
      rintro graphId args rfl
      unfold callOp at hop
      split at hop <;> cases hop
      exact hleasing ⟨_, _, ‹_›⟩

/-- A child comes to be handed its mailbox by a read of its present execution only. -/
theorem handed_step (hwired : Wired root s) {label : DelegationLabel}
    (hstep : Delegations.step coordinator s label = some t) (hhanded : isHanded t nodeId = true) :
    isHanded s nodeId = true ∨ ∃ j drawn answer worker, label = .worker j drawn answer ∧
      s.workers[j]? = some worker ∧ worker.phase = .receiving ∧ worker.node.nodeId = nodeId ∧
      s.isCurrent j nodeId = true ∧ underWay s.db nodeId = true := by
  have hsame (hreadings : readings t.workers nodeId = readings s.workers nodeId)
      (hunder : underWay t.db nodeId = true → underWay s.db nodeId = true) :
      isHanded s nodeId = true := by
    obtain ⟨hlast, hafter⟩ := isHanded_iff.mp hhanded
    exact isHanded_iff.mpr ⟨hreadings ▸ hlast, hunder hafter⟩
  cases label with
  | request request context nowMs =>
      cases hstep
      exact .inl hhanded
  | call i drawn targets =>
      obtain ⟨call, outcome, hcall, houtcome, rfl⟩ := step_call hstep
      exact .inl (handed_call hwired hcall houtcome hhanded)
  | timeout i =>
      obtain ⟨call, _, _, rfl⟩ := step_timeout hstep
      refine .inl (hsame ?_ id)
      simp [settleCall, withoutArtifact, goesOn]
  | abort i =>
      obtain ⟨call, _, _, rfl⟩ := step_abort hstep
      refine .inl (hsame ?_ id)
      dsimp only
      split
      · refine readings_map ?_ ?_
        · intro w
          split
          · exact (abortWorker_keeps w).1
          · rfl
        · intro w
          split
          · exact (abortWorker_keeps w).2
          · rfl
      · rfl
  | worker j drawn answer =>
      have hunder : underWay t.db nodeId = true → underWay s.db nodeId = true := by
        rcases step_transacts hstep with (hdb | ⟨op, hop, hdb⟩) | ⟨locks, hdb⟩
        · rw [hdb]
          exact id
        · rw [hdb]
          refine underWay_back hwired.star (hwired.isStarOp hop) ?_
          rintro graphId args rfl
          obtain ⟨worker, _, hworkerOp⟩ := Option.bind_eq_some_iff.mp hop
          unfold workerOp at hworkerOp
          split at hworkerOp <;> cases hworkerOp
        · rw [hdb]
          exact id
      obtain ⟨worker, db, moved, hworker, hmoved, rfl⟩ := step_worker hstep
      obtain ⟨hnode, _, hmailbox⟩ := workerStep_keeps hmoved
      by_cases hother : worker.node.nodeId = nodeId
      · cases hphase : worker.phase with
        | receiving =>
            cases hcurrent : s.isCurrent j nodeId with
            | true =>
                exact .inr ⟨j, drawn, answer, worker, rfl, hworker, hphase, hother, hcurrent,
                  hunder (isHanded_iff.mp hhanded).2⟩
            | false =>
                obtain ⟨hlast, hafter⟩ := isHanded_iff.mp hhanded
                rw [readings_set_replaced hworker hcurrent] at hlast
                exact .inl (isHanded_iff.mpr ⟨hlast, hunder hafter⟩)
        | _ =>
            refine .inl (hsame (readings_set hworker hnode (hmailbox ?_)) hunder)
            rw [hphase]
            rintro ⟨⟩
      · exact .inl (hsame (readings_set_other hworker hnode hother) hunder)
  | locks locks =>
      cases hstep
      exact .inl hhanded
  | finish rootRunId status nowMs =>
      have hunder : underWay t.db nodeId = true → underWay s.db nodeId = true := by
        rcases step_transacts hstep with (hdb | ⟨op, hop, hdb⟩) | ⟨locks, hdb⟩
        · rw [hdb]
          exact id
        · rw [hdb]
          refine underWay_back hwired.star (hwired.isStarOp hop) ?_
          rintro graphId args rfl
          simp only [stepOp, finishOp] at hop
          split at hop
          · cases hop
          · split at hop
            · cases hop
            · obtain ⟨published, _, hother⟩ := Option.map_eq_some_iff.mp hop
              cases hother
        · rw [hdb]
          exact id
      cases hstep
      exact .inl (hsame rfl hunder)
  | crash =>
      cases hstep
      refine .inl (hsame ?_ id)
      exact readings_map (fun w => (abortWorker_keeps w).1) fun w => (abortWorker_keeps w).2

/-- No step takes a mailbox back. -/
theorem step_grows {label : DelegationLabel} (hstep : Delegations.step coordinator s label = some t)
    (hunread : ∀ worker ∈ s.workers, worker.phase = .receiving → worker.mailbox = none) :
    Grows s t := by
  have hstay (s : Delegations) : Grows s s := fun worker hworker items hmailbox =>
    ⟨worker, hworker, rfl, hmailbox⟩
  have hmap {change : NodeWorker → NodeWorker} (hnode : ∀ w, (change w).node = w.node)
      (hmailbox : ∀ w, (change w).mailbox = w.mailbox) (hworkers : t.workers = s.workers.map change) :
      Grows s t := by
    intro worker hworker items hitems
    refine ⟨change worker, ?_, hnode worker, (hmailbox worker).trans hitems⟩
    rw [hworkers]
    exact List.mem_map_of_mem hworker
  cases label with
  | request request context nowMs =>
      cases hstep
      exact hstay s
  | call i drawn targets =>
      obtain ⟨call, outcome, _, _, rfl⟩ := step_call hstep
      exact fun worker hworker items hmailbox =>
        ⟨worker, List.mem_append_left _ hworker, rfl, hmailbox⟩
  | timeout i =>
      obtain ⟨call, _, _, rfl⟩ := step_timeout hstep
      exact fun worker hworker items hmailbox =>
        ⟨worker, List.mem_append_left _ hworker, rfl, hmailbox⟩
  | abort i =>
      obtain ⟨call, _, _, rfl⟩ := step_abort hstep
      have habort (w : NodeWorker) : (if w.call = i then abortWorker w else w).node = w.node ∧
          (if w.call = i then abortWorker w else w).mailbox = w.mailbox := by
        split
        · exact ⟨(abortWorker_keeps w).1, (abortWorker_keeps w).2⟩
        · exact ⟨rfl, rfl⟩
      by_cases hexecuting : CallPhase.isExecuting call.phase = true
      · exact hmap (fun w => (habort w).1) (fun w => (habort w).2) (if_pos hexecuting)
      · refine fun worker hworker items hmailbox => ⟨worker, ?_, rfl, hmailbox⟩
        rw [if_neg hexecuting]
        exact hworker
  | worker j drawn answer =>
      obtain ⟨worker, db, moved, hworker, hmoved, rfl⟩ := step_worker hstep
      obtain ⟨hnode, _, hmailbox⟩ := workerStep_keeps hmoved
      have hlt := (List.getElem?_eq_some_iff.mp hworker).1
      intro other hother items hitems
      obtain ⟨k, hk⟩ := List.mem_iff_getElem?.mp hother
      by_cases hjk : k = j
      · subst hjk
        rw [hworker] at hk
        cases hk
        have hphase : worker.phase ≠ .receiving := by
          intro hreceiving
          rw [hunread worker hother hreceiving] at hitems
          cases hitems
        exact ⟨moved, List.mem_set hlt _, hnode, (hmailbox hphase).trans hitems⟩
      · refine ⟨other, ?_, rfl, hitems⟩
        refine List.mem_of_getElem? (i := k) ?_
        rw [List.getElem?_set_ne (Ne.symm hjk)]
        exact hk
  | locks locks =>
      cases hstep
      exact hstay s
  | finish rootRunId status nowMs =>
      cases hstep
      exact hstay s
  | crash =>
      cases hstep
      exact hmap (fun w => (abortWorker_keeps w).1) (fun w => (abortWorker_keeps w).2) rfl

/-! ### The executions and their mailboxes -/

/-- The items that an execution is still to acknowledge. -/
def WorkerPhase.acknowledges : WorkerPhase → List String
  | .completing result => result.acknowledgedMailIds
  | .acknowledging _ itemId rest => itemId :: rest
  | _ => []

/-- An execution reads its mailbox once, and acknowledges what it has read. -/
structure NodeWorker.Reads (worker : NodeWorker) : Prop where
  unread : worker.phase = .receiving → worker.mailbox = none
  acknowledged : ∀ itemId ∈ WorkerPhase.acknowledges worker.phase,
    ∃ items, worker.mailbox = some items ∧ itemId ∈ items.map MailboxItem.itemId

theorem NodeWorker.Reads.of_phase {worker : NodeWorker} (hphase : worker.phase ≠ .receiving)
    (hnone : WorkerPhase.acknowledges worker.phase = []) : NodeWorker.Reads worker := by
  refine ⟨fun hreceiving => absurd hreceiving hphase, fun itemId hitem => ?_⟩
  rw [hnone] at hitem
  cases hitem

theorem abortWorker_reads {worker : NodeWorker} (hreads : NodeWorker.Reads worker) :
    NodeWorker.Reads (abortWorker worker) := by
  unfold abortWorker
  split
  · exact hreads
  · exact hreads
  · exact .of_phase nofun rfl

theorem workerStep_reads {db after : GraphDatabase} {worker moved : NodeWorker} {drawn : String}
    {answer : Except PyError NodeExecutionResult} (hreads : NodeWorker.Reads worker)
    (hstep : workerStep db worker drawn answer = some (after, moved)) : NodeWorker.Reads moved := by
  unfold workerStep at hstep
  cases hphase : worker.phase with
  | receiving =>
      simp only [hphase] at hstep
      cases hstep
      exact .of_phase nofun rfl
  | working =>
      simp only [hphase] at hstep
      split at hstep
      · cases hstep
        split <;> exact .of_phase nofun rfl
      · rename_i result
        cases hstep
        split
        · rename_i hsubset
          refine ⟨nofun, fun itemId hitem => ?_⟩
          have hread := List.contains_iff_mem.mp (List.all_eq_true.mp hsubset itemId hitem)
          cases hmailbox : worker.mailbox with
          | none =>
              rw [hmailbox] at hread
              cases hread
          | some items =>
              rw [hmailbox] at hread
              exact ⟨items, rfl, hread⟩
        · exact .of_phase nofun rfl
  | failing =>
      simp only [hphase] at hstep
      split at hstep <;> cases hstep <;> exact .of_phase nofun rfl
  | completing result =>
      have hacknowledged := hreads.acknowledged
      rw [hphase] at hacknowledged
      simp only [hphase] at hstep
      split at hstep
      · cases hstep
        exact .of_phase nofun rfl
      · cases hstep
        cases hids : result.acknowledgedMailIds with
        | nil => exact .of_phase nofun rfl
        | cons itemId rest =>
            refine ⟨nofun, fun later hlater => hacknowledged later ?_⟩
            rw [WorkerPhase.acknowledges, hids]
            exact hlater
  | acknowledging artifact itemId rest =>
      have hacknowledged := hreads.acknowledged
      rw [hphase] at hacknowledged
      simp only [hphase] at hstep
      split at hstep
      · cases hstep
        exact .of_phase nofun rfl
      · cases hstep
        cases rest with
        | nil => exact .of_phase nofun rfl
        | cons next rest =>
            exact ⟨nofun, fun later hlater => hacknowledged later (List.mem_cons_of_mem _ hlater)⟩
  | finished artifact => simp [hphase] at hstep
  | raised e => simp [hphase] at hstep
  | aborted => simp [hphase] at hstep

theorem step_reads {label : DelegationLabel} (hstep : Delegations.step coordinator s label = some t)
    (hreads : ∀ worker ∈ s.workers, NodeWorker.Reads worker) :
    ∀ worker ∈ t.workers, NodeWorker.Reads worker := by
  cases label with
  | request request context nowMs =>
      cases hstep
      exact hreads
  | call i drawn targets =>
      obtain ⟨call, outcome, _, _, rfl⟩ := step_call hstep
      intro worker hworker
      rcases List.mem_append.mp hworker with hold | hnew
      · exact hreads worker hold
      · obtain ⟨node, _, rfl⟩ := List.mem_map.mp hnew
        exact ⟨fun _ => rfl, fun itemId hitem => by cases hitem⟩
  | timeout i =>
      obtain ⟨call, _, _, rfl⟩ := step_timeout hstep
      intro worker hworker
      rcases List.mem_append.mp hworker with hold | hnew
      · exact hreads worker hold
      · cases hnew
  | abort i =>
      obtain ⟨call, _, _, rfl⟩ := step_abort hstep
      intro worker hworker
      dsimp only at hworker
      split at hworker
      · obtain ⟨old, hold, rfl⟩ := List.mem_map.mp hworker
        split
        · exact abortWorker_reads (hreads old hold)
        · exact hreads old hold
      · exact hreads worker hworker
  | worker j drawn answer =>
      obtain ⟨worker, db, moved, hworker, hmoved, rfl⟩ := step_worker hstep
      intro other hother
      rcases List.mem_or_eq_of_mem_set hother with hold | rfl
      · exact hreads other hold
      · exact workerStep_reads (hreads worker (List.mem_of_getElem? hworker)) hmoved
  | locks locks =>
      cases hstep
      exact hreads
  | finish rootRunId status nowMs =>
      cases hstep
      exact hreads
  | crash =>
      cases hstep
      intro worker hworker
      obtain ⟨old, hold, rfl⟩ := List.mem_map.mp hworker
      exact abortWorker_reads (hreads old hold)

/-! ### The items on their way -/

/-- The item is stored for the node, and no execution has acknowledged it. -/
def Waits (db : GraphDatabase) (itemId nodeId : String) : Prop :=
  ∃ item ∈ db.mailbox, item.itemId = itemId ∧ item.recipientNodeId = nodeId ∧
    item.state ≠ .acknowledged

theorem step_mail {label : DelegationLabel} (hmail : MailboxInvariant s.db)
    (hwired : Wired root t) (hstep : Delegations.step coordinator s label = some t) :
    MailboxInvariant t.db := by
  rcases step_transacts hstep with (hdb | ⟨op, _, hdb⟩) | ⟨locks, hdb⟩
  · rw [hdb]
    exact hmail
  · rw [hdb]
    exact hmail.apply op
  · have hshape := hwired.star.life.shape
    rw [hdb] at hshape ⊢
    exact ⟨hshape, hmail.itemIds, hmail.sequences, hmail.correlations, hmail.members⟩

/-- Only an execution that has been handed an item acknowledges it. -/
theorem acknowledged_delivered (hreads : ∀ worker ∈ s.workers, NodeWorker.Reads worker)
    {label : DelegationLabel} {itemId : String}
    (hop : stepOp coordinator s label = some (.acknowledgeMail itemId nodeId)) :
    DeliveredTo s itemId nodeId := by
  cases label with
  | call i drawn targets =>
      obtain ⟨call, _, hcallOp⟩ := Option.bind_eq_some_iff.mp hop
      unfold callOp at hcallOp
      split at hcallOp <;> cases hcallOp
  | worker j drawn answer =>
      obtain ⟨worker, hworker, hworkerOp⟩ := Option.bind_eq_some_iff.mp hop
      have hmem := List.mem_of_getElem? hworker
      unfold workerOp at hworkerOp
      split at hworkerOp <;> cases hworkerOp
      rename_i artifact rest hphase
      have hacknowledged := (hreads worker hmem).acknowledged
      rw [hphase] at hacknowledged
      exact ⟨worker, hmem, rfl, hacknowledged itemId (List.mem_cons_self ..)⟩
  | finish rootRunId status nowMs =>
      simp only [stepOp, finishOp] at hop
      split at hop
      · cases hop
      · split at hop
        · cases hop
        · obtain ⟨published, _, hother⟩ := Option.map_eq_some_iff.mp hop
          cases hother
  | request request context nowMs => cases hop
  | timeout i => cases hop
  | abort i => cases hop
  | locks locks => cases hop
  | crash => cases hop

theorem waits_step (hmail : MailboxInvariant s.db)
    (hreads : ∀ worker ∈ s.workers, NodeWorker.Reads worker) {label : DelegationLabel}
    (hstep : Delegations.step coordinator s label = some t) {itemId : String}
    (hwaits : Waits s.db itemId nodeId) : DeliveredTo s itemId nodeId ∨ Waits t.db itemId nodeId := by
  obtain ⟨item, hitem, rfl, rfl, hopen⟩ := hwaits
  rcases step_transacts hstep with (hdb | ⟨op, hop, hdb⟩) | ⟨locks, hdb⟩
  · rw [hdb]
    exact .inr ⟨item, hitem, rfl, rfl, hopen⟩
  · obtain ⟨state, hkept, hstate⟩ : ∃ state,
        { item with state } ∈ (op.apply clampZero s.db).mailbox ∧ (state = .acknowledged ↔
          item.state = .acknowledged ∨ op = .acknowledgeMail item.itemId item.recipientNodeId) :=
      hmail.item_apply op hitem
    by_cases hacknowledged : state = .acknowledged
    · rcases hstate.mp hacknowledged with hbefore | rfl
      · exact absurd hbefore hopen
      · exact .inl (acknowledged_delivered hreads hop)
    · rw [hdb]
      exact .inr ⟨_, hkept, rfl, rfl, hacknowledged⟩
  · rw [hdb]
    exact .inr ⟨item, hitem, rfl, rfl, hopen⟩

/-- The read of an execution takes the items that wait for its node. -/
theorem received_step {j : Nat} {drawn : String} {answer : Except PyError NodeExecutionResult}
    {worker : NodeWorker} (hstep : Delegations.step coordinator s (.worker j drawn answer) = some t)
    (hworker : s.workers[j]? = some worker) (hphase : worker.phase = .receiving) {itemId : String}
    (hwaits : Waits s.db itemId worker.node.nodeId) : DeliveredTo t itemId worker.node.nodeId := by
  obtain ⟨item, hitem, hid, hto, hopen⟩ := hwaits
  obtain ⟨found, db, moved, hfound, hmoved, rfl⟩ := step_worker hstep
  rw [hworker] at hfound
  cases hfound
  simp only [workerStep, hphase, Option.some.injEq, Prod.mk.injEq] at hmoved
  obtain ⟨rfl, rfl⟩ := hmoved
  have hlt := (List.getElem?_eq_some_iff.mp hworker).1
  have hread : { item with state := .delivered } ∈ (receiveMail worker.node.nodeId s.db).1 :=
    MailboxInvariant.mem_receiveMail.mpr ⟨item, hitem, hto, hopen, rfl⟩
  exact ⟨_, List.mem_set hlt _, rfl, _, rfl, List.mem_map.mpr ⟨_, hread, hid⟩⟩

/-- A new item is that of a call past its status check. -/
theorem accepted_step {label : DelegationLabel} (hstep : Delegations.step coordinator s label = some t) :
    ∀ accepted ∈ t.accepted, accepted ∈ s.accepted ∨
      (∃ i drawn targets, label = .call i drawn targets) ∧
        (∃ call ∈ s.calls, isSendingTo accepted.2 call.phase = true) ∧
        Waits t.db accepted.1 accepted.2 := by
  cases label with
  | call i drawn targets =>
      obtain ⟨call, outcome, hcall, houtcome, rfl⟩ := step_call hstep
      intro accepted haccepted
      rcases List.mem_append.mp haccepted with hold | hnew
      · exact .inl hold
      · cases callStep_yields houtcome with
        | nothing _ hnone =>
            rw [hnone] at hnew
            cases hnew
        | leases _ _ _ hnone =>
            rw [hnone] at hnew
            cases hnew
        | @accepts graph arguments child item hphase hok _ hfresh hitem =>
            rw [hitem] at hnew
            cases List.mem_singleton.mp hnew
            refine .inr ⟨⟨i, drawn, targets, rfl⟩, ⟨call, List.mem_of_getElem? hcall, ?_⟩, ?_⟩
            · rw [hphase]
              simp [isSendingTo]
            · have hdb : (s.settleCall i call outcome).db = outcome.db := rfl
              rw [hdb]
              generalize outcome.db = after at hok
              cases sendMail_ok hok with
              | again hfound hcorrelated _ =>
                  have hany := List.any_eq_true.mpr ⟨_, hfound, hcorrelated⟩
                  rw [hany] at hfresh
                  cases hfresh
              | fresh _ _ =>
                  exact ⟨_, List.mem_append_right _ (List.mem_singleton_self _), rfl, rfl, nofun⟩
  | timeout i =>
      obtain ⟨call, _, _, rfl⟩ := step_timeout hstep
      intro accepted haccepted
      rcases List.mem_append.mp haccepted with hold | hnew
      · exact .inl hold
      · cases hnew
  | abort i =>
      obtain ⟨call, _, _, rfl⟩ := step_abort hstep
      exact fun _ => .inl
  | worker j drawn answer =>
      obtain ⟨worker, db, moved, _, _, rfl⟩ := step_worker hstep
      exact fun _ => .inl
  | request request context nowMs =>
      cases hstep
      exact fun _ => .inl
  | locks locks =>
      cases hstep
      exact fun _ => .inl
  | finish rootRunId status nowMs =>
      cases hstep
      exact fun _ => .inl
  | crash =>
      cases hstep
      exact fun _ => .inl

/-! ### The status check -/

theorem sending_of_isEnded {phase : CallPhase} (hended : CallPhase.isEnded phase = true) :
    isSendingTo nodeId phase = false := by
  cases phase with
  | sending graph arguments child => cases hended
  | _ => rfl

theorem sending_of_child {phase : CallPhase} {graph : GraphRecord} {child : AgentNode}
    (hchild : CallPhase.child? phase = some (graph, child)) :
    isSendingTo nodeId phase = false := by
  cases phase with
  | sending graph arguments child => cases hchild
  | _ => rfl

/-- A call comes to send by its status check only. -/
theorem callStep_sending {i : Nat} {call : CoordinatorCall} {outcome : CallOutcome} {drawn : String}
    {targets : Except PyError (List ResourceTarget)}
    (hstep : s.callStep coordinator i call drawn targets = some outcome)
    (hsending : isSendingTo nodeId outcome.phase = true) :
    ∃ row ∈ s.db.nodes, row.nodeId = nodeId ∧ Coordinator.acceptsMail row.status = true := by
  cases callStep_move hstep with
  | @meets graph arguments child gate hphase hnamed haccepts =>
      obtain ⟨row, hrow, rfl, _⟩ := childNamed_row hnamed
      have hid : (nodeOf s.db row).nodeId = nodeId := by simpa [isSendingTo] using hsending
      exact ⟨row, hrow, hid, haccepts⟩
  | ends hended =>
      rw [sending_of_isEnded hended] at hsending
      cases hsending
  | spawned hphase hspawn hnext =>
      rw [sending_of_child hnext] at hsending
      cases hsending
  | keeps hphase hnext =>
      rw [sending_of_child hnext] at hsending
      cases hsending
  | _ => cases hsending

/-- A child of that status is not under way. -/
theorem not_underWay_of_accepts (hwired : Wired root s) {row : NodeRow} (hrow : row ∈ s.db.nodes)
    (haccepts : Coordinator.acceptsMail row.status = true) : underWay s.db row.nodeId = false := by
  cases hunder : underWay s.db row.nodeId with
  | false => rfl
  | true =>
      obtain ⟨other, hother, hid, hstatus⟩ := underWay_iff.mp hunder
      cases hwired.star.life.shape.node_eq hother hrow hid
      simp only [Coordinator.acceptsMail, isUnderWay, Bool.or_eq_true, decide_eq_true_eq] at haccepts hstatus
      rcases haccepts with (h | h) | h <;> rw [h] at hstatus <;> simp at hstatus

theorem sending_step (hwired : Wired root s) {label : DelegationLabel}
    (hstep : Delegations.step coordinator s label = some t) {call : CoordinatorCall}
    (hcall : call ∈ t.calls) (hsending : isSendingTo nodeId call.phase = true) :
    (∃ old ∈ s.calls, isSendingTo nodeId old.phase = true) ∨
      (∃ i drawn targets, label = .call i drawn targets) ∧ underWay s.db nodeId = false := by
  cases label with
  | request request context nowMs =>
      cases hstep
      rcases List.mem_append.mp hcall with hold | hnew
      · exact .inl ⟨call, hold, hsending⟩
      · rw [List.mem_singleton.mp hnew] at hsending
        cases hsending
  | call i drawn targets =>
      obtain ⟨old, outcome, hold, houtcome, rfl⟩ := step_call hstep
      rcases List.mem_or_eq_of_mem_set hcall with hkept | rfl
      · exact .inl ⟨call, hkept, hsending⟩
      · obtain ⟨row, hrow, rfl, haccepts⟩ := callStep_sending houtcome hsending
        exact .inr ⟨⟨i, drawn, targets, rfl⟩, not_underWay_of_accepts hwired hrow haccepts⟩
  | timeout i =>
      obtain ⟨old, _, _, rfl⟩ := step_timeout hstep
      rcases List.mem_or_eq_of_mem_set hcall with hkept | rfl
      · exact .inl ⟨call, hkept, hsending⟩
      · cases hsending
  | abort i =>
      obtain ⟨old, _, _, rfl⟩ := step_abort hstep
      rcases List.mem_or_eq_of_mem_set hcall with hkept | rfl
      · exact .inl ⟨call, hkept, hsending⟩
      · cases hsending
  | worker j drawn answer =>
      obtain ⟨worker, db, moved, _, _, rfl⟩ := step_worker hstep
      exact .inl ⟨call, hcall, hsending⟩
  | locks locks =>
      cases hstep
      exact .inl ⟨call, hcall, hsending⟩
  | finish rootRunId status nowMs =>
      cases hstep
      exact .inl ⟨call, hcall, hsending⟩
  | crash =>
      cases hstep
      obtain ⟨old, hold, rfl⟩ := List.mem_map.mp hcall
      unfold abortCall at hsending
      split at hsending
      · exact .inl ⟨old, hold, hsending⟩
      · cases hsending

/-! ### The invariant -/

structure MessagesKept (root : RootGraph) (s : Delegations) : Prop where
  wired : Wired root s
  mail : MailboxInvariant s.db
  reads : ∀ worker ∈ s.workers, NodeWorker.Reads worker
  sending : ∀ call ∈ s.calls, ∀ nodeId, isSendingTo nodeId call.phase = true →
    s.isHanded nodeId = false
  stored : ∀ accepted ∈ s.accepted, DeliveredTo s accepted.1 accepted.2 ∨
    Waits s.db accepted.1 accepted.2
  reach : MessagesReach s

/-- The guard, at the read of a present execution. -/
theorem none_sending {j : Nat} {drawn : String} {answer : Except PyError NodeExecutionResult}
    {worker : NodeWorker} (hguard : readsBetweenMessages s (.worker j drawn answer) = true)
    (hworker : s.workers[j]? = some worker) (hphase : worker.phase = .receiving)
    (hcurrent : s.isCurrent j worker.node.nodeId = true)
    (hunder : underWay s.db worker.node.nodeId = true) {call : CoordinatorCall}
    (hcall : call ∈ s.calls) : isSendingTo worker.node.nodeId call.phase = false := by
  simp only [readsBetweenMessages, hworker, Option.all_some, hphase, hcurrent, hunder,
    Bool.not_true, Bool.false_or, List.all_eq_true, Bool.not_eq_true'] at hguard
  exact hguard call hcall

theorem MessagesKept.step (hkept : MessagesKept root s) {label : DelegationLabel}
    (hguard : readsBetweenMessages s label = true)
    (hstep : Delegations.step coordinator s label = some t) : MessagesKept root t := by
  have hwired := hkept.wired.step hstep
  have hgrows := step_grows hstep fun worker hworker => (hkept.reads worker hworker).unread
  have hstored {itemId nodeId : String} (hbefore : DeliveredTo s itemId nodeId ∨
      Waits s.db itemId nodeId) : DeliveredTo t itemId nodeId ∨ Waits t.db itemId nodeId := by
    rcases hbefore with hdelivered | hwaits
    · exact .inl (hdelivered.grow hgrows)
    · exact (waits_step hkept.mail hkept.reads hstep hwaits).imp (DeliveredTo.grow hgrows) id
  -- A step of a call hands no mailbox over.
  have hcalls {nodeId : String} (hcall : ∃ i drawn targets, label = .call i drawn targets)
      (hhanded : t.isHanded nodeId = true) : s.isHanded nodeId = true := by
    obtain ⟨i, drawn, targets, rfl⟩ := hcall
    rcases handed_step hkept.wired hstep hhanded with hbefore | ⟨_, _, _, _, hother, _⟩
    · exact hbefore
    · cases hother
  refine ⟨hwired, step_mail hkept.mail hwired hstep, step_reads hstep hkept.reads, ?_, ?_, ?_⟩
  · intro call hcall nodeId hsending
    rw [Bool.eq_false_iff]
    intro hhanded
    rcases sending_step hkept.wired hstep hcall hsending with ⟨old, hold, hbefore⟩ | ⟨hlabel, hnot⟩
    · have hunhanded := hkept.sending old hold nodeId hbefore
      rcases handed_step hkept.wired hstep hhanded with
        hearlier | ⟨j, drawn, answer, worker, rfl, hworker, hphase, rfl, hcurrent, hunder⟩
      · rw [hunhanded] at hearlier
        cases hearlier
      · rw [none_sending hguard hworker hphase hcurrent hunder hold] at hbefore
        cases hbefore
    · have hunder := (isHanded_iff.mp (hcalls hlabel hhanded)).2
      rw [hnot] at hunder
      cases hunder
  · intro accepted haccepted
    rcases accepted_step hstep accepted haccepted with hold | ⟨_, _, hwaits⟩
    · exact hstored (hkept.stored accepted hold)
    · exact .inr hwaits
  · intro accepted haccepted
    rcases accepted_step hstep accepted haccepted with hold | ⟨hlabel, ⟨call, hcall, hsending⟩, _⟩
    · rcases hkept.reach accepted hold with hdelivered | hunhanded
      · exact .inl (hdelivered.grow hgrows)
      · cases hhanded : t.isHanded accepted.2 with
        | false => exact .inr rfl
        | true =>
            rcases handed_step hkept.wired hstep hhanded with
              hearlier | ⟨j, drawn, answer, worker, rfl, hworker, hphase, hnode, _, _⟩
            · rw [hunhanded] at hearlier
              cases hearlier
            · rcases hkept.stored accepted hold with hdelivered | hwaits
              · exact .inl (hdelivered.grow hgrows)
              · rw [← hnode] at hwaits ⊢
                exact .inl (received_step hstep hworker hphase hwaits)
    · refine .inr ?_
      rw [Bool.eq_false_iff]
      intro hhanded
      have hearlier := hcalls hlabel hhanded
      rw [hkept.sending call hcall accepted.2 hsending] at hearlier
      cases hearlier

end Step

/-! ### Runs -/

theorem MessagesKept.start (root : RootGraph) : MessagesKept root root.start := by
  refine ⟨.start root, ?_, ?_, ?_, ?_, ?_⟩
  · dsimp only [RootGraph.start]
    exact MailboxInvariant.initial.apply _
  · exact fun worker hworker => absurd hworker List.not_mem_nil
  · exact fun call hcall => absurd hcall List.not_mem_nil
  · exact fun accepted haccepted => absurd haccepted List.not_mem_nil
  · exact fun accepted haccepted => absurd haccepted List.not_mem_nil

/-- As long as no present execution of a child reads its mailbox between the status check and
the insert of a message to the child, every created item is handed over, or its child is yet
to read its mailbox. -/
theorem messages_reach (coordinator : Coordinator) (root : RootGraph) (ls : List DelegationLabel)
    (hguard : Along (step coordinator) (fun s l => readsBetweenMessages s l = true) ls root.start) :
    Always (step coordinator) MessagesReach ls root.start := by
  refine always_of_invariant (I := MessagesKept root) ?_ ?_ (.start root) hguard
  · intro s l t hkept hl hstep
    exact hkept.step hl hstep
  · exact fun s hkept => hkept.reach

/-- The call that sends a message to the child of the name. -/
def messages (name : String) : DelegationLabel :=
  .request (.message ⟨name, .message, "key", "text"⟩) plainContext 0

/-- A message is inserted before the child is leased, and the execution reads it. -/
def promptMessage : List DelegationLabel :=
  delegates "a" :: callSteps 0 "a" 6 ++ messages "a" :: callSteps 1 "item" 3 ++ callSteps 0 "" 1 ++
    workerSteps 0 "artifact" (.ok textAnswer) ++ callSteps 0 "" 1

theorem messages_reach_prompt :
    Always (step plainCoordinator) MessagesReach promptMessage plainRoot.start :=
  messages_reach plainCoordinator plainRoot promptMessage
    (along_of_check (fun _ _ hcheck => hcheck) (by decide +kernel))

/-- Between the status check of the message and its insert, the child is leased, and its
execution reads an empty mailbox. -/
def lateMessage : List DelegationLabel :=
  delegates "a" :: callSteps 0 "a" 6 ++ messages "a" :: callSteps 1 "" 2 ++ callSteps 0 "" 1 ++
    [.worker 0 "" (.ok textAnswer)] ++ callSteps 1 "item" 1

theorem MessagesReach.check {s : Delegations} (hreach : MessagesReach s) :
    (s.accepted.all fun accepted => !s.isHanded accepted.2 ||
      s.workers.any fun worker => worker.node.nodeId = accepted.2 &&
        (worker.mailbox.getD []).any fun item => item.itemId = accepted.1) = true := by
  refine List.all_eq_true.mpr fun accepted haccepted => ?_
  rcases hreach accepted haccepted with ⟨worker, hworker, hnode, items, hmailbox, hmem⟩ | hnot
  · obtain ⟨item, hitem, hid⟩ := List.mem_map.mp hmem
    have hread : ((worker.mailbox.getD []).any fun item => item.itemId = accepted.1) = true := by
      rw [hmailbox]
      exact List.any_eq_true.mpr ⟨item, hitem, by simpa using hid⟩
    have hany : (s.workers.any fun worker => worker.node.nodeId = accepted.2 &&
        (worker.mailbox.getD []).any fun item => item.itemId = accepted.1) = true :=
      List.any_eq_true.mpr ⟨worker, hworker, by rw [hread, decide_eq_true hnode, Bool.and_self]⟩
    rw [hany, Bool.or_true]
  · rw [hnot]
    rfl

/-- The message is accepted, and no execution of the child is to be handed it. -/
theorem late_message_lost :
    ¬ Always (step plainCoordinator) MessagesReach lateMessage plainRoot.start :=
  not_always_of_check (fun _ => MessagesReach.check) (by decide +kernel)

end Delegations

end Codex2Lark
