import Codex2Lark.Storage.GraphRuns

/-!
The mailbox over the runs of the agent graph store. An item only ever moves forward
to acknowledged, every recipient counts its items from one, and a correlation names
at most one item.
-/

namespace Codex2Lark

open Lib AgentStore

/-- The items of the recipient, in the order of their insertion. -/
def mailOf (db : GraphDatabase) (nodeId : String) : List MailboxItem :=
  db.mailbox.filter fun item => item.recipientNodeId = nodeId

/-- The columns of `runtime_mailbox_correlation_idx`, under its `WHERE`. -/
def MailboxItem.SameCorrelation (a b : MailboxItem) : Prop :=
  a.correlationId ≠ none ∧ a.graphId = b.graphId ∧ a.senderNodeId = b.senderNodeId ∧
    a.recipientNodeId = b.recipientNodeId ∧ a.kind = b.kind ∧ a.correlationId = b.correlationId

def HasNode (db : GraphDatabase) (graphId nodeId : String) : Prop :=
  ∃ row ∈ db.nodes, row.graphId = graphId ∧ row.nodeId = nodeId

theorem isCorrelated_iff {args : SendMail} {item : MailboxItem} :
    isCorrelated args item = true ↔ args.correlationId ≠ none ∧ item.graphId = args.graphId ∧
      item.senderNodeId = args.senderNodeId ∧ item.recipientNodeId = args.recipientNodeId ∧
      item.kind = args.kind ∧ item.correlationId = args.correlationId := by
  simp [isCorrelated, and_assoc, Option.isSome_iff_ne_none]

theorem isMailTo_iff {itemId nodeId : String} {item : MailboxItem} :
    isMailTo itemId nodeId item = true ↔ item.itemId = itemId ∧ item.recipientNodeId = nodeId := by
  simp [isMailTo]

theorem sameCorrelation_of_isCorrelated {args : SendMail} {a b : MailboxItem}
    (ha : isCorrelated args a = true) (hb : isCorrelated args b = true) : a.SameCorrelation b := by
  obtain ⟨hsome, hgraph, hfrom, hto, hkind, hcorrelation⟩ := isCorrelated_iff.mp ha
  obtain ⟨_, hgraph', hfrom', hto', hkind', hcorrelation'⟩ := isCorrelated_iff.mp hb
  exact ⟨hcorrelation ▸ hsome, hgraph.trans hgraph'.symm, hfrom.trans hfrom'.symm,
    hto.trans hto'.symm, hkind.trans hkind'.symm, hcorrelation.trans hcorrelation'.symm⟩

structure MailboxInvariant (db : GraphDatabase) : Prop where
  shape : GraphShape db
  itemIds : (db.mailbox.map MailboxItem.itemId).Nodup
  sequences : ∀ nodeId, (mailOf db nodeId).map MailboxItem.sequence =
    List.range' 1 (mailOf db nodeId).length
  correlations : db.mailbox.Pairwise fun a b => ¬ a.SameCorrelation b
  members : ∀ item ∈ db.mailbox,
    HasNode db item.graphId item.senderNodeId ∧ HasNode db item.graphId item.recipientNodeId

variable {floor : Int → Int} {db after : GraphDatabase}

/-! ### The other transactions -/

namespace AgentStore

@[simp] theorem releaseParentBudget_mailbox (node : NodeRow) (nowMs : Int) :
    (releaseParentBudget floor db node nowMs).mailbox = db.mailbox := by
  unfold releaseParentBudget
  split <;> rfl

@[simp] theorem wakeParent_mailbox (parentNodeId : Option String) (nowMs : Int) :
    (wakeParent db parentNodeId nowMs).mailbox = db.mailbox := by
  unfold wakeParent
  split
  · rfl
  · split <;> rfl

@[simp] theorem settleNode_mailbox (nodeId : String) (status : NodeStatus) (nowMs : Int) :
    (settleNode db nodeId status nowMs).mailbox = db.mailbox := rfl

@[simp] theorem blockDependents_mailbox (nodeId : String) (nowMs : Int) :
    (blockDependents floor db nodeId nowMs).mailbox = db.mailbox := by
  unfold blockDependents
  generalize openDependents db nodeId = rows
  induction rows generalizing db with
  | nil => rfl
  | cons row rest ih =>
      rw [List.foldl_cons, ih]
      simp [blockNode]

theorem wakeParents_mailbox (parents : List String) (nowMs : Int) :
    (wakeParents db parents nowMs).mailbox = db.mailbox := by
  unfold wakeParents
  induction parents generalizing db with
  | nil => rfl
  | cons parentId rest ih => rw [List.foldl_cons, ih, wakeParent_mailbox]

theorem cancelNodes_mailbox (ids : List String) (nowMs : Int) :
    (ids.foldl (cancelNode floor nowMs) db).mailbox = db.mailbox := by
  induction ids generalizing db with
  | nil => rfl
  | cons nodeId rest ih =>
      rw [List.foldl_cons, ih]
      unfold cancelNode
      split
      · rfl
      · simp [deleteLocksOf]

theorem takeLock_mailbox (lock : LockRow) : (takeLock db lock).2.mailbox = db.mailbox := by
  unfold takeLock
  simp only
  split
  · rfl
  · split <;> rfl

theorem renewTargets_mailbox (ownerId : String) (nowMs leaseMs : Int)
    (targets : List WriteScopeTarget) :
    (renewTargets ownerId nowMs leaseMs targets db).2.mailbox = db.mailbox := by
  induction targets generalizing db with
  | nil => rfl
  | cons target rest ih =>
      unfold renewTargets
      simp only
      split
      · rfl
      · exact ih.trans rfl

end AgentStore

/-! ### One transaction -/

theorem GraphDatabase.transaction_mailbox {α : Type}
    {operation : GraphDatabase → Except PyError (α × GraphDatabase)}
    (hdone : ∀ value after, operation db = .ok (value, after) → after.mailbox = db.mailbox) :
    (db.transaction operation).2.mailbox = db.mailbox :=
  GraphDatabase.transaction_rule (P := fun after => after.mailbox = db.mailbox) rfl hdone

namespace GraphOp

/-- What a transaction does to the mailbox. -/
inductive MailEffect (db : GraphDatabase) : GraphOp → GraphDatabase → Prop
  | none {op : GraphOp} {after : GraphDatabase} (hmail : after.mailbox = db.mailbox)
      (hother : ∀ itemId nodeId, op = .acknowledgeMail itemId nodeId →
        Table.rowcount (isMailTo itemId nodeId) db.mailbox ≠ 1) : MailEffect db op after
  | sent {args : SendMail} {itemId : String} (hsender : HasNode db args.graphId args.senderNodeId)
      (hrecipient : HasNode db args.graphId args.recipientNodeId)
      (hid : ∀ row ∈ db.mailbox, row.itemId ≠ itemId)
      (hcorrelated : ∀ row ∈ db.mailbox, isCorrelated args row = false) :
      MailEffect db (.sendMail args itemId) { db with mailbox := db.mailbox ++
        [newMail args itemId (nextSequence db args.recipientNodeId)] }
  | received {nodeId : String} :
      MailEffect db (.receiveMail nodeId) (AgentStore.receiveMail nodeId db).2
  | acknowledged {itemId nodeId : String} :
      MailEffect db (.acknowledgeMail itemId nodeId) { db with
        mailbox := Table.update (isMailTo itemId nodeId)
          (fun item => { item with state := .acknowledged }) db.mailbox }

theorem mailEffect (floor : Int → Int) (db : GraphDatabase) (op : GraphOp) :
    MailEffect db op (op.apply floor db) := by
  have hnone : ∀ {op : GraphOp} {after : GraphDatabase}, after.mailbox = db.mailbox →
      (∀ itemId nodeId, op ≠ .acknowledgeMail itemId nodeId) → MailEffect db op after :=
    fun hmail hother => .none hmail fun itemId nodeId hop => absurd hop (hother itemId nodeId)
  cases op with
  | createGraph args graphId rootNodeId nowMs =>
      refine hnone (GraphDatabase.transaction_mailbox fun _ after hok => ?_) (by rintro _ _ ⟨⟩)
      obtain ⟨_, _, rfl⟩ := createGraph_ok hok
      rfl
  | spawnChild graphId parentNodeId spec ready nodeId nowMs =>
      refine hnone (GraphDatabase.transaction_mailbox fun _ after hok => ?_) (by rintro _ _ ⟨⟩)
      obtain ⟨graph, parent, reserved, hspawned⟩ := spawnChild_ok hok
      rw [hspawned.result]
  | activateNode nodeId nowMs =>
      refine hnone (GraphDatabase.transaction_mailbox fun _ after hok => ?_) (by rintro _ _ ⟨⟩)
      obtain ⟨rfl, _⟩ := activateNode_ok hok
      rfl
  | leaseReady graphId args =>
      refine hnone (GraphDatabase.transaction_mailbox fun _ after hok => ?_) (by rintro _ _ ⟨⟩)
      cases (leaseReady_ok hok).2 <;> rfl
  | failNode nodeId workerId nowMs =>
      refine hnone (GraphDatabase.transaction_mailbox fun _ after hok => ?_) (by rintro _ _ ⟨⟩)
      obtain ⟨node, _, hdone⟩ := PyError.bind_eq_ok.mp hok
      cases hdone
      simp [deleteLocksOf]
  | interruptNode nodeId nowMs =>
      refine hnone (GraphDatabase.transaction_mailbox fun _ after hok => ?_) (by rintro _ _ ⟨⟩)
      obtain rfl := interruptNode_ok hok
      rfl
  | completeNode nodeId workerId draft artifactId nowMs =>
      refine hnone (GraphDatabase.transaction_mailbox fun _ after hok => ?_) (by rintro _ _ ⟨⟩)
      obtain ⟨node, _, hdone⟩ := PyError.bind_eq_ok.mp hok
      split at hdone
      · cases hdone
      · cases hdone
        simp [deleteLocksOf, recordArtifact]
  | cancelSubtree nodeId nowMs =>
      refine hnone (GraphDatabase.transaction_mailbox fun _ after hok => ?_) (by rintro _ _ ⟨⟩)
      cases hok
      exact (wakeParents_mailbox _ nowMs).trans (cancelNodes_mailbox _ nowMs)
  | finishGraph graphId nodeId status nowMs =>
      refine hnone (GraphDatabase.transaction_mailbox fun _ after hok => ?_) (by rintro _ _ ⟨⟩)
      obtain ⟨_, rfl⟩ := finishGraph_ok hok
      rfl
  | sendMail args itemId =>
      cases hok : AgentStore.sendMail args itemId db with
      | error e =>
          simp only [apply, GraphDatabase.transaction, hok]
          exact hnone rfl (by rintro _ _ ⟨⟩)
      | ok result =>
          obtain ⟨item, after⟩ := result
          obtain ⟨hsender, hrecipient⟩ := sendMail_members hok
          simp only [apply, GraphDatabase.transaction, hok]
          cases sendMail_ok hok with
          | again hitem hcorrelated hpayload => exact hnone rfl (by rintro _ _ ⟨⟩)
          | fresh hid hcorrelated => exact .sent hsender hrecipient hid hcorrelated
  | receiveMail nodeId => exact .received
  | acknowledgeMail itemId nodeId =>
      cases hok : AgentStore.acknowledgeMail itemId nodeId db with
      | error e =>
          simp only [apply, GraphDatabase.transaction, hok]
          refine .none rfl fun _ _ hop => ?_
          cases hop
          intro hcount
          simp [AgentStore.acknowledgeMail, hcount] at hok
      | ok result =>
          obtain ⟨u, after⟩ := result
          simp only [apply, GraphDatabase.transaction, hok]
          obtain ⟨_, rfl⟩ := acknowledgeMail_ok hok
          exact .acknowledged
  | acquireLock graphId nodeId target nowMs leaseMs =>
      refine hnone (GraphDatabase.transaction_mailbox fun granted after hok => ?_) (by rintro _ _ ⟨⟩)
      have htaken := congrArg (fun taken => taken.2.mailbox) (acquireLock_ok hok).2
      exact htaken.symm.trans (takeLock_mailbox _)
  | releaseLocks nodeId => exact hnone rfl (by rintro _ _ ⟨⟩)
  | acquireRootWriteScope rootRunId tenantKey target nowMs leaseMs =>
      refine hnone (GraphDatabase.transaction_mailbox fun owner after hok => ?_) (by rintro _ _ ⟨⟩)
      obtain ⟨_, graph, _, _, _, _, granted, _, htaken⟩ := acquireRootWriteScope_ok hok
      have hafter := congrArg (fun taken => taken.2.mailbox) htaken
      exact hafter.symm.trans (takeLock_mailbox _)
  | releaseWriteScope ownerId target => exact hnone rfl (by rintro _ _ ⟨⟩)
  | listLocks nodeId nowMs => exact hnone rfl (by rintro _ _ ⟨⟩)
  | ownsWriteScope ownerId targets nowMs =>
      refine hnone ?_ (by rintro _ _ ⟨⟩)
      simp only [apply, AgentStore.ownsWriteScope]
      split
      · rfl
      · rfl
  | renewWriteScope ownerId targets nowMs leaseMs =>
      refine hnone ?_ (by rintro _ _ ⟨⟩)
      simp only [apply, AgentStore.renewWriteScope]
      split
      · rfl
      · exact renewTargets_mailbox ownerId nowMs leaseMs targets

/-- A node stays, in its graph. -/
theorem hasNode_apply (hshape : GraphShape db) (op : GraphOp) {graphId nodeId : String}
    (hnode : HasNode db graphId nodeId) : HasNode (op.apply floor db) graphId nodeId := by
  obtain ⟨row, hrow, hgraph, hid⟩ := hnode
  refine apply_rule hshape (P := fun after => HasNode after graphId nodeId) ?_ ?_ ?_ op
  · intro after hmoves
    obtain ⟨kept, hkept, hsame⟩ := Table.Forall₂.of_mem_left hmoves.frame.nodes hrow
    exact ⟨kept, hkept, by rw [← hsame.graphId, hgraph], by rw [← hsame.nodeId, hid]⟩
  · intro args newGraphId rootNodeId nowMs after hok
    obtain ⟨_, _, rfl⟩ := createGraph_ok hok
    exact ⟨row, List.mem_append_left _ hrow, hgraph, hid⟩
  · intro newGraphId parentNodeId spec ready newNodeId nowMs after graph parent reserved hspawned
    have hframe := (suspendParent_moves id hspawned.parentMem nowMs).frame
    obtain ⟨kept, hkept, hsame⟩ := Table.Forall₂.of_mem_left hframe.nodes hrow
    rw [hspawned.result]
    exact ⟨kept, List.mem_append_left _ hkept, by rw [← hsame.graphId, hgraph],
      by rw [← hsame.nodeId, hid]⟩

end GraphOp

/-! ### The invariant -/

/-- `UPDATE runtime_mailbox SET state = ... WHERE cond`. -/
theorem mailOf_update {cond : MailboxItem → Bool} {state : MailboxState}
    (hmail : after.mailbox =
      Table.update cond (fun item => { item with state := state }) db.mailbox) (nodeId : String) :
    mailOf after nodeId =
      Table.update cond (fun item => { item with state := state }) (mailOf db nodeId) := by
  unfold mailOf Table.update
  rw [hmail]
  unfold Table.update
  rw [List.filter_map]
  congr 1
  apply List.filter_congr
  intro item _
  simp only [Function.comp_apply]
  split <;> rfl

theorem foldl_max_range' (n : Nat) : (List.range' 1 n).foldl max 0 = n := by
  induction n with
  | zero => rfl
  | succ n ih =>
      rw [List.range'_concat, List.foldl_append, ih]
      simp [Nat.add_comm]

namespace MailboxInvariant

theorem initial : MailboxInvariant {} :=
  ⟨.empty, .nil, fun _ => rfl, .nil, fun _ h => absurd h List.not_mem_nil⟩

theorem nextSequence_eq (hmail : MailboxInvariant db) (nodeId : String) :
    nextSequence db nodeId = (mailOf db nodeId).length + 1 := by
  have hsequences := hmail.sequences nodeId
  unfold mailOf at hsequences ⊢
  unfold nextSequence
  rw [hsequences, foldl_max_range']

theorem update (hmail : MailboxInvariant db) (hshape : GraphShape after)
    {cond : MailboxItem → Bool} {state : MailboxState}
    (hupdate : after.mailbox =
      Table.update cond (fun item => { item with state := state }) db.mailbox)
    (hnodes : ∀ graphId nodeId, HasNode db graphId nodeId → HasNode after graphId nodeId) :
    MailboxInvariant after := by
  refine ⟨hshape, ?_, ?_, ?_, ?_⟩
  · have hids : after.mailbox.map MailboxItem.itemId = db.mailbox.map MailboxItem.itemId := by
      rw [hupdate]
      exact Table.map_update _ fun _ => rfl
    rw [hids]
    exact hmail.itemIds
  · intro nodeId
    have hcolumn : (mailOf after nodeId).map MailboxItem.sequence =
        (mailOf db nodeId).map MailboxItem.sequence := by
      rw [mailOf_update hupdate]
      exact Table.map_update _ fun _ => rfl
    have hlength := congrArg List.length hcolumn
    rw [List.length_map, List.length_map] at hlength
    rw [hcolumn, hlength]
    exact hmail.sequences nodeId
  · rw [hupdate]
    unfold Table.update
    refine List.pairwise_map.mpr (hmail.correlations.imp ?_)
    intro a b hdistinct hsame
    apply hdistinct
    split at hsame <;> split at hsame <;> exact hsame
  · intro item hitem
    rw [hupdate] at hitem
    obtain ⟨hold, _⟩ | ⟨old, hold, _, rfl⟩ := Table.mem_update_cases hitem
    · obtain ⟨hsender, hrecipient⟩ := hmail.members item hold
      exact ⟨hnodes _ _ hsender, hnodes _ _ hrecipient⟩
    · obtain ⟨hsender, hrecipient⟩ := hmail.members old hold
      exact ⟨hnodes _ _ hsender, hnodes _ _ hrecipient⟩

theorem sent (hmail : MailboxInvariant db) {args : SendMail} {itemId : String}
    (hshape : GraphShape { db with mailbox := db.mailbox ++
      [newMail args itemId (nextSequence db args.recipientNodeId)] })
    (hsender : HasNode db args.graphId args.senderNodeId)
    (hrecipient : HasNode db args.graphId args.recipientNodeId)
    (hid : ∀ row ∈ db.mailbox, row.itemId ≠ itemId)
    (hcorrelated : ∀ row ∈ db.mailbox, isCorrelated args row = false) :
    MailboxInvariant { db with mailbox := db.mailbox ++
      [newMail args itemId (nextSequence db args.recipientNodeId)] } := by
  refine ⟨hshape, ?_, ?_, ?_, ?_⟩
  · simp only [List.map_append, List.map_cons, List.map_nil]
    refine List.nodup_append.mpr ⟨hmail.itemIds, List.nodup_singleton _, ?_⟩
    intro id hold new hnew
    obtain ⟨row, hrow, rfl⟩ := List.mem_map.mp hold
    rw [List.mem_singleton.mp hnew]
    exact hid row hrow
  · intro nodeId
    have hsequences := hmail.sequences nodeId
    unfold mailOf at hsequences ⊢
    rw [List.filter_append]
    by_cases hself : args.recipientNodeId = nodeId
    · have hnext := hmail.nextSequence_eq nodeId
      unfold mailOf at hnext
      rw [List.filter_cons_of_pos (by simp [newMail, hself]), List.filter_nil, List.map_append,
        hsequences, List.length_append, List.length_singleton, List.range'_concat]
      simp [newMail, hself, hnext, Nat.add_comm]
    · rw [List.filter_cons_of_neg (by simp [newMail, hself]), List.filter_nil, List.append_nil]
      exact hsequences
  · refine List.pairwise_append.mpr ⟨hmail.correlations, List.pairwise_singleton _ _, ?_⟩
    intro row hrow new hnew hsame
    rw [List.mem_singleton.mp hnew] at hsame
    obtain ⟨hsome, hgraph, hfrom, hto, hkind, hcorrelation⟩ := hsame
    have hfound : isCorrelated args row = true := by
      refine isCorrelated_iff.mpr ⟨?_, hgraph, hfrom, hto, hkind, hcorrelation⟩
      rwa [hcorrelation] at hsome
    rw [hcorrelated row hrow] at hfound
    cases hfound
  · intro item hitem
    obtain hold | hnew := List.mem_append.mp hitem
    · exact hmail.members item hold
    · rw [List.mem_singleton.mp hnew]
      exact ⟨hsender, hrecipient⟩

theorem apply (hmail : MailboxInvariant db) (op : GraphOp) :
    MailboxInvariant (op.apply floor db) := by
  have hshape : GraphShape (op.apply floor db) := op.shape hmail.shape
  have hnodes : ∀ graphId nodeId, HasNode db graphId nodeId →
      HasNode (op.apply floor db) graphId nodeId :=
    fun _ _ => GraphOp.hasNode_apply hmail.shape op
  have heffect := op.mailEffect floor db
  generalize op.apply floor db = after at hshape hnodes heffect
  cases heffect with
  | none hsame _ =>
      have hupdate : after.mailbox =
          Table.update (fun _ => false) (fun item => { item with state := .pending }) db.mailbox := by
        rw [hsame, Table.update_eq_self fun _ _ => rfl]
      exact hmail.update hshape hupdate hnodes
  | sent hsender hrecipient hid hcorrelated => exact hmail.sent hshape hsender hrecipient hid hcorrelated
  | received => exact hmail.update hshape rfl hnodes
  | acknowledged => exact hmail.update hshape rfl hnodes

theorem rowcount_eq_one (hmail : MailboxInvariant db) {item : MailboxItem}
    (hitem : item ∈ db.mailbox) :
    Table.rowcount (isMailTo item.itemId item.recipientNodeId) db.mailbox = 1 := by
  apply Table.rowcount_eq_one hmail.itemIds hitem (isMailTo_iff.mpr ⟨rfl, rfl⟩)
  intro row hcond
  exact (isMailTo_iff.mp hcond).1

/-- What a transaction does to one item. -/
theorem item_apply (hmail : MailboxInvariant db) (op : GraphOp) {item : MailboxItem}
    (hitem : item ∈ db.mailbox) :
    ∃ state, { item with state } ∈ (op.apply floor db).mailbox ∧
      (state = .acknowledged ↔
        item.state = .acknowledged ∨ op = .acknowledgeMail item.itemId item.recipientNodeId) := by
  have heffect := op.mailEffect floor db
  generalize op.apply floor db = after at heffect
  cases heffect with
  | none hsame hother =>
      refine ⟨item.state, hsame ▸ hitem, .inl, ?_⟩
      rintro (hstate | hop)
      · exact hstate
      · exfalso
        exact hother _ _ hop (hmail.rowcount_eq_one hitem)
  | sent hsender hrecipient hid hcorrelated =>
      refine ⟨item.state, List.mem_append_left _ hitem, .inl, ?_⟩
      rintro (hstate | hop)
      · exact hstate
      · cases hop
  | received =>
      rename_i nodeId
      cases hcond : decide (item.recipientNodeId = nodeId) && decide (item.state = .pending) with
      | true =>
          refine ⟨.delivered, Table.mem_update_of_cond hitem hcond, nofun, ?_⟩
          simp only [Bool.and_eq_true, decide_eq_true_eq] at hcond
          simp [hcond.2]
      | false => exact ⟨item.state, Table.mem_update_of_not hitem hcond, by simp⟩
  | acknowledged =>
      rename_i itemId nodeId
      cases hcond : isMailTo itemId nodeId item with
      | true =>
          refine ⟨.acknowledged, Table.mem_update_of_cond hitem hcond, fun _ => .inr ?_, fun _ => rfl⟩
          obtain ⟨hid, hto⟩ := isMailTo_iff.mp hcond
          rw [hid, hto]
      | false =>
          refine ⟨item.state, Table.mem_update_of_not hitem hcond, .inl, ?_⟩
          rintro (hstate | hop)
          · exact hstate
          · cases hop
            rw [isMailTo_iff.mpr ⟨rfl, rfl⟩] at hcond
            cases hcond

end MailboxInvariant

/-! ### Runs -/

namespace MailboxInvariant

/-- What a run does to one item: the acknowledgement by its recipient is the only
way out. -/
theorem item_exec (hmail : MailboxInvariant db) {ops : List GraphOp}
    (hrun : exec (GraphOp.step floor) ops db = some after) {item : MailboxItem}
    (hitem : item ∈ db.mailbox) :
    ∃ state, { item with state } ∈ after.mailbox ∧
      (state = .acknowledged ↔ item.state = .acknowledged ∨
        .acknowledgeMail item.itemId item.recipientNodeId ∈ ops) := by
  induction ops generalizing db item with
  | nil =>
      cases hrun
      exact ⟨item.state, hitem, by simp⟩
  | cons op rest ih =>
      have hstep : ∃ state, { item with state } ∈ (op.apply floor db).mailbox ∧
          (state = .acknowledged ↔ item.state = .acknowledged ∨
            op = .acknowledgeMail item.itemId item.recipientNodeId) := hmail.item_apply op hitem
      obtain ⟨middle, hmiddle, hstate⟩ := hstep
      obtain ⟨state, hkept, hlast⟩ := ih (hmail.apply op) hrun hmiddle
      refine ⟨state, hkept, ?_⟩
      rw [hlast, hstate, List.mem_cons, or_assoc]
      simp only [eq_comm]

theorem mem_receiveMail {nodeId : String} {got : MailboxItem} :
    got ∈ (receiveMail nodeId db).1 ↔ ∃ item ∈ db.mailbox, item.recipientNodeId = nodeId ∧
      item.state ≠ .acknowledged ∧ got = { item with state := .delivered } := by
  simp only [receiveMail, List.mem_map, List.mem_insertionSort, List.mem_filter, Bool.and_eq_true,
    decide_eq_true_eq]
  constructor
  · rintro ⟨item, ⟨hitem, hto, hopen⟩, rfl⟩
    exact ⟨item, hitem, hto, hopen, rfl⟩
  · rintro ⟨item, hitem, hto, hopen, rfl⟩
    exact ⟨item, ⟨hitem, hto, hopen⟩, rfl⟩

theorem receiveMail_sequences (hmail : MailboxInvariant db) (nodeId : String) :
    ((receiveMail nodeId db).1.map MailboxItem.sequence).Pairwise (· < ·) := by
  have hnumbers : ((mailOf db nodeId).map MailboxItem.sequence).Pairwise (· < ·) := by
    rw [hmail.sequences nodeId]
    exact List.pairwise_lt_range'
  have hopen : (db.mailbox.filter fun item => item.recipientNodeId = nodeId &&
      item.state ≠ .acknowledged).Pairwise fun a b => a.sequence < b.sequence := by
    refine (List.pairwise_map.mp hnumbers).sublist ?_
    exact List.monotone_filter_right _ fun item => by simp +contextual
  -- The rows are in the order of their sequences already.
  have hsorted := (hopen.imp Nat.le_of_lt).insertionSort_eq
  simp only [receiveMail, hsorted, List.map_map]
  exact List.pairwise_map.mpr hopen

theorem resent (hmail : MailboxInvariant db) (args : SendMail) (itemId : String)
    {item : MailboxItem} (hitem : item ∈ db.mailbox) (hcorrelated : isCorrelated args item = true) :
    sendMail args itemId db =
      if Json.same (.obj item.payload) (.obj args.payload) then .ok (item, db)
      else .error (.runtimeError "mailbox correlation identity collision") := by
  obtain ⟨_, hgraph, hfrom, hto, _, _⟩ := isCorrelated_iff.mp hcorrelated
  obtain ⟨hsender, hrecipient⟩ := hmail.members item hitem
  have hmembers : ((db.nodes.any fun row =>
      row.graphId = args.graphId && row.nodeId = args.senderNodeId) &&
      db.nodes.any fun row =>
        row.graphId = args.graphId && row.nodeId = args.recipientNodeId) = true := by
    rw [← hgraph, ← hfrom, ← hto]
    simpa [HasNode] using And.intro hsender hrecipient
  -- The index leaves no second row for the same correlation.
  have hfind : db.mailbox.find? (isCorrelated args) = some item := by
    refine Table.find?_of_pairwise (hmail.correlations.imp ?_) hitem hcorrelated
    intro a b hdistinct ha
    rw [Bool.eq_false_iff]
    intro hb
    exact hdistinct (sameCorrelation_of_isCorrelated ha hb)
  unfold sendMail
  simp only [hmembers, hfind]
  cases hsame : Json.same (.obj item.payload) (.obj args.payload) with
  | true => simp
  | false => simp

end MailboxInvariant

/-- The delivery contract of the mailbox in one state of a run: the state itself, and
what every continuation of the run does to the items it has. -/
structure MailboxContract (floor : Int → Int) (db : GraphDatabase) : Prop where
  sequences : ∀ nodeId, (mailOf db nodeId).map MailboxItem.sequence =
    List.range' 1 (mailOf db nodeId).length
  correlations : db.mailbox.Pairwise fun a b => ¬ a.SameCorrelation b
  resent : ∀ args itemId, ∀ item ∈ db.mailbox, isCorrelated args item = true →
    sendMail args itemId db =
      (if Json.same (.obj item.payload) (.obj args.payload) then .ok (item, db)
      else .error (.runtimeError "mailbox correlation identity collision")) ∧
    (GraphOp.sendMail args itemId).apply floor db = db
  received : ∀ nodeId, ((receiveMail nodeId db).1.map MailboxItem.sequence).Pairwise (· < ·) ∧
    ∀ got, got ∈ (receiveMail nodeId db).1 ↔ ∃ item ∈ db.mailbox,
      item.recipientNodeId = nodeId ∧ item.state ≠ .acknowledged ∧
        got = { item with state := .delivered }
  redelivered : ∀ ops after, exec (GraphOp.step floor) ops db = some after →
    ∀ item ∈ db.mailbox, item.state ≠ .acknowledged →
      .acknowledgeMail item.itemId item.recipientNodeId ∉ ops →
      { item with state := .delivered } ∈ (receiveMail item.recipientNodeId after).1
  settled : ∀ ops after, exec (GraphOp.step floor) ops db = some after →
    ∀ item ∈ db.mailbox, item.state = .acknowledged →
      ∀ nodeId, ∀ got ∈ (receiveMail nodeId after).1, got.itemId ≠ item.itemId
  acknowledged : ∀ itemId nodeId after, acknowledgeMail itemId nodeId db = .ok ((), after) →
    (∃ item ∈ after.mailbox, item.itemId = itemId ∧ item.recipientNodeId = nodeId ∧
      item.state = .acknowledged) ∧
    acknowledgeMail itemId nodeId after = .ok ((), after)

theorem MailboxInvariant.contract (hmail : MailboxInvariant db) : MailboxContract floor db := by
  have hlater : ∀ ops after, exec (GraphOp.step floor) ops db = some after →
      MailboxInvariant after := by
    intro ops after hrun
    refine exec_invariant_of_step ?_ hmail hrun
    intro db op after hmail hstep
    cases hstep
    exact hmail.apply op
  refine
    { sequences := hmail.sequences
      correlations := hmail.correlations
      resent := ?_
      received := fun nodeId => ⟨hmail.receiveMail_sequences nodeId, fun _ => mem_receiveMail⟩
      redelivered := ?_
      settled := ?_
      acknowledged := ?_ }
  · intro args itemId item hitem hcorrelated
    have hresent := hmail.resent args itemId hitem hcorrelated
    refine ⟨hresent, ?_⟩
    simp only [GraphOp.apply, GraphDatabase.transaction, hresent]
    cases Json.same (.obj item.payload) (.obj args.payload) with
    | true => rfl
    | false => rfl
  · intro ops after hrun item hitem hopen hnever
    obtain ⟨state, hkept, hstate⟩ := hmail.item_exec hrun hitem
    refine mem_receiveMail.mpr ⟨_, hkept, rfl, ?_, rfl⟩
    intro hended
    exact (hstate.mp hended).elim hopen hnever
  · intro ops after hrun item hitem hended nodeId got hgot hid
    obtain ⟨state, hkept, hstate⟩ := hmail.item_exec hrun hitem
    obtain ⟨row, hrow, _, hopen, rfl⟩ := mem_receiveMail.mp hgot
    have hsame := List.inj_on_of_nodup_map (hlater ops after hrun).itemIds hrow hkept hid
    rw [hsame, hstate.mpr (.inl hended)] at hopen
    exact hopen rfl
  · intro itemId nodeId after hok
    obtain ⟨hcount, rfl⟩ := acknowledgeMail_ok hok
    constructor
    · obtain ⟨item, hitem, hcond⟩ := List.countP_pos_iff.mp (hcount ▸ Nat.one_pos)
      obtain ⟨hid, hto⟩ := isMailTo_iff.mp hcond
      exact ⟨_, Table.mem_update_of_cond hitem hcond, hid, hto, rfl⟩
    · have hagain : Table.rowcount (isMailTo itemId nodeId) (Table.update (isMailTo itemId nodeId)
          (fun item => { item with state := .acknowledged }) db.mailbox) = 1 := by
        rw [Table.rowcount_update]
        · exact hcount
        · exact fun _ => rfl
      unfold acknowledgeMail
      rw [if_neg (not_not.mpr hagain)]
      congr 3
      exact Table.update_update (fun _ => rfl) fun _ => rfl

/-- In every state of every run of the store's transactions the mailbox keeps its
delivery contract. -/
theorem mailbox_delivery (floor : Int → Int) (ops : List GraphOp) :
    Always (GraphOp.step floor) (MailboxContract floor) ops {} := by
  refine always_of_invariant (I := MailboxInvariant) (C := fun _ _ => True) ?_
    (fun db hmail => hmail.contract) .initial (along_of_forall (fun _ _ => trivial) ops _)
  intro db op after hmail _ hstep
  cases hstep
  exact hmail.apply op

end Codex2Lark
