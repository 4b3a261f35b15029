import Codex2Lark.Storage.GraphRuns
import Mathlib.Algebra.Order.BigOperators.Group.List
import Mathlib.Algebra.Order.Ring.Int

/-!
The ledger of the agent graph store: what is reserved at a node is the sum of the
budgets of its open children. The six ways in which a node ends all go through one
move, and each of them returns exactly what the spawn took.
-/

namespace Codex2Lark

open Lib AgentStore

/-- What an open child of the node holds of a budget kind. -/
def budgetShare (nodeId kind : String) (row : NodeRow) : Int :=
  if row.parentNodeId = some nodeId ∧ row.status.isTerminal = false then
    (row.spec.budgets.getD kind 0 : Nat)
  else 0

/-- The sum over the open children of the node. -/
def openBudget (nodes : List NodeRow) (nodeId kind : String) : Int :=
  (nodes.map (budgetShare nodeId kind)).sum

/-- `runtime_budget_ledger.reserved`, zero where the node has no row of that kind. -/
def reservedOf (db : GraphDatabase) (nodeId kind : String) : Int :=
  ((db.ledger.find? fun row => row.nodeId = nodeId && row.budgetKind = kind).map
    LedgerRow.reserved).getD 0

/-! ### Shares -/

theorem budgetShare_nonneg (nodeId kind : String) (row : NodeRow) :
    0 ≤ budgetShare nodeId kind row := by
  unfold budgetShare
  split
  · exact Int.natCast_nonneg _
  · exact Int.le_refl 0

theorem budgetShare_congr {row moved : NodeRow} (hsame : row.Same moved)
    (hopenness : moved.status.isTerminal = row.status.isTerminal) (nodeId kind : String) :
    budgetShare nodeId kind moved = budgetShare nodeId kind row := by
  unfold budgetShare
  rw [hsame.parentNodeId, hsame.spec, hopenness]

theorem openBudget_congr {nodes after : List NodeRow}
    (hmoved : List.Forall₂ (fun row moved => row.Same moved ∧
      moved.status.isTerminal = row.status.isTerminal) nodes after) (nodeId kind : String) :
    openBudget after nodeId kind = openBudget nodes nodeId kind := by
  unfold openBudget
  rw [Table.Forall₂.map_eq _ hmoved]
  exact fun row moved h => (budgetShare_congr h.1 h.2 nodeId kind).symm

theorem budgetShare_le {nodes : List NodeRow} {row : NodeRow} (hrow : row ∈ nodes)
    (nodeId kind : String) : budgetShare nodeId kind row ≤ openBudget nodes nodeId kind := by
  refine List.single_le_sum ?_ _ (List.mem_map_of_mem hrow)
  intro share hshare
  obtain ⟨other, _, rfl⟩ := List.mem_map.mp hshare
  exact budgetShare_nonneg nodeId kind other

theorem openBudget_append (nodes : List NodeRow) (node : NodeRow) (nodeId kind : String) :
    openBudget (nodes ++ [node]) nodeId kind =
      openBudget nodes nodeId kind + budgetShare nodeId kind node := by
  simp [openBudget]

/-- The end of a child takes its share out of the sum. -/
theorem openBudget_settle {nodes : List NodeRow} (hids : (nodes.map NodeRow.nodeId).Nodup)
    {row : NodeRow} (hrow : row ∈ nodes) {status : NodeStatus}
    (hterminal : status.isTerminal = true) (nowMs : Int) (nodeId kind : String) :
    openBudget (Table.update (fun other => other.nodeId = row.nodeId) (unleased status nowMs) nodes)
      nodeId kind = openBudget nodes nodeId kind - budgetShare nodeId kind row := by
  unfold openBudget
  rw [Table.sum_update_key (budgetShare nodeId kind) hids hrow]
  have hended : budgetShare nodeId kind (unleased status nowMs row) = 0 := by
    simp [budgetShare, unleased, hterminal]
  rw [hended]
  omega

/-! ### Releases -/

/-- What a release of these budgets subtracts from a ledger row. -/
def released (graphId parentId : String) (budgets : Dict String Nat) (row : LedgerRow) : Int :=
  if row.graphId = graphId ∧ row.nodeId = parentId then (budgets.getD row.budgetKind 0 : Nat) else 0

theorem released_cons {graphId parentId : String} {budget : String × Nat}
    {rest : Dict String Nat} (hkeys : ((budget :: rest).map Prod.fst).Nodup) (row : LedgerRow) :
    released graphId parentId (budget :: rest) row =
      (if isLedgerOf graphId parentId budget.1 row then (budget.2 : Int) else 0) +
        released graphId parentId rest row := by
  unfold released isLedgerOf
  by_cases hat : row.graphId = graphId ∧ row.nodeId = parentId
  · rw [if_pos hat, if_pos hat, Dict.getD_cons]
    by_cases hkind : budget.1 = row.budgetKind
    · have hout : row.budgetKind ∉ rest.map Prod.fst := hkind ▸ (List.nodup_cons.mp hkeys).1
      rw [if_pos hkind, Dict.getD_of_not_mem hout]
      simp [hat.1, hat.2, hkind.symm]
    · have hkind' : ¬ row.budgetKind = budget.1 := fun h => hkind h.symm
      simp [hkind, hkind']
  · rw [if_neg hat, if_neg hat]
    simp only [Bool.and_eq_true, decide_eq_true_eq]
    rw [if_neg fun h => hat h.1]
    rfl

theorem released_congr {graphId parentId : String} {budgets : Dict String Nat}
    {row after : LedgerRow} (hsame : row.Same after) :
    released graphId parentId budgets after = released graphId parentId budgets row := by
  unfold released
  rw [hsame.graphId, hsame.nodeId, hsame.budgetKind]

theorem releaseBudget_rows (node : NodeRow) (parentId : String) (nowMs : Int)
    (ledger : List LedgerRow) (budget : String × Nat) :
    List.Forall₂ (fun row after => row.Same after ∧ after.reserved = row.reserved -
      (if isLedgerOf node.graphId parentId budget.1 row then (budget.2 : Int) else 0))
      ledger (releaseBudget id node parentId nowMs ledger budget) := by
  apply Table.forall₂_update
  · intro row _ hcond
    refine ⟨⟨rfl, rfl, rfl, rfl, rfl⟩, ?_⟩
    rw [if_pos hcond]
    rfl
  · intro row _ hcond
    refine ⟨.refl row, ?_⟩
    rw [if_neg (by simp [hcond])]
    omega

/-- Without the clamp, a release subtracts exactly the budgets. -/
theorem releaseBudgets_rows (node : NodeRow) (parentId : String) (nowMs : Int)
    {budgets : Dict String Nat} (hkeys : (budgets.map Prod.fst).Nodup) (ledger : List LedgerRow) :
    List.Forall₂ (fun row after => row.Same after ∧
      after.reserved = row.reserved - released node.graphId parentId budgets row)
      ledger (budgets.foldl (releaseBudget id node parentId nowMs) ledger) := by
  induction budgets generalizing ledger with
  | nil =>
      refine List.forall₂_same.mpr fun row _ => ⟨.refl row, ?_⟩
      simp [released, Dict.getD, Dict.get?]
  | cons budget rest ih =>
      have hrest := (List.nodup_cons.mp hkeys).2
      refine Table.Forall₂.comp ?_ (releaseBudget_rows node parentId nowMs ledger budget)
        (ih hrest (releaseBudget id node parentId nowMs ledger budget))
      rintro row middle after ⟨hsame, hmiddle⟩ ⟨hsame', hafter⟩
      refine ⟨hsame.trans hsame', ?_⟩
      rw [hafter, released_congr hsame, hmiddle, released_cons hkeys]
      omega

/-- Where every row holds what is released, no clamp has an effect. -/
theorem releaseBudgets_floor_eq {floor : Int → Int} (hfloor : ∀ amount, 0 ≤ amount →
      floor amount = amount) (node : NodeRow) (parentId : String) (nowMs : Int)
    {budgets : Dict String Nat} (hkeys : (budgets.map Prod.fst).Nodup) {ledger : List LedgerRow}
    (hholds : ∀ row ∈ ledger, released node.graphId parentId budgets row ≤ row.reserved) :
    budgets.foldl (releaseBudget floor node parentId nowMs) ledger =
      budgets.foldl (releaseBudget id node parentId nowMs) ledger := by
  induction budgets generalizing ledger with
  | nil => rfl
  | cons budget rest ih =>
      have hrest := (List.nodup_cons.mp hkeys).2
      have hnonneg (row : LedgerRow) : 0 ≤ released node.graphId parentId rest row := by
        unfold released
        split
        · exact Int.natCast_nonneg _
        · exact Int.le_refl 0
      have hfirst : releaseBudget floor node parentId nowMs ledger budget =
          releaseBudget id node parentId nowMs ledger budget := by
        unfold releaseBudget Table.update
        apply List.map_congr_left
        intro row hrow
        by_cases hcond : isLedgerOf node.graphId parentId budget.1 row = true
        · have hthis := hholds row hrow
          rw [released_cons hkeys, if_pos hcond] at hthis
          have := hnonneg row
          rw [if_pos hcond, if_pos hcond]
          simp only [hfloor (row.reserved - budget.2) (by omega), id]
        · rw [if_neg hcond, if_neg hcond]
      rw [List.foldl_cons, List.foldl_cons, hfirst]
      apply ih hrest
      intro after hafter
      obtain ⟨row, hrow, hsame, hreserved⟩ := Table.Forall₂.of_mem_right
        (releaseBudget_rows node parentId nowMs ledger budget) hafter
      have hthis := hholds row hrow
      rw [released_cons hkeys] at hthis
      rw [released_congr hsame, hreserved]
      omega

/-! ### The invariant -/

/-- The ledger agrees with the open children. -/
structure Accounts (db : GraphDatabase) : Prop where
  balance : ∀ entry ∈ db.ledger,
    entry.reserved = openBudget db.nodes entry.nodeId entry.budgetKind
  bound : ∀ entry ∈ db.ledger, entry.reserved + entry.consumed ≤ entry.maximum
  covered : ∀ row ∈ db.nodes, ∀ parentId, row.parentNodeId = some parentId →
    ∀ budget ∈ row.spec.budgets,
      ∃ entry ∈ db.ledger, entry.nodeId = parentId ∧ entry.budgetKind = budget.1

theorem Accounts.empty : Accounts {} := by
  constructor <;> simp

variable {db after : GraphDatabase}

/-- Moves that keep openness and the ledger keep the accounts. -/
theorem Accounts.of_openness (haccounts : Accounts db)
    (hnodes : List.Forall₂ (fun row moved => row.Same moved ∧
      moved.status.isTerminal = row.status.isTerminal) db.nodes after.nodes)
    (hledger : after.ledger = db.ledger) : Accounts after := by
  refine ⟨?_, ?_, ?_⟩
  · intro entry hentry
    rw [openBudget_congr hnodes]
    exact haccounts.balance entry (hledger ▸ hentry)
  · rw [hledger]
    exact haccounts.bound
  · intro row hrow parentId hparent budget hbudget
    obtain ⟨old, hold, hsame, _⟩ := Table.Forall₂.of_mem_right hnodes hrow
    rw [hledger]
    exact haccounts.covered old hold parentId (hsame.parentNodeId.trans hparent) budget
      (hsame.spec ▸ hbudget)

/-- A ledger row of the parent is in the graph of the child. -/
theorem ledger_graph (hshape : GraphShape db) {row : NodeRow} (hrow : row ∈ db.nodes)
    {parentId : String} (hparent : row.parentNodeId = some parentId) {entry : LedgerRow}
    (hentry : entry ∈ db.ledger) (hat : entry.nodeId = parentId) : entry.graphId = row.graphId := by
  obtain ⟨parent, hparentMem, hid, hin, _⟩ := hshape.parentOf row hrow parentId hparent
  obtain ⟨node, hnode, hnodeId, hnodeIn⟩ := hshape.ledgerOf entry hentry
  have hsame : node = parent := hshape.node_eq hnode hparentMem (by rw [hnodeId, hat, hid])
  rw [← hnodeIn, hsame, hin]

/-- What a release subtracts is the share of the child. -/
theorem released_eq_share (hshape : GraphShape db) {row : NodeRow} (hrow : row ∈ db.nodes)
    (hopen : row.status.isTerminal = false) {parentId : String}
    (hparent : row.parentNodeId = some parentId) {entry : LedgerRow} (hentry : entry ∈ db.ledger) :
    released row.graphId parentId row.spec.budgets entry =
      budgetShare entry.nodeId entry.budgetKind row := by
  unfold released budgetShare
  by_cases hat : entry.nodeId = parentId
  · have hgraph := ledger_graph hshape hrow hparent hentry hat
    rw [if_pos ⟨hgraph, hat⟩, if_pos ⟨by rw [hparent, hat], hopen⟩]
  · rw [if_neg fun h => hat h.2, if_neg]
    rintro ⟨hsame, _⟩
    rw [hparent] at hsame
    exact hat (Option.some.inj hsame).symm

theorem release_floor_eq {floor : Int → Int} (hfloor : ∀ amount, 0 ≤ amount →
      floor amount = amount) (hshape : GraphShape db) (haccounts : Accounts db) {row : NodeRow}
    (hrow : row ∈ db.nodes) (hopen : row.status.isTerminal = false) (after : GraphDatabase)
    (hledger : after.ledger = db.ledger) (nowMs : Int) :
    releaseParentBudget floor after row nowMs = releaseParentBudget id after row nowMs := by
  unfold releaseParentBudget
  split
  · rfl
  · rename_i parentId hparent
    rw [hledger, releaseBudgets_floor_eq hfloor row parentId nowMs row.spec.budgetKeys]
    intro entry hentry
    rw [released_eq_share hshape hrow hopen hparent hentry, haccounts.balance entry hentry]
    exact budgetShare_le hrow _ _

/-- The end of a node returns its share, whichever of the ways it ends in. -/
theorem Accounts.close (hshape : GraphShape db) (haccounts : Accounts db) {row : NodeRow}
    (hrow : row ∈ db.nodes) (hopen : row.status.isTerminal = false) {status : NodeStatus}
    (hterminal : status.isTerminal = true) (nowMs : Int) :
    Accounts (releaseParentBudget id (settleNode db row.nodeId status nowMs) row nowMs) := by
  have hrows : List.Forall₂ (fun entry after => entry.Same after ∧
      after.reserved = entry.reserved - budgetShare entry.nodeId entry.budgetKind row)
      db.ledger (releaseParentBudget id (settleNode db row.nodeId status nowMs) row nowMs).ledger := by
    unfold releaseParentBudget
    split
    · rename_i hparent
      refine List.forall₂_same.mpr fun entry _ => ⟨.refl entry, ?_⟩
      simp [budgetShare, hparent]
    · rename_i parentId hparent
      refine Table.Forall₂.imp_of_mem ?_
        (releaseBudgets_rows row parentId nowMs row.spec.budgetKeys db.ledger)
      rintro entry hentry after ⟨hsame, hreserved⟩
      rw [released_eq_share hshape hrow hopen hparent hentry] at hreserved
      exact ⟨hsame, hreserved⟩
  have hbudget : ∀ nodeId kind, openBudget
      (releaseParentBudget id (settleNode db row.nodeId status nowMs) row nowMs).nodes nodeId kind =
        openBudget db.nodes nodeId kind - budgetShare nodeId kind row := by
    intro nodeId kind
    rw [releaseParentBudget_nodes]
    exact openBudget_settle hshape.nodeIds hrow hterminal nowMs nodeId kind
  refine ⟨?_, ?_, ?_⟩
  · intro entry hentry
    obtain ⟨old, hold, hsame, hreserved⟩ := Table.Forall₂.of_mem_right hrows hentry
    rw [hbudget, hreserved, haccounts.balance old hold, hsame.nodeId, hsame.budgetKind]
  · intro entry hentry
    obtain ⟨old, hold, hsame, hreserved⟩ := Table.Forall₂.of_mem_right hrows hentry
    have hbound := haccounts.bound old hold
    have hshare := budgetShare_nonneg old.nodeId old.budgetKind row
    rw [hreserved, ← hsame.consumed, ← hsame.maximum]
    omega
  · intro moved hmoved parentId hparent budget hbudget
    have hmove : GraphMove id db _ := .close status nowMs hrow hopen hterminal
    obtain ⟨old, hold, hsameRow⟩ := Table.Forall₂.of_mem_right hmove.frame.nodes hmoved
    obtain ⟨entry, hentry, hat, hkind⟩ := haccounts.covered old hold parentId
      (hsameRow.parentNodeId.trans hparent) budget (hsameRow.spec ▸ hbudget)
    obtain ⟨after, hafter, hsame, _⟩ := Table.Forall₂.of_mem_left hrows hentry
    exact ⟨after, hafter, hsame.nodeId.symm.trans hat, hsame.budgetKind.symm.trans hkind⟩

theorem GraphMove.accounts (hshape : GraphShape db) (haccounts : Accounts db)
    (hmove : GraphMove id db after) : Accounts after := by
  cases hmove with
  | quiet hquiet =>
      refine haccounts.of_openness ?_ ?_
      · exact (hquiet.rows_quiet hshape).imp fun _ _ h => ⟨h.same, h.openness⟩
      · cases hquiet with
        | side _ _ _ hledger => exact hledger
        | rows cond change hmoves => rfl
        | lease graph args hgraph => rfl
        | graphStatus cond status nowMs hended => rfl
  | suspend nowMs hparent hidle =>
      refine haccounts.of_openness (Table.forall₂_update ?_ ?_) rfl
      · intro row hrow hid
        rw [hshape.node_eq hrow hparent (by simpa using hid)]
        refine ⟨⟨rfl, rfl, rfl, rfl, rfl, rfl⟩, ?_⟩
        rcases hidle with h | h <;> rw [h] <;> rfl
      · exact fun row _ _ => ⟨.refl row, rfl⟩
  | close status nowMs hrow hopen hterminal => exact haccounts.close hshape hrow hopen hterminal nowMs

theorem GraphMoves.accounts (hshape : GraphShape db) (haccounts : Accounts db)
    (hmoves : GraphMoves id db after) : Accounts after := by
  induction hmoves with
  | refl => exact haccounts
  | tail hbefore hlast ih => exact hlast.accounts (hshape.of_frame (GraphMoves.frame hbefore)) ih

/-! ### Reservations -/

/-- The one row that a reservation updates is the row of that kind. -/
theorem hasRoom_iff {ledger : List LedgerRow}
    (hkeys : (ledger.map fun row => (row.nodeId, row.budgetKind)).Nodup)
    {graphId parentId kind : String} {amount : Nat}
    (hone : Table.rowcount (hasRoom graphId parentId kind amount) ledger = 1) {entry : LedgerRow}
    (hentry : entry ∈ ledger) :
    hasRoom graphId parentId kind amount entry = isLedgerOf graphId parentId kind entry := by
  have hsome : ∃ found ∈ ledger, hasRoom graphId parentId kind amount found = true := by
    apply List.countP_pos_iff.mp
    unfold Table.rowcount at hone
    omega
  obtain ⟨found, hfound, hroom⟩ := hsome
  cases his : isLedgerOf graphId parentId kind entry with
  | false => simp [hasRoom, his]
  | true =>
      have hfoundIs : isLedgerOf graphId parentId kind found = true := by
        unfold hasRoom at hroom
        exact (Bool.and_eq_true_iff.mp hroom).1
      simp only [isLedgerOf, Bool.and_eq_true, decide_eq_true_eq] at his hfoundIs
      have hsame : found = entry := by
        apply List.inj_on_of_nodup_map hkeys hfound hentry
        rw [his.1.2, his.2, hfoundIs.1.2, hfoundIs.2]
      rw [← hsame]
      exact hroom

/-- An accepted reservation adds exactly the budgets, within the maximum. -/
theorem reserveParentBudget_rows {graphId parentId : String} {nowMs : Int}
    {budgets : Dict String Nat} (hbudgets : (budgets.map Prod.fst).Nodup)
    (hkeys : (db.ledger.map fun row => (row.nodeId, row.budgetKind)).Nodup)
    (hbound : ∀ entry ∈ db.ledger, entry.reserved + entry.consumed ≤ entry.maximum)
    (hok : reserveParentBudget graphId parentId nowMs budgets db = .ok after) :
    List.Forall₂ (fun entry moved => entry.Same moved ∧
        moved.reserved = entry.reserved + released graphId parentId budgets entry)
      db.ledger after.ledger ∧
      (∀ entry ∈ after.ledger, entry.reserved + entry.consumed ≤ entry.maximum) ∧
      ∀ budget ∈ budgets, ∃ entry ∈ db.ledger, isLedgerOf graphId parentId budget.1 entry = true := by
  induction budgets generalizing db with
  | nil =>
      cases hok
      refine ⟨List.forall₂_same.mpr fun entry _ => ⟨.refl entry, ?_⟩, hbound, nofun⟩
      simp [released, Dict.getD, Dict.get?]
  | cons budget rest ih =>
      obtain ⟨kind, amount⟩ := budget
      unfold reserveParentBudget at hok
      split at hok
      · cases hok
      · rename_i hcount
        have hone : Table.rowcount (hasRoom graphId parentId kind amount) db.ledger = 1 :=
          not_not.mp hcount
        have hfirst : List.Forall₂ (fun entry moved => entry.Same moved ∧ moved.reserved =
            entry.reserved + (if isLedgerOf graphId parentId kind entry then (amount : Int) else 0))
            db.ledger (Table.update (hasRoom graphId parentId kind amount) (fun row =>
              { row with reserved := row.reserved + amount, updatedAtMs := nowMs }) db.ledger) := by
          apply Table.forall₂_update
          · intro entry hentry hroom
            rw [← hasRoom_iff hkeys hone hentry, if_pos hroom]
            exact ⟨⟨rfl, rfl, rfl, rfl, rfl⟩, rfl⟩
          · intro entry hentry hroom
            rw [← hasRoom_iff hkeys hone hentry, hroom]
            exact ⟨.refl entry, by simp⟩
        have hkeys' : ((Table.update (hasRoom graphId parentId kind amount) (fun row =>
            { row with reserved := row.reserved + amount, updatedAtMs := nowMs }) db.ledger).map
              fun row => (row.nodeId, row.budgetKind)).Nodup := by
          rw [Table.Forall₂.map_eq (fun _ _ h => by rw [h.1.nodeId, h.1.budgetKind]) hfirst]
          exact hkeys
        have hroom' : ∀ entry ∈ Table.update (hasRoom graphId parentId kind amount) (fun row =>
            { row with reserved := row.reserved + amount, updatedAtMs := nowMs }) db.ledger,
              entry.reserved + entry.consumed ≤ entry.maximum := by
          intro moved hmoved
          rcases Table.mem_update_cases hmoved with ⟨hentry, _⟩ | ⟨entry, hentry, hroom, rfl⟩
          · exact hbound moved hentry
          · have hfits : (amount : Int) ≤ entry.maximum - entry.reserved - entry.consumed := by
              unfold hasRoom at hroom
              simpa using (Bool.and_eq_true_iff.mp hroom).2
            simp only
            omega
        obtain ⟨hrows, hbound', hcovered⟩ := ih (List.nodup_cons.mp hbudgets).2 hkeys' hroom' hok
        refine ⟨?_, hbound', ?_⟩
        · refine Table.Forall₂.comp ?_ hfirst hrows
          rintro entry middle moved ⟨hsame, hmiddle⟩ ⟨hsame', hmoved⟩
          refine ⟨hsame.trans hsame', ?_⟩
          rw [hmoved, released_congr hsame, hmiddle, released_cons hbudgets]
          simp only [Int.add_assoc]
        · intro budget hbudget
          rcases List.mem_cons.mp hbudget with rfl | hrest
          · have hpos : 0 < db.ledger.countP (hasRoom graphId parentId kind amount) := by
              unfold Table.rowcount at hone
              omega
            obtain ⟨entry, hentry, hroom⟩ := List.countP_pos_iff.mp hpos
            exact ⟨entry, hentry, hasRoom_iff hkeys hone hentry ▸ hroom⟩
          · obtain ⟨moved, hmoved, his⟩ := hcovered budget hrest
            obtain ⟨entry, hentry, hsame, _⟩ := Table.Forall₂.of_mem_right hfirst hmoved
            refine ⟨entry, hentry, ?_⟩
            unfold isLedgerOf at his ⊢
            rwa [hsame.graphId, hsame.nodeId, hsame.budgetKind]

theorem openBudget_eq_zero {nodes : List NodeRow} {nodeId : String}
    (hnone : ∀ row ∈ nodes, row.parentNodeId ≠ some nodeId) (kind : String) :
    openBudget nodes nodeId kind = 0 := by
  apply List.sum_eq_zero
  intro share hshare
  obtain ⟨row, hrow, rfl⟩ := List.mem_map.mp hshare
  unfold budgetShare
  rw [if_neg fun h => hnone row hrow h.1]

theorem newLedger_entry {nodeId graphId : String} {spec : NodeSpec} {nowMs : Int}
    {entry : LedgerRow} (hentry : entry ∈ newLedger nodeId graphId spec nowMs) :
    entry.nodeId = nodeId ∧ entry.reserved = 0 ∧ entry.reserved + entry.consumed ≤ entry.maximum := by
  obtain ⟨budget, _, rfl⟩ := mem_newLedger.mp hentry
  exact ⟨rfl, rfl, by simp⟩

/-- No node has a parent that does not exist yet. -/
theorem no_child_of_fresh (hshape : GraphShape db) {nodeId : String}
    (hfresh : ∀ row ∈ db.nodes, row.nodeId ≠ nodeId) :
    ∀ row ∈ db.nodes, row.parentNodeId ≠ some nodeId := by
  intro row hrow hparent
  obtain ⟨parent, hmem, hid, _⟩ := hshape.parentOf row hrow nodeId hparent
  exact hfresh parent hmem hid

theorem Accounts.createGraph (hshape : GraphShape db) (haccounts : Accounts db)
    {args : CreateGraph} {graphId rootNodeId : String} {nowMs : Int} {u : Unit}
    (hok : AgentStore.createGraph args graphId rootNodeId nowMs db = .ok (u, after)) :
    Accounts after := by
  obtain ⟨_, hfresh, rfl⟩ := createGraph_ok hok
  refine ⟨?_, ?_, ?_⟩
  · intro entry hentry
    rw [openBudget_append]
    have hroot : budgetShare entry.nodeId entry.budgetKind
        (newNode rootNodeId graphId none "/root" args.rootSpec 1 .ready nowMs) = 0 := by
      simp [budgetShare, newNode]
    rw [hroot, Int.add_zero]
    rcases List.mem_append.mp hentry with hold | hnew
    · exact haccounts.balance entry hold
    · obtain ⟨hid, hreserved, _⟩ := newLedger_entry hnew
      rw [hreserved, hid, openBudget_eq_zero (no_child_of_fresh hshape hfresh)]
  · intro entry hentry
    rcases List.mem_append.mp hentry with hold | hnew
    · exact haccounts.bound entry hold
    · exact (newLedger_entry hnew).2.2
  · intro row hrow parentId hparent budget hbudget
    rcases List.mem_append.mp hrow with hold | hnew
    · obtain ⟨entry, hentry, his⟩ := haccounts.covered row hold parentId hparent budget hbudget
      exact ⟨entry, List.mem_append_left _ hentry, his⟩
    · rw [List.mem_singleton.mp hnew] at hparent
      cases hparent

theorem Accounts.spawnChild (hshape : GraphShape db) (haccounts : Accounts db)
    {graphId parentNodeId nodeId : String} {spec : NodeSpec} {ready : Bool} {nowMs : Int}
    {graph : GraphRow} {parent : NodeRow} {reserved : List LedgerRow}
    (hspawn : Spawned db graphId parentNodeId spec ready nodeId nowMs after graph parent reserved) :
    Accounts after := by
  have hsuspend := suspendParent_moves id hspawn.parentMem nowMs
  have hshape' := hshape.of_frame hsuspend.frame
  have haccounts' := hsuspend.accounts hshape haccounts
  obtain ⟨hrows, hbound, hcovered⟩ := reserveParentBudget_rows spec.budgetKeys hshape'.ledgerKeys
    haccounts'.bound hspawn.reserve
  simp only at hrows hbound
  have hfresh : ∀ row ∈ (suspendParent db parent nowMs).nodes, row.nodeId ≠ nodeId := by
    intro row hrow
    obtain ⟨old, hold, hsame⟩ := Table.Forall₂.of_mem_right hsuspend.frame.nodes hrow
    rw [← hsame.nodeId]
    exact hspawn.fresh old hold
  let child := newNode nodeId graphId (some parentNodeId) (parent.canonicalPath ++ "/" ++ spec.name)
    spec (parent.depth + 1) (if ready then .ready else .created) nowMs
  have hopen : child.status.isTerminal = false := by
    simp only [child, newNode]
    cases ready <;> rfl
  obtain ⟨current, hcurrent, hcurrentSame⟩ :=
    Table.Forall₂.of_mem_left hsuspend.frame.nodes hspawn.parentMem
  have hcurrentId : current.nodeId = parentNodeId := by
    rw [← hcurrentSame.nodeId, hspawn.parentIs]
  have hshare : ∀ entry ∈ (suspendParent db parent nowMs).ledger,
      released graphId parentNodeId spec.budgets entry =
        budgetShare entry.nodeId entry.budgetKind child := by
    intro entry hentry
    unfold released budgetShare
    by_cases hat : entry.nodeId = parentNodeId
    · obtain ⟨node, hnode, hid, hin⟩ := hshape'.ledgerOf entry hentry
      have hsame : node = current :=
        hshape'.node_eq hnode hcurrent (by rw [hid, hat, hcurrentId])
      have hgraph : entry.graphId = graphId := by
        rw [← hin, hsame, ← hcurrentSame.graphId, hspawn.parentGraph]
      rw [if_pos ⟨hgraph, hat⟩, if_pos ⟨by rw [hat]; rfl, hopen⟩]
      rfl
    · rw [if_neg fun h => hat h.2, if_neg]
      rintro ⟨hsame, _⟩
      exact hat (Option.some.inj hsame).symm
  rw [hspawn.result]
  refine ⟨?_, ?_, ?_⟩
  · intro entry hentry
    rw [openBudget_append]
    rcases List.mem_append.mp hentry with hold | hnew
    · obtain ⟨old, holdMem, hsame, hreserved⟩ := Table.Forall₂.of_mem_right hrows hold
      rw [hreserved, hshare old holdMem, haccounts'.balance old holdMem, hsame.nodeId,
        hsame.budgetKind]
    · obtain ⟨hid, hreserved, _⟩ := newLedger_entry hnew
      have hzero : budgetShare nodeId entry.budgetKind child = 0 := by
        unfold budgetShare
        rw [if_neg]
        rintro ⟨hsame, _⟩
        exact hfresh current hcurrent (hcurrentId.trans (Option.some.inj hsame))
      rw [hreserved, hid, openBudget_eq_zero (no_child_of_fresh hshape' hfresh), Int.zero_add]
      exact hzero.symm
  · intro entry hentry
    rcases List.mem_append.mp hentry with hold | hnew
    · exact hbound entry hold
    · exact (newLedger_entry hnew).2.2
  · intro row hrow parentId hparent budget hbudget
    rcases List.mem_append.mp hrow with hold | hnew
    · obtain ⟨entry, hentry, hat, hkind⟩ :=
        haccounts'.covered row hold parentId hparent budget hbudget
      obtain ⟨moved, hmoved, hsame, _⟩ := Table.Forall₂.of_mem_left hrows hentry
      exact ⟨moved, List.mem_append_left _ hmoved, hsame.nodeId.symm.trans hat,
        hsame.budgetKind.symm.trans hkind⟩
    · rw [List.mem_singleton.mp hnew] at hparent hbudget
      obtain ⟨entry, hentry, his⟩ := hcovered budget hbudget
      obtain ⟨moved, hmoved, hsame, _⟩ := Table.Forall₂.of_mem_left hrows hentry
      simp only [isLedgerOf, Bool.and_eq_true, decide_eq_true_eq] at his
      refine ⟨moved, List.mem_append_left _ hmoved, ?_, ?_⟩
      · rw [← hsame.nodeId, his.1.2]
        exact Option.some.inj hparent
      · rw [← hsame.budgetKind, his.2]

/-! ### The clamp -/

section Clamp

variable {floor : Int → Int} (hfloor : ∀ amount, 0 ≤ amount → floor amount = amount)
include hfloor

theorem blockNode_floor_eq (hshape : GraphShape db) (haccounts : Accounts db) {row : NodeRow}
    (hopen : IsOpenRow db row) (nowMs : Int) :
    blockNode floor nowMs db row = blockNode id nowMs db row := by
  obtain ⟨current, hmem, hsame, hcurrent⟩ := hopen
  have hrelease : releaseParentBudget floor (settleNode db row.nodeId .blocked nowMs) current nowMs =
      releaseParentBudget id (settleNode db row.nodeId .blocked nowMs) current nowMs :=
    release_floor_eq hfloor hshape haccounts hmem hcurrent _ (by rfl) nowMs
  unfold blockNode
  rw [releaseParentBudget_congr hsame, releaseParentBudget_congr hsame, hrelease]

theorem blockNodes_floor_eq (hshape : GraphShape db) (haccounts : Accounts db)
    {rows : List NodeRow} (hids : (rows.map NodeRow.nodeId).Nodup)
    (hopen : ∀ row ∈ rows, IsOpenRow db row) (nowMs : Int) :
    rows.foldl (blockNode floor nowMs) db = rows.foldl (blockNode id nowMs) db := by
  induction rows generalizing db with
  | nil => rfl
  | cons row rest ih =>
      obtain ⟨hnotIn, hrest⟩ := List.nodup_cons.mp hids
      have hhead := hopen row List.mem_cons_self
      have hmoves : GraphMoves id db (blockNode id nowMs db row) := blockNode_moves hhead nowMs
      rw [List.foldl_cons, List.foldl_cons, blockNode_floor_eq hfloor hshape haccounts hhead]
      refine ih (hshape.of_frame hmoves.frame) (hmoves.accounts hshape haccounts) hrest ?_
      intro other hother
      refine (hopen other (List.mem_cons_of_mem _ hother)).blockNode ?_ nowMs
      intro hsame
      exact hnotIn (hsame ▸ List.mem_map_of_mem hother)

theorem blockDependents_floor_eq (hshape : GraphShape db) (haccounts : Accounts db)
    (nodeId : String) (nowMs : Int) :
    blockDependents floor db nodeId nowMs = blockDependents id db nodeId nowMs :=
  blockNodes_floor_eq hfloor hshape haccounts (openDependents_nodup hshape nodeId)
    (fun _ => openDependents_open) nowMs

/-- A node that ends and the dependents that it blocks. -/
theorem closeAndBlock_floor_eq (hshape : GraphShape db) (haccounts : Accounts db) {row : NodeRow}
    (hrow : row ∈ db.nodes) (hopen : row.status.isTerminal = false) (status : NodeStatus)
    (hterminal : status.isTerminal = true) (nowMs : Int) :
    blockDependents floor (releaseParentBudget floor
        (deleteLocksOf (settleNode db row.nodeId status nowMs) row.nodeId) row nowMs)
        row.nodeId nowMs =
      blockDependents id (releaseParentBudget id
        (deleteLocksOf (settleNode db row.nodeId status nowMs) row.nodeId) row nowMs)
        row.nodeId nowMs := by
  have hmoves := close_moves id hrow hopen status hterminal nowMs
  have hrelease : releaseParentBudget floor
      (deleteLocksOf (settleNode db row.nodeId status nowMs) row.nodeId) row nowMs =
        releaseParentBudget id
          (deleteLocksOf (settleNode db row.nodeId status nowMs) row.nodeId) row nowMs :=
    release_floor_eq hfloor hshape haccounts hrow hopen _ (by rfl) nowMs
  rw [hrelease]
  exact blockDependents_floor_eq hfloor (hshape.of_frame hmoves.frame)
    (hmoves.accounts hshape haccounts) row.nodeId nowMs

theorem failNode_floor_eq (hshape : GraphShape db) (haccounts : Accounts db)
    (nodeId workerId : String) (nowMs : Int) :
    failNode floor nodeId workerId nowMs db = failNode id nodeId workerId nowMs db := by
  unfold failNode
  cases howned : ownedNode db nodeId workerId with
  | error e => rfl
  | ok node =>
      obtain ⟨hnode, rfl, hrunning, _⟩ := ownedNode_ok howned
      have hopen : node.status.isTerminal = false := by
        rw [hrunning]
        rfl
      have hsame := closeAndBlock_floor_eq hfloor hshape haccounts hnode hopen .failed rfl nowMs
      exact congrArg (fun db => Except.ok ((), wakeParent db node.parentNodeId nowMs)) hsame

theorem completeNode_floor_eq (hshape : GraphShape db) (haccounts : Accounts db)
    (nodeId workerId : String) (draft : ArtifactDraft) (artifactId : String) (nowMs : Int) :
    completeNode floor nodeId workerId draft artifactId nowMs db =
      completeNode id nodeId workerId draft artifactId nowMs db := by
  unfold completeNode
  cases howned : ownedNode db nodeId workerId with
  | error e => rfl
  | ok node =>
      obtain ⟨hnode, rfl, hrunning, _⟩ := ownedNode_ok howned
      have hopen : node.status.isTerminal = false := by
        rw [hrunning]
        rfl
      have hsame : releaseParentBudget floor (deleteLocksOf (settleNode
          (recordArtifact db (draftedArtifact node draft artifactId) nowMs) node.nodeId .completed
          nowMs) node.nodeId) node nowMs = releaseParentBudget id (deleteLocksOf (settleNode
          (recordArtifact db (draftedArtifact node draft artifactId) nowMs) node.nodeId .completed
          nowMs) node.nodeId) node nowMs :=
        release_floor_eq hfloor hshape haccounts hnode hopen _ (by rfl) nowMs
      show (if _ then _ else _) = (if _ then _ else _)
      rw [hsame]

theorem cancelNode_floor_eq (hshape : GraphShape db) (haccounts : Accounts db) (nodeId : String)
    (nowMs : Int) : cancelNode floor nowMs db nodeId = cancelNode id nowMs db nodeId := by
  unfold cancelNode
  split
  · rfl
  · rename_i row hrow
    obtain ⟨hfind, hopen⟩ := Option.filter_eq_some_iff.mp hrow
    obtain ⟨hmem, rfl⟩ := findNode_some hfind
    exact closeAndBlock_floor_eq hfloor hshape haccounts hmem (by simpa using hopen) .cancelled
      rfl nowMs

theorem cancelNodes_floor_eq (hshape : GraphShape db) (haccounts : Accounts db)
    (ids : List String) (nowMs : Int) :
    ids.foldl (cancelNode floor nowMs) db = ids.foldl (cancelNode id nowMs) db := by
  induction ids generalizing db with
  | nil => rfl
  | cons nodeId rest ih =>
      have hmoves := cancelNode_moves id hshape nodeId nowMs
      rw [List.foldl_cons, List.foldl_cons, cancelNode_floor_eq hfloor hshape haccounts]
      exact ih (hshape.of_frame hmoves.frame) (hmoves.accounts hshape haccounts)

/-- A transaction in which the clamp has no effect. -/
theorem GraphOp.apply_floor_eq (hshape : GraphShape db) (haccounts : Accounts db) (op : GraphOp) :
    op.apply floor db = op.apply id db := by
  cases op with
  | failNode nodeId workerId nowMs =>
      simp only [GraphOp.apply, GraphDatabase.transaction,
        failNode_floor_eq hfloor hshape haccounts]
  | completeNode nodeId workerId draft artifactId nowMs =>
      simp only [GraphOp.apply, GraphDatabase.transaction,
        completeNode_floor_eq hfloor hshape haccounts]
  | cancelSubtree nodeId nowMs =>
      simp only [GraphOp.apply, GraphDatabase.transaction, AgentStore.cancelSubtree,
        cancelNodes_floor_eq hfloor hshape haccounts]
  | _ => rfl

end Clamp

/-! ### Every reachable state -/

theorem GraphOp.accounts (hshape : GraphShape db) (haccounts : Accounts db) (op : GraphOp) :
    Accounts (op.apply id db) :=
  apply_rule hshape (fun _ hmoves => hmoves.accounts hshape haccounts)
    (fun _ _ _ _ _ hok => haccounts.createGraph hshape hok)
    (fun _ _ _ _ _ _ _ _ _ _ hspawned => haccounts.spawnChild hshape hspawned) op

/-- Every node and every kind of budget, and the bounds of the ledger. -/
structure ReservationsBalance (db : GraphDatabase) : Prop where
  reserved : ∀ node ∈ db.nodes, ∀ kind,
    reservedOf db node.nodeId kind = openBudget db.nodes node.nodeId kind
  bound : ∀ entry ∈ db.ledger, entry.reserved + entry.consumed ≤ entry.maximum

theorem Accounts.balances (haccounts : Accounts db) : ReservationsBalance db := by
  refine ⟨?_, haccounts.bound⟩
  intro node _ kind
  unfold reservedOf
  cases hfind : db.ledger.find? fun row => row.nodeId = node.nodeId && row.budgetKind = kind with
  | some entry =>
      have his := List.find?_some hfind
      simp only [Bool.and_eq_true, decide_eq_true_eq] at his
      have hbalance := haccounts.balance entry (List.mem_of_find?_eq_some hfind)
      rw [his.1, his.2] at hbalance
      exact hbalance
  | none =>
      -- without a row of the kind no child of the node has a budget of it
      have hnone := List.find?_eq_none.mp hfind
      symm
      apply List.sum_eq_zero
      intro share hshare
      obtain ⟨row, hrow, rfl⟩ := List.mem_map.mp hshare
      unfold budgetShare
      split
      · rename_i hchild
        rw [Dict.getD_of_not_mem, Nat.cast_zero]
        intro hin
        obtain ⟨budget, hbudget, rfl⟩ := List.mem_map.mp hin
        obtain ⟨entry, hentry, hat, hkind⟩ :=
          haccounts.covered row hrow node.nodeId hchild.1 budget hbudget
        exact hnone entry hentry (by simp [hat, hkind])
      · rfl

theorem clampZero_of_nonneg (amount : Int) (hamount : 0 ≤ amount) : clampZero amount = amount :=
  max_eq_right hamount

/-- In every run the ledger balances with the open children, and the run without the
clamp goes through the same states. -/
theorem reservations_balance (ops : List GraphOp) :
    Always (GraphOp.step clampZero) ReservationsBalance ops {} ∧
      Along (GraphOp.step clampZero) (fun db op => op.apply clampZero db = op.apply id db) ops {} := by
  have hkeep : ∀ db op after, GraphShape db ∧ Accounts db →
      GraphOp.step clampZero db op = some after → GraphShape after ∧ Accounts after := by
    rintro db op after ⟨hshape, haccounts⟩ hstep
    cases hstep
    refine ⟨GraphOp.shape hshape op, ?_⟩
    rw [GraphOp.apply_floor_eq clampZero_of_nonneg hshape haccounts]
    exact GraphOp.accounts hshape haccounts op
  constructor
  · exact always_of_invariant (C := fun _ _ => True) (fun db op after hinv _ => hkeep db op after hinv)
      (fun db hinv => hinv.2.balances) ⟨.empty, .empty⟩ (along_of_forall (fun _ _ => trivial) ops _)
  · exact along_of_invariant (C := fun _ _ => True) (fun db op after hinv _ => hkeep db op after hinv)
      (fun db op hinv _ => GraphOp.apply_floor_eq clampZero_of_nonneg hinv.1 hinv.2 op)
      ⟨.empty, .empty⟩ (along_of_forall (fun _ _ => trivial) ops _)

end Codex2Lark
