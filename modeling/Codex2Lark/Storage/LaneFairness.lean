import Codex2Lark.Storage.TaskLimits
import Mathlib.Data.List.Lex

/-!
Fairness of the task queue between the lanes of one level: the tenants, the apps of a
tenant, the groups of an app. A lane is identified by its scope in the lane table,
which joins the identifiers with a separator that they may contain themselves.
-/

namespace Codex2Lark

open Lib TaskQueue

namespace TaskQueue

/-! ### The order of the candidates -/

theorem taskLe_iff (a b : TaskRow) : taskLe a b = true ↔
    b.priority < a.priority ∨ a.priority = b.priority ∧
      (a.createdAtMs < b.createdAtMs ∨ a.createdAtMs = b.createdAtMs ∧ a.taskId ≤ b.taskId) := by
  unfold taskLe
  by_cases hpriority : a.priority = b.priority
  · by_cases hcreated : a.createdAtMs = b.createdAtMs
    · simp [hpriority, hcreated]
    · simp [hpriority, hcreated]
  · simp [hpriority]

theorem taskLe_total (a b : TaskRow) : taskLe a b = true ∨ taskLe b a = true := by
  rw [taskLe_iff, taskLe_iff]
  rcases lt_trichotomy a.priority b.priority with hlt | heq | hgt
  · exact .inr (.inl hlt)
  · rcases lt_trichotomy a.createdAtMs b.createdAtMs with hlt | hsame | hgt
    · exact .inl (.inr ⟨heq, .inl hlt⟩)
    · rcases String.le_total a.taskId b.taskId with hid | hid
      · exact .inl (.inr ⟨heq, .inr ⟨hsame, hid⟩⟩)
      · exact .inr (.inr ⟨heq.symm, .inr ⟨hsame.symm, hid⟩⟩)
    · exact .inr (.inr ⟨heq.symm, .inl hgt⟩)
  · exact .inl (.inl hgt)

theorem taskLe_trans {a b c : TaskRow} (hab : taskLe a b = true) (hbc : taskLe b c = true) :
    taskLe a c = true := by
  rw [taskLe_iff] at hab hbc ⊢
  rcases hab with hab | ⟨hab, hrest⟩
  · rcases hbc with hbc | ⟨hbc, _⟩
    · exact .inl (hbc.trans hab)
    · exact .inl (hbc ▸ hab)
  · rcases hbc with hbc | ⟨hbc, hrest'⟩
    · exact .inl (hab ▸ hbc)
    · refine .inr ⟨hab.trans hbc, ?_⟩
      rcases hrest with hlt | ⟨hsame, hid⟩
      · rcases hrest' with hlt' | ⟨hsame', _⟩
        · exact .inl (hlt.trans hlt')
        · exact .inl (hsame' ▸ hlt)
      · rcases hrest' with hlt' | ⟨hsame', hid'⟩
        · exact .inl (hsame ▸ hlt')
        · exact .inr ⟨hsame.trans hsame', String.le_trans hid hid'⟩

theorem candidateLe_iff (lanes : List LaneRow) (a b : TaskRow) : candidateLe lanes a b = true ↔
    servedKey lanes a < servedKey lanes b ∨
      servedKey lanes a = servedKey lanes b ∧ taskLe a b = true := by
  unfold candidateLe
  by_cases hsame : servedKey lanes a = servedKey lanes b
  · simp [hsame]
  · simp [hsame]

instance (lanes : List LaneRow) : Std.Total (fun a b : TaskRow => candidateLe lanes a b = true) where
  total a b := by
    rw [candidateLe_iff, candidateLe_iff]
    rcases lt_trichotomy (servedKey lanes a) (servedKey lanes b) with hlt | heq | hgt
    · exact .inl (.inl hlt)
    · exact (taskLe_total a b).imp (fun h => .inr ⟨heq, h⟩) fun h => .inr ⟨heq.symm, h⟩
    · exact .inr (.inl hgt)

instance (lanes : List LaneRow) : IsTrans TaskRow (fun a b => candidateLe lanes a b = true) where
  trans a b c hab hbc := by
    rw [candidateLe_iff] at hab hbc ⊢
    rcases hab with hab | ⟨hab, hrest⟩ <;> rcases hbc with hbc | ⟨hbc, hrest'⟩
    · exact .inl (hab.trans hbc)
    · exact .inl (hbc ▸ hab)
    · exact .inl (hab ▸ hbc)
    · exact .inr ⟨hab.trans hbc, taskLe_trans hrest hrest'⟩

/-- The picked candidate comes first among all of them. -/
theorem nextCandidate_first {limits : TaskConcurrencyLimits} {nowMs : Int} {db : Database}
    {task other : TaskRow} (hnext : nextCandidate limits nowMs db = some task)
    (hmem : other ∈ db.tasks) (hcandidate : IsCandidate limits nowMs db.tasks other) :
    task = other ∨ candidateLe db.lanes task other = true := by
  unfold nextCandidate at hnext
  let candidates := (db.tasks.filter fun task => isSessionHead db.tasks nowMs task &&
    withinLimits limits db.tasks nowMs task).insertionSort fun a b => candidateLe db.lanes a b
  have hsorted : candidates.Pairwise fun a b => candidateLe db.lanes a b = true :=
    List.pairwise_insertionSort _ _
  have hin : other ∈ candidates := by
    rw [List.mem_insertionSort, List.mem_filter, Bool.and_eq_true]
    exact ⟨hmem, hcandidate⟩
  obtain ⟨rest, hlist⟩ := List.head?_eq_some_iff.mp hnext
  have hcons : candidates = task :: rest := hlist
  rw [hcons] at hsorted hin
  rcases List.mem_cons.mp hin with hsame | hrest
  · exact .inl hsame.symm
  · exact .inr ((List.pairwise_cons.mp hsorted).1 other hrest)

/-! ### The lane table -/

/-- The scopes that a pick of the task moves. -/
def scopesOf (task : TaskRow) : List (String × String) :=
  [("tenant", task.tenantKey), ("app", appLaneKey task), ("session", task.sessionKey)] ++
    (task.groupId.map fun groupId => ("group", groupLaneKey task groupId)).toList

def isLane (kind key : String) (row : LaneRow) : Bool :=
  row.scopeKind = kind && row.scopeKey = key

theorem lastServed_cons (row : LaneRow) (lanes : List LaneRow) (kind key : String) :
    lastServed (row :: lanes) kind key =
      if isLane kind key row then row.lastServedSequence else lastServed lanes kind key := by
  unfold lastServed
  rw [List.find?_cons]
  cases hrow : isLane kind key row with
  | true =>
      have hmatch : (row.scopeKind = kind && row.scopeKey = key : Bool) = true := hrow
      simp [hmatch]
  | false =>
      have hmatch : (row.scopeKind = kind && row.scopeKey = key : Bool) = false := hrow
      simp [hmatch]

theorem isLane_eq {row : LaneRow} {kind key kind' key' : String} (hrow : isLane kind key row = true) :
    isLane kind' key' row = decide ((kind, key) = (kind', key')) := by
  simp only [isLane, Bool.and_eq_true, decide_eq_true_eq] at hrow ⊢
  rw [hrow.1, hrow.2]
  simp

/-- Updating the rows of one scope. -/
theorem lastServed_update (sequence : Nat) (nowMs : Int) (lanes : List LaneRow)
    (laneKind laneKey kind key : String) :
    lastServed (Table.update (isLane laneKind laneKey)
      (fun row => { row with lastServedSequence := sequence, updatedAtMs := nowMs }) lanes) kind key =
      if (laneKind, laneKey) = (kind, key) ∧ lanes.any (isLane laneKind laneKey) then sequence
      else lastServed lanes kind key := by
  induction lanes with
  | nil => simp [Table.update]
  | cons row rest ih =>
      rw [Table.update_cons, lastServed_cons, lastServed_cons, ih, List.any_cons]
      cases hrow : isLane laneKind laneKey row with
      | true =>
          have hchanged : isLane kind key
              { row with lastServedSequence := sequence, updatedAtMs := nowMs } =
                decide ((laneKind, laneKey) = (kind, key)) := isLane_eq hrow
          by_cases hsame : (laneKind, laneKey) = (kind, key)
          · simp [hchanged, hsame]
          · simp [hchanged, isLane_eq hrow, hsame]
      | false =>
          cases hother : isLane kind key row with
          | true =>
              have hdiffers : ¬ (laneKind, laneKey) = (kind, key) := by
                intro hsame
                obtain ⟨rfl, rfl⟩ := Prod.mk.inj hsame
                rw [hother] at hrow
                cases hrow
              simp [hother, hdiffers]
          | false => simp [hother]

/-- Appending a row for a scope. -/
theorem lastServed_append (lanes : List LaneRow) (row : LaneRow) (kind key : String) :
    lastServed (lanes ++ [row]) kind key =
      if lanes.any (isLane kind key) then lastServed lanes kind key
      else if isLane kind key row then row.lastServedSequence else 0 := by
  induction lanes with
  | nil =>
      rw [List.nil_append, lastServed_cons]
      rfl
  | cons head rest ih =>
      rw [List.cons_append, lastServed_cons, lastServed_cons, ih, List.any_cons]
      cases isLane kind key head <;> simp

theorem lastServed_of_none {lanes : List LaneRow} {kind key : String}
    (hnone : lanes.any (isLane kind key) = false) : lastServed lanes kind key = 0 := by
  induction lanes with
  | nil => rfl
  | cons row rest ih =>
      rw [List.any_cons, Bool.or_eq_false_iff] at hnone
      rw [lastServed_cons, hnone.1]
      exact ih hnone.2

theorem lastServed_putLane (sequence : Nat) (nowMs : Int) (lanes : List LaneRow)
    (lane : String × String) (kind key : String) :
    lastServed (putLane sequence nowMs lanes lane) kind key =
      if lane = (kind, key) then sequence else lastServed lanes kind key := by
  obtain ⟨laneKind, laneKey⟩ := lane
  have hput : putLane sequence nowMs lanes (laneKind, laneKey) =
      if lanes.any (isLane laneKind laneKey) then
        Table.update (isLane laneKind laneKey)
          (fun row => { row with lastServedSequence := sequence, updatedAtMs := nowMs }) lanes
      else lanes ++ [⟨laneKind, laneKey, sequence, nowMs⟩] := rfl
  rw [hput]
  cases hexists : lanes.any (isLane laneKind laneKey) with
  | true => simp [lastServed_update, hexists]
  | false =>
      have hnew : isLane kind key ⟨laneKind, laneKey, sequence, nowMs⟩ =
          decide ((laneKind, laneKey) = (kind, key)) := isLane_eq (by simp [isLane])
      simp only [Bool.false_eq_true, if_false, lastServed_append, hnew, decide_eq_true_eq]
      by_cases hsame : (laneKind, laneKey) = (kind, key)
      · obtain ⟨rfl, rfl⟩ := Prod.mk.inj hsame
        simp [hexists]
      · cases hothers : lanes.any (isLane kind key) with
        | true => simp [hsame]
        | false => simp [hsame, lastServed_of_none hothers]

/-- After a pick the scopes of the picked task are the last served ones. -/
theorem lastServed_advanceLanes (task : TaskRow) (nowMs : Int) (db : Database) (kind key : String) :
    lastServed (advanceLanes task nowMs db).lanes kind key =
      if (kind, key) ∈ scopesOf task then db.schedulerSequence + 1
      else lastServed db.lanes kind key := by
  have hfold : ∀ (scopes : List (String × String)) (lanes : List LaneRow),
      lastServed (scopes.foldl (putLane (db.schedulerSequence + 1) nowMs) lanes) kind key =
        if (kind, key) ∈ scopes then db.schedulerSequence + 1 else lastServed lanes kind key := by
    intro scopes
    induction scopes with
    | nil => simp
    | cons scope rest ih =>
        intro lanes
        rw [List.foldl_cons, ih, lastServed_putLane]
        by_cases hrest : (kind, key) ∈ rest
        · simp [hrest]
        · by_cases hhead : scope = (kind, key)
          · simp [hhead]
          · simp [hrest, hhead, eq_comm]
  exact hfold (scopesOf task) db.lanes

end TaskQueue

/-! ### Lanes and selections -/

inductive Lane where
  | tenant (tenantKey : String)
  | app (tenantKey appId : String)
  | group (tenantKey appId groupId : String)
deriving DecidableEq, Repr

namespace Lane

/-- The task belongs to the lane. -/
def holds : Lane → TaskRow → Bool
  | .tenant tenantKey => inTenant tenantKey
  | .app tenantKey appId => inApp tenantKey appId
  | .group tenantKey appId groupId => inGroup tenantKey appId groupId

/-- Different lanes of one level below the same parent. -/
def Siblings : Lane → Lane → Prop
  | .tenant tenantKey, .tenant other => tenantKey ≠ other
  | .app tenantKey appId, .app otherTenant other => tenantKey = otherTenant ∧ appId ≠ other
  | .group tenantKey appId groupId, .group otherTenant otherApp other =>
      tenantKey = otherTenant ∧ appId = otherApp ∧ groupId ≠ other
  | _, _ => False

/-- The row of the lane table that the lane uses. -/
def scope : Lane → String × String
  | .tenant tenantKey => ("tenant", tenantKey)
  | .app tenantKey appId => ("app", tenantKey ++ separator ++ appId)
  | .group tenantKey appId groupId =>
      ("group", tenantKey ++ separator ++ appId ++ separator ++ groupId)

end Lane

/-- One selection of a single task: the tables it was made in and its result. -/
structure Selection where
  limits : TaskConcurrencyLimits
  nowMs : Int
  db : Database
  task : TaskRow

namespace Selection

/-- The lane has a task that satisfies every condition of the candidate query. -/
def HasCandidate (selection : Selection) (lane : Lane) : Prop :=
  ∃ task ∈ selection.db.tasks, lane.holds task = true ∧
    IsCandidate selection.limits selection.nowMs selection.db.tasks task

def Serves (selection : Selection) (lane : Lane) : Prop := lane.holds selection.task = true

end Selection

namespace TaskQueue

/-- The selections of the loop of `_select_task_ids`. -/
def selections (limits : TaskConcurrencyLimits) (args : LeaseArgs) :
    Nat → Database → List Selection
  | 0, _ => []
  | rounds + 1, db =>
      match nextCandidate limits args.nowMs db with
      | none => []
      | some task =>
          ⟨limits, args.nowMs, db, task⟩ :: selections limits args rounds
            (advanceLanes task args.nowMs
              { db with tasks := leaseTask args task.taskId db.tasks })

theorem selections_ids (limits : TaskConcurrencyLimits) (args : LeaseArgs) (rounds : Nat)
    (db : Database) : (selections limits args rounds db).map (fun s => s.task.taskId) =
      (selectLimited limits args rounds db).1 := by
  induction rounds generalizing db with
  | zero => rfl
  | succ rounds ih =>
      unfold selections selectLimited
      cases nextCandidate limits args.nowMs db with
      | none => rfl
      | some task => simp [ih]

/-- The selections of one transaction under limits. -/
def leaseSelections (limits : TaskConcurrencyLimits) (args : LeaseArgs) (db : Database) :
    List Selection :=
  if args.workerId = "" ∨ args.leaseMs ≤ 0 ∨ args.limit = 0 then []
  else
    let swept := { db with tasks := sweepExpired args.nowMs db.tasks }
    selections limits args (min args.limit (limits.globalLimit -
      liveCount swept.tasks args.nowMs fun _ => true)) swept

end TaskQueue

/-- The selections that an operation makes. -/
def StoreOp.selections (db : Database) : StoreOp → List Selection
  | .leaseTasks args (some limits) => leaseSelections limits args db
  | _ => []

/-- The selections of a run, in order. -/
def runSelections : List StoreOp → Database → List Selection
  | [], _ => []
  | op :: ops, db => op.selections db ++ runSelections ops (op.apply db)

/-- Between two selections of a lane while a sibling has a candidate, the sibling is
selected. -/
def Fair (selections : List Selection) : Prop :=
  ∀ waiting busy : Lane, Lane.Siblings waiting busy → ∀ first middle second,
    first :: (middle ++ [second]) <:+: selections → first.Serves busy → second.Serves busy →
    (∀ selection ∈ first :: (middle ++ [second]), selection.HasCandidate waiting) →
    ∃ selection ∈ middle, selection.Serves waiting

/-- The two tasks share a row of the lane table for their apps or their groups only
when they share the lane. -/
def KeysDistinct (a b : TaskRow) : Prop :=
  (appLaneKey a = appLaneKey b → a.tenantKey = b.tenantKey ∧ a.appId = b.appId) ∧
    ∀ groupA groupB, a.groupId = some groupA → b.groupId = some groupB →
      groupLaneKey a groupA = groupLaneKey b groupB →
      a.tenantKey = b.tenantKey ∧ a.appId = b.appId ∧ groupA = groupB

def LaneKeysDistinct (tasks : List TaskRow) : Prop :=
  ∀ a ∈ tasks, ∀ b ∈ tasks, KeysDistinct a b

/-- An admitted task brings no lane whose row another lane of the queue already uses. -/
def AdmitsOwnLanes (db : Database) : StoreOp → Prop
  | .admitEvent event command _ taskId _ nowMs =>
      ∀ task ∈ db.tasks, KeysDistinct (admittedRow event command taskId 0 nowMs) task
  | _ => True

instance (a b : TaskRow) : Decidable (KeysDistinct a b) :=
  decidable_of_iff
    ((appLaneKey a = appLaneKey b → a.tenantKey = b.tenantKey ∧ a.appId = b.appId) ∧
      ∀ groupA ∈ a.groupId, ∀ groupB ∈ b.groupId, groupLaneKey a groupA = groupLaneKey b groupB →
        a.tenantKey = b.tenantKey ∧ a.appId = b.appId ∧ groupA = groupB)
    ⟨fun h => ⟨h.1, fun groupA groupB ha hb => h.2 groupA ha groupB hb⟩,
      fun h => ⟨h.1, fun groupA ha groupB hb => h.2 groupA groupB ha hb⟩⟩

instance (db : Database) (op : StoreOp) : Decidable (AdmitsOwnLanes db op) := by
  unfold AdmitsOwnLanes
  split <;> infer_instance

theorem KeysDistinct.symm {a b : TaskRow} (h : KeysDistinct a b) : KeysDistinct b a := by
  refine ⟨fun hkey => ?_, fun groupB groupA hb ha hkey => ?_⟩
  · obtain ⟨htenant, happ⟩ := h.1 hkey.symm
    exact ⟨htenant.symm, happ.symm⟩
  · obtain ⟨htenant, happ, hgroup⟩ := h.2 groupA groupB ha hb hkey.symm
    exact ⟨htenant.symm, happ.symm, hgroup.symm⟩

theorem KeysDistinct.self (task : TaskRow) : KeysDistinct task task := by
  refine ⟨fun _ => ⟨rfl, rfl⟩, fun groupA groupB ha hb _ => ⟨rfl, rfl, ?_⟩⟩
  exact Option.some.inj (ha.symm.trans hb)

theorem KeysDistinct.congr {a a' b b' : TaskRow} (h : KeysDistinct a b) (ha : SameTask a a')
    (hb : SameTask b b') : KeysDistinct a' b' := by
  unfold KeysDistinct appLaneKey groupLaneKey appLaneKey at *
  rw [← ha.tenantKey, ← ha.appId, ← ha.groupId, ← hb.tenantKey, ← hb.appId, ← hb.groupId]
  exact h

theorem LaneKeysDistinct.of_same {tasks after : List TaskRow} (h : LaneKeysDistinct tasks)
    (hsame : ∀ row ∈ after, ∃ old ∈ tasks, SameTask old row) : LaneKeysDistinct after := by
  intro a ha b hb
  obtain ⟨oldA, holdA, hsameA⟩ := hsame a ha
  obtain ⟨oldB, holdB, hsameB⟩ := hsame b hb
  exact (h oldA holdA oldB holdB).congr hsameA hsameB

theorem LaneKeysDistinct.update {tasks : List TaskRow} (h : LaneKeysDistinct tasks)
    {cond : TaskRow → Bool} {change : TaskRow → TaskRow}
    (hsame : ∀ task, SameTask task (change task)) :
    LaneKeysDistinct (Table.update cond change tasks) := by
  refine h.of_same fun row hrow => ?_
  rcases Table.mem_update_cases hrow with ⟨hold, _⟩ | ⟨old, hold, _, rfl⟩
  · exact ⟨row, hold, .refl row⟩
  · exact ⟨old, hold, hsame old⟩

theorem LaneKeysDistinct.sweepExpired {tasks : List TaskRow} (h : LaneKeysDistinct tasks)
    (nowMs : Int) : LaneKeysDistinct (sweepExpired nowMs tasks) := by
  refine h.of_same fun row hrow => ?_
  rw [sweepExpired_eq] at hrow
  obtain ⟨old, hold, rfl⟩ := List.mem_map.mp hrow
  exact ⟨old, hold, sweptRow_same nowMs old⟩

/-! ### Every selection sees the lanes that the one before left -/

/-- Selections from one lane table and sequence number to another. -/
inductive Chain : List LaneRow → Nat → List Selection → List LaneRow → Nat → Prop
  | nil (lanes : List LaneRow) (sequence : Nat) : Chain lanes sequence [] lanes sequence
  | cons {rest : List Selection} {lanes : List LaneRow} {sequence : Nat} (selection : Selection)
      (hnext : nextCandidate selection.limits selection.nowMs selection.db = some selection.task)
      (hrest : Chain (advanceLanes selection.task selection.nowMs selection.db).lanes
        (selection.db.schedulerSequence + 1) rest lanes sequence) :
      Chain selection.db.lanes selection.db.schedulerSequence (selection :: rest) lanes sequence

namespace Chain

variable {lanes lanes' middleLanes : List LaneRow} {sequence sequence' middleSequence : Nat}
  {first second : List Selection}

theorem append (hfirst : Chain lanes sequence first middleLanes middleSequence)
    (hsecond : Chain middleLanes middleSequence second lanes' sequence') :
    Chain lanes sequence (first ++ second) lanes' sequence' := by
  induction hfirst with
  | nil lanes sequence => exact hsecond
  | cons selection hnext hrest ih => exact .cons selection hnext (ih hsecond)

theorem split (hchain : Chain lanes sequence (first ++ second) lanes' sequence') :
    ∃ middleLanes middleSequence, Chain lanes sequence first middleLanes middleSequence ∧
      Chain middleLanes middleSequence second lanes' sequence' := by
  induction first generalizing lanes sequence with
  | nil => exact ⟨lanes, sequence, .nil lanes sequence, hchain⟩
  | cons selection rest ih =>
      rw [List.cons_append] at hchain
      cases hchain with
      | cons _ hnext hrest =>
          obtain ⟨middleLanes, middleSequence, hbefore, hafter⟩ := ih hrest
          exact ⟨middleLanes, middleSequence, .cons selection hnext hbefore, hafter⟩

/-- No lane was served later than the last selection. -/
theorem bounded (hchain : Chain lanes sequence first lanes' sequence')
    (hbound : ∀ kind key, lastServed lanes kind key ≤ sequence) :
    ∀ kind key, lastServed lanes' kind key ≤ sequence' := by
  induction hchain with
  | nil lanes sequence => exact hbound
  | cons selection hnext hrest ih =>
      refine ih fun kind key => ?_
      rw [lastServed_advanceLanes]
      split
      · exact le_rfl
      · exact (hbound kind key).trans (Nat.le_succ _)

/-- A lane is never set back. -/
theorem mono (hchain : Chain lanes sequence first lanes' sequence')
    (hbound : ∀ kind key, lastServed lanes kind key ≤ sequence) (kind key : String) :
    lastServed lanes kind key ≤ lastServed lanes' kind key := by
  induction hchain with
  | nil lanes sequence => exact le_rfl
  | cons selection hnext hrest ih =>
      have hstep : ∀ kind key, lastServed selection.db.lanes kind key ≤ lastServed
          (advanceLanes selection.task selection.nowMs selection.db).lanes kind key ∧
          lastServed (advanceLanes selection.task selection.nowMs selection.db).lanes kind key ≤
            selection.db.schedulerSequence + 1 := by
        intro kind key
        have hbefore := hbound kind key
        rw [lastServed_advanceLanes]
        split
        · exact ⟨by omega, le_rfl⟩
        · exact ⟨le_rfl, by omega⟩
      exact (hstep kind key).1.trans (ih fun kind key => (hstep kind key).2)

/-- A lane that no selection moves stays where it is. -/
theorem kept (hchain : Chain lanes sequence first lanes' sequence') {kind key : String}
    (hunmoved : ∀ selection ∈ first, (kind, key) ∉ scopesOf selection.task) :
    lastServed lanes' kind key = lastServed lanes kind key := by
  induction hchain with
  | nil lanes sequence => rfl
  | cons selection hnext hrest ih =>
      rw [ih fun later hlater => hunmoved later (List.mem_cons_of_mem _ hlater),
        lastServed_advanceLanes, if_neg (hunmoved selection List.mem_cons_self)]

end Chain

namespace Lane

variable {a b : Lane} {task other : TaskRow}

theorem Siblings.disjoint (h : Siblings a b) (ha : a.holds task = true) : b.holds task = false := by
  cases a <;> cases b <;>
    simp_all [Siblings, holds, inTenant, inApp, inGroup]

theorem scope_mem (h : a.holds task = true) : a.scope ∈ scopesOf task := by
  cases a with
  | tenant tenantKey =>
      obtain rfl : task.tenantKey = tenantKey := by simpa [holds, inTenant] using h
      simp [scope, scopesOf]
  | app tenantKey appId =>
      obtain ⟨rfl, rfl⟩ : task.tenantKey = tenantKey ∧ task.appId = appId := by
        simpa [holds, inApp] using h
      simp [scope, scopesOf, appLaneKey]
  | group tenantKey appId groupId =>
      obtain ⟨⟨rfl, rfl⟩, hgroup⟩ :
          (task.tenantKey = tenantKey ∧ task.appId = appId) ∧ task.groupId = some groupId := by
        simpa [holds, inGroup] using h
      simp [scope, scopesOf, hgroup, groupLaneKey, appLaneKey]

/-- With distinct keys only the lane's own tasks move its row. -/
theorem holds_of_scope (hdistinct : KeysDistinct other task) (ha : a.holds other = true)
    (hscope : a.scope ∈ scopesOf task) : a.holds task = true := by
  cases a with
  | tenant tenantKey =>
      have htenant : tenantKey = task.tenantKey := by
        simpa [scope, scopesOf] using hscope
      simp [holds, inTenant, htenant]
  | app tenantKey appId =>
      obtain ⟨rfl, rfl⟩ : other.tenantKey = tenantKey ∧ other.appId = appId := by
        simpa [holds, inApp] using ha
      have hkey : appLaneKey other = appLaneKey task := by
        simpa [scope, scopesOf, appLaneKey] using hscope
      obtain ⟨htenant, happ⟩ := hdistinct.1 hkey
      simp [holds, inApp, htenant, happ]
  | group tenantKey appId groupId =>
      obtain ⟨⟨rfl, rfl⟩, hgroup⟩ :
          (other.tenantKey = tenantKey ∧ other.appId = appId) ∧ other.groupId = some groupId := by
        simpa [holds, inGroup] using ha
      obtain ⟨taskGroup, htask, hkey⟩ : ∃ taskGroup, task.groupId = some taskGroup ∧
          groupLaneKey task taskGroup = groupLaneKey other groupId := by
        simpa [scope, scopesOf, groupLaneKey, appLaneKey] using hscope
      obtain ⟨htenant, happ, hsame⟩ := hdistinct.2 groupId taskGroup hgroup htask hkey.symm
      simp [holds, inGroup, htenant, happ, htask, hsame]

/-- The order of the candidates at the level of the lanes. -/
theorem Siblings.servedKey_lt (h : Siblings a b) (ha : a.holds task = true)
    (hb : b.holds other = true) {lanes : List LaneRow}
    (hlt : lastServed lanes a.scope.1 a.scope.2 < lastServed lanes b.scope.1 b.scope.2) :
    servedKey lanes task < servedKey lanes other := by
  cases a <;> cases b <;> simp only [Siblings] at h
  case tenant.tenant tenantKey tenantKey' =>
    obtain rfl : task.tenantKey = tenantKey := by simpa [holds, inTenant] using ha
    obtain rfl : other.tenantKey = tenantKey' := by simpa [holds, inTenant] using hb
    exact List.cons_lt_cons_iff.mpr (.inl hlt)
  case app.app tenantKey appId tenantKey' appId' =>
    obtain ⟨rfl, rfl⟩ : task.tenantKey = tenantKey ∧ task.appId = appId := by
      simpa [holds, inApp] using ha
    obtain ⟨rfl, rfl⟩ : other.tenantKey = tenantKey' ∧ other.appId = appId' := by
      simpa [holds, inApp] using hb
    refine List.cons_lt_cons_iff.mpr (.inr ⟨by rw [h.1], ?_⟩)
    exact List.cons_lt_cons_iff.mpr (.inl hlt)
  case group.group tenantKey appId groupId tenantKey' appId' groupId' =>
    obtain ⟨⟨rfl, rfl⟩, hgroup⟩ :
        (task.tenantKey = tenantKey ∧ task.appId = appId) ∧ task.groupId = some groupId := by
      simpa [holds, inGroup] using ha
    obtain ⟨⟨rfl, rfl⟩, hgroup'⟩ :
        (other.tenantKey = tenantKey' ∧ other.appId = appId') ∧ other.groupId = some groupId' := by
      simpa [holds, inGroup] using hb
    have hkey : appLaneKey task = appLaneKey other := by
      unfold appLaneKey
      rw [h.1, h.2.1]
    refine List.cons_lt_cons_iff.mpr (.inr ⟨by rw [h.1], ?_⟩)
    refine List.cons_lt_cons_iff.mpr (.inr ⟨by rw [hkey], ?_⟩)
    refine List.cons_lt_cons_iff.mpr (.inl ?_)
    simpa [hgroup, hgroup', groupLaneKey, appLaneKey, scope] using hlt

end Lane

/-! ### Fairness of the selections -/

theorem Chain.picked {lanes lanes' : List LaneRow} {sequence sequence' : Nat}
    {trace : List Selection} (hchain : Chain lanes sequence trace lanes' sequence') :
    ∀ selection ∈ trace,
      nextCandidate selection.limits selection.nowMs selection.db = some selection.task := by
  induction hchain with
  | nil lanes sequence => simp
  | cons selection hnext hrest ih => exact List.forall_mem_cons.mpr ⟨hnext, ih⟩

/-- A selection that does not serve the waiting lane leaves its row alone. -/
theorem Selection.unmoved {selection : Selection} {waiting : Lane}
    (hnext : nextCandidate selection.limits selection.nowMs selection.db = some selection.task)
    (hdistinct : LaneKeysDistinct selection.db.tasks) (hcandidate : selection.HasCandidate waiting)
    (hserves : ¬ selection.Serves waiting) : waiting.scope ∉ scopesOf selection.task := by
  intro hscope
  obtain ⟨task, htask, hholds, _⟩ := hcandidate
  exact hserves (Lane.holds_of_scope (hdistinct task htask _ (nextCandidate_some hnext).1) hholds
    hscope)

theorem fair_of_chain {lanes lanes' : List LaneRow} {sequence sequence' : Nat}
    {trace : List Selection} (hchain : Chain lanes sequence trace lanes' sequence')
    (hbound : ∀ kind key, lastServed lanes kind key ≤ sequence)
    (hdistinct : ∀ selection ∈ trace, LaneKeysDistinct selection.db.tasks) : Fair trace := by
  intro waiting busy hsiblings first middle second hinfix hfirst hsecond hcandidate
  by_contra hnever
  have hunserved : ∀ selection ∈ middle, ¬ selection.Serves waiting :=
    fun selection hmem hserves => hnever ⟨selection, hmem, hserves⟩
  have hdisjoint : ∀ {selection : Selection}, selection.Serves busy → ¬ selection.Serves waiting := by
    intro selection hbusy hwaiting
    have hneither := hsiblings.disjoint hwaiting
    rw [hbusy] at hneither
    cases hneither
  obtain ⟨before, rest, rfl⟩ := hinfix
  have hpicked := hchain.picked
  obtain ⟨_, _, hprefix, _⟩ := hchain.split
  obtain ⟨_, _, hbefore, hwindow⟩ := hprefix.split
  have hboundFirst := hbefore.bounded hbound
  cases hwindow with
  | cons _ hnextFirst hrest =>
      obtain ⟨_, _, hmiddle, hlast⟩ := hrest.split
      cases hlast with
      | cons _ hnextSecond _ =>
          have hmoved (kind key : String) : lastServed
              (advanceLanes first.task first.nowMs first.db).lanes kind key ≤
                first.db.schedulerSequence + 1 := by
            rw [lastServed_advanceLanes]
            split
            · exact le_rfl
            · exact (hboundFirst kind key).trans (Nat.le_succ _)
          -- the busy lane was served last at the first selection
          have hbusy : first.db.schedulerSequence + 1 ≤
              lastServed second.db.lanes busy.scope.1 busy.scope.2 := by
            have hserved := hmiddle.mono hmoved busy.scope.1 busy.scope.2
            rwa [lastServed_advanceLanes, if_pos (Lane.scope_mem hfirst)] at hserved
          -- no selection since then moved the waiting lane
          have hwaiting : lastServed second.db.lanes waiting.scope.1 waiting.scope.2 ≤
              first.db.schedulerSequence := by
            have hstill : lastServed second.db.lanes waiting.scope.1 waiting.scope.2 = lastServed
                (advanceLanes first.task first.nowMs first.db).lanes waiting.scope.1
                waiting.scope.2 := hmiddle.kept
              fun selection hmem => Selection.unmoved (hpicked selection (by simp [hmem]))
                (hdistinct selection (by simp [hmem])) (hcandidate selection (by simp [hmem]))
                (hunserved selection hmem)
            have hfirstStill := Selection.unmoved hnextFirst (hdistinct first (by simp))
              (hcandidate first List.mem_cons_self) (hdisjoint hfirst)
            rw [hstill, lastServed_advanceLanes, if_neg hfirstStill]
            exact hboundFirst _ _
          obtain ⟨task, htask, hholds, hready⟩ := hcandidate second (by simp)
          have hbefore : servedKey second.db.lanes task < servedKey second.db.lanes second.task :=
            hsiblings.servedKey_lt hholds hsecond (by omega)
          rcases nextCandidate_first hnextSecond htask hready with hsame | hle
          · rw [hsame] at hbefore
            exact absurd hbefore (lt_irrefl _)
          · rcases (candidateLe_iff _ _ _).mp hle with hlt | ⟨heq, _⟩
            · exact absurd hbefore (lt_asymm hlt)
            · rw [heq] at hbefore
              exact absurd hbefore (lt_irrefl _)

/-! ### The selections of a run -/

theorem selections_chain (limits : TaskConcurrencyLimits) (args : LeaseArgs) (rounds : Nat)
    (db : Database) : Chain db.lanes db.schedulerSequence
      (selections limits args rounds db) (selectLimited limits args rounds db).2.lanes
      (selectLimited limits args rounds db).2.schedulerSequence := by
  induction rounds generalizing db with
  | zero => exact .nil _ _
  | succ rounds ih =>
      unfold selections selectLimited
      cases hnext : nextCandidate limits args.nowMs db with
      | none => exact .nil _ _
      | some task =>
          have hrest := ih (advanceLanes task args.nowMs
            { db with tasks := leaseTask args task.taskId db.tasks })
          exact .cons ⟨limits, args.nowMs, db, task⟩ hnext hrest

theorem selections_distinct (limits : TaskConcurrencyLimits) (args : LeaseArgs) (rounds : Nat)
    (db : Database) (hdistinct : LaneKeysDistinct db.tasks) :
    ∀ selection ∈ selections limits args rounds db, LaneKeysDistinct selection.db.tasks := by
  induction rounds generalizing db with
  | zero => simp [selections]
  | succ rounds ih =>
      unfold selections
      cases hnext : nextCandidate limits args.nowMs db with
      | none => simp
      | some task =>
          refine List.forall_mem_cons.mpr ⟨hdistinct, ih _ ?_⟩
          exact hdistinct.update (leasedRow_same args)

theorem leaseSelections_chain (limits : TaskConcurrencyLimits) (args : LeaseArgs) (db : Database) :
    Chain db.lanes db.schedulerSequence (leaseSelections limits args db)
      (db.committed (leaseTasks args (some limits))).lanes
      (db.committed (leaseTasks args (some limits))).schedulerSequence := by
  by_cases hargs : args.workerId = "" ∨ args.leaseMs ≤ 0 ∨ args.limit = 0
  · have herror : leaseTasks args (some limits) db =
        .error (.valueError "worker_id, lease_ms, and limit must be positive") := by
      unfold leaseTasks
      rw [if_pos hargs]
    rw [Database.committed_error herror]
    unfold leaseSelections
    rw [if_pos hargs]
    exact .nil _ _
  · have hok := leaseTasks.eq_def args (some limits) db
    rw [if_neg hargs] at hok
    rw [Database.committed_ok hok]
    unfold leaseSelections
    rw [if_neg hargs]
    exact selections_chain limits args (min args.limit (limits.globalLimit -
      liveCount (sweepExpired args.nowMs db.tasks) args.nowMs fun _ => true))
      { db with tasks := sweepExpired args.nowMs db.tasks }

/-- The tables that order the lanes. -/
def Database.scheduler (db : Database) : List LaneRow × Nat := (db.lanes, db.schedulerSequence)

/-- Only a selection under limits moves a lane. -/
theorem StoreOp.selections_chain (db : Database) (op : StoreOp) :
    Chain db.lanes db.schedulerSequence (op.selections db) (op.apply db).lanes
      (op.apply db).schedulerSequence := by
  have hquiet {after : Database} (hscheduler : after.scheduler = db.scheduler) :
      Chain db.lanes db.schedulerSequence [] after.lanes after.schedulerSequence := by
    obtain ⟨hlanes, hsequence⟩ := Prod.mk.inj hscheduler
    rw [hlanes, hsequence]
    exact .nil _ _
  cases op with
  | leaseTasks args limits =>
      cases limits with
      | some limits => exact leaseSelections_chain limits args db
      | none =>
          refine hquiet (Database.committed_column Database.scheduler fun leased after hok => ?_)
          unfold TaskQueue.leaseTasks at hok
          split at hok
          · cases hok
          · cases hok
            rfl
  | admitEvent event command acknowledgement taskId outboxId nowMs =>
      refine hquiet (Database.committed_column Database.scheduler fun result after hok => ?_)
      rw [(RuntimeStore.admitEvent_ok hok).1]
      rfl
  | enqueueTaskOutbox taskId draft outboxId nowMs =>
      refine hquiet (Database.committed_column Database.scheduler fun value after hok => ?_)
      rw [RuntimeStore.enqueueTaskOutbox_ok hok]
      rfl
  | requestApproval request outboxId nowMs =>
      refine hquiet (Database.committed_column Database.scheduler fun state after hok => ?_)
      rw [RuntimeStore.requestApproval_ok hok]
      rfl
  | decideApproval args outboxId nowMs =>
      refine hquiet (Database.committed_column Database.scheduler fun result after hok => ?_)
      rw [RuntimeStore.decideApproval_ok hok]
      rfl
  | admitControl args controlId outboxId nowMs =>
      refine hquiet (Database.committed_column Database.scheduler fun result after hok => ?_)
      rw [(RuntimeStore.admitControl_ok hok).1]
      rfl
  | acknowledgeControls taskId controlIds nowMs =>
      refine hquiet ?_
      simp only [StoreOp.apply, RuntimeStore.acknowledgeControls]
      split <;> rfl
  | finishTask args outboxId nowMs =>
      refine hquiet (Database.committed_column Database.scheduler fun value after hok => ?_)
      rw [(finishTask_ok hok).2.2]
      rfl
  | retryTask taskId workerId availableAtMs errorCode nowMs =>
      refine hquiet (Database.committed_column Database.scheduler fun value after hok => ?_)
      rw [retryTask_ok hok]
      rfl
  | deferTask taskId workerId availableAtMs reason nowMs =>
      refine hquiet (Database.committed_column Database.scheduler fun value after hok => ?_)
      rw [deferTask_ok hok]
      rfl
  | startRun args nowMs =>
      refine hquiet (Database.committed_column Database.scheduler fun value after hok => ?_)
      rw [(SessionStore.startRun_ok hok).1]
      rfl
  | appendEvent runId eventType payload nowMs =>
      refine hquiet (Database.committed_column Database.scheduler fun value after hok => ?_)
      rw [SessionStore.appendEvent_ok hok]
      rfl
  | saveCheckpoint checkpoint nowMs =>
      refine hquiet (Database.committed_column Database.scheduler fun value after hok => ?_)
      rw [SessionStore.saveCheckpoint_ok hok]
      rfl
  | discardCheckpoint runId =>
      refine hquiet (Database.committed_column Database.scheduler fun value after hok => ?_)
      rw [SessionStore.discardCheckpoint_ok hok]
      rfl
  | tryFinishWithOutcome runId outcome appliedControlIds nowMs =>
      refine hquiet (Database.committed_column Database.scheduler fun closed after hok => ?_)
      obtain ⟨run, _, _, hcases⟩ := SessionStore.tryFinishWithOutcome_ok hok
      have hinbox : (SessionStore.closingInbox db run.taskId appliedControlIds nowMs).scheduler =
          db.scheduler := by
        unfold SessionStore.closingInbox
        split <;> rfl
      rcases hcases with ⟨_, _, _, rfl⟩ | ⟨_, _, rfl⟩
      · exact hinbox
      · split <;> exact hinbox

theorem StoreOp.selections_distinct {db : Database} (op : StoreOp)
    (hdistinct : LaneKeysDistinct db.tasks) :
    ∀ selection ∈ op.selections db, LaneKeysDistinct selection.db.tasks := by
  cases op with
  | leaseTasks args limits =>
      cases limits with
      | none => exact fun _ hmem => absurd hmem List.not_mem_nil
      | some limits =>
          change ∀ selection ∈ leaseSelections limits args db, LaneKeysDistinct selection.db.tasks
          unfold leaseSelections
          split
          · exact fun _ hmem => absurd hmem List.not_mem_nil
          · exact Codex2Lark.selections_distinct limits args _ _ (hdistinct.sweepExpired args.nowMs)
  | _ => exact fun _ hmem => absurd hmem List.not_mem_nil

structure LanesInvariant (db : Database) : Prop where
  uniqueTasks : (db.tasks.map TaskRow.taskId).Nodup
  distinct : LaneKeysDistinct db.tasks
  bounded : ∀ kind key, lastServed db.lanes kind key ≤ db.schedulerSequence

theorem LanesInvariant.apply {db : Database} (hinv : LanesInvariant db) {op : StoreOp}
    (hop : AdmitsOwnLanes db op) : LanesInvariant (op.apply db) := by
  suffices hdistinct : LaneKeysDistinct (op.apply db).tasks from
    ⟨(taskEffect db op).uniqueTasks hinv.uniqueTasks, hdistinct,
      (op.selections_chain db).bounded hinv.bounded⟩
  have heffect := taskEffect db op
  revert heffect
  generalize (op.apply db).tasks = after
  intro heffect
  cases heffect with
  | same => exact hinv.distinct
  | @admission event command _ taskId _ nowMs eventPk hfresh =>
      have hown : ∀ task ∈ db.tasks,
          KeysDistinct (admittedRow event command taskId eventPk nowMs) task := fun task htask =>
        (hop task htask).congr ⟨rfl, rfl, rfl, rfl, rfl, rfl⟩ (.refl task)
      intro a ha b hb
      rcases List.mem_append.mp ha with ha | ha <;> rcases List.mem_append.mp hb with hb | hb
      · exact hinv.distinct a ha b hb
      · rw [List.mem_singleton.mp hb]
        exact (hown a ha).symm
      · rw [List.mem_singleton.mp ha]
        exact hown b hb
      · rw [List.mem_singleton.mp ha, List.mem_singleton.mp hb]
        exact .self _
  | lease hok => exact hinv.distinct.of_same (leaseTasks_same hinv.uniqueTasks hok)
  | settle taskId workerId change hsame hended => exact hinv.distinct.update hsame

theorem runSelections_chain (ops : List StoreOp) {db : Database} (hinv : LanesInvariant db)
    (hadmits : Along StoreOp.step AdmitsOwnLanes ops db) :
    (∃ lanes sequence, Chain db.lanes db.schedulerSequence (runSelections ops db) lanes sequence) ∧
      ∀ selection ∈ runSelections ops db, LaneKeysDistinct selection.db.tasks := by
  induction ops generalizing db with
  | nil => exact ⟨⟨_, _, .nil _ _⟩, by simp [runSelections]⟩
  | cons op ops ih =>
      obtain ⟨hop, hrest⟩ := (along_cons_of_step rfl).mp hadmits
      obtain ⟨⟨lanes, sequence, hchain⟩, hdistinct⟩ := ih (hinv.apply hop) hrest
      refine ⟨⟨lanes, sequence, (op.selections_chain db).append hchain⟩, ?_⟩
      intro selection hmem
      rcases List.mem_append.mp hmem with hfirst | hlater
      · exact op.selections_distinct hinv.distinct selection hfirst
      · exact hdistinct selection hlater

/-- While no two lanes of the queue share a row of the lane table, a lane that always has
a candidate waits for at most one selection of each sibling. -/
theorem siblings_alternate {ops : List StoreOp}
    (hadmits : Along StoreOp.step AdmitsOwnLanes ops {}) : Fair (runSelections ops {}) := by
  have hstart : LanesInvariant {} :=
    ⟨List.nodup_nil, fun _ ha => absurd ha List.not_mem_nil, fun _ _ => le_rfl⟩
  obtain ⟨⟨lanes, sequence, hchain⟩, hdistinct⟩ := runSelections_chain ops hstart hadmits
  exact fair_of_chain hchain hstart.bounded hdistinct

/-! ### One run against the property -/

instance (selection : Selection) (lane : Lane) : Decidable (selection.HasCandidate lane) :=
  inferInstanceAs (Decidable (∃ task ∈ selection.db.tasks, lane.holds task = true ∧
    isSessionHead selection.db.tasks selection.nowMs task = true ∧
    withinLimits selection.limits selection.db.tasks selection.nowMs task = true))

/-- The busy lane is served first and last, and the waiting lane never. -/
def Overtakes (waiting busy : Lane) (trace : List Selection) : Prop :=
  2 ≤ trace.length ∧ (∀ first ∈ trace.head?, busy.holds first.task = true) ∧
    (∀ second ∈ trace.getLast?, busy.holds second.task = true) ∧
    ∀ selection ∈ trace, selection.HasCandidate waiting ∧ waiting.holds selection.task = false

instance (waiting busy : Lane) (trace : List Selection) : Decidable (Overtakes waiting busy trace) :=
  inferInstanceAs (Decidable (_ ∧ _))

theorem Fair.not_overtaken {trace : List Selection} (hfair : Fair trace) {waiting busy : Lane}
    (hsiblings : Lane.Siblings waiting busy) : ¬ Overtakes waiting busy trace := by
  rintro ⟨hlength, hhead, hlast, hall⟩
  cases trace with
  | nil => simp at hlength
  | cons first rest =>
      obtain ⟨middle, second, rfl⟩ := List.eq_nil_or_concat' rest |>.resolve_left (by
        rintro rfl
        simp at hlength)
      have hsecond : busy.holds second.task = true := hlast second (by simp [List.getLast?_cons])
      obtain ⟨selection, hmem, hserves⟩ := hfair waiting busy hsiblings first middle second
        (List.infix_refl _) (hhead first rfl) hsecond fun selection hmem => (hall selection hmem).1
      have hnever := (hall selection (by simp [hmem])).2
      rw [show waiting.holds selection.task = true from hserves] at hnever
      cases hnever

section Examples

private def mention (eventId tenantKey appId : String) : NormalizedEvent :=
  { eventId, pluginId := "im", eventType := "im.message", tenantKey, appId, occurredAtMs := 0
    receivedAtMs := 0, resourceKind := "message", resourceId := eventId, traceId := eventId }

private def inChat (sessionKey : String) : TaskCommand :=
  { pluginId := "im", commandType := "im.handle_mention", sessionKey, payload := [] }

private def roomy : TaskConcurrencyLimits :=
  ⟨3, 3, 3, 3, by decide, by decide, by decide, by decide⟩

/-- Two tasks of one app and a later one of its sibling: the sibling goes second. -/
theorem siblings_alternate_of_three_tasks :
    (runSelections
      [.admitEvent (mention "first" "tenant" "busy") (inChat "chat-1") none "task-1" "out-1" 0,
        .admitEvent (mention "second" "tenant" "busy") (inChat "chat-2") none "task-2" "out-2" 1,
        .admitEvent (mention "third" "tenant" "waiting") (inChat "chat-3") none "task-3" "out-3" 2,
        .leaseTasks ⟨"worker", 3, 60000, 3⟩ (some roomy)] {}).map (fun s => s.task.taskId) =
      ["task-1", "task-3", "task-2"] ∧
    Fair (runSelections
      [.admitEvent (mention "first" "tenant" "busy") (inChat "chat-1") none "task-1" "out-1" 0,
        .admitEvent (mention "second" "tenant" "busy") (inChat "chat-2") none "task-2" "out-2" 1,
        .admitEvent (mention "third" "tenant" "waiting") (inChat "chat-3") none "task-3" "out-3" 2,
        .leaseTasks ⟨"worker", 3, 60000, 3⟩ (some roomy)] {}) := by
  exact ⟨by decide +kernel, siblings_alternate (along_of_decide (by decide +kernel))⟩

/-- The app of another tenant uses the row of the waiting app, so serving it sets the
waiting app back and the sibling is served twice. -/
theorem shared_lane_row_starves_sibling :
    ¬ Fair (runSelections
      [.admitEvent (mention "first" "t" "busy") (inChat "chat-1") none "task-1" "out-1" 0,
        .admitEvent (mention "second" "t" "busy") (inChat "chat-2") none "task-2" "out-2" 1,
        .admitEvent (mention "third" ("t" ++ separator ++ "x") "a") (inChat "chat-3") none "task-3"
          "out-3" 2,
        .admitEvent (mention "fourth" "t" ("x" ++ separator ++ "a")) (inChat "chat-4") none "task-4"
          "out-4" 3,
        .leaseTasks ⟨"worker", 4, 60000, 3⟩ (some roomy)] {}) := by
  intro hfair
  have hsiblings : Lane.Siblings (.app "t" ("x" ++ separator ++ "a")) (.app "t" "busy") :=
    ⟨rfl, by decide⟩
  exact hfair.not_overtaken hsiblings (by decide +kernel)

end Examples

end Codex2Lark
