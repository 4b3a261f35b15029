import Codex2Lark.Storage.TaskLeasing

/-!
The concurrency limits of the task queue. The queries count live leases only; after
the sweep every leased row is live, whatever the clock of the earlier calls was, so
the limits bound all leased rows.
-/

namespace Codex2Lark

open Lib TaskQueue

/-- The leased rows of a scope, expired or not. -/
def leasedCount (tasks : List TaskRow) (scope : TaskRow → Bool) : Nat :=
  tasks.countP fun task => task.state = .leased && scope task

def inTenant (tenantKey : String) (task : TaskRow) : Bool := task.tenantKey = tenantKey

def inApp (tenantKey appId : String) (task : TaskRow) : Bool :=
  task.tenantKey = tenantKey && task.appId = appId

def inGroup (tenantKey appId groupId : String) (task : TaskRow) : Bool :=
  task.tenantKey = tenantKey && task.appId = appId && task.groupId = some groupId

def inSession (sessionKey : String) (task : TaskRow) : Bool := task.sessionKey = sessionKey

structure ConcurrencyBounds (limits : TaskConcurrencyLimits) (tasks : List TaskRow) : Prop where
  total : leasedCount tasks (fun _ => true) ≤ limits.globalLimit
  tenant : ∀ tenantKey, leasedCount tasks (inTenant tenantKey) ≤ limits.tenantLimit
  app : ∀ tenantKey appId, leasedCount tasks (inApp tenantKey appId) ≤ limits.appLimit
  group : ∀ tenantKey appId groupId,
    leasedCount tasks (inGroup tenantKey appId groupId) ≤ limits.groupLimit
  session : ∀ sessionKey, leasedCount tasks (inSession sessionKey) ≤ 1

/-- The limits that every lease of the run is called with. -/
def LeasesWithin (limits : TaskConcurrencyLimits) : StoreOp → Prop
  | .leaseTasks _ used => used = some limits
  | _ => True

/-- The scope depends on columns that no transaction writes. -/
def Stable (scope : TaskRow → Bool) : Prop :=
  ∀ a b, SameTask a b → scope a = scope b

theorem stable_all : Stable fun _ => true := fun _ _ _ => rfl

theorem stable_inTenant (tenantKey : String) : Stable (inTenant tenantKey) := by
  intro a b hsame
  simp [inTenant, hsame.tenantKey]

theorem stable_inApp (tenantKey appId : String) : Stable (inApp tenantKey appId) := by
  intro a b hsame
  simp [inApp, hsame.tenantKey, hsame.appId]

theorem stable_inGroup (tenantKey appId groupId : String) :
    Stable (inGroup tenantKey appId groupId) := by
  intro a b hsame
  simp [inGroup, hsame.tenantKey, hsame.appId, hsame.groupId]

theorem stable_inSession (sessionKey : String) : Stable (inSession sessionKey) := by
  intro a b hsame
  simp [inSession, hsame.sessionKey]

variable {limits : TaskConcurrencyLimits} {tasks after : List TaskRow} {scope : TaskRow → Bool}

/-! ### Counting -/

/-- Rows that only leave the leased state. -/
theorem leasedCount_le (hscope : Stable scope) {R : TaskRow → TaskRow → Prop}
    (hrows : List.Forall₂ R tasks after) (hsame : ∀ a b, R a b → SameTask a b)
    (hleased : ∀ a b, R a b → b.state = .leased → a.state = .leased) :
    leasedCount after scope ≤ leasedCount tasks scope := by
  refine Table.Forall₂.countP_le ?_ hrows
  intro a b hmove hcounted
  simp only [Bool.and_eq_true, decide_eq_true_eq] at hcounted ⊢
  exact ⟨hleased a b hmove hcounted.1, (hscope a b (hsame a b hmove)).trans hcounted.2⟩

theorem ConcurrencyBounds.of_le (hbounds : ConcurrencyBounds limits tasks)
    (hcount : ∀ scope, Stable scope → leasedCount after scope ≤ leasedCount tasks scope) :
    ConcurrencyBounds limits after :=
  { total := (hcount _ stable_all).trans hbounds.total
    tenant := fun tenantKey => (hcount _ (stable_inTenant tenantKey)).trans (hbounds.tenant tenantKey)
    app := fun tenantKey appId =>
      (hcount _ (stable_inApp tenantKey appId)).trans (hbounds.app tenantKey appId)
    group := fun tenantKey appId groupId =>
      (hcount _ (stable_inGroup tenantKey appId groupId)).trans (hbounds.group tenantKey appId groupId)
    session := fun sessionKey =>
      (hcount _ (stable_inSession sessionKey)).trans (hbounds.session sessionKey) }

/-- A pick adds one to the scopes of the picked row. -/
theorem leasedCount_leaseTask (hscope : Stable scope) (hunique : (tasks.map TaskRow.taskId).Nodup)
    (args : LeaseArgs) {task : TaskRow} (hmem : task ∈ tasks) (hpending : task.state = .pending) :
    leasedCount (leaseTask args task.taskId tasks) scope =
      leasedCount tasks scope + if scope task then 1 else 0 := by
  obtain ⟨before, behind, rfl⟩ := List.append_of_mem hmem
  have hothers : ∀ rows : List TaskRow, task.taskId ∉ rows.map TaskRow.taskId →
      leaseTask args task.taskId rows = rows := by
    intro rows hnot
    refine Table.update_eq_self ?_
    intro row hrow
    have hne : row.taskId ≠ task.taskId := fun h => hnot (h ▸ List.mem_map_of_mem hrow)
    simp [hne]
  rw [List.map_append, List.map_cons, List.nodup_append] at hunique
  obtain ⟨_, hbehind, hdisjoint⟩ := hunique
  have hnotBefore : task.taskId ∉ before.map TaskRow.taskId :=
    fun hin => hdisjoint _ hin _ List.mem_cons_self rfl
  have hsplit : leaseTask args task.taskId (before ++ task :: behind) =
      before ++ leasedRow args task :: behind := by
    have hhead : leaseTask args task.taskId (task :: behind) =
        leasedRow args task :: leaseTask args task.taskId behind := by
      simp [leaseTask_eq, Table.update, hpending]
    have happend : leaseTask args task.taskId (before ++ task :: behind) =
        leaseTask args task.taskId before ++ leaseTask args task.taskId (task :: behind) := by
      simp [leaseTask_eq, Table.update]
    rw [happend, hothers before hnotBefore, hhead, hothers behind (List.nodup_cons.mp hbehind).1]
  have hsame : scope (leasedRow args task) = scope task :=
    (hscope task _ (leasedRow_same args task)).symm
  have hleased : (leasedRow args task).state = .leased := rfl
  rw [hsplit]
  simp only [leasedCount, List.countP_append, List.countP_cons, hpending, hleased, hsame]
  simp
  omega

/-! ### The lease transaction -/

/-- Every lease that the table holds is still running. -/
def AllLive (nowMs : Int) (tasks : List TaskRow) : Prop :=
  ∀ task ∈ tasks, task.state = .leased → leaseLive nowMs task = true

def LeasesExpire (tasks : List TaskRow) : Prop :=
  ∀ task ∈ tasks, task.state = .leased → task.leaseExpiresAtMs.isSome = true

theorem allLive_sweepExpired (nowMs : Int) (hexpire : LeasesExpire tasks) :
    AllLive nowMs (sweepExpired nowMs tasks) := by
  rw [sweepExpired_eq]
  intro task hmem hleased
  obtain ⟨old, hold, rfl⟩ := List.mem_map.mp hmem
  obtain ⟨hsame, hnotExpired⟩ := sweptRow_leased hleased
  rw [hsame] at hleased ⊢
  obtain ⟨expiry, hexpiry⟩ := Option.isSome_iff_exists.mp (hexpire old hold hleased)
  simp only [leaseExpired, leaseLive, hleased, hexpiry] at hnotExpired ⊢
  simpa using hnotExpired

theorem liveCount_eq {nowMs : Int} (hlive : AllLive nowMs tasks) (scope : TaskRow → Bool) :
    liveCount tasks nowMs scope = leasedCount tasks scope := by
  apply List.countP_congr
  intro task hmem
  by_cases hleased : task.state = .leased
  · simp [hlive task hmem hleased, hleased]
  · simp [leaseLive, hleased]

theorem leasedCount_sweepExpired (hscope : Stable scope) (nowMs : Int) (tasks : List TaskRow) :
    leasedCount (sweepExpired nowMs tasks) scope ≤ leasedCount tasks scope := by
  have hrows : List.Forall₂ (fun a b => b = sweptRow nowMs a) tasks (sweepExpired nowMs tasks) := by
    rw [sweepExpired_eq, List.forall₂_map_right_iff]
    exact List.forall₂_same.mpr fun _ _ => rfl
  refine leasedCount_le hscope hrows ?_ ?_
  · rintro a _ rfl
    exact sweptRow_same nowMs a
  · rintro a _ rfl hleased
    rwa [(sweptRow_leased hleased).1] at hleased

theorem allLive_leaseTask {args : LeaseArgs} (hlease : 0 < args.leaseMs)
    (hlive : AllLive args.nowMs tasks) (taskId : String) :
    AllLive args.nowMs (leaseTask args taskId tasks) := by
  intro row hrow hleased
  rcases Table.mem_update_cases hrow with ⟨hold, _⟩ | ⟨old, _, _, rfl⟩
  · exact hlive row hold hleased
  · simp [leaseLive]
    omega

/-- The bounds that the candidate query checks. -/
structure ScopeBounds (limits : TaskConcurrencyLimits) (tasks : List TaskRow) : Prop where
  tenant : ∀ tenantKey, leasedCount tasks (inTenant tenantKey) ≤ limits.tenantLimit
  app : ∀ tenantKey appId, leasedCount tasks (inApp tenantKey appId) ≤ limits.appLimit
  group : ∀ tenantKey appId groupId,
    leasedCount tasks (inGroup tenantKey appId groupId) ≤ limits.groupLimit
  session : ∀ sessionKey, leasedCount tasks (inSession sessionKey) ≤ 1

/-- A scope keeps its bound when a row is picked that left room in it. -/
theorem leasedCount_leaseTask_le (hscope : Stable scope)
    (hunique : (tasks.map TaskRow.taskId).Nodup) (args : LeaseArgs) {task : TaskRow}
    (hmem : task ∈ tasks) (hpending : task.state = .pending) {bound : Nat}
    (hbound : leasedCount tasks scope ≤ bound)
    (hroom : scope task = true → leasedCount tasks scope < bound) :
    leasedCount (leaseTask args task.taskId tasks) scope ≤ bound := by
  rw [leasedCount_leaseTask hscope hunique args hmem hpending]
  by_cases hin : scope task = true
  · have := hroom hin
    simp only [hin, if_true]
    omega
  · simpa [hin] using hbound

theorem ScopeBounds.leaseTask (hbounds : ScopeBounds limits tasks) {args : LeaseArgs}
    (hunique : (tasks.map TaskRow.taskId).Nodup) (hlive : AllLive args.nowMs tasks)
    {task : TaskRow} (hmem : task ∈ tasks) (hcandidate : IsCandidate limits args.nowMs tasks task) :
    ScopeBounds limits (leaseTask args task.taskId tasks) := by
  obtain ⟨hpending, _, _, hfree⟩ := isAvailable_iff.mp (isSessionHead_available hcandidate.1)
  have hwithin := hcandidate.2
  simp only [withinLimits, liveCount_eq hlive, Bool.and_eq_true, Bool.or_eq_true,
    decide_eq_true_eq] at hwithin
  obtain ⟨⟨htenant, happ⟩, hgroup⟩ := hwithin
  refine ⟨?_, ?_, ?_, ?_⟩
  · intro tenantKey
    refine leasedCount_leaseTask_le (stable_inTenant tenantKey) hunique args hmem hpending
      (hbounds.tenant tenantKey) ?_
    intro hin
    have hkey : task.tenantKey = tenantKey := by simpa [inTenant] using hin
    exact hkey ▸ htenant
  · intro tenantKey appId
    refine leasedCount_leaseTask_le (stable_inApp tenantKey appId) hunique args hmem hpending
      (hbounds.app tenantKey appId) ?_
    intro hin
    obtain ⟨rfl, rfl⟩ : task.tenantKey = tenantKey ∧ task.appId = appId := by
      simpa [inApp] using hin
    exact happ
  · intro tenantKey appId groupId
    refine leasedCount_leaseTask_le (stable_inGroup tenantKey appId groupId) hunique args hmem
      hpending (hbounds.group tenantKey appId groupId) ?_
    intro hin
    obtain ⟨⟨rfl, rfl⟩, hgroupId⟩ : (task.tenantKey = tenantKey ∧ task.appId = appId) ∧
        task.groupId = some groupId := by
      simpa [inGroup] using hin
    rcases hgroup with hnone | hroom
    · rw [hgroupId] at hnone
      cases hnone
    · rw [hgroupId] at hroom
      exact hroom
  · intro sessionKey
    refine leasedCount_leaseTask_le (stable_inSession sessionKey) hunique args hmem hpending
      (hbounds.session sessionKey) ?_
    intro hin
    have hkey : task.sessionKey = sessionKey := by simpa [inSession] using hin
    have hzero : leasedCount tasks (inSession sessionKey) = 0 := by
      rw [leasedCount, List.countP_eq_zero]
      intro active hactive hcounted
      simp only [inSession, Bool.and_eq_true, decide_eq_true_eq] at hcounted
      have hidle := hfree active hactive (hcounted.2.trans hkey.symm)
      rw [hlive active hactive hcounted.1] at hidle
      cases hidle
    omega

theorem leasedCount_picks (hscope : Stable scope) {args : LeaseArgs}
    {P : List TaskRow → TaskRow → Prop} {ids : List String} (hpicks : Picks args P tasks ids after)
    (hunique : (tasks.map TaskRow.taskId).Nodup) :
    leasedCount after scope ≤ leasedCount tasks scope + ids.length := by
  induction hpicks with
  | nil tasks => exact Nat.le_refl _
  | cons task hmem hpending _ _ ih =>
      have hlater := ih (by rwa [leaseTask_ids])
      rw [leasedCount_leaseTask hscope hunique _ hmem hpending] at hlater
      have hone : (if scope task then 1 else 0) ≤ 1 := by split <;> omega
      rw [List.length_cons]
      omega

theorem ConcurrencyBounds.leaseTasks (hbounds : ConcurrencyBounds limits tasks)
    (hunique : (tasks.map TaskRow.taskId).Nodup) (hexpire : LeasesExpire tasks) {db after : Database}
    (htasks : db.tasks = tasks) {args : LeaseArgs} {leased : List LeasedTask}
    (hok : TaskQueue.leaseTasks args (some limits) db = .ok (leased, after)) :
    ConcurrencyBounds limits after.tasks := by
  subst htasks
  obtain ⟨hlease, ids, hpicks, hlength⟩ := leaseTasks_limited hok
  have hswept := hbounds.of_le fun scope hscope =>
    leasedCount_sweepExpired hscope args.nowMs db.tasks
  have hlive := allLive_sweepExpired args.nowMs hexpire
  have huniqueSwept : ((sweepExpired args.nowMs db.tasks).map TaskRow.taskId).Nodup := by
    rwa [sweepExpired_ids]
  have hloop := hpicks.invariant (I := fun tasks => AllLive args.nowMs tasks ∧
      ScopeBounds limits tasks) huniqueSwept
    ⟨hlive, hswept.tenant, hswept.app, hswept.group, hswept.session⟩
    fun tasks task hunique hmem _ hcandidate hinv =>
      ⟨allLive_leaseTask hlease hinv.1 task.taskId,
        hinv.2.leaseTask hunique hinv.1 hmem hcandidate⟩
  have htotal := leasedCount_picks stable_all hpicks huniqueSwept
  have hbefore := hswept.total
  rw [liveCount_eq hlive] at hlength
  exact ⟨by omega, hloop.2.tenant, hloop.2.app, hloop.2.group, hloop.2.session⟩

/-! ### Every reachable state -/

structure QueueInvariant (limits : TaskConcurrencyLimits) (tasks : List TaskRow) : Prop where
  uniqueTasks : (tasks.map TaskRow.taskId).Nodup
  expire : LeasesExpire tasks
  bounds : ConcurrencyBounds limits tasks

theorem QueueInvariant.empty : QueueInvariant limits [] := by
  refine ⟨List.nodup_nil, fun _ hmem => absurd hmem List.not_mem_nil, ?_⟩
  constructor <;> simp [leasedCount]

theorem leasesExpire_leaseTasks {args : LeaseArgs} {db after : Database}
    {leased : List LeasedTask} (hunique : (db.tasks.map TaskRow.taskId).Nodup)
    (hexpire : LeasesExpire db.tasks)
    (hok : TaskQueue.leaseTasks args (some limits) db = .ok (leased, after)) :
    LeasesExpire after.tasks := by
  obtain ⟨_, ids, hpicks, _⟩ := leaseTasks_limited hok
  refine hpicks.invariant (I := LeasesExpire) (by rwa [sweepExpired_ids]) ?_ ?_
  · intro row hrow hleased
    rw [sweepExpired_eq] at hrow
    obtain ⟨old, hold, rfl⟩ := List.mem_map.mp hrow
    have hsame := (sweptRow_leased hleased).1
    rw [hsame] at hleased ⊢
    exact hexpire old hold hleased
  · intro tasks task _ _ _ _ hinv row hrow hleased
    rcases Table.mem_update_cases hrow with ⟨hold, _⟩ | ⟨old, _, _, rfl⟩
    · exact hinv row hold hleased
    · rfl

theorem QueueInvariant.apply {db : Database} (hinv : QueueInvariant limits db.tasks) {op : StoreOp}
    (hop : LeasesWithin limits op) : QueueInvariant limits (op.apply db).tasks := by
  have heffect := taskEffect db op
  have hunique := heffect.uniqueTasks hinv.uniqueTasks
  revert heffect hunique
  generalize (op.apply db).tasks = after
  intro heffect hunique
  cases heffect with
  | same => exact hinv
  | @admission event command _ taskId _ nowMs eventPk hfresh =>
      refine ⟨hunique, ?_, hinv.bounds.of_le fun scope _ => ?_⟩
      · intro row hrow hleased
        rcases List.mem_append.mp hrow with hold | hnew
        · exact hinv.expire row hold hleased
        · rw [List.mem_singleton.mp hnew] at hleased
          cases hleased
      · simp [leasedCount, List.countP_append, admittedRow]
  | @lease args used leased leasedDb hok =>
      obtain rfl : used = some limits := hop
      exact ⟨hunique, leasesExpire_leaseTasks hinv.uniqueTasks hinv.expire hok,
        hinv.bounds.leaseTasks hinv.uniqueTasks hinv.expire rfl hok⟩
  | settle taskId workerId change hsame hended =>
      have hmove : List.Forall₂ (fun a b => SameTask a b ∧
          (b.state = .leased → b = a)) db.tasks
          (Table.update (ownedBy taskId workerId) change db.tasks) := by
        refine Table.forall₂_update ?_ fun row _ _ => ⟨.refl row, fun _ => rfl⟩
        exact fun row _ _ => ⟨hsame row, fun hleased => absurd hleased (hended row)⟩
      refine ⟨hunique, ?_, hinv.bounds.of_le fun scope hscope => ?_⟩
      · intro row hrow hleased
        obtain ⟨old, hold, _, hback⟩ := Table.Forall₂.of_mem_right hmove hrow
        have hrowIs := hback hleased
        rw [hrowIs] at hleased ⊢
        exact hinv.expire old hold hleased
      · exact leasedCount_le hscope hmove (fun _ _ h => h.1) fun a b h hleased => h.2 hleased ▸ hleased

/-- Whatever the clocks of the calls, no state has more leases than the limits allow,
in total and in every scope, and no session has two. -/
theorem leases_within_limits {limits : TaskConcurrencyLimits} {ops : List StoreOp}
    (hlimits : ∀ op ∈ ops, LeasesWithin limits op) :
    Always StoreOp.step (fun db => ConcurrencyBounds limits db.tasks) ops {} := by
  refine always_of_invariant (I := fun db => QueueInvariant limits db.tasks) ?_
    (fun _ hinv => hinv.bounds) .empty
    ((along_of_forall (fun _ _ => trivial) ops _ : Along StoreOp.step (fun _ _ => True) ops {}).and_mem
      hlimits)
  rintro db op after hinv ⟨_, hop⟩ hstep
  cases hstep
  exact hinv.apply hop

/-- Two tasks of one session under the tightest limits. -/
theorem leases_within_limits_of_two_tasks :
    let limits : TaskConcurrencyLimits :=
      ⟨1, 1, 1, 1, by decide, by decide, by decide, by decide⟩
    let mention (eventId : String) : NormalizedEvent :=
      { eventId, pluginId := "im", eventType := "im.message", tenantKey := "tenant"
        appId := "app", occurredAtMs := 0, receivedAtMs := 0, resourceKind := "message"
        resourceId := eventId, traceId := eventId }
    let command : TaskCommand :=
      { pluginId := "im", commandType := "im.handle_mention", sessionKey := "tenant/app/chat"
        payload := [], groupId := some "chat" }
    Always StoreOp.step (fun db => ConcurrencyBounds limits db.tasks)
      [.admitEvent (mention "first") command none "task-1" "outbox-1" 0,
        .admitEvent (mention "second") command none "task-2" "outbox-2" 1,
        .leaseTasks ⟨"worker", 2, 60000, 4⟩ (some limits),
        .deferTask "task-1" "worker" 9 "approval_pending" 3,
        .leaseTasks ⟨"worker", 1, 60000, 4⟩ (some limits)] {} := by
  intro limits mention command
  exact leases_within_limits (by simp [LeasesWithin])

end Codex2Lark
