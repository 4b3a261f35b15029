import Codex2Lark.Storage.ActorAnswers

/-!
Runs of the database actor: a request that no stop request is before is answered within a known
number of steps of the thread, in every schedule; a lost one is not answered in any.
-/

namespace Codex2Lark

variable {σ α : Type}

namespace Actor

variable {actor after : Actor σ α} {checkpoint : DatabaseOperation σ α} {label : ActorStep σ α}
  {id k : Nat}

abbrev run (checkpoint : DatabaseOperation σ α) :
    List (ActorStep σ α) → Actor σ α → Option (Actor σ α) :=
  Lib.exec fun actor => actor.step checkpoint

def workerSteps (labels : List (ActorStep σ α)) : Nat := labels.countP ActorStep.isWorker

/-- Whatever else happens, the call is answered before the thread has made so many steps, and the
thread can make them. -/
def Settles (checkpoint : DatabaseOperation σ α) (actor : Actor σ α) (id : Nat) : Prop :=
  ∃ k, ∀ labels after, run checkpoint labels actor = some after → after.Answered id ∨
    workerSteps labels < k ∧
      ∃ label : ActorStep σ α, label.isWorker = true ∧ (after.step checkpoint label).isSome = true

/-- An accepted call is answered once: if it is on the queue in every schedule, and if it waits for
room in some. -/
structure Served (checkpoint : DatabaseOperation σ α) (actor : Actor σ α) (id : Nat) : Prop where
  once : (actor.responses.map Prod.fst).count id ≤ 1
  settles : id ∉ actor.blocked.map Request.id → Settles checkpoint actor id
  reaches : ∃ labels after, run checkpoint labels actor = some after ∧ after.Answered id

def AllServed (checkpoint : DatabaseOperation σ α) (actor : Actor σ α) : Prop :=
  ∀ id < actor.nextId, Served checkpoint actor id

/-! ### Calls that are due -/

/-- The thread executes the call, or comes to it after the requests before it, within `k` steps. -/
def Due (actor : Actor σ α) (id k : Nat) : Prop :=
  (∃ connection request, actor.worker = .executing connection request ∧ request.id = id ∧ 1 ≤ k) ∨
    ∃ (cost : Nat) (before : List (Request σ α)) (request : Request σ α)
      (rest : List (Option (Request σ α))), actor.worker.cost = some cost ∧
      actor.requests = before.map some ++ some request :: rest ∧ request.id = id ∧
        cost + 2 * before.length + 2 ≤ k

theorem Due.positive (hdue : actor.Due id k) : 1 ≤ k := by
  rcases hdue with ⟨_, _, _, _, hk⟩ | ⟨_, _, _, _, _, _, _, hk⟩
  · exact hk
  · omega

theorem answered_effect (hanswered : actor.Answered id) (heffect : Effect actor label after) :
    after.Answered id := by
  cases heffect with
  | executed =>
      unfold Answered
      rw [List.map_append]
      exact List.mem_append_left _ hanswered
  | failed =>
      unfold Answered
      rw [List.map_append]
      exact List.mem_append_left _ hanswered
  | _ => exact hanswered

/-- One step: the thread comes nearer to the call, and no other step moves it. -/
theorem due_effect (hsound : actor.Sound) (hdue : actor.Due id k)
    (heffect : Effect actor label after) :
    if label.isWorker then after.Answered id ∨ after.Due id (k - 1) else after.Due id k := by
  rcases hdue with ⟨connection, request, hcurrent, hid, hk⟩ |
    ⟨cost, before, request, rest, hcost, hrequests, hid, hk⟩
  · cases heffect with
    | flags _ _ _ _ _ _ _ hlabel =>
        rw [hlabel]
        exact .inl ⟨connection, request, hcurrent, hid, hk⟩
    | start hstarted hclosed =>
        rw [hsound.fresh hstarted hclosed] at hcurrent
        cases hcurrent
    | accepted _ _ _ _ hlabel =>
        rw [hlabel]
        exact .inl ⟨connection, request, hcurrent, hid, hk⟩
    | waits _ _ _ hlabel =>
        rw [hlabel]
        exact .inl ⟨connection, request, hcurrent, hid, hk⟩
    | put => exact .inl ⟨connection, request, hcurrent, hid, hk⟩
    | stopPut _ _ _ _ _ hlabel =>
        rw [hlabel]
        exact .inl ⟨connection, request, hcurrent, hid, hk⟩
    | stopWaits => exact .inl ⟨connection, request, hcurrent, hid, hk⟩
    | executed connection next other result hworker =>
        rw [hworker] at hcurrent
        cases hcurrent
        refine .inl ?_
        unfold Answered
        rw [List.map_append, ← hid]
        exact List.mem_append_right _ List.mem_cons_self
    | connected _ hworker => rw [hworker] at hcurrent; cases hcurrent
    | startFailed _ hworker => rw [hworker] at hcurrent; cases hcurrent
    | tookStop _ _ hworker => rw [hworker] at hcurrent; cases hcurrent
    | took _ _ _ hworker => rw [hworker] at hcurrent; cases hcurrent
    | drained _ hworker => rw [hworker] at hcurrent; cases hcurrent
    | skipped _ _ hworker => rw [hworker] at hcurrent; cases hcurrent
    | failed _ _ _ hworker => rw [hworker] at hcurrent; cases hcurrent
  · cases heffect with
    | flags _ _ _ _ _ _ _ hlabel =>
        rw [hlabel]
        exact .inr ⟨cost, before, request, rest, hcost, hrequests, hid, hk⟩
    | start hstarted hclosed =>
        rw [hsound.fresh hstarted hclosed] at hcost
        cases hcost
    | accepted operation _ _ _ hlabel =>
        rw [hlabel]
        exact .inr ⟨cost, before, request, rest ++ [some ⟨actor.nextId, operation⟩], hcost,
          by simp [hrequests], hid, hk⟩
    | waits _ _ _ hlabel =>
        rw [hlabel]
        exact .inr ⟨cost, before, request, rest, hcost, hrequests, hid, hk⟩
    | put other =>
        exact .inr ⟨cost, before, request, rest ++ [some other], hcost, by simp [hrequests], hid, hk⟩
    | stopPut _ _ _ _ _ hlabel =>
        rw [hlabel]
        exact .inr ⟨cost, before, request, rest ++ [none], hcost, by simp [hrequests], hid, hk⟩
    | stopWaits => exact .inr ⟨cost, before, request, rest, hcost, hrequests, hid, hk⟩
    | connected connection hworker =>
        rw [hworker] at hcost
        cases hcost
        exact .inr (.inr ⟨0, before, request, rest, rfl, hrequests, hid, by omega⟩)
    | startFailed failure hworker =>
        rw [hworker] at hcost
        cases hcost
        exact .inr (.inr ⟨0, before, request, rest, rfl, hrequests, hid, by omega⟩)
    | tookStop connection others hworker hhead =>
        rw [hhead] at hrequests
        cases before with
        | nil => cases hrequests
        | cons first before => cases hrequests
    | took connection first others hworker hhead =>
        rw [hworker] at hcost
        cases hcost
        rw [hhead] at hrequests
        cases before with
        | nil =>
            cases hrequests
            exact .inr (.inl ⟨connection, request, rfl, hid, by omega⟩)
        | cons other before =>
            cases hrequests
            rw [List.length_cons] at hk
            exact .inr (.inr ⟨1, before, request, rest, rfl, rfl, hid, by omega⟩)
    | executed connection next other result hworker =>
        rw [hworker] at hcost
        cases hcost
        exact .inr (.inr ⟨0, before, request, rest, rfl, hrequests, hid, by omega⟩)
    | drained failure hworker hempty =>
        rw [hempty] at hrequests
        cases before with
        | nil => cases hrequests
        | cons first before => cases hrequests
    | skipped failure others hworker hhead =>
        rw [hhead] at hrequests
        cases before with
        | nil => cases hrequests
        | cons first before => cases hrequests
    | failed failure first others hworker hhead =>
        rw [hhead] at hrequests
        cases before with
        | nil =>
            cases hrequests
            refine .inl ?_
            unfold Answered
            rw [List.map_append, ← hid]
            exact List.mem_append_right _ List.mem_cons_self
        | cons other before =>
            cases hrequests
            rw [List.length_cons] at hk
            exact .inr (.inr ⟨cost, before, request, rest, hcost, rfl, hid, by omega⟩)

/-- The thread does not wait while a call is due. -/
theorem Due.enabled (hdue : actor.Due id k) (checkpoint : DatabaseOperation σ α) :
    ∃ label : ActorStep σ α, label.isWorker = true ∧
      (actor.step checkpoint label).isSome = true := by
  rcases hdue with ⟨connection, request, hcurrent, _⟩ |
    ⟨cost, before, request, rest, hcost, hrequests, _⟩
  · exact ⟨.execute, rfl, by simp [step, hcurrent]⟩
  · cases hworker : actor.worker with
    | idle =>
        rw [hworker] at hcost
        cases hcost
    | starting => exact ⟨.connected (.error (.runtimeError "")), rfl, by simp [step, hworker]⟩
    | running connection =>
        refine ⟨.take, rfl, ?_⟩
        cases before with
        | nil => simp [step, hworker, hrequests]
        | cons first before => simp [step, hworker, hrequests]
    | executing connection current => exact ⟨.execute, rfl, by simp [step, hworker]⟩
    | failing failure =>
        refine ⟨.failNext, rfl, ?_⟩
        cases before with
        | nil => simp [step, hworker, hrequests]
        | cons first before => simp [step, hworker, hrequests]
    | ended =>
        rw [hworker] at hcost
        cases hcost

theorem run_cons_some {labels : List (ActorStep σ α)} {final : Actor σ α} :
    run checkpoint (label :: labels) actor = some final ↔
      ∃ next, actor.step checkpoint label = some next ∧ run checkpoint labels next = some final :=
  Option.bind_eq_some_iff

theorem answered_run {labels : List (ActorStep σ α)} (hanswered : actor.Answered id)
    (hrun : run checkpoint labels actor = some after) : after.Answered id :=
  Lib.exec_invariant_of_step (fun _ _ _ hanswered hstep =>
    answered_effect hanswered (step_effect hstep)) hanswered hrun

theorem sound_run {labels : List (ActorStep σ α)} (hsound : actor.Sound)
    (hrun : run checkpoint labels actor = some after) : after.Sound :=
  Lib.exec_invariant_of_step (fun _ _ _ hsound hstep =>
    sound_effect hsound (step_effect hstep)) hsound hrun

theorem due_run {labels : List (ActorStep σ α)} (hsound : actor.Sound) (hdue : actor.Due id k)
    (hrun : run checkpoint labels actor = some after) :
    after.Answered id ∨ workerSteps labels < k ∧ after.Due id (k - workerSteps labels) := by
  induction labels generalizing actor k with
  | nil =>
      cases hrun
      exact .inr ⟨hdue.positive, hdue⟩
  | cons label labels ih =>
      obtain ⟨next, hstep, hrest⟩ := run_cons_some.mp hrun
      have hnext := due_effect hsound hdue (step_effect hstep)
      have hsteps : workerSteps (label :: labels) =
          workerSteps labels + if label.isWorker then 1 else 0 := List.countP_cons
      rw [hsteps]
      split at hnext
      · rename_i hworker
        rcases hnext with hanswered | hnext
        · exact .inl (answered_run hanswered hrest)
        · rcases ih (sound_effect hsound (step_effect hstep)) hnext hrest with hanswered | ⟨hlt, hlater⟩
          · exact .inl hanswered
          · rw [if_pos hworker]
            refine .inr ⟨by omega, ?_⟩
            rwa [show k - (workerSteps labels + 1) = k - 1 - workerSteps labels by omega]
      · rename_i hworker
        rw [if_neg hworker]
        exact ih (sound_effect hsound (step_effect hstep)) hnext hrest

theorem Due.settles (hsound : actor.Sound) (hdue : actor.Due id k) :
    Settles checkpoint actor id := by
  refine ⟨k, fun labels after hrun => ?_⟩
  rcases due_run hsound hdue hrun with hanswered | ⟨hlt, hlater⟩
  · exact .inl hanswered
  · exact .inr ⟨hlt, hlater.enabled checkpoint⟩

theorem Due.reaches (hdue : actor.Due id k) (checkpoint : DatabaseOperation σ α)
    (hsound : actor.Sound) :
    ∃ labels after, run checkpoint labels actor = some after ∧ after.Answered id := by
  induction k generalizing actor with
  | zero => exact absurd hdue.positive (by omega)
  | succ k ih =>
      obtain ⟨label, hworker, henabled⟩ := hdue.enabled checkpoint
      obtain ⟨next, hstep⟩ := Option.isSome_iff_exists.mp henabled
      have hnext := due_effect hsound hdue (step_effect hstep)
      rw [if_pos hworker] at hnext
      rcases hnext with hanswered | hnext
      · exact ⟨[label], next, run_cons_some.mpr ⟨next, hstep, rfl⟩, hanswered⟩
      · obtain ⟨labels, after, hrun, hanswered⟩ :=
          ih hnext (sound_effect hsound (step_effect hstep))
        exact ⟨label :: labels, after, run_cons_some.mpr ⟨next, hstep, hrun⟩, hanswered⟩

theorem settles_of_answered (hanswered : actor.Answered id) : Settles checkpoint actor id :=
  ⟨0, fun _ _ hrun => .inl (answered_run hanswered hrun)⟩

/-! ### Calls that wait for room -/

/-- The thread has emptied the queue and is there for the next request. -/
structure Drained (actor after : Actor σ α) : Prop where
  requests : after.requests = []
  blocked : after.blocked = actor.blocked
  capacity : after.capacity = actor.capacity
  cost : ∃ cost, after.worker.cost = some cost

theorem failing_drains {failure : PyError} (live : List (Request σ α))
    (hworker : actor.worker = .failing failure) (hrequests : actor.requests = live.map some) :
    ∃ labels after, run checkpoint labels actor = some after ∧ Drained actor after := by
  induction live generalizing actor with
  | nil => exact ⟨[], actor, rfl, hrequests, rfl, rfl, 0, by rw [hworker]; rfl⟩
  | cons request live ih =>
      let next : Actor σ α :=
        { actor with
          requests := live.map some
          responses := actor.responses ++ [(request.id, .error failure)] }
      have hstep : actor.step checkpoint .failNext = some next := by
        simp [step, hworker, hrequests, next]
      have hrest : ∃ labels after, run checkpoint labels next = some after ∧ Drained next after :=
        ih hworker rfl
      obtain ⟨labels, after, hrun, hdone⟩ := hrest
      exact ⟨.failNext :: labels, after, run_cons_some.mpr ⟨_, hstep, hrun⟩, hdone.requests,
        hdone.blocked, hdone.capacity, hdone.cost⟩

theorem running_drains {connection : σ} (live : List (Request σ α))
    (hworker : actor.worker = .running connection) (hrequests : actor.requests = live.map some) :
    ∃ labels after, run checkpoint labels actor = some after ∧ Drained actor after := by
  induction live generalizing actor connection with
  | nil => exact ⟨[], actor, rfl, hrequests, rfl, rfl, 0, by rw [hworker]; rfl⟩
  | cons request live ih =>
      let executing : Actor σ α :=
        { actor with worker := .executing connection request, requests := live.map some }
      let next : Actor σ α :=
        { actor with
          worker := .running (request.operation connection).2
          requests := live.map some
          responses := actor.responses ++ [(request.id, (request.operation connection).1)] }
      have htake : actor.step checkpoint .take = some executing := by
        simp [step, hworker, hrequests, executing]
      have hexecute : executing.step checkpoint .execute = some next := rfl
      have hrest : ∃ labels after, run checkpoint labels next = some after ∧ Drained next after :=
        ih rfl rfl
      obtain ⟨labels, after, hrun, hdone⟩ := hrest
      exact ⟨.take :: .execute :: labels, after,
        run_cons_some.mpr ⟨_, htake, run_cons_some.mpr ⟨_, hexecute, hrun⟩⟩, hdone.requests,
        hdone.blocked, hdone.capacity, hdone.cost⟩

theorem drains {cost : Nat} (checkpoint : DatabaseOperation σ α) (hordered : actor.Ordered)
    (hlive : actor.stopped = false) (hcost : actor.worker.cost = some cost) :
    ∃ labels after, run checkpoint labels actor = some after ∧ Drained actor after := by
  obtain ⟨live, hrequests⟩ := hordered.shape_live (not_stopped_iff.mp hlive).1
  cases hworker : actor.worker with
  | idle =>
      rw [hworker] at hcost
      cases hcost
  | starting =>
      let failing : Actor σ α :=
        { actor with
          worker := .failing (.runtimeError ""), startupFailure := some (.runtimeError "") }
      have hstep : actor.step checkpoint (.connected (.error (.runtimeError ""))) =
          some failing := by
        simp [step, hworker, failing]
      have hrest : ∃ labels after, run checkpoint labels failing = some after ∧
          Drained failing after := failing_drains live rfl hrequests
      obtain ⟨labels, after, hrun, hdone⟩ := hrest
      exact ⟨_ :: labels, after, run_cons_some.mpr ⟨_, hstep, hrun⟩, hdone.requests, hdone.blocked,
        hdone.capacity, hdone.cost⟩
  | running connection => exact running_drains live hworker hrequests
  | executing connection request =>
      let next : Actor σ α :=
        { actor with
          worker := .running (request.operation connection).2
          responses := actor.responses ++ [(request.id, (request.operation connection).1)] }
      have hstep : actor.step checkpoint .execute = some next := by
        simp [step, hworker, next]
      have hrest : ∃ labels after, run checkpoint labels next = some after ∧ Drained next after :=
        running_drains live rfl hrequests
      obtain ⟨labels, after, hrun, hdone⟩ := hrest
      exact ⟨_ :: labels, after, run_cons_some.mpr ⟨_, hstep, hrun⟩, hdone.requests, hdone.blocked,
        hdone.capacity, hdone.cost⟩
  | failing failure => exact failing_drains live hworker hrequests
  | ended =>
      rw [hworker] at hcost
      cases hcost

theorem cost_of_live (hsound : actor.Sound) (hlive : actor.stopped = false)
    {request : Request σ α} (hmem : request ∈ actor.blocked) :
    ∃ cost, actor.worker.cost = some cost := by
  cases hworker : actor.worker with
  | idle =>
      rw [(hsound.idle hworker).2.1] at hmem
      cases hmem
  | ended => exact absurd hworker (not_stopped_iff.mp hlive).2
  | starting => exact ⟨1, rfl⟩
  | running connection => exact ⟨0, rfl⟩
  | executing connection request => exact ⟨1, rfl⟩
  | failing failure => exact ⟨0, rfl⟩

theorem blocked_reaches (hsound : actor.Sound) (hordered : actor.Ordered)
    (hcapacity : 0 < actor.capacity) {request : Request σ α} (hmem : request ∈ actor.blocked) :
    ∃ labels after, run checkpoint labels actor = some after ∧ after.Answered request.id := by
  have hlive : actor.stopped = false := by
    by_contra hstopped
    rw [hordered.blocked (by simpa using hstopped)] at hmem
    cases hmem
  obtain ⟨cost, hcost⟩ := cost_of_live hsound hlive hmem
  obtain ⟨labels, drained, hrun, hdone⟩ := drains checkpoint hordered hlive hcost
  obtain ⟨cost, hcost⟩ := hdone.cost
  have hroom : drained.hasRoom = true := by
    unfold hasRoom
    rw [hdone.requests, hdone.capacity]
    simpa using hcapacity
  have hfind : (drained.blocked.find? fun other => other.id = request.id).isSome = true := by
    rw [List.find?_isSome, hdone.blocked]
    exact ⟨request, hmem, decide_eq_true rfl⟩
  obtain ⟨other, hother⟩ := Option.isSome_iff_exists.mp hfind
  have hid : other.id = request.id := by simpa using List.find?_some hother
  let next : Actor σ α :=
    { drained with
      requests := drained.requests ++ [some other]
      blocked := drained.blocked.filter fun waiting => waiting.id ≠ request.id }
  have hretry : drained.step checkpoint (.retry request.id) = some next := by
    simp only [step, hother, hroom, if_true]
    rfl
  have hdue : next.Due request.id (cost + 2) := by
    refine .inr ⟨cost, [], other, [], hcost, ?_, hid, by simp⟩
    change drained.requests ++ [some other] = _
    rw [hdone.requests]
    rfl
  have hnext : next.Sound := sound_effect (sound_run hsound hrun) (step_effect hretry)
  obtain ⟨later, final, hlater, hanswered⟩ := hdue.reaches checkpoint hnext
  refine ⟨labels ++ .retry request.id :: later, final, ?_, hanswered⟩
  unfold run at hrun ⊢
  rw [Lib.exec_append, hrun]
  exact run_cons_some.mpr ⟨next, hretry, hlater⟩

/-- Where an accepted call can be. -/
theorem served (hsound : actor.Sound) (hordered : actor.Ordered) (hcapacity : 0 < actor.capacity)
    (hid : id < actor.nextId) : Served checkpoint actor id := by
  have hplaces := hsound.places id
  rw [if_pos hid] at hplaces
  have honce : (actor.responses.map Prod.fst).count id ≤ 1 := by
    unfold places at hplaces
    omega
  by_cases hanswered : actor.Answered id
  · exact ⟨honce, fun _ => settles_of_answered hanswered, [], actor, rfl, hanswered⟩
  by_cases hblocked : id ∈ actor.blocked.map Request.id
  · obtain ⟨request, hmem, rfl⟩ := List.mem_map.mp hblocked
    exact ⟨honce, fun hnot => absurd hblocked hnot,
      blocked_reaches hsound hordered hcapacity hmem⟩
  have hdue : ∃ k, actor.Due id k := by
    by_cases hcurrent : id ∈ actor.worker.current
    · cases hworker : actor.worker with
      | executing connection request =>
          rw [hworker] at hcurrent
          exact ⟨1, .inl ⟨connection, request, hworker, (List.mem_singleton.mp hcurrent).symm, Nat.le_refl _⟩⟩
      | _ =>
          rw [hworker] at hcurrent
          cases hcurrent
    · have hqueued : id ∈ actor.queued := by
        refine List.count_pos_iff.mp ?_
        unfold places at hplaces
        rw [List.count_eq_zero_of_not_mem hanswered, List.count_eq_zero_of_not_mem hcurrent,
          List.count_eq_zero_of_not_mem hblocked] at hplaces
        omega
      obtain ⟨entry, hentry, hsome⟩ := List.mem_filterMap.mp hqueued
      obtain ⟨request, rfl, rfl⟩ := Option.map_eq_some_iff.mp hsome
      obtain ⟨live, n, hshape⟩ := hordered.shape
      have hmem : request ∈ live := by
        rw [hshape] at hentry
        rcases List.mem_append.mp hentry with hlive | hnone
        · obtain ⟨other, hother, heq⟩ := List.mem_map.mp hlive
          cases heq
          exact hother
        · cases (List.mem_replicate.mp hnone).2
      obtain ⟨before, rest, rfl⟩ := List.append_of_mem hmem
      have hcost : ∃ cost, actor.worker.cost = some cost := by
        cases hworker : actor.worker with
        | idle =>
            rw [(hsound.idle hworker).1] at hentry
            cases hentry
        | ended => cases hordered.ended hworker _ hentry
        | starting => exact ⟨1, rfl⟩
        | running connection => exact ⟨0, rfl⟩
        | executing connection request => exact ⟨1, rfl⟩
        | failing failure => exact ⟨0, rfl⟩
      obtain ⟨cost, hcost⟩ := hcost
      exact ⟨_, .inr ⟨cost, before, request, rest.map some ++ List.replicate n none, hcost,
        by simp [hshape], rfl, Nat.le_refl _⟩⟩
  obtain ⟨k, hdue⟩ := hdue
  exact ⟨honce, fun _ => hdue.settles hsound, hdue.reaches checkpoint hsound⟩

/-! ### Lost calls -/

/-- The call is behind a stop request, or waits for room behind it, or the thread has ended. -/
structure Lost (actor : Actor σ α) (id : Nat) : Prop where
  known : id < actor.nextId
  stopped : actor.stopped = true
  up : actor.worker.isUp = true
  unanswered : ¬actor.Answered id
  notCurrent : id ∉ actor.worker.current
  behind : actor.worker = .ended ∨ ∀ (before : List (Request σ α)) (request : Request σ α)
    (rest : List (Option (Request σ α))), actor.requests = before.map some ++ some request :: rest →
      request.id ≠ id

/-- What is put behind a stop request does not come before it. -/
theorem split_before_none {requests added rest : List (Option (Request σ α))}
    {before : List (Request σ α)} {request : Request σ α} (hnone : none ∈ requests)
    (hsplit : requests ++ added = before.map some ++ some request :: rest) :
    ∃ rest', requests = before.map some ++ some request :: rest' := by
  induction before generalizing requests with
  | nil =>
      cases requests with
      | nil => cases hnone
      | cons first requests =>
          cases hsplit
          exact ⟨requests, rfl⟩
  | cons other before ih =>
      cases requests with
      | nil => cases hnone
      | cons first requests =>
          have hparts := List.cons.inj hsplit
          obtain ⟨hfirst, htail⟩ := hparts
          subst hfirst
          obtain ⟨rest', hrest⟩ := ih ((List.mem_cons.mp hnone).resolve_left nofun) htail
          exact ⟨rest', by simp [hrest]⟩

theorem stopped_append {added : List (Option (Request σ α))} {worker : Worker σ α}
    (hworker : actor.worker = worker) (hstopped : actor.stopped = true) :
    none ∈ actor.requests ++ added ∨ worker = .ended := by
  rcases stopped_iff.mp hstopped with hnone | hended
  · exact .inl (List.mem_append_left _ hnone)
  · exact .inr (hworker.symm.trans hended)

theorem Lost.behind_append (hlost : actor.Lost id) (added : List (Option (Request σ α))) :
    actor.worker = .ended ∨ ∀ (before : List (Request σ α)) (request : Request σ α)
      (rest : List (Option (Request σ α))),
      actor.requests ++ added = before.map some ++ some request :: rest → request.id ≠ id := by
  rcases stopped_iff.mp hlost.stopped with hnone | hended
  · rcases hlost.behind with hended | hbehind
    · exact .inl hended
    · refine .inr fun before request rest hsplit => ?_
      obtain ⟨rest', hrest⟩ := split_before_none hnone hsplit
      exact hbehind before request rest' hrest
  · exact .inl hended

theorem lost_effect (hsound : actor.Sound) (hlost : actor.Lost id)
    (heffect : Effect actor label after) : after.Lost id := by
  have hknown := hlost.known
  have hstopped := stopped_iff.mp hlost.stopped
  have hup := hlost.up
  cases heffect with
  | flags => exact ⟨hknown, hlost.stopped, hup, hlost.unanswered, hlost.notCurrent, hlost.behind⟩
  | start hstarted hclosed =>
      rw [hsound.fresh hstarted hclosed] at hup
      cases hup
  | accepted =>
      exact ⟨Nat.lt_succ_of_lt hknown, stopped_iff.mpr (stopped_append rfl hlost.stopped), hup,
        hlost.unanswered, hlost.notCurrent, hlost.behind_append _⟩
  | waits =>
      exact ⟨Nat.lt_succ_of_lt hknown, hlost.stopped, hup, hlost.unanswered, hlost.notCurrent,
        hlost.behind⟩
  | put =>
      exact ⟨hknown, stopped_iff.mpr (stopped_append rfl hlost.stopped), hup, hlost.unanswered,
        hlost.notCurrent, hlost.behind_append _⟩
  | stopPut =>
      exact ⟨hknown, stopped_iff.mpr (stopped_append rfl hlost.stopped), hup, hlost.unanswered,
        hlost.notCurrent, hlost.behind_append _⟩
  | stopWaits =>
      exact ⟨hknown, hlost.stopped, hup, hlost.unanswered, hlost.notCurrent, hlost.behind⟩
  | connected connection hworker =>
      rw [hworker] at hup
      cases hup
  | startFailed failure hworker =>
      rw [hworker] at hup
      cases hup
  | tookStop =>
      exact ⟨hknown, stopped_iff.mpr (.inr rfl), rfl, hlost.unanswered, nofun, .inl rfl⟩
  | took connection request rest hworker hrequests =>
      have hbehind := hlost.behind.resolve_left (by rw [hworker]; nofun)
      have hnone := hstopped.resolve_right (by rw [hworker]; nofun)
      rw [hrequests] at hnone hbehind
      refine ⟨hknown, stopped_iff.mpr (.inl ((List.mem_cons.mp hnone).resolve_left nofun)), rfl,
        hlost.unanswered, fun hcurrent => ?_, .inr fun before other later hsplit => ?_⟩
      · exact hbehind [] request rest rfl (List.mem_singleton.mp hcurrent).symm
      · exact hbehind (request :: before) other later (congrArg (some request :: ·) hsplit)
  | executed connection next request result hworker =>
      have hbehind := hlost.behind.resolve_left (by rw [hworker]; nofun)
      have hnone := hstopped.resolve_right (by rw [hworker]; nofun)
      refine ⟨hknown, stopped_iff.mpr (.inl hnone), rfl, fun hanswered => ?_, nofun,
        .inr hbehind⟩
      unfold Answered at hanswered
      rw [List.map_append] at hanswered
      rcases List.mem_append.mp hanswered with hold | hnew
      · exact hlost.unanswered hold
      · refine hlost.notCurrent ?_
        rw [hworker]
        exact hnew
  | drained failure hworker =>
      rw [hworker] at hup
      cases hup
  | skipped failure rest hworker =>
      rw [hworker] at hup
      cases hup
  | failed failure request rest hworker =>
      rw [hworker] at hup
      cases hup

/-- No schedule answers a lost call. -/
theorem Lost.not_served (hsound : actor.Sound) (hlost : actor.Lost id) :
    ¬AllServed checkpoint actor := by
  intro hall
  obtain ⟨labels, after, hrun, hanswered⟩ := (hall id hlost.known).reaches
  have hkeep := Lib.exec_invariant_of_step (I := fun actor => Sound actor ∧ Lost actor id)
    (fun _ _ _ hboth hstep => ⟨sound_effect hboth.1 (step_effect hstep),
      lost_effect hboth.1 hboth.2 (step_effect hstep)⟩) ⟨hsound, hlost⟩ hrun
  exact hkeep.2.unanswered hanswered

/-! ### Every run -/

/-- What a run under the condition keeps. -/
structure Steady (actor : Actor σ α) : Prop where
  sound : actor.Sound
  ordered : actor.Ordered
  capacity : 0 < actor.capacity

theorem capacity_effect (heffect : Effect actor label after) : after.capacity = actor.capacity := by
  cases heffect with
  | _ => rfl

theorem steady_step (hsteady : actor.Steady) (horderly : actor.Orderly label)
    (hstep : actor.step checkpoint label = some after) : after.Steady where
  sound := sound_effect hsteady.sound (step_effect hstep)
  ordered := ordered_effect hsteady.sound hsteady.ordered horderly (step_effect hstep)
  capacity := by
    rw [capacity_effect (step_effect hstep)]
    exact hsteady.capacity

theorem Steady.allServed (hsteady : actor.Steady) : AllServed checkpoint actor :=
  fun _ hid => served hsteady.sound hsteady.ordered hsteady.capacity hid

/-- A stop request is only put for a thread that is up. -/
theorem Sound.up_of_stopped (hsound : actor.Sound) (hstopped : actor.stopped = true) :
    actor.worker.isUp = true := by
  by_contra hdown
  have hnone := (hsound.down (by simpa using hdown)).2.1
  rcases stopped_iff.mp hstopped with hmem | hended
  · exact hnone hmem
  · rw [hended] at hdown
    exact hdown rfl

/-- A call is in no second place. -/
theorem Sound.nowhere (hsound : actor.Sound)
    (hwaits : id ∈ actor.blocked.map Request.id ∨ id = actor.nextId) :
    ¬actor.Answered id ∧ id ∉ actor.worker.current ∧ id ∉ actor.queued := by
  have hplaces := hsound.places id
  have hzero : (actor.responses.map Prod.fst).count id = 0 ∧
      actor.worker.current.count id = 0 ∧ actor.queued.count id = 0 := by
    unfold Actor.places at hplaces
    rcases hwaits with hmem | rfl
    · have hpositive : 0 < (actor.blocked.map Request.id).count id := List.count_pos_iff.mpr hmem
      split at hplaces <;> omega
    · rw [if_neg (Nat.lt_irrefl _)] at hplaces
      omega
  exact ⟨List.count_eq_zero.mp hzero.1, List.count_eq_zero.mp hzero.2.1,
    List.count_eq_zero.mp hzero.2.2⟩

theorem Sound.known (hsound : actor.Sound) {request : Request σ α}
    (hmem : request ∈ actor.blocked) : request.id < actor.nextId := by
  by_contra hnot
  have hplaces := hsound.places request.id
  have hone := hsound.count_blocked hmem
  unfold Actor.places at hplaces
  rw [if_neg hnot] at hplaces
  omega

theorem mem_queued {request : Request σ α} (hmem : some request ∈ actor.requests) :
    request.id ∈ actor.queued :=
  List.mem_filterMap.mpr ⟨some request, hmem, rfl⟩

/-- A call that is accepted after the stop request is lost. -/
theorem accept_lost (hsound : actor.Sound) (hstopped : actor.stopped = true)
    (operation : DatabaseOperation σ α) (checkpoints : List Nat) :
    Lost { actor.accept operation with checkpoints } actor.nextId := by
  obtain ⟨hunanswered, hcurrent, hqueued⟩ := hsound.nowhere (.inr rfl)
  have hup := hsound.up_of_stopped hstopped
  have hbehind : ∀ (before : List (Request σ α)) (request : Request σ α)
      (rest : List (Option (Request σ α))),
      actor.requests = before.map some ++ some request :: rest → request.id ≠ actor.nextId := by
    intro before request rest hsplit heq
    refine hqueued (heq ▸ mem_queued ?_)
    rw [hsplit]
    simp
  have hlost : Lost { actor with nextId := actor.nextId + 1 } actor.nextId :=
    ⟨Nat.lt_succ_self _, hstopped, hup, hunanswered, hcurrent, .inr hbehind⟩
  unfold accept
  dsimp only
  split
  · exact ⟨hlost.known, stopped_iff.mpr (stopped_append rfl hstopped), hup, hunanswered, hcurrent,
      hlost.behind_append _⟩
  · exact ⟨hlost.known, hstopped, hup, hunanswered, hcurrent, hlost.behind⟩

/-- A call that waits for room when the stop request is put is lost. -/
theorem putStop_lost (hsound : actor.Sound) (hup : actor.worker.isUp = true)
    {request : Request σ α} (hmem : request ∈ actor.blocked) (checkpoints : List Nat)
    (stopping joining : Nat) :
    Lost { actor with requests := actor.requests ++ [none], checkpoints, stopping, joining }
      request.id := by
  obtain ⟨hunanswered, hcurrent, hqueued⟩ := hsound.nowhere (.inl (List.mem_map_of_mem hmem))
  refine ⟨hsound.known hmem, stopped_iff.mpr (.inl (List.mem_append_right _ List.mem_cons_self)),
    hup, hunanswered, hcurrent, .inr fun before other rest hsplit heq => ?_⟩
  refine hqueued (heq ▸ mem_queued ?_)
  have hother : some other ∈ actor.requests ++ [none] := by
    rw [show actor.requests ++ [none] = _ from hsplit]
    simp
  rcases List.mem_append.mp hother with hold | hnone
  · exact hold
  · cases List.mem_singleton.mp hnone

/-- And so is one that waits when the thread of a failed start ends. -/
theorem ended_lost (hsound : actor.Sound) {request : Request σ α} (hmem : request ∈ actor.blocked) :
    Lost { actor with worker := .ended } request.id :=
  ⟨hsound.known hmem, stopped_iff.mpr (.inr rfl), rfl,
    (hsound.nowhere (.inl (List.mem_map_of_mem hmem))).1, nofun, .inl rfl⟩

/-- A step that breaks the condition loses a call. -/
theorem orderly_of_served (hsteady : actor.Steady)
    (hserved : ∀ after, actor.step checkpoint label = some after → AllServed checkpoint after) :
    actor.Orderly label := by
  have hsound := hsteady.sound
  have hkeeps {after : Actor σ α} {id : Nat} (hstep : actor.step checkpoint label = some after)
      (hlost : after.Lost id) : False :=
    hlost.not_served (sound_effect hsound (step_effect hstep)) (hserved after hstep)
  cases label with
  | call operation =>
      intro haccepts
      by_contra hstopped
      have hstep : actor.step checkpoint (.call operation) = some (actor.accept operation) :=
        if_pos haccepts
      exact hkeeps hstep (accept_lost hsound (by simpa using hstopped) operation _)
  | close =>
      intro haccepts
      by_contra hstopped
      obtain ⟨hstarted, hclosed⟩ := Bool.and_eq_true_iff.mp haccepts
      have hstep : actor.step checkpoint .close = some
          { actor.accept checkpoint with checkpoints := actor.checkpoints ++ [actor.nextId] } := by
        have hclosed : actor.closed = false := by simpa using hclosed
        simp [step, hclosed, hstarted]
      exact hkeeps hstep (accept_lost hsound (by simpa using hstopped) checkpoint _)
  | checkpointed id =>
      rintro hroom hmem ⟨value, hlookup⟩
      by_contra hblocked
      obtain ⟨request, hrequest⟩ := List.exists_mem_of_ne_nil _ hblocked
      have hup : actor.worker.isUp = true := by
        by_contra hdown
        obtain ⟨before, rest, hresponses, _⟩ := List.lookup_eq_some_iff.mp hlookup
        obtain ⟨failure, herror⟩ := (hsound.down (by simpa using hdown)).1 (id, .ok value) (by
          rw [hresponses]
          exact List.mem_append_right _ List.mem_cons_self)
        cases herror
      have hstep : actor.step checkpoint (.checkpointed id) = some
          { actor with
            requests := actor.requests ++ [none]
            checkpoints := actor.checkpoints.erase id
            joining := actor.joining + 1 } := by
        simp only [step, List.contains_iff_mem.mpr hmem, hlookup, if_true]
        exact congrArg some (putStop_eq
          (show Actor.hasRoom { actor with checkpoints := actor.checkpoints.erase id } = true
            from hroom))
      exact hkeeps hstep (putStop_lost hsound hup hrequest _ _ _)
  | stop =>
      intro hroom hstopping
      by_contra hblocked
      obtain ⟨request, hrequest⟩ := List.exists_mem_of_ne_nil _ hblocked
      have hup : actor.worker.isUp = true := by
        by_contra hdown
        have hzero := (hsound.down (by simpa using hdown)).2.2
        omega
      have hstep : actor.step checkpoint .stop = some
          { actor with
            requests := actor.requests ++ [none]
            stopping := actor.stopping - 1
            joining := actor.joining + 1 } := by
        simp only [step, hroom, hstopping, decide_true, Bool.and_self, if_true]
        exact congrArg some (putStop_eq
          (show Actor.hasRoom { actor with stopping := actor.stopping - 1 } = true from hroom))
      exact hkeeps hstep (putStop_lost hsound hup hrequest _ _ _)
  | failNext =>
      rintro ⟨failure, hworker⟩ hrequests
      by_contra hblocked
      obtain ⟨request, hrequest⟩ := List.exists_mem_of_ne_nil _ hblocked
      have hstep : actor.step checkpoint .failNext = some { actor with worker := .ended } := by
        simp [step, hworker, hrequests]
      exact hkeeps hstep (ended_lost hsound hrequest)
  | _ => trivial

/-- Every accepted call is answered once, in every state of a run, if and only if none is accepted
after a stop request or after the end of the thread, and none is waiting for room then. -/
theorem calls_answered_iff (queueCapacity : Nat) (checkpoint : DatabaseOperation σ α)
    (labels : List (ActorStep σ α)) (actor : Actor σ α)
    (hinit : init σ α queueCapacity = .ok actor) :
    Lib.Always (fun actor => actor.step checkpoint) (AllServed checkpoint) labels actor ↔
      Lib.Along (fun actor => actor.step checkpoint) Orderly labels actor := by
  unfold init at hinit
  split at hinit
  · cases hinit
  · rename_i hcapacity
    cases hinit
    exact Lib.always_iff_along (fun _ _ _ hsteady horderly hstep => steady_step hsteady horderly hstep)
      (fun _ hsteady => hsteady.allServed) (fun _ _ hsteady => orderly_of_served hsteady)
      ⟨sound_init queueCapacity, ordered_init queueCapacity, Nat.not_lt.mp hcapacity⟩

private def succeed : DatabaseOperation Unit Unit := fun connection => (.ok (), connection)

/-- A transaction and the checkpoint of a `close` are answered; the thread takes the stop request. -/
theorem calls_answered_before_close :
    Lib.Always (fun actor => actor.step succeed) (AllServed succeed)
      [.open, .connected (.ok ()), .call succeed.transaction, .take, .execute, .close, .take,
        .execute, .checkpointed 1, .take, .joined]
      ({ capacity := 1024 } : Actor Unit Unit) := by
  refine (calls_answered_iff 1024 succeed _ _ rfl).mpr ?_
  refine ⟨trivial, ?_⟩
  rintro _ ⟨⟩
  refine ⟨trivial, ?_⟩
  rintro _ ⟨⟩
  refine ⟨fun _ => rfl, ?_⟩
  rintro _ ⟨⟩
  refine ⟨trivial, ?_⟩
  rintro _ ⟨⟩
  refine ⟨trivial, ?_⟩
  rintro _ ⟨⟩
  refine ⟨fun _ => rfl, ?_⟩
  rintro _ ⟨⟩
  refine ⟨trivial, ?_⟩
  rintro _ ⟨⟩
  refine ⟨trivial, ?_⟩
  rintro _ ⟨⟩
  refine ⟨fun _ _ _ => rfl, ?_⟩
  rintro _ ⟨⟩
  refine ⟨trivial, ?_⟩
  rintro _ ⟨⟩
  refine ⟨trivial, ?_⟩
  rintro _ ⟨⟩
  trivial

theorem step_of_ended (hended : actor.worker = .ended) (hworker : label.isWorker = true) :
    actor.step checkpoint label = none := by
  cases label with
  | connected result => simp [step, hended]
  | take => simp [step, hended]
  | execute => simp [step, hended]
  | failNext => simp [step, hended]
  | _ => cases hworker

/-- The thread has ended before it came to call 1. -/
private def isLeft (actor : Actor Unit Unit) : Bool :=
  match actor.worker with
  | .ended =>
      decide (1 < actor.nextId) && !(actor.responses.map Prod.fst).contains 1 &&
        actor.blocked.isEmpty
  | _ => false

private theorem not_isLeft (actor : Actor Unit Unit) (hserved : AllServed succeed actor) :
    (!actor.isLeft) = true := by
  by_contra hleft
  have hleft : actor.isLeft = true := by simpa using hleft
  unfold isLeft at hleft
  split at hleft
  · rename_i hended
    simp only [Bool.and_eq_true, decide_eq_true_eq, Bool.not_eq_true', List.isEmpty_iff] at hleft
    obtain ⟨⟨hknown, hunanswered⟩, hblocked⟩ := hleft
    obtain ⟨k, hsettles⟩ := (hserved 1 hknown).settles (by simp [hblocked])
    rcases hsettles [] actor rfl with hanswered | ⟨_, label, hworker, henabled⟩
    · rw [List.contains_iff_mem.mpr hanswered] at hunanswered
      cases hunanswered
    · rw [step_of_ended hended hworker] at henabled
      cases henabled
  · cases hleft

/-- The call comes after the stop request of a `close`. -/
theorem call_never_answered : ¬∀ labels : List (ActorStep Unit Unit),
    Lib.Always (fun actor => actor.step succeed) (AllServed succeed) labels
      ({ capacity := 1024 } : Actor Unit Unit) := by
  intro hclaim
  refine Lib.not_always_of_check not_isLeft ?_ (hclaim
    [.open, .connected (.ok ()), .close, .take, .execute, .checkpointed 0, .call succeed, .take,
      .joined])
  rfl

end Actor

end Codex2Lark
