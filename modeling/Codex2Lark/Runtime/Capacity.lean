import Codex2Lark.Lib.Dict
import Codex2Lark.Lib.RoundRobin
import Codex2Lark.Lib.Runs
import Mathlib.Data.List.Perm.Subperm
import Mathlib.Algebra.GroupWithZero.Nat

/-!
`FairCapacityGate` between its awaits. Nothing is awaited under the lock of the gate, so
an acquisition up to its suspension, the resumption of a granted one, the handling of a
cancellation and a release are one step each.
-/

namespace Codex2Lark

open Lib

/-- `__post_init__` refuses an empty field. -/
structure CapacityLane where
  tenantKey : String
  appId : String
  scopeKey : String
  identified : tenantKey ≠ "" ∧ appId ≠ "" ∧ scopeKey ≠ "" := by decide
deriving DecidableEq, Repr

/-- Where the acquisition of a future is: in the queue of its lane, with its result and
not resumed, resumed, with the permit given back, or taken out of the queue. -/
inductive PermitPhase where
  | queued
  | granted
  | holding
  | released
  | withdrawn
deriving DecidableEq, Repr

structure CapacityFuture where
  lane : CapacityLane
  phase : PermitPhase
deriving DecidableEq, Repr

/-- `future.done()`. -/
def CapacityFuture.done (future : CapacityFuture) : Bool := future.phase ≠ .queued

/-- The permit of the future counts as in use. -/
def CapacityFuture.held (future : CapacityFuture) : Bool :=
  future.phase = .granted || future.phase = .holding

/-- `_ResourceState`, with every future that was created for the resource (a queue holds
their places in this list) and the permits that were granted, in their order. `raised`
records that a lookup of a queue failed or a release found no permit in use. -/
structure ResourceState where
  limit : Int
  inUse : Int := 0
  queues : Dict CapacityLane (List Nat) := []
  roundRobin : List CapacityLane := []
  futures : List CapacityFuture := []
  grants : List (Nat × CapacityLane) := []
  raised : Bool := false
deriving DecidableEq, Repr

namespace ResourceState

def setPhase (state : ResourceState) (i : Nat) (future : CapacityFuture) (phase : PermitPhase) :
    ResourceState :=
  { state with futures := state.futures.set i { future with phase } }

/-- `state.in_use += 1` and `future.set_result(None)`. -/
def grant (state : ResourceState) (i : Nat) (future : CapacityFuture) : ResourceState :=
  { state.setPhase i future .granted with
    inUse := state.inUse + 1
    grants := state.grants ++ [(i, future.lane)] }

/-- What `_dispatch` writes back after the turn of a lane that leaves this queue. -/
def rotate (state : ResourceState) (lane : CapacityLane) (lanes : List CapacityLane)
    (queue : List Nat) : ResourceState :=
  if queue = [] then { state with queues := state.queues.erase lane, roundRobin := lanes }
  else { state with queues := state.queues.set lane queue, roundRobin := lanes ++ [lane] }

/-- The loop of `_dispatch`, at most `turns` times. -/
def dispatchLoop : (turns : Nat) → ResourceState → ResourceState
  | 0, state => state
  | turns + 1, state =>
      if state.limit ≤ state.inUse then state
      else
        match state.roundRobin with
        | [] => state
        | lane :: lanes =>
            match state.queues.get? lane with
            | none | some [] => { state with raised := true }
            | some (i :: queue) =>
                let state := state.rotate lane lanes queue
                match state.futures[i]? with
                | none => { state with raised := true }
                | some future =>
                    if future.done then dispatchLoop turns state
                    else dispatchLoop turns (state.grant i future)

def queued (state : ResourceState) : Nat := (state.queues.map fun entry => entry.2.length).sum

/-- `_dispatch`. Every turn takes a future out of a queue. -/
def dispatch (state : ResourceState) : ResourceState := dispatchLoop (state.queued + 1) state

/-- The part of `_acquire` under the lock. -/
def enqueue (state : ResourceState) (lane : CapacityLane) : ResourceState :=
  let i := state.futures.length
  let state := { state with futures := state.futures ++ [CapacityFuture.mk lane .queued] }
  match state.queues.get? lane with
  | none =>
      { state with
        queues := state.queues.set lane [i], roundRobin := state.roundRobin ++ [lane] }
  | some queue => { state with queues := state.queues.set lane (queue ++ [i]) }

/-- `shield` hands out a future that is done already, and nothing suspends. -/
def observe (state : ResourceState) (i : Nat) : Option ResourceState :=
  match state.futures[i]? with
  | some ⟨lane, .granted⟩ => some (state.setPhase i ⟨lane, .granted⟩ .holding)
  | _ => none

def acquire (state : ResourceState) (lane : CapacityLane) : ResourceState :=
  let after := (state.enqueue lane).dispatch
  (after.observe state.futures.length).getD after

/-- `queue.remove(future)`, and the lane leaves with its last future. -/
def withdraw (state : ResourceState) (i : Nat) (lane : CapacityLane) : ResourceState :=
  match state.queues.get? lane with
  | none => state
  | some queue =>
      if queue.erase i = [] then
        { state with
          queues := state.queues.erase lane, roundRobin := state.roundRobin.erase lane }
      else { state with queues := state.queues.set lane (queue.erase i) }

/-- A permit that comes back. -/
def giveBack (state : ResourceState) (i : Nat) (future : CapacityFuture) : ResourceState :=
  ({ state.setPhase i future .released with inUse := state.inUse - 1 } : ResourceState).dispatch

/-- `_cancel_waiter`, when the cancellation reaches an acquisition that waits or has not
seen its permit yet. -/
def cancelWaiter (state : ResourceState) (i : Nat) : Option ResourceState :=
  match state.futures[i]? with
  | some ⟨lane, .granted⟩ => some (state.giveBack i ⟨lane, .granted⟩)
  | some ⟨lane, .queued⟩ => some ((state.withdraw i lane).setPhase i ⟨lane, .queued⟩ .withdrawn)
  | _ => none

/-- `_release`, however the body of `capacity` ends. -/
def release (state : ResourceState) (i : Nat) : Option ResourceState :=
  match state.futures[i]? with
  | some ⟨lane, .holding⟩ =>
      if state.inUse < 1 then some { state with raised := true }
      else some (state.giveBack i ⟨lane, .holding⟩)
  | _ => none

end ResourceState

abbrev FairCapacityGate := Dict String ResourceState

inductive CapacityLabel where
  | acquire (resourceId : String) (lane : CapacityLane) (limit : Int)
  | observe (resourceId : String) (future : Nat)
  | cancel (resourceId : String) (future : Nat)
  | release (resourceId : String) (future : Nat)
deriving DecidableEq, Repr

namespace FairCapacityGate

def update (gate : FairCapacityGate) (resourceId : String)
    (change : ResourceState → Option ResourceState) : Option FairCapacityGate :=
  match gate.get? resourceId with
  | none => none
  | some state => (change state).map (gate.set resourceId)

/-- A refused acquisition raises `ValueError` and changes nothing. -/
def step (gate : FairCapacityGate) : CapacityLabel → Option FairCapacityGate
  | .acquire resourceId lane limit =>
      if resourceId = "" ∨ limit < 1 then some gate
      else
        let state := (gate.get? resourceId).getD { limit }
        if state.limit ≠ limit then some gate
        else some (gate.set resourceId (state.acquire lane))
  | .observe resourceId i => gate.update resourceId fun state => state.observe i
  | .cancel resourceId i => gate.update resourceId fun state => state.cancelWaiter i
  | .release resourceId i => gate.update resourceId fun state => state.release i

end FairCapacityGate

/-! ### The invariant of one resource -/

/-- The phases from the grant on. -/
def PermitPhase.hadPermit (phase : PermitPhase) : Prop :=
  phase = .granted ∨ phase = .holding ∨ phase = .released

namespace ResourceState

variable {state after : ResourceState} {i : Nat} {lane : CapacityLane} {queue : List Nat}

/-- A queue holds exactly the queued futures of its lane, in the order of their arrival,
and the ring the lanes that have a queue. -/
structure QueuesMatch (state : ResourceState) : Prop where
  queue : ∀ lane queue, state.queues.get? lane = some queue → queue ≠ [] ∧
    queue.Pairwise (· < ·) ∧ ∀ i ∈ queue, state.futures[i]? = some ⟨lane, .queued⟩
  queued : ∀ i lane, state.futures[i]? = some ⟨lane, .queued⟩ →
    ∃ queue, state.queues.get? lane = some queue ∧ i ∈ queue
  ringNodup : state.roundRobin.Nodup
  ring : ∀ lane, lane ∈ state.roundRobin ↔ ∃ queue, state.queues.get? lane = some queue

/-- The permits that the lane was granted, in their order. -/
def grantsOf (state : ResourceState) (lane : CapacityLane) : List Nat :=
  (state.grants.filter fun grant => grant.2 = lane).map Prod.fst

structure GrantsMatch (state : ResourceState) : Prop where
  granted : ∀ i lane, (i, lane) ∈ state.grants ↔
    ∃ phase, state.futures[i]? = some ⟨lane, phase⟩ ∧ phase.hadPermit
  order : ∀ lane, (state.grantsOf lane).Pairwise (· < ·)
  ahead : ∀ lane queue, state.queues.get? lane = some queue →
    ∀ i ∈ state.grantsOf lane, ∀ j ∈ queue, i < j

/-- Everything but that no permit is free while somebody waits. -/
structure Consistent (state : ResourceState) : Prop where
  queues : QueuesMatch state
  grants : GrantsMatch state
  inUse : state.inUse = state.futures.countP CapacityFuture.held
  within : state.inUse ≤ state.limit
  raised : state.raised = false

theorem mem_grantsOf : i ∈ state.grantsOf lane ↔ (i, lane) ∈ state.grants := by
  unfold grantsOf
  rw [List.mem_map]
  constructor
  · rintro ⟨⟨j, other⟩, hgrant, rfl⟩
    obtain ⟨hgrant, hlane⟩ := List.mem_filter.mp hgrant
    rwa [← of_decide_eq_true hlane]
  · intro hgrant
    exact ⟨(i, lane), List.mem_filter.mpr ⟨hgrant, decide_eq_true rfl⟩, rfl⟩

theorem nodup_of_increasing {queue : List Nat} (horder : queue.Pairwise (· < ·)) :
    queue.Nodup := horder.imp Nat.ne_of_lt

@[simp] theorem not_hadPermit_queued : ¬ PermitPhase.queued.hadPermit := by
  simp [PermitPhase.hadPermit]

/-- The futures after one of them changed. -/
theorem getElem?_changed {futures : List CapacityFuture} {future : CapacityFuture}
    (hfuture : futures[i]? = some future) (changed : CapacityFuture) (j : Nat) :
    (futures.set i changed)[j]? = if j = i then some changed else futures[j]? := by
  obtain ⟨hi, _⟩ := List.getElem?_eq_some_iff.mp hfuture
  by_cases hj : j = i
  · rw [if_pos hj, hj, List.getElem?_set_self hi]
  · rw [if_neg hj, List.getElem?_set_ne (Ne.symm hj)]

theorem countP_changed {futures : List CapacityFuture} {future : CapacityFuture}
    (hfuture : futures[i]? = some future) (changed : CapacityFuture)
    (p : CapacityFuture → Bool) :
    (futures.set i changed).countP p + (if p future then 1 else 0) =
      futures.countP p + (if p changed then 1 else 0) := by
  obtain ⟨hi, hat⟩ := List.getElem?_eq_some_iff.mp hfuture
  have hle : (if p future then 1 else 0) ≤ futures.countP p := by
    split
    · rename_i hp
      exact List.countP_pos_iff.mpr ⟨future, List.mem_of_getElem? hfuture, hp⟩
    · exact Nat.zero_le _
  rw [List.countP_set hi, hat]
  omega

/-! ### Futures that are done -/

/-- A future with a permit moves on. -/
theorem QueuesMatch.moved (hqueues : QueuesMatch state) {before : PermitPhase}
    (hfuture : state.futures[i]? = some ⟨lane, before⟩) (hbefore : before ≠ .queued)
    {phase : PermitPhase} (hphase : phase ≠ .queued) (hring : after.roundRobin = state.roundRobin)
    (hsame : after.queues = state.queues)
    (hfutures : after.futures = state.futures.set i ⟨lane, phase⟩) : QueuesMatch after := by
  have hqueued : ∀ (j : Nat) (other : CapacityLane), after.futures[j]? = some ⟨other, .queued⟩ ↔
      state.futures[j]? = some ⟨other, .queued⟩ := by
    intro j other
    rw [hfutures, getElem?_changed hfuture]
    split
    · rename_i hj
      rw [hj, hfuture]
      simp [hphase, hbefore]
    · rfl
  refine ⟨?_, ?_, hring ▸ hqueues.ringNodup, ?_⟩
  · intro other queue hqueue
    obtain ⟨hne, horder, hmem⟩ := hqueues.queue other queue (hsame ▸ hqueue)
    exact ⟨hne, horder, fun j hj => (hqueued j other).mpr (hmem j hj)⟩
  · intro j other hj
    rw [hsame]
    exact hqueues.queued j other ((hqueued j other).mp hj)
  · rw [hring, hsame]
    exact hqueues.ring

theorem GrantsMatch.moved (hgrants : GrantsMatch state) {before : PermitPhase}
    (hfuture : state.futures[i]? = some ⟨lane, before⟩) (hbefore : before.hadPermit)
    {phase : PermitPhase} (hphase : phase.hadPermit) (hsame : after.queues = state.queues)
    (hgranted : after.grants = state.grants)
    (hfutures : after.futures = state.futures.set i ⟨lane, phase⟩) : GrantsMatch after := by
  have hlanes : ∀ other, after.grantsOf other = state.grantsOf other := by
    intro other
    unfold grantsOf
    rw [hgranted]
  refine ⟨?_, ?_, ?_⟩
  · intro j other
    rw [hgranted, hgrants.granted, hfutures, getElem?_changed hfuture]
    split
    · rename_i hj
      rw [hj, hfuture]
      constructor
      · rintro ⟨_, hat, _⟩
        cases hat
        exact ⟨phase, rfl, hphase⟩
      · rintro ⟨_, hat, _⟩
        cases hat
        exact ⟨before, rfl, hbefore⟩
    · rfl
  · intro other
    rw [hlanes]
    exact hgrants.order other
  · intro other queue hqueue
    rw [hlanes]
    exact hgrants.ahead other queue (hsame ▸ hqueue)

/-! ### Futures that leave their queue -/

/-- A future leaves the queue of its lane, and the lane leaves the ring with its last
future. -/
structure Leaves (state : ResourceState) (i : Nat) (lane : CapacityLane) (queue : List Nat)
    (phase : PermitPhase) (after : ResourceState) : Prop where
  future : state.futures[i]? = some ⟨lane, .queued⟩
  was : state.queues.get? lane = some queue
  gone : phase ≠ .queued
  futures : after.futures = state.futures.set i ⟨lane, phase⟩
  self : after.queues.get? lane = if queue.erase i = [] then none else some (queue.erase i)
  other : ∀ other, other ≠ lane → after.queues.get? other = state.queues.get? other
  ringNodup : after.roundRobin.Nodup
  ring : ∀ other, other ∈ after.roundRobin ↔
    other ∈ state.roundRobin ∧ (other = lane → queue.erase i ≠ [])

theorem Leaves.queue_sub {phase : PermitPhase} (hleaves : Leaves state i lane queue phase after)
    {other : CapacityLane} {rest : List Nat} (hrest : after.queues.get? other = some rest) :
    ∃ was, state.queues.get? other = some was ∧ rest.Sublist was ∧
      (other = lane → rest = was.erase i ∧ rest ≠ []) := by
  by_cases hother : other = lane
  · rw [hother, hleaves.self] at hrest
    split at hrest
    · cases hrest
    · rename_i hne
      cases hrest
      exact ⟨queue, hother ▸ hleaves.was, List.erase_sublist, fun _ => ⟨rfl, hne⟩⟩
  · rw [hleaves.other other hother] at hrest
    exact ⟨rest, hrest, List.Sublist.refl rest, fun h => absurd h hother⟩

theorem Leaves.futures_at {phase : PermitPhase} (hleaves : Leaves state i lane queue phase after)
    (j : Nat) : after.futures[j]? = if j = i then some ⟨lane, phase⟩ else state.futures[j]? := by
  rw [hleaves.futures]
  exact getElem?_changed hleaves.future _ j

theorem QueuesMatch.leaves (hqueues : QueuesMatch state) {phase : PermitPhase}
    (hleaves : Leaves state i lane queue phase after) : QueuesMatch after := by
  have hqueued : ∀ (j : Nat) (other : CapacityLane),
      after.futures[j]? = some ⟨other, .queued⟩ →
        ∃ rest, after.queues.get? other = some rest ∧ j ∈ rest := by
    intro j other hj
    rw [hleaves.futures_at] at hj
    split at hj
    · cases hj
      exact absurd rfl hleaves.gone
    · rename_i hne
      obtain ⟨was, hwas, hmem⟩ := hqueues.queued j other hj
      by_cases hother : other = lane
      · rw [hother, hleaves.was] at hwas
        cases hwas
        have hkept : j ∈ queue.erase i := (List.mem_erase_of_ne hne).mpr hmem
        refine ⟨queue.erase i, ?_, hkept⟩
        rw [hother, hleaves.self, if_neg (List.ne_nil_of_mem hkept)]
      · exact ⟨was, (hleaves.other other hother).trans hwas, hmem⟩
  refine ⟨?_, hqueued, hleaves.ringNodup, ?_⟩
  · intro other rest hrest
    obtain ⟨was, hwas, hsub, hlane⟩ := hleaves.queue_sub hrest
    obtain ⟨hne, horder, hmem⟩ := hqueues.queue other was hwas
    refine ⟨?_, horder.sublist hsub, ?_⟩
    · by_cases hother : other = lane
      · exact (hlane hother).2
      · rw [hleaves.other other hother, hwas] at hrest
        cases hrest
        exact hne
    · intro j hj
      have hat := hmem j (hsub.subset hj)
      rw [hleaves.futures_at, if_neg, hat]
      rintro rfl
      rw [hleaves.future] at hat
      cases hat
      rw [(hlane rfl).1] at hj
      exact (nodup_of_increasing horder).not_mem_erase hj
  · intro other
    rw [hleaves.ring, hqueues.ring]
    constructor
    · rintro ⟨⟨was, hwas⟩, hlane⟩
      by_cases hother : other = lane
      · rw [hother, hleaves.self, if_neg (hlane hother)]
        exact ⟨_, rfl⟩
      · exact ⟨was, (hleaves.other other hother).trans hwas⟩
    · rintro ⟨rest, hrest⟩
      obtain ⟨was, hwas, _, hlane⟩ := hleaves.queue_sub hrest
      refine ⟨⟨was, hwas⟩, ?_⟩
      rintro rfl
      rw [hleaves.was] at hwas
      cases hwas
      exact (hlane rfl).1 ▸ (hlane rfl).2

theorem GrantsMatch.withdrawn (hgrants : GrantsMatch state) {phase : PermitPhase}
    (hleaves : Leaves state i lane queue phase after) (hphase : ¬ phase.hadPermit)
    (hsame : after.grants = state.grants) : GrantsMatch after := by
  have hlanes : ∀ other, after.grantsOf other = state.grantsOf other := by
    intro other
    unfold grantsOf
    rw [hsame]
  refine ⟨?_, ?_, ?_⟩
  · intro j other
    rw [hsame, hgrants.granted, hleaves.futures_at]
    split
    · rename_i hj
      rw [hj, hleaves.future]
      constructor
      · rintro ⟨_, hat, hpermit⟩
        cases hat
        exact absurd hpermit not_hadPermit_queued
      · rintro ⟨_, hat, hpermit⟩
        cases hat
        exact absurd hpermit hphase
    · rfl
  · intro other
    rw [hlanes]
    exact hgrants.order other
  · intro other rest hrest j hj k hk
    obtain ⟨was, hwas, hsub, _⟩ := hleaves.queue_sub hrest
    rw [hlanes] at hj
    exact hgrants.ahead other was hwas j hj k (hsub.subset hk)

/-- The head of a queue gets a permit. -/
theorem GrantsMatch.granted_head (hqueues : QueuesMatch state) (hgrants : GrantsMatch state)
    {rest : List Nat} {phase : PermitPhase} (hleaves : Leaves state i lane (i :: rest) phase after)
    (hphase : phase.hadPermit) (hgrant : after.grants = state.grants ++ [(i, lane)]) :
    GrantsMatch after := by
  obtain ⟨_, horder, _⟩ := hqueues.queue lane (i :: rest) hleaves.was
  have hlanes : ∀ other, after.grantsOf other =
      state.grantsOf other ++ if other = lane then [i] else [] := by
    intro other
    unfold grantsOf
    rw [hgrant, List.filter_append, List.map_append]
    by_cases hother : other = lane
    · simp [hother]
    · simp [hother, Ne.symm hother]
  refine ⟨?_, ?_, ?_⟩
  · intro j other
    rw [hgrant, List.mem_append, hgrants.granted, hleaves.futures_at]
    split
    · rename_i hj
      rw [hj, hleaves.future]
      constructor
      · rintro (⟨_, hat, hpermit⟩ | hnew)
        · cases hat
          exact absurd hpermit not_hadPermit_queued
        · cases List.mem_singleton.mp hnew
          exact ⟨phase, rfl, hphase⟩
      · rintro ⟨_, hat, _⟩
        cases hat
        exact .inr (List.mem_singleton_self _)
    · rename_i hj
      simp [hj]
  · intro other
    rw [hlanes]
    refine List.pairwise_append.mpr ⟨hgrants.order other, ?_, ?_⟩
    · split
      · exact List.pairwise_singleton _ _
      · exact .nil
    · intro j hj k hk
      split at hk
      · rename_i hother
        rw [List.mem_singleton.mp hk]
        exact hgrants.ahead lane _ hleaves.was j (hother ▸ hj) i List.mem_cons_self
      · cases hk
  · intro other kept hkept j hj k hk
    obtain ⟨was, hwas, hsub, hlane⟩ := hleaves.queue_sub hkept
    rw [hlanes] at hj
    obtain hold | hnew := List.mem_append.mp hj
    · exact hgrants.ahead other was hwas j hold k (hsub.subset hk)
    · split at hnew
      · rename_i hother
        rw [hother, hleaves.was] at hwas
        cases hwas
        rw [(hlane hother).1, List.erase_cons_head] at hk
        rw [List.mem_singleton.mp hnew]
        exact (List.pairwise_cons.mp horder).1 k hk
      · cases hnew

/-! ### The operations -/

theorem Consistent.initial {limit : Int} (hlimit : 1 ≤ limit) :
    Consistent { limit } := by
  refine ⟨⟨nofun, nofun, .nil, ?_⟩, ⟨?_, fun _ => .nil, nofun⟩, rfl, ?_, rfl⟩
  · intro lane
    simp [Dict.get?]
  · intro i lane
    simp
  · show (0 : Int) ≤ limit
    omega

theorem getElem?_joined (futures : List CapacityFuture) (future : CapacityFuture) (j : Nat) :
    (futures ++ [future])[j]? = if j = futures.length then some future else futures[j]? := by
  by_cases hj : j = futures.length
  · rw [if_pos hj, hj, List.getElem?_concat_length]
  · rw [if_neg hj, List.getElem?_append]
    split
    · rfl
    · rw [List.getElem?_eq_none (by simp; omega), List.getElem?_eq_none (by omega)]

/-- What the part of `_acquire` under the lock does, whether the lane has a queue or not. -/
theorem enqueue_spec (state : ResourceState) (lane : CapacityLane) :
    (state.enqueue lane).futures = state.futures ++ [⟨lane, .queued⟩] ∧
    (∀ other, (state.enqueue lane).queues.get? other =
      if other = lane then some (state.queues.getD lane [] ++ [state.futures.length])
      else state.queues.get? other) ∧
    (state.enqueue lane).roundRobin =
      state.roundRobin ++ (if state.queues.get? lane = none then [lane] else []) ∧
    (state.enqueue lane).grants = state.grants ∧ (state.enqueue lane).inUse = state.inUse ∧
    (state.enqueue lane).limit = state.limit ∧ (state.enqueue lane).raised = state.raised := by
  have hget : ∀ (queue : List Nat) (other : CapacityLane),
      (state.queues.set lane queue).get? other =
        if other = lane then some queue else state.queues.get? other := by
    intro queue other
    by_cases hother : other = lane
    · rw [if_pos hother, hother, Dict.get?_set_self]
    · rw [if_neg hother, Dict.get?_set_ne _ _ hother]
  cases hqueue : state.queues.get? lane with
  | none =>
      have hafter : state.enqueue lane = { state with
          futures := state.futures ++ [⟨lane, .queued⟩]
          queues := state.queues.set lane [state.futures.length]
          roundRobin := state.roundRobin ++ [lane] } := by
        simp [ResourceState.enqueue, hqueue]
      rw [hafter, Dict.getD, hqueue]
      exact ⟨rfl, hget _, by simp, rfl, rfl, rfl, rfl⟩
  | some queue =>
      have hafter : state.enqueue lane = { state with
          futures := state.futures ++ [⟨lane, .queued⟩]
          queues := state.queues.set lane (queue ++ [state.futures.length]) } := by
        simp [ResourceState.enqueue, hqueue]
      rw [hafter, Dict.getD, hqueue]
      exact ⟨rfl, hget _, by simp, rfl, rfl, rfl, rfl⟩

theorem QueuesMatch.lt_length (hqueues : QueuesMatch state)
    (hqueue : state.queues.get? lane = some queue) (hi : i ∈ queue) : i < state.futures.length := by
  obtain ⟨_, _, hmem⟩ := hqueues.queue lane queue hqueue
  exact (List.getElem?_eq_some_iff.mp (hmem i hi)).1

/-- The queue of a lane, empty when it has none. -/
theorem QueuesMatch.getD_queue (hqueues : QueuesMatch state) (lane : CapacityLane) :
    (state.queues.getD lane []).Pairwise (· < ·) ∧
      ∀ i ∈ state.queues.getD lane [], state.futures[i]? = some ⟨lane, .queued⟩ := by
  cases hqueue : state.queues.get? lane with
  | none => simp [Dict.getD, hqueue]
  | some queue =>
      obtain ⟨_, horder, hmem⟩ := hqueues.queue lane queue hqueue
      simp only [Dict.getD, hqueue, Option.getD_some]
      exact ⟨horder, hmem⟩

theorem GrantsMatch.lt_length (hgrants : GrantsMatch state) (hi : i ∈ state.grantsOf lane) :
    i < state.futures.length := by
  obtain ⟨_, hfuture, _⟩ := (hgrants.granted i lane).mp (mem_grantsOf.mp hi)
  exact (List.getElem?_eq_some_iff.mp hfuture).1

theorem QueuesMatch.enqueue (hqueues : QueuesMatch state) (lane : CapacityLane) :
    QueuesMatch (state.enqueue lane) := by
  obtain ⟨hfutures, hget, hring, _, _, _, _⟩ := enqueue_spec state lane
  obtain ⟨horderOld, hmemOld⟩ := hqueues.getD_queue lane
  refine ⟨?_, ?_, ?_, ?_⟩
  · intro other queue hqueue
    rw [hget] at hqueue
    split at hqueue
    · rename_i hother
      cases hqueue
      refine ⟨by simp, ?_, ?_⟩
      · refine List.pairwise_append.mpr ⟨horderOld, List.pairwise_singleton _ _, ?_⟩
        intro j hj k hk
        rw [List.mem_singleton.mp hk]
        exact (List.getElem?_eq_some_iff.mp (hmemOld j hj)).1
      · intro j hj
        rw [hfutures, getElem?_joined]
        split
        · rw [hother]
        · rename_i hne
          have hj : j ∈ state.queues.getD lane [] :=
            (List.mem_append.mp hj).resolve_right fun h => hne (List.mem_singleton.mp h)
          rw [hother]
          exact hmemOld j hj
    · obtain ⟨hne, horder, hmem⟩ := hqueues.queue other queue hqueue
      refine ⟨hne, horder, fun j hj => ?_⟩
      rw [hfutures, getElem?_joined, if_neg (Nat.ne_of_lt (hqueues.lt_length hqueue hj))]
      exact hmem j hj
  · intro j other hj
    rw [hfutures, getElem?_joined] at hj
    rw [hget]
    split at hj
    · rename_i hnew
      cases hj
      exact ⟨_, if_pos rfl, by simp [hnew]⟩
    · obtain ⟨queue, hqueue, hmem⟩ := hqueues.queued j other hj
      by_cases hother : other = lane
      · rw [hother] at hqueue
        exact ⟨_, if_pos hother, by simp [Dict.getD, hqueue, hmem]⟩
      · exact ⟨queue, (if_neg hother).trans hqueue, hmem⟩
  · rw [hring]
    split
    · rename_i hnone
      have hout : lane ∉ state.roundRobin := by
        rw [hqueues.ring, hnone]
        simp
      exact List.nodup_append.mpr ⟨hqueues.ringNodup, List.nodup_singleton _, by
        intro other hother joined hjoined
        rw [List.mem_singleton.mp hjoined]
        exact fun h => hout (h ▸ hother)⟩
    · rw [List.append_nil]
      exact hqueues.ringNodup
  · intro other
    rw [hring, List.mem_append, hqueues.ring, hget]
    by_cases hother : other = lane
    · rw [hother, if_pos rfl]
      cases state.queues.get? lane with
      | none => simp
      | some queue => simp
    · rw [if_neg hother]
      split <;> simp [hother]

theorem GrantsMatch.enqueue (hgrants : GrantsMatch state) (lane : CapacityLane) :
    GrantsMatch (state.enqueue lane) := by
  obtain ⟨hfutures, hget, _, hsame, _, _, _⟩ := enqueue_spec state lane
  have hlanes : ∀ other, (state.enqueue lane).grantsOf other = state.grantsOf other := by
    intro other
    unfold grantsOf
    rw [hsame]
  refine ⟨?_, ?_, ?_⟩
  · intro j other
    rw [hsame, hgrants.granted, hfutures, getElem?_joined]
    split
    · rename_i hnew
      rw [hnew, List.getElem?_eq_none (Nat.le_refl _)]
      constructor
      · rintro ⟨_, hat, _⟩
        cases hat
      · rintro ⟨_, hat, hpermit⟩
        cases hat
        exact absurd hpermit not_hadPermit_queued
    · rfl
  · intro other
    rw [hlanes]
    exact hgrants.order other
  · intro other queue hqueue j hj k hk
    rw [hlanes] at hj
    rw [hget] at hqueue
    split at hqueue
    · rename_i hother
      cases hqueue
      obtain hold | hnew := List.mem_append.mp hk
      · cases hqueue : state.queues.get? lane with
        | none => simp [Dict.getD, hqueue] at hold
        | some queue =>
            simp only [Dict.getD, hqueue, Option.getD_some] at hold
            exact hgrants.ahead lane queue hqueue j (hother ▸ hj) k hold
      · rw [List.mem_singleton.mp hnew]
        exact hgrants.lt_length hj
    · exact hgrants.ahead other queue hqueue j hj k hk

theorem Consistent.enqueue (hstate : Consistent state) (lane : CapacityLane) :
    Consistent (state.enqueue lane) := by
  obtain ⟨hfutures, _, _, _, hinUse, hlimit, hraised⟩ := enqueue_spec state lane
  refine ⟨hstate.queues.enqueue lane, hstate.grants.enqueue lane, ?_, ?_, ?_⟩
  · rw [hinUse, hfutures, List.countP_append, hstate.inUse]
    simp [CapacityFuture.held]
  · rw [hinUse, hlimit]
    exact hstate.within
  · rw [hraised]
    exact hstate.raised

theorem Consistent.observe (hstate : Consistent state) (hobserve : state.observe i = some after) :
    Consistent after := by
  unfold ResourceState.observe at hobserve
  split at hobserve
  · rename_i lane hfuture
    cases hobserve
    have hcount : (state.futures.set i ⟨lane, .holding⟩).countP CapacityFuture.held + 1 =
        state.futures.countP CapacityFuture.held + 1 := countP_changed hfuture _ _
    refine ⟨hstate.queues.moved hfuture nofun (nofun : PermitPhase.holding ≠ .queued) rfl rfl rfl,
      hstate.grants.moved hfuture (.inl rfl) (.inr (.inl rfl)) rfl rfl rfl, ?_, hstate.within,
      hstate.raised⟩
    have hinUse := hstate.inUse
    simp only [setPhase]
    omega
  · cases hobserve

/-- A permit that comes back, before it is dispatched. -/
theorem Consistent.freed (hstate : Consistent state) {phase : PermitPhase}
    (hfuture : state.futures[i]? = some ⟨lane, phase⟩)
    (hheld : phase = .granted ∨ phase = .holding) :
    Consistent { state.setPhase i ⟨lane, phase⟩ .released with inUse := state.inUse - 1 } := by
  have hcount := countP_changed hfuture ⟨lane, .released⟩ CapacityFuture.held
  have hnow : CapacityFuture.held ⟨lane, .released⟩ = false := rfl
  have hpermit : phase.hadPermit := hheld.elim .inl fun h => .inr (.inl h)
  have hdone : phase ≠ .queued := by
    rintro rfl
    exact not_hadPermit_queued hpermit
  have hwas : CapacityFuture.held ⟨lane, phase⟩ = true := by
    obtain rfl | rfl := hheld <;> rfl
  rw [hwas, hnow, if_pos rfl, if_neg Bool.false_ne_true] at hcount
  refine ⟨hstate.queues.moved hfuture hdone (nofun : PermitPhase.released ≠ .queued) rfl rfl rfl,
    hstate.grants.moved hfuture hpermit (.inr (.inr rfl)) rfl rfl rfl, ?_, ?_, hstate.raised⟩
  · have hinUse := hstate.inUse
    simp only [setPhase]
    omega
  · have hwithin := hstate.within
    simp only [setPhase]
    omega

theorem withdraw_leaves (hqueues : QueuesMatch state)
    (hfuture : state.futures[i]? = some ⟨lane, .queued⟩) :
    ∃ queue, Leaves state i lane queue .withdrawn
      ((state.withdraw i lane).setPhase i ⟨lane, .queued⟩ .withdrawn) ∧
      (state.withdraw i lane).grants = state.grants ∧
      (state.withdraw i lane).inUse = state.inUse ∧
      (state.withdraw i lane).limit = state.limit ∧
      (state.withdraw i lane).raised = state.raised ∧
      (state.withdraw i lane).futures = state.futures ∧
      (state.withdraw i lane).roundRobin =
        if queue.erase i = [] then state.roundRobin.erase lane else state.roundRobin := by
  obtain ⟨queue, hqueue, hmem⟩ := hqueues.queued i lane hfuture
  refine ⟨queue, ?_⟩
  by_cases hlast : queue.erase i = []
  · have hafter : state.withdraw i lane =
        { state with
          queues := state.queues.erase lane, roundRobin := state.roundRobin.erase lane } := by
      simp [withdraw, hqueue, hlast]
    rw [hafter, if_pos hlast]
    refine ⟨⟨hfuture, hqueue, by rintro ⟨⟩, rfl, ?_, ?_, hqueues.ringNodup.erase lane, ?_⟩,
      rfl, rfl, rfl, rfl, rfl, rfl⟩
    · rw [if_pos hlast]
      exact Dict.get?_erase_self _ _
    · exact fun other hother => Dict.get?_erase_ne _ hother
    · intro other
      rw [show ((_ : ResourceState).roundRobin) = state.roundRobin.erase lane from rfl,
        hqueues.ringNodup.mem_erase_iff]
      constructor
      · rintro ⟨hne, hin⟩
        exact ⟨hin, fun h => absurd h hne⟩
      · rintro ⟨hin, hne⟩
        exact ⟨fun h => hne h hlast, hin⟩
  · have hafter : state.withdraw i lane =
        { state with queues := state.queues.set lane (queue.erase i) } := by
      simp [withdraw, hqueue, hlast]
    rw [hafter, if_neg hlast]
    refine ⟨⟨hfuture, hqueue, by rintro ⟨⟩, rfl, ?_, ?_, hqueues.ringNodup, ?_⟩,
      rfl, rfl, rfl, rfl, rfl, rfl⟩
    · rw [if_neg hlast]
      exact Dict.get?_set_self _ _ _
    · exact fun other hother => Dict.get?_set_ne _ _ hother
    · intro other
      exact ⟨fun hin => ⟨hin, fun _ => hlast⟩, And.left⟩

theorem Consistent.withdraw (hstate : Consistent state)
    (hfuture : state.futures[i]? = some ⟨lane, .queued⟩) :
    Consistent ((state.withdraw i lane).setPhase i ⟨lane, .queued⟩ .withdrawn) := by
  obtain ⟨queue, hleaves, hgrants, hinUse, hlimit, hraised, hfutures, _⟩ :=
    withdraw_leaves hstate.queues hfuture
  refine ⟨hstate.queues.leaves hleaves,
    hstate.grants.withdrawn hleaves (by simp [PermitPhase.hadPermit]) hgrants, ?_, ?_, ?_⟩
  · have hcount : (state.futures.set i ⟨lane, .withdrawn⟩).countP CapacityFuture.held + 0 =
        state.futures.countP CapacityFuture.held + 0 := countP_changed hfuture _ _
    have hwas := hstate.inUse
    simp only [setPhase, hfutures, hinUse]
    omega
  · simp only [setPhase, hinUse, hlimit]
    exact hstate.within
  · simp only [setPhase, hraised]
    exact hstate.raised

/-- One turn of `_dispatch`. -/
theorem rotate_leaves (hqueues : QueuesMatch state) {lanes : List CapacityLane} {rest : List Nat}
    (hring : state.roundRobin = lane :: lanes)
    (hqueue : state.queues.get? lane = some (i :: rest)) :
    Leaves state i lane (i :: rest) .granted
      ((state.rotate lane lanes rest).grant i ⟨lane, .queued⟩) := by
  obtain ⟨_, _, hmem⟩ := hqueues.queue lane _ hqueue
  have hnodup := hring ▸ hqueues.ringNodup
  obtain ⟨hout, hlanes⟩ := List.nodup_cons.mp hnodup
  have hfuture := hmem i List.mem_cons_self
  unfold rotate
  split
  · rename_i hlast
    refine ⟨hfuture, hqueue, nofun, rfl, ?_, ?_, hlanes, ?_⟩
    · rw [List.erase_cons_head, if_pos hlast]
      exact Dict.get?_erase_self _ _
    · exact fun other hother => Dict.get?_erase_ne _ hother
    · intro other
      rw [hring, List.mem_cons, List.erase_cons_head]
      constructor
      · intro hin
        exact ⟨.inr hin, fun h => absurd (h ▸ hin) hout⟩
      · rintro ⟨hother | hin, hne⟩
        · exact absurd hlast (hne hother)
        · exact hin
  · rename_i hlast
    refine ⟨hfuture, hqueue, nofun, rfl, ?_, ?_, ?_, ?_⟩
    · rw [List.erase_cons_head, if_neg hlast]
      exact Dict.get?_set_self _ _ _
    · exact fun other hother => Dict.get?_set_ne _ _ hother
    · refine List.nodup_append.mpr ⟨hlanes, List.nodup_singleton _, ?_⟩
      intro other hother joined hjoined
      rw [List.mem_singleton.mp hjoined]
      exact fun h => hout (h ▸ hother)
    · intro other
      rw [hring, List.mem_cons, List.erase_cons_head]
      show other ∈ lanes ++ [lane] ↔ _
      rw [List.mem_append, List.mem_singleton]
      constructor
      · exact fun hin => ⟨hin.symm, fun _ => hlast⟩
      · exact fun hin => hin.1.symm

theorem Consistent.turn (hstate : Consistent state) {lanes : List CapacityLane} {rest : List Nat}
    (hfree : state.inUse < state.limit) (hring : state.roundRobin = lane :: lanes)
    (hqueue : state.queues.get? lane = some (i :: rest)) :
    Consistent ((state.rotate lane lanes rest).grant i ⟨lane, .queued⟩) := by
  have hleaves := rotate_leaves hstate.queues hring hqueue
  have hrotate : (state.rotate lane lanes rest).inUse = state.inUse ∧
      (state.rotate lane lanes rest).limit = state.limit ∧
      (state.rotate lane lanes rest).raised = state.raised ∧
      (state.rotate lane lanes rest).grants = state.grants := by
    unfold rotate
    split <;> exact ⟨rfl, rfl, rfl, rfl⟩
  obtain ⟨hinUse, hlimit, hraised, hgrants⟩ := hrotate
  refine ⟨hstate.queues.leaves hleaves,
    hstate.grants.granted_head hstate.queues hleaves (.inl rfl) ?_, ?_, ?_, ?_⟩
  · simp only [grant, hgrants]
  · have hcount : (state.futures.set i ⟨lane, .granted⟩).countP CapacityFuture.held + 0 =
        state.futures.countP CapacityFuture.held + 1 := countP_changed hleaves.future _ _
    have hwas := hstate.inUse
    rw [hleaves.futures]
    simp only [grant, hinUse]
    omega
  · simp only [grant, setPhase, hinUse, hlimit]
    omega
  · simp only [grant, setPhase, hraised]
    exact hstate.raised

/-! ### The dispatch -/

/-- The turns of `_dispatch`, in their order. -/
inductive Dispatches : ResourceState → ResourceState → List CapacityLane → Prop
  | stop {state : ResourceState} (hstop : state.limit ≤ state.inUse ∨ state.roundRobin = []) :
      Dispatches state state []
  | turn {state after : ResourceState} {i : Nat} {lane : CapacityLane}
      {lanes turns : List CapacityLane} {rest : List Nat} (hfree : state.inUse < state.limit)
      (hring : state.roundRobin = lane :: lanes)
      (hqueue : state.queues.get? lane = some (i :: rest))
      (hrest : Dispatches ((state.rotate lane lanes rest).grant i ⟨lane, .queued⟩) after turns) :
      Dispatches state after (lane :: turns)

def waitingCount (state : ResourceState) : Nat :=
  state.futures.countP fun future => future.phase = .queued

/-- Every waiting future is in a queue. -/
theorem QueuesMatch.waitingCount_le (hqueues : QueuesMatch state) :
    state.waitingCount ≤ state.queued := by
  let waiting := (state.futures.zipIdx.filter fun entry => entry.1.phase = .queued).map Prod.snd
  have hlength : waiting.length = state.waitingCount := by
    have hzip : state.waitingCount =
        (state.futures.zipIdx.map Prod.fst).countP fun future => future.phase = .queued := by
      rw [List.zipIdx_map_fst]
      rfl
    rw [hzip, List.countP_map, List.countP_eq_length_filter, List.length_map]
    rfl
  have hnodup : waiting.Nodup := by
    refine List.Nodup.sublist (List.Sublist.map _ List.filter_sublist) ?_
    rw [List.zipIdx_map_snd]
    exact List.nodup_range'
  have hsub : waiting ⊆ state.queues.flatMap Prod.snd := by
    intro i hi
    obtain ⟨⟨⟨lane, phase⟩, j⟩, hentry, rfl⟩ := List.mem_map.mp hi
    obtain ⟨hentry, hphase⟩ := List.mem_filter.mp hentry
    have hphase : phase = .queued := of_decide_eq_true hphase
    have hfuture := List.mk_mem_zipIdx_iff_getElem?.mp hentry
    rw [hphase] at hfuture
    obtain ⟨queue, hqueue, hmem⟩ := hqueues.queued j lane hfuture
    obtain ⟨entry, hfind, rfl⟩ := Option.map_eq_some_iff.mp hqueue
    exact List.mem_flatMap.mpr ⟨entry, List.mem_of_find?_eq_some hfind, hmem⟩
  rw [← hlength, ResourceState.queued, ← List.length_flatMap]
  exact (List.Nodup.subperm hnodup hsub).length_le

theorem dispatchLoop_spec (hstate : Consistent state) {turns : Nat}
    (henough : state.waitingCount < turns) :
    ∃ granted, Dispatches state (dispatchLoop turns state) granted := by
  induction turns generalizing state with
  | zero => exact absurd henough (Nat.not_lt_zero _)
  | succ turns ih =>
      unfold dispatchLoop
      split
      · rename_i hfull
        exact ⟨[], .stop (.inl hfull)⟩
      · rename_i hfree
        split
        · rename_i hring
          exact ⟨[], .stop (.inr hring)⟩
        · rename_i lane lanes hring
          have hfree : state.inUse < state.limit := by omega
          obtain ⟨queue, hqueue⟩ :=
            (hstate.queues.ring lane).mp (hring ▸ List.mem_cons_self)
          obtain ⟨hne, _, hmem⟩ := hstate.queues.queue lane queue hqueue
          obtain ⟨i, rest, rfl⟩ := List.exists_cons_of_ne_nil hne
          have hfuture := hmem i List.mem_cons_self
          have hfutures : (state.rotate lane lanes rest).futures = state.futures := by
            unfold rotate
            split <;> rfl
          have hfewer : ((state.rotate lane lanes rest).grant i ⟨lane, .queued⟩).waitingCount <
              turns := by
            have hcount : ((state.futures.set i ⟨lane, .granted⟩).countP fun future =>
                future.phase = .queued) + 1 = state.waitingCount + 0 :=
              countP_changed hfuture _ _
            have hafter : ((state.rotate lane lanes rest).grant i ⟨lane, .queued⟩).waitingCount =
                (state.futures.set i ⟨lane, .granted⟩).countP fun future =>
                  future.phase = .queued := by
              simp only [waitingCount, grant, setPhase, hfutures]
            omega
          obtain ⟨granted, hgranted⟩ := ih (hstate.turn hfree hring hqueue) hfewer
          simp only [hqueue, hfutures, hfuture]
          exact ⟨lane :: granted, .turn hfree hring hqueue hgranted⟩

theorem Consistent.dispatch (hstate : Consistent state) :
    ∃ granted, Dispatches state state.dispatch granted :=
  dispatchLoop_spec hstate (Nat.lt_succ_of_le hstate.queues.waitingCount_le)

theorem Dispatches.consistent {turns : List CapacityLane}
    (hdispatch : Dispatches state after turns) (hstate : Consistent state) :
    Consistent after ∧ after.limit = state.limit ∧
      (after.limit ≤ after.inUse ∨ after.roundRobin = []) ∧
      after.grants.map Prod.snd = state.grants.map Prod.snd ++ turns := by
  induction hdispatch with
  | stop hstop => exact ⟨hstate, rfl, hstop, by simp⟩
  | turn hfree hring hqueue hrest ih =>
      rename_i state after i lane lanes turns rest
      obtain ⟨hafter, hlimit, hstop, hgrants⟩ := ih (hstate.turn hfree hring hqueue)
      have hrotate : (state.rotate lane lanes rest).limit = state.limit ∧
          (state.rotate lane lanes rest).grants = state.grants := by
        unfold rotate
        split <;> exact ⟨rfl, rfl⟩
      refine ⟨hafter, hlimit.trans hrotate.1, hstop, ?_⟩
      rw [hgrants]
      simp [grant, hrotate.2]

/-- While a lane waits, a dispatch gives another lane a turn only when it is ahead. -/
theorem Dispatches.aheadCount_le {turns : List CapacityLane}
    (hdispatch : Dispatches state after turns) (hqueues : QueuesMatch state)
    (hwaits : lane ∈ state.roundRobin) (other : CapacityLane) :
    aheadCount lane other turns +
        (if lane ∈ turns then 0 else aheadCount lane other after.roundRobin) ≤
      aheadCount lane other state.roundRobin := by
  induction hdispatch with
  | stop _ => simp
  | turn hfree hring hqueue hrest ih =>
      rename_i state after i first lanes turns rest
      by_cases hfirst : first = lane
      · simp [hfirst]
      · have hmem : lane ∈ lanes :=
          (List.mem_cons.mp (hring ▸ hwaits)).resolve_left (Ne.symm hfirst)
        have hnext : ∃ joined, ((state.rotate first lanes rest).grant i
            ⟨first, .queued⟩).roundRobin = lanes ++ joined := by
          unfold rotate
          split
          · exact ⟨[], (List.append_nil _).symm⟩
          · exact ⟨[first], rfl⟩
        obtain ⟨joined, hjoined⟩ := hnext
        have hleft := ih (hqueues.leaves (rotate_leaves hqueues hring hqueue))
          (by rw [hjoined]; exact List.mem_append_left _ hmem)
        rw [hjoined, aheadCount_append hmem] at hleft
        rw [aheadCount_cons_of_ne hfirst, hring, aheadCount_cons_of_ne hfirst]
        simp only [List.mem_cons, Ne.symm hfirst, false_or]
        omega

/-! ### One step of one resource -/

/-- The invariant between the steps: a permit is free only when nobody waits. -/
structure Settled (state : ResourceState) : Prop extends Consistent state where
  working : state.limit ≤ state.inUse ∨ state.roundRobin = []

/-- What a step grants, and whom it makes wait: `turns` are the lanes of the permits that
it grants, and a lane that waited and still waits has only the other lanes that were
ahead of it, and had no turn, ahead of it. -/
structure Serves (state after : ResourceState) (turns : List CapacityLane) : Prop where
  settled : Settled after
  limit : after.limit = state.limit
  grants : after.grants.map Prod.snd = state.grants.map Prod.snd ++ turns
  fair : ∀ lane ∈ state.roundRobin, ∀ other, aheadCount lane other turns +
    (if lane ∈ turns ∨ lane ∉ after.roundRobin then 0
      else aheadCount lane other after.roundRobin) ≤ aheadCount lane other state.roundRobin

/-- A dispatch after a change that adds lanes to the end of the ring at most. -/
theorem Consistent.serves {middle : ResourceState} (hmiddle : Consistent middle)
    (hlimit : middle.limit = state.limit) (hgrants : middle.grants = state.grants)
    {joined : List CapacityLane} (hring : middle.roundRobin = state.roundRobin ++ joined) :
    ∃ turns, Serves state middle.dispatch turns := by
  obtain ⟨turns, hdispatch⟩ := hmiddle.dispatch
  obtain ⟨hafter, hkept, hworking, hgranted⟩ := hdispatch.consistent hmiddle
  refine ⟨turns, ⟨hafter, hworking⟩, hkept.trans hlimit, by rw [hgranted, hgrants], ?_⟩
  intro lane hlane other
  have hahead := hdispatch.aheadCount_le hmiddle.queues
    (by rw [hring]; exact List.mem_append_left _ hlane) other
  rw [hring, aheadCount_append hlane] at hahead
  split
  · exact Nat.le_trans (Nat.le_add_right _ _) hahead
  · rename_i hwaits
    rwa [if_neg fun h => hwaits (.inl h)] at hahead

/-- A step that dispatches nothing. -/
theorem Settled.serves (hstate : Settled state) (hafter : Consistent after)
    (hinUse : after.inUse = state.inUse) (hlimit : after.limit = state.limit)
    (hgrants : after.grants = state.grants)
    (hring : after.roundRobin = state.roundRobin ∨
      ∃ gone, after.roundRobin = state.roundRobin.erase gone) : Serves state after [] := by
  refine ⟨⟨hafter, ?_⟩, hlimit, by simp [hgrants], ?_⟩
  · rw [hinUse, hlimit]
    refine hstate.working.imp id fun hnone => ?_
    obtain hring | ⟨gone, hring⟩ := hring
    · rw [hring, hnone]
    · rw [hring, hnone, List.erase_nil]
  · intro lane hlane other
    split
    · simp
    · rename_i hwaits
      have hwaits : lane ∈ after.roundRobin := not_not.mp fun h => hwaits (.inr h)
      rw [aheadCount_nil, Nat.zero_add]
      obtain hring | ⟨gone, hring⟩ := hring
      · rewrite [hring]
        exact Nat.le_refl _
      · rw [hring] at hwaits ⊢
        apply aheadCount_erase_le
        rintro rfl
        exact hstate.queues.ringNodup.not_mem_erase hwaits

theorem observe_spec (hobserve : state.observe i = some after) :
    after.inUse = state.inUse ∧ after.limit = state.limit ∧ after.grants = state.grants ∧
      after.roundRobin = state.roundRobin := by
  unfold ResourceState.observe at hobserve
  split at hobserve
  · cases hobserve
    exact ⟨rfl, rfl, rfl, rfl⟩
  · cases hobserve

theorem observe_serves (hstate : Settled state) (hobserve : state.observe i = some after) :
    Serves state after [] := by
  obtain ⟨hinUse, hlimit, hgrants, hring⟩ := observe_spec hobserve
  exact hstate.serves (hstate.toConsistent.observe hobserve) hinUse hlimit hgrants (.inl hring)

theorem giveBack_serves (hstate : Settled state) {phase : PermitPhase}
    (hfuture : state.futures[i]? = some ⟨lane, phase⟩)
    (hheld : phase = .granted ∨ phase = .holding) :
    ∃ turns, Serves state (state.giveBack i ⟨lane, phase⟩) turns :=
  (hstate.freed hfuture hheld).serves rfl rfl (List.append_nil _).symm

theorem cancelWaiter_serves (hstate : Settled state)
    (hcancel : state.cancelWaiter i = some after) : ∃ turns, Serves state after turns := by
  unfold cancelWaiter at hcancel
  split at hcancel
  · rename_i lane hfuture
    cases hcancel
    exact giveBack_serves hstate hfuture (.inl rfl)
  · rename_i lane hfuture
    cases hcancel
    obtain ⟨queue, _, hgrants, hinUse, hlimit, _, _, hring⟩ :=
      withdraw_leaves hstate.queues hfuture
    refine ⟨[], hstate.serves (hstate.withdraw hfuture) hinUse hlimit hgrants ?_⟩
    simp only [setPhase, hring]
    split
    · exact .inr ⟨lane, rfl⟩
    · exact .inl rfl
  · cases hcancel

theorem release_serves (hstate : Settled state) (hrelease : state.release i = some after) :
    ∃ turns, Serves state after turns := by
  unfold release at hrelease
  split at hrelease
  · rename_i lane hfuture
    have hpos : 0 < state.futures.countP CapacityFuture.held :=
      List.countP_pos_iff.mpr ⟨_, List.mem_of_getElem? hfuture, rfl⟩
    have hinUse := hstate.inUse
    rw [if_neg (by omega)] at hrelease
    cases hrelease
    exact giveBack_serves hstate hfuture (.inr rfl)
  · cases hrelease

theorem acquire_serves (hstate : Settled state) (lane : CapacityLane) :
    ∃ turns, Serves state (state.acquire lane) turns := by
  obtain ⟨_, _, hring, hgrants, _, hlimit, _⟩ := enqueue_spec state lane
  obtain ⟨turns, hserves⟩ := (hstate.enqueue lane).serves hlimit hgrants hring
  unfold acquire
  cases hobserve : (state.enqueue lane).dispatch.observe state.futures.length with
  | none =>
      simp only [hobserve, Option.getD_none]
      exact ⟨turns, hserves⟩
  | some after =>
      simp only [hobserve, Option.getD_some]
      obtain ⟨_, hlimit, hgrants, hring⟩ := observe_spec hobserve
      refine ⟨turns, (observe_serves hserves.settled hobserve).settled,
        hlimit.trans hserves.limit, by rw [hgrants, hserves.grants], ?_⟩
      rw [hring]
      exact hserves.fair

end ResourceState

/-! ### The gate -/

namespace ResourceState

/-- What a resource shows between the steps. -/
structure CapacityContract (state : ResourceState) : Prop where
  inUse : state.inUse = state.futures.countP CapacityFuture.held
  within : state.inUse ≤ state.limit
  working : state.inUse = state.limit ∨ ∀ lane, ⟨lane, .queued⟩ ∉ state.futures
  ringNodup : state.roundRobin.Nodup
  ring : ∀ lane, lane ∈ state.roundRobin ↔ ∃ i rest, state.queues.get? lane = some (i :: rest)
  waiting : ∀ lane i, i ∈ state.queues.getD lane [] ↔ state.futures[i]? = some ⟨lane, .queued⟩
  arrival : ∀ lane, (state.grantsOf lane ++ state.queues.getD lane []).Pairwise (· < ·)
  granted : ∀ lane i, i ∈ state.grantsOf lane ↔
    ∃ phase, state.futures[i]? = some ⟨lane, phase⟩ ∧ phase.hadPermit
  raised : state.raised = false

theorem QueuesMatch.mem_ring_iff (hqueues : QueuesMatch state) :
    lane ∈ state.roundRobin ↔ ⟨lane, .queued⟩ ∈ state.futures := by
  rw [hqueues.ring]
  constructor
  · rintro ⟨queue, hqueue⟩
    obtain ⟨hne, _, hmem⟩ := hqueues.queue lane queue hqueue
    obtain ⟨i, rest, rfl⟩ := List.exists_cons_of_ne_nil hne
    exact List.mem_of_getElem? (hmem i List.mem_cons_self)
  · intro hwaits
    obtain ⟨i, hi⟩ := List.mem_iff_getElem?.mp hwaits
    obtain ⟨queue, hqueue, _⟩ := hqueues.queued i lane hi
    exact ⟨queue, hqueue⟩

theorem Settled.contract (hstate : Settled state) : CapacityContract state := by
  have hqueues := hstate.queues
  refine ⟨hstate.inUse, hstate.within, ?_, hqueues.ringNodup, ?_, ?_, ?_, ?_, hstate.raised⟩
  · refine hstate.working.imp (fun hfull => ?_) fun hnone lane hwaits => ?_
    · have hwithin := hstate.within
      omega
    · have hmem := hqueues.mem_ring_iff.mpr hwaits
      rw [hnone] at hmem
      cases hmem
  · intro lane
    rw [hqueues.ring]
    constructor
    · rintro ⟨queue, hqueue⟩
      obtain ⟨i, rest, rfl⟩ := List.exists_cons_of_ne_nil (hqueues.queue lane queue hqueue).1
      exact ⟨i, rest, hqueue⟩
    · rintro ⟨i, rest, hqueue⟩
      exact ⟨_, hqueue⟩
  · intro lane i
    constructor
    · exact (hqueues.getD_queue lane).2 i
    · intro hfuture
      obtain ⟨queue, hqueue, hmem⟩ := hqueues.queued i lane hfuture
      simpa [Dict.getD, hqueue] using hmem
  · intro lane
    refine List.pairwise_append.mpr
      ⟨hstate.grants.order lane, (hqueues.getD_queue lane).1, fun i hi j hj => ?_⟩
    cases hqueue : state.queues.get? lane with
    | none => simp [Dict.getD, hqueue] at hj
    | some queue =>
        simp only [Dict.getD, hqueue, Option.getD_some] at hj
        exact hstate.grants.ahead lane queue hqueue i hi j hj
  · intro lane i
    rw [mem_grantsOf]
    exact hstate.grants.granted i lane

end ResourceState

namespace FairCapacityGate

open ResourceState

/-- An acquisition of the lane waits for the resource. -/
def Waits (resourceId : String) (lane : CapacityLane) (gate : FairCapacityGate) : Prop :=
  ∃ state, gate.get? resourceId = some state ∧ ⟨lane, .queued⟩ ∈ state.futures

/-- Every resource keeps its contract, and while a lane waits for a resource no other
lane has more than one turn before it. -/
structure Contract (gate : FairCapacityGate) : Prop where
  resources : ∀ resourceId state, gate.get? resourceId = some state → CapacityContract state
  fair : ∀ ls after resourceId lane, exec step ls gate = some after →
    Along step (fun gate _ => Waits resourceId lane gate) ls gate →
    ∀ state final, gate.get? resourceId = some state → after.get? resourceId = some final →
      ∃ turns, final.grants.map Prod.snd = state.grants.map Prod.snd ++ turns ∧
        ∀ other, aheadCount lane other turns ≤ 1

def AllSettled (gate : FairCapacityGate) : Prop :=
  ∀ resourceId state, gate.get? resourceId = some state → Settled state

variable {gate after : FairCapacityGate}

/-- What a step does to one resource: nothing, or it serves its lanes. -/
def Steps (gate after : FairCapacityGate) (resourceId : String) : Prop :=
  after.get? resourceId = gate.get? resourceId ∨
    ∃ state final turns, (gate.get? resourceId).getD state = state ∧
      after.get? resourceId = some final ∧ Serves state final turns

theorem update_steps (hgate : AllSettled gate) {changed : String}
    {change : ResourceState → Option ResourceState}
    (hchange : ∀ state final, Settled state → change state = some final →
      ∃ turns, Serves state final turns)
    (hstep : gate.update changed change = some after) (resourceId : String) :
    Steps gate after resourceId := by
  unfold update at hstep
  split at hstep
  · cases hstep
  · rename_i state hstate
    obtain ⟨final, hfinal, rfl⟩ := Option.map_eq_some_iff.mp hstep
    by_cases hsame : resourceId = changed
    · obtain ⟨turns, hserves⟩ := hchange state final (hgate _ _ hstate) hfinal
      rw [hsame]
      exact .inr ⟨state, final, turns, by simp [hstate], Dict.get?_set_self _ _ _, hserves⟩
    · exact .inl (Dict.get?_set_ne _ _ hsame)

theorem step_steps (hgate : AllSettled gate) {l : CapacityLabel}
    (hstep : step gate l = some after) (resourceId : String) : Steps gate after resourceId := by
  cases l with
  | acquire changed lane limit =>
      dsimp only [step] at hstep
      split at hstep
      · cases hstep
        exact .inl rfl
      · rename_i hvalid
        split at hstep
        · cases hstep
          exact .inl rfl
        · cases hstep
          by_cases hsame : resourceId = changed
          · have hsettled : Settled ((gate.get? changed).getD { limit }) := by
              cases hstate : gate.get? changed with
              | none => exact ⟨.initial (by omega), .inr rfl⟩
              | some state => exact hgate changed state hstate
            obtain ⟨turns, hserves⟩ := acquire_serves hsettled lane
            rw [hsame]
            refine .inr ⟨_, _, turns, ?_, Dict.get?_set_self _ _ _, hserves⟩
            cases gate.get? changed <;> rfl
          · exact .inl (Dict.get?_set_ne _ _ hsame)
  | observe changed i =>
      exact update_steps hgate (fun _ _ hstate h => ⟨[], observe_serves hstate h⟩) hstep resourceId
  | cancel changed i =>
      exact update_steps hgate (fun _ _ hstate h => cancelWaiter_serves hstate h) hstep resourceId
  | release changed i =>
      exact update_steps hgate (fun _ _ hstate h => release_serves hstate h) hstep resourceId

theorem AllSettled.step (hgate : AllSettled gate) {l : CapacityLabel}
    (hstep : step gate l = some after) : AllSettled after := by
  intro resourceId state hstate
  obtain hsame | ⟨_, final, turns, _, hfinal, hserves⟩ := step_steps hgate hstep resourceId
  · exact hgate resourceId state (hsame ▸ hstate)
  · rw [hfinal] at hstate
    cases hstate
    exact hserves.settled

/-- A lane that waits throughout a run: the other lanes have their turns before it from
those that were ahead of it. -/
theorem turns_ahead (hgate : AllSettled gate) {ls : List CapacityLabel} {resourceId : String}
    {lane : CapacityLane} (hrun : exec FairCapacityGate.step ls gate = some after)
    (hwaits : Along FairCapacityGate.step (fun gate _ => Waits resourceId lane gate) ls gate)
    {state final : ResourceState} (hstate : gate.get? resourceId = some state)
    (hfinal : after.get? resourceId = some final) :
    ∃ turns, final.grants.map Prod.snd = state.grants.map Prod.snd ++ turns ∧
      (lane ∉ state.roundRobin → turns = []) ∧
      ∀ other, aheadCount lane other turns ≤ aheadCount lane other state.roundRobin := by
  induction ls generalizing gate state with
  | nil =>
      cases hrun
      rw [hstate] at hfinal
      cases hfinal
      exact ⟨[], (List.append_nil _).symm, fun _ => rfl, fun _ => by simp⟩
  | cons l rest ih =>
      obtain ⟨middle, hstep, hrest⟩ := Option.bind_eq_some_iff.mp hrun
      have hnext := hwaits.2 middle hstep
      have hmiddle := hgate.step hstep
      obtain hsame | ⟨was, changed, turns, hwas, hchanged, hserves⟩ :=
        step_steps hgate hstep resourceId
      · exact ih hmiddle hrest hnext (hsame.trans hstate)
      · have hwas : state = was := by
          rw [hstate] at hwas
          exact hwas
        subst hwas
        have hlane : lane ∈ state.roundRobin := by
          obtain ⟨now, hnow, hqueued⟩ := hwaits.1
          rw [hstate] at hnow
          cases hnow
          exact (hgate _ _ hstate).queues.mem_ring_iff.mpr hqueued
        obtain ⟨later, hlater, hgone, hahead⟩ := ih hmiddle hrest hnext hchanged
        refine ⟨turns ++ later, by rw [hlater, hserves.grants, List.append_assoc],
          fun hout => absurd hlane hout, ?_⟩
        intro other
        have hfair := hserves.fair lane hlane other
        by_cases hturn : lane ∈ turns
        · rw [aheadCount_append hturn]
          exact Nat.le_trans (Nat.le_add_right _ _) hfair
        · rw [aheadCount_append_of_not_mem hturn, ← aheadCount_of_not_mem hturn]
          by_cases hstays : lane ∈ changed.roundRobin
          · rw [if_neg (by simp [hturn, hstays])] at hfair
            exact Nat.le_trans (Nat.add_le_add_left (hahead other) _) hfair
          · rw [hgone hstays, aheadCount_nil]
            exact Nat.le_trans (Nat.le_add_right _ _) hfair

/-- In every state that acquisitions, cancellations and releases reach, the gate keeps
its contract. -/
theorem capacity_contract (ls : List CapacityLabel) : Always step Contract ls [] := by
  refine always_of_invariant (I := AllSettled) (C := fun _ _ => True) ?_ ?_ ?_
    (along_of_forall (fun _ _ => trivial) ls _)
  · exact fun gate l after hgate _ hstep => hgate.step hstep
  · intro gate hgate
    refine ⟨fun resourceId state hstate => (hgate resourceId state hstate).contract, ?_⟩
    intro ls after resourceId lane hrun hwaits state final hstate hfinal
    obtain ⟨turns, hgrants, _, hahead⟩ := turns_ahead hgate hrun hwaits hstate hfinal
    refine ⟨turns, hgrants, fun other => Nat.le_trans (hahead other) ?_⟩
    exact aheadCount_le_one (hgate resourceId state hstate).queues.ringNodup
  · intro resourceId state hstate
    cases hstate

/-- Two waiters of one lane do not delay the other lane by more than one permit. -/
example :
    let a : CapacityLane := { tenantKey := "tenant", appId := "app", scopeKey := "group-a" }
    let b : CapacityLane := { tenantKey := "tenant", appId := "app", scopeKey := "group-b" }
    let run : List CapacityLabel :=
      [.acquire "provider" a 1, .acquire "provider" a 1, .acquire "provider" a 1,
        .acquire "provider" b 1, .release "provider" 0, .cancel "provider" 1,
        .observe "provider" 3, .release "provider" 3]
    (exec step run []).bind (fun gate => (gate.get? "provider").map fun state =>
      (state.grants.map Prod.fst, state.inUse)) = some ([0, 1, 3, 2], 1) := by
  decide +kernel

end FairCapacityGate

end Codex2Lark
