import Codex2Lark.Storage.DatabaseActor
import Mathlib.Data.List.Basic
import Mathlib.Tactic.Cases

/-!
Which of the accepted calls are answered. A request that is before every stop request is answered
when the thread comes to it; one that is put after a stop request, or after the end of the thread,
never is.
-/

namespace Codex2Lark

variable {σ α : Type}

namespace Worker

/-- The request that is being executed. -/
def current : Worker σ α → List Nat
  | .executing _ request => [request.id]
  | _ => []

/-- The thread has its connection, or had it. -/
def isUp : Worker σ α → Bool
  | .running _ | .executing _ _ | .ended => true
  | _ => false

/-- The steps of the thread before it takes the next request. -/
def cost : Worker σ α → Option Nat
  | .running _ | .failing _ => some 0
  | .starting | .executing _ _ => some 1
  | .idle | .ended => none

end Worker

namespace Actor

variable {actor after : Actor σ α} {checkpoint : DatabaseOperation σ α} {label : ActorStep σ α}
  {id k : Nat}

def queued (actor : Actor σ α) : List Nat := actor.requests.filterMap fun request =>
  request.map Request.id

/-- How often a call is on a response queue, with the thread, on the queue and waiting for room. -/
def places (actor : Actor σ α) (id : Nat) : Nat :=
  (actor.responses.map Prod.fst).count id + actor.worker.current.count id + actor.queued.count id +
    (actor.blocked.map Request.id).count id

/-- The condition under which no call is lost: none is accepted by an actor that has stopped or has
its stop request, and none is waiting for room when the stop request is put or when the thread of a
failed start has looked at the queue for the last time. -/
def Orderly (actor : Actor σ α) : ActorStep σ α → Prop
  | .call _ | .close => actor.accepts = true → actor.stopped = false
  | .checkpointed id => actor.hasRoom = true → id ∈ actor.checkpoints →
      (∃ value, actor.responses.lookup id = some (.ok value)) → actor.blocked = []
  | .stop => actor.hasRoom = true → 0 < actor.stopping → actor.blocked = []
  | .failNext => (∃ failure, actor.worker = .failing failure) → actor.requests = [] →
      actor.blocked = []
  | _ => True

/-! ### What a step can do -/

inductive Effect (actor : Actor σ α) : ActorStep σ α → Actor σ α → Prop
  | flags {label : ActorStep σ α} (started closed opening : Bool) (checkpoints : List Nat)
      (joining : Nat) (hstarted : started = true → actor.started = true)
      (hfresh : started = false → closed = false → actor.started = false ∧ actor.closed = false)
      (hlabel : label.isWorker = false) :
      Effect actor label { actor with started, closed, opening, checkpoints, joining }
  | start (hstarted : actor.started = false) (hclosed : actor.closed = false) :
      Effect actor .open { actor with worker := .starting, started := true, opening := true }
  | accepted {label : ActorStep σ α} (operation : DatabaseOperation σ α) (checkpoints : List Nat)
      (haccepts : actor.accepts = true) (hroom : actor.hasRoom = true)
      (hlabel : label.isWorker = false) (horderly : actor.Orderly label → actor.stopped = false) :
      Effect actor label
        { actor with
          requests := actor.requests ++ [some ⟨actor.nextId, operation⟩]
          nextId := actor.nextId + 1
          checkpoints }
  | waits {label : ActorStep σ α} (operation : DatabaseOperation σ α) (checkpoints : List Nat)
      (haccepts : actor.accepts = true) (hlabel : label.isWorker = false)
      (horderly : actor.Orderly label → actor.stopped = false) :
      Effect actor label
        { actor with
          blocked := actor.blocked ++ [⟨actor.nextId, operation⟩]
          nextId := actor.nextId + 1
          checkpoints }
  | put (request : Request σ α) (hmem : request ∈ actor.blocked) :
      Effect actor (.retry request.id)
        { actor with
          requests := actor.requests ++ [some request]
          blocked := actor.blocked.filter fun other => other.id ≠ request.id }
  | stopPut {label : ActorStep σ α} (checkpoints : List Nat) (stopping joining : Nat)
      (hstopping : stopping ≤ actor.stopping)
      (hcause : 0 < actor.stopping ∨ ∃ id value, (id, .ok value) ∈ actor.responses)
      (hlabel : label.isWorker = false) (horderly : actor.Orderly label → actor.blocked = []) :
      Effect actor label
        { actor with requests := actor.requests ++ [none], checkpoints, stopping, joining }
  | stopWaits (id : Nat) (checkpoints : List Nat)
      (hcause : ∃ id value, (id, .ok value) ∈ actor.responses) :
      Effect actor (.checkpointed id) { actor with checkpoints, stopping := actor.stopping + 1 }
  | connected (connection : σ) (hworker : actor.worker = .starting) :
      Effect actor (.connected (.ok connection)) { actor with worker := .running connection }
  | startFailed (failure : PyError) (hworker : actor.worker = .starting) :
      Effect actor (.connected (.error failure))
        { actor with worker := .failing failure, startupFailure := some failure }
  | tookStop (connection : σ) (rest : List (Option (Request σ α)))
      (hworker : actor.worker = .running connection) (hrequests : actor.requests = none :: rest) :
      Effect actor .take { actor with worker := .ended, requests := rest }
  | took (connection : σ) (request : Request σ α) (rest : List (Option (Request σ α)))
      (hworker : actor.worker = .running connection)
      (hrequests : actor.requests = some request :: rest) :
      Effect actor .take
        { actor with worker := .executing connection request, requests := rest }
  | executed (connection next : σ) (request : Request σ α) (result : Except PyError α)
      (hworker : actor.worker = .executing connection request) :
      Effect actor .execute
        { actor with
          worker := .running next, responses := actor.responses ++ [(request.id, result)] }
  | drained (failure : PyError) (hworker : actor.worker = .failing failure)
      (hrequests : actor.requests = []) :
      Effect actor .failNext { actor with worker := .ended }
  | skipped (failure : PyError) (rest : List (Option (Request σ α)))
      (hworker : actor.worker = .failing failure) (hrequests : actor.requests = none :: rest) :
      Effect actor .failNext { actor with requests := rest }
  | failed (failure : PyError) (request : Request σ α) (rest : List (Option (Request σ α)))
      (hworker : actor.worker = .failing failure)
      (hrequests : actor.requests = some request :: rest) :
      Effect actor .failNext
        { actor with
          requests := rest, responses := actor.responses ++ [(request.id, .error failure)] }

theorem accept_effect (operation : DatabaseOperation σ α) (checkpoints : List Nat)
    (haccepts : actor.accepts = true) (hlabel : label.isWorker = false)
    (horderly : actor.Orderly label → actor.stopped = false) :
    Effect actor label { actor.accept operation with checkpoints } := by
  unfold accept
  dsimp only
  split
  · rename_i hroom
    exact .accepted operation checkpoints haccepts hroom hlabel horderly
  · exact .waits operation checkpoints haccepts hlabel horderly

theorem putStop_eq (hroom : actor.hasRoom = true) :
    actor.putStop =
      { actor with requests := actor.requests ++ [none], joining := actor.joining + 1 } :=
  if_pos hroom

theorem flags_same (hlabel : label.isWorker = false) : Effect actor label actor :=
  .flags actor.started actor.closed actor.opening actor.checkpoints actor.joining id
    (fun hstarted hclosed => ⟨hstarted, hclosed⟩) hlabel

theorem step_effect (hstep : actor.step checkpoint label = some after) :
    Effect actor label after := by
  unfold step at hstep
  cases label with
  | «open» =>
      dsimp only at hstep
      split at hstep
      · cases hstep
        exact flags_same rfl
      · rename_i hstarted
        split at hstep
        · cases hstep
          exact flags_same rfl
        · rename_i hclosed
          cases hstep
          exact .start (by simpa using hstarted) (by simpa using hclosed)
  | connected result =>
      dsimp only at hstep
      split at hstep
      · rename_i connection hworker
        cases hstep
        exact .connected connection hworker
      · rename_i failure hworker
        cases hstep
        exact .startFailed failure hworker
      · cases hstep
  | opened =>
      dsimp only at hstep
      split at hstep
      · split at hstep
        · cases hstep
          exact .flags _ _ _ actor.checkpoints actor.joining nofun nofun rfl
        · cases hstep
          exact .flags actor.started actor.closed _ actor.checkpoints actor.joining (fun h => h)
            (fun hstarted hclosed => ⟨hstarted, hclosed⟩) rfl
      · cases hstep
  | call operation =>
      dsimp only at hstep
      split at hstep
      · rename_i haccepts
        cases hstep
        exact accept_effect operation (actor.accept operation).checkpoints haccepts rfl
          fun horderly => horderly haccepts
      · cases hstep
        exact flags_same rfl
  | retry id =>
      dsimp only at hstep
      split at hstep
      · rename_i request hfind
        obtain rfl : request.id = id := by simpa using List.find?_some hfind
        split at hstep
        · cases hstep
          exact .put request (List.mem_of_find?_eq_some hfind)
        · cases hstep
      · cases hstep
  | close =>
      dsimp only at hstep
      split at hstep
      · cases hstep
        exact flags_same rfl
      · rename_i hclosed
        split at hstep
        · cases hstep
          exact .flags actor.started _ actor.opening actor.checkpoints actor.joining (fun h => h)
            nofun rfl
        · rename_i hstarted
          have haccepts : actor.accepts = true := by
            simpa [accepts] using And.intro hstarted hclosed
          cases hstep
          exact accept_effect checkpoint _ haccepts rfl fun horderly => horderly haccepts
  | checkpointed id =>
      dsimp only at hstep
      split at hstep
      · rename_i hmem
        split at hstep
        · rename_i value hlookup
          have hanswer : (id, .ok value) ∈ actor.responses := by
            obtain ⟨before, rest, hresponses, _⟩ := List.lookup_eq_some_iff.mp hlookup
            rw [hresponses]
            exact List.mem_append_right _ List.mem_cons_self
          cases hstep
          unfold putStop
          split
          · rename_i hroom
            exact .stopPut _ _ _ (Nat.le_refl _) (.inr ⟨id, value, hanswer⟩) rfl fun horderly =>
              horderly hroom (List.contains_iff_mem.mp hmem) ⟨value, hlookup⟩
          · exact .stopWaits id _ ⟨id, value, hanswer⟩
        · cases hstep
          exact .flags actor.started actor.closed actor.opening _ actor.joining (fun h => h)
            (fun hstarted hclosed => ⟨hstarted, hclosed⟩) rfl
        · cases hstep
      · cases hstep
  | stop =>
      dsimp only at hstep
      split at hstep
      · rename_i hready
        obtain ⟨hstopping, hroom⟩ := Bool.and_eq_true_iff.mp hready
        have hstopping := of_decide_eq_true hstopping
        cases hstep
        rw [putStop_eq (show Actor.hasRoom { actor with stopping := actor.stopping - 1 } = true from hroom)]
        exact .stopPut _ _ _ (Nat.sub_le _ _) (.inl hstopping) rfl fun horderly =>
          horderly hroom hstopping
      · cases hstep
  | joined =>
      dsimp only at hstep
      split at hstep
      · split at hstep
        · cases hstep
          exact .flags _ _ actor.opening actor.checkpoints _ nofun nofun rfl
        · cases hstep
      · cases hstep
  | take =>
      dsimp only at hstep
      split at hstep
      · rename_i connection rest hworker hrequests
        cases hstep
        exact .tookStop connection rest hworker hrequests
      · rename_i connection request rest hworker hrequests
        cases hstep
        exact .took connection request rest hworker hrequests
      · cases hstep
  | execute =>
      dsimp only at hstep
      split at hstep
      · rename_i connection request hworker
        cases hstep
        exact .executed connection _ request _ hworker
      · cases hstep
  | failNext =>
      dsimp only at hstep
      split at hstep
      · rename_i failure hworker hrequests
        cases hstep
        exact .drained failure hworker hrequests
      · rename_i failure rest hworker hrequests
        cases hstep
        exact .skipped failure rest hworker hrequests
      · rename_i failure request rest hworker hrequests
        cases hstep
        exact .failed failure request rest hworker hrequests
      · cases hstep

/-! ### The calls -/

/-- Every accepted call is in one place, and a thread that is not up has answered nothing with a
result. -/
structure Sound (actor : Actor σ α) : Prop where
  places : ∀ id, actor.places id = if id < actor.nextId then 1 else 0
  idle : actor.worker = .idle → actor.requests = [] ∧ actor.blocked = [] ∧ actor.responses = []
  started : actor.started = true → actor.worker ≠ .idle
  fresh : actor.started = false → actor.closed = false → actor.worker = .idle
  down : actor.worker.isUp = false →
    (∀ response ∈ actor.responses, ∃ failure, response.2 = .error failure) ∧
      none ∉ actor.requests ∧ actor.stopping = 0

theorem sound_init (capacity : Nat) : Sound ({ capacity } : Actor σ α) where
  places _ := rfl
  idle _ := ⟨rfl, rfl, rfl⟩
  started := nofun
  fresh _ _ := rfl
  down _ := ⟨nofun, nofun, rfl⟩

theorem count_filter_ids (requests : List (Request σ α)) (id other : Nat) :
    ((requests.filter fun request => request.id ≠ id).map Request.id).count other =
      if other = id then 0 else (requests.map Request.id).count other := by
  induction requests with
  | nil => simp
  | cons request requests ih =>
      by_cases hsame : request.id = id
      · rw [List.filter_cons_of_neg (by simpa using hsame), ih]
        split
        · rfl
        · rename_i hother
          rw [List.map_cons, List.count_cons_of_ne (by simpa [hsame] using Ne.symm hother)]
      · rw [List.filter_cons_of_pos (by simpa using hsame), List.map_cons, List.count_cons, ih,
          List.map_cons, List.count_cons]
        split
        · rename_i hother
          have hne : ¬request.id = other := fun heq => hsame (heq.trans hother)
          simp [hne]
        · rfl

/-- A call that waits for room is nowhere else, and waits once. -/
theorem Sound.count_blocked (hsound : Sound actor) {request : Request σ α}
    (hmem : request ∈ actor.blocked) : (actor.blocked.map Request.id).count request.id = 1 := by
  have hplaces := hsound.places request.id
  have hpositive : 0 < (actor.blocked.map Request.id).count request.id :=
    List.count_pos_iff.mpr (List.mem_map_of_mem hmem)
  have hatMost : actor.places request.id ≤ 1 := by
    rw [hplaces]
    split <;> omega
  unfold Actor.places at hatMost
  omega

theorem places_effect (hsound : Sound actor) (heffect : Effect actor label after) (id : Nat) :
    after.places id = if id < after.nextId then 1 else 0 := by
  have hplaces := hsound.places id
  have hnew := hsound.places actor.nextId
  unfold places queued at *
  cases heffect with
  | flags => exact hplaces
  | start hstarted hclosed =>
      rw [hsound.fresh hstarted hclosed] at hplaces
      exact hplaces
  | accepted operation checkpoints haccepts hroom =>
      rw [List.filterMap_append, List.count_append]
      by_cases hid : id = actor.nextId
      · subst hid
        simp at hplaces ⊢
        omega
      · have hne : ¬actor.nextId = id := fun heq => hid heq.symm
        have hlt : id < actor.nextId + 1 ↔ id < actor.nextId := by omega
        simp only [hlt]
        simpa [hne] using hplaces
  | waits operation checkpoints haccepts =>
      rw [List.map_append, List.count_append]
      by_cases hid : id = actor.nextId
      · subst hid
        simp at hplaces ⊢
        omega
      · have hne : ¬actor.nextId = id := fun heq => hid heq.symm
        have hlt : id < actor.nextId + 1 ↔ id < actor.nextId := by omega
        simp only [hlt]
        simpa [hne] using hplaces
  | put request hmem =>
      have hone := hsound.count_blocked hmem
      rw [List.filterMap_append, List.count_append, count_filter_ids]
      by_cases hid : id = request.id
      · subst hid
        simp only [if_true]
        simp
        omega
      · have hne : ¬request.id = id := fun heq => hid heq.symm
        rw [if_neg hid]
        simpa [hne] using hplaces
  | stopPut => simpa using hplaces
  | stopWaits => exact hplaces
  | connected connection hworker =>
      rw [hworker] at hplaces
      exact hplaces
  | startFailed failure hworker =>
      rw [hworker] at hplaces
      exact hplaces
  | tookStop connection rest hworker hrequests =>
      rw [hworker, hrequests] at hplaces
      exact hplaces
  | took connection request rest hworker hrequests =>
      rw [hworker, hrequests] at hplaces
      simp [Worker.current, List.count_cons] at hplaces ⊢
      omega
  | executed connection next request result hworker =>
      rw [hworker] at hplaces
      simp [Worker.current, List.count_cons] at hplaces ⊢
      omega
  | drained failure hworker hrequests =>
      rw [hworker] at hplaces
      exact hplaces
  | skipped failure rest hworker hrequests =>
      rw [hrequests] at hplaces
      exact hplaces
  | failed failure request rest hworker hrequests =>
      rw [hrequests] at hplaces
      simp [List.count_cons] at hplaces ⊢
      omega

theorem sound_effect (hsound : Sound actor) (heffect : Effect actor label after) :
    Sound after := by
  have hplaces := places_effect hsound heffect
  refine ⟨hplaces, ?_, ?_, ?_, ?_⟩
  · intro hidle
    cases heffect with
    | flags => exact hsound.idle hidle
    | accepted operation checkpoints haccepts =>
        exact absurd hidle (hsound.started (Bool.and_eq_true_iff.mp haccepts).1)
    | waits operation checkpoints haccepts =>
        exact absurd hidle (hsound.started (Bool.and_eq_true_iff.mp haccepts).1)
    | put request hmem =>
        rw [(hsound.idle hidle).2.1] at hmem
        cases hmem
    | stopPut checkpoints stopping joining hstopping hcause =>
        rcases hcause with hcause | ⟨_, _, hanswer⟩
        · have hidle' : actor.worker = .idle := hidle
          have hnone := (hsound.down (by rw [hidle']; rfl)).2.2
          omega
        · rw [(hsound.idle hidle).2.2] at hanswer
          cases hanswer
    | stopWaits => exact hsound.idle hidle
    | skipped failure rest hworker =>
        rw [show actor.worker = .idle from hidle] at hworker
        cases hworker
    | failed failure request rest hworker =>
        rw [show actor.worker = .idle from hidle] at hworker
        cases hworker
    | _ => cases hidle
  · intro hstarted
    cases heffect with
    | flags started closed opening checkpoints joining hbefore =>
        exact hsound.started (hbefore hstarted)
    | accepted => exact hsound.started hstarted
    | waits => exact hsound.started hstarted
    | put => exact hsound.started hstarted
    | stopPut => exact hsound.started hstarted
    | stopWaits => exact hsound.started hstarted
    | skipped => exact hsound.started hstarted
    | failed => exact hsound.started hstarted
    | _ => nofun
  · intro hstarted hclosed
    cases heffect with
    | flags started closed opening checkpoints joining hbefore hfresh =>
        obtain ⟨hstarted, hclosed⟩ := hfresh hstarted hclosed
        exact hsound.fresh hstarted hclosed
    | start => cases hstarted
    | accepted => exact hsound.fresh hstarted hclosed
    | waits => exact hsound.fresh hstarted hclosed
    | put => exact hsound.fresh hstarted hclosed
    | stopPut => exact hsound.fresh hstarted hclosed
    | stopWaits => exact hsound.fresh hstarted hclosed
    | skipped => exact hsound.fresh hstarted hclosed
    | failed => exact hsound.fresh hstarted hclosed
    | connected connection hworker =>
        rw [hsound.fresh hstarted hclosed] at hworker
        cases hworker
    | startFailed failure hworker =>
        rw [hsound.fresh hstarted hclosed] at hworker
        cases hworker
    | tookStop connection rest hworker =>
        rw [hsound.fresh hstarted hclosed] at hworker
        cases hworker
    | took connection request rest hworker =>
        rw [hsound.fresh hstarted hclosed] at hworker
        cases hworker
    | executed connection next request result hworker =>
        rw [hsound.fresh hstarted hclosed] at hworker
        cases hworker
    | drained failure hworker =>
        rw [hsound.fresh hstarted hclosed] at hworker
        cases hworker
  · intro hdown
    cases heffect with
    | flags => exact hsound.down hdown
    | start hstarted hclosed =>
        exact hsound.down (by rw [hsound.fresh hstarted hclosed]; rfl)
    | accepted =>
        obtain ⟨herrors, hnone, hstopping⟩ := hsound.down hdown
        exact ⟨herrors, by simpa using hnone, hstopping⟩
    | waits => exact hsound.down hdown
    | put =>
        obtain ⟨herrors, hnone, hstopping⟩ := hsound.down hdown
        exact ⟨herrors, by simpa using hnone, hstopping⟩
    | stopPut checkpoints stopping joining hstopping hcause =>
        obtain ⟨herrors, hnone, hzero⟩ := hsound.down hdown
        rcases hcause with hcause | ⟨_, _, hanswer⟩
        · omega
        · obtain ⟨failure, herror⟩ := herrors _ hanswer
          cases herror
    | stopWaits id checkpoints hcause =>
        obtain ⟨_, _, hanswer⟩ := hcause
        obtain ⟨failure, herror⟩ := (hsound.down hdown).1 _ hanswer
        cases herror
    | startFailed failure hworker => exact hsound.down (by rw [hworker]; rfl)
    | skipped failure rest hworker hrequests =>
        have hnone := (hsound.down hdown).2.1
        rw [hrequests] at hnone
        exact absurd List.mem_cons_self hnone
    | failed failure request rest hworker hrequests =>
        obtain ⟨herrors, hnone, hstopping⟩ := hsound.down hdown
        rw [hrequests] at hnone
        refine ⟨fun response hresponse => ?_, fun hmem => hnone (List.mem_cons_of_mem _ hmem),
          hstopping⟩
        rcases List.mem_append.mp hresponse with hold | hnew
        · exact herrors response hold
        · rw [List.mem_singleton.mp hnew]
          exact ⟨failure, rfl⟩
    | _ => cases hdown

/-! ### The order of the queue -/

/-- Nothing is behind a stop request, and nobody waits for room once there is one. -/
structure Ordered (actor : Actor σ α) : Prop where
  blocked : actor.stopped = true → actor.blocked = []
  shape : ∃ (live : List (Request σ α)) (n : Nat), actor.requests = live.map some ++ List.replicate n none
  ended : actor.worker = .ended → ∀ request ∈ actor.requests, request = none

theorem ordered_init (capacity : Nat) : Ordered ({ capacity } : Actor σ α) where
  blocked := nofun
  shape := ⟨[], 0, rfl⟩
  ended := nofun

theorem stopped_iff : actor.stopped = true ↔ none ∈ actor.requests ∨ actor.worker = .ended := by
  unfold stopped
  rw [Bool.or_eq_true_iff, List.any_eq_true]
  refine or_congr ⟨?_, fun hmem => ⟨none, hmem, rfl⟩⟩ ?_
  · rintro ⟨request, hmem, hnone⟩
    rwa [← Option.isNone_iff_eq_none.mp hnone]
  · cases actor.worker with
    | ended => simp
    | _ => simp

theorem not_stopped_iff : actor.stopped = false ↔ none ∉ actor.requests ∧ actor.worker ≠ .ended := by
  rw [← not_or, ← stopped_iff, Bool.not_eq_true]

/-- A queue without a stop request. -/
theorem Ordered.shape_live (hordered : Ordered actor) (hnone : none ∉ actor.requests) :
    ∃ live : List (Request σ α), actor.requests = live.map some := by
  obtain ⟨live, n, hshape⟩ := hordered.shape
  refine ⟨live, ?_⟩
  cases n with
  | zero => simpa using hshape
  | succ n =>
      refine absurd ?_ hnone
      rw [hshape]
      simp [List.replicate_succ]

theorem shape_tail {live : List (Request σ α)} {n : Nat} {request : Request σ α}
    {requests rest : List (Option (Request σ α))}
    (hshape : requests = live.map some ++ List.replicate n none)
    (hrequests : requests = some request :: rest) :
    ∃ (live : List (Request σ α)) (n : Nat), rest = live.map some ++ List.replicate n none := by
  rw [hrequests] at hshape
  cases live with
  | nil =>
      cases n with
      | zero => cases hshape
      | succ n => cases hshape
  | cons first live =>
      cases hshape
      exact ⟨live, n, rfl⟩

theorem ordered_effect (hsound : Sound actor) (hordered : Ordered actor)
    (horderly : actor.Orderly label) (heffect : Effect actor label after) : Ordered after := by
  obtain ⟨live, n, hshape⟩ := hordered.shape
  cases heffect with
  | flags => exact ⟨hordered.blocked, hordered.shape, hordered.ended⟩
  | start hstarted hclosed =>
      have hidle := hsound.fresh hstarted hclosed
      exact ⟨fun _ => (hsound.idle hidle).2.1, hordered.shape, nofun⟩
  | accepted operation checkpoints haccepts hroom hlabel hlive =>
      obtain ⟨hnone, hended⟩ := not_stopped_iff.mp (hlive horderly)
      obtain ⟨live, hlive⟩ := hordered.shape_live hnone
      refine ⟨fun hstopped => ?_, ⟨live ++ [⟨actor.nextId, operation⟩], 0, by simp [hlive]⟩,
        fun hworker => absurd hworker hended⟩
      rcases stopped_iff.mp hstopped with hmem | hworker
      · rcases List.mem_append.mp hmem with hold | hnew
        · exact absurd hold hnone
        · cases List.mem_singleton.mp hnew
      · exact absurd hworker hended
  | waits operation checkpoints haccepts hlabel hlive =>
      refine ⟨fun hstopped => ?_, hordered.shape, hordered.ended⟩
      have hsame : actor.stopped = true := hstopped
      rw [hlive horderly] at hsame
      cases hsame
  | put request hmem =>
      have hlive : actor.stopped = false := by
        by_contra hstopped
        rw [hordered.blocked (by simpa using hstopped)] at hmem
        cases hmem
      obtain ⟨hnone, hended⟩ := not_stopped_iff.mp hlive
      obtain ⟨live, hlive⟩ := hordered.shape_live hnone
      refine ⟨fun hstopped => ?_, ⟨live ++ [request], 0, by simp [hlive]⟩,
        fun hworker => absurd hworker hended⟩
      rcases stopped_iff.mp hstopped with hmem | hworker
      · rcases List.mem_append.mp hmem with hold | hnew
        · exact absurd hold hnone
        · cases List.mem_singleton.mp hnew
      · exact absurd hworker hended
  | stopPut checkpoints stopping joining hstopping hcause hlabel hclear =>
      refine ⟨fun _ => hclear horderly, ⟨live, n + 1, ?_⟩, fun hworker request hmem => ?_⟩
      · simp [hshape, List.replicate_succ']
      · rcases List.mem_append.mp hmem with hold | hnew
        · exact hordered.ended hworker request hold
        · exact List.mem_singleton.mp hnew
  | stopWaits => exact ⟨hordered.blocked, hordered.shape, hordered.ended⟩
  | connected connection hworker =>
      refine ⟨fun hstopped => hordered.blocked ?_, hordered.shape, nofun⟩
      rcases stopped_iff.mp hstopped with hmem | hworker
      · exact stopped_iff.mpr (.inl hmem)
      · cases hworker
  | startFailed failure hworker =>
      refine ⟨fun hstopped => hordered.blocked ?_, hordered.shape, nofun⟩
      rcases stopped_iff.mp hstopped with hmem | hworker
      · exact stopped_iff.mpr (.inl hmem)
      · cases hworker
  | tookStop connection rest hworker hrequests =>
      have hrest : ∀ request ∈ rest, request = none := by
        cases live with
        | cons request live =>
            rw [hrequests] at hshape
            cases hshape
        | nil =>
            intro request hmem
            have hall : request ∈ actor.requests := by
              rw [hrequests]
              exact List.mem_cons_of_mem _ hmem
            rw [hshape] at hall
            exact (List.mem_replicate.mp hall).2
      refine ⟨fun _ => hordered.blocked (stopped_iff.mpr (.inl ?_)),
        ⟨[], rest.length, List.eq_replicate_iff.mpr ⟨rfl, hrest⟩⟩, fun _ => hrest⟩
      rw [hrequests]
      exact List.mem_cons_self
  | took connection request rest hworker hrequests =>
      refine ⟨fun hstopped => hordered.blocked ?_, ?_, nofun⟩
      · rcases stopped_iff.mp hstopped with hmem | hworker
        · refine stopped_iff.mpr (.inl ?_)
          rw [hrequests]
          exact List.mem_cons_of_mem _ hmem
        · cases hworker
      · exact shape_tail hshape hrequests
  | executed connection next request result hworker =>
      refine ⟨fun hstopped => hordered.blocked ?_, hordered.shape, nofun⟩
      rcases stopped_iff.mp hstopped with hmem | hworker
      · exact stopped_iff.mpr (.inl hmem)
      · cases hworker
  | drained failure hworker hrequests =>
      refine ⟨fun _ => horderly ⟨failure, hworker⟩ hrequests, hordered.shape, fun _ => ?_⟩
      rw [show actor.requests = [] from hrequests]
      nofun
  | skipped failure rest hworker hrequests =>
      have hnone := (hsound.down (by rw [hworker]; rfl)).2.1
      rw [hrequests] at hnone
      exact absurd List.mem_cons_self hnone
  | failed failure request rest hworker hrequests =>
      refine ⟨fun hstopped => hordered.blocked ?_, ?_, fun hended => ?_⟩
      · rcases stopped_iff.mp hstopped with hmem | hended
        · refine stopped_iff.mpr (.inl ?_)
          rw [hrequests]
          exact List.mem_cons_of_mem _ hmem
        · exact stopped_iff.mpr (.inr hended)
      · exact shape_tail hshape hrequests
      · rw [show actor.worker = .ended from hended] at hworker
        cases hworker

end Actor

end Codex2Lark
