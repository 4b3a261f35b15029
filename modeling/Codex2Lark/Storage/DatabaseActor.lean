import Codex2Lark.Core.Errors
import Codex2Lark.Lib.Runs

/-!
`SQLiteDatabase` between its callers and its thread. Coroutines run between two awaits without
another coroutine, so looking at the flags and the first attempt to put a request are one step. A
poll that changes nothing is no step.
-/

namespace Codex2Lark

variable {σ α : Type}

/-- What a caller does with the connection: a result or an exception, and the connection after it. -/
abbrev DatabaseOperation (σ α : Type) := σ → Except PyError α × σ

/-- `_Request`. The identifier stands for the response queue. -/
structure Request (σ α : Type) where
  id : Nat
  operation : DatabaseOperation σ α

/-- `_worker`. -/
inductive Worker (σ α : Type) where
  /-- The thread is not started. -/
  | idle
  | starting
  | running (connection : σ)
  | executing (connection : σ) (request : Request σ α)
  /-- `_fail_pending`. -/
  | failing (failure : PyError)
  | ended

structure Actor (σ α : Type) where
  capacity : Nat
  started : Bool := false
  closed : Bool := false
  startupFailure : Option PyError := none
  worker : Worker σ α := .idle
  /-- `None` asks the worker to stop. -/
  requests : List (Option (Request σ α)) := []
  /-- The number of calls that were accepted so far. -/
  nextId : Nat := 0
  /-- Accepted calls that wait for room in the queue. -/
  blocked : List (Request σ α) := []
  /-- What was put on the response queues. -/
  responses : List (Nat × Except PyError α) := []
  /-- The call of `open` that has started the thread is waiting for it. -/
  opening : Bool := false
  /-- The calls of `close` that wait for the answer to their checkpoint. -/
  checkpoints : List Nat := []
  /-- Those that wait for room for their stop request. -/
  stopping : Nat := 0
  /-- Those that wait for the end of the thread. -/
  joining : Nat := 0

/-- `SQLiteDatabase.transaction`: the operation between `BEGIN IMMEDIATE` and `COMMIT`. -/
def DatabaseOperation.transaction (operation : DatabaseOperation σ α) : DatabaseOperation σ α :=
  fun connection =>
    match operation connection with
    | (.ok result, after) => (.ok result, after)
    | (.error failure, _) => (.error failure, connection)

inductive ActorStep (σ α : Type) where
  | open
  /-- `_create_connection` returns or raises. -/
  | connected (result : Except PyError σ)
  /-- The rest of `open`. -/
  | opened
  /-- `call`, to its first attempt to put the request. -/
  | call (operation : DatabaseOperation σ α)
  /-- A later attempt of a call. -/
  | retry (id : Nat)
  | close
  /-- `close` gets the answer to its checkpoint and goes on. -/
  | checkpointed (id : Nat)
  /-- A later attempt of a `close` to put its stop request. -/
  | stop
  /-- The rest of `close`. -/
  | joined
  | take
  | execute
  | failNext

namespace ActorStep

/-- The steps of the thread. -/
def isWorker : ActorStep σ α → Bool
  | .connected _ | .take | .execute | .failNext => true
  | _ => false

end ActorStep

namespace Actor

variable (actor : Actor σ α)

/-- `SQLiteDatabase.__init__`. -/
def init (σ α : Type) (queueCapacity : Nat) : Except PyError (Actor σ α) :=
  if queueCapacity < 1 then .error (.valueError "queue_capacity must be positive")
  else .ok { capacity := queueCapacity }

def hasRoom : Bool := actor.requests.length < actor.capacity

/-- `_ready`. -/
def ready : Bool :=
  match actor.worker with
  | .idle | .starting => false
  | _ => true

/-- The flags let a call through. -/
def accepts : Bool := actor.started && !actor.closed

/-- An accepted call puts its request, or waits for room. -/
def accept (operation : DatabaseOperation σ α) : Actor σ α :=
  let request := ⟨actor.nextId, operation⟩
  if actor.hasRoom then
    { actor with requests := actor.requests ++ [some request], nextId := actor.nextId + 1 }
  else { actor with blocked := actor.blocked ++ [request], nextId := actor.nextId + 1 }

/-- `put_nowait(None)` of `close`. -/
def putStop : Actor σ α :=
  if actor.hasRoom then
    { actor with requests := actor.requests ++ [none], joining := actor.joining + 1 }
  else { actor with stopping := actor.stopping + 1 }

/-- One step. `checkpoint` is `_checkpoint`. -/
def step (checkpoint : DatabaseOperation σ α) : ActorStep σ α → Option (Actor σ α)
  | .open =>
      if actor.started then some actor
      else if actor.closed then some actor
      else some { actor with worker := .starting, started := true, opening := true }
  | .connected result =>
      match actor.worker, result with
      | .starting, .ok connection => some { actor with worker := .running connection }
      | .starting, .error failure =>
          some { actor with worker := .failing failure, startupFailure := some failure }
      | _, _ => none
  | .opened =>
      if actor.opening && actor.ready then
        if actor.startupFailure.isSome then
          some { actor with opening := false, closed := true, started := false }
        else some { actor with opening := false }
      else none
  | .call operation =>
      -- otherwise it raises: closed, or not open
      if actor.accepts then some (actor.accept operation) else some actor
  | .retry id =>
      match actor.blocked.find? fun request => request.id = id with
      | some request =>
          if actor.hasRoom then
            some { actor with
              requests := actor.requests ++ [some request]
              blocked := actor.blocked.filter fun other => other.id ≠ id }
          else none
      | none => none
  | .close =>
      if actor.closed then some actor
      else if !actor.started then some { actor with closed := true }
      else
        some { actor.accept checkpoint with checkpoints := actor.checkpoints ++ [actor.nextId] }
  | .checkpointed id =>
      if actor.checkpoints.contains id then
        let waiting := { actor with checkpoints := actor.checkpoints.erase id }
        match actor.responses.lookup id with
        | some (.ok _) => some waiting.putStop
        | some (.error _) => some waiting
        | none => none
      else none
  | .stop =>
      if 0 < actor.stopping && actor.hasRoom then
        some { actor with stopping := actor.stopping - 1 }.putStop
      else none
  | .joined =>
      match actor.worker with
      | .ended =>
          if 0 < actor.joining then
            some { actor with joining := actor.joining - 1, closed := true, started := false }
          else none
      | _ => none
  | .take =>
      match actor.worker, actor.requests with
      | .running _, none :: rest => some { actor with worker := .ended, requests := rest }
      | .running connection, some request :: rest =>
          some { actor with worker := .executing connection request, requests := rest }
      | _, _ => none
  | .execute =>
      match actor.worker with
      | .executing connection request =>
          let (result, after) := request.operation connection
          some { actor with
            worker := .running after
            responses := actor.responses ++ [(request.id, result)] }
      | _ => none
  | .failNext =>
      match actor.worker, actor.requests with
      | .failing _, [] => some { actor with worker := .ended }
      | .failing _, none :: rest => some { actor with requests := rest }
      | .failing failure, some request :: rest =>
          some { actor with
            requests := rest, responses := actor.responses ++ [(request.id, .error failure)] }
      | _, _ => none

/-- The thread has come to its end, or will at the stop request on the queue. -/
def stopped : Bool :=
  actor.requests.any Option.isNone ||
    match actor.worker with
    | .ended => true
    | _ => false

/-- The caller's response queue has its answer. -/
def Answered (id : Nat) : Prop := id ∈ actor.responses.map Prod.fst

end Actor

end Codex2Lark
