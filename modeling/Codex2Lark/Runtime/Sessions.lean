import Codex2Lark.Storage.SessionStore

/-!
`runtime/sessions.py`: the operations of the `SessionStore` port and the store in memory. An
operation of this store returns its value or raises, and leaves what it has written either way.
-/

namespace Codex2Lark

open Lib

structure RunEvent where
  runId : String
  sequence : Nat
  eventType : String
  payload : List (String × Json)
  createdAtMs : Int
deriving DecidableEq, Repr

namespace RunStatus

/-- `RunStatus(value)`. -/
def ofValue (value : String) : Except PyError RunStatus :=
  match [running, waiting, completed, blocked, failed, cancelled].find? fun status =>
    status.value = value with
  | some status => .ok status
  | none => .error (.valueError ("'" ++ value ++ "' is not a valid RunStatus"))

/-- `status not in (RunStatus.RUNNING, RunStatus.WAITING)`. -/
def isTerminal : RunStatus → Bool
  | running | waiting => false
  | _ => true

end RunStatus

/-! ### The outcome in a terminal event -/

namespace Json

/-- The items that a `for` over the value goes through. -/
def iterate : Json → Except PyError (List Json)
  | .arr items => .ok items
  | .str value => .ok (value.toList.map fun c => .str (String.singleton c))
  | .obj fields => .ok (fields.map fun field => .str field.1)
  | _ => .error (.typeError "object is not iterable")

/-- `payload[key]`. -/
def getItem (payload : List (String × Json)) (key : String) : Except PyError Json :=
  match field? payload key with
  | some value => .ok value
  | none => .error (.other "KeyError" key)

end Json

/-- `AgentOutcome(...)` of `load_outcome`; `text` is Python's `str` of a decoded value. -/
def outcomeOf (text : Json → String) (payload : List (String × Json)) :
    Except PyError AgentOutcome := do
  let status ← Json.getItem payload "status"
  let status ← RunStatus.ofValue (text status)
  let summary ← Json.getItem payload "summary"
  let resourceRefs ← Json.getItem payload "resource_refs"
  let resourceRefs ← resourceRefs.iterate
  let warnings ← Json.getItem payload "warnings"
  let warnings ← warnings.iterate
  if status = .running then .error (.valueError "AgentOutcome must be terminal or waiting")
  else
    .ok { status, summary := text summary, resourceRefs := resourceRefs.map text
          warnings := warnings.map text }

/-! ### The port -/

inductive SessionOp where
  | startRun (args : SessionStore.StartRun) (nowMs : Int)
  | appendEvent (runId eventType : String) (payload : List (String × Json)) (nowMs : Int)
  | saveCheckpoint (checkpoint : RunCheckpoint) (nowMs : Int)
  | loadCheckpoint (runId : String)
  | discardCheckpoint (runId : String)
  | runStatus (runId : String)
  | loadOutcome (runId : String)
  | finishRun (runId : String) (status : RunStatus) (nowMs : Int)
  | tryFinishWithOutcome (runId : String) (outcome : AgentOutcome)
      (appliedControlIds : List String) (nowMs : Int)

/-- What the operations return. -/
inductive SessionValue where
  | none
  | event (event : RunEvent)
  | checkpoint (checkpoint : Option RunCheckpoint)
  | status (status : Option RunStatus)
  | outcome (outcome : Option AgentOutcome)
  | finished (finished : Bool)
deriving DecidableEq, Repr

/-- What the port shows of one run. -/
structure SessionView where
  status : Option RunStatus
  /-- The sequences and the types of its events. -/
  events : List (Nat × String)
  checkpoint : Option RunCheckpoint
  /-- Nothing where `load_outcome` raises. -/
  outcome : Option (Option AgentOutcome)
deriving DecidableEq, Repr

/-! ### In memory -/

structure InMemorySessionStore where
  runs : Dict String RunStatus := []
  events : Dict String (List RunEvent) := []
  checkpoints : Dict String RunCheckpoint := []

namespace InMemorySessionStore

variable (store : InMemorySessionStore)

def startRun (args : SessionStore.StartRun) : Except PyError Unit × InMemorySessionStore :=
  if store.runs.contains args.runId then
    (.error (.valueError ("run already exists: " ++ args.runId)), store)
  else (.ok (), { store with runs := store.runs.set args.runId .running })

def appendEvent (runId eventType : String) (payload : List (String × Json)) (nowMs : Int) :
    Except PyError RunEvent × InMemorySessionStore :=
  if !store.runs.contains runId then
    (.error (.lookupError ("run does not exist: " ++ runId)), store)
  else
    let journal := store.events.getD runId []
    let event := ⟨runId, journal.length + 1, eventType, payload, nowMs⟩
    (.ok event, { store with events := store.events.set runId (journal ++ [event]) })

def saveCheckpoint (checkpoint : RunCheckpoint) : Except PyError Unit × InMemorySessionStore :=
  (.ok (), { store with checkpoints := store.checkpoints.set checkpoint.runId checkpoint })

def loadCheckpoint (runId : String) : Option RunCheckpoint := store.checkpoints.get? runId

def discardCheckpoint (runId : String) : Except PyError Unit × InMemorySessionStore :=
  (.ok (), { store with checkpoints := store.checkpoints.erase runId })

def runStatus (runId : String) : Option RunStatus := store.runs.get? runId

def loadOutcome (text : Json → String) (runId : String) : Except PyError (Option AgentOutcome) :=
  match (store.events.getD runId []).reverse.find? fun event => event.eventType = "run_terminal" with
  | none => .ok none
  | some terminal => (outcomeOf text terminal.payload).map some

def finishRun (runId : String) (status : RunStatus) : Except PyError Unit × InMemorySessionStore :=
  if !status.isTerminal then
    (.error (.valueError "finish_run requires a terminal status"), store)
  else (.ok (), { store with runs := store.runs.set runId status })

/-- The terminal event is appended before the status is looked at. -/
def tryFinishWithOutcome (runId : String) (outcome : AgentOutcome) (nowMs : Int) :
    Except PyError Bool × InMemorySessionStore :=
  match store.appendEvent runId "run_terminal" (SessionStore.outcomePayload outcome) nowMs with
  | (.error failure, store) => (.error failure, store)
  | (.ok _, store) =>
      match store.finishRun runId outcome.status with
      | (.error failure, store) => (.error failure, store)
      | (.ok _, store) => (.ok true, store)

def step (text : Json → String) : SessionOp → Except PyError SessionValue × InMemorySessionStore
  | .startRun args _ => (store.startRun args).map (Except.map fun _ => .none) id
  | .appendEvent runId eventType payload nowMs =>
      (store.appendEvent runId eventType payload nowMs).map (Except.map .event) id
  | .saveCheckpoint checkpoint _ =>
      (store.saveCheckpoint checkpoint).map (Except.map fun _ => .none) id
  | .loadCheckpoint runId => (.ok (.checkpoint (store.loadCheckpoint runId)), store)
  | .discardCheckpoint runId => (store.discardCheckpoint runId).map (Except.map fun _ => .none) id
  | .runStatus runId => (.ok (.status (store.runStatus runId)), store)
  | .loadOutcome runId => ((store.loadOutcome text runId).map .outcome, store)
  | .finishRun runId status _ => (store.finishRun runId status).map (Except.map fun _ => .none) id
  | .tryFinishWithOutcome runId outcome _ nowMs =>
      (store.tryFinishWithOutcome runId outcome nowMs).map (Except.map .finished) id

def view (text : Json → String) (runId : String) : SessionView where
  status := store.runStatus runId
  events := (store.events.getD runId []).map fun event => (event.sequence, event.eventType)
  checkpoint := store.loadCheckpoint runId
  outcome := (store.loadOutcome text runId).toOption

end InMemorySessionStore

end Codex2Lark
