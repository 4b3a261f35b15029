import Codex2Lark.Lib.Runs
import Codex2Lark.Runtime.Sessions
import Codex2Lark.Storage.Checkpoints

/-!
`SQLiteSessionStore` and `InMemorySessionStore` as two implementations of one port. They do the
same under a condition on each call; where it fails they differ at that call.
-/

namespace Codex2Lark

open Lib

namespace Json

mutual

/-- `json.loads(json.dumps(value, sort_keys=True))`. -/
def sortKeys : Json → Json
  | .arr items => .arr (sortItems items)
  | .obj fields => .obj ((sortFields fields).insertionSort fun a b => a.1 ≤ b.1)
  | .null => .null
  | .bool value => .bool value
  | .int value => .int value
  | .float shown => .float shown
  | .str value => .str value

def sortItems : List Json → List Json
  | [] => []
  | item :: rest => sortKeys item :: sortItems rest

def sortFields : List (String × Json) → List (String × Json)
  | [] => []
  | (key, value) :: rest => (key, sortKeys value) :: sortFields rest

end

end Json

/-- A payload as it is read back from its column. -/
def storedPayload (payload : List (String × Json)) : List (String × Json) :=
  (Json.sortFields payload).insertionSort fun a b => a.1 ≤ b.1

namespace SessionStore

/-- `ORDER BY sequence`. -/
def events (runId : String) (db : Database) : List RunEventRow :=
  (db.runEvents.filter fun event => event.runId = runId).insertionSort fun a b =>
    a.sequence ≤ b.sequence

/-- `ORDER BY sequence DESC LIMIT 1`. -/
def lastTerminal (runId : String) (db : Database) : Option RunEventRow :=
  ((db.runEvents.filter fun event =>
      event.runId = runId && event.eventType = "run_terminal").insertionSort fun a b =>
    b.sequence ≤ a.sequence).head?

def loadOutcome (text : Json → String) (runId : String) (db : Database) :
    Except PyError (Option AgentOutcome) :=
  match lastTerminal runId db with
  | none => .ok none
  | some terminal => (outcomeOf text (storedPayload terminal.payload)).map some

def finishRun (runId : String) (status : RunStatus) (nowMs : Int) (db : Database) :
    Except PyError (Unit × Database) :=
  if !status.isTerminal then .error (.valueError "finish_run requires a terminal status")
  else if (db.runs.countP fun run => run.runId = runId) ≠ 1 then
    .error (.lookupError ("run does not exist: " ++ runId))
  else .ok ((), setStatus db runId status nowMs)

/-- An exception rolls the transaction back. -/
def transacted {α : Type} (db : Database) (value : α → SessionValue) :
    Except PyError (α × Database) → Except PyError SessionValue × Database
  | .ok (result, after) => (.ok (value result), after)
  | .error failure => (.error failure, db)

def step (text : Json → String) (db : Database) :
    SessionOp → Except PyError SessionValue × Database
  | .startRun args nowMs => transacted db (fun _ => .none) (startRun args nowMs db)
  | .appendEvent runId eventType payload nowMs =>
      transacted db
        (fun _ => .event ⟨runId, nextSequence db runId, eventType, payload, nowMs⟩)
        (appendEvent runId eventType payload nowMs db)
  | .saveCheckpoint checkpoint nowMs =>
      transacted db (fun _ => .none) (saveCheckpoint checkpoint nowMs db)
  | .loadCheckpoint runId => (.ok (.checkpoint (loadCheckpoint runId db)), db)
  | .discardCheckpoint runId => transacted db (fun _ => .none) (discardCheckpoint runId db)
  | .runStatus runId => (.ok (.status (runStatus runId db)), db)
  | .loadOutcome runId => ((loadOutcome text runId db).map .outcome, db)
  | .finishRun runId status nowMs => transacted db (fun _ => .none) (finishRun runId status nowMs db)
  | .tryFinishWithOutcome runId outcome appliedControlIds nowMs =>
      transacted db .finished (tryFinishWithOutcome runId outcome appliedControlIds nowMs db)

def view (text : Json → String) (db : Database) (runId : String) : SessionView where
  status := runStatus runId db
  events := (events runId db).map fun event => (event.sequence, event.eventType)
  checkpoint := loadCheckpoint runId db
  outcome := (loadOutcome text runId db).toOption

end SessionStore

namespace SessionPort

open SessionStore

variable {text : Json → String} {db after : Database} {memory : InMemorySessionStore}
  {runId : String}

/-- The two stores answer every call alike, with the same value or both with an exception, and show
the same state after it. -/
def SameResults (text : Json → String) :
    List SessionOp → Database → InMemorySessionStore → Prop
  | [], _, _ => True
  | operation :: rest, db, memory =>
      (step text db operation).1.toOption = (memory.step text operation).1.toOption ∧
        (∀ runId, view text (step text db operation).2 runId =
          (memory.step text operation).2.view text runId) ∧
        SameResults text rest (step text db operation).2 (memory.step text operation).2

/-- The calls on which the two stores agree. -/
def Agrees (text : Json → String) (db : Database) : SessionOp → Prop
  | .startRun args _ =>
      (findRun db args.runId).isSome = true ∨ ∃ task ∈ db.tasks, task.taskId = args.taskId
  | .appendEvent runId eventType payload _ =>
      (findRun db runId).isSome = true → eventType = "run_terminal" →
        (outcomeOf text (storedPayload payload)).toOption = (outcomeOf text payload).toOption
  | .saveCheckpoint checkpoint _ => (findRun db checkpoint.runId).isSome = true
  | .finishRun runId status _ => status.isTerminal = true → (findRun db runId).isSome = true
  | .tryFinishWithOutcome runId outcome _ _ =>
      (findRun db runId).isSome = true →
        outcome.status.isTerminal = true ∧ runStatus runId db = some .running
  | _ => True

/-- A database before its first run, without controls that wait. -/
structure Fresh (db : Database) : Prop where
  runs : db.runs = []
  runEvents : db.runEvents = []
  checkpoints : db.checkpoints = []
  controls : ∀ control ∈ db.controls, control.state ≠ .pending

/-! ### The two states -/

def RunEvent.ofRow (row : RunEventRow) : RunEvent :=
  ⟨row.runId, row.sequence, row.eventType, row.payload, row.createdAtMs⟩

def rowsOf (db : Database) (runId : String) : List RunEventRow :=
  db.runEvents.filter fun event => event.runId = runId

/-- The two stores hold the same runs, events and checkpoints. -/
structure Aligned (db : Database) (memory : InMemorySessionStore) : Prop where
  statuses : ∀ runId, SessionStore.runStatus runId db = memory.runStatus runId
  events : ∀ runId, (rowsOf db runId).map RunEvent.ofRow = memory.events.getD runId []
  sequences : ∀ runId, (rowsOf db runId).map RunEventRow.sequence =
    List.range' 1 (rowsOf db runId).length
  checkpoints : ∀ runId, SessionStore.loadCheckpoint runId db = memory.loadCheckpoint runId
  runIds : (db.runs.map RunRow.runId).Nodup
  controls : ∀ control ∈ db.controls, control.state ≠ .pending

/-- And the terminal events tell the same outcomes. -/
structure Related (text : Json → String) (db : Database) (memory : InMemorySessionStore) :
    Prop extends Aligned db memory where
  payloads : ∀ row ∈ db.runEvents, row.eventType = "run_terminal" →
    (outcomeOf text (storedPayload row.payload)).toOption = (outcomeOf text row.payload).toOption

theorem related_of_fresh (hfresh : Fresh db) : Related text db {} where
  statuses runId := by
    unfold SessionStore.runStatus findRun
    rw [hfresh.runs]
    rfl
  events runId := by
    unfold rowsOf
    rw [hfresh.runEvents]
    rfl
  sequences runId := by
    unfold rowsOf
    rw [hfresh.runEvents]
    rfl
  payloads row hrow := by
    rw [hfresh.runEvents] at hrow
    cases hrow
  checkpoints runId := by
    unfold SessionStore.loadCheckpoint
    rw [hfresh.checkpoints]
    rfl
  runIds := by
    rw [hfresh.runs]
    exact List.nodup_nil
  controls := hfresh.controls

theorem Aligned.contains (haligned : Aligned db memory) (runId : String) :
    memory.runs.contains runId = (findRun db runId).isSome := by
  have hstatus := haligned.statuses runId
  unfold SessionStore.runStatus InMemorySessionStore.runStatus at hstatus
  rw [Bool.eq_iff_iff, Dict.contains_iff_get?, ← hstatus]
  cases findRun db runId with
  | none => simp
  | some run => simp

theorem Aligned.ascending (haligned : Aligned db memory) (runId : String) :
    (rowsOf db runId).Pairwise fun a b => a.sequence < b.sequence := by
  refine List.pairwise_map.mp ?_
  rw [haligned.sequences]
  exact List.pairwise_lt_range'

theorem Aligned.nextSequence_eq (haligned : Aligned db memory) (runId : String) :
    nextSequence db runId = (memory.events.getD runId []).length + 1 := by
  have hlength : (memory.events.getD runId []).length = (rowsOf db runId).length := by
    rw [← haligned.events, List.length_map]
  have hmax (n : Nat) : (List.range' 1 n).foldl max 0 = n := by
    induction n with
    | zero => rfl
    | succ n ih =>
        rw [List.range'_concat, List.foldl_append, ih]
        simp [Nat.add_comm]
  rw [hlength]
  change ((rowsOf db runId).map RunEventRow.sequence).foldl max 0 + 1 = _
  rw [haligned.sequences, hmax]

/-! ### The same view -/

/-- Rows in the order of their sequences, sorted the other way. -/
theorem insertionSort_desc {rows : List RunEventRow}
    (hascending : rows.Pairwise fun a b => a.sequence < b.sequence) :
    rows.insertionSort (fun a b => b.sequence ≤ a.sequence) = rows.reverse := by
  have hlast {row : RunEventRow} {others : List RunEventRow}
      (hless : ∀ other ∈ others, row.sequence < other.sequence) :
      others.orderedInsert (fun a b => b.sequence ≤ a.sequence) row = others ++ [row] := by
    induction others with
    | nil => rfl
    | cons first others ih =>
        have hfirst := hless first List.mem_cons_self
        rw [List.orderedInsert_of_not_le _ others (by omega),
          ih fun other hother => hless other (List.mem_cons_of_mem _ hother)]
        rfl
  induction rows with
  | nil => rfl
  | cons row rows ih =>
      obtain ⟨hless, hrest⟩ := List.pairwise_cons.mp hascending
      rw [List.insertionSort_cons, ih hrest, List.reverse_cons]
      exact hlast fun other hother => hless other (List.mem_reverse.mp hother)

theorem Aligned.lastTerminal_eq (haligned : Aligned db memory) (runId : String) :
    lastTerminal runId db =
      (rowsOf db runId).reverse.find? fun event => event.eventType = "run_terminal" := by
  have hrows : (db.runEvents.filter fun event =>
      event.runId = runId && event.eventType = "run_terminal") =
        (rowsOf db runId).filter fun event => event.eventType = "run_terminal" := by
    unfold rowsOf
    rw [List.filter_filter]
    congr 1
    funext event
    exact Bool.and_comm _ _
  unfold lastTerminal
  rw [hrows, insertionSort_desc ((haligned.ascending runId).filter _), ← List.filter_reverse,
    List.head?_filter]

/-- The outcome in memory, from the rows of the database. -/
theorem Aligned.memory_loadOutcome (haligned : Aligned db memory) (runId : String) :
    memory.loadOutcome text runId =
      match (rowsOf db runId).reverse.find? fun event => event.eventType = "run_terminal" with
      | none => .ok none
      | some row => (outcomeOf text row.payload).map some := by
  unfold InMemorySessionStore.loadOutcome
  rw [← haligned.events, ← List.map_reverse, List.find?_map]
  have hterminal : (rowsOf db runId).reverse.find?
      ((fun event => decide (event.eventType = "run_terminal")) ∘ RunEvent.ofRow) =
        (rowsOf db runId).reverse.find? fun event => event.eventType = "run_terminal" := rfl
  rw [hterminal]
  cases (rowsOf db runId).reverse.find? fun event => event.eventType = "run_terminal" with
  | none => rfl
  | some row => rfl

theorem toOption_map_some {result other : Except PyError AgentOutcome} :
    (result.map some).toOption = (other.map some).toOption ↔ result.toOption = other.toOption := by
  cases result with
  | error failure =>
      cases other with
      | error _ => exact ⟨fun _ => rfl, fun _ => rfl⟩
      | ok _ => exact ⟨nofun, nofun⟩
  | ok outcome =>
      cases other with
      | error _ => exact ⟨nofun, nofun⟩
      | ok other =>
          refine ⟨fun hsame => ?_, fun hsame => ?_⟩
          · cases hsame
            rfl
          · cases hsame
            rfl

theorem Related.loadOutcome_eq (hrelated : Related text db memory) (runId : String) :
    (SessionStore.loadOutcome text runId db).toOption =
      (memory.loadOutcome text runId).toOption := by
  unfold SessionStore.loadOutcome
  rw [hrelated.lastTerminal_eq, hrelated.memory_loadOutcome]
  cases hfind : (rowsOf db runId).reverse.find? fun event => event.eventType = "run_terminal" with
  | none => rfl
  | some row =>
      have hmem : row ∈ db.runEvents :=
        (List.mem_filter.mp (List.mem_reverse.mp (List.mem_of_find?_eq_some hfind))).1
      have hsame := hrelated.payloads row hmem (by simpa using List.find?_some hfind)
      exact toOption_map_some.mpr hsame

theorem Related.view_eq (hrelated : Related text db memory) (runId : String) :
    SessionStore.view text db runId = memory.view text runId := by
  have hevents : (SessionStore.events runId db).map (fun event => (event.sequence, event.eventType)) =
      (memory.events.getD runId []).map fun event => (event.sequence, event.eventType) := by
    have hsorted : SessionStore.events runId db = rowsOf db runId :=
      List.Pairwise.insertionSort_eq ((hrelated.ascending runId).imp Nat.le_of_lt)
    rw [hsorted, ← hrelated.events, List.map_map]
    rfl
  unfold SessionStore.view InMemorySessionStore.view
  rw [hrelated.statuses, hevents, hrelated.checkpoints, hrelated.loadOutcome_eq]

/-! ### What the operations write -/

/-- `append_event` and the last event of a run, without the look at the run. -/
def appended (memory : InMemorySessionStore) (runId eventType : String)
    (payload : List (String × Json)) (nowMs : Int) : InMemorySessionStore :=
  { memory with
    events := memory.events.set runId (memory.events.getD runId [] ++
      [⟨runId, (memory.events.getD runId []).length + 1, eventType, payload, nowMs⟩]) }

theorem rowsOf_insertEvent (eventType : String) (payload : List (String × Json)) (nowMs : Int)
    (other : String) : rowsOf (insertEvent db runId eventType payload nowMs) other =
      rowsOf db other ++
        if runId = other then [⟨runId, nextSequence db runId, eventType, payload, nowMs⟩] else [] := by
  unfold rowsOf insertEvent
  rw [List.filter_append]
  by_cases hsame : runId = other
  · simp [hsame]
  · simp [hsame]

theorem Aligned.append (haligned : Aligned db memory) (runId eventType : String)
    (payload : List (String × Json)) (nowMs : Int) :
    Aligned (insertEvent db runId eventType payload nowMs)
      (appended memory runId eventType payload nowMs) where
  statuses := haligned.statuses
  events other := by
    rw [rowsOf_insertEvent, List.map_append, haligned.events]
    unfold appended
    by_cases hsame : runId = other
    · subst hsame
      rw [if_pos rfl, Dict.getD_set_self, haligned.nextSequence_eq]
      rfl
    · rw [if_neg hsame, Dict.getD_set_ne _ _ _ fun h => hsame h.symm]
      exact List.append_nil _
  sequences other := by
    have hlength : (memory.events.getD other []).length = (rowsOf db other).length := by
      rw [← haligned.events, List.length_map]
    rw [rowsOf_insertEvent, List.map_append, haligned.sequences]
    by_cases hsame : runId = other
    · subst hsame
      rw [if_pos rfl, List.length_append, List.length_singleton, List.range'_concat,
        List.map_singleton, haligned.nextSequence_eq, hlength, Nat.one_mul, Nat.add_comm 1]
    · rw [if_neg hsame, List.append_nil, List.map_nil, List.append_nil]
  checkpoints := haligned.checkpoints
  runIds := haligned.runIds
  controls := haligned.controls

theorem Related.append (hrelated : Related text db memory) {eventType : String}
    {payload : List (String × Json)} (nowMs : Int)
    (hpayload : eventType = "run_terminal" →
      (outcomeOf text (storedPayload payload)).toOption = (outcomeOf text payload).toOption) :
    Related text (insertEvent db runId eventType payload nowMs)
      (appended memory runId eventType payload nowMs) where
  toAligned := hrelated.toAligned.append runId eventType payload nowMs
  payloads row hrow hterminal := by
    rcases List.mem_append.mp hrow with hold | hnew
    · exact hrelated.payloads row hold hterminal
    · rw [List.mem_singleton.mp hnew] at hterminal ⊢
      exact hpayload hterminal

theorem Aligned.setStatus (haligned : Aligned db memory) {status : RunStatus} (nowMs : Int)
    (hrun : (findRun db runId).isSome = true) :
    Aligned (setStatus db runId status nowMs)
      { memory with runs := memory.runs.set runId status } where
  statuses other := by
    obtain ⟨run, hrun⟩ := Option.isSome_iff_exists.mp hrun
    have hstatus := haligned.statuses other
    unfold SessionStore.runStatus InMemorySessionStore.runStatus at hstatus ⊢
    rw [findRun_setStatus]
    by_cases hsame : other = runId
    · subst hsame
      rw [Dict.get?_set_self, hrun]
      simp [findRun_runId hrun]
    · rw [Dict.get?_set_ne _ _ hsame, ← hstatus]
      cases hother : findRun db other with
      | none => rfl
      | some found =>
          have hne : ¬found.runId = runId := fun h => hsame ((findRun_runId hother).symm.trans h)
          simp [hne]
  events := haligned.events
  sequences := haligned.sequences
  checkpoints := haligned.checkpoints
  runIds := by
    have hkeep : ∀ run : RunRow, RunRow.runId { run with status, updatedAtMs := nowMs } = run.runId :=
      fun _ => rfl
    unfold SessionStore.setStatus
    dsimp only
    rw [Table.map_update RunRow.runId hkeep]
    exact haligned.runIds
  controls := haligned.controls

theorem Aligned.countP_runs (haligned : Aligned db memory) (runId : String) :
    (db.runs.countP fun run => run.runId = runId) ≠ 1 ↔ findRun db runId = none := by
  constructor
  · intro hcount
    by_contra hsome
    obtain ⟨run, hrun⟩ := Option.ne_none_iff_exists'.mp hsome
    have hid := findRun_runId hrun
    have hone : Table.rowcount (fun run : RunRow => run.runId = runId) db.runs = 1 :=
      Table.rowcount_eq_one haligned.runIds (List.mem_of_find?_eq_some hrun) (by simpa using hid)
        fun other hother => (of_decide_eq_true hother).trans hid.symm
    exact hcount hone
  · intro hnone
    have hzero : (db.runs.countP fun run => run.runId = runId) = 0 := by
      unfold findRun at hnone
      rw [List.countP_eq_zero]
      exact List.find?_eq_none.mp hnone
    omega

/-! ### Terminal events of the store -/

theorem sortItems_str (items : List String) :
    Json.sortItems (items.map Json.str) = items.map Json.str := by
  induction items with
  | nil => rfl
  | cons item items ih =>
      rw [List.map_cons, Json.sortItems, ih]
      rfl

theorem sortFields_outcomePayload (outcome : AgentOutcome) :
    Json.sortFields (outcomePayload outcome) = outcomePayload outcome := by
  simp only [outcomePayload, Json.sortFields, Json.sortKeys, sortItems_str]

/-- Sorted fields have the same values. -/
theorem field?_perm {fields others : List (String × Json)} (hperm : fields.Perm others)
    (hkeys : (fields.map Prod.fst).Nodup) (key : String) :
    Json.field? fields key = Json.field? others key := by
  have hothers : (others.map Prod.fst).Nodup := (hperm.map Prod.fst).nodup_iff.mp hkeys
  unfold Json.field?
  cases hfind : fields.find? fun field => field.1 = key with
  | none =>
      have hnone : others.find? (fun field => field.1 = key) = none := by
        rw [List.find?_eq_none] at hfind ⊢
        exact fun field hfield => hfind field (hperm.mem_iff.mpr hfield)
      rw [hnone]
  | some field =>
      obtain ⟨hmem, hkey⟩ := (Table.find?_key_iff hkeys).mp hfind
      have hother := (Table.find?_key_iff hothers).mpr ⟨hperm.mem_iff.mp hmem, hkey⟩
      rw [hother]

/-- What `try_finish_with_outcome` writes is read back alike. -/
theorem outcomeOf_stored (text : Json → String) (outcome : AgentOutcome) :
    outcomeOf text (storedPayload (outcomePayload outcome)) =
      outcomeOf text (outcomePayload outcome) := by
  have hkeys : ((outcomePayload outcome).map Prod.fst).Nodup := by
    change ["status", "summary", "resource_refs", "warnings"].Nodup
    decide
  have hfield (key : String) : Json.getItem (storedPayload (outcomePayload outcome)) key =
      Json.getItem (outcomePayload outcome) key := by
    unfold Json.getItem storedPayload
    rw [sortFields_outcomePayload, ← field?_perm (List.perm_insertionSort _ _).symm hkeys]
  unfold outcomeOf
  simp only [hfield]

/-! ### One call -/

theorem closingInbox_eq (hcontrols : ∀ control ∈ db.controls, control.state ≠ .pending)
    (taskId : String) (appliedControlIds : List String) (nowMs : Int) :
    closingInbox db taskId appliedControlIds nowMs = db := by
  unfold closingInbox
  split
  · rfl
  · unfold applyControls
    rw [Table.update_eq_self]
    intro control hcontrol
    simp [hcontrols control hcontrol]

theorem hasPending_eq (hcontrols : ∀ control ∈ db.controls, control.state ≠ .pending)
    (taskId : String) : hasPending db taskId = false := by
  unfold hasPending
  rw [List.any_eq_false]
  intro control hcontrol
  simp [hcontrols control hcontrol]

/-- A run that is still open closes. -/
theorem tryFinish_open {outcome : AgentOutcome} {run : RunRow}
    (hcontrols : ∀ control ∈ db.controls, control.state ≠ .pending)
    (hrun : findRun db runId = some run) (hrunning : run.status = .running)
    (hterminal : outcome.status.isTerminal = true) (appliedControlIds : List String)
    (nowMs : Int) : SessionStore.tryFinishWithOutcome runId outcome appliedControlIds nowMs db =
      .ok (true, closeRun db runId outcome nowMs) := by
  have hstatus : ¬(outcome.status = .running ∨ outcome.status = .waiting) := by
    rintro (hbad | hbad) <;> rw [hbad] at hterminal <;> cases hterminal
  unfold SessionStore.tryFinishWithOutcome
  rw [if_neg hstatus, hrun]
  simp [hrunning, closingInbox_eq hcontrols, hasPending_eq hcontrols]

/-- A run that is not there does not. -/
theorem tryFinish_missing {outcome : AgentOutcome} (hrun : findRun db runId = none)
    (appliedControlIds : List String) (nowMs : Int) :
    ∃ failure, SessionStore.tryFinishWithOutcome runId outcome appliedControlIds nowMs db =
      .error failure := by
  unfold SessionStore.tryFinishWithOutcome
  split
  · exact ⟨_, rfl⟩
  · rw [hrun]
    exact ⟨_, rfl⟩

theorem memory_append (hruns : memory.runs.contains runId = true) (eventType : String)
    (payload : List (String × Json)) (nowMs : Int) :
    memory.appendEvent runId eventType payload nowMs =
      (.ok ⟨runId, (memory.events.getD runId []).length + 1, eventType, payload, nowMs⟩,
        appended memory runId eventType payload nowMs) := by
  unfold InMemorySessionStore.appendEvent
  rw [hruns]
  rfl

theorem memory_append_missing (hruns : memory.runs.contains runId = false) (eventType : String)
    (payload : List (String × Json)) (nowMs : Int) :
    memory.appendEvent runId eventType payload nowMs =
      (.error (.lookupError ("run does not exist: " ++ runId)), memory) := by
  unfold InMemorySessionStore.appendEvent
  rw [hruns]
  rfl

theorem memory_finish {status : RunStatus} (hterminal : status.isTerminal = true) :
    memory.finishRun runId status =
      (.ok (), { memory with runs := memory.runs.set runId status }) := by
  unfold InMemorySessionStore.finishRun
  rw [hterminal]
  rfl

theorem memory_finish_open {status : RunStatus} (hopen : status.isTerminal = false) :
    memory.finishRun runId status =
      (.error (.valueError "finish_run requires a terminal status"), memory) := by
  unfold InMemorySessionStore.finishRun
  rw [hopen]
  rfl

theorem Related.startRun (hrelated : Related text db memory) {args : StartRun} {nowMs : Int}
    {value : Unit} (hok : SessionStore.startRun args nowMs db = .ok (value, after)) :
    Related text after { memory with runs := memory.runs.set args.runId .running } := by
  obtain ⟨hafter, hfresh, run, hruns, hid, _, _⟩ := startRun_ok hok
  have hstatus := fun other => (startRun_status hok other).2
  have hnew : run.runId ∉ db.runs.map RunRow.runId := by
    intro hmem
    obtain ⟨other, hother, heq⟩ := List.mem_map.mp hmem
    exact List.find?_eq_none.mp hfresh other hother (decide_eq_true (heq.trans hid))
  have hnodup : (after.runs.map RunRow.runId).Nodup := by
    rw [hruns, List.map_append, List.nodup_append]
    refine ⟨hrelated.runIds, List.nodup_singleton _, ?_⟩
    rintro first hfirst second hsecond rfl
    exact hnew (List.mem_singleton.mp hsecond ▸ hfirst)
  rw [hafter] at hstatus ⊢
  refine ⟨⟨fun other => ?_, hrelated.events, hrelated.sequences, hrelated.checkpoints, hnodup,
    hrelated.controls⟩, hrelated.payloads⟩
  rw [hstatus, hrelated.statuses]
  unfold InMemorySessionStore.runStatus
  by_cases hsame : other = args.runId
  · rw [if_pos hsame, hsame, Dict.get?_set_self]
  · rw [if_neg hsame, Dict.get?_set_ne _ _ hsame]

theorem Related.saveCheckpoint (hrelated : Related text db memory) {checkpoint : RunCheckpoint}
    {nowMs : Int} {value : Unit}
    (hok : SessionStore.saveCheckpoint checkpoint nowMs db = .ok (value, after)) :
    Related text after
      { memory with checkpoints := memory.checkpoints.set checkpoint.runId checkpoint } := by
  have hafter := saveCheckpoint_ok hok
  have hsaved := loadCheckpoint_save hok
  have hothers : ∀ other, ¬checkpoint.runId = other →
      SessionStore.loadCheckpoint other after = SessionStore.loadCheckpoint other db :=
    fun other hother => loadCheckpoint_save_other hother hok
  rw [hafter] at hsaved hothers ⊢
  refine ⟨⟨hrelated.statuses, hrelated.events, hrelated.sequences, fun other => ?_,
    hrelated.runIds, hrelated.controls⟩, hrelated.payloads⟩
  unfold InMemorySessionStore.loadCheckpoint
  by_cases hsame : other = checkpoint.runId
  · subst hsame
    rw [Dict.get?_set_self]
    exact hsaved
  · rw [Dict.get?_set_ne _ _ hsame, hothers other (fun h => hsame h.symm)]
    exact hrelated.checkpoints other

theorem Related.discardCheckpoint (hrelated : Related text db memory) (runId : String) :
    Related text
      { db with
        checkpoints := Table.delete (fun row => row.runId = runId) db.checkpoints
        checkpointSources := Table.delete (fun row => row.runId = runId) db.checkpointSources }
      { memory with checkpoints := memory.checkpoints.erase runId } := by
  refine ⟨⟨hrelated.statuses, hrelated.events, hrelated.sequences, fun other => ?_,
    hrelated.runIds, hrelated.controls⟩, hrelated.payloads⟩
  have hload := hrelated.checkpoints other
  unfold SessionStore.loadCheckpoint InMemorySessionStore.loadCheckpoint at hload ⊢
  unfold Table.delete
  rw [List.find?_filter]
  by_cases hsame : other = runId
  · subst hsame
    rw [Dict.get?_erase_self, Option.map_eq_none_iff, List.find?_eq_none]
    intro row _
    simp
  · rw [Dict.get?_erase_ne _ hsame, ← hload]
    congr 2
    funext row
    by_cases hrow : row.runId = other
    · simp [hrow, hsame]
    · simp [hrow]

theorem toOption_map {β γ : Type} (f : β → γ) (result : Except PyError β) :
    (result.map f).toOption = result.toOption.map f := by
  cases result with
  | error failure => rfl
  | ok value => rfl

/-- A call on which the stores agree: the same answer, and related states after it. -/
theorem step_agrees (hrelated : Related text db memory) {operation : SessionOp}
    (hagrees : Agrees text db operation) :
    (step text db operation).1.toOption = (memory.step text operation).1.toOption ∧
      Related text (step text db operation).2 (memory.step text operation).2 := by
  cases operation with
  | startRun args nowMs =>
      unfold step InMemorySessionStore.step InMemorySessionStore.startRun
      dsimp only
      rw [hrelated.contains]
      cases hrun : (findRun db args.runId).isSome with
      | true =>
          have hfails : SessionStore.startRun args nowMs db =
              .error (.integrityError "UNIQUE constraint failed: runtime_runs.run_id") :=
            if_pos hrun
          rw [hfails]
          exact ⟨rfl, hrelated⟩
      | false =>
          have htask : (!db.tasks.any fun task => task.taskId = args.taskId) = false := by
            obtain ⟨task, hmem, htask⟩ := hagrees.resolve_left (by rw [hrun]; nofun)
            rw [List.any_eq_true.mpr ⟨task, hmem, decide_eq_true htask⟩]
            rfl
          cases hok : SessionStore.startRun args nowMs db with
          | error failure =>
              unfold SessionStore.startRun at hok
              rw [hrun, htask] at hok
              cases hok
          | ok result =>
              obtain ⟨value, after⟩ := result
              exact ⟨rfl, hrelated.startRun hok⟩
  | appendEvent runId eventType payload nowMs =>
      unfold step InMemorySessionStore.step SessionStore.appendEvent
      dsimp only
      cases hrun : findRun db runId with
      | none =>
          rw [memory_append_missing (by rw [hrelated.contains, hrun]; rfl)]
          exact ⟨rfl, hrelated⟩
      | some run =>
          rw [memory_append (by rw [hrelated.contains, hrun]; rfl)]
          refine ⟨?_, hrelated.append nowMs (hagrees (by rw [hrun]; rfl))⟩
          change some (SessionValue.event _) = some (SessionValue.event _)
          rw [hrelated.nextSequence_eq]
  | saveCheckpoint checkpoint nowMs =>
      unfold step InMemorySessionStore.step InMemorySessionStore.saveCheckpoint
      dsimp only
      cases hok : SessionStore.saveCheckpoint checkpoint nowMs db with
      | error failure =>
          have hrun : (findRun db checkpoint.runId).isNone = false := by
            rw [Option.isNone_eq_false_iff]
            exact hagrees
          unfold SessionStore.saveCheckpoint at hok
          dsimp only at hok
          rw [hrun] at hok
          cases hok
      | ok result =>
          obtain ⟨value, after⟩ := result
          exact ⟨rfl, hrelated.saveCheckpoint hok⟩
  | loadCheckpoint runId =>
      refine ⟨?_, hrelated⟩
      change some (SessionValue.checkpoint _) = some (SessionValue.checkpoint _)
      rw [hrelated.checkpoints]
  | discardCheckpoint runId => exact ⟨rfl, hrelated.discardCheckpoint runId⟩
  | runStatus runId =>
      refine ⟨?_, hrelated⟩
      change some (SessionValue.status _) = some (SessionValue.status _)
      rw [hrelated.statuses]
  | loadOutcome runId =>
      refine ⟨?_, hrelated⟩
      change ((SessionStore.loadOutcome text runId db).map SessionValue.outcome).toOption =
        ((memory.loadOutcome text runId).map SessionValue.outcome).toOption
      rw [toOption_map, toOption_map, hrelated.loadOutcome_eq]
  | finishRun runId status nowMs =>
      unfold step InMemorySessionStore.step SessionStore.finishRun
      dsimp only
      cases hterminal : status.isTerminal with
      | false =>
          rw [memory_finish_open hterminal]
          exact ⟨rfl, hrelated⟩
      | true =>
          have hrun := hagrees hterminal
          have hcount : ¬(db.runs.countP fun run => run.runId = runId) ≠ 1 := by
            rw [hrelated.countP_runs]
            exact Option.isSome_iff_ne_none.mp hrun
          rw [memory_finish hterminal, if_neg hcount]
          exact ⟨rfl, hrelated.toAligned.setStatus nowMs hrun, hrelated.payloads⟩
  | tryFinishWithOutcome runId outcome appliedControlIds nowMs =>
      unfold step InMemorySessionStore.step InMemorySessionStore.tryFinishWithOutcome
      dsimp only
      cases hrun : findRun db runId with
      | none =>
          obtain ⟨failure, hfails⟩ : ∃ failure, SessionStore.tryFinishWithOutcome runId outcome
              appliedControlIds nowMs db = .error failure :=
            tryFinish_missing hrun appliedControlIds nowMs
          rw [hfails, memory_append_missing (by rw [hrelated.contains, hrun]; rfl)]
          exact ⟨rfl, hrelated⟩
      | some run =>
          obtain ⟨hterminal, hrunning⟩ := hagrees (by rw [hrun]; rfl)
          have hrunning : run.status = .running := by
            unfold SessionStore.runStatus at hrunning
            rw [hrun] at hrunning
            exact Option.some.inj hrunning
          have happended : Related text
              (insertEvent db runId "run_terminal" (outcomePayload outcome) nowMs)
              (appended memory runId "run_terminal" (outcomePayload outcome) nowMs) :=
            hrelated.append nowMs fun _ =>
              congrArg Except.toOption (outcomeOf_stored text outcome)
          rw [tryFinish_open hrelated.controls hrun hrunning hterminal,
            memory_append (by rw [hrelated.contains, hrun]; rfl)]
          dsimp only
          rw [memory_finish hterminal]
          exact ⟨rfl, happended.toAligned.setStatus nowMs (by
            change (findRun db runId).isSome = true
            rw [hrun]
            rfl), happended.payloads⟩

/-- The outcome that a terminal event gives which was just appended. -/
theorem loadOutcome_append (text : Json → String) (haligned : Aligned db memory) (runId : String)
    (payload : List (String × Json)) (nowMs : Int) :
    SessionStore.loadOutcome text runId (insertEvent db runId "run_terminal" payload nowMs) =
        (outcomeOf text (storedPayload payload)).map some ∧
      (appended memory runId "run_terminal" payload nowMs).loadOutcome text runId =
        (outcomeOf text payload).map some := by
  have hafter := haligned.append runId "run_terminal" payload nowMs
  have hlast : (rowsOf (insertEvent db runId "run_terminal" payload nowMs) runId).reverse.find?
      (fun event => event.eventType = "run_terminal") =
        some ⟨runId, nextSequence db runId, "run_terminal", payload, nowMs⟩ := by
    rw [rowsOf_insertEvent, if_pos rfl, List.reverse_append]
    rfl
  unfold SessionStore.loadOutcome
  rw [hafter.lastTerminal_eq, hafter.memory_loadOutcome, hlast]
  exact ⟨rfl, rfl⟩

/-- Stores that answer a call alike and show the same after it agree on it. -/
theorem agrees_of_same (hrelated : Related text db memory) {operation : SessionOp}
    (hsame : (step text db operation).1.toOption = (memory.step text operation).1.toOption)
    (hview : ∀ runId, view text (step text db operation).2 runId =
      (memory.step text operation).2.view text runId) : Agrees text db operation := by
  cases operation with
  | startRun args nowMs =>
      by_contra hnot
      obtain ⟨hrun, htask⟩ := not_or.mp hnot
      have hrun : (findRun db args.runId).isSome = false := by simpa using hrun
      have hnone : (!db.tasks.any fun task => task.taskId = args.taskId) = true := by
        rw [Bool.not_eq_true', List.any_eq_false]
        intro task hmem heq
        exact htask ⟨task, hmem, of_decide_eq_true heq⟩
      unfold step InMemorySessionStore.step SessionStore.startRun
        InMemorySessionStore.startRun at hsame
      dsimp only at hsame
      rw [hrelated.contains, hrun, hnone] at hsame
      cases hsame
  | appendEvent runId eventType payload nowMs =>
      rintro hrun rfl
      have hview := congrArg SessionView.outcome (hview runId)
      have hruns : memory.runs.contains runId = true := by rw [hrelated.contains, hrun]
      obtain ⟨hstored, hplain⟩ := loadOutcome_append text hrelated.toAligned runId payload nowMs
      unfold step InMemorySessionStore.step SessionStore.appendEvent at hview
      dsimp only at hview
      have hthere : ¬(findRun db runId).isNone = true := by
        rw [Option.isNone_iff_eq_none]
        exact Option.isSome_iff_ne_none.mp hrun
      rw [memory_append hruns, if_neg hthere] at hview
      change (SessionStore.loadOutcome text runId _).toOption =
        ((appended memory runId "run_terminal" payload nowMs).loadOutcome text runId).toOption
        at hview
      rw [hplain] at hview
      refine toOption_map_some.mp ?_
      rw [← hview, ← hstored]
      rfl
  | saveCheckpoint checkpoint nowMs =>
      change (findRun db checkpoint.runId).isSome = true
      by_contra hrun
      have hrun : (findRun db checkpoint.runId).isNone = true := by simpa using hrun
      unfold step SessionStore.saveCheckpoint at hsame
      dsimp only at hsame
      rw [if_pos hrun] at hsame
      cases hsame
  | finishRun runId status nowMs =>
      intro hterminal
      by_contra hrun
      have hcount := (hrelated.countP_runs runId).mpr (by simpa using hrun)
      unfold step InMemorySessionStore.step SessionStore.finishRun at hsame
      dsimp only at hsame
      rw [memory_finish hterminal, hterminal, if_pos hcount] at hsame
      cases hsame
  | tryFinishWithOutcome runId outcome appliedControlIds nowMs =>
      intro hsome
      obtain ⟨run, hrun⟩ := Option.isSome_iff_exists.mp hsome
      have hruns : memory.runs.contains runId = true := by rw [hrelated.contains, hsome]
      unfold step InMemorySessionStore.step InMemorySessionStore.tryFinishWithOutcome at hsame hview
      dsimp only at hsame hview
      rw [memory_append hruns] at hsame hview
      dsimp only at hsame hview
      cases hterminal : outcome.status.isTerminal with
      | false =>
          -- both raise, but the event stays in memory
          exfalso
          have hstatus : outcome.status = .running ∨ outcome.status = .waiting := by
            cases hstatus : outcome.status with
            | running => exact .inl rfl
            | waiting => exact .inr rfl
            | _ =>
                rw [hstatus] at hterminal
                cases hterminal
          have hfails : SessionStore.tryFinishWithOutcome runId outcome appliedControlIds nowMs db =
              .error (.valueError "terminal outcome is required") := if_pos hstatus
          rw [hfails, memory_finish_open hterminal] at hview
          have hevents := congrArg (fun view => view.events.length)
            ((hrelated.view_eq runId).symm.trans (hview runId))
          change ((memory.events.getD runId []).map _).length =
            ((Dict.getD (Dict.set _ runId _) runId []).map _).length at hevents
          rw [Dict.getD_set_self] at hevents
          simp at hevents
      | true =>
          refine ⟨rfl, ?_⟩
          unfold SessionStore.runStatus
          rw [hrun]
          by_contra hrunning
          have hrunning : run.status ≠ .running := fun heq => hrunning (congrArg some heq)
          have hfails : ∃ failure, SessionStore.tryFinishWithOutcome runId outcome appliedControlIds
              nowMs db = .error failure := by
            unfold SessionStore.tryFinishWithOutcome
            split
            · exact ⟨_, rfl⟩
            · rw [hrun]
              dsimp only
              rw [if_pos hrunning]
              exact ⟨_, rfl⟩
          obtain ⟨failure, hfails⟩ := hfails
          rw [hfails, memory_finish hterminal] at hsame
          cases hsame
  | _ => trivial

/-- The database state after a call, whether it fails or not. -/
def next (text : Json → String) (db : Database) (operation : SessionOp) : Option Database :=
  some (step text db operation).2

theorem same_results_of_related (hrelated : Related text db memory) (operations : List SessionOp) :
    SameResults text operations db memory ↔
      Along (next text) (Agrees text) operations db := by
  induction operations generalizing db memory with
  | nil => exact ⟨fun _ => trivial, fun _ => trivial⟩
  | cons operation operations ih =>
      rw [along_cons_of_step (t := (step text db operation).2) rfl]
      constructor
      · rintro ⟨hsame, hview, hrest⟩
        have hagrees := agrees_of_same hrelated hsame hview
        exact ⟨hagrees, (ih (step_agrees hrelated hagrees).2).mp hrest⟩
      · rintro ⟨hagrees, hrest⟩
        obtain ⟨hsame, hafter⟩ := step_agrees hrelated hagrees
        exact ⟨hsame, hafter.view_eq, (ih hafter).mpr hrest⟩

/-- The two stores give the same results for a sequence of calls if and only if they agree on each
of its calls. -/
theorem same_results_iff (text : Json → String) (db : Database) (hfresh : Fresh db)
    (operations : List SessionOp) :
    SameResults text operations db {} ↔ Along (next text) (Agrees text) operations db :=
  same_results_of_related (related_of_fresh hfresh) operations

private def openTask : TaskRow :=
  { taskId := "task-1", eventPk := none, pluginId := "im", commandType := "message"
    sessionKey := "acme/app/chat", tenantKey := "acme", appId := "app", groupId := none
    priority := 0, payload := [], state := .leased, availableAtMs := 0, leaseOwner := none
    leaseExpiresAtMs := none, attemptCount := 1, maxAttempts := 3, lastErrorCode := none
    createdAtMs := 0, updatedAtMs := 0 }

private def openRun : SessionStore.StartRun :=
  { runId := "run-1", taskId := "task-1", sessionKey := "acme/app/chat", agentId := "root"
    agentVersion := 1, policyVersion := 1 }

theorem same_results_one_run :
    SameResults (Json.dumps {})
      [.startRun openRun 0, .appendEvent "run-1" "turn_started" [("turn", .int 1)] 1,
        .tryFinishWithOutcome "run-1" { status := .completed, summary := "done" } [] 2]
      { tasks := [openTask] } {} := by
  refine (same_results_iff (Json.dumps {}) { tasks := [openTask] } ⟨rfl, rfl, rfl, nofun⟩ _).mpr ?_
  refine ⟨.inr ⟨openTask, List.mem_cons_self, rfl⟩, ?_⟩
  rintro _ ⟨⟩
  refine ⟨nofun, ?_⟩
  rintro _ ⟨⟩
  refine ⟨fun _ => ⟨rfl, rfl⟩, ?_⟩
  rintro _ ⟨⟩
  trivial

/-- The store in memory finishes a run that it has never seen. -/
theorem memory_finishes_unknown : ¬∀ db, Fresh db → ∀ operations,
    SameResults (Json.dumps {}) operations db {} := by
  intro hclaim
  have hsame := (hclaim {} ⟨rfl, rfl, rfl, nofun⟩ [.finishRun "run-1" .completed 0]).1
  cases hsame

end SessionPort

end Codex2Lark
