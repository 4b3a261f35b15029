import Codex2Lark.Storage.CheckpointPayload
import Codex2Lark.Storage.Crypto

/-!
The checkpoint tables with their encrypted column: `save_checkpoint` and `load_checkpoint` of
`storage/session_store.py` down to the bytes that the cipher is given. They refine the operations
that store the checkpoint as it is.
-/

namespace Codex2Lark

open Lib Json

/-! ### Text and bytes -/

/-- `bytes.decode("utf-8")`. -/
def decodeUtf8 (bytes : Bytes) : Option String :=
  bytes.toByteArray.utf8Decode?.map fun chars => String.ofList chars.toList

theorem decodeUtf8_utf8 (text : String) : decodeUtf8 (utf8 text) = some text := by
  have hencoded : (utf8 text).toByteArray = text.toList.utf8Encode := rfl
  unfold decodeUtf8
  rw [hencoded, List.utf8Decode?_utf8Encode]
  simp

namespace Json

/-- `detect_encoding`: no byte order mark, and no zero byte among the first two. -/
def detectsUtf8 : Bytes → Bool
  | 0xEF :: 0xBB :: 0xBF :: _ | 0xFE :: 0xFF :: _ | 0xFF :: 0xFE :: _ => false
  | 0 :: _ => false
  | _ :: 0 :: _ => false
  | _ => true

/-- `json.loads` of bytes; the other encodings are left out. -/
def loadsBytes (bytes : Bytes) : Except PyError Json :=
  if detectsUtf8 bytes then
    match decodeUtf8 bytes with
    | some text => loads text
    | none => .error (.valueError "invalid utf-8")
  else .error (.valueError "unsupported encoding")

/-- An object that is not empty opens with a brace and a quote. -/
theorem text_obj_head (field : String × Json) (rest : List (String × Json)) :
    ∃ tail, text (.obj (field :: rest)) = '\x7b' :: '"' :: tail := by
  rw [text_obj]
  cases horder : inOrder (field :: rest) with
  | nil =>
      have hlength := (inOrder_perm (field :: rest)).length_eq
      rw [horder] at hlength
      simp at hlength
  | cons first others =>
      obtain ⟨key, value⟩ := first
      have hfirst : fieldText (key, value) =
          '"' :: (key.toList.flatMap escapeChar ++ ['"'] ++ [':', ' '] ++ text value) := by
        simp [fieldText, quote_toList]
      cases others with
      | nil =>
          rw [List.map_cons, List.map_nil, List.intercalate_singleton, hfirst]
          exact ⟨_, rfl⟩
      | cons next others =>
          rw [List.map_cons, List.map_cons, List.intercalate_cons_cons, hfirst]
          exact ⟨_, rfl⟩

/-- The bytes of an object that was written are read back. -/
theorem loadsBytes_dumps {field : String × Json} {rest : List (String × Json)}
    (hprinted : isPrinted (.obj (field :: rest)) = true) :
    loadsBytes (utf8 (dumps {} (.obj (field :: rest)))) =
      .ok (.obj (sortedObject (field :: rest))) := by
  obtain ⟨tail, htail⟩ := text_obj_head field rest
  have hbytes : utf8 (dumps {} (.obj (field :: rest))) =
      0x7B :: 0x22 :: tail.flatMap String.utf8EncodeChar := by
    unfold utf8
    rw [show (dumps {} (.obj (field :: rest))).toList = '\x7b' :: '"' :: tail from htail]
    rfl
  have hdetects : detectsUtf8 (utf8 (dumps {} (.obj (field :: rest)))) = true := by
    rw [hbytes]
    rfl
  unfold loadsBytes
  rw [if_pos hdetects, decodeUtf8_utf8]
  dsimp only
  rw [loads_dumps hprinted, sorted_obj]
  rfl

end Json

/-! ### The tables -/

/-- A row of `runtime_checkpoints`. -/
structure StoredCheckpointRow where
  runId : String
  payloadCiphertext : Envelope
  nextTurn : Nat
  agentId : String
  agentVersion : Nat
  compactorVersion : Nat
  createdAtMs : Int
  updatedAtMs : Int
deriving DecidableEq, Repr

/-- What the two operations read and write; a run is the target of a foreign key. -/
structure CheckpointTables where
  runs : List String
  checkpoints : List StoredCheckpointRow
  sources : List CheckpointSourceRow
deriving DecidableEq, Repr

namespace SQLiteSessionStore

/-- `_checkpoint_aad`. -/
def checkpointAad (runId : String) : Bytes := utf8 ("runtime_checkpoints:" ++ runId ++ ":v1")

section Operations

variable (crypto : CryptoPrimitives) (master : MasterKey) (coerce : Coercions)

/-- `_encrypt_json`. -/
def encryptJson (random : EnvelopeRandom) (payload : List (String × Json)) (aad : Bytes) : Envelope :=
  EnvelopeCipher.encrypt crypto master random (utf8 (Json.dumps {} (.obj payload))) aad

/-- `_decrypt_json`. -/
def decryptJson (envelope : Envelope) (aad : Bytes) : Except PyError (List (String × Json)) := do
  let plaintext ← EnvelopeCipher.decrypt crypto master envelope aad
  match ← Json.loadsBytes plaintext with
  | .obj fields => .ok fields
  | _ => .error (.valueError "stored session payload must be an object")

/-- `ON CONFLICT(run_id) DO UPDATE`. -/
def overwrite (checkpoint : RunCheckpoint) (encrypted : Envelope) (nowMs : Int)
    (row : StoredCheckpointRow) : StoredCheckpointRow :=
  { row with
    payloadCiphertext := encrypted, nextTurn := checkpoint.nextTurn, agentId := checkpoint.agentId
    agentVersion := checkpoint.agentVersion, compactorVersion := checkpoint.compactorVersion
    updatedAtMs := nowMs }

def newRow (checkpoint : RunCheckpoint) (encrypted : Envelope) (nowMs : Int) : StoredCheckpointRow :=
  { runId := checkpoint.runId, payloadCiphertext := encrypted, nextTurn := checkpoint.nextTurn
    agentId := checkpoint.agentId, agentVersion := checkpoint.agentVersion
    compactorVersion := checkpoint.compactorVersion, createdAtMs := nowMs, updatedAtMs := nowMs }

/-- The statements of one transaction. -/
def saveCheckpoint (random : EnvelopeRandom) (checkpoint : RunCheckpoint) (nowMs : Int)
    (tables : CheckpointTables) : Except PyError CheckpointTables :=
  let runId := checkpoint.runId
  let encrypted := encryptJson crypto master random (SessionStore.checkpointDict checkpoint)
    (checkpointAad runId)
  if !tables.runs.contains runId then .error (.integrityError "FOREIGN KEY constraint failed")
  else
    let checkpoints :=
      if tables.checkpoints.any fun row => row.runId = runId then
        Table.update (fun row => row.runId = runId) (overwrite checkpoint encrypted nowMs)
          tables.checkpoints
      else tables.checkpoints ++ [newRow checkpoint encrypted nowMs]
    let sources := checkpoint.sourceVersions.map fun item =>
      { runId, sourceRef := item.1, sourceVersion := item.2 : CheckpointSourceRow }
    .ok { tables with
      checkpoints
      sources := Table.delete (fun row => row.runId = runId) tables.sources ++
        sources.insertionSort (fun a b => a.sourceRef ≤ b.sourceRef) }

def loadCheckpoint (runId : String) (tables : CheckpointTables) :
    Except PyError (Option RunCheckpoint) :=
  match tables.checkpoints.find? fun row => row.runId = runId with
  | none => .ok none
  | some row => do
      let payload ← decryptJson crypto master row.payloadCiphertext (checkpointAad runId)
      let checkpoint ← SessionStore.checkpointFromDict coerce payload
      .ok (some checkpoint)

end Operations

/-! ### One payload -/

variable {crypto : CryptoPrimitives} {master : MasterKey} (coerce : Coercions)

/-- What was encrypted is decrypted, with its keys in order. -/
theorem decryptJson_encryptJson (hcrypto : crypto.Inverts) {payload : List (String × Json)}
    (hsome : payload ≠ []) (hprinted : isPrinted (.obj payload) = true) (random : EnvelopeRandom)
    (aad : Bytes) :
    decryptJson crypto master (encryptJson crypto master random payload aad) aad =
      .ok (sortedObject payload) := by
  obtain ⟨field, rest, rfl⟩ := List.exists_cons_of_ne_nil hsome
  have hread := Json.loadsBytes_dumps hprinted
  unfold decryptJson encryptJson
  rw [EnvelopeCipher.decrypt_encrypt hcrypto random]
  change (Json.loadsBytes (utf8 (Json.dumps {} (.obj (field :: rest)))) >>= fun value =>
    match value with
    | .obj fields => .ok fields
    | _ => .error (.valueError "stored session payload must be an object")) = _
  rw [hread]
  rfl

/-- A stored payload is read as the checkpoint that was saved. -/
theorem load_payload (master : MasterKey) (hcrypto : crypto.Inverts) {checkpoint : RunCheckpoint}
    (hstorable : checkpoint.Storable) (random : EnvelopeRandom) (aad : Bytes) :
    (decryptJson crypto master
        (encryptJson crypto master random (SessionStore.checkpointDict checkpoint) aad) aad >>=
      SessionStore.checkpointFromDict coerce) =
      .ok (SessionStore.sortedCheckpoint checkpoint) := by
  have hsome : SessionStore.checkpointDict checkpoint ≠ [] := List.cons_ne_nil _ _
  have hprinted := SessionStore.checkpointDict_printed hstorable
  have hread := SessionStore.checkpointFromDict_sorted coerce hstorable
  generalize SessionStore.checkpointDict checkpoint = payload at hsome hprinted hread ⊢
  rw [decryptJson_encryptJson hcrypto hsome hprinted]
  exact hread

/-! ### Saving and loading -/

/-- The two cases of a save; the columns beside the payload do not matter to a load. -/
theorem saveCheckpoint_ok {random : EnvelopeRandom} {checkpoint : RunCheckpoint} {nowMs : Int}
    {tables after : CheckpointTables}
    (hok : saveCheckpoint crypto master random checkpoint nowMs tables = .ok after) :
    (∃ row, after.checkpoints.find? (fun row => row.runId = checkpoint.runId) = some row ∧
      row.payloadCiphertext = encryptJson crypto master random
        (SessionStore.checkpointDict checkpoint) (checkpointAad checkpoint.runId)) ∧
    after.sources = Table.delete (fun row => row.runId = checkpoint.runId) tables.sources ++
      (checkpoint.sourceVersions.map fun item =>
        { runId := checkpoint.runId, sourceRef := item.1
          sourceVersion := item.2 : CheckpointSourceRow }).insertionSort
        (fun a b => a.sourceRef ≤ b.sourceRef) := by
  unfold saveCheckpoint at hok
  dsimp only at hok
  split at hok
  · cases hok
  · cases hok
    refine ⟨?_, rfl⟩
    dsimp only
    split
    · rename_i hstored
      obtain ⟨old, hold, hsame⟩ := List.any_eq_true.mp hstored
      cases hfind : tables.checkpoints.find? fun row => row.runId = checkpoint.runId with
      | none => exact absurd hsame (List.find?_eq_none.mp hfind old hold)
      | some found =>
          have hid : found.runId = checkpoint.runId := by simpa using List.find?_some hfind
          have hkeep : ∀ row, (overwrite checkpoint (encryptJson crypto master random
              (SessionStore.checkpointDict checkpoint) (checkpointAad checkpoint.runId)) nowMs
                row).runId = row.runId := fun _ => rfl
          rw [Table.find?_update StoredCheckpointRow.runId _ hkeep, hfind, Option.map_some,
            if_pos (by simpa using hid)]
          exact ⟨_, rfl, rfl⟩
    · rename_i hnone
      have hmissing : tables.checkpoints.find? (fun row => row.runId = checkpoint.runId) = none := by
        rw [List.find?_eq_none]
        intro row hmem hsame
        exact hnone (List.any_eq_true.mpr ⟨row, hmem, hsame⟩)
      rw [List.find?_append, hmissing]
      refine ⟨newRow checkpoint (encryptJson crypto master random
        (SessionStore.checkpointDict checkpoint) (checkpointAad checkpoint.runId)) nowMs, ?_, rfl⟩
      simp [newRow]

/-- A load after a save finds the checkpoint with its keys in order. -/
theorem loadCheckpoint_save (hcrypto : crypto.Inverts) {random : EnvelopeRandom}
    {checkpoint : RunCheckpoint} (hstorable : checkpoint.Storable) {nowMs : Int}
    {tables after : CheckpointTables}
    (hok : saveCheckpoint crypto master random checkpoint nowMs tables = .ok after) :
    loadCheckpoint crypto master coerce checkpoint.runId after =
      .ok (some (SessionStore.sortedCheckpoint checkpoint)) := by
  obtain ⟨row, hfind, hpayload⟩ := (saveCheckpoint_ok hok).1
  have hread := load_payload coerce master hcrypto hstorable random
    (checkpointAad checkpoint.runId)
  unfold loadCheckpoint
  rw [hfind]
  dsimp only
  rw [hpayload]
  generalize decryptJson crypto master (encryptJson crypto master random
    (SessionStore.checkpointDict checkpoint) (checkpointAad checkpoint.runId))
      (checkpointAad checkpoint.runId) = decrypted at hread ⊢
  cases decrypted with
  | error e => cases hread
  | ok payload =>
      change SessionStore.checkpointFromDict coerce payload = _ at hread
      change (SessionStore.checkpointFromDict coerce payload >>= fun checkpoint =>
        Except.ok (some checkpoint)) = _
      rw [hread]
      rfl

end SQLiteSessionStore

/-! ### Equal checkpoints -/

/-- Equal calls: the arguments are the same JSON object. -/
structure ToolCall.Same (a b : ToolCall) : Prop where
  callId : a.callId = b.callId
  toolId : a.toolId = b.toolId
  arguments : Json.identical (.obj a.arguments) (.obj b.arguments) = true

structure ModelMessage.Same (a b : ModelMessage) : Prop where
  role : a.role = b.role
  content : a.content = b.content
  name : a.name = b.name
  toolCallId : a.toolCallId = b.toolCallId
  trusted : a.trusted = b.trusted
  toolCalls : List.Forall₂ ToolCall.Same a.toolCalls b.toolCalls

/-- Equal checkpoints: a dictionary has the same entries, in any order. -/
structure RunCheckpoint.Same (a b : RunCheckpoint) : Prop where
  runId : a.runId = b.runId
  agentId : a.agentId = b.agentId
  agentVersion : a.agentVersion = b.agentVersion
  resourceVersions : a.resourceVersions.Perm b.resourceVersions
  nextTurn : a.nextTurn = b.nextTurn
  messages : List.Forall₂ ModelMessage.Same a.messages b.messages
  verifiedEffects : a.verifiedEffects = b.verifiedEffects
  blockers : a.blockers = b.blockers
  sourceVersions : a.sourceVersions.Perm b.sourceVersions
  consumedBudget : a.consumedBudget.Perm b.consumedBudget
  compactorVersion : a.compactorVersion = b.compactorVersion
  appliedControlIds : a.appliedControlIds = b.appliedControlIds
  unresolvedExternalEffects : a.unresolvedExternalEffects = b.unresolvedExternalEffects
  policyVersion : a.policyVersion = b.policyVersion
  toolSchemaFingerprint : a.toolSchemaFingerprint = b.toolSchemaFingerprint

/-- Sorting the keys gives an equal checkpoint. -/
theorem RunCheckpoint.Storable.sorted_same {checkpoint : RunCheckpoint}
    (hstorable : checkpoint.Storable) :
    (SessionStore.sortedCheckpoint checkpoint).Same checkpoint where
  runId := rfl
  agentId := rfl
  agentVersion := rfl
  resourceVersions := SessionStore.inKeyOrder_perm _
  nextTurn := rfl
  messages := by
    refine List.forall₂_map_left_iff.mpr (List.forall₂_same.mpr fun message hmem => ?_)
    refine ⟨rfl, rfl, rfl, rfl, rfl, ?_⟩
    refine List.forall₂_map_left_iff.mpr (List.forall₂_same.mpr fun call hcall => ?_)
    have hsame := Json.identical_sorted _ (hstorable.arguments message hmem call hcall)
    rw [Json.sorted_obj] at hsame
    exact ⟨rfl, rfl, hsame⟩
  verifiedEffects := rfl
  blockers := rfl
  sourceVersions := SessionStore.inKeyOrder_perm _
  consumedBudget := SessionStore.inKeyOrder_perm _
  compactorVersion := rfl
  appliedControlIds := rfl
  unresolvedExternalEffects := rfl
  policyVersion := rfl
  toolSchemaFingerprint := rfl

namespace SQLiteSessionStore

/-- What the index holds of a run. -/
def indexedSources (tables : CheckpointTables) (runId : String) : List (String × String) :=
  (tables.sources.filter fun row => row.runId = runId).map fun row =>
    (row.sourceRef, row.sourceVersion)

section Index

variable {crypto : CryptoPrimitives} {master : MasterKey} {random : EnvelopeRandom}
  {checkpoint : RunCheckpoint} {nowMs : Int} {tables after : CheckpointTables}
  (hok : saveCheckpoint crypto master random checkpoint nowMs tables = .ok after)

include hok

/-- The index holds the sources of the saved checkpoint, whatever it held before. -/
theorem indexedSources_save :
    (indexedSources after checkpoint.runId).Perm checkpoint.sourceVersions := by
  unfold indexedSources
  rw [(saveCheckpoint_ok hok).2, List.filter_append, List.map_append]
  have hgone : (Table.delete (fun row : CheckpointSourceRow => row.runId = checkpoint.runId)
      tables.sources).filter (fun row => row.runId = checkpoint.runId) = [] := by
    rw [List.filter_eq_nil_iff]
    intro row hmem
    simpa using (Table.mem_delete.mp hmem).2
  rw [hgone, List.map_nil, List.nil_append]
  have hperm := List.perm_insertionSort (fun a b : CheckpointSourceRow => a.sourceRef ≤ b.sourceRef)
    (checkpoint.sourceVersions.map fun item =>
      { runId := checkpoint.runId, sourceRef := item.1
        sourceVersion := item.2 : CheckpointSourceRow })
  refine ((hperm.filter _).map _).trans ?_
  rw [List.filter_eq_self.mpr, List.map_map]
  · exact List.Perm.of_eq (List.map_id' _)
  · intro row hmem
    obtain ⟨item, -, rfl⟩ := List.mem_map.mp hmem
    simp

theorem indexedSources_save_other {runId : String} (hother : runId ≠ checkpoint.runId) :
    indexedSources after runId = indexedSources tables runId := by
  unfold indexedSources
  rw [(saveCheckpoint_ok hok).2, List.filter_append]
  have hnew : ((checkpoint.sourceVersions.map fun item =>
      { runId := checkpoint.runId, sourceRef := item.1
        sourceVersion := item.2 : CheckpointSourceRow }).insertionSort
        (fun a b => a.sourceRef ≤ b.sourceRef)).filter (fun row => row.runId = runId) = [] := by
    rw [List.filter_eq_nil_iff]
    intro row hmem
    obtain ⟨item, -, rfl⟩ := List.mem_map.mp ((List.perm_insertionSort _ _).subset hmem)
    simpa using Ne.symm hother
  have hkept : (Table.delete (fun row : CheckpointSourceRow => row.runId = checkpoint.runId)
      tables.sources).filter (fun row => row.runId = runId) =
        tables.sources.filter fun row => row.runId = runId := by
    unfold Table.delete
    rw [List.filter_filter]
    refine List.filter_congr fun row _ => ?_
    by_cases hrow : row.runId = runId
    · simp [hrow, hother]
    · simp [hrow]
  rw [hnew, hkept, List.append_nil]

end Index

/-! ### The operations on plain checkpoints -/

section Refinement

variable (coerce : Coercions) (crypto : CryptoPrimitives) (master : MasterKey)

/-- A stored row and the row that keeps its checkpoint as it is. -/
structure RowOf (stored : StoredCheckpointRow) (row : CheckpointRow) : Prop where
  runId : stored.runId = row.runId
  createdAtMs : stored.createdAtMs = row.createdAtMs
  updatedAtMs : stored.updatedAtMs = row.updatedAtMs
  payload : (decryptJson crypto master stored.payloadCiphertext (checkpointAad stored.runId) >>=
    SessionStore.checkpointFromDict coerce) = .ok (SessionStore.sortedCheckpoint row.payload)

/-- The tables hold the checkpoints of the database in their encrypted form. -/
structure Represents (tables : CheckpointTables) (db : Database) : Prop where
  runs : ∀ runId, runId ∈ tables.runs ↔ (SessionStore.findRun db runId).isSome = true
  checkpoints : List.Forall₂ (RowOf coerce crypto master) tables.checkpoints db.checkpoints
  sources : tables.sources = db.checkpointSources

variable {coerce crypto master} {tables : CheckpointTables} {db : Database}

theorem loadCheckpoint_represents (hrepresents : Represents coerce crypto master tables db)
    (runId : String) : loadCheckpoint crypto master coerce runId tables =
      .ok ((SessionStore.loadCheckpoint runId db).map SessionStore.sortedCheckpoint) := by
  have hrows := hrepresents.checkpoints
  unfold loadCheckpoint SessionStore.loadCheckpoint
  generalize tables.checkpoints = storedRows at hrows ⊢
  generalize db.checkpoints = rows at hrows ⊢
  induction hrows with
  | nil => rfl
  | @cons stored row storedRest rest hrow _ ih =>
      by_cases hid : row.runId = runId
      · have hstored : stored.runId = runId := hrow.runId.trans hid
        have hread := hrow.payload
        rw [hstored] at hread
        rw [List.find?_cons_of_pos (by simpa using hstored),
          List.find?_cons_of_pos (by simpa using hid)]
        dsimp only
        generalize decryptJson crypto master stored.payloadCiphertext (checkpointAad runId) =
          decrypted at hread ⊢
        cases decrypted with
        | error e => cases hread
        | ok payload =>
            change SessionStore.checkpointFromDict coerce payload = _ at hread
            change (SessionStore.checkpointFromDict coerce payload >>= fun checkpoint =>
              Except.ok (some checkpoint)) = _
            rw [hread]
            rfl
      · have hstored : ¬ stored.runId = runId := fun hsame => hid (hrow.runId.symm.trans hsame)
        rw [List.find?_cons_of_neg (by simpa using hstored),
          List.find?_cons_of_neg (by simpa using hid)]
        exact ih

theorem saveCheckpoint_represents (hcrypto : crypto.Inverts)
    (hrepresents : Represents coerce crypto master tables db) {random : EnvelopeRandom}
    {checkpoint : RunCheckpoint} (hstorable : checkpoint.Storable) {nowMs : Int}
    {after : CheckpointTables}
    (hok : saveCheckpoint crypto master random checkpoint nowMs tables = .ok after) :
    ∃ saved, SessionStore.saveCheckpoint checkpoint nowMs db = .ok ((), saved) ∧
      Represents coerce crypto master after saved := by
  have hread := load_payload coerce master hcrypto hstorable random
    (checkpointAad checkpoint.runId)
  have hany : (tables.checkpoints.any fun row => row.runId = checkpoint.runId) =
      db.checkpoints.any fun row => row.runId = checkpoint.runId := by
    have hrows := hrepresents.checkpoints
    generalize tables.checkpoints = storedRows at hrows ⊢
    generalize db.checkpoints = rows at hrows ⊢
    induction hrows with
    | nil => rfl
    | cons hrow _ ih => rw [List.any_cons, List.any_cons, ih, hrow.runId]
  unfold saveCheckpoint at hok
  unfold SessionStore.saveCheckpoint
  dsimp only at hok ⊢
  generalize encryptJson crypto master random (SessionStore.checkpointDict checkpoint)
    (checkpointAad checkpoint.runId) = encrypted at hok hread
  split at hok
  · cases hok
  · rename_i hrun
    have hexists : checkpoint.runId ∈ tables.runs := by simpa using hrun
    have hfound := (hrepresents.runs _).mp hexists
    have hpresent : ¬ (SessionStore.findRun db checkpoint.runId).isNone = true := by
      rw [Option.isNone_iff_eq_none]
      intro hnone
      rw [hnone] at hfound
      cases hfound
    cases hok
    rw [if_neg hpresent]
    refine ⟨_, rfl, hrepresents.runs, ?_, ?_⟩
    · dsimp only
      rw [hany]
      split
      · unfold Table.update
        rw [List.forall₂_map_left_iff, List.forall₂_map_right_iff]
        refine hrepresents.checkpoints.imp fun stored row hrow => ?_
        by_cases hid : row.runId = checkpoint.runId
        · have hstored : stored.runId = checkpoint.runId := hrow.runId.trans hid
          rw [if_pos (by simpa using hstored), if_pos (by simpa using hid)]
          refine ⟨hrow.runId, hrow.createdAtMs, rfl, ?_⟩
          change (decryptJson crypto master encrypted (checkpointAad stored.runId) >>= _) = _
          rw [hstored]
          exact hread
        · have hstored : ¬ stored.runId = checkpoint.runId := fun hsame =>
            hid (hrow.runId.symm.trans hsame)
          rw [if_neg (by simpa using hstored), if_neg (by simpa using hid)]
          exact hrow
      · refine List.rel_append hrepresents.checkpoints (.cons ⟨rfl, rfl, rfl, ?_⟩ .nil)
        exact hread
    · dsimp only
      rw [hrepresents.sources]

end Refinement

/-- A checkpoint can be saved for a run that exists. A load of the run then returns an equal
checkpoint, and the index of the run holds its sources; the other runs keep theirs. -/
theorem load_after_save (crypto : CryptoPrimitives) (hcrypto : crypto.Inverts) (master : MasterKey)
    (coerce : Coercions) (random : EnvelopeRandom) (checkpoint : RunCheckpoint)
    (hstorable : checkpoint.Storable) (nowMs : Int) (tables : CheckpointTables) :
    ((∃ after, saveCheckpoint crypto master random checkpoint nowMs tables = .ok after) ↔
      checkpoint.runId ∈ tables.runs) ∧
    ∀ after, saveCheckpoint crypto master random checkpoint nowMs tables = .ok after →
      (∃ loaded, loadCheckpoint crypto master coerce checkpoint.runId after = .ok (some loaded) ∧
        loaded.Same checkpoint) ∧
      (indexedSources after checkpoint.runId).Perm checkpoint.sourceVersions ∧
      ∀ runId, runId ≠ checkpoint.runId → indexedSources after runId = indexedSources tables runId := by
  refine ⟨?_, fun after hok => ⟨?_, indexedSources_save hok, fun runId hother =>
    indexedSources_save_other hok hother⟩⟩
  · unfold saveCheckpoint
    by_cases hrun : checkpoint.runId ∈ tables.runs
    · simp [hrun]
    · simp [hrun]
  · exact ⟨_, loadCheckpoint_save coerce hcrypto hstorable hok, hstorable.sorted_same⟩

section Examples

private def storeKey : MasterKey where
  keyId := "k1"
  key := List.replicate 32 7

/-- The second save of a run, in the middle of a call. -/
private def midway : RunCheckpoint where
  runId := "run_1"
  agentId := "main"
  agentVersion := 1
  resourceVersions := [("docs", "2"), ("base", "1")]
  nextTurn := 3
  messages :=
    [{ role := .assistant, content := "\u8bfb \"x\"\n"
       toolCalls := [⟨"c1", "feishu.docs.search",
         [("title", .str "x"), ("limits", .arr [.float "0.5", .int (-7), .null])]⟩] }]
  verifiedEffects := [{ state := .verified, verifierId := "v", summary := "ok" }]
  blockers := []
  sourceVersions := [("im:2", "1"), ("im:1", "4")]
  consumedBudget := [("turns", 3)]
  compactorVersion := 1

private def firstSave : CheckpointTables where
  runs := ["run_1"]
  checkpoints :=
    [{ runId := "run_1", payloadCiphertext := ⟨1, "AES-256-GCM", "k1", [], [], [], []⟩, nextTurn := 1
       agentId := "main", agentVersion := 1, compactorVersion := 1, createdAtMs := 1
       updatedAtMs := 1 }]
  sources := [⟨"run_1", "im:9", "1"⟩]

/-- The older checkpoint of the run is overwritten and the newer one is read back. -/
theorem overwritten_checkpoint_loads : ∃ after,
    saveCheckpoint .labelled storeKey ⟨[1], [2], [3]⟩ midway 5 firstSave = .ok after ∧
      (∃ loaded, loadCheckpoint .labelled storeKey ⟨fun _ => "", fun _ => .ok 0⟩ "run_1" after =
        .ok (some loaded) ∧ loaded.Same midway) ∧
      (indexedSources after "run_1").Perm [("im:2", "1"), ("im:1", "4")] := by
  have hstorable : midway.Storable :=
    ⟨by decide, by decide, by decide, by decide +kernel⟩
  obtain ⟨hsaves, hloads⟩ := load_after_save .labelled CryptoPrimitives.labelled_inverts storeKey
    ⟨fun _ => "", fun _ => .ok 0⟩ ⟨[1], [2], [3]⟩ midway hstorable 5 firstSave
  obtain ⟨after, hok⟩ := hsaves.mpr (by decide)
  obtain ⟨hload, hsources, _⟩ := hloads after hok
  exact ⟨after, hok, hload, hsources⟩

end Examples

end SQLiteSessionStore

end Codex2Lark
