import Codex2Lark.Core.JsonText
import Codex2Lark.Im.TaskHandler
import Codex2Lark.Runtime.Sessions

/-!
`_checkpoint_dict` and `_checkpoint_from_dict` of `storage/session_store.py`: the payload of a
checkpoint as a JSON object and the checkpoint that is read from it.
-/

namespace Codex2Lark

open Lib Json

/-- `str` of a value that is no text, and `int` of one that is no integer. -/
structure Coercions where
  str : Json → String
  int : Json → Except PyError Int

namespace Coercions

variable (coerce : Coercions)

def text : Json → String
  | .str value => value
  | value => coerce.str value

def number : Json → Except PyError Int
  | .int value => .ok value
  | value => coerce.int value

end Coercions

/-- `MessageRole(value)`. -/
def MessageRole.ofValue (value : Json) : Except PyError MessageRole :=
  match [MessageRole.system, .user, .assistant, .tool].find? fun role =>
    value = .str role.value with
  | some role => .ok role
  | none => .error (.valueError "value is not a valid MessageRole")

/-- `VerificationState(value)`. -/
def VerificationState.ofValue (value : Json) : Except PyError VerificationState :=
  match [VerificationState.notRequired, .verified, .uncertain, .failed].find? fun state =>
    value = .str state.value with
  | some state => .ok state
  | none => .error (.valueError "value is not a valid VerificationState")

namespace SessionStore

/-! ### `_checkpoint_dict` -/

def texts (items : List String) : Json := .arr (items.map Json.str)

def callDict (call : ToolCall) : List (String × Json) :=
  [("call_id", .str call.callId), ("tool_id", .str call.toolId), ("arguments", .obj call.arguments)]

def messageDict (message : ModelMessage) : List (String × Json) :=
  [("role", .str message.role.value), ("content", .str message.content),
    ("name", optStr message.name), ("tool_call_id", optStr message.toolCallId),
    ("trusted", .bool message.trusted),
    ("tool_calls", .arr (message.toolCalls.map fun call => .obj (callDict call)))]

def recordDict (record : VerificationRecord) : List (String × Json) :=
  [("state", .str record.state.value), ("verifier_id", .str record.verifierId),
    ("summary", .str record.summary), ("resource_refs", texts record.resourceRefs)]

def checkpointDict (checkpoint : RunCheckpoint) : List (String × Json) :=
  [("run_id", .str checkpoint.runId), ("agent_id", .str checkpoint.agentId),
    ("agent_version", .int checkpoint.agentVersion),
    ("resource_versions",
      .obj (checkpoint.resourceVersions.map fun entry => (entry.1, .str entry.2))),
    ("next_turn", .int checkpoint.nextTurn),
    ("messages", .arr (checkpoint.messages.map fun message => .obj (messageDict message))),
    ("verified_effects", .arr (checkpoint.verifiedEffects.map fun record => .obj (recordDict record))),
    ("blockers", texts checkpoint.blockers),
    ("source_versions", .obj (checkpoint.sourceVersions.map fun entry => (entry.1, .str entry.2))),
    ("consumed_budget", .obj (checkpoint.consumedBudget.map fun entry => (entry.1, .int entry.2))),
    ("compactor_version", .int checkpoint.compactorVersion),
    ("applied_control_ids", texts checkpoint.appliedControlIds),
    ("unresolved_external_effects", texts checkpoint.unresolvedExternalEffects),
    ("policy_version", .int checkpoint.policyVersion),
    ("tool_schema_fingerprint", .str checkpoint.toolSchemaFingerprint)]

/-! ### `_checkpoint_from_dict` -/

section FromDict

variable (coerce : Coercions)

/-- What is subscripted with a key. -/
def subscripted : Json → Except PyError (List (String × Json))
  | .obj fields => .ok fields
  | _ => .error (.typeError "object is not subscriptable")

/-- `value.items()`. -/
def itemsOf : Json → Except PyError (List (String × Json))
  | .obj fields => .ok fields
  | _ => .error (.other "AttributeError" "object has no attribute 'items'")

/-- `item.get(key)` where a text or nothing is stored. -/
def getText (fields : List (String × Json)) (key : String) : Option String :=
  match field? fields key with
  | some (.str value) => some value
  | _ => none

/-- `value.get(key, [])`. -/
def getItems (fields : List (String × Json)) (key : String) : Except PyError (List Json) :=
  match field? fields key with
  | some value => value.iterate
  | none => .ok []

def getTexts (fields : List (String × Json)) (key : String) : Except PyError (List String) := do
  let items ← getItem fields key
  let items ← items.iterate
  .ok (items.map coerce.text)

def textEntries (fields : List (String × Json)) (key : String) :
    Except PyError (Dict String String) := do
  let value ← getItem fields key
  let entries ← itemsOf value
  .ok (Dict.ofEntries (entries.map fun entry => (entry.1, coerce.text entry.2)))

def numberEntries (fields : List (String × Json)) (key : String) :
    Except PyError (Dict String Int) := do
  let value ← getItem fields key
  let entries ← itemsOf value
  let entries ← entries.mapM fun entry => (coerce.number entry.2).map fun n => (entry.1, n)
  .ok (Dict.ofEntries entries)

def callFrom (value : Json) : Except PyError ToolCall := do
  let fields ← subscripted value
  let callId ← getItem fields "call_id"
  let toolId ← getItem fields "tool_id"
  let arguments ← getItem fields "arguments"
  let arguments ← subscripted arguments
  .ok { callId := coerce.text callId, toolId := coerce.text toolId, arguments }

def messageFrom (value : Json) : Except PyError ModelMessage := do
  let fields ← subscripted value
  let role ← getItem fields "role"
  let role ← MessageRole.ofValue role
  let content ← getItem fields "content"
  let toolCalls ← getItems fields "tool_calls"
  let toolCalls ← toolCalls.mapM (callFrom coerce)
  .ok { role, content := coerce.text content, name := getText fields "name"
        toolCallId := getText fields "tool_call_id"
        trusted := IMMentionTaskHandler.isTruthy (field? fields "trusted"), toolCalls }

def recordFrom (value : Json) : Except PyError VerificationRecord := do
  let fields ← subscripted value
  let state ← getItem fields "state"
  let state ← VerificationState.ofValue state
  let verifierId ← getItem fields "verifier_id"
  let summary ← getItem fields "summary"
  let resourceRefs ← getTexts coerce fields "resource_refs"
  .ok { state, verifierId := coerce.text verifierId, summary := coerce.text summary, resourceRefs }

/-- The versions and the turn are natural numbers wherever they are stored. -/
def checkpointFromDict (value : List (String × Json)) : Except PyError RunCheckpoint := do
  let runId ← getItem value "run_id"
  let agentId ← getItem value "agent_id"
  let agentVersion ← coerce.number (← getItem value "agent_version")
  let resourceVersions ← textEntries coerce value "resource_versions"
  let nextTurn ← coerce.number (← getItem value "next_turn")
  let messages ← (← (← getItem value "messages").iterate).mapM (messageFrom coerce)
  let verifiedEffects ← (← (← getItem value "verified_effects").iterate).mapM (recordFrom coerce)
  let blockers ← getTexts coerce value "blockers"
  let sourceVersions ← textEntries coerce value "source_versions"
  let consumedBudget ← numberEntries coerce value "consumed_budget"
  let compactorVersion ← coerce.number (← getItem value "compactor_version")
  let appliedControlIds ← getItems value "applied_control_ids"
  let unresolved ← getItems value "unresolved_external_effects"
  let policyVersion ← coerce.number ((field? value "policy_version").getD (.int 0))
  .ok {
    runId := coerce.text runId
    agentId := coerce.text agentId
    agentVersion := agentVersion.toNat
    resourceVersions
    nextTurn := nextTurn.toNat
    messages
    verifiedEffects
    blockers
    sourceVersions
    consumedBudget
    compactorVersion := compactorVersion.toNat
    appliedControlIds := appliedControlIds.map coerce.text
    unresolvedExternalEffects := unresolved.map coerce.text
    policyVersion := policyVersion.toNat
    toolSchemaFingerprint :=
      coerce.text ((field? value "tool_schema_fingerprint").getD (.str "")) }

end FromDict

/-! ### Reading a payload back -/

/-- Entries in the order of their keys. -/
def inKeyOrder {α : Type} (entries : Dict String α) : Dict String α :=
  List.insertionSort (fun a b => a.1 ≤ b.1) entries

theorem inKeyOrder_perm {α : Type} (entries : Dict String α) : (inKeyOrder entries).Perm entries :=
  List.perm_insertionSort _ _

theorem sortedObject_entries {α : Type} (shown : α → Json) (entries : Dict String α) :
    sortedObject (entries.map fun entry => (entry.1, shown entry.2)) =
      (inKeyOrder entries).map fun entry => (entry.1, sorted (shown entry.2)) := by
  unfold sortedObject inOrder inKeyOrder
  rw [insertionSort_values, List.map_map]
  rfl

theorem getItem_sortedObject {fields : List (String × Json)} {key : String} {value : Json}
    (hkeys : (fields.map Prod.fst).Nodup) (hfield : field? fields key = some value) :
    getItem (sortedObject fields) key = .ok (sorted value) := by
  unfold getItem
  rw [field?_sortedObject hkeys, hfield]
  rfl

theorem mapM_ok {α β : Type} {read : α → Except PyError β} {found : α → β} {items : List α}
    (hread : ∀ item ∈ items, read item = .ok (found item)) :
    items.mapM read = .ok (items.map found) := by
  induction items with
  | nil => rfl
  | cons item rest ih =>
      rw [List.mapM_cons, hread item (by simp),
        ih fun other hmem => hread other (List.mem_cons_of_mem _ hmem)]
      rfl

variable (coerce : Coercions)

theorem getTexts_sorted {fields : List (String × Json)} (key : String) (items : List String)
    (hkeys : (fields.map Prod.fst).Nodup) (hfield : field? fields key = some (texts items)) :
    getTexts coerce (sortedObject fields) key = .ok items := by
  have hsorted : sorted (texts items) = texts items := by
    rw [texts, sorted, sortedItems_eq, List.map_map]
    rfl
  unfold getTexts
  rw [getItem_sortedObject hkeys hfield, hsorted]
  change Except.ok ((items.map Json.str).map coerce.text) = _
  rw [List.map_map]
  congr 1
  exact List.map_id' items

theorem getItems_sorted {fields : List (String × Json)} (key : String) (items : List Json)
    (hkeys : (fields.map Prod.fst).Nodup) (hfield : field? fields key = some (.arr items)) :
    getItems (sortedObject fields) key = .ok (items.map sorted) := by
  unfold getItems
  rw [field?_sortedObject hkeys, hfield, Option.map_some, sorted, sortedItems_eq]
  rfl

theorem getText_sorted {fields : List (String × Json)} (key : String) (value : Option String)
    (hkeys : (fields.map Prod.fst).Nodup) (hfield : field? fields key = some (optStr value)) :
    getText (sortedObject fields) key = value := by
  unfold getText
  rw [field?_sortedObject hkeys, hfield]
  cases value with
  | none => rfl
  | some value => rfl

theorem textEntries_sorted {fields : List (String × Json)} (key : String)
    {entries : Dict String String} (hkeys : (fields.map Prod.fst).Nodup)
    (hentries : (entries.map Prod.fst).Nodup)
    (hfield : field? fields key =
      some (.obj (entries.map fun entry => (entry.1, .str entry.2)))) :
    textEntries coerce (sortedObject fields) key = .ok (inKeyOrder entries) := by
  have hobject : sorted (.obj (entries.map fun entry => (entry.1, .str entry.2))) =
      .obj ((inKeyOrder entries).map fun entry => (entry.1, .str entry.2)) := by
    rw [sorted_obj]
    exact congrArg Json.obj (sortedObject_entries Json.str entries)
  unfold textEntries
  rw [getItem_sortedObject hkeys hfield, hobject]
  change Except.ok (Dict.ofEntries (((inKeyOrder entries).map fun entry =>
    (entry.1, Json.str entry.2)).map fun entry => (entry.1, coerce.text entry.2))) = _
  have hvalues : ((inKeyOrder entries).map fun entry => (entry.1, Json.str entry.2)).map
      (fun entry => (entry.1, coerce.text entry.2)) = inKeyOrder entries := by
    rw [List.map_map]
    exact List.map_id' _
  rw [hvalues, Dict.ofEntries_of_nodup]
  exact ((inKeyOrder_perm entries).map Prod.fst).nodup_iff.mpr hentries

theorem numberEntries_sorted {fields : List (String × Json)} (key : String)
    {entries : Dict String Int} (hkeys : (fields.map Prod.fst).Nodup)
    (hentries : (entries.map Prod.fst).Nodup)
    (hfield : field? fields key =
      some (.obj (entries.map fun entry => (entry.1, .int entry.2)))) :
    numberEntries coerce (sortedObject fields) key = .ok (inKeyOrder entries) := by
  have hobject : sorted (.obj (entries.map fun entry => (entry.1, .int entry.2))) =
      .obj ((inKeyOrder entries).map fun entry => (entry.1, .int entry.2)) := by
    rw [sorted_obj]
    exact congrArg Json.obj (sortedObject_entries Json.int entries)
  have hvalues : ((inKeyOrder entries).map fun entry => (entry.1, Json.int entry.2)).mapM
      (fun entry => (coerce.number entry.2).map fun n => (entry.1, n)) =
        .ok (inKeyOrder entries) := by
    rw [List.mapM_map]
    exact (mapM_ok fun entry _ => rfl).trans (congrArg _ (List.map_id' _))
  unfold numberEntries
  rw [getItem_sortedObject hkeys hfield, hobject]
  change ((((inKeyOrder entries).map fun entry => (entry.1, Json.int entry.2)).mapM fun entry =>
    (coerce.number entry.2).map fun n => (entry.1, n)) >>= fun entries =>
      Except.ok (Dict.ofEntries entries)) = _
  rw [hvalues]
  change Except.ok (Dict.ofEntries (inKeyOrder entries)) = _
  rw [Dict.ofEntries_of_nodup]
  exact ((inKeyOrder_perm entries).map Prod.fst).nodup_iff.mpr hentries

/-- The call with its arguments in order. -/
def sortedCall (call : ToolCall) : ToolCall :=
  { call with arguments := sortedObject call.arguments }

def sortedMessage (message : ModelMessage) : ModelMessage :=
  { message with toolCalls := message.toolCalls.map sortedCall }

theorem callFrom_sorted (call : ToolCall) :
    callFrom coerce (sorted (.obj (callDict call))) = .ok (sortedCall call) := by
  have hkeys : ((callDict call).map Prod.fst).Nodup := by simp [callDict]
  have hfield : ∀ key value, field? (callDict call) key = some value →
      getItem (sortedObject (callDict call)) key = .ok (sorted value) := fun _ _ =>
    getItem_sortedObject hkeys
  have hcallId := hfield "call_id" (.str call.callId) rfl
  have htoolId := hfield "tool_id" (.str call.toolId) rfl
  have harguments := hfield "arguments" (.obj call.arguments) rfl
  rw [sorted_obj] at harguments ⊢
  change callFrom coerce (.obj (sortedObject (callDict call))) = _
  simp only [callFrom, subscripted, hcallId, htoolId, harguments, bind, Except.bind]
  rfl

theorem roleOf_value (role : MessageRole) : MessageRole.ofValue (.str role.value) = .ok role := by
  cases role <;> rfl

theorem stateOf_value (state : VerificationState) :
    VerificationState.ofValue (.str state.value) = .ok state := by
  cases state <;> rfl

theorem messageFrom_sorted (message : ModelMessage) :
    messageFrom coerce (sorted (.obj (messageDict message))) = .ok (sortedMessage message) := by
  have hkeys : ((messageDict message).map Prod.fst).Nodup := by simp [messageDict]
  have hfield : ∀ key value, field? (messageDict message) key = some value →
      getItem (sortedObject (messageDict message)) key = .ok (sorted value) := fun _ _ =>
    getItem_sortedObject hkeys
  have hrole := hfield "role" (.str message.role.value) rfl
  have hcontent := hfield "content" (.str message.content) rfl
  have hname := getText_sorted "name" message.name hkeys rfl
  have htoolCallId := getText_sorted "tool_call_id" message.toolCallId hkeys rfl
  have htrusted : field? (sortedObject (messageDict message)) "trusted" =
      some (.bool message.trusted) := by
    rw [field?_sortedObject hkeys]
    rfl
  have hcalls := getItems_sorted "tool_calls"
    (message.toolCalls.map fun call => .obj (callDict call)) hkeys rfl
  have hmapM : ((message.toolCalls.map fun call => Json.obj (callDict call)).map sorted).mapM
      (callFrom coerce) = .ok (message.toolCalls.map sortedCall) := by
    rw [List.mapM_map, List.mapM_map]
    exact mapM_ok fun call _ => callFrom_sorted coerce call
  have htrue : IMMentionTaskHandler.isTruthy (some (.bool message.trusted)) = message.trusted := by
    cases message.trusted <;> rfl
  rw [sorted_obj]
  change messageFrom coerce (.obj (sortedObject (messageDict message))) = _
  simp only [messageFrom, subscripted, hrole, hcontent, hname, htoolCallId, htrusted, htrue, hcalls,
    hmapM, sorted, roleOf_value, bind, Except.bind]
  rfl

theorem recordFrom_sorted (record : VerificationRecord) :
    recordFrom coerce (sorted (.obj (recordDict record))) = .ok record := by
  have hkeys : ((recordDict record).map Prod.fst).Nodup := by simp [recordDict]
  have hfield : ∀ key value, field? (recordDict record) key = some value →
      getItem (sortedObject (recordDict record)) key = .ok (sorted value) := fun _ _ =>
    getItem_sortedObject hkeys
  have hstate := hfield "state" (.str record.state.value) rfl
  have hverifier := hfield "verifier_id" (.str record.verifierId) rfl
  have hsummary := hfield "summary" (.str record.summary) rfl
  have hrefs := getTexts_sorted coerce "resource_refs" record.resourceRefs hkeys rfl
  rw [sorted_obj]
  change recordFrom coerce (.obj (sortedObject (recordDict record))) = _
  simp only [recordFrom, subscripted, hstate, hverifier, hsummary, hrefs, sorted, stateOf_value,
    bind, Except.bind]
  rfl

/-- The checkpoint with the keys of its dictionaries and arguments in order. -/
def sortedCheckpoint (checkpoint : RunCheckpoint) : RunCheckpoint :=
  { checkpoint with
    resourceVersions := inKeyOrder checkpoint.resourceVersions
    messages := checkpoint.messages.map sortedMessage
    sourceVersions := inKeyOrder checkpoint.sourceVersions
    consumedBudget := inKeyOrder checkpoint.consumedBudget }

end SessionStore

/-- Every dictionary has its keys once, and what the tool calls were given can be written as JSON. -/
structure RunCheckpoint.Storable (checkpoint : RunCheckpoint) : Prop where
  resourceVersions : (checkpoint.resourceVersions.map Prod.fst).Nodup
  sourceVersions : (checkpoint.sourceVersions.map Prod.fst).Nodup
  consumedBudget : (checkpoint.consumedBudget.map Prod.fst).Nodup
  arguments : ∀ message ∈ checkpoint.messages, ∀ call ∈ message.toolCalls,
    Json.isPrinted (.obj call.arguments) = true

namespace SessionStore

variable (coerce : Coercions)

theorem checkpointDict_keys (checkpoint : RunCheckpoint) :
    ((checkpointDict checkpoint).map Prod.fst).Nodup := by
  simp [checkpointDict]

/-- Field by field, the decoder finds what the encoder wrote. -/
theorem checkpointFromDict_sorted {checkpoint : RunCheckpoint} (hstorable : checkpoint.Storable) :
    checkpointFromDict coerce (sortedObject (checkpointDict checkpoint)) =
      .ok (sortedCheckpoint checkpoint) := by
  have hkeys := checkpointDict_keys checkpoint
  have hfield : ∀ key value, field? (checkpointDict checkpoint) key = some value →
      getItem (sortedObject (checkpointDict checkpoint)) key = .ok (sorted value) := fun _ _ =>
    getItem_sortedObject hkeys
  have hrunId := hfield "run_id" (.str checkpoint.runId) rfl
  have hagentId := hfield "agent_id" (.str checkpoint.agentId) rfl
  have hagentVersion := hfield "agent_version" (.int checkpoint.agentVersion) rfl
  have hresources := textEntries_sorted coerce "resource_versions" hkeys
    hstorable.resourceVersions rfl
  have hnextTurn := hfield "next_turn" (.int checkpoint.nextTurn) rfl
  have hmessages := hfield "messages"
    (.arr (checkpoint.messages.map fun message => .obj (messageDict message))) rfl
  have heffects := hfield "verified_effects"
    (.arr (checkpoint.verifiedEffects.map fun record => .obj (recordDict record))) rfl
  have hblockers := getTexts_sorted coerce "blockers" checkpoint.blockers hkeys rfl
  have hsources := textEntries_sorted coerce "source_versions" hkeys
    hstorable.sourceVersions rfl
  have hbudget := numberEntries_sorted coerce "consumed_budget" hkeys
    hstorable.consumedBudget rfl
  have hcompactor := hfield "compactor_version" (.int checkpoint.compactorVersion) rfl
  have hcontrols := getItems_sorted "applied_control_ids"
    (checkpoint.appliedControlIds.map Json.str) hkeys rfl
  have hunresolved := getItems_sorted "unresolved_external_effects"
    (checkpoint.unresolvedExternalEffects.map Json.str) hkeys rfl
  have hpolicy : field? (sortedObject (checkpointDict checkpoint)) "policy_version" =
      some (.int checkpoint.policyVersion) := by
    rw [field?_sortedObject hkeys]
    rfl
  have hfingerprint : field? (sortedObject (checkpointDict checkpoint)) "tool_schema_fingerprint" =
      some (.str checkpoint.toolSchemaFingerprint) := by
    rw [field?_sortedObject hkeys]
    rfl
  rw [sorted, sortedItems_eq] at hmessages heffects
  have hmessagesM : ((checkpoint.messages.map fun message => Json.obj (messageDict message)).map
      sorted).mapM (messageFrom coerce) = .ok (checkpoint.messages.map sortedMessage) := by
    rw [List.mapM_map, List.mapM_map]
    exact mapM_ok fun message _ => messageFrom_sorted coerce message
  have heffectsM : ((checkpoint.verifiedEffects.map fun record => Json.obj (recordDict record)).map
      sorted).mapM (recordFrom coerce) = .ok checkpoint.verifiedEffects := by
    rw [List.mapM_map, List.mapM_map]
    exact (mapM_ok fun record _ => recordFrom_sorted coerce record).trans
      (congrArg _ (List.map_id' _))
  have htexts : ∀ items : List String,
      ((items.map Json.str).map sorted).map coerce.text = items := by
    intro items
    rw [List.map_map, List.map_map]
    exact List.map_id' items
  simp only [checkpointFromDict, hrunId, hagentId, hagentVersion, hresources, hnextTurn, hmessages,
    hmessagesM, heffects, heffectsM, hblockers, hsources, hbudget, hcompactor, hcontrols,
    hunresolved, hpolicy, hfingerprint, htexts, iterate, sorted, Coercions.number, Coercions.text,
    Option.getD_some, Int.toNat_natCast, bind, Except.bind]
  rfl

/-- The payload can be written as JSON. -/
theorem checkpointDict_printed {checkpoint : RunCheckpoint} (hstorable : checkpoint.Storable) :
    isPrinted (.obj (checkpointDict checkpoint)) = true := by
  have htexts : ∀ items, isPrinted (texts items) = true := by
    intro items
    rw [texts, isPrinted, isPrintedItems_iff]
    intro item hitem
    obtain ⟨value, -, rfl⟩ := List.mem_map.mp hitem
    rfl
  have hoptional : ∀ value, isPrinted (optStr value) = true := by
    intro value
    cases value <;> rfl
  have hentries : ∀ {α : Type} (shown : α → Json) (entries : Dict String α),
      (entries.map Prod.fst).Nodup → (∀ value, isPrinted (shown value) = true) →
        isPrinted (.obj (entries.map fun entry => (entry.1, shown entry.2))) = true := by
    intro α shown entries hkeys hshown
    rw [isPrinted_obj, List.map_map]
    refine ⟨hkeys, fun field hfield => ?_⟩
    obtain ⟨entry, -, rfl⟩ := List.mem_map.mp hfield
    exact hshown entry.2
  have hcall : ∀ call : ToolCall, isPrinted (.obj call.arguments) = true →
      isPrinted (.obj (callDict call)) = true := by
    intro call harguments
    refine isPrinted_obj.mpr ⟨by simp [callDict], ?_⟩
    intro field hfield
    simp only [callDict, List.mem_cons, List.not_mem_nil, or_false] at hfield
    rcases hfield with rfl | rfl | rfl
    · rfl
    · rfl
    · exact harguments
  have hmessage : ∀ message ∈ checkpoint.messages, isPrinted (.obj (messageDict message)) = true := by
    intro message hmem
    refine isPrinted_obj.mpr ⟨by simp [messageDict], ?_⟩
    intro field hfield
    simp only [messageDict, List.mem_cons, List.not_mem_nil, or_false] at hfield
    rcases hfield with rfl | rfl | rfl | rfl | rfl | rfl
    · rfl
    · rfl
    · exact hoptional _
    · exact hoptional _
    · rfl
    · dsimp only
      rw [isPrinted, isPrintedItems_iff]
      intro item hitem
      obtain ⟨call, hcallMem, rfl⟩ := List.mem_map.mp hitem
      exact hcall call (hstorable.arguments message hmem call hcallMem)
  have hrecord : ∀ record : VerificationRecord, isPrinted (.obj (recordDict record)) = true := by
    intro record
    refine isPrinted_obj.mpr ⟨by simp [recordDict], ?_⟩
    intro field hfield
    simp only [recordDict, List.mem_cons, List.not_mem_nil, or_false] at hfield
    rcases hfield with rfl | rfl | rfl | rfl
    · rfl
    · rfl
    · rfl
    · exact htexts _
  refine isPrinted_obj.mpr ⟨checkpointDict_keys checkpoint, ?_⟩
  intro field hfield
  simp only [checkpointDict, List.mem_cons, List.not_mem_nil, or_false] at hfield
  rcases hfield with rfl | rfl | rfl | rfl | rfl | rfl | rfl | rfl | rfl | rfl | rfl | rfl | rfl |
    rfl | rfl
  case inr.inr.inr.inl => exact hentries Json.str _ hstorable.resourceVersions fun _ => rfl
  case inr.inr.inr.inr.inr.inl =>
    dsimp only
    rw [isPrinted, isPrintedItems_iff]
    intro item hitem
    obtain ⟨message, hmem, rfl⟩ := List.mem_map.mp hitem
    exact hmessage message hmem
  case inr.inr.inr.inr.inr.inr.inl =>
    dsimp only
    rw [isPrinted, isPrintedItems_iff]
    intro item hitem
    obtain ⟨record, -, rfl⟩ := List.mem_map.mp hitem
    exact hrecord record
  case inr.inr.inr.inr.inr.inr.inr.inr.inl =>
    exact hentries Json.str _ hstorable.sourceVersions fun _ => rfl
  case inr.inr.inr.inr.inr.inr.inr.inr.inr.inl =>
    exact hentries Json.int _ hstorable.consumedBudget fun _ => rfl
  all_goals first | rfl | exact htexts _

end SessionStore

end Codex2Lark
