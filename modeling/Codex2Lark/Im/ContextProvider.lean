import Codex2Lark.Im.Attachments
import Codex2Lark.Im.TaskHandler

/-!
`IMContextProvider.collect` of `capabilities/im/context_provider.py`, one await at a time: the
live source answers as it likes, and other transactions of the mirror come between any two of its
own.
-/

namespace Codex2Lark

open Lib IMRepository

/-- The four fields are what `__post_init__` checks. -/
structure IMContextRequest where
  tenantKey : String
  appId : String
  chatId : String
  messageId : String
  bound : ∀ value ∈ [tenantKey, appId, chatId, messageId], value ≠ "" := by decide

def IMContextRequest.chatKey (request : IMContextRequest) : ChatKey :=
  ⟨request.tenantKey, request.appId, request.chatId⟩

structure MessagePage where
  messages : List MirroredMessage
  complete : Bool

structure IMContextBundle where
  trigger : MirroredMessage
  evidence : List ContextEvidence
  warnings : List String

/-- What `AttachmentService.load` finds out about the attachment that it names. -/
structure LoadedContent where
  blobId : String
  contentKind : String
  content : String
  sourceVersion : String
  warningCode : Option String
deriving DecidableEq, Repr

def AttachmentLoadRequest.evidence (request : AttachmentLoadRequest) (loaded : LoadedContent) :
    AttachmentEvidence :=
  { blobId := loaded.blobId, contentKind := loaded.contentKind
    evidence := { sourceRef := attachmentRef request.messageId request.resourceKey
                  content := loaded.content, sourceVersion := loaded.sourceVersion }
    warningCode := loaded.warningCode }

/-- The answer of `related_messages` or `recent_messages`. -/
inductive PageAnswer where
  | page (page : MessagePage)
  /-- `IMHistoryUnavailableError`. -/
  | unavailable
  | raised (e : PyError)

/-- The limits of a provider, which `__init__` wants positive; `attachments` says whether a loader
is present, and `normalized` is `unicodedata.normalize("NFKC", value).casefold()`. -/
structure IMContextProvider where
  recentLimit : Nat := 30
  relatedLimit : Nat := 50
  lookbackMs : Nat := 2 * 60 * 60 * 1000
  attachmentSearchLimit : Nat := 500
  attachmentLookbackMs : Nat := 30 * 24 * 60 * 60 * 1000
  attachments : Bool := false
  normalized : String → String
  positive : 1 ≤ recentLimit ∧ 1 ≤ relatedLimit ∧ 1 ≤ lookbackMs ∧ 1 ≤ attachmentSearchLimit ∧
    1 ≤ attachmentLookbackMs := by decide

namespace IMContextProvider

def validateBinding (request : IMContextRequest) (message : MirroredMessage) : Except PyError Unit :=
  if message.chatKey = request.chatKey then .ok ()
  else .error (.permissionError "live IM source returned a message outside the trusted binding")

/-- `_evidence`. -/
def evidence (message : MirroredMessage) : ContextEvidence :=
  let sender := (message.senderName.filter (· ≠ "")).getD message.senderId
  { sourceRef := messageRef message.messageId
    content := "time_ms=" ++ toString message.occurredAtMs ++ "\nsender=" ++ sender ++
      "\nmessage_type=" ++ message.messageType ++ "\ncontent=" ++ message.bodyText
    sourceVersion := toString message.sourceVersionMs }

/-- The rest of `_FILENAME_PATTERN` after its first character. -/
def filenameTail : List Char → Bool
  | '.' :: c :: rest => c.isAlphanum || filenameTail (c :: rest)
  | c :: rest => (c.isAlphanum || "._@+~-".toList.contains c) && filenameTail rest
  | [] => false

/-- `_FILENAME_PATTERN.search`. -/
def filenamePattern : List Char → Bool
  | c :: rest => (c.isAlphanum && filenameTail rest) || filenamePattern rest
  | [] => false

/-- `part in text`. -/
def occursIn (part text : String) : Bool :=
  text.toList.tails.any fun rest => part.toList.isPrefixOf rest

/-- `_requests_attachment_search`. -/
def requestsAttachmentSearch (provider : IMContextProvider) (value : String) : Bool :=
  let text := provider.normalized value
  filenamePattern text.toList ||
    ["文件", "附件", "attachment", "file"].any fun term => occursIn term text

/-- `trigger.thread_id or trigger.root_id or trigger.parent_id`. -/
def isRelated (trigger : MirroredMessage) : Bool :=
  [trigger.threadId, trigger.rootId, trigger.parentId].any fun id => id.any (· ≠ "")

def attachmentSearch (provider : IMContextProvider) (trigger : MirroredMessage) : Bool :=
  !isRelated trigger && provider.requestsAttachmentSearch trigger.bodyText

def sinceMs (provider : IMContextProvider) (trigger : MirroredMessage) : Int :=
  let lookbackMs :=
    if provider.attachmentSearch trigger then provider.attachmentLookbackMs else provider.lookbackMs
  max 0 (trigger.occurredAtMs - lookbackMs)

def limit (provider : IMContextProvider) (trigger : MirroredMessage) : Nat :=
  if provider.attachmentSearch trigger then provider.attachmentSearchLimit else provider.recentLimit

/-- What one message of the page does to `selected`. -/
def select (trigger : MirroredMessage) (selected : Dict String MirroredMessage)
    (message : MirroredMessage) : Dict String MirroredMessage :=
  if message.messageId = trigger.messageId ∨ message.isGone then selected
  else if (selected.get? message.messageId).all fun previous =>
      message.sourceVersionMs > previous.sourceVersionMs then
    selected.set message.messageId message
  else selected

/-- `sorted(selected.values(), key=…)`. -/
def ordered (selected : Dict String MirroredMessage) : List MirroredMessage :=
  (selected.map Prod.snd).mergeSort fun a b =>
    a.occurredAtMs < b.occurredAtMs ||
      (a.occurredAtMs = b.occurredAtMs && a.messageId ≤ b.messageId)

/-- The items whose normalized file name the request mentions, by that name. -/
def mentioned {α : Type} (provider : IMContextProvider) (request : String)
    (filename : α → Option String) (items : List α) : Dict String (List α) :=
  items.foldl (fun found item =>
    let name := provider.normalized ((filename item).getD "")
    if name ≠ "" ∧ occursIn name request then found.set name (found.getD name [] ++ [item])
    else found) []

/-- `_plan_attachments`: the messages with the resource keys to load, and the warnings. -/
def planAttachments (provider : IMContextProvider) (trigger : MirroredMessage)
    (contextual : List MirroredMessage) : List (MirroredMessage × List String) × List String :=
  let withAll := fun message : MirroredMessage =>
    (message, message.attachments.map AttachmentReference.resourceKey)
  let planned := if trigger.attachments.isEmpty then [] else [withAll trigger]
  if isRelated trigger then
    (planned ++ (contextual.filter fun message => !message.attachments.isEmpty).map withAll, [])
  else
    let candidates := provider.mentioned (provider.normalized trigger.bodyText)
      (fun entry : MirroredMessage × AttachmentReference => entry.2.filename)
      (contextual.flatMap fun message => message.attachments.map fun item => (message, item))
    candidates.foldl (fun (planned, warnings) (_, found) =>
      match found with
      | [(message, attachment)] => (planned ++ [(message, [attachment.resourceKey])], warnings)
      | _ => (planned, warnings ++ ["im_attachment_ambiguous"])) (planned, [])

/-- The loads of a plan, in their order. -/
def loads (planned : List (MirroredMessage × List String)) : List AttachmentLoadRequest :=
  planned.flatMap fun (message, resourceKeys) =>
    (message.attachments.filter fun item => resourceKeys.contains item.resourceKey).map fun item =>
      ⟨message.chatKey, message.messageId, item.resourceKey⟩

end IMContextProvider

open IMContextProvider

/-! ### One collection -/

/-- What a collection awaits, or how it ended. -/
inductive CollectPhase where
  | fetching
  | mirroring (trigger : MirroredMessage)
  | reading (trigger : MirroredMessage)
  | observing (trigger : MirroredMessage)
  | recovering (trigger : MirroredMessage) (candidate : AttachmentRow)
      (groups : List (List AttachmentRow)) (recovered : List MirroredMessage)
  | walking (trigger : MirroredMessage) (complete : Bool) (rest : List MirroredMessage)
      (selected : Dict String MirroredMessage)
  | loading (trigger : MirroredMessage) (planned : List AttachmentLoadRequest)
      (evidence : List ContextEvidence)
  | returned (bundle : IMContextBundle)
  | failed (e : PyError)

/-- `page` and `upserted` are for the record only: the messages of the page, and the row of each
message of it right after its own upsert. -/
structure Collecting where
  db : MirrorDatabase
  request : IMContextRequest
  phase : CollectPhase := .fetching
  warnings : List String := []
  page : List MirroredMessage := []
  upserted : List (MirroredMessage × Option MessageRow) := []

inductive CollectLabel where
  /-- A transaction of some other activity. -/
  | mirror (op : MirrorOp)
  | getMessage (answer : Except PyError MirroredMessage)
  | upsert
  | readPage (answer : PageAnswer)
  | observe
  | load (answer : Except PyError LoadedContent)

namespace Collecting

def warn (s : Collecting) (warnings : List String) : Collecting :=
  { s with warnings := s.warnings ++ warnings }

def enter (s : Collecting) (phase : CollectPhase) : Collecting := { s with phase }

/-- The rest of `collect` once there are the attachments to load. -/
def conclude (s : Collecting) (trigger : MirroredMessage) (planned : List AttachmentLoadRequest)
    (evidence : List ContextEvidence) : Collecting :=
  if planned.isEmpty then
    s.enter (.returned ⟨trigger, evidence, IMMentionTaskHandler.firstOccurrences s.warnings⟩)
  else s.enter (.loading trigger planned evidence)

/-- The loop over the messages of the page; after it the evidence is put together. -/
def walk (provider : IMContextProvider) (s : Collecting) (trigger : MirroredMessage)
    (complete : Bool) (rest : List MirroredMessage) (selected : Dict String MirroredMessage) :
    Collecting :=
  if rest.isEmpty then
    let contextual := ordered selected
    let s := s.warn (if complete then [] else ["im_context_incomplete"])
    if provider.attachments then
      let (planned, warnings) := provider.planAttachments trigger contextual
      (s.warn warnings).conclude trigger (loads planned) (contextual.map evidence)
    else s.conclude trigger [] (contextual.map evidence)
  else s.enter (.walking trigger complete rest selected)

def walkPage (provider : IMContextProvider) (s : Collecting) (trigger : MirroredMessage)
    (page : MessagePage) : Collecting :=
  walk provider { s with page := page.messages } trigger page.complete page.messages []

/-- The loop of `_recover_observed_attachments`. -/
def recover (provider : IMContextProvider) (s : Collecting) (trigger : MirroredMessage) :
    List (List AttachmentRow) → List MirroredMessage → Collecting
  | [], recovered => s.walkPage provider trigger ⟨recovered, false⟩
  | [] :: groups, recovered => recover provider s trigger groups recovered
  | (candidate :: others) :: groups, recovered =>
      if others.all fun other => other.key.message.messageId = candidate.key.message.messageId ∧
          other.key.resourceKey = candidate.key.resourceKey then
        s.enter (.recovering trigger candidate groups recovered)
      else recover provider (s.warn ["im_attachment_ambiguous"]) trigger groups recovered

/-- The transaction of the collection's own upsert. -/
def upsert (s : Collecting) (message : MirroredMessage) (next : Collecting → Collecting) :
    Collecting :=
  match upsertMessage message s.db with
  | .error e => s.enter (.failed e)
  | .ok (false, db) =>
      { s with db, phase := .failed (.permissionError "chat access was revoked") }
  | .ok (true, db) => next { s with db }

def step (provider : IMContextProvider) (s : Collecting) : CollectLabel → Option Collecting
  | .mirror op => some { s with db := op.apply s.db }
  | .getMessage answer =>
      match s.phase with
      | .fetching =>
          match answer with
          | .error e => some (s.enter (.failed e))
          | .ok trigger =>
              match validateBinding s.request trigger with
              | .error e => some (s.enter (.failed e))
              | .ok _ => some (s.enter (.mirroring trigger))
      | .recovering trigger candidate groups recovered =>
          match answer with
          | .error e => some (s.enter (.failed e))
          | .ok live =>
              match validateBinding s.request live with
              | .error e => some (s.enter (.failed e))
              | .ok _ =>
                  let name := fun filename : Option String =>
                    provider.normalized (filename.getD "")
                  if (live.attachments.map fun item => name item.filename).contains
                      (name candidate.filename) then
                    some (s.recover provider trigger groups (recovered ++ [live]))
                  else
                    some ((s.warn ["im_attachment_live_mismatch"]).recover provider trigger groups
                      recovered)
      | _ => none
  | .upsert =>
      match s.phase with
      | .mirroring trigger =>
          some (s.upsert trigger fun s =>
            if trigger.isGone then
              s.enter (.failed (.lookupError "trigger message is no longer available"))
            else s.enter (.reading trigger))
      | .walking trigger complete (message :: rest) selected =>
          match validateBinding s.request message with
          | .error e => some (s.enter (.failed e))
          | .ok _ =>
              some (s.upsert message fun s =>
                walk provider
                  { s with upserted := s.upserted ++ [(message, findMessage s.db message.key)] }
                  trigger complete rest (select trigger selected message))
      | _ => none
  | .readPage answer =>
      match s.phase with
      | .reading trigger =>
          match answer with
          | .page page => some (s.walkPage provider trigger page)
          | .unavailable =>
              some ((s.warn ["im_context_history_unavailable"]).enter (.observing trigger))
          | .raised e => some (s.enter (.failed e))
      | _ => none
  | .observe =>
      match s.phase with
      | .observing trigger =>
          match recentAttachments s.request.chatKey (provider.sinceMs trigger)
              trigger.occurredAtMs (provider.limit trigger) s.db with
          | .error e => some (s.enter (.failed e))
          | .ok observed =>
              let found := provider.mentioned (provider.normalized trigger.bodyText)
                AttachmentRow.filename observed
              some (s.recover provider trigger (found.map Prod.snd) [])
      | _ => none
  | .load answer =>
      match s.phase with
      | .loading trigger (request :: planned) evidence =>
          match answer with
          | .error e => some (s.enter (.failed e))
          | .ok loaded =>
              let loaded := request.evidence loaded
              some ((s.warn ((loaded.warningCode.filter (· ≠ "")).toList)).conclude trigger planned
                (evidence ++ [loaded.evidence]))
      | _ => none

end Collecting

end Codex2Lark
