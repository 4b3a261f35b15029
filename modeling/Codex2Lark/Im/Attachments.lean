import Codex2Lark.Im.Mirror
import Codex2Lark.Lib.Dict
import Codex2Lark.Runtime.Context

/-!
`AttachmentService.load` of `capabilities/im/attachments.py` beside the cleanup of
`IMLifecycleTaskHandler`. The files of `EncryptedBlobStore` are no part of any transaction: a
load puts its file before it records the blob, and a cleanup deletes files after its commit.
-/

namespace Codex2Lark

open Lib IMRepository

structure AttachmentLoadRequest where
  chat : ChatKey
  messageId : String
  resourceKey : String
deriving DecidableEq, Repr

structure AttachmentEvidence where
  blobId : String
  contentKind : String
  evidence : ContextEvidence
  warningCode : Option String
deriving DecidableEq, Repr

structure ParseResult where
  state : ParseState
  contentKind : String
  content : Option String
  warningCode : Option String := none
deriving DecidableEq, Repr

def ParseState.value : ParseState → String
  | .notParsed => "not_parsed"
  | .parsed => "parsed"
  | .metadataOnly => "metadata_only"
  | .blocked => "blocked"
  | .failed => "failed"

/-- `opaqueDigest` is the keyed digest of the cipher and `parse` the parser, which may raise. -/
structure AttachmentService where
  maxAttachmentBytes : Nat := 200 * 1024 * 1024
  opaqueDigest : List UInt8 → String
  parse : AttachmentRow → List UInt8 → Except PyError ParseResult
  positive : 1 ≤ maxAttachmentBytes := by decide

/-- The files by blob id, with what they decrypt to. -/
abbrev BlobFiles := Dict String (List UInt8)

/-- `EncryptedBlobStore.put`. -/
def BlobFiles.put (files : BlobFiles) (blobId : String) (content : List UInt8) : BlobFiles :=
  if files.contains blobId then files else files.set blobId content

/-! ### One load -/

/-- What a load awaits, or how it ended. -/
inductive LoadPhase where
  | authorizing
  | downloading (row : AttachmentRow)
  | recording (row : AttachmentRow) (content : List UInt8) (blobId : String)
  | parsing (row : AttachmentRow) (blobId : String) (result : ParseResult)
  | returned (evidence : AttachmentEvidence)
  | failed (e : PyError)

structure Loading where
  request : AttachmentLoadRequest
  nowMs : Int
  phase : LoadPhase := .authorizing

namespace AttachmentService

/-- `filename or resource_key`. -/
def shownName (row : AttachmentRow) : String :=
  (row.filename.filter (· ≠ "")).getD row.key.resourceKey

/-- `_storage_pressure_evidence`. -/
def storagePressureEvidence (row : AttachmentRow) : AttachmentEvidence :=
  { blobId := "not-downloaded", contentKind := "file_metadata"
    evidence :=
      { sourceRef := attachmentRef row.key.message.messageId row.key.resourceKey
        content := "Attachment " ++ shownName row ++ " was not downloaded because local storage " ++
          "is at its hard capacity threshold."
        sourceVersion := "storage-pressure-hard" }
    warningCode := some "storage_pressure_hard" }

def parsedEvidence (row : AttachmentRow) (blobId : String) (result : ParseResult) :
    AttachmentEvidence :=
  let reason := (result.warningCode.filter (· ≠ "")).getD result.state.value
  { blobId, contentKind := result.contentKind
    evidence :=
      { sourceRef := attachmentRef row.key.message.messageId row.key.resourceKey
        content := (result.content.filter (· ≠ "")).getD
          ("Attachment " ++ shownName row ++ " was not parsed: " ++ reason ++ ".")
        sourceVersion := blobId }
    warningCode := result.warningCode }

/-- The load once it has its bytes and the blob is recorded. -/
def parsePhase (service : AttachmentService) (row : AttachmentRow) (blobId : String)
    (content : List UInt8) : LoadPhase :=
  match service.parse row content with
  | .ok result => .parsing row blobId result
  | .error e => .failed e

/-- The load after `get_attachment`; `permits` is what the capacity monitor says. -/
def authorized (service : AttachmentService) (files : BlobFiles) (permits : Bool) :
    Option AttachmentRow → LoadPhase
  | none =>
      .failed (.permissionError "attachment is not referenced by the trusted message binding")
  | some row =>
      if row.declaredSize.any fun size => size > service.maxAttachmentBytes then
        .failed (.valueError "attachment declared size exceeds policy")
      else
        match row.blobId with
        | none => if permits then .downloading row else .returned (storagePressureEvidence row)
        | some blobId =>
            match files.get? blobId with
            | none => .failed (.other "FileNotFoundError" blobId)
            | some content => service.parsePhase row blobId content

/-- The load and the files after `download_resource`. -/
def downloaded (service : AttachmentService) (files : BlobFiles) (permits : Bool)
    (row : AttachmentRow) : Except PyError (Option (List UInt8)) → LoadPhase × BlobFiles
  | .error e => (.failed e, files)
  | .ok none => (.failed (.runtimeError "Feishu attachment download returned no bytes"), files)
  | .ok (some content) =>
      if content.length > service.maxAttachmentBytes then
        (.failed (.valueError "attachment actual size exceeds policy"), files)
      else if permits then
        let blobId := service.opaqueDigest content
        (.recording row content blobId, files.put blobId content)
      else (.returned (storagePressureEvidence row), files)

def blobRecord (load : Loading) (row : AttachmentRow) (content : List UInt8) (blobId : String) :
    RecordBlob :=
  { key := row.key, chatId := row.chatId, blobId, byteSize := content.length
    mediaType := row.mediaType, nowMs := load.nowMs }

def parseRecord (row : AttachmentRow) (result : ParseResult) : RecordParse :=
  { key := row.key, chatId := row.chatId, content := result.content, state := result.state
    warningCode := result.warningCode }

end AttachmentService

open AttachmentService

/-! ### The system -/

/-- A file that a cleanup has yet to delete. For the record: `contended` says that a load has put
the blob since the commit, or had it put and not recorded at the commit. -/
structure PendingDeletion where
  blobId : String
  contended : Bool
deriving DecidableEq, Repr

/-- The transactions after which `IMLifecycleTaskHandler.execute` deletes files. -/
inductive LifecycleWork where
  | invalidate (args : Invalidation)
  | revoke (chat : ChatKey) (nowMs : Int)

def LifecycleWork.apply (db : MirrorDatabase) : LifecycleWork → List String × MirrorDatabase
  | .invalidate args => invalidateMessage args db
  | .revoke chat nowMs => revokeChatAccess chat nowMs db

structure BlobSystem where
  db : MirrorDatabase := {}
  files : BlobFiles := []
  loads : List Loading := []
  cleanups : List (List PendingDeletion) := []

inductive BlobLabel where
  | upsert (message : MirroredMessage)
  | restore (chat : ChatKey) (nowMs : Int)
  | runtime (op : StoreOp)
  | load (request : AttachmentLoadRequest) (nowMs : Int)
  | getAttachment (i : Nat) (permits : Bool)
  | download (i : Nat) (permits : Bool) (answer : Except PyError (Option (List UInt8)))
  | recordBlob (i : Nat)
  | recordParse (i : Nat)
  /-- The load is cancelled, or the file system raises. -/
  | raised (i : Nat) (e : PyError)
  | lifecycle (work : LifecycleWork)
  /-- The next file of a cleanup. -/
  | delete (i : Nat)

namespace BlobSystem

/-- The load has put the blob and not recorded it yet. -/
def holds (blobId : String) (load : Loading) : Bool :=
  match load.phase with
  | .recording _ _ held => held = blobId
  | _ => false

def setPhase (s : BlobSystem) (i : Nat) (load : Loading) (phase : LoadPhase) : BlobSystem :=
  { s with loads := s.loads.set i { load with phase } }

/-- A put contends for the deletions that are outstanding. -/
def contend (blobId : String) (cleanups : List (List PendingDeletion)) :
    List (List PendingDeletion) :=
  cleanups.map fun cleanup => cleanup.map fun pending =>
    if pending.blobId = blobId then { pending with contended := true } else pending

def step (service : AttachmentService) (s : BlobSystem) : BlobLabel → Option BlobSystem
  | .upsert message => some { s with db := s.db.committed (upsertMessage message) }
  | .restore chat nowMs => some { s with db := restoreChatAccess chat nowMs s.db }
  | .runtime op => some { s with db := { s.db with runtime := op.apply s.db.runtime } }
  | .load request nowMs => some { s with loads := s.loads ++ [{ request, nowMs }] }
  | .getAttachment i permits =>
      match s.loads[i]? with
      | some load =>
          match load.phase with
          | .authorizing =>
              let chat := load.request.chat
              let found := IMRepository.getAttachment s.db
                ⟨⟨chat.tenantKey, chat.appId, load.request.messageId⟩, load.request.resourceKey⟩
                chat.chatId
              some (s.setPhase i load (service.authorized s.files permits found))
          | _ => none
      | none => none
  | .download i permits answer =>
      match s.loads[i]? with
      | some load =>
          match load.phase with
          | .downloading row =>
              match service.downloaded s.files permits row answer with
              | (.recording row content blobId, files) =>
                  some { s.setPhase i load (.recording row content blobId) with
                    files, cleanups := contend blobId s.cleanups }
              | (phase, _) => some (s.setPhase i load phase)
          | _ => none
      | none => none
  | .recordBlob i =>
      match s.loads[i]? with
      | some load =>
          match load.phase with
          | .recording row content blobId =>
              match recordAttachmentBlob (blobRecord load row content blobId) s.db with
              | .error e => some (s.setPhase i load (.failed e))
              | .ok (_, db) =>
                  some { s.setPhase i load (service.parsePhase row blobId content) with db }
          | _ => none
      | none => none
  | .recordParse i =>
      match s.loads[i]? with
      | some load =>
          match load.phase with
          | .parsing row blobId result =>
              match recordAttachmentParse (parseRecord row result) s.db with
              | .error e => some (s.setPhase i load (.failed e))
              | .ok (_, db) =>
                  some { s.setPhase i load (.returned (parsedEvidence row blobId result)) with db }
          | _ => none
      | none => none
  | .raised i e =>
      match s.loads[i]? with
      | some load =>
          match load.phase with
          | .returned _ | .failed _ => none
          | _ => some (s.setPhase i load (.failed e))
      | none => none
  | .lifecycle work =>
      let (blobIds, db) := work.apply s.db
      some { s with
        db
        cleanups := s.cleanups ++
          [blobIds.map fun blobId => ⟨blobId, s.loads.any (holds blobId)⟩] }
  | .delete i =>
      match s.cleanups[i]? with
      | some (pending :: rest) =>
          some { s with
            files := s.files.erase pending.blobId, cleanups := s.cleanups.set i rest }
      | _ => none

end BlobSystem

end Codex2Lark
