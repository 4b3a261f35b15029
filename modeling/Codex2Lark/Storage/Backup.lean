import Codex2Lark.Core.Json
import Codex2Lark.Lib.Dict
import Codex2Lark.Storage.Crypto
import Mathlib.Data.List.Basic
import Mathlib.Algebra.Ring.Int.Defs

/-!
`verify_backup` and `restore` of `StorageMaintenance`. The two share the check of the manifest,
which looks at names, sizes and hashes; what is in the database is not compared with it. Reading
JSON and SQLite files and hashing are parameters.
-/

namespace Codex2Lark

open Lib

/-- A SQLite file as opened for reading. -/
structure ArchivedDatabase where
  /-- The answer of `PRAGMA integrity_check`. -/
  integrity : String
  /-- `MAX(version)` of `runtime_migrations`, where there is such a table. -/
  schemaVersion : Option Int
  /-- The blobs that `im_attachments` references. -/
  blobIds : List String
deriving DecidableEq, Repr

structure ArchiveReaders where
  /-- `json.loads`. -/
  json : Bytes → Except PyError Json
  /-- `hashlib.sha256(content).hexdigest()`. -/
  sha256 : Bytes → String
  database : Bytes → Except PyError ArchivedDatabase

/-- The file given as a backup archive, with the entries of a zip file in order. -/
inductive BackupArchive where
  | missing
  | notZip
  | zip (entries : List (String × Bytes))
deriving DecidableEq, Repr

/-- `manifest["schema_version"]` and `manifest["files"]`. -/
structure BackupManifest where
  schemaVersion : Int
  files : List (String × List (String × Json))
deriving DecidableEq, Repr

structure BackupResult where
  ok : Bool
  archive : String
  schemaVersion : Int
  fileCount : Nat
  totalBytes : Int
deriving DecidableEq, Repr

/-- What is at the path to restore to. -/
inductive RestoreTarget where
  | missing
  | file
  | directory (names : List String)
deriving DecidableEq, Repr

namespace Backup

def schemaVersion : Int := 13

/-! ### Paths -/

/-- `PurePosixPath(name).parts`; empty and `.` components are dropped. -/
def posixParts (name : String) : List String :=
  let names := ((name.toList.splitOnP (· = '/')).map String.ofList).filter fun part =>
    part ≠ "" && part ≠ "."
  if name.toList.take 2 = ['/', '/'] && name.toList.take 3 ≠ ['/', '/', '/'] then "//" :: names
  else if name.toList.head? = some '/' then "/" :: names
  else names

def isAbsolute (name : String) : Bool := name.toList.head? = some '/'

/-- `allowed_blob`. -/
def allowedBlob : List String → Bool
  | [root, parent, file] =>
      root = "blobs" && parent.length = 2 && ".blob".toList.isSuffixOf file.toList &&
        parent.toList.isPrefixOf (file.toList.take (file.length - 5))
  | _ => false

def validateArchiveName (name : String) : Except PyError Unit :=
  let parts := posixParts name
  if isAbsolute name || parts.contains ".." || (name ≠ "runtime.db" && !allowedBlob parts) then
    .error (.runtimeError ("unsafe or unsupported backup path: " ++ name))
  else .ok ()

/-- The destination of the blob below a data directory. -/
def blobDestination (blobId : String) : List String :=
  ["blobs", String.ofList (blobId.toList.take 2), blobId ++ ".blob"]

/-! ### The manifest -/

variable (readers : ArchiveReaders)

/-- `bundle.open(name)`. -/
def readEntry (entries : List (String × Bytes)) (name : String) : Except PyError Bytes :=
  match Dict.get? entries name with
  | some content => .ok content
  | none => .error (.other "KeyError" ("There is no item named '" ++ name ++ "' in the archive"))

/-- `isinstance(value, int)`. -/
def pyInt : Json → Option Int
  | .int value => some value
  | .bool value => some (if value then 1 else 0)
  | _ => none

/-- The size and the digest that the manifest expects. -/
def describes (expected : List (String × Json)) (content : Bytes) : Bool :=
  ((Json.field? expected "bytes").bind Json.wholeNumber = some (content.length : Int)) &&
    Json.field? expected "sha256" = some (.str (readers.sha256 content))

/-- One turn of the loop over the files. -/
def verifyFile (entries : List (String × Bytes)) (file : String × Json) :
    Except PyError (String × List (String × Json)) := do
  validateArchiveName file.1
  match file.2 with
  | .obj expected =>
      let content ← readEntry entries file.1
      if describes readers expected content then pure (file.1, expected)
      else throw (.runtimeError ("backup file verification failed: " ++ file.1))
  | _ => throw (.runtimeError "backup file metadata is invalid")

/-- `set(names) != {"manifest.json", *files}`. -/
def sameNames (names files : List String) : Bool :=
  decide (names ⊆ "manifest.json" :: files) && decide ("manifest.json" :: files ⊆ names)

def checkedFiles (names : List String) : Option Json → Except PyError (List (String × Json))
  | some (.obj files) =>
      if !sameNames names (files.map Prod.fst) then
        .error (.runtimeError "backup archive entries do not match the manifest")
      else if "runtime.db" ∉ files.map Prod.fst then
        .error (.runtimeError "backup manifest has no runtime database")
      else .ok files
  | _ => .error (.runtimeError "backup archive entries do not match the manifest")

def checkedVersion (version : Option Json) : Except PyError Int :=
  match version.bind pyInt with
  | some version =>
      if version > schemaVersion then
        .error (.runtimeError "backup schema is newer than this Codex2Lark version")
      else .ok version
  | none => .error (.runtimeError "backup schema is newer than this Codex2Lark version")

def manifestFields : Json → Except PyError (List (String × Json))
  | .obj manifest =>
      if Json.field? manifest "format" ≠ some (.str "codex2lark-backup-v1") then
        .error (.runtimeError "unsupported backup manifest")
      else .ok manifest
  | _ => .error (.runtimeError "unsupported backup manifest")

/-- `_verified_manifest` for the entries of a zip file. -/
def verifiedEntries (entries : List (String × Bytes)) : Except PyError BackupManifest := do
  let content ← readEntry entries "manifest.json"
  let value ← readers.json content
  let manifest ← manifestFields value
  let version ← checkedVersion (Json.field? manifest "schema_version")
  let files ← checkedFiles (entries.map Prod.fst) (Json.field? manifest "files")
  let verified ← files.mapM (verifyFile readers entries)
  pure ⟨version, verified⟩

/-- `_verified_manifest`. -/
def verifiedManifest : BackupArchive → Except PyError BackupManifest
  | .missing => .error (.other "FileNotFoundError" "backup archive does not exist")
  | .notZip => .error (.other "BadZipFile" "File is not a zip file")
  | .zip entries =>
      if ¬ (entries.map Prod.fst).Nodup ∨ "manifest.json" ∉ entries.map Prod.fst then
        .error (.runtimeError "backup archive has duplicate entries or no manifest")
      else verifiedEntries readers entries

/-! ### Verification and restoration -/

def archiveEntries : BackupArchive → List (String × Bytes)
  | .zip entries => entries
  | _ => []

/-- Opens the database and asks for its integrity. -/
def checkedDatabase (label : String) (content : Bytes) : Except PyError ArchivedDatabase :=
  match readers.database content with
  | .error e => .error e
  | .ok database =>
      if database.integrity = "ok" then .ok database
      else .error (.runtimeError (label ++ " database integrity failed: " ++ database.integrity))

def backupResult (path : String) (manifest : BackupManifest) : BackupResult :=
  { ok := true
    archive := path
    schemaVersion := manifest.schemaVersion
    fileCount := manifest.files.length
    totalBytes := (manifest.files.map fun file =>
      ((Json.field? file.2 "bytes").bind Json.wholeNumber).getD 0).sum }

def verifyBackup (path : String) (archive : BackupArchive) : Except PyError BackupResult := do
  let manifest ← verifiedManifest readers archive
  let content ← readEntry (archiveEntries archive) "runtime.db"
  let _ ← checkedDatabase readers "backup" content
  pure (backupResult path manifest)

/-- The loop of `restore` over the names of the manifest, each file at its destination. -/
def extractFiles (entries : List (String × Bytes)) (names : List String) :
    Except PyError (Dict (List String) Bytes) :=
  names.foldlM
    (fun tree name => do
      let content ← readEntry entries name
      pure (tree.set (posixParts name) content))
    []

def isRestorable : RestoreTarget → Bool
  | .missing => true
  | .file => false
  | .directory names => names.isEmpty

def checkTarget (target : RestoreTarget) : Except PyError Unit :=
  if isRestorable target then .ok ()
  else .error (.other "FileExistsError" "restore data directory must be new or empty")

/-- The file of this name in the staging directory. -/
def restoredFile (staging : Dict (List String) Bytes) (name : String) : Except PyError Bytes :=
  match staging.get? [name] with
  | some content => .ok content
  | none => .error (.other "OperationalError" "unable to open database file")

def restore (path : String) (archive : BackupArchive) (target : RestoreTarget) :
    Except PyError (BackupResult × Dict (List String) Bytes) := do
  let manifest ← verifiedManifest readers archive
  checkTarget target
  let staging ← extractFiles (archiveEntries archive) (manifest.files.map Prod.fst)
  let content ← restoredFile staging "runtime.db"
  let _ ← checkedDatabase readers "restored" content
  pure (backupResult path manifest, staging)

end Backup

end Codex2Lark
