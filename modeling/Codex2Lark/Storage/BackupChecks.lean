import Codex2Lark.Lib.Table
import Codex2Lark.Storage.Backup

/-!
What an accepted backup is known to be. The manifest describes every entry of the archive; whether
the database fits the manifest and this version, and whether two names of the manifest lead to one
file, is left to whoever made the archive.
-/

namespace Codex2Lark.Backup

open Lib

variable {readers : ArchiveReaders} {path : String} {archive : BackupArchive}
  {target : RestoreTarget} {manifest : BackupManifest} {database : ArchivedDatabase}
  {entries : List (String × Bytes)} {content : Bytes}

/-- The database says of itself that this version knows its schema. -/
def SchemaSupported (database : ArchivedDatabase) : Prop :=
  ∃ version, database.schemaVersion = some version ∧ version ≤ schemaVersion

/-- Every referenced blob is one of the files. -/
def BlobsListed (manifest : BackupManifest) (database : ArchivedDatabase) : Prop :=
  ∀ blobId ∈ database.blobIds, ∃ file ∈ manifest.files,
    posixParts file.1 = blobDestination blobId

/-- No two names lead to one destination. -/
def DestinationsDistinct (manifest : BackupManifest) : Prop :=
  ∀ a ∈ manifest.files.map Prod.fst, ∀ b ∈ manifest.files.map Prod.fst,
    posixParts a = posixParts b → a = b

/-- The database of an archive, opened without a complaint. -/
def Contains (readers : ArchiveReaders) (archive : BackupArchive) (database : ArchivedDatabase) :
    Prop :=
  ∃ content, readEntry (archiveEntries archive) "runtime.db" = .ok content ∧
    readers.database content = .ok database ∧ database.integrity = "ok"

/-- What verification and restoration promise. -/
def Sound (readers : ArchiveReaders) (path : String) (archive : BackupArchive)
    (target : RestoreTarget) : Prop :=
  (∀ result, verifyBackup readers path archive = .ok result →
    ∀ manifest database, verifiedManifest readers archive = .ok manifest →
      Contains readers archive database → SchemaSupported database ∧ BlobsListed manifest database) ∧
  ∀ result tree, restore readers path archive target = .ok (result, tree) →
    ∀ manifest, verifiedManifest readers archive = .ok manifest →
      (∀ file ∈ manifest.files, ∃ content, Dict.get? tree (posixParts file.1) = some content ∧
        describes readers file.2 content = true) ∧
      DestinationsDistinct manifest

/-- What the checks leave to whoever made the archive. -/
def FitsManifest (readers : ArchiveReaders) (archive : BackupArchive) (target : RestoreTarget) :
    Prop :=
  ∀ manifest database, verifiedManifest readers archive = .ok manifest →
    Contains readers archive database →
      (SchemaSupported database ∧ BlobsListed manifest database) ∧
        (isRestorable target = true → DestinationsDistinct manifest)

/-! ### The manifest -/

/-- What the check has found of a file. -/
structure Verified (readers : ArchiveReaders) (entries : List (String × Bytes))
    (file : String × List (String × Json)) : Prop where
  name : validateArchiveName file.1 = .ok ()
  content : ∃ content, readEntry entries file.1 = .ok content ∧
    describes readers file.2 content = true

theorem verified_of_verifyFile {file : String × Json} {found : String × List (String × Json)}
    (hok : verifyFile readers entries file = .ok found) :
    Verified readers entries found ∧ found.1 = file.1 := by
  obtain ⟨name, expected⟩ := file
  unfold verifyFile at hok
  dsimp only at hok
  cases hname : validateArchiveName name with
  | error e =>
      rw [hname] at hok
      cases hok
  | ok valid =>
      rw [hname] at hok
      cases expected with
      | obj fields =>
          cases hread : readEntry entries name with
          | error e =>
              simp only [hread, Bind.bind, Except.bind] at hok
              cases hok
          | ok content =>
              simp only [hread, Bind.bind, Except.bind] at hok
              by_cases hdescribes : describes readers fields content = true
              · rw [if_pos hdescribes] at hok
                cases hok
                exact ⟨⟨hname, content, hread, hdescribes⟩, rfl⟩
              · rw [if_neg hdescribes] at hok
                cases hok
      | _ => cases hok

theorem mem_of_checkedFiles {names : List String} {value : Option Json}
    {files : List (String × Json)} (hok : checkedFiles names value = .ok files) :
    "runtime.db" ∈ files.map Prod.fst := by
  unfold checkedFiles at hok
  split at hok
  · split at hok
    · cases hok
    · split at hok
      · cases hok
      · rename_i hmissing
        cases hok
        exact not_not.mp hmissing
  · cases hok

/-- What the manifest of an accepted archive is known to be. -/
theorem verified_of_manifest (hok : verifiedManifest readers archive = .ok manifest) :
    (∀ file ∈ manifest.files, Verified readers (archiveEntries archive) file) ∧
      "runtime.db" ∈ manifest.files.map Prod.fst := by
  cases archive with
  | missing => cases hok
  | notZip => cases hok
  | zip entries =>
      rw [verifiedManifest] at hok
      split at hok
      · cases hok
      · unfold verifiedEntries at hok
        obtain ⟨content, _, hok⟩ := PyError.bind_eq_ok.mp hok
        obtain ⟨value, _, hok⟩ := PyError.bind_eq_ok.mp hok
        obtain ⟨fields, _, hok⟩ := PyError.bind_eq_ok.mp hok
        obtain ⟨version, _, hok⟩ := PyError.bind_eq_ok.mp hok
        obtain ⟨files, hfiles, hok⟩ := PyError.bind_eq_ok.mp hok
        obtain ⟨verified, hverified, hok⟩ := PyError.bind_eq_ok.mp hok
        cases hok
        have hall := Table.forall₂_of_mapM hverified
        have hfound := hall.imp fun _ _ hfile => verified_of_verifyFile hfile
        refine ⟨fun file hmem => ?_, ?_⟩
        · obtain ⟨_, _, hfile⟩ := Table.Forall₂.of_mem_right hfound hmem
          exact hfile.1
        · obtain ⟨listed, hmem, hname⟩ := List.mem_map.mp (mem_of_checkedFiles hfiles)
          obtain ⟨file, hfile, hthis⟩ := Table.Forall₂.of_mem_left hfound hmem
          exact List.mem_map.mpr ⟨file, hfile, hthis.2.trans hname⟩

/-! ### The extracted files -/

/-- At every destination is the content of some name that leads there, if there is one. -/
theorem extractFiles_ok (names : List String)
    (hentries : ∀ name ∈ names, ∃ content, readEntry entries name = .ok content) :
    ∃ tree, extractFiles entries names = .ok tree ∧ ∀ name ∈ names, ∃ other ∈ names,
      posixParts other = posixParts name ∧
        ∃ content, readEntry entries other = .ok content ∧
          Dict.get? tree (posixParts name) = some content := by
  have hloop (start : Dict (List String) Bytes) :
      ∃ tree, names.foldlM (fun (tree : Dict (List String) Bytes) name => do
          let content ← readEntry entries name
          pure (tree.set (posixParts name) content)) start = .ok tree ∧
        ∀ parts, (∃ other ∈ names, posixParts other = parts ∧
            ∃ content, readEntry entries other = .ok content ∧ tree.get? parts = some content) ∨
          (∀ other ∈ names, posixParts other ≠ parts) ∧ tree.get? parts = start.get? parts := by
    induction names generalizing start with
    | nil => exact ⟨start, rfl, fun parts => .inr ⟨nofun, rfl⟩⟩
    | cons name names ih =>
        obtain ⟨content, hcontent⟩ := hentries name List.mem_cons_self
        obtain ⟨tree, htree, hparts⟩ := ih
          (fun other hother => hentries other (List.mem_cons_of_mem _ hother))
          (start.set (posixParts name) content)
        refine ⟨tree, ?_, fun parts => ?_⟩
        · rw [List.foldlM_cons, hcontent]
          exact htree
        · rcases hparts parts with ⟨other, hother, hthere⟩ | ⟨hnone, hkept⟩
          · exact .inl ⟨other, List.mem_cons_of_mem _ hother, hthere⟩
          · by_cases hthis : posixParts name = parts
            · refine .inl ⟨name, List.mem_cons_self, hthis, content, hcontent, ?_⟩
              rw [hkept, hthis, Dict.get?_set_self]
            · refine .inr ⟨fun other hother => ?_, ?_⟩
              · rcases List.mem_cons.mp hother with rfl | hother
                · exact hthis
                · exact hnone other hother
              · rw [hkept, Dict.get?_set_ne _ _ (Ne.symm hthis)]
  obtain ⟨tree, htree, hparts⟩ := hloop []
  refine ⟨tree, htree, fun name hname => ?_⟩
  exact (hparts (posixParts name)).resolve_right fun hnone => hnone.1 name hname rfl

theorem posixParts_database : posixParts "runtime.db" = ["runtime.db"] := by decide +kernel

/-- Only the database leads to the destination of the database. -/
theorem eq_database_of_parts {name : String} (hvalid : validateArchiveName name = .ok ())
    (hparts : posixParts name = ["runtime.db"]) : name = "runtime.db" := by
  by_contra hother
  unfold validateArchiveName at hvalid
  rw [hparts] at hvalid
  simp [hother, allowedBlob] at hvalid

/-- The files of a restoration that comes to its end. -/
theorem extracted (hok : verifiedManifest readers archive = .ok manifest) :
    ∃ tree, extractFiles (archiveEntries archive) (manifest.files.map Prod.fst) = .ok tree ∧
      restoredFile tree "runtime.db" = readEntry (archiveEntries archive) "runtime.db" ∧
      (DestinationsDistinct manifest → ∀ file ∈ manifest.files,
        ∃ content, Dict.get? tree (posixParts file.1) = some content ∧
          describes readers file.2 content = true) := by
  obtain ⟨hverified, hdatabase⟩ := verified_of_manifest hok
  have hentries : ∀ name ∈ manifest.files.map Prod.fst,
      ∃ content, readEntry (archiveEntries archive) name = .ok content := by
    intro name hname
    obtain ⟨file, hfile, rfl⟩ := List.mem_map.mp hname
    obtain ⟨content, hread, _⟩ := (hverified file hfile).content
    exact ⟨content, hread⟩
  obtain ⟨tree, htree, hplaces⟩ := extractFiles_ok _ hentries
  refine ⟨tree, htree, ?_, fun hdistinct file hfile => ?_⟩
  · obtain ⟨other, hother, hparts, content, hread, hthere⟩ := hplaces _ hdatabase
    obtain ⟨file, hfile, rfl⟩ := List.mem_map.mp hother
    rw [posixParts_database] at hparts hthere
    rw [eq_database_of_parts (hverified file hfile).name hparts] at hread
    unfold restoredFile
    rw [hthere, hread]
  · obtain ⟨other, hother, hparts, content, hread, hthere⟩ :=
      hplaces file.1 (List.mem_map_of_mem hfile)
    rw [hdistinct other hother file.1 (List.mem_map_of_mem hfile) hparts] at hread
    obtain ⟨found, hfound, hdescribes⟩ := (hverified file hfile).content
    rw [hread] at hfound
    cases hfound
    exact ⟨content, hthere, hdescribes⟩

/-! ### The two operations -/

theorem checkedDatabase_ok_iff {label : String} :
    checkedDatabase readers label content = .ok database ↔
      readers.database content = .ok database ∧ database.integrity = "ok" := by
  unfold checkedDatabase
  cases hopen : readers.database content with
  | error e => simp
  | ok found =>
      dsimp only
      split
      · rename_i hintegrity
        constructor
        · intro hsame
          cases hsame
          exact ⟨rfl, hintegrity⟩
        · rintro ⟨hsame, _⟩
          exact hsame
      · rename_i hintegrity
        refine ⟨nofun, ?_⟩
        rintro ⟨hsame, hthis⟩
        cases hsame
        exact absurd hthis hintegrity

theorem verifyBackup_ok_iff : (∃ result, verifyBackup readers path archive = .ok result) ↔
    ∃ manifest database, verifiedManifest readers archive = .ok manifest ∧
      Contains readers archive database := by
  unfold verifyBackup
  constructor
  · rintro ⟨result, hok⟩
    obtain ⟨manifest, hmanifest, hok⟩ := PyError.bind_eq_ok.mp hok
    obtain ⟨content, hread, hok⟩ := PyError.bind_eq_ok.mp hok
    obtain ⟨database, hdatabase, _⟩ := PyError.bind_eq_ok.mp hok
    obtain ⟨hopen, hintegrity⟩ := checkedDatabase_ok_iff.mp hdatabase
    exact ⟨manifest, database, hmanifest, content, hread, hopen, hintegrity⟩
  · rintro ⟨manifest, database, hmanifest, content, hread, hopen, hintegrity⟩
    refine ⟨backupResult path manifest, ?_⟩
    refine PyError.bind_eq_ok.mpr ⟨manifest, hmanifest, ?_⟩
    refine PyError.bind_eq_ok.mpr ⟨content, hread, ?_⟩
    exact PyError.bind_eq_ok.mpr ⟨database, checkedDatabase_ok_iff.mpr ⟨hopen, hintegrity⟩, rfl⟩

/-- A restoration writes what the manifest lists, and comes to its end for a new directory. -/
theorem restore_ok_iff (hmanifest : verifiedManifest readers archive = .ok manifest)
    {tree : Dict (List String) Bytes} :
    (∃ result, restore readers path archive target = .ok (result, tree)) ↔
      isRestorable target = true ∧ (∃ database, Contains readers archive database) ∧
        extractFiles (archiveEntries archive) (manifest.files.map Prod.fst) = .ok tree := by
  obtain ⟨extractedTree, htree, hrestored, _⟩ := extracted hmanifest
  unfold restore
  constructor
  · rintro ⟨result, hok⟩
    obtain ⟨found, hfound, hok⟩ := PyError.bind_eq_ok.mp hok
    rw [hmanifest] at hfound
    cases hfound
    obtain ⟨_, htarget, hok⟩ := PyError.bind_eq_ok.mp hok
    obtain ⟨staging, hstaging, hok⟩ := PyError.bind_eq_ok.mp hok
    obtain ⟨content, hread, hok⟩ := PyError.bind_eq_ok.mp hok
    obtain ⟨database, hdatabase, hok⟩ := PyError.bind_eq_ok.mp hok
    cases hok
    rw [htree] at hstaging
    cases hstaging
    rw [hrestored] at hread
    obtain ⟨hopen, hintegrity⟩ := checkedDatabase_ok_iff.mp hdatabase
    refine ⟨?_, ⟨database, content, hread, hopen, hintegrity⟩, htree⟩
    unfold checkTarget at htarget
    split at htarget
    · assumption
    · cases htarget
  · rintro ⟨htarget, ⟨database, content, hread, hopen, hintegrity⟩, hstaging⟩
    refine ⟨backupResult path manifest, ?_⟩
    refine PyError.bind_eq_ok.mpr ⟨manifest, hmanifest, ?_⟩
    refine PyError.bind_eq_ok.mpr ⟨(), if_pos htarget, ?_⟩
    refine PyError.bind_eq_ok.mpr ⟨tree, hstaging, ?_⟩
    rw [htree] at hstaging
    cases hstaging
    refine PyError.bind_eq_ok.mpr ⟨content, hrestored.trans hread, ?_⟩
    exact PyError.bind_eq_ok.mpr ⟨database, checkedDatabase_ok_iff.mpr ⟨hopen, hintegrity⟩, rfl⟩

theorem fits_of_sound (hsound : Sound readers path archive target) :
    FitsManifest readers archive target := by
  obtain ⟨hverify, hrestore⟩ := hsound
  intro manifest database hmanifest hcontains
  refine ⟨?_, fun htarget => ?_⟩
  · obtain ⟨result, hok⟩ := verifyBackup_ok_iff.mpr ⟨manifest, database, hmanifest, hcontains⟩
    exact hverify result hok manifest database hmanifest hcontains
  · obtain ⟨tree, htree, _⟩ := extracted hmanifest
    obtain ⟨result, hok⟩ := (restore_ok_iff hmanifest).mpr ⟨htarget, ⟨database, hcontains⟩, htree⟩
    exact (hrestore result tree hok manifest hmanifest).2

/-- Verification and restoration keep their promises exactly when whoever made the archive has put
into it a database that fits, and names with destinations of their own. -/
theorem backup_sound_iff (readers : ArchiveReaders) (path : String) (archive : BackupArchive)
    (target : RestoreTarget) :
    Sound readers path archive target ↔ FitsManifest readers archive target := by
  refine ⟨fits_of_sound, fun hfits => ⟨fun result hok manifest database hmanifest hcontains =>
    (hfits manifest database hmanifest hcontains).1, fun result tree hok manifest hmanifest => ?_⟩⟩
  obtain ⟨htarget, ⟨database, hcontains⟩, hstaging⟩ :=
    (restore_ok_iff hmanifest).mp ⟨result, hok⟩
  have hdistinct := (hfits manifest database hmanifest hcontains).2 htarget
  obtain ⟨extractedTree, htree, _, hplaces⟩ := extracted hmanifest
  rw [hstaging] at htree
  cases htree
  exact ⟨hplaces hdistinct, hdistinct⟩

/-! ### Archives that do not fit -/

private def page (front back : Bytes) : Bytes :=
  front ++ List.replicate (512 - front.length - back.length) 0 ++ back

/-- The first page of a database with pages of 512 bytes: its schema. -/
private def schemaPage : Bytes :=
  page
    (utf8 "SQLite format 3" ++ [0, 2, 0, 1, 1, 0, 64, 32, 32, 0, 0, 0, 2, 0, 0, 0, 3] ++
      List.replicate 11 0 ++ [2, 0, 0, 0, 4] ++ List.replicate 11 0 ++ [1] ++
      List.replicate 35 0 ++ [2, 0, 46, 122, 112] ++ [13, 0, 0, 0, 2, 1, 62, 0, 1, 145, 1, 62])
    ([81, 2, 6, 23, 41, 41, 1, 95] ++ utf8 "tableim_attachmentsim_attachments" ++ [3] ++
      utf8 "CREATE TABLE im_attachments(blob_id TEXT)" ++ [109, 1, 7, 23, 49, 49, 1, 129, 5] ++
      utf8 "tableruntime_migrationsruntime_migrations" ++ [2] ++
      utf8 "CREATE TABLE runtime_migrations(version INTEGER PRIMARY KEY)")

/-- A database with one migration and these attachments. -/
private def databaseFile (version : UInt8) (attachments : Bytes) : Bytes :=
  schemaPage ++ page [13, 0, 0, 0, 1, 1, 252, 0, 1, 252] [2, version, 2, 0] ++ attachments

private def noAttachment : Bytes := page [13, 0, 0, 0, 0, 2] []

private def oneAttachment : Bytes :=
  page [13, 0, 0, 0, 1, 1, 250, 0, 1, 250] ([4, 1, 2, 17] ++ utf8 "ab")

private structure SampleFile where
  content : Bytes
  digest : String
  database : Except PyError ArchivedDatabase

/-- A SQLite file of no bytes has no tables. -/
private def emptyFile : SampleFile where
  content := []
  digest := "e3b0c44298fc1c149afbf4c8996fb92427ae41e4649b934ca495991b7852b855"
  database := .ok ⟨"ok", none, []⟩

private def letterFile : SampleFile where
  content := utf8 "x"
  digest := "2d711642b726b04401627ca9fbac32f5c8530fb1903cc4db02258717921a4881"
  database := .error (.other "DatabaseError" "file is not a database")

private def currentFile : SampleFile where
  content := databaseFile 13 noAttachment
  digest := "a8cb6774436406443c9ab4f53f11ca2abe7f0b62ed7703deccd760edb34b2975"
  database := .ok ⟨"ok", some 13, []⟩

private def newerFile : SampleFile where
  content := databaseFile 14 noAttachment
  digest := "85bf2171e0e3c6059b307b6f1e6d5f54f8c685d6aa023a9d5bdca87dd78a9fb0"
  database := .ok ⟨"ok", some 14, []⟩

private def attachedFile : SampleFile where
  content := databaseFile 13 oneAttachment
  digest := "d3c01804998e8b976e6644a9137803002f0d609f3694670d6ce5ff2cfe15503e"
  database := .ok ⟨"ok", some 13, ["ab"]⟩

private def manifestOf (files : List (String × SampleFile)) : Json :=
  .obj [("format", .str "codex2lark-backup-v1"), ("schema_version", .int 1),
    ("files", .obj (files.map fun (name, file) =>
      (name, .obj [("bytes", .int file.content.length), ("sha256", .str file.digest)])))]

private def archiveOf (files : List (String × SampleFile)) : BackupArchive :=
  .zip (("manifest.json", utf8 (Json.dumps Json.compact (manifestOf files))) ::
    files.map fun (name, file) => (name, file.content))

private def sample (files : List (String × SampleFile)) (content : Bytes) : SampleFile :=
  ((files.map Prod.snd).find? (·.content = content)).getD emptyFile

/-- Reads the manifest of these files, and the files. -/
private def readersOf (files : List (String × SampleFile)) : ArchiveReaders where
  json _ := .ok (manifestOf files)
  sha256 content := (sample files content).digest
  database content := (sample files content).database

private def collidingFiles : List (String × SampleFile) :=
  [("runtime.db", currentFile), ("blobs/ab/ab.blob", emptyFile), ("blobs//ab/ab.blob", letterFile)]

private def acceptedManifest (files : List (String × SampleFile)) : BackupManifest :=
  ⟨1, files.map fun (name, file) =>
    (name, [("bytes", .int file.content.length), ("sha256", .str file.digest)])⟩

private theorem readersOf_database (file : SampleFile) (rest : List (String × SampleFile)) :
    (readersOf (("runtime.db", file) :: rest)).database file.content = file.database := by
  simp [readersOf, sample]

private theorem read_database (file : SampleFile) (rest : List (String × SampleFile)) :
    readEntry (archiveEntries (archiveOf (("runtime.db", file) :: rest))) "runtime.db" =
      .ok file.content := by
  simp [readEntry, archiveEntries, archiveOf, Dict.get?]

private theorem unfit_of (file : SampleFile) (rest : List (String × SampleFile))
    (database : ArchivedDatabase) (hdatabase : file.database = .ok database)
    (hintegrity : database.integrity = "ok")
    (hmanifest : verifiedManifest (readersOf (("runtime.db", file) :: rest))
      (archiveOf (("runtime.db", file) :: rest)) =
        .ok (acceptedManifest (("runtime.db", file) :: rest)))
    (hunfit : ¬ ((SchemaSupported database ∧
        BlobsListed (acceptedManifest (("runtime.db", file) :: rest)) database) ∧
      DestinationsDistinct (acceptedManifest (("runtime.db", file) :: rest)))) :
    ¬ Sound (readersOf (("runtime.db", file) :: rest)) "/a.zip"
      (archiveOf (("runtime.db", file) :: rest)) .missing := by
  intro hsound
  have hopen := (readersOf_database file rest).trans hdatabase
  obtain ⟨hfits, hnames⟩ := fits_of_sound hsound _ database hmanifest
    ⟨_, read_database file rest, hopen, hintegrity⟩
  exact hunfit ⟨hfits, hnames rfl⟩

/-- Accepted: a database without migrations, a database that is newer than its manifest says, one
that references a blob which is not there, and two files for one destination. -/
theorem unfit_archives_accepted :
    ¬ Sound (readersOf [("runtime.db", emptyFile)]) "/a.zip" (archiveOf [("runtime.db", emptyFile)])
        .missing ∧
      ¬ Sound (readersOf [("runtime.db", newerFile)]) "/a.zip"
        (archiveOf [("runtime.db", newerFile)]) .missing ∧
      ¬ Sound (readersOf [("runtime.db", attachedFile)]) "/a.zip"
        (archiveOf [("runtime.db", attachedFile)]) .missing ∧
      ¬ Sound (readersOf collidingFiles) "/a.zip" (archiveOf collidingFiles) .missing := by
  refine ⟨unfit_of emptyFile _ _ rfl rfl (by decide +kernel) ?_,
    unfit_of newerFile _ _ rfl rfl (by decide +kernel) ?_,
    unfit_of attachedFile _ _ rfl rfl (by decide +kernel) ?_,
    unfit_of currentFile _ _ rfl rfl (by decide +kernel) ?_⟩
  · rintro ⟨⟨⟨version, hversion, _⟩, _⟩, _⟩
    cases hversion
  · rintro ⟨⟨⟨version, hversion, hold⟩, _⟩, _⟩
    cases hversion
    exact absurd hold (by decide)
  · rintro ⟨⟨_, hlisted⟩, _⟩
    obtain ⟨file, hfile, hparts⟩ := hlisted "ab" List.mem_cons_self
    obtain rfl := List.mem_singleton.mp hfile
    exact absurd hparts (by decide +kernel)
  · rintro ⟨_, hdistinct⟩
    exact absurd (hdistinct "blobs/ab/ab.blob" (by decide) "blobs//ab/ab.blob" (by decide)
      (by decide +kernel)) (by decide)

end Codex2Lark.Backup
