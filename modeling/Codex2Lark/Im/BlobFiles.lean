import Codex2Lark.Im.Attachments
import Codex2Lark.Im.Convergence
import Codex2Lark.Lib.Runs

/-!
The files behind the attachments. A blob that a transaction gives up is unreferenced at the
commit; its file is deleted later, so what matters is whether a load has reused it in between.
-/

namespace Codex2Lark

open Lib IMRepository AttachmentService

/-- Some attachment row names the blob. -/
def Names (db : MirrorDatabase) (blobId : String) : Prop :=
  ∃ row ∈ db.attachments, row.blobId = some blobId

namespace IMRepository

variable {db : MirrorDatabase} {blobId : String}

/-! ### What the transactions do to the names -/

theorem names_upsert {message : MirroredMessage}
    (hnames : Names (db.committed (upsertMessage message)) blobId) : Names db blobId := by
  refine upsert_rule (P := fun after => Names after blobId → Names db blobId) message db
    (fun result hcases hnames => ?_) hnames
  cases hcases with
  | revoked _ => exact hnames
  | ignored _ _ _ => exact hnames
  | accepted _ _ _ _ =>
      obtain ⟨row, hrow, hblob⟩ := hnames
      rcases List.mem_append.mp hrow with hold | hnew
      · exact ⟨row, (Table.mem_delete.mp hold).1, hblob⟩
      · -- a new row has no blob yet
        obtain ⟨attachment, _, rfl⟩ := List.mem_map.mp hnew
        cases hblob
  | refused _ _ => exact hnames

/-- The blobs that are given up are named by no row that is left. -/
theorem names_drop {candidates : List String} :
    (Names (dropUnreferencedBlobMetadata candidates db).2 blobId ↔ Names db blobId) ∧
      (blobId ∈ (dropUnreferencedBlobMetadata candidates db).1 → ¬ Names db blobId) := by
  refine ⟨Iff.rfl, ?_⟩
  intro hdropped hnames
  obtain ⟨row, hrow, hblob⟩ := hnames
  have hunnamed := (List.mem_filter.mp hdropped).2
  rw [Bool.not_eq_true', List.any_eq_false] at hunnamed
  exact hunnamed row hrow (decide_eq_true hblob)

theorem names_invalidate {args : Invalidation} :
    (Names (invalidateMessage args db).2 blobId → Names db blobId) ∧
      (blobId ∈ (invalidateMessage args db).1 → ¬ Names (invalidateMessage args db).2 blobId) := by
  unfold invalidateMessage
  dsimp only
  split
  · exact ⟨id, fun h => by cases h⟩
  · constructor
    · rintro ⟨row, hrow, hblob⟩
      exact ⟨row, (Table.mem_delete.mp hrow).1, hblob⟩
    · exact names_drop.2

theorem names_revoke {chat : ChatKey} {nowMs : Int} :
    (Names (revokeChatAccess chat nowMs db).2 blobId → Names db blobId) ∧
      (blobId ∈ (revokeChatAccess chat nowMs db).1 →
        ¬ Names (revokeChatAccess chat nowMs db).2 blobId) := by
  constructor
  · rintro ⟨row, hrow, hblob⟩
    exact ⟨row, (Table.mem_delete.mp hrow).1, hblob⟩
  · exact names_drop.2

theorem names_lifecycle (work : LifecycleWork) :
    (Names (work.apply db).2 blobId → Names db blobId) ∧
      (blobId ∈ (work.apply db).1 → ¬ Names (work.apply db).2 blobId) := by
  cases work with
  | invalidate args => exact names_invalidate
  | revoke chat nowMs => exact names_revoke

theorem names_recordBlob {args : RecordBlob} {after : MirrorDatabase}
    (hok : recordAttachmentBlob args db = .ok ((), after)) (hnames : Names after blobId) :
    Names db blobId ∨ blobId = args.blobId := by
  unfold recordAttachmentBlob at hok
  dsimp only at hok
  split at hok
  · cases hok
  · cases hok
    obtain ⟨row, hrow, hblob⟩ := hnames
    obtain ⟨old, hold, rfl⟩ := Table.mem_update.mp hrow
    split at hblob
    · exact .inr (Option.some.inj hblob).symm
    · exact .inl ⟨old, hold, hblob⟩

theorem names_recordParse {args : RecordParse} {after : MirrorDatabase}
    (hok : recordAttachmentParse args db = .ok ((), after)) (hnames : Names after blobId) :
    Names db blobId := by
  unfold recordAttachmentParse at hok
  split at hok
  · cases hok
  · dsimp only at hok
    split at hok
    · cases hok
    · cases hok
      obtain ⟨row, hrow, hblob⟩ := hnames
      obtain ⟨old, hold, rfl⟩ := Table.mem_update.mp hrow
      refine ⟨old, hold, ?_⟩
      split at hblob
      · exact hblob
      · exact hblob

end IMRepository

namespace BlobFiles

variable {files : BlobFiles} {blobId other : String} {content : List UInt8}

theorem contains_put_self : (files.put blobId content).contains blobId = true := by
  unfold put
  split
  · rename_i hthere
    exact hthere
  · rw [Dict.contains_iff_get?]
    exact ⟨content, Dict.get?_set_self _ _ _⟩

theorem contains_put (hthere : files.contains other = true) :
    (files.put blobId content).contains other = true := by
  by_cases hsame : other = blobId
  · subst hsame
    exact contains_put_self
  · unfold put
    split
    · exact hthere
    · rw [Dict.contains_iff_get?, Dict.get?_set_ne _ _ hsame]
      exact (Dict.contains_iff_get? _ _).mp hthere

theorem contains_erase (hne : other ≠ blobId) (hthere : files.contains other = true) :
    Dict.contains (files.erase blobId) other = true := by
  rw [Dict.contains_iff_get?, Dict.get?_erase_ne _ hne]
  exact (Dict.contains_iff_get? _ _).mp hthere

end BlobFiles

namespace BlobSystem

variable {s t : BlobSystem} {service : AttachmentService}

/-- Every blob that an attachment row names has its file. -/
def FilesPresent (s : BlobSystem) : Prop :=
  ∀ blobId, Names s.db blobId → s.files.contains blobId = true

/-- A deletion of a file hits no blob that an attachment row names or that a load is about to
record. -/
def sparesLive (s : BlobSystem) : BlobLabel → Prop
  | .delete i => ∀ pending rest, s.cleanups[i]? = some (pending :: rest) →
      ¬ Names s.db pending.blobId ∧ ∀ load ∈ s.loads, holds pending.blobId load = false
  | _ => True

/-- No load has put the blob between the transaction that gave it up and the deletion of its file,
nor was one about to record it when that transaction committed. -/
def uncontended (s : BlobSystem) : BlobLabel → Bool
  | .delete i =>
      match s.cleanups[i]? with
      | some (pending :: _) => !pending.contended
      | _ => true
  | _ => true

structure Invariant (s : BlobSystem) : Prop where
  present : FilesPresent s
  held : ∀ load ∈ s.loads, ∀ blobId, holds blobId load = true → s.files.contains blobId = true
  pending : ∀ cleanup ∈ s.cleanups, ∀ pending ∈ cleanup, pending.contended = false →
    ¬ Names s.db pending.blobId ∧ ∀ load ∈ s.loads, holds pending.blobId load = false

theorem invariant_init : Invariant {} := by
  refine ⟨?_, ?_, ?_⟩
  · rintro blobId ⟨row, hrow, _⟩
    cases hrow
  · intro load hload
    cases hload
  · intro cleanup hcleanup
    cases hcleanup

/-- A transaction that makes no row name a blob. -/
theorem Invariant.transact (hinv : Invariant s) {db : MirrorDatabase}
    (hnames : ∀ blobId, Names db blobId → Names s.db blobId) : Invariant { s with db } := by
  refine ⟨?_, hinv.held, ?_⟩
  · intro blobId hnamed
    exact hinv.present blobId (hnames blobId hnamed)
  · intro cleanup hcleanup pending hpending hfree
    obtain ⟨hunnamed, hunheld⟩ := hinv.pending cleanup hcleanup pending hpending hfree
    exact ⟨fun hnamed => hunnamed (hnames _ hnamed), hunheld⟩

theorem mem_setPhase {i : Nat} {load other : Loading} {phase : LoadPhase}
    (hmem : other ∈ (s.setPhase i load phase).loads) :
    other ∈ s.loads ∨ other = { load with phase } :=
  List.mem_or_eq_of_mem_set hmem

/-- A load that moves on without holding a blob. -/
theorem Invariant.setPhase (hinv : Invariant s) {i : Nat} {load : Loading} {phase : LoadPhase}
    (hfree : ∀ blobId, holds blobId { load with phase } = false) :
    Invariant (s.setPhase i load phase) := by
  refine ⟨hinv.present, ?_, ?_⟩
  · intro other hother blobId hholds
    rcases mem_setPhase hother with hold | rfl
    · exact hinv.held other hold blobId hholds
    · rw [hfree] at hholds
      cases hholds
  · intro cleanup hcleanup pending hpending hclear
    obtain ⟨hunnamed, hunheld⟩ := hinv.pending cleanup hcleanup pending hpending hclear
    refine ⟨hunnamed, ?_⟩
    intro other hother
    rcases mem_setPhase hother with hold | rfl
    · exact hunheld other hold
    · exact hfree _

theorem holds_parsePhase (load : Loading) (row : AttachmentRow) (known : String)
    (content : List UInt8) (blobId : String) :
    holds blobId { load with phase := service.parsePhase row known content } = false := by
  unfold parsePhase
  split <;> rfl

theorem holds_authorized (load : Loading) (files : BlobFiles) (permits : Bool)
    (found : Option AttachmentRow) (blobId : String) :
    holds blobId { load with phase := service.authorized files permits found } = false := by
  unfold authorized
  split
  · rfl
  · split
    · rfl
    · split
      · split <;> rfl
      · split
        · rfl
        · exact holds_parsePhase _ _ _ _ _

/-- A download that goes on to record its blob has put it. -/
theorem downloaded_put {files after : BlobFiles} {permits : Bool} {row recorded : AttachmentRow}
    {answer : Except PyError (Option (List UInt8))} {content : List UInt8} {blobId : String}
    (h : service.downloaded files permits row answer = (.recording recorded content blobId, after)) :
    after = files.put blobId content := by
  unfold downloaded at h
  split at h
  · cases h
  · cases h
  · split at h
    · cases h
    · split at h
      · cases h
        rfl
      · cases h

theorem invariant_put (hinv : Invariant s) {i : Nat} {load : Loading} {row : AttachmentRow}
    {content : List UInt8} {blobId : String} :
    Invariant { s.setPhase i load (.recording row content blobId) with
      files := s.files.put blobId content, cleanups := contend blobId s.cleanups } := by
  have hnewHolds (other : String)
      (hholds : holds other { load with phase := .recording row content blobId } = true) :
      blobId = other := of_decide_eq_true hholds
  refine ⟨?_, ?_, ?_⟩
  · intro other hnamed
    exact BlobFiles.contains_put (hinv.present other hnamed)
  · intro other hother held hholds
    rcases mem_setPhase hother with hold | rfl
    · exact BlobFiles.contains_put (hinv.held other hold held hholds)
    · obtain rfl := hnewHolds held hholds
      exact BlobFiles.contains_put_self
  · intro cleanup hcleanup pending hpending hclear
    obtain ⟨old, hold, rfl⟩ := List.mem_map.mp hcleanup
    obtain ⟨before, hbefore, rfl⟩ := List.mem_map.mp hpending
    by_cases hsame : before.blobId = blobId
    · rw [if_pos hsame] at hclear
      cases hclear
    · rw [if_neg hsame] at hclear ⊢
      obtain ⟨hunnamed, hunheld⟩ := hinv.pending old hold before hbefore hclear
      refine ⟨hunnamed, ?_⟩
      intro other hother
      rcases mem_setPhase hother with hthere | rfl
      · exact hunheld other hthere
      · exact decide_eq_false fun h => hsame h.symm

theorem invariant_record (hinv : Invariant s) {i : Nat} {load : Loading} {row : AttachmentRow}
    {content : List UInt8} {blobId : String} {db : MirrorDatabase}
    (hload : s.loads[i]? = some load) (hphase : load.phase = .recording row content blobId)
    (hok : recordAttachmentBlob (blobRecord load row content blobId) s.db = .ok ((), db)) :
    Invariant { s.setPhase i load (service.parsePhase row blobId content) with db } := by
  have hmem : load ∈ s.loads := List.mem_of_getElem? hload
  have hholds : holds blobId load = true := by
    unfold holds
    rw [hphase]
    exact decide_eq_true rfl
  have hmoved : Invariant (s.setPhase i load (service.parsePhase row blobId content)) :=
    hinv.setPhase (holds_parsePhase load row blobId content)
  refine ⟨?_, hmoved.held, ?_⟩
  · intro other hnamed
    rcases names_recordBlob hok hnamed with hold | hnew
    · exact hinv.present other hold
    · rw [hnew]
      exact hinv.held load hmem blobId hholds
  · intro cleanup hcleanup pending hpending hclear
    refine ⟨?_, (hmoved.pending cleanup hcleanup pending hpending hclear).2⟩
    obtain ⟨hunnamed, hunheld⟩ := hinv.pending cleanup hcleanup pending hpending hclear
    intro hnamed
    rcases names_recordBlob hok hnamed with hold | hnew
    · exact hunnamed hold
    · have hfree := hunheld load hmem
      rw [hnew] at hfree
      exact Bool.noConfusion (hholds.symm.trans hfree)

theorem invariant_lifecycle (hinv : Invariant s) (work : LifecycleWork) :
    Invariant { s with
      db := (work.apply s.db).2
      cleanups := s.cleanups ++
        [(work.apply s.db).1.map fun blobId => ⟨blobId, s.loads.any (holds blobId)⟩] } := by
  have hkept := hinv.transact fun _ => (names_lifecycle work).1
  refine ⟨hkept.present, hkept.held, ?_⟩
  intro cleanup hcleanup pending hpending hclear
  rcases List.mem_append.mp hcleanup with hold | hnew
  · exact hkept.pending cleanup hold pending hpending hclear
  · obtain rfl := List.mem_singleton.mp hnew
    obtain ⟨blobId, hgiven, rfl⟩ := List.mem_map.mp hpending
    refine ⟨(names_lifecycle work).2 hgiven, ?_⟩
    intro load hload
    have hnone := List.any_eq_false.mp hclear load hload
    simpa using hnone

theorem sparesLive_of_uncontended (hinv : Invariant s) {l : BlobLabel}
    (hguard : uncontended s l = true) : sparesLive s l := by
  cases l with
  | delete i =>
      intro pending rest hnext
      unfold uncontended at hguard
      dsimp only at hguard
      rw [hnext] at hguard
      exact hinv.pending _ (List.mem_of_getElem? hnext) pending List.mem_cons_self
        (by simpa using hguard)
  | _ => trivial

theorem invariant_delete (hinv : Invariant s) {i : Nat} {pending : PendingDeletion}
    {rest : List PendingDeletion} (hnext : s.cleanups[i]? = some (pending :: rest))
    (hspares : sparesLive s (.delete i)) :
    Invariant { s with
      files := s.files.erase pending.blobId, cleanups := s.cleanups.set i rest } := by
  obtain ⟨hunnamed, hunheld⟩ := hspares pending rest hnext
  refine ⟨?_, ?_, ?_⟩
  · intro blobId hnamed
    refine BlobFiles.contains_erase ?_ (hinv.present blobId hnamed)
    rintro rfl
    exact hunnamed hnamed
  · intro load hload blobId hholds
    refine BlobFiles.contains_erase ?_ (hinv.held load hload blobId hholds)
    rintro rfl
    exact Bool.noConfusion (hholds.symm.trans (hunheld load hload))
  · intro cleanup hcleanup other hother hclear
    rcases List.mem_or_eq_of_mem_set hcleanup with hold | rfl
    · exact hinv.pending cleanup hold other hother hclear
    · exact hinv.pending _ (List.mem_of_getElem? hnext) other (List.mem_cons_of_mem _ hother) hclear

theorem invariant_step {l : BlobLabel} (hinv : Invariant s) (hguard : uncontended s l = true)
    (hstep : step service s l = some t) : Invariant t := by
  cases l with
  | upsert message =>
      cases hstep
      exact hinv.transact fun _ => names_upsert
  | restore chat nowMs =>
      cases hstep
      exact hinv.transact fun _ hnamed => hnamed
  | runtime op =>
      cases hstep
      exact hinv.transact fun _ hnamed => hnamed
  | load request nowMs =>
      cases hstep
      refine ⟨hinv.present, ?_, ?_⟩
      · intro load hload blobId hholds
        rcases List.mem_append.mp hload with hold | hnew
        · exact hinv.held load hold blobId hholds
        · obtain rfl := List.mem_singleton.mp hnew
          cases hholds
      · intro cleanup hcleanup pending hpending hclear
        obtain ⟨hunnamed, hunheld⟩ := hinv.pending cleanup hcleanup pending hpending hclear
        refine ⟨hunnamed, ?_⟩
        intro load hload
        rcases List.mem_append.mp hload with hold | hnew
        · exact hunheld load hold
        · obtain rfl := List.mem_singleton.mp hnew
          rfl
  | getAttachment i permits =>
      dsimp only [step] at hstep
      split at hstep
      · split at hstep
        · cases hstep
          exact hinv.setPhase (holds_authorized _ _ _ _)
        · cases hstep
      · cases hstep
  | download i permits answer =>
      dsimp only [step] at hstep
      split at hstep
      · split at hstep
        · split at hstep
          · rename_i hput
            cases hstep
            rw [downloaded_put hput]
            exact invariant_put hinv
          · rename_i hother _
            cases hstep
            refine hinv.setPhase ?_
            intro blobId
            unfold holds
            split
            · rename_i row content held hphase
              exact (hother row content held hphase).elim
            · rfl
        · cases hstep
      · cases hstep
  | recordBlob i =>
      dsimp only [step] at hstep
      split at hstep
      · rename_i hload
        split at hstep
        · rename_i hphase
          split at hstep
          · cases hstep
            exact hinv.setPhase fun _ => rfl
          · rename_i hok
            cases hstep
            exact invariant_record hinv hload hphase hok
        · cases hstep
      · cases hstep
  | recordParse i =>
      dsimp only [step] at hstep
      split at hstep
      · split at hstep
        · split at hstep
          · cases hstep
            exact hinv.setPhase fun _ => rfl
          · rename_i hok
            cases hstep
            have hdb := hinv.transact fun _ => names_recordParse hok
            exact hdb.setPhase fun _ => rfl
        · cases hstep
      · cases hstep
  | raised i e =>
      dsimp only [step] at hstep
      split at hstep
      · split at hstep
        · cases hstep
        · cases hstep
        · cases hstep
          exact hinv.setPhase fun _ => rfl
      · cases hstep
  | lifecycle work =>
      cases hstep
      exact invariant_lifecycle hinv work
  | delete i =>
      have hspares := sparesLive_of_uncontended hinv hguard
      dsimp only [step] at hstep
      split at hstep
      · rename_i hnext
        cases hstep
        exact invariant_delete hinv hnext hspares
      · cases hstep

/-- Loads and cleanups in any order: as long as no blob is put while its deletion is outstanding,
every blob that a row names has its file, and no deletion hits a blob that is in use. -/
theorem files_present (service : AttachmentService) (ls : List BlobLabel)
    (hguard : Along (step service) (fun s l => uncontended s l = true) ls {}) :
    Always (step service) FilesPresent ls {} ∧ Along (step service) sparesLive ls {} := by
  have hkeep (s : BlobSystem) (l : BlobLabel) (t : BlobSystem) (hinv : Invariant s)
      (hl : uncontended s l = true) (hstep : step service s l = some t) : Invariant t :=
    invariant_step hinv hl hstep
  exact ⟨always_of_invariant hkeep (fun _ hinv => hinv.present) invariant_init hguard,
    along_of_invariant hkeep (fun _ _ hinv hl => sparesLive_of_uncontended hinv hl)
      invariant_init hguard⟩

private def rowsHaveFiles (s : BlobSystem) : Bool :=
  s.db.attachments.all fun row => row.blobId.all fun blobId => s.files.contains blobId

private theorem rowsHaveFiles_of_present (s : BlobSystem) (hpresent : FilesPresent s) :
    rowsHaveFiles s = true := by
  refine List.all_eq_true.mpr ?_
  intro row hrow
  cases hblob : row.blobId with
  | none => rfl
  | some blobId => exact hpresent blobId ⟨row, hrow, hblob⟩

/-- The only bytes that are downloaded below are `hi`. -/
private def hiDigest : String := "8f434346648f6b96df89dda901c5176b10a6d83961dd3c1ac88b59b2dc327aa4"

private def plainText : AttachmentService :=
  { opaqueDigest := fun _ => hiDigest
    parse := fun _ _ => .ok { state := .parsed, contentKind := "text", content := some "hi" } }

private def noteMessage (messageId : String)
    (hid : IMMentionTaskHandler.strip messageId ≠ "" := by decide) : MirroredMessage :=
  { eventId := "event-1", tenantKey := "tenant", appId := "app", chatId := "chat"
    chatType := "group", messageId := messageId, messageType := "file", senderId := "user"
    senderType := "user", bodyText := "", mentions := [], occurredAtMs := 1, receivedAtMs := 2
    attachments := [{ resourceKey := "note", resourceType := "file", filename := some "note.txt" }]
    identified := by simpa using ⟨by decide, by decide, by decide, by decide, hid, by decide⟩ }

private def noteLoad (messageId : String) : BlobLabel :=
  .load ⟨⟨"tenant", "app", "chat"⟩, messageId, "note"⟩ 3

private def recallOf (messageId : String) : BlobLabel :=
  .lifecycle (.invalidate ⟨⟨"tenant", "app", "chat"⟩, messageId, 5, 6⟩)

/-- Two messages with the same file; the first one is loaded. -/
private def firstLoaded : List BlobLabel :=
  [.upsert (noteMessage "message-1"), .upsert (noteMessage "message-2"), noteLoad "message-1",
    .getAttachment 0 true, .download 0 true (.ok (some [104, 105])), .recordBlob 0, .recordParse 0,
    noteLoad "message-2", .getAttachment 1 true]

/-- The file of the first message is deleted before the load of the second one puts it again. -/
theorem files_present_put_again :
    let ls := firstLoaded ++ [recallOf "message-1", .delete 0,
      .download 1 true (.ok (some [104, 105])), .recordBlob 1, .recordParse 1]
    Always (step plainText) FilesPresent ls {} ∧ Along (step plainText) sparesLive ls {} :=
  files_present plainText _ (along_of_check (fun _ _ hfree => hfree) (by decide +kernel))

/-- The load of the second message reuses the file while it waits to record the blob; the recall of
the first message commits, and its cleanup deletes the file. -/
theorem reused_file_deleted :
    ¬ Always (step plainText) FilesPresent (firstLoaded ++
      [.download 1 true (.ok (some [104, 105])), recallOf "message-1", .delete 0, .recordBlob 1])
      {} :=
  not_always_of_check rowsHaveFiles_of_present (by decide +kernel)

end BlobSystem

end Codex2Lark
