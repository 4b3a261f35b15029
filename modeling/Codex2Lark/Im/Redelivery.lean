import Codex2Lark.Im.Convergence

/-!
A message that arrives again at the version that the mirror holds, with the same attachments: what
`upsert_message` leaves of their downloads and parse results.
-/

namespace Codex2Lark

open Lib IMRepository

namespace AttachmentRow

/-- What a download and a parse have recorded of an attachment. -/
structure Ingested where
  blobId : Option String
  downloadState : DownloadState
  parseState : ParseState
  parsedContent : Option String
  warningCode : Option String
deriving DecidableEq, Repr

def ingested (row : AttachmentRow) : Ingested :=
  ⟨row.blobId, row.downloadState, row.parseState, row.parsedContent, row.warningCode⟩

/-- A row as `upsert_message` inserts it: neither downloaded nor parsed. -/
def Untouched (row : AttachmentRow) : Prop := row.ingested = ⟨none, .referenced, .notParsed, none, none⟩

instance (row : AttachmentRow) : Decidable row.Untouched := inferInstanceAs (Decidable (_ = _))

theorem untouched_attachmentRow (message : MirroredMessage) (attachment : AttachmentReference) :
    (attachmentRow message attachment).Untouched := rfl

end AttachmentRow

namespace IMRepository

variable {message : MirroredMessage} {db : MirrorDatabase}

def findAttachment (db : MirrorDatabase) (key : AttachmentKey) : Option AttachmentRow :=
  db.attachments.find? fun row => row.key = key

/-- The mirror holds the message at this version, with these attachments. -/
structure Redelivers (message : MirroredMessage) (db : MirrorDatabase) : Prop where
  /-- The primary key. -/
  keys : (db.attachments.map AttachmentRow.key).Nodup
  version : ∃ row, findMessage db message.key = some row ∧
    row.updatedAtSourceMs = message.sourceVersionMs
  attachments : ∀ resourceKey, resourceKey ∈ message.attachments.map AttachmentReference.resourceKey ↔
    ∃ row ∈ db.attachments, row.key = ⟨message.key, resourceKey⟩
  distinct : (message.attachments.map AttachmentReference.resourceKey).Nodup

/-- The version guard of `upsert_message` for the version that the mirror holds. -/
def refusesAgain (message : MirroredMessage) (db : MirrorDatabase) : Bool :=
  (findMessage db message.key).any MessageRow.isGone && !message.isGone

theorem upsert_attachments_of_not_accepted (hredelivers : Redelivers message db)
    (hkept : isRevoked db message.chatKey = true ∨ refusesAgain message db = true) :
    ((MessageWrite.upsert message).apply db).attachments = db.attachments := by
  obtain ⟨row, hrow, hversion⟩ := hredelivers.version
  refine upsert_rule (P := fun after => after.attachments = db.attachments) message db
    fun result hcases => ?_
  cases hcases with
  | revoked _ => rfl
  | ignored _ _ _ => rfl
  | refused _ _ => rfl
  | accepted hopen hnewer _ _ =>
      rcases hkept with hrevoked | hrefused
      · rw [hopen] at hrevoked
        cases hrevoked
      · -- the guard stands in the way of this version
        obtain ⟨hgone, hlive⟩ : row.isGone = true ∧ message.isGone = false := by
          simpa [refusesAgain, hrow] using hrefused
        have holder : message.version < row.version :=
          (ignored_iff message row).mp (.inr ⟨hversion, hgone, by simp [hlive]⟩)
        exact absurd (hnewer row hrow) (not_le.mpr holder)

theorem upsert_attachments_of_accepted (hredelivers : Redelivers message db)
    (hopen : isRevoked db message.chatKey = false) (haccepts : refusesAgain message db = false) :
    ((MessageWrite.upsert message).apply db).attachments =
      Table.delete (fun row => row.key.message = message.key) db.attachments ++
        message.attachments.map (attachmentRow message) := by
  obtain ⟨row, hrow, hversion⟩ := hredelivers.version
  refine upsert_rule (P := fun after => after.attachments =
    Table.delete (fun row => row.key.message = message.key) db.attachments ++
      message.attachments.map (attachmentRow message)) message db fun result hcases => ?_
  cases hcases with
  | revoked hrevoked =>
      rw [hopen] at hrevoked
      cases hrevoked
  | ignored _ hfound holder =>
      obtain rfl := Option.some.inj (hrow.symm.trans hfound)
      rcases (ignored_iff message row).mpr holder with hnewer | ⟨-, hgone, hlive⟩
      · omega
      · simp [refusesAgain, hrow, hgone, hlive] at haccepts
  | refused _ hkeys => exact absurd hredelivers.distinct hkeys
  | accepted _ _ _ _ => rfl

/-- The attachments of other messages. -/
theorem findAttachment_other (key : AttachmentKey) (hother : key.message ≠ message.key) :
    (Table.delete (fun row => row.key.message = message.key) db.attachments ++
        message.attachments.map (attachmentRow message)).find? (fun row => row.key = key) =
      findAttachment db key := by
  have hnew : (message.attachments.map (attachmentRow message)).find?
      (fun row => row.key = key) = none := by
    refine List.find?_eq_none.mpr ?_
    intro row hrow
    obtain ⟨attachment, _, rfl⟩ := List.mem_map.mp hrow
    rintro hkey
    have hkey : (attachmentRow message attachment).key = key := by simpa using hkey
    exact hother (congrArg AttachmentKey.message hkey).symm
  rw [List.find?_append, hnew, Option.or_none, Table.find?_delete_of_spared]
  · rfl
  · rintro row _ rfl
    simpa using hother

/-- The attachments of the message are rows as they are inserted. -/
theorem findAttachment_own (hredelivers : Redelivers message db) (key : AttachmentKey)
    (hown : key.message = message.key) :
    ((Table.delete (fun row => row.key.message = message.key) db.attachments ++
        message.attachments.map (attachmentRow message)).find? fun row => row.key = key).map
          AttachmentRow.ingested =
      (findAttachment db key).map fun _ => ⟨none, .referenced, .notParsed, none, none⟩ := by
  have hold : (Table.delete (fun row => row.key.message = message.key) db.attachments).find?
      (fun row => row.key = key) = none := by
    refine List.find?_eq_none.mpr ?_
    intro row hrow hkey
    have hspared := (Table.mem_delete.mp hrow).2
    have hkey : row.key = key := by simpa using hkey
    simp [hkey, hown] at hspared
  have hlisted : key.resourceKey ∈ message.attachments.map AttachmentReference.resourceKey ↔
      (findAttachment db key).isSome = true := by
    rw [hredelivers.attachments, findAttachment, List.find?_isSome, ← hown]
    simp
  rw [List.find?_append, hold, Option.none_or, List.find?_map]
  cases hfound : message.attachments.find?
      ((fun row : AttachmentRow => decide (row.key = key)) ∘ attachmentRow message) with
  | some attachment =>
      have hmatch : (attachmentRow message attachment).key = key := by
        simpa using List.find?_some hfound
      have hmem : key.resourceKey ∈ message.attachments.map AttachmentReference.resourceKey :=
        List.mem_map.mpr ⟨attachment, List.mem_of_find?_eq_some hfound,
          congrArg AttachmentKey.resourceKey hmatch⟩
      obtain ⟨row, hrow⟩ := Option.isSome_iff_exists.mp (hlisted.mp hmem)
      rw [hrow]
      exact congrArg some (AttachmentRow.untouched_attachmentRow message attachment)
  | none =>
      cases hrow : findAttachment db key with
      | none => rfl
      | some row =>
          obtain ⟨attachment, hmem, hkey⟩ := List.mem_map.mp (hlisted.mpr (by simp [hrow]))
          refine absurd ?_ (List.find?_eq_none.mp hfound attachment hmem)
          have hmatch : (attachmentRow message attachment).key = key := by
            unfold attachmentRow
            rw [hkey, ← hown]
          simpa using hmatch

/-- A redelivery leaves what was downloaded and parsed when it is not stored, or when there was
nothing to lose. -/
theorem redelivery_keeps_iff (hredelivers : Redelivers message db) :
    (∀ key, (findAttachment ((MessageWrite.upsert message).apply db) key).map
        AttachmentRow.ingested = (findAttachment db key).map AttachmentRow.ingested) ↔
      isRevoked db message.chatKey = true ∨ refusesAgain message db = true ∨
        ∀ row ∈ db.attachments, row.key.message = message.key → row.Untouched := by
  by_cases hkept : isRevoked db message.chatKey = true ∨ refusesAgain message db = true
  · have hsame := upsert_attachments_of_not_accepted hredelivers hkept
    refine iff_of_true ?_ (or_assoc.mp (.inl hkept))
    intro key
    unfold findAttachment
    rw [hsame]
  · obtain ⟨hopen, haccepts⟩ := not_or.mp hkept
    have hstored := upsert_attachments_of_accepted hredelivers (Bool.eq_false_iff.mpr hopen)
      (Bool.eq_false_iff.mpr haccepts)
    have hafter (key : AttachmentKey) : findAttachment ((MessageWrite.upsert message).apply db) key =
        (Table.delete (fun row => row.key.message = message.key) db.attachments ++
          message.attachments.map (attachmentRow message)).find? fun row => row.key = key := by
      rw [findAttachment, hstored]
    constructor
    · intro hunchanged
      refine .inr (.inr ?_)
      intro row hrow hown
      have hlookup : findAttachment db row.key = some row :=
        (Table.find?_key_iff hredelivers.keys).mpr ⟨hrow, rfl⟩
      have hreset := hunchanged row.key
      rw [hafter, findAttachment_own hredelivers row.key hown, hlookup] at hreset
      exact (Option.some.inj hreset).symm
    · rintro (hrevoked | hrefused | huntouched) key
      · exact absurd hrevoked hopen
      · exact absurd hrefused haccepts
      · rw [hafter]
        by_cases hown : key.message = message.key
        · rw [findAttachment_own hredelivers key hown]
          cases hrow : findAttachment db key with
          | none => rfl
          | some row =>
              obtain ⟨hmem, rfl⟩ := (Table.find?_key_iff hredelivers.keys).mp hrow
              exact congrArg some (huntouched row hmem hown).symm
        · rw [findAttachment_other key hown]

private def notice : MirroredMessage :=
  { eventId := "event-1", tenantKey := "tenant", appId := "app", chatId := "chat"
    chatType := "group", messageId := "message-1", messageType := "file", senderId := "user"
    senderType := "user", bodyText := "", mentions := [], occurredAtMs := 1, receivedAtMs := 3
    attachments := [{ resourceKey := "file-1", resourceType := "file" }] }

private def blobOf : RecordBlob :=
  ⟨⟨notice.key, "file-1"⟩, "chat", "blob-1", 10, none, 4⟩

private def textOf : RecordParse := ⟨⟨notice.key, "file-1"⟩, "chat", some "text", .parsed, none⟩

private theorem redelivers_notice {db : MirrorDatabase}
    (hmessage : (findMessage db notice.key).map MessageRow.updatedAtSourceMs = some 1)
    (hrows : db.attachments.map AttachmentRow.key = [⟨notice.key, "file-1"⟩]) :
    Redelivers notice db := by
  refine ⟨by simp [hrows], ?_, ?_, by decide⟩
  · obtain ⟨row, hrow, hversion⟩ := Option.map_eq_some_iff.mp hmessage
    exact ⟨row, hrow, hversion⟩
  · intro resourceKey
    have hkey : (∃ row ∈ db.attachments, row.key = ⟨notice.key, resourceKey⟩) ↔
        (⟨notice.key, resourceKey⟩ : AttachmentKey) ∈ db.attachments.map AttachmentRow.key := by
      simp
    rw [hkey, hrows]
    simp [notice]

/-- The mirror holds the message as recalled, with its file downloaded and parsed; the version guard
ignores the message that arrives as it was before. -/
theorem redelivery_keeps_recalled :
    let recalled := { notice with isRecalled := true }
    let db := (MirrorOp.recordParse textOf).apply
      ((MirrorOp.recordBlob blobOf).apply ((MessageWrite.upsert recalled).apply {}))
    (findAttachment db blobOf.key).map AttachmentRow.ingested =
        some ⟨some "blob-1", .downloaded, .parsed, some "text", none⟩ ∧
      ∀ key, (findAttachment ((MessageWrite.upsert notice).apply db) key).map
        AttachmentRow.ingested = (findAttachment db key).map AttachmentRow.ingested := by
  intro recalled db
  refine ⟨by decide +kernel, ?_⟩
  refine (redelivery_keeps_iff (redelivers_notice (by decide +kernel) (by decide +kernel))).mpr
    (.inr (.inl ?_))
  decide +kernel

/-- The file has been downloaded and parsed; the message arrives again, and the mirror forgets it. -/
theorem redelivery_forgets_download :
    let db := (MirrorOp.recordParse textOf).apply
      ((MirrorOp.recordBlob blobOf).apply ((MessageWrite.upsert notice).apply {}))
    Redelivers notice db ∧
      (findAttachment db blobOf.key).map AttachmentRow.ingested =
        some ⟨some "blob-1", .downloaded, .parsed, some "text", none⟩ ∧
      (findAttachment ((MessageWrite.upsert notice).apply db) blobOf.key).map
        AttachmentRow.ingested = some ⟨none, .referenced, .notParsed, none, none⟩ := by
  intro db
  exact ⟨redelivers_notice (by decide +kernel) (by decide +kernel), by decide +kernel,
    by decide +kernel⟩

end IMRepository

end Codex2Lark
