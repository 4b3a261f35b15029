import Codex2Lark.Im.Mirror
import Mathlib.Data.List.MinMax
import Mathlib.Data.Prod.Lex
import Mathlib.Data.Int.ConditionallyCompleteOrder
import Mathlib.Order.ConditionallyCompleteLattice.Basic

/-!
Convergence of the mirror. Of one message the mirror keeps the greatest version that was
applied, a recall or a deletion counting as later than the content of the same source version;
so the order of delivery does not matter.
-/

namespace Codex2Lark

open Lib IMRepository

/-- A source version with the mark of a recall or a deletion. -/
abbrev MessageVersion := ℤ ×ₗ Bool

def MessageRow.version (row : MessageRow) : MessageVersion :=
  toLex (row.updatedAtSourceMs, row.isGone)

/-- The version that the mirror holds of a message. -/
def mirrored (db : MirrorDatabase) (key : MessageKey) : WithBot MessageVersion :=
  match findMessage db key with
  | none => ⊥
  | some row => row.version

/-- What a write brings; a message that names an attachment twice cannot be stored. -/
def MessageWrite.version? : MessageWrite → Option MessageVersion
  | .upsert message =>
      if (message.attachments.map AttachmentReference.resourceKey).Nodup then
        some (toLex (message.sourceVersionMs, message.isGone))
      else none
  | .invalidate args => some (toLex (args.sourceVersionMs, true))

/-- The versions of the message that the history applies. -/
def applied (key : MessageKey) (history : List MessageWrite) : List MessageVersion :=
  history.filterMap fun write => if write.key = key then write.version? else none

def MirrorDatabase.applyAll (db : MirrorDatabase) (history : List MessageWrite) : MirrorDatabase :=
  history.foldl MessageWrite.apply db

def MirroredMessage.version (message : MirroredMessage) : MessageVersion :=
  toLex (message.sourceVersionMs, message.isGone)

namespace IMRepository

variable {db : MirrorDatabase} {message : MirroredMessage} {args : Invalidation}

/-! ### What a write changes -/

theorem isRevoked_upsertChat (message : MirroredMessage) (db : MirrorDatabase) (key : ChatKey) :
    isRevoked (upsertChat message db) key = isRevoked db key := by
  unfold isRevoked findChat upsertChat
  dsimp only
  rw [Table.find?_put]
  · split
    · cases hfind : db.chats.find? fun row => row.key = key with
      | none => rfl
      | some row =>
          cases hstate : row.accessState with
          | visible => simp [hstate]
          | revoked => simp [hstate]
    · rfl
  · intro row
    rfl

/-- The version guard of `upsert_message` is the order of the versions. -/
theorem ignored_iff (message : MirroredMessage) (row : MessageRow) :
    (row.updatedAtSourceMs > message.sourceVersionMs ∨
      (row.updatedAtSourceMs = message.sourceVersionMs ∧ row.isGone ∧ ¬ message.isGone)) ↔
        message.version < row.version := by
  unfold MirroredMessage.version MessageRow.version
  rw [Prod.Lex.toLex_lt_toLex, Bool.lt_iff]
  constructor
  · rintro (hnewer | ⟨hsame, hgone, hlive⟩)
    · exact .inl hnewer
    · exact .inr ⟨hsame.symm, by simpa using hlive, hgone⟩
  · rintro (hnewer | ⟨hsame, hlive, hgone⟩)
    · exact .inl hnewer
    · exact .inr ⟨hsame.symm, hgone, by simpa using hlive⟩

/-- The tables after an accepted version. -/
def stored (message : MirroredMessage) (db : MirrorDatabase) : MirrorDatabase :=
  { db with
    messages := Table.put MessageRow.key (messageRow message)
      (fun row => { messageRow message with
        key := row.key, createdAtSourceMs := row.createdAtSourceMs }) db.messages
    attachments := Table.delete (fun row => row.key.message = message.key) db.attachments ++
      message.attachments.map (attachmentRow message) }

/-- The outcomes of `upsert_message`. -/
inductive Upserted (message : MirroredMessage) (db : MirrorDatabase) :
    Except PyError (Bool × MirrorDatabase) → Prop
  | revoked (hrevoked : isRevoked db message.chatKey = true) :
      Upserted message db (.ok (false, upsertChat message db))
  | ignored {row : MessageRow} (hopen : isRevoked db message.chatKey = false)
      (hfound : findMessage db message.key = some row) (holder : message.version < row.version) :
      Upserted message db (.ok (true, upsertChat message db))
  | accepted {runtime : Database} (hopen : isRevoked db message.chatKey = false)
      (hnewer : ∀ row, findMessage db message.key = some row → row.version ≤ message.version)
      (hkeys : (message.attachments.map AttachmentReference.resourceKey).Nodup)
      (hruntime : runtime = db.runtime ∧ (∀ row, findMessage db message.key = some row →
          row.updatedAtSourceMs = message.sourceVersionMs) ∨
        runtime = deleteCheckpoints (refersTo message.messageId) db.runtime) :
      Upserted message db (.ok (true, stored message { upsertChat message db with runtime }))
  | refused {e : PyError} (hopen : isRevoked db message.chatKey = false)
      (hkeys : ¬ (message.attachments.map AttachmentReference.resourceKey).Nodup) :
      Upserted message db (.error e)

theorem upsertMessage_cases (message : MirroredMessage) (db : MirrorDatabase) :
    Upserted message db (upsertMessage message db) := by
  unfold upsertMessage
  dsimp only
  rw [isRevoked_upsertChat]
  have hfind : findMessage (upsertChat message db) message.key = findMessage db message.key := rfl
  cases hopen : isRevoked db message.chatKey with
  | true => exact .revoked hopen
  | false =>
      rw [hfind, if_neg Bool.false_ne_true]
      have hstore (base : MirrorDatabase) (runtime : Database)
          (hbase : base = { upsertChat message db with runtime })
          (hnewer : ∀ row, findMessage db message.key = some row → row.version ≤ message.version)
          (hruntime : runtime = db.runtime ∧ (∀ row, findMessage db message.key = some row →
              row.updatedAtSourceMs = message.sourceVersionMs) ∨
            runtime = deleteCheckpoints (refersTo message.messageId) db.runtime) :
          Upserted message db (storeMessage message base) := by
        subst hbase
        unfold storeMessage
        split
        · rename_i hkeys
          exact .accepted hopen hnewer hkeys hruntime
        · rename_i hkeys
          exact .refused hopen hkeys
      cases hfound : findMessage db message.key with
      | none =>
          have hnever (P : MessageRow → Prop) : ∀ row, findMessage db message.key = some row → P row := by
            rw [hfound]
            intro row hrow
            cases hrow
          exact hstore _ db.runtime rfl (hnever _) (.inl ⟨rfl, hnever _⟩)
      | some row =>
          have hit (P : MessageRow → Prop) (hrow : P row) :
              ∀ other, findMessage db message.key = some other → P other := by
            intro other hother
            rw [hfound] at hother
            obtain rfl := Option.some.inj hother
            exact hrow
          dsimp only
          by_cases holder : message.version < row.version
          · rw [if_pos ((ignored_iff message row).mpr holder)]
            exact .ignored hopen hfound holder
          · rw [if_neg (mt (ignored_iff message row).mp holder)]
            have hnewer := hit (fun row => row.version ≤ message.version) (not_lt.mp holder)
            split
            · exact hstore _ (deleteCheckpoints (refersTo message.messageId) db.runtime) rfl hnewer
                (.inr rfl)
            · rename_i hsame
              exact hstore _ db.runtime rfl hnewer (.inl ⟨rfl, hit (fun row => row.updatedAtSourceMs = message.sourceVersionMs)
                  (not_not.mp hsame)⟩)

/-- What holds of the mirror that each outcome of an upsert leaves holds after the upsert. -/
theorem upsert_rule {P : MirrorDatabase → Prop} (message : MirroredMessage) (db : MirrorDatabase)
    (houtcome : ∀ result, Upserted message db result → P (db.committed fun _ => result)) :
    P (db.committed (upsertMessage message)) :=
  houtcome _ (upsertMessage_cases message db)

theorem version_stored (message : MirroredMessage) (db : MirrorDatabase) (key : MessageKey) :
    (findMessage (stored message db) key).map MessageRow.version =
      if key = message.key then some message.version
      else (findMessage db key).map MessageRow.version := by
  have hkeyOf : (messageRow message).key = message.key := rfl
  unfold findMessage stored
  dsimp only
  rw [Table.find?_put]
  · rw [hkeyOf]
    by_cases hkey : key = message.key
    · rw [if_pos hkey, if_pos hkey]
      cases db.messages.find? fun row => row.key = key with
      | none => rfl
      | some row => rfl
    · rw [if_neg hkey, if_neg hkey]
  · intro row
    rfl

theorem isRevoked_invalidateMessage (args : Invalidation) (db : MirrorDatabase) (key : ChatKey) :
    isRevoked (invalidateMessage args db).2 key = isRevoked db key := by
  unfold invalidateMessage
  dsimp only
  split
  · rfl
  · unfold isRevoked findChat dropUnreferencedBlobMetadata
    dsimp only
    rw [Table.find?_put]
    · split
      · cases db.chats.find? fun row => row.key = key with
        | none => rfl
        | some row => rfl
      · rfl
    · intro row
      rfl

/-- A tombstone is older than any later content and newer than the content of its version. -/
theorem invalidation_ignored_iff (args : Invalidation) (row : MessageRow) :
    row.updatedAtSourceMs > args.sourceVersionMs ↔
      (toLex (args.sourceVersionMs, true) : MessageVersion) < row.version := by
  unfold MessageRow.version
  rw [Prod.Lex.toLex_lt_toLex]
  constructor
  · exact fun hnewer => .inl hnewer
  · rintro (hnewer | ⟨_, hless⟩)
    · exact hnewer
    · cases (Bool.lt_iff.mp hless).1

/-- The outcomes of `invalidate_message`, as the mirror of messages goes. -/
inductive Invalidated (args : Invalidation) (db after : MirrorDatabase) : Prop
  | ignored {row : MessageRow} (hfound : findMessage db args.key = some row)
      (holder : (toLex (args.sourceVersionMs, true) : MessageVersion) < row.version)
      (hafter : after = db) : Invalidated args db after
  | accepted
      (hnewer : ∀ row, findMessage db args.key = some row →
        row.version ≤ toLex (args.sourceVersionMs, true))
      (hversion : ∀ key, (findMessage after key).map MessageRow.version =
        if key = args.key then some (toLex (args.sourceVersionMs, true))
        else (findMessage db key).map MessageRow.version)
      (hruntime : after.runtime = deleteCheckpoints (refersTo args.messageId) db.runtime) :
      Invalidated args db after

theorem invalidateMessage_cases (args : Invalidation) (db : MirrorDatabase) :
    Invalidated args db (invalidateMessage args db).2 := by
  unfold invalidateMessage
  dsimp only
  cases hfound : findMessage db args.key with
  | none =>
      rw [Option.any_none, if_neg Bool.false_ne_true, Option.isNone_none, if_pos rfl]
      refine .accepted ?_ ?_ rfl
      · rw [hfound]
        intro row hrow
        cases hrow
      intro key
      unfold findMessage dropUnreferencedBlobMetadata
      dsimp only
      rw [List.find?_append]
      by_cases hkey : key = args.key
      · subst hkey
        unfold findMessage at hfound
        rw [hfound, if_pos rfl]
        simp [tombstone, MessageRow.version, MessageRow.isGone]
      · have hother : ¬ (tombstone args).key = key := fun h => hkey h.symm
        rw [if_neg hkey, List.find?_singleton]
        simp [hother]
  | some row =>
      rw [Option.any_some, Option.isNone_some, if_neg Bool.false_ne_true]
      by_cases hguard : row.updatedAtSourceMs > args.sourceVersionMs
      · rw [if_pos (by simpa using hguard)]
        exact .ignored hfound ((invalidation_ignored_iff args row).mp hguard) rfl
      · rw [if_neg (by simpa using hguard)]
        refine .accepted ?_ ?_ rfl
        · intro other hother
          rw [hfound] at hother
          obtain rfl := Option.some.inj hother
          exact not_lt.mp (mt (invalidation_ignored_iff args row).mpr hguard)
        · intro key
          unfold findMessage dropUnreferencedBlobMetadata
          dsimp only
          rw [Table.find?_update MessageRow.key]
          · by_cases hkey : key = args.key
            · subst hkey
              unfold findMessage at hfound
              have hrow : row.key = args.key := by simpa using List.find?_some hfound
              rw [hfound, if_pos rfl]
              simp [hrow, MessageRow.version, MessageRow.isGone]
            · rw [if_neg hkey]
              cases hfind : db.messages.find? fun row => row.key = key with
              | none => rfl
              | some other =>
                  have hother : other.key = key := by simpa using List.find?_some hfind
                  have hdiffers : ¬ other.key = args.key := fun h => hkey (hother.symm.trans h)
                  simp [hdiffers]
          · intro other
            rfl

/-- What a download and a parse write. -/
theorem recordBlob_frame (args : RecordBlob) (db : MirrorDatabase) :
    ∃ fileBlobs attachments,
      (MirrorOp.recordBlob args).apply db = { db with fileBlobs, attachments } := by
  change ∃ fileBlobs attachments,
    db.committed (recordAttachmentBlob args) = { db with fileBlobs, attachments }
  unfold MirrorDatabase.committed recordAttachmentBlob
  dsimp only
  split
  · rename_i hok
    split at hok
    · cases hok
    · cases hok
      exact ⟨_, _, rfl⟩
  · exact ⟨db.fileBlobs, db.attachments, rfl⟩

theorem recordParse_frame (args : RecordParse) (db : MirrorDatabase) :
    ∃ attachments, (MirrorOp.recordParse args).apply db = { db with attachments } := by
  change ∃ attachments, db.committed (recordAttachmentParse args) = { db with attachments }
  unfold MirrorDatabase.committed recordAttachmentParse
  split
  · rename_i hok
    split at hok
    · cases hok
    · dsimp only at hok
      split at hok
      · cases hok
      · cases hok
        exact ⟨_, rfl⟩
  · exact ⟨db.attachments, rfl⟩

end IMRepository

open IMRepository

/-! ### One write -/

namespace MessageWrite

variable {db : MirrorDatabase}

theorem mirrored_eq (db : MirrorDatabase) (key : MessageKey) :
    mirrored db key = ((findMessage db key).map MessageRow.version).elim ⊥ WithBot.some := by
  unfold mirrored
  cases findMessage db key with
  | none => rfl
  | some row => rfl

/-- No write changes who may see a chat. -/
theorem isRevoked_apply (write : MessageWrite) (db : MirrorDatabase) (key : ChatKey) :
    isRevoked (write.apply db) key = isRevoked db key := by
  cases write with
  | invalidate args => exact isRevoked_invalidateMessage args db key
  | upsert message =>
      have hsame := isRevoked_upsertChat message db key
      refine upsert_rule (P := fun after => isRevoked after key = isRevoked db key) message db
        fun result hcases => ?_
      cases hcases with
      | revoked _ => exact hsame
      | ignored _ _ _ => exact hsame
      | accepted _ _ _ _ => exact hsame
      | refused _ _ => rfl

/-- Writes of other messages. -/
theorem mirrored_apply_other {write : MessageWrite} {key : MessageKey} (hother : write.key ≠ key)
    (db : MirrorDatabase) : mirrored (write.apply db) key = mirrored db key := by
  rw [mirrored_eq, mirrored_eq]
  cases write with
  | invalidate args =>
      have hkey : ¬ key = args.key := fun h => hother h.symm
      change ((findMessage (invalidateMessage args db).2 key).map _).elim _ _ = _
      cases invalidateMessage_cases args db with
      | ignored _ _ hafter => rw [hafter]
      | accepted _ hversion _ => rw [hversion, if_neg hkey]
  | upsert message =>
      have hkey : ¬ key = message.key := fun h => hother h.symm
      refine upsert_rule (P := fun after => ((findMessage after key).map MessageRow.version).elim ⊥
        WithBot.some = ((findMessage db key).map MessageRow.version).elim ⊥ WithBot.some) message db
        fun result hcases => ?_
      cases hcases with
      | revoked _ => rfl
      | ignored _ _ _ => rfl
      | accepted _ _ _ _ =>
          dsimp only [MirrorDatabase.committed]
          rw [version_stored, if_neg hkey]
          rfl
      | refused _ _ => rfl

theorem mirrored_le {key : MessageKey} {version : MessageVersion}
    (hnewer : ∀ row, findMessage db key = some row → row.version ≤ version) :
    mirrored db key ≤ version := by
  unfold mirrored
  cases hfound : findMessage db key with
  | none => exact bot_le
  | some row => exact WithBot.coe_le_coe.mpr (hnewer row hfound)

theorem mirrored_invalidate (args : Invalidation) :
    mirrored (invalidateMessage args db).2 args.key =
      max (mirrored db args.key) (toLex (args.sourceVersionMs, true) : MessageVersion) := by
  cases invalidateMessage_cases args db with
  | ignored hfound holder hafter =>
      rw [hafter, max_eq_left]
      unfold mirrored
      rw [hfound]
      exact WithBot.coe_le_coe.mpr holder.le
  | accepted hnewer hversion _ =>
      rw [max_eq_right (mirrored_le hnewer), mirrored_eq, hversion, if_pos rfl]
      rfl

/-- A write of the message leaves the greater one of the two versions; a recall does so in a
revoked chat too. -/
theorem mirrored_apply {write : MessageWrite}
    (hopen : ∀ message, write = .upsert message → isRevoked db message.chatKey = false) :
    mirrored (write.apply db) write.key =
      max (mirrored db write.key) (write.version?.elim ⊥ WithBot.some) := by
  cases write with
  | invalidate args => exact mirrored_invalidate args
  | upsert message =>
      refine upsert_rule (P := fun after => mirrored after message.key =
        max (mirrored db message.key) ((version? (.upsert message)).elim ⊥ WithBot.some)) message db
        fun result hcases => ?_
      unfold version?
      cases hcases with
      | revoked hrevoked =>
          have hclosed := hopen message rfl
          rw [hrevoked] at hclosed
          cases hclosed
      | @ignored row _ hfound holder =>
          have hsame : mirrored (upsertChat message db) message.key = mirrored db message.key := rfl
          dsimp only [MirrorDatabase.committed]
          rw [hsame, max_eq_left]
          unfold mirrored
          rw [hfound]
          split
          · exact WithBot.coe_le_coe.mpr holder.le
          · exact bot_le
      | accepted _ hnewer hkeys _ =>
          dsimp only [MirrorDatabase.committed]
          rw [if_pos hkeys, mirrored_eq, version_stored, if_pos rfl]
          exact (max_eq_right (mirrored_le hnewer)).symm
      | refused _ hkeys =>
          dsimp only [MirrorDatabase.committed]
          rw [if_neg hkeys]
          exact (max_eq_left bot_le).symm

/-- A write leaves the version of a message alone or raises it to its own. -/
theorem mirrored_apply_cases (write : MessageWrite) (db : MirrorDatabase) (key : MessageKey) :
    mirrored (write.apply db) key = mirrored db key ∨
      write.key = key ∧ ∃ version, write.version? = some version ∧
        mirrored db key ≤ version ∧ mirrored (write.apply db) key = version := by
  by_cases hkey : write.key = key
  · by_cases hrefused : ∃ message, write = .upsert message ∧ isRevoked db message.chatKey = true
    · obtain ⟨message, rfl, hrevoked⟩ := hrefused
      refine .inl (upsert_rule (P := fun after => mirrored after key = mirrored db key) message db
        fun result hcases => ?_)
      cases hcases with
      | revoked _ => rfl
      | ignored hopen _ _ => exact absurd (hopen.symm.trans hrevoked) Bool.false_ne_true
      | accepted hopen _ _ _ => exact absurd (hopen.symm.trans hrevoked) Bool.false_ne_true
      | refused hopen _ => exact absurd (hopen.symm.trans hrevoked) Bool.false_ne_true
    · have hopen : ∀ message, write = .upsert message → isRevoked db message.chatKey = false := by
        intro message hwrite
        by_contra hclosed
        exact hrefused ⟨message, hwrite, by simpa using hclosed⟩
      have hmax := mirrored_apply hopen
      rw [hkey] at hmax
      cases hversion : write.version? with
      | none =>
          rw [hversion] at hmax
          exact .inl (hmax.trans (max_eq_left bot_le))
      | some version =>
          rw [hversion] at hmax
          rcases le_total (mirrored db key) (version : WithBot MessageVersion) with hless | hmore
          · exact .inr ⟨hkey, version, rfl, hless, hmax.trans (max_eq_right hless)⟩
          · exact .inl (hmax.trans (max_eq_left hmore))
  · exact .inl (mirrored_apply_other hkey db)

end MessageWrite

/-! ### Histories -/

namespace MirrorDatabase

variable {db : MirrorDatabase} {key : MessageKey} {chat : ChatKey}

theorem isRevoked_applyAll (history : List MessageWrite) (db : MirrorDatabase) (chat : ChatKey) :
    isRevoked (db.applyAll history) chat = isRevoked db chat := by
  unfold applyAll
  induction history generalizing db with
  | nil => rfl
  | cons write rest ih => rw [List.foldl_cons, ih, MessageWrite.isRevoked_apply]

theorem applyAll_append (earlier later : List MessageWrite) (db : MirrorDatabase) :
    db.applyAll (earlier ++ later) = (db.applyAll earlier).applyAll later :=
  List.foldl_append

theorem applied_append (key : MessageKey) (earlier later : List MessageWrite) :
    applied key (earlier ++ later) = applied key earlier ++ applied key later :=
  List.filterMap_append

/-- The mirror holds the maximum of what it held and what is applied. -/
theorem mirrored_applyAll {history : List MessageWrite} (hopen : isRevoked db chat = false)
    (hchat : ∀ write ∈ history, write.key = key → write.chatKey = chat) :
    mirrored (db.applyAll history) key = max (mirrored db key) (applied key history).maximum := by
  induction history using List.reverseRecOn with
  | nil => exact (max_eq_left bot_le).symm
  | append_singleton earlier write ih =>
      have hbefore := ih fun other hother => hchat other (List.mem_append_left _ hother)
      have hstep : db.applyAll (earlier ++ [write]) = write.apply (db.applyAll earlier) := by
        rw [applyAll_append]
        rfl
      rw [hstep, applied_append]
      by_cases hkey : write.key = key
      · have hthere : ∀ message, write = .upsert message →
            isRevoked (db.applyAll earlier) message.chatKey = false := by
          rintro message rfl
          have hsame := hchat _ (List.mem_append_right _ List.mem_cons_self) hkey
          change message.chatKey = chat at hsame
          rw [isRevoked_applyAll, hsame]
          exact hopen
        have hone : applied key [write] = write.version?.toList := by
          unfold applied
          rw [List.filterMap_cons, if_pos hkey]
          cases write.version? <;> rfl
        have hwrite := MessageWrite.mirrored_apply hthere
        rw [hkey, hbefore] at hwrite
        rw [hwrite, hone]
        cases write.version? with
        | none =>
            rw [Option.toList_none, List.append_nil]
            exact max_eq_left bot_le
        | some version =>
            rw [Option.toList_some, List.maximum_concat, max_assoc]
            rfl
      · have hone : applied key [write] = [] := by
          unfold applied
          rw [List.filterMap_cons, if_neg hkey]
          rfl
        rw [MessageWrite.mirrored_apply_other hkey, hbefore, hone, List.append_nil]

theorem applied_mem {history : List MessageWrite} {version : MessageVersion}
    (hmem : version ∈ applied key history) :
    ∃ write ∈ history, write.key = key ∧ write.version? = some version := by
  obtain ⟨write, hwrite, hversion⟩ := List.mem_filterMap.mp hmem
  split at hversion
  · rename_i hkey
    exact ⟨write, hwrite, hkey, hversion⟩
  · cases hversion

theorem live_version {write : MessageWrite} {version : Int}
    (hversion : write.version? = some (toLex (version, false))) :
    ∃ message, write = .upsert message ∧ message.sourceVersionMs = version := by
  cases write with
  | invalidate args =>
      have hpair := toLex.injective (Option.some.inj hversion)
      cases congrArg Prod.snd hpair
  | upsert message =>
      unfold MessageWrite.version? at hversion
      dsimp only at hversion
      split at hversion
      · have hpair := toLex.injective (Option.some.inj hversion)
        exact ⟨message, rfl, congrArg Prod.fst hpair⟩
      · cases hversion

/-- Whatever the order and the multiplicity of upserts and invalidations, the mirror holds the
greatest version; and content that was recalled or deleted comes back through a strictly newer
version only. -/
theorem mirror_converges (db : MirrorDatabase) (key : MessageKey) (chat : ChatKey)
    (history : List MessageWrite) (hopen : isRevoked db chat = false)
    (hchat : ∀ write ∈ history, write.key = key → write.chatKey = chat) :
    mirrored (db.applyAll history) key = max (mirrored db key) (applied key history).maximum ∧
    (∀ other : List MessageWrite, other.Perm history →
      mirrored (db.applyAll other) key = mirrored (db.applyAll history) key) ∧
    ∀ (earlier later : List MessageWrite) (gone live : Int), history = earlier ++ later →
      mirrored (db.applyAll earlier) key = (toLex (gone, true) : MessageVersion) →
      mirrored (db.applyAll history) key = (toLex (live, false) : MessageVersion) →
        gone < live ∧ ∃ message, .upsert message ∈ later ∧ message.key = key ∧
          message.sourceVersionMs = live := by
  have hmax := mirrored_applyAll hopen hchat
  refine ⟨hmax, ?_, ?_⟩
  · intro other hperm
    have hchatOther : ∀ write ∈ other, write.key = key → write.chatKey = chat :=
      fun write hwrite => hchat write (hperm.mem_iff.mp hwrite)
    rw [hmax, mirrored_applyAll hopen hchatOther]
    have hsame : (applied key other).Perm (applied key history) := hperm.filterMap _
    rw [hsame.maximum_eq]
  · rintro earlier later gone live rfl hgone hlive
    have hthere : isRevoked (db.applyAll earlier) chat = false := by
      rw [isRevoked_applyAll]
      exact hopen
    have hlater := mirrored_applyAll hthere fun write hwrite =>
      hchat write (List.mem_append_right _ hwrite)
    rw [← applyAll_append, hlive, hgone] at hlater
    have hgreatest : (applied key later).maximum = (toLex (live, false) : MessageVersion) := by
      rcases max_choice ((toLex (gone, true) : MessageVersion) : WithBot MessageVersion)
        (applied key later).maximum with hold | hnew
      · rw [hold] at hlater
        have hpair := toLex.injective (WithBot.coe_injective hlater)
        cases congrArg Prod.snd hpair
      · rw [hnew] at hlater
        exact hlater.symm
    constructor
    · have hle := le_max_left ((toLex (gone, true) : MessageVersion) : WithBot MessageVersion)
        (applied key later).maximum
      rw [← hlater, WithBot.coe_le_coe, Prod.Lex.toLex_le_toLex] at hle
      rcases hle with hless | ⟨_, hnever⟩
      · exact hless
      · cases hnever rfl
    · obtain ⟨write, hwrite, hkey, hversion⟩ := applied_mem (List.maximum_mem hgreatest)
      obtain ⟨message, rfl, hsource⟩ := live_version hversion
      exact ⟨message, hwrite, hkey, hsource⟩

/-- A recall that overtakes the message, whose redelivery at the version of the recall is ignored
too. -/
theorem mirror_converges_recall_first :
    let message : MirroredMessage :=
      { eventId := "event-1", tenantKey := "tenant", appId := "app", chatId := "chat"
        chatType := "group", messageId := "message-1", messageType := "text", senderId := "user"
        senderType := "user", bodyText := "hello", mentions := [], occurredAtMs := 1
        receivedAtMs := 3 }
    let history : List MessageWrite :=
      [.invalidate ⟨⟨"tenant", "app", "chat"⟩, "message-1", 2, 4⟩, .upsert message,
        .upsert { message with updatedAtMs := some 2 }]
    mirrored (MirrorDatabase.applyAll {} history) message.key =
      (toLex (2, true) : MessageVersion) := by
  intro message history
  have hmax := (mirror_converges {} message.key ⟨"tenant", "app", "chat"⟩ history (by decide)
    (by decide)).1
  rw [hmax]
  decide

end MirrorDatabase

end Codex2Lark
