import Codex2Lark.Im.Convergence
import Codex2Lark.Lib.Runs

/-!
Tombstones over the life of the mirror. A row that says that a message was recalled or deleted
keeps older content away; a revocation deletes the rows of its chat, tombstones included.
-/

namespace Codex2Lark

open Lib IMRepository

/-- Every transaction of the mirror can take place at any time. -/
def MirrorDatabase.step (db : MirrorDatabase) (op : MirrorOp) : Option MirrorDatabase :=
  some (op.apply db)

/-- No revocation finds a recalled or deleted message among the rows that it purges. -/
def sparesTombstones (db : MirrorDatabase) : MirrorOp → Bool
  | .revoke chat _ => db.messages.all fun row => row.chatKey ≠ chat || !row.isGone
  | _ => true

namespace IMRepository

variable {db : MirrorDatabase} {key : MessageKey}

/-! ### Unique keys -/

def KeysUnique (db : MirrorDatabase) : Prop := (db.messages.map MessageRow.key).Nodup

theorem keysUnique_write (write : MessageWrite) (hkeys : KeysUnique db) :
    KeysUnique (write.apply db) := by
  cases write with
  | upsert message =>
      refine upsert_rule (P := KeysUnique) message db fun result hcases => ?_
      cases hcases with
      | revoked _ => exact hkeys
      | ignored _ _ _ => exact hkeys
      | accepted _ _ _ _ => exact Table.nodup_put _ (fun _ => rfl) hkeys
      | refused _ _ => exact hkeys
  | invalidate args =>
      change KeysUnique (invalidateMessage args db).2
      unfold invalidateMessage
      dsimp only
      split
      · exact hkeys
      · unfold KeysUnique dropUnreferencedBlobMetadata
        dsimp only
        split
        · rename_i hnone
          rw [List.map_append, List.map_singleton]
          refine List.nodup_append.mpr ⟨hkeys, List.nodup_singleton _, ?_⟩
          intro k hk k' hk'
          obtain rfl := List.mem_singleton.mp hk'
          rintro rfl
          obtain ⟨row, hrow, hsame⟩ := List.mem_map.mp hk
          have hmissing := List.find?_eq_none.mp (Option.isNone_iff_eq_none.mp hnone) row hrow
          have hthere : row.key = args.key := hsame
          exact hmissing (by simpa using hthere)
        · rw [Table.map_update]
          · exact hkeys
          · intro row
            rfl

/-- The transactions that work on the rows of messages. -/
def writesMessages : MirrorOp → Bool
  | .message _ | .revoke _ _ => true
  | _ => false

theorem messages_other {op : MirrorOp} (hother : writesMessages op = false) (db : MirrorDatabase) :
    (op.apply db).messages = db.messages := by
  cases op with
  | message write => cases hother
  | revoke chat nowMs => cases hother
  | restore chat nowMs => rfl
  | runtime op => rfl
  | recordBlob args =>
      obtain ⟨fileBlobs, attachments, hafter⟩ := recordBlob_frame args db
      rw [hafter]
  | recordParse args =>
      obtain ⟨attachments, hafter⟩ := recordParse_frame args db
      rw [hafter]

theorem keysUnique_apply (op : MirrorOp) (hkeys : KeysUnique db) : KeysUnique (op.apply db) := by
  cases hop : writesMessages op with
  | false =>
      unfold KeysUnique
      rw [messages_other hop]
      exact hkeys
  | true =>
      cases op with
      | message write => exact keysUnique_write write hkeys
      | revoke chat nowMs => exact Table.nodup_delete hkeys
      | restore _ _ => cases hop
      | recordBlob _ => cases hop
      | recordParse _ => cases hop
      | runtime _ => cases hop

/-! ### Revocations -/

theorem mirrored_revoke (chat : ChatKey) (nowMs : Int) (hkeys : KeysUnique db) :
    mirrored (revokeChatAccess chat nowMs db).2 key =
      match findMessage db key with
      | none => ⊥
      | some row => if row.chatKey = chat then ⊥ else row.version := by
  have hrows : (revokeChatAccess chat nowMs db).2.messages =
      Table.delete (fun row => row.chatKey = chat) db.messages := rfl
  cases hfound : findMessage db key with
  | none =>
      have hnone : findMessage (revokeChatAccess chat nowMs db).2 key = none := by
        unfold findMessage at hfound ⊢
        rw [hrows, List.find?_eq_none]
        intro row hrow
        exact List.find?_eq_none.mp hfound row (Table.mem_delete.mp hrow).1
      unfold mirrored
      rw [hnone]
  | some row =>
      obtain ⟨hrow, hkey⟩ := (Table.find?_key_iff hkeys).mp hfound
      dsimp only
      by_cases hchat : row.chatKey = chat
      · rw [if_pos hchat]
        have hnone : findMessage (revokeChatAccess chat nowMs db).2 key = none := by
          unfold findMessage
          rw [hrows, List.find?_eq_none]
          intro other hother hsame
          obtain ⟨hmem, hspared⟩ := Table.mem_delete.mp hother
          have hone : other = row :=
            List.inj_on_of_nodup_map hkeys hmem hrow ((of_decide_eq_true hsame).trans hkey.symm)
          rw [hone] at hspared
          simp [hchat] at hspared
        unfold mirrored
        rw [hnone]
      · rw [if_neg hchat]
        have hsame : findMessage (revokeChatAccess chat nowMs db).2 key = some row := by
          unfold findMessage at hfound ⊢
          rw [hrows, Table.find?_delete_of_spared, hfound]
          intro other hother hother'
          have hone : other = row :=
            List.inj_on_of_nodup_map hkeys hother hrow (hother'.trans hkey.symm)
          rw [hone]
          simpa using hchat
        unfold mirrored
        rw [hsame]

/-- A revocation purges the row of a message of the chat and leaves the others. -/
theorem mirrored_revoke_cases (chat : ChatKey) (nowMs : Int) (key : MessageKey)
    (hkeys : KeysUnique db) :
    mirrored (revokeChatAccess chat nowMs db).2 key = mirrored db key ∨
      mirrored (revokeChatAccess chat nowMs db).2 key = ⊥ ∧
        ∃ row ∈ db.messages, row.chatKey = chat ∧ row.key = key ∧ mirrored db key = row.version := by
  rw [mirrored_revoke chat nowMs hkeys]
  unfold mirrored
  cases hfound : findMessage db key with
  | none => exact .inl rfl
  | some row =>
      dsimp only
      by_cases hchat : row.chatKey = chat
      · rw [if_pos hchat]
        obtain ⟨hrow, hkey⟩ := (Table.find?_key_iff hkeys).mp hfound
        exact .inr ⟨rfl, row, hrow, hchat, hkey, rfl⟩
      · exact .inl (if_neg hchat)

theorem mirrored_other {op : MirrorOp} (hother : writesMessages op = false) (db : MirrorDatabase)
    (key : MessageKey) : mirrored (op.apply db) key = mirrored db key := by
  unfold mirrored findMessage
  rw [messages_other hother]

end IMRepository

/-! ### Runs -/

/-- Some upsert of the history carries this version of the message. -/
def Carried (history : List MirrorOp) (key : MessageKey) (version : Int) : Prop :=
  ∃ message, .message (.upsert message) ∈ history ∧ message.key = key ∧
    message.sourceVersionMs = version

theorem Carried.append {history : List MirrorOp} {key : MessageKey} {version : Int}
    (h : Carried history key version) (op : MirrorOp) : Carried (history ++ [op]) key version := by
  obtain ⟨message, hmem, hrest⟩ := h
  exact ⟨message, List.mem_append_left _ hmem, hrest⟩

/-- The three ways in which one transaction leaves what is mirrored of a message. -/
theorem mirrored_step {db : MirrorDatabase} (op : MirrorOp) (key : MessageKey)
    (hkeys : KeysUnique db) :
    mirrored (op.apply db) key = mirrored db key ∨
    (∃ write version, op = .message write ∧ write.key = key ∧ write.version? = some version ∧
      mirrored db key ≤ version ∧ mirrored (op.apply db) key = version) ∨
    (∃ chat nowMs, op = .revoke chat nowMs ∧ mirrored (op.apply db) key = ⊥ ∧
      ∃ row ∈ db.messages, row.chatKey = chat ∧ row.key = key ∧ mirrored db key = row.version) := by
  cases hop : writesMessages op with
  | false => exact .inl (mirrored_other hop db key)
  | true =>
      cases op with
      | message write =>
          rcases MessageWrite.mirrored_apply_cases write db key with
            hkept | ⟨hkey, version, hversion, hle, hnew⟩
          · exact .inl hkept
          · exact .inr (.inl ⟨write, version, rfl, hkey, hversion, hle, hnew⟩)
      | revoke chat nowMs =>
          rcases mirrored_revoke_cases chat nowMs key hkeys with hkept | ⟨hgone, hpurged⟩
          · exact .inl hkept
          · exact .inr (.inr ⟨chat, nowMs, rfl, hgone, hpurged⟩)
      | restore _ _ => cases hop
      | recordBlob _ => cases hop
      | recordParse _ => cases hop
      | runtime _ => cases hop

/-- What a history leaves behind: content that is shown has been carried by an upsert. -/
structure Sourced (history : List MirrorOp) (db : MirrorDatabase) : Prop where
  keys : KeysUnique db
  shown : ∀ key version, mirrored db key = (toLex (version, false) : MessageVersion) →
    Carried history key version

/-- A tombstone of the message at this version is still in effect, or newer content came. -/
def Remembers (history : List MirrorOp) (key : MessageKey) (gone : Int) (db : MirrorDatabase) :
    Prop :=
  ((toLex (gone, true) : MessageVersion) : WithBot MessageVersion) ≤ mirrored db key ∨
    ∃ version, gone < version ∧ Carried history key version

variable {db : MirrorDatabase} {history : List MirrorOp} {key : MessageKey} {gone : Int}

theorem sourced_step (hs : Sourced history db) (op : MirrorOp) :
    Sourced (history ++ [op]) (op.apply db) := by
  refine ⟨keysUnique_apply op hs.keys, ?_⟩
  intro key version hshown
  rcases mirrored_step op key hs.keys with
    hsame | ⟨write, raised, rfl, hkey, hraised, _, hnew⟩ | ⟨_, _, _, hgone, _⟩
  · rw [hsame] at hshown
    exact (hs.shown key version hshown).append op
  · rw [hnew] at hshown
    obtain rfl := WithBot.coe_injective hshown
    obtain ⟨message, rfl, hsource⟩ := MirrorDatabase.live_version hraised
    exact ⟨message, List.mem_append_right _ List.mem_cons_self, hkey, hsource⟩
  · rw [hgone] at hshown
    exact absurd hshown.symm (WithBot.coe_ne_bot)

/-- A version beyond the tombstone that is not a tombstone is newer. -/
theorem newer_of_live {row : MessageRow}
    (hle : (toLex (gone, true) : MessageVersion) ≤ row.version) (hlive : row.isGone = false) :
    gone < row.updatedAtSourceMs := by
  unfold MessageRow.version at hle
  rw [Prod.Lex.toLex_le_toLex, hlive] at hle
  rcases hle with hless | ⟨_, hnever⟩
  · exact hless
  · cases hnever rfl

theorem remembers_step (hs : Sourced history db) (hremembers : Remembers history key gone db)
    {op : MirrorOp} (hspares : sparesTombstones db op = true) :
    Remembers (history ++ [op]) key gone (op.apply db) := by
  rcases hremembers with hstill | ⟨version, hnewer, hcarried⟩
  · rcases mirrored_step op key hs.keys with
      hsame | ⟨_, _, _, _, _, hle, hnew⟩ | ⟨chat, nowMs, rfl, _, row, hrow, hchat, _, hversion⟩
    · exact .inl (hstill.trans hsame.ge)
    · exact .inl (hstill.trans (hle.trans hnew.ge))
    · -- the purged row is live, so it is newer than the tombstone
      have hlive : row.isGone = false := by
        have hall := List.all_eq_true.mp hspares row hrow
        simpa [hchat] using hall
      rw [hversion] at hstill
      have hnewer := newer_of_live (WithBot.coe_le_coe.mp hstill) hlive
      refine .inr ⟨row.updatedAtSourceMs, hnewer, (hs.shown key _ ?_).append _⟩
      rw [hversion]
      unfold MessageRow.version
      rw [hlive]
  · exact .inr ⟨version, hnewer, hcarried.append op⟩

/-- Every transaction of the mirror succeeds or leaves the tables as they are. -/
theorem exec_step (history : List MirrorOp) (db : MirrorDatabase) :
    exec MirrorDatabase.step history db = some (history.foldl MirrorOp.apply db) := by
  induction history generalizing db with
  | nil => rfl
  | cons op rest ih =>
      rw [exec_cons_of_step (t := op.apply db) rfl, ih]
      rfl

theorem sourced_run (history : List MirrorOp) :
    Sourced history (history.foldl MirrorOp.apply {}) := by
  induction history using List.reverseRecOn with
  | nil =>
      refine ⟨List.nodup_nil, ?_⟩
      intro key version hshown
      exact absurd hshown.symm WithBot.coe_ne_bot
  | append_singleton earlier op ih =>
      rw [List.foldl_append]
      exact sourced_step ih op

theorem remembers_run {earlier later : List MirrorOp}
    (hremembers : Remembers earlier key gone (earlier.foldl MirrorOp.apply {}))
    (hspares : Along MirrorDatabase.step (fun db op => sparesTombstones db op = true) later
      (earlier.foldl MirrorOp.apply {})) :
    Remembers (earlier ++ later) key gone ((earlier ++ later).foldl MirrorOp.apply {}) := by
  induction later using List.reverseRecOn with
  | nil =>
      rw [List.append_nil]
      exact hremembers
  | append_singleton later op ih =>
      have hrun := exec_step later (earlier.foldl MirrorOp.apply {})
      rw [← List.foldl_append] at hrun
      have hlast := along_last hspares hrun
      have hbefore := ih (along_append.mp hspares).1
      rw [← List.append_assoc, List.foldl_append]
      exact remembers_step (sourced_run _) hbefore hlast

/-- What `invalidate_message` leaves is at its version or newer, in a revoked chat too. -/
theorem invalidation_le (args : Invalidation) (db : MirrorDatabase) :
    ((toLex (args.sourceVersionMs, true) : MessageVersion) : WithBot MessageVersion) ≤
      mirrored (MessageWrite.apply db (.invalidate args)) args.key := by
  change _ ≤ mirrored (invalidateMessage args db).2 args.key
  rw [MessageWrite.mirrored_invalidate]
  exact le_max_right _ _

/-- Content beyond a remembered tombstone has been carried by an upsert of a newer version. -/
theorem carried_of_remembers {shown : MessageRow} (hs : Sourced history db)
    (hremembers : Remembers history key gone db) (hshown : findMessage db key = some shown)
    (hlive : shown.isGone = false) : ∃ version, gone < version ∧ Carried history key version := by
  rcases hremembers with hstill | hnewer
  · have hversion : mirrored db key = shown.version := by
      unfold mirrored
      rw [hshown]
    rw [hversion] at hstill
    refine ⟨shown.updatedAtSourceMs, newer_of_live (WithBot.coe_le_coe.mp hstill) hlive, ?_⟩
    refine hs.shown key _ ?_
    rw [hversion]
    unfold MessageRow.version
    rw [hlive]
  · exact hnewer

namespace MirrorDatabase

/-- As long as no revocation purges a tombstone: after a recall or a deletion of a message, be it
a row of the mirror or a transaction that invalidates, the message is shown again only when an
upsert has carried a strictly newer version. -/
theorem tombstones_kept (earlier later : List MirrorOp)
    (hspares : Along MirrorDatabase.step (fun db op => sparesTombstones db op = true)
      (earlier ++ later) {}) :
    let before := earlier.foldl MirrorOp.apply {}
    let after := (earlier ++ later).foldl MirrorOp.apply {}
    ∀ key shown, findMessage after key = some shown → shown.isGone = false →
      (∀ row, findMessage before key = some row → row.isGone = true →
        ∃ version, row.updatedAtSourceMs < version ∧ Carried (earlier ++ later) key version) ∧
      ∀ args, .message (.invalidate args) ∈ earlier → args.key = key →
        ∃ version, args.sourceVersionMs < version ∧ Carried (earlier ++ later) key version := by
  intro before after key shown hshown hlive
  have hsource := sourced_run (earlier ++ later)
  constructor
  · intro row hrow hgone
    have hremembers : Remembers earlier key row.updatedAtSourceMs before := by
      refine .inl (le_of_eq ?_)
      unfold mirrored
      rw [hrow]
      dsimp only
      unfold MessageRow.version
      rw [hgone]
    have hlater := (along_append.mp hspares).2 _ (exec_step earlier {})
    exact carried_of_remembers hsource (remembers_run hremembers hlater) hshown hlive
  · rintro args hargs rfl
    obtain ⟨first, rest, rfl⟩ := List.append_of_mem hargs
    have hsplit : first ++ MirrorOp.message (.invalidate args) :: rest ++ later =
        (first ++ [MirrorOp.message (.invalidate args)]) ++ (rest ++ later) := by
      simp
    have hremembers : Remembers (first ++ [MirrorOp.message (.invalidate args)]) args.key
        args.sourceVersionMs
        ((first ++ [MirrorOp.message (.invalidate args)]).foldl MirrorOp.apply {}) := by
      rw [List.foldl_append]
      exact .inl (invalidation_le args _)
    rw [hsplit] at hspares hsource ⊢
    have hlater := (along_append.mp hspares).2 _ (exec_step _ {})
    have hafter : findMessage (((first ++ [MirrorOp.message (.invalidate args)]) ++
        (rest ++ later)).foldl MirrorOp.apply {}) args.key = some shown := by
      rw [← hsplit]
      exact hshown
    exact carried_of_remembers hsource (remembers_run hremembers hlater) hafter hlive

private def hello : MirroredMessage :=
  { eventId := "event-hello", tenantKey := "tenant", appId := "app", chatId := "chat"
    chatType := "group", messageId := "message-1", messageType := "text", senderId := "user"
    senderType := "user", bodyText := "hello", mentions := [], occurredAtMs := 1
    receivedAtMs := 3, identified := by decide }

private def recalled : Invalidation := ⟨⟨"tenant", "app", "chat"⟩, "message-1", 2, 4⟩

/-- The bot leaves the chat before the recall arrives, and comes back. -/
theorem tombstones_kept_edited :
    let edited : MirroredMessage := { hello with updatedAtMs := some 3 }
    let history : List MirrorOp := [.message (.upsert hello), .revoke hello.chatKey 5,
      .message (.invalidate recalled), .restore hello.chatKey 6, .message (.upsert hello),
      .message (.upsert edited)]
    ∃ version, recalled.sourceVersionMs < version ∧ Carried history hello.key version := by
  intro edited history
  have hspares : Along MirrorDatabase.step (fun db op => sparesTombstones db op = true)
      (history ++ []) {} :=
    along_of_check (fun _ _ hspared => hspared) (by decide +kernel)
  -- the row keeps the creation time that the tombstone had
  exact (tombstones_kept history [] hspares hello.key
    { messageRow edited with createdAtSourceMs := 2 } (by decide +kernel) (by decide)).2 recalled
      (List.mem_of_getElem? (i := 2) rfl) rfl

/-- The recall of version 2 arrives while the bot is in the chat. The revocation purges its
tombstone, and version 1 is shown again. -/
theorem revocation_forgets_tombstone :
    let earlier : List MirrorOp := [.message (.upsert hello), .message (.invalidate recalled)]
    let later : List MirrorOp :=
      [.revoke hello.chatKey 5, .restore hello.chatKey 6, .message (.upsert hello)]
    mirrored (earlier.foldl MirrorOp.apply {}) hello.key = (toLex (2, true) : MessageVersion) ∧
      mirrored ((earlier ++ later).foldl MirrorOp.apply {}) hello.key =
        (toLex (1, false) : MessageVersion) ∧
      ¬ ∃ version, 2 < version ∧ Carried (earlier ++ later) hello.key version := by
  intro earlier later
  refine ⟨by decide +kernel, by decide +kernel, ?_⟩
  rintro ⟨version, hnewer, message, hmem, _, rfl⟩
  have hold : message = hello := by
    simpa [earlier, later] using hmem
  rw [hold] at hnewer
  revert hnewer
  decide

end MirrorDatabase

end Codex2Lark
