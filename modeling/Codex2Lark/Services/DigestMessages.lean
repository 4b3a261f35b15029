import Mathlib.Data.Rat.Cast.Order
import Codex2Lark.Services.RenderedDigest

/-!
No message of a list is lost, repeated or shown under a foreign date, as long as the
times convert. `_timestamp` answers `None` for a time that `fromisoformat` cannot read, and
the digest has words for it, but neither the number that `float` makes of a text of digits
nor the date of a number is guarded so: one message whose time is out of the range of
`datetime` ends the digest of all.
-/

namespace Codex2Lark.ChatDigest

open Lib.Distinct
open Lib.Markup (read)

variable {δ τ : Type} [LinearOrder τ] (library : DigestLibrary δ τ)

/-- The conversions that `_normalize_message` makes of a raw message go through. -/
def Converts (message : JsonObject) : Prop :=
  (∃ decoded, decodedContent library ((Json.field? message "content").getD (.str "")) =
    .ok decoded) ∧
  ∃ moment, timestamp library (Json.field? message "create_time") = .ok moment

/-- The time of the message, where it has one, has a local date. -/
def HasLocalTime (message : JsonObject) : Prop :=
  ∀ moment, timestamp library (Json.field? message "create_time") = .ok (some moment) →
    ∃ labels, library.localTime moment = .ok labels

/-- Two raw messages of one id. -/
def sameId (a b : JsonObject × Bool) : Bool :=
  messageId library a.1 ≠ "" && messageId library a.1 = messageId library b.1

variable {library}

theorem normalizeObject_returns {message : JsonObject × Bool} :
    (∃ entry, normalizeObject library message = .ok entry) ↔ Converts library message.1 := by
  constructor
  · rintro ⟨entry, hentry⟩
    obtain ⟨decoded, hdecoded, hentry⟩ := PyError.bind_eq_ok.mp hentry
    obtain ⟨moment, hmoment, -⟩ := PyError.bind_eq_ok.mp hentry
    exact ⟨⟨decoded, hdecoded⟩, moment, hmoment⟩
  · rintro ⟨⟨decoded, hdecoded⟩, moment, hmoment⟩
    exact ⟨_, PyError.bind_eq_ok.mpr ⟨decoded, hdecoded, PyError.bind_eq_ok.mpr
      ⟨moment, hmoment, rfl⟩⟩⟩

/-- An entry has the id and the time of its message. -/
theorem normalizeObject_entry {message : JsonObject × Bool} {entry : ChatEntry τ}
    (hentry : normalizeObject library message = .ok entry) :
    entry.messageId = messageId library message.1 ∧
      timestamp library (Json.field? message.1 "create_time") = .ok entry.timestamp := by
  obtain ⟨decoded, -, hentry⟩ := PyError.bind_eq_ok.mp hentry
  obtain ⟨moment, hmoment, hentry⟩ := PyError.bind_eq_ok.mp hentry
  cases hentry
  exact ⟨rfl, hmoment⟩

variable (library) in
/-- The entry of a message that converts. -/
def entryOf (message : JsonObject × Bool) : ChatEntry τ :=
  match normalizeObject library message with
  | .ok entry => entry
  | .error _ => default

theorem normalizeObject_entryOf {message : JsonObject × Bool}
    (hconverts : Converts library message.1) :
    normalizeObject library message = .ok (entryOf library message) := by
  obtain ⟨entry, hentry⟩ := normalizeObject_returns.mpr hconverts
  rw [entryOf, hentry]

/-- The entries are those of the messages, all of which convert. -/
theorem entries_eq_ok {messages : List (JsonObject × Bool)} {entries : List (ChatEntry τ)} :
    messages.mapM (normalizeObject library) = .ok entries ↔
      (∀ message ∈ messages, Converts library message.1) ∧
        entries = messages.map (entryOf library) := by
  induction messages generalizing entries with
  | nil =>
      have hnil : [].mapM (normalizeObject library) = .ok [] := rfl
      rw [hnil]
      simp [eq_comm]
  | cons message rest ih =>
      rw [List.mapM_cons, PyError.bind_eq_ok]
      constructor
      · rintro ⟨entry, hentry, hrest⟩
        obtain ⟨later, hlater, hentries⟩ := PyError.bind_eq_ok.mp hrest
        cases hentries
        obtain ⟨hconverts, rfl⟩ := ih.mp hlater
        have hmessage : Converts library message.1 := normalizeObject_returns.mp ⟨entry, hentry⟩
        rw [normalizeObject_entryOf hmessage] at hentry
        cases hentry
        exact ⟨List.forall_mem_cons.mpr ⟨hmessage, hconverts⟩, rfl⟩
      · rintro ⟨hconverts, rfl⟩
        obtain ⟨hmessage, hrest⟩ := List.forall_mem_cons.mp hconverts
        exact ⟨_, normalizeObject_entryOf hmessage,
          PyError.bind_eq_ok.mpr ⟨_, ih.mpr ⟨hrest, rfl⟩, rfl⟩⟩

theorem distinct_entries {messages : List (JsonObject × Bool)}
    (hconverts : ∀ message ∈ messages, Converts library message.1) :
    distinct sameMessage (messages.map (entryOf library)) =
      (distinct (sameId library) messages).map (entryOf library) := by
  refine distinct_map fun a ha b hb => ?_
  have hid : ∀ message ∈ messages,
      (entryOf library message).messageId = messageId library message.1 := fun message hmem =>
    (normalizeObject_entry (normalizeObject_entryOf (hconverts message hmem))).1
  rw [sameMessage, sameId, hid a ha, hid b hb]

/-- Each message of the list has its entry in the result, once and in the order of time, and
its blockquote in the document, below its date. -/
def KeepsMessages (library : DigestLibrary δ τ) (imagePaths : String → String → Option String)
    (chatName start stop : String) (messages : List Json) : Prop :=
  ∃ entries result xml,
    (forest false messages).mapM (normalizeObject library) = .ok entries ∧
    flattenMessages library messages = .ok result ∧
    result.Perm (distinct sameMessage entries) ∧
    result.Pairwise InOrder ∧
    result.filter (fun entry => entry.timestamp.isNone) =
      (distinct sameMessage entries).filter (fun entry => entry.timestamp.isNone) ∧
    renderDigestXml library imagePaths chatName start stop result = .ok xml ∧
    List.Forall₂ (Shows library) result (blockquotes none (read xml.toList))

variable {messages : List Json} {imagePaths : String → String → Option String}
  {chatName start stop : String}

theorem flattenMessages_perm (library : DigestLibrary δ τ) {entries result : List (ChatEntry τ)}
    (hids : ∀ entry ∈ entries, IsMessageId entry.messageId)
    (hresult : result = (sortedPairs library (uniqueEntries entries)).map Prod.fst) :
    result.Perm (distinct sameMessage entries) ∧ result.Pairwise InOrder ∧
      result.filter (fun entry => entry.timestamp.isNone) =
        (distinct sameMessage entries).filter (fun entry => entry.timestamp.isNone) := by
  rw [hresult, uniqueEntries_eq hids]
  refine ⟨sortedPairs_perm library _, ?_, sortedPairs_undated library _⟩
  refine List.pairwise_map.mpr ((sortedPairs_pairwise library _).imp ?_)
  exact fun hle => inOrder_of_sortKey library hle

theorem renderTime_returns {message : JsonObject × Bool}
    (hconverts : Converts library message.1) :
    (∃ labels, renderTime library (entryOf library message) = .ok labels) ↔
      HasLocalTime library message.1 := by
  have htime := (normalizeObject_entry (normalizeObject_entryOf hconverts)).2
  rw [HasLocalTime, htime, renderTime]
  cases (entryOf library message).timestamp with
  | none => exact ⟨fun _ => nofun, fun _ => ⟨_, rfl⟩⟩
  | some moment =>
      constructor
      · rintro hlocal other hother
        cases hother
        exact hlocal
      · exact fun hlocal => hlocal moment rfl

/-- A digest that keeps its messages has met no time that it cannot convert. -/
theorem KeepsMessages.readable
    (hkeeps : KeepsMessages library imagePaths chatName start stop messages) :
    (∀ message ∈ forest false messages, Converts library message.1) ∧
      ∀ message ∈ distinct (sameId library) (forest false messages),
        HasLocalTime library message.1 := by
  obtain ⟨entries, result, xml, hentries, -, hperm, -, -, hxml, -⟩ := hkeeps
  obtain ⟨hconverts, rfl⟩ := entries_eq_ok.mp hentries
  refine ⟨hconverts, fun message hmessage => ?_⟩
  have hmem : entryOf library message ∈ result := by
    rw [hperm.mem_iff, distinct_entries hconverts]
    exact List.mem_map_of_mem hmessage
  exact (renderTime_returns (hconverts message (mem_of_mem_distinct hmessage))).mp
    ((renderDigestXml_returns imagePaths chatName start stop).mp ⟨xml, hxml⟩ _ hmem)

/-- With ids as Feishu gives them, a list is digested whole exactly when the content and the
time of every message object convert and the time of every first one has a local date. -/
theorem digest_keeps_messages_iff
    (hids : ∀ message ∈ forest false messages, IsMessageId (messageId library message.1)) :
    KeepsMessages library imagePaths chatName start stop messages ↔
      (∀ message ∈ forest false messages, Converts library message.1) ∧
        ∀ message ∈ distinct (sameId library) (forest false messages),
          HasLocalTime library message.1 := by
  constructor
  · exact fun hkeeps => hkeeps.readable
  · rintro ⟨hconverts, hlocal⟩
    have hentries := entries_eq_ok.mpr ⟨hconverts, rfl⟩
    have hentryIds : ∀ entry ∈ (forest false messages).map (entryOf library),
        IsMessageId entry.messageId := by
      intro entry hentry
      obtain ⟨message, hmessage, rfl⟩ := List.mem_map.mp hentry
      rw [(normalizeObject_entry (normalizeObject_entryOf (hconverts message hmessage))).1]
      exact hids message hmessage
    obtain ⟨hperm, horder, hundated⟩ := flattenMessages_perm library hentryIds rfl
    have htimes : ∀ entry ∈ (sortedPairs library
        (uniqueEntries ((forest false messages).map (entryOf library)))).map Prod.fst,
        ∃ labels, renderTime library entry = .ok labels := by
      intro entry hentry
      rw [hperm.mem_iff, distinct_entries hconverts] at hentry
      obtain ⟨message, hmessage, rfl⟩ := List.mem_map.mp hentry
      exact (renderTime_returns (hconverts message (mem_of_mem_distinct hmessage))).mpr
        (hlocal message hmessage)
    obtain ⟨xml, hxml⟩ := (renderDigestXml_returns imagePaths chatName start stop).mpr htimes
    exact ⟨_, _, xml, hentries, (flattenMessages_eq_ok library).mpr ⟨_, hentries, rfl⟩, hperm,
      horder, hundated, hxml, renderDigestXml_reads hxml⟩

/-- The library on times of one day; `datetime` ends with the year 9999. -/
def dayLibrary : DigestLibrary Unit ℚ where
  str := Json.dumps {}
  lower := String.toLower
  isdigit text := text ≠ "" && text.toList.all Char.isDigit
  unescape := id
  dropMarkers := id
  findImageKeys _ := []
  findResourceNames _ := []
  fileNameKeys := ["file_name", "filename", "name"]
  interpreterLimit _ := none
  float
    | .str text => .ok (Json.decimal text.toList)
    | .int n => .ok n
    | _ => .ok 0
  tenBillion := 10000000000
  thousandth number := number / 1000
  zero := 0
  fromisoformat _ := none
  hasZone _ := false
  replaceZone := id
  timestamp _ := 0
  localTime moment :=
    if moment < 253402300800 then .ok ("2026-08-24", "12:00:02")
    else .error (.valueError "year is out of range")

private def datedMessage (id : String) (createTime : String) (replies : List Json) : Json :=
  .obj [("message_id", .str id), ("create_time", .str createTime), ("thread_replies", .arr replies)]

/-- A reply that is also a message of its own, in a list of two. -/
private def repliedMessages : List Json :=
  [datedMessage "om_1" "1787572802000" [datedMessage "om_2" "1787572802500" []],
    datedMessage "om_2" "1787572802500" []]

/-- A message whose number of milliseconds is a digit too long. -/
private def farMessages : List Json := [datedMessage "om_1" "99999999999999999" []]

private theorem isMessageId_om (rest : String) : IsMessageId ("om_" ++ rest) := .inr ⟨rest, rfl⟩

theorem replied_messages_kept :
    KeepsMessages dayLibrary (fun _ _ => none) "群" "start" "end" repliedMessages := by
  have hforest : forest false repliedMessages =
      [([("message_id", .str "om_1"), ("create_time", .str "1787572802000"),
          ("thread_replies", .arr [datedMessage "om_2" "1787572802500" []])], false),
        ([("message_id", .str "om_2"), ("create_time", .str "1787572802500"),
          ("thread_replies", .arr [])], true),
        ([("message_id", .str "om_2"), ("create_time", .str "1787572802500"),
          ("thread_replies", .arr [])], false)] := rfl
  refine (digest_keeps_messages_iff ?_).mpr ⟨?_, ?_⟩
  · rw [hforest]
    intro message hmessage
    simp only [List.mem_cons, List.not_mem_nil, or_false] at hmessage
    rcases hmessage with rfl | rfl | rfl
    · exact isMessageId_om "1"
    · exact isMessageId_om "2"
    · exact isMessageId_om "2"
  · rw [hforest]
    intro message hmessage
    simp only [List.mem_cons, List.not_mem_nil, or_false] at hmessage
    rcases hmessage with rfl | rfl | rfl
    · exact ⟨⟨_, rfl⟩, _, rfl⟩
    · exact ⟨⟨_, rfl⟩, _, rfl⟩
    · exact ⟨⟨_, rfl⟩, _, rfl⟩
  · intro message hmessage moment hmoment
    have hmem := mem_of_mem_distinct hmessage
    rw [hforest] at hmem
    simp only [List.mem_cons, List.not_mem_nil, or_false] at hmem
    have hearly : moment < 253402300800 := by
      rcases hmem with rfl | rfl | rfl <;> cases hmoment <;> decide +kernel
    exact ⟨_, if_pos hearly⟩

/-- One message of a time beyond the year 9999 and no digest is written. -/
theorem far_time_ends_digest :
    (∀ message ∈ forest false farMessages, IsMessageId (messageId dayLibrary message.1)) ∧
      ¬ KeepsMessages dayLibrary (fun _ _ => none) "群" "start" "end" farMessages := by
  have hforest : forest false farMessages =
      [([("message_id", .str "om_1"), ("create_time", .str "99999999999999999"),
        ("thread_replies", .arr [])], false)] := rfl
  constructor
  · rw [hforest]
    intro message hmessage
    obtain rfl := List.mem_singleton.mp hmessage
    exact isMessageId_om "1"
  · intro hkeeps
    obtain ⟨-, hlocal⟩ := hkeeps.readable
    rw [hforest] at hlocal
    obtain ⟨labels, hlabels⟩ := hlocal _ (List.mem_singleton.mpr rfl)
      (99999999999999999 / 1000) (by decide +kernel)
    have herror : dayLibrary.localTime (99999999999999999 / 1000) =
        .error (.valueError "year is out of range") := by decide +kernel
    rw [herror] at hlabels
    cases hlabels

end Codex2Lark.ChatDigest
