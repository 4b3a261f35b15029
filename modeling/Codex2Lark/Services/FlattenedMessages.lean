import Codex2Lark.Lib.Distinct
import Codex2Lark.Services.ChatDigest

/-!
What `_flatten_messages` returns: the first entry of each message of the forest, and
no other, in the order of their times.
-/

namespace Codex2Lark.ChatDigest

open Lib.Distinct

variable {δ τ : Type}

/-! ### One entry for each message -/

/-- Two entries of one message; an entry without an id is none but its own. -/
def sameMessage (a b : ChatEntry τ) : Bool := a.messageId ≠ "" && a.messageId = b.messageId

/-- The id is one that Feishu gives. -/
def IsMessageId (id : String) : Prop := id = "" ∨ ∃ rest, id = "om_" ++ rest

/-- The dictionary after the entries: its keys tell the kept entries apart. -/
structure Tracks (entries : List (ChatEntry τ)) (state : Nat × List (String × ChatEntry τ)) :
    Prop where
  values : state.2.map Prod.snd = distinct sameMessage entries
  keyed : ∀ item ∈ state.2, item.2.messageId ≠ "" → item.1 = item.2.messageId
  anonymous : ∀ item ∈ state.2, item.2.messageId = "" →
    ∃ count ≤ state.1, item.1 = "anonymous-" ++ toString count

theorem om_ne_anonymous (rest count : String) : "om_" ++ rest ≠ "anonymous-" ++ count := by
  intro h
  have hchars := congrArg String.toList h
  simp at hchars

/-- The key of an entry is taken exactly where an entry of its message was kept. -/
theorem Tracks.taken {entries : List (ChatEntry τ)} {state : Nat × List (String × ChatEntry τ)}
    (htracks : Tracks entries state) (hids : ∀ entry ∈ entries, IsMessageId entry.messageId)
    (entry : ChatEntry τ) (hentry : IsMessageId entry.messageId) {anonymous : Nat}
    (hcount : entry.messageId = "" → state.1 < anonymous) :
    (state.2.any fun item => item.1 = entryKey anonymous entry) =
      (distinct sameMessage entries).any fun seen => sameMessage seen entry := by
  rw [← htracks.values, List.any_map]
  rw [Bool.eq_iff_iff, List.any_eq_true, List.any_eq_true]
  refine exists_congr fun item => and_congr_right fun hitem => ?_
  rw [← Bool.eq_iff_iff]
  have hmem : item.2 ∈ entries :=
    mem_of_mem_distinct (htracks.values ▸ List.mem_map_of_mem hitem)
  rw [Function.comp_apply, entryKey]
  by_cases hnone : item.2.messageId = ""
  · have hsame : sameMessage item.2 entry = false := by simp [sameMessage, hnone]
    obtain ⟨count, hbound, hkey⟩ := htracks.anonymous item hitem hnone
    rw [hsame, hkey, decide_eq_false_iff_not]
    split
    · rename_i hid
      intro h
      have heq : count = anonymous := Json.toString_injective ((String.append_right_inj _).mp h)
      have := hcount hid
      omega
    · rename_i hid
      obtain ⟨rest, hrest⟩ := hentry.resolve_left hid
      exact fun h => om_ne_anonymous rest (toString count) (hrest ▸ h.symm)
  · rw [htracks.keyed item hitem hnone]
    split
    · rename_i hid
      obtain ⟨rest, hrest⟩ := (hids _ hmem).resolve_left hnone
      have hkey : item.2.messageId ≠ "anonymous-" ++ toString anonymous := by
        rw [hrest]
        exact om_ne_anonymous rest _
      have hsame : sameMessage item.2 entry = false := by simp [sameMessage, hid, hnone]
      rw [hsame]
      exact decide_eq_false hkey
    · simp [sameMessage, hnone]

theorem Tracks.step {entries : List (ChatEntry τ)} {state : Nat × List (String × ChatEntry τ)}
    (htracks : Tracks entries state) (hids : ∀ entry ∈ entries, IsMessageId entry.messageId)
    (entry : ChatEntry τ) (hentry : IsMessageId entry.messageId) :
    Tracks (entries ++ [entry]) (setdefaultEntry state entry) := by
  obtain ⟨anonymous, hanonymous⟩ : ∃ count, count =
    if entry.messageId = "" then state.1 + 1 else state.1 := ⟨_, rfl⟩
  have hgrows : state.1 ≤ anonymous := by
    rw [hanonymous]
    split <;> omega
  have hcount : entry.messageId = "" → state.1 < anonymous := by
    intro hid
    rw [hanonymous, if_pos hid]
    omega
  have htaken := htracks.taken hids entry hentry hcount
  have hstate : setdefaultEntry state entry = (anonymous,
      if state.2.any fun item => item.1 = entryKey anonymous entry then state.2
      else state.2 ++ [(entryKey anonymous entry, entry)]) := by
    rw [setdefaultEntry, hanonymous]
  rw [hstate]
  have hkept : ∀ item ∈ (if state.2.any fun item => item.1 = entryKey anonymous entry then state.2
      else state.2 ++ [(entryKey anonymous entry, entry)]),
      item ∈ state.2 ∨ item = (entryKey anonymous entry, entry) := by
    intro item hitem
    split at hitem
    · exact .inl hitem
    · simpa using hitem
  constructor
  case values =>
    rw [distinct_concat, ← htaken]
    split
    · exact htracks.values
    · rw [List.map_append, htracks.values]
      rfl
  case keyed =>
    intro item hitem hid
    rcases hkept item hitem with hold | rfl
    · exact htracks.keyed item hold hid
    · exact if_neg hid
  case anonymous =>
    intro item hitem hid
    rcases hkept item hitem with hold | rfl
    · obtain ⟨count, hbound, hkey⟩ := htracks.anonymous item hold hid
      exact ⟨count, hbound.trans hgrows, hkey⟩
    · exact ⟨anonymous, le_refl _, if_pos hid⟩

theorem tracks_entries (entries : List (ChatEntry τ))
    (hids : ∀ entry ∈ entries, IsMessageId entry.messageId) :
    Tracks entries (entries.foldl setdefaultEntry (0, [])) := by
  induction entries using List.reverseRecOn with
  | nil => exact ⟨rfl, nofun, nofun⟩
  | append_singleton entries last ih =>
      rw [List.foldl_append]
      have hbefore : ∀ entry ∈ entries, IsMessageId entry.messageId := fun entry hentry =>
        hids entry (List.mem_append_left _ hentry)
      exact (ih hbefore).step hbefore last (hids last (by simp))

theorem uniqueEntries_eq {entries : List (ChatEntry τ)}
    (hids : ∀ entry ∈ entries, IsMessageId entry.messageId) :
    uniqueEntries entries = distinct sameMessage entries :=
  (tracks_entries entries hids).values

/-! ### The forest of messages -/

mutual

/-- A message and its replies in preorder, each with whether it is a reply. -/
def messageObjects (threadReply : Bool) : Json → List (JsonObject × Bool)
  | .obj fields => (fields, threadReply) :: replyObjects fields
  | _ => []

def replyObjects : List (String × Json) → List (JsonObject × Bool)
  | [] => []
  | (key, .arr replies) :: rest =>
      if key = "thread_replies" then forest true replies else replyObjects rest
  | (key, _) :: rest => if key = "thread_replies" then [] else replyObjects rest

/-- Every message object that occurs below the messages. -/
def forest (threadReply : Bool) : List Json → List (JsonObject × Bool)
  | [] => []
  | raw :: rest => messageObjects threadReply raw ++ forest threadReply rest

end

variable [LinearOrder τ] (library : DigestLibrary δ τ)

/-- `_normalize_message` of an object of the forest. -/
def normalizeObject (message : JsonObject × Bool) : Except PyError (ChatEntry τ) :=
  normalizeMessage library message.1 message.2

mutual

theorem append_eq (threadReply : Bool) : ∀ raw : Json,
    append library threadReply raw =
      (messageObjects threadReply raw).mapM (normalizeObject library)
  | .obj fields => by
      rw [append, messageObjects, List.mapM_cons, appendReplies_eq fields]
      rfl
  | .null | .bool _ | .int _ | .float _ | .str _ | .arr _ => by
      simp [append, messageObjects]
      rfl

theorem appendReplies_eq : ∀ fields : List (String × Json),
    appendReplies library fields = (replyObjects fields).mapM (normalizeObject library)
  | [] => rfl
  | (key, .arr replies) :: rest => by
      rw [appendReplies, replyObjects]
      split
      · exact appendAll_eq true replies
      · exact appendReplies_eq rest
  | (key, .obj _) :: rest | (key, .null) :: rest | (key, .bool _) :: rest
  | (key, .int _) :: rest | (key, .float _) :: rest | (key, .str _) :: rest => by
      simp only [appendReplies, replyObjects]
      split
      · rfl
      · exact appendReplies_eq rest

theorem appendAll_eq (threadReply : Bool) : ∀ messages : List Json,
    appendAll library threadReply messages =
      (forest threadReply messages).mapM (normalizeObject library)
  | [] => rfl
  | raw :: rest => by
      rw [appendAll, forest, List.mapM_append, append_eq threadReply raw,
        appendAll_eq threadReply rest]
      rfl

end

/-! ### The order -/

/-- The earlier of two entries by time and id; an undated entry comes last. -/
def InOrder (earlier later : ChatEntry τ) : Prop :=
  later.timestamp = none ∨ ∃ s t, earlier.timestamp = some s ∧ later.timestamp = some t ∧
    (s < t ∨ s = t ∧ earlier.messageId ≤ later.messageId)

/-- What `indexed.sort` leaves. -/
def sortedPairs (entries : List (ChatEntry τ)) : List (ChatEntry τ × Nat) :=
  entries.zipIdx.insertionSort fun a b => sortKey library a ≤ sortKey library b

theorem sortedPairs_perm (entries : List (ChatEntry τ)) :
    ((sortedPairs library entries).map Prod.fst).Perm entries := by
  have hperm := (List.perm_insertionSort
    (fun a b => sortKey library a ≤ sortKey library b) entries.zipIdx).map Prod.fst
  rwa [List.zipIdx_map_fst] at hperm

theorem sortedPairs_pairwise (entries : List (ChatEntry τ)) :
    (sortedPairs library entries).Pairwise fun a b => sortKey library a ≤ sortKey library b := by
  have htotal : Std.Total fun a b : ChatEntry τ × Nat => sortKey library a ≤ sortKey library b :=
    ⟨fun a b => le_total _ _⟩
  have htrans : IsTrans (ChatEntry τ × Nat) fun a b => sortKey library a ≤ sortKey library b :=
    ⟨fun a b c => le_trans⟩
  exact List.pairwise_insertionSort _ _

theorem inOrder_of_sortKey {a b : ChatEntry τ × Nat} (hle : sortKey library a ≤ sortKey library b) :
    InOrder a.1 b.1 := by
  cases hb : b.1.timestamp with
  | none => exact .inl hb
  | some t =>
      cases ha : a.1.timestamp with
      | none =>
          have hlt : true < false := by
            simpa [sortKey, ha, hb, Prod.Lex.toLex_le_toLex] using hle
          exact absurd hlt (by decide)
      | some s =>
          simp only [sortKey, ha, hb, Prod.Lex.toLex_le_toLex, Option.isNone_some, lt_irrefl,
            Option.getD_some, Bool.false_eq_true, if_false, false_or, true_and] at hle
          refine .inr ⟨s, t, ha, hb, ?_⟩
          rcases hle with hlt | ⟨heq, hlt | ⟨hid, -⟩⟩
          · exact .inl hlt
          · exact .inr ⟨heq, hlt.le⟩
          · exact .inr ⟨heq, hid.le⟩

/-- Undated entries keep their order among themselves. -/
theorem sortedPairs_undated (entries : List (ChatEntry τ)) :
    ((sortedPairs library entries).map Prod.fst).filter (fun entry => entry.timestamp.isNone) =
      entries.filter fun entry => entry.timestamp.isNone := by
  have hperm := (List.perm_insertionSort
    (fun a b => sortKey library a ≤ sortKey library b) entries.zipIdx).filter
      fun pair => pair.1.timestamp.isNone
  have hpairs : (sortedPairs library entries).filter (fun pair => pair.1.timestamp.isNone) =
      entries.zipIdx.filter fun pair => pair.1.timestamp.isNone := by
    have hantisymm : ∀ a b : ChatEntry τ × Nat,
        a ∈ (sortedPairs library entries).filter (fun pair => pair.1.timestamp.isNone) →
        b ∈ entries.zipIdx.filter (fun pair => pair.1.timestamp.isNone) →
        a.2 ≤ b.2 → b.2 ≤ a.2 → a = b := by
      intro a b ha hb hab hba
      have hindex : a.2 = b.2 := le_antisymm hab hba
      have ha := List.mem_zipIdx_iff_getElem?.mp
        ((List.perm_insertionSort _ _).mem_iff.mp (List.mem_of_mem_filter ha))
      have hb := List.mem_zipIdx_iff_getElem?.mp (List.mem_of_mem_filter hb)
      rw [hindex] at ha
      exact Prod.ext (Option.some.inj (ha.symm.trans hb)) hindex
    have hsorted : ((sortedPairs library entries).filter fun pair =>
        pair.1.timestamp.isNone).Pairwise fun a b => a.2 ≤ b.2 := by
      refine List.pairwise_filter.mpr ((sortedPairs_pairwise library entries).imp ?_)
      intro a b hle ha hb
      have ha : a.1.timestamp = none := Option.isNone_iff_eq_none.mp ha
      have hb : b.1.timestamp = none := Option.isNone_iff_eq_none.mp hb
      simpa [sortKey, ha, hb, Prod.Lex.toLex_le_toLex] using hle
    have hrange : (entries.zipIdx.map Prod.snd).Pairwise (· ≤ ·) := by
      rw [List.zipIdx_map_snd]
      exact List.pairwise_le_range'
    have hindexed : (entries.zipIdx.filter fun pair =>
        pair.1.timestamp.isNone).Pairwise fun a b => a.2 ≤ b.2 :=
      (List.pairwise_map.mp hrange).filter _
    exact List.Perm.eq_of_pairwise hantisymm hsorted hindexed hperm
  calc ((sortedPairs library entries).map Prod.fst).filter _ =
        ((sortedPairs library entries).filter fun pair => pair.1.timestamp.isNone).map Prod.fst :=
        List.filter_map
    _ = (entries.zipIdx.filter fun pair => pair.1.timestamp.isNone).map Prod.fst := by rw [hpairs]
    _ = (entries.zipIdx.map Prod.fst).filter fun entry => entry.timestamp.isNone := by
        rw [List.filter_map]
        rfl
    _ = entries.filter fun entry => entry.timestamp.isNone := by rw [List.zipIdx_map_fst]

/-- All that `_flatten_messages` can return. -/
theorem flattenMessages_eq_ok {messages : List Json} {result : List (ChatEntry τ)} :
    flattenMessages library messages = .ok result ↔
      ∃ entries, (forest false messages).mapM (normalizeObject library) = .ok entries ∧
        result = (sortedPairs library (uniqueEntries entries)).map Prod.fst := by
  rw [flattenMessages, appendAll_eq, PyError.bind_eq_ok]
  constructor
  · rintro ⟨entries, hentries, hresult⟩
    cases hresult
    exact ⟨entries, hentries, rfl⟩
  · rintro ⟨entries, hentries, rfl⟩
    exact ⟨entries, hentries, rfl⟩

end Codex2Lark.ChatDigest
