import Codex2Lark.Im.ContextProvider
import Codex2Lark.Im.Convergence
import Codex2Lark.Lib.Runs

/-!
Which versions of a message a collection may show. The page and the mirror are read apart from
each other, so the evidence is current when no message of the page meets a newer recall or
deletion, be it on the page or in the mirror.
-/

namespace Codex2Lark

open Lib IMRepository IMContextProvider

/-- No copy of the message on the page is newer. -/
def Newest (page : List MirroredMessage) (copy : MirroredMessage) : Prop :=
  ∀ other ∈ page, other.messageId = copy.messageId → other.sourceVersionMs ≤ copy.sourceVersionMs

namespace Collecting

/-- The item is the newest copy of its message on the page, and neither the page nor the mirror,
right after the collection's own upsert, has that version as recalled or deleted. -/
structure Current (page : List MirroredMessage)
    (upserted : List (MirroredMessage × Option MessageRow)) (item : ContextEvidence)
    (id : String) : Prop where
  shown : ∃ copy ∈ upserted.map Prod.fst, copy.messageId = id ∧ item = evidence copy ∧
    Newest page copy
  live : ∀ copy ∈ page, copy.messageId = id → Newest page copy → copy.isGone = false
  mirror : ∀ entry ∈ upserted, entry.1.messageId = id → Newest page entry.1 →
    ∃ row, entry.2 = some row ∧ row.isGone = false

/-- What the evidence of a bundle says about messages is current. -/
def EvidenceCurrent (s : Collecting) : Prop :=
  ∀ bundle, s.phase = .returned bundle → ∀ item ∈ bundle.evidence, ∀ id,
    item.sourceRef = messageRef id → Current s.page s.upserted item id

/-- The collection's own upsert of a live message: no newest copy of it on the page is recalled or
deleted, and where it is a newest copy itself, the mirror has no recall or deletion at its version
or a later one. -/
def meetsNoTombstone (s : Collecting) : CollectLabel → Prop
  | .upsert =>
      match s.phase with
      | .walking trigger _ (message :: _) _ =>
          message.messageId ≠ trigger.messageId → message.isGone = false →
            (∀ other ∈ s.page, other.messageId = message.messageId → Newest s.page other →
              other.isGone = false) ∧
            (Newest s.page message → ∀ row, findMessage s.db message.key = some row →
              row.isGone = true → row.updatedAtSourceMs < message.sourceVersionMs)
      | _ => True
  | _ => True

variable {s t : Collecting} {provider : IMContextProvider} {trigger : MirroredMessage}

/-! ### The references -/

theorem messageRef_injective {id other : String} (h : messageRef id = messageRef other) :
    id = other := by
  unfold messageRef at h
  exact String.append_right_inj _ |>.mp h

theorem attachmentRef_ne (messageId resourceKey id : String) :
    attachmentRef messageId resourceKey ≠ messageRef id := by
  intro h
  have hlist := congrArg String.toList h
  unfold attachmentRef messageRef at hlist
  simp at hlist

theorem exists_newest {page : List MirroredMessage} {copy : MirroredMessage} (hcopy : copy ∈ page) :
    ∃ newest ∈ page, newest.messageId = copy.messageId ∧ Newest page newest := by
  let copies := page.filter fun other => other.messageId = copy.messageId
  have hmem {other : MirroredMessage} :
      other ∈ copies ↔ other ∈ page ∧ other.messageId = copy.messageId := by
    simp [copies]
  cases hmax : copies.argmax MirroredMessage.sourceVersionMs with
  | none =>
      have hnone := List.argmax_eq_none.mp hmax
      have hin := hmem.mpr ⟨hcopy, rfl⟩
      rw [hnone] at hin
      cases hin
  | some newest =>
      obtain ⟨hnewest, hid⟩ := hmem.mp (List.argmax_mem hmax)
      refine ⟨newest, hnewest, hid, ?_⟩
      intro other hother hsame
      exact List.le_of_mem_argmax (hmem.mpr ⟨hother, hsame.trans hid⟩) hmax

/-! ### The selection -/

/-- What the loop has selected from the messages it has walked over. -/
structure Selection (trigger : MirroredMessage) (walked : List MirroredMessage)
    (selected : Dict String MirroredMessage) : Prop where
  entries : ∀ entry ∈ selected, selected.get? entry.1 = some entry.2
  sound : ∀ id copy, selected.get? id = some copy → copy.messageId = id ∧ copy ∈ walked ∧
    copy.isGone = false ∧ id ≠ trigger.messageId
  greatest : ∀ copy ∈ walked, copy.messageId ≠ trigger.messageId → copy.isGone = false →
    ∃ chosen, selected.get? copy.messageId = some chosen ∧
      copy.sourceVersionMs ≤ chosen.sourceVersionMs

theorem Selection.nil (trigger : MirroredMessage) : Selection trigger [] [] :=
  ⟨fun _ h => (by cases h), fun _ _ h => (by cases h), fun _ h => (by cases h)⟩

theorem Selection.keep {walked : List MirroredMessage} {selected : Dict String MirroredMessage}
    (hsel : Selection trigger walked selected) {message : MirroredMessage}
    (hkeep : message.messageId ≠ trigger.messageId → message.isGone = false →
      ∃ chosen, selected.get? message.messageId = some chosen ∧
        message.sourceVersionMs ≤ chosen.sourceVersionMs) :
    Selection trigger (walked ++ [message]) selected := by
  refine ⟨hsel.entries, ?_, ?_⟩
  · intro id copy hcopy
    obtain ⟨hid, hwalked, hlive, hother⟩ := hsel.sound id copy hcopy
    exact ⟨hid, List.mem_append_left _ hwalked, hlive, hother⟩
  · intro copy hcopy hother hlive
    rcases List.mem_append.mp hcopy with hold | hnew
    · exact hsel.greatest copy hold hother hlive
    · obtain rfl := List.mem_singleton.mp hnew
      exact hkeep hother hlive

theorem Selection.select {walked : List MirroredMessage} {selected : Dict String MirroredMessage}
    (hsel : Selection trigger walked selected) (message : MirroredMessage) :
    Selection trigger (walked ++ [message]) (select trigger selected message) := by
  unfold IMContextProvider.select
  split
  · rename_i hskipped
    refine hsel.keep ?_
    intro hother hlive
    rcases hskipped with hsame | hgone
    · exact absurd hsame hother
    · exact absurd (hgone.symm.trans hlive) Bool.noConfusion
  · rename_i htaken
    obtain ⟨hother, hlive⟩ := not_or.mp htaken
    have hlive : message.isGone = false := by simpa using hlive
    split
    · rename_i hnewer
      refine ⟨?_, ?_, ?_⟩
      · intro entry hentry
        rcases Dict.mem_set hentry with rfl | ⟨hold, hkey⟩
        · exact Dict.get?_set_self _ _ _
        · rw [Dict.get?_set_ne _ _ hkey]
          exact hsel.entries entry hold
      · intro id copy hcopy
        by_cases hid : id = message.messageId
        · subst hid
          rw [Dict.get?_set_self] at hcopy
          obtain rfl := Option.some.inj hcopy
          exact ⟨rfl, List.mem_append_right _ List.mem_cons_self, hlive, hother⟩
        · rw [Dict.get?_set_ne _ _ hid] at hcopy
          obtain ⟨hsame, hwalked, hrest⟩ := hsel.sound id copy hcopy
          exact ⟨hsame, List.mem_append_left _ hwalked, hrest⟩
      · intro copy hcopy hcopyOther hcopyLive
        by_cases hid : copy.messageId = message.messageId
        · refine ⟨message, by rw [hid, Dict.get?_set_self], ?_⟩
          rcases List.mem_append.mp hcopy with hold | hnew
          · obtain ⟨chosen, hchosen, hle⟩ := hsel.greatest copy hold hcopyOther hcopyLive
            rw [← hid, hchosen, Option.all_some, decide_eq_true_eq] at hnewer
            exact hle.trans hnewer.le
          · obtain rfl := List.mem_singleton.mp hnew
            exact le_rfl
        · rw [Dict.get?_set_ne _ _ hid]
          rcases List.mem_append.mp hcopy with hold | hnew
          · exact hsel.greatest copy hold hcopyOther hcopyLive
          · obtain rfl := List.mem_singleton.mp hnew
            exact absurd rfl hid
    · rename_i holder
      refine hsel.keep ?_
      intro _ _
      cases hfound : selected.get? message.messageId with
      | none =>
          rw [hfound] at holder
          exact absurd rfl holder
      | some previous =>
          rw [hfound, Option.all_some, decide_eq_true_eq] at holder
          exact ⟨previous, rfl, not_lt.mp holder⟩

/-! ### The collection -/

/-- The state of the loop, when every upsert so far has met no tombstone. -/
structure Walking (page : List MirroredMessage)
    (upserted : List (MirroredMessage × Option MessageRow)) (trigger : MirroredMessage)
    (rest : List MirroredMessage) (selected : Dict String MirroredMessage) : Prop where
  walked : page = upserted.map Prod.fst ++ rest
  selection : Selection trigger (upserted.map Prod.fst) selected
  live : ∀ copy ∈ upserted.map Prod.fst, copy.messageId ≠ trigger.messageId →
    copy.isGone = false → ∀ other ∈ page, other.messageId = copy.messageId → Newest page other →
      other.isGone = false
  mirror : ∀ entry ∈ upserted, entry.1.messageId ≠ trigger.messageId → entry.1.isGone = false →
    Newest page entry.1 → ∃ row, entry.2 = some row ∧ row.isGone = false

def Collected (page : List MirroredMessage)
    (upserted : List (MirroredMessage × Option MessageRow)) (items : List ContextEvidence) :
    Prop :=
  ∀ item ∈ items, ∀ id, item.sourceRef = messageRef id → Current page upserted item id

/-- What holds at each await. -/
def Invariant (s : Collecting) : Prop :=
  match s.phase with
  | .walking trigger _ rest selected => Walking s.page s.upserted trigger rest selected
  | .loading _ _ evidence => Collected s.page s.upserted evidence
  | .returned bundle => Collected s.page s.upserted bundle.evidence
  | .failed _ => True
  | _ => s.upserted = []

/-- The evidence that the loop leaves behind. -/
theorem Walking.collected {page : List MirroredMessage}
    {upserted : List (MirroredMessage × Option MessageRow)} {selected : Dict String MirroredMessage}
    (hwalking : Walking page upserted trigger [] selected) :
    Collected page upserted ((ordered selected).map evidence) := by
  intro item hitem id href
  obtain ⟨copy, hcopy, rfl⟩ := List.mem_map.mp hitem
  obtain ⟨entry, hentry, rfl⟩ := List.mem_map.mp ((List.mergeSort_perm _ _).mem_iff.mp hcopy)
  obtain ⟨hkey, hin, hlive, hother⟩ := hwalking.selection.sound _ _
    (hwalking.selection.entries entry hentry)
  have hid : entry.2.messageId = id := messageRef_injective href
  subst hid
  have hpage : page = upserted.map Prod.fst := by
    rw [hwalking.walked, List.append_nil]
  rw [← hkey] at hother
  have hclean := hwalking.live entry.2 hin hother hlive
  refine ⟨⟨entry.2, hin, rfl, rfl, ?_⟩, hclean, ?_⟩
  · obtain ⟨newest, hnewest, hsame, hmax⟩ := exists_newest (hpage ▸ hin)
    obtain ⟨chosen, hchosen, hle⟩ := hwalking.selection.greatest newest (hpage ▸ hnewest)
      (by rw [hsame]; exact hother) (hclean newest hnewest hsame hmax)
    have hthis := hwalking.selection.entries entry hentry
    rw [hsame, hkey, hthis] at hchosen
    obtain rfl := Option.some.inj hchosen
    intro other hmem hid
    exact (hmax other hmem (hid.trans hsame.symm)).trans hle
  · intro walked hwalked hid hmax
    refine hwalking.mirror walked hwalked (by rw [hid]; exact hother) ?_ hmax
    refine hclean walked.1 ?_ hid hmax
    rw [hpage]
    exact List.mem_map_of_mem hwalked

theorem conclude_invariant (s : Collecting) {items : List ContextEvidence}
    (hitems : Collected s.page s.upserted items) (trigger : MirroredMessage)
    (planned : List AttachmentLoadRequest) : Invariant (s.conclude trigger planned items) := by
  unfold conclude
  split
  · exact hitems
  · exact hitems

theorem walk_invariant {rest : List MirroredMessage} {selected : Dict String MirroredMessage}
    (hwalking : Walking s.page s.upserted trigger rest selected) (complete : Bool) :
    Invariant (walk provider s trigger complete rest selected) := by
  unfold walk
  split
  · rename_i hdone
    obtain rfl := List.isEmpty_iff.mp hdone
    have hitems := hwalking.collected
    dsimp only
    split
    · exact conclude_invariant (warn (warn s _) _) hitems trigger _
    · exact conclude_invariant (warn s _) hitems trigger []
  · exact hwalking

theorem walkPage_invariant (hnew : s.upserted = []) (trigger : MirroredMessage)
    (page : MessagePage) : Invariant (walkPage provider s trigger page) := by
  unfold walkPage
  refine walk_invariant ⟨?_, ?_, ?_, ?_⟩ page.complete
  · dsimp only
    rw [hnew]
    rfl
  · dsimp only
    rw [hnew]
    exact .nil trigger
  · dsimp only
    rw [hnew]
    intro copy hcopy
    cases hcopy
  · dsimp only
    rw [hnew]
    intro entry hentry
    cases hentry

theorem recover_invariant (trigger : MirroredMessage) (groups : List (List AttachmentRow))
    (recovered : List MirroredMessage) (hnew : s.upserted = []) :
    Invariant (recover provider s trigger groups recovered) := by
  induction groups generalizing s with
  | nil => exact walkPage_invariant hnew trigger ⟨recovered, false⟩
  | cons group groups ih =>
      cases group with
      | nil => exact ih hnew
      | cons candidate others =>
          unfold recover
          split
          · exact hnew
          · exact ih hnew

/-- After an upsert that is not ignored because of a tombstone, the message is shown. -/
theorem upsert_live {message : MirroredMessage} {db after : MirrorDatabase}
    (hok : upsertMessage message db = .ok (true, after)) (hlive : message.isGone = false)
    (hclean : ∀ row, findMessage db message.key = some row → row.isGone = true →
      row.updatedAtSourceMs < message.sourceVersionMs) :
    ∃ row, findMessage after message.key = some row ∧ row.isGone = false := by
  have hcases := upsertMessage_cases message db
  rw [hok] at hcases
  cases hcases with
  | @ignored row hopen hfound holder =>
      refine ⟨row, hfound, ?_⟩
      by_contra hgone
      have hless := hclean row hfound (by simpa using hgone)
      unfold MirroredMessage.version MessageRow.version at holder
      rw [Prod.Lex.toLex_lt_toLex] at holder
      rcases holder with hnewer | ⟨hsame, _⟩
      · exact absurd hless hnewer.not_gt
      · exact absurd hsame hless.ne'
  | @accepted runtime _ _ _ _ =>
      have hversion := version_stored message { upsertChat message db with runtime } message.key
      rw [if_pos rfl] at hversion
      obtain ⟨row, hrow, hsame⟩ := Option.map_eq_some_iff.mp hversion
      refine ⟨row, hrow, ?_⟩
      have hgone : row.isGone = message.isGone := congrArg (fun version => (ofLex version).2) hsame
      exact hgone.trans hlive

theorem invariant_upsert {message : MirroredMessage} {complete : Bool}
    {rest : List MirroredMessage} {selected : Dict String MirroredMessage}
    (hphase : s.phase = .walking trigger complete (message :: rest) selected)
    (hwalking : Walking s.page s.upserted trigger (message :: rest) selected)
    (hclean : meetsNoTombstone s .upsert) :
    Invariant (s.upsert message fun s => walk provider
      { s with upserted := s.upserted ++ [(message, findMessage s.db message.key)] }
      trigger complete rest (select trigger selected message)) := by
  unfold meetsNoTombstone at hclean
  rw [hphase] at hclean
  unfold Collecting.upsert
  split
  · trivial
  · trivial
  · rename_i after hok
    have hwalked : (s.upserted ++ [(message, findMessage after message.key)]).map Prod.fst =
        s.upserted.map Prod.fst ++ [message] := by
      rw [List.map_append]
      rfl
    refine walk_invariant ⟨?_, ?_, ?_, ?_⟩ complete
    · dsimp only
      rw [hwalked, List.append_assoc]
      exact hwalking.walked
    · dsimp only
      rw [hwalked]
      exact hwalking.selection.select message
    · dsimp only
      rw [hwalked]
      intro copy hcopy hother hlive
      rcases List.mem_append.mp hcopy with hold | hnew
      · exact hwalking.live copy hold hother hlive
      · obtain rfl := List.mem_singleton.mp hnew
        exact (hclean hother hlive).1
    · intro entry hentry hother hlive hmax
      rcases List.mem_append.mp hentry with hold | hnew
      · exact hwalking.mirror entry hold hother hlive hmax
      · obtain rfl := List.mem_singleton.mp hnew
        exact upsert_live hok hlive ((hclean hother hlive).2 hmax)

theorem invariant_step {l : CollectLabel} (hinv : Invariant s) (hclean : meetsNoTombstone s l)
    (hstep : step provider s l = some t) : Invariant t := by
  cases l with
  | mirror op =>
      cases hstep
      exact hinv
  | getMessage answer =>
      unfold Invariant at hinv
      dsimp only [step] at hstep
      split at hstep
      · rename_i hphase
        rw [hphase] at hinv
        split at hstep
        · cases hstep
          trivial
        · split at hstep
          · cases hstep
            trivial
          · cases hstep
            exact hinv
      · rename_i hphase
        rw [hphase] at hinv
        split at hstep
        · cases hstep
          trivial
        · split at hstep
          · cases hstep
            trivial
          · split at hstep
            · cases hstep
              exact recover_invariant _ _ _ hinv
            · cases hstep
              exact recover_invariant _ _ _ hinv
      · cases hstep
  | upsert =>
      dsimp only [step] at hstep
      split at hstep
      · rename_i hphase
        unfold Invariant at hinv
        rw [hphase] at hinv
        cases hstep
        unfold Collecting.upsert
        split
        · trivial
        · trivial
        · split
          · trivial
          · exact hinv
      · rename_i hphase
        have hwalking := hinv
        unfold Invariant at hwalking
        rw [hphase] at hwalking
        split at hstep
        · cases hstep
          trivial
        · cases hstep
          exact invariant_upsert hphase hwalking hclean
      · cases hstep
  | readPage answer =>
      dsimp only [step] at hstep
      split at hstep
      · rename_i hphase
        unfold Invariant at hinv
        rw [hphase] at hinv
        split at hstep
        · cases hstep
          exact walkPage_invariant hinv _ _
        · cases hstep
          exact hinv
        · cases hstep
          trivial
      · cases hstep
  | observe =>
      dsimp only [step] at hstep
      split at hstep
      · rename_i hphase
        unfold Invariant at hinv
        rw [hphase] at hinv
        split at hstep
        · cases hstep
          trivial
        · cases hstep
          exact recover_invariant _ _ _ hinv
      · cases hstep
  | load answer =>
      dsimp only [step] at hstep
      split at hstep
      · rename_i request planned items hphase
        unfold Invariant at hinv
        rw [hphase] at hinv
        split at hstep
        · cases hstep
          trivial
        · cases hstep
          refine conclude_invariant (warn s _) ?_ _ _
          intro item hitem id href
          rcases List.mem_append.mp hitem with hold | hnew
          · exact hinv item hold id href
          · obtain rfl := List.mem_singleton.mp hnew
            exact absurd href (attachmentRef_ne _ _ _)
      · cases hstep

/-- The evidence that a collection returns is current, whatever the page and whatever goes on in
the mirror, as long as its own upserts meet no recall and no deletion as new as the message. -/
theorem evidence_current (provider : IMContextProvider) (db : MirrorDatabase)
    (request : IMContextRequest) (ls : List CollectLabel)
    (hclean : Along (step provider) meetsNoTombstone ls { db, request }) :
    Always (step provider) EvidenceCurrent ls { db, request } := by
  refine always_of_invariant (fun _ _ _ hinv hmeets hstep => invariant_step hinv hmeets hstep) ?_
    (I := Invariant) rfl hclean
  intro s hinv bundle hphase
  unfold Invariant at hinv
  rw [hphase] at hinv
  exact hinv

private def isNewest (page : List MirroredMessage) (item : ContextEvidence)
    (copy : MirroredMessage) : Bool :=
  item.sourceRef = messageRef copy.messageId && page.all fun other =>
    other.messageId ≠ copy.messageId || other.sourceVersionMs ≤ copy.sourceVersionMs

/-- A test that current evidence passes. -/
private def passes (s : Collecting) : Bool :=
  match s.phase with
  | .returned bundle => bundle.evidence.all fun item =>
      (s.page.all fun copy => !isNewest s.page item copy || !copy.isGone) &&
        s.upserted.all fun entry =>
          !isNewest s.page item entry.1 || entry.2.any fun row => !row.isGone
  | _ => true

private theorem of_isNewest {page : List MirroredMessage} {item : ContextEvidence}
    {copy : MirroredMessage} (h : isNewest page item copy = true) :
    item.sourceRef = messageRef copy.messageId ∧ Newest page copy := by
  obtain ⟨href, hall⟩ := Bool.and_eq_true_iff.mp h
  refine ⟨of_decide_eq_true href, ?_⟩
  intro other hother hid
  have hthis := List.all_eq_true.mp hall other hother
  simpa [hid] using hthis

private theorem passes_of_current (s : Collecting) (hcurrent : EvidenceCurrent s) :
    passes s = true := by
  unfold passes
  split
  · rename_i bundle hphase
    refine List.all_eq_true.mpr ?_
    intro item hitem
    refine Bool.and_eq_true_iff.mpr ⟨?_, ?_⟩
    · refine List.all_eq_true.mpr ?_
      intro copy hcopy
      cases hnewest : isNewest s.page item copy with
      | false => rfl
      | true =>
          obtain ⟨href, hmax⟩ := of_isNewest hnewest
          have hlive := (hcurrent bundle hphase item hitem _ href).live copy hcopy rfl hmax
          rw [hlive]
          rfl
    · refine List.all_eq_true.mpr ?_
      intro entry hentry
      cases hnewest : isNewest s.page item entry.1 with
      | false => rfl
      | true =>
          obtain ⟨href, hmax⟩ := of_isNewest hnewest
          obtain ⟨row, hrow, hlive⟩ :=
            (hcurrent bundle hphase item hitem _ href).mirror entry hentry rfl hmax
          rw [hrow, Option.any_some, hlive]
          rfl
  · rfl

private def question : MirroredMessage :=
  { eventId := "event-1", tenantKey := "tenant", appId := "app", chatId := "chat"
    chatType := "group", messageId := "message-1", messageType := "text", senderId := "user"
    senderType := "user", bodyText := "why?", mentions := [], occurredAtMs := 10
    receivedAtMs := 11 }

private def remark : MirroredMessage :=
  { question with
    messageId := "message-2", bodyText := "a remark", occurredAtMs := 1
    identified := by decide }

private def asked : IMContextRequest :=
  { tenantKey := "tenant", appId := "app", chatId := "chat", messageId := "message-1" }

/-- Neither the question nor the remark has a letter that folds. -/
private def lowercase : IMContextProvider := { normalized := id }

private def collection (page : List MirroredMessage) (between : List MirrorOp) :
    List CollectLabel :=
  [.getMessage (.ok question), .upsert, .readPage (.page ⟨page, true⟩)] ++
    between.map .mirror ++ page.map fun _ => .upsert

/-- The references that a collection has returned. -/
private def returnedRefs (s : Collecting) : Option (List String) :=
  match s.phase with
  | .returned bundle => some (bundle.evidence.map ContextEvidence.sourceRef)
  | _ => none

private def meetsNothingNew (s : Collecting) : CollectLabel → Bool
  | .upsert =>
      match s.phase with
      | .walking _ _ (message :: _) _ =>
          (s.page.all fun other => !other.isGone) && s.db.messages.all fun row =>
            !row.isGone || row.updatedAtSourceMs < message.sourceVersionMs
      | _ => true
  | _ => true

private theorem meetsNoTombstone_of_check (s : Collecting) (l : CollectLabel)
    (hcheck : meetsNothingNew s l = true) : meetsNoTombstone s l := by
  cases l with
  | upsert =>
      unfold meetsNothingNew at hcheck
      unfold meetsNoTombstone
      dsimp only at hcheck ⊢
      split
      · rename_i hphase
        rw [hphase] at hcheck
        obtain ⟨hpage, hmirror⟩ := Bool.and_eq_true_iff.mp hcheck
        intro _ _
        constructor
        · intro other hother _ _
          simpa using List.all_eq_true.mp hpage other hother
        · intro _ row hrow hgone
          have hrowMem := List.mem_of_find?_eq_some hrow
          simpa [hgone] using List.all_eq_true.mp hmirror row hrowMem
      · trivial
  | _ => trivial

/-- The page has two versions of the remark, and an older recall of it arrives meanwhile. -/
theorem evidence_current_edited :
    let edited : MirroredMessage := { remark with updatedAtMs := some 5 }
    let withdrawal : MirrorOp := .message (.invalidate ⟨question.chatKey, "message-2", 0, 12⟩)
    let ls := collection [remark, edited] [withdrawal]
    Always (step lowercase) EvidenceCurrent ls { db := {}, request := asked } ∧
      (exec (step lowercase) ls { db := {}, request := asked }).bind returnedRefs =
        some ["im.message:message-2"] := by
  intro edited withdrawal ls
  exact ⟨evidence_current lowercase {} asked ls
    (along_of_check meetsNoTombstone_of_check (by decide +kernel)), by decide +kernel⟩

/-- The remark is recalled between the answer of the live source and its upsert; and a page lists
the remark before the copy that says that it was deleted. -/
theorem tombstones_overlooked :
    let deleted : MirroredMessage := { remark with updatedAtMs := some 2, isDeleted := true }
    let withdrawal : MirrorOp := .message (.invalidate ⟨question.chatKey, "message-2", 2, 12⟩)
    ¬ Always (step lowercase) EvidenceCurrent (collection [remark] [withdrawal])
        { db := {}, request := asked } ∧
      ¬ Always (step lowercase) EvidenceCurrent (collection [remark, deleted] [])
        { db := {}, request := asked } :=
  ⟨not_always_of_check passes_of_current (by decide +kernel),
    not_always_of_check passes_of_current (by decide +kernel)⟩

end Collecting

end Codex2Lark
