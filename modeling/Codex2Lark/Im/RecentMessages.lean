import Codex2Lark.Im.LiveReader
import Codex2Lark.Lib.Windows

/-!
Which messages of a chat the live reader and the mirror give. The mirror gives the last `limit` of
its visible rows up to a time; the live reader the first `limit` of what the API serves.
-/

namespace Codex2Lark

open Lib IMRepository

/-! ### The mirror -/

namespace IMRepository

theorem recentMessages_eq_latest {chat : ChatKey} {beforeMs : Int} {limit : Nat} {db : MirrorDatabase}
    (hpositive : 1 ≤ limit) (hbound : limit ≤ 100) :
    recentMessages chat beforeMs limit db =
      .ok (Windows.latest limit ((visibleUntil chat beforeMs db).mergeSort laterFirst).reverse) := by
  have hrange : ¬ (limit < 1 ∨ limit > 100) := by omega
  rw [recentMessages, if_neg hrange, Windows.reverse_take_eq_latest]

/-- The rows the mirror chooses from, oldest first. -/
theorem visible_ascending (chat : ChatKey) (beforeMs : Int) (db : MirrorDatabase) :
    ((visibleUntil chat beforeMs db).mergeSort laterFirst).reverse.Pairwise
      fun a b => a.createdAtSourceMs ≤ b.createdAtSourceMs := by
  have htrans : ∀ a b c : MessageRow, laterFirst a b = true → laterFirst b c = true →
      laterFirst a c = true := by
    intro a b c hab hbc
    simp only [laterFirst, Bool.or_eq_true, Bool.and_eq_true, decide_eq_true_eq] at hab hbc ⊢
    rcases hab with hab | ⟨hab, hida⟩
    · rcases hbc with hbc | ⟨hbc, -⟩
      · exact .inl (by omega)
      · exact .inl (by omega)
    · rcases hbc with hbc | ⟨hbc, hidb⟩
      · exact .inl (by omega)
      · exact .inr ⟨by omega, String.le_trans hidb hida⟩
  have htotal : ∀ a b : MessageRow, (laterFirst a b || laterFirst b a) = true := by
    intro a b
    simp only [laterFirst, Bool.or_eq_true, Bool.and_eq_true, decide_eq_true_eq]
    rcases Int.lt_trichotomy a.createdAtSourceMs b.createdAtSourceMs with hlt | heq | hgt
    · exact .inr (.inl hlt)
    · rcases String.le_total b.key.messageId a.key.messageId with hid | hid
      · exact .inl (.inr ⟨heq, hid⟩)
      · exact .inr (.inr ⟨heq.symm, hid⟩)
    · exact .inl (.inl hgt)
  refine List.pairwise_reverse.mpr (List.Pairwise.imp ?_
    (List.pairwise_mergeSort htrans htotal _))
  intro a b hab
  simp only [laterFirst, Bool.or_eq_true, Bool.and_eq_true, decide_eq_true_eq] at hab
  omega

end IMRepository

namespace OfficialLiveIMReader

/-! ### The pages of a window -/

/-- What the API serves of one window of a container: its messages page by page, `position` the
number of messages that a page token has passed. -/
structure ListsWindow (alist : ListMessageRequest → ListMessageResponse)
    (containerType containerId : String) (startTimeS endTimeS : Option Int)
    (window : List WireMessage) (position : Option String → Option Nat) : Prop where
  start : position none = some 0
  page : ∀ token passed pageSize, position token = some passed → 1 ≤ pageSize → ∃ count ≤ pageSize,
    let response := alist
      { containerIdType := containerType, containerId, sortType := "ByCreateTimeAsc", pageSize
        startTime := startTimeS, endTime := endTimeS, pageToken := token }
    response.code = 0 ∧ response.items = (window.drop passed).take count ∧
      (passed < window.length → 1 ≤ count) ∧
      (response.hasMore = true ↔ passed + count < window.length) ∧
      (response.hasMore = true → ∃ next, response.pageToken = some next ∧ next ≠ "" ∧
        position (some next) = some (passed + count))

variable {reader : OfficialLiveIMReader} {request : IMContextRequest}
  {containerType containerId : String} {startTimeS endTimeS : Option Int}
  {window : List WireMessage} {position : Option String → Option Nat}
  {messages : List MirroredMessage} {limit : Nat}

/-- One page, normalised. -/
theorem list_page
    (hlists : ListsWindow reader.alist containerType containerId startTimeS endTimeS window position)
    (hmessages : List.Forall₂ (fun item message => reader.normalize request item = .ok message)
      window messages)
    {token : Option String} {passed wanted : Nat}
    (htoken : position (token.filter (· ≠ "")) = some passed) (hwanted : 1 ≤ wanted) :
    ∃ page count, reader.list containerType containerId startTimeS endTimeS wanted token = .ok page ∧
      page.items.mapM (reader.normalize request) = .ok ((messages.drop passed).take count) ∧
      count ≤ wanted ∧ (passed < messages.length → 1 ≤ count) ∧
      (page.hasMore = true ↔ passed + count < messages.length) ∧
      (page.hasMore = true → ∃ next, page.pageToken = some next ∧
        position ((some next).filter (· ≠ "")) = some (passed + count)) := by
  obtain ⟨count, hsize, hcode, hitems, hsome, hmore, hnext⟩ :=
    hlists.page _ passed (min 50 wanted) htoken (by omega)
  have hlength : window.length = messages.length := hmessages.length_eq
  let response := reader.alist
    (listRequest containerType containerId startTimeS endTimeS wanted token)
  refine ⟨⟨response.items, response.hasMore, response.pageToken.filter (· ≠ "")⟩, count, ?_, ?_,
    by omega, ?_, ?_, ?_⟩
  · have hsuccess : requireSuccess response = .ok () := by
      rw [requireSuccess]
      exact if_pos hcode
    show (do requireSuccess response; _) = _
    rw [hsuccess]
    rfl
  · show List.mapM _ response.items = _
    rw [show response.items = (window.drop passed).take count from hitems]
    exact Table.mapM_of_forall₂ (List.forall₂_take count (List.forall₂_drop passed hmessages))
  · rw [← hlength]
    exact hsome
  · rw [← hlength]
    exact hmore
  · intro hpage
    obtain ⟨next, htext, hne, hposition⟩ := hnext hpage
    have htoken : response.pageToken = some next := htext
    have hkept : (some next).filter (· ≠ "") = some next := by simp [hne]
    exact ⟨next, by rw [htoken, hkept], by rw [hkept, hposition]⟩

/-- The loop gives the first `limit` messages of the window. -/
theorem collect_eq_take
    (hlists : ListsWindow reader.alist containerType containerId startTimeS endTimeS window position)
    (hmessages : List.Forall₂ (fun item message => reader.normalize request item = .ok message)
      window messages) (pages : Nat) {token : Option String} {passed : Nat}
    (htoken : position (token.filter (· ≠ "")) = some passed)
    (hinside : passed ≤ messages.length) (hroom : passed < limit) (hpages : limit - passed ≤ pages) :
    ∃ complete, reader.collect request containerType containerId startTimeS endTimeS limit pages
      (messages.take passed) token = some (.ok ⟨messages.take limit, complete⟩) := by
  induction pages generalizing token passed with
  | zero => omega
  | succ pages ih =>
      have hlength : (messages.take passed).length = passed := by
        rw [List.length_take]
        omega
      obtain ⟨page, count, hpage, hitems, hfits, hsome, hmore, hnext⟩ :=
        list_page hlists hmessages htoken (show 1 ≤ limit - passed from by omega)
      have happend : messages.take passed ++ (messages.drop passed).take count =
          messages.take (passed + count) := by
        rw [List.take_add]
      simp only [collect, hlength, hroom, if_true, hpage, hitems, happend]
      by_cases hcontinues : page.hasMore = true
      · have hshort := hmore.mp hcontinues
        obtain ⟨next, htext, hposition⟩ := hnext hcontinues
        have htaken : (messages.take (passed + count)).length = passed + count := by
          rw [List.length_take]
          omega
        simp only [hcontinues, htext, htaken]
        by_cases hfull : limit ≤ passed + count
        · have hexact : passed + count = limit := by omega
          refine ⟨false, ?_⟩
          simp [hexact]
        · have hprogress : 1 ≤ count := hsome (by omega)
          obtain ⟨complete, hrest⟩ := ih hposition (by omega) (by omega) (by omega)
          refine ⟨complete, ?_⟩
          simp [hfull, hrest]
      · have hlast : messages.length ≤ passed + count := by
          by_contra hmiss
          exact hcontinues (hmore.mpr (by omega))
        refine ⟨true, ?_⟩
        simp only [hcontinues, Bool.not_false, if_true]
        rw [List.take_of_length_le hlast]

/-! ### The recent messages -/

/-- The messages of the window up to the trigger. -/
def upTo (trigger : MirroredMessage) (sinceMs : Int) (messages : List MirroredMessage) :
    List MirroredMessage :=
  Windows.between (·.occurredAtMs) sinceMs trigger.occurredAtMs messages

/-- The live reader gives the last `limit` messages of the window up to the trigger exactly when
that is all of them, and the API serves nothing older and, before the limit, nothing later. -/
theorem recent_messages_latest_iff {trigger : MirroredMessage} {sinceMs : Int} {pages : Nat}
    (hlimit : 1 ≤ limit) (hpages : limit ≤ pages)
    (hlists : ListsWindow reader.alist "chat" trigger.chatId (some (sinceMs / 1000))
      (some (trigger.occurredAtMs / 1000 + 1)) window position)
    (hmessages : window.mapM (reader.normalize (contextRequest trigger)) = .ok messages)
    (hids : (messages.map (·.messageId)).Nodup)
    (hsorted : messages.Pairwise fun a b => a.occurredAtMs ≤ b.occurredAtMs) :
    (∃ page, reader.recentMessages pages trigger sinceMs limit = some (.ok page) ∧
        page.messages = Windows.latest limit (upTo trigger sinceMs messages)) ↔
      (∀ message ∈ messages, sinceMs ≤ message.occurredAtMs) ∧
        (upTo trigger sinceMs messages).length ≤ limit ∧
        ((upTo trigger sinceMs messages).length < limit →
          ∀ message ∈ messages, message.occurredAtMs ≤ trigger.occurredAtMs) := by
  have hfirst : position ((none : Option String).filter (· ≠ "")) = some 0 := hlists.start
  obtain ⟨complete, hrun⟩ := collect_eq_take hlists (Table.forall₂_of_mapM hmessages) pages
    hfirst (Nat.zero_le _) (show 0 < limit from hlimit) hpages
  have hrecent : reader.recentMessages pages trigger sinceMs limit =
      some (.ok ⟨messages.take limit, complete⟩) := hrun
  refine Iff.trans ?_ (Windows.take_eq_latest_iff hsorted hids.of_map hlimit)
  constructor
  · rintro ⟨page, hpage, hlatest⟩
    rw [hrecent] at hpage
    cases hpage
    exact hlatest
  · intro hlatest
    exact ⟨_, hrecent, hlatest⟩

/-- An API that serves a window in pages of the asked size; a token is as long as what it passed. -/
private def servedWindow (window : List WireMessage) (request : ListMessageRequest) :
    ListMessageResponse :=
  let passed := (request.pageToken.getD "").length
  { code := 0, items := (window.drop passed).take request.pageSize
    hasMore := passed + request.pageSize < window.length
    pageToken := some (String.ofList (List.replicate (passed + request.pageSize) 'x')) }

private theorem served_lists (window : List WireMessage) (containerType containerId : String)
    (startTimeS endTimeS : Option Int) :
    ListsWindow (servedWindow window) containerType containerId startTimeS endTimeS window
      fun token => some (token.getD "").length := by
  refine ⟨rfl, ?_⟩
  intro token passed pageSize htoken hsize
  have hpassed : (token.getD "").length = passed := Option.some.inj htoken
  refine ⟨pageSize, le_rfl, rfl, ?_, fun _ => hsize, ?_, ?_⟩
  · simp [servedWindow, hpassed]
  · simp [servedWindow, hpassed]
  · intro _
    refine ⟨_, rfl, ?_, ?_⟩
    · intro hempty
      have hlength := congrArg String.length hempty
      simp at hlength
      omega
    · simp [hpassed]

private def spoken (messageId : String) (createTime : Int) : WireMessage where
  messageId := some messageId
  chatId := some "oc_1"
  senderId := some "ou_1"
  msgType := some "text"
  createTime := .number createTime

private def asked : MirroredMessage where
  eventId := "e1"
  tenantKey := "t1"
  appId := "cli_1"
  chatId := "oc_1"
  chatType := "group"
  messageId := "om_2"
  messageType := "text"
  senderId := "ou_1"
  senderType := "user"
  bodyText := ""
  mentions := []
  occurredAtMs := 1700000009000
  receivedAtMs := 1700000009000
  identified := by decide

private def chatReader (window : List WireMessage) : OfficialLiveIMReader where
  alist := servedWindow window
  botOpenId := some "ou_bot"
  loads _ := none
  parseInt _ := none

private def twoSpoken : List WireMessage :=
  [spoken "om_1" 1700000005000, spoken "om_2" 1700000009000]

private theorem two_heard : ∃ first second : MirroredMessage,
    twoSpoken.mapM ((chatReader twoSpoken).normalize (contextRequest asked)) =
      .ok [first, second] ∧
    (first.messageId = "om_1" ∧ first.occurredAtMs = 1700000005000) ∧
    second.messageId = "om_2" ∧ second.occurredAtMs = 1700000009000 := by
  have hcolumns :
      (twoSpoken.mapM ((chatReader twoSpoken).normalize (contextRequest asked))).map
        (fun messages => messages.map fun message => (message.messageId, message.occurredAtMs)) =
      .ok [("om_1", 1700000005000), ("om_2", 1700000009000)] := by
    decide +kernel
  cases hheard : twoSpoken.mapM ((chatReader twoSpoken).normalize (contextRequest asked)) with
  | error failure =>
      rw [hheard] at hcolumns
      cases hcolumns
  | ok messages =>
      rw [hheard] at hcolumns
      obtain ⟨first, rest, rfl, hfirst, hrest⟩ := List.map_eq_cons_iff.mp (Except.ok.inj hcolumns)
      obtain ⟨second, rest, rfl, hsecond, hrest⟩ := List.map_eq_cons_iff.mp hrest
      obtain rfl := List.map_eq_nil_iff.mp hrest
      exact ⟨first, second, rfl, Prod.ext_iff.mp hfirst, Prod.ext_iff.mp hsecond⟩

/-- Two messages up to the trigger, and room for two. -/
theorem recent_messages_two_fit :
    ∃ page, (chatReader twoSpoken).recentMessages 2 asked 1700000000000 2 = some (.ok page) ∧
      page.messages.map (·.messageId) = ["om_1", "om_2"] := by
  obtain ⟨first, second, hheard, ⟨hfirst, hfirstAt⟩, hsecond, hsecondAt⟩ := two_heard
  have hwindow : upTo asked 1700000000000 [first, second] = [first, second] := by
    simp [upTo, Windows.between, asked, hfirstAt, hsecondAt]
  have hiff := recent_messages_latest_iff (show 1 ≤ 2 from by decide) (le_refl 2)
    (served_lists twoSpoken "chat" asked.chatId (some (1700000000000 / 1000))
      (some (asked.occurredAtMs / 1000 + 1))) hheard (by simp [hfirst, hsecond])
    (by simp [hfirstAt, hsecondAt])
  obtain ⟨page, hpage, hlatest⟩ := hiff.mpr
    ⟨by simp [hfirstAt, hsecondAt], by simp [hwindow], by simp [hwindow]⟩
  refine ⟨page, hpage, ?_⟩
  simp [hlatest, hwindow, Windows.latest, hfirst, hsecond]

/-- With room for one, the message before the trigger is given and the trigger is dropped. -/
theorem recent_messages_keep_oldest :
    ListsWindow (chatReader twoSpoken).alist "chat" asked.chatId (some (1700000000000 / 1000))
      (some (asked.occurredAtMs / 1000 + 1)) twoSpoken (fun token => some (token.getD "").length) ∧
    ∃ messages page,
      twoSpoken.mapM ((chatReader twoSpoken).normalize (contextRequest asked)) = .ok messages ∧
      (messages.map (·.messageId)).Nodup ∧
      (messages.Pairwise fun a b => a.occurredAtMs ≤ b.occurredAtMs) ∧
      (chatReader twoSpoken).recentMessages 1 asked 1700000000000 1 = some (.ok page) ∧
      page.messages.map (·.messageId) = ["om_1"] ∧
      (Windows.latest 1 (upTo asked 1700000000000 messages)).map (·.messageId) = ["om_2"] := by
  obtain ⟨first, second, hheard, ⟨hfirst, hfirstAt⟩, hsecond, hsecondAt⟩ := two_heard
  have hlists := served_lists twoSpoken "chat" asked.chatId (some (1700000000000 / 1000))
    (some (asked.occurredAtMs / 1000 + 1))
  have hstart : some (((none : Option String).filter (· ≠ "")).getD "").length = some 0 :=
    hlists.start
  obtain ⟨complete, hrun⟩ := collect_eq_take hlists (Table.forall₂_of_mapM hheard) 1
    hstart (Nat.zero_le _) (show 0 < 1 from by decide) (by decide)
  refine ⟨hlists, [first, second], _, hheard, by simp [hfirst, hsecond], by simp [hfirstAt, hsecondAt],
    hrun, by simp [hfirst], ?_⟩
  simp [upTo, Windows.between, Windows.latest, asked, hfirstAt, hsecondAt, hsecond]

end OfficialLiveIMReader

end Codex2Lark
