import Codex2Lark.Im.LiveReader

/-!
The loop of `_collect` against an API whose pages come in any order: when it ends, and what
`complete` says of the pages that it was given.
-/

namespace Codex2Lark

open Lib

namespace OfficialLiveIMReader

/-- `_collect` with any `IMMessageAPI`: `answer` is what its `list` gives on each call, for the
limit and the token of the call. -/
def collectCalls (reader : OfficialLiveIMReader) (request : IMContextRequest)
    (answer : Nat → Nat → Option String → Except PyError WireMessagePage) (limit : Nat) :
    Nat → Nat → List MirroredMessage → Option String → Option (Except PyError MessagePage)
  | 0, _, messages, _ =>
      if messages.length < limit then none else some (.ok ⟨messages.take limit, true⟩)
  | calls + 1, call, messages, token =>
      if messages.length < limit then
        match answer call (limit - messages.length) token with
        | .error failure => some (.error failure)
        | .ok page =>
            match page.items.mapM (reader.normalize request) with
            | .error failure => some (.error failure)
            | .ok items =>
                let messages := messages ++ items
                if !page.hasMore then some (.ok ⟨messages.take limit, true⟩)
                else
                  match page.pageToken.filter (· ≠ "") with
                  | none => some (.ok ⟨messages.take limit, false⟩)
                  | some token =>
                      if limit ≤ messages.length then some (.ok ⟨messages.take limit, false⟩)
                      else collectCalls reader request answer limit calls (call + 1) messages (some token)
      else some (.ok ⟨messages.take limit, true⟩)

variable {reader : OfficialLiveIMReader} {request : IMContextRequest}

theorem list_pageToken {containerType containerId : String} {startTimeS endTimeS : Option Int}
    {limit : Nat} {token : Option String} {page : WireMessagePage}
    (hpage : reader.list containerType containerId startTimeS endTimeS limit token = .ok page) :
    page.pageToken.filter (· ≠ "") = page.pageToken := by
  obtain ⟨_, _, hpage⟩ := PyError.bind_eq_ok.mp hpage
  cases hpage
  simp [Option.filter_filter]

/-- The loop of the official API. -/
theorem collect_eq_collectCalls (containerType containerId : String)
    (startTimeS endTimeS : Option Int) (limit calls call : Nat) (messages : List MirroredMessage)
    (token : Option String) :
    reader.collect request containerType containerId startTimeS endTimeS limit calls messages token =
      reader.collectCalls request
        (fun _ limit token => reader.list containerType containerId startTimeS endTimeS limit token)
        limit calls call messages token := by
  induction calls generalizing call messages token with
  | zero => rfl
  | succ calls ih =>
      unfold collect collectCalls
      cases hpage : reader.list containerType containerId startTimeS endTimeS
        (limit - messages.length) token with
      | error failure => rfl
      | ok page =>
          have hkept := list_pageToken hpage
          dsimp only
          cases page.items.mapM (reader.normalize request) with
          | error failure => rfl
          | ok items =>
              cases htoken : page.pageToken with
              | none =>
                  rw [htoken] at hkept
                  simp only [hkept]
              | some next =>
                  rw [htoken] at hkept
                  simp only [hkept, ih (call + 1)]

/-! ### The pages given so far -/

section Pages

variable (reader request) (pages : Nat → Except PyError WireMessagePage) (limit : Nat)

def itemsOf (answer : Except PyError WireMessagePage) : List WireMessage :=
  match answer with
  | .ok page => page.items
  | .error _ => []

/-- The items of the first pages. -/
def served (count : Nat) : List WireMessage := (List.range count).flatMap fun i => itemsOf (pages i)

/-- The page of this call is the last that the loop asks for, if it comes to it. -/
def stops (call : Nat) : Bool :=
  match pages call with
  | .error _ => true
  | .ok page =>
      !(page.items.mapM (reader.normalize request)).isOk || !page.hasMore ||
        (page.pageToken.filter (· ≠ "")).isNone || limit ≤ (served pages (call + 1)).length

/-- The loop over the given pages. -/
def collectPages (calls : Nat) : Option (Except PyError MessagePage) :=
  reader.collectCalls request (fun call _ _ => pages call) limit calls 0 [] none

variable {reader request pages limit}

theorem served_succ (count : Nat) :
    served pages (count + 1) = served pages count ++ itemsOf (pages count) := by
  simp [served, List.range_succ]

/-- A page that does not end the loop. -/
theorem continues_cases {call : Nat} (hgoes : stops reader request pages limit call = false) :
    ∃ page items token, pages call = .ok page ∧
      page.items.mapM (reader.normalize request) = .ok items ∧ page.hasMore = true ∧
      page.pageToken.filter (· ≠ "") = some token ∧ (served pages (call + 1)).length < limit := by
  unfold stops at hgoes
  cases hpage : pages call with
  | error failure => simp [hpage] at hgoes
  | ok page =>
      simp only [hpage, Bool.or_eq_false_iff, Bool.not_eq_false', decide_eq_false_iff_not,
        Option.isNone_eq_false_iff, Nat.not_le] at hgoes
      obtain ⟨⟨⟨hitems, hmore⟩, htoken⟩, hroom⟩ := hgoes
      obtain ⟨token, htoken⟩ := Option.isSome_iff_exists.mp htoken
      cases hnormal : page.items.mapM (reader.normalize request) with
      | error failure =>
          rw [hnormal] at hitems
          cases hitems
      | ok items => exact ⟨page, items, token, rfl, hnormal, hmore, htoken, hroom⟩

/-- What the loop has collected before a call. -/
def Collected (reader : OfficialLiveIMReader) (request : IMContextRequest)
    (pages : Nat → Except PyError WireMessagePage) (call : Nat) (messages : List MirroredMessage) :
    Prop :=
  (served pages call).mapM (reader.normalize request) = .ok messages

theorem Collected.length_eq {call : Nat} {messages : List MirroredMessage}
    (hcollected : Collected reader request pages call messages) :
    messages.length = (served pages call).length :=
  (Table.forall₂_of_mapM hcollected).length_eq.symm

theorem Collected.page {call : Nat} {messages items : List MirroredMessage} {page : WireMessagePage}
    (hcollected : Collected reader request pages call messages) (hpage : pages call = .ok page)
    (hitems : page.items.mapM (reader.normalize request) = .ok items) :
    Collected reader request pages (call + 1) (messages ++ items) := by
  unfold Collected at hcollected ⊢
  rw [served_succ, hpage, List.mapM_append, hcollected]
  show (do let b ← page.items.mapM (reader.normalize request); _) = _
  rw [hitems]
  rfl

/-- One page that does not end the loop. -/
theorem collectCalls_continues {call : Nat} {messages : List MirroredMessage} {token : Option String}
    (hcollected : Collected reader request pages call messages) (hroom : messages.length < limit)
    (hgoes : stops reader request pages limit call = false) :
    ∃ more next, Collected reader request pages (call + 1) more ∧ more.length < limit ∧
      ∀ calls, reader.collectCalls request (fun call _ _ => pages call) limit (calls + 1) call
          messages token =
        reader.collectCalls request (fun call _ _ => pages call) limit calls (call + 1) more
          (some next) := by
  obtain ⟨page, items, next, hpage, hitems, hmore, htoken, hshort⟩ := continues_cases hgoes
  have hcollected' := hcollected.page hpage hitems
  have hlength := hcollected'.length_eq
  refine ⟨messages ++ items, next, hcollected', by omega, ?_⟩
  intro calls
  have hfull : ¬ limit ≤ (messages ++ items).length := by omega
  rw [collectCalls]
  simp only [hroom, if_true, hpage, hitems, hmore, Bool.not_true, Bool.false_eq_true, if_false,
    htoken, hfull]

/-- The page that ends the loop. -/
theorem collectCalls_stops {call : Nat} {messages : List MirroredMessage} {token : Option String}
    (hcollected : Collected reader request pages call messages) (hroom : messages.length < limit)
    (hstops : stops reader request pages limit call = true) :
    ∃ outcome, (∀ calls, reader.collectCalls request (fun call _ _ => pages call) limit (calls + 1)
        call messages token = some outcome) ∧
      (∀ page, pages call = .ok page → (page.items.mapM (reader.normalize request)).isOk = true →
        ∃ result, outcome = .ok result) ∧
      ∀ result, outcome = .ok result → ∃ page collected, pages call = .ok page ∧
        (page.items.mapM (reader.normalize request)).isOk = true ∧
        Collected reader request pages (call + 1) collected ∧
        result.messages = collected.take limit ∧ (result.complete = true ↔ page.hasMore = false) := by
  cases hpage : pages call with
  | error failure =>
      refine ⟨.error failure, ?_, nofun, nofun⟩
      intro calls
      rw [collectCalls]
      simp [hroom, hpage]
  | ok page =>
      cases hitems : page.items.mapM (reader.normalize request) with
      | error failure =>
          refine ⟨.error failure, ?_, ?_, nofun⟩
          · intro calls
            rw [collectCalls]
            simp [hroom, hpage, hitems]
          · rintro _ ⟨⟩ hnormal
            rw [hitems] at hnormal
            cases hnormal
      | ok items =>
          have hcollected' := hcollected.page hpage hitems
          refine ⟨.ok ⟨(messages ++ items).take limit, !page.hasMore⟩, ?_, fun _ _ _ => ⟨_, rfl⟩, ?_⟩
          · intro calls
            rw [collectCalls]
            have hlength := hcollected'.length_eq
            by_cases hmore : page.hasMore = true
            · cases htoken : page.pageToken.filter (· ≠ "") with
              | none => simp only [hroom, if_true, hpage, hitems, hmore, Bool.not_true,
                  Bool.false_eq_true, if_false, htoken]
              | some next =>
                  have hfull : limit ≤ (messages ++ items).length := by
                    rw [hlength]
                    simpa only [stops, hpage, hitems, hmore, htoken, Except.isOk, Except.toBool,
                      Bool.not_true, Option.isNone_some, Bool.false_or, decide_eq_true_eq]
                      using hstops
                  simp only [hroom, if_true, hpage, hitems, hmore, Bool.not_true,
                    Bool.false_eq_true, if_false, htoken, hfull]
            · simp [hroom, hpage, hitems, hmore]
          · rintro result ⟨⟩
            exact ⟨page, messages ++ items, rfl, by rw [hitems]; rfl, hcollected', rfl, by simp⟩

/-! ### A whole run -/

/-- As long as no page ends it, the loop goes on with what it has collected. -/
theorem collectPages_reaches (hlimit : 1 ≤ limit) (count : Nat)
    (hgoes : ∀ i < count, stops reader request pages limit i = false) :
    ∃ messages token, Collected reader request pages count messages ∧ messages.length < limit ∧
      ∀ calls, collectPages reader request pages limit (count + calls) =
        reader.collectCalls request (fun call _ _ => pages call) limit calls count messages token := by
  induction count with
  | zero =>
      refine ⟨[], none, rfl, hlimit, ?_⟩
      intro calls
      rw [Nat.zero_add]
      rfl
  | succ count ih =>
      obtain ⟨messages, token, hcollected, hroom, hrun⟩ := ih fun i hi => hgoes i (by omega)
      obtain ⟨more, next, hcollected', hroom', hstep⟩ :=
        collectCalls_continues hcollected hroom (hgoes count (Nat.lt_succ_self _))
      refine ⟨more, some next, hcollected', hroom', ?_⟩
      intro calls
      rw [show count + 1 + calls = count + (calls + 1) from by omega, hrun, hstep]

theorem collectPages_unfinished (hlimit : 1 ≤ limit) {calls : Nat}
    (hgoes : ∀ i < calls, stops reader request pages limit i = false) :
    collectPages reader request pages limit calls = none := by
  obtain ⟨messages, token, _, hroom, hrun⟩ := collectPages_reaches hlimit calls hgoes
  rw [show calls = calls + 0 from rfl, hrun, collectCalls, if_pos hroom]

/-- The first page that ends the loop decides what it returns. -/
theorem collectPages_finished (hlimit : 1 ≤ limit) {last : Nat}
    (hstops : stops reader request pages limit last = true)
    (hgoes : ∀ i < last, stops reader request pages limit i = false) :
    ∃ outcome, (∀ calls, collectPages reader request pages limit (last + (calls + 1)) = some outcome) ∧
      (∀ page, pages last = .ok page → (page.items.mapM (reader.normalize request)).isOk = true →
        ∃ result, outcome = .ok result) ∧
      ∀ result, outcome = .ok result → ∃ page collected, pages last = .ok page ∧
        (page.items.mapM (reader.normalize request)).isOk = true ∧
        Collected reader request pages (last + 1) collected ∧
        result.messages = collected.take limit ∧ (result.complete = true ↔ page.hasMore = false) := by
  obtain ⟨messages, token, hcollected, hroom, hrun⟩ := collectPages_reaches hlimit last hgoes
  obtain ⟨outcome, hends, hresult⟩ := collectCalls_stops hcollected hroom hstops
  refine ⟨outcome, ?_, hresult⟩
  intro calls
  rw [hrun, hends]

/-- Every item of every page, up to a page that has no more, is in the result. -/
def Covers (reader : OfficialLiveIMReader) (request : IMContextRequest)
    (pages : Nat → Except PyError WireMessagePage) (result : MessagePage) : Prop :=
  ∃ last page all, pages last = .ok page ∧ page.hasMore = false ∧
    (∀ i < last, ∃ earlier, pages i = .ok earlier ∧ earlier.hasMore = true) ∧
    (served pages (last + 1)).mapM (reader.normalize request) = .ok all ∧
    all.Subperm result.messages

/-- A page without more ends the loop. -/
theorem stops_of_last {call : Nat} {page : WireMessagePage} (hpage : pages call = .ok page)
    (hlast : page.hasMore = false) : stops reader request pages limit call = true := by
  simp [stops, hpage, hlast]

/-- The loop ends, within the limit, and with `complete` for the whole of the pages only, when some
page ends it and that page, if it has no more, does not exceed the limit. -/
theorem collect_pages_iff (hlimit : 1 ≤ limit) :
    ((∃ calls outcome, collectPages reader request pages limit calls = some outcome) ∧
        ∀ calls result, collectPages reader request pages limit calls = some (.ok result) →
          result.messages.length ≤ limit ∧
            (result.complete = true → Covers reader request pages result)) ↔
      ∃ last, stops reader request pages limit last = true ∧
        (∀ i < last, stops reader request pages limit i = false) ∧
        ∀ page, pages last = .ok page → page.hasMore = false →
          (page.items.mapM (reader.normalize request)).isOk = true →
          (served pages (last + 1)).length ≤ limit := by
  constructor
  · rintro ⟨⟨calls, outcome, hended⟩, hsound⟩
    have hexists : ∃ i, stops reader request pages limit i = true := by
      by_contra hnever
      have hgoes : ∀ i < calls, stops reader request pages limit i = false := by
        intro i _
        exact Bool.eq_false_iff.mpr fun hstops => hnever ⟨i, hstops⟩
      rw [collectPages_unfinished hlimit hgoes] at hended
      cases hended
    have hstops := Nat.find_spec hexists
    have hgoes : ∀ i < Nat.find hexists, stops reader request pages limit i = false :=
      fun i hi => Bool.eq_false_iff.mpr (Nat.find_min hexists hi)
    generalize Nat.find hexists = last at hstops hgoes
    refine ⟨last, hstops, hgoes, ?_⟩
    intro page hpage hlast hitems
    obtain ⟨outcome, hrun, hok, hresult⟩ := collectPages_finished hlimit hstops hgoes
    obtain ⟨result, rfl⟩ := hok page hpage hitems
    obtain ⟨page', collected, hpage', -, hcollected, hmessages, hcomplete⟩ := hresult result rfl
    cases hpage.symm.trans hpage'
    obtain ⟨-, hcovers⟩ := hsound _ result (hrun 0)
    obtain ⟨final, finalPage, all, hfinal, hnone, hearlier, hall, hsub⟩ :=
      hcovers (hcomplete.mpr hlast)
    -- the page without more that the result covers is the one that ended the loop
    have hsame : final = last := by
      rcases Nat.lt_trichotomy final last with hlt | heq | hgt
      · have hended := hgoes final hlt
        rw [stops_of_last hfinal hnone] at hended
        cases hended
      · exact heq
      · obtain ⟨earlier, hpage'', hmore⟩ := hearlier last hgt
        cases hpage.symm.trans hpage''
        rw [hlast] at hmore
        cases hmore
    subst hsame
    cases hcollected.symm.trans hall
    have hfits := hsub.length_le
    rw [hmessages, List.length_take, hcollected.length_eq] at hfits
    omega
  · rintro ⟨last, hstops, hgoes, hfits⟩
    obtain ⟨outcome, hrun, -, hresult⟩ := collectPages_finished hlimit hstops hgoes
    refine ⟨⟨_, outcome, hrun 0⟩, ?_⟩
    intro calls result hreturned
    have hlate : last < calls := by
      by_contra hearly
      rw [collectPages_unfinished hlimit fun i hi => hgoes i (by omega)] at hreturned
      cases hreturned
    rw [show calls = last + (calls - last - 1 + 1) from by omega, hrun] at hreturned
    obtain ⟨page, collected, hpage, hitems, hcollected, hmessages, hcomplete⟩ :=
      hresult result (Option.some.inj hreturned)
    refine ⟨?_, ?_⟩
    · rw [hmessages]
      exact List.length_take_le _ _
    · intro hclaimed
      have hlast := hcomplete.mp hclaimed
      have hwhole : collected.length ≤ limit := by
        rw [hcollected.length_eq]
        exact hfits page hpage hlast hitems
      refine ⟨last, page, collected, hpage, hlast, ?_, hcollected, ?_⟩
      · intro i hi
        obtain ⟨earlier, _, _, hearlier, _, hmore, _⟩ := continues_cases (hgoes i hi)
        exact ⟨earlier, hearlier, hmore⟩
      · rw [hmessages, List.take_of_length_le hwhole]

end Pages

/-! ### Two pages that mislead the loop -/

private def plainReader : OfficialLiveIMReader where
  alist _ := ⟨0, none, [], false, none⟩
  botOpenId := some "ou_bot"
  loads _ := none
  parseInt _ := none

private def inChat : IMContextRequest where
  tenantKey := "t1"
  appId := "cli_1"
  chatId := "oc_1"
  messageId := "om_1"
  bound := by decide

private def said (messageId : String) : WireMessage where
  messageId := some messageId
  chatId := some "oc_1"
  senderId := some "ou_1"
  msgType := some "text"
  createTime := .number 1700000005000

/-- Two pages that promise more, and a last one with room for its items. -/
theorem collect_pages_fits :
    let pages : Nat → Except PyError WireMessagePage
      | 0 => .ok ⟨[said "om_1", said "om_2"], true, some "second"⟩
      | 1 => .ok ⟨[said "om_3"], true, some "third"⟩
      | _ => .ok ⟨[said "om_4", said "om_5"], false, none⟩
    (∃ calls outcome, collectPages plainReader inChat pages 5 calls = some outcome) ∧
      ∀ calls result, collectPages plainReader inChat pages 5 calls = some (.ok result) →
        result.messages.length ≤ 5 ∧
          (result.complete = true → Covers plainReader inChat pages result) := by
  intro pages
  refine (collect_pages_iff (by decide)).mpr ⟨2, by decide +kernel, by decide +kernel, ?_⟩
  rintro page ⟨⟩ _ _
  decide

/-- Empty pages that promise more are asked for without end; a last page longer than was asked is
cut, and the result called complete. -/
theorem collect_misled :
    (∀ calls, collectPages plainReader inChat (fun _ => .ok ⟨[], true, some "next"⟩) 1 calls = none) ∧
      ∃ result, collectPages plainReader inChat
          (fun _ => .ok ⟨[said "om_1", said "om_2"], false, none⟩) 1 1 = some (.ok result) ∧
        result.complete = true ∧ result.messages.map (·.messageId) = ["om_1"] := by
  constructor
  · intro calls
    refine collectPages_unfinished (by decide) ?_
    intro i _
    have hempty : ∀ count, served (fun _ => .ok ⟨[], true, some "next"⟩) count = [] := by
      intro count
      simp [served, itemsOf]
    unfold stops
    rw [hempty]
    rfl
  · have hcolumns : (collectPages plainReader inChat
        (fun _ => .ok ⟨[said "om_1", said "om_2"], false, none⟩) 1 1).map (fun outcome =>
          outcome.map fun page => (page.complete, page.messages.map (·.messageId))) =
        some (.ok (true, ["om_1"])) := by
      decide +kernel
    obtain ⟨outcome, hrun, hcolumns⟩ := Option.map_eq_some_iff.mp hcolumns
    cases outcome with
    | error failure => cases hcolumns
    | ok result =>
        obtain ⟨hcomplete, hids⟩ := Prod.ext_iff.mp (Except.ok.inj hcolumns)
        exact ⟨result, hrun, hcomplete, hids⟩

end OfficialLiveIMReader

end Codex2Lark
