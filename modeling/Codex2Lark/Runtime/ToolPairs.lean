import Codex2Lark.Runtime.BuiltContext

/-!
Tool calls and their results in a message list. A complete journal is made of user messages and
of exchanges: an answer, what users said while its tools were running, and the results of its
calls. A suffix of a complete journal is complete again unless it begins within an exchange.
-/

namespace Codex2Lark

open Lib

/-- Every tool result follows an answer that declares its call, and every declared call has a
result. -/
structure PairsTools (messages : List ModelMessage) : Prop where
  declared : ∀ before result after, messages = before ++ result :: after → result.role = .tool →
    ∃ answer ∈ before, answer.role = .assistant ∧
      ∃ call ∈ answer.toolCalls, result.toolCallId = some call.callId
  answered : ∀ answer ∈ messages, answer.role = .assistant → ∀ call ∈ answer.toolCalls,
    ∃ result ∈ messages, result.role = .tool ∧ result.toolCallId = some call.callId

/-- An answer, user messages and the results of its first calls; the calls of `owed` have none. -/
structure Exchange (answer : ModelMessage) (users results : List ModelMessage)
    (owed : List String) : Prop where
  answers : answer.role = .assistant
  said : ∀ message ∈ users, message.role = .user
  returned : ∀ message ∈ results, message.role = .tool
  calls : results.map ModelMessage.toolCallId ++ owed.map some =
    answer.toolCalls.map fun call => some call.callId

inductive Complete : List ModelMessage → Prop
  | nil : Complete []
  | user {journal : List ModelMessage} {message : ModelMessage} (hjournal : Complete journal)
      (huser : message.role = .user) : Complete (journal ++ [message])
  | exchange {journal : List ModelMessage} {answer : ModelMessage}
      {users results : List ModelMessage} (hjournal : Complete journal)
      (hexchange : Exchange answer users results []) :
      Complete (journal ++ answer :: (users ++ results))

/-- The list begins, but for user messages, with a tool result. -/
def Orphans (messages : List ModelMessage) : Prop :=
  ∃ users result rest, messages = users ++ result :: rest ∧
    (∀ message ∈ users, message.role = .user) ∧ result.role = .tool

/-- The messages from the one after `start` to the sixth-last one are tool results, `start`
itself is a message of a user, and it stands between an answer and its results. -/
def SplitsTurn (journal : List ModelMessage) : Prop :=
  ∃ start, start + 6 ≤ journal.length ∧
    (journal[start]?).map ModelMessage.role = some .user ∧
    (∀ k, start < k → k + 6 ≤ journal.length →
      (journal[k]?).map ModelMessage.role = some .tool) ∧
    Orphans (journal.drop start)

theorem orphans_iff {messages : List ModelMessage} :
    Orphans messages ↔ (messages.find? fun message => message.role ≠ .user).any
      (fun message => message.role = .tool) = true := by
  rw [Option.any_eq_true]
  constructor
  · rintro ⟨users, result, rest, rfl, husers, htool⟩
    refine ⟨result, ?_, by simpa using htool⟩
    rw [List.find?_append, List.find?_eq_none.mpr fun message hmem => by simp [husers message hmem]]
    simp [htool]
  · rintro ⟨result, hfound, htool⟩
    obtain ⟨_, users, rest, rfl, husers⟩ := List.find?_eq_some_iff_append.mp hfound
    exact ⟨users, result, rest, rfl, fun message hmem => by simpa using husers message hmem,
      by simpa using htool⟩

instance (messages : List ModelMessage) : Decidable (Orphans messages) :=
  decidable_of_iff _ orphans_iff.symm

theorem splitsTurn_bounded {journal : List ModelMessage} :
    (∃ start, start < journal.length ∧ start + 6 ≤ journal.length ∧
      (journal[start]?).map ModelMessage.role = some .user ∧
      (∀ k, k < journal.length → start < k → k + 6 ≤ journal.length →
        (journal[k]?).map ModelMessage.role = some .tool) ∧
      Orphans (journal.drop start)) ↔ SplitsTurn journal := by
  constructor
  · rintro ⟨start, _, hlong, huser, hafter, horphans⟩
    exact ⟨start, hlong, huser, fun k hlow hhigh => hafter k (by omega) hlow hhigh, horphans⟩
  · rintro ⟨start, hlong, huser, hafter, horphans⟩
    exact ⟨start, by omega, hlong, huser, fun k _ => hafter k, horphans⟩

instance (journal : List ModelMessage) : Decidable (SplitsTurn journal) :=
  decidable_of_iff _ splitsTurn_bounded

/-! ### Lists that pair -/

theorem PairsTools.append {first second : List ModelMessage} (hfirst : PairsTools first)
    (hsecond : PairsTools second) : PairsTools (first ++ second) := by
  constructor
  · intro before result after hsplit htool
    rcases List.append_eq_append_iff.mp hsplit with ⟨middle, rfl, hlater⟩ | ⟨middle, rfl, hearlier⟩
    · obtain ⟨answer, hanswer, hdeclares⟩ := hsecond.declared middle result after hlater htool
      exact ⟨answer, List.mem_append_right _ hanswer, hdeclares⟩
    · cases middle with
      | nil =>
          rw [List.append_nil] at *
          obtain ⟨answer, hanswer, _⟩ := hsecond.declared [] result after hearlier.symm htool
          cases hanswer
      | cons head tail =>
          obtain ⟨rfl, rfl⟩ := List.cons.inj hearlier
          exact hfirst.declared before result tail rfl htool
  · intro answer hanswer hrole call hcall
    rcases List.mem_append.mp hanswer with hmem | hmem
    · obtain ⟨result, hresult, hpairs⟩ := hfirst.answered answer hmem hrole call hcall
      exact ⟨result, List.mem_append_left _ hresult, hpairs⟩
    · obtain ⟨result, hresult, hpairs⟩ := hsecond.answered answer hmem hrole call hcall
      exact ⟨result, List.mem_append_right _ hresult, hpairs⟩

theorem Exchange.pairs {answer : ModelMessage} {users results : List ModelMessage}
    (h : Exchange answer users results []) : PairsTools (answer :: (users ++ results)) := by
  have hcalls := h.calls
  rw [List.map_nil, List.append_nil] at hcalls
  constructor
  · intro before result after hsplit htool
    cases before with
    | nil =>
        obtain ⟨rfl, _⟩ := List.cons.inj hsplit
        rw [h.answers] at htool
        cases htool
    | cons head tail =>
        obtain ⟨rfl, hrest⟩ := List.cons.inj hsplit
        have hmem : result ∈ users ++ results := hrest ▸ by simp
        rcases List.mem_append.mp hmem with huser | hresult
        · rw [h.said result huser] at htool
          cases htool
        · have hid := List.mem_map_of_mem (f := ModelMessage.toolCallId) hresult
          rw [hcalls] at hid
          obtain ⟨call, hcall, hsame⟩ := List.mem_map.mp hid
          exact ⟨answer, List.mem_cons_self, h.answers, call, hcall, hsame.symm⟩
  · intro other hother hrole call hcall
    rcases List.mem_cons.mp hother with rfl | hmem
    · have hid := List.mem_map_of_mem (f := fun call : ToolCall => some call.callId) hcall
      rw [← hcalls] at hid
      obtain ⟨result, hresult, hsame⟩ := List.mem_map.mp hid
      exact ⟨result, List.mem_cons_of_mem _ (List.mem_append_right _ hresult),
        h.returned result hresult, hsame⟩
    · rcases List.mem_append.mp hmem with huser | hresult
      · rw [h.said other huser] at hrole
        cases hrole
      · rw [h.returned other hresult] at hrole
        cases hrole

/-- Messages of other roles neither declare nor answer a call. -/
theorem pairsTools_of_others {messages : List ModelMessage}
    (hothers : ∀ message ∈ messages, message.role ≠ .assistant ∧ message.role ≠ .tool) :
    PairsTools messages := by
  constructor
  · intro before result after hsplit htool
    have hmem : result ∈ messages := hsplit ▸ by simp
    exact absurd htool (hothers result hmem).2
  · intro answer hanswer hrole
    exact absurd hrole (hothers answer hanswer).1

theorem Complete.pairs {journal : List ModelMessage} (h : Complete journal) :
    PairsTools journal := by
  induction h with
  | nil => exact pairsTools_of_others fun _ hmem => absurd hmem List.not_mem_nil
  | user hjournal huser ih =>
      refine ih.append (pairsTools_of_others ?_)
      intro message hmem
      rw [List.mem_singleton.mp hmem, huser]
      exact ⟨nofun, nofun⟩
  | exchange hjournal hexchange ih => exact ih.append hexchange.pairs

theorem Orphans.breaks {messages : List ModelMessage} (h : Orphans messages) :
    ¬ PairsTools messages := by
  obtain ⟨users, result, rest, rfl, husers, htool⟩ := h
  intro hpairs
  obtain ⟨answer, hanswer, hrole, _⟩ := hpairs.declared users result rest rfl htool
  rw [husers answer hanswer] at hrole
  cases hrole

/-- What is said apart from answers and results. -/
def isDialogue (message : ModelMessage) : Bool :=
  message.role = .assistant || message.role = .tool

/-- Only answers and tool results matter. -/
theorem pairsTools_filter {messages : List ModelMessage} :
    PairsTools (messages.filter isDialogue) ↔ PairsTools messages := by
  constructor
  · intro h
    constructor
    · intro before result after hsplit htool
      have hfiltered : messages.filter isDialogue =
          before.filter isDialogue ++ result :: after.filter isDialogue := by
        rw [hsplit, List.filter_append, List.filter_cons_of_pos (by simp [isDialogue, htool])]
      obtain ⟨answer, hanswer, hdeclares⟩ := h.declared _ result _ hfiltered htool
      exact ⟨answer, (List.mem_filter.mp hanswer).1, hdeclares⟩
    · intro answer hanswer hrole call hcall
      have hkept : answer ∈ messages.filter isDialogue :=
        List.mem_filter.mpr ⟨hanswer, by simp [isDialogue, hrole]⟩
      obtain ⟨result, hresult, hpairs⟩ := h.answered answer hkept hrole call hcall
      exact ⟨result, (List.mem_filter.mp hresult).1, hpairs⟩
  · intro h
    constructor
    · intro before result after hsplit htool
      obtain ⟨first, second, rfl, hfirst, hsecond⟩ := List.filter_eq_append_iff.mp hsplit
      obtain ⟨skipped, rest, rfl, _, _, hrest⟩ := List.filter_eq_cons_iff.mp hsecond
      obtain ⟨answer, hanswer, hrole, hdeclares⟩ :=
        h.declared (first ++ skipped) result rest (by simp) htool
      have hkept : answer ∈ before := by
        rcases List.mem_append.mp hanswer with hmem | hmem
        · rw [← hfirst]
          exact List.mem_filter.mpr ⟨hmem, by simp [isDialogue, hrole]⟩
        · rename_i hskipped _
          exact absurd (by simp [isDialogue, hrole]) (hskipped answer hmem)
      exact ⟨answer, hkept, hrole, hdeclares⟩
    · intro answer hanswer hrole call hcall
      obtain ⟨result, hresult, htool, hsame⟩ :=
        h.answered answer (List.mem_filter.mp hanswer).1 hrole call hcall
      exact ⟨result, List.mem_filter.mpr ⟨hresult, by simp [isDialogue, htool]⟩, htool, hsame⟩

/-! ### Suffixes -/

theorem complete_users {users : List ModelMessage} (husers : ∀ message ∈ users, message.role = .user)
    {journal : List ModelMessage} (hjournal : Complete journal) : Complete (journal ++ users) := by
  induction users generalizing journal with
  | nil => simpa using hjournal
  | cons message rest ih =>
      have hnext := ih (fun m hm => husers m (List.mem_cons_of_mem _ hm))
        (hjournal.user (husers message List.mem_cons_self))
      simpa using hnext

theorem Orphans.append {first : List ModelMessage} (h : Orphans first)
    (second : List ModelMessage) : Orphans (first ++ second) := by
  obtain ⟨users, result, rest, rfl, husers, htool⟩ := h
  exact ⟨users, result, rest ++ second, by simp, husers, htool⟩

/-- A proper suffix of an exchange. -/
theorem Exchange.suffix {answer : ModelMessage} {users results old recent : List ModelMessage}
    (h : Exchange answer users results []) (hsplit : users ++ results = old ++ recent)
    (hwhole : ¬ Orphans recent) : Complete recent := by
  rcases List.append_eq_append_iff.mp hsplit with ⟨given, _, hresults⟩ | ⟨said, husers, hrecent⟩
  · cases recent with
    | nil => exact .nil
    | cons result rest =>
        have hmem : result ∈ results := hresults ▸ by simp
        exact absurd ⟨[], result, rest, rfl, fun _ hm => absurd hm List.not_mem_nil,
          h.returned result hmem⟩ hwhole
  · have hsaid : ∀ message ∈ said, message.role = .user := fun message hmem =>
      h.said message (husers ▸ List.mem_append_right _ hmem)
    cases results with
    | nil =>
        rw [hrecent, List.append_nil]
        exact complete_users hsaid .nil
    | cons result rest =>
        exact absurd ⟨said, result, rest, hrecent, hsaid, h.returned result List.mem_cons_self⟩
          hwhole

theorem Complete.suffix {journal old recent : List ModelMessage} (h : Complete journal)
    (hsplit : journal = old ++ recent) (hwhole : ¬ Orphans recent) : Complete recent := by
  induction h generalizing recent with
  | nil =>
      obtain ⟨_, rfl⟩ := List.append_eq_nil_iff.mp hsplit.symm
      exact .nil
  | @user journal message hjournal huser ih =>
      rcases List.append_eq_append_iff.mp hsplit with ⟨cut, hold, hlast⟩ | ⟨kept, hkept, rfl⟩
      · have hsaid : ∀ other ∈ recent, other.role = .user := by
          intro other hmem
          have hmem : other ∈ [message] := hlast ▸ List.mem_append_right _ hmem
          rw [List.mem_singleton.mp hmem, huser]
        have hnew := complete_users hsaid .nil
        rwa [List.nil_append] at hnew
      · exact (ih hkept fun h => hwhole (h.append _)).user huser
  | @exchange journal answer users results hjournal hexchange ih =>
      rcases List.append_eq_append_iff.mp hsplit with ⟨cut, hold, hlast⟩ | ⟨kept, hkept, rfl⟩
      · cases cut with
        | nil =>
            rw [List.nil_append] at hlast
            rw [← hlast]
            exact Complete.nil.exchange hexchange
        | cons head cut =>
            exact hexchange.suffix (List.cons.inj hlast).2 hwhole
      · exact (ih hkept fun h => hwhole (h.append _)).exchange hexchange

theorem complete_pairs_iff {journal : List ModelMessage} (h : Complete journal) (cut : Nat) :
    PairsTools (journal.drop cut) ↔ ¬ Orphans (journal.drop cut) := by
  constructor
  · exact fun hpairs horphans => horphans.breaks hpairs
  · intro hwhole
    exact (h.suffix (List.take_append_drop cut journal).symm hwhole).pairs

namespace ContextEngine

/-- The loop stops within an exchange exactly at a message of a user that splits a turn. -/
theorem splitsTurn_iff {journal : List ModelMessage} (h : Complete journal) :
    SplitsTurn journal ↔ Orphans (journal.drop (journalCut journal)) := by
  have hfirst : journalCut journal ≤ journal.length - min 6 journal.length :=
    (compactionCut_spec journal _).1
  obtain ⟨_, hstop, htools⟩ := compactionCut_spec journal (journal.length - min 6 journal.length)
  change journalCut journal = 0 ∨ _ at hstop
  change ∀ k, journalCut journal < k → _ at htools
  constructor
  · rintro ⟨start, hlong, huser, hafter, horphans⟩
    have hsame : journalCut journal = start := by
      rcases Nat.lt_trichotomy (journalCut journal) start with hless | hsame | hmore
      · have htool := htools start hless (by omega)
        rw [huser] at htool
        cases htool
      · exact hsame
      · rcases hstop with hzero | hother
        · omega
        · exact absurd (hafter (journalCut journal) hmore (by omega)) hother
    rwa [hsame]
  · intro horphans
    have hpos : journalCut journal ≠ 0 := by
      intro hzero
      rw [hzero, List.drop_zero] at horphans
      exact horphans.breaks h.pairs
    refine ⟨journalCut journal, by omega, ?_, ?_, horphans⟩
    · obtain ⟨users, result, rest, hdrop, husers, htool⟩ := horphans
      have hother := hstop.resolve_left hpos
      change (journal[journalCut journal]?).map ModelMessage.role ≠ some .tool at hother
      have hhead : journal[journalCut journal]? = (users ++ result :: rest).head? := by
        rw [← hdrop, List.head?_drop]
      rw [hhead] at hother ⊢
      cases users with
      | nil => exact absurd (congrArg some htool) hother
      | cons user users => exact congrArg some (husers user List.mem_cons_self)
    · intro k hlow hhigh
      exact htools k hlow (by omega)

end ContextEngine

namespace ContextInput

open ContextEngine

variable {definition : AgentDefinition} {resources : LoadedResources} {input : ContextInput}

theorem dialogue_stable : (stableMessages definition resources).filter isDialogue = [] := by
  unfold stableMessages
  simp [isDialogue, List.filter_eq_nil_iff]

theorem dialogue_messages :
    (input.messages definition resources).filter isDialogue = input.journal.filter isDialogue := by
  have hevidence : (input.evidence.map evidenceMessage).filter isDialogue = [] := by
    simp [isDialogue, List.filter_eq_nil_iff, evidenceMessage]
  unfold messages
  rw [List.filter_append, List.filter_append, List.filter_append, dialogue_stable, hevidence]
  rfl

theorem dialogue_essential (kept : List ModelMessage) :
    (essential input.evidence kept).filter isDialogue = kept.filter isDialogue := by
  unfold essential
  rw [List.filter_filter]
  refine List.filter_congr fun message _ => ?_
  cases hoptional : isOptional input.evidence message with
  | false => simp
  | true => simp [isDialogue, (isOptional_user hoptional).1]

theorem dialogue_compacted {retained : List ModelMessage}
    (hretained : ∀ message ∈ retained, message ∈ input.evidence.map evidenceMessage) :
    (compactJournal (stableMessages definition resources) retained input.requestMessage
      input.journal).filter isDialogue =
        (input.journal.drop (journalCut input.journal)).filter isDialogue := by
  have hevidence : retained.filter isDialogue = [] := by
    rw [List.filter_eq_nil_iff]
    intro message hmem
    obtain ⟨item, _, rfl⟩ := List.mem_map.mp (hretained message hmem)
    simp [isDialogue, evidenceMessage]
  have hsummary : (if input.journal.take (journalCut input.journal) = [] then []
      else [({ role := .system
               content := structuredSummary (input.journal.take (journalCut input.journal))
               trusted := true } : ModelMessage)]).filter isDialogue = [] := by
    split <;> rfl
  rw [compactJournal_eq]
  simp only [List.filter_append]
  rw [dialogue_stable, hevidence, hsummary]
  rfl

/-- A context built of a complete journal pairs calls and results, unless it is compacted and
the cut splits a turn. -/
theorem pairsTools_iff {built : ContextBuild} (hjournal : Complete input.journal)
    (hok : input.build definition resources = .ok built) :
    PairsTools built.messages ↔
      ¬ (input.Overflows definition resources ∧ SplitsTurn input.journal) := by
  obtain ⟨_, hcase⟩ := build_ok hok
  rw [← pairsTools_filter]
  generalize built.messages = messages at hcase
  cases hcase with
  | fits hfits hkept =>
      have hsame := congrArg (List.filter isDialogue) hkept
      rw [dialogue_essential, dialogue_essential, dialogue_messages] at hsame
      rw [hsame, pairsTools_filter]
      exact iff_of_true hjournal.pairs fun h => hfits h.1
  | compacted hover hretained =>
      rw [dialogue_compacted hretained, pairsTools_filter, complete_pairs_iff hjournal,
        splitsTurn_iff hjournal]
      exact ⟨fun hwhole h => hwhole h.2, fun hnot horphans => hnot ⟨hover, horphans⟩⟩

/-- The snippet of a long message is cut off. -/
theorem summary_shorter {message : ModelMessage} (hrole : message.role = .assistant)
    (hlong : 400 ≤ message.content.length) :
    estimateTokens [{ role := .system, content := structuredSummary [message], trusted := true }] <
      estimateTokens [message] := by
  have htitle : "Compacted complete prior turns (unverified claims remain claims):\n".length = 66 := by
    decide +kernel
  have hsnippet : (message.content.take 240).copy.length = min 240 message.content.length := by
    rw [← String.length_toList, String.toList_copy_take, List.length_take, String.length_toList]
  have hname : (MessageRole.value .assistant ++ ": ").length = 11 := by decide +kernel
  have hsummary : (structuredSummary [message]).length ≤ 66 + (11 + 240) := by
    unfold structuredSummary
    simp only [List.isEmpty_cons, Bool.false_eq_true, if_false, List.map_cons, List.map_nil,
      String.intercalate_singleton, String.length_append, hrole]
    rw [String.length_append] at hname
    change _ + (_ + (message.content.take 240).copy.length) ≤ _
    omega
  simp only [estimateTokens, List.map_cons, List.map_nil, List.sum_cons, List.sum_nil]
  omega

/-- Where the summary is shorter than what it stands for, a definition with less capacity has room
for the compacted context only. -/
theorem build_compacts {userRequest : String} {journal : List ModelMessage}
    (definition : AgentDefinition) (resources : LoadedResources)
    (hcut : journal.take (journalCut journal) ≠ [])
    (hshorter : estimateTokens [{ role := .system
                                  content := structuredSummary (journal.take (journalCut journal))
                                  trusted := true }] <
      estimateTokens (journal.take (journalCut journal))) :
    ∃ (narrow : AgentDefinition) (built : ContextBuild),
      ContextInput.Overflows narrow resources ⟨userRequest, [], journal⟩ ∧
      ContextEngine.build narrow resources userRequest [] journal = .ok built := by
  have hsplit := congrArg estimateTokens (List.take_append_drop (journalCut journal) journal)
  rw [estimateTokens_append] at hsplit
  have hjournal : journal.isEmpty = false := by
    cases journal with
    | nil => exact absurd List.take_nil hcut
    | cons message rest => rfl
  obtain ⟨capacity, hcapacity⟩ : ∃ capacity, capacity + 1 = estimateTokens
      (stableMessages definition resources ++
        [{ role := .user, content := userRequest }] ++ journal) := by
    refine ⟨_, Nat.sub_add_cancel ?_⟩
    simp only [estimateTokens_append]
    omega
  have hpositive : 1 ≤ capacity := by
    have hrequest : 5 ≤ estimateTokens [({ role := .user, content := userRequest } : ModelMessage)] := by
      simp only [estimateTokens, List.map_cons, List.sum_cons]
      omega
    simp only [estimateTokens_append] at hcapacity
    omega
  have hstable : stableMessages
      { definition with maxContextTokens := capacity, contextPositive := hpositive } resources =
      stableMessages definition resources := rfl
  have hlarge : ¬ estimateTokens (stableMessages definition resources ++
      [{ role := .user, content := userRequest }] ++ journal) ≤ capacity := by
    omega
  have hsmall : ¬ estimateTokens (compactJournal (stableMessages definition resources) []
      { role := .user, content := userRequest } journal) > capacity := by
    rw [compactJournal_eq, if_neg hcut, List.append_nil]
    simp only [estimateTokens_append] at hcapacity ⊢
    omega
  refine ⟨{ definition with maxContextTokens := capacity, contextPositive := hpositive }, ?_⟩
  unfold ContextEngine.build
  simp only [hstable, List.map_nil, List.append_nil, List.filter_nil, fitEvidence, if_neg hlarge,
    List.find?_nil, hjournal, Bool.false_eq_true, if_false, if_neg hsmall]
  refine ⟨_, ?_, rfl⟩
  unfold Overflows essential messages
  simpa [hstable, isOptional, requestMessage] using hlarge

end ContextInput

end Codex2Lark
