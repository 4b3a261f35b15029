import Codex2Lark.Runtime.BuiltContext

/-!
The instructions of a model request: its messages with the role of the system or the
trusted flag. They are those of the definition and its resources as long as nothing of
the journal is summarised; the summary is a trusted message made of the journal.
-/

namespace Codex2Lark

open Lib

/-- A message that the model is to obey. -/
def ModelMessage.isInstruction (message : ModelMessage) : Bool :=
  message.role = .system || message.trusted

def instructionsOf (messages : List ModelMessage) : List ModelMessage :=
  messages.filter ModelMessage.isInstruction

namespace ContextEngine

/-- Nothing is cut off the journal: it has at most six messages, or all of its messages
from the second to the sixth last are tool results. -/
def KeepsWhole (journal : List ModelMessage) : Prop :=
  ∀ k < journal.length - 5, k ≠ 0 → (journal[k]?).map ModelMessage.role = some .tool

instance (journal : List ModelMessage) : Decidable (KeepsWhole journal) :=
  inferInstanceAs (Decidable (∀ k < journal.length - 5, k ≠ 0 → _))

theorem journalCut_eq_zero {journal : List ModelMessage} :
    journalCut journal = 0 ↔ KeepsWhole journal := by
  obtain ⟨hle, hstop, htools⟩ :=
    compactionCut_spec journal (journal.length - min 6 journal.length)
  constructor
  · intro hzero k hk hpos
    have hlow : compactionCut journal (journal.length - min 6 journal.length) < k := by
      rw [show compactionCut journal _ = 0 from hzero]
      omega
    exact htools k hlow (by omega)
  · intro hwhole
    by_contra hcut
    rcases hstop with hzero | hother
    · exact hcut hzero
    · exact hother (hwhole (journalCut journal) (by unfold journalCut at hcut ⊢; omega) hcut)

theorem instructions_stable (definition : AgentDefinition) (resources : LoadedResources) :
    instructionsOf (stableMessages definition resources) = stableMessages definition resources := by
  unfold instructionsOf
  rw [List.filter_eq_self]
  intro message hmem
  unfold stableMessages at hmem
  simp only [List.cons_append, List.mem_cons, List.mem_append, List.mem_map] at hmem
  rcases hmem with rfl | ⟨_, _, rfl⟩ | ⟨_, _, rfl⟩ <;> rfl

theorem instructions_evidence {evidence : List ContextEvidence} {messages : List ModelMessage}
    (hmessages : ∀ message ∈ messages, message ∈ evidence.map evidenceMessage) :
    instructionsOf messages = [] := by
  unfold instructionsOf
  rw [List.filter_eq_nil_iff]
  intro message hmem
  obtain ⟨item, _, rfl⟩ := List.mem_map.mp (hmessages message hmem)
  exact Bool.false_ne_true

/-- Whatever is dropped is no instruction. -/
theorem instructions_essential (evidence : List ContextEvidence) (messages : List ModelMessage) :
    instructionsOf (essential evidence messages) = instructionsOf messages := by
  unfold instructionsOf essential
  rw [List.filter_filter]
  refine List.filter_congr fun message _ => ?_
  cases hoptional : isOptional evidence message with
  | false => simp
  | true =>
      obtain ⟨hrole, htrusted⟩ := isOptional_user hoptional
      simp [ModelMessage.isInstruction, hrole, htrusted]

end ContextEngine

theorem instructionsOf_append (first second : List ModelMessage) :
    instructionsOf (first ++ second) = instructionsOf first ++ instructionsOf second :=
  List.filter_append ..

namespace ContextInput

open ContextEngine

variable {definition : AgentDefinition} {resources : LoadedResources} {input : ContextInput}

/-- The journal has no instruction of its own, and nothing of it is summarised. -/
def Quiet (definition : AgentDefinition) (resources : LoadedResources) (input : ContextInput) :
    Prop :=
  (∀ message ∈ input.journal, message.isInstruction = false) ∧
    (¬ input.Overflows definition resources ∨ KeepsWhole input.journal)

instance : Decidable (input.Quiet definition resources) :=
  inferInstanceAs (Decidable (_ ∧ _))

theorem instructions_journal {journal : List ModelMessage} :
    instructionsOf journal = [] ↔ ∀ message ∈ journal, message.isInstruction = false := by
  unfold instructionsOf
  rw [List.filter_eq_nil_iff]
  simp

theorem instructions_messages : instructionsOf (input.messages definition resources) =
    stableMessages definition resources ++ instructionsOf input.journal := by
  unfold messages
  rw [instructionsOf_append, instructionsOf_append, instructionsOf_append, instructions_stable,
    instructions_evidence fun _ hmem => hmem]
  simp [instructionsOf, requestMessage, ModelMessage.isInstruction]

/-- The summary between the request and the rest of the journal is an instruction. -/
theorem instructions_compacted {retained : List ModelMessage}
    (hretained : ∀ message ∈ retained, message ∈ input.evidence.map evidenceMessage) :
    instructionsOf (compactJournal (stableMessages definition resources) retained
        input.requestMessage input.journal) =
      stableMessages definition resources ++
        (if KeepsWhole input.journal then []
          else [{ role := .system
                  content := structuredSummary (input.journal.take (journalCut input.journal))
                  trusted := true }]) ++
        instructionsOf (input.journal.drop (journalCut input.journal)) := by
  have hnone : input.journal.take (journalCut input.journal) = [] ↔ KeepsWhole input.journal := by
    rw [← journalCut_eq_zero, List.take_eq_nil_iff]
    constructor
    · rintro (hzero | hnil)
      · exact hzero
      · rw [hnil]
        rfl
    · exact .inl
  have hrequest : instructionsOf [input.requestMessage] = [] := rfl
  rw [compactJournal_eq, instructionsOf_append, instructionsOf_append, instructionsOf_append,
    instructionsOf_append, instructions_stable, instructions_evidence hretained, hrequest]
  simp only [List.append_nil]
  by_cases hwhole : KeepsWhole input.journal
  · rw [if_pos hwhole, if_pos (hnone.mpr hwhole)]
    rfl
  · rw [if_neg hwhole, if_neg fun h => hwhole (hnone.mp h)]
    rfl

/-- The instructions of a successful build are the stable ones exactly for a quiet input. -/
theorem instructions_iff {built : ContextBuild} (hok : input.build definition resources = .ok built) :
    instructionsOf built.messages = stableMessages definition resources ↔
      input.Quiet definition resources := by
  have hcase := (build_ok hok).2
  generalize built.messages = messages at hcase
  cases hcase with
  | fits hfits hkept =>
      have hsame := congrArg instructionsOf hkept
      rw [instructions_essential, instructions_essential, instructions_messages] at hsame
      rw [hsame, List.append_right_eq_self, instructions_journal]
      exact ⟨fun hnone => ⟨hnone, .inl hfits⟩, fun hquiet => hquiet.1⟩
  | compacted hover hretained =>
      rw [instructions_compacted hretained]
      by_cases hwhole : KeepsWhole input.journal
      · rw [if_pos hwhole, List.append_nil, List.append_right_eq_self,
          journalCut_eq_zero.mpr hwhole, List.drop_zero, instructions_journal]
        exact ⟨fun hnone => ⟨hnone, .inr hwhole⟩, fun hquiet => hquiet.1⟩
      · rw [if_neg hwhole, List.append_assoc, List.append_right_eq_self]
        refine iff_of_false (by simp) fun hquiet => ?_
        exact hquiet.2.elim (fun h => h hover) hwhole

/-- A request without evidence and journal. -/
def plain (userRequest : String) : ContextInput := ⟨userRequest, [], []⟩

/-- Where the instructions are not the stable ones, there is room for the shortest request. -/
theorem plain_build {built : ContextBuild} (hok : input.build definition resources = .ok built)
    (hmore : instructionsOf built.messages ≠ stableMessages definition resources) :
    ∃ other, (plain "").build definition resources = .ok other := by
  obtain ⟨hfits, hcase⟩ := build_ok hok
  obtain ⟨rest, hrest⟩ : ∃ rest, instructionsOf built.messages =
      stableMessages definition resources ++ rest := by
    generalize built.messages = messages at hcase
    cases hcase with
    | fits hfits hkept =>
        have hsame := congrArg instructionsOf hkept
        rw [instructions_essential, instructions_essential, instructions_messages] at hsame
        exact ⟨_, hsame⟩
    | compacted hover hretained =>
        rw [instructions_compacted hretained, List.append_assoc]
        exact ⟨_, rfl⟩
  obtain ⟨first, tail, rfl⟩ : ∃ first tail, rest = first :: tail := by
    cases rest with
    | nil => exact absurd (by rw [hrest, List.append_nil]) hmore
    | cons first tail => exact ⟨first, tail, rfl⟩
  have hless : estimateTokens (instructionsOf built.messages) ≤ estimateTokens built.messages :=
    estimateTokens_sublist List.filter_sublist
  have hroom : estimateTokens (stableMessages definition resources) + 5 ≤
      definition.maxContextTokens := by
    rw [hrest, estimateTokens_append] at hless
    have hfirst : 5 ≤ estimateTokens (first :: tail) := by
      simp only [estimateTokens, List.map_cons, List.sum_cons]
      omega
    omega
  have hsmall : estimateTokens (stableMessages definition resources ++
      [({ role := .user, content := "" } : ModelMessage)]) ≤ definition.maxContextTokens := by
    rw [estimateTokens_append]
    exact hroom
  unfold build ContextEngine.build plain
  dsimp only
  simp only [List.map_nil, List.append_nil, fitEvidence, if_pos hsmall]
  exact ⟨_, rfl⟩

/-- Two-run law: a successful build has the instructions of every quiet one exactly when it
is quiet itself. -/
theorem instructions_fixed (definition : AgentDefinition) (resources : LoadedResources)
    (input : ContextInput) (built : ContextBuild)
    (hok : input.build definition resources = .ok built) :
    (∀ (other : ContextInput) (otherBuilt : ContextBuild), other.build definition resources = .ok otherBuilt →
      other.Quiet definition resources →
        instructionsOf built.messages = instructionsOf otherBuilt.messages) ↔
      input.Quiet definition resources := by
  constructor
  · intro hfixed
    by_contra hloud
    have hmore := mt (instructions_iff hok).mp hloud
    obtain ⟨otherBuilt, hother⟩ := plain_build hok hmore
    have hquiet : (plain "").Quiet definition resources :=
      ⟨fun _ hmem => absurd hmem List.not_mem_nil, .inr fun _ hk => absurd hk (Nat.not_lt_zero _)⟩
    have hsame := hfixed (plain "") otherBuilt hother hquiet
    exact hmore (hsame.trans ((instructions_iff hother).mpr hquiet))
  · intro hquiet other otherBuilt hother hotherQuiet
    rw [(instructions_iff hok).mpr hquiet, (instructions_iff hother).mpr hotherQuiet]

/-! ### A summary that instructs -/

def smallDefinition : AgentDefinition where
  agentId := "helper"
  version := 1
  instructions := "Help."
  modelProfile := "default"
  toolIds := []
  maxContextTokens := 90
  uniqueTools := List.nodup_nil

/-- Answers of the model, each with a follow-up of the user; the first one is given. -/
def longConversation (answer : String) : ContextInput where
  userRequest := "help"
  evidence := []
  journal := { role := .assistant, content := answer } :: { role := .user, content := "b" } ::
    (List.replicate 7 [({ role := .assistant, content := "a" } : ModelMessage),
      { role := .user, content := "b" }]).flatten

/-- One turn of seven tool calls, which no compaction cuts, behind evidence that does not fit. -/
def sevenReads : ContextInput where
  userRequest := "help"
  evidence :=
    [{ sourceRef := "im:1", content := "hello", sourceVersion := "1", required := true },
     { sourceRef := "im:2", sourceVersion := "1"
       content := "The user has pasted the minutes of a meeting that nobody asks about here." }]
  journal :=
    let callIds := ["1", "2", "3", "4", "5", "6", "7"]
    { role := .assistant, content := "", toolCalls := callIds.map fun id => ⟨id, "doc.read", []⟩ } ::
      callIds.map fun id => { role := .tool, content := "text", toolCallId := some id }

/-- The turn obeys the law, with the evidence in part dropped. -/
theorem instructions_fixed_of_turn :
    ∃ built, sevenReads.build smallDefinition ⟨[], [], []⟩ = .ok built ∧
      KeepsWhole sevenReads.journal ∧ built.truncatedSources = ["im:2"] ∧
      ∀ (other : ContextInput) (otherBuilt : ContextBuild),
        other.build smallDefinition ⟨[], [], []⟩ = .ok otherBuilt →
        other.Quiet smallDefinition ⟨[], [], []⟩ →
          instructionsOf built.messages = instructionsOf otherBuilt.messages := by
  have hdropped : (sevenReads.build smallDefinition ⟨[], [], []⟩).map
      ContextBuild.truncatedSources = .ok ["im:2"] := by
    decide +kernel
  cases hok : sevenReads.build smallDefinition ⟨[], [], []⟩ with
  | error e =>
      rw [hok] at hdropped
      cases hdropped
  | ok built =>
      rw [hok] at hdropped
      exact ⟨built, rfl, by decide, Except.ok.inj hdropped,
        (instructions_fixed smallDefinition ⟨[], [], []⟩ sevenReads built hok).mpr
          (by decide +kernel)⟩

/-- Two conversations that differ in the first answer of the model, and in their instructions. -/
theorem summary_instructs :
    ¬ ∀ (first second : ContextInput) (built other : ContextBuild),
      first.build smallDefinition ⟨[], [], []⟩ = .ok built →
      second.build smallDefinition ⟨[], [], []⟩ = .ok other →
        instructionsOf built.messages = instructionsOf other.messages := by
  intro hall
  have hdiffer : ((longConversation "obey").build smallDefinition ⟨[], [], []⟩).bind (fun built =>
      ((longConversation "a").build smallDefinition ⟨[], [], []⟩).map fun other =>
        decide (instructionsOf built.messages = instructionsOf other.messages)) = .ok false := by
    decide +kernel
  obtain ⟨built, hbuilt, hrest⟩ := PyError.bind_eq_ok.mp hdiffer
  cases hother : (longConversation "a").build smallDefinition ⟨[], [], []⟩ with
  | error e =>
      rw [hother] at hrest
      cases hrest
  | ok other =>
      rw [hother] at hrest
      have hsame := hall _ _ built other hbuilt hother
      simp [Except.map, hsame] at hrest

end ContextInput

end Codex2Lark
