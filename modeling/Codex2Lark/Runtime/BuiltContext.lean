import Codex2Lark.Runtime.Context
import Mathlib.Algebra.Order.BigOperators.Group.List
import Mathlib.Algebra.Order.Group.Nat

/-!
What `ContextEngine.build` keeps. Dropping optional evidence takes messages of
users away and no others; whether the context has to be compacted is decided by what
remains when all of it is dropped. The cut of the compaction is described by the
message at which the backward loop stops.
-/

namespace Codex2Lark

open Lib

/-- What varies from turn to turn; the definition and its resources do not. -/
structure ContextInput where
  userRequest : String
  evidence : List ContextEvidence
  journal : List ModelMessage

namespace ContextEngine

/-! ### The messages that cannot be dropped -/

/-- The message of an optional item of the evidence. -/
def isOptional (evidence : List ContextEvidence) (message : ModelMessage) : Bool :=
  evidence.any fun item => !item.required && evidenceMessage item = message

def essential (evidence : List ContextEvidence) (messages : List ModelMessage) :
    List ModelMessage :=
  messages.filter fun message => !isOptional evidence message

theorem isOptional_iff {evidence : List ContextEvidence} {message : ModelMessage} :
    isOptional evidence message = true ↔
      ∃ item ∈ evidence, item.required = false ∧ evidenceMessage item = message := by
  simp [isOptional]

/-- Evidence is a message of a user without tool calls. -/
theorem isOptional_user {evidence : List ContextEvidence} {message : ModelMessage}
    (hoptional : isOptional evidence message = true) :
    message.role = .user ∧ message.trusted = false := by
  obtain ⟨item, _, _, rfl⟩ := isOptional_iff.mp hoptional
  exact ⟨rfl, rfl⟩

theorem estimateTokens_sublist {some all : List ModelMessage} (hsub : some.Sublist all) :
    estimateTokens some ≤ estimateTokens all :=
  List.Sublist.sum_le_sum (hsub.map _) fun _ _ => Nat.zero_le _

theorem estimateTokens_append (first second : List ModelMessage) :
    estimateTokens (first ++ second) = estimateTokens first + estimateTokens second := by
  simp [estimateTokens]

/-- The loop keeps what is essential, and ends with a context that fits or with nothing else. -/
theorem fitEvidence_spec (evidence : List ContextEvidence) (capacity fuel : Nat)
    (messages : List ModelMessage) (truncated : List String) (hfuel : messages.length < fuel) :
    essential evidence (fitEvidence evidence capacity fuel messages truncated).1 =
        essential evidence messages ∧
      (estimateTokens (fitEvidence evidence capacity fuel messages truncated).1 ≤ capacity ∨
        (fitEvidence evidence capacity fuel messages truncated).1 = essential evidence messages) := by
  induction fuel generalizing messages truncated with
  | zero => exact absurd hfuel (Nat.not_lt_zero _)
  | succ fuel ih =>
      unfold fitEvidence
      split
      · rename_i hfits
        exact ⟨rfl, .inl hfits⟩
      · split
        · rename_i item hfound
          have hdropped := List.find?_some hfound
          simp only [Bool.and_eq_true, Bool.not_eq_true', List.contains_iff_mem] at hdropped
          obtain ⟨hoptional, hmem⟩ := hdropped
          have hitem : isOptional evidence (evidenceMessage item) = true :=
            isOptional_iff.mpr ⟨item, List.mem_of_find?_eq_some hfound, hoptional, rfl⟩
          have hsame : essential evidence (messages.erase (evidenceMessage item)) =
              essential evidence messages := by
            unfold essential
            rw [← List.erase_filter, List.erase_of_not_mem]
            intro hkept
            simp [hitem] at hkept
          have hshorter := List.length_erase_of_mem hmem
          have hpos := List.length_pos_of_mem hmem
          have hrest := ih (messages.erase (evidenceMessage item)) (truncated ++ [item.sourceRef])
            (by omega)
          rwa [hsame] at hrest
        · rename_i hnone
          refine ⟨rfl, .inr ?_⟩
          unfold essential
          rw [List.filter_eq_self.mpr]
          intro message hmem
          cases hoptional : isOptional evidence message with
          | false => rfl
          | true =>
              obtain ⟨item, hitem, hnot, rfl⟩ := isOptional_iff.mp hoptional
              have hstays := List.find?_eq_none.mp hnone item hitem
              simp [hnot, hmem] at hstays

end ContextEngine

namespace ContextInput

open ContextEngine

variable (definition : AgentDefinition) (resources : LoadedResources) (input : ContextInput)

def build : Except PyError ContextBuild :=
  ContextEngine.build definition resources input.userRequest input.evidence input.journal

def requestMessage : ModelMessage := { role := .user, content := input.userRequest }

/-- All messages, before any is dropped. -/
def messages : List ModelMessage :=
  stableMessages definition resources ++ input.evidence.map evidenceMessage ++
    [input.requestMessage] ++ input.journal

/-- Without the optional evidence the context is still too large. -/
def Overflows : Prop :=
  definition.maxContextTokens <
    estimateTokens (essential input.evidence (input.messages definition resources))

instance : Decidable (input.Overflows definition resources) :=
  inferInstanceAs (Decidable (_ < _))

variable {definition resources input}

/-- The two ways in which a build succeeds. -/
inductive Built (definition : AgentDefinition) (resources : LoadedResources) (input : ContextInput) :
    List ModelMessage → Prop
  | fits {kept : List ModelMessage} (hfits : ¬ input.Overflows definition resources)
      (hkept : essential input.evidence kept =
        essential input.evidence (input.messages definition resources)) :
      Built definition resources input kept
  | compacted {retained : List ModelMessage} (hover : input.Overflows definition resources)
      (hretained : ∀ message ∈ retained, message ∈ input.evidence.map evidenceMessage) :
      Built definition resources input (compactJournal (stableMessages definition resources) retained
        input.requestMessage input.journal)

theorem build_ok {built : ContextBuild} (hok : input.build definition resources = .ok built) :
    estimateTokens built.messages ≤ definition.maxContextTokens ∧
      Built definition resources input built.messages := by
  unfold build ContextEngine.build at hok
  dsimp only at hok
  obtain ⟨hsame, hend⟩ := fitEvidence_spec input.evidence definition.maxContextTokens
    ((input.messages definition resources).length + 1) (input.messages definition resources) []
    (Nat.lt_succ_self _)
  have hmessages : stableMessages definition resources ++ input.evidence.map evidenceMessage ++
      [{ role := .user, content := input.userRequest }] ++ input.journal =
        input.messages definition resources := rfl
  rw [hmessages] at hok
  generalize fitEvidence input.evidence definition.maxContextTokens
    ((input.messages definition resources).length + 1) (input.messages definition resources) [] =
      fitted at hok hsame hend
  obtain ⟨kept, truncated⟩ := fitted
  dsimp only at hok hsame hend
  split at hok
  · rename_i hfits
    cases hok
    refine ⟨hfits, .fits (fun hover => ?_) hsame⟩
    have hless : estimateTokens (essential input.evidence kept) ≤ estimateTokens kept :=
      estimateTokens_sublist List.filter_sublist
    rw [hsame] at hless
    exact absurd (hless.trans hfits) (Nat.not_le.mpr hover)
  · rename_i hlarge
    split at hok
    · cases hok
    · split at hok
      · cases hok
      · rename_i hfits
        cases hok
        refine ⟨Nat.le_of_not_lt hfits, .compacted ?_ ?_⟩
        · rcases hend with hsmall | hrest
          · exact absurd hsmall hlarge
          · rw [hrest] at hlarge
            exact Nat.lt_of_not_le hlarge
        · intro message hmem
          exact (List.mem_filter.mp hmem).1

end ContextInput

/-! ### The cut -/

namespace ContextEngine

/-- The loop stops at the start, or at the last message up to `cut` that is no tool result. -/
theorem compactionCut_spec (journal : List ModelMessage) (cut : Nat) :
    compactionCut journal cut ≤ cut ∧
      (compactionCut journal cut = 0 ∨
        (journal[compactionCut journal cut]?).map ModelMessage.role ≠ some .tool) ∧
      ∀ k, compactionCut journal cut < k → k ≤ cut →
        (journal[k]?).map ModelMessage.role = some .tool := by
  induction cut with
  | zero => exact ⟨le_refl _, .inl rfl, fun k hlow hhigh => absurd hlow (Nat.not_lt.mpr hhigh)⟩
  | succ cut ih =>
      unfold compactionCut
      split
      · rename_i htool
        obtain ⟨hle, hstop, htools⟩ := ih
        refine ⟨Nat.le_succ_of_le hle, hstop, ?_⟩
        intro k hlow hhigh
        rcases Nat.lt_or_ge cut k with hlast | hearlier
        · rwa [Nat.le_antisymm hhigh hlast]
        · exact htools k hlow hearlier
      · rename_i hother
        exact ⟨le_refl _, .inr hother, fun k hlow hhigh => absurd hlow (Nat.not_lt.mpr hhigh)⟩

/-- Where `_compact_journal` cuts. -/
def journalCut (journal : List ModelMessage) : Nat :=
  compactionCut journal (journal.length - min 6 journal.length)

theorem structuredSummary_eq_empty {messages : List ModelMessage} :
    structuredSummary messages = "" ↔ messages = [] := by
  unfold structuredSummary
  cases messages with
  | nil => simp
  | cons message rest =>
      simp [String.append_eq_empty_iff]

/-- The summary is there when something is cut. -/
theorem compactJournal_eq (stable evidence : List ModelMessage) (request : ModelMessage)
    (journal : List ModelMessage) :
    compactJournal stable evidence request journal = stable ++ evidence ++ [request] ++
      (if journal.take (journalCut journal) = [] then []
        else [{ role := .system, content := structuredSummary (journal.take (journalCut journal))
                trusted := true }]) ++ journal.drop (journalCut journal) := by
  unfold compactJournal journalCut
  dsimp only
  by_cases hnone : journal.take
      (compactionCut journal (journal.length - min 6 journal.length)) = []
  · rw [if_pos (structuredSummary_eq_empty.mpr hnone), if_pos hnone, List.append_nil]
  · rw [if_neg (fun h => hnone (structuredSummary_eq_empty.mp h)), if_neg hnone]

end ContextEngine

end Codex2Lark
