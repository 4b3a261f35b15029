import Codex2Lark.Runtime.Types
import Mathlib.Algebra.GroupWithZero.Nat

/-!
`runtime/context.py`: the message list of one model request. Optional evidence
is dropped first; when that does not suffice, the journal is compacted once.
-/

namespace Codex2Lark

open Lib

/-- What `ResourceLoader.load` returns for the packages of a definition. -/
structure LoadedResources where
  instructions : List String
  policies : List String
  versions : Dict String String
deriving DecidableEq, Repr

structure ContextEvidence where
  sourceRef : String
  content : String
  sourceVersion : String
  required : Bool := false
deriving DecidableEq, Repr

structure ContextBuild where
  messages : List ModelMessage
  sourceVersions : Dict String String
  truncatedSources : List String
  estimatedTokens : Nat
  journalCompacted : Bool := false
  inputMessageCount : Nat := 0
deriving DecidableEq, Repr

namespace ContextEngine

def estimateTokens (messages : List ModelMessage) : Nat :=
  (messages.map fun message => max 1 ((message.content.length + 3) / 4) + 4).sum

def structuredSummary (messages : List ModelMessage) : String :=
  if messages.isEmpty then ""
  else "Compacted complete prior turns (unverified claims remain claims):\n" ++
    "\n".intercalate (messages.map fun message =>
      message.role.value ++ ": " ++ (message.content.take 240).toString)

/-- The backward loop over tool results: `cut` moves until it is zero or the
message at `cut` is no tool result. -/
def compactionCut (journal : List ModelMessage) : Nat → Nat
  | 0 => 0
  | cut + 1 =>
      if (journal[cut + 1]?).map ModelMessage.role = some .tool then compactionCut journal cut
      else cut + 1

def compactJournal (stable evidence : List ModelMessage) (request : ModelMessage)
    (journal : List ModelMessage) : List ModelMessage :=
  let keepCount := min 6 journal.length
  let cut := compactionCut journal (journal.length - keepCount)
  let summary := structuredSummary (journal.take cut)
  let compacted := stable ++ evidence ++ [request]
  let compacted :=
    if summary = "" then compacted
    else compacted ++ [{ role := .system, content := summary, trusted := true }]
  compacted ++ journal.drop cut

def stableMessages (definition : AgentDefinition) (resources : LoadedResources) :
    List ModelMessage :=
  { role := .system, content := definition.instructions, trusted := true } ::
    (resources.instructions.map fun instruction =>
      { role := .system, content := instruction, trusted := true }) ++
    resources.policies.map fun policy =>
      { role := .system, content := "Policy constraint: " ++ policy, trusted := true }

def evidenceMessage (item : ContextEvidence) : ModelMessage :=
  { role := .user
    content := "Untrusted source evidence [" ++ item.sourceRef ++ "]:\n" ++ item.content }

/-- The loop that drops the first optional item still present. Every round
removes one message, so as many rounds as there are messages suffice. -/
def fitEvidence (evidence : List ContextEvidence) (capacity : Nat) :
    Nat → List ModelMessage → List String → List ModelMessage × List String
  | 0, messages, truncated => (messages, truncated)
  | fuel + 1, messages, truncated =>
      if estimateTokens messages ≤ capacity then (messages, truncated)
      else
        match evidence.find? fun item =>
            !item.required && messages.contains (evidenceMessage item) with
        | some item =>
            fitEvidence evidence capacity fuel (messages.erase (evidenceMessage item))
              (truncated ++ [item.sourceRef])
        | none => (messages, truncated)

def build (definition : AgentDefinition) (resources : LoadedResources) (userRequest : String)
    (evidence : List ContextEvidence) (journal : List ModelMessage) :
    Except PyError ContextBuild :=
  let stable := stableMessages definition resources
  let dynamic := evidence.map evidenceMessage
  let request : ModelMessage := { role := .user, content := userRequest }
  let initial := stable ++ dynamic ++ [request] ++ journal
  let capacity := definition.maxContextTokens
  let (fitted, truncated) := fitEvidence evidence capacity (initial.length + 1) initial []
  let sourceVersions :=
    Dict.ofEntries (evidence.map fun item => (item.sourceRef, item.sourceVersion))
  if estimateTokens fitted ≤ capacity then
    .ok { messages := fitted, sourceVersions, truncatedSources := truncated
          estimatedTokens := estimateTokens fitted, inputMessageCount := initial.length }
  else if journal.isEmpty then
    .error (.valueError "required context exceeds the AgentDefinition context capacity")
  else
    let retained := dynamic.filter fitted.contains
    let messages := compactJournal stable retained request journal
    if estimateTokens messages > capacity then
      .error (.valueError "compacted context exceeds the AgentDefinition context capacity")
    else
      .ok { messages, sourceVersions, truncatedSources := truncated
            estimatedTokens := estimateTokens messages, journalCompacted := true
            inputMessageCount := initial.length }

end ContextEngine

end Codex2Lark
