import Codex2Lark.Lib.Selection
import Codex2Lark.Runtime.CopiesToGo
import Mathlib.Data.List.Dedup

/-!
Which evidence `ContextEngine.build` drops. A build keeps the context as long as the copies of
messages that its loop takes away are those of optional items, recorded under their sources.
-/

namespace Codex2Lark

open Lib

/-! ### What is asked of a build -/

namespace ContextInput

open ContextEngine

variable (definition : AgentDefinition) (resources : LoadedResources) (input : ContextInput)

/-- No further round of the loop would change its result. -/
def LoopEnds : Prop :=
  ∀ fuel, (input.messages definition resources).length < fuel →
    fitEvidence input.evidence definition.maxContextTokens fuel
        (input.messages definition resources) [] =
      fitEvidence input.evidence definition.maxContextTokens
        ((input.messages definition resources).length + 1) (input.messages definition resources) []

/-- The messages fit and start with the stable instructions, the kept evidence in its order and the
request; what is missing of the evidence is optional and named item by item. What follows the request
is of the journal, or of its compaction, which tells the request from evidence that equals it. -/
def KeepsContext (built : ContextBuild) : Prop :=
  estimateTokens built.messages ≤ definition.maxContextTokens ∧
  ∃ (kept : List ModelMessage) (dropped : List ContextEvidence) (rest : List ModelMessage),
    built.messages =
      stableMessages definition resources ++ kept ++ [input.requestMessage] ++ rest ∧
    (built.journalCompacted = false → rest.Sublist input.journal) ∧
    kept.Sublist (input.evidence.map evidenceMessage) ∧
    (∀ item ∈ input.evidence, item.required = true → evidenceMessage item ∈ kept) ∧
    dropped.Sublist input.evidence ∧ (∀ item ∈ dropped, item.required = false) ∧
    (kept ++ dropped.map evidenceMessage).Perm (input.evidence.map evidenceMessage) ∧
    built.truncatedSources.Perm (dropped.map ContextEvidence.sourceRef)

def optionalEvidence : List ContextEvidence := input.evidence.filter fun item => !item.required

/-- The copies of optional messages that have to go until the rest fits. -/
def mustGo : List ModelMessage :=
  (input.optionalEvidence.map evidenceMessage).dedup.flatMap fun message =>
    List.replicate (copiesToGo input.evidence definition.maxContextTokens
      (input.messages definition resources) message) message

/-- The copies that have to go are the messages of as many optional items, and the sources under which
they are recorded are those of such items. -/
def CopiesApart : Prop :=
  Selectable evidenceMessage ContextEvidence.sourceRef (nameOf input.evidence)
    (input.mustGo definition resources) input.optionalEvidence

instance : Decidable (input.CopiesApart definition resources) :=
  inferInstanceAs (Decidable (Selectable ..))

/-- What must stay does not fit, with the journal compacted where there is one. -/
def Refused : Prop :=
  input.Overflows definition resources ∧ (input.journal = [] ∨
    definition.maxContextTokens < estimateTokens (compactJournal (stableMessages definition resources)
      (essential input.evidence (input.evidence.map evidenceMessage)) input.requestMessage
      input.journal))

instance : Decidable (input.Refused definition resources) :=
  inferInstanceAs (Decidable (_ ∧ _))

/-! ### A build by what it removes -/

variable {definition resources input}

theorem stable_not_optional {message : ModelMessage}
    (hmem : message ∈ stableMessages definition resources) (evidence : List ContextEvidence) :
    isOptional evidence message = false := by
  have htrusted : message.trusted = true := by
    simp only [stableMessages, List.mem_append, List.mem_cons, List.mem_map] at hmem
    rcases hmem with (rfl | ⟨_, _, rfl⟩) | ⟨_, _, rfl⟩ <;> rfl
  cases hoptional : isOptional evidence message with
  | false => rfl
  | true =>
      have huser := (isOptional_user hoptional).2
      rw [htrusted] at huser
      cases huser

/-- The evidence as messages. -/
abbrev dynamic (input : ContextInput) : List ModelMessage := input.evidence.map evidenceMessage

theorem messages_split : input.messages definition resources =
    stableMessages definition resources ++
      (input.dynamic ++ ([input.requestMessage] ++ input.journal)) := by
  simp [messages, dynamic]

theorem essential_stable : essential input.evidence (stableMessages definition resources) =
    stableMessages definition resources :=
  essential_of_absent fun _ hmem => stable_not_optional hmem _

/-- The evidence that a compaction keeps. -/
theorem retained_eq : input.dynamic.filter
    (essential input.evidence (input.messages definition resources)).contains =
      essential input.evidence input.dynamic := by
  unfold essential
  refine List.filter_congr fun message hmem => ?_
  have hall : message ∈ input.messages definition resources := by
    rw [messages_split]
    simp [hmem]
  rw [Bool.eq_iff_iff, List.contains_iff_mem, List.mem_filter]
  exact ⟨And.right, fun hnot => ⟨hall, hnot⟩⟩

/-- The build after the loop has removed the messages. -/
inductive BuiltFrom (definition : AgentDefinition) (resources : LoadedResources)
    (input : ContextInput) (removed : List ModelMessage) : Except PyError ContextBuild → Prop
  | fits {built : ContextBuild} (hopen : ¬ input.Refused definition resources)
      (hmessages : built.messages = (input.messages definition resources).diff removed)
      (hnames : built.truncatedSources = removed.map (nameOf input.evidence))
      (hwhole : built.journalCompacted = false)
      (hfits : estimateTokens built.messages ≤ definition.maxContextTokens) :
      BuiltFrom definition resources input removed (.ok built)
  | compacted {built : ContextBuild} (hopen : ¬ input.Refused definition resources)
      (hgone : (input.messages definition resources).diff removed =
        essential input.evidence (input.messages definition resources))
      (hmessages : built.messages = compactJournal (stableMessages definition resources)
        (essential input.evidence input.dynamic) input.requestMessage input.journal)
      (hnames : built.truncatedSources = removed.map (nameOf input.evidence))
      (hcompacted : built.journalCompacted = true)
      (hfits : estimateTokens built.messages ≤ definition.maxContextTokens) :
      BuiltFrom definition resources input removed (.ok built)
  | refused {e : PyError} (hrefused : input.Refused definition resources) :
      BuiltFrom definition resources input removed (.error e)

/-- Of every optional message the copies that must go are removed. -/
theorem build_from (definition : AgentDefinition) (resources : LoadedResources)
    (input : ContextInput) : ∃ removed : List ModelMessage,
      removed.Subperm (input.messages definition resources) ∧
      (∀ message, removed.count message = copiesToGo input.evidence definition.maxContextTokens
        (input.messages definition resources) message) ∧
      BuiltFrom definition resources input removed (input.build definition resources) := by
  obtain ⟨hsame, hend⟩ := fitEvidence_spec input.evidence definition.maxContextTokens
    ((input.messages definition resources).length + 1) (input.messages definition resources) []
    (Nat.lt_succ_self _)
  obtain ⟨removed, hsub, hcounts, hloop⟩ := fitEvidence_removed input.evidence
    definition.maxContextTokens ((input.messages definition resources).length + 1)
    (input.messages definition resources) [] (Nat.lt_succ_self _)
  refine ⟨removed, hsub, hcounts, ?_⟩
  have hmessages : stableMessages definition resources ++ input.evidence.map evidenceMessage ++
      [{ role := .user, content := input.userRequest }] ++ input.journal =
        input.messages definition resources := rfl
  rw [hloop] at hsame hend
  unfold build ContextEngine.build
  dsimp only at hsame hend ⊢
  rw [hmessages, hloop]
  dsimp only
  split
  · rename_i hfits
    have hless : estimateTokens (essential input.evidence
        ((input.messages definition resources).diff removed)) ≤ definition.maxContextTokens :=
      (estimateTokens_sublist List.filter_sublist).trans hfits
    rw [hsame] at hless
    exact .fits (fun hrefused => Nat.not_lt.mpr hless hrefused.1) rfl (List.nil_append _) rfl hfits
  · rename_i hlarge
    have hgone := hend.resolve_left hlarge
    have hover : input.Overflows definition resources := by
      unfold Overflows
      rw [← hgone]
      exact Nat.lt_of_not_le hlarge
    split
    · rename_i hnone
      exact .refused ⟨hover, .inl (List.isEmpty_iff.mp hnone)⟩
    · rename_i hjournal
      rw [hgone, retained_eq]
      split
      · rename_i hlong
        exact .refused ⟨hover, .inr hlong⟩
      · rename_i hshort
        refine .compacted (fun hrefused => ?_) hgone rfl (List.nil_append _) rfl
          (Nat.le_of_not_lt hshort)
        rcases hrefused.2 with hnone | hlong
        · exact hjournal (List.isEmpty_iff.mpr hnone)
        · exact hshort hlong

theorem mem_optional {message : ModelMessage} :
    message ∈ input.optionalEvidence.map evidenceMessage ↔
      isOptional input.evidence message = true := by
  rw [isOptional_iff]
  simp [optionalEvidence, and_assoc]

theorem mustGo_count (message : ModelMessage) : (input.mustGo definition resources).count message =
    copiesToGo input.evidence definition.maxContextTokens (input.messages definition resources)
      message := by
  unfold mustGo
  rw [count_repeated (List.nodup_dedup _)]
  split
  · rfl
  · rename_i hnot
    rw [List.mem_dedup, mem_optional] at hnot
    unfold copiesToGo
    rw [if_neg hnot]

theorem removed_append_diff {messages removed : List ModelMessage}
    (hsub : removed.Subperm messages) : (removed ++ messages.diff removed).Perm messages :=
  List.subperm_append_diff_self_of_count_le fun message _ => hsub.count_le message

/-! ### Items for the removed messages -/

section Dropped

variable {removed : List ModelMessage} {dropped : List ContextEvidence}
  (hselects : Selects evidenceMessage ContextEvidence.sourceRef (nameOf input.evidence) removed
    input.optionalEvidence dropped)

/-- What is taken out of the middle leaves both ends. -/
private theorem diff_middle {before middle after removed : List ModelMessage}
    (hbefore : ∀ message ∈ removed, message ∉ before) (hsub : removed.Subperm middle) :
    (before ++ (middle ++ after)).diff removed = before ++ (middle.diff removed ++ after) := by
  induction removed generalizing middle with
  | nil => simp
  | cons message rest ih =>
      have hmem : message ∈ middle := hsub.subset (List.mem_cons_self ..)
      have hrest : rest.Subperm (middle.erase message) := by
        have herased := hsub.erase message
        rwa [List.erase_cons_head] at herased
      rw [List.diff_cons, List.diff_cons, List.erase_append_right _ (hbefore message (by simp)),
        List.erase_append_left _ hmem]
      exact ih (fun other hother => hbefore other (List.mem_cons_of_mem _ hother)) hrest

include hselects

theorem dropped_sub : dropped.Sublist input.evidence := hselects.sub.trans List.filter_sublist

theorem dropped_optional {item : ContextEvidence} (hitem : item ∈ dropped) :
    item.required = false := by
  have hkept := (List.mem_filter.mp (hselects.sub.subset hitem)).2
  simpa using hkept

theorem removed_sub : removed.Subperm input.dynamic :=
  hselects.keys.symm.subperm.trans ((dropped_sub hselects).map evidenceMessage).subperm

theorem removed_optional {message : ModelMessage} (hmem : message ∈ removed) :
    isOptional input.evidence message = true := by
  have hkey := hselects.keys.symm.subset hmem
  exact mem_optional.mp ((hselects.sub.map evidenceMessage).subset hkey)

theorem kept_perm : (input.dynamic.diff removed ++ dropped.map evidenceMessage).Perm
    input.dynamic := by
  have hall := removed_append_diff (removed_sub hselects)
  exact (List.perm_append_comm.trans (hselects.keys.append_right _)).trans hall

theorem required_kept {item : ContextEvidence} (hmem : item ∈ input.evidence)
    (hrequired : item.required = true) : evidenceMessage item ∈ input.dynamic.diff removed := by
  obtain ⟨left, hsplit⟩ := (dropped_sub hselects).exists_perm_append
  have hleft : item ∈ left := by
    rcases List.mem_append.mp (hsplit.subset hmem) with hgone | hleft
    · rw [dropped_optional hselects hgone] at hrequired
      cases hrequired
    · exact hleft
  have hboth := (kept_perm hselects).trans (hsplit.map evidenceMessage)
  rw [List.map_append] at hboth
  have hkept := (List.perm_append_right_iff _).mp (hboth.trans List.perm_append_comm)
  exact hkept.symm.subset (List.mem_map_of_mem hleft)

theorem messages_diff : (input.messages definition resources).diff removed =
    stableMessages definition resources ++
      (input.dynamic.diff removed ++ ([input.requestMessage] ++ input.journal)) := by
  rw [messages_split]
  refine diff_middle (fun message hmem hstable => ?_) (removed_sub hselects)
  have hnot := stable_not_optional hstable input.evidence
  rw [removed_optional hselects hmem] at hnot
  cases hnot

/-- Where all optional messages are gone, the evidence without them is left. -/
theorem kept_essential (hgone : (input.messages definition resources).diff removed =
      essential input.evidence (input.messages definition resources)) :
    input.dynamic.diff removed = essential input.evidence input.dynamic := by
  have happend (first second : List ModelMessage) : essential input.evidence (first ++ second) =
      essential input.evidence first ++ essential input.evidence second := List.filter_append ..
  rw [messages_diff hselects, messages_split, happend, happend, essential_stable] at hgone
  have hrest := List.append_cancel_left hgone
  refine (List.append_inj hrest ?_).1
  have htotal := congrArg List.length hrest
  have htail : (essential input.evidence ([input.requestMessage] ++ input.journal)).length ≤
      ([input.requestMessage] ++ input.journal).length := List.length_filter_le _ _
  have hall := (removed_append_diff (removed_sub hselects)).length_eq
  have hsplit := (List.filter_append_perm (isOptional input.evidence) input.dynamic).length_eq
  have hremoved : removed.length ≤ (input.dynamic.filter (isOptional input.evidence)).length := by
    have hfiltered := (removed_sub hselects).filter (isOptional input.evidence)
    rw [List.filter_eq_self.mpr fun message hmem => removed_optional hselects hmem] at hfiltered
    exact hfiltered.length_le
  simp only [List.length_append, essential] at htotal htail hall hsplit hremoved ⊢
  omega

/-- A build keeps the context when there are items for what it has removed. -/
theorem keepsContext_of_selects {built : ContextBuild}
    (hbuilt : BuiltFrom definition resources input removed (.ok built)) :
    KeepsContext definition resources input built := by
  have hkept : ∀ item ∈ input.evidence, item.required = true →
      evidenceMessage item ∈ input.dynamic.diff removed := fun _ => required_kept hselects
  have hsublist : (input.dynamic.diff removed).Sublist input.dynamic := List.diff_sublist _ _
  cases hbuilt with
  | fits _ hmessages hnames _ hfits =>
      refine ⟨hfits, input.dynamic.diff removed, dropped, input.journal, ?_,
        fun _ => List.Sublist.refl _, hsublist, hkept, dropped_sub hselects,
        fun _ => dropped_optional hselects, kept_perm hselects, ?_⟩
      · rw [hmessages, messages_diff hselects]
        simp
      · rw [hnames]
        exact hselects.labels.symm
  | compacted _ hgone hmessages hnames hcompacted hfits =>
      rw [← kept_essential hselects hgone, compactJournal_eq, List.append_assoc] at hmessages
      refine ⟨hfits, input.dynamic.diff removed, dropped, _, hmessages, ?_, hsublist, hkept,
        dropped_sub hselects, fun _ => dropped_optional hselects, kept_perm hselects, ?_⟩
      · intro hwhole
        rw [hcompacted] at hwhole
        cases hwhole
      · rw [hnames]
        exact hselects.labels.symm

end Dropped

/-- Before a compaction all optional messages are removed, those of the evidence among them. -/
theorem removed_all {removed : List ModelMessage}
    (hsub : removed.Subperm (input.messages definition resources))
    (hgone : (input.messages definition resources).diff removed =
      essential input.evidence (input.messages definition resources)) :
    removed.Perm ((input.messages definition resources).filter (isOptional input.evidence)) := by
  have hall := removed_append_diff hsub
  rw [hgone] at hall
  have hsplit := List.filter_append_perm (isOptional input.evidence)
    (input.messages definition resources)
  exact (List.perm_append_right_iff _).mp (hall.trans hsplit.symm)

/-- A build that keeps the context has items for what it has removed. -/
theorem selects_of_keepsContext {removed : List ModelMessage} {built : ContextBuild}
    (hsub : removed.Subperm (input.messages definition resources))
    (hbuilt : BuiltFrom definition resources input removed (.ok built))
    (hkeeps : KeepsContext definition resources input built) :
    ∃ dropped, Selects evidenceMessage ContextEvidence.sourceRef (nameOf input.evidence) removed
      input.optionalEvidence dropped := by
  obtain ⟨_, kept, dropped, rest, hshape, hrest, _, _, hdropped, hoptional, hperm, hnamed⟩ := hkeeps
  have hitems : dropped.Sublist input.optionalEvidence := by
    have hfiltered := hdropped.filter fun item => !item.required
    rwa [List.filter_eq_self.mpr fun item hitem => by simp [hoptional item hitem]] at hfiltered
  suffices hkeys : built.truncatedSources = removed.map (nameOf input.evidence) ∧
      (dropped.map evidenceMessage).Perm removed by
    rw [hkeys.1] at hnamed
    exact ⟨dropped, hitems, hkeys.2, hnamed.symm⟩
  cases hbuilt with
  | fits _ hmessages hnames hwhole _ =>
      refine ⟨hnames, ?_⟩
      rw [hnames] at hnamed
      have hlength := hnamed.length_eq
      have hall := removed_append_diff hsub
      rw [← hmessages, hshape, messages_split] at hall
      -- what follows the request is the journal as it was
      have hboth : (dropped.map evidenceMessage ++ input.journal).Perm (removed ++ rest) := by
        rw [List.perm_iff_count] at hall hperm ⊢
        intro message
        have hcount := hall message
        have hevidence := hperm message
        simp only [List.count_append, dynamic] at hcount hevidence ⊢
        omega
      have hjournal : rest = input.journal := by
        refine (hrest hwhole).eq_of_length ?_
        have htotal := hboth.length_eq
        simp only [List.length_append, List.length_map] at htotal hlength
        omega
      rw [hjournal] at hboth
      exact (List.perm_append_right_iff _).mp hboth
  | compacted _ hgone _ hnames _ _ =>
      refine ⟨hnames, ?_⟩
      rw [hnames] at hnamed
      have hlength := hnamed.length_eq
      have hremoved := removed_all hsub hgone
      have hmessages : (dropped.map evidenceMessage).Subperm removed := by
        have hfiltered : (dropped.map evidenceMessage).filter (isOptional input.evidence) =
            dropped.map evidenceMessage := by
          rw [List.filter_eq_self]
          exact fun message hmem => mem_optional.mp ((hitems.map evidenceMessage).subset hmem)
        have hevidence : (dropped.map evidenceMessage).Sublist
            (input.messages definition resources) := by
          rw [messages_split]
          exact ((hdropped.map evidenceMessage).trans (List.sublist_append_left ..)).trans
            (List.sublist_append_right ..)
        rw [← hfiltered]
        exact (hevidence.filter _).subperm.trans hremoved.symm.subperm
      apply hmessages.perm_of_length_le
      simp only [List.length_map] at hlength ⊢
      omega

/-- A message is recorded under the source of an optional item that has it. -/
theorem nameOf_item {message : ModelMessage} (hoptional : isOptional input.evidence message = true) :
    ∃ named ∈ input.optionalEvidence, evidenceMessage named = message ∧
      nameOf input.evidence message = named.sourceRef := by
  obtain ⟨item, hitem, hrequired, hsame⟩ := isOptional_iff.mp hoptional
  have hsome : (input.evidence.find? fun other =>
      !other.required && evidenceMessage other = message).isSome = true := by
    rw [List.find?_isSome]
    exact ⟨item, hitem, by simp [hrequired, hsame]⟩
  obtain ⟨named, hnamed⟩ := Option.isSome_iff_exists.mp hsome
  have hfound := List.find?_some hnamed
  rw [Bool.and_eq_true] at hfound
  refine ⟨named, List.mem_filter.mpr ⟨List.mem_of_find?_eq_some hnamed, hfound.1⟩,
    of_decide_eq_true hfound.2, ?_⟩
  unfold nameOf
  rw [hnamed]
  rfl

/-- For the copies that must go there are items exactly when the copies stand apart. -/
theorem exists_selects : (∃ dropped, Selects evidenceMessage ContextEvidence.sourceRef
      (nameOf input.evidence) (input.mustGo definition resources) input.optionalEvidence dropped) ↔
    input.CopiesApart definition resources := by
  refine exists_selects_iff ?_ ?_
  · have hless (message : ModelMessage) : (input.optionalEvidence.map evidenceMessage).count message ≤
        (input.messages definition resources).count message := by
      rw [messages_split]
      have hsub : (input.optionalEvidence.map evidenceMessage).Sublist input.dynamic :=
        List.filter_sublist.map evidenceMessage
      exact ((hsub.trans (List.sublist_append_left ..)).trans
        (List.sublist_append_right ..)).count_le message
    intro a ha b hb hpartA hpartB
    have hgoesA := List.count_pos_iff.mpr ha
    have hgoesB := List.count_pos_iff.mpr hb
    rw [mustGo_count] at hgoesA hgoesB hpartA hpartB
    exact copiesToGo_part (Nat.pos_iff_ne_zero.mp hgoesA) (Nat.pos_iff_ne_zero.mp hgoesB)
      (hpartA.trans_le (hless a)) (hpartB.trans_le (hless b))
  · intro message hmem
    have hgoes := List.count_pos_iff.mpr hmem
    rw [mustGo_count] at hgoes
    obtain ⟨named, hnamed, _, hname⟩ :=
      nameOf_item (optional_of_copies (Nat.pos_iff_ne_zero.mp hgoes))
    exact ⟨named, hnamed, hname.symm⟩

/-- Nothing that has to stay has the message of an optional item, and optional items with one
message have one source. -/
structure EvidenceApart (input : ContextInput) : Prop where
  required : ∀ item ∈ input.evidence,
    isOptional input.evidence (evidenceMessage item) = true → item.required = false
  request : isOptional input.evidence input.requestMessage = false
  journal : ∀ message ∈ input.journal, isOptional input.evidence message = false
  named : ∀ a ∈ input.evidence, ∀ b ∈ input.evidence, a.required = false → b.required = false →
    evidenceMessage a = evidenceMessage b → a.sourceRef = b.sourceRef

/-- All copies of an optional message are messages of optional items. -/
theorem EvidenceApart.count_le (hapart : input.EvidenceApart) {message : ModelMessage}
    (hoptional : isOptional input.evidence message = true) :
    (input.messages definition resources).count message ≤
      (input.optionalEvidence.map evidenceMessage).count message := by
  have hnone (messages : List ModelMessage)
      (hother : ∀ other ∈ messages, isOptional input.evidence other = false) :
      messages.count message = 0 := by
    rw [List.count_eq_zero]
    intro hmem
    rw [hother message hmem] at hoptional
    cases hoptional
  have hevidence : input.dynamic.count message =
      (input.optionalEvidence.map evidenceMessage).count message := by
    unfold optionalEvidence
    rw [count_map, count_map, List.countP_filter]
    refine List.countP_congr fun item hitem => ?_
    simp only [decide_eq_true_eq, Bool.and_eq_true, Bool.not_eq_true']
    refine ⟨fun hsame => ⟨hsame, hapart.required item hitem (hsame ▸ hoptional)⟩, And.left⟩
  rw [messages_split, List.count_append, List.count_append, List.count_append,
    hnone _ fun _ hmem => stable_not_optional hmem _, hnone input.journal hapart.journal,
    hnone [input.requestMessage] fun other hmem => List.mem_singleton.mp hmem ▸ hapart.request]
  omega

/-- Evidence that stands apart is kept under every definition. -/
theorem EvidenceApart.copiesApart (hapart : input.EvidenceApart) :
    input.CopiesApart definition resources := by
  apply selectable_of_labels
  · intro item hitem
    obtain ⟨hmem, hrequired⟩ := List.mem_filter.mp hitem
    obtain ⟨named, hnamed, hmessage, hname⟩ :=
      nameOf_item (isOptional_iff.mpr ⟨item, hmem, by simpa using hrequired, rfl⟩)
    rw [hname]
    obtain ⟨hin, hnot⟩ := List.mem_filter.mp hnamed
    exact hapart.named item hmem named hin (by simpa using hrequired) (by simpa using hnot)
      hmessage.symm
  · intro message hmem
    have hgoes := List.count_pos_iff.mpr hmem
    rw [mustGo_count] at hgoes ⊢
    have hoptional := optional_of_copies (Nat.pos_iff_ne_zero.mp hgoes)
    calc copiesToGo input.evidence definition.maxContextTokens (input.messages definition resources)
          message
        ≤ (input.messages definition resources).count message := by
          unfold copiesToGo
          rw [if_pos hoptional]
          exact min_le_left _ _
      _ ≤ (input.optionalEvidence.map evidenceMessage).count message := hapart.count_le hoptional

end ContextInput

namespace ContextEngine

open ContextInput

/-- The loop of a build ends, and a build keeps the context or is refused exactly where what must stay
does not fit or the copies that have to go stand apart. -/
theorem build_keeps_context_iff (definition : AgentDefinition) (resources : LoadedResources)
    (input : ContextInput) :
    LoopEnds definition resources input ∧
      ((∀ built, input.build definition resources = .ok built →
          KeepsContext definition resources input built) ↔
        input.Refused definition resources ∨ input.CopiesApart definition resources) := by
  refine ⟨fun fuel hfuel => fitEvidence_enough _ _ _ _ _ hfuel, ?_⟩
  obtain ⟨removed, hsub, hcounts, hbuilt⟩ := build_from definition resources input
  have hremoved : removed.Perm (input.mustGo definition resources) := by
    rw [List.perm_iff_count]
    intro message
    rw [hcounts, mustGo_count]
  constructor
  · intro hkeeps
    cases hresult : input.build definition resources with
    | error e =>
        rw [hresult] at hbuilt
        cases hbuilt with
        | refused hrefused => exact .inl hrefused
    | ok built =>
        rw [hresult] at hbuilt
        obtain ⟨dropped, hselects⟩ := selects_of_keepsContext hsub hbuilt (hkeeps built hresult)
        exact .inr (exists_selects.mp ⟨dropped, hselects.of_perm hremoved⟩)
  · rintro hcondition built hok
    rw [hok] at hbuilt
    have hopen : ¬ input.Refused definition resources := by
      cases hbuilt <;> assumption
    obtain ⟨dropped, hselects⟩ := exists_selects.mpr (hcondition.resolve_left hopen)
    exact keepsContext_of_selects (hselects.of_perm hremoved.symm) hbuilt

section Examples

private def smallDefinition : AgentDefinition :=
  { agentId := "main", version := 1, instructions := "Help.", modelProfile := "default"
    toolIds := [], maxContextTokens := 10 }

/-- The user quotes the evidence. -/
private def quotedEvidence : ContextInput where
  userRequest := "Untrusted source evidence [im:1]:\nhello"
  evidence := [{ sourceRef := "im:1", content := "hello", sourceVersion := "1" }]
  journal := []

/-- The request is dropped with the evidence that it equals, and the source is named twice. -/
theorem build_drops_request :
    ∃ built, quotedEvidence.build smallDefinition ⟨[], [], []⟩ = .ok built ∧
      quotedEvidence.requestMessage ∉ built.messages ∧
      built.truncatedSources = ["im:1", "im:1"] ∧
      ¬ KeepsContext smallDefinition ⟨[], [], []⟩ quotedEvidence built := by
  have hbuild : quotedEvidence.build smallDefinition ⟨[], [], []⟩ = .ok
      { messages := [{ role := .system, content := "Help.", trusted := true }]
        sourceVersions := [("im:1", "1")], truncatedSources := ["im:1", "im:1"]
        estimatedTokens := 6, inputMessageCount := 3 } := by decide +kernel
  have hlost : quotedEvidence.requestMessage ∉
      [({ role := .system, content := "Help.", trusted := true } : ModelMessage)] := by decide
  refine ⟨_, hbuild, hlost, rfl, ?_⟩
  rintro ⟨_, kept, dropped, rest, hshape, _⟩
  dsimp only at hshape
  refine hlost ?_
  rw [hshape]
  simp

-- the quote does no harm where it is enough to drop another item
example : ContextInput.CopiesApart
    { smallDefinition with maxContextTokens := 40, contextPositive := by decide } ⟨[], [], []⟩
    { quotedEvidence with
      evidence := { sourceRef := "im:2", content := "forty characters of somebody's long text",
                    sourceVersion := "1" } :: quotedEvidence.evidence } := by
  decide +kernel

end Examples

end ContextEngine

end Codex2Lark
