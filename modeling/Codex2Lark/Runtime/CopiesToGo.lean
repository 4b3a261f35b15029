import Codex2Lark.Runtime.BuiltContext
import Mathlib.Data.List.Perm.Subperm

/-!
What the loop of `ContextEngine.build` takes away. It takes messages by their value, so it takes
whatever equals the message of an optional item, and names it after the first such item. How many
copies of each message it takes is settled by the sizes of the messages and the capacity.
-/

namespace Codex2Lark

open Lib

namespace ContextEngine

/-- The source under which the loop records a message. -/
def nameOf (evidence : List ContextEvidence) (message : ModelMessage) : String :=
  ((evidence.find? fun item => !item.required && evidenceMessage item = message).map
    ContextEvidence.sourceRef).getD ""

theorem nameOf_found {evidence : List ContextEvidence} {messages : List ModelMessage}
    {item : ContextEvidence}
    (hfound : evidence.find? (fun item =>
      !item.required && messages.contains (evidenceMessage item)) = some item) :
    nameOf evidence (evidenceMessage item) = item.sourceRef := by
  obtain ⟨hitem, earlier, later, hsplit, hearlier⟩ := List.find?_eq_some_iff_append.mp hfound
  simp only [Bool.and_eq_true, Bool.not_eq_true', List.contains_iff_mem] at hitem
  have hfirst : evidence.find? (fun other =>
      !other.required && evidenceMessage other = evidenceMessage item) = some item := by
    rw [List.find?_eq_some_iff_append]
    refine ⟨by simp [hitem.1], earlier, later, hsplit, fun other hother => ?_⟩
    have hskipped := hearlier other hother
    simp only [Bool.not_eq_true', Bool.and_eq_false_iff, Bool.not_eq_false'] at hskipped ⊢
    rcases hskipped with hrequired | habsent
    · exact .inl hrequired
    · refine .inr (decide_eq_false fun hsame => ?_)
      rw [hsame] at habsent
      simp [hitem.2] at habsent
  unfold nameOf
  rw [hfirst]
  rfl

/-- More rounds than there are messages change nothing. -/
theorem fitEvidence_enough (evidence : List ContextEvidence) (capacity fuel : Nat)
    (messages : List ModelMessage) (truncated : List String) (hfuel : messages.length < fuel) :
    fitEvidence evidence capacity fuel messages truncated =
      fitEvidence evidence capacity (messages.length + 1) messages truncated := by
  induction fuel generalizing messages truncated with
  | zero => exact absurd hfuel (Nat.not_lt_zero _)
  | succ fuel ih =>
      conv_lhs => unfold fitEvidence
      conv_rhs => unfold fitEvidence
      split
      · rfl
      · split
        · rename_i item hfound
          have hdropped := List.find?_some hfound
          simp only [Bool.and_eq_true, Bool.not_eq_true', List.contains_iff_mem] at hdropped
          have hshorter := List.length_erase_of_mem hdropped.2
          have hpos := List.length_pos_of_mem hdropped.2
          rw [ih (messages.erase (evidenceMessage item)) _ (by omega)]
          congr 1
          omega
        · rfl

theorem estimateTokens_erase {messages : List ModelMessage} {message : ModelMessage}
    (hmem : message ∈ messages) :
    estimateTokens messages = estimateTokens [message] +
      estimateTokens (messages.erase message) := by
  have hperm := (List.perm_cons_erase hmem).map fun message : ModelMessage =>
    max 1 ((message.content.length + 3) / 4) + 4
  have hsum := hperm.sum_eq
  simpa [estimateTokens] using hsum

theorem estimateTokens_singleton_pos (message : ModelMessage) : 0 < estimateTokens [message] := by
  simp [estimateTokens]

/-! ### How many copies of a message go -/

/-- The items before the first optional one with the message. -/
def itemsBefore (evidence : List ContextEvidence) (message : ModelMessage) : List ContextEvidence :=
  evidence.takeWhile fun item => item.required || evidenceMessage item ≠ message

/-- What is too much once the optional messages of the items before the message are gone. -/
def excess (evidence : List ContextEvidence) (capacity : Nat) (messages : List ModelMessage)
    (message : ModelMessage) : Nat :=
  estimateTokens (essential (itemsBefore evidence message) messages) - capacity

/-- The copies of an optional message that have to go then until the rest fits: all of them, or as
many as make up the excess. -/
def copiesToGo (evidence : List ContextEvidence) (capacity : Nat) (messages : List ModelMessage)
    (message : ModelMessage) : Nat :=
  if isOptional evidence message then
    min (messages.count message) ((excess evidence capacity messages message +
      (estimateTokens [message] - 1)) / estimateTokens [message])
  else 0

/-- One round less is needed after a round. -/
private theorem rounds_succ {size rest cost capacity : Nat} (hsplit : size = cost + rest)
    (hcost : 0 < cost) (hlarge : capacity < size) :
    (size - capacity + (cost - 1)) / cost = (rest - capacity + (cost - 1)) / cost + 1 := by
  rcases Nat.lt_or_ge capacity rest with hmore | hless
  · rw [show size - capacity + (cost - 1) = rest - capacity + (cost - 1) + cost by omega,
      Nat.add_div_right _ hcost]
  · rw [Nat.sub_eq_zero_of_le hless, Nat.zero_add, Nat.div_eq_of_lt (show cost - 1 < cost by omega)]
    exact Nat.div_eq_of_lt_le (by omega) (by omega)

section Copies

variable {evidence : List ContextEvidence} {capacity : Nat} {messages : List ModelMessage}

theorem copiesToGo_of_fits {message : ModelMessage}
    (hfits : estimateTokens (essential (itemsBefore evidence message) messages) ≤ capacity) :
    copiesToGo evidence capacity messages message = 0 := by
  have hcost := estimateTokens_singleton_pos message
  unfold copiesToGo excess
  rw [Nat.sub_eq_zero_of_le hfits, Nat.zero_add, Nat.div_eq_of_lt (by omega), Nat.min_zero, ite_self]

theorem copiesToGo_fits (hfits : estimateTokens messages ≤ capacity) (message : ModelMessage) :
    copiesToGo evidence capacity messages message = 0 :=
  copiesToGo_of_fits ((estimateTokens_sublist List.filter_sublist).trans hfits)

theorem copiesToGo_absent {message : ModelMessage} (habsent : message ∉ messages) :
    copiesToGo evidence capacity messages message = 0 := by
  unfold copiesToGo
  split
  · rw [List.count_eq_zero.mpr habsent, Nat.zero_min]
  · rfl

/-- No optional item has its message left. -/
theorem absent_of_none (hnone : evidence.find? (fun item =>
      !item.required && messages.contains (evidenceMessage item)) = none) {message : ModelMessage}
    (hoptional : isOptional evidence message = true) : message ∉ messages := by
  obtain ⟨item, hitem, hrequired, rfl⟩ := isOptional_iff.mp hoptional
  have hskipped := List.find?_eq_none.mp hnone item hitem
  simpa [hrequired] using hskipped

/-- Without optional messages of the first items nothing is filtered out for them. -/
theorem essential_of_absent {items : List ContextEvidence}
    (habsent : ∀ message ∈ messages, isOptional items message = false) :
    essential items messages = messages := by
  unfold essential
  rw [List.filter_eq_self]
  intro message hmem
  rw [habsent message hmem]
  rfl

theorem essential_erase {items : List ContextEvidence} {message : ModelMessage}
    (hoptional : isOptional items message = true) :
    essential items (messages.erase message) = essential items messages := by
  unfold essential
  rw [← List.erase_filter, List.erase_of_not_mem]
  simp [hoptional]

/-- What the loop finds: the items before it are required or have lost their messages. -/
theorem found_cases {item : ContextEvidence} (hfound : evidence.find? (fun item =>
      !item.required && messages.contains (evidenceMessage item)) = some item) :
    item.required = false ∧ evidenceMessage item ∈ messages ∧ ∃ earlier later,
      evidence = earlier ++ item :: later ∧
        ∀ other ∈ earlier, other.required = true ∨ evidenceMessage other ∉ messages := by
  obtain ⟨hitem, earlier, later, hsplit, hearlier⟩ := List.find?_eq_some_iff_append.mp hfound
  simp only [Bool.and_eq_true, Bool.not_eq_true', List.contains_iff_mem] at hitem
  refine ⟨hitem.1, hitem.2, earlier, later, hsplit, fun other hother => ?_⟩
  have hskipped := hearlier other hother
  simpa [Decidable.or_iff_not_imp_left] using hskipped

section Round

variable {earlier later : List ContextEvidence} {item : ContextEvidence}
  (hgone : ∀ other ∈ earlier, other.required = true ∨ evidenceMessage other ∉ messages)
  (hrequired : item.required = false) (hleft : evidenceMessage item ∈ messages)

include hgone

/-- No item before a message that is left has it. -/
theorem itemsBefore_left {message : ModelMessage} (hmem : message ∈ messages) :
    itemsBefore (earlier ++ item :: later) message =
      earlier ++ itemsBefore (item :: later) message := by
  unfold itemsBefore
  rw [List.takeWhile_append_of_pos]
  intro other hother
  rcases hgone other hother with hneeded | hlost
  · simp [hneeded]
  · have hne : evidenceMessage other ≠ message := fun hsame => hlost (hsame ▸ hmem)
    simp [hne]

include hrequired

/-- The copies of other messages: as many are to go as before. -/
theorem copiesToGo_erase_other {message : ModelMessage} (hother : evidenceMessage item ≠ message) :
    copiesToGo (earlier ++ item :: later) capacity messages message =
      copiesToGo (earlier ++ item :: later) capacity (messages.erase (evidenceMessage item))
        message := by
  by_cases hmem : message ∈ messages
  · -- the item comes before every optional item with this message
    have hbefore : isOptional (itemsBefore (earlier ++ item :: later) message)
        (evidenceMessage item) = true := by
      rw [itemsBefore_left hgone hmem]
      exact isOptional_iff.mpr ⟨item, by simp [itemsBefore, hother], hrequired, rfl⟩
    unfold copiesToGo excess
    rw [essential_erase hbefore, List.count_erase_of_ne (Ne.symm hother)]
  · rw [copiesToGo_absent hmem, copiesToGo_absent fun h => hmem (List.mem_of_mem_erase h)]

include hleft

/-- The copies of the item's own message: one less is to go. -/
theorem copiesToGo_erase_self (hlarge : capacity < estimateTokens messages) :
    copiesToGo (earlier ++ item :: later) capacity messages (evidenceMessage item) =
      copiesToGo (earlier ++ item :: later) capacity (messages.erase (evidenceMessage item))
        (evidenceMessage item) + 1 := by
  have hoptional : isOptional (earlier ++ item :: later) (evidenceMessage item) = true :=
    isOptional_iff.mpr ⟨item, by simp, hrequired, rfl⟩
  have hbefore : itemsBefore (earlier ++ item :: later) (evidenceMessage item) = earlier := by
    rw [itemsBefore_left hgone hleft]
    simp [itemsBefore, hrequired]
  have hnone : ∀ message ∈ messages, isOptional earlier message = false := by
    intro message hmem
    rw [Bool.eq_false_iff]
    intro hearly
    obtain ⟨other, hother, hneeded, rfl⟩ := isOptional_iff.mp hearly
    rcases hgone other hother with hkept | hlost
    · rw [hneeded] at hkept
      cases hkept
    · exact hlost hmem
  have hafter : ∀ message ∈ messages.erase (evidenceMessage item),
      isOptional earlier message = false :=
    fun message hmem => hnone message (List.mem_of_mem_erase hmem)
  have hcount := List.count_erase_self (a := evidenceMessage item) (l := messages)
  have hpos := List.count_pos_iff.mpr hleft
  have hround := rounds_succ (estimateTokens_erase hleft)
    (estimateTokens_singleton_pos (evidenceMessage item)) hlarge
  unfold copiesToGo excess
  rw [if_pos hoptional, if_pos hoptional, hbefore, essential_of_absent hnone,
    essential_of_absent hafter, hcount, hround]
  omega

end Round

end Copies

/-- The loop takes away as many copies of each message as have to go, one for each name that it
adds. -/
theorem fitEvidence_removed (evidence : List ContextEvidence) (capacity fuel : Nat)
    (messages : List ModelMessage) (truncated : List String) (hfuel : messages.length < fuel) :
    ∃ removed : List ModelMessage, removed.Subperm messages ∧
      (∀ message, removed.count message = copiesToGo evidence capacity messages message) ∧
      fitEvidence evidence capacity fuel messages truncated =
        (messages.diff removed, truncated ++ removed.map (nameOf evidence)) := by
  induction fuel generalizing messages truncated with
  | zero => exact absurd hfuel (Nat.not_lt_zero _)
  | succ fuel ih =>
      unfold fitEvidence
      split
      · rename_i hfits
        refine ⟨[], List.nil_subperm, fun message => ?_, by simp⟩
        rw [copiesToGo_fits hfits]
        rfl
      · rename_i hlarge
        split
        · rename_i item hfound
          obtain ⟨hrequired, hleft, earlier, later, hevidence, hgone⟩ := found_cases hfound
          have hshorter := List.length_erase_of_mem hleft
          have hpos := List.length_pos_of_mem hleft
          obtain ⟨removed, hsub, hcounts, hrest⟩ := ih
            (messages.erase (evidenceMessage item)) (truncated ++ [item.sourceRef]) (by omega)
          refine ⟨evidenceMessage item :: removed, ?_, ?_, ?_⟩
          · have hcons := (List.subperm_cons (evidenceMessage item)).mpr hsub
            exact hcons.trans (List.perm_cons_erase hleft).symm.subperm
          · intro message
            rw [List.count_cons, hcounts, hevidence]
            by_cases hsame : evidenceMessage item = message
            · subst hsame
              rw [copiesToGo_erase_self hgone hrequired hleft (Nat.lt_of_not_le hlarge)]
              simp
            · rw [copiesToGo_erase_other hgone hrequired hsame]
              simp [hsame]
          · rw [hrest, List.diff_cons, List.map_cons, nameOf_found hfound, List.append_assoc]
            rfl
        · rename_i hnone
          refine ⟨[], List.nil_subperm, fun message => ?_, by simp⟩
          by_cases hoptional : isOptional evidence message = true
          · rw [copiesToGo_absent (absent_of_none hnone hoptional)]
            rfl
          · unfold copiesToGo
            rw [if_neg hoptional]
            rfl

/-! ### At most one message goes in part -/

section Part

variable {evidence : List ContextEvidence} {capacity : Nat} {messages : List ModelMessage}
  {first second : ModelMessage}

theorem isOptional_cons (item : ContextEvidence) (rest : List ContextEvidence)
    (message : ModelMessage) : isOptional (item :: rest) message =
      ((!item.required && evidenceMessage item = message) || isOptional rest message) := rfl

theorem itemsBefore_cons (item : ContextEvidence) (rest : List ContextEvidence)
    (message : ModelMessage) : itemsBefore (item :: rest) message =
      if !item.required && evidenceMessage item = message then []
      else item :: itemsBefore rest message := by
  unfold itemsBefore
  rw [List.takeWhile_cons]
  cases item.required <;> by_cases evidenceMessage item = message <;> simp_all

/-- Of two optional messages one comes first. -/
theorem itemsBefore_total (hfirst : isOptional evidence first = true)
    (hsecond : isOptional evidence second = true) (hne : first ≠ second) :
    isOptional (itemsBefore evidence second) first = true ∨
      isOptional (itemsBefore evidence first) second = true := by
  induction evidence with
  | nil => cases hfirst
  | cons item rest ih =>
      rw [isOptional_cons] at hfirst hsecond
      rw [itemsBefore_cons, itemsBefore_cons]
      cases hownFirst : !item.required && evidenceMessage item = first with
      | true =>
          have hother : (!item.required && evidenceMessage item = second) = false := by
            have hsame := (Bool.and_eq_true_iff.mp hownFirst).2
            simp [of_decide_eq_true hsame, hne]
          simp [hother, isOptional_cons, hownFirst]
      | false =>
          cases hownSecond : !item.required && evidenceMessage item = second with
          | true => simp [isOptional_cons, hownSecond]
          | false =>
              rw [hownFirst, Bool.false_or] at hfirst
              rw [hownSecond, Bool.false_or] at hsecond
              simpa [isOptional_cons, hownFirst, hownSecond] using ih hfirst hsecond

/-- The items before the first message come before the second one. -/
theorem itemsBefore_subset (hbefore : isOptional (itemsBefore evidence second) first = true) :
    itemsBefore evidence first ⊆ itemsBefore evidence second := by
  induction evidence with
  | nil => exact List.nil_subset _
  | cons item rest ih =>
      rw [itemsBefore_cons] at hbefore ⊢
      split
      · exact List.nil_subset _
      · rename_i hother
        rw [itemsBefore_cons]
        split at hbefore
        · cases hbefore
        · rename_i hown
          rw [if_neg hown]
          rw [isOptional_cons, Bool.eq_false_iff.mpr hother, Bool.false_or] at hbefore
          exact List.cons_subset_cons item (ih hbefore)

theorem isOptional_before (evidence : List ContextEvidence) (message : ModelMessage) :
    isOptional (itemsBefore evidence message) message = false := by
  rw [Bool.eq_false_iff]
  intro hoptional
  obtain ⟨item, hitem, hrequired, hsame⟩ := isOptional_iff.mp hoptional
  unfold itemsBefore at hitem
  have hpasses := List.all_eq_true.mp List.all_takeWhile item hitem
  simp [hrequired, hsame] at hpasses

theorem isOptional_subset {some all : List ContextEvidence} (hsub : some ⊆ all)
    {message : ModelMessage} (hoptional : isOptional some message = true) :
    isOptional all message = true := by
  obtain ⟨item, hitem, hrest⟩ := isOptional_iff.mp hoptional
  exact isOptional_iff.mpr ⟨item, hsub hitem, hrest⟩

theorem estimateTokens_split (messages : List ModelMessage) (message : ModelMessage) :
    estimateTokens messages = estimateTokens (messages.filter fun other => other ≠ message) +
      messages.count message * estimateTokens [message] := by
  induction messages with
  | nil => simp [estimateTokens]
  | cons head rest ih =>
      have hhead : estimateTokens (head :: rest) = estimateTokens [head] + estimateTokens rest :=
        estimateTokens_append [head] rest
      rw [hhead, ih, List.count_cons]
      by_cases hsame : head = message
      · subst hsame
        rw [List.filter_cons_of_neg (by simp), beq_self_eq_true, if_pos rfl, Nat.succ_mul]
        omega
      · rw [List.filter_cons_of_pos (by simpa using hsame), if_neg (by simpa using hsame),
          Nat.add_zero]
        have htail := estimateTokens_append [head] (rest.filter fun other => other ≠ message)
        rw [List.singleton_append] at htail
        rw [htail]
        omega

/-- Where not all copies of a message go, the rest fits, and no copy of a later message goes. -/
theorem copiesToGo_later (hfirst : isOptional evidence first = true)
    (hbefore : isOptional (itemsBefore evidence second) first = true)
    (hpart : copiesToGo evidence capacity messages first < messages.count first) :
    copiesToGo evidence capacity messages second = 0 := by
  have hcost := estimateTokens_singleton_pos first
  have hexcess : excess evidence capacity messages first ≤
      messages.count first * estimateTokens [first] := by
    unfold copiesToGo at hpart
    rw [if_pos hfirst] at hpart
    have hrounds := Nat.lt_of_not_le fun hall => absurd (min_eq_left hall) (Nat.ne_of_lt hpart)
    have hproduct := (Nat.div_lt_iff_lt_mul hcost).mp hrounds
    omega
  have hsplit := estimateTokens_split (essential (itemsBefore evidence first) messages) first
  have hcount : (essential (itemsBefore evidence first) messages).count first =
      messages.count first := by
    unfold essential
    rw [List.count_filter]
    simp [isOptional_before]
  have hrest : (essential (itemsBefore evidence second) messages).Sublist
      ((essential (itemsBefore evidence first) messages).filter fun other => other ≠ first) := by
    unfold essential
    rw [List.filter_filter]
    refine List.monotone_filter_right messages fun other hother => ?_
    simp only [Bool.not_eq_true', Bool.and_eq_true, decide_eq_true_eq] at hother ⊢
    constructor
    · rintro rfl
      rw [hbefore] at hother
      cases hother
    · rw [Bool.eq_false_iff] at hother ⊢
      exact fun hearly => hother (isOptional_subset (itemsBefore_subset hbefore) hearly)
  have hless := estimateTokens_sublist hrest
  apply copiesToGo_of_fits
  unfold excess at hexcess
  rw [hcount] at hsplit
  omega

theorem optional_of_copies (hgoes : copiesToGo evidence capacity messages first ≠ 0) :
    isOptional evidence first = true := by
  unfold copiesToGo at hgoes
  split at hgoes
  · assumption
  · exact absurd rfl hgoes

/-- At most one message goes, but not with all its copies. -/
theorem copiesToGo_part (hfirst : copiesToGo evidence capacity messages first ≠ 0)
    (hsecond : copiesToGo evidence capacity messages second ≠ 0)
    (hpartFirst : copiesToGo evidence capacity messages first < messages.count first)
    (hpartSecond : copiesToGo evidence capacity messages second < messages.count second) :
    first = second := by
  by_contra hne
  have hoptionalFirst := optional_of_copies hfirst
  have hoptionalSecond := optional_of_copies hsecond
  rcases itemsBefore_total hoptionalFirst hoptionalSecond hne with hbefore | hbefore
  · exact hsecond (copiesToGo_later hoptionalFirst hbefore hpartFirst)
  · exact hfirst (copiesToGo_later hoptionalSecond hbefore hpartSecond)

end Part

end ContextEngine

end Codex2Lark
