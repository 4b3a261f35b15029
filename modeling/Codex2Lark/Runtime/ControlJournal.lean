import Codex2Lark.Runtime.Harness

/-!
The controls of a task and the journal of its run. `Delivers` says that the user
messages of a journal are exactly the steering and follow-up controls whose
identifiers count as applied, in their order; a poll of the inbox keeps it.
-/

namespace Codex2Lark

open Lib

/-- The kinds that become a message; the other two cancel the run. -/
def RunControlKind.isUpdate : RunControlKind → Bool
  | .steer | .followUp => true
  | .interrupt | .cancel => false

namespace RuntimeStore

/-- `controlLe` is the lexicographic order of `(created_at_ms, control_id)`. -/
theorem controlLe_iff (a b : ControlRow) : controlLe a b = true ↔
    a.createdAtMs < b.createdAtMs ∨
      a.createdAtMs = b.createdAtMs ∧ a.controlId ≤ b.controlId := by
  unfold controlLe
  by_cases hsame : a.createdAtMs = b.createdAtMs
  · simp [hsame]
  · simp [hsame]

instance : Std.Total (fun a b : ControlRow => controlLe a b = true) where
  total a b := by
    rw [controlLe_iff, controlLe_iff]
    rcases lt_trichotomy a.createdAtMs b.createdAtMs with hlt | heq | hgt
    · exact Or.inl (Or.inl hlt)
    · rcases String.le_total a.controlId b.controlId with hid | hid
      · exact Or.inl (Or.inr ⟨heq, hid⟩)
      · exact Or.inr (Or.inr ⟨heq.symm, hid⟩)
    · exact Or.inr (Or.inl hgt)

instance : IsTrans ControlRow (fun a b => controlLe a b = true) where
  trans a b c hab hbc := by
    rw [controlLe_iff] at hab hbc ⊢
    rcases hab with hab | ⟨hab, hida⟩ <;> rcases hbc with hbc | ⟨hbc, hidb⟩
    · exact Or.inl (hab.trans hbc)
    · exact Or.inl (hbc ▸ hab)
    · exact Or.inl (hab ▸ hbc)
    · exact Or.inr ⟨hab.trans hbc, String.le_trans hida hidb⟩

theorem mem_pendingControls {taskId : String} {db : Database} {control : ControlRow} :
    control ∈ pendingControls taskId db ↔
      control ∈ db.controls ∧ control.targetTaskId = taskId ∧ control.state = .pending := by
  simp [pendingControls]

theorem pendingControls_sorted (taskId : String) (db : Database) :
    (pendingControls taskId db).Pairwise fun a b => controlLe a b = true :=
  List.pairwise_insertionSort _ _

end RuntimeStore

/-- `a` is delivered before `b`. -/
def controlLt (a b : ControlRow) : Prop :=
  RuntimeStore.controlLe a b = true ∧ a.controlId ≠ b.controlId

/-- A steering or follow-up control of the task. -/
def ControlRow.IsUpdateOf (taskId : String) (control : ControlRow) : Prop :=
  control.targetTaskId = taskId ∧ control.kind.isUpdate = true

def userMessages (journal : List ModelMessage) : List ModelMessage :=
  journal.filter fun message => message.role = .user

/-- The journal delivers exactly the updates `cs`: those whose identifiers are
applied, each once and in order. What is still pending comes later. -/
structure Delivers (taskId : String) (controls : List ControlRow) (journal : List ModelMessage)
    (applied : List String) (cs : List ControlRow) : Prop where
  rows : ∀ c ∈ cs, c ∈ controls ∧ c.IsUpdateOf taskId
  ordered : cs.Pairwise controlLt
  messages : userMessages journal = cs.map AgentHarness.controlMessage
  exact : ∀ c ∈ controls, c.IsUpdateOf taskId → (c.controlId ∈ applied ↔ c ∈ cs)
  later : ∀ c ∈ controls, c.IsUpdateOf taskId → c.state = .pending → c.controlId ∉ applied →
    ∀ d ∈ cs, controlLt d c
  known : ∀ id ∈ applied, ∃ c ∈ controls, c.controlId = id

def Delivered (taskId : String) (controls : List ControlRow) (journal : List ModelMessage)
    (applied : List String) : Prop :=
  ∃ cs, Delivers taskId controls journal applied cs

/-- Every update that is applied in the table has its identifier in the list. -/
def AppliedHeld (taskId : String) (controls : List ControlRow) (applied : List String) : Prop :=
  ∀ c ∈ controls, c.IsUpdateOf taskId → c.state = .applied → c.controlId ∈ applied

theorem delivered_nil (taskId : String) (controls : List ControlRow) :
    Delivered taskId controls [] [] := by
  refine ⟨[], ?_, List.Pairwise.nil, rfl, ?_, ?_, ?_⟩ <;> simp

/-- Only the order and the membership of the identifiers are not observed. -/
theorem Delivered.of_mem_iff {taskId : String} {controls : List ControlRow}
    {journal other : List ModelMessage} {applied ids : List String}
    (hdelivered : Delivered taskId controls journal applied)
    (huser : userMessages other = userMessages journal) (hids : ∀ id, id ∈ ids ↔ id ∈ applied) :
    Delivered taskId controls other ids := by
  obtain ⟨cs, hcs⟩ := hdelivered
  refine ⟨cs, hcs.rows, hcs.ordered, huser.trans hcs.messages, ?_, ?_, ?_⟩
  · intro c hmem hupdate
    rw [hids]
    exact hcs.exact c hmem hupdate
  · intro c hmem hupdate hpending hnew
    rw [hids] at hnew
    exact hcs.later c hmem hupdate hpending hnew
  · intro id hmem
    exact hcs.known id ((hids id).mp hmem)

/-! ### How the table of controls evolves -/

/-- Rows keep what identifies and orders them, none becomes pending again, and of
the task only the rows in `held` become applied. -/
structure RewritesBy (taskId : String) (held : List String) (f : ControlRow → ControlRow) :
    Prop where
  controlId : ∀ c, (f c).controlId = c.controlId
  createdAtMs : ∀ c, (f c).createdAtMs = c.createdAtMs
  targetTaskId : ∀ c, (f c).targetTaskId = c.targetTaskId
  kind : ∀ c, (f c).kind = c.kind
  text : ∀ c, (f c).text = c.text
  pending : ∀ c, (f c).state = .pending → c.state = .pending
  applied : ∀ c, (f c).state = .applied → c.targetTaskId = taskId →
    c.state = .applied ∨ c.controlId ∈ held

def Rewrites (taskId : String) (held : List String) (before after : List ControlRow) : Prop :=
  ∃ f, RewritesBy taskId held f ∧ after = before.map f

namespace RewritesBy

variable {taskId : String} {held : List String} {f : ControlRow → ControlRow}

theorem isUpdateOf (hf : RewritesBy taskId held f) (other : String) (c : ControlRow) :
    (f c).IsUpdateOf other ↔ c.IsUpdateOf other := by
  unfold ControlRow.IsUpdateOf
  rw [hf.targetTaskId, hf.kind]

theorem controlLt_iff (hf : RewritesBy taskId held f) (a b : ControlRow) :
    controlLt (f a) (f b) ↔ controlLt a b := by
  unfold controlLt
  rw [RuntimeStore.controlLe_iff, RuntimeStore.controlLe_iff, hf.createdAtMs, hf.createdAtMs,
    hf.controlId, hf.controlId]

theorem controlMessage (hf : RewritesBy taskId held f) (c : ControlRow) :
    AgentHarness.controlMessage (f c) = AgentHarness.controlMessage c := by
  unfold AgentHarness.controlMessage
  rw [hf.kind, hf.text]

end RewritesBy

namespace Rewrites

variable {taskId : String} {held : List String} {before after : List ControlRow}

theorem of_eq (hsame : after = before) : Rewrites taskId held before after := by
  refine ⟨id, ?_, by simpa using hsame⟩
  constructor <;> intros <;> simp_all

theorem trans {last : List ControlRow} (hfirst : Rewrites taskId held before after)
    (hsecond : Rewrites taskId held after last) : Rewrites taskId held before last := by
  obtain ⟨f, hf, rfl⟩ := hfirst
  obtain ⟨g, hg, rfl⟩ := hsecond
  refine ⟨g ∘ f, ?_, by simp⟩
  constructor
  · intro c
    exact (hg.controlId _).trans (hf.controlId c)
  · intro c
    exact (hg.createdAtMs _).trans (hf.createdAtMs c)
  · intro c
    exact (hg.targetTaskId _).trans (hf.targetTaskId c)
  · intro c
    exact (hg.kind _).trans (hf.kind c)
  · intro c
    exact (hg.text _).trans (hf.text c)
  · intro c hpending
    exact hf.pending c (hg.pending _ hpending)
  · intro c happlied htask
    rcases hg.applied _ happlied ((hf.targetTaskId c).trans htask) with hstate | hheld
    · exact hf.applied c hstate htask
    · rw [hf.controlId] at hheld
      exact Or.inr hheld

/-- An update of the state column. -/
theorem of_update {cond : ControlRow → Bool} {state : ControlState} {at? : Option Int}
    (hopen : state ≠ .pending)
    (happlied : state = .applied → ∀ c, cond c = true → c.targetTaskId = taskId →
      c.controlId ∈ held) :
    Rewrites taskId held before
      (Table.update cond (fun c => { c with state, appliedAtMs := at? }) before) := by
  refine ⟨fun c => if cond c then { c with state, appliedAtMs := at? } else c, ?_, rfl⟩
  constructor <;> intro c <;> cases hcond : cond c
  all_goals simp only [Bool.false_eq_true, if_false, if_true]
  · exact id
  · intro hpending
    exact absurd hpending hopen
  · intro hstate _
    exact Or.inl hstate
  · intro hstate htask
    exact Or.inr (happlied hstate c hcond htask)

theorem ids (hrewrites : Rewrites taskId held before after) :
    after.map ControlRow.controlId = before.map ControlRow.controlId := by
  obtain ⟨f, hf, rfl⟩ := hrewrites
  rw [List.map_map]
  exact List.map_congr_left fun c _ => hf.controlId c

end Rewrites

variable {taskId : String} {held applied : List String} {before after : List ControlRow}
  {journal : List ModelMessage}

theorem Delivered.rewrites (hdelivered : Delivered taskId before journal applied)
    (hrewrites : Rewrites taskId held before after) :
    Delivered taskId after journal applied := by
  obtain ⟨cs, hcs⟩ := hdelivered
  obtain ⟨f, hf, rfl⟩ := hrewrites
  refine ⟨cs.map f, ?_, ?_, ?_, ?_, ?_, ?_⟩
  · intro c hmem
    obtain ⟨old, hold, rfl⟩ := List.mem_map.mp hmem
    obtain ⟨hrow, hupdate⟩ := hcs.rows old hold
    exact ⟨List.mem_map_of_mem hrow, (hf.isUpdateOf taskId old).mpr hupdate⟩
  · rw [List.pairwise_map]
    exact hcs.ordered.imp fun {a b} hlt => (hf.controlLt_iff a b).mpr hlt
  · rw [hcs.messages, List.map_map]
    exact List.map_congr_left fun c _ => (hf.controlMessage c).symm
  · intro c hmem hupdate
    obtain ⟨old, hold, rfl⟩ := List.mem_map.mp hmem
    have hexact := hcs.exact old hold ((hf.isUpdateOf taskId old).mp hupdate)
    rw [hf.controlId]
    constructor
    · intro hid
      exact List.mem_map_of_mem (hexact.mp hid)
    · intro hmapped
      obtain ⟨other, hother, hsame⟩ := List.mem_map.mp hmapped
      obtain ⟨hrow, hupdate'⟩ := hcs.rows other hother
      have hid := (hcs.exact other hrow hupdate').mpr hother
      have hids := congrArg ControlRow.controlId hsame
      rw [hf.controlId, hf.controlId] at hids
      exact hids ▸ hid
  · intro c hmem hupdate hpending hnew d hd
    obtain ⟨old, hold, rfl⟩ := List.mem_map.mp hmem
    obtain ⟨first, hfirst, rfl⟩ := List.mem_map.mp hd
    rw [hf.controlId] at hnew
    rw [hf.controlLt_iff]
    exact hcs.later old hold ((hf.isUpdateOf taskId old).mp hupdate) (hf.pending old hpending)
      hnew first hfirst
  · intro id hmem
    obtain ⟨c, hc, hid⟩ := hcs.known id hmem
    exact ⟨f c, List.mem_map_of_mem hc, (hf.controlId c).trans hid⟩

theorem AppliedHeld.rewrites (happlied : AppliedHeld taskId before applied)
    (hrewrites : Rewrites taskId held before after) (hheld : ∀ id ∈ held, id ∈ applied) :
    AppliedHeld taskId after applied := by
  obtain ⟨f, hf, rfl⟩ := hrewrites
  intro c hmem hupdate hstate
  obtain ⟨old, hold, rfl⟩ := List.mem_map.mp hmem
  have hupdate' := (hf.isUpdateOf taskId old).mp hupdate
  rw [hf.controlId]
  rcases hf.applied old hstate hupdate'.1 with hbefore | hnew
  · exact happlied old hold hupdate' hbefore
  · exact hheld _ hnew

/-- A new pending row that comes after everything delivered. -/
theorem Delivered.append {row : ControlRow} (hdelivered : Delivered taskId before journal applied)
    (hfresh : ∀ c ∈ before, c.controlId ≠ row.controlId)
    (hlast : row.IsUpdateOf taskId → ∀ c ∈ before, c.IsUpdateOf taskId → c.controlId ∈ applied →
      controlLt c row) :
    Delivered taskId (before ++ [row]) journal applied := by
  obtain ⟨cs, hcs⟩ := hdelivered
  have hnotapplied : row.controlId ∉ applied := by
    intro hmem
    obtain ⟨c, hc, hid⟩ := hcs.known _ hmem
    exact hfresh c hc hid
  have hnotdelivered : row ∉ cs := by
    intro hmem
    exact hfresh row (hcs.rows row hmem).1 rfl
  refine ⟨cs, ?_, hcs.ordered, hcs.messages, ?_, ?_, ?_⟩
  · intro c hmem
    exact ⟨List.mem_append_left _ (hcs.rows c hmem).1, (hcs.rows c hmem).2⟩
  · intro c hmem hupdate
    rcases List.mem_append.mp hmem with hold | hnew
    · exact hcs.exact c hold hupdate
    · obtain rfl := List.mem_singleton.mp hnew
      exact iff_of_false hnotapplied hnotdelivered
  · intro c hmem hupdate hpending hnew d hd
    rcases List.mem_append.mp hmem with hold | hrow
    · exact hcs.later c hold hupdate hpending hnew d hd
    · obtain rfl := List.mem_singleton.mp hrow
      obtain ⟨hdrow, hdupdate⟩ := hcs.rows d hd
      exact hlast hupdate d hdrow hdupdate ((hcs.exact d hdrow hdupdate).mpr hd)
  · intro id hmem
    obtain ⟨c, hc, hid⟩ := hcs.known id hmem
    exact ⟨c, List.mem_append_left _ hc, hid⟩

theorem AppliedHeld.append {row : ControlRow} (happlied : AppliedHeld taskId before applied)
    (hpending : row.state = .pending) : AppliedHeld taskId (before ++ [row]) applied := by
  intro c hmem hupdate hstate
  rcases List.mem_append.mp hmem with hold | hnew
  · exact happlied c hold hupdate hstate
  · obtain rfl := List.mem_singleton.mp hnew
    rw [hpending] at hstate
    cases hstate

theorem AppliedHeld.mono {more : List String} (happlied : AppliedHeld taskId before applied)
    (hmore : ∀ id ∈ applied, id ∈ more) : AppliedHeld taskId before more := by
  intro c hmem hupdate hstate
  exact hmore _ (happlied c hmem hupdate hstate)

/-! ### A poll of the inbox -/

namespace AgentHarness

theorem applyControl_appliedControlIds (l : Locals) (control : ControlRow) :
    (applyControl l control).appliedControlIds =
      if control.controlId ∈ l.appliedControlIds then l.appliedControlIds
      else l.appliedControlIds ++ [control.controlId] := by
  unfold applyControl
  by_cases happlied : control.controlId ∈ l.appliedControlIds
  · simp only [List.contains_iff_mem, happlied, if_true]
    split <;> rfl
  · simp only [List.contains_iff_mem, happlied, if_false]
    split <;> rfl

theorem applyControl_journal (l : Locals) (control : ControlRow) :
    (applyControl l control).journal =
      if control.controlId ∉ l.appliedControlIds ∧ control.kind.isUpdate = true then
        l.journal ++ [controlMessage control]
      else l.journal := by
  unfold applyControl
  by_cases happlied : control.controlId ∈ l.appliedControlIds
  · simp only [List.contains_iff_mem, happlied, if_true, not_true_eq_false, false_and, if_false]
    split <;> rfl
  · simp only [List.contains_iff_mem, happlied, if_false, not_false_eq_true, true_and]
    cases control.kind <;> rfl

theorem applyControl_pendingAckIds {l : Locals} {control : ControlRow} {id : String}
    (hmem : id ∈ (applyControl l control).pendingAckIds) :
    id ∈ l.pendingAckIds ∨ id = control.controlId := by
  unfold applyControl at hmem
  split at hmem
  · split at hmem
    · exact Or.inl hmem
    · simpa using hmem
  · dsimp only at hmem
    split at hmem <;> simpa [cancel] using hmem

theorem mem_applyControl {l : Locals} {control : ControlRow} {id : String} :
    id ∈ (applyControl l control).appliedControlIds ↔
      id ∈ l.appliedControlIds ∨ id = control.controlId := by
  rw [applyControl_appliedControlIds]
  split
  · constructor
    · exact Or.inl
    · rintro (hmem | rfl)
      · exact hmem
      · assumption
  · simp

end AgentHarness

open AgentHarness

/-- The identifier determines the row. -/
theorem control_eq {controls : List ControlRow}
    (hunique : (controls.map ControlRow.controlId).Nodup) {a b : ControlRow} (ha : a ∈ controls)
    (hb : b ∈ controls) (hid : a.controlId = b.controlId) : a = b :=
  List.inj_on_of_nodup_map hunique ha hb hid

/-- One control of the poll. `rest` holds the controls that are polled after it. -/
theorem Delivered.applyControl {controls : List ControlRow} {l : Locals} {control : ControlRow}
    {rest : List ControlRow} (hunique : (controls.map ControlRow.controlId).Nodup)
    (hcontrol : control ∈ controls) (htask : control.targetTaskId = taskId)
    (hpending : control.state = .pending)
    (hsorted : ∀ other ∈ rest, RuntimeStore.controlLe control other = true)
    (hremaining : ∀ c ∈ controls, c.IsUpdateOf taskId → c.state = .pending →
      c.controlId ∉ l.appliedControlIds → c ∈ control :: rest)
    (hdelivered : Delivered taskId controls l.journal l.appliedControlIds) :
    Delivered taskId controls (AgentHarness.applyControl l control).journal
      (AgentHarness.applyControl l control).appliedControlIds := by
  obtain ⟨cs, hcs⟩ := hdelivered
  rw [applyControl_journal, applyControl_appliedControlIds]
  by_cases happlied : control.controlId ∈ l.appliedControlIds
  · simp only [happlied, not_true_eq_false, false_and, if_false, if_true]
    exact ⟨cs, hcs⟩
  · have hknown : ∀ id ∈ l.appliedControlIds ++ [control.controlId],
        ∃ c ∈ controls, c.controlId = id := by
      intro id hmem
      rcases List.mem_append.mp hmem with hold | hnew
      · exact hcs.known id hold
      · obtain rfl := List.mem_singleton.mp hnew
        exact ⟨control, hcontrol, rfl⟩
    have hlater : ∀ c ∈ controls, c.IsUpdateOf taskId → c.state = .pending →
        c.controlId ∉ l.appliedControlIds ++ [control.controlId] →
          (∀ d ∈ cs, controlLt d c) ∧ controlLt control c := by
      intro c hmem hupdate hstate hnew
      have hnew' : c.controlId ∉ l.appliedControlIds ∧ c.controlId ≠ control.controlId := by
        simpa using hnew
      refine ⟨hcs.later c hmem hupdate hstate hnew'.1, ?_, fun hsame => hnew'.2 hsame.symm⟩
      rcases List.mem_cons.mp (hremaining c hmem hupdate hstate hnew'.1) with rfl | hrest
      · exact absurd rfl hnew'.2
      · exact hsorted c hrest
    by_cases hkind : control.kind.isUpdate = true
    · have hupdate : control.IsUpdateOf taskId := ⟨htask, hkind⟩
      simp only [happlied, not_false_eq_true, hkind, and_self, if_true, if_false]
      refine ⟨cs ++ [control], ?_, ?_, ?_, ?_, ?_, hknown⟩
      · intro c hmem
        rcases List.mem_append.mp hmem with hold | hnew
        · exact hcs.rows c hold
        · obtain rfl := List.mem_singleton.mp hnew
          exact ⟨hcontrol, hupdate⟩
      · rw [List.pairwise_append]
        refine ⟨hcs.ordered, List.pairwise_singleton _ _, ?_⟩
        intro d hd c hc
        obtain rfl := List.mem_singleton.mp hc
        exact hcs.later c hcontrol hupdate hpending happlied d hd
      · simp only [userMessages, List.filter_append, List.map_append]
        rw [← hcs.messages]
        rfl
      · intro c hmem hcupdate
        rw [List.mem_append, List.mem_append, hcs.exact c hmem hcupdate, List.mem_singleton,
          List.mem_singleton]
        constructor
        · rintro (hold | hid)
          · exact Or.inl hold
          · exact Or.inr (control_eq hunique hmem hcontrol hid)
        · rintro (hold | rfl)
          · exact Or.inl hold
          · exact Or.inr rfl
      · intro c hmem hcupdate hstate hnew d hd
        obtain ⟨hbefore, hcontrolLt⟩ := hlater c hmem hcupdate hstate hnew
        rcases List.mem_append.mp hd with hold | hlast
        · exact hbefore d hold
        · obtain rfl := List.mem_singleton.mp hlast
          exact hcontrolLt
    · simp only [happlied, not_false_eq_true, hkind, and_false, if_false, Bool.false_eq_true]
      refine ⟨cs, hcs.rows, hcs.ordered, hcs.messages, ?_, ?_, hknown⟩
      · intro c hmem hcupdate
        rw [List.mem_append, hcs.exact c hmem hcupdate, List.mem_singleton]
        constructor
        · rintro (hold | hid)
          · exact hold
          · obtain rfl := control_eq hunique hmem hcontrol hid
            exact absurd hcupdate.2 hkind
        · exact Or.inl
      · intro c hmem hcupdate hstate hnew
        exact (hlater c hmem hcupdate hstate hnew).1

/-- A whole poll: the pending controls of the task, in their order. -/
theorem Delivered.applyControls {controls rows : List ControlRow} {l : Locals}
    (hunique : (controls.map ControlRow.controlId).Nodup)
    (hrows : ∀ c ∈ rows, c ∈ controls ∧ c.targetTaskId = taskId ∧ c.state = .pending)
    (hsorted : rows.Pairwise fun a b => RuntimeStore.controlLe a b = true)
    (hremaining : ∀ c ∈ controls, c.IsUpdateOf taskId → c.state = .pending →
      c.controlId ∉ l.appliedControlIds → c ∈ rows)
    (hdelivered : Delivered taskId controls l.journal l.appliedControlIds) :
    Delivered taskId controls (AgentHarness.applyControls l rows).journal
      (AgentHarness.applyControls l rows).appliedControlIds := by
  induction rows generalizing l with
  | nil => exact hdelivered
  | cons control rest ih =>
      obtain ⟨hcontrol, htask, hpending⟩ := hrows control List.mem_cons_self
      obtain ⟨hfirst, hrest⟩ := List.pairwise_cons.mp hsorted
      have hnext := hdelivered.applyControl hunique hcontrol htask hpending hfirst hremaining
      refine ih (fun c hmem => hrows c (List.mem_cons_of_mem _ hmem)) hrest ?_ hnext
      intro c hmem hupdate hstate hnew
      rw [mem_applyControl, not_or] at hnew
      rcases List.mem_cons.mp (hremaining c hmem hupdate hstate hnew.1) with rfl | hlater
      · exact absurd rfl hnew.2
      · exact hlater

theorem mem_applyControls {l : Locals} {rows : List ControlRow} {id : String}
    (hmem : id ∈ l.appliedControlIds) :
    id ∈ (AgentHarness.applyControls l rows).appliedControlIds := by
  unfold AgentHarness.applyControls
  induction rows generalizing l with
  | nil => exact hmem
  | cons control rest ih => exact ih (mem_applyControl.mpr (Or.inl hmem))

/-- What waits for an acknowledgement is applied. -/
theorem applyControls_pendingAckIds {l : Locals} {rows : List ControlRow}
    (hack : ∀ id ∈ l.pendingAckIds, id ∈ l.appliedControlIds) :
    ∀ id ∈ (AgentHarness.applyControls l rows).pendingAckIds,
      id ∈ (AgentHarness.applyControls l rows).appliedControlIds := by
  unfold AgentHarness.applyControls
  induction rows generalizing l with
  | nil => exact hack
  | cons control rest ih =>
      apply ih
      intro id hmem
      rcases applyControl_pendingAckIds hmem with hold | rfl
      · exact mem_applyControl.mpr (Or.inl (hack id hold))
      · exact mem_applyControl.mpr (Or.inr rfl)

/-- Redaction touches tool messages only. -/
theorem userMessages_checkpoint (nonpersistable : List String) (journal : List ModelMessage) :
    userMessages (journal.map (checkpointMessage nonpersistable)) = userMessages journal := by
  unfold userMessages
  induction journal with
  | nil => rfl
  | cons message rest ih =>
      rw [List.map_cons, List.filter_cons, List.filter_cons, ih]
      unfold checkpointMessage
      by_cases hrole : message.role = .user
      · simp [hrole]
      · split <;> simp [hrole]

theorem userMessages_answer (journal : List ModelMessage) (response : ModelResponse) :
    userMessages (journal ++ [assistantMessage response]) = userMessages journal := by
  simp [userMessages, assistantMessage]

theorem userMessages_result (journal : List ModelMessage) (result : ToolResult) :
    userMessages (journal ++ [resultMessage result]) = userMessages journal := by
  simp [userMessages, resultMessage]

end Codex2Lark
