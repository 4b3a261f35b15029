import Codex2Lark.Storage.Migrations

/-!
Openings that stop between two statements. A statement with `IF NOT EXISTS` does nothing the second
time, so a script of such statements can be run again from any of its points; a script that begins
with `ALTER TABLE ... ADD COLUMN` fails once that column is there.
-/

namespace Codex2Lark

variable {db mid after final : SchemaDatabase} {statement other : Statement}
  {script : List Statement}

/-! ### One statement -/

/-- What a statement that succeeds has done. -/
theorem Statement.exec_cases (hok : statement.exec db = .ok after) :
    (∃ guard name columns, statement = .createTable guard name columns ∧
      (after = db ∧ db.hasTable name = true ∧ guard = .ifNotExists ∨
        after = { db with tables := db.tables ++ [⟨name, columns⟩] })) ∨
    (∃ table column, statement = .addColumn table column ∧ db.hasTable table = true ∧
      after = db.addColumn table column) ∨
    (∃ guard kind name table columns, statement = .createIndex guard kind name table columns ∧
      (after = db ∧ db.hasIndex name = true ∧ guard = .ifNotExists ∨
        (kind = .unique → db.rowsUnique table = true) ∧ db.hasIndex name = false ∧
          after = { db with indexes := db.indexes ++ [⟨name, table, columns, kind⟩] })) ∨
    (∃ table columns, statement = .update table columns ∧ after = db) ∨
    (statement = .insertSchedulerState ∧ after = { db with nextSequence := some 0 }) ∨
    (∃ version checksum, statement = .insertMigration version checksum ∧
      db.checksum? version = none ∧
      after = { db with migrations := db.migrations ++ [⟨version, checksum⟩] }) := by
  cases statement with
  | createTable guard name columns =>
      refine .inl ⟨guard, name, columns, rfl, ?_⟩
      unfold Statement.exec at hok
      dsimp only at hok
      split at hok
      · rename_i hthere
        cases guard with
        | always => cases hok
        | ifNotExists =>
            cases hok
            exact .inl ⟨rfl, hthere, rfl⟩
      · cases hok
        exact .inr rfl
  | addColumn table column =>
      refine .inr (.inl ⟨table, column, rfl, ?_⟩)
      unfold Statement.exec at hok
      dsimp only at hok
      split at hok
      · cases hok
      · rename_i hthere
        split at hok
        · cases hok
        · cases hok
          exact ⟨by simpa using hthere, rfl⟩
  | createIndex guard kind name table columns =>
      refine .inr (.inr (.inl ⟨guard, kind, name, table, columns, rfl, ?_⟩))
      unfold Statement.exec at hok
      dsimp only at hok
      split at hok
      · rename_i hthere
        cases guard with
        | always => cases hok
        | ifNotExists =>
            cases hok
            exact .inl ⟨rfl, hthere, rfl⟩
      · rename_i hmissing
        split at hok
        · cases hok
        · split at hok
          · cases hok
          · rename_i hunique
            cases hok
            refine .inr ⟨fun hkind => ?_, by simpa using hmissing, rfl⟩
            simpa [hkind] using hunique
  | update table columns =>
      refine .inr (.inr (.inr (.inl ⟨table, columns, rfl, ?_⟩)))
      unfold Statement.exec at hok
      dsimp only at hok
      split at hok
      · cases hok
        rfl
      · cases hok
  | insertSchedulerState =>
      refine .inr (.inr (.inr (.inr (.inl ⟨rfl, ?_⟩))))
      unfold Statement.exec at hok
      dsimp only at hok
      split at hok
      · cases hok
      · split at hok
        · cases hok
        · cases hok
          rfl
  | insertMigration version checksum =>
      refine .inr (.inr (.inr (.inr (.inr ⟨version, checksum, rfl, ?_⟩))))
      unfold Statement.exec at hok
      dsimp only at hok
      split at hok
      · cases hok
      · rename_i hmissing
        cases hok
        exact ⟨by simpa using hmissing, rfl⟩

namespace SchemaDatabase

/-- Nothing is dropped. -/
structure Grows (db after : SchemaDatabase) : Prop where
  table : ∀ name, db.hasTable name = true → after.hasTable name = true
  column : ∀ name column, db.hasColumn name column = true → after.hasColumn name column = true
  index : ∀ name, db.hasIndex name = true → after.hasIndex name = true
  checksum : ∀ version checksum, db.checksum? version = some checksum →
    after.checksum? version = some checksum
  mailbox : after.mailbox = db.mailbox

theorem Grows.refl (db : SchemaDatabase) : Grows db db :=
  ⟨fun _ h => h, fun _ _ h => h, fun _ h => h, fun _ _ h => h, rfl⟩

theorem Grows.trans (hfirst : Grows db mid) (hsecond : Grows mid after) : Grows db after :=
  ⟨fun name h => hsecond.table name (hfirst.table name h),
    fun name column h => hsecond.column name column (hfirst.column name column h),
    fun name h => hsecond.index name (hfirst.index name h),
    fun version checksum h => hsecond.checksum version checksum (hfirst.checksum version checksum h),
    hsecond.mailbox.trans hfirst.mailbox⟩

theorem hasTable_addColumn (name table column : String) :
    (db.addColumn table column).hasTable name = db.hasTable name := by
  unfold hasTable addColumn
  rw [List.any_map]
  congr 1
  funext def'
  by_cases htable : def'.name = table <;> simp [htable]

theorem hasColumn_addColumn {name column : String} (table new : String)
    (hthere : db.hasColumn name column = true) :
    (db.addColumn table new).hasColumn name column = true := by
  obtain ⟨def', hmem, hhas⟩ := List.any_eq_true.mp hthere
  obtain ⟨hname, hcolumn⟩ := Bool.and_eq_true_iff.mp hhas
  refine List.any_eq_true.mpr ⟨_, List.mem_map_of_mem hmem, ?_⟩
  split
  · simp only [Bool.and_eq_true]
    exact ⟨hname, by simpa using Or.inl (List.contains_iff_mem.mp hcolumn)⟩
  · exact hhas

theorem hasColumn_added {table : String} (hthere : db.hasTable table = true) (column : String) :
    (db.addColumn table column).hasColumn table column = true := by
  obtain ⟨def', hmem, hname⟩ := List.any_eq_true.mp hthere
  refine List.any_eq_true.mpr ⟨_, List.mem_map_of_mem hmem, ?_⟩
  rw [if_pos (of_decide_eq_true hname)]
  simpa using of_decide_eq_true hname

end SchemaDatabase

open SchemaDatabase

theorem Statement.exec_grows (hok : statement.exec db = .ok after) : Grows db after := by
  rcases exec_cases hok with ⟨_, name, columns, _, ⟨rfl, _⟩ | rfl⟩ |
    ⟨table, column, _, _, rfl⟩ |
    ⟨_, kind, name, table, columns, _, ⟨rfl, _⟩ | ⟨_, _, rfl⟩⟩ | ⟨_, _, _, rfl⟩ | ⟨_, rfl⟩ |
    ⟨version, checksum, _, _, rfl⟩
  · exact Grows.refl _
  · refine ⟨fun other hother => ?_, fun other column hother => ?_, fun _ h => h, fun _ _ h => h, rfl⟩
    · unfold hasTable at hother ⊢
      rw [List.any_append, hother, Bool.true_or]
    · unfold hasColumn at hother ⊢
      rw [List.any_append, hother, Bool.true_or]
  · refine ⟨fun other hother => ?_, fun other column' hother => ?_, fun _ h => h, fun _ _ h => h,
      rfl⟩
    · rw [hasTable_addColumn]
      exact hother
    · exact hasColumn_addColumn table column hother
  · exact Grows.refl _
  · refine ⟨fun _ h => h, fun _ _ h => h, fun other hother => ?_, fun _ _ h => h, rfl⟩
    unfold hasIndex at hother ⊢
    rw [List.any_append, hother, Bool.true_or]
  · exact Grows.refl _
  · exact ⟨fun _ h => h, fun _ _ h => h, fun _ h => h, fun _ _ h => h, rfl⟩
  · refine ⟨fun _ h => h, fun _ _ h => h, fun _ h => h, fun other found hother => ?_, rfl⟩
    unfold checksum? at hother ⊢
    obtain ⟨row, hrow, hfound⟩ := Option.map_eq_some_iff.mp hother
    rw [List.find?_append, hrow, Option.some_or, Option.map_some, hfound]

/-! ### Statements that can be repeated -/

namespace Statement

/-- The statement says `IF NOT EXISTS`. -/
def isGuarded : Statement → Bool
  | .createTable guard _ _ => guard = .ifNotExists
  | .createIndex guard _ _ _ _ => guard = .ifNotExists
  | _ => false

def isInsertMigration : Statement → Bool
  | .insertMigration _ _ => true
  | _ => false

/-- What the statement creates is there. -/
def Satisfied (db : SchemaDatabase) : Statement → Prop
  | .createTable _ name _ => db.hasTable name = true
  | .createIndex _ _ name _ _ => db.hasIndex name = true
  | _ => False

theorem Satisfied.grows (hsatisfied : Satisfied db statement) (hgrows : Grows db after) :
    Satisfied after statement := by
  cases statement with
  | createTable guard name columns => exact hgrows.table name hsatisfied
  | createIndex guard kind name table columns => exact hgrows.index name hsatisfied
  | _ => exact hsatisfied

theorem satisfied_of_exec (hguarded : statement.isGuarded = true)
    (hok : statement.exec db = .ok after) : Satisfied after statement := by
  rcases exec_cases hok with ⟨_, name, columns, rfl, ⟨rfl, hthere, _⟩ | rfl⟩ |
    ⟨_, _, rfl, _⟩ |
    ⟨_, kind, name, table, columns, rfl, ⟨rfl, hthere, _⟩ | ⟨_, _, rfl⟩⟩ | ⟨_, _, rfl, _⟩ |
    ⟨rfl, _⟩ | ⟨_, _, rfl, _⟩
  · exact hthere
  · unfold Satisfied hasTable
    simp
  · cases hguarded
  · exact hthere
  · unfold Satisfied hasIndex
    simp
  · cases hguarded
  · cases hguarded
  · cases hguarded

theorem exec_of_satisfied (hguarded : statement.isGuarded = true)
    (hsatisfied : Satisfied db statement) : statement.exec db = .ok db := by
  cases statement with
  | createTable guard name columns =>
      obtain rfl : guard = .ifNotExists := of_decide_eq_true hguarded
      exact if_pos hsatisfied
  | createIndex guard kind name table columns =>
      obtain rfl : guard = .ifNotExists := of_decide_eq_true hguarded
      exact if_pos hsatisfied
  | _ => cases hguarded

end Statement

open Statement

/-! ### Scripts -/

theorem runScript_append (first second : List Statement) (db : SchemaDatabase) :
    runScript (first ++ second) db = (runScript first db >>= runScript second) :=
  List.foldlM_append

theorem runScript_cons_ok : runScript (statement :: script) db = .ok after ↔
    ∃ mid, statement.exec db = .ok mid ∧ runScript script mid = .ok after :=
  PyError.bind_eq_ok

theorem runScript_append_ok {first second : List Statement} :
    runScript (first ++ second) db = .ok after ↔
      ∃ mid, runScript first db = .ok mid ∧ runScript second mid = .ok after := by
  rw [runScript_append]
  exact PyError.bind_eq_ok

theorem runScript_grows (hok : runScript script db = .ok after) : Grows db after := by
  induction script generalizing db with
  | nil =>
      cases hok
      exact Grows.refl _
  | cons statement script ih =>
      obtain ⟨mid, hstep, hrest⟩ := runScript_cons_ok.mp hok
      exact (exec_grows hstep).trans (ih hrest)

/-- Only one kind of statement writes `runtime_migrations`. -/
theorem runScript_migrations (hplain : ∀ statement ∈ script, statement.isInsertMigration = false)
    (hok : runScript script db = .ok after) : after.migrations = db.migrations := by
  induction script generalizing db with
  | nil =>
      cases hok
      rfl
  | cons statement script ih =>
      obtain ⟨mid, hstep, hrest⟩ := runScript_cons_ok.mp hok
      rw [ih (fun other hother => hplain other (List.mem_cons_of_mem _ hother)) hrest]
      rcases exec_cases hstep with ⟨_, _, _, _, ⟨rfl, _⟩ | rfl⟩ | ⟨_, _, _, _, rfl⟩ |
        ⟨_, _, _, _, _, _, ⟨rfl, _⟩ | ⟨_, _, rfl⟩⟩ | ⟨_, _, _, rfl⟩ | ⟨_, rfl⟩ | ⟨_, _, rfl, _⟩
      any_goals rfl
      exact Bool.noConfusion (hplain _ List.mem_cons_self)

theorem satisfied_of_runScript (hok : runScript script db = .ok after) :
    ∀ statement ∈ script, statement.isGuarded = true → Satisfied after statement := by
  induction script generalizing db with
  | nil => nofun
  | cons first script ih =>
      obtain ⟨mid, hstep, hrest⟩ := runScript_cons_ok.mp hok
      intro statement hmem hguarded
      rcases List.mem_cons.mp hmem with rfl | hmem
      · exact (satisfied_of_exec hguarded hstep).grows (runScript_grows hrest)
      · exact ih hrest statement hmem hguarded

theorem runScript_of_satisfied (hguarded : ∀ statement ∈ script, statement.isGuarded = true)
    (hsatisfied : ∀ statement ∈ script, Satisfied db statement) :
    runScript script db = .ok db := by
  induction script with
  | nil => rfl
  | cons statement script ih =>
      refine runScript_cons_ok.mpr ⟨db, ?_, ih ?_ ?_⟩
      · exact exec_of_satisfied (hguarded _ List.mem_cons_self)
          (hsatisfied _ List.mem_cons_self)
      · exact fun other hother => hguarded other (List.mem_cons_of_mem _ hother)
      · exact fun other hother => hsatisfied other (List.mem_cons_of_mem _ hother)

/-- A guarded script can be run again from any of its points. -/
theorem runScript_again (hguarded : ∀ statement ∈ script, statement.isGuarded = true) {n : Nat}
    (hcrash : runScript (script.take n) db = .ok mid) :
    runScript script mid = runScript script db := by
  have htaken : ∀ statement ∈ script.take n, statement.isGuarded = true :=
    fun statement hmem => hguarded statement (List.mem_of_mem_take hmem)
  have hagain := runScript_of_satisfied htaken fun statement hmem =>
    satisfied_of_runScript hcrash statement hmem (htaken statement hmem)
  conv_lhs => rw [← List.take_append_drop n script, runScript_append, hagain]
  conv_rhs => rw [← List.take_append_drop n script, runScript_append, hcrash]

/-- A script that begins with a new column cannot. -/
theorem runScript_fails_again {table column : String} {n : Nat}
    (hcrash : runScript ((.addColumn table column :: script).take (n + 1)) db = .ok mid) :
    runScript (.addColumn table column :: script) mid ≠ .ok after := by
  intro hagain
  rw [List.take_succ_cons] at hcrash
  obtain ⟨between, hstep, hrest⟩ := runScript_cons_ok.mp hcrash
  obtain ⟨_, hsecond, _⟩ := runScript_cons_ok.mp hagain
  have hadded : between.hasColumn table column = true := by
    rcases exec_cases hstep with ⟨_, _, _, h, _⟩ | ⟨_, _, h, hthere, rfl⟩ | ⟨_, _, _, _, _, h, _⟩ |
      ⟨_, _, h, _⟩ | ⟨h, _⟩ | ⟨_, _, h, _⟩
    any_goals cases h
    exact hasColumn_added hthere column
  have hthere := (runScript_grows hrest).column table column hadded
  unfold Statement.exec at hsecond
  dsimp only at hsecond
  rw [hthere] at hsecond
  split at hsecond
  · cases hsecond
  · cases hsecond

/-! ### The loop -/

namespace Migrations

variable {digest : List Statement → String} {all rest : List (Nat × List Statement)}
  {version n : Nat}

/-- Either the script is guarded, or it begins with a new column. -/
def isKnownScript (script : List Statement) : Bool :=
  script.all isGuarded ||
    match script with
    | .addColumn _ _ :: _ => true
    | _ => false

/-- After `n` statements of the loop the opening can be repeated: it has not come into a script that
is not guarded, or it is through with it and has recorded it. -/
def isResumable : List (Nat × List Statement) → SchemaDatabase → Nat → Bool
  | [], _, _ => true
  | (version, script) :: rest, db, n =>
      if (db.checksum? version).isSome then isResumable rest db n
      else if n ≤ script.length then n = 0 || script.all isGuarded
      else isResumable rest db (n - (script.length + 1))

/-- What the loop relies on: the scripts are of the known kinds, and have one version each. -/
structure Known (all : List (Nat × List Statement)) : Prop where
  versions : (all.map Prod.fst).Nodup
  plain : ∀ entry ∈ all, ∀ statement ∈ entry.2, statement.isInsertMigration = false
  scripts : ∀ entry ∈ all, isKnownScript entry.2 = true

theorem Known.tail {entry : Nat × List Statement} (hknown : Known (entry :: rest)) : Known rest :=
  ⟨(List.nodup_cons.mp hknown.versions).2,
    fun other hother => hknown.plain other (List.mem_cons_of_mem _ hother),
    fun other hother => hknown.scripts other (List.mem_cons_of_mem _ hother)⟩

/-- Recorded scripts have the checksums that they have now. -/
def Checked (digest : List Statement → String) (all : List (Nat × List Statement))
    (db : SchemaDatabase) : Prop :=
  ∀ entry ∈ all, ∀ checksum, db.checksum? entry.1 = some checksum → checksum = digest entry.2

/-- The loop looks at the recorded checksums only. -/
theorem pending_congr (hsame : ∀ entry ∈ all, after.checksum? entry.1 = db.checksum? entry.1) :
    pending digest all after = pending digest all db := by
  unfold pending
  refine List.flatMap_congr fun entry hentry => ?_
  dsimp only
  rw [hsame entry hentry]

theorem isResumable_congr (hsame : ∀ entry ∈ all, after.checksum? entry.1 = db.checksum? entry.1)
    (n : Nat) : isResumable all after n = isResumable all db n := by
  induction all generalizing n with
  | nil => rfl
  | cons entry rest ih =>
      have hrest := fun other hother => hsame other (List.mem_cons_of_mem entry hother)
      obtain ⟨version, script⟩ := entry
      have hversion := hsame (version, script) List.mem_cons_self
      simp only [isResumable, ih hrest]
      rw [hversion]

theorem isResumable_zero (all : List (Nat × List Statement)) (db : SchemaDatabase) :
    isResumable all db 0 = true := by
  induction all with
  | nil => rfl
  | cons entry rest ih => simp [isResumable, ih]

/-- What running and recording a script does to the checksums. -/
theorem checksum_recorded {script : List Statement} {checksum : String}
    (hplain : ∀ statement ∈ script, statement.isInsertMigration = false)
    (hok : runScript (script ++ [.insertMigration version checksum]) db = .ok after) :
    after.checksum? version = some checksum ∧
      ∀ other, other ≠ version → after.checksum? other = db.checksum? other := by
  obtain ⟨mid, hscript, hrecord⟩ := runScript_append_ok.mp hok
  have hsame := runScript_migrations hplain hscript
  obtain ⟨recorded, hrecord, hdone⟩ := runScript_cons_ok.mp hrecord
  cases hdone
  rcases exec_cases hrecord with ⟨_, _, _, h, _⟩ | ⟨_, _, h, _⟩ | ⟨_, _, _, _, _, h, _⟩ |
    ⟨_, _, h, _⟩ | ⟨h, _⟩ | ⟨_, _, h, hnone, rfl⟩
  any_goals cases h
  refine ⟨?_, fun other hother => ?_⟩
  · unfold checksum? at hnone ⊢
    rw [Option.map_eq_none_iff] at hnone
    simp [List.find?_append, hnone]
  · unfold checksum?
    simp [List.find?_append, hsame, Ne.symm hother]

/-- The loop after it has been stopped: it ends as if it had not been, or it fails. -/
theorem migrateAll_again (hknown : Known all) (hchecked : Checked digest all db)
    (hcrash : runScript ((pending digest all db).take n) db = .ok mid) :
    (isResumable all db n = true → migrateAll digest all mid = migrateAll digest all db) ∧
      (isResumable all db n = false → ∀ final, migrateAll digest all mid ≠ .ok final) := by
  induction all generalizing db n with
  | nil =>
      rw [show pending digest [] db = [] from rfl, List.take_nil] at hcrash
      cases hcrash
      exact ⟨fun _ => rfl, nofun⟩
  | cons entry rest ih =>
      obtain ⟨version, script⟩ := entry
      have hplain := hknown.plain (version, script) List.mem_cons_self
      have hrest : Checked digest rest db := fun other hother =>
        hchecked other (List.mem_cons_of_mem _ hother)
      have hgrows := runScript_grows hcrash
      cases hrecorded : db.checksum? version with
      | some checksum =>
          -- the version is recorded, before and after
          have hsame := hchecked (version, script) List.mem_cons_self checksum hrecorded
          subst hsame
          have hpending : pending digest ((version, script) :: rest) db =
              pending digest rest db := by
            simp [pending, hrecorded]
          rw [hpending] at hcrash
          have hskip (at' : SchemaDatabase) (hat : at'.checksum? version = some (digest script)) :
              migrateAll digest ((version, script) :: rest) at' = migrateAll digest rest at' := by
            simp [migrateAll, hat]
          rw [hskip db hrecorded, hskip mid (hgrows.checksum _ _ hrecorded)]
          simp only [isResumable, hrecorded, Option.isSome_some, if_true]
          exact ih hknown.tail hrest hcrash
      | none =>
          let whole := script ++ [.insertMigration version (digest script)]
          have hpending : pending digest ((version, script) :: rest) db =
              whole ++ pending digest rest db := by
            simp [pending, hrecorded, whole]
          have hloop (at' : SchemaDatabase) (hat : at'.checksum? version = none) :
              migrateAll digest ((version, script) :: rest) at' =
                (runScript whole at' >>= migrateAll digest rest) := by
            simp only [migrateAll, hat]
            rfl
          have hlength : whole.length = script.length + 1 := by simp [whole]
          rw [hpending] at hcrash
          simp only [isResumable, hrecorded, Option.isSome_none, Bool.false_eq_true, if_false]
          by_cases hinside : n ≤ script.length
          · -- stopped inside the script, or before its record
            have htake : (whole ++ pending digest rest db).take n = script.take n := by
              rw [List.take_append_of_le_length (by omega), List.take_append_of_le_length hinside]
            rw [htake] at hcrash
            have hnone : mid.checksum? version = none := by
              have hmigrations := runScript_migrations
                (fun statement hmem => hplain statement (List.mem_of_mem_take hmem)) hcrash
              unfold checksum? at hrecorded ⊢
              rw [hmigrations]
              exact hrecorded
            rw [if_pos hinside, hloop db hrecorded, hloop mid hnone]
            refine ⟨fun hresumable => ?_, fun hbroken final hfinal => ?_⟩
            · rcases Bool.or_eq_true_iff.mp hresumable with hzero | hguarded
              · have hzero := of_decide_eq_true hzero
                subst hzero
                cases hcrash
                rfl
              · have hagain := runScript_again
                  (fun statement hmem => List.all_eq_true.mp hguarded statement hmem) hcrash
                change (runScript (script ++ _) mid >>= _) = (runScript (script ++ _) db >>= _)
                rw [runScript_append, runScript_append, hagain]
            · obtain ⟨hpositive, hunguarded⟩ := Bool.or_eq_false_iff.mp hbroken
              have hscript := hknown.scripts (version, script) List.mem_cons_self
              unfold isKnownScript at hscript
              dsimp only at hscript
              rw [hunguarded, Bool.false_or] at hscript
              obtain ⟨recorded, hwhole, _⟩ := PyError.bind_eq_ok.mp hfinal
              obtain ⟨done, hagain, _⟩ := runScript_append_ok.mp hwhole
              obtain ⟨k, rfl⟩ := Nat.exists_eq_succ_of_ne_zero (of_decide_eq_false hpositive)
              split at hscript
              · exact runScript_fails_again hcrash hagain
              · cases hscript
          · -- the script is recorded
            have htake : (whole ++ pending digest rest db).take n =
                whole ++ (pending digest rest db).take (n - (script.length + 1)) := by
              rw [List.take_append, List.take_of_length_le (by omega), hlength]
            rw [htake] at hcrash
            obtain ⟨next, hwhole, hcrash⟩ := runScript_append_ok.mp hcrash
            obtain ⟨hthis, hothers⟩ := checksum_recorded hplain hwhole
            have hsame : ∀ other ∈ rest, next.checksum? other.1 = db.checksum? other.1 := by
              intro other hother
              refine hothers other.1 fun heq => ?_
              have hfresh := (List.nodup_cons.mp hknown.versions).1
              exact hfresh (List.mem_map.mpr ⟨other, hother, heq⟩)
            have hnext : Checked digest rest next := by
              intro other hother checksum hfound
              rw [hsame other hother] at hfound
              exact hrest other hother checksum hfound
            have hmid := (runScript_grows hcrash).checksum _ _ hthis
            have hskip : migrateAll digest ((version, script) :: rest) mid =
                migrateAll digest rest mid := by
              simp [migrateAll, hmid]
            have hfirst : migrateAll digest ((version, script) :: rest) db =
                migrateAll digest rest next := by
              rw [hloop db hrecorded, hwhole]
              rfl
            rw [if_neg hinside, hskip, hfirst, ← isResumable_congr hsame]
            rw [← pending_congr hsame] at hcrash
            exact ih hknown.tail hnext hcrash

end Migrations

end Codex2Lark
