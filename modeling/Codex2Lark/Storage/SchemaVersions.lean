import Codex2Lark.Storage.MigrationCrashes

/-!
The databases at the known schema versions, their migration to the newest one, and which crashes
of it the next opening survives.
-/

namespace Codex2Lark

variable {db after reached : SchemaDatabase} {statement : Statement} {script : List Statement}

/-! ### Without rows and records -/

namespace SchemaDatabase

def bare (db : SchemaDatabase) : SchemaDatabase := { db with migrations := [], mailbox := [] }

theorem bare_eq (hmigrations : db.migrations = []) (hmailbox : db.mailbox = []) : db.bare = db := by
  cases db
  cases hmigrations
  cases hmailbox
  rfl

end SchemaDatabase

open SchemaDatabase

namespace Statement

def row? : Statement → Option MigrationRow
  | .insertMigration version checksum => some ⟨version, checksum⟩
  | _ => none

/-- The statement fails on a mailbox with rows of one correlation. -/
def isMailboxUnique : Statement → Bool
  | .createIndex _ kind _ table _ => kind = .unique && table = "runtime_mailbox"
  | _ => false

def indexName? : Statement → Option String
  | .createIndex _ _ name _ _ => some name
  | _ => none

/-- A statement of a script does not look at the records, and at the rows only for an index. -/
theorem exec_of_bare (hplain : statement.isInsertMigration = false)
    (hunique : statement.isMailboxUnique = true → db.rowsUnique "runtime_mailbox" = true)
    (hok : statement.exec db.bare = .ok reached) :
    statement.exec db = .ok { reached with migrations := db.migrations, mailbox := db.mailbox } := by
  cases statement with
  | createTable guard name columns =>
      change (if db.hasTable name = true then _ else _) = _ at hok
      change (if db.hasTable name = true then _ else _) = _
      by_cases hthere : db.hasTable name = true
      · rw [if_pos hthere] at hok ⊢
        cases guard with
        | always => cases hok
        | ifNotExists =>
            cases hok
            rfl
      · rw [if_neg hthere] at hok ⊢
        cases hok
        rfl
  | addColumn table column =>
      change (if (!db.hasTable table) = true then _ else
        if db.hasColumn table column = true then _ else _) = _ at hok
      change (if (!db.hasTable table) = true then _ else
        if db.hasColumn table column = true then _ else _) = _
      by_cases hmissing : (!db.hasTable table) = true
      · rw [if_pos hmissing] at hok
        cases hok
      · rw [if_neg hmissing] at hok ⊢
        by_cases hthere : db.hasColumn table column = true
        · rw [if_pos hthere] at hok
          cases hok
        · rw [if_neg hthere] at hok ⊢
          cases hok
          rfl
  | createIndex guard kind name table columns =>
      change (if db.hasIndex name = true then _ else
        if (!columns.all (db.hasColumn table)) = true then _ else _) = _ at hok
      change (if db.hasIndex name = true then _ else
        if (!columns.all (db.hasColumn table)) = true then _ else
          if (kind = .unique && !db.rowsUnique table) = true then _ else _) = _
      by_cases hthere : db.hasIndex name = true
      · rw [if_pos hthere] at hok ⊢
        cases guard with
        | always => cases hok
        | ifNotExists =>
            cases hok
            rfl
      · rw [if_neg hthere] at hok ⊢
        by_cases hmissing : (!columns.all (db.hasColumn table)) = true
        · rw [if_pos hmissing] at hok
          cases hok
        · rw [if_neg hmissing] at hok ⊢
          have hrows : ¬(kind = .unique && !db.rowsUnique table) = true := by
            intro hbad
            obtain ⟨hkind, hbad⟩ := Bool.and_eq_true_iff.mp hbad
            by_cases htable : table = "runtime_mailbox"
            · subst htable
              have hgood := hunique (by simpa [isMailboxUnique] using hkind)
              simp [hgood] at hbad
            · simp [rowsUnique, htable] at hbad
          rw [if_neg hrows]
          split at hok
          · cases hok
          · cases hok
            rfl
  | update table columns =>
      change (if columns.all (db.hasColumn table) = true then _ else _) = _ at hok
      change (if columns.all (db.hasColumn table) = true then _ else _) = _
      by_cases hthere : columns.all (db.hasColumn table) = true
      · rw [if_pos hthere] at hok ⊢
        cases hok
        rfl
      · rw [if_neg hthere] at hok
        cases hok
  | insertSchedulerState =>
      change (if (!db.hasTable "runtime_scheduler_state") = true then _ else
        if db.nextSequence.isSome = true then _ else _) = _ at hok
      change (if (!db.hasTable "runtime_scheduler_state") = true then _ else
        if db.nextSequence.isSome = true then _ else _) = _
      by_cases hmissing : (!db.hasTable "runtime_scheduler_state") = true
      · rw [if_pos hmissing] at hok
        cases hok
      · rw [if_neg hmissing] at hok ⊢
        by_cases hthere : db.nextSequence.isSome = true
        · rw [if_pos hthere] at hok
          cases hok
        · rw [if_neg hthere] at hok ⊢
          cases hok
          rfl
  | insertMigration version checksum => cases hplain

/-- An index that is there now was there before, or the statement has made it. -/
theorem exec_index {name : String} (hok : statement.exec db = .ok after)
    (hthere : after.hasIndex name = true) :
    db.hasIndex name = true ∨ statement.indexName? = some name ∧
      (statement.isMailboxUnique = true → db.rowsUnique "runtime_mailbox" = true) := by
  rcases exec_cases hok with ⟨_, _, _, _, ⟨rfl, _⟩ | rfl⟩ | ⟨_, _, _, _, rfl⟩ |
    ⟨_, kind, index, table, columns, rfl, ⟨rfl, _⟩ | ⟨hunique, _, rfl⟩⟩ | ⟨_, _, _, rfl⟩ |
    ⟨_, rfl⟩ | ⟨_, _, _, _, rfl⟩
  · exact .inl hthere
  · exact .inl hthere
  · exact .inl hthere
  · exact .inl hthere
  · unfold hasIndex at hthere
    rw [List.any_append, Bool.or_eq_true_iff] at hthere
    rcases hthere with hthere | hthere
    · exact .inl hthere
    · refine .inr ⟨congrArg some (by simpa using hthere), fun hmailbox => ?_⟩
      obtain ⟨hkind, htable⟩ := Bool.and_eq_true_iff.mp hmailbox
      obtain rfl : table = "runtime_mailbox" := of_decide_eq_true htable
      exact hunique (of_decide_eq_true hkind)
  · exact .inl hthere
  · exact .inl hthere
  · exact .inl hthere

end Statement

open Statement

theorem rowsUnique_congr (hmailbox : after.mailbox = db.mailbox) (table : String) :
    after.rowsUnique table = db.rowsUnique table := by
  unfold rowsUnique
  rw [hmailbox]

theorem runScript_index {name : String} (hok : runScript script db = .ok after)
    (hthere : after.hasIndex name = true) :
    db.hasIndex name = true ∨ ∃ statement ∈ script, statement.indexName? = some name ∧
      (statement.isMailboxUnique = true → db.rowsUnique "runtime_mailbox" = true) := by
  induction script generalizing db with
  | nil =>
      cases hok
      exact .inl hthere
  | cons first script ih =>
      obtain ⟨mid, hstep, hrest⟩ := runScript_cons_ok.mp hok
      rcases ih hrest with hmid | ⟨statement, hmem, hname, hunique⟩
      · rcases exec_index hstep hmid with hbefore | hmade
        · exact .inl hbefore
        · exact .inr ⟨first, List.mem_cons_self, hmade⟩
      · refine .inr ⟨statement, List.mem_cons_of_mem _ hmem, hname, fun hmailbox => ?_⟩
        rw [← rowsUnique_congr (exec_grows hstep).mailbox]
        exact hunique hmailbox

/-- A script with its records runs as its other statements do on a database without rows. -/
theorem runScript_of_bare
    (hrows : ((db.migrations ++ script.filterMap row?).map MigrationRow.version).Nodup)
    (hunique : ∀ statement ∈ script, statement.isMailboxUnique = true →
      db.rowsUnique "runtime_mailbox" = true)
    (hok : runScript (script.filter fun statement => !statement.isInsertMigration) db.bare =
      .ok reached) :
    runScript script db =
      .ok { reached with
        migrations := db.migrations ++ script.filterMap row?, mailbox := db.mailbox } := by
  induction script generalizing db with
  | nil =>
      cases hok
      simp [runScript, SchemaDatabase.bare, pure, Except.pure]
  | cons statement script ih =>
      have hlater : ∀ other ∈ script, other.isMailboxUnique = true →
          db.rowsUnique "runtime_mailbox" = true :=
        fun other hother => hunique other (List.mem_cons_of_mem _ hother)
      refine runScript_cons_ok.mpr ?_
      cases hinsert : statement.isInsertMigration with
      | false =>
          rw [List.filter_cons_of_pos (by simp [hinsert])] at hok
          obtain ⟨mid, hstep, hrest⟩ := runScript_cons_ok.mp hok
          have hnone : statement.row? = none := by
            cases statement with
            | insertMigration version checksum => cases hinsert
            | _ => rfl
          rw [List.filterMap_cons_none hnone] at hrows ⊢
          have hone : runScript [statement] db.bare = .ok mid :=
            runScript_cons_ok.mpr ⟨mid, hstep, rfl⟩
          have hrecords : mid.migrations = [] :=
            runScript_migrations (by simpa using hinsert) hone
          have hmailbox : mid.mailbox = [] := (exec_grows hstep).mailbox
          refine ⟨_, exec_of_bare hinsert (hunique _ List.mem_cons_self) hstep, ?_⟩
          rw [← bare_eq hrecords hmailbox] at hrest
          exact ih hrows hlater hrest
      | true =>
          rw [List.filter_cons_of_neg (by simp [hinsert])] at hok
          cases statement with
          | insertMigration version checksum =>
              have hrow : (Statement.insertMigration version checksum).row? =
                  some ⟨version, checksum⟩ := rfl
              rw [List.filterMap_cons_some hrow] at hrows ⊢
              have hfresh : db.checksum? version = none := by
                unfold checksum?
                rw [Option.map_eq_none_iff, List.find?_eq_none]
                intro row hmem hversion
                rw [List.map_append, List.nodup_append] at hrows
                exact hrows.2.2 row.version (List.mem_map_of_mem hmem) version (by simp)
                  (of_decide_eq_true hversion)
              rw [List.append_cons] at hrows ⊢
              refine ⟨{ db with migrations := db.migrations ++ [⟨version, checksum⟩] }, ?_, ?_⟩
              · unfold Statement.exec
                dsimp only
                rw [hfresh]
                rfl
              · exact ih hrows hlater hok
          | _ => cases hinsert

/-! ### The statements of an opening -/

namespace Migrations

variable {digest : List Statement → String} {all : List (Nat × List Statement)}
  {mid final : SchemaDatabase}

/-- The record of a script. -/
def record (digest : List Statement → String) (entry : Nat × List Statement) : MigrationRow :=
  ⟨entry.1, digest entry.2⟩

theorem pending_append (digest : List Statement → String) (first second : List (Nat × List Statement))
    (db : SchemaDatabase) :
    pending digest (first ++ second) db = pending digest first db ++ pending digest second db :=
  List.flatMap_append

theorem pending_recorded (hrecorded : ∀ entry ∈ all, (db.checksum? entry.1).isSome = true) :
    pending digest all db = [] := by
  refine List.flatMap_eq_nil_iff.mpr fun entry hentry => ?_
  dsimp only
  rw [if_pos (hrecorded entry hentry)]

/-- The loop executes its pending statements. -/
theorem migrateAll_eq_runScript (hknown : Known all) (hchecked : Checked digest all db) :
    migrateAll digest all db = runScript (pending digest all db) db := by
  induction all generalizing db with
  | nil => rfl
  | cons entry rest ih =>
      obtain ⟨version, script⟩ := entry
      have hrest : Checked digest rest db := fun other hother =>
        hchecked other (List.mem_cons_of_mem _ hother)
      cases hrecorded : db.checksum? version with
      | some checksum =>
          have hsame := hchecked (version, script) List.mem_cons_self checksum hrecorded
          subst hsame
          have hloop : migrateAll digest ((version, script) :: rest) db =
              migrateAll digest rest db := by
            simp [migrateAll, hrecorded]
          have hpending : pending digest ((version, script) :: rest) db =
              pending digest rest db := by
            simp [pending, hrecorded]
          rw [hloop, hpending]
          exact ih hknown.tail hrest
      | none =>
          have hloop : migrateAll digest ((version, script) :: rest) db =
              (runScript (script ++ [.insertMigration version (digest script)]) db >>=
                migrateAll digest rest) := by
            simp only [migrateAll, hrecorded]
          have hpending : pending digest ((version, script) :: rest) db =
              (script ++ [.insertMigration version (digest script)]) ++
                pending digest rest db := by
            simp [pending, hrecorded]
          rw [hloop, hpending, runScript_append (script ++ _)]
          cases hwhole : runScript (script ++ [.insertMigration version (digest script)]) db with
          | error failure => rfl
          | ok next =>
              have hothers := (checksum_recorded
                (hknown.plain (version, script) List.mem_cons_self) hwhole).2
              have hsame : ∀ other ∈ rest, next.checksum? other.1 = db.checksum? other.1 := by
                intro other hother
                refine hothers other.1 fun heq => ?_
                exact (List.nodup_cons.mp hknown.versions).1
                  (List.mem_map.mpr ⟨other, hother, heq⟩)
              have hnext : Checked digest rest next := by
                intro other hother checksum hfound
                rw [hsame other hother] at hfound
                exact hrest other hother checksum hfound
              change migrateAll digest rest next = runScript (pending digest rest db) next
              rw [← pending_congr hsame]
              exact ih hknown.tail hnext

/-- What is pending of scripts that are not recorded: their statements and their records. -/
theorem pending_fresh (digest : List Statement → String) (db : SchemaDatabase)
    (hplain : ∀ entry ∈ all, ∀ statement ∈ entry.2,
      statement.isInsertMigration = false)
    (hfresh : ∀ entry ∈ all, db.checksum? entry.1 = none) :
    ((pending digest all db).filter fun statement => !statement.isInsertMigration) =
        all.flatMap Prod.snd ∧
      (pending digest all db).filterMap row? = all.map (record digest) := by
  induction all with
  | nil => exact ⟨rfl, rfl⟩
  | cons entry rest ih =>
      obtain ⟨version, script⟩ := entry
      obtain ⟨hfilter, hrows⟩ := ih (fun other hother => hplain other (List.mem_cons_of_mem _ hother))
        (fun other hother => hfresh other (List.mem_cons_of_mem _ hother))
      have hscript := hplain (version, script) List.mem_cons_self
      have hpending : pending digest ((version, script) :: rest) db =
          script ++ .insertMigration version (digest script) :: pending digest rest db := by
        simp [pending, hfresh (version, script) List.mem_cons_self]
      have hall : (script.filter fun statement => !statement.isInsertMigration) = script :=
        List.filter_eq_self.mpr fun statement hmem => by rw [hscript statement hmem]; rfl
      have hnone : script.filterMap row? = [] := by
        refine List.filterMap_eq_nil_iff.mpr fun statement hmem => ?_
        have hkind := hscript statement hmem
        cases statement with
        | insertMigration version checksum => cases hkind
        | _ => rfl
      rw [hpending]
      constructor
      · rw [List.filter_append, hall, List.filter_cons_of_neg (by simp [isInsertMigration]), hfilter,
          List.flatMap_cons]
      · rw [List.filterMap_append, hnone, List.filterMap_cons_some (f := row?) rfl, hrows]
        rfl

theorem checksum_of_records (hversions : (all.map Prod.fst).Nodup)
    (hrecords : db.migrations = all.map (record digest)) {entry : Nat × List Statement}
    (hentry : entry ∈ all) : db.checksum? entry.1 = some (digest entry.2) := by
  induction all generalizing db with
  | nil => cases hentry
  | cons first rest ih =>
      unfold checksum?
      rw [hrecords, List.map_cons]
      rcases List.mem_cons.mp hentry with rfl | hrest
      · rw [List.find?_cons_of_pos (by simp [record])]
        rfl
      · obtain ⟨hnew, hnodup⟩ := List.nodup_cons.mp hversions
        have hother : ¬first.1 = entry.1 := fun heq =>
          hnew (List.mem_map.mpr ⟨entry, hrest, heq.symm⟩)
        rw [List.find?_cons_of_neg (by simp [record, hother])]
        have htail : SchemaDatabase.checksum? { db with migrations := rest.map (record digest) }
            entry.1 = some (digest entry.2) := ih hnodup rfl hrest
        exact htail

theorem checksum_of_unrecorded {version : Nat} (hversion : version ∉ all.map Prod.fst)
    (hrecords : db.migrations = all.map (record digest)) : db.checksum? version = none := by
  unfold checksum?
  rw [Option.map_eq_none_iff, hrecords, List.find?_eq_none]
  intro row hrow hfound
  obtain ⟨entry, hentry, rfl⟩ := List.mem_map.mp hrow
  exact hversion (List.mem_map.mpr ⟨entry, hentry, of_decide_eq_true hfound⟩)

/-! ### The schema versions -/

theorem known : Known migrations := ⟨by decide, by decide +kernel, by decide +kernel⟩

/-- The scripts run on an empty file. -/
theorem scripts_run : (runScript (migrations.flatMap Prod.snd) {}).toOption.isSome = true := by
  decide +kernel

theorem scripts_run_again :
    (runScript (createMigrations :: migrations.flatMap Prod.snd) {}).toOption.isSome = true := by
  decide +kernel

theorem ok_of_isSome {result : Except PyError SchemaDatabase}
    (hsome : result.toOption.isSome = true) : ∃ db, result = .ok db := by
  cases result with
  | error failure => cases hsome
  | ok db => exact ⟨db, rfl⟩

/-- A database with the scripts of a schema version, and their records. -/
structure IsAt (digest : List Statement → String) (version : Nat) (db : SchemaDatabase) : Prop where
  scripts : runScript ((migrations.take version).flatMap Prod.snd) {} = .ok db.bare
  records : db.migrations = (migrations.take version).map (record digest)

variable {version n : Nat}

theorem exists_scripts (version : Nat) :
    ∃ reached, runScript ((migrations.take version).flatMap Prod.snd) {} = .ok reached := by
  obtain ⟨final, hfinal⟩ := ok_of_isSome scripts_run
  rw [← List.take_append_drop version migrations, List.flatMap_append] at hfinal
  obtain ⟨reached, hreached, _⟩ := runScript_append_ok.mp hfinal
  exact ⟨reached, hreached⟩

theorem take_plain (version : Nat) : ∀ entry ∈ migrations.take version, ∀ statement ∈ entry.2,
    statement.isInsertMigration = false :=
  fun entry hentry => known.plain entry (List.mem_of_mem_take hentry)

theorem take_known (version : Nat) : Known (migrations.take version) where
  versions := by
    rw [List.map_take]
    exact known.versions.sublist (List.take_sublist _ _)
  plain := take_plain version
  scripts entry hentry := known.scripts entry (List.mem_of_mem_take hentry)

theorem databaseAt_isAt (digest : List Statement → String) (version : Nat)
    (mailbox : List MailCorrelation) : IsAt digest version (databaseAt digest version mailbox) := by
  obtain ⟨reached, hreached⟩ := exists_scripts version
  have hbare : reached.bare = reached := by
    refine bare_eq (runScript_migrations ?_ hreached) (runScript_grows hreached).mailbox
    intro statement hmem
    obtain ⟨entry, hentry, hmem⟩ := List.mem_flatMap.mp hmem
    exact take_plain version entry hentry statement hmem
  obtain ⟨hfilter, hrows⟩ := pending_fresh digest {} (take_plain version) fun _ _ => rfl
  have hversions : ((([] : List MigrationRow) ++
      (pending digest (migrations.take version) {}).filterMap row?).map
        MigrationRow.version).Nodup := by
    rw [hrows]
    simpa [record, Function.comp_def] using (take_known version).versions
  rw [← hfilter] at hreached
  have hrun := runScript_of_bare hversions (fun _ _ _ => rfl)
    (show runScript _ (SchemaDatabase.bare {}) = .ok reached from hreached)
  rw [← migrateAll_eq_runScript (take_known version) (by nofun), hrows] at hrun
  unfold databaseAt
  rw [hrun]
  refine ⟨?_, rfl⟩
  rw [← hfilter, hreached]
  exact congrArg Except.ok hbare.symm

namespace IsAt

theorem checksum_take (hat : IsAt digest version db) {entry : Nat × List Statement}
    (hentry : entry ∈ migrations.take version) : db.checksum? entry.1 = some (digest entry.2) :=
  checksum_of_records (take_known version).versions hat.records hentry

theorem checksum_drop (hat : IsAt digest version db) {entry : Nat × List Statement}
    (hentry : entry ∈ migrations.drop version) : db.checksum? entry.1 = none := by
  refine checksum_of_unrecorded (fun hmem => ?_) hat.records
  have hversions := known.versions
  rw [← List.take_append_drop version migrations, List.map_append, List.nodup_append] at hversions
  exact hversions.2.2 entry.1 hmem entry.1 (List.mem_map_of_mem hentry) rfl

theorem checked (hat : IsAt digest version db) : Checked digest migrations db := by
  intro entry hentry checksum hfound
  rw [← List.take_append_drop version migrations] at hentry
  rcases List.mem_append.mp hentry with htake | hdrop
  · rw [hat.checksum_take htake] at hfound
    exact (Option.some.inj hfound).symm
  · rw [hat.checksum_drop hdrop] at hfound
    cases hfound

theorem pending_eq (hat : IsAt digest version db) :
    pending digest migrations db = pending digest (migrations.drop version) db := by
  conv_lhs => rw [← List.take_append_drop version migrations]
  rw [pending_append, pending_recorded (fun entry hentry => by rw [hat.checksum_take hentry]; rfl),
    List.nil_append]

end IsAt

/-- The first statement of an opening changes no record. -/
theorem createMigrations_cases (db : SchemaDatabase) :
    ∃ next, createMigrations.exec db = .ok next ∧ next.migrations = db.migrations ∧
      Satisfied next createMigrations := by
  by_cases hthere : db.hasTable "runtime_migrations" = true
  · exact ⟨db, if_pos hthere, rfl, hthere⟩
  · refine ⟨_, if_neg hthere, rfl, ?_⟩
    have hmade : createMigrations.exec db = _ := if_neg hthere
    exact satisfied_of_exec rfl hmade

theorem checksum_congr (hmigrations : after.migrations = db.migrations) (version : Nat) :
    after.checksum? version = db.checksum? version := by
  unfold checksum?
  rw [hmigrations]

/-- An opening executes its statements, until one of them fails. -/
theorem migrate_eq_runScript (hchecked : Checked digest migrations db) :
    migrate digest db = runScript (openStatements digest db) db := by
  obtain ⟨next, hnext, hrecords, _⟩ := createMigrations_cases db
  have hsame : ∀ entry ∈ migrations, next.checksum? entry.1 = db.checksum? entry.1 :=
    fun entry _ => checksum_congr hrecords entry.1
  have hloop : migrateAll digest migrations next = runScript (pending digest migrations next) next := by
    refine migrateAll_eq_runScript known fun entry hentry checksum hfound => ?_
    rw [hsame entry hentry] at hfound
    exact hchecked entry hentry checksum hfound
  rw [pending_congr hsame] at hloop
  have hopen : migrate digest db = migrateAll digest migrations next := by
    unfold migrate
    rw [hnext]
    rfl
  rw [hopen, hloop]
  change _ = (createMigrations.exec db >>= runScript (pending digest migrations db))
  rw [hnext]
  rfl

/-! ### Migrations that succeed -/

theorem mailboxUnique_late : ∀ statement ∈ (migrations.drop 11).flatMap Prod.snd,
    statement.isMailboxUnique = false := by
  decide +kernel

theorem correlationIdx_unique : ∀ statement ∈ migrations.flatMap Prod.snd,
    statement.indexName? = some "runtime_mailbox_correlation_idx" →
      statement.isMailboxUnique = true := by
  decide +kernel

theorem correlationIdx_late : ∀ statement ∈ (migrations.take 10).flatMap Prod.snd,
    statement.indexName? ≠ some "runtime_mailbox_correlation_idx" := by
  decide +kernel

theorem mem_pending {entry : Nat × List Statement} (hentry : entry ∈ all)
    (hfresh : db.checksum? entry.1 = none) (hmem : statement ∈ entry.2) :
    statement ∈ pending digest all db := by
  refine List.mem_flatMap.mpr ⟨entry, hentry, ?_⟩
  dsimp only
  rw [hfresh]
  exact List.mem_append_left _ hmem

theorem of_mem_pending (hmem : statement ∈ pending digest all db) :
    (∃ entry ∈ all, statement ∈ entry.2) ∨ ∃ version checksum,
      statement = .insertMigration version checksum := by
  obtain ⟨entry, hentry, hmem⟩ := List.mem_flatMap.mp hmem
  dsimp only at hmem
  split at hmem
  · cases hmem
  · rcases List.mem_append.mp hmem with hscript | hrecord
    · exact .inl ⟨entry, hentry, hscript⟩
    · exact .inr ⟨_, _, List.mem_singleton.mp hrecord⟩

namespace IsAt

/-- The rest of the scripts on the database without its rows. -/
theorem runScript_bare (hat : IsAt digest version db) :
    ∃ final, runScript (createMigrations :: (migrations.drop version).flatMap Prod.snd) db.bare =
      .ok final := by
  cases version with
  | zero =>
      have hempty : db.bare = {} := (Except.ok.inj hat.scripts).symm
      rw [hempty]
      exact ok_of_isSome scripts_run_again
  | succ version =>
      obtain ⟨final, hfinal⟩ := ok_of_isSome scripts_run
      rw [← List.take_append_drop (version + 1) migrations, List.flatMap_append] at hfinal
      obtain ⟨reached, hreached, hrest⟩ := runScript_append_ok.mp hfinal
      obtain rfl : db.bare = reached := Except.ok.inj (hat.scripts.symm.trans hreached)
      have hfirst : createMigrations ∈ (migrations.take (version + 1)).flatMap Prod.snd :=
        List.mem_flatMap.mpr ⟨(1, initialSchema), List.mem_cons_self, List.mem_cons_self⟩
      have hthere := satisfied_of_runScript hreached createMigrations hfirst rfl
      exact ⟨final, runScript_cons_ok.mpr ⟨_, exec_of_satisfied rfl hthere, hrest⟩⟩

theorem migrate_ok (hat : IsAt digest version db)
    (hunique : 11 ≤ version ∨ db.rowsUnique "runtime_mailbox" = true) :
    ∃ final, migrate digest db = .ok final := by
  obtain ⟨reached, hreached⟩ := hat.runScript_bare
  obtain ⟨hfilter, hrows⟩ := pending_fresh digest db
    (fun entry hentry => known.plain entry (List.mem_of_mem_drop hentry))
    fun entry (hentry : entry ∈ migrations.drop version) => hat.checksum_drop hentry
  rw [← hat.pending_eq] at hfilter hrows
  rw [migrate_eq_runScript hat.checked]
  have hversions : ((db.migrations ++ (openStatements digest db).filterMap row?).map
      MigrationRow.version).Nodup := by
    have hall : db.migrations ++ (openStatements digest db).filterMap row? =
        migrations.map (record digest) := by
      change db.migrations ++ (pending digest migrations db).filterMap row? = _
      rw [hrows, hat.records, ← List.map_append, List.take_append_drop]
    rw [hall, List.map_map]
    exact known.versions
  have hmailbox : ∀ statement ∈ openStatements digest db, statement.isMailboxUnique = true →
      db.rowsUnique "runtime_mailbox" = true := by
    intro statement hmem hmailbox
    rcases hunique with hlate | hunique
    · exfalso
      rcases List.mem_cons.mp hmem with rfl | hmem
      · cases hmailbox
      · rw [hat.pending_eq] at hmem
        rcases of_mem_pending hmem with ⟨entry, hentry, hscript⟩ | ⟨_, _, rfl⟩
        · have hdrop := List.drop_subset_drop_left migrations hlate hentry
          rw [mailboxUnique_late statement (List.mem_flatMap.mpr ⟨entry, hdrop, hscript⟩)]
            at hmailbox
          cases hmailbox
        · cases hmailbox
    · exact hunique
  have hopen : ((openStatements digest db).filter fun statement =>
      !statement.isInsertMigration) =
        createMigrations :: (migrations.drop version).flatMap Prod.snd := by
    change createMigrations :: _ = _
    rw [hfilter]
  rw [← hopen] at hreached
  exact ⟨_, runScript_of_bare hversions hmailbox hreached⟩

theorem unique_of_migrate (hat : IsAt digest version db) {final : SchemaDatabase}
    (hfinal : migrate digest db = .ok final) :
    11 ≤ version ∨ db.rowsUnique "runtime_mailbox" = true := by
  by_cases hlate : 11 ≤ version
  · exact .inl hlate
  right
  rw [migrate_eq_runScript hat.checked] at hfinal
  -- version 11 is pending, so its index is there in the end
  have heleven : (11, mailboxIdempotencySchema) ∈ migrations.drop version :=
    List.drop_subset_drop_left migrations (show version ≤ 10 by omega) List.mem_cons_self
  have hpending : mailboxIdempotencySchema.head (List.cons_ne_nil _ _) ∈
      openStatements digest db := by
    refine List.mem_cons_of_mem _ (mem_pending (List.mem_of_mem_drop heleven)
      (hat.checksum_drop heleven) (List.head_mem _))
  have hthere := satisfied_of_runScript hfinal _ hpending rfl
  rcases runScript_index hfinal hthere with hbefore | ⟨statement, hmem, hname, hunique⟩
  · -- no earlier script creates it
    exfalso
    rcases runScript_index hat.scripts (show db.bare.hasIndex _ = true from hbefore) with
      hempty | ⟨statement, hmem, hname, _⟩
    · cases hempty
    · obtain ⟨entry, hentry, hscript⟩ := List.mem_flatMap.mp hmem
      have htake := List.take_subset_take_left migrations (show version ≤ 10 by omega) hentry
      exact correlationIdx_late statement (List.mem_flatMap.mpr ⟨entry, htake, hscript⟩) hname
  · refine hunique ?_
    rcases List.mem_cons.mp hmem with rfl | hmem
    · cases hname
    · rcases of_mem_pending hmem with ⟨entry, hentry, hscript⟩ | ⟨_, _, rfl⟩
      · exact correlationIdx_unique statement (List.mem_flatMap.mpr ⟨entry, hentry, hscript⟩) hname
      · cases hname

end IsAt

/-! ### Crashes -/

/-- An opening that stops after some of its statements: the next one does what it would have done,
or fails. -/
theorem migrate_again (hchecked : Checked digest migrations db)
    (hcrash : runScript ((openStatements digest db).take n) db = .ok mid) :
    (isResumable migrations db (n - 1) = true → migrate digest mid = migrate digest db) ∧
      (isResumable migrations db (n - 1) = false → ∀ final, migrate digest mid ≠ .ok final) := by
  obtain ⟨next, hnext, hrecords, hthere⟩ := createMigrations_cases db
  have hsame : ∀ entry ∈ migrations, next.checksum? entry.1 = db.checksum? entry.1 :=
    fun entry _ => checksum_congr hrecords entry.1
  have hnextChecked : Checked digest migrations next := by
    intro entry hentry checksum hfound
    rw [hsame entry hentry] at hfound
    exact hchecked entry hentry checksum hfound
  have hopen : migrate digest db = migrateAll digest migrations next := by
    unfold migrate
    rw [hnext]
    rfl
  cases n with
  | zero =>
      cases hcrash
      refine ⟨fun _ => rfl, fun hbroken => ?_⟩
      rw [isResumable_zero] at hbroken
      cases hbroken
  | succ n =>
      rw [openStatements, List.take_succ_cons] at hcrash
      obtain ⟨first, hfirst, hcrash⟩ := runScript_cons_ok.mp hcrash
      obtain rfl : next = first := Except.ok.inj (hnext.symm.trans hfirst)
      have hmid : migrate digest mid = migrateAll digest migrations mid := by
        unfold migrate
        rw [exec_of_satisfied rfl (hthere.grows (runScript_grows hcrash))]
        rfl
      rw [← pending_congr hsame] at hcrash
      have hagain := migrateAll_again known hnextChecked hcrash
      rw [isResumable_congr hsame] at hagain
      rw [hmid, hopen]
      exact hagain

/-- The opening after a crash ends, with what an opening without a crash ends with, if and only if
that one ends and the crash has not come into a script that cannot be run again. -/
theorem reopening_completes_iff (digest : List Statement → String) (version n : Nat)
    (mailbox : List MailCorrelation) (mid : SchemaDatabase)
    (hcrash : runScript ((openStatements digest (databaseAt digest version mailbox)).take n)
      (databaseAt digest version mailbox) = .ok mid) :
    (∃ final, migrate digest mid = .ok final ∧
        migrate digest (databaseAt digest version mailbox) = .ok final) ↔
      (11 ≤ version ∨ (databaseAt digest version mailbox).rowsUnique "runtime_mailbox" = true) ∧
        isResumable migrations (databaseAt digest version mailbox) (n - 1) = true := by
  have hat := databaseAt_isAt digest version mailbox
  obtain ⟨hsame, hfails⟩ := migrate_again hat.checked hcrash
  constructor
  · rintro ⟨final, hagain, hplain⟩
    refine ⟨hat.unique_of_migrate hplain, ?_⟩
    by_contra hbroken
    exact hfails (by simpa using hbroken) final hagain
  · rintro ⟨hunique, hresumable⟩
    obtain ⟨final, hfinal⟩ := hat.migrate_ok hunique
    exact ⟨final, (hsame hresumable).trans hfinal, hfinal⟩

/-- Stands for the checksum. -/
private def scriptLength (script : List Statement) : String :=
  String.ofList (script.map fun _ => 'x')

theorem reopening_completes_first :
    ∃ mid final, runScript ((openStatements scriptLength (databaseAt scriptLength 0 [])).take 2)
        (databaseAt scriptLength 0 []) = .ok mid ∧
      migrate scriptLength mid = .ok final ∧
      migrate scriptLength (databaseAt scriptLength 0 []) = .ok final := by
  have hsome : (runScript ((openStatements scriptLength (databaseAt scriptLength 0 [])).take 2)
      (databaseAt scriptLength 0 [])).toOption.isSome = true := by decide +kernel
  obtain ⟨mid, hcrash⟩ := ok_of_isSome hsome
  obtain ⟨final, hagain, hplain⟩ := (reopening_completes_iff scriptLength 0 2 [] mid hcrash).mpr
    ⟨.inr (by decide +kernel), by decide +kernel⟩
  exact ⟨mid, final, hcrash, hagain, hplain⟩

private def reopened (version n : Nat) : Except PyError SchemaDatabase := do
  let mid ← runScript ((openStatements scriptLength (databaseAt scriptLength version [])).take n)
    (databaseAt scriptLength version [])
  migrate scriptLength mid

/-- Version 7 has added its column but is not recorded. -/
theorem reopening_adds_again : ¬ ∀ version mailbox n mid,
    runScript ((openStatements scriptLength (databaseAt scriptLength version mailbox)).take n)
        (databaseAt scriptLength version mailbox) = .ok mid →
      ∃ final, migrate scriptLength mid = .ok final ∧
        migrate scriptLength (databaseAt scriptLength version mailbox) = .ok final := by
  intro hclaim
  have hsome : (runScript ((openStatements scriptLength (databaseAt scriptLength 6 [])).take 2)
      (databaseAt scriptLength 6 [])).toOption.isSome = true := by decide +kernel
  obtain ⟨mid, hcrash⟩ := ok_of_isSome hsome
  obtain ⟨final, hagain, _⟩ := hclaim 6 [] 2 mid hcrash
  have hfails : reopened 6 2 =
      .error (operationalError "duplicate column name: requires_write_scope") := by
    decide +kernel
  unfold reopened at hfails
  rw [hcrash] at hfails
  change migrate scriptLength mid = _ at hfails
  rw [hagain] at hfails
  cases hfails

end Migrations

end Codex2Lark
