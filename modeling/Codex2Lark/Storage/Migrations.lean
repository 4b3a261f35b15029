import Codex2Lark.Core.Errors
import Mathlib.Data.List.Nodup

/-!
`SQLiteDatabase._migrate` and the scripts of `storage/migrations.py`. A statement outside a
transaction is committed by itself. Of a table only the names of its columns are kept; its rows
matter to nothing but a unique index.
-/

namespace Codex2Lark

/-- With or without `IF NOT EXISTS`. -/
inductive Guard where
  | always
  | ifNotExists
deriving DecidableEq, Repr

inductive IndexKind where
  | plain
  | unique
deriving DecidableEq, Repr

structure TableDef where
  name : String
  columns : List String
deriving DecidableEq, Repr

structure IndexDef where
  name : String
  table : String
  columns : List String
  kind : IndexKind
deriving DecidableEq, Repr

/-- The columns of `runtime_mailbox` that an index makes unique where the last one is not null. -/
structure MailCorrelation where
  graphId : String
  senderNodeId : String
  recipientNodeId : String
  kind : String
  correlationId : Option String
deriving DecidableEq, Repr

/-- A row of `runtime_migrations`, without its time. -/
structure MigrationRow where
  version : Nat
  checksum : String
deriving DecidableEq, Repr

structure SchemaDatabase where
  tables : List TableDef := []
  indexes : List IndexDef := []
  migrations : List MigrationRow := []
  /-- The row of `runtime_scheduler_state`. -/
  nextSequence : Option Nat := none
  mailbox : List MailCorrelation := []
deriving DecidableEq, Repr

inductive Statement where
  | createTable (guard : Guard) (name : String) (columns : List String)
  | addColumn (table column : String)
  | createIndex (guard : Guard) (kind : IndexKind) (name table : String) (columns : List String)
  /-- `UPDATE table SET columns`; what it writes is left out. -/
  | update (table : String) (columns : List String)
  | insertSchedulerState
  | insertMigration (version : Nat) (checksum : String)
deriving DecidableEq, Repr

namespace SchemaDatabase

variable (db : SchemaDatabase)

def hasTable (name : String) : Bool := db.tables.any fun table => table.name = name

def hasIndex (name : String) : Bool := db.indexes.any fun index => index.name = name

def hasColumn (name column : String) : Bool :=
  db.tables.any fun table => table.name = name && table.columns.contains column

/-- No two rows of the table agree in the columns of the unique index. The other table with such an
index has no rows when it is created. -/
def rowsUnique (table : String) : Bool :=
  table ≠ "runtime_mailbox" ||
    decide (db.mailbox.filter fun row => row.correlationId.isSome).Nodup

/-- `SELECT checksum FROM runtime_migrations WHERE version = ?`. -/
def checksum? (version : Nat) : Option String :=
  (db.migrations.find? fun row => row.version = version).map MigrationRow.checksum

def addColumn (name column : String) : SchemaDatabase :=
  { db with
    tables := db.tables.map fun table =>
      if table.name = name then { table with columns := table.columns ++ [column] } else table }

end SchemaDatabase

def operationalError (text : String) : PyError := .other "OperationalError" text

/-- One statement in autocommit mode. -/
def Statement.exec (db : SchemaDatabase) : Statement → Except PyError SchemaDatabase
  | .createTable guard name columns =>
      if db.hasTable name then
        match guard with
        | .ifNotExists => .ok db
        | .always => .error (operationalError ("table " ++ name ++ " already exists"))
      else .ok { db with tables := db.tables ++ [⟨name, columns⟩] }
  | .addColumn table column =>
      if !db.hasTable table then .error (operationalError ("no such table: " ++ table))
      else if db.hasColumn table column then
        .error (operationalError ("duplicate column name: " ++ column))
      else .ok (db.addColumn table column)
  | .createIndex guard kind name table columns =>
      if db.hasIndex name then
        match guard with
        | .ifNotExists => .ok db
        | .always => .error (operationalError ("index " ++ name ++ " already exists"))
      else if !columns.all (db.hasColumn table) then
        .error (operationalError ("no such column in " ++ table))
      else if kind = .unique && !db.rowsUnique table then
        .error (.integrityError ("UNIQUE constraint failed: " ++ table))
      else .ok { db with indexes := db.indexes ++ [⟨name, table, columns, kind⟩] }
  | .update table columns =>
      if columns.all (db.hasColumn table) then .ok db
      else .error (operationalError ("no such column in " ++ table))
  | .insertSchedulerState =>
      if !db.hasTable "runtime_scheduler_state" then
        .error (operationalError "no such table: runtime_scheduler_state")
      else if db.nextSequence.isSome then
        .error (.integrityError "UNIQUE constraint failed: runtime_scheduler_state.singleton")
      else .ok { db with nextSequence := some 0 }
  | .insertMigration version checksum =>
      if (db.checksum? version).isSome then
        .error (.integrityError "UNIQUE constraint failed: runtime_migrations.version")
      else .ok { db with migrations := db.migrations ++ [⟨version, checksum⟩] }

/-- `executescript`. -/
def runScript (script : List Statement) (db : SchemaDatabase) : Except PyError SchemaDatabase :=
  script.foldlM Statement.exec db

/-! ### The scripts -/

namespace Migrations

def initialSchema : List Statement :=
  [.createTable .ifNotExists "runtime_migrations"
      ["version", "checksum", "applied_at_ms"],
    .createTable .ifNotExists "runtime_plugins"
      ["plugin_id", "plugin_version", "runtime_api", "state", "updated_at_ms"],
    .createTable .ifNotExists "runtime_events"
      ["event_pk", "event_id", "plugin_id", "event_type", "tenant_key", "app_id", "occurred_at_ms",
      "received_at_ms", "schema_version", "resource_kind", "resource_id", "correlation_id",
      "trace_id", "payload_ciphertext", "payload_expires_at_ms", "status", "created_at_ms"],
    .createTable .ifNotExists "runtime_tasks"
      ["task_id", "event_pk", "plugin_id", "command_type", "session_key", "priority",
      "payload_ciphertext", "state", "available_at_ms", "lease_owner", "lease_expires_at_ms",
      "attempt_count", "max_attempts", "last_error_code", "created_at_ms", "updated_at_ms"],
    .createIndex .ifNotExists .unique "runtime_tasks_event_idx" "runtime_tasks"
      ["event_pk"],
    .createIndex .ifNotExists .plain "runtime_tasks_available_idx" "runtime_tasks"
      ["state", "available_at_ms", "priority", "created_at_ms"],
    .createTable .ifNotExists "runtime_runs"
      ["run_id", "task_id", "session_key", "agent_definition_id", "agent_definition_version",
      "policy_version", "status", "created_at_ms", "updated_at_ms"],
    .createTable .ifNotExists "runtime_run_events"
      ["run_event_id", "run_id", "sequence", "event_type", "payload_ciphertext", "created_at_ms"],
    .createTable .ifNotExists "runtime_outbox"
      ["outbox_id", "run_id", "task_id", "publisher_id", "destination_ref", "message_kind",
      "idempotency_key", "payload_ciphertext", "state", "available_at_ms", "lease_owner",
      "lease_expires_at_ms", "attempt_count", "max_attempts", "last_error_code", "upstream_ref",
      "created_at_ms", "updated_at_ms"],
    .createIndex .ifNotExists .plain "runtime_outbox_available_idx" "runtime_outbox"
      ["state", "available_at_ms", "created_at_ms"],
    .createTable .ifNotExists "runtime_idempotency"
      ["idempotency_key", "operation_kind", "state", "owner", "result_ref", "expires_at_ms",
      "created_at_ms", "updated_at_ms"]]

def sessionSchema : List Statement :=
  [.createTable .ifNotExists "runtime_checkpoints"
      ["run_id", "payload_ciphertext", "next_turn", "agent_id", "agent_version",
      "compactor_version", "created_at_ms", "updated_at_ms"]]

def multiAgentSchema : List Statement :=
  [.createTable .ifNotExists "runtime_graphs"
      ["graph_id", "root_run_id", "root_node_id", "tenant_key", "app_id", "source_resource_kind",
      "source_resource_id", "agent_definition_id", "agent_definition_version", "status",
      "max_depth", "max_nodes", "max_concurrency", "created_at_ms", "updated_at_ms"],
    .createTable .ifNotExists "runtime_agent_nodes"
      ["node_id", "graph_id", "parent_node_id", "canonical_path", "name", "role",
      "task_brief_ciphertext", "expected_output_type", "context_mode", "tool_ids_ciphertext",
      "budget_ciphertext", "deadline_ms", "depth", "status", "lease_owner", "lease_expires_at_ms",
      "attempt_count", "created_at_ms", "updated_at_ms"],
    .createIndex .ifNotExists .plain "runtime_agent_nodes_ready_idx" "runtime_agent_nodes"
      ["graph_id", "status", "depth", "created_at_ms"],
    .createTable .ifNotExists "runtime_agent_edges"
      ["graph_id", "predecessor_node_id", "dependent_node_id", "edge_kind"],
    .createTable .ifNotExists "runtime_mailbox"
      ["item_id", "graph_id", "sender_node_id", "recipient_node_id", "kind", "correlation_id",
      "sequence", "payload_ciphertext", "state", "created_at_ms", "delivered_at_ms",
      "acknowledged_at_ms"],
    .createIndex .ifNotExists .plain "runtime_mailbox_recipient_idx" "runtime_mailbox"
      ["recipient_node_id", "state", "sequence"],
    .createTable .ifNotExists "runtime_artifacts"
      ["artifact_id", "graph_id", "producer_node_id", "artifact_type", "payload_ciphertext",
      "source_versions_ciphertext", "verification_state", "sensitivity", "expires_at_ms",
      "created_at_ms"],
    .createTable .ifNotExists "runtime_agent_checkpoints"
      ["checkpoint_id", "graph_id", "node_id", "sequence", "state_ciphertext", "created_at_ms"],
    .createTable .ifNotExists "runtime_resource_locks"
      ["tenant_key", "resource_type", "resource_id", "graph_id", "owner_node_id",
      "expected_revision", "lease_expires_at_ms", "created_at_ms"],
    .createTable .ifNotExists "runtime_budget_ledger"
      ["graph_id", "node_id", "budget_kind", "maximum", "reserved", "consumed", "updated_at_ms"]]

def imSchema : List Statement :=
  [.createTable .ifNotExists "im_chats"
      ["tenant_key", "app_id", "chat_id", "name_ciphertext", "chat_mode", "enabled",
      "bot_member_state", "access_state", "last_reconciled_at_ms", "retention_policy_id",
      "purge_after_ms"],
    .createTable .ifNotExists "im_messages"
      ["tenant_key", "app_id", "message_id", "chat_id", "thread_id", "root_id", "parent_id",
      "sender_type", "sender_id", "sender_name_ciphertext", "message_type", "content_ciphertext",
      "mentions_ciphertext", "content_hash", "created_at_source_ms", "updated_at_source_ms",
      "is_recalled", "is_deleted", "schema_version", "last_reconciled_at_ms", "expires_at_ms"],
    .createIndex .ifNotExists .plain "im_messages_context_idx" "im_messages"
      ["tenant_key", "app_id", "chat_id", "created_at_source_ms", "message_id"],
    .createTable .ifNotExists "im_attachments"
      ["tenant_key", "app_id", "message_id", "resource_key", "chat_id", "resource_type",
      "filename_ciphertext", "media_type", "declared_size", "blob_id", "download_state",
      "parse_state", "parser_id", "parser_version", "parsed_content_ciphertext",
      "parsed_content_hash", "warning_code", "expires_at_ms"]]

def imBlobSchema : List Statement :=
  [.addColumn "im_attachments" "parsing_policy_version",
    .createTable .ifNotExists "im_file_blobs"
      ["blob_id", "byte_size", "media_type", "created_at_ms"],
    .createIndex .ifNotExists .plain "im_attachments_blob_idx" "im_attachments"
      ["blob_id"]]

def runControlSchema : List Statement :=
  [.createTable .ifNotExists "runtime_run_controls"
      ["control_id", "event_pk", "target_task_id", "session_key", "kind", "payload_ciphertext",
      "state", "created_at_ms", "applied_at_ms"],
    .createIndex .ifNotExists .plain "runtime_run_controls_target_idx" "runtime_run_controls"
      ["target_task_id", "state", "created_at_ms", "control_id"]]

def agentWriteScopeSchema : List Statement :=
  [.addColumn "runtime_agent_nodes" "requires_write_scope"]

def checkpointSourceSchema : List Statement :=
  [.createTable .ifNotExists "runtime_checkpoint_sources"
      ["run_id", "source_ref", "source_version"],
    .createIndex .ifNotExists .plain "runtime_checkpoint_sources_ref_idx"
      "runtime_checkpoint_sources" ["source_ref", "run_id"]]

def adminAuditSchema : List Statement :=
  [.createTable .ifNotExists "runtime_admin_audit"
      ["audit_id", "operation", "target_kind", "target_digest", "result_counts", "created_at_ms"]]

def approvalSchema : List Statement :=
  [.createTable .ifNotExists "runtime_approvals"
      ["approval_id", "task_id", "run_id", "tenant_key", "app_id", "session_key", "actor_id",
      "tool_id", "argument_digest", "state", "expires_at_ms", "created_at_ms", "decided_at_ms"],
    .createIndex .ifNotExists .plain "runtime_approvals_task_idx" "runtime_approvals"
      ["task_id", "state", "created_at_ms"]]

def mailboxIdempotencySchema : List Statement :=
  [.createIndex .ifNotExists .unique "runtime_mailbox_correlation_idx" "runtime_mailbox"
      ["graph_id", "sender_node_id", "recipient_node_id", "kind", "correlation_id"]]

def taskSchedulingSchema : List Statement :=
  [.addColumn "runtime_tasks" "tenant_key",
    .addColumn "runtime_tasks" "app_id",
    .addColumn "runtime_tasks" "group_id",
    .update "runtime_tasks" ["tenant_key", "app_id"],
    .createIndex .always .plain "runtime_tasks_scope_lease_idx" "runtime_tasks"
      ["state", "lease_expires_at_ms", "tenant_key", "app_id", "group_id"],
    .createTable .always "runtime_scheduler_state"
      ["singleton", "next_sequence"],
    .insertSchedulerState,
    .createTable .always "runtime_scheduler_lanes"
      ["scope_kind", "scope_key", "last_served_sequence", "updated_at_ms"]]

def traceBindingSchema : List Statement :=
  [.addColumn "runtime_runs" "trace_id",
    .addColumn "runtime_graphs" "trace_id",
    .addColumn "runtime_approvals" "trace_id",
    .update "runtime_runs" ["trace_id"],
    .update "runtime_graphs" ["trace_id"],
    .update "runtime_approvals" ["trace_id"],
    .createIndex .always .plain "runtime_runs_trace_idx" "runtime_runs"
      ["trace_id", "created_at_ms"],
    .createIndex .always .plain "runtime_graphs_trace_idx" "runtime_graphs"
      ["trace_id", "created_at_ms"],
    .createIndex .always .plain "runtime_approvals_trace_idx" "runtime_approvals"
      ["trace_id", "created_at_ms"]]

/-- `MIGRATIONS`. -/
def migrations : List (Nat × List Statement) :=
  [(1, initialSchema), (2, sessionSchema), (3, multiAgentSchema), (4, imSchema), (5, imBlobSchema),
    (6, runControlSchema), (7, agentWriteScopeSchema), (8, checkpointSourceSchema),
    (9, adminAuditSchema), (10, approvalSchema), (11, mailboxIdempotencySchema),
    (12, taskSchedulingSchema), (13, traceBindingSchema)]

/-- The first statement of `_migrate`. -/
def createMigrations : Statement :=
  .createTable .ifNotExists "runtime_migrations" ["version", "checksum", "applied_at_ms"]

/-- The loop of `_migrate`; `digest` is the SHA-256 of the text of a script. -/
def migrateAll (digest : List Statement → String) :
    List (Nat × List Statement) → SchemaDatabase → Except PyError SchemaDatabase
  | [], db => .ok db
  | (version, script) :: rest, db =>
      match db.checksum? version with
      | some checksum =>
          if checksum ≠ digest script then
            .error (.runtimeError "database migration checksum mismatch")
          else migrateAll digest rest db
      | none => do
          let db ← runScript (script ++ [.insertMigration version (digest script)]) db
          migrateAll digest rest db

/-- `_migrate`. -/
def migrate (digest : List Statement → String) (db : SchemaDatabase) :
    Except PyError SchemaDatabase := do
  let db ← createMigrations.exec db
  migrateAll digest migrations db

/-- The statements that the loop executes on this database. -/
def pending (digest : List Statement → String) (all : List (Nat × List Statement))
    (db : SchemaDatabase) : List Statement :=
  all.flatMap fun (version, script) =>
    if (db.checksum? version).isSome then [] else script ++ [.insertMigration version (digest script)]

/-- A database at a schema version, with the rows of its mailbox if it has one. -/
def databaseAt (digest : List Statement → String) (version : Nat) (mailbox : List MailCorrelation) :
    SchemaDatabase :=
  match migrateAll digest (migrations.take version) {} with
  | .ok db => { db with mailbox := if db.hasTable "runtime_mailbox" then mailbox else [] }
  | .error _ => {}

/-- The statements of an opening of this database. -/
def openStatements (digest : List Statement → String) (db : SchemaDatabase) : List Statement :=
  createMigrations :: pending digest migrations db

end Migrations

end Codex2Lark
