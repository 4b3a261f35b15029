import Codex2Lark.Im.Mirror
import Codex2Lark.Storage.AgentStore
import Codex2Lark.Storage.Idempotency

/-!
The whole database file, as `storage/maintenance.py` sees it: the runtime tables and the mirror,
the idempotency journal and the tables of the multi-agent schema. The schema version, the plugins
and the audit log, which no statement here reads, are left out.
-/

namespace Codex2Lark

open Lib Idempotency

structure AgentCheckpointRow where
  checkpointId : String
  graphId : String
  nodeId : String
  sequence : Nat
  createdAtMs : Int
deriving DecidableEq, Repr

/-- `artifactExpiry` is the column `expires_at_ms` of `runtime_artifacts`, for the artifacts that
have a date there. -/
structure StorageDatabase where
  mirror : MirrorDatabase := {}
  idempotency : List IdempotencyRow := []
  agents : GraphDatabase := {}
  agentCheckpoints : List AgentCheckpointRow := []
  artifactExpiry : List (String × Int) := []
deriving DecidableEq, Repr

/-- A row of one of the tables. -/
inductive StoredRow where
  | event (row : EventRow)
  | task (row : TaskRow)
  | run (row : RunRow)
  | runEvent (row : RunEventRow)
  | control (row : ControlRow)
  | approval (row : ApprovalRow)
  | outbox (row : OutboxRow)
  | checkpoint (row : CheckpointRow)
  | checkpointSource (row : CheckpointSourceRow)
  | lane (row : LaneRow)
  | idempotency (row : IdempotencyRow)
  | graph (row : GraphRow)
  | node (row : NodeRow)
  | edge (row : EdgeRow)
  | ledger (row : LedgerRow)
  | lock (row : LockRow)
  | artifact (row : ArtifactRow)
  | mail (row : MailboxItem)
  | agentCheckpoint (row : AgentCheckpointRow)
  | chat (row : ChatRow)
  | message (row : MessageRow)
  | attachment (row : AttachmentRow)
  | fileBlob (row : FileBlobRow)
deriving DecidableEq, Repr

namespace StorageDatabase

def Has (db : StorageDatabase) : StoredRow → Prop
  | .event row => row ∈ db.mirror.runtime.events
  | .task row => row ∈ db.mirror.runtime.tasks
  | .run row => row ∈ db.mirror.runtime.runs
  | .runEvent row => row ∈ db.mirror.runtime.runEvents
  | .control row => row ∈ db.mirror.runtime.controls
  | .approval row => row ∈ db.mirror.runtime.approvals
  | .outbox row => row ∈ db.mirror.runtime.outbox
  | .checkpoint row => row ∈ db.mirror.runtime.checkpoints
  | .checkpointSource row => row ∈ db.mirror.runtime.checkpointSources
  | .lane row => row ∈ db.mirror.runtime.lanes
  | .idempotency row => row ∈ db.idempotency
  | .graph row => row ∈ db.agents.graphs
  | .node row => row ∈ db.agents.nodes
  | .edge row => row ∈ db.agents.edges
  | .ledger row => row ∈ db.agents.ledger
  | .lock row => row ∈ db.agents.locks
  | .artifact row => row ∈ db.agents.artifacts
  | .mail row => row ∈ db.agents.mailbox
  | .agentCheckpoint row => row ∈ db.agentCheckpoints
  | .chat row => row ∈ db.mirror.chats
  | .message row => row ∈ db.mirror.messages
  | .attachment row => row ∈ db.mirror.attachments
  | .fileBlob row => row ∈ db.mirror.fileBlobs

instance (db : StorageDatabase) : DecidablePred db.Has
  | .event row => inferInstanceAs (Decidable (row ∈ db.mirror.runtime.events))
  | .task row => inferInstanceAs (Decidable (row ∈ db.mirror.runtime.tasks))
  | .run row => inferInstanceAs (Decidable (row ∈ db.mirror.runtime.runs))
  | .runEvent row => inferInstanceAs (Decidable (row ∈ db.mirror.runtime.runEvents))
  | .control row => inferInstanceAs (Decidable (row ∈ db.mirror.runtime.controls))
  | .approval row => inferInstanceAs (Decidable (row ∈ db.mirror.runtime.approvals))
  | .outbox row => inferInstanceAs (Decidable (row ∈ db.mirror.runtime.outbox))
  | .checkpoint row => inferInstanceAs (Decidable (row ∈ db.mirror.runtime.checkpoints))
  | .checkpointSource row => inferInstanceAs (Decidable (row ∈ db.mirror.runtime.checkpointSources))
  | .lane row => inferInstanceAs (Decidable (row ∈ db.mirror.runtime.lanes))
  | .idempotency row => inferInstanceAs (Decidable (row ∈ db.idempotency))
  | .graph row => inferInstanceAs (Decidable (row ∈ db.agents.graphs))
  | .node row => inferInstanceAs (Decidable (row ∈ db.agents.nodes))
  | .edge row => inferInstanceAs (Decidable (row ∈ db.agents.edges))
  | .ledger row => inferInstanceAs (Decidable (row ∈ db.agents.ledger))
  | .lock row => inferInstanceAs (Decidable (row ∈ db.agents.locks))
  | .artifact row => inferInstanceAs (Decidable (row ∈ db.agents.artifacts))
  | .mail row => inferInstanceAs (Decidable (row ∈ db.agents.mailbox))
  | .agentCheckpoint row => inferInstanceAs (Decidable (row ∈ db.agentCheckpoints))
  | .chat row => inferInstanceAs (Decidable (row ∈ db.mirror.chats))
  | .message row => inferInstanceAs (Decidable (row ∈ db.mirror.messages))
  | .attachment row => inferInstanceAs (Decidable (row ∈ db.mirror.attachments))
  | .fileBlob row => inferInstanceAs (Decidable (row ∈ db.mirror.fileBlobs))

/-- A transaction of the mirror. -/
def mirrored (db : StorageDatabase) (op : MirrorOp) : StorageDatabase :=
  { db with mirror := op.apply db.mirror }

end StorageDatabase

end Codex2Lark
