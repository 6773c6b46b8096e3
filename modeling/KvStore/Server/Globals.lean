import KvStore.Engines.Store
import KvStore.Persistence.Disk

/-!
# The state of a server process

What the source keeps in static variables: the engines, the open AOF, the role
and the persistence mode, and the replication manager; with the run-time
environment and the working directory. A command of the server is a program
over this state.
-/

namespace KvStore

open Lib

inductive Role
  | standalone
  | primary
  | replica
  deriving DecidableEq, Repr

inductive PersistenceMode
  | legacyHybrid
  | snapshot
  | aof
  deriving DecidableEq, Repr

inductive CommandSource
  | client
  | recovery
  | replication
  deriving DecidableEq, Repr

inductive ReplicationState
  | disconnected
  | connecting
  | handshake
  | fullSync
  | catchUp
  | online
  deriving DecidableEq, Repr

/-- `aof_writer`, while `fd` is open on a file; `ring` says whether `io` is
initialized. -/
structure AofWriter where
  path : Path
  offset : Nat
  ring : Bool
  deriving DecidableEq, Repr

/-- `kvs_aof_reader_t`, while its `fd` is open. -/
structure AofReader where
  offset : Nat
  remaining : Nat
  deriving DecidableEq, Repr

/-- `kvs_snapshot_reader_t`, while its `fd` is open: what is left of the file. A
file that is replaced while it is open keeps its bytes for the reader. -/
structure SnapshotReader where
  data : Bytes
  remaining : Nat
  deriving DecidableEq, Repr

/-- `kvs_snapshot_writer_t`, while its `fd` is open on the temporary file. -/
structure SnapshotReceiver where
  remaining : Nat
  deriving DecidableEq, Repr

/-- `kvs_rdma_connection_t`: the CM identifier, whether a deadline for connecting
is set, an event that is not yet acknowledged, and what is under way once queues
and buffers are there. `sent` is what was handed to the send queue, oldest
first. -/
structure RdmaConnection where
  cmId : Option Nat
  deadline : Bool
  pendingCmEvent : Bool
  prepared : Bool
  sendPending : Bool
  recvPending : Bool
  sent : List Bytes
  deriving DecidableEq, Repr

/-- `kvs_replication_rdma_sync_t`. -/
structure RdmaSync where
  connection : Option RdmaConnection
  established : Bool
  snapshotBytes : Nat
  acknowledgedBytes : Nat
  sendPending : Bool
  disconnectPending : Bool
  deriving DecidableEq, Repr

def RdmaSync.start : RdmaSync := ⟨none, false, 0, 0, false, false⟩

/-- `kvs_replication_manager_t`, but for the listener and the handlers, which
do not change while the server runs. -/
structure ReplicationManager where
  initialized : Bool
  role : Role
  state : ReplicationState
  rdmaSync : RdmaSync
  /-- An extra connection that could not be closed. -/
  rdmaCleanupConnection : Option RdmaConnection
  rdmaPort : Nat
  primaryRdmaPort : Nat
  replicationOffset : Nat
  /-- `-1` when it is not known. -/
  snapshotFileSize : Int
  snapshotReader : Option SnapshotReader
  aofReader : Option AofReader
  snapshotWriter : Option SnapshotReceiver
  /-- The connection the primary streams to. -/
  snapshotConnectionFd : Option Nat
  replicationId : Bytes
  fullSyncId : Bytes
  primaryHost : Bytes
  primaryPort : Nat
  /-- The connection of a replica to its primary. -/
  primaryConnectionFd : Option Nat
  deriving DecidableEq, Repr

/-- The manager before `kvs_replication_init`. -/
def ReplicationManager.start : ReplicationManager where
  initialized := false
  role := .standalone
  state := .disconnected
  rdmaSync := .start
  rdmaCleanupConnection := none
  rdmaPort := 0
  primaryRdmaPort := 0
  replicationOffset := 0
  snapshotFileSize := -1
  snapshotReader := none
  aofReader := none
  snapshotWriter := none
  snapshotConnectionFd := none
  replicationId := []
  fullSyncId := []
  primaryHost := []
  primaryPort := 0
  primaryConnectionFd := none

structure Server where
  rt : Runtime
  engines : Engines
  disk : Disk
  io : FileIo
  aofWriter : Option AofWriter
  role : Role
  persistenceMode : PersistenceMode
  replication : ReplicationManager

abbrev Serve (α : Type) := Program Server Stop α

def onRuntime (m : Run α) : Serve α := zoom (·.rt) (fun rt s => { s with rt }) m

theorem onRuntime_triple {s : Server} {m : Run α} {Q : α → Server → Prop} {D : Stop → Prop}
    (h : Triple m s.rt (fun a rt => Q a { s with rt }) D) : Triple (onRuntime m) s Q D := by
  unfold onRuntime
  exact Triple.zoom h

theorem onRuntime_bind {s : Server} {m : Run α} {f : α → Serve β} {P : α → Runtime → Prop}
    {R : β → Server → Prop} {D : Stop → Prop} (hm : Triple m s.rt P Never)
    (hf : ∀ a rt', P a rt' → Triple (f a) { s with rt := rt' } R D) :
    Triple (onRuntime m >>= f) s R D := by
  have hstep : Triple (onRuntime m) s (fun a s' => ∃ rt', s' = { s with rt := rt' } ∧ P a rt') D :=
    onRuntime_triple (hm.mono (fun a rt' h => ⟨rt', rfl, h⟩) fun _ h => h.elim)
  refine hstep.bind fun a s' h => ?_
  obtain ⟨rt', rfl, hP⟩ := h
  exact hf a rt' hP

def fileRequest (request : FileRequest) : Serve (Option FileFailure) := fun s =>
  .ok (s.io.fails s.io.requests.length, { s with io := s.io.ask request })

theorem fileRequest_bind {s : Server} {request : FileRequest} {f : Option FileFailure → Serve β}
    {R : β → Server → Prop} {D : Stop → Prop}
    (hgood : s.io.fails s.io.requests.length = none →
      Triple (f none) { s with io := s.io.ask request } R D)
    (hbad : ∀ failure, s.io.fails s.io.requests.length = some failure →
      Triple (f (some failure)) { s with io := s.io.ask request } R D) :
    Triple (fileRequest request >>= f) s R D := by
  have hstep : Triple (fileRequest request) s (fun r s' => r = s.io.fails s.io.requests.length ∧
      s' = { s with io := s.io.ask request }) D := ⟨rfl, rfl⟩
  refine hstep.bind fun r s' h => ?_
  obtain ⟨rfl, rfl⟩ := h
  cases hr : s.io.fails s.io.requests.length with
  | none => exact hgood hr
  | some failure => exact hbad failure hr

/-- `kvs_replication_is_online`. -/
def Server.isOnline (s : Server) : Bool :=
  s.replication.initialized && s.replication.role == .replica &&
    s.replication.primaryConnectionFd.isSome && s.replication.state == .online

end KvStore
