import KvStore.Network.Lines
import KvStore.Network.Rdma
import KvStore.Server.Boot

/-!
# Replication on a primary

The callbacks of `src/replication/replication.c` that run on a primary: the
lines of a replica, the stream that the network layer polls, and the end of a
connection. Streaming only reads the log and changes nothing but the manager.
-/

namespace KvStore

open Lib

/-- What a stream callback returns: a failure, bytes to send (none of them is
`0`), or `KVS_STREAM_WAIT`. -/
inductive Streamed
  | failed
  | sent (bytes : Bytes)
  | wait
  deriving DecidableEq, Repr

/-- `kvs_replication_rdma_sync_close`: whether the connection is closed. -/
def RdmaSync.close (sync : RdmaSync) (env : RdmaAnswers) : Bool × RdmaSync :=
  match sync.connection.bind (·.close env) with
  | some c => (false, { sync with connection := some c })
  | none => (true, .start)

/-- `kvs_snapshot_reader_open`, on a file of the expected size. -/
def kvsSnapshotReaderOpen (disk : Disk) (path : Path) (expectedSize : Nat) : Option SnapshotReader :=
  if expectedSize = 0 then none
  else
    match disk path with
    | none => none
    | some file => if file.length ≠ expectedSize then none else some ⟨file, expectedSize⟩

/-- `kvs_snapshot_reader_read`: a piece and the reader behind it. `read` returns
between one byte and all that were asked for; `got` says how many it would
return. -/
def kvsSnapshotReaderRead (reader : SnapshotReader) (outputCapacity got : Nat) :
    Option (Bytes × SnapshotReader) :=
  if outputCapacity = 0 then none
  else if reader.remaining = 0 then some ([], reader)
  else
    let readSize := min outputCapacity reader.remaining
    let result := (reader.data.take readSize).take (max got 1)
    if result.length = 0 then none
    else some (result, ⟨reader.data.drop result.length, reader.remaining - result.length⟩)

-- ---------------------------------------------------------------------------
-- The full synchronisation
-- ---------------------------------------------------------------------------

/-- `kvs_replication_rdma_send_snapshot_chunk`. -/
def sendSnapshotChunk (env : RdmaAnswers) (got : Nat) (m : ReplicationManager) :
    Streamed × ReplicationManager :=
  if m.rdmaSync.sendPending then (.wait, m)
  else if ¬env.chunkMemory then (.failed, m)
  else
    match m.snapshotReader.bind (kvsSnapshotReaderRead · rdmaBufferCapacity got) with
    | none => (.failed, m)
    | some (chunk, reader) =>
      let m := { m with snapshotReader := some reader }
      if chunk.length = 0 then (.failed, m)
      else
        match m.rdmaSync.connection.bind (·.send env chunk) with
        | none => (.failed, m)
        | some c =>
          (.wait, { m with rdmaSync := { m.rdmaSync with
            connection := some c, sendPending := true
            snapshotBytes := m.rdmaSync.snapshotBytes + chunk.length } })

def readyMessage (id : Bytes) : Bytes := ascii "READY " ++ id ++ ascii "\r\n"

/-- `"SNAPSHOT_ACK %lld\r\n"`. -/
def ackMessage (bytes : Nat) : Bytes := ascii "SNAPSHOT_ACK " ++ writeDecimal bytes ++ ascii "\r\n"

def messageCapacity : Nat := 64

/-- A message of the replica: `READY` before the first chunk, and then the
acknowledgement of all bytes sent. -/
def primaryReceive (env : RdmaAnswers) (got : Nat) (data : Bytes) (m : ReplicationManager) :
    Streamed × ReplicationManager :=
  let sync := m.rdmaSync
  if 0 < sync.snapshotBytes then
    let expected := ackMessage sync.snapshotBytes
    if expected.length ≥ messageCapacity ∨ sync.acknowledgedBytes ≥ sync.snapshotBytes ∨
        data ≠ expected then (.failed, m)
    else
      match sync.connection.bind (·.receiveNext env) with
      | none => (.failed, m)
      | some c =>
        (.wait, { m with rdmaSync := { sync with
          connection := some c, acknowledgedBytes := sync.snapshotBytes } })
  else
    let expected := readyMessage m.fullSyncId
    if expected.length ≥ messageCapacity ∨ data ≠ expected then (.failed, m)
    else
      match sync.connection.bind (·.receiveNext env) with
      | none => (.failed, m)
      | some c => sendSnapshotChunk env got { m with rdmaSync := { sync with connection := some c } }

/-- The step of `kvs_replication_stream` on the data of a full synchronisation. -/
def fullSyncStep (env : RdmaAnswers) (got : Nat) (m : ReplicationManager) :
    Streamed × ReplicationManager :=
  let sync := m.rdmaSync
  if sync.disconnectPending ∨ ¬sync.established then (.wait, m)
  else if ¬sync.sendPending ∧ 0 < sync.snapshotBytes ∧
      sync.acknowledgedBytes = sync.snapshotBytes ∧ m.snapshotReader.isSome then
    if m.snapshotReader.any (0 < ·.remaining) then sendSnapshotChunk env got m
    else if sync.connection.any (·.disconnect env) then
      (.wait, { m with
        rdmaSync := { sync with disconnectPending := true }
        snapshotReader := none })
    else (.failed, m)
  else
    match sync.connection.bind (·.pollCompletion env) with
    | none => (.failed, m)
    | some none => (.wait, m)
    | some (some (.send, c)) =>
      (.wait, { m with rdmaSync := { sync with connection := some c, sendPending := false } })
    | some (some (.recv data, c)) =>
      primaryReceive env got data { m with rdmaSync := { sync with connection := some c } }
    | some (some (.invalid, _)) => (.failed, m)

/-- `kvs_replication_primary_start_catch_up`: whether the log can be read from
the checkpoint on. -/
def kvsReplicationPrimaryStartCatchUp (disk : Disk) (latest : Option Nat) (m : ReplicationManager) :
    Bool × ReplicationManager :=
  let m := { m with snapshotReader := none }
  match latest with
  | none => (false, m)
  | some catchUpEnd =>
    if catchUpEnd < m.replicationOffset then (false, m)
    else
      match kvsAofReaderOpen disk .appendonlyAof m.replicationOffset catchUpEnd with
      | none => (false, { m with aofReader := none })
      | some reader => (true, { m with aofReader := some reader, state := .catchUp })

/-- The poll of the listener in `kvs_replication_stream`: whether the stream can
go on. -/
def fullSyncEvent (disk : Disk) (latest : Option Nat) (env : RdmaAnswers) (m : ReplicationManager) :
    Bool × ReplicationManager :=
  if m.rdmaCleanupConnection.isSome then (false, m)
  else
    let poll := kvsRdmaListenerPoll env m.rdmaSync.connection
    let m := { m with rdmaSync := { m.rdmaSync with connection := poll.connection } }
    match poll.result with
    | none => (false, if poll.leftover.isSome then { m with rdmaCleanupConnection := poll.leftover } else m)
    | some (some .disconnected) =>
      let finished := m.rdmaSync
      if ¬finished.disconnectPending ∨ finished.sendPending ∨
          (finished.snapshotBytes : Int) ≠ m.snapshotFileSize ∨
          finished.acknowledgedBytes ≠ finished.snapshotBytes then (false, m)
      else
        let (closed, sync) := finished.close env
        let m := { m with rdmaSync := sync }
        if closed then kvsReplicationPrimaryStartCatchUp disk latest m else (false, m)
    | some (some .established) =>
      (true, { m with rdmaSync := { m.rdmaSync with established := true } })
    | some _ => (true, m)

-- ---------------------------------------------------------------------------
-- The log
-- ---------------------------------------------------------------------------

def onlineLine (offset : Nat) : Bytes := ascii "ONLINE " ++ writeDecimal offset ++ ascii "\r\n"

def streamOnline (disk : Disk) (latest : Option Nat) (outputCapacity got : Nat)
    (m : ReplicationManager) : Streamed × ReplicationManager :=
  if m.state ≠ .online then (.sent [], m)
  else
    match latest with
    | none => (.failed, m)
    | some latest =>
      if latest < m.replicationOffset then (.failed, m)
      else if latest = m.replicationOffset then (.wait, m)
      else
        match kvsAofReaderOpen disk .appendonlyAof m.replicationOffset latest with
        | none => (.failed, { m with aofReader := none })
        | some reader =>
          match kvsAofReaderRead disk .appendonlyAof reader outputCapacity got with
          | none => (.failed, { m with aofReader := none })
          | some (chunk, reader) =>
            if chunk.length = 0 then (.failed, { m with aofReader := none })
            else (.sent chunk, { m with aofReader := some reader })

/-- The loop of `kvs_replication_stream` over ranges of the log. A range that is
opened in the loop is not empty, so there are at most two rounds. -/
def streamLog (disk : Disk) (latest : Option Nat) (outputCapacity got : Nat) :
    Nat → ReplicationManager → Except Stop (Streamed × ReplicationManager)
  | rounds, m =>
    match m.aofReader with
    | none => .ok (streamOnline disk latest outputCapacity got m)
    | some reader =>
      match rounds with
      | 0 => .error .fuel
      | rounds + 1 =>
        match kvsAofReaderRead disk .appendonlyAof reader outputCapacity got with
        | none => .ok (.failed, { m with aofReader := none })
        | some (chunk, reader) =>
          if chunk.length > 0 then .ok (.sent chunk, { m with aofReader := some reader })
          else
            let sentOffset := reader.offset
            let m := { m with aofReader := none }
            match latest with
            | none => .ok (.failed, m)
            | some latestOffset =>
              if latestOffset < sentOffset then .ok (.failed, m)
              else if latestOffset > sentOffset then
                match kvsAofReaderOpen disk .appendonlyAof sentOffset latestOffset with
                | none => .ok (.failed, m)
                | some reader =>
                  streamLog disk latest outputCapacity got rounds { m with aofReader := some reader }
              else
                let m := { m with replicationOffset := sentOffset }
                if m.state = .online then .ok (.wait, m)
                else
                  let line := onlineLine sentOffset
                  if line.length ≥ outputCapacity then .ok (.failed, m)
                  else .ok (.sent line, { m with state := .online })

/-- `kvs_replication_stream`, for a connection and the space for its output. -/
def kvsReplicationStream (connectionFd outputCapacity got : Nat) (env : RdmaAnswers) :
    Serve Streamed := do
  let s ← get
  let m := s.replication
  if ¬m.initialized ∨ m.role ≠ .primary ∨ outputCapacity = 0 then return .failed
  else if m.snapshotConnectionFd ≠ some connectionFd then return .sent []
  else
    let (goesOn, m) := if m.state = .fullSync then fullSyncEvent s.disk s.aofOffset env m else (true, m)
    let (result, m) ←
      if ¬goesOn then pure (.failed, m)
      else if m.state = .fullSync then pure (fullSyncStep env got m)
      else liftM (streamLog s.disk s.aofOffset outputCapacity got 2 m)
    set { s with replication := m }
    return result

-- ---------------------------------------------------------------------------
-- Lines and connections
-- ---------------------------------------------------------------------------

def response (capacity : Nat) (text : Bytes) : Option Bytes :=
  if text.length ≥ capacity then none else some text

/-- `"FULLRESYNC_RDMA %s %lld %lld %u %s\r\n"`. -/
def fullResyncLine (m : ReplicationManager) : Bytes :=
  ascii "FULLRESYNC_RDMA " ++ m.replicationId ++ ascii " " ++ writeDecimal m.replicationOffset ++
    ascii " " ++ writeDecimal m.snapshotFileSize.toNat ++ ascii " " ++ writeDecimal m.rdmaPort ++
    ascii " " ++ m.fullSyncId ++ ascii "\r\n"

/-- The `PSYNC` branch of `kvs_replication_frame_protocol`. -/
def startFullSync (connectionFd capacity : Nat) (random : Option Bytes) : Serve (Option Bytes) := do
  let s ← get
  let m := s.replication
  if ¬m.initialized ∨ m.role ≠ .primary ∨ m.replicationId = [] then return none
  else if m.snapshotConnectionFd.isSome ∨ m.rdmaSync.connection.isSome ∨
      m.rdmaCleanupConnection.isSome then return none
  else
    match s.aofOffset with
    | none => return none
    | some offset =>
      match ← onRuntime (kvsSnapshotStoreSaveWithCheckpoint s.engines (some ⟨true, offset⟩)) with
      | none => return none
      | some file =>
        modify fun s => { s with disk := s.disk.write .replicationSnapshot file }
        let s ← get
        if file.length = 0 then return none
        else
          let m := { m with aofReader := none }
          match kvsSnapshotReaderOpen s.disk .replicationSnapshot file.length with
          | none =>
            set { s with replication := { m with snapshotReader := none } }
            return none
          | some reader =>
            let m := { m with snapshotReader := some reader }
            match kvsReplicationGenerateId random with
            | none =>
              set { s with replication := m }
              return none
            | some id =>
              let m := { m with
                fullSyncId := id, replicationOffset := offset, snapshotFileSize := file.length
                snapshotConnectionFd := some connectionFd, state := .fullSync }
              set { s with replication := m }
              return response capacity (fullResyncLine m)

def kvsReplicationFrameProtocol (connectionFd : Nat) (random : Option Bytes) (frame : Bytes)
    (capacity : Nat) : Serve (Option Bytes) :=
  if frame.length = 0 ∨ capacity = 0 then return none
  else if frame = ascii "PING" then return response capacity (ascii "PONG\r\n")
  else if frame = ascii "PSYNC ? -1" then startFullSync connectionFd capacity random
  else return response capacity (ascii "ERROR unknown replication command\r\n")

def kvsReplicationNetworkProtocol (connectionFd : Nat) (random : Option Bytes) (msg : Bytes)
    (capacity : Nat) : Serve (Option (Bytes × Nat)) :=
  kvsLineBatchProtocol (kvsReplicationFrameProtocol connectionFd random) msg capacity

def kvsReplicationOnReplicaDisconnected (connectionFd : Nat) (env : RdmaAnswers) : Serve Unit :=
  modify fun s =>
    let m := s.replication
    if ¬m.initialized ∨ m.role ≠ .primary ∨ m.snapshotConnectionFd ≠ some connectionFd then s
    else
      { s with replication := { m with
        rdmaSync := (m.rdmaSync.close env).2
        fullSyncId := []
        snapshotReader := none
        aofReader := none
        snapshotConnectionFd := none
        snapshotFileSize := -1
        state := .disconnected } }

end KvStore
