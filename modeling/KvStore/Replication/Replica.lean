import KvStore.Lib.Scanf
import KvStore.Network.LineFraming
import KvStore.Replication.Primary

/-!
# Replication on a replica

The callbacks of `src/replication/replication.c` that run on a replica, and
`kvs_install_replication_snapshot` of `src/kvstore.c`: the handshake with the
primary, the snapshot that arrives over RDMA, and the commands of its log that
follow it.
-/

namespace KvStore

open Lib

/-- How far `kvs_rdma_connection_start` comes: not to an object, not to an
identifier, not to the request for the address, or all the way. -/
inductive RdmaStart
  | refused
  | noIdentifier
  | unresolved (id : Nat)
  | resolving (id : Nat)
  deriving DecidableEq, Repr

/-- `kvs_rdma_connection_start`: whether it succeeded, and the connection. -/
def kvsRdmaConnectionStart (answer : RdmaStart) (connection : Option RdmaConnection) :
    Bool × Option RdmaConnection :=
  match connection, answer with
  | some c, _ => (false, some c)
  | none, .refused => (false, none)
  | none, .noIdentifier => (false, some { RdmaConnection.blank with deadline := true })
  | none, .unresolved id =>
    (false, some { RdmaConnection.blank with cmId := some id, deadline := true })
  | none, .resolving id =>
    (true, some { RdmaConnection.blank with cmId := some id, deadline := true })

-- ---------------------------------------------------------------------------
-- The snapshot that is received
-- ---------------------------------------------------------------------------

def kvsSnapshotWriterAbort : Serve Unit :=
  modify fun s => { s with
    disk := s.disk.unlink .replicationTemp
    replication := { s.replication with snapshotWriter := none } }

/-- `kvs_snapshot_writer_open` for a positive size. -/
def kvsSnapshotWriterOpen (expectedSize : Nat) : Serve Unit :=
  modify fun s => { s with
    disk := s.disk.write .replicationTemp []
    replication := { s.replication with snapshotWriter := some ⟨expectedSize⟩ } }

/-- `kvs_snapshot_writer_write`: how many bytes it took. A failure may leave the
beginning of them in the file. -/
def kvsSnapshotWriterWrite (data : Bytes) : Serve (Option Nat) := do
  let s ← get
  match s.replication.snapshotWriter with
  | none => return none
  | some writer =>
    if data.length = 0 then return none
    else if writer.remaining = 0 then return some 0
    else
      let chunk := data.take writer.remaining
      let file := (s.disk .replicationTemp).getD []
      match ← fileRequest (.write .replicationTemp file.length chunk) with
      | some failure =>
        modify fun s => { s with
          disk := s.disk.write .replicationTemp (file ++ chunk.take failure.written) }
        return none
      | none =>
        modify fun s => { s with
          disk := s.disk.write .replicationTemp (file ++ chunk)
          replication := { s.replication with
            snapshotWriter := some ⟨writer.remaining - chunk.length⟩ } }
        return some chunk.length

/-- `kvs_snapshot_writer_commit`: whether the file took its place. The descriptor
is gone in any case. -/
def kvsSnapshotWriterCommit : Serve Bool := do
  let s ← get
  match s.replication.snapshotWriter with
  | none => return false
  | some writer =>
    if writer.remaining ≠ 0 then return false
    else
      let synced ← fileRequest (.sync .replicationTemp)
      let closed ← fileRequest (.close .replicationTemp)
      modify fun s => { s with replication := { s.replication with snapshotWriter := none } }
      if synced.isSome ∨ closed.isSome then return false
      else
        match ← fileRequest (.rename .replicationTemp .snapshotDb) with
        | some _ => return false
        | none =>
          modify fun s => { s with
            disk := (s.disk.unlink .replicationTemp).write .snapshotDb
              ((s.disk .replicationTemp).getD []) }
          return true

def destKvengine (engines : Engines) : Run Engines := do
  let array ← kvsArrayDestory (engines .array)
  let rbtree ← kvsRbtreeDestory (engines .rbtree)
  let hash ← kvsHashDestory (engines .hash)
  let skiplist ← kvsSkiplistDestory (engines .skiplist)
  return fun
    | .array => array
    | .rbtree => rbtree
    | .hash => hash
    | .skiplist => skiplist

/-- The engines destroyed and created again; without memory the process ends. -/
def recreateEngines : Serve Unit := do
  let s ← get
  let engines ← onRuntime (destKvengine s.engines)
  modify fun s => { s with engines }
  match ← onRuntime initKvengine with
  | none => throw .exit
  | some engines => modify fun s => { s with engines }

def kvsInstallReplicationSnapshot (path : Path) (aofOffset : Nat) : Serve Bool := do
  recreateEngines
  let (result, checkpoint) ← loadSnapshot path
  if result ≠ 0 ∨ checkpoint.hasOffset = false ∨ checkpoint.offset ≠ aofOffset then
    recreateEngines
    return false
  else
    let reset ← kvsAofResetToOffset aofOffset
    if reset < 0 then
      recreateEngines
      return false
    else return true

def kvsReplicationFinishFullSync : Serve Bool := do
  let s ← get
  if s.replication.state ≠ .fullSync ∨ s.replication.snapshotWriter.any (0 < ·.remaining) then
    return false
  else if ← kvsSnapshotWriterCommit then
    if ← kvsInstallReplicationSnapshot .snapshotDb s.replication.replicationOffset then
      modify fun s => { s with replication := { s.replication with state := .catchUp } }
      return true
    else return false
  else
    kvsSnapshotWriterAbort
    return false

/-- `kvs_replication_receive_snapshot_data`: how many bytes were taken. -/
def kvsReplicationReceiveSnapshotData (connectionFd : Nat) (data : Bytes) : Serve (Option Nat) := do
  let s ← get
  let m := s.replication
  if ¬m.initialized ∨ m.role ≠ .replica ∨ m.primaryConnectionFd ≠ some connectionFd ∨
      m.state ≠ .fullSync ∨ data.length = 0 then return none
  else
    match ← kvsSnapshotWriterWrite data with
    | none => return none
    | some written =>
      let s ← get
      if s.replication.snapshotWriter.any (0 < ·.remaining) then return some written
      else if ← kvsReplicationFinishFullSync then return some written
      else return none

-- ---------------------------------------------------------------------------
-- Lines of the primary
-- ---------------------------------------------------------------------------

def isLowerHex (b : UInt8) : Bool := (48 ≤ b && b ≤ 57) || (97 ≤ b && b ≤ 102)

/-- `"FULLRESYNC_RDMA %40[0-9a-f] %lld %lld %5u %40[0-9a-f]%n"`. -/
def fullResyncFormat : List Scanf.Directive :=
  (ascii "FULLRESYNC_RDMA").map .char ++
    [.space, .set kvsReplicationIdHexLength isLowerHex, .space, .signed, .space, .signed, .space,
      .unsigned 5, .space, .set kvsReplicationIdHexLength isLowerHex, .count]

/-- What a `FULLRESYNC_RDMA` line announces. -/
structure FullResync where
  replicationId : Bytes
  offset : Int
  snapshotFileSize : Int
  rdmaPort : Nat
  fullSyncId : Bytes
  deriving DecidableEq, Repr

/-- The scan of a `FULLRESYNC_RDMA` line and its checks. -/
def scanFullResync (frame : Bytes) (frameLength : Nat) : Option FullResync :=
  match Scanf.sscanf frame fullResyncFormat with
  | [.text replicationId, .int offset, .int size, .nat port, .text fullSyncId, .count parsedLength] =>
    if parsedLength ≠ frameLength ∨ replicationId.length ≠ kvsReplicationIdHexLength ∨
        fullSyncId.length ≠ kvsReplicationIdHexLength ∨ offset < 0 ∨ size ≤ 0 ∨ port = 0 ∨
        port > 65535 then none
    else some ⟨replicationId, offset, size, port, fullSyncId⟩
  | _ => none

/-- The step of the handshake that a `FULLRESYNC_RDMA` line starts. -/
def beginFullSync (start : RdmaStart) (r : FullResync) : Serve (Option Bytes) := do
  kvsSnapshotWriterAbort
  kvsSnapshotWriterOpen r.snapshotFileSize.toNat
  let s ← get
  let (started, connection) := kvsRdmaConnectionStart start s.replication.rdmaSync.connection
  let m := { s.replication with
    replicationId := r.replicationId
    primaryRdmaPort := r.rdmaPort
    fullSyncId := r.fullSyncId
    replicationOffset := r.offset.toNat
    snapshotFileSize := r.snapshotFileSize
    rdmaSync := { s.replication.rdmaSync with connection } }
  if started then
    set { s with replication := { m with state := .fullSync } }
    return some []
  else
    set { s with replication := m }
    return none

def kvsReplicationUpstreamFrameProtocol (connectionFd : Nat) (start : RdmaStart) : FrameHandler Server :=
  fun frame frameLength responseCapacity => do
    let s ← get
    let m := s.replication
    if ¬m.initialized ∨ m.role ≠ .replica ∨ m.primaryConnectionFd ≠ some connectionFd ∨
        frameLength = 0 ∨ responseCapacity = 0 then return none
    else if m.state ≠ .handshake then return none
    else if frameLength = 4 ∧ frame.take 4 = ascii "PONG" then
      return response responseCapacity (ascii "PSYNC ? -1\r\n")
    else if frameLength ≥ 16 ∧ frame.take 16 = ascii "FULLRESYNC_RDMA " then
      match scanFullResync frame frameLength with
      | none => return none
      | some r => beginFullSync start r
    else return none

def onlineFormat : List Scanf.Directive := (ascii "ONLINE").map .char ++ [.space, .signed, .count]

/-- The scan of an `ONLINE` line and its checks. -/
def scanOnline (frame : Bytes) (frameLength : Nat) : Option Nat :=
  match Scanf.sscanf frame onlineFormat with
  | [.int offset, .count parsedLength] =>
    if parsedLength ≠ frameLength ∨ offset < 0 then none else some offset.toNat
  | _ => none

def kvsReplicationOnlineControlFrameProtocol (connectionFd : Nat) : FrameHandler Server :=
  fun frame frameLength responseCapacity => do
    let s ← get
    let m := s.replication
    if ¬m.initialized ∨ m.role ≠ .replica ∨ (m.state ≠ .catchUp ∧ m.state ≠ .online) ∨
        m.primaryConnectionFd ≠ some connectionFd ∨ frameLength = 0 ∨ responseCapacity < 5 then
      return none
    else if frameLength ≥ 7 ∧ frame.take 7 = ascii "ONLINE " then
      match scanOnline frame frameLength with
      | none => return none
      | some offset =>
        if s.aofOffset ≠ some offset then return none
        else
          set { s with replication := { m with replicationOffset := offset, state := .online } }
          return some []
    else return none

-- ---------------------------------------------------------------------------
-- Commands of the primary
-- ---------------------------------------------------------------------------

/-- `kvs_replication_catch_up_command_protocol`: whether the command was taken. -/
def kvsReplicationCatchUpCommandProtocol (connectionFd : Nat) (fields : List Bytes)
    (responseCapacity : Nat) : Serve Bool := do
  let s ← get
  let m := s.replication
  if ¬m.initialized ∨ m.role ≠ .replica ∨ (m.state ≠ .catchUp ∧ m.state ≠ .online) ∨
      m.primaryConnectionFd ≠ some connectionFd ∨ fields.length = 0 ∨ responseCapacity = 0 then
    return false
  else
    match ← kvsReplicationCommandProtocol responseCapacity fields with
    | none => return false
    | some reply =>
      if reply.length = 0 ∨ reply.length ≥ responseCapacity then return false
      else
        let s ← get
        match s.aofOffset with
        | none => return false
        | some offset =>
          set { s with replication := { s.replication with replicationOffset := offset } }
          return true

def kvsReplicationUpstreamNetworkProtocol (connectionFd : Nat) (start : RdmaStart)
    (responseCapacity : Nat) (msg : Bytes) : Serve LinesHandled := do
  let s ← get
  let m := s.replication
  if ¬m.initialized ∨ m.role ≠ .replica ∨ m.primaryConnectionFd ≠ some connectionFd ∨
      msg.length = 0 ∨ responseCapacity = 0 then return (msg, none)
  else
    match m.state with
    | .handshake =>
      kvsReplicationControlLineProtocol (kvsReplicationUpstreamFrameProtocol connectionFd start)
        responseCapacity msg
    | .catchUp | .online =>
      if msg.head? = some asterisk then
        match kvsParseCommand 3 msg with
        | .more => return (msg, some ([], 0))
        | .error => return (msg, none)
        | .done (fields, parsedBytes) _ =>
          if ← kvsReplicationCatchUpCommandProtocol connectionFd fields responseCapacity then
            return (msg, some ([], parsedBytes))
          else return (msg, none)
      else
        kvsReplicationControlLineProtocol (kvsReplicationOnlineControlFrameProtocol connectionFd)
          responseCapacity msg
    | .fullSync | .disconnected | .connecting => return (msg, none)

-- ---------------------------------------------------------------------------
-- The stream of a replica
-- ---------------------------------------------------------------------------

def RdmaSync.sendMessage (sync : RdmaSync) (env : RdmaAnswers) (message : Bytes) : Option RdmaSync :=
  if message.length ≥ messageCapacity then none
  else
    match sync.connection.bind (·.send env message) with
    | none => none
    | some c => some { sync with connection := some c, sendPending := true }

def RdmaSync.acknowledge (sync : RdmaSync) (env : RdmaAnswers) : Option RdmaSync :=
  if sync.sendPending ∨ sync.snapshotBytes ≤ sync.acknowledgedBytes then some sync
  else
    match sync.sendMessage env (ackMessage sync.snapshotBytes) with
    | none => none
    | some sync => some { sync with acknowledgedBytes := sync.snapshotBytes }

/-- The end of `kvs_replication_upstream_stream`: a chunk that has arrived. -/
def upstreamReceive (connectionFd : Nat) (env : RdmaAnswers) (data : Bytes) : Serve Streamed := do
  let s ← get
  let m := s.replication
  if m.state ≠ .fullSync ∨ data.length = 0 ∨ data.length > rdmaBufferCapacity ∨
      data.length > (m.snapshotWriter.map (·.remaining)).getD 0 then return .failed
  else
    match ← kvsReplicationReceiveSnapshotData connectionFd data with
    | none => return .failed
    | some written =>
      if written ≠ data.length then return .failed
      else
        let s ← get
        let sync := { s.replication.rdmaSync with
          snapshotBytes := s.replication.rdmaSync.snapshotBytes + written }
        match sync.connection.bind (·.receiveNext env) with
        | none =>
          set { s with replication := { s.replication with rdmaSync := sync } }
          return .failed
        | some c =>
          set { s with replication := { s.replication with rdmaSync := { sync with connection := some c } } }
          return .wait

def upstreamStep (connectionFd : Nat) (env : RdmaAnswers) : Serve Streamed := do
  let s ← get
  let m := s.replication
  if ¬m.rdmaSync.established then return .wait
  else
    match m.rdmaSync.acknowledge env with
    | none => return .failed
    | some sync =>
      let m := { m with rdmaSync := sync }
      if m.state = .catchUp ∧ (sync.snapshotBytes : Int) = m.snapshotFileSize ∧
          sync.acknowledgedBytes = sync.snapshotBytes then
        set { s with replication := m }
        return .wait
      else
        match sync.connection.bind (·.pollCompletion env) with
        | none =>
          set { s with replication := m }
          return .failed
        | some none =>
          set { s with replication := m }
          return .wait
        | some (some (.send, c)) =>
          set { s with replication :=
            { m with rdmaSync := { sync with connection := some c, sendPending := false } } }
          return .wait
        | some (some (.recv data, c)) =>
          set { s with replication := { m with rdmaSync := { sync with connection := some c } } }
          upstreamReceive connectionFd env data
        | some (some (.invalid, _)) => return .failed

def kvsReplicationUpstreamStream (connectionFd outputCapacity : Nat) (env : RdmaAnswers) :
    Serve Streamed := do
  let s ← get
  let m := s.replication
  if ¬m.initialized ∨ m.role ≠ .replica ∨ m.primaryConnectionFd ≠ some connectionFd ∨
      outputCapacity = 0 then return .failed
  else
    match m.rdmaSync.connection with
    | none => return .sent []
    | some c =>
      let (event, c) := c.pollEvent env
      let sync : RdmaSync := { m.rdmaSync with connection := some c }
      set { s with replication := { m with rdmaSync := sync } }
      match event with
      | none => return .failed
      | some (some .disconnected) =>
        if m.state ≠ .catchUp ∨ (sync.snapshotBytes : Int) ≠ m.snapshotFileSize ∨
            sync.acknowledgedBytes ≠ sync.snapshotBytes ∨ ¬c.disconnect env then return .failed
        else
          let (closed, sync) := sync.close env
          set { s with replication := { m with rdmaSync := sync } }
          return if closed then .sent [] else .failed
      | some (some .established) =>
        let sync := { sync with established := true }
        match sync.sendMessage env (readyMessage m.fullSyncId) with
        | none =>
          set { s with replication := { m with rdmaSync := sync } }
          return .failed
        | some sync =>
          set { s with replication := { m with rdmaSync := sync } }
          upstreamStep connectionFd env
      | some _ => upstreamStep connectionFd env

/-- `kvs_replication_on_primary_connected`: the first message. -/
def kvsReplicationOnPrimaryConnected (connectionFd outputCapacity : Nat) : Serve (Option Bytes) := do
  let s ← get
  let m := s.replication
  if ¬m.initialized ∨ m.role ≠ .replica ∨ outputCapacity = 0 then return none
  else
    match response outputCapacity (ascii "PING\r\n") with
    | none => return none
    | some ping =>
      set { s with replication := { m with
        primaryConnectionFd := some connectionFd, state := .handshake } }
      return some ping

def kvsReplicationOnPrimaryDisconnected (connectionFd : Nat) (env : RdmaAnswers) : Serve Unit := do
  let s ← get
  let m := s.replication
  if ¬m.initialized ∨ m.role ≠ .replica ∨ m.primaryConnectionFd ≠ some connectionFd then return ()
  else
    set { s with replication := { m with
      rdmaSync := (m.rdmaSync.close env).2, primaryRdmaPort := 0, fullSyncId := [] } }
    kvsSnapshotWriterAbort
    modify fun s => { s with replication := { s.replication with
      primaryConnectionFd := none, state := .disconnected } }

end KvStore
