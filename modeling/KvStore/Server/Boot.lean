import KvStore.Server.Commands

/-!
# Starting a server

`kvs_server_run` of `src/kvstore.c` up to the listeners, with
`kvs_replication_init`: the engines are created and filled from the files of
the working directory, in the way the role and the persistence mode ask for. A
start that fails ends the process.
-/

namespace KvStore

open Lib

/-- The part of `kvs_config_t` that starting reads. -/
structure Config where
  role : Role
  persistenceMode : PersistenceMode
  primaryHost : Bytes
  primaryPort : Nat
  deriving DecidableEq, Repr

/-- What `validate_config` leaves of roles, modes and the address of the
primary. -/
def Config.Valid (config : Config) : Prop :=
  match config.role with
  | .standalone => config.persistenceMode = .snapshot ∨ config.persistenceMode = .aof
  | .primary => config.persistenceMode = .legacyHybrid
  | .replica => config.persistenceMode = .legacyHybrid ∧ config.primaryPort ≠ 0

def hexDigits : Bytes := ascii "0123456789abcdef"

def hexByte (b : UInt8) : Bytes :=
  [hexDigits.getD (b >>> 4).toNat 0, hexDigits.getD (b &&& 15).toNat 0]

def kvsReplicationIdHexLength : Nat := 40

/-- `kvs_replication_generate_id` from what `getrandom` gave, if it gave
anything. -/
def kvsReplicationGenerateId (random : Option Bytes) : Option Bytes :=
  random.map fun bytes => bytes.flatMap hexByte

def kvsReplicationHostMaxLength : Nat := 256

/-- The manager that `kvs_replication_init` leaves, from the one it finds. -/
def ReplicationManager.init (manager : ReplicationManager) (role : Role) (offset : Nat) (id : Bytes)
    (primaryHost : Bytes) (primaryPort : Nat) : ReplicationManager :=
  { manager with
    role
    replicationOffset := offset
    snapshotFileSize := -1
    snapshotConnectionFd := none
    snapshotReader := none
    aofReader := none
    replicationId := id
    primaryConnectionFd := none
    state := .disconnected
    primaryHost := if role = .replica then primaryHost else []
    primaryPort := if role = .replica then primaryPort else 0
    initialized := true }

def kvsReplicationInit (role : Role) (primaryHost : Bytes) (primaryPort : Nat)
    (random : Option Bytes) : Serve Int := do
  let s ← get
  if s.replication.initialized then return -1
  else if role = .replica ∧ (primaryHost = [] ∨ primaryPort = 0 ∨
      primaryHost.length ≥ kvsReplicationHostMaxLength) then return -1
  else
    match s.aofOffset with
    | none => return -1
    | some offset =>
      let id := if role = .primary then kvsReplicationGenerateId random else some []
      match id with
      | none => return -1
      | some id =>
        set { s with replication := s.replication.init role offset id primaryHost primaryPort }
        return 0

def loadSnapshot (path : Path) : Serve (Int × SnapshotCheckpoint) := do
  let s ← get
  let (result, engines, checkpoint) ← onRuntime
    (kvsSnapshotStoreLoadWithCheckpoint (s.disk path) s.engines SnapshotCheckpoint.zero)
  modify fun s => { s with engines }
  return (result, checkpoint)

def replayAndOpen (path : Path) (offset : Int) : Serve Bool := do
  let replayed ← if offset < 0 then pure (-1) else
    kvsAofReplay path offset.toNat kvsRecoveryFieldsProtocol
  if replayed < 0 then return false
  else
    let opened ← kvsAofOpen path
    return decide (0 ≤ opened)

/-- The recovery of `kvs_server_run`: whether the files could be used. -/
def recover (role : Role) (mode : PersistenceMode) : Serve Bool := do
  if role = .replica then
    let opened ← kvsAofOpen .appendonlyAof
    return decide (0 ≤ opened)
  else
    match mode with
    | .snapshot =>
      let (result, _) ← loadSnapshot .snapshotBin
      return decide (0 ≤ result)
    | .aof => replayAndOpen .commandsAof 0
    | .legacyHybrid =>
      let (result, checkpoint) ← loadSnapshot .snapshotDb
      if result < 0 ∨ result = 0 ∧ checkpoint.hasOffset = false then return false
      else replayAndOpen .appendonlyAof (if result = 1 then 0 else checkpoint.offset)

/-- `kvs_server_run` up to the listeners: whether the server could start. -/
def kvsServerRun (config : Config) (random : Option Bytes) : Serve Bool := do
  modify fun s => { s with role := config.role, persistenceMode := config.persistenceMode }
  match ← onRuntime initKvengine with
  | none => return false
  | some engines =>
    modify fun s => { s with engines }
    if ← recover config.role config.persistenceMode then
      if config.role = .standalone then return true
      else
        let result ← kvsReplicationInit config.role config.primaryHost config.primaryPort random
        return decide (0 ≤ result)
    else return false

/-- A process that has just started in a working directory. Its engines are
memory that nothing has set up yet. -/
def Server.process (rt : Runtime) (io : FileIo) (disk : Disk) (engines : Engines) : Server where
  rt
  engines
  disk
  io
  aofWriter := none
  role := .standalone
  persistenceMode := .legacyHybrid
  replication := .start

end KvStore
