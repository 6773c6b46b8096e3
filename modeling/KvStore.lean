import KvStore.Lib.Program
import KvStore.Lib.AssocMap
import KvStore.Lib.Scan
import KvStore.Protocol.Codec
import KvStore.Protocol.Wire
import KvStore.Protocol.RoundTrip
import KvStore.Memory.Runtime
import KvStore.Engines.Interface
import KvStore.Engines.Array
import KvStore.Engines.Hash
import KvStore.Lib.LinkedTree
import KvStore.Lib.RedBlack
import KvStore.Engines.RbTree
import KvStore.Engines.RbBalance
import KvStore.Engines.RbTreeLaws
import KvStore.Lib.LinkedList
import KvStore.Engines.SkipList
import KvStore.Engines.SkipListLaws
import KvStore.Engines.Store
import KvStore.Lib.BigEndian
import KvStore.Lib.Crc
import KvStore.Persistence.Disk
import KvStore.Persistence.Snapshot
import KvStore.Persistence.SnapshotFormat
import KvStore.Persistence.SnapshotLoad
import KvStore.Persistence.SnapshotCorruption
import KvStore.Persistence.SnapshotSave
import KvStore.Network.Buffer
import KvStore.Server.Globals
import KvStore.Persistence.Aof
import KvStore.Server.Commands
import KvStore.Server.Blind
import KvStore.Server.Spec
import KvStore.Server.CommandLaws
import KvStore.Server.ClientLaws
import KvStore.Network.Reader
import KvStore.Network.ReaderLaws
import KvStore.Engines.Runs
import KvStore.Engines.RbTreeRuns
import KvStore.Memory.Ledger
import KvStore.Engines.Ownership
import KvStore.Engines.LinkedOwnership
import KvStore.Engines.SkipListRuns
import KvStore.Lib.Replay
import KvStore.Server.Effects
import KvStore.Server.ReadOnly
import KvStore.Server.Boot
import KvStore.Server.Recovery
import KvStore.Server.Restart
import KvStore.Server.Checkpoint
import KvStore.Server.Truthful
import KvStore.Lib.Split
import KvStore.Lib.Scanf
import KvStore.Lib.ByteMemory
import KvStore.Lib.Wrapping
import KvStore.Memory.Pool
import KvStore.Memory.PoolRegion
import KvStore.Memory.PoolLaws
import KvStore.Memory.PoolShape
import KvStore.Memory.PoolRuns
import KvStore.Memory.PoolWorld
import KvStore.Memory.PoolExact
import KvStore.Persistence.SnapshotSteps
import KvStore.Persistence.SnapshotAtomic
import KvStore.Persistence.Uring
import KvStore.Persistence.UringLaws
import KvStore.Network.Growth
import KvStore.Network.Rdma
import KvStore.Network.Lines
import KvStore.Network.InputBound
import KvStore.Network.LineFraming
import KvStore.Replication.Primary
import KvStore.Replication.Replica
import KvStore.Replication.Messages
import KvStore.Config.Load
import KvStore.Config.Entries
import KvStore.Server.ReplayExact
import KvStore.Replication.Isolation
import KvStore.Replication.LogStream
import KvStore.Replication.Following
import KvStore.Replication.Agreement
import KvStore.Replication.Source
import KvStore.Replication.Install
import KvStore.Replication.Sink
import KvStore.Replication.Transfer
import KvStore.Replication.Progress
import KvStore.Replication.Handover
