import KvStore.Engines.Store
import KvStore.Lib.BigEndian
import KvStore.Persistence.Disk

/-!
# The binary snapshot

`src/persistence/snapshot_store.c`. A snapshot is a header, the records of the
four engines and a CRC32 of everything before it. It is written through a
buffer of 256 KiB and read twice: once to check every byte without touching
the engines, once to fill them.
-/

namespace KvStore

open Lib

structure SnapshotCheckpoint where
  hasOffset : Bool
  offset : Int
  deriving DecidableEq, Repr

def SnapshotCheckpoint.zero : SnapshotCheckpoint := ⟨false, 0⟩

/-- `"91KVSNAP"`. -/
def snapshotMagic : Bytes := [57, 49, 75, 86, 83, 78, 65, 80]

def snapshotVersionV1 : Nat := 1
def snapshotVersionV2 : Nat := 2
def snapshotHeaderV1Size : Nat := 20
def snapshotHeaderV2Size : Nat := 32
def snapshotRecordHeaderSize : Nat := 9
def snapshotChecksumSize : Nat := 4
def snapshotWriteBlockSize : Nat := 64 * 1024
def snapshotWriteBlockCount : Nat := 4
def snapshotWriteBufferSize : Nat := snapshotWriteBlockSize * snapshotWriteBlockCount

def uint32Max : Nat := 2 ^ 32 - 1
def uint64Max : Nat := 2 ^ 64 - 1

/-- `kvs_snapshot_engine_t`. -/
def EngineId.snapshotId : EngineId → UInt8
  | .array => 1
  | .rbtree => 2
  | .hash => 3
  | .skiplist => 4

def EngineId.ofSnapshotId (id : UInt8) : Option EngineId :=
  if id < 1 ∨ id > 4 then none
  else if id = 1 then some .array
  else if id = 2 then some .rbtree
  else if id = 3 then some .hash
  else some .skiplist

def EngineId.all : List EngineId := [.array, .rbtree, .hash, .skiplist]

-- ---------------------------------------------------------------------------
-- Numbers and CRC
-- ---------------------------------------------------------------------------

def encodeU32Be (value : Nat) : Bytes := toBigEndian 4 value
def encodeU64Be (value : Nat) : Bytes := toBigEndian 8 value
def decodeU32Be (input : Bytes) : Nat := ofBigEndian input
def decodeU64Be (input : Bytes) : Nat := ofBigEndian input

def crcBits : Nat → UInt32 → UInt32
  | 0, crc => crc
  | bits + 1, crc =>
    crcBits bits (if crc &&& 1 ≠ 0 then (crc >>> 1) ^^^ 0xedb88320 else crc >>> 1)

def snapshotCrc32Update (crc : UInt32) : Bytes → UInt32
  | [] => crc
  | b :: data => snapshotCrc32Update (crcBits 8 (crc ^^^ b.toUInt32)) data

def crcStart : UInt32 := 0xffffffff

-- ---------------------------------------------------------------------------
-- Writing
-- ---------------------------------------------------------------------------

structure SnapshotWriter where
  /-- The temporary file behind `fd`. -/
  file : Bytes
  /-- The bytes of the buffer that are not yet written. -/
  buffer : Bytes
  nextFileOffset : Nat
  checkpoint : SnapshotCheckpoint

/-- The requests of one batch: blocks of the buffer and their file positions,
at most `left` of them. -/
def snapshotRequests : (left offset : Nat) → Bytes → List (Nat × Bytes)
  | 0, _, _ => []
  | _ + 1, _, [] => []
  | left + 1, offset, data =>
    (offset, data.take snapshotWriteBlockSize) ::
      snapshotRequests left (offset + snapshotWriteBlockSize) (data.drop snapshotWriteBlockSize)

/-- `kvs_uring_io_write_batch`: every block at its position. -/
def kvsUringIoWriteBatch (file : Bytes) (requests : List (Nat × Bytes)) : Bytes :=
  requests.foldl (fun file request => pwrite file request.1 request.2) file

def snapshotWriterFlush (writer : SnapshotWriter) : Option SnapshotWriter :=
  if writer.buffer.length > snapshotWriteBufferSize then none
  else if writer.buffer.length = 0 then some writer
  else
    let batchEnd := writer.nextFileOffset + writer.buffer.length
    if batchEnd > offMax then none
    else
      let requests := snapshotRequests snapshotWriteBlockCount writer.nextFileOffset writer.buffer
      some { writer with
        file := kvsUringIoWriteBatch writer.file requests
        nextFileOffset := batchEnd
        buffer := [] }

def snapshotWriterMakeRoom (writer : SnapshotWriter) : Option SnapshotWriter :=
  if writer.buffer.length = snapshotWriteBufferSize then snapshotWriterFlush writer else some writer

/-- The copy loop of `snapshot_writer_append`; every round copies a byte, so
`rounds` is at most the length of the data. -/
def snapshotWriterCopy : (rounds : Nat) → SnapshotWriter → Bytes → Option SnapshotWriter
  | _, writer, [] => some writer
  | 0, _, _ :: _ => none
  | rounds + 1, writer, data => do
    let writer ← snapshotWriterMakeRoom writer
    let copyBytes := min data.length (snapshotWriteBufferSize - writer.buffer.length)
    snapshotWriterCopy rounds { writer with buffer := writer.buffer ++ data.take copyBytes }
      (data.drop copyBytes)

def snapshotWriterAppend (writer : SnapshotWriter) (data : Bytes) : Option SnapshotWriter :=
  if writer.buffer.length > snapshotWriteBufferSize then none
  else snapshotWriterCopy data.length writer data

abbrev SnapshotOutput := SnapshotWriter × UInt32

def snapshotEmit (out : SnapshotOutput) (data : Bytes) : Option SnapshotOutput := do
  let writer ← snapshotWriterAppend out.1 data
  some (writer, snapshotCrc32Update out.2 data)

def snapshotCountItem (count : Nat) (_item : Bytes × Bytes) : Option Nat :=
  if count = uint64Max then none else some (count + 1)

def snapshotCountRecords (engines : Engines) : List EngineId → Nat → Run (Option Nat)
  | [], count => return some count
  | e :: rest, count => do
    let items ← e.ops.foreach (engines e)
    match items.foldlM snapshotCountItem count with
    | none => return none
    | some count => snapshotCountRecords engines rest count

def snapshotHeaderBytes (flags recordCount offset : Nat) : Bytes :=
  snapshotMagic ++ encodeU32Be snapshotVersionV2 ++ encodeU32Be flags ++ encodeU64Be recordCount ++
    encodeU64Be offset

def snapshotWriteHeader (out : SnapshotOutput) (recordCount : Nat) : Option SnapshotOutput :=
  let checkpoint := out.1.checkpoint
  if checkpoint.hasOffset ∧ checkpoint.offset < 0 then none
  else
    let flags := if checkpoint.hasOffset then 1 else 0
    let offset := if checkpoint.hasOffset then checkpoint.offset.toNat else 0
    snapshotEmit out (snapshotHeaderBytes flags recordCount offset)

def snapshotRecordHeader (engine : EngineId) (keyLength valueLength : Nat) : Bytes :=
  engine.snapshotId :: (encodeU32Be keyLength ++ encodeU32Be valueLength)

/-- `snapshot_write_record`: the header, the key and the value are appended
before the CRC takes them in. -/
def snapshotWriteRecord (engine : EngineId) (out : SnapshotOutput) (item : Bytes × Bytes) :
    Option SnapshotOutput := do
  let (key, value) := item
  if key.length > uint32Max ∨ value.length > uint32Max then none
  else
    let header := snapshotRecordHeader engine key.length value.length
    let writer ← snapshotWriterAppend out.1 header
    let writer ← snapshotWriterAppend writer key
    let writer ← snapshotWriterAppend writer value
    let crc := snapshotCrc32Update out.2 header
    let crc := snapshotCrc32Update crc key
    let crc := snapshotCrc32Update crc value
    some (writer, crc)

def snapshotWriteRecords (engines : Engines) :
    List EngineId → SnapshotOutput → Run (Option SnapshotOutput)
  | [], out => return some out
  | e :: rest, out => do
    let items ← e.ops.foreach (engines e)
    match items.foldlM (snapshotWriteRecord e) out with
    | none => return none
    | some out => snapshotWriteRecords engines rest out

def snapshotWriteContents (engines : Engines) (writer : SnapshotWriter) :
    Run (Option SnapshotWriter) := do
  match ← snapshotCountRecords engines EngineId.all 0 with
  | none => return none
  | some recordCount =>
    match snapshotWriteHeader (writer, crcStart) recordCount with
    | none => return none
    | some out =>
      match ← snapshotWriteRecords engines EngineId.all out with
      | none => return none
      | some (writer, crc) =>
        let checksum := crc ^^^ 0xffffffff
        return (snapshotWriterAppend writer (encodeU32Be checksum.toNat)).bind snapshotWriterFlush

/-- `snapshot_open_parent_directory`: whether the copy of the path could be
made. -/
def snapshotOpenParentDirectory : Run Bool := do
  match ← kvsMalloc with
  | none => return false
  | some directory =>
    kvsFree directory
    return true

/-- The bytes that replace the file at the path, or nothing when saving fails
and the file stays as it was. -/
def kvsSnapshotStoreSaveWithCheckpoint (engines : Engines)
    (checkpoint : Option SnapshotCheckpoint) : Run (Option Bytes) := do
  match ← kvsMalloc with
  | none => return none
  | some tempPath =>
    if ← snapshotOpenParentDirectory then
      match ← kvsMalloc with
      | none =>
        kvsFree tempPath
        return none
      | some buffer =>
        let written ← snapshotWriteContents engines
          { file := [], buffer := [], nextFileOffset := 0,
            checkpoint := checkpoint.getD SnapshotCheckpoint.zero }
        kvsFree buffer
        kvsFree tempPath
        return written.map (·.file)
    else
      kvsFree tempPath
      return none

def kvsSnapshotStoreSave (engines : Engines) : Run (Option Bytes) :=
  kvsSnapshotStoreSaveWithCheckpoint engines none

-- ---------------------------------------------------------------------------
-- The first pass
-- ---------------------------------------------------------------------------

/-- The next `length` bytes of the mapping; the rest stands for the cursor. -/
def snapshotCursorTake (length : Nat) (cursor : Bytes) : Scan UInt8 Bytes :=
  if length > cursor.length then .error else .done (cursor.take length) (cursor.drop length)

structure SnapshotHeader where
  recordCount : Nat
  checkpoint : SnapshotCheckpoint
  deriving DecidableEq

def snapshotReadHeaderV1 (crc : UInt32) (cursor : Bytes) : Scan UInt8 (SnapshotHeader × UInt32) :=
  (snapshotCursorTake (snapshotHeaderV1Size - 12) cursor).bind fun body cursor =>
    .done (⟨decodeU64Be body, SnapshotCheckpoint.zero⟩, snapshotCrc32Update crc body) cursor

def snapshotReadHeaderV2 (crc : UInt32) (cursor : Bytes) : Scan UInt8 (SnapshotHeader × UInt32) :=
  (snapshotCursorTake (snapshotHeaderV2Size - 12) cursor).bind fun body cursor =>
    let flags := decodeU32Be (body.take 4)
    let offset := decodeU64Be (body.drop 12)
    -- a flag other than the lowest bit, or an offset that is no `long long`
    if flags / 2 ≠ 0 ∨ offset > offMax then .error
    else
      let hasOffset := decide (flags % 2 = 1)
      if ¬hasOffset ∧ offset ≠ 0 then .error
      else
        .done (⟨decodeU64Be ((body.drop 4).take 8), ⟨hasOffset, offset⟩⟩,
          snapshotCrc32Update crc body) cursor

def snapshotReadHeader (crc : UInt32) (cursor : Bytes) : Scan UInt8 (SnapshotHeader × UInt32) :=
  (snapshotCursorTake 12 cursor).bind fun start cursor =>
    if start.take 8 ≠ snapshotMagic then .error
    else
      let version := decodeU32Be (start.drop 8)
      let crc := snapshotCrc32Update crc start
      if version = snapshotVersionV1 then snapshotReadHeaderV1 crc cursor
      else if version = snapshotVersionV2 then snapshotReadHeaderV2 crc cursor
      else .error

def snapshotCheckField (length : Nat) (crc : UInt32) (cursor : Bytes) : Scan UInt8 UInt32 :=
  (snapshotCursorTake length cursor).bind fun field cursor =>
    if 0 ∈ field then .error else .done (snapshotCrc32Update crc field) cursor

def snapshotCheckRecord (crc : UInt32) (cursor : Bytes) : Scan UInt8 UInt32 :=
  (snapshotCursorTake snapshotRecordHeaderSize cursor).bind fun header cursor =>
    match header with
    | [] => .error
    | engine :: lengths =>
      match EngineId.ofSnapshotId engine with
      | none => .error
      | some _ =>
        let keyLength := decodeU32Be (lengths.take 4)
        let valueLength := decodeU32Be (lengths.drop 4)
        (snapshotCheckField keyLength (snapshotCrc32Update crc header) cursor).bind
          fun crc cursor => snapshotCheckField valueLength crc cursor

def snapshotCheckRecords : Nat → UInt32 → Bytes → Scan UInt8 UInt32
  | 0, crc, cursor => .done crc cursor
  | count + 1, crc, cursor =>
    (snapshotCheckRecord crc cursor).bind fun crc cursor => snapshotCheckRecords count crc cursor

def snapshotValidate (file : Bytes) : Option SnapshotHeader :=
  if file.length < snapshotHeaderV1Size + snapshotChecksumSize then none
  else
    match snapshotReadHeader crcStart file with
    | .done (header, crc) cursor =>
      if cursor.length < snapshotChecksumSize then none
      else if header.recordCount > (cursor.length - snapshotChecksumSize) / snapshotRecordHeaderSize
      then none
      else
        match snapshotCheckRecords header.recordCount crc cursor with
        | .done crc cursor =>
          match snapshotCursorTake snapshotChecksumSize cursor with
          | .done checksum cursor =>
            if (crc ^^^ 0xffffffff).toNat ≠ decodeU32Be checksum then none
            else if cursor ≠ [] then none
            else some header
          | _ => none
        | _ => none
    | _ => none

-- ---------------------------------------------------------------------------
-- The second pass
-- ---------------------------------------------------------------------------

def snapshotReadField (length : Nat) (cursor : Bytes) : Run (Option (CString × Bytes)) := do
  match snapshotCursorTake length cursor with
  | .done field cursor =>
    match ← copyString field with
    | none => return none
    | some text => return some (text, cursor)
  | _ => return none

/-- `snapshot_insert_record`: a key the engine already has is refused with `1`. -/
def snapshotInsertRecord (engines : Engines) (engine : EngineId) (key value : Bytes) :
    Run (Int × Engines) := do
  match ← engine.ops.get (engines engine) key with
  | some _ => return (1, engines)
  | none =>
    let (code, inst) ← engine.ops.set (engines engine) key value
    return (code, engines.put engine inst)

def snapshotLoadRecord (engines : Engines) (cursor : Bytes) : Run (Int × Engines × Bytes) := do
  match snapshotCursorTake snapshotRecordHeaderSize cursor with
  | .done (engine :: lengths) cursor =>
    match EngineId.ofSnapshotId engine with
    | none => return (-1, engines, cursor)
    | some engine =>
      match ← snapshotReadField (decodeU32Be (lengths.take 4)) cursor with
      | none => return (-1, engines, cursor)
      | some (key, cursor) =>
        match ← snapshotReadField (decodeU32Be (lengths.drop 4)) cursor with
        | none =>
          kvsFree key.ptr
          return (-1, engines, cursor)
        | some (value, cursor) =>
          let (result, engines) ← snapshotInsertRecord engines engine key.bytes value.bytes
          kvsFree key.ptr
          kvsFree value.ptr
          return (if result = 0 then 0 else -1, engines, cursor)
  | _ => return (-1, engines, cursor)

def snapshotLoadRecords : Nat → Engines → Bytes → Run (Int × Engines)
  | 0, engines, _ => return (0, engines)
  | count + 1, engines, cursor => do
    let (result, engines, cursor) ← snapshotLoadRecord engines cursor
    if result < 0 then return (-1, engines)
    else snapshotLoadRecords count engines cursor

/-- `0` with the engines filled and the checkpoint read, `1` when there is no
file, `-1` on failure. -/
def kvsSnapshotStoreLoadWithCheckpoint (file : Option Bytes) (engines : Engines)
    (checkpoint : SnapshotCheckpoint) : Run (Int × Engines × SnapshotCheckpoint) := do
  match file with
  | none => return (1, engines, checkpoint)
  | some file =>
    match snapshotValidate file with
    | none => return (-1, engines, checkpoint)
    | some _ =>
      match snapshotReadHeader crcStart file with
      | .done (header, _) cursor =>
        let (result, engines) ← snapshotLoadRecords header.recordCount engines cursor
        if result = 0 then return (0, engines, header.checkpoint)
        else return (-1, engines, checkpoint)
      | _ => return (-1, engines, checkpoint)

end KvStore
