import KvStore.Protocol.RoundTrip
import KvStore.Server.Globals

/-!
# The append-only file

`src/persistence/aof.c`. The writer keeps its own position, taken from the
length of the file when it is opened; every acknowledged write adds one encoded
command there. Replay parses the file from an offset and hands each command to
a handler; a reader copies a fixed range for replication.
-/

namespace KvStore

open Lib

def Server.aofFile (s : Server) (path : Path) : Bytes := (s.disk path).getD []

/-- `kvs_aof_open`: the file is created if it is missing and kept if it is there. -/
def kvsAofOpen (path : Path) : Serve Int := do
  let s ← get
  if s.aofWriter.isSome then return -1
  else
    let file := s.aofFile path
    set { s with disk := s.disk.write path file, aofWriter := some ⟨path, file.length, true⟩ }
    return 0

def AofWriter.after (writer : AofWriter) (failure : Option FileFailure) : AofWriter :=
  { writer with ring := writer.ring && !failure.any (·.closesRing) }

@[simp] theorem AofWriter.after_none (writer : AofWriter) : writer.after none = writer := by
  simp [AofWriter.after]

/-- `kvs_uring_io_write_batch` with one block behind the log. A failure may leave
the beginning of the block in the file. -/
def writeLog (writer : AofWriter) (data : Bytes) : Serve Bool := do
  let failure ← fileRequest (.write writer.path writer.offset data)
  modify fun s => { s with
    disk := s.disk.write writer.path (pwrite (s.aofFile writer.path) writer.offset
      (data.take (failure.elim data.length (·.written))))
    aofWriter := some (writer.after failure) }
  return failure.isNone

/-- `kvs_uring_io_sync` of the log. -/
def syncLog (writer : AofWriter) : Serve Bool := do
  let failure ← fileRequest (.sync writer.path)
  modify fun s => { s with aofWriter := some (writer.after failure) }
  return failure.isNone

def kvsAofAppend (tokens : List Bytes) : Serve Int := do
  let s ← get
  match s.aofWriter with
  | none => return -1
  | some writer =>
    if writer.ring = false ∨ tokens.length ≠ 2 ∧ tokens.length ≠ 3 then return -1
    else
      match kvsEncodedCommandSize tokens with
      | none => return -1
      | some required =>
        match ← onRuntime kvsMalloc with
        | none => return -1
        | some encoded =>
          match kvsEncodeCommand tokens required with
          | none =>
            onRuntime (kvsFree encoded)
            return -1
          | some bytes =>
            let nextOffset := writer.offset + bytes.length
            if nextOffset > offMax then
              onRuntime (kvsFree encoded)
              return -1
            else
              let written ← writeLog writer bytes
              onRuntime (kvsFree encoded)
              if ¬written then return -1
              else if ← syncLog writer then
                modify fun s => { s with aofWriter := some { writer with offset := nextOffset } }
                return 0
              else return -1

/-- `kvs_aof_get_offset`; nothing when no AOF is open. -/
def Server.aofOffset (s : Server) : Option Nat := s.aofWriter.map (·.offset)

/-- `kvs_aof_reset_to_offset`: the file cut or extended, the writer behind it. A
file that could not be synchronised keeps its new length. -/
def kvsAofResetToOffset (offset : Int) : Serve Int := do
  let s ← get
  match s.aofWriter with
  | none => return -1
  | some writer =>
    if writer.ring = false ∨ offset < 0 ∨ offset > offMax then return -1
    else
      match ← fileRequest (.truncate writer.path offset.toNat) with
      | some _ => return -1
      | none =>
        modify fun s => { s with
          disk := s.disk.write writer.path (ftruncate (s.aofFile writer.path) offset.toNat) }
        if ← syncLog { writer with offset := offset.toNat } then return 0
        else return -1

namespace Replaying

variable {σ : Type}

/-- The loop of `kvs_aof_replay` on what is left of the file; a handler returns the
length of its response. Every round consumes a command, so the length of the file
bounds the rounds. -/
def replayLoop (handler : List Bytes → Program σ Stop Int) : Nat → Bytes → Program σ Stop Int
  | _, [] => return 0
  | 0, _ :: _ => throw .fuel
  | rounds + 1, input => do
    match kvsParseCommand 3 input with
    | .done (fields, parsedBytes) _ =>
      if parsedBytes = 0 ∨ parsedBytes > input.length then return -1
      else
        let responseLength ← handler fields
        if responseLength ≤ 0 ∨ responseLength > 1024 then return -1
        else replayLoop handler rounds (input.drop parsedBytes)
    | _ => return -1

/-- `kvs_aof_replay` on the file at the path, if there is one. -/
def kvsAofReplay (file : Option Bytes) (offset : Int) (handler : List Bytes → Program σ Stop Int) :
    Program σ Stop Int :=
  if offset < 0 then return -1
  else
    match file with
    | none => return 0
    | some file =>
      let position := if offset < file.length then offset.toNat else file.length
      replayLoop handler file.length (file.drop position)

end Replaying

/-- `kvs_aof_replay` in the working directory; a response is told by its length. -/
def kvsAofReplay (path : Path) (offset : Nat) (handler : List Bytes → Serve (Option Bytes)) :
    Serve Int := do
  let s ← get
  Replaying.kvsAofReplay (s.disk path) offset fun fields => do
    return (← handler fields).elim (-1) fun response => response.length

/-- `kvs_aof_reader_open` on the range `[start, stop)` of a file. -/
def kvsAofReaderOpen (disk : Disk) (path : Path) (start stop : Nat) : Option AofReader :=
  if stop < start then none
  else
    match disk path with
    | none => none
    | some file =>
      if start > file.length ∨ stop > file.length then none
      else some ⟨start, stop - start⟩

/-- `kvs_aof_reader_read`: nothing left, or a piece and the reader behind it.
`pread` returns between one byte and all that were asked for; `got` says how
many it would return. -/
def kvsAofReaderRead (disk : Disk) (path : Path) (reader : AofReader) (outputCapacity got : Nat) :
    Option (Bytes × AofReader) :=
  if outputCapacity = 0 then none
  else if reader.remaining = 0 then some ([], reader)
  else
    let readSize := min outputCapacity reader.remaining
    let result := ((((disk path).getD []).drop reader.offset).take readSize).take (max got 1)
    if result.length = 0 then none
    else some (result, ⟨reader.offset + result.length, reader.remaining - result.length⟩)

end KvStore
