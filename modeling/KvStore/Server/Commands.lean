import KvStore.Network.Buffer
import KvStore.Persistence.Aof
import KvStore.Persistence.Snapshot

/-!
# Executing commands

`src/kvstore.c`. `kvs_execute_fields` checks a command and answers it;
`kvs_filter_protocol` runs it on its engine and logs it. An operation is named
by its engine and its place in the group of five, as in the source's table of
names. What the engines return reaches the client through two channels: the
text `kvs_filter_protocol` writes, and a status from which the final reply is
chosen for a client.
-/

namespace KvStore

open Lib

def ascii (s : String) : Bytes := s.toList.map fun c => UInt8.ofNat c.toNat

def kvsMaxTokens : Nat := 128

def kvsMaxClientCommandBytes : Nat := 1024 * 1024

inductive Op
  | set
  | get
  | del
  | mod
  | exist
  deriving DecidableEq, Repr

structure CommandId where
  engine : EngineId
  op : Op
  deriving DecidableEq, Repr

/-- `command`, in the order of the command numbers. -/
def command : List (Bytes × CommandId) :=
  [(ascii "SET", ⟨.array, .set⟩), (ascii "GET", ⟨.array, .get⟩), (ascii "DEL", ⟨.array, .del⟩),
   (ascii "MOD", ⟨.array, .mod⟩), (ascii "EXIST", ⟨.array, .exist⟩),
   (ascii "RSET", ⟨.rbtree, .set⟩), (ascii "RGET", ⟨.rbtree, .get⟩), (ascii "RDEL", ⟨.rbtree, .del⟩),
   (ascii "RMOD", ⟨.rbtree, .mod⟩), (ascii "REXIST", ⟨.rbtree, .exist⟩),
   (ascii "HSET", ⟨.hash, .set⟩), (ascii "HGET", ⟨.hash, .get⟩), (ascii "HDEL", ⟨.hash, .del⟩),
   (ascii "HMOD", ⟨.hash, .mod⟩), (ascii "HEXIST", ⟨.hash, .exist⟩),
   (ascii "SSET", ⟨.skiplist, .set⟩), (ascii "SGET", ⟨.skiplist, .get⟩),
   (ascii "SDEL", ⟨.skiplist, .del⟩), (ascii "SMOD", ⟨.skiplist, .mod⟩),
   (ascii "SEXIST", ⟨.skiplist, .exist⟩)]

/-- The search through the table; nothing for `KVS_CMD_COUNT`. -/
def findCommand (name : Bytes) : Option CommandId :=
  (command.find? fun entry => strcmp name entry.1 = 0).map (·.2)

inductive ExecStatus
  | failed
  | ok
  | alreadyExists
  | notFound
  | found
  deriving DecidableEq, Repr

/-- `kvs_is_write_command`. -/
def Op.isWrite : Op → Bool
  | .set | .del | .mod => true
  | .get | .exist => false

/-- `kvs_save_current_snapshot`: whether the snapshot could be saved. -/
def kvsSaveCurrentSnapshot : Serve Bool := do
  let s ← get
  match s.persistenceMode with
  | .snapshot =>
    match ← onRuntime (kvsSnapshotStoreSave s.engines) with
    | none => return false
    | some file =>
      modify fun s => { s with disk := s.disk.write .snapshotBin file }
      return true
  | .legacyHybrid =>
    match s.aofOffset with
    | none => return false
    | some offset =>
      match ← onRuntime (kvsSnapshotStoreSaveWithCheckpoint s.engines (some ⟨true, offset⟩)) with
      | none => return false
      | some file =>
        modify fun s => { s with disk := s.disk.write .snapshotDb file }
        return true
  | .aof => return false

/-- The allocation loop of `kvs_fields_to_tokens`: the tokens, or all of them
given back. -/
def copyTokens : List Bytes → List CString → Run (Option (List CString))
  | [], tokens => return some tokens
  | field :: fields, tokens => do
    match ← copyString field with
    | none =>
      tokens.forM fun token => kvsFree token.ptr
      return none
    | some token => copyTokens fields (tokens ++ [token])

def kvsFieldsToTokens (fields : List Bytes) : Run (Option (List CString)) := do
  if fields.length = 0 ∨ fields.length > kvsMaxTokens ∨ ∃ field ∈ fields, 0 ∈ field then return none
  else copyTokens fields []

def freeTokens (tokens : List CString) : Run Unit := tokens.forM fun token => kvsFree token.ptr

def kvsGetValue (engine : EngineId) (key : Bytes) : Serve (Option Bytes) := do
  let s ← get
  onRuntime (engine.ops.get (s.engines engine) key)

def putInstance (engine : EngineId) (inst : engine.Instance) : Serve Unit :=
  modify fun s => { s with engines := s.engines.put engine inst }

/-- The engine call of a command other than `get`: its return value. A missing
key or value is a null argument, which every engine refuses. -/
def runEngine (cmd : CommandId) (key value : Option Bytes) : Serve Int := do
  let s ← get
  let inst := s.engines cmd.engine
  match cmd.op, key, value with
  | .set, some key, some value =>
    let (ret, inst) ← onRuntime (cmd.engine.ops.set inst key value)
    putInstance cmd.engine inst
    return ret
  | .mod, some key, some value =>
    let (ret, inst) ← onRuntime (cmd.engine.ops.mod inst key value)
    putInstance cmd.engine inst
    return ret
  | .del, some key, _ =>
    let (ret, inst) ← onRuntime (cmd.engine.ops.del inst key)
    putInstance cmd.engine inst
    return ret
  | .exist, some key, _ => onRuntime (cmd.engine.ops.exist inst key)
  | .get, _, _ => return 0
  | _, _, _ => return -1

def filterText (op : Op) (ret : Int) : Bytes :=
  match op with
  | .set => if ret < 0 then ascii "ERROR\r\n" else if ret = 0 then ascii "OK\r\n" else ascii "EXIST\r\n"
  | .del | .mod =>
    if ret < 0 then ascii "ERROR\r\n" else if ret = 0 then ascii "OK\r\n" else ascii "NO EXIST\r\n"
  | .exist => if ret = 0 then ascii "EXIST\r\n" else ascii "NO EXIST\r\n"
  | .get => []

/-- The status of an engine call by its return value; `get` leaves it alone. -/
def filterStatus (op : Op) (ret : Int) (status : ExecStatus) : ExecStatus :=
  if ret < 0 then .failed
  else
    match op with
    | .set => if ret = 0 then .ok else .alreadyExists
    | .del | .mod => if ret = 0 then .ok else .notFound
    | .exist => if ret = 0 then .found else .notFound
    | .get => status

/-- `kvs_filter_protocol`: the text and the status. The process ends when a
write that succeeded cannot be logged. -/
def kvsFilterProtocol (tokens : List Bytes) (source : CommandSource) (status : ExecStatus) :
    Serve (Bytes × ExecStatus) := do
  let s ← get
  match findCommand (tokens.headD []) with
  | none => return (ascii "ERROR unknown command\r\n", status)
  | some cmd =>
    if s.role = .replica ∧ source = .client ∧ cmd.op.isWrite then
      return (ascii "READONLY replica does not accept client writes\r\n", status)
    else if cmd.op = .get then
      match tokens[1]? with
      | none => return (ascii "NO EXIST\r\n", status)
      | some key =>
        match ← kvsGetValue cmd.engine key with
        | none => return (ascii "NO EXIST\r\n", status)
        | some value => return (value ++ ascii "\r\n", status)
    else
      let ret ← runEngine cmd tokens[1]? tokens[2]?
      let status := filterStatus cmd.op ret status
      if ret = 0 ∧ cmd.op.isWrite ∧ source ≠ .recovery ∧ s.persistenceMode ≠ .snapshot then
        let appended ← kvsAofAppend tokens
        if appended < 0 then throw .exit
        else return (filterText cmd.op ret, status)
      else return (filterText cmd.op ret, status)

/-- `kvs_execute_tokens`: a text that does not fit with its `NUL` is an error. -/
def kvsExecuteTokens (tokens : List Bytes) (capacity : Nat) (source : CommandSource)
    (status : ExecStatus) : Serve (Option Bytes × ExecStatus) := do
  let (text, status) ← kvsFilterProtocol tokens source status
  return (if text.length ≥ capacity then none else some text, status)

def replyIfFits (capacity : Nat) (reply : Bytes) : Option Bytes :=
  if reply.length > capacity then none else some reply

/-- `kvs_encode_value_to_output`: the reply, and the buffer that may have grown
for it. -/
def kvsEncodeValueToOutput (output : OutputBuffer) (value : Bytes) :
    Run (Option Bytes × OutputBuffer) := do
  if output.data.length > output.storage.capacity then return (none, output)
  else
    match kvsEncodedValueResponseSize value with
    | none => return (none, output)
    | some required =>
      if required > intMax - output.data.length then return (none, output)
      else
        match ← kvsOutputBufferEnsureSpace output required with
        | none => return (none, output)
        | some output =>
          match kvsEncodeValueResponse value output.available with
          | none => return (none, output)
          | some bytes => return (if bytes.length > intMax then none else some bytes, output)

def clientReply (op : Op) (status : ExecStatus) : Bytes :=
  match op with
  | .set =>
    if status = .ok then ascii "+OK\r\n"
    else if status = .alreadyExists then ascii "-ERR key already exists\r\n"
    else ascii "-ERR SET failed\r\n"
  | .del =>
    if status = .ok then ascii ":1\r\n"
    else if status = .notFound then ascii ":0\r\n"
    else ascii "-ERR DEL failed\r\n"
  | .mod =>
    if status = .ok then ascii "+OK\r\n"
    else if status = .notFound then ascii "-ERR key not found\r\n"
    else ascii "-ERR MOD failed\r\n"
  | .exist =>
    if status = .found then ascii ":1\r\n"
    else if status = .notFound then ascii ":0\r\n"
    else ascii "-ERR EXIST failed\r\n"
  | .get => []

def Op.arity : Op → Nat
  | .set | .mod => 3
  | .get | .del | .exist => 2

/-- What a command turned into: the reply written behind the output (nothing on
failure), the output buffer, and the status for the caller. -/
structure Executed where
  reply : Option Bytes
  output : OutputBuffer
  status : ExecStatus

def pingReply (fieldCount : Nat) : Bytes :=
  if fieldCount = 1 then ascii "+PONG\r\n" else ascii "-ERR wrong number of arguments for PING\r\n"

def saveReply (fieldCount : Nat) : Serve Bytes := do
  if fieldCount ≠ 1 then return ascii "-ERR wrong number of arguments for SAVE\r\n"
  else if ← kvsSaveCurrentSnapshot then return ascii "+OK\r\n"
  else return ascii "-ERR SAVE failed\r\n"

def getReply (engine : EngineId) (key : Bytes) (output : OutputBuffer) (capacity : Nat) :
    Serve (Option Bytes × OutputBuffer) := do
  match ← kvsGetValue engine key with
  | none => return (replyIfFits capacity (ascii "$-1\r\n"), output)
  | some value => onRuntime (kvsEncodeValueToOutput output value)

/-- A command of the table with the right number of fields, or an unknown one. -/
def runCommand (tokens : List Bytes) (cmd : Option CommandId) (output : OutputBuffer)
    (source : CommandSource) : Serve Executed := do
  let capacity := output.available
  match cmd, tokens with
  | some ⟨engine, .get⟩, [_, key] =>
    let (reply, output) ← getReply engine key output capacity
    return ⟨reply, output, .failed⟩
  | _, _ =>
    let (result, status) ← kvsExecuteTokens tokens capacity source .failed
    let executed := if result.isSome then status else .failed
    match result, source, cmd with
    | some _, .client, some cmd =>
      return ⟨replyIfFits capacity (clientReply cmd.op status), output, executed⟩
    | _, _, _ => return ⟨result, output, executed⟩

/-- `kvs_execute_fields` once the fields are tokens. -/
def executeTokens (tokens : List Bytes) (output : OutputBuffer) (source : CommandSource) :
    Serve Executed := do
  let s ← get
  let capacity := output.available
  let name := tokens.headD []
  if source = .client ∧ strcmp name (ascii "PING") = 0 then
    return ⟨replyIfFits capacity (pingReply tokens.length), output, .failed⟩
  else if source = .client ∧ s.role = .replica ∧ ¬s.isOnline then
    return ⟨replyIfFits capacity (ascii "-LOADING replica synchronization in progress\r\n"), output,
      .failed⟩
  else if source = .client ∧ strcmp name (ascii "SAVE") = 0 then
    let reply ← saveReply tokens.length
    return ⟨replyIfFits capacity reply, output, .failed⟩
  else
    match findCommand name with
    | some cmd =>
      if tokens.length ≠ cmd.op.arity then
        let text := ascii "-ERR wrong number of arguments for " ++ name ++ ascii "\r\n"
        let reply := if source = .client ∧ text.length < capacity then some text else none
        return ⟨reply, output, .failed⟩
      else runCommand tokens (some cmd) output source
    | none =>
      if source = .client then
        return ⟨replyIfFits capacity (ascii "-ERR unknown command\r\n"), output, .failed⟩
      else runCommand tokens none output source

def kvsExecuteFields (fields : List Bytes) (output : OutputBuffer) (source : CommandSource) :
    Serve Executed := do
  if output.storage.capacity = 0 ∨ output.data.length > output.storage.capacity ∨
      fields.length = 0 ∨ fields.length > kvsMaxTokens then
    return ⟨none, output, .failed⟩
  else if ∃ field ∈ fields, 0 ∈ field then
    let reply := ascii "-ERR NUL bytes are not supported\r\n"
    return ⟨if source = .client then replyIfFits output.available reply else none, output, .failed⟩
  else
    match ← onRuntime (kvsFieldsToTokens fields) with
    | none => return ⟨none, output, .failed⟩
    | some tokens =>
      let executed ← executeTokens (tokens.map (·.bytes)) output source
      onRuntime (freeTokens tokens)
      return executed

/-- The handler of a command from a log: `kvs_recovery_fields_protocol` and
`kvs_replication_command_protocol` differ in the source they name. Only a
command with status `ok` is a success. The response is an array of the caller,
no block of the allocator. -/
def logHandler (source : CommandSource) (responseCapacity : Nat) (fields : List Bytes) :
    Serve (Option Bytes) := do
  let output : OutputBuffer := ⟨⟨some 0, responseCapacity⟩, [], 0⟩
  let executed ← kvsExecuteFields fields output source
  return if executed.status = .ok then executed.reply else none

def kvsRecoveryFieldsProtocol : List Bytes → Serve (Option Bytes) := logHandler .recovery 1024

def kvsReplicationCommandProtocol (responseCapacity : Nat) : List Bytes → Serve (Option Bytes) :=
  logHandler .replication responseCapacity

end KvStore
