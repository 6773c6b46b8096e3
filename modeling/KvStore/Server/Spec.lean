import KvStore.Persistence.SnapshotSave
import KvStore.Server.Commands

/-!
# What the commands mean

Four finite maps, and for each command of a client the maps after it and the
reply. This is the specification of the server; it knows nothing of engines,
allocation or files.
-/

namespace KvStore

open Lib

def Maps.perform (M : Maps) (cmd : CommandId) (k v : Bytes) : Maps × ExecStatus :=
  let m := M cmd.engine
  match cmd.op with
  | .set =>
    if k ∈ m ∨ cmd.engine.Room m then (M.put cmd.engine (m.insert k v), .ok) else (M, .failed)
  | .mod => if k ∈ m then (M.put cmd.engine (m.insert k v), .ok) else (M, .notFound)
  | .del =>
    if k ∈ m then (M.put cmd.engine (m.erase k), .ok)
    else (M, if cmd.engine = .hash then .failed else .notFound)
  | .exist => (M, if k ∈ m then .found else .notFound)
  | .get => (M, .failed)

def Maps.dataReply (M : Maps) (cmd : CommandId) (k : Bytes) : Bytes :=
  let m := M cmd.engine
  match cmd.op with
  | .set => if k ∈ m ∨ cmd.engine.Room m then ascii "+OK\r\n" else ascii "-ERR SET failed\r\n"
  | .mod => if k ∈ m then ascii "+OK\r\n" else ascii "-ERR key not found\r\n"
  | .del =>
    if k ∈ m then ascii ":1\r\n"
    else if cmd.engine = .hash then ascii "-ERR DEL failed\r\n"
    else ascii ":0\r\n"
  | .exist => if k ∈ m then ascii ":1\r\n" else ascii ":0\r\n"
  | .get =>
    match m.lookup k with
    | some v => encodeField v
    | none => ascii "$-1\r\n"

def Maps.saveAnswer (mode : PersistenceMode) (M : Maps) : Bytes :=
  if mode = .aof ∨ offMax < M.snapshotSize then ascii "-ERR SAVE failed\r\n" else ascii "+OK\r\n"

/-- A client's command on a server that is no replica. -/
def Maps.answer (mode : PersistenceMode) (M : Maps) (fields : List Bytes) : Maps × Bytes :=
  let name := fields.headD []
  if ∃ field ∈ fields, 0 ∈ field then (M, ascii "-ERR NUL bytes are not supported\r\n")
  else if name = ascii "PING" then (M, pingReply fields.length)
  else if name = ascii "SAVE" then
    (M, if fields.length = 1 then M.saveAnswer mode
      else ascii "-ERR wrong number of arguments for SAVE\r\n")
  else
    match findCommand name with
    | none => (M, ascii "-ERR unknown command\r\n")
    | some cmd =>
      if fields.length ≠ cmd.op.arity then
        (M, ascii "-ERR wrong number of arguments for " ++ name ++ ascii "\r\n")
      else
        let k := fields.getD 1 []
        ((M.perform cmd k (fields.getD 2 [])).1, M.dataReply cmd k)

def Maps.answers (mode : PersistenceMode) (M : Maps) : List (List Bytes) → Maps × List Bytes
  | [] => (M, [])
  | fields :: rest =>
    let (M', reply) := M.answer mode fields
    let (M'', replies) := M'.answers mode rest
    (M'', reply :: replies)

def logged (fields : List Bytes) : Option (CommandId × Bytes × Bytes) :=
  if ∃ field ∈ fields, 0 ∈ field then none
  else
    match findCommand (fields.headD []) with
    | none => none
    | some cmd =>
      if cmd.op.isWrite ∧ fields.length = cmd.op.arity then
        some (cmd, fields.getD 1 [], fields.getD 2 [])
      else none

/-- A logged command run again: nothing unless it succeeds. -/
def Maps.redo (M : Maps) (fields : List Bytes) : Option Maps :=
  match logged fields with
  | none => none
  | some (cmd, k, v) =>
    if cmd.engine.Admits k ∧ (M.perform cmd k v).2 = .ok then some (M.perform cmd k v).1 else none

def Maps.after (M : Maps) (writes : List (List Bytes)) : Option Maps := writes.foldlM Maps.redo M

/-- The key of a command that reaches the hash engine has a bucket. -/
def HashKeyInRange (fields : List Bytes) : Prop :=
  ∀ op k, findCommand (fields.headD []) = some ⟨.hash, op⟩ → fields[1]? = some k →
    fields.length = op.arity → (∀ field ∈ fields, 0 ∉ field) → HashAdmits k

theorem HashKeyInRange.of_key {fields : List Bytes} (h : fields[1]? = some k) (hk : HashAdmits k) :
    HashKeyInRange fields := by
  intro op k' _ hk' _ _
  rw [h, Option.some.injEq] at hk'
  exact hk' ▸ hk

theorem HashKeyInRange.of_name {fields : List Bytes}
    (h : ∀ op, findCommand (fields.headD []) ≠ some ⟨.hash, op⟩) : HashKeyInRange fields :=
  fun op _ hfound _ _ _ => absurd hfound (h op)

end KvStore
