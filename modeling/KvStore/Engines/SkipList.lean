import KvStore.Engines.Interface
import KvStore.Lib.LinkedList

/-!
# The skip list engine

`src/engines/kvs_skiplist.c`. A node owns an array of forward pointers, as
many as its level plus one; an access outside it is undefined behaviour. The
header has all of them.
-/

namespace KvStore

open Lib

def kvsSkiplistMaxLevel : Nat := 6

structure KvsSkiplist where
  /-- `0` when there is no header. -/
  header : Ptr
  level : Nat
  key : Ptr → CString
  value : Ptr → CString
  forward : Ptr → List (Option Ptr)
  /-- The block that holds the forward array. -/
  forwardPtr : Ptr → Ptr

namespace KvsSkiplist

def forwardAt (T : KvsSkiplist) (p : Ptr) (i : Nat) : Except Stop (Option Ptr) :=
  match (T.forward p)[i]? with
  | none => .error .undefined
  | some next => .ok next

def setForward (T : KvsSkiplist) (p : Ptr) (i : Nat) (next : Option Ptr) : Except Stop KvsSkiplist :=
  if i < (T.forward p).length then
    .ok { T with forward := fun q => if q = p then (T.forward p).set i next else T.forward q }
  else .error .undefined

def setValue (T : KvsSkiplist) (p : Ptr) (v : CString) : KvsSkiplist :=
  { T with value := fun q => if q = p then v else T.value q }

def addNode (T : KvsSkiplist) (p : Ptr) (level : Nat) (k v : CString) (forward : Ptr) :
    KvsSkiplist :=
  { T with
    key := fun q => if q = p then k else T.key q
    value := fun q => if q = p then v else T.value q
    forward := fun q => if q = p then List.replicate (level + 1) none else T.forward q
    forwardPtr := fun q => if q = p then forward else T.forwardPtr q }

end KvsSkiplist

/-- `skiplist_create_node`: the node, or nothing with all given back. -/
def skiplistCreateNode (inst : KvsSkiplist) (level : Nat) (key value : Bytes) :
    Run (Option (Ptr × KvsSkiplist)) := do
  if level > kvsSkiplistMaxLevel then return none
  match ← kvsMalloc with
  | none => return none
  | some node =>
    match ← copyString key with
    | none =>
      kvsFree node
      return none
    | some kcopy =>
      match ← copyString value with
      | none =>
        kvsFree kcopy.ptr
        kvsFree node
        return none
      | some vcopy =>
        match ← kvsMalloc with
        | none =>
          kvsFree kcopy.ptr
          kvsFree vcopy.ptr
          kvsFree node
          return none
        | some forward => return some (node, inst.addNode node level kcopy vcopy forward)

def kvsSkiplistCreate : Run (Int × KvsSkiplist) := do
  let blank : KvsSkiplist :=
    { header := 0, level := 0, key := fun _ => ⟨0, []⟩, value := fun _ => ⟨0, []⟩,
      forward := fun _ => [], forwardPtr := fun _ => 0 }
  match ← skiplistCreateNode blank kvsSkiplistMaxLevel [] [] with
  | none => return (-1, blank)
  | some (header, inst) => return (0, { inst with header })

/-- The loop of `kvs_skiplist_destory`: the successor is read before the node is
freed. -/
def skiplistFreeNodes (T : KvsSkiplist) : Nat → Option Ptr → Run Unit
  | 0, _ => throw .fuel
  | _ + 1, none => pure ()
  | fuel + 1, some current => do
    let next ← ofExcept (T.forwardAt current 0)
    kvsFree (T.key current).ptr
    kvsFree (T.value current).ptr
    kvsFree (T.forwardPtr current)
    kvsFree current
    skiplistFreeNodes T fuel next

def kvsSkiplistDestory (inst : KvsSkiplist) : Run KvsSkiplist := do
  if inst.header = 0 then return inst
  let fuel ← loopFuel
  let first ← ofExcept (inst.forwardAt inst.header 0)
  skiplistFreeNodes inst fuel first
  kvsFree (inst.key inst.header).ptr
  kvsFree (inst.value inst.header).ptr
  kvsFree (inst.forwardPtr inst.header)
  kvsFree inst.header
  return { inst with header := 0, level := 0 }

/-- The loop of `skiplist_random_level`, with `left` levels to go; `rand()` is
called before the level is compared. -/
def randomLevelLoop : (left level : Nat) → Run Nat
  | 0, level => do
    let _ ← randBelowHalf
    return level
  | left + 1, level => do
    if ← randBelowHalf then randomLevelLoop left (level + 1) else return level

def skiplistRandomLevel : Run Nat := randomLevelLoop kvsSkiplistMaxLevel 0

def skiplistWalk (T : KvsSkiplist) (key : Bytes) (i : Nat) : Nat → Ptr → Except Stop Ptr
  | 0, _ => .error .fuel
  | fuel + 1, current => do
    match ← T.forwardAt current i with
    | none => .ok current
    | some next =>
      if strcmp (T.key next).bytes key < 0 then skiplistWalk T key i fuel next else .ok current

/-- The search loop from level `i` down: `update[0]` to `update[i]`, of which
`update[0]` is also where the search ends. -/
def skiplistDescend (T : KvsSkiplist) (key : Bytes) (fuel : Nat) : Nat → Ptr → Except Stop (List Ptr)
  | 0, current => do
    let current ← skiplistWalk T key 0 fuel current
    .ok [current]
  | i + 1, current => do
    let current ← skiplistWalk T key (i + 1) fuel current
    let update ← skiplistDescend T key fuel i current
    .ok (update ++ [current])

/-- The search of every operation: the nodes passed last on each level, and
the node behind them on level 0. -/
def skiplistFind (T : KvsSkiplist) (key : Bytes) (fuel : Nat) :
    Except Stop (List Ptr × Option Ptr) := do
  let update ← skiplistDescend T key fuel T.level T.header
  match update with
  | [] => .error .undefined
  | current :: _ =>
    let current ← T.forwardAt current 0
    .ok (update, current)

def skiplistLink (node : Ptr) : List Ptr → Nat → KvsSkiplist → Except Stop KvsSkiplist
  | [], _, T => .ok T
  | u :: update, i, T => do
    let next ← T.forwardAt u i
    let T ← T.setForward node i next
    let T ← T.setForward u i (some node)
    skiplistLink node update (i + 1) T

def kvsSkiplistSet (skipList : KvsSkiplist) (key value : Bytes) : Run (Int × KvsSkiplist) := do
  if skipList.header = 0 then return (-1, skipList)
  let fuel ← loopFuel
  let (update, current) ← ofExcept (skiplistFind skipList key fuel)
  match current.filter fun c => strcmp (skipList.key c).bytes key = 0 with
  | none =>
    let level ← skiplistRandomLevel
    let update := update ++ List.replicate (level - skipList.level) skipList.header
    match ← skiplistCreateNode skipList level key value with
    | none => return (-2, skipList)
    | some (newNode, T) =>
      let T := if level > skipList.level then { T with level := level } else T
      let T ← ofExcept (skiplistLink newNode (update.take (level + 1)) 0 T)
      return (0, T)
  | some current =>
    match ← copyString value with
    | none => return (-2, skipList)
    | some newValue =>
      kvsFree (skipList.value current).ptr
      return (0, skipList.setValue current newValue)

def skiplistSearchNode (T : KvsSkiplist) (key : Bytes) (fuel : Nat) : Except Stop (Option Ptr) := do
  let (_, current) ← skiplistFind T key fuel
  .ok (current.filter fun c => strcmp (T.key c).bytes key = 0)

def kvsSkiplistGet (inst : KvsSkiplist) (key : Bytes) : Run (Option Bytes) := do
  let fuel ← loopFuel
  match ← ofExcept (skiplistSearchNode inst key fuel) with
  | none => return none
  | some node => return some (inst.value node).bytes

/-- The loop that takes a node out, up to the first level it is not on. -/
def skiplistUnlink (current : Ptr) : List Ptr → Nat → KvsSkiplist → Except Stop KvsSkiplist
  | [], _, T => .ok T
  | u :: update, i, T => do
    let next ← T.forwardAt u i
    if next ≠ some current then .ok T
    else
      let next ← T.forwardAt current i
      let T ← T.setForward u i next
      skiplistUnlink current update (i + 1) T

/-- The loop that lowers the level past empty lists. -/
def skiplistLower (T : KvsSkiplist) : Nat → Except Stop Nat
  | 0 => .ok 0
  | level + 1 => do
    match ← T.forwardAt T.header (level + 1) with
    | none => skiplistLower T level
    | some _ => .ok (level + 1)

def kvsSkiplistDel (skipList : KvsSkiplist) (key : Bytes) : Run (Int × KvsSkiplist) := do
  if skipList.header = 0 then return (-1, skipList)
  let fuel ← loopFuel
  let (update, current) ← ofExcept (skiplistFind skipList key fuel)
  match current.filter fun c => strcmp (skipList.key c).bytes key = 0 with
  | none => return (1, skipList)
  | some current =>
    let T ← ofExcept (skiplistUnlink current update 0 skipList)
    let level ← ofExcept (skiplistLower T T.level)
    kvsFree (T.forwardPtr current)
    kvsFree (T.value current).ptr
    kvsFree (T.key current).ptr
    kvsFree current
    return (0, { T with level := level })

def kvsSkiplistMod (skipList : KvsSkiplist) (key newValue : Bytes) : Run (Int × KvsSkiplist) := do
  if skipList.header = 0 then return (-1, skipList)
  let fuel ← loopFuel
  match ← ofExcept (skiplistSearchNode skipList key fuel) with
  | none => return (1, skipList)
  | some node =>
    match ← copyString newValue with
    | none => return (-2, skipList)
    | some valueCopy =>
      kvsFree (skipList.value node).ptr
      return (0, skipList.setValue node valueCopy)

def kvsSkiplistExist (skipList : KvsSkiplist) (key : Bytes) : Run Int := do
  if skipList.header = 0 then return -1
  let fuel ← loopFuel
  match ← ofExcept (skiplistSearchNode skipList key fuel) with
  | none => return 1
  | some _ => return 0

def skiplistVisit (T : KvsSkiplist) : Nat → Option Ptr → Except Stop (List (Bytes × Bytes))
  | 0, _ => .error .fuel
  | _ + 1, none => .ok []
  | fuel + 1, some node => do
    let next ← T.forwardAt node 0
    let rest ← skiplistVisit T fuel next
    .ok (((T.key node).bytes, (T.value node).bytes) :: rest)

def kvsSkiplistForeach (inst : KvsSkiplist) : Run (List (Bytes × Bytes)) := do
  let fuel ← loopFuel
  let first ← ofExcept (inst.forwardAt inst.header 0)
  ofExcept (skiplistVisit inst fuel first)

def skiplistOps : EngineOps KvsSkiplist where
  create := kvsSkiplistCreate
  set := kvsSkiplistSet
  get := kvsSkiplistGet
  del := kvsSkiplistDel
  mod := kvsSkiplistMod
  exist := kvsSkiplistExist
  foreach := kvsSkiplistForeach

end KvStore
