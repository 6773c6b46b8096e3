import KvStore.Lib.Program
import KvStore.Network.Buffer
import KvStore.Persistence.Disk

/-!
# Batches of writes

`src/persistence/uring_io.c`. The kernel's part is what the calls of liburing
return: a submission takes some of the prepared requests, a completion ends one
of the outstanding ones, in any order, with an error or after writing a prefix
of its bytes. The answers are given in advance by sequences, so a statement
over all of them covers every kernel.
-/

namespace KvStore.Uring

open Lib

def queueDepth : Nat := 8

def eintr : Int := 4
def enoent : Int := 2
def eio : Int := 5
def ebusy : Int := 16
def einval : Int := 22
def eoverflow : Int := 75

/-- `kvs_uring_write_t`. -/
structure Write where
  data : Bytes
  offset : Int
  deriving DecidableEq

/-- A request as it stands in the queue; `id` is its `user_data`. -/
structure Request where
  id : Nat
  position : Nat
  data : Bytes
  deriving DecidableEq

/-- What the kernel answers to its calls, by their number. -/
structure Kernel where
  /-- `io_uring_get_sqe` returns `NULL`. -/
  full : Nat → Bool
  submit : Nat → Int
  wait : Nat → Int
  /-- Which of the outstanding requests ends, and with what result. -/
  completes : Nat → Nat × Int
  cancel : Nat → Int
  /-- Whether the file is in append mode; nothing when `fcntl` fails. -/
  append : Option Bool

/-- The queue, the file behind the descriptor, and `errno`. -/
structure Ring where
  file : Bytes
  prepared : List Request
  outstanding : List Request
  initialized : Bool
  errno : Int
  /-- The calls made so far, and how many of their answers were `EINTR`. -/
  calls : Nat
  interrupts : Nat
  deriving DecidableEq

/-- Why a call does not return: `_Exit`, a loop that passed its bound, or a
completion that can never come. -/
inductive Halt
  | exit (ring : Ring)
  | fuel (ring : Ring)
  | blocked (ring : Ring)
  deriving DecidableEq

abbrev Io (α : Type) := Program Ring Halt α

def ask (answer : Nat → α) : Io α := fun ring =>
  .ok (answer ring.calls, { ring with calls := ring.calls + 1 })

def interrupted : Io Unit := modify fun ring => { ring with interrupts := ring.interrupts + 1 }

def setErrno (e : Int) : Io Unit := modify fun ring => { ring with errno := e }

def outOfFuel : Io α := do throw (.fuel (← get))

-- ---------------------------------------------------------------------------
-- The kernel
-- ---------------------------------------------------------------------------

def ioUringSubmit (kernel : Kernel) : Io Int := do
  let answer ← ask kernel.submit
  let ring ← get
  if answer > 0 then
    let taken := min answer.toNat ring.prepared.length
    set { ring with
      prepared := ring.prepared.drop taken
      outstanding := ring.outstanding ++ ring.prepared.take taken }
    return taken
  else return answer

/-- The file after a request ended with `result`. -/
def Request.effect (request : Request) (result : Int) (file : Bytes) : Bytes :=
  if result > 0 then pwrite file request.position (request.data.take result.toNat) else file

def Request.result (request : Request) (answer : Int) : Int :=
  min answer request.data.length

def complete (kernel : Kernel) : Io (Nat × Int) := do
  let (which, answer) ← ask kernel.completes
  let ring ← get
  let index := which % ring.outstanding.length
  match ring.outstanding[index]? with
  | none => throw (.blocked ring)
  | some request =>
    let result := request.result answer
    set { ring with
      file := request.effect result ring.file
      outstanding := ring.outstanding.eraseIdx index
      interrupts := if result = -eintr then ring.interrupts + 1 else ring.interrupts }
    return (request.id, result)

-- ---------------------------------------------------------------------------
-- The library
-- ---------------------------------------------------------------------------

/-- A block and its `uring_write_progress_t`. -/
structure Slot where
  write : Write
  completed : Nat
  requested : Nat
  deriving DecidableEq

def Slot.request (slot : Slot) (i : Nat) : Request where
  id := i
  position := (slot.write.offset + slot.completed).toNat
  data := (slot.write.data.drop slot.completed).take slot.requested

def uringPrepareWrites (kernel : Kernel) : Nat → List Slot → Io (Option (Nat × List Slot))
  | _, [] => return some (0, [])
  | i, slot :: rest => do
    if slot.completed = slot.write.data.length then
      match ← uringPrepareWrites kernel (i + 1) rest with
      | none => return none
      | some (count, rest) => return some (count, { slot with requested := 0 } :: rest)
    else
      let remainingBytes := slot.write.data.length - slot.completed
      let slot := { slot with requested := min remainingBytes intMax }
      if ← ask kernel.full then
        setErrno ebusy
        return none
      else
        modify fun ring => { ring with prepared := ring.prepared ++ [slot.request i] }
        match ← uringPrepareWrites kernel (i + 1) rest with
        | none => return none
        | some (count, rest) => return some (count + 1, slot :: rest)

def uringSubmitPrepared (kernel : Kernel) (preparedCount : Nat) :
    (fuel submitted : Nat) → Io (Bool × Nat)
  | 0, _ => outOfFuel
  | fuel + 1, submitted =>
    if submitted < preparedCount then do
      let result ← ioUringSubmit kernel
      if result = -eintr then
        interrupted
        uringSubmitPrepared kernel preparedCount fuel submitted
      else if result < 0 then
        setErrno (-result)
        return (false, submitted)
      else if result = 0 then
        setErrno eio
        return (false, submitted)
      else uringSubmitPrepared kernel preparedCount fuel (submitted + result.toNat)
    else return (true, submitted)

def uringReceiveWriteResult (kernel : Kernel) : (fuel : Nat) → Io (Option (Nat × Int))
  | 0 => outOfFuel
  | fuel + 1 => do
    let result ← ask kernel.wait
    if result = -eintr then
      interrupted
      uringReceiveWriteResult kernel fuel
    else if result < 0 then
      setErrno (-result)
      return none
    else return some (← complete kernel)

/-- One `io_uring_register_sync_cancel`. -/
def cancelOne (kernel : Kernel) : (fuel : Nat) → Io Unit
  | 0 => outOfFuel
  | fuel + 1 => do
    let result ← ask kernel.cancel
    if result = -eintr then
      interrupted
      cancelOne kernel fuel
    else if result < 0 ∧ result ≠ -enoent then throw (.exit (← get))
    else return ()

def cancelAll (kernel : Kernel) (fuel : Nat) : Nat → Io Unit
  | 0 => return ()
  | count + 1 => do
    cancelOne kernel fuel
    cancelAll kernel fuel count

def reap (kernel : Kernel) (fuel : Nat) : (pending : Nat) → Io Unit
  | 0 => return ()
  | pending + 1 => do
    match ← uringReceiveWriteResult kernel fuel with
    | none => throw (.exit (← get))
    | some _ => reap kernel fuel pending

def kvsUringIoClose : Io Unit := modify fun ring =>
  if ring.initialized then { ring with prepared := [], initialized := false } else ring

/-- Every pending request cancelled, or waited for where that was too late. -/
def finish (kernel : Kernel) (fuel pending : Nat) : Io Unit :=
  if pending > 0 then do
    cancelAll kernel fuel queueDepth
    reap kernel fuel pending
  else return ()

def uringAbortRequests (kernel : Kernel) (fuel pending : Nat) : Io Unit := do
  let originalError := (← get).errno
  finish kernel fuel pending
  kvsUringIoClose
  setErrno originalError

def Slot.settle (slot : Slot) (result firstError : Int) : Slot × Int :=
  if result = -eintr then ({ slot with requested := 0 }, firstError)
  else if result ≤ 0 ∨ result > slot.requested then
    ({ slot with requested := 0 },
      if firstError = 0 then if result < 0 then -result else eio else firstError)
  else ({ slot with requested := 0, completed := slot.completed + result.toNat }, firstError)

/-- `errno` for a round whose first error is known. -/
def reportFirst (firstError : Int) : Io Unit :=
  if firstError ≠ 0 then setErrno firstError else return ()

def receiveAll (kernel : Kernel) (fuel : Nat) :
    (left : Nat) → List Slot → Int → Io (Option (List Slot × Int))
  | 0, slots, firstError => return some (slots, firstError)
  | left + 1, slots, firstError => do
    match ← uringReceiveWriteResult kernel fuel with
    | none =>
      reportFirst firstError
      uringAbortRequests kernel fuel (left + 1)
      return none
    | some (blockIndex, writeResult) =>
      match slots[blockIndex]? with
      | none => receiveAll kernel fuel left slots (if firstError = 0 then eio else firstError)
      | some slot =>
        if slot.requested = 0 then
          receiveAll kernel fuel left slots (if firstError = 0 then eio else firstError)
        else
          let (slot, firstError) := slot.settle writeResult firstError
          receiveAll kernel fuel left (slots.set blockIndex slot) firstError

inductive Round
  | done
  | failed
  | again (slots : List Slot)
  deriving DecidableEq

def writeRound (kernel : Kernel) (fuel : Nat) (slots : List Slot) : Io Round := do
  match ← uringPrepareWrites kernel 0 slots with
  | none =>
    uringAbortRequests kernel fuel 0
    return .failed
  | some (preparedCount, slots) =>
    if preparedCount = 0 then return .done
    else
      let (submitted, submittedCount) ← uringSubmitPrepared kernel preparedCount fuel 0
      if submitted then
        match ← receiveAll kernel fuel submittedCount slots 0 with
        | none => return .failed
        | some (slots, firstError) =>
          if firstError ≠ 0 then
            setErrno firstError
            return .failed
          else return .again slots
      else
        uringAbortRequests kernel fuel submittedCount
        return .failed

def writeLoop (kernel : Kernel) (fuel : Nat) : (rounds : Nat) → List Slot → Io Int
  | 0, _ => outOfFuel
  | rounds + 1, slots => do
    match ← writeRound kernel fuel slots with
    | .done => return 0
    | .failed => return -1
    | .again slots => writeLoop kernel fuel rounds slots

def Write.rangeEnd (write : Write) : Int := write.offset + write.data.length

def Write.overlaps (write other : Write) : Bool :=
  other.data.length ≠ 0 ∧ write.offset < other.rangeEnd ∧ other.offset < write.rangeEnd

def checkWrite (earlier : List Write) (write : Write) : Option Int :=
  if write.offset < 0 then some einval
  else if write.rangeEnd > offMax then some eoverflow
  else if write.data.length = 0 then none
  else if earlier.any write.overlaps then some einval
  else none

def checkWrites : (earlier : List Write) → List Write → Option Int
  | _, [] => none
  | earlier, write :: rest =>
    match checkWrite earlier write with
    | some e => some e
    | none => checkWrites (earlier ++ [write]) rest

def refuse (e : Int) : Io Int := do
  setErrno e
  return -1

def startSlots (writes : List Write) : List Slot := writes.map fun write => ⟨write, 0, 0⟩

def kvsUringIoWriteBatch (kernel : Kernel) (fuel : Nat) (writes : List Write) : Io Int := do
  if ¬(← get).initialized ∨ writes.length > queueDepth then refuse einval
  else if writes.length = 0 then return 0
  else
    match kernel.append with
    | none => return -1
    | some true => refuse einval
    | some false =>
      match checkWrites [] writes with
      | some e => refuse e
      | none => writeLoop kernel fuel fuel (startSlots writes)

end KvStore.Uring
