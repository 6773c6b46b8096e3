import KvStore.Memory.Runtime

/-!
# Connection buffers

`src/network/buffer.c`. A buffer is a block of some capacity and the bytes in
use at its start. It grows by doubling; lengths are `int`s.
-/

namespace KvStore

open Lib

def bufferLength : Nat := 1024

def intMax : Nat := 2 ^ 31 - 1

def ntycoReplyBatchThreshold : Nat := 64 * 1024

structure Storage where
  block : Option Ptr
  capacity : Nat

def Storage.none : Storage := ⟨Option.none, 0⟩

/-- The doubling loop; a capacity of at least one reaches `required` within
`required` rounds. -/
def growCapacity : (rounds capacity required : Nat) → Nat
  | 0, capacity, _ => capacity
  | rounds + 1, capacity, required =>
    if capacity < required then
      growCapacity rounds (if capacity > intMax / 2 then required else capacity * 2) required
    else capacity

/-- `ensure_buffer_space`: the storage with room for `minimumFree` bytes behind
the first `length`. -/
def ensureBufferSpace (storage : Storage) (length minimumFree : Nat) : Run (Option Storage) := do
  if minimumFree = 0 ∨ length > storage.capacity then return .none
  else if storage.capacity - length ≥ minimumFree then return some storage
  else if length > intMax - minimumFree then return .none
  else
    let required := length + minimumFree
    let start := if storage.capacity > 0 then storage.capacity else bufferLength
    match ← kvsMalloc with
    | .none => return .none
    | some block =>
      freeBlock storage.block
      return some ⟨some block, growCapacity required start required⟩

structure InputBuffer where
  storage : Storage
  /-- Received and not yet handled. -/
  data : Bytes

structure OutputBuffer where
  storage : Storage
  /-- The replies not yet sent. -/
  data : Bytes
  offset : Nat

def InputBuffer.empty : InputBuffer := ⟨Storage.none, []⟩

def OutputBuffer.empty : OutputBuffer := ⟨Storage.none, [], 0⟩

def InputBuffer.available (buffer : InputBuffer) : Nat :=
  buffer.storage.capacity - buffer.data.length

def OutputBuffer.available (buffer : OutputBuffer) : Nat :=
  buffer.storage.capacity - buffer.data.length

def kvsInputBufferEnsureSpace (buffer : InputBuffer) (minimumFree : Nat) :
    Run (Option InputBuffer) := do
  match ← ensureBufferSpace buffer.storage buffer.data.length minimumFree with
  | .none => return .none
  | some storage => return some { buffer with storage }

def kvsOutputBufferEnsureSpace (buffer : OutputBuffer) (minimumFree : Nat) :
    Run (Option OutputBuffer) := do
  if buffer.offset > buffer.data.length then return .none
  else
    match ← ensureBufferSpace buffer.storage buffer.data.length minimumFree with
    | .none => return .none
    | some storage => return some { buffer with storage }

def kvsInputBufferConsume (buffer : InputBuffer) (consumed : Nat) : Option InputBuffer :=
  if consumed > buffer.data.length then .none
  else some { buffer with data := buffer.data.drop consumed }

-- ---------------------------------------------------------------------------
-- Growing
-- ---------------------------------------------------------------------------

theorem growCapacity_spec (rounds capacity : Nat) (hcap : 1 ≤ capacity) (hint : capacity ≤ intMax)
    (hreq : required ≤ intMax) (hrounds : required ≤ capacity + rounds) :
    required ≤ growCapacity rounds capacity required ∧
      growCapacity rounds capacity required ≤ intMax ∧
      growCapacity rounds capacity required ≤ max capacity (2 * required) := by
  induction rounds generalizing capacity with
  | zero => exact ⟨by simpa [growCapacity] using hrounds, hint, Nat.le_max_left ..⟩
  | succ rounds ih =>
    simp only [growCapacity]
    split
    · split
      · obtain ⟨h1, h2, h3⟩ := ih required (by omega) hreq (by omega)
        exact ⟨h1, h2, by omega⟩
      · obtain ⟨h1, h2, h3⟩ := ih (capacity * 2) (by omega) (by omega) (by omega)
        exact ⟨h1, h2, by omega⟩
    · exact ⟨by omega, hint, Nat.le_max_left ..⟩

theorem ensureBufferSpace_onlyMemory (storage : Storage) (length minimumFree : Nat) :
    OnlyMemory (ensureBufferSpace storage length minimumFree) rt := by
  unfold ensureBufferSpace
  refine .ite (.pure _) (.ite (.pure _) (.ite (.pure _) (.bind .malloc fun r => ?_)))
  cases r with
  | none => exact .pure _
  | some block =>
    refine .bind (fun rt₁ _ => ?_) fun _ => .pure _
    exact (freeBlock_spec _ rt₁).weaken fun _ _ h => h.1

theorem kvsOutputBufferEnsureSpace_onlyMemory (buffer : OutputBuffer) (minimumFree : Nat) :
    OnlyMemory (kvsOutputBufferEnsureSpace buffer minimumFree) rt := by
  unfold kvsOutputBufferEnsureSpace
  refine .ite (.pure _) (.bind (ensureBufferSpace_onlyMemory _ _ _) fun r => ?_)
  cases r <;> exact .pure _

/-- Space that fits an `int` is found, and the capacity stays within twice what
is needed. -/
theorem ensureBufferSpace_spec (hfail : ¬Runtime.CanFail rt) (hlen : length ≤ storage.capacity)
    (hcap : storage.capacity ≤ intMax) (hfree : 0 < minimumFree)
    (hint : length + minimumFree ≤ intMax) :
    Triple (ensureBufferSpace storage length minimumFree) rt (fun r rt' => rt.Extends rt' ∧
      ∃ storage', r = some storage' ∧ length + minimumFree ≤ storage'.capacity ∧
        storage'.capacity ≤ intMax ∧
        storage'.capacity ≤ max (max storage.capacity bufferLength) (2 * (length + minimumFree)))
      Never := by
  simp only [ensureBufferSpace, show ¬(minimumFree = 0 ∨ length > storage.capacity) by omega, if_false]
  refine Triple.ite ?_ ?_
  · intro hroom
    exact Triple.pure ⟨.refl rt, storage, rfl, by omega, hcap, by omega⟩
  · intro hroom
    simp only [show ¬length > intMax - minimumFree by omega, if_false]
    refine (kvsMalloc_spec rt).bind fun r rt' hr => ?_
    obtain ⟨hext, ⟨-, hcan⟩ | ⟨rfl, -⟩⟩ := hr
    · exact absurd hcan hfail
    refine (freeBlock_spec _ rt').bind fun _ rt'' hfreed => ?_
    have hstart : 1 ≤ (if storage.capacity > 0 then storage.capacity else bufferLength) ∧
        (if storage.capacity > 0 then storage.capacity else bufferLength) ≤ intMax ∧
        (if storage.capacity > 0 then storage.capacity else bufferLength) ≤
          max storage.capacity bufferLength := by
      split
      · exact ⟨by omega, hcap, Nat.le_max_left ..⟩
      · exact ⟨by decide, by decide, Nat.le_max_right ..⟩
    obtain ⟨h1, h2, h3⟩ := growCapacity_spec (length + minimumFree) _ hstart.1 hstart.2.1 hint
      (by omega)
    exact Triple.pure ⟨hext.trans hfreed.1, _, rfl, h1, h2, by simp only; omega⟩

theorem kvsInputBufferEnsureSpace_spec {buffer : InputBuffer} (hfail : ¬Runtime.CanFail rt)
    (hlen : buffer.data.length ≤ buffer.storage.capacity) (hcap : buffer.storage.capacity ≤ intMax)
    (hfree : 0 < minimumFree) (hint : buffer.data.length + minimumFree ≤ intMax) :
    Triple (kvsInputBufferEnsureSpace buffer minimumFree) rt (fun r rt' => rt.Extends rt' ∧
      ∃ storage, r = some { buffer with storage } ∧
        buffer.data.length + minimumFree ≤ storage.capacity ∧ storage.capacity ≤ intMax) Never := by
  refine (ensureBufferSpace_spec hfail hlen hcap hfree hint).bind fun r rt' h => ?_
  obtain ⟨hext, storage, rfl, hroom, hcap', -⟩ := h
  exact Triple.pure ⟨hext, storage, rfl, hroom, hcap'⟩

theorem kvsOutputBufferEnsureSpace_spec {buffer : OutputBuffer} (hfail : ¬Runtime.CanFail rt)
    (hoffset : buffer.offset ≤ buffer.data.length)
    (hlen : buffer.data.length ≤ buffer.storage.capacity) (hcap : buffer.storage.capacity ≤ intMax)
    (hfree : 0 < minimumFree) (hint : buffer.data.length + minimumFree ≤ intMax) :
    Triple (kvsOutputBufferEnsureSpace buffer minimumFree) rt (fun r rt' => rt.Extends rt' ∧
      ∃ storage, r = some { buffer with storage } ∧
        buffer.data.length + minimumFree ≤ storage.capacity ∧ storage.capacity ≤ intMax) Never := by
  unfold kvsOutputBufferEnsureSpace
  rw [if_neg (Nat.not_lt.mpr hoffset)]
  refine (ensureBufferSpace_spec hfail hlen hcap hfree hint).bind fun r rt' h => ?_
  obtain ⟨hext, storage, rfl, hroom, hcap', -⟩ := h
  exact Triple.pure ⟨hext, storage, rfl, hroom, hcap'⟩

end KvStore
