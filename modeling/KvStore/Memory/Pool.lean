import KvStore.Lib.ByteMemory
import KvStore.Lib.Wrapping
import KvStore.Protocol.Codec

/-!
# The pool allocator

`kvs_allocator.c` over a byte-addressed memory. The headers of the regions, the
bitmaps and the links of the free lists are bytes of that memory, at the places
where the structures of the source have them, next to the bytes the clients
write. An address is a number, `0` the null pointer. Which addresses are mapped
is the kernel's knowledge; the code never reads it.
-/

namespace KvStore

open Lib

/-! ## Layout of the structures -/

def slabSize : Nat := 64 * 1024

/-- `_Alignof(max_align_t)`. -/
def maxAlign : Nat := 16

/-- `sizeof(kvs_slab_t)`. -/
def slabHeaderSize : Nat := 64

/-- `sizeof(kvs_large_t)`. -/
def largeHeaderSize : Nat := 32

/-- `sizeof(kvs_free_block_t)`. -/
def freeBlockSize : Nat := 8

/-- `KVS_REGION_SLAB` and `KVS_REGION_LARGE`. -/
def regionSlab : Nat := 1
def regionLarge : Nat := 2

/-- `address & ~((uintptr_t)KVS_SLAB_SIZE - 1)`. -/
def regionStart (address : Nat) : Nat := address &&& (sizeMax - (slabSize - 1))

/-- Arithmetic of `size_t` and `uintptr_t`. -/
def sizeAdd (a b : Nat) : Wrapping Nat := Wrapping.add 64 a b
def sizeSub (a b : Nat) : Wrapping Nat := Wrapping.sub 64 a b
def sizeMul (a b : Nat) : Wrapping Nat := Wrapping.mul 64 a b

/-- `kvs_slab_t`: the type tag takes four bytes, every other field eight. -/
def Slab.kind (m : Memory) (slab : Nat) : Nat := load 4 m slab
def Slab.blockSize (m : Memory) (slab : Nat) : Nat := load 8 m (slab + 8)
def Slab.capacity (m : Memory) (slab : Nat) : Nat := load 8 m (slab + 16)
def Slab.usedCount (m : Memory) (slab : Nat) : Nat := load 8 m (slab + 24)
def Slab.freeList (m : Memory) (slab : Nat) : Nat := load 8 m (slab + 32)
def Slab.bitmap (m : Memory) (slab : Nat) : Nat := load 8 m (slab + 40)
def Slab.data (m : Memory) (slab : Nat) : Nat := load 8 m (slab + 48)
def Slab.next (m : Memory) (slab : Nat) : Nat := load 8 m (slab + 56)

def Slab.setKind (m : Memory) (slab : Nat) (v : Nat) : Memory := store 4 m slab v
def Slab.setBlockSize (m : Memory) (slab : Nat) (v : Nat) : Memory := store 8 m (slab + 8) v
def Slab.setCapacity (m : Memory) (slab : Nat) (v : Nat) : Memory := store 8 m (slab + 16) v
def Slab.setUsedCount (m : Memory) (slab : Nat) (v : Nat) : Memory := store 8 m (slab + 24) v
def Slab.setFreeList (m : Memory) (slab v : Nat) : Memory := store 8 m (slab + 32) v
def Slab.setBitmap (m : Memory) (slab v : Nat) : Memory := store 8 m (slab + 40) v
def Slab.setData (m : Memory) (slab v : Nat) : Memory := store 8 m (slab + 48) v
def Slab.setNext (m : Memory) (slab v : Nat) : Memory := store 8 m (slab + 56) v

/-- `kvs_large_t`. -/
def Large.kind (m : Memory) (large : Nat) : Nat := load 4 m large
def Large.mappingSize (m : Memory) (large : Nat) : Nat := load 8 m (large + 8)
def Large.prev (m : Memory) (large : Nat) : Nat := load 8 m (large + 16)
def Large.next (m : Memory) (large : Nat) : Nat := load 8 m (large + 24)

def Large.setKind (m : Memory) (large : Nat) (v : Nat) : Memory := store 4 m large v
def Large.setMappingSize (m : Memory) (large : Nat) (v : Nat) : Memory := store 8 m (large + 8) v
def Large.setPrev (m : Memory) (large v : Nat) : Memory := store 8 m (large + 16) v
def Large.setNext (m : Memory) (large v : Nat) : Memory := store 8 m (large + 24) v

/-! ## The state -/

inductive Backend
  | system
  | pool
  deriving DecidableEq, Repr

/-- The `block_size` of the entries of `pools`. -/
def blockSizes : List Nat :=
  [16, 32, 48, 64, 96, 128, 192, 256, 384, 512, 768, 1024, 1536, 2048, 3072, 4096]

/-- `pools[SIZE_CLASS_COUNT - 1].block_size`. -/
def largestBlock : Nat := 4096

/-- The memory, what of it is mapped, and the static variables of the file;
`slabs i` is `pools[i].slabs`. -/
structure Allocator where
  memory : Memory
  mapped : Nat → Bool
  slabs : Nat → Nat
  largeRegions : Nat
  initialized : Bool
  backend : Backend

/-- What the system answers during one call: `sysconf(_SC_PAGESIZE)`, where a
mapping of some length is put, whether a range can be unmapped, and what
`malloc` returns. -/
structure Os where
  pageSize : Int
  mmap : Nat → Option Nat
  munmap : Nat → Nat → Bool
  malloc : Nat → Nat

/-- A call that does not return: `abort`, or a loop along a list that passed
`listBound`. -/
inductive Allocator.Halt
  | abort
  | endless
  deriving DecidableEq, Repr

/-- No list of regions is longer: there are only so many multiples of
`KVS_SLAB_SIZE` among the addresses. -/
def listBound : Nat := 2 ^ 48 + 1

def Allocator.start (memory : Memory) (mapped : Nat → Bool) : Allocator :=
  { memory, mapped, slabs := fun _ => 0, largeRegions := 0, initialized := false,
    backend := .system }

def Allocator.mapRange (s : Allocator) (address : Nat) (length : Nat) : Allocator :=
  { s with
    memory := fill s.memory address length 0
    mapped := fun a => s.mapped a || decide (address ≤ a ∧ a < address + length) }

def Allocator.unmapRange (s : Allocator) (address : Nat) (length : Nat) : Allocator :=
  { s with mapped := fun a => s.mapped a && !decide (address ≤ a ∧ a < address + length) }

/-- Whether `munmap` returned 0, and what is mapped then. -/
def Allocator.munmap (s : Allocator) (os : Os) (address : Nat) (length : Nat) :
    Bool × Allocator :=
  if os.munmap address length then (true, s.unmapRange address length) else (false, s)

/-! ## Regions -/

def regionTrim (raw reservedSize mappingSize : Nat) : Wrapping (Nat × Nat × Nat) := do
  let aligned := regionStart (← sizeSub (← sizeAdd raw slabSize) 1)
  let prefixSize ← sizeSub aligned raw
  let suffixSize ← sizeSub (← sizeSub reservedSize prefixSize) mappingSize
  return (aligned, prefixSize, suffixSize)

def Allocator.trim (s : Allocator) (os : Os) (address length : Nat) : Bool × Allocator :=
  if length ≠ 0 then s.munmap os address length else (true, s)

/-- `region_memory_alloc`; either trim may fail, and the whole range is then
given back. -/
def regionMemoryAlloc (os : Os) (mappingSize : Nat) (s : Allocator) :
    Wrapping (Nat × Allocator) := do
  if os.pageSize ≤ 0 ∨ slabSize % os.pageSize.toNat ≠ 0 ∨ mappingSize = 0 ∨
      mappingSize % os.pageSize.toNat ≠ 0 then return (0, s)
  else if mappingSize > (← sizeSub sizeMax slabSize) then return (0, s)
  else
    let reservedSize ← sizeAdd mappingSize slabSize
    match os.mmap reservedSize with
    | none => return (0, s)
    | some raw =>
      let s := s.mapRange raw reservedSize
      let (aligned, prefixSize, suffixSize) ← regionTrim raw reservedSize mappingSize
      let (trimmed, s) := s.trim os raw prefixSize
      if !trimmed then return (0, (s.munmap os raw reservedSize).2)
      else
        let (trimmed, s) := s.trim os (← sizeAdd aligned mappingSize) suffixSize
        if !trimmed then
          return (0, (s.munmap os aligned (← sizeSub reservedSize prefixSize)).2)
        else return (aligned, s)

/-! ## Slabs -/

/-- `find_size_class`: the index of the first pool whose blocks are large enough. -/
def findSizeClass (size : Nat) : Option Nat := blockSizes.findIdx? fun b => decide (size ≤ b)

def blockSizeOf (i : Nat) : Nat := blockSizes.getD i 0

def slabAllocBlock (m : Memory) (slab : Nat) : Nat × Memory :=
  if slab = 0 ∨ Slab.freeList m slab = 0 then (0, m)
  else
    let block := Slab.freeList m slab
    let index := (block - Slab.data m slab) / Slab.blockSize m slab
    -- the link is saved first: the client overwrites it
    let m := Slab.setFreeList m slab (load 8 m block)
    let m := setBit m (Slab.bitmap m slab) index
    let m := Slab.setUsedCount m slab (Slab.usedCount m slab + 1)
    (block, m)

/-- The number of flags for which `slab_create` reserves room. -/
def upperCount (blockSize : Nat) : Nat := (slabSize - slabHeaderSize) / blockSize

def bitmapBytes (blockSize : Nat) : Nat :=
  upperCount blockSize / 8 + if upperCount blockSize % 8 ≠ 0 then 1 else 0

def dataOffset (blockSize : Nat) : Nat :=
  (slabHeaderSize + bitmapBytes blockSize + maxAlign - 1) / maxAlign * maxAlign

def slabCapacity (blockSize : Nat) : Nat := (slabSize - dataOffset blockSize) / blockSize

/-- The loop of `slab_create` after `i` rounds: each block is put before the
free list. -/
def threadBlocks (slab : Nat) (blockSize : Nat) : Nat → Memory → Memory
  | 0, m => m
  | i + 1, m =>
    let m := threadBlocks slab blockSize i m
    let block := Slab.data m slab + i * blockSize
    let m := store 8 m block (Slab.freeList m slab)
    Slab.setFreeList m slab block

/-- The fields that `slab_create` sets. -/
def slabHeader (m : Memory) (slab blockSize : Nat) : Memory :=
  let m := Slab.setKind m slab regionSlab
  let m := Slab.setBlockSize m slab blockSize
  let m := Slab.setCapacity m slab (slabCapacity blockSize)
  let m := Slab.setUsedCount m slab 0
  let m := Slab.setFreeList m slab 0
  let m := Slab.setBitmap m slab (slab + slabHeaderSize)
  let m := Slab.setData m slab (slab + dataOffset blockSize)
  Slab.setNext m slab 0

/-- What `slab_create` writes into its region: the header, the bitmap and the
links. -/
def slabFormat (m : Memory) (slab blockSize : Nat) : Memory :=
  let m := slabHeader m slab blockSize
  let m := fill m (Slab.bitmap m slab) (bitmapBytes blockSize) 0
  threadBlocks slab blockSize (Slab.capacity m slab) m

def slabCreate (os : Os) (blockSize : Nat) (s : Allocator) : Nat × Allocator :=
  if blockSize < freeBlockSize ∨ blockSize % maxAlign ≠ 0 ∨ blockSize > largestBlock then (0, s)
  else if dataOffset blockSize ≥ slabSize ∨ slabCapacity blockSize = 0 then (0, s)
  else
    let (slab, s) := (regionMemoryAlloc os slabSize s).value
    if slab = 0 then (0, s)
    else (slab, { s with memory := slabFormat s.memory slab blockSize })

/-- The loop of `pool_alloc_small` past the slabs without a free block. -/
def skipFull (m : Memory) : Nat → Nat → Except Allocator.Halt Nat
  | 0, _ => .error .endless
  | bound + 1, slab =>
    if slab ≠ 0 ∧ Slab.freeList m slab = 0 then skipFull m bound (Slab.next m slab)
    else .ok slab

def poolAllocSmall (os : Os) (size : Nat) (s : Allocator) :
    Except Allocator.Halt (Nat × Allocator) :=
  if size = 0 then .ok (0, s)
  else match findSizeClass size with
    | none => .ok (0, s)
    | some i => do
      let slab ← skipFull s.memory listBound (s.slabs i)
      if slab = 0 then
        let (slab, s) := slabCreate os (blockSizeOf i) s
        if slab = 0 then .ok (0, s)
        else
          let m := Slab.setNext s.memory slab (s.slabs i)
          let (block, m) := slabAllocBlock m slab
          .ok (block, { s with memory := m, slabs := Function.update s.slabs i slab })
      else
        let (block, m) := slabAllocBlock s.memory slab
        .ok (block, { s with memory := m })

def poolFreeSmall (m : Memory) (ptr : Nat) : Int × Memory :=
  if ptr = 0 then (0, m)
  else
    let slab := regionStart ptr
    let data := Slab.data m slab
    if ptr < data then (-1, m)
    else
      let offset := ptr - data
      let blockSize := Slab.blockSize m slab
      if offset % blockSize ≠ 0 ∨ offset / blockSize ≥ Slab.capacity m slab then (-1, m)
      else
        let index := offset / blockSize
        if bitAt m (Slab.bitmap m slab) index = false ∨ Slab.usedCount m slab = 0 then (-1, m)
        else
          let m := clearBit m (Slab.bitmap m slab) index
          let m := store 8 m ptr (Slab.freeList m slab)
          let m := Slab.setFreeList m slab ptr
          let m := Slab.setUsedCount m slab (Slab.usedCount m slab - 1)
          (0, m)

/-! ## Large objects -/

def largeOffset : Wrapping Nat := do
  sizeMul ((← sizeSub (← sizeAdd largeHeaderSize maxAlign) 1) / maxAlign) maxAlign

/-- What fills the last page of `total` bytes. -/
def pagePadding (total pageSize : Nat) : Wrapping Nat :=
  let remainder := total % pageSize
  if remainder = 0 then pure 0 else sizeSub pageSize remainder

def Allocator.linkLarge (s : Allocator) (large mappingSize : Nat) : Allocator :=
  let m := Large.setKind s.memory large regionLarge
  let m := Large.setMappingSize m large mappingSize
  let m := Large.setPrev m large 0
  let m := Large.setNext m large s.largeRegions
  let m := if s.largeRegions ≠ 0 then Large.setPrev m s.largeRegions large else m
  { s with memory := m, largeRegions := large }

def poolAllocLarge (os : Os) (size : Nat) (s : Allocator) : Wrapping (Nat × Allocator) := do
  if os.pageSize ≤ 0 ∨ size = 0 then return (0, s)
  else
    let offset ← largeOffset
    if offset ≥ slabSize ∨ size > (← sizeSub sizeMax offset) then return (0, s)
    else
      let total ← sizeAdd offset size
      let padding ← pagePadding total os.pageSize.toNat
      if total > (← sizeSub sizeMax padding) then return (0, s)
      else
        let mappingSize ← sizeAdd total padding
        let (large, s) ← regionMemoryAlloc os mappingSize s
        if large = 0 then return (0, s)
        else return (← sizeAdd large offset, s.linkLarge large mappingSize)

/-- The two links around a place of the list: the one forward, which is
`large_regions` at its head, and the one back, which is missing at its end. -/
def Allocator.joinLarge (s : Allocator) (before after forward back : Nat) : Allocator :=
  let s := if before ≠ 0 then { s with memory := Large.setNext s.memory before forward }
    else { s with largeRegions := forward }
  if after ≠ 0 then { s with memory := Large.setPrev s.memory after back } else s

def poolFreeLarge (os : Os) (large : Nat) (s : Allocator) : Int × Allocator :=
  let before := Large.prev s.memory large
  let after := Large.next s.memory large
  let mappingSize := Large.mappingSize s.memory large
  let s := s.joinLarge before after after before
  let (unmapped, s) := s.munmap os large mappingSize
  if unmapped then (0, s)
  else (-1, s.joinLarge before after large large)

/-! ## The interface -/

def kvsAllocatorInit (backend : Backend) (s : Allocator) : Int × Allocator :=
  if s.initialized then (-1, s)
  else (0, { s with slabs := fun _ => 0, backend := backend, initialized := true })

def kvsAllocatorAlloc (os : Os) (size : Nat) (s : Allocator) :
    Except Allocator.Halt (Nat × Allocator) :=
  if s.initialized = false ∨ size = 0 then .ok (0, s)
  else match s.backend with
    | .pool =>
      if size > largestBlock then .ok (poolAllocLarge os size s).value
      else poolAllocSmall os size s
    | .system => .ok (os.malloc size, s)

def kvsAllocatorFree (os : Os) (ptr : Nat) (s : Allocator) : Except Allocator.Halt Allocator :=
  if ptr = 0 then .ok s
  else if s.initialized = false then .error .abort
  else match s.backend with
    | .pool =>
      let start := regionStart ptr
      let kind := Slab.kind s.memory start
      if kind = regionSlab then
        let (result, m) := poolFreeSmall s.memory ptr
        if result ≠ 0 then .error .abort else .ok { s with memory := m }
      else if kind = regionLarge then
        let (result, s) := poolFreeLarge os start s
        if result ≠ 0 then .error .abort else .ok s
      else .error .abort
    | .system => .ok s

/-- The indices of `pools`. -/
def sizeClasses : List Nat := List.range blockSizes.length

def listUsed (m : Memory) : Nat → Nat → Except Allocator.Halt Bool
  | 0, _ => .error .endless
  | bound + 1, slab =>
    if slab = 0 then .ok false
    else if Slab.usedCount m slab ≠ 0 then .ok true
    else listUsed m bound (Slab.next m slab)

/-- The first pass of `pool_destroy`. -/
def anyUsed (s : Allocator) : List Nat → Except Allocator.Halt Bool
  | [] => .ok false
  | i :: rest => do
    if ← listUsed s.memory listBound (s.slabs i) then .ok true else anyUsed s rest

def unmapList (os : Os) (i : Nat) : Nat → Allocator → Except Allocator.Halt (Int × Allocator)
  | 0, _ => .error .endless
  | bound + 1, s =>
    if s.slabs i = 0 then .ok (0, s)
    else
      let slab := s.slabs i
      let next := Slab.next s.memory slab
      let (unmapped, s) := s.munmap os slab slabSize
      if unmapped then unmapList os i bound { s with slabs := Function.update s.slabs i next }
      else .ok (-1, s)

/-- The second pass of `pool_destroy`. -/
def unmapClasses (os : Os) : List Nat → Allocator → Except Allocator.Halt (Int × Allocator)
  | [], s => .ok (0, s)
  | i :: rest, s => do
    let (result, s) ← unmapList os i listBound s
    if result ≠ 0 then .ok (-1, s) else unmapClasses os rest s

def poolDestroy (os : Os) (s : Allocator) : Except Allocator.Halt (Int × Allocator) := do
  if ← anyUsed s sizeClasses then .ok (-1, s) else unmapClasses os sizeClasses s

def kvsAllocatorDestroy (os : Os) (s : Allocator) : Except Allocator.Halt (Int × Allocator) :=
  if s.initialized = false then .ok (0, s)
  else if s.largeRegions ≠ 0 then .ok (-1, s)
  else do
    let (result, s) ← poolDestroy os s
    if result ≠ 0 then .ok (-1, s) else .ok (0, { s with initialized := false })

structure PoolStats where
  liveObjects : Nat
  slabCount : Nat
  largeCount : Nat
  mappedBytes : Nat
  deriving DecidableEq, Repr

def addSlabs (m : Memory) : Nat → Nat → PoolStats → Except Allocator.Halt PoolStats
  | 0, _, _ => .error .endless
  | bound + 1, slab, r =>
    if slab = 0 then .ok r
    else addSlabs m bound (Slab.next m slab)
      { r with
        liveObjects := (sizeAdd r.liveObjects (Slab.usedCount m slab)).value
        slabCount := (sizeAdd r.slabCount 1).value
        mappedBytes := (sizeAdd r.mappedBytes slabSize).value }

def addLarges (m : Memory) : Nat → Nat → PoolStats → Except Allocator.Halt PoolStats
  | 0, _, _ => .error .endless
  | bound + 1, large, r =>
    if large = 0 then .ok r
    else addLarges m bound (Large.next m large)
      { r with
        liveObjects := (sizeAdd r.liveObjects 1).value
        largeCount := (sizeAdd r.largeCount 1).value
        mappedBytes := (sizeAdd r.mappedBytes (Large.mappingSize m large)).value }

/-- `kvs_allocator_pool_stats`; `none` is the result -1. -/
def kvsAllocatorPoolStats (s : Allocator) : Except Allocator.Halt (Option PoolStats) :=
  if s.initialized = false ∨ s.backend ≠ .pool then .ok none
  else do
    let r ← sizeClasses.foldlM (fun r i => addSlabs s.memory listBound (s.slabs i) r)
      { liveObjects := 0, slabCount := 0, largeCount := 0, mappedBytes := 0 }
    let r ← addLarges s.memory listBound s.largeRegions r
    .ok (some r)

end KvStore
