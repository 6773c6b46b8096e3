import KvStore.Memory.PoolRegion

/-!
# What the operations of the pool do to a slab

A slab is known by its free list, as numbers of blocks: the bitmap, the count
and the chain of links inside the free blocks all follow it. What is read of a
slab lies in its header, in its bitmap and in its free blocks, so a write
anywhere else leaves it what it was.
-/

namespace KvStore

open Lib

/-! ## The layout of a slab -/

structure Fits (bs : Nat) : Prop where
  large : 16 ≤ bs
  aligned : bs % 16 = 0
  bounded : bs ≤ largestBlock
  bitmap : slabHeaderSize + bitmapBytes bs ≤ dataOffset bs
  data : dataOffset bs % 16 = 0
  flags : slabCapacity bs ≤ 8 * bitmapBytes bs
  blocks : dataOffset bs + slabCapacity bs * bs ≤ slabSize
  some : 0 < slabCapacity bs

instance (bs : Nat) : Decidable (Fits bs) :=
  decidable_of_iff
    (16 ≤ bs ∧ bs % 16 = 0 ∧ bs ≤ largestBlock ∧
      slabHeaderSize + bitmapBytes bs ≤ dataOffset bs ∧ dataOffset bs % 16 = 0 ∧
      slabCapacity bs ≤ 8 * bitmapBytes bs ∧ dataOffset bs + slabCapacity bs * bs ≤ slabSize ∧
      0 < slabCapacity bs)
    ⟨fun ⟨a, b, c, d, e, f, g, h⟩ => ⟨a, b, c, d, e, f, g, h⟩,
      fun ⟨a, b, c, d, e, f, g, h⟩ => ⟨a, b, c, d, e, f, g, h⟩⟩

def blockAt (slab : Nat) (bs k : Nat) : Nat := slab + dataOffset bs + k * bs

structure SlabOk (m : Memory) (slab : Nat) (bs : Nat) (free : List Nat) : Prop where
  kind : Slab.kind m slab = regionSlab
  blockSize : Slab.blockSize m slab = bs
  capacity : Slab.capacity m slab = slabCapacity bs
  usedCount : Slab.usedCount m slab + free.length = slabCapacity bs
  bitmap : Slab.bitmap m slab = slab + slabHeaderSize
  data : Slab.data m slab = slab + dataOffset bs
  chain : Chain (load 8 m) (Slab.freeList m slab) (free.map (blockAt slab bs))
  bits : ∀ k < slabCapacity bs, bitAt m (slab + slabHeaderSize) k = decide (k ∉ free)
  nodup : free.Nodup
  bounded : ∀ k ∈ free, k < slabCapacity bs

section
variable {m m' : Memory} {slab bs i j k a : Nat} {free : List Nat}

theorem Fits.blockAt_le (hfit : Fits bs) (slab : Nat) (hk : k < slabCapacity bs) :
    slab + slabHeaderSize + bitmapBytes bs ≤ blockAt slab bs k ∧
      blockAt slab bs k + bs ≤ slab + slabSize := by
  have hlast : (k + 1) * bs ≤ slabCapacity bs * bs := Nat.mul_le_mul_right bs hk
  have hblocks := hfit.blocks
  have hbitmap := hfit.bitmap
  rw [Nat.add_mul, Nat.one_mul] at hlast
  unfold blockAt
  omega

theorem blockAt_apart (slab bs : Nat) (h : j ≠ k) :
    blockAt slab bs j + bs ≤ blockAt slab bs k ∨ blockAt slab bs k + bs ≤ blockAt slab bs j := by
  unfold blockAt
  obtain h | h := Nat.lt_or_gt_of_ne h
  · have hmul : (j + 1) * bs ≤ k * bs := Nat.mul_le_mul_right bs h
    rw [Nat.add_mul] at hmul
    omega
  · have hmul : (k + 1) * bs ≤ j * bs := Nat.mul_le_mul_right bs h
    rw [Nat.add_mul] at hmul
    omega

structure SameSlab (m m' : Memory) (slab : Nat) (bs : Nat) (free : List Nat) : Prop where
  header : SameOn m m' slab (slabHeaderSize + bitmapBytes bs)
  links : ∀ k ∈ free, SameOn m m' (blockAt slab bs k) 8

theorem SameOn.field {n : Nat} (h : SameOn m m' slab n) (hn : i + 8 ≤ n) :
    load 8 m' (slab + i) = load 8 m (slab + i) :=
  (h.sub (by omega) (by omega)).load

theorem SlabOk.frame (h : SlabOk m slab bs free) (hfit : Fits bs)
    (hsame : SameSlab m m' slab bs free) : SlabOk m' slab bs free := by
  have hheader : SameOn m m' slab 64 := hsame.header.sub le_rfl (by simp [slabHeaderSize])
  have hbits : SameOn m m' (slab + slabHeaderSize) (bitmapBytes bs) :=
    hsame.header.sub (by omega) (by omega)
  refine ⟨?_, ?_, ?_, ?_, ?_, ?_, ?_, ?_, h.nodup, h.bounded⟩
  · exact ((hheader.sub le_rfl (by omega)).load).trans h.kind
  · exact (SameOn.field hheader (by decide)).trans h.blockSize
  · exact (SameOn.field hheader (by decide)).trans h.capacity
  · rw [Slab.usedCount, SameOn.field hheader (by decide)]
    exact h.usedCount
  · exact (SameOn.field hheader (by decide)).trans h.bitmap
  · exact (SameOn.field hheader (by decide)).trans h.data
  · rw [Slab.freeList, SameOn.field hheader (by decide)]
    refine h.chain.congr fun a ha => ?_
    obtain ⟨k, hk, rfl⟩ := List.mem_map.mp ha
    exact (hsame.links k hk).load
  · intro k hk
    have hflags := hfit.flags
    rw [hbits.bitAt (by omega)]
    exact h.bits k hk

theorem Fits.capacity_le (hfit : Fits bs) : slabCapacity bs ≤ slabSize := by
  have hmul : slabCapacity bs * 1 ≤ slabCapacity bs * bs :=
    Nat.mul_le_mul_left _ (by have := hfit.large; omega)
  have hblocks := hfit.blocks
  omega

theorem blockAt_index (hbs : 0 < bs) : (blockAt slab bs k - (slab + dataOffset bs)) / bs = k := by
  rw [blockAt, Nat.add_sub_cancel_left, Nat.mul_div_cancel _ hbs]

theorem SlabOk.update {free' : List Nat} (h : SlabOk m slab bs free)
    (hsizes : SameOn m m' slab 24) (hplaces : SameOn m m' (slab + 40) 16)
    (hused : Slab.usedCount m' slab + free'.length = slabCapacity bs)
    (hchain : Chain (load 8 m') (Slab.freeList m' slab) (free'.map (blockAt slab bs)))
    (hbits : ∀ k < slabCapacity bs, bitAt m' (slab + slabHeaderSize) k = decide (k ∉ free'))
    (hnodup : free'.Nodup) (hbounded : ∀ k ∈ free', k < slabCapacity bs) :
    SlabOk m' slab bs free' where
  kind := (hsizes.sub le_rfl (by omega)).load.trans h.kind
  blockSize := (SameOn.field hsizes (by decide)).trans h.blockSize
  capacity := (SameOn.field hsizes (by decide)).trans h.capacity
  usedCount := hused
  bitmap := (hplaces.sub le_rfl (by omega)).load.trans h.bitmap
  data := (hplaces.sub (by omega) (by omega)).load.trans h.data
  chain := hchain
  bits := hbits
  nodup := hnodup
  bounded := hbounded

theorem slabAllocBlock_spec (h : SlabOk m slab bs (k :: free)) (hfit : Fits bs) (hslab : slab ≠ 0) :
    (slabAllocBlock m slab).1 = blockAt slab bs k ∧
      SlabOk (slabAllocBlock m slab).2 slab bs free ∧
      Slab.next (slabAllocBlock m slab).2 slab = Slab.next m slab ∧
      Confined m (slabAllocBlock m slab).2 slab (slabHeaderSize + bitmapBytes bs) := by
  obtain ⟨hhead, hnonzero, hrest⟩ := h.chain
  obtain ⟨hfresh, hnodup⟩ := List.nodup_cons.mp h.nodup
  have hk : k < slabCapacity bs := h.bounded k List.mem_cons_self
  have hflags := hfit.flags
  have hbs := hfit.large
  have hindex : (Slab.freeList m slab - Slab.data m slab) / Slab.blockSize m slab = k := by
    rw [hhead, h.data, h.blockSize, blockAt_index (by omega)]
  -- the three writes, in their order
  let m₁ := Slab.setFreeList m slab (load 8 m (blockAt slab bs k))
  let m₂ := setBit m₁ (slab + slabHeaderSize) k
  let m₃ := Slab.setUsedCount m₂ slab (Slab.usedCount m slab + 1)
  have hc₁ : Confined m m₁ (slab + 32) 8 := store_confined
  have hc₂ : Confined m₁ m₂ (slab + slabHeaderSize + k / 8) 1 := setBit_confined
  have hc₃ : Confined m₂ m₃ (slab + 24) 8 := store_confined
  have hheader : slabHeaderSize = 64 := rfl
  have hused : Slab.usedCount m₂ slab = Slab.usedCount m slab :=
    ((hc₁.sameOn (by omega)).trans (hc₂.sameOn (by omega))).load
  have hbitmap : Slab.bitmap m₁ slab = slab + slabHeaderSize :=
    (hc₁.sameOn (by omega)).load.trans h.bitmap
  have heq : slabAllocBlock m slab = (blockAt slab bs k, m₃) := by
    have hgo : ¬(slab = 0 ∨ Slab.freeList m slab = 0) := by
      rw [hhead]
      exact not_or.mpr ⟨hslab, hnonzero⟩
    unfold slabAllocBlock
    rw [if_neg hgo]
    simp only [hindex]
    rw [hhead, hbitmap, hused]
  have hsame : ∀ {b n}, b + n ≤ slab + 24 ∨ slab + 40 ≤ b ∧ (b + n ≤ slab + 64 + k / 8 ∨
      slab + 64 + k / 8 < b) → SameOn m m₃ b n := by
    intro b n hb
    exact ((hc₁.sameOn (by omega)).trans (hc₂.sameOn (by omega))).trans (hc₃.sameOn (by omega))
  have hcount : (k :: free).length ≤ slabCapacity bs := by
    have := h.usedCount
    omega
  have hfree : ∀ j ∈ k :: free, SameOn m m₃ (blockAt slab bs j) 8 := by
    intro j hj
    have hat := (hfit.blockAt_le slab (h.bounded j hj)).1
    exact hsame (by omega)
  have hcap : slabCapacity bs ≤ 65536 := hfit.capacity_le
  rw [heq]
  refine ⟨rfl, h.update (hsame (by omega)) (hsame (by omega)) ?_ ?_ ?_ hnodup ?_, ?_, ?_⟩
  · have hold := h.usedCount
    rw [List.length_cons] at hold
    have hnew : Slab.usedCount m₃ slab = Slab.usedCount m slab + 1 := load_store (by omega)
    rw [hnew]
    omega
  · have hnew : Slab.freeList m₃ slab = load 8 m (blockAt slab bs k) := by
      have hread : Slab.freeList m₁ slab = load 8 m (blockAt slab bs k) := load_store (load_lt ..)
      rw [← hread]
      exact ((hc₂.sameOn (by omega)).trans (hc₃.sameOn (by omega))).load
    rw [hnew]
    refine Chain.congr hrest fun a ha => ?_
    obtain ⟨j, hj, rfl⟩ := List.mem_map.mp ha
    exact (hfree j (List.mem_cons_of_mem _ hj)).load
  · intro j hj
    have hbit₃ : bitAt m₃ (slab + slabHeaderSize) j = bitAt m₂ (slab + slabHeaderSize) j :=
      SameOn.bitAt (hc₃.sameOn (k := bitmapBytes bs) (by omega)) (by omega)
    have hbit₁ : bitAt m₁ (slab + slabHeaderSize) j = bitAt m (slab + slabHeaderSize) j :=
      SameOn.bitAt (hc₁.sameOn (k := bitmapBytes bs) (by omega)) (by omega)
    rw [hbit₃, bitAt_setBit, hbit₁, h.bits j hj]
    by_cases hjk : j = k
    · subst hjk
      simp [hfresh]
    · simp [hjk]
  · exact fun j hj => h.bounded j (List.mem_cons_of_mem _ hj)
  · exact (hsame (by omega)).load
  · exact ((hc₁.mono (by omega) (by omega)).trans (hc₂.mono (by omega) (by omega))).trans
      (hc₃.mono (by omega) (by omega))

/-- Freeing anything that is not a block in use is refused, and nothing is written. -/
theorem poolFreeSmall_refused (h : SlabOk m slab bs free) (hfit : Fits bs)
    (hslab : slab % slabSize = 0) (hpos : slab ≠ 0) (hspace : slab + slabSize ≤ 2 ^ 64)
    (hle : slab ≤ a) (hlt : a < slab + slabSize)
    (hdead : ∀ k < slabCapacity bs, k ∉ free → a ≠ blockAt slab bs k) :
    poolFreeSmall m a = (-1, m) := by
  have hbs := hfit.large
  have hne : a ≠ 0 := by omega
  unfold poolFreeSmall
  rw [if_neg hne]
  simp only [regionStart_eq hslab hle hlt (by omega), h.data, h.blockSize, h.capacity, h.bitmap]
  split
  · rfl
  · rename_i hge
    split
    · rfl
    · rename_i hblock
      obtain ⟨hmod, hindex⟩ := not_or.mp hblock
      have hk : (a - (slab + dataOffset bs)) / bs < slabCapacity bs := Nat.not_le.mp hindex
      have hat : a = blockAt slab bs ((a - (slab + dataOffset bs)) / bs) := by
        have hdiv := Nat.div_mul_cancel (Nat.dvd_of_mod_eq_zero (not_not.mp hmod))
        unfold blockAt
        omega
      have hfree : (a - (slab + dataOffset bs)) / bs ∈ free := by
        by_contra hnot
        exact hdead _ hk hnot hat
      rw [if_pos]
      left
      rw [h.bits _ hk]
      simpa using hfree

theorem poolFreeSmall_spec (h : SlabOk m slab bs free) (hfit : Fits bs)
    (hslab : slab % slabSize = 0) (hspace : slab + slabSize ≤ 2 ^ 64)
    (hk : k < slabCapacity bs) (hlive : k ∉ free) :
    (poolFreeSmall m (blockAt slab bs k)).1 = 0 ∧
      SlabOk (poolFreeSmall m (blockAt slab bs k)).2 slab bs (k :: free) ∧
      Slab.next (poolFreeSmall m (blockAt slab bs k)).2 slab = Slab.next m slab ∧
      Confined m (poolFreeSmall m (blockAt slab bs k)).2 slab slabSize := by
  have hbs := hfit.large
  have hflags := hfit.flags
  have hheader : slabHeaderSize = 64 := rfl
  have hsize : slabSize = 65536 := rfl
  obtain ⟨hlow, hhigh⟩ := hfit.blockAt_le slab hk
  have hcap : slabCapacity bs ≤ 65536 := hfit.capacity_le
  -- a live block leaves fewer free blocks than there are blocks
  have hroom : free.length < slabCapacity bs := by
    have hall : (k :: free).length ≤ (List.range (slabCapacity bs)).length := by
      refine (List.nodup_cons.mpr ⟨hlive, h.nodup⟩).length_le_of_subset fun j hj => ?_
      obtain rfl | hj := List.mem_cons.mp hj
      · exact List.mem_range.mpr hk
      · exact List.mem_range.mpr (h.bounded j hj)
    rw [List.length_range, List.length_cons] at hall
    omega
  have hused := h.usedCount
  let block := blockAt slab bs k
  let m₁ := clearBit m (slab + slabHeaderSize) k
  let m₂ := store 8 m₁ block (Slab.freeList m slab)
  let m₃ := Slab.setFreeList m₂ slab block
  let m₄ := Slab.setUsedCount m₃ slab (Slab.usedCount m slab - 1)
  have hc₁ : Confined m m₁ (slab + slabHeaderSize + k / 8) 1 := clearBit_confined
  have hc₂ : Confined m₁ m₂ block 8 := store_confined
  have hc₃ : Confined m₂ m₃ (slab + 32) 8 := store_confined
  have hc₄ : Confined m₃ m₄ (slab + 24) 8 := store_confined
  have hblock : slab + 64 + bitmapBytes bs ≤ block := hlow
  have hblock' : block + bs ≤ slab + slabSize := hhigh
  have hlist : Slab.freeList m₁ slab = Slab.freeList m slab := (hc₁.sameOn (by omega)).load
  have hcount : Slab.usedCount m₃ slab = Slab.usedCount m slab :=
    (((hc₁.sameOn (by omega)).trans (hc₂.sameOn (by omega))).trans (hc₃.sameOn (by omega))).load
  have heq : poolFreeSmall m block = (0, m₄) := by
    have hstart : regionStart block = slab := regionStart_eq hslab (by omega) (by omega) (by omega)
    have hoffset : block - (slab + dataOffset bs) = k * bs := Nat.add_sub_cancel_left ..
    unfold poolFreeSmall
    rw [if_neg (by omega)]
    simp only [hstart, h.data, h.blockSize, h.capacity, h.bitmap, hoffset,
      Nat.mul_div_cancel k (show 0 < bs by omega), Nat.mul_mod_left, h.bits k hk]
    rw [if_neg (by unfold block blockAt; omega), if_neg (by omega), if_neg (by simp [hlive]; omega)]
    rw [show Slab.freeList (clearBit m (slab + slabHeaderSize) k) slab = _ from hlist]
    rw [show Slab.usedCount (Slab.setFreeList _ slab block) slab = _ from hcount]
  have hsame : ∀ {b n}, b + n ≤ slab + 24 ∨ slab + 40 ≤ b ∧ b + n ≤ slab + 64 → SameOn m m₄ b n := by
    intro b n hb
    exact (((hc₁.sameOn (by omega)).trans (hc₂.sameOn (by omega))).trans
      (hc₃.sameOn (by omega))).trans (hc₄.sameOn (by omega))
  have hlinks : ∀ j ∈ free, SameOn m m₄ (blockAt slab bs j) 8 := by
    intro j hj
    have hat := (hfit.blockAt_le slab (h.bounded j hj)).1
    have hapart : blockAt slab bs j + bs ≤ block ∨ block + bs ≤ blockAt slab bs j :=
      blockAt_apart slab bs (by rintro rfl; exact hlive hj)
    exact (((hc₁.sameOn (by omega)).trans (hc₂.sameOn (by omega))).trans
      (hc₃.sameOn (by omega))).trans (hc₄.sameOn (by omega))
  rw [heq]
  refine ⟨rfl, h.update (hsame (by omega)) (hsame (by omega)) ?_ ?_ ?_ ?_ ?_, ?_, ?_⟩
  · have hnew : Slab.usedCount m₄ slab = Slab.usedCount m slab - 1 := load_store (by omega)
    rw [hnew, List.length_cons]
    omega
  · have hhead : Slab.freeList m₄ slab = block := by
      have hread : Slab.freeList m₃ slab = block := load_store (by omega)
      rw [← hread]
      exact (hc₄.sameOn (by omega)).load
    have hlink : load 8 m₄ block = Slab.freeList m slab := by
      have hread : load 8 m₂ block = Slab.freeList m slab := load_store (load_lt ..)
      rw [← hread]
      exact ((hc₃.sameOn (by omega)).trans (hc₄.sameOn (by omega))).load
    refine ⟨hhead, show block ≠ 0 by omega, ?_⟩
    rw [show load 8 m₄ (blockAt slab bs k) = _ from hlink]
    refine h.chain.congr fun b hb => ?_
    obtain ⟨j, hj, rfl⟩ := List.mem_map.mp hb
    exact (hlinks j hj).load
  · intro j hj
    have hrange : slab + slabHeaderSize + bitmapBytes bs ≤ block := hlow
    have hbit : bitAt m₄ (slab + slabHeaderSize) j = bitAt m₁ (slab + slabHeaderSize) j :=
      SameOn.bitAt (n := bitmapBytes bs) (((hc₂.sameOn (by omega)).trans
        (hc₃.sameOn (by omega))).trans (hc₄.sameOn (by omega))) (by omega)
    rw [hbit, bitAt_clearBit, h.bits j hj]
    by_cases hjk : j = k
    · simp [hjk]
    · simp [hjk]
  · exact List.nodup_cons.mpr ⟨hlive, h.nodup⟩
  · intro j hj
    obtain rfl | hj := List.mem_cons.mp hj
    · exact hk
    · exact h.bounded j hj
  · exact (hsame (by omega)).load
  · exact (((hc₁.mono (by omega) (by omega)).trans (hc₂.mono (by omega) (by omega))).trans
      (hc₃.mono (by omega) (by omega))).trans (hc₄.mono (by omega) (by omega))

/-! ## New slabs -/

theorem Fits.dataOffset_lt (hfit : Fits bs) : dataOffset bs < slabSize := by
  have hlarge := hfit.large
  have hone : 1 * bs ≤ slabCapacity bs * bs := Nat.mul_le_mul_right bs hfit.some
  have hblocks := hfit.blocks
  omega

structure HeaderOk (m : Memory) (slab bs : Nat) : Prop where
  kind : Slab.kind m slab = regionSlab
  blockSize : Slab.blockSize m slab = bs
  capacity : Slab.capacity m slab = slabCapacity bs
  usedCount : Slab.usedCount m slab = 0
  freeList : Slab.freeList m slab = 0
  bitmap : Slab.bitmap m slab = slab + slabHeaderSize
  data : Slab.data m slab = slab + dataOffset bs

theorem slabHeader_spec (m : Memory) (hfit : Fits bs) (hspace : slab + slabSize ≤ 2 ^ 64) :
    HeaderOk (slabHeader m slab bs) slab bs ∧
      Confined m (slabHeader m slab bs) slab slabHeaderSize := by
  have hsize : slabSize = 65536 := rfl
  have hheader : slabHeaderSize = 64 := rfl
  have hcap := hfit.capacity_le
  have hbounded : bs ≤ 4096 := hfit.bounded
  have hoff := hfit.dataOffset_lt
  have hkind : regionSlab < 256 ^ 4 := by decide
  simp only [slabHeader, Slab.setNext, Slab.setData, Slab.setBitmap, Slab.setFreeList,
    Slab.setUsedCount, Slab.setCapacity, Slab.setBlockSize, Slab.setKind]
  refine ⟨⟨?_, ?_, ?_, ?_, ?_, ?_, ?_⟩, ?_⟩
  · simp (disch := omega) only [Slab.kind, load_store_apart]
    exact load_store hkind
  · simp (disch := omega) only [Slab.blockSize, load_store_apart]
    exact load_store (by omega)
  · simp (disch := omega) only [Slab.capacity, load_store_apart]
    exact load_store (by omega)
  · simp (disch := omega) only [Slab.usedCount, load_store_apart]
    exact load_store (by omega)
  · simp (disch := omega) only [Slab.freeList, load_store_apart]
    exact load_store (by omega)
  · simp (disch := omega) only [Slab.bitmap, load_store_apart]
    exact load_store (by omega)
  · simp (disch := omega) only [Slab.data, load_store_apart]
    exact load_store (by omega)
  · intro b hb
    iterate 7 refine (store_confined b (by omega)).trans ?_
    exact store_confined b (by omega)
theorem threadBlocks_spec (hfit : Fits bs) (hspace : slab + slabSize ≤ 2 ^ 64)
    (hdata : Slab.data m slab = slab + dataOffset bs) (hhead : Slab.freeList m slab = 0)
    (hi : i ≤ slabCapacity bs) :
    Chain (load 8 (threadBlocks slab bs i m)) (Slab.freeList (threadBlocks slab bs i m) slab)
        ((List.range i).reverse.map (blockAt slab bs)) ∧
      SameOn m (threadBlocks slab bs i m) slab 32 ∧
      SameOn m (threadBlocks slab bs i m) (slab + 40) (24 + bitmapBytes bs) ∧
      Confined m (threadBlocks slab bs i m) slab slabSize := by
  have hsize : slabSize = 65536 := rfl
  have hheader : slabHeaderSize = 64 := rfl
  have hbs := hfit.large
  induction i with
  | zero =>
    refine ⟨hhead, ?_, ?_, ?_⟩
    · exact fun _ _ _ => rfl
    · exact fun _ _ _ => rfl
    · exact fun _ _ => rfl
  | succ i ih =>
    obtain ⟨hchain, hlow, hhigh, hconf⟩ := ih (by omega)
    obtain ⟨hfrom, hto⟩ := hfit.blockAt_le slab (show i < slabCapacity bs by omega)
    let m₁ := threadBlocks slab bs i m
    let block := blockAt slab bs i
    let m₂ := store 8 m₁ block (Slab.freeList m₁ slab)
    let m₃ := Slab.setFreeList m₂ slab block
    have hdata₁ : Slab.data m₁ slab = slab + dataOffset bs :=
      ((hhigh.sub (by omega) (by omega)).load).trans hdata
    have heq : threadBlocks slab bs (i + 1) m = m₃ := by
      rw [threadBlocks]
      simp only [show Slab.data (threadBlocks slab bs i m) slab = _ from hdata₁]
      rfl
    have hc₂ : Confined m₁ m₂ block 8 := store_confined
    have hc₃ : Confined m₂ m₃ (slab + 32) 8 := store_confined
    have hblock : slab + 64 + bitmapBytes bs ≤ block := hfrom
    have hblock' : block + bs ≤ slab + slabSize := hto
    rw [heq]
    refine ⟨?_, ?_, ?_, ?_⟩
    · have hnew : Slab.freeList m₃ slab = block := load_store (by omega)
      have hlink : load 8 m₃ block = Slab.freeList m₁ slab := by
        have hread : load 8 m₂ block = Slab.freeList m₁ slab := load_store (load_lt ..)
        rw [← hread]
        exact (hc₃.sameOn (by omega)).load
      rw [List.range_succ, List.reverse_append]
      refine ⟨hnew, show block ≠ 0 by omega, ?_⟩
      rw [show load 8 m₃ (blockAt slab bs i) = _ from hlink]
      refine hchain.congr fun b hb => ?_
      obtain ⟨j, hj, rfl⟩ := List.mem_map.mp hb
      have hji : j < i := List.mem_range.mp (List.mem_reverse.mp hj)
      have hat := (hfit.blockAt_le slab (show j < slabCapacity bs by omega)).1
      have hapart : blockAt slab bs j + bs ≤ block ∨ block + bs ≤ blockAt slab bs j :=
        blockAt_apart slab bs (by omega)
      exact ((hc₂.sameOn (by omega)).trans (hc₃.sameOn (by omega))).load
    · exact hlow.trans ((hc₂.sameOn (by omega)).trans (hc₃.sameOn (by omega)))
    · exact hhigh.trans ((hc₂.sameOn (by omega)).trans (hc₃.sameOn (by omega)))
    · exact hconf.trans ((hc₂.mono (by omega) (by omega)).trans (hc₃.mono (by omega) (by omega)))

/-- A new slab has every block free. -/
theorem slabFormat_spec (m : Memory) (hfit : Fits bs) (hspace : slab + slabSize ≤ 2 ^ 64) :
    SlabOk (slabFormat m slab bs) slab bs (List.range (slabCapacity bs)).reverse ∧
      Confined m (slabFormat m slab bs) slab slabSize := by
  have hsize : slabSize = 65536 := rfl
  have hheader : slabHeaderSize = 64 := rfl
  have hflags := hfit.flags
  have hbitmap := hfit.bitmap
  have hoff := hfit.dataOffset_lt
  obtain ⟨h₁, hc₁⟩ := slabHeader_spec m hfit hspace
  generalize hm₁ : slabHeader m slab bs = m₁ at h₁ hc₁
  have hc₂ : Confined m₁ (fill m₁ (slab + slabHeaderSize) (bitmapBytes bs) 0)
      (slab + slabHeaderSize) (bitmapBytes bs) := fill_confined
  have hbits : ∀ k < slabCapacity bs,
      bitAt (fill m₁ (slab + slabHeaderSize) (bitmapBytes bs) 0) (slab + slabHeaderSize) k =
        false := by
    intro k hk
    have hzero : fill m₁ (slab + slabHeaderSize) (bitmapBytes bs) 0
        (slab + slabHeaderSize + k / 8) = 0 := if_pos (by omega)
    simp [bitAt, hzero]
  have hsame₂ : SameOn m₁ (fill m₁ (slab + slabHeaderSize) (bitmapBytes bs) 0) slab 64 :=
    hc₂.sameOn (by omega)
  have heq : slabFormat m slab bs = threadBlocks slab bs (slabCapacity bs)
      (fill m₁ (slab + slabHeaderSize) (bitmapBytes bs) 0) := by
    have hcapacity : Slab.capacity (fill m₁ (slab + slabHeaderSize) (bitmapBytes bs) 0) slab =
        slabCapacity bs := (SameOn.field hsame₂ (by decide)).trans h₁.capacity
    simp only [slabFormat, hm₁, h₁.bitmap, hcapacity]
  generalize fill m₁ (slab + slabHeaderSize) (bitmapBytes bs) 0 = m₂ at hc₂ hbits hsame₂ heq
  obtain ⟨hchain, hlow, hhigh, hconf⟩ := threadBlocks_spec hfit hspace
    ((SameOn.field hsame₂ (by decide)).trans h₁.data)
    ((SameOn.field hsame₂ (by decide)).trans h₁.freeList) le_rfl
  rw [heq]
  generalize threadBlocks slab bs (slabCapacity bs) m₂ = m₃ at hchain hlow hhigh hconf
  have hlow₁ : SameOn m₁ m₃ slab 32 := (hsame₂.sub le_rfl (by omega)).trans hlow
  have hhigh₁ : SameOn m₁ m₃ (slab + 40) 24 :=
    (hsame₂.sub (by omega) (by omega)).trans (hhigh.sub le_rfl (by omega))
  constructor
  · refine ⟨?_, ?_, ?_, ?_, ?_, ?_, hchain, ?_, ?_, ?_⟩
    · exact (hlow₁.sub le_rfl (by omega)).load.trans h₁.kind
    · exact (SameOn.field hlow₁ (by decide)).trans h₁.blockSize
    · exact (SameOn.field hlow₁ (by decide)).trans h₁.capacity
    · rw [List.length_reverse, List.length_range, Slab.usedCount, SameOn.field hlow₁ (by decide)]
      exact (congrArg (· + slabCapacity bs) h₁.usedCount).trans (Nat.zero_add _)
    · exact (hhigh₁.sub le_rfl (by omega)).load.trans h₁.bitmap
    · exact (hhigh₁.sub (by omega) (by omega)).load.trans h₁.data
    · intro k hk
      have hsame : SameOn m₂ m₃ (slab + slabHeaderSize) (bitmapBytes bs) :=
        hhigh.sub (by omega) (by omega)
      rw [hsame.bitAt (by omega), hbits k hk]
      simp [hk]
    · exact List.nodup_reverse.mpr List.nodup_range
    · exact fun k hk => List.mem_range.mp (List.mem_reverse.mp hk)
  · exact ((hc₁.mono le_rfl (by omega)).trans (hc₂.mono (by omega) (by omega))).trans hconf

theorem SlabOk.congr (h : SlabOk m slab bs free) (hfit : Fits bs)
    (hsame : SameOn m m' slab slabSize) : SlabOk m' slab bs free := by
  have hbitmap := hfit.bitmap
  have hoffset := hfit.dataOffset_lt
  refine h.frame hfit ⟨hsame.sub le_rfl (by omega), fun k hk => ?_⟩
  have hat := hfit.blockAt_le slab (h.bounded k hk)
  have hbs := hfit.large
  exact hsame.sub (by omega) (by omega)

theorem SlabOk.setNext (h : SlabOk m slab bs free) (hfit : Fits bs) (next : Nat) :
    SlabOk (Slab.setNext m slab next) slab bs free := by
  have hheader : slabHeaderSize = 64 := rfl
  have hflags := hfit.flags
  have hc : Confined m (Slab.setNext m slab next) (slab + 56) 8 := store_confined
  refine h.update (hc.sameOn (by omega)) (hc.sameOn (by omega)) ?_ ?_ ?_ h.nodup h.bounded
  · rw [Slab.usedCount, (hc.sameOn (by omega)).load]
    exact h.usedCount
  · rw [Slab.freeList, (hc.sameOn (by omega)).load]
    refine h.chain.congr fun a ha => ?_
    obtain ⟨k, hk, rfl⟩ := List.mem_map.mp ha
    have hat := (hfit.blockAt_le slab (h.bounded k hk)).1
    exact (hc.sameOn (by omega)).load
  · intro k hk
    have hsame : SameOn m (Slab.setNext m slab next) (slab + slabHeaderSize) (bitmapBytes bs) :=
      hc.sameOn (by omega)
    rw [hsame.bitAt (by omega)]
    exact h.bits k hk

end

end KvStore
