import KvStore.Memory.Pool

/-!
# The regions of the pool

`region_memory_alloc` reserves more than it needs and trims the range to an
aligned region. No step of this arithmetic, nor of the rounding in
`pool_alloc_large`, leaves the range of `size_t`, whatever the request, the page
size and the place of the mapping.
-/

namespace KvStore

open Lib

/-! ## Masking -/

theorem regionStart_of_lt {a : Nat} (h : a < 2 ^ 64) : regionStart a = a / slabSize * slabSize := by
  have hmask : sizeMax - (slabSize - 1) = (2 ^ 48 - 1) <<< 16 := by decide
  have hround : a / slabSize * slabSize = (a >>> 16) <<< 16 := by
    rw [Nat.shiftLeft_eq, Nat.shiftRight_eq_div_pow]
    rfl
  rw [regionStart, hmask, hround]
  apply Nat.eq_of_testBit_eq
  intro i
  rw [Nat.testBit_and, Nat.testBit_shiftLeft, Nat.testBit_shiftLeft, Nat.testBit_two_pow_sub_one,
    Nat.testBit_shiftRight]
  by_cases hlow : 16 ≤ i
  · have hback : 16 + (i - 16) = i := by omega
    by_cases hhigh : i - 16 < 48
    · simp [hlow, hhigh, hback]
    · have hzero : a.testBit i = false :=
        Nat.testBit_lt_two_pow (Nat.lt_of_lt_of_le h (Nat.pow_le_pow_right (by decide) (by omega)))
      simp [hback, hzero]
  · simp [hlow]

theorem regionStart_eq {start a : Nat} (hstart : start % slabSize = 0) (hle : start ≤ a)
    (hlt : a < start + slabSize) (hspace : a < 2 ^ 64) : regionStart a = start := by
  rw [regionStart_of_lt hspace]
  unfold slabSize at *
  omega

/-! ## The reserved range -/

theorem sizeAdd_exact {a b : Nat} (h : a + b < 2 ^ 64) : sizeAdd a b = pure (a + b) := by
  rw [sizeAdd, Wrapping.add_exact h]

theorem sizeSub_exact {a b : Nat} (ha : a < 2 ^ 64) (hb : b ≤ a) : sizeSub a b = pure (a - b) := by
  rw [sizeSub, Wrapping.sub_exact ha hb]

/-- The page size is a `long`, and what `mmap` reserves lies in the address space. -/
structure Os.InSpace (os : Os) : Prop where
  page : os.pageSize < 2 ^ 63
  mmap : ∀ n raw, os.mmap n = some raw → raw + n ≤ 2 ^ 64

theorem regionStart_up (raw : Nat) (h : raw + slabSize ≤ 2 ^ 64) :
    regionStart (raw + slabSize - 1) % slabSize = 0 ∧ raw ≤ regionStart (raw + slabSize - 1) ∧
      regionStart (raw + slabSize - 1) < raw + slabSize := by
  have hsize : slabSize = 65536 := rfl
  rw [regionStart_of_lt (by omega)]
  rw [hsize]
  omega

theorem regionTrim_exact {raw mappingSize : Nat} (hpos : 0 < mappingSize)
    (hfit : mappingSize + slabSize < 2 ^ 64) (hspace : raw + (mappingSize + slabSize) ≤ 2 ^ 64) :
    ∃ aligned, regionTrim raw (mappingSize + slabSize) mappingSize =
        pure (aligned, aligned - raw, raw + slabSize - aligned) ∧
      aligned % slabSize = 0 ∧ raw ≤ aligned ∧ aligned < raw + slabSize := by
  obtain ⟨hmul, hle, hlt⟩ := regionStart_up raw (by omega)
  generalize haligned : regionStart (raw + slabSize - 1) = aligned at hmul hle hlt
  refine ⟨aligned, ?_, hmul, hle, hlt⟩
  have hsuffix : mappingSize + slabSize - (aligned - raw) - mappingSize =
      raw + slabSize - aligned := by omega
  rw [regionTrim, sizeAdd_exact (by omega), Wrapping.pure_bind,
    sizeSub_exact (by omega) (by omega), Wrapping.pure_bind]
  simp only [haligned]
  rw [sizeSub_exact (by omega) hle, Wrapping.pure_bind, sizeSub_exact hfit (by omega),
    Wrapping.pure_bind, sizeSub_exact (by omega) (by omega), Wrapping.pure_bind, hsuffix]

/-! ## What a call leaves -/

section
variable {s s' : Allocator} {os : Os} {a n : Nat}

structure Remapped (s s' : Allocator) (a n : Nat) : Prop where
  same : s' = { s with mapped := s'.mapped }
  outside : ∀ b, b < a ∨ a + n ≤ b → s'.mapped b = s.mapped b

theorem Remapped.refl (s : Allocator) (a n : Nat) : Remapped s s a n := ⟨rfl, fun _ _ => rfl⟩

theorem Remapped.trans {s'' : Allocator} {b k : Nat} (h : Remapped s s' a n)
    (h' : Remapped s' s'' b k) (hb : a ≤ b) (hk : b + k ≤ a + n) : Remapped s s'' a n where
  same := by rw [h'.same, h.same]
  outside := fun c hc => (h'.outside c (by omega)).trans (h.outside c hc)

theorem Allocator.munmap_spec (s : Allocator) (os : Os) (a n : Nat) :
    Remapped s (s.munmap os a n).2 a n ∧
      ((s.munmap os a n).1 = true →
        ∀ b, a ≤ b → b < a + n → (s.munmap os a n).2.mapped b = false) := by
  unfold Allocator.munmap
  split
  · refine ⟨⟨rfl, fun b hb => ?_⟩, fun _ b hle hlt => ?_⟩
    · have hout : ¬(a ≤ b ∧ b < a + n) := by omega
      simp only [Allocator.unmapRange, decide_eq_false hout, Bool.not_false, Bool.and_true]
    · simp [Allocator.unmapRange, hle, hlt]
  · exact ⟨.refl s a n, fun h => by cases h⟩

theorem Allocator.trim_spec (s : Allocator) (os : Os) (a n : Nat) :
    Remapped s (s.trim os a n).2 a n ∧
      ((s.trim os a n).1 = true →
        ∀ b, a ≤ b → b < a + n → (s.trim os a n).2.mapped b = false) := by
  unfold Allocator.trim
  split
  · exact s.munmap_spec os a n
  · exact ⟨.refl s a n, fun _ b hle hlt => by omega⟩

structure RegionResult (os : Os) (n : Nat) (s : Allocator) (result : Nat × Allocator)
    (raw start : Nat) : Prop where
  mmap : os.mmap (n + slabSize) = some raw
  trim : regionTrim raw (n + slabSize) n = pure (start, start - raw, raw + slabSize - start)
  positive : 0 < n
  page : 0 < os.pageSize ∧ slabSize % os.pageSize.toNat = 0 ∧ n % os.pageSize.toNat = 0
  fits : n + slabSize < 2 ^ 64
  space : raw + (n + slabSize) ≤ 2 ^ 64
  aligned : start % slabSize = 0
  le : raw ≤ start
  lt : start < raw + slabSize
  same : Remapped (s.mapRange raw (n + slabSize)) result.2 raw (n + slabSize)
  outcome : result.1 = 0 ∨ result.1 = start ∧
    ∀ b, raw ≤ b → b < raw + (n + slabSize) →
      result.2.mapped b = decide (start ≤ b ∧ b < start + n)

theorem regionMemoryAlloc_cases (hos : os.InSpace) (n : Nat) (s : Allocator) :
    ∃ result, regionMemoryAlloc os n s = pure result ∧
      (result = (0, s) ∨ ∃ raw start, RegionResult os n s result raw start) := by
  have hsize : slabSize = 65536 := rfl
  have hmax : sizeMax = 2 ^ 64 - 1 := rfl
  unfold regionMemoryAlloc
  by_cases hargs : os.pageSize ≤ 0 ∨ slabSize % os.pageSize.toNat ≠ 0 ∨ n = 0 ∨
      n % os.pageSize.toNat ≠ 0
  · rw [if_pos hargs]
    exact ⟨_, rfl, .inl rfl⟩
  rw [if_neg hargs, sizeSub_exact (by omega) (by omega), Wrapping.pure_bind]
  by_cases hbig : n > sizeMax - slabSize
  · rw [if_pos hbig]
    exact ⟨_, rfl, .inl rfl⟩
  rw [if_neg hbig, sizeAdd_exact (by omega), Wrapping.pure_bind]
  cases hmmap : os.mmap (n + slabSize) with
  | none => exact ⟨_, rfl, .inl rfl⟩
  | some raw =>
    have hspace := hos.mmap _ _ hmmap
    obtain ⟨start, htrim, haligned, hle, hlt⟩ :=
      regionTrim_exact (by omega) (by omega) hspace
    have hresult : ∀ result, Remapped (s.mapRange raw (n + slabSize)) result.2 raw (n + slabSize) →
        (result.1 = 0 ∨ result.1 = start ∧ ∀ b, raw ≤ b → b < raw + (n + slabSize) →
          result.2.mapped b = decide (start ≤ b ∧ b < start + n)) →
        RegionResult os n s result raw start := fun result hsame houtcome =>
      ⟨hmmap, htrim, by omega, ⟨by omega, by omega, by omega⟩, by omega, hspace, haligned, hle, hlt,
        hsame, houtcome⟩
    simp only [htrim, Wrapping.pure_bind]
    obtain ⟨hbefore, hcut₁⟩ :=
      (s.mapRange raw (n + slabSize)).trim_spec os raw (start - raw)
    generalize (s.mapRange raw (n + slabSize)).trim os raw (start - raw) = t₁ at hbefore hcut₁
    obtain ⟨ok₁, s₁⟩ := t₁
    have hfirst : Remapped (s.mapRange raw (n + slabSize)) s₁ raw (n + slabSize) :=
      (Remapped.refl _ _ _).trans hbefore (by omega) (by omega)
    cases ok₁ with
    | false =>
      refine ⟨_, rfl, .inr ⟨raw, start, hresult _ ?_ (.inl rfl)⟩⟩
      exact hfirst.trans (s₁.munmap_spec os raw (n + slabSize)).1 le_rfl le_rfl
    | true =>
      simp only [Bool.not_true, Bool.false_eq_true, if_false]
      rw [sizeAdd_exact (by omega), Wrapping.pure_bind]
      obtain ⟨hafter, hcut₂⟩ := s₁.trim_spec os (start + n) (raw + slabSize - start)
      generalize s₁.trim os (start + n) (raw + slabSize - start) = t₂ at hafter hcut₂
      obtain ⟨ok₂, s₂⟩ := t₂
      have hboth := hfirst.trans hafter (by omega) (by omega)
      cases ok₂ with
      | false =>
        simp only [Bool.not_false, if_true]
        rw [sizeSub_exact (by omega) (by omega), Wrapping.pure_bind]
        refine ⟨_, rfl, .inr ⟨raw, start, hresult _ ?_ (.inl rfl)⟩⟩
        exact hboth.trans (s₂.munmap_spec os _ _).1 (by omega) (by omega)
      | true =>
        refine ⟨_, rfl, .inr ⟨raw, start, hresult _ hboth (.inr ⟨rfl, fun b hb hlast => ?_⟩)⟩⟩
        by_cases hlow : b < start
        · rw [hafter.outside b (by omega), hcut₁ rfl b hb (by omega)]
          exact (decide_eq_false (by omega)).symm
        · by_cases hhigh : b < start + n
          · rw [hafter.outside b (by omega), hbefore.outside b (by omega),
              decide_eq_true ⟨by omega, hhigh⟩]
            simp [Allocator.mapRange, hb, hlast]
          · rw [hcut₂ rfl b (by omega) (by omega)]
            exact (decide_eq_false (by omega)).symm

end

/-! ## Large objects -/

section
variable {os : Os} {s : Allocator} {size start mappingSize : Nat}

theorem largeOffset_exact : largeOffset = pure 32 := rfl

theorem pagePadding_exact (total : Nat) (hos : os.InSpace) (hpage : 0 < os.pageSize) :
    ∃ padding, pagePadding total os.pageSize.toNat = pure padding ∧ padding < 2 ^ 63 := by
  have hrange := hos.page
  have hmod : total % os.pageSize.toNat < os.pageSize.toNat := Nat.mod_lt _ (by omega)
  unfold pagePadding
  by_cases hzero : total % os.pageSize.toNat = 0
  · exact ⟨0, if_pos hzero, by omega⟩
  · exact ⟨_, (if_neg hzero).trans (sizeSub_exact (by omega) (by omega)), by omega⟩

/-- What `pool_alloc_large` does with the region it asked for. -/
inductive LargeResult (os : Os) (size : Nat) (s : Allocator) : Nat × Allocator → Prop
  | refused : LargeResult os size s (0, s)
  | failed (mappingSize raw start : Nat) (region : Nat × Allocator)
      (h : RegionResult os mappingSize s region raw start) (hnull : region.1 = 0) :
      LargeResult os size s (0, region.2)
  | linked (mappingSize raw start : Nat) (region : Nat × Allocator)
      (h : RegionResult os mappingSize s region raw start) (hroom : 32 + size ≤ mappingSize)
      (hpos : start ≠ 0)
      (hmapped : ∀ b, raw ≤ b → b < raw + (mappingSize + slabSize) →
        region.2.mapped b = decide (start ≤ b ∧ b < start + mappingSize)) :
      LargeResult os size s (start + 32, region.2.linkLarge start mappingSize)

theorem poolAllocLarge_cases (hos : os.InSpace) (size : Nat) (s : Allocator) :
    ∃ result, poolAllocLarge os size s = pure result ∧ LargeResult os size s result := by
  have hsize : slabSize = 65536 := rfl
  have hmax : sizeMax = 2 ^ 64 - 1 := rfl
  unfold poolAllocLarge
  by_cases hargs : os.pageSize ≤ 0 ∨ size = 0
  · rw [if_pos hargs]
    exact ⟨_, rfl, .refused⟩
  rw [if_neg hargs, largeOffset_exact, Wrapping.pure_bind, sizeSub_exact (by omega) (by omega),
    Wrapping.pure_bind]
  by_cases hbig : 32 ≥ slabSize ∨ size > sizeMax - 32
  · rw [if_pos hbig]
    exact ⟨_, rfl, .refused⟩
  rw [if_neg hbig, sizeAdd_exact (by omega), Wrapping.pure_bind]
  obtain ⟨padding, hpad, hsmall⟩ := pagePadding_exact (32 + size) hos (by omega)
  rw [hpad, Wrapping.pure_bind, sizeSub_exact (by omega) (by omega), Wrapping.pure_bind]
  by_cases hover : 32 + size > sizeMax - padding
  · rw [if_pos hover]
    exact ⟨_, rfl, .refused⟩
  rw [if_neg hover, sizeAdd_exact (by omega), Wrapping.pure_bind]
  obtain ⟨region, heq, hregion⟩ := regionMemoryAlloc_cases hos (32 + size + padding) s
  rw [heq, Wrapping.pure_bind]
  change ∃ result, (if region.1 = 0 then pure (0, region.2)
    else sizeAdd region.1 32 >>= fun p =>
      pure (p, region.2.linkLarge region.1 (32 + size + padding))) = pure result ∧ _
  by_cases hnull : region.1 = 0
  · rw [if_pos hnull]
    refine ⟨_, rfl, ?_⟩
    obtain rfl | ⟨raw, start, h⟩ := hregion
    · exact .refused
    · exact .failed _ raw start region h hnull
  · rw [if_neg hnull]
    obtain rfl | ⟨raw, start, h⟩ := hregion
    · exact absurd rfl hnull
    · have hlt := h.lt
      have hspace := h.space
      obtain hzero | ⟨hstart, hmapped⟩ := h.outcome
      · exact absurd hzero hnull
      · rw [hstart, sizeAdd_exact (by omega), Wrapping.pure_bind]
        exact ⟨_, rfl, .linked _ raw start region h (by omega) (hstart ▸ hnull) hmapped⟩

theorem Allocator.linkLarge_header (s : Allocator) (hsize : mappingSize < 2 ^ 64)
    (hhead : s.largeRegions = 0 ∨ s.largeRegions + largeHeaderSize ≤ start ∨
      start + largeHeaderSize ≤ s.largeRegions) :
    Large.kind (s.linkLarge start mappingSize).memory start = regionLarge ∧
      Large.mappingSize (s.linkLarge start mappingSize).memory start = mappingSize := by
  have hheader : largeHeaderSize = 32 := rfl
  have hlarge : regionLarge < 256 ^ 4 := by decide
  unfold Allocator.linkLarge
  by_cases hzero : s.largeRegions = 0
  · simp (disch := omega) only [hzero, ne_eq, not_true_eq_false, if_false, Large.kind,
      Large.mappingSize, Large.setKind, Large.setMappingSize, Large.setPrev, Large.setNext,
      load_store_apart, load_store, and_self]
  · simp (disch := omega) only [hzero, ne_eq, not_false_eq_true, if_true, Large.kind,
      Large.mappingSize, Large.setKind, Large.setMappingSize, Large.setPrev, Large.setNext,
      load_store_apart, load_store, and_self]

/-- For every request, page size and answer of `mmap`, no step of
`pool_alloc_large` wraps, and a pointer that it returns is the client's part of an
aligned region cut exactly out of the reserved range. -/
theorem poolAllocLarge_region (hos : os.InSpace) (size : Nat) (s : Allocator) :
    (poolAllocLarge os size s).wrapped = false ∧
      ((poolAllocLarge os size s).value.1 = 0 ∨
        ∃ raw mappingSize start prefixSize suffixSize,
          os.mmap (mappingSize + slabSize) = some raw ∧
          regionTrim raw (mappingSize + slabSize) mappingSize =
            pure (start, prefixSize, suffixSize) ∧
          start % slabSize = 0 ∧ raw + prefixSize = start ∧
          start + mappingSize + suffixSize = raw + (mappingSize + slabSize) ∧
          prefixSize + mappingSize + suffixSize = mappingSize + slabSize ∧
          mappingSize + slabSize < 2 ^ 64 ∧ mappingSize % os.pageSize.toNat = 0 ∧
          largeHeaderSize + size ≤ mappingSize ∧
          (∀ a, raw ≤ a → a < raw + (mappingSize + slabSize) →
            (poolAllocLarge os size s).value.2.mapped a =
              decide (start ≤ a ∧ a < start + mappingSize)) ∧
          (poolAllocLarge os size s).value.1 = start + largeHeaderSize ∧
          (poolAllocLarge os size s).value.1 % maxAlign = 0 ∧
          (poolAllocLarge os size s).value.1 < start + slabSize ∧
          regionStart (poolAllocLarge os size s).value.1 = start ∧
          (s.largeRegions = 0 ∨ s.largeRegions + largeHeaderSize ≤ raw ∨
              raw + (mappingSize + slabSize) ≤ s.largeRegions →
            Slab.kind (poolAllocLarge os size s).value.2.memory start = regionLarge ∧
            Large.mappingSize (poolAllocLarge os size s).value.2.memory start = mappingSize)) := by
  have hsize : slabSize = 65536 := rfl
  have hheader : largeHeaderSize = 32 := rfl
  obtain ⟨result, heq, hresult⟩ := poolAllocLarge_cases hos size s
  rw [heq]
  refine ⟨rfl, ?_⟩
  cases hresult with
  | refused => exact .inl rfl
  | failed => exact .inl rfl
  | linked mappingSize raw start region h hroom hpos hmapped =>
    have hle := h.le
    have hlt := h.lt
    have hspace := h.space
    have haligned := h.aligned
    refine .inr ⟨raw, mappingSize, start, start - raw, raw + slabSize - start, h.mmap, h.trim,
      haligned, by omega, by omega, by omega, h.fits, h.page.2.2, by omega, hmapped, rfl, ?_, ?_,
      ?_, ?_⟩
    · have hunit : start % 65536 = 0 := haligned
      change (start + 32) % 16 = 0
      omega
    · change start + 32 < start + slabSize
      omega
    · change regionStart (start + 32) = start
      exact regionStart_eq haligned (by omega) (by omega) (by omega)
    · intro hhead
      have hsame : region.2.largeRegions = s.largeRegions := by
        rw [h.same.same]
        rfl
      have hbound := h.fits
      exact region.2.linkLarge_header (by omega) (by rw [hsame]; omega)

def plainOs : Os where
  pageSize := 4096
  mmap n := if n ≤ 2 ^ 40 then some 0x7f1234567000 else none
  munmap _ _ := true
  malloc _ := 0

theorem plainOs_inSpace : plainOs.InSpace where
  page := by decide
  mmap n raw h := by
    simp only [plainOs] at h
    split at h
    · cases h
      omega
    · cases h

/-- A request of 100000 bytes gets the region at the next multiple of 64 KiB. -/
theorem poolAllocLarge_region_plain :
    (poolAllocLarge plainOs 100000 (.start (fun _ => 0) fun _ => false)).value.1 =
        0x7f1234570020 ∧
      (poolAllocLarge plainOs 100000 (.start (fun _ => 0) fun _ => false)).wrapped = false := by
  refine ⟨by decide +kernel, ?_⟩
  exact (poolAllocLarge_region plainOs_inSpace 100000 _).1

end

end KvStore
