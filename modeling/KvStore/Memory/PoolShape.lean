import KvStore.Memory.PoolLaws

/-!
# The shape of the pool

A layout says where everything is: the slabs of each class, the free blocks of
each slab, the large regions and their lengths. `PoolShape` relates it to the bytes
and to the static variables. What an operation does to the layout is one change
of it, and outside one region the memory keeps its bytes.
-/

namespace KvStore

open Lib

structure Layout where
  /-- The slabs of class `i`, in the order of their list. -/
  slabs : Nat → List Nat
  /-- The numbers of the free blocks of a slab, in the order of its list. -/
  free : Nat → List Nat
  large : List Nat
  /-- The mapped length of a large region. -/
  length : Nat → Nat

inductive Layout.Region (L : Layout) : Nat → Nat → Prop
  | slab (hi : i < blockSizes.length) (hp : p ∈ L.slabs i) : L.Region p slabSize
  | large (hp : p ∈ L.large) : L.Region p (L.length p)

inductive Layout.Reserved (L : Layout) (a : Nat) : Prop
  | header (hi : i < blockSizes.length) (hp : p ∈ L.slabs i) (hle : p ≤ a)
      (hlt : a < p + (slabHeaderSize + bitmapBytes (blockSizeOf i))) : L.Reserved a
  | free (hi : i < blockSizes.length) (hp : p ∈ L.slabs i) (hk : k ∈ L.free p)
      (hle : blockAt p (blockSizeOf i) k ≤ a)
      (hlt : a < blockAt p (blockSizeOf i) k + blockSizeOf i) : L.Reserved a
  | large (hp : p ∈ L.large) (hle : p ≤ a) (hlt : a < p + largeHeaderSize) : L.Reserved a

structure LargeOk (m : Memory) (large length : Nat) : Prop where
  kind : Large.kind m large = regionLarge
  mappingSize : Large.mappingSize m large = length
  room : largeHeaderSize < length

structure PoolShape (s : Allocator) (L : Layout) : Prop where
  chains : ∀ i < blockSizes.length, Chain (Slab.next s.memory) (s.slabs i) (L.slabs i)
  slabOk : ∀ i < blockSizes.length, ∀ p ∈ L.slabs i,
    SlabOk s.memory p (blockSizeOf i) (L.free p)
  largeChain : DoubleChain (Large.next s.memory) (Large.prev s.memory) 0 s.largeRegions L.large
  largeOk : ∀ p ∈ L.large, LargeOk s.memory p (L.length p)
  inSpace : ∀ p n, L.Region p n → p % slabSize = 0 ∧ p ≠ 0 ∧ p + n ≤ 2 ^ 64
  mapped : ∀ p n, L.Region p n → ∀ a, p ≤ a → a < p + n → s.mapped a = true
  apart : ∀ p n q k, L.Region p n → L.Region q k → p ≠ q → p + n ≤ q ∨ q + k ≤ p

/-! ## Classes -/

theorem blockSizeOf_fits : ∀ i < blockSizes.length, Fits (blockSizeOf i) := by decide

theorem blockSizeOf_injective :
    ∀ i < blockSizes.length, ∀ j < blockSizes.length, blockSizeOf i = blockSizeOf j → i = j := by
  decide

section
variable {s s' : Allocator} {L L' : Layout} {m' : Memory} {i j p q n k a : Nat} {free' : List Nat}

theorem Layout.Region.header_lt (h : L.Region p n)
    (hlarge : ∀ p ∈ L.large, largeHeaderSize < L.length p) : largeHeaderSize < n := by
  cases h with
  | slab => decide
  | large hp => exact hlarge p hp

theorem PoolShape.class_unique (h : PoolShape s L) (hi : i < blockSizes.length) (hj : j < blockSizes.length)
    (hp : p ∈ L.slabs i) (hp' : p ∈ L.slabs j) : i = j :=
  blockSizeOf_injective i hi j hj
    ((h.slabOk i hi p hp).blockSize.symm.trans (h.slabOk j hj p hp').blockSize)

theorem PoolShape.not_large (h : PoolShape s L) (hi : i < blockSizes.length) (hp : p ∈ L.slabs i) :
    p ∉ L.large := by
  intro hlarge
  have hslab := (h.slabOk i hi p hp).kind
  rw [Slab.kind, show load 4 s.memory p = regionLarge from (h.largeOk p hlarge).kind] at hslab
  exact absurd hslab (by decide)

theorem PoolShape.header_lt (h : PoolShape s L) (hp : L.Region p n) : largeHeaderSize < n :=
  hp.header_lt fun q hq => (h.largeOk q hq).room

theorem PoolShape.elsewhere (h : PoolShape s L) (hp : L.Region p n) (hq : L.Region q k) (hne : p ≠ q)
    (hc : Confined s.memory m' p n) : SameOn s.memory m' q k :=
  hc.sameOn (by
    have := h.apart p n q k hp hq hne
    omega)

theorem LargeOk.frame {m : Memory} {length : Nat} (h : LargeOk m p length)
    (hsame : SameOn m m' p largeHeaderSize) : LargeOk m' p length where
  kind := (hsame.sub le_rfl (by unfold largeHeaderSize; omega)).load.trans h.kind
  mappingSize := (SameOn.field hsame (by decide)).trans h.mappingSize
  room := h.room

/-- Bytes that are not the pool's may change. -/
theorem PoolShape.frame (h : PoolShape s L) (hslabs : s'.slabs = s.slabs)
    (hlarge : s'.largeRegions = s.largeRegions)
    (hmemory : ∀ a, L.Reserved a → s'.memory a = s.memory a)
    (hmapped : ∀ a, s.mapped a = true → s'.mapped a = true) : PoolShape s' L := by
  have hslab : ∀ i < blockSizes.length, ∀ p ∈ L.slabs i,
      SameSlab s.memory s'.memory p (blockSizeOf i) (L.free p) := by
    intro i hi p hp
    refine ⟨fun a hle hlt => hmemory a (.header hi hp hle hlt), fun k hk a hle hlt => ?_⟩
    have hbs := (blockSizeOf_fits i hi).large
    exact hmemory a (.free hi hp hk hle (by omega))
  have hheader : ∀ p ∈ L.large, SameOn s.memory s'.memory p largeHeaderSize :=
    fun p hp a hle hlt => hmemory a (.large hp hle hlt)
  refine ⟨fun i hi => ?_, fun i hi p hp => ?_, ?_, fun p hp => ?_, h.inSpace, ?_, h.apart⟩
  · rw [hslabs]
    exact (h.chains i hi).congr fun p hp => SameOn.field (hslab i hi p hp).header (by
      unfold slabHeaderSize
      omega)
  · exact (h.slabOk i hi p hp).frame (blockSizeOf_fits i hi) (hslab i hi p hp)
  · rw [hlarge]
    exact h.largeChain.congr (fun p hp => SameOn.field (hheader p hp) (by decide))
      fun p hp => SameOn.field (hheader p hp) (by decide)
  · exact (h.largeOk p hp).frame (hheader p hp)
  · exact fun p n hp a hle hlt => hmapped a (h.mapped p n hp a hle hlt)

/-! ## One slab -/

theorem Layout.region_free (free : Nat → List Nat) :
    ({ L with free } : Layout).Region p n ↔ L.Region p n := by
  constructor
  · rintro (⟨hi, hp⟩ | hp)
    · exact .slab hi hp
    · exact .large hp
  · rintro (⟨hi, hp⟩ | hp)
    · exact .slab hi hp
    · exact .large hp

theorem PoolShape.changeSlab (h : PoolShape s L) (hi : i < blockSizes.length) (hp : p ∈ L.slabs i)
    (hc : Confined s.memory m' p slabSize) (hok : SlabOk m' p (blockSizeOf i) free')
    (hnext : Slab.next m' p = Slab.next s.memory p) :
    PoolShape { s with memory := m' } { L with free := Function.update L.free p free' } := by
  have hregion : L.Region p slabSize := .slab hi hp
  have hother : ∀ j < blockSizes.length, ∀ q ∈ L.slabs j, q ≠ p →
      SameOn s.memory m' q slabSize := fun j hj q hq hne =>
    h.elsewhere hregion (.slab hj hq) (Ne.symm hne) hc
  have hlarge : ∀ q ∈ L.large, SameOn s.memory m' q (L.length q) := fun q hq =>
    h.elsewhere hregion (.large hq) (fun heq => h.not_large hi hp (heq ▸ hq)) hc
  have hheader : ∀ q ∈ L.large, SameOn s.memory m' q largeHeaderSize := fun q hq =>
    (hlarge q hq).sub le_rfl (Nat.add_le_add_left (h.largeOk q hq).room.le q)
  refine ⟨fun j hj => ?_, fun j hj q hq => ?_, ?_, fun q hq => ?_, fun q n hq => ?_,
    fun q n hq => ?_, fun q n r k hq hr => ?_⟩
  · refine (h.chains j hj).congr fun q hq => ?_
    by_cases heq : q = p
    · rw [heq]
      exact hnext
    · exact SameOn.field (hother j hj q hq heq) (by decide)
  · change SlabOk m' q (blockSizeOf j) (Function.update L.free p free' q)
    by_cases heq : q = p
    · subst heq
      obtain rfl := h.class_unique hi hj hp hq
      rw [Function.update_self]
      exact hok
    · rw [Function.update_of_ne heq]
      exact (h.slabOk j hj q hq).congr (blockSizeOf_fits j hj) (hother j hj q hq heq)
  · exact h.largeChain.congr (fun q hq => SameOn.field (hheader q hq) (by decide))
      fun q hq => SameOn.field (hheader q hq) (by decide)
  · exact (h.largeOk q hq).frame (hheader q hq)
  · exact h.inSpace q n ((Layout.region_free _).mp hq)
  · exact h.mapped q n ((Layout.region_free _).mp hq)
  · exact h.apart q n r k ((Layout.region_free _).mp hq) ((Layout.region_free _).mp hr)

/-! ## A new slab -/

/-- A mapped, aligned range that no region of the layout touches. -/
structure NewRegion (s : Allocator) (L : Layout) (p n : Nat) : Prop where
  aligned : p % slabSize = 0
  positive : p ≠ 0
  space : p + n ≤ 2 ^ 64
  room : largeHeaderSize < n
  mapped : ∀ a, p ≤ a → a < p + n → s.mapped a = true
  apart : ∀ q k, L.Region q k → p + n ≤ q ∨ q + k ≤ p

theorem NewRegion.ne (hnew : NewRegion s L p n) (h : PoolShape s L) (hq : L.Region q k) : q ≠ p := by
  have hroom := hnew.room
  have hk := h.header_lt hq
  have hapart := hnew.apart q k hq
  unfold largeHeaderSize at hroom hk
  omega

theorem NewRegion.same (hnew : NewRegion s L p n) (hc : Confined s.memory m' p n)
    (hq : L.Region q k) : SameOn s.memory m' q k :=
  hc.sameOn (by
    have := hnew.apart q k hq
    omega)

theorem NewRegion.apart_of {r l : Nat} (hnew : NewRegion s L p n) (h : PoolShape s L)
    (hq : q = p ∧ k = n ∨ L.Region q k) (hr : r = p ∧ l = n ∨ L.Region r l) (hne : q ≠ r) :
    q + k ≤ r ∨ r + l ≤ q := by
  obtain ⟨rfl, rfl⟩ | hq := hq
  · obtain ⟨rfl, -⟩ | hr := hr
    · exact absurd rfl hne
    · exact hnew.apart r l hr
  · obtain ⟨rfl, rfl⟩ | hr := hr
    · exact (hnew.apart q k hq).symm
    · exact h.apart q k r l hq hr hne

def Layout.addSlab (L : Layout) (i p : Nat) (free' : List Nat) : Layout :=
  { L with
    slabs := Function.update L.slabs i (p :: L.slabs i)
    free := Function.update L.free p free' }

theorem Layout.mem_addSlab : q ∈ (L.addSlab i p free').slabs j ↔ j = i ∧ q = p ∨ q ∈ L.slabs j := by
  unfold Layout.addSlab
  by_cases hj : j = i
  · subst hj
    simp
  · simp [hj]

theorem Layout.region_addSlab (h : (L.addSlab i p free').Region q k) :
    q = p ∧ k = slabSize ∨ L.Region q k := by
  cases h with
  | slab hj hq =>
    obtain ⟨-, rfl⟩ | hq := Layout.mem_addSlab.mp hq
    · exact .inl ⟨rfl, rfl⟩
    · exact .inr (.slab hj hq)
  | large hq => exact .inr (.large hq)

theorem PoolShape.addSlab (h : PoolShape s L) (hi : i < blockSizes.length) (hnew : NewRegion s L p slabSize)
    (hc : Confined s.memory m' p slabSize) (hok : SlabOk m' p (blockSizeOf i) free')
    (hnext : Slab.next m' p = s.slabs i) :
    PoolShape { s with memory := m', slabs := Function.update s.slabs i p } (L.addSlab i p free') := by
  have hsame : ∀ {q k}, L.Region q k → SameOn s.memory m' q k := hnew.same hc
  have hheader : ∀ q ∈ L.large, SameOn s.memory m' q largeHeaderSize := fun q hq =>
    (hsame (.large hq)).sub le_rfl (Nat.add_le_add_left (h.largeOk q hq).room.le q)
  have hchain : ∀ j < blockSizes.length, Chain (Slab.next m') (s.slabs j) (L.slabs j) := fun j hj =>
    (h.chains j hj).congr fun q hq => SameOn.field (hsame (.slab hj hq)) (by decide)
  refine ⟨fun j hj => ?_, fun j hj q hq => ?_, ?_, fun q hq => ?_, fun q k hq => ?_,
    fun q k hq => ?_, fun q k r l hq hr hne => ?_⟩
  · change Chain (Slab.next m') (Function.update s.slabs i p j)
      (Function.update L.slabs i (p :: L.slabs i) j)
    by_cases heq : j = i
    · subst heq
      rw [Function.update_self, Function.update_self]
      refine ⟨rfl, hnew.positive, ?_⟩
      rw [hnext]
      exact hchain j hj
    · rw [Function.update_of_ne heq, Function.update_of_ne heq]
      exact hchain j hj
  · change SlabOk m' q (blockSizeOf j) (Function.update L.free p free' q)
    obtain ⟨rfl, rfl⟩ | hq := Layout.mem_addSlab.mp hq
    · rw [Function.update_self]
      exact hok
    · rw [Function.update_of_ne (hnew.ne h (.slab hj hq))]
      exact (h.slabOk j hj q hq).congr (blockSizeOf_fits j hj) (hsame (.slab hj hq))
  · exact h.largeChain.congr (fun q hq => SameOn.field (hheader q hq) (by decide))
      fun q hq => SameOn.field (hheader q hq) (by decide)
  · exact (h.largeOk q hq).frame (hheader q hq)
  · obtain ⟨rfl, rfl⟩ | hq := Layout.region_addSlab hq
    · exact ⟨hnew.aligned, hnew.positive, hnew.space⟩
    · exact h.inSpace q k hq
  · obtain ⟨rfl, rfl⟩ | hq := Layout.region_addSlab hq
    · exact hnew.mapped
    · exact h.mapped q k hq
  · exact hnew.apart_of h (Layout.region_addSlab hq) (Layout.region_addSlab hr) hne

def Layout.addLarge (L : Layout) (p n : Nat) : Layout :=
  { L with large := p :: L.large, length := Function.update L.length p n }

theorem Layout.region_addLarge (h : (L.addLarge p n).Region q k) (hp : p ∉ L.large) :
    q = p ∧ k = n ∨ L.Region q k := by
  cases h with
  | slab hj hq => exact .inr (.slab hj hq)
  | large hq =>
    obtain rfl | hold := List.mem_cons.mp hq
    · exact .inl ⟨rfl, Function.update_self ..⟩
    · have hne : q ≠ p := fun heq => hp (heq ▸ hold)
      have hlength : (L.addLarge p n).length q = L.length q := Function.update_of_ne hne ..
      rw [hlength]
      exact .inr (.large hold)

/-! ## A new large region -/

theorem Allocator.linkLarge_links (s : Allocator) (hp : p < 2 ^ 64)
    (hfirst : s.largeRegions < 2 ^ 64)
    (hhead : s.largeRegions = 0 ∨ s.largeRegions + largeHeaderSize ≤ p ∨
      p + largeHeaderSize ≤ s.largeRegions) :
    Large.prev (s.linkLarge p n).memory p = 0 ∧
      Large.next (s.linkLarge p n).memory p = s.largeRegions ∧
      (s.largeRegions ≠ 0 → Large.prev (s.linkLarge p n).memory s.largeRegions = p) ∧
      ∀ a, (a < p ∨ p + largeHeaderSize ≤ a) →
        (s.largeRegions ≠ 0 → a < s.largeRegions + 16 ∨ s.largeRegions + 24 ≤ a) →
        (s.linkLarge p n).memory a = s.memory a := by
  have hheader : largeHeaderSize = 32 := rfl
  unfold Allocator.linkLarge
  by_cases hzero : s.largeRegions = 0
  · simp only [hzero, ne_eq, not_true_eq_false, if_false, Large.setKind, Large.setMappingSize,
      Large.setPrev, Large.setNext]
    refine ⟨?_, ?_, fun h => h.elim, fun a ha _ => ?_⟩
    · simp (disch := omega) only [Large.prev, load_store_apart]
      exact load_store (by omega)
    · exact load_store (by omega)
    · iterate 3 refine (store_confined a (by omega)).trans ?_
      exact store_confined a (by omega)
  · simp only [hzero, ne_eq, not_false_eq_true, if_true, Large.setKind, Large.setMappingSize,
      Large.setPrev, Large.setNext]
    refine ⟨?_, ?_, fun _ => load_store (by omega), fun a ha hlinks => ?_⟩
    · simp (disch := omega) only [Large.prev, load_store_apart]
      exact load_store (by omega)
    · simp (disch := omega) only [Large.next, load_store_apart]
      exact load_store (by omega)
    · have haway := hlinks trivial
      iterate 4 refine (store_confined a (by omega)).trans ?_
      exact store_confined a (by omega)

theorem PoolShape.addLarge (h : PoolShape s L) (hnew : NewRegion s L p n) (hn : n < 2 ^ 64) :
    PoolShape (s.linkLarge p n) (L.addLarge p n) := by
  have hheader : largeHeaderSize = 32 := rfl
  have hroom := hnew.room
  have hspace := hnew.space
  -- the head of the list is a large region, apart from the new one
  have hhead : s.largeRegions = 0 ∨ s.largeRegions ∈ L.large := by
    cases hl : L.large with
    | nil => exact .inl (hl ▸ h.largeChain : DoubleChain _ _ 0 s.largeRegions [])
    | cons q l =>
      have hchain := h.largeChain
      rw [hl] at hchain
      rw [hchain.1]
      exact .inr List.mem_cons_self
  have haway : ∀ {q k}, L.Region q k → p + n ≤ q ∨ q + k ≤ p := fun hq => hnew.apart _ _ hq
  have hheads : s.largeRegions = 0 ∨ s.largeRegions + largeHeaderSize ≤ p ∨
      p + largeHeaderSize ≤ s.largeRegions := by
    obtain hzero | hmem := hhead
    · exact .inl hzero
    · have hlen := (h.largeOk _ hmem).room
      have := haway (.large hmem)
      omega
  have hfirst : s.largeRegions < 2 ^ 64 := by
    obtain hzero | hmem := hhead
    · omega
    · have := (h.inSpace _ _ (.large hmem)).2.2
      have hlen := (h.largeOk _ hmem).room
      omega
  have hp : p ∉ L.large := fun hmem => hnew.ne h (.large hmem) rfl
  obtain ⟨hkind, hsize⟩ := s.linkLarge_header hn hheads
  obtain ⟨hprev, hnext, hback, hsame⟩ := s.linkLarge_links (n := n) (by omega) hfirst hheads
  -- the only other byte range written is the link back of the old head
  have hkeep : ∀ {q k b c}, L.Region q k → q ≤ b → b + c ≤ q + k →
      (q = s.largeRegions → b + c ≤ q + 16 ∨ q + 24 ≤ b) →
      SameOn s.memory (s.linkLarge p n).memory b c := by
    intro q k b c hq hb hc hlink a hle hlt
    have hapart := haway hq
    refine hsame a (by omega) fun hne => ?_
    obtain hzero | hmem := hhead
    · exact absurd hzero hne
    · by_cases heq : q = s.largeRegions
      · have := hlink heq
        omega
      · have hlen := (h.largeOk _ hmem).room
        have := h.apart _ _ _ _ hq (.large hmem) heq
        omega
  have hslab : ∀ j < blockSizes.length, ∀ q ∈ L.slabs j,
      SameOn s.memory (s.linkLarge p n).memory q slabSize := by
    intro j hj q hq
    refine hkeep (.slab hj hq) le_rfl le_rfl fun heq => ?_
    obtain hzero | hmem := hhead
    · exact absurd (heq.trans hzero) (h.inSpace q _ (.slab hj hq)).2.1
    · exact absurd (heq ▸ hmem) (h.not_large hj hq)
  refine ⟨fun j hj => ?_, fun j hj q hq => ?_, ?_, fun q hq => ?_, fun q k hq => ?_,
    fun q k hq => ?_, fun q k r l hq hr hne => ?_⟩
  · exact (h.chains j hj).congr fun q hq => SameOn.field (hslab j hj q hq) (by decide)
  · exact (h.slabOk j hj q hq).congr (blockSizeOf_fits j hj) (hslab j hj q hq)
  · refine DoubleChain.push h.largeChain hnew.positive hnext hprev (fun q hq => ?_) fun q hq => ?_
    · have hlen := (h.largeOk q hq).room
      exact (hkeep (.large hq) (by omega) (by omega) fun _ => .inr le_rfl).load
    · by_cases heq : q = s.largeRegions
      · rw [if_pos heq, heq]
        exact hback (heq ▸ (h.inSpace q _ (.large hq)).2.1)
      · rw [if_neg heq]
        have hlen := (h.largeOk q hq).room
        exact (hkeep (.large hq) (by omega) (by omega) fun heq' => absurd heq' heq).load
  · obtain rfl | hold := List.mem_cons.mp hq
    · have hlength : (L.addLarge q n).length q = n := Function.update_self ..
      rw [hlength]
      exact ⟨hkind, hsize, hroom⟩
    · have hne : q ≠ p := fun heq => hp (heq ▸ hold)
      have hlength : (L.addLarge p n).length q = L.length q := Function.update_of_ne hne ..
      have hok := h.largeOk q hold
      have hlen := hok.room
      rw [hlength]
      refine ⟨?_, ?_, hok.room⟩
      · exact (hkeep (.large hold) le_rfl (by omega) fun _ => .inl (by omega)).load.trans hok.kind
      · exact (hkeep (.large hold) (by omega) (by omega) fun _ => .inl (by omega)).load.trans
          hok.mappingSize
  · obtain ⟨rfl, rfl⟩ | hold := Layout.region_addLarge hq hp
    · exact ⟨hnew.aligned, hnew.positive, hnew.space⟩
    · exact h.inSpace q k hold
  · obtain ⟨rfl, rfl⟩ | hold := Layout.region_addLarge hq hp
    · exact hnew.mapped
    · exact h.mapped q k hold
  · exact hnew.apart_of h (Layout.region_addLarge hq hp) (Layout.region_addLarge hr hp) hne

/-! ## Regions given back -/

theorem Allocator.joinLarge_spec (s : Allocator) {before after forward back : Nat}
    (hforward : forward < 2 ^ 64) (hback : back < 2 ^ 64)
    (happ : before = 0 ∨ after = 0 ∨ before + largeHeaderSize ≤ after ∨
      after + largeHeaderSize ≤ before) :
    (before ≠ 0 → Large.next (s.joinLarge before after forward back).memory before = forward) ∧
      (after ≠ 0 → Large.prev (s.joinLarge before after forward back).memory after = back) ∧
      (s.joinLarge before after forward back).largeRegions =
        (if before = 0 then forward else s.largeRegions) ∧
      (s.joinLarge before after forward back).slabs = s.slabs ∧
      (s.joinLarge before after forward back).mapped = s.mapped ∧
      ∀ a, (before ≠ 0 → a < before + 24 ∨ before + 32 ≤ a) →
        (after ≠ 0 → a < after + 16 ∨ after + 24 ≤ a) →
        (s.joinLarge before after forward back).memory a = s.memory a := by
  have hheader : largeHeaderSize = 32 := rfl
  unfold Allocator.joinLarge
  by_cases hb : before = 0
  · by_cases ha : after = 0
    · simp only [hb, ha, ne_eq, not_true_eq_false, if_false, if_true, false_implies,
        implies_true, and_self]
    · simp only [hb, ha, ne_eq, not_true_eq_false, not_false_eq_true, if_false, if_true,
        false_implies, true_implies, true_and]
      exact ⟨load_store (by omega), fun a h => store_confined a (by omega)⟩
  · by_cases ha : after = 0
    · simp only [hb, ha, ne_eq, not_true_eq_false, not_false_eq_true, if_false, if_true,
        false_implies, true_implies, true_and]
      exact ⟨load_store (by omega), fun a h => store_confined a (by omega)⟩
    · simp only [hb, ha, ne_eq, not_false_eq_true, if_false, if_true, true_implies, true_and]
      refine ⟨?_, load_store (by omega), fun a h h' => ?_⟩
      · rw [Large.next, Large.setPrev, load_store_apart (by omega)]
        exact load_store (by omega)
      · exact (store_confined a (by omega)).trans (store_confined a (by omega))

def Layout.removeLarge (L : Layout) (p : Nat) : Layout := { L with large := L.large.erase p }

theorem Layout.region_removeLarge (h : (L.removeLarge p).Region q k) (hnodup : L.large.Nodup)
    (hslab : ∀ i < blockSizes.length, p ∉ L.slabs i) : q ≠ p ∧ L.Region q k := by
  cases h with
  | slab hj hq => exact ⟨fun heq => hslab _ hj (heq ▸ hq), .slab hj hq⟩
  | large hq =>
    have hmem := (hnodup.mem_erase_iff).mp hq
    exact ⟨hmem.1, .large hmem.2⟩

theorem PoolShape.removeLarge (h : PoolShape s L) (hp : p ∈ L.large) :
    PoolShape ((s.joinLarge (Large.prev s.memory p) (Large.next s.memory p) (Large.next s.memory p)
      (Large.prev s.memory p)).unmapRange p (L.length p)) (L.removeLarge p) := by
  have hheader : largeHeaderSize = 32 := rfl
  have hnodup : L.large.Nodup := h.largeChain.chain.nodup
  obtain ⟨x, y, hxy⟩ := List.append_of_mem hp
  have hchain := h.largeChain
  rw [hxy] at hchain hnodup
  have herase : L.large.erase p = x ++ y := by
    rw [hxy, List.erase_append_right _ (fun hx => ?_), List.erase_cons_head]
    exact (List.disjoint_of_nodup_append hnodup hx) List.mem_cons_self
  have hslabs : ∀ i < blockSizes.length, p ∉ L.slabs i := fun i hi hmem => h.not_large hi hmem hp
  have hmem : ∀ {q}, q ∈ x ∨ q ∈ y → q ∈ L.large := by
    rintro q (hq | hq)
    · exact hxy ▸ List.mem_append_left _ hq
    · exact hxy ▸ List.mem_append_right _ (List.mem_cons_of_mem _ hq)
  have hnext : ∀ q ∈ L.large, q ≠ 0 ∧ q < 2 ^ 64 := by
    intro q hq
    have hspace := h.inSpace q _ (.large hq)
    have hlen := (h.largeOk q hq).room
    omega
  generalize hb : Large.prev s.memory p = before
  generalize ha : Large.next s.memory p = after
  -- the neighbours are large regions or missing
  have hbefore : x = [] ∧ before = 0 ∨ before ∈ x := hb ▸ hchain.prev_eq
  have hafter : y = [] ∧ after = 0 ∨ after ∈ y := by
    obtain ⟨hy, hzero⟩ | ⟨z, hy⟩ := hchain.next_eq
    · exact .inl ⟨hy, ha ▸ hzero⟩
    · rw [hy, ha]
      exact .inr List.mem_cons_self
  have hbeforeMem : before ≠ 0 → before ∈ L.large := fun hne =>
    hbefore.elim (fun hz => absurd hz.2 hne) fun hx => hmem (.inl hx)
  have hafterMem : after ≠ 0 → after ∈ L.large := fun hne =>
    hafter.elim (fun hz => absurd hz.2 hne) fun hy => hmem (.inr hy)
  have hne : before = 0 ∨ after = 0 ∨ before ≠ after := by
    obtain ⟨-, hzero⟩ | hx := hbefore
    · exact .inl hzero
    · obtain ⟨-, hzero⟩ | hy := hafter
      · exact .inr (.inl hzero)
      · refine .inr (.inr fun heq => ?_)
        exact List.disjoint_of_nodup_append hnodup hx (List.mem_cons_of_mem _ (heq ▸ hy))
  have happ : before = 0 ∨ after = 0 ∨ before + largeHeaderSize ≤ after ∨
      after + largeHeaderSize ≤ before := by
    by_cases hb0 : before = 0
    · exact .inl hb0
    · by_cases ha0 : after = 0
      · exact .inr (.inl ha0)
      · have hbm := hbeforeMem hb0
        have ham := hafterMem ha0
        have hblen := (h.largeOk _ hbm).room
        have halen := (h.largeOk _ ham).room
        have := h.apart _ _ _ _ (.large hbm) (.large ham) (by omega)
        omega
  have hlt : ∀ q, (q ≠ 0 → q ∈ L.large) → q < 2 ^ 64 := by
    intro q hq
    by_cases hq0 : q = 0
    · omega
    · exact (hnext q (hq hq0)).2
  obtain ⟨hforward, hback, hfirst, hslab', hmapped', hsame⟩ :=
    s.joinLarge_spec (hlt after hafterMem) (hlt before hbeforeMem) happ
  generalize s.joinLarge before after after before = t at hforward hback hfirst hslab' hmapped' hsame
  have hkeep : ∀ {q k b c}, L.Region q k → q ≤ b → b + c ≤ q + k →
      (q = before → b + c ≤ q + 24 ∨ q + 32 ≤ b) → (q = after → b + c ≤ q + 16 ∨ q + 24 ≤ b) →
      SameOn s.memory t.memory b c := by
    intro q k b c hq hqb hbc hforw hbackw a hle hlt
    refine hsame a (fun hb0 => ?_) fun ha0 => ?_
    · by_cases heq : q = before
      · have := hforw heq
        omega
      · have hlen := (h.largeOk _ (hbeforeMem hb0)).room
        have := h.apart _ _ _ _ hq (.large (hbeforeMem hb0)) heq
        omega
    · by_cases heq : q = after
      · have := hbackw heq
        omega
      · have hlen := (h.largeOk _ (hafterMem ha0)).room
        have := h.apart _ _ _ _ hq (.large (hafterMem ha0)) heq
        omega
  have hslab : ∀ j < blockSizes.length, ∀ q ∈ L.slabs j, SameOn s.memory t.memory q slabSize := by
    intro j hj q hq
    have hq0 := (h.inSpace q _ (.slab hj hq)).2.1
    refine hkeep (.slab hj hq) le_rfl le_rfl (fun heq => ?_) fun heq => ?_
    · exact absurd (heq ▸ hbeforeMem (heq ▸ hq0)) (h.not_large hj hq)
    · exact absurd (heq ▸ hafterMem (heq ▸ hq0)) (h.not_large hj hq)
  have hregion : ∀ {q k}, (L.removeLarge p).Region q k → q ≠ p ∧ L.Region q k := fun hq =>
    Layout.region_removeLarge hq (hxy ▸ hnodup) hslabs
  refine ⟨fun j hj => ?_, fun j hj q hq => ?_, ?_, fun q hq => ?_, fun q k hq => ?_,
    fun q k hq b hle hlt => ?_, fun q k r l hq hr hqr => ?_⟩
  · change Chain (Slab.next t.memory) (t.slabs j) (L.slabs j)
    rw [hslab']
    exact (h.chains j hj).congr fun q hq => SameOn.field (hslab j hj q hq) (by decide)
  · exact (h.slabOk j hj q hq).congr (blockSizeOf_fits j hj) (hslab j hj q hq)
  · change DoubleChain (Large.next t.memory) (Large.prev t.memory) 0 t.largeRegions (L.large.erase p)
    have hhead : t.largeRegions = if x = [] then Large.next s.memory p else s.largeRegions := by
      rw [hfirst, ha]
      obtain ⟨hx, hzero⟩ | hx := hbefore
      · rw [if_pos hzero, if_pos hx]
      · rw [if_neg (hnext before (hmem (.inl hx))).1, if_neg (List.ne_nil_of_mem hx)]
    rw [herase, hhead]
    refine hchain.remove hnodup (fun hz => hchain.chain.ne_zero hz rfl) (fun q hq => ?_) fun q hq => ?_
    · have hql := hmem (List.mem_append.mp hq)
      have hlen := (h.largeOk q hql).room
      rw [hb, ha]
      by_cases heq : q = before
      · rw [if_pos heq, heq]
        exact hforward (heq ▸ (hnext q hql).1)
      · rw [if_neg heq]
        exact (hkeep (.large hql) (by omega) (by omega) (fun h' => absurd h' heq)
          fun _ => .inr le_rfl).load
    · have hql := hmem (List.mem_append.mp hq)
      have hlen := (h.largeOk q hql).room
      rw [hb, ha]
      by_cases heq : q = after
      · rw [if_pos heq, heq]
        exact hback (heq ▸ (hnext q hql).1)
      · rw [if_neg heq]
        exact (hkeep (.large hql) (by omega) (by omega) (fun _ => .inl (by omega))
          fun h' => absurd h' heq).load
  · have hql : q ∈ L.large := List.mem_of_mem_erase hq
    have hok := h.largeOk q hql
    have hlen := hok.room
    refine ⟨?_, ?_, hok.room⟩
    · exact (hkeep (.large hql) le_rfl (by omega) (fun _ => .inl (by omega))
        fun _ => .inl (by omega)).load.trans hok.kind
    · exact (hkeep (.large hql) (by omega) (by omega) (fun _ => .inl (by omega))
        fun _ => .inl (by omega)).load.trans hok.mappingSize
  · exact h.inSpace q k (hregion hq).2
  · obtain ⟨hqp, hold⟩ := hregion hq
    have hapart := h.apart q k p _ hold (.large hp) hqp
    have hout : ¬(p ≤ b ∧ b < p + L.length p) := by omega
    simp only [Allocator.unmapRange, hmapped', decide_eq_false hout, Bool.not_false, Bool.and_true]
    exact h.mapped q k hold b hle hlt
  · exact h.apart q k r l (hregion hq).2 (hregion hr).2 hqr

def Layout.dropSlab (L : Layout) (i : Nat) : Layout :=
  { L with slabs := Function.update L.slabs i (L.slabs i).tail }

theorem Layout.mem_dropSlab (h : q ∈ (L.dropSlab i).slabs j) : q ∈ L.slabs j := by
  unfold Layout.dropSlab at h
  by_cases hj : j = i
  · subst hj
    simp only [Function.update_self] at h
    exact List.mem_of_mem_tail h
  · simpa only [Function.update_of_ne hj] using h

theorem Layout.region_dropSlab (h : (L.dropSlab i).Region q k) : L.Region q k := by
  cases h with
  | slab hj hq => exact .slab hj (Layout.mem_dropSlab hq)
  | large hq => exact .large hq

theorem PoolShape.dropSlab (h : PoolShape s L) (hi : i < blockSizes.length) (hhead : s.slabs i ≠ 0) :
    PoolShape { s.unmapRange (s.slabs i) slabSize with
      slabs := Function.update s.slabs i (Slab.next s.memory (s.slabs i)) } (L.dropSlab i) := by
  have hchain := h.chains i hi
  obtain ⟨p, rest, hlist⟩ : ∃ p rest, L.slabs i = p :: rest :=
    List.exists_cons_of_ne_nil fun hnil => hhead (hchain.eq_nil_iff.mpr hnil)
  rw [hlist] at hchain
  obtain ⟨hp, -, hrest⟩ := hchain
  have hfresh : p ∉ rest := (List.nodup_cons.mp (hlist ▸ (h.chains i hi).nodup)).1
  have hother : ∀ {q k}, (L.dropSlab i).Region q k → q ≠ p := by
    rintro q k hq rfl
    cases hq with
    | slab hj hq =>
      obtain rfl := h.class_unique hi hj (hlist ▸ List.mem_cons_self) (Layout.mem_dropSlab hq)
      simp only [Layout.dropSlab, Function.update_self, hlist, List.tail_cons] at hq
      exact hfresh hq
    | large hq => exact h.not_large hi (hlist ▸ List.mem_cons_self) hq
  refine ⟨fun j hj => ?_, fun j hj q hq => ?_, h.largeChain, h.largeOk, fun q k hq => ?_,
    fun q k hq b hle hlt => ?_, fun q k r l hq hr hqr => ?_⟩
  · change Chain (Slab.next s.memory) (Function.update s.slabs i (Slab.next s.memory (s.slabs i)) j)
      (Function.update L.slabs i (L.slabs i).tail j)
    by_cases heq : j = i
    · subst heq
      rw [Function.update_self, Function.update_self, hlist, hp]
      exact hrest
    · rw [Function.update_of_ne heq, Function.update_of_ne heq]
      exact h.chains j hj
  · exact h.slabOk j hj q (Layout.mem_dropSlab hq)
  · exact h.inSpace q k (Layout.region_dropSlab hq)
  · have hapart := h.apart q k p _ (Layout.region_dropSlab hq)
      (.slab hi (hlist ▸ List.mem_cons_self)) (hother hq)
    have hout : ¬(s.slabs i ≤ b ∧ b < s.slabs i + slabSize) := by omega
    simp only [Allocator.unmapRange, decide_eq_false hout, Bool.not_false, Bool.and_true]
    exact h.mapped q k (Layout.region_dropSlab hq) b hle hlt
  · exact h.apart q k r l (Layout.region_dropSlab hq) (Layout.region_dropSlab hr) hqr

end

end KvStore
