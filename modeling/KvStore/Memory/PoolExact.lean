import KvStore.Memory.PoolWorld

/-!
# What the pool knows is exact

For every world that calls can lead to: where the held blocks lie, what the
memory of a slab says about its blocks, what the counters report, and when the
calls of the interface succeed. All of it is read from the memory of the world;
the layout of the proofs does not occur.
-/

namespace KvStore

open Lib

def Object.Apart (o : Object) (a n : Nat) : Prop := o.ptr + o.size ≤ a ∨ a + n ≤ o.ptr

def World.heldIn (w : World) (p : Nat) : List Object :=
  w.live.filter fun o => decide (p ≤ o.ptr ∧ o.ptr < p + slabSize)

def Slab.blocks (m : Memory) (p : Nat) : List Nat :=
  (List.range (Slab.capacity m p)).map fun k => Slab.data m p + k * Slab.blockSize m p

/-- The slab at `p`, whose free list passes the addresses `free`. -/
structure World.SlabExact (w : World) (p : Nat) (free : List Nat) : Prop where
  chain : Chain (load 8 w.alloc.memory) (Slab.freeList w.alloc.memory p) free
  nodup : free.Nodup
  partition : (free ++ (w.heldIn p).map Object.ptr).Perm (Slab.blocks w.alloc.memory p)
  blocks : (Slab.blocks w.alloc.memory p).Nodup
  bits : ∀ k < Slab.capacity w.alloc.memory p,
    bitAt w.alloc.memory (Slab.bitmap w.alloc.memory p) k = true ↔
      Slab.data w.alloc.memory p + k * Slab.blockSize w.alloc.memory p ∈ w.live.map Object.ptr
  usedCount : Slab.usedCount w.alloc.memory p = (w.heldIn p).length
  header : ∀ o ∈ w.live, o.Apart p slabHeaderSize
  bitmap : ∀ o ∈ w.live, o.Apart (Slab.bitmap w.alloc.memory p)
    (bitmapBytes (Slab.blockSize w.alloc.memory p))
  free : ∀ o ∈ w.live, ∀ a ∈ free, o.Apart a (Slab.blockSize w.alloc.memory p)

section
variable {w : World} {L : Layout} {s : Allocator} {os : Os} {o : Object} {p q n a i k : Nat}

/-! ## Apart from the pool's own bytes -/

theorem World.Inv.apart_reserved (h : w.Inv L) (ho : o ∈ w.live) (hpos : 0 < n)
    (hown : ∀ b, a ≤ b → b < a + n → L.Reserved b) : o.Apart a n := by
  have hheld := (h.held o ho).1
  have hsize := h.shape.holds_pos hheld
  by_contra hover
  unfold Object.Apart at hover
  -- the later of the two starts is in both ranges
  have hmeet := h.shape.holds_reserved hheld (hown (max a o.ptr) (by omega) (by omega))
  omega

theorem World.Inv.disjoint (h : w.Inv L) : w.live.Pairwise fun o o' => o.Apart o'.ptr o'.size := by
  refine h.nodup.of_map _ |>.pairwise_of_forall_ne fun o ho o' ho' hne => ?_
  exact h.shape.holds_apart (h.held o ho).1 (h.held o' ho').1 fun hptr =>
    hne (h.eq_of_ptr ho ho' hptr)

/-! ## One slab -/

theorem bitmapBytes_pos : ∀ i < blockSizes.length, 0 < bitmapBytes (blockSizeOf i) := by decide

theorem blockAt_injective {slab bs : Nat} (hpos : 0 < bs) :
    Function.Injective (blockAt slab bs) := by
  intro k l heq
  unfold blockAt at heq
  exact Nat.eq_of_mul_eq_mul_right hpos (by omega)

theorem SlabOk.blocks_eq {m : Memory} {bs : Nat} {free : List Nat} (h : SlabOk m p bs free) :
    Slab.blocks m p = (List.range (slabCapacity bs)).map (blockAt p bs) := by
  unfold Slab.blocks
  rw [h.capacity, h.data, h.blockSize]
  rfl

def Layout.usedBlocks (L : Layout) (i p : Nat) : List Nat :=
  ((List.range (slabCapacity (blockSizeOf i))).filter fun k => decide (k ∉ L.free p)).map
    (blockAt p (blockSizeOf i))

theorem Layout.mem_usedBlocks : a ∈ L.usedBlocks i p ↔
    ∃ k < slabCapacity (blockSizeOf i), k ∉ L.free p ∧ a = blockAt p (blockSizeOf i) k := by
  unfold Layout.usedBlocks
  constructor
  · intro ha
    obtain ⟨k, hk, rfl⟩ := List.mem_map.mp ha
    obtain ⟨hrange, hused⟩ := List.mem_filter.mp hk
    exact ⟨k, List.mem_range.mp hrange, of_decide_eq_true hused, rfl⟩
  · rintro ⟨k, hk, hused, rfl⟩
    exact List.mem_map_of_mem (List.mem_filter.mpr ⟨List.mem_range.mpr hk, decide_eq_true hused⟩)

theorem World.Inv.mem_heldIn (h : w.Inv L) (hi : i < blockSizes.length) (hp : p ∈ L.slabs i) :
    a ∈ (w.heldIn p).map Object.ptr ↔
      ∃ k < slabCapacity (blockSizeOf i), k ∉ L.free p ∧ a = blockAt p (blockSizeOf i) k := by
  constructor
  · intro ha
    obtain ⟨o, ho, rfl⟩ := List.mem_map.mp ha
    obtain ⟨hlive, hin⟩ := List.mem_filter.mp ho
    obtain ⟨hle, hlt⟩ := of_decide_eq_true hin
    obtain ⟨k, hk, hused, hptr, -⟩ := h.block_of_mem hi hp hlive hle hlt
    exact ⟨k, hk, hused, hptr⟩
  · rintro ⟨k, hk, hused, rfl⟩
    obtain ⟨o, ho, hptr⟩ := List.mem_map.mp ((h.live_block hi hp hk).mpr hused)
    have hat := (blockSizeOf_fits i hi).blockAt_le p hk
    have hbs := (blockSizeOf_fits i hi).large
    refine List.mem_map.mpr ⟨o, List.mem_filter.mpr ⟨ho, decide_eq_true ?_⟩, hptr⟩
    rw [hptr]
    omega

/-- The held blocks of a slab are the ones that are not on its free list. -/
theorem World.Inv.heldIn_perm (h : w.Inv L) (hi : i < blockSizes.length) (hp : p ∈ L.slabs i) :
    ((w.heldIn p).map Object.ptr).Perm (L.usedBlocks i p) := by
  have hbs := (blockSizeOf_fits i hi).large
  have hnodup : ((w.heldIn p).map Object.ptr).Nodup :=
    h.nodup.sublist (List.filter_sublist.map _)
  have hused : (L.usedBlocks i p).Nodup :=
    (List.nodup_range.filter _).map (blockAt_injective (by omega))
  refine (List.perm_ext_iff_of_nodup hnodup hused).mpr fun a => ?_
  rw [h.mem_heldIn hi hp, Layout.mem_usedBlocks]

theorem World.Inv.heldIn_length (h : w.Inv L) (hi : i < blockSizes.length) (hp : p ∈ L.slabs i) :
    (w.heldIn p).length = Slab.usedCount w.alloc.memory p := by
  have hperm := (h.heldIn_perm hi hp).length_eq
  rw [List.length_map, Layout.usedBlocks, List.length_map] at hperm
  rw [hperm, (h.shape.slabOk i hi p hp).usedCount_eq]

theorem World.Inv.partition (h : w.Inv L) (hi : i < blockSizes.length) (hp : p ∈ L.slabs i) :
    ((L.free p).map (blockAt p (blockSizeOf i)) ++ (w.heldIn p).map Object.ptr).Perm
      (Slab.blocks w.alloc.memory p) := by
  have hok := h.shape.slabOk i hi p hp
  have hfree : ((List.range (slabCapacity (blockSizeOf i))).filter fun k =>
      decide (k ∈ L.free p)).Perm (L.free p) := by
    refine (List.perm_ext_iff_of_nodup (List.nodup_range.filter _) hok.nodup).mpr fun k => ?_
    rw [List.mem_filter, List.mem_range, decide_eq_true_iff]
    exact ⟨fun hk => hk.2, fun hk => ⟨hok.bounded k hk, hk⟩⟩
  have hnot : (fun k => decide (k ∉ L.free p)) = fun k => !decide (k ∈ L.free p) := by
    funext k
    exact decide_not
  rw [hok.blocks_eq]
  refine ((hfree.symm.map _).append (h.heldIn_perm hi hp)).trans ?_
  rw [Layout.usedBlocks, ← List.map_append, hnot]
  exact (List.filter_append_perm ..).map _

theorem World.Inv.slabExact (h : w.Inv L) (hi : i < blockSizes.length) (hp : p ∈ L.slabs i) :
    w.SlabExact p ((L.free p).map (blockAt p (blockSizeOf i))) := by
  have hok := h.shape.slabOk i hi p hp
  have hfit := blockSizeOf_fits i hi
  have hbs := hfit.large
  have hinj := @blockAt_injective p (blockSizeOf i) (by omega)
  refine ⟨hok.chain, hok.nodup.map hinj, h.partition hi hp, ?_, fun k hk => ?_,
    (h.heldIn_length hi hp).symm, fun o ho => ?_, fun o ho => ?_, fun o ho a ha => ?_⟩
  · rw [hok.blocks_eq]
    exact List.nodup_range.map hinj
  · rw [hok.capacity] at hk
    rw [hok.bitmap, hok.data, hok.blockSize, hok.bits k hk, decide_eq_true_iff]
    exact (h.live_block hi hp hk).symm
  · exact h.apart_reserved ho (by decide) fun b hle hlt => .header hi hp hle (by omega)
  · rw [hok.bitmap, hok.blockSize]
    exact h.apart_reserved ho (bitmapBytes_pos i hi) fun b hle hlt => .header hi hp (by omega) (by omega)
  · obtain ⟨k, hk, rfl⟩ := List.mem_map.mp ha
    rw [hok.blockSize]
    exact h.apart_reserved ho (by omega) fun b hle hlt => .free hi hp hk hle hlt

/-! ## The number of blocks -/

def Layout.held (L : Layout) : List Nat :=
  (sizeClasses.flatMap fun i => (L.slabs i).flatMap (L.usedBlocks i)) ++
    L.large.map (· + largeHeaderSize)

theorem Layout.mem_held : a ∈ L.held ↔ ∃ n, L.Holds a n := by
  unfold Layout.held
  rw [List.mem_append, List.mem_flatMap, List.mem_map]
  constructor
  · rintro (⟨i, hi, hslabs⟩ | ⟨p, hp, rfl⟩)
    · obtain ⟨p, hp, hblock⟩ := List.mem_flatMap.mp hslabs
      obtain ⟨k, hk, hused, rfl⟩ := Layout.mem_usedBlocks.mp hblock
      exact ⟨_, .small (mem_sizeClasses.mp hi) hp hk hused⟩
    · exact ⟨_, .large hp⟩
  · rintro ⟨n, hholds⟩
    cases hholds with
    | @small i p k hi hp hk hused =>
      exact .inl ⟨i, mem_sizeClasses.mpr hi, List.mem_flatMap.mpr
        ⟨p, hp, Layout.mem_usedBlocks.mpr ⟨k, hk, hused, rfl⟩⟩⟩
    | @large p hp => exact .inr ⟨p, hp, rfl⟩

theorem PoolShape.start_used (h : PoolShape s L) (hi : i < blockSizes.length) (hp : p ∈ L.slabs i)
    (ha : a ∈ L.usedBlocks i p) : regionStart a = p := by
  obtain ⟨k, hk, -, rfl⟩ := Layout.mem_usedBlocks.mp ha
  exact h.start_block hi hp hk

theorem PoolShape.held_nodup (h : PoolShape s L) : L.held.Nodup := by
  have hclass : ∀ {i a}, i ∈ sizeClasses → a ∈ (L.slabs i).flatMap (L.usedBlocks i) →
      regionStart a ∈ L.slabs i := by
    intro i a hi ha
    obtain ⟨p, hp, hblock⟩ := List.mem_flatMap.mp ha
    rw [h.start_used (mem_sizeClasses.mp hi) hp hblock]
    exact hp
  refine List.Nodup.append (List.nodup_flatMap.mpr ⟨fun i hi => ?_, ?_⟩) ?_ ?_
  · have hi := mem_sizeClasses.mp hi
    have hbs := (blockSizeOf_fits i hi).large
    refine List.nodup_flatMap.mpr ⟨fun p _ => ?_, ?_⟩
    · exact (List.nodup_range.filter _).map (blockAt_injective (by omega))
    · refine (h.chains i hi).nodup.imp_of_mem fun {p q} hp hq hne a ha ha' => hne ?_
      rw [← h.start_used hi hp ha, h.start_used hi hq ha']
  · refine (List.nodup_range (n := blockSizes.length)).imp_of_mem fun {i j} hi hj hne a ha ha' => ?_
    exact hne (h.class_unique (mem_sizeClasses.mp hi) (mem_sizeClasses.mp hj) (hclass hi ha)
      (hclass hj ha'))
  · exact h.largeChain.chain.nodup.map (add_left_injective _)
  · intro a ha ha'
    obtain ⟨i, hi, hslabs⟩ := List.mem_flatMap.mp ha
    obtain ⟨p, hp, rfl⟩ := List.mem_map.mp ha'
    have hslab := hclass hi hslabs
    rw [h.start_large hp] at hslab
    exact h.not_large (mem_sizeClasses.mp hi) hslab hp

theorem World.Inv.live_perm (h : w.Inv L) : (w.live.map Object.ptr).Perm L.held := by
  refine (List.perm_ext_iff_of_nodup h.nodup h.shape.held_nodup).mpr fun a => ?_
  rw [Layout.mem_held]
  constructor
  · intro ha
    obtain ⟨o, ho, rfl⟩ := List.mem_map.mp ha
    exact ⟨o.size, (h.held o ho).1⟩
  · rintro ⟨n, hholds⟩
    obtain ⟨o, ho, rfl⟩ := h.live a n hholds
    exact List.mem_map_of_mem ho

theorem PoolShape.held_length (h : PoolShape s L) :
    L.held.length = (sizeClasses.map fun i => ((L.slabs i).map (Slab.usedCount s.memory)).sum).sum +
      L.large.length := by
  have hslab : ∀ i ∈ sizeClasses, ((L.slabs i).flatMap (L.usedBlocks i)).length =
      ((L.slabs i).map (Slab.usedCount s.memory)).sum := by
    intro i hi
    rw [List.length_flatMap]
    congr 1
    refine List.map_congr_left fun p hp => ?_
    rw [(h.slabOk i (mem_sizeClasses.mp hi) p hp).usedCount_eq, Layout.usedBlocks, List.length_map]
  unfold Layout.held
  rw [List.length_append, List.length_map, List.length_flatMap, List.map_congr_left hslab]

theorem PoolShape.addClasses_spec (h : PoolShape s L) (classes : List Nat)
    (hclasses : ∀ i ∈ classes, i < blockSizes.length) {r : PoolStats} (hr : r.liveObjects < 2 ^ 64) :
    ∃ r', classes.foldlM (fun r i => addSlabs s.memory listBound (s.slabs i) r) r = .ok r' ∧
      r'.liveObjects = (r.liveObjects +
        (classes.map fun i => ((L.slabs i).map (Slab.usedCount s.memory)).sum).sum) % 2 ^ 64 := by
  induction classes generalizing r with
  | nil => exact ⟨r, rfl, (Nat.mod_eq_of_lt hr).symm⟩
  | cons i rest ih =>
    have hi := hclasses i List.mem_cons_self
    have hchain := h.chains i hi
    obtain ⟨r₁, heq₁, hlive₁⟩ := addSlabs_spec hchain
      (h.length_lt _ hchain.nodup fun p hp => ⟨_, .slab hi hp⟩) hr
    obtain ⟨r₂, heq₂, hlive₂⟩ := @ih (fun j hj => hclasses j (List.mem_cons_of_mem _ hj)) r₁ (by
      rw [hlive₁]
      exact Nat.mod_lt _ (by decide))
    refine ⟨r₂, ?_, ?_⟩
    · rw [List.foldlM_cons, heq₁]
      exact heq₂
    · rw [hlive₂, hlive₁, Nat.mod_add_mod, List.map_cons, List.sum_cons, Nat.add_assoc]

theorem World.Inv.live_lt (h : w.Inv L) : w.live.length < 2 ^ 64 := by
  have hsub : w.live.map Object.ptr ⊆ List.range' 1 (2 ^ 64 - 1) := by
    intro a ha
    obtain ⟨o, ho, rfl⟩ := List.mem_map.mp ha
    have hheld := (h.held o ho).1
    have hpos := h.shape.holds_pos hheld
    obtain ⟨p, k, hp, -, hle, hend, -⟩ := h.shape.holds_region hheld
    obtain ⟨-, hne, hspace⟩ := h.shape.inSpace p k hp
    rw [List.mem_range'_1]
    omega
  have hle := h.nodup.length_le_of_subset hsub
  rw [List.length_map, List.length_range'] at hle
  omega

theorem World.Inv.stats (h : w.Inv L) (hinit : w.alloc.initialized = true) :
    ∃ r, kvsAllocatorPoolStats w.alloc = .ok (some r) ∧ r.liveObjects = w.live.length := by
  have hlarges := h.shape.largeChain.chain
  obtain ⟨r₁, heq₁, hlive₁⟩ := @PoolShape.addClasses_spec _ _ h.shape sizeClasses
    (fun i hi => mem_sizeClasses.mp hi)
    { liveObjects := 0, slabCount := 0, largeCount := 0, mappedBytes := 0 } (by decide)
  obtain ⟨r₂, heq₂, hlive₂⟩ := @addLarges_spec _ listBound _ _ r₁ hlarges
    (h.shape.length_lt _ hlarges.nodup fun p hp => ⟨_, .large hp⟩) (by
      rw [hlive₁]
      exact Nat.mod_lt _ (by decide))
  refine ⟨r₂, ?_, ?_⟩
  · unfold kvsAllocatorPoolStats
    rw [if_neg (by simp [hinit, h.mode hinit])]
    simp only [heq₁, heq₂, bind, Except.bind]
  · have hcount := h.live_perm.length_eq
    rw [List.length_map, h.shape.held_length] at hcount
    have hlt := h.live_lt
    rw [hlive₂, hlive₁, Nat.mod_add_mod, Nat.zero_add, ← hcount, Nat.mod_eq_of_lt hlt]

/-! ## Every world is exact -/

theorem PoolShape.hasLarge (h : PoolShape s L) (hp : p ∈ L.large) : s.HasLarge p := by
  have hchain : ∀ {l head}, (head ≠ 0 → s.HasLarge head) → Chain (Large.next s.memory) head l →
      ∀ q ∈ l, s.HasLarge q := by
    intro l
    induction l with
    | nil => exact fun _ _ q hq => absurd hq List.not_mem_nil
    | cons a l ih =>
      rintro head hhead ⟨rfl, hne, hrest⟩ q hq
      obtain rfl | hq := List.mem_cons.mp hq
      · exact hhead hne
      · exact ih (fun hnext => .next (hhead hne) hnext) hrest q hq
  exact hchain (fun hne => .head hne) h.largeChain.chain p hp

theorem World.Inv.free_returns (h : w.Inv L) (ho : o ∈ w.live) (os : Os) :
    (∃ s', kvsAllocatorFree os o.ptr w.alloc = .ok s') ∨
      kvsAllocatorFree os o.ptr w.alloc = .error .abort ∧
        ∃ p, w.alloc.HasLarge p ∧ o.ptr = p + largeHeaderSize ∧
          os.munmap p (Large.mappingSize w.alloc.memory p) = false := by
  have hinit := h.initialized_of_mem ho
  obtain ⟨s', -, heq, -⟩ | ⟨habort, p, hp, hptr, hunmap⟩ :=
    kvsAllocatorFree_spec h.shape (h.held o ho).1 hinit (h.mode hinit) os
  · exact .inl ⟨s', heq⟩
  · refine .inr ⟨habort, p, h.shape.hasLarge hp, hptr, ?_⟩
    rw [(h.shape.largeOk p hp).mappingSize, hunmap]

/-- A world of the pool in good order. -/
structure World.Exact (w : World) : Prop where
  disjoint : w.live.Pairwise fun o o' => o.Apart o'.ptr o'.size
  aligned : ∀ o ∈ w.live, o.ptr % maxAlign = 0
  room : ∀ o ∈ w.live, o.requested ≤ o.size
  slabs : ∀ p, w.alloc.HasSlab p → ∃ free, w.SlabExact p free
  larges : ∀ p, w.alloc.HasLarge p → ∀ o ∈ w.live, o.Apart p largeHeaderSize
  alloc : ∀ os : Os, os.InSpace → os.Fresh w.alloc → ∀ size, ∃ ptr s',
    kvsAllocatorAlloc os size w.alloc = .ok (ptr, s')
  free : ∀ os, ∀ o ∈ w.live, (∃ s', kvsAllocatorFree os o.ptr w.alloc = .ok s') ∨
    kvsAllocatorFree os o.ptr w.alloc = .error .abort ∧
      ∃ p, w.alloc.HasLarge p ∧ o.ptr = p + largeHeaderSize ∧
        os.munmap p (Large.mappingSize w.alloc.memory p) = false
  stats : w.alloc.initialized = true →
    ∃ r, kvsAllocatorPoolStats w.alloc = .ok (some r) ∧ r.liveObjects = w.live.length
  destroy : ∀ os : Os, (∀ a n, os.munmap a n = true) → ∃ result s',
    kvsAllocatorDestroy os w.alloc = .ok (result, s') ∧ (result = 0 ↔ w.live = []) ∧
      (w.live ≠ [] → result = -1 ∧ s' = w.alloc)

theorem World.Inv.destroy_exact (h : w.Inv L) (hunmap : ∀ a n, os.munmap a n = true) :
    ∃ result s', kvsAllocatorDestroy os w.alloc = .ok (result, s') ∧
      (result = 0 ↔ w.live = []) ∧ (w.live ≠ [] → result = -1 ∧ s' = w.alloc) := by
  obtain ⟨result, s', heq, -, ⟨hzero, hnil⟩ | ⟨hneg, hlive, hsame⟩ | ⟨-, -, p, hfail⟩⟩ := h.destroy os
  · exact ⟨result, s', heq, ⟨fun _ => hnil, fun _ => hzero⟩, fun hlive => absurd hnil hlive⟩
  · refine ⟨result, s', heq, ⟨fun hzero => ?_, fun hnil => absurd hnil hlive⟩, fun _ => ⟨hneg, hsame⟩⟩
    rw [hneg] at hzero
    cases hzero
  · rw [hunmap] at hfail
    cases hfail

/-- Whatever the clients do with the pool and the system answers, the pool stays
in good order. -/
theorem pool_exact (h : w.Reachable) : w.Exact := by
  obtain ⟨L, hinv⟩ := h.inv
  refine ⟨hinv.disjoint, fun o ho => ?_, fun o ho => (hinv.held o ho).2, fun p hp => ?_,
    fun p hp o ho => ?_, fun os hos hfresh size => ?_, fun os o ho => hinv.free_returns ho os,
    hinv.stats, fun os hunmap => hinv.destroy_exact hunmap⟩
  · obtain ⟨p, k, -, -, -, -, haligned⟩ := hinv.shape.holds_region (hinv.held o ho).1
    exact haligned
  · obtain ⟨i, hi, hmem⟩ := hinv.shape.mem_of_hasSlab hp
    exact ⟨_, hinv.slabExact hi hmem⟩
  · have hmem := hinv.shape.mem_of_hasLarge hp
    exact hinv.apart_reserved ho (by decide) fun b hle hlt => .large hmem hle hlt
  · obtain ⟨ptr, s', -, heq, -⟩ := kvsAllocatorAlloc_spec hinv.shape hos hfresh hinv.mode size
    exact ⟨ptr, s', heq⟩

def largeWorld : World :=
  let r := (poolAllocLarge plainOs 100000
    (kvsAllocatorInit .pool (.start (fun _ => 0) fun _ => false)).2).value
  ⟨r.2, [⟨r.1, 100000, r.2.blockRoom r.1⟩]⟩

theorem largeWorld_reachable : largeWorld.Reachable := by
  have hinit : World.Reachable
      ⟨(kvsAllocatorInit .pool (.start (fun _ => 0) fun _ => false)).2, []⟩ :=
    .step (.start _ _) (.init _)
  have hne : (poolAllocLarge plainOs 100000
      (kvsAllocatorInit .pool (.start (fun _ => 0) fun _ => false)).2).value.1 ≠ 0 := by
    decide +kernel
  have hstep := World.Step.alloc
    ⟨(kvsAllocatorInit .pool (.start (fun _ => 0) fun _ => false)).2, []⟩ plainOs 100000
    (poolAllocLarge plainOs 100000
      (kvsAllocatorInit .pool (.start (fun _ => 0) fun _ => false)).2).value.1
    (poolAllocLarge plainOs 100000
      (kvsAllocatorInit .pool (.start (fun _ => 0) fun _ => false)).2).value.2
    plainOs_inSpace (fun _ _ _ _ _ _ => rfl) rfl
  rw [if_neg hne] at hstep
  exact .step hinit hstep

def World.request (w : World) (os : Os) (size : Nat) : World :=
  match kvsAllocatorAlloc os size w.alloc with
  | .ok (ptr, s') => ⟨s', if ptr = 0 then w.live else ⟨ptr, size, s'.blockRoom ptr⟩ :: w.live⟩
  | .error _ => w

def World.release (w : World) (os : Os) (i : Nat) : World :=
  match w.live[i]? with
  | none => w
  | some o =>
    match kvsAllocatorFree os o.ptr w.alloc with
    | .ok s' => ⟨s', w.live.erase o⟩
    | .error _ => w

theorem World.Reachable.request (h : w.Reachable) (hos : os.InSpace) (hfresh : os.Fresh w.alloc)
    (size : Nat) : (w.request os size).Reachable := by
  unfold World.request
  split
  · rename_i hstep
    exact .step h (.alloc w os size _ _ hos hfresh hstep)
  · exact h

theorem World.Reachable.release (h : w.Reachable) (os : Os) (i : Nat) : (w.release os i).Reachable := by
  unfold World.release
  split
  · exact h
  · rename_i o hget
    split
    · rename_i hstep
      exact .step h (.free w os o _ (List.mem_of_getElem? hget) hstep)
    · exact h

def lastOs : Os := { plainOs with mmap := fun n => if n ≤ 2 ^ 40 then some 0x600000000000 else none }

def fullOs : Os := { plainOs with mmap := fun _ => none }

theorem lastOs_inSpace : lastOs.InSpace where
  page := by decide
  mmap n raw h := by
    simp only [lastOs] at h
    split at h
    · cases h
      omega
    · cases h

theorem lastOs_fresh : lastOs.Fresh largeWorld.alloc := by
  intro n raw hraw a hle hlt
  simp only [lastOs] at hraw
  split at hraw
  · cases hraw
    -- what is left of the mapping between the two trims
    have hmapped : largeWorld.alloc.mapped a =
        (((false || decide (0x7f1234567000 ≤ a ∧ a < 0x7f1234567000 + 167936)) &&
          !decide (0x7f1234567000 ≤ a ∧ a < 0x7f1234567000 + 36864)) &&
          !decide (0x7f1234589000 ≤ a ∧ a < 0x7f1234589000 + 28672)) := rfl
    have houtside : ¬(0x7f1234567000 ≤ a ∧ a < 0x7f1234567000 + 167936) := by omega
    rw [hmapped, decide_eq_false houtside]
    rfl
  · cases hraw

/-- Three blocks of a slab beside a large one, the second of them given back. -/
theorem pool_exact_mixed : ∃ w : World, w.live.map Object.requested = [4096, 4000, 100000] ∧ w.Exact := by
  have hfull : fullOs.InSpace ∧ ∀ w : World, fullOs.Fresh w.alloc :=
    ⟨⟨by decide, nofun⟩, fun _ => nofun⟩
  have hreach : ((((largeWorld.request lastOs 4000).request fullOs 3500).request fullOs 4096).release
      fullOs 1).Reachable :=
    (((largeWorld_reachable.request lastOs_inSpace lastOs_fresh 4000).request hfull.1 (hfull.2 _)
      3500).request hfull.1 (hfull.2 _) 4096).release fullOs 1
  exact ⟨_, by decide +kernel, pool_exact hreach⟩

/-- Where the system does not take the region of a large object back, giving the
object back ends the process. -/
theorem kvsAllocatorFree_aborts : ∃ (w : World) (os : Os), ∃ o ∈ w.live, w.Reachable ∧
    kvsAllocatorFree os o.ptr w.alloc = .error .abort := by
  have hmem : ⟨0x7f1234570020, 100000, 102368⟩ ∈ largeWorld.live := by decide +kernel
  have hend : (kvsAllocatorFree { plainOs with munmap := fun _ _ => false } 0x7f1234570020
      largeWorld.alloc).isOk = false := by
    decide +kernel
  obtain ⟨L, hinv⟩ := largeWorld_reachable.inv
  obtain ⟨s', heq⟩ | ⟨habort, -⟩ :=
    hinv.free_returns hmem { plainOs with munmap := fun _ _ => false }
  · rw [heq] at hend
    cases hend
  · exact ⟨_, _, _, hmem, largeWorld_reachable, habort⟩

end

end KvStore
