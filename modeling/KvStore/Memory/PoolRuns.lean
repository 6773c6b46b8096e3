import KvStore.Memory.PoolShape

/-!
# Runs of the pool allocator

Clients ask for blocks, write inside them and give them back, in any order, and
the system places mappings anywhere it has room, or refuses. The world adds to
the allocator the list of the blocks that clients hold.
-/

namespace KvStore

open Lib

/-! ## Held blocks -/

/-- The blocks that clients hold, with their sizes. -/
inductive Layout.Holds (L : Layout) : Nat → Nat → Prop
  | small (hi : i < blockSizes.length) (hp : p ∈ L.slabs i)
      (hk : k < slabCapacity (blockSizeOf i)) (hused : k ∉ L.free p) :
      L.Holds (blockAt p (blockSizeOf i) k) (blockSizeOf i)
  | large (hp : p ∈ L.large) : L.Holds (p + largeHeaderSize) (L.length p - largeHeaderSize)

section
variable {s s' : Allocator} {L L' : Layout} {m' : Memory} {i j p q n k a : Nat} {free' : List Nat}

/-- Masking the address of a block gives its slab. -/
theorem PoolShape.start_block (h : PoolShape s L) (hi : i < blockSizes.length) (hp : p ∈ L.slabs i)
    (hk : k < slabCapacity (blockSizeOf i)) : regionStart (blockAt p (blockSizeOf i) k) = p := by
  have hfit := blockSizeOf_fits i hi
  have hat := hfit.blockAt_le p hk
  have hbs := hfit.large
  have hspace := h.inSpace p _ (.slab hi hp)
  exact regionStart_eq hspace.1 (by omega) (by omega) (by omega)

theorem PoolShape.start_large (h : PoolShape s L) (hp : p ∈ L.large) :
    regionStart (p + largeHeaderSize) = p := by
  have hspace := h.inSpace p _ (.large hp)
  have hroom := (h.largeOk p hp).room
  have hheader : largeHeaderSize < slabSize := by decide
  exact regionStart_eq hspace.1 (by omega) (by omega) (by omega)

theorem PoolShape.holds_region (h : PoolShape s L) (hq : L.Holds q n) :
    ∃ p k, L.Region p k ∧ regionStart q = p ∧ p + largeHeaderSize ≤ q ∧ q + n ≤ p + k ∧
      q % maxAlign = 0 := by
  have hheader : largeHeaderSize = 32 := rfl
  have hslab : slabHeaderSize = 64 := rfl
  cases hq with
  | @small i p k hi hp hk hused =>
    have hfit := blockSizeOf_fits i hi
    have hat := hfit.blockAt_le p hk
    have haligned : p % 65536 = 0 := (h.inSpace p _ (.slab hi hp)).1
    refine ⟨p, slabSize, .slab hi hp, h.start_block hi hp hk, by omega, hat.2, ?_⟩
    have hdata := hfit.data
    have hbs := hfit.aligned
    change (p + dataOffset (blockSizeOf i) + k * blockSizeOf i) % 16 = 0
    have hmul : k * blockSizeOf i % 16 = 0 := by rw [Nat.mul_mod, hbs, Nat.mul_zero, Nat.zero_mod]
    omega
  | @large p hp =>
    have hroom := (h.largeOk p hp).room
    have haligned : p % 65536 = 0 := (h.inSpace p _ (.large hp)).1
    refine ⟨p, L.length p, .large hp, h.start_large hp, le_rfl, by omega, ?_⟩
    change (p + 32) % 16 = 0
    omega

theorem PoolShape.holds_apart {q' n' : Nat} (h : PoolShape s L) (hq : L.Holds q n) (hq' : L.Holds q' n')
    (hne : q ≠ q') : q + n ≤ q' ∨ q' + n' ≤ q := by
  obtain ⟨p, k, hp, hstart, hle, hend, -⟩ := h.holds_region hq
  obtain ⟨p', k', hp', hstart', hle', hend', -⟩ := h.holds_region hq'
  by_cases heq : p = p'
  · cases hq with
    | @small i r c hi hr hc hused =>
      rw [h.start_block hi hr hc] at hstart
      cases hq' with
      | @small j r' c' hj hr' hc' hused' =>
        rw [h.start_block hj hr' hc'] at hstart'
        obtain rfl : r = r' := hstart.trans (heq.trans hstart'.symm)
        obtain rfl := h.class_unique hi hj hr hr'
        exact blockAt_apart _ _ fun hcc => hne (by rw [hcc])
      | @large r' hr' =>
        rw [h.start_large hr'] at hstart'
        exact absurd (hstart.trans (heq.trans hstart'.symm) ▸ hr') (h.not_large hi hr)
    | @large r hr =>
      rw [h.start_large hr] at hstart
      cases hq' with
      | @small j r' c' hj hr' hc' hused' =>
        rw [h.start_block hj hr' hc'] at hstart'
        exact absurd (hstart'.trans (heq.symm.trans hstart.symm) ▸ hr) (h.not_large hj hr')
      | @large r' hr' =>
        rw [h.start_large hr'] at hstart'
        exact absurd (by rw [hstart.trans (heq.trans hstart'.symm)]) hne
  · have := h.apart p k p' k' hp hp' heq
    omega

theorem Layout.Reserved.region (h : PoolShape s L) (ha : L.Reserved a) :
    ∃ p n, L.Region p n ∧ p ≤ a ∧ a < p + n := by
  cases ha with
  | @header i p hi hp hle hlt =>
    have hbitmap := (blockSizeOf_fits i hi).bitmap
    have hoffset := (blockSizeOf_fits i hi).dataOffset_lt
    exact ⟨p, slabSize, .slab hi hp, hle, by omega⟩
  | @free i p k hi hp hk hle hlt =>
    have hat := (blockSizeOf_fits i hi).blockAt_le p ((h.slabOk i hi p hp).bounded k hk)
    exact ⟨p, slabSize, .slab hi hp, by omega, by omega⟩
  | @large p hp hle hlt =>
    have hroom := (h.largeOk p hp).room
    exact ⟨p, L.length p, .large hp, hle, by omega⟩

/-- Nothing of a held block is the pool's. -/
theorem PoolShape.holds_reserved (h : PoolShape s L) (hq : L.Holds q n) (ha : L.Reserved a) :
    a < q ∨ q + n ≤ a := by
  obtain ⟨p, k, hp, hstart, hle, hend, -⟩ := h.holds_region hq
  have hslab : ∀ {i r}, i < blockSizes.length → r ∈ L.slabs i → r = p →
      ∃ c, q = blockAt r (blockSizeOf i) c ∧ n = blockSizeOf i ∧ c < slabCapacity (blockSizeOf i) ∧
        c ∉ L.free r := by
    rintro i r hi hr rfl
    cases hq with
    | @small j r' c hj hr' hc hused =>
      rw [h.start_block hj hr' hc] at hstart
      subst hstart
      obtain rfl := h.class_unique hi hj hr hr'
      exact ⟨c, rfl, rfl, hc, hused⟩
    | @large r' hr' =>
      rw [h.start_large hr'] at hstart
      exact absurd (hstart ▸ hr') (h.not_large hi hr)
  have haway : ∀ {r l}, L.Region r l → r ≤ a → a < r + l → r ≠ p → a < q ∨ q + n ≤ a := by
    intro r l hr hra har hne
    have := h.apart r l p k hr hp hne
    omega
  cases ha with
  | @header i r hi hr hra har =>
    have hbitmap := (blockSizeOf_fits i hi).bitmap
    have hoffset := (blockSizeOf_fits i hi).dataOffset_lt
    by_cases heq : r = p
    · obtain ⟨c, rfl, rfl, hc, -⟩ := hslab hi hr heq
      have hat := (blockSizeOf_fits i hi).blockAt_le r hc
      omega
    · exact haway (.slab hi hr) hra (by omega) heq
  | @free i r c hi hr hfree hra har =>
    have hat := (blockSizeOf_fits i hi).blockAt_le r ((h.slabOk i hi r hr).bounded c hfree)
    by_cases heq : r = p
    · obtain ⟨c', rfl, rfl, -, hused⟩ := hslab hi hr heq
      have hne : c' ≠ c := fun hcc => hused (hcc ▸ hfree)
      have := blockAt_apart r (blockSizeOf i) hne
      omega
    · exact haway (.slab hi hr) (by omega) (by omega) heq
  | @large r hr hra har =>
    have hroom := (h.largeOk r hr).room
    by_cases heq : r = p
    · omega
    · exact haway (.large hr) hra (by omega) heq

end

/-! ## What becomes of the held blocks -/

/-- Mappings are put where nothing is mapped. -/
def Os.Fresh (os : Os) (s : Allocator) : Prop :=
  ∀ n raw, os.mmap n = some raw → ∀ a, raw ≤ a → a < raw + n → s.mapped a = false

section
variable {os : Os} {s s' : Allocator} {L L' : Layout} {m m' : Memory}
  {i j p q n k a raw start size : Nat} {free' rest : List Nat} {result : Nat × Allocator}

theorem RegionResult.slabs (hr : RegionResult os n s result raw start) : result.2.slabs = s.slabs := by
  rw [hr.same.same]
  rfl

theorem RegionResult.largeRegions (hr : RegionResult os n s result raw start) :
    result.2.largeRegions = s.largeRegions := by
  rw [hr.same.same]
  rfl

theorem RegionResult.shape (hr : RegionResult os n s result raw start) (h : PoolShape s L)
    (hfresh : os.Fresh s) : PoolShape result.2 L := by
  have hfree := hfresh _ _ hr.mmap
  refine h.frame hr.slabs hr.largeRegions (fun a ha => ?_) fun a ha => ?_
  · obtain ⟨p, k, hp, hle, hlt⟩ := ha.region h
    have hmapped := h.mapped p k hp a hle hlt
    have hout : ¬(raw ≤ a ∧ a < raw + (n + slabSize)) := fun hin => by
      rw [hfree a hin.1 hin.2] at hmapped
      cases hmapped
    rw [hr.same.same]
    exact if_neg hout
  · have hout : ¬(raw ≤ a ∧ a < raw + (n + slabSize)) := fun hin => by
      rw [hfree a hin.1 hin.2] at ha
      cases ha
    rw [hr.same.outside a (by omega)]
    simp [Allocator.mapRange, ha]

theorem RegionResult.new (hr : RegionResult os n s result raw start) (h : PoolShape s L)
    (hfresh : os.Fresh s) (hpos : start ≠ 0) (hroom : largeHeaderSize < n)
    (hmapped : ∀ b, raw ≤ b → b < raw + (n + slabSize) →
      result.2.mapped b = decide (start ≤ b ∧ b < start + n)) : NewRegion result.2 L start n := by
  have hfree := hfresh _ _ hr.mmap
  have hle := hr.le
  have hlt := hr.lt
  have hspace := hr.space
  refine ⟨hr.aligned, hpos, by omega, hroom, fun a ha hb => ?_, fun q k hq => ?_⟩
  · rw [hmapped a (by omega) (by omega)]
    exact decide_eq_true ⟨ha, hb⟩
  · -- a common address would be mapped before and not mapped before
    by_contra hover
    have hk := h.header_lt hq
    have hcommon := h.mapped q k hq (max start q) (by omega) (by omega)
    rw [hfree (max start q) (by omega) (by omega)] at hcommon
    cases hcommon

theorem Layout.holds_take (h : PoolShape s L) (hi : i < blockSizes.length) (hp : p ∈ L.slabs i)
    (hfree : L.free p = k :: rest) :
    ({ L with free := Function.update L.free p rest } : Layout).Holds q n ↔
      L.Holds q n ∨ q = blockAt p (blockSizeOf i) k ∧ n = blockSizeOf i := by
  have hok := h.slabOk i hi p hp
  rw [hfree] at hok
  have hnot : k ∉ rest := (List.nodup_cons.mp hok.nodup).1
  constructor
  · intro hq
    cases hq with
    | @small j r c hj hr hc hused =>
      change c ∉ Function.update L.free p rest r at hused
      by_cases heq : r = p
      · subst heq
        obtain rfl := h.class_unique hi hj hp hr
        rw [Function.update_self] at hused
        by_cases hck : c = k
        · exact .inr ⟨by rw [hck], rfl⟩
        · refine .inl (.small hj hr hc ?_)
          rw [hfree]
          simp only [List.mem_cons, hck, hused, or_self, not_false_eq_true]
      · rw [Function.update_of_ne heq] at hused
        exact .inl (.small hj hr hc hused)
    | large hr => exact .inl (.large hr)
  · rintro (hq | ⟨rfl, rfl⟩)
    · cases hq with
      | @small j r c hj hr hc hused =>
        refine .small hj hr hc ?_
        change c ∉ Function.update L.free p rest r
        by_cases heq : r = p
        · subst heq
          rw [Function.update_self]
          rw [hfree] at hused
          exact fun hmem => hused (List.mem_cons_of_mem _ hmem)
        · rw [Function.update_of_ne heq]
          exact hused
      | large hr => exact .large hr
    · refine .small hi hp (hok.bounded k List.mem_cons_self) ?_
      change k ∉ Function.update L.free p rest p
      rw [Function.update_self]
      exact hnot

theorem Layout.holds_give (h : PoolShape s L) (hi : i < blockSizes.length) (hp : p ∈ L.slabs i)
    (hk : k < slabCapacity (blockSizeOf i)) :
    ({ L with free := Function.update L.free p (k :: L.free p) } : Layout).Holds q n ↔
      L.Holds q n ∧ q ≠ blockAt p (blockSizeOf i) k := by
  constructor
  · intro hq
    cases hq with
    | @small j r c hj hr hc hused =>
      change c ∉ Function.update L.free p (k :: L.free p) r at hused
      by_cases heq : r = p
      · subst heq
        obtain rfl := h.class_unique hi hj hp hr
        rw [Function.update_self] at hused
        refine ⟨.small hj hr hc fun hmem => hused (List.mem_cons_of_mem _ hmem), fun hsame => ?_⟩
        have hbs := (blockSizeOf_fits i hi).large
        have hck : c = k := by
          by_contra hne
          have := blockAt_apart r (blockSizeOf i) hne
          omega
        exact hused (hck ▸ List.mem_cons_self)
      · rw [Function.update_of_ne heq] at hused
        refine ⟨.small hj hr hc hused, fun hsame => heq ?_⟩
        rw [← h.start_block hj hr hc, hsame, h.start_block hi hp hk]
    | @large r hr =>
      refine ⟨.large hr, fun hsame => h.not_large hi hp ?_⟩
      have hstart : r = p := by rw [← h.start_large hr, hsame, h.start_block hi hp hk]
      exact hstart ▸ hr
  · rintro ⟨hq, hne⟩
    cases hq with
    | @small j r c hj hr hc hused =>
      refine .small hj hr hc ?_
      change c ∉ Function.update L.free p (k :: L.free p) r
      by_cases heq : r = p
      · subst heq
        obtain rfl := h.class_unique hi hj hp hr
        rw [Function.update_self]
        intro hmem
        obtain rfl | hmem := List.mem_cons.mp hmem
        · exact hne rfl
        · exact hused hmem
      · rw [Function.update_of_ne heq]
        exact hused
    | large hr => exact .large hr

theorem Layout.holds_addSlab (h : PoolShape s L) (hnew : NewRegion s L p slabSize) :
    (L.addSlab i p (List.range (slabCapacity (blockSizeOf i))).reverse).Holds q n ↔ L.Holds q n := by
  constructor
  · intro hq
    cases hq with
    | @small j r c hj hr hc hused =>
      change c ∉ Function.update L.free p _ r at hused
      obtain ⟨rfl, rfl⟩ | hr := Layout.mem_addSlab.mp hr
      · rw [Function.update_self] at hused
        exact absurd (List.mem_reverse.mpr (List.mem_range.mpr hc)) hused
      · rw [Function.update_of_ne (hnew.ne h (.slab hj hr))] at hused
        exact .small hj hr hc hused
    | large hr => exact .large hr
  · intro hq
    cases hq with
    | @small j r c hj hr hc hused =>
      refine .small hj (Layout.mem_addSlab.mpr (.inr hr)) hc ?_
      change c ∉ Function.update L.free p _ r
      rw [Function.update_of_ne (hnew.ne h (.slab hj hr))]
      exact hused
    | large hr => exact .large hr

theorem Layout.holds_addLarge (hp : p ∉ L.large) :
    (L.addLarge p k).Holds q n ↔
      L.Holds q n ∨ q = p + largeHeaderSize ∧ n = k - largeHeaderSize := by
  have hlength : ∀ r ∈ L.large, (L.addLarge p k).length r = L.length r := fun r hr =>
    Function.update_of_ne (fun heq : r = p => hp (heq ▸ hr)) ..
  constructor
  · intro hq
    cases hq with
    | small hj hr hc hused => exact .inl (.small hj hr hc hused)
    | @large r hr =>
      obtain rfl | hr := List.mem_cons.mp hr
      · exact .inr ⟨rfl, congrArg (· - largeHeaderSize) (Function.update_self ..)⟩
      · rw [hlength r hr]
        exact .inl (.large hr)
  · rintro (hq | ⟨rfl, rfl⟩)
    · cases hq with
      | small hj hr hc hused => exact .small hj hr hc hused
      | @large r hr =>
        rw [← hlength r hr]
        exact .large (List.mem_cons_of_mem _ hr)
    · have hself : (L.addLarge p k).length p = k := Function.update_self ..
      have hheld : (L.addLarge p k).Holds (p + largeHeaderSize)
          ((L.addLarge p k).length p - largeHeaderSize) := .large List.mem_cons_self
      rwa [hself] at hheld

theorem Layout.holds_removeLarge (h : PoolShape s L) (hp : p ∈ L.large) :
    (L.removeLarge p).Holds q n ↔ L.Holds q n ∧ q ≠ p + largeHeaderSize := by
  have hnodup := h.largeChain.chain.nodup
  constructor
  · intro hq
    cases hq with
    | @small j r c hj hr hc hused =>
      refine ⟨.small hj hr hc hused, fun hsame => h.not_large hj hr ?_⟩
      have hstart : r = p := by rw [← h.start_block hj hr hc, hsame, h.start_large hp]
      exact hstart ▸ hp
    | @large r hr =>
      obtain ⟨hne, hr⟩ := hnodup.mem_erase_iff.mp hr
      exact ⟨.large hr, fun hsame => hne (Nat.add_right_cancel hsame)⟩
  · rintro ⟨hq, hne⟩
    cases hq with
    | small hj hr hc hused => exact .small hj hr hc hused
    | @large r hr =>
      refine .large (hnodup.mem_erase_iff.mpr ⟨fun heq => hne (by rw [heq]), hr⟩)

/-! ## Requests and returns -/

/-- There are no more slabs than aligned addresses. -/
theorem PoolShape.length_lt (h : PoolShape s L) (l : List Nat) (hnodup : l.Nodup)
    (hl : ∀ p ∈ l, ∃ n, L.Region p n) : l.length < listBound := by
  have hsize : slabSize = 65536 := rfl
  have hunits : (l.map (· / slabSize)).Nodup := by
    refine hnodup.map_on fun p hp q hq heq => ?_
    obtain ⟨n, hpn⟩ := hl p hp
    obtain ⟨k, hqk⟩ := hl q hq
    have hp0 : p % 65536 = 0 := (h.inSpace p n hpn).1
    have hq0 : q % 65536 = 0 := (h.inSpace q k hqk).1
    have hdiv : p / 65536 = q / 65536 := heq
    omega
  have hbound : (l.map (· / slabSize)).length ≤ (List.range (2 ^ 48)).length := by
    refine hunits.length_le_of_subset fun u hu => ?_
    obtain ⟨p, hp, rfl⟩ := List.mem_map.mp hu
    obtain ⟨n, hpn⟩ := hl p hp
    have hspace := (h.inSpace p n hpn).2.2
    have hpos := h.header_lt hpn
    rw [List.mem_range]
    change p / 65536 < 2 ^ 48
    omega
  rw [List.length_map, List.length_range] at hbound
  exact Nat.lt_succ_of_le hbound

theorem skipFull_spec {l : List Nat} {head bound : Nat} (hchain : Chain (Slab.next m) head l)
    (hbound : l.length < bound) :
    ∃ slab, skipFull m bound head = .ok slab ∧
      (slab = 0 ∨ slab ∈ l ∧ slab ≠ 0 ∧ Slab.freeList m slab ≠ 0) := by
  induction l generalizing head bound with
  | nil =>
    cases bound with
    | zero => cases hbound
    | succ bound =>
      refine ⟨head, ?_, .inl hchain⟩
      rw [skipFull, if_neg (fun hgo => hgo.1 hchain)]
  | cons p l ih =>
    obtain ⟨rfl, hne, hrest⟩ := hchain
    cases bound with
    | zero => cases hbound
    | succ bound =>
      by_cases hfull : Slab.freeList m head = 0
      · obtain ⟨slab, heq, hslab⟩ := ih hrest (Nat.lt_of_succ_lt_succ hbound)
        refine ⟨slab, ?_, hslab.imp_right fun hs => ⟨List.mem_cons_of_mem _ hs.1, hs.2⟩⟩
        rw [skipFull, if_pos ⟨hne, hfull⟩, heq]
      · refine ⟨head, ?_, .inr ⟨List.mem_cons_self, hne, hfull⟩⟩
        rw [skipFull, if_neg (fun hgo => hfull hgo.2)]

theorem PoolShape.holds_pos (h : PoolShape s L) (hq : L.Holds q n) : 0 < n := by
  cases hq with
  | @small i p k hi =>
    have := (blockSizeOf_fits i hi).large
    omega
  | @large p hp =>
    have := (h.largeOk p hp).room
    omega

/-- What a request that returns `ptr` does to the held blocks. -/
def Layout.Gives (L L' : Layout) (ptr size : Nat) : Prop :=
  ptr = 0 ∧ (∀ q n, L'.Holds q n ↔ L.Holds q n) ∨
    ptr ≠ 0 ∧ ∃ room, size ≤ room ∧ (∀ n, ¬L.Holds ptr n) ∧
      ∀ q n, L'.Holds q n ↔ L.Holds q n ∨ q = ptr ∧ n = room

theorem Layout.Gives.of_same {L₁ : Layout} {ptr : Nat} (hgives : L₁.Gives L' ptr size)
    (hsame : ∀ q n, L₁.Holds q n ↔ L.Holds q n) : L.Gives L' ptr size := by
  obtain ⟨hnull, hholds⟩ | ⟨hpos, room, hsize, hfresh, hholds⟩ := hgives
  · exact .inl ⟨hnull, fun q n => (hholds q n).trans (hsame q n)⟩
  · refine .inr ⟨hpos, room, hsize, fun n hn => hfresh n ((hsame _ n).mpr hn), fun q n => ?_⟩
    rw [hholds, hsame]

theorem PoolShape.slabs_lt (h : PoolShape s L) (hi : i < blockSizes.length) : s.slabs i < 2 ^ 64 := by
  have hchain := h.chains i hi
  cases hl : L.slabs i with
  | nil =>
    rw [hl] at hchain
    have hzero : s.slabs i = 0 := hchain
    omega
  | cons p l =>
    rw [hl] at hchain
    have hregion : L.Region p slabSize := .slab hi (hl ▸ List.mem_cons_self)
    have hspace := (h.inSpace p _ hregion).2.2
    have hpos : 0 < slabSize := by decide
    have hhead : s.slabs i = p := hchain.1
    omega

theorem PoolShape.takeBlock (h : PoolShape s L) (hi : i < blockSizes.length) (hp : p ∈ L.slabs i)
    (hfree : Slab.freeList s.memory p ≠ 0) (hsize : size ≤ blockSizeOf i) :
    ∃ L', PoolShape { s with memory := (slabAllocBlock s.memory p).2 } L' ∧
      L.Gives L' (slabAllocBlock s.memory p).1 size := by
  have hok := h.slabOk i hi p hp
  have hpos := (h.inSpace p _ (.slab hi hp)).2.1
  cases hl : L.free p with
  | nil =>
    rw [hl] at hok
    exact absurd hok.chain hfree
  | cons k rest =>
    rw [hl] at hok
    have hfit := blockSizeOf_fits i hi
    obtain ⟨hptr, hok', hnext, hconf⟩ := slabAllocBlock_spec hok hfit hpos
    have hbitmap := hfit.bitmap
    have hoffset := hfit.dataOffset_lt
    have hk := hok.bounded k List.mem_cons_self
    refine ⟨_, h.changeSlab hi hp (hconf.mono le_rfl (by omega)) hok' hnext, .inr ⟨?_, ?_⟩⟩
    · have hat := hfit.blockAt_le p hk
      rw [hptr]
      omega
    · rw [hptr]
      refine ⟨blockSizeOf i, hsize, fun n hheld => ?_, fun q n => Layout.holds_take h hi hp hl⟩
      have hreserved : L.Reserved (blockAt p (blockSizeOf i) k) :=
        .free hi hp (hl ▸ List.mem_cons_self) le_rfl (by have := hfit.large; omega)
      have haway := h.holds_reserved hheld hreserved
      have hroom := h.holds_pos hheld
      omega

structure SameMode (s s' : Allocator) : Prop where
  initialized : s'.initialized = s.initialized
  backend : s'.backend = s.backend

theorem SameMode.trans {s'' : Allocator} (h : SameMode s s') (h' : SameMode s' s'') :
    SameMode s s'' :=
  ⟨h'.initialized.trans h.initialized, h'.backend.trans h.backend⟩

theorem Allocator.unmapRange_sameMode (s : Allocator) (a n : Nat) :
    SameMode s (s.unmapRange a n) := ⟨rfl, rfl⟩

theorem RegionResult.sameMode (hr : RegionResult os n s result raw start) : SameMode s result.2 := by
  constructor
  · rw [hr.same.same]
    rfl
  · rw [hr.same.same]
    rfl

theorem slabCreate_spec (h : PoolShape s L) (hos : os.InSpace) (hfresh : os.Fresh s)
    (hi : i < blockSizes.length) :
    (slabCreate os (blockSizeOf i) s).1 = 0 ∧ PoolShape (slabCreate os (blockSizeOf i) s).2 L ∧
        SameMode s (slabCreate os (blockSizeOf i) s).2 ∨
      ∃ region raw start, RegionResult os slabSize s region raw start ∧ start ≠ 0 ∧
        NewRegion region.2 L start slabSize ∧
        slabCreate os (blockSizeOf i) s =
          (start, { region.2 with memory := slabFormat region.2.memory start (blockSizeOf i) }) := by
  have hfit := blockSizeOf_fits i hi
  have hargs : ¬(blockSizeOf i < freeBlockSize ∨ blockSizeOf i % maxAlign ≠ 0 ∨
      blockSizeOf i > largestBlock) := by
    have hlarge := hfit.large
    have haligned : blockSizeOf i % maxAlign = 0 := hfit.aligned
    have hbounded := hfit.bounded
    have hfree : freeBlockSize = 8 := rfl
    omega
  have hgeometry : ¬(dataOffset (blockSizeOf i) ≥ slabSize ∨ slabCapacity (blockSizeOf i) = 0) := by
    have hoffset := hfit.dataOffset_lt
    have hsome := hfit.some
    omega
  obtain ⟨region, heq, hregion⟩ := regionMemoryAlloc_cases hos slabSize s
  have hcreate : slabCreate os (blockSizeOf i) s = if region.1 = 0 then (0, region.2) else
      (region.1, { region.2 with memory := slabFormat region.2.memory region.1 (blockSizeOf i) }) := by
    unfold slabCreate
    rw [if_neg hargs, if_neg hgeometry, heq]
    rfl
  obtain rfl | ⟨raw, start, hr⟩ := hregion
  · left
    rw [hcreate]
    exact ⟨rfl, h, rfl, rfl⟩
  · obtain hnull | ⟨hstart, hmapped⟩ := hr.outcome
    · left
      rw [hcreate, if_pos hnull]
      exact ⟨rfl, hr.shape h hfresh, hr.sameMode⟩
    · by_cases hzero : start = 0
      · left
        rw [hcreate, if_pos (hstart.trans hzero)]
        exact ⟨rfl, hr.shape h hfresh, hr.sameMode⟩
      · right
        refine ⟨region, raw, start, hr, hzero, hr.new h hfresh hzero (by decide) hmapped, ?_⟩
        rw [hcreate, if_neg (hstart ▸ hzero), hstart]

theorem findSizeClass_spec (h : findSizeClass size = some i) :
    i < blockSizes.length ∧ size ≤ blockSizeOf i := by
  obtain ⟨hi, hle, -⟩ := List.findIdx?_eq_some_iff_getElem.mp h
  refine ⟨hi, ?_⟩
  rw [blockSizeOf, List.getD_eq_getElem?_getD, List.getElem?_eq_getElem hi]
  exact of_decide_eq_true hle

theorem poolAllocSmall_spec (h : PoolShape s L) (hos : os.InSpace) (hfresh : os.Fresh s) (size : Nat) :
    ∃ ptr s' L', poolAllocSmall os size s = .ok (ptr, s') ∧ PoolShape s' L' ∧ SameMode s s' ∧
      L.Gives L' ptr size := by
  unfold poolAllocSmall
  by_cases hzero : size = 0
  · rw [if_pos hzero]
    exact ⟨0, s, L, rfl, h, ⟨rfl, rfl⟩, .inl ⟨rfl, fun _ _ => Iff.rfl⟩⟩
  rw [if_neg hzero]
  cases hclass : findSizeClass size with
  | none => exact ⟨0, s, L, rfl, h, ⟨rfl, rfl⟩, .inl ⟨rfl, fun _ _ => Iff.rfl⟩⟩
  | some i =>
    obtain ⟨hi, hsize⟩ := findSizeClass_spec hclass
    have hchain := h.chains i hi
    obtain ⟨slab, hskip, hslab⟩ := skipFull_spec hchain
      (h.length_lt _ hchain.nodup fun p hp => ⟨_, .slab hi hp⟩)
    simp only [hskip, bind, Except.bind]
    obtain rfl | ⟨hp, hpos, hfree⟩ := hslab
    · rw [if_pos rfl]
      obtain ⟨hnull, hshape, hmode⟩ | ⟨region, raw, start, hr, hstart, hnew, hcreate⟩ :=
        slabCreate_spec h hos hfresh hi
      · simp only [hnull, if_true]
        exact ⟨0, _, L, rfl, hshape, hmode, .inl ⟨rfl, fun _ _ => Iff.rfl⟩⟩
      · rw [hcreate]
        simp only [hstart, if_false]
        have hfit := blockSizeOf_fits i hi
        have hshape := hr.shape h hfresh
        have hspace := hnew.space
        -- the slab is formatted, hooked in, and its first block is handed out
        obtain ⟨hok, hconf⟩ := slabFormat_spec region.2.memory hfit hspace
        have hunit : slabSize = 65536 := rfl
        have hhook : Confined (slabFormat region.2.memory start (blockSizeOf i))
            (Slab.setNext (slabFormat region.2.memory start (blockSizeOf i)) start
              (region.2.slabs i)) (start + 56) 8 := store_confined
        have hnext : Slab.next (Slab.setNext (slabFormat region.2.memory start (blockSizeOf i)) start
            (region.2.slabs i)) start = region.2.slabs i := load_store (hshape.slabs_lt hi)
        have hadded := hshape.addSlab hi hnew (hconf.trans (hhook.mono (by omega) (by omega)))
          (hok.setNext hfit _) hnext
        have hmem : start ∈ (L.addSlab i start
            (List.range (slabCapacity (blockSizeOf i))).reverse).slabs i :=
          Layout.mem_addSlab.mpr (.inl ⟨rfl, rfl⟩)
        have hfree : Slab.freeList (Slab.setNext (slabFormat region.2.memory start (blockSizeOf i))
            start (region.2.slabs i)) start ≠ 0 := by
          intro hzero
          have hnil := ((hok.setNext hfit (region.2.slabs i)).chain.eq_nil_iff).mp hzero
          have hlength := congrArg List.length hnil
          rw [List.length_map, List.length_reverse, List.length_range] at hlength
          exact absurd hlength (Nat.ne_of_gt hfit.some)
        obtain ⟨L', hshape', hgives⟩ := hadded.takeBlock hi hmem hfree hsize
        refine ⟨_, _, L', rfl, hshape', ⟨hr.sameMode.initialized, hr.sameMode.backend⟩, ?_⟩
        exact hgives.of_same fun q n => Layout.holds_addSlab hshape hnew
    · rw [if_neg hpos]
      obtain ⟨L', hshape, hgives⟩ := h.takeBlock hi hp hfree hsize
      exact ⟨_, _, L', rfl, hshape, ⟨rfl, rfl⟩, hgives⟩

theorem poolAllocLarge_spec (h : PoolShape s L) (hos : os.InSpace) (hfresh : os.Fresh s)
    (hpos : 0 < size) :
    ∃ ptr s' L', (poolAllocLarge os size s).value = (ptr, s') ∧ PoolShape s' L' ∧ SameMode s s' ∧
      L.Gives L' ptr size := by
  have hheader : largeHeaderSize = 32 := rfl
  obtain ⟨result, heq, hresult⟩ := poolAllocLarge_cases hos size s
  rw [heq]
  cases hresult with
  | refused => exact ⟨0, s, L, rfl, h, ⟨rfl, rfl⟩, .inl ⟨rfl, fun _ _ => Iff.rfl⟩⟩
  | failed mappingSize raw start region hr hnull =>
    exact ⟨0, region.2, L, rfl, hr.shape h hfresh, hr.sameMode, .inl ⟨rfl, fun _ _ => Iff.rfl⟩⟩
  | linked mappingSize raw start region hr hroom hstart hmapped =>
    have hshape := hr.shape h hfresh
    have hnew := hr.new h hfresh hstart (by omega) hmapped
    have hfits := hr.fits
    refine ⟨_, _, L.addLarge start mappingSize, rfl, hshape.addLarge hnew (by omega),
      ⟨hr.sameMode.initialized, hr.sameMode.backend⟩, .inr ⟨by omega, ?_⟩⟩
    have hout : start ∉ L.large := fun hmem => hnew.ne hshape (.large hmem) rfl
    refine ⟨mappingSize - largeHeaderSize, by omega, fun n hheld => ?_, fun q n =>
      Layout.holds_addLarge hout⟩
    -- a held block lies in a region of the layout
    obtain ⟨p, k, hp, -, hle, hend, -⟩ := hshape.holds_region hheld
    have := hnew.apart p k hp
    have := hshape.holds_pos hheld
    omega

theorem kvsAllocatorAlloc_spec (h : PoolShape s L) (hos : os.InSpace) (hfresh : os.Fresh s)
    (hmode : s.initialized = true → s.backend = .pool) (size : Nat) :
    ∃ ptr s' L', kvsAllocatorAlloc os size s = .ok (ptr, s') ∧ PoolShape s' L' ∧ SameMode s s' ∧
      L.Gives L' ptr size := by
  unfold kvsAllocatorAlloc
  by_cases hidle : s.initialized = false ∨ size = 0
  · rw [if_pos hidle]
    exact ⟨0, s, L, rfl, h, ⟨rfl, rfl⟩, .inl ⟨rfl, fun _ _ => Iff.rfl⟩⟩
  · obtain ⟨hinit, hsize⟩ := not_or.mp hidle
    rw [if_neg hidle, hmode (by simpa using hinit)]
    by_cases hlarge : size > largestBlock
    · simp only [if_pos hlarge]
      obtain ⟨ptr, s', L', heq, hrest⟩ := poolAllocLarge_spec h hos hfresh (Nat.pos_of_ne_zero hsize)
      exact ⟨ptr, s', L', congrArg Except.ok heq, hrest⟩
    · simp only [if_neg hlarge]
      exact poolAllocSmall_spec h hos hfresh size

theorem Allocator.joinLarge_sameMode (s : Allocator) (before after forward back : Nat) :
    SameMode s (s.joinLarge before after forward back) := by
  unfold Allocator.joinLarge
  by_cases hb : before = 0
  · by_cases ha : after = 0
    · simp only [hb, ha, ne_eq, not_true_eq_false, if_false]
      exact ⟨rfl, rfl⟩
    · simp only [hb, ha, ne_eq, not_true_eq_false, not_false_eq_true, if_false, if_true]
      exact ⟨rfl, rfl⟩
  · by_cases ha : after = 0
    · simp only [hb, ha, ne_eq, not_true_eq_false, not_false_eq_true, if_false, if_true]
      exact ⟨rfl, rfl⟩
    · simp only [hb, ha, ne_eq, not_false_eq_true, if_true]
      exact ⟨rfl, rfl⟩

/-- A block that is held can be given back; for a large one that is the success
of `munmap`. -/
theorem kvsAllocatorFree_spec (h : PoolShape s L) (hq : L.Holds q n) (hinit : s.initialized = true)
    (hmode : s.backend = .pool) (os : Os) :
    (∃ s' L', kvsAllocatorFree os q s = .ok s' ∧ PoolShape s' L' ∧ SameMode s s' ∧
        ∀ r k, L'.Holds r k ↔ L.Holds r k ∧ r ≠ q) ∨
      kvsAllocatorFree os q s = .error .abort ∧
        ∃ p ∈ L.large, q = p + largeHeaderSize ∧ os.munmap p (L.length p) = false := by
  obtain ⟨p, k, hp, hstart, hle, -, -⟩ := h.holds_region hq
  have hne : q ≠ 0 := by
    have hpos := (h.inSpace p k hp).2.1
    omega
  unfold kvsAllocatorFree
  rw [if_neg hne, if_neg (by simp [hinit]), hmode, hstart]
  cases hq with
  | @small i r c hi hr hc hused =>
    left
    obtain rfl : r = p := (h.start_block hi hr hc).symm.trans hstart
    have hok := h.slabOk i hi r hr
    have hspace := h.inSpace r _ (.slab hi hr)
    obtain ⟨hresult, hok', hnext, hconf⟩ :=
      poolFreeSmall_spec hok (blockSizeOf_fits i hi) hspace.1 hspace.2.2 hc hused
    refine ⟨{ s with memory := (poolFreeSmall s.memory (blockAt r (blockSizeOf i) c)).2 }, _, ?_,
      h.changeSlab hi hr hconf hok' hnext, ⟨rfl, rfl⟩, fun _ _ => Layout.holds_give h hi hr hc⟩
    simp only [hok.kind, if_true, hresult, ne_eq, not_true_eq_false, if_false]
    rw [hmode]
  | @large r hr =>
    obtain rfl : r = p := (h.start_large hr).symm.trans hstart
    have hok := h.largeOk r hr
    have hkind : Slab.kind s.memory r = regionLarge := hok.kind
    have hother : regionLarge ≠ regionSlab := by decide
    simp only [hkind, hother, if_false, if_true]
    by_cases hunmap : os.munmap r (L.length r) = true
    · left
      refine ⟨_, L.removeLarge r, ?_, h.removeLarge hr, ?_, fun _ _ => Layout.holds_removeLarge h hr⟩
      · simp only [poolFreeLarge, Allocator.munmap, hok.mappingSize, hunmap, if_true, ne_eq,
          not_true_eq_false, if_false]
      · have hsame := s.joinLarge_sameMode (Large.prev s.memory r) (Large.next s.memory r)
          (Large.next s.memory r) (Large.prev s.memory r)
        exact hsame.trans (Allocator.unmapRange_sameMode ..)
    · right
      refine ⟨?_, r, hr, rfl, by simpa using hunmap⟩
      have hfalse : os.munmap r (L.length r) = false := by simpa using hunmap
      simp only [poolFreeLarge, Allocator.munmap, hok.mappingSize, hfalse]
      rfl

end

/-! ## Counting and giving everything back -/

section
variable {os : Os} {s s' : Allocator} {L L' : Layout} {m : Memory}
  {i bound head slab bs : Nat} {free l : List Nat} {r r' : PoolStats}

theorem SlabOk.usedCount_eq (h : SlabOk m slab bs free) :
    Slab.usedCount m slab =
      ((List.range (slabCapacity bs)).filter fun k => decide (k ∉ free)).length := by
  have hperm : ((List.range (slabCapacity bs)).filter fun k => decide (k ∈ free)).Perm free := by
    refine (List.perm_ext_iff_of_nodup (List.nodup_range.filter _) h.nodup).mpr fun k => ?_
    rw [List.mem_filter, List.mem_range, decide_eq_true_iff]
    exact ⟨fun hk => hk.2, fun hk => ⟨h.bounded k hk, hk⟩⟩
  have hsplit := @List.length_eq_length_filter_add _ (List.range (slabCapacity bs))
    fun k => decide (k ∈ free)
  rw [hperm.length_eq, List.length_range] at hsplit
  have hused := h.usedCount
  have hnot : (fun k => !decide (k ∈ free)) = fun k => decide (k ∉ free) := by
    funext k
    exact decide_not.symm
  rw [hnot] at hsplit
  omega

theorem listUsed_spec (hchain : Chain (Slab.next m) head l) (hbound : l.length < bound) :
    listUsed m bound head = .ok (l.any fun p => decide (Slab.usedCount m p ≠ 0)) := by
  induction l generalizing head bound with
  | nil =>
    cases bound with
    | zero => cases hbound
    | succ bound =>
      have hzero : head = 0 := hchain
      rw [listUsed, if_pos hzero, List.any_nil]
  | cons p l ih =>
    obtain ⟨rfl, hne, hrest⟩ := hchain
    cases bound with
    | zero => cases hbound
    | succ bound =>
      rw [listUsed, if_neg hne, List.any_cons]
      by_cases hused : Slab.usedCount m head = 0
      · rw [if_neg (by simp [hused]), ih hrest (Nat.lt_of_succ_lt_succ hbound)]
        simp [hused]
      · rw [if_pos hused]
        simp [hused]

theorem PoolShape.anyUsed_spec (h : PoolShape s L) (classes : List Nat)
    (hclasses : ∀ i ∈ classes, i < blockSizes.length) :
    anyUsed s classes =
      .ok (classes.any fun i => (L.slabs i).any fun p => decide (Slab.usedCount s.memory p ≠ 0)) := by
  induction classes with
  | nil => rfl
  | cons i rest ih =>
    have hi := hclasses i List.mem_cons_self
    have hchain := h.chains i hi
    have hlist := listUsed_spec hchain (h.length_lt _ hchain.nodup fun p hp => ⟨_, .slab hi hp⟩)
    rw [anyUsed, hlist, List.any_cons, ih fun j hj => hclasses j (List.mem_cons_of_mem _ hj)]
    simp only [bind, Except.bind]
    cases (L.slabs i).any fun p => decide (Slab.usedCount s.memory p ≠ 0) with
    | false => rfl
    | true => rfl

theorem addSlabs_spec (hchain : Chain (Slab.next m) head l) (hbound : l.length < bound)
    (hr : r.liveObjects < 2 ^ 64) :
    ∃ r', addSlabs m bound head r = .ok r' ∧
      r'.liveObjects = (r.liveObjects + (l.map (Slab.usedCount m)).sum) % 2 ^ 64 := by
  induction l generalizing head bound r with
  | nil =>
    cases bound with
    | zero => cases hbound
    | succ bound =>
      have hzero : head = 0 := hchain
      refine ⟨r, ?_, ?_⟩
      · rw [addSlabs, if_pos hzero]
      · rw [List.map_nil, List.sum_nil, Nat.add_zero, Nat.mod_eq_of_lt hr]
  | cons p l ih =>
    obtain ⟨rfl, hne, hrest⟩ := hchain
    cases bound with
    | zero => cases hbound
    | succ bound =>
      rw [addSlabs, if_neg hne]
      obtain ⟨r', heq, hlive⟩ := @ih bound _ { r with
          liveObjects := (sizeAdd r.liveObjects (Slab.usedCount m head)).value
          slabCount := (sizeAdd r.slabCount 1).value
          mappedBytes := (sizeAdd r.mappedBytes slabSize).value } hrest
        (Nat.lt_of_succ_lt_succ hbound) (Nat.mod_lt _ (by decide))
      refine ⟨r', heq, hlive.trans ?_⟩
      rw [List.map_cons, List.sum_cons, ← Nat.add_assoc]
      exact Nat.mod_add_mod ..

theorem addLarges_spec (hchain : Chain (Large.next m) head l) (hbound : l.length < bound)
    (hr : r.liveObjects < 2 ^ 64) :
    ∃ r', addLarges m bound head r = .ok r' ∧
      r'.liveObjects = (r.liveObjects + l.length) % 2 ^ 64 := by
  induction l generalizing head bound r with
  | nil =>
    cases bound with
    | zero => cases hbound
    | succ bound =>
      have hzero : head = 0 := hchain
      refine ⟨r, ?_, ?_⟩
      · rw [addLarges, if_pos hzero]
      · rw [List.length_nil, Nat.add_zero, Nat.mod_eq_of_lt hr]
  | cons p l ih =>
    obtain ⟨rfl, hne, hrest⟩ := hchain
    cases bound with
    | zero => cases hbound
    | succ bound =>
      rw [addLarges, if_neg hne]
      obtain ⟨r', heq, hlive⟩ := @ih bound _ { r with
          liveObjects := (sizeAdd r.liveObjects 1).value
          largeCount := (sizeAdd r.largeCount 1).value
          mappedBytes := (sizeAdd r.mappedBytes (Large.mappingSize m head)).value } hrest
        (Nat.lt_of_succ_lt_succ hbound) (Nat.mod_lt _ (by decide))
      refine ⟨r', heq, hlive.trans ?_⟩
      rw [List.length_cons, Nat.add_comm l.length, ← Nat.add_assoc]
      exact Nat.mod_add_mod ..

theorem unmapList_spec (h : PoolShape s L) (hi : i < blockSizes.length)
    (hbound : (L.slabs i).length < bound) (os : Os) :
    ∃ result s' L', unmapList os i bound s = .ok (result, s') ∧ PoolShape s' L' ∧ SameMode s s' ∧
      s'.largeRegions = s.largeRegions ∧ L'.large = L.large ∧ L'.free = L.free ∧
      (∀ j, ∀ p ∈ L'.slabs j, p ∈ L.slabs j) ∧ (∀ j ≠ i, L'.slabs j = L.slabs j) ∧
      (result = 0 ∧ L'.slabs i = [] ∨ result = -1 ∧ ∃ p, os.munmap p slabSize = false) := by
  induction bound generalizing s L with
  | zero => cases hbound
  | succ bound ih =>
    have hchain := h.chains i hi
    rw [unmapList]
    by_cases hnone : s.slabs i = 0
    · rw [if_pos hnone]
      exact ⟨0, s, L, rfl, h, ⟨rfl, rfl⟩, rfl, rfl, rfl, fun _ _ hp => hp, fun _ _ => rfl,
        .inl ⟨rfl, hchain.eq_nil_iff.mp hnone⟩⟩
    · rw [if_neg hnone]
      by_cases hunmap : os.munmap (s.slabs i) slabSize = true
      · have hdrop := h.dropSlab hi hnone
        have hshorter : ((L.dropSlab i).slabs i).length < bound := by
          have htail : (L.dropSlab i).slabs i = (L.slabs i).tail := Function.update_self ..
          rw [htail, List.length_tail]
          have hpos : L.slabs i ≠ [] := fun hnil => hnone (hchain.eq_nil_iff.mpr hnil)
          have := List.length_pos_of_ne_nil hpos
          omega
        obtain ⟨result, s', L', heq, hshape, hmode, hlarge, hlarges, hfree, hsub, hother, hend⟩ :=
          ih hdrop hshorter
        refine ⟨result, s', L', ?_, hshape, ⟨hmode.initialized, hmode.backend⟩, hlarge, hlarges,
          hfree, fun j p hp => Layout.mem_dropSlab (hsub j p hp), fun j hj => ?_, hend⟩
        · simp only [Allocator.munmap, hunmap, if_true]
          exact heq
        · exact (hother j hj).trans (Function.update_of_ne hj ..)
      · have hfalse : os.munmap (s.slabs i) slabSize = false := by simpa using hunmap
        refine ⟨-1, s, L, ?_, h, ⟨rfl, rfl⟩, rfl, rfl, rfl, fun _ _ hp => hp, fun _ _ => rfl,
          .inr ⟨rfl, _, hfalse⟩⟩
        simp only [Allocator.munmap, hfalse, Bool.false_eq_true, if_false]

theorem unmapClasses_spec (h : PoolShape s L) (classes : List Nat)
    (hclasses : ∀ i ∈ classes, i < blockSizes.length) (os : Os) :
    ∃ result s' L', unmapClasses os classes s = .ok (result, s') ∧ PoolShape s' L' ∧ SameMode s s' ∧
      s'.largeRegions = s.largeRegions ∧ L'.large = L.large ∧ L'.free = L.free ∧
      (∀ j, ∀ p ∈ L'.slabs j, p ∈ L.slabs j) ∧
      (result = 0 ∧ (∀ i ∈ classes, L'.slabs i = []) ∨
        result = -1 ∧ ∃ p, os.munmap p slabSize = false) := by
  induction classes generalizing s L with
  | nil =>
    exact ⟨0, s, L, rfl, h, ⟨rfl, rfl⟩, rfl, rfl, rfl, fun _ _ hp => hp, .inl ⟨rfl, by simp⟩⟩
  | cons i rest ih =>
    have hi := hclasses i List.mem_cons_self
    have hchain := h.chains i hi
    obtain ⟨result, s₁, L₁, heq, h₁, hmode, hlarge, hlarges, hfree, hsub, -, hend⟩ :=
      unmapList_spec h hi (h.length_lt _ hchain.nodup fun p hp => ⟨_, .slab hi hp⟩) os
    rw [unmapClasses, heq]
    simp only [bind, Except.bind]
    obtain ⟨rfl, hempty⟩ | ⟨rfl, hfail⟩ := hend
    · simp only [ne_eq, not_true_eq_false, if_false]
      obtain ⟨result, s₂, L₂, heq₂, h₂, hmode₂, hlarge₂, hlarges₂, hfree₂, hsub₂, hend₂⟩ :=
        ih h₁ fun j hj => hclasses j (List.mem_cons_of_mem _ hj)
      refine ⟨result, s₂, L₂, heq₂, h₂, hmode.trans hmode₂, hlarge₂.trans hlarge,
        hlarges₂.trans hlarges, hfree₂.trans hfree, fun j p hp => hsub j p (hsub₂ j p hp),
        hend₂.imp_left fun hdone => ⟨hdone.1, fun j hj => ?_⟩⟩
      obtain rfl | hj := List.mem_cons.mp hj
      · refine List.eq_nil_iff_forall_not_mem.mpr fun p hp => ?_
        have := hsub₂ j p hp
        rw [hempty] at this
        cases this
      · exact hdone.2 j hj
    · refine ⟨-1, s₁, L₁, by simp, h₁, hmode, hlarge, hlarges, hfree, hsub, .inr ⟨rfl, hfail⟩⟩

end

end KvStore
