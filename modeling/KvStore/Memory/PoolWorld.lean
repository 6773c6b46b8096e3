import KvStore.Memory.PoolRuns

/-!
# The pool and its clients

The world is the allocator together with the blocks its clients hold. In every
world that calls can lead to, whatever the system answers and whatever clients
write into their blocks, the pool knows exactly which blocks are held.
-/

namespace KvStore

open Lib

structure Object where
  ptr : Nat
  requested : Nat
  size : Nat
  deriving DecidableEq

structure World where
  alloc : Allocator
  live : List Object

def Allocator.blockRoom (s : Allocator) (ptr : Nat) : Nat :=
  let start := regionStart ptr
  if Slab.kind s.memory start = regionSlab then Slab.blockSize s.memory start
  else Large.mappingSize s.memory start - largeHeaderSize

inductive World.Step : World → World → Prop
  | init (w : World) : Step w { w with alloc := (kvsAllocatorInit .pool w.alloc).2 }
  | alloc (w : World) (os : Os) (size ptr : Nat) (s' : Allocator) (hos : os.InSpace)
      (hfresh : os.Fresh w.alloc) (h : kvsAllocatorAlloc os size w.alloc = .ok (ptr, s')) :
      Step w ⟨s', if ptr = 0 then w.live else ⟨ptr, size, s'.blockRoom ptr⟩ :: w.live⟩
  | free (w : World) (os : Os) (o : Object) (s' : Allocator) (ho : o ∈ w.live)
      (h : kvsAllocatorFree os o.ptr w.alloc = .ok s') : Step w ⟨s', w.live.erase o⟩
  | write (w : World) (o : Object) (a : Nat) (byte : UInt8) (ho : o ∈ w.live) (hle : o.ptr ≤ a)
      (hlt : a < o.ptr + o.size) :
      Step w { w with alloc.memory := Function.update w.alloc.memory a byte }
  | destroy (w : World) (os : Os) (result : Int) (s' : Allocator)
      (h : kvsAllocatorDestroy os w.alloc = .ok (result, s')) : Step w { w with alloc := s' }

/-- The worlds that calls lead to from the start of the process. -/
inductive World.Reachable : World → Prop
  | start (memory : Memory) (mapped : Nat → Bool) : Reachable ⟨.start memory mapped, []⟩
  | step (h : Reachable w) (hstep : Step w w') : Reachable w'

inductive Allocator.HasSlab (s : Allocator) : Nat → Prop
  | head (hi : i < blockSizes.length) (hne : s.slabs i ≠ 0) : s.HasSlab (s.slabs i)
  | next (hp : s.HasSlab p) (hne : Slab.next s.memory p ≠ 0) : s.HasSlab (Slab.next s.memory p)

inductive Allocator.HasLarge (s : Allocator) : Nat → Prop
  | head (hne : s.largeRegions ≠ 0) : s.HasLarge s.largeRegions
  | next (hp : s.HasLarge p) (hne : Large.next s.memory p ≠ 0) : s.HasLarge (Large.next s.memory p)

/-! ## The invariant -/

structure World.Inv (w : World) (L : Layout) : Prop where
  shape : PoolShape w.alloc L
  nodup : (w.live.map Object.ptr).Nodup
  held : ∀ o ∈ w.live, L.Holds o.ptr o.size ∧ o.requested ≤ o.size
  live : ∀ q n, L.Holds q n → ∃ o ∈ w.live, o.ptr = q
  mode : w.alloc.initialized = true → w.alloc.backend = .pool
  idle : w.alloc.initialized = false →
    (∀ i < blockSizes.length, L.slabs i = []) ∧ L.large = []

section
variable {w w' : World} {L L' : Layout} {s s' : Allocator} {os : Os} {o : Object}
  {p q n a i k : Nat}

theorem World.Inv.start (memory : Memory) (mapped : Nat → Bool) :
    World.Inv ⟨.start memory mapped, []⟩ ⟨fun _ => [], fun _ => [], [], fun _ => 0⟩ := by
  have hregion : ∀ {p n}, ¬Layout.Region ⟨fun _ => [], fun _ => [], [], fun _ => 0⟩ p n := by
    rintro p n (⟨-, hp⟩ | hp)
    · cases hp
    · cases hp
  refine ⟨⟨fun _ _ => rfl, fun _ _ _ hp => absurd hp List.not_mem_nil, rfl,
    fun _ hp => absurd hp List.not_mem_nil, fun _ _ hp => absurd hp hregion,
    fun _ _ hp => absurd hp hregion, fun _ _ _ _ hp => absurd hp hregion⟩, List.nodup_nil,
    fun _ ho => absurd ho List.not_mem_nil, ?_, fun h => absurd h Bool.false_ne_true,
    fun _ => ⟨fun _ _ => rfl, rfl⟩⟩
  rintro q n (⟨-, hp, -, -⟩ | hp)
  · cases hp
  · cases hp

theorem PoolShape.blockRoom_eq (h : PoolShape s L) (hq : L.Holds q n) : s.blockRoom q = n := by
  unfold Allocator.blockRoom
  cases hq with
  | @small i p k hi hp hk hused =>
    have hok := h.slabOk i hi p hp
    rw [h.start_block hi hp hk, if_pos hok.kind, hok.blockSize]
  | @large p hp =>
    have hok := h.largeOk p hp
    have hkind : Slab.kind s.memory p = regionLarge := hok.kind
    rw [h.start_large hp, if_neg (by rw [hkind]; decide), hok.mappingSize]

theorem World.Inv.eq_of_ptr (h : w.Inv L) {o o' : Object} (ho : o ∈ w.live) (ho' : o' ∈ w.live)
    (heq : o.ptr = o'.ptr) : o = o' :=
  List.inj_on_of_nodup_map h.nodup ho ho' heq

theorem World.Inv.init (h : w.Inv L) :
    ∃ L', World.Inv { w with alloc := (kvsAllocatorInit .pool w.alloc).2 } L' := by
  unfold kvsAllocatorInit
  by_cases hinit : w.alloc.initialized = true
  · rw [if_pos hinit]
    exact ⟨L, h⟩
  · rw [if_neg hinit]
    obtain ⟨hslabs, hlarge⟩ := h.idle (by simpa using hinit)
    refine ⟨L, ⟨⟨fun i hi => ?_, h.shape.slabOk, h.shape.largeChain, h.shape.largeOk,
      h.shape.inSpace, h.shape.mapped, h.shape.apart⟩, h.nodup, h.held, h.live, fun _ => rfl,
      fun hfalse => absurd hfalse (by simp)⟩⟩
    rw [hslabs i hi]
    rfl

theorem World.Inv.alloc (h : w.Inv L) (hos : os.InSpace) (hfresh : os.Fresh w.alloc)
    {size ptr : Nat} (heq : kvsAllocatorAlloc os size w.alloc = .ok (ptr, s')) :
    ∃ L', World.Inv ⟨s', if ptr = 0 then w.live else ⟨ptr, size, s'.blockRoom ptr⟩ :: w.live⟩ L' := by
  by_cases hidle : w.alloc.initialized = false
  · have hnull : kvsAllocatorAlloc os size w.alloc = .ok (0, w.alloc) := by
      unfold kvsAllocatorAlloc
      rw [if_pos (.inl hidle)]
    rw [hnull] at heq
    obtain ⟨rfl, rfl⟩ := Prod.mk.inj (Except.ok.inj heq)
    exact ⟨L, by rw [if_pos rfl]; exact h⟩
  · obtain ⟨ptr', s'', L', heq', hshape, hmode, hgives⟩ :=
      kvsAllocatorAlloc_spec h.shape hos hfresh h.mode size
    rw [heq'] at heq
    obtain ⟨rfl, rfl⟩ := Prod.mk.inj (Except.ok.inj heq)
    have hmode' : s''.initialized = true → s''.backend = .pool := by
      rw [hmode.initialized, hmode.backend]
      exact h.mode
    have hidle' : s''.initialized = false →
        (∀ i < blockSizes.length, L'.slabs i = []) ∧ L'.large = [] := by
      rw [hmode.initialized]
      exact fun hfalse => absurd hfalse hidle
    obtain ⟨rfl, hholds⟩ | ⟨hpos, room, hroom, hnew, hholds⟩ := hgives
    · rw [if_pos rfl]
      refine ⟨L', hshape, h.nodup, fun o ho => ?_, fun q n hq => ?_, hmode', hidle'⟩
      · obtain ⟨hheld, hle⟩ := h.held o ho
        exact ⟨(hholds _ _).mpr hheld, hle⟩
      · exact h.live q n ((hholds q n).mp hq)
    · rw [if_neg hpos]
      have hnewHeld : L'.Holds ptr' room := (hholds _ _).mpr (.inr ⟨rfl, rfl⟩)
      have hroomEq := hshape.blockRoom_eq hnewHeld
      refine ⟨L', hshape, ?_, fun o ho => ?_, fun q n hq => ?_, hmode', hidle'⟩
      · refine List.nodup_cons.mpr ⟨fun hmem => ?_, h.nodup⟩
        obtain ⟨o, ho, hptr⟩ := List.mem_map.mp hmem
        have hheld := (h.held o ho).1
        rw [show o.ptr = ptr' from hptr] at hheld
        exact hnew o.size hheld
      · obtain rfl | ho := List.mem_cons.mp ho
        · rw [hroomEq]
          exact ⟨hnewHeld, hroom⟩
        · obtain ⟨hheld, hle⟩ := h.held o ho
          exact ⟨(hholds _ _).mpr (.inl hheld), hle⟩
      · obtain hold | ⟨rfl, -⟩ := (hholds q n).mp hq
        · obtain ⟨o, ho, hptr⟩ := h.live q n hold
          exact ⟨o, List.mem_cons_of_mem _ ho, hptr⟩
        · exact ⟨_, List.mem_cons_self, rfl⟩

theorem Layout.not_holds (hslabs : ∀ i < blockSizes.length, L.slabs i = []) (hlarge : L.large = []) :
    ¬L.Holds q n := by
  intro hq
  cases hq with
  | @small i p k hi hp =>
    rw [hslabs i hi] at hp
    cases hp
  | large hp =>
    rw [hlarge] at hp
    cases hp

theorem World.Inv.initialized_of_mem (h : w.Inv L) (ho : o ∈ w.live) :
    w.alloc.initialized = true := by
  by_contra hinit
  obtain ⟨hslabs, hlarge⟩ := h.idle (by simpa using hinit)
  exact Layout.not_holds hslabs hlarge (h.held o ho).1

theorem World.Inv.mem_erase (h : w.Inv L) {o' : Object} (ho : o ∈ w.live) :
    o' ∈ w.live.erase o ↔ o' ∈ w.live ∧ o'.ptr ≠ o.ptr := by
  rw [(List.Nodup.of_map _ h.nodup).mem_erase_iff]
  constructor
  · rintro ⟨hne, ho'⟩
    exact ⟨ho', fun heq => hne (h.eq_of_ptr ho' ho heq)⟩
  · rintro ⟨ho', hne⟩
    exact ⟨fun heq => hne (by rw [heq]), ho'⟩

theorem World.Inv.free (h : w.Inv L) (ho : o ∈ w.live)
    (heq : kvsAllocatorFree os o.ptr w.alloc = .ok s') :
    ∃ L', World.Inv ⟨s', w.live.erase o⟩ L' := by
  have hinit := h.initialized_of_mem ho
  obtain ⟨s'', L', heq', hshape, hmode, hholds⟩ | ⟨habort, -⟩ :=
    kvsAllocatorFree_spec h.shape (h.held o ho).1 hinit (h.mode hinit) os
  · rw [heq'] at heq
    obtain rfl := Except.ok.inj heq
    refine ⟨L', hshape, ?_, fun o' ho' => ?_, fun q n hq => ?_, ?_, ?_⟩
    · exact h.nodup.sublist (List.erase_sublist.map _)
    · obtain ⟨hmem, hne⟩ := (h.mem_erase ho).mp ho'
      obtain ⟨hheld, hle⟩ := h.held o' hmem
      exact ⟨(hholds _ _).mpr ⟨hheld, hne⟩, hle⟩
    · obtain ⟨hold, hne⟩ := (hholds q n).mp hq
      obtain ⟨o', ho', rfl⟩ := h.live q n hold
      exact ⟨o', (h.mem_erase ho).mpr ⟨ho', hne⟩, rfl⟩
    · rw [hmode.initialized, hmode.backend]
      exact h.mode
    · rw [hmode.initialized, hinit]
      exact fun hfalse => absurd hfalse (by decide)
  · rw [habort] at heq
    cases heq

theorem World.Inv.write (h : w.Inv L) (ho : o ∈ w.live) (hle : o.ptr ≤ a)
    (hlt : a < o.ptr + o.size) (byte : UInt8) :
    World.Inv { w with alloc.memory := Function.update w.alloc.memory a byte } L := by
  refine ⟨h.shape.frame rfl rfl (fun b hb => ?_) fun b hb => hb, h.nodup, h.held, h.live, h.mode,
    h.idle⟩
  have haway := h.shape.holds_reserved (h.held o ho).1 hb
  exact Function.update_of_ne (by omega) ..

theorem SlabOk.used_iff {m : Memory} {slab bs : Nat} {free : List Nat} (h : SlabOk m slab bs free) :
    Slab.usedCount m slab ≠ 0 ↔ ∃ k < slabCapacity bs, k ∉ free := by
  rw [h.usedCount_eq, ← Nat.pos_iff_ne_zero, List.length_pos_iff_exists_mem]
  constructor
  · rintro ⟨k, hk⟩
    obtain ⟨hrange, hfree⟩ := List.mem_filter.mp hk
    exact ⟨k, List.mem_range.mp hrange, of_decide_eq_true hfree⟩
  · rintro ⟨k, hk, hfree⟩
    exact ⟨k, List.mem_filter.mpr ⟨List.mem_range.mpr hk, decide_eq_true hfree⟩⟩

theorem mem_sizeClasses : i ∈ sizeClasses ↔ i < blockSizes.length := List.mem_range

theorem World.Inv.live_nil (h : w.Inv L) (hnone : ∀ q n, ¬L.Holds q n) : w.live = [] :=
  List.eq_nil_iff_forall_not_mem.mpr fun o ho => hnone _ _ (h.held o ho).1

theorem World.Inv.destroy (h : w.Inv L) (os : Os) :
    ∃ result s', kvsAllocatorDestroy os w.alloc = .ok (result, s') ∧
      (∃ L', World.Inv { w with alloc := s' } L') ∧
      (result = 0 ∧ w.live = [] ∨ result = -1 ∧ w.live ≠ [] ∧ s' = w.alloc ∨
        result = -1 ∧ w.live = [] ∧ ∃ p, os.munmap p slabSize = false) := by
  unfold kvsAllocatorDestroy
  by_cases hinit : w.alloc.initialized = false
  · obtain ⟨hslabs, hlarge⟩ := h.idle hinit
    rw [if_pos hinit]
    exact ⟨0, w.alloc, rfl, ⟨L, h⟩, .inl ⟨rfl, h.live_nil fun _ _ => Layout.not_holds hslabs hlarge⟩⟩
  rw [if_neg hinit]
  by_cases hlarge : w.alloc.largeRegions = 0
  · rw [if_neg (by simp [hlarge])]
    have hnolarge : L.large = [] := (h.shape.largeChain.chain.eq_nil_iff).mp hlarge
    have hused := h.shape.anyUsed_spec sizeClasses fun i hi => mem_sizeClasses.mp hi
    unfold poolDestroy
    rw [hused]
    simp only [bind, Except.bind]
    cases hany : sizeClasses.any fun i => (L.slabs i).any fun p =>
        decide (Slab.usedCount w.alloc.memory p ≠ 0) with
    | true =>
      refine ⟨-1, w.alloc, rfl, ⟨L, h⟩, .inr (.inl ⟨rfl, ?_, rfl⟩)⟩
      obtain ⟨i, hi, hslab⟩ := List.any_eq_true.mp hany
      obtain ⟨p, hp, hcount⟩ := List.any_eq_true.mp hslab
      have hi := mem_sizeClasses.mp hi
      obtain ⟨k, hk, hfree⟩ := (h.shape.slabOk i hi p hp).used_iff.mp (of_decide_eq_true hcount)
      obtain ⟨o, ho, -⟩ := h.live _ _ (.small hi hp hk hfree)
      exact List.ne_nil_of_mem ho
    | false =>
      have hnone : ∀ q n, ¬L.Holds q n := by
        intro q n hq
        cases hq with
        | @small i p k hi hp hk hfree =>
          have hcount := (h.shape.slabOk i hi p hp).used_iff.mpr ⟨k, hk, hfree⟩
          have hyes : (sizeClasses.any fun i => (L.slabs i).any fun p =>
              decide (Slab.usedCount w.alloc.memory p ≠ 0)) = true :=
            List.any_eq_true.mpr ⟨i, mem_sizeClasses.mpr hi, List.any_eq_true.mpr
              ⟨p, hp, decide_eq_true hcount⟩⟩
          rw [hany] at hyes
          cases hyes
        | @large p hp =>
          rw [hnolarge] at hp
          cases hp
      have hlive := h.live_nil hnone
      obtain ⟨result, s', L', heq, hshape, hmode, -, hlarges, hfree, hsub, hend⟩ :=
        unmapClasses_spec h.shape sizeClasses (fun i hi => mem_sizeClasses.mp hi) os
      have hnone' : ∀ q n, ¬L'.Holds q n := by
        intro q n hq
        cases hq with
        | @small i p k hi hp hk hused =>
          rw [hfree] at hused
          exact hnone _ _ (.small hi (hsub i p hp) hk hused)
        | @large p hp =>
          rw [hlarges, hnolarge] at hp
          cases hp
      simp only [Bool.false_eq_true, if_false, heq]
      have hheld : ∀ o ∈ w.live, L'.Holds o.ptr o.size ∧ o.requested ≤ o.size := by
        rw [hlive]
        exact fun o ho => absurd ho List.not_mem_nil
      obtain ⟨rfl, hempty⟩ | ⟨rfl, hfail⟩ := hend
      · refine ⟨0, { s' with initialized := false }, by simp, ⟨L', ?_⟩, .inl ⟨rfl, hlive⟩⟩
        exact ⟨⟨hshape.chains, hshape.slabOk, hshape.largeChain, hshape.largeOk, hshape.inSpace,
          hshape.mapped, hshape.apart⟩, h.nodup, hheld, fun q n hq => absurd hq (hnone' q n),
          fun hfalse => absurd hfalse Bool.false_ne_true,
          fun _ => ⟨fun i hi => hempty i (mem_sizeClasses.mpr hi), hlarges.trans hnolarge⟩⟩
      · refine ⟨-1, s', by simp, ⟨L', ?_⟩, .inr (.inr ⟨rfl, hlive, hfail⟩)⟩
        refine ⟨hshape, h.nodup, hheld, fun q n hq => absurd hq (hnone' q n), ?_, ?_⟩
        · rw [hmode.initialized, hmode.backend]
          exact h.mode
        · rw [hmode.initialized]
          exact fun hfalse => absurd hfalse hinit
  · rw [if_pos hlarge]
    refine ⟨-1, w.alloc, rfl, ⟨L, h⟩, .inr (.inl ⟨rfl, ?_, rfl⟩)⟩
    obtain ⟨p, rest, hl⟩ := List.exists_cons_of_ne_nil fun hnil =>
      hlarge (h.shape.largeChain.chain.eq_nil_iff.mpr hnil)
    obtain ⟨o, ho, -⟩ := h.live _ _ (.large (hl ▸ List.mem_cons_self))
    exact List.ne_nil_of_mem ho

theorem World.Inv.step (h : w.Inv L) (hstep : w.Step w') : ∃ L', w'.Inv L' := by
  cases hstep with
  | init => exact h.init
  | alloc os size ptr s' hos hfresh heq => exact h.alloc hos hfresh heq
  | free os o s' ho heq => exact h.free ho heq
  | write o a byte ho hle hlt => exact ⟨L, h.write ho hle hlt byte⟩
  | destroy os result s' heq =>
    obtain ⟨result', s'', heq', hinv, -⟩ := h.destroy os
    rw [heq'] at heq
    obtain ⟨-, rfl⟩ := Prod.mk.inj (Except.ok.inj heq)
    exact hinv

/-- The invariant of every run. -/
theorem World.Reachable.inv (h : w.Reachable) : ∃ L, w.Inv L := by
  induction h with
  | start memory mapped => exact ⟨_, .start memory mapped⟩
  | step _ hstep ih =>
    obtain ⟨L, hinv⟩ := ih
    exact hinv.step hstep

/-! ## Invalid frees -/

theorem PoolShape.mem_of_hasSlab (h : PoolShape s L) (hp : s.HasSlab p) :
    ∃ i < blockSizes.length, p ∈ L.slabs i := by
  induction hp with
  | @head i hi hne => exact ⟨i, hi, (h.chains i hi).head_mem hne⟩
  | next _ hne ih =>
    obtain ⟨i, hi, hp⟩ := ih
    exact ⟨i, hi, (h.chains i hi).next_mem hp hne⟩

theorem PoolShape.mem_of_hasLarge (h : PoolShape s L) (hp : s.HasLarge p) : p ∈ L.large := by
  induction hp with
  | head hne => exact h.largeChain.chain.head_mem hne
  | next _ hne ih => exact h.largeChain.chain.next_mem ih hne

theorem World.Inv.live_block (h : w.Inv L) (hi : i < blockSizes.length) (hp : p ∈ L.slabs i)
    (hk : k < slabCapacity (blockSizeOf i)) :
    blockAt p (blockSizeOf i) k ∈ w.live.map Object.ptr ↔ k ∉ L.free p := by
  constructor
  · intro hmem hfree
    obtain ⟨o, ho, hptr⟩ := List.mem_map.mp hmem
    have hheld := (h.held o ho).1
    rw [hptr] at hheld
    have hpos := h.shape.holds_pos hheld
    have hbs := (blockSizeOf_fits i hi).large
    have haway := h.shape.holds_reserved hheld
      (.free hi hp hfree le_rfl (by omega) : L.Reserved (blockAt p (blockSizeOf i) k))
    omega
  · intro hused
    obtain ⟨o, ho, hptr⟩ := h.live _ _ (.small hi hp hk hused)
    exact List.mem_map.mpr ⟨o, ho, hptr⟩

theorem World.Inv.block_of_mem (h : w.Inv L) (hi : i < blockSizes.length) (hp : p ∈ L.slabs i)
    (ho : o ∈ w.live) (hle : p ≤ o.ptr) (hlt : o.ptr < p + slabSize) :
    ∃ k < slabCapacity (blockSizeOf i), k ∉ L.free p ∧ o.ptr = blockAt p (blockSizeOf i) k ∧
      o.size = blockSizeOf i := by
  have hspace := h.shape.inSpace p _ (.slab hi hp)
  have hstart : regionStart o.ptr = p := regionStart_eq hspace.1 hle hlt (by omega)
  have hheld := (h.held o ho).1
  generalize o.ptr = q at hheld hstart
  generalize o.size = n at hheld
  cases hheld with
  | @small j r c hj hr hc hused =>
    rw [h.shape.start_block hj hr hc] at hstart
    subst hstart
    obtain rfl := h.shape.class_unique hi hj hp hr
    exact ⟨c, hc, hused, rfl, rfl⟩
  | @large r hr =>
    rw [h.shape.start_large hr] at hstart
    exact absurd (hstart ▸ hr) (h.shape.not_large hi hp)

theorem kvsAllocatorAlloc_first {size : Nat} (hinit : s.initialized = true)
    (hmode : s.backend = .pool) (hpos : size ≠ 0) (hle : size ≤ largestBlock)
    (hclass : findSizeClass size = some i)
    (hfull : skipFull s.memory listBound (s.slabs i) = .ok 0)
    (hnew : (slabCreate os (blockSizeOf i) s).1 ≠ 0) :
    ∃ ptr s', kvsAllocatorAlloc os size s = .ok (ptr, s') ∧
      s'.slabs i = (slabCreate os (blockSizeOf i) s).1 := by
  unfold kvsAllocatorAlloc poolAllocSmall
  rw [if_neg (by simp [hinit, hpos]), hmode]
  simp only [gt_iff_lt, not_lt_of_ge hle, if_false, if_neg hpos, hclass, hfull, bind, Except.bind,
    if_true, if_neg hnew]
  exact ⟨_, _, rfl, Function.update_self ..⟩

/-- In every state, freeing an address of a slab succeeds exactly for the blocks
that are held; any other address is refused and nothing changes. -/
theorem poolFreeSmall_exact (h : w.Reachable) (hp : w.alloc.HasSlab p) (hle : p ≤ a)
    (hlt : a < p + slabSize) :
    ((poolFreeSmall w.alloc.memory a).1 = 0 ↔ a ∈ w.live.map Object.ptr) ∧
      (a ∉ w.live.map Object.ptr →
        poolFreeSmall w.alloc.memory a = (-1, w.alloc.memory)) := by
  obtain ⟨L, hinv⟩ := h.inv
  obtain ⟨i, hi, hmem⟩ := hinv.shape.mem_of_hasSlab hp
  have hfit := blockSizeOf_fits i hi
  have hok := hinv.shape.slabOk i hi p hmem
  have hspace := hinv.shape.inSpace p _ (.slab hi hmem)
  have hrefused : a ∉ w.live.map Object.ptr →
      poolFreeSmall w.alloc.memory a = (-1, w.alloc.memory) := by
    intro hdead
    refine poolFreeSmall_refused hok hfit hspace.1 hspace.2.1 hspace.2.2 hle hlt ?_
    rintro k hk hused rfl
    exact hdead ((hinv.live_block hi hmem hk).mpr hused)
  refine ⟨⟨fun hzero => ?_, fun hlive => ?_⟩, hrefused⟩
  · by_contra hdead
    rw [hrefused hdead] at hzero
    cases hzero
  · obtain ⟨o, ho, rfl⟩ := List.mem_map.mp hlive
    obtain ⟨k, hk, hused, hptr, -⟩ := hinv.block_of_mem hi hmem ho hle hlt
    rw [hptr]
    exact (poolFreeSmall_spec hok hfit hspace.1 hspace.2.2 hk hused).1

/-- The first slab of the 32-byte class, and its own address. -/
theorem poolFreeSmall_exact_header : ∃ (w : World) (p : Nat), w.Reachable ∧ w.alloc.HasSlab p ∧
    ((poolFreeSmall w.alloc.memory p).1 = 0 ↔ p ∈ w.live.map Object.ptr) ∧
    (p ∉ w.live.map Object.ptr → poolFreeSmall w.alloc.memory p = (-1, w.alloc.memory)) := by
  have hinit : World.Reachable
      ⟨(kvsAllocatorInit .pool (.start (fun _ => 0) fun _ => false)).2, []⟩ :=
    .step (.start _ _) (.init _)
  have hcreate : (slabCreate plainOs (blockSizeOf 1)
      (kvsAllocatorInit .pool (.start (fun _ => 0) fun _ => false)).2).1 = 0x7f1234570000 := by
    decide +kernel
  obtain ⟨ptr, s', hstep, hslab⟩ := @kvsAllocatorAlloc_first _ plainOs 1 25 rfl rfl (by decide)
    (by decide) (by decide) rfl (by rw [hcreate]; decide)
  have hreach := World.Reachable.step hinit (.alloc _ plainOs 25 ptr s' plainOs_inSpace
    (fun _ _ _ _ _ _ => rfl) hstep)
  have hhas : s'.HasSlab (s'.slabs 1) := .head (by decide) (by rw [hslab, hcreate]; decide)
  exact ⟨_, _, hreach, hhas, poolFreeSmall_exact hreach hhas le_rfl
    (Nat.lt_add_of_pos_right (by decide))⟩

end

end KvStore
