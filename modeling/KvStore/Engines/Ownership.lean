import KvStore.Engines.Array
import KvStore.Engines.Hash
import KvStore.Engines.Runs
import KvStore.Memory.Ledger

/-!
# What an engine owns

`Owns inst n m blocks` says of an engine that it holds the map `m` and that its
blocks are those of the list. `Owning` states for every operation how the list
changes: a write that returns 0 takes full effect and leaves the blocks of the
new contents, any other leaves the instance and its blocks as they were, and
`destory` gives all of them back.
-/

namespace KvStore

open Lib

def EngineWrite.effect (m : Contents) : EngineWrite → Option Contents
  | .set key value => some (m.insert key value)
  | .mod key value => if key ∈ m then some (m.insert key value) else none
  | .del key => if key ∈ m then some (m.erase key) else none

section
variable {σ : Type}

/-- What a write leaves, where `others` are the blocks of everyone else. -/
def Settles (Owns : σ → Nat → Contents → List Ptr → Prop) (rt : Runtime) (inst : σ)
    (blocks others : List Ptr) (effect : Option Contents) (r : Int × σ) (rt' : Runtime) : Prop :=
  rt.Extends rt' ∧
    (r.1 = 0 ∧ (∃ m' blocks', effect = some m' ∧ Owns r.2 rt'.mallocs m' blocks' ∧
      rt'.Ledger (blocks' ++ others)) ∨
    r.1 ≠ 0 ∧ r.2 = inst ∧ rt'.Ledger (blocks ++ others))

structure Owning (ops : EngineOps σ) (destory : σ → Run σ)
    (Owns : σ → Nat → Contents → List Ptr → Prop) (admits : Bytes → Prop) (fixed each : Nat) :
    Prop where
  later : Owns inst n m blocks → n ≤ n' → Owns inst n' m blocks
  size : Owns inst n m blocks → blocks.length = fixed + each * m.keys.card
  create : rt.Ledger others → Triple ops.create rt (fun r rt' => rt.Extends rt' ∧
    (r.1 = 0 ∧ (∃ blocks, Owns r.2 rt'.mallocs ∅ blocks ∧ rt'.Ledger (blocks ++ others)) ∨
      r.1 ≠ 0 ∧ rt'.Ledger others)) Never
  set (v : Bytes) : Owns inst rt.mallocs m blocks → rt.Ledger (blocks ++ others) → admits k →
    Triple (ops.set inst k v) rt
      (Settles Owns rt inst blocks others (some (m.insert k v))) Never
  mod (v : Bytes) : Owns inst rt.mallocs m blocks → rt.Ledger (blocks ++ others) → admits k →
    Triple (ops.mod inst k v) rt
      (Settles Owns rt inst blocks others (if k ∈ m then some (m.insert k v) else none)) Never
  del : Owns inst rt.mallocs m blocks → rt.Ledger (blocks ++ others) → admits k →
    Triple (ops.del inst k) rt
      (Settles Owns rt inst blocks others (if k ∈ m then some (m.erase k) else none)) Never
  destory : Owns inst rt.mallocs m blocks → rt.Ledger (blocks ++ others) →
    Triple (destory inst) rt (fun _ rt' => rt'.Ledger others) Never

variable {Owns : σ → Nat → Contents → List Ptr → Prop} {inst inst' : σ} {rt rt' : Runtime}
  {blocks others : List Ptr}

theorem Settles.unchanged (hext : rt.Extends rt') (hc : c ≠ 0) (hl : rt'.Ledger (blocks ++ others)) :
    Settles Owns rt inst blocks others effect (c, inst) rt' :=
  ⟨hext, .inr ⟨hc, rfl, hl⟩⟩

theorem Settles.done (hext : rt.Extends rt') (h : Owns inst' rt'.mallocs m' blocks')
    (hl : rt'.Ledger (blocks' ++ others)) :
    Settles Owns rt inst blocks others (some m') (0, inst') rt' :=
  ⟨hext, .inl ⟨rfl, m', blocks', rfl, h, hl⟩⟩

theorem Owning.write {ops : EngineOps σ} {drop : σ → Run σ}
    (h : Owning ops drop Owns admits fixed each)
    (ho : Owns inst rt.mallocs m blocks) (hl : rt.Ledger (blocks ++ others)) (w : EngineWrite)
    (hk : admits w.key) :
    Triple (ops.write inst w) rt (Settles Owns rt inst blocks others (w.effect m)) Never := by
  cases w with
  | set k v => exact h.set v ho hl hk
  | mod k v => exact h.mod v ho hl hk
  | del k => exact h.del ho hl hk

/-- The account of an engine over whole runs: from the creation on, whatever
memory fails, its blocks are those of its contents, the next write is settled,
and destroying it now would leave the others' blocks only. -/
def Accounted (ops : EngineOps σ) (destory : σ → Run σ)
    (Owns : σ → Nat → Contents → List Ptr → Prop) (admits : Bytes → Prop) (fixed each : Nat) :
    Prop :=
  ∀ (rt : Runtime) (others : List Ptr) (writes : List EngineWrite) (w : EngineWrite),
    rt.Ledger others → (∀ w' ∈ w :: writes, admits w'.key) →
    Triple (ops.runCreated writes) rt (fun r rt₁ =>
      (r = none → rt₁.Ledger others) ∧
      ∀ run, r = some run → ∃ m blocks,
        Owns run.2 rt₁.mallocs m blocks ∧ blocks.length = fixed + each * m.keys.card ∧
        rt₁.Ledger (blocks ++ others) ∧
        Triple (ops.write run.2 w) rt₁ (fun r rt₂ =>
          (r.1 ≠ 0 → r.2 = run.2 ∧ rt₂.Ledger (blocks ++ others)) ∧
          (r.1 = 0 → ∃ m' blocks', w.effect m = some m' ∧ Owns r.2 rt₂.mallocs m' blocks' ∧
            blocks'.length = fixed + each * m'.keys.card ∧ rt₂.Ledger (blocks' ++ others))) Never ∧
        Triple (destory run.2) rt₁ (fun _ rt₂ => rt₂.Ledger others) Never) Never

theorem Owning.accounted {ops : EngineOps σ} {drop : σ → Run σ}
    (h : Owning ops drop Owns admits fixed each) : Accounted ops drop Owns admits fixed each := by
  intro rt others writes w hl hkeys
  have hcreated : Triple (ops.runCreated writes) rt (fun r rt₁ =>
      (r = none → rt₁.Ledger others) ∧ ∀ run, r = some run → ∃ m blocks,
        Owns run.2 rt₁.mallocs m blocks ∧ rt₁.Ledger (blocks ++ others)) Never := by
    refine (h.create hl).bind fun r rt₁ hr => ?_
    refine Triple.ite (fun hc => ?_) fun hc => ?_
    · obtain ⟨-, ⟨hzero, -⟩ | ⟨-, hl₁⟩⟩ := hr
      · exact absurd hzero hc
      · exact Triple.pure ⟨fun _ => hl₁, by simp⟩
    obtain ⟨-, ⟨-, blocks, ho, hl₁⟩ | ⟨hne, -⟩⟩ := hr
    · have hwrite : ∀ inst rt, (∃ m blocks, Owns inst rt.mallocs m blocks ∧
          rt.Ledger (blocks ++ others)) → ∀ w ∈ writes, Triple (ops.write inst w) rt
          (fun r rt' => ∃ m blocks, Owns r.2 rt'.mallocs m blocks ∧ rt'.Ledger (blocks ++ others))
          Never := by
        rintro inst rt ⟨m, blocks, ho, hl⟩ w hw
        refine (h.write ho hl w (hkeys w (by simp [hw]))).weaken ?_
        rintro r rt' ⟨hext, ⟨-, m', blocks', -, ho', hl'⟩ | ⟨-, rfl, hl'⟩⟩
        · exact ⟨m', blocks', ho', hl'⟩
        · exact ⟨m, blocks, h.later ho hext.mallocs, hl'⟩
      refine (EngineOps.runWrites_keeps hwrite ⟨_, blocks, ho, hl₁⟩).bind fun run rt₂ hrun => ?_
      refine Triple.pure ⟨by simp, ?_⟩
      rintro _ ⟨⟩
      exact hrun
    · exact absurd hne hc
  refine hcreated.weaken fun r rt₁ hr => ⟨hr.1, fun run hrun => ?_⟩
  obtain ⟨m, blocks, ho, hl₁⟩ := hr.2 run hrun
  refine ⟨m, blocks, ho, h.size ho, hl₁, ?_, h.destory ho hl₁⟩
  refine (h.write ho hl₁ w (hkeys w (by simp))).weaken ?_
  rintro r rt₂ ⟨hext, ⟨hzero, m', blocks', heffect, ho', hl'⟩ | ⟨hne, hinst, hl'⟩⟩
  · exact ⟨fun hne => absurd hzero hne, fun _ => ⟨m', blocks', heffect, ho', h.size ho', hl'⟩⟩
  · exact ⟨fun _ => ⟨hinst, hl'⟩, fun hzero => absurd hzero hne⟩

end

-- ---------------------------------------------------------------------------
-- The array
-- ---------------------------------------------------------------------------

def KvsArrayItem.blocks (x : KvsArrayItem) : List Ptr :=
  x.key.toList.map CString.ptr ++ x.value.toList.map CString.ptr

def KvsArray.blocks (inst : KvsArray) : List Ptr :=
  inst.table.toList ++ (List.range inst.total).flatMap fun i => (inst.item i).blocks

def ArrayOwns (inst : KvsArray) (n : Nat) (m : Contents) (blocks : List Ptr) : Prop :=
  ArrayHolds inst n m ∧ blocks = inst.blocks

section
variable {inst : KvsArray} {pairs a b : List (Bytes × Bytes)} {k v : Bytes} {rt : Runtime}
  {others : List Ptr}

theorem array_blocks_at (hi : i < inst.total) :
    inst.blocks.Perm ((inst.item i).blocks ++ (inst.table.toList ++
      ((List.range inst.total).erase i).flatMap fun i => (inst.item i).blocks)) := by
  have hslots := flatMap_perm_erase (fun i => (inst.item i).blocks) (List.mem_range.mpr hi)
  refine (hslots.append_left _).trans ?_
  rw [← List.append_assoc, ← List.append_assoc]
  exact List.perm_append_comm.append_right _

theorem array_blocks_setItem (hi : i < inst.total) (x : KvsArrayItem) :
    (inst.setItem i x).blocks.Perm (x.blocks ++ (inst.table.toList ++
      ((List.range inst.total).erase i).flatMap fun i => (inst.item i).blocks)) := by
  have hslots := flatMap_perm_update (f := fun i => (inst.item i).blocks)
    (g := fun j => ((inst.setItem i x).item j).blocks) (List.mem_range.mpr hi) List.nodup_range
    (fun j _ hj => by simp [KvsArray.setItem, hj])
  refine (hslots.append_left _).trans ?_
  rw [← List.append_assoc, ← List.append_assoc]
  refine (List.perm_append_comm.append_right _).trans (List.Perm.of_eq ?_)
  simp [KvsArray.setItem]

theorem array_blocks_push (inst : KvsArray) (ks vs : CString) :
    KvsArray.blocks { inst.setItem inst.total ⟨some ks, some vs⟩ with total := inst.total + 1 } |>.Perm
      (vs.ptr :: ks.ptr :: inst.blocks) := by
  have hslots : (List.range inst.total).flatMap (fun j => KvsArrayItem.blocks
      (if j = inst.total then ⟨some ks, some vs⟩ else inst.item j)) =
      (List.range inst.total).flatMap fun j => (inst.item j).blocks := by
    refine List.flatMap_congr fun j hj => ?_
    rw [if_neg (Nat.ne_of_lt (List.mem_range.mp hj))]
  simp only [KvsArray.blocks, KvsArray.setItem, List.range_succ, List.flatMap_append, hslots,
    List.flatMap_cons, List.flatMap_nil, if_true]
  simp only [KvsArrayItem.blocks, Option.toList_some, List.map_cons, List.map_nil,
    List.perm_iff_count, List.count_append, List.count_cons, List.count_nil]
  intro q
  omega

theorem array_blocks_remove (hi : i < inst.total) :
    inst.blocks.Perm ((inst.item i).blocks ++ KvsArray.blocks
      { (if i ≠ inst.total - 1 then inst.setItem i (inst.item (inst.total - 1)) else inst).setItem
          (inst.total - 1) ⟨none, none⟩ with total := inst.total - 1, idx := i }) := by
  obtain ⟨last, hlast⟩ : ∃ last, inst.total = last + 1 := ⟨inst.total - 1, by omega⟩
  have hcut : inst.blocks = inst.table.toList ++
      ((List.range last).flatMap (fun j => (inst.item j).blocks) ++ (inst.item last).blocks) := by
    simp [KvsArray.blocks, hlast, List.range_succ]
  simp only [hlast, Nat.add_sub_cancel]
  by_cases hil : i = last
  · subst hil
    rw [if_neg (by simp), hcut]
    have hslots : (List.range i).flatMap (fun j => KvsArrayItem.blocks
        (if j = i then ⟨none, none⟩ else inst.item j)) =
        (List.range i).flatMap fun j => (inst.item j).blocks := by
      refine List.flatMap_congr fun j hj => ?_
      rw [if_neg (Nat.ne_of_lt (List.mem_range.mp hj))]
    simp only [KvsArray.blocks, KvsArray.setItem, hslots]
    rw [← List.append_assoc]
    exact List.perm_append_comm
  · have hmem : i ∈ List.range last := List.mem_range.mpr (by omega)
    rw [if_pos hil, hcut]
    have hold := flatMap_perm_erase (fun j => (inst.item j).blocks) hmem
    have hnew := flatMap_perm_update (f := fun j => (inst.item j).blocks)
      (g := fun j => KvsArrayItem.blocks (if j = last then ⟨none, none⟩ else
        if j = i then inst.item last else inst.item j)) hmem List.nodup_range (by
        intro j hj hji
        rw [if_neg (Nat.ne_of_lt (List.mem_range.mp hj)), if_neg hji])
    simp only [hil, if_false, if_true] at hnew
    simp only [KvsArray.blocks, KvsArray.setItem]
    refine ((hold.append_right _).append_left _).trans ?_
    refine List.Perm.trans ?_ ((hnew.symm.append_left _).append_left _)
    simp only [List.perm_iff_count, List.count_append]
    intro q
    omega

theorem kvsArrayMod_owns (h : inst.Stores pairs) (hl : rt.Ledger (inst.blocks ++ others))
    (v : Bytes) :
    Triple (kvsArrayMod inst k v) rt (Settles ArrayOwns rt inst inst.blocks others
      (if k ∈ mapOf pairs then some ((mapOf pairs).insert k v) else none)) Never := by
  obtain ⟨a, w, b, rfl, hsearch⟩ | ⟨hnot, hsearch⟩ := arraySearch_total h k
  · have hmem : k ∈ mapOf (a ++ (k, w) :: b) := mem_mapOf.mpr ⟨w, by simp⟩
    obtain ⟨ks, vs, hkey, hvalue, -, -⟩ := KvsArray.Stores.item h
    have hi : a.length < inst.total := by simp [h.total]
    rw [if_pos hmem]
    simp only [kvsArrayMod, hsearch]
    refine (copyString_ledger hl v).bind fun c rt' hc => ?_
    obtain ⟨hext, ⟨rfl, hl'⟩ | ⟨c, rfl, rfl, hl'⟩⟩ := hc
    · exact Triple.pure (Settles.unchanged hext (by decide) hl')
    · have hold := array_blocks_at hi
      have hnew := array_blocks_setItem hi { inst.item a.length with value := some c }
      simp only [KvsArrayItem.blocks, hkey, hvalue, Option.toList_some, List.map_cons, List.map_nil,
        List.cons_append, List.nil_append] at hold hnew
      have hswap := hl'.swap (hold.trans (List.Perm.swap _ _ _)) (hnew.trans (List.Perm.swap _ _ _))
      rw [hvalue]
      refine (kvsFree_ledger hswap).bind fun _ rt'' hfree => ?_
      refine Triple.pure (Settles.done (hext.trans hfree.1)
        ⟨⟨_, h.replace c, mapOf_replace h.distinct⟩, rfl⟩ ?_)
      simpa [hkey] using hfree.2
  · rw [if_neg hnot]
    simp only [kvsArrayMod, hsearch]
    exact Triple.pure (Settles.unchanged (.refl rt) (by decide) hl)

theorem kvsArraySet_owns (h : inst.Stores pairs) (hl : rt.Ledger (inst.blocks ++ others))
    (v : Bytes) :
    Triple (kvsArraySet inst k v) rt (Settles ArrayOwns rt inst inst.blocks others
      (some ((mapOf pairs).insert k v))) Never := by
  have htable : inst.table.isNone = false := by
    have := h.table
    cases ht : inst.table <;> simp_all
  simp only [kvsArraySet, htable, Bool.false_eq_true, if_false]
  by_cases hk : k ∈ mapOf pairs
  · have hmod := kvsArrayMod_owns (k := k) h hl v
    rw [if_pos hk] at hmod
    refine ((kvsArrayMod_found h hk v).and hmod).bind fun r rt' hr => ?_
    obtain ⟨⟨-, hcode⟩, hsettles⟩ := hr
    have hle : r.1 ≤ 0 := by
      rcases hcode with ⟨hzero, -⟩ | ⟨-, -, hneg, -⟩
      · exact Int.le_of_eq hzero
      · exact Int.le_of_lt hneg
    simp only [hle, if_true]
    exact hsettles
  · rw [kvsArrayMod_missing h hk]
    simp only [pure_bind, show ¬((1 : Int) ≤ 0) by decide, if_false]
    have htotal := h.total
    refine Triple.ite (fun _ => ?_) fun hroom => ?_
    · exact Triple.pure (Settles.unchanged (.refl rt) (by decide) hl)
    refine (copyString_ledger hl k).bind fun c rt1 hc => ?_
    obtain ⟨hext1, ⟨rfl, hl1⟩ | ⟨kcopy, rfl, rfl, hl1⟩⟩ := hc
    · exact Triple.pure (Settles.unchanged hext1 (by decide) hl1)
    refine (copyString_ledger hl1 v).bind fun c rt2 hc => ?_
    obtain ⟨hext2, ⟨rfl, hl2⟩ | ⟨kvalue, rfl, rfl, hl2⟩⟩ := hc
    · refine (kvsFree_ledger hl2).bind fun _ rt3 hfree => ?_
      exact Triple.pure (Settles.unchanged ((hext1.trans hext2).trans hfree.1) (by decide) hfree.2)
    have hhole : arrayHole inst inst.total 0 = inst.total := by
      have := arrayHole_eq (a := []) (b := pairs) h
      simpa [htotal] using this
    have hnew : ∀ p ∈ pairs, p.1 ≠ kcopy.bytes :=
      fun p hp heq => hk (mem_mapOf.mpr ⟨p.2, by rw [← heq]; exact hp⟩)
    have hstored := h.push (v := kvalue) hnew (by omega)
    simp only [hhole, Nat.lt_irrefl, if_false, true_and]
    rw [if_pos (by omega)]
    rw [← htotal] at hstored
    refine Triple.pure (Settles.done (hext1.trans hext2) ⟨⟨_, hstored, ?_⟩, rfl⟩ ?_)
    · exact mapOf_push h.distinct hnew
    · exact hl2.perm ((array_blocks_push inst kcopy kvalue).append_right others).symm

theorem kvsArrayDel_owns (h : inst.Stores pairs) (hl : rt.Ledger (inst.blocks ++ others)) :
    Triple (kvsArrayDel inst k) rt (Settles ArrayOwns rt inst inst.blocks others
      (if k ∈ mapOf pairs then some ((mapOf pairs).erase k) else none)) Never := by
  by_cases hk : k ∈ mapOf pairs
  · rw [if_pos hk]
    have hdel : arrayDelSearch inst k inst.total 0 = pure (arraySearch inst k inst.total 0) := by
      rw [h.total]
      exact arrayDelSearch_eq (a := []) h
    obtain ⟨a, w, b, rfl, hsearch⟩ | ⟨hnot, -⟩ := arraySearch_total h k
    · have hi : a.length < inst.total := by simp [h.total]
      have hl' := hl.perm ((array_blocks_remove hi).append_right others)
      rw [KvsArrayItem.blocks, List.append_assoc, List.append_assoc] at hl'
      simp only [kvsArrayDel, hdel, hsearch, pure_bind]
      refine (freeString_ledger hl').bind fun _ rt1 h1 => ?_
      refine (freeString_ledger h1.2).bind fun _ rt2 h2 => ?_
      obtain ⟨rest, hmem, hstored⟩ := h.remove
      refine Triple.pure (Settles.done (h1.1.trans h2.1) ⟨⟨rest, hstored, ?_⟩, rfl⟩ h2.2)
      exact mapOf_removed h.distinct hstored.distinct hmem
    · exact absurd hk hnot
  · rw [if_neg hk, kvsArrayDel_missing h hk]
    exact Triple.pure (Settles.unchanged (.refl rt) (by decide) hl)

theorem arrayClear_owns (hl : rt.Ledger ((List.range' i left).flatMap (fun j => (inst.item j).blocks)
    ++ others)) :
    Triple (arrayClear left i inst) rt (fun _ rt' => rt'.Ledger others) Never := by
  induction left generalizing i inst rt with
  | zero => exact hl
  | succ left ih =>
    rw [List.range'_succ, List.flatMap_cons, KvsArrayItem.blocks, List.append_assoc,
      List.append_assoc] at hl
    refine (freeString_ledger hl).bind fun _ rt1 h1 => ?_
    refine (freeString_ledger h1.2).bind fun _ rt2 h2 => ?_
    refine ih (h2.2.perm (List.Perm.of_eq ?_))
    congr 1
    refine List.flatMap_congr fun j hj => ?_
    have hne : j ≠ i := by
      rw [List.mem_range'_1] at hj
      omega
    simp [KvsArray.setItem, hne]

end

theorem array_owning : Owning arrayOps kvsArrayDestory ArrayOwns (fun _ => True) 1 2 where
  later h _ := h
  size := by
    rintro inst n m blocks ⟨⟨pairs, h, rfl⟩, rfl⟩
    obtain ⟨table, htable⟩ := Option.isSome_iff_exists.mp h.table
    have hslots : ∀ i ∈ List.range inst.total, ((inst.item i).blocks).length = 2 := by
      intro i hi
      rw [List.mem_range, h.total] at hi
      have hpair := h.pair i hi
      rw [List.getElem?_eq_getElem hi] at hpair
      obtain ⟨ks, vs, hkey, hvalue, -, -⟩ := pair_eq_some hpair
      simp [KvsArrayItem.blocks, hkey, hvalue]
    rw [card_keys_mapOf h.distinct, ← h.total, KvsArray.blocks, htable, List.length_append,
      length_flatMap_const hslots, List.length_range]
    rfl
  create := by
    intro rt others hl
    simp only [arrayOps, kvsArrayCreate, globalArray, Option.isSome_none, Bool.false_eq_true,
      if_false]
    refine (kvsMalloc_ledger hl).bind fun r rt' hr => ?_
    obtain ⟨hext, ⟨rfl, hl'⟩ | ⟨p, rfl, -, -, hl'⟩⟩ := hr
    · exact Triple.pure ⟨hext, .inr ⟨by decide, hl'⟩⟩
    · refine Triple.pure ⟨hext, .inl ⟨rfl, _, ⟨⟨[], ⟨rfl, rfl, Nat.zero_le _, ?_, .nil⟩, rfl⟩, rfl⟩,
        hl'⟩⟩
      exact fun i hi => absurd hi (Nat.not_lt_zero i)
  set := by
    rintro inst rt m blocks others k v ⟨⟨pairs, h, rfl⟩, rfl⟩ hl -
    exact kvsArraySet_owns h hl v
  mod := by
    rintro inst rt m blocks others k v ⟨⟨pairs, h, rfl⟩, rfl⟩ hl -
    exact kvsArrayMod_owns h hl v
  del := by
    rintro inst rt m blocks others k ⟨⟨pairs, h, rfl⟩, rfl⟩ hl -
    exact kvsArrayDel_owns h hl
  destory := by
    rintro inst m blocks rt others ⟨⟨pairs, h, rfl⟩, rfl⟩ hl
    obtain ⟨table, htable⟩ := Option.isSome_iff_exists.mp h.table
    simp only [kvsArrayDestory, htable]
    have hslots : rt.Ledger ((List.range' 0 inst.total).flatMap (fun j => (inst.item j).blocks) ++
        (table :: others)) := by
      refine hl.perm ?_
      rw [KvsArray.blocks, htable, List.range_eq_range']
      exact List.perm_middle.symm
    refine (arrayClear_owns hslots).bind fun inst' rt' hl' => ?_
    exact (kvsFree_ledger hl').bind fun _ rt'' h'' => Triple.pure h''.2

-- ---------------------------------------------------------------------------
-- The hash table
-- ---------------------------------------------------------------------------

def HashNode.blocks (node : HashNode) : List Ptr := [node.key.ptr, node.value.ptr, node.ptr]

def KvsHash.chained (hash : KvsHash) : List HashNode := (List.range hash.maxSlots).flatMap hash.bucket

def KvsHash.blocks (hash : KvsHash) : List Ptr :=
  hash.nodes.toList ++ hash.chained.flatMap HashNode.blocks

def HashOwns (hash : KvsHash) (n : Nat) (m : Contents) (blocks : List Ptr) : Prop :=
  HashHolds hash n m ∧ blocks = hash.blocks

section
variable {hash : KvsHash} {m : Contents} {n i : Nat} {k v : Bytes} {rt : Runtime}
  {others : List Ptr} {nodes before behind : List HashNode}

def KvsHash.elsewhere (hash : KvsHash) (i : Nat) : List Ptr :=
  (((List.range hash.maxSlots).erase i).flatMap hash.bucket).flatMap HashNode.blocks ++
    hash.nodes.toList

theorem hash_blocks_at (hi : i < hash.maxSlots) :
    hash.blocks.Perm ((hash.bucket i).flatMap HashNode.blocks ++ hash.elsewhere i) := by
  have hchained := flatMap_perm_erase hash.bucket (List.mem_range.mpr hi)
  refine List.perm_append_comm.trans ?_
  rw [KvsHash.elsewhere, ← List.append_assoc, ← List.flatMap_append]
  exact (hchained.flatMap_right _).append_right _

theorem hash_blocks_setBucket (hi : i < hash.maxSlots) (nodes : List HashNode) (count : Int) :
    (KvsHash.blocks { hash.setBucket i nodes with count := count }).Perm
      (nodes.flatMap HashNode.blocks ++ hash.elsewhere i) := by
  have hchained := flatMap_perm_update (f := hash.bucket) (g := (hash.setBucket i nodes).bucket)
    (List.mem_range.mpr hi) List.nodup_range (fun j _ hj => by simp [KvsHash.setBucket, hj])
  simp only [KvsHash.setBucket, if_true] at hchained
  refine List.perm_append_comm.trans ?_
  rw [KvsHash.elsewhere, ← List.append_assoc, ← List.flatMap_append]
  exact (hchained.flatMap_right _).append_right _

theorem chain_blocks (before behind : List HashNode) (node : HashNode) :
    ((before ++ node :: behind).flatMap HashNode.blocks).Perm
      (node.blocks ++ (before ++ behind).flatMap HashNode.blocks) := by
  rw [← List.flatMap_cons]
  exact List.perm_middle.flatMap_right _

theorem hash_ledger_replace (hl : rt.Ledger (c.ptr :: (hash.blocks ++ others)))
    (hi : i < hash.maxSlots) (hbucket : hash.bucket i = before ++ node :: behind) :
    rt.Ledger (node.value.ptr ::
      ((hash.setBucket i (before ++ { node with value := c } :: behind)).blocks ++ others)) := by
  have hold := hash_blocks_at hi
  rw [hbucket] at hold
  have hold' := hold.trans ((chain_blocks before behind node).append_right _)
  have hnew := (hash_blocks_setBucket hi (before ++ { node with value := c } :: behind)
    hash.count).trans ((chain_blocks before behind { node with value := c }).append_right _)
  exact hl.swap (hold'.trans (List.Perm.swap _ _ _)) (hnew.trans (List.Perm.swap _ _ _))

theorem kvsHashMod_owns (h : HashHolds hash rt.mallocs m) (hl : rt.Ledger (hash.blocks ++ others))
    (ha : HashAdmits k) (v : Bytes) :
    Triple (kvsHashMod hash k v) rt (Settles HashOwns rt hash hash.blocks others
      (if k ∈ m then some (m.insert k v) else none)) Never := by
  obtain ⟨i, hat, hidx, hi⟩ := bucketAt_eq ha
  obtain ⟨before, node, behind, hsearch, hbucket, hkey, hsome⟩ | ⟨hsearch, hnone⟩ := h.search hidx hi
  · rw [if_pos (Finmap.mem_of_lookup_eq_some hsome)]
    simp only [kvsHashMod, hat, pure_bind, hsearch]
    refine (copyString_ledger hl v).bind fun c rt1 hc => ?_
    obtain ⟨hext, ⟨rfl, hl1⟩ | ⟨c, rfl, rfl, hl1⟩⟩ := hc
    · exact Triple.pure (Settles.unchanged hext (by decide) hl1)
    · have hswap := hash_ledger_replace hl1 (by rw [h.slots]; exact hi) hbucket
      refine (kvsFree_ledger hswap).bind fun _ rt2 h2 => ?_
      exact Triple.pure (Settles.done (hext.trans h2.1)
        ⟨h.replace hidx hi hbucket hkey c _, rfl⟩ h2.2)
  · rw [if_neg (Finmap.lookup_eq_none.mp hnone)]
    simp only [kvsHashMod, hat, pure_bind, hsearch]
    exact Triple.pure (Settles.unchanged (.refl rt) (by decide) hl)

theorem createNode_owns (hl : rt.Ledger blocks) (k v : Bytes) :
    Triple (createNode k v) rt (fun r rt' => rt.Extends rt' ∧
      (r = none ∧ rt'.Ledger blocks ∨
        ∃ node, r = some node ∧ node.pair = (k, v) ∧ rt'.Ledger (node.blocks ++ blocks))) Never := by
  refine (kvsMalloc_ledger hl).bind fun p rt1 hp => ?_
  obtain ⟨hext1, ⟨rfl, hl1⟩ | ⟨p, rfl, -, -, hl1⟩⟩ := hp
  · exact Triple.pure ⟨hext1, .inl ⟨rfl, hl1⟩⟩
  refine (copyString_ledger hl1 k).bind fun c rt2 hc => ?_
  obtain ⟨hext2, ⟨rfl, hl2⟩ | ⟨kcopy, rfl, rfl, hl2⟩⟩ := hc
  · refine (kvsFree_ledger hl2).bind fun _ rt3 h3 => ?_
    exact Triple.pure ⟨(hext1.trans hext2).trans h3.1, .inl ⟨rfl, h3.2⟩⟩
  refine (copyString_ledger hl2 v).bind fun c rt3 hc => ?_
  have hext12 := hext1.trans hext2
  obtain ⟨hext3, ⟨rfl, hl3⟩ | ⟨kvalue, rfl, rfl, hl3⟩⟩ := hc
  · refine (kvsFree_ledger hl3).bind fun _ rt4 h4 => ?_
    refine (kvsFree_ledger h4.2).bind fun _ rt5 h5 => ?_
    exact Triple.pure ⟨((hext12.trans hext3).trans h4.1).trans h5.1, .inl ⟨rfl, h5.2⟩⟩
  · refine Triple.pure ⟨hext12.trans hext3, .inr ⟨_, rfl, rfl, hl3.perm ?_⟩⟩
    exact List.Perm.swap _ _ _

theorem kvsHashSet_owns (h : HashHolds hash rt.mallocs m) (hl : rt.Ledger (hash.blocks ++ others))
    (ha : HashAdmits k) (v : Bytes) :
    Triple (kvsHashSet hash k v) rt (Settles HashOwns rt hash hash.blocks others
      (some (m.insert k v))) Never := by
  obtain ⟨i, hat, hidx, hi⟩ := bucketAt_eq ha
  have hi' : i < hash.maxSlots := by rw [h.slots]; exact hi
  obtain ⟨before, node, behind, hsearch, hbucket, hkey, -⟩ | ⟨hsearch, hnone⟩ := h.search hidx hi
  · simp only [kvsHashSet, hat, pure_bind, hsearch]
    refine (copyString_ledger hl v).bind fun c rt1 hc => ?_
    obtain ⟨hext, ⟨rfl, hl1⟩ | ⟨c, rfl, rfl, hl1⟩⟩ := hc
    · exact Triple.pure (Settles.unchanged hext (by decide) hl1)
    · refine (kvsFree_ledger (hash_ledger_replace hl1 hi' hbucket)).bind fun _ rt2 h2 => ?_
      exact Triple.pure (Settles.done (hext.trans h2.1)
        ⟨h.replace hidx hi hbucket hkey c _, rfl⟩ h2.2)
  · simp only [kvsHashSet, hat, pure_bind, hsearch]
    refine (createNode_owns hl k v).bind fun r rt1 hr => ?_
    obtain ⟨hext, ⟨rfl, hl1⟩ | ⟨node, rfl, hpair, hl1⟩⟩ := hr
    · exact Triple.pure (Settles.unchanged hext (by decide) hl1)
    · refine Triple.pure (Settles.done hext ⟨h.push hidx hi hnone hpair _ _, rfl⟩ (hl1.perm ?_))
      rw [← List.append_assoc]
      refine List.Perm.append_right others ?_
      refine List.Perm.trans ?_ (hash_blocks_setBucket hi' _ _).symm
      rw [List.flatMap_cons, List.append_assoc]
      exact (hash_blocks_at hi').append_left _

theorem hashNodeFree_owns {node : HashNode} (hl : rt.Ledger (node.blocks ++ blocks)) :
    Triple (hashNodeFree node) rt (fun _ rt' => rt.Extends rt' ∧ rt'.Ledger blocks) Never := by
  refine (kvsFree_ledger hl).bind fun _ rt1 h1 => ?_
  refine (kvsFree_ledger h1.2).bind fun _ rt2 h2 => ?_
  exact (kvsFree_ledger h2.2).weaken fun _ rt3 h3 => ⟨(h1.1.trans h2.1).trans h3.1, h3.2⟩

theorem hash_ledger_unlink (hl : rt.Ledger (hash.blocks ++ others)) (hi : i < hash.maxSlots)
    (hbucket : hash.bucket i = before ++ node :: behind) (count : Int) :
    rt.Ledger (node.blocks ++
      (KvsHash.blocks { hash.setBucket i (before ++ behind) with count := count } ++ others)) := by
  refine hl.perm ?_
  have hold := hash_blocks_at hi
  rw [hbucket] at hold
  have hold' := hold.trans ((chain_blocks before behind node).append_right _)
  rw [List.append_assoc] at hold'
  have hnew := hash_blocks_setBucket hi (before ++ behind) count
  rw [← List.append_assoc]
  exact (hold'.trans (hnew.symm.append_left _)).append_right others

theorem kvsHashDel_owns (h : HashHolds hash rt.mallocs m) (hl : rt.Ledger (hash.blocks ++ others))
    (ha : HashAdmits k) :
    Triple (kvsHashDel hash k) rt (Settles HashOwns rt hash hash.blocks others
      (if k ∈ m then some (m.erase k) else none)) Never := by
  by_cases hk : k ∈ m
  · rw [if_pos hk]
    obtain ⟨i, hat, hidx, hi⟩ := bucketAt_eq ha
    have hi' : i < hash.maxSlots := by rw [h.slots]; exact hi
    obtain ⟨before, node, behind, hsearch, -, -, -⟩ | ⟨-, hnone⟩ := h.search hidx hi
    · simp only [kvsHashDel, hat, pure_bind]
      cases hb : hash.bucket i with
      | nil => simp [hb, chainSearch] at hsearch
      | cons head rest =>
        simp only [strcmp_eq_zero]
        refine Triple.ite (fun hhead => ?_) fun hhead => ?_
        · have hb' : hash.bucket i = [] ++ head :: rest := hb
          refine (hashNodeFree_owns (hash_ledger_unlink hl hi' hb' (hash.count - 1))).bind fun _ rt1 h1 => ?_
          exact Triple.pure (Settles.done h1.1 ⟨h.unlink hidx hi hb' hhead _ _, rfl⟩ h1.2)
        · simp only [hb, chainSearch, strcmp_eq_zero, if_neg hhead, Option.map_eq_some_iff]
            at hsearch
          obtain ⟨⟨before', tmp, behind'⟩, hrest, -⟩ := hsearch
          obtain ⟨hsplit, htmp⟩ := chainSearch_some hrest
          have hb' : hash.bucket i = (head :: before') ++ tmp :: behind' := by rw [hb, hsplit]; rfl
          simp only [hrest]
          refine (hashNodeFree_owns (hash_ledger_unlink hl hi' hb' (hash.count - 1))).bind fun _ rt1 h1 => ?_
          exact Triple.pure (Settles.done h1.1 ⟨h.unlink hidx hi hb' htmp _ _, rfl⟩ h1.2)
    · exact absurd hk (Finmap.lookup_eq_none.mp hnone)
  · rw [if_neg hk, kvsHashDel_missing h ha hk]
    exact Triple.pure (Settles.unchanged (.refl rt) (by decide) hl)

theorem chainFree_owns (hl : rt.Ledger (nodes.flatMap HashNode.blocks ++ blocks)) :
    Triple (chainFree nodes) rt (fun _ rt' => rt'.Ledger blocks) Never := by
  induction nodes generalizing rt with
  | nil => exact hl
  | cons node nodes ih =>
    rw [List.flatMap_cons, List.append_assoc] at hl
    exact (hashNodeFree_owns hl).bind fun _ rt1 h1 => ih h1.2

theorem hashClear_owns (hl : rt.Ledger
    (((List.range' i left).flatMap hash.bucket).flatMap HashNode.blocks ++ blocks)) :
    Triple (hashClear left i hash) rt (fun r rt' => r.nodes = hash.nodes ∧ rt'.Ledger blocks)
      Never := by
  induction left generalizing i hash rt with
  | zero => exact ⟨rfl, hl⟩
  | succ left ih =>
    rw [List.range'_succ, List.flatMap_cons, List.flatMap_append, List.append_assoc] at hl
    refine (chainFree_owns hl).bind fun _ rt1 h1 => ?_
    refine ih (h1.perm (List.Perm.of_eq ?_))
    congr 2
    refine List.flatMap_congr fun j hj => ?_
    have hne : j ≠ i := by
      rw [List.mem_range'_1] at hj
      omega
    simp [KvsHash.setBucket, hne]

end

theorem hash_owning : Owning hashOps kvsHashDestory HashOwns HashAdmits 1 3 where
  later h hn := ⟨hash_lawful.later h.1 hn, h.2⟩
  size := by
    rintro hash n m blocks ⟨h, rfl⟩
    obtain ⟨table, htable⟩ := Option.isSome_iff_exists.mp h.nodes
    obtain ⟨hdistinct, hmap⟩ := hash_visit h
    have hcard := card_keys_mapOf hdistinct
    have hpairs : (List.range hash.maxSlots).flatMap hash.pairs = hash.chained.map HashNode.pair := by
      rw [KvsHash.chained, List.map_flatMap]
      rfl
    rw [hmap, hpairs, List.length_map] at hcard
    have hnodes : ∀ node ∈ hash.chained, node.blocks.length = 3 := fun _ _ => rfl
    rw [hcard, KvsHash.blocks, htable, List.length_append, length_flatMap_const hnodes]
    rfl
  create := by
    intro rt others hl
    refine (kvsMalloc_ledger hl).bind fun r rt' hr => ?_
    obtain ⟨hext, ⟨rfl, hl'⟩ | ⟨p, rfl, -, -, hl'⟩⟩ := hr
    · exact Triple.pure ⟨hext, .inr ⟨by decide, hl'⟩⟩
    · refine Triple.pure ⟨hext, .inl ⟨rfl, _, ⟨⟨rfl, rfl, ?_, ?_, ?_⟩, rfl⟩, ?_⟩⟩
      · exact fun i => DistinctKeys.nil
      · simp [KvsHash.pairs]
      · simp [KvsHash.pairs]
      · have hempty : (List.range maxTableSize).flatMap (fun _ => ([] : List HashNode)) = [] :=
          List.flatMap_eq_nil_iff.mpr fun _ _ => rfl
        simp only [KvsHash.blocks, KvsHash.chained, hempty, List.flatMap_nil, List.append_nil]
        exact hl'
  set := by
    rintro hash rt m blocks others k v ⟨h, rfl⟩ hl ha
    exact kvsHashSet_owns h hl ha v
  mod := by
    rintro hash rt m blocks others k v ⟨h, rfl⟩ hl ha
    exact kvsHashMod_owns h hl ha v
  del := by
    rintro hash rt m blocks others k ⟨h, rfl⟩ hl ha
    exact kvsHashDel_owns h hl ha
  destory := by
    rintro hash m blocks rt others ⟨h, rfl⟩ hl
    obtain ⟨table, htable⟩ := Option.isSome_iff_exists.mp h.nodes
    have hslots : rt.Ledger (((List.range' 0 hash.maxSlots).flatMap hash.bucket).flatMap
        HashNode.blocks ++ (table :: others)) := by
      refine hl.perm ?_
      rw [KvsHash.blocks, htable, KvsHash.chained, List.range_eq_range']
      exact List.perm_middle.symm
    refine (hashClear_owns hslots).bind fun hash' rt1 h1 => ?_
    simp only [h1.1, htable]
    exact (kvsFree_ledger h1.2).bind fun _ rt2 h2 => Triple.pure h2.2

end KvStore
