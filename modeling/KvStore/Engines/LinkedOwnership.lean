import KvStore.Engines.Ownership
import KvStore.Engines.RbTreeLaws
import KvStore.Engines.SkipListLaws

/-!
# What the linked engines own

The red-black tree owns its sentinel and three blocks for each node; a deletion
frees a node other than the one found, but the two have exchanged their strings
first. The skip list owns four blocks for each node, the header included.
-/

namespace KvStore

open Lib Lib.Links

-- ---------------------------------------------------------------------------
-- The red-black tree
-- ---------------------------------------------------------------------------

def RbOwns (inst : KvsRbtree) (n : Nat) (m : Contents) (blocks : List Ptr) : Prop :=
  ∃ t, RbStores inst n t ∧ mapOf (t.nodes.map inst.pairAt) = m ∧
    blocks = inst.links.nil :: t.nodes.flatMap inst.blocks

section
variable {inst : KvsRbtree} {n : Nat} {t : Shape Ptr Color} {k : Bytes} {rt : Runtime}
  {others blocks : List Ptr}

theorem rbtree_ledger_setValue (h : RbStores inst n t) (hq : q ∈ t.nodes)
    (hl : rt.Ledger (c.ptr :: (inst.links.nil :: t.nodes.flatMap inst.blocks ++ others))) :
    rt.Ledger ((inst.value q).toList.map CString.ptr ++
      (inst.links.nil :: t.nodes.flatMap (inst.setValue q c).blocks ++ others)) := by
  obtain ⟨⟨ks, hks⟩, ⟨vs, hvs⟩⟩ :
      (∃ ks, inst.key q = some ks) ∧ ∃ vs, inst.value q = some vs :=
    ⟨Option.isSome_iff_exists.mp (h.strings q hq).1, Option.isSome_iff_exists.mp (h.strings q hq).2⟩
  have hold := flatMap_perm_erase inst.blocks hq
  have hnew := flatMap_perm_update (f := inst.blocks) (g := (inst.setValue q c).blocks) hq
    h.focus.nodup_below (fun p _ hp => by simp [KvsRbtree.blocks, KvsRbtree.setValue, hp])
  refine hl.perm ?_
  rw [hvs]
  simp only [KvsRbtree.blocks, KvsRbtree.setValue, hks, hvs, if_true, List.perm_iff_count,
    List.count_append, List.count_cons, Option.toList_some, List.map_cons, List.map_nil,
    List.map_append, List.count_nil] at hold hnew ⊢
  intro p
  have h1 := hold p
  have h2 := hnew p
  omega

theorem kvsRbtreeMod_owns (h : RbStores inst rt.mallocs t)
    (hl : rt.Ledger (inst.links.nil :: t.nodes.flatMap inst.blocks ++ others)) (v : Bytes) :
    Triple (kvsRbtreeMod inst k v) rt
      (Settles RbOwns rt inst (inst.links.nil :: t.nodes.flatMap inst.blocks) others
        (if k ∈ mapOf (t.nodes.map inst.pairAt) then
          some ((mapOf (t.nodes.map inst.pairAt)).insert k v) else none)) Never := by
  refine loopFuel_bind ?_
  obtain ⟨path, q, c, a, b, hf, rfl, rfl, hq, hsearch, hmem⟩ | ⟨hsearch, hnot⟩ :=
    h.found k (show rt.mallocs < rt.mallocs + 2 by omega)
  · have hqmem : q ∈ (Path.plug path (.node q c a b)).nodes := by
      rw [Path.nodes_plug]
      simp [Shape.nodes]
    rw [if_pos hmem]
    simp only [hsearch, ofExcept_ok, pure_bind, hq, if_false]
    refine (copyString_ledger hl v).bind fun r rt1 hr => ?_
    obtain ⟨hext, ⟨rfl, hl1⟩ | ⟨w, rfl, rfl, hl1⟩⟩ := hr
    · exact Triple.pure (Settles.unchanged hext (by decide) hl1)
    · refine (freeString_ledger (rbtree_ledger_setValue h hqmem hl1)).bind fun _ rt2 h2 => ?_
      have hext' := hext.trans h2.1
      obtain ⟨hstores, hmap⟩ := h.setValue hext'.mallocs w
      exact Triple.pure (Settles.done hext' ⟨_, hstores, hmap, rfl⟩ h2.2)
  · rw [if_neg hnot]
    simp only [hsearch, ofExcept_ok, pure_bind, if_true]
    exact Triple.pure (Settles.unchanged (.refl rt) (by decide) hl)

theorem rbtree_blocks_fill {t' : Shape Ptr Color} {L' : RbLinks} {k v : CString}
    (h : RbStores inst n t) (hz : n < z) (hnil : L'.nil = inst.links.nil)
    (hperm : t'.nodes.Perm (z :: t.nodes)) :
    (L'.nil :: t'.nodes.flatMap (inst.fill z k v).blocks).Perm
      (v.ptr :: k.ptr :: z :: (inst.links.nil :: t.nodes.flatMap inst.blocks)) := by
  have hold : t.nodes.flatMap (inst.fill z k v).blocks = t.nodes.flatMap inst.blocks := by
    refine List.flatMap_congr fun q hq => ?_
    have hne : q ≠ z := fun heq => absurd hz (Nat.not_lt.mpr (heq ▸ (h.ptr q hq).2))
    simp [KvsRbtree.blocks, KvsRbtree.fill, hne]
  have hnew := hperm.flatMap_right (inst.fill z k v).blocks
  rw [List.flatMap_cons, hold] at hnew
  rw [hnil]
  refine (hnew.cons _).trans ?_
  simp only [KvsRbtree.blocks, KvsRbtree.fill, if_true, Option.toList_some, List.map_cons,
    List.map_nil, List.map_append, List.perm_iff_count, List.count_append, List.count_cons,
    List.count_nil]
  intro q
  omega

theorem kvsRbtreeSet_owns (h : RbStores inst rt.mallocs t)
    (hl : rt.Ledger (inst.links.nil :: t.nodes.flatMap inst.blocks ++ others)) (v : Bytes) :
    Triple (kvsRbtreeSet inst k v) rt
      (Settles RbOwns rt inst (inst.links.nil :: t.nodes.flatMap inst.blocks) others
        (some ((mapOf (t.nodes.map inst.pairAt)).insert k v))) Never := by
  refine loopFuel_bind ?_
  obtain ⟨path, q, c, a, b, hf, rfl, rfl, hq, hsearch, hmem⟩ | ⟨hsearch, hnot⟩ :=
    h.found k (show rt.mallocs < rt.mallocs + 2 by omega)
  · have hqmem : q ∈ (Path.plug path (.node q c a b)).nodes := by
      rw [Path.nodes_plug]
      simp [Shape.nodes]
    simp only [hsearch, ofExcept_ok, pure_bind, ne_eq, hq, not_false_eq_true, if_true]
    refine (copyString_ledger hl v).bind fun r rt1 hr => ?_
    obtain ⟨hext, ⟨rfl, hl1⟩ | ⟨w, rfl, rfl, hl1⟩⟩ := hr
    · exact Triple.pure (Settles.unchanged hext (by decide) hl1)
    · refine (freeString_ledger (rbtree_ledger_setValue h hqmem hl1)).bind fun _ rt2 h2 => ?_
      have hext' := hext.trans h2.1
      obtain ⟨hstores, hmap⟩ := h.setValue hext'.mallocs w
      exact Triple.pure (Settles.done hext' ⟨_, hstores, hmap, rfl⟩ h2.2)
  · simp only [hsearch, ofExcept_ok, pure_bind, ne_eq, not_true_eq_false, if_false]
    refine (kvsMalloc_ledger hl).bind fun r rt1 hr => ?_
    obtain ⟨hext1, ⟨rfl, hl1⟩ | ⟨z, rfl, hlt, hz1, hl1⟩⟩ := hr
    · exact Triple.pure (Settles.unchanged hext1 (by decide) hl1)
    refine (copyString_ledger hl1 k).bind fun r rt2 hr => ?_
    obtain ⟨hext2, ⟨rfl, hl2⟩ | ⟨kcopy, rfl, rfl, hl2⟩⟩ := hr
    · refine (kvsFree_ledger hl2).bind fun _ rt3 h3 => ?_
      exact Triple.pure (Settles.unchanged ((hext1.trans hext2).trans h3.1) (by decide) h3.2)
    refine (copyString_ledger hl2 v).bind fun r rt3 hr => ?_
    obtain ⟨hext3, ⟨rfl, hl3⟩ | ⟨vcopy, rfl, rfl, hl3⟩⟩ := hr
    · refine (kvsFree_ledger hl3).bind fun _ rt4 h4 => ?_
      refine (kvsFree_ledger h4.2).bind fun _ rt5 h5 => ?_
      exact Triple.pure (Settles.unchanged
        ((((hext1.trans hext2).trans hext3).trans h4.1).trans h5.1) (by decide) h5.2)
    have hext := (hext1.trans hext2).trans hext3
    obtain ⟨L', t', hrun, hstores, hnil, hperm, hmap⟩ :=
      h.insertNew hlt (Nat.le_trans hz1 (hext2.trans hext3).mallocs) hext.mallocs hnot
        (show rt.mallocs < rt.mallocs + 2 by omega) (v := vcopy)
    simp only [hrun, ofExcept_ok, pure_bind]
    refine Triple.pure (Settles.done hext ⟨t', hstores, hmap, rfl⟩ (hl3.perm ?_))
    exact (rbtree_blocks_fill h hlt hnil hperm).symm.append_right others

theorem rbtree_ledger_removed {t' : Shape Ptr Color} {inst' : KvsRbtree}
    (hgone : RbRemoved inst n t k inst' y t')
    (hl : rt.Ledger (inst.links.nil :: t.nodes.flatMap inst.blocks ++ others)) :
    rt.Ledger ((inst'.key y).toList.map CString.ptr ++ ((inst'.value y).toList.map CString.ptr ++
      (y :: (inst'.links.nil :: t'.nodes.flatMap inst'.blocks ++ others)))) := by
  refine hl.perm ?_
  have hblocks := hgone.blocks
  rw [hgone.nil]
  simp only [KvsRbtree.blocks, List.perm_iff_count, List.count_append, List.count_cons,
    List.map_append] at hblocks ⊢
  intro q
  have := hblocks q
  omega

theorem kvsRbtreeDel_owns (h : RbStores inst rt.mallocs t)
    (hl : rt.Ledger (inst.links.nil :: t.nodes.flatMap inst.blocks ++ others)) :
    Triple (kvsRbtreeDel inst k) rt
      (Settles RbOwns rt inst (inst.links.nil :: t.nodes.flatMap inst.blocks) others
        (if k ∈ mapOf (t.nodes.map inst.pairAt) then
          some ((mapOf (t.nodes.map inst.pairAt)).erase k) else none)) Never := by
  refine loopFuel_bind ?_
  obtain ⟨path, q, c, a, b, hf, rfl, rfl, hq, hsearch, hmem⟩ | ⟨hsearch, hnot⟩ :=
    h.found k (show rt.mallocs < rt.mallocs + 2 by omega)
  · obtain ⟨inst', cur, t', hdel, hgone⟩ :=
      rbtreeDelete_spec h hf (show rt.mallocs < rt.mallocs + 2 by omega)
    rw [if_pos hmem]
    simp only [hsearch, ofExcept_ok, pure_bind, hq, if_false, hdel]
    refine (freeString_ledger (rbtree_ledger_removed hgone hl)).bind fun _ rt1 h1 => ?_
    refine (freeString_ledger h1.2).bind fun _ rt2 h2 => ?_
    refine (kvsFree_ledger h2.2).bind fun _ rt3 h3 => ?_
    have hext := (h1.1.trans h2.1).trans h3.1
    exact Triple.pure (Settles.done hext
      ⟨t', hgone.stores.later hext.mallocs, hgone.map, rfl⟩ h3.2)
  · rw [if_neg hnot]
    simp only [hsearch, ofExcept_ok, pure_bind, if_true]
    exact Triple.pure (Settles.unchanged (.refl rt) (by decide) hl)

theorem rbtreeClear_owns (h : RbStores inst n t) (hfuel : n < fuel) (hrounds : t.nodes.length < rounds)
    (hl : rt.Ledger (inst.links.nil :: t.nodes.flatMap inst.blocks ++ others)) :
    Triple (rbtreeClear fuel rounds inst) rt
      (fun r rt' => rt'.Ledger (r.links.nil :: others)) Never := by
  induction rounds generalizing inst t rt with
  | zero => omega
  | succ rounds ih =>
    by_cases hleaf : t = .leaf
    · subst hleaf
      have hroot : inst.links.root = inst.links.nil := h.focus.nil_iff.mpr rfl
      simp only [rbtreeClear, hroot, ne_eq, not_true_eq_false, if_false]
      exact Triple.pure (by simpa [Shape.nodes] using hl)
    · have hroot : inst.links.root ≠ inst.links.nil := fun heq => hleaf (h.focus.nil_iff.mp heq)
      have hlen := h.length_le
      obtain ⟨path, y, c, r, hmini, hf, hplug, -⟩ :=
        rbtreeMini_spec h.focus hleaf (show t.nodes.length < fuel by omega)
      simp only [Path.plug] at hplug
      subst hplug
      obtain ⟨inst', cur, t', hdel, hgone⟩ := rbtreeDelete_spec h hf hfuel
      have hshorter : t'.nodes.length < rounds := by
        have hlength := hgone.nodes.length_eq
        simp only [List.length_cons] at hlength
        omega
      simp only [rbtreeClear, ne_eq, hroot, not_false_eq_true, if_true, hmini, ofExcept_ok,
        pure_bind, hdel]
      refine (freeString_ledger (rbtree_ledger_removed hgone hl)).bind fun _ rt1 h1 => ?_
      refine (freeString_ledger h1.2).bind fun _ rt2 h2 => ?_
      refine (kvsFree_ledger h2.2).bind fun _ rt3 h3 => ?_
      exact ih hgone.stores hshorter h3.2

end

theorem rbtree_owning : Owning rbtreeOps kvsRbtreeDestory RbOwns (fun _ => True) 1 3 where
  later := by
    rintro inst n m blocks n' ⟨t, h, hm, hb⟩ hn
    exact ⟨t, h.later hn, hm, hb⟩
  size := by
    rintro inst n m blocks ⟨t, h, rfl, rfl⟩
    rw [card_keys_mapOf h.distinct, List.length_map, List.length_cons,
      length_flatMap_const h.length_blocks, Nat.add_comm]
  create := by
    intro rt others hl
    refine (kvsMalloc_ledger hl).bind fun r rt' hr => ?_
    obtain ⟨hext, ⟨rfl, hl'⟩ | ⟨p, rfl, -, hp, hl'⟩⟩ := hr
    · exact Triple.pure ⟨hext, .inr ⟨by decide, hl'⟩⟩
    · refine Triple.pure ⟨hext, .inl ⟨rfl, _, ⟨.leaf, ?_, rfl, rfl⟩, hl'⟩⟩
      exact rbStores_empty hp
  set := by
    rintro inst rt m blocks others k v ⟨t, h, rfl, rfl⟩ hl -
    exact kvsRbtreeSet_owns h hl v
  mod := by
    rintro inst rt m blocks others k v ⟨t, h, rfl, rfl⟩ hl -
    exact kvsRbtreeMod_owns h hl v
  del := by
    rintro inst rt m blocks others k ⟨t, h, rfl, rfl⟩ hl -
    exact kvsRbtreeDel_owns h hl
  destory := by
    rintro inst m blocks rt others ⟨t, h, rfl, rfl⟩ hl
    have hlen := h.length_le
    have hnil : inst.links.nil ≠ 0 := Nat.ne_of_gt (hl.old _ (by simp)).1
    simp only [kvsRbtreeDestory, hnil, if_false]
    refine loopFuel_bind ?_
    refine (rbtreeClear_owns h (by omega) (by omega) hl).bind fun inst' rt1 h1 => ?_
    exact (kvsFree_ledger h1).bind fun _ rt2 h2 => Triple.pure h2.2

-- ---------------------------------------------------------------------------
-- The skip list
-- ---------------------------------------------------------------------------

def KvsSkiplist.blocks (T : KvsSkiplist) (p : Ptr) : List Ptr :=
  [T.forwardPtr p, (T.value p).ptr, (T.key p).ptr, p]

def SkOwns (inst : KvsSkiplist) (n : Nat) (m : Contents) (blocks : List Ptr) : Prop :=
  ∃ L, SkStores inst n L ∧ mapOf (L.map inst.pairAt) = m ∧
    blocks = (inst.header :: L).flatMap inst.blocks

section
variable {inst T T' : KvsSkiplist} {n i : Nat} {L A B : List Ptr} {k : Bytes} {rt : Runtime}
  {others blocks : List Ptr}

/-- Writing a forward pointer changes no header and gives no node another block. -/
theorem setForward_blocks (h : T.setForward p i v = .ok T') :
    T'.header = T.header ∧ T'.blocks = T.blocks := by
  unfold KvsSkiplist.setForward at h
  split at h
  · cases h
    exact ⟨rfl, rfl⟩
  · cases h

theorem skiplistLink_blocks (h : skiplistLink z us i T = .ok T') :
    T'.header = T.header ∧ T'.blocks = T.blocks := by
  induction us generalizing i T with
  | nil =>
    cases h
    exact ⟨rfl, rfl⟩
  | cons u us ih =>
    simp only [skiplistLink, bind, Except.bind] at h
    cases hf : T.forwardAt u i with
    | error e => simp [hf] at h
    | ok next =>
      cases h1 : T.setForward z i next with
      | error e => simp [hf, h1] at h
      | ok T1 =>
        cases h2 : T1.setForward u i (some z) with
        | error e => simp [hf, h1, h2] at h
        | ok T2 =>
          simp only [hf, h1, h2] at h
          obtain ⟨hh1, hb1⟩ := setForward_blocks h1
          obtain ⟨hh2, hb2⟩ := setForward_blocks h2
          obtain ⟨hh, hb⟩ := ih h
          exact ⟨hh.trans (hh2.trans hh1), hb.trans (hb2.trans hb1)⟩

theorem skiplistUnlink_blocks (h : skiplistUnlink z us i T = .ok T') :
    T'.header = T.header ∧ T'.blocks = T.blocks := by
  induction us generalizing i T with
  | nil =>
    cases h
    exact ⟨rfl, rfl⟩
  | cons u us ih =>
    simp only [skiplistUnlink, bind, Except.bind] at h
    cases hf : T.forwardAt u i with
    | error e => simp [hf] at h
    | ok next =>
      simp only [hf] at h
      split at h
      · cases h
        exact ⟨rfl, rfl⟩
      · cases hz : T.forwardAt z i with
        | error e => simp [hz] at h
        | ok after =>
          cases h1 : T.setForward u i after with
          | error e => simp [hz, h1] at h
          | ok T1 =>
            simp only [hz, h1] at h
            obtain ⟨hh1, hb1⟩ := setForward_blocks h1
            obtain ⟨hh, hb⟩ := ih h
            exact ⟨hh.trans hh1, hb.trans hb1⟩

theorem skiplist_ledger_setValue (h : SkStores inst n L) (hq : q ∈ L)
    (hl : rt.Ledger (c.ptr :: ((inst.header :: L).flatMap inst.blocks ++ others))) :
    rt.Ledger ((inst.value q).ptr ::
      ((inst.header :: L).flatMap (inst.setValue q c).blocks ++ others)) := by
  have hmem : q ∈ inst.header :: L := List.mem_cons_of_mem _ hq
  have hold := flatMap_perm_erase inst.blocks hmem
  have hnew := flatMap_perm_update (f := inst.blocks) (g := (inst.setValue q c).blocks) hmem h.nodup
    (fun p _ hp => by simp [KvsSkiplist.blocks, KvsSkiplist.setValue, hp])
  simp only [KvsSkiplist.blocks, KvsSkiplist.setValue, if_true] at hold hnew
  exact hl.swap (hold.trans (List.Perm.swap _ _ _)) (hnew.trans (List.Perm.swap _ _ _))

theorem kvsSkiplistMod_owns (h : SkStores inst rt.mallocs L)
    (hl : rt.Ledger ((inst.header :: L).flatMap inst.blocks ++ others)) (v : Bytes) :
    Triple (kvsSkiplistMod inst k v) rt
      (Settles SkOwns rt inst ((inst.header :: L).flatMap inst.blocks) others
        (if k ∈ mapOf (L.map inst.pairAt) then some ((mapOf (L.map inst.pairAt)).insert k v)
          else none)) Never := by
  simp only [kvsSkiplistMod, h.header_ne, if_false]
  refine loopFuel_bind ?_
  obtain ⟨A, q, B, rfl, rfl, hsearch, hmem⟩ | ⟨hsearch, hnot⟩ :=
    h.search k (show rt.mallocs < rt.mallocs + 2 by omega)
  · rw [if_pos hmem]
    simp only [hsearch, ofExcept_ok, pure_bind]
    refine (copyString_ledger hl v).bind fun r rt1 hr => ?_
    obtain ⟨hext, ⟨rfl, hl1⟩ | ⟨w, rfl, rfl, hl1⟩⟩ := hr
    · exact Triple.pure (Settles.unchanged hext (by decide) hl1)
    · refine (kvsFree_ledger (skiplist_ledger_setValue h (by simp) hl1)).bind fun _ rt2 h2 => ?_
      have hext' := hext.trans h2.1
      obtain ⟨hstores, hmap⟩ := h.setValue hext'.mallocs w
      exact Triple.pure (Settles.done hext' ⟨_, hstores, hmap, rfl⟩ h2.2)
  · rw [if_neg hnot]
    simp only [hsearch, ofExcept_ok, pure_bind]
    exact Triple.pure (Settles.unchanged (.refl rt) (by decide) hl)

theorem skiplistCreateNode_owns (inst : KvsSkiplist) (hlevel : level ≤ kvsSkiplistMaxLevel)
    (k v : Bytes) (hl : rt.Ledger blocks) :
    Triple (skiplistCreateNode inst level k v) rt (fun r rt' => rt.Extends rt' ∧
      (r = none ∧ rt'.Ledger blocks ∨
        ∃ z ks vs fp, r = some (z, inst.addNode z level ks vs fp) ∧ ks.bytes = k ∧ vs.bytes = v ∧
          rt.mallocs < z ∧ z ≤ rt'.mallocs ∧ rt'.Ledger (fp :: vs.ptr :: ks.ptr :: z :: blocks)))
      Never := by
  simp only [skiplistCreateNode, show ¬level > kvsSkiplistMaxLevel by omega, if_false]
  refine (kvsMalloc_ledger hl).bind fun r rt1 hr => ?_
  obtain ⟨hext1, ⟨rfl, hl1⟩ | ⟨z, rfl, hlt, hz, hl1⟩⟩ := hr
  · exact Triple.pure ⟨hext1, .inl ⟨rfl, hl1⟩⟩
  refine (copyString_ledger hl1 k).bind fun r rt2 hr => ?_
  obtain ⟨hext2, ⟨rfl, hl2⟩ | ⟨ks, rfl, hks, hl2⟩⟩ := hr
  · refine (kvsFree_ledger hl2).bind fun _ rt3 h3 => ?_
    exact Triple.pure ⟨(hext1.trans hext2).trans h3.1, .inl ⟨rfl, h3.2⟩⟩
  refine (copyString_ledger hl2 v).bind fun r rt3 hr => ?_
  have hext12 := hext1.trans hext2
  obtain ⟨hext3, ⟨rfl, hl3⟩ | ⟨vs, rfl, hvs, hl3⟩⟩ := hr
  · refine (kvsFree_ledger hl3).bind fun _ rt4 h4 => ?_
    refine (kvsFree_ledger h4.2).bind fun _ rt5 h5 => ?_
    exact Triple.pure ⟨((hext12.trans hext3).trans h4.1).trans h5.1, .inl ⟨rfl, h5.2⟩⟩
  refine (kvsMalloc_ledger hl3).bind fun r rt4 hr => ?_
  have hext13 := hext12.trans hext3
  obtain ⟨hext4, ⟨rfl, hl4⟩ | ⟨fp, rfl, -, -, hl4⟩⟩ := hr
  · -- the key is freed before the value here
    refine (kvsFree_ledger (hl4.perm (List.Perm.swap _ _ _))).bind fun _ rt5 h5 => ?_
    refine (kvsFree_ledger h5.2).bind fun _ rt6 h6 => ?_
    refine (kvsFree_ledger h6.2).bind fun _ rt7 h7 => ?_
    exact Triple.pure ⟨(((hext13.trans hext4).trans h5.1).trans h6.1).trans h7.1,
      .inl ⟨rfl, h7.2⟩⟩
  · exact Triple.pure ⟨hext13.trans hext4, .inr ⟨z, ks, vs, fp, rfl, hks, hvs, hlt,
      Nat.le_trans hz ((hext2.trans hext3).trans hext4).mallocs, hl4⟩⟩

theorem randomLevelLoop_ledger (left level : Nat) (hl : rt.Ledger blocks) :
    Triple (randomLevelLoop left level) rt (fun r rt' => rt.Extends rt' ∧
      rt'.mallocs = rt.mallocs ∧ r ≤ level + left ∧ rt'.Ledger blocks) Never := by
  induction left generalizing level rt with
  | zero => exact ⟨⟨rfl, rfl, Nat.le_refl _⟩, rfl, Nat.le_refl _, hl.live, hl.nodup, hl.old, hl.valid⟩
  | succ left ih =>
    have hcoin : Triple randBelowHalf rt
        (fun _ rt' => rt.Extends rt' ∧ rt'.mallocs = rt.mallocs ∧ rt'.Ledger blocks) Never :=
      ⟨⟨rfl, rfl, Nat.le_refl _⟩, rfl, hl.live, hl.nodup, hl.old, hl.valid⟩
    refine hcoin.bind fun c rt' h => ?_
    cases c with
    | true =>
      refine (ih (level + 1) h.2.2).weaken fun r rt'' h' => ?_
      exact ⟨h.1.trans h'.1, h'.2.1.trans h.2.1, by omega, h'.2.2.2⟩
    | false => exact Triple.pure ⟨h.1, h.2.1, by omega, h.2.2⟩

theorem skiplist_blocks_insert {ks vs : CString} (h : SkStores inst n (A ++ B)) (hz : n < z)
    (hblocks : T'.blocks = (inst.addNode z level ks vs fp).blocks) (hheader : T'.header = inst.header) :
    ((T'.header :: (A ++ z :: B)).flatMap T'.blocks).Perm
      (fp :: vs.ptr :: ks.ptr :: z :: (inst.header :: (A ++ B)).flatMap inst.blocks) := by
  have hold : (inst.header :: (A ++ B)).flatMap T'.blocks =
      (inst.header :: (A ++ B)).flatMap inst.blocks := by
    refine List.flatMap_congr fun q hq => ?_
    have hle : q ≤ n := by
      rcases List.mem_cons.mp hq with rfl | hq
      · exact h.headerPtr.2
      · exact (h.ptr q hq).2
    have hne : q ≠ z := Nat.ne_of_lt (Nat.lt_of_le_of_lt hle hz)
    rw [hblocks]
    simp [KvsSkiplist.blocks, KvsSkiplist.addNode, hne]
  have hnew : T'.blocks z = [fp, vs.ptr, ks.ptr, z] := by
    rw [hblocks]
    simp [KvsSkiplist.blocks, KvsSkiplist.addNode]
  have hperm : (inst.header :: A ++ z :: B).Perm (z :: (inst.header :: (A ++ B))) :=
    List.perm_middle
  have hflat := hperm.flatMap_right T'.blocks
  rw [List.flatMap_cons (x := z), hnew, hold] at hflat
  rw [hheader]
  exact hflat

theorem kvsSkiplistSet_owns (h : SkStores inst rt.mallocs L)
    (hl : rt.Ledger ((inst.header :: L).flatMap inst.blocks ++ others)) (v : Bytes) :
    Triple (kvsSkiplistSet inst k v) rt
      (Settles SkOwns rt inst ((inst.header :: L).flatMap inst.blocks) others
        (some ((mapOf (L.map inst.pairAt)).insert k v))) Never := by
  simp only [kvsSkiplistSet, h.header_ne, if_false]
  refine loopFuel_bind ?_
  obtain ⟨A, current, hfind, ⟨q, B, rfl, rfl, hcur⟩ | ⟨B, rfl, hA, hB, hcur⟩⟩ :=
    h.found k (show rt.mallocs < rt.mallocs + 2 by omega)
  · simp only [hfind, ofExcept_ok, pure_bind, hcur]
    refine (copyString_ledger hl v).bind fun r rt1 hr => ?_
    obtain ⟨hext, ⟨rfl, hl1⟩ | ⟨w, rfl, rfl, hl1⟩⟩ := hr
    · exact Triple.pure (Settles.unchanged hext (by decide) hl1)
    · refine (kvsFree_ledger (skiplist_ledger_setValue h (by simp) hl1)).bind fun _ rt2 h2 => ?_
      have hext' := hext.trans h2.1
      obtain ⟨hstores, hmap⟩ := h.setValue hext'.mallocs w
      exact Triple.pure (Settles.done hext' ⟨_, hstores, hmap, rfl⟩ h2.2)
  · simp only [hfind, ofExcept_ok, pure_bind, hcur]
    refine (randomLevelLoop_ledger _ _ hl).bind fun level rt1 hlevel => ?_
    rw [Nat.zero_add] at hlevel
    obtain ⟨hext1, hmallocs, hle, hl1⟩ := hlevel
    refine (skiplistCreateNode_owns inst hle k v hl1).bind fun r rt2 hr => ?_
    obtain ⟨hext2, ⟨rfl, hl2⟩ | ⟨z, ks, vs, fp, rfl, rfl, rfl, hz, hz', hl2⟩⟩ := hr
    · exact Triple.pure (Settles.unchanged (hext1.trans hext2) (by decide) hl2)
    have hext := hext1.trans hext2
    rw [hmallocs] at hz
    obtain ⟨T, hlink, hstores, hpairs⟩ :=
      skStores_insert vs fp h hA hB hz hz' hext.mallocs hle _ rfl
    have hblocks : T.blocks = (inst.addNode z level ks vs fp).blocks := by
      rw [(skiplistLink_blocks hlink).2]
      split <;> rfl
    have hheader : T.header = inst.header := by
      rw [(skiplistLink_blocks hlink).1]
      split <;> rfl
    simp only [update_eq h, hlink, ofExcept_ok, pure_bind]
    refine Triple.pure (Settles.done hext ⟨_, hstores, ?_, rfl⟩ (hl2.perm ?_))
    · have hsorted := h.sorted
      rw [List.map_append] at hsorted
      rw [hpairs, mapOf_insert_between keyLt_irrefl hsorted (by simpa using hA) (by simpa using hB),
        List.map_append]
    · exact (skiplist_blocks_insert h hz hblocks hheader).symm.append_right others

theorem kvsSkiplistDel_owns (h : SkStores inst rt.mallocs L)
    (hl : rt.Ledger ((inst.header :: L).flatMap inst.blocks ++ others)) :
    Triple (kvsSkiplistDel inst k) rt
      (Settles SkOwns rt inst ((inst.header :: L).flatMap inst.blocks) others
        (if k ∈ mapOf (L.map inst.pairAt) then some ((mapOf (L.map inst.pairAt)).erase k)
          else none)) Never := by
  simp only [kvsSkiplistDel, h.header_ne, if_false]
  refine loopFuel_bind ?_
  obtain ⟨A, current, hfind, ⟨q, B, rfl, rfl, hcur⟩ | ⟨B, hL, hA, hB, hcur⟩⟩ :=
    h.found k (show rt.mallocs < rt.mallocs + 2 by omega)
  · obtain ⟨T, l, hunlink, hlower, hstores, hpair⟩ := skStores_remove h
    obtain ⟨hheader, hblocks⟩ := skiplistUnlink_blocks hunlink
    rw [if_pos (mem_of_key rfl rfl)]
    simp only [hfind, ofExcept_ok, pure_bind, hcur, hunlink, hlower]
    have hfree : rt.Ledger (T.forwardPtr q :: (T.value q).ptr :: (T.key q).ptr :: q ::
        ((T.header :: (A ++ B)).flatMap T.blocks ++ others)) := by
      refine hl.perm ?_
      rw [hheader, hblocks]
      have hperm : (inst.header :: A ++ q :: B).Perm (q :: (inst.header :: A ++ B)) :=
        List.perm_middle
      have hflat := hperm.flatMap_right inst.blocks
      rw [List.flatMap_cons, ← hblocks] at hflat
      rw [← hblocks]
      exact hflat.append_right others
    refine (kvsFree_ledger hfree).bind fun _ rt1 h1 => ?_
    refine (kvsFree_ledger h1.2).bind fun _ rt2 h2 => ?_
    refine (kvsFree_ledger h2.2).bind fun _ rt3 h3 => ?_
    refine (kvsFree_ledger h3.2).bind fun _ rt4 h4 => ?_
    have hext := ((h1.1.trans h2.1).trans h3.1).trans h4.1
    refine Triple.pure (Settles.done hext ⟨A ++ B, hstores.later hext.mallocs, ?_, rfl⟩ h4.2)
    have hdistinct := h.distinct
    rw [List.map_append, List.map_cons] at hdistinct
    show mapOf ((A ++ B).map T.pairAt) = _
    rw [hpair, List.map_append, List.map_append, List.map_cons]
    exact mapOf_remove hdistinct
  · rw [if_neg (notMem_of_gap hL hA hB)]
    simp only [hfind, ofExcept_ok, pure_bind, hcur]
    exact Triple.pure (Settles.unchanged (.refl rt) (by decide) hl)

theorem skiplistFreeNodes_owns (hlinked : Linked (inst.next 0) p L)
    (hheight : ∀ q ∈ L, 0 < inst.height q) (hfuel : L.length < fuel)
    (hl : rt.Ledger (L.flatMap inst.blocks ++ others)) :
    Triple (skiplistFreeNodes inst fuel (inst.next 0 p)) rt (fun _ rt' => rt'.Ledger others) Never := by
  induction fuel generalizing p L rt with
  | zero => omega
  | succ fuel ih =>
    cases L with
    | nil =>
      have hnext : inst.next 0 p = none := hlinked
      rw [hnext]
      exact Triple.pure hl
    | cons q L =>
      have hnext : inst.next 0 p = some q := hlinked.1
      simp only [List.length_cons] at hfuel
      rw [hnext]
      simp only [skiplistFreeNodes, KvsSkiplist.forwardAt_eq (hheight q (by simp)), ofExcept_ok,
        pure_bind]
      have hfree : rt.Ledger ((inst.key q).ptr :: (inst.value q).ptr :: inst.forwardPtr q :: q ::
          (L.flatMap inst.blocks ++ others)) := by
        refine hl.perm ?_
        simp only [List.flatMap_cons, KvsSkiplist.blocks, List.perm_iff_count, List.count_append,
          List.count_cons, List.count_nil]
        intro x
        omega
      refine (kvsFree_ledger hfree).bind fun _ rt1 h1 => ?_
      refine (kvsFree_ledger h1.2).bind fun _ rt2 h2 => ?_
      refine (kvsFree_ledger h2.2).bind fun _ rt3 h3 => ?_
      refine (kvsFree_ledger h3.2).bind fun _ rt4 h4 => ?_
      exact ih hlinked.2 (fun x hx => hheight x (by simp [hx])) (by omega) h4.2

end

theorem skiplist_owning : Owning skiplistOps kvsSkiplistDestory SkOwns (fun _ => True) 4 4 where
  later := by
    rintro inst n m blocks n' ⟨L, h, hm, hb⟩ hn
    exact ⟨L, h.later hn, hm, hb⟩
  size := by
    rintro inst n m blocks ⟨L, h, rfl, rfl⟩
    have hnodes : ∀ p ∈ inst.header :: L, (inst.blocks p).length = 4 := fun _ _ => rfl
    rw [card_keys_mapOf h.distinct, List.length_map, length_flatMap_const hnodes, List.length_cons]
    omega
  create := by
    intro rt others hl
    refine (skiplistCreateNode_owns _ (Nat.le_refl _) [] [] hl).bind fun r rt' hr => ?_
    obtain ⟨hext, ⟨rfl, hl'⟩ | ⟨z, ks, vs, fp, rfl, -, -, hz, hz', hl'⟩⟩ := hr
    · exact Triple.pure ⟨hext, .inr ⟨by decide, hl'⟩⟩
    · refine Triple.pure ⟨hext, .inl ⟨rfl, _, ⟨[], ?_, rfl, rfl⟩, ?_⟩⟩
      · exact skStores_empty ⟨Nat.lt_of_le_of_lt (Nat.zero_le _) hz, hz'⟩ rfl
      · simpa [KvsSkiplist.blocks, KvsSkiplist.addNode] using hl'
  set := by
    rintro inst rt m blocks others k v ⟨L, h, rfl, rfl⟩ hl -
    exact kvsSkiplistSet_owns h hl v
  mod := by
    rintro inst rt m blocks others k v ⟨L, h, rfl, rfl⟩ hl -
    exact kvsSkiplistMod_owns h hl v
  del := by
    rintro inst rt m blocks others k ⟨L, h, rfl, rfl⟩ hl -
    exact kvsSkiplistDel_owns h hl
  destory := by
    rintro inst m blocks rt others ⟨L, h, rfl, rfl⟩ hl
    have hlen := h.length_le
    simp only [kvsSkiplistDestory, h.header_ne, if_false]
    refine loopFuel_bind ?_
    rw [KvsSkiplist.forwardAt_eq h.header_pos, ofExcept_ok, pure_bind]
    have hnodes : rt.Ledger (L.flatMap inst.blocks ++ (inst.blocks inst.header ++ others)) := by
      refine hl.perm ?_
      rw [List.flatMap_cons, ← List.append_assoc]
      exact List.perm_append_comm.append_right others
    refine (skiplistFreeNodes_owns h.linked_all (fun q hq => (h.height q hq).1) (by omega)
      hnodes).bind fun _ rt1 h1 => ?_
    have hheader : rt1.Ledger ((inst.key inst.header).ptr :: (inst.value inst.header).ptr ::
        inst.forwardPtr inst.header :: inst.header :: others) := by
      refine h1.perm ?_
      simp only [KvsSkiplist.blocks, List.perm_iff_count, List.count_append, List.count_cons,
        List.count_nil]
      intro x
      omega
    refine (kvsFree_ledger hheader).bind fun _ rt2 h2 => ?_
    refine (kvsFree_ledger h2.2).bind fun _ rt3 h3 => ?_
    refine (kvsFree_ledger h3.2).bind fun _ rt4 h4 => ?_
    exact (kvsFree_ledger h4.2).bind fun _ rt5 h5 => Triple.pure h5.2

-- ---------------------------------------------------------------------------
-- All four
-- ---------------------------------------------------------------------------

theorem hashWrite_undefined (hash : KvsHash) (w : EngineWrite) (hk : ¬HashAdmits w.key)
    (rt : Runtime) : hashOps.write hash w rt = .error .undefined := by
  have hundefined := hashOps_undefined hk hash rt
  cases w with
  | set k v => exact hundefined.set v
  | mod k v => exact hundefined.mod v
  | del k => exact hundefined.del

/-- Every engine keeps its account over every run, the hash table as long as no
key has a bucket index outside it; with such a key a write is undefined. -/
theorem engines_accounted (hash : KvsHash) (w : EngineWrite) (rt : Runtime) :
    Accounted arrayOps kvsArrayDestory ArrayOwns (fun _ => True) 1 2 ∧
    Accounted hashOps kvsHashDestory HashOwns HashAdmits 1 3 ∧
    Accounted rbtreeOps kvsRbtreeDestory RbOwns (fun _ => True) 1 3 ∧
    Accounted skiplistOps kvsSkiplistDestory SkOwns (fun _ => True) 4 4 ∧
    (¬HashAdmits w.key → hashOps.write hash w rt = .error .undefined) :=
  ⟨array_owning.accounted, hash_owning.accounted, rbtree_owning.accounted,
    skiplist_owning.accounted, fun hk => hashWrite_undefined hash w hk rt⟩

/-- A process with the hash table only: one key set, then deleted. -/
theorem engines_accounted_hash :
    Triple (hashOps.runCreated [.set [107] [118]]) (Runtime.start (fun _ => false) fun _ => false)
      (fun r rt => ∀ run, r = some run → ∃ m blocks, HashOwns run.2 rt.mallocs m blocks ∧
        blocks.length = 1 + 3 * m.keys.card ∧ rt.Ledger (blocks ++ [])) Never := by
  have haccounted := (engines_accounted ⟨none, fun _ => [], 0, 0⟩ (.del [107]) (Runtime.start (fun _ => false)
    fun _ => false)).2.1
  refine (haccounted _ [] [.set [107] [118]] (.del [107]) (ledger_start _ _) ?_).weaken
    fun r rt h run hrun => ?_
  · simp only [List.mem_cons, List.not_mem_nil, or_false, forall_eq_or_imp, forall_eq]
    decide
  · obtain ⟨m, blocks, ho, hsize, hl, -⟩ := h.2 run hrun
    exact ⟨m, blocks, ho, hsize, hl⟩

/-- One byte above 127 as the key: the first write of a run is undefined. -/
theorem engines_accounted_outOfRange :
    ¬Accounted hashOps kvsHashDestory HashOwns (fun _ => True) 1 3 := by
  intro h
  have hrun := h (Runtime.start (fun _ => false) fun _ => false) [] [.set [200] [118]] (.del [107])
    (ledger_start _ _) (fun _ _ => trivial)
  have hstop : hashOps.runCreated [.set [200] [118]]
      (Runtime.start (fun _ => false) fun _ => false) = .error .undefined := rfl
  exact hrun.stop hstop

end KvStore
