import KvStore.Engines.RbBalance

/-!
# The red-black tree holds a finite map

`RbStores inst n t`: the links form the balanced tree `t`, every node has its
two strings, and the keys ascend from left to right. The walks of the source
are moves of the focus; an insertion hangs a red node at the place the search
ends, a deletion takes out a node with at most one child.
-/

namespace KvStore

open Lib Lib.Links

def KvsRbtree.pairAt (T : KvsRbtree) (p : Ptr) : Bytes × Bytes :=
  ((T.key p).elim [] CString.bytes, (T.value p).elim [] CString.bytes)

structure RbStores (inst : KvsRbtree) (n : Nat) (t : Shape Ptr Color) : Prop where
  focus : inst.links.Focus [] t inst.links.root
  balanced : t.Balanced
  rootParent : inst.links.parent inst.links.root = inst.links.nil
  nilColor : inst.links.color inst.links.nil = .black
  nilKey : inst.key inst.links.nil = none
  nilValue : inst.value inst.links.nil = none
  nilPtr : inst.links.nil ≤ n
  ptr : ∀ p ∈ t.nodes, 1 ≤ p ∧ p ≤ n
  strings : ∀ p ∈ t.nodes, (inst.key p).isSome ∧ (inst.value p).isSome
  sorted : SortedKeys keyLt (t.nodes.map inst.pairAt)

def KvsRbtree.blocks (T : KvsRbtree) (p : Ptr) : List Ptr :=
  p :: ((T.key p).toList ++ (T.value p).toList).map CString.ptr

def RbHolds (inst : KvsRbtree) (n : Nat) (m : Contents) : Prop :=
  ∃ t, RbStores inst n t ∧ mapOf (t.nodes.map inst.pairAt) = m

section
variable {inst : KvsRbtree} {n : Nat} {t a b : Shape Ptr Color} {path : Path Ptr Color} {p : Ptr}
  {k : Bytes}

theorem RbStores.distinct (h : RbStores inst n t) : DistinctKeys (t.nodes.map inst.pairAt) :=
  h.sorted.distinct keyLt_irrefl

theorem RbStores.length_le (h : RbStores inst n t) : t.nodes.length ≤ n :=
  length_le_of_nodup h.focus.nodup_below h.ptr

theorem RbStores.length_blocks (h : RbStores inst n t) : ∀ p ∈ t.nodes, (inst.blocks p).length = 3 := by
  intro p hp
  obtain ⟨k, hk⟩ := Option.isSome_iff_exists.mp (h.strings p hp).1
  obtain ⟨v, hv⟩ := Option.isSome_iff_exists.mp (h.strings p hp).2
  simp [KvsRbtree.blocks, hk, hv]

theorem keyAt_eq (h : (inst.key p).isSome) : inst.keyAt p = .ok (inst.pairAt p).1 := by
  obtain ⟨s, hs⟩ := Option.isSome_iff_exists.mp h
  simp [KvsRbtree.keyAt, KvsRbtree.pairAt, hs]

def Between (inst : KvsRbtree) (path : Path Ptr Color) (k : Bytes) : Prop :=
  (∀ p ∈ Path.before path, keyLt (inst.pairAt p).1 k) ∧
    ∀ p ∈ Path.behind path, keyLt k (inst.pairAt p).1

theorem Between.down (h : Between inst path k)
    (hsorted : SortedKeys keyLt ((Path.plug path (.node p c a b)).nodes.map inst.pairAt)) :
    (keyLt k (inst.pairAt p).1 → Between inst (⟨.left, p, c, b⟩ :: path) k) ∧
    (keyLt (inst.pairAt p).1 k → Between inst (⟨.right, p, c, a⟩ :: path) k) := by
  rw [Path.nodes_plug] at hsorted
  simp only [SortedKeys, Shape.nodes, List.map_append, List.map_cons, List.pairwise_append,
    List.pairwise_cons, List.mem_append, List.mem_cons, List.mem_map] at hsorted
  obtain ⟨⟨-, ⟨-, ⟨hpb, -⟩, hap⟩, -⟩, -, -⟩ := hsorted
  constructor
  · intro hlt
    refine ⟨h.1, ?_⟩
    simp only [Path.behind, List.mem_append, List.mem_cons]
    rintro q ((rfl | hq) | hq)
    · exact hlt
    · exact strcmp_trans hlt (hpb _ ⟨q, hq, rfl⟩)
    · exact h.2 q hq
  · intro hlt
    refine ⟨?_, h.2⟩
    simp only [Path.before, List.mem_append, List.mem_singleton]
    rintro q (hq | hq | rfl)
    · exact h.1 q hq
    · exact strcmp_trans (hap _ ⟨q, hq, rfl⟩ _ (.inl rfl)) hlt
    · exact hlt

theorem rbtreeSearch_spec (hf : inst.links.Focus path t p) (hb : Between inst path k)
    (hkeys : ∀ q ∈ t.nodes, (inst.key q).isSome)
    (hsorted : SortedKeys keyLt ((Path.plug path t).nodes.map inst.pairAt))
    (hfuel : t.nodes.length < fuel) :
    (∃ path' t' q, inst.links.Focus path' t' q ∧ Path.plug path' t' = Path.plug path t ∧
      rbtreeSearch inst k fuel p = .ok q ∧
      ((∃ c a b, t' = .node q c a b ∧ (inst.pairAt q).1 = k) ∨
        (t' = .leaf ∧ Between inst path' k ∧
          insertDescend inst k fuel (Path.top inst.links.nil path) p =
            .ok (some (Path.top inst.links.nil path'))))) := by
  induction fuel generalizing path t p with
  | zero => omega
  | succ fuel ih =>
    cases t with
    | leaf =>
      have hp : p = inst.links.nil := hf.nil_iff.mpr rfl
      refine ⟨path, .leaf, p, hf, rfl, ?_, .inr ⟨rfl, hb, ?_⟩⟩
      · simp [rbtreeSearch, hp]
      · simp [insertDescend, hp]
    | node q c a b =>
      have hpq : p = q := hf.below.1
      subst hpq
      have hne : p ≠ inst.links.nil := hf.below.2.1
      have hkey := keyAt_eq (hkeys p (by simp [Shape.nodes]))
      obtain ⟨hleft, hright⟩ := hb.down hsorted
      simp only [Shape.nodes, List.mem_append, List.mem_cons, List.length_append,
        List.length_cons] at hkeys hfuel
      have hsearch : ∀ y, rbtreeSearch inst k (fuel + 1) p =
          (if strcmp k (inst.pairAt p).1 < 0 then rbtreeSearch inst k fuel (inst.links.child .left p)
            else if strcmp k (inst.pairAt p).1 > 0 then
              rbtreeSearch inst k fuel (inst.links.child .right p) else .ok p) ∧
          insertDescend inst k (fuel + 1) y p =
          (if strcmp k (inst.pairAt p).1 < 0 then
              insertDescend inst k fuel p (inst.links.child .left p)
            else if strcmp k (inst.pairAt p).1 > 0 then
              insertDescend inst k fuel p (inst.links.child .right p) else .ok none) := by
        intro y
        simp only [rbtreeSearch, insertDescend, ne_eq, hne, not_false_eq_true, if_true, hkey]
        exact ⟨rfl, rfl⟩
      rw [(hsearch 0).1, (hsearch _).2]
      rcases strcmp_trichotomy k (inst.pairAt p).1 with hlt | heq | hgt
      · simp only [hlt, if_true]
        exact ih (Focus.down (s := .left) hf) (hleft hlt) (fun q hq => hkeys q (.inl hq)) hsorted
          (by omega)
      · have hzero : strcmp k (inst.pairAt p).1 = 0 := strcmp_eq_zero.mpr heq
        simp only [hzero, Int.lt_irrefl, gt_iff_lt, if_false]
        exact ⟨path, _, p, hf, rfl, rfl, .inl ⟨c, a, b, rfl, heq.symm⟩⟩
      · rw [strcmp_swap k] at hgt
        have hnlt : ¬strcmp k (inst.pairAt p).1 < 0 := by omega
        have hgt' : strcmp k (inst.pairAt p).1 > 0 := by omega
        have hlt' : keyLt (inst.pairAt p).1 k := by rw [keyLt, strcmp_swap k]; omega
        simp only [hnlt, if_false, hgt', if_true]
        exact ih (Focus.down (s := .right) hf) (hright hlt')
          (fun q hq => hkeys q (.inr (.inr hq))) hsorted (by omega)

/-- The search from the root: at the node of the key, or at `nil` with the
place where the key belongs. -/
theorem RbStores.search (h : RbStores inst n t) (k : Bytes) (hfuel : t.nodes.length < fuel) :
    (∃ path q c a b, inst.links.Focus path (.node q c a b) q ∧
      Path.plug path (.node q c a b) = t ∧ (inst.pairAt q).1 = k ∧
      rbtreeSearch inst k fuel inst.links.root = .ok q) ∨
    (∃ path, inst.links.Focus path .leaf inst.links.nil ∧ Path.plug path .leaf = t ∧
      Between inst path k ∧ rbtreeSearch inst k fuel inst.links.root = .ok inst.links.nil ∧
      insertDescend inst k fuel inst.links.nil inst.links.root =
        .ok (some (Path.top inst.links.nil path))) := by
  have hbetween : Between inst [] k := ⟨by simp [Path.before], by simp [Path.behind]⟩
  obtain ⟨path, t', q, hf, hplug, hsearch, hend⟩ := rbtreeSearch_spec h.focus hbetween
    (fun q hq => (h.strings q hq).1) h.sorted hfuel
  rcases hend with ⟨c, a, b, rfl, hk⟩ | ⟨rfl, hb, hdescend⟩
  · exact .inl ⟨path, q, c, a, b, hf, hplug, hk, hsearch⟩
  · have hq : q = inst.links.nil := hf.nil_iff.mpr rfl
    subst hq
    exact .inr ⟨path, hf, hplug, hb, hsearch, hdescend⟩

-- ---------------------------------------------------------------------------
-- Insertion
-- ---------------------------------------------------------------------------

theorem insertHang_eq (hf : inst.links.Focus path .leaf p) (hb : Between inst path k)
    (hkeys : ∀ f ∈ path.head?, (inst.key f.ptr).isSome) (L : RbLinks)
    (hnil : L.nil = inst.links.nil) (z : Ptr) :
    insertHang inst k L (Path.top inst.links.nil path) z = .ok (L.setHole path z) := by
  cases path with
  | nil => simp [insertHang, Path.top, hnil, setHole]
  | cons f path =>
    have hne : f.ptr ≠ L.nil := by
      rw [hnil]
      exact hf.above.1
    have hkey := keyAt_eq (hkeys f rfl)
    simp only [insertHang, Path.top, hne, if_false, hkey, setHole]
    obtain ⟨s, q, c, far⟩ := f
    show (if strcmp k (inst.pairAt q).1 < 0 then _ else _) = _
    cases s with
    | left =>
      have hlt : strcmp k (inst.pairAt q).1 < 0 := hb.2 q (by simp [Path.behind])
      rw [if_pos hlt]
    | right =>
      have hgt : strcmp (inst.pairAt q).1 k < 0 := hb.1 q (by simp [Path.before])
      rw [strcmp_swap k] at hgt
      rw [if_neg (by omega)]

theorem focus_rootParent {T : RbLinks} (hf : T.Focus [] t T.root)
    (hleaf : t = .leaf → T.parent T.nil = T.nil) : T.parent T.root = T.nil := by
  rcases t.exists_join .left with rfl | ⟨q, c, a, b, rfl⟩
  · rw [hf.nil_iff.mpr rfl, hleaf rfl]
  · rw [hf.ptr, hf.parent]
    rfl

/-- The links `rbtree_insert` hands to the fixup: the new node, red and without
children, hangs below `y`. -/
def insertLinked (L : RbLinks) (z : Ptr) : RbLinks :=
  ((L.setChild .left z L.nil).setChild .right z L.nil).setColor z .red

theorem RbStores.hang (h : RbStores inst n (Path.plug path .leaf))
    (hf : inst.links.Focus path .leaf inst.links.nil) (hb : Between inst path k)
    (hnew : z ∉ (Path.plug path .leaf).nodes) (hnil : z ≠ inst.links.nil) (hfuel : n < fuel) :
    ∃ L, insertHang inst k (inst.links.setParent z (Path.top inst.links.nil path))
        (Path.top inst.links.nil path) z = .ok L ∧
      Inserting (insertLinked L z) path (.node z .red .leaf .leaf) z ∧
      (insertLinked L z).nil = inst.links.nil ∧ path.length < fuel := by
  have hlen := h.length_le
  have hnodes := Path.nodes_plug path (.leaf : Shape Ptr Color)
  simp only [Shape.nodes, List.append_nil] at hnodes
  have hperm := Path.before_behind_perm path
  have hmem : ∀ q, q ∈ Path.nodes path ↔ q ∈ (Path.plug path .leaf).nodes := by
    intro q
    rw [hnodes, hperm.mem_iff]
  have hznodes : z ∉ Path.nodes path := fun hz' => hnew ((hmem z).mp hz')
  refine ⟨_, insertHang_eq hf hb
    (fun f hfm => (h.strings f.ptr ((hmem _).mp (Path.head_mem_nodes f hfm))).1)
    (inst.links.setParent z (Path.top inst.links.nil path)) rfl z, ?_, ?_, ?_⟩
  · have hlinked := hf.link hnil hznodes Color.red
    obtain ⟨⟨m, hm, hpath⟩, -, hcolors, -⟩ := Path.balanced_plug.mp h.balanced
    unfold insertLinked
    rw [setHole_nil, setParent_nil]
    refine ⟨hlinked, ?_, ⟨m, ⟨m, hm, hm, rfl⟩, hpath⟩, ⟨trivial, trivial, fun _ => ⟨rfl, rfl⟩⟩,
      hcolors, rfl⟩
    simp only [setColor_nil, setChild_nil, setHole_nil, setParent_nil]
    rw [setColor_color, if_neg hnil.symm]
    simpa using h.nilColor
  · simp [insertLinked]
  · have := Path.length_le_nodes path
    rw [← hperm.length_eq, ← hnodes] at this
    omega

theorem rbtreeInsert_spec (h : RbStores inst n t) (hnew : z ∉ t.nodes) (hnil : z ≠ inst.links.nil)
    (hz : 1 ≤ z ∧ z ≤ n') (hn : n ≤ n') (hstrings : (inst.key z).isSome ∧ (inst.value z).isSome)
    (hk : (inst.pairAt z).1 ∉ mapOf (t.nodes.map inst.pairAt)) (hfuel : n < fuel) :
    ∃ L' t', rbtreeInsert fuel inst z = .ok { inst with links := L' } ∧
      RbStores { inst with links := L' } n' t' ∧ L'.nil = inst.links.nil ∧
      t'.nodes.Perm (z :: t.nodes) ∧
      mapOf (t'.nodes.map inst.pairAt) = (mapOf (t.nodes.map inst.pairAt)).insert
        (inst.pairAt z).1 (inst.pairAt z).2 := by
  have hlen := h.length_le
  obtain ⟨path, q, c, a, b, -, rfl, hkq, -⟩ | ⟨path, hf, rfl, hb, -, hdescend⟩ :=
    h.search (inst.pairAt z).1 (Nat.lt_of_le_of_lt hlen hfuel)
  · refine absurd (mem_mapOf.mpr ⟨(inst.pairAt q).2, ?_⟩) hk
    rw [← hkq, Path.nodes_plug]
    refine List.mem_map.mpr ⟨q, ?_, rfl⟩
    simp [Shape.nodes]
  have hnodes := Path.nodes_plug path (.leaf : Shape Ptr Color)
  simp only [Shape.nodes, List.append_nil] at hnodes
  obtain ⟨L, hhang, hins, hLnil, hpathlen⟩ := h.hang hf hb hnew hnil hfuel
  obtain ⟨L', t', hrun, hf', hbal, hnodes', hnil', hcolor'⟩ := rbtreeInsertFixup_spec hins hpathlen
  rw [Path.nodes_plug] at hnodes'
  simp only [Shape.nodes, List.nil_append, List.append_assoc, List.singleton_append] at hnodes'
  have hsplit := h.sorted
  rw [hnodes, List.map_append] at hsplit
  have hbefore : ∀ p ∈ (Path.before path).map inst.pairAt, keyLt p.1 (inst.pairAt z).1 := by
    simpa using hb.1
  have hbehind : ∀ p ∈ (Path.behind path).map inst.pairAt, keyLt (inst.pairAt z).1 p.1 := by
    simpa using hb.2
  have hmem' : ∀ q ∈ t'.nodes, q = z ∨ q ∈ (Path.plug path .leaf).nodes := by
    intro q hq
    rw [hnodes', List.mem_append, List.mem_cons] at hq
    rw [hnodes, List.mem_append]
    tauto
  have hroot : L'.parent L'.root = L'.nil := by
    refine focus_rootParent hf' fun hleaf => ?_
    rw [hleaf] at hnodes'
    exact absurd hnodes' (by simp [Shape.nodes])
  refine ⟨L', t', ?_, ⟨hf', hbal, hroot, hcolor', ?_, ?_, ?_, ?_, ?_, ?_⟩, hnil'.trans hLnil, ?_, ?_⟩
  · unfold insertLinked at hrun
    simp only [rbtreeInsert, keyAt_eq hstrings.1, hdescend, hhang, bind, Except.bind, setChild_nil,
      hrun]
  · show inst.key L'.nil = none
    rw [hnil', hLnil]
    exact h.nilKey
  · show inst.value L'.nil = none
    rw [hnil', hLnil]
    exact h.nilValue
  · show L'.nil ≤ n'
    rw [hnil', hLnil]
    exact Nat.le_trans h.nilPtr hn
  · intro q hq
    rcases hmem' q hq with rfl | hq
    · exact hz
    · exact ⟨(h.ptr q hq).1, Nat.le_trans (h.ptr q hq).2 hn⟩
  · intro q hq
    rcases hmem' q hq with rfl | hq
    · exact hstrings
    · exact h.strings q hq
  · show SortedKeys keyLt (t'.nodes.map inst.pairAt)
    rw [hnodes', List.map_append, List.map_cons]
    exact hsplit.insert hbefore hbehind _
  · rw [hnodes', hnodes]
    exact List.perm_middle
  · rw [hnodes', hnodes, List.map_append, List.map_append, List.map_cons]
    exact mapOf_insert_between keyLt_irrefl hsplit hbefore hbehind _

-- ---------------------------------------------------------------------------
-- Deletion
-- ---------------------------------------------------------------------------

/-- Taking out a node with one subtree, on side `s`: the subtree moves up, and
the parent of what is there now, be it `nil`, is the node above. -/
theorem rbtreeUnlink_spec {T : RbLinks} (hf : T.Focus path (.join s y c t .leaf) y) :
    ∃ T' x, rbtreeUnlink T y = (T', x) ∧ T'.Focus path t x ∧
      (t = .leaf → T'.parent T'.nil = Path.top T'.nil path) ∧ T'.nil = T.nil ∧
      T'.color = T.color := by
  obtain ⟨-, hy, -, hpar, ht, hnone⟩ := rep_join.mp hf.below
  have hx : (if T.child .left y ≠ T.nil then T.child .left y
      else if T.child .right y ≠ T.nil then T.child .right y else T.nil) = T.child s y := by
    have hnil : T.child s.other y = T.nil := hnone
    cases s with
    | left =>
      by_cases hl : T.child .left y = T.nil
      · simp only [Side.other] at hnil
        simp [hl, hnil]
      · simp [hl]
    | right =>
      simp only [Side.other] at hnil
      by_cases hr : T.child .right y = T.nil
      · simp [hr, hnil]
      · simp [hr, hnil]
  have hnodup := (List.Perm.append_right (Path.nodes path)
    (Shape.nodes_join_perm s y c t .leaf)).nodup_iff.mp hf.nodup
  simp only [Shape.nodes, List.append_nil, List.cons_append, List.nodup_cons, List.mem_append,
    not_or] at hnodup
  obtain ⟨⟨hyt, hyw⟩, hrest⟩ := hnodup
  obtain ⟨hnt, hnw, htw⟩ := List.nodup_append.mp hrest
  -- `x` is in the subtree or is `nil`, so it is no node of the path
  have hxy : y ≠ T.child s y := by
    intro heq
    have hne : T.child s y ≠ T.nil := fun h => hy (heq.trans h)
    exact hyt (heq ▸ ht.mem hne)
  have hxw : ∀ q ∈ Path.nodes path, q ≠ T.child s y ∨ T.child s y = T.nil := by
    intro q hq
    by_cases hne : T.child s y = T.nil
    · exact .inr hne
    · exact .inl fun heq => htw _ (ht.mem hne) q hq heq.symm
  have hwnil : ∀ q ∈ Path.nodes path, q ≠ T.nil := by
    intro q hq
    rcases List.mem_append.mp ((Path.before_behind_perm path).mem_iff.mpr hq) with h | h
    · refine hf.whole.below.ne_nil q ?_
      rw [Path.nodes_plug]
      simp [h]
    · refine hf.whole.below.ne_nil q ?_
      rw [Path.nodes_plug]
      simp [h]
  have hxw' : ∀ q ∈ Path.nodes path, q ≠ T.child s y := by
    intro q hq
    rcases hxw q hq with h | h
    · exact h
    · rw [h]
      exact hwnil q hq
  have hsibling := focus_sibling hf
  obtain ⟨T', hT'⟩ : ∃ T', (T.setParent (T.child s y) (Path.top T.nil path)).setHole path
    (T.child s y) = T' := ⟨_, rfl⟩
  have hreplace : rbtreeReplace .left (T.setParent (T.child s y) (Path.top T.nil path)) y
      (T.child s y) = T' := by
    rw [← hT']
    refine rbtreeReplace_eq ?_ ?_ .left _
    · rw [setParent_parent, if_neg hxy, hpar]
      rfl
    · exact hsibling
  have hnil : T'.nil = T.nil := by rw [← hT']; simp
  have hcolor : T'.color = T.color := by rw [← hT']; simp
  have hparent : ∀ q, q ≠ T.child s y → T'.parent q = T.parent q := by
    intro q hq
    rw [← hT', setHole_parent, setParent_parent, if_neg hq]
  have hxpar : T'.parent (T.child s y) = Path.top T.nil path := by
    rw [← hT', setHole_parent, setParent_parent, if_pos rfl]
  have hchild : ∀ q r, (∀ f ∈ path.head?, q ≠ f.ptr ∨ r ≠ f.side) → T'.child r q = T.child r q := by
    intro q r hr
    rw [← hT', setHole_child hr]
    rfl
  refine ⟨T', T.child s y, ?_, ⟨?_, ?_, hrest⟩, ?_, hnil, hcolor⟩
  · simp only [rbtreeUnlink, hx, hpar, hreplace]
  · have hfill : T'.RepPath path (T'.hole path) := by
      refine hf.above.refill hnw hnil ?_ (fun q _ => by rw [hcolor]) (fun q _ r hr => hchild q r hr)
        fun q hq => hparent q (hxw' q hq)
      intro hne
      rw [← hT', setHole_root hne]
      rfl
    have hhole : T'.hole path = T.child s y := by rw [← hT', hole_setHole]
    rwa [hhole] at hfill
  · refine ht.move hnt hnil (fun q _ => by rw [hcolor]) ?_ (fun q _ hne => hparent q hne) ?_
    · intro q hq r
      refine hchild q r fun f hfm => .inl fun heq => htw q hq q ?_ rfl
      rw [heq]
      exact Path.head_mem_nodes f hfm
    · intro _
      rw [hxpar, hnil]
  · intro hleaf
    have hxnil : T.child s y = T.nil := by
      subst hleaf
      exact ht
    rw [hxnil] at hxpar
    rw [hnil, hxpar]

theorem rbtreeUnlink_deleting {T : RbLinks} (hf : T.Focus path (.join s y .black t .leaf) y)
    (hbal : (Path.plug path (.join s y .black t .leaf)).Balanced) (hnil : T.color T.nil = .black) :
    ∃ L x, rbtreeUnlink T y = (L, x) ∧ Deleting L path t x := by
  obtain ⟨L, x, hunlink, hf', hparent, hLnil, hLcolor⟩ := rbtreeUnlink_spec hf
  obtain ⟨⟨m, hm, hheight⟩, hcolors, habove, -⟩ := Path.balanced_plug.mp hbal
  obtain ⟨m', ht, -, rfl⟩ := Shape.blackHeight_join.mp hm
  obtain ⟨hct, -, -⟩ := Shape.noRedRed_join.mp hcolors
  refine ⟨L, x, hunlink, hf', hparent, by rw [hLnil, hLcolor, hnil], ⟨m', ht, hheight⟩, ?_, habove⟩
  cases t with
  | leaf => exact hct
  | node q d a b => exact ⟨hct.1, hct.2.1, by simp⟩

theorem deleteFixup_stop {T : RbLinks} (hroot : T.root = x) (hfuel : 0 < fuel) :
    rbtreeDeleteFixup fuel T x = .ok (T.setColor x .black) := by
  obtain ⟨k, rfl⟩ : ∃ k, fuel = k + 1 := ⟨fuel - 1, by omega⟩
  exact if_neg (by simp [hroot])

/-- Taking out and repairing: the other nodes stay, in order. -/
theorem rbtreeRemove_spec {T : RbLinks} (hf : T.Focus path (.join s y c t .leaf) y)
    (hbal : (Path.plug path (.join s y c t .leaf)).Balanced) (hnil : T.color T.nil = .black)
    (hfuel : path.length < fuel) :
    ∃ L x L' t', rbtreeUnlink T y = (L, x) ∧
      deleteRepair fuel L y x = .ok L' ∧
      L'.Focus [] t' L'.root ∧ t'.Balanced ∧
      t'.nodes = Path.before path ++ t.nodes ++ Path.behind path ∧ L'.nil = T.nil ∧
      L'.color L'.nil = .black ∧ L'.parent L'.root = L'.nil := by
  obtain ⟨L, x, hunlink, hf', hparent, hLnil, hLcolor⟩ := rbtreeUnlink_spec hf
  obtain ⟨⟨m, hm, hheight⟩, hcolors, habove, hroot⟩ := Path.balanced_plug.mp hbal
  obtain ⟨m', ht, -, rfl⟩ := Shape.blackHeight_join.mp hm
  obtain ⟨hct, -, hred⟩ := Shape.noRedRed_join.mp hcolors
  have hLblack : L.color L.nil = .black := by rw [hLnil, hLcolor, hnil]
  have hcy : L.color y = c := by rw [hLcolor, hf.color]
  cases c with
  | black =>
    obtain ⟨L₁, x₁, hunlink₁, hdel⟩ := rbtreeUnlink_deleting hf hbal hnil
    rw [hunlink] at hunlink₁
    obtain ⟨rfl, rfl⟩ := Prod.mk.inj hunlink₁
    obtain ⟨L', t', hrun, hf'', hbal', hnodes, hnil', hcolor'⟩ :=
      rbtreeDeleteFixup_spec hdel (by omega) (.inr hfuel)
    refine ⟨L, x, L', t', hunlink, ?_, hf'', hbal', ?_, hnil'.trans hLnil, hcolor', ?_⟩
    · rw [deleteRepair, if_pos hcy, hrun]
    · rw [hnodes, Path.nodes_plug]
    · refine focus_rootParent hf'' fun hleaf => ?_
      -- nothing is left: the loop stops at once and `nil` has the parent of the node taken out
      rw [hleaf] at hnodes
      obtain ⟨rfl, rfl⟩ := Path.plug_eq_leaf (Shape.nodes_eq_nil.mp hnodes.symm)
      rw [deleteFixup_stop hf'.above hfuel] at hrun
      cases hrun
      exact hparent rfl
  | red =>
    -- a red node counts for nothing, and what moves up below its parent is black
    have hblack : t.rootColor = .black := (hred rfl).1
    refine ⟨L, x, L, _, hunlink, ?_, hf'.whole, Path.balanced_plug.mpr
      ⟨⟨m', ht, hheight⟩, hct, habove, by simp [hblack]⟩, Path.nodes_plug path t, hLnil, hLblack, ?_⟩
    · rw [deleteRepair, if_neg (by simp [hcy])]
    · refine focus_rootParent hf'.whole fun hleaf => ?_
      obtain ⟨rfl, rfl⟩ := Path.plug_eq_leaf hleaf
      exact hparent rfl

theorem rbtreeMini_spec {T : RbLinks} (hf : T.Focus path t p) (hne : t ≠ .leaf)
    (hfuel : t.nodes.length < fuel) :
    ∃ path' y c r, rbtreeMini fuel T p = .ok y ∧ T.Focus path' (.node y c .leaf r) y ∧
      Path.plug path' (.node y c .leaf r) = Path.plug path t ∧
      Path.before path' = Path.before path := by
  induction fuel generalizing path t p with
  | zero => omega
  | succ fuel ih =>
    cases t with
    | leaf => exact absurd rfl hne
    | node q c l r =>
      have hpq : p = q := hf.below.1
      subst hpq
      have hdown : T.Focus (⟨.left, p, c, r⟩ :: path) l (T.child .left p) :=
        Focus.down (s := .left) hf
      simp only [Shape.nodes, List.length_append, List.length_cons] at hfuel
      by_cases hl : l = .leaf
      · subst hl
        refine ⟨path, p, c, r, ?_, hf, rfl, rfl⟩
        simp only [rbtreeMini, hdown.nil_iff.mpr rfl, ne_eq, not_true_eq_false, if_false]
      · have hnil : T.child .left p ≠ T.nil := fun h => hl (hdown.nil_iff.mp h)
        simp only [rbtreeMini, ne_eq, hnil, not_false_eq_true, if_true]
        obtain ⟨path', y, d, r', hmini, hf', hplug, hbefore⟩ := ih hdown hl (by omega)
        exact ⟨path', y, d, r', hmini, hf', hplug, hbefore⟩

theorem RbStores.path_length (h : RbStores inst n (Path.plug path t)) (hfuel : n < fuel) :
    path.length < fuel := by
  have hlen := h.length_le
  have h1 := Path.length_le_nodes path
  have h2 := (Path.before_behind_perm path).length_eq
  rw [Path.nodes_plug] at hlen
  simp only [List.length_append] at h2 hlen
  omega

theorem deleteTarget_single {T : RbLinks} (hf : T.Focus path (.join s z c t .leaf) z) (fuel : Nat) :
    deleteTarget fuel T z = .ok z := by
  have hone : T.child .left z = T.nil ∨ T.child .right z = T.nil := by
    have := hf.downOther.nil_iff.mpr rfl
    cases s with
    | left => exact .inr this
    | right => exact .inl this
  exact if_pos hone

theorem deleteTarget_double {T : RbLinks} (hf : T.Focus path (.node z c l r) z) (hl : l ≠ .leaf)
    (hr : r ≠ .leaf) (hfuel : r.nodes.length < fuel) :
    ∃ path' y cy r', deleteTarget fuel T z = .ok y ∧ T.Focus path' (.join .right y cy r' .leaf) y ∧
      Path.plug path' (.join .right y cy r' .leaf) = Path.plug path (.node z c l r) ∧
      Path.before path' = Path.before (⟨.right, z, c, l⟩ :: path) := by
  have hleft : T.Focus (⟨.left, z, c, r⟩ :: path) l (T.child .left z) := Focus.down (s := .left) hf
  have hright : T.Focus (⟨.right, z, c, l⟩ :: path) r (T.child .right z) :=
    Focus.down (s := .right) hf
  have hlnil : T.child .left z ≠ T.nil := fun h' => hl (hleft.nil_iff.mp h')
  have hrnil : T.child .right z ≠ T.nil := fun h' => hr (hright.nil_iff.mp h')
  obtain ⟨path', y, cy, r', hmini, hfy, hplug, hbefore⟩ := rbtreeMini_spec hright hr hfuel
  refine ⟨path', y, cy, r', ?_, hfy, hplug, hbefore⟩
  rw [deleteTarget, if_neg (by tauto), rbtreeSuccessor, if_pos hrnil, hmini]

theorem RbStores.shrink {t' : Shape Ptr Color} (h : RbStores inst n t) (hf : L.Focus [] t' L.root)
    (hbal : t'.Balanced) (hroot : L.parent L.root = L.nil) (hnil : L.nil = inst.links.nil)
    (hcolor : L.color L.nil = .black) (hnodes : ∀ q ∈ t'.nodes, q ∈ t.nodes)
    (hkey : key inst.links.nil = none) (hvalue : value inst.links.nil = none)
    (hstrings : ∀ q ∈ t'.nodes, (key q).isSome ∧ (value q).isSome)
    (hsorted : SortedKeys keyLt (t'.nodes.map (KvsRbtree.pairAt ⟨L, key, value⟩))) :
    RbStores ⟨L, key, value⟩ n t' := by
  refine ⟨hf, hbal, hroot, hcolor, ?_, ?_, ?_, fun q hq => h.ptr q (hnodes q hq), hstrings, hsorted⟩
  · show key L.nil = none
    rw [hnil, hkey]
  · show value L.nil = none
    rw [hnil, hvalue]
  · show L.nil ≤ n
    rw [hnil]
    exact h.nilPtr

structure RbRemoved (inst : KvsRbtree) (n : Nat) (t : Shape Ptr Color) (k : Bytes)
    (inst' : KvsRbtree) (y : Ptr) (t' : Shape Ptr Color) : Prop where
  stores : RbStores inst' n t'
  nil : inst'.links.nil = inst.links.nil
  map : mapOf (t'.nodes.map inst'.pairAt) = (mapOf (t.nodes.map inst.pairAt)).erase k
  nodes : t.nodes.Perm (y :: t'.nodes)
  blocks : (t.nodes.flatMap inst.blocks).Perm (inst'.blocks y ++ t'.nodes.flatMap inst'.blocks)

theorem rbtreeDelete_single (h : RbStores inst n (Path.plug path (.join s z c t .leaf)))
    (hf : inst.links.Focus path (.join s z c t .leaf) z) (hfuel : n < fuel) :
    ∃ inst' y t', rbtreeDelete fuel inst z = .ok (inst', y) ∧
      RbRemoved inst n (Path.plug path (.join s z c t .leaf)) (inst.pairAt z).1 inst' y t' := by
  obtain ⟨L, x, L', t', hunlink, hrun, hf', hbal, hnodes', hnil, hcolor, hroot⟩ :=
    rbtreeRemove_spec hf h.balanced h.nilColor (h.path_length hfuel)
  -- in order: what is before and behind the node taken out
  obtain ⟨A, B, hsplit, hsplit'⟩ : ∃ A B,
      (Path.plug path (.join s z c t .leaf)).nodes = A ++ z :: B ∧ t'.nodes = A ++ B := by
    rw [Path.nodes_plug, hnodes']
    cases s with
    | left => exact ⟨Path.before path ++ t.nodes, Path.behind path, by simp [Shape.join, Shape.nodes],
        by simp⟩
    | right => exact ⟨Path.before path, t.nodes ++ Path.behind path,
        by simp [Shape.join, Shape.nodes], by simp⟩
  have hsorted := h.sorted
  have hdistinct := h.distinct
  rw [hsplit, List.map_append, List.map_cons] at hsorted hdistinct
  have hmem : ∀ q ∈ t'.nodes, q ∈ (Path.plug path (.join s z c t .leaf)).nodes := by
    intro q hq
    rw [hsplit'] at hq
    rw [hsplit]
    simp only [List.mem_append, List.mem_cons] at hq ⊢
    tauto
  refine ⟨⟨L', inst.key, inst.value⟩, z, t', ?_, ?_, hnil, ?_, ?_, ?_⟩
  · simp only [rbtreeDelete, deleteTarget_single hf, bind, Except.bind, hunlink, hrun, ne_eq,
      not_true_eq_false, if_false]
  · refine h.shrink hf' hbal hroot hnil hcolor hmem h.nilKey h.nilValue (fun q hq => h.strings q (hmem q hq)) ?_
    rw [hsplit', List.map_append]
    exact hsorted.remove
  · rw [hsplit, hsplit', List.map_append, List.map_append, List.map_cons]
    exact mapOf_remove hdistinct
  · rw [hsplit, hsplit']
    exact List.perm_middle
  · rw [hsplit, hsplit', ← List.flatMap_cons]
    exact List.Perm.flatMap_right _ List.perm_middle

/-- A node with two subtrees takes the strings of its successor, which is
taken out in its place. -/
theorem rbtreeDelete_double (h : RbStores inst n (Path.plug path (.node z c l r)))
    (hf : inst.links.Focus path (.node z c l r) z) (hl : l ≠ .leaf) (hr : r ≠ .leaf)
    (hfuel : n < fuel) :
    ∃ inst' y t', rbtreeDelete fuel inst z = .ok (inst', y) ∧
      RbRemoved inst n (Path.plug path (.node z c l r)) (inst.pairAt z).1 inst' y t' := by
  have hlen := h.length_le
  have hrlen : r.nodes.length < fuel := by
    rw [Path.nodes_plug] at hlen
    simp only [Shape.nodes, List.length_append, List.length_cons] at hlen
    omega
  obtain ⟨path', y, cy, r', htarget, hfy, hplug', hbefore⟩ := deleteTarget_double hf hl hr hrlen
  have hpathlen : path'.length < fuel := RbStores.path_length (hplug'.symm ▸ h) hfuel
  obtain ⟨L, x, L', t', hunlink, hrun, hf', hbal, hnodes', hnil, hcolor, hroot⟩ :=
    rbtreeRemove_spec (s := .right) hfy (hplug'.symm ▸ h.balanced) h.nilColor hpathlen
  -- in order: `z`, its successor `y` and the rest
  obtain ⟨A, B, hsplit, hsplit'⟩ : ∃ A B,
      (Path.plug path (.node z c l r)).nodes = A ++ z :: y :: B ∧ t'.nodes = A ++ z :: B := by
    refine ⟨Path.before path ++ l.nodes, r'.nodes ++ Path.behind path', ?_, ?_⟩
    · rw [← hplug', Path.nodes_plug, hbefore]
      simp [Path.before, Shape.join, Shape.nodes]
    · rw [hnodes', hbefore]
      simp [Path.before]
  have hnodup := h.focus.nodup_below
  rw [hsplit] at hnodup
  simp only [List.nodup_append, List.nodup_cons, List.mem_cons, not_or] at hnodup
  obtain ⟨-, ⟨⟨hzy, hzB⟩, hyB, -⟩, hA⟩ := hnodup
  have hsorted := h.sorted
  have hdistinct := h.distinct
  rw [hsplit, List.map_append, List.map_cons, List.map_cons] at hsorted hdistinct
  have hmem : ∀ q ∈ t'.nodes, q ∈ (Path.plug path (.node z c l r)).nodes := by
    intro q hq
    rw [hsplit'] at hq
    rw [hsplit]
    simp only [List.mem_append, List.mem_cons] at hq ⊢
    tauto
  have hymem : y ∈ (Path.plug path (.node z c l r)).nodes := by rw [hsplit]; simp
  have hzmem : z ∈ (Path.plug path (.node z c l r)).nodes := by rw [hsplit]; simp
  have hne_nil : z ≠ inst.links.nil ∧ y ≠ inst.links.nil :=
    ⟨h.focus.below.ne_nil z hzmem, h.focus.below.ne_nil y hymem⟩
  have hswapz : ∀ f, swapField z y f z = f y := fun f => if_pos rfl
  have hswapq : ∀ f q, q ≠ z → q ≠ y → swapField z y f q = f q := by
    intro f q hq hq'
    simp only [swapField, hq, hq', if_false]
  have hpairs : t'.nodes.map (KvsRbtree.pairAt ⟨L', swapField z y inst.key, swapField z y inst.value⟩) =
      A.map inst.pairAt ++ inst.pairAt y :: B.map inst.pairAt := by
    rw [hsplit', List.map_append, List.map_cons]
    congr 1
    · refine List.map_congr_left fun q hq => ?_
      have hqz : q ≠ z := hA q hq z (.inl rfl)
      have hqy : q ≠ y := hA q hq y (.inr (.inl rfl))
      simp only [KvsRbtree.pairAt, hswapq _ q hqz hqy]
    · congr 1
      · simp only [KvsRbtree.pairAt, hswapz]
      · refine List.map_congr_left fun q hq => ?_
        have hqz : q ≠ z := fun heq => hzB (heq ▸ hq)
        have hqy : q ≠ y := fun heq => hyB (heq ▸ hq)
        simp only [KvsRbtree.pairAt, hswapq _ q hqz hqy]
  refine ⟨⟨L', swapField z y inst.key, swapField z y inst.value⟩, y, t', ?_, ?_, hnil, ?_, ?_, ?_⟩
  · have hyz : ¬y = z := fun h' => hzy h'.symm
    simp only [rbtreeDelete, htarget, bind, Except.bind, hunlink, hrun, ne_eq, hyz,
      not_false_eq_true, if_true]
  · refine h.shrink hf' hbal hroot hnil hcolor hmem ?_ ?_ ?_ ?_
    · rw [hswapq _ _ (Ne.symm hne_nil.1) (Ne.symm hne_nil.2)]
      exact h.nilKey
    · rw [hswapq _ _ (Ne.symm hne_nil.1) (Ne.symm hne_nil.2)]
      exact h.nilValue
    · intro q hq
      by_cases hqz : q = z
      · rw [hqz, hswapz, hswapz]
        exact h.strings y hymem
      · have hqy : q ≠ y := by
          rintro rfl
          rw [hsplit', List.mem_append, List.mem_cons] at hq
          rcases hq with hq | hq | hq
          · exact hA q hq q (.inr (.inl rfl)) rfl
          · exact hzy hq.symm
          · exact hyB hq
        rw [hswapq _ q hqz hqy, hswapq _ q hqz hqy]
        exact h.strings q (hmem q hq)
    · rw [hpairs]
      exact hsorted.remove
  · rw [hpairs, hsplit, List.map_append, List.map_cons, List.map_cons]
    exact mapOf_remove hdistinct
  · rw [hsplit, hsplit', List.append_cons, List.append_cons A z B]
    exact List.perm_middle
  · have hother : ∀ q, q ≠ z → q ≠ y → KvsRbtree.blocks ⟨L', swapField z y inst.key,
        swapField z y inst.value⟩ q = inst.blocks q := by
      intro q hqz hqy
      simp only [KvsRbtree.blocks, hswapq _ q hqz hqy]
    have hswapy : ∀ f, swapField z y f y = f z := fun f => (if_neg (Ne.symm hzy)).trans (if_pos rfl)
    have hAB : ∀ q, q ∈ A ∨ q ∈ B → q ≠ z ∧ q ≠ y := by
      rintro q (hq | hq)
      · exact ⟨hA q hq z (.inl rfl), hA q hq y (.inr (.inl rfl))⟩
      · exact ⟨fun heq => hzB (heq ▸ hq), fun heq => hyB (heq ▸ hq)⟩
    rw [hsplit, hsplit']
    simp only [List.flatMap_append, List.flatMap_cons]
    rw [List.flatMap_congr fun q hq => hother q (hAB q (.inl hq)).1 (hAB q (.inl hq)).2,
      List.flatMap_congr fun q hq => hother q (hAB q (.inr hq)).1 (hAB q (.inr hq)).2]
    simp only [KvsRbtree.blocks, hswapz, hswapy, List.perm_iff_count, List.count_append,
      List.count_cons]
    intro q
    omega

theorem rbtreeDelete_spec (h : RbStores inst n (Path.plug path (.node z c l r)))
    (hf : inst.links.Focus path (.node z c l r) z) (hfuel : n < fuel) :
    ∃ inst' y t', rbtreeDelete fuel inst z = .ok (inst', y) ∧
      RbRemoved inst n (Path.plug path (.node z c l r)) (inst.pairAt z).1 inst' y t' := by
  by_cases hr : r = .leaf
  · subst hr
    exact rbtreeDelete_single (s := .left) h hf hfuel
  · by_cases hl : l = .leaf
    · subst hl
      exact rbtreeDelete_single (s := .right) h hf hfuel
    · exact rbtreeDelete_double h hf hl hr hfuel

-- ---------------------------------------------------------------------------
-- The operations
-- ---------------------------------------------------------------------------

/-- What the search says about the map. -/
theorem RbStores.found (h : RbStores inst n t) (k : Bytes) (hfuel : n < fuel) :
    (∃ path q c a b, inst.links.Focus path (.node q c a b) q ∧
      Path.plug path (.node q c a b) = t ∧ (inst.pairAt q).1 = k ∧ q ≠ inst.links.nil ∧
      rbtreeSearch inst k fuel inst.links.root = .ok q ∧ k ∈ mapOf (t.nodes.map inst.pairAt)) ∨
    (rbtreeSearch inst k fuel inst.links.root = .ok inst.links.nil ∧
      k ∉ mapOf (t.nodes.map inst.pairAt)) := by
  have hlen := h.length_le
  obtain ⟨path, q, c, a, b, hf, rfl, hk, hsearch⟩ | ⟨path, -, rfl, hb, hsearch, -⟩ :=
    h.search k (Nat.lt_of_le_of_lt hlen hfuel)
  · refine .inl ⟨path, q, c, a, b, hf, rfl, hk, hf.below.2.1, hsearch, mem_mapOf.mpr
      ⟨(inst.pairAt q).2, ?_⟩⟩
    rw [← hk, Path.nodes_plug]
    exact List.mem_map.mpr ⟨q, by simp [Shape.nodes], rfl⟩
  · refine .inr ⟨hsearch, ?_⟩
    rw [Path.nodes_plug]
    simp only [Shape.nodes, List.append_nil, List.map_append]
    refine notMem_between keyLt_irrefl ?_ ?_
    · simpa using hb.1
    · simpa using hb.2

theorem RbStores.later (h : RbStores inst n t) (hn : n ≤ n') : RbStores inst n' t :=
  ⟨h.focus, h.balanced, h.rootParent, h.nilColor, h.nilKey, h.nilValue, Nat.le_trans h.nilPtr hn,
    fun p hp => ⟨(h.ptr p hp).1, Nat.le_trans (h.ptr p hp).2 hn⟩, h.strings, h.sorted⟩

theorem RbStores.setValue (h : RbStores inst n (Path.plug path (.node q c a b))) (hn : n ≤ n')
    (v : CString) :
    RbStores (inst.setValue q v) n' (Path.plug path (.node q c a b)) ∧
      mapOf ((Path.plug path (.node q c a b)).nodes.map (inst.setValue q v).pairAt) =
        (mapOf ((Path.plug path (.node q c a b)).nodes.map inst.pairAt)).insert (inst.pairAt q).1
          v.bytes := by
  obtain ⟨A, B, hsplit⟩ : ∃ A B, (Path.plug path (.node q c a b)).nodes = A ++ q :: B :=
    ⟨Path.before path ++ a.nodes, b.nodes ++ Path.behind path, by
      rw [Path.nodes_plug]; simp [Shape.nodes]⟩
  have hnodup := h.focus.nodup_below
  rw [hsplit] at hnodup
  simp only [List.nodup_append, List.nodup_cons, List.mem_cons] at hnodup
  obtain ⟨-, ⟨hqB, -⟩, hA⟩ := hnodup
  have hsame : ∀ p, p ≠ q → (inst.setValue q v).pairAt p = inst.pairAt p := by
    intro p hp
    simp [KvsRbtree.pairAt, KvsRbtree.setValue, hp]
  have hpairs : (Path.plug path (.node q c a b)).nodes.map (inst.setValue q v).pairAt =
      A.map inst.pairAt ++ ((inst.pairAt q).1, v.bytes) :: B.map inst.pairAt := by
    rw [hsplit, List.map_append, List.map_cons]
    congr 1
    · exact List.map_congr_left fun p hp => hsame p (hA p hp q (.inl rfl))
    · congr 1
      · simp [KvsRbtree.pairAt, KvsRbtree.setValue]
      · exact List.map_congr_left fun p hp => hsame p fun heq => hqB (heq ▸ hp)
  have hqmem : q ∈ (Path.plug path (.node q c a b)).nodes := by rw [hsplit]; simp
  have hqnil := h.focus.below.ne_nil q hqmem
  have hsorted := h.sorted
  have hdistinct := h.distinct
  rw [hsplit, List.map_append, List.map_cons] at hsorted hdistinct
  have hlater := h.later hn
  refine ⟨⟨h.focus, h.balanced, h.rootParent, h.nilColor, h.nilKey, ?_, hlater.nilPtr, hlater.ptr, ?_, ?_⟩, ?_⟩
  · show (if inst.links.nil = q then some v else inst.value inst.links.nil) = none
    rw [if_neg (Ne.symm hqnil), h.nilValue]
  · intro p hp
    refine ⟨(h.strings p hp).1, ?_⟩
    show (if p = q then some v else inst.value p).isSome
    split
    · rfl
    · exact (h.strings p hp).2
  · rw [hpairs]
    exact hsorted.replace _
  · rw [hpairs, hsplit, List.map_append, List.map_cons]
    exact mapOf_replace hdistinct

theorem rbtreeVisit_spec (hf : inst.links.Focus path t p)
    (hstrings : ∀ q ∈ t.nodes, (inst.key q).isSome ∧ (inst.value q).isSome)
    (hfuel : t.nodes.length < fuel) : rbtreeVisit inst fuel p = .ok (t.nodes.map inst.pairAt) := by
  induction fuel generalizing path t p with
  | zero => omega
  | succ fuel ih =>
    cases t with
    | leaf =>
      have hp : p = inst.links.nil := hf.nil_iff.mpr rfl
      simp [rbtreeVisit, hp, Shape.nodes]
    | node q c l r =>
      have hpq : p = q := hf.below.1
      subst hpq
      have hne : p ≠ inst.links.nil := hf.below.2.1
      simp only [Shape.nodes, List.mem_append, List.mem_cons, List.length_append,
        List.length_cons] at hstrings hfuel
      have hl := ih (Focus.down (s := .left) hf) (fun q hq => hstrings q (.inl hq)) (by omega)
      have hr := ih (Focus.down (s := .right) hf) (fun q hq => hstrings q (.inr (.inr hq))) (by omega)
      obtain ⟨hk, hv⟩ := hstrings p (.inr (.inl rfl))
      obtain ⟨ks, hks⟩ := Option.isSome_iff_exists.mp hk
      obtain ⟨vs, hvs⟩ := Option.isSome_iff_exists.mp hv
      simp only [rbtreeVisit, hne, if_false, hl, hr, bind, Except.bind, hks, hvs, Shape.nodes,
        List.map_append, List.map_cons, List.append_assoc, List.singleton_append]
      simp [KvsRbtree.pairAt, hks, hvs]

theorem kvsRbtreeMod_found (h : RbStores inst rt.mallocs t) (hk : k ∈ mapOf (t.nodes.map inst.pairAt))
    (v : Bytes) :
    Triple (kvsRbtreeMod inst k v) rt
      (fun r rt' => Wrote RbHolds rt inst ((mapOf (t.nodes.map inst.pairAt)).insert k v)
        (fun c => c < 0 ∧ rt.CanFail) r rt') Never := by
  refine loopFuel_bind ?_
  obtain ⟨path, q, c, a, b, hf, rfl, rfl, hq, hsearch, -⟩ | ⟨-, hnot⟩ :=
    h.found k (show rt.mallocs < rt.mallocs + 2 by omega)
  · simp only [hsearch, ofExcept_ok, pure_bind, hq, if_false]
    refine (copyString_spec v rt).bind fun r rt' hr => ?_
    obtain ⟨hext, ⟨rfl, hfail⟩ | ⟨w, rfl, rfl, -, -⟩⟩ := hr
    · exact Triple.pure (Wrote.unchanged hext (by decide) ⟨by decide, hfail⟩)
    · refine (freeString_spec _ rt').bind fun _ rt'' hfree => ?_
      have hext' := hext.trans hfree.1
      exact Triple.pure (Wrote.done hext' ⟨_, h.setValue hext'.mallocs w⟩)
  · exact absurd hk hnot

theorem kvsRbtreeMod_missing (h : RbStores inst rt.mallocs t)
    (hk : k ∉ mapOf (t.nodes.map inst.pairAt)) (v : Bytes) :
    Triple (kvsRbtreeMod inst k v) rt (fun r rt' => rt' = rt ∧ r = (1, inst)) Never := by
  refine loopFuel_bind ?_
  obtain ⟨_, _, _, _, _, -, -, -, -, -, hmem⟩ | ⟨hsearch, -⟩ :=
    h.found k (show rt.mallocs < rt.mallocs + 2 by omega)
  · exact absurd hmem hk
  · simp only [hsearch, ofExcept_ok, pure_bind, if_true]
    exact ⟨rfl, rfl⟩

theorem RbStores.fill (h : RbStores inst n t) (hz : n < z) (ks vs : CString) :
    RbStores (inst.fill z ks vs) n t ∧
      t.nodes.map (inst.fill z ks vs).pairAt = t.nodes.map inst.pairAt := by
  have hne : ∀ q ∈ t.nodes, q ≠ z := by
    intro q hq heq
    have := (h.ptr q hq).2
    rw [heq] at this
    exact absurd hz (Nat.not_lt.mpr this)
  have hmap : t.nodes.map (inst.fill z ks vs).pairAt = t.nodes.map inst.pairAt := by
    refine List.map_congr_left fun q hq => ?_
    simp [KvsRbtree.pairAt, KvsRbtree.fill, hne q hq]
  have hnil : inst.links.nil ≠ z := by
    intro heq
    have := h.nilPtr
    rw [heq] at this
    exact absurd hz (Nat.not_lt.mpr this)
  refine ⟨⟨h.focus, h.balanced, h.rootParent, h.nilColor, ?_, ?_, h.nilPtr, h.ptr, ?_, ?_⟩, hmap⟩
  · exact (if_neg hnil).trans h.nilKey
  · exact (if_neg hnil).trans h.nilValue
  · intro q hq
    simpa [KvsRbtree.fill, hne q hq] using h.strings q hq
  · rw [hmap]
    exact h.sorted

theorem RbStores.insertNew {k v : CString} (h : RbStores inst n t) (hz : n < z) (hz' : z ≤ n')
    (hn : n ≤ n') (hk : k.bytes ∉ mapOf (t.nodes.map inst.pairAt)) (hfuel : n < fuel) :
    ∃ L' t', rbtreeInsert fuel (inst.fill z k v) z = .ok { inst.fill z k v with links := L' } ∧
      RbStores { inst.fill z k v with links := L' } n' t' ∧ L'.nil = inst.links.nil ∧
      t'.nodes.Perm (z :: t.nodes) ∧
      mapOf (t'.nodes.map (inst.fill z k v).pairAt) =
        (mapOf (t.nodes.map inst.pairAt)).insert k.bytes v.bytes := by
  obtain ⟨hfilled, hpairs⟩ := h.fill hz k v
  have hnew : z ∉ t.nodes := fun hmem => absurd hz (Nat.not_lt.mpr (h.ptr _ hmem).2)
  have hnil : z ≠ inst.links.nil := fun heq => absurd hz (Nat.not_lt.mpr (heq ▸ h.nilPtr))
  have hpair : (inst.fill z k v).pairAt z = (k.bytes, v.bytes) := by
    simp [KvsRbtree.pairAt, KvsRbtree.fill]
  have hspec := rbtreeInsert_spec hfilled hnew hnil ⟨Nat.lt_of_le_of_lt (Nat.zero_le _) hz, hz'⟩ hn
    (by simp [KvsRbtree.fill]) (by rw [hpair, hpairs]; exact hk) hfuel
  rw [hpair, hpairs] at hspec
  exact hspec

theorem kvsRbtreeSet_spec (h : RbStores inst rt.mallocs t) (k v : Bytes) :
    Triple (kvsRbtreeSet inst k v) rt
      (fun r rt' => Wrote RbHolds rt inst ((mapOf (t.nodes.map inst.pairAt)).insert k v)
        (fun c => c < 0 ∧ (rt.CanFail ∨ k ∉ mapOf (t.nodes.map inst.pairAt) ∧ ¬True)) r rt')
      Never := by
  refine loopFuel_bind ?_
  obtain ⟨path, q, c, a, b, hf, rfl, rfl, hq, hsearch, -⟩ | ⟨hsearch, hnot⟩ :=
    h.found k (show rt.mallocs < rt.mallocs + 2 by omega)
  · simp only [hsearch, ofExcept_ok, pure_bind, ne_eq, hq, not_false_eq_true, if_true]
    refine (copyString_spec v rt).bind fun r rt' hr => ?_
    obtain ⟨hext, ⟨rfl, hfail⟩ | ⟨w, rfl, rfl, -, -⟩⟩ := hr
    · exact Triple.pure (Wrote.unchanged hext (by decide) ⟨by decide, .inl hfail⟩)
    · refine (freeString_spec _ rt').bind fun _ rt'' hfree => ?_
      have hext' := hext.trans hfree.1
      exact Triple.pure (Wrote.done hext' ⟨_, h.setValue hext'.mallocs w⟩)
  · simp only [hsearch, ofExcept_ok, pure_bind, ne_eq, not_true_eq_false, if_false]
    refine (kvsMalloc_spec rt).bind fun r rt1 hr => ?_
    obtain ⟨hext1, ⟨rfl, hfail⟩ | ⟨rfl, hlt⟩⟩ := hr
    · exact Triple.pure (Wrote.unchanged hext1 (by decide) ⟨by decide, .inl hfail⟩)
    refine (copyString_spec k rt1).bind fun r rt2 hr => ?_
    obtain ⟨hext2, ⟨rfl, hfail⟩ | ⟨kcopy, rfl, hkbytes, -, -⟩⟩ := hr
    · refine (kvsFree_spec _ rt2).bind fun _ rt3 hfree => ?_
      exact Triple.pure (Wrote.unchanged ((hext1.trans hext2).trans hfree.1) (by decide)
        ⟨by decide, .inl (hext1.canFail hfail)⟩)
    refine (copyString_spec v rt2).bind fun r rt3 hr => ?_
    obtain ⟨hext3, ⟨rfl, hfail⟩ | ⟨vcopy, rfl, hvbytes, -, -⟩⟩ := hr
    · refine (kvsFree_spec _ rt3).bind fun _ rt4 hfree => ?_
      refine (kvsFree_spec _ rt4).bind fun _ rt5 hfree' => ?_
      exact Triple.pure (Wrote.unchanged
        ((((hext1.trans hext2).trans hext3).trans hfree.1).trans hfree'.1) (by decide)
        ⟨by decide, .inl ((hext1.trans hext2).canFail hfail)⟩)
    -- the node is complete: link it in
    have hext := (hext1.trans hext2).trans hext3
    obtain ⟨L', t', hrun, hstores, -, -, hmap⟩ := h.insertNew (k := kcopy) (v := vcopy) hlt
      (hext2.trans hext3).mallocs hext.mallocs (by rw [hkbytes]; exact hnot)
      (show rt.mallocs < rt.mallocs + 2 by omega)
    rw [hkbytes, hvbytes] at hmap
    simp only [hrun, ofExcept_ok, pure_bind]
    exact Triple.pure (Wrote.done hext ⟨t', hstores, hmap⟩)

theorem kvsRbtreeDel_found (h : RbStores inst rt.mallocs t)
    (hk : k ∈ mapOf (t.nodes.map inst.pairAt)) :
    Triple (kvsRbtreeDel inst k) rt
      (fun r rt' => Wrote RbHolds rt inst ((mapOf (t.nodes.map inst.pairAt)).erase k)
        (fun _ => False) r rt') Never := by
  refine loopFuel_bind ?_
  obtain ⟨path, q, c, a, b, hf, rfl, rfl, hq, hsearch, -⟩ | ⟨-, hnot⟩ :=
    h.found k (show rt.mallocs < rt.mallocs + 2 by omega)
  · obtain ⟨inst', cur, t', hdel, hgone⟩ :=
      rbtreeDelete_spec h hf (show rt.mallocs < rt.mallocs + 2 by omega)
    simp only [hsearch, ofExcept_ok, pure_bind, hq, if_false, hdel]
    refine (freeString_spec _ rt).bind fun _ rt1 h1 => ?_
    refine (freeString_spec _ rt1).bind fun _ rt2 h2 => ?_
    refine (kvsFree_spec _ rt2).bind fun _ rt3 h3 => ?_
    have hext := (h1.1.trans h2.1).trans h3.1
    exact Triple.pure (Wrote.done hext ⟨t', hgone.stores.later hext.mallocs, hgone.map⟩)
  · exact absurd hk hnot

theorem kvsRbtreeDel_missing (h : RbStores inst rt.mallocs t)
    (hk : k ∉ mapOf (t.nodes.map inst.pairAt)) :
    Triple (kvsRbtreeDel inst k) rt (fun r rt' => rt' = rt ∧ r = (1, inst)) Never := by
  refine loopFuel_bind ?_
  obtain ⟨_, _, _, _, _, -, -, -, -, -, hmem⟩ | ⟨hsearch, -⟩ :=
    h.found k (show rt.mallocs < rt.mallocs + 2 by omega)
  · exact absurd hmem hk
  · simp only [hsearch, ofExcept_ok, pure_bind, if_true]
    exact ⟨rfl, rfl⟩

theorem kvsRbtreeGet_spec (h : RbStores inst rt.mallocs t) (k : Bytes) :
    Triple (kvsRbtreeGet inst k) rt
      (fun r rt' => rt' = rt ∧ r = (mapOf (t.nodes.map inst.pairAt)).lookup k) Never := by
  refine loopFuel_bind ?_
  obtain ⟨path, q, c, a, b, hf, rfl, rfl, hq, hsearch, -⟩ | ⟨hsearch, hnot⟩ :=
    h.found k (show rt.mallocs < rt.mallocs + 2 by omega)
  · have hmem : q ∈ (Path.plug path (.node q c a b)).nodes := by
      rw [Path.nodes_plug]
      simp [Shape.nodes]
    obtain ⟨w, hw⟩ := Option.isSome_iff_exists.mp (h.strings q hmem).2
    simp only [hsearch, ofExcept_ok, pure_bind]
    refine ⟨rfl, Eq.symm ?_⟩
    rw [hw, Option.map_some, lookup_mapOf h.distinct]
    refine List.mem_map.mpr ⟨q, hmem, ?_⟩
    simp [KvsRbtree.pairAt, hw]
  · simp only [hsearch, ofExcept_ok, pure_bind]
    refine ⟨rfl, ?_⟩
    rw [h.nilValue, Finmap.lookup_eq_none.mpr hnot]
    rfl

theorem kvsRbtreeExist_spec (h : RbStores inst rt.mallocs t) (k : Bytes) :
    Triple (kvsRbtreeExist inst k) rt (fun r rt' => rt' = rt ∧
      (r = 0 ↔ k ∈ mapOf (t.nodes.map inst.pairAt)) ∧
      (r = 1 ↔ k ∉ mapOf (t.nodes.map inst.pairAt))) Never := by
  refine loopFuel_bind ?_
  obtain ⟨path, q, c, a, b, -, -, -, hq, hsearch, hmem⟩ | ⟨hsearch, hnot⟩ :=
    h.found k (show rt.mallocs < rt.mallocs + 2 by omega)
  · simp only [hsearch, ofExcept_ok, pure_bind, hq, if_false]
    exact Triple.pure ⟨rfl, by simp [hmem], by simp [hmem]⟩
  · simp only [hsearch, ofExcept_ok, pure_bind, if_true]
    exact Triple.pure ⟨rfl, by simp [hnot], by simp [hnot]⟩

end

theorem rbStores_empty {nil : Ptr} (hnil : nil ≤ n) :
    RbStores ⟨⟨nil, nil, fun _ => .black, fun _ _ => nil, fun _ => nil⟩, fun _ => none, fun _ => none⟩
      n .leaf :=
  ⟨⟨rfl, rfl, by simp [Shape.nodes, Path.nodes]⟩, ⟨⟨0, rfl⟩, trivial, rfl⟩, rfl, rfl, rfl, rfl, hnil,
    by simp [Shape.nodes], by simp [Shape.nodes], by simp [Shape.nodes, SortedKeys]⟩

theorem rbtree_lawful : Lawful rbtreeOps RbHolds (fun _ => True) (fun _ => True) 1 where
  later := by
    rintro inst n m n' ⟨t, h, hm⟩ hn
    exact ⟨t, h.later hn, hm⟩
  admitted _ _ := trivial
  full _ hroom := absurd trivial hroom
  create rt := by
    refine (kvsMalloc_spec rt).bind fun r rt' h => ?_
    obtain ⟨hext, ⟨rfl, hfail⟩ | ⟨rfl, -⟩⟩ := h
    · exact ⟨hext, .inr ⟨by decide, hfail⟩⟩
    · exact ⟨hext, .inl ⟨rfl, .leaf, rbStores_empty (Nat.le_refl _), rfl⟩⟩
  set := by
    rintro inst rt m k v ⟨t, h, rfl⟩ -
    exact kvsRbtreeSet_spec h _ _
  mod := by
    rintro inst rt m k v ⟨t, h, rfl⟩ - hk
    exact kvsRbtreeMod_found h hk v
  mod_missing := by
    rintro inst rt m k v ⟨t, h, rfl⟩ - hk
    exact kvsRbtreeMod_missing h hk v
  del := by
    rintro inst rt m k ⟨t, h, rfl⟩ - hk
    exact kvsRbtreeDel_found h hk
  del_missing := by
    rintro inst rt m k ⟨t, h, rfl⟩ - hk
    exact kvsRbtreeDel_missing h hk
  get := by
    rintro inst rt m k ⟨t, h, rfl⟩ -
    exact kvsRbtreeGet_spec h _
  exist := by
    rintro inst rt m k ⟨t, h, rfl⟩ -
    exact kvsRbtreeExist_spec h _
  foreach := by
    rintro inst rt m ⟨t, h, rfl⟩
    refine loopFuel_bind ?_
    have hlen := h.length_le
    rw [rbtreeVisit_spec h.focus h.strings (Nat.lt_of_le_of_lt hlen (by omega)), ofExcept_ok]
    exact ⟨rfl, h.distinct, rfl⟩

end KvStore
