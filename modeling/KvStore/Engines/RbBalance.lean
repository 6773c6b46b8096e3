import KvStore.Engines.RbTree

/-!
# Balancing

Rotations are edits at the focus of the linked tree; the two fixup loops move
the focus up the path until the colors are right again. The loops are proved
to end, with the same nodes in the same order and the red-black properties
restored, so they never turn around a missing node.
-/

namespace KvStore

open Lib Lib.Links

-- ---------------------------------------------------------------------------
-- Rotations
-- ---------------------------------------------------------------------------

section
variable {T : RbLinks} {path : Path Ptr Color} {a b d : Shape Ptr Color} {p x y : Ptr} {s : Side}
  {cx cy : Color}

theorem rbtreeReplace_eq (hpar : T.parent x = Path.top T.nil path)
    (hpath : ∀ f ∈ path.head?, f.ptr ≠ T.nil ∧ T.child f.side f.ptr = x ∧
      T.child f.side.other f.ptr ≠ x) (s : Side) (y : Ptr) :
    rbtreeReplace s T x y = T.setHole path y := by
  cases path with
  | nil => exact if_pos hpar
  | cons f path =>
    obtain ⟨hne, hchild, hother⟩ := hpath f rfl
    have hpar' : T.parent x = f.ptr := hpar
    unfold rbtreeReplace
    rw [hpar', if_neg hne]
    rcases Side.eq_or_eq_other s f.side with hs | hs
    · rw [if_pos (by rw [← hs, hchild]), ← hs]
      rfl
    · have hs' : f.side.other = s := by rw [hs, Side.other_other]
      rw [if_neg (by rw [← hs']; exact fun h => hother h.symm), ← hs]
      rfl

@[simp] theorem rbtreeReplace_nil : (rbtreeReplace s T x y).nil = T.nil := by
  unfold rbtreeReplace
  split
  · rfl
  · split <;> rfl

@[simp] theorem rbtreeReplace_color : (rbtreeReplace s T x y).color = T.color := by
  unfold rbtreeReplace
  split
  · rfl
  · split <;> rfl

@[simp] theorem rbtreeRotate_nil : (rbtreeRotate s T x).nil = T.nil := by
  refine rbtreeReplace_nil.trans ?_
  rw [setParent_nil]
  split <;> rfl

@[simp] theorem rbtreeRotate_color : (rbtreeRotate s T x).color = T.color := by
  refine rbtreeReplace_color.trans ?_
  rw [setParent_color]
  split <;> rfl

theorem focus_sibling (hf : T.Focus path (.join s x cx a b) p) :
    ∀ f ∈ path.head?, f.ptr ≠ T.nil ∧ T.child f.side f.ptr = x ∧ T.child f.side.other f.ptr ≠ x := by
  cases path with
  | nil => simp
  | cons f path =>
    simp only [List.head?_cons, Option.mem_def, Option.some.injEq, forall_eq']
    obtain ⟨hne, -, -, hchild, hfar, -⟩ := hf.above
    refine ⟨hne, hchild.trans hf.ptr, fun heq => ?_⟩
    have hmem := hfar.mem (heq ▸ hf.ne_nil)
    exact hf.disjoint x (by simp) (by simp [Path.nodes, ← heq, hmem])

theorem rbtreeRotate_eq (hf : T.Focus path (.join s x cx a (.join s y cy b d)) p) :
    rbtreeRotate s T x =
      ((((if T.child s y ≠ T.nil then
          (T.setChild s.other x (T.child s y)).setParent (T.child s y) x
        else T.setChild s.other x (T.child s y)).setParent y (Path.top T.nil path)).setHole
        path y).setChild s y x).setParent x y := by
  have hy : T.child s.other x = y := hf.downOther.ptr
  have hfx := hf.disjoint x (by simp)
  have hyx : y ≠ x := by
    rintro rfl
    exact hf.downOther.disjoint y (by simp) (by simp [Path.nodes])
  have hbx : T.child s y ≠ T.nil → x ≠ T.child s y := by
    rintro hb heq
    have hmem := hf.downOther.down.below.mem hb
    exact hf.downOther.disjoint x (by simp [heq, hmem]) (by simp [Path.nodes])
  have h1 : (T.setChild s.other x (T.child s y)).child s y = T.child s y := by
    rw [setChild_child, if_neg (by simp)]
  unfold rbtreeRotate
  simp only [hy, h1, setChild_nil]
  -- the links in which the node above is looked up
  generalize hT2 : (if T.child s y ≠ T.nil then
      (T.setChild s.other x (T.child s y)).setParent (T.child s y) x
    else T.setChild s.other x (T.child s y)) = T2
  have hnil2 : T2.nil = T.nil := by rw [← hT2]; split <;> rfl
  have hchild2 : T2.child = (T.setChild s.other x (T.child s y)).child := by
    rw [← hT2]
    split <;> rfl
  have hpar2 : T2.parent x = Path.top T.nil path := by
    rw [← hf.parent, ← hT2]
    split
    · rename_i hb
      rw [setParent_parent, if_neg (hbx hb)]
      rfl
    · rfl
  rw [hpar2]
  congr 2
  refine rbtreeReplace_eq ?_ ?_ s y
  · rw [setParent_parent, if_neg hyx.symm, hpar2, setParent_nil, hnil2]
  · intro f hfm
    obtain ⟨hne, hchild, hother⟩ := focus_sibling hf f hfm
    have hfx' : f.ptr ≠ x := by
      rintro heq
      cases path with
      | nil => simp at hfm
      | cons g path =>
        simp only [List.head?_cons, Option.mem_def, Option.some.injEq] at hfm
        exact hfx (by simp [Path.nodes, hfm, heq])
    simp only [setParent_nil, hnil2, setParent_child, hchild2, setChild_child]
    rw [if_neg (by tauto), if_neg (by tauto)]
    exact ⟨hne, hchild, hother⟩

theorem rbtreeRotate_parent (hf : T.Focus path (.join s x cx a (.join s y cy b d)) p)
    (hqx : q ≠ x) (hqy : q ≠ y) (hqb : q = T.child s y → T.child s y = T.nil) :
    (rbtreeRotate s T x).parent q = T.parent q := by
  rw [rbtreeRotate_eq hf, setParent_parent, if_neg hqx, setChild_parent, setHole_parent,
    setParent_parent, if_neg hqy]
  split
  · rename_i hne
    rw [setParent_parent, if_neg (fun h => hne (hqb h)), setChild_parent]
  · rfl

theorem Focus.rotate (hf : T.Focus path (.join s x cx a (.join s y cy b d)) p) :
    (rbtreeRotate s T x).Focus path (.join s y cy (.join s x cx a b) d) y := by
  obtain ⟨-, hxnil, hcx, hparx, ha, hy⟩ := rep_join.mp hf.below
  obtain ⟨hyp, hynil, hcy, -, hb, hd⟩ := rep_join.mp hy
  -- all pointers concerned, pairwise distinct
  have hperm : (Shape.join s x cx a (.join s y cy b d)).nodes.Perm
      (x :: (a.nodes ++ y :: (b.nodes ++ d.nodes))) :=
    (Shape.nodes_join_perm _ _ _ _ _).trans
      (List.Perm.cons _ (List.Perm.append_left _ (Shape.nodes_join_perm _ _ _ _ _)))
  have hperm' : (Shape.join s y cy (.join s x cx a b) d).nodes.Perm
      (x :: (a.nodes ++ y :: (b.nodes ++ d.nodes))) := by
    refine (Shape.nodes_join_perm _ _ _ _ _).trans ?_
    refine (List.Perm.cons _ (List.Perm.append_right _ (Shape.nodes_join_perm _ _ _ _ _))).trans ?_
    refine (List.Perm.swap _ _ _).trans (List.Perm.cons _ ?_)
    show (y :: ((a.nodes ++ b.nodes) ++ d.nodes)).Perm _
    rw [List.append_assoc]
    exact List.perm_middle.symm
  have hnodup := (List.Perm.append_right (Path.nodes path) hperm).nodup_iff.mp hf.nodup
  have hparts := hnodup
  simp only [List.cons_append, List.append_assoc, List.nodup_cons, List.nodup_append,
    List.mem_append, List.mem_cons, not_or, ne_eq] at hparts
  obtain ⟨⟨hxa, hxy, hxb, hxd, hxw⟩, hna, ⟨⟨hyb, hyd, hyw⟩, hnb, ⟨hnd, hnw, hdw⟩, hbdw⟩, hrest⟩ :=
    hparts
  have hbmem : T.child s y ≠ T.nil → T.child s y ∈ b.nodes := fun h => hb.mem h
  have htop : ∀ f ∈ path.head?, f.ptr ∈ Path.nodes path := Path.head_mem_nodes
  have hnil : (rbtreeRotate s T x).nil = T.nil := rbtreeRotate_nil
  have hcolor : (rbtreeRotate s T x).color = T.color := rbtreeRotate_color
  have hparent := fun q => rbtreeRotate_parent (q := q) hf
  rw [rbtreeRotate_eq hf] at hnil hcolor hparent ⊢
  generalize hT' : Links.setParent _ x y = T' at hnil hcolor hparent ⊢
  have hchild : ∀ q t, (∀ f ∈ path.head?, q ≠ f.ptr ∨ t ≠ f.side) → (q ≠ x ∨ t ≠ s.other) →
      (q ≠ y ∨ t ≠ s) → T'.child t q = T.child t q := by
    intro q t hq hqx hqy
    rw [← hT', setParent_child, setChild_child, if_neg (by tauto), setHole_child hq, setParent_child]
    split
    · rw [setParent_child, setChild_child, if_neg (by tauto)]
    · rw [setChild_child, if_neg (by tauto)]
  have hout : ∀ q, q ∉ Path.nodes path → ∀ t, ∀ f ∈ path.head?, q ≠ f.ptr ∨ t ≠ f.side :=
    fun q hq t f hfm => .inl fun heq => hq (heq ▸ htop f hfm)
  have hxpar : T'.parent x = y := by rw [← hT', setParent_parent, if_pos rfl]
  have hypar : T'.parent y = Path.top T.nil path := by
    rw [← hT', setParent_parent, if_neg (Ne.symm hxy), setChild_parent, setHole_parent,
      setParent_parent, if_pos rfl]
  have hbpar : T.child s y ≠ T.nil → T'.parent (T.child s y) = x := by
    intro hne
    have hbx : T.child s y ≠ x := fun h => hxb (h ▸ hbmem hne)
    have hby : T.child s y ≠ y := fun h => hyb (h ▸ hbmem hne)
    rw [← hT', setParent_parent, if_neg hbx, setChild_parent, setHole_parent, setParent_parent,
      if_neg hby, if_pos hne, setParent_parent, if_pos rfl]
  have hychild : T'.child s y = x := by
    rw [← hT', setParent_child, setChild_child, if_pos ⟨rfl, rfl⟩]
  have hxchild : T'.child s.other x = T.child s y := by
    rw [← hT', setParent_child, setChild_child, if_neg (by simp), setHole_child (hout x hxw _),
      setParent_child]
    split
    · rw [setParent_child, setChild_child, if_pos ⟨rfl, rfl⟩]
    · rw [setChild_child, if_pos ⟨rfl, rfl⟩]
  have hhole : T'.hole path = y := by
    rw [← hT']
    cases path with
    | nil => rfl
    | cons f path =>
      have hfy : f.ptr ≠ y := fun h => hyw (h ▸ htop f rfl)
      simp only [hole, setParent_child, setChild_child, setHole, hfy, and_false, if_false, and_self,
        if_true]
  refine ⟨?_, ?_, ?_⟩
  · rw [← hhole]
    refine hf.above.refill hnw hnil ?_ (fun q _ => by rw [hcolor]) ?_ ?_
    · intro hne
      rw [← hT', setParent_root, setChild_root, setHole_root hne, setParent_root]
      split <;> rfl
    · intro q hq t ht
      exact hchild q t ht (.inl fun h => hxw (h ▸ hq)) (.inl fun h => hyw (h ▸ hq))
    · intro q hq
      refine hparent q (fun h => hxw (h ▸ hq)) (fun h => hyw (h ▸ hq)) fun heq => ?_
      by_contra hne
      exact hbdw _ (hbmem hne) _ (.inr hq) heq.symm
  · refine rep_join.mpr ⟨rfl, hnil ▸ hynil, by rw [hcolor, hcy], by rw [hypar, hnil], ?_, ?_⟩
    · refine rep_join.mpr ⟨hychild, hnil ▸ hxnil, by rw [hcolor, hcx], hxpar, ?_, ?_⟩
      · rw [hchild x s (hout x hxw s) (.inr (Side.ne_other s)) (.inl hxy)]
        refine ha.congr hna hnil (fun q _ => by rw [hcolor]) ?_ ?_
        · intro q hq t
          have hqy : q ≠ y := hrest q hq y (.inl rfl)
          have hqw : q ∉ Path.nodes path := fun h => hrest q hq q (.inr (.inr (.inr h))) rfl
          exact hchild q t (hout q hqw t) (.inl fun h => hxa (h ▸ hq)) (.inl hqy)
        · intro q hq
          refine hparent q (fun h => hxa (h ▸ hq)) (hrest q hq y (.inl rfl)) fun heq => ?_
          by_contra hne
          exact hrest q hq _ (.inr (.inl (hbmem hne))) heq
      · rw [hxchild]
        refine hb.move hnb hnil (fun q _ => by rw [hcolor]) ?_ ?_ hbpar
        · intro q hq t
          have hqw : q ∉ Path.nodes path := fun h => hbdw q hq q (.inr h) rfl
          exact hchild q t (hout q hqw t) (.inl fun h => hxb (h ▸ hq)) (.inl fun h => hyb (h ▸ hq))
        · intro q hq hne
          exact hparent q (fun h => hxb (h ▸ hq)) (fun h => hyb (h ▸ hq)) fun heq => absurd heq hne
    · rw [hchild y s.other (hout y hyw _) (.inl (Ne.symm hxy)) (.inr (Side.other_ne s))]
      refine hd.congr hnd hnil (fun q _ => by rw [hcolor]) ?_ ?_
      · intro q hq t
        have hqw : q ∉ Path.nodes path := fun h => hdw q hq q h rfl
        exact hchild q t (hout q hqw t) (.inl fun h => hxd (h ▸ hq)) (.inl fun h => hyd (h ▸ hq))
      · intro q hq
        refine hparent q (fun h => hxd (h ▸ hq)) (fun h => hyd (h ▸ hq)) fun heq => ?_
        by_contra hne
        exact hbdw _ (hbmem hne) q (.inl hq) heq.symm
  · exact (List.Perm.append_right _ hperm').nodup_iff.mpr hnodup

end

-- ---------------------------------------------------------------------------
-- Insertion
-- ---------------------------------------------------------------------------

section
variable {T : RbLinks} {path : Path Ptr Color} {t a b : Shape Ptr Color} {p x z : Ptr} {s : Side}

theorem focus_color (hf : T.Focus path t p) (hnil : T.color T.nil = .black) :
    T.color p = t.rootColor := by
  rcases t.exists_join .left with rfl | ⟨q, c, a, b, rfl⟩
  · rw [hf.nil_iff.mpr rfl, hnil]
    rfl
  · rw [hf.ptr, hf.color, Shape.rootColor_join]

theorem focus_side (hf : T.Focus (g :: path) (.join s x c a b) p) :
    (if x = T.child .left g.ptr then Side.left else .right) = g.side := by
  obtain ⟨-, hchild, hother⟩ := focus_sibling hf g rfl
  cases hs : g.side with
  | left =>
    rw [hs] at hchild
    rw [if_pos hchild.symm]
  | right =>
    rw [hs] at hother
    rw [if_neg fun h => hother h.symm]

/-- The insertion loop's invariant: all is right but a red node that may hang
below a red one. -/
structure Inserting (T : RbLinks) (path : Path Ptr Color) (t : Shape Ptr Color) (z : Ptr) : Prop where
  focus : T.Focus path t z
  nil : T.color T.nil = .black
  height : ∃ n, t.BlackHeight n ∧ Path.Height path n
  colors : t.NoRedRed
  above : Path.Colors path
  red : t.rootColor = .red

theorem Inserting.join (h : Inserting T path t z) (s : Side) :
    ∃ a b, t = .join s z .red a b ∧ a.NoRedRed ∧ b.NoRedRed ∧ a.rootColor = .black ∧
      b.rootColor = .black := by
  rcases t.exists_join s with rfl | ⟨q, c, a, b, rfl⟩
  · exact absurd h.red (by simp [Shape.rootColor])
  · have hred := h.red
    rw [Shape.rootColor_join] at hred
    subst hred
    obtain ⟨ha, hb, hab⟩ := Shape.noRedRed_join.mp h.colors
    exact ⟨a, b, by rw [h.focus.ptr], ha, hb, hab rfl⟩

theorem insertFixupStep_recolor
    (h : Inserting T (⟨sf, pf, .red, ff⟩ :: ⟨sg, pg, .black, gf⟩ :: path) t z)
    (huncle : gf.rootColor = .red) :
    ∃ T' t', insertFixupStep sg T z = (T', pg) ∧ Inserting T' path t' pg ∧
      t'.nodes = (Shape.join sg pg .black (.join sf pf .red t ff) gf).nodes ∧ T'.nil = T.nil := by
  obtain ⟨a, b, rfl, -⟩ := h.join .left
  rcases gf.exists_join sg with rfl | ⟨pu, cu, u, v, rfl⟩
  · exact absurd huncle (by simp [Shape.rootColor])
  rw [Shape.rootColor_join] at huncle
  subst huncle
  have hz : T.parent z = pf := h.focus.parent
  have hp : T.parent pf = pg := h.focus.up.parent
  have hu : T.child sg.other pg = pu := h.focus.up.up.downOther.ptr
  have hcolor : T.color pu = .red := h.focus.up.up.downOther.color
  have hf1 := (h.focus.up.setColor .black).up
  have hf2 := ((hf1.downOther.setColor .black).upOther).setColor .red
  have hne : T.nil ≠ pf ∧ T.nil ≠ pu ∧ T.nil ≠ pg :=
    ⟨h.focus.up.ne_nil.symm, h.focus.up.up.downOther.ne_nil.symm, h.focus.up.up.ne_nil.symm⟩
  obtain ⟨n, ht, hff, hgf, hpath⟩ := h.height
  obtain ⟨hcff, ⟨hcgf, hcpath, -⟩, hred⟩ := h.above
  obtain ⟨m, hu', hv', hm⟩ := Shape.blackHeight_join.mp hgf
  obtain ⟨hcu, hcv, -⟩ := Shape.noRedRed_join.mp hcgf
  refine ⟨_, _, ?_, ⟨hf2, ?_, ?_, ?_, hcpath, by simp⟩, ?_, rfl⟩
  · simp only [insertFixupStep, hz, hp, hu, hcolor, if_true, setColor_parent]
  · simp only [setColor_color, setColor_nil, hne.1, hne.2.1, hne.2.2, if_false, h.nil]
  · simp only [Color.weight, Nat.add_zero] at hm hpath
    subst hm
    refine ⟨n + 1, Shape.blackHeight_join.mpr ⟨n + 1, ?_, ?_, rfl⟩, hpath⟩
    · exact Shape.blackHeight_join.mpr ⟨n, ht, hff, rfl⟩
    · exact Shape.blackHeight_join.mpr ⟨n, hu', hv', rfl⟩
  · refine Shape.noRedRed_join.mpr ⟨?_, ?_, by simp⟩
    · exact Shape.noRedRed_join.mpr ⟨h.colors, hcff, by simp⟩
    · exact Shape.noRedRed_join.mpr ⟨hcu, hcv, by simp⟩
  · exact Shape.nodes_join_congr (Shape.nodes_join_congr rfl rfl _) (Shape.nodes_join_congr rfl rfl _) _

theorem insertFixup_outer
    (h : Inserting T (⟨s, pf, .red, ff⟩ :: ⟨s, pg, .black, gf⟩ :: path) t z)
    (huncle : gf.rootColor = .black) :
    let T' := rbtreeRotate s.other ((T.setColor pf .black).setColor pg .red) pg
    Inserting T' (⟨s, pf, .black, .join s.other pg .red gf ff⟩ :: path) t z ∧ T'.nil = T.nil := by
  obtain ⟨a, b, rfl, -⟩ := h.join .left
  have hf1 := ((h.focus.up.setColor .black).up).setColor .red
  rw [← Shape.join_other, ← Shape.join_other (s := s) (p := pf)] at hf1
  have hf2 := (Focus.rotate hf1).downOther
  rw [Side.other_other] at hf2
  have hne : T.nil ≠ pf ∧ T.nil ≠ pg := ⟨h.focus.up.ne_nil.symm, h.focus.up.up.ne_nil.symm⟩
  obtain ⟨n, ht, hff, hgf, hpath⟩ := h.height
  obtain ⟨hcff, ⟨hcgf, hcpath, -⟩, hred⟩ := h.above
  have hptr := hf2.ptr
  refine ⟨⟨?_, ?_, ⟨n, ht, ?_, hpath⟩, h.colors, ⟨?_, hcpath, by simp⟩, h.red⟩, by simp⟩
  · rw [hptr] at hf2
    exact hf2
  · simp only [rbtreeRotate_color, rbtreeRotate_nil, setColor_color, setColor_nil, hne.1, hne.2,
      if_false, h.nil]
  · exact Shape.blackHeight_join.mpr ⟨n, hgf, hff, rfl⟩
  · exact Shape.noRedRed_join.mpr ⟨hcgf, hcff, fun _ => ⟨huncle, (hred rfl).1⟩⟩

theorem insertFixup_inner
    (h : Inserting T (⟨s.other, pf, .red, ff⟩ :: ⟨s, pg, .black, gf⟩ :: path) t z) :
    ∃ a b, t = .join s z .red a b ∧
      Inserting (rbtreeRotate s T pf) (⟨s, z, .red, b⟩ :: ⟨s, pg, .black, gf⟩ :: path)
        (.join s pf .red ff a) pf := by
  obtain ⟨a, b, rfl, ha, hb, hca, hcb⟩ := h.join s
  refine ⟨a, b, rfl, ?_⟩
  have hf1 := h.focus.up
  rw [Shape.join_other] at hf1
  have hf2 := (Focus.rotate hf1).down
  obtain ⟨n, ht, hff, hgf, hpath⟩ := h.height
  obtain ⟨m, hma, hmb, hm⟩ := Shape.blackHeight_join.mp ht
  simp only [Color.weight, Nat.add_zero] at hm hgf hpath
  subst hm
  obtain ⟨hcff, hcg, hred⟩ := h.above
  have hptr := hf2.ptr
  refine ⟨?_, ?_, ⟨n, ?_, hmb, hgf, hpath⟩, ?_, ⟨hb, hcg, fun _ => ⟨hcb, rfl⟩⟩, by simp⟩
  · rw [hptr] at hf2
    exact hf2
  · simp only [rbtreeRotate_color, rbtreeRotate_nil, h.nil]
  · exact Shape.blackHeight_join.mpr ⟨n, hff, hma, rfl⟩
  · exact Shape.noRedRed_join.mpr ⟨hcff, ha, fun _ => ⟨(hred rfl).1, hca⟩⟩

/-- One round of the loop keeps the invariant and goes up. -/
theorem insertFixupStep_spec
    (h : Inserting T (⟨sf, pf, .red, ff⟩ :: ⟨sg, pg, .black, gf⟩ :: path) t z) :
    ∃ T' z' path' t', insertFixupStep sg T z = (T', z') ∧ Inserting T' path' t' z' ∧
      path'.length < path.length + 2 ∧ T'.nil = T.nil ∧
      (Path.plug path' t').nodes =
        (Path.plug path (.join sg pg .black (.join sf pf .red t ff) gf)).nodes := by
  obtain ⟨a, b, ht, -⟩ := h.join .left
  have hz : T.parent z = pf := by
    have hf := h.focus
    rw [ht] at hf
    exact hf.parent
  have hp : T.parent pf = pg := h.focus.up.parent
  have huncle : T.color (T.child sg.other pg) = gf.rootColor :=
    focus_color h.focus.up.up.downOther h.nil
  cases hgf : gf.rootColor with
  | red =>
    obtain ⟨T', t', hstep, hins, hnodes, hnil⟩ := insertFixupStep_recolor h hgf
    exact ⟨T', pg, path, t', hstep, hins, by omega, hnil, Path.nodes_plug_congr hnodes⟩
  | black =>
    rw [hgf] at huncle
    rcases Side.eq_or_eq_other sg sf with rfl | rfl
    · have hout : z ≠ T.child sf.other pf := by
        have hf := h.focus
        rw [ht] at hf
        exact fun heq => (focus_sibling hf _ rfl).2.2 heq.symm
      obtain ⟨hins, hnil⟩ := insertFixup_outer h hgf
      refine ⟨_, z, _, t, ?_, hins, by simp, hnil, ?_⟩
      · simp only [insertFixupStep, hz, hp, huncle, reduceCtorEq, if_false, hout, setColor_parent]
      · rw [Path.plug]
        refine Path.nodes_plug_congr ?_
        cases sf <;> simp [Shape.join, Shape.nodes, Side.other]
    · have hin : z = T.child sg.other pf := h.focus.child_above.symm
      obtain ⟨u, v, rfl, hrot⟩ := insertFixup_inner h
      have hz' : (rbtreeRotate sg T pf).parent pf = z := hrot.focus.parent
      have hp' : (rbtreeRotate sg T pf).parent z = pg := hrot.focus.up.parent
      obtain ⟨hins, hnil⟩ := insertFixup_outer hrot hgf
      refine ⟨_, pf, _, _, ?_, hins, by simp, by rw [hnil, rbtreeRotate_nil], ?_⟩
      · simp only [insertFixupStep, hz, hp, huncle, reduceCtorEq, if_false, ← hin, if_true,
          setColor_parent, hz', hp']
      · rw [Path.plug]
        refine Path.nodes_plug_congr ?_
        cases sg <;> simp [Shape.join, Shape.nodes, Side.other]

theorem focus_blacken (hf : T.Focus [] t T.root) :
    (T.setColor T.root .black).Focus [] t.blacken T.root := by
  rcases t.exists_join .left with rfl | ⟨q, c, a, b, rfl⟩
  · exact ⟨rfl, hf.below, by simp [Shape.blacken, Shape.nodes, Path.nodes]⟩
  · rw [Shape.blacken_join, hf.ptr]
    have := hf.setColor .black
    rw [hf.ptr] at this
    exact this

/-- The insertion loop ends in a balanced tree with the same nodes in order. -/
theorem rbtreeInsertFixup_spec (h : Inserting T path t z) (hfuel : path.length < fuel) :
    ∃ T' t', rbtreeInsertFixup fuel T z = .ok T' ∧ T'.Focus [] t' T'.root ∧ t'.Balanced ∧
      t'.nodes = (Path.plug path t).nodes ∧ T'.nil = T.nil ∧ T'.color T'.nil = .black := by
  induction fuel generalizing T path t z with
  | zero => omega
  | succ fuel ih =>
    obtain ⟨a, b, ht, -⟩ := h.join .left
    have hpar : T.parent z = Path.top T.nil path := by
      have hf := h.focus
      rw [ht] at hf
      exact hf.parent
    -- when the loop stops, the whole tree only needs a black root
    have hstop : (Path.plug path t).NoRedRed → ∃ T' t', Except.ok (T.setColor T.root .black) =
        (.ok T' : Except Stop RbLinks) ∧ T'.Focus [] t' T'.root ∧ t'.Balanced ∧
        t'.nodes = (Path.plug path t).nodes ∧ T'.nil = T.nil ∧ T'.color T'.nil = .black := by
      intro hcolors
      obtain ⟨n, hn⟩ := Path.blackHeight_plug.mpr h.height
      refine ⟨_, _, rfl, focus_blacken h.focus.whole, Shape.balanced_blacken hn hcolors,
        Shape.nodes_blacken _, rfl, ?_⟩
      simp only [setColor_color, setColor_nil, h.nil, ite_self]
    simp only [rbtreeInsertFixup, hpar]
    cases path with
    | nil =>
      simp only [Path.top, h.nil, reduceCtorEq, if_false]
      exact hstop h.colors
    | cons f path =>
      obtain ⟨sf, pf, cf, ff⟩ := f
      have hcf : T.color pf = cf := h.focus.up.color
      simp only [Path.top, hcf]
      cases cf with
      | black =>
        simp only [reduceCtorEq, if_false]
        exact hstop (Path.colors_plug.mpr ⟨h.colors, h.above, fun _ => rfl⟩).1
      | red =>
        cases path with
        | nil => exact absurd (h.above.2.2 rfl).2 (by simp [Path.topColor])
        | cons g path =>
          obtain ⟨sg, pg, cg, gf⟩ := g
          have hcg : cg = .black := (h.above.2.2 rfl).2
          subst hcg
          have hp : T.parent pf = pg := h.focus.up.parent
          obtain ⟨T', z', path', t', hstep, hins, hlen, hnil, hnodes⟩ := insertFixupStep_spec h
          have hside := focus_side h.focus.up
          simp only at hside
          simp only [if_true, hp, hside, hstep]
          simp only [List.length_cons] at hfuel
          obtain ⟨T'', t'', hrun, hf, hbal, hn, hnil', hcolor⟩ := ih hins (by omega)
          exact ⟨T'', t'', hrun, hf, hbal, hn.trans hnodes, hnil'.trans hnil, hcolor⟩

end

-- ---------------------------------------------------------------------------
-- Deletion
-- ---------------------------------------------------------------------------

section
variable {T : RbLinks} {path : Path Ptr Color} {t u v far : Shape Ptr Color} {p q w x : Ptr}
  {s : Side} {c : Color}

theorem rbtreeRotate_parent_nil {a b d : Shape Ptr Color}
    (hf : T.Focus path (.join s x cx a (.join s y cy b d)) p) :
    (rbtreeRotate s T x).parent T.nil = T.parent T.nil :=
  rbtreeRotate_parent hf hf.ne_nil.symm hf.downOther.ne_nil.symm fun h => h.symm

/-- The deletion loop's invariant: the subtree at the focus is one black node
short, and its root may be red below a red node. While the subtree is empty,
the loop climbs by the parent that was written into `nil`. -/
structure Deleting (T : RbLinks) (path : Path Ptr Color) (t : Shape Ptr Color) (x : Ptr) : Prop where
  focus : T.Focus path t x
  nilParent : t = .leaf → T.parent T.nil = Path.top T.nil path
  nil : T.color T.nil = .black
  height : ∃ n, t.BlackHeight n ∧ Path.Height path (n + 1)
  colors : t.blacken.NoRedRed
  above : Path.Colors path

theorem Deleting.parent (h : Deleting T path t x) : T.parent x = Path.top T.nil path := by
  rcases t.exists_join .left with rfl | ⟨q, c, a, b, rfl⟩
  · rw [h.focus.nil_iff.mpr rfl, h.nilParent rfl]
  · rw [h.focus.ptr, h.focus.parent]

theorem sibling_side (hf : T.Focus (g :: path) t x) (hfar : g.far ≠ .leaf) :
    (if x = T.child .left g.ptr then Side.left else .right) = g.side := by
  have hchild := hf.child_above
  have hother := hf.up.child_ne hfar
  rw [hchild] at hother
  cases hs : g.side with
  | left =>
    rw [hs] at hchild
    rw [if_pos hchild.symm]
  | right =>
    rw [hs] at hother
    exact if_neg hother

theorem root_above (hf : T.RepPath path p) (hne : path ≠ []) :
    T.root ∈ Path.nodes path ∧ T.root ≠ T.nil := by
  induction path generalizing p with
  | nil => exact absurd rfl hne
  | cons f path ih =>
    obtain ⟨hfnil, -, -, -, -, habove⟩ := hf
    cases path with
    | nil =>
      have hroot : T.root = f.ptr := habove
      rw [hroot]
      exact ⟨by simp [Path.nodes], hfnil⟩
    | cons g path =>
      obtain ⟨hmem, hnil⟩ := ih habove (by simp)
      exact ⟨by rw [Path.nodes]; simp [hmem], hnil⟩

theorem focus_ne_root (hf : T.Focus (f :: path) t x) : x ≠ T.root := by
  obtain ⟨hmem, hnil⟩ := root_above hf.above (by simp)
  rintro rfl
  exact hf.disjoint _ (hf.below.mem hnil) hmem

/-- With the sibling red, a rotation gives the focus a black one. -/
theorem deleteFixupSibling_spec (h : Deleting T (⟨s, p, c, far⟩ :: path) t x)
    (hblack : t.rootColor = .black) :
    ∃ T' w c' u v path', deleteFixupSibling s T x = (T', w) ∧
      Deleting T' (⟨s, p, c', .join s w .black u v⟩ :: path') t x ∧ T'.nil = T.nil ∧
      (Path.plug path' (.join s p c' t (.join s w .black u v))).nodes =
        (Path.plug path (.join s p c t far)).nodes ∧
      (c' = .red ∨ path' = path) := by
  obtain ⟨n, ht, hfar, hpath⟩ := h.height
  obtain ⟨hcfar, hcpath, hred⟩ := h.above
  rcases far.exists_join s with rfl | ⟨w, cw, u, v, rfl⟩
  · exact absurd rfl hfar.ne_leaf
  have hx : T.parent x = p := h.parent
  have hw : T.child s.other p = w := h.focus.up.downOther.ptr
  have hcw : T.color w = cw := h.focus.up.downOther.color
  cases cw with
  | black =>
    refine ⟨T, w, c, u, v, path, ?_, h, rfl, rfl, .inr rfl⟩
    simp only [deleteFixupSibling, hx, hw, hcw, reduceCtorEq, if_false]
  | red =>
    -- a red sibling has a black parent and black children
    have hc : c = .black := by
      cases c with
      | black => rfl
      | red => exact absurd (hred rfl).1 (by simp)
    subst hc
    obtain ⟨hcu, hcv, huv⟩ := Shape.noRedRed_join.mp hcfar
    obtain ⟨m, hu, hv, hm⟩ := Shape.blackHeight_join.mp hfar
    simp only [Color.weight, Nat.add_zero] at hm
    subst hm
    have hne : T.nil ≠ w ∧ T.nil ≠ p :=
      ⟨h.focus.up.downOther.ne_nil.symm, h.focus.up.ne_nil.symm⟩
    have hf1 := ((h.focus.up.downOther.setColor .black).upOther).setColor .red
    have hf2 := (Focus.rotate hf1).down.down
    have hkept := rbtreeRotate_parent_nil hf1
    generalize hT' : rbtreeRotate s ((T.setColor w .black).setColor p .red) p = T' at hf2 hkept
    have hnil : T'.nil = T.nil := by rw [← hT', rbtreeRotate_nil]; rfl
    have hxp : T'.child s p = x := by
      rcases t.exists_join .left with rfl | ⟨q, cq, a, b, rfl⟩
      · rw [hf2.nil_iff.mpr rfl, h.focus.nil_iff.mpr rfl, hnil]
      · rw [hf2.ptr, h.focus.ptr]
    rw [hxp] at hf2
    rcases u.exists_join s with rfl | ⟨w', cw', u', v', rfl⟩
    · exact absurd rfl hu.ne_leaf
    have hcw' : cw' = .black := by simpa using (huv rfl).1
    subst hcw'
    have hdel : Deleting T' (⟨s, p, .red, .join s w' .black u' v'⟩ :: ⟨s, w, .black, v⟩ :: path)
        t x := by
      refine ⟨hf2, ?_, ?_, ⟨n, ht, hu, hv, hpath⟩, h.colors,
        ⟨hcu, ⟨hcv, hcpath, by simp⟩, by simp [Path.topColor]⟩⟩
      · intro hleaf
        rw [hnil]
        exact hkept.trans (h.nilParent hleaf)
      · rw [hnil, ← hT', rbtreeRotate_color]
        simp only [setColor_color, hne.1, hne.2, if_false, h.nil]
    have hw' : T'.child s.other p = w' := hdel.focus.up.downOther.ptr
    refine ⟨T', w', .red, u', v', _, ?_, hdel, hnil, ?_, .inl rfl⟩
    · simp only [deleteFixupSibling, hx, hw, hcw, if_true, setColor_parent, hT', hdel.parent,
        Path.top, hw']
    · rw [Path.plug]
      exact Path.nodes_plug_congr (Shape.nodes_rotate _ _ _ _ _ _ _ _ _ _)

theorem deleteFixup_far (h : Deleting T (⟨s, p, c, .join s w .black u v⟩ :: path) t x)
    (hblack : t.rootColor = .black) (hv : v.rootColor = .red) :
    let T1 := T.setColor w (T.color (T.parent x))
    let T2 := T1.setColor (T1.parent x) .black
    let T3 := T2.setColor (T2.child s.other w) .black
    let T' := rbtreeRotate s T3 (T3.parent x)
    ∃ t', T'.Focus [] t' T'.root ∧ (∃ n, t'.BlackHeight n) ∧ t'.NoRedRed ∧ T'.nil = T.nil ∧
      T'.color T'.nil = .black ∧
      t'.nodes = (Path.plug path (.join s p c t (.join s w .black u v))).nodes := by
  rcases v.exists_join s with rfl | ⟨r, cr, v1, v2, rfl⟩
  · exact absurd hv (by simp [Shape.rootColor])
  rw [Shape.rootColor_join] at hv
  subst hv
  have hx : T.parent x = p := h.parent
  have hc : T.color p = c := h.focus.up.color
  have hr : T.child s.other w = r := h.focus.up.downOther.downOther.ptr
  obtain ⟨n, ht, hfar, hpath⟩ := h.height
  obtain ⟨hcfar, hcpath, hred⟩ := h.above
  obtain ⟨m, hu, hr', hm⟩ := Shape.blackHeight_join.mp hfar
  obtain ⟨m', hv1, hv2, hm'⟩ := Shape.blackHeight_join.mp hr'
  obtain ⟨hcu, hcr, -⟩ := Shape.noRedRed_join.mp hcfar
  obtain ⟨hcv1, hcv2, -⟩ := Shape.noRedRed_join.mp hcr
  simp only [Color.weight, Nat.add_zero, Nat.add_right_cancel_iff] at hm hm'
  subst hm'
  subst hm
  have hct : t.NoRedRed := by
    have := h.colors
    rwa [Shape.blacken_of_black hblack] at this
  have hne : T.nil ≠ w ∧ T.nil ≠ p ∧ T.nil ≠ r :=
    ⟨h.focus.up.downOther.ne_nil.symm, h.focus.up.ne_nil.symm,
      h.focus.up.downOther.downOther.ne_nil.symm⟩
  have hf1 := ((h.focus.up.downOther.setColor c).upOther).setColor .black
  have hf2 := (hf1.downOther.downOther.setColor .black).upOther.upOther
  have hf3 := Focus.rotate hf2
  simp only [hx, hc, setColor_parent, setColor_child, hr]
  refine ⟨_, hf3.whole, ?_, ?_, rbtreeRotate_nil, ?_, ?_⟩
  · refine Path.blackHeight_plug.mpr ⟨n + 1 + c.weight, Shape.blackHeight_join.mpr
      ⟨n + 1, ?_, ?_, rfl⟩, hpath⟩
    · exact Shape.blackHeight_join.mpr ⟨n, ht, hu, rfl⟩
    · exact Shape.blackHeight_join.mpr ⟨n, hv1, hv2, rfl⟩
  · refine (Path.colors_plug.mpr ⟨?_, hcpath, ?_⟩).1
    · refine Shape.noRedRed_join.mpr ⟨?_, ?_, by simp⟩
      · exact Shape.noRedRed_join.mpr ⟨hct, hcu, by simp⟩
      · exact Shape.noRedRed_join.mpr ⟨hcv1, hcv2, by simp⟩
    · rw [Shape.rootColor_join]
      exact fun hc => (hred hc).2
  · rw [rbtreeRotate_nil, rbtreeRotate_color]
    simp only [setColor_color, setColor_nil, hne.1, hne.2.1, hne.2.2, if_false, h.nil]
  · refine Path.nodes_plug_congr ?_
    rw [Shape.nodes_rotate s p w c .black]
    exact Shape.nodes_join_congr rfl (Shape.nodes_join_congr rfl (Shape.nodes_join_congr rfl rfl _) _) _

theorem deleteFixup_near (h : Deleting T (⟨s, p, c, .join s w .black u v⟩ :: path) t x)
    (hu : u.rootColor = .red) (hv : v.rootColor = .black) :
    let T' := rbtreeRotate s.other ((T.setColor (T.child s w) .black).setColor w .red) w
    ∃ q u1 u2, T'.child s.other (T'.parent x) = q ∧
      Deleting T' (⟨s, p, c, .join s q .black u1 (.join s w .red u2 v)⟩ :: path) t x ∧
      T'.nil = T.nil ∧
      (Shape.join s q .black u1 (.join s w .red u2 v)).nodes = (Shape.join s w .black u v).nodes := by
  rcases u.exists_join s with rfl | ⟨q, cq, u1, u2, rfl⟩
  · exact absurd hu (by simp [Shape.rootColor])
  rw [Shape.rootColor_join] at hu
  subst hu
  have hq : T.child s w = q := h.focus.up.downOther.down.ptr
  obtain ⟨n, ht, hfar, hpath⟩ := h.height
  obtain ⟨hcfar, hcpath, hred⟩ := h.above
  obtain ⟨m, hq', hv', hm⟩ := Shape.blackHeight_join.mp hfar
  obtain ⟨m', hu1, hu2, hm'⟩ := Shape.blackHeight_join.mp hq'
  obtain ⟨hcq, hcv, -⟩ := Shape.noRedRed_join.mp hcfar
  obtain ⟨hcu1, hcu2, hu12⟩ := Shape.noRedRed_join.mp hcq
  simp only [Color.weight, Nat.add_zero, Nat.add_right_cancel_iff] at hm hm'
  subst hm'
  subst hm
  have hne : T.nil ≠ w ∧ T.nil ≠ q :=
    ⟨h.focus.up.downOther.ne_nil.symm, h.focus.up.downOther.down.ne_nil.symm⟩
  have hf1 := ((h.focus.up.downOther.down.setColor .black).up).setColor .red
  rw [← Shape.join_other, ← Shape.join_other (s := s) (p := q)] at hf1
  have hkept := rbtreeRotate_parent_nil hf1
  have hf2 := Focus.rotate hf1
  rw [Shape.join_other, Shape.join_other] at hf2
  simp only [hq]
  generalize hT' : rbtreeRotate s.other ((T.setColor q .black).setColor w .red) w = T' at hf2 hkept
  have hnil : T'.nil = T.nil := by rw [← hT', rbtreeRotate_nil]; rfl
  have hf3 := hf2.upOther.down
  have hxp : T'.child s p = x := by
    rcases t.exists_join .left with rfl | ⟨y, cy, a, b, rfl⟩
    · rw [hf3.nil_iff.mpr rfl, h.focus.nil_iff.mpr rfl, hnil]
    · rw [hf3.ptr, h.focus.ptr]
  rw [hxp] at hf3
  have hdel : Deleting T' (⟨s, p, c, .join s q .black u1 (.join s w .red u2 v)⟩ :: path) t x := by
    refine ⟨hf3, ?_, ?_, ⟨n, ht, ?_, hpath⟩, h.colors, ⟨?_, hcpath, ?_⟩⟩
    · intro hleaf
      rw [hnil]
      exact hkept.trans (h.nilParent hleaf)
    · rw [hnil, ← hT', rbtreeRotate_color]
      simp only [setColor_color, hne.1, hne.2, if_false, h.nil]
    · exact Shape.blackHeight_join.mpr ⟨n, hu1, Shape.blackHeight_join.mpr ⟨n, hu2, hv', rfl⟩, rfl⟩
    · refine Shape.noRedRed_join.mpr ⟨hcu1, ?_, by simp⟩
      exact Shape.noRedRed_join.mpr ⟨hcu2, hcv, fun _ => ⟨(hu12 rfl).2, hv⟩⟩
    · exact fun hc => ⟨by simp, (hred hc).2⟩
  refine ⟨q, u1, u2, ?_, hdel, hnil, ?_⟩
  · rw [hdel.parent]
    exact hdel.focus.up.downOther.ptr
  · cases s <;> simp [Shape.join, Shape.nodes]

theorem deleteFixupNephew_spec (h : Deleting T (⟨s, p, c, .join s w .black u v⟩ :: path) t x)
    (hblack : t.rootColor = .black) (hred : ¬(u.rootColor = .black ∧ v.rootColor = .black)) :
    ∃ t', (deleteFixupNephew s T x w).Focus [] t' (deleteFixupNephew s T x w).root ∧
      (∃ n, t'.BlackHeight n) ∧ t'.NoRedRed ∧ (deleteFixupNephew s T x w).nil = T.nil ∧
      (deleteFixupNephew s T x w).color T.nil = .black ∧
      t'.nodes = (Path.plug path (.join s p c t (.join s w .black u v))).nodes := by
  have hv : T.color (T.child s.other w) = v.rootColor :=
    focus_color h.focus.up.downOther.downOther h.nil
  cases hcv : v.rootColor with
  | red =>
    rw [hcv] at hv
    simp only [deleteFixupNephew, hv, reduceCtorEq, if_false]
    obtain ⟨t', hf, hn, hc, hnil, hcolor, hnodes⟩ := deleteFixup_far h hblack hcv
    exact ⟨t', hf, hn, hc, hnil, hnil ▸ hcolor, hnodes⟩
  | black =>
    rw [hcv] at hv
    have hcu : u.rootColor = .red := by
      cases hu : u.rootColor with
      | red => rfl
      | black => exact absurd ⟨hu, hcv⟩ hred
    obtain ⟨q, u1, u2, hq, hdel, hnil', hnodes'⟩ := deleteFixup_near h hcu hcv
    simp only [deleteFixupNephew, hv, if_true, hq]
    obtain ⟨t', hf, hn, hc, hnil, hcolor, hnodes⟩ := deleteFixup_far hdel hblack (by simp)
    refine ⟨t', hf, hn, hc, hnil.trans hnil', ?_, hnodes.trans ?_⟩
    · rw [← hnil', ← hnil]
      exact hcolor
    · exact Path.nodes_plug_congr (Shape.nodes_join_congr rfl hnodes' _)

theorem nephews_black (h : Deleting T (⟨s, p, c, .join s w .black u v⟩ :: path) t x) :
    (T.color (T.child .left w) = .black ∧ T.color (T.child .right w) = .black) ↔
      (u.rootColor = .black ∧ v.rootColor = .black) := by
  have hu : T.color (T.child s w) = u.rootColor := focus_color h.focus.up.downOther.down h.nil
  have hv : T.color (T.child s.other w) = v.rootColor :=
    focus_color h.focus.up.downOther.downOther h.nil
  rw [← hu, ← hv]
  cases s with
  | left => exact Iff.rfl
  | right => exact and_comm

theorem deleteFixup_bothBlack (h : Deleting T (⟨s, p, c, .join s w .black u v⟩ :: path) t x)
    (hblack : t.rootColor = .black) (huv : u.rootColor = .black ∧ v.rootColor = .black) :
    Deleting (T.setColor w .red) path (.join s p c t (.join s w .red u v)) p := by
  have hct : t.NoRedRed := by
    have := h.colors
    rwa [Shape.blacken_of_black hblack] at this
  obtain ⟨n, ht, hfar, hpath⟩ := h.height
  obtain ⟨m, hu, hv, hm⟩ := Shape.blackHeight_join.mp hfar
  simp only [Color.weight, Nat.add_right_cancel_iff] at hm
  subst hm
  obtain ⟨hcfar, hcpath, hred⟩ := h.above
  obtain ⟨hcu, hcv, -⟩ := Shape.noRedRed_join.mp hcfar
  have hne : T.nil ≠ w := h.focus.up.downOther.ne_nil.symm
  refine ⟨(h.focus.up.downOther.setColor .red).upOther, ?_, ?_, ⟨n + c.weight, ?_, ?_⟩, ?_, hcpath⟩
  · intro hleaf
    cases s <;> cases hleaf
  · simp only [setColor_color, setColor_nil, hne, if_false, h.nil]
  · exact Shape.blackHeight_join.mpr ⟨n, ht, Shape.blackHeight_join.mpr ⟨n, hu, hv, rfl⟩, rfl⟩
  · rw [Nat.add_right_comm]
    exact hpath
  · rw [Shape.blacken_join]
    refine Shape.noRedRed_join.mpr ⟨hct, ?_, by simp⟩
    exact Shape.noRedRed_join.mpr ⟨hcu, hcv, fun _ => huv⟩

/-- What the loop leaves at the root: a tree with everything right but,
perhaps, the color of the root. -/
theorem deleteFixup_root (hf : T.Focus [] t T.root) (hn : ∃ n, t.BlackHeight n) (hc : t.NoRedRed)
    (hnil : T.color T.nil = .black) (fuel : Nat) :
    ∃ T' t', rbtreeDeleteFixup (fuel + 1) T T.root = .ok T' ∧ T'.Focus [] t' T'.root ∧ t'.Balanced ∧
      t'.nodes = t.nodes ∧ T'.nil = T.nil ∧ T'.color T'.nil = .black := by
  obtain ⟨n, hn⟩ := hn
  refine ⟨_, _, if_neg (by simp), focus_blacken hf, Shape.balanced_blacken hn hc,
    Shape.nodes_blacken t, rfl, ?_⟩
  simp only [setColor_color, setColor_nil, hnil, ite_self]

/-- The deletion loop ends in a balanced tree with the same nodes in order. -/
theorem rbtreeDeleteFixup_spec (h : Deleting T path t x) (hpos : 0 < fuel)
    (hfuel : t.rootColor = .red ∨ path.length < fuel) :
    ∃ T' t', rbtreeDeleteFixup fuel T x = .ok T' ∧ T'.Focus [] t' T'.root ∧ t'.Balanced ∧
      t'.nodes = (Path.plug path t).nodes ∧ T'.nil = T.nil ∧ T'.color T'.nil = .black := by
  induction fuel generalizing T path t x with
  | zero => omega
  | succ fuel ih =>
    have hcolor := focus_color h.focus h.nil
    cases path with
    | nil =>
      -- the loop has reached the root, which may take any color
      have hroot : T.root = x := h.focus.above
      have hf := focus_blacken (hroot ▸ h.focus)
      rw [hroot] at hf
      obtain ⟨n, hn, -⟩ := h.height
      have hbal : t.blacken.Balanced := by
        rcases t.exists_join .left with rfl | ⟨q, c, a, b, rfl⟩
        · exact ⟨⟨n, hn⟩, h.colors, rfl⟩
        · obtain ⟨m, ha, hb, -⟩ := Shape.blackHeight_join.mp hn
          have hc := h.colors
          rw [Shape.blacken_join] at hc ⊢
          exact ⟨⟨m + 1, Shape.blackHeight_join.mpr ⟨m, ha, hb, rfl⟩⟩, hc, by simp⟩
      refine ⟨_, _, if_neg (by simp [hroot]), ?_, hbal, Shape.nodes_blacken t, rfl, ?_⟩
      · rw [setColor_root, hroot]
        exact hf
      · simp only [setColor_color, setColor_nil, h.nil, ite_self]
    | cons f path =>
      have hroot := focus_ne_root h.focus
      cases hblack : t.rootColor with
      | red =>
        -- a red subtree that is one short is made black
        rw [hblack] at hcolor
        rcases t.exists_join .left with rfl | ⟨q, c, a, b, rfl⟩
        · exact absurd hblack (by simp [Shape.rootColor])
        rw [Shape.rootColor_join] at hblack
        subst hblack
        have hf := h.focus.setColor .black
        have hc := h.colors
        rw [Shape.blacken_join] at hc
        obtain ⟨n, hn, hpath⟩ := h.height
        obtain ⟨m, ha, hb, hm⟩ := Shape.blackHeight_join.mp hn
        simp only [Color.weight, Nat.add_zero] at hm
        subst hm
        have hptr : x = q := h.focus.ptr
        subst hptr
        refine ⟨_, _, if_neg (by simp [hcolor]), hf.whole, Path.balanced_plug.mpr
          ⟨⟨n + 1, Shape.blackHeight_join.mpr ⟨n, ha, hb, rfl⟩, hpath⟩, hc, h.above, by simp⟩, ?_,
          rfl, ?_⟩
        · exact Path.nodes_plug_congr (Shape.nodes_join_congr rfl rfl _)
        · simp only [setColor_color, setColor_nil, h.nil, ite_self]
      | black =>
        rw [hblack] at hcolor
        obtain ⟨s, p, c, far⟩ := f
        have hfar : far ≠ .leaf := by
          obtain ⟨n, -, hfar, -⟩ := h.height
          exact hfar.ne_leaf
        have hx : T.parent x = p := h.parent
        have hside := sibling_side h.focus hfar
        obtain ⟨T1, w, c', u, v, path', hsib, hdel, hnil1, hnodes1, hshort⟩ :=
          deleteFixupSibling_spec h hblack
        have hlen : path.length + 1 < fuel + 1 := by
          rcases hfuel with hr | hl
          · exact absurd (hr.symm.trans hblack) (by decide)
          · simpa using hl
        simp only [rbtreeDeleteFixup, ne_eq, hroot, not_false_eq_true, hcolor, and_self, if_true, hx]
        simp only at hside
        simp only [hside, hsib, nephews_black hdel]
        split
        · rename_i huv
          have hxp : T1.parent x = p := hdel.parent
          have hnext := deleteFixup_bothBlack hdel hblack huv
          have hfuel' : (Shape.join s p c' t (.join s w .red u v)).rootColor = .red ∨
              path'.length < fuel := by
            rw [Shape.rootColor_join]
            rcases hshort with hr | hp
            · exact .inl hr
            · right
              rw [hp]
              omega
          obtain ⟨T2, t2, hrun, hf2, hbal, hnodes2, hnil2, hcolor2⟩ := ih hnext (by omega) hfuel'
          rw [hxp]
          refine ⟨T2, t2, hrun, hf2, hbal, ?_, hnil2.trans hnil1, hcolor2⟩
          refine hnodes2.trans (Eq.trans ?_ hnodes1)
          exact Path.nodes_plug_congr (Shape.nodes_join_congr rfl (Shape.nodes_join_congr rfl rfl _) _)
        · rename_i huv
          obtain ⟨t2, hf2, hn2, hc2, hnil2, hcolor2, hnodes2⟩ :=
            deleteFixupNephew_spec hdel hblack huv
          obtain ⟨fuel, rfl⟩ : ∃ k, fuel = k + 1 := ⟨fuel - 1, by omega⟩
          rw [← hnil2] at hcolor2
          obtain ⟨T3, t3, hrun, hf3, hbal, hnodes3, hnil3, hcolor3⟩ :=
            deleteFixup_root hf2 hn2 hc2 hcolor2 fuel
          exact ⟨T3, t3, hrun, hf3, hbal, hnodes3.trans (hnodes2.trans hnodes1),
            hnil3.trans (hnil2.trans hnil1), hcolor3⟩

end

end KvStore
