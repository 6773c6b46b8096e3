import KvStore.Engines.RbTreeLaws
import KvStore.Engines.Runs

/-!
# Runs of the red-black tree

After every run the tree is sound, in terms of the pointers alone, and the
fixup loops of the next write work only on nodes that are there: `CanRotate`
and the two `FixupSafe` predicates follow the loops round by round and say of
each pointer they go through that it is not the sentinel.
-/

namespace KvStore

open Lib Lib.Links

/-- The invariant of the tree. `Under` reaches the nodes by their child
pointers, so nothing is said here about how the tree came about. -/
structure KvsRbtree.Sound (T : KvsRbtree) : Prop where
  ordered : ∀ p, T.links.Under T.links.root p → ∃ k, T.key p = some k ∧
    (∀ q, T.links.Under (T.links.child .left p) q →
      ∃ k', T.key q = some k' ∧ strcmp k'.bytes k.bytes < 0) ∧
    ∀ q, T.links.Under (T.links.child .right p) q →
      ∃ k', T.key q = some k' ∧ strcmp k.bytes k'.bytes < 0
  rootColor : T.links.color T.links.root = .black
  noRedRed : ∀ p s, T.links.Under T.links.root p → T.links.color p = .red →
    T.links.color (T.links.child s p) = .black
  blackHeight : ∃ n, ∀ l, T.links.Descent T.links.root l →
    l.countP (fun q => T.links.color q = .black) = n
  parent : ∀ p s, T.links.Under T.links.root p → T.links.child s p ≠ T.links.nil →
    T.links.parent (T.links.child s p) = p
  rootParent : T.links.parent T.links.root = T.links.nil
  nilColor : T.links.color T.links.nil = .black
  nilKey : T.key T.links.nil = none
  nilValue : T.value T.links.nil = none

section
variable {inst : KvsRbtree} {n : Nat} {t : Shape Ptr Color}

theorem RbStores.key_eq (h : RbStores inst n t) (hp : p ∈ t.nodes) :
    ∃ k, inst.key p = some k ∧ (inst.pairAt p).1 = k.bytes := by
  obtain ⟨k, hk⟩ := Option.isSome_iff_exists.mp (h.strings p hp).1
  exact ⟨k, hk, by simp [KvsRbtree.pairAt, hk]⟩

theorem RbStores.ordered (h : RbStores inst n t) (hp : inst.links.Under inst.links.root p) :
    (∀ q, inst.links.Under (inst.links.child .left p) q →
      q ∈ t.nodes ∧ keyLt (inst.pairAt q).1 (inst.pairAt p).1) ∧
    ∀ q, inst.links.Under (inst.links.child .right p) q →
      q ∈ t.nodes ∧ keyLt (inst.pairAt p).1 (inst.pairAt q).1 := by
  obtain ⟨ext, c, a, b, hf, rfl⟩ := h.focus.under hp
  have hsorted := h.sorted
  rw [Path.nodes_plug] at hsorted ⊢
  simp only [SortedKeys, Shape.nodes, List.map_append, List.map_cons, List.pairwise_append,
    List.pairwise_cons, List.mem_append, List.mem_cons, List.mem_map] at hsorted ⊢
  obtain ⟨⟨-, ⟨-, ⟨hpb, -⟩, hap⟩, -⟩, -, -⟩ := hsorted
  constructor
  · intro q hq
    have hmem := (Focus.down (s := .left) hf).under_mem hq
    exact ⟨.inl (.inr (.inl hmem)), hap _ ⟨q, hmem, rfl⟩ _ (.inl rfl)⟩
  · intro q hq
    have hmem := (Focus.down (s := .right) hf).under_mem hq
    exact ⟨.inl (.inr (.inr (.inr hmem))), hpb _ ⟨q, hmem, rfl⟩⟩

theorem focus_noRedRed {T : RbLinks} {path : Path Ptr Color} {a b : Shape Ptr Color}
    (hf : T.Focus path (.node p .red a b) p) (hcolors : (Path.plug path (.node p .red a b)).NoRedRed)
    (hroot : (Path.plug path (.node p .red a b)).rootColor = .black) (hnil : T.color T.nil = .black)
    (s : Side) : T.color (T.child s p) = .black := by
  obtain ⟨⟨-, -, hab⟩, -⟩ := Path.colors_plug.mp ⟨hcolors, hroot⟩
  cases s with
  | left =>
    rw [focus_color (Focus.down (s := .left) hf) hnil]
    exact (hab rfl).1
  | right =>
    rw [focus_color (Focus.down (s := .right) hf) hnil]
    exact (hab rfl).2

theorem RbStores.sound (h : RbStores inst n t) : inst.Sound where
  ordered p hp := by
    obtain ⟨hleft, hright⟩ := h.ordered hp
    obtain ⟨k, hk, hpk⟩ := h.key_eq (h.focus.under_mem hp)
    refine ⟨k, hk, fun q hq => ?_, fun q hq => ?_⟩
    · obtain ⟨hmem, hlt⟩ := hleft q hq
      obtain ⟨k', hk', hqk⟩ := h.key_eq hmem
      rw [keyLt, hpk, hqk] at hlt
      exact ⟨k', hk', hlt⟩
    · obtain ⟨hmem, hlt⟩ := hright q hq
      obtain ⟨k', hk', hqk⟩ := h.key_eq hmem
      rw [keyLt, hpk, hqk] at hlt
      exact ⟨k', hk', hlt⟩
  rootColor := by
    rw [focus_color h.focus h.nilColor]
    exact h.balanced.root
  noRedRed p s hp hred := by
    obtain ⟨ext, c, a, b, hf, rfl⟩ := h.focus.under hp
    have hc : c = .red := (Focus.color (s := .left) hf).symm.trans hred
    subst hc
    rw [List.append_nil] at hf
    exact focus_noRedRed hf h.balanced.colors h.balanced.root h.nilColor s
  blackHeight := by
    obtain ⟨m, hm⟩ := h.balanced.height
    exact ⟨m, fun l hl => hl.blacks h.focus hm⟩
  parent p s hp hne := by
    obtain ⟨ext, c, a, b, hf, -⟩ := h.focus.under hp
    cases s with
    | left =>
      have hdown := Focus.down (s := .left) hf
      cases a with
      | leaf => exact absurd hdown.below hne
      | node q d a₁ a₂ => exact hdown.below.1 ▸ Focus.parent (s := .left) hdown
    | right =>
      have hdown := Focus.down (s := .right) hf
      cases b with
      | leaf => exact absurd hdown.below hne
      | node q d b₁ b₂ => exact hdown.below.1 ▸ Focus.parent (s := .left) hdown
  rootParent := h.rootParent
  nilColor := h.nilColor
  nilKey := h.nilKey
  nilValue := h.nilValue

end

-- ---------------------------------------------------------------------------
-- The insertion loop
-- ---------------------------------------------------------------------------

def CanRotate (s : Side) (T : RbLinks) (x : Ptr) : Prop := x ≠ T.nil ∧ T.child s.other x ≠ T.nil

def InsertStepSafe (s : Side) (T : RbLinks) (z : Ptr) : Prop :=
  T.parent z ≠ T.nil ∧ T.parent (T.parent z) ≠ T.nil ∧
    (T.color (T.child s.other (T.parent (T.parent z))) ≠ .red →
      if z = T.child s.other (T.parent z) then
        let T' := rbtreeRotate s T (T.parent z)
        CanRotate s T (T.parent z) ∧ T'.parent (T.parent z) ≠ T'.nil ∧
          CanRotate s.other T' (T'.parent (T'.parent (T.parent z)))
      else CanRotate s.other T (T.parent (T.parent z)))

def InsertFixupSafe : Nat → RbLinks → Ptr → Prop
  | 0, _, _ => False
  | fuel + 1, T, z =>
    T.color (T.parent z) = .red →
      let s := if T.parent z = T.child .left (T.parent (T.parent z)) then Side.left else .right
      InsertStepSafe s T z ∧
        InsertFixupSafe fuel (insertFixupStep s T z).1 (insertFixupStep s T z).2

section
variable {T : RbLinks} {path : Path Ptr Color} {t ff gf : Shape Ptr Color} {z pf pg : Ptr}

theorem insertStep_safe
    (h : Inserting T (⟨sf, pf, .red, ff⟩ :: ⟨sg, pg, .black, gf⟩ :: path) t z) :
    InsertStepSafe sg T z := by
  obtain ⟨a, b, ht, -⟩ := h.join .left
  have hf := h.focus
  rw [ht] at hf
  have hz : T.parent z = pf := hf.parent
  have hp : T.parent pf = pg := h.focus.up.parent
  have hpf : pf ≠ T.nil := h.focus.up.ne_nil
  have hpg : pg ≠ T.nil := h.focus.up.up.ne_nil
  have hchild : T.child sg pg = pf := h.focus.up.child_above
  refine ⟨by rwa [hz], by rwa [hz, hp], fun _ => ?_⟩
  simp only [hz, hp]
  rcases Side.eq_or_eq_other sg sf with rfl | rfl
  · have hout : z ≠ T.child sf.other pf := fun heq => (focus_sibling hf _ rfl).2.2 heq.symm
    rw [if_neg hout]
    refine ⟨hpg, ?_⟩
    rwa [Side.other_other, hchild]
  · have hin : z = T.child sg.other pf := h.focus.child_above.symm
    obtain ⟨u, v, rfl, hrot⟩ := insertFixup_inner h
    have hz' : (rbtreeRotate sg T pf).parent pf = z := hrot.focus.parent
    have hp' : (rbtreeRotate sg T pf).parent z = pg := hrot.focus.up.parent
    have hchild' : (rbtreeRotate sg T pf).child sg pg = z := hrot.focus.up.child_above
    have hznil : z ≠ (rbtreeRotate sg T pf).nil := hrot.focus.up.ne_nil
    rw [if_pos hin]
    refine ⟨⟨hpf, ?_⟩, by rwa [hz'], ?_⟩
    · rw [← hin]
      exact hf.ne_nil
    · rw [hz', hp']
      refine ⟨hrot.focus.up.up.ne_nil, ?_⟩
      rwa [Side.other_other, hchild']

theorem insertFixup_safe (h : Inserting T path t z) (hfuel : path.length < fuel) :
    InsertFixupSafe fuel T z := by
  induction fuel generalizing T path t z with
  | zero => omega
  | succ fuel ih =>
    intro hred
    obtain ⟨a, b, ht, -⟩ := h.join .left
    have hpar : T.parent z = Path.top T.nil path := by
      have hf := h.focus
      rw [ht] at hf
      exact hf.parent
    rw [hpar] at hred
    match path, h, hfuel, hpar, hred with
    | [], h, _, _, hred => exact absurd (h.nil.symm.trans hred) (by decide)
    | [⟨sf, pf, cf, ff⟩], h, _, _, hred =>
      have hcf : cf = .red := h.focus.up.color.symm.trans hred
      exact absurd (h.above.2.2 hcf).2 (by simp [Path.topColor])
    | ⟨sf, pf, cf, ff⟩ :: ⟨sg, pg, cg, gf⟩ :: path, h, hfuel, hpar, hred =>
      have hcf : cf = .red := h.focus.up.color.symm.trans hred
      subst hcf
      have hcg : cg = .black := (h.above.2.2 rfl).2
      subst hcg
      have hp : T.parent pf = pg := h.focus.up.parent
      have hside := focus_side h.focus.up
      simp only [Path.top] at hside hpar
      simp only [List.length_cons] at hfuel
      obtain ⟨T', z', path', t', hstep, hins, hlen, -, -⟩ := insertFixupStep_spec h
      simp only [hpar, hp, hside]
      refine ⟨insertStep_safe h, ?_⟩
      rw [hstep]
      exact ih hins (by omega)

end

-- ---------------------------------------------------------------------------
-- The deletion loop
-- ---------------------------------------------------------------------------

def DeleteSiblingSafe (s : Side) (T : RbLinks) (x : Ptr) : Prop :=
  T.parent x ≠ T.nil ∧ T.child s.other (T.parent x) ≠ T.nil ∧
    (T.color (T.child s.other (T.parent x)) = .red → CanRotate s T (T.parent x)) ∧
    (deleteFixupSibling s T x).2 ≠ (deleteFixupSibling s T x).1.nil

def DeleteLastSafe (s : Side) (T : RbLinks) (x w : Ptr) : Prop :=
  w ≠ T.nil ∧ T.child s.other w ≠ T.nil ∧ CanRotate s T (T.parent x)

def DeleteNephewSafe (s : Side) (T : RbLinks) (x w : Ptr) : Prop :=
  if T.color (T.child s.other w) = .black then
    let T' := rbtreeRotate s.other ((T.setColor (T.child s w) .black).setColor w .red) w
    CanRotate s.other T w ∧ DeleteLastSafe s T' x (T'.child s.other (T'.parent x))
  else DeleteLastSafe s T x w

def DeleteFixupSafe : Nat → RbLinks → Ptr → Prop
  | 0, _, _ => False
  | fuel + 1, T, x =>
    x ≠ T.root ∧ T.color x = .black →
      let s := if x = T.child .left (T.parent x) then Side.left else .right
      DeleteSiblingSafe s T x ∧
        let (T, w) := deleteFixupSibling s T x
        if T.color (T.child .left w) = .black ∧ T.color (T.child .right w) = .black then
          DeleteFixupSafe fuel (T.setColor w .red) (T.parent x)
        else
          DeleteNephewSafe s T x w ∧
            DeleteFixupSafe fuel (deleteFixupNephew s T x w) (deleteFixupNephew s T x w).root

section
variable {T : RbLinks} {path : Path Ptr Color} {t u v far : Shape Ptr Color} {p w x : Ptr}
  {s : Side} {c : Color}

theorem deleteSibling_safe (h : Deleting T (⟨s, p, c, far⟩ :: path) t x)
    (hblack : t.rootColor = .black) : DeleteSiblingSafe s T x := by
  have hx : T.parent x = p := h.parent
  have hp : p ≠ T.nil := h.focus.up.ne_nil
  have hw : T.child s.other p ≠ T.nil := by
    obtain ⟨n, -, hfar, -⟩ := h.height
    exact fun heq => hfar.ne_leaf (h.focus.up.downOther.nil_iff.mp heq)
  obtain ⟨T', w, c', u, v, path', hsib, hdel, -⟩ := deleteFixupSibling_spec h hblack
  refine ⟨by rwa [hx], by rwa [hx], fun _ => by rw [hx]; exact ⟨hp, hw⟩, ?_⟩
  rw [hsib]
  exact hdel.focus.up.downOther.ne_nil

theorem deleteLast_safe (h : Deleting T (⟨s, p, c, .join s w .black u v⟩ :: path) t x)
    (hv : v.rootColor = .red) : DeleteLastSafe s T x w := by
  have hx : T.parent x = p := h.parent
  have hw : w ≠ T.nil := h.focus.up.downOther.ne_nil
  have hpw : T.child s.other p = w := h.focus.up.downOther.ptr
  refine ⟨hw, fun heq => ?_, ?_⟩
  · rw [h.focus.up.downOther.downOther.nil_iff.mp heq] at hv
    exact absurd hv (by simp [Shape.rootColor])
  · rw [hx]
    exact ⟨h.focus.up.ne_nil, by rwa [hpw]⟩

theorem deleteNephew_safe (h : Deleting T (⟨s, p, c, .join s w .black u v⟩ :: path) t x)
    (hred : ¬(u.rootColor = .black ∧ v.rootColor = .black)) : DeleteNephewSafe s T x w := by
  have hv : T.color (T.child s.other w) = v.rootColor :=
    focus_color h.focus.up.downOther.downOther h.nil
  unfold DeleteNephewSafe
  rw [hv]
  cases hcv : v.rootColor with
  | red =>
    rw [if_neg (by decide)]
    exact deleteLast_safe h hcv
  | black =>
    have hcu : u.rootColor = .red := by
      cases hu : u.rootColor with
      | red => rfl
      | black => exact absurd ⟨hu, hcv⟩ hred
    obtain ⟨q, u1, u2, hq, hdel, -, -⟩ := deleteFixup_near h hcu hcv
    rw [if_pos rfl]
    refine ⟨⟨h.focus.up.downOther.ne_nil, fun heq => ?_⟩, ?_⟩
    · rw [Side.other_other] at heq
      rw [h.focus.up.downOther.down.nil_iff.mp heq] at hcu
      exact absurd hcu (by simp [Shape.rootColor])
    · rw [hq]
      exact deleteLast_safe hdel (by simp)

/-- From the loop's invariant every round is safe. The bound is the one of the
loop itself: it shrinks unless the next round finds a red node and stops. -/
theorem deleteFixup_safe (h : Deleting T path t x) (hpos : 0 < fuel)
    (hfuel : t.rootColor = .red ∨ path.length < fuel) : DeleteFixupSafe fuel T x := by
  induction fuel generalizing T path t x with
  | zero => omega
  | succ fuel ih =>
    rintro ⟨hroot, hcolor⟩
    rw [focus_color h.focus h.nil] at hcolor
    cases path with
    | nil => exact absurd h.focus.above.symm hroot
    | cons f path =>
      obtain ⟨s, p, c, far⟩ := f
      have hx : T.parent x = p := h.parent
      have hfar : far ≠ .leaf := by
        obtain ⟨n, -, hfar, -⟩ := h.height
        exact hfar.ne_leaf
      have hside := sibling_side h.focus hfar
      have hlen : path.length < fuel := by
        rcases hfuel with hr | hl
        · exact absurd (hr.symm.trans hcolor) (by decide)
        · simpa using hl
      obtain ⟨T1, w, c', u, v, path', hsib, hdel, hnil1, -, hshort⟩ :=
        deleteFixupSibling_spec h hcolor
      simp only at hside
      simp only [hx, hside]
      refine ⟨deleteSibling_safe h hcolor, ?_⟩
      simp only [hsib, nephews_black hdel]
      split
      · rename_i huv
        have hxp : T1.parent x = p := hdel.parent
        rw [hxp]
        refine ih (deleteFixup_bothBlack hdel hcolor huv) (by omega) ?_
        rw [Shape.rootColor_join]
        rcases hshort with hr | hp
        · exact .inl hr
        · exact .inr (hp ▸ hlen)
      · rename_i huv
        refine ⟨deleteNephew_safe hdel huv, ?_⟩
        obtain ⟨k, rfl⟩ : ∃ k, fuel = k + 1 := ⟨fuel - 1, by omega⟩
        -- the loop goes on at the root, where it ends
        exact fun hstop => absurd rfl hstop.1

end

-- ---------------------------------------------------------------------------
-- Whole runs
-- ---------------------------------------------------------------------------

/-- The links `rbtree_insert` hands to its fixup are safe. -/
def InsertSafe (fuel : Nat) (T : KvsRbtree) (z : Ptr) : Prop :=
  ∀ key y L, T.keyAt z = .ok key →
    insertDescend T key fuel T.links.nil T.links.root = .ok (some y) →
    insertHang T key (T.links.setParent z y) y z = .ok L → InsertFixupSafe fuel (insertLinked L z) z

/-- The links `rbtree_delete` hands to its fixup are safe, and what it takes
out is there. -/
def DeleteSafe (fuel : Nat) (T : KvsRbtree) (z : Ptr) : Prop :=
  ∃ y L x, deleteTarget fuel T.links z = .ok y ∧ y ≠ T.links.nil ∧
    rbtreeUnlink T.links y = (L, x) ∧ (L.color y = .black → DeleteFixupSafe fuel L x)

/-- The fixups of a write made when `n` blocks have been requested: a new node
has a newer address, and only keys that are not found are inserted. -/
structure KvsRbtree.FixupsSafe (T : KvsRbtree) (n : Nat) : Prop where
  insert : ∀ z k v, n < z → rbtreeSearch T k.bytes (n + 2) T.links.root = .ok T.links.nil →
    InsertSafe (n + 2) (T.fill z k v) z
  delete : ∀ z, T.links.Under T.links.root z → DeleteSafe (n + 2) T z

section
variable {inst : KvsRbtree} {n : Nat} {t : Shape Ptr Color}

theorem RbStores.insertSafe (h : RbStores inst n t) (hz : n < z)
    (hsearch : rbtreeSearch inst k.bytes (n + 2) inst.links.root = .ok inst.links.nil)
    (v : CString) : InsertSafe (n + 2) (inst.fill z k v) z := by
  intro key y L hkey hdescend hhang
  obtain ⟨hfilled, hpairs⟩ := h.fill hz k v
  have hkz : key = k.bytes := by
    simpa [KvsRbtree.keyAt, KvsRbtree.fill, eq_comm] using hkey
  subst hkz
  have hlen := h.length_le
  have hnew : z ∉ t.nodes := fun hmem => absurd hz (Nat.not_lt.mpr (h.ptr _ hmem).2)
  have hnil : z ≠ inst.links.nil := fun heq => absurd hz (Nat.not_lt.mpr (heq ▸ h.nilPtr))
  have hnotMem : k.bytes ∉ mapOf (t.nodes.map inst.pairAt) := by
    obtain ⟨_, q, _, _, _, -, -, -, hq, hfound, -⟩ | ⟨-, hnot⟩ :=
      h.found k.bytes (show n < n + 2 by omega)
    · rw [hsearch] at hfound
      exact absurd (Except.ok.inj hfound).symm hq
    · exact hnot
  obtain ⟨path, q, c, a, b, -, rfl, hkq, -⟩ | ⟨path, hf, rfl, hb, -, hdesc⟩ :=
    hfilled.search k.bytes (show t.nodes.length < n + 2 by omega)
  · refine absurd (mem_mapOf.mpr ⟨((inst.fill z k v).pairAt q).2, ?_⟩) hnotMem
    rw [← hpairs, ← hkq, Path.nodes_plug]
    exact List.mem_map.mpr ⟨q, by simp [Shape.nodes], rfl⟩
  · rw [hdesc] at hdescend
    obtain rfl := Option.some.inj (Except.ok.inj hdescend)
    obtain ⟨L', hhang', hins, -, hlen'⟩ :=
      hfilled.hang hf hb hnew hnil (show n < n + 2 by omega)
    rw [hhang'] at hhang
    obtain rfl := Except.ok.inj hhang
    exact insertFixup_safe hins hlen'

theorem RbStores.removeSafe {path : Path Ptr Color} (h : RbStores inst n t)
    (hf : inst.links.Focus path (.join s y c b .leaf) y)
    (hplug : Path.plug path (.join s y c b .leaf) = t)
    (htarget : deleteTarget (n + 2) inst.links z = .ok y) : DeleteSafe (n + 2) inst z := by
  subst hplug
  obtain ⟨L, x, hunlink, -, -, -, hcolor⟩ := rbtreeUnlink_spec hf
  refine ⟨y, L, x, htarget, hf.ne_nil, hunlink, fun hblack => ?_⟩
  rw [hcolor, hf.color] at hblack
  subst hblack
  obtain ⟨L', x', hunlink', hdel⟩ := rbtreeUnlink_deleting hf h.balanced h.nilColor
  rw [hunlink] at hunlink'
  obtain ⟨rfl, rfl⟩ := Prod.mk.inj hunlink'
  exact deleteFixup_safe hdel (by omega) (.inr (h.path_length (by omega)))

theorem RbStores.deleteSafe (h : RbStores inst n t) (hz : inst.links.Under inst.links.root z) :
    DeleteSafe (n + 2) inst z := by
  obtain ⟨path, c, l, r, hf, hplug⟩ := h.focus.under hz
  rw [List.append_nil] at hf
  by_cases hr : r = .leaf
  · subst hr
    exact h.removeSafe (s := .left) hf hplug (deleteTarget_single (s := .left) hf _)
  · by_cases hl : l = .leaf
    · subst hl
      exact h.removeSafe (s := .right) hf hplug (deleteTarget_single (s := .right) hf _)
    · have hlen := h.length_le
      rw [← hplug, Path.nodes_plug] at hlen
      simp only [Shape.nodes, List.length_append, List.length_cons] at hlen
      obtain ⟨path', y, cy, r', htarget, hfy, hplug', -⟩ :=
        deleteTarget_double hf hl hr (show r.nodes.length < n + 2 by omega)
      exact h.removeSafe hfy (hplug'.trans hplug) htarget

theorem RbStores.fixupsSafe (h : RbStores inst n t) : inst.FixupsSafe n :=
  ⟨fun _ _ v hz hsearch => h.insertSafe hz hsearch v, fun _ hz => h.deleteSafe hz⟩

end

/-- After every run from the creation on, with any requests for memory failing,
the tree is sound and the fixups of the next write are safe; no run stops, so
no loop passes its bound and no missing key is read. -/
theorem kvsRbtree_sound (writes : List EngineWrite) (rt : Runtime) :
    Triple (rbtreeOps.runCreated writes) rt
      (fun r rt' => ∀ run, r = some run → run.2.Sound ∧ run.2.FixupsSafe rt'.mallocs) Never := by
  have hrun : Triple (rbtreeOps.runCreated writes) rt
      (fun r rt' => ∀ run, r = some run → ∃ m, RbHolds run.2 rt'.mallocs m) Never := by
    refine EngineOps.runCreated_keeps (I := fun inst rt => ∃ m, RbHolds inst rt.mallocs m) ?_ ?_
    · refine (rbtree_lawful.create rt).weaken ?_
      rintro r rt' ⟨-, ⟨-, h⟩ | ⟨hne, -⟩⟩ hr
      · exact ⟨_, h⟩
      · exact absurd hr hne
    · exact fun inst rt h w _ => rbtree_lawful.write_holds h w trivial
  refine hrun.weaken fun r rt' h run hr => ?_
  obtain ⟨m, t, hstores, -⟩ := h run hr
  exact ⟨hstores.sound, hstores.fixupsSafe⟩

end KvStore
