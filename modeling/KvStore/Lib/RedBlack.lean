import KvStore.Lib.LinkedTree

/-!
# Red-black shapes

The color conditions of a red-black tree, said of a shape and, separately, of
the path above a subtree, so that a tree that is being repaired can be
described on both sides of the place where it is not yet right.
-/

namespace Lib

inductive Color
  | red
  | black
  deriving DecidableEq, Repr

def Color.weight : Color → Nat
  | .red => 0
  | .black => 1

section
variable {π : Type}

namespace Shape

def rootColor : Shape π Color → Color
  | .leaf => .black
  | .node _ c _ _ => c

/-- Every path down to a leaf has `n` black nodes. -/
def BlackHeight : Shape π Color → Nat → Prop
  | .leaf, n => n = 0
  | .node _ c l r, n => ∃ m, l.BlackHeight m ∧ r.BlackHeight m ∧ n = m + c.weight

def NoRedRed : Shape π Color → Prop
  | .leaf => True
  | .node _ c l r =>
    l.NoRedRed ∧ r.NoRedRed ∧ (c = .red → l.rootColor = .black ∧ r.rootColor = .black)

structure Balanced (t : Shape π Color) : Prop where
  height : ∃ n, t.BlackHeight n
  colors : t.NoRedRed
  root : t.rootColor = .black

def blacken : Shape π Color → Shape π Color
  | .leaf => .leaf
  | .node p _ l r => .node p .black l r

variable {s : Side} {p : π} {c : Color} {a b t : Shape π Color}

@[simp] theorem rootColor_join : (join s p c a b).rootColor = c := by cases s <;> rfl

theorem blackHeight_join :
    (join s p c a b).BlackHeight n ↔ ∃ m, a.BlackHeight m ∧ b.BlackHeight m ∧ n = m + c.weight := by
  cases s with
  | left => exact Iff.rfl
  | right =>
    simp only [join, BlackHeight]
    exact exists_congr fun m => by tauto

theorem noRedRed_join :
    (join s p c a b).NoRedRed ↔
      a.NoRedRed ∧ b.NoRedRed ∧ (c = .red → a.rootColor = .black ∧ b.rootColor = .black) := by
  cases s with
  | left => exact Iff.rfl
  | right =>
    simp only [join, NoRedRed]
    tauto

theorem blacken_join : (join s p c a b).blacken = join s p .black a b := by cases s <;> rfl

@[simp] theorem nodes_blacken (t : Shape π Color) : t.blacken.nodes = t.nodes := by cases t <;> rfl

theorem balanced_blacken (h : t.BlackHeight n) (hc : t.NoRedRed) : t.blacken.Balanced := by
  cases t with
  | leaf => exact ⟨⟨n, h⟩, hc, rfl⟩
  | node p c l r =>
    obtain ⟨m, hl, hr, -⟩ := h
    exact ⟨⟨m + 1, m, hl, hr, rfl⟩, ⟨hc.1, hc.2.1, by simp⟩, rfl⟩

theorem blacken_of_black (h : t.rootColor = .black) : t.blacken = t := by
  cases t with
  | leaf => rfl
  | node p c l r =>
    simp only [rootColor] at h
    simp [blacken, h]

theorem BlackHeight.ne_leaf (h : t.BlackHeight (n + 1)) : t ≠ .leaf := by
  rintro rfl
  simp [BlackHeight] at h

theorem nodes_join_congr {a' b' : Shape π Color} (ha : a'.nodes = a.nodes) (hb : b'.nodes = b.nodes)
    (c' : Color) : (join s p c' a' b').nodes = (join s p c a b).nodes := by
  cases s <;> simp [join, nodes, ha, hb]

theorem nodes_rotate (s : Side) (x y : π) (cx cy cx' cy' : Color) (a b d : Shape π Color) :
    (join s y cy' (join s x cx' a b) d).nodes = (join s x cx a (join s y cy b d)).nodes := by
  cases s <;> simp [join, nodes]

end Shape

namespace Path

def topColor : Path π Color → Color
  | [] => .red
  | f :: _ => f.color

/-- The path fits a subtree of black height `n`. -/
def Height : Path π Color → Nat → Prop
  | [], _ => True
  | f :: path, n => f.far.BlackHeight n ∧ Height path (n + f.color.weight)

def Colors : Path π Color → Prop
  | [] => True
  | f :: path =>
    f.far.NoRedRed ∧ Colors path ∧
      (f.color = .red → f.far.rootColor = .black ∧ topColor path = .black)

theorem nodes_plug_congr {path : Path π Color} {t t' : Shape π Color} (h : t'.nodes = t.nodes) :
    (plug path t').nodes = (plug path t).nodes := by
  rw [nodes_plug, nodes_plug, h]

theorem blackHeight_plug {path : Path π Color} {t : Shape π Color} :
    (∃ m, (plug path t).BlackHeight m) ↔ ∃ n, t.BlackHeight n ∧ Height path n := by
  induction path generalizing t with
  | nil => simp [plug, Height]
  | cons f path ih =>
    rw [plug, ih]
    constructor
    · rintro ⟨n, hn, hpath⟩
      obtain ⟨m, ht, hfar, rfl⟩ := Shape.blackHeight_join.mp hn
      exact ⟨m, ht, hfar, hpath⟩
    · rintro ⟨n, ht, hfar, hpath⟩
      exact ⟨_, Shape.blackHeight_join.mpr ⟨n, ht, hfar, rfl⟩, hpath⟩

theorem colors_plug {path : Path π Color} {t : Shape π Color} :
    ((plug path t).NoRedRed ∧ (plug path t).rootColor = .black) ↔
      t.NoRedRed ∧ Colors path ∧ (t.rootColor = .red → topColor path = .black) := by
  induction path generalizing t with
  | nil =>
    simp only [plug, Colors, topColor, reduceCtorEq, imp_false, true_and]
    cases t.rootColor <;> simp
  | cons f path ih =>
    rw [plug, ih, Shape.noRedRed_join, Shape.rootColor_join]
    simp only [Colors, topColor]
    cases f.color <;> cases t.rootColor <;> simp <;> tauto

theorem balanced_plug {path : Path π Color} {t : Shape π Color} :
    (plug path t).Balanced ↔
      (∃ n, t.BlackHeight n ∧ Height path n) ∧ t.NoRedRed ∧ Colors path ∧
        (t.rootColor = .red → topColor path = .black) := by
  rw [← blackHeight_plug, ← colors_plug]
  exact ⟨fun h => ⟨h.height, h.colors, h.root⟩, fun h => ⟨h.1, h.2.1, h.2.2⟩⟩

end Path

/-- Every way down from a subtree of black height `n` meets `n` black nodes. -/
theorem Links.Descent.blacks {h : Links π Color} {path : Path π Color} {t : Shape π Color}
    (hl : h.Descent p l) (hf : h.Focus path t p) (hn : t.BlackHeight n) :
    l.countP (fun q => h.color q = .black) = n := by
  induction hl generalizing path t n with
  | stop =>
    have ht := hf.nil_iff.mp rfl
    subst ht
    exact hn.symm
  | step s hne _ ih =>
    rcases t.exists_join s with rfl | ⟨q, c, a, b, rfl⟩
    · exact absurd hf.below hne
    · obtain ⟨m, ha, -, rfl⟩ := Shape.blackHeight_join.mp hn
      have hq := hf.ptr
      subst hq
      have hc := hf.color
      rw [List.countP_cons, ih hf.down ha, hc]
      cases c <;> rfl

end

end Lib
