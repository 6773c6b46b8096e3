import Mathlib.Data.List.Nodup
import Mathlib.Data.List.Perm.Basic

/-!
# Binary trees linked by child and parent pointers

`Links` is a heap of tree nodes with a sentinel `nil`; a node has a color, two
children and a parent. `Focus h path t p` says that the heap holds one tree,
seen from the pointer `p`: below `p` the subtree `t`, and above it the path of
frames back to the root. A program that walks the tree moves the focus, and a
program that edits it edits at the focus, so that the rest of the heap is dealt
with once, in the lemmas below. The two sides are treated alike: `Shape.join s`
builds a node from its child on side `s` and its other child.
-/

namespace Lib

inductive Side
  | left
  | right
  deriving DecidableEq, Repr

def Side.other : Side → Side
  | .left => .right
  | .right => .left

@[simp] theorem Side.other_other (s : Side) : s.other.other = s := by cases s <;> rfl
@[simp] theorem Side.other_ne (s : Side) : s.other ≠ s := by cases s <;> decide
@[simp] theorem Side.ne_other (s : Side) : s ≠ s.other := by cases s <;> decide

theorem Side.eq_or_eq_other (s t : Side) : t = s ∨ t = s.other := by
  cases s <;> cases t <;> simp [Side.other]

inductive Shape (π κ : Type)
  | leaf
  | node (p : π) (c : κ) (l r : Shape π κ)

structure Links (π κ : Type) where
  root : π
  nil : π
  color : π → κ
  child : Side → π → π
  parent : π → π

structure Frame (π κ : Type) where
  side : Side
  ptr : π
  color : κ
  far : Shape π κ

abbrev Path (π κ : Type) := List (Frame π κ)

section
variable {π κ : Type}

namespace Shape

def join (s : Side) (p : π) (c : κ) (near far : Shape π κ) : Shape π κ :=
  match s with
  | .left => .node p c near far
  | .right => .node p c far near

def nodes : Shape π κ → List π
  | .leaf => []
  | .node p _ l r => l.nodes ++ p :: r.nodes

theorem join_other (s : Side) (p : π) (c : κ) (a b : Shape π κ) : join s.other p c a b = join s p c b a := by
  cases s <;> rfl

theorem nodes_join_perm (s : Side) (p : π) (c : κ) (a b : Shape π κ) :
    (join s p c a b).nodes.Perm (p :: (a.nodes ++ b.nodes)) := by
  cases s with
  | left => exact List.perm_middle
  | right =>
    refine List.perm_middle.trans (List.Perm.cons _ ?_)
    exact List.perm_append_comm

@[simp] theorem mem_nodes_join {s : Side} {p q : π} {c : κ} {a b : Shape π κ} :
    q ∈ (join s p c a b).nodes ↔ q = p ∨ q ∈ a.nodes ∨ q ∈ b.nodes := by
  rw [(nodes_join_perm s p c a b).mem_iff]
  simp

theorem exists_join (s : Side) : ∀ t : Shape π κ, t = .leaf ∨ ∃ p c a b, t = join s p c a b
  | .leaf => .inl rfl
  | .node p c l r => match s with
    | .left => .inr ⟨p, c, l, r, rfl⟩
    | .right => .inr ⟨p, c, r, l, rfl⟩

theorem nodes_eq_nil {t : Shape π κ} : t.nodes = [] ↔ t = .leaf := by
  cases t <;> simp [nodes]

end Shape

namespace Path

def plug : Path π κ → Shape π κ → Shape π κ
  | [], t => t
  | f :: path, t => plug path (.join f.side f.ptr f.color t f.far)

theorem plug_eq_leaf {path : Path π κ} {t : Shape π κ} (h : plug path t = .leaf) :
    path = [] ∧ t = .leaf := by
  induction path generalizing t with
  | nil => exact ⟨rfl, h⟩
  | cons f path ih =>
    have := (ih h).2
    obtain ⟨s, p, c, far⟩ := f
    cases s <;> cases this

def nodes : Path π κ → List π
  | [] => []
  | f :: path => f.ptr :: (f.far.nodes ++ nodes path)

def before : Path π κ → List π
  | [] => []
  | f :: path => match f.side with
    | .left => before path
    | .right => before path ++ (f.far.nodes ++ [f.ptr])

def behind : Path π κ → List π
  | [] => []
  | f :: path => match f.side with
    | .left => f.ptr :: f.far.nodes ++ behind path
    | .right => behind path

theorem nodes_plug (path : Path π κ) (t : Shape π κ) :
    (plug path t).nodes = before path ++ t.nodes ++ behind path := by
  induction path generalizing t with
  | nil => simp [plug, before, behind]
  | cons f path ih =>
    rw [plug, ih]
    cases hs : f.side <;> simp [Shape.join, Shape.nodes, before, behind, hs]

theorem before_behind_perm (path : Path π κ) : (before path ++ behind path).Perm (nodes path) := by
  induction path with
  | nil => exact List.Perm.refl _
  | cons f path ih =>
    cases hs : f.side with
    | left =>
      simp only [before, behind, nodes, hs, List.cons_append]
      refine List.perm_middle.trans (List.Perm.cons _ ?_)
      rw [← List.append_assoc]
      refine (List.Perm.append_right _ List.perm_append_comm).trans ?_
      rw [List.append_assoc]
      exact List.Perm.append_left _ ih
    | right =>
      simp only [before, behind, nodes, hs, List.append_assoc, List.cons_append, List.nil_append]
      rw [← List.append_assoc]
      refine List.perm_middle.trans (List.Perm.cons _ ?_)
      refine (List.Perm.append_right _ List.perm_append_comm).trans ?_
      rw [List.append_assoc]
      exact List.Perm.append_left _ ih

theorem length_le_nodes (path : Path π κ) : path.length ≤ (nodes path).length := by
  induction path with
  | nil => exact Nat.le_refl _
  | cons f path ih =>
    simp only [nodes, List.length_cons, List.length_append]
    omega

theorem head_mem_nodes {path : Path π κ} : ∀ f ∈ path.head?, f.ptr ∈ nodes path := by
  cases path with
  | nil => simp
  | cons g path => simp [nodes]

def top (nil : π) : Path π κ → π
  | [] => nil
  | f :: _ => f.ptr

end Path

namespace Links

/-- The subtree `t` hangs at `p`, below the node `par`. -/
def Rep (h : Links π κ) : Shape π κ → π → π → Prop
  | .leaf, p, _ => p = h.nil
  | .node q c l r, p, par =>
    p = q ∧ q ≠ h.nil ∧ h.color q = c ∧ h.parent q = par ∧
      h.Rep l (h.child .left q) q ∧ h.Rep r (h.child .right q) q

/-- The path leads from the root down to the pointer `p`. -/
def RepPath (h : Links π κ) : Path π κ → π → Prop
  | [], p => h.root = p
  | f :: path, p =>
    f.ptr ≠ h.nil ∧ h.color f.ptr = f.color ∧ h.parent f.ptr = Path.top h.nil path ∧
      h.child f.side f.ptr = p ∧ h.Rep f.far (h.child f.side.other f.ptr) f.ptr ∧
      h.RepPath path f.ptr

structure Focus (h : Links π κ) (path : Path π κ) (t : Shape π κ) (p : π) : Prop where
  above : h.RepPath path p
  below : h.Rep t p (Path.top h.nil path)
  nodup : (t.nodes ++ Path.nodes path).Nodup

theorem rep_join {h : Links π κ} {s : Side} {q p par : π} {c : κ} {a b : Shape π κ} :
    h.Rep (.join s q c a b) p par ↔
      p = q ∧ q ≠ h.nil ∧ h.color q = c ∧ h.parent q = par ∧
        h.Rep a (h.child s q) q ∧ h.Rep b (h.child s.other q) q := by
  cases s with
  | left => exact Iff.rfl
  | right =>
    simp only [Shape.join, Rep, Side.other]
    tauto

theorem Rep.mem {h : Links π κ} {t : Shape π κ} (hrep : h.Rep t p par) (hp : p ≠ h.nil) :
    p ∈ t.nodes := by
  cases t with
  | leaf => exact absurd hrep hp
  | node q c l r =>
    obtain ⟨rfl, -⟩ := hrep
    simp [Shape.nodes]

theorem Rep.ne_nil {h : Links π κ} {t : Shape π κ} (hrep : h.Rep t p par) :
    ∀ q ∈ t.nodes, q ≠ h.nil := by
  induction t generalizing p par with
  | leaf => simp [Shape.nodes]
  | node q c l r ihl ihr =>
    obtain ⟨-, hq, -, -, hl, hr⟩ := hrep
    simp only [Shape.nodes, List.mem_append, List.mem_cons]
    rintro x (hx | rfl | hx)
    · exact ihl hl x hx
    · exact hq
    · exact ihr hr x hx

/-- A subtree whose nodes are untouched may be hung elsewhere: only the parent
of its root changes. -/
theorem Rep.move {h h' : Links π κ} {t : Shape π κ} (hrep : h.Rep t p par)
    (hnodup : t.nodes.Nodup) (hnil : h'.nil = h.nil)
    (hcolor : ∀ q ∈ t.nodes, h'.color q = h.color q)
    (hchild : ∀ q ∈ t.nodes, ∀ s, h'.child s q = h.child s q)
    (hparent : ∀ q ∈ t.nodes, q ≠ p → h'.parent q = h.parent q)
    (hroot : p ≠ h.nil → h'.parent p = par') : h'.Rep t p par' := by
  induction t generalizing p par par' with
  | leaf =>
    rw [Rep] at hrep ⊢
    rw [hnil, hrep]
  | node q c l r ihl ihr =>
    obtain ⟨rfl, hq, hc, -, hl, hr⟩ := hrep
    simp only [Shape.nodes, List.mem_append, List.mem_cons] at hcolor hchild hparent
    simp only [Shape.nodes, List.nodup_append, List.nodup_cons, List.mem_cons] at hnodup
    obtain ⟨hnl, ⟨hpr, hnr⟩, hlr⟩ := hnodup
    have hpl : p ∉ l.nodes := fun hp => hlr p hp p (.inl rfl) rfl
    have hleft : h'.Rep l (h.child .left p) p := by
      refine ihl hl hnl (fun x hx => hcolor x (.inl hx)) (fun x hx => hchild x (.inl hx)) ?_ ?_
      · intro x hx _
        exact hparent x (.inl hx) fun hxp => hpl (hxp ▸ hx)
      · intro hne
        have hmem := hl.mem hne
        rw [hparent _ (.inl hmem) fun hxp => hpl (hxp ▸ hmem)]
        cases l with
        | leaf => exact absurd hl hne
        | node y d a b => exact hl.1 ▸ hl.2.2.2.1
    have hright : h'.Rep r (h.child .right p) p := by
      refine ihr hr hnr (fun x hx => hcolor x (.inr (.inr hx)))
        (fun x hx => hchild x (.inr (.inr hx))) ?_ ?_
      · intro x hx _
        exact hparent x (.inr (.inr hx)) fun hxp => hpr (hxp ▸ hx)
      · intro hne
        have hmem := hr.mem hne
        rw [hparent _ (.inr (.inr hmem)) fun hxp => hpr (hxp ▸ hmem)]
        cases r with
        | leaf => exact absurd hr hne
        | node y d a b => exact hr.1 ▸ hr.2.2.2.1
    refine ⟨rfl, hnil ▸ hq, ?_, hroot hq, ?_, ?_⟩
    · rw [hcolor p (.inr (.inl rfl)), hc]
    · rw [hchild p (.inr (.inl rfl))]
      exact hleft
    · rw [hchild p (.inr (.inl rfl))]
      exact hright

theorem Rep.congr {h h' : Links π κ} {t : Shape π κ} (hrep : h.Rep t p par)
    (hnodup : t.nodes.Nodup) (hnil : h'.nil = h.nil)
    (hcolor : ∀ q ∈ t.nodes, h'.color q = h.color q)
    (hchild : ∀ q ∈ t.nodes, ∀ s, h'.child s q = h.child s q)
    (hparent : ∀ q ∈ t.nodes, h'.parent q = h.parent q) : h'.Rep t p par := by
  refine hrep.move hnodup hnil hcolor hchild (fun q hq _ => hparent q hq) fun hne => ?_
  rw [hparent p (hrep.mem hne)]
  cases t with
  | leaf => exact absurd hrep hne
  | node q c l r => exact hrep.1 ▸ hrep.2.2.2.1

theorem RepPath.congr {h h' : Links π κ} {path : Path π κ} (hrep : h.RepPath path p)
    (hnodup : (Path.nodes path).Nodup) (hnil : h'.nil = h.nil) (hroot : h'.root = h.root)
    (hcolor : ∀ q ∈ Path.nodes path, h'.color q = h.color q)
    (hchild : ∀ q ∈ Path.nodes path, ∀ s, h'.child s q = h.child s q)
    (hparent : ∀ q ∈ Path.nodes path, h'.parent q = h.parent q) : h'.RepPath path p := by
  induction path generalizing p with
  | nil =>
    rw [RepPath] at hrep ⊢
    rw [hroot, hrep]
  | cons f path ih =>
    obtain ⟨hne, hc, hpar, hp, hfar, habove⟩ := hrep
    simp only [Path.nodes, List.mem_cons, List.mem_append] at hcolor hchild hparent
    simp only [Path.nodes, List.nodup_cons, List.nodup_append] at hnodup
    obtain ⟨-, hnfar, hnpath, -⟩ := hnodup
    refine ⟨hnil ▸ hne, ?_, ?_, ?_, ?_, ?_⟩
    · rw [hcolor _ (.inl rfl), hc]
    · rw [hparent _ (.inl rfl), hpar, hnil]
    · rw [hchild _ (.inl rfl), hp]
    · rw [hchild _ (.inl rfl)]
      exact hfar.congr hnfar hnil (fun q hq => hcolor q (.inr (.inl hq)))
        (fun q hq => hchild q (.inr (.inl hq))) fun q hq => hparent q (.inr (.inl hq))
    · exact ih habove hnpath (fun q hq => hcolor q (.inr (.inr hq)))
        (fun q hq => hchild q (.inr (.inr hq))) fun q hq => hparent q (.inr (.inr hq))

def hole (h : Links π κ) : Path π κ → π
  | [] => h.root
  | f :: _ => h.child f.side f.ptr

theorem RepPath.refill {h h' : Links π κ} {path : Path π κ} (hrep : h.RepPath path p)
    (hnodup : (Path.nodes path).Nodup) (hnil : h'.nil = h.nil) (hroot : path ≠ [] → h'.root = h.root)
    (hcolor : ∀ q ∈ Path.nodes path, h'.color q = h.color q)
    (hchild : ∀ q ∈ Path.nodes path, ∀ s, (∀ f ∈ path.head?, q ≠ f.ptr ∨ s ≠ f.side) →
      h'.child s q = h.child s q)
    (hparent : ∀ q ∈ Path.nodes path, h'.parent q = h.parent q) :
    h'.RepPath path (h'.hole path) := by
  cases path with
  | nil => exact rfl
  | cons f path =>
    obtain ⟨hne, hc, hpar, -, hfar, habove⟩ := hrep
    simp only [Path.nodes, List.mem_cons, List.mem_append, List.head?_cons, Option.mem_def,
      Option.some.injEq, forall_eq'] at hcolor hchild hparent
    simp only [Path.nodes, List.nodup_cons, List.nodup_append, List.mem_append, not_or] at hnodup
    obtain ⟨⟨hffar, hfpath⟩, hnfar, hnpath, -⟩ := hnodup
    refine ⟨hnil ▸ hne, ?_, ?_, rfl, ?_, ?_⟩
    · rw [hcolor _ (.inl rfl), hc]
    · rw [hparent _ (.inl rfl), hpar, hnil]
    · rw [hchild _ (.inl rfl) _ (.inr (Side.other_ne _))]
      refine hfar.congr hnfar hnil (fun q hq => hcolor q (.inr (.inl hq))) ?_
        fun q hq => hparent q (.inr (.inl hq))
      exact fun q hq s => hchild q (.inr (.inl hq)) s (.inl fun h => hffar (h ▸ hq))
    · refine habove.congr hnpath hnil (hroot (by simp)) (fun q hq => hcolor q (.inr (.inr hq))) ?_
        fun q hq => hparent q (.inr (.inr hq))
      exact fun q hq s => hchild q (.inr (.inr hq)) s (.inl fun h => hfpath (h ▸ hq))

-- ---------------------------------------------------------------------------
-- Moving the focus
-- ---------------------------------------------------------------------------

namespace Focus

variable {h : Links π κ} {path : Path π κ} {t a b : Shape π κ} {p q : π} {c : κ} {s : Side}

theorem disjoint (hf : h.Focus path t p) : ∀ q ∈ t.nodes, q ∉ Path.nodes path := by
  intro q hq hq'
  exact (List.nodup_append.mp hf.nodup).2.2 q hq q hq' rfl

theorem nodup_below (hf : h.Focus path t p) : t.nodes.Nodup := (List.nodup_append.mp hf.nodup).1

theorem nodup_above (hf : h.Focus path t p) : (Path.nodes path).Nodup :=
  (List.nodup_append.mp hf.nodup).2.1

theorem down (hf : h.Focus path (.join s q c a b) p) :
    h.Focus (⟨s, q, c, b⟩ :: path) a (h.child s q) := by
  obtain ⟨rfl, hne, hc, hpar, ha, hb⟩ := rep_join.mp hf.below
  refine ⟨⟨hne, hc, hpar, rfl, hb, hf.above⟩, ha, ?_⟩
  refine (List.Perm.nodup_iff ?_).mp hf.nodup
  refine (List.Perm.append_right _ (Shape.nodes_join_perm _ _ _ _ _)).trans ?_
  simp only [Path.nodes, List.cons_append, List.append_assoc]
  exact List.perm_middle.symm

theorem up (hf : h.Focus (⟨s, q, c, b⟩ :: path) a p) : h.Focus path (.join s q c a b) q := by
  obtain ⟨hne, hc, hpar, hp, hfar, habove⟩ := hf.above
  refine ⟨habove, rep_join.mpr ⟨rfl, hne, hc, hpar, ?_, hfar⟩, ?_⟩
  · rw [hp]
    exact hf.below
  · refine (List.Perm.nodup_iff ?_).mp hf.nodup
    refine List.Perm.trans ?_
      (List.Perm.append_right _ (Shape.nodes_join_perm _ _ _ _ _)).symm
    simp only [Path.nodes, List.cons_append, List.append_assoc]
    exact List.perm_middle

theorem downOther (hf : h.Focus path (.join s q c a b) p) :
    h.Focus (⟨s.other, q, c, a⟩ :: path) b (h.child s.other q) := by
  rw [← Shape.join_other] at hf
  exact hf.down

theorem upOther (hf : h.Focus (⟨s.other, q, c, a⟩ :: path) b p) :
    h.Focus path (.join s q c a b) q := by
  rw [← Shape.join_other]
  exact hf.up

theorem ptr (hf : h.Focus path (.join s q c a b) p) : p = q := (rep_join.mp hf.below).1

theorem ne_nil (hf : h.Focus path (.join s q c a b) p) : q ≠ h.nil := (rep_join.mp hf.below).2.1

theorem color (hf : h.Focus path (.join s q c a b) p) : h.color q = c := (rep_join.mp hf.below).2.2.1

theorem parent (hf : h.Focus path (.join s q c a b) p) : h.parent q = Path.top h.nil path :=
  (rep_join.mp hf.below).2.2.2.1

theorem child_above (hf : h.Focus (⟨s, q, c, b⟩ :: path) a p) : h.child s q = p := hf.above.2.2.2.1

theorem nil_iff (hf : h.Focus path t p) : p = h.nil ↔ t = .leaf := by
  cases t with
  | leaf =>
    simp only [iff_true]
    exact hf.below
  | node q c l r =>
    have hne := hf.below.2.1
    rw [hf.below.1]
    simp [hne]

theorem whole (hf : h.Focus path t p) : h.Focus [] (Path.plug path t) h.root := by
  induction path generalizing t p with
  | nil =>
    have hroot : h.root = p := hf.above
    rw [hroot]
    exact hf
  | cons f path ih => exact ih hf.up

theorem child_ne (hf : h.Focus path (.join s q c a b) p) (hb : b ≠ .leaf) :
    h.child s q ≠ h.child s.other q := by
  intro heq
  have hb' : h.child s.other q ≠ h.nil := fun h' => hb (hf.downOther.nil_iff.mp h')
  have hmem := hf.downOther.below.mem hb'
  have hmem' := hf.down.below.mem (heq ▸ hb')
  have hdis := hf.down.disjoint _ hmem'
  exact hdis (by simp [Path.nodes, heq, hmem])

end Focus

-- ---------------------------------------------------------------------------
-- Walking down by pointers alone
-- ---------------------------------------------------------------------------

/-- The nodes that can be reached from `p` by going down. -/
inductive Under (h : Links π κ) (p : π) : π → Prop
  | self : p ≠ h.nil → Under h p p
  | child (s : Side) : Under h p q → h.child s q ≠ h.nil → Under h p (h.child s q)

inductive Descent (h : Links π κ) : π → List π → Prop
  | stop : Descent h h.nil []
  | step (s : Side) : p ≠ h.nil → Descent h (h.child s p) l → Descent h p (p :: l)

theorem Focus.under {h : Links π κ} {path : Path π κ} {t : Shape π κ} (hf : h.Focus path t p)
    (hq : h.Under p q) :
    ∃ ext c a b, h.Focus (ext ++ path) (.node q c a b) q ∧ Path.plug ext (.node q c a b) = t := by
  induction hq with
  | self hne =>
    cases t with
    | leaf => exact absurd hf.below hne
    | node q c a b =>
      obtain ⟨rfl, -⟩ := hf.below
      exact ⟨[], c, a, b, hf, rfl⟩
  | child s _ hne ih =>
    obtain ⟨ext, c, a, b, hq, hplug⟩ := ih
    cases s with
    | left =>
      have hdown := Focus.down (s := .left) hq
      cases a with
      | leaf => exact absurd hdown.below hne
      | node r d a₁ a₂ =>
        have hr := hdown.below.1
        subst hr
        exact ⟨⟨.left, _, c, b⟩ :: ext, d, a₁, a₂, hdown, hplug⟩
    | right =>
      have hdown := Focus.down (s := .right) hq
      cases b with
      | leaf => exact absurd hdown.below hne
      | node r d b₁ b₂ =>
        have hr := hdown.below.1
        subst hr
        exact ⟨⟨.right, _, c, a⟩ :: ext, d, b₁, b₂, hdown, hplug⟩

theorem Focus.under_mem {h : Links π κ} {path : Path π κ} {t : Shape π κ} (hf : h.Focus path t p)
    (hq : h.Under p q) : q ∈ t.nodes := by
  obtain ⟨ext, c, a, b, -, rfl⟩ := hf.under hq
  rw [Path.nodes_plug]
  simp [Shape.nodes]

-- ---------------------------------------------------------------------------
-- Writing a color
-- ---------------------------------------------------------------------------

section
variable [DecidableEq π]

def setColor (h : Links π κ) (p : π) (c : κ) : Links π κ :=
  { h with color := fun q => if q = p then c else h.color q }

def setChild (h : Links π κ) (s : Side) (p v : π) : Links π κ :=
  { h with child := fun t q => if t = s ∧ q = p then v else h.child t q }

def setParent (h : Links π κ) (p v : π) : Links π κ :=
  { h with parent := fun q => if q = p then v else h.parent q }

def setHole (h : Links π κ) (path : Path π κ) (v : π) : Links π κ :=
  match path with
  | [] => { h with root := v }
  | f :: _ => h.setChild f.side f.ptr v

section
variable {h : Links π κ} {p v q : π} {c : κ} {s t : Side} {path : Path π κ}

@[simp] theorem setColor_root : (h.setColor p c).root = h.root := rfl
@[simp] theorem setColor_nil : (h.setColor p c).nil = h.nil := rfl
@[simp] theorem setColor_child : (h.setColor p c).child = h.child := rfl
@[simp] theorem setColor_parent : (h.setColor p c).parent = h.parent := rfl
@[simp] theorem setChild_root : (h.setChild s p v).root = h.root := rfl
@[simp] theorem setChild_nil : (h.setChild s p v).nil = h.nil := rfl
@[simp] theorem setChild_color : (h.setChild s p v).color = h.color := rfl
@[simp] theorem setChild_parent : (h.setChild s p v).parent = h.parent := rfl
@[simp] theorem setParent_root : (h.setParent p v).root = h.root := rfl
@[simp] theorem setParent_nil : (h.setParent p v).nil = h.nil := rfl
@[simp] theorem setParent_color : (h.setParent p v).color = h.color := rfl
@[simp] theorem setParent_child : (h.setParent p v).child = h.child := rfl

theorem setColor_color : (h.setColor p c).color q = if q = p then c else h.color q := rfl
theorem setChild_child :
    (h.setChild s p v).child t q = if t = s ∧ q = p then v else h.child t q := rfl
theorem setParent_parent : (h.setParent p v).parent q = if q = p then v else h.parent q := rfl

@[simp] theorem setHole_nil : (h.setHole path v).nil = h.nil := by cases path <;> rfl
@[simp] theorem setHole_color : (h.setHole path v).color = h.color := by cases path <;> rfl
@[simp] theorem setHole_parent : (h.setHole path v).parent = h.parent := by cases path <;> rfl

theorem setHole_root (hne : path ≠ []) : (h.setHole path v).root = h.root := by
  cases path with
  | nil => exact absurd rfl hne
  | cons f path => rfl

@[simp] theorem hole_setHole : (h.setHole path v).hole path = v := by
  cases path with
  | nil => rfl
  | cons f path => simp [setHole, hole, setChild_child]

theorem setHole_child (hq : ∀ f ∈ path.head?, q ≠ f.ptr ∨ s ≠ f.side) :
    (h.setHole path v).child s q = h.child s q := by
  cases path with
  | nil => rfl
  | cons f path =>
    have hq := hq f rfl
    simp only [setHole, setChild_child]
    rw [if_neg (by tauto)]

end

theorem Focus.setColor {h : Links π κ} {path : Path π κ} {a b : Shape π κ}
    (hf : h.Focus path (.join s q c a b) p) (c' : κ) :
    (h.setColor q c').Focus path (.join s q c' a b) p := by
  obtain ⟨rfl, hne, hc, hpar, ha, hb⟩ := rep_join.mp hf.below
  have hdis := hf.disjoint
  have hnodup := (Shape.nodes_join_perm _ _ _ _ _).nodup_iff.mp hf.nodup_below
  simp only [List.nodup_cons, List.mem_append, not_or, List.nodup_append] at hnodup
  obtain ⟨⟨hpa, hpb⟩, hna, hnb, -⟩ := hnodup
  have hcolor : ∀ q, q ≠ p → (h.setColor p c').color q = h.color q := fun q hq => if_neg hq
  refine ⟨?_, rep_join.mpr ⟨rfl, hne, if_pos rfl, hpar, ?_, ?_⟩, ?_⟩
  · refine hf.above.congr hf.nodup_above rfl rfl ?_ (fun _ _ _ => rfl) fun _ _ => rfl
    exact fun q hq => hcolor q fun heq => hdis p (by simp) (heq ▸ hq)
  · refine ha.congr hna rfl ?_ (fun _ _ _ => rfl) fun _ _ => rfl
    exact fun q hq => hcolor q fun heq => hpa (heq ▸ hq)
  · refine hb.congr hnb rfl ?_ (fun _ _ _ => rfl) fun _ _ => rfl
    exact fun q hq => hcolor q fun heq => hpb (heq ▸ hq)
  · refine (List.Perm.nodup_iff (List.Perm.append_right _ ?_)).mp hf.nodup
    exact (Shape.nodes_join_perm _ _ _ _ _).trans (Shape.nodes_join_perm _ _ _ _ _).symm

theorem Focus.link {h : Links π κ} {path : Path π κ} (hf : h.Focus path .leaf p) (hz : z ≠ h.nil)
    (hnew : z ∉ Path.nodes path) (c : κ) :
    (((((h.setParent z (Path.top h.nil path)).setHole path z).setChild .left z h.nil).setChild
      .right z h.nil).setColor z c).Focus path (.node z c .leaf .leaf) z := by
  have hother : ∀ q ∈ Path.nodes path, q ≠ z := fun q hq heq => hnew (heq ▸ hq)
  generalize hT' : Links.setColor _ z c = h'
  have hnil : h'.nil = h.nil := by rw [← hT']; simp
  have hchild : ∀ q, q ≠ z → ∀ s, (∀ f ∈ path.head?, q ≠ f.ptr ∨ s ≠ f.side) →
      h'.child s q = h.child s q := by
    intro q hq s hs
    rw [← hT', setColor_child, setChild_child, if_neg (by tauto), setChild_child,
      if_neg (by tauto), setHole_child hs, setParent_child]
  have hhole : h'.hole path = z := by
    rw [← hT']
    cases path with
    | nil => rfl
    | cons f path =>
      have hfz := hother f.ptr (by simp [Path.nodes])
      simp [hole, setChild_child, setHole, hfz]
  refine ⟨?_, ⟨rfl, hnil ▸ hz, ?_, ?_, ?_, ?_⟩, ?_⟩
  · rw [← hhole]
    refine hf.above.refill hf.nodup_above hnil ?_ ?_ ?_ ?_
    · intro hne
      rw [← hT', setColor_root, setChild_root, setChild_root, setHole_root hne, setParent_root]
    · intro q hq
      rw [← hT', setColor_color, if_neg (hother q hq)]
      simp
    · intro q hq s hs
      exact hchild q (hother q hq) s hs
    · intro q hq
      rw [← hT', setColor_parent, setChild_parent, setChild_parent, setHole_parent,
        setParent_parent, if_neg (hother q hq)]
  · rw [← hT', setColor_color, if_pos rfl]
  · rw [hnil, ← hT', setColor_parent, setChild_parent, setChild_parent, setHole_parent,
      setParent_parent, if_pos rfl]
  · rw [Rep, hnil, ← hT', setColor_child, setChild_child, if_neg (by simp), setChild_child,
      if_pos ⟨rfl, rfl⟩]
  · rw [Rep, hnil, ← hT', setColor_child, setChild_child, if_pos ⟨rfl, rfl⟩]
  · simpa [Shape.nodes, hnew] using hf.nodup_above

end

end Links

end

end Lib
