import KvStore.Engines.SkipList

/-!
# The skip list holds a finite map

`SkStores inst n L`: level 0 is the list `L` of all nodes in ascending order of
keys, and level `i` the part of `L` whose nodes have more than `i` forward
pointers. A search splits `L` at the key; on each level it ends at the last
node of the first part.
-/

namespace KvStore

open Lib

namespace KvsSkiplist

def pairAt (T : KvsSkiplist) (p : Ptr) : Bytes × Bytes := ((T.key p).bytes, (T.value p).bytes)

def height (T : KvsSkiplist) (p : Ptr) : Nat := (T.forward p).length

def next (T : KvsSkiplist) (i : Nat) (p : Ptr) : Option Ptr := ((T.forward p)[i]?).join

def onLevel (T : KvsSkiplist) (i : Nat) (L : List Ptr) : List Ptr := L.filter fun p => i < T.height p

variable {T : KvsSkiplist} {p : Ptr} {i : Nat}

theorem forwardAt_eq (h : i < T.height p) : T.forwardAt p i = .ok (T.next i p) := by
  unfold forwardAt next
  rw [List.getElem?_eq_getElem h]
  rfl

theorem setForward_spec (h : i < T.height p) (v : Option Ptr) :
    ∃ T', T.setForward p i v = .ok T' ∧ T'.header = T.header ∧ T'.level = T.level ∧
      T'.key = T.key ∧ T'.value = T.value ∧ T'.height = T.height ∧
      (∀ j q, T'.next j q = if j = i ∧ q = p then v else T.next j q) := by
  refine ⟨_, if_pos h, rfl, rfl, rfl, rfl, ?_, ?_⟩
  · funext q
    simp only [height]
    split
    · rename_i hq
      simp [hq]
    · rfl
  · intro j q
    simp only [next]
    by_cases hq : q = p
    · subst hq
      by_cases hj : j = i
      · subst hj
        simp only [if_true, and_self, List.getElem?_set_self h, Option.join_some]
      · simp only [if_true, hj, false_and, if_false]
        rw [List.getElem?_set_ne (Ne.symm hj)]
    · simp [hq]

end KvsSkiplist

structure SkStores (inst : KvsSkiplist) (n : Nat) (L : List Ptr) : Prop where
  headerPtr : 1 ≤ inst.header ∧ inst.header ≤ n
  headerHeight : inst.height inst.header = kvsSkiplistMaxLevel + 1
  ptr : ∀ p ∈ L, 1 ≤ p ∧ p ≤ n
  nodup : (inst.header :: L).Nodup
  height : ∀ p ∈ L, 1 ≤ inst.height p ∧ inst.height p ≤ inst.level + 1
  level : inst.level ≤ kvsSkiplistMaxLevel
  top : inst.level = 0 ∨ ∃ p ∈ L, inst.level < inst.height p
  linked : ∀ i ≤ kvsSkiplistMaxLevel, Linked (inst.next i) inst.header (inst.onLevel i L)
  sorted : SortedKeys keyLt (L.map inst.pairAt)

def SkHolds (inst : KvsSkiplist) (n : Nat) (m : Contents) : Prop :=
  ∃ L, SkStores inst n L ∧ mapOf (L.map inst.pairAt) = m

section
variable {inst : KvsSkiplist} {n : Nat} {L A B : List Ptr} {k : Bytes}

theorem SkStores.distinct (h : SkStores inst n L) : DistinctKeys (L.map inst.pairAt) :=
  h.sorted.distinct keyLt_irrefl

theorem SkStores.length_le (h : SkStores inst n L) : L.length ≤ n :=
  length_le_of_nodup (List.nodup_cons.mp h.nodup).2 h.ptr

/-- The list cut at a key: smaller keys before, the others behind. -/
structure Cut (inst : KvsSkiplist) (k : Bytes) (A B : List Ptr) : Prop where
  before : ∀ p ∈ A, keyLt (inst.pairAt p).1 k
  behind : ∀ p ∈ B, ¬keyLt (inst.pairAt p).1 k

theorem exists_cut (hsorted : SortedKeys keyLt (L.map inst.pairAt)) (k : Bytes) :
    ∃ A B, L = A ++ B ∧ Cut inst k A B := by
  induction L with
  | nil => exact ⟨[], [], rfl, by simp, by simp⟩
  | cons p L ih =>
    simp only [SortedKeys, List.map_cons, List.pairwise_cons, List.mem_map] at hsorted
    obtain ⟨hp, hL⟩ := hsorted
    by_cases hlt : keyLt (inst.pairAt p).1 k
    · obtain ⟨A, B, rfl, hcut⟩ := ih hL
      exact ⟨p :: A, B, rfl, by simpa [hlt] using hcut.before, hcut.behind⟩
    · refine ⟨[], p :: L, rfl, by simp, ?_⟩
      intro q hq
      rcases List.mem_cons.mp hq with rfl | hq
      · exact hlt
      · exact fun hqk => hlt (strcmp_trans (hp _ ⟨q, hq, rfl⟩) hqk)

theorem skiplistWalk_spec (hlinked : Linked (inst.next i) p (M ++ B))
    (hheight : ∀ q ∈ p :: M, i < inst.height q) (hM : ∀ q ∈ M, keyLt (inst.pairAt q).1 k)
    (hB : ∀ q ∈ B, ¬keyLt (inst.pairAt q).1 k) (hfuel : M.length < fuel) :
    skiplistWalk inst k i fuel p = .ok (endOf p M) := by
  induction fuel generalizing p M with
  | zero => omega
  | succ fuel ih =>
    have hp := KvsSkiplist.forwardAt_eq (hheight p (by simp))
    cases M with
    | nil =>
      have hnext : inst.next i p = B.head? := hlinked.next_endOf (a := [])
      cases B with
      | nil => simp [skiplistWalk, hp, hnext, bind, Except.bind, endOf]
      | cons q B =>
        have hq : ¬strcmp (inst.key q).bytes k < 0 := hB q (by simp)
        simp [skiplistWalk, hp, hnext, bind, Except.bind, endOf, hq]
    | cons q M =>
      have hnext : inst.next i p = some q := hlinked.1
      have hq : strcmp (inst.key q).bytes k < 0 := hM q (by simp)
      simp only [skiplistWalk, hp, hnext, bind, Except.bind, hq, if_true]
      refine ih hlinked.2 (fun x hx => hheight x (List.mem_cons_of_mem _ hx))
        (fun x hx => hM x (List.mem_cons_of_mem _ hx)) ?_
      simp only [List.length_cons] at hfuel
      omega

def lastBefore (inst : KvsSkiplist) (A : List Ptr) (i : Nat) : Ptr :=
  endOf inst.header (inst.onLevel i A)

theorem mem_onLevel {inst : KvsSkiplist} : p ∈ inst.onLevel i A ↔ p ∈ A ∧ i < inst.height p := by
  simp [KvsSkiplist.onLevel]

theorem lastBefore_mem (inst : KvsSkiplist) (A : List Ptr) (i : Nat) :
    lastBefore inst A i = inst.header ∨ lastBefore inst A i ∈ inst.onLevel i A := by
  obtain ⟨h, -⟩ | h := endOf_mem inst.header (inst.onLevel i A)
  · exact .inl h
  · exact .inr h

theorem walk_level (h : SkStores inst n (A ++ B)) (hcut : Cut inst k A B)
    (hi : i ≤ kvsSkiplistMaxLevel) (hp : p = inst.header ∨ p ∈ inst.onLevel i A)
    (hfuel : n < fuel) : skiplistWalk inst k i fuel p = .ok (lastBefore inst A i) := by
  have hlinked := h.linked i hi
  have hlen := h.length_le
  have hsplit : inst.onLevel i (A ++ B) = inst.onLevel i A ++ inst.onLevel i B := by
    simp [KvsSkiplist.onLevel]
  rw [hsplit] at hlinked
  have hbefore : ∀ q ∈ inst.onLevel i A, keyLt (inst.pairAt q).1 k :=
    fun q hq => hcut.before q (mem_onLevel.mp hq).1
  have hbehind : ∀ q ∈ inst.onLevel i B, ¬keyLt (inst.pairAt q).1 k :=
    fun q hq => hcut.behind q (mem_onLevel.mp hq).1
  have hheader : i < inst.height inst.header := by
    rw [h.headerHeight]
    omega
  have hshort : (inst.onLevel i A).length < fuel := by
    have := List.length_filter_le (fun p => decide (i < inst.height p)) A
    simp only [List.length_append] at hlen
    simp only [KvsSkiplist.onLevel]
    omega
  rcases hp with rfl | hp
  · refine skiplistWalk_spec hlinked ?_ hbefore hbehind hshort
    intro q hq
    rcases List.mem_cons.mp hq with rfl | hq
    · exact hheader
    · exact (mem_onLevel.mp hq).2
  · -- the walk starts inside the level: only the rest of the first part is passed
    obtain ⟨C, D, hCD⟩ := List.append_of_mem hp
    have hmem : ∀ q ∈ p :: D, q ∈ inst.onLevel i A := by
      intro q hq
      rw [hCD]
      exact List.mem_append_right _ hq
    rw [hCD, List.append_assoc] at hlinked
    rw [hCD] at hshort
    simp only [List.length_append, List.length_cons] at hshort
    have hwalk : skiplistWalk inst k i fuel p = .ok (endOf p D) :=
      skiplistWalk_spec hlinked.drop (fun q hq => (mem_onLevel.mp (hmem q hq)).2)
        (fun q hq => hbefore q (hmem q (List.mem_cons_of_mem _ hq))) hbehind (by omega)
    rw [hwalk, lastBefore, hCD, endOf_append]

theorem skiplistDescend_spec (h : SkStores inst n (A ++ B)) (hcut : Cut inst k A B)
    (hi : i ≤ kvsSkiplistMaxLevel) (hp : p = inst.header ∨ p ∈ inst.onLevel i A)
    (hfuel : n < fuel) :
    skiplistDescend inst k fuel i p = .ok ((List.range (i + 1)).map (lastBefore inst A)) := by
  induction i generalizing p with
  | zero =>
    simp only [skiplistDescend, walk_level h hcut hi hp hfuel, bind, Except.bind]
    rfl
  | succ i ih =>
    have hdown : lastBefore inst A (i + 1) = inst.header ∨
        lastBefore inst A (i + 1) ∈ inst.onLevel i A := by
      obtain hl | hl := lastBefore_mem inst A (i + 1)
      · exact .inl hl
      · obtain ⟨hA, hheight⟩ := mem_onLevel.mp hl
        exact .inr (mem_onLevel.mpr ⟨hA, by omega⟩)
    simp only [skiplistDescend, walk_level h hcut hi hp hfuel, bind, Except.bind,
      ih (by omega) hdown]
    rw [List.range_succ (n := i + 1), List.map_append]
    rfl

/-- The whole search. -/
theorem skiplistFind_spec (h : SkStores inst n (A ++ B)) (hcut : Cut inst k A B)
    (hfuel : n < fuel) :
    skiplistFind inst k fuel =
      .ok ((List.range (inst.level + 1)).map (lastBefore inst A), B.head?) := by
  have hlevel : inst.level ≤ kvsSkiplistMaxLevel := h.level
  have hdescend := skiplistDescend_spec h hcut hlevel (.inl rfl) hfuel
  have hfirst : inst.forwardAt (lastBefore inst A 0) 0 = .ok B.head? := by
    have hall : ∀ C, (∀ p ∈ C, p ∈ A ++ B) → inst.onLevel 0 C = C := by
      intro C hC
      rw [KvsSkiplist.onLevel, List.filter_eq_self]
      intro p hp
      have := (h.height p (hC p hp)).1
      simp
      omega
    have hlinked := h.linked 0 (Nat.zero_le _)
    rw [hall _ fun _ hp => hp] at hlinked
    have hA : lastBefore inst A 0 = endOf inst.header A := by
      rw [lastBefore, hall A fun p hp => List.mem_append_left _ hp]
    have hheight : 0 < inst.height (lastBefore inst A 0) := by
      obtain hl | hl := lastBefore_mem inst A 0
      · rw [hl, h.headerHeight]
        omega
      · exact (mem_onLevel.mp hl).2
    rw [KvsSkiplist.forwardAt_eq hheight, hA, hlinked.next_endOf]
  have hcons : (List.range (inst.level + 1)).map (lastBefore inst A) =
      lastBefore inst A 0 :: ((List.range inst.level).map Nat.succ).map (lastBefore inst A) := by
    rw [List.range_succ_eq_map, List.map_cons]
  simp only [skiplistFind, hdescend, bind, Except.bind]
  rw [hcons]
  simp only [hfirst]

-- ---------------------------------------------------------------------------
-- Linking in
-- ---------------------------------------------------------------------------

theorem skiplistLink_spec (z : Ptr) (us : List Ptr) {T : KvsSkiplist} (hz : i + us.length ≤ T.height z)
    (hus : ∀ j u, us[j]? = some u → u ≠ z ∧ i + j < T.height u) :
    ∃ T', skiplistLink z us i T = .ok T' ∧ T'.header = T.header ∧ T'.level = T.level ∧
      T'.key = T.key ∧ T'.value = T.value ∧ T'.height = T.height ∧
      (∀ j, j < i ∨ i + us.length ≤ j → T'.next j = T.next j) ∧
      (∀ j u, us[j]? = some u → T'.next (i + j) u = some z ∧
        T'.next (i + j) z = T.next (i + j) u ∧
        ∀ q, q ≠ u → q ≠ z → T'.next (i + j) q = T.next (i + j) q) := by
  induction us generalizing i T with
  | nil => exact ⟨T, rfl, rfl, rfl, rfl, rfl, rfl, fun _ _ => rfl, by simp⟩
  | cons u us ih =>
    simp only [List.length_cons] at hz
    obtain ⟨huz, hu⟩ := hus 0 u rfl
    rw [Nat.add_zero] at hu
    obtain ⟨T1, hT1, hh1, hl1, hk1, hv1, hheight1, hnext1⟩ :=
      KvsSkiplist.setForward_spec (p := z) (i := i) (T := T) (by omega) (T.next i u)
    obtain ⟨T2, hT2, hh2, hl2, hk2, hv2, hheight2, hnext2⟩ :=
      KvsSkiplist.setForward_spec (p := u) (i := i) (T := T1) (by rw [hheight1]; exact hu) (some z)
    have hheight : T2.height = T.height := hheight2.trans hheight1
    obtain ⟨T', hT', hh, hl, hk, hv, hh', hout, hin⟩ := ih (i := i + 1) (T := T2)
      (by rw [hheight]; omega) (fun j w hw => by
        have := hus (j + 1) w hw
        rw [hheight]
        exact ⟨this.1, by omega⟩)
    refine ⟨T', ?_, hh.trans (hh2.trans hh1), hl.trans (hl2.trans hl1), hk.trans (hk2.trans hk1),
      hv.trans (hv2.trans hv1), hh'.trans hheight, ?_, ?_⟩
    · simp only [skiplistLink, KvsSkiplist.forwardAt_eq hu, bind, Except.bind, hT1, hT2, hT']
    · intro j hj
      have hj' : j < i + 1 ∨ i + 1 + us.length ≤ j := by
        simp only [List.length_cons] at hj
        omega
      have hji : j ≠ i := by
        simp only [List.length_cons] at hj
        omega
      rw [hout j hj']
      funext q
      rw [hnext2, hnext1]
      simp [hji]
    · intro j w hw
      cases j with
      | zero =>
        simp only [List.getElem?_cons_zero, Option.some.injEq] at hw
        subst hw
        rw [Nat.add_zero, hout i (.inl (Nat.lt_succ_self i))]
        refine ⟨by simp [hnext2], ?_, ?_⟩
        · simp [hnext2, hnext1, Ne.symm huz]
        · intro q hqu hqz
          simp [hnext2, hnext1, hqu, hqz]
      | succ j =>
        have hw' := hin j w (by simpa using hw)
        have hne : i + 1 + j ≠ i := by omega
        have hidx : i + (j + 1) = i + 1 + j := by omega
        have hkeep : ∀ q, T2.next (i + 1 + j) q = T.next (i + 1 + j) q := by
          intro q
          rw [hnext2, hnext1]
          simp [hne]
        rw [hidx]
        refine ⟨hw'.1, by rw [hw'.2.1, hkeep], fun q hqw hqz => ?_⟩
        rw [hw'.2.2 q hqw hqz, hkeep]

theorem lastBefore_above (h : SkStores inst n (A ++ B)) (hi : inst.level < i) :
    lastBefore inst A i = inst.header := by
  have hempty : inst.onLevel i A = [] := by
    rw [KvsSkiplist.onLevel, List.filter_eq_nil_iff]
    intro p hp
    have := (h.height p (List.mem_append_left _ hp)).2
    simp
    omega
  rw [lastBefore, hempty, endOf]

theorem update_eq (h : SkStores inst n (A ++ B)) (level : Nat) :
    ((List.range (inst.level + 1)).map (lastBefore inst A) ++
      List.replicate (level - inst.level) inst.header).take (level + 1) =
      (List.range (level + 1)).map (lastBefore inst A) := by
  refine List.ext_getElem? fun j => ?_
  rw [List.getElem?_take]
  by_cases hj : j < level + 1
  · rw [if_pos hj]
    by_cases hlow : j < inst.level + 1
    · rw [List.getElem?_append_left (by simpa using hlow)]
      simp [hlow, hj]
    · rw [List.getElem?_append_right (by simp; omega), List.getElem?_replicate]
      simp only [List.length_map, List.length_range, List.getElem?_map]
      rw [if_pos (by omega), List.getElem?_range hj, Option.map_some,
        lastBefore_above h (by omega)]
  · rw [if_neg hj]
    simp [hj]

/-- The nodes the search leaves the levels at, and their heights. -/
theorem lastBefore_spec (h : SkStores inst n (A ++ B)) (hi : i ≤ kvsSkiplistMaxLevel) :
    lastBefore inst A i ∈ inst.header :: A ∧ lastBefore inst A i ≤ n ∧
      i < inst.height (lastBefore inst A i) := by
  obtain hl | hl := lastBefore_mem inst A i
  · rw [hl, h.headerHeight]
    exact ⟨by simp, h.headerPtr.2, by omega⟩
  · obtain ⟨hA, hheight⟩ := mem_onLevel.mp hl
    exact ⟨by simp [hA], (h.ptr _ (List.mem_append_left _ hA)).2, hheight⟩

/-- A node of any level linked in at the cut. -/
theorem skStores_insert {ks : CString} (vs : CString) (fp : Ptr) {z : Ptr} {n' level : Nat}
    (h : SkStores inst n (A ++ B)) (hA : ∀ p ∈ A, keyLt (inst.pairAt p).1 ks.bytes)
    (hB : ∀ p ∈ B, keyLt ks.bytes (inst.pairAt p).1) (hz : n < z) (hz' : z ≤ n') (hn : n ≤ n')
    (hlevel : level ≤ kvsSkiplistMaxLevel) (T : KvsSkiplist)
    (hT : T = if level > inst.level then { inst.addNode z level ks vs fp with level := level }
      else inst.addNode z level ks vs fp) :
    ∃ T', skiplistLink z ((List.range (level + 1)).map (lastBefore inst A)) 0 T = .ok T' ∧
      SkStores T' n' (A ++ z :: B) ∧
      (A ++ z :: B).map T'.pairAt =
        A.map inst.pairAt ++ (ks.bytes, vs.bytes) :: B.map inst.pairAt := by
  have hold : ∀ q ∈ inst.header :: (A ++ B), q ≠ z := by
    intro q hq heq
    have hle : q ≤ n := by
      rcases List.mem_cons.mp hq with rfl | hq
      · exact h.headerPtr.2
      · exact (h.ptr q hq).2
    rw [heq] at hle
    exact absurd hz (Nat.not_lt.mpr hle)
  -- the list before linking: the new node stands alone
  have hheader : T.header = inst.header := by rw [hT]; split <;> rfl
  have hlevelT : T.level = max level inst.level := by
    rw [hT]
    split
    · show level = _
      omega
    · show inst.level = _
      omega
  have hheightz : T.height z = level + 1 := by
    rw [hT]
    split <;> simp [KvsSkiplist.height, KvsSkiplist.addNode]
  have hheight : ∀ q, q ≠ z → T.height q = inst.height q := by
    intro q hq
    rw [hT]
    split <;> simp [KvsSkiplist.height, KvsSkiplist.addNode, hq]
  have hnext : ∀ j q, q ≠ z → T.next j q = inst.next j q := by
    intro j q hq
    rw [hT]
    split <;> simp [KvsSkiplist.next, KvsSkiplist.addNode, hq]
  have hpair : ∀ q, q ≠ z → T.pairAt q = inst.pairAt q := by
    intro q hq
    rw [hT]
    split <;> simp [KvsSkiplist.pairAt, KvsSkiplist.addNode, hq]
  have hpairz : T.pairAt z = (ks.bytes, vs.bytes) := by
    rw [hT]
    split <;> simp [KvsSkiplist.pairAt, KvsSkiplist.addNode]
  have hlast : ∀ j ≤ level, lastBefore inst A j ∈ inst.header :: A ∧ lastBefore inst A j ≠ z ∧
      j < T.height (lastBefore inst A j) := by
    intro j hj
    obtain ⟨hmem, -, hheight'⟩ := lastBefore_spec h (show j ≤ kvsSkiplistMaxLevel by omega)
    have hne := hold _ (by
      rcases List.mem_cons.mp hmem with heq | hm
      · exact List.mem_cons.mpr (.inl heq)
      · exact List.mem_cons_of_mem _ (List.mem_append_left _ hm))
    exact ⟨hmem, hne, by rw [hheight _ hne]; exact hheight'⟩
  have hus : ∀ j u, ((List.range (level + 1)).map (lastBefore inst A))[j]? = some u →
      j ≤ level ∧ u = lastBefore inst A j := by
    intro j u hj
    simp only [List.getElem?_map, Option.map_eq_some_iff, List.getElem?_eq_some_iff,
      List.getElem_range, List.length_range] at hj
    obtain ⟨a, ⟨hlt, rfl⟩, rfl⟩ := hj
    exact ⟨by omega, rfl⟩
  obtain ⟨T', hrun, hheader', hlevel', hkey', hvalue', hheight', hout, hin⟩ :=
    skiplistLink_spec z ((List.range (level + 1)).map (lastBefore inst A)) (i := 0) (T := T)
      (by simp [hheightz]) (fun j u hj => by
        obtain ⟨hj', rfl⟩ := hus j u hj
        rw [Nat.zero_add]
        exact ⟨(hlast j hj').2.1, (hlast j hj').2.2⟩)
  have hpair' : T'.pairAt = T.pairAt := by
    funext q
    simp only [KvsSkiplist.pairAt, hkey', hvalue']
  have hsame : ∀ C, (∀ q ∈ C, q ∈ inst.header :: (A ++ B)) → ∀ j, T'.onLevel j C = inst.onLevel j C := by
    intro C hC j
    refine List.filter_congr fun q hq => ?_
    rw [hheight', hheight q (hold q (hC q hq))]
  have hmemA : ∀ q ∈ A, q ∈ inst.header :: (A ++ B) :=
    fun q hq => List.mem_cons_of_mem _ (List.mem_append_left _ hq)
  have hmemB : ∀ q ∈ B, q ∈ inst.header :: (A ++ B) :=
    fun q hq => List.mem_cons_of_mem _ (List.mem_append_right _ hq)
  have hmap : (A ++ z :: B).map T'.pairAt =
      A.map inst.pairAt ++ (ks.bytes, vs.bytes) :: B.map inst.pairAt := by
    rw [hpair', List.map_append, List.map_cons, hpairz]
    congr 1
    · exact List.map_congr_left fun q hq => hpair q (hold q (hmemA q hq))
    · congr 1
      exact List.map_congr_left fun q hq => hpair q (hold q (hmemB q hq))
  have hmem : ∀ q ∈ A ++ z :: B, q = z ∨ q ∈ A ++ B := by
    intro q hq
    simp only [List.mem_append, List.mem_cons] at hq ⊢
    tauto
  refine ⟨T', hrun, ⟨?_, ?_, ?_, ?_, ?_, ?_, ?_, ?_, ?_⟩, hmap⟩
  · rw [hheader', hheader]
    exact ⟨h.headerPtr.1, Nat.le_trans h.headerPtr.2 hn⟩
  · rw [hheight', hheader', hheader, hheight _ (hold _ (by simp)), h.headerHeight]
  · intro q hq
    rcases hmem q hq with rfl | hq
    · exact ⟨Nat.lt_of_le_of_lt (Nat.zero_le _) hz, hz'⟩
    · exact ⟨(h.ptr q hq).1, Nat.le_trans (h.ptr q hq).2 hn⟩
  · rw [hheader', hheader]
    have hnot : z ∉ inst.header :: (A ++ B) := fun hmem => hold z hmem rfl
    have := List.nodup_cons.mpr ⟨hnot, h.nodup⟩
    have hperm : (inst.header :: A ++ z :: B).Perm (z :: (inst.header :: A ++ B)) :=
      List.perm_middle
    exact hperm.nodup_iff.mpr this
  · intro q hq
    rw [hheight', hlevel', hlevelT]
    rcases hmem q hq with rfl | hq
    · rw [hheightz]
      omega
    · rw [hheight q (hold q (List.mem_cons_of_mem _ hq))]
      have := h.height q hq
      omega
  · rw [hlevel', hlevelT]
    exact Nat.max_le.mpr ⟨hlevel, h.level⟩
  · rw [hlevel', hlevelT, hheight']
    by_cases hup : inst.level < level
    · refine .inr ⟨z, by simp, ?_⟩
      rw [hheightz]
      omega
    · rcases h.top with htop | ⟨q, hq, htop⟩
      · left
        omega
      · refine .inr ⟨q, ?_, ?_⟩
        · simp only [List.mem_append, List.mem_cons] at hq ⊢
          tauto
        · rw [hheight q (hold q (List.mem_cons_of_mem _ hq))]
          omega
  · intro j hj
    have hlinked := h.linked j hj
    have hnodup : (inst.header :: (inst.onLevel j A ++ inst.onLevel j B)).Nodup := by
      refine h.nodup.sublist ?_
      rw [← show inst.onLevel j (A ++ B) = inst.onLevel j A ++ inst.onLevel j B by
        simp [KvsSkiplist.onLevel]]
      exact List.Sublist.cons_cons _ List.filter_sublist
    have hsub : ∀ q ∈ inst.header :: (inst.onLevel j A ++ inst.onLevel j B), q ≠ z := by
      intro q hq
      refine hold q ?_
      simp only [List.mem_cons, List.mem_append, mem_onLevel] at hq ⊢
      tauto
    rw [show inst.onLevel j (A ++ B) = inst.onLevel j A ++ inst.onLevel j B by
      simp [KvsSkiplist.onLevel]] at hlinked
    have hsplit : T'.onLevel j (A ++ z :: B) =
        inst.onLevel j A ++ (if j < level + 1 then z :: inst.onLevel j B else inst.onLevel j B) := by
      rw [← hsame A hmemA j, ← hsame B hmemB j]
      simp only [KvsSkiplist.onLevel, List.filter_append, List.filter_cons, hheight', hheightz,
        decide_eq_true_eq]
    rw [hsplit, hheader', hheader]
    by_cases hj' : j < level + 1
    · rw [if_pos hj']
      obtain ⟨hend, hznext, hkeep⟩ := hin j (lastBefore inst A j) (by
        rw [List.getElem?_map, List.getElem?_range hj', Option.map_some])
      rw [Nat.zero_add] at hend hznext hkeep
      refine hlinked.insert hnodup (fun hmem => hsub z hmem rfl) hend ?_ ?_
      · rw [hznext, hnext j _ (hlast j (by omega)).2.1]
        rfl
      · intro q hq hqz
        rw [hkeep q hq hqz, hnext j q hqz]
    · rw [if_neg hj']
      refine hlinked.congr fun q hq => ?_
      rw [hout j (.inr (by simp; omega)), hnext j q (hsub q hq)]
  · rw [hmap]
    refine SortedKeys.insert ?_ ?_ ?_ _
    · rw [← List.map_append]
      exact h.sorted
    · simpa using hA
    · simpa using hB

-- ---------------------------------------------------------------------------
-- Taking out
-- ---------------------------------------------------------------------------

/-- What the unlinking loop does to the successors: it works on the levels the
node is on and ends at the first one above. -/
theorem skiplistUnlink_spec (z : Ptr) (us : List Ptr) {T : KvsSkiplist}
    (hus : ∀ j u, us[j]? = some u → i + j < T.height u ∧
      (T.next (i + j) u = some z ↔ i + j < T.height z)) :
    ∃ T', skiplistUnlink z us i T = .ok T' ∧ T'.header = T.header ∧ T'.level = T.level ∧
      T'.key = T.key ∧ T'.value = T.value ∧ T'.height = T.height ∧
      (∀ j, j < i ∨ i + us.length ≤ j ∨ T.height z ≤ j → T'.next j = T.next j) ∧
      (∀ j u, us[j]? = some u → i + j < T.height z → T'.next (i + j) u = T.next (i + j) z ∧
        ∀ q, q ≠ u → T'.next (i + j) q = T.next (i + j) q) := by
  induction us generalizing i T with
  | nil => exact ⟨T, rfl, rfl, rfl, rfl, rfl, rfl, fun _ _ => rfl, by simp⟩
  | cons u us ih =>
    obtain ⟨hu, hon⟩ := hus 0 u rfl
    rw [Nat.add_zero] at hu hon
    by_cases hz : i < T.height z
    · obtain ⟨T1, hT1, hh1, hl1, hk1, hv1, hheight1, hnext1⟩ :=
        KvsSkiplist.setForward_spec hu (T.next i z)
      obtain ⟨T', hT', hh, hl, hk, hv, hh', hout, hin⟩ := ih (i := i + 1) (T := T1) (by
        intro j w hw
        have hw' := hus (j + 1) w (by simpa using hw)
        rw [show i + (j + 1) = i + 1 + j by omega] at hw'
        rw [hheight1, hnext1, if_neg (by omega)]
        exact hw')
      refine ⟨T', ?_, hh.trans hh1, hl.trans hl1, hk.trans hk1, hv.trans hv1, hh'.trans hheight1,
        ?_, ?_⟩
      · simp only [skiplistUnlink, KvsSkiplist.forwardAt_eq hu, KvsSkiplist.forwardAt_eq hz,
          bind, Except.bind, hon.mpr hz, ne_eq, not_true_eq_false, if_false, hT1, hT']
      · intro j hj
        simp only [List.length_cons] at hj
        have hji : j ≠ i := by omega
        rw [hout j (by rw [hheight1]; omega)]
        funext q
        rw [hnext1, if_neg (by simp [hji])]
      · intro j w hw hlt
        cases j with
        | zero =>
          simp only [List.getElem?_cons_zero, Option.some.injEq] at hw
          subst hw
          rw [Nat.add_zero, hout i (.inl (Nat.lt_succ_self i))]
          refine ⟨by simp [hnext1], fun q hq => by simp [hnext1, hq]⟩
        | succ j =>
          have hkeep : ∀ q, T1.next (i + 1 + j) q = T.next (i + 1 + j) q := by
            intro q
            rw [hnext1, if_neg (by omega)]
          rw [show i + (j + 1) = i + 1 + j by omega] at hlt ⊢
          obtain ⟨hw', hother⟩ := hin j w (by simpa using hw) (by rw [hheight1]; exact hlt)
          refine ⟨by rw [hw', hkeep], fun q hq => ?_⟩
          rw [hother q hq, hkeep]
    · refine ⟨T, ?_, rfl, rfl, rfl, rfl, rfl, fun _ _ => rfl, ?_⟩
      · have hne : T.next i u ≠ some z := fun heq => hz (hon.mp heq)
        simp only [skiplistUnlink, KvsSkiplist.forwardAt_eq hu, bind, Except.bind, ne_eq, hne,
          not_false_eq_true, if_true]
      · intro j w _ hlt
        omega

theorem skiplistLower_spec {T : KvsSkiplist} (level : Nat) (hheight : level < T.height T.header) :
    ∃ l, skiplistLower T level = .ok l ∧ l ≤ level ∧ (l = 0 ∨ T.next l T.header ≠ none) ∧
      ∀ j, l < j → j ≤ level → T.next j T.header = none := by
  induction level with
  | zero => exact ⟨0, rfl, Nat.le_refl _, .inl rfl, fun j hj hj' => by omega⟩
  | succ level ih =>
    have hnext := KvsSkiplist.forwardAt_eq hheight
    cases hn : T.next (level + 1) T.header with
    | none =>
      obtain ⟨l, hl, hle, htop, hempty⟩ := ih (by omega)
      refine ⟨l, ?_, by omega, htop, fun j hj hj' => ?_⟩
      · simp only [skiplistLower, hnext, hn, bind, Except.bind, hl]
      · by_cases heq : j = level + 1
        · rw [heq, hn]
        · exact hempty j hj (by omega)
    | some q =>
      refine ⟨level + 1, ?_, Nat.le_refl _, .inr ?_, fun j hj hj' => by omega⟩
      · simp only [skiplistLower, hnext, hn, bind, Except.bind]
      · rw [hn]
        exact Option.some_ne_none q

theorem onLevel_append (inst : KvsSkiplist) (i : Nat) (A B : List Ptr) :
    inst.onLevel i (A ++ B) = inst.onLevel i A ++ inst.onLevel i B := List.filter_append ..

theorem onLevel_cons (inst : KvsSkiplist) (i : Nat) (z : Ptr) (B : List Ptr) :
    inst.onLevel i (z :: B) =
      if i < inst.height z then z :: inst.onLevel i B else inst.onLevel i B := by
  simp only [KvsSkiplist.onLevel, List.filter_cons, decide_eq_true_eq]

theorem SkStores.nodup_onLevel (h : SkStores inst n L) (i : Nat) :
    (inst.header :: inst.onLevel i L).Nodup :=
  h.nodup.sublist (List.Sublist.cons_cons _ List.filter_sublist)

theorem lastBefore_next (h : SkStores inst n (A ++ z :: B)) (hi : i ≤ kvsSkiplistMaxLevel) :
    inst.next i (lastBefore inst A i) = some z ↔ i < inst.height z := by
  have hlinked := h.linked i hi
  rw [onLevel_append] at hlinked
  rw [lastBefore, hlinked.next_endOf, onLevel_cons]
  split
  · rename_i hz
    simp [hz]
  · rename_i hz
    refine iff_of_false (fun hhead => ?_) hz
    exact hz (mem_onLevel.mp (List.mem_of_mem_head? hhead)).2

theorem skStores_remove {z : Ptr} (h : SkStores inst n (A ++ z :: B)) :
    ∃ T l, skiplistUnlink z ((List.range (inst.level + 1)).map (lastBefore inst A)) 0 inst = .ok T ∧
      skiplistLower T T.level = .ok l ∧ SkStores { T with level := l } n (A ++ B) ∧
      T.pairAt = inst.pairAt := by
  have hlevel : inst.level ≤ kvsSkiplistMaxLevel := h.level
  have hus : ∀ j u, ((List.range (inst.level + 1)).map (lastBefore inst A))[j]? = some u →
      j ≤ inst.level ∧ u = lastBefore inst A j := by
    intro j u hj
    simp only [List.getElem?_map, Option.map_eq_some_iff, List.getElem?_eq_some_iff,
      List.getElem_range, List.length_range] at hj
    obtain ⟨a, ⟨hlt, rfl⟩, rfl⟩ := hj
    exact ⟨by omega, rfl⟩
  obtain ⟨T, hrun, hheader, hTlevel, hkey, hvalue, hheight, hout, hin⟩ :=
    skiplistUnlink_spec z ((List.range (inst.level + 1)).map (lastBefore inst A)) (i := 0) (T := inst)
      (fun j u hj => by
        obtain ⟨hj', rfl⟩ := hus j u hj
        rw [Nat.zero_add]
        exact ⟨(lastBefore_spec h (by omega)).2.2, lastBefore_next h (by omega)⟩)
  have hpair : T.pairAt = inst.pairAt := by
    funext q
    simp only [KvsSkiplist.pairAt, hkey, hvalue]
  have hon : ∀ j C, T.onLevel j C = inst.onLevel j C := by
    intro j C
    simp only [KvsSkiplist.onLevel, hheight]
  have hmem : ∀ q ∈ A ++ B, q ∈ A ++ z :: B := by
    intro q hq
    simp only [List.mem_append, List.mem_cons] at hq ⊢
    tauto
  have hz := h.height z (by simp)
  have hlinked : ∀ j ≤ kvsSkiplistMaxLevel, Linked (T.next j) T.header (T.onLevel j (A ++ B)) := by
    intro j hj
    have hold := h.linked j hj
    have hnodup := h.nodup_onLevel j
    rw [onLevel_append, onLevel_cons] at hold hnodup
    rw [hheader, hon, onLevel_append]
    by_cases hj' : j < inst.height z
    · rw [if_pos hj'] at hold hnodup
      obtain ⟨hend, hkeep⟩ := hin j (lastBefore inst A j) (by
        rw [List.getElem?_map, List.getElem?_range (by omega), Option.map_some])
        (by rw [Nat.zero_add]; exact hj')
      rw [Nat.zero_add] at hend hkeep
      exact hold.remove hnodup hend fun q hq _ => hkeep q hq
    · rw [if_neg hj'] at hold
      rw [hout j (.inr (.inr (by omega)))]
      exact hold
  have hfirst : ∀ j ≤ kvsSkiplistMaxLevel, T.next j T.header = (T.onLevel j (A ++ B)).head? :=
    fun j hj => (hlinked j hj).next_endOf (a := [])
  obtain ⟨l, hlower, hle, htop, hempty⟩ := skiplistLower_spec (T := T) T.level (by
    rw [hheight, hheader, hTlevel, h.headerHeight]
    omega)
  rw [hTlevel] at hle hempty
  refine ⟨T, l, hrun, hlower, ⟨?_, ?_, ?_, ?_, ?_, ?_, ?_, hlinked, ?_⟩, hpair⟩
  · show 1 ≤ T.header ∧ T.header ≤ n
    rw [hheader]
    exact h.headerPtr
  · show T.height T.header = _
    rw [hheight, hheader, h.headerHeight]
  · exact fun q hq => h.ptr q (hmem q hq)
  · show (T.header :: (A ++ B)).Nodup
    rw [hheader]
    refine h.nodup.sublist (List.Sublist.cons_cons _ ?_)
    exact List.Sublist.append_left (List.sublist_cons_self z B) A
  · -- a node above the new level would be the first of an empty list
    intro q hq
    show 1 ≤ T.height q ∧ T.height q ≤ l + 1
    have hq' := h.height q (hmem q hq)
    rw [hheight]
    refine ⟨hq'.1, Nat.le_of_not_lt fun hhigh => ?_⟩
    have hon' : q ∈ T.onLevel (l + 1) (A ++ B) := mem_onLevel.mpr ⟨hq, by rw [hheight]; exact hhigh⟩
    have hnone := hempty (l + 1) (by omega) (by omega)
    rw [hfirst (l + 1) (by omega), List.head?_eq_none_iff] at hnone
    rw [hnone] at hon'
    exact absurd hon' List.not_mem_nil
  · exact Nat.le_trans hle hlevel
  · show l = 0 ∨ ∃ p ∈ A ++ B, l < T.height p
    refine htop.imp_right fun hne => ?_
    rw [hfirst l (Nat.le_trans hle hlevel), Ne, List.head?_eq_none_iff] at hne
    obtain ⟨q, hq⟩ := List.exists_mem_of_ne_nil _ hne
    exact ⟨q, mem_onLevel.mp hq⟩
  · show SortedKeys keyLt ((A ++ B).map T.pairAt)
    have hsorted := h.sorted
    rw [List.map_append, List.map_cons] at hsorted
    rw [hpair, List.map_append]
    exact hsorted.remove

-- ---------------------------------------------------------------------------
-- The operations
-- ---------------------------------------------------------------------------

theorem SkStores.later (h : SkStores inst n L) (hn : n ≤ n') : SkStores inst n' L :=
  ⟨⟨h.headerPtr.1, Nat.le_trans h.headerPtr.2 hn⟩, h.headerHeight,
    fun p hp => ⟨(h.ptr p hp).1, Nat.le_trans (h.ptr p hp).2 hn⟩, h.nodup, h.height, h.level,
    h.top, h.linked, h.sorted⟩

theorem SkStores.header_ne (h : SkStores inst n L) : inst.header ≠ 0 :=
  Nat.ne_of_gt h.headerPtr.1

/-- What the search says about the map: the node of the key, or the gap it
belongs in. -/
theorem SkStores.found (h : SkStores inst n L) (k : Bytes) (hfuel : n < fuel) :
    ∃ A current, skiplistFind inst k fuel =
        .ok ((List.range (inst.level + 1)).map (lastBefore inst A), current) ∧
      ((∃ q B, L = A ++ q :: B ∧ (inst.pairAt q).1 = k ∧
          (current.filter fun c => strcmp (inst.key c).bytes k = 0) = some q) ∨
        ∃ B, L = A ++ B ∧ (∀ p ∈ A, keyLt (inst.pairAt p).1 k) ∧
          (∀ p ∈ B, keyLt k (inst.pairAt p).1) ∧
          (current.filter fun c => strcmp (inst.key c).bytes k = 0) = none) := by
  obtain ⟨A, B, rfl, hcut⟩ := exists_cut h.sorted k
  refine ⟨A, B.head?, skiplistFind_spec h hcut hfuel, ?_⟩
  have hsorted := h.sorted
  cases B with
  | nil => exact .inr ⟨[], rfl, hcut.before, by simp, rfl⟩
  | cons q B =>
    by_cases hq : (inst.pairAt q).1 = k
    · refine .inl ⟨q, B, rfl, hq, ?_⟩
      simp [show strcmp (inst.key q).bytes k = 0 from strcmp_eq_zero.mpr hq]
    · have hlt : keyLt k (inst.pairAt q).1 := by
        rcases strcmp_trichotomy (inst.pairAt q).1 k with hlt | heq | hlt
        · exact absurd hlt (hcut.behind q (by simp))
        · exact absurd heq hq
        · exact hlt
      refine .inr ⟨q :: B, rfl, hcut.before, ?_, ?_⟩
      · intro p hp
        rcases List.mem_cons.mp hp with rfl | hp
        · exact hlt
        · simp only [SortedKeys, List.map_append, List.map_cons, List.pairwise_append,
            List.pairwise_cons] at hsorted
          exact strcmp_trans hlt (hsorted.2.1.1 _ (List.mem_map.mpr ⟨p, hp, rfl⟩))
      · simp [show strcmp (inst.key q).bytes k ≠ 0 from fun h0 => hq (strcmp_eq_zero.mp h0)]

theorem mem_of_key (hL : L = A ++ q :: B) (hk : (inst.pairAt q).1 = k) :
    k ∈ mapOf (L.map inst.pairAt) := by
  refine mem_mapOf.mpr ⟨(inst.pairAt q).2, List.mem_map.mpr ⟨q, by simp [hL], ?_⟩⟩
  rw [← hk]

theorem notMem_of_gap (hL : L = A ++ B) (hA : ∀ p ∈ A, keyLt (inst.pairAt p).1 k)
    (hB : ∀ p ∈ B, keyLt k (inst.pairAt p).1) : k ∉ mapOf (L.map inst.pairAt) := by
  rw [hL, List.map_append]
  exact notMem_between keyLt_irrefl (by simpa using hA) (by simpa using hB)

theorem SkStores.search (h : SkStores inst n L) (k : Bytes) (hfuel : n < fuel) :
    (∃ A q B, L = A ++ q :: B ∧ (inst.pairAt q).1 = k ∧
      skiplistSearchNode inst k fuel = .ok (some q) ∧ k ∈ mapOf (L.map inst.pairAt)) ∨
    (skiplistSearchNode inst k fuel = .ok none ∧ k ∉ mapOf (L.map inst.pairAt)) := by
  obtain ⟨A, current, hfind, ⟨q, B, hL, hk, hcur⟩ | ⟨B, hL, hA, hB, hcur⟩⟩ := h.found k hfuel
  · refine .inl ⟨A, q, B, hL, hk, ?_, mem_of_key hL hk⟩
    simp only [skiplistSearchNode, hfind, bind, Except.bind, hcur]
  · refine .inr ⟨?_, notMem_of_gap hL hA hB⟩
    simp only [skiplistSearchNode, hfind, bind, Except.bind, hcur]

theorem SkStores.setValue (h : SkStores inst n (A ++ q :: B)) (hn : n ≤ n') (v : CString) :
    SkStores (inst.setValue q v) n' (A ++ q :: B) ∧
      mapOf ((A ++ q :: B).map (inst.setValue q v).pairAt) =
        (mapOf ((A ++ q :: B).map inst.pairAt)).insert (inst.pairAt q).1 v.bytes := by
  have hnodup := (List.nodup_cons.mp h.nodup).2
  simp only [List.nodup_append, List.nodup_cons, List.mem_cons] at hnodup
  obtain ⟨-, ⟨hqB, -⟩, hA⟩ := hnodup
  have hsame : ∀ p, p ≠ q → (inst.setValue q v).pairAt p = inst.pairAt p := by
    intro p hp
    simp [KvsSkiplist.pairAt, KvsSkiplist.setValue, hp]
  have hpairs : (A ++ q :: B).map (inst.setValue q v).pairAt =
      A.map inst.pairAt ++ ((inst.pairAt q).1, v.bytes) :: B.map inst.pairAt := by
    rw [List.map_append, List.map_cons]
    congr 1
    · exact List.map_congr_left fun p hp => hsame p (hA p hp q (.inl rfl))
    · congr 1
      · simp [KvsSkiplist.pairAt, KvsSkiplist.setValue]
      · exact List.map_congr_left fun p hp => hsame p fun heq => hqB (heq ▸ hp)
  have hsorted := h.sorted
  have hdistinct := h.distinct
  rw [List.map_append, List.map_cons] at hsorted hdistinct
  have hlater := h.later hn
  refine ⟨⟨hlater.headerPtr, h.headerHeight, hlater.ptr, h.nodup, h.height, h.level, h.top,
    h.linked, ?_⟩, ?_⟩
  · rw [hpairs]
    exact hsorted.replace _
  · rw [hpairs, List.map_append, List.map_cons]
    exact mapOf_replace hdistinct

theorem skiplistCreateNode_spec (inst : KvsSkiplist) (hlevel : level ≤ kvsSkiplistMaxLevel)
    (k v : Bytes) (rt : Runtime) :
    Triple (skiplistCreateNode inst level k v) rt (fun r rt' => rt.Extends rt' ∧
      (r = none ∧ rt.CanFail ∨
        ∃ z ks vs fp, r = some (z, inst.addNode z level ks vs fp) ∧ ks.bytes = k ∧ vs.bytes = v ∧
          rt.mallocs < z ∧ z ≤ rt'.mallocs)) Never := by
  simp only [skiplistCreateNode, show ¬level > kvsSkiplistMaxLevel by omega, if_false]
  refine (kvsMalloc_spec rt).bind fun r rt1 hr => ?_
  obtain ⟨hext1, ⟨rfl, hfail⟩ | ⟨rfl, hlt⟩⟩ := hr
  · exact Triple.pure ⟨hext1, .inl ⟨rfl, hfail⟩⟩
  refine (copyString_spec k rt1).bind fun r rt2 hr => ?_
  obtain ⟨hext2, ⟨rfl, hfail⟩ | ⟨ks, rfl, hks, -, -⟩⟩ := hr
  · refine (kvsFree_spec _ rt2).bind fun _ rt3 hfree => ?_
    exact Triple.pure ⟨(hext1.trans hext2).trans hfree.1, .inl ⟨rfl, hext1.canFail hfail⟩⟩
  refine (copyString_spec v rt2).bind fun r rt3 hr => ?_
  have hext12 := hext1.trans hext2
  obtain ⟨hext3, ⟨rfl, hfail⟩ | ⟨vs, rfl, hvs, -, -⟩⟩ := hr
  · refine (kvsFree_spec _ rt3).bind fun _ rt4 h4 => ?_
    refine (kvsFree_spec _ rt4).bind fun _ rt5 h5 => ?_
    exact Triple.pure ⟨((hext12.trans hext3).trans h4.1).trans h5.1,
      .inl ⟨rfl, hext12.canFail hfail⟩⟩
  refine (kvsMalloc_spec rt3).bind fun r rt4 hr => ?_
  have hext13 := hext12.trans hext3
  obtain ⟨hext4, ⟨rfl, hfail⟩ | ⟨rfl, -⟩⟩ := hr
  · refine (kvsFree_spec _ rt4).bind fun _ rt5 h5 => ?_
    refine (kvsFree_spec _ rt5).bind fun _ rt6 h6 => ?_
    refine (kvsFree_spec _ rt6).bind fun _ rt7 h7 => ?_
    exact Triple.pure ⟨(((hext13.trans hext4).trans h5.1).trans h6.1).trans h7.1,
      .inl ⟨rfl, hext13.canFail hfail⟩⟩
  · exact Triple.pure ⟨hext13.trans hext4, .inr ⟨_, ks, vs, _, rfl, hks, hvs, hlt,
      ((hext2.trans hext3).trans hext4).mallocs⟩⟩

theorem randomLevelLoop_spec (left level : Nat) (rt : Runtime) :
    Triple (randomLevelLoop left level) rt (fun r rt' => rt.Extends rt' ∧
      rt'.mallocs = rt.mallocs ∧ r ≤ level + left) Never := by
  induction left generalizing level rt with
  | zero =>
    refine (randBelowHalf_spec rt).bind fun _ rt' h => ?_
    exact Triple.pure ⟨h.1, h.2, Nat.le_refl _⟩
  | succ left ih =>
    refine (randBelowHalf_spec rt).bind fun c rt' h => ?_
    cases c with
    | true =>
      refine (ih (level + 1) rt').weaken fun r rt'' h' => ?_
      exact ⟨h.1.trans h'.1, h'.2.1.trans h.2, by omega⟩
    | false => exact Triple.pure ⟨h.1, h.2, by omega⟩

theorem kvsSkiplistSet_spec (h : SkStores inst rt.mallocs L) (k v : Bytes) :
    Triple (kvsSkiplistSet inst k v) rt
      (fun r rt' => Wrote SkHolds rt inst ((mapOf (L.map inst.pairAt)).insert k v)
        (fun c => c < 0 ∧ (rt.CanFail ∨ k ∉ mapOf (L.map inst.pairAt) ∧ ¬True)) r rt')
      Never := by
  simp only [kvsSkiplistSet, h.header_ne, if_false]
  refine loopFuel_bind ?_
  obtain ⟨A, current, hfind, ⟨q, B, rfl, rfl, hcur⟩ | ⟨B, rfl, hA, hB, hcur⟩⟩ :=
    h.found k (show rt.mallocs < rt.mallocs + 2 by omega)
  · simp only [hfind, ofExcept_ok, pure_bind, hcur]
    refine (copyString_spec v rt).bind fun r rt' hr => ?_
    obtain ⟨hext, ⟨rfl, hfail⟩ | ⟨w, rfl, rfl, -, -⟩⟩ := hr
    · exact Triple.pure (Wrote.unchanged hext (by decide) ⟨by decide, .inl hfail⟩)
    · refine (kvsFree_spec _ rt').bind fun _ rt'' hfree => ?_
      have hext' := hext.trans hfree.1
      exact Triple.pure (Wrote.done hext' ⟨_, h.setValue hext'.mallocs w⟩)
  · simp only [hfind, ofExcept_ok, pure_bind, hcur]
    refine (randomLevelLoop_spec _ _ rt).bind fun level rt1 hlevel => ?_
    rw [Nat.zero_add] at hlevel
    refine (skiplistCreateNode_spec inst hlevel.2.2 k v rt1).bind fun r rt2 hr => ?_
    obtain ⟨hext, ⟨rfl, hfail⟩ | ⟨z, ks, vs, fp, rfl, rfl, rfl, hz, hz'⟩⟩ := hr
    · exact Triple.pure (Wrote.unchanged (hlevel.1.trans hext) (by decide)
        ⟨by decide, .inl (hlevel.1.canFail hfail)⟩)
    have hext' := hlevel.1.trans hext
    rw [hlevel.2.1] at hz
    obtain ⟨T, hlink, hstores, hpairs⟩ :=
      skStores_insert vs fp h hA hB hz hz' hext'.mallocs hlevel.2.2 _ rfl
    simp only [update_eq h, hlink, ofExcept_ok, pure_bind]
    refine Triple.pure (Wrote.done hext' ⟨_, hstores, ?_⟩)
    have hsorted := h.sorted
    rw [List.map_append] at hsorted
    rw [hpairs, mapOf_insert_between keyLt_irrefl hsorted (by simpa using hA) (by simpa using hB),
      List.map_append]

theorem kvsSkiplistMod_found (h : SkStores inst rt.mallocs L) (hk : k ∈ mapOf (L.map inst.pairAt))
    (v : Bytes) :
    Triple (kvsSkiplistMod inst k v) rt
      (fun r rt' => Wrote SkHolds rt inst ((mapOf (L.map inst.pairAt)).insert k v)
        (fun c => c < 0 ∧ rt.CanFail) r rt') Never := by
  simp only [kvsSkiplistMod, h.header_ne, if_false]
  refine loopFuel_bind ?_
  obtain ⟨A, q, B, rfl, rfl, hsearch, -⟩ | ⟨-, hnot⟩ :=
    h.search k (show rt.mallocs < rt.mallocs + 2 by omega)
  · simp only [hsearch, ofExcept_ok, pure_bind]
    refine (copyString_spec v rt).bind fun r rt' hr => ?_
    obtain ⟨hext, ⟨rfl, hfail⟩ | ⟨w, rfl, rfl, -, -⟩⟩ := hr
    · exact Triple.pure (Wrote.unchanged hext (by decide) ⟨by decide, hfail⟩)
    · refine (kvsFree_spec _ rt').bind fun _ rt'' hfree => ?_
      have hext' := hext.trans hfree.1
      exact Triple.pure (Wrote.done hext' ⟨_, h.setValue hext'.mallocs w⟩)
  · exact absurd hk hnot

theorem kvsSkiplistMod_missing (h : SkStores inst rt.mallocs L)
    (hk : k ∉ mapOf (L.map inst.pairAt)) (v : Bytes) :
    Triple (kvsSkiplistMod inst k v) rt (fun r rt' => rt' = rt ∧ r = (1, inst)) Never := by
  simp only [kvsSkiplistMod, h.header_ne, if_false]
  refine loopFuel_bind ?_
  obtain ⟨A, q, B, -, -, -, hmem⟩ | ⟨hsearch, -⟩ :=
    h.search k (show rt.mallocs < rt.mallocs + 2 by omega)
  · exact absurd hmem hk
  · simp only [hsearch, ofExcept_ok, pure_bind]
    exact ⟨rfl, rfl⟩

theorem kvsSkiplistDel_found (h : SkStores inst rt.mallocs L)
    (hk : k ∈ mapOf (L.map inst.pairAt)) :
    Triple (kvsSkiplistDel inst k) rt
      (fun r rt' => Wrote SkHolds rt inst ((mapOf (L.map inst.pairAt)).erase k)
        (fun _ => False) r rt') Never := by
  simp only [kvsSkiplistDel, h.header_ne, if_false]
  refine loopFuel_bind ?_
  obtain ⟨A, current, hfind, ⟨q, B, rfl, rfl, hcur⟩ | ⟨B, hL, hA, hB, hcur⟩⟩ :=
    h.found k (show rt.mallocs < rt.mallocs + 2 by omega)
  · obtain ⟨T, l, hunlink, hlower, hstores, hpair⟩ := skStores_remove h
    simp only [hfind, ofExcept_ok, pure_bind, hcur, hunlink, hlower]
    refine (kvsFree_spec _ rt).bind fun _ rt1 h1 => ?_
    refine (kvsFree_spec _ rt1).bind fun _ rt2 h2 => ?_
    refine (kvsFree_spec _ rt2).bind fun _ rt3 h3 => ?_
    refine (kvsFree_spec _ rt3).bind fun _ rt4 h4 => ?_
    have hext := ((h1.1.trans h2.1).trans h3.1).trans h4.1
    refine Triple.pure (Wrote.done hext ⟨A ++ B, hstores.later hext.mallocs, ?_⟩)
    have hdistinct := h.distinct
    rw [List.map_append, List.map_cons] at hdistinct
    show mapOf ((A ++ B).map T.pairAt) = _
    rw [hpair, List.map_append, List.map_append, List.map_cons]
    exact mapOf_remove hdistinct
  · exact absurd hk (notMem_of_gap hL hA hB)

theorem kvsSkiplistDel_missing (h : SkStores inst rt.mallocs L)
    (hk : k ∉ mapOf (L.map inst.pairAt)) :
    Triple (kvsSkiplistDel inst k) rt (fun r rt' => rt' = rt ∧ r = (1, inst)) Never := by
  simp only [kvsSkiplistDel, h.header_ne, if_false]
  refine loopFuel_bind ?_
  obtain ⟨A, current, hfind, ⟨q, B, hL, hq, -⟩ | ⟨B, -, -, -, hcur⟩⟩ :=
    h.found k (show rt.mallocs < rt.mallocs + 2 by omega)
  · exact absurd (mem_of_key hL hq) hk
  · simp only [hfind, ofExcept_ok, pure_bind, hcur]
    exact ⟨rfl, rfl⟩

theorem kvsSkiplistGet_spec (h : SkStores inst rt.mallocs L) (k : Bytes) :
    Triple (kvsSkiplistGet inst k) rt
      (fun r rt' => rt' = rt ∧ r = (mapOf (L.map inst.pairAt)).lookup k) Never := by
  refine loopFuel_bind ?_
  obtain ⟨A, q, B, rfl, rfl, hsearch, -⟩ | ⟨hsearch, hnot⟩ :=
    h.search k (show rt.mallocs < rt.mallocs + 2 by omega)
  · simp only [hsearch, ofExcept_ok, pure_bind]
    refine ⟨rfl, Eq.symm ?_⟩
    rw [lookup_mapOf h.distinct]
    exact List.mem_map.mpr ⟨q, by simp, rfl⟩
  · simp only [hsearch, ofExcept_ok, pure_bind]
    exact ⟨rfl, (Finmap.lookup_eq_none.mpr hnot).symm⟩

theorem kvsSkiplistExist_spec (h : SkStores inst rt.mallocs L) (k : Bytes) :
    Triple (kvsSkiplistExist inst k) rt (fun r rt' => rt' = rt ∧
      (r = 0 ↔ k ∈ mapOf (L.map inst.pairAt)) ∧ (r = 1 ↔ k ∉ mapOf (L.map inst.pairAt)))
      Never := by
  simp only [kvsSkiplistExist, h.header_ne, if_false]
  refine loopFuel_bind ?_
  obtain ⟨A, q, B, -, -, hsearch, hmem⟩ | ⟨hsearch, hnot⟩ :=
    h.search k (show rt.mallocs < rt.mallocs + 2 by omega)
  · simp only [hsearch, ofExcept_ok, pure_bind]
    exact Triple.pure ⟨rfl, by simp [hmem], by simp [hmem]⟩
  · simp only [hsearch, ofExcept_ok, pure_bind]
    exact Triple.pure ⟨rfl, by simp [hnot], by simp [hnot]⟩

theorem skiplistVisit_spec (hlinked : Linked (inst.next 0) p L)
    (hheight : ∀ q ∈ p :: L, 0 < inst.height q) (hfuel : L.length < fuel) :
    skiplistVisit inst fuel (inst.next 0 p) = .ok (L.map inst.pairAt) := by
  induction fuel generalizing p L with
  | zero => omega
  | succ fuel ih =>
    cases L with
    | nil =>
      have hnext : inst.next 0 p = none := hlinked
      simp [skiplistVisit, hnext]
    | cons q L =>
      have hnext : inst.next 0 p = some q := hlinked.1
      simp only [List.length_cons] at hfuel
      have hrest := ih hlinked.2 (fun x hx => hheight x (List.mem_cons_of_mem _ hx)) (by omega)
      rw [hnext]
      simp only [skiplistVisit, KvsSkiplist.forwardAt_eq (hheight q (by simp)), bind, Except.bind,
        hrest, List.map_cons]
      rfl

theorem SkStores.header_pos (h : SkStores inst n L) : 0 < inst.height inst.header := by
  rw [h.headerHeight]
  omega

theorem SkStores.linked_all (h : SkStores inst n L) : Linked (inst.next 0) inst.header L := by
  have hall : inst.onLevel 0 L = L := List.filter_eq_self.mpr fun p hp => by
    have := (h.height p hp).1
    simp
    omega
  have hlinked := h.linked 0 (Nat.zero_le _)
  rwa [hall] at hlinked

theorem kvsSkiplistForeach_spec (h : SkStores inst rt.mallocs L) :
    Triple (kvsSkiplistForeach inst) rt (fun r rt' => rt' = rt ∧ r = L.map inst.pairAt) Never := by
  refine loopFuel_bind ?_
  have hlen := h.length_le
  have hheight : ∀ q ∈ inst.header :: L, 0 < inst.height q := by
    intro q hq
    rcases List.mem_cons.mp hq with rfl | hq
    · exact h.header_pos
    · exact (h.height q hq).1
  rw [KvsSkiplist.forwardAt_eq h.header_pos, ofExcept_ok, pure_bind,
    skiplistVisit_spec h.linked_all hheight (by omega), ofExcept_ok]
  exact ⟨rfl, rfl⟩

end

theorem skStores_empty {inst : KvsSkiplist} {ks vs : CString} (hz : 1 ≤ z ∧ z ≤ n)
    (hlevel : inst.level = 0) :
    SkStores { inst.addNode z kvsSkiplistMaxLevel ks vs fp with header := z } n [] := by
  refine ⟨hz, ?_, by simp, by simp, by simp, ?_, .inl hlevel, ?_, List.Pairwise.nil⟩
  · simp [KvsSkiplist.height, KvsSkiplist.addNode]
  · show inst.level ≤ _
    omega
  · intro i hi
    have hi' : i < kvsSkiplistMaxLevel + 1 := by omega
    simp [KvsSkiplist.next, KvsSkiplist.onLevel, Linked, KvsSkiplist.addNode, hi']

theorem skiplist_lawful : Lawful skiplistOps SkHolds (fun _ => True) (fun _ => True) 1 where
  later := by
    rintro inst n m n' ⟨L, h, hm⟩ hn
    exact ⟨L, h.later hn, hm⟩
  admitted _ _ := trivial
  full _ hroom := absurd trivial hroom
  create rt := by
    refine (skiplistCreateNode_spec _ (Nat.le_refl _) [] [] rt).bind fun r rt' h => ?_
    obtain ⟨hext, ⟨rfl, hfail⟩ | ⟨z, ks, vs, fp, rfl, -, -, hz, hz'⟩⟩ := h
    · exact Triple.pure ⟨hext, .inr ⟨by decide, hfail⟩⟩
    · refine Triple.pure ⟨hext, .inl ⟨rfl, [], ?_, rfl⟩⟩
      exact skStores_empty ⟨Nat.lt_of_le_of_lt (Nat.zero_le _) hz, hz'⟩ rfl
  set := by
    rintro inst rt m k v ⟨L, h, rfl⟩ -
    exact kvsSkiplistSet_spec h _ _
  mod := by
    rintro inst rt m k v ⟨L, h, rfl⟩ - hk
    exact kvsSkiplistMod_found h hk v
  mod_missing := by
    rintro inst rt m k v ⟨L, h, rfl⟩ - hk
    exact kvsSkiplistMod_missing h hk v
  del := by
    rintro inst rt m k ⟨L, h, rfl⟩ - hk
    exact kvsSkiplistDel_found h hk
  del_missing := by
    rintro inst rt m k ⟨L, h, rfl⟩ - hk
    exact kvsSkiplistDel_missing h hk
  get := by
    rintro inst rt m k ⟨L, h, rfl⟩ -
    exact kvsSkiplistGet_spec h _
  exist := by
    rintro inst rt m k ⟨L, h, rfl⟩ -
    exact kvsSkiplistExist_spec h _
  foreach := by
    rintro inst rt m ⟨L, h, rfl⟩
    exact (kvsSkiplistForeach_spec h).weaken fun r rt' hr => ⟨hr.1, hr.2 ▸ h.distinct, by rw [hr.2]⟩

end KvStore
