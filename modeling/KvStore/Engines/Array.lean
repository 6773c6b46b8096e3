import KvStore.Engines.Interface

/-!
# The array engine

`src/engines/kvs_array.c`. A table of 1024 slots of which the first `total`
are in use; a deletion moves the last used slot into the hole. Slots from
`total` on are whatever `kvs_malloc` left there.
-/

namespace KvStore

open Lib

def kvsArraySize : Nat := 1024

structure KvsArrayItem where
  key : Option CString
  value : Option CString

def KvsArrayItem.pair (x : KvsArrayItem) : Option (Bytes × Bytes) :=
  match x.key, x.value with
  | some k, some v => some (k.bytes, v.bytes)
  | _, _ => none

structure KvsArray where
  table : Option Ptr
  item : Nat → KvsArrayItem
  total : Nat
  idx : Nat

/-- `global_array` before `kvs_array_create`. -/
def globalArray : KvsArray :=
  { table := none, item := fun _ => ⟨none, none⟩, total := 0, idx := 0 }

namespace KvsArray

def setItem (inst : KvsArray) (i : Nat) (x : KvsArrayItem) : KvsArray :=
  { inst with item := fun j => if j = i then x else inst.item j }

end KvsArray

def kvsArrayCreate (inst : KvsArray) : Run (Int × KvsArray) := do
  if inst.table.isSome then return (-1, inst)
  match ← kvsMalloc with
  | none => return (-1, inst)
  | some table => return (0, { inst with table := some table, total := 0 })

/-- The loop of `kvs_array_destory`, over `left` slots from `i`. -/
def arrayClear : (left i : Nat) → KvsArray → Run KvsArray
  | 0, _, inst => pure inst
  | left + 1, i, inst => do
    freeString (inst.item i).key
    freeString (inst.item i).value
    arrayClear left (i + 1) (inst.setItem i ⟨none, none⟩)

def kvsArrayDestory (inst : KvsArray) : Run KvsArray :=
  match inst.table with
  | none => pure inst
  | some table => do
    let inst ← arrayClear inst.total 0 inst
    kvsFree table
    return { inst with table := none, total := 0, idx := 0 }

/-- The search loop of `kvs_array_mod` and `kvs_array_get`, over `left` slots
from `i`; a slot without a key is passed over. -/
def arraySearch (inst : KvsArray) (key : Bytes) : (left i : Nat) → Option Nat
  | 0, _ => none
  | left + 1, i =>
    match (inst.item i).key with
    | none => arraySearch inst key left (i + 1)
    | some k => if strcmp k.bytes key = 0 then some i else arraySearch inst key left (i + 1)

def kvsArrayMod (inst : KvsArray) (key value : Bytes) : Run (Int × KvsArray) := do
  match arraySearch inst key inst.total 0 with
  | none => return (1, inst)
  | some i =>
    match ← copyString value with
    | none => return (-2, inst)
    | some kvalue =>
      freeString (inst.item i).value
      return (0, inst.setItem i { inst.item i with value := some kvalue })

/-- The loop of `kvs_array_set` over the used slots, for one without a key. -/
def arrayHole (inst : KvsArray) : (left i : Nat) → Nat
  | 0, i => i
  | left + 1, i => if (inst.item i).key.isNone then i else arrayHole inst left (i + 1)

def kvsArraySet (inst : KvsArray) (key value : Bytes) : Run (Int × KvsArray) := do
  if inst.table.isNone then return (-1, inst)
  let (updateResult, inst) ← kvsArrayMod inst key value
  if updateResult ≤ 0 then return (updateResult, inst)
  if inst.total ≥ kvsArraySize then return (-1, inst)
  match ← copyString key with
  | none => return (-2, inst)
  | some kcopy =>
    match ← copyString value with
    | none =>
      kvsFree kcopy.ptr
      return (-2, inst)
    | some kvalue =>
      let i := arrayHole inst inst.total 0
      if i < inst.total then
        return (0, { inst.setItem i ⟨some kcopy, some kvalue⟩ with total := inst.total + 1 })
      else if i = inst.total ∧ i < kvsArraySize then
        return (0, { inst.setItem i ⟨some kcopy, some kvalue⟩ with total := inst.total + 1 })
      else return (0, inst)

def kvsArrayGet (inst : KvsArray) (key : Bytes) : Run (Option Bytes) :=
  match arraySearch inst key inst.total 0 with
  | none => pure none
  | some i => pure ((inst.item i).value.map CString.bytes)

/-- The search loop of `kvs_array_del`, which compares without looking for a
missing key first. -/
def arrayDelSearch (inst : KvsArray) (key : Bytes) : (left i : Nat) → Run (Option Nat)
  | 0, _ => pure none
  | left + 1, i =>
    match (inst.item i).key with
    | none => throw .undefined
    | some k => if strcmp k.bytes key = 0 then pure (some i) else arrayDelSearch inst key left (i + 1)

def kvsArrayDel (inst : KvsArray) (key : Bytes) : Run (Int × KvsArray) := do
  match ← arrayDelSearch inst key inst.total 0 with
  | none => return (1, inst)
  | some i =>
    freeString (inst.item i).key
    freeString (inst.item i).value
    let total := inst.total - 1
    let moved := if i ≠ total then inst.setItem i (inst.item total) else inst
    return (0, { moved.setItem total ⟨none, none⟩ with total := total, idx := i })

def kvsArrayExist (inst : KvsArray) (key : Bytes) : Run Int := do
  match ← kvsArrayGet inst key with
  | none => return 1
  | some _ => return 0

/-- The pairs `kvs_array_foreach` visits, over `left` slots from `i`. -/
def arrayVisit (inst : KvsArray) : (left i : Nat) → List (Bytes × Bytes)
  | 0, _ => []
  | left + 1, i =>
    match (inst.item i).pair with
    | some p => p :: arrayVisit inst left (i + 1)
    | none => arrayVisit inst left (i + 1)

def kvsArrayForeach (inst : KvsArray) : Run (List (Bytes × Bytes)) :=
  pure (arrayVisit inst inst.total 0)

def arrayOps : EngineOps KvsArray where
  create := kvsArrayCreate globalArray
  set := kvsArraySet
  get := kvsArrayGet
  del := kvsArrayDel
  mod := kvsArrayMod
  exist := kvsArrayExist
  foreach := kvsArrayForeach

-- ---------------------------------------------------------------------------
-- The representation
-- ---------------------------------------------------------------------------

/-- The used slots hold exactly the pairs of the list, in order. -/
structure KvsArray.Stores (inst : KvsArray) (pairs : List (Bytes × Bytes)) : Prop where
  table : inst.table.isSome
  total : inst.total = pairs.length
  size : pairs.length ≤ kvsArraySize
  pair : ∀ i < pairs.length, (inst.item i).pair = pairs[i]?
  distinct : DistinctKeys pairs

def ArrayHolds (inst : KvsArray) (_ : Nat) (m : Contents) : Prop :=
  ∃ pairs, inst.Stores pairs ∧ mapOf pairs = m

theorem pair_eq_some (h : KvsArrayItem.pair x = some (k, v)) :
    ∃ ks vs, x.key = some ks ∧ x.value = some vs ∧ ks.bytes = k ∧ vs.bytes = v := by
  unfold KvsArrayItem.pair at h
  split at h
  · rename_i ks vs hk hv
    simp only [Option.some.injEq, Prod.mk.injEq] at h
    exact ⟨ks, vs, hk, hv, h⟩
  · cases h

section
variable {inst : KvsArray} {pairs : List (Bytes × Bytes)} {k : Bytes}

theorem KvsArray.Stores.item (h : inst.Stores (a ++ (k, v) :: b)) :
    ∃ ks vs, (inst.item a.length).key = some ks ∧ (inst.item a.length).value = some vs ∧
      ks.bytes = k ∧ vs.bytes = v := by
  refine pair_eq_some ?_
  rw [h.pair a.length (by simp)]
  simp

theorem arraySearch_spec (h : inst.Stores (a ++ b)) :
    (∃ c v d, b = c ++ (k, v) :: d ∧ (∀ p ∈ c, p.1 ≠ k) ∧
      arraySearch inst k b.length a.length = some (a ++ c).length) ∨
    ((∀ p ∈ b, p.1 ≠ k) ∧ arraySearch inst k b.length a.length = none) := by
  induction b generalizing a with
  | nil => exact .inr ⟨by simp, rfl⟩
  | cons p b ih =>
    obtain ⟨k', v'⟩ := p
    obtain ⟨ks, vs, hkey, -, hbytes, -⟩ := KvsArray.Stores.item h
    simp only [List.length_cons, arraySearch, hkey, hbytes, strcmp_eq_zero]
    by_cases hk : k' = k
    · subst hk
      exact .inl ⟨[], v', b, rfl, by simp, by simp⟩
    · rw [if_neg hk]
      have hrest : inst.Stores ((a ++ [(k', v')]) ++ b) := by simpa using h
      have hih := ih hrest
      simp only [List.length_append, List.length_cons, List.length_nil, Nat.zero_add] at hih
      obtain ⟨c, v, d, rfl, hc, hfound⟩ | ⟨hb, hnone⟩ := hih
      · refine .inl ⟨(k', v') :: c, v, d, rfl, ?_, ?_⟩
        · simpa [hk] using hc
        · rw [hfound]
          simp
          omega
      · exact .inr ⟨by simpa [hk] using hb, hnone⟩

theorem arrayDelSearch_eq (h : inst.Stores (a ++ b)) :
    arrayDelSearch inst k b.length a.length = pure (arraySearch inst k b.length a.length) := by
  induction b generalizing a with
  | nil => rfl
  | cons p b ih =>
    obtain ⟨k', v'⟩ := p
    obtain ⟨ks, vs, hkey, -, hbytes, -⟩ := KvsArray.Stores.item h
    have hrest : inst.Stores ((a ++ [(k', v')]) ++ b) := by simpa using h
    have hih := ih hrest
    simp only [List.length_append, List.length_cons, List.length_nil, Nat.zero_add] at hih
    simp only [List.length_cons, arrayDelSearch, arraySearch, hkey, hbytes]
    split
    · rfl
    · exact hih

theorem arrayHole_eq (h : inst.Stores (a ++ b)) :
    arrayHole inst b.length a.length = a.length + b.length := by
  induction b generalizing a with
  | nil => rfl
  | cons p b ih =>
    obtain ⟨k', v'⟩ := p
    obtain ⟨ks, vs, hkey, -, -, -⟩ := KvsArray.Stores.item h
    have hrest : inst.Stores ((a ++ [(k', v')]) ++ b) := by simpa using h
    have hih := ih hrest
    simp only [List.length_append, List.length_cons, List.length_nil, Nat.zero_add] at hih
    simp only [List.length_cons, arrayHole, hkey, Option.isNone_some, Bool.false_eq_true, if_false]
    rw [hih]
    omega

theorem arrayVisit_eq (h : inst.Stores (a ++ b)) : arrayVisit inst b.length a.length = b := by
  induction b generalizing a with
  | nil => rfl
  | cons p b ih =>
    obtain ⟨k', v'⟩ := p
    obtain ⟨ks, vs, hkey, hvalue, hk, hv⟩ := KvsArray.Stores.item h
    have hrest : inst.Stores ((a ++ [(k', v')]) ++ b) := by simpa using h
    have hih := ih hrest
    simp only [List.length_append, List.length_cons, List.length_nil, Nat.zero_add] at hih
    simp only [List.length_cons, arrayVisit, KvsArrayItem.pair, hkey, hvalue, hk, hv, hih]

theorem arraySearch_total (h : inst.Stores pairs) (k : Bytes) :
    (∃ a v b, pairs = a ++ (k, v) :: b ∧ arraySearch inst k inst.total 0 = some a.length) ∨
    (k ∉ mapOf pairs ∧ arraySearch inst k inst.total 0 = none) := by
  rw [h.total]
  obtain ⟨c, v, d, hd, -, hfound⟩ | ⟨hnot, hnone⟩ := arraySearch_spec (a := []) (k := k) h
  · exact .inl ⟨c, v, d, hd, hfound⟩
  · refine .inr ⟨?_, hnone⟩
    rw [mem_mapOf]
    rintro ⟨v, hv⟩
    exact hnot _ hv rfl

end

-- ---------------------------------------------------------------------------
-- Edits of the table
-- ---------------------------------------------------------------------------

theorem KvsArray.Stores.replace (h : KvsArray.Stores inst (a ++ (k, v) :: b)) (c : CString) :
    (inst.setItem a.length { inst.item a.length with value := some c }).Stores
      (a ++ (k, c.bytes) :: b) := by
  obtain ⟨ks, vs, hkey, -, hk, -⟩ := KvsArray.Stores.item h
  refine ⟨h.table, ?_, ?_, ?_, ?_⟩
  · simpa [KvsArray.setItem] using h.total
  · simpa using h.size
  · intro i hi
    have hi' : i < (a ++ (k, v) :: b).length := by simpa using hi
    simp only [KvsArray.setItem]
    split
    · rename_i heq
      subst heq
      simp [KvsArrayItem.pair, hkey, hk]
    · rename_i hne
      rw [h.pair i hi']
      rcases Nat.lt_or_gt_of_ne hne with hlt | hgt
      · rw [List.getElem?_append_left hlt, List.getElem?_append_left hlt]
      · obtain ⟨d, rfl⟩ : ∃ d, i = a.length + (d + 1) := ⟨i - a.length - 1, by omega⟩
        rw [List.getElem?_append_right (by omega), List.getElem?_append_right (by omega)]
        simp
  · have := h.distinct
    simpa [DistinctKeys] using this

theorem KvsArray.Stores.push (h : KvsArray.Stores inst pairs) (hnew : ∀ p ∈ pairs, p.1 ≠ k.bytes)
    (hroom : pairs.length < kvsArraySize) :
    KvsArray.Stores { inst.setItem pairs.length ⟨some k, some v⟩ with total := inst.total + 1 }
      (pairs ++ [(k.bytes, v.bytes)]) := by
  refine ⟨h.table, by simp [h.total], by simp; omega, ?_, ?_⟩
  · intro i hi
    simp only [List.length_append, List.length_cons, List.length_nil] at hi
    simp only [KvsArray.setItem]
    split
    · rename_i heq
      simp [KvsArrayItem.pair, heq]
    · rw [List.getElem?_append_left (by omega)]
      exact h.pair i (by omega)
  · exact distinctKeys_push h.distinct hnew

/-- A deleted last pair leaves the others; any other deleted pair is replaced
by the last. -/
theorem KvsArray.Stores.remove (h : KvsArray.Stores inst (a ++ (k, v) :: b)) :
    ∃ rest, (∀ p, p ∈ rest ↔ p ∈ a ∨ p ∈ b) ∧
      KvsArray.Stores
        { (if a.length ≠ inst.total - 1 then
              inst.setItem a.length (inst.item (inst.total - 1)) else inst).setItem
            (inst.total - 1) ⟨none, none⟩ with total := inst.total - 1, idx := a.length } rest := by
  have htotal := h.total
  have hdistinct := h.distinct
  have hsize := h.size
  rcases List.eq_nil_or_concat b with rfl | ⟨b, z, rfl⟩
  · refine ⟨a, by simp, ?_⟩
    simp only [List.length_append, List.length_cons, List.length_nil] at htotal hsize
    have hlast : a.length = inst.total - 1 := by omega
    rw [if_neg (not_not.mpr hlast)]
    refine ⟨h.table, hlast.symm, by omega, ?_, ?_⟩
    · intro i hi
      simp only [KvsArray.setItem]
      rw [if_neg (by omega), h.pair i (by simp; omega), List.getElem?_append_left hi]
    · simp only [DistinctKeys, List.map_append, List.nodup_append] at hdistinct ⊢
      exact hdistinct.1
  · refine ⟨a ++ z :: b, by intro p; simp; tauto, ?_⟩
    simp only [List.concat_eq_append, List.length_append, List.length_cons, List.length_nil]
      at htotal hsize
    have hlast : inst.total - 1 = a.length + (b.length + 1) := by omega
    rw [if_pos (by omega)]
    refine ⟨?_, ?_, ?_, ?_, ?_⟩
    · exact h.table
    · simp [hlast]
    · simp; omega
    · intro i hi
      simp only [List.length_append, List.length_cons] at hi
      simp only [KvsArray.setItem, hlast]
      rw [if_neg (by omega)]
      split
      · rename_i heq
        subst heq
        rw [h.pair _ (by simp)]
        simp
      · rename_i hne
        rw [h.pair i (by simp; omega)]
        rcases Nat.lt_or_gt_of_ne hne with hlt | hgt
        · rw [List.getElem?_append_left hlt, List.getElem?_append_left hlt]
        · obtain ⟨d, rfl⟩ : ∃ d, i = a.length + (d + 1) := ⟨i - a.length - 1, by omega⟩
          have hd : d < b.length := by omega
          simp [List.getElem?_append_right, List.getElem?_append_left hd]
    · simp only [DistinctKeys, List.concat_eq_append, List.map_append, List.map_cons, List.map_nil]
        at hdistinct ⊢
      refine List.Nodup.perm (l := a.map Prod.fst ++ (b.map Prod.fst ++ [z.1])) ?_ ?_
      · grind
      · exact List.Perm.append_left _ (List.perm_append_singleton _ _)

-- ---------------------------------------------------------------------------
-- The operations
-- ---------------------------------------------------------------------------

section
variable {inst : KvsArray} {pairs : List (Bytes × Bytes)} {k v : Bytes} {rt : Runtime}

theorem kvsArrayMod_found (h : inst.Stores pairs) (hk : k ∈ mapOf pairs) (v : Bytes) :
    Triple (kvsArrayMod inst k v) rt
      (fun r rt' => Wrote ArrayHolds rt inst ((mapOf pairs).insert k v)
        (fun c => c < 0 ∧ rt.CanFail) r rt') Never := by
  obtain ⟨a, w, b, rfl, hsearch⟩ | ⟨hnot, -⟩ := arraySearch_total h k
  · simp only [kvsArrayMod, hsearch]
    refine (copyString_spec v rt).bind fun c rt' hc => ?_
    obtain ⟨hext, ⟨rfl, hfail⟩ | ⟨c, rfl, hbytes, -, -⟩⟩ := hc
    · exact Triple.pure (Wrote.unchanged hext (by decide) ⟨by decide, hfail⟩)
    · refine (freeString_spec _ rt').bind fun _ rt'' hfree => ?_
      refine Triple.pure (Wrote.done (hext.trans hfree.1) ⟨a ++ (k, v) :: b, ?_, mapOf_replace h.distinct⟩)
      simpa [hbytes] using h.replace c
  · exact absurd hk hnot

theorem kvsArrayMod_missing (h : inst.Stores pairs) (hk : k ∉ mapOf pairs) (v : Bytes) :
    kvsArrayMod inst k v = pure (1, inst) := by
  obtain ⟨a, w, b, rfl, -⟩ | ⟨-, hsearch⟩ := arraySearch_total h k
  · exact absurd (mem_mapOf.mpr ⟨w, by simp⟩) hk
  · simp only [kvsArrayMod, hsearch]

theorem kvsArraySet_spec (h : inst.Stores pairs) (v : Bytes) :
    Triple (kvsArraySet inst k v) rt
      (fun r rt' => Wrote ArrayHolds rt inst ((mapOf pairs).insert k v)
        (fun c => c < 0 ∧ (rt.CanFail ∨ k ∉ mapOf pairs ∧ ¬(mapOf pairs).keys.card < kvsArraySize))
        r rt') Never := by
  have htable : inst.table.isNone = false := by
    have := h.table
    cases ht : inst.table <;> simp_all
  simp only [kvsArraySet, htable, Bool.false_eq_true, if_false]
  by_cases hk : k ∈ mapOf pairs
  · refine (kvsArrayMod_found h hk v).bind fun r rt' hr => ?_
    obtain ⟨c, inst'⟩ := r
    obtain ⟨hext, ⟨hzero, hholds⟩ | ⟨hne, hinst, hneg, hfail⟩⟩ := hr
    · simp only at hzero
      simp only [hzero, Int.le_refl, if_true]
      exact ⟨hext, .inl ⟨rfl, hholds⟩⟩
    · simp only at hneg
      simp only [Int.le_of_lt hneg, if_true]
      exact ⟨hext, .inr ⟨hne, hinst, hneg, .inl hfail⟩⟩
  · rw [kvsArrayMod_missing h hk]
    simp only [pure_bind, show ¬((1 : Int) ≤ 0) by decide, if_false]
    have htotal := h.total
    have hcard := card_keys_mapOf h.distinct
    refine Triple.ite ?_ ?_
    · intro hfull
      refine Triple.pure (Wrote.unchanged (.refl rt) (by decide) ⟨by decide, .inr ⟨hk, ?_⟩⟩)
      omega
    · intro hroom
      refine (copyString_spec k rt).bind fun c rt' hc => ?_
      obtain ⟨hext, ⟨rfl, hfail⟩ | ⟨kcopy, rfl, hkbytes, -, -⟩⟩ := hc
      · exact Triple.pure (Wrote.unchanged hext (by decide) ⟨by decide, .inl hfail⟩)
      refine (copyString_spec v rt').bind fun c rt'' hc => ?_
      obtain ⟨hext', ⟨rfl, hfail⟩ | ⟨kvalue, rfl, hvbytes, -, -⟩⟩ := hc
      · refine (kvsFree_spec _ _).bind fun _ _ hfree => ?_
        exact Triple.pure (Wrote.unchanged ((hext.trans hext').trans hfree.1) (by decide)
          ⟨by decide, .inl (hext.canFail hfail)⟩)
      have hhole : arrayHole inst inst.total 0 = inst.total := by
        have := arrayHole_eq (a := []) (b := pairs) h
        simpa [htotal] using this
      have hnew : ∀ p ∈ pairs, p.1 ≠ kcopy.bytes := by
        rintro p hp heq
        exact hk (mem_mapOf.mpr ⟨p.2, by rw [← hkbytes, ← heq]; exact hp⟩)
      have hstored := h.push (v := kvalue) hnew (by omega)
      simp only [hhole, Nat.lt_irrefl, if_false, true_and]
      rw [if_pos (by omega)]
      refine Triple.pure (Wrote.done (hext.trans hext') ⟨pairs ++ [(k, v)], ?_, ?_⟩)
      · rw [hkbytes, hvbytes] at hstored
        rw [htotal]
        rw [htotal] at hstored
        exact hstored
      · rw [hkbytes] at hnew
        exact mapOf_push h.distinct hnew

theorem mapOf_removed {a b rest : List (Bytes × Bytes)} (h : DistinctKeys (a ++ (k, v) :: b))
    (h' : DistinctKeys rest) (hmem : ∀ p, p ∈ rest ↔ p ∈ a ∨ p ∈ b) :
    mapOf rest = (mapOf (a ++ (k, v) :: b)).erase k := by
  refine mapOf_erase h h' fun p => ?_
  simp only [DistinctKeys, List.map_append, List.map_cons, List.nodup_append,
    List.nodup_cons, List.mem_map, List.mem_cons] at h
  simp only [hmem, List.mem_append, List.mem_cons]
  grind

theorem kvsArrayDel_found (h : inst.Stores pairs) (hk : k ∈ mapOf pairs) :
    Triple (kvsArrayDel inst k) rt
      (fun r rt' => Wrote ArrayHolds rt inst ((mapOf pairs).erase k) (fun _ => False) r rt')
      Never := by
  have hdel : arrayDelSearch inst k inst.total 0 = pure (arraySearch inst k inst.total 0) := by
    rw [h.total]
    exact arrayDelSearch_eq (a := []) h
  obtain ⟨a, w, b, rfl, hsearch⟩ | ⟨hnot, -⟩ := arraySearch_total h k
  · simp only [kvsArrayDel, hdel, hsearch, pure_bind]
    refine (freeString_spec _ rt).bind fun _ rt' hfree => ?_
    refine (freeString_spec _ rt').bind fun _ rt'' hfree' => ?_
    obtain ⟨rest, hmem, hstored⟩ := h.remove
    refine Triple.pure (Wrote.done (hfree.1.trans hfree'.1) ⟨rest, hstored, ?_⟩)
    exact mapOf_removed h.distinct hstored.distinct hmem
  · exact absurd hk hnot

theorem kvsArrayDel_missing (h : inst.Stores pairs) (hk : k ∉ mapOf pairs) :
    kvsArrayDel inst k = pure (1, inst) := by
  have hdel : arrayDelSearch inst k inst.total 0 = pure (arraySearch inst k inst.total 0) := by
    rw [h.total]
    exact arrayDelSearch_eq (a := []) h
  obtain ⟨a, w, b, rfl, -⟩ | ⟨-, hsearch⟩ := arraySearch_total h k
  · exact absurd (mem_mapOf.mpr ⟨w, by simp⟩) hk
  · simp only [kvsArrayDel, hdel, hsearch, pure_bind]

theorem kvsArrayGet_eq (h : inst.Stores pairs) (k : Bytes) :
    kvsArrayGet inst k = pure ((mapOf pairs).lookup k) := by
  obtain ⟨a, w, b, rfl, hsearch⟩ | ⟨hnot, hsearch⟩ := arraySearch_total h k
  · obtain ⟨ks, vs, -, hvalue, -, hv⟩ := KvsArray.Stores.item h
    have hlookup := (lookup_mapOf h.distinct).mpr (show (k, w) ∈ a ++ (k, w) :: b by simp)
    simp only [kvsArrayGet, hsearch, hvalue, Option.map_some, hv, hlookup]
  · simp only [kvsArrayGet, hsearch, Finmap.lookup_eq_none.mpr hnot]

theorem kvsArrayExist_eq (h : inst.Stores pairs) (k : Bytes) :
    kvsArrayExist inst k = pure (if k ∈ mapOf pairs then 0 else 1) := by
  simp only [kvsArrayExist, kvsArrayGet_eq h, pure_bind]
  cases hlookup : (mapOf pairs).lookup k with
  | none => rw [if_neg (Finmap.lookup_eq_none.mp hlookup)]
  | some w => rw [if_pos (Finmap.mem_of_lookup_eq_some hlookup)]

end

theorem array_lawful :
    Lawful arrayOps ArrayHolds (fun _ => True) (fun m => m.keys.card < kvsArraySize) 1 where
  later h _ := h
  admitted _ _ := trivial
  full := by
    rintro m k inst n v hk hroom ⟨pairs, h, hm⟩
    have hcard := card_keys_mapOf h.distinct
    have hsize := h.size
    rw [hm, keys_insert, Finset.card_insert_of_notMem (by simpa [Finmap.mem_keys] using hk)] at hcard
    omega
  create rt := by
    simp only [arrayOps, kvsArrayCreate, globalArray, Option.isSome_none, Bool.false_eq_true, if_false]
    refine (kvsMalloc_spec rt).bind fun r rt' h => ?_
    obtain ⟨hext, ⟨rfl, hfail⟩ | ⟨rfl, -⟩⟩ := h
    · exact ⟨hext, .inr ⟨by decide, hfail⟩⟩
    · refine ⟨hext, .inl ⟨rfl, [], ⟨rfl, rfl, Nat.zero_le _, ?_, .nil⟩, rfl⟩⟩
      intro i hi
      exact absurd hi (Nat.not_lt_zero i)
  set := by
    rintro inst rt m k v ⟨pairs, h, rfl⟩ -
    exact kvsArraySet_spec h v
  mod := by
    rintro inst rt m k v ⟨pairs, h, rfl⟩ - hk
    exact kvsArrayMod_found h hk v
  mod_missing := by
    rintro inst rt m k v ⟨pairs, h, rfl⟩ - hk
    simp only [arrayOps, kvsArrayMod_missing h hk]
    exact ⟨rfl, rfl⟩
  del := by
    rintro inst rt m k ⟨pairs, h, rfl⟩ - hk
    exact kvsArrayDel_found h hk
  del_missing := by
    rintro inst rt m k ⟨pairs, h, rfl⟩ - hk
    simp only [arrayOps, kvsArrayDel_missing h hk]
    exact ⟨rfl, rfl⟩
  get := by
    rintro inst rt m k ⟨pairs, h, rfl⟩ -
    simp only [arrayOps, kvsArrayGet_eq h]
    exact ⟨rfl, rfl⟩
  exist := by
    rintro inst rt m k ⟨pairs, h, rfl⟩ -
    simp only [arrayOps, kvsArrayExist_eq h]
    refine ⟨rfl, ?_⟩
    split <;> simp_all
  foreach := by
    rintro inst rt m ⟨pairs, h, rfl⟩
    have hvisit : arrayVisit inst inst.total 0 = pairs := by
      rw [h.total]
      exact arrayVisit_eq (a := []) h
    simp only [arrayOps, kvsArrayForeach, hvisit]
    exact ⟨rfl, h.distinct, rfl⟩

end KvStore
