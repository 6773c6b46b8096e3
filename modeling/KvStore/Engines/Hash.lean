import KvStore.Engines.Interface

/-!
# The hash engine

`src/engines/kvs_hash.c`. A table of chained buckets; a new node goes to the
head of its bucket. The bucket index is the sum of the key's bytes as signed
characters, reduced with C's remainder, so it is negative when the sum is.
-/

namespace KvStore

open Lib

def maxTableSize : Nat := 1024

structure HashNode where
  ptr : Ptr
  key : CString
  value : CString

structure KvsHash where
  nodes : Option Ptr
  /-- The nodes along the `i`-th bucket. -/
  bucket : Nat → List HashNode
  maxSlots : Nat
  count : Int

/-- The loop of `_hash` with its 32-bit `sum`. -/
def hashSum (sum : Int) : Bytes → Int
  | [] => sum
  | b :: key => hashSum ((sum + b.toInt8.toInt).bmod (2 ^ 32)) key

/-- `_hash`. -/
def hashIndex (key : Bytes) (size : Nat) : Int := (hashSum 0 key).tmod size

/-- `&hash->nodes[idx]`; outside the table the access is undefined. -/
def bucketAt (idx : Int) : Run Nat :=
  if 0 ≤ idx ∧ idx < maxTableSize then pure idx.toNat else throw .undefined

namespace KvsHash

def setBucket (hash : KvsHash) (i : Nat) (nodes : List HashNode) : KvsHash :=
  { hash with bucket := fun j => if j = i then nodes else hash.bucket j }

end KvsHash

def kvsHashCreate : Run (Int × KvsHash) := do
  match ← kvsMalloc with
  | none => return (-1, { nodes := none, bucket := fun _ => [], maxSlots := 0, count := 0 })
  | some nodes =>
    return (0, { nodes := some nodes, bucket := fun _ => [], maxSlots := maxTableSize, count := 0 })

def createNode (key value : Bytes) : Run (Option HashNode) := do
  match ← kvsMalloc with
  | none => return none
  | some node =>
    match ← copyString key with
    | none =>
      kvsFree node
      return none
    | some kcopy =>
      match ← copyString value with
      | none =>
        kvsFree kcopy.ptr
        kvsFree node
        return none
      | some kvalue => return some ⟨node, kcopy, kvalue⟩

def hashNodeFree (node : HashNode) : Run Unit := do
  kvsFree node.key.ptr
  kvsFree node.value.ptr
  kvsFree node.ptr

/-- The inner loop of `kvs_hash_destory`. -/
def chainFree : List HashNode → Run Unit
  | [] => pure ()
  | node :: rest => do
    hashNodeFree node
    chainFree rest

/-- The loop of `kvs_hash_destory`, over `left` buckets from `i`. -/
def hashClear : (left i : Nat) → KvsHash → Run KvsHash
  | 0, _, hash => pure hash
  | left + 1, i, hash => do
    chainFree (hash.bucket i)
    hashClear left (i + 1) (hash.setBucket i [])

def kvsHashDestory (hash : KvsHash) : Run KvsHash := do
  let hash ← hashClear hash.maxSlots 0 hash
  match hash.nodes with
  | none => pure ()
  | some nodes => kvsFree nodes
  return { hash with nodes := none, maxSlots := 0, count := 0 }

def chainSearch (key : Bytes) : List HashNode → Option (List HashNode × HashNode × List HashNode)
  | [] => none
  | node :: rest =>
    if strcmp node.key.bytes key = 0 then some ([], node, rest)
    else (chainSearch key rest).map fun r => (node :: r.1, r.2)

def kvsHashSet (hash : KvsHash) (key value : Bytes) : Run (Int × KvsHash) := do
  let i ← bucketAt (hashIndex key maxTableSize)
  match chainSearch key (hash.bucket i) with
  | some (before, node, behind) =>
    match ← copyString value with
    | none => return (-2, hash)
    | some newValue =>
      kvsFree node.value.ptr
      return (0, hash.setBucket i (before ++ { node with value := newValue } :: behind))
  | none =>
    match ← createNode key value with
    | none => return (-1, hash)
    | some newNode =>
      return (0, { hash.setBucket i (newNode :: hash.bucket i) with count := hash.count + 1 })

def kvsHashGet (hash : KvsHash) (key : Bytes) : Run (Option Bytes) := do
  let i ← bucketAt (hashIndex key maxTableSize)
  match chainSearch key (hash.bucket i) with
  | some (_, node, _) => return some node.value.bytes
  | none => return none

def kvsHashMod (hash : KvsHash) (key value : Bytes) : Run (Int × KvsHash) := do
  let i ← bucketAt (hashIndex key maxTableSize)
  match chainSearch key (hash.bucket i) with
  | none => return (1, hash)
  | some (before, node, behind) =>
    match ← copyString value with
    | none => return (-2, hash)
    | some kvalue =>
      kvsFree node.value.ptr
      return (0, hash.setBucket i (before ++ { node with value := kvalue } :: behind))

def kvsHashDel (hash : KvsHash) (key : Bytes) : Run (Int × KvsHash) := do
  let i ← bucketAt (hashIndex key maxTableSize)
  match hash.bucket i with
  | [] => return (-1, hash)
  | head :: rest =>
    if strcmp head.key.bytes key = 0 then
      hashNodeFree head
      return (0, { hash.setBucket i rest with count := hash.count - 1 })
    else
      match chainSearch key rest with
      | none => return (-1, hash)
      | some (before, tmp, behind) =>
        hashNodeFree tmp
        return (0, { hash.setBucket i (head :: (before ++ behind)) with count := hash.count - 1 })

def kvsHashExist (hash : KvsHash) (key : Bytes) : Run Int := do
  match ← kvsHashGet hash key with
  | none => return 1
  | some _ => return 0

def HashNode.pair (node : HashNode) : Bytes × Bytes := (node.key.bytes, node.value.bytes)

def kvsHashForeach (hash : KvsHash) : Run (List (Bytes × Bytes)) :=
  pure ((List.range hash.maxSlots).flatMap fun i => (hash.bucket i).map HashNode.pair)

def hashOps : EngineOps KvsHash where
  create := kvsHashCreate
  set := kvsHashSet
  get := kvsHashGet
  del := kvsHashDel
  mod := kvsHashMod
  exist := kvsHashExist
  foreach := kvsHashForeach

/-- A key whose bucket index is in the table. -/
def HashAdmits (key : Bytes) : Prop := 0 ≤ hashIndex key maxTableSize

instance : DecidablePred HashAdmits := fun _ => inferInstanceAs (Decidable (0 ≤ _))

-- ---------------------------------------------------------------------------
-- The representation
-- ---------------------------------------------------------------------------

def KvsHash.pairs (hash : KvsHash) (i : Nat) : List (Bytes × Bytes) :=
  (hash.bucket i).map HashNode.pair

structure HashHolds (hash : KvsHash) (n : Nat) (m : Contents) : Prop where
  nodes : hash.nodes.isSome
  slots : hash.maxSlots = maxTableSize
  distinct : ∀ i, DistinctKeys (hash.pairs i)
  placed : ∀ i, ∀ p ∈ hash.pairs i, hashIndex p.1 maxTableSize = i
  stored : ∀ k v, m.lookup k = some v ↔ ∃ i < maxTableSize, (k, v) ∈ hash.pairs i

theorem hashIndex_lt (key : Bytes) : hashIndex key maxTableSize < maxTableSize := by
  exact Int.tmod_lt_of_pos _ (by decide)

theorem bucketAt_eq (h : HashAdmits k) :
    ∃ i, bucketAt (hashIndex k maxTableSize) = pure i ∧ hashIndex k maxTableSize = i ∧
      i < maxTableSize := by
  have hlt := hashIndex_lt k
  unfold HashAdmits at h
  refine ⟨(hashIndex k maxTableSize).toNat, if_pos ⟨h, hlt⟩, by omega, by omega⟩

theorem chainSearch_some (h : chainSearch k nodes = some (before, node, behind)) :
    nodes = before ++ node :: behind ∧ node.key.bytes = k := by
  induction nodes generalizing before with
  | nil => cases h
  | cons x nodes ih =>
    simp only [chainSearch, strcmp_eq_zero] at h
    split at h
    · rename_i hx
      simp only [Option.some.injEq, Prod.mk.injEq] at h
      obtain ⟨rfl, rfl, rfl⟩ := h
      exact ⟨rfl, hx⟩
    · simp only [Option.map_eq_some_iff] at h
      obtain ⟨⟨before', node', behind'⟩, hrest, h⟩ := h
      simp only [Prod.mk.injEq] at h
      obtain ⟨rfl, rfl, rfl⟩ := h
      obtain ⟨rfl, hk⟩ := ih hrest
      exact ⟨rfl, hk⟩

theorem chainSearch_none (h : chainSearch k nodes = none) : ∀ node ∈ nodes, node.key.bytes ≠ k := by
  induction nodes with
  | nil => simp
  | cons x nodes ih =>
    simp only [chainSearch, strcmp_eq_zero] at h
    split at h
    · cases h
    · rename_i hx
      simp only [Option.map_eq_none_iff] at h
      simpa [hx] using ih h

section
variable {hash : KvsHash} {m : Contents} {n i : Nat} {k v : Bytes} {nodes : List HashNode}

@[simp] theorem pairs_setBucket : (hash.setBucket i nodes).pairs j =
    if j = i then nodes.map HashNode.pair else hash.pairs j := by
  simp only [KvsHash.pairs, KvsHash.setBucket]
  split <;> rfl

theorem HashHolds.lookup (h : HashHolds hash n m) (hk : hashIndex k maxTableSize = i)
    (hi : i < maxTableSize) : m.lookup k = some v ↔ (k, v) ∈ hash.pairs i := by
  rw [h.stored]
  constructor
  · rintro ⟨j, hj, hmem⟩
    have hplaced := h.placed j _ hmem
    have : i = j := by
      simp only [hk] at hplaced
      omega
    rw [this]
    exact hmem
  · intro hmem
    exact ⟨i, hi, hmem⟩

theorem HashHolds.setBucket (h : HashHolds hash n m) (hi : i < maxTableSize)
    (hdistinct : DistinctKeys (nodes.map HashNode.pair))
    (hplaced : ∀ p ∈ nodes.map HashNode.pair, hashIndex p.1 maxTableSize = i)
    (hstored : ∀ a b, m'.lookup a = some b ↔
      (a, b) ∈ nodes.map HashNode.pair ∨ hashIndex a maxTableSize ≠ i ∧ m.lookup a = some b)
    (count : Int) (n' : Nat) :
    HashHolds { hash.setBucket i nodes with count := count } n' m' := by
  refine ⟨h.nodes, h.slots, ?_, ?_, ?_⟩
  · intro j
    show DistinctKeys ((hash.setBucket i nodes).pairs j)
    rw [pairs_setBucket]
    split
    · exact hdistinct
    · exact h.distinct j
  · intro j
    show ∀ p ∈ (hash.setBucket i nodes).pairs j, _
    rw [pairs_setBucket]
    split
    · rename_i hj
      rw [hj]
      exact hplaced
    · exact h.placed j
  · intro a b
    show _ ↔ ∃ j < maxTableSize, (a, b) ∈ (hash.setBucket i nodes).pairs j
    rw [hstored, h.stored]
    constructor
    · rintro (hmem | ⟨hne, j, hj, hmem⟩)
      · exact ⟨i, hi, by simpa using hmem⟩
      · have hji : j ≠ i := by
          rintro rfl
          exact hne (h.placed _ _ hmem)
        exact ⟨j, hj, by simpa [hji] using hmem⟩
    · rintro ⟨j, hj, hmem⟩
      rw [pairs_setBucket] at hmem
      split at hmem
      · exact .inl hmem
      · rename_i hji
        have hplaced := h.placed j _ hmem
        refine .inr ⟨?_, j, hj, hmem⟩
        simp only at hplaced
        omega

theorem HashHolds.insert (h : HashHolds hash n m) (hk : hashIndex k maxTableSize = i)
    (hi : i < maxTableSize) (hdistinct : DistinctKeys (nodes.map HashNode.pair))
    (hmem : ∀ p, p ∈ nodes.map HashNode.pair ↔ p = (k, v) ∨ p.1 ≠ k ∧ p ∈ hash.pairs i)
    (count : Int) (n' : Nat) :
    HashHolds { hash.setBucket i nodes with count := count } n' (m.insert k v) := by
  refine h.setBucket hi hdistinct ?_ ?_ count n'
  · intro p hp
    obtain rfl | ⟨-, hp⟩ := (hmem p).mp hp
    · exact hk
    · exact h.placed i p hp
  · intro a b
    rw [lookup_insert_iff, hmem]
    by_cases ha : hashIndex a maxTableSize = i
    · rw [h.lookup ha hi]
      simp [ha]
    · have hak : a ≠ k := by
        rintro rfl
        exact ha hk
      have hout : (a, b) ∉ hash.pairs i := fun hp => ha (h.placed i _ hp)
      simp [ha, hak, hout]

theorem HashHolds.erase (h : HashHolds hash n m) (hk : hashIndex k maxTableSize = i)
    (hi : i < maxTableSize) (hdistinct : DistinctKeys (nodes.map HashNode.pair))
    (hmem : ∀ p, p ∈ nodes.map HashNode.pair ↔ p.1 ≠ k ∧ p ∈ hash.pairs i)
    (count : Int) (n' : Nat) :
    HashHolds { hash.setBucket i nodes with count := count } n' (m.erase k) := by
  refine h.setBucket hi hdistinct ?_ ?_ count n'
  · intro p hp
    exact h.placed i p ((hmem p).mp hp).2
  · intro a b
    rw [lookup_erase_iff, hmem]
    by_cases ha : hashIndex a maxTableSize = i
    · rw [h.lookup ha hi]
      simp [ha]
    · have hak : a ≠ k := by
        rintro rfl
        exact ha hk
      have hout : (a, b) ∉ hash.pairs i := fun hp => ha (h.placed i _ hp)
      simp [ha, hak, hout]

/-- What a search along the key's bucket says about the map. -/
theorem HashHolds.search (h : HashHolds hash n m) (hk : hashIndex k maxTableSize = i)
    (hi : i < maxTableSize) :
    (∃ before node behind, chainSearch k (hash.bucket i) = some (before, node, behind) ∧
      hash.bucket i = before ++ node :: behind ∧ node.key.bytes = k ∧
      m.lookup k = some node.value.bytes) ∨
    (chainSearch k (hash.bucket i) = none ∧ m.lookup k = none) := by
  cases hsearch : chainSearch k (hash.bucket i) with
  | none =>
    refine .inr ⟨rfl, ?_⟩
    have hnone := chainSearch_none hsearch
    rw [Option.eq_none_iff_forall_ne_some]
    intro v hv
    rw [h.lookup hk hi] at hv
    simp only [KvsHash.pairs, List.mem_map, HashNode.pair, Prod.mk.injEq] at hv
    obtain ⟨node, hnode, hkey, -⟩ := hv
    exact hnone node hnode hkey
  | some r =>
    obtain ⟨before, node, behind⟩ := r
    obtain ⟨hbucket, hkey⟩ := chainSearch_some hsearch
    refine .inl ⟨before, node, behind, rfl, hbucket, hkey, ?_⟩
    rw [h.lookup hk hi, KvsHash.pairs, hbucket]
    simp [HashNode.pair, hkey]

end

-- ---------------------------------------------------------------------------
-- The operations
-- ---------------------------------------------------------------------------

section
variable {hash : KvsHash} {m : Contents} {n i : Nat} {k : Bytes} {rt : Runtime}

theorem HashHolds.replace (h : HashHolds hash n m) (hk : hashIndex k maxTableSize = i)
    (hi : i < maxTableSize) (hbucket : hash.bucket i = before ++ node :: behind)
    (hkey : node.key.bytes = k) (c : CString) (n' : Nat) :
    HashHolds (hash.setBucket i (before ++ { node with value := c } :: behind)) n'
      (m.insert k c.bytes) := by
  have hdistinct := h.distinct i
  have hpairs : hash.pairs i =
      before.map HashNode.pair ++ (k, node.value.bytes) :: behind.map HashNode.pair := by
    simp [KvsHash.pairs, hbucket, HashNode.pair, hkey]
  rw [hpairs] at hdistinct
  refine h.insert hk hi ?_ ?_ hash.count n'
  · simpa [DistinctKeys, HashNode.pair, hkey] using hdistinct
  · intro p
    rw [hpairs]
    simp only [DistinctKeys, List.map_append, List.map_cons, List.nodup_append, List.nodup_cons,
      List.mem_map, List.mem_cons, List.mem_append, HashNode.pair, hkey] at hdistinct ⊢
    grind

theorem kvsHashMod_found (h : HashHolds hash rt.mallocs m) (ha : HashAdmits k) (hk : k ∈ m)
    (v : Bytes) :
    Triple (kvsHashMod hash k v) rt
      (fun r rt' => Wrote HashHolds rt hash (m.insert k v) (fun c => c < 0 ∧ rt.CanFail) r rt')
      Never := by
  obtain ⟨i, hat, hidx, hi⟩ := bucketAt_eq ha
  obtain ⟨before, node, behind, hsearch, hbucket, hkey, -⟩ | ⟨-, hnone⟩ := h.search hidx hi
  · simp only [kvsHashMod, hat, pure_bind, hsearch]
    refine (copyString_spec v rt).bind fun c rt' hc => ?_
    obtain ⟨hext, ⟨rfl, hfail⟩ | ⟨c, rfl, rfl, -, -⟩⟩ := hc
    · exact Triple.pure (Wrote.unchanged hext (by decide) ⟨by decide, hfail⟩)
    · refine (kvsFree_spec _ rt').bind fun _ rt'' hfree => ?_
      exact Triple.pure (Wrote.done (hext.trans hfree.1) (h.replace hidx hi hbucket hkey c _))
  · exact absurd hk (Finmap.lookup_eq_none.mp hnone)

theorem kvsHashMod_missing (h : HashHolds hash n m) (ha : HashAdmits k) (hk : k ∉ m)
    (v : Bytes) : kvsHashMod hash k v = pure (1, hash) := by
  obtain ⟨i, hat, hidx, hi⟩ := bucketAt_eq ha
  obtain ⟨_, _, _, -, -, -, hsome⟩ | ⟨hsearch, -⟩ := h.search hidx hi
  · exact absurd (Finmap.mem_of_lookup_eq_some hsome) hk
  · simp only [kvsHashMod, hat, pure_bind, hsearch]

theorem createNode_spec (k v : Bytes) (rt : Runtime) :
    Triple (createNode k v) rt (fun r rt' => rt.Extends rt' ∧
      (r = none ∧ rt.CanFail ∨ ∃ node, r = some node ∧ node.pair = (k, v))) Never := by
  refine (kvsMalloc_spec rt).bind fun p rt1 hp => ?_
  obtain ⟨hext1, ⟨rfl, hfail⟩ | ⟨rfl, -⟩⟩ := hp
  · exact ⟨hext1, .inl ⟨rfl, hfail⟩⟩
  refine (copyString_spec k rt1).bind fun c rt2 hc => ?_
  obtain ⟨hext2, ⟨rfl, hfail⟩ | ⟨kcopy, rfl, hkey, -, -⟩⟩ := hc
  · refine (kvsFree_spec _ rt2).bind fun _ rt3 hfree => ?_
    exact ⟨(hext1.trans hext2).trans hfree.1, .inl ⟨rfl, hext1.canFail hfail⟩⟩
  refine (copyString_spec v rt2).bind fun c rt3 hc => ?_
  obtain ⟨hext3, ⟨rfl, hfail⟩ | ⟨kvalue, rfl, hvalue, -, -⟩⟩ := hc
  · refine (kvsFree_spec _ rt3).bind fun _ rt4 hfree => ?_
    refine (kvsFree_spec _ rt4).bind fun _ rt5 hfree' => ?_
    exact ⟨(((hext1.trans hext2).trans hext3).trans hfree.1).trans hfree'.1,
      .inl ⟨rfl, (hext1.trans hext2).canFail hfail⟩⟩
  · exact ⟨(hext1.trans hext2).trans hext3, .inr ⟨_, rfl, by simp [HashNode.pair, hkey, hvalue]⟩⟩

theorem HashHolds.push {node : HashNode} (h : HashHolds hash n m)
    (hk : hashIndex k maxTableSize = i) (hi : i < maxTableSize) (hnone : m.lookup k = none)
    (hpair : node.pair = (k, v)) (count : Int) (n' : Nat) :
    HashHolds { hash.setBucket i (node :: hash.bucket i) with count := count } n' (m.insert k v) := by
  have hnew : ∀ p ∈ hash.pairs i, p.1 ≠ k := by
    intro p hp hpk
    have : m.lookup k = some p.2 := by
      rw [h.lookup hk hi, ← hpk]
      exact hp
    rw [hnone] at this
    cases this
  refine h.insert hk hi ?_ ?_ count n'
  · rw [List.map_cons, hpair, distinctKeys_cons]
    exact ⟨hnew, h.distinct i⟩
  · intro p
    simp only [List.map_cons, hpair, List.mem_cons]
    constructor
    · rintro (rfl | hp)
      · exact .inl rfl
      · exact .inr ⟨hnew p hp, hp⟩
    · rintro (rfl | ⟨-, hp⟩)
      · exact .inl rfl
      · exact .inr hp

theorem kvsHashSet_spec (h : HashHolds hash rt.mallocs m) (ha : HashAdmits k) (v : Bytes) :
    Triple (kvsHashSet hash k v) rt
      (fun r rt' => Wrote HashHolds rt hash (m.insert k v)
        (fun c => c < 0 ∧ (rt.CanFail ∨ k ∉ m ∧ ¬True)) r rt') Never := by
  obtain ⟨i, hat, hidx, hi⟩ := bucketAt_eq ha
  obtain ⟨before, node, behind, hsearch, hbucket, hkey, -⟩ | ⟨hsearch, hnone⟩ := h.search hidx hi
  · simp only [kvsHashSet, hat, pure_bind, hsearch]
    refine (copyString_spec v rt).bind fun c rt' hc => ?_
    obtain ⟨hext, ⟨rfl, hfail⟩ | ⟨c, rfl, rfl, -, -⟩⟩ := hc
    · exact Triple.pure (Wrote.unchanged hext (by decide) ⟨by decide, .inl hfail⟩)
    · refine (kvsFree_spec _ rt').bind fun _ rt'' hfree => ?_
      exact Triple.pure (Wrote.done (hext.trans hfree.1) (h.replace hidx hi hbucket hkey c _))
  · simp only [kvsHashSet, hat, pure_bind, hsearch]
    refine (createNode_spec k v rt).bind fun r rt' hr => ?_
    obtain ⟨hext, ⟨rfl, hfail⟩ | ⟨node, rfl, hpair⟩⟩ := hr
    · exact Triple.pure (Wrote.unchanged hext (by decide) ⟨by decide, .inl hfail⟩)
    · exact Triple.pure (Wrote.done hext (h.push hidx hi hnone hpair _ _))

theorem hashNodeFree_spec (node : HashNode) (rt : Runtime) :
    Triple (hashNodeFree node) rt (fun _ rt' => rt.Extends rt') Never := by
  refine (kvsFree_spec _ rt).bind fun _ rt1 h1 => ?_
  refine (kvsFree_spec _ rt1).bind fun _ rt2 h2 => ?_
  exact (kvsFree_spec _ rt2).weaken fun _ rt3 h3 => (h1.1.trans h2.1).trans h3.1

theorem HashHolds.unlink (h : HashHolds hash n m) (hk : hashIndex k maxTableSize = i)
    (hi : i < maxTableSize) (hbucket : hash.bucket i = before ++ node :: behind)
    (hkey : node.key.bytes = k) (count : Int) (n' : Nat) :
    HashHolds { hash.setBucket i (before ++ behind) with count := count } n' (m.erase k) := by
  have hdistinct := h.distinct i
  have hpairs : hash.pairs i =
      before.map HashNode.pair ++ (k, node.value.bytes) :: behind.map HashNode.pair := by
    simp [KvsHash.pairs, hbucket, HashNode.pair, hkey]
  rw [hpairs] at hdistinct
  simp only [DistinctKeys, List.map_append, List.map_cons, List.nodup_append, List.nodup_cons,
    List.mem_map, List.mem_cons] at hdistinct
  refine h.erase hk hi ?_ ?_ count n'
  · simp only [DistinctKeys, List.map_append, List.nodup_append, List.mem_map]
    grind
  · intro p
    rw [hpairs]
    simp only [List.map_append, List.mem_append, List.mem_cons]
    grind

theorem kvsHashDel_found (h : HashHolds hash rt.mallocs m) (ha : HashAdmits k) (hk : k ∈ m) :
    Triple (kvsHashDel hash k) rt
      (fun r rt' => Wrote HashHolds rt hash (m.erase k) (fun _ => False) r rt') Never := by
  obtain ⟨i, hat, hidx, hi⟩ := bucketAt_eq ha
  obtain ⟨before, node, behind, hsearch, hbucket, hkey, -⟩ | ⟨-, hnone⟩ := h.search hidx hi
  · simp only [kvsHashDel, hat, pure_bind]
    cases hb : hash.bucket i with
    | nil => simp [hb, chainSearch] at hsearch
    | cons head rest =>
      simp only [strcmp_eq_zero]
      refine Triple.ite ?_ ?_
      · intro hhead
        refine (hashNodeFree_spec head rt).bind fun _ rt' hext => ?_
        have hb' : hash.bucket i = [] ++ head :: rest := hb
        exact Triple.pure (Wrote.done hext (h.unlink hidx hi hb' hhead (hash.count - 1) _))
      · intro hhead
        simp only [hb, chainSearch, strcmp_eq_zero, if_neg hhead, Option.map_eq_some_iff]
          at hsearch
        obtain ⟨⟨before', tmp, behind'⟩, hrest, -⟩ := hsearch
        obtain ⟨hsplit, htmp⟩ := chainSearch_some hrest
        have hb' : hash.bucket i = (head :: before') ++ tmp :: behind' := by rw [hb, hsplit]; rfl
        simp only [hrest]
        refine (hashNodeFree_spec tmp rt).bind fun _ rt' hext => ?_
        exact Triple.pure (Wrote.done hext (h.unlink hidx hi hb' htmp (hash.count - 1) _))
  · exact absurd hk (Finmap.lookup_eq_none.mp hnone)

theorem kvsHashDel_missing (h : HashHolds hash n m) (ha : HashAdmits k) (hk : k ∉ m) :
    kvsHashDel hash k = pure (-1, hash) := by
  obtain ⟨i, hat, hidx, hi⟩ := bucketAt_eq ha
  obtain ⟨_, _, _, -, -, -, hsome⟩ | ⟨hsearch, -⟩ := h.search hidx hi
  · exact absurd (Finmap.mem_of_lookup_eq_some hsome) hk
  · simp only [kvsHashDel, hat, pure_bind]
    cases hb : hash.bucket i with
    | nil => rfl
    | cons head rest =>
      simp only [hb, chainSearch] at hsearch
      split at hsearch
      · cases hsearch
      · rename_i hhead
        simp only [Option.map_eq_none_iff] at hsearch
        simp only [if_neg hhead, hsearch]

theorem kvsHashGet_eq (h : HashHolds hash n m) (ha : HashAdmits k) :
    kvsHashGet hash k = pure (m.lookup k) := by
  obtain ⟨i, hat, hidx, hi⟩ := bucketAt_eq ha
  obtain ⟨_, _, _, hsearch, -, -, hsome⟩ | ⟨hsearch, hnone⟩ := h.search hidx hi
  · simp only [kvsHashGet, hat, pure_bind, hsearch, hsome]
  · simp only [kvsHashGet, hat, pure_bind, hsearch, hnone]

theorem kvsHashExist_eq (h : HashHolds hash n m) (ha : HashAdmits k) :
    kvsHashExist hash k = pure (if k ∈ m then 0 else 1) := by
  simp only [kvsHashExist, kvsHashGet_eq h ha, pure_bind]
  cases hlookup : m.lookup k with
  | none => rw [if_neg (Finmap.lookup_eq_none.mp hlookup)]
  | some w => rw [if_pos (Finmap.mem_of_lookup_eq_some hlookup)]

theorem hash_visit (h : HashHolds hash n m) :
    DistinctKeys ((List.range hash.maxSlots).flatMap hash.pairs) ∧
      mapOf ((List.range hash.maxSlots).flatMap hash.pairs) = m := by
  have hdistinct : DistinctKeys ((List.range hash.maxSlots).flatMap hash.pairs) := by
    rw [DistinctKeys, List.map_flatMap, List.nodup_flatMap]
    refine ⟨fun i _ => h.distinct i, List.nodup_range.imp fun {i j} hne => ?_⟩
    intro k hki hkj
    simp only [List.mem_map] at hki hkj
    obtain ⟨p, hp, rfl⟩ := hki
    obtain ⟨q, hq, hqp⟩ := hkj
    have hpi := h.placed i p hp
    have hqj := h.placed j q hq
    rw [hqp, hpi] at hqj
    omega
  refine ⟨hdistinct, map_ext fun k v => ?_⟩
  rw [lookup_mapOf hdistinct, h.stored, h.slots]
  simp

end

theorem hash_lawful : Lawful hashOps HashHolds HashAdmits (fun _ => True) (-1) where
  later h _ := ⟨h.nodes, h.slots, h.distinct, h.placed, h.stored⟩
  admitted := by
    intro hash n m k h hk
    obtain ⟨v, hv⟩ := Finmap.mem_iff.mp hk
    obtain ⟨i, -, hmem⟩ := (h.stored k v).mp hv
    have := h.placed i _ hmem
    simp only at this
    simp only [HashAdmits, this]
    omega
  full := fun _ hroom => absurd trivial hroom
  create rt := by
    refine (kvsMalloc_spec rt).bind fun r rt' h => ?_
    obtain ⟨hext, ⟨rfl, hfail⟩ | ⟨rfl, -⟩⟩ := h
    · exact ⟨hext, .inr ⟨by decide, hfail⟩⟩
    · refine ⟨hext, .inl ⟨rfl, rfl, rfl, fun _ => .nil, ?_, ?_⟩⟩
      · simp [KvsHash.pairs]
      · simp [KvsHash.pairs]
  set v := fun h ha => kvsHashSet_spec h ha v
  mod v := fun h ha hk => kvsHashMod_found h ha hk v
  mod_missing := by
    intro hash rt m k v h ha hk
    simp only [hashOps, kvsHashMod_missing h ha hk]
    exact ⟨rfl, rfl⟩
  del := kvsHashDel_found
  del_missing := by
    intro hash rt m k h ha hk
    simp only [hashOps, kvsHashDel_missing h ha hk]
    exact ⟨rfl, rfl⟩
  get := by
    intro hash rt m k h ha
    simp only [hashOps, kvsHashGet_eq h ha]
    exact ⟨rfl, rfl⟩
  exist := by
    intro hash rt m k h ha
    simp only [hashOps, kvsHashExist_eq h ha]
    refine ⟨rfl, ?_⟩
    split <;> simp_all
  foreach := by
    intro hash rt m h
    exact ⟨rfl, hash_visit h⟩

-- ---------------------------------------------------------------------------
-- The range of the bucket index
-- ---------------------------------------------------------------------------

def signedSum (key : Bytes) : Int := (key.map fun b => b.toInt8.toInt).sum

theorem toInt8_bounds (b : UInt8) : -128 ≤ b.toInt8.toInt ∧ b.toInt8.toInt ≤ 127 :=
  ⟨Int8.le_toInt _, Int8.toInt_le _⟩

theorem hashSum_eq (key : Bytes) (hlow : -128 * (2 ^ 20 - key.length : Int) ≤ sum)
    (hhigh : sum ≤ 127 * (2 ^ 20 - key.length : Int)) (hlen : key.length ≤ 2 ^ 20) :
    hashSum sum key = sum + signedSum key := by
  induction key generalizing sum with
  | nil => simp [hashSum, signedSum]
  | cons b key ih =>
    have hb := toInt8_bounds b
    simp only [List.length_cons] at hlow hhigh hlen
    have hmod : (sum + b.toInt8.toInt).bmod (2 ^ 32) = sum + b.toInt8.toInt :=
      Int.bmod_eq_of_le (by omega) (by omega)
    rw [hashSum, hmod, ih (by omega) (by omega) (by omega)]
    simp only [signedSum, List.map_cons, List.sum_cons]
    omega

theorem hashIndex_eq (hsize : key.length ≤ 2 ^ 20) :
    hashIndex key maxTableSize = (signedSum key).tmod maxTableSize := by
  rw [hashIndex, hashSum_eq key (by omega) (by omega) hsize, Int.zero_add]

/-- C's remainder is negative exactly for a negative number that is no
multiple. -/
theorem hashAdmits_iff (hsize : key.length ≤ 2 ^ 20) :
    HashAdmits key ↔ 0 ≤ signedSum key ∨ (maxTableSize : Int) ∣ signedSum key := by
  have hmax : (maxTableSize : Int) = 1024 := rfl
  rw [HashAdmits, hashIndex_eq hsize, hmax]
  by_cases hneg : 0 ≤ signedSum key
  · simp only [hneg, true_or, iff_true]
    exact Int.tmod_nonneg _ hneg
  · have hopposite : (signedSum key).tmod 1024 = -((-signedSum key) % 1024) := by
      rw [← Int.tmod_eq_emod_of_nonneg (by omega), Int.neg_tmod, Int.neg_neg]
    rw [hopposite]
    omega

/-- Outside the table every operation is undefined. -/
theorem bucketAt_undefined (h : ¬HashAdmits k) :
    bucketAt (hashIndex k maxTableSize) = throw .undefined := if_neg fun hin => h hin.1

theorem hashOps_undefined (h : ¬HashAdmits k) (hash : KvsHash) (rt : Runtime) :
    hashOps.Undefined hash k rt := by
  have hget : kvsHashGet hash k rt = .error .undefined := by
    unfold kvsHashGet
    rw [bucketAt_undefined h]
    rfl
  refine ⟨fun v => ?_, fun v => ?_, ?_, hget, ?_⟩
  · simp only [hashOps, kvsHashSet, bucketAt_undefined h]
    rfl
  · simp only [hashOps, kvsHashMod, bucketAt_undefined h]
    rfl
  · simp only [hashOps, kvsHashDel, bucketAt_undefined h]
    rfl
  · simp only [hashOps, kvsHashExist, Bind.bind, StateT.bind, Except.bind, hget]

def BucketInRange (key : Bytes) : Prop :=
  0 ≤ hashIndex key maxTableSize ∧ hashIndex key maxTableSize < maxTableSize ∧
    ∀ hash rt m v, HashHolds hash rt.mallocs m →
      Triple (kvsHashSet hash key v) rt (fun r rt' => r.1 = 0 →
        Triple (kvsHashForeach r.2) rt' (fun pairs _ => (key, v) ∈ pairs ∧
          ∀ k' v', k' ≠ key → m.lookup k' = some v' → (k', v') ∈ pairs) Never) Never ∧
      Triple (kvsHashGet hash key) rt (fun _ _ => True) Never ∧
      Triple (kvsHashMod hash key v) rt (fun _ _ => True) Never ∧
      Triple (kvsHashDel hash key) rt (fun _ _ => True) Never ∧
      Triple (kvsHashExist hash key) rt (fun _ _ => True) Never

theorem HashAdmits.bucketInRange (h : HashAdmits key) : BucketInRange key := by
  refine ⟨h, hashIndex_lt key, fun hash rt m v hholds => ⟨?_, ?_, ?_, ?_, ?_⟩⟩
  · refine (hash_lawful.set v hholds h).weaken fun r rt' hr hcode => ?_
    obtain ⟨-, ⟨-, hholds'⟩ | ⟨hne, -⟩⟩ := hr
    · refine (hash_lawful.foreach hholds').weaken fun pairs _ hpairs => ?_
      obtain ⟨-, hdistinct, hmap⟩ := hpairs
      refine ⟨?_, fun k' v' hk' hv' => ?_⟩
      · rw [← lookup_mapOf hdistinct, hmap, Finmap.lookup_insert]
      · rw [← lookup_mapOf hdistinct, hmap, Finmap.lookup_insert_of_ne _ hk', hv']
    · exact absurd hcode hne
  · exact (hash_lawful.get hholds h).weaken fun _ _ _ => trivial
  · by_cases hk : key ∈ m
    · exact (hash_lawful.mod v hholds h hk).weaken fun _ _ _ => trivial
    · exact (hash_lawful.mod_missing v hholds h hk).weaken fun _ _ _ => trivial
  · by_cases hk : key ∈ m
    · exact (hash_lawful.del hholds h hk).weaken fun _ _ _ => trivial
    · exact (hash_lawful.del_missing hholds h hk).weaken fun _ _ _ => trivial
  · exact (hash_lawful.exist hholds h).weaken fun _ _ _ => trivial

/-- Of the keys a client can send, those whose characters have a negative sum
that is no multiple of the table size leave the table. -/
theorem kvsHash_inRange_iff (key : Bytes) (hsize : key.length ≤ 1024 * 1024) :
    BucketInRange key ↔ 0 ≤ signedSum key ∨ (maxTableSize : Int) ∣ signedSum key := by
  rw [← hashAdmits_iff hsize]
  exact ⟨fun h => h.1, fun h => h.bucketInRange⟩

/-- An ASCII key stays within the table. -/
theorem kvsHash_inRange_ascii : BucketInRange [107, 101, 121] :=
  (kvsHash_inRange_iff [107, 101, 121] (by decide)).mpr (.inl (by decide))

/-- A key of one byte above 127 has no bucket. -/
theorem kvsHash_outOfRange :
    0 ∉ ([200] : Bytes) ∧ hashIndex [200] maxTableSize = -56 ∧ ¬BucketInRange [200] ∧
      ∀ hash rt, kvsHashSet hash [200] [118] rt = .error .undefined := by
  refine ⟨by decide, by decide, fun h => absurd h.1 (by decide), fun hash rt => ?_⟩
  unfold kvsHashSet
  rw [bucketAt_undefined (by decide)]
  rfl

end KvStore
