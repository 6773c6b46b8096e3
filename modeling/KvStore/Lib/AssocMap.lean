import Mathlib.Data.Finmap

/-!
# Finite maps and the lists that hold them

A finite map is Mathlib's `Finmap`; a data structure that stores pairs is
read as the list of its pairs. The lemmas say which map a list holds and how
an edit of the list, described only by the pairs it contains, edits the map.
-/

namespace Lib

abbrev Map (κ ν : Type) := Finmap fun _ : κ => ν

/-- The map a list of pairs holds; an earlier pair hides a later one. -/
def mapOf {κ ν : Type} [DecidableEq κ] (pairs : List (κ × ν)) : Map κ ν :=
  (pairs.map fun p => (⟨p.1, p.2⟩ : Sigma fun _ : κ => ν)).toFinmap

def DistinctKeys {κ ν : Type} (pairs : List (κ × ν)) : Prop := (pairs.map Prod.fst).Nodup

section
variable {κ ν : Type} {pairs pairs' : List (κ × ν)} {k : κ} {v : ν}

@[simp] theorem DistinctKeys.nil : DistinctKeys ([] : List (κ × ν)) := List.nodup_nil

theorem distinctKeys_cons :
    DistinctKeys ((k, v) :: pairs) ↔ (∀ p ∈ pairs, p.1 ≠ k) ∧ DistinctKeys pairs := by
  simp only [DistinctKeys, List.map_cons, List.nodup_cons, List.mem_map, not_exists, not_and,
    ne_eq]

theorem distinctKeys_push (h : DistinctKeys pairs) (hnew : ∀ p ∈ pairs, p.1 ≠ k) :
    DistinctKeys (pairs ++ [(k, v)]) := by
  simp only [DistinctKeys, List.map_append, List.map_cons, List.map_nil, List.nodup_append] at h ⊢
  refine ⟨h, by simp, ?_⟩
  simp only [List.mem_map, List.mem_singleton]
  rintro x ⟨p, hp, rfl⟩ y rfl
  exact hnew p hp

variable [DecidableEq κ]

@[simp] theorem mapOf_nil : mapOf ([] : List (κ × ν)) = ∅ := rfl

theorem mapOf_cons : mapOf ((k, v) :: pairs) = (mapOf pairs).insert k v := by
  simp [mapOf, Finmap.toFinmap_cons]

theorem lookup_mapOf (h : DistinctKeys pairs) :
    (mapOf pairs).lookup k = some v ↔ (k, v) ∈ pairs := by
  induction pairs with
  | nil => simp
  | cons p rest ih =>
    obtain ⟨a, b⟩ := p
    obtain ⟨ha, hrest⟩ := distinctKeys_cons.mp h
    rw [mapOf_cons]
    by_cases hk : k = a
    · subst hk
      have hnot : (k, v) ∉ rest := fun hm => ha _ hm rfl
      simp [hnot, eq_comm]
    · rw [Finmap.lookup_insert_of_ne _ hk, ih hrest]
      simp [hk]

theorem mem_mapOf : k ∈ mapOf pairs ↔ ∃ v, (k, v) ∈ pairs := by
  induction pairs with
  | nil => simp [Finmap.notMem_empty]
  | cons p rest ih =>
    obtain ⟨a, b⟩ := p
    rw [mapOf_cons, Finmap.mem_insert, ih]
    constructor
    · rintro (rfl | ⟨v, hv⟩)
      · exact ⟨b, by simp⟩
      · exact ⟨v, List.mem_cons_of_mem _ hv⟩
    · rintro ⟨v, hv⟩
      rcases List.mem_cons.mp hv with h | hv
      · exact .inl (by simpa using (Prod.mk.inj h).1)
      · exact .inr ⟨v, hv⟩

theorem map_ext {m m' : Map κ ν} (h : ∀ k v, m.lookup k = some v ↔ m'.lookup k = some v) :
    m = m' := Finmap.ext_lookup fun k => Option.ext fun v => h k v

theorem lookup_insert_iff {m : Map κ ν} {a : κ} {b : ν} :
    (m.insert a b).lookup k = some v ↔ (k = a ∧ v = b) ∨ (k ≠ a ∧ m.lookup k = some v) := by
  by_cases h : k = a
  · subst h; simp [eq_comm]
  · simp [h, Finmap.lookup_insert_of_ne]

theorem lookup_erase_iff {m : Map κ ν} {a : κ} :
    (m.erase a).lookup k = some v ↔ k ≠ a ∧ m.lookup k = some v := by
  by_cases h : k = a
  · subst h; simp
  · simp [h, Finmap.lookup_erase_ne]

theorem mapOf_insert (h : DistinctKeys pairs) (h' : DistinctKeys pairs')
    (hmem : ∀ p, p ∈ pairs' ↔ p = (k, v) ∨ (p.1 ≠ k ∧ p ∈ pairs)) :
    mapOf pairs' = (mapOf pairs).insert k v :=
  map_ext fun a b => by
    rw [lookup_mapOf h', lookup_insert_iff, lookup_mapOf h, hmem]
    simp

theorem mapOf_replace {a b : List (κ × ν)} {w : ν} (h : DistinctKeys (a ++ (k, w) :: b)) :
    mapOf (a ++ (k, v) :: b) = (mapOf (a ++ (k, w) :: b)).insert k v := by
  have hsame : DistinctKeys (a ++ (k, v) :: b) := by simpa [DistinctKeys] using h
  refine mapOf_insert h hsame fun p => ?_
  simp only [DistinctKeys, List.map_append, List.map_cons, List.nodup_append,
    List.nodup_cons, List.mem_map, List.mem_cons] at h
  simp only [List.mem_append, List.mem_cons]
  grind

theorem mapOf_push (h : DistinctKeys pairs) (hnew : ∀ p ∈ pairs, p.1 ≠ k) :
    mapOf (pairs ++ [(k, v)]) = (mapOf pairs).insert k v := by
  refine mapOf_insert h (distinctKeys_push h hnew) fun p => ?_
  simp only [List.mem_append, List.mem_singleton]
  constructor
  · rintro (hp | rfl)
    · exact .inr ⟨hnew p hp, hp⟩
    · exact .inl rfl
  · rintro (rfl | ⟨-, hp⟩)
    · exact .inr rfl
    · exact .inl hp

theorem mapOf_erase (h : DistinctKeys pairs) (h' : DistinctKeys pairs')
    (hmem : ∀ p, p ∈ pairs' ↔ p.1 ≠ k ∧ p ∈ pairs) :
    mapOf pairs' = (mapOf pairs).erase k :=
  map_ext fun a b => by
    rw [lookup_mapOf h', lookup_erase_iff, lookup_mapOf h, hmem]

theorem keys_mapOf : (mapOf pairs).keys = (pairs.map Prod.fst).toFinset := by
  ext k
  rw [Finmap.mem_keys, mem_mapOf]
  simp

theorem card_keys_mapOf (h : DistinctKeys pairs) : (mapOf pairs).keys.card = pairs.length := by
  rw [keys_mapOf, List.toFinset_card_of_nodup h, List.length_map]

theorem keys_insert {m : Map κ ν} : (m.insert k v).keys = insert k m.keys := by
  ext a
  simp [Finmap.mem_keys]

-- ---------------------------------------------------------------------------
-- Sorted lists of pairs
-- ---------------------------------------------------------------------------

def SortedKeys (lt : κ → κ → Prop) (pairs : List (κ × ν)) : Prop :=
  pairs.Pairwise fun p q => lt p.1 q.1

variable {lt : κ → κ → Prop} {a b : List (κ × ν)}

omit [DecidableEq κ] in
theorem SortedKeys.distinct (hirr : ∀ k, ¬lt k k) (h : SortedKeys lt pairs) :
    DistinctKeys pairs := by
  rw [DistinctKeys, List.Nodup, List.pairwise_map]
  refine h.imp fun {p q} hlt heq => ?_
  rw [heq] at hlt
  exact hirr _ hlt

omit [DecidableEq κ] in
theorem SortedKeys.insert (h : SortedKeys lt (a ++ b)) (ha : ∀ p ∈ a, lt p.1 k)
    (hb : ∀ p ∈ b, lt k p.1) (v : ν) : SortedKeys lt (a ++ (k, v) :: b) := by
  simp only [SortedKeys, List.pairwise_append, List.pairwise_cons, List.mem_cons] at h ⊢
  obtain ⟨hsa, hsb, hab⟩ := h
  refine ⟨hsa, ⟨hb, hsb⟩, ?_⟩
  rintro p hp q (rfl | hq)
  · exact ha p hp
  · exact hab p hp q hq

omit [DecidableEq κ] in
theorem SortedKeys.remove (h : SortedKeys lt (a ++ p :: b)) : SortedKeys lt (a ++ b) := by
  refine List.Pairwise.sublist ?_ h
  exact List.Sublist.append_left (List.sublist_cons_self p b) a

omit [DecidableEq κ] in
theorem SortedKeys.replace (h : SortedKeys lt (a ++ (k, w) :: b)) (v : ν) :
    SortedKeys lt (a ++ (k, v) :: b) := by
  simp only [SortedKeys, List.pairwise_append, List.pairwise_cons, List.mem_cons] at h ⊢
  obtain ⟨ha, ⟨hk, hb⟩, hab⟩ := h
  refine ⟨ha, ⟨hk, hb⟩, ?_⟩
  rintro p hp q (rfl | hq)
  · exact hab p hp (k, w) (.inl rfl)
  · exact hab p hp q (.inr hq)

theorem notMem_between (hirr : ∀ k, ¬lt k k) (ha : ∀ p ∈ a, lt p.1 k) (hb : ∀ p ∈ b, lt k p.1) :
    k ∉ mapOf (a ++ b) := by
  rw [mem_mapOf]
  rintro ⟨v, hv⟩
  rcases List.mem_append.mp hv with hm | hm
  · exact hirr k (ha _ hm)
  · exact hirr k (hb _ hm)

/-- A sorted list is determined by the map it holds. -/
theorem SortedKeys.unique {pairs pairs' : List (κ × ν)} (hirr : ∀ k, ¬lt k k)
    (htrans : ∀ {i j k}, lt i j → lt j k → lt i k) (h : SortedKeys lt pairs)
    (h' : SortedKeys lt pairs') (hmap : mapOf pairs = mapOf pairs') : pairs = pairs' := by
  have hnodup : pairs.Nodup := List.Nodup.of_map _ (h.distinct hirr)
  have hnodup' : pairs'.Nodup := List.Nodup.of_map _ (h'.distinct hirr)
  have hperm : pairs.Perm pairs' := by
    refine (List.perm_ext_iff_of_nodup hnodup hnodup').mpr fun p => ?_
    obtain ⟨k, v⟩ := p
    rw [← lookup_mapOf (h.distinct hirr), ← lookup_mapOf (h'.distinct hirr), hmap]
  refine hperm.eq_of_pairwise ?_ h h'
  exact fun p q _ _ hpq hqp => absurd (htrans hpq hqp) (hirr _)

theorem mapOf_insert_between (hirr : ∀ k, ¬lt k k) (h : SortedKeys lt (a ++ b))
    (ha : ∀ p ∈ a, lt p.1 k) (hb : ∀ p ∈ b, lt k p.1) (v : ν) :
    mapOf (a ++ (k, v) :: b) = (mapOf (a ++ b)).insert k v := by
  refine mapOf_insert (h.distinct hirr) ((h.insert ha hb v).distinct hirr) fun p => ?_
  have hne : p ∈ a ++ b → p.1 ≠ k := by
    rintro hp rfl
    exact notMem_between hirr ha hb (mem_mapOf.mpr ⟨p.2, hp⟩)
  simp only [List.mem_append, List.mem_cons] at hne ⊢
  tauto

theorem mapOf_remove (h : DistinctKeys (a ++ (k, v) :: b)) :
    mapOf (a ++ b) = (mapOf (a ++ (k, v) :: b)).erase k := by
  have hdistinct : DistinctKeys (a ++ b) := by
    refine List.Nodup.sublist ?_ h
    exact (List.Sublist.append_left (List.sublist_cons_self _ b) a).map Prod.fst
  refine mapOf_erase h hdistinct fun p => ?_
  simp only [DistinctKeys, List.map_append, List.map_cons, List.nodup_append, List.nodup_cons,
    List.mem_map, List.mem_cons] at h
  simp only [List.mem_append, List.mem_cons]
  grind

end

end Lib
