import KvStore.Persistence.SnapshotFormat

/-!
# Loading a snapshot

The second pass reads the file again and inserts its records one by one. It
reads what the first pass accepted, so it can only be stopped by an engine
that refuses a record: a key loaded twice, or an array that is full.
-/

namespace KvStore

open Lib

def Maps.load (M : Maps) (r : SnapshotRecord) : Option Maps :=
  if r.key ∈ M r.engine ∨ ¬r.engine.Room (M r.engine) then none
  else some (M.put r.engine ((M r.engine).insert r.key r.value))

def Maps.loadAll (M : Maps) (records : List SnapshotRecord) : Option Maps :=
  records.foldlM Maps.load M

def SnapshotRecord.ident (r : SnapshotRecord) : EngineId × Bytes := (r.engine, r.key)

/-- Every key once per engine, and no more array records than fit. -/
structure Loadable (records : List SnapshotRecord) : Prop where
  distinct : (records.map SnapshotRecord.ident).Nodup
  room : records.countP (·.engine = .array) ≤ kvsArraySize

section
variable {M M' : Maps} {r : SnapshotRecord} {records : List SnapshotRecord} {E : Engines}
  {rt : Runtime} {rest : Bytes}

theorem Maps.load_eq_some : M.load r = some M' ↔
    r.key ∉ M r.engine ∧ r.engine.Room (M r.engine) ∧
      M' = M.put r.engine ((M r.engine).insert r.key r.value) := by
  unfold Maps.load
  split
  · rename_i h
    refine ⟨fun h' => (by cases h'), fun h' => ?_⟩
    rcases h with h | h
    · exact absurd h h'.1
    · exact absurd h'.2.1 h
  · rename_i h
    simp only [not_or, Decidable.not_not] at h
    simp [h, eq_comm]

theorem Maps.loadAll_cons : M.loadAll (r :: records) = (M.load r).bind (·.loadAll records) :=
  List.foldlM_cons ..

theorem Maps.lookup_put (M : Maps) (e e' : EngineId) (a b k v : Bytes) :
    ((M.put e ((M e).insert a b)) e').lookup k = some v ↔
      (e' = e ∧ k = a ∧ v = b) ∨ (¬(e' = e ∧ k = a) ∧ (M e').lookup k = some v) := by
  by_cases he : e' = e
  · subst he
    rw [put_self, lookup_insert_iff]
    simp
  · simp [he]

/-- The maps after loading are the maps before and the records. -/
theorem Maps.lookup_loadAll (h : M.loadAll records = some M') (e : EngineId) (k v : Bytes) :
    (M' e).lookup k = some v ↔ (M e).lookup k = some v ∨ ⟨e, k, v⟩ ∈ records := by
  induction records generalizing M with
  | nil =>
    simp only [loadAll, List.foldlM_nil, pure, Option.some.injEq] at h
    simp [h]
  | cons r records ih =>
    rw [loadAll_cons, Option.bind_eq_some_iff] at h
    obtain ⟨M1, hload, hrest⟩ := h
    obtain ⟨hnew, -, rfl⟩ := load_eq_some.mp hload
    have hout : ∀ w, (M r.engine).lookup r.key ≠ some w :=
      fun w hw => hnew (Finmap.mem_of_lookup_eq_some hw)
    rw [ih hrest, lookup_put, List.mem_cons]
    constructor
    · rintro ((⟨rfl, rfl, rfl⟩ | ⟨-, hv⟩) | hmem)
      · exact .inr (.inl rfl)
      · exact .inl hv
      · exact .inr (.inr hmem)
    · rintro (hv | rfl | hmem)
      · refine .inl (.inr ⟨?_, hv⟩)
        rintro ⟨rfl, rfl⟩
        exact hout v hv
      · exact .inl (.inl ⟨rfl, rfl, rfl⟩)
      · exact .inr hmem

theorem Maps.card_put (M : Maps) (e : EngineId) (h : k ∉ M e) :
    ((M.put e ((M e).insert k v)) .array).keys.card =
      (M .array).keys.card + if e = .array then 1 else 0 := by
  by_cases he : e = .array
  · subst he
    rw [put_self, keys_insert, Finset.card_insert_of_notMem (by simpa [Finmap.mem_keys] using h)]
    simp
  · rw [put_other _ _ (Ne.symm he)]
    simp [he]

theorem Maps.loadAll_isSome (hroom : (M .array).keys.card ≤ kvsArraySize) :
    (∃ M', M.loadAll records = some M') ↔ (records.map SnapshotRecord.ident).Nodup ∧
      (∀ r ∈ records, r.key ∉ M r.engine) ∧
      (M .array).keys.card + records.countP (·.engine = .array) ≤ kvsArraySize := by
  induction records generalizing M with
  | nil => simp [loadAll, hroom]
  | cons r records ih =>
    have hinsert : ∀ s : SnapshotRecord,
        s.key ∈ (M.put r.engine ((M r.engine).insert r.key r.value)) s.engine ↔
          s.ident = r.ident ∨ s.key ∈ M s.engine := by
      intro s
      simp only [SnapshotRecord.ident, Prod.mk.injEq]
      by_cases he : s.engine = r.engine
      · rw [he, put_self, Finmap.mem_insert]
        simp
      · rw [put_other _ _ he]
        simp [he]
    have hfits : r.engine.Room (M r.engine) ↔
        (M .array).keys.card + (if r.engine = .array then 1 else 0) ≤ kvsArraySize := by
      cases he : r.engine with
      | array =>
        rw [if_pos rfl]
        exact Nat.lt_iff_add_one_le
      | rbtree => simp [EngineId.Room, hroom]
      | hash => simp [EngineId.Room, hroom]
      | skiplist => simp [EngineId.Room, hroom]
    have hcount : (r :: records).countP (·.engine = .array) =
        records.countP (·.engine = .array) + if r.engine = .array then 1 else 0 := by
      simp [List.countP_cons]
    rw [hcount]
    simp only [loadAll_cons, Option.bind_eq_some_iff, List.map_cons, List.nodup_cons,
      List.mem_cons, forall_eq_or_imp]
    constructor
    · rintro ⟨M', M1, hload, hrest⟩
      obtain ⟨hnew, hfit, rfl⟩ := load_eq_some.mp hload
      have hcard := card_put (v := r.value) M r.engine hnew
      obtain ⟨hnodup, hnews, hsize⟩ := (ih (by rw [hcard]; exact hfits.mp hfit)).mp ⟨M', hrest⟩
      rw [hcard] at hsize
      refine ⟨⟨?_, hnodup⟩, ⟨hnew, ?_⟩, by omega⟩
      · rintro hmem
        obtain ⟨s, hs, hident⟩ := List.mem_map.mp hmem
        exact hnews s hs ((hinsert s).mpr (.inl hident))
      · intro s hs hmem
        exact hnews s hs ((hinsert s).mpr (.inr hmem))
    · rintro ⟨⟨hident, hnodup⟩, ⟨hnew, hnews⟩, hsize⟩
      have hfit : r.engine.Room (M r.engine) := hfits.mpr (by omega)
      have hcard := card_put (v := r.value) M r.engine hnew
      have hstill : ∀ s ∈ records,
          s.key ∉ (M.put r.engine ((M r.engine).insert r.key r.value)) s.engine := by
        intro s hs hmem
        rcases (hinsert s).mp hmem with heq | hold
        · exact hident (List.mem_map.mpr ⟨s, hs, heq⟩)
        · exact hnews s hs hold
      obtain ⟨M', hM'⟩ := (ih (by rw [hcard]; exact hfits.mp hfit)).mpr
        ⟨hnodup, hstill, by rw [hcard]; omega⟩
      exact ⟨M', _, load_eq_some.mpr ⟨hnew, hfit, rfl⟩, hM'⟩

theorem Maps.loadAll_empty : (∃ M', Maps.empty.loadAll records = some M') ↔ Loadable records := by
  rw [Maps.loadAll_isSome (by simp [Maps.empty])]
  constructor
  · rintro ⟨hdistinct, -, hroom⟩
    exact ⟨hdistinct, by simpa [Maps.empty] using hroom⟩
  · rintro ⟨hdistinct, hroom⟩
    exact ⟨hdistinct, fun r _ => Finmap.notMem_empty, by simpa [Maps.empty] using hroom⟩

-- ---------------------------------------------------------------------------
-- The second pass against the maps
-- ---------------------------------------------------------------------------

theorem snapshotReadField_spec (field rest : Bytes) (hlen : field.length = n) (rt : Runtime) :
    Triple (snapshotReadField n (field ++ rest)) rt (fun r rt' => rt.Extends rt' ∧
      ((∃ s : CString, r = some (s, rest) ∧ s.bytes = field) ∨ r = none ∧ rt.CanFail)) Never := by
  simp only [snapshotReadField, take_append field rest hlen]
  refine (copyString_spec field rt).bind fun r rt' h => ?_
  obtain ⟨hext, ⟨rfl, hcan⟩ | ⟨s, rfl, hs, -, -⟩⟩ := h
  · exact Triple.pure ⟨hext, .inr ⟨rfl, hcan⟩⟩
  · exact Triple.pure ⟨hext, .inl ⟨s, rfl, hs⟩⟩

/-- What an insertion returns: `0` with the record loaded, or another code and
the engines as they were. -/
def Inserted (E : Engines) (M : Maps) (r : SnapshotRecord) (E' : Engines) (n : Nat) (code : Int) :
    Prop :=
  (∃ M', M.load r = some M' ∧ code = 0 ∧ E'.Hold n M') ∨ (M.load r = none ∧ code ≠ 0 ∧ E' = E)

def InsertFailed (rt : Runtime) (E E' : Engines) (code : Int) : Prop :=
  rt.CanFail ∧ code ≠ 0 ∧ E' = E

def NoBucket (records : List SnapshotRecord) (e : Stop) : Prop :=
  e = .undefined ∧ ∃ r ∈ records, ¬r.engine.Admits r.key

theorem snapshotInsertRecord_spec (h : E.Hold rt.mallocs M) (r : SnapshotRecord) :
    Triple (snapshotInsertRecord E r.engine r.key r.value) rt (fun res rt' => rt.Extends rt' ∧
      (Inserted E M r res.2 rt'.mallocs res.1 ∨ InsertFailed rt E res.2 res.1)) (NoBucket [r]) := by
  by_cases hadmits : r.engine.Admits r.key
  · have hget : Triple (r.engine.ops.get (E r.engine) r.key) rt
        (fun value rt' => rt' = rt ∧ value = (M r.engine).lookup r.key) (NoBucket [r]) :=
      (r.engine.lawful.get (h r.engine) hadmits).mono (fun _ _ h => h) fun _ h => h.elim
    refine hget.bind fun value rt' hvalue => ?_
    obtain ⟨rfl, rfl⟩ := hvalue
    cases hlookup : (M r.engine).lookup r.key with
    | some w =>
      refine Triple.pure ⟨.refl _, .inl (.inr ⟨?_, Int.one_ne_zero, rfl⟩)⟩
      exact if_pos (.inl (Finmap.mem_of_lookup_eq_some hlookup))
    | none =>
      have hnew : r.key ∉ M r.engine := Finmap.lookup_eq_none.mp hlookup
      have hset := r.engine.lawful.set r.value (h r.engine) hadmits
      refine (hset.mono (fun _ _ h => h) fun _ h => h.elim).bind fun res rt'' hset => ?_
      obtain ⟨hext, ⟨hcode, hholds⟩ | ⟨hcode, hinst, -, hwhy⟩⟩ := hset
      · have hroom : r.engine.Room (M r.engine) := by
          by_contra hfull
          exact r.engine.lawful.full hnew hfull hholds
        exact Triple.pure ⟨hext, .inl (.inl ⟨_, Maps.load_eq_some.mpr ⟨hnew, hroom, rfl⟩, hcode,
          h.put hext.mallocs hholds⟩)⟩
      · have hsame : E.put r.engine res.2 = E := by simp only [hinst, Engines.put_same]
        obtain hcan | ⟨-, hfull⟩ := hwhy
        · exact Triple.pure ⟨hext, .inr ⟨hcan, hcode, hsame⟩⟩
        · exact Triple.pure ⟨hext, .inl (.inr ⟨if_pos (.inr hfull), hcode, hsame⟩)⟩
  · have hstop : Triple (r.engine.ops.get (E r.engine) r.key) rt (fun _ _ => False) (NoBucket [r]) :=
      Triple.of_stop (EngineId.undefined_of_not_admits hadmits _ rt).get
        ⟨rfl, r, by simp, hadmits⟩
    exact hstop.bind fun _ _ h => h.elim

theorem snapshotLoadRecord_spec (h : E.Hold rt.mallocs M) (hvalid : r.Valid) :
    Triple (snapshotLoadRecord E (r.bytes ++ rest)) rt (fun res rt' => rt.Extends rt' ∧
      (res.1 = 0 → res.2.2 = rest) ∧ (res.1 = 0 ∨ res.1 = -1) ∧
      (Inserted E M r res.2.1 rt'.mallocs res.1 ∨ InsertFailed rt E res.2.1 res.1))
      (NoBucket [r]) := by
  have htake : snapshotCursorTake snapshotRecordHeaderSize (r.bytes ++ rest) =
      .done (snapshotRecordHeader r.engine r.key.length r.value.length) (r.key ++ (r.value ++ rest)) := by
    rw [SnapshotRecord.bytes, List.append_assoc, List.append_assoc]
    exact take_append _ _ (by simp [snapshotRecordHeader, snapshotRecordHeaderSize])
  simp only [snapshotLoadRecord, htake, snapshotRecordHeader, ofSnapshotId_eq_some.mpr rfl,
    List.take_left' (length_encodeU32Be _), List.drop_left' (length_encodeU32Be _),
    decodeU32Be_encode hvalid.keyLength, decodeU32Be_encode hvalid.valueLength]
  have hread : ∀ field rest rt, Triple (snapshotReadField field.length (field ++ rest)) rt
      (fun res rt' => rt.Extends rt' ∧
        ((∃ s : CString, res = some (s, rest) ∧ s.bytes = field) ∨ res = none ∧ rt.CanFail))
      (NoBucket [r]) :=
    fun field rest rt => (snapshotReadField_spec field rest rfl rt).mono (fun _ _ h => h)
      fun _ h => h.elim
  have hfree : ∀ p rt, Triple (kvsFree p) rt (fun _ rt' => rt.Extends rt' ∧ rt'.mallocs = rt.mallocs)
      (NoBucket [r]) :=
    fun p rt => (kvsFree_spec p rt).mono (fun _ _ h => h) fun _ h => h.elim
  refine (hread r.key _ rt).bind fun res rt1 hkey => ?_
  obtain ⟨hext1, ⟨key, rfl, hkey⟩ | ⟨rfl, hcan⟩⟩ := hkey
  · refine (hread r.value _ rt1).bind fun res rt2 hvalue => ?_
    obtain ⟨hext2, ⟨value, rfl, hvalue⟩ | ⟨rfl, hcan⟩⟩ := hvalue
    · have hext := hext1.trans hext2
      simp only [hkey, hvalue]
      refine (snapshotInsertRecord_spec (h.later hext.mallocs) r).bind fun res rt3 hres => ?_
      obtain ⟨code, E'⟩ := res
      refine (hfree _ rt3).bind fun _ rt4 h4 => ?_
      refine (hfree _ rt4).bind fun _ rt5 h5 => ?_
      have hmallocs : rt5.mallocs = rt3.mallocs := h5.2.trans h4.2
      refine Triple.pure ⟨((hext.trans hres.1).trans h4.1).trans h5.1, fun _ => rfl, ?_, ?_⟩
      · simp only
        split
        · exact .inl rfl
        · exact .inr rfl
      · simp only [hmallocs]
        obtain (⟨M', hload, hcode, hhold⟩ | ⟨hload, hcode, rfl⟩) | ⟨hcan, hcode, rfl⟩ := hres.2
        · exact .inl (.inl ⟨M', hload, if_pos hcode, hhold⟩)
        · exact .inl (.inr ⟨hload, by rw [if_neg hcode]; decide, rfl⟩)
        · exact .inr ⟨hext.canFail hcan, by rw [if_neg hcode]; decide, rfl⟩
    · refine (hfree _ rt2).bind fun _ rt3 h3 => ?_
      exact Triple.pure ⟨(hext1.trans hext2).trans h3.1, by simp, .inr rfl,
        .inr ⟨hext1.canFail hcan, show (-1 : Int) ≠ 0 by decide, rfl⟩⟩
  · exact Triple.pure ⟨hext1, by simp, .inr rfl, .inr ⟨hcan, show (-1 : Int) ≠ 0 by decide, rfl⟩⟩

theorem snapshotLoadRecords_spec (h : E.Hold rt.mallocs M) (hvalid : ∀ r ∈ records, r.Valid) :
    Triple (snapshotLoadRecords records.length E (recordsBytes records ++ rest)) rt
      (fun res rt' => rt.Extends rt' ∧ ∃ M', res.2.Hold rt'.mallocs M' ∧
        (M.loadAll records = some M' ∧ res.1 = 0 ∨
          (M.loadAll records = none ∨ rt.CanFail) ∧ res.1 ≠ 0)) (NoBucket records) := by
  induction records generalizing E M rt with
  | nil => exact ⟨.refl rt, M, h, .inl ⟨rfl, rfl⟩⟩
  | cons r records ih =>
    simp only [List.mem_cons, forall_eq_or_imp] at hvalid
    rw [recordsBytes_cons, List.append_assoc]
    have hone : Triple (snapshotLoadRecord E (r.bytes ++ (recordsBytes records ++ rest))) rt
        (fun res rt' => rt.Extends rt' ∧
          (res.1 = 0 → res.2.2 = recordsBytes records ++ rest) ∧ (res.1 = 0 ∨ res.1 = -1) ∧
          (Inserted E M r res.2.1 rt'.mallocs res.1 ∨ InsertFailed rt E res.2.1 res.1))
        (NoBucket (r :: records)) := by
      refine (snapshotLoadRecord_spec h hvalid.1).mono (fun _ _ h => h) ?_
      rintro e ⟨he, r', hr', hno⟩
      exact ⟨he, r', by simp_all, hno⟩
    refine hone.bind fun res rt1 hres => ?_
    obtain ⟨code, E1, cursor⟩ := res
    obtain ⟨hext, hcursor, hrange, hcases⟩ := hres
    simp only at hcursor hrange hcases
    -- an unsuccessful insertion ends the loop
    have hstop : code ≠ 0 → (M.load r = none ∨ rt.CanFail) → E1 = E →
        Triple (pure (-1, E1) : Run (Int × Engines)) rt1 (fun res rt' => rt.Extends rt' ∧
          ∃ M', res.2.Hold rt'.mallocs M' ∧ (M.loadAll (r :: records) = some M' ∧ res.1 = 0 ∨
            (M.loadAll (r :: records) = none ∨ rt.CanFail) ∧ res.1 ≠ 0)) (NoBucket (r :: records)) := by
      rintro - hwhy rfl
      refine Triple.pure ⟨hext, M, h.later hext.mallocs, .inr ⟨hwhy.imp_left fun hload => ?_,
        show (-1 : Int) ≠ 0 by decide⟩⟩
      rw [Maps.loadAll_cons, hload, Option.bind_none]
    obtain (⟨M1, hload, rfl, hhold⟩ | ⟨hload, hcode, hE⟩) | ⟨hcan, hcode, hE⟩ := hcases
    · simp only [hcursor rfl, Maps.loadAll_cons, hload, Option.bind_some, Int.lt_irrefl, if_false]
      refine (ih hhold hvalid.2).mono ?_ ?_
      · rintro res rt2 ⟨hext2, M', hhold', hcases⟩
        refine ⟨hext.trans hext2, M', hhold', hcases.imp_right ?_⟩
        exact fun ⟨hwhy, hne⟩ => ⟨hwhy.imp_right hext.canFail, hne⟩
      · rintro e ⟨he, r', hr', hno⟩
        exact ⟨he, r', by simp [hr'], hno⟩
    · have hneg : code < 0 := by
        have := hrange.resolve_left hcode
        omega
      simp only [hneg, if_true]
      exact hstop hcode (.inl hload) hE
    · have hneg : code < 0 := by
        have := hrange.resolve_left hcode
        omega
      simp only [hneg, if_true]
      exact hstop hcode (.inr hcan) hE

/-- Loading a file of the format, with whatever memory there is. -/
theorem load_snapshotFile_effect (hfile : SnapshotFile file header records)
    (h : E.Hold rt.mallocs M) (checkpoint : SnapshotCheckpoint) :
    Triple (kvsSnapshotStoreLoadWithCheckpoint (some file) E checkpoint) rt
      (fun res rt' => rt.Extends rt' ∧ ∃ M', res.2.1.Hold rt'.mallocs M' ∧
        (M.loadAll records = some M' ∧ res.1 = 0 ∧ res.2.2 = header.checkpoint ∨
          (M.loadAll records = none ∨ rt.CanFail) ∧ res.1 = -1 ∧ res.2.2 = checkpoint))
      (NoBucket records) := by
  have hvalidate : snapshotValidate file = some header :=
    snapshotValidate_eq_some.mpr ⟨records, hfile⟩
  obtain ⟨hcount, hvalid, head, hwire, hbytes⟩ := hfile
  simp only [kvsSnapshotStoreLoadWithCheckpoint, hvalidate]
  simp only [hbytes, List.append_assoc, hwire.read, ← hcount]
  refine (snapshotLoadRecords_spec h hvalid).bind fun res rt1 hres => ?_
  obtain ⟨code, E'⟩ := res
  obtain ⟨hext, M', hhold, ⟨hload, rfl⟩ | ⟨hwhy, hcode⟩⟩ := hres
  · exact Triple.pure ⟨hext, M', hhold, .inl ⟨hload, rfl, rfl⟩⟩
  · simp only at hcode
    simp only [hcode, if_false]
    exact Triple.pure ⟨hext, M', hhold, .inr ⟨hwhy, rfl, rfl⟩⟩

theorem load_snapshotFile (hfile : SnapshotFile file header records) (h : E.Hold rt.mallocs M)
    (hfail : ¬rt.CanFail) (hadmits : ∀ r ∈ records, r.engine.Admits r.key)
    (checkpoint : SnapshotCheckpoint) :
    Triple (kvsSnapshotStoreLoadWithCheckpoint (some file) E checkpoint) rt
      (fun res rt' => rt.Extends rt' ∧
        ((∃ M', M.loadAll records = some M' ∧ res.1 = 0 ∧ res.2.1.Hold rt'.mallocs M' ∧
            res.2.2 = header.checkpoint) ∨
          (M.loadAll records = none ∧ res.1 = -1 ∧ res.2.2 = checkpoint))) Never := by
  refine (load_snapshotFile_effect hfile h checkpoint).mono ?_ ?_
  · rintro res rt' ⟨hext, M', hhold, ⟨hload, hcode, hcp⟩ | ⟨hwhy, hcode, hcp⟩⟩
    · exact ⟨hext, .inl ⟨M', hload, hcode, hhold, hcp⟩⟩
    · exact ⟨hext, .inr ⟨hwhy.resolve_right hfail, hcode, hcp⟩⟩
  · rintro e ⟨-, r, hr, hno⟩
    exact hno (hadmits r hr)

end

theorem EngineId.admits_of_hash (e : EngineId) (h : e = .hash → HashAdmits k) : e.Admits k := by
  cases e with
  | hash => exact h rfl
  | array => trivial
  | rbtree => trivial
  | skiplist => trivial

/-- Loading a byte string into empty engines: accepted exactly when it is a
snapshot whose records can all be loaded; rejected by the first pass without a
trace, by the second only for a key loaded twice or a full array. -/
theorem kvsSnapshotStoreLoadWithCheckpoint_exact (file : Bytes) (E : Engines) (rt : Runtime)
    (checkpoint : SnapshotCheckpoint) (hempty : E.Hold rt.mallocs Maps.empty) (hfail : ¬rt.CanFail)
    (hhash : ∀ header records, SnapshotFile file header records →
      ∀ r ∈ records, r.engine = .hash → HashAdmits r.key) :
    ∃ code E' checkpoint' rt',
      kvsSnapshotStoreLoadWithCheckpoint (some file) E checkpoint rt =
        .ok ((code, E', checkpoint'), rt') ∧
      (code = 0 ↔ ∃ header records, SnapshotFile file header records ∧
        (records.map SnapshotRecord.ident).Nodup ∧
        records.countP (·.engine = .array) ≤ kvsArraySize) ∧
      (code = 0 → ∃ header records M, SnapshotFile file header records ∧
        checkpoint' = header.checkpoint ∧ E'.Contains rt' M ∧
        ∀ e k v, (M e).lookup k = some v ↔ ⟨e, k, v⟩ ∈ records) ∧
      (snapshotValidate file = none → code = -1 ∧ E' = E ∧ checkpoint' = checkpoint) ∧
      (code ≠ 0 → code = -1 ∧ checkpoint' = checkpoint ∧
        (snapshotValidate file = none ∨ ∃ header records, SnapshotFile file header records ∧
          (¬(records.map SnapshotRecord.ident).Nodup ∨
            kvsArraySize < records.countP (·.engine = .array)))) := by
  cases hvalidate : snapshotValidate file with
  | none =>
    have hno : ¬∃ header records, SnapshotFile file header records ∧
        (records.map SnapshotRecord.ident).Nodup ∧
        records.countP (·.engine = .array) ≤ kvsArraySize := by
      rintro ⟨header, records, hfile, -⟩
      rw [snapshotValidate_eq_some.mpr ⟨records, hfile⟩] at hvalidate
      cases hvalidate
    refine ⟨-1, E, checkpoint, rt, ?_, ⟨fun h => (by cases h), fun h => absurd h hno⟩,
      fun h => (by cases h), fun _ => ⟨rfl, rfl, rfl⟩, fun _ => ⟨rfl, rfl, .inl rfl⟩⟩
    simp only [kvsSnapshotStoreLoadWithCheckpoint, hvalidate]
    rfl
  | some header =>
    obtain ⟨records, hfile⟩ := snapshotValidate_eq_some.mp hvalidate
    have hadmits : ∀ r ∈ records, r.engine.Admits r.key :=
      fun r hr => r.engine.admits_of_hash (hhash header records hfile r hr)
    obtain ⟨⟨code, E', checkpoint'⟩, rt', hrun, hext, hres⟩ :=
      (load_snapshotFile hfile hempty hfail hadmits checkpoint).run
    refine ⟨code, E', checkpoint', rt', hrun, ?_, ?_, fun h => (by cases h), ?_⟩
    · constructor
      · rintro hcode
        obtain ⟨M', hload, -, -, -⟩ | ⟨-, hneg, -⟩ := hres
        · obtain ⟨hdistinct, hroom⟩ := Maps.loadAll_empty.mp ⟨M', hload⟩
          exact ⟨header, records, hfile, hdistinct, hroom⟩
        · exact absurd (hneg.symm.trans hcode) (by decide)
      · rintro ⟨header', records', hfile', hdistinct, hroom⟩
        obtain ⟨rfl, rfl⟩ := hfile.unique hfile'
        obtain ⟨M', hload⟩ := Maps.loadAll_empty.mpr ⟨hdistinct, hroom⟩
        obtain ⟨_, -, hcode, -, -⟩ | ⟨hnone, -, -⟩ := hres
        · exact hcode
        · rw [hload] at hnone
          cases hnone
    · intro hcode
      obtain ⟨M', hload, -, hhold, hcheckpoint⟩ | ⟨-, hneg, -⟩ := hres
      · refine ⟨header, records, M', hfile, hcheckpoint, hhold.contains, fun e k v => ?_⟩
        rw [Maps.lookup_loadAll hload]
        simp [Maps.empty]
      · exact absurd (hneg.symm.trans hcode) (by decide)
    · intro hcode
      obtain ⟨_, -, hzero, -, -⟩ | ⟨hnone, hneg, hkeep⟩ := hres
      · exact absurd hzero hcode
      · refine ⟨hneg, hkeep, .inr ⟨header, records, hfile, ?_⟩⟩
        by_contra hboth
        simp only [not_or, Decidable.not_not, Nat.not_lt] at hboth
        obtain ⟨M', hload⟩ := Maps.loadAll_empty.mpr ⟨hboth.1, hboth.2⟩
        rw [hload] at hnone
        cases hnone

def twoRecords : List SnapshotRecord := [⟨.array, [97], [98]⟩, ⟨.hash, [99], []⟩]

def twoRecordsFile : Bytes :=
  snapshotMagic ++ encodeU32Be 1 ++ encodeU64Be 2 ++ recordsBytes twoRecords ++
    encodeU32Be (snapshotChecksum
      (snapshotMagic ++ encodeU32Be 1 ++ encodeU64Be 2 ++ recordsBytes twoRecords))

theorem twoRecordsFile_format :
    SnapshotFile twoRecordsFile ⟨2, SnapshotCheckpoint.zero⟩ twoRecords := by
  refine ⟨rfl, ?_, _, .v1 2 (by decide), rfl⟩
  intro r hr
  simp only [twoRecords, List.mem_cons, List.not_mem_nil, or_false] at hr
  rcases hr with rfl | rfl
  · exact ⟨by decide, by decide, by decide, by decide⟩
  · exact ⟨by decide, by decide, by decide, by decide⟩

theorem kvsSnapshotStoreLoadWithCheckpoint_exact_twoRecords :
    ∃ E rt E' checkpoint' rt', E.Contains rt Maps.empty ∧
      kvsSnapshotStoreLoadWithCheckpoint (some twoRecordsFile) E SnapshotCheckpoint.zero rt =
        .ok ((0, E', checkpoint'), rt') := by
  have hfail : ¬(Runtime.start (fun _ => false) (fun _ => false)).CanFail := by
    rintro ⟨n, hn⟩
    cases hn
  obtain ⟨_, rt, -, hext, E, -, hempty⟩ := (initKvengine_spec hfail).run
  obtain ⟨code, E', checkpoint', rt', hrun, haccept, -, -, -⟩ :=
    kvsSnapshotStoreLoadWithCheckpoint_exact twoRecordsFile E rt SnapshotCheckpoint.zero hempty
      (fun hcan => hfail (hext.canFail hcan)) (by
        intro header records hfile r hr hhash
        obtain ⟨-, rfl⟩ := twoRecordsFile_format.unique hfile
        simp only [twoRecords, List.mem_cons, List.not_mem_nil, or_false] at hr
        rcases hr with rfl | rfl
        · cases hhash
        · decide)
  have hzero : code = 0 :=
    haccept.mpr ⟨_, twoRecords, twoRecordsFile_format, by decide, by decide⟩
  rw [hzero] at hrun
  exact ⟨E, rt, E', checkpoint', rt', hempty.contains, hrun⟩

end KvStore
