import KvStore.Persistence.SnapshotLoad
import Mathlib.Algebra.BigOperators.Group.Finset.Basic

/-!
# Saving a snapshot

The writer's buffer and the blocks it is cut into do not show in the file:
what has been appended so far is the file followed by the buffer. Saving
writes the records of the four maps in the order of the traversals, and fails
only when the file would pass the largest file position.
-/

namespace KvStore

open Lib

-- ---------------------------------------------------------------------------
-- The writer
-- ---------------------------------------------------------------------------

structure SnapshotWriter.Wrote (w : SnapshotWriter) (bytes : Bytes) : Prop where
  contents : w.file ++ w.buffer = bytes
  position : w.nextFileOffset = w.file.length
  fits : w.buffer.length ≤ snapshotWriteBufferSize
  inRange : w.nextFileOffset ≤ offMax

theorem writeBatch_requests (left : Nat) (file data : Bytes)
    (h : data.length ≤ snapshotWriteBlockSize * left) :
    kvsUringIoWriteBatch file (snapshotRequests left file.length data) = file ++ data := by
  induction left generalizing file data with
  | zero =>
    have : data = [] := List.length_eq_zero_iff.mp (by omega)
    simp [snapshotRequests, kvsUringIoWriteBatch, this]
  | succ left ih =>
    cases data with
    | nil => simp [snapshotRequests, kvsUringIoWriteBatch]
    | cons b data =>
      generalize hd : b :: data = d at h
      have hne : d ≠ [] := by simp [← hd]
      have hstep : snapshotRequests (left + 1) file.length d =
          (file.length, d.take snapshotWriteBlockSize) ::
            snapshotRequests left (file.length + snapshotWriteBlockSize)
              (d.drop snapshotWriteBlockSize) := by
        cases d with
        | nil => exact absurd rfl hne
        | cons _ _ => rfl
      rw [hstep]
      simp only [kvsUringIoWriteBatch, List.foldl_cons, pwrite_end]
      by_cases hlong : snapshotWriteBlockSize ≤ d.length
      · have hlen : (file ++ d.take snapshotWriteBlockSize).length =
            file.length + snapshotWriteBlockSize := by
          simp [hlong]
        have hrest := ih (file ++ d.take snapshotWriteBlockSize) (d.drop snapshotWriteBlockSize) (by
          rw [List.length_drop, Nat.mul_add, Nat.mul_one] at *
          omega)
        rw [hlen] at hrest
        rw [kvsUringIoWriteBatch] at hrest
        rw [hrest, List.append_assoc, List.take_append_drop]
      · have hdrop : d.drop snapshotWriteBlockSize = [] := List.drop_eq_nil_of_le (by omega)
        have htake : d.take snapshotWriteBlockSize = d := List.take_of_length_le (by omega)
        rw [hdrop, htake]
        cases left <;> rfl

theorem snapshotWriterFlush_spec (h : SnapshotWriter.Wrote w bytes) :
    (∃ w', snapshotWriterFlush w = some w' ∧ w'.Wrote bytes ∧ w'.buffer = [] ∧
      w'.checkpoint = w.checkpoint ∧ bytes.length ≤ offMax) ∨
    (snapshotWriterFlush w = none ∧ offMax < bytes.length) := by
  have hlen : w.file.length + w.buffer.length = bytes.length := by
    rw [← h.contents, List.length_append]
  simp only [snapshotWriterFlush, show ¬w.buffer.length > snapshotWriteBufferSize from
    Nat.not_lt.mpr h.fits, if_false]
  split
  · rename_i hempty
    have hrange := h.inRange
    rw [h.position] at hrange
    exact .inl ⟨w, rfl, h, List.length_eq_zero_iff.mp hempty, rfl, by omega⟩
  split
  · rename_i hover
    rw [h.position] at hover
    exact .inr ⟨rfl, by omega⟩
  · rename_i hroom
    refine .inl ⟨_, rfl, ⟨?_, ?_, ?_, Nat.not_lt.mp hroom⟩, rfl, rfl, ?_⟩
    · simp only [h.position, writeBatch_requests _ _ _ h.fits, List.append_nil, h.contents]
    · simp only [h.position, writeBatch_requests _ _ _ h.fits, List.length_append]
    · simp
    · rw [h.position] at hroom
      omega

theorem snapshotWriterMakeRoom_spec (h : SnapshotWriter.Wrote w bytes) :
    (∃ w', snapshotWriterMakeRoom w = some w' ∧ w'.Wrote bytes ∧
      w'.buffer.length < snapshotWriteBufferSize ∧ w'.checkpoint = w.checkpoint) ∨
    (snapshotWriterMakeRoom w = none ∧ offMax < bytes.length) := by
  unfold snapshotWriterMakeRoom
  split
  · obtain ⟨w1, hflush, hwrote, hempty, hkeep, -⟩ | hover := snapshotWriterFlush_spec h
    · exact .inl ⟨w1, hflush, hwrote, by rw [hempty]; decide, hkeep⟩
    · exact .inr hover
  · rename_i hne
    exact .inl ⟨w, rfl, h, Nat.lt_of_le_of_ne h.fits hne, rfl⟩

theorem snapshotWriterCopy_succ (rounds : Nat) (w : SnapshotWriter) (h : data ≠ []) :
    snapshotWriterCopy (rounds + 1) w data =
      (snapshotWriterMakeRoom w).bind fun w =>
        snapshotWriterCopy rounds
          { w with buffer := w.buffer ++
              data.take (min data.length (snapshotWriteBufferSize - w.buffer.length)) }
          (data.drop (min data.length (snapshotWriteBufferSize - w.buffer.length))) := by
  cases data with
  | nil => exact absurd rfl h
  | cons b data => rfl

theorem snapshotWriterCopy_spec (h : SnapshotWriter.Wrote w bytes) (hrounds : data.length ≤ rounds) :
    (∃ w', snapshotWriterCopy rounds w data = some w' ∧ w'.Wrote (bytes ++ data) ∧
      w'.checkpoint = w.checkpoint) ∨
    (snapshotWriterCopy rounds w data = none ∧ offMax < (bytes ++ data).length) := by
  induction rounds generalizing w bytes data with
  | zero =>
    have : data = [] := List.length_eq_zero_iff.mp (by omega)
    subst this
    exact .inl ⟨w, rfl, by simpa using h, rfl⟩
  | succ rounds ih =>
    cases data with
    | nil => exact .inl ⟨w, rfl, by simpa using h, rfl⟩
    | cons b rest =>
      generalize hd : b :: rest = d at hrounds
      have hpos : 0 < d.length := by simp [← hd]
      rw [snapshotWriterCopy_succ rounds w (List.length_pos_iff.mp hpos)]
      obtain ⟨w1, hw1, hwrote, hlt, hkeep⟩ | ⟨hnone, hover⟩ := snapshotWriterMakeRoom_spec h
      · rw [hw1, Option.bind_some]
        generalize hc : min d.length (snapshotWriteBufferSize - w1.buffer.length) = c
        have hc1 : 1 ≤ c := by omega
        have hnext : SnapshotWriter.Wrote { w1 with buffer := w1.buffer ++ d.take c }
            (bytes ++ d.take c) := by
          refine ⟨?_, hwrote.position, ?_, hwrote.inRange⟩
          · simp only [← List.append_assoc, hwrote.contents]
          · simp only [List.length_append, List.length_take]
            omega
        have hshort : (d.drop c).length ≤ rounds := by rw [List.length_drop]; omega
        have hrest := ih hnext hshort
        rw [List.append_assoc, List.take_append_drop] at hrest
        obtain ⟨w', hw', hwrote', hkeep'⟩ | hfull := hrest
        · exact .inl ⟨w', hw', hwrote', hkeep'.trans hkeep⟩
        · exact .inr hfull
      · rw [hnone, Option.bind_none]
        exact .inr ⟨rfl, by rw [List.length_append]; omega⟩

theorem snapshotWriterAppend_spec (h : SnapshotWriter.Wrote w bytes) (data : Bytes) :
    (∃ w', snapshotWriterAppend w data = some w' ∧ w'.Wrote (bytes ++ data) ∧
      w'.checkpoint = w.checkpoint) ∨
    (snapshotWriterAppend w data = none ∧ offMax < (bytes ++ data).length) := by
  rw [snapshotWriterAppend, if_neg (Nat.not_lt.mpr h.fits)]
  exact snapshotWriterCopy_spec h (Nat.le_refl _)

-- ---------------------------------------------------------------------------
-- Header and records
-- ---------------------------------------------------------------------------

/-- The writer has taken `bytes` and so has the CRC. -/
structure Emitted (checkpoint : SnapshotCheckpoint) (bytes : Bytes) (out : SnapshotOutput) :
    Prop where
  wrote : out.1.Wrote bytes
  crc : out.2 = snapshotCrc32Update crcStart bytes
  checkpoint : out.1.checkpoint = checkpoint

/-- The outcome of a step of saving that ends with `bytes` written. -/
def Emits (checkpoint : SnapshotCheckpoint) (bytes : Bytes) (r : Option SnapshotOutput) : Prop :=
  (∃ out, r = some out ∧ Emitted checkpoint bytes out) ∨ (r = none ∧ offMax < bytes.length)

section
variable {cp : SnapshotCheckpoint} {bytes : Bytes} {out : SnapshotOutput}

theorem Emits.bind {r : Option SnapshotOutput} {f : SnapshotOutput → Option SnapshotOutput}
    (hr : Emits cp bytes r) (hf : ∀ out, Emitted cp bytes out → Emits cp (bytes ++ data) (f out)) :
    Emits cp (bytes ++ data) (r.bind f) := by
  obtain ⟨out, rfl, hout⟩ | ⟨rfl, hover⟩ := hr
  · exact hf out hout
  · exact .inr ⟨rfl, by rw [List.length_append]; omega⟩

theorem snapshotEmit_spec (h : Emitted cp bytes out) (data : Bytes) :
    Emits cp (bytes ++ data) (snapshotEmit out data) := by
  obtain ⟨w, hw, hwrote, hkeep⟩ | ⟨hnone, hover⟩ := snapshotWriterAppend_spec h.wrote data
  · refine .inl ⟨(w, snapshotCrc32Update out.2 data), by simp [snapshotEmit, hw], hwrote, ?_,
      hkeep.trans h.checkpoint⟩
    rw [h.crc, snapshotCrc32Update_append]
  · exact .inr ⟨by simp [snapshotEmit, hnone], hover⟩

theorem snapshotWriteRecord_eq (e : EngineId) (out : SnapshotOutput) (k v : Bytes)
    (hk : k.length ≤ uint32Max) (hv : v.length ≤ uint32Max) :
    snapshotWriteRecord e out (k, v) =
      ((snapshotEmit out (snapshotRecordHeader e k.length v.length)).bind
        fun out => (snapshotEmit out k).bind fun out => snapshotEmit out v) := by
  simp only [snapshotWriteRecord, snapshotEmit,
    show ¬(k.length > uint32Max ∨ v.length > uint32Max) by omega, if_false]
  cases snapshotWriterAppend out.1 (snapshotRecordHeader e k.length v.length) with
  | none => rfl
  | some w1 =>
    simp only [bind, Option.bind]
    cases snapshotWriterAppend w1 k with
    | none => rfl
    | some w2 => rfl

theorem snapshotWriteRecord_spec (h : Emitted cp bytes out) (e : EngineId) (k v : Bytes)
    (hk : k.length ≤ uint32Max) (hv : v.length ≤ uint32Max) :
    Emits cp (bytes ++ SnapshotRecord.bytes ⟨e, k, v⟩) (snapshotWriteRecord e out (k, v)) := by
  rw [snapshotWriteRecord_eq e out k v hk hv, SnapshotRecord.bytes, List.append_assoc,
    ← List.append_assoc bytes]
  refine (snapshotEmit_spec h _).bind fun out1 h1 => ?_
  rw [← List.append_assoc]
  exact (snapshotEmit_spec h1 k).bind fun out2 h2 => snapshotEmit_spec h2 v

def recordsOf (e : EngineId) (items : List (Bytes × Bytes)) : List SnapshotRecord :=
  items.map fun item => ⟨e, item.1, item.2⟩

theorem writeItems_spec (h : Emitted cp bytes out) (e : EngineId) (items : List (Bytes × Bytes))
    (hitems : ∀ item ∈ items, item.1.length ≤ uint32Max ∧ item.2.length ≤ uint32Max) :
    Emits cp (bytes ++ recordsBytes (recordsOf e items)) (items.foldlM (snapshotWriteRecord e) out) := by
  induction items generalizing bytes out with
  | nil => exact .inl ⟨out, rfl, by simpa [recordsOf, recordsBytes] using h⟩
  | cons item items ih =>
    obtain ⟨k, v⟩ := item
    simp only [List.mem_cons, forall_eq_or_imp] at hitems
    rw [List.foldlM_cons]
    have hsplit : bytes ++ recordsBytes (recordsOf e ((k, v) :: items)) =
        bytes ++ SnapshotRecord.bytes ⟨e, k, v⟩ ++ recordsBytes (recordsOf e items) := by
      rw [recordsOf, List.map_cons, recordsBytes_cons, List.append_assoc]
      rfl
    rw [hsplit]
    refine Emits.bind (snapshotWriteRecord_spec h e k v hitems.1.1 hitems.1.2) fun out1 h1 => ?_
    exact ih h1 hitems.2

theorem countItems_spec (count : Nat) (items : List (Bytes × Bytes)) (hcount : count ≤ uint64Max) :
    items.foldlM snapshotCountItem count =
      if count + items.length ≤ uint64Max then some (count + items.length) else none := by
  induction items generalizing count with
  | nil => simp [hcount]
  | cons item items ih =>
    rw [List.foldlM_cons, snapshotCountItem, List.length_cons]
    split
    · rename_i hmax
      rw [if_neg (by omega)]
      rfl
    · rename_i hne
      have hsum : count + 1 + items.length = count + (items.length + 1) := by omega
      simp only [bind, Option.bind_some, ih (count + 1) (by omega), hsum]

end

-- ---------------------------------------------------------------------------
-- The size of a snapshot
-- ---------------------------------------------------------------------------

def recordWeight (k v : Bytes) : Nat := snapshotRecordHeaderSize + k.length + v.length

def contentsWeight (m : Contents) : Nat := ∑ k ∈ m.keys, recordWeight k ((m.lookup k).getD [])

def Maps.snapshotSize (M : Maps) : Nat :=
  snapshotHeaderV2Size + (EngineId.all.map fun e => contentsWeight (M e)).sum + snapshotChecksumSize

theorem contentsWeight_mapOf (h : DistinctKeys pairs) :
    contentsWeight (mapOf pairs) = (pairs.map fun p => recordWeight p.1 p.2).sum := by
  rw [contentsWeight, keys_mapOf, List.sum_toFinset _ h, List.map_map]
  congr 1
  refine List.map_congr_left fun p hp => ?_
  have hlookup : (mapOf pairs).lookup p.1 = some p.2 := (lookup_mapOf h).mpr hp
  simp [hlookup]

theorem length_recordsBytes (records : List SnapshotRecord) :
    (recordsBytes records).length = (records.map fun r => recordWeight r.key r.value).sum := by
  induction records with
  | nil => rfl
  | cons r records ih =>
    rw [recordsBytes_cons, List.length_append, length_recordBytes, ih]
    rfl

-- ---------------------------------------------------------------------------
-- The traversals
-- ---------------------------------------------------------------------------

section
variable {E : Engines} {rt : Runtime} {M : Maps} {pairs : EngineId → List (Bytes × Bytes)}

def traversal (pairs : EngineId → List (Bytes × Bytes)) (es : List EngineId) : List SnapshotRecord :=
  es.flatMap fun e => recordsOf e (pairs e)

theorem length_traversal (pairs : EngineId → List (Bytes × Bytes)) (es : List EngineId) :
    (traversal pairs es).length = (es.map fun e => (pairs e).length).sum := by
  simp [traversal, recordsOf, List.length_flatMap]

theorem foreach_triple (hrun : ∀ e : EngineId, e.ops.foreach (E e) rt = .ok (pairs e, rt))
    (e : EngineId) :
    Triple (e.ops.foreach (E e)) rt (fun items rt' => rt' = rt ∧ items = pairs e) Never :=
  Triple.of_run (hrun e) ⟨rfl, rfl⟩

theorem snapshotCountRecords_spec
    (hrun : ∀ e : EngineId, e.ops.foreach (E e) rt = .ok (pairs e, rt)) (es : List EngineId)
    (hcount : count ≤ uint64Max) :
    Triple (snapshotCountRecords E es count) rt (fun r rt' => rt' = rt ∧
      r = if count + (traversal pairs es).length ≤ uint64Max
        then some (count + (traversal pairs es).length) else none) Never := by
  induction es generalizing count with
  | nil => exact ⟨rfl, by simp [traversal, hcount]⟩
  | cons e es ih =>
    refine (foreach_triple hrun e).bind fun items rt' h => ?_
    obtain ⟨rfl, rfl⟩ := h
    have hlen : (traversal pairs (e :: es)).length = (pairs e).length + (traversal pairs es).length := by
      simp [length_traversal]
    rw [hlen, countItems_spec count _ hcount]
    by_cases hfit : count + (pairs e).length ≤ uint64Max
    · simp only [hfit, if_true]
      refine (ih hfit).weaken fun r rt' h => ?_
      rw [Nat.add_assoc] at h
      exact h
    · simp only [hfit, if_false]
      exact Triple.pure ⟨rfl, by rw [if_neg (by omega)]⟩

theorem snapshotWriteRecords_spec
    (hrun : ∀ e : EngineId, e.ops.foreach (E e) rt = .ok (pairs e, rt)) (es : List EngineId)
    (hlen : ∀ e, ∀ item ∈ pairs e, item.1.length ≤ uint32Max ∧ item.2.length ≤ uint32Max)
    (hout : Emitted cp bytes out) :
    Triple (snapshotWriteRecords E es out) rt (fun r rt' => rt' = rt ∧
      Emits cp (bytes ++ recordsBytes (traversal pairs es)) r) Never := by
  induction es generalizing bytes out with
  | nil => exact ⟨rfl, .inl ⟨out, rfl, by simpa [traversal, recordsBytes] using hout⟩⟩
  | cons e es ih =>
    refine (foreach_triple hrun e).bind fun items rt' h => ?_
    obtain ⟨rfl, rfl⟩ := h
    have hsplit : bytes ++ recordsBytes (traversal pairs (e :: es)) =
        bytes ++ recordsBytes (recordsOf e (pairs e)) ++ recordsBytes (traversal pairs es) := by
      simp [traversal, recordsBytes]
    rw [hsplit]
    obtain ⟨out1, hone, hout1⟩ | ⟨hnone, hover⟩ := writeItems_spec hout e (pairs e) (hlen e)
    · simp only [hone]
      exact ih hout1
    · simp only [hnone]
      exact Triple.pure ⟨rfl, .inr ⟨rfl, by rw [List.length_append]; omega⟩⟩

end

-- ---------------------------------------------------------------------------
-- Saving
-- ---------------------------------------------------------------------------

def SnapshotCheckpoint.ofAof (o : Nat) : SnapshotCheckpoint := ⟨true, o⟩

def SnapshotCheckpoint.ofOffset (offset : Option Nat) : SnapshotCheckpoint :=
  match offset with
  | none => SnapshotCheckpoint.zero
  | some o => .ofAof o

def savedHeader (offset : Option Nat) (count : Nat) : Bytes :=
  snapshotHeaderBytes offset.isSome.toNat count (offset.getD 0)

def savedFile (offset : Option Nat) (records : List SnapshotRecord) : Bytes :=
  savedHeader offset records.length ++ recordsBytes records ++
    encodeU32Be (snapshotChecksum (savedHeader offset records.length ++ recordsBytes records))

theorem length_savedHeader (offset : Option Nat) (count : Nat) :
    (savedHeader offset count).length = snapshotHeaderV2Size := by
  simp [savedHeader, snapshotHeaderBytes, snapshotMagic, snapshotHeaderV2Size]

theorem length_savedFile (offset : Option Nat) (records : List SnapshotRecord) :
    (savedFile offset records).length =
      snapshotHeaderV2Size + (recordsBytes records).length + snapshotChecksumSize := by
  simp only [savedFile, List.length_append, length_savedHeader, length_encodeU32Be,
    snapshotChecksumSize]

theorem snapshotWriteHeader_spec (offset : Option Nat) (count : Nat)
    (h : Emitted (.ofOffset offset) bytes out) :
    Emits (.ofOffset offset) (bytes ++ savedHeader offset count) (snapshotWriteHeader out count) := by
  have hcp := h.checkpoint
  cases offset with
  | none =>
    simp only [SnapshotCheckpoint.ofOffset] at hcp
    simp only [snapshotWriteHeader, hcp, SnapshotCheckpoint.zero]
    exact snapshotEmit_spec h _
  | some o =>
    simp only [SnapshotCheckpoint.ofOffset, SnapshotCheckpoint.ofAof] at hcp
    have hpos : ¬((o : Int) < 0) := by omega
    simp only [snapshotWriteHeader, hcp, true_and, hpos, if_false, if_true, Int.toNat_natCast]
    exact snapshotEmit_spec h _

section
variable {E : Engines} {rt : Runtime} {M : Maps} {pairs : EngineId → List (Bytes × Bytes)}

theorem snapshotWriteContents_spec
    (hrun : ∀ e : EngineId, e.ops.foreach (E e) rt = .ok (pairs e, rt))
    (hlen : ∀ e, ∀ item ∈ pairs e, item.1.length ≤ uint32Max ∧ item.2.length ≤ uint32Max)
    (offset : Option Nat) :
    Triple (snapshotWriteContents E
        { file := [], buffer := [], nextFileOffset := 0, checkpoint := .ofOffset offset }) rt
      (fun r rt' => rt' = rt ∧
        ((∃ w, r = some w ∧ w.file = savedFile offset (traversal pairs EngineId.all) ∧
            (savedFile offset (traversal pairs EngineId.all)).length ≤ offMax) ∨
          (r = none ∧ offMax < (savedFile offset (traversal pairs EngineId.all)).length))) Never := by
  generalize hrecords : traversal pairs EngineId.all = records
  refine (snapshotCountRecords_spec hrun EngineId.all (Nat.zero_le _)).bind fun r rt' h => ?_
  obtain ⟨rfl, rfl⟩ := h
  rw [hrecords, Nat.zero_add]
  have hweight := length_recordsBytes_ge records
  have hfile := length_savedFile offset records
  by_cases hcount : records.length ≤ uint64Max
  swap
  · -- so many records are longer than any file
    simp only [hcount, if_false]
    refine Triple.pure ⟨rfl, .inr ⟨rfl, ?_⟩⟩
    unfold snapshotRecordHeaderSize at hweight
    unfold uint64Max at hcount
    unfold offMax
    omega
  simp only [hcount, if_true]
  have hstart : Emitted (.ofOffset offset) []
      (({ file := [], buffer := [], nextFileOffset := 0, checkpoint := .ofOffset offset } :
        SnapshotWriter), crcStart) :=
    ⟨⟨rfl, rfl, Nat.zero_le _, Nat.zero_le _⟩, rfl, rfl⟩
  obtain ⟨out, hout, hemitted⟩ | ⟨hnone, hover⟩ := snapshotWriteHeader_spec offset records.length hstart
  swap
  · rw [List.nil_append, length_savedHeader] at hover
    exact absurd hover (by decide)
  simp only [hout]
  rw [List.nil_append] at hemitted
  refine (snapshotWriteRecords_spec hrun EngineId.all hlen hemitted).bind fun r rt' h => ?_
  obtain ⟨rfl, ⟨out1, rfl, h1⟩ | ⟨rfl, hover⟩⟩ := h
  swap
  · rw [hrecords, List.length_append, length_savedHeader] at hover
    exact Triple.pure ⟨rfl, .inr ⟨rfl, by omega⟩⟩
  obtain ⟨w1, crc1⟩ := out1
  rw [hrecords] at h1
  have hsum : encodeU32Be (crc1 ^^^ 0xffffffff).toNat =
      encodeU32Be (snapshotChecksum (savedHeader offset records.length ++ recordsBytes records)) := by
    rw [snapshotChecksum, ← h1.crc]
  simp only [hsum]
  obtain ⟨w2, hw2, hwrote2, -⟩ | ⟨hnone, hover⟩ := snapshotWriterAppend_spec h1.wrote
    (encodeU32Be (snapshotChecksum (savedHeader offset records.length ++ recordsBytes records)))
  swap
  · rw [hnone, Option.bind_none]
    exact Triple.pure ⟨rfl, .inr ⟨rfl, hover⟩⟩
  rw [hw2, Option.bind_some]
  obtain ⟨w3, hw3, hwrote3, hempty, -, hfit⟩ | ⟨hnone, hover⟩ := snapshotWriterFlush_spec hwrote2
  · rw [hw3]
    refine Triple.pure ⟨rfl, .inl ⟨w3, rfl, ?_, hfit⟩⟩
    rw [← List.append_nil w3.file, ← hempty, hwrote3.contents]
    rfl
  · rw [hnone]
    exact Triple.pure ⟨rfl, .inr ⟨rfl, hover⟩⟩

/-- A list of the records of the four maps, each once. -/
structure Lists (M : Maps) (records : List SnapshotRecord) : Prop where
  mem : ∀ e k v, ⟨e, k, v⟩ ∈ records ↔ (M e).lookup k = some v
  distinct : (records.map SnapshotRecord.ident).Nodup
  array : records.countP (·.engine = .array) = (M .array).keys.card
  size : (recordsBytes records).length = (EngineId.all.map fun e => contentsWeight (M e)).sum

theorem mem_traversal_all (r : SnapshotRecord) :
    r ∈ traversal pairs EngineId.all ↔ (r.key, r.value) ∈ pairs r.engine := by
  obtain ⟨e, k, v⟩ := r
  simp only [traversal, recordsOf, List.mem_flatMap, List.mem_map, SnapshotRecord.mk.injEq,
    Prod.exists]
  constructor
  · rintro ⟨e', -, k', v', hmem, rfl, rfl, rfl⟩
    exact hmem
  · intro hmem
    exact ⟨e, by cases e <;> simp [EngineId.all], k, v, hmem, rfl, rfl, rfl⟩

theorem traversal_lists (hdistinct : ∀ e, DistinctKeys (pairs e)) (hpairs : ∀ e, mapOf (pairs e) = M e) :
    Lists M (traversal pairs EngineId.all) := by
  refine ⟨fun e k v => ?_, ?_, ?_, ?_⟩
  · rw [mem_traversal_all, ← hpairs e, lookup_mapOf (hdistinct e)]
  · have hone : ∀ e, ((recordsOf e (pairs e)).map SnapshotRecord.ident).Nodup := by
      intro e
      have hmap : (recordsOf e (pairs e)).map SnapshotRecord.ident =
          ((pairs e).map Prod.fst).map fun k => (e, k) := by
        simp [recordsOf, SnapshotRecord.ident, Function.comp_def]
      rw [hmap]
      exact (hdistinct e).map fun a b hab => (Prod.mk.inj hab).2
    rw [traversal, List.map_flatMap, List.nodup_flatMap]
    refine ⟨fun e _ => hone e, ?_⟩
    have hapart : ∀ e e', e ≠ e' → List.Disjoint ((recordsOf e (pairs e)).map SnapshotRecord.ident)
        ((recordsOf e' (pairs e')).map SnapshotRecord.ident) := by
      intro e e' hne a ha ha'
      simp only [recordsOf, SnapshotRecord.ident, List.map_map, List.mem_map, Function.comp] at ha ha'
      obtain ⟨p, -, rfl⟩ := ha
      obtain ⟨q, -, heq⟩ := ha'
      exact hne (Prod.mk.inj heq).1.symm
    simp only [EngineId.all, List.pairwise_cons, List.mem_cons, List.not_mem_nil, or_false,
      Function.onFun]
    exact ⟨fun e he => hapart _ _ (by rcases he with rfl | rfl | rfl <;> decide),
      fun e he => hapart _ _ (by rcases he with rfl | rfl <;> decide),
      fun e he => hapart _ _ (by rcases he with rfl; decide), by simp, List.Pairwise.nil⟩
  · have hcount : ∀ e, (recordsOf e (pairs e)).countP (·.engine = .array) =
        if e = .array then (pairs e).length else 0 := by
      intro e
      simp only [recordsOf, List.countP_map, Function.comp_def]
      split
      · simp_all
      · simp_all
    rw [← hpairs, card_keys_mapOf (hdistinct .array)]
    simp [traversal, EngineId.all, List.countP_append, hcount]
  · rw [length_recordsBytes, traversal, List.map_flatMap]
    simp only [List.flatMap, List.sum_flatten, List.map_map]
    congr 1
    refine List.map_congr_left fun e _ => ?_
    rw [← hpairs, contentsWeight_mapOf (hdistinct e)]
    simp [recordsOf, Function.comp_def]

/-- Saving four maps, whatever becomes of the memory: nothing for want of it, or
the file of their records unless it would be too long. -/
theorem kvsSnapshotStoreSaveWithCheckpoint_saves (h : E.Hold rt.mallocs M)
    (hlen : ∀ e k v, (M e).lookup k = some v → k.length ≤ uint32Max ∧ v.length ≤ uint32Max)
    (offset : Option Nat) :
    Triple (kvsSnapshotStoreSaveWithCheckpoint E (offset.map .ofAof)) rt
      (fun r rt' => rt.Extends rt' ∧ (r = none ∧ rt.CanFail ∨ ∃ records, Lists M records ∧
        r = if M.snapshotSize ≤ offMax then some (savedFile offset records) else none)) Never := by
  unfold kvsSnapshotStoreSaveWithCheckpoint
  refine (kvsMalloc_spec rt).bind fun r rt1 h1 => ?_
  obtain ⟨hext1, ⟨rfl, hcan⟩ | ⟨rfl, -⟩⟩ := h1
  · exact Triple.pure ⟨hext1, .inl ⟨rfl, hcan⟩⟩
  have hdirectory : Triple snapshotOpenParentDirectory rt1 (fun r rt2 => rt1.Extends rt2 ∧
      (r = true ∨ r = false ∧ rt1.CanFail)) Never := by
    refine (kvsMalloc_spec rt1).bind fun r rt2 h2 => ?_
    obtain ⟨hext2, ⟨rfl, hcan⟩ | ⟨rfl, -⟩⟩ := h2
    · exact Triple.pure ⟨hext2, .inr ⟨rfl, hcan⟩⟩
    · refine (kvsFree_spec _ rt2).bind fun _ rt3 h3 => ?_
      exact Triple.pure ⟨hext2.trans h3.1, .inl rfl⟩
  refine hdirectory.bind fun r rt2 h2 => ?_
  obtain ⟨hext2, rfl | ⟨rfl, hcan⟩⟩ := h2
  swap
  · rw [if_neg Bool.false_ne_true]
    refine (kvsFree_spec _ rt2).bind fun _ rt3 h3 => ?_
    exact Triple.pure ⟨(hext1.trans hext2).trans h3.1, .inl ⟨rfl, hext1.canFail hcan⟩⟩
  have hext2 := hext1.trans hext2
  simp only [if_true]
  refine (kvsMalloc_spec rt2).bind fun r rt3 h3 => ?_
  obtain ⟨hext3, ⟨rfl, hcan⟩ | ⟨rfl, -⟩⟩ := h3
  · refine (kvsFree_spec _ rt3).bind fun _ rt4 h4 => ?_
    exact Triple.pure ⟨(hext2.trans hext3).trans h4.1, .inl ⟨rfl, hext2.canFail hcan⟩⟩
  have hext3 := hext2.trans hext3
  have hcheckpoint : (offset.map SnapshotCheckpoint.ofAof).getD SnapshotCheckpoint.zero =
      .ofOffset offset := by
    cases offset <;> rfl
  simp only [hcheckpoint]
  choose pairs hrun hdistinct hpairs using (h.later hext3.mallocs).contains
  have hlists := traversal_lists hdistinct hpairs
  have hitems : ∀ e, ∀ item ∈ pairs e, item.1.length ≤ uint32Max ∧ item.2.length ≤ uint32Max := by
    intro e item hitem
    refine hlen e item.1 item.2 ?_
    rw [← hpairs e, lookup_mapOf (hdistinct e)]
    exact hitem
  refine (snapshotWriteContents_spec hrun hitems offset).bind fun r rt4 h4 => ?_
  obtain ⟨rfl, hwritten⟩ := h4
  refine (kvsFree_spec _ rt4).bind fun _ rt5 h5 => ?_
  refine (kvsFree_spec _ rt5).bind fun _ rt6 h6 => ?_
  refine Triple.pure ⟨(hext3.trans h5.1).trans h6.1, .inr ⟨_, hlists, ?_⟩⟩
  have hsize : (savedFile offset (traversal pairs EngineId.all)).length = M.snapshotSize := by
    rw [length_savedFile, hlists.size]
    rfl
  rw [hsize] at hwritten
  obtain ⟨w, rfl, hfile, hfit⟩ | ⟨rfl, hover⟩ := hwritten
  · rw [if_pos hfit, Option.map_some, hfile]
  · rw [if_neg (Nat.not_le.mpr hover), Option.map_none]

theorem kvsSnapshotStoreSaveWithCheckpoint_spec (h : E.Hold rt.mallocs M) (hfail : ¬rt.CanFail)
    (hlen : ∀ e k v, (M e).lookup k = some v → k.length ≤ uint32Max ∧ v.length ≤ uint32Max)
    (offset : Option Nat) :
    Triple (kvsSnapshotStoreSaveWithCheckpoint E (offset.map .ofAof)) rt
      (fun r rt' => rt.Extends rt' ∧ ∃ records, Lists M records ∧
        r = if M.snapshotSize ≤ offMax then some (savedFile offset records) else none) Never := by
  refine (kvsSnapshotStoreSaveWithCheckpoint_saves h hlen offset).weaken fun r rt' hr => ?_
  obtain ⟨hext, ⟨-, hcan⟩ | hsaved⟩ := hr
  · exact absurd hcan hfail
  · exact ⟨hext, hsaved⟩

theorem savedFile_format (hrecords : ∀ r ∈ records, r.Valid) (hcount : records.length ≤ uint64Max)
    (hoffset : ∀ o ∈ offset, o ≤ offMax) :
    SnapshotFile (savedFile offset records) ⟨records.length, .ofOffset offset⟩ records := by
  refine ⟨rfl, hrecords, savedHeader offset records.length, ?_, rfl⟩
  cases offset with
  | none => exact .v2 false records.length 0 hcount (Nat.zero_le _) fun _ => rfl
  | some o => exact .v2 true records.length o hcount (hoffset o rfl) fun h => by cases h

theorem Engines.Hold.array_card_le (h : E.Hold n M) : (M .array).keys.card ≤ kvsArraySize := by
  obtain ⟨pairs, hstores, hpairs⟩ := h .array
  rw [← hpairs, card_keys_mapOf hstores.distinct]
  exact hstores.size

end

-- ---------------------------------------------------------------------------
-- The round trip
-- ---------------------------------------------------------------------------

def Maps.Storable (M : Maps) : Prop :=
  ∀ e k v, (M e).lookup k = some v → 0 ∉ k ∧ 0 ∉ v ∧ k.length < 2 ^ 32 ∧ v.length < 2 ^ 32

/-- Maps some engines hold, and that a snapshot can carry. -/
structure Maps.Savable (M : Maps) : Prop where
  storable : M.Storable
  admitted : ∀ e k v, (M e).lookup k = some v → e.Admits k
  array : (M .array).keys.card ≤ kvsArraySize
  size : M.snapshotSize ≤ offMax

theorem Engines.Hold.admitted {E : Engines} (h : E.Hold n M) (e : EngineId) (k v : Bytes)
    (hv : (M e).lookup k = some v) : e.Admits k :=
  e.lawful.admitted (h e) (Finmap.mem_of_lookup_eq_some hv)

theorem Maps.Storable.lengths (h : Maps.Storable M) (e : EngineId) (k v : Bytes)
    (hv : (M e).lookup k = some v) : k.length ≤ uint32Max ∧ v.length ≤ uint32Max := by
  obtain ⟨-, -, hk, hvl⟩ := h e k v hv
  unfold uint32Max
  omega

/-- The file of some maps holds these maps and the checkpoint. -/
theorem savedFile_holds (offset : Option Nat) (hlists : Lists M records) (hM : Maps.Savable M)
    (hoffset : ∀ o ∈ offset, o ≤ offMax) :
    SnapshotFile (savedFile offset records) ⟨records.length, .ofOffset offset⟩ records ∧
      Maps.empty.loadAll records = some M ∧ ∀ r ∈ records, r.engine.Admits r.key := by
  have hmem : ∀ r ∈ records, (M r.engine).lookup r.key = some r.value :=
    fun r hr => (hlists.mem r.engine r.key r.value).mp hr
  have hvalid : ∀ r ∈ records, r.Valid := by
    intro r hr
    obtain ⟨hk, hv, -, -⟩ := hM.storable _ _ _ (hmem r hr)
    obtain ⟨hkl, hvl⟩ := hM.storable.lengths _ _ _ (hmem r hr)
    exact ⟨hkl, hvl, hk, hv⟩
  have hcount : records.length ≤ uint64Max := by
    have hweight := length_recordsBytes_ge records
    have hsize := hM.size
    rw [Maps.snapshotSize, ← hlists.size] at hsize
    unfold offMax at hsize
    unfold snapshotRecordHeaderSize at hweight
    unfold uint64Max
    omega
  have hloadable : Loadable records := ⟨hlists.distinct, by rw [hlists.array]; exact hM.array⟩
  obtain ⟨M', hload⟩ := Maps.loadAll_empty.mpr hloadable
  have hsame : M' = M := by
    funext e
    refine map_ext fun k v => ?_
    rw [Maps.lookup_loadAll hload, hlists.mem]
    simp [Maps.empty]
  rw [hsame] at hload
  exact ⟨savedFile_format hvalid hcount hoffset, hload, fun r hr => hM.admitted _ _ _ (hmem r hr)⟩

theorem load_savedFile (offset : Option Nat) (hlists : Lists M records) (hM : Maps.Savable M)
    (hoffset : ∀ o ∈ offset, o ≤ offMax) {E : Engines} (h : E.Hold rt.mallocs Maps.empty)
    (hfail : ¬rt.CanFail) (checkpoint : SnapshotCheckpoint) :
    Triple (kvsSnapshotStoreLoadWithCheckpoint (some (savedFile offset records)) E checkpoint) rt
      (fun res rt' => rt.Extends rt' ∧ res.1 = 0 ∧ res.2.1.Hold rt'.mallocs M ∧
        res.2.2 = .ofOffset offset) Never := by
  obtain ⟨hformat, hload, hadmits⟩ := savedFile_holds offset hlists hM hoffset
  refine (load_snapshotFile hformat h hfail hadmits checkpoint).weaken fun res rt' hres => ?_
  obtain ⟨hext, ⟨M2, hload2, hcode, hhold, hcheckpoint⟩ | ⟨hnone, -⟩⟩ := hres
  · rw [hload, Option.some.injEq] at hload2
    rw [← hload2] at hhold
    exact ⟨hext, hcode, hhold, hcheckpoint⟩
  · rw [hload] at hnone
    cases hnone

/-- The bytes saved from engines with the contents `M`, loaded into empty ones,
give back `M` and the checkpoint. Saving yields bytes whenever a file of that
size can exist at all. -/
theorem kvsSnapshotStore_roundTrip (E E₀ : Engines) (rt rt₀ : Runtime) (M : Maps)
    (offset : Option Nat) (checkpoint : SnapshotCheckpoint) (hE : E.Hold rt.mallocs M)
    (hM : M.Storable) (hoffset : ∀ o ∈ offset, o < 2 ^ 63)
    (hE₀ : E₀.Hold rt₀.mallocs Maps.empty) (hfail : ¬rt.CanFail) (hfail₀ : ¬rt₀.CanFail) :
    ∃ saved rt', kvsSnapshotStoreSaveWithCheckpoint E (offset.map .ofAof) rt = .ok (saved, rt') ∧
      (saved = none ↔ offMax < M.snapshotSize) ∧
      ∀ file, saved = some file → ∃ E' checkpoint' rt₀',
        kvsSnapshotStoreLoadWithCheckpoint (some file) E₀ checkpoint rt₀ =
          .ok ((0, E', checkpoint'), rt₀') ∧
        E'.Contains rt₀' M ∧ checkpoint' = .ofOffset offset := by
  obtain ⟨saved, rt', hsave, -, records, hlists, hsaved⟩ :=
    (kvsSnapshotStoreSaveWithCheckpoint_spec hE hfail hM.lengths offset).run
  refine ⟨saved, rt', hsave, ?_, ?_⟩
  · rw [hsaved]
    split <;> simp <;> omega
  · rintro file rfl
    split at hsaved
    · rename_i hfit
      rw [Option.some.injEq] at hsaved
      subst hsaved
      obtain ⟨⟨code, E', checkpoint'⟩, rt₀', hload, -, hcode, hhold, hcheckpoint⟩ :=
        (load_savedFile offset hlists ⟨hM, hE.admitted, hE.array_card_le, hfit⟩
          (fun o ho => Nat.le_sub_one_of_lt (hoffset o ho)) hE₀ hfail₀ checkpoint).run
      simp only at hcode hhold hcheckpoint
      rw [hcode] at hload
      exact ⟨E', checkpoint', rt₀', hload, hhold.contains, hcheckpoint⟩
    · cases hsaved

/-- A key in each engine, saved with a checkpoint. -/
theorem kvsSnapshotStore_roundTrip_four :
    ∃ (E E₀ : Engines) (rt rt₀ : Runtime) (M : Maps) (file : Bytes) (E' : Engines) (rt' rt₀' : Runtime),
      (M .array).lookup [97] = some [98, 99] ∧ (M .rbtree).lookup [107] = some [118] ∧
      (M .hash).lookup [104] = some [] ∧ (M .skiplist).lookup [115] = some [116] ∧ E.Contains rt M ∧
      kvsSnapshotStoreSaveWithCheckpoint E (some (.ofAof 32)) rt = .ok (some file, rt') ∧
      kvsSnapshotStoreLoadWithCheckpoint (some file) E₀ SnapshotCheckpoint.zero rt₀ =
        .ok ((0, E', ⟨true, 32⟩), rt₀') ∧ E'.Contains rt₀' M := by
  have hfail : ¬(Runtime.start (fun _ => false) (fun _ => false)).CanFail := by
    rintro ⟨n, hn⟩
    cases hn
  obtain ⟨_, rt₀, -, hext₀, E₀, -, hE₀⟩ := (initKvengine_spec hfail).run
  have hfail₀ : ¬rt₀.CanFail := fun hcan => hfail (hext₀.canFail hcan)
  obtain ⟨E₁, rt₁, hfail₁, hE₁⟩ := hE₀.insert (k := [97]) hfail₀ .array [98, 99] trivial (by decide)
  obtain ⟨E₂, rt₂, hfail₂, hE₂⟩ := hE₁.insert (k := [107]) hfail₁ .rbtree [118] trivial trivial
  obtain ⟨E₃, rt₃, hfail₃, hE₃⟩ := hE₂.insert (k := [104]) hfail₂ .hash [] (by decide) trivial
  obtain ⟨E, rt, hfail, hE⟩ := hE₃.insert (k := [115]) hfail₃ .skiplist [116] trivial trivial
  obtain ⟨M, hM⟩ : ∃ M : Maps, M = [(EngineId.array, [97], [98, 99]), (.rbtree, [107], [118]),
    (.hash, [104], []), (.skiplist, [115], [116])].foldl (fun M r => M.put r.1 ((M r.1).insert r.2.1 r.2.2)) Maps.empty := ⟨_, rfl⟩
  have hE : E.Hold rt.mallocs M := by
    rw [hM]
    exact hE
  have hstorable : M.Storable := by
    intro e k v hv
    rw [hM] at hv
    simp only [List.foldl_cons, List.foldl_nil, Maps.lookup_put] at hv
    rcases hv with ⟨-, rfl, rfl⟩ | ⟨-, ⟨-, rfl, rfl⟩ | ⟨-, ⟨-, rfl, rfl⟩ | ⟨-, ⟨-, rfl, rfl⟩ | ⟨-, hno⟩⟩⟩⟩
    · decide
    · decide
    · decide
    · decide
    · cases hno
  have hsize : M.snapshotSize ≤ offMax := by
    rw [hM]
    decide
  obtain ⟨saved, rt', hsave, hnone, hload⟩ := kvsSnapshotStore_roundTrip E E₀ rt rt₀ M (some 32)
    SnapshotCheckpoint.zero hE hstorable (by simp) hE₀ hfail hfail₀
  cases saved with
  | none => exact absurd (hnone.mp rfl) (Nat.not_lt.mpr hsize)
  | some file =>
    obtain ⟨E', _, rt₀', hrun, hcontains, rfl⟩ := hload file rfl
    refine ⟨E, E₀, rt, rt₀, M, file, E', rt', rt₀', ?_, ?_, ?_, ?_, hE.contains, hsave, hrun, hcontains⟩
    all_goals
      rw [hM]
      decide

end KvStore
