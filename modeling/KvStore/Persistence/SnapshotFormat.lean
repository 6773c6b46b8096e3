import KvStore.Persistence.Snapshot

/-!
# The format of a snapshot

The grammar of a snapshot file, in its own words, and the theorem that the
first pass of loading accepts exactly it. Each reader of the source is exact
for its part of the grammar; the CRC is the fold of the bytes read so far.
-/

namespace KvStore

open Lib

structure SnapshotRecord where
  engine : EngineId
  key : Bytes
  value : Bytes
  deriving DecidableEq

structure SnapshotRecord.Valid (r : SnapshotRecord) : Prop where
  keyLength : r.key.length ≤ uint32Max
  valueLength : r.value.length ≤ uint32Max
  key : 0 ∉ r.key
  value : 0 ∉ r.value

def SnapshotRecord.bytes (r : SnapshotRecord) : Bytes :=
  snapshotRecordHeader r.engine r.key.length r.value.length ++ r.key ++ r.value

/-- The two versions of a header and what they say. -/
inductive HeaderWire : Bytes → SnapshotHeader → Prop
  | v1 (count : Nat) : count ≤ uint64Max →
    HeaderWire (snapshotMagic ++ encodeU32Be snapshotVersionV1 ++ encodeU64Be count)
      ⟨count, SnapshotCheckpoint.zero⟩
  | v2 (hasOffset : Bool) (count offset : Nat) : count ≤ uint64Max → offset ≤ offMax →
    (hasOffset = false → offset = 0) →
    HeaderWire (snapshotHeaderBytes hasOffset.toNat count offset) ⟨count, ⟨hasOffset, offset⟩⟩

def snapshotChecksum (data : Bytes) : Nat := (snapshotCrc32Update crcStart data ^^^ 0xffffffff).toNat

def recordsBytes (records : List SnapshotRecord) : Bytes := records.flatMap SnapshotRecord.bytes

/-- A header, as many records as it counts, and the checksum. -/
structure SnapshotFile (file : Bytes) (header : SnapshotHeader) (records : List SnapshotRecord) :
    Prop where
  count : records.length = header.recordCount
  valid : ∀ r ∈ records, r.Valid
  wire : ∃ head, HeaderWire head header ∧
    file = head ++ recordsBytes records ++ encodeU32Be (snapshotChecksum (head ++ recordsBytes records))

-- ---------------------------------------------------------------------------
-- CRC and numbers
-- ---------------------------------------------------------------------------

theorem snapshotCrc32Update_append (crc : UInt32) (a b : Bytes) :
    snapshotCrc32Update crc (a ++ b) = snapshotCrc32Update (snapshotCrc32Update crc a) b := by
  induction a generalizing crc with
  | nil => rfl
  | cons x a ih => exact ih _

@[simp] theorem length_encodeU32Be (v : Nat) : (encodeU32Be v).length = 4 := length_toBigEndian ..

@[simp] theorem length_encodeU64Be (v : Nat) : (encodeU64Be v).length = 8 := length_toBigEndian ..

theorem decodeU32Be_encode (h : v ≤ uint32Max) : decodeU32Be (encodeU32Be v) = v := by
  refine ofBigEndian_toBigEndian ?_
  unfold uint32Max at h
  omega

theorem decodeU64Be_encode (h : v ≤ uint64Max) : decodeU64Be (encodeU64Be v) = v := by
  refine ofBigEndian_toBigEndian ?_
  unfold uint64Max at h
  omega

theorem encodeU32Be_decode (h : input.length = 4) : encodeU32Be (decodeU32Be input) = input := by
  have := toBigEndian_ofBigEndian input
  rwa [h] at this

theorem encodeU64Be_decode (h : input.length = 8) : encodeU64Be (decodeU64Be input) = input := by
  have := toBigEndian_ofBigEndian input
  rwa [h] at this

theorem decodeU32Be_le (h : input.length = 4) : decodeU32Be input ≤ uint32Max := by
  have := ofBigEndian_lt input
  rw [h] at this
  simp only [decodeU32Be, uint32Max]
  omega

theorem decodeU64Be_le (h : input.length = 8) : decodeU64Be input ≤ uint64Max := by
  have := ofBigEndian_lt input
  rw [h] at this
  simp only [decodeU64Be, uint64Max]
  omega

theorem ofSnapshotId_eq_some {b : UInt8} : EngineId.ofSnapshotId b = some e ↔ b = e.snapshotId := by
  constructor
  · intro h
    simp only [EngineId.ofSnapshotId] at h
    split at h
    · cases h
    split at h
    · cases h; assumption
    split at h
    · cases h; assumption
    split at h
    · cases h; assumption
    · cases h
      rename_i hrange h1 h2 h3
      apply UInt8.toNat_inj.mp
      simp only [not_or, UInt8.not_lt, UInt8.le_iff_toNat_le, UInt8.toNat_inj.symm] at hrange h1 h2 h3
      simp only [EngineId.snapshotId]
      simp at hrange h1 h2 h3 ⊢
      omega
  · rintro rfl
    cases e <;> rfl

-- ---------------------------------------------------------------------------
-- The readers
-- ---------------------------------------------------------------------------

theorem exact_take (n : Nat) :
    Exact (snapshotCursorTake n) fun w field => w = field ∧ field.length = n := by
  intro x field rest
  simp only [snapshotCursorTake]
  split
  · rename_i hn
    refine ⟨fun h => (by cases h), ?_⟩
    rintro ⟨w, rfl, rfl, rfl⟩
    simp at hn
  · rename_i hn
    simp only [Scan.done.injEq]
    constructor
    · rintro ⟨rfl, rfl⟩
      exact ⟨_, (List.take_append_drop n x).symm, rfl, by simp; omega⟩
    · rintro ⟨w, rfl, rfl, rfl⟩
      simp

theorem take_append (w rest : Bytes) (h : w.length = n) :
    snapshotCursorTake n (w ++ rest) = .done w rest :=
  (exact_take n _ _ _).mpr ⟨w, rfl, rfl, h⟩

theorem exact_header_v1 (crc : UInt32) :
    Exact (snapshotReadHeaderV1 crc) fun w r => ∃ count ≤ uint64Max, w = encodeU64Be count ∧
      r = (⟨count, SnapshotCheckpoint.zero⟩, snapshotCrc32Update crc w) := by
  intro x r rest
  simp only [snapshotReadHeaderV1, Scan.bind_eq_done, Scan.done.injEq]
  constructor
  · rintro ⟨body, rest', htake, rfl, rfl⟩
    obtain ⟨w, rfl, rfl, hlen⟩ := (exact_take _ _ _ _).mp htake
    refine ⟨w, rfl, _, decodeU64Be_le hlen, (encodeU64Be_decode hlen).symm, rfl⟩
  · rintro ⟨w, rfl, count, hcount, rfl, rfl⟩
    refine ⟨_, rest, take_append _ _ (length_encodeU64Be count), ?_, rfl⟩
    rw [decodeU64Be_encode hcount]

theorem body_parts (body : Bytes) :
    body = body.take 4 ++ (body.drop 4).take 8 ++ body.drop 12 := by
  have h1 := (List.take_append_drop 4 body).symm
  have h2 := (List.take_append_drop 8 (body.drop 4)).symm
  rw [List.drop_drop] at h2
  rw [List.append_assoc, ← h2, ← h1]

theorem exact_header_v2 (crc : UInt32) :
    Exact (snapshotReadHeaderV2 crc) fun w r => ∃ (hasOffset : Bool) (count offset : Nat),
      count ≤ uint64Max ∧ offset ≤ offMax ∧ (hasOffset = false → offset = 0) ∧
      w = encodeU32Be hasOffset.toNat ++ encodeU64Be count ++ encodeU64Be offset ∧
      r = (⟨count, ⟨hasOffset, offset⟩⟩, snapshotCrc32Update crc w) := by
  intro x r rest
  simp only [snapshotReadHeaderV2, Scan.bind_eq_done]
  constructor
  · rintro ⟨body, rest', htake, hdone⟩
    obtain ⟨w, rfl, rfl, hlen⟩ := (exact_take _ _ _ _).mp htake
    have hlen' : w.length = 20 := hlen
    split at hdone
    · cases hdone
    split at hdone
    · cases hdone
    rename_i hflags hoffset
    simp only [Scan.done.injEq] at hdone
    obtain ⟨rfl, rfl⟩ := hdone
    have h4 : (w.take 4).length = 4 := by simp; omega
    have h8 : ((w.drop 4).take 8).length = 8 := by simp; omega
    have h8' : (w.drop 12).length = 8 := by simp; omega
    refine ⟨w, rfl, decide (decodeU32Be (w.take 4) % 2 = 1), _, decodeU64Be (w.drop 12),
      decodeU64Be_le h8, by omega, ?_, ?_, rfl⟩
    · intro hclear
      simp only [decide_eq_false_iff_not] at hclear
      simpa [hclear] using hoffset
    · have hbit : (decide (decodeU32Be (w.take 4) % 2 = 1)).toNat = decodeU32Be (w.take 4) := by
        by_cases hodd : decodeU32Be (w.take 4) % 2 = 1
        · simp only [hodd, decide_true, Bool.toNat_true]
          omega
        · simp only [hodd, decide_false, Bool.toNat_false]
          omega
      rw [hbit, encodeU32Be_decode h4, encodeU64Be_decode h8, encodeU64Be_decode h8']
      exact body_parts w
  · rintro ⟨w, rfl, hasOffset, count, offset, hcount, hoffset, hclear, rfl, rfl⟩
    refine ⟨_, rest, take_append _ _ (by simp [snapshotHeaderV2Size]), ?_⟩
    have hbit : hasOffset.toNat ≤ uint32Max := Nat.le_trans (Bool.toNat_le hasOffset) (by decide)
    have hoffset' : offset ≤ uint64Max := Nat.le_trans hoffset (by decide)
    have hflags : decodeU32Be ((encodeU32Be hasOffset.toNat ++ encodeU64Be count ++
        encodeU64Be offset).take 4) = hasOffset.toNat := by
      rw [List.append_assoc, List.take_left' (length_encodeU32Be _), decodeU32Be_encode hbit]
    have hoff : decodeU64Be ((encodeU32Be hasOffset.toNat ++ encodeU64Be count ++
        encodeU64Be offset).drop 12) = offset := by
      rw [List.drop_left' (by simp), decodeU64Be_encode hoffset']
    have hcnt : decodeU64Be (((encodeU32Be hasOffset.toNat ++ encodeU64Be count ++
        encodeU64Be offset).drop 4).take 8) = count := by
      rw [List.append_assoc, List.drop_left' (length_encodeU32Be _),
        List.take_left' (length_encodeU64Be _), decodeU64Be_encode hcount]
    simp only [hflags, hoff, hcnt]
    cases hasOffset with
    | true =>
      simp [show ¬offMax < offset by omega]
    | false =>
      simp [hclear rfl]

theorem exact_header (crc : UInt32) :
    Exact (snapshotReadHeader crc) fun w r => HeaderWire w r.1 ∧ r.2 = snapshotCrc32Update crc w := by
  intro x r rest
  simp only [snapshotReadHeader, Scan.bind_eq_done]
  constructor
  · rintro ⟨start, rest', htake, hdone⟩
    obtain ⟨w, rfl, rfl, hlen⟩ := (exact_take _ _ _ _).mp htake
    split at hdone
    · cases hdone
    rename_i hmagic
    have h4 : (w.drop 8).length = 4 := by simp; omega
    have hw : ∀ v, decodeU32Be (w.drop 8) = v → w = snapshotMagic ++ encodeU32Be v := by
      rintro v rfl
      rw [encodeU32Be_decode h4, ← Decidable.not_not.mp hmagic, List.take_append_drop]
    split at hdone
    · rename_i hversion
      obtain ⟨v, rfl, count, hcount, rfl, rfl⟩ := (exact_header_v1 _ _ _ _).mp hdone
      refine ⟨w ++ encodeU64Be count, (List.append_assoc ..).symm, ?_, ?_⟩
      · rw [hw _ hversion]
        exact .v1 count hcount
      · exact (snapshotCrc32Update_append ..).symm
    split at hdone
    · rename_i hversion
      obtain ⟨v, rfl, hasOffset, count, offset, hcount, hoffset, hclear, rfl, rfl⟩ :=
        (exact_header_v2 _ _ _ _).mp hdone
      refine ⟨w ++ (encodeU32Be hasOffset.toNat ++ encodeU64Be count ++ encodeU64Be offset),
        (List.append_assoc ..).symm, ?_, ?_⟩
      · have hhead : w ++ (encodeU32Be hasOffset.toNat ++ encodeU64Be count ++ encodeU64Be offset) =
            snapshotHeaderBytes hasOffset.toNat count offset := by
          rw [hw _ hversion]
          simp only [snapshotHeaderBytes, List.append_assoc]
        rw [hhead]
        exact .v2 hasOffset count offset hcount hoffset hclear
      · exact (snapshotCrc32Update_append ..).symm
    · cases hdone
  · rintro ⟨w, rfl, hwire, hcrc⟩
    obtain ⟨header, c⟩ := r
    simp only at hwire hcrc
    subst hcrc
    have hstart : ∀ v, ((snapshotMagic ++ encodeU32Be v).take 8 = snapshotMagic) ∧
        (snapshotMagic ++ encodeU32Be v).drop 8 = encodeU32Be v :=
      fun v => ⟨List.take_left' rfl, List.drop_left' rfl⟩
    cases hwire with
    | v1 count hcount =>
      refine ⟨snapshotMagic ++ encodeU32Be snapshotVersionV1, encodeU64Be count ++ rest, ?_, ?_⟩
      · rw [List.append_assoc (snapshotMagic ++ encodeU32Be snapshotVersionV1)]
        exact take_append _ _ (by simp [snapshotMagic])
      · rw [if_neg (by simp [(hstart snapshotVersionV1).1]), (hstart snapshotVersionV1).2,
          decodeU32Be_encode (by decide), if_pos rfl]
        exact (exact_header_v1 _ _ _ _).mpr
          ⟨_, rfl, count, hcount, rfl, by rw [snapshotCrc32Update_append]⟩
    | v2 hasOffset count offset hcount hoffset hclear =>
      refine ⟨snapshotMagic ++ encodeU32Be snapshotVersionV2,
        encodeU32Be hasOffset.toNat ++ encodeU64Be count ++ encodeU64Be offset ++ rest, ?_, ?_⟩
      · have hsplit : snapshotHeaderBytes hasOffset.toNat count offset ++ rest =
            (snapshotMagic ++ encodeU32Be snapshotVersionV2) ++
              (encodeU32Be hasOffset.toNat ++ encodeU64Be count ++ encodeU64Be offset ++ rest) := by
          simp only [snapshotHeaderBytes, List.append_assoc]
        rw [hsplit]
        exact take_append _ _ (by simp [snapshotMagic])
      · rw [if_neg (by simp [(hstart snapshotVersionV2).1]), (hstart snapshotVersionV2).2,
          decodeU32Be_encode (by decide), if_neg (by decide), if_pos rfl]
        refine (exact_header_v2 _ _ _ _).mpr
          ⟨_, rfl, hasOffset, count, offset, hcount, hoffset, hclear, rfl, ?_⟩
        simp only [snapshotHeaderBytes, ← snapshotCrc32Update_append, List.append_assoc]

theorem exact_field (length : Nat) (crc : UInt32) :
    Exact (snapshotCheckField length crc) fun w c =>
      w.length = length ∧ 0 ∉ w ∧ c = snapshotCrc32Update crc w := by
  intro x c rest
  simp only [snapshotCheckField, Scan.bind_eq_done]
  constructor
  · rintro ⟨field, rest', htake, hdone⟩
    obtain ⟨w, rfl, rfl, hlen⟩ := (exact_take _ _ _ _).mp htake
    split at hdone
    · cases hdone
    · rename_i hnul
      simp only [Scan.done.injEq] at hdone
      obtain ⟨rfl, rfl⟩ := hdone
      exact ⟨w, rfl, hlen, hnul, rfl⟩
  · rintro ⟨w, rfl, hlen, hnul, rfl⟩
    exact ⟨w, rest, take_append w rest hlen, if_neg hnul⟩

theorem exact_record (crc : UInt32) :
    Exact (snapshotCheckRecord crc) fun w c =>
      ∃ r : SnapshotRecord, r.Valid ∧ w = r.bytes ∧ c = snapshotCrc32Update crc w := by
  intro x c rest
  simp only [snapshotCheckRecord, Scan.bind_eq_done]
  constructor
  · rintro ⟨header, rest', htake, hdone⟩
    obtain ⟨w, rfl, rfl, hlen⟩ := (exact_take _ _ _ _).mp htake
    cases w with
    | nil => cases hdone
    | cons b lengths =>
      simp only at hdone
      cases hid : EngineId.ofSnapshotId b with
      | none => simp [hid] at hdone
      | some engine =>
        simp only [hid, Scan.bind_eq_done] at hdone
        obtain ⟨c', rest'', hkey, hvalue⟩ := hdone
        obtain ⟨key, rfl, hkeyLen, hkeyNul, rfl⟩ := (exact_field _ _ _ _ _).mp hkey
        obtain ⟨value, rfl, hvalueLen, hvalueNul, rfl⟩ := (exact_field _ _ _ _ _).mp hvalue
        rw [List.length_cons, snapshotRecordHeaderSize] at hlen
        have h4 : (lengths.take 4).length = 4 := by simp; omega
        have h4' : (lengths.drop 4).length = 4 := by simp; omega
        have hhead : b :: lengths = snapshotRecordHeader engine key.length value.length := by
          rw [snapshotRecordHeader, hkeyLen, hvalueLen, encodeU32Be_decode h4,
            encodeU32Be_decode h4', List.take_append_drop, ← ofSnapshotId_eq_some.mp hid]
        refine ⟨b :: lengths ++ key ++ value, by simp only [List.append_assoc],
          ⟨engine, key, value⟩, ⟨?_, ?_, hkeyNul, hvalueNul⟩, ?_, ?_⟩
        · rw [hkeyLen]
          exact decodeU32Be_le h4
        · rw [hvalueLen]
          exact decodeU32Be_le h4'
        · rw [hhead]
          rfl
        · rw [snapshotCrc32Update_append, snapshotCrc32Update_append]
  · rintro ⟨w, rfl, r, hvalid, rfl, rfl⟩
    refine ⟨snapshotRecordHeader r.engine r.key.length r.value.length, r.key ++ (r.value ++ rest),
      ?_, ?_⟩
    · rw [SnapshotRecord.bytes, List.append_assoc, List.append_assoc]
      exact take_append _ _ (by simp [snapshotRecordHeader, snapshotRecordHeaderSize])
    · simp only [snapshotRecordHeader, ofSnapshotId_eq_some.mpr rfl, Scan.bind_eq_done]
      rw [List.take_left' (length_encodeU32Be _), List.drop_left' (length_encodeU32Be _),
        decodeU32Be_encode hvalid.keyLength, decodeU32Be_encode hvalid.valueLength]
      refine ⟨_, r.value ++ rest, (exact_field _ _ _ _ _).mpr ⟨r.key, rfl, rfl, hvalid.key, rfl⟩, ?_⟩
      refine (exact_field _ _ _ _ _).mpr ⟨r.value, rfl, rfl, hvalid.value, ?_⟩
      rw [SnapshotRecord.bytes, snapshotCrc32Update_append, snapshotCrc32Update_append]
      rfl

theorem recordsBytes_cons (r : SnapshotRecord) (records : List SnapshotRecord) :
    recordsBytes (r :: records) = r.bytes ++ recordsBytes records := List.flatMap_cons ..

theorem exact_records (count : Nat) (crc : UInt32) :
    Exact (snapshotCheckRecords count crc) fun w c => ∃ records : List SnapshotRecord,
      records.length = count ∧ (∀ r ∈ records, r.Valid) ∧ w = recordsBytes records ∧
      c = snapshotCrc32Update crc w := by
  induction count generalizing crc with
  | zero =>
    intro x c rest
    simp only [snapshotCheckRecords, Scan.done.injEq]
    constructor
    · rintro ⟨rfl, rfl⟩
      exact ⟨[], rfl, [], rfl, by simp, rfl, rfl⟩
    · rintro ⟨w, rfl, records, hlen, -, rfl, rfl⟩
      rw [List.length_eq_zero_iff.mp hlen]
      exact ⟨rfl, rfl⟩
  | succ count ih =>
    intro x c rest
    simp only [snapshotCheckRecords, Scan.bind_eq_done]
    constructor
    · rintro ⟨c', rest', hrecord, hrest⟩
      obtain ⟨_, rfl, r, hvalid, rfl, rfl⟩ := (exact_record _ _ _ _).mp hrecord
      obtain ⟨_, rfl, records, hlen, hvalids, rfl, rfl⟩ := (ih _ _ _ _).mp hrest
      refine ⟨r.bytes ++ recordsBytes records, by simp, r :: records, by simp [hlen], ?_,
        (recordsBytes_cons r records).symm, (snapshotCrc32Update_append ..).symm⟩
      simpa [hvalid] using hvalids
    · rintro ⟨_, rfl, records, hlen, hvalids, rfl, rfl⟩
      cases records with
      | nil => cases hlen
      | cons r records =>
        simp only [List.mem_cons, forall_eq_or_imp] at hvalids
        refine ⟨_, recordsBytes records ++ rest, (exact_record _ _ _ _).mpr
          ⟨r.bytes, ?_, r, hvalids.1, rfl, rfl⟩, (ih _ _ _ _).mpr ⟨_, rfl, records, ?_, hvalids.2,
            rfl, ?_⟩⟩
        · rw [recordsBytes_cons, List.append_assoc]
        · simpa using hlen
        · rw [recordsBytes_cons, snapshotCrc32Update_append]

-- ---------------------------------------------------------------------------
-- The whole file
-- ---------------------------------------------------------------------------

theorem length_recordBytes (r : SnapshotRecord) :
    r.bytes.length = snapshotRecordHeaderSize + r.key.length + r.value.length := by
  simp [SnapshotRecord.bytes, snapshotRecordHeader, snapshotRecordHeaderSize]
  omega

theorem length_recordsBytes_ge (records : List SnapshotRecord) :
    records.length * snapshotRecordHeaderSize ≤ (recordsBytes records).length := by
  induction records with
  | nil => simp
  | cons r records ih =>
    rw [recordsBytes_cons, List.length_append, length_recordBytes, List.length_cons, Nat.add_mul,
      Nat.one_mul]
    omega

theorem HeaderWire.length_ge (h : HeaderWire w header) : snapshotHeaderV1Size ≤ w.length := by
  cases h <;> simp [snapshotHeaderBytes, snapshotMagic, snapshotHeaderV1Size]

theorem HeaderWire.read (h : HeaderWire w header) (crc : UInt32) (rest : Bytes) :
    snapshotReadHeader crc (w ++ rest) = .done (header, snapshotCrc32Update crc w) rest :=
  (exact_header crc _ _ _).mpr ⟨w, rfl, h, rfl⟩

/-- The first pass accepts exactly the files of the format. -/
theorem snapshotValidate_eq_some :
    snapshotValidate file = some header ↔ ∃ records, SnapshotFile file header records := by
  constructor
  · intro h
    simp only [snapshotValidate] at h
    split at h
    · cases h
    split at h
    · rename_i hdr crc cursor hheader
      obtain ⟨w, rfl, hwire, hcrc⟩ := (exact_header _ _ _ _).mp hheader
      simp only at hwire hcrc
      split at h
      · cases h
      split at h
      · cases h
      split at h
      · rename_i crc' cursor' hrecords
        obtain ⟨_, rfl, records, hlen, hvalid, rfl, rfl⟩ := (exact_records _ _ _ _ _).mp hrecords
        split at h
        · rename_i checksum cursor'' htake
          obtain ⟨_, rfl, rfl, hsum⟩ := (exact_take _ _ _ _).mp htake
          split at h
          · cases h
          split at h
          · cases h
          rename_i hcheck hend
          simp only [Option.some.injEq] at h
          subst h
          refine ⟨records, hlen, hvalid, w, hwire, ?_⟩
          rw [Decidable.not_not.mp hend, List.append_nil, List.append_assoc]
          congr 2
          rw [hcrc, ← snapshotCrc32Update_append] at hcheck
          have hsum' := encodeU32Be_decode hsum
          rw [← Decidable.not_not.mp hcheck] at hsum'
          exact hsum'.symm
        · cases h
      · cases h
    · cases h
  · rintro ⟨records, hcount, hvalid, head, hwire, rfl⟩
    have hhead := hwire.length_ge
    have hpayload := length_recordsBytes_ge records
    rw [hcount] at hpayload
    have hsum : snapshotChecksum (head ++ recordsBytes records) ≤ uint32Max :=
      Nat.le_sub_one_of_lt (UInt32.toNat_lt _)
    have hrecords : snapshotCheckRecords header.recordCount (snapshotCrc32Update crcStart head)
        (recordsBytes records ++ encodeU32Be (snapshotChecksum (head ++ recordsBytes records))) =
        .done (snapshotCrc32Update crcStart (head ++ recordsBytes records))
          (encodeU32Be (snapshotChecksum (head ++ recordsBytes records))) :=
      (exact_records _ _ _ _ _).mpr
        ⟨_, rfl, records, hcount, hvalid, rfl, snapshotCrc32Update_append ..⟩
    have htake : ∀ v, snapshotCursorTake snapshotChecksumSize (encodeU32Be v) =
        .done (encodeU32Be v) [] := by
      intro v
      simpa using take_append (n := snapshotChecksumSize) (encodeU32Be v) [] (length_encodeU32Be v)
    have hcountLe : ¬header.recordCount > ((recordsBytes records ++
        encodeU32Be (snapshotChecksum (head ++ recordsBytes records))).length -
          snapshotChecksumSize) / snapshotRecordHeaderSize := by
      rw [gt_iff_lt, Nat.not_lt, Nat.le_div_iff_mul_le (by decide)]
      simpa [snapshotChecksumSize] using hpayload
    rw [snapshotValidate, if_neg (by
      simp only [List.length_append, length_encodeU32Be, snapshotChecksumSize]
      omega)]
    rw [List.append_assoc, hwire.read]
    simp only
    rw [if_neg (by simp [snapshotChecksumSize]), if_neg hcountLe, hrecords]
    simp only [htake]
    rw [if_neg, if_neg (by simp)]
    rw [decodeU32Be_encode hsum]
    simp [snapshotChecksum]

-- ---------------------------------------------------------------------------
-- The format is unambiguous
-- ---------------------------------------------------------------------------

theorem snapshotId_injective {e e' : EngineId} (h : e.snapshotId = e'.snapshotId) : e = e' := by
  have := ofSnapshotId_eq_some.mpr h
  rw [ofSnapshotId_eq_some.mpr rfl] at this
  exact Option.some.inj this

theorem recordBytes_inj {r r' : SnapshotRecord} (hr : r.Valid) (hr' : r'.Valid)
    (h : r.bytes ++ rest = r'.bytes ++ rest') : r = r' ∧ rest = rest' := by
  simp only [SnapshotRecord.bytes, snapshotRecordHeader, List.cons_append, List.append_assoc,
    List.cons.injEq] at h
  obtain ⟨hid, h⟩ := h
  obtain ⟨hklen, h⟩ := List.append_inj h (by simp)
  obtain ⟨hvlen, h⟩ := List.append_inj h (by simp)
  have hklen' := congrArg decodeU32Be hklen
  have hvlen' := congrArg decodeU32Be hvlen
  rw [decodeU32Be_encode hr.keyLength, decodeU32Be_encode hr'.keyLength] at hklen'
  rw [decodeU32Be_encode hr.valueLength, decodeU32Be_encode hr'.valueLength] at hvlen'
  obtain ⟨hkey, h⟩ := List.append_inj h hklen'
  obtain ⟨hvalue, h⟩ := List.append_inj h hvlen'
  refine ⟨?_, h⟩
  cases r
  cases r'
  simp only [SnapshotRecord.mk.injEq]
  exact ⟨snapshotId_injective hid, hkey, hvalue⟩

theorem recordsBytes_inj {a b : List SnapshotRecord} (hlen : a.length = b.length)
    (ha : ∀ r ∈ a, r.Valid) (hb : ∀ r ∈ b, r.Valid)
    (h : recordsBytes a ++ rest = recordsBytes b ++ rest') : a = b := by
  induction a generalizing b with
  | nil => exact (List.length_eq_zero_iff.mp hlen.symm).symm
  | cons r a ih =>
    cases b with
    | nil => cases hlen
    | cons r' b =>
      simp only [List.mem_cons, forall_eq_or_imp] at ha hb
      rw [recordsBytes_cons, recordsBytes_cons, List.append_assoc, List.append_assoc] at h
      obtain ⟨rfl, hrest⟩ := recordBytes_inj ha.1 hb.1 h
      rw [ih (by simpa using hlen) ha.2 hb.2 hrest]

theorem SnapshotFile.unique (h : SnapshotFile file header records)
    (h' : SnapshotFile file header' records') : header = header' ∧ records = records' := by
  obtain ⟨hcount, hvalid, head, hwire, hfile⟩ := h
  obtain ⟨hcount', hvalid', head', hwire', hfile'⟩ := h'
  have hread := hwire.read crcStart
    (recordsBytes records ++ encodeU32Be (snapshotChecksum (head ++ recordsBytes records)))
  have hread' := hwire'.read crcStart
    (recordsBytes records' ++ encodeU32Be (snapshotChecksum (head' ++ recordsBytes records')))
  rw [← List.append_assoc, ← hfile] at hread
  rw [← List.append_assoc, ← hfile', hread] at hread'
  simp only [Scan.done.injEq, Prod.mk.injEq] at hread'
  obtain ⟨⟨rfl, -⟩, hrest⟩ := hread'
  exact ⟨rfl, recordsBytes_inj (hcount.trans hcount'.symm) hvalid hvalid' hrest⟩

end KvStore
