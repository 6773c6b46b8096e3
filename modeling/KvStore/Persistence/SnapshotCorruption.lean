import KvStore.Lib.Crc
import KvStore.Persistence.SnapshotLoad

/-!
# Damaged snapshots

The checksum of a snapshot covers every byte before it, whatever the header
says about the structure behind it. A change of at most four neighbouring bytes
on one side of that border is therefore always found in the first pass.
-/

namespace KvStore

open Lib

def crcPolynomial : BitVec 32 := 0xedb88320#32

theorem lowBit_iff (crc : UInt32) : crc &&& 1 ≠ 0 ↔ crc.toBitVec.getLsbD 0 = true := by
  have hand : (crc &&& 1).toNat = crc.toNat % 2 := by
    rw [UInt32.toNat_and]
    exact Nat.and_one_is_mod _
  rw [BitVec.getLsbD, Nat.testBit_zero, ne_eq, ← UInt32.toNat_inj, hand, decide_eq_true_eq]
  show ¬crc.toNat % 2 = 0 ↔ crc.toNat % 2 = 1
  omega

theorem crcBits_eq (bits : Nat) (crc : UInt32) :
    (crcBits bits crc).toBitVec = crcSteps crcPolynomial bits crc.toBitVec := by
  induction bits generalizing crc with
  | zero => rfl
  | succ bits ih =>
    rw [crcBits, ih, crcSteps]
    congr 1
    have hlow := lowBit_iff crc
    cases hbit : crc.toBitVec.getLsbD 0 with
    | true =>
      rw [if_pos (hlow.mpr hbit), crcStep, if_pos hbit]
      rfl
    | false =>
      rw [if_neg fun h => Bool.noConfusion (hbit.symm.trans (hlow.mp h)), crcStep, hbit]
      simp

def crcWords (data : Bytes) : List (BitVec 32) := data.map fun b => b.toUInt32.toBitVec

theorem snapshotCrc32Update_eq (crc : UInt32) (data : Bytes) :
    (snapshotCrc32Update crc data).toBitVec =
      crcFold crcPolynomial 8 crc.toBitVec (crcWords data) := by
  induction data generalizing crc with
  | nil => rfl
  | cons b data ih =>
    rw [snapshotCrc32Update, ih, crcBits_eq, UInt32.toBitVec_xor]
    rfl

theorem crcWords_lt (data : Bytes) : ∀ x ∈ crcWords data, x.toNat < 2 ^ 8 := by
  intro x hx
  obtain ⟨b, -, rfl⟩ := List.mem_map.mp hx
  have hb := UInt8.toNat_lt b
  simpa using hb

theorem crcWords_injective (h : crcWords u = crcWords v) : u = v := by
  refine List.map_injective_iff.mpr ?_ h
  intro a b hab
  have hnat := congrArg BitVec.toNat hab
  exact UInt8.toNat_inj.mp (by simpa using hnat)

/-- A change of at most four neighbouring bytes changes the checksum. -/
theorem snapshotChecksum_burst (a u v b : Bytes) (hlen : u.length = v.length) (hsize : u.length ≤ 4)
    (h : snapshotChecksum (a ++ u ++ b) = snapshotChecksum (a ++ v ++ b)) : u = v := by
  have hcrc : snapshotCrc32Update crcStart (a ++ u ++ b) =
      snapshotCrc32Update crcStart (a ++ v ++ b) := by
    have hxor := UInt32.toNat_inj.mp h
    exact UInt32.xor_left_inj _ |>.mp hxor
  have hfold := congrArg UInt32.toBitVec hcrc
  rw [snapshotCrc32Update_eq, snapshotCrc32Update_eq] at hfold
  simp only [crcWords, List.map_append] at hfold
  refine crcWords_injective (crcFold_burst (by decide) 8 _ _ _ _ ?_ ?_ (crcWords_lt u)
    (crcWords_lt v) hfold)
  · simpa [crcWords] using hlen
  · simp only [crcWords, List.length_map]
    omega

theorem snapshotValidate_checksum (h : (snapshotValidate file).isSome) :
    ∃ body, file = body ++ encodeU32Be (snapshotChecksum body) := by
  obtain ⟨header, hvalidate⟩ := Option.isSome_iff_exists.mp h
  obtain ⟨records, hfile⟩ := snapshotValidate_eq_some.mp hvalidate
  obtain ⟨head, -, hwire⟩ := hfile.wire
  exact ⟨_, hwire⟩

theorem encodeU32Be_injective (ha : a < 256 ^ 4) (hb : b < 256 ^ 4) (h : encodeU32Be a = encodeU32Be b) :
    a = b := by
  have hdecode := congrArg ofBigEndian h
  rwa [encodeU32Be, encodeU32Be, ofBigEndian_toBigEndian ha, ofBigEndian_toBigEndian hb] at hdecode

structure DiffersWithin (B B' : Bytes) (start size : Nat) : Prop where
  length : B'.length = B.length
  outside : ∀ i, i < start ∨ start + size ≤ i → B'[i]? = B[i]?

theorem DiffersWithin.take (h : DiffersWithin B B' start size) (hn : n ≤ start) :
    B'.take n = B.take n := by
  refine List.ext_getElem? fun i => ?_
  simp only [List.getElem?_take]
  split
  · exact h.outside i (.inl (by omega))
  · rfl

theorem DiffersWithin.drop (h : DiffersWithin B B' start size) (hn : start + size ≤ n) :
    B'.drop n = B.drop n := by
  refine List.ext_getElem? fun i => ?_
  simp only [List.getElem?_drop]
  exact h.outside (n + i) (.inr (by omega))

theorem DiffersWithin.front (h : DiffersWithin (a ++ c) (b ++ c') start size)
    (hlen : b.length = a.length) : DiffersWithin a b start size := by
  refine ⟨hlen, fun i hi => ?_⟩
  by_cases hin : i < a.length
  · have hout := h.outside i hi
    rwa [List.getElem?_append_left hin, List.getElem?_append_left (by omega)] at hout
  · rw [List.getElem?_eq_none (by omega), List.getElem?_eq_none (by omega)]

/-- Two accepted files do not differ in so small a window. -/
theorem DiffersWithin.eq_of_valid (h : DiffersWithin B B' start size) (hB : (snapshotValidate B).isSome)
    (hB' : (snapshotValidate B').isSome) (hsize : size ≤ 4)
    (hwindow : start + size ≤ B.length - 4 ∨ B.length - 4 ≤ start) : B' = B := by
  obtain ⟨body, rfl⟩ := snapshotValidate_checksum hB
  obtain ⟨body', rfl⟩ := snapshotValidate_checksum hB'
  have hbody : body'.length = body.length := by
    have hlen := h.length
    simp only [List.length_append, length_encodeU32Be] at hlen
    omega
  simp only [List.length_append, length_encodeU32Be, Nat.add_sub_cancel] at hwindow
  obtain hfirst | hlast := hwindow
  · have hsum : snapshotChecksum body' = snapshotChecksum body := by
      have hdrop := h.drop (n := body.length) (by omega)
      rw [List.drop_left, ← hbody, List.drop_left] at hdrop
      exact encodeU32Be_injective (UInt32.toNat_lt _) (UInt32.toNat_lt _) hdrop
    -- cut both bodies at the window
    have hcut : ∀ x : Bytes, x.take start ++ (x.drop start).take size ++ x.drop (start + size) = x := by
      intro x
      rw [List.append_assoc, ← List.drop_drop, List.take_append_drop, List.take_append_drop]
    have hinner := h.front hbody
    rw [← hcut body, ← hcut body', hinner.take (Nat.le_refl _), hinner.drop (Nat.le_refl _)] at hsum
    have hwindow := snapshotChecksum_burst _ _ _ _ (by simp [hbody]) (by simp; omega) hsum
    have heq : body' = body := by
      rw [← hcut body, ← hcut body', hinner.take (Nat.le_refl _), hinner.drop (Nat.le_refl _), hwindow]
    rw [heq]
  · have htake := h.take hlast
    rw [← hbody, List.take_left, hbody, List.take_left] at htake
    rw [htake]

/-- A damaged snapshot is refused before anything is written. -/
theorem kvsSnapshotStoreLoad_detects (B B' : Bytes) (start size : Nat)
    (hB : (snapshotValidate B).isSome) (hwithin : DiffersWithin B B' start size) (hne : B' ≠ B)
    (hsize : size ≤ 4) (hwindow : start + size ≤ B.length - 4 ∨ B.length - 4 ≤ start)
    (E : Engines) (rt : Runtime) (checkpoint : SnapshotCheckpoint) :
    kvsSnapshotStoreLoadWithCheckpoint (some B') E checkpoint rt = .ok ((-1, E, checkpoint), rt) := by
  have hrefused : snapshotValidate B' = none := by
    cases hB' : snapshotValidate B' with
    | none => rfl
    | some header => exact absurd (hwithin.eq_of_valid hB (by simp [hB']) hsize hwindow) hne
  simp only [kvsSnapshotStoreLoadWithCheckpoint, hrefused]
  rfl

/-- The record count of a snapshot changed from two to one. -/
theorem kvsSnapshotStoreLoad_detects_count :
    ∃ E rt, E.Contains rt Maps.empty ∧
      kvsSnapshotStoreLoadWithCheckpoint (some (twoRecordsFile.set 19 1)) E ⟨true, 7⟩ rt =
        .ok ((-1, E, ⟨true, 7⟩), rt) := by
  have hfail : ¬(Runtime.start (fun _ => false) (fun _ => false)).CanFail := by
    rintro ⟨n, hn⟩
    cases hn
  obtain ⟨_, rt, -, -, E, -, hempty⟩ := (initKvengine_spec hfail).run
  have hvalid : (snapshotValidate twoRecordsFile).isSome := by
    rw [snapshotValidate_eq_some.mpr ⟨_, twoRecordsFile_format⟩]
    rfl
  have hwithin : DiffersWithin twoRecordsFile (twoRecordsFile.set 19 1) 19 1 := by
    refine ⟨by simp, fun i hi => ?_⟩
    rw [List.getElem?_set_ne]
    omega
  exact ⟨E, rt, hempty.contains, kvsSnapshotStoreLoad_detects twoRecordsFile _ 19 1 hvalid hwithin
    (by decide) (by decide) (.inl (by decide)) E rt ⟨true, 7⟩⟩

end KvStore
