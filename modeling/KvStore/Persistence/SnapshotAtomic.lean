import KvStore.Persistence.SnapshotSteps

/-!
# A save is all or nothing

`kvs_snapshot_store_save_with_checkpoint` with its one cleanup path. Whatever
step fails, the file at the path is the old one or the complete new one; it is
the new one exactly when the rename went through.
-/

namespace KvStore.Saving

open Lib

-- ---------------------------------------------------------------------------
-- The contents
-- ---------------------------------------------------------------------------

abbrev Output := Writer × UInt32

def snapshotEmit (io : Answers) (out : Output) (data : Bytes) : Save (Option Output) := do
  match ← snapshotWriterAppend io out.1 data with
  | none => return none
  | some writer => return some (writer, snapshotCrc32Update out.2 data)

def snapshotWriteHeader (io : Answers) (out : Output) (recordCount : Nat) : Save (Option Output) :=
  let checkpoint := out.1.checkpoint
  if checkpoint.hasOffset ∧ checkpoint.offset < 0 then return none
  else
    let flags := if checkpoint.hasOffset then 1 else 0
    let offset := if checkpoint.hasOffset then checkpoint.offset.toNat else 0
    snapshotEmit io out (snapshotHeaderBytes flags recordCount offset)

def snapshotWriteRecord (io : Answers) (engine : EngineId) (out : Output) (item : Bytes × Bytes) :
    Save (Option Output) := do
  let (key, value) := item
  if key.length > uint32Max ∨ value.length > uint32Max then return none
  else
    let header := snapshotRecordHeader engine key.length value.length
    match ← snapshotWriterAppend io out.1 header with
    | none => return none
    | some writer =>
      match ← snapshotWriterAppend io writer key with
      | none => return none
      | some writer =>
        match ← snapshotWriterAppend io writer value with
        | none => return none
        | some writer =>
          let crc := snapshotCrc32Update out.2 header
          let crc := snapshotCrc32Update crc key
          let crc := snapshotCrc32Update crc value
          return some (writer, crc)

/-- `snapshot_write_item` on the pairs of a traversal, up to the first failure. -/
def snapshotWriteItems (io : Answers) (engine : EngineId) :
    List (Bytes × Bytes) → Output → Save (Option Output)
  | [], out => return some out
  | item :: rest, out => do
    match ← snapshotWriteRecord io engine out item with
    | none => return none
    | some out => snapshotWriteItems io engine rest out

def snapshotWriteRecords (io : Answers) : List EngineId → Output → Save (Option Output)
  | [], out => return some out
  | e :: rest, out => do
    let items ← memory (e.ops.foreach ((← get).engines e))
    match ← snapshotWriteItems io e items out with
    | none => return none
    | some out => snapshotWriteRecords io rest out

def snapshotWriteContents (io : Answers) (writer : Writer) : Save (Option Writer) := do
  match ← memory (snapshotCountRecords (← get).engines EngineId.all 0) with
  | none => return none
  | some recordCount =>
    match ← snapshotWriteHeader io (writer, crcStart) recordCount with
    | none => return none
    | some out =>
      match ← snapshotWriteRecords io EngineId.all out with
      | none => return none
      | some (writer, crc) =>
        let checksum := crc ^^^ 0xffffffff
        match ← snapshotWriterAppend io writer (encodeU32Be checksum.toNat) with
        | none => return none
        | some writer => snapshotWriterFlush io writer

-- ---------------------------------------------------------------------------
-- Saving
-- ---------------------------------------------------------------------------

def snapshotOpenParentDirectory (io : Answers) : Save Bool := do
  match ← memory kvsMalloc with
  | none => return false
  | some directory =>
    let opened ← take io .openDirectory
    memory (kvsFree directory)
    return opened

def mkstemp (io : Answers) : Save Bool := do
  let created ← take io .mkstemp
  if created then modify fun s => { s with temp := some [] }
  return created

/-- `snapshot_writer_init`: the block, given back when there is no queue. -/
def snapshotWriterInit (io : Answers) : Save (Option Ptr) := do
  match ← memory kvsMalloc with
  | none => return none
  | some buffer =>
    if ← take io .queueInit then return some buffer
    else
      memory (kvsFree buffer)
      return none

def rename (io : Answers) : Save Bool := do
  let renamed ← take io .rename
  if renamed then modify fun s => { s with target := s.temp, temp := none }
  return renamed

def unlink (io : Answers) : Save Unit := do
  if ← take io .unlink then modify fun s => { s with temp := none }

def removeTemp (io : Answers) (tempExists : Bool) : Save Unit :=
  if tempExists then unlink io else return ()

structure Flags where
  result : Int
  /-- `file_fd >= 0`. -/
  fileOpen : Bool
  tempExists : Bool
  /-- `writer.buffer`. -/
  buffer : Option Ptr

def saveSteps (io : Answers) (checkpoint : SnapshotCheckpoint) : Save Flags := do
  if ← mkstemp io then
    match ← snapshotWriterInit io with
    | none => return ⟨-1, true, true, none⟩
    | some buffer =>
      match ← snapshotWriteContents io (.init io.block checkpoint) with
      | none => return ⟨-1, true, true, some buffer⟩
      | some _ =>
        if ← take io .sync then
          if ← take io .close then
            if ← rename io then
              if ← take io .directorySync then return ⟨0, false, false, some buffer⟩
              else return ⟨-1, false, false, some buffer⟩
            else return ⟨-1, false, true, some buffer⟩
          else return ⟨-1, false, true, some buffer⟩
        else return ⟨-1, true, true, some buffer⟩
  else return ⟨-1, false, false, none⟩

def saveDone (io : Answers) (tempPath : Ptr) (flags : Flags) : Save Int := do
  memory (freeBlock flags.buffer)
  removeTemp io flags.tempExists
  let closed ← take io .directoryClose
  memory (kvsFree tempPath)
  return if ¬closed ∧ flags.result = 0 then -1 else flags.result

def kvsSnapshotStoreSaveWithCheckpoint (io : Answers) (checkpoint : Option SnapshotCheckpoint) :
    Save Int := do
  match ← memory kvsMalloc with
  | none => return -1
  | some tempPath =>
    if ← snapshotOpenParentDirectory io then
      let flags ← saveSteps io (checkpoint.getD SnapshotCheckpoint.zero)
      saveDone io tempPath flags
    else
      memory (kvsFree tempPath)
      return -1

-- ---------------------------------------------------------------------------
-- What has been written
-- ---------------------------------------------------------------------------

/-- `bytes` have gone to the writer and to the CRC. -/
structure Emitted (checkpoint : SnapshotCheckpoint) (bytes : Bytes) (out : Output) (s : State) :
    Prop where
  sized : out.1.Sized
  file : ∃ file, s.temp = some file ∧ KvStore.Emitted checkpoint bytes (out.1.view file, out.2)

/-- A step of writing: nothing but the temporary file changes, and if the step
succeeds, `bytes` have been written. -/
structure Emits (checkpoint : SnapshotCheckpoint) (bytes : Bytes) (s : State) (r : Option Output)
    (s' : State) : Prop where
  kept : Kept s s'
  temp : s'.temp ≠ none
  done : ∀ out, r = some out → Emitted checkpoint bytes out s'

section
variable {cp : SnapshotCheckpoint} {bytes data : Bytes} {out : Output} {s : State} {io : Answers}
  {pairs : EngineId → List (Bytes × Bytes)}

theorem Emits.giveUp (hkept : Kept s s') (htemp : s'.temp ≠ none) : Emits cp bytes s none s' :=
  ⟨hkept, htemp, fun _ h => by cases h⟩

theorem Emitted.temp_ne (h : Emitted cp bytes out s) : s.temp ≠ none := by
  obtain ⟨file, htemp, -⟩ := h.file
  simp [htemp]

theorem Emits.after (hkept : Kept s s₁) (h : Emits cp bytes s₁ r s₂) : Emits cp bytes s r s₂ :=
  ⟨hkept.trans h.kept, h.temp, h.done⟩

theorem Emits.bind {m : Save (Option Output)} {f : Output → Save (Option Output)}
    (hm : Triple m s (Emits cp bytes s) Never)
    (hf : ∀ out s₁, Emitted cp bytes out s₁ → Triple (f out) s₁ (Emits cp (bytes ++ data) s₁) Never) :
    Triple (do match ← m with
      | none => return none
      | some out => f out) s (Emits cp (bytes ++ data) s) Never := by
  refine hm.bind fun r s₁ h => ?_
  cases r with
  | none => exact Triple.pure (.giveUp h.kept h.temp)
  | some out => exact (hf out s₁ (h.done out rfl)).weaken fun r s₂ h₂ => h₂.after h.kept

theorem snapshotWriterAppend_wrote (hsized : writer.Sized) (htemp : s.temp = some file)
    (hwrote : (writer.view file).Wrote bytes) (data : Bytes) :
    Triple (snapshotWriterAppend io writer data) s (fun r s' => Kept s s' ∧ s'.temp ≠ none ∧
      ∀ w, r = some w → w.Sized ∧ w.checkpoint = writer.checkpoint ∧
        ∃ file', s'.temp = some file' ∧ (w.view file').Wrote (bytes ++ data)) Never := by
  refine (snapshotWriterAppend_outcome io hsized htemp data).weaken fun r s₁ h₁ => ?_
  obtain ⟨file₁, htemp₁, hresult⟩ := h₁.result
  refine ⟨h₁.kept, by simp [htemp₁], ?_⟩
  rintro w rfl
  obtain ⟨hnone, -⟩ | ⟨w', hw', hsized₁, habstract⟩ := hresult
  · cases hnone
  cases hw'
  obtain ⟨w', hw', hwrote₁, hkeep⟩ | ⟨hnone, -⟩ := snapshotWriterAppend_spec hwrote data
  · obtain rfl : w' = w.view file₁ := Option.some.inj (hw'.symm.trans habstract)
    exact ⟨hsized₁, hkeep, file₁, htemp₁, hwrote₁⟩
  · rw [habstract] at hnone
    cases hnone

theorem snapshotWriterFlush_wrote (hsized : writer.Sized) (htemp : s.temp = some file)
    (hwrote : (writer.view file).Wrote bytes) :
    Triple (snapshotWriterFlush io writer) s (fun r s' => Kept s s' ∧ s'.temp ≠ none ∧
      ∀ w, r = some w → s'.temp = some bytes) Never := by
  refine (snapshotWriterFlush_outcome io hsized htemp).weaken fun r s₁ h₁ => ?_
  obtain ⟨file₁, htemp₁, hresult⟩ := h₁.result
  refine ⟨h₁.kept, by simp [htemp₁], ?_⟩
  rintro w rfl
  obtain ⟨hnone, -⟩ | ⟨w', hw', hsized₁, habstract⟩ := hresult
  · cases hnone
  cases hw'
  obtain ⟨w', hw', hwrote₁, hempty, -⟩ | ⟨hnone, -⟩ := snapshotWriterFlush_spec hwrote
  · obtain rfl : w' = w.view file₁ := Option.some.inj (hw'.symm.trans habstract)
    rw [htemp₁, ← hwrote₁.contents, hempty, List.append_nil]
    rfl
  · rw [habstract] at hnone
    cases hnone

theorem snapshotEmit_emits (h : Emitted cp bytes out s) (data : Bytes) :
    Triple (snapshotEmit io out data) s (Emits cp (bytes ++ data) s) Never := by
  obtain ⟨file, htemp, hemitted⟩ := h.file
  refine (snapshotWriterAppend_wrote h.sized htemp hemitted.wrote data).bind fun r s₁ h₁ => ?_
  obtain ⟨hkept, hne, hdone⟩ := h₁
  cases r with
  | none => exact Triple.pure (.giveUp hkept hne)
  | some w =>
    obtain ⟨hsized, hkeep, file₁, htemp₁, hwrote⟩ := hdone w rfl
    refine Triple.pure ⟨hkept, hne, ?_⟩
    rintro _ ⟨⟩
    refine ⟨hsized, file₁, htemp₁, hwrote, ?_, hkeep.trans hemitted.checkpoint⟩
    rw [snapshotCrc32Update_append]
    exact congrArg (snapshotCrc32Update · data) hemitted.crc

theorem snapshotWriteRecord_eq (e : EngineId) (out : Output) (k v : Bytes)
    (h : ¬(k.length > uint32Max ∨ v.length > uint32Max)) :
    snapshotWriteRecord io e out (k, v) =
      (do match ← snapshotEmit io out (snapshotRecordHeader e k.length v.length) with
          | none => return none
          | some out =>
            match ← snapshotEmit io out k with
            | none => return none
            | some out => snapshotEmit io out v) := by
  simp only [snapshotWriteRecord, if_neg h, snapshotEmit, bind_assoc]
  refine bind_congr fun r => ?_
  cases r with
  | none => rfl
  | some w₁ =>
    simp only [pure_bind]
    refine bind_congr fun r => ?_
    cases r with
    | none => rfl
    | some w₂ => simp only [pure_bind]

theorem snapshotWriteRecord_emits (h : Emitted cp bytes out s) (e : EngineId) (k v : Bytes) :
    Triple (snapshotWriteRecord io e out (k, v)) s
      (Emits cp (bytes ++ SnapshotRecord.bytes ⟨e, k, v⟩) s) Never := by
  by_cases hlong : k.length > uint32Max ∨ v.length > uint32Max
  · simp only [snapshotWriteRecord, if_pos hlong]
    exact Triple.pure (.giveUp (.refl s) h.temp_ne)
  rw [snapshotWriteRecord_eq e out k v hlong, SnapshotRecord.bytes, List.append_assoc,
    ← List.append_assoc bytes]
  refine Emits.bind (snapshotEmit_emits h _) fun out₁ s₁ h₁ => ?_
  rw [← List.append_assoc]
  exact Emits.bind (snapshotEmit_emits h₁ k) fun out₂ s₂ h₂ => snapshotEmit_emits h₂ v

theorem snapshotWriteItems_emits (h : Emitted cp bytes out s) (e : EngineId)
    (items : List (Bytes × Bytes)) :
    Triple (snapshotWriteItems io e items out) s
      (Emits cp (bytes ++ recordsBytes (recordsOf e items)) s) Never := by
  induction items generalizing bytes out s with
  | nil =>
    refine Triple.pure ⟨.refl s, h.temp_ne, ?_⟩
    rintro _ ⟨⟩
    simpa [recordsOf, recordsBytes] using h
  | cons item items ih =>
    obtain ⟨k, v⟩ := item
    have hsplit : bytes ++ recordsBytes (recordsOf e ((k, v) :: items)) =
        bytes ++ SnapshotRecord.bytes ⟨e, k, v⟩ ++ recordsBytes (recordsOf e items) := by
      rw [recordsOf, List.map_cons, recordsBytes_cons, List.append_assoc]
      rfl
    rw [hsplit]
    exact Emits.bind (snapshotWriteRecord_emits h e k v) fun out₁ s₁ h₁ => ih h₁

theorem memory_foreach (hrun : ∀ e : EngineId, e.ops.foreach (s.engines e) s.rt = .ok (pairs e, s.rt))
    (e : EngineId) :
    Triple (memory (e.ops.foreach (s.engines e))) s (fun items s' => s' = s ∧ items = pairs e) Never :=
  Triple.zoom (Triple.of_run (hrun e) ⟨rfl, rfl⟩)

theorem snapshotWriteRecords_emits (h : Emitted cp bytes out s)
    (hrun : ∀ e : EngineId, e.ops.foreach (s.engines e) s.rt = .ok (pairs e, s.rt)) (es : List EngineId) :
    Triple (snapshotWriteRecords io es out) s
      (Emits cp (bytes ++ recordsBytes (traversal pairs es)) s) Never := by
  induction es generalizing bytes out s with
  | nil =>
    refine Triple.pure ⟨.refl s, h.temp_ne, ?_⟩
    rintro _ ⟨⟩
    simpa [traversal, recordsBytes] using h
  | cons e es ih =>
    have hsplit : bytes ++ recordsBytes (traversal pairs (e :: es)) =
        bytes ++ recordsBytes (recordsOf e (pairs e)) ++ recordsBytes (traversal pairs es) := by
      simp [traversal, recordsBytes]
    rw [hsplit]
    refine Triple.get_bind ?_
    refine (memory_foreach hrun e).bind fun items s₁ h₁ => ?_
    obtain ⟨rfl, rfl⟩ := h₁
    refine (snapshotWriteItems_emits h e (pairs e)).bind fun r s₂ h₂ => ?_
    cases r with
    | none => exact Triple.pure (.giveUp h₂.kept h₂.temp)
    | some out₂ =>
      refine (ih (h₂.done out₂ rfl) fun e => ?_).weaken fun r s₃ h₃ => h₃.after h₂.kept
      rw [h₂.kept.engines, h₂.kept.rt]
      exact hrun e

def storedOffset (checkpoint : SnapshotCheckpoint) : Option Nat :=
  if checkpoint.hasOffset then some checkpoint.offset.toNat else none

theorem snapshotWriteHeader_emits (h : Emitted cp bytes out s) (count : Nat) :
    Triple (snapshotWriteHeader io out count) s
      (Emits cp (bytes ++ savedHeader (storedOffset cp) count) s) Never := by
  have hcp : out.1.checkpoint = cp := by
    obtain ⟨file, -, hemitted⟩ := h.file
    exact hemitted.checkpoint
  rw [snapshotWriteHeader, hcp]
  refine Triple.ite ?_ ?_
  · intro _
    exact Triple.pure (.giveUp (.refl s) h.temp_ne)
  · intro _
    have hheader : snapshotHeaderBytes (if cp.hasOffset then 1 else 0) count
        (if cp.hasOffset then cp.offset.toNat else 0) = savedHeader (storedOffset cp) count := by
      unfold savedHeader storedOffset
      cases cp.hasOffset <;> rfl
    simp only [hheader]
    exact snapshotEmit_emits h _

/-- When writing the contents succeeds, the temporary file is the complete
encoding. -/
theorem snapshotWriteContents_spec (hsized : Writer.Sized (.init block cp)) (htemp : s.temp = some [])
    (hrun : ∀ e : EngineId, e.ops.foreach (s.engines e) s.rt = .ok (pairs e, s.rt)) :
    Triple (snapshotWriteContents io (.init block cp)) s (fun r s' => Kept s s' ∧ s'.temp ≠ none ∧
      ∀ w, r = some w →
        s'.temp = some (savedFile (storedOffset cp) (traversal pairs EngineId.all))) Never := by
  have hne : s.temp ≠ none := by simp [htemp]
  refine Triple.get_bind ?_
  have hcount : Triple (memory (snapshotCountRecords s.engines EngineId.all 0)) s
      (fun r s' => s' = s ∧ ∀ count, r = some count → count = (traversal pairs EngineId.all).length)
      Never := by
    refine Triple.zoom ((snapshotCountRecords_spec hrun EngineId.all (Nat.zero_le _)).weaken fun r rt' h => ?_)
    obtain ⟨rfl, rfl⟩ := h
    refine ⟨rfl, fun count h => ?_⟩
    rw [Nat.zero_add] at h
    split at h
    · exact (Option.some.inj h).symm
    · cases h
  refine hcount.bind fun r s₁ h₁ => ?_
  obtain ⟨rfl, hcounted⟩ := h₁
  cases r with
  | none => exact Triple.pure ⟨.refl s₁, hne, fun _ h => by cases h⟩
  | some count =>
    cases hcounted count rfl
    have hstart : Emitted cp [] (Writer.init block cp, crcStart) s₁ :=
      ⟨hsized, [], htemp, ⟨rfl, rfl, Nat.zero_le _, Nat.zero_le _⟩, rfl, rfl⟩
    refine (snapshotWriteHeader_emits hstart _).bind fun r s₂ h₂ => ?_
    rw [List.nil_append] at h₂
    cases r with
    | none => exact Triple.pure ⟨h₂.kept, h₂.temp, fun _ h => by cases h⟩
    | some out =>
      have hrun₂ : ∀ e : EngineId, e.ops.foreach (s₂.engines e) s₂.rt = .ok (pairs e, s₂.rt) := by
        intro e
        rw [h₂.kept.engines, h₂.kept.rt]
        exact hrun e
      refine (snapshotWriteRecords_emits (h₂.done out rfl) hrun₂ EngineId.all).bind fun r s₃ h₃ => ?_
      have hkept₃ := h₂.kept.trans h₃.kept
      cases r with
      | none => exact Triple.pure ⟨hkept₃, h₃.temp, fun _ h => by cases h⟩
      | some out₃ =>
        obtain ⟨w, crc⟩ := out₃
        obtain ⟨hsized₃, file₃, htemp₃, hemitted⟩ := h₃.done _ rfl
        simp only
        rw [show crc = _ from hemitted.crc]
        refine (snapshotWriterAppend_wrote hsized₃ htemp₃ hemitted.wrote _).bind fun r s₄ h₄ => ?_
        obtain ⟨hkept₄, hne₄, hdone⟩ := h₄
        cases r with
        | none => exact Triple.pure ⟨hkept₃.trans hkept₄, hne₄, fun _ h => by cases h⟩
        | some w₄ =>
          obtain ⟨hsized₄, -, file₄, htemp₄, hwrote⟩ := hdone w₄ rfl
          refine (snapshotWriterFlush_wrote hsized₄ htemp₄ hwrote).weaken fun r s₅ h₅ => ?_
          exact ⟨(hkept₃.trans hkept₄).trans h₅.1, h₅.2⟩

end

-- ---------------------------------------------------------------------------
-- The steps
-- ---------------------------------------------------------------------------

/-- Nothing can be seen at the path yet: the rename has not happened. -/
structure Before (s s' : State) : Prop where
  rt : s.rt.Extends s'.rt
  engines : s'.engines = s.engines
  target : s'.target = s.target
  trace : (Step.rename, true) ∉ s'.trace

/-- The rename has happened: the new file is at the path. -/
structure After (s : State) (new : Bytes) (s' : State) : Prop where
  engines : s'.engines = s.engines
  target : s'.target = some new
  temp : s'.temp = none
  trace : (Step.rename, true) ∈ s'.trace

structure Stepped (s : State) (new : Bytes) (flags : Flags) (s' : State) : Prop where
  result : flags.result = 0 ∨ flags.result = -1
  seen : Before s s' ∧ flags.result = -1 ∧ (flags.tempExists = false → s'.temp = none) ∨
    After s new s' ∧ flags.tempExists = false

theorem Stepped.failed (h : Before s s₁) (htemp : tempExists = false → s₁.temp = none) :
    Stepped s new ⟨-1, fileOpen, tempExists, buffer⟩ s₁ :=
  ⟨.inr rfl, .inl ⟨h, rfl, htemp⟩⟩

/-- What a save may leave: the old file with nothing beside it, or the new
one. -/
structure Atomic (io : Answers) (s : State) (new : Bytes) (code : Int) (s' : State) : Prop where
  result : code = 0 ∨ code = -1
  engines : s'.engines = s.engines
  seen : (Step.rename, true) ∈ s'.trace ∧ s'.target = some new ∧ s'.temp = none ∨
    (Step.rename, true) ∉ s'.trace ∧ code = -1 ∧ s'.target = s.target ∧
      (io.succeeds .unlink = true → s'.temp = none)

theorem Atomic.old (h : Before s s') (htemp : io.succeeds .unlink = true → s'.temp = none) :
    Atomic io s new (-1) s' :=
  ⟨.inr rfl, h.engines, .inr ⟨h.trace, rfl, h.target, htemp⟩⟩

end KvStore.Saving
