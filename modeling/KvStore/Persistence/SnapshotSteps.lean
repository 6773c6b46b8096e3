import KvStore.Persistence.SnapshotSave

/-!
# Saving step by step

`src/persistence/snapshot_store.c` once more, now with the steps that can
fail: memory, the directory, the temporary file, the queue, every batch of
writes, the syncs, the closes and the rename. The writer's buffer is the block
of 256 KiB itself, so that the positions in the block, the requests of a batch
and the positions in the file can be compared.
-/

namespace KvStore.Saving

open Lib

inductive Step
  | openDirectory
  | mkstemp
  | queueInit
  | sync
  | close
  | rename
  | directorySync
  | directoryClose
  | unlink
  deriving DecidableEq, Repr

/-- What the kernel answers in one save: whether each step succeeds, whether
the `n`-th batch does, and what a failed one leaves in the file. -/
structure Answers where
  succeeds : Step → Bool
  batch : Nat → Bool
  leaves : Nat → Bytes → Bytes
  /-- What is in a new block. -/
  garbage : Nat → UInt8

def Answers.block (io : Answers) : Bytes := (List.range snapshotWriteBufferSize).map io.garbage

structure Batch where
  position : Nat
  buffered : Bytes
  requests : List (Nat × Bytes)

structure State where
  rt : Runtime
  engines : Engines
  /-- The file at the path. -/
  target : Option Bytes
  /-- The file at the temporary path. -/
  temp : Option Bytes
  /-- The steps taken, and whether they succeeded. -/
  trace : List (Step × Bool)
  batches : List Batch

abbrev Save (α : Type) := Program State Stop α

def memory (m : Run α) : Save α := zoom State.rt (fun rt s => { s with rt }) m

def take (io : Answers) (step : Step) : Save Bool := fun s =>
  .ok (io.succeeds step, { s with trace := s.trace ++ [(step, io.succeeds step)] })

-- ---------------------------------------------------------------------------
-- The writer
-- ---------------------------------------------------------------------------

structure Writer where
  /-- The block of 256 KiB. -/
  block : Bytes
  bufferedBytes : Nat
  nextFileOffset : Nat
  checkpoint : SnapshotCheckpoint

/-- The loop that cuts the buffer into requests; the array of requests has
four places. -/
def batchRequests (writer : Writer) :
    (rounds bufferOffset : Nat) → List (Nat × Bytes) → Save (List (Nat × Bytes))
  | 0, _, _ => throw .fuel
  | rounds + 1, bufferOffset, requests =>
    if bufferOffset < writer.bufferedBytes then
      let blockBytes := min (writer.bufferedBytes - bufferOffset) snapshotWriteBlockSize
      if requests.length ≥ snapshotWriteBlockCount ∨
          bufferOffset + blockBytes > writer.block.length then throw .undefined
      else
        batchRequests writer rounds (bufferOffset + blockBytes)
          (requests ++ [(writer.nextFileOffset + bufferOffset,
            (writer.block.drop bufferOffset).take blockBytes)])
    else return requests

/-- `kvs_uring_io_write_batch` on the temporary file. -/
def writeBatch (io : Answers) (batch : Batch) : Save Bool := fun s =>
  let file := s.temp.getD []
  let succeeds := io.batch s.batches.length
  let file' := if succeeds then kvsUringIoWriteBatch file batch.requests
    else io.leaves s.batches.length file
  .ok (succeeds, { s with temp := some file', batches := s.batches ++ [batch] })

def snapshotWriterFlush (io : Answers) (writer : Writer) : Save (Option Writer) := do
  if writer.bufferedBytes > snapshotWriteBufferSize then return none
  else if writer.bufferedBytes = 0 then return some writer
  else
    let batchEnd := writer.nextFileOffset + writer.bufferedBytes
    if batchEnd > offMax then return none
    else
      let requests ← batchRequests writer (writer.bufferedBytes + 1) 0 []
      if ← writeBatch io ⟨writer.nextFileOffset, writer.block.take writer.bufferedBytes, requests⟩ then
        return some { writer with nextFileOffset := batchEnd, bufferedBytes := 0 }
      else return none

/-- `memcpy` to a position of the block. -/
def copyInto (block : Bytes) (position : Nat) (data : Bytes) : Save Bytes :=
  if position + data.length ≤ block.length then
    pure (block.take position ++ data ++ block.drop (position + data.length))
  else throw .undefined

def makeRoom (io : Answers) (writer : Writer) : Save (Option Writer) :=
  if writer.bufferedBytes = snapshotWriteBufferSize then snapshotWriterFlush io writer
  else return some writer

def appendLoop (io : Answers) : (rounds : Nat) → Writer → Bytes → Save (Option Writer)
  | 0, _, _ => throw .fuel
  | rounds + 1, writer, data =>
    if data.length = 0 then return some writer
    else do
      match ← makeRoom io writer with
      | none => return none
      | some writer =>
        let copyBytes := min data.length (snapshotWriteBufferSize - writer.bufferedBytes)
        let block ← copyInto writer.block writer.bufferedBytes (data.take copyBytes)
        appendLoop io rounds { writer with block, bufferedBytes := writer.bufferedBytes + copyBytes }
          (data.drop copyBytes)

def snapshotWriterAppend (io : Answers) (writer : Writer) (data : Bytes) : Save (Option Writer) :=
  if writer.bufferedBytes > snapshotWriteBufferSize then return none
  else appendLoop io (data.length + 1) writer data

/-- Several calls of `snapshot_writer_append`. -/
def appendAll (io : Answers) : Writer → List Bytes → Save (Option Writer)
  | writer, [] => return some writer
  | writer, data :: rest => do
    match ← snapshotWriterAppend io writer data with
    | none => return none
    | some writer => appendAll io writer rest

-- ---------------------------------------------------------------------------
-- Requests
-- ---------------------------------------------------------------------------

/-- The blocks of a batch: at most four, each of one byte to 64 KiB, one
behind the other from `position` on. -/
structure Batch.Cut (batch : Batch) : Prop where
  count : batch.requests.length ≤ snapshotWriteBlockCount
  sizes : ∀ r ∈ batch.requests, 0 < r.2.length ∧ r.2.length ≤ snapshotWriteBlockSize
  contiguous : ∀ i (h : i < batch.requests.length), (batch.requests[i]).1 =
    batch.position + ((batch.requests.take i).map (·.2.length)).sum
  covers : batch.requests.flatMap (·.2) = batch.buffered

def Writer.view (writer : Writer) (file : Bytes) : SnapshotWriter where
  file
  buffer := writer.block.take writer.bufferedBytes
  nextFileOffset := writer.nextFileOffset
  checkpoint := writer.checkpoint

/-- The block has its size, and the buffered bytes lie in it. -/
structure Writer.Sized (writer : Writer) : Prop where
  block : writer.block.length = snapshotWriteBufferSize
  buffered : writer.bufferedBytes ≤ snapshotWriteBufferSize

theorem Writer.Sized.length_buffer (h : Writer.Sized writer) (file : Bytes) :
    (writer.view file).buffer.length = writer.bufferedBytes := by
  simp only [Writer.view, List.length_take, h.block]
  exact Nat.min_eq_left h.buffered

theorem snapshotRequests_cons (left offset : Nat) (h : data ≠ []) :
    snapshotRequests (left + 1) offset data = (offset, data.take snapshotWriteBlockSize) ::
      snapshotRequests left (offset + snapshotWriteBlockSize) (data.drop snapshotWriteBlockSize) := by
  cases data with
  | nil => exact absurd rfl h
  | cons b data => rfl

theorem snapshotRequests_nil (left offset : Nat) : snapshotRequests left offset [] = [] := by
  cases left <;> rfl

/-- The loop gives the requests of the abstract writer, and never leaves the
array or the block. -/
theorem batchRequests_eq (hsized : Writer.Sized writer) (left rounds bufferOffset : Nat)
    (requests : List (Nat × Bytes)) (hcount : requests.length + left = snapshotWriteBlockCount)
    (hleft : writer.bufferedBytes ≤ bufferOffset + snapshotWriteBlockSize * left)
    (hrounds : writer.bufferedBytes < bufferOffset + rounds) (hpos : 0 < rounds) :
    batchRequests writer rounds bufferOffset requests =
      pure (requests ++ snapshotRequests left (writer.nextFileOffset + bufferOffset)
        ((writer.block.take writer.bufferedBytes).drop bufferOffset)) := by
  have hblock := hsized.block
  have hbuffered := hsized.buffered
  induction left generalizing rounds bufferOffset requests with
  | zero =>
    obtain ⟨rounds, rfl⟩ : ∃ n, rounds = n + 1 := ⟨rounds - 1, by omega⟩
    rw [batchRequests, if_neg (by omega), snapshotRequests, List.append_nil]
  | succ left ih =>
    obtain ⟨rounds, rfl⟩ : ∃ n, rounds = n + 1 := ⟨rounds - 1, by omega⟩
    rw [batchRequests]
    by_cases hmore : bufferOffset < writer.bufferedBytes
    swap
    · rw [if_neg hmore, List.drop_eq_nil_of_le (by simp only [List.length_take]; omega)]
      simp [snapshotRequests]
    rw [if_pos hmore]
    generalize hbytes : min (writer.bufferedBytes - bufferOffset) snapshotWriteBlockSize = blockBytes
    generalize hdata : (writer.block.take writer.bufferedBytes).drop bufferOffset = data
    have hlen : data.length = writer.bufferedBytes - bufferOffset := by
      rw [← hdata, List.length_drop, List.length_take]
      omega
    have hsize : 0 < snapshotWriteBlockSize := by decide
    have hne : data ≠ [] := by
      rw [← List.length_pos_iff]
      omega
    have hslice : (writer.block.drop bufferOffset).take blockBytes =
        data.take snapshotWriteBlockSize := by
      rw [← hdata, List.drop_take, List.take_take, ← hbytes, Nat.min_comm]
    simp only
    rw [if_neg (by omega), hslice, ih rounds (bufferOffset + blockBytes) _
      (by simp only [List.length_append, List.length_singleton]; omega)
      (by rw [Nat.mul_add, Nat.mul_one] at hleft; omega) (by omega) (by omega),
      snapshotRequests_cons left _ hne, List.append_assoc]
    congr 2
    -- a block shorter than 64 KiB is the last one
    by_cases hshort : blockBytes = snapshotWriteBlockSize
    · rw [hshort, ← hdata, List.drop_drop, Nat.add_assoc]
      rfl
    · rw [List.drop_eq_nil_of_le (by simp only [List.length_take]; omega),
        List.drop_eq_nil_of_le (by omega), snapshotRequests_nil, snapshotRequests_nil]
      rfl

theorem snapshotRequests_cut (left position : Nat) (data : Bytes)
    (hleft : data.length ≤ snapshotWriteBlockSize * left) :
    (snapshotRequests left position data).length ≤ left ∧
      (∀ r ∈ snapshotRequests left position data,
        0 < r.2.length ∧ r.2.length ≤ snapshotWriteBlockSize) ∧
      (∀ i (h : i < (snapshotRequests left position data).length),
        ((snapshotRequests left position data)[i]).1 =
          position + (((snapshotRequests left position data).take i).map (·.2.length)).sum) ∧
      (snapshotRequests left position data).flatMap (·.2) = data := by
  induction left generalizing position data with
  | zero =>
    have : data = [] := List.length_eq_zero_iff.mp (by omega)
    simp [snapshotRequests, this]
  | succ left ih =>
    by_cases hne : data = []
    · simp [hne, snapshotRequests]
    obtain ⟨hcount, hsizes, hcontiguous, hcovers⟩ := ih (position + snapshotWriteBlockSize)
      (data.drop snapshotWriteBlockSize)
      (by rw [List.length_drop]; rw [Nat.mul_add, Nat.mul_one] at hleft; omega)
    have hpos : 0 < data.length := List.length_pos_iff.mpr hne
    have hsize : 0 < snapshotWriteBlockSize := by decide
    rw [snapshotRequests_cons left position hne]
    refine ⟨by simpa using hcount, ?_, ?_, ?_⟩
    · intro r hr
      obtain rfl | hr := List.mem_cons.mp hr
      · simp only [List.length_take]
        omega
      · exact hsizes r hr
    · intro i h
      cases i with
      | zero => simp
      | succ i =>
        rw [List.getElem_cons_succ, List.take_succ_cons, List.map_cons, List.sum_cons,
          hcontiguous i (by simpa using h)]
        -- there is a next request only behind a full block
        have hfull : snapshotWriteBlockSize ≤ data.length := by
          by_contra hshort
          rw [List.drop_eq_nil_of_le (by omega), snapshotRequests_nil] at h
          simp at h
        rw [List.length_take, Nat.min_eq_left hfull, Nat.add_assoc]
    · rw [List.flatMap_cons, hcovers, List.take_append_drop]

theorem flushed_cut (hsized : Writer.Sized writer) :
    (⟨writer.nextFileOffset, writer.block.take writer.bufferedBytes,
      snapshotRequests snapshotWriteBlockCount writer.nextFileOffset
        (writer.block.take writer.bufferedBytes)⟩ : Batch).Cut := by
  obtain ⟨hcount, hsizes, hcontiguous, hcovers⟩ := snapshotRequests_cut snapshotWriteBlockCount
    writer.nextFileOffset (writer.block.take writer.bufferedBytes)
    (Nat.le_trans (List.length_take_le ..) hsized.buffered)
  exact ⟨hcount, hsizes, hcontiguous, hcovers⟩

-- ---------------------------------------------------------------------------
-- Against the abstract writer
-- ---------------------------------------------------------------------------

structure Kept (s s' : State) : Prop where
  rt : s'.rt = s.rt
  engines : s'.engines = s.engines
  target : s'.target = s.target
  trace : s'.trace = s.trace

theorem Kept.refl (s : State) : Kept s s := ⟨rfl, rfl, rfl, rfl⟩

theorem Kept.trans (h : Kept s s') (h' : Kept s' s'') : Kept s s'' :=
  ⟨h'.rt.trans h.rt, h'.engines.trans h.engines, h'.target.trans h.target, h'.trace.trans h.trace⟩

/-- An operation of the writer did what the abstract one does to the file and
the buffer, or gave up where that one does or because a batch failed. -/
structure Outcome (io : Answers) (s : State) (abstract : Option SnapshotWriter)
    (r : Option Writer) (s' : State) : Prop where
  kept : Kept s s'
  batches : ∀ b ∈ s'.batches, b ∈ s.batches ∨ b.Cut
  result : ∃ file, s'.temp = some file ∧
    (r = none ∧ (abstract = none ∨ ∃ n, io.batch n = false) ∨
      ∃ w, r = some w ∧ w.Sized ∧ abstract = some (w.view file))

theorem writeBatch_spec (io : Answers) (batch : Batch) {s : State} (htemp : s.temp = some file) :
    Triple (writeBatch io batch) s (fun ok s' => Kept s s' ∧ s'.batches = s.batches ++ [batch] ∧
      (ok = true ∧ s'.temp = some (kvsUringIoWriteBatch file batch.requests) ∨
        ok = false ∧ (∃ n, io.batch n = false) ∧ ∃ file', s'.temp = some file')) Never := by
  cases hok : io.batch s.batches.length with
  | true =>
    refine ⟨⟨rfl, rfl, rfl, rfl⟩, rfl, .inl ⟨hok, ?_⟩⟩
    simp [hok, htemp]
  | false => exact ⟨⟨rfl, rfl, rfl, rfl⟩, rfl, .inr ⟨hok, ⟨_, hok⟩, _, rfl⟩⟩

theorem snapshotWriterFlush_outcome (io : Answers) (hsized : Writer.Sized writer) {s : State}
    (htemp : s.temp = some file) :
    Triple (snapshotWriterFlush io writer) s
      (Outcome io s (KvStore.snapshotWriterFlush (writer.view file))) Never := by
  have hlen := hsized.length_buffer file
  have hbuffered := hsized.buffered
  unfold snapshotWriterFlush
  rw [if_neg (by omega)]
  refine Triple.ite ?_ ?_
  · intro hempty
    refine Triple.pure ⟨.refl s, fun b hb => .inl hb, file, htemp, .inr ⟨writer, rfl, hsized, ?_⟩⟩
    rw [KvStore.snapshotWriterFlush, if_neg (by omega), if_pos (by omega)]
  intro hsome
  refine Triple.ite ?_ ?_
  · intro hover
    refine Triple.pure ⟨.refl s, fun b hb => .inl hb, file, htemp, .inl ⟨rfl, .inl ?_⟩⟩
    rw [KvStore.snapshotWriterFlush, if_neg (by omega), if_neg (by omega)]
    exact if_pos (by rw [hlen]; exact hover)
  intro hroom
  rw [batchRequests_eq hsized snapshotWriteBlockCount _ 0 [] rfl (by rw [Nat.zero_add]; exact hbuffered)
    (by omega) (by omega), List.nil_append, List.drop_zero, Nat.add_zero, pure_bind]
  have hcut := flushed_cut hsized
  generalize hbatch : (⟨writer.nextFileOffset, writer.block.take writer.bufferedBytes,
    snapshotRequests snapshotWriteBlockCount writer.nextFileOffset
      (writer.block.take writer.bufferedBytes)⟩ : Batch) = batch at hcut ⊢
  have hadded : ∀ b ∈ s.batches ++ [batch], b ∈ s.batches ∨ b.Cut := by
    intro b hb
    obtain hb | hb := List.mem_append.mp hb
    · exact .inl hb
    · rw [List.mem_singleton.mp hb]
      exact .inr hcut
  refine (writeBatch_spec io batch htemp).bind fun ok s' h => ?_
  obtain ⟨hkept, hbatches, ⟨rfl, htemp'⟩ | ⟨rfl, hfailed, file', htemp'⟩⟩ := h
  · refine Triple.pure ⟨hkept, by rwa [hbatches], _, htemp', .inr ⟨_, rfl, ?_, ?_⟩⟩
    · exact ⟨hsized.block, Nat.zero_le _⟩
    · rw [KvStore.snapshotWriterFlush, if_neg (by omega), if_neg (by omega)]
      simp only [hlen]
      refine (if_neg hroom).trans ?_
      rw [← hbatch]
      rfl
  · exact Triple.pure ⟨hkept, by rwa [hbatches], file', htemp', .inl ⟨rfl, .inr hfailed⟩⟩

theorem makeRoom_outcome (io : Answers) (hsized : Writer.Sized writer) {s : State}
    (htemp : s.temp = some file) :
    Triple (makeRoom io writer) s
      (Outcome io s (snapshotWriterMakeRoom (writer.view file))) Never := by
  have hlen := hsized.length_buffer file
  rw [makeRoom, snapshotWriterMakeRoom, hlen]
  refine Triple.ite ?_ ?_
  · intro hfull
    rw [if_pos hfull]
    exact snapshotWriterFlush_outcome io hsized htemp
  · intro hroom
    rw [if_neg hroom]
    exact ⟨.refl s, fun b hb => .inl hb, file, htemp, .inr ⟨writer, rfl, hsized, rfl⟩⟩

theorem Outcome.giveUp {f : SnapshotWriter → Option SnapshotWriter} (h : Outcome io s abstract none s') :
    Outcome io s (abstract.bind f) none s' := by
  obtain ⟨hkept, hbatches, file, htemp, ⟨-, hnone | hfailed⟩ | ⟨w, hw, -, -⟩⟩ := h
  · exact ⟨hkept, hbatches, file, htemp, .inl ⟨rfl, .inl (by rw [hnone, Option.bind_none])⟩⟩
  · exact ⟨hkept, hbatches, file, htemp, .inl ⟨rfl, .inr hfailed⟩⟩
  · cases hw

theorem Outcome.after (h : Outcome io s₁ abstract r s₂) (hkept : Kept s s₁)
    (hbatches : ∀ b ∈ s₁.batches, b ∈ s.batches ∨ b.Cut) : Outcome io s abstract r s₂ := by
  refine ⟨hkept.trans h.kept, fun b hb => ?_, h.result⟩
  obtain hb | hcut := h.batches b hb
  · exact hbatches b hb
  · exact .inr hcut

theorem snapshotWriterMakeRoom_room (hfits : w.buffer.length ≤ snapshotWriteBufferSize)
    (h : snapshotWriterMakeRoom w = some w') : w'.buffer.length < snapshotWriteBufferSize := by
  unfold snapshotWriterMakeRoom at h
  split at h
  · rename_i hfull
    have hsize : 0 < snapshotWriteBufferSize := by decide
    rw [KvStore.snapshotWriterFlush, if_neg (by omega), if_neg (by omega)] at h
    simp only at h
    split at h
    · cases h
    · cases h
      exact hsize
  · cases h
    omega

theorem copyInto_eq (data : Bytes) (hsized : Writer.Sized writer)
    (hfits : writer.bufferedBytes + data.length ≤ snapshotWriteBufferSize) :
    ∃ block, copyInto writer.block writer.bufferedBytes data = pure block ∧
      block.length = snapshotWriteBufferSize ∧
      block.take (writer.bufferedBytes + data.length) =
        writer.block.take writer.bufferedBytes ++ data := by
  have hblock := hsized.block
  refine ⟨_, if_pos (by omega), ?_, ?_⟩
  · simp only [List.length_append, List.length_take, List.length_drop]
    omega
  · have hlen : (writer.block.take writer.bufferedBytes ++ data).length =
        writer.bufferedBytes + data.length := by
      simp only [List.length_append, List.length_take]
      omega
    rw [← hlen, List.take_left]

theorem appendLoop_outcome (io : Answers) (rounds : Nat) (hsized : Writer.Sized writer) {s : State}
    (htemp : s.temp = some file) (hrounds : data.length ≤ rounds) :
    Triple (appendLoop io (rounds + 1) writer data) s
      (Outcome io s (snapshotWriterCopy rounds (writer.view file) data)) Never := by
  induction rounds generalizing writer s file data with
  | zero =>
    have : data = [] := List.length_eq_zero_iff.mp (by omega)
    subst this
    exact ⟨.refl s, fun b hb => .inl hb, file, htemp, .inr ⟨writer, rfl, hsized, rfl⟩⟩
  | succ rounds ih =>
    rw [appendLoop]
    refine Triple.ite ?_ ?_
    · intro hempty
      have : data = [] := List.length_eq_zero_iff.mp hempty
      subst this
      exact ⟨.refl s, fun b hb => .inl hb, file, htemp, .inr ⟨writer, rfl, hsized, rfl⟩⟩
    · intro hmore
      rw [snapshotWriterCopy_succ rounds _ (by rwa [ne_eq, ← List.length_eq_zero_iff])]
      refine (makeRoom_outcome io hsized htemp).bind fun r s₁ h => ?_
      cases r with
      | none => exact Triple.pure h.giveUp
      | some w₁ =>
        obtain ⟨file₁, htemp₁, ⟨hnone, -⟩ | ⟨w, hw, hsized₁, habstract⟩⟩ := h.result
        · cases hnone
        cases hw
        have hlen := hsized₁.length_buffer file₁
        have hlt : w₁.bufferedBytes < snapshotWriteBufferSize := by
          rw [← hlen]
          refine snapshotWriterMakeRoom_room ?_ habstract
          rw [hsized.length_buffer]
          exact hsized.buffered
        rw [habstract, Option.bind_some, hlen]
        generalize hc : min data.length (snapshotWriteBufferSize - w₁.bufferedBytes) = c
        have htake : (data.take c).length = c := by
          rw [List.length_take]
          omega
        obtain ⟨block, hcopy, hblock, hbytes⟩ := copyInto_eq (data.take c) hsized₁ (by omega)
        rw [htake] at hbytes
        simp only [hc, hcopy, pure_bind]
        have hnext : Writer.Sized
            { w₁ with block := block, bufferedBytes := w₁.bufferedBytes + c } :=
          ⟨hblock, by simp only; omega⟩
        have hleft : (data.drop c).length ≤ rounds := by
          rw [List.length_drop]
          omega
        have hloop := ih hnext htemp₁ hleft
        simp only [Writer.view, hbytes] at hloop
        exact hloop.weaken fun r s₂ h₂ => h₂.after h.kept h.batches

theorem snapshotWriterAppend_outcome (io : Answers) (hsized : Writer.Sized writer) {s : State}
    (htemp : s.temp = some file) (data : Bytes) :
    Triple (snapshotWriterAppend io writer data) s
      (Outcome io s (KvStore.snapshotWriterAppend (writer.view file) data)) Never := by
  have hbuffered := hsized.buffered
  have hlen := hsized.length_buffer file
  rw [snapshotWriterAppend, if_neg (by omega), KvStore.snapshotWriterAppend, if_neg (by omega)]
  exact appendLoop_outcome io _ hsized htemp (Nat.le_refl _)

theorem appendAll_outcome (io : Answers) (hsized : Writer.Sized writer) {s : State}
    (htemp : s.temp = some file) (chunks : List Bytes) :
    Triple (appendAll io writer chunks) s (Outcome io s
      (chunks.foldlM KvStore.snapshotWriterAppend (writer.view file))) Never := by
  induction chunks generalizing writer s file with
  | nil => exact ⟨.refl s, fun b hb => .inl hb, file, htemp, .inr ⟨writer, rfl, hsized, rfl⟩⟩
  | cons data chunks ih =>
    rw [List.foldlM_cons]
    refine (snapshotWriterAppend_outcome io hsized htemp data).bind fun r s₁ h => ?_
    cases r with
    | none => exact Triple.pure h.giveUp
    | some w₁ =>
      obtain ⟨file₁, htemp₁, ⟨hnone, -⟩ | ⟨w, hw, hsized₁, habstract⟩⟩ := h.result
      · cases hnone
      cases hw
      rw [habstract]
      exact (ih hsized₁ htemp₁).weaken fun r s₂ h₂ => h₂.after h.kept h.batches

/-- The writer after `snapshot_writer_init`: a block with any contents, and an
empty file. -/
def Writer.init (block : Bytes) (checkpoint : SnapshotCheckpoint) : Writer :=
  ⟨block, 0, 0, checkpoint⟩

theorem foldlM_append_spec (h : SnapshotWriter.Wrote w bytes) (chunks : List Bytes) :
    (∃ w', chunks.foldlM KvStore.snapshotWriterAppend w = some w' ∧
      w'.Wrote (bytes ++ chunks.flatten)) ∨
    (chunks.foldlM KvStore.snapshotWriterAppend w = none ∧
      offMax < (bytes ++ chunks.flatten).length) := by
  induction chunks generalizing w bytes with
  | nil => exact .inl ⟨w, rfl, by simpa using h⟩
  | cons data chunks ih =>
    rw [List.foldlM_cons, List.flatten_cons, ← List.append_assoc]
    obtain ⟨w₁, hw₁, hwrote, -⟩ | ⟨hnone, hover⟩ := snapshotWriterAppend_spec h data
    · rw [hw₁]
      exact ih hwrote
    · rw [hnone]
      exact .inr ⟨rfl, by rw [List.length_append]; omega⟩

theorem Outcome.none_of_succeeds (h : Outcome io s abstract none s') (hio : ∀ n, io.batch n = true) :
    abstract = none := by
  obtain ⟨-, -, ⟨-, hnone | ⟨n, hn⟩⟩ | ⟨w, hw, -⟩⟩ := h.result
  · exact hnone
  · rw [hio n] at hn
    cases hn
  · cases hw

/-- Buffering does not show. Whatever is appended, in whatever pieces, and then
flushed, is the file; on the way the buffer never holds more than 256 KiB,
every batch is at most four blocks of at most 64 KiB that cut exactly the
buffered bytes, and the next file position and the buffered bytes add up to
what was appended. A call fails only when the file would pass the largest file
position. -/
theorem snapshotWriter_transparent (io : Answers) (hio : ∀ n, io.batch n = true) (block : Bytes)
    (hblock : block.length = snapshotWriteBufferSize) (checkpoint : SnapshotCheckpoint)
    (chunks : List Bytes) (s : State) (htemp : s.temp = some []) (hbatches : s.batches = []) :
    Triple (appendAll io (.init block checkpoint) chunks) s (fun r s₁ =>
      (∀ b ∈ s₁.batches, b.Cut) ∧ (r = none → offMax < chunks.flatten.length) ∧
      ∀ w, r = some w → w.bufferedBytes ≤ snapshotWriteBufferSize ∧
        w.nextFileOffset + w.bufferedBytes = chunks.flatten.length ∧
        Triple (snapshotWriterFlush io w) s₁ (fun r s₂ =>
          (∀ b ∈ s₂.batches, b.Cut) ∧ (r = none → offMax < chunks.flatten.length) ∧
          ∀ w', r = some w' → s₂.temp = some chunks.flatten ∧ w'.bufferedBytes = 0 ∧
            w'.nextFileOffset = chunks.flatten.length) Never) Never := by
  have hsized : (Writer.init block checkpoint).Sized := ⟨hblock, Nat.zero_le _⟩
  have hstart : ((Writer.init block checkpoint).view []).Wrote [] :=
    ⟨rfl, rfl, Nat.zero_le _, Nat.zero_le _⟩
  have hall := foldlM_append_spec hstart chunks
  rw [List.nil_append] at hall
  refine (appendAll_outcome io hsized htemp chunks).weaken fun r s₁ h => ?_
  have hcut₁ : ∀ b ∈ s₁.batches, b.Cut := by
    intro b hb
    obtain hb | hcut := h.batches b hb
    · rw [hbatches] at hb
      cases hb
    · exact hcut
  refine ⟨hcut₁, ?_, ?_⟩
  · rintro rfl
    obtain ⟨w', hw', -⟩ | ⟨-, hover⟩ := hall
    · rw [h.none_of_succeeds hio] at hw'
      cases hw'
    · exact hover
  · rintro w rfl
    obtain ⟨file₁, htemp₁, ⟨hnone, -⟩ | ⟨w₁, hw₁, hsized₁, habstract⟩⟩ := h.result
    · cases hnone
    cases hw₁
    obtain ⟨w', hw', hwrote⟩ | ⟨hnone, -⟩ := hall
    swap
    · rw [hnone] at habstract
      cases habstract
    obtain rfl : w' = w.view file₁ := Option.some.inj (hw'.symm.trans habstract)
    have hlen := hsized₁.length_buffer file₁
    have htotal : w.nextFileOffset + w.bufferedBytes = chunks.flatten.length := by
      rw [← hwrote.contents, List.length_append, hlen, ← hwrote.position]
      rfl
    refine ⟨hsized₁.buffered, htotal, ?_⟩
    refine (snapshotWriterFlush_outcome io hsized₁ htemp₁).weaken fun r s₂ h₂ => ?_
    refine ⟨fun b hb => (h₂.batches b hb).elim (hcut₁ b) id, ?_, ?_⟩
    · rintro rfl
      obtain ⟨w', hw', -⟩ | ⟨-, hover⟩ := snapshotWriterFlush_spec hwrote
      · rw [h₂.none_of_succeeds hio] at hw'
        cases hw'
      · exact hover
    · rintro w₂ rfl
      obtain ⟨file₂, htemp₂, ⟨hnone, -⟩ | ⟨w', hw', hsized₂, habstract₂⟩⟩ := h₂.result
      · cases hnone
      cases hw'
      obtain ⟨w', hw', hwrote₂, hempty, -⟩ | ⟨hnone, -⟩ := snapshotWriterFlush_spec hwrote
      swap
      · rw [hnone] at habstract₂
        cases habstract₂
      obtain rfl : w' = w₂.view file₂ := Option.some.inj (hw'.symm.trans habstract₂)
      have hfile : file₂ = chunks.flatten := by
        rw [← hwrote₂.contents, hempty, List.append_nil]
        rfl
      have hzero : w₂.bufferedBytes = 0 := by
        rw [← hsized₂.length_buffer file₂, hempty]
        rfl
      refine ⟨by rw [htemp₂, hfile], hzero, ?_⟩
      rw [← hfile]
      exact hwrote₂.position

/-- An append that leaves room for one byte, and one of two bytes. -/
theorem snapshotWriter_transparent_overrun :
    ∃ (io : Answers) (block : Bytes) (chunks : List Bytes) (s s₁ s₂ : State) (w w' : Writer),
      chunks = [List.replicate (snapshotWriteBufferSize - 1) 1, [2, 3]] ∧ s.temp = some [] ∧
      appendAll io (.init block SnapshotCheckpoint.zero) chunks s = .ok (some w, s₁) ∧
      w.bufferedBytes ≤ snapshotWriteBufferSize ∧
      w.nextFileOffset + w.bufferedBytes = snapshotWriteBufferSize + 1 ∧
      snapshotWriterFlush io w s₁ = .ok (some w', s₂) ∧ (∀ b ∈ s₂.batches, b.Cut) ∧
      s₂.temp = some (List.replicate (snapshotWriteBufferSize - 1) 1 ++ [2, 3]) := by
  have hfail : ¬(Runtime.start (fun _ => false) (fun _ => false)).CanFail := by
    rintro ⟨n, hn⟩
    cases hn
  obtain ⟨_, rt, -, -, E, -, -⟩ := (initKvengine_spec hfail).run
  obtain ⟨block, hblock⟩ : ∃ block : Bytes, block.length = snapshotWriteBufferSize :=
    ⟨List.replicate _ 0, List.length_replicate⟩
  let io : Answers := ⟨fun _ => true, fun _ => true, fun _ file => file, fun _ => 0⟩
  let s : State := ⟨rt, E, none, some [], [], []⟩
  obtain ⟨chunks, hchunks⟩ : ∃ chunks : List Bytes,
    chunks = [List.replicate (snapshotWriteBufferSize - 1) 1, [2, 3]] := ⟨_, rfl⟩
  have hflatten : chunks.flatten = List.replicate (snapshotWriteBufferSize - 1) 1 ++ [2, 3] := by
    rw [hchunks]
    rfl
  have hlength : chunks.flatten.length = snapshotWriteBufferSize + 1 := by
    rw [hflatten, List.length_append, List.length_replicate]
    rfl
  have hfits : ¬offMax < chunks.flatten.length := by
    rw [hlength]
    decide
  obtain ⟨r, s₁, hrun, -, hnone, hsome⟩ := (snapshotWriter_transparent io (fun _ => rfl) block hblock
    SnapshotCheckpoint.zero chunks s rfl rfl).run
  cases r with
  | none => exact absurd (hnone rfl) hfits
  | some w =>
    obtain ⟨hbuffered, htotal, hflush⟩ := hsome w rfl
    obtain ⟨r, s₂, hrun', hcut, hnone', hsome'⟩ := hflush.run
    cases r with
    | none => exact absurd (hnone' rfl) hfits
    | some w' =>
      obtain ⟨htemp, -, -⟩ := hsome' w' rfl
      rw [hlength] at htotal
      rw [hflatten] at htemp
      exact ⟨io, block, chunks, s, s₁, s₂, w, w', hchunks, rfl, hrun, hbuffered, htotal, hrun', hcut, htemp⟩

end KvStore.Saving
