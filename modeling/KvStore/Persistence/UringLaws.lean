import KvStore.Persistence.Uring
import Mathlib.Data.List.Forall2

/-!
# A batch is written completely or reported

Whatever the kernel answers, a batch that returns zero has every byte of every
block at its place, no byte outside the blocks changes, and no request is left
behind. Each round writes something or meets an error or `EINTR`.
-/

namespace KvStore.Uring

open Lib

-- ---------------------------------------------------------------------------
-- Files
-- ---------------------------------------------------------------------------

def byteAt (file : Bytes) (i : Nat) : UInt8 := file[i]?.getD 0

def Write.Covers (write : Write) (i : Nat) : Prop := write.offset ≤ i ∧ i < write.rangeEnd

structure Untouched (writes : List Write) (file file' : Bytes) : Prop where
  grows : file.length ≤ file'.length
  outside : ∀ i : Nat, (∀ w ∈ writes, ¬w.Covers i) → byteAt file' i = byteAt file i

theorem Untouched.refl (writes : List Write) (file : Bytes) : Untouched writes file file :=
  ⟨Nat.le_refl _, fun _ _ => rfl⟩

theorem Untouched.trans (h : Untouched writes file file') (h' : Untouched writes file' file'') :
    Untouched writes file file'' :=
  ⟨Nat.le_trans h.grows h'.grows, fun i hi => (h'.outside i hi).trans (h.outside i hi)⟩

def Request.In (writes : List Write) (request : Request) : Prop :=
  ∃ w ∈ writes, w.offset ≤ request.position ∧ request.position + request.data.length ≤ w.rangeEnd

theorem Request.In.effect {request : Request} (h : request.In writes) (result : Int) (file : Bytes) :
    Untouched writes file (request.effect result file) := by
  unfold Request.effect
  split
  · obtain ⟨w, hw, hstart, hend⟩ := h
    refine ⟨by rw [length_pwrite]; exact Nat.le_max_left .., fun i hi => ?_⟩
    have hnot := hi w hw
    unfold Write.Covers at hnot
    have hlen : (request.data.take result.toNat).length ≤ request.data.length :=
      List.length_take_le' ..
    unfold byteAt
    rw [getElem?_pwrite]
    split
    · split
      · rfl
      · rename_i hpast
        rw [List.getElem?_eq_none (Nat.not_lt.mp hpast)]
        rfl
    · rw [if_neg (by omega)]
  · exact .refl ..

theorem getElem?_pwrite_apart (hbyte : file[i]? = some b)
    (hapart : i < offset ∨ offset + data.length ≤ i) : (pwrite file offset data)[i]? = some b := by
  have hlt : i < file.length := (List.getElem?_eq_some_iff.mp hbyte).1
  rw [getElem?_pwrite]
  by_cases hbefore : i < offset
  · rw [if_pos hbefore, if_pos hlt, hbyte]
  · rw [if_neg hbefore, if_neg (by omega), hbyte]

-- ---------------------------------------------------------------------------
-- The kernel
-- ---------------------------------------------------------------------------

/-- What holds from the start of a batch on. -/
structure Base (writes : List Write) (file₀ : Bytes) (ring : Ring) : Prop where
  untouched : Untouched writes file₀ ring.file
  requests : ∀ r ∈ ring.outstanding, r.In writes
  opened : ring.initialized = true

/-- How a batch may end without returning: the process exits, or a loop has
passed its bound because of as many interruptions. -/
def Stops (writes : List Write) (file₀ : Bytes) (limit : Int) : Halt → Prop
  | .exit ring => Untouched writes file₀ ring.file
  | .fuel ring => Untouched writes file₀ ring.file ∧ limit ≤ ring.interrupts
  | .blocked _ => False

section
variable {kernel : Kernel} {writes : List Write} {file₀ : Bytes} {limit : Int} {ring : Ring}

theorem ask_spec (answer : Nat → α) (ring : Ring) {E : Halt → Prop} :
    Triple (ask answer) ring (fun _ ring' => ∃ calls, ring' = { ring with calls }) E := ⟨_, rfl⟩

theorem Base.calls (h : Base writes file₀ ring) : Base writes file₀ { ring with calls := n } :=
  ⟨h.untouched, h.requests, h.opened⟩

theorem outOfFuel_spec {Q : α → Ring → Prop} (h : Untouched writes file₀ ring.file)
    (hlimit : limit ≤ ring.interrupts) :
    Triple (outOfFuel : Io α) ring Q (Stops writes file₀ limit) := ⟨h, hlimit⟩

structure Completed (ring : Ring) (r : Nat × Int) (ring' : Ring) (request : Request) (index : Nat) :
    Prop where
  found : ring.outstanding[index]? = some request
  id : r.1 = request.id
  bound : r.2 ≤ request.data.length
  file : ring'.file = request.effect r.2 ring.file
  outstanding : ring'.outstanding = ring.outstanding.eraseIdx index
  prepared : ring'.prepared = ring.prepared
  initialized : ring'.initialized = ring.initialized
  interrupts : ring'.interrupts = if r.2 = -eintr then ring.interrupts + 1 else ring.interrupts

theorem complete_spec {E : Halt → Prop} (hsome : ring.outstanding ≠ []) :
    Triple (complete kernel) ring (fun r ring' => ∃ request index, Completed ring r ring' request index)
      E := by
  refine (ask_spec kernel.completes ring).bind fun answer ring₁ h₁ => ?_
  obtain ⟨which, answer⟩ := answer
  obtain ⟨calls, rfl⟩ := h₁
  refine Triple.get_bind ?_
  have hlt : which % ring.outstanding.length < ring.outstanding.length :=
    Nat.mod_lt _ (List.length_pos_iff.mpr hsome)
  have hfound : ring.outstanding[which % ring.outstanding.length]? =
      some ring.outstanding[which % ring.outstanding.length] := List.getElem?_eq_getElem hlt
  simp only [hfound]
  refine Triple.set_bind (Triple.pure ⟨_, _, hfound, rfl, ?_, rfl, rfl, rfl, rfl, rfl⟩)
  exact Int.min_le_right ..

theorem Completed.base (h : Completed ring r ring' request index) (hbase : Base writes file₀ ring) :
    Base writes file₀ ring' where
  untouched := by
    rw [h.file]
    exact hbase.untouched.trans
      ((hbase.requests _ (List.mem_of_getElem? h.found)).effect r.2 ring.file)
  requests := by
    intro req hreq
    rw [h.outstanding] at hreq
    exact hbase.requests req (List.mem_of_mem_eraseIdx hreq)
  opened := h.initialized.trans hbase.opened

theorem uringReceiveWriteResult_spec (fuel : Nat) (hbase : Base writes file₀ ring)
    (hsome : ring.outstanding ≠ []) (hlimit : limit ≤ ring.interrupts + fuel) :
    Triple (uringReceiveWriteResult kernel fuel) ring (fun r ring' =>
      match r with
      | none => Base writes file₀ ring' ∧ ring'.outstanding = ring.outstanding ∧
          ring'.prepared = ring.prepared ∧ ring.interrupts ≤ ring'.interrupts
      | some r => ∃ ring₁ request index, Completed ring₁ r ring' request index ∧
          ring₁.file = ring.file ∧ ring₁.outstanding = ring.outstanding ∧
          ring₁.prepared = ring.prepared ∧ ring₁.initialized = ring.initialized ∧
          ring.interrupts ≤ ring₁.interrupts)
      (Stops writes file₀ limit) := by
  induction fuel generalizing ring with
  | zero => exact outOfFuel_spec hbase.untouched (by omega)
  | succ fuel ih =>
    refine (ask_spec kernel.wait ring).bind fun answer ring₁ h₁ => ?_
    obtain ⟨calls, rfl⟩ := h₁
    refine Triple.ite (fun _ => ?_) fun _ => Triple.ite (fun _ => ?_) fun _ => ?_
    · refine Triple.modify_bind ?_
      have hbase₁ : Base writes file₀ { ring with calls, interrupts := ring.interrupts + 1 } :=
        ⟨hbase.untouched, hbase.requests, hbase.opened⟩
      refine (ih hbase₁ hsome (show limit ≤ (ring.interrupts + 1 : Nat) + fuel by omega)).weaken
        fun r ring' h => ?_
      cases r with
      | none =>
        obtain ⟨h1, h2, h3, h4⟩ := h
        exact ⟨h1, h2, h3, Nat.le_of_succ_le h4⟩
      | some r =>
        obtain ⟨ring₁, request, index, hdone, h1, h2, h3, h4, h5⟩ := h
        exact ⟨ring₁, request, index, hdone, h1, h2, h3, h4, Nat.le_of_succ_le h5⟩
    · exact Triple.modify_bind
        (Triple.pure ⟨⟨hbase.untouched, hbase.requests, hbase.opened⟩, rfl, rfl, Nat.le_refl _⟩)
    · refine Triple.bind (complete_spec hsome) fun r ring' h => ?_
      obtain ⟨request, index, hdone⟩ := h
      exact Triple.pure ⟨_, request, index, hdone, rfl, rfl, rfl, rfl, Nat.le_refl _⟩

-- ---------------------------------------------------------------------------
-- Aborting
-- ---------------------------------------------------------------------------

structure Same (ring ring' : Ring) : Prop where
  file : ring'.file = ring.file
  outstanding : ring'.outstanding = ring.outstanding
  initialized : ring'.initialized = ring.initialized
  interrupts : ring.interrupts ≤ ring'.interrupts

theorem Same.base (h : Same ring ring') (hbase : Base writes file₀ ring) : Base writes file₀ ring' :=
  ⟨by rw [h.file]; exact hbase.untouched, by rw [h.outstanding]; exact hbase.requests,
    h.initialized.trans hbase.opened⟩

theorem Same.trans (h : Same ring ring') (h' : Same ring' ring'') : Same ring ring'' :=
  ⟨h'.file.trans h.file, h'.outstanding.trans h.outstanding, h'.initialized.trans h.initialized,
    Nat.le_trans h.interrupts h'.interrupts⟩

theorem cancelOne_spec (fuel : Nat) (hbase : Base writes file₀ ring)
    (hlimit : limit ≤ ring.interrupts + fuel) :
    Triple (cancelOne kernel fuel) ring (fun _ ring' => Same ring ring') (Stops writes file₀ limit) := by
  induction fuel generalizing ring with
  | zero => exact outOfFuel_spec hbase.untouched (by omega)
  | succ fuel ih =>
    refine (ask_spec kernel.cancel ring).bind fun answer ring₁ h₁ => ?_
    obtain ⟨calls, rfl⟩ := h₁
    refine Triple.ite (fun _ => ?_) fun _ => Triple.ite (fun _ => ?_) fun _ => ?_
    · refine Triple.modify_bind ?_
      have hbase₁ : Base writes file₀ { ring with calls, interrupts := ring.interrupts + 1 } :=
        ⟨hbase.untouched, hbase.requests, hbase.opened⟩
      refine (ih hbase₁ (show limit ≤ (ring.interrupts + 1 : Nat) + fuel by omega)).weaken fun _ ring' h => ?_
      exact ⟨h.file, h.outstanding, h.initialized, Nat.le_of_succ_le h.interrupts⟩
    · exact hbase.untouched
    · exact Triple.pure ⟨rfl, rfl, rfl, Nat.le_refl _⟩

theorem cancelAll_spec (fuel count : Nat) (hbase : Base writes file₀ ring)
    (hlimit : limit ≤ ring.interrupts + fuel) :
    Triple (cancelAll kernel fuel count) ring (fun _ ring' => Same ring ring')
      (Stops writes file₀ limit) := by
  induction count generalizing ring with
  | zero => exact Triple.pure ⟨rfl, rfl, rfl, Nat.le_refl _⟩
  | succ count ih =>
    refine (cancelOne_spec fuel hbase hlimit).bind fun _ ring₁ h₁ => ?_
    have hlimit₁ : limit ≤ ring₁.interrupts + fuel := by
      have := h₁.interrupts
      omega
    exact (ih (h₁.base hbase) hlimit₁).weaken fun _ _ h => h₁.trans h

theorem length_eraseIdx_succ {l : List α} (h : l[i]? = some a) (hlen : l.length = n + 1) :
    (l.eraseIdx i).length = n := by
  rw [List.length_eraseIdx_of_lt (List.getElem?_eq_some_iff.mp h).1]
  omega

theorem reap_spec (fuel pending : Nat) (hbase : Base writes file₀ ring)
    (hpending : ring.outstanding.length = pending) (hlimit : limit ≤ ring.interrupts + fuel) :
    Triple (reap kernel fuel pending) ring
      (fun _ ring' => Base writes file₀ ring' ∧ ring'.outstanding = [])
      (Stops writes file₀ limit) := by
  induction pending generalizing ring with
  | zero => exact Triple.pure ⟨hbase, List.length_eq_zero_iff.mp hpending⟩
  | succ pending ih =>
    have hsome : ring.outstanding ≠ [] := by
      rw [← List.length_pos_iff]
      omega
    refine (uringReceiveWriteResult_spec fuel hbase hsome hlimit).bind fun r ring₁ h₁ => ?_
    cases r with
    | none => exact h₁.1.untouched
    | some r =>
      obtain ⟨ring₂, request, index, hdone, hfile, hout, -, hinit, hint⟩ := h₁
      have hbase₂ : Base writes file₀ ring₂ := Same.base ⟨hfile, hout, hinit, hint⟩ hbase
      have hint₁ : ring₂.interrupts ≤ ring₁.interrupts := by
        rw [hdone.interrupts]
        split <;> omega
      refine ih (hdone.base hbase₂) ?_ (by omega)
      rw [hdone.outstanding]
      exact length_eraseIdx_succ hdone.found (by rw [hout]; exact hpending)

structure Ended (writes : List Write) (file₀ : Bytes) (ring : Ring) : Prop where
  untouched : Untouched writes file₀ ring.file
  outstanding : ring.outstanding = []
  prepared : ring.prepared = []

theorem uringAbortRequests_spec (fuel : Nat) (hbase : Base writes file₀ ring)
    (hpending : ring.outstanding.length = pending) (hlimit : limit ≤ ring.interrupts + fuel) :
    Triple (uringAbortRequests kernel fuel pending) ring (fun _ ring' => Ended writes file₀ ring')
      (Stops writes file₀ limit) := by
  refine Triple.get_bind ?_
  have hfinish : Triple (finish kernel fuel pending) ring
      (fun _ ring' => Base writes file₀ ring' ∧ ring'.outstanding = [])
      (Stops writes file₀ limit) := by
    refine Triple.ite (fun _ => ?_) fun hzero => ?_
    · refine (cancelAll_spec fuel queueDepth hbase hlimit).bind fun _ ring₁ h₁ => ?_
      have := h₁.interrupts
      exact reap_spec fuel pending (h₁.base hbase) (by rw [h₁.outstanding]; exact hpending) (by omega)
    · exact Triple.pure ⟨hbase, List.length_eq_zero_iff.mp (by omega)⟩
  refine hfinish.bind fun _ ring₁ h₁ => ?_
  obtain ⟨hbase₁, hnone⟩ := h₁
  refine Triple.modify_bind ?_
  rw [if_pos hbase₁.opened]
  exact ⟨hbase₁.untouched, hnone, rfl⟩

end

-- ---------------------------------------------------------------------------
-- Progress
-- ---------------------------------------------------------------------------

/-- What is confirmed of a block is in the file, and no request goes past it. -/
structure Slot.Ok (file : Bytes) (slot : Slot) : Prop where
  offset : 0 ≤ slot.write.offset
  room : slot.completed + slot.requested ≤ slot.write.data.length
  held : ∀ k < slot.completed, file[slot.write.offset.toNat + k]? = slot.write.data[k]?

def Slot.left (slot : Slot) : Nat := slot.write.data.length - slot.completed

def bytesLeft (slots : List Slot) : Nat := (slots.map Slot.left).sum

theorem bytesLeft_set (h : slots[i]? = some slot) (slot' : Slot) :
    bytesLeft (slots.set i slot') + slot.left = bytesLeft slots + slot'.left := by
  induction slots generalizing i with
  | nil => simp at h
  | cons first rest ih =>
    cases i with
    | zero =>
      simp only [List.getElem?_cons_zero, Option.some.injEq] at h
      subst h
      simp only [bytesLeft, List.set_cons_zero, List.map_cons, List.sum_cons]
      omega
    | succ i =>
      have hrest := ih (by simpa using h)
      simp only [bytesLeft, List.set_cons_succ, List.map_cons, List.sum_cons] at hrest ⊢
      omega

theorem Slot.Ok.length_request (h : Slot.Ok file slot) (i : Nat) :
    (slot.request i).data.length = slot.requested := by
  have := h.room
  simp only [Slot.request, List.length_take, List.length_drop]
  omega

theorem Slot.Ok.request_in (h : Slot.Ok file slot) (hmem : slot.write ∈ writes) (i : Nat) :
    (slot.request i).In writes := by
  have hoffset := h.offset
  have hroom := h.room
  refine ⟨slot.write, hmem, ?_, ?_⟩
  · simp only [Slot.request]
    omega
  · rw [h.length_request]
    simp only [Slot.request, Write.rangeEnd]
    omega

def Write.Apart (v w : Write) : Prop :=
  v.data.length = 0 ∨ w.data.length = 0 ∨ v.rangeEnd ≤ w.offset ∨ w.rangeEnd ≤ v.offset

theorem Write.Apart.symm (h : Write.Apart v w) : w.Apart v := by
  unfold Write.Apart at *
  omega

theorem Slot.Ok.keeps (h : Slot.Ok file slot) (hother : Slot.Ok file other)
    (hapart : slot.write.Apart other.write) (i : Nat) (result : Int) :
    Slot.Ok ((slot.request i).effect result file) other := by
  refine ⟨hother.offset, hother.room, fun k hk => ?_⟩
  rw [← hother.held k hk]
  by_cases hpos : result > 0
  case neg => rw [Request.effect, if_neg hpos]
  rw [Request.effect, if_pos hpos]
  have hroom := h.room
  have hroom' := hother.room
  have hoffset := h.offset
  have hoffset' := hother.offset
  obtain ⟨b, hb⟩ : ∃ b, file[other.write.offset.toNat + k]? = some b := by
    rw [hother.held k hk]
    exact ⟨_, List.getElem?_eq_getElem (by omega)⟩
  rw [hb]
  refine getElem?_pwrite_apart hb ?_
  have hlen : ((slot.request i).data.take result.toNat).length ≤ slot.requested := by
    rw [← h.length_request i]
    exact List.length_take_le' ..
  simp only [Slot.request] at hlen ⊢
  unfold Write.Apart Write.rangeEnd at hapart
  omega

theorem Slot.Ok.advance (h : Slot.Ok file slot) (i : Nat) {result : Int} (hpos : 0 < result)
    (hbound : result ≤ slot.requested) :
    Slot.Ok ((slot.request i).effect result file)
      { slot with requested := 0, completed := slot.completed + result.toNat } := by
  have hroom := h.room
  have hoffset := h.offset
  refine ⟨hoffset, by simp only; omega, fun k hk => ?_⟩
  simp only at hk ⊢
  rw [Request.effect, if_pos hpos]
  have hlen := h.length_request i
  have hposition : (slot.request i).position = slot.write.offset.toNat + slot.completed := by
    simp only [Slot.request]
    omega
  by_cases hold : k < slot.completed
  · obtain ⟨b, hb⟩ : ∃ b, slot.write.data[k]? = some b :=
      ⟨_, List.getElem?_eq_getElem (by omega)⟩
    rw [hb]
    refine getElem?_pwrite_apart (by rw [h.held k hold, hb]) (.inl ?_)
    omega
  · rw [getElem?_pwrite, if_neg (by omega), if_pos (by rw [List.length_take]; omega)]
    have hindex : slot.write.offset.toNat + k - (slot.request i).position = k - slot.completed := by
      omega
    rw [hindex, List.getElem?_take_of_lt (by omega), Slot.request, List.getElem?_take_of_lt (by omega),
      List.getElem?_drop]
    congr 1
    omega

-- ---------------------------------------------------------------------------
-- Preparing and submitting
-- ---------------------------------------------------------------------------

def requestsOf : Nat → List Slot → List Request
  | _, [] => []
  | i, slot :: rest =>
    if slot.requested = 0 then requestsOf (i + 1) rest else slot.request i :: requestsOf (i + 1) rest

theorem mem_requestsOf {slots : List Slot} (h : r ∈ requestsOf i slots) :
    ∃ (j : Nat) (slot : Slot), slots[j]? = some slot ∧ slot.requested ≠ 0 ∧
      r = slot.request (i + j) := by
  induction slots generalizing i with
  | nil => simp [requestsOf] at h
  | cons slot rest ih =>
    have hlater : r ∈ requestsOf (i + 1) rest →
        ∃ (j : Nat) (slot' : Slot), (slot :: rest)[j]? = some slot' ∧ slot'.requested ≠ 0 ∧
          r = slot'.request (i + j) := by
      intro hr
      obtain ⟨j, slot', hj, hne, rfl⟩ := ih hr
      refine ⟨j + 1, slot', by simpa using hj, hne, ?_⟩
      rw [Nat.add_assoc, Nat.add_comm 1 j]
    rw [requestsOf] at h
    split at h
    · exact hlater h
    · rename_i hne
      obtain rfl | hr := List.mem_cons.mp h
      · exact ⟨0, slot, rfl, hne, rfl⟩
      · exact hlater hr

theorem requestsOf_ids (i : Nat) (slots : List Slot) :
    (requestsOf i slots).Pairwise fun r r' => r.id ≠ r'.id := by
  induction slots generalizing i with
  | nil => exact .nil
  | cons slot rest ih =>
    rw [requestsOf]
    split
    · exact ih (i + 1)
    · refine .cons (fun r hr => ?_) (ih (i + 1))
      obtain ⟨j, slot', -, -, rfl⟩ := mem_requestsOf hr
      simp only [Slot.request]
      omega

theorem length_requestsOf_le (i : Nat) (slots : List Slot) : (requestsOf i slots).length ≤ slots.length := by
  induction slots generalizing i with
  | nil => exact Nat.le_refl _
  | cons slot rest ih =>
    have := ih (i + 1)
    rw [requestsOf]
    split
    · simp only [List.length_cons]
      omega
    · simp only [List.length_cons]
      omega

structure Prepares (file : Bytes) (slot slot' : Slot) : Prop where
  write : slot'.write = slot.write
  completed : slot'.completed = slot.completed
  ok : slot'.Ok file
  idle : slot'.requested = 0 → slot'.completed = slot'.write.data.length

section
variable {kernel : Kernel} {writes : List Write} {file₀ : Bytes} {limit : Int} {ring : Ring}

theorem uringPrepareWrites_spec {E : Halt → Prop} {slots : List Slot} (i : Nat)
    (hok : ∀ slot ∈ slots, Slot.Ok ring.file slot) :
    Triple (uringPrepareWrites kernel i slots) ring (fun r ring' => Same ring ring' ∧
      ∀ count slots', r = some (count, slots') →
        List.Forall₂ (Prepares ring.file) slots slots' ∧
        ring'.prepared = ring.prepared ++ requestsOf i slots' ∧
        count = (requestsOf i slots').length) E := by
  induction slots generalizing i ring with
  | nil =>
    refine Triple.pure ⟨⟨rfl, rfl, rfl, Nat.le_refl _⟩, ?_⟩
    rintro _ _ ⟨⟩
    exact ⟨.nil, (List.append_nil _).symm, rfl⟩
  | cons slot rest ih =>
    have hslot := hok slot (List.mem_cons_self ..)
    have hrest := fun s hs => hok s (List.mem_cons_of_mem _ hs)
    rw [uringPrepareWrites]
    refine Triple.ite (fun hfull => ?_) fun hmore => ?_
    · refine (ih (i + 1) hrest).bind fun r ring₁ h₁ => ?_
      cases r with
      | none => exact Triple.pure ⟨h₁.1, fun _ _ h => by cases h⟩
      | some r =>
        obtain ⟨count, rest'⟩ := r
        obtain ⟨hforall, hprepared, hcount⟩ := h₁.2 count rest' rfl
        refine Triple.pure ⟨h₁.1, ?_⟩
        rintro _ _ ⟨⟩
        refine ⟨.cons ⟨rfl, rfl, ⟨hslot.offset, ?_, hslot.held⟩, fun _ => hfull⟩ hforall, ?_, ?_⟩
        · simp only
          omega
        · rw [hprepared, requestsOf, if_pos rfl]
        · rw [hcount, requestsOf, if_pos rfl]
    · have hroom := hslot.room
      have hreq : min (slot.write.data.length - slot.completed) intMax ≠ 0 := by
        have : 0 < intMax := by decide
        omega
      refine (ask_spec kernel.full ring).bind fun full ring₁ h₁ => ?_
      obtain ⟨calls, rfl⟩ := h₁
      refine Triple.ite (fun _ => ?_) fun _ => ?_
      · exact Triple.modify_bind
          (Triple.pure ⟨⟨rfl, rfl, rfl, Nat.le_refl _⟩, fun _ _ h => by cases h⟩)
      · refine Triple.modify_bind (Triple.bind (ih (i + 1) hrest) fun r ring₂ h₂ => ?_)
        obtain ⟨⟨hfile, hout, hinit, hint⟩, hdone⟩ := h₂
        cases r with
        | none => exact Triple.pure ⟨⟨hfile, hout, hinit, hint⟩, fun _ _ h => by cases h⟩
        | some r =>
          obtain ⟨count, rest'⟩ := r
          obtain ⟨hforall, hprepared, hcount⟩ := hdone count rest' rfl
          refine Triple.pure ⟨⟨hfile, hout, hinit, hint⟩, ?_⟩
          rintro _ _ ⟨⟩
          refine ⟨.cons ⟨rfl, rfl, ⟨hslot.offset, ?_, hslot.held⟩, fun h => absurd h hreq⟩ hforall,
            ?_, ?_⟩
          · simp only
            omega
          · rw [hprepared, requestsOf, if_neg hreq, List.append_assoc]
            rfl
          · rw [hcount, requestsOf, if_neg hreq]
            rfl

structure Submitted (ring ring' : Ring) (requests : List Request) (n : Nat) : Prop where
  file : ring'.file = ring.file
  initialized : ring'.initialized = ring.initialized
  interrupts : ring.interrupts ≤ ring'.interrupts
  le : n ≤ requests.length
  outstanding : ring'.outstanding = requests.take n
  prepared : ring'.prepared = requests.drop n

theorem ioUringSubmit_spec {E : Halt → Prop} {requests : List Request} {ring₀ : Ring}
    (h : Submitted ring₀ ring requests n) (hlt : n < requests.length) :
    Triple (ioUringSubmit kernel) ring (fun result ring' =>
      (0 < result ∧ Submitted ring₀ ring' requests (n + result.toNat) ∨
        result ≤ 0 ∧ Submitted ring₀ ring' requests n) ∧ ring'.interrupts = ring.interrupts) E := by
  refine (ask_spec kernel.submit ring).bind fun answer ring₁ h₁ => ?_
  obtain ⟨calls, rfl⟩ := h₁
  refine Triple.get_bind (Triple.ite (fun hpos => ?_) fun hneg => ?_)
  · refine Triple.set_bind (Triple.pure ⟨.inl ⟨?_, h.file, h.initialized, h.interrupts, ?_, ?_, ?_⟩, rfl⟩)
    · simp only [h.prepared, List.length_drop]
      omega
    · simp only [h.prepared, List.length_drop, Int.toNat_natCast]
      omega
    · simp only [h.outstanding, h.prepared, List.length_drop, Int.toNat_natCast]
      rw [List.take_add]
    · simp only [h.prepared, List.length_drop, Int.toNat_natCast, List.drop_drop]
  · exact Triple.pure ⟨.inr ⟨Int.not_lt.mp hneg, h.file, h.initialized, h.interrupts, h.le,
      h.outstanding, h.prepared⟩, rfl⟩

theorem uringSubmitPrepared_spec (fuel : Nat) {requests : List Request} {ring₀ : Ring}
    (hfile : Untouched writes file₀ ring₀.file)
    (h : Submitted ring₀ ring requests n) (hlimit : limit + requests.length ≤ ring.interrupts + fuel + n) :
    Triple (uringSubmitPrepared kernel requests.length fuel n) ring (fun r ring' =>
      Submitted ring₀ ring' requests r.2 ∧ (r.1 = true → r.2 = requests.length))
      (Stops writes file₀ limit) := by
  induction fuel generalizing ring n with
  | zero =>
    have := h.le
    exact outOfFuel_spec (by rw [h.file]; exact hfile) (by omega)
  | succ fuel ih =>
    rw [uringSubmitPrepared]
    refine Triple.ite (fun hlt => ?_) fun hdone => ?_
    · refine (ioUringSubmit_spec h hlt).bind fun result ring₁ h₁ => ?_
      obtain ⟨hresult, hint⟩ := h₁
      refine Triple.ite (fun hintr => ?_) fun _ => Triple.ite (fun hneg => ?_) fun _ =>
        Triple.ite (fun hzero => ?_) fun hpos => ?_
      · obtain ⟨hpos, -⟩ | ⟨-, h₁⟩ := hresult
        · rw [hintr] at hpos
          exact absurd hpos (by decide)
        refine Triple.modify_bind ?_
        have hsub : Submitted ring₀ { ring₁ with interrupts := ring₁.interrupts + 1 } requests n :=
          ⟨h₁.file, h₁.initialized, Nat.le_succ_of_le h₁.interrupts, h₁.le, h₁.outstanding, h₁.prepared⟩
        exact ih hsub (show limit + requests.length ≤ (ring₁.interrupts + 1 : Nat) + fuel + n by omega)
      · obtain ⟨hpos, -⟩ | ⟨-, h₁⟩ := hresult
        · omega
        exact Triple.modify_bind (Triple.pure ⟨⟨h₁.file, h₁.initialized, h₁.interrupts, h₁.le,
          h₁.outstanding, h₁.prepared⟩, nofun⟩)
      · obtain ⟨hpos, -⟩ | ⟨-, h₁⟩ := hresult
        · omega
        exact Triple.modify_bind (Triple.pure ⟨⟨h₁.file, h₁.initialized, h₁.interrupts, h₁.le,
          h₁.outstanding, h₁.prepared⟩, nofun⟩)
      · obtain ⟨hpos, h₁⟩ | ⟨hle, -⟩ := hresult
        · exact ih h₁ (by omega)
        · omega
    · have := h.le
      exact Triple.pure ⟨h, fun _ => by simp only; omega⟩

end

-- ---------------------------------------------------------------------------
-- Receiving
-- ---------------------------------------------------------------------------

theorem Slot.settle_write (slot : Slot) (result firstError : Int) :
    (slot.settle result firstError).1.write = slot.write := by
  unfold Slot.settle
  split
  · rfl
  · split <;> rfl

theorem Slot.Ok.settle (h : Slot.Ok file slot) (i : Nat) {result : Int}
    (hbound : result ≤ slot.requested) (firstError : Int) :
    Slot.Ok ((slot.request i).effect result file) (slot.settle result firstError).1 := by
  have hroom := h.room
  have hsame : ¬result > 0 → Slot.Ok ((slot.request i).effect result file) { slot with requested := 0 } := by
    intro hneg
    rw [Request.effect, if_neg hneg]
    exact ⟨h.offset, by simp only; omega, h.held⟩
  unfold Slot.settle
  split
  · rename_i hintr
    exact hsame (by rw [hintr]; decide)
  · split
    · rename_i hbad
      exact hsame (by omega)
    · exact h.advance i (by omega) hbound

theorem Slot.Ok.settle_left (h : Slot.Ok file slot) {result : Int} (hbound : result ≤ slot.requested)
    (firstError : Int) :
    (slot.settle result firstError).1.left ≤ slot.left ∧
      ((slot.settle result firstError).2 = 0 → firstError = 0 ∧
        (result ≠ -eintr → (slot.settle result firstError).1.left < slot.left)) := by
  have hroom := h.room
  unfold Slot.settle
  split
  · rename_i hintr
    exact ⟨Nat.le_refl _, fun hzero => ⟨hzero, fun hne => absurd hintr hne⟩⟩
  · split
    · refine ⟨Nat.le_refl _, fun hzero => ?_⟩
      simp only [eio] at hzero
      split at hzero
      · split at hzero <;> omega
      · omega
    · simp only [Slot.left]
      exact ⟨by omega, fun hzero => ⟨hzero, fun _ => by omega⟩⟩

/-- The outstanding requests are those of the blocks, one for each. -/
structure Flight (writes : List Write) (slots : List Slot) (ring : Ring) : Prop where
  blocks : slots.map Slot.write = writes
  ok : ∀ slot ∈ slots, Slot.Ok ring.file slot
  ids : ring.outstanding.Pairwise fun r r' => r.id ≠ r'.id
  requests : ∀ r ∈ ring.outstanding, ∃ slot, slots[r.id]? = some slot ∧ r = slot.request r.id ∧
    slot.requested ≠ 0

theorem Flight.base (h : Flight writes slots ring) (hfile : Untouched writes file₀ ring.file)
    (hopen : ring.initialized = true) : Base writes file₀ ring where
  untouched := hfile
  requests := by
    intro r hr
    obtain ⟨slot, hslot, hrequest, -⟩ := h.requests r hr
    have hmem := List.mem_of_getElem? hslot
    rw [hrequest]
    refine (h.ok slot hmem).request_in ?_ r.id
    rw [← h.blocks]
    exact List.mem_map_of_mem hmem
  opened := hopen

theorem getElem?_apart {R : α → α → Prop} {l : List α} {i j : Nat} (h : l.Pairwise R)
    (hsymm : ∀ {a b}, R a b → R b a) (hne : i ≠ j) (hi : l[i]? = some a) (hj : l[j]? = some b) :
    R a b := by
  obtain ⟨hltI, rfl⟩ := List.getElem?_eq_some_iff.mp hi
  obtain ⟨hltJ, rfl⟩ := List.getElem?_eq_some_iff.mp hj
  obtain hlt | hgt := Nat.lt_or_gt_of_ne hne
  · exact List.pairwise_iff_getElem.mp h i j hltI hltJ hlt
  · exact hsymm (List.pairwise_iff_getElem.mp h j i hltJ hltI hgt)

/-- One completion: its block is settled, the others stay as they are. -/
theorem Flight.step (h : Flight writes slots ring) (hapart : writes.Pairwise Write.Apart)
    (hdone : Completed ring r ring' request index) (hslot : slots[request.id]? = some slot)
    (hrequest : request = slot.request request.id) (firstError : Int) :
    Flight writes (slots.set request.id (slot.settle r.2 firstError).1) ring' := by
  have hok := h.ok slot (List.mem_of_getElem? hslot)
  obtain ⟨hlt, hget⟩ := List.getElem?_eq_some_iff.mp hslot
  have hbound : r.2 ≤ slot.requested := by
    have hle := hdone.bound
    rw [hrequest, hok.length_request] at hle
    exact hle
  have hfile : ring'.file = (slot.request request.id).effect r.2 ring.file := by
    rw [hdone.file, ← hrequest]
  constructor
  · rw [← h.blocks, List.map_set, Slot.settle_write, ← hget, ← List.getElem_map Slot.write,
      List.set_getElem_self]
    simpa using hlt
  · intro other hother
    rw [hfile]
    obtain ⟨j, hj, rfl⟩ := List.mem_iff_getElem.mp hother
    rw [List.length_set] at hj
    by_cases hsame : request.id = j
    · subst hsame
      rw [List.getElem_set_self]
      exact hok.settle request.id hbound firstError
    · rw [List.getElem_set_ne hsame]
      refine hok.keeps (h.ok _ (List.getElem_mem hj)) ?_ request.id r.2
      rw [← h.blocks, List.pairwise_map] at hapart
      have hpair := getElem?_apart hapart Write.Apart.symm hsame hslot (List.getElem?_eq_getElem hj)
      exact hpair
  · rw [hdone.outstanding]
    exact h.ids.sublist (List.eraseIdx_sublist ..)
  · intro req hreq
    rw [hdone.outstanding] at hreq
    obtain ⟨slot', hslot', heq, hne⟩ := h.requests req (List.mem_of_mem_eraseIdx hreq)
    refine ⟨slot', ?_, heq, hne⟩
    have hid : request.id ≠ req.id := by
      obtain ⟨j, hj, hget'⟩ := List.mem_eraseIdx_iff_getElem?.mp hreq
      have hpair := getElem?_apart h.ids Ne.symm (Ne.symm hj) hdone.found hget'
      exact hpair
    rw [List.getElem?_set_ne hid]
    exact hslot'

structure Received (writes : List Write) (file₀ : Bytes) (slots : List Slot) (ring : Ring)
    (slots' : List Slot) (firstError : Int) (ring' : Ring) : Prop where
  flight : Flight writes slots' ring'
  untouched : Untouched writes file₀ ring'.file
  opened : ring'.initialized = true
  outstanding : ring'.outstanding = []
  prepared : ring'.prepared = []
  interrupts : ring.interrupts ≤ ring'.interrupts
  left : bytesLeft slots' ≤ bytesLeft slots
  progress : firstError = 0 → ring.outstanding ≠ [] → ring'.interrupts = ring.interrupts →
    bytesLeft slots' < bytesLeft slots

section
variable {kernel : Kernel} {writes : List Write} {file₀ : Bytes} {limit : Int} {ring : Ring}
  {slots : List Slot}

theorem receiveAll_spec (fuel left : Nat) (firstError : Int) (hapart : writes.Pairwise Write.Apart)
    (h : Flight writes slots ring) (hfile : Untouched writes file₀ ring.file)
    (hopen : ring.initialized = true) (hleft : ring.outstanding.length = left)
    (hprepared : ring.prepared = []) (hlimit : limit ≤ ring.interrupts + fuel) :
    Triple (receiveAll kernel fuel left slots firstError) ring (fun r ring' =>
      match r with
      | none => Ended writes file₀ ring'
      | some (slots', firstError') => (firstError' = 0 → firstError = 0) ∧
          Received writes file₀ slots ring slots' firstError' ring')
      (Stops writes file₀ limit) := by
  induction left generalizing ring slots firstError with
  | zero =>
    have hnone := List.length_eq_zero_iff.mp hleft
    exact Triple.pure ⟨id, h, hfile, hopen, hnone, hprepared, Nat.le_refl _, Nat.le_refl _,
      fun _ hne => absurd hnone hne⟩
  | succ left ih =>
    have hbase := h.base hfile hopen
    have hsome : ring.outstanding ≠ [] := by
      rw [← List.length_pos_iff]
      omega
    refine (uringReceiveWriteResult_spec fuel hbase hsome hlimit).bind fun r ring₁ h₁ => ?_
    cases r with
    | none =>
      obtain ⟨hbase₁, hout₁, -, hint₁⟩ := h₁
      have hreport : Triple (reportFirst firstError) ring₁ (fun _ ring₂ => Same ring₁ ring₂)
          (Stops writes file₀ limit) :=
        Triple.ite (fun _ => ⟨rfl, rfl, rfl, Nat.le_refl _⟩) fun _ => ⟨rfl, rfl, rfl, Nat.le_refl _⟩
      refine hreport.bind fun _ ring₂ h₂ => ?_
      have hint₂ := h₂.interrupts
      refine (uringAbortRequests_spec fuel (h₂.base hbase₁)
        (by rw [h₂.outstanding, hout₁]; exact hleft) (by omega)).bind fun _ ring₃ h₃ => ?_
      exact Triple.pure h₃
    | some r =>
      obtain ⟨blockIndex, result⟩ := r
      obtain ⟨ring₂, request, index, hdone, hfile₂, hout₂, hprep₂, hinit₂, hint₂⟩ := h₁
      have hflight₂ : Flight writes slots ring₂ :=
        ⟨h.blocks, by rw [hfile₂]; exact h.ok, by rw [hout₂]; exact h.ids,
          by rw [hout₂]; exact h.requests⟩
      obtain ⟨slot, hslot, hrequest, hne⟩ :=
        hflight₂.requests request (List.mem_of_getElem? hdone.found)
      have hid : blockIndex = request.id := hdone.id
      simp only [hid, hslot, if_neg hne]
      have hok := hflight₂.ok slot (List.mem_of_getElem? hslot)
      have hbound : result ≤ slot.requested := by
        have hle := hdone.bound
        rw [hrequest, hok.length_request] at hle
        exact hle
      have hflight₁ : Flight writes (slots.set request.id (slot.settle result firstError).1) ring₁ :=
        hflight₂.step hapart hdone hslot hrequest firstError
      obtain ⟨hless, hadvance⟩ := hok.settle_left hbound firstError
      have hsum := bytesLeft_set hslot (slot.settle result firstError).1
      have hint₁ := hdone.interrupts
      have hbase₁ := hdone.base (Same.base ⟨hfile₂, hout₂, hinit₂, hint₂⟩ hbase)
      refine (ih _ hflight₁ hbase₁.untouched hbase₁.opened ?_ ?_ ?_).weaken fun r ring₃ h₃ => ?_
      · rw [hdone.outstanding]
        exact length_eraseIdx_succ hdone.found (by rw [hout₂]; exact hleft)
      · rw [hdone.prepared, hprep₂]
        exact hprepared
      · rw [hint₁]
        split <;> omega
      · cases r with
        | none => exact h₃
        | some r =>
          obtain ⟨slots₃, firstError₃⟩ := r
          obtain ⟨herror, hreceived⟩ := h₃
          have hle := hreceived.left
          have hint₃ := hreceived.interrupts
          have hmono : ring.interrupts ≤ ring₁.interrupts := by
            rw [hint₁]
            split <;> omega
          refine ⟨fun hzero => (hadvance (herror hzero)).1, hreceived.flight, hreceived.untouched,
            hreceived.opened, hreceived.outstanding, hreceived.prepared, by omega, by omega, ?_⟩
          intro hzero _ hsame
          have hnot : result ≠ -eintr := by
            intro hintr
            rw [if_pos hintr] at hint₁
            omega
          have hlt := (hadvance (herror hzero)).2 hnot
          omega

end

-- ---------------------------------------------------------------------------
-- Rounds
-- ---------------------------------------------------------------------------

/-- What a round starts from. -/
structure Ready (writes : List Write) (file₀ : Bytes) (slots : List Slot) (ring : Ring) : Prop where
  blocks : slots.map Slot.write = writes
  ok : ∀ slot ∈ slots, Slot.Ok ring.file slot
  untouched : Untouched writes file₀ ring.file
  opened : ring.initialized = true
  outstanding : ring.outstanding = []
  prepared : ring.prepared = []

def Write.Held (write : Write) (file : Bytes) : Prop :=
  ∀ k < write.data.length, file[write.offset.toNat + k]? = write.data[k]?

theorem requested_of_requestsOf_nil {slots : List Slot} (h : requestsOf i slots = []) :
    ∀ slot ∈ slots, slot.requested = 0 := by
  induction slots generalizing i with
  | nil => simp
  | cons slot rest ih =>
    rw [requestsOf] at h
    split at h
    · rename_i hzero
      intro s hs
      obtain rfl | hs := List.mem_cons.mp hs
      · exact hzero
      · exact ih h s hs
    · cases h

theorem forall₂_prepares {slots slots' : List Slot} (h : List.Forall₂ (Prepares file) slots slots') :
    slots'.map Slot.write = slots.map Slot.write ∧ bytesLeft slots' = bytesLeft slots ∧
      ∀ slot ∈ slots', slot.Ok file ∧ (slot.requested = 0 → slot.completed = slot.write.data.length) := by
  induction h with
  | nil => simp
  | cons hhead _ ih =>
    obtain ⟨hwrites, hleft, hok⟩ := ih
    refine ⟨by simp [hhead.write, hwrites], ?_, ?_⟩
    · simp only [bytesLeft, List.map_cons, List.sum_cons, Slot.left] at hleft ⊢
      rw [hhead.write, hhead.completed, hleft]
    · intro slot hslot
      obtain rfl | hslot := List.mem_cons.mp hslot
      · exact ⟨hhead.ok, hhead.idle⟩
      · exact hok slot hslot

def Rounded (writes : List Write) (file₀ : Bytes) (slots : List Slot) (ring : Ring) (r : Round)
    (ring' : Ring) : Prop :=
  match r with
  | .done => Ended writes file₀ ring' ∧ ∀ w ∈ writes, w.Held ring'.file
  | .failed => Ended writes file₀ ring'
  | .again slots' => Ready writes file₀ slots' ring' ∧ ring.interrupts ≤ ring'.interrupts ∧
      bytesLeft slots' ≤ bytesLeft slots ∧
      (ring'.interrupts = ring.interrupts → bytesLeft slots' < bytesLeft slots)

section
variable {kernel : Kernel} {writes : List Write} {file₀ : Bytes} {limit : Int} {ring : Ring}
  {slots : List Slot}

theorem flight_of_submitted {slots' : List Slot} (hblocks : slots'.map Slot.write = writes)
    (hok : ∀ slot ∈ slots', Slot.Ok ring'.file slot)
    (hout : ring'.outstanding = (requestsOf 0 slots').take n) : Flight writes slots' ring' := by
  refine ⟨hblocks, hok, ?_, ?_⟩
  · rw [hout]
    exact (requestsOf_ids 0 slots').sublist (List.take_sublist ..)
  · intro r hr
    rw [hout] at hr
    obtain ⟨j, slot, hj, hne, rfl⟩ := mem_requestsOf (List.mem_of_mem_take hr)
    rw [Nat.zero_add]
    exact ⟨slot, hj, rfl, hne⟩

theorem writeRound_spec (fuel : Nat) (hcount : writes.length ≤ queueDepth)
    (hapart : writes.Pairwise Write.Apart) (h : Ready writes file₀ slots ring)
    (hlimit : limit + queueDepth ≤ ring.interrupts + fuel) :
    Triple (writeRound kernel fuel slots) ring (Rounded writes file₀ slots ring)
      (Stops writes file₀ limit) := by
  refine Triple.bind (uringPrepareWrites_spec 0 h.ok) fun r ring₁ h₁ => ?_
  obtain ⟨hsame, hdone⟩ := h₁
  have hint₁ := hsame.interrupts
  cases r with
  | none =>
    have hbase : Base writes file₀ ring₁ :=
      ⟨by rw [hsame.file]; exact h.untouched, by rw [hsame.outstanding, h.outstanding]; simp,
        hsame.initialized.trans h.opened⟩
    refine (uringAbortRequests_spec fuel hbase (by rw [hsame.outstanding, h.outstanding]; rfl)
      (by omega)).bind fun _ ring₂ h₂ => ?_
    exact Triple.pure h₂
  | some r =>
    obtain ⟨count, slots'⟩ := r
    obtain ⟨hforall, hprepared, rfl⟩ := hdone count slots' rfl
    rw [h.prepared, List.nil_append] at hprepared
    obtain ⟨hwrites, hleft, hslots⟩ := forall₂_prepares hforall
    have hblocks : slots'.map Slot.write = writes := hwrites.trans h.blocks
    have hfew : (requestsOf 0 slots').length ≤ queueDepth := by
      have hle := length_requestsOf_le 0 slots'
      have hlen := congrArg List.length hblocks
      rw [List.length_map] at hlen
      omega
    refine Triple.ite (fun hzero => ?_) fun hsome => ?_
    · have hnil : requestsOf 0 slots' = [] := List.length_eq_zero_iff.mp hzero
      refine Triple.pure ⟨⟨?_, ?_, ?_⟩, ?_⟩
      · rw [hsame.file]
        exact h.untouched
      · rw [hsame.outstanding]
        exact h.outstanding
      · rw [hprepared, hnil]
      · intro w hw
        rw [← hblocks] at hw
        obtain ⟨slot, hslot, rfl⟩ := List.mem_map.mp hw
        obtain ⟨hok, hidle⟩ := hslots slot hslot
        have hfull := hidle (requested_of_requestsOf_nil hnil slot hslot)
        intro k hk
        rw [hsame.file]
        exact hok.held k (by omega)
    · have hstart : Submitted ring₁ ring₁ (requestsOf 0 slots') 0 :=
        ⟨rfl, rfl, Nat.le_refl _, Nat.zero_le _, by rw [hsame.outstanding, h.outstanding]; rfl,
          hprepared⟩
      have huntouched₁ : Untouched writes file₀ ring₁.file := by
        rw [hsame.file]
        exact h.untouched
      refine (uringSubmitPrepared_spec fuel huntouched₁ hstart (by omega)).bind fun r ring₂ h₂ => ?_
      obtain ⟨submitted, n⟩ := r
      obtain ⟨hsub, hall⟩ := h₂
      have hint₂ := hsub.interrupts
      have hok₂ : ∀ slot ∈ slots', Slot.Ok ring₂.file slot := by
        intro slot hslot
        rw [hsub.file, hsame.file]
        exact (hslots slot hslot).1
      have hflight := flight_of_submitted hblocks hok₂ hsub.outstanding
      have huntouched₂ : Untouched writes file₀ ring₂.file := by
        rw [hsub.file]
        exact huntouched₁
      have hopen₂ := hsub.initialized.trans (hsame.initialized.trans h.opened)
      have hlen₂ : ring₂.outstanding.length = n := by
        rw [hsub.outstanding, List.length_take]
        exact Nat.min_eq_left hsub.le
      refine Triple.ite (fun hok => ?_) fun _ => ?_
      · obtain rfl : n = (requestsOf 0 slots').length := hall hok
        refine (receiveAll_spec fuel _ 0 hapart hflight huntouched₂ hopen₂ hlen₂
          (by rw [hsub.prepared, List.drop_length]) (by omega)).bind fun r ring₃ h₃ => ?_
        cases r with
        | none => exact Triple.pure h₃
        | some r =>
          obtain ⟨slots₃, firstError⟩ := r
          obtain ⟨-, hreceived⟩ := h₃
          refine Triple.ite (fun _ => ?_) fun hzero => ?_
          · exact Triple.modify_bind
              (Triple.pure ⟨hreceived.untouched, hreceived.outstanding, hreceived.prepared⟩)
          · have hnone : firstError = 0 := by omega
            have hint₃ := hreceived.interrupts
            have hless := hreceived.left
            have hne : ring₂.outstanding ≠ [] := by
              rw [← List.length_pos_iff]
              omega
            refine Triple.pure ⟨⟨hreceived.flight.blocks, hreceived.flight.ok, hreceived.untouched,
              hreceived.opened, hreceived.outstanding, hreceived.prepared⟩, by omega, by omega, ?_⟩
            intro hquiet
            have hlt := hreceived.progress hnone hne (by omega)
            omega
      · refine (uringAbortRequests_spec fuel (hflight.base huntouched₂ hopen₂) hlen₂ (by omega)).bind
          fun _ ring₃ h₃ => ?_
        exact Triple.pure h₃

theorem writeLoop_spec (fuel rounds : Nat) (hcount : writes.length ≤ queueDepth)
    (hapart : writes.Pairwise Write.Apart) (h : Ready writes file₀ slots ring)
    (hlimit : limit + queueDepth ≤ ring.interrupts + fuel)
    (hrounds : limit + bytesLeft slots ≤ ring.interrupts + rounds) :
    Triple (writeLoop kernel fuel rounds slots) ring (fun code ring' => (code = 0 ∨ code = -1) ∧
      Ended writes file₀ ring' ∧ (code = 0 → ∀ w ∈ writes, w.Held ring'.file))
      (Stops writes file₀ limit) := by
  induction rounds generalizing ring slots with
  | zero => exact outOfFuel_spec h.untouched (by omega)
  | succ rounds ih =>
    refine (writeRound_spec fuel hcount hapart h hlimit).bind fun r ring₁ h₁ => ?_
    cases r with
    | done => exact Triple.pure ⟨.inl rfl, h₁.1, fun _ => h₁.2⟩
    | failed => exact Triple.pure ⟨.inr rfl, h₁, fun h => by cases h⟩
    | again slots₁ =>
      obtain ⟨hready, hint, hleft, hprogress⟩ := h₁
      refine ih hready (by omega) ?_
      by_cases hquiet : ring₁.interrupts = ring.interrupts
      · have := hprogress hquiet
        omega
      · omega

end

-- ---------------------------------------------------------------------------
-- The batch
-- ---------------------------------------------------------------------------

structure Acceptable (writes : List Write) : Prop where
  inRange : ∀ w ∈ writes, 0 ≤ w.offset ∧ w.rangeEnd ≤ offMax
  apart : writes.Pairwise Write.Apart

theorem checkWrite_eq_none : checkWrite earlier write = none ↔
    (0 ≤ write.offset ∧ write.rangeEnd ≤ offMax) ∧ ∀ v ∈ earlier, v.Apart write := by
  unfold checkWrite
  by_cases hneg : write.offset < 0
  · rw [if_pos hneg]
    constructor
    · intro h
      cases h
    · intro h
      omega
  rw [if_neg hneg]
  by_cases hover : write.rangeEnd > offMax
  · rw [if_pos hover]
    constructor
    · intro h
      cases h
    · intro h
      omega
  rw [if_neg hover]
  by_cases hempty : write.data.length = 0
  · rw [if_pos hempty]
    exact ⟨fun _ => ⟨⟨by omega, by omega⟩, fun v _ => .inr (.inl hempty)⟩, fun _ => rfl⟩
  rw [if_neg hempty]
  have hany : earlier.any write.overlaps = true ↔ ¬∀ v ∈ earlier, v.Apart write := by
    simp only [List.any_eq_true, Write.overlaps, decide_eq_true_eq, Write.Apart, not_forall]
    constructor
    · rintro ⟨v, hv, h⟩
      exact ⟨v, hv, by omega⟩
    · rintro ⟨v, hv, h⟩
      exact ⟨v, hv, by omega⟩
  by_cases hhit : earlier.any write.overlaps = true
  · rw [if_pos hhit]
    constructor
    · intro h
      cases h
    · intro h
      exact absurd h.2 (hany.mp hhit)
  · rw [if_neg hhit]
    exact ⟨fun _ => ⟨⟨by omega, by omega⟩, not_not.mp (mt hany.mpr hhit)⟩, fun _ => rfl⟩

theorem checkWrites_eq_none : checkWrites earlier writes = none ↔
    Acceptable writes ∧ ∀ v ∈ earlier, ∀ w ∈ writes, v.Apart w := by
  induction writes generalizing earlier with
  | nil => exact ⟨fun _ => ⟨⟨by simp, .nil⟩, by simp⟩, fun _ => rfl⟩
  | cons write rest ih =>
    rw [checkWrites]
    cases hcheck : checkWrite earlier write with
    | some e =>
      constructor
      · intro h
        cases h
      · rintro ⟨hok, hapart⟩
        have hnone := checkWrite_eq_none.mpr ⟨hok.inRange write (List.mem_cons_self ..),
          fun v hv => hapart v hv write (List.mem_cons_self ..)⟩
        rw [hcheck] at hnone
        cases hnone
    | none =>
      obtain ⟨hrange, hearlier⟩ := checkWrite_eq_none.mp hcheck
      simp only [ih]
      constructor
      · rintro ⟨hok, hapart⟩
        refine ⟨⟨?_, ?_⟩, ?_⟩
        · intro w hw
          obtain rfl | hw := List.mem_cons.mp hw
          · exact hrange
          · exact hok.inRange w hw
        · refine .cons (fun w hw => hapart write ?_ w hw) hok.apart
          simp
        · intro v hv w hw
          obtain rfl | hw := List.mem_cons.mp hw
          · exact hearlier v hv
          · exact hapart v (List.mem_append_left _ hv) w hw
      · rintro ⟨hok, hapart⟩
        obtain ⟨hhead, htail⟩ := List.pairwise_cons.mp hok.apart
        refine ⟨⟨fun w hw => hok.inRange w (List.mem_cons_of_mem _ hw), htail⟩, ?_⟩
        intro v hv w hw
        obtain hv | hv := List.mem_append.mp hv
        · exact hapart v hv w (List.mem_cons_of_mem _ hw)
        · rw [List.mem_singleton.mp hv]
          exact hhead w hw

def totalBytes (writes : List Write) : Nat := (writes.map (·.data.length)).sum

theorem bytesLeft_startSlots (writes : List Write) : bytesLeft (startSlots writes) = totalBytes writes := by
  simp [bytesLeft, startSlots, totalBytes, Function.comp_def, Slot.left]

theorem ready_startSlots (hok : Acceptable writes) (ring : Ring) (hopen : ring.initialized = true)
    (hout : ring.outstanding = []) (hprepared : ring.prepared = []) :
    Ready writes ring.file (startSlots writes) ring := by
  refine ⟨?_, ?_, .refl .., hopen, hout, hprepared⟩
  · simp [startSlots, Function.comp_def]
  · intro slot hslot
    obtain ⟨w, hw, rfl⟩ := List.mem_map.mp hslot
    exact ⟨(hok.inRange w hw).1, Nat.zero_le _, nofun⟩

/-- The rounds of a batch, with the progress and the queue each starts from. -/
inductive AtRound (kernel : Kernel) (fuel : Nat) (writes : List Write) (ring : Ring) :
    List Slot → Ring → Prop
  | start : AtRound kernel fuel writes ring (startSlots writes) ring
  | next : AtRound kernel fuel writes ring slots ring₁ →
      writeRound kernel fuel slots ring₁ = .ok (.again slots', ring₂) →
      AtRound kernel fuel writes ring slots' ring₂

/-- What a batch leaves when it returns. -/
structure Outcome (writes : List Write) (ring : Ring) (code : Int) (ring' : Ring) : Prop where
  result : code = 0 ∨ code = -1
  complete : code = 0 → ∀ w ∈ writes, 0 ≤ w.offset ∧ w.Held ring'.file
  untouched : Untouched writes ring.file ring'.file
  outstanding : ring'.outstanding = []
  refused : ¬Acceptable writes → code = -1 ∧ ring'.file = ring.file ∧ ring'.calls = ring.calls

def Halts (writes : List Write) (fuel : Nat) (ring : Ring) : Halt → Prop
  | .exit ring' => Untouched writes ring.file ring'.file
  | .fuel ring' => Untouched writes ring.file ring'.file ∧
      fuel + ring.interrupts ≤ ring'.interrupts + totalBytes writes + queueDepth
  | .blocked _ => False

theorem Outcome.unwritten (writes : List Write) (hfile : ring'.file = ring.file)
    (hcalls : ring'.calls = ring.calls) (hout : ring'.outstanding = []) :
    Outcome writes ring (-1) ring' where
  result := .inr rfl
  complete h := by cases h
  untouched := by rw [hfile]; exact .refl ..
  outstanding := hout
  refused _ := ⟨rfl, hfile, hcalls⟩

theorem refuse_outcome (writes : List Write) (ring : Ring) (hout : ring.outstanding = []) (e : Int)
    {E : Halt → Prop} : Triple (refuse e) ring (Outcome writes ring) E :=
  Triple.modify_bind (Triple.pure (.unwritten writes rfl rfl hout))

theorem kvsUringIoWriteBatch_outcome (kernel : Kernel) (fuel : Nat) (writes : List Write) (ring : Ring)
    (hout : ring.outstanding = []) (hprepared : ring.prepared = []) :
    Triple (kvsUringIoWriteBatch kernel fuel writes) ring (Outcome writes ring)
      (Halts writes fuel ring) := by
  refine Triple.get_bind (Triple.ite (fun _ => ?_) fun hargs => Triple.ite (fun hempty => ?_) fun _ => ?_)
  · exact refuse_outcome writes ring hout _
  · obtain rfl : writes = [] := List.length_eq_zero_iff.mp hempty
    exact Triple.pure ⟨.inl rfl, fun _ => by simp, .refl .., hout,
      fun h => absurd ⟨by simp, .nil⟩ h⟩
  obtain ⟨hopen, hcount⟩ : ring.initialized = true ∧ writes.length ≤ queueDepth := by
    simpa using hargs
  cases kernel.append with
  | none => exact Triple.pure (.unwritten writes rfl rfl hout)
  | some append =>
    cases append with
    | true => exact refuse_outcome writes ring hout _
    | false =>
      cases hcheck : checkWrites [] writes with
      | some e => exact refuse_outcome writes ring hout e
      | none =>
        obtain ⟨hok, -⟩ := checkWrites_eq_none.mp hcheck
        have hready := ready_startSlots hok ring hopen hout hprepared
        have hleft := bytesLeft_startSlots writes
        have hlimit : (fuel + ring.interrupts - totalBytes writes - queueDepth : Int) + queueDepth ≤
            ring.interrupts + fuel := by
          omega
        refine (writeLoop_spec fuel fuel hcount hok.apart hready hlimit (by omega)).mono ?_ ?_
        · rintro code ring' ⟨hcode, hended, hheld⟩
          exact ⟨hcode, fun hzero w hw => ⟨(hok.inRange w hw).1, hheld hzero w hw⟩, hended.untouched,
            hended.outstanding, fun hnot => absurd hok hnot⟩
        · intro halt hhalt
          cases halt with
          | exit ring' => exact hhalt
          | fuel ring' => exact ⟨hhalt.1, by have := hhalt.2; omega⟩
          | blocked ring' => exact hhalt.elim

theorem AtRound.ready {ring : Ring} (hok : Acceptable writes) (hcount : writes.length ≤ queueDepth)
    (hopen : ring.initialized = true) (hout : ring.outstanding = []) (hprepared : ring.prepared = [])
    (h : AtRound kernel fuel writes ring slots ring₁) : Ready writes ring.file slots ring₁ := by
  induction h with
  | start => exact ready_startSlots hok ring hopen hout hprepared
  | next _ hround ih =>
    rename_i slots₁ ring₁ slots₂ ring₂ _
    have hlimit : (ring₁.interrupts + fuel - queueDepth : Int) + queueDepth ≤ ring₁.interrupts + fuel := by
      omega
    exact ((writeRound_spec fuel hcount hok.apart ih hlimit).post hround).1

/-- A batch of writes against every kernel. It returns zero only with every byte
of every block at its place; in all cases no byte outside the blocks changes
and nothing is outstanding; overlapping ranges, negative offsets and ranges
past the largest file position are refused before anything is written. A round
that goes on without an interruption has written something, so only endless
interruptions keep the loop running. -/
theorem kvsUringIoWriteBatch_complete (kernel : Kernel) (fuel : Nat) (writes : List Write)
    (ring : Ring) (hout : ring.outstanding = []) (hprepared : ring.prepared = []) :
    Triple (kvsUringIoWriteBatch kernel fuel writes) ring (Outcome writes ring)
        (Halts writes fuel ring) ∧
      (ring.initialized = true → Acceptable writes → writes.length ≤ queueDepth →
        ∀ slots ring₁ slots' ring₂, AtRound kernel fuel writes ring slots ring₁ →
          writeRound kernel fuel slots ring₁ = .ok (.again slots', ring₂) →
          ring₂.interrupts = ring₁.interrupts → bytesLeft slots' < bytesLeft slots) := by
  refine ⟨kvsUringIoWriteBatch_outcome kernel fuel writes ring hout hprepared, ?_⟩
  intro hopen hok hcount slots ring₁ slots' ring₂ hat hround hquiet
  have hready := hat.ready hok hcount hopen hout hprepared
  have hlimit : (ring₁.interrupts + fuel - queueDepth : Int) + queueDepth ≤ ring₁.interrupts + fuel := by
    omega
  obtain ⟨-, -, -, hprogress⟩ := (writeRound_spec fuel hcount hok.apart hready hlimit).post hround
  exact hprogress hquiet

def shortKernel : Kernel where
  full _ := false
  submit _ := 8
  wait _ := 0
  completes _ := (1, 2)
  cancel _ := 0
  append := some false

/-- Two blocks, of which the first needs a second round. -/
theorem kvsUringIoWriteBatch_complete_two : ∃ (writes : List Write) (ring ring₁ ring₂ : Ring)
    (slots : List Slot),
    writes = [⟨[65, 66, 67], 1⟩, ⟨[70, 71], 6⟩] ∧ ring.file = [9] ∧
    kvsUringIoWriteBatch shortKernel 9 writes ring = .ok (0, ring₁) ∧
    ring₁.file = [9, 65, 66, 67, 0, 0, 70, 71] ∧ Outcome writes ring 0 ring₁ ∧
    writeRound shortKernel 9 (startSlots writes) ring = .ok (.again slots, ring₂) ∧
    ring₂.file = [9, 65, 66, 0, 0, 0, 70, 71] ∧ bytesLeft slots < bytesLeft (startSlots writes) := by
  obtain ⟨writes, hwrites⟩ : ∃ writes : List Write, writes = [⟨[65, 66, 67], 1⟩, ⟨[70, 71], 6⟩] := ⟨_, rfl⟩
  obtain ⟨ring, hring⟩ : ∃ ring : Ring, ring = ⟨[9], [], [], true, 0, 0, 0⟩ := ⟨_, rfl⟩
  have hrun : kvsUringIoWriteBatch shortKernel 9 writes ring =
      .ok (0, ⟨[9, 65, 66, 67, 0, 0, 70, 71], [], [], true, 0, 11, 0⟩) := by
    subst hwrites hring
    decide +kernel
  have hround : writeRound shortKernel 9 (startSlots writes) ring =
      .ok (.again [⟨⟨[65, 66, 67], 1⟩, 2, 0⟩, ⟨⟨[70, 71], 6⟩, 2, 0⟩],
        ⟨[9, 65, 66, 0, 0, 0, 70, 71], [], [], true, 0, 7, 0⟩) := by
    subst hwrites hring
    decide +kernel
  have hok : Acceptable writes := by
    subst hwrites
    exact ⟨by decide, by simp [Write.Apart, Write.rangeEnd]⟩
  have hcount : writes.length ≤ queueDepth := by
    subst hwrites
    decide
  have hinterrupts : 0 = ring.interrupts := by rw [hring]
  obtain ⟨houtcome, hprogress⟩ := kvsUringIoWriteBatch_complete shortKernel 9 writes ring
    (by rw [hring]) (by rw [hring])
  exact ⟨writes, ring, _, _, _, hwrites, by rw [hring], hrun, rfl, houtcome.post hrun, hround, rfl,
    hprogress (by rw [hring]) hok hcount _ _ _ _ .start hround hinterrupts⟩

end KvStore.Uring
