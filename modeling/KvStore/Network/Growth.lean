import KvStore.Network.Buffer

/-!
# Buffer growth over `int`

`ensure_buffer_space` once more, with the types of the source: lengths and
capacities are `int`s, signed arithmetic that leaves their range is undefined,
and a block holds the bytes the copy has to keep. `ensureBufferSpace` is what
the rest of the development runs; the last theorem says that it computes the
same capacities.
-/

namespace KvStore.Machine

open Lib

def IsInt (v : Int) : Prop := -(2 ^ 31) ≤ v ∧ v ≤ intMax

instance : Decidable (IsInt v) := inferInstanceAs (Decidable (_ ∧ _))

def checked (v : Int) : Run Int := if IsInt v then pure v else throw .undefined

/-- A byte of memory; a block from `kvs_malloc` holds nothing yet. -/
abbrev Cell := Option UInt8

structure Block where
  ptr : Ptr
  cells : List Cell

structure Buffer where
  data : Option Block
  capacity : Int

def mallocBlock (size : Int) : Run (Option Block) := do
  match ← kvsMalloc with
  | none => return none
  | some ptr => return some ⟨ptr, List.replicate size.toNat none⟩

/-- `memcpy`; both blocks must hold `length` bytes. -/
def memcpy (dst src : List Cell) (length : Nat) : Run (List Cell) :=
  if length ≤ dst.length ∧ length ≤ src.length then pure (src.take length ++ dst.drop length)
  else throw .undefined

def doubled (capacity required : Int) : Run Int :=
  if capacity > (intMax : Int) / 2 then pure required else checked (capacity * 2)

/-- `while (new_capacity < required)`. -/
def growLoop : (fuel : Nat) → (capacity required : Int) → Run Int
  | 0, _, _ => throw .fuel
  | fuel + 1, capacity, required =>
    if capacity < required then do
      growLoop fuel (← doubled capacity required) required
    else pure capacity

def copyUsed (new : Block) (old : Option Block) (length : Int) : Run Block :=
  if length > 0 then
    match old with
    | none => throw .undefined
    | some old => do return { new with cells := ← memcpy new.cells old.cells length.toNat }
  else pure new

def install (buffer : Buffer) (length capacity : Int) : Run (Int × Buffer) := do
  match ← mallocBlock capacity with
  | none => return (-1, buffer)
  | some new =>
    let new ← copyUsed new buffer.data length
    freeBlock (buffer.data.map Block.ptr)
    return (0, ⟨some new, capacity⟩)

/-- `ensure_buffer_space`: the value returned, and the buffer behind the
pointers. -/
def ensureBufferSpace (buffer : Buffer) (length minimumFree : Int) : Run (Int × Buffer) := do
  if minimumFree ≤ 0 ∨ length < 0 ∨ buffer.capacity < 0 ∨ length > buffer.capacity then
    return (-1, buffer)
  else if (buffer.capacity = 0 ∧ buffer.data.isSome) ∨ (buffer.capacity > 0 ∧ buffer.data.isNone) then
    return (-1, buffer)
  else
    let free ← checked (buffer.capacity - length)
    if free ≥ minimumFree then return (0, buffer)
    else
      let most ← checked (intMax - minimumFree)
      if length > most then return (-1, buffer)
      else
        let required ← checked (length + minimumFree)
        -- doubling an `int` of at least one passes the largest within 31 rounds
        let capacity ← growLoop 32
          (if buffer.capacity > 0 then buffer.capacity else bufferLength) required
        install buffer length capacity

/-- What a buffer may be: the block has the stated capacity, and there is no
block exactly while the capacity is zero. -/
structure Buffer.Valid (buffer : Buffer) (length : Int) : Prop where
  nonneg : 0 ≤ length
  fits : length ≤ buffer.capacity
  int : buffer.capacity ≤ intMax
  unallocated : buffer.data = none ↔ buffer.capacity = 0
  cells : ∀ block, buffer.data = some block → (block.cells.length : Int) = buffer.capacity

def Buffer.used (buffer : Buffer) (length : Int) : List Cell :=
  match buffer.data with
  | none => []
  | some block => block.cells.take length.toNat

-- ---------------------------------------------------------------------------
-- The doubling loop
-- ---------------------------------------------------------------------------

theorem checked_ok (h : IsInt v) : checked v = pure v := if_pos h

section
variable {capacity required : Int}

theorem doubled_spec (hcap : 1 ≤ capacity) (hlt : capacity < required) (hreq : required ≤ intMax) :
    ∃ next, doubled capacity required = pure next ∧ capacity ≤ next ∧ next ≤ intMax ∧
      (next = required ∨ next = capacity * 2) := by
  unfold doubled
  split
  · exact ⟨required, rfl, by omega, hreq, .inl rfl⟩
  · refine ⟨capacity * 2, checked_ok ?_, by omega, by omega, .inr rfl⟩
    unfold IsInt
    omega

theorem growLoop_spec (fuel : Nat) (hcap : 1 ≤ capacity) (hint : capacity ≤ intMax)
    (hreq : required ≤ intMax) (hfuel : required ≤ capacity * 2 ^ fuel) :
    ∃ grown, growLoop (fuel + 1) capacity required = pure grown ∧ capacity ≤ grown ∧
      required ≤ grown ∧ grown ≤ intMax := by
  induction fuel generalizing capacity with
  | zero =>
    rw [Int.pow_zero, Int.mul_one] at hfuel
    exact ⟨capacity, if_neg (by omega), Int.le_refl _, hfuel, hint⟩
  | succ fuel ih =>
    rw [growLoop]
    by_cases hlt : capacity < required
    · obtain ⟨next, hnext, hle, hmax, hstep⟩ := doubled_spec hcap hlt hreq
      have hleft : required ≤ next * 2 ^ fuel := by
        obtain rfl | rfl := hstep
        · have hpow : (1 : Int) ≤ 2 ^ fuel := Int.pow_pos (by decide)
          have h := Int.mul_le_mul_of_nonneg_left hpow (show 0 ≤ next by omega)
          rwa [Int.mul_one] at h
        · rw [Int.mul_assoc, ← Int.pow_succ']
          exact hfuel
      obtain ⟨grown, hgrown, h1, h2, h3⟩ := ih (by omega) hmax hleft
      refine ⟨grown, ?_, by omega, h2, h3⟩
      rw [if_pos hlt, hnext]
      exact hgrown
    · exact ⟨capacity, if_neg hlt, Int.le_refl _, by omega, hint⟩

end

-- ---------------------------------------------------------------------------
-- The new block
-- ---------------------------------------------------------------------------

theorem mallocBlock_spec (size : Int) (rt : Runtime) :
    Triple (mallocBlock size) rt (fun r rt' => rt.Extends rt' ∧
      (rt.mallocFails rt.mallocs = true ∧ r = none ∧ rt'.live = rt.live ∨
        rt.mallocFails rt.mallocs = false ∧
          ∃ ptr, r = some ⟨ptr, List.replicate size.toNat none⟩)) Never := by
  unfold mallocBlock
  by_cases h : rt.mallocFails rt.mallocs = true
  · refine Triple.bind (P := fun r rt' => r = none ∧ rt.Extends rt' ∧ rt'.live = rt.live)
      (Triple.of_run (if_pos h) ⟨rfl, ⟨rfl, rfl, Nat.le_succ _⟩, rfl⟩) fun r rt' hr => ?_
    obtain ⟨rfl, hext, hlive⟩ := hr
    exact Triple.pure ⟨hext, .inl ⟨h, rfl, hlive⟩⟩
  · refine Triple.bind (P := fun r rt' => (∃ ptr, r = some ptr) ∧ rt.Extends rt')
      (Triple.of_run (if_neg h) ⟨⟨_, rfl⟩, rfl, rfl, Nat.le_succ _⟩) fun r rt' hr => ?_
    obtain ⟨⟨ptr, rfl⟩, hext⟩ := hr
    exact Triple.pure ⟨hext, .inr ⟨by simpa using h, ptr, rfl⟩⟩

theorem copyUsed_spec {buffer : Buffer} (hvalid : buffer.Valid length) (new : Block)
    (hnew : length.toNat ≤ new.cells.length) :
    ∃ block, copyUsed new buffer.data length = pure block ∧ block.ptr = new.ptr ∧
      block.cells.length = new.cells.length ∧
      block.cells.take length.toNat = buffer.used length := by
  by_cases hpos : length > 0
  · -- bytes in use lie in a block, which holds all of them
    have hcap := hvalid.fits
    cases hdata : buffer.data with
    | none =>
      have := hvalid.unallocated.mp hdata
      omega
    | some old =>
      have hold : length.toNat ≤ old.cells.length := by
        have := hvalid.cells old hdata
        omega
      refine ⟨{ new with cells := old.cells.take length.toNat ++ new.cells.drop length.toNat },
        ?_, rfl, ?_, ?_⟩
      · simp only [copyUsed, if_pos hpos, memcpy, if_pos (And.intro hnew hold)]
        rfl
      · simp only [List.length_append, List.length_take, List.length_drop]
        omega
      · simp [Buffer.used, hdata, Nat.min_eq_left hold]
  · have hzero : length.toNat = 0 := by omega
    refine ⟨new, if_neg hpos, rfl, rfl, ?_⟩
    rw [Buffer.used, hzero]
    cases buffer.data <;> rfl

/-- What a call of `ensure_buffer_space` on a valid buffer leaves. -/
structure Ensured (buffer : Buffer) (length minimumFree : Int) (r : Int × Buffer) : Prop where
  code : r.1 = 0 ∨ r.1 = -1
  valid : r.1 = 0 → r.2.Valid length
  room : r.1 = 0 → minimumFree ≤ r.2.capacity - length
  kept : r.1 = 0 → r.2.used length = buffer.used length
  grows : r.1 = 0 → buffer.capacity ≤ r.2.capacity
  unchanged : r.1 = -1 → r.2 = buffer

theorem Ensured.refused (buffer : Buffer) : Ensured buffer length minimumFree (-1, buffer) where
  code := .inr rfl
  valid h := by simp at h
  room h := by simp at h
  kept h := by simp at h
  grows h := by simp at h
  unchanged _ := rfl

theorem install_spec {buffer : Buffer} (hvalid : buffer.Valid length) (hle : buffer.capacity ≤ capacity)
    (hroom : length + minimumFree ≤ capacity) (hpos : 0 < capacity) (hint : capacity ≤ intMax) :
    Triple (install buffer length capacity) rt (fun r rt' => rt.Extends rt' ∧
      Ensured buffer length minimumFree r ∧ (r.1 = -1 → rt'.live = rt.live) ∧
      (r.1 = -1 ↔ rt.mallocFails rt.mallocs = true)) Never := by
  have hfits := hvalid.fits
  refine (mallocBlock_spec capacity rt).bind fun r rt₁ h => ?_
  obtain ⟨hext, ⟨hfails, rfl, hlive⟩ | ⟨hfails, ptr, rfl⟩⟩ := h
  · exact Triple.pure ⟨hext, .refused buffer, fun _ => hlive, by simp [hfails]⟩
  obtain ⟨block, hcopy, -, hlen, htake⟩ := copyUsed_spec hvalid
    ⟨ptr, List.replicate capacity.toNat none⟩ (by simp only [List.length_replicate]; omega)
  simp only [hcopy, pure_bind]
  refine (freeBlock_spec _ rt₁).bind fun _ rt₂ hfreed => ?_
  refine Triple.pure ⟨hext.trans hfreed.1, ?_, by simp, by simp [hfails]⟩
  have hcells : (block.cells.length : Int) = capacity := by
    rw [hlen, List.length_replicate]
    omega
  constructor
  · exact .inl rfl
  · intro _
    exact {
      nonneg := hvalid.nonneg
      fits := Int.le_trans hfits hle
      int := hint
      unallocated := by simp; omega
      cells := by
        intro other h
        cases h
        exact hcells }
  · intro _
    simp only
    omega
  · intro _
    exact htake
  · intro _
    exact hle
  · intro h
    simp at h

theorem start_spec {buffer : Buffer} (hvalid : buffer.Valid length) :
    let start : Int := if buffer.capacity > 0 then buffer.capacity else bufferLength
    1 ≤ start ∧ start ≤ intMax ∧ buffer.capacity ≤ start := by
  have hfits := hvalid.fits
  have hnonneg := hvalid.nonneg
  have hint := hvalid.int
  simp only
  split
  · exact ⟨by omega, hint, Int.le_refl _⟩
  · exact ⟨by decide, by decide, by simp only [bufferLength]; omega⟩

/-- Growth is safe at the limits of `int`: for every buffer and every
`minimum_free` the call ends without undefined behaviour; on success the room
is there, the bytes in use are the same and the capacity did not shrink, on
failure nothing changed. It fails exactly for a bad argument, for a length no
`int` can hold and when there is no memory. -/
theorem ensureBufferSpace_safe {buffer : Buffer} (hvalid : buffer.Valid length)
    (hfree : IsInt minimumFree) (rt : Runtime) :
    Triple (ensureBufferSpace buffer length minimumFree) rt (fun r rt' => rt.Extends rt' ∧
      Ensured buffer length minimumFree r ∧ (r.1 = -1 → rt'.live = rt.live) ∧
      (r.1 = -1 ↔ minimumFree ≤ 0 ∨ intMax < length + minimumFree ∨
        buffer.capacity - length < minimumFree ∧ rt.mallocFails rt.mallocs = true)) Never := by
  have hnonneg := hvalid.nonneg
  have hfits := hvalid.fits
  have hint := hvalid.int
  unfold IsInt at hfree
  unfold ensureBufferSpace
  refine Triple.ite ?_ ?_
  · intro hbad
    exact Triple.pure ⟨.refl rt, .refused buffer, fun _ => rfl, by simp; omega⟩
  intro hargs
  refine Triple.ite ?_ ?_
  · -- a valid buffer has a block exactly when it has a capacity
    rintro (⟨hzero, hsome⟩ | ⟨hpos, hnone⟩)
    · rw [hvalid.unallocated.mpr hzero] at hsome
      simp at hsome
    · have := hvalid.unallocated.mp (Option.isNone_iff_eq_none.mp hnone)
      omega
  intro _
  rw [checked_ok (by unfold IsInt; omega), pure_bind]
  refine Triple.ite ?_ ?_
  · intro hroom
    refine Triple.pure ⟨.refl rt, ?_, fun _ => rfl, by simp; omega⟩
    exact {
      code := .inl rfl
      valid := fun _ => hvalid
      room := fun _ => hroom
      kept := fun _ => rfl
      grows := fun _ => Int.le_refl _
      unchanged := fun _ => rfl }
  intro hfull
  rw [checked_ok (by unfold IsInt; omega), pure_bind]
  refine Triple.ite ?_ ?_
  · intro hlong
    exact Triple.pure ⟨.refl rt, .refused buffer, fun _ => rfl, by simp; omega⟩
  intro hshort
  rw [checked_ok (by unfold IsInt; omega), pure_bind]
  obtain ⟨hone, hmax, hstart⟩ := start_spec hvalid
  obtain ⟨grown, hgrown, h1, h2, h3⟩ := growLoop_spec 31 hone hmax
    (show length + minimumFree ≤ intMax by omega) (by simp only [intMax] at hshort; omega)
  rw [hgrown, pure_bind]
  refine (install_spec hvalid (by omega) h2 (by omega) h3).weaken fun r rt' h => ?_
  obtain ⟨hext, hensured, hlive, hcode⟩ := h
  refine ⟨hext, hensured, hlive, hcode.trans ?_⟩
  constructor
  · intro h
    exact .inr (.inr ⟨by omega, h⟩)
  · rintro (h | h | h)
    · omega
    · omega
    · exact h.2

def Buffer.partFilled : Buffer := ⟨some ⟨1, [some 97, some 98, none]⟩, 3⟩

theorem Buffer.partFilled_valid : Buffer.partFilled.Valid 2 where
  nonneg := by decide
  fits := by decide
  int := by decide
  unallocated := by decide
  cells := by
    rintro block ⟨⟩
    rfl

/-- From three bytes to six, and to twelve; without memory nothing changes. -/
theorem ensureBufferSpace_safe_partFilled : ∃ (rt rt' : Runtime) (buffer : Buffer),
    rt.live = [1] ∧ ensureBufferSpace Buffer.partFilled 2 5 rt = .ok ((0, buffer), rt') ∧ rt'.live = [2] ∧
      buffer.capacity = 12 ∧ buffer.used 2 = [some 97, some 98] ∧
      Ensured Buffer.partFilled 2 5 (0, buffer) ∧ ∃ rt₀ rt₁ : Runtime, rt₀.live = [1] ∧
        ensureBufferSpace Buffer.partFilled 2 5 rt₀ = .ok ((-1, Buffer.partFilled), rt₁) ∧
        rt₁.live = [1] := by
  let rt (fails : Bool) : Runtime := ⟨fun _ => fails, 1, [1], 0, fun _ => false, 0⟩
  have hgrows : ensureBufferSpace Buffer.partFilled 2 5 (rt false) =
      .ok ((0, ⟨some ⟨2, [some 97, some 98] ++ List.replicate 10 none⟩, 12⟩),
        ⟨fun _ => false, 2, [2], 0, fun _ => false, 0⟩) := rfl
  have hsafe := fun fails => ensureBufferSpace_safe Buffer.partFilled_valid (show IsInt 5 by decide) (rt fails)
  obtain ⟨⟨code, buffer⟩, rt₁, hfails, -, hensured, hlive, hcode⟩ := (hsafe true).run
  have hrefused : code = -1 := hcode.mpr (.inr (.inr ⟨by decide, rfl⟩))
  subst hrefused
  obtain rfl : buffer = Buffer.partFilled := hensured.unchanged rfl
  exact ⟨rt false, _, _, rfl, hgrows, rfl, rfl, rfl, ((hsafe false).post hgrows).2.1, rt true, rt₁, rfl,
    hfails, hlive rfl⟩

-- ---------------------------------------------------------------------------
-- The model over naturals
-- ---------------------------------------------------------------------------

def Buffer.storage (buffer : Buffer) : Storage :=
  ⟨buffer.data.map Block.ptr, buffer.capacity.toNat⟩

theorem growLoop_eq (fuel rounds : Nat) {capacity required : Nat} (hcap : 1 ≤ capacity)
    (hfuel : required ≤ capacity * 2 ^ fuel) (hrounds : required ≤ capacity + rounds) :
    growLoop (fuel + 1) capacity required = pure (growCapacity rounds capacity required : Int) := by
  induction fuel generalizing capacity rounds with
  | zero =>
    rw [Nat.pow_zero, Nat.mul_one] at hfuel
    rw [growLoop, if_neg (by omega)]
    cases rounds with
    | zero => rfl
    | succ rounds => rw [growCapacity, if_neg (by omega)]
  | succ fuel ih =>
    rw [growLoop]
    by_cases hlt : capacity < required
    · cases rounds with
      | zero => omega
      | succ rounds =>
        rw [growCapacity, if_pos hlt, if_pos (by omega), doubled]
        by_cases hhalf : capacity > intMax / 2
        · rw [if_pos hhalf, if_pos (by omega), pure_bind]
          exact ih rounds (by omega) (Nat.le_mul_of_pos_right _ (Nat.two_pow_pos fuel)) (by omega)
        · rw [if_neg hhalf, if_neg (by omega), checked_ok (by unfold IsInt; omega), pure_bind]
          have hleft : required ≤ capacity * 2 * 2 ^ fuel := by
            rw [Nat.mul_assoc, ← Nat.pow_succ']
            exact hfuel
          exact ih rounds (show 1 ≤ capacity * 2 by omega) hleft
            (show required ≤ capacity * 2 + rounds by omega)
    · rw [if_neg (by omega)]
      cases rounds with
      | zero => rfl
      | succ rounds => rw [growCapacity, if_neg hlt]

/-- Both models end in the same environment, this one's storage being the
other's result. -/
def Refines (m : Run (Int × Buffer)) (m' : Run (Option Storage)) (rt : Runtime) : Prop :=
  ∃ r rt', m rt = .ok (r, rt') ∧ m' rt = .ok (if r.1 = 0 then some r.2.storage else none, rt')

theorem install_refines {buffer : Buffer} {length capacity : Nat} (hvalid : buffer.Valid length)
    (hle : length ≤ capacity) (rt : Runtime) :
    Refines (install buffer length capacity)
      (do match ← kvsMalloc with
          | none => return none
          | some block =>
            freeBlock buffer.storage.block
            return some ⟨some block, capacity⟩) rt := by
  by_cases h : rt.mallocFails rt.mallocs = true
  · have hmalloc : kvsMalloc rt = .ok (none, { rt with mallocs := rt.mallocs + 1 }) := if_pos h
    refine ⟨(-1, buffer), { rt with mallocs := rt.mallocs + 1 }, ?_, ?_⟩
    · simp only [install, mallocBlock, bind, StateT.bind, Except.bind, hmalloc]
      rfl
    · simp only [bind, StateT.bind, Except.bind, hmalloc]
      rfl
  · obtain ⟨block, hcopy, hptr, -, -⟩ := copyUsed_spec hvalid
      ⟨rt.mallocs + 1, List.replicate (capacity : Int).toNat none⟩
      (by simp only [List.length_replicate]; omega)
    obtain ⟨_, rt', hfreed, -⟩ := (freeBlock_spec (buffer.data.map Block.ptr)
      { rt with mallocs := rt.mallocs + 1, live := (rt.mallocs + 1) :: rt.live }).run
    have hmalloc : kvsMalloc rt = .ok (some (rt.mallocs + 1),
      { rt with mallocs := rt.mallocs + 1, live := (rt.mallocs + 1) :: rt.live }) := if_neg h
    have hpure : ∀ {α : Type} (x : α) (rt : Runtime), (pure x : Run α) rt = .ok (x, rt) :=
      fun _ _ => rfl
    refine ⟨(0, ⟨some block, capacity⟩), rt', ?_, ?_⟩
    · simp only [install, mallocBlock, bind, StateT.bind, Except.bind, hpure, hmalloc, hcopy, hfreed]
    · simp only [bind, StateT.bind, Except.bind, hmalloc, Buffer.storage, hfreed, if_true,
        Option.map_some, hptr]
      rfl

/-- The model over naturals returns the storage this one leaves, from the same
requests for memory. -/
theorem ensureBufferSpace_refines {buffer : Buffer} {length minimumFree : Nat}
    (hvalid : buffer.Valid length) (hfree : minimumFree ≤ intMax) (rt : Runtime) :
    Refines (ensureBufferSpace buffer length minimumFree)
      (KvStore.ensureBufferSpace buffer.storage length minimumFree) rt := by
  have hfits := hvalid.fits
  have hint := hvalid.int
  have hcap : (buffer.storage.capacity : Int) = buffer.capacity := by
    simp only [Buffer.storage]
    omega
  unfold ensureBufferSpace KvStore.ensureBufferSpace
  by_cases hbad : minimumFree = 0
  · rw [if_pos (.inl (by omega)), if_pos (.inl hbad)]
    exact ⟨_, rt, rfl, rfl⟩
  rw [if_neg (by omega),
    if_neg (show ¬(minimumFree = 0 ∨ length > buffer.storage.capacity) by omega)]
  have hdata : ¬((buffer.capacity = 0 ∧ buffer.data.isSome = true) ∨
      (buffer.capacity > 0 ∧ buffer.data.isNone = true)) := by
    rintro (⟨hzero, hsome⟩ | ⟨hpos, hnone⟩)
    · rw [hvalid.unallocated.mpr hzero] at hsome
      simp at hsome
    · have := hvalid.unallocated.mp (Option.isNone_iff_eq_none.mp hnone)
      omega
  rw [if_neg hdata, checked_ok (by unfold IsInt; omega), pure_bind]
  by_cases hroom : buffer.storage.capacity - length ≥ minimumFree
  · rw [if_pos (by omega), if_pos hroom]
    exact ⟨_, rt, rfl, rfl⟩
  rw [if_neg (by omega), if_neg hroom, checked_ok (by unfold IsInt; omega), pure_bind]
  by_cases hlong : length > intMax - minimumFree
  · rw [if_pos (by omega), if_pos hlong]
    exact ⟨_, rt, rfl, rfl⟩
  rw [if_neg (by omega), if_neg hlong, checked_ok (by unfold IsInt; omega), pure_bind]
  have hstart : (if buffer.capacity > 0 then buffer.capacity else (bufferLength : Int)) =
      ((if buffer.storage.capacity > 0 then buffer.storage.capacity else bufferLength : Nat) : Int) := by
    split <;> split <;> omega
  obtain ⟨hone, hmax, hle⟩ := start_spec hvalid
  simp only [hstart] at hone hmax hle ⊢
  rw [← Int.natCast_add, growLoop_eq 31 (length + minimumFree) (by omega)
    (by simp only [intMax] at hlong hfree; omega) (by omega), pure_bind]
  obtain ⟨hgrown, -, -⟩ := growCapacity_spec (length + minimumFree)
    (if buffer.storage.capacity > 0 then buffer.storage.capacity else bufferLength)
    (by omega) (by omega) (show length + minimumFree ≤ intMax by omega) (by omega)
  exact install_refines hvalid (by omega) rt

end KvStore.Machine
