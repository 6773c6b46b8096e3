import KvStore.Lib.Program
import KvStore.Protocol.Codec

/-!
# The run-time environment of the engines

What the engines take from outside: memory through `kvs_malloc` and
`kvs_free`, and `rand()`. Whether the `n`-th request for memory fails and what
the `n`-th comparison of `rand()` says are given in advance by two sequences,
so a statement over all environments covers every pattern of failures and
every choice of levels. A block gets an address that was never used before;
freed addresses are not handed out again, which no engine can observe.
-/

namespace KvStore

open Lib

/-- The address of an allocated block; `0` is `NULL` and is never handed out. -/
abbrev Ptr := Nat

structure Runtime where
  /-- Whether the `n`-th call of `kvs_malloc` returns `NULL`. -/
  mallocFails : Nat → Bool
  mallocs : Nat
  /-- The blocks handed out and not yet freed. -/
  live : List Ptr
  /-- Calls of `kvs_free` with an address that is not live. -/
  invalidFrees : Nat
  /-- Whether the `n`-th `rand()` is below `RAND_MAX / 2`. -/
  coin : Nat → Bool
  coins : Nat

/-- Why a run ends without a result: undefined behaviour, a loop that passed
its bound, or `exit`. -/
inductive Stop
  | undefined
  | fuel
  | exit
  deriving DecidableEq, Repr

abbrev Run (α : Type) := Program Runtime Stop α

def Runtime.start (mallocFails coin : Nat → Bool) : Runtime :=
  { mallocFails, mallocs := 0, live := [], invalidFrees := 0, coin, coins := 0 }

def kvsMalloc : Run (Option Ptr) := fun rt =>
  if rt.mallocFails rt.mallocs then .ok (none, { rt with mallocs := rt.mallocs + 1 })
  else
    let p := rt.mallocs + 1
    .ok (some p, { rt with mallocs := p, live := p :: rt.live })

def kvsFree (p : Ptr) : Run Unit := fun rt =>
  if p ∈ rt.live then .ok ((), { rt with live := rt.live.erase p })
  else .ok ((), { rt with invalidFrees := rt.invalidFrees + 1 })

/-- `kvs_free` of a block that may not exist yet. -/
def freeBlock : Option Ptr → Run Unit
  | none => pure ()
  | some block => kvsFree block

/-- `rand() < RAND_MAX / 2`. -/
def randBelowHalf : Run Bool := fun rt =>
  .ok (rt.coin rt.coins, { rt with coins := rt.coins + 1 })

/-- A `NUL`-terminated string in a block of its own. -/
structure CString where
  ptr : Ptr
  bytes : Bytes

/-- `kvs_malloc(strlen(s) + 1)` and the copy into it. -/
def copyString (s : Bytes) : Run (Option CString) := do
  match ← kvsMalloc with
  | none => pure none
  | some p => pure (some ⟨p, s⟩)

/-- `kvs_free` of a string that may be `NULL`. -/
def freeString : Option CString → Run Unit
  | none => pure ()
  | some s => kvsFree s.ptr

/-- `strcmp`: the first difference decides, bytes being compared unsigned, and
the shorter string ends with the smaller `NUL`. -/
def strcmp : Bytes → Bytes → Int
  | [], [] => 0
  | [], _ :: _ => -1
  | _ :: _, [] => 1
  | a :: as, b :: bs => if a = b then strcmp as bs else if a < b then -1 else 1

def ofExcept (e : Except Stop α) : Run α := fun rt => e.map (·, rt)

/-- The number of blocks ever requested bounds the nodes of every linked
structure, and so the rounds of every loop over one. -/
def loopFuel : Run Nat := fun rt => .ok (rt.mallocs + 2, rt)

-- ---------------------------------------------------------------------------
-- The environment grows
-- ---------------------------------------------------------------------------

/-- `rt'` is a later state of the environment `rt`. -/
structure Runtime.Extends (rt rt' : Runtime) : Prop where
  mallocFails : rt'.mallocFails = rt.mallocFails
  coin : rt'.coin = rt.coin
  mallocs : rt.mallocs ≤ rt'.mallocs

/-- Some request for memory may fail. -/
def Runtime.CanFail (rt : Runtime) : Prop := ∃ n, rt.mallocFails n = true

theorem Runtime.not_canFail_start (coin : Nat → Bool) :
    ¬(Runtime.start (fun _ => false) coin).CanFail := by
  rintro ⟨n, hn⟩
  cases hn

namespace Runtime.Extends

@[refl] theorem refl (rt : Runtime) : rt.Extends rt := ⟨rfl, rfl, Nat.le_refl _⟩

theorem trans (h : Runtime.Extends rt rt') (h' : rt'.Extends rt'') : rt.Extends rt'' :=
  ⟨h'.1.trans h.1, h'.2.trans h.2, Nat.le_trans h.3 h'.3⟩

theorem canFail (h : Runtime.Extends rt rt') (hf : rt'.CanFail) : rt.CanFail := by
  obtain ⟨n, hn⟩ := hf
  exact ⟨n, by rw [← h.mallocFails]; exact hn⟩

end Runtime.Extends

@[simp] theorem ofExcept_ok (a : α) : ofExcept (.ok a) = (pure a : Run α) := rfl

theorem loopFuel_bind {f : Nat → Run β} {Q : β → Runtime → Prop} {E : Stop → Prop}
    (h : Triple (f (rt.mallocs + 2)) rt Q E) : Triple (loopFuel >>= f) rt Q E := h

theorem kvsMalloc_spec (rt : Runtime) :
    Triple kvsMalloc rt (fun r rt' => rt.Extends rt' ∧
      (r = none ∧ rt.CanFail ∨ r = some rt'.mallocs ∧ rt.mallocs < rt'.mallocs)) Never := by
  by_cases h : rt.mallocFails rt.mallocs = true
  · exact Triple.of_run (if_pos h) ⟨⟨rfl, rfl, Nat.le_succ _⟩, .inl ⟨rfl, _, h⟩⟩
  · exact Triple.of_run (if_neg h) ⟨⟨rfl, rfl, Nat.le_succ _⟩, .inr ⟨rfl, Nat.lt_succ_self _⟩⟩

theorem kvsFree_spec (p : Ptr) (rt : Runtime) :
    Triple (kvsFree p) rt (fun _ rt' => rt.Extends rt' ∧ rt'.mallocs = rt.mallocs) Never := by
  by_cases h : p ∈ rt.live
  · exact Triple.of_run (if_pos h) ⟨⟨rfl, rfl, Nat.le_refl _⟩, rfl⟩
  · exact Triple.of_run (if_neg h) ⟨⟨rfl, rfl, Nat.le_refl _⟩, rfl⟩

theorem freeBlock_spec (block : Option Ptr) (rt : Runtime) :
    Triple (freeBlock block) rt (fun _ rt' => rt.Extends rt' ∧ rt'.mallocs = rt.mallocs) Never := by
  cases block with
  | none => exact ⟨.refl rt, rfl⟩
  | some block => exact kvsFree_spec block rt

theorem randBelowHalf_spec (rt : Runtime) :
    Triple randBelowHalf rt (fun _ rt' => rt.Extends rt' ∧ rt'.mallocs = rt.mallocs) Never :=
  ⟨⟨rfl, rfl, Nat.le_refl _⟩, rfl⟩

theorem copyString_spec (s : Bytes) (rt : Runtime) :
    Triple (copyString s) rt (fun r rt' => rt.Extends rt' ∧
      (r = none ∧ rt.CanFail ∨
        ∃ c, r = some c ∧ c.bytes = s ∧ c.ptr = rt'.mallocs ∧ rt.mallocs < rt'.mallocs))
      Never := by
  refine (kvsMalloc_spec rt).bind fun r rt' h => ?_
  obtain ⟨hext, ⟨rfl, hfail⟩ | ⟨rfl, hlt⟩⟩ := h
  · exact ⟨hext, .inl ⟨rfl, hfail⟩⟩
  · exact ⟨hext, .inr ⟨_, rfl, rfl, rfl, hlt⟩⟩

theorem freeString_spec (s : Option CString) (rt : Runtime) :
    Triple (freeString s) rt (fun _ rt' => rt.Extends rt' ∧ rt'.mallocs = rt.mallocs) Never := by
  cases s with
  | none => exact ⟨.refl rt, rfl⟩
  | some s => exact kvsFree_spec s.ptr rt

-- ---------------------------------------------------------------------------
-- Programs that only take memory
-- ---------------------------------------------------------------------------

/-- From `rt` on, the program ends and at most takes memory or gives it back. -/
def OnlyMemory (m : Run α) (rt : Runtime) : Prop :=
  ∀ rt₁, rt.Extends rt₁ → Triple m rt₁ (fun _ rt₂ => rt₁.Extends rt₂) Never

namespace OnlyMemory

theorem pure (a : α) : OnlyMemory (Pure.pure a : Run α) rt := fun rt₁ _ => Triple.pure (.refl rt₁)

theorem bind {m : Run α} {f : α → Run β} (hm : OnlyMemory m rt) (hf : ∀ a, OnlyMemory (f a) rt) :
    OnlyMemory (m >>= f) rt := by
  intro rt₁ hext
  refine (hm rt₁ hext).bind fun a rt₂ h₂ => ?_
  exact (hf a rt₂ (hext.trans h₂)).weaken fun _ rt₃ h₃ => h₂.trans h₃

theorem ite {c : Prop} [Decidable c] {m n : Run α} (hm : OnlyMemory m rt) (hn : OnlyMemory n rt) :
    OnlyMemory (if c then m else n) rt := by
  split
  · exact hm
  · exact hn

theorem malloc : OnlyMemory kvsMalloc rt := fun rt₁ _ => (kvsMalloc_spec rt₁).weaken fun _ _ h => h.1

theorem free (p : Ptr) : OnlyMemory (kvsFree p) rt :=
  fun rt₁ _ => (kvsFree_spec p rt₁).weaken fun _ _ h => h.1

end OnlyMemory

-- ---------------------------------------------------------------------------
-- String comparison
-- ---------------------------------------------------------------------------

theorem strcmp_eq_zero {a b : Bytes} : strcmp a b = 0 ↔ a = b := by
  induction a generalizing b with
  | nil => cases b <;> simp [strcmp]
  | cons x a ih =>
    cases b with
    | nil => simp [strcmp]
    | cons y b =>
      simp only [strcmp]
      split
      · rename_i h
        simp [h, ih]
      · rename_i h
        split <;> simp [h]

theorem strcmp_swap (a b : Bytes) : strcmp b a = -strcmp a b := by
  induction a generalizing b with
  | nil => cases b <;> simp [strcmp]
  | cons x a ih =>
    cases b with
    | nil => simp [strcmp]
    | cons y b =>
      simp only [strcmp]
      by_cases h : x = y
      · rw [if_pos h, if_pos h.symm, ih]
      · rw [if_neg h, if_neg (Ne.symm h)]
        have : x < y ↔ ¬y < x := by
          simp only [UInt8.lt_iff_toNat_lt, UInt8.toNat_inj.symm] at h ⊢
          omega
        by_cases hlt : x < y
        · simp [this.mp, hlt]
        · have hgt : y < x := by
            simp only [UInt8.lt_iff_toNat_lt, UInt8.toNat_inj.symm] at h hlt ⊢
            omega
          simp [hlt, hgt]

theorem strcmp_trans {a b c : Bytes} (hab : strcmp a b < 0) (hbc : strcmp b c < 0) :
    strcmp a c < 0 := by
  induction a generalizing b c with
  | nil =>
    cases c with
    | nil => cases b <;> simp [strcmp] at hab hbc
    | cons z c => simp [strcmp]
  | cons x a ih =>
    cases b with
    | nil => simp [strcmp] at hab
    | cons y b =>
      cases c with
      | nil => simp [strcmp] at hbc
      | cons z c =>
        simp only [strcmp] at hab hbc ⊢
        split at hab
        · subst x
          split at hbc
          · subst y
            rw [if_pos rfl]
            exact ih hab hbc
          · rename_i h
            rw [if_neg h]
            exact hbc
        · rename_i hxy
          have hlt : x < y := by
            by_cases h : x < y
            · exact h
            · simp [h] at hab
          have hxz : x < z := by
            split at hbc
            · rename_i h
              rw [← h]
              exact hlt
            · by_cases h : y < z
              · exact UInt8.lt_trans hlt h
              · simp [h] at hbc
          rw [if_neg (UInt8.ne_of_lt hxz), if_pos hxz]
          decide

theorem strcmp_trichotomy (a b : Bytes) : strcmp a b < 0 ∨ a = b ∨ strcmp b a < 0 := by
  rw [strcmp_swap a b, ← strcmp_eq_zero]
  omega

end KvStore
