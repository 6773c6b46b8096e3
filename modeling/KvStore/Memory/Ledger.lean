import KvStore.Memory.Runtime
import Mathlib.Data.List.Perm.Subperm

/-!
# Who owns which block

`Ledger rt blocks`: the live blocks are exactly those of the list, each once,
and no call of `kvs_free` had an address that was not live. The laws of the
allocator say how one call changes the list; a program that keeps its own
account of the list can then neither lose a block nor free one twice.
-/

namespace KvStore

open Lib

structure Runtime.Ledger (rt : Runtime) (blocks : List Ptr) : Prop where
  live : rt.live.Perm blocks
  nodup : blocks.Nodup
  old : ∀ p ∈ blocks, 1 ≤ p ∧ p ≤ rt.mallocs
  valid : rt.invalidFrees = 0

section
variable {rt : Runtime} {blocks blocks' : List Ptr} {p : Ptr}

theorem Runtime.Ledger.perm (h : rt.Ledger blocks) (hp : blocks.Perm blocks') : rt.Ledger blocks' :=
  ⟨h.live.trans hp, hp.nodup_iff.mp h.nodup, fun p hmem => h.old p (hp.mem_iff.mpr hmem), h.valid⟩

theorem ledger_start (mallocFails coin : Nat → Bool) :
    (Runtime.start mallocFails coin).Ledger [] :=
  ⟨.nil, .nil, by simp, rfl⟩

theorem kvsMalloc_ledger (h : rt.Ledger blocks) :
    Triple kvsMalloc rt (fun r rt' => rt.Extends rt' ∧
      (r = none ∧ rt'.Ledger blocks ∨
        ∃ p, r = some p ∧ rt.mallocs < p ∧ p ≤ rt'.mallocs ∧ rt'.Ledger (p :: blocks))) Never := by
  by_cases hfail : rt.mallocFails rt.mallocs = true
  · refine Triple.of_run (if_pos hfail) ⟨⟨rfl, rfl, Nat.le_succ _⟩, .inl ⟨rfl, ?_⟩⟩
    exact ⟨h.live, h.nodup, fun p hp => ⟨(h.old p hp).1, Nat.le_succ_of_le (h.old p hp).2⟩, h.valid⟩
  · refine Triple.of_run (if_neg hfail) ⟨⟨rfl, rfl, Nat.le_succ _⟩,
      .inr ⟨_, rfl, Nat.lt_succ_self _, Nat.le_refl _, ?_⟩⟩
    refine ⟨h.live.cons _, List.nodup_cons.mpr ⟨fun hmem => ?_, h.nodup⟩, ?_, h.valid⟩
    · exact absurd (h.old _ hmem).2 (Nat.not_succ_le_self _)
    · simpa using fun p hp => ⟨(h.old p hp).1, Nat.le_succ_of_le (h.old p hp).2⟩

theorem kvsFree_ledger (h : rt.Ledger (p :: blocks)) :
    Triple (kvsFree p) rt (fun _ rt' => rt.Extends rt' ∧ rt'.Ledger blocks) Never := by
  have hmem : p ∈ rt.live := h.live.mem_iff.mpr (by simp)
  refine Triple.of_run (if_pos hmem) ⟨⟨rfl, rfl, Nat.le_refl _⟩, ?_⟩
  have herase := h.live.erase p
  rw [List.erase_cons_head] at herase
  exact ⟨herase, (List.nodup_cons.mp h.nodup).2, fun q hq => h.old q (by simp [hq]), h.valid⟩

theorem copyString_ledger (h : rt.Ledger blocks) (s : Bytes) :
    Triple (copyString s) rt (fun r rt' => rt.Extends rt' ∧
      (r = none ∧ rt'.Ledger blocks ∨
        ∃ c, r = some c ∧ c.bytes = s ∧ rt'.Ledger (c.ptr :: blocks))) Never := by
  refine (kvsMalloc_ledger h).bind fun r rt' hr => ?_
  obtain ⟨hext, ⟨rfl, hl⟩ | ⟨p, rfl, -, -, hl⟩⟩ := hr
  · exact ⟨hext, .inl ⟨rfl, hl⟩⟩
  · exact ⟨hext, .inr ⟨_, rfl, rfl, hl⟩⟩

theorem freeString_ledger {s : Option CString}
    (h : rt.Ledger (s.toList.map CString.ptr ++ blocks)) :
    Triple (freeString s) rt (fun _ rt' => rt.Extends rt' ∧ rt'.Ledger blocks) Never := by
  cases s with
  | none => exact Triple.pure ⟨.refl rt, h⟩
  | some s => exact kvsFree_ledger h

end

-- ---------------------------------------------------------------------------
-- The blocks of a structure, part by part
-- ---------------------------------------------------------------------------

section
variable {α β : Type} {l : List α} {i : α} {f g : α → List β}

theorem length_flatMap_const {l : List α} {f : α → List β} (h : ∀ x ∈ l, (f x).length = c) :
    (l.flatMap f).length = c * l.length := by
  induction l with
  | nil => rfl
  | cons x l ih =>
    rw [List.flatMap_cons, List.length_append, h x (by simp), ih fun y hy => h y (by simp [hy]),
      List.length_cons, Nat.mul_succ, Nat.add_comm]

variable [DecidableEq α]

theorem flatMap_perm_erase (f : α → List β) (h : i ∈ l) :
    (l.flatMap f).Perm (f i ++ (l.erase i).flatMap f) := by
  rw [← List.flatMap_cons]
  exact List.Perm.flatMap_right f (List.perm_cons_erase h)

theorem flatMap_perm_update (h : i ∈ l) (hl : l.Nodup) (hsame : ∀ j ∈ l, j ≠ i → g j = f j) :
    (l.flatMap g).Perm (g i ++ (l.erase i).flatMap f) := by
  refine (flatMap_perm_erase g h).trans (List.Perm.append_left _ (List.Perm.of_eq ?_))
  refine List.flatMap_congr fun j hj => ?_
  obtain ⟨hne, hmem⟩ := (List.Nodup.mem_erase_iff hl).mp hj
  exact hsame j hmem hne

end

section
variable {rt : Runtime} {blocks blocks' rest others : List Ptr}

theorem Runtime.Ledger.swap (h : rt.Ledger (c :: (blocks ++ others)))
    (hold : blocks.Perm (gone :: rest)) (hnew : blocks'.Perm (c :: rest)) :
    rt.Ledger (gone :: (blocks' ++ others)) := by
  refine h.perm ?_
  have h1 : (c :: (blocks ++ others)).Perm (c :: gone :: (rest ++ others)) :=
    (hold.append_right others).cons c
  have h2 : (gone :: (blocks' ++ others)).Perm (gone :: c :: (rest ++ others)) :=
    (hnew.append_right others).cons gone
  exact (h1.trans (List.Perm.swap _ _ _)).trans h2.symm

end

end KvStore
