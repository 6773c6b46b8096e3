import KvStore.Lib.AssocMap
import KvStore.Memory.Runtime

/-!
# What the dispatcher relies on in an engine

The four engines have the same operations and differ in their representation,
in the keys they can take, in their capacity and in what `del` returns for a
missing key. `Lawful` states each operation once, against the finite map the
engine holds; everything above the engines uses these laws and no engine's
representation.
-/

namespace KvStore

open Lib

abbrev Contents := Map Bytes Bytes

/-- `strcmp` as the order of keys. -/
def keyLt (a b : Bytes) : Prop := strcmp a b < 0

theorem keyLt_irrefl (k : Bytes) : ¬keyLt k k := by
  have : strcmp k k = 0 := strcmp_eq_zero.mpr rfl
  simp [keyLt, this]

theorem length_le_of_nodup {l : List Nat} (hnodup : l.Nodup) (h : ∀ p ∈ l, 1 ≤ p ∧ p ≤ n) :
    l.length ≤ n := by
  have hsub : l ⊆ List.range' 1 n := by
    intro p hp
    obtain ⟨h1, h2⟩ := h p hp
    rw [List.mem_range'_1]
    omega
  simpa using (hnodup.subperm hsub).length_le

/-- The operations of an engine. A write returns its code and the instance as
it is afterwards; `foreach` returns the pairs it hands to the visitor. -/
structure EngineOps (σ : Type) where
  create : Run (Int × σ)
  set : σ → Bytes → Bytes → Run (Int × σ)
  get : σ → Bytes → Run (Option Bytes)
  del : σ → Bytes → Run (Int × σ)
  mod : σ → Bytes → Bytes → Run (Int × σ)
  exist : σ → Bytes → Run Int
  foreach : σ → Run (List (Bytes × Bytes))

structure EngineOps.Undefined (ops : EngineOps σ) (inst : σ) (k : Bytes) (rt : Runtime) : Prop where
  set (v : Bytes) : ops.set inst k v rt = .error .undefined
  mod (v : Bytes) : ops.mod inst k v rt = .error .undefined
  del : ops.del inst k rt = .error .undefined
  get : ops.get inst k rt = .error .undefined
  exist : ops.exist inst k rt = .error .undefined

/-- A result of a write: code `0` with the new contents, or another code with
the instance unchanged and the reason for it. -/
def Wrote (Holds : σ → Nat → Contents → Prop) (rt : Runtime) (inst : σ) (m' : Contents)
    (refused : Int → Prop) (r : Int × σ) (rt' : Runtime) : Prop :=
  rt.Extends rt' ∧
    (r.1 = 0 ∧ Holds r.2 rt'.mallocs m' ∨ r.1 ≠ 0 ∧ r.2 = inst ∧ refused r.1)

theorem Wrote.done {Holds : σ → Nat → Contents → Prop} (hext : Runtime.Extends rt rt')
    (h : Holds inst' rt'.mallocs m') : Wrote Holds rt inst m' refused (0, inst') rt' :=
  ⟨hext, .inl ⟨rfl, h⟩⟩

theorem Wrote.unchanged {Holds : σ → Nat → Contents → Prop} (hext : Runtime.Extends rt rt')
    (hc : c ≠ 0) (h : refused c) : Wrote Holds rt inst m' refused (c, inst) rt' :=
  ⟨hext, .inr ⟨hc, rfl, h⟩⟩

/-- `Holds inst n m`: the instance is well formed, none of its blocks is newer
than the `n`-th, and it holds the map `m`. -/
structure Lawful (ops : EngineOps σ) (Holds : σ → Nat → Contents → Prop) (admits : Bytes → Prop)
    (room : Contents → Prop) (missing : Int) : Prop where
  later : Holds inst n m → n ≤ n' → Holds inst n' m
  admitted : Holds inst n m → k ∈ m → admits k
  full : k ∉ m → ¬room m → ¬Holds inst n (m.insert k v)
  create (rt : Runtime) : Triple ops.create rt (fun r rt' => rt.Extends rt' ∧
    (r.1 = 0 ∧ Holds r.2 rt'.mallocs ∅ ∨ r.1 ≠ 0 ∧ rt.CanFail)) Never
  set (v : Bytes) : Holds inst rt.mallocs m → admits k →
    Triple (ops.set inst k v) rt
      (fun r rt' => Wrote Holds rt inst (m.insert k v)
        (fun c => c < 0 ∧ (rt.CanFail ∨ k ∉ m ∧ ¬room m)) r rt') Never
  mod (v : Bytes) : Holds inst rt.mallocs m → admits k → k ∈ m →
    Triple (ops.mod inst k v) rt
      (fun r rt' => Wrote Holds rt inst (m.insert k v) (fun c => c < 0 ∧ rt.CanFail) r rt') Never
  mod_missing (v : Bytes) : Holds inst rt.mallocs m → admits k → k ∉ m →
    Triple (ops.mod inst k v) rt (fun r rt' => rt' = rt ∧ r = (1, inst)) Never
  del : Holds inst rt.mallocs m → admits k → k ∈ m →
    Triple (ops.del inst k) rt
      (fun r rt' => Wrote Holds rt inst (m.erase k) (fun _ => False) r rt') Never
  del_missing : Holds inst rt.mallocs m → admits k → k ∉ m →
    Triple (ops.del inst k) rt (fun r rt' => rt' = rt ∧ r = (missing, inst)) Never
  get : Holds inst rt.mallocs m → admits k →
    Triple (ops.get inst k) rt (fun r rt' => rt' = rt ∧ r = m.lookup k) Never
  exist : Holds inst rt.mallocs m → admits k →
    Triple (ops.exist inst k) rt (fun r rt' => rt' = rt ∧ (r = 0 ↔ k ∈ m) ∧ (r = 1 ↔ k ∉ m))
      Never
  foreach : Holds inst rt.mallocs m →
    Triple (ops.foreach inst) rt
      (fun pairs rt' => rt' = rt ∧ DistinctKeys pairs ∧ mapOf pairs = m) Never

end KvStore
