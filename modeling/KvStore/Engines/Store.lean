import KvStore.Engines.Array
import KvStore.Engines.Hash
import KvStore.Engines.RbTreeLaws
import KvStore.Engines.SkipListLaws

/-!
# The four engines of the server

The server keeps one global instance of each engine. They are one family
indexed by `EngineId`, so what holds of every engine is stated once; above this
module only the laws of the family are used. `Maps` is what the family is for:
four finite maps.
-/

namespace KvStore

open Lib

inductive EngineId
  | array
  | rbtree
  | hash
  | skiplist
  deriving DecidableEq, Repr

namespace EngineId

abbrev Instance : EngineId → Type
  | array => KvsArray
  | rbtree => KvsRbtree
  | hash => KvsHash
  | skiplist => KvsSkiplist

def ops : (e : EngineId) → EngineOps e.Instance
  | array => arrayOps
  | rbtree => rbtreeOps
  | hash => hashOps
  | skiplist => skiplistOps

def Holds : (e : EngineId) → e.Instance → Nat → Contents → Prop
  | array => ArrayHolds
  | rbtree => RbHolds
  | hash => HashHolds
  | skiplist => SkHolds

/-- The keys an engine can take: those of the hash engine need a bucket. -/
def Admits : EngineId → Bytes → Prop
  | hash, k => HashAdmits k
  | _, _ => True

def Room : EngineId → Contents → Prop
  | array, m => m.keys.card < kvsArraySize
  | _, _ => True

def missing : EngineId → Int
  | hash => -1
  | _ => 1

instance : (e : EngineId) → (k : Bytes) → Decidable (e.Admits k)
  | hash, k => inferInstanceAs (Decidable (HashAdmits k))
  | array, _ | rbtree, _ | skiplist, _ => .isTrue trivial

instance : (e : EngineId) → (m : Contents) → Decidable (e.Room m)
  | array, m => inferInstanceAs (Decidable (m.keys.card < kvsArraySize))
  | rbtree, _ | hash, _ | skiplist, _ => .isTrue trivial

theorem lawful : (e : EngineId) → Lawful e.ops e.Holds e.Admits e.Room e.missing
  | array => array_lawful
  | rbtree => rbtree_lawful
  | hash => hash_lawful
  | skiplist => skiplist_lawful

/-- Only the hash engine refuses a key, and then nothing is defined. -/
theorem undefined_of_not_admits (h : ¬EngineId.Admits e k) (inst : e.Instance) (rt : Runtime) :
    e.ops.Undefined inst k rt := by
  cases e with
  | hash => exact hashOps_undefined h inst rt
  | array | rbtree | skiplist => exact absurd trivial h

end EngineId

/-- `global_array`, `global_rbtree`, `global_hash` and `global_skiplist`. -/
abbrev Engines := (e : EngineId) → e.Instance

abbrev Maps := EngineId → Contents

namespace Maps

def empty : Maps := fun _ => ∅

def put (M : Maps) (e : EngineId) (m : Contents) : Maps := Function.update M e m

@[simp] theorem put_self (M : Maps) (e : EngineId) (m : Contents) : M.put e m e = m :=
  Function.update_self ..

@[simp] theorem put_other (M : Maps) (m : Contents) (h : e' ≠ e) : M.put e m e' = M e' :=
  Function.update_of_ne h ..

@[simp] theorem put_same (M : Maps) (e : EngineId) : M.put e (M e) = M := Function.update_eq_self ..

end Maps

namespace Engines

def put (E : Engines) (e : EngineId) (inst : e.Instance) : Engines := Function.update E e inst

@[simp] theorem put_same (E : Engines) (e : EngineId) : E.put e (E e) = E :=
  Function.update_eq_self ..

/-- Every instance is well formed and holds its map. -/
def Hold (E : Engines) (n : Nat) (M : Maps) : Prop := ∀ e : EngineId, e.Holds (E e) n (M e)

def Contains (E : Engines) (rt : Runtime) (M : Maps) : Prop :=
  ∀ e : EngineId, ∃ pairs, e.ops.foreach (E e) rt = .ok (pairs, rt) ∧ DistinctKeys pairs ∧
    mapOf pairs = M e

theorem Hold.contains {E : Engines} (h : E.Hold rt.mallocs M) : E.Contains rt M := by
  intro e
  obtain ⟨pairs, rt', hrun, rfl, hdistinct, hpairs⟩ := (e.lawful.foreach (h e)).run
  exact ⟨pairs, hrun, hdistinct, hpairs⟩

theorem Contains.unique {E : Engines} (h : E.Contains rt M) (h' : E.Contains rt M') : M = M' := by
  funext e
  obtain ⟨pairs, hrun, -, hpairs⟩ := h e
  obtain ⟨pairs', hrun', -, hpairs'⟩ := h' e
  rw [hrun] at hrun'
  simp only [Except.ok.injEq, Prod.mk.injEq, and_true] at hrun'
  rw [← hpairs, ← hpairs', hrun']

theorem Hold.later {E : Engines} (h : E.Hold n M) (hn : n ≤ n') : E.Hold n' M :=
  fun e => e.lawful.later (h e) hn

theorem Hold.put {E : Engines} (h : E.Hold n M) (hn : n ≤ n') (hinst : e.Holds inst n' m) :
    (E.put e inst).Hold n' (M.put e m) := by
  intro e'
  by_cases he : e' = e
  · subst he
    simpa [Engines.put] using hinst
  · simpa [Engines.put, he] using e'.lawful.later (h e') hn

end Engines

/-- `init_kvengine`: the engines are created in turn up to the first failure. -/
def initKvengine : Run (Option Engines) := do
  let (code, array) ← EngineId.array.ops.create
  if code ≠ 0 then return none
  let (code, rbtree) ← EngineId.rbtree.ops.create
  if code ≠ 0 then return none
  let (code, hash) ← EngineId.hash.ops.create
  if code ≠ 0 then return none
  let (code, skiplist) ← EngineId.skiplist.ops.create
  if code ≠ 0 then return none
  return some fun
    | .array => array
    | .rbtree => rbtree
    | .hash => hash
    | .skiplist => skiplist

theorem initKvengine_effect (rt : Runtime) :
    Triple initKvengine rt (fun r rt' => rt.Extends rt' ∧
      ((∃ E, r = some E ∧ E.Hold rt'.mallocs Maps.empty) ∨ r = none ∧ rt.CanFail)) Never := by
  have hcreate : ∀ (e : EngineId) (rt1 : Runtime), rt.Extends rt1 →
      Triple e.ops.create rt1 (fun r rt2 => rt1.Extends rt2 ∧
        (r.1 = 0 ∧ e.Holds r.2 rt2.mallocs ∅ ∨ r.1 ≠ 0 ∧ rt.CanFail)) Never := by
    intro e rt1 hext
    refine (e.lawful.create rt1).weaken fun r rt2 h => ?_
    exact ⟨h.1, h.2.imp_right fun h => ⟨h.1, hext.canFail h.2⟩⟩
  refine (hcreate .array rt (.refl rt)).bind fun r1 rt1 h1 => ?_
  obtain ⟨hext1, ⟨hcode1, h1⟩ | ⟨hcode1, hcan⟩⟩ := h1
  rotate_left
  · simp only [hcode1, ne_eq, not_false_eq_true, if_true]
    exact Triple.pure ⟨hext1, .inr ⟨rfl, hcan⟩⟩
  simp only [hcode1, ne_eq, not_true_eq_false, if_false]
  refine (hcreate .rbtree rt1 hext1).bind fun r2 rt2 h2 => ?_
  obtain ⟨hext2, ⟨hcode2, h2⟩ | ⟨hcode2, hcan⟩⟩ := h2
  rotate_left
  · simp only [hcode2, not_false_eq_true, if_true]
    exact Triple.pure ⟨hext1.trans hext2, .inr ⟨rfl, hcan⟩⟩
  simp only [hcode2, not_true_eq_false, if_false]
  refine (hcreate .hash rt2 (hext1.trans hext2)).bind fun r3 rt3 h3 => ?_
  obtain ⟨hext3, ⟨hcode3, h3⟩ | ⟨hcode3, hcan⟩⟩ := h3
  rotate_left
  · simp only [hcode3, not_false_eq_true, if_true]
    exact Triple.pure ⟨(hext1.trans hext2).trans hext3, .inr ⟨rfl, hcan⟩⟩
  simp only [hcode3, not_true_eq_false, if_false]
  refine (hcreate .skiplist rt3 ((hext1.trans hext2).trans hext3)).bind fun r4 rt4 h4 => ?_
  obtain ⟨hext4, ⟨hcode4, h4⟩ | ⟨hcode4, hcan⟩⟩ := h4
  rotate_left
  · simp only [hcode4, not_false_eq_true, if_true]
    exact Triple.pure ⟨((hext1.trans hext2).trans hext3).trans hext4, .inr ⟨rfl, hcan⟩⟩
  simp only [hcode4, not_true_eq_false, if_false]
  refine Triple.pure ⟨((hext1.trans hext2).trans hext3).trans hext4, .inl ⟨_, rfl, fun e => ?_⟩⟩
  cases e with
  | array => exact array_lawful.later h1 ((hext2.trans hext3).trans hext4).mallocs
  | rbtree => exact rbtree_lawful.later h2 (hext3.trans hext4).mallocs
  | hash => exact hash_lawful.later h3 hext4.mallocs
  | skiplist => exact h4

theorem initKvengine_spec (hfail : ¬rt.CanFail) :
    Triple initKvengine rt (fun r rt' => rt.Extends rt' ∧
      ∃ E, r = some E ∧ E.Hold rt'.mallocs Maps.empty) Never := by
  refine (initKvengine_effect rt).weaken fun r rt' h => ?_
  exact ⟨h.1, h.2.resolve_right fun hno => hfail hno.2⟩

theorem Engines.Hold.insert {E : Engines} {rt : Runtime} {M : Maps} {k : Bytes} (h : E.Hold rt.mallocs M)
    (hfail : ¬rt.CanFail) (e : EngineId) (v : Bytes) (hk : e.Admits k) (hroom : e.Room (M e)) :
    ∃ (E' : Engines) (rt' : Runtime), ¬rt'.CanFail ∧ E'.Hold rt'.mallocs (M.put e ((M e).insert k v)) := by
  obtain ⟨_, rt', -, hext, ⟨-, hholds⟩ | ⟨-, -, -, hcan | ⟨-, hfull⟩⟩⟩ := (e.lawful.set v (h e) hk).run
  · exact ⟨E.put e _, rt', fun hcan => hfail (hext.canFail hcan), h.put hext.mallocs hholds⟩
  · exact absurd hcan hfail
  · exact absurd hroom hfull

end KvStore
