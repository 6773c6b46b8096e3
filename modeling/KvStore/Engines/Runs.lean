import KvStore.Engines.Interface

/-!
# Runs of an engine

An engine is created once and then written to: `set`, `mod` and `del`, in any
order and any number. What the creation establishes and every write keeps
holds after every run.
-/

namespace KvStore

open Lib

inductive EngineWrite
  | set (key value : Bytes)
  | mod (key value : Bytes)
  | del (key : Bytes)

def EngineWrite.key : EngineWrite → Bytes
  | .set key _ | .mod key _ | .del key => key

namespace EngineOps

def write (ops : EngineOps σ) (inst : σ) : EngineWrite → Run (Int × σ)
  | .set key value => ops.set inst key value
  | .mod key value => ops.mod inst key value
  | .del key => ops.del inst key

def runWrites (ops : EngineOps σ) (inst : σ) : List EngineWrite → Run (List Int × σ)
  | [] => return ([], inst)
  | w :: writes => do
    let (code, inst) ← ops.write inst w
    let (codes, inst) ← ops.runWrites inst writes
    return (code :: codes, inst)

def runCreated (ops : EngineOps σ) (writes : List EngineWrite) : Run (Option (List Int × σ)) := do
  let (code, inst) ← ops.create
  if code ≠ 0 then return none
  let r ← ops.runWrites inst writes
  return some r

end EngineOps

inductive EngineCall
  | write (w : EngineWrite)
  | get (key : Bytes)
  | exist (key : Bytes)
  | foreach

inductive EngineAnswer
  | code (c : Int)
  | value (v : Option Bytes)
  | pairs (l : List (Bytes × Bytes))
  deriving DecidableEq

namespace EngineOps

def call (ops : EngineOps σ) (inst : σ) : EngineCall → Run (EngineAnswer × σ)
  | .write w => do
    let (code, inst) ← ops.write inst w
    return (.code code, inst)
  | .get key => do
    let v ← ops.get inst key
    return (.value v, inst)
  | .exist key => do
    let c ← ops.exist inst key
    return (.code c, inst)
  | .foreach => do
    let l ← ops.foreach inst
    return (.pairs l, inst)

def runCalls (ops : EngineOps σ) (inst : σ) : List EngineCall → Run (List EngineAnswer × σ)
  | [] => return ([], inst)
  | c :: calls => do
    let (answer, inst) ← ops.call inst c
    let (answers, inst) ← ops.runCalls inst calls
    return (answer :: answers, inst)

def callCreated (ops : EngineOps σ) (calls : List EngineCall) :
    Run (Option (List EngineAnswer × σ)) := do
  let (code, inst) ← ops.create
  if code ≠ 0 then return none
  let r ← ops.runCalls inst calls
  return some r

section
variable {ops : EngineOps σ} {I : σ → Runtime → Prop} {E : Stop → Prop} {writes : List EngineWrite}

theorem runWrites_keeps
    (hwrite : ∀ inst rt, I inst rt → ∀ w ∈ writes,
      Triple (ops.write inst w) rt (fun r rt' => I r.2 rt') E)
    (h : I inst rt) : Triple (ops.runWrites inst writes) rt (fun r rt' => I r.2 rt') E := by
  induction writes generalizing inst rt with
  | nil => exact h
  | cons w writes ih =>
    refine (hwrite inst rt h w (by simp)).bind fun r rt' hr => ?_
    have hrest := ih (fun inst rt h w hw => hwrite inst rt h w (by simp [hw])) hr
    exact hrest.bind fun r rt' hr => hr

/-- What holds after the creation and is kept by every write holds after every
run. -/
theorem runCreated_keeps
    (hcreate : Triple ops.create rt (fun r rt' => r.1 = 0 → I r.2 rt') E)
    (hwrite : ∀ inst rt, I inst rt → ∀ w ∈ writes,
      Triple (ops.write inst w) rt (fun r rt' => I r.2 rt') E) :
    Triple (ops.runCreated writes) rt (fun r rt' => ∀ run, r = some run → I run.2 rt') E := by
  refine hcreate.bind fun r rt' hr => ?_
  refine Triple.ite (fun _ => ?_) fun hc => ?_
  · exact Triple.pure (by simp)
  · refine (runWrites_keeps hwrite (hr (not_not.mp hc))).bind fun run rt' h => ?_
    refine Triple.pure ?_
    rintro _ ⟨⟩
    exact h

theorem runCalls_keeps {calls : List EngineCall}
    (hcall : ∀ inst rt, I inst rt → ∀ c ∈ calls,
      Triple (ops.call inst c) rt (fun r rt' => I r.2 rt') E)
    (h : I inst rt) : Triple (ops.runCalls inst calls) rt (fun r rt' => I r.2 rt') E := by
  induction calls generalizing inst rt with
  | nil => exact h
  | cons c calls ih =>
    refine (hcall inst rt h c (by simp)).bind fun r rt' hr => ?_
    have hrest := ih (fun inst rt h c hc => hcall inst rt h c (by simp [hc])) hr
    exact hrest.bind fun r rt' hr => hr

theorem callCreated_keeps {calls : List EngineCall}
    (hcreate : Triple ops.create rt (fun r rt' => r.1 = 0 → I r.2 rt') E)
    (hcall : ∀ inst rt, I inst rt → ∀ c ∈ calls,
      Triple (ops.call inst c) rt (fun r rt' => I r.2 rt') E) :
    Triple (ops.callCreated calls) rt (fun r rt' => ∀ run, r = some run → I run.2 rt') E := by
  refine hcreate.bind fun r rt' hr => ?_
  refine Triple.ite (fun _ => ?_) fun hc => ?_
  · exact Triple.pure (by simp)
  · refine (runCalls_keeps hcall (hr (not_not.mp hc))).bind fun run rt' h => ?_
    refine Triple.pure ?_
    rintro _ ⟨⟩
    exact h

end

end EngineOps

theorem Lawful.write_holds {ops : EngineOps σ} {Holds : σ → Nat → Contents → Prop}
    (h : Lawful ops Holds admits room missing) (hinst : ∃ m, Holds inst rt.mallocs m)
    (w : EngineWrite) (hk : admits w.key) :
    Triple (ops.write inst w) rt (fun r rt' => ∃ m, Holds r.2 rt'.mallocs m) Never := by
  obtain ⟨m, hm⟩ := hinst
  have hwrote : ∀ {m' refused} r rt', Wrote Holds rt inst m' refused r rt' →
      ∃ m, Holds r.2 rt'.mallocs m := by
    rintro m' refused r rt' ⟨hext, ⟨-, hr⟩ | ⟨-, rfl, -⟩⟩
    · exact ⟨m', hr⟩
    · exact ⟨m, h.later hm hext.mallocs⟩
  cases w with
  | set k v => exact (h.set v hm hk).weaken hwrote
  | mod k v =>
    by_cases hmem : k ∈ m
    · exact (h.mod v hm hk hmem).weaken hwrote
    · refine (h.mod_missing v hm hk hmem).weaken ?_
      rintro _ _ ⟨rfl, rfl⟩
      exact ⟨m, hm⟩
  | del k =>
    by_cases hmem : k ∈ m
    · exact (h.del hm hk hmem).weaken hwrote
    · refine (h.del_missing hm hk hmem).weaken ?_
      rintro _ _ ⟨rfl, rfl⟩
      exact ⟨m, hm⟩

end KvStore
