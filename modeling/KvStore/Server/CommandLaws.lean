import KvStore.Server.Spec

/-!
# The commands meet their specification

Each function of the dispatcher has one triple, stated against the maps the
engines hold. A command changes the maps and the log together: the log grows by
exactly the commands that `Maps.redo` can run again, and by nothing during
recovery.
-/

namespace KvStore

open Lib

-- ---------------------------------------------------------------------------
-- The log
-- ---------------------------------------------------------------------------

def Server.append (s : Server) (fields : List Bytes) : Server :=
  match s.aofWriter with
  | none => s
  | some writer =>
    { s with
      disk := s.disk.write writer.path
        (pwrite (s.aofFile writer.path) writer.offset (encodeFields fields))
      io := (s.io.ask (.write writer.path writer.offset (encodeFields fields))).ask (.sync writer.path)
      aofWriter := some { writer with offset := writer.offset + (encodeFields fields).length } }

def Server.LogFull (s : Server) (fields : List Bytes) : Prop :=
  ∃ writer ∈ s.aofWriter, offMax < writer.offset + (encodeFields fields).length

/-- The log can take the command: there is room for it, and both the write and
the sync behind it are carried out. -/
structure Server.LogTakes (s : Server) (fields : List Bytes) : Prop where
  room : ¬s.LogFull fields
  ring : ∀ writer ∈ s.aofWriter, writer.ring = true
  granted : s.io.Grants 2

/-- Some request of the log fails. -/
def Server.LogBreaks (s : Server) : Prop :=
  s.io.CanFail ∨ ∃ writer ∈ s.aofWriter, writer.ring = false

def Server.CanFail (s : Server) : Prop := s.rt.CanFail ∨ s.io.CanFail

theorem Server.not_logBreaks {s : Server} {path : Path} {offset : Nat} (hio : ¬s.io.CanFail)
    (hw : s.aofWriter = some ⟨path, offset, true⟩) : ¬s.LogBreaks := by
  rintro (hcan | ⟨writer, hwriter, hring⟩)
  · exact hio hcan
  · rw [hw, Option.mem_def, Option.some.injEq] at hwriter
    subst hwriter
    cases hring

theorem Server.full_or_breaks {s : Server} {fields : List Bytes} (h : ¬s.LogTakes fields) :
    s.LogFull fields ∨ s.LogBreaks := by
  by_contra hno
  obtain ⟨hroom, hbreaks⟩ := not_or.mp hno
  refine h ⟨hroom, fun writer hw => ?_, .of_not_canFail (fun hcan => hbreaks (.inl hcan)) 2⟩
  cases hring : writer.ring with
  | true => rfl
  | false => exact absurd (.inr ⟨writer, hw, hring⟩) hbreaks

theorem Server.LogTakes.congr {s s' : Server} {fields : List Bytes} (h : s.LogTakes fields)
    (hw : s'.aofWriter = s.aofWriter) (hio : s'.io = s.io) : s'.LogTakes fields := by
  refine ⟨?_, ?_, ?_⟩
  · rw [Server.LogFull, hw]
    exact h.room
  · rw [hw]
    exact h.ring
  · rw [hio]
    exact h.granted

section
variable (s : Server) (fields : List Bytes)

@[simp] theorem append_role : (s.append fields).role = s.role := by
  unfold Server.append
  split <;> rfl

@[simp] theorem append_persistenceMode : (s.append fields).persistenceMode = s.persistenceMode := by
  unfold Server.append
  split <;> rfl

@[simp] theorem append_replication : (s.append fields).replication = s.replication := by
  unfold Server.append
  split <;> rfl

@[simp] theorem append_fails : (s.append fields).io.fails = s.io.fails := by
  unfold Server.append
  split <;> rfl

@[simp] theorem append_aofWriter :
    (s.append fields).aofWriter = s.aofWriter.map fun writer =>
      { writer with offset := writer.offset + (encodeFields fields).length } := by
  unfold Server.append
  split
  · rename_i h
    simp [h]
  · rename_i writer h
    simp [h]

end

def Server.wrote (s : Server) (writer : AofWriter) (data : Bytes) (k : Nat) : Server :=
  { s with
    disk := s.disk.write writer.path (pwrite (s.aofFile writer.path) writer.offset (data.take k))
    io := s.io.ask (.write writer.path writer.offset data) }

theorem writeLog_spec (writer : AofWriter) (data : Bytes) (s : Server) :
    Triple (writeLog writer data) s (fun r s' =>
      r = true ∧ s.io.fails s.io.requests.length = none ∧
          s' = { s.wrote writer data data.length with aofWriter := some writer } ∨
        r = false ∧ ∃ failure, s.io.fails s.io.requests.length = some failure ∧
          s' = { s.wrote writer data failure.written with
            aofWriter := some (writer.after (some failure)) }) Never := by
  unfold writeLog
  refine fileRequest_bind (fun hgood => ?_) fun failure hbad => ?_
  · exact Triple.modify_bind (Triple.pure (.inl ⟨rfl, hgood, by rw [AofWriter.after_none]; rfl⟩))
  · exact Triple.modify_bind (Triple.pure (.inr ⟨rfl, failure, hbad, rfl⟩))

theorem syncLog_spec (writer : AofWriter) (s : Server) :
    Triple (syncLog writer) s (fun r s' =>
      r = true ∧ s.io.fails s.io.requests.length = none ∧
          s' = { s with io := s.io.ask (.sync writer.path), aofWriter := some writer } ∨
        r = false ∧ ∃ failure, s.io.fails s.io.requests.length = some failure ∧
          s' = { s with io := s.io.ask (.sync writer.path)
                        aofWriter := some (writer.after (some failure)) }) Never := by
  unfold syncLog
  refine fileRequest_bind (fun hgood => ?_) fun failure hbad => ?_
  · exact Triple.modify_bind (Triple.pure (.inl ⟨rfl, hgood, by rw [AofWriter.after_none]⟩))
  · exact Triple.modify_bind (Triple.pure (.inr ⟨rfl, failure, hbad, rfl⟩))

/-- What an append does: all of it, nothing that is seen, or a part of it when the
write or the sync behind it fails. -/
inductive Server.Appends (s : Server) (fields : List Bytes) : Int → Server → Prop
  | done (hw : s.aofWriter = some writer) (hcount : fields.length = 2 ∨ fields.length = 3)
    (hsize : (encodeFields fields).length ≤ sizeMax) (htakes : s.LogTakes fields)
    (hext : s.rt.Extends rt') : s.Appends fields 0 { s.append fields with rt := rt' }
  | nothing (hext : s.rt.Extends rt')
    (hwhy : s.aofWriter.isSome → fields.length = 2 ∨ fields.length = 3 → s.rt.CanFail ∨ ¬s.LogTakes fields) :
    s.Appends fields (-1) { s with rt := rt' }
  | written {failure : FileFailure} (hw : s.aofWriter = some writer)
    (hfail : s.io.fails s.io.requests.length = some failure) :
    s.Appends fields (-1) { s.wrote writer (encodeFields fields) failure.written with
      rt := rt', aofWriter := some (writer.after (some failure)) }
  | unsynced {failure : FileFailure} (hw : s.aofWriter = some writer)
    (hfail : s.io.fails (s.io.requests.length + 1) = some failure) :
    s.Appends fields (-1) { s.wrote writer (encodeFields fields) (encodeFields fields).length with
      rt := rt'
      io := (s.io.ask (.write writer.path writer.offset (encodeFields fields))).ask (.sync writer.path)
      aofWriter := some (writer.after (some failure)) }

theorem kvsAofAppend_cases (fields : List Bytes) (s : Server) :
    Triple (kvsAofAppend fields) s (s.Appends fields) Never := by
  unfold kvsAofAppend
  refine Triple.get_bind ?_
  cases hw : s.aofWriter with
  | none => exact Triple.pure (.nothing (.refl _) fun hsome => by rw [hw] at hsome; cases hsome)
  | some writer =>
    refine Triple.ite (fun hclosed => ?_) fun hopen => ?_
    · refine Triple.pure (.nothing (.refl _) fun _ hcount => .inr fun htakes => ?_)
      have hring := htakes.ring writer hw
      rw [hclosed.resolve_right (by omega)] at hring
      cases hring
    have hring : writer.ring = true := by simpa using fun h => hopen (.inl h)
    have hcount : fields.length = 2 ∨ fields.length = 3 := by
      by_contra hno
      exact hopen (.inr (by omega))
    have hne : fields ≠ [] := by
      rintro rfl
      simp at hcount
    rw [kvsEncodedCommandSize_eq fields hne]
    by_cases hsize : (encodeFields fields).length ≤ sizeMax
    case neg =>
      rw [if_neg hsize]
      have hmax : offMax < sizeMax := by decide
      exact Triple.pure (.nothing (.refl _) fun _ _ => .inr fun htakes => htakes.room ⟨writer, hw, by omega⟩)
    rw [if_pos hsize]
    refine onRuntime_bind (kvsMalloc_spec s.rt) fun r rt1 h1 => ?_
    obtain ⟨hext1, ⟨rfl, hcan⟩ | ⟨rfl, -⟩⟩ := h1
    · exact Triple.pure (.nothing hext1 fun _ _ => .inl hcan)
    have hencode : kvsEncodeCommand fields (encodeFields fields).length = some (encodeFields fields) :=
      kvsEncodeCommand_eq_some.mpr ⟨hne, rfl, hsize, Nat.le_refl _⟩
    simp only [hencode]
    refine Triple.ite (fun hover => ?_) fun hfits => ?_
    · refine onRuntime_bind (kvsFree_spec _ rt1) fun _ rt2 h2 => ?_
      exact Triple.pure (.nothing (hext1.trans h2.1) fun _ _ => .inr fun htakes =>
        htakes.room ⟨writer, hw, hover⟩)
    refine (writeLog_spec writer _ _).bind fun written s₁ h₁ => ?_
    obtain ⟨rfl, hwrite, rfl⟩ | ⟨rfl, failure, hfail, rfl⟩ := h₁
    · refine onRuntime_bind (kvsFree_spec _ rt1) fun _ rt2 h2 => ?_
      rw [if_neg fun h => h rfl]
      refine (syncLog_spec writer _).bind fun synced s₂ h₂ => ?_
      have hnext : (s.io.ask (.write writer.path writer.offset (encodeFields fields))).requests.length =
          s.io.requests.length + 1 := List.length_append
      obtain ⟨rfl, hsync, rfl⟩ | ⟨rfl, failure, hfail, rfl⟩ := h₂
      · have hgrants : s.io.Grants 2 := (FileIo.grants_succ _ 1).mpr ⟨hwrite, (FileIo.grants_succ
          (.sync writer.path) 0).mpr ⟨hsync, fun i hi => absurd hi (Nat.not_lt_zero i)⟩⟩
        have htakes : s.LogTakes fields := by
          refine ⟨?_, ?_, hgrants⟩
          · rintro ⟨writer', hw', hfull⟩
            obtain rfl := Option.some.inj (hw.symm.trans hw')
            exact hfits hfull
          · intro writer' hw'
            exact Option.some.inj (hw.symm.trans hw') ▸ hring
        rw [if_pos rfl]
        have hdone := Server.Appends.done hw hcount hsize htakes (hext1.trans h2.1)
        simp only [Server.append, hw] at hdone
        refine Triple.modify_bind (Triple.pure ?_)
        simpa [Server.wrote, Server.aofFile] using hdone
      · rw [if_neg Bool.false_ne_true]
        exact Triple.pure (.unsynced hw (hnext ▸ hfail))
    · refine onRuntime_bind (kvsFree_spec _ rt1) fun _ rt2 _ => ?_
      rw [if_pos Bool.false_ne_true]
      exact Triple.pure (.written hw hfail)

/-- An append fails only for want of memory or where the log cannot take it. -/
theorem kvsAofAppend_spec (hw : s.aofWriter = some writer)
    (hcount : fields.length = 2 ∨ fields.length = 3) :
    Triple (kvsAofAppend fields) s (fun r s' =>
      r = 0 ∧ s.LogTakes fields ∧ (∃ rt', s.rt.Extends rt' ∧ s' = { s.append fields with rt := rt' }) ∨
        r = -1 ∧ (s.rt.CanFail ∨ ¬s.LogTakes fields)) Never := by
  refine (kvsAofAppend_cases fields s).weaken fun r s' h => ?_
  cases h with
  | done _ _ _ htakes hext => exact .inl ⟨rfl, htakes, _, hext, rfl⟩
  | nothing _ hwhy => exact .inr ⟨rfl, hwhy (by rw [hw]; rfl) hcount⟩
  | written _ hfail =>
    refine .inr ⟨rfl, .inr fun htakes => ?_⟩
    exact absurd (hfail.symm.trans (htakes.granted 0 (Nat.succ_pos 1))) (Option.some_ne_none _)
  | unsynced _ hfail =>
    refine .inr ⟨rfl, .inr fun htakes => ?_⟩
    exact absurd (hfail.symm.trans (htakes.granted 1 (Nat.lt_succ_self 1))) (Option.some_ne_none _)

-- ---------------------------------------------------------------------------
-- The engines
-- ---------------------------------------------------------------------------

variable {s : Server} {M : Maps} {e : EngineId} {k v : Bytes} {cmd : CommandId}

theorem write_spec {Q : Int × e.Instance → Runtime → Prop} {m : Run (Int × e.Instance)}
    (hm : Triple m s.rt (fun r rt' => s.rt.Extends rt' ∧ Q r rt') Never) :
    Triple (do
        let (ret, inst) ← onRuntime m
        putInstance e inst
        return ret) s
      (fun ret s' => ∃ rt' inst, s' = { s with rt := rt', engines := s.engines.put e inst } ∧
        s.rt.Extends rt' ∧ Q (ret, inst) rt') Never := by
  refine onRuntime_bind hm fun r rt' hr => ?_
  exact ⟨rt', r.2, rfl, hr⟩

def Refused (rt : Runtime) (inst : σ) (ret : Int) (inst' : σ) : Prop :=
  rt.CanFail ∧ ret < 0 ∧ inst' = inst

theorem set_spec (h : s.engines.Hold s.rt.mallocs M) (v : Bytes) (hadmits : e.Admits k) :
    Triple (e.ops.set (s.engines e) k v) s.rt (fun r rt' => s.rt.Extends rt' ∧
      (e.Holds r.2 rt'.mallocs (if k ∈ M e ∨ e.Room (M e) then (M e).insert k v else M e) ∧
        (if k ∈ M e ∨ e.Room (M e) then r.1 = 0 else r.1 < 0) ∨
        Refused s.rt (s.engines e) r.1 r.2)) Never := by
  refine (e.lawful.set v (h e) hadmits).weaken fun r rt' hr => ?_
  obtain ⟨hext, ⟨hcode, hholds⟩ | ⟨-, hsame, hneg, hwhy⟩⟩ := hr
  · have hroom : k ∈ M e ∨ e.Room (M e) := by
      by_contra hnot
      obtain ⟨hk, hfull⟩ := not_or.mp hnot
      exact e.lawful.full hk hfull hholds
    simp only [hroom, if_true]
    exact ⟨hext, .inl ⟨hholds, hcode⟩⟩
  · obtain hcan | ⟨hk, hfull⟩ := hwhy
    · exact ⟨hext, .inr ⟨hcan, hneg, hsame⟩⟩
    · simp only [hk, hfull, or_self, if_false, hsame]
      exact ⟨hext, .inl ⟨e.lawful.later (h e) hext.mallocs, hneg⟩⟩

theorem mod_spec (h : s.engines.Hold s.rt.mallocs M) (v : Bytes) (hadmits : e.Admits k) :
    Triple (e.ops.mod (s.engines e) k v) s.rt (fun r rt' => s.rt.Extends rt' ∧
      (e.Holds r.2 rt'.mallocs (if k ∈ M e then (M e).insert k v else M e) ∧
        r.1 = (if k ∈ M e then 0 else 1) ∨ Refused s.rt (s.engines e) r.1 r.2)) Never := by
  by_cases hk : k ∈ M e
  · simp only [hk, if_true]
    refine (e.lawful.mod v (h e) hadmits hk).weaken fun r rt' hr => ?_
    obtain ⟨hext, ⟨hcode, hholds⟩ | ⟨-, hsame, hneg, hcan⟩⟩ := hr
    · exact ⟨hext, .inl ⟨hholds, hcode⟩⟩
    · exact ⟨hext, .inr ⟨hcan, hneg, hsame⟩⟩
  · simp only [hk, if_false]
    refine (e.lawful.mod_missing v (h e) hadmits hk).weaken fun r rt' hr => ?_
    obtain ⟨rfl, rfl⟩ := hr
    exact ⟨.refl _, .inl ⟨h e, rfl⟩⟩

theorem del_spec (h : s.engines.Hold s.rt.mallocs M) (hadmits : e.Admits k) :
    Triple (e.ops.del (s.engines e) k) s.rt (fun r rt' => s.rt.Extends rt' ∧
      e.Holds r.2 rt'.mallocs (if k ∈ M e then (M e).erase k else M e) ∧
      r.1 = if k ∈ M e then 0 else e.missing) Never := by
  by_cases hk : k ∈ M e
  · simp only [hk, if_true]
    refine (e.lawful.del (h e) hadmits hk).weaken fun r rt' hr => ?_
    obtain ⟨hext, ⟨hcode, hholds⟩ | ⟨-, -, hno⟩⟩ := hr
    · exact ⟨hext, hholds, hcode⟩
    · exact hno.elim
  · simp only [hk, if_false]
    refine (e.lawful.del_missing (h e) hadmits hk).weaken fun r rt' hr => ?_
    obtain ⟨rfl, rfl⟩ := hr
    exact ⟨.refl _, h e, rfl⟩

theorem runEngine_spec (h : s.engines.Hold s.rt.mallocs M) (hadmits : cmd.engine.Admits k)
    (hop : cmd.op ≠ .get) (hvalue : cmd.op.arity = 3 → value = some v) :
    Triple (runEngine cmd (some k) value) s (fun ret s' => ∃ rt' E',
      s' = { s with rt := rt', engines := E' } ∧ s.rt.Extends rt' ∧
      (E'.Hold rt'.mallocs (M.perform cmd k v).1 ∧
        filterStatus cmd.op ret .failed = (M.perform cmd k v).2 ∧
        (ret = 0 ∧ cmd.op.isWrite ↔ (M.perform cmd k v).2 = .ok) ∨
        Refused s.rt s.engines ret E')) Never := by
  obtain ⟨e, op⟩ := cmd
  change e.Admits k at hadmits
  have hrefused : ∀ {ret : Int} {inst : e.Instance}, Refused s.rt (s.engines e) ret inst →
      Refused s.rt s.engines ret (s.engines.put e inst) := by
    rintro ret inst ⟨hcan, hneg, rfl⟩
    exact ⟨hcan, hneg, Engines.put_same _ _⟩
  unfold runEngine
  refine Triple.get_bind ?_
  cases op with
  | get => exact absurd rfl hop
  | set =>
    simp only [hvalue rfl]
    refine (write_spec (set_spec h v hadmits)).weaken fun ret s' hr => ?_
    obtain ⟨rt', inst, rfl, hext, ⟨hholds, hcode⟩ | hno⟩ := hr
    · refine ⟨rt', _, rfl, hext, .inl ?_⟩
      have hE := h.put hext.mallocs hholds
      simp only at hcode
      simp only [Maps.perform]
      split at hcode <;> rename_i hroom
      · simp only [hroom, if_true] at hE ⊢
        exact ⟨hE, by simp [filterStatus, hcode], by simp [hcode, Op.isWrite]⟩
      · simp only [hroom, if_false, Maps.put_same] at hE ⊢
        exact ⟨hE, by simp [filterStatus, hcode], by simp; omega⟩
    · exact ⟨rt', _, rfl, hext, .inr (hrefused hno)⟩
  | mod =>
    simp only [hvalue rfl]
    refine (write_spec (mod_spec h v hadmits)).weaken fun ret s' hr => ?_
    obtain ⟨rt', inst, rfl, hext, ⟨hholds, rfl⟩ | hno⟩ := hr
    · refine ⟨rt', _, rfl, hext, .inl ?_⟩
      have hE := h.put hext.mallocs hholds
      simp only [Maps.perform]
      by_cases hk : k ∈ M e
      · simp only [hk, if_true] at hE ⊢
        exact ⟨hE, rfl, by simp [Op.isWrite]⟩
      · simp only [hk, if_false, Maps.put_same] at hE ⊢
        exact ⟨hE, rfl, by simp⟩
    · exact ⟨rt', _, rfl, hext, .inr (hrefused hno)⟩
  | del =>
    refine (write_spec (del_spec h hadmits)).weaken fun ret s' hr => ?_
    obtain ⟨rt', inst, rfl, hext, hholds, rfl⟩ := hr
    refine ⟨rt', _, rfl, hext, .inl ?_⟩
    have hE := h.put hext.mallocs hholds
    simp only [Maps.perform]
    by_cases hk : k ∈ M e
    · simp only [hk, if_true] at hE ⊢
      exact ⟨hE, rfl, by simp [Op.isWrite]⟩
    · simp only [hk, if_false, Maps.put_same] at hE ⊢
      exact ⟨hE, by cases e <;> rfl, by cases e <;> simp [EngineId.missing]⟩
  | exist =>
    have hexist := e.lawful.exist (h e) hadmits
    refine onRuntime_triple (hexist.weaken fun ret rt' hr => ?_)
    obtain ⟨rfl, hfound, hmissing⟩ := hr
    refine ⟨s.rt, s.engines, rfl, .refl _, .inl ⟨h, ?_⟩⟩
    simp only [Maps.perform]
    by_cases hk : k ∈ M e
    · have hzero := hfound.mpr hk
      simp [hk, hzero, filterStatus, Op.isWrite]
    · have hone := hmissing.mpr hk
      simp [hk, hone, filterStatus, Op.isWrite]

-- ---------------------------------------------------------------------------
-- Running and logging
-- ---------------------------------------------------------------------------

variable {fields : List Bytes} {source : CommandSource}

def Server.Logs (s : Server) (source : CommandSource) : Prop :=
  source ≠ .recovery ∧ s.persistenceMode ≠ .snapshot

def Server.snapshotTarget (s : Server) : Option (Path × Option Nat) :=
  match s.persistenceMode with
  | .snapshot => some (.snapshotBin, none)
  | .legacyHybrid => s.aofWriter.map fun writer => (.snapshotDb, some writer.offset)
  | .aof => none

/-- The files after a command: the log grows exactly by the writes that can be
run again, and only `SAVE` writes anything else. -/
inductive Server.Leaves (s : Server) (M : Maps) (source : CommandSource) (fields : List Bytes) :
    Server → Prop
  | kept : (s.Logs source → M.redo fields = none) → s.Leaves M source fields s
  | logged : s.Logs source → (M.redo fields).isSome → s.LogTakes fields →
    s.Leaves M source fields (s.append fields)
  | saved : findCommand (fields.headD []) = none → s.snapshotTarget = some (path, offset) → Lists M records →
    M.snapshotSize ≤ offMax →
    s.Leaves M source fields { s with disk := s.disk.write path (savedFile offset records) }

/-- A command ran: the files are as `Leaves` says, and the engines hold the maps
after it. -/
def Server.Took (s : Server) (M : Maps) (source : CommandSource) (fields : List Bytes)
    (s' : Server) : Prop :=
  ∃ s₀ rt' E', s.Leaves M source fields s₀ ∧ s' = { s₀ with rt := rt', engines := E' } ∧
    s.rt.Extends rt' ∧ E'.Hold rt'.mallocs ((M.redo fields).getD M)

section
variable {s s' : Server} {M : Maps} {source : CommandSource} {fields : List Bytes}

theorem Server.Took.earlier (h : Server.Took { s with rt := rt₁ } M source fields s')
    (hext : s.rt.Extends rt₁) : s.Took M source fields s' := by
  obtain ⟨s₀, rt', E', hleaves, rfl, hext', hE'⟩ := h
  cases hleaves with
  | kept hredo => exact ⟨s, rt', E', .kept hredo, rfl, hext.trans hext', hE'⟩
  | logged hlogs hredo htakes =>
    refine ⟨s.append fields, rt', E', .logged hlogs hredo (htakes.congr rfl rfl), ?_, hext.trans hext', hE'⟩
    cases hw : s.aofWriter <;> simp [Server.append, hw, Server.aofFile]
  | saved hname htarget hlists hsize =>
    exact ⟨_, rt', E', .saved hname htarget hlists hsize, rfl, hext.trans hext', hE'⟩

theorem Server.Took.later (h : s.Took M source fields s') (hext : s'.rt.Extends rt₁) :
    s.Took M source fields { s' with rt := rt₁ } := by
  obtain ⟨s₀, rt', E', hleaves, rfl, hext', hE'⟩ := h
  exact ⟨s₀, rt₁, E', hleaves, rfl, hext'.trans hext, hE'.later hext.mallocs⟩

end

def Server.Exits (s : Server) (M : Maps) (fields : List Bytes) (e : Stop) : Prop :=
  e = .exit ∧ (M.redo fields).isSome ∧ ¬s.LogTakes fields

theorem Server.Exits.earlier {s : Server} {fields : List Bytes} {e : Stop}
    (h : Server.Exits { s with rt := rt₁ } M fields e) : s.Exits M fields e :=
  ⟨h.1, h.2.1, fun htakes => h.2.2 (htakes.congr rfl rfl)⟩

theorem perform_ok_isWrite (h : (M.perform cmd k v).2 = .ok) : cmd.op.isWrite = true := by
  obtain ⟨e, op⟩ := cmd
  cases op with
  | set | mod | del => rfl
  | exist =>
    simp only [Maps.perform] at h
    split at h <;> contradiction
  | get => contradiction

theorem perform_unchanged (h : (M.perform cmd k v).2 ≠ .ok) : (M.perform cmd k v).1 = M := by
  obtain ⟨e, op⟩ := cmd
  cases op with
  | set | mod | del =>
    simp only [Maps.perform] at h ⊢
    split at h
    · contradiction
    · rename_i hno
      rw [if_neg hno]
  | exist | get => rfl

structure Dispatched (fields : List Bytes) (cmd : CommandId) : Prop where
  plain : ¬∃ field ∈ fields, 0 ∈ field
  found : findCommand (fields.headD []) = some cmd
  arity : fields.length = cmd.op.arity

namespace Dispatched

theorem count (h : Dispatched fields cmd) : fields.length = 2 ∨ fields.length = 3 := by
  rw [h.arity]
  cases cmd.op <;> simp [Op.arity]

theorem key (h : Dispatched fields cmd) : fields[1]? = some (fields.getD 1 []) := by
  have hlen := h.count
  rw [List.getD_eq_getElem?_getD, List.getElem?_eq_getElem (by omega)]
  rfl

theorem value (h : Dispatched fields cmd) (harity : cmd.op.arity = 3) :
    fields[2]? = some (fields.getD 2 []) := by
  have hlen := h.arity
  rw [List.getD_eq_getElem?_getD, List.getElem?_eq_getElem (by omega)]
  rfl

theorem redo (h : Dispatched fields cmd) (M : Maps) (hadmits : cmd.engine.Admits (fields.getD 1 [])) :
    M.redo fields =
      if (M.perform cmd (fields.getD 1 []) (fields.getD 2 [])).2 = .ok then
        some (M.perform cmd (fields.getD 1 []) (fields.getD 2 [])).1
      else none := by
  unfold Maps.redo logged
  simp only [h.plain, if_false, h.found, h.arity, and_true]
  by_cases hw : cmd.op.isWrite = true
  · simp only [hw, if_true, hadmits, true_and]
  · simp only [hw, Bool.false_eq_true, if_false]
    rw [if_neg fun hok => hw (perform_ok_isWrite hok)]

theorem getD_redo (h : Dispatched fields cmd) (M : Maps)
    (hadmits : cmd.engine.Admits (fields.getD 1 [])) :
    (M.redo fields).getD M = (M.perform cmd (fields.getD 1 []) (fields.getD 2 [])).1 := by
  rw [h.redo M hadmits]
  split
  · rfl
  · rename_i hno
    exact (perform_unchanged hno).symm

end Dispatched

def Server.OutOfMemory (s s' : Server) : Prop :=
  s.rt.CanFail ∧ ∃ rt', s.rt.Extends rt' ∧ s' = { s with rt := rt' }

def Server.LogFails (s : Server) (M : Maps) (source : CommandSource) (fields : List Bytes)
    (e : Stop) : Prop :=
  e = .exit ∧ s.Logs source ∧ (M.redo fields).isSome ∧ (s.rt.CanFail ∨ ¬s.LogTakes fields)

theorem Server.LogFails.exits {s : Server} {M : Maps} {fields : List Bytes} {e : Stop}
    (h : s.LogFails M source fields e) (hfail : ¬s.rt.CanFail) : s.Exits M fields e :=
  ⟨h.1, h.2.2.1, h.2.2.2.resolve_left hfail⟩

/-- An operation other than `get`: the text is short, and what succeeded is in
the log. -/
theorem kvsFilterProtocol_spec (h : s.engines.Hold s.rt.mallocs M)
    (hcmd : Dispatched fields cmd) (hadmits : cmd.engine.Admits (fields.getD 1 []))
    (hop : cmd.op ≠ .get) (hallowed : ¬(s.role = .replica ∧ source = .client ∧ cmd.op.isWrite))
    (hlog : s.Logs source → s.aofWriter.isSome) :
    Triple (kvsFilterProtocol fields source .failed) s (fun r s' =>
      (s.Took M source fields s' ∧
        r.2 = (M.perform cmd (fields.getD 1 []) (fields.getD 2 [])).2 ∨
        s.OutOfMemory s' ∧ r.2 = .failed) ∧
      0 < r.1.length ∧ r.1.length ≤ 10) (s.LogFails M source fields) := by
  unfold kvsFilterProtocol
  refine Triple.get_bind ?_
  simp only [hcmd.found, hallowed, hop, if_false, hcmd.key]
  have hrun := runEngine_spec h hadmits hop fun harity => hcmd.value harity
  refine (hrun.mono (fun _ _ h => h) fun _ h => h.elim).bind fun ret s1 h1 => ?_
  obtain ⟨rt1, E1, rfl, hext1, hcases⟩ := h1
  have htext : 0 < (filterText cmd.op ret).length ∧ (filterText cmd.op ret).length ≤ 10 := by
    unfold filterText
    cases hop' : cmd.op with
    | get => exact absurd hop' hop
    | set | del | mod => simp only; split <;> (try split) <;> decide
    | exist => simp only; split <;> decide
  obtain ⟨hE1, hstatus, hok⟩ | ⟨hcan, hneg, rfl⟩ := hcases
  · rw [← hcmd.getD_redo M hadmits] at hE1
    refine Triple.ite ?_ ?_
    · rintro ⟨hret, hwrite, hsource, hmode⟩
      have hredo : (M.redo fields).isSome := by
        rw [hcmd.redo M hadmits, if_pos (hok.mp ⟨hret, hwrite⟩)]
        rfl
      obtain ⟨writer, hw⟩ := Option.isSome_iff_exists.mp (hlog ⟨hsource, hmode⟩)
      have happend := kvsAofAppend_spec (s := { s with rt := rt1, engines := E1 }) hw hcmd.count
      refine (happend.mono (fun _ _ h => h) fun _ h => h.elim).bind fun r s2 h2 => ?_
      obtain ⟨rfl, htakes, rt2, hext2, rfl⟩ | ⟨rfl, hwhy⟩ := h2
      · refine Triple.pure ⟨.inl ⟨⟨s.append fields, rt2, E1, .logged ⟨hsource, hmode⟩ hredo
          (htakes.congr rfl rfl), ?_, hext1.trans hext2, hE1.later hext2.mallocs⟩, hstatus⟩, htext⟩
        simp [Server.append, hw, Server.aofFile]
      · refine Triple.throw ⟨rfl, ⟨hsource, hmode⟩, hredo, hwhy.imp hext1.canFail fun hno htakes => ?_⟩
        exact hno (htakes.congr rfl rfl)
    · intro hnot
      refine Triple.pure ⟨.inl ⟨⟨s, rt1, E1, .kept fun hlogs => ?_, rfl, hext1, hE1⟩, hstatus⟩, htext⟩
      have hne : ¬(M.perform cmd (fields.getD 1 []) (fields.getD 2 [])).2 = .ok := fun hperform =>
        hnot ⟨(hok.mpr hperform).1, (hok.mpr hperform).2, hlogs⟩
      rw [hcmd.redo M hadmits, if_neg hne]
  · rw [if_neg fun h => by omega]
    refine Triple.pure ⟨.inr ⟨⟨hcan, rt1, hext1, rfl⟩, ?_⟩, htext⟩
    simp [filterStatus, hneg]

-- ---------------------------------------------------------------------------
-- Tokens
-- ---------------------------------------------------------------------------

theorem copyTokens_spec (hfail : ¬Runtime.CanFail rt) (fields : List Bytes) (tokens : List CString) :
    Triple (copyTokens fields tokens) rt (fun r rt' => rt.Extends rt' ∧
      ∃ all, r = some all ∧ all.map (·.bytes) = tokens.map (·.bytes) ++ fields) Never := by
  induction fields generalizing tokens rt with
  | nil => exact Triple.pure ⟨.refl rt, tokens, rfl, by simp⟩
  | cons field fields ih =>
    refine (copyString_spec field rt).bind fun r rt1 h1 => ?_
    obtain ⟨hext1, ⟨-, hcan⟩ | ⟨token, rfl, hbytes, -⟩⟩ := h1
    · exact absurd hcan hfail
    refine (ih (fun hcan => hfail (hext1.canFail hcan)) (tokens ++ [token])).weaken
      fun r rt2 h2 => ?_
    obtain ⟨hext2, all, rfl, hall⟩ := h2
    exact ⟨hext1.trans hext2, all, rfl, by simp [hall, hbytes]⟩

theorem freeTokens_spec (tokens : List CString) (rt : Runtime) :
    Triple (freeTokens tokens) rt (fun _ rt' => rt.Extends rt') Never := by
  induction tokens generalizing rt with
  | nil => exact Runtime.Extends.refl rt
  | cons token tokens ih =>
    refine (kvsFree_spec token.ptr rt).bind fun _ rt1 h1 => ?_
    exact (ih rt1).weaken fun _ rt2 h2 => h1.1.trans h2

theorem kvsFieldsToTokens_spec (hfail : ¬Runtime.CanFail rt) (hne : fields.length ≠ 0)
    (hcount : fields.length ≤ kvsMaxTokens) (hplain : ¬∃ field ∈ fields, 0 ∈ field) :
    Triple (kvsFieldsToTokens fields) rt (fun r rt' => rt.Extends rt' ∧
      ∃ tokens, r = some tokens ∧ tokens.map (·.bytes) = fields) Never := by
  unfold kvsFieldsToTokens
  rw [if_neg fun h => h.elim hne fun h => h.elim (Nat.not_lt.mpr hcount) hplain]
  exact (copyTokens_spec hfail fields []).weaken fun r rt' h => by simpa using h

variable {output : OutputBuffer}

theorem kvsExecuteFields_spec {P : Executed → Prop} (hfail : ¬s.rt.CanFail) (hne : fields.length ≠ 0)
    (hcount : fields.length ≤ kvsMaxTokens) (hplain : ¬∃ field ∈ fields, 0 ∈ field)
    (hcap : 0 < output.storage.capacity) (hlen : output.data.length ≤ output.storage.capacity)
    (hexecute : ∀ rt₁, s.rt.Extends rt₁ → Triple (executeTokens fields output source)
      { s with rt := rt₁ } (fun ex s' => Server.Took { s with rt := rt₁ } M source fields s' ∧ P ex)
      (Server.Exits { s with rt := rt₁ } M fields)) :
    Triple (kvsExecuteFields fields output source) s
      (fun ex s' => s.Took M source fields s' ∧ P ex) (s.Exits M fields) := by
  unfold kvsExecuteFields
  rw [if_neg (by omega), if_neg hplain]
  refine onRuntime_bind (kvsFieldsToTokens_spec hfail hne hcount hplain) fun r rt₁ hr => ?_
  obtain ⟨hext, tokens, rfl, htokens⟩ := hr
  simp only [htokens]
  refine ((hexecute rt₁ hext).mono (fun _ _ h => h) fun _ h => h.earlier).bind fun ex s' h => ?_
  obtain ⟨htook, hP⟩ := h
  refine onRuntime_bind (freeTokens_spec tokens s'.rt) fun _ rt₂ hext₂ => ?_
  exact Triple.pure ⟨(htook.earlier hext).later hext₂, hP⟩

-- ---------------------------------------------------------------------------
-- Replies
-- ---------------------------------------------------------------------------

/-- The output buffer of a client as the handler finds it. -/
structure OutputBuffer.Ready (output : OutputBuffer) : Prop where
  offset : output.offset ≤ output.data.length
  room : output.data.length + bufferLength ≤ output.storage.capacity
  capacity : output.storage.capacity ≤ intMax
  pending : output.data.length < ntycoReplyBatchThreshold

/-- The handler wrote `bytes` behind the waiting replies; the buffer may have
grown for it. -/
structure Executed.Replies (ex : Executed) (output : OutputBuffer) (bytes : Bytes) : Prop where
  reply : ex.reply = some bytes
  data : ex.output.data = output.data
  offset : ex.output.offset = output.offset
  fits : output.data.length + bytes.length ≤ ex.output.storage.capacity
  capacity : ex.output.storage.capacity ≤ intMax

theorem replies_short (hready : output.Ready) (reply : Bytes) (hshort : reply.length ≤ bufferLength)
    (status : ExecStatus) :
    Executed.Replies ⟨replyIfFits output.available reply, output, status⟩ output reply := by
  have hroom := hready.room
  refine ⟨?_, rfl, rfl, by simp only; omega, hready.capacity⟩
  rw [replyIfFits, if_neg]
  simp only [OutputBuffer.available]
  omega

/-- The sizes a client's commands can leave in the maps. -/
def Maps.Sized (M : Maps) : Prop :=
  ∀ e k v, (M e).lookup k = some v → 0 ∉ k ∧ 0 ∉ v ∧
    k.length ≤ kvsMaxClientCommandBytes ∧ v.length ≤ kvsMaxClientCommandBytes

theorem Maps.Sized.storable (h : Maps.Sized M) : M.Storable := by
  intro e k v hv
  obtain ⟨hk, hv', hklen, hvlen⟩ := h e k v hv
  have hmax : kvsMaxClientCommandBytes < 2 ^ 32 := by decide
  exact ⟨hk, hv', by omega, by omega⟩

theorem kvsEncodeValueToOutput_spec {rt : Runtime} (hfail : ¬rt.CanFail) (hready : output.Ready)
    (value : Bytes) (hvalue : value.length ≤ kvsMaxClientCommandBytes) (status : ExecStatus) :
    Triple (kvsEncodeValueToOutput output value) rt (fun r rt' => rt.Extends rt' ∧
      Executed.Replies ⟨r.1, r.2, status⟩ output (encodeField value)) Never := by
  have hroom := hready.room
  have hpending := hready.pending
  have hlen : (encodeField value).length ≤ 2 ^ 20 + 25 := by
    have hdigits := decimalDigits_le_twenty (Nat.le_trans hvalue (by decide : _ ≤ sizeMax))
    rw [length_encodeField]
    unfold kvsMaxClientCommandBytes at hvalue
    omega
  have hsize : kvsEncodedValueResponseSize value = some (encodeField value).length := by
    rw [kvsEncodedValueResponseSize, encodedFieldSize_eq, if_pos]
    exact Nat.le_trans hlen (by decide)
  have hint : output.data.length + (encodeField value).length ≤ intMax := by
    simp only [ntycoReplyBatchThreshold, intMax] at hpending ⊢
    omega
  have hpos : 0 < (encodeField value).length := by simp [encodeField]
  unfold kvsEncodeValueToOutput
  rw [if_neg (by omega)]
  simp only [hsize]
  rw [if_neg (by omega)]
  refine (kvsOutputBufferEnsureSpace_spec hfail hready.offset (by omega) hready.capacity hpos
    hint).bind fun r rt' h => ?_
  obtain ⟨hext, storage, rfl, hfits, hcap⟩ := h
  have hencode : kvsEncodeValueResponse value (storage.capacity - output.data.length) =
      some (encodeField value) := by
    rw [kvsEncodeValueResponse, hsize]
    exact if_neg (by omega)
  simp only [OutputBuffer.available, hencode]
  rw [if_neg (by omega)]
  exact Triple.pure ⟨hext, rfl, rfl, rfl, hfits, hcap⟩

end KvStore
