import KvStore.Server.ClientLaws

/-!
# What a command leaves behind when nothing is assumed

The commands once more, with memory that may run out at any request, replies
that may not fit and keys the hash table may have no bucket for. A command
either is a write that took effect, or it changes no map and no log. Everything
that runs commands (clients, recovery, replication) is built on this one
statement.
-/

namespace KvStore

open Lib

def Server.Declines (s : Server) (M : Maps) (source : CommandSource) (fields : List Bytes) : Prop :=
  M.redo fields = none ∨ s.rt.CanFail ∨ s.role = .replica ∧ source = .client

def Saves (M : Maps) (offset : Option Nat) (file : Bytes) : Prop :=
  M.Storable → ∃ records, Lists M records ∧ M.snapshotSize ≤ offMax ∧ file = savedFile offset records

/-- What a command left behind; `true` for a write that took effect. -/
inductive Server.Outcome (s : Server) (M : Maps) (source : CommandSource) (fields : List Bytes) :
    Bool → Server → Prop
  | done : s.Took M source fields s' → (M.redo fields).isSome → s.Outcome M source fields true s'
  | idle : s.Declines M source fields → s.rt.Extends rt' → E'.Hold rt'.mallocs M →
    s.Outcome M source fields false { s with rt := rt', engines := E' }
  | saved : source = .client → findCommand (fields.headD []) = none →
    s.snapshotTarget = some (path, offset) → s.rt.Extends rt' → Saves M offset file →
    s.Outcome M source fields false { s with rt := rt', disk := s.disk.write path file }

def Server.Stops (s : Server) (M : Maps) (source : CommandSource) (fields : List Bytes)
    (e : Stop) : Prop :=
  s.LogFails M source fields e ∨
    e = .undefined ∧ ∃ cmd, Dispatched fields cmd ∧ ¬cmd.engine.Admits (fields.getD 1 [])

variable {s s' : Server} {M : Maps} {cmd : CommandId} {fields : List Bytes}
  {source : CommandSource} {output : OutputBuffer}

theorem Server.Outcome.memory (h : s.engines.Hold s.rt.mallocs M) (hwhy : s.Declines M source fields)
    (hext : s.rt.Extends rt') : s.Outcome M source fields false { s with rt := rt' } :=
  .idle hwhy hext (h.later hext.mallocs)

theorem Server.Outcome.earlier (h : Server.Outcome { s with rt := rt₁ } M source fields b s')
    (hext : s.rt.Extends rt₁) : Server.Outcome s M source fields b s' := by
  cases h with
  | done htook hredo => exact .done (htook.earlier hext) hredo
  | idle hwhy hext' hE =>
    exact .idle (hwhy.imp_right (.imp_left hext.canFail)) (hext.trans hext') hE
  | saved hclient hname htarget hext' hsaves => exact .saved hclient hname htarget (hext.trans hext') hsaves

theorem Server.Outcome.later (h : Server.Outcome s M source fields b s')
    (hext : s'.rt.Extends rt₁) : Server.Outcome s M source fields b { s' with rt := rt₁ } := by
  cases h with
  | done htook hredo => exact .done (htook.later hext) hredo
  | idle hwhy hext' hE => exact .idle hwhy (hext'.trans hext) (hE.later hext.mallocs)
  | saved hclient hname htarget hext' hsaves => exact .saved hclient hname htarget (hext'.trans hext) hsaves

theorem Server.Stops.earlier (h : Server.Stops { s with rt := rt₁ } M source fields e)
    (hext : s.rt.Extends rt₁) : Server.Stops s M source fields e := by
  obtain ⟨hexit, hlogs, hredo, hwhy⟩ | hundefined := h
  · refine .inl ⟨hexit, hlogs, hredo, hwhy.imp hext.canFail fun hno htakes => ?_⟩
    exact hno (htakes.congr rfl rfl)
  · exact .inr hundefined

theorem Server.Took.outcome (h : s.Took M source fields s') (hcmd : Dispatched fields cmd)
    (hadmits : cmd.engine.Admits (fields.getD 1 [])) :
    s.Outcome M source fields
      (decide ((M.perform cmd (fields.getD 1 []) (fields.getD 2 [])).2 = .ok)) s' := by
  have hredo := hcmd.redo M hadmits
  by_cases hok : (M.perform cmd (fields.getD 1 []) (fields.getD 2 [])).2 = .ok
  · rw [if_pos hok] at hredo
    simp only [hok, decide_true]
    exact .done h (by rw [hredo]; rfl)
  · rw [if_neg hok] at hredo
    simp only [hok, decide_false]
    obtain ⟨s₀, rt', E', hleaves, rfl, hext, hE⟩ := h
    rw [hredo] at hE
    cases hleaves with
    | kept => exact .idle (.inl hredo) hext hE
    | logged _ hsome => simp [hredo] at hsome
    | saved hname =>
      rw [hcmd.found] at hname
      cases hname

-- ---------------------------------------------------------------------------
-- The engine of a command
-- ---------------------------------------------------------------------------

theorem kvsGetValue_undefined (h : ¬EngineId.Admits e k) :
    Triple (kvsGetValue e k) s (fun _ _ => False) (· = .undefined) := by
  have hundefined := EngineId.undefined_of_not_admits h (s.engines e) s.rt
  exact Triple.get_bind (onRuntime_triple (Triple.of_stop hundefined.get rfl))

theorem runEngine_undefined (h : ¬cmd.engine.Admits k) (hop : cmd.op ≠ .get)
    (hvalue : cmd.op.arity = 3 → value = some v) :
    Triple (runEngine cmd (some k) value) s (fun _ _ => False) (· = .undefined) := by
  obtain ⟨e, op⟩ := cmd
  have hundefined := EngineId.undefined_of_not_admits h (s.engines e) s.rt
  have hwrite : ∀ {m : Run (Int × e.Instance)} {f : Int × e.Instance → Serve Int},
      m s.rt = .error .undefined →
      Triple (onRuntime m >>= f) s (fun _ _ => False) (· = .undefined) := by
    intro m f hm
    have hstop : Triple (onRuntime m) s (fun _ _ => False) (· = .undefined) :=
      onRuntime_triple (Triple.of_stop hm rfl)
    exact hstop.bind fun _ _ h => h.elim
  unfold runEngine
  refine Triple.get_bind ?_
  cases op with
  | get => exact absurd rfl hop
  | set =>
    simp only [hvalue rfl]
    exact hwrite (hundefined.set v)
  | mod =>
    simp only [hvalue rfl]
    exact hwrite (hundefined.mod v)
  | del => exact hwrite hundefined.del
  | exist => exact onRuntime_triple (Triple.of_stop hundefined.exist rfl)

theorem kvsFilterProtocol_effect (h : s.engines.Hold s.rt.mallocs M) (hcmd : Dispatched fields cmd)
    (hop : cmd.op ≠ .get) (hlog : s.Logs source → s.aofWriter.isSome) :
    Triple (kvsFilterProtocol fields source .failed) s (fun r s' =>
      ∃ done, s.Outcome M source fields done s' ∧ (r.2 = .ok ↔ done = true) ∧
        0 < r.1.length ∧ r.1.length ≤ 48) (s.Stops M source fields) := by
  by_cases hreadonly : s.role = .replica ∧ source = .client ∧ cmd.op.isWrite
  · unfold kvsFilterProtocol
    refine Triple.get_bind ?_
    simp only [hcmd.found, hreadonly, true_and, if_true]
    exact Triple.pure ⟨false, .memory h (.inr (.inr ⟨hreadonly.1, rfl⟩)) (.refl _),
      by decide, by decide, by decide⟩
  by_cases hadmits : cmd.engine.Admits (fields.getD 1 [])
  · refine (kvsFilterProtocol_spec h hcmd hadmits hop hreadonly hlog).mono ?_ fun _ => .inl
    rintro r s' ⟨⟨htook, hstatus⟩ | ⟨⟨hcan, rt', hext, rfl⟩, hstatus⟩, hpos, hlen⟩
    · exact ⟨_, htook.outcome hcmd hadmits, by simp [hstatus], hpos, by omega⟩
    · exact ⟨false, .memory h (.inr (.inl hcan)) hext, by simp [hstatus], hpos, by omega⟩
  · unfold kvsFilterProtocol
    refine Triple.get_bind ?_
    simp only [hcmd.found, hreadonly, hop, if_false, hcmd.key]
    have hstop : Triple (runEngine cmd (some (fields.getD 1 [])) fields[2]?) s (fun _ _ => False)
        (s.Stops M source fields) :=
      (runEngine_undefined hadmits hop fun harity => hcmd.value harity).mono (fun _ _ h => h)
        fun _ hstop => .inr ⟨hstop, cmd, hcmd, hadmits⟩
    exact hstop.bind fun _ _ h => h.elim

-- ---------------------------------------------------------------------------
-- Reading and saving
-- ---------------------------------------------------------------------------

theorem kvsEncodeValueToOutput_onlyMemory (output : OutputBuffer) (value : Bytes) :
    OnlyMemory (kvsEncodeValueToOutput output value) rt := by
  unfold kvsEncodeValueToOutput
  refine .ite (.pure _) ?_
  cases kvsEncodedValueResponseSize value with
  | none => exact .pure _
  | some required =>
    refine .ite (.pure _) (.bind (kvsOutputBufferEnsureSpace_onlyMemory _ _) fun r => ?_)
    cases r with
    | none => exact .pure _
    | some output =>
      dsimp only
      split <;> exact .pure _

theorem redo_of_read (h : findCommand (fields.headD []) = some cmd) (hread : cmd.op.isWrite = false) :
    M.redo fields = none := by
  unfold Maps.redo logged
  simp only [h, hread, Bool.false_eq_true, false_and, if_false, ite_self]

theorem getReply_effect (h : s.engines.Hold s.rt.mallocs M) (hcmd : Dispatched fields cmd)
    (hop : cmd.op = .get) (capacity : Nat) :
    Triple (getReply cmd.engine (fields.getD 1 []) output capacity) s
      (fun _ s' => s.Outcome M source fields false s') (s.Stops M source fields) := by
  have hredo : s.Declines M source fields := .inl (redo_of_read hcmd.found (by rw [hop]; rfl))
  by_cases hadmits : cmd.engine.Admits (fields.getD 1 [])
  · unfold getReply kvsGetValue
    simp only [bind_assoc]
    refine Triple.get_bind (onRuntime_bind (cmd.engine.lawful.get (h _) hadmits) fun r rt' hr => ?_)
    obtain ⟨rfl, rfl⟩ := hr
    cases (M cmd.engine).lookup (fields.getD 1 []) with
    | none => exact Triple.pure (.memory h hredo (.refl _))
    | some value =>
      refine onRuntime_triple ((kvsEncodeValueToOutput_onlyMemory output value s.rt (.refl _)).mono
        (fun _ _ hext => .memory h hredo hext) fun _ h => h.elim)
  · have hstop : Triple (kvsGetValue cmd.engine (fields.getD 1 [])) s (fun _ _ => False)
        (s.Stops M source fields) :=
      (kvsGetValue_undefined hadmits).mono (fun _ _ h => h)
        fun _ hstop => .inr ⟨hstop, cmd, hcmd, hadmits⟩
    exact hstop.bind fun _ _ h => h.elim

theorem foreach_onlyMemory {E : Engines} (h : E.Hold rt.mallocs M) (e : EngineId) :
    OnlyMemory (e.ops.foreach (E e)) rt := by
  intro rt₁ hext
  refine (e.lawful.foreach ((h.later hext.mallocs) e)).weaken fun pairs rt₂ hr => ?_
  rw [hr.1]

theorem snapshotCountRecords_onlyMemory {E : Engines} (h : E.Hold rt.mallocs M)
    (es : List EngineId) (count : Nat) : OnlyMemory (snapshotCountRecords E es count) rt := by
  induction es generalizing count with
  | nil => exact .pure _
  | cons e es ih =>
    refine .bind (foreach_onlyMemory h e) fun items => ?_
    cases items.foldlM snapshotCountItem count with
    | none => exact .pure _
    | some count => exact ih count

theorem snapshotWriteRecords_onlyMemory {E : Engines} (h : E.Hold rt.mallocs M)
    (es : List EngineId) (out : SnapshotOutput) : OnlyMemory (snapshotWriteRecords E es out) rt := by
  induction es generalizing out with
  | nil => exact .pure _
  | cons e es ih =>
    refine .bind (foreach_onlyMemory h e) fun items => ?_
    cases items.foldlM (snapshotWriteRecord e) out with
    | none => exact .pure _
    | some out => exact ih out

theorem snapshotWriteContents_onlyMemory {E : Engines} (h : E.Hold rt.mallocs M)
    (writer : SnapshotWriter) : OnlyMemory (snapshotWriteContents E writer) rt := by
  refine .bind (snapshotCountRecords_onlyMemory h _ _) fun count => ?_
  cases count with
  | none => exact .pure _
  | some count =>
    dsimp only
    cases snapshotWriteHeader (writer, crcStart) count with
    | none => exact .pure _
    | some out =>
      refine .bind (snapshotWriteRecords_onlyMemory h _ _) fun r => ?_
      cases r <;> exact .pure _

theorem kvsSnapshotStoreSaveWithCheckpoint_onlyMemory {E : Engines} (h : E.Hold rt.mallocs M)
    (checkpoint : Option SnapshotCheckpoint) :
    OnlyMemory (kvsSnapshotStoreSaveWithCheckpoint E checkpoint) rt := by
  have hdirectory : OnlyMemory snapshotOpenParentDirectory rt := by
    refine .bind .malloc fun r => ?_
    cases r with
    | none => exact .pure _
    | some p => exact .bind (.free p) fun _ => .pure _
  refine .bind .malloc fun r => ?_
  cases r with
  | none => exact .pure _
  | some tempPath =>
    refine .bind hdirectory fun opened => .ite (.bind .malloc fun r => ?_)
      (.bind (.free _) fun _ => .pure _)
    cases r with
    | none => exact .bind (.free _) fun _ => .pure _
    | some buffer =>
      refine .bind (snapshotWriteContents_onlyMemory h _) fun written => ?_
      exact .bind (.free _) fun _ => .bind (.free _) fun _ => .pure _

theorem kvsSnapshotStoreSaveWithCheckpoint_effect {E : Engines} (h : E.Hold rt.mallocs M)
    (offset : Option Nat) :
    Triple (kvsSnapshotStoreSaveWithCheckpoint E (offset.map .ofAof)) rt
      (fun r rt' => rt.Extends rt' ∧ ∀ file ∈ r, Saves M offset file) Never := by
  by_cases hM : M.Storable
  · refine (kvsSnapshotStoreSaveWithCheckpoint_saves h hM.lengths offset).weaken fun r rt' hr => ?_
    obtain ⟨hext, ⟨rfl, -⟩ | ⟨records, hlists, rfl⟩⟩ := hr
    · exact ⟨hext, nofun⟩
    · refine ⟨hext, fun file hfile _ => ⟨records, hlists, ?_⟩⟩
      split at hfile
      · rename_i hsize
        exact ⟨hsize, (Option.some.inj hfile).symm⟩
      · cases hfile
  · refine (kvsSnapshotStoreSaveWithCheckpoint_onlyMemory h _ rt (.refl _)).weaken fun r rt' hext => ?_
    exact ⟨hext, fun _ _ hno => absurd hno hM⟩

theorem kvsSaveCurrentSnapshot_effect (h : s.engines.Hold s.rt.mallocs M)
    (hname : findCommand (fields.headD []) = none) :
    Triple kvsSaveCurrentSnapshot s (fun _ s' => s.Outcome M .client fields false s') Never := by
  have hredo : s.Declines M .client fields := .inl (redo_of_not_found hname)
  unfold kvsSaveCurrentSnapshot
  refine Triple.get_bind ?_
  cases hmode : s.persistenceMode with
  | aof => exact Triple.pure (.memory h hredo (.refl _))
  | snapshot =>
    refine onRuntime_bind (kvsSnapshotStoreSaveWithCheckpoint_effect h none) fun r rt' hr => ?_
    obtain ⟨hext, hsaves⟩ := hr
    cases r with
    | none => exact Triple.pure (.memory h hredo hext)
    | some file =>
      have htarget : s.snapshotTarget = some (.snapshotBin, none) := by
        simp [Server.snapshotTarget, hmode]
      exact .saved rfl hname htarget hext (hsaves file rfl)
  | legacyHybrid =>
    cases hw : s.aofWriter with
    | none =>
      simp only [Server.aofOffset, hw, Option.map_none]
      exact Triple.pure (.memory h hredo (.refl _))
    | some writer =>
      simp only [Server.aofOffset, hw, Option.map_some]
      have hsave := kvsSnapshotStoreSaveWithCheckpoint_effect h (some writer.offset)
      refine onRuntime_bind hsave fun r rt' hr => ?_
      obtain ⟨hext, hsaves⟩ := hr
      cases r with
      | none => exact Triple.pure (.memory h hredo hext)
      | some file =>
        have htarget : s.snapshotTarget = some (.snapshotDb, some writer.offset) := by
          simp [Server.snapshotTarget, hmode, hw]
        exact .saved rfl hname htarget hext (hsaves file rfl)

-- ---------------------------------------------------------------------------
-- Every command
-- ---------------------------------------------------------------------------

def replyRoom : Nat := 48

structure Executed.Tells (ex : Executed) (output : OutputBuffer) (source : CommandSource)
    (fields : List Bytes) (done : Bool) : Prop where
  done_of_ok : ex.status = .ok → done = true
  ok_of_done : replyRoom < output.available → done = true → ex.status = .ok
  text : ex.status = .ok → source ≠ .client →
    ∃ text, ex.reply = some text ∧ 0 < text.length ∧ text.length ≤ replyRoom
  reply : replyRoom < output.available → source = .client → ∀ cmd,
    findCommand (fields.headD []) = some cmd → cmd.op.isWrite →
      (ex.reply = some (clientReply cmd.op .ok) ↔ done = true)

theorem Executed.Tells.nothing {ex : Executed} (hstatus : ex.status = .failed)
    (hreply : source = .client → ∀ cmd, findCommand (fields.headD []) = some cmd →
      cmd.op.isWrite → ex.reply ≠ some (clientReply cmd.op .ok)) :
    ex.Tells output source fields false :=
  ⟨by simp [hstatus], by simp, by simp [hstatus], fun _ hclient cmd hfound hwrite =>
    by simpa using hreply hclient cmd hfound hwrite⟩

theorem clientReply_eq_ok (hwrite : op.isWrite = true) :
    clientReply op status = clientReply op .ok ↔ status = .ok := by
  cases op with
  | set | mod | del => cases status <;> decide
  | get | exist => cases hwrite

theorem replyIfFits_eq_some : replyIfFits capacity reply = some r ↔ reply.length ≤ capacity ∧ reply = r := by
  unfold replyIfFits
  split
  · simp; omega
  · simp; omega

theorem length_clientReply_ok (op : Op) : (clientReply op .ok).length ≤ replyRoom := by
  cases op <;> decide

theorem runCommand_effect (h : s.engines.Hold s.rt.mallocs M) (hcmd : Dispatched fields cmd)
    (hlog : s.Logs source → s.aofWriter.isSome) :
    Triple (runCommand fields (some cmd) output source) s (fun ex s' =>
      ∃ done, s.Outcome M source fields done s' ∧ ex.Tells output source fields done)
      (s.Stops M source fields) := by
  by_cases hop : cmd.op = .get
  · obtain ⟨e, op⟩ := cmd
    obtain rfl : op = .get := hop
    obtain ⟨name, key, rfl⟩ : ∃ name key, fields = [name, key] := List.length_eq_two.mp hcmd.arity
    have hget : Triple (getReply e key output output.available) s
        (fun _ s' => s.Outcome M source [name, key] false s') (s.Stops M source [name, key]) :=
      getReply_effect h hcmd rfl _
    refine hget.bind fun r s' houtcome => Triple.pure ⟨false, houtcome, ?_⟩
    refine Executed.Tells.nothing rfl fun _ cmd hfound hwrite => ?_
    rw [hcmd.found, Option.some.injEq] at hfound
    subst hfound
    cases hwrite
  · unfold runCommand
    split
    · rename_i hget
      simp only [Option.some.injEq] at hget
      exact absurd (by rw [hget]) hop
    · unfold kvsExecuteTokens
      simp only [bind_assoc, pure_bind]
      refine (kvsFilterProtocol_effect h hcmd hop hlog).bind fun r s' hr => ?_
      obtain ⟨done, houtcome, hstatus, hpos, hlen⟩ := hr
      by_cases hfits : r.1.length ≥ output.available
      · simp only [hfits, if_true, Option.isSome_none, Bool.false_eq_true, if_false]
        refine Triple.pure ⟨done, houtcome, by simp, ?_, by simp, ?_⟩
        · intro hroom
          unfold replyRoom at hroom
          omega
        · intro hroom
          unfold replyRoom at hroom
          omega
      · simp only [hfits, if_false, Option.isSome_some, if_true]
        have htext : 0 < r.1.length ∧ r.1.length ≤ replyRoom := ⟨hpos, hlen⟩
        cases source with
        | client =>
          refine Triple.pure ⟨done, houtcome, hstatus.mp, fun _ => hstatus.mpr, by simp, ?_⟩
          intro hroom _ cmd' hfound hwrite
          rw [hcmd.found, Option.some.injEq] at hfound
          subst hfound
          simp only [replyIfFits_eq_some, clientReply_eq_ok hwrite, ← hstatus]
          refine ⟨fun h => h.2, fun hok => ⟨?_, hok⟩⟩
          rw [hok]
          have := length_clientReply_ok cmd.op
          omega
        | recovery | replication =>
          exact Triple.pure ⟨done, houtcome, hstatus.mp, fun _ => hstatus.mpr,
            fun _ _ => ⟨r.1, rfl, htext⟩, by simp⟩

theorem runCommand_unknown (h : s.engines.Hold s.rt.mallocs M)
    (hfound : findCommand (fields.headD []) = none) (hsource : source ≠ .client) :
    Triple (runCommand fields none output source) s (fun ex s' =>
      ∃ done, s.Outcome M source fields done s' ∧ ex.Tells output source fields done)
      (s.Stops M source fields) := by
  have hfilter : Triple (kvsFilterProtocol fields source .failed) s
      (fun r s' => s' = s ∧ r.2 = .failed) (s.Stops M source fields) := by
    unfold kvsFilterProtocol
    refine Triple.get_bind ?_
    simp only [hfound]
    exact Triple.pure ⟨rfl, rfl⟩
  unfold runCommand
  dsimp only
  unfold kvsExecuteTokens
  simp only [bind_assoc, pure_bind]
  refine hfilter.bind fun r s' hr => ?_
  obtain ⟨rfl, hstatus⟩ := hr
  have htells : ∀ reply, Executed.Tells ⟨reply, output, .failed⟩ output source fields false :=
    fun reply => .nothing rfl fun hclient => absurd hclient hsource
  have houtcome : Server.Outcome s' M source fields false s' :=
    .memory h (.inl (redo_of_not_found hfound)) (.refl _)
  by_cases hfits : r.1.length ≥ output.available
  · simp only [hfits, if_true, Option.isSome_none, Bool.false_eq_true, if_false]
    exact Triple.pure ⟨false, houtcome, htells _⟩
  · simp only [hfits, if_false, Option.isSome_some, if_true, hstatus]
    cases source with
    | client => exact absurd rfl hsource
    | recovery | replication => exact Triple.pure ⟨false, houtcome, htells _⟩

theorem reply_ne_ok (hhead : reply.head? ≠ some 43 ∧ reply.head? ≠ some 58)
    (hwrite : Op.isWrite op = true) : reply ≠ clientReply op .ok := by
  rintro rfl
  cases op with
  | set | mod | del => revert hhead; decide
  | get | exist => cases hwrite

theorem executeTokens_effect (h : s.engines.Hold s.rt.mallocs M)
    (hplain : ¬∃ field ∈ fields, 0 ∈ field) (hlog : s.Logs source → s.aofWriter.isSome) :
    Triple (executeTokens fields output source) s (fun ex s' =>
      ∃ done, s.Outcome M source fields done s' ∧ ex.Tells output source fields done)
      (s.Stops M source fields) := by
  -- a branch that answers at once
  have hidle : ∀ {reply : Option Bytes}, s.Declines M source fields → (source = .client → ∀ cmd,
      findCommand (fields.headD []) = some cmd → cmd.op.isWrite →
      reply ≠ some (clientReply cmd.op .ok)) →
      Triple (pure ⟨reply, output, .failed⟩ : Serve Executed) s (fun ex s' =>
        ∃ done, s.Outcome M source fields done s' ∧ ex.Tells output source fields done)
        (s.Stops M source fields) :=
    fun hwhy hreply => Triple.pure ⟨false, .memory h hwhy (.refl _), .nothing rfl hreply⟩
  have herror : ∀ {text : Bytes} {op : Op}, (text.head? ≠ some 43 ∧ text.head? ≠ some 58) →
      op.isWrite = true → replyIfFits output.available text ≠ some (clientReply op .ok) := by
    intro text op hhead hwrite heq
    exact reply_ne_ok hhead hwrite (replyIfFits_eq_some.mp heq).2
  unfold executeTokens
  refine Triple.get_bind ?_
  simp only [strcmp_eq_zero]
  refine Triple.ite ?_ ?_
  · rintro ⟨-, hname⟩
    have hnone : findCommand (fields.headD []) = none := by
      rw [hname]
      decide
    refine hidle (.inl (redo_of_not_found hnone)) fun _ cmd hfound => ?_
    rw [hnone] at hfound
    cases hfound
  intro _
  refine Triple.ite ?_ ?_
  · intro hloading
    exact hidle (.inr (.inr ⟨hloading.2.1, hloading.1⟩)) fun _ cmd _ hwrite => herror (by decide) hwrite
  intro _
  refine Triple.ite ?_ ?_
  · rintro ⟨rfl, hname⟩
    have hfound : findCommand (fields.headD []) = none := by
      rw [hname]
      decide
    have hsave : Triple (saveReply fields.length) s (fun _ s' => s.Outcome M .client fields false s')
        (s.Stops M .client fields) := by
      unfold saveReply
      refine Triple.ite (fun _ => Triple.pure
        (.memory h (.inl (redo_of_not_found hfound)) (.refl _))) fun _ => ?_
      have hcurrent : Triple kvsSaveCurrentSnapshot s
          (fun _ s' => s.Outcome M .client fields false s') (s.Stops M .client fields) :=
        (kvsSaveCurrentSnapshot_effect h hfound).mono (fun _ _ h => h) fun _ h => h.elim
      refine hcurrent.bind fun saved s' houtcome => ?_
      cases saved <;> exact Triple.pure houtcome
    refine hsave.bind fun reply s' houtcome => Triple.pure ⟨false, houtcome, .nothing rfl ?_⟩
    intro _ cmd hcmd
    rw [hfound] at hcmd
    cases hcmd
  intro _
  cases hfound : findCommand (fields.headD []) with
  | none =>
    refine Triple.ite (fun _ => ?_) fun hsource => runCommand_unknown h hfound hsource
    refine hidle (.inl (redo_of_not_found hfound)) fun _ cmd hcmd => ?_
    rw [hfound] at hcmd
    cases hcmd
  | some cmd =>
    refine Triple.ite (fun harity => ?_) fun harity => ?_
    · refine hidle (.inl (redo_of_arity hfound harity)) fun _ cmd' _ hwrite => ?_
      split
      · rw [ne_eq, Option.some.injEq]
        exact reply_ne_ok (by simp [ascii]) hwrite
      · exact fun h => by cases h
    · exact runCommand_effect h ⟨hplain, hfound, not_not.mp harity⟩ hlog

def Runtime.Grants (rt : Runtime) (n : Nat) : Prop := ∀ i < n, rt.mallocFails (rt.mallocs + i) = false

theorem Runtime.grants_succ (rt rt' : Runtime) (n : Nat) (hfails : rt'.mallocFails = rt.mallocFails)
    (hnext : rt'.mallocs = rt.mallocs + 1) :
    rt.Grants (n + 1) ↔ rt.mallocFails rt.mallocs = false ∧ rt'.Grants n := by
  constructor
  · intro h
    refine ⟨h 0 (Nat.succ_pos n), fun i hi => ?_⟩
    rw [hfails, hnext, Nat.add_assoc, Nat.add_comm 1 i]
    exact h (i + 1) (by omega)
  · rintro ⟨hzero, h⟩ i hi
    cases i with
    | zero => exact hzero
    | succ i =>
      have := h i (by omega)
      rwa [hfails, hnext, Nat.add_assoc, Nat.add_comm 1 i] at this

theorem copyString_granted (s : Bytes) (rt : Runtime) :
    Triple (copyString s) rt (fun r rt' => rt.Extends rt' ∧ rt'.mallocs = rt.mallocs + 1 ∧
      (r.isSome ↔ rt.mallocFails rt.mallocs = false) ∧ ∀ c ∈ r, c.bytes = s) Never := by
  by_cases h : rt.mallocFails rt.mallocs = true
  · have hm : Triple kvsMalloc rt (fun r rt' => r = none ∧ rt.Extends rt' ∧
        rt'.mallocs = rt.mallocs + 1) Never :=
      Triple.of_run (if_pos h) ⟨rfl, ⟨rfl, rfl, Nat.le_succ _⟩, rfl⟩
    refine hm.bind fun r rt' hr => ?_
    obtain ⟨rfl, hext, hnext⟩ := hr
    exact Triple.pure ⟨hext, hnext, by simp [h], by simp⟩
  · have hm : Triple kvsMalloc rt (fun r rt' => r = some (rt.mallocs + 1) ∧ rt.Extends rt' ∧
        rt'.mallocs = rt.mallocs + 1) Never :=
      Triple.of_run (if_neg h) ⟨rfl, ⟨rfl, rfl, Nat.le_succ _⟩, rfl⟩
    refine hm.bind fun r rt' hr => ?_
    obtain ⟨rfl, hext, hnext⟩ := hr
    exact Triple.pure ⟨hext, hnext, by simp [h], by simp⟩

theorem copyTokens_effect (fields : List Bytes) (tokens : List CString) (rt : Runtime) :
    Triple (copyTokens fields tokens) rt (fun r rt' => rt.Extends rt' ∧
      (r.isSome ↔ rt.Grants fields.length) ∧
      ∀ all ∈ r, all.map (·.bytes) = tokens.map (·.bytes) ++ fields) Never := by
  induction fields generalizing tokens rt with
  | nil => exact Triple.pure ⟨.refl rt, by simp [Runtime.Grants], by simp⟩
  | cons field fields ih =>
    refine (copyString_granted field rt).bind fun r rt1 h1 => ?_
    obtain ⟨hext1, hnext1, hsome1, hbytes⟩ := h1
    have hgrants := rt.grants_succ rt1 fields.length hext1.mallocFails hnext1
    rw [List.length_cons, hgrants, ← hsome1]
    cases r with
    | none =>
      refine (freeTokens_spec tokens rt1).bind fun _ rt2 h2 => ?_
      exact Triple.pure ⟨hext1.trans h2, by simp, by simp⟩
    | some token =>
      refine (ih (tokens ++ [token]) rt1).weaken fun r rt2 h2 => ?_
      obtain ⟨hext2, hsome2, hall⟩ := h2
      refine ⟨hext1.trans hext2, by simp [hsome2], fun all hmem => ?_⟩
      rw [hall all hmem]
      simp [hbytes token rfl]

theorem kvsFieldsToTokens_effect (hne : fields.length ≠ 0) (hcount : fields.length ≤ kvsMaxTokens)
    (hplain : ¬∃ field ∈ fields, 0 ∈ field) (rt : Runtime) :
    Triple (kvsFieldsToTokens fields) rt (fun r rt' => rt.Extends rt' ∧
      (r.isSome ↔ rt.Grants fields.length) ∧ ∀ tokens ∈ r, tokens.map (·.bytes) = fields) Never := by
  unfold kvsFieldsToTokens
  rw [if_neg fun h => h.elim hne fun h => h.elim (Nat.not_lt.mpr hcount) hplain]
  exact (copyTokens_effect fields [] rt).weaken fun r rt' h => by simpa using h

theorem Runtime.canFail_of_not_grants (rt : Runtime) (h : ¬rt.Grants n) : rt.CanFail := by
  simp only [Runtime.Grants, not_forall] at h
  obtain ⟨i, -, hi⟩ := h
  exact ⟨_, by simpa using hi⟩

theorem redo_of_count (h : fields.length = 0 ∨ fields.length > kvsMaxTokens) :
    M.redo fields = none := by
  cases hredo : M.redo fields with
  | none => rfl
  | some M' =>
    obtain ⟨cmd, hcmd, -⟩ := redo_eq_some hredo
    have hcount := hcmd.count
    unfold kvsMaxTokens at h
    omega

/-- One command, from whatever source and whatever memory there is. -/
theorem kvsExecuteFields_effect (h : s.engines.Hold s.rt.mallocs M)
    (hlog : s.Logs source → s.aofWriter.isSome) (hcap : 0 < output.storage.capacity)
    (hlen : output.data.length ≤ output.storage.capacity) :
    Triple (kvsExecuteFields fields output source) s (fun ex s' =>
      ∃ done, s.Outcome M source fields done s' ∧ ex.Tells output source fields done)
      (s.Stops M source fields) := by
  unfold kvsExecuteFields
  refine Triple.ite (fun hbad => ?_) fun hgood => Triple.ite (fun hnul => ?_) fun hplain => ?_
  · exact Triple.pure ⟨false, .memory h (.inl (redo_of_count (by omega))) (.refl _),
      .nothing rfl fun _ _ _ _ h => by cases h⟩
  · refine Triple.pure ⟨false, .memory h (.inl (redo_of_nul hnul)) (.refl _),
      .nothing rfl fun hclient cmd _ hwrite heq => ?_⟩
    rw [if_pos hclient] at heq
    exact reply_ne_ok (by decide) hwrite (replyIfFits_eq_some.mp heq).2
  · refine onRuntime_bind (kvsFieldsToTokens_effect (by omega) (by omega) hplain s.rt)
      fun r rt₁ hr => ?_
    obtain ⟨hext, hsome, htokens⟩ := hr
    cases r with
    | none =>
      have hcan := s.rt.canFail_of_not_grants (n := fields.length) (by simp [← hsome])
      exact Triple.pure ⟨false, .memory h (.inr (.inl hcan)) hext,
        .nothing rfl fun _ _ _ _ h => by cases h⟩
    | some tokens =>
      simp only [htokens tokens rfl]
      have hexecute : Triple (executeTokens fields output source) { s with rt := rt₁ } (fun ex s' =>
          ∃ done, Server.Outcome { s with rt := rt₁ } M source fields done s' ∧
            ex.Tells output source fields done) (s.Stops M source fields) :=
        (executeTokens_effect (s := { s with rt := rt₁ }) (h.later hext.mallocs) hplain hlog).mono
          (fun _ _ h => h) fun _ h => h.earlier hext
      refine hexecute.bind fun ex s' hr => ?_
      obtain ⟨done, houtcome, htells⟩ := hr
      refine onRuntime_bind (freeTokens_spec tokens s'.rt) fun _ rt₂ hext₂ => ?_
      exact Triple.pure ⟨done, (houtcome.earlier hext).later hext₂, htells⟩

-- ---------------------------------------------------------------------------
-- Before the engine
-- ---------------------------------------------------------------------------

end KvStore
