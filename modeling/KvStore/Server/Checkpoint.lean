import KvStore.Server.Restart

/-!
# A log that ends before its checkpoint

Starting does not compare the checkpoint of `snapshot.db` with the length of
the log: a checkpoint behind the end of the log replays nothing, and the writer
goes on at the end of the log, before the checkpoint. Writes that are
acknowledged then are kept exactly if the log reached the checkpoint.
-/

namespace KvStore

open Lib

variable {s s' : Server} {M : Maps} {fields : List Bytes} {disk : Disk} {config : Config}

/-- A write that was answered with success. -/
def Acknowledged (fields : List Bytes) (reply : Option Bytes) : Prop :=
  ∃ cmd, findCommand (fields.headD []) = some cmd ∧ cmd.op.isWrite ∧
    reply = some (clientReply cmd.op .ok)

/-- Whatever writes are acknowledged from now on, the next start succeeds and
finds all of them. -/
def Server.KeepsWrites (s : Server) (config : Config) (M : Maps) : Prop :=
  ∀ (writes : List (List Bytes × OutputBuffer)) (replies : List (Option Bytes)) (s₁ : Server),
    (∀ w ∈ writes, w.2.Ready) → serveCommands writes s = .ok (replies, s₁) →
    List.Forall₂ Acknowledged (writes.map (·.1)) replies →
    ∀ rt io random engines, ¬rt.CanFail → random.isSome → ∃ M₁ s₂,
      M.after (writes.map (·.1)) = some M₁ ∧ restart config rt io random engines s₁ = .ok (true, s₂) ∧
        s₂.engines.Contains s₂.rt M₁

-- ---------------------------------------------------------------------------
-- Acknowledged writes
-- ---------------------------------------------------------------------------

theorem ready_available {output : OutputBuffer} (h : output.Ready) : replyRoom < output.available := by
  have hroom := h.room
  simp only [OutputBuffer.available, replyRoom, bufferLength] at *
  omega

/-- One command of a client: acknowledged is what took effect. -/
theorem kvsExecuteFields_acknowledged {output : OutputBuffer} (h : s.engines.Hold s.rt.mallocs M)
    (hlog : s.Logs .client → s.aofWriter.isSome) (hready : output.Ready) (fields : List Bytes) :
    Triple (kvsExecuteFields fields output .client) s (fun ex s' =>
      Acknowledged fields ex.reply → s.Took M .client fields s' ∧ (M.redo fields).isSome)
      (s.Stops M .client fields) := by
  have hroom := ready_available hready
  have hcap : 0 < output.storage.capacity := by
    simp only [OutputBuffer.available, replyRoom] at hroom
    omega
  refine (kvsExecuteFields_effect h hlog hcap (by have := hready.room; omega)).weaken ?_
  rintro ex s' ⟨done, houtcome, htells⟩ ⟨cmd, hfound, hwrite, hreply⟩
  have hdone := (htells.reply hroom rfl cmd hfound hwrite).mp hreply
  subst hdone
  cases houtcome with
  | done htook hredo => exact ⟨htook, hredo⟩

theorem Server.Durable.hasLog (h : Server.Durable s M) : s.aofWriter.isSome := by
  obtain ⟨path, hpath⟩ := h.logPath
  rw [h.running.log, hpath]
  rfl

theorem serveCommands_durable (hs : s.Durable M) (writes : List (List Bytes × OutputBuffer))
    (hready : ∀ w ∈ writes, w.2.Ready) :
    Triple (serveCommands writes) s (fun replies s' =>
      List.Forall₂ Acknowledged (writes.map (·.1)) replies → ∃ M',
        M.after (writes.map (·.1)) = some M' ∧ s'.Durable M' ∧
          s'.persistenceMode = s.persistenceMode)
      (fun _ => True) := by
  induction writes generalizing s M with
  | nil => exact Triple.pure fun _ => ⟨M, rfl, hs, rfl⟩
  | cons w rest ih =>
    obtain ⟨fields, output⟩ := w
    have hout : output.Ready := hready (fields, output) List.mem_cons_self
    have hone := kvsExecuteFields_acknowledged hs.running.holds (fun _ => hs.hasLog) hout fields
    refine (hone.mono (fun _ _ h => h) fun _ _ => trivial).bind fun ex s₁ h₁ => ?_
    by_cases hack : Acknowledged fields ex.reply
    · obtain ⟨htook, hredo⟩ := h₁ hack
      obtain ⟨M₁, hM₁⟩ := Option.isSome_iff_exists.mp hredo
      have hs₁ := htook.durable hs fun hnone => by
        rw [redo_of_not_found hnone] at hM₁
        cases hM₁
      rw [hM₁, Option.getD_some] at hs₁
      refine (ih hs₁ fun w hw => hready w (List.mem_cons_of_mem _ hw)).bind fun replies s₂ h₂ => ?_
      refine Triple.pure fun hall => ?_
      obtain ⟨M₂, hM₂, hs₂, hmode⟩ := h₂ (List.forall₂_cons.mp hall).2
      refine ⟨M₂, ?_, hs₂, hmode.trans htook.sameConfig.mode⟩
      rw [Maps.after, List.map_cons, List.foldlM_cons, hM₁]
      exact hM₂
    · have hany : Triple (serveCommands rest) s₁ (fun _ _ => True) (fun _ => True) := by
        unfold Triple
        split <;> trivial
      refine hany.bind fun replies s₂ _ => Triple.pure fun hall => ?_
      exact absurd (List.forall₂_cons.mp hall).1 hack

/-- A server in step with its directory keeps writes. -/
theorem Server.Durable.keepsWrites (hs : Server.Durable s M) (hvalid : config.Valid)
    (hrole : config.role ≠ .replica) (hmode : s.persistenceMode = config.persistenceMode) :
    s.KeepsWrites config M := by
  intro writes replies s₁ hready hrun hall rt io random engines hmemory hrandom
  obtain ⟨M₁, hM₁, hs₁, hmode₁⟩ := (serveCommands_durable hs writes hready).post hrun hall
  obtain ⟨ok, s₂, hrestart, rfl, hs₂, -⟩ :=
    (hs₁.restart hvalid hrole (hmode₁.trans hmode) hmemory hrandom io engines).run
  exact ⟨M₁, s₂, hM₁, hrestart, hs₂.running.holds.contains⟩

-- ---------------------------------------------------------------------------
-- A write before the checkpoint
-- ---------------------------------------------------------------------------

theorem kvsParseCommand_of_head (h : b ≠ asterisk) (input : Bytes) :
    kvsParseCommand 3 (b :: input) = .error := by
  unfold kvsParseCommand kvsParseCommandLimited
  rw [if_neg (by decide), Scan.expect, if_pos h]

theorem probe_drop_stuck (b : Bool) (hpos : 0 < i) (hlt : i < 28) (M M₁ : Maps) :
    ¬LogReplays M ((encodeFields (probe b)).drop i) M₁ := by
  have hhead : ∀ b, ∀ i < 28, 0 < i → ((encodeFields (probe b)).drop i).head? ≠ some asterisk ∧
      (encodeFields (probe b)).drop i ≠ [] := by decide
  obtain ⟨hne, hsome⟩ := hhead b i hlt hpos
  intro hlog
  obtain ⟨hnil, -⟩ | ⟨r, rest, M', hread, -⟩ := hlog.cases_log
  · exact hsome hnil
  · cases hdrop : (encodeFields (probe b)).drop i with
    | nil => exact hsome hdrop
    | cons c input =>
      rw [hdrop] at hne hread
      rw [kvsParseCommand_of_head (fun h => hne (by rw [h]; rfl))] at hread
      cases hread

theorem probe_taken {n : Nat} (h : s.engines.Hold s.rt.mallocs M) (hmemory : ¬s.rt.CanFail)
    (hio : ¬s.io.CanFail) (hrole : s.role ≠ .replica) (hw : s.aofWriter = some ⟨.appendonlyAof, n, true⟩)
    (hroom : n + 28 ≤ offMax) (b : Bool) {output : OutputBuffer} (hready : output.Ready) :
    Triple (kvsExecuteFields (probe b) output .client) s (fun ex s' =>
      Acknowledged (probe b) ex.reply ∧ s.Outcome M .client (probe b) true s') Never := by
  have hlarge := hready.room
  unfold bufferLength at hlarge
  refine (kvsExecuteFields_effect h (fun _ => by rw [hw]; rfl) (by omega) (by omega)).mono ?_ ?_
  · rintro ex s' ⟨done, houtcome, htells⟩
    cases houtcome with
    | done htook hredo =>
      exact ⟨⟨_, (probe_dispatched b).found, rfl,
        (htells.reply (ready_available hready) rfl _ (probe_dispatched b).found rfl).mpr rfl⟩,
        .done htook hredo⟩
    | idle hwhy =>
      obtain hnone | hcan | ⟨hreplica, -⟩ := hwhy
      · rw [redo_probe] at hnone
        cases hnone
      · exact absurd hcan hmemory
      · exact absurd hreplica hrole
    | saved _ hname =>
      rw [(probe_dispatched b).found] at hname
      cases hname
  · rintro e (⟨-, -, -, hcan | hno⟩ | ⟨-, cmd, hcmd, hno⟩)
    · exact absurd hcan hmemory
    · obtain ⟨writer, hw', hlong⟩ | hbreaks := Server.full_or_breaks hno
      · rw [hw, Option.mem_def, Option.some.injEq] at hw'
        subst hw'
        rw [length_probe] at hlong
        simp only at hlong
        omega
      · exact absurd hbreaks (Server.not_logBreaks hio hw)
    · rw [Option.some.inj (hcmd.found.symm.trans (probe_dispatched b).found)] at hno
      exact hno trivial

theorem probe_acknowledged (h : s.Running M) (hmemory : ¬s.rt.CanFail) (hio : ¬s.io.CanFail)
    (hmode : s.persistenceMode = .legacyHybrid)
    (hroom : (s.disk.bytes .appendonlyAof).length + 28 ≤ offMax) (b : Bool) {output : OutputBuffer}
    (hready : output.Ready) :
    Triple (serveCommands [(probe b, output)]) s (fun replies s' =>
      List.Forall₂ Acknowledged [probe b] replies ∧
        s'.disk = s.disk.write .appendonlyAof
          (s.disk.bytes .appendonlyAof ++ encodeFields (probe b))) Never := by
  have hw := h.log
  rw [hmode] at hw
  simp only [PersistenceMode.logPath, Option.map_some] at hw
  refine (probe_taken h.holds hmemory hio h.role hw hroom b hready).bind fun ex s₁ h₁ => Triple.pure ?_
  obtain ⟨hack, houtcome⟩ := h₁
  cases houtcome with
  | done htook =>
    obtain ⟨s₀, rt', E', hleaves, rfl, -, -⟩ := htook
    refine ⟨.cons hack .nil, ?_⟩
    cases hleaves with
    | kept hnone =>
      have := hnone ⟨by decide, by simp [hmode]⟩
      rw [redo_probe] at this
      cases this
    | logged =>
      rw [h.append (by rw [hmode]; rfl)]
    | saved hname =>
      rw [(probe_dispatched b).found] at hname
      cases hname

-- ---------------------------------------------------------------------------
-- Which starts keep writes
-- ---------------------------------------------------------------------------

/-- Behind a log that ends before the checkpoint a write is not found again. -/
theorem probe_lost (hbase : disk.Base M o) (hshort : (disk.bytes .appendonlyAof).length < o) (b : Bool)
    (hother : (M .rbtree).lookup [107] ≠ some [if b then 118 else 119]) :
    ¬(disk.write .appendonlyAof
      (disk.bytes .appendonlyAof ++ encodeFields (probe b))).Recovers .legacyHybrid
        (M.put .rbtree ((M .rbtree).insert [107] [if b then 118 else 119])) := by
  rintro ⟨M₀, o', hbase', hlog⟩
  obtain ⟨rfl, rfl⟩ := ((disk.base_write_log _ _ _).mp hbase').unique hbase
  rw [Disk.bytes_write_self, List.drop_append, List.drop_eq_nil_of_le (by omega),
    List.nil_append] at hlog
  by_cases hinside : o' - (disk.bytes .appendonlyAof).length < 28
  · exact probe_drop_stuck b (by omega) hinside _ _ hlog
  · rw [List.drop_eq_nil_of_le (by rw [length_probe]; omega)] at hlog
    obtain ⟨-, hsame⟩ | ⟨r, rest, M', hread, -⟩ := hlog.cases_log
    · apply hother
      rw [← hsame, Maps.put_self, Finmap.lookup_insert]
    · rw [kvsParseCommand_nil 3 (by decide)] at hread
      cases hread

section
variable (hbooted : s.Booted config disk M) (hconfig : config.role = .primary)
  (hmode : config.persistenceMode = .legacyHybrid) (hbase : disk.Base M₀ o)
  (hlog : LogReplays M₀ ((disk.bytes .appendonlyAof).drop o) M)
include hbooted

theorem Server.Booted.bytes (path : Path) : s.disk.bytes path = disk.bytes path := by
  rw [hbooted.disk, Disk.openLog_bytes]

include hmode

theorem Server.Booted.base : s.disk.Base M₁ o₁ ↔ disk.Base M₁ o₁ := by
  have hsame : s.disk .snapshotDb = disk .snapshotDb := by
    rw [hbooted.disk, hmode]
    simp [Disk.openLog, PersistenceMode.logPath]
  simp only [Disk.Base, hsame]

include hconfig hbase hlog

theorem Server.Booted.keepsWrites (hreaches : o ≤ (disk.bytes .appendonlyAof).length) :
    s.KeepsWrites config M := by
  have hmode' : s.persistenceMode = .legacyHybrid := by rw [hbooted.mode, hmode]
  have hdurable : s.Durable M := by
    refine ⟨hbooted.running, ?_, fun _ => ?_, by simp [hmode']⟩
    · rw [hmode']
      refine ⟨M₀, o, (hbooted.base hmode).mpr hbase, ?_⟩
      rw [hbooted.bytes]
      exact hlog
    · intro M₁ o₁ hbase₁
      obtain ⟨-, rfl⟩ := ((hbooted.base hmode).mp hbase₁).unique hbase
      rw [hbooted.bytes]
      exact hreaches
  exact hdurable.keepsWrites (by simp [Config.Valid, hconfig, hmode]) (by simp [hconfig])
    hbooted.mode

theorem Server.Booted.losesWrites (hshort : (disk.bytes .appendonlyAof).length < o)
    (hmemory : ¬s.rt.CanFail) (hio : ¬s.io.CanFail)
    (hroom : (disk.bytes .appendonlyAof).length + 28 ≤ offMax) : ¬s.KeepsWrites config M := by
  intro hkept
  have hvalid : config.Valid := by simp [Config.Valid, hconfig, hmode]
  -- nothing was replayed, so the maps are those of the snapshot
  obtain rfl : M = M₀ := by
    rw [List.drop_eq_nil_of_le (by omega)] at hlog
    exact LogReplays.unique hlog (.done _)
  obtain ⟨b, hother⟩ : ∃ b : Bool, (M .rbtree).lookup [107] ≠ some [if b then 118 else 119] := by
    by_cases h : (M .rbtree).lookup [107] = some [118]
    · exact ⟨false, by rw [h]; decide⟩
    · exact ⟨true, h⟩
  obtain ⟨output, hready⟩ : ∃ output : OutputBuffer, output.Ready :=
    ⟨⟨⟨some 1, 2048⟩, [], 0⟩, by decide, by decide, by decide, by decide⟩
  obtain ⟨replies, s₁, hrun, hacks, hdisk₁⟩ := (probe_acknowledged hbooted.running hmemory hio
    (by rw [hbooted.mode, hmode]) (by rw [hbooted.bytes]; exact hroom) b hready).run
  obtain ⟨M₁, s₂, hM₁, hrestart, hcontains⟩ := hkept [(probe b, output)] replies s₁
    (by simpa using hready) hrun hacks s.rt s.io (some []) s.engines hmemory rfl
  have hafter : M₁ = M.put .rbtree ((M .rbtree).insert [107] [if b then 118 else 119]) := by
    simpa [Maps.after, redo_probe] using hM₁.symm
  have hagain := (kvsServerRun_effect hvalid (by simp [hconfig]) (some []) s.rt s.io s₁.disk
    s.engines).post hrestart
  obtain ⟨-, -, -, M₂, hrecovers₂, hbooted₂⟩ | ⟨hno, -⟩ := hagain
  · rw [hbooted₂.running.holds.contains.unique hcontains, hafter, hdisk₁, hmode] at hrecovers₂
    exact probe_lost ((hbooted.base hmode).mpr hbase) (by rw [hbooted.bytes]; exact hshort) b
      hother hrecovers₂
  · cases hno

end

/-- A primary started on a snapshot with checkpoint `o` keeps the writes that
come after exactly if the log reached the checkpoint. -/
theorem kvsServerRun_keepsWrites (config : Config) (disk : Disk) (file : Bytes)
    (header : SnapshotHeader) (records : List SnapshotRecord) (o : Nat) (rt : Runtime) (io : FileIo)
    (random : Option Bytes) (engines : Engines) (s : Server)
    (hconfig : config.role = .primary ∧ config.persistenceMode = .legacyHybrid)
    (hfile : disk .snapshotDb = some file) (hformat : SnapshotFile file header records)
    (hoffset : header.checkpoint = ⟨true, o⟩)
    (hstart : kvsServerRun config random (Server.process rt io disk engines) = .ok (true, s)) :
    ∃ M, s.engines.Contains s.rt M ∧
      (o ≤ (disk.bytes .appendonlyAof).length → s.KeepsWrites config M) ∧
      (¬rt.CanFail → ¬io.CanFail → (disk.bytes .appendonlyAof).length + 28 ≤ offMax →
        (s.KeepsWrites config M ↔ o ≤ (disk.bytes .appendonlyAof).length)) := by
  obtain ⟨hprimary, hmode⟩ := hconfig
  have hvalid : config.Valid := by simp [Config.Valid, hprimary, hmode]
  have hbooted := (kvsServerRun_effect hvalid (by simp [hprimary]) random rt io disk engines).post hstart
  obtain ⟨-, hext, rfl, M, hrecovers, hbooted⟩ | ⟨hno, -⟩ := hbooted
  rotate_left
  · cases hno
  rw [hmode] at hrecovers
  obtain ⟨M₀, o', hbase, hlog⟩ := hrecovers
  obtain rfl : o' = o := by
    rw [Disk.Base, hfile] at hbase
    obtain ⟨hholds, -⟩ | hholds := hbase
    · cases hholds
    · generalize hcp : some (SnapshotCheckpoint.mk true (o' : Int)) = cp at hholds
      cases hholds with
      | file hformat' _ _ =>
        obtain ⟨rfl, -⟩ := hformat'.unique hformat
        simpa [hoffset] using hcp
  have hkeeps := hbooted.keepsWrites hprimary hmode hbase hlog
  refine ⟨M, hbooted.running.holds.contains, hkeeps, fun hmemory hio hroom => ⟨fun hkept => ?_, hkeeps⟩⟩
  by_contra hshort
  exact hbooted.losesWrites hprimary hmode hbase hlog (Nat.not_le.mp hshort)
    (fun hcan => hmemory (hext.canFail hcan)) hio hroom hkept

def directoryAt (records : List SnapshotRecord) (o : Nat) (log : Option Bytes) : Disk
  | .snapshotDb => some (savedFile (some o) records)
  | .appendonlyAof => log
  | _ => none

theorem directoryAt_base (records : List SnapshotRecord) (o : Nat) (log : Option Bytes)
    (hrecords : ∀ r ∈ records, r.Valid) (hcount : records.length ≤ uint64Max) (ho : o ≤ offMax)
    (hload : Maps.empty.loadAll records = some M) (hadmits : ∀ r ∈ records, r.engine.Admits r.key) :
    SnapshotFile (savedFile (some o) records) ⟨records.length, ⟨true, o⟩⟩ records ∧
      (directoryAt records o log).Base M o := by
  have hformat : SnapshotFile (savedFile (some o) records) ⟨records.length, .ofOffset (some o)⟩ records :=
    savedFile_format hrecords hcount (by simpa using ho)
  exact ⟨hformat, .inr (.file hformat hload hadmits)⟩

theorem directoryAt_starts {records : List SnapshotRecord} {log : Option Bytes}
    (hbase : (directoryAt records o log).Base M₀ o) (hlog : LogReplays M₀ ((log.getD []).drop o) M) :
    ∃ (rt : Runtime) (engines : Engines) (s : Server), ¬rt.CanFail ∧
      kvsServerRun ⟨.primary, .legacyHybrid, [], 0⟩ (some [])
        (Server.process rt (.start fun _ => none) (directoryAt records o log) engines) = .ok (true, s) ∧
      rt.Extends s.rt ∧ ¬s.io.CanFail ∧
      s.Booted ⟨.primary, .legacyHybrid, [], 0⟩ (directoryAt records o log) M := by
  have hfail := Runtime.not_canFail_start fun _ => false
  obtain ⟨_, -, -, -, E, -, -⟩ := (initKvengine_spec hfail).run
  have hvalid : Config.Valid ⟨.primary, .legacyHybrid, [], 0⟩ := rfl
  have hrandom : (some ([] : Bytes)).isSome := rfl
  obtain ⟨ok, s, hstart, rfl, hext, hio, hbooted⟩ := (kvsServerRun_recovers hvalid (by decide)
    ⟨M₀, o, hbase, hlog⟩ hfail hrandom (.start fun _ => none) E).run
  exact ⟨_, E, s, hfail, hstart, hext, hio ▸ FileIo.not_canFail_start, hbooted⟩

/-- A snapshot of two engines that stands for the first of the two commands of
the log. -/
theorem kvsServerRun_keepsWrites_behind : ∃ (rt : Runtime) (engines : Engines) (s : Server) (M : Maps),
    kvsServerRun ⟨.primary, .legacyHybrid, [], 0⟩ (some []) (Server.process rt (.start fun _ => none)
      (directoryAt [⟨.array, [107], [118]⟩, ⟨.hash, [97], [98]⟩] 27
        (some (encodeFields [ascii "SET", [107], [118]] ++ encodeFields (probe true)))) engines) =
      .ok (true, s) ∧
    s.engines.Contains s.rt M ∧ (M .rbtree).lookup [107] = some [118] ∧
    (M .hash).lookup [97] = some [98] ∧ s.KeepsWrites ⟨.primary, .legacyHybrid, [], 0⟩ M := by
  let records : List SnapshotRecord := [⟨.array, [107], [118]⟩, ⟨.hash, [97], [98]⟩]
  let log := encodeFields [ascii "SET", [107], [118]] ++ encodeFields (probe true)
  obtain ⟨M₀, hload⟩ : ∃ M', Maps.empty.loadAll records = some M' :=
    Maps.loadAll_empty.mpr ⟨by decide, by decide⟩
  obtain ⟨hformat, hbase⟩ := directoryAt_base records 27 (some log)
    (List.forall_mem_cons.mpr ⟨⟨by decide, by decide, by decide, by decide⟩,
      List.forall_mem_singleton.mpr ⟨by decide, by decide, by decide, by decide⟩⟩)
    (by decide) (by decide) hload (by decide)
  have hreplays : LogReplays M₀ (log.drop 27) (M₀.put .rbtree ((M₀ .rbtree).insert [107] [118])) :=
    LogReplays.snoc (.done M₀) (redo_probe M₀ true) (by decide)
  obtain ⟨rt, engines, s, -, hstart, -, -, hbooted⟩ := directoryAt_starts hbase hreplays
  obtain ⟨M, hM, hkeeps, -⟩ := kvsServerRun_keepsWrites _ _ _ _ _ 27 rt (.start fun _ => none) (some [])
    engines s ⟨rfl, rfl⟩ rfl hformat rfl hstart
  obtain rfl := hbooted.running.holds.contains.unique hM
  refine ⟨rt, engines, s, _, hstart, hM, ?_, ?_, hkeeps (by decide)⟩
  · rw [Maps.put_self, Finmap.lookup_insert]
  · rw [Maps.put_other _ _ (by decide), Maps.lookup_loadAll hload]
    exact .inr (by decide)

/-- A checkpoint at position 100 of a log that is empty: the primary starts, and
a write that it acknowledges is gone after the next start. -/
theorem kvsServerRun_losesWrite : ∃ (config : Config) (rt : Runtime) (engines : Engines)
    (s : Server), config.role = .primary ∧ config.persistenceMode = .legacyHybrid ∧
    kvsServerRun config (some []) (Server.process rt (.start fun _ => none) (directoryAt [] 100 none)
      engines) = .ok (true, s) ∧
      ∃ M, s.engines.Contains s.rt M ∧ ¬s.KeepsWrites config M := by
  obtain ⟨hformat, hbase⟩ := directoryAt_base [] 100 none (by simp) (Nat.zero_le _)
    (by decide) rfl (by simp)
  obtain ⟨rt, engines, s, hmemory, hstart, hext, hio, hbooted⟩ := directoryAt_starts hbase (.done _)
  refine ⟨_, rt, engines, s, rfl, rfl, hstart, Maps.empty, hbooted.running.holds.contains, ?_⟩
  refine hbooted.losesWrites rfl rfl hbase (.done _) (by decide) ?_ hio (by decide)
  exact fun hcan => hmemory (hext.canFail hcan)

end KvStore
