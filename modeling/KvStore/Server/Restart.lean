import KvStore.Server.Recovery

/-!
# Stopping and starting again

The directory of a running server holds the maps that its engines hold: what a
command adds to the engines it adds to the log, and a snapshot stands for the
log up to its checkpoint. So a server that stops between two commands comes back
with the same maps, as long as the log reaches the checkpoint.
-/

namespace KvStore

open Lib

variable {s s' : Server} {M : Maps} {fields : List Bytes} {disk : Disk} {mode : PersistenceMode}
  {config : Config} {rt : Runtime} {random : Option Bytes}

-- ---------------------------------------------------------------------------
-- What a directory holds
-- ---------------------------------------------------------------------------

theorem Disk.Base.unique (h : Disk.Base disk M o) (h' : disk.Base M' o') : M = M' ∧ o = o' := by
  obtain ⟨hholds, rfl⟩ | hholds := h <;> obtain ⟨hholds', rfl⟩ | hholds' := h'
  · exact ⟨(hholds.unique hholds').1, rfl⟩
  · cases (hholds.unique hholds').2
  · cases (hholds.unique hholds').2
  · obtain ⟨hM, hcp⟩ := hholds.unique hholds'
    simp only [Option.some.injEq, SnapshotCheckpoint.mk.injEq, true_and, Int.natCast_inj] at hcp
    exact ⟨hM, hcp⟩

theorem Disk.Recovers.unique (h : Disk.Recovers disk mode M) (h' : disk.Recovers mode M') :
    M = M' := by
  cases mode with
  | snapshot =>
    obtain ⟨cp, hholds⟩ := h
    obtain ⟨cp', hholds'⟩ := h'
    exact (hholds.unique hholds').1
  | aof => exact LogReplays.unique h h'
  | legacyHybrid =>
    obtain ⟨M₀, o, hbase, hlog⟩ := h
    obtain ⟨M₀', o', hbase', hlog'⟩ := h'
    obtain ⟨rfl, rfl⟩ := hbase.unique hbase'
    exact LogReplays.unique hlog hlog'

/-- The log reaches the checkpoint of `snapshot.db`. -/
def Disk.Covered (disk : Disk) : Prop :=
  ∀ M o, disk.Base M o → o ≤ (disk.bytes .appendonlyAof).length

@[simp] theorem Disk.bytes_write_self (disk : Disk) (path : Path) (file : Bytes) :
    (disk.write path file).bytes path = file := by
  simp [Disk.bytes]

@[simp] theorem Disk.bytes_write_other (disk : Disk) (file : Bytes) (h : path' ≠ path) :
    (disk.write path file).bytes path' = disk.bytes path' := by
  simp [Disk.bytes, h]

theorem Disk.base_write_log (disk : Disk) (file : Bytes) (M : Maps) (o : Nat) :
    (disk.write .appendonlyAof file).Base M o ↔ disk.Base M o := by
  simp [Disk.Base]

/-- The directory after one more command in the log. -/
theorem Disk.Recovers.append (h : Disk.Recovers disk mode M) (hpath : mode.logPath = some path)
    (hcovered : mode = .legacyHybrid → disk.Covered) (hredo : M.redo fields = some M')
    (hsize : (encodeFields fields).length ≤ sizeMax) :
    (disk.write path (disk.bytes path ++ encodeFields fields)).Recovers mode M' := by
  cases mode with
  | snapshot => cases hpath
  | aof =>
    obtain rfl : Path.commandsAof = path := Option.some.inj hpath
    have hlog : LogReplays Maps.empty (disk.bytes .commandsAof) M := h
    simpa [Disk.Recovers] using hlog.snoc hredo hsize
  | legacyHybrid =>
    obtain rfl : Path.appendonlyAof = path := Option.some.inj hpath
    obtain ⟨M₀, o, hbase, hlog⟩ := h
    refine ⟨M₀, o, (disk.base_write_log _ _ _).mpr hbase, ?_⟩
    rw [Disk.bytes_write_self, List.drop_append_of_le_length (hcovered rfl M₀ o hbase)]
    exact LogReplays.snoc hlog hredo hsize

theorem Disk.Covered.append (h : Disk.Covered disk) (record : Bytes) :
    (disk.write .appendonlyAof (disk.bytes .appendonlyAof ++ record)).Covered := by
  intro M o hbase
  have := h M o ((disk.base_write_log _ _ _).mp hbase)
  rw [Disk.bytes_write_self, List.length_append]
  omega

theorem Disk.base_saved (disk : Disk) (hlists : Lists M records) (hM : Maps.Savable M)
    (ho : o ≤ offMax) : (disk.write .snapshotDb (savedFile (some o) records)).Base M o := by
  obtain ⟨hformat, hload, hadmits⟩ := savedFile_holds (some o) hlists hM (by simpa using ho)
  refine .inr ?_
  rw [Disk.write_self]
  exact .file hformat hload hadmits

theorem Disk.openLog_self (h : ∀ path ∈ mode.logPath, (disk path).isSome) :
    disk.openLog mode = disk := by
  unfold Disk.openLog
  cases hpath : mode.logPath with
  | none => rfl
  | some path =>
    obtain ⟨file, hfile⟩ := Option.isSome_iff_exists.mp (h path hpath)
    funext other
    by_cases ho : other = path
    · subst ho
      simp [Disk.bytes, hfile]
    · simp [ho]

theorem Disk.recovers_empty (hbytes : ∀ path, disk.bytes path = []) (hsnapshot : disk .snapshotDb = none)
    (hmode : mode ≠ .snapshot) : disk.Recovers mode Maps.empty := by
  cases mode with
  | snapshot => exact absurd rfl hmode
  | aof =>
    simp only [Disk.Recovers, hbytes]
    exact .done _
  | legacyHybrid =>
    refine ⟨Maps.empty, 0, .inl ⟨by rw [hsnapshot]; exact .missing, rfl⟩, ?_⟩
    rw [hbytes]
    exact .done _

-- ---------------------------------------------------------------------------
-- A server and its directory
-- ---------------------------------------------------------------------------

/-- A running server whose directory holds what its engines hold. -/
structure Server.Durable (s : Server) (M : Maps) : Prop where
  running : s.Running M
  recovers : s.disk.Recovers s.persistenceMode M
  covered : s.persistenceMode = .legacyHybrid → s.disk.Covered
  logged : s.persistenceMode ≠ .snapshot

def Server.LogFits (s : Server) : Prop := ∀ writer ∈ s.aofWriter, writer.offset ≤ offMax

theorem Server.Durable.logPath (h : Server.Durable s M) :
    ∃ path, s.persistenceMode.logPath = some path := by
  have hlogged := h.logged
  cases hmode : s.persistenceMode with
  | snapshot => exact absurd hmode hlogged
  | aof => exact ⟨_, rfl⟩
  | legacyHybrid => exact ⟨_, rfl⟩

theorem Server.Running.append (h : Server.Running s M) (hpath : s.persistenceMode.logPath = some path) :
    s.append fields = { s with
      disk := s.disk.write path (s.disk.bytes path ++ encodeFields fields)
      io := (s.io.ask (.write path (s.disk.bytes path).length (encodeFields fields))).ask (.sync path)
      aofWriter := some ⟨path, (s.disk.bytes path ++ encodeFields fields).length, true⟩ } := by
  have hw := h.log
  rw [hpath, Option.map_some] at hw
  simp only [Server.append, hw, Server.aofFile]
  change { s with
    disk := s.disk.write path (pwrite (s.disk.bytes path) (s.disk.bytes path).length _), io := _,
    aofWriter := _ } = _
  rw [pwrite_end, List.length_append]

theorem snapshotTarget_ne_log (htarget : s.snapshotTarget = some (path, offset))
    (hlog : log ∈ s.persistenceMode.logPath) : log ≠ path := by
  simp only [Server.snapshotTarget] at htarget
  cases hmode : s.persistenceMode with
  | snapshot =>
    rw [hmode] at hlog
    cases hlog
  | aof => simp [hmode] at htarget
  | legacyHybrid =>
    simp only [hmode, PersistenceMode.logPath, Option.mem_def, Option.some.injEq] at hlog
    simp only [hmode, Option.map_eq_some_iff, Prod.mk.injEq] at htarget
    obtain ⟨writer, -, rfl, -⟩ := htarget
    rw [← hlog]
    decide

theorem Server.Running.save (h : Server.Running s M) (htarget : s.snapshotTarget = some (path, offset))
    (file : Bytes) {E : Engines} (hE : E.Hold rt.mallocs M') :
    Server.Running { s with rt := rt, engines := E, disk := s.disk.write path file } M' := by
  refine ⟨hE, h.role, ?_, ?_⟩
  · rw [h.log]
    cases hpath : s.persistenceMode.logPath with
    | none => rfl
    | some log => simp [snapshotTarget_ne_log htarget hpath]
  · intro log hlog
    have hne := snapshotTarget_ne_log htarget hlog
    have hexists := h.exists_log log hlog
    simpa [hne] using hexists

theorem Server.Leaves.running (h : s.Leaves M source fields s₀) (hs : s.Running M) {E : Engines}
    (hE : E.Hold rt.mallocs M') : Server.Running { s₀ with rt := rt, engines := E } M' := by
  cases h with
  | kept => exact ⟨hE, hs.role, hs.log, hs.exists_log⟩
  | saved _ htarget => exact hs.save htarget _ hE
  | logged hlogs =>
    obtain ⟨path, hpath⟩ : ∃ path, s.persistenceMode.logPath = some path := by
      have hmode := hlogs.2
      cases hm : s.persistenceMode with
      | snapshot => exact absurd hm hmode
      | aof | legacyHybrid => exact ⟨_, rfl⟩
    rw [hs.append hpath]
    refine ⟨hE, hs.role, by simp [hpath], ?_⟩
    intro path' hpath'
    simp only [hpath, Option.mem_def, Option.some.injEq] at hpath'
    subst hpath'
    simp

/-- A client's command keeps engines and directory in step. -/
theorem Server.Took.durable (h : s.Took M .client fields s') (hs : s.Durable M)
    (hsave : findCommand (fields.headD []) = none → M.Storable ∧ s.LogFits) :
    s'.Durable ((M.redo fields).getD M) := by
  obtain ⟨s₀, rt', E', hleaves, rfl, hext, hE⟩ := h
  have hrunning := hleaves.running hs.running hE
  cases hleaves with
  | kept hnone =>
    rw [hnone ⟨by decide, hs.logged⟩] at hrunning ⊢
    exact ⟨hrunning, hs.recovers, hs.covered, hs.logged⟩
  | logged hlogs hredo htakes =>
    obtain ⟨M', hM'⟩ := Option.isSome_iff_exists.mp hredo
    obtain ⟨path, hpath⟩ := hs.logPath
    rw [hM', Option.getD_some] at hrunning ⊢
    have hsize : (encodeFields fields).length ≤ sizeMax := by
      have hw := hs.running.log
      rw [hpath, Option.map_some] at hw
      have hmax : offMax ≤ sizeMax := by decide
      by_contra hlong
      exact htakes.room ⟨_, hw, by simp only; omega⟩
    rw [hs.running.append hpath] at hrunning ⊢
    refine ⟨hrunning, hs.recovers.append hpath hs.covered hM' hsize, ?_, hs.logged⟩
    intro hmode
    change s.persistenceMode = .legacyHybrid at hmode
    rw [hmode] at hpath
    obtain rfl : Path.appendonlyAof = path := Option.some.inj hpath
    exact (hs.covered hmode).append _
  | saved hname htarget hlists hsize =>
    obtain ⟨hstorable, hfits⟩ := hsave hname
    rw [redo_of_not_found hname, Option.getD_none] at hrunning ⊢
    have hsavable : Maps.Savable M :=
      ⟨hstorable, hs.running.holds.admitted, hs.running.holds.array_card_le, hsize⟩
    have hmode : s.persistenceMode = .legacyHybrid := by
      have hlogged := hs.logged
      cases hmode : s.persistenceMode with
      | snapshot => exact absurd hmode hlogged
      | aof => simp [Server.snapshotTarget, hmode] at htarget
      | legacyHybrid => rfl
    have hw := hs.running.log
    rw [hmode] at hw
    simp only [PersistenceMode.logPath, Option.map_some] at hw
    simp only [Server.snapshotTarget, hmode, hw, Option.map_some, Option.some.injEq,
      Prod.mk.injEq] at htarget
    obtain ⟨rfl, rfl⟩ := htarget
    have hbase := s.disk.base_saved hlists hsavable (hfits _ hw)
    refine ⟨hrunning, ?_, ?_, hs.logged⟩
    · simp only [hmode]
      refine ⟨M, _, hbase, ?_⟩
      rw [Disk.bytes_write_other _ _ (by decide), List.drop_length]
      exact .done M
    · intro _ M₁ o hbase'
      obtain ⟨-, rfl⟩ := hbase'.unique hbase
      rw [Disk.bytes_write_other _ _ (by decide)]

theorem Server.Took.logFits (h : s.Took M .client fields s') (hs : s.LogFits) : s'.LogFits := by
  obtain ⟨s₀, rt', E', hleaves, rfl, -, -⟩ := h
  cases hleaves with
  | kept => exact hs
  | saved => exact hs
  | logged _ _ htakes =>
    intro writer hw
    simp only [append_aofWriter, Option.mem_def, Option.map_eq_some_iff] at hw
    obtain ⟨writer', hw', rfl⟩ := hw
    exact Nat.not_lt.mp fun hlong => htakes.room ⟨writer', hw', hlong⟩

-- ---------------------------------------------------------------------------
-- A new process
-- ---------------------------------------------------------------------------

def restart (config : Config) (rt : Runtime) (io : FileIo) (random : Option Bytes)
    (engines : Engines) : Serve Bool := do
  let s ← get
  set (Server.process rt io s.disk engines)
  kvsServerRun config random

/-- A directory that holds maps is enough for a start, and these are the maps
of the new server. -/
theorem kvsServerRun_recovers (hvalid : config.Valid) (hrole : config.role ≠ .replica)
    (hrecovers : disk.Recovers config.persistenceMode M) (hmemory : ¬rt.CanFail)
    (hrandom : random.isSome) (io : FileIo) (engines : Engines) :
    Triple (kvsServerRun config random) (Server.process rt io disk engines) (fun ok s' =>
      ok = true ∧ rt.Extends s'.rt ∧ s'.io = io ∧ s'.Booted config disk M) Never := by
  refine (kvsServerRun_effect hvalid hrole random rt io disk engines).mono ?_
    fun e he => (he.2 M hrecovers).elim
  rintro ok s' (⟨rfl, hext, hio, M', hrecovers', hbooted⟩ | ⟨-, hcan | hnone | hno⟩)
  · rw [hrecovers.unique hrecovers']
    exact ⟨rfl, hext, hio, hbooted⟩
  · exact absurd hcan hmemory
  · simp [hnone] at hrandom
  · exact (hno M hrecovers).elim

/-- A server whose directory holds its maps comes back with them, and nothing
in the directory changes. -/
theorem Server.Durable.restart (hs : Server.Durable s M) (hvalid : config.Valid)
    (hrole : config.role ≠ .replica) (hmode : s.persistenceMode = config.persistenceMode)
    (hmemory : ¬rt.CanFail) (hrandom : random.isSome) (io : FileIo) (engines : Engines) :
    Triple (restart config rt io random engines) s (fun ok s' =>
      ok = true ∧ s'.Durable M ∧ rt.Extends s'.rt ∧ s'.io = io ∧ s'.disk = s.disk ∧
        s'.role = config.role ∧ s'.persistenceMode = config.persistenceMode ∧
        s'.aofWriter = s.aofWriter) Never := by
  have hrecovers := hs.recovers
  rw [hmode] at hrecovers
  refine Triple.get_bind (Triple.set_bind ?_)
  refine (kvsServerRun_recovers hvalid hrole hrecovers hmemory hrandom io engines).weaken ?_
  rintro ok s' ⟨rfl, hext, hio, hbooted⟩
  have hdisk : s'.disk = s.disk := by
    rw [hbooted.disk, ← hmode]
    exact Disk.openLog_self hs.running.exists_log
  have hmode' : s'.persistenceMode = s.persistenceMode := by rw [hbooted.mode, hmode]
  refine ⟨rfl, ⟨hbooted.running, ?_, ?_, ?_⟩, hext, hio, hdisk, hbooted.role, hbooted.mode, ?_⟩
  · rw [hdisk, hmode']
    exact hs.recovers
  · rw [hdisk, hmode']
    exact hs.covered
  · rw [hmode']
    exact hs.logged
  · rw [hbooted.running.log, hs.running.log, hdisk, hmode']

-- ---------------------------------------------------------------------------
-- Runs with restarts
-- ---------------------------------------------------------------------------

/-- What happens to a server between two commands: the next one, or the end of
the process and a new one. -/
inductive Action
  | command (fields : List Bytes) (output : OutputBuffer)
  | restart (rt : Runtime) (io : FileIo) (random : Option Bytes) (engines : Engines)

/-- Commands of clients, and starts of processes that get memory and a random
number and whose requests for files are carried out. -/
def Action.Allowed : Action → Prop
  | .command fields output => ClientCommand fields ∧ output.Ready
  | .restart rt io random _ => ¬rt.CanFail ∧ ¬io.CanFail ∧ random.isSome

def Action.logBytes : Action → Nat
  | .command fields _ => (encodeFields fields).length
  | .restart .. => 0

def runActions (config : Config) : List Action → Serve Bool
  | [] => return true
  | .command fields output :: rest => do
    let _ ← kvsExecuteFields fields output .client
    runActions config rest
  | .restart rt io random engines :: rest => do
    if ← restart config rt io random engines then runActions config rest
    else return false

/-- A server between two actions. -/
structure Server.Steady (s : Server) (config : Config) (M : Maps) : Prop where
  serving : s.Serving M
  files : ¬s.io.CanFail
  durable : s.Durable M
  fits : s.LogFits
  mode : s.persistenceMode = config.persistenceMode

theorem Server.Steady.command (hs : Server.Steady s config M) (hcmd : ClientCommand fields)
    (h : s.Took M .client fields s') : ∃ M', s'.Steady config M' := by
  have hserving := h.serving hs.serving hcmd
  rw [answer_maps _ hcmd.hashKey] at hserving
  have hfiles : ¬s'.io.CanFail := by
    rw [FileIo.CanFail, h.fails]
    exact hs.files
  exact ⟨_, hserving, hfiles, h.durable hs.durable fun _ => ⟨hs.serving.sized.storable, hs.fits⟩,
    h.logFits hs.fits, by rw [h.sameConfig.mode, hs.mode]⟩

theorem Server.Steady.restart (hs : Server.Steady s config M) (hvalid : config.Valid)
    (hrole : config.role ≠ .replica) (hmemory : ¬rt.CanFail) {io : FileIo} (hfiles : ¬io.CanFail)
    (hrandom : random.isSome) (engines : Engines) :
    Triple (restart config rt io random engines) s (fun ok s' =>
      ok = true ∧ s'.Steady config M ∧ s'.disk = s.disk ∧ s'.aofWriter = s.aofWriter) Never := by
  refine (hs.durable.restart hvalid hrole hs.mode hmemory hrandom io engines).weaken ?_
  rintro ok s' ⟨rfl, hdurable, hext, rfl, hdisk, hrole', hmode', hwriter⟩
  refine ⟨rfl, ⟨⟨hdurable.running.holds, fun hcan => hmemory (hext.canFail hcan), hs.serving.sized,
    hdurable.running.role, fun hlogs => ?_⟩, hfiles, hdurable, ?_, hmode'⟩, hdisk, hwriter⟩
  · obtain ⟨path, hpath⟩ := hdurable.logPath
    rw [hdurable.running.log, hpath]
    rfl
  · intro writer hw
    rw [hwriter] at hw
    exact hs.fits writer hw

theorem Server.Steady.unbroken (hs : Server.Steady s config M) : ¬s.LogBreaks := by
  obtain ⟨path, hpath⟩ := hs.durable.logPath
  have hw := hs.durable.running.log
  rw [hpath] at hw
  exact Server.not_logBreaks hs.files hw

def Server.LogTooShortFor (s : Server) (actions : List Action) : Prop :=
  ∃ writer ∈ s.aofWriter, offMax < writer.offset + (actions.map Action.logBytes).sum

theorem runActions_spec (hs : s.Steady config M) (hvalid : config.Valid)
    (hrole : config.role ≠ .replica) (actions : List Action)
    (hactions : ∀ action ∈ actions, action.Allowed) :
    Triple (runActions config actions) s (fun ok s' => ok = true ∧ ∃ M', s'.Steady config M')
      (fun e => e = .exit ∧ s.LogTooShortFor actions) := by
  induction actions generalizing s M with
  | nil => exact Triple.pure ⟨rfl, M, hs⟩
  | cons action rest ih =>
    have hrest := fun {s M} (hs : Server.Steady s config M) =>
      ih hs fun action h => hactions action (List.mem_cons_of_mem _ h)
    have hallowed := hactions action List.mem_cons_self
    cases action with
    | command fields output =>
      obtain ⟨hcmd, hready⟩ := hallowed
      refine ((kvsExecuteFields_client hs.serving hcmd hready).mono (fun _ _ h => h) ?_).bind
        fun ex s₁ h₁ => ?_
      · rintro e ⟨rfl, -, hno⟩
        obtain ⟨writer, hw, hlong⟩ := (Server.full_or_breaks hno).resolve_right hs.unbroken
        refine ⟨rfl, writer, hw, ?_⟩
        simp only [List.map_cons, List.sum_cons, Action.logBytes]
        omega
      obtain ⟨htook, -⟩ := h₁
      obtain ⟨M₁, hs₁⟩ := hs.command hcmd htook
      refine (hrest hs₁).mono (fun _ _ h => h) ?_
      rintro e ⟨rfl, writer', hw', hlong⟩
      refine ⟨rfl, ?_⟩
      simp only [Server.LogTooShortFor, List.map_cons, List.sum_cons, Action.logBytes]
      obtain hsame | hmoved := htook.aofWriter
      · exact ⟨writer', hsame ▸ hw', by omega⟩
      · rw [hmoved, Option.mem_def, Option.map_eq_some_iff] at hw'
        obtain ⟨writer, hw, rfl⟩ := hw'
        exact ⟨writer, hw, by simp only at hlong; omega⟩
    | restart rt io random engines =>
      obtain ⟨hmemory, hfiles, hrandom⟩ := hallowed
      have hstart := hs.restart hvalid hrole hmemory hfiles hrandom engines
      refine (hstart.mono (fun _ _ h => h) fun _ h => h.elim).bind fun ok s₁ h₁ => ?_
      obtain ⟨rfl, hs₁, -, hwriter⟩ := h₁
      refine (hrest hs₁).mono (fun _ _ h => h) ?_
      rintro e ⟨rfl, writer, hw, hlong⟩
      refine ⟨rfl, writer, hwriter ▸ hw, ?_⟩
      simpa [Action.logBytes] using hlong

theorem Server.Booted.steady (h : Server.Booted s config disk Maps.empty) (hempty : ∀ path, disk path = none)
    (hmemory : ¬s.rt.CanFail) (hfiles : ¬s.io.CanFail) (hlogged : config.persistenceMode ≠ .snapshot) :
    s.Steady config Maps.empty ∧ ∀ writer ∈ s.aofWriter, writer.offset = 0 := by
  have hbytes : ∀ path, s.disk.bytes path = [] := by
    intro path
    rw [h.disk, Disk.openLog_bytes, Disk.bytes, hempty]
    rfl
  have hzero : ∀ writer ∈ s.aofWriter, writer.offset = 0 := by
    intro writer hw
    rw [h.running.log, Option.mem_def, Option.map_eq_some_iff] at hw
    obtain ⟨path, -, rfl⟩ := hw
    simp [hbytes]
  have hsnapshot : s.disk .snapshotDb = none := by
    rw [h.disk, Disk.openLog]
    cases config.persistenceMode <;> simp [PersistenceMode.logPath, hempty]
  have hmode : s.persistenceMode ≠ .snapshot := by
    rw [h.mode]
    exact hlogged
  have hcovered : s.disk.Covered := by
    rintro M o (⟨-, rfl⟩ | hholds)
    · exact Nat.zero_le _
    · rw [hsnapshot] at hholds
      cases hholds
  have hdurable : s.Durable Maps.empty :=
    ⟨h.running, Disk.recovers_empty hbytes hsnapshot hmode, fun _ => hcovered, hmode⟩
  refine ⟨⟨⟨h.running.holds, hmemory, fun e k v hv => by simp [Maps.empty] at hv, h.running.role,
    fun _ => ?_⟩, hfiles, hdurable, ?_, h.mode⟩, hzero⟩
  · obtain ⟨path, hpath⟩ := hdurable.logPath
    rw [h.running.log, hpath]
    rfl
  · intro writer hw
    rw [hzero writer hw]
    exact Nat.zero_le _

/-- From an empty directory, whatever commands come, wherever `SAVE` is among
them and wherever the server is stopped and started again: every start
succeeds, and one more start would find the maps of the moment and leave every
file as it is. The run ends early only where the log would pass the last
position of a file. -/
theorem restart_durable (config : Config) (s : Server) (rt : Runtime) (io : FileIo)
    (random : Option Bytes) (engines : Engines) (actions : List Action)
    (hconfig : config.role = .standalone ∧ config.persistenceMode = .aof ∨
      config.role = .primary ∧ config.persistenceMode = .legacyHybrid)
    (hempty : ∀ path, s.disk path = none)
    (hfirst : (Action.restart rt io random engines).Allowed)
    (hactions : ∀ action ∈ actions, action.Allowed) :
    Triple (runActions config (.restart rt io random engines :: actions)) s
      (fun ok s' => ok = true ∧ ∃ M, s'.engines.Contains s'.rt M ∧
        ∀ rt' io' random' engines', (Action.restart rt' io' random' engines').Allowed →
          ∃ s'', restart config rt' io' random' engines' s' = .ok (true, s'') ∧
            s''.engines.Contains s''.rt M ∧ s''.disk = s'.disk)
      (fun e => e = .exit ∧ offMax < (actions.map Action.logBytes).sum) := by
  have hvalid : config.Valid := by
    obtain ⟨hrole, hmode⟩ | ⟨hrole, hmode⟩ := hconfig <;> simp [Config.Valid, hrole, hmode]
  have hrole : config.role ≠ .replica := by
    obtain ⟨hrole, -⟩ | ⟨hrole, -⟩ := hconfig <;> simp [hrole]
  have hlogged : config.persistenceMode ≠ .snapshot := by
    obtain ⟨-, hmode⟩ | ⟨-, hmode⟩ := hconfig <;> simp [hmode]
  have hrecovers : s.disk.Recovers config.persistenceMode Maps.empty :=
    Disk.recovers_empty (fun path => by rw [Disk.bytes, hempty]; rfl) (hempty _) hlogged
  obtain ⟨hmemory, hfiles, hrandom⟩ := hfirst
  have hstart := kvsServerRun_recovers hvalid hrole hrecovers hmemory hrandom io engines
  refine Triple.bind (P := fun ok s₁ => ok = true ∧ rt.Extends s₁.rt ∧ s₁.io = io ∧
    s₁.Booted config s.disk Maps.empty) ?_ ?_
  · exact Triple.get_bind (Triple.set_bind (hstart.mono (fun _ _ h => h) fun _ h => h.elim))
  rintro ok s₁ ⟨rfl, hext, rfl, hbooted⟩
  obtain ⟨hsteady, hzero⟩ :=
    hbooted.steady hempty (fun hcan => hmemory (hext.canFail hcan)) hfiles hlogged
  refine (runActions_spec hsteady hvalid hrole actions hactions).mono ?_ ?_
  · rintro ok s' ⟨rfl, M, hs'⟩
    refine ⟨rfl, M, hs'.serving.holds.contains, fun rt' io' random' engines' hallowed => ?_⟩
    obtain ⟨ok, s'', hrun, rfl, hs'', hdisk, -⟩ :=
      (hs'.restart hvalid hrole hallowed.1 hallowed.2.1 hallowed.2.2 engines').run
    exact ⟨s'', hrun, hs''.serving.holds.contains, hdisk⟩
  · rintro e ⟨rfl, writer, hw, hlong⟩
    rw [hzero writer hw] at hlong
    exact ⟨rfl, by omega⟩

/-- A primary that writes, saves, writes again and is restarted in between. -/
theorem restart_durable_save :
    ∃ (config : Config) (s s' : Server) (rt : Runtime) (io : FileIo) (engines : Engines)
      (output : OutputBuffer) (M : Maps), config.persistenceMode = .legacyHybrid ∧
      runActions config [.restart rt io (some []) engines,
        .command [ascii "RSET", [107], [118]] output, .command [ascii "SAVE"] output,
        .restart rt io (some []) engines, .command [ascii "RSET", [107], [119]] output] s =
        .ok (true, s') ∧ s'.engines.Contains s'.rt M ∧
      ∃ s'', restart config rt io (some []) engines s' = .ok (true, s'') ∧
        s''.engines.Contains s''.rt M ∧ s''.disk = s'.disk := by
  obtain ⟨rt, hfail⟩ : ∃ rt : Runtime, ¬rt.CanFail := ⟨_, Runtime.not_canFail_start fun _ => false⟩
  obtain ⟨io, hio⟩ : ∃ io : FileIo, ¬io.CanFail := ⟨_, FileIo.not_canFail_start⟩
  obtain ⟨_, -, -, -, E, -, -⟩ := (initKvengine_spec hfail).run
  obtain ⟨output, hready⟩ : ∃ output : OutputBuffer, output.Ready :=
    ⟨⟨⟨some 1, 2048⟩, [], 0⟩, by decide, by decide, by decide, by decide⟩
  have hstart : (Action.restart rt io (some []) E).Allowed := ⟨hfail, hio, rfl⟩
  have hcommand : ∀ fields : List Bytes, 1 ≤ fields.length → fields.length ≤ kvsMaxTokens →
      (encodeFields fields).length ≤ kvsMaxClientCommandBytes →
      (∀ op, findCommand (fields.headD []) ≠ some ⟨.hash, op⟩) →
      (Action.command fields output).Allowed := by
    intro fields hone hmax hsize hengine
    exact ⟨⟨hone, hmax, hsize, .of_name hengine⟩, hready⟩
  have hset : ∀ op, findCommand (ascii "RSET") ≠ some ⟨.hash, op⟩ := by
    intro op
    cases op <;> decide
  have hsave : ∀ op, findCommand (ascii "SAVE") ≠ some ⟨.hash, op⟩ := by
    intro op
    cases op <;> decide
  have hrun := restart_durable ⟨.primary, .legacyHybrid, [], 0⟩ (Server.process rt io (fun _ => none) E)
    rt io (some []) E [.command [ascii "RSET", [107], [118]] output, .command [ascii "SAVE"] output,
      .restart rt io (some []) E, .command [ascii "RSET", [107], [119]] output]
    (.inr ⟨rfl, rfl⟩) (fun _ => rfl) hstart ?_
  · obtain ⟨ok, s', hs', rfl, M, hM, hagain⟩ := (hrun.mono (fun _ _ h => h) (by
      rintro e ⟨-, hlong⟩
      simp only [List.map_cons, List.map_nil, Action.logBytes, List.sum_cons, List.sum_nil] at hlong
      exact absurd hlong (by decide))).run
    exact ⟨_, _, s', rt, io, E, output, M, rfl, hs', hM, hagain rt io (some []) E hstart⟩
  · simp only [List.mem_cons, List.not_mem_nil, or_false]
    rintro action (rfl | rfl | rfl | rfl)
    · exact hcommand _ (by decide) (by decide) (by decide) hset
    · exact hcommand _ (by decide) (by decide) (by decide) hsave
    · exact hstart
    · exact hcommand _ (by decide) (by decide) (by decide) hset

end KvStore
