import KvStore.Lib.Replay
import KvStore.Server.Boot
import KvStore.Server.Effects

/-!
# What a start recovers

A working directory holds four maps: those of its snapshot, followed by the
commands of its log. Starting a server succeeds on exactly the directories that
hold maps, and fills the engines with these maps. The log is read and never
written; memory may run out at any point, and then the start fails.
-/

namespace KvStore

open Lib

variable {s s' : Server} {M : Maps} {fields : List Bytes} {source : CommandSource}

-- ---------------------------------------------------------------------------
-- A command from a log
-- ---------------------------------------------------------------------------

theorem logHandler_effect (h : s.engines.Hold s.rt.mallocs M)
    (hlog : s.Logs source → s.aofWriter.isSome) (hsource : source ≠ .client)
    (hroom : replyRoom < capacity) :
    Triple (logHandler source capacity fields) s (fun r s' =>
      ∃ done, s.Outcome M source fields done s' ∧ (r.isSome ↔ done = true) ∧
        ∀ text ∈ r, 0 < text.length ∧ text.length ≤ replyRoom) (s.Stops M source fields) := by
  unfold logHandler
  refine (kvsExecuteFields_effect h hlog (by simp only; omega) (Nat.zero_le _)).bind
    fun ex s' hr => ?_
  obtain ⟨done, houtcome, htells⟩ := hr
  have hok : ex.status = .ok ↔ done = true := ⟨htells.done_of_ok, htells.ok_of_done hroom⟩
  refine Triple.pure ⟨done, houtcome, ?_⟩
  by_cases hstatus : ex.status = .ok
  · obtain ⟨text, hreply, htext⟩ := htells.text hstatus hsource
    simp only [hstatus, if_true, hreply]
    refine ⟨by simp [hok.mp hstatus], ?_⟩
    rintro _ ⟨⟩
    exact htext
  · simp only [hstatus, if_false]
    exact ⟨by simp [← hok, hstatus], by simp⟩

theorem Server.Outcome.recovered (h : Server.Outcome s M .recovery fields b s') :
    ∃ rt' E', s' = { s with rt := rt', engines := E' } ∧ s.rt.Extends rt' ∧
      (b = true ∧ (∃ M', M.redo fields = some M' ∧ E'.Hold rt'.mallocs M') ∨
        b = false ∧ (M.redo fields = none ∨ s.rt.CanFail) ∧ E'.Hold rt'.mallocs M) := by
  cases h with
  | done htook hredo =>
    obtain ⟨M', hM'⟩ := Option.isSome_iff_exists.mp hredo
    obtain ⟨s₀, rt', E', hleaves, rfl, hext, hE⟩ := htook
    rw [hM'] at hE
    cases hleaves with
    | kept => exact ⟨rt', E', rfl, hext, .inl ⟨rfl, M', hM', hE⟩⟩
    | logged hlogs => exact absurd rfl hlogs.1
    | saved hname =>
      rw [redo_of_not_found hname] at hM'
      cases hM'
  | idle hwhy hext hE =>
    refine ⟨_, _, rfl, hext, .inr ⟨rfl, ?_, hE⟩⟩
    exact hwhy.imp_right fun h => h.resolve_right fun h => by cases h.2
  | saved hclient => cases hclient

-- ---------------------------------------------------------------------------
-- Replay
-- ---------------------------------------------------------------------------

/-- The commands of a log lead from one family of maps to another. -/
abbrev LogReplays : Maps → Bytes → Maps → Prop :=
  Replays (kvsParseCommand 3) fun M r => M.redo r.1

theorem kvsParseCommand_online (k : Nat) : Online (kvsParseCommand k) :=
  kvsParseCommandLimited_online k sizeMax

theorem kvsParseCommand_rest (h : kvsParseCommand k input = .done (fields, n) rest) :
    0 < n ∧ n ≤ input.length ∧ rest = input.drop n := by
  obtain ⟨w, rfl, hw, hn, -⟩ := (kvsParseCommandLimited_exact k sizeMax _ _ _).mp h
  simp only at hn
  subst hn
  obtain ⟨l, v, rfl, -⟩ := hw
  refine ⟨by simp, by simp, ?_⟩
  rw [List.drop_left]

theorem kvsParseCommand_nil (k : Nat) (hk : k ≠ 0) : kvsParseCommand k [] = .more := by
  unfold kvsParseCommand kvsParseCommandLimited
  rw [if_neg (by unfold sizeMax; omega)]
  rfl

theorem LogReplays.unique (h : LogReplays M log M₁) (h' : LogReplays M log M₂) : M₁ = M₂ :=
  Replays.unique (kvsParseCommand_nil 3 (by decide)) h h'

theorem LogReplays.snoc (h : LogReplays M log M₁) (hredo : M₁.redo fields = some M₂)
    (hsize : (encodeFields fields).length ≤ sizeMax) :
    LogReplays M (log ++ encodeFields fields) M₂ := by
  obtain ⟨cmd, hcmd, -⟩ := redo_eq_some hredo
  have hcount := hcmd.count
  have hne : fields ≠ [] := by
    rintro rfl
    simp at hcount
  have hread := kvsParseCommandLimited_encodeFields hne (show fields.length ≤ 3 by omega) hsize
    (Nat.le_refl _) []
  rw [List.append_nil] at hread
  exact Replays.snoc (kvsParseCommand_online 3) h hread hredo

theorem redo_of_not_admits (hcmd : Dispatched fields cmd)
    (h : ¬cmd.engine.Admits (fields.getD 1 [])) : M.redo fields = none := by
  cases hredo : M.redo fields with
  | none => rfl
  | some M' =>
    obtain ⟨cmd', hcmd', hadmits, -⟩ := redo_eq_some hredo
    have hsame := hcmd'.found.symm.trans hcmd.found
    rw [Option.some.injEq] at hsame
    rw [hsame] at hadmits
    exact absurd hadmits h

theorem LogReplays.stuck (hparse : kvsParseCommand 3 (b :: input) = .done (fields, n) rest)
    (hredo : M.redo fields = none) (M₁ : Maps) : ¬LogReplays M (b :: input) M₁ := by
  intro hlog
  obtain ⟨hnil, -⟩ | ⟨r', rest', M', hread, hstep, -⟩ := hlog.cases_log
  · cases hnil
  · rw [hparse] at hread
    cases hread
    rw [hredo] at hstep
    cases hstep

/-- The replay loop: `0` exactly for a log that leads to some maps. -/
theorem replayLoop_effect (h : s.engines.Hold s.rt.mallocs M) (hrounds : input.length ≤ rounds) :
    Triple (Replaying.replayLoop (fun fields => do
        return (← kvsRecoveryFieldsProtocol fields).elim (-1) fun response => (response.length : Int))
      rounds input) s (fun r s' => ∃ rt' E' M',
      s' = { s with rt := rt', engines := E' } ∧ s.rt.Extends rt' ∧ E'.Hold rt'.mallocs M' ∧
      (r = 0 ∧ LogReplays M input M' ∨
        r = -1 ∧ (s.rt.CanFail ∨ ∀ M₁, ¬LogReplays M input M₁)))
      (fun e => e = .undefined ∧ ∀ M₁, ¬LogReplays M input M₁) := by
  induction rounds generalizing s M input with
  | zero =>
    obtain rfl : input = [] := List.length_eq_zero_iff.mp (Nat.le_zero.mp hrounds)
    exact Triple.pure ⟨s.rt, s.engines, M, rfl, .refl _, h, .inl ⟨rfl, .done M⟩⟩
  | succ rounds ih =>
    cases input with
    | nil => exact Triple.pure ⟨s.rt, s.engines, M, rfl, .refl _, h, .inl ⟨rfl, .done M⟩⟩
    | cons b input =>
      -- without a command at its start the log leads nowhere
      have hstuck : (∀ r rest, kvsParseCommand 3 (b :: input) ≠ .done r rest) →
          ∀ M₁, ¬LogReplays M (b :: input) M₁ := by
        intro hno M₁ hlog
        obtain ⟨hnil, -⟩ | ⟨r, rest, M', hread, -⟩ := hlog.cases_log
        · cases hnil
        · exact hno r rest hread
      unfold Replaying.replayLoop
      cases hparse : kvsParseCommand 3 (b :: input) with
      | more | error =>
        refine Triple.pure ⟨s.rt, s.engines, M, rfl, .refl _, h, .inr ⟨rfl, .inr (hstuck ?_)⟩⟩
        intro r rest hread
        rw [hparse] at hread
        cases hread
      | done r rest =>
        obtain ⟨fields, n⟩ := r
        obtain ⟨hpos, hle, hrest⟩ := kvsParseCommand_rest hparse
        simp only [show ¬(n = 0 ∨ n > (b :: input).length) by omega, if_false, bind_assoc, pure_bind]
        have hstep : Triple (kvsRecoveryFieldsProtocol fields) s (fun r s' =>
            ∃ done, s.Outcome M .recovery fields done s' ∧ (r.isSome ↔ done = true) ∧
              ∀ text ∈ r, 0 < text.length ∧ text.length ≤ replyRoom)
            (fun e => e = .undefined ∧ ∀ M₁, ¬LogReplays M (b :: input) M₁) := by
          refine (logHandler_effect h (fun hlogs => absurd rfl hlogs.1) (by decide) (by decide)).mono
            (fun _ _ h => h) ?_
          rintro e (⟨-, hlogs, -⟩ | ⟨rfl, cmd, hcmd, hno⟩)
          · exact absurd rfl hlogs.1
          · exact ⟨rfl, LogReplays.stuck hparse (redo_of_not_admits hcmd hno)⟩
        refine hstep.bind fun r s1 h1 => ?_
        obtain ⟨done, houtcome, hsome, htext⟩ := h1
        obtain ⟨rt1, E1, rfl, hext1, ⟨rfl, M1, hredo, hE1⟩ | ⟨rfl, hwhy, hE1⟩⟩ := houtcome.recovered
        · obtain ⟨text, rfl⟩ := Option.isSome_iff_exists.mp (hsome.mpr rfl)
          obtain ⟨htpos, htlen⟩ := htext text rfl
          unfold replyRoom at htlen
          simp only [Option.elim, show ¬((text.length : Int) ≤ 0 ∨ (text.length : Int) > 1024) by omega,
            if_false, ← hrest]
          have hlen : rest.length ≤ rounds := by
            rw [hrest, List.length_drop]
            simp only [List.length_cons] at hrounds hle ⊢
            omega
          -- what the rest of the log cannot reach, the whole cannot
          have hbehind : (∀ M₁, ¬LogReplays M1 rest M₁) → ∀ M₁, ¬LogReplays M (b :: input) M₁ := by
            intro hnone M₁ hlog
            obtain ⟨hnil, -⟩ | ⟨r', rest', M', hread, hstep, hlog'⟩ := hlog.cases_log
            · cases hnil
            · rw [hparse] at hread
              cases hread
              rw [hredo] at hstep
              cases hstep
              exact hnone M₁ hlog'
          refine (ih (s := { s with rt := rt1, engines := E1 }) hE1 hlen).mono (fun r s2 h2 => ?_)
            fun e he => ⟨he.1, hbehind he.2⟩
          obtain ⟨rt2, E2, M2, rfl, hext2, hE2, hcases⟩ := h2
          refine ⟨rt2, E2, M2, rfl, hext1.trans hext2, hE2, hcases.imp ?_ ?_⟩
          · exact fun ⟨hr, hlog⟩ => ⟨hr, .next hparse hredo hlog⟩
          · exact fun ⟨hr, hwhy⟩ => ⟨hr, hwhy.imp hext1.canFail hbehind⟩
        · obtain rfl : r = none := by
            cases r with
            | none => rfl
            | some text => exact absurd (hsome.mp rfl) (by decide)
          exact Triple.pure ⟨rt1, E1, M, rfl, hext1, hE1,
            .inr ⟨rfl, hwhy.symm.imp_right fun hredo => LogReplays.stuck hparse hredo⟩⟩

-- ---------------------------------------------------------------------------
-- The snapshot
-- ---------------------------------------------------------------------------

/-- The maps in a snapshot file and its checkpoint; without a file the maps are
empty. -/
inductive SnapshotHolds : Option Bytes → Maps → Option SnapshotCheckpoint → Prop
  | missing : SnapshotHolds none Maps.empty none
  | file {M : Maps} : SnapshotFile file header records → Maps.empty.loadAll records = some M →
    (∀ r ∈ records, r.engine.Admits r.key) → SnapshotHolds (some file) M (some header.checkpoint)

theorem loadAll_admits {E : Engines} (h : E.Hold n M) (hload : Maps.empty.loadAll records = some M) :
    ∀ r ∈ records, r.engine.Admits r.key := by
  intro r hr
  refine h.admitted r.engine r.key r.value ?_
  rw [Maps.lookup_loadAll hload]
  exact .inr hr

theorem SnapshotHolds.unique (h : SnapshotHolds f M cp) (h' : SnapshotHolds f M' cp') :
    M = M' ∧ cp = cp' := by
  cases h with
  | missing =>
    cases h'
    exact ⟨rfl, rfl⟩
  | file hfile hload _ =>
    cases h' with
    | file hfile' hload' _ =>
      obtain ⟨rfl, rfl⟩ := hfile.unique hfile'
      rw [hload] at hload'
      cases hload'
      exact ⟨rfl, rfl⟩

def Loaded (rt : Runtime) (file : Option Bytes) (result : Int) (checkpoint : SnapshotCheckpoint)
    (M : Maps) : Prop :=
  result = 1 ∧ SnapshotHolds file M none ∨ result = 0 ∧ SnapshotHolds file M (some checkpoint) ∨
    result = -1 ∧ (rt.CanFail ∨ ∀ M₁ cp, ¬SnapshotHolds file M₁ cp)

theorem loadSnapshot_effect (h : s.engines.Hold s.rt.mallocs Maps.empty) (path : Path) :
    Triple (loadSnapshot path) s (fun r s' => ∃ rt' E' M',
      s' = { s with rt := rt', engines := E' } ∧ s.rt.Extends rt' ∧ E'.Hold rt'.mallocs M' ∧
      Loaded s.rt (s.disk path) r.1 r.2 M')
      (fun e => e = .undefined ∧ ∀ M₁ cp, ¬SnapshotHolds (s.disk path) M₁ cp) := by
  have hload : Triple (kvsSnapshotStoreLoadWithCheckpoint (s.disk path) s.engines
      SnapshotCheckpoint.zero) s.rt (fun r rt' => s.rt.Extends rt' ∧ ∃ M',
        r.2.1.Hold rt'.mallocs M' ∧ Loaded s.rt (s.disk path) r.1 r.2.2 M')
      (fun e => e = .undefined ∧ ∀ M₁ cp, ¬SnapshotHolds (s.disk path) M₁ cp) := by
    cases hfile : s.disk path with
    | none => exact Triple.pure ⟨.refl _, Maps.empty, h, .inl ⟨rfl, .missing⟩⟩
    | some file =>
      cases hvalidate : snapshotValidate file with
      | none =>
        simp only [kvsSnapshotStoreLoadWithCheckpoint, hvalidate]
        refine Triple.pure ⟨.refl _, Maps.empty, h, .inr (.inr ⟨rfl, .inr ?_⟩)⟩
        rintro M₁ cp (- | ⟨hformat, -, -⟩)
        rw [snapshotValidate_eq_some.mpr ⟨_, hformat⟩] at hvalidate
        cases hvalidate
      | some header =>
        obtain ⟨records, hformat⟩ := snapshotValidate_eq_some.mp hvalidate
        -- another reading of the file would find the same records
        have hother : (Maps.empty.loadAll records = none ∨ ∃ r ∈ records, ¬r.engine.Admits r.key) →
            ∀ M₁ cp, ¬SnapshotHolds (some file) M₁ cp := by
          rintro hno M₁ cp (- | ⟨hformat', hload', hadmits⟩)
          obtain ⟨-, rfl⟩ := hformat.unique hformat'
          obtain hnone | ⟨r, hr, hbad⟩ := hno
          · rw [hnone] at hload'
            cases hload'
          · exact hbad (hadmits r hr)
        refine (load_snapshotFile_effect hformat h SnapshotCheckpoint.zero).mono ?_
          fun e he => ⟨he.1, hother (.inr he.2)⟩
        rintro r rt' ⟨hext, M', hhold, ⟨hload, hcode, hcp⟩ | ⟨hwhy, hcode, -⟩⟩
        · refine ⟨hext, M', hhold, .inr (.inl ⟨hcode, ?_⟩)⟩
          rw [hcp]
          exact .file hformat hload (loadAll_admits hhold hload)
        · exact ⟨hext, M', hhold, .inr (.inr ⟨hcode, hwhy.symm.imp_right fun h => hother (.inl h)⟩)⟩
  unfold loadSnapshot
  refine Triple.get_bind ?_
  have hstep : Triple (onRuntime (kvsSnapshotStoreLoadWithCheckpoint (s.disk path) s.engines
      SnapshotCheckpoint.zero)) s (fun r s' => ∃ rt' M', s' = { s with rt := rt' } ∧
        s.rt.Extends rt' ∧ r.2.1.Hold rt'.mallocs M' ∧ Loaded s.rt (s.disk path) r.1 r.2.2 M')
      (fun e => e = .undefined ∧ ∀ M₁ cp, ¬SnapshotHolds (s.disk path) M₁ cp) := by
    refine onRuntime_triple (hload.weaken fun r rt' hr => ?_)
    obtain ⟨hext, M', hrest⟩ := hr
    exact ⟨rt', M', rfl, hext, hrest⟩
  refine hstep.bind fun r s' hr => ?_
  obtain ⟨rt', M', rfl, hext, hhold, hcases⟩ := hr
  obtain ⟨result, E', checkpoint⟩ := r
  exact ⟨rt', E', M', rfl, hext, hhold, hcases⟩

-- ---------------------------------------------------------------------------
-- The whole start
-- ---------------------------------------------------------------------------

def PersistenceMode.logPath : PersistenceMode → Option Path
  | .legacyHybrid => some .appendonlyAof
  | .snapshot => none
  | .aof => some .commandsAof

def Disk.bytes (disk : Disk) (path : Path) : Bytes := (disk path).getD []

/-- The maps of `snapshot.db` and the position of the log they stand for. -/
def Disk.Base (disk : Disk) (M : Maps) (offset : Nat) : Prop :=
  SnapshotHolds (disk .snapshotDb) M none ∧ offset = 0 ∨
    SnapshotHolds (disk .snapshotDb) M (some ⟨true, offset⟩)

/-- The maps that a directory holds for a mode. -/
def Disk.Recovers (disk : Disk) (mode : PersistenceMode) (M : Maps) : Prop :=
  match mode with
  | .snapshot => ∃ cp, SnapshotHolds (disk .snapshotBin) M cp
  | .aof => LogReplays Maps.empty (disk.bytes .commandsAof) M
  | .legacyHybrid => ∃ M₀ offset, disk.Base M₀ offset ∧
      LogReplays M₀ ((disk.bytes .appendonlyAof).drop offset) M

/-- A server that runs, its log open at the end of the file. -/
structure Server.Running (s : Server) (M : Maps) : Prop where
  holds : s.engines.Hold s.rt.mallocs M
  role : s.role ≠ .replica
  log : s.aofWriter = s.persistenceMode.logPath.map fun path => ⟨path, (s.disk.bytes path).length, true⟩
  exists_log : ∀ path ∈ s.persistenceMode.logPath, (s.disk path).isSome

theorem kvsAofReplay_effect (h : s.engines.Hold s.rt.mallocs M) (path : Path) (offset : Nat) :
    Triple (kvsAofReplay path offset kvsRecoveryFieldsProtocol) s (fun r s' =>
      ∃ rt' E' M', s' = { s with rt := rt', engines := E' } ∧ s.rt.Extends rt' ∧
        E'.Hold rt'.mallocs M' ∧
        (r = 0 ∧ LogReplays M ((s.disk.bytes path).drop offset) M' ∨
          r = -1 ∧ (s.rt.CanFail ∨ ∀ M₁, ¬LogReplays M ((s.disk.bytes path).drop offset) M₁)))
      (fun e => e = .undefined ∧ ∀ M₁, ¬LogReplays M ((s.disk.bytes path).drop offset) M₁) := by
  unfold kvsAofReplay
  refine Triple.get_bind ?_
  cases hfile : s.disk path with
  | none =>
    simp only [Disk.bytes, hfile, Option.getD_none, List.drop_nil]
    exact Triple.pure ⟨s.rt, s.engines, M, rfl, .refl _, h, .inl ⟨rfl, .done M⟩⟩
  | some file =>
    have hdrop : file.drop (if (offset : Int) < file.length then (offset : Int).toNat else file.length) =
        (s.disk.bytes path).drop offset := by
      simp only [Disk.bytes, hfile, Option.getD_some]
      split
      · rw [Int.toNat_natCast]
      · rw [List.drop_length, List.drop_eq_nil_iff.mpr (by omega)]
    simp only [Replaying.kvsAofReplay, show ¬(offset : Int) < 0 by omega, if_false, hdrop]
    refine replayLoop_effect h ?_
    simp [Disk.bytes, hfile]

theorem replayAndOpen_effect (h : s.engines.Hold s.rt.mallocs M) (hclosed : s.aofWriter = none)
    (path : Path) (offset : Nat) :
    Triple (replayAndOpen path offset) s (fun ok s' => ∃ rt' E' M',
      s.rt.Extends rt' ∧ E'.Hold rt'.mallocs M' ∧
      (ok = true ∧ LogReplays M ((s.disk.bytes path).drop offset) M' ∧
        s' = { s with
          rt := rt', engines := E', disk := s.disk.write path (s.disk.bytes path),
          aofWriter := some ⟨path, (s.disk.bytes path).length, true⟩ } ∨
        ok = false ∧ (s.rt.CanFail ∨
          ∀ M₁, ¬LogReplays M ((s.disk.bytes path).drop offset) M₁)))
      (fun e => e = .undefined ∧ ∀ M₁, ¬LogReplays M ((s.disk.bytes path).drop offset) M₁) := by
  unfold replayAndOpen
  rw [if_neg (by omega), Int.toNat_natCast]
  refine (kvsAofReplay_effect h path offset).bind fun r s1 h1 => ?_
  obtain ⟨rt1, E1, M1, rfl, hext1, hE1, ⟨rfl, hlog⟩ | ⟨rfl, hwhy⟩⟩ := h1
  · simp only [Int.lt_irrefl, if_false]
    unfold kvsAofOpen
    simp only [bind_assoc]
    refine Triple.get_bind ?_
    simp only [hclosed, Option.isSome_none, Bool.false_eq_true, if_false]
    exact ⟨rt1, E1, M1, hext1, hE1, .inl ⟨rfl, hlog, rfl⟩⟩
  · simp only [show (-1 : Int) < 0 by decide, if_true]
    exact Triple.pure ⟨rt1, E1, M1, hext1, hE1, .inr ⟨rfl, hwhy⟩⟩

theorem SnapshotHolds.offset (h : SnapshotHolds f M (some cp)) : 0 ≤ cp.offset := by
  cases h with
  | file hfile _ _ =>
    obtain ⟨-, -, head, hwire, -⟩ := hfile
    cases hwire with
    | v1 => exact Int.le_refl _
    | v2 => exact Int.natCast_nonneg _

def Disk.openLog (disk : Disk) (mode : PersistenceMode) : Disk :=
  match mode.logPath with
  | none => disk
  | some path => disk.write path (disk.bytes path)

theorem Disk.openLog_bytes (disk : Disk) (mode : PersistenceMode) (path : Path) :
    (disk.openLog mode).bytes path = disk.bytes path := by
  unfold Disk.openLog Disk.bytes
  cases mode.logPath with
  | none => rfl
  | some log =>
    by_cases h : path = log
    · simp [h]
    · simp [h]

/-- A start recovers what the directory holds. -/
theorem recover_effect (h : s.engines.Hold s.rt.mallocs Maps.empty) (hclosed : s.aofWriter = none)
    (hrole : role ≠ .replica) (mode : PersistenceMode) :
    Triple (recover role mode) s (fun ok s' =>
      ok = true ∧ (∃ rt' E' M', s.rt.Extends rt' ∧ E'.Hold rt'.mallocs M' ∧
        s.disk.Recovers mode M' ∧ s' = { s with
          rt := rt', engines := E', disk := s.disk.openLog mode
          aofWriter := mode.logPath.map fun path => ⟨path, (s.disk.bytes path).length, true⟩ }) ∨
      ok = false ∧ (s.rt.CanFail ∨ ∀ M₁, ¬s.disk.Recovers mode M₁))
      (fun e => e = .undefined ∧ ∀ M₁, ¬s.disk.Recovers mode M₁) := by
  unfold recover
  rw [if_neg hrole]
  cases mode with
  | snapshot =>
    have hnone : (∀ M₁ cp, ¬SnapshotHolds (s.disk .snapshotBin) M₁ cp) →
        ∀ M₁, ¬s.disk.Recovers .snapshot M₁ := fun hno M₁ ⟨cp, hcp⟩ => hno M₁ cp hcp
    refine ((loadSnapshot_effect h .snapshotBin).mono (fun _ _ h => h)
      fun e he => ⟨he.1, hnone he.2⟩).bind fun r s1 h1 => ?_
    obtain ⟨rt1, E1, M1, rfl, hext1, hE1, hloaded⟩ := h1
    obtain ⟨result, cp⟩ := r
    obtain ⟨rfl, hholds⟩ | ⟨rfl, hholds⟩ | ⟨rfl, hwhy⟩ := hloaded
    · exact Triple.pure (.inl ⟨by decide, rt1, E1, M1, hext1, hE1, ⟨_, hholds⟩, by
        simp [Disk.openLog, PersistenceMode.logPath, hclosed]⟩)
    · exact Triple.pure (.inl ⟨by decide, rt1, E1, M1, hext1, hE1, ⟨_, hholds⟩, by
        simp [Disk.openLog, PersistenceMode.logPath, hclosed]⟩)
    · exact Triple.pure (.inr ⟨by decide, hwhy.imp_right hnone⟩)
  | aof =>
    refine (replayAndOpen_effect h hclosed .commandsAof 0).mono ?_ fun e he => he
    rintro ok s1 ⟨rt1, E1, M1, hext1, hE1, ⟨rfl, hlog, rfl⟩ | ⟨rfl, hwhy⟩⟩
    · exact .inl ⟨rfl, rt1, E1, M1, hext1, hE1, hlog, rfl⟩
    · exact .inr ⟨rfl, hwhy⟩
  | legacyHybrid =>
    have hnone : (∀ M₁ cp, ¬SnapshotHolds (s.disk .snapshotDb) M₁ cp) →
        ∀ M₁, ¬s.disk.Recovers .legacyHybrid M₁ := by
      rintro hno M₁ ⟨M₀, o, ⟨hholds, -⟩ | hholds, -⟩
      · exact hno _ _ hholds
      · exact hno _ _ hholds
    refine ((loadSnapshot_effect h .snapshotDb).mono (fun _ _ h => h)
      fun e he => ⟨he.1, hnone he.2⟩).bind fun r s1 h1 => ?_
    obtain ⟨rt1, E1, M1, rfl, hext1, hE1, hloaded⟩ := h1
    obtain ⟨result, cp⟩ := r
    -- once the base is known, the log decides
    have hreplay : ∀ o : Nat, s.disk.Base M1 o → (∀ M₀ o', s.disk.Base M₀ o' → M₀ = M1 ∧ o' = o) →
        Triple (replayAndOpen .appendonlyAof o) { s with rt := rt1, engines := E1 } (fun ok s' =>
          ok = true ∧ (∃ rt' E' M', s.rt.Extends rt' ∧ E'.Hold rt'.mallocs M' ∧
            s.disk.Recovers .legacyHybrid M' ∧ s' = { s with
              rt := rt', engines := E', disk := s.disk.openLog .legacyHybrid
              aofWriter := PersistenceMode.legacyHybrid.logPath.map fun path =>
                ⟨path, (s.disk.bytes path).length, true⟩ }) ∨
          ok = false ∧ (s.rt.CanFail ∨ ∀ M₁, ¬s.disk.Recovers .legacyHybrid M₁))
          (fun e => e = .undefined ∧ ∀ M₁, ¬s.disk.Recovers .legacyHybrid M₁) := by
      intro o hbase honly
      have hstuck : (∀ M₁, ¬LogReplays M1 ((s.disk.bytes .appendonlyAof).drop o) M₁) →
          ∀ M₁, ¬s.disk.Recovers .legacyHybrid M₁ := by
        rintro hno M₁ ⟨M₀, o', hbase', hlog⟩
        obtain ⟨rfl, rfl⟩ := honly M₀ o' hbase'
        exact hno M₁ hlog
      refine (replayAndOpen_effect (s := { s with rt := rt1, engines := E1 }) hE1 hclosed
        .appendonlyAof o).mono ?_ fun e he => ⟨he.1, hstuck he.2⟩
      rintro ok s2 ⟨rt2, E2, M2, hext2, hE2, ⟨rfl, hlog, rfl⟩ | ⟨rfl, hwhy⟩⟩
      · exact .inl ⟨rfl, rt2, E2, M2, hext1.trans hext2, hE2, ⟨M1, o, hbase, hlog⟩, rfl⟩
      · exact .inr ⟨rfl, hwhy.imp hext1.canFail hstuck⟩
    obtain ⟨rfl, hholds⟩ | ⟨rfl, hholds⟩ | ⟨rfl, hwhy⟩ := hloaded
    · refine hreplay 0 (.inl ⟨hholds, rfl⟩) ?_
      rintro M₀ o' (⟨hholds', rfl⟩ | hholds')
      · exact ⟨(hholds'.unique hholds).1, rfl⟩
      · cases (hholds'.unique hholds).2
    · obtain ⟨hasOffset, offset⟩ := cp
      obtain ⟨o, rfl⟩ := Int.eq_ofNat_of_zero_le hholds.offset
      cases hasOffset with
      | false =>
        refine Triple.pure (.inr ⟨rfl, .inr ?_⟩)
        rintro M₁ ⟨M₀, o', ⟨hholds', -⟩ | hholds', -⟩
        · cases (hholds'.unique hholds).2
        · cases (hholds'.unique hholds).2
      | true =>
        refine hreplay o (.inr hholds) ?_
        rintro M₀ o' (⟨hholds', rfl⟩ | hholds')
        · cases (hholds'.unique hholds).2
        · obtain ⟨hM, hcp⟩ := hholds'.unique hholds
          simp only [Option.some.injEq, SnapshotCheckpoint.mk.injEq, true_and, Int.natCast_inj] at hcp
          exact ⟨hM, hcp⟩
    · exact Triple.pure (.inr ⟨rfl, hwhy.imp_right hnone⟩)

/-- The server that a start leaves: it runs with the maps of the directory, and
nothing in the directory changed but that the log exists now. -/
structure Server.Booted (s : Server) (config : Config) (disk : Disk) (M : Maps) : Prop where
  running : s.Running M
  role : s.role = config.role
  mode : s.persistenceMode = config.persistenceMode
  disk : s.disk = disk.openLog config.persistenceMode

theorem kvsReplicationInit_primary (hinit : s.replication.initialized = false)
    (hw : s.aofWriter = some writer) (host : Bytes) (port : Nat) (random : Option Bytes) :
    Triple (kvsReplicationInit .primary host port random) s (fun r s' =>
      r = 0 ∧ (∃ bytes, random = some bytes ∧ s' = { s with
        replication := s.replication.init Role.primary writer.offset (bytes.flatMap hexByte) host
          port }) ∨
      r = -1 ∧ random = none) Never := by
  unfold kvsReplicationInit
  refine Triple.get_bind ?_
  simp only [hinit, Bool.false_eq_true, reduceCtorEq, false_and, if_false, Server.aofOffset, hw,
    Option.map_some, if_true]
  cases random with
  | none => exact Triple.pure (.inr ⟨rfl, rfl⟩)
  | some bytes => exact .inl ⟨rfl, bytes, rfl, rfl⟩

/-- A start of a standalone server or a primary, with whatever memory and in
whatever directory: it succeeds only in one that holds maps, with these maps,
and fails only for want of memory, of a random number or of maps. -/
theorem kvsServerRun_effect (hvalid : config.Valid) (hrole : config.role ≠ .replica)
    (random : Option Bytes) (rt : Runtime) (io : FileIo) (disk : Disk) (engines : Engines) :
    Triple (kvsServerRun config random) (Server.process rt io disk engines) (fun ok s' =>
      ok = true ∧ rt.Extends s'.rt ∧ s'.io = io ∧
        (∃ M, disk.Recovers config.persistenceMode M ∧ s'.Booted config disk M) ∨
      ok = false ∧ (rt.CanFail ∨ random = none ∨ ∀ M, ¬disk.Recovers config.persistenceMode M))
      (fun e => e = .undefined ∧ ∀ M, ¬disk.Recovers config.persistenceMode M) := by
  unfold kvsServerRun
  let s₀ : Server := { Server.process rt io disk engines with
    role := config.role, persistenceMode := config.persistenceMode }
  refine Triple.modify_bind ?_
  change Triple _ s₀ _ _
  refine onRuntime_bind (initKvengine_effect rt) fun r rt₁ h₁ => ?_
  obtain ⟨hext₁, ⟨E, rfl, hE⟩ | ⟨rfl, hcan⟩⟩ := h₁
  rotate_left
  · exact Triple.pure (.inr ⟨rfl, .inl hcan⟩)
  let s₁ : Server := { s₀ with rt := rt₁, engines := E }
  refine Triple.modify_bind ?_
  change Triple _ s₁ _ _
  refine (recover_effect (s := s₁) hE rfl hrole config.persistenceMode).bind fun ok s₂ h₂ => ?_
  obtain ⟨rfl, rt₂, E₂, M, hext₂, hE₂, hrecovers, rfl⟩ | ⟨rfl, hwhy⟩ := h₂
  rotate_left
  · exact Triple.pure (.inr ⟨rfl, hwhy.imp hext₁.canFail .inr⟩)
  -- whatever becomes of the replication manager, the server runs
  have hbooted : ∀ replication, Server.Booted { s₁ with
      rt := rt₂, engines := E₂, disk := disk.openLog config.persistenceMode
      aofWriter := config.persistenceMode.logPath.map fun path => ⟨path, (disk.bytes path).length, true⟩
      replication } config disk M := by
    intro replication
    refine ⟨⟨hE₂, hrole, ?_, ?_⟩, rfl, rfl, rfl⟩
    · simp only [Disk.openLog_bytes]
      rfl
    · intro path hpath
      change config.persistenceMode.logPath = some path at hpath
      simp [Disk.openLog, hpath]
  have hext := hext₁.trans hext₂
  simp only [if_true]
  refine Triple.ite (fun _ => ?_) fun hprimary => ?_
  · exact Triple.pure (.inl ⟨rfl, hext, rfl, M, hrecovers, hbooted _⟩)
  · have hrole' : config.role = .primary := by
      cases h : config.role with
      | standalone => exact absurd h hprimary
      | primary => rfl
      | replica => exact absurd h hrole
    have hmode : config.persistenceMode = .legacyHybrid := by
      simpa [Config.Valid, hrole'] using hvalid
    let s₂ : Server := { s₁ with
      rt := rt₂, engines := E₂, disk := disk.openLog config.persistenceMode
      aofWriter := config.persistenceMode.logPath.map fun path => ⟨path, (disk.bytes path).length, true⟩ }
    have hw : s₂.aofWriter = some ⟨.appendonlyAof, (disk.bytes .appendonlyAof).length, true⟩ := by
      simp [s₂, hmode, PersistenceMode.logPath]
    rw [hrole']
    refine ((kvsReplicationInit_primary (s := s₂) rfl hw config.primaryHost config.primaryPort
      random).mono (fun _ _ h => h) fun _ h => h.elim).bind fun r s₃ h₃ => ?_
    obtain ⟨rfl, bytes, -, rfl⟩ | ⟨rfl, hrandom⟩ := h₃
    · exact Triple.pure (.inl ⟨by decide, hext, rfl, M, hrecovers, hbooted _⟩)
    · exact Triple.pure (.inr ⟨by decide, .inr (.inl hrandom)⟩)

end KvStore
