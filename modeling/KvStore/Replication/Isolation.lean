import KvStore.Persistence.SnapshotSave
import KvStore.Replication.Primary
import KvStore.Server.Blind

/-!
# One round of synchronisation does not see another

All replication connections share one manager. While a round is under way, only
its own connection can change it; and when that connection ends, whatever the
round had reached, the manager is the one of a server that has just started, but
for an offset that the next round sets before anything reads it.
-/

namespace KvStore

open Lib

-- ---------------------------------------------------------------------------
-- Events
-- ---------------------------------------------------------------------------

/-- What happens on a primary: a command of a client, input of a replication
connection, a poll of one, and its end. -/
inductive PrimaryEvent
  | command (fields : List Bytes) (output : OutputBuffer)
  | message (fd : Nat) (random : Option Bytes) (msg : Bytes) (capacity : Nat)
  | poll (fd capacity got : Nat) (env : RdmaAnswers)
  | disconnected (fd : Nat) (env : RdmaAnswers)

inductive PrimaryAnswer
  | executed (executed : Executed)
  | responded (response : Option (Bytes × Nat))
  | streamed (streamed : Streamed)
  | released

def PrimaryEvent.connection : PrimaryEvent → Option Nat
  | command .. => none
  | message fd .. => some fd
  | poll fd .. => some fd
  | disconnected fd _ => some fd

def PrimaryEvent.run : PrimaryEvent → Serve PrimaryAnswer
  | command fields output => do return .executed (← kvsExecuteFields fields output .client)
  | message fd random msg capacity => do
    return .responded (← kvsReplicationNetworkProtocol fd random msg capacity)
  | poll fd capacity got env => do return .streamed (← kvsReplicationStream fd capacity got env)
  | disconnected fd env => do
    kvsReplicationOnReplicaDisconnected fd env
    return .released

def runAll : List PrimaryEvent → Serve (List PrimaryAnswer)
  | [] => return []
  | event :: events => do
    let answer ← event.run
    let answers ← runAll events
    return answer :: answers

def freshPrimary (port : Nat) (id : Bytes) (offset : Nat) : ReplicationManager :=
  { ReplicationManager.start with rdmaPort := port }.init .primary offset id [] 0

inductive PrimaryReachable (port : Nat) (id : Bytes) : Server → Prop
  | start (s : Server) (offset : Nat) :
    PrimaryReachable port id { s with replication := freshPrimary port id offset }
  | step (h : PrimaryReachable port id s) (hrun : PrimaryEvent.run event s = .ok (answer, s')) :
    PrimaryReachable port id s'

structure ReplicationSettings where
  initialized : Bool
  role : Role
  rdmaPort : Nat
  primaryRdmaPort : Nat
  snapshotWriter : Option SnapshotReceiver
  replicationId : Bytes
  primaryHost : Bytes
  primaryPort : Nat
  primaryConnectionFd : Option Nat

def ReplicationManager.settings (m : ReplicationManager) : ReplicationSettings :=
  ⟨m.initialized, m.role, m.rdmaPort, m.primaryRdmaPort, m.snapshotWriter, m.replicationId,
    m.primaryHost, m.primaryPort, m.primaryConnectionFd⟩

section
variable {s s' t : Server} {m m' : ReplicationManager} {fd owner port capacity : Nat} {id : Bytes}
  {random : Option Bytes} {frame msg : Bytes}

-- ---------------------------------------------------------------------------
-- A round that is under way
-- ---------------------------------------------------------------------------

theorem kvsReplicationFrameProtocol_busy (hbusy : s.replication.snapshotConnectionFd = some owner)
    (fd : Nat) (random : Option Bytes) (frame : Bytes) (capacity : Nat) :
    ∃ r, kvsReplicationFrameProtocol fd random frame capacity s = .ok (r, s) := by
  unfold kvsReplicationFrameProtocol
  by_cases hempty : frame.length = 0 ∨ capacity = 0
  · rw [if_pos hempty]
    exact ⟨_, rfl⟩
  · rw [if_neg hempty]
    by_cases hping : frame = ascii "PING"
    · rw [if_pos hping]
      exact ⟨_, rfl⟩
    · rw [if_neg hping]
      by_cases hpsync : frame = ascii "PSYNC ? -1"
      · rw [if_pos hpsync]
        have hrefused : Triple (startFullSync fd capacity random) s (fun _ s' => s' = s) Never := by
          unfold startFullSync
          refine Triple.get_bind (Triple.ite (fun _ => Triple.pure rfl) fun _ => ?_)
          apply Triple.ite
          · intro _
            exact Triple.pure rfl
          · intro hidle
            exact absurd (.inl (by simp [hbusy])) hidle
        obtain ⟨r, s', hrun, rfl⟩ := hrefused.run
        exact ⟨r, hrun⟩
      · rw [if_neg hpsync]
        exact ⟨_, rfl⟩

theorem lineBatch_same {handler : Bytes → Nat → Serve (Option Bytes)}
    (hhandler : ∀ frame capacity, ∃ r, handler frame capacity s = .ok (r, s)) (capacity : Nat)
    (rounds : Nat) (msg response : Bytes) (consumed : Nat) :
    ∃ r, lineBatch handler capacity rounds msg response consumed s = .ok (r, s) := by
  induction rounds generalizing msg response consumed with
  | zero => exact ⟨_, rfl⟩
  | succ rounds ih =>
    unfold lineBatch
    cases kvsFindLineEnd msg with
    | none => exact ⟨_, rfl⟩
    | some line =>
      obtain ⟨frameEnd, delimiterLength⟩ := line
      simp only
      split
      · exact ⟨_, rfl⟩
      · split
        · exact ⟨_, rfl⟩
        · obtain ⟨r, hr⟩ := hhandler (msg.take frameEnd) (capacity - response.length)
          simp only [bind, StateT.bind, hr, Except.bind]
          cases r with
          | none => exact ⟨_, rfl⟩
          | some reply =>
            simp only
            split
            · exact ⟨_, rfl⟩
            · exact ih ..

theorem kvsReplicationNetworkProtocol_busy
    (hbusy : s.replication.snapshotConnectionFd = some owner) (fd : Nat) (random : Option Bytes)
    (msg : Bytes) (capacity : Nat) :
    ∃ r, kvsReplicationNetworkProtocol fd random msg capacity s = .ok (r, s) := by
  unfold kvsReplicationNetworkProtocol kvsLineBatchProtocol
  split
  · exact ⟨_, rfl⟩
  · exact lineBatch_same (kvsReplicationFrameProtocol_busy hbusy fd random) ..

theorem kvsReplicationStream_foreign (hfd : s.replication.snapshotConnectionFd ≠ some fd)
    (capacity got : Nat) (env : RdmaAnswers) :
    kvsReplicationStream fd capacity got env s =
      .ok (if ¬s.replication.initialized ∨ s.replication.role ≠ .primary ∨ capacity = 0 then .failed
        else .sent [], s) := by
  have hnothing : Triple (kvsReplicationStream fd capacity got env) s (fun r s' =>
      r = (if ¬s.replication.initialized ∨ s.replication.role ≠ .primary ∨ capacity = 0 then .failed
        else .sent []) ∧ s' = s) Never := by
    unfold kvsReplicationStream
    refine Triple.get_bind ?_
    apply Triple.ite
    · intro hbad
      exact Triple.pure ⟨(if_pos hbad).symm, rfl⟩
    · intro hgood
      apply Triple.ite
      · intro _
        exact Triple.pure ⟨(if_neg hgood).symm, rfl⟩
      · intro howner
        exact absurd hfd howner
  obtain ⟨_, _, hrun, rfl, rfl⟩ := hnothing.run
  exact hrun

theorem kvsReplicationOnReplicaDisconnected_foreign
    (hfd : s.replication.snapshotConnectionFd ≠ some fd) (env : RdmaAnswers) :
    kvsReplicationOnReplicaDisconnected fd env s = .ok ((), s) := by
  unfold kvsReplicationOnReplicaDisconnected
  simp [hfd, modify, modifyGet, MonadStateOf.modifyGet, StateT.modifyGet, pure, Except.pure]

/-- An event of another connection changes nothing. -/
theorem PrimaryEvent.run_foreign (hbusy : s.replication.snapshotConnectionFd = some owner)
    (event : PrimaryEvent) (hconnection : event.connection = some fd) (hfd : fd ≠ owner) :
    ∃ answer, event.run s = .ok (answer, s) := by
  have hother : ∀ fd', some fd' = some fd → s.replication.snapshotConnectionFd ≠ some fd' := by
    rintro fd' ⟨⟩ heq
    rw [hbusy] at heq
    exact hfd (Option.some.inj heq).symm
  cases event with
  | command => cases hconnection
  | message fd' random msg capacity =>
    obtain ⟨r, hr⟩ := kvsReplicationNetworkProtocol_busy hbusy fd' random msg capacity
    refine ⟨.responded r, ?_⟩
    simp only [PrimaryEvent.run, bind, StateT.bind, hr, Except.bind]
    rfl
  | poll fd' capacity got env =>
    obtain ⟨r, hr⟩ : ∃ r, kvsReplicationStream fd' capacity got env s = .ok (r, s) :=
      ⟨_, kvsReplicationStream_foreign (hother fd' hconnection) capacity got env⟩
    refine ⟨.streamed r, ?_⟩
    simp only [PrimaryEvent.run, bind, StateT.bind, hr, Except.bind]
    rfl
  | disconnected fd' env =>
    refine ⟨.released, ?_⟩
    have hr := kvsReplicationOnReplicaDisconnected_foreign (hother fd' hconnection) env
    simp only [PrimaryEvent.run, bind, StateT.bind, hr, Except.bind]
    rfl

-- ---------------------------------------------------------------------------
-- What a round leaves alone
-- ---------------------------------------------------------------------------

theorem sendSnapshotChunk_settings (env : RdmaAnswers) (got : Nat) (m : ReplicationManager) :
    (sendSnapshotChunk env got m).2.settings = m.settings := by
  unfold sendSnapshotChunk
  split
  · rfl
  · split
    · rfl
    · split
      · rfl
      · dsimp only
        split
        · rfl
        · split <;> rfl

theorem primaryReceive_settings (env : RdmaAnswers) (got : Nat) (data : Bytes)
    (m : ReplicationManager) : (primaryReceive env got data m).2.settings = m.settings := by
  unfold primaryReceive
  dsimp only
  split
  · split
    · rfl
    · split <;> rfl
  · split
    · rfl
    · split
      · rfl
      · exact (sendSnapshotChunk_settings env got _).trans rfl

theorem fullSyncStep_settings (env : RdmaAnswers) (got : Nat) (m : ReplicationManager) :
    (fullSyncStep env got m).2.settings = m.settings := by
  unfold fullSyncStep
  dsimp only
  split
  · rfl
  · split
    · split
      · exact sendSnapshotChunk_settings env got m
      · split <;> rfl
    · split
      · rfl
      · rfl
      · rfl
      · exact (primaryReceive_settings env got _ _).trans rfl
      · rfl

theorem kvsReplicationPrimaryStartCatchUp_settings (disk : Disk) (latest : Option Nat)
    (m : ReplicationManager) :
    (kvsReplicationPrimaryStartCatchUp disk latest m).2.settings = m.settings := by
  unfold kvsReplicationPrimaryStartCatchUp
  dsimp only
  split
  · rfl
  · split
    · rfl
    · split <;> rfl

theorem fullSyncEvent_settings (disk : Disk) (latest : Option Nat) (env : RdmaAnswers)
    (m : ReplicationManager) : (fullSyncEvent disk latest env m).2.settings = m.settings := by
  unfold fullSyncEvent
  dsimp only
  split
  · rfl
  · split
    · dsimp only
      split <;> rfl
    · split
      · rfl
      · split
        · exact (kvsReplicationPrimaryStartCatchUp_settings disk latest _).trans rfl
        · rfl
    · rfl
    · rfl

theorem streamOnline_settings (disk : Disk) (latest : Option Nat) (capacity got : Nat)
    (m : ReplicationManager) : (streamOnline disk latest capacity got m).2.settings = m.settings := by
  unfold streamOnline
  split
  · rfl
  · split
    · rfl
    · split
      · rfl
      · split
        · rfl
        · split
          · rfl
          · split
            · rfl
            · split <;> rfl

theorem streamLog_settings {disk : Disk} {latest : Option Nat} {capacity got rounds : Nat}
    (h : streamLog disk latest capacity got rounds m = .ok (r, m')) :
    m'.settings = m.settings := by
  have hdone : ∀ {r' : Streamed} {m m₁ : ReplicationManager},
      (.ok (r', m₁) : Except Stop (Streamed × ReplicationManager)) = .ok (r, m') →
      m₁.settings = m.settings → m'.settings = m.settings := by
    intro r' m m₁ heq hsame
    obtain ⟨-, rfl⟩ := Prod.mk.inj (Except.ok.inj heq)
    exact hsame
  induction rounds generalizing m with
  | zero =>
    unfold streamLog at h
    split at h
    · exact hdone h (streamOnline_settings disk latest capacity got m)
    · cases h
  | succ rounds ih =>
    unfold streamLog at h
    split at h
    · exact hdone h (streamOnline_settings disk latest capacity got m)
    · dsimp only at h
      split at h
      · exact hdone h rfl
      · split at h
        · exact hdone h rfl
        · split at h
          · exact hdone h rfl
          · split at h
            · exact hdone h rfl
            · split at h
              · split at h
                · exact hdone h rfl
                · exact (ih h).trans rfl
              · split at h
                · exact hdone h rfl
                · split at h
                  · exact hdone h rfl
                  · exact hdone h rfl

theorem kvsReplicationStream_settings (fd capacity got : Nat) (env : RdmaAnswers) (s : Server) :
    Triple (kvsReplicationStream fd capacity got env) s
      (fun _ s' => s'.replication.settings = s.replication.settings) fun _ => True := by
  unfold kvsReplicationStream
  refine Triple.get_bind ?_
  dsimp only
  refine Triple.ite (fun _ => Triple.pure rfl) fun _ => Triple.ite (fun _ => Triple.pure rfl) fun _ => ?_
  have hevent : (if s.replication.state = .fullSync then
      fullSyncEvent s.disk s.aofOffset env s.replication
      else (true, s.replication)).2.settings = s.replication.settings := by
    split
    · exact fullSyncEvent_settings ..
    · rfl
  generalize (if s.replication.state = .fullSync then
      fullSyncEvent s.disk s.aofOffset env s.replication else (true, s.replication)) = event at *
  have hset : ∀ r : Streamed × ReplicationManager, r.2.settings = s.replication.settings →
      Triple (do
        set { s with replication := r.2 }
        return r.1 : Serve Streamed) s
        (fun _ s' => s'.replication.settings = s.replication.settings) fun _ => True :=
    fun r h => Triple.set_bind (Triple.pure h)
  refine Triple.ite (fun _ => hset (.failed, event.2) hevent) fun _ => Triple.ite (fun _ => ?_) fun _ => ?_
  · exact hset (fullSyncStep env got event.2) ((fullSyncStep_settings ..).trans hevent)
  · refine Triple.bind (P := fun r s' => s' = s ∧ r.2.settings = s.replication.settings) ?_
      fun r s' h => ?_
    · cases hlog : streamLog s.disk s.aofOffset capacity got 2 event.2 with
      | ok r => exact ⟨rfl, (streamLog_settings hlog).trans hevent⟩
      | error e => trivial
    · obtain ⟨rfl, hsame⟩ := h
      exact hset r hsame

theorem onRuntime_frame (q : Run α) (s : Server) :
    Triple (onRuntime q) s (fun _ s' => ∃ rt', s' = { s with rt := rt' }) fun _ => True := by
  unfold Triple onRuntime zoom
  cases q s.rt with
  | ok r => exact ⟨_, rfl⟩
  | error e => trivial

theorem startFullSync_settings (fd capacity : Nat) (random : Option Bytes) (s : Server) :
    Triple (startFullSync fd capacity random) s
      (fun _ s' => s'.replication.settings = s.replication.settings) fun _ => True := by
  unfold startFullSync
  refine Triple.get_bind ?_
  dsimp only
  refine Triple.ite (fun _ => Triple.pure rfl) fun _ => Triple.ite (fun _ => Triple.pure rfl) fun _ => ?_
  cases s.aofOffset with
  | none => exact Triple.pure rfl
  | some offset =>
    refine (onRuntime_frame _ s).bind fun file s' h => ?_
    obtain ⟨rt', rfl⟩ := h
    cases file with
    | none => exact Triple.pure rfl
    | some file =>
      refine Triple.modify_bind (Triple.get_bind ?_)
      dsimp only
      refine Triple.ite (fun _ => Triple.pure rfl) fun _ => ?_
      split
      · exact Triple.set_bind (Triple.pure rfl)
      · split
        · exact Triple.set_bind (Triple.pure rfl)
        · exact Triple.set_bind (Triple.pure rfl)

theorem kvsReplicationFrameProtocol_settings (fd : Nat) (random : Option Bytes) (frame : Bytes)
    (capacity : Nat) (s : Server) :
    Triple (kvsReplicationFrameProtocol fd random frame capacity) s
      (fun _ s' => s'.replication.settings = s.replication.settings) fun _ => True := by
  unfold kvsReplicationFrameProtocol
  exact Triple.ite (fun _ => Triple.pure rfl) fun _ => Triple.ite (fun _ => Triple.pure rfl) fun _ =>
    Triple.ite (fun _ => startFullSync_settings ..) fun _ => Triple.pure rfl

theorem lineBatch_settings {handler : Bytes → Nat → Serve (Option Bytes)}
    (hhandler : ∀ frame capacity s, Triple (handler frame capacity) s
      (fun _ s' => s'.replication.settings = s.replication.settings) fun _ => True)
    (capacity rounds : Nat) (msg response : Bytes) (consumed : Nat) (s : Server) :
    Triple (lineBatch handler capacity rounds msg response consumed) s
      (fun _ s' => s'.replication.settings = s.replication.settings) fun _ => True := by
  induction rounds generalizing msg response consumed s with
  | zero => exact Triple.pure rfl
  | succ rounds ih =>
    unfold lineBatch
    cases kvsFindLineEnd msg with
    | none => exact Triple.pure rfl
    | some line =>
      refine Triple.ite (fun _ => Triple.pure rfl) fun _ => Triple.ite (fun _ => Triple.pure rfl)
        fun _ => ?_
      refine (hhandler _ _ s).bind fun reply s' h => ?_
      cases reply with
      | none => exact Triple.pure h
      | some reply =>
        refine Triple.ite (fun _ => Triple.pure h) fun _ => ?_
        exact (ih _ _ _ s').weaken fun _ _ h' => h'.trans h

theorem PrimaryEvent.run_settings (event : PrimaryEvent) (s : Server) :
    Triple event.run s (fun _ s' => s'.replication.settings = s.replication.settings)
      fun _ => True := by
  cases event with
  | command fields output =>
    have hblind : Blind (PrimaryEvent.command fields output).run :=
      (kvsExecuteFields_blind fields output .client).bind fun _ => .pure _
    unfold Triple
    cases hrun : (PrimaryEvent.command fields output).run s with
    | ok r => exact congrArg _ (hblind.replication hrun)
    | error e => trivial
  | message fd random msg capacity =>
    have hmessage : Triple (kvsReplicationNetworkProtocol fd random msg capacity) s
        (fun _ s' => s'.replication.settings = s.replication.settings) fun _ => True :=
      Triple.ite (fun _ => Triple.pure rfl) fun _ =>
        lineBatch_settings (kvsReplicationFrameProtocol_settings fd random) ..
    exact hmessage.bind fun _ _ h => Triple.pure h
  | poll fd capacity got env =>
    exact (kvsReplicationStream_settings fd capacity got env s).bind fun _ _ h => Triple.pure h
  | disconnected fd env =>
    refine Triple.modify_bind (Triple.pure ?_)
    dsimp only
    split <;> rfl

-- ---------------------------------------------------------------------------
-- The next round
-- ---------------------------------------------------------------------------

/-- Nothing but an offset that no round reads tells the servers apart. -/
def SameRound (s t : Server) : Prop :=
  t = s ∨ s.replication.snapshotConnectionFd = none ∧
    ∃ offset, t = { s with replication := { s.replication with replicationOffset := offset } }

theorem SameRound.refl (s : Server) : SameRound s s := .inl rfl

/-- A round that begins: the file of the maps, and a reader that is open on it.
Without memory, or for maps that no file can hold, it does not begin. -/
theorem startFullSync_begins {M : Maps} {offset : Nat} (h : s.engines.Hold s.rt.mallocs M)
    (hM : M.Storable) (hw : s.aofOffset = some offset)
    (hinit : s.replication.initialized = true) (hrole : s.replication.role = .primary)
    (hid : s.replication.replicationId ≠ []) (hidle : s.replication.snapshotConnectionFd = none)
    (hconnection : s.replication.rdmaSync.connection = none)
    (hcleanup : s.replication.rdmaCleanupConnection = none) (fd capacity : Nat) (random : Bytes) :
    Triple (startFullSync fd capacity (some random)) s (fun r s' =>
      r = none ∧ (s.rt.CanFail ∨ ¬M.snapshotSize ≤ offMax) ∨ ∃ rt' records file,
        s.rt.Extends rt' ∧ Lists M records ∧ M.snapshotSize ≤ offMax ∧
        file = savedFile (some offset) records ∧
        r = response capacity (fullResyncLine s'.replication) ∧
        s' = { s with
          rt := rt', disk := s.disk.write .replicationSnapshot file
          replication := { s.replication with
            aofReader := none, snapshotReader := some ⟨file, file.length⟩
            fullSyncId := random.flatMap hexByte, replicationOffset := offset
            snapshotFileSize := file.length, snapshotConnectionFd := some fd, state := .fullSync } })
      Never := by
  unfold startFullSync
  refine Triple.get_bind ?_
  rw [if_neg (by simp [hinit, hrole, hid]), if_neg (by simp [hidle, hconnection, hcleanup])]
  simp only [hw]
  refine onRuntime_bind (kvsSnapshotStoreSaveWithCheckpoint_saves h hM.lengths (some offset))
    fun saved rt' hsaved => ?_
  obtain ⟨hext, ⟨rfl, hcan⟩ | ⟨records, hlists, rfl⟩⟩ := hsaved
  · exact Triple.pure (.inl ⟨rfl, .inl hcan⟩)
  by_cases hsize : M.snapshotSize ≤ offMax
  · rw [if_pos hsize]
    generalize hfile : savedFile (some offset) records = file
    have hpos : file.length ≠ 0 := by
      rw [← hfile, length_savedFile]
      simp [snapshotHeaderV2Size]
    simp only
    refine Triple.modify_bind (Triple.get_bind ?_)
    rw [if_neg hpos]
    simp only [kvsSnapshotReaderOpen, hpos, if_false, Disk.write_self, ne_eq, not_true_eq_false,
      kvsReplicationGenerateId, Option.map_some]
    exact Triple.set_bind (Triple.pure (.inr ⟨rt', records, file, hext, hlists, hsize, hfile.symm, rfl, rfl⟩))
  · rw [if_neg hsize]
    exact Triple.pure (.inl ⟨rfl, .inr hsize⟩)

theorem startFullSync_lockstep (hidle : s.replication.snapshotConnectionFd = none) (offset : Nat)
    (fd capacity : Nat) (random : Option Bytes) :
    Lockstep SameRound (startFullSync fd capacity random) s (startFullSync fd capacity random)
      { s with replication := { s.replication with replicationOffset := offset } } := by
  unfold startFullSync
  refine Lockstep.get_bind ?_
  dsimp only
  refine Lockstep.ite (fun _ => .pure (.inr ⟨hidle, offset, rfl⟩)) fun _ =>
    Lockstep.ite (fun _ => .pure (.inr ⟨hidle, offset, rfl⟩)) fun _ => ?_
  have hlatest : Server.aofOffset
      { s with replication := { s.replication with replicationOffset := offset } } = s.aofOffset := rfl
  rw [hlatest]
  cases s.aofOffset with
  | none => exact .pure (.inr ⟨hidle, offset, rfl⟩)
  | some latest =>
    refine onRuntime_lockstep rfl fun file rt' => ?_
    cases file with
    | none => exact .pure (.inr ⟨hidle, offset, rfl⟩)
    | some file =>
      refine Lockstep.modify_bind (Lockstep.get_bind ?_)
      dsimp only
      refine Lockstep.ite (fun _ => .pure (.inr ⟨hidle, offset, rfl⟩)) fun _ => ?_
      split
      · exact Lockstep.set_bind (.pure (.inr ⟨hidle, offset, rfl⟩))
      · split
        · exact Lockstep.set_bind (.pure (.inr ⟨hidle, offset, rfl⟩))
        · exact Lockstep.set_bind (.pure (.inl rfl))

theorem kvsReplicationFrameProtocol_lockstep (h : SameRound s t) (fd : Nat) (random : Option Bytes)
    (frame : Bytes) (capacity : Nat) :
    Lockstep SameRound (kvsReplicationFrameProtocol fd random frame capacity) s
      (kvsReplicationFrameProtocol fd random frame capacity) t := by
  obtain rfl | ⟨hidle, offset, rfl⟩ := id h
  · exact .refl .refl
  · unfold kvsReplicationFrameProtocol
    exact Lockstep.ite (fun _ => .pure h) fun _ => Lockstep.ite (fun _ => .pure h) fun _ =>
      Lockstep.ite (fun _ => startFullSync_lockstep hidle offset ..) fun _ => .pure h

theorem lineBatch_lockstep {handler : Bytes → Nat → Serve (Option Bytes)}
    {R : Server → Server → Prop}
    (hhandler : ∀ {s t}, R s t → ∀ frame capacity,
      Lockstep R (handler frame capacity) s (handler frame capacity) t)
    (h : R s t) (capacity rounds : Nat) (msg response : Bytes) (consumed : Nat) :
    Lockstep R (lineBatch handler capacity rounds msg response consumed) s
      (lineBatch handler capacity rounds msg response consumed) t := by
  induction rounds generalizing msg response consumed s t with
  | zero => exact .pure h
  | succ rounds ih =>
    unfold lineBatch
    cases kvsFindLineEnd msg with
    | none => exact .pure h
    | some line =>
      refine Lockstep.ite (fun _ => .pure h) fun _ => Lockstep.ite (fun _ => .pure h) fun _ => ?_
      refine (hhandler h _ _).bind fun reply s' t' h' => ?_
      cases reply with
      | none => exact .pure h'
      | some reply => exact Lockstep.ite (fun _ => .pure h') fun _ => ih h' ..

theorem kvsExecuteFields_lockstep (h : SameRound s t) (fields : List Bytes) (output : OutputBuffer) :
    Lockstep SameRound (kvsExecuteFields fields output .client) s
      (kvsExecuteFields fields output .client) t := by
  obtain rfl | ⟨hidle, offset, rfl⟩ := h
  · exact .refl .refl
  · have hblind := kvsExecuteFields_blind fields output .client
    have hlock := hblind { s.replication with replicationOffset := offset } s _ ⟨rfl, rfl⟩
    unfold Lockstep at *
    cases hrun : kvsExecuteFields fields output .client s with
    | ok r =>
      rw [hrun] at hlock
      obtain ⟨t', ht, hmanaged⟩ := hlock
      have hkeep : r.2.replication = s.replication := hblind.replication hrun
      refine ⟨t', ht, .inr ⟨hkeep ▸ hidle, offset, ?_⟩⟩
      rw [hmanaged.same, hkeep]
    | error e =>
      rw [hrun] at hlock
      exact hlock

theorem PrimaryEvent.run_lockstep (event : PrimaryEvent) (h : SameRound s t) :
    Lockstep SameRound event.run s event.run t := by
  cases event with
  | command fields output => exact (kvsExecuteFields_lockstep h _ _).bind fun _ _ _ h' => .pure h'
  | message fd random msg capacity =>
    refine Lockstep.bind (R := SameRound) ?_ fun _ _ _ h' => .pure h'
    exact Lockstep.ite (fun _ => .pure h) fun _ => lineBatch_lockstep
      (fun h' => kvsReplicationFrameProtocol_lockstep h' fd random) h ..
  | poll fd capacity got env =>
    refine Lockstep.bind (R := SameRound) ?_ fun _ _ _ h' => .pure h'
    obtain rfl | ⟨hidle, offset, rfl⟩ := id h
    · exact .refl .refl
    · have hfd : s.replication.snapshotConnectionFd ≠ some fd := by simp [hidle]
      unfold Lockstep
      rw [kvsReplicationStream_foreign hfd]
      exact ⟨_, kvsReplicationStream_foreign (s := { s with
        replication := { s.replication with replicationOffset := offset } }) hfd capacity got env, h⟩
  | disconnected fd env =>
    refine Lockstep.bind (R := SameRound) ?_ fun _ _ _ h' => .pure h'
    obtain rfl | ⟨hidle, offset, rfl⟩ := id h
    · exact .refl .refl
    · have hfd : s.replication.snapshotConnectionFd ≠ some fd := by simp [hidle]
      unfold Lockstep
      rw [kvsReplicationOnReplicaDisconnected_foreign hfd]
      exact ⟨_, kvsReplicationOnReplicaDisconnected_foreign (s := { s with
        replication := { s.replication with replicationOffset := offset } }) hfd env, h⟩

theorem runAll_lockstep (events : List PrimaryEvent) (h : SameRound s t) :
    Lockstep SameRound (runAll events) s (runAll events) t := by
  induction events generalizing s t with
  | nil => exact .pure h
  | cons event events ih =>
    exact (event.run_lockstep h).bind fun _ _ _ h₁ => (ih h₁).bind fun _ _ _ h₂ => .pure h₂

/-- A server whose rounds are isolated. -/
structure Isolated (port : Nat) (id : Bytes) (s : Server) : Prop where
  /-- While a connection owns the round, events of others change nothing. -/
  others : ∀ owner, s.replication.snapshotConnectionFd = some owner → ∀ event fd,
    PrimaryEvent.connection event = some fd → fd ≠ owner → ∃ answer, event.run s = .ok (answer, s)
  /-- When the owner is gone, everything goes on as with a fresh manager. -/
  restarts : ∀ owner env, s.replication.snapshotConnectionFd = some owner →
    (s.replication.rdmaSync.close env).1 = true → s.replication.rdmaCleanupConnection = none →
    ∃ m, kvsReplicationOnReplicaDisconnected owner env s = .ok ((), { s with replication := m }) ∧
      ∀ offset events, Lockstep SameRound (runAll events) { s with replication := m }
        (runAll events) { s with replication := freshPrimary port id offset }

theorem PrimaryReachable.settings (h : PrimaryReachable port id s) :
    s.replication.settings = (freshPrimary port id 0).settings := by
  induction h with
  | start s offset => rfl
  | step _ hrun ih => exact ((PrimaryEvent.run_settings _ _).post hrun).trans ih

/-- What the end of the owner's connection leaves of the manager. -/
theorem freshPrimary_of_settings (hsettings : m.settings = (freshPrimary port id 0).settings)
    (hcleanup : m.rdmaCleanupConnection = none) :
    { m with
      rdmaSync := .start, fullSyncId := [], snapshotReader := none, aofReader := none
      snapshotConnectionFd := none, snapshotFileSize := -1, state := .disconnected } =
      freshPrimary port id m.replicationOffset := by
  obtain ⟨_, _, _, _, _, _, _, _, _, _, _, _, _, _, _, _, _, _⟩ := m
  simp only [ReplicationManager.settings, freshPrimary, ReplicationManager.init,
    ReplicationManager.start, ReplicationSettings.mk.injEq] at hsettings hcleanup ⊢
  obtain ⟨rfl, rfl, rfl, rfl, rfl, rfl, rfl, rfl, rfl⟩ := hsettings
  subst hcleanup
  rfl

/-- In every state of a primary, rounds are isolated. -/
theorem round_isolated (h : PrimaryReachable port id s) : Isolated port id s := by
  refine ⟨fun owner hbusy event fd hconnection hfd => event.run_foreign hbusy hconnection hfd,
    fun owner env hbusy hclose hcleanup => ?_⟩
  have hsettings := h.settings
  have hinit : s.replication.initialized = true := congrArg ReplicationSettings.initialized hsettings
  have hrole : s.replication.role = .primary := congrArg ReplicationSettings.role hsettings
  have hsync : (s.replication.rdmaSync.close env).2 = .start := by
    unfold RdmaSync.close at hclose ⊢
    cases hleft : s.replication.rdmaSync.connection.bind (·.close env) with
    | none => rfl
    | some c =>
      rw [hleft] at hclose
      cases hclose
  refine ⟨freshPrimary port id s.replication.replicationOffset, ?_, fun offset events => ?_⟩
  · rw [← freshPrimary_of_settings hsettings hcleanup]
    unfold kvsReplicationOnReplicaDisconnected
    simp [hinit, hrole, hbusy, hsync, modify, modifyGet, MonadStateOf.modifyGet, StateT.modifyGet,
      pure, Except.pure]
  · exact runAll_lockstep events (.inr ⟨rfl, offset, rfl⟩)

/-- A primary on empty maps that a replica has just asked for a round. -/
theorem round_isolated_begun : ∃ (s : Server) (id : Bytes), s.replication.state = .fullSync ∧
    s.replication.snapshotConnectionFd = some 7 ∧ Isolated 4000 id s := by
  have hmemory : ¬(Runtime.start (fun _ => false) (fun _ => false)).CanFail := by
    rintro ⟨n, hn⟩
    cases hn
  obtain ⟨_, rt, -, hext, E, -, hE⟩ := (initKvengine_spec hmemory).run
  let start : Server := ⟨rt, E, fun _ => some [], .start fun _ => none, some ⟨.appendonlyAof, 0, true⟩,
    .primary, .legacyHybrid, freshPrimary 4000 [97] 0⟩
  have hstorable : Maps.Storable Maps.empty := fun e k v hv => by simp [Maps.empty] at hv
  have hsize : Maps.snapshotSize Maps.empty ≤ offMax := by decide
  obtain ⟨reply, s, hrun, ⟨-, hcan | hlarge⟩ | hs⟩ :=
    (startFullSync_begins (s := start) hE hstorable rfl rfl rfl
      (by simp [start, freshPrimary, ReplicationManager.init]) rfl rfl rfl 7 64 [0]).run
  · exact absurd (hext.canFail hcan) hmemory
  · exact absurd hsize hlarge
  have hmessage : ∃ r, kvsReplicationNetworkProtocol 7 (some [0]) (ascii "PSYNC ? -1\n") 64 start =
      .ok (r, s) := by
    have hline : kvsFindLineEnd (ascii "PSYNC ? -1\n") = some (10, 1) := by decide
    have hframe : kvsReplicationFrameProtocol 7 (some [0]) ((ascii "PSYNC ? -1\n").take 10) 64 start =
        .ok (reply, s) := hrun
    unfold kvsReplicationNetworkProtocol kvsLineBatchProtocol
    rw [if_neg (by decide), show (ascii "PSYNC ? -1\n").length = 10 + 1 by decide]
    unfold lineBatch
    simp only [hline, List.length_nil, Nat.sub_zero, show ¬10 = 0 by decide, show ¬0 ≥ 64 by decide,
      if_false, bind, StateT.bind, hframe, Except.bind]
    cases reply with
    | none => exact ⟨_, rfl⟩
    | some reply =>
      dsimp only
      split
      · exact ⟨_, rfl⟩
      · exact ⟨_, rfl⟩
  obtain ⟨r, hmessage⟩ := hmessage
  have hevent : (PrimaryEvent.message 7 (some [0]) (ascii "PSYNC ? -1\n") 64).run start =
      .ok (.responded r, s) := by
    simp only [PrimaryEvent.run, bind, StateT.bind, hmessage, Except.bind]
    rfl
  obtain ⟨rt', records, file, -, -, -, -, -, rfl⟩ := hs
  exact ⟨_, [97], rfl, rfl, round_isolated (.step (.start start 0) hevent)⟩
end

end KvStore
