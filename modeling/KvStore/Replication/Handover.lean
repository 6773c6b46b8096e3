import KvStore.Replication.Agreement
import KvStore.Replication.Progress

/-!
# From the snapshot to the log

The primary turns to its log on the poll that tells it of the end of the
connection. Up to there `Transfer.At` holds, from there on `Pair.AgreesAt`; the
records of the log that came in during the transfer are the first to be sent.
-/

namespace KvStore

open Lib
open Replaying (logOf)

section
variable {p q : Transfer} {s s' t : Server} {m m' : ReplicationManager} {f : FullSync}
  {x : Exchange UInt8} {fd up capacity : Nat} {env : RdmaAnswers} {base : Bytes}
  {got : Nat} {records : List (List Bytes)} {r : Streamed} {M₀ : Maps} {disk : Disk} {latest : Option Nat}
  {c : RdmaConnection}

theorem kvsRdmaListenerPoll_disconnected (hevent : env.Disconnects) (connection : Option RdmaConnection) :
    ∀ type ∈ (kvsRdmaListenerPoll env connection).result, type = some .disconnected := by
  obtain ⟨event, hcm, hdisconnected⟩ := hevent
  have hseparate : ∀ c owner, ∀ type ∈ (separateOwner env none c owner).result,
      type = some .disconnected := by
    intro c owner
    unfold separateOwner
    split
    · exact nofun
    · split <;> exact nofun
  have hrequest : event.event ≠ .connectRequest := by
    rw [hdisconnected]
    exact nofun
  unfold kvsRdmaListenerPoll
  split
  · exact nofun
  · simp only [hcm]
    rw [if_neg fun h => hrequest h.1]
    cases connection with
    | none => exact hseparate none _
    | some c =>
      dsimp only
      split
      · unfold ownEvent RdmaConnection.handleEvent
        split
        · rw [hdisconnected]
          by_cases hok : event.ok = true
          · rw [if_neg (not_not.mpr hok)]
            rintro type ⟨⟩
            rfl
          · rw [if_pos hok]
            exact nofun
        · exact nofun
      · exact hseparate _ _

theorem fullSyncEvent_disconnected (hevent : env.Disconnects)
    (hrun : fullSyncEvent disk latest env m = (true, m')) :
    m.rdmaSync.disconnectPending = true ∧
      kvsReplicationPrimaryStartCatchUp disk latest { m with rdmaSync := .start } = (true, m') := by
  unfold fullSyncEvent at hrun
  split at hrun
  · cases hrun
  · dsimp only at hrun
    cases hpoll : (kvsRdmaListenerPoll env m.rdmaSync.connection).result with
    | none =>
      rw [hpoll] at hrun
      cases hrun
    | some type =>
      obtain rfl := kvsRdmaListenerPoll_disconnected hevent _ type hpoll
      rw [hpoll] at hrun
      dsimp only at hrun
      split at hrun
      · cases hrun
      · rename_i hfinished
        refine ⟨not_not.mp fun hnot => hfinished (.inl hnot), ?_⟩
        unfold RdmaSync.close at hrun
        dsimp only at hrun
        cases hclose : (kvsRdmaListenerPoll env m.rdmaSync.connection).connection.bind (·.close env) with
        | some c =>
          rw [hclose] at hrun
          cases hrun
        | none =>
          rw [hclose] at hrun
          exact hrun

theorem kvsReplicationPrimaryStartCatchUp_state
    (h : kvsReplicationPrimaryStartCatchUp disk latest m = (true, m')) : m'.state = .catchUp := by
  unfold kvsReplicationPrimaryStartCatchUp at h
  dsimp only at h
  split at h
  · cases h
  · split at h
    · cases h
    · split at h
      · cases h
      · obtain rfl := (Prod.mk.inj h).2
        rfl

theorem kvsReplicationStream_stops (h : Source s.replication fd f x)
    (hstop : capacity ≠ 0 → (fullSyncEvent s.disk s.aofOffset env s.replication).1 = false) (got : Nat) :
    Triple (kvsReplicationStream fd capacity got env) s (fun r _ => r = .failed) Never := by
  unfold kvsReplicationStream
  refine Triple.get_bind (Triple.ite (fun _ => Triple.pure rfl) fun hguard =>
    Triple.ite (fun hother => absurd h.owner hother) fun _ => ?_)
  rw [if_pos h.state]
  have hstop := hstop fun hzero => hguard (.inr (.inr hzero))
  cases hevent : fullSyncEvent s.disk s.aofOffset env s.replication with
  | mk goesOn m =>
    rw [hevent] at hstop
    obtain rfl : goesOn = false := hstop
    dsimp only
    rw [if_pos Bool.false_ne_true, pure_bind]
    exact Triple.set_bind (Triple.pure rfl)

theorem kvsReplicationStream_turns (hinit : s.replication.initialized = true)
    (hrole : s.replication.role = .primary) (hfd : s.replication.snapshotConnectionFd = some fd)
    (hstate : s.replication.state = .fullSync) (hcapacity : capacity ≠ 0)
    (hevent : fullSyncEvent s.disk s.aofOffset env s.replication = (true, m'))
    (hinit' : m'.initialized = true) (hrole' : m'.role = .primary)
    (hfd' : m'.snapshotConnectionFd = some fd) (hstate' : m'.state = .catchUp) (got : Nat) :
    kvsReplicationStream fd capacity got env { s with replication := m' } =
      kvsReplicationStream fd capacity got env s := by
  have hfull : m'.state ≠ .fullSync := by
    rw [hstate']
    exact nofun
  rw [kvsReplicationStream_log hinit' hrole' hcapacity hfd' hfull]
  change (streamLog s.disk s.aofOffset capacity got 2 m').map _ = _
  cases hlog : streamLog s.disk s.aofOffset capacity got 2 m' with
  | error e =>
    simp [kvsReplicationStream, hinit, hrole, hcapacity, hfd, hstate, hevent, hfull, hlog, bind,
      StateT.bind, get, getThe, MonadStateOf.get, StateT.get, Except.bind, pure, Except.pure, liftM,
      monadLift, MonadLift.monadLift, StateT.lift, Except.map]
  | ok r =>
    simp [kvsReplicationStream, hinit, hrole, hcapacity, hfd, hstate, hevent, hfull, hlog, bind,
      StateT.bind, get, getThe, MonadStateOf.get, StateT.get, Except.bind, pure, Except.pure, liftM,
      monadLift, MonadLift.monadLift, StateT.lift, Except.map, set]
    rfl

/-- The poll of a primary that ends the synchronisation. -/
theorem Transfer.At.handover (h : p.At fd up f base records x) (hoffset : f.offset = base.length)
    (hevent : env.Disconnects)
    (hrun : kvsReplicationStream fd capacity got env p.primary = .ok (r, s')) (hgood : r ≠ .failed) :
    ∃ p₀ : Pair, p₀.Starts fd up base f.maps records ∧ p₀.Step fd up ⟨s', p.replica, r.bytes, []⟩ := by
  have hcapacity : capacity ≠ 0 := by
    rintro rfl
    exact hgood ((kvsReplicationStream_stops h.source (absurd rfl) got).post hrun)
  cases hstart : fullSyncEvent p.primary.disk p.primary.aofOffset env p.primary.replication with
  | mk goesOn m =>
    cases goesOn with
    | false =>
      exact absurd ((kvsReplicationStream_stops h.source (fun _ => congrArg (·.1) hstart) got).post hrun)
        hgood
    | true =>
      obtain ⟨hpending, hcatchUp⟩ := fullSyncEvent_disconnected hevent hstart
      obtain ⟨hstate, happlied⟩ := h.finished hpending
      let s : Server := { p.primary with
        replication := { p.primary.replication with rdmaSync := .start } }
      have hsends := (kvsReplicationPrimaryStartCatchUp_sends (s := s) h.source.initialized h.source.role
        h.source.owner h.logs.atEnd hcatchUp).sends
      have hoffset' : s.replication.replicationOffset = base.length := h.source.offset.trans hoffset
      rw [hoffset', logOf_nil, List.append_nil, List.length_nil, Nat.add_zero] at hsends
      have hcatchUpState := kvsReplicationPrimaryStartCatchUp_state hcatchUp
      have hpoll := kvsReplicationStream_turns h.source.initialized h.source.role h.source.owner
        h.source.state hcapacity hstart hsends.initialized hsends.role hsends.connection hcatchUpState got
      rw [hrun] at hpoll
      rw [hoffset] at happlied
      refine ⟨⟨{ p.primary with replication := m }, p.replica, [], []⟩, ?_, .poll hpoll⟩
      exact ⟨⟨hsends, h.logs.mode, h.logs.all, h.logs.fits, h.logs.holds⟩, happlied, hcatchUpState, hstate,
        rfl, rfl⟩

-- ---------------------------------------------------------------------------
-- The end of a synchronisation
-- ---------------------------------------------------------------------------

theorem Server.Outcome.file_stays {M : Maps} {source : CommandSource} {fields : List Bytes} {b : Bool}
    {path : Path} (h : s.Outcome M source fields b s') (hsome : (s.disk path).isSome) :
    (s'.disk path).isSome := by
  cases h with
  | idle => exact hsome
  | saved => exact Disk.write_stays hsome ..
  | done htook =>
    obtain ⟨s₀, _, _, hleaves, rfl, -⟩ := htook
    cases hleaves with
    | kept => exact hsome
    | saved => exact Disk.write_stays hsome ..
    | logged =>
      unfold Server.append
      cases s.aofWriter with
      | none => exact hsome
      | some writer => exact Disk.write_stays hsome ..

theorem Transfer.At.file_stays (h : p.At fd up f base records x) (hstep : p.Step fd up q) {path : Path}
    (hsome : (p.primary.disk path).isSome) : (q.primary.disk path).isSome := by
  cases hstep with
  | primary hevent hpoll =>
    have hpolled : ∀ {capacity got env r s'}, ¬env.Disconnects →
        kvsReplicationStream fd capacity got env p.primary = .ok (r, s') → r ≠ .failed →
        (s'.disk path).isSome := by
      intro capacity got env r s' hevent hrun hgood
      obtain ⟨-, rfl⟩ | ⟨m, -, -, -, -, rfl⟩ := (h.source.poll hevent _ _).post hrun
      · exact absurd rfl hgood
      · exact hsome
    cases hpoll with
    | quiet _ hrun hgood => exact hpolled hevent hrun hgood
    | takes _ _ _ hrun hgood => exact hpolled hevent hrun hgood
  | replica _ hpoll =>
    rw [hpoll.runs.1]
    exact hsome
  | aside haside =>
    cases haside with
    | primaryClient hsize hready hrun =>
      obtain ⟨M, -, hE⟩ := h.logs.holds
      have hroom := hready.room
      unfold bufferLength at hroom
      obtain ⟨_, houtcome, -⟩ := (kvsExecuteFields_effect hE (fun _ => by rw [h.logs.atEnd.1]; rfl) (by omega)
        (by omega)).post hrun
      exact houtcome.file_stays hsome
    | replicaClient => exact hsome
    | elsewhere hconnection hfd hrun =>
      obtain ⟨_, hsame⟩ := PrimaryEvent.run_foreign h.source.owner _ hconnection hfd
      rw [hsame] at hrun
      obtain ⟨-, rfl⟩ := Prod.mk.inj (Except.ok.inj hrun)
      exact hsome

theorem Transfer.At.run_file_stays (h : p.At fd up f base records x) (hrun : p.Reaches fd up q)
    {path : Path} (hsome : (p.primary.disk path).isSome) : (q.primary.disk path).isSome := by
  induction hrun with
  | start => exact hsome
  | step hrun hstep ih =>
    obtain ⟨_, _, hq⟩ := h.reaches hrun
    exact hq.file_stays hstep ih

theorem Transfer.At.turned (h : p.At fd up f base records x) (hoffset : f.offset = base.length)
    (hpending : p.primary.replication.rdmaSync.disconnectPending = true)
    (hfile : (p.primary.disk .appendonlyAof).isSome)
    (hc : p.primary.replication.rdmaSync.connection = some c) (hgrants : env.Grants)
    (hcm : env.cmEvent = some (some ⟨.disconnected, c.cmId, false, true⟩)) :
    ∃ m : ReplicationManager, m.state = .catchUp ∧ m.aofReader = some ⟨base.length, (logOf records).length⟩ ∧
      Server.Sends { p.primary with replication := m } fd (base ++ logOf records) base.length ∧
      ∀ capacity got, capacity ≠ 0 →
        kvsReplicationStream fd capacity got env { p.primary with replication := m } =
          kvsReplicationStream fd capacity got env p.primary := by
  obtain ⟨-, hconfirmed, hidle⟩ := h.source.finished hpending
  obtain ⟨hanswered, harrived, hsent, hlength⟩ := h.valid.ordered
  have hpoll : kvsRdmaListenerPoll env (some c) = ⟨some (some .disconnected), some c, none⟩ :=
    h.source.poll_own hgrants hc hcm CmEventType.noConfusion rfl
  let m : ReplicationManager := { p.primary.replication with rdmaSync := .start }
  have hlatest := h.logs.atEnd.aofOffset
  have hopen : ∃ m', m'.aofReader = some ⟨base.length, (logOf records).length⟩ ∧
      kvsReplicationPrimaryStartCatchUp p.primary.disk p.primary.aofOffset m = (true, m') := by
    obtain ⟨file, hbytes⟩ := Option.isSome_iff_exists.mp hfile
    have hlog : file = base ++ logOf records := by
      have hread := h.logs.atEnd.2
      unfold Server.aofFile at hread
      rw [hbytes] at hread
      exact hread
    have hsplit : (base ++ logOf records).length = base.length + (logOf records).length :=
      List.length_append
    have hle : base.length ≤ (base ++ logOf records).length := by omega
    have hleft : (base ++ logOf records).length - base.length = (logOf records).length := by omega
    have hstart : p.primary.replication.replicationOffset = base.length := h.source.offset.trans hoffset
    unfold kvsReplicationPrimaryStartCatchUp kvsAofReaderOpen
    simp only [hlatest, m, hstart, hbytes, hlog, Nat.not_lt.mpr hle, gt_iff_lt, Nat.lt_irrefl, or_false,
      if_false, hleft]
    exact ⟨_, rfl, rfl⟩
  obtain ⟨m', hreader, hcatchUp⟩ := hopen
  have hrun : fullSyncEvent p.primary.disk p.primary.aofOffset env p.primary.replication = (true, m') := by
    have hgood : ¬(¬p.primary.replication.rdmaSync.disconnectPending = true ∨
        p.primary.replication.rdmaSync.sendPending = true ∨
        (p.primary.replication.rdmaSync.snapshotBytes : Int) ≠ p.primary.replication.snapshotFileSize ∨
        p.primary.replication.rdmaSync.acknowledgedBytes ≠ p.primary.replication.rdmaSync.snapshotBytes) := by
      rw [h.source.snapshotBytes, h.source.acknowledgedBytes, h.source.size, hpending, hidle]
      rintro (hno | hno | hno | hno)
      · exact hno rfl
      · cases hno
      · omega
      · omega
    unfold fullSyncEvent
    rw [if_neg (by simp [h.source.cleanup]), hc, hpoll]
    dsimp only
    rw [if_neg hgood]
    unfold RdmaSync.close
    simp only [Option.bind_some, RdmaConnection.close_granted hgrants]
    exact hcatchUp
  have hstate := kvsReplicationPrimaryStartCatchUp_state hcatchUp
  have hsends := (kvsReplicationPrimaryStartCatchUp_sends (s := { p.primary with replication := m })
    h.source.initialized h.source.role h.source.owner h.logs.atEnd hcatchUp).sends
  have hstart : m.replicationOffset = base.length := h.source.offset.trans hoffset
  rw [hstart, logOf_nil, List.append_nil, List.length_nil, Nat.add_zero] at hsends
  exact ⟨m', hstate, hreader, hsends, fun _ got hne =>
    kvsReplicationStream_turns h.source.initialized h.source.role h.source.owner h.source.state hne hrun
      hsends.initialized hsends.role hsends.connection hstate got⟩

theorem Transfer.At.hands (h : p.At fd up f base records x) (hoffset : f.offset = base.length)
    (hpending : p.primary.replication.rdmaSync.disconnectPending = true)
    (hfile : (p.primary.disk .appendonlyAof).isSome)
    (hc : p.primary.replication.rdmaSync.connection = some c) (hgrants : env.Grants)
    (hcm : env.cmEvent = some (some ⟨.disconnected, c.cmId, false, true⟩)) (got : Nat)
    (hroom : bufferLength ≤ capacity) :
    ∃ r s', kvsReplicationStream fd capacity got env p.primary = .ok (r, s') ∧ r ≠ .failed ∧
      s'.replication.state ≠ .fullSync := by
  obtain ⟨m, hstate, -, hsends, hturns⟩ := h.turned hoffset hpending hfile hc hgrants hcm
  obtain ⟨r, m', hstream, hstreams⟩ := hsends.stream capacity got env
  have hne : capacity ≠ 0 := (Nat.lt_of_lt_of_le (by decide) hroom).ne'
  refine ⟨r, _, (hturns capacity got hne).symm.trans hstream, ?_⟩
  cases hstreams with
  | data _ _ hsame => exact ⟨nofun, fun hfull => nomatch (hsame.trans hstate).symm.trans hfull⟩
  | online _ _ honline => exact ⟨nofun, fun hfull => nomatch honline.symm.trans hfull⟩
  | wait _ hsame => exact ⟨nofun, fun hfull => nomatch (hsame.trans hstate).symm.trans hfull⟩
  | failed hshort =>
    have hline := length_onlineLine h.logs.fits
    omega

-- ---------------------------------------------------------------------------
-- A synchronisation with a write during the transfer
-- ---------------------------------------------------------------------------

theorem Transfer.begins_probe : ∃ s t p M, s.Offers (encodeFields (probe true)) M ∧
    (s.disk .appendonlyAof).isSome ∧ s.role = .primary ∧ ¬s.CanFail ∧ t.Asks 8 ∧ ¬t.CanFail ∧
    Transfer.Begins s t 7 8 p ∧ (M .rbtree).lookup [107] = some [118] := by
  obtain ⟨rt, E, M, hmemory, hafter, hsized, hE⟩ := probe_held [true]
  obtain ⟨rt', E', M', hmemory', -, -, hE'⟩ := probe_held [false]
  let s : Server := ⟨rt, E, fun _ => some (encodeFields (probe true)), .start fun _ => none,
    some ⟨.appendonlyAof, 28, true⟩, .primary, .legacyHybrid, { ReplicationManager.start with
      initialized := true, role := .primary, rdmaPort := 4000, replicationId := List.replicate 40 97 }⟩
  let t : Server := ⟨rt', E', fun _ => some [], .start fun _ => none, some ⟨.appendonlyAof, 0, true⟩, .replica,
    .legacyHybrid, { ReplicationManager.start with
      initialized := true, role := .replica, primaryConnectionFd := some 8, state := .handshake }⟩
  have hM : M = Maps.empty.put .rbtree ((Maps.empty .rbtree).insert [107] [118]) := by
    simpa [Maps.after, redo_probe] using hafter.symm
  have hs : s.Offers (encodeFields (probe true)) M := by
    refine ⟨rfl, rfl, ⟨rfl, ?_⟩, (by decide : 1 ≤ 4000 ∧ 4000 ≤ 65535), rfl, rfl, rfl, ?_, hsized⟩
    · intro c hc
      rw [List.eq_of_mem_replicate hc]
      rfl
    · refine ⟨⟨rfl, rfl⟩, rfl, ?_, by decide, M, rfl, hE⟩
      intro fields hfields
      cases hfields
  have ht : t.Asks 8 := ⟨⟨rfl, rfl, rfl, rfl⟩, rfl, rfl, rfl, ⟨_, rfl, rfl, rfl⟩, M', hE'⟩
  obtain ⟨p, hbegins⟩ := hs.begins hmemory (by rw [hM]; decide) ht 7
  refine ⟨s, t, p, M, hs, rfl, rfl, not_or.mpr ⟨hmemory, FileIo.not_canFail_start⟩, ht,
    not_or.mpr ⟨hmemory', FileIo.not_canFail_start⟩, hbegins, ?_⟩
  rw [hM, Maps.put_self, Finmap.lookup_insert]

/-- A client's write on the primary, whatever the synchronisation has come to. -/
theorem Transfer.At.writes (h : p.At fd up f base records x) (hgood : ¬p.primary.CanFail)
    (hrole : p.primary.role = .primary) (hroom : (base ++ logOf records).length + 28 ≤ offMax) (b : Bool) :
    ∃ s', p.Aside fd { p with primary := s' } ∧
      Transfer.At { p with primary := s' } fd up f base (records ++ [probe b]) x := by
  obtain ⟨M, hafter, hE⟩ := h.logs.holds
  obtain ⟨output, hready⟩ : ∃ output : OutputBuffer, output.Ready :=
    ⟨⟨⟨some 1, 2048⟩, [], 0⟩, by decide, by decide, by decide, by decide⟩
  have hsize : (encodeFields (probe b)).length ≤ kvsMaxClientCommandBytes := by
    rw [length_probe]
    decide
  obtain ⟨executed, s', hrun, -, houtcome⟩ := (probe_taken hE (not_or.mp hgood).1 (not_or.mp hgood).2
    (by rw [hrole]; exact nofun) h.logs.atEnd.1 hroom b hready).run
  obtain ⟨hlogs, hmanager⟩ := h.logs.logged hafter houtcome hsize
  exact ⟨s', .primaryClient hsize hready hrun, h.logged hlogs hmanager⟩

/-- A synchronisation with a write behind its checkpoint. -/
theorem Transfer.begins_written : ∃ s t p M s', s.Offers (encodeFields (probe true)) M ∧
    (s.disk .appendonlyAof).isSome ∧ t.Asks 8 ∧ Transfer.Begins s t 7 8 p ∧
    (M .rbtree).lookup [107] = some [118] ∧ ¬p.replica.CanFail ∧
    Linked.Reaches 7 8 ⟨p, .address⟩ ⟨{ p with primary := s' }, .address⟩ ∧
    Transfer.LinkedBy { p with primary := s' } .address ∧ ∃ f, f.maps = M ∧ f.offset = 28 ∧
      Transfer.At { p with primary := s' } 7 8 f (encodeFields (probe true)) [probe false] .start := by
  obtain ⟨s, t, p, M, hs, hfile, hrole, hgood, ht, hgood', hbegins, hkey⟩ := Transfer.begins_probe
  obtain ⟨f, hmaps, hoffset, hat, hlinked⟩ := hbegins.at hs ht
  obtain ⟨hkept, hcan⟩ := hbegins.kept hs ht
  obtain ⟨s', haside, hat'⟩ := hat.writes (fun hc => hgood (hkept.canFail hc)) (hkept.role.trans hrole)
    (by rw [logOf_nil, List.append_nil, length_probe]; decide) false
  have hrun : Linked.Reaches 7 8 ⟨p, .address⟩ ⟨{ p with primary := s' }, .address⟩ :=
    .step .start (.aside haside)
  have hstart : Transfer.LinkedBy (Linked.mk p .address).transfer (Linked.mk p .address).link := hlinked
  exact ⟨s, t, p, M, s', hs, hfile, ht, hbegins, hkey, fun hc => hgood' (hcan hc), hrun,
    (hrun.transfer hat hstart).2, f, hmaps, hoffset.trans (length_probe true), hat'⟩

-- ---------------------------------------------------------------------------
-- The whole protocol
-- ---------------------------------------------------------------------------

/-- From `PSYNC` on, in whatever order the steps of both sides come. -/
theorem full_sync_safe (hs : s.Offers base M₀) (ht : t.Asks up) (hbegins : Transfer.Begins s t fd up p) :
    ∃ f : FullSync, f.maps = M₀ ∧ f.offset = base.length ∧ ∀ q, p.Reaches fd up q → q.Safe fd up f := by
  obtain ⟨f, hmaps, hoffset, hat, -⟩ := hbegins.at hs ht
  refine ⟨f, hmaps, hoffset, fun q hrun => ?_⟩
  obtain ⟨_, _, hq⟩ := hat.reaches hrun
  exact hq.safe

/-- A client writes during the transfer: the replica has the maps of the snapshot,
and the log of the primary is longer. -/
theorem full_sync_safe_written : ∃ (p q : Transfer) (f : FullSync), p.Reaches 7 8 q ∧
    p.primary.aofOffset = some 28 ∧ q.primary.aofOffset = some 56 ∧
    q.primary.replication.rdmaSync.disconnectPending = true ∧ (f.maps .rbtree).lookup [107] = some [118] ∧
    q.replica.engines.Hold q.replica.rt.mallocs f.maps ∧ q.Safe 7 8 f := by
  obtain ⟨s, t, p, M, s', hs, -, ht, hbegins, hkey, hgood, hrun, hlinked, _, -, -, hat⟩ :=
    Transfer.begins_written
  obtain ⟨f, rfl, -, hsafe⟩ := full_sync_safe hs ht hbegins
  obtain ⟨_, -, -, hstart, hstartLinked⟩ := hbegins.at hs ht
  obtain ⟨q, hends, ⟨-, _, hq⟩, hclosed⟩ :=
    Linked.ends (p := ⟨{ p with primary := s' }, .address⟩) hat hlinked hgood
  obtain ⟨hreaches, hlinked⟩ := (hrun.trans hends).transfer (p := ⟨p, .address⟩) hstart hstartLinked
  rw [hclosed] at hlinked
  have hq' := hsafe _ hreaches
  obtain ⟨-, happlied, -⟩ := hq'.installed (by rw [hq'.finished hlinked.1]; exact nofun)
  have hoffset := hstart.logs.atEnd.aofOffset
  rw [logOf_nil, List.append_nil, length_probe] at hoffset
  refine ⟨p, q.transfer, f, hreaches, hoffset, ?_, hlinked.1, hkey, happlied.holds, hq'⟩
  rw [hq.logs.atEnd.aofOffset]
  simp [length_probe]

/-- No order of steps leads astray: from wherever the two servers and their
connection managers are, polls bring the primary to its log. -/
theorem full_sync_completes (hs : s.Offers base M₀) (ht : t.Asks up) (hfile : (s.disk .appendonlyAof).isSome)
    (hbegins : Transfer.Begins s t fd up p) {q : Linked} (hrun : Linked.Reaches fd up ⟨p, .address⟩ q)
    (hgood : ¬q.transfer.replica.CanFail) :
    ∃ q' c, q.Reaches fd up q' ∧ q'.link = .closed ∧ q'.transfer.replica.replication.state = .catchUp ∧
      q'.transfer.primary.replication.rdmaSync.connection = some c ∧
      ∀ env : RdmaAnswers, env.Grants →
        env.cmEvent = some (some ⟨.disconnected, c.cmId, false, true⟩) →
        ∀ capacity got, bufferLength ≤ capacity → ∃ r s',
          kvsReplicationStream fd capacity got env q'.transfer.primary = .ok (r, s') ∧ r ≠ .failed ∧
            s'.replication.state ≠ .fullSync := by
  obtain ⟨f, -, hoffset, hat, hlinked⟩ := hbegins.at hs ht
  have hstart : Transfer.LinkedBy p .address := hlinked
  obtain ⟨hreaches, hlinked⟩ := hrun.transfer (p := ⟨p, .address⟩) hat hstart
  obtain ⟨_, _, hq⟩ := hat.reaches hreaches
  obtain ⟨q', hrun', ⟨-, _, hq'⟩, hclosed⟩ := Linked.ends hq hlinked hgood
  obtain ⟨hreaches', hlinked'⟩ := (hrun.trans hrun').transfer (p := ⟨p, .address⟩) hat hstart
  rw [hclosed] at hlinked'
  obtain ⟨c, hc⟩ := Option.isSome_iff_exists.mp (hq'.source.connected hq'.valid hlinked'.1)
  obtain ⟨hstate, -⟩ := hq'.finished hlinked'.1
  refine ⟨q', c, hrun', hclosed, hstate, hc, fun env hgrants hcm capacity got hroom => ?_⟩
  have hstays := hat.run_file_stays hreaches' ((hbegins.kept hs ht).1.file _ hfile)
  exact hq'.hands hoffset hlinked'.1 hstays hc hgrants hcm got hroom

theorem full_sync_completes_written : ∃ (p q q' : Linked) (c : RdmaConnection), p.Reaches 7 8 q ∧
    p.link = .address ∧ p.transfer.primary.aofOffset = some 28 ∧ q.transfer.primary.aofOffset = some 56 ∧
    q.Reaches 7 8 q' ∧ q'.link = .closed ∧ q'.transfer.replica.replication.state = .catchUp ∧
    q'.transfer.primary.replication.rdmaSync.connection = some c ∧
    ∀ env : RdmaAnswers, env.Grants →
      env.cmEvent = some (some ⟨.disconnected, c.cmId, false, true⟩) →
      ∀ capacity got, bufferLength ≤ capacity → ∃ r s',
        kvsReplicationStream 7 capacity got env q'.transfer.primary = .ok (r, s') ∧ r ≠ .failed ∧
          s'.replication.state ≠ .fullSync := by
  obtain ⟨s, t, p, M, s', hs, hfile, ht, hbegins, -, hgood, hrun, -, _, -, -, hat⟩ :=
    Transfer.begins_written
  obtain ⟨_, -, -, hstart, -⟩ := hbegins.at hs ht
  obtain ⟨q', c, hrun', hclosed, hstate, hc, hturns⟩ := full_sync_completes hs ht hfile hbegins hrun hgood
  have hbefore := hstart.logs.atEnd.aofOffset
  rw [logOf_nil, List.append_nil, length_probe] at hbefore
  have hafter := hat.logs.atEnd.aofOffset
  simp only [logOf_cons, logOf_nil, List.append_nil, List.length_append, length_probe] at hafter
  exact ⟨⟨p, .address⟩, _, q', c, hrun, rfl, hbefore, hafter, hrun', hclosed, hstate, hc, hturns⟩

/-- The whole protocol: a synchronisation from its `PSYNC` to the poll with which
the primary turns to its log, and whatever comes behind it. -/
theorem full_sync_handover (hs : s.Offers base M₀) (ht : t.Asks up)
    (hbegins : Transfer.Begins s t fd up p) (hrun : p.Reaches fd up q) (hevent : env.Disconnects)
    (hpoll : kvsReplicationStream fd capacity got env q.primary = .ok (r, s')) (hgood : r ≠ .failed)
    {u v : Pair} (hu : Pair.Reaches fd up ⟨s', q.replica, r.bytes, []⟩ u) (hv : u.Reaches fd up v) :
    u.Agrees v fd up base.length := by
  obtain ⟨f, rfl, hoffset, hat, -⟩ := hbegins.at hs ht
  obtain ⟨records, x, hq⟩ := hat.reaches hrun
  obtain ⟨p₀, hstarts, hstep⟩ := hq.handover hoffset hevent hpoll hgood
  obtain ⟨_, _, _, _, -, hstep⟩ := hstarts.agreesAt.step hstep
  obtain ⟨_, _, _, _, -, hu⟩ := hstep.reaches hu
  obtain ⟨_, _, _, _, hfront, hv⟩ := hu.reaches hv
  exact hu.agrees hv hfront

/-- The write that came in during the transfer: it is sent with the poll that
turns to the log, and then the replica has it too. -/
theorem full_sync_handover_written : ∃ (p q : Transfer) (r : Streamed) (s' : Server) (v : Pair),
    p.Reaches 7 8 q ∧ p.primary.aofOffset = some 28 ∧ s'.aofOffset = some 56 ∧
    q.replica.aofOffset = some 28 ∧ r.bytes = encodeFields (probe false) ∧
    Pair.Reaches 7 8 ⟨s', q.replica, r.bytes, []⟩ v ∧ v.replica.aofOffset = some 56 ∧
    Pair.Agrees ⟨s', q.replica, r.bytes, []⟩ v 7 8 28 := by
  obtain ⟨s, t, p, M, s₀, hs, hfile, ht, hbegins, -, hgood, hrun, hlinked, f, rfl, hoffset, hat⟩ :=
    Transfer.begins_written
  obtain ⟨_, -, -, hstart, hstartLinked⟩ := hbegins.at hs ht
  obtain ⟨q, hends, ⟨hgood, _, hq⟩, hclosed⟩ :=
    Linked.ends (p := ⟨{ p with primary := s₀ }, .address⟩) hat hlinked hgood
  obtain ⟨hreaches, hlinked⟩ := (hrun.trans hends).transfer (p := ⟨p, .address⟩) hstart hstartLinked
  rw [hclosed] at hlinked
  have hbase : f.offset = (encodeFields (probe true)).length := hoffset.trans (length_probe true).symm
  obtain ⟨-, happlied⟩ := hq.finished hlinked.1
  rw [hbase] at happlied
  obtain ⟨c, hc⟩ := Option.isSome_iff_exists.mp (hq.source.connected hq.valid hlinked.1)
  have hstays := hstart.run_file_stays hreaches ((hbegins.kept hs ht).1.file _ hfile)
  -- the poll that turns to the log sends the record
  let env : RdmaAnswers := .granting (some ⟨.disconnected, c.cmId, false, true⟩) none
  obtain ⟨m, hstate, hreader, hsends, hturns⟩ :=
    hq.turned hbase hlinked.1 hstays hc (granting_grants .. : env.Grants) rfl
  have hdisk : q.transfer.primary.disk .appendonlyAof =
      some (encodeFields (probe true) ++ logOf [probe false]) :=
    hq.logs.atEnd.disk (by simp [length_probe])
  have hpoll : kvsReplicationStream 7 bufferLength 28 env q.transfer.primary =
      .ok (.sent (encodeFields (probe false)),
        { q.transfer.primary with replication := { m with aofReader := some ⟨56, 0⟩ } }) := by
    have hfull : m.state ≠ .fullSync := by
      rw [hstate]
      decide
    rw [← hturns _ _ (by decide), kvsReplicationStream_log hsends.initialized hsends.role
      (by decide) hsends.connection hfull]
    unfold streamLog kvsAofReaderRead
    simp only [hreader, hdisk]
    rfl
  have hrecord : ClientRecord (probe false) := ⟨⟨.inr rfl, by decide⟩, by decide⟩
  let record := encodeFields (probe false)
  let s' : Server := { q.transfer.primary with replication := { m with aofReader := some ⟨56, 0⟩ } }
  obtain ⟨t', htakes, happlied'⟩ := Pair.takes_record (p := ⟨s', q.transfer.replica, [], record⟩) happlied
    (redo_probe ..) hrecord (by decide) hgood rfl
  have hv : Pair.Reaches 7 8 ⟨s', q.transfer.replica, record, []⟩ ⟨s', t', [], []⟩ := by
    have hreceives : Pair.Reaches 7 8 ⟨s', q.transfer.replica, record, []⟩
        ⟨s', q.transfer.replica, [], record⟩ :=
      .step .start (Pair.Step.deliver (p := ⟨s', q.transfer.replica, record, []⟩) (List.append_nil _).symm)
    exact .step hreceives htakes
  have hagrees := full_sync_handover hs ht hbegins hreaches ⟨_, rfl, rfl⟩ hpoll
    (fun hfailed => by cases hfailed) .start hv
  rw [length_probe] at hagrees
  refine ⟨p, q.transfer, .sent record, s', _, hreaches, ?_, ?_, happlied.logged.1, rfl, hv,
    happlied'.logged.1, hagrees⟩
  · have hbefore := hstart.logs.atEnd.aofOffset
    rw [logOf_nil, List.append_nil, length_probe] at hbefore
    exact hbefore
  · have hafter := hq.logs.atEnd.aofOffset
    simp only [logOf_cons, logOf_nil, List.append_nil, List.length_append, length_probe] at hafter
    exact hafter

end

end KvStore
