import KvStore.Replication.Sink

/-!
# A full synchronisation

A primary and a replica, from the announcement of a snapshot until the primary
turns to its log. Messages arrive in order; clients of both servers and other
connections of the primary come in between. `Transfer.At` is the invariant: both
sides stand in the same exchange, or the replica has all of it and has closed its
connection.
-/

namespace KvStore

open Lib
open Replaying (AtEnd logOf)

-- ---------------------------------------------------------------------------
-- The two parties
-- ---------------------------------------------------------------------------

structure Transfer where
  primary : Server
  replica : Server
  primaryGot : Nat
  replicaGot : Nat

def Server.messages (s : Server) : List Bytes := s.replication.rdmaSync.messages

def Transfer.exchange (p : Transfer) : Exchange UInt8 :=
  ⟨p.primary.messages, p.replicaGot, p.replica.messages.length, p.primaryGot⟩

/-- A replica is told once that it is connected, after its primary has accepted. -/
def Transfer.Told (p : Transfer) (env : RdmaAnswers) : Prop :=
  env.Establishes → p.replica.replication.rdmaSync.established = false ∧
    p.primary.replication.rdmaSync.connection.isSome

/-- A poll of the primary that does not fail; `fd` is their connection on its side. -/
inductive Transfer.PrimaryPolls (fd : Nat) (p : Transfer) (env : RdmaAnswers) : Transfer → Prop
  | quiet (hquiet : ¬env.Receives)
    (hrun : kvsReplicationStream fd capacity got env p.primary = .ok (r, s')) (hgood : r ≠ .failed) :
    p.PrimaryPolls fd env { p with primary := s' }
  /-- It asks for a completion, without which it would fail, and gets the next
  message. -/
  | takes (hnext : p.replica.messages[p.primaryGot]? = some data)
    (hcompletion : env.completion = some (some (.recv data)))
    (hasks : kvsReplicationStream fd capacity got { env with completion := none } p.primary =
      .ok (.failed, s₁))
    (hrun : kvsReplicationStream fd capacity got env p.primary = .ok (r, s')) (hgood : r ≠ .failed) :
    p.PrimaryPolls fd env { p with primary := s', primaryGot := p.primaryGot + 1 }

/-- The same for the replica; `up` is the connection on its side. -/
inductive Transfer.ReplicaPolls (up : Nat) (p : Transfer) (env : RdmaAnswers) : Transfer → Prop
  | quiet (hquiet : ¬env.Receives)
    (hrun : kvsReplicationUpstreamStream up capacity env p.replica = .ok (r, t'))
    (hgood : r ≠ .failed) : p.ReplicaPolls up env { p with replica := t' }
  | takes (hevent : ¬env.Disconnects) (hnext : p.primary.messages[p.replicaGot]? = some data)
    (hcompletion : env.completion = some (some (.recv data)))
    (hrun : kvsReplicationUpstreamStream up capacity env p.replica = .ok (r, t'))
    (hgood : r ≠ .failed) : p.ReplicaPolls up env { p with replica := t', replicaGot := p.replicaGot + 1 }

/-- What goes on beside the synchronisation: clients of both servers, and other
replication connections. -/
inductive Transfer.Aside (fd : Nat) (p : Transfer) : Transfer → Prop
  | primaryClient (hsize : (encodeFields fields).length ≤ kvsMaxClientCommandBytes)
    (hready : output.Ready)
    (hrun : kvsExecuteFields fields output .client p.primary = .ok (executed, s')) :
    p.Aside fd { p with primary := s' }
  | replicaClient (hready : output.Ready)
    (hrun : kvsExecuteFields fields output .client p.replica = .ok (executed, t')) :
    p.Aside fd { p with replica := t' }
  | elsewhere (hconnection : PrimaryEvent.connection event = some fd') (hfd : fd' ≠ fd)
    (hrun : event.run p.primary = .ok (answer, s')) : p.Aside fd { p with primary := s' }

/-- A step that does not end the synchronisation. -/
inductive Transfer.Step (fd up : Nat) (p : Transfer) : Transfer → Prop
  | primary (hevent : ¬env.Disconnects) (hpoll : p.PrimaryPolls fd env q) : p.Step fd up q
  | replica (htold : p.Told env) (hpoll : p.ReplicaPolls up env q) : p.Step fd up q
  | aside (haside : p.Aside fd q) : p.Step fd up q

inductive Transfer.Reaches (fd up : Nat) (p : Transfer) : Transfer → Prop
  | start : p.Reaches fd up p
  | step (h : p.Reaches fd up q) (hstep : q.Step fd up r) : p.Reaches fd up r

-- ---------------------------------------------------------------------------
-- The invariant
-- ---------------------------------------------------------------------------

/-- The replica: in the exchange, or past it without a connection. -/
inductive Transfer.Replica (p : Transfer) (up : Nat) (f : FullSync) (x : Exchange UInt8) : Prop
  | syncing (hexchange : p.exchange = x) (hsink : Sink p.replica up f x)
  | closed (hstate : p.replica.replication.state = .catchUp)
    (happlied : p.replica.Applied up f.offset f.maps [] f.maps)
    (hfile : p.replica.disk .snapshotDb = some f.file)
    (hnone : p.replica.replication.rdmaSync.connection = none)

structure Transfer.At (p : Transfer) (fd up : Nat) (f : FullSync) (base : Bytes)
    (records : List (List Bytes)) (x : Exchange UInt8) : Prop where
  valid : x.Valid f.file
  source : Source p.primary.replication fd f x
  logs : p.primary.LogsSince base f.maps records
  replica : p.Replica up f x

/-- A primary that is free for a round: its log is `base`, with the maps `M`. -/
structure Server.Offers (s : Server) (base : Bytes) (M : Maps) : Prop where
  initialized : s.replication.initialized = true
  role : s.replication.role = .primary
  replicationId : IsId s.replication.replicationId
  port : 1 ≤ s.replication.rdmaPort ∧ s.replication.rdmaPort ≤ 65535
  idle : s.replication.snapshotConnectionFd = none
  sync : s.replication.rdmaSync = .start
  cleanup : s.replication.rdmaCleanupConnection = none
  logs : s.LogsSince base M []
  sized : M.Sized

/-- A replica whose handshake is under way. -/
structure Server.Asks (t : Server) (up : Nat) : Prop where
  handshake : t.Handshake up
  role : t.role = .replica
  mode : t.persistenceMode = .legacyHybrid
  sync : t.replication.rdmaSync = .start
  log : ∃ writer, t.aofWriter = some writer ∧ writer.path = .appendonlyAof ∧ writer.ring = true
  holds : ∃ M, t.engines.Hold t.rt.mallocs M

/-- The primary takes a snapshot for the replica, and the replica takes its
announcement. -/
inductive Transfer.Begins (s t : Server) (fd up : Nat) : Transfer → Prop
  | announced (hrandom : random.length = 20)
    (hpsync : kvsReplicationFrameProtocol fd (some random) (ascii "PSYNC ? -1") capacity s =
      .ok (some (frame ++ ascii "\r\n"), s'))
    (hanswer : call (kvsReplicationUpstreamFrameProtocol up (.resolving cmId)) capacity' frame [] t =
      .ok (some [], t')) : Begins s t fd up ⟨s', t', 0, 0⟩

def Transfer.arrived (p : Transfer) : Nat := (p.primary.messages.take p.replicaGot).flatten.length

/-- The two sides take turns; `sync` is the connection of the replica. -/
structure Transfer.Turns (p : Transfer) (f : FullSync) (sync : RdmaSync) : Prop where
  /-- In both directions together, no more than one message is under way. -/
  underway : (p.primary.messages.length - p.replicaGot) + (p.replica.messages.length - p.primaryGot) ≤ 1
  /-- A chunk is sent for an answer: none before `READY`. -/
  chunks : p.primary.messages.length ≤ p.primaryGot
  /-- `READY` first, and then the acknowledgement of each chunk. -/
  answers : ∀ n data, p.replica.messages[n]? = some data → n ≤ p.replicaGot ∧
    data = if n = 0 then readyMessage f.id else ackMessage (p.primary.messages.take n).flatten.length
  acknowledged : p.primary.replication.rdmaSync.acknowledgedBytes ≤ sync.acknowledgedBytes ∧
    sync.acknowledgedBytes ≤ sync.snapshotBytes
  received : sync.snapshotBytes = p.arrived
  /-- The receiver of a message has posted a receive for it. -/
  chunkPosted : p.replicaGot < p.primary.messages.length → ∃ c, sync.connection = some c ∧ c.recvPending = true
  answerPosted : p.primaryGot < p.replica.messages.length →
    ∃ c, p.primary.replication.rdmaSync.connection = some c ∧ c.recvPending = true

/-- What holds in a synchronisation of `f`. -/
structure Transfer.Safe (p : Transfer) (fd up : Nat) (f : FullSync) : Prop where
  file : p.primary.messages.flatten <+: f.file
  chunk : ∀ data ∈ p.primary.messages, data ≠ [] ∧ data.length ≤ rdmaBufferCapacity
  submitted : p.primary.replication.rdmaSync.snapshotBytes = p.primary.messages.flatten.length
  turns : ∀ c, p.replica.replication.rdmaSync.connection = some c →
    p.Turns f p.replica.replication.rdmaSync
  /-- What has arrived is in the temporary file, -/
  arriving : p.replica.replication.state = .fullSync →
    p.replica.disk .replicationTemp = some (f.file.take p.arrived) ∧ p.arrived < f.file.length
  /-- and once it is complete the replica has the maps of the primary, and is at
  its position. -/
  installed : p.replica.replication.state ≠ .fullSync → p.replica.replication.state = .catchUp ∧
    p.replica.Applied up f.offset f.maps [] f.maps ∧ p.replica.disk .snapshotDb = some f.file
  finished : p.primary.replication.rdmaSync.disconnectPending = true →
    p.replica.replication.state = .catchUp
  /-- A poll that is granted what it asks for, and told what it can be told, does
  not fail; the replica's needs its memory and its files as well. -/
  primaryServes : ∀ env capacity got, env.Grants → capacity ≠ 0 →
    env.TellsPrimary p.primary.replication.rdmaSync.connection →
    env.Completes p.primary.replication.rdmaSync.sendPending p.replica.messages[p.primaryGot]? →
    ∃ s', kvsReplicationStream fd capacity got env p.primary = .ok (.wait, s')
  replicaServes : ¬p.replica.CanFail → ∀ env capacity, env.Grants → capacity ≠ 0 →
    env.TellsReplica p.replica.replication.rdmaSync
      (p.primary.replication.rdmaSync.disconnectPending = true) →
    env.Completes p.replica.replication.rdmaSync.sendPending p.primary.messages[p.replicaGot]? →
    ∃ r t', kvsReplicationUpstreamStream up capacity env p.replica = .ok (r, t') ∧ r ≠ .failed

section
variable {p q : Transfer} {s s' : Server} {t t' : Server} {m m' : ReplicationManager} {f : FullSync}
  {x y : Exchange UInt8} {fd up capacity got n : Nat} {env : RdmaAnswers} {base : Bytes}
  {records : List (List Bytes)} {r : Streamed} {M₀ : Maps} {id : Bytes} {sync : RdmaSync} {told : Prop}

-- ---------------------------------------------------------------------------
-- Steps of one side
-- ---------------------------------------------------------------------------

theorem SinkSync.messages (h : SinkSync sync id x) : sync.messages = syncAnswers id x := by
  obtain ⟨c, hc, -, -, -, -, -, hsent⟩ := h.connection
  unfold RdmaSync.messages
  rw [hc]
  exact hsent

theorem length_syncAnswers (id : Bytes) (x : Exchange UInt8) : (syncAnswers id x).length = x.answers := by
  unfold syncAnswers
  rw [List.length_map, List.length_range]

theorem syncAnswers_next (id : Bytes) (x : Exchange UInt8) :
    (syncAnswers id x)[x.heard]? = nextAnswer id x := by
  unfold syncAnswers nextAnswer
  rw [List.getElem?_map]
  by_cases hlt : x.heard < x.answers
  · rw [if_pos hlt, List.getElem?_range hlt]
    rfl
  · rw [if_neg hlt, List.getElem?_eq_none (by rw [List.length_range]; exact Nat.not_lt.mp hlt)]
    rfl

theorem Server.LogsSince.moved (h : s.LogsSince base M₀ records) (m : ReplicationManager) :
    Server.LogsSince { s with replication := m } base M₀ records :=
  ⟨h.atEnd, h.mode, h.all, h.fits, h.holds⟩

theorem Streamed.wait_ne : Streamed.wait ≠ .failed := nofun

theorem Transfer.At.primary (h : p.At fd up f base records x) (hsteps : Exchange.Steps f.file x y)
    (hdelivered : y.delivered = x.delivered) (hanswers : y.answers = x.answers)
    (hheard : p.exchange = x → y.heard = n) (hsource : Source m fd f y) :
    Transfer.At { p with primary := { p.primary with replication := m }, primaryGot := n } fd up f base
      records y := by
  refine ⟨h.valid.steps hsteps, hsource, h.logs.moved m, ?_⟩
  cases h.replica with
  | syncing hexchange hsink =>
    refine .syncing ?_ (hsink.congr h.valid hsteps.pieces_prefix hdelivered hanswers)
    apply Exchange.ext
    · exact hsource.messages
    · rw [hdelivered, ← hexchange]
      rfl
    · rw [hanswers, ← hexchange]
      rfl
    · exact (hheard hexchange).symm
  | closed hstate happlied hfile hnone => exact .closed hstate happlied hfile hnone

theorem Transfer.At.sink (h : p.At fd up f base records x) (hexchange : p.exchange = x)
    (hby : BySink f.file told x y) (hdelivered : y.delivered = n) (hsink : Sink t' up f y)
    (haccepted : 0 < y.answers → p.primary.replication.rdmaSync.connection.isSome) :
    Transfer.At { p with replica := t', replicaGot := n } fd up f base records y := by
  refine ⟨h.valid.steps hby.steps, h.source.congr hby.pieces hby.heard haccepted, h.logs,
    .syncing ?_ hsink⟩
  apply Exchange.ext
  · rw [hby.pieces, ← hexchange]
    rfl
  · exact hdelivered.symm
  · change t'.messages.length = y.answers
    unfold Server.messages
    rw [hsink.sync.messages, length_syncAnswers]
  · rw [hby.heard, ← hexchange]
    rfl

theorem Transfer.At.primaryPolls (h : p.At fd up f base records x) (hevent : ¬env.Disconnects)
    (hpoll : p.PrimaryPolls fd env q) : ∃ y, q.At fd up f base records y := by
  cases hpoll with
  | quiet hquiet hrun hgood =>
    obtain ⟨m, y, rfl, hsteps, hdelivered, hanswers, hheard, hsource⟩ :=
      h.source.polls h.valid hevent hquiet hrun hgood
    refine ⟨y, h.primary hsteps hdelivered hanswers (fun hexchange => ?_) hsource⟩
    rw [hheard, ← hexchange]
    rfl
  | takes hnext hcompletion hasks hrun hgood =>
    cases h.replica with
    | syncing hexchange hsink =>
      have hanswer : p.replica.messages[p.primaryGot]? = nextAnswer f.id x := by
        rw [← syncAnswers_next, ← hsink.sync.messages, ← hexchange]
        rfl
      obtain ⟨m, y, rfl, hsteps, hdelivered, hanswers, hheard, hsource⟩ :=
        h.source.pollReceives h.valid hevent (hanswer.symm.trans hnext) hcompletion hasks hrun hgood
      refine ⟨y, h.primary hsteps hdelivered hanswers (fun _ => ?_) hsource⟩
      rw [hheard, ← hexchange]
      rfl
    | closed _ _ _ hnone =>
      have hmessages : p.replica.messages = [] := by
        unfold Server.messages RdmaSync.messages
        rw [hnone]
        rfl
      rw [hmessages] at hnext
      cases hnext

theorem Transfer.At.replicaPolls (h : p.At fd up f base records x) (htold : p.Told env)
    (hpoll : p.ReplicaPolls up env q) : ∃ y, q.At fd up f base records y := by
  cases hpoll with
  | quiet hquiet hrun hgood =>
    cases h.replica with
    | syncing hexchange hsink =>
      by_cases hevent : env.Disconnects
      · obtain ⟨hfailed, -⟩ | ⟨-, hstate, rfl⟩ := (hsink.closes h.valid hevent _ False).post hrun
        · exact absurd hfailed hgood
        · cases hsink.receiving with
          | arriving hfull =>
            rw [hfull] at hstate
            cases hstate
          | complete _ happlied hfile _ =>
            exact ⟨x, h.valid, h.source, h.logs, .closed hstate (happlied.upstream .start) hfile rfl⟩
      · obtain ⟨hfailed, -⟩ | ⟨-, -, y, hby, hdelivered, hsink'⟩ :=
          (hsink.polls h.valid hevent (fun hest => (htold hest).1) hquiet _ False).post hrun
        · exact absurd hfailed hgood
        · refine ⟨y, h.sink hexchange hby ?_ hsink' fun hpos => ?_⟩
          · rw [hdelivered, ← hexchange]
            rfl
          · exact (hby.ready hpos).elim h.source.accepted fun hest => (htold hest).2
    | closed hstate happlied hfile hnone =>
      obtain rfl := (kvsReplicationUpstreamStream_closed hnone _ _).post hrun
      exact ⟨x, h.valid, h.source, h.logs, .closed hstate happlied hfile hnone⟩
  | takes hevent hnext hcompletion hrun hgood =>
    cases h.replica with
    | syncing hexchange hsink =>
      have hpiece : p.primary.messages[p.replicaGot]? = nextPiece x := by
        rw [← hexchange]
        rfl
      have hpiece := hpiece.symm.trans hnext
      have hlong := h.source.bounded _ (List.mem_of_getElem? hpiece)
      obtain ⟨hfailed, -⟩ | ⟨-, -, y, hby, hdelivered, hsink'⟩ :=
        (hsink.pollReceives h.valid hevent (fun hest => (htold hest).1) hpiece hlong hcompletion _
          False).post hrun
      · exact absurd hfailed hgood
      · refine ⟨y, h.sink hexchange hby ?_ hsink' fun hpos => ?_⟩
        · rw [hdelivered, ← hexchange]
          rfl
        · exact (hby.ready hpos).elim h.source.accepted fun hest => (htold hest).2
    | closed hstate happlied hfile hnone =>
      obtain rfl := (kvsReplicationUpstreamStream_closed hnone _ _).post hrun
      exact ⟨x, h.valid, h.source, h.logs, .closed hstate happlied hfile hnone⟩

theorem Transfer.At.logged (h : p.At fd up f base records x) {records' : List (List Bytes)}
    (hlogs : s'.LogsSince base f.maps records')
    (hmanager : s'.replication = p.primary.replication) :
    Transfer.At { p with primary := s' } fd up f base records' x := by
  refine ⟨h.valid, by rw [hmanager]; exact h.source, hlogs, ?_⟩
  cases h.replica with
  | syncing hexchange hsink =>
    refine .syncing ?_ hsink
    rw [← hexchange]
    unfold Transfer.exchange Server.messages
    rw [hmanager]
  | closed hstate happlied hfile hnone => exact .closed hstate happlied hfile hnone

theorem Transfer.At.aside (h : p.At fd up f base records x) (haside : p.Aside fd q) :
    ∃ new, q.At fd up f base (records ++ new) x ∧
      q.primary.replication = p.primary.replication ∧ q.replica.replication = p.replica.replication := by
  cases haside with
  | primaryClient hsize hready hrun =>
    obtain ⟨new, hlogs, hmanager⟩ := h.logs.command hsize hready hrun
    exact ⟨new, h.logged hlogs hmanager, hmanager, rfl⟩
  | replicaClient hready hrun =>
    refine ⟨[], ?_⟩
    rw [List.append_nil]
    cases h.replica with
    | syncing hexchange hsink =>
      obtain ⟨hsink', hmanager⟩ := hsink.command hready hrun
      refine ⟨⟨h.valid, h.source, h.logs, .syncing ?_ hsink'⟩, rfl, hmanager⟩
      rw [← hexchange]
      unfold Transfer.exchange Server.messages
      rw [hmanager]
    | closed hstate happlied hfile hnone =>
      obtain ⟨rt', rfl⟩ := kvsExecuteFields_offline happlied.role (by simp [hstate]) hrun
      have happlied' := (happlied.read f.holds.offset_le hready hrun).1
      exact ⟨⟨h.valid, h.source, h.logs, .closed hstate happlied' hfile hnone⟩, rfl, rfl⟩
  | elsewhere hconnection hfd hrun =>
    obtain ⟨_, hsame⟩ := PrimaryEvent.run_foreign h.source.owner _ hconnection hfd
    rw [hsame] at hrun
    obtain ⟨-, rfl⟩ := Prod.mk.inj (Except.ok.inj hrun)
    exact ⟨[], by rw [List.append_nil]; exact h, rfl, rfl⟩

/-- One step; the records behind the checkpoint are the same, or more. -/
theorem Transfer.At.step (h : p.At fd up f base records x) (hstep : p.Step fd up q) :
    ∃ new y, q.At fd up f base (records ++ new) y := by
  cases hstep with
  | primary hevent hpoll =>
    obtain ⟨y, hq⟩ := h.primaryPolls hevent hpoll
    exact ⟨[], y, by rw [List.append_nil]; exact hq⟩
  | replica htold hpoll =>
    obtain ⟨y, hq⟩ := h.replicaPolls htold hpoll
    exact ⟨[], y, by rw [List.append_nil]; exact hq⟩
  | aside haside =>
    obtain ⟨new, hq, -⟩ := h.aside haside
    exact ⟨new, x, hq⟩

theorem Transfer.At.reaches (h : p.At fd up f base records x) (hrun : p.Reaches fd up q) :
    ∃ new y, q.At fd up f base (records ++ new) y := by
  induction hrun with
  | start => exact ⟨[], x, by rw [List.append_nil]; exact h⟩
  | step _ hstep ih =>
    obtain ⟨new, y, hq⟩ := ih
    obtain ⟨new', z, hr⟩ := hq.step hstep
    exact ⟨new ++ new', z, by rw [← List.append_assoc]; exact hr⟩

-- ---------------------------------------------------------------------------
-- The start
-- ---------------------------------------------------------------------------

theorem isLowerHex_hexByte (b : UInt8) : ∀ c ∈ hexByte b, isLowerHex c = true := by
  have hdigits : ∀ n < 16, isLowerHex (hexDigits.getD n 0) = true := by decide
  have hhigh : (b >>> 4).toNat < 16 := by
    have hb := b.toNat_lt
    have hshift : (4 : UInt8).toNat % 8 = 4 := by decide
    rw [UInt8.toNat_shiftRight, hshift, Nat.shiftRight_eq_div_pow]
    omega
  have hlow : (b &&& 15).toNat < 16 := by
    rw [UInt8.toNat_and]
    exact Nat.and_lt_two_pow b.toNat (n := 4) (by decide)
  intro c hc
  simp only [hexByte, List.mem_cons, List.not_mem_nil, or_false] at hc
  rcases hc with rfl | rfl
  · exact hdigits _ hhigh
  · exact hdigits _ hlow

theorem isId_generated {random : Bytes} (h : random.length = 20) : IsId (random.flatMap hexByte) := by
  refine ⟨?_, fun c hc => ?_⟩
  · rw [List.length_flatMap]
    simp only [hexByte, List.length_cons, List.length_nil, List.map_const', List.sum_replicate, h]
    rfl
  · obtain ⟨b, -, hb⟩ := List.mem_flatMap.mp hc
    exact isLowerHex_hexByte b c hb

def Server.joins (t : Server) (m : ReplicationManager) (cmId : Nat) : Server := { t with
  disk := (t.disk.unlink .replicationTemp).write .replicationTemp []
  replication := { t.replication with
    snapshotWriter := some ⟨m.snapshotFileSize.toNat⟩
    replicationId := m.replicationId
    primaryRdmaPort := m.rdmaPort
    fullSyncId := m.fullSyncId
    replicationOffset := m.replicationOffset
    snapshotFileSize := m.snapshotFileSize
    rdmaSync := { RdmaSync.start with
      connection := some { RdmaConnection.blank with cmId := some cmId, deadline := true } }
    state := .fullSync } }

theorem upstreamFrame_joins {cmId : Nat} (hm : m.Announces)
    (hsync : t.replication.rdmaSync = .start) :
    Triple (call (kvsReplicationUpstreamFrameProtocol up (.resolving cmId)) capacity (fullResyncFrame m) [])
      t (fun reply t' => reply.isSome → t' = t.joins m cmId) Never := by
  obtain ⟨hlength, hname⟩ := fullResyncFrame_name m
  have hpong : ¬((fullResyncFrame m).length = 4 ∧ (fullResyncFrame m ++ [0]).take 4 = ascii "PONG") :=
    fun hpong => absurd hpong.1 (by omega)
  unfold call kvsReplicationUpstreamFrameProtocol
  refine Triple.get_bind ?_
  refine Triple.ite (fun _ => Triple.pure nofun) fun _ => ?_
  refine Triple.ite (fun _ => Triple.pure nofun) fun _ => ?_
  rw [if_neg hpong, if_pos ⟨hlength, hname⟩]
  simp only [scanFullResync_printed hm]
  unfold beginFullSync
  refine Triple.modify_bind (Triple.modify_bind (Triple.get_bind ?_))
  rw [hsync]
  exact Triple.set_bind (Triple.pure fun _ => rfl)

theorem Disk.write_stays {disk : Disk} {path : Path} (hsome : (disk path).isSome) (path' : Path)
    (file : Bytes) : ((disk.write path' file) path).isSome := by
  by_cases hsame : path = path'
  · rw [hsame, Disk.write_self]
    rfl
  · rw [Disk.write_other _ _ hsame]
    exact hsome

theorem Server.Offers.savable (h : s.Offers base M₀) (hsize : M₀.snapshotSize ≤ offMax) : M₀.Savable := by
  obtain ⟨M, hafter, hE⟩ := h.logs.holds
  obtain rfl := Option.some.inj hafter
  exact ⟨h.sized.storable, fun e k v => hE.admitted e k v, hE.array_card_le, hsize⟩

theorem frameProtocol_capacity {random : Option Bytes} {frame line : Bytes}
    (h : kvsReplicationFrameProtocol fd random frame capacity s = .ok (some line, s')) : capacity ≠ 0 := by
  rintro rfl
  unfold kvsReplicationFrameProtocol at h
  rw [if_pos (.inr rfl)] at h
  cases h

structure Server.Kept (s s' : Server) : Prop where
  role : s'.role = s.role
  file : ∀ path, (s.disk path).isSome → (s'.disk path).isSome
  canFail : s'.CanFail → s.CanFail

/-- The round that a `PSYNC` starts, if there is memory for it and a file can hold
the maps. -/
theorem Server.Offers.psync (h : s.Offers base M₀) {random : Bytes} (hrandom : random.length = 20)
    (hcapacity : capacity ≠ 0) (fd : Nat) :
    Triple (kvsReplicationFrameProtocol fd (some random) (ascii "PSYNC ? -1") capacity) s (fun line s' =>
      line = none ∧ (s.rt.CanFail ∨ ¬M₀.snapshotSize ≤ offMax) ∨
        ∃ f : FullSync, f.maps = M₀ ∧ f.offset = base.length ∧ s'.replication.Announces ∧
          line = response capacity (fullResyncLine s'.replication) ∧ Source s'.replication fd f .start ∧
          s'.replication.rdmaSync = .start ∧ s'.LogsSince base f.maps [] ∧ s.Kept s') Never := by
  obtain ⟨M, hafter, hE⟩ := h.logs.holds
  obtain rfl := Option.some.inj hafter
  have hend := h.logs.atEnd
  have hfits := h.logs.fits
  rw [logOf_nil, List.append_nil] at hend hfits
  unfold kvsReplicationFrameProtocol
  rw [if_neg (not_or.mpr ⟨by decide, hcapacity⟩), if_neg (by decide), if_pos rfl]
  refine (startFullSync_begins hE h.sized.storable hend.aofOffset h.initialized h.role
    h.replicationId.ne_nil h.idle (by rw [h.sync]; rfl) h.cleanup fd capacity random).weaken
    fun line s' hbegun => ?_
  obtain hnone | ⟨rt', records, file, hext, hlists, hsize, hfile, hline, hs'⟩ := hbegun
  · exact .inl hnone
  have hlength : file.length = M₀.snapshotSize := by
    rw [hfile, length_savedFile, Maps.snapshotSize, hlists.size]
  obtain ⟨hformat, hload, hadmits⟩ :=
    savedFile_holds (some base.length) hlists (h.savable hsize) (by simpa using hfits)
  rw [← hfile] at hformat
  have hid := isId_generated hrandom
  rw [← hlength] at hsize
  let f : FullSync := ⟨file, random.flatMap hexByte, base.length, M₀, .file hformat hload hadmits, h.sized,
    hid, hsize⟩
  have hpos : 0 < (file.length : Int) := Int.natCast_pos.mpr f.file_pos
  have hbound : (file.length : Int) ≤ offMax := Int.ofNat_le.mpr hsize
  have hlog : AtEnd s' .appendonlyAof base := by
    rw [hs']
    refine ⟨hend.1, ?_⟩
    change ((s.disk.write .replicationSnapshot file) .appendonlyAof).getD [] = base
    rw [Disk.write_other _ _ (by decide)]
    exact hend.2
  have hnil : ∀ piece ∈ (Exchange.start : Exchange UInt8).pieces, piece.length ≤ rdmaBufferCapacity :=
    fun piece hpiece => absurd hpiece List.not_mem_nil
  subst hs'
  refine .inr ⟨f, rfl, rfl, ⟨h.replicationId, hid, hfits, hpos, hbound, h.port.1, h.port.2⟩, hline, ?_,
    h.sync, ?_, rfl, fun path hsome => Disk.write_stays hsome .., fun hcan => hcan.imp_left hext.canFail⟩
  · refine ⟨h.initialized, h.role, rfl, rfl, rfl, rfl, rfl, h.cleanup, ?_, hnil, ?_, ?_, ?_, ?_,
      (absurd · (Nat.lt_irrefl 0)), ?_, fun _ => rfl, (absurd · (Nat.lt_irrefl 0)), ?_⟩
    all_goals simp only [h.sync]
    · rfl
    · rfl
    · rfl
    · intro c hc
      cases hc
    · exact (absurd · Bool.false_ne_true)
    · exact (absurd · Bool.false_ne_true)
    · exact (absurd · Bool.false_ne_true)
  · refine ⟨?_, h.logs.mode, fun r hr => absurd hr List.not_mem_nil, ?_, ⟨M₀, rfl, hE.later hext.mallocs⟩⟩
    · rw [logOf_nil, List.append_nil]
      exact hlog
    · rw [logOf_nil, List.append_nil]
      exact hfits

theorem Server.Asks.joins (h : t.Asks up) (hid : m.fullSyncId = f.id) (hoffset : m.replicationOffset = f.offset)
    (hsize : m.snapshotFileSize = f.file.length) (cmId : Nat) : Sink (t.joins m cmId) up f .start := by
  have htemp : (t.joins m cmId).disk .replicationTemp = some [] := by
    change (t.disk.unlink .replicationTemp).write .replicationTemp [] .replicationTemp = some []
    rw [Disk.write_self]
  have hwriter : (t.joins m cmId).replication.snapshotWriter = some ⟨f.file.length⟩ := by
    change some (⟨m.snapshotFileSize.toNat⟩ : SnapshotReceiver) = some ⟨f.file.length⟩
    rw [hsize]
    rfl
  refine ⟨⟨h.role, h.mode, h.handshake.initialized, h.handshake.role, h.handshake.connection,
    hid, hsize, hoffset, h.log, h.holds, .arriving rfl hwriter htemp f.file_pos⟩, ?_⟩
  exact ⟨⟨_, rfl, rfl, rfl, nofun, nofun, rfl, rfl⟩, by simp [Exchange.start, Server.joins, RdmaSync.start],
    nofun, rfl, rfl⟩

theorem Transfer.Begins.at (h : Transfer.Begins s t fd up p) (hs : s.Offers base M₀) (ht : t.Asks up) :
    ∃ f : FullSync, f.maps = M₀ ∧ f.offset = base.length ∧ p.At fd up f base [] .start ∧
      p.primary.replication.rdmaSync.connection = none ∧
      ∃ c, p.replica.replication.rdmaSync.connection = some c ∧ c.prepared = false := by
  cases h with
  | announced hrandom hpsync hanswer =>
    obtain ⟨hnone, -⟩ | ⟨f, hmaps, hoffset, hannounces, hline, hsource, hsync, hlogs, -⟩ :=
      (hs.psync hrandom (frameProtocol_capacity hpsync) fd).post hpsync
    · cases hnone
    unfold response at hline
    split at hline
    · cases hline
    rw [fullResyncLine_eq] at hline
    obtain rfl := List.append_cancel_right (Option.some.inj hline)
    obtain rfl := (upstreamFrame_joins hannounces ht.sync).post hanswer rfl
    refine ⟨f, hmaps, hoffset, ⟨Exchange.valid_start, hsource, hlogs, .syncing ?_ ?_⟩,
      congrArg (·.connection) hsync, _, rfl, rfl⟩
    · apply Exchange.ext
      · exact hsource.messages
      · rfl
      · rfl
      · rfl
    · exact ht.joins hsource.fullSyncId hsource.offset hsource.size _

theorem Transfer.Begins.kept (h : Transfer.Begins s t fd up p) (hs : s.Offers base M₀) (ht : t.Asks up) :
    s.Kept p.primary ∧ (p.replica.CanFail → t.CanFail) := by
  cases h with
  | announced hrandom hpsync hanswer =>
    obtain ⟨hnone, -⟩ | ⟨_, -, -, hannounces, hline, -, -, -, hkept⟩ :=
      (hs.psync hrandom (frameProtocol_capacity hpsync) fd).post hpsync
    · cases hnone
    unfold response at hline
    split at hline
    · cases hline
    rw [fullResyncLine_eq] at hline
    obtain rfl := List.append_cancel_right (Option.some.inj hline)
    obtain rfl := (upstreamFrame_joins hannounces ht.sync).post hanswer rfl
    exact ⟨hkept, id⟩

theorem Server.Offers.begins (hs : s.Offers base M₀) (hmemory : ¬s.rt.CanFail)
    (hsize : M₀.snapshotSize ≤ offMax) (ht : t.Asks up) (fd : Nat) : ∃ p, Transfer.Begins s t fd up p := by
  have hrandom : (List.replicate 20 (0 : UInt8)).length = 20 := rfl
  obtain ⟨line, s', hpsync, ⟨-, hcan | hlarge⟩ | ⟨f, -, -, hannounces, hline, -⟩⟩ :=
    (hs.psync hrandom (show bufferLength ≠ 0 by decide) fd).run
  · exact absurd hcan hmemory
  · exact absurd hsize hlarge
  have hshort : (fullResyncLine s'.replication).length < bufferLength := length_fullResyncLine hannounces
  unfold response at hline
  rw [if_neg (Nat.not_le.mpr hshort), fullResyncLine_eq] at hline
  subst hline
  have hnone : t.replication.rdmaSync.connection = none := by rw [ht.sync]; rfl
  obtain ⟨_, t', hanswer, rfl, -⟩ :=
    (upstreamFrame_announced hannounces ht.handshake hnone Nat.one_pos :
      Triple (call (kvsReplicationUpstreamFrameProtocol up (.resolving 0)) 1 _ []) t _ _).run
  exact ⟨_, .announced hrandom hpsync hanswer⟩

-- ---------------------------------------------------------------------------
-- Safety
-- ---------------------------------------------------------------------------

theorem syncAnswers_get {id : Bytes} {data : Bytes} (h : (syncAnswers id x)[n]? = some data) :
    n < x.answers ∧ data = syncAnswer id x n := by
  unfold syncAnswers at h
  rw [List.getElem?_map] at h
  by_cases hlt : n < x.answers
  · rw [List.getElem?_range hlt] at h
    exact ⟨hlt, (Option.some.inj h).symm⟩
  · rw [List.getElem?_eq_none (by rw [List.length_range]; exact Nat.not_lt.mp hlt)] at h
    cases h

theorem Transfer.At.turns (h : p.At fd up f base records x) (hexchange : p.exchange = x)
    (hsink : Sink p.replica up f x) : p.Turns f p.replica.replication.rdmaSync := by
  have hpieces : p.primary.messages = x.pieces := by rw [← hexchange]; rfl
  have hdelivered : p.replicaGot = x.delivered := by rw [← hexchange]; rfl
  have hanswers : p.replica.messages.length = x.answers := by rw [← hexchange]; rfl
  have hheard : p.primaryGot = x.heard := by rw [← hexchange]; rfl
  have hmessages : p.replica.messages = syncAnswers f.id x := hsink.sync.messages
  obtain ⟨hconfirmed, hanswered, -, -⟩ := h.valid.ordered
  refine ⟨?_, ?_, fun n data hdata => ?_, ?_, ?_, fun hlt => ?_, fun hlt => ?_⟩
  · rw [hpieces, hdelivered, hanswers, hheard]
    exact h.valid.underway
  · rw [hpieces, hheard]
    exact h.valid.pieces_le
  · rw [hmessages] at hdata
    obtain ⟨hlt, rfl⟩ := syncAnswers_get hdata
    have hle := h.valid.answers_le
    rw [hdelivered, hpieces]
    exact ⟨by omega, rfl⟩
  · rw [h.source.acknowledgedBytes, hsink.sync.acknowledgedBytes, hsink.sync.snapshotBytes]
    exact ⟨hconfirmed, hanswered⟩
  · rw [hsink.sync.snapshotBytes]
    unfold Exchange.arrived Exchange.upTo Transfer.arrived
    rw [hpieces, hdelivered]
  · rw [hpieces, hdelivered] at hlt
    obtain ⟨-, hturn, -⟩ := h.valid.turn_deliver hlt
    obtain ⟨c, hc, -, -, hrecv, hprepared, -, -⟩ := hsink.sync.connection
    have hestablished := hsink.sync.established.mpr (by rw [hturn]; exact Nat.succ_pos _)
    exact ⟨c, hc, hrecv (hprepared hestablished)⟩
  · rw [hanswers, hheard] at hlt
    obtain ⟨c, hc⟩ := Option.isSome_iff_exists.mp
      (h.source.accepted (Nat.lt_of_le_of_lt (Nat.zero_le _) hlt))
    exact ⟨c, hc, (h.source.connection c hc).2.1⟩

/-- The primary ends the synchronisation only when the replica has all of it. -/
theorem Transfer.At.finished (h : p.At fd up f base records x)
    (hpending : p.primary.replication.rdmaSync.disconnectPending = true) :
    p.replica.replication.state = .catchUp ∧ p.replica.Applied up f.offset f.maps [] f.maps := by
  cases h.replica with
  | closed hstate happlied => exact ⟨hstate, happlied⟩
  | syncing _ hsink =>
    cases hsink.receiving with
    | complete hstate happlied => exact ⟨hstate, happlied⟩
    | arriving _ _ _ hlt =>
      obtain ⟨-, hconfirmed, -⟩ := h.source.finished hpending
      obtain ⟨hle, hle', -, -⟩ := h.valid.ordered
      omega

theorem Transfer.At.safe (h : p.At fd up f base records x) : p.Safe fd up f := by
  have hpieces : p.primary.messages = x.pieces := h.source.messages
  refine ⟨?_, ?_, ?_, ?_, ?_, ?_, fun hpending => (h.finished hpending).1, ?_, ?_⟩
  · rw [hpieces]
    exact h.valid.front
  · intro data hdata
    rw [hpieces] at hdata
    exact ⟨h.valid.nonempty data hdata, h.source.bounded data hdata⟩
  · rw [hpieces]
    exact h.source.snapshotBytes
  · intro c hc
    cases h.replica with
    | syncing hexchange hsink => exact h.turns hexchange hsink
    | closed _ _ _ hnone =>
      rw [hnone] at hc
      cases hc
  · intro hstate
    cases h.replica with
    | closed hstate' =>
      rw [hstate'] at hstate
      cases hstate
    | syncing hexchange hsink =>
      have harrived : p.arrived = x.arrived := by
        rw [← hexchange]
        rfl
      rw [harrived]
      cases hsink.receiving with
      | arriving _ _ htemp hlt => exact ⟨htemp, hlt⟩
      | complete hstate' =>
        rw [hstate'] at hstate
        cases hstate
  · intro hstate
    cases h.replica with
    | closed hstate' happlied hfile => exact ⟨hstate', happlied, hfile⟩
    | syncing _ hsink =>
      cases hsink.receiving with
      | arriving hstate' => exact absurd hstate' hstate
      | complete hstate' happlied hfile => exact ⟨hstate', happlied, hfile⟩
  · intro env capacity got hgrants hcapacity htold hcompletes
    refine h.source.serves h.valid hgrants htold ?_ hcapacity got
    cases h.replica with
    | syncing hexchange hsink =>
      rw [← syncAnswers_next, ← hsink.sync.messages, ← hexchange]
      exact hcompletes
    | closed _ _ _ hnone =>
      have hmessages : p.replica.messages = [] := by
        unfold Server.messages RdmaSync.messages
        rw [hnone]
        rfl
      rw [hmessages] at hcompletes
      obtain hno | hsend | ⟨_, _, hnext⟩ := hcompletes
      · exact .inl hno
      · exact .inr (.inl hsend)
      · cases hnext
  · intro hgood env capacity hgrants hcapacity htold hcompletes
    cases h.replica with
    | syncing hexchange hsink =>
      refine hsink.serves h.valid h.source.bounded hgood hgrants hcapacity htold (fun hended => ?_) ?_
      · obtain ⟨-, hconfirmed, -⟩ := h.source.finished hended
        have hordered := h.valid.ordered
        omega
      · rw [← hexchange]
        exact hcompletes
    | closed _ happlied _ hnone =>
      have htriple : Triple (kvsReplicationUpstreamStream up capacity env) p.replica
          (fun r _ => r = .sent []) Never := by
        unfold kvsReplicationUpstreamStream
        refine Triple.get_bind ?_
        rw [if_neg (by simp [happlied.following.initialized, happlied.following.role,
          happlied.following.connection, hcapacity]), hnone]
        exact Triple.pure rfl
      obtain ⟨_, t', hrun, rfl⟩ := htriple.run
      exact ⟨_, t', hrun, nofun⟩

end

end KvStore
