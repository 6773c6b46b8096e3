import KvStore.Replication.Isolation
import KvStore.Server.ReplayExact

/-!
# What a primary streams

From the start of the catch-up on, a primary sends its log, range after range,
and the `ONLINE` line when there is nothing left to send. Clients append to the
log between any two polls. `Server.Sends` is the invariant: how much of the log
was sent, and that the manager stands there.
-/

namespace KvStore

open Lib
open Replaying (AtEnd Record logOf)

/-- The log up to `sent` is on its way to the replica of the connection. -/
structure Server.Sends (s : Server) (fd : Nat) (log : Bytes) (sent : Nat) : Prop where
  initialized : s.replication.initialized = true
  role : s.replication.role = .primary
  connection : s.replication.snapshotConnectionFd = some fd
  atEnd : AtEnd s .appendonlyAof log
  state : s.replication.state = .catchUp ∨ s.replication.state = .online
  sent_le : sent ≤ log.length
  reader : ∀ r ∈ s.replication.aofReader, r.offset = sent ∧ sent + r.remaining ≤ log.length
  offset : s.replication.aofReader = none → s.replication.state = .online →
    s.replication.replicationOffset = sent

/-- The results of a poll: a piece of the log, the `ONLINE` line at the end of
the log, nothing because everything was sent, or a failure because the output
cannot take the line. -/
inductive Server.Streams (s : Server) (fd capacity : Nat) (log : Bytes) (sent : Nat) :
    Streamed → ReplicationManager → Prop
  | data : chunk <+: log.drop sent →
    Server.Sends { s with replication := m } fd log (sent + chunk.length) →
    m.state = s.replication.state → s.Streams fd capacity log sent (.sent chunk) m
  | online : sent = log.length → s.replication.state = .catchUp → m.state = .online →
    Server.Sends { s with replication := m } fd log sent →
    s.Streams fd capacity log sent (.sent (onlineLine sent)) m
  | wait : sent = log.length → m.state = s.replication.state →
    Server.Sends { s with replication := m } fd log sent → s.Streams fd capacity log sent .wait m
  | failed : capacity ≤ (onlineLine log.length).length → m.state = s.replication.state →
    Server.Sends { s with replication := m } fd log sent → s.Streams fd capacity log sent .failed m

section
variable {s s' : Server} {m : ReplicationManager} {fd capacity got sent : Nat} {log : Bytes}
  {reader : AofReader}

theorem Replaying.AtEnd.aofOffset (h : AtEnd s path log) : s.aofOffset = some log.length := by
  unfold Server.aofOffset
  rw [h.1]
  rfl

theorem Replaying.AtEnd.disk (h : AtEnd s path log) (hpos : 0 < log.length) : s.disk path = some log := by
  have hfile := h.2
  unfold Server.aofFile at hfile
  cases hdisk : s.disk path with
  | none =>
    rw [hdisk] at hfile
    rw [← hfile] at hpos
    exact absurd hpos (lt_irrefl 0)
  | some file =>
    rw [hdisk] at hfile
    exact congrArg some hfile

theorem Replaying.AtEnd.read (h : AtEnd s path log) (hcapacity : capacity ≠ 0) (hoffset : reader.offset = sent)
    (hrange : sent + reader.remaining ≤ log.length) (hleft : 0 < reader.remaining) (got : Nat) :
    ∃ chunk reader', kvsAofReaderRead s.disk path reader capacity got = some (chunk, reader') ∧
      0 < chunk.length ∧ chunk <+: log.drop sent ∧ reader'.offset = sent + chunk.length ∧
      sent + chunk.length + reader'.remaining ≤ log.length := by
  unfold kvsAofReaderRead
  rw [if_neg hcapacity, if_neg (by omega)]
  have hfile : (s.disk path).getD [] = log := h.2
  rw [hfile, hoffset]
  generalize hchunk : ((log.drop sent).take (min capacity reader.remaining)).take (max got 1) = chunk
  have hlength : chunk.length = min (max got 1) (min capacity reader.remaining) := by
    rw [← hchunk]
    simp only [List.length_take, List.length_drop]
    omega
  have hfront : chunk <+: log.drop sent := by
    rw [← hchunk]
    exact (List.take_prefix ..).trans (List.take_prefix ..)
  have hpos : 0 < chunk.length := by omega
  refine ⟨chunk, ⟨sent + chunk.length, reader.remaining - chunk.length⟩, ?_, hpos, hfront, rfl, ?_⟩
  · simp only [hchunk, Nat.pos_iff_ne_zero.mp hpos, if_false]
  · change sent + chunk.length + (reader.remaining - chunk.length) ≤ log.length
    omega

theorem Replaying.AtEnd.open (h : AtEnd s path log) (hsent : sent < log.length) :
    kvsAofReaderOpen s.disk path sent log.length = some ⟨sent, log.length - sent⟩ := by
  unfold kvsAofReaderOpen
  rw [if_neg (by omega), h.disk (by omega)]
  simp only
  rw [if_neg (by omega)]

theorem Server.Sends.move (h : s.Sends fd log sent) (m : ReplicationManager)
    (hm : m.state = s.replication.state) (hinit : m.initialized = s.replication.initialized)
    (hrole : m.role = s.replication.role)
    (hfd : m.snapshotConnectionFd = s.replication.snapshotConnectionFd) {sent' : Nat}
    (hle : sent' ≤ log.length)
    (hreader : ∀ r ∈ m.aofReader, r.offset = sent' ∧ sent' + r.remaining ≤ log.length)
    (hoffset : m.aofReader = none → m.state = .online → m.replicationOffset = sent') :
    Server.Sends { s with replication := m } fd log sent' where
  initialized := hinit.trans h.initialized
  role := hrole.trans h.role
  connection := hfd.trans h.connection
  atEnd := h.atEnd
  state := by
    change m.state = .catchUp ∨ m.state = .online
    rw [hm]
    exact h.state
  sent_le := hle
  reader := hreader
  offset := hoffset

-- ---------------------------------------------------------------------------
-- One poll
-- ---------------------------------------------------------------------------

theorem Server.Sends.readLog (h : s.Sends fd log sent) (hcapacity : capacity ≠ 0)
    (hm : m.state = s.replication.state) (hinit : m.initialized = s.replication.initialized)
    (hrole : m.role = s.replication.role)
    (hfd : m.snapshotConnectionFd = s.replication.snapshotConnectionFd)
    (hreader : m.aofReader = some reader) (hoffset : reader.offset = sent)
    (hrange : sent + reader.remaining ≤ log.length) (hleft : 0 < reader.remaining)
    (latest : Option Nat) (got rounds : Nat) :
    ∃ r m', streamLog s.disk latest capacity got (rounds + 1) m = .ok (r, m') ∧
      s.Streams fd capacity log sent r m' := by
  obtain ⟨chunk, reader', hread, hpos, hfront, hoffset', hrange'⟩ :=
    h.atEnd.read hcapacity hoffset hrange hleft got
  refine ⟨.sent chunk, { m with aofReader := some reader' }, ?_, ?_⟩
  · unfold streamLog
    simp only [hreader, hread, gt_iff_lt, hpos, if_true]
  · refine .data hfront (h.move { m with aofReader := some reader' } hm hinit hrole hfd
      (by omega) ?_ fun hnone => ?_) hm
    · rintro r ⟨⟩
      exact ⟨hoffset', hrange'⟩
    · cases hnone

theorem Server.Sends.endRange (h : s.Sends fd log sent) (hcapacity : capacity ≠ 0)
    (hreader : s.replication.aofReader = some reader) (hleft : reader.remaining = 0) (got : Nat) :
    ∃ r m, streamLog s.disk s.aofOffset capacity got 2 s.replication = .ok (r, m) ∧
      s.Streams fd capacity log sent r m := by
  obtain ⟨hoffset, -⟩ := h.reader reader hreader
  have hread : kvsAofReaderRead s.disk .appendonlyAof reader capacity got = some ([], reader) := by
    unfold kvsAofReaderRead
    rw [if_neg hcapacity, if_pos hleft]
  have hend : ¬log.length < sent := not_lt_of_ge h.sent_le
  unfold streamLog
  simp only [hreader, hread, List.length_nil, gt_iff_lt, lt_irrefl, if_false, h.atEnd.aofOffset,
    hoffset, hend]
  by_cases hmore : sent < log.length
  · simp only [hmore, if_true, h.atEnd.open hmore]
    have hrange : sent + (log.length - sent) ≤ log.length := by omega
    exact h.readLog (m := { s.replication with aofReader := some ⟨sent, log.length - sent⟩ })
      hcapacity rfl rfl rfl rfl rfl rfl hrange (Nat.sub_pos_of_lt hmore) ..
  · obtain rfl : sent = log.length := by have := h.sent_le; omega
    simp only [hmore, if_false]
    have hmove : ∀ {m : ReplicationManager}, m.state = s.replication.state →
        m.initialized = s.replication.initialized → m.role = s.replication.role →
        m.snapshotConnectionFd = s.replication.snapshotConnectionFd → m.aofReader = none →
        m.replicationOffset = log.length →
        Server.Sends { s with replication := m } fd log log.length := by
      intro m hm hinit hrole hfd hnone hoffset
      refine h.move m hm hinit hrole hfd le_rfl (fun r hr => ?_) fun _ _ => hoffset
      rw [hnone] at hr
      cases hr
    by_cases honline : s.replication.state = .online
    · simp only [honline, if_true]
      exact ⟨_, _, rfl, .wait rfl honline.symm (hmove honline.symm rfl rfl rfl rfl rfl)⟩
    · simp only [honline, if_false]
      by_cases hfits : (onlineLine log.length).length ≥ capacity
      · simp only [hfits, if_true]
        exact ⟨_, _, rfl, .failed hfits rfl (hmove rfl rfl rfl rfl rfl rfl)⟩
      · simp only [hfits, if_false]
        refine ⟨_, _, rfl, .online rfl (h.state.resolve_right honline) rfl ?_⟩
        exact ⟨h.initialized, h.role, h.connection, h.atEnd, .inr rfl, le_rfl,
          fun r hr => absurd hr (by simp), fun _ _ => rfl⟩

theorem Server.Sends.streamOnline (h : s.Sends fd log sent) (hcapacity : capacity ≠ 0)
    (hreader : s.replication.aofReader = none) (got : Nat) :
    s.Streams fd capacity log sent
      (KvStore.streamOnline s.disk s.aofOffset capacity got s.replication).1
      (KvStore.streamOnline s.disk s.aofOffset capacity got s.replication).2 := by
  unfold KvStore.streamOnline
  by_cases honline : s.replication.state = .online
  · have hposition := h.offset hreader honline
    rw [if_neg (by simp [honline])]
    simp only [h.atEnd.aofOffset, hposition]
    rw [if_neg (not_lt_of_ge h.sent_le)]
    by_cases hmore : sent < log.length
    · rw [if_neg (by omega)]
      simp only [h.atEnd.open hmore]
      have hrange : sent + (log.length - sent) ≤ log.length := by omega
      obtain ⟨chunk, reader', hread, hpos, hfront, hoffset', hrange'⟩ :=
        @AtEnd.read s capacity sent log ⟨sent, log.length - sent⟩ _ h.atEnd hcapacity rfl hrange
          (Nat.sub_pos_of_lt hmore) got
      simp only [hread, Nat.pos_iff_ne_zero.mp hpos, if_false]
      refine .data hfront (h.move
        { s.replication with replicationOffset := sent, aofReader := some reader' } rfl rfl rfl rfl
        (by omega) ?_ fun hnone => ?_) rfl
      · rintro r ⟨⟩
        exact ⟨hoffset', hrange'⟩
      · cases hnone
    · rw [if_pos (by have := h.sent_le; omega)]
      exact .wait (by have := h.sent_le; omega) rfl h
  · rw [if_pos honline]
    refine .data (List.nil_prefix) ?_ rfl
    rw [List.length_nil, Nat.add_zero]
    exact h

theorem kvsReplicationStream_log (hinit : s.replication.initialized = true)
    (hrole : s.replication.role = .primary) (hcapacity : capacity ≠ 0)
    (hfd : s.replication.snapshotConnectionFd = some fd)
    (hstate : s.replication.state ≠ .fullSync) (got : Nat) (env : RdmaAnswers) :
    kvsReplicationStream fd capacity got env s =
      (streamLog s.disk s.aofOffset capacity got 2 s.replication).map
        fun r => (r.1, { s with replication := r.2 }) := by
  cases hlog : streamLog s.disk s.aofOffset capacity got 2 s.replication with
  | error e =>
    simp [kvsReplicationStream, hinit, hrole, hcapacity, hfd, hstate, hlog, bind, StateT.bind, get,
      getThe, MonadStateOf.get, StateT.get, Except.bind, pure, Except.pure, liftM, monadLift,
      MonadLift.monadLift, StateT.lift, Except.map]
  | ok r =>
    simp [kvsReplicationStream, hinit, hrole, hcapacity, hfd, hstate, hlog, bind, StateT.bind, get,
      getThe, MonadStateOf.get, StateT.get, Except.bind, pure, Except.pure, liftM, monadLift,
      MonadLift.monadLift, StateT.lift, Except.map, set]
    rfl

/-- A poll of the replica's connection. -/
theorem Server.Sends.stream (h : s.Sends fd log sent) (capacity got : Nat) (env : RdmaAnswers) :
    ∃ r m, kvsReplicationStream fd capacity got env s = .ok (r, { s with replication := m }) ∧
      s.Streams fd capacity log sent r m := by
  have hfull : s.replication.state ≠ .fullSync := by
    obtain hstate | hstate := h.state <;> simp [hstate]
  by_cases hcapacity : capacity = 0
  · refine ⟨.failed, s.replication, ?_, .failed (by omega) rfl h⟩
    simp [kvsReplicationStream, hcapacity, bind, StateT.bind, get, getThe, MonadStateOf.get, StateT.get,
      Except.bind, pure, Except.pure]
    rfl
  · have hrun : ∃ r m, streamLog s.disk s.aofOffset capacity got 2 s.replication = .ok (r, m) ∧
        s.Streams fd capacity log sent r m := by
      cases hreader : s.replication.aofReader with
      | none =>
        refine ⟨_, _, ?_, h.streamOnline hcapacity hreader got⟩
        unfold streamLog
        simp only [hreader]
      | some reader =>
        by_cases hleft : reader.remaining = 0
        · exact h.endRange hcapacity hreader hleft got
        · obtain ⟨hoffset, hrange⟩ := h.reader reader hreader
          exact h.readLog hcapacity rfl rfl rfl rfl hreader hoffset hrange
            (Nat.pos_of_ne_zero hleft) ..
    obtain ⟨r, m, hlog, hstreams⟩ := hrun
    refine ⟨r, m, ?_, hstreams⟩
    rw [kvsReplicationStream_log h.initialized h.role hcapacity h.connection hfull, hlog]
    rfl

end

-- ---------------------------------------------------------------------------
-- Runs
-- ---------------------------------------------------------------------------

structure Emission where
  bytes : Bytes
  logEnd : Nat

/-- Polls of the connection `fd`, with what they sent, between appends to the
log, polls of other connections, and whatever touches neither the log nor the
manager. An append that fails behind its write ends the process. -/
inductive StreamRun (fd : Nat) (start : Server) : Server → List Emission → Prop
  | start : StreamRun fd start start []
  | append (h : StreamRun fd start s out) (hrun : kvsAofAppend tokens s = .ok (code, s'))
    (hstays : code ≠ 0 → s'.disk = s.disk ∧ s'.aofWriter = s.aofWriter) : StreamRun fd start s' out
  | elsewhere (h : StreamRun fd start s out) (hmanager : s'.replication = s.replication)
    (hwriter : s'.aofWriter = s.aofWriter)
    (hlog : s'.disk .appendonlyAof = s.disk .appendonlyAof) : StreamRun fd start s' out
  | other (h : StreamRun fd start s out) (hfd : fd' ≠ fd)
    (hrun : kvsReplicationStream fd' capacity got env s = .ok (r, s')) : StreamRun fd start s' out
  | sent (h : StreamRun fd start s out)
    (hrun : kvsReplicationStream fd capacity got env s = .ok (.sent bytes, s')) :
    StreamRun fd start s' (out ++ [⟨bytes, (s.aofFile .appendonlyAof).length⟩])
  | wait (h : StreamRun fd start s out)
    (hrun : kvsReplicationStream fd capacity got env s = .ok (.wait, s')) : StreamRun fd start s' out
  | failed (h : StreamRun fd start s out)
    (hrun : kvsReplicationStream fd capacity got env s = .ok (.failed, s')) :
    StreamRun fd start s' out

/-- What was sent, with the `ONLINE` line taken out: there is none before the
state changes, and one afterwards. It carries the position sent so far, which is
the end of the log at that moment, behind a whole number of the records that
were appended. -/
inductive Carries (origin : Nat) (file : Bytes) (records : List (List Bytes)) :
    ReplicationState → List Emission → Bytes → Prop
  | data : Carries origin file records .catchUp out (out.flatMap (·.bytes))
  | online (hsent : n = origin + (before.flatMap (·.bytes)).length) (hdone : done <+: records)
    (hend : n = file.length + (logOf done).length) :
    Carries origin file records .online (before ++ ⟨onlineLine n, n⟩ :: after)
      ((before ++ after).flatMap (·.bytes))

/-- A stream that started at `origin` when the log was `file`. -/
structure StreamExact (fd origin : Nat) (file : Bytes) (s : Server) (out : List Emission)
    (data : Bytes) : Prop where
  carries : ∃ records, (∀ r ∈ records, Record r) ∧ s.aofFile .appendonlyAof = file ++ logOf records ∧
    Carries origin file records s.replication.state out data
  exact : data <+: (s.aofFile .appendonlyAof).drop origin
  wait : ∀ capacity got env s', kvsReplicationStream fd capacity got env s = .ok (.wait, s') →
    s'.replication.state = .online → data = (s.aofFile .appendonlyAof).drop origin
  succeeds : ∀ capacity got env, (onlineLine (s.aofFile .appendonlyAof).length).length < capacity →
    ∃ r s', kvsReplicationStream fd capacity got env s = .ok (r, s') ∧ r ≠ .failed

/-- The invariant of the runs. -/
structure Streaming (fd origin : Nat) (file : Bytes) (s : Server) (out : List Emission)
    (data : Bytes) (records : List (List Bytes)) : Prop where
  sends : s.Sends fd (file ++ logOf records) (origin + data.length)
  all : ∀ r ∈ records, Record r
  exact : data <+: (file ++ logOf records).drop origin
  carries : Carries origin file records s.replication.state out data

section
variable {s s' : Server} {m : ReplicationManager} {fd capacity got sent origin n : Nat}
  {log file data bytes chunk : Bytes} {out : List Emission} {records : List (List Bytes)}
  {tokens : List Bytes} {state : ReplicationState} {env : RdmaAnswers}

theorem Server.Sends.congr (h : s.Sends fd log sent) (hmanager : s'.replication = s.replication)
    (hend : AtEnd s' .appendonlyAof (log ++ bytes)) : s'.Sends fd (log ++ bytes) sent where
  initialized := by rw [hmanager]; exact h.initialized
  role := by rw [hmanager]; exact h.role
  connection := by rw [hmanager]; exact h.connection
  atEnd := hend
  state := by rw [hmanager]; exact h.state
  sent_le := by
    have hle := h.sent_le
    rw [List.length_append]
    omega
  reader r hr := by
    rw [hmanager] at hr
    obtain ⟨hoffset, hrange⟩ := h.reader r hr
    rw [List.length_append]
    exact ⟨hoffset, by omega⟩
  offset := by rw [hmanager]; exact h.offset

theorem kvsAofAppend_replication (tokens : List Bytes) (s : Server) :
    Triple (kvsAofAppend tokens) s (fun _ s' => s'.replication = s.replication) Never := by
  refine (kvsAofAppend_cases tokens s).weaken fun code s' happend => ?_
  cases happend with
  | done => exact append_replication s tokens
  | nothing | written | unsynced => rfl

theorem Carries.grow (h : Carries origin file records state out data) (tokens : List Bytes) :
    Carries origin file (records ++ [tokens]) state out data := by
  cases h with
  | data => exact .data
  | online hsent hdone hend => exact .online hsent (hdone.trans (List.prefix_append ..)) hend

theorem Carries.send (h : Carries origin file records state out data) (bytes : Bytes) (n : Nat) :
    Carries origin file records state (out ++ [⟨bytes, n⟩]) (data ++ bytes) := by
  cases h with
  | data =>
    have hdata := @Carries.data origin file records (out ++ [⟨bytes, n⟩])
    rw [List.flatMap_append, List.flatMap_singleton] at hdata
    exact hdata
  | @online n' done before after hsent hdone hend =>
    have honline := @Carries.online origin file records n' done before (after ++ [⟨bytes, n⟩]) hsent
      hdone hend
    rw [← List.append_assoc before, List.flatMap_append, List.flatMap_singleton] at honline
    rw [List.append_assoc before, List.cons_append]
    exact honline

theorem prefix_drop (h : data <+: log.drop origin)
    (hchunk : chunk <+: log.drop (origin + data.length)) : data ++ chunk <+: log.drop origin := by
  obtain ⟨rest, hrest⟩ := h
  rw [← List.drop_drop, ← hrest, List.drop_left] at hchunk
  rw [← hrest]
  exact (List.prefix_append_right_inj data).mpr hchunk

theorem Streaming.append (h : Streaming fd origin file s out data records)
    (hrun : kvsAofAppend tokens s = .ok (code, s'))
    (hstays : code ≠ 0 → s'.disk = s.disk ∧ s'.aofWriter = s.aofWriter) :
    ∃ records', Streaming fd origin file s' out data records' := by
  have hmanager := (kvsAofAppend_replication tokens s).post hrun
  by_cases hcode : code = 0
  · obtain ⟨hrecord, hend⟩ := (Replaying.kvsAofAppend_atEnd tokens h.sends.atEnd).post hrun hcode
    refine ⟨records ++ [tokens], ?_⟩
    have hlog : file ++ logOf (records ++ [tokens]) = file ++ logOf records ++ encodeFields tokens := by
      simp [Replaying.logOf]
    have hle : origin ≤ (file ++ logOf records).length := by
      have := h.sends.sent_le
      omega
    refine ⟨?_, ?_, ?_, ?_⟩
    · rw [hlog]
      exact h.sends.congr hmanager hend
    · intro r hr
      obtain hr | hr := List.mem_append.mp hr
      · exact h.all r hr
      · rw [List.mem_singleton.mp hr]
        exact hrecord
    · rw [hlog, List.drop_append_of_le_length hle]
      exact h.exact.trans (List.prefix_append ..)
    · rw [hmanager]
      exact h.carries.grow tokens
  · obtain ⟨hdisk, hwriter⟩ := hstays hcode
    have hend : AtEnd s' .appendonlyAof (file ++ logOf records ++ []) := by
      rw [List.append_nil, AtEnd, hwriter, Server.aofFile, hdisk]
      exact h.sends.atEnd
    have hsends := h.sends.congr hmanager hend
    rw [List.append_nil] at hsends
    exact ⟨records, hsends, h.all, h.exact, hmanager ▸ h.carries⟩

theorem Streaming.poll_sent (h : Streaming fd origin file s out data records)
    (hrun : kvsReplicationStream fd capacity got env s = .ok (.sent bytes, s')) :
    ∃ data', Streaming fd origin file s' (out ++ [⟨bytes, (s.aofFile .appendonlyAof).length⟩]) data'
      records := by
  obtain ⟨r, m, hpoll, hstreams⟩ := h.sends.stream capacity got env
  rw [hpoll] at hrun
  obtain ⟨rfl, rfl⟩ := Prod.mk.inj (Except.ok.inj hrun)
  cases hstreams with
  | data hchunk hsends hstate =>
    refine ⟨data ++ bytes, ?_, h.all, prefix_drop h.exact hchunk, ?_⟩
    · rw [List.length_append, ← Nat.add_assoc]
      exact hsends
    · change Carries origin file records m.state _ _
      rw [hstate]
      exact h.carries.send bytes _
  | online hend hcatchUp honline hsends =>
    have hcarries := h.carries
    rw [hcatchUp] at hcarries
    cases hcarries with
    | data =>
      refine ⟨out.flatMap (·.bytes), hsends, h.all, h.exact, ?_⟩
      change Carries origin file records m.state _ _
      have hline := @Carries.online origin file records (origin + (out.flatMap (·.bytes)).length)
        records out [] rfl List.prefix_rfl (by rw [hend, List.length_append])
      have hlog : s.aofFile .appendonlyAof = file ++ logOf records := h.sends.atEnd.2
      rw [List.append_nil] at hline
      rw [honline, hlog, ← hend]
      exact hline

theorem Streaming.poll_unsent (h : Streaming fd origin file s out data records)
    (hrun : kvsReplicationStream fd capacity got env s = .ok (r, s'))
    (hr : r = .wait ∨ r = .failed) : Streaming fd origin file s' out data records := by
  obtain ⟨r', m, hpoll, hstreams⟩ := h.sends.stream capacity got env
  rw [hpoll] at hrun
  obtain ⟨rfl, rfl⟩ := Prod.mk.inj (Except.ok.inj hrun)
  have hkeep : ∀ {m : ReplicationManager}, m.state = s.replication.state →
      Server.Sends { s with replication := m } fd (file ++ logOf records) (origin + data.length) →
      Streaming fd origin file { s with replication := m } out data records := fun hstate hsends =>
    ⟨hsends, h.all, h.exact, by
      rw [hstate]
      exact h.carries⟩
  cases hstreams with
  | data => simp at hr
  | online => simp at hr
  | wait _ hstate hsends => exact hkeep hstate hsends
  | failed _ hstate hsends => exact hkeep hstate hsends

/-- The invariant along a run. -/
theorem StreamRun.streaming {start : Server} (hstart : Streaming fd origin file start [] [] [])
    (h : StreamRun fd start s out) : ∃ data records, Streaming fd origin file s out data records := by
  induction h with
  | start => exact ⟨[], [], hstart⟩
  | append _ hrun hstays ih =>
    obtain ⟨data, records, h⟩ := ih
    exact ⟨data, h.append hrun hstays⟩
  | @elsewhere _ _ s' _ hmanager hwriter hlog ih =>
    obtain ⟨data, records, h⟩ := ih
    have hend : AtEnd s' .appendonlyAof (file ++ logOf records ++ []) := by
      rw [List.append_nil]
      refine ⟨hwriter.trans h.sends.atEnd.1, ?_⟩
      rw [Server.aofFile, hlog]
      exact h.sends.atEnd.2
    have hsends := h.sends.congr hmanager hend
    rw [List.append_nil] at hsends
    exact ⟨data, records, hsends, h.all, h.exact, hmanager ▸ h.carries⟩
  | other _ hfd hrun ih =>
    obtain ⟨data, records, h⟩ := ih
    rw [kvsReplicationStream_foreign (by
      rw [h.sends.connection]
      exact fun heq => hfd (Option.some.inj heq).symm)] at hrun
    obtain ⟨-, rfl⟩ := Prod.mk.inj (Except.ok.inj hrun)
    exact ⟨data, records, h⟩
  | sent _ hrun ih =>
    obtain ⟨data, records, h⟩ := ih
    obtain ⟨data', h'⟩ := h.poll_sent hrun
    exact ⟨data', records, h'⟩
  | wait _ hrun ih =>
    obtain ⟨data, records, h⟩ := ih
    exact ⟨data, records, h.poll_unsent hrun (.inl rfl)⟩
  | failed _ hrun ih =>
    obtain ⟨data, records, h⟩ := ih
    exact ⟨data, records, h.poll_unsent hrun (.inr rfl)⟩

theorem Streaming.streamExact (h : Streaming fd origin file s out data records) :
    StreamExact fd origin file s out data := by
  have hlog : s.aofFile .appendonlyAof = file ++ logOf records := h.sends.atEnd.2
  refine ⟨⟨records, h.all, hlog, h.carries⟩, hlog ▸ h.exact, fun capacity got env s' hrun _ => ?_,
    fun capacity got env hroom => ?_⟩
  · obtain ⟨r, m, hpoll, hstreams⟩ := h.sends.stream capacity got env
    rw [hpoll] at hrun
    obtain ⟨rfl, -⟩ := Prod.mk.inj (Except.ok.inj hrun)
    cases hstreams with
    | wait hend =>
      rw [hlog]
      refine h.exact.eq_of_length ?_
      rw [List.length_drop]
      omega
  · obtain ⟨r, m, hpoll, hstreams⟩ := h.sends.stream capacity got env
    refine ⟨r, _, hpoll, ?_⟩
    rintro rfl
    cases hstreams with
    | failed hshort =>
      rw [hlog] at hroom
      omega

theorem kvsReplicationPrimaryStartCatchUp_sends
    (hinit : s.replication.initialized = true) (hrole : s.replication.role = .primary)
    (hfd : s.replication.snapshotConnectionFd = some fd) (hlog : AtEnd s .appendonlyAof file)
    (hstart : kvsReplicationPrimaryStartCatchUp s.disk s.aofOffset s.replication = (true, m)) :
    Streaming fd s.replication.replicationOffset file { s with replication := m } [] [] [] := by
  unfold kvsReplicationPrimaryStartCatchUp at hstart
  simp only [hlog.aofOffset] at hstart
  by_cases hbehind : file.length < s.replication.replicationOffset
  · rw [if_pos hbehind] at hstart
    cases hstart
  · rw [if_neg hbehind] at hstart
    cases hopen : kvsAofReaderOpen s.disk .appendonlyAof s.replication.replicationOffset file.length with
    | none =>
      rw [hopen] at hstart
      cases hstart
    | some reader =>
      rw [hopen] at hstart
      obtain rfl := (Prod.mk.inj hstart).2
      have hreader : reader = ⟨s.replication.replicationOffset,
          file.length - s.replication.replicationOffset⟩ := by
        unfold kvsAofReaderOpen at hopen
        rw [if_neg hbehind] at hopen
        cases hdisk : s.disk .appendonlyAof with
        | none =>
          rw [hdisk] at hopen
          cases hopen
        | some bytes =>
          simp only [hdisk] at hopen
          split at hopen
          · cases hopen
          · exact (Option.some.inj hopen).symm
      have hfile : file ++ logOf [] = file := List.append_nil file
      refine ⟨⟨hinit, hrole, hfd, ?_, .inl rfl, ?_, ?_, fun hnone => by cases hnone⟩, ?_,
        List.nil_prefix, .data⟩
      · rw [hfile]
        exact hlog
      · rw [hfile, List.length_nil]
        omega
      · rintro r ⟨⟩
        rw [hfile, hreader]
        exact ⟨rfl, by simp only [List.length_nil]; omega⟩
      · exact fun r hr => absurd hr List.not_mem_nil

/-- From the start of the catch-up on, a primary streams its log byte for byte. -/
theorem stream_exact (hinit : s.replication.initialized = true)
    (hrole : s.replication.role = .primary) (hfd : s.replication.snapshotConnectionFd = some fd)
    (hlog : AtEnd s .appendonlyAof file)
    (hstart : kvsReplicationPrimaryStartCatchUp s.disk s.aofOffset s.replication = (true, m))
    (h : StreamRun fd { s with replication := m } s' out) :
    ∃ data, StreamExact fd s.replication.replicationOffset file s' out data := by
  obtain ⟨data, records, hstreaming⟩ :=
    h.streaming (kvsReplicationPrimaryStartCatchUp_sends hinit hrole hfd hlog hstart)
  exact ⟨data, hstreaming.streamExact⟩

/-- A short read, an append, what was left of the range, the record behind it,
and the poll that finds the replica up to date. -/
theorem stream_exact_appended : ∃ (s' : Server) (out : List Emission) (data : Bytes),
    out.map (·.bytes) = [(encodeFields [ascii "SET", [107], [118]]).take 10,
      (encodeFields [ascii "SET", [107], [118]]).drop 10, encodeFields [ascii "DEL", [107]], onlineLine 47] ∧
    StreamExact 7 0 (encodeFields [ascii "SET", [107], [118]]) s' out data := by
  obtain ⟨_, _, -, -, E, -, -⟩ := (initKvengine_spec (Runtime.not_canFail_start fun _ => false)).run
  let file := encodeFields [ascii "SET", [107], [118]]
  let record := encodeFields [ascii "DEL", [107]]
  let manager : ReplicationManager := { ReplicationManager.start with
    initialized := true, role := .primary, snapshotConnectionFd := some 7, state := .catchUp }
  let s : Server := ⟨.start (fun _ => false) fun _ => false, E, fun _ => some file, .start fun _ => none,
    some ⟨.appendonlyAof, 27, true⟩, .primary, .legacyHybrid, { manager with state := .fullSync }⟩
  let env : RdmaAnswers := ⟨false, true, true, some none, true, true, true, true, .done, true, true,
    true, some none⟩
  have hstart : kvsReplicationPrimaryStartCatchUp s.disk s.aofOffset s.replication =
      (true, { manager with aofReader := some ⟨0, 27⟩ }) := rfl
  have hshort : kvsReplicationStream 7 64 10 env
      { s with replication := { manager with aofReader := some ⟨0, 27⟩ } } =
      .ok (.sent (file.take 10), { s with replication := { manager with aofReader := some ⟨10, 17⟩ } }) := rfl
  let t : Server := { s with
    disk := s.disk.write .appendonlyAof (file ++ record)
    io := ⟨fun _ => none, [.write .appendonlyAof 27 record, .sync .appendonlyAof]⟩
    aofWriter := some ⟨.appendonlyAof, 47, true⟩ }
  have happend : ∃ rt', kvsAofAppend [ascii "DEL", [107]]
      { s with replication := { manager with aofReader := some ⟨10, 17⟩ } } =
      .ok (0, { t with rt := rt', replication := { manager with aofReader := some ⟨10, 17⟩ } }) :=
    ⟨_, rfl⟩
  obtain ⟨rt', happend⟩ := happend
  have hrest : kvsReplicationStream 7 64 64 env
      { t with rt := rt', replication := { manager with aofReader := some ⟨10, 17⟩ } } =
      .ok (.sent (file.drop 10),
        { t with rt := rt', replication := { manager with aofReader := some ⟨27, 0⟩ } }) := rfl
  have hrecord : kvsReplicationStream 7 64 64 env
      { t with rt := rt', replication := { manager with aofReader := some ⟨27, 0⟩ } } =
      .ok (.sent record,
        { t with rt := rt', replication := { manager with aofReader := some ⟨47, 0⟩ } }) := rfl
  have honline : kvsReplicationStream 7 64 64 env
      { t with rt := rt', replication := { manager with aofReader := some ⟨47, 0⟩ } } =
      .ok (.sent (onlineLine 47),
        { t with rt := rt', replication := { manager with replicationOffset := 47, state := .online } }) := rfl
  have hrun := ((((StreamRun.start.sent hshort).append happend fun h => absurd rfl h).sent hrest).sent
    hrecord).sent honline
  obtain ⟨data, hexact⟩ := stream_exact rfl rfl rfl ⟨rfl, rfl⟩ hstart hrun
  exact ⟨_, _, data, rfl, hexact⟩

end

end KvStore
