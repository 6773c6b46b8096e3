import KvStore.Lib.StopAndWait
import KvStore.Replication.Isolation
import KvStore.Replication.Messages
import KvStore.Server.Recovery

/-!
# The primary's side of a full synchronisation

A full synchronisation is stop and wait: the chunks are the pieces, `READY` and
the acknowledgements the answers. `Source` says where the manager of the primary
stands in it, and every step of the primary that does not fail is a step of the
exchange.
-/

namespace KvStore

open Lib

/-- A full synchronisation: the file that is sent, what it holds, and the name of
this round. -/
structure FullSync where
  file : Bytes
  id : Bytes
  offset : Nat
  maps : Maps
  holds : SnapshotHolds (some file) maps (some ⟨true, offset⟩)
  sized : maps.Sized
  isId : IsId id
  fits : file.length ≤ offMax

def RdmaSync.messages (sync : RdmaSync) : List Bytes := (sync.connection.map (·.sent)).getD []

def syncAnswer (id : Bytes) (x : Exchange UInt8) (n : Nat) : Bytes :=
  if n = 0 then readyMessage id else ackMessage (x.upTo n)

def RdmaAnswers.Disconnects (env : RdmaAnswers) : Prop :=
  ∃ event, env.cmEvent = some (some event) ∧ event.event = .disconnected

def RdmaAnswers.Receives (env : RdmaAnswers) : Prop :=
  ∃ data, env.completion = some (some (.recv data))

/-- The manager of a primary that has come as far as the exchange says. A receive
is always posted, and the two flags for a send that is under way agree. -/
structure Source (m : ReplicationManager) (fd : Nat) (f : FullSync) (x : Exchange UInt8) : Prop where
  initialized : m.initialized = true
  role : m.role = .primary
  owner : m.snapshotConnectionFd = some fd
  state : m.state = .fullSync
  fullSyncId : m.fullSyncId = f.id
  offset : m.replicationOffset = f.offset
  size : m.snapshotFileSize = f.file.length
  cleanup : m.rdmaCleanupConnection = none
  messages : m.rdmaSync.messages = x.pieces
  bounded : ∀ piece ∈ x.pieces, piece.length ≤ rdmaBufferCapacity
  snapshotBytes : m.rdmaSync.snapshotBytes = x.sent
  acknowledgedBytes : m.rdmaSync.acknowledgedBytes = x.confirmed
  connection : ∀ c ∈ m.rdmaSync.connection, c.prepared = true ∧ c.recvPending = true ∧
    c.sendPending = m.rdmaSync.sendPending ∧ c.pendingCmEvent = false
  established : m.rdmaSync.established = true → m.rdmaSync.connection.isSome
  accepted : 0 < x.answers → m.rdmaSync.connection.isSome
  pending : m.rdmaSync.sendPending = true → x.pieces ≠ []
  reader : m.rdmaSync.disconnectPending = false →
    m.snapshotReader = some ⟨f.file.drop x.sent, (f.file.drop x.sent).length⟩
  started : 0 < x.heard → x.pieces ≠ [] ∧ m.rdmaSync.established = true
  finished : m.rdmaSync.disconnectPending = true →
    m.snapshotReader = none ∧ x.confirmed = f.file.length ∧ m.rdmaSync.sendPending = false

/-- What the libraries answer when every request is granted. -/
structure RdmaAnswers.Grants (env : RdmaAnswers) : Prop where
  expired : env.expired = false
  ownerMemory : env.ownerMemory = true
  chunkMemory : env.chunkMemory = true
  acked : env.acked = true
  prepared : env.prepared = true
  submitted : env.submitted = true
  rejected : env.rejected = true
  teardown : env.teardown = .done
  postedSend : env.postedSend = true
  postedRecv : env.postedRecv = true
  disconnected : env.disconnected = true

/-- What a primary with this connection can be told: nothing, that a replica asks
for a connection, or that its own is there. -/
inductive RdmaAnswers.TellsPrimary (env : RdmaAnswers) (connection : Option RdmaConnection) : Prop
  | nothing (hcm : env.cmEvent = some none)
  | connectRequest (hcm : env.cmEvent = some (some ⟨.connectRequest, some cmId, true, true⟩))
  | established (hcm : env.cmEvent = some (some ⟨.established, c.cmId, toListener, true⟩))
    (hc : connection = some c)

/-- The next completion, where `next` is the next message of the other side:
none, one of a send that is under way, or that message. -/
def RdmaAnswers.Completes (env : RdmaAnswers) (sendPending : Bool) (next : Option Bytes) : Prop :=
  env.completion = some none ∨ env.completion = some (some .send) ∧ sendPending = true ∨
    ∃ data, env.completion = some (some (.recv data)) ∧ next = some data

def completionStep (env : RdmaAnswers) (got : Nat) (m : ReplicationManager) :
    Streamed × ReplicationManager :=
  match m.rdmaSync.connection.bind (·.pollCompletion env) with
  | none => (.failed, m)
  | some none => (.wait, m)
  | some (some (.send, c)) =>
    (.wait, { m with rdmaSync := { m.rdmaSync with connection := some c, sendPending := false } })
  | some (some (.recv data, c)) =>
    primaryReceive env got data { m with rdmaSync := { m.rdmaSync with connection := some c } }
  | some (some (.invalid, _)) => (.failed, m)

def ListenerPoll.Keeps (c : RdmaConnection) (poll : ListenerPoll) : Prop :=
  ∀ r ∈ poll.result, r ≠ some .disconnected ∧ ∃ deadline, poll.connection = some { c with deadline }

def ListenerPoll.Accepts (poll : ListenerPoll) : Prop :=
  ∀ r ∈ poll.result, r ≠ some .disconnected ∧ r ≠ some .established ∧
    ∀ c ∈ poll.connection, c.prepared = true ∧ c.recvPending = true ∧ c.sendPending = false ∧
      c.pendingCmEvent = false ∧ c.sent = []

section
variable {m m' : ReplicationManager} {fd got : Nat} {id data : Bytes} {f : FullSync} {x y : Exchange UInt8}
  {env : RdmaAnswers} {c : RdmaConnection} {disk : Disk} {latest : Option Nat}
  {s s' s₁ : Server} {capacity : Nat} {r : Streamed} {connection : Option RdmaConnection}

theorem SnapshotHolds.file_pos {file : Bytes} {M : Maps} {cp : Option SnapshotCheckpoint}
    (h : SnapshotHolds (some file) M cp) : 0 < file.length := by
  cases h with
  | file hfile _ _ =>
    obtain ⟨-, -, head, -, hbytes⟩ := hfile
    rw [hbytes, List.length_append, length_encodeU32Be]
    exact Nat.succ_pos _

theorem FullSync.file_pos (f : FullSync) : 0 < f.file.length := f.holds.file_pos

theorem Source.congr (h : Source m fd f x) (hpieces : y.pieces = x.pieces)
    (hheard : y.heard = x.heard) (haccepted : 0 < y.answers → m.rdmaSync.connection.isSome) :
    Source m fd f y := by
  have hsent : y.sent = x.sent := by
    unfold Exchange.sent
    rw [hpieces]
  have hconfirmed : y.confirmed = x.confirmed := by
    unfold Exchange.confirmed Exchange.upTo
    rw [hpieces, hheard]
  exact { h with
    messages := by rw [hpieces, h.messages]
    bounded := by rw [hpieces]; exact h.bounded
    snapshotBytes := by rw [hsent, h.snapshotBytes]
    acknowledgedBytes := by rw [hconfirmed, h.acknowledgedBytes]
    accepted := haccepted
    pending := by rw [hpieces]; exact h.pending
    reader := by rw [hsent]; exact h.reader
    started := by rw [hpieces, hheard]; exact h.started
    finished := by rw [hconfirmed]; exact h.finished }

theorem Source.connected (h : Source m fd f x) (hvalid : x.Valid f.file)
    (hended : m.rdmaSync.disconnectPending = true) : m.rdmaSync.connection.isSome := by
  obtain ⟨-, hconfirmed, -⟩ := h.finished hended
  apply h.accepted
  apply Nat.lt_of_lt_of_le _ hvalid.heard_le
  apply Nat.pos_of_ne_zero
  intro hzero
  have hpos := f.file_pos
  have hnone : x.confirmed = 0 := by
    unfold Exchange.confirmed
    rw [hzero]
    rfl
  omega

-- ---------------------------------------------------------------------------
-- Events of the connection
-- ---------------------------------------------------------------------------

theorem separateOwner_keeps (env : RdmaAnswers) (result : Option (Option RdmaEventType))
    (owner : RdmaConnection) (hresult : ∀ r ∈ result, r = none) :
    (separateOwner env result (some c) owner).Keeps c := by
  unfold separateOwner
  split
  · exact nofun
  · split
    · intro r hr
      rw [hresult r hr]
      exact ⟨nofun, c.deadline, rfl⟩
    · exact nofun

theorem handleEvent_keeps {event : CmEvent} (hevent : event.event ≠ .disconnected) :
    ∀ r ∈ (c.handleEvent env false event).1, r ≠ some .disconnected ∧
      ∃ deadline, (c.handleEvent env false event).2 = { c with deadline } := by
  unfold RdmaConnection.handleEvent
  split
  · exact nofun
  · cases htype : event.event with
    | disconnected => exact absurd htype hevent
    | established =>
      rintro r ⟨⟩
      exact ⟨nofun, false, rfl⟩
    | timewaitExit =>
      rintro r ⟨⟩
      exact ⟨nofun, c.deadline, rfl⟩
    | addrResolved | routeResolved | connectRequest | other => simp

theorem kvsRdmaListenerPoll_keeps (hevent : ¬env.Disconnects) :
    (kvsRdmaListenerPoll env (some c)).Keeps c := by
  unfold kvsRdmaListenerPoll
  split
  · exact nofun
  · split
    · exact nofun
    · rintro r ⟨⟩
      exact ⟨nofun, c.deadline, rfl⟩
    · rename_i event hcm
      have hother : event.event ≠ .disconnected := fun h => hevent ⟨event, hcm, h⟩
      split
      · -- a second request is turned away
        apply separateOwner_keeps
        intro r hr
        split at hr
        · exact (Option.some.inj hr).symm
        · cases hr
      · dsimp only
        split
        · intro r hr
          unfold ownEvent at hr ⊢
          by_cases hacked : env.acked = true
          · rw [if_pos hacked] at hr ⊢
            obtain ⟨hne, deadline, hc⟩ := handleEvent_keeps hother r hr
            exact ⟨hne, deadline, congrArg some hc⟩
          · rw [if_neg hacked] at hr
            cases hr
        · exact separateOwner_keeps env none _ nofun

theorem connectRequest_accepts (id : Option Nat) (event : CmEvent) :
    ∀ r ∈ (RdmaConnection.connectRequest { RdmaConnection.blank with cmId := id } env event).1,
      r = some .accepting ∧
      (RdmaConnection.connectRequest { RdmaConnection.blank with cmId := id } env event).2 =
        { RdmaConnection.blank with cmId := id, prepared := true, recvPending := true } := by
  unfold RdmaConnection.connectRequest
  split
  · exact nofun
  · cases hprepare : RdmaConnection.prepare { RdmaConnection.blank with cmId := id } env with
    | none => exact nofun
    | some c =>
      unfold RdmaConnection.prepare at hprepare
      split at hprepare
      · cases hprepare
      · obtain rfl := Option.some.inj hprepare
        intro r hr
        dsimp only at hr
        split at hr
        · exact ⟨(Option.some.inj hr).symm, rfl⟩
        · cases hr

theorem kvsRdmaListenerPoll_accepts : (kvsRdmaListenerPoll env none).Accepts := by
  have hseparate : ∀ owner, (separateOwner env none none owner).Accepts := by
    intro owner
    unfold separateOwner
    split
    · exact nofun
    · split <;> exact nofun
  unfold kvsRdmaListenerPoll
  split
  · exact nofun
  · split
    · exact nofun
    · rintro r ⟨⟩
      exact ⟨nofun, nofun, nofun⟩
    · rename_i event hcm
      split
      · dsimp only
        unfold ownEvent
        split
        · intro r hr
          obtain ⟨rfl, hc⟩ := connectRequest_accepts event.id event r hr
          refine ⟨nofun, nofun, ?_⟩
          rintro c ⟨⟩
          rw [hc]
          exact ⟨rfl, rfl, rfl, rfl, rfl⟩
        · exact nofun
      · exact hseparate _

theorem Source.event (h : Source m fd f x) (hevent : ¬env.Disconnects)
    (hrun : fullSyncEvent disk latest env m = (true, m')) : Source m' fd f x := by
  have hcleanup : ¬m.rdmaCleanupConnection.isSome := by simp [h.cleanup]
  have hkept : ∀ r connection, (kvsRdmaListenerPoll env m.rdmaSync.connection).result = some r →
      (kvsRdmaListenerPoll env m.rdmaSync.connection).connection = connection →
      r ≠ some .disconnected ∧ (r = some .established → connection.isSome) ∧
      (m.rdmaSync.connection.isSome → connection.isSome) ∧
      (connection.map (·.sent)).getD [] = m.rdmaSync.messages ∧
      ∀ c ∈ connection, c.prepared = true ∧ c.recvPending = true ∧
        c.sendPending = m.rdmaSync.sendPending ∧ c.pendingCmEvent = false := by
    rintro r _ hr rfl
    cases hc : m.rdmaSync.connection with
    | some c =>
      rw [hc] at hr
      obtain ⟨hne, deadline, hconnection⟩ := kvsRdmaListenerPoll_keeps hevent r hr
      rw [hconnection]
      refine ⟨hne, fun _ => rfl, fun _ => rfl, ?_, ?_⟩
      · unfold RdmaSync.messages
        rw [hc]
        rfl
      · rintro _ ⟨⟩
        exact h.connection c hc
    | none =>
      rw [hc] at hr
      obtain ⟨hne, hnot, haccepts⟩ := kvsRdmaListenerPoll_accepts r hr
      have hmessages : m.rdmaSync.messages = [] := by
        unfold RdmaSync.messages
        rw [hc]
        rfl
      have hidle : m.rdmaSync.sendPending = false := by
        rw [← Bool.not_eq_true]
        intro hpending
        exact h.pending hpending (h.messages.symm.trans hmessages)
      refine ⟨hne, fun heq => absurd heq hnot, nofun, ?_, fun c hc => ?_⟩
      · rw [hmessages]
        cases hnew : (kvsRdmaListenerPoll env none).connection with
        | none => rfl
        | some c => exact (haccepts c hnew).2.2.2.2
      · obtain ⟨hprepared, hrecv, hsend, hcm, -⟩ := haccepts c hc
        exact ⟨hprepared, hrecv, hsend.trans hidle.symm, hcm⟩
  have hmove : ∀ {connection : Option RdmaConnection} {established : Bool},
      (connection.map (·.sent)).getD [] = m.rdmaSync.messages →
      (m.rdmaSync.connection.isSome → connection.isSome) → (established = true → connection.isSome) →
      (m.rdmaSync.established = true → established = true) →
      (∀ c ∈ connection, c.prepared = true ∧ c.recvPending = true ∧
        c.sendPending = m.rdmaSync.sendPending ∧ c.pendingCmEvent = false) →
      Source { m with rdmaSync := { m.rdmaSync with connection, established } } fd f x := by
    intro connection established hmessages hstays hestablished hlonger hconnection
    exact { h with
      messages := hmessages.trans h.messages, connection := hconnection, established := hestablished
      accepted := fun hpos => hstays (h.accepted hpos)
      started := fun hpos => ⟨(h.started hpos).1, hlonger (h.started hpos).2⟩ }
  unfold fullSyncEvent at hrun
  rw [if_neg hcleanup] at hrun
  dsimp only at hrun
  cases hpoll : (kvsRdmaListenerPoll env m.rdmaSync.connection).result with
  | none => simp [hpoll] at hrun
  | some r =>
    obtain ⟨hne, hisSome, hstays, hmessages, hconnection⟩ := hkept r _ hpoll rfl
    have hquiet : ∀ {m₁ : ReplicationManager}, m₁ = { m with rdmaSync := { m.rdmaSync with
        connection := (kvsRdmaListenerPoll env m.rdmaSync.connection).connection } } →
        Source m₁ fd f x := by
      rintro _ rfl
      exact hmove hmessages hstays (fun hset => hstays (h.established hset)) (fun hset => hset) hconnection
    rw [hpoll] at hrun
    cases r with
    | none => exact hquiet (Prod.mk.inj hrun).2.symm
    | some type =>
      cases type with
      | disconnected => exact absurd rfl hne
      | accepting => exact hquiet (Prod.mk.inj hrun).2.symm
      | established =>
        obtain rfl := (Prod.mk.inj hrun).2
        exact hmove hmessages hstays (fun _ => hisSome rfl) (fun _ => rfl) hconnection

-- ---------------------------------------------------------------------------
-- A chunk
-- ---------------------------------------------------------------------------

theorem kvsSnapshotReaderRead_left (left : Bytes) (got : Nat) (hleft : left ≠ []) :
    ∃ chunk, chunk ≠ [] ∧ chunk.length ≤ rdmaBufferCapacity ∧ chunk <+: left ∧
      kvsSnapshotReaderRead ⟨left, left.length⟩ rdmaBufferCapacity got =
        some (chunk, ⟨left.drop chunk.length, (left.drop chunk.length).length⟩) := by
  have hpos := List.length_pos_iff.mpr hleft
  have hcapacity : 0 < rdmaBufferCapacity := by decide
  generalize hchunk : (left.take (min rdmaBufferCapacity left.length)).take (max got 1) = chunk
  have hlength : chunk.length = min (max got 1) (min rdmaBufferCapacity left.length) := by
    rw [← hchunk]
    simp only [List.length_take]
    omega
  have hne : chunk.length ≠ 0 := by omega
  refine ⟨chunk, fun hnil => hne (by rw [hnil]; rfl), by omega, ?_, ?_⟩
  · rw [← hchunk]
    exact (List.take_prefix ..).trans (List.take_prefix ..)
  · unfold kvsSnapshotReaderRead
    rw [if_neg (by decide), if_neg (by simp only; omega)]
    simp only [hchunk, hne, if_false, List.length_drop]

theorem Source.sendChunk (h : Source m fd f x) (hvalid : x.Valid f.file)
    (hconfirmed : x.confirmed = x.sent)
    (hopen : m.rdmaSync.disconnectPending = false) (hestablished : m.rdmaSync.established = true)
    (hidle : m.rdmaSync.sendPending = false) (hc : m.rdmaSync.connection = some c)
    (hleft : f.file.drop x.sent ≠ []) (env : RdmaAnswers) (got : Nat) :
    ∃ chunk, chunk ≠ [] ∧ x.pieces.flatten ++ chunk <+: f.file ∧
      (env.chunkMemory ∧ env.postedSend → (sendSnapshotChunk env got m).1 = .wait ∧
        Source (sendSnapshotChunk env got m).2 fd f
          { x with pieces := x.pieces ++ [chunk], heard := x.pieces.length + 1 }) ∧
      (¬(env.chunkMemory ∧ env.postedSend) → (sendSnapshotChunk env got m).1 = .failed) := by
  obtain ⟨chunk, hne, hcapacity, hprefix, hread⟩ := kvsSnapshotReaderRead_left _ got hleft
  have hpos := List.length_pos_iff.mpr hne
  have hreader := h.reader hopen
  have hflatten : x.pieces.flatten ++ chunk <+: f.file := by
    rw [hvalid.sent_take]
    conv_rhs => rw [← List.take_append_drop x.sent f.file]
    exact (List.prefix_append_right_inj _).mpr hprefix
  obtain ⟨hprepared, hrecv, hsend, hcm⟩ := h.connection c hc
  rw [hidle] at hsend
  have hbind : m.snapshotReader.bind (kvsSnapshotReaderRead · rdmaBufferCapacity got) =
      some (chunk, ⟨(f.file.drop x.sent).drop chunk.length,
        ((f.file.drop x.sent).drop chunk.length).length⟩) := by
    rw [hreader]
    exact hread
  have hnotPending : ¬m.rdmaSync.sendPending = true := by simp [hidle]
  refine ⟨chunk, hne, hflatten, ?_, ?_⟩
  · rintro ⟨hmemory, hposted⟩
    have hpost : c.send env chunk = some { c with sendPending := true, sent := c.sent ++ [chunk] } := by
      unfold RdmaConnection.send
      rw [if_neg]
      simp only [hprepared, hsend, hposted, not_true_eq_false, Bool.false_eq_true, or_false, false_or]
      omega
    have hrun : sendSnapshotChunk env got m = (.wait, { m with
        snapshotReader := some ⟨(f.file.drop x.sent).drop chunk.length,
          ((f.file.drop x.sent).drop chunk.length).length⟩
        rdmaSync := { m.rdmaSync with
          connection := some { c with sendPending := true, sent := c.sent ++ [chunk] }
          sendPending := true
          snapshotBytes := m.rdmaSync.snapshotBytes + chunk.length } }) := by
      unfold sendSnapshotChunk
      rw [if_neg hnotPending]
      simp only [hbind, hc, Option.bind_some, Nat.pos_iff_ne_zero.mp hpos, if_false, hmemory, hpost,
        not_true_eq_false]
    rw [hrun]
    refine ⟨rfl, ?_⟩
    have hmessages : c.sent = x.pieces := by
      have hmessages := h.messages
      unfold RdmaSync.messages at hmessages
      rw [hc] at hmessages
      exact hmessages
    have hsent : Exchange.sent { x with pieces := x.pieces ++ [chunk], heard := x.pieces.length + 1 } =
        x.sent + chunk.length := x.sent_append chunk
    refine { h with
      messages := ?_, bounded := ?_, snapshotBytes := ?_, acknowledgedBytes := ?_, connection := ?_
      established := fun _ => rfl, accepted := fun _ => rfl, pending := fun _ => by simp
      reader := fun _ => ?_, started := fun _ => ⟨by simp, hestablished⟩, finished := fun hdone => ?_ }
    · simp [RdmaSync.messages, hmessages]
    · intro piece hpiece
      obtain hpiece | hpiece := List.mem_append.mp hpiece
      · exact h.bounded piece hpiece
      · rw [List.mem_singleton.mp hpiece]
        exact hcapacity
    · rw [hsent, ← h.snapshotBytes]
    · have hlast : Exchange.upTo { x with pieces := x.pieces ++ [chunk], heard := x.pieces.length + 1 }
          x.pieces.length = x.upTo x.pieces.length :=
        Exchange.upTo_of_prefix (List.prefix_append ..) (Nat.le_refl _)
      unfold Exchange.confirmed
      rw [Nat.add_sub_cancel, hlast, x.upTo_length, ← hconfirmed]
      exact h.acknowledgedBytes
    · rintro _ ⟨⟩
      exact ⟨hprepared, hrecv, rfl, hcm⟩
    · rw [hsent, List.drop_drop]
    · exact absurd hdone (by simp [hopen])
  · intro hbad
    unfold sendSnapshotChunk
    rw [if_neg hnotPending]
    by_cases hmemory : env.chunkMemory = true
    · have hpost : c.send env chunk = none := by
        unfold RdmaConnection.send
        rw [if_pos]
        exact .inr (.inr (.inr (.inr fun hposted => hbad ⟨hmemory, hposted⟩)))
      simp only [hbind, hc, Option.bind_some, Nat.pos_iff_ne_zero.mp hpos, if_false, hmemory, hpost,
        not_true_eq_false]
    · rw [if_pos hmemory]

-- ---------------------------------------------------------------------------
-- A message of the replica
-- ---------------------------------------------------------------------------

theorem Source.posted (h : Source m fd f x) (hc : m.rdmaSync.connection = some c)
    (env : RdmaAnswers) :
    RdmaConnection.receiveNext { c with recvPending := false } env =
      if env.postedRecv then some c else none := by
  obtain ⟨hprepared, hrecv, -, -⟩ := h.connection c hc
  unfold RdmaConnection.receiveNext
  by_cases hposted : env.postedRecv = true
  · rw [if_pos hposted, if_neg (by simp [hprepared, hposted])]
    obtain ⟨cmId, deadline, pendingCmEvent, prepared, sendPending, recvPending, sent⟩ := c
    simp only at hrecv
    rw [hrecv]
  · rw [if_neg hposted, if_pos (by simp [hposted])]

def RdmaAnswers.Takes (env : RdmaAnswers) (x : Exchange UInt8) : Prop :=
  env.postedRecv = true ∧ (x.heard = 0 → env.chunkMemory = true ∧ env.postedSend = true)

theorem Source.receive (h : Source m fd f x) (hvalid : x.Valid f.file)
    (hturn : x.heard < x.answers) (hestablished : m.rdmaSync.established = true)
    (hopen : m.rdmaSync.disconnectPending = false) (hc : m.rdmaSync.connection = some c)
    (env : RdmaAnswers) (got : Nat) :
    ∃ y, Exchange.Steps f.file x y ∧ y.delivered = x.delivered ∧ y.answers = x.answers ∧
      y.heard = x.heard + 1 ∧ ∀ r, r = primaryReceive env got (syncAnswer f.id x x.heard) { m with
          rdmaSync := { m.rdmaSync with connection := some { c with recvPending := false } } } →
        (env.Takes x → r.1 = .wait ∧ Source r.2 fd f y) ∧ (¬env.Takes x → r.1 = .failed) := by
  obtain ⟨hpieces, hdelivered⟩ := hvalid.turn_hear hturn
  have hposted := h.posted hc env
  have hhear : x.Step f.file { x with heard := x.heard + 1 } := .hear hturn
  have hordered := hvalid.ordered
  have hmax := f.fits
  by_cases hfirst : x.heard = 0
  · -- `READY`: the first chunk follows at once
    have hnil : x.pieces = [] := List.length_eq_zero_iff.mp (hpieces.trans hfirst)
    have hsent : x.sent = 0 := by
      unfold Exchange.sent
      rw [hnil]
      rfl
    have hidle : m.rdmaSync.sendPending = false := by
      rw [← Bool.not_eq_true]
      exact fun hpending => h.pending hpending hnil
    have hconfirmed : x.confirmed = x.sent := by
      unfold Exchange.confirmed
      rw [hfirst, hsent]
      rfl
    have hleft : f.file.drop x.sent ≠ [] := by
      rw [hsent, List.drop_zero]
      exact List.length_pos_iff.mp f.file_pos
    obtain ⟨chunk, hne, hflatten, hsends, hfails⟩ :=
      h.sendChunk hvalid hconfirmed hopen hestablished hidle hc hleft env got
    rw [hpieces] at hsends
    refine ⟨{ x with heard := x.heard + 1, pieces := x.pieces ++ [chunk] }, ?_, rfl, rfl, rfl, ?_⟩
    · have hsend : Exchange.Step f.file { x with heard := x.heard + 1 }
          { x with heard := x.heard + 1, pieces := x.pieces ++ [chunk] } :=
        .send (by simp only; omega) hne hflatten
      exact (Relation.ReflTransGen.single hhear).tail hsend
    rintro r rfl
    rw [show syncAnswer f.id x x.heard = readyMessage f.id by rw [syncAnswer, if_pos hfirst]]
    rw [primaryReceive_ready env got (by rw [h.fullSyncId]; exact f.isId)
      (by rw [h.snapshotBytes, hsent]), if_pos h.fullSyncId.symm]
    unfold afterReady
    by_cases hrecv : env.postedRecv = true
    · rw [if_pos hrecv] at hposted
      simp only [Option.bind_some, hposted]
      have hsame : ({ m with rdmaSync := { m.rdmaSync with connection := some c } } :
          ReplicationManager) = m := by
        rw [← hc]
      rw [hsame]
      refine ⟨fun htakes => hsends (htakes.2 hfirst), fun hnot => hfails fun hboth => ?_⟩
      exact hnot ⟨hrecv, fun _ => hboth⟩
    · rw [if_neg hrecv] at hposted
      simp only [Option.bind_some, hposted]
      exact ⟨fun htakes => absurd htakes.1 hrecv, fun _ => trivial⟩
  · -- an acknowledgement stands for everything that was sent
    have hsent : x.upTo x.heard = x.sent := by
      rw [← hpieces]
      exact x.upTo_length
    have hlt : x.confirmed < x.sent := by
      rw [← hsent]
      exact hvalid.upTo_lt (by omega) (by omega)
    refine ⟨_, Relation.ReflTransGen.single hhear, rfl, rfl, rfl, ?_⟩
    rintro r rfl
    rw [show syncAnswer f.id x x.heard = ackMessage m.rdmaSync.snapshotBytes by
      rw [syncAnswer, if_neg hfirst, hsent, h.snapshotBytes]]
    rw [primaryReceive_ack env got (by rw [h.snapshotBytes, h.acknowledgedBytes]; exact hlt)
      (by rw [h.snapshotBytes]; omega), if_pos rfl]
    unfold afterAck
    by_cases hrecv : env.postedRecv = true
    · rw [if_pos hrecv] at hposted
      simp only [Option.bind_some, hposted]
      refine ⟨fun _ => ⟨trivial, ?_⟩, fun hnot => absurd ⟨hrecv, fun hzero => absurd hzero hfirst⟩ hnot⟩
      have hconfirmed : Exchange.confirmed { x with heard := x.heard + 1 } = x.sent := by
        unfold Exchange.confirmed
        exact hsent
      refine { h with
        messages := ?_, acknowledgedBytes := ?_, connection := ?_, established := fun _ => rfl
        accepted := fun _ => rfl, started := fun _ => h.started (Nat.pos_of_ne_zero hfirst)
        finished := fun hdone => absurd hdone (by simp [hopen]) }
      · have hmessages := h.messages
        unfold RdmaSync.messages at hmessages ⊢
        rw [hc] at hmessages
        exact hmessages
      · rw [hconfirmed]
        exact h.snapshotBytes
      · rintro _ ⟨⟩
        exact h.connection c hc
    · rw [if_neg hrecv] at hposted
      simp only [Option.bind_some, hposted]
      exact ⟨fun htakes => absurd htakes.1 hrecv, fun _ => trivial⟩

-- ---------------------------------------------------------------------------
-- A step
-- ---------------------------------------------------------------------------

def nextAnswer (id : Bytes) (x : Exchange UInt8) : Option Bytes :=
  if x.heard < x.answers then some (syncAnswer id x x.heard) else none

theorem Source.due (h : Source m fd f x) (hvalid : x.Valid f.file)
    (hsend : m.rdmaSync.sendPending = false) (hpos : 0 < m.rdmaSync.snapshotBytes)
    (hacked : m.rdmaSync.acknowledgedBytes = m.rdmaSync.snapshotBytes)
    (hopen : m.rdmaSync.disconnectPending = false) (hc : m.rdmaSync.connection = some c)
    (hestablished : m.rdmaSync.established = true) (env : RdmaAnswers) (got : Nat) :
    (fullSyncStep env got m).1 = .failed ∧ ¬env.Grants ∨
      (fullSyncStep env got m).1 = .wait ∧ ∃ y, Exchange.Steps f.file x y ∧
        y.delivered = x.delivered ∧ y.answers = x.answers ∧ y.heard = x.heard ∧
        Source (fullSyncStep env got m).2 fd f y := by
  rw [h.snapshotBytes] at hpos hacked
  rw [h.acknowledgedBytes] at hacked
  have hturn := hvalid.turn_send hpos hacked
  have hreader := h.reader hopen
  have hwaits : ¬(m.rdmaSync.disconnectPending = true ∨ ¬m.rdmaSync.established = true) := by
    simp [hopen, hestablished]
  have hdue : ¬m.rdmaSync.sendPending = true ∧ 0 < m.rdmaSync.snapshotBytes ∧
      m.rdmaSync.acknowledgedBytes = m.rdmaSync.snapshotBytes ∧ m.snapshotReader.isSome = true :=
    ⟨by simp [hsend], by rw [h.snapshotBytes]; exact hpos,
      by rw [h.snapshotBytes, h.acknowledgedBytes]; exact hacked, by rw [hreader]; rfl⟩
  unfold fullSyncStep
  dsimp only
  rw [if_neg hwaits, if_pos hdue]
  by_cases hleft : f.file.drop x.sent = []
  · -- the whole file is acknowledged
    have hnone : ¬m.snapshotReader.any (fun r => decide (0 < r.remaining)) = true := by
      simp [hreader, hleft]
    have hend : x.confirmed = f.file.length := by
      have hle := (hvalid.ordered).2.2.2
      have hlength := List.drop_eq_nil_iff.mp hleft
      omega
    rw [if_neg hnone]
    by_cases hdisconnect : m.rdmaSync.connection.any (·.disconnect env) = true
    · rw [if_pos hdisconnect]
      refine .inr ⟨rfl, x, .refl, rfl, rfl, rfl, ?_⟩
      exact { h with reader := nofun, finished := fun _ => ⟨rfl, hend, hsend⟩ }
    · rw [if_neg hdisconnect]
      refine .inl ⟨rfl, fun hgrants => hdisconnect ?_⟩
      rw [hc]
      simp [RdmaConnection.disconnect, (h.connection c hc).1, hgrants.disconnected]
  · have hsome : m.snapshotReader.any (fun r => decide (0 < r.remaining)) = true := by
      rw [hreader]
      simpa using List.length_pos_iff.mpr hleft
    rw [if_pos hsome]
    have hheard : x.pieces.length + 1 = x.heard := by
      have hle := hvalid.heard_le
      have hanswers := hvalid.answers_le
      have hdelivered := hvalid.delivered_le
      omega
    obtain ⟨chunk, hne, hflatten, hsends, hfails⟩ :=
      h.sendChunk hvalid hacked hopen hestablished hsend hc hleft env got
    rw [hheard] at hsends
    by_cases hgood : env.chunkMemory = true ∧ env.postedSend = true
    · obtain ⟨hwait, hsource⟩ := hsends hgood
      exact .inr ⟨hwait, _, .single (.send hturn hne hflatten), rfl, rfl, rfl, hsource⟩
    · exact .inl ⟨hfails hgood, fun hgrants => hgood ⟨hgrants.chunkMemory, hgrants.postedSend⟩⟩

theorem Source.completion (h : Source m fd f x) (hquiet : ¬env.Receives)
    (hc : m.rdmaSync.connection = some c) (got : Nat) :
    (completionStep env got m).1 = .failed ∧
        (¬env.Completes m.rdmaSync.sendPending (nextAnswer f.id x)) ∨
      (completionStep env got m).1 = .wait ∧ Source (completionStep env got m).2 fd f x := by
  obtain ⟨hprepared, hrecv, hsend, hcm⟩ := h.connection c hc
  have hpoll : m.rdmaSync.connection.bind (·.pollCompletion env) = c.pollCompletion env := by
    rw [hc]
    rfl
  unfold completionStep
  rw [hpoll]
  unfold RdmaConnection.pollCompletion
  rw [if_neg (by simp [hprepared])]
  cases hcompletion : env.completion with
  | none => exact .inl ⟨rfl, by simp [RdmaAnswers.Completes, hcompletion]⟩
  | some completion =>
    cases completion with
    | none => exact .inr ⟨rfl, h⟩
    | some completion =>
      cases completion with
      | send =>
        by_cases hpending : c.sendPending = true
        · simp only [hpending, not_true_eq_false, if_false]
          refine .inr ⟨trivial, { h with
            messages := ?_, connection := ?_, established := fun _ => rfl, accepted := fun _ => rfl
            pending := nofun
            finished := fun hdone => ⟨(h.finished hdone).1, (h.finished hdone).2.1, rfl⟩ }⟩
          · have hmessages := h.messages
            unfold RdmaSync.messages at hmessages ⊢
            rw [hc] at hmessages
            exact hmessages
          · rintro _ ⟨⟩
            exact ⟨hprepared, hrecv, rfl, hcm⟩
        · simp only [hpending]
          refine .inl ⟨rfl, ?_⟩
          rw [hsend] at hpending
          simp [RdmaAnswers.Completes, hcompletion, hpending]
      | recv data => exact absurd ⟨data, hcompletion⟩ hquiet
      | invalid => exact .inl ⟨rfl, by simp [RdmaAnswers.Completes, hcompletion]⟩

theorem length_syncAnswer (hid : IsId id) (hmax : x.sent ≤ offMax) (n : Nat) :
    (syncAnswer id x n).length < messageCapacity := by
  unfold syncAnswer
  split
  · exact length_readyMessage hid
  · exact length_ackMessage (Nat.le_trans (x.upTo_le_sent n) hmax)

theorem completionStep_recv (hc : m.rdmaSync.connection = some c) (hprepared : c.prepared = true)
    (hrecv : c.recvPending = true) (hdata : data.length ≤ rdmaBufferCapacity)
    (hcompletion : env.completion = some (some (.recv data))) (got : Nat) :
    completionStep env got m = primaryReceive env got data { m with
      rdmaSync := { m.rdmaSync with connection := some { c with recvPending := false } } } := by
  have hpoll : m.rdmaSync.connection.bind (·.pollCompletion env) =
      some (some (.recv data, { c with recvPending := false })) := by
    rw [hc, Option.bind_some, RdmaConnection.pollCompletion_recv hprepared hrecv hdata hcompletion]
  unfold completionStep
  rw [hpoll]

/-- A step in which no message arrives. -/
theorem Source.step (h : Source m fd f x) (hvalid : x.Valid f.file) (hquiet : ¬env.Receives)
    (got : Nat) :
    (fullSyncStep env got m).1 = .failed ∧
        ¬(env.Grants ∧ env.Completes m.rdmaSync.sendPending (nextAnswer f.id x)) ∨
      (fullSyncStep env got m).1 = .wait ∧ ∃ y, Exchange.Steps f.file x y ∧
        y.delivered = x.delivered ∧ y.answers = x.answers ∧ y.heard = x.heard ∧
        Source (fullSyncStep env got m).2 fd f y := by
  by_cases hwaits : m.rdmaSync.disconnectPending = true ∨ ¬m.rdmaSync.established = true
  · unfold fullSyncStep
    dsimp only
    rw [if_pos hwaits]
    exact .inr ⟨rfl, x, .refl, rfl, rfl, rfl, h⟩
  · have hopen : m.rdmaSync.disconnectPending = false := by
      rw [← Bool.not_eq_true]
      exact fun hpending => hwaits (.inl hpending)
    have hestablished : m.rdmaSync.established = true := not_not.mp fun hnot => hwaits (.inr hnot)
    obtain ⟨c, hc⟩ := Option.isSome_iff_exists.mp (h.established hestablished)
    by_cases hdue : ¬m.rdmaSync.sendPending = true ∧ 0 < m.rdmaSync.snapshotBytes ∧
        m.rdmaSync.acknowledgedBytes = m.rdmaSync.snapshotBytes ∧ m.snapshotReader.isSome = true
    · obtain ⟨hsend, hpos, hacked, -⟩ := hdue
      obtain ⟨hfailed, hnot⟩ | hwait :=
        h.due hvalid (by simpa using hsend) hpos hacked hopen hc hestablished env got
      · exact .inl ⟨hfailed, fun hgood => hnot hgood.1⟩
      · exact .inr hwait
    · have hrun : fullSyncStep env got m = completionStep env got m := by
        unfold fullSyncStep
        dsimp only
        rw [if_neg hwaits, if_neg hdue]
        rfl
      rw [hrun]
      obtain ⟨hfailed, hnot⟩ | ⟨hwait, hsource⟩ := h.completion hquiet hc got
      · exact .inl ⟨hfailed, fun hgood => hnot hgood.2⟩
      · exact .inr ⟨hwait, x, .refl, rfl, rfl, rfl, hsource⟩

theorem Source.waits (h : Source m fd f x) (hvalid : x.Valid f.file) (hturn : x.heard < x.answers) :
    ¬(¬m.rdmaSync.sendPending = true ∧ 0 < m.rdmaSync.snapshotBytes ∧
      m.rdmaSync.acknowledgedBytes = m.rdmaSync.snapshotBytes ∧ m.snapshotReader.isSome = true) := by
  rintro ⟨-, hpos, hacked, -⟩
  rw [h.snapshotBytes] at hpos hacked
  rw [h.acknowledgedBytes] at hacked
  have hlt := hvalid.turn_wait hturn hpos
  omega

theorem Source.receives (h : Source m fd f x) (hvalid : x.Valid f.file)
    (hturn : x.heard < x.answers)
    (hcompletion : env.completion = some (some (.recv (syncAnswer f.id x x.heard))))
    (hestablished : m.rdmaSync.established = true) (got : Nat) :
    ((fullSyncStep env got m).1 = .failed ∧ ¬env.Grants) ∨
      (fullSyncStep env got m).1 = .wait ∧ ∃ y, Exchange.Steps f.file x y ∧
        y.delivered = x.delivered ∧ y.answers = x.answers ∧ y.heard = x.heard + 1 ∧
        Source (fullSyncStep env got m).2 fd f y := by
  obtain ⟨c, hc⟩ := Option.isSome_iff_exists.mp (h.established hestablished)
  obtain ⟨hprepared, hrecv, -, -⟩ := h.connection c hc
  obtain ⟨hpieces, -⟩ := hvalid.turn_hear hturn
  have hordered := hvalid.ordered
  have hmax := f.fits
  have hfile := f.file_pos
  have hbehind := hvalid.turn_wait hturn
  have hopen : m.rdmaSync.disconnectPending = false := by
    rw [← Bool.not_eq_true]
    intro hpending
    have hend := (h.finished hpending).2.1
    have hlt := hbehind (by omega)
    omega
  have hwaits : ¬(m.rdmaSync.disconnectPending = true ∨ ¬m.rdmaSync.established = true) := by
    simp [hopen, hestablished]
  have hdue := h.waits hvalid hturn
  have hdata : (syncAnswer f.id x x.heard).length ≤ rdmaBufferCapacity := by
    have hlength := length_syncAnswer f.isId (by omega : x.sent ≤ offMax) x.heard
    have hcapacity : messageCapacity ≤ rdmaBufferCapacity := by decide
    omega
  have hrun : fullSyncStep env got m = completionStep env got m := by
    unfold fullSyncStep
    dsimp only
    rw [if_neg hwaits, if_neg hdue]
    rfl
  rw [hrun, completionStep_recv hc hprepared hrecv hdata hcompletion]
  obtain ⟨y, hsteps, hdelivered, hanswers, hheard, htakes⟩ :=
    h.receive hvalid hturn hestablished hopen hc env got
  obtain ⟨hyes, hno⟩ := htakes _ rfl
  by_cases hgood : env.Takes x
  · obtain ⟨hwait, hsource⟩ := hyes hgood
    exact .inr ⟨hwait, y, hsteps, hdelivered, hanswers, hheard, hsource⟩
  · refine .inl ⟨hno hgood, fun hgrants => hgood ⟨hgrants.postedRecv, fun _ => ?_⟩⟩
    exact ⟨hgrants.chunkMemory, hgrants.postedSend⟩

-- ---------------------------------------------------------------------------
-- A poll
-- ---------------------------------------------------------------------------

theorem Source.poll (h : Source s.replication fd f x) (hevent : ¬env.Disconnects)
    (capacity got : Nat) :
    Triple (kvsReplicationStream fd capacity got env) s (fun r s' =>
      (capacity = 0 ∨ (fullSyncEvent s.disk s.aofOffset env s.replication).1 = false) ∧ r = .failed ∨
        ∃ m, fullSyncEvent s.disk s.aofOffset env s.replication = (true, m) ∧ capacity ≠ 0 ∧
          Source m fd f x ∧ r = (fullSyncStep env got m).1 ∧
          s' = { s with replication := (fullSyncStep env got m).2 }) Never := by
  unfold kvsReplicationStream
  refine Triple.get_bind (Triple.ite (fun hguard => ?_) fun hguard => Triple.ite (fun hother => ?_) fun _ => ?_)
  · simp only [h.initialized, h.role, not_true_eq_false, ne_eq, false_or] at hguard
    exact Triple.pure (.inl ⟨.inl hguard, rfl⟩)
  · exact absurd h.owner hother
  have hcapacity : capacity ≠ 0 := fun hzero => hguard (.inr (.inr hzero))
  rw [if_pos h.state]
  cases hrun : fullSyncEvent s.disk s.aofOffset env s.replication with
  | mk goesOn m =>
    cases goesOn with
    | false =>
      dsimp only
      rw [if_pos Bool.false_ne_true, pure_bind]
      exact Triple.set_bind (Triple.pure (.inl ⟨.inr rfl, rfl⟩))
    | true =>
      have hsource := h.event hevent hrun
      dsimp only
      rw [if_neg (not_not.mpr rfl), if_pos hsource.state, pure_bind]
      exact Triple.set_bind (Triple.pure (.inr ⟨m, rfl, hcapacity, hsource, rfl, rfl⟩))

theorem Source.polls (h : Source s.replication fd f x) (hvalid : x.Valid f.file)
    (hevent : ¬env.Disconnects) (hquiet : ¬env.Receives)
    (hrun : kvsReplicationStream fd capacity got env s = .ok (r, s')) (hgood : r ≠ .failed) :
    ∃ m y, s' = { s with replication := m } ∧ Exchange.Steps f.file x y ∧
      y.delivered = x.delivered ∧ y.answers = x.answers ∧ y.heard = x.heard ∧
      Source m fd f y := by
  obtain ⟨-, rfl⟩ | ⟨m, -, -, hsource, rfl, rfl⟩ := (h.poll hevent capacity got).post hrun
  · exact absurd rfl hgood
  · obtain ⟨hfailed, -⟩ | ⟨-, y, hy⟩ := hsource.step hvalid hquiet got
    · exact absurd hfailed hgood
    · exact ⟨_, y, rfl, hy⟩

theorem Source.pollReceives (h : Source s.replication fd f x) (hvalid : x.Valid f.file)
    (hevent : ¬env.Disconnects)
    (hnext : nextAnswer f.id x = some data) (hcompletion : env.completion = some (some (.recv data)))
    (hasks : kvsReplicationStream fd capacity got { env with completion := none } s = .ok (.failed, s₁))
    (hrun : kvsReplicationStream fd capacity got env s = .ok (r, s')) (hgood : r ≠ .failed) :
    ∃ m y, s' = { s with replication := m } ∧ Exchange.Steps f.file x y ∧
      y.delivered = x.delivered ∧ y.answers = x.answers ∧ y.heard = x.heard + 1 ∧
      Source m fd f y := by
  unfold nextAnswer at hnext
  split at hnext
  case isFalse => cases hnext
  rename_i hturn
  obtain rfl := Option.some.inj hnext
  obtain ⟨-, rfl⟩ | ⟨m, hrunEvent, hcapacity, hsource, rfl, rfl⟩ := (h.poll hevent capacity got).post hrun
  · exact absurd rfl hgood
  have hestablished : m.rdmaSync.established = true := by
    by_contra hnot
    have hsame : fullSyncEvent s.disk s.aofOffset { env with completion := none } s.replication =
        (true, m) := hrunEvent
    have hevent' : ¬RdmaAnswers.Disconnects { env with completion := none } := hevent
    obtain ⟨hzero | hfalse, -⟩ | ⟨m', hrunEvent', -, -, hfailed, -⟩ :=
      (h.poll hevent' capacity got).post hasks
    · exact hcapacity hzero
    · rw [hsame] at hfalse
      cases hfalse
    · rw [hsame] at hrunEvent'
      obtain rfl := (Prod.mk.inj hrunEvent').2
      unfold fullSyncStep at hfailed
      dsimp only at hfailed
      rw [if_pos (.inr hnot)] at hfailed
      cases hfailed
  obtain ⟨hfailed, -⟩ | ⟨-, y, hy⟩ :=
    hsource.receives hvalid hturn hcompletion hestablished got
  · exact absurd hfailed hgood
  · exact ⟨_, y, rfl, hy⟩

theorem RdmaAnswers.TellsPrimary.not_disconnects (h : env.TellsPrimary connection) : ¬env.Disconnects := by
  rintro ⟨event, hcm, htype⟩
  cases h with
  | nothing hquiet => cases hquiet.symm.trans hcm
  | connectRequest hrequest =>
    cases hrequest.symm.trans hcm
    cases htype
  | established hestablished =>
    cases hestablished.symm.trans hcm
    cases htype

theorem RdmaConnection.close_granted (hgrants : env.Grants) : c.close env = none := by
  unfold RdmaConnection.close
  rw [if_neg (by simp [hgrants.acked]), hgrants.teardown]
  dsimp only
  split <;> rfl

theorem Source.goesOn (h : Source m fd f x) (hgrants : env.Grants) :
    ¬(m.rdmaSync.connection.any (·.pendingCmEvent) = true ∨ ¬env.ownerMemory = true) := by
  rintro (hpending | hmemory)
  · cases hc : m.rdmaSync.connection with
    | none => simp [hc] at hpending
    | some c => simp [hc, (h.connection c hc).2.2.2] at hpending
  · exact hmemory hgrants.ownerMemory

/-- The primary takes an event of its own connection. -/
theorem Source.poll_own {event : CmEvent} (h : Source m fd f x) (hgrants : env.Grants)
    (hc : m.rdmaSync.connection = some c) (hcm : env.cmEvent = some (some event))
    (hevent : event.event ≠ .connectRequest) (hid : event.id = c.cmId) :
    kvsRdmaListenerPoll env (some c) =
      ⟨(c.handleEvent env false event).1, some (c.handleEvent env false event).2, none⟩ := by
  have hgoesOn := h.goesOn hgrants
  rw [hc] at hgoesOn
  unfold kvsRdmaListenerPoll
  rw [if_neg hgoesOn, hcm]
  dsimp only
  rw [if_neg fun hrequest => hevent hrequest.1, if_pos ⟨hevent, hid⟩]
  exact if_pos hgrants.acked

theorem Source.event_quiet (h : Source m fd f x) (hgrants : env.Grants) (hcm : env.cmEvent = some none)
    (disk : Disk) (latest : Option Nat) : fullSyncEvent disk latest env m = (true, m) := by
  unfold fullSyncEvent kvsRdmaListenerPoll
  rw [if_neg (by simp [h.cleanup]), if_neg (h.goesOn hgrants)]
  simp only [hcm]

theorem Source.told (h : Source m fd f x) (hgrants : env.Grants)
    (htold : env.TellsPrimary m.rdmaSync.connection) (disk : Disk) (latest : Option Nat) :
    ∃ m', fullSyncEvent disk latest env m = (true, m') ∧ m'.rdmaSync.sendPending = m.rdmaSync.sendPending := by
  cases htold with
  | nothing hcm => exact ⟨m, h.event_quiet hgrants hcm disk latest, rfl⟩
  | @connectRequest cmId hcm =>
    unfold fullSyncEvent kvsRdmaListenerPoll
    rw [if_neg (by simp [h.cleanup]), if_neg (h.goesOn hgrants), hcm]
    dsimp only
    rw [if_pos ⟨rfl, rfl⟩]
    cases m.rdmaSync.connection with
    | none =>
      have hprepare : RdmaConnection.prepare { RdmaConnection.blank with cmId := some cmId } env =
          some { RdmaConnection.blank with cmId := some cmId, prepared := true, recvPending := true } := by
        unfold RdmaConnection.prepare
        rw [if_neg (by simp [RdmaConnection.blank, hgrants.prepared])]
      simp only [RdmaConnection.connectRequest, hprepare, ownEvent, hgrants.acked, hgrants.submitted,
        not_true_eq_false, or_false, if_true, if_false]
      exact ⟨_, rfl, rfl⟩
    | some c =>
      -- it has a connection: the request is turned away
      simp only [separateOwner, RdmaConnection.close_granted hgrants, hgrants.acked, hgrants.rejected,
        not_true_eq_false, if_true, if_false]
      exact ⟨_, rfl, rfl⟩
  | @established c toListener hcm hc =>
    unfold fullSyncEvent
    rw [if_neg (by simp [h.cleanup]), hc, h.poll_own hgrants hc hcm CmEventType.noConfusion rfl]
    exact ⟨_, rfl, rfl⟩

/-- A poll whose requests are all granted does not fail. -/
theorem Source.serves (h : Source s.replication fd f x) (hvalid : x.Valid f.file)
    (hgrants : env.Grants) (htold : env.TellsPrimary s.replication.rdmaSync.connection)
    (hcompletes : env.Completes s.replication.rdmaSync.sendPending (nextAnswer f.id x))
    (hcapacity : capacity ≠ 0) (got : Nat) :
    ∃ s', kvsReplicationStream fd capacity got env s = .ok (.wait, s') := by
  obtain ⟨m, hrun, hsame⟩ := h.told hgrants htold s.disk s.aofOffset
  have hsource := h.event htold.not_disconnects hrun
  rw [← hsame] at hcompletes
  -- what the step returns, it returns without failing
  have hwait : (fullSyncStep env got m).1 = .wait := by
    by_cases harrives : env.Receives
    · obtain ⟨data, hdata⟩ := harrives
      have hnext : nextAnswer f.id x = some data := by
        obtain hnone | ⟨hsend, -⟩ | ⟨data', hdata', hnext⟩ := hcompletes
        · rw [hnone] at hdata
          cases hdata
        · rw [hsend] at hdata
          cases hdata
        · rw [hdata'] at hdata
          cases hdata
          exact hnext
      unfold nextAnswer at hnext
      split at hnext
      case isFalse => cases hnext
      rename_i hturn
      obtain rfl := Option.some.inj hnext
      by_cases hestablished : m.rdmaSync.established = true
      · obtain ⟨-, hnot⟩ | ⟨hwait, -⟩ := hsource.receives hvalid hturn hdata hestablished got
        · exact absurd hgrants hnot
        · exact hwait
      · unfold fullSyncStep
        dsimp only
        rw [if_pos (.inr hestablished)]
    · obtain ⟨-, hnot⟩ | ⟨hwait, -⟩ := hsource.step hvalid harrives got
      · exact absurd ⟨hgrants, hcompletes⟩ hnot
      · exact hwait
  obtain ⟨r, s', hpoll, ⟨hzero | hfalse, -⟩ | ⟨m', hm, -, -, rfl, rfl⟩⟩ :=
    (h.poll htold.not_disconnects capacity got).run
  · exact absurd hzero hcapacity
  · rw [hrun] at hfalse
    cases hfalse
  · rw [hrun] at hm
    obtain rfl := (Prod.mk.inj hm).2
    rw [hwait] at hpoll
    exact ⟨_, hpoll⟩

end

end KvStore
