import KvStore.Replication.Following
import KvStore.Replication.Install
import KvStore.Replication.Source

/-!
# The replica's side of a full synchronisation

`Sink` says where a replica stands in the exchange: what has arrived is in the
temporary file, and once all of it has, the replica has the maps of the file.
Every step of the replica that does not fail is a step of the exchange.
-/

namespace KvStore

open Lib
open Replaying (AtEnd)

def syncAnswers (id : Bytes) (x : Exchange UInt8) : List Bytes :=
  (List.range x.answers).map (syncAnswer id x)

/-- The connection of a replica that has come as far as the exchange says. -/
structure SinkSync (sync : RdmaSync) (id : Bytes) (x : Exchange UInt8) : Prop where
  connection : ∃ c, sync.connection = some c ∧ c.cmId.isSome ∧ c.pendingCmEvent = false ∧
    (c.prepared = true → c.recvPending = true) ∧ (sync.established = true → c.prepared = true) ∧
    c.sendPending = sync.sendPending ∧ c.sent = syncAnswers id x
  established : sync.established = true ↔ 0 < x.answers
  pending : sync.sendPending = true → 0 < x.answers
  snapshotBytes : sync.snapshotBytes = x.arrived
  acknowledgedBytes : sync.acknowledgedBytes = x.answered

inductive Receiving (t : Server) (up : Nat) (f : FullSync) (x : Exchange UInt8) : Prop
  | arriving (hstate : t.replication.state = .fullSync)
    (hwriter : t.replication.snapshotWriter = some ⟨(f.file.drop x.arrived).length⟩)
    (htemp : t.disk .replicationTemp = some (f.file.take x.arrived))
    (hlt : x.arrived < f.file.length)
  | complete (hstate : t.replication.state = .catchUp)
    (happlied : t.Applied up f.offset f.maps [] f.maps)
    (hfile : t.disk .snapshotDb = some f.file) (hend : x.arrived = f.file.length)

structure Receiver (t : Server) (up : Nat) (f : FullSync) (x : Exchange UInt8) : Prop where
  role : t.role = .replica
  mode : t.persistenceMode = .legacyHybrid
  initialized : t.replication.initialized = true
  replica : t.replication.role = .replica
  upstream : t.replication.primaryConnectionFd = some up
  fullSyncId : t.replication.fullSyncId = f.id
  size : t.replication.snapshotFileSize = f.file.length
  offset : t.replication.replicationOffset = f.offset
  log : ∃ writer, t.aofWriter = some writer ∧ writer.path = .appendonlyAof ∧ writer.ring = true
  holds : ∃ M, t.engines.Hold t.rt.mallocs M
  receiving : Receiving t up f x

structure Sink (t : Server) (up : Nat) (f : FullSync) (x : Exchange UInt8) : Prop extends
    Receiver t up f x where
  sync : SinkSync t.replication.rdmaSync f.id x

def RdmaAnswers.Establishes (env : RdmaAnswers) : Prop :=
  ∃ event, env.cmEvent = some (some event) ∧ event.event = .established

/-- An exchange to which only the sink has added; it starts to answer when it is
`told` to. -/
structure BySink (file : Bytes) (told : Prop) (x y : Exchange UInt8) : Prop where
  steps : Exchange.Steps file x y
  pieces : y.pieces = x.pieces
  heard : y.heard = x.heard
  ready : 0 < y.answers → 0 < x.answers ∨ told

/-- What a replica can be told of its connection: nothing, that the address or the
route is there, that the primary has accepted, or, once that has `ended` it, that
the connection is over. -/
inductive RdmaAnswers.TellsReplica (env : RdmaAnswers) (sync : RdmaSync) (ended : Prop) : Prop
  | nothing (hcm : env.cmEvent = some none)
  | addrResolved (hc : sync.connection = some c)
    (hcm : env.cmEvent = some (some ⟨.addrResolved, c.cmId, toListener, true⟩))
  | routeResolved (hc : sync.connection = some c)
    (hcm : env.cmEvent = some (some ⟨.routeResolved, c.cmId, toListener, true⟩))
    (hno : c.prepared = false)
  | established (hc : sync.connection = some c)
    (hcm : env.cmEvent = some (some ⟨.established, c.cmId, toListener, true⟩))
    (hprepared : c.prepared = true) (hno : sync.established = false)
  | disconnected (hc : sync.connection = some c)
    (hcm : env.cmEvent = some (some ⟨.disconnected, c.cmId, toListener, true⟩)) (hended : ended)

def Server.received (t : Server) (file data : Bytes) (n : Nat) : Server := { t with
  disk := t.disk.write .replicationTemp (file ++ data)
  io := t.io.ask (.write .replicationTemp file.length data)
  replication := { t.replication with snapshotWriter := some ⟨n⟩ } }

def Server.committed (t : Server) (file : Bytes) : Server := { t with
  disk := (t.disk.unlink .replicationTemp).write .snapshotDb file
  io := ((t.io.ask (.sync .replicationTemp)).ask (.close .replicationTemp)).ask
    (.rename .replicationTemp .snapshotDb)
  replication := { t.replication with snapshotWriter := none } }

structure Server.Later (t t' : Server) : Prop where
  canFail : t'.CanFail → t.CanFail
  prepared : t.replication.rdmaSync.connection.any (·.prepared) = true →
    t'.replication.rdmaSync.connection.any (·.prepared) = true

section
variable {t t' : Server} {sync sync' : RdmaSync} {c : RdmaConnection} {env : RdmaAnswers}
  {file id : Bytes} {f : FullSync} {x y : Exchange UInt8} {up bytes n : Nat} {data : Bytes} {told : Prop}
  {writer : AofWriter} {M : Maps} {r : Streamed} {got capacity : Nat} {s s' s₁ : Server} {ended : Prop}

-- ---------------------------------------------------------------------------
-- The connection
-- ---------------------------------------------------------------------------

theorem Server.Later.refl (t : Server) : t.Later t := ⟨id, id⟩

theorem Server.Later.trans {t'' : Server} (h : t.Later t') (h' : t'.Later t'') : t.Later t'' :=
  ⟨fun hcan => h.canFail (h'.canFail hcan), fun hset => h'.prepared (h.prepared hset)⟩

theorem SinkSync.prepared (h : SinkSync sync id x) (hestablished : sync.established = true) :
    sync.connection.any (·.prepared) = true := by
  obtain ⟨c, hc, -, -, -, hprepared, -⟩ := h.connection
  rw [hc]
  exact hprepared hestablished

theorem BySink.refl (x : Exchange UInt8) : BySink file told x x := ⟨.refl, rfl, rfl, .inl⟩

theorem BySink.trans {z : Exchange UInt8} (h : BySink file told x y) (h' : BySink file told y z) :
    BySink file told x z :=
  ⟨h.steps.trans h'.steps, h'.pieces.trans h.pieces, h'.heard.trans h.heard,
    fun hpos => (h'.ready hpos).elim h.ready .inr⟩

theorem BySink.mono {told' : Prop} (h : BySink file told x y) (htold : told → told') :
    BySink file told' x y := { h with ready := fun hpos => (h.ready hpos).imp_right htold }

theorem syncAnswers_succ (id : Bytes) (x : Exchange UInt8) :
    syncAnswers id { x with answers := x.answers + 1 } =
      syncAnswers id x ++ [syncAnswer id x x.answers] := by
  unfold syncAnswers
  rw [List.range_succ, List.map_append]
  rfl

theorem SinkSync.congr (h : SinkSync sync id x) (hvalid : x.Valid file)
    (hpieces : x.pieces <+: y.pieces) (hdelivered : y.delivered = x.delivered)
    (hanswers : y.answers = x.answers) : SinkSync sync id y := by
  have hle := hvalid.delivered_le
  have hturn := hvalid.answers_le
  have hupTo : ∀ n ≤ x.delivered, y.upTo n = x.upTo n :=
    fun n hn => Exchange.upTo_of_prefix hpieces (Nat.le_trans hn hle)
  have harrived : y.arrived = x.arrived := by
    unfold Exchange.arrived
    rw [hdelivered, hupTo _ (Nat.le_refl _)]
  have hanswered : y.answered = x.answered := by
    unfold Exchange.answered
    rw [hanswers, hupTo _ (by omega)]
  have hsame : syncAnswers id y = syncAnswers id x := by
    unfold syncAnswers
    rw [hanswers]
    apply List.map_congr_left
    intro n hn
    rw [List.mem_range] at hn
    unfold syncAnswer
    rw [hupTo n (by omega)]
  obtain ⟨c, hc, hid, hcm, hrecv, hprepared, hsend, hsent⟩ := h.connection
  refine ⟨⟨c, hc, hid, hcm, hrecv, hprepared, hsend, hsent.trans hsame.symm⟩, ?_, ?_, ?_, ?_⟩
  · rw [hanswers]
    exact h.established
  · rw [hanswers]
    exact h.pending
  · rw [harrived]
    exact h.snapshotBytes
  · rw [hanswered]
    exact h.acknowledgedBytes

theorem Receiving.congr (h : Receiving t up f x) (harrived : y.arrived = x.arrived) :
    Receiving t up f y := by
  cases h with
  | arriving hstate hwriter htemp hlt =>
    rw [← harrived] at hwriter htemp hlt
    exact .arriving hstate hwriter htemp hlt
  | complete hstate happlied hfile hend => exact .complete hstate happlied hfile (harrived.trans hend)

theorem Sink.congr (h : Sink t up f x) (hvalid : x.Valid f.file)
    (hpieces : x.pieces <+: y.pieces) (hdelivered : y.delivered = x.delivered)
    (hanswers : y.answers = x.answers) : Sink t up f y := by
  have harrived : y.arrived = x.arrived := by
    unfold Exchange.arrived
    rw [hdelivered, Exchange.upTo_of_prefix hpieces hvalid.delivered_le]
  exact { h with
    sync := h.sync.congr hvalid hpieces hdelivered hanswers
    receiving := h.receiving.congr harrived }

theorem SinkSync.event (h : SinkSync sync id x) (hc : sync.connection = some c)
    (hevent : ¬env.Disconnects) :
    ∀ r ∈ (c.pollEvent env).1, r ≠ some .disconnected ∧ (r = some .established → env.Establishes) ∧
      (c.prepared = true → (c.pollEvent env).2.prepared = true) ∧
      SinkSync { sync with connection := some (c.pollEvent env).2 } id x := by
  obtain ⟨_, hc', hid, hcm, hrecv, hprepared, hsend, hsent⟩ := h.connection
  obtain rfl := Option.some.inj (hc.symm.trans hc')
  have hkept : ∀ d : RdmaConnection, d.cmId = c.cmId → d.pendingCmEvent = c.pendingCmEvent →
      (d.prepared = true → d.recvPending = true) → (c.prepared = true → d.prepared = true) →
      d.sendPending = c.sendPending → d.sent = c.sent → (c.prepared = true → d.prepared = true) ∧
      SinkSync { sync with connection := some d } id x := by
    intro d hdid hdcm hdrecv hdprepared hdsend hdsent
    exact ⟨hdprepared, ⟨d, rfl, by rw [hdid]; exact hid, hdcm.trans hcm, hdrecv,
      fun hset => hdprepared (hprepared hset), hdsend.trans hsend, hdsent.trans hsent⟩, h.established,
      h.pending, h.snapshotBytes, h.acknowledgedBytes⟩
  have hsame := hkept c rfl rfl hrecv (fun h => h) rfl rfl
  unfold RdmaConnection.pollEvent
  split
  · exact nofun
  · split
    · exact nofun
    · rintro r ⟨⟩
      exact ⟨nofun, nofun, hsame⟩
    · rename_i event hcmEvent
      have hother : event.event ≠ .disconnected := fun h => hevent ⟨event, hcmEvent, h⟩
      by_cases hown : event.id ≠ c.cmId
      · rw [if_pos hown]
        dsimp only
        split <;> exact nofun
      · rw [if_neg hown]
        by_cases hacked : env.acked = true
        · dsimp only
          rw [if_pos hacked]
          unfold RdmaConnection.handleEvent
          by_cases hok : ¬event.ok = true
          · rw [if_pos hok]
            exact nofun
          · rw [if_neg hok]
            cases htype : event.event with
            | disconnected => exact absurd htype hother
            | established =>
              rintro r ⟨⟩
              exact ⟨nofun, fun _ => ⟨event, hcmEvent, htype⟩, hkept _ rfl rfl hrecv (fun h => h) rfl rfl⟩
            | timewaitExit =>
              rintro r ⟨⟩
              exact ⟨nofun, nofun, hsame⟩
            | connectRequest | other => exact nofun
            | addrResolved =>
              intro r hr
              dsimp only at hr
              split at hr
              · obtain rfl := Option.some.inj hr
                exact ⟨nofun, nofun, hsame⟩
              · cases hr
            | routeResolved =>
              intro r hr
              simp only [not_true_eq_false, if_false] at hr ⊢
              cases hprepare : c.prepare env with
              | none =>
                rw [hprepare] at hr
                cases hr
              | some d =>
                simp only [hprepare] at hr ⊢
                unfold RdmaConnection.prepare at hprepare
                split at hprepare
                · cases hprepare
                · obtain rfl := Option.some.inj hprepare
                  split at hr
                  · obtain rfl := Option.some.inj hr
                    exact ⟨nofun, nofun, hkept _ rfl rfl (fun _ => rfl) (fun _ => rfl) rfl rfl⟩
                  · cases hr
        · dsimp only
          rw [if_neg hacked]
          exact nofun

theorem SinkSync.hears (h : SinkSync sync id x) (hc : sync.connection = some c) (hgrants : env.Grants)
    (htold : env.TellsReplica sync ended) : ∃ type, (c.pollEvent env).1 = some type ∧
      (type = some .established → (c.pollEvent env).2.prepared = true ∧ sync.established = false) := by
  obtain ⟨_, hc', hid, hcm, -⟩ := h.connection
  obtain rfl := Option.some.inj (hc.symm.trans hc')
  have hgoesOn : ¬(c.cmId = none ∨ c.pendingCmEvent = true ∨ c.deadline = true ∧ env.expired = true) := by
    simp [hcm, hgrants.expired, Option.isSome_iff_ne_none.mp hid]
  unfold RdmaConnection.pollEvent
  rw [if_neg hgoesOn]
  cases htold with
  | nothing hcmEvent =>
    rw [hcmEvent]
    exact ⟨none, rfl, nofun⟩
  | addrResolved hown hcmEvent =>
    obtain rfl := Option.some.inj (hc.symm.trans hown)
    rw [hcmEvent]
    simp [RdmaConnection.handleEvent, hgrants.acked, hgrants.submitted]
  | routeResolved hown hcmEvent hno =>
    obtain rfl := Option.some.inj (hc.symm.trans hown)
    have hprepare : c.prepare env = some { c with prepared := true, recvPending := true } := by
      unfold RdmaConnection.prepare
      rw [if_neg (by simp [hno, hgrants.prepared])]
    rw [hcmEvent]
    simp [RdmaConnection.handleEvent, hprepare, hgrants.acked, hgrants.submitted]
  | established hown hcmEvent hprepared hno =>
    obtain rfl := Option.some.inj (hc.symm.trans hown)
    rw [hcmEvent]
    simp [RdmaConnection.handleEvent, hgrants.acked, hprepared, hno]
  | disconnected hown hcmEvent _ =>
    obtain rfl := Option.some.inj (hc.symm.trans hown)
    rw [hcmEvent]
    simp [RdmaConnection.handleEvent, hgrants.acked]

theorem SinkSync.answer (hc : sync.connection = some c) (hid : c.cmId.isSome)
    (hcm : c.pendingCmEvent = false) (hrecv : c.prepared = true → c.recvPending = true)
    (hsent : c.sent = syncAnswers id x) (hestablished : sync.established = true)
    (hbytes : sync.snapshotBytes = x.arrived)
    (hsend : sync.sendMessage env (syncAnswer id x x.answers) = some sync')
    (hacked : bytes = Exchange.answered { x with answers := x.answers + 1 }) :
    SinkSync { sync' with acknowledgedBytes := bytes } id { x with answers := x.answers + 1 } := by
  unfold RdmaSync.sendMessage at hsend
  split at hsend
  · cases hsend
  · rw [hc, Option.bind_some] at hsend
    unfold RdmaConnection.send at hsend
    split at hsend
    · cases hsend
    · rename_i d hd
      split at hd
      · cases hd
      · rename_i hgood
        obtain rfl := Option.some.inj hd
        obtain rfl := Option.some.inj hsend
        have hprepared : c.prepared = true := not_not.mp fun hnot => hgood (.inl hnot)
        refine ⟨⟨_, rfl, hid, hcm, fun _ => hrecv hprepared, fun _ => hprepared, rfl, ?_⟩,
          ⟨fun _ => Nat.succ_pos _, fun _ => hestablished⟩, fun _ => Nat.succ_pos _, hbytes, hacked⟩
        rw [syncAnswers_succ, ← hsent]

theorem SinkSync.acknowledge (h : SinkSync sync id x) (env : RdmaAnswers) (hvalid : x.Valid file)
    (hmax : file.length ≤ offMax) (hestablished : sync.established = true) :
    sync.acknowledge env = none ∧ env.postedSend = false ∨
      ∃ sync' y, sync.acknowledge env = some sync' ∧ BySink file False x y ∧ y.delivered = x.delivered ∧
        SinkSync sync' id y ∧ sync'.established = true ∧
        (sync.sendPending = true ∨ x.arrived ≤ x.answered → sync' = sync ∧ y = x) := by
  unfold RdmaSync.acknowledge
  by_cases hidle : sync.sendPending = true ∨ sync.snapshotBytes ≤ sync.acknowledgedBytes
  · rw [if_pos hidle]
    exact .inr ⟨sync, x, rfl, .refl x, rfl, h, hestablished, fun _ => ⟨rfl, rfl⟩⟩
  · rw [if_neg hidle]
    obtain ⟨hsend, hbehind⟩ := not_or.mp hidle
    rw [h.snapshotBytes, h.acknowledgedBytes] at hbehind
    have hturn := Exchange.turn_answer (Nat.not_le.mp hbehind)
    have hpos := h.established.mp hestablished
    have hdelivered := hvalid.delivered_le
    have hpieces := hvalid.pieces_le
    have hheard := hvalid.heard_le
    have hanswers : x.answers = x.delivered := by omega
    have hordered := hvalid.ordered
    obtain ⟨c, hc, hid, hcm, hrecv, hprepared, hpending, hsent⟩ := h.connection
    have hmessage : ackMessage sync.snapshotBytes = syncAnswer id x x.answers := by
      unfold syncAnswer
      rw [if_neg (by omega), h.snapshotBytes, hanswers]
      rfl
    rw [hmessage]
    have hshort : ¬(syncAnswer id x x.answers).length ≥ messageCapacity := by
      rw [← hmessage, h.snapshotBytes]
      exact Nat.not_le.mpr (length_ackMessage (by omega))
    by_cases hposted : env.postedSend = true
    · have hlt : (syncAnswer id x x.answers).length < messageCapacity := Nat.not_le.mp hshort
      have hpost : c.send env (syncAnswer id x x.answers) = some { c with
          sendPending := true, sent := c.sent ++ [syncAnswer id x x.answers] } := by
        unfold RdmaConnection.send
        rw [if_neg]
        rw [hpending]
        have hlength : 0 < (syncAnswer id x x.answers).length := by
          rw [← hmessage]
          simp [ackMessage, ascii]
        have hcapacity : messageCapacity ≤ rdmaBufferCapacity := by decide
        rintro (hno | hno | hno | hno | hno)
        · exact hno (hprepared hestablished)
        · exact Nat.ne_of_gt hlength hno
        · omega
        · exact hsend hno
        · exact hno hposted
      have hrun : sync.sendMessage env (syncAnswer id x x.answers) = some { sync with
          connection := some { c with
            sendPending := true, sent := c.sent ++ [syncAnswer id x x.answers] }
          sendPending := true } := by
        unfold RdmaSync.sendMessage
        rw [if_neg hshort, hc, Option.bind_some]
        simp only [hpost]
      simp only [hrun]
      refine .inr ⟨_, _, rfl, ⟨.single (.answer hturn), rfl, rfl, fun _ => .inl hpos⟩, rfl, ?_,
        hestablished, fun hno => ?_⟩
      · refine SinkSync.answer hc hid hcm hrecv hsent hestablished h.snapshotBytes hrun ?_
        rw [h.snapshotBytes, Exchange.answered, Exchange.arrived, hanswers]
        rfl
      · exact absurd (hno.imp_right fun hle => hle) (not_or.mpr ⟨hsend, hbehind⟩)
    · have hrun : sync.sendMessage env (syncAnswer id x x.answers) = none := by
        unfold RdmaSync.sendMessage RdmaConnection.send
        rw [if_neg hshort, hc, Option.bind_some, if_pos (by simp [hposted])]
      simp only [hrun]
      exact .inl ⟨trivial, by simpa using hposted⟩

theorem SinkSync.ready (h : SinkSync sync id x) (file : Bytes) (hestablished : sync.established = false)
    (hsend : RdmaSync.sendMessage { sync with established := true } env (readyMessage id) = some sync') :
    ∃ y, BySink file True x y ∧ y.delivered = x.delivered ∧ SinkSync sync' id y ∧
      sync'.established = true := by
  have hanswers : x.answers = 0 := by
    apply Nat.eq_zero_of_not_pos
    intro hpos
    rw [h.established.mpr hpos] at hestablished
    cases hestablished
  have hready : readyMessage id = syncAnswer id x x.answers := by
    unfold syncAnswer
    rw [if_pos hanswers]
  obtain ⟨c, hc, hid, hcm, hrecv, -, -, hsent⟩ := h.connection
  rw [hready] at hsend
  have hkept : sync'.established = true ∧ sync'.acknowledgedBytes = sync.acknowledgedBytes := by
    unfold RdmaSync.sendMessage at hsend
    split at hsend
    · cases hsend
    · split at hsend
      · cases hsend
      · obtain rfl := Option.some.inj hsend
        exact ⟨rfl, rfl⟩
  refine ⟨{ x with answers := x.answers + 1 }, ⟨.single (.answer ?_), rfl, rfl, fun _ => .inr trivial⟩, rfl,
    ?_, hkept.1⟩
  · rw [hanswers]
    exact Nat.zero_le _
  · have hc' : RdmaSync.connection { sync with established := true } = some c := hc
    have hsame : ({ sync' with acknowledgedBytes := sync'.acknowledgedBytes } : RdmaSync) = sync' := rfl
    rw [← hsame]
    refine SinkSync.answer hc' hid hcm hrecv hsent rfl
      h.snapshotBytes hsend ?_
    rw [hkept.2, h.acknowledgedBytes]
    unfold Exchange.answered
    rw [hanswers]
    rfl

theorem SinkSync.ready_sent (h : SinkSync sync id x) (hid : IsId id) (hc : sync.connection = some c)
    (hprepared : c.prepared = true) (hno : sync.established = false) (hposted : env.postedSend = true) :
    RdmaSync.sendMessage { sync with established := true } env (readyMessage id) = some { sync with
      connection := some { c with sendPending := true, sent := c.sent ++ [readyMessage id] }
      established := true, sendPending := true } := by
  obtain ⟨_, hc', -, -, -, -, hsend, -⟩ := h.connection
  obtain rfl := Option.some.inj (hc.symm.trans hc')
  have hidle : ¬c.sendPending = true := by
    rw [hsend]
    intro hpending
    have hestablished := h.established.mpr (h.pending hpending)
    rw [hno] at hestablished
    cases hestablished
  have hlength := length_readyMessage hid
  have hnonempty : (readyMessage id).length ≠ 0 := by simp [readyMessage, ascii]
  have hcapacity : messageCapacity ≤ rdmaBufferCapacity := by decide
  have hpost : c.send env (readyMessage id) =
      some { c with sendPending := true, sent := c.sent ++ [readyMessage id] } := by
    unfold RdmaConnection.send
    rw [if_neg]
    rintro (hnot | hnot | hnot | hnot | hnot)
    · exact hnot hprepared
    · exact hnonempty hnot
    · omega
    · exact hidle hnot
    · exact hnot hposted
  unfold RdmaSync.sendMessage
  rw [if_neg (Nat.not_le.mpr hlength)]
  dsimp only
  rw [hc, Option.bind_some, hpost]

def nextPiece (x : Exchange UInt8) : Option Bytes := x.pieces[x.delivered]?

theorem Receiver.moved (h : Receiver t up f x) (sync : RdmaSync) (harrived : y.arrived = x.arrived) :
    Receiver { t with replication := { t.replication with rdmaSync := sync } } up f y := by
  refine { h with receiving := ?_ }
  cases h.receiving.congr harrived with
  | arriving hstate hwriter htemp hlt => exact .arriving hstate hwriter htemp hlt
  | complete hstate happlied hfile hend => exact .complete hstate (happlied.upstream sync) hfile hend

theorem Sink.moved (h : Sink t up f x) (hsync : SinkSync sync f.id y)
    (harrived : y.arrived = x.arrived) :
    Sink { t with replication := { t.replication with rdmaSync := sync } } up f y :=
  ⟨h.toReceiver.moved sync harrived, hsync⟩

theorem BySink.arrived (h : BySink file told x y) (hdelivered : y.delivered = x.delivered) :
    y.arrived = x.arrived := by
  unfold Exchange.arrived Exchange.upTo
  rw [h.pieces, hdelivered]

/-- A step in which no message arrives. -/
theorem Sink.step (h : Sink t up f x) (hvalid : x.Valid f.file)
    (hquiet : ¬env.Receives) :
    Triple (upstreamStep up env) t (fun r t' =>
      r = .failed ∧
          ¬(env.Grants ∧ env.Completes t.replication.rdmaSync.sendPending (nextPiece x)) ∨
        r = .wait ∧ t.Later t' ∧
          ∃ y, BySink f.file False x y ∧ y.delivered = x.delivered ∧ Sink t' up f y) Never := by
  unfold upstreamStep
  refine Triple.get_bind (Triple.ite (fun _ => ?_) fun hset => ?_)
  · exact Triple.pure (.inr ⟨rfl, .refl t, x, .refl x, rfl, h⟩)
  have hestablished : t.replication.rdmaSync.established = true := not_not.mp hset
  dsimp only
  obtain ⟨hnone, hposted⟩ | ⟨sync, y, hsome, hby, hdelivered, hsync, hestablished', hidle⟩ :=
    h.sync.acknowledge env hvalid f.fits hestablished
  · rw [hnone]
    refine Triple.pure (.inl ⟨rfl, fun hgood => ?_⟩)
    rw [hgood.1.postedSend] at hposted
    cases hposted
  rw [hsome]
  have hsink := h.moved hsync (hby.arrived hdelivered)
  have hlater : t.Later { t with replication := { t.replication with rdmaSync := sync } } :=
    ⟨id, fun _ => hsync.prepared hestablished'⟩
  refine Triple.ite (fun _ => Triple.set_bind (Triple.pure (.inr ⟨rfl, hlater, y, hby, hdelivered, hsink⟩)))
    fun _ => ?_
  obtain ⟨c, hc, hid, hcm, hrecv, hprepared, hpending, hsent⟩ := hsync.connection
  have hpoll : sync.connection.bind (·.pollCompletion env) = c.pollCompletion env := by
    rw [hc]
    rfl
  rw [hpoll]
  unfold RdmaConnection.pollCompletion
  rw [if_neg (by simp [hprepared hestablished'])]
  have hfails : ¬env.Completes t.replication.rdmaSync.sendPending (nextPiece x) →
      Triple (set { t with replication := { t.replication with rdmaSync := sync } } >>= fun _ =>
        (return .failed : Serve Streamed)) t (fun r t' =>
      r = .failed ∧
          ¬(env.Grants ∧ env.Completes t.replication.rdmaSync.sendPending (nextPiece x)) ∨
        r = .wait ∧ t.Later t' ∧
          ∃ y, BySink f.file False x y ∧ y.delivered = x.delivered ∧ Sink t' up f y) Never :=
    fun hnot => Triple.set_bind (Triple.pure (.inl ⟨rfl, fun hgood => hnot hgood.2⟩))
  cases hcompletion : env.completion with
  | none => exact hfails (by simp [RdmaAnswers.Completes, hcompletion])
  | some completion =>
    cases completion with
    | none => exact Triple.set_bind (Triple.pure (.inr ⟨rfl, hlater, y, hby, hdelivered, hsink⟩))
    | some completion =>
      cases completion with
      | send =>
        by_cases hset : c.sendPending = true
        · simp only [hset, not_true_eq_false, if_false]
          refine Triple.set_bind (Triple.pure (.inr ⟨rfl, ⟨id, fun _ => hprepared hestablished'⟩, y, hby,
            hdelivered, ?_⟩))
          refine h.moved ⟨⟨_, rfl, hid, hcm, hrecv, hprepared, rfl, hsent⟩, hsync.established,
            (absurd · Bool.false_ne_true), hsync.snapshotBytes, hsync.acknowledgedBytes⟩ (hby.arrived hdelivered)
        · simp only [hset]
          refine hfails ?_
          simp only [RdmaAnswers.Completes, hcompletion]
          rintro (hno | ⟨-, hsend⟩ | ⟨data, hno, -⟩)
          · cases hno
          · obtain ⟨rfl, -⟩ := hidle (.inl hsend)
            rw [hpending, hsend] at hset
            exact hset rfl
          · cases hno
      | recv data => exact absurd ⟨data, hcompletion⟩ hquiet
      | invalid => exact hfails (by simp [RdmaAnswers.Completes, hcompletion])

-- ---------------------------------------------------------------------------
-- A piece
-- ---------------------------------------------------------------------------

theorem Server.applied_installed (h : t.Following up) (hrole : t.role = .replica)
    (hmode : t.persistenceMode = .legacyHybrid) (hholds : t.engines.Hold t.rt.mallocs f.maps)
    (hfile : t.disk .snapshotDb = some f.file) (hlog : AtEnd t .appendonlyAof data)
    (hlength : data.length = f.offset) :
    t.Applied up f.offset f.maps [] f.maps := by
  have hbase : t.disk.Base f.maps f.offset := by
    refine .inr ?_
    rw [hfile]
    exact f.holds
  have hbytes : (t.disk.bytes .appendonlyAof).length = f.offset := by
    rw [← hlength, ← hlog.2]
    rfl
  refine ⟨h, hrole, hmode, rfl, f.sized, hholds, ⟨data, hlength, ?_⟩, ?_, ?_⟩
  · rw [logOf_nil, List.append_nil]
    exact hlog
  · refine ⟨f.maps, f.offset, hbase, ?_⟩
    rw [List.drop_of_length_le (Nat.le_of_eq hbytes)]
    exact .done _
  · intro M o hother
    rw [(hbase.unique hother).2] at hbytes
    exact Nat.le_of_eq hbytes.symm

theorem Server.received_file (t : Server) (file data : Bytes) (n : Nat) :
    (t.received file data n).disk .replicationTemp = some (file ++ data) := by
  change t.disk.write .replicationTemp (file ++ data) .replicationTemp = some (file ++ data)
  rw [Disk.write_self]

theorem Server.committed_file (t : Server) (file : Bytes) :
    (t.committed file).disk .snapshotDb = some file := by
  change (t.disk.unlink .replicationTemp).write .snapshotDb file .snapshotDb = some file
  rw [Disk.write_self]

theorem FileIo.canFail_of_some {io : FileIo} {n : Nat} {failure : FileFailure}
    (h : io.fails n = some failure) : io.CanFail :=
  ⟨n, fun hnone => nomatch hnone.symm.trans h⟩

theorem kvsSnapshotWriterCommit_complete {file : Bytes} (hwriter : t.replication.snapshotWriter = some ⟨0⟩)
    (htemp : t.disk .replicationTemp = some file) :
    Triple kvsSnapshotWriterCommit t
      (fun r t' => r = false ∧ t.CanFail ∨ r = true ∧ t' = t.committed file) Never := by
  have hcan : ∀ {n failure}, t.io.fails n = some failure → t.CanFail :=
    fun hfails => .inr (FileIo.canFail_of_some hfails)
  unfold kvsSnapshotWriterCommit
  refine Triple.get_bind ?_
  rw [hwriter]
  refine Triple.ite (fun hmore => absurd rfl hmore) fun _ => ?_
  refine fileRequest_bind (fun _ => ?_) fun failure hsync => ?_
  · refine fileRequest_bind (fun _ => ?_) fun failure hclose => ?_
    · refine Triple.modify_bind ?_
      rw [if_neg (by simp)]
      refine fileRequest_bind (fun _ => ?_) fun failure hrename => ?_
      · refine Triple.modify_bind (Triple.pure (.inr ⟨rfl, ?_⟩))
        simp only [Server.committed, htemp, Option.getD_some]
      · exact Triple.pure (.inl ⟨rfl, hcan hrename⟩)
    · refine Triple.modify_bind ?_
      rw [if_pos (.inr rfl)]
      exact Triple.pure (.inl ⟨rfl, hcan hclose⟩)
  · have hcan := hcan hsync
    refine fileRequest_bind (fun _ => ?_) fun _ _ => ?_
    all_goals
      refine Triple.modify_bind ?_
      rw [if_pos (.inl rfl)]
      exact Triple.pure (.inl ⟨rfl, hcan⟩)

/-- The whole file has arrived: it is installed, unless memory or a request for a
file fails. -/
theorem kvsReplicationFinishFullSync_complete (hstate : t.replication.state = .fullSync)
    (hwriter : t.replication.snapshotWriter = some ⟨0⟩) (htemp : t.disk .replicationTemp = some f.file)
    (hoffset : t.replication.replicationOffset = f.offset)
    (hlog : t.aofWriter = some writer) (hpath : writer.path = .appendonlyAof) (hring : writer.ring = true)
    (hholds : t.engines.Hold t.rt.mallocs M) :
    Triple kvsReplicationFinishFullSync t (fun r t' => r = false ∧ t.CanFail ∨
      r = true ∧ ∃ rt' E' log io', t.rt.Extends rt' ∧ io'.fails = t.io.fails ∧ E'.Hold rt'.mallocs f.maps ∧
        log.length = f.offset ∧ t' = { t with
          rt := rt', engines := E', io := io'
          disk := ((t.disk.unlink .replicationTemp).write .snapshotDb f.file).write .appendonlyAof log
          aofWriter := some ⟨.appendonlyAof, f.offset, true⟩
          replication := { t.replication with snapshotWriter := none, state := .catchUp } })
      (fun e => e = .exit ∧ t.CanFail) := by
  unfold kvsReplicationFinishFullSync
  refine Triple.get_bind ?_
  rw [if_neg (by simp [hstate, hwriter])]
  refine ((kvsSnapshotWriterCommit_complete hwriter htemp).mono (fun _ _ h => h) fun _ h => h.elim).bind ?_
  rintro _ t₁ (⟨rfl, hcan⟩ | ⟨rfl, rfl⟩)
  · rw [if_neg Bool.false_ne_true]
    exact Triple.modify_bind (Triple.pure (.inl ⟨rfl, hcan⟩))
  rw [if_pos rfl]
  have hfile := t.committed_file f.file
  refine ((kvsInstallReplicationSnapshot_effect (s := t.committed f.file) hholds hlog hring .snapshotDb
    t.replication.replicationOffset).mono (fun _ _ h => h) ?_).bind ?_
  · rintro e (hcan | ⟨-, hno⟩)
    · exact hcan
    · rw [hfile] at hno
      exact absurd f.holds (hno _ _)
  rintro r t₂ (⟨rfl, t₁, M', rfl, hsnapshot, rt', E', rfl, hext, hE'⟩ | ⟨rfl, -, hwhy⟩)
  · rw [if_pos rfl]
    rw [hfile] at hsnapshot
    obtain ⟨rfl, -⟩ := hsnapshot.unique f.holds
    refine Triple.modify_bind (Triple.pure (.inr ⟨rfl, rt', E',
      ftruncate ((t.committed f.file).aofFile .appendonlyAof) f.offset,
      ((t.committed f.file).io.ask (.truncate .appendonlyAof f.offset)).ask (.sync .appendonlyAof),
      hext, rfl, hE', length_ftruncate .., ?_⟩))
    rw [hoffset]
    simp only [Server.resetLog, Server.committed, Server.aofFile, hpath, hring]
  · rw [if_neg Bool.false_ne_true]
    refine Triple.pure (.inl ⟨rfl, ?_⟩)
    obtain hcan | hno := hwhy
    · exact hcan
    · rw [hfile, hoffset] at hno
      exact absurd f.holds (hno _)

theorem kvsSnapshotWriterWrite_piece {file : Bytes} (hwriter : t.replication.snapshotWriter = some ⟨n⟩)
    (htemp : t.disk .replicationTemp = some file) (hdata : data ≠ []) (hle : data.length ≤ n) :
    Triple (kvsSnapshotWriterWrite data) t (fun r t' => r = none ∧ t.CanFail ∨
      r = some data.length ∧ t' = t.received file data (n - data.length)) Never := by
  have hpos := List.length_pos_iff.mpr hdata
  unfold kvsSnapshotWriterWrite
  refine Triple.get_bind ?_
  rw [hwriter]
  dsimp only
  rw [if_neg (by omega), if_neg (by omega), List.take_of_length_le hle, htemp]
  refine fileRequest_bind (fun _ => ?_) fun failure hwrite => ?_
  · exact Triple.modify_bind (Triple.pure (.inr ⟨rfl, rfl⟩))
  · exact Triple.modify_bind (Triple.pure (.inl ⟨rfl, .inr (FileIo.canFail_of_some hwrite)⟩))

theorem Receiver.receives (h : Receiver t up f x) (hvalid : x.Valid f.file)
    (hturn : x.delivered < x.pieces.length) :
    Triple (kvsReplicationReceiveSnapshotData up x.pieces[x.delivered]) t (fun r t' =>
      r = none ∧ t.CanFail ∨ r = some (x.pieces[x.delivered]).length ∧ (t'.CanFail → t.CanFail) ∧
        t'.replication.rdmaSync = t.replication.rdmaSync ∧
        Receiver t' up f { x with delivered := x.delivered + 1 }) (fun e => e = .exit ∧ t.CanFail) := by
  have hne := hvalid.nonempty _ (List.getElem_mem hturn)
  have hpos := List.length_pos_iff.mpr hne
  have hnext : Exchange.arrived { x with delivered := x.delivered + 1 } =
      x.arrived + (x.pieces[x.delivered]).length := Exchange.upTo_succ hturn
  have hbound : Exchange.arrived { x with delivered := x.delivered + 1 } ≤ f.file.length :=
    Nat.le_trans (x.upTo_le_sent _) hvalid.front.length_le
  have htake : f.file.take (Exchange.arrived { x with delivered := x.delivered + 1 }) =
      f.file.take x.arrived ++ x.pieces[x.delivered] := hvalid.take_succ hturn
  have hrest : (f.file.drop x.arrived).length - (x.pieces[x.delivered]).length =
      (f.file.drop (Exchange.arrived { x with delivered := x.delivered + 1 })).length := by
    rw [hnext, List.length_drop, List.length_drop, Nat.sub_sub]
  cases h.receiving with
  | complete _ _ _ hend => omega
  | arriving hstate hwriter htemp hlt =>
    generalize hpiece : x.pieces[x.delivered] = data at *
    have hle : data.length ≤ (f.file.drop x.arrived).length := by
      rw [List.length_drop]
      omega
    unfold kvsReplicationReceiveSnapshotData
    refine Triple.get_bind ?_
    rw [if_neg (by simp [h.initialized, h.replica, h.upstream, hstate, hne])]
    refine ((kvsSnapshotWriterWrite_piece hwriter htemp hne hle).mono (fun _ _ h => h)
      fun _ h => h.elim).bind ?_
    rintro _ t₁ (⟨rfl, hcan⟩ | ⟨rfl, rfl⟩)
    · exact Triple.pure (.inl ⟨rfl, hcan⟩)
    rw [hrest]
    have hfile := t.received_file (f.file.take x.arrived) data
      (f.file.drop (Exchange.arrived { x with delivered := x.delivered + 1 })).length
    rw [← htake] at hfile
    refine Triple.get_bind (Triple.ite (fun hmore => Triple.pure (.inr ⟨rfl, id, rfl, ?_⟩)) fun hlast => ?_)
    · have hlt' : Exchange.arrived { x with delivered := x.delivered + 1 } < f.file.length := by
        simp only [Server.received, Option.any_some, decide_eq_true_eq, List.length_drop] at hmore
        omega
      exact { h with receiving := .arriving hstate rfl hfile hlt' }
    · have hend : Exchange.arrived { x with delivered := x.delivered + 1 } = f.file.length := by
        simp only [Server.received, Option.any_some, decide_eq_true_eq, List.length_drop] at hlast
        omega
      rw [hend, List.take_length, List.drop_length, List.length_nil] at hfile
      rw [hend, List.drop_length, List.length_nil]
      obtain ⟨writer, hlog, hpath, hring⟩ := h.log
      obtain ⟨M, hholds⟩ := h.holds
      refine (kvsReplicationFinishFullSync_complete (t := t.received (f.file.take x.arrived) data 0)
        hstate rfl hfile h.offset hlog hpath hring hholds).bind ?_
      rintro _ t₂ (⟨rfl, hcan⟩ | ⟨rfl, rt', E', log, io', hext, hfails, hE', hlength, rfl⟩)
      · rw [if_neg Bool.false_ne_true]
        exact Triple.pure (.inl ⟨rfl, hcan⟩)
      rw [if_pos rfl]
      have hsnapshot : ((((t.received (f.file.take x.arrived) data 0).disk.unlink .replicationTemp).write
          .snapshotDb f.file).write .appendonlyAof log) .snapshotDb = some f.file := by
        rw [Disk.write_other _ _ (by decide), Disk.write_self]
      have hbytes : (((((t.received (f.file.take x.arrived) data 0).disk.unlink .replicationTemp).write
          .snapshotDb f.file).write .appendonlyAof log) .appendonlyAof).getD [] = log := by
        rw [Disk.write_self, Option.getD_some]
      have hcan : rt'.CanFail ∨ io'.CanFail → t.CanFail := by
        unfold FileIo.CanFail
        rw [hfails]
        exact Or.imp hext.canFail id
      refine Triple.pure (.inr ⟨rfl, hcan, rfl, h.role, h.mode, h.initialized, h.replica, h.upstream,
        h.fullSyncId, h.size, h.offset, ⟨_, rfl, rfl, rfl⟩, ⟨f.maps, hE'⟩, .complete rfl ?_ hsnapshot hend⟩)
      exact Server.applied_installed ⟨h.initialized, h.replica, h.upstream, .inl rfl⟩ h.role h.mode
        hE' hsnapshot ⟨by rw [hlength], hbytes⟩ hlength

theorem Sink.receive (h : Sink t up f x) (hvalid : x.Valid f.file) (hturn : x.delivered < x.pieces.length)
    (hlong : (x.pieces[x.delivered]).length ≤ rdmaBufferCapacity)
    (hc : t.replication.rdmaSync.connection = some c) :
    Triple (upstreamReceive up env x.pieces[x.delivered]) { t with replication := { t.replication with
        rdmaSync := { t.replication.rdmaSync with connection := some { c with recvPending := false } } } }
      (fun r t' => r = .failed ∧ (¬env.Grants ∨ t.CanFail) ∨ r = .wait ∧ t.Later t' ∧
        Sink t' up f { x with delivered := x.delivered + 1 }) (fun e => e = .exit ∧ t.CanFail) := by
  have hne := hvalid.nonempty _ (List.getElem_mem hturn)
  have hpos := List.length_pos_iff.mpr hne
  have hnext : Exchange.arrived { x with delivered := x.delivered + 1 } =
      x.arrived + (x.pieces[x.delivered]).length := Exchange.upTo_succ hturn
  have hbound : Exchange.arrived { x with delivered := x.delivered + 1 } ≤ f.file.length :=
    Nat.le_trans (x.upTo_le_sent _) hvalid.front.length_le
  obtain ⟨_, hc', hid, hcm, hrecv, hprepared, hpending, hsent⟩ := h.sync.connection
  obtain rfl := Option.some.inj (hc.symm.trans hc')
  have hanswers : 0 < x.answers := by
    rw [(hvalid.turn_deliver hturn).2.1]
    exact Nat.succ_pos _
  have hprepared := hprepared (h.sync.established.mpr hanswers)
  have hmoved := h.toReceiver.moved { t.replication.rdmaSync with
    connection := some { c with recvPending := false } } rfl
  unfold upstreamReceive
  refine Triple.get_bind (Triple.ite (fun hguard => ?_) fun _ => ?_)
  · cases h.receiving with
    | complete _ _ _ hend => omega
    | arriving hstate hwriter _ _ =>
      obtain hno | hno | hno | hno := hguard
      · exact absurd hstate hno
      · omega
      · omega
      · simp only [hwriter, Option.map_some, Option.getD_some, List.length_drop] at hno
        omega
  have hreceives : Triple (kvsReplicationReceiveSnapshotData up x.pieces[x.delivered]) { t with
      replication := { t.replication with rdmaSync := { t.replication.rdmaSync with
        connection := some { c with recvPending := false } } } }
      (fun r t' => r = none ∧ t.CanFail ∨ r = some (x.pieces[x.delivered]).length ∧
        (t'.CanFail → t.CanFail) ∧ t'.replication.rdmaSync = { t.replication.rdmaSync with
          connection := some { c with recvPending := false } } ∧
        Receiver t' up f { x with delivered := x.delivered + 1 }) (fun e => e = .exit ∧ t.CanFail) :=
    hmoved.receives hvalid hturn
  refine hreceives.bind ?_
  rintro _ t₁ (⟨rfl, hcan⟩ | ⟨rfl, hspent, hsync, hreceiver⟩)
  · exact Triple.pure (.inl ⟨rfl, .inr hcan⟩)
  simp only [ne_eq, not_true_eq_false, if_false]
  refine Triple.get_bind ?_
  rw [hsync]
  simp only [Option.bind_some]
  by_cases hposted : env.postedRecv = true
  · have hnextRecv : RdmaConnection.receiveNext { c with recvPending := false } env =
        some { c with recvPending := true } := by
      unfold RdmaConnection.receiveNext
      rw [if_neg (by simp [hprepared, hposted])]
    simp only [hnextRecv]
    refine Triple.set_bind (Triple.pure (.inr ⟨rfl, ⟨hspent, fun _ => hprepared⟩, hreceiver.moved _ rfl, ?_⟩))
    refine ⟨⟨_, rfl, hid, hcm, fun _ => rfl, fun _ => hprepared, hpending, hsent⟩, h.sync.established,
      h.sync.pending, ?_, h.sync.acknowledgedBytes⟩
    rw [hnext, ← h.sync.snapshotBytes]
  · have hnextRecv : RdmaConnection.receiveNext { c with recvPending := false } env = none := by
      unfold RdmaConnection.receiveNext
      rw [if_pos (.inr (.inr hposted))]
    simp only [hnextRecv]
    exact Triple.set_bind (Triple.pure (.inl ⟨rfl, .inl fun hgrants => hposted hgrants.postedRecv⟩))

theorem Sink.receives (h : Sink t up f x) (hvalid : x.Valid f.file) (hturn : x.delivered < x.pieces.length)
    (hlong : (x.pieces[x.delivered]).length ≤ rdmaBufferCapacity)
    (hcompletion : env.completion = some (some (.recv x.pieces[x.delivered]))) :
    Triple (upstreamStep up env) t (fun r t' => r = .failed ∧ (¬env.Grants ∨ t.CanFail) ∨
      r = .wait ∧ t.Later t' ∧ Sink t' up f { x with delivered := x.delivered + 1 })
      (fun e => e = .exit ∧ t.CanFail) := by
  obtain ⟨hpieces, hanswers, hheard⟩ := hvalid.turn_deliver hturn
  have hestablished : t.replication.rdmaSync.established = true :=
    h.sync.established.mpr (by rw [hanswers]; exact Nat.succ_pos _)
  obtain ⟨c, hc, -, -, hrecv, hprepared, -, -⟩ := h.sync.connection
  have hprepared := hprepared hestablished
  -- everything that has arrived is acknowledged
  have hacked : t.replication.rdmaSync.acknowledge env = some t.replication.rdmaSync := by
    unfold RdmaSync.acknowledge
    apply if_pos
    right
    rw [h.sync.snapshotBytes, h.sync.acknowledgedBytes, Exchange.answered, hanswers]
    exact Nat.le_refl _
  have hstate : t.replication.state = .fullSync := by
    cases h.receiving with
    | arriving hstate => exact hstate
    | complete _ _ _ hend =>
      have hlt : x.upTo x.delivered < x.upTo (x.delivered + 1) := hvalid.upTo_lt (Nat.lt_succ_self _) hturn
      have hle := Nat.le_trans (x.upTo_le_sent (x.delivered + 1)) hvalid.front.length_le
      unfold Exchange.arrived at hend
      omega
  have hpoll : t.replication.rdmaSync.connection.bind (·.pollCompletion env) =
      some (some (.recv x.pieces[x.delivered], { c with recvPending := false })) := by
    rw [hc, Option.bind_some, RdmaConnection.pollCompletion_recv hprepared (hrecv hprepared) hlong hcompletion]
  unfold upstreamStep
  refine Triple.get_bind ?_
  rw [if_neg (not_not.mpr hestablished), hacked]
  dsimp only
  rw [if_neg (by simp [hstate]), hpoll]
  exact Triple.set_bind (h.receive hvalid hturn hlong hc)

-- ---------------------------------------------------------------------------
-- A poll
-- ---------------------------------------------------------------------------

theorem Sink.poll {Q : Streamed → Server → Prop} {D : Stop → Prop} (h : Sink t up f x)
    (hevent : ¬env.Disconnects) (honce : env.Establishes → t.replication.rdmaSync.established = false)
    (hfails : ¬(env.Grants ∧ capacity ≠ 0 ∧ env.TellsReplica t.replication.rdmaSync ended) → ∀ t', Q .failed t')
    (hstep : ∀ sync y, BySink f.file env.Establishes x y → y.delivered = x.delivered →
      Sink { t with replication := { t.replication with rdmaSync := sync } } up f y →
      t.Later { t with replication := { t.replication with rdmaSync := sync } } →
      (t.replication.rdmaSync.sendPending = true → sync.sendPending = true) →
      Triple (upstreamStep up env) { t with replication := { t.replication with rdmaSync := sync } } Q D) :
    Triple (kvsReplicationUpstreamStream up capacity env) t Q D := by
  obtain ⟨c, hc, -⟩ := h.sync.connection
  have hlater := h.sync.event hc hevent
  unfold kvsReplicationUpstreamStream
  refine Triple.get_bind (Triple.ite (fun hguard => ?_) fun _ => ?_)
  · refine Triple.pure (hfails (fun hgood => hgood.2.1 ?_) _)
    simpa [h.initialized, h.replica, h.upstream] using hguard
  rw [hc]
  dsimp only
  refine Triple.set_bind ?_
  cases hpoll : c.pollEvent env with
  | mk event c' =>
    rw [hpoll] at hlater
    cases event with
    | none =>
      refine Triple.pure (hfails (fun hgood => ?_) _)
      obtain ⟨_, hsome, -⟩ := h.sync.hears hc hgood.1 hgood.2.2
      rw [hpoll] at hsome
      cases hsome
    | some type =>
      obtain ⟨hne, hestablishes, hprepared, hsync⟩ := hlater type rfl
      have hset : t.replication.rdmaSync.connection.any (·.prepared) = true → c'.prepared = true := by
        rw [hc]
        exact hprepared
      have hquiet := hstep _ x (.refl x) rfl (h.moved hsync rfl) ⟨id, hset⟩ fun hpending => hpending
      cases type with
      | none => exact hquiet
      | some type =>
        cases type with
        | disconnected => exact absurd rfl hne
        | accepting => exact hquiet
        | established =>
          have hestablishes := hestablishes rfl
          have hno := honce hestablishes
          dsimp only
          cases hsend : RdmaSync.sendMessage
              { t.replication.rdmaSync with connection := some c', established := true } env
              (readyMessage t.replication.fullSyncId) with
          | none =>
            refine Triple.set_bind (Triple.pure (hfails (fun hgood => ?_) _))
            obtain ⟨type, hsome, htold⟩ := h.sync.hears hc hgood.1 hgood.2.2
            rw [hpoll] at hsome htold
            obtain ⟨hprepared, -⟩ := htold (Option.some.inj hsome).symm
            have hsent := hsync.ready_sent f.isId rfl hprepared hno hgood.1.postedSend
            rw [← h.fullSyncId] at hsent
            exact nomatch hsent.symm.trans hsend
          | some sync =>
            rw [h.fullSyncId] at hsend
            obtain ⟨y, hby, hdelivered, hready, hset⟩ := hsync.ready f.file hno hsend
            have hpending : t.replication.rdmaSync.sendPending = true → sync.sendPending = true := by
              intro hpending
              have hset := h.sync.established.mpr (h.sync.pending hpending)
              rw [hno] at hset
              cases hset
            exact Triple.set_bind (hstep _ y (hby.mono fun _ => hestablishes) hdelivered
              (h.moved hready (hby.arrived hdelivered)) ⟨id, fun _ => hready.prepared hset⟩ hpending)

theorem BySink.nextPiece (h : BySink file told x y) (hdelivered : y.delivered = x.delivered) :
    KvStore.nextPiece y = KvStore.nextPiece x := by
  unfold KvStore.nextPiece
  rw [h.pieces, hdelivered]

theorem RdmaAnswers.Completes.mono {a b : Bool} {next : Option Bytes} (h : env.Completes a next)
    (hab : a = true → b = true) : env.Completes b next := by
  obtain hnone | ⟨hsend, hpending⟩ | hrecv := h
  · exact .inl hnone
  · exact .inr (.inl ⟨hsend, hab hpending⟩)
  · exact .inr (.inr hrecv)

theorem Sink.polls (h : Sink t up f x) (hvalid : x.Valid f.file) (hevent : ¬env.Disconnects)
    (honce : env.Establishes → t.replication.rdmaSync.established = false) (hquiet : ¬env.Receives)
    (capacity : Nat) (ended : Prop) :
    Triple (kvsReplicationUpstreamStream up capacity env) t (fun r t' =>
      r = .failed ∧ ¬(env.Grants ∧ capacity ≠ 0 ∧ env.TellsReplica t.replication.rdmaSync ended ∧
          env.Completes t.replication.rdmaSync.sendPending (nextPiece x)) ∨
        r = .wait ∧ t.Later t' ∧
          ∃ y, BySink f.file env.Establishes x y ∧ y.delivered = x.delivered ∧ Sink t' up f y) Never := by
  refine h.poll hevent honce (fun (hnot : ¬(_ ∧ _ ∧ RdmaAnswers.TellsReplica _ _ ended)) t' => ?_)
    fun sync y hby hdelivered hsink hlater hpending => ?_
  · exact .inl ⟨rfl, fun hgood => hnot ⟨hgood.1, hgood.2.1, hgood.2.2.1⟩⟩
  refine (hsink.step (hvalid.steps hby.steps) hquiet).weaken fun r t' hr => ?_
  obtain ⟨rfl, hnot⟩ | ⟨rfl, hlater', z, hby', hdelivered', hsink'⟩ := hr
  · refine .inl ⟨rfl, fun hgood => hnot ⟨hgood.1, ?_⟩⟩
    rw [hby.nextPiece hdelivered]
    exact hgood.2.2.2.mono hpending
  · exact .inr ⟨rfl, hlater.trans hlater', z, hby.trans (hby'.mono nofun), hdelivered'.trans hdelivered, hsink'⟩

theorem Sink.pollReceives (h : Sink t up f x) (hvalid : x.Valid f.file) (hevent : ¬env.Disconnects)
    (honce : env.Establishes → t.replication.rdmaSync.established = false)
    (hnext : nextPiece x = some data) (hlong : data.length ≤ rdmaBufferCapacity)
    (hcompletion : env.completion = some (some (.recv data))) (capacity : Nat) (ended : Prop) :
    Triple (kvsReplicationUpstreamStream up capacity env) t (fun r t' =>
      r = .failed ∧ (¬(env.Grants ∧ capacity ≠ 0 ∧ env.TellsReplica t.replication.rdmaSync ended) ∨
          t.CanFail) ∨
        r = .wait ∧ t.Later t' ∧
          ∃ y, BySink f.file env.Establishes x y ∧ y.delivered = x.delivered + 1 ∧ Sink t' up f y)
      (fun e => e = .exit ∧ t.CanFail) := by
  refine h.poll hevent honce
    (fun (hnot : ¬(_ ∧ _ ∧ RdmaAnswers.TellsReplica _ _ ended)) t' => .inl ⟨rfl, .inl hnot⟩)
    fun sync y hby hdelivered hsink hlater _ => ?_
  have hnext : nextPiece y = some data := (hby.nextPiece hdelivered).trans hnext
  unfold nextPiece at hnext
  obtain ⟨hturn, rfl⟩ := List.getElem?_eq_some_iff.mp hnext
  refine (hsink.receives (hvalid.steps hby.steps) hturn hlong hcompletion).weaken fun r t' hr => ?_
  obtain ⟨rfl, hnot⟩ | ⟨rfl, hlater', hsink'⟩ := hr
  · exact .inl ⟨rfl, hnot.imp_left fun hnot hgood => hnot hgood.1⟩
  · refine .inr ⟨rfl, hlater.trans hlater', _, hby.trans ⟨.single (.deliver hturn), rfl, rfl, .inl⟩, ?_, hsink'⟩
    rw [← hdelivered]

/-- A poll that is told of the end of the connection: it fails unless the replica
has the whole file and has said so. -/
theorem Sink.closes (h : Sink t up f x) (hvalid : x.Valid f.file) (hevent : env.Disconnects)
    (capacity : Nat) (ended : Prop) :
    Triple (kvsReplicationUpstreamStream up capacity env) t (fun r t' =>
      r = .failed ∧ ¬(env.Grants ∧ capacity ≠ 0 ∧ env.TellsReplica t.replication.rdmaSync ended ∧
          x.answered = f.file.length) ∨
        r = .sent [] ∧ t.replication.state = .catchUp ∧
          t' = { t with replication := { t.replication with rdmaSync := .start } }) Never := by
  obtain ⟨c, hc, hid, hcm, -, hestablished, -, -⟩ := h.sync.connection
  obtain ⟨event, hcmEvent, hdisconnected⟩ := hevent
  have hresult : ∀ type ∈ (c.pollEvent env).1,
      type = some .disconnected ∧ (c.pollEvent env).2.prepared = c.prepared := by
    unfold RdmaConnection.pollEvent
    split
    · exact nofun
    · simp only [hcmEvent]
      by_cases hown : event.id ≠ c.cmId
      · rw [if_pos hown]
        dsimp only
        split <;> exact nofun
      · rw [if_neg hown]
        by_cases hacked : env.acked = true
        · rw [if_pos hacked]
          unfold RdmaConnection.handleEvent
          by_cases hok : ¬event.ok = true
          · rw [if_pos hok]
            exact nofun
          · rw [if_neg hok, hdisconnected]
            rintro type ⟨⟩
            exact ⟨rfl, rfl⟩
        · rw [if_neg hacked]
          exact nofun
  unfold kvsReplicationUpstreamStream
  refine Triple.get_bind (Triple.ite (fun hguard => ?_) fun _ => ?_)
  · refine Triple.pure (.inl ⟨rfl, fun hgood => hgood.2.1 ?_⟩)
    simpa [h.initialized, h.replica, h.upstream] using hguard
  rw [hc]
  dsimp only
  refine Triple.set_bind ?_
  cases hpoll : c.pollEvent env with
  | mk type c' =>
    rw [hpoll] at hresult
    cases type with
    | none =>
      refine Triple.pure (.inl ⟨rfl, fun hgood => ?_⟩)
      obtain ⟨_, hsome, -⟩ := h.sync.hears hc hgood.1 hgood.2.2.1
      rw [hpoll] at hsome
      cases hsome
    | some type =>
      obtain ⟨rfl, hprepared⟩ := hresult type rfl
      refine Triple.ite (fun hbad => Triple.pure (.inl ⟨rfl, fun hgood => ?_⟩)) fun hgood => ?_
      · -- the replica is up to date: it can end the connection
        obtain ⟨hgrants, -, -, hanswered⟩ := hgood
        cases h.receiving with
        | arriving _ _ _ hlt =>
          have hordered := hvalid.ordered
          omega
        | complete hstate _ _ hend =>
          have hpos : 0 < x.answers := by
            apply Nat.pos_of_ne_zero
            intro hzero
            have hfile := f.file_pos
            rw [← hanswered, Exchange.answered, hzero] at hfile
            exact absurd hfile (Nat.lt_irrefl 0)
          have hprepared := hprepared.trans (hestablished (h.sync.established.mpr hpos))
          obtain hno | hno | hno | hno := hbad
          · exact hno hstate
          · rw [h.sync.snapshotBytes, h.size, hend] at hno
            exact hno rfl
          · rw [h.sync.snapshotBytes, h.sync.acknowledgedBytes, hend] at hno
            exact hno hanswered
          · rw [RdmaConnection.disconnect, hprepared, hgrants.disconnected] at hno
            exact hno rfl
      · have hstate : t.replication.state = .catchUp := not_not.mp fun hno => hgood (.inl hno)
        dsimp only
        unfold RdmaSync.close
        dsimp only
        cases hclose : (some c').bind (·.close env) with
        | some c'' =>
          refine Triple.set_bind (Triple.pure (.inl ⟨rfl, fun hgood => ?_⟩))
          rw [Option.bind_some, RdmaConnection.close_granted hgood.1] at hclose
          cases hclose
        | none => exact Triple.set_bind (Triple.pure (.inr ⟨rfl, hstate, rfl⟩))

/-- A poll that is granted what it asks for, and told what it can be told, does not
fail. -/
theorem Sink.serves (h : Sink t up f x) (hvalid : x.Valid f.file)
    (hlong : ∀ piece ∈ x.pieces, piece.length ≤ rdmaBufferCapacity) (hgood : ¬t.CanFail)
    (hgrants : env.Grants) (hcapacity : capacity ≠ 0) (htold : env.TellsReplica t.replication.rdmaSync ended)
    (hended : ended → x.answered = f.file.length)
    (hcompletes : env.Completes t.replication.rdmaSync.sendPending (nextPiece x)) :
    ∃ r t', kvsReplicationUpstreamStream up capacity env t = .ok (r, t') ∧ r ≠ .failed := by
  by_cases hevent : env.Disconnects
  · have hanswered : x.answered = f.file.length := by
      obtain ⟨event, hcm, hdisconnected⟩ := hevent
      cases htold with
      | nothing hcm' => cases hcm'.symm.trans hcm
      | addrResolved _ hcm' | routeResolved _ hcm' | established _ hcm' =>
        cases hcm'.symm.trans hcm
        cases hdisconnected
      | disconnected _ _ h => exact hended h
    obtain ⟨r, t', hrun, ⟨-, hnot⟩ | ⟨rfl, -⟩⟩ := (h.closes hvalid hevent capacity ended).run
    · exact absurd ⟨hgrants, hcapacity, htold, hanswered⟩ hnot
    · exact ⟨_, t', hrun, nofun⟩
  have honce : env.Establishes → t.replication.rdmaSync.established = false := by
    rintro ⟨event, hcm, hestablished⟩
    cases htold with
    | nothing hcm' => cases hcm'.symm.trans hcm
    | addrResolved _ hcm' | routeResolved _ hcm' | disconnected _ hcm' =>
      cases hcm'.symm.trans hcm
      cases hestablished
    | established _ _ _ hno => exact hno
  by_cases harrives : env.Receives
  · obtain ⟨data, hdata⟩ := harrives
    have hnext : nextPiece x = some data := by
      obtain hno | ⟨hno, -⟩ | ⟨data', hdata', hnext⟩ := hcompletes
      · rw [hno] at hdata
        cases hdata
      · rw [hno] at hdata
        cases hdata
      · rw [hdata'] at hdata
        cases hdata
        exact hnext
    have hpoll := h.pollReceives hvalid hevent honce hnext (hlong data (List.mem_of_getElem? hnext)) hdata
      capacity ended
    obtain ⟨r, t', hrun, ⟨-, hnot | hcan⟩ | ⟨rfl, -⟩⟩ := (hpoll.mono (fun _ _ h => h) fun _ h => hgood h.2).run
    · exact absurd ⟨hgrants, hcapacity, htold⟩ hnot
    · exact absurd hcan hgood
    · exact ⟨_, t', hrun, nofun⟩
  · obtain ⟨r, t', hrun, ⟨-, hnot⟩ | ⟨rfl, -⟩⟩ := (h.polls hvalid hevent honce harrives capacity ended).run
    · exact absurd ⟨hgrants, hcapacity, htold, hcompletes⟩ hnot
    · exact ⟨_, t', hrun, nofun⟩

theorem kvsReplicationUpstreamStream_closed (hnone : t.replication.rdmaSync.connection = none)
    (capacity : Nat) (env : RdmaAnswers) :
    Triple (kvsReplicationUpstreamStream up capacity env) t (fun _ t' => t' = t) Never := by
  unfold kvsReplicationUpstreamStream
  refine Triple.get_bind (Triple.ite (fun _ => Triple.pure rfl) fun _ => ?_)
  rw [hnone]
  exact Triple.pure rfl

section
variable {fields : List Bytes} {output : OutputBuffer} {executed : Executed}

theorem kvsExecuteFields_offline (hrole : t.role = .replica) (hstate : t.replication.state ≠ .online)
    (hrun : kvsExecuteFields fields output .client t = .ok (executed, t')) :
    ∃ rt', t' = { t with rt := rt' } := by
  have hspared := (kvsExecuteFields_spared hrole fields output).post hrun
  cases hspared with
  | memory rt' => exact ⟨rt', rfl⟩
  | saved rt' file honline =>
    unfold Server.isOnline at honline
    simp [hstate] at honline

theorem Sink.command (h : Sink t up f x) (hready : output.Ready)
    (hrun : kvsExecuteFields fields output .client t = .ok (executed, t')) :
    Sink t' up f x ∧ t'.replication = t.replication := by
  have hoffline : t.replication.state ≠ .online := by
    cases h.receiving with
    | arriving hstate => simp [hstate]
    | complete hstate => simp [hstate]
  obtain ⟨rt', rfl⟩ := kvsExecuteFields_offline h.role hoffline hrun
  obtain ⟨writer, hlog, hpath, -⟩ := h.log
  obtain ⟨M, hholds⟩ := h.holds
  have hroom := hready.room
  unfold bufferLength at hroom
  obtain ⟨_, houtcome, -⟩ := (kvsExecuteFields_effect hholds (fun _ => by rw [hlog]; rfl) (by omega)
    (by omega)).post hrun
  have hext : t.rt.Extends rt' := houtcome.extends
  have hreceiving : Receiving { t with rt := rt' } up f x := by
    cases h.receiving with
    | arriving hstate hwriter htemp hlt => exact .arriving hstate hwriter htemp hlt
    | complete hstate happlied hfile hend =>
      exact .complete hstate (happlied.read f.holds.offset_le hready hrun).1 hfile hend
  exact ⟨{ h with
    holds := ⟨M, hholds.later hext.mallocs⟩
    receiving := hreceiving }, rfl⟩

end

end

end KvStore
