import KvStore.Replication.Link

/-!
# A synchronisation can always go on

While the primary has not asked for the end of the connection, there is a poll,
told no more than the connection managers can tell, that brings the end nearer:
what has to be done is counted in `Linked.work`.
-/

namespace KvStore

open Lib

def RdmaAnswers.granting (event : Option CmEvent) (completion : Option Completion) : RdmaAnswers where
  expired := false
  ownerMemory := true
  chunkMemory := true
  cmEvent := some event
  acked := true
  prepared := true
  submitted := true
  rejected := true
  teardown := .done
  postedSend := true
  postedRecv := true
  disconnected := true
  completion := some completion

def RdmaSync.primaryWork (sync : RdmaSync) : Nat :=
  (!sync.established).toNat + sync.sendPending.toNat + (!sync.disconnectPending).toNat

/-- What is left of a synchronisation once it is connected. -/
def Transfer.work (p : Transfer) (f : FullSync) : Nat :=
  p.exchange.work f.file + p.primary.replication.rdmaSync.primaryWork +
    p.replica.replication.rdmaSync.sendPending.toNat

def Link.rank : Link → Nat
  | .address => 4
  | .route => 3
  | .request => 2
  | .accepted => 1
  | .closed => 0

def Linked.work (p : Linked) (f : FullSync) : Nat := p.transfer.work f + p.link.rank

def Transfer.PrimaryAdvances (p : Transfer) (fd : Nat) (f : FullSync) (event : Option CmEvent) : Prop :=
  ∃ env q, env.cmEvent = some event ∧ p.PrimaryPolls fd env q ∧ q.work f < p.work f

def Transfer.ReplicaAdvances (p : Transfer) (up : Nat) (f : FullSync) (event : Option CmEvent) : Prop :=
  ∃ env q, env.cmEvent = some event ∧ p.ReplicaPolls up env q ∧ q.work f < p.work f

/-- In the exchange, with a replica whose requests succeed from here on. -/
def Transfer.Serves (p : Transfer) (fd up : Nat) (f : FullSync) (base : Bytes) (records : List (List Bytes)) :
    Prop :=
  ¬p.replica.CanFail ∧ ∃ x, p.At fd up f base records x

/-- Some poll leaves less, and makes nothing fail that did not. -/
def Linked.Advances (p : Linked) (fd up : Nat) (f : FullSync) (base : Bytes) (records : List (List Bytes)) :
    Prop :=
  ∃ q, p.Step fd up q ∧ q.transfer.Serves fd up f base records ∧ q.work f < p.work f

section
variable {p q : Transfer} {s s' t t' : Server} {m m' : ReplicationManager} {f : FullSync}
  {x y : Exchange UInt8} {c c' : RdmaConnection} {fd up capacity got : Nat} {env : RdmaAnswers} {base : Bytes}
  {records : List (List Bytes)} {disk : Disk} {latest : Option Nat}
  {sync sync' : RdmaSync} {told : Prop}

theorem granting_grants (event : Option CmEvent) (completion : Option Completion) :
    (RdmaAnswers.granting event completion).Grants :=
  ⟨rfl, rfl, rfl, rfl, rfl, rfl, rfl, rfl, rfl, rfl, rfl⟩

theorem granting_idle (event : Option CmEvent) : ¬(RdmaAnswers.granting event none).Receives := by
  rintro ⟨data, hdata⟩
  cases hdata

theorem granting_sent (event : Option CmEvent) : ¬(RdmaAnswers.granting event (some .send)).Receives := by
  rintro ⟨data, hdata⟩
  cases hdata

theorem granting_quiet (completion : Option Completion) :
    ¬(RdmaAnswers.granting none completion).Disconnects := by
  rintro ⟨event, hcm, -⟩
  cases hcm

theorem Transfer.At.syncing (h : p.At fd up f base records x)
    (hc : p.replica.replication.rdmaSync.connection = some c) : p.exchange = x ∧ Sink p.replica up f x := by
  cases h.replica with
  | syncing hexchange hsink => exact ⟨hexchange, hsink⟩
  | closed _ _ _ hnone => cases hnone.symm.trans hc

-- ---------------------------------------------------------------------------
-- The primary
-- ---------------------------------------------------------------------------

theorem Source.poll_event (h : Source s.replication fd f x) (hevent : ¬env.Disconnects)
    (hcapacity : capacity ≠ 0) (hrun : fullSyncEvent s.disk s.aofOffset env s.replication = (true, m))
    (got : Nat) : kvsReplicationStream fd capacity got env s =
      .ok ((fullSyncStep env got m).1, { s with replication := (fullSyncStep env got m).2 }) := by
  obtain ⟨r, s', hpoll, ⟨hstops, -⟩ | ⟨m', hevent', -, -, rfl, rfl⟩⟩ := (h.poll hevent capacity got).run
  · rw [hrun] at hstops
    obtain hzero | hfalse := hstops
    · exact absurd hzero hcapacity
    · cases hfalse
  · rw [hrun] at hevent'
    obtain rfl := (Prod.mk.inj hevent').2
    exact hpoll

theorem Transfer.At.primaryPoll (h : p.At fd up f base records x) (hevent : ¬env.Disconnects)
    (hquiet : ¬env.Receives) (hrun : fullSyncEvent p.primary.disk p.primary.aofOffset env
      p.primary.replication = (true, m)) (hstep : fullSyncStep env 1 m = (.wait, m'))
    (hmessages : m'.rdmaSync.messages = p.primary.messages) :
    ∃ q, p.PrimaryPolls fd env q ∧
      q.work f + p.primary.replication.rdmaSync.primaryWork = p.work f + m'.rdmaSync.primaryWork := by
  have hpoll := h.source.poll_event hevent Nat.one_ne_zero hrun 1
  rw [hstep] at hpoll
  refine ⟨_, .quiet hquiet hpoll Streamed.wait_ne, ?_⟩
  have hsame : Transfer.exchange { p with primary := { p.primary with replication := m' } } = p.exchange := by
    unfold Transfer.exchange
    rw [← hmessages]
    rfl
  unfold Transfer.work
  rw [hsame]
  dsimp only
  omega

theorem Transfer.At.primaryMoves (h : p.At fd up f base records x) (hexchange : p.exchange = x)
    (hopen : p.primary.replication.rdmaSync.disconnectPending = false) (hsteps : Exchange.Steps f.file x y)
    (hne : y ≠ x) (hdelivered : y.delivered = x.delivered) (hanswers : y.answers = x.answers)
    (hheard : q.primaryGot = y.heard) (hsource : Source q.primary.replication fd f y) (hpos : 0 < y.heard)
    (hreplica : q.replica = p.replica) (hgot : q.replicaGot = p.replicaGot) : q.work f < p.work f := by
  obtain hsame | hless := h.valid.work_steps hsteps
  · exact absurd hsame hne
  have hq : q.exchange = y := by
    apply Exchange.ext
    · exact hsource.messages
    · rw [hdelivered, ← hexchange]
      exact hgot
    · rw [hanswers, ← hexchange]
      unfold Transfer.exchange
      rw [hreplica]
    · exact hheard
  have hestablished := (hsource.started hpos).2
  have hbefore : 1 ≤ p.primary.replication.rdmaSync.primaryWork := by
    unfold RdmaSync.primaryWork
    rw [hopen]
    exact Nat.le_add_left ..
  have hafter : q.primary.replication.rdmaSync.primaryWork ≤ 2 := by
    unfold RdmaSync.primaryWork
    rw [hestablished]
    have hsend := Bool.toNat_le q.primary.replication.rdmaSync.sendPending
    have hdisconnect := Bool.toNat_le !q.primary.replication.rdmaSync.disconnectPending
    simp only [Bool.not_true, Bool.toNat_false]
    omega
  unfold Transfer.work
  rw [hq, hexchange, hreplica]
  omega

theorem Transfer.At.accepts (h : p.At fd up f base records x)
    (hnone : p.primary.replication.rdmaSync.connection = none) :
    ∃ env q, env.cmEvent = some (some ⟨.connectRequest, some 0, true, true⟩) ∧
      p.PrimaryPolls fd env q ∧ q.work f = p.work f := by
  have hestablished : ¬p.primary.replication.rdmaSync.established = true := by
    intro hset
    have hsome := h.source.established hset
    rw [hnone] at hsome
    cases hsome
  have hrun : fullSyncEvent p.primary.disk p.primary.aofOffset
      (.granting (some ⟨.connectRequest, some 0, true, true⟩) none) p.primary.replication =
      (true, { p.primary.replication with rdmaSync := { p.primary.replication.rdmaSync with
        connection := some { RdmaConnection.blank with
          cmId := some 0, prepared := true, recvPending := true } } }) := by
    unfold fullSyncEvent
    rw [if_neg (by simp [h.source.cleanup]), hnone]
    rfl
  obtain ⟨q, hpoll, hwork⟩ := h.primaryPoll (by rintro ⟨_, ⟨⟩, hno⟩; cases hno)
    (granting_idle _) hrun (if_pos (.inr hestablished)) (by
      unfold Server.messages RdmaSync.messages
      rw [hnone]
      rfl)
  exact ⟨_, q, rfl, hpoll, Nat.add_right_cancel hwork⟩

theorem Transfer.At.establishes (h : p.At fd up f base records x)
    (hc : p.primary.replication.rdmaSync.connection = some c)
    (hno : p.primary.replication.rdmaSync.established = false)
    (hopen : p.primary.replication.rdmaSync.disconnectPending = false) :
    p.PrimaryAdvances fd f (some ⟨.established, c.cmId, false, true⟩) := by
  obtain ⟨hprepared, -⟩ := h.source.connection c hc
  have hzero : x.heard = 0 := by
    apply Nat.eq_zero_of_not_pos
    intro hpos
    rw [(h.source.started hpos).2] at hno
    cases hno
  have hsent : p.primary.replication.rdmaSync.snapshotBytes = 0 := by
    have hpieces := h.valid.pieces_le
    rw [hzero] at hpieces
    rw [h.source.snapshotBytes, Exchange.sent, List.length_eq_zero_iff.mp (Nat.le_zero.mp hpieces)]
    rfl
  let event : CmEvent := ⟨.established, c.cmId, false, true⟩
  let m : ReplicationManager := { p.primary.replication with rdmaSync := { p.primary.replication.rdmaSync with
    connection := some { c with deadline := false }, established := true } }
  have hpoll : kvsRdmaListenerPoll (.granting (some event) none) (some c) =
      ⟨some (some .established), some { c with deadline := false }, none⟩ :=
    h.source.poll_own (granting_grants ..) hc rfl CmEventType.noConfusion rfl
  have hrun : fullSyncEvent p.primary.disk p.primary.aofOffset (.granting (some event) none)
      p.primary.replication = (true, m) := by
    unfold fullSyncEvent
    rw [if_neg (by simp [h.source.cleanup]), hc, hpoll]
  have hstep : fullSyncStep (.granting (some event) none) 1 m = (.wait, m) := by
    unfold fullSyncStep
    have hwaits : ¬(m.rdmaSync.disconnectPending = true ∨ ¬m.rdmaSync.established = true) :=
      not_or.mpr ⟨Bool.eq_false_iff.mp hopen, not_not.mpr rfl⟩
    have hzero : ¬0 < m.rdmaSync.snapshotBytes := Nat.not_lt.mpr (Nat.le_of_eq hsent)
    dsimp only
    rw [if_neg hwaits, if_neg fun hdue => hzero hdue.2.1]
    have hcompletion : m.rdmaSync.connection.bind (·.pollCompletion (.granting (some event) none)) =
        some none := by
      dsimp only [m]
      rw [Option.bind_some]
      exact RdmaConnection.pollCompletion_nothing hprepared rfl
    rw [hcompletion]
  obtain ⟨q, hpoll, hwork⟩ := h.primaryPoll (by rintro ⟨_, ⟨⟩, hno⟩; cases hno)
    (granting_idle _) hrun hstep (by
      unfold Server.messages RdmaSync.messages
      rw [hc]
      rfl)
  refine ⟨_, q, rfl, hpoll, ?_⟩
  simp only [RdmaSync.primaryWork, m, hno, Bool.not_true, Bool.not_false, Bool.toNat_false,
    Bool.toNat_true] at hwork
  omega

theorem Transfer.At.sendCompletes (h : p.At fd up f base records x)
    (hc : p.primary.replication.rdmaSync.connection = some c)
    (hestablished : p.primary.replication.rdmaSync.established = true)
    (hopen : p.primary.replication.rdmaSync.disconnectPending = false)
    (hpending : p.primary.replication.rdmaSync.sendPending = true) : p.PrimaryAdvances fd f none := by
  obtain ⟨hprepared, -, hsend, hcm⟩ := h.source.connection c hc
  rw [hpending] at hsend
  have hrun := h.source.event_quiet (granting_grants none (some .send)) rfl p.primary.disk p.primary.aofOffset
  have hstep : fullSyncStep (.granting none (some .send)) 1 p.primary.replication =
      (.wait, { p.primary.replication with rdmaSync := { p.primary.replication.rdmaSync with
        connection := some { c with sendPending := false }, sendPending := false } }) := by
    have hcompletion : p.primary.replication.rdmaSync.connection.bind
        (·.pollCompletion (.granting none (some .send))) =
        some (some (.send, { c with sendPending := false })) := by
      rw [hc, Option.bind_some, RdmaConnection.pollCompletion_send hprepared hsend rfl]
    unfold fullSyncStep
    dsimp only
    rw [if_neg (by simp [hopen, hestablished]), if_neg (by simp [hpending]), hcompletion]
  obtain ⟨q, hpoll, hwork⟩ := h.primaryPoll (granting_quiet _) (granting_sent _) hrun
    hstep (by
      unfold Server.messages RdmaSync.messages
      rw [hc]
      rfl)
  refine ⟨_, q, rfl, hpoll, ?_⟩
  simp only [RdmaSync.primaryWork, hpending, Bool.toNat_false, Bool.toNat_true] at hwork
  omega

theorem Transfer.At.hears (h : p.At fd up f base records x)
    (hc : p.replica.replication.rdmaSync.connection = some c)
    (hestablished : p.primary.replication.rdmaSync.established = true)
    (hopen : p.primary.replication.rdmaSync.disconnectPending = false)
    (hturn : x.heard < x.answers) : p.PrimaryAdvances fd f none := by
  obtain ⟨hexchange, hsink⟩ := h.syncing hc
  let env := RdmaAnswers.granting none (some (.recv (syncAnswer f.id x x.heard)))
  have hnext : nextAnswer f.id x = some (syncAnswer f.id x x.heard) := if_pos hturn
  have hmessage : p.replica.messages[p.primaryGot]? = some (syncAnswer f.id x x.heard) := by
    rw [← hnext, ← syncAnswers_next, ← hsink.sync.messages, ← hexchange]
    rfl
  obtain ⟨s', hrun⟩ := h.source.serves h.valid (granting_grants .. : env.Grants) (.nothing rfl)
    (.inr (.inr ⟨_, rfl, hnext⟩)) Nat.one_ne_zero 1
  have hasks : kvsReplicationStream fd 1 1 { env with completion := none } p.primary =
      .ok (.failed, p.primary) := by
    have hgrants : RdmaAnswers.Grants { env with completion := none } :=
      ⟨rfl, rfl, rfl, rfl, rfl, rfl, rfl, rfl, rfl, rfl, rfl⟩
    have hquiet := h.source.event_quiet hgrants rfl p.primary.disk p.primary.aofOffset
    have hstep : fullSyncStep { env with completion := none } 1 p.primary.replication =
        (.failed, p.primary.replication) := by
      have hdue := h.source.waits h.valid hturn
      have hcompletion : p.primary.replication.rdmaSync.connection.bind
          (·.pollCompletion { env with completion := none }) = none := by
        cases hc : p.primary.replication.rdmaSync.connection with
        | none => rfl
        | some c =>
          rw [Option.bind_some, RdmaConnection.pollCompletion_fails rfl]
      unfold fullSyncStep
      dsimp only
      rw [if_neg (by simp [hopen, hestablished]), if_neg hdue, hcompletion]
    rw [h.source.poll_event (by rintro ⟨event, hcm, -⟩; cases hcm) Nat.one_ne_zero hquiet 1, hstep]
  obtain ⟨m, y, rfl, hsteps, hdelivered, hanswers, hheard, hsource⟩ :=
    h.source.pollReceives h.valid (granting_quiet _) hnext rfl hasks hrun Streamed.wait_ne
  refine ⟨_, _, rfl, .takes hmessage rfl hasks hrun Streamed.wait_ne, ?_⟩
  have hgot : p.primaryGot + 1 = y.heard := by
    rw [hheard, ← hexchange]
    rfl
  refine h.primaryMoves hexchange hopen hsteps ?_ hdelivered hanswers hgot hsource (by omega) rfl rfl
  rintro rfl
  omega

theorem Transfer.At.due (h : p.At fd up f base records x)
    (hd : p.replica.replication.rdmaSync.connection = some c')
    (hestablished : p.primary.replication.rdmaSync.established = true)
    (hopen : p.primary.replication.rdmaSync.disconnectPending = false)
    (hidle : p.primary.replication.rdmaSync.sendPending = false) (hpos : 0 < x.sent)
    (hconfirmed : x.confirmed = x.sent) : p.PrimaryAdvances fd f none := by
  obtain ⟨hexchange, -⟩ := h.syncing hd
  obtain ⟨c, hc⟩ := Option.isSome_iff_exists.mp (h.source.established hestablished)
  obtain ⟨hprepared, -, -, -⟩ := h.source.connection c hc
  have hreader := h.source.reader hopen
  have hwaits : ¬(p.primary.replication.rdmaSync.disconnectPending = true ∨
      ¬p.primary.replication.rdmaSync.established = true) := by
    simp [hopen, hestablished]
  have hdue : ¬p.primary.replication.rdmaSync.sendPending = true ∧
      0 < p.primary.replication.rdmaSync.snapshotBytes ∧
      p.primary.replication.rdmaSync.acknowledgedBytes = p.primary.replication.rdmaSync.snapshotBytes ∧
      p.primary.replication.snapshotReader.isSome = true := by
    refine ⟨Bool.eq_false_iff.mp hidle, ?_, ?_, by rw [hreader]; rfl⟩
    · rw [h.source.snapshotBytes]
      exact hpos
    · rw [h.source.snapshotBytes, h.source.acknowledgedBytes]
      exact hconfirmed
  have hrun := h.source.event_quiet (granting_grants none none) rfl p.primary.disk p.primary.aofOffset
  by_cases hleft : f.file.drop x.sent = []
  · have hnone : ¬p.primary.replication.snapshotReader.any (fun r => decide (0 < r.remaining)) = true := by
      simp [hreader, hleft]
    have hdisconnect : p.primary.replication.rdmaSync.connection.any
        (·.disconnect (.granting none none)) = true := by
      rw [hc, Option.any_some, RdmaConnection.disconnect, hprepared]
      rfl
    have hstep : fullSyncStep (.granting none none) 1 p.primary.replication =
        (.wait, { p.primary.replication with
          rdmaSync := { p.primary.replication.rdmaSync with disconnectPending := true }
          snapshotReader := none }) := by
      unfold fullSyncStep
      dsimp only
      rw [if_neg hwaits, if_pos hdue, if_neg hnone, if_pos hdisconnect]
    obtain ⟨q, hpoll, hwork⟩ := h.primaryPoll (granting_quiet _) (granting_idle _)
      hrun hstep rfl
    refine ⟨_, q, rfl, hpoll, ?_⟩
    simp only [RdmaSync.primaryWork, hopen, Bool.not_true, Bool.not_false, Bool.toNat_false,
      Bool.toNat_true] at hwork
    omega
  · have hsome : p.primary.replication.snapshotReader.any (fun r => decide (0 < r.remaining)) = true := by
      rw [hreader]
      simpa using List.length_pos_iff.mpr hleft
    have hstep : fullSyncStep (.granting none none) 1 p.primary.replication =
        sendSnapshotChunk (.granting none none) 1 p.primary.replication := by
      unfold fullSyncStep
      dsimp only
      rw [if_neg hwaits, if_pos hdue, if_pos hsome]
    obtain ⟨chunk, hne, hflatten, hsends, -⟩ :=
      h.source.sendChunk h.valid hconfirmed hopen hestablished hidle hc hleft (.granting none none) 1
    obtain ⟨hwait, hsource⟩ := hsends ⟨rfl, rfl⟩
    have hpoll := h.source.poll_event (granting_quiet none) Nat.one_ne_zero hrun 1
    rw [hstep, hwait] at hpoll
    have hturn := h.valid.turn_send hpos hconfirmed
    have hheard : x.heard = x.pieces.length + 1 := by
      have hle := h.valid.heard_le
      have hanswers := h.valid.answers_le
      have hdelivered := h.valid.delivered_le
      omega
    rw [← hheard] at hsource
    refine ⟨_, _, rfl, .quiet (granting_idle _) hpoll Streamed.wait_ne, ?_⟩
    refine h.primaryMoves hexchange hopen (.single (.send hturn hne hflatten)) ?_ rfl rfl ?_ hsource
      (Nat.lt_of_le_of_lt (Nat.zero_le _) hturn) rfl rfl
    · intro hsame
      have hlength := congrArg (·.pieces.length) hsame
      simp at hlength
    · rw [← hexchange]
      rfl

-- ---------------------------------------------------------------------------
-- The replica
-- ---------------------------------------------------------------------------

theorem pollEvent_granting {event : CmEvent} {completion : Option Completion} (hid : c.cmId.isSome)
    (hcm : c.pendingCmEvent = false) (hown : event.id = c.cmId) :
    c.pollEvent (.granting (some event) completion) =
      c.handleEvent (.granting (some event) completion) true event := by
  have hgoesOn : ¬(c.cmId = none ∨ c.pendingCmEvent = true ∨
      c.deadline = true ∧ (RdmaAnswers.granting (some event) completion).expired = true) := by
    rintro (hnone | hpending | ⟨-, hexpired⟩)
    · rw [hnone] at hid
      cases hid
    · rw [hcm] at hpending
      cases hpending
    · cases hexpired
  unfold RdmaConnection.pollEvent
  rw [if_neg hgoesOn]
  simp [RdmaAnswers.granting, hown]

theorem Sink.poll_event {Q : Streamed → Server → Prop} (h : Sink t up f x)
    (hc : t.replication.rdmaSync.connection = some c) (hpoll : c.pollEvent env = (some none, c'))
    (hstep : Triple (upstreamStep up env) { t with replication := { t.replication with
      rdmaSync := { t.replication.rdmaSync with connection := some c' } } } Q Never) :
    Triple (kvsReplicationUpstreamStream up 1 env) t Q Never := by
  unfold kvsReplicationUpstreamStream
  refine Triple.get_bind ?_
  rw [if_neg (by simp [h.initialized, h.replica, h.upstream]), hc]
  dsimp only
  rw [hpoll]
  exact Triple.set_bind hstep

theorem upstreamStep_quiet (hestablished : t.replication.rdmaSync.established = true)
    (hack : t.replication.rdmaSync.acknowledge env = some sync)
    (hprepared : ∀ c ∈ sync.connection, c.prepared = true) (hsome : sync.connection.isSome)
    (hcompletion : env.completion = some none) :
    Triple (upstreamStep up env) t (fun r t' => r = .wait ∧
      t' = { t with replication := { t.replication with rdmaSync := sync } }) Never := by
  obtain ⟨c, hc⟩ := Option.isSome_iff_exists.mp hsome
  have hpoll : sync.connection.bind (·.pollCompletion env) = some none := by
    rw [hc, Option.bind_some, RdmaConnection.pollCompletion_nothing (hprepared c hc) hcompletion]
  unfold upstreamStep
  refine Triple.get_bind ?_
  rw [if_neg (not_not.mpr hestablished), hack]
  refine Triple.ite (fun _ => Triple.set_bind (Triple.pure ⟨rfl, rfl⟩)) fun _ => ?_
  rw [hpoll]
  exact Triple.set_bind (Triple.pure ⟨rfl, rfl⟩)

theorem acknowledge_due (hidle : sync.sendPending = false)
    (hbehind : sync.acknowledgedBytes < sync.snapshotBytes) (hack : sync.acknowledge env = some sync') :
    sync'.acknowledgedBytes = sync.snapshotBytes := by
  unfold RdmaSync.acknowledge at hack
  rw [if_neg (not_or.mpr ⟨Bool.eq_false_iff.mp hidle, Nat.not_le.mpr hbehind⟩)] at hack
  split at hack
  · cases hack
  · rename_i hsend
    obtain rfl := Option.some.inj hack
    unfold RdmaSync.sendMessage at hsend
    split at hsend
    · cases hsend
    · split at hsend
      · cases hsend
      · obtain rfl := Option.some.inj hsend
        rfl

theorem Transfer.At.replicaWaits (h : p.At fd up f base records x)
    (hc : p.replica.replication.rdmaSync.connection = some c)
    (hno : p.replica.replication.rdmaSync.established = false) (hquiet : ¬env.Receives)
    (hpoll : c.pollEvent env = (some none, c')) (hsent : c'.sent = c.sent) :
    ∃ q, p.ReplicaPolls up env q ∧ q.work f = p.work f := by
  obtain ⟨-, hsink⟩ := h.syncing hc
  have hevent : ∀ r ∈ (c.pollEvent env).1, r = none := by
    rw [hpoll]
    rintro r ⟨⟩
    rfl
  obtain ⟨r, t', hrun, ⟨-, hzero | hfailed⟩ | ⟨rfl, -, rfl⟩⟩ := (hsink.waits hno hc hevent 1).run
  · cases hzero
  · rw [hpoll] at hfailed
    cases hfailed
  rw [hpoll] at hrun
  refine ⟨_, .quiet hquiet hrun Streamed.wait_ne, ?_⟩
  have hsame : Transfer.exchange { p with replica := { p.replica with
      replication := { p.replica.replication with
        rdmaSync := { p.replica.replication.rdmaSync with connection := some c' } } } } = p.exchange := by
    unfold Transfer.exchange Server.messages RdmaSync.messages
    rw [hc]
    dsimp only
    rw [Option.map_some, Option.map_some, hsent]
  unfold Transfer.work
  rw [hsame]

theorem Transfer.At.replicaMoves (h : p.At fd up f base records x) (hexchange : p.exchange = x)
    (hby : BySink f.file told x y) (hne : y ≠ x) (hdelivered : q.replicaGot = y.delivered)
    (hsink : Sink q.replica up f y) (hprimary : q.primary = p.primary)
    (hgot : q.primaryGot = p.primaryGot) : q.work f < p.work f := by
  obtain hsame | hless := h.valid.work_steps hby.steps
  · exact absurd hsame hne
  have hq : q.exchange = y := by
    apply Exchange.ext
    · rw [hby.pieces, ← hexchange]
      unfold Transfer.exchange
      rw [hprimary]
    · exact hdelivered
    · change q.replica.messages.length = y.answers
      unfold Server.messages
      rw [hsink.sync.messages, length_syncAnswers]
    · rw [hby.heard, ← hexchange]
      exact hgot
  have hafter := Bool.toNat_le q.replica.replication.rdmaSync.sendPending
  unfold Transfer.work
  rw [hq, hexchange, hprimary]
  omega

theorem Transfer.At.resolves (h : p.At fd up f base records x)
    (hc : p.replica.replication.rdmaSync.connection = some c)
    (hno : p.replica.replication.rdmaSync.established = false) :
    ∃ env q, env.cmEvent = some (some ⟨.addrResolved, c.cmId, false, true⟩) ∧
      p.ReplicaPolls up env q ∧ q.work f = p.work f := by
  obtain ⟨-, hsink⟩ := h.syncing hc
  obtain ⟨_, hc', hid, hcm, -⟩ := hsink.sync.connection
  obtain rfl := Option.some.inj (hc.symm.trans hc')
  have hpoll : c.pollEvent (.granting (some ⟨.addrResolved, c.cmId, false, true⟩) none) = (some none, c) := by
    rw [pollEvent_granting hid hcm rfl]
    rfl
  obtain ⟨q, hpolls, hwork⟩ := h.replicaWaits hc hno (granting_idle _) hpoll rfl
  exact ⟨_, q, rfl, hpolls, hwork⟩

theorem Transfer.At.prepares (h : p.At fd up f base records x)
    (hc : p.replica.replication.rdmaSync.connection = some c) (hprepared : c.prepared = false) :
    ∃ env q, env.cmEvent = some (some ⟨.routeResolved, c.cmId, false, true⟩) ∧
      p.ReplicaPolls up env q ∧ q.work f = p.work f := by
  obtain ⟨-, hsink⟩ := h.syncing hc
  obtain ⟨_, hc', hid, hcm, -, hestablished, hsend, -⟩ := hsink.sync.connection
  obtain rfl := Option.some.inj (hc.symm.trans hc')
  let event : CmEvent := ⟨.routeResolved, c.cmId, false, true⟩
  have hprepare : c.prepare (.granting (some event) none) =
      some { c with prepared := true, recvPending := true } := by
    unfold RdmaConnection.prepare
    rw [if_neg]
    rw [hprepared]
    exact not_or.mpr ⟨Bool.false_ne_true, not_not.mpr rfl⟩
  have hpoll : c.pollEvent (.granting (some event) none) =
      (some none, { c with prepared := true, recvPending := true }) := by
    rw [pollEvent_granting hid hcm rfl]
    unfold RdmaConnection.handleEvent
    rw [if_neg (not_not.mpr rfl)]
    dsimp only [event]
    rw [if_neg (not_not.mpr rfl), hprepare]
    rfl
  have hno : p.replica.replication.rdmaSync.established = false := by
    rw [← Bool.not_eq_true]
    intro hset
    rw [hestablished hset] at hprepared
    cases hprepared
  obtain ⟨q, hpolls, hwork⟩ := h.replicaWaits hc hno (granting_idle _) hpoll rfl
  exact ⟨_, q, rfl, hpolls, hwork⟩

theorem Transfer.At.readies (h : p.At fd up f base records x)
    (hc : p.replica.replication.rdmaSync.connection = some c) (hprepared : c.prepared = true)
    (hno : p.replica.replication.rdmaSync.established = false) :
    p.ReplicaAdvances up f (some ⟨.established, c.cmId, false, true⟩) := by
  obtain ⟨hexchange, hsink⟩ := h.syncing hc
  obtain ⟨_, hc', hid, hcm, hrecv, hestablished, hsend, hsent⟩ := hsink.sync.connection
  obtain rfl := Option.some.inj (hc.symm.trans hc')
  have hanswers : x.answers = 0 := by
    apply Nat.eq_zero_of_not_pos
    intro hpos
    rw [hsink.sync.established.mpr hpos] at hno
    cases hno
  let event : CmEvent := ⟨.established, c.cmId, false, true⟩
  let env := RdmaAnswers.granting (some event) none
  let d : RdmaConnection := { c with deadline := false }
  let sync : RdmaSync := { p.replica.replication.rdmaSync with connection := some d }
  have hpoll : c.pollEvent env = (some (some .established), d) := by
    rw [pollEvent_granting hid hcm rfl]
    rfl
  have hsync : SinkSync sync f.id x :=
    ⟨⟨d, rfl, hid, hcm, hrecv, hestablished, hsend, hsent⟩, hsink.sync.established, hsink.sync.pending,
      hsink.sync.snapshotBytes, hsink.sync.acknowledgedBytes⟩
  have hready := hsync.ready_sent f.isId rfl hprepared hno (show env.postedSend = true from rfl)
  obtain ⟨y, hby, hdelivered, hsync', hset⟩ := hsync.ready f.file hno hready
  have hmoved := hsink.moved hsync' (hby.arrived hdelivered)
  have hpos := hsync'.established.mp hset
  have htriple : Triple (kvsReplicationUpstreamStream up 1 env) p.replica
      (fun r t' => r = .wait ∧ Sink t' up f y) Never := by
    unfold kvsReplicationUpstreamStream
    refine Triple.get_bind ?_
    rw [if_neg (by simp [hsink.initialized, hsink.replica, hsink.upstream]), hc]
    dsimp only
    rw [hpoll]
    refine Triple.set_bind ?_
    dsimp only
    rw [show RdmaSync.sendMessage _ env (readyMessage p.replica.replication.fullSyncId) = _ from
      (congrArg _ (congrArg readyMessage hsink.fullSyncId)).trans hready]
    refine Triple.set_bind ((upstreamStep_quiet rfl (if_pos (.inl rfl)) ?_ rfl rfl).weaken ?_)
    · rintro _ ⟨⟩
      exact hprepared
    · rintro _ _ ⟨rfl, rfl⟩
      exact ⟨rfl, hmoved⟩
  obtain ⟨_, t', hrun, rfl, hsink'⟩ := htriple.run
  refine ⟨env, _, rfl, .quiet (granting_idle _) hrun Streamed.wait_ne, ?_⟩
  refine h.replicaMoves hexchange hby ?_ ?_ hsink' rfl rfl
  · rintro rfl
    omega
  · rw [hdelivered, ← hexchange]
    rfl

theorem Transfer.At.takes (h : p.At fd up f base records x)
    (hc : p.replica.replication.rdmaSync.connection = some c) (hgood : ¬p.replica.CanFail)
    (hturn : x.delivered < x.pieces.length) : p.ReplicaAdvances up f none := by
  obtain ⟨hexchange, hsink⟩ := h.syncing hc
  have hnext : nextPiece x = some x.pieces[x.delivered] := List.getElem?_eq_getElem hturn
  have hmessage : p.primary.messages[p.replicaGot]? = some x.pieces[x.delivered] := by
    rw [← hnext, ← hexchange]
    rfl
  let env := RdmaAnswers.granting none (some (.recv x.pieces[x.delivered]))
  have honce : ¬env.Establishes := by
    rintro ⟨event, hcm, -⟩
    cases hcm
  have hpoll := hsink.pollReceives h.valid (granting_quiet _ : ¬env.Disconnects) (absurd · honce) hnext
    (h.source.bounded _ (List.getElem_mem hturn)) rfl 1 False
  obtain ⟨r, t', hrun, ⟨-, hnot | hcan⟩ | ⟨rfl, -, y, hby, hdelivered, hsink'⟩⟩ :=
    (hpoll.mono (fun _ _ h => h) fun _ h => hgood h.2).run
  · exact absurd ⟨granting_grants .., Nat.one_ne_zero, .nothing rfl⟩ hnot
  · exact absurd hcan hgood
  refine ⟨env, _, rfl, .takes (granting_quiet _) hmessage rfl hrun Streamed.wait_ne, ?_⟩
  refine h.replicaMoves hexchange hby ?_ ?_ hsink' rfl rfl
  · rintro rfl
    omega
  · rw [hdelivered, ← hexchange]
    rfl

theorem Transfer.At.answers (h : p.At fd up f base records x)
    (hc : p.replica.replication.rdmaSync.connection = some c)
    (hestablished : p.replica.replication.rdmaSync.established = true)
    (hlast : x.delivered = x.pieces.length) (hturn : x.answers ≤ x.delivered) :
    p.ReplicaAdvances up f none := by
  obtain ⟨hexchange, hsink⟩ := h.syncing hc
  obtain ⟨_, hc', hid, hcm, -, hprepared, hsend, hsent⟩ := hsink.sync.connection
  obtain rfl := Option.some.inj (hc.symm.trans hc')
  have hprepared := hprepared hestablished
  have hpos := hsink.sync.established.mp hestablished
  have hbehind : x.answered < x.arrived := h.valid.upTo_lt (by omega) (Nat.le_of_eq hlast)
  have hpoll : ∀ completion, c.pollEvent (.granting none completion) = (some none, c) := by
    intro completion
    unfold RdmaConnection.pollEvent
    rw [if_neg]
    · rfl
    · rintro (hnone | hpending | ⟨-, hexpired⟩)
      · rw [hnone] at hid
        cases hid
      · rw [hcm] at hpending
        cases hpending
      · cases hexpired
  have hsame : ({ p.replica with replication := { p.replica.replication with
      rdmaSync := { p.replica.replication.rdmaSync with connection := some c } } } : Server) = p.replica := by
    rw [← hc]
  cases hpending : p.replica.replication.rdmaSync.sendPending with
  | true =>
    rw [hpending] at hsend
    have hcompletion : p.replica.replication.rdmaSync.connection.bind
        (·.pollCompletion (.granting none (some .send))) = some
          (some (.send, { c with sendPending := false })) := by
      rw [hc, Option.bind_some, RdmaConnection.pollCompletion_send hprepared hsend rfl]
    have htriple : Triple (kvsReplicationUpstreamStream up 1 (.granting none (some .send))) p.replica
        (fun r t' => r = .wait ∧ t' = { p.replica with replication := { p.replica.replication with
          rdmaSync := { p.replica.replication.rdmaSync with
            connection := some { c with sendPending := false }, sendPending := false } } }) Never := by
      refine hsink.poll_event hc (hpoll _) ?_
      rw [hsame]
      unfold upstreamStep
      have hacked : ¬(p.replica.replication.state = .catchUp ∧
          (p.replica.replication.rdmaSync.snapshotBytes : Int) = p.replica.replication.snapshotFileSize ∧
          p.replica.replication.rdmaSync.acknowledgedBytes = p.replica.replication.rdmaSync.snapshotBytes) := by
        rintro ⟨-, -, hall⟩
        rw [hsink.sync.snapshotBytes, hsink.sync.acknowledgedBytes] at hall
        omega
      refine Triple.get_bind ?_
      have hack : p.replica.replication.rdmaSync.acknowledge (.granting none (some .send)) =
          some p.replica.replication.rdmaSync := if_pos (.inl hpending)
      rw [if_neg (not_not.mpr hestablished), hack]
      dsimp only
      rw [if_neg hacked, hcompletion]
      exact Triple.set_bind (Triple.pure ⟨rfl, rfl⟩)
    obtain ⟨_, _, hrun, rfl, rfl⟩ := htriple.run
    refine ⟨_, _, rfl, .quiet (granting_sent _) hrun Streamed.wait_ne, ?_⟩
    unfold Transfer.work Transfer.exchange Server.messages RdmaSync.messages
    simp only [hc, hpending, Bool.toNat_false, Bool.toNat_true]
    exact Nat.lt_succ_self _
  | false =>
    obtain ⟨-, hposted⟩ | ⟨sync, y, hack, hby, hdelivered, hsync, hset, -⟩ :=
      hsink.sync.acknowledge (.granting none none) h.valid f.fits hestablished
    · cases hposted
    have hmoved := hsink.moved hsync (hby.arrived hdelivered)
    obtain ⟨d, hd, -, -, -, hdprepared, -, -⟩ := hsync.connection
    have htriple : Triple (kvsReplicationUpstreamStream up 1 (.granting none none)) p.replica
        (fun r t' => r = .wait ∧ Sink t' up f y) Never := by
      refine hsink.poll_event hc (hpoll _) ?_
      rw [hsame]
      refine (upstreamStep_quiet hestablished hack ?_ (by rw [hd]; rfl) rfl).weaken ?_
      · intro d' hd'
        obtain rfl := Option.some.inj (hd.symm.trans hd')
        exact hdprepared hset
      · rintro _ _ ⟨rfl, rfl⟩
        exact ⟨rfl, hmoved⟩
    have hnew : y.answered = x.arrived := by
      rw [← hsync.acknowledgedBytes, ← hsink.sync.snapshotBytes]
      exact acknowledge_due hpending
        (by rw [hsink.sync.acknowledgedBytes, hsink.sync.snapshotBytes]; exact hbehind) hack
    obtain ⟨_, t', hrun, rfl, hsink'⟩ := htriple.run
    refine ⟨_, _, rfl, .quiet (granting_idle _) hrun Streamed.wait_ne, ?_⟩
    refine h.replicaMoves hexchange hby ?_ ?_ hsink' rfl rfl
    · rintro rfl
      omega
    · rw [hdelivered, ← hexchange]
      rfl

theorem Transfer.At.closes (h : p.At fd up f base records x)
    (hc : p.replica.replication.rdmaSync.connection = some c) (hgood : ¬p.replica.CanFail)
    (hended : p.primary.replication.rdmaSync.disconnectPending = true) :
    ∃ env q, env.cmEvent = some (some ⟨.disconnected, c.cmId, false, true⟩) ∧ p.ReplicaPolls up env q ∧
      ¬q.replica.CanFail := by
  obtain ⟨hexchange, hsink⟩ := h.syncing hc
  obtain ⟨-, hconfirmed, -⟩ := h.source.finished hended
  have hordered := h.valid.ordered
  let env := RdmaAnswers.granting (some ⟨.disconnected, c.cmId, false, true⟩) none
  obtain ⟨r, t', hrun, hran⟩ := hsink.serves h.valid h.source.bounded hgood (granting_grants .. : env.Grants)
    Nat.one_ne_zero (.disconnected hc rfl hended) (fun _ => by omega) (.inl rfl)
  refine ⟨env, _, rfl, .quiet (granting_idle _) hrun hran, ?_⟩
  obtain ⟨hfailed, -⟩ | ⟨-, -, rfl⟩ := (hsink.closes h.valid ⟨_, rfl, rfl⟩ 1 False).post hrun
  · exact absurd hfailed hran
  · exact hgood

-- ---------------------------------------------------------------------------
-- Runs
-- ---------------------------------------------------------------------------

section
variable {p : Linked}

theorem Transfer.At.advancesPrimary {link : Link} (h : p.transfer.At fd up f base records x)
    (hgood : ¬p.transfer.replica.CanFail) (htold : p.TellsPrimary env link)
    (hpoll : p.transfer.PrimaryPolls fd env q)
    (hwork : q.work f + link.rank < p.transfer.work f + p.link.rank) : p.Advances fd up f base records := by
  obtain ⟨hsame, -⟩ := hpoll.runs h.source htold.not_disconnects
  have hat := h.primaryPolls htold.not_disconnects hpoll
  exact ⟨⟨q, link⟩, .primary htold hpoll, ⟨by rw [hsame]; exact hgood, hat⟩, hwork⟩

theorem Transfer.At.advancesReplica {link : Link} (h : p.transfer.At fd up f base records x)
    (hlinked : p.transfer.LinkedBy p.link) (hgood : ¬p.transfer.replica.CanFail)
    (htold : p.TellsReplica env link) (hopen : link ≠ .closed) (hpoll : p.transfer.ReplicaPolls up env q)
    (hwork : q.work f + link.rank < p.transfer.work f + p.link.rank) : p.Advances fd up f base records := by
  have hlater := h.later (htold.told hlinked) (htold.not_disconnects hopen) hpoll
  have hat := h.replicaPolls (htold.told hlinked) hpoll
  exact ⟨⟨q, link⟩, .replica htold hpoll, ⟨fun hcan => hgood (hlater.canFail hcan), hat⟩, hwork⟩

/-- Once both sides are connected, the one whose turn it is can go on. -/
theorem Linked.advances_connected (h : p.transfer.At fd up f base records x)
    (hlinked : p.transfer.LinkedBy p.link) (hlink : p.link = .accepted) (hgood : ¬p.transfer.replica.CanFail)
    (hopen : p.transfer.primary.replication.rdmaSync.disconnectPending = false) :
    p.Advances fd up f base records := by
  have hprimary : p.transfer.PrimaryAdvances fd f none → p.Advances fd up f base records := by
    rintro ⟨env, q, hcm, hpoll, hwork⟩
    exact h.advancesPrimary hgood (.nothing hcm) hpoll (Nat.add_lt_add_right hwork _)
  have hreplica : p.transfer.ReplicaAdvances up f none → p.Advances fd up f base records := by
    rintro ⟨env, q, hcm, hpoll, hwork⟩
    refine h.advancesReplica hlinked hgood (.nothing hcm) ?_ hpoll (Nat.add_lt_add_right hwork _)
    rw [hlink]
    exact nofun
  have haccepted := hlinked
  rw [hlink] at haccepted
  obtain ⟨hconnected, hprepared⟩ := haccepted
  obtain ⟨c, hc⟩ := Option.isSome_iff_exists.mp hconnected
  obtain ⟨d, hd, hprepared⟩ := (Option.any_eq_true _ _).mp hprepared
  cases hestablished : p.transfer.primary.replication.rdmaSync.established with
  | false =>
    obtain ⟨env, q, hcm, hpoll, hwork⟩ := h.establishes hc hestablished hopen
    refine h.advancesPrimary hgood (.established hlink hc hestablished hcm) hpoll ?_
    rw [hlink]
    exact Nat.add_lt_add_right hwork _
  | true =>
    cases hpending : p.transfer.primary.replication.rdmaSync.sendPending with
    | true => exact hprimary (h.sendCompletes hc hestablished hopen hpending)
    | false =>
      cases hready : p.transfer.replica.replication.rdmaSync.established with
      | false =>
        obtain ⟨env, q, hcm, hpoll, hwork⟩ := h.readies hd hprepared hready
        refine h.advancesReplica hlinked hgood (.established hlink hd hready hcm) nofun hpoll ?_
        rw [hlink]
        exact Nat.add_lt_add_right hwork _
      | true =>
        obtain hturn | ⟨hlast, hturn⟩ | hturn | ⟨hheard, hconfirmed⟩ := h.valid.turns
        · exact hreplica (h.takes hd hgood hturn)
        · exact hreplica (h.answers hd hready hlast hturn)
        · exact hprimary (h.hears hd hestablished hopen hturn)
        · have hne := (h.source.started (by rw [hheard]; exact Nat.succ_pos _)).1
          exact hprimary (h.due hd hestablished hopen hpending (h.valid.sent_pos hne) hconfirmed)

/-- Before the end some poll leaves less. -/
theorem Linked.advances (h : p.transfer.At fd up f base records x) (hlinked : p.transfer.LinkedBy p.link)
    (hgood : ¬p.transfer.replica.CanFail)
    (hopen : p.transfer.primary.replication.rdmaSync.disconnectPending = false) :
    p.Advances fd up f base records := by
  have hunconnected : p.transfer.primary.replication.rdmaSync.connection = none → ∀ {c},
      p.transfer.replica.replication.rdmaSync.connection = some c →
      p.transfer.replica.replication.rdmaSync.established = false := by
    intro hnone c hc
    obtain ⟨-, hsink⟩ := h.syncing hc
    rw [← Bool.not_eq_true, hsink.sync.established]
    intro hpos
    have hsome := h.source.accepted hpos
    rw [hnone] at hsome
    cases hsome
  have hconnecting := hlinked
  cases hlink : p.link with
  | address =>
    rw [hlink] at hconnecting
    obtain ⟨hnone, c, hc, -⟩ := hconnecting
    obtain ⟨env, q, hcm, hpoll, hwork⟩ := h.resolves hc (hunconnected hnone hc)
    refine h.advancesReplica hlinked hgood (.addrResolved hlink hc hcm) nofun hpoll ?_
    rw [hwork, hlink]
    exact Nat.lt_succ_self _
  | route =>
    rw [hlink] at hconnecting
    obtain ⟨-, c, hc, hno⟩ := hconnecting
    obtain ⟨env, q, hcm, hpoll, hwork⟩ := h.prepares hc hno
    refine h.advancesReplica hlinked hgood (.routeResolved hlink hc hcm) nofun hpoll ?_
    rw [hwork, hlink]
    exact Nat.lt_succ_self _
  | request =>
    rw [hlink] at hconnecting
    obtain ⟨env, q, hcm, hpoll, hwork⟩ := h.accepts hconnecting.1
    refine h.advancesPrimary hgood (.connectRequest hlink hcm) hpoll ?_
    rw [hwork, hlink]
    exact Nat.lt_succ_self _
  | closed =>
    rw [hlink] at hconnecting
    rw [hconnecting.1] at hopen
    cases hopen
  | accepted => exact Linked.advances_connected h hlinked hlink hgood hopen

theorem Linked.Reaches.trans {q r : Linked} (h : p.Reaches fd up q) (h' : q.Reaches fd up r) :
    p.Reaches fd up r := by
  induction h' with
  | start => exact h
  | step _ hstep ih => exact ih.step hstep

/-- Some run of polls leads to where the replica has closed its connection. -/
theorem Linked.ends (h : p.transfer.At fd up f base records x) (hlinked : p.transfer.LinkedBy p.link)
    (hgood : ¬p.transfer.replica.CanFail) :
    ∃ q, p.Reaches fd up q ∧ q.transfer.Serves fd up f base records ∧ q.link = .closed := by
  induction hwork : p.work f using Nat.strongRecOn generalizing p x with
  | _ n ih =>
    cases hopen : p.transfer.primary.replication.rdmaSync.disconnectPending with
    | false =>
      obtain ⟨q, hstep, ⟨hgood, y, hq⟩, hless⟩ := Linked.advances h hlinked hgood hopen
      obtain ⟨-, hlinked⟩ := hstep.transfer h hlinked
      obtain ⟨r, hrun, hr, hclosed⟩ := ih (q.work f) (by rw [← hwork]; exact hless) hq hlinked hgood rfl
      exact ⟨r, (Linked.Reaches.start.step hstep).trans hrun, hr, hclosed⟩
    | true =>
      -- the primary has ended the connection, so there is one
      obtain ⟨c, hc⟩ := Option.isSome_iff_exists.mp (h.source.connected h.valid hopen)
      cases hlink : p.link with
      | address | route | request =>
        rw [hlink] at hlinked
        cases hc.symm.trans hlinked.1
      | closed => exact ⟨p, .start, ⟨hgood, x, h⟩, hlink⟩
      | accepted =>
        have hprepared := hlinked
        rw [hlink] at hprepared
        obtain ⟨d, hd, -⟩ := (Option.any_eq_true _ _).mp hprepared.2
        obtain ⟨env, q, hcm, hpoll, hgood⟩ := h.closes hd hgood hopen
        have htold : p.TellsReplica env .closed := .disconnected hlink hopen hd hcm
        have hat := h.replicaPolls (htold.told hlinked) hpoll
        exact ⟨_, Linked.Reaches.start.step (.replica htold hpoll), ⟨hgood, hat⟩, rfl⟩

end

end

end KvStore
