import KvStore.Replication.Transfer

/-!
# The connection managers

The connection managers of the two sides tell their servers of the address, of
the route, of the request to connect, of the connection and of its end: each of
it once, and not before the other side has done its part. `Transfer.LinkedBy`
says what the servers have done when the managers have come so far.
-/

namespace KvStore

open Lib

/-- How far the connection managers have come. -/
inductive Link
  /-- The replica has asked for the address of its primary, -/
  | address
  /-- for the route to it, -/
  | route
  /-- and to be connected. -/
  | request
  /-- The primary has accepted. -/
  | accepted
  /-- The replica has closed the connection, which its primary had ended. -/
  | closed
  deriving DecidableEq, Repr

structure Linked where
  transfer : Transfer
  link : Link

/-- What the managers can tell the primary, and how far they are when it has
taken it. -/
inductive Linked.TellsPrimary (p : Linked) (env : RdmaAnswers) : Link → Prop
  | nothing (hcm : env.cmEvent = some none) : p.TellsPrimary env p.link
  | connectRequest (hlink : p.link = .request)
    (hcm : env.cmEvent = some (some ⟨.connectRequest, some cmId, true, true⟩)) :
    p.TellsPrimary env .accepted
  | established (hlink : p.link = .accepted)
    (hc : p.transfer.primary.replication.rdmaSync.connection = some c)
    (hno : p.transfer.primary.replication.rdmaSync.established = false)
    (hcm : env.cmEvent = some (some ⟨.established, c.cmId, false, true⟩)) : p.TellsPrimary env .accepted

inductive Linked.TellsReplica (p : Linked) (env : RdmaAnswers) : Link → Prop
  | nothing (hcm : env.cmEvent = some none) : p.TellsReplica env p.link
  | addrResolved (hlink : p.link = .address)
    (hc : p.transfer.replica.replication.rdmaSync.connection = some c)
    (hcm : env.cmEvent = some (some ⟨.addrResolved, c.cmId, false, true⟩)) : p.TellsReplica env .route
  | routeResolved (hlink : p.link = .route)
    (hc : p.transfer.replica.replication.rdmaSync.connection = some c)
    (hcm : env.cmEvent = some (some ⟨.routeResolved, c.cmId, false, true⟩)) : p.TellsReplica env .request
  | established (hlink : p.link = .accepted)
    (hc : p.transfer.replica.replication.rdmaSync.connection = some c)
    (hno : p.transfer.replica.replication.rdmaSync.established = false)
    (hcm : env.cmEvent = some (some ⟨.established, c.cmId, false, true⟩)) : p.TellsReplica env .accepted
  | disconnected (hlink : p.link = .accepted)
    (hended : p.transfer.primary.replication.rdmaSync.disconnectPending = true)
    (hc : p.transfer.replica.replication.rdmaSync.connection = some c)
    (hcm : env.cmEvent = some (some ⟨.disconnected, c.cmId, false, true⟩)) : p.TellsReplica env .closed

inductive Linked.Step (fd up : Nat) (p : Linked) : Linked → Prop
  | primary (htold : p.TellsPrimary env next) (hpoll : p.transfer.PrimaryPolls fd env q) :
    p.Step fd up ⟨q, next⟩
  | replica (htold : p.TellsReplica env next) (hpoll : p.transfer.ReplicaPolls up env q) :
    p.Step fd up ⟨q, next⟩
  | aside (haside : p.transfer.Aside fd q) : p.Step fd up ⟨q, p.link⟩

inductive Linked.Reaches (fd up : Nat) (p : Linked) : Linked → Prop
  | start : p.Reaches fd up p
  | step (h : p.Reaches fd up q) (hstep : q.Step fd up r) : p.Reaches fd up r

/-- What the two servers have done when the managers have come so far. -/
def Transfer.LinkedBy (p : Transfer) : Link → Prop
  | .address | .route => p.primary.replication.rdmaSync.connection = none ∧
      ∃ c, p.replica.replication.rdmaSync.connection = some c ∧ c.prepared = false
  | .request => p.primary.replication.rdmaSync.connection = none ∧
      p.replica.replication.rdmaSync.connection.any (·.prepared) = true
  | .accepted => p.primary.replication.rdmaSync.connection.isSome ∧
      p.replica.replication.rdmaSync.connection.any (·.prepared) = true
  | .closed => p.primary.replication.rdmaSync.disconnectPending = true ∧
      p.replica.replication.rdmaSync.connection = none

section
variable {p : Linked} {t : Server} {q : Transfer} {m m' : ReplicationManager} {c c' : RdmaConnection}
  {env : RdmaAnswers} {disk : Disk} {latest : Option Nat} {fd up got capacity : Nat} {link : Link}
  {f : FullSync} {base : Bytes} {records : List (List Bytes)} {x : Exchange UInt8} {α β : Type}

-- ---------------------------------------------------------------------------
-- The connection of the primary
-- ---------------------------------------------------------------------------

theorem isSome_of_bind {o : Option α} {g : α → Option β} {b : β} (h : o.bind g = some b) : o.isSome := by
  obtain ⟨a, ha, -⟩ := Option.bind_eq_some_iff.mp h
  rw [ha]
  rfl

theorem sendSnapshotChunk_connection (env : RdmaAnswers) (got : Nat) (m : ReplicationManager) :
    (sendSnapshotChunk env got m).2.rdmaSync.connection.isSome = m.rdmaSync.connection.isSome := by
  unfold sendSnapshotChunk
  split
  · rfl
  · split
    · rfl
    · split
      · rfl
      · dsimp only
        split
        · rfl
        · split
          · rfl
          · rename_i hsend
            exact (isSome_of_bind hsend).symm

theorem primaryReceive_connection (env : RdmaAnswers) (got : Nat) (data : Bytes) (m : ReplicationManager) :
    (primaryReceive env got data m).2.rdmaSync.connection.isSome = m.rdmaSync.connection.isSome := by
  unfold primaryReceive
  dsimp only
  split
  · split
    · rfl
    · split
      · rfl
      · rename_i hnext
        exact (isSome_of_bind hnext).symm
  · split
    · rfl
    · split
      · rfl
      · rename_i hnext
        rw [sendSnapshotChunk_connection]
        exact (isSome_of_bind hnext).symm

theorem fullSyncStep_connection (env : RdmaAnswers) (got : Nat) (m : ReplicationManager) :
    (fullSyncStep env got m).2.rdmaSync.connection.isSome = m.rdmaSync.connection.isSome := by
  unfold fullSyncStep
  dsimp only
  split
  · rfl
  · split
    · split
      · exact sendSnapshotChunk_connection env got m
      · split <;> rfl
    · split
      · rfl
      · rfl
      · rename_i hsend
        exact (isSome_of_bind hsend).symm
      · rename_i hrecv
        rw [primaryReceive_connection]
        exact (isSome_of_bind hrecv).symm
      · rfl

theorem fullSyncEvent_connection (hevent : ¬env.Disconnects)
    (hrun : fullSyncEvent disk latest env m = (true, m')) :
    (kvsRdmaListenerPoll env m.rdmaSync.connection).result.isSome ∧
      m'.rdmaSync.connection = (kvsRdmaListenerPoll env m.rdmaSync.connection).connection ∧
      m'.rdmaSync.disconnectPending = m.rdmaSync.disconnectPending := by
  have hother : some (some .disconnected) ≠ (kvsRdmaListenerPoll env m.rdmaSync.connection).result := by
    intro hresult
    cases hc : m.rdmaSync.connection with
    | none =>
      rw [hc] at hresult
      exact (kvsRdmaListenerPoll_accepts _ hresult.symm).1 rfl
    | some c =>
      rw [hc] at hresult
      exact (kvsRdmaListenerPoll_keeps hevent _ hresult.symm).1 rfl
  unfold fullSyncEvent at hrun
  split at hrun
  · cases hrun
  · dsimp only at hrun
    split at hrun
    · cases hrun
    · rename_i hresult
      exact absurd hresult.symm hother
    · rename_i hresult
      obtain rfl := (Prod.mk.inj hrun).2
      rw [hresult]
      exact ⟨rfl, rfl, rfl⟩
    · rename_i hresult
      obtain rfl := (Prod.mk.inj hrun).2
      rw [hresult]
      exact ⟨rfl, rfl, rfl⟩

theorem Transfer.PrimaryPolls.runs {p : Transfer} (hpoll : p.PrimaryPolls fd env q)
    (h : Source p.primary.replication fd f x) (hevent : ¬env.Disconnects) :
    q.replica = p.replica ∧ ∃ m got,
      fullSyncEvent p.primary.disk p.primary.aofOffset env p.primary.replication = (true, m) ∧
      q.primary.replication = (fullSyncStep env got m).2 := by
  have hruns : ∀ {capacity got r s'}, kvsReplicationStream fd capacity got env p.primary = .ok (r, s') →
      r ≠ .failed → ∃ m got,
        fullSyncEvent p.primary.disk p.primary.aofOffset env p.primary.replication = (true, m) ∧
        s'.replication = (fullSyncStep env got m).2 := by
    intro capacity got r s' hrun hgood
    obtain ⟨-, rfl⟩ | ⟨m, hm, -, -, -, rfl⟩ := (h.poll hevent capacity got).post hrun
    · exact absurd rfl hgood
    · exact ⟨m, got, hm, rfl⟩
  cases hpoll with
  | quiet _ hrun hgood => exact ⟨rfl, hruns hrun hgood⟩
  | takes _ _ _ hrun hgood => exact ⟨rfl, hruns hrun hgood⟩

theorem Linked.TellsPrimary.not_disconnects (h : p.TellsPrimary env link) : ¬env.Disconnects := by
  rintro ⟨event, hcm, htype⟩
  cases h with
  | nothing hquiet => cases hquiet.symm.trans hcm
  | connectRequest _ hrequest =>
    cases hrequest.symm.trans hcm
    cases htype
  | established _ _ _ hestablished =>
    cases hestablished.symm.trans hcm
    cases htype

theorem Linked.TellsPrimary.keeps (htold : p.TellsPrimary env link)
    (h : Source p.transfer.primary.replication fd f x) (hlinked : p.transfer.LinkedBy p.link)
    (hpoll : p.transfer.PrimaryPolls fd env q) : q.LinkedBy link := by
  obtain ⟨hreplica, m, got, hevent, hstep⟩ := hpoll.runs h htold.not_disconnects
  obtain ⟨hresult, hconnection, hpending⟩ := fullSyncEvent_connection htold.not_disconnects hevent
  have hsame : q.primary.replication.rdmaSync.connection.isSome = m.rdmaSync.connection.isSome := by
    rw [hstep, fullSyncStep_connection]
  have hstays : p.transfer.primary.replication.rdmaSync.connection.isSome →
      q.primary.replication.rdmaSync.connection.isSome := by
    intro hsome
    obtain ⟨c, hc⟩ := Option.isSome_iff_exists.mp hsome
    obtain ⟨r, hr⟩ := Option.isSome_iff_exists.mp hresult
    rw [hc] at hconnection hr
    obtain ⟨-, deadline, hkept⟩ := kvsRdmaListenerPoll_keeps htold.not_disconnects r hr
    rw [hsame, hconnection, hkept]
    rfl
  cases htold with
  | nothing hcm =>
    have hnothing : p.transfer.primary.replication.rdmaSync.connection = none →
        q.primary.replication.rdmaSync.connection = none := by
      intro hnone
      rw [← Option.not_isSome_iff_eq_none, hsame, hconnection, hnone]
      unfold kvsRdmaListenerPoll
      rw [hcm]
      split <;> exact Bool.false_ne_true
    have hended : p.transfer.primary.replication.rdmaSync.disconnectPending = true →
        q.primary.replication.rdmaSync.disconnectPending = true := by
      intro hset
      rw [← hpending] at hset
      rw [hstep]
      unfold fullSyncStep
      dsimp only
      rw [if_pos (.inl hset)]
      exact hset
    generalize p.link = link at hlinked ⊢
    unfold Transfer.LinkedBy at hlinked ⊢
    rw [hreplica]
    cases link with
    | address | route | request => exact ⟨hnothing hlinked.1, hlinked.2⟩
    | accepted => exact ⟨hstays hlinked.1, hlinked.2⟩
    | closed => exact ⟨hended hlinked.1, hlinked.2⟩
  | connectRequest hlink hcm =>
    rw [hlink] at hlinked
    refine ⟨?_, by rw [hreplica]; exact hlinked.2⟩
    rw [hlinked.1] at hresult hconnection
    rw [hsame, hconnection]
    unfold kvsRdmaListenerPoll at hresult ⊢
    split
    · rename_i hstops
      rw [if_pos hstops] at hresult
      cases hresult
    · rw [hcm]
      dsimp only
      rw [if_pos ⟨rfl, rfl⟩]
      unfold ownEvent
      split <;> rfl
  | established hlink _ _ _ =>
    rw [hlink] at hlinked
    exact ⟨hstays hlinked.1, by rw [hreplica]; exact hlinked.2⟩

-- ---------------------------------------------------------------------------
-- The connection of the replica
-- ---------------------------------------------------------------------------

theorem Linked.TellsReplica.told (h : p.TellsReplica env link) (hlinked : p.transfer.LinkedBy p.link) :
    p.transfer.Told env := by
  rintro ⟨event, hcm, htype⟩
  cases h with
  | nothing hquiet => cases hquiet.symm.trans hcm
  | addrResolved _ _ hcm' | routeResolved _ _ hcm' | disconnected _ _ _ hcm' =>
    cases hcm'.symm.trans hcm
    cases htype
  | established hlink _ hno _ =>
    rw [hlink] at hlinked
    exact ⟨hno, hlinked.1⟩

theorem Sink.waits (h : Sink t up f x) (hno : t.replication.rdmaSync.established = false)
    (hc : t.replication.rdmaSync.connection = some c) (hpoll : ∀ r ∈ (c.pollEvent env).1, r = none)
    (capacity : Nat) :
    Triple (kvsReplicationUpstreamStream up capacity env) t (fun r t' =>
      r = .failed ∧ (capacity = 0 ∨ (c.pollEvent env).1 = none) ∨
        r = .wait ∧ (c.pollEvent env).1 = some none ∧ t' = { t with replication := { t.replication with
          rdmaSync := { t.replication.rdmaSync with connection := some (c.pollEvent env).2 } } }) Never := by
  unfold kvsReplicationUpstreamStream
  refine Triple.get_bind (Triple.ite (fun hguard => ?_) fun _ => ?_)
  · refine Triple.pure (.inl ⟨rfl, .inl ?_⟩)
    simpa [h.initialized, h.replica, h.upstream] using hguard
  rw [hc]
  dsimp only
  generalize c.pollEvent env = polled at hpoll ⊢
  obtain ⟨event, c'⟩ := polled
  refine Triple.set_bind ?_
  cases event with
  | none => exact Triple.pure (.inl ⟨rfl, .inr rfl⟩)
  | some event =>
    obtain rfl := hpoll event rfl
    unfold upstreamStep
    refine Triple.get_bind ?_
    rw [if_pos (Bool.eq_false_iff.mp hno)]
    exact Triple.pure (.inr ⟨rfl, rfl, rfl⟩)

theorem Transfer.ReplicaPolls.runs {p : Transfer} (hpoll : p.ReplicaPolls up env q) :
    q.primary = p.primary ∧ ∃ capacity r,
      kvsReplicationUpstreamStream up capacity env p.replica = .ok (r, q.replica) ∧ r ≠ .failed := by
  cases hpoll with
  | quiet _ hrun hgood => exact ⟨rfl, _, _, hrun, hgood⟩
  | takes _ _ _ hrun hgood => exact ⟨rfl, _, _, hrun, hgood⟩

theorem Transfer.At.later {p : Transfer} (h : p.At fd up f base records x) (htold : p.Told env)
    (hevent : ¬env.Disconnects) (hpoll : p.ReplicaPolls up env q) : p.replica.Later q.replica := by
  cases h.replica with
  | closed _ _ _ hnone =>
    obtain ⟨-, capacity, r, hrun, -⟩ := hpoll.runs
    rw [(kvsReplicationUpstreamStream_closed hnone capacity env).post hrun]
    exact .refl _
  | syncing hexchange hsink =>
    cases hpoll with
    | quiet hquiet hrun hgood =>
      obtain ⟨hfailed, -⟩ | ⟨-, hlater, -⟩ :=
        (hsink.polls h.valid hevent (fun hest => (htold hest).1) hquiet _ False).post hrun
      · exact absurd hfailed hgood
      · exact hlater
    | takes _ hnext hcompletion hrun hgood =>
      have hpiece : p.primary.messages[p.replicaGot]? = nextPiece x := by
        rw [← hexchange]
        rfl
      have hpiece := hpiece.symm.trans hnext
      have hlong := h.source.bounded _ (List.mem_of_getElem? hpiece)
      obtain ⟨hfailed, -⟩ | ⟨-, hlater, -⟩ := (hsink.pollReceives h.valid hevent
        (fun hest => (htold hest).1) hpiece hlong hcompletion _ False).post hrun
      · exact absurd hfailed hgood
      · exact hlater

theorem RdmaConnection.pollEvent_same (hcm : env.cmEvent = some none ∨
    env.cmEvent = some (some ⟨.addrResolved, c.cmId, false, true⟩)) :
    ∀ r ∈ (c.pollEvent env).1, r = none ∧ (c.pollEvent env).2 = c := by
  unfold RdmaConnection.pollEvent
  split
  · intro r hr
    cases hr
  obtain hcm | hcm := hcm
  · rw [hcm]
    rintro r ⟨⟩
    exact ⟨rfl, rfl⟩
  · simp only [hcm, ne_eq, not_true_eq_false, if_false, handleEvent]
    split
    · split
      · rintro r ⟨⟩
        exact ⟨rfl, rfl⟩
      · intro r hr
        cases hr
    · intro r hr
      cases hr

theorem RdmaConnection.pollEvent_route
    (hcm : env.cmEvent = some (some ⟨.routeResolved, c.cmId, false, true⟩)) :
    ∀ r ∈ (c.pollEvent env).1, r = none ∧ (c.pollEvent env).2.prepared = true := by
  unfold RdmaConnection.pollEvent
  split
  · intro r hr
    cases hr
  simp only [hcm, ne_eq, not_true_eq_false, if_false, handleEvent]
  by_cases hacked : env.acked = true
  · rw [if_pos hacked]
    cases hprepare : c.prepare env with
    | none =>
      intro r hr
      cases hr
    | some d =>
      unfold RdmaConnection.prepare at hprepare
      split at hprepare
      · cases hprepare
      · obtain rfl := Option.some.inj hprepare
        dsimp only
        split
        · rintro r ⟨⟩
          exact ⟨rfl, rfl⟩
        · intro r hr
          cases hr
  · rw [if_neg hacked]
    intro r hr
    cases hr

theorem Linked.TellsReplica.not_disconnects (h : p.TellsReplica env link) (hopen : link ≠ .closed) :
    ¬env.Disconnects := by
  rintro ⟨event, hcm, htype⟩
  cases h with
  | nothing hquiet => cases hquiet.symm.trans hcm
  | addrResolved _ _ hcm' | routeResolved _ _ hcm' | established _ _ _ hcm' =>
    cases hcm'.symm.trans hcm
    cases htype
  | disconnected => exact hopen rfl

theorem Linked.TellsReplica.keeps (htold : p.TellsReplica env link)
    (h : p.transfer.At fd up f base records x) (hlinked : p.transfer.LinkedBy p.link)
    (hpoll : p.transfer.ReplicaPolls up env q) : q.LinkedBy link := by
  obtain ⟨hprimary, capacity, r, hrun, hgood⟩ := hpoll.runs
  have hsyncing : ∀ {c}, p.transfer.replica.replication.rdmaSync.connection = some c →
      Sink p.transfer.replica up f x := by
    intro c hc
    cases h.replica with
    | syncing _ hsink => exact hsink
    | closed _ _ _ hnone => cases hnone.symm.trans hc
  -- before the primary has accepted, only the connection itself can change
  have hwaits : ∀ {c}, p.transfer.replica.replication.rdmaSync.connection = some c →
      p.transfer.primary.replication.rdmaSync.connection = none →
      (∀ r ∈ (c.pollEvent env).1, r = none) → (c.pollEvent env).1 = some none ∧
        q.replica.replication.rdmaSync.connection = some (c.pollEvent env).2 := by
    intro c hc hnone hevent
    have hsink := hsyncing hc
    have hno : p.transfer.replica.replication.rdmaSync.established = false := by
      rw [← Bool.not_eq_true, hsink.sync.established]
      intro hpos
      have hsome := h.source.accepted hpos
      rw [hnone] at hsome
      cases hsome
    obtain ⟨hfailed, -⟩ | ⟨-, hpoll, hsame⟩ := (hsink.waits hno hc hevent capacity).post hrun
    · exact absurd hfailed hgood
    · rw [hsame]
      exact ⟨hpoll, rfl⟩
  have hsame : ∀ {c}, p.transfer.replica.replication.rdmaSync.connection = some c →
      p.transfer.primary.replication.rdmaSync.connection = none →
      (env.cmEvent = some none ∨ env.cmEvent = some (some ⟨.addrResolved, c.cmId, false, true⟩)) →
      q.replica.replication.rdmaSync.connection = some c := by
    intro c hc hnone hcm
    have hevent := RdmaConnection.pollEvent_same hcm
    obtain ⟨hpoll, hconnection⟩ := hwaits hc hnone fun r hr => (hevent r hr).1
    rw [hconnection, (hevent none hpoll).2]
  have hlater : link ≠ .closed → p.transfer.replica.Later q.replica :=
    fun hopen => h.later (htold.told hlinked) (htold.not_disconnects hopen) hpoll
  cases htold with
  | nothing hcm =>
    generalize p.link = link at hlinked hlater ⊢
    cases link with
    | address | route =>
      obtain ⟨hnone, c, hc, hno⟩ := hlinked
      exact ⟨by rw [hprimary]; exact hnone, c, hsame hc hnone (.inl hcm), hno⟩
    | request => exact ⟨by rw [hprimary]; exact hlinked.1, (hlater nofun).prepared hlinked.2⟩
    | accepted => exact ⟨by rw [hprimary]; exact hlinked.1, (hlater nofun).prepared hlinked.2⟩
    | closed =>
      have hsame := (kvsReplicationUpstreamStream_closed hlinked.2 capacity env).post hrun
      exact ⟨by rw [hprimary]; exact hlinked.1, by rw [hsame]; exact hlinked.2⟩
  | addrResolved hlink hc hcm =>
    rw [hlink] at hlinked
    obtain ⟨hnone, c, hc', hno⟩ := hlinked
    obtain rfl := Option.some.inj (hc.symm.trans hc')
    exact ⟨by rw [hprimary]; exact hnone, _, hsame hc hnone (.inr hcm), hno⟩
  | routeResolved hlink hc hcm =>
    rw [hlink] at hlinked
    have hevent := RdmaConnection.pollEvent_route hcm
    obtain ⟨hpoll, hconnection⟩ := hwaits hc hlinked.1 fun r hr => (hevent r hr).1
    refine ⟨by rw [hprimary]; exact hlinked.1, ?_⟩
    rw [hconnection]
    exact (hevent none hpoll).2
  | established hlink _ _ _ =>
    rw [hlink] at hlinked
    exact ⟨by rw [hprimary]; exact hlinked.1, (hlater nofun).prepared hlinked.2⟩
  | disconnected _ hended hc hcm =>
    obtain ⟨hfailed, -⟩ | ⟨-, -, hclosed⟩ :=
      ((hsyncing hc).closes h.valid ⟨_, hcm, rfl⟩ capacity False).post hrun
    · exact absurd hfailed hgood
    · refine ⟨by rw [hprimary]; exact hended, ?_⟩
      rw [hclosed]
      rfl

-- ---------------------------------------------------------------------------
-- Runs
-- ---------------------------------------------------------------------------

/-- A step with such managers is a step of the synchronisation. -/
theorem Linked.Step.transfer {q : Linked} (hstep : p.Step fd up q)
    (h : p.transfer.At fd up f base records x) (hlinked : p.transfer.LinkedBy p.link) :
    p.transfer.Step fd up q.transfer ∧ q.transfer.LinkedBy q.link := by
  cases hstep with
  | primary htold hpoll =>
    exact ⟨.primary htold.not_disconnects hpoll, htold.keeps h.source hlinked hpoll⟩
  | replica htold hpoll => exact ⟨.replica (htold.told hlinked) hpoll, htold.keeps h hlinked hpoll⟩
  | @aside q haside =>
    obtain ⟨_, -, hprimary, hreplica⟩ := h.aside haside
    refine ⟨.aside haside, ?_⟩
    generalize p.link = link at hlinked ⊢
    unfold Transfer.LinkedBy at hlinked ⊢
    rw [hprimary, hreplica]
    exact hlinked

theorem Linked.Reaches.transfer {q : Linked} (hrun : p.Reaches fd up q)
    (h : p.transfer.At fd up f base records x) (hlinked : p.transfer.LinkedBy p.link) :
    p.transfer.Reaches fd up q.transfer ∧ q.transfer.LinkedBy q.link := by
  induction hrun with
  | start => exact ⟨.start, hlinked⟩
  | step _ hstep ih =>
    obtain ⟨hrun, hlinked⟩ := ih
    obtain ⟨_, _, hq⟩ := h.reaches hrun
    obtain ⟨hstep, hlinked⟩ := hstep.transfer hq hlinked
    exact ⟨hrun.step hstep, hlinked⟩

end

end KvStore
