import KvStore.Replication.Following

/-!
# A replica agrees with its primary

From the end of a full synchronisation on, the stream may be cut anywhere, and
clients of both servers come in between. `Pair.AgreesAt` is the invariant: the
replica has applied a part `done` of the records behind the checkpoint, the
others are `todo`, and what is under way is a part of those, with the `ONLINE`
line at the place where the primary had nothing left to send.
-/

namespace KvStore

open Lib
open Replaying (AtEnd Record logOf)

-- ---------------------------------------------------------------------------
-- The two parties
-- ---------------------------------------------------------------------------

/-- A primary, a replica, the bytes sent and not yet received, and those received
and not yet handled. -/
structure Pair where
  primary : Server
  replica : Server
  wire : Bytes
  input : Bytes

def Streamed.bytes : Streamed → Bytes
  | .sent bytes => bytes
  | .failed | .wait => []

/-- A step of one of the parties or of the network; `fd` is the connection on the
side of the primary, `up` the same on the side of the replica. -/
inductive Pair.Step (fd up : Nat) (p : Pair) : Pair → Prop
  /-- A client of the primary. -/
  | command (hsize : (encodeFields fields).length ≤ kvsMaxClientCommandBytes)
    (hready : output.Ready)
    (hrun : kvsExecuteFields fields output .client p.primary = .ok (executed, s')) :
    p.Step fd up { p with primary := s' }
  | poll (hrun : kvsReplicationStream fd capacity got env p.primary = .ok (streamed, s')) :
    p.Step fd up { p with primary := s', wire := p.wire ++ streamed.bytes }
  /-- Another replication connection of the primary. -/
  | elsewhere (hconnection : PrimaryEvent.connection event = some fd') (hfd : fd' ≠ fd)
    (hrun : event.run p.primary = .ok (answer, s')) : p.Step fd up { p with primary := s' }
  | deliver (hwire : p.wire = piece ++ rest) :
    p.Step fd up { p with wire := rest, input := p.input ++ piece }
  | handle (hinput : p.input ≠ []) (hroom : replyRoom < capacity)
    (hrun : kvsReplicationUpstreamNetworkProtocol up start capacity p.input p.replica =
      .ok ((buffer, some (reply, consumed)), s')) :
    p.Step fd up { p with replica := s', input := buffer.drop consumed }
  /-- A poll of the replica's connection to its primary. -/
  | upstream (hrun : kvsReplicationUpstreamStream up capacity env p.replica = .ok (streamed, s')) :
    p.Step fd up { p with replica := s' }
  /-- A client of the replica. -/
  | read (hready : output.Ready)
    (hrun : kvsExecuteFields fields output .client p.replica = .ok (executed, s')) :
    p.Step fd up { p with replica := s' }

inductive Pair.Reaches (fd up : Nat) (p : Pair) : Pair → Prop
  | start : p.Reaches fd up p
  | step (h : p.Reaches fd up q) (hstep : q.Step fd up r) : p.Reaches fd up r

-- ---------------------------------------------------------------------------
-- The invariant
-- ---------------------------------------------------------------------------

/-- The replica agrees with its primary but for what is under way. -/
structure Pair.AgreesAt (p : Pair) (fd up : Nat) (base : Bytes) (M₀ : Maps)
    (done todo : List (List Bytes)) (sent : Nat) (M : Maps) : Prop where
  leads : p.primary.Leads fd base M₀ (done ++ todo) sent
  applied : p.replica.Applied up base.length M₀ done M
  transit : Transit base.length done todo sent p.primary.replication.state
    p.replica.replication.state (p.input ++ p.wire)

/-- The moment when the full synchronisation is over: the replica has the maps of
the checkpoint at the end of `base`, and the primary has sent nothing of the
records behind it. -/
structure Pair.Starts (p : Pair) (fd up : Nat) (base : Bytes) (M₀ : Maps)
    (records : List (List Bytes)) : Prop where
  leads : p.primary.Leads fd base M₀ records base.length
  applied : p.replica.Applied up base.length M₀ [] M₀
  primaryState : p.primary.replication.state = .catchUp
  replicaState : p.replica.replication.state = .catchUp
  wire : p.wire = []
  input : p.input = []

/-- What a replica in `r` has to do with its primary in `q`, at the same time or
before. -/
structure Pair.Agrees (q r : Pair) (fd up origin : Nat) : Prop where
  /-- The maps and the log are those the primary had at this position. -/
  same : q.primary.aofOffset = r.replica.aofOffset → ∃ M,
    q.primary.engines.Hold q.primary.rt.mallocs M ∧ r.replica.engines.Hold r.replica.rt.mallocs M ∧
      (r.replica.aofFile .appendonlyAof).drop origin = (q.primary.aofFile .appendonlyAof).drop origin
  behind : (r.replica.aofFile .appendonlyAof).drop origin <+:
    (r.primary.aofFile .appendonlyAof).drop origin
  /-- A server started on the files of the replica has its maps. -/
  recovers : ∃ M, r.replica.engines.Hold r.replica.rt.mallocs M ∧
    r.replica.disk.Recovers .legacyHybrid M
  /-- It takes what it receives, unless memory or a request for a file fails. -/
  handles : ¬r.replica.CanFail → ∀ capacity start, r.input ≠ [] → replyRoom < capacity →
    ∃ buffer consumed s', kvsReplicationUpstreamNetworkProtocol up start capacity r.input r.replica =
      .ok ((buffer, some ([], consumed)), s')
  /-- When nothing is under way and nothing is left to send, they are in step. -/
  current : ∀ capacity got env s', r.wire = [] → r.input = [] →
    kvsReplicationStream fd capacity got env r.primary = .ok (.wait, s') →
    r.primary.aofOffset = r.replica.aofOffset ∧
      r.replica.replication.state = r.primary.replication.state

section
variable {s : Server} {M M' M₀ : Maps} {base : Bytes}
  {done todo records before after : List (List Bytes)} {origin sent sent' fd up capacity : Nat}
  {p q q' : Pair}

-- ---------------------------------------------------------------------------
-- Runs
-- ---------------------------------------------------------------------------

theorem Server.Leads.doneFits (h : s.Leads fd base M₀ (done ++ todo) sent) :
    (base ++ logOf done).length ≤ offMax := by
  have hfits := h.fits
  simp only [logOf_append, List.length_append] at hfits ⊢
  omega

/-- Whatever the replica has received, it takes what is complete and waits for
the rest, unless memory or a request for a file fails. -/
theorem Pair.AgreesAt.handle (h : p.AgreesAt fd up base M₀ done todo sent M) (hinput : p.input ≠ [])
    (hcapacity : replyRoom < capacity) (start : RdmaStart) :
    Triple (kvsReplicationUpstreamNetworkProtocol up start capacity p.input) p.replica
      (fun result s' => (∃ buffer consumed, result = (buffer, some ([], consumed)) ∧
          ∃ done' todo' M', done ++ todo = done' ++ todo' ∧
            Pair.AgreesAt { p with replica := s', input := buffer.drop consumed } fd up base M₀ done' todo'
              sent M') ∨
        result.2 = none ∧ p.replica.CanFail) (fun e => e = .exit ∧ p.replica.CanFail) := by
  have hroom : 0 < capacity := Nat.lt_of_le_of_lt (Nat.zero_le _) hcapacity
  obtain ⟨s, t, wire, input⟩ := p
  obtain ⟨hleads, happlied, htransit⟩ := h
  dsimp only at hleads happlied htransit hinput ⊢
  have hheads := htransit.heads hinput
  generalize hprimary : s.replication.state = primary at hheads
  generalize hreplica : t.replication.state = replica at hheads
  cases hheads with
  | @record r todo _ _ more htransit' =>
    obtain ⟨M', hredo⟩ := hleads.next happlied.after
    have hrecord : ClientRecord r := hleads.all r (by simp)
    have hsnoc : done ++ r :: todo = (done ++ [r]) ++ todo := by simp
    rw [hsnoc] at hleads
    refine (handle_record happlied hredo hrecord hcapacity start hleads.doneFits more).weaken ?_
    rintro result t' (⟨buffer, consumed, rfl, hmore, happlied', hstate⟩ | hfailed)
    · refine .inl ⟨buffer, consumed, rfl, done ++ [r], todo, M', hsnoc, hleads, happlied', ?_⟩
      dsimp only
      rw [hmore, hstate, hprimary, hreplica]
      exact htransit'
    · exact .inr hfailed
  | recordPart hmem hmissing hr =>
    have hrecord := hleads.all _ (List.mem_append_right done hmem)
    refine (handle_recordPart happlied.following hinput hroom start hrecord.record hmissing hr).mono ?_
      fun _ h => h.elim
    rintro result t' ⟨rfl, rfl⟩
    exact .inl ⟨_, _, rfl, done, todo, M, rfl, hleads, happlied, htransit⟩
  | @line n _ more hn htransit' =>
    obtain ⟨front, hfront, hwriter, hfile⟩ := happlied.log
    have hfits := hleads.doneFits
    have hoffset : t.aofOffset = some n := by
      unfold Server.aofOffset
      rw [hwriter, Option.map_some, List.length_append, hfront, hn]
    rw [List.length_append, ← hn] at hfits
    refine (handle_line happlied.following hcapacity start hfits hoffset more).mono ?_ fun _ h => h.elim
    rintro result t' ⟨buffer, consumed, rfl, hmore, rfl⟩
    refine .inl ⟨buffer, consumed, rfl, done, todo, M, rfl, hleads, ?_, ?_⟩
    · exact ⟨⟨happlied.following.initialized, happlied.following.role,
        happlied.following.connection, .inr rfl⟩, happlied.role, happlied.mode, happlied.after,
        happlied.sized, happlied.holds, happlied.log, happlied.recovers, happlied.covered⟩
    · dsimp only
      rw [hmore, hprimary]
      exact htransit'
  | linePart hmissing hline =>
    refine (handle_linePart happlied.following hinput hroom start hmissing hline).mono ?_ fun _ h => h.elim
    rintro result t' ⟨rfl, rfl⟩
    exact .inl ⟨_, _, rfl, done, todo, M, rfl, hleads, happlied, htransit⟩

/-- One step: the records behind the checkpoint are the same, or more. -/
theorem Pair.AgreesAt.step (h : p.AgreesAt fd up base M₀ done todo sent M) (hstep : p.Step fd up q) :
    ∃ done' todo' sent' M', done ++ todo <+: done' ++ todo' ∧
      q.AgreesAt fd up base M₀ done' todo' sent' M' := by
  have hfits := h.leads.doneFits
  rw [List.length_append] at hfits
  cases hstep with
  | command hsize hready hrun =>
    obtain ⟨new, hleads, hmanager⟩ := h.leads.command hsize hready hrun
    rw [List.append_assoc] at hleads
    refine ⟨done, todo ++ new, sent, M, ?_, hleads, h.applied, ?_⟩
    · rw [← List.append_assoc]
      exact List.prefix_append ..
    · dsimp only
      rw [hmanager]
      exact h.transit.grow new
  | @poll capacity got env streamed s' hrun =>
    obtain ⟨r, m, hpoll, hstreams⟩ := h.leads.sends.stream capacity got env
    rw [hpoll] at hrun
    obtain ⟨rfl, rfl⟩ := Prod.mk.inj (Except.ok.inj hrun)
    have hidle : m.state = p.primary.replication.state →
        Server.Sends { p.primary with replication := m } fd (base ++ logOf (done ++ todo)) sent →
        r.bytes = [] → ∃ done' todo' sent' M', done ++ todo <+: done' ++ todo' ∧
          Pair.AgreesAt { p with
            primary := { p.primary with replication := m }, wire := p.wire ++ r.bytes }
            fd up base M₀ done' todo' sent' M' := by
      intro hstate hsends hbytes
      refine ⟨done, todo, sent, M, List.prefix_rfl, h.leads.polled hsends, h.applied, ?_⟩
      dsimp only
      rw [hstate, hbytes, List.append_nil]
      exact h.transit
    cases hstreams with
    | data hchunk hsends hstate =>
      refine ⟨done, todo, _, M, List.prefix_rfl, h.leads.polled hsends, h.applied, ?_⟩
      dsimp only
      rw [hstate, ← List.append_assoc]
      exact h.transit.send hchunk
    | online hend hcatchUp honline hsends =>
      refine ⟨done, todo, sent, M, List.prefix_rfl, h.leads.polled hsends, h.applied, ?_⟩
      have htransit := h.transit
      rw [hcatchUp] at htransit
      dsimp only
      rw [honline, ← List.append_assoc]
      exact htransit.announce hend
    | wait _ hstate hsends => exact hidle hstate hsends rfl
    | failed _ hstate hsends => exact hidle hstate hsends rfl
  | elsewhere hconnection hfd hrun =>
    obtain ⟨answer, hsame⟩ :=
      PrimaryEvent.run_foreign h.leads.sends.connection _ hconnection hfd
    rw [hsame] at hrun
    obtain ⟨-, rfl⟩ := Prod.mk.inj (Except.ok.inj hrun)
    exact ⟨done, todo, sent, M, List.prefix_rfl, h.leads, h.applied, h.transit⟩
  | deliver hwire =>
    refine ⟨done, todo, sent, M, List.prefix_rfl, h.leads, h.applied, ?_⟩
    dsimp only
    rw [List.append_assoc, ← hwire]
    exact h.transit
  | @handle capacity start buffer reply consumed s' hinput hroom hrun =>
    obtain ⟨_, _, hresult, done', todo', M', hsame, hagrees⟩ | ⟨hnone, -⟩ :=
      (h.handle hinput hroom start).post hrun
    · cases hresult
      exact ⟨done', todo', sent, M', by rw [hsame], hagrees⟩
    · cases hnone
  | @upstream capacity env streamed s' hrun =>
    obtain ⟨sync, rfl⟩ :=
      (kvsReplicationUpstreamStream_following h.applied.following capacity env).post hrun
    exact ⟨done, todo, sent, M, List.prefix_rfl, h.leads, h.applied.upstream sync, h.transit⟩
  | read hready hrun =>
    obtain ⟨happlied, hmanager⟩ := h.applied.read hfits hready hrun
    refine ⟨done, todo, sent, M, List.prefix_rfl, h.leads, happlied, ?_⟩
    dsimp only
    rw [hmanager]
    exact h.transit

theorem Pair.AgreesAt.reaches (h : p.AgreesAt fd up base M₀ done todo sent M)
    (hrun : p.Reaches fd up q) :
    ∃ done' todo' sent' M', done ++ todo <+: done' ++ todo' ∧
      q.AgreesAt fd up base M₀ done' todo' sent' M' := by
  induction hrun with
  | start => exact ⟨done, todo, sent, M, List.prefix_rfl, h⟩
  | step _ hstep ih =>
    obtain ⟨done₁, todo₁, sent₁, M₁, hprefix₁, h₁⟩ := ih
    obtain ⟨done₂, todo₂, sent₂, M₂, hprefix₂, h₂⟩ := h₁.step hstep
    exact ⟨done₂, todo₂, sent₂, M₂, hprefix₁.trans hprefix₂, h₂⟩

-- ---------------------------------------------------------------------------
-- Agreement
-- ---------------------------------------------------------------------------

theorem logOf_inj_of_prefix (h : done <+: records) (h' : todo <+: records)
    (hlength : (logOf done).length = (logOf todo).length) : done = todo := by
  have hmore : ∀ {records records' : List (List Bytes)}, records <+: records' →
      (logOf records).length = (logOf records').length → records = records' := by
    rintro records _ ⟨more, rfl⟩ hsame
    cases more with
    | nil => rw [List.append_nil]
    | cons r more =>
      have hpos := length_encodeFields_pos r
      rw [logOf_append, logOf_cons, List.length_append, List.length_append] at hsame
      omega
  obtain hle | hle := Nat.le_total done.length todo.length
  · exact hmore (List.prefix_of_prefix_length_le h h' hle) hlength
  · exact (hmore (List.prefix_of_prefix_length_le h' h hle) hlength.symm).symm

theorem Pair.Starts.agreesAt (h : p.Starts fd up base M₀ records) :
    p.AgreesAt fd up base M₀ [] records base.length M₀ := by
  refine ⟨h.leads, h.applied, ?_⟩
  rw [h.primaryState, h.replicaState, h.wire, h.input]
  exact .data List.nil_prefix rfl

theorem Server.Applied.logged (h : s.Applied up origin M₀ done M) :
    s.aofOffset = some (origin + (logOf done).length) ∧
      (s.aofFile .appendonlyAof).drop origin = logOf done := by
  obtain ⟨front, hfront, hwriter, hfile⟩ := h.log
  constructor
  · unfold Server.aofOffset
    rw [hwriter, Option.map_some, List.length_append, hfront]
  · rw [hfile, ← hfront, List.drop_left]

theorem Server.Leads.logged (h : s.Leads fd base M₀ records sent) :
    s.aofOffset = some (base.length + (logOf records).length) ∧
      (s.aofFile .appendonlyAof).drop base.length = logOf records := by
  refine ⟨by rw [h.sends.atEnd.aofOffset, List.length_append], ?_⟩
  rw [h.sends.atEnd.2, List.drop_left]

theorem Pair.AgreesAt.agrees (hq : q.AgreesAt fd up base M₀ done todo sent M)
    (hp : p.AgreesAt fd up base M₀ before after sent' M')
    (hfront : done ++ todo <+: before ++ after) : q.Agrees p fd up base.length := by
  obtain ⟨hoffset, hlog⟩ := hq.leads.logged
  obtain ⟨hoffset', hlog'⟩ := hp.applied.logged
  obtain ⟨hoffset'', hlog''⟩ := hp.leads.logged
  refine ⟨fun hsame => ?_, ?_, ⟨M', hp.applied.holds, hp.applied.recovers⟩, ?_, ?_⟩
  · rw [hoffset, hoffset', Option.some.injEq] at hsame
    have hdone : done ++ todo = before :=
      logOf_inj_of_prefix hfront (List.prefix_append ..) (by omega)
    obtain ⟨M₁, hafter, hE⟩ := hq.leads.holds
    rw [hdone, hp.applied.after, Option.some.injEq] at hafter
    subst hafter
    refine ⟨M', hE, hp.applied.holds, ?_⟩
    rw [hlog', hlog, hdone]
  · rw [hlog', hlog'', logOf_append]
    exact List.prefix_append ..
  · intro hgood capacity start hinput hcapacity
    obtain ⟨result, s', hrun, ⟨buffer, consumed, rfl, -⟩ | ⟨-, hcan⟩⟩ :=
      ((hp.handle hinput hcapacity start).mono (fun _ _ h => h) fun _ h => hgood h.2).run
    · exact ⟨buffer, consumed, s', hrun⟩
    · exact absurd hcan hgood
  · intro capacity got env s' hwire hinput hrun
    obtain ⟨r, m, hpoll, hstreams⟩ := hp.leads.sends.stream capacity got env
    rw [hpoll] at hrun
    obtain ⟨rfl, -⟩ := Prod.mk.inj (Except.ok.inj hrun)
    have htransit := hp.transit
    rw [hwire, hinput, List.append_nil] at htransit
    cases hstreams with
    | wait hend =>
      generalize p.primary.replication.state = primary at htransit ⊢
      generalize p.replica.replication.state = replica at htransit ⊢
      generalize hpending : ([] : Bytes) = pending at htransit
      cases htransit with
      | data _ hsent =>
        rw [← hpending, List.length_nil] at hsent
        rw [List.length_append] at hend
        rw [hoffset'', hoffset']
        exact ⟨congrArg some (by omega), rfl⟩
      | line =>
        have hlength := congrArg List.length hpending
        simp [onlineLine, ascii] at hlength

/-- A replica and its primary, from the end of the full synchronisation on: at
the position it has reached, the replica holds what its primary held there. -/
theorem replication_agreement (hstart : p.Starts fd up base M₀ records) (hq : p.Reaches fd up q)
    (hq' : q.Reaches fd up q') : q.Agrees q' fd up base.length := by
  obtain ⟨done, todo, sent, M, -, hq⟩ := hstart.agreesAt.reaches hq
  obtain ⟨done', todo', sent', M', hprefix, hq'⟩ := hq.reaches hq'
  exact hq.agrees hq' hprefix

/-- A record that was received is taken if nothing of the replica fails. -/
theorem Pair.takes_record (happlied : p.replica.Applied up base.length M₀ done M)
    (hredo : M.redo r = some M') (hrecord : ClientRecord r)
    (hfits : (base ++ logOf (done ++ [r])).length ≤ offMax) (hgood : ¬p.replica.CanFail)
    (hinput : p.input = encodeFields r) :
    ∃ t', p.Step fd up { p with replica := t', input := [] } ∧
      t'.Applied up base.length M₀ (done ++ [r]) M' := by
  have hroom : replyRoom < bufferLength := by decide
  have hne : p.input ≠ [] := by
    rw [hinput]
    exact List.cons_ne_nil _ _
  obtain ⟨_, t', hrun, ⟨buffer, consumed, rfl, hempty, happlied', -⟩ | ⟨-, hcan⟩⟩ :=
    ((handle_record happlied hredo hrecord hroom (.resolving 0) hfits []).mono
      (fun _ _ h => h) fun _ h => hgood h.2).run
  · rw [List.append_nil, ← hinput] at hrun
    have hstep : p.Step fd up { p with replica := t', input := buffer.drop consumed } :=
      .handle hne hroom hrun
    rw [hempty] at hstep
    exact ⟨t', hstep, happlied'⟩
  · exact absurd hcan hgood

/-- A record that comes in two pieces: the replica waits for the second, runs the
command, and then holds what its primary holds. -/
theorem replication_agreement_record : ∃ p q : Pair, p.Reaches 7 8 q ∧ p.replica.aofOffset = some 28 ∧
    q.replica.aofOffset = some 56 ∧ p.Agrees q 7 8 28 ∧ ∃ M, (M .rbtree).lookup [107] = some [119] ∧
      q.primary.engines.Hold q.primary.rt.mallocs M ∧ q.replica.engines.Hold q.replica.rt.mallocs M := by
  obtain ⟨rt₀, E₀, M₀, hmemory, hafter₀, hsized, hE₀⟩ := probe_held [true]
  obtain ⟨rt₁, E₁, M₁, -, hafter₁, -, hE₁⟩ := probe_held [true, false]
  let base := encodeFields (probe true)
  let record := encodeFields (probe false)
  have hredo : M₀.after [probe false] = some M₁ := by
    have happend := Maps.after_append Maps.empty [probe true] [probe false]
    rw [show Maps.empty.after [probe true] = some M₀ from hafter₀] at happend
    exact happend.symm.trans hafter₁
  let manager : ReplicationManager := { ReplicationManager.start with
    initialized := true, role := .primary, snapshotConnectionFd := some 7, state := .catchUp }
  let s : Server := ⟨rt₁, E₁, fun _ => some (base ++ record), .start fun _ => none,
    some ⟨.appendonlyAof, 56, true⟩, .primary, .legacyHybrid, manager⟩
  let t : Server := ⟨rt₀, E₀, directoryAt [] 0 (some base), .start fun _ => none,
    some ⟨.appendonlyAof, 28, true⟩, .replica, .legacyHybrid, { ReplicationManager.start with
      initialized := true, role := .replica, primaryConnectionFd := some 8, state := .catchUp }⟩
  let env : RdmaAnswers := ⟨false, true, true, some none, true, true, true, true, .done, true, true,
    true, some none⟩
  have hfirst : kvsReplicationStream 7 64 10 env
      { s with replication := { manager with aofReader := some ⟨28, 28⟩ } } = .ok (.sent (record.take 10),
      { s with replication := { manager with aofReader := some ⟨38, 18⟩ } }) := rfl
  have hsecond : kvsReplicationStream 7 64 64 env
      { s with replication := { manager with aofReader := some ⟨38, 18⟩ } } = .ok (.sent (record.drop 10),
      { s with replication := { manager with aofReader := some ⟨56, 0⟩ } }) := rfl
  have hrecord : ClientRecord (probe false) := ⟨⟨.inr rfl, by decide⟩, by decide⟩
  have hsends : Server.Sends { s with replication := { manager with aofReader := some ⟨28, 28⟩ } } 7
      (base ++ logOf [probe false]) base.length := by
    refine ⟨rfl, rfl, rfl, ⟨rfl, rfl⟩, .inl rfl, by decide, ?_, fun hnone => by cases hnone⟩
    rintro reader ⟨⟩
    exact ⟨rfl, by decide⟩
  have happlied : t.Applied 8 base.length M₀ [] M₀ := by
    obtain ⟨-, hbase⟩ := directoryAt_base [] 0 (some base) (by simp) (Nat.zero_le _) (Nat.zero_le _) rfl
      (by simp)
    have hredo₀ : Maps.empty.redo (probe true) = some M₀ := by
      simpa [Maps.after] using hafter₀
    refine ⟨⟨rfl, rfl, rfl, .inl rfl⟩, rfl, rfl, rfl, hsized, hE₀, ⟨base, rfl, rfl, rfl⟩, ?_, ?_⟩
    · exact ⟨Maps.empty, 0, hbase, LogReplays.snoc (.done _) hredo₀ (by decide)⟩
    · intro M o hother
      rw [(hother.unique hbase).2]
      exact Nat.zero_le _
  have hstart : Pair.Starts ⟨{ s with replication := { manager with aofReader := some ⟨28, 28⟩ } }, t, [], []⟩
      7 8 base M₀ [probe false] := by
    refine ⟨⟨hsends, rfl, by simpa using hrecord, by decide, M₁, hredo, hE₁⟩, happlied, rfl, rfl, rfl, rfl⟩
  have hredo₁ : M₀.redo (probe false) = some M₁ := by
    simpa [Maps.after] using hredo
  have hcut : record = record.take 10 ++ record.drop 10 := rfl
  have hpiece : record.take 10 ≠ [] := by decide
  have hlast : record.drop 10 ≠ [] := by decide
  have hroom : replyRoom < 64 := by decide
  obtain ⟨_, _, hpart, rfl, rfl⟩ : ∃ result t', kvsReplicationUpstreamNetworkProtocol 8 (.resolving 0) 64
      (record.take 10) t = .ok (result, t') ∧ result = (record.take 10, some ([], 0)) ∧ t' = t :=
    (handle_recordPart happlied.following hpiece (by decide) _ hrecord.record hlast hcut).run
  have hgood : ¬t.CanFail := not_or.mpr ⟨hmemory, FileIo.not_canFail_start⟩
  let p : Pair := ⟨{ s with replication := { manager with aofReader := some ⟨28, 28⟩ } }, t, [], []⟩
  let s₁ : Server := { s with replication := { manager with aofReader := some ⟨38, 18⟩ } }
  let s₂ : Server := { s with replication := { manager with aofReader := some ⟨56, 0⟩ } }
  obtain ⟨t', htakes, happlied'⟩ := Pair.takes_record (p := ⟨s₂, t, [], record⟩) happlied hredo₁ hrecord
    (by decide) hgood rfl
  let q : Pair := ⟨s₂, t', [], []⟩
  have hrun : p.Reaches 7 8 q := by
    have hsends : p.Reaches 7 8 ⟨s₁, t, record.take 10, []⟩ :=
      .step .start (Pair.Step.poll (p := p) hfirst)
    have hreceives : p.Reaches 7 8 ⟨s₁, t, [], record.take 10⟩ :=
      .step hsends (Pair.Step.deliver (p := ⟨s₁, t, record.take 10, []⟩) (List.append_nil _).symm)
    have hwaits : p.Reaches 7 8 ⟨s₁, t, [], record.take 10⟩ :=
      .step hreceives (Pair.Step.handle (p := ⟨s₁, t, [], record.take 10⟩) hpiece hroom hpart)
    have hrest : p.Reaches 7 8 ⟨q.primary, t, record.drop 10, record.take 10⟩ :=
      .step hwaits (Pair.Step.poll (p := ⟨s₁, t, [], record.take 10⟩) hsecond)
    have hcomplete : p.Reaches 7 8 ⟨q.primary, t, [], record⟩ :=
      .step hrest (Pair.Step.deliver (p := ⟨q.primary, t, record.drop 10, record.take 10⟩)
        (List.append_nil _).symm)
    exact .step hcomplete htakes
  refine ⟨p, q, hrun, happlied.logged.1, happlied'.logged.1, replication_agreement hstart .start hrun,
    M₁, ?_, hE₁, happlied'.holds⟩
  rw [redo_probe] at hredo₁
  cases hredo₁
  simp

end

end KvStore
