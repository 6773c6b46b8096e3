import KvStore.Replication.LogStream
import KvStore.Replication.Messages
import KvStore.Server.Checkpoint
import KvStore.Server.ReadOnly

/-!
# A log and who follows it

What holds of a primary that streams its log (`Server.Leads`), of a replica that
runs and logs the commands in it (`Server.Applied`), and of the bytes between
them (`Transit`). Each handler of the replica has one triple, for each of the
four things its input can start with.
-/

namespace KvStore

open Lib
open Replaying (AtEnd Record logOf)

-- ---------------------------------------------------------------------------
-- The two servers
-- ---------------------------------------------------------------------------

structure ClientRecord (r : List Bytes) : Prop where
  record : Record r
  size : (encodeFields r).length ≤ kvsMaxClientCommandBytes

/-- Behind `base`, where the maps were `M₀`, the log of the server is `records`. -/
structure Server.LogsSince (s : Server) (base : Bytes) (M₀ : Maps) (records : List (List Bytes)) :
    Prop where
  atEnd : AtEnd s .appendonlyAof (base ++ logOf records)
  mode : s.persistenceMode = .legacyHybrid
  all : ∀ r ∈ records, ClientRecord r
  fits : (base ++ logOf records).length ≤ offMax
  holds : ∃ M, M₀.after records = some M ∧ s.engines.Hold s.rt.mallocs M

/-- A primary that has sent its log up to `sent`: behind `base`, where the maps
were `M₀`, its log is `records`. -/
structure Server.Leads (s : Server) (fd : Nat) (base : Bytes) (M₀ : Maps)
    (records : List (List Bytes)) (sent : Nat) : Prop where
  sends : s.Sends fd (base ++ logOf records) sent
  mode : s.persistenceMode = .legacyHybrid
  all : ∀ r ∈ records, ClientRecord r
  fits : (base ++ logOf records).length ≤ offMax
  holds : ∃ M, M₀.after records = some M ∧ s.engines.Hold s.rt.mallocs M

/-- A replica that has applied `done` behind a checkpoint at `origin`. -/
structure Server.Applied (s : Server) (up origin : Nat) (M₀ : Maps) (done : List (List Bytes))
    (M : Maps) : Prop where
  following : s.Following up
  role : s.role = .replica
  mode : s.persistenceMode = .legacyHybrid
  after : M₀.after done = some M
  sized : M.Sized
  holds : s.engines.Hold s.rt.mallocs M
  log : ∃ front, front.length = origin ∧ AtEnd s .appendonlyAof (front ++ logOf done)
  recovers : s.disk.Recovers .legacyHybrid M
  covered : s.disk.Covered

/-- What is under way when the managers are in these states. -/
inductive Transit (origin : Nat) (done todo : List (List Bytes)) (sent : Nat) :
    ReplicationState → ReplicationState → Bytes → Prop
  | data (hpending : pending <+: logOf todo)
    (hsent : sent = origin + (logOf done).length + pending.length) :
    Transit origin done todo sent state state pending
  /-- The `ONLINE` line comes behind the records `before`. -/
  | line (htodo : todo = before ++ after) (htail : tail <+: logOf after)
    (hn : n = origin + (logOf (done ++ before)).length) (hsent : sent = n + tail.length) :
    Transit origin done todo sent .online .catchUp (logOf before ++ (onlineLine n ++ tail))

/-- What the input of the replica starts with: a record, the `ONLINE` line, or a
part of one of them; `wire` is not received yet. -/
inductive Transit.Heads (origin : Nat) (done : List (List Bytes)) (sent : Nat) (wire : Bytes) :
    List (List Bytes) → ReplicationState → ReplicationState → Bytes → Prop
  | record (h : Transit origin (done ++ [r]) todo sent primary replica (more ++ wire)) :
    Heads origin done sent wire (r :: todo) primary replica (encodeFields r ++ more)
  | recordPart (hmem : r ∈ todo) (hmissing : missing ≠ []) (hr : encodeFields r = input ++ missing) :
    Heads origin done sent wire todo primary replica input
  | line (hn : n = origin + (logOf done).length)
    (h : Transit origin done todo sent .online .online (more ++ wire)) :
    Heads origin done sent wire todo .online .catchUp (onlineLine n ++ more)
  | linePart (hmissing : missing ≠ []) (hline : onlineLine n = input ++ missing) :
    Heads origin done sent wire todo primary replica input

section
variable {s s' : Server} {M M' M₀ : Maps} {fields r : List Bytes} {source : CommandSource}
  {output : OutputBuffer} {log base input wire pending tail more rest : Bytes}
  {done todo records before after : List (List Bytes)} {origin sent fd up capacity n : Nat}
  {primary replica : ReplicationState} {executed : Executed} {m : ReplicationManager} {sent' : Nat}
  {chunk : Bytes}

@[simp] theorem logOf_nil : logOf [] = [] := rfl

@[simp] theorem logOf_cons (r : List Bytes) (records : List (List Bytes)) :
    logOf (r :: records) = encodeFields r ++ logOf records := rfl

@[simp] theorem logOf_append (records records' : List (List Bytes)) :
    logOf (records ++ records') = logOf records ++ logOf records' := by
  unfold Replaying.logOf
  exact List.flatMap_append

theorem Maps.after_append (M : Maps) (records records' : List (List Bytes)) :
    M.after (records ++ records') = (M.after records).bind fun M' => M'.after records' := by
  unfold Maps.after
  rw [List.foldlM_append]
  rfl

theorem Maps.after_snoc (hafter : M₀.after done = some M) (hredo : M.redo r = some M') :
    M₀.after (done ++ [r]) = some M' := by
  rw [Maps.after_append, hafter]
  simp [Maps.after, hredo]

theorem head_cases (h : (input ++ wire : Bytes) = log ++ rest) :
    (∃ more, input = log ++ more ∧ rest = more ++ wire) ∨
      ∃ missing, missing ≠ [] ∧ log = input ++ missing := by
  obtain ⟨more, hmore, hwire⟩ | ⟨more, hmore, hrest⟩ := List.append_eq_append_iff.mp h
  · by_cases hnil : more = []
    · subst hnil
      refine .inl ⟨[], ?_, ?_⟩
      · rw [hmore, List.append_nil, List.append_nil]
      · rw [hwire, List.nil_append, List.nil_append]
    · exact .inr ⟨more, hnil, hmore⟩
  · exact .inl ⟨more, hmore, hrest⟩

-- ---------------------------------------------------------------------------
-- What commands leave
-- ---------------------------------------------------------------------------

theorem Server.Outcome.logged (h : s.Outcome M source fields true s') (hsource : source ≠ .recovery)
    (hmode : s.persistenceMode = .legacyHybrid) (hlog : AtEnd s .appendonlyAof log) :
    ∃ rt' E' M', M.redo fields = some M' ∧ s.rt.Extends rt' ∧ E'.Hold rt'.mallocs M' ∧
      (log ++ encodeFields fields).length ≤ offMax ∧ s' = { s with
        rt := rt', engines := E'
        disk := s.disk.write .appendonlyAof (log ++ encodeFields fields)
        io := (s.io.ask (.write .appendonlyAof log.length (encodeFields fields))).ask (.sync .appendonlyAof)
        aofWriter := some ⟨.appendonlyAof, (log ++ encodeFields fields).length, true⟩ } := by
  obtain ⟨hwriter, hfile⟩ := hlog
  cases h with
  | done htook hsome =>
    obtain ⟨M', hM'⟩ := Option.isSome_iff_exists.mp hsome
    obtain ⟨s₀, rt', E', hleaves, rfl, hext, hE⟩ := htook
    rw [hM', Option.getD_some] at hE
    have hlogs : s.Logs source := ⟨hsource, by simp [hmode]⟩
    cases hleaves with
    | kept hnone =>
      rw [hnone hlogs] at hsome
      cases hsome
    | logged _ _ htakes =>
      refine ⟨rt', E', M', hM', hext, hE, ?_, ?_⟩
      · rw [List.length_append]
        exact Nat.not_lt.mp fun hlong => htakes.room ⟨_, hwriter, hlong⟩
      · simp only [Server.append, hwriter, hfile, pwrite_end, List.length_append]
    | saved hname =>
      rw [redo_of_not_found hname] at hsome
      cases hsome

theorem Server.Outcome.unlogged (h : s.Outcome M source fields false s')
    (hE : s.engines.Hold s.rt.mallocs M)
    (hmode : s.persistenceMode = .legacyHybrid) (hlog : AtEnd s .appendonlyAof log) :
    s'.engines.Hold s'.rt.mallocs M ∧ AtEnd s' .appendonlyAof log ∧ s.SameConfig s' := by
  cases h with
  | idle hwhy hext hE' => exact ⟨hE', hlog, rfl, rfl, rfl⟩
  | saved _ hname htarget hext =>
    refine ⟨hE.later hext.mallocs, ⟨hlog.1, ?_⟩, rfl, rfl, rfl⟩
    have hne : Path.appendonlyAof ≠ _ := snapshotTarget_ne_log htarget (by rw [hmode]; rfl)
    unfold Server.aofFile
    simp only [Disk.write_other _ _ hne]
    exact hlog.2

theorem Server.Outcome.extends {b : Bool} (h : s.Outcome M source fields b s') :
    s.rt.Extends s'.rt := by
  cases h with
  | done htook =>
    obtain ⟨s₀, rt', E', -, rfl, hext, -⟩ := htook
    exact hext
  | idle _ hext => exact hext
  | saved _ _ _ hext => exact hext

-- ---------------------------------------------------------------------------
-- The primary
-- ---------------------------------------------------------------------------

theorem Server.Leads.logs (h : s.Leads fd base M₀ records sent) : s.LogsSince base M₀ records :=
  ⟨h.sends.atEnd, h.mode, h.all, h.fits, h.holds⟩

theorem Server.LogsSince.logged (h : s.LogsSince base M₀ records) (hafter : M₀.after records = some M)
    (houtcome : s.Outcome M .client fields true s')
    (hsize : (encodeFields fields).length ≤ kvsMaxClientCommandBytes) :
    s'.LogsSince base M₀ (records ++ [fields]) ∧ s'.replication = s.replication := by
  obtain ⟨rt', E', M', hredo, -, hE', hfits, rfl⟩ := houtcome.logged (by decide) h.mode h.atEnd
  obtain ⟨cmd, hcmd, -⟩ := redo_eq_some hredo
  have hrecord : ClientRecord fields :=
    ⟨⟨hcmd.count, Nat.le_trans hsize (by decide)⟩, hsize⟩
  have hlog : base ++ logOf (records ++ [fields]) = base ++ logOf records ++ encodeFields fields := by
    simp
  refine ⟨⟨?_, h.mode, ?_, ?_, M', Maps.after_snoc hafter hredo, hE'⟩, rfl⟩
  · rw [hlog]
    refine ⟨rfl, ?_⟩
    simp [Server.aofFile]
  · intro r hr
    obtain hr | hr := List.mem_append.mp hr
    · exact h.all r hr
    · rw [List.mem_singleton.mp hr]
      exact hrecord
  · rw [hlog]
    exact hfits

/-- A client's command on the primary: a record that follows, or nothing. -/
theorem Server.LogsSince.command (h : s.LogsSince base M₀ records)
    (hsize : (encodeFields fields).length ≤ kvsMaxClientCommandBytes) (hready : output.Ready)
    (hrun : kvsExecuteFields fields output .client s = .ok (executed, s')) :
    ∃ new, s'.LogsSince base M₀ (records ++ new) ∧ s'.replication = s.replication := by
  obtain ⟨M, hafter, hE⟩ := h.holds
  have hwriter : s.Logs .client → s.aofWriter.isSome := fun _ => by
    rw [h.atEnd.1]
    rfl
  have hroom := hready.room
  unfold bufferLength at hroom
  obtain ⟨done, houtcome, -⟩ :=
    (kvsExecuteFields_effect hE hwriter (by omega) (by omega)).post hrun
  cases done with
  | true => exact ⟨[fields], h.logged hafter houtcome hsize⟩
  | false =>
    obtain ⟨hE', hend, hsame⟩ := houtcome.unlogged hE h.mode h.atEnd
    refine ⟨[], ?_, hsame.replication⟩
    rw [List.append_nil]
    exact ⟨hend, hsame.mode.trans h.mode, h.all, h.fits, M, hafter, hE'⟩

theorem Server.Leads.command (h : s.Leads fd base M₀ records sent)
    (hsize : (encodeFields fields).length ≤ kvsMaxClientCommandBytes) (hready : output.Ready)
    (hrun : kvsExecuteFields fields output .client s = .ok (executed, s')) :
    ∃ new, s'.Leads fd base M₀ (records ++ new) sent ∧ s'.replication = s.replication := by
  obtain ⟨new, hlogs, hmanager⟩ := h.logs.command hsize hready hrun
  refine ⟨new, ⟨?_, hlogs.mode, hlogs.all, hlogs.fits, hlogs.holds⟩, hmanager⟩
  have hend := hlogs.atEnd
  rw [logOf_append, ← List.append_assoc] at hend ⊢
  exact h.sends.congr hmanager hend

theorem Server.Leads.polled (h : s.Leads fd base M₀ records sent)
    (hsends : Server.Sends { s with replication := m } fd (base ++ logOf records) sent') :
    Server.Leads { s with replication := m } fd base M₀ records sent' :=
  ⟨hsends, h.mode, h.all, h.fits, h.holds⟩

theorem Transit.grow (h : Transit origin done todo sent primary replica pending)
    (new : List (List Bytes)) : Transit origin done (todo ++ new) sent primary replica pending := by
  have hgrow : ∀ records : List (List Bytes), logOf records <+: logOf (records ++ new) := by
    intro records
    rw [logOf_append]
    exact List.prefix_append ..
  cases h with
  | data hpending hsent => exact .data (hpending.trans (hgrow todo)) hsent
  | line htodo htail hn hsent =>
    refine .line ?_ (htail.trans (hgrow _)) hn hsent
    rw [htodo, List.append_assoc]

theorem Transit.send (h : Transit base.length done todo sent primary replica pending)
    (hchunk : chunk <+: (base ++ logOf (done ++ todo)).drop sent) :
    Transit base.length done todo (sent + chunk.length) primary replica (pending ++ chunk) := by
  cases h with
  | data hpending hsent =>
    refine .data ?_ ?_
    · have hlog : (base ++ logOf (done ++ todo)).drop (base ++ logOf done).length = logOf todo := by
        rw [logOf_append, ← List.append_assoc, List.drop_left]
      rw [← hlog] at hpending ⊢
      rw [hsent, ← List.length_append] at hchunk
      exact prefix_drop hpending hchunk
    · rw [hsent, List.length_append, Nat.add_assoc]
  | @line before after tail n htodo htail hn hsent =>
    have hline := @Transit.line base.length done todo (sent + chunk.length) before after (tail ++ chunk) n
      htodo ?_ hn ?_
    · rw [List.append_assoc, List.append_assoc]
      exact hline
    · have hlog : (base ++ logOf (done ++ todo)).drop (base ++ logOf (done ++ before)).length =
          logOf after := by
        rw [htodo, ← List.append_assoc done, logOf_append (done ++ before), ← List.append_assoc,
          List.drop_left]
      rw [← hlog] at htail ⊢
      rw [hsent, hn, ← List.length_append] at hchunk
      exact prefix_drop htail hchunk
    · rw [hsent, List.length_append, Nat.add_assoc]

theorem Transit.announce (h : Transit base.length done todo sent .catchUp replica pending)
    (hend : sent = (base ++ logOf (done ++ todo)).length) :
    Transit base.length done todo sent .online replica (pending ++ onlineLine sent) := by
  cases h with
  | data hpending hsent =>
    have hall : pending = logOf todo := by
      refine hpending.eq_of_length ?_
      rw [logOf_append, List.length_append, List.length_append] at hend
      omega
    have hline := @Transit.line base.length done todo sent todo [] [] sent
      (List.append_nil todo).symm List.nil_prefix (by rw [hend, List.length_append]) rfl
    rw [hall]
    rw [List.append_nil] at hline
    exact hline

-- ---------------------------------------------------------------------------
-- What comes first
-- ---------------------------------------------------------------------------

theorem Transit.heads (h : Transit origin done todo sent primary replica (input ++ wire))
    (hinput : input ≠ []) : Transit.Heads origin done sent wire todo primary replica input := by
  have hlength : ∀ r : List Bytes,
      (logOf (done ++ [r])).length = (logOf done).length + (encodeFields r).length := by
    intro r
    simp
  generalize hpending : input ++ wire = pending at h
  cases h with
  | data hprefix hsent =>
    obtain ⟨rest, hrest⟩ := hprefix
    rw [← hpending, List.append_assoc] at hrest
    cases todo with
    | nil =>
      rw [logOf_nil] at hrest
      exact absurd (List.append_eq_nil_iff.mp hrest).1 hinput
    | cons r todo =>
      have hrest : input ++ (wire ++ rest) = encodeFields r ++ logOf todo := hrest
      obtain ⟨more, rfl, hmore⟩ | ⟨missing, hmissing, hr⟩ := head_cases hrest
      · refine .record (.data ⟨rest, ?_⟩ ?_)
        · rw [hmore, List.append_assoc]
        · rw [hsent, ← hpending, hlength]
          simp only [List.length_append]
          omega
      · exact .recordPart List.mem_cons_self hmissing hr
  | @line before after tail n htodo htail hn hsent =>
    cases before with
    | nil =>
      rw [List.append_nil] at hn
      rw [logOf_nil, List.nil_append] at hpending
      obtain ⟨more, rfl, hmore⟩ | ⟨missing, hmissing, hline⟩ := head_cases hpending
      · refine .line hn (.data ?_ ?_)
        · rw [← hmore, htodo]
          exact htail
        · rw [hsent, hn, hmore]
      · exact .linePart hmissing hline
    | cons r before =>
      rw [logOf_cons, List.append_assoc] at hpending
      obtain ⟨more, rfl, hmore⟩ | ⟨missing, hmissing, hr⟩ := head_cases hpending
      · rw [htodo, List.cons_append]
        refine .record ?_
        rw [← hmore]
        refine .line rfl htail ?_ hsent
        rw [hn, List.append_assoc]
        rfl
      · refine .recordPart ?_ hmissing hr
        rw [htodo]
        exact List.mem_cons_self

-- ---------------------------------------------------------------------------
-- The replica
-- ---------------------------------------------------------------------------

theorem head_encodeFields (fields : List Bytes) : (encodeFields fields).head? = some asterisk := rfl

theorem kvsReplicationUpstreamNetworkProtocol_following {Q : LinesHandled → Server → Prop}
    {D : Stop → Prop} (hs : s.Following up) (hinput : input ≠ []) (hcapacity : 0 < capacity) (start : RdmaStart)
    (h : Triple (if input.head? = some asterisk then
        match kvsParseCommand 3 input with
        | .more => return (input, some ([], 0))
        | .error => return (input, none)
        | .done (fields, parsedBytes) _ => do
          if ← kvsReplicationCatchUpCommandProtocol up fields capacity then
            return (input, some ([], parsedBytes))
          else return (input, none)
      else
        kvsReplicationControlLineProtocol (kvsReplicationOnlineControlFrameProtocol up)
          capacity input) s Q D) :
    Triple (kvsReplicationUpstreamNetworkProtocol up start capacity input) s Q D := by
  have hpos := List.length_pos_iff.mpr hinput
  unfold kvsReplicationUpstreamNetworkProtocol
  refine Triple.get_bind (Triple.ite (fun hguard => ?_) fun _ => ?_)
  · simp only [hs.initialized, hs.role, hs.connection, not_true_eq_false, ne_eq, false_or] at hguard
    omega
  · obtain hstate | hstate := hs.state
    · simp only [hstate]
      exact h
    · simp only [hstate]
      exact h

theorem handle_recordPart (hs : s.Following up) (hinput : input ≠ []) (hcapacity : 0 < capacity)
    (start : RdmaStart) (hrecord : Record r) (hmissing : missing ≠ [])
    (hr : encodeFields r = input ++ missing) :
    Triple (kvsReplicationUpstreamNetworkProtocol up start capacity input) s
      (fun result s' => result = (input, some ([], 0)) ∧ s' = s) Never := by
  refine kvsReplicationUpstreamNetworkProtocol_following hs hinput hcapacity start ?_
  have hhead : input.head? = some asterisk := by
    have hhead := head_encodeFields r
    rw [hr, List.head?_append_of_ne_nil _ hinput] at hhead
    exact hhead
  have hmore : kvsParseCommand 3 input = .more := by
    apply (kvsParseCommand_online 3).part_more _ hmissing
    · exact (r, (encodeFields r).length)
    · have hdone := Replaying.kvsParseCommand_record hrecord []
      rw [List.append_nil, hr] at hdone
      rw [hr]
      exact hdone
  rw [if_pos hhead]
  simp only [hmore]
  exact Triple.pure ⟨rfl, rfl⟩

theorem handle_linePart (hs : s.Following up) (hinput : input ≠ []) (hcapacity : 0 < capacity)
    (start : RdmaStart) (hmissing : missing ≠ []) (hline : onlineLine n = input ++ missing) :
    Triple (kvsReplicationUpstreamNetworkProtocol up start capacity input) s
      (fun result s' => result = (input, some ([], 0)) ∧ s' = s) Never := by
  refine kvsReplicationUpstreamNetworkProtocol_following hs hinput hcapacity start ?_
  have hhead : input.head? ≠ some asterisk := by
    have hhead : (onlineLine n).head? = some 79 := rfl
    rw [hline, List.head?_append_of_ne_nil _ hinput] at hhead
    rw [hhead]
    decide
  have hclean : lf ∉ input := by
    have hfront : input <+: onlineFrame n ++ [cr] := by
      have hsplit : onlineLine n = onlineFrame n ++ [cr] ++ [lf] := by
        rw [onlineLine_eq, List.append_assoc]
        rfl
      obtain ⟨missing, last, rfl⟩ : ∃ front last, missing = front ++ [last] :=
        ⟨_, _, (List.dropLast_append_getLast hmissing).symm⟩
      rw [hsplit, ← List.append_assoc] at hline
      obtain ⟨hsame, -⟩ := List.append_inj' hline rfl
      rw [hsame]
      exact List.prefix_append ..
    intro hmem
    obtain hmem | hmem := List.mem_append.mp (hfront.subset hmem)
    · exact ((onlineFrame_text n).ne lf hmem).2 rfl
    · exact absurd hmem (by decide)
  rw [if_neg hhead, kvsReplicationControlLineProtocol_clean hclean]
  exact Triple.pure ⟨rfl, rfl⟩

theorem handle_line (hs : s.Following up) (hcapacity : replyRoom < capacity) (start : RdmaStart)
    (hn : n ≤ offMax) (hoffset : s.aofOffset = some n) (more : Bytes) :
    Triple (kvsReplicationUpstreamNetworkProtocol up start capacity (onlineLine n ++ more)) s
      (fun result s' => ∃ buffer consumed, result = (buffer, some ([], consumed)) ∧
        buffer.drop consumed = more ∧ s' = { s with replication :=
          { s.replication with replicationOffset := n, state := .online } }) Never := by
  unfold replyRoom at hcapacity
  have hhead : (onlineLine n ++ more).head? = some 79 := rfl
  refine kvsReplicationUpstreamNetworkProtocol_following hs (fun hnil => by simp [hnil] at hhead)
    (by omega) start ?_
  rw [if_neg (by rw [hhead]; decide)]
  have hline : lf ∉ onlineFrame n ++ [cr] := by
    rw [List.mem_append]
    rintro (hmem | hmem)
    · exact ((onlineFrame_text n).ne lf hmem).2 rfl
    · exact absurd hmem (by decide)
  have hsplit : onlineLine n ++ more = (onlineFrame n ++ [cr]) ++ lf :: more := by
    rw [onlineLine_eq, List.append_assoc, List.append_assoc]
    rfl
  have hstrip : stripCr (onlineFrame n ++ [cr]) = onlineFrame n := by
    simp [stripCr]
  have hcall := (onlineFrame_accepted hs (by omega : 5 ≤ capacity) hn).run
  simp only [hoffset, if_true] at hcall
  obtain ⟨_, _, hcall, rfl, rfl⟩ := hcall
  rw [hsplit]
  have hne : onlineFrame n ≠ [] := by
    intro hnil
    have := congrArg List.length hnil
    simp [onlineFrame, ascii] at this
  refine (kvsReplicationControlLineProtocol_line hline (by omega)).mono ?_ ?_
  · rintro result s' (⟨reply, rfl, hcalls⟩ | ⟨-, -, hdeclined⟩)
    · rw [hstrip] at hcalls
      cases hcalls with
      | cons _ _ hcall' _ hrest =>
        cases hrest
        rw [hcall] at hcall'
        cases hcall'
        refine ⟨_, _, rfl, ?_, rfl⟩
        rw [← length_terminated, List.drop_left]
    · rw [hstrip] at hdeclined
      obtain ⟨hnil, -⟩ | ⟨-, hcall'⟩ | ⟨hfull, -⟩ | ⟨reply, hcall', hlong⟩ := hdeclined
      · exact absurd hnil hne
      · rw [hcall] at hcall'
        cases hcall'
      · simp only [List.length_nil] at hfull
        omega
      · rw [hcall] at hcall'
        cases hcall'
        simp at hlong
  · intro e hstop
    rw [hstrip] at hstop
    unfold Stops at hstop
    rw [hcall] at hstop
    cases hstop

/-- A record of the primary runs on the replica, and is logged, unless memory or
a request for the log fails. -/
theorem kvsReplicationCatchUpCommandProtocol_record (h : s.Applied up base.length M₀ done M)
    (hredo : M.redo r = some M') (hrecord : ClientRecord r) (hcapacity : replyRoom < capacity)
    (hfits : (base ++ logOf (done ++ [r])).length ≤ offMax) :
    Triple (kvsReplicationCatchUpCommandProtocol up r capacity) s (fun ok s' =>
      ok = true ∧ s'.Applied up base.length M₀ (done ++ [r]) M' ∧
          s'.replication.state = s.replication.state ∨
        ok = false ∧ s.CanFail) (fun e => e = .exit ∧ s.CanFail) := by
  have hroom : 0 < capacity := Nat.lt_of_le_of_lt (Nat.zero_le _) hcapacity
  have hcount := hrecord.record.count
  obtain ⟨front, hfront, hend⟩ := h.log
  obtain ⟨hwriter, hfile⟩ := hend
  unfold kvsReplicationCatchUpCommandProtocol
  refine Triple.get_bind (Triple.ite (fun hguard => ?_) fun _ => ?_)
  · have hstate : ¬(s.replication.state ≠ .catchUp ∧ s.replication.state ≠ .online) := by
      obtain hstate | hstate := h.following.state <;> simp [hstate]
    simp only [h.following.initialized, h.following.role, h.following.connection, hstate,
      not_true_eq_false, ne_eq, false_or] at hguard
    omega
  have hlogs : s.Logs .replication → s.aofWriter.isSome := fun _ => by
    rw [hwriter]
    rfl
  have hlength : (front ++ logOf done ++ encodeFields r).length ≤ offMax := by
    simp only [logOf_append, logOf_cons, logOf_nil, List.length_append, List.length_nil] at hfits ⊢
    omega
  -- a write that succeeded on the primary succeeds here
  have hhandler : Triple (kvsReplicationCommandProtocol capacity r) s (fun reply s' =>
      (s.Outcome M .replication r true s' ∧ ∃ text, reply = some text ∧ 0 < text.length ∧
        text.length ≤ replyRoom) ∨ reply = none ∧ s.CanFail) (fun e => e = .exit ∧ s.CanFail) := by
    refine (logHandler_effect h.holds hlogs (by decide) hcapacity).mono ?_ ?_
    · rintro reply s' ⟨done, houtcome, hreply, htext⟩
      cases houtcome with
      | done htook hsome =>
        obtain ⟨text, rfl⟩ := Option.isSome_iff_exists.mp (hreply.mpr rfl)
        exact .inl ⟨.done htook hsome, text, rfl, htext text rfl⟩
      | idle hwhy =>
        obtain hnone | hcan | ⟨-, hclient⟩ := hwhy
        · rw [hredo] at hnone
          cases hnone
        · have hnone : reply = none := Option.not_isSome_iff_eq_none.mp fun hsome =>
            Bool.false_ne_true (hreply.mp hsome)
          exact .inr ⟨hnone, .inl hcan⟩
        · cases hclient
      | saved hclient => cases hclient
    · rintro e (⟨rfl, -, -, hcan | hno⟩ | ⟨-, cmd, hcmd, hno⟩)
      · exact ⟨rfl, .inl hcan⟩
      · obtain ⟨writer, hmem, hlong⟩ | hcan | ⟨writer, hmem, hring⟩ := Server.full_or_breaks hno
        · obtain rfl : _ = writer := Option.some.inj (hwriter.symm.trans hmem)
          rw [List.length_append] at hlength
          simp only at hlong
          omega
        · exact ⟨rfl, .inr hcan⟩
        · obtain rfl : _ = writer := Option.some.inj (hwriter.symm.trans hmem)
          cases hring
      · obtain ⟨cmd', hcmd', hadmits, -⟩ := redo_eq_some hredo
        obtain rfl := Option.some.inj (hcmd.found.symm.trans hcmd'.found)
        exact absurd hadmits hno
  refine hhandler.bind fun reply s₁ hreply => ?_
  obtain ⟨houtcome, text, rfl, hpos, hshort⟩ | ⟨rfl, hcan⟩ := hreply
  swap
  · exact Triple.pure (.inr ⟨rfl, hcan⟩)
  obtain ⟨rt', E', M₁, hM₁, hext, hE', -, rfl⟩ := houtcome.logged (by decide) h.mode ⟨hwriter, hfile⟩
  obtain rfl : M' = M₁ := Option.some.inj (hredo.symm.trans hM₁)
  dsimp only
  rw [if_neg (by omega)]
  refine Triple.get_bind ?_
  simp only [Server.aofOffset, Option.map_some]
  refine Triple.set_bind (Triple.pure (.inl ⟨rfl, ?_, rfl⟩))
  have hbytes : s.disk.bytes .appendonlyAof = front ++ logOf done := hfile
  refine ⟨⟨h.following.initialized, h.following.role, h.following.connection, h.following.state⟩,
    h.role, h.mode, Maps.after_snoc h.after hredo, h.sized.redo hrecord.size hredo, hE',
    ⟨front, hfront, ?_⟩, ?_, ?_⟩
  · have hlog : front ++ logOf (done ++ [r]) = front ++ logOf done ++ encodeFields r := by
      simp
    rw [hlog]
    refine ⟨rfl, ?_⟩
    simp [Server.aofFile]
  · rw [← hbytes]
    exact h.recovers.append rfl (fun _ => h.covered) hredo hrecord.record.size
  · rw [← hbytes]
    exact h.covered.append _

theorem handle_record (h : s.Applied up base.length M₀ done M) (hredo : M.redo r = some M')
    (hrecord : ClientRecord r) (hcapacity : replyRoom < capacity) (start : RdmaStart)
    (hfits : (base ++ logOf (done ++ [r])).length ≤ offMax) (more : Bytes) :
    Triple (kvsReplicationUpstreamNetworkProtocol up start capacity (encodeFields r ++ more)) s
      (fun result s' => (∃ buffer consumed, result = (buffer, some ([], consumed)) ∧
          buffer.drop consumed = more ∧ s'.Applied up base.length M₀ (done ++ [r]) M' ∧
          s'.replication.state = s.replication.state) ∨
        result.2 = none ∧ s.CanFail) (fun e => e = .exit ∧ s.CanFail) := by
  have hroom : 0 < capacity := Nat.lt_of_le_of_lt (Nat.zero_le _) hcapacity
  have hhead : (encodeFields r ++ more).head? = some asterisk := rfl
  refine kvsReplicationUpstreamNetworkProtocol_following h.following
    (fun hnil => by simp [hnil] at hhead) hroom start ?_
  rw [if_pos hhead]
  simp only [Replaying.kvsParseCommand_record hrecord.record more]
  refine (kvsReplicationCatchUpCommandProtocol_record h hredo hrecord hcapacity hfits).bind ?_
  rintro ok s' (⟨rfl, happlied, hstate⟩ | ⟨rfl, hcan⟩)
  · exact Triple.pure (.inl ⟨_, _, rfl, List.drop_left, happlied, hstate⟩)
  · exact Triple.pure (.inr ⟨rfl, hcan⟩)

theorem Server.Leads.next (h : s.Leads fd base M₀ (done ++ r :: todo) sent)
    (hafter : M₀.after done = some M) : ∃ M', M.redo r = some M' := by
  obtain ⟨M₁, hM₁, -⟩ := h.holds
  rw [Maps.after_append, hafter, Option.bind_some] at hM₁
  cases hredo : M.redo r with
  | none => simp [Maps.after, hredo] at hM₁
  | some M' => exact ⟨M', rfl⟩

theorem kvsReplicationUpstreamStream_following (hs : s.Following up) (capacity : Nat)
    (env : RdmaAnswers) :
    Triple (kvsReplicationUpstreamStream up capacity env) s (fun _ s' => ∃ sync, s' =
      { s with replication := { s.replication with rdmaSync := sync } }) Never := by
  have hsame : ∀ sync : RdmaSync, ∃ sync', { s with replication :=
      { s.replication with rdmaSync := sync } } =
      { s with replication := { s.replication with rdmaSync := sync' } } := fun sync => ⟨sync, rfl⟩
  have hfull : s.replication.state ≠ .fullSync := by
    obtain hstate | hstate := hs.state <;> simp [hstate]
  have hreceive : ∀ (sync : RdmaSync) (data : Bytes),
      Triple (upstreamReceive up env data)
        { s with replication := { s.replication with rdmaSync := sync } } (fun _ s' => ∃ sync, s' =
        { s with replication := { s.replication with rdmaSync := sync } }) Never := by
    intro sync data
    unfold upstreamReceive
    refine Triple.get_bind ?_
    rw [if_pos (.inl hfull)]
    exact Triple.pure (hsame sync)
  have hstep : ∀ sync : RdmaSync, Triple (upstreamStep up env)
      { s with replication := { s.replication with rdmaSync := sync } } (fun _ s' => ∃ sync, s' =
      { s with replication := { s.replication with rdmaSync := sync } }) Never := by
    intro sync
    unfold upstreamStep
    refine Triple.get_bind (Triple.ite (fun _ => Triple.pure (hsame sync)) fun _ => ?_)
    dsimp only
    split
    · exact Triple.pure (hsame sync)
    · rename_i acknowledged _
      refine Triple.ite (fun _ => Triple.set_bind (Triple.pure (hsame _))) fun _ => ?_
      split
      · exact Triple.set_bind (Triple.pure (hsame _))
      · exact Triple.set_bind (Triple.pure (hsame _))
      · exact Triple.set_bind (Triple.pure (hsame _))
      · exact Triple.set_bind (hreceive _ _)
      · exact Triple.pure (hsame sync)
  unfold kvsReplicationUpstreamStream
  refine Triple.get_bind (Triple.ite (fun _ => Triple.pure ⟨s.replication.rdmaSync, rfl⟩) fun _ => ?_)
  split
  · exact Triple.pure ⟨s.replication.rdmaSync, rfl⟩
  · refine Triple.set_bind ?_
    split
    · exact Triple.pure (hsame _)
    · refine Triple.ite (fun _ => Triple.pure (hsame _)) fun _ => ?_
      exact Triple.set_bind (Triple.pure (hsame _))
    · dsimp only
      split
      · exact Triple.set_bind (Triple.pure (hsame _))
      · exact Triple.set_bind (hstep _)
    · exact hstep _

theorem Server.Applied.recovers_saved (h : s.Applied up origin M₀ done M)
    (hfits : origin + (logOf done).length ≤ offMax) (hsaved : s.SavedOnly M s') :
    s'.aofFile .appendonlyAof = s.aofFile .appendonlyAof ∧
      s'.disk.Recovers .legacyHybrid M ∧ s'.disk.Covered := by
  obtain ⟨front, hfront, hwriter, hfile⟩ := h.log
  obtain hsame | ⟨path, offset, file, htarget, hsaves, hdisk⟩ := hsaved
  · refine ⟨by simp only [Server.aofFile, hsame], ?_⟩
    rw [hsame]
    exact ⟨h.recovers, h.covered⟩
  · obtain ⟨records, hlists, hsize, rfl⟩ := hsaves h.sized.storable
    have hlength : (front ++ logOf done).length ≤ offMax := by
      rw [List.length_append]
      omega
    simp only [Server.snapshotTarget, h.mode, hwriter, Option.map_some, Option.some.injEq,
      Prod.mk.injEq] at htarget
    obtain ⟨rfl, rfl⟩ := htarget
    have hlog : s.disk.bytes .appendonlyAof = front ++ logOf done := hfile
    have hbase := s.disk.base_saved hlists
      ⟨h.sized.storable, h.holds.admitted, h.holds.array_card_le, hsize⟩ hlength
    have hbytes : s'.disk.bytes .appendonlyAof = front ++ logOf done := by
      rw [hdisk, Disk.bytes_write_other _ _ (by decide), hlog]
    rw [← hdisk] at hbase
    refine ⟨hbytes.trans hlog.symm, ⟨M, _, hbase, ?_⟩, ?_⟩
    · rw [hbytes, List.drop_length]
      exact .done M
    · intro M₁ o hbase'
      obtain ⟨-, rfl⟩ := hbase'.unique hbase
      rw [hbytes]

/-- A client of the replica changes nothing that the stream depends on. -/
theorem Server.Applied.read (h : s.Applied up origin M₀ done M)
    (hfits : origin + (logOf done).length ≤ offMax) (hready : output.Ready)
    (hrun : kvsExecuteFields fields output .client s = .ok (executed, s')) :
    s'.Applied up origin M₀ done M ∧ s'.replication = s.replication := by
  obtain ⟨front, hfront, hwriter, hfile⟩ := h.log
  have hlog : s.aofWriter.isSome := by
    rw [hwriter]
    rfl
  have hroom := hready.room
  unfold bufferLength at hroom
  obtain ⟨_, houtcome, -⟩ :=
    (kvsExecuteFields_effect h.holds (fun _ => hlog) (by omega) (by omega)).post hrun
  have hext := houtcome.extends
  obtain ⟨hengines, hwriter', hrole, hmode, hmanager, -⟩ :=
    ((kvsExecuteFields_spared h.role fields output).post hrun).keeps
  obtain ⟨hfile', hrecovers, hcovered⟩ := h.recovers_saved hfits
    ((kvsExecuteFields_savedOnly h.holds h.role hlog hready).post hrun)
  refine ⟨⟨?_, hrole.trans h.role, hmode.trans h.mode, h.after, h.sized, ?_,
    ⟨front, hfront, hwriter'.trans hwriter, hfile'.trans hfile⟩, hrecovers, hcovered⟩, hmanager⟩
  · have hfollowing := h.following
    exact ⟨by rw [hmanager]; exact hfollowing.initialized, by rw [hmanager]; exact hfollowing.role,
      by rw [hmanager]; exact hfollowing.connection, by rw [hmanager]; exact hfollowing.state⟩
  · rw [hengines]
    exact h.holds.later hext.mallocs

theorem Server.Applied.upstream (h : s.Applied up origin M₀ done M) (sync : RdmaSync) :
    Server.Applied { s with replication := { s.replication with rdmaSync := sync } } up origin M₀
      done M :=
  ⟨⟨h.following.initialized, h.following.role, h.following.connection, h.following.state⟩, h.role,
    h.mode, h.after, h.sized, h.holds, h.log, h.recovers, h.covered⟩

end

end KvStore
