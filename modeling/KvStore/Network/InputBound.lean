import KvStore.Network.Reader
import KvStore.Protocol.Wire

/-!
# What a client can make the reader keep

The life of one connection, moment by moment. Between two steps the server may
do anything, for other connections as well, so each step starts in a state of
its own. A client sends what it likes: an input that is not a whole command is
kept only as long as it is shorter than the longest command, and the buffer
doubles only when it is full.
-/

namespace KvStore

open Lib

/-- Where `server_reader` is with a connection. -/
inductive Moment
  /-- Before it makes room for the next bytes. -/
  | idle
  /-- At `recv`. -/
  | receiving
  /-- At the start of a round over the input. -/
  | handling

/-- A connection that was accepted and not closed yet. A round is one pass of
the loop in `handleInput`. -/
inductive Alive (replication : Option Protocol) : Moment → Connection → Prop
  | opened : Alive replication .idle (.new clientProtocol replication)
  | space : Alive replication .idle c →
    onRuntime (kvsInputBufferEnsureSpace c.input 1) s = .ok (some input, s') →
    Alive replication .receiving { c with input }
  | piece : Alive replication .receiving c → piece.length ≤ c.input.available →
    Alive replication .handling { c with
      input := { c.input with data := c.input.data ++ piece }
      received := c.received ++ piece }
  | again : Alive replication .handling c → identify c = .serve c₁ →
    handleMessage c₁ s₁ = .ok (some (c₂, consumed), s₁') →
    sendReplies c₂ s₂ = .ok (some c₃, s₂') →
    c₃.input.data.length > 0 ∧ consumed > 0 → Alive replication .handling c₃
  | settled : Alive replication .handling c → identify c = .serve c₁ →
    handleMessage c₁ s₁ = .ok (some (c₂, consumed), s₁') →
    sendReplies c₂ s₂ = .ok (some c₃, s₂') →
    ¬(c₃.input.data.length > 0 ∧ consumed > 0) → Alive replication .idle (ntycoFlushOutput c₃)
  | undecided : Alive replication .handling c → identify c = .wait →
    Alive replication .idle (ntycoFlushOutput c)

-- ---------------------------------------------------------------------------
-- The reader lives through these moments
-- ---------------------------------------------------------------------------

variable {c c' : Connection} {s s' : Server}

theorem handleInput_alive (rounds : Nat) (h : Alive replication .handling c) :
    Triple (handleInput rounds c) s
      (fun r _ => ∀ c', r = some c' → Alive replication .idle (ntycoFlushOutput c'))
      (fun _ => True) := by
  induction rounds generalizing c s with
  | zero => exact Triple.throw trivial
  | succ rounds ih =>
    unfold handleInput
    cases hidentify : identify c with
    | wait =>
      refine Triple.pure ?_
      rintro c' ⟨⟩
      exact .undecided h hidentify
    | close => exact Triple.pure nofun
    | serve c₁ =>
      refine Triple.named_bind (fun r s₁ hmessage => ?_) fun _ _ => trivial
      obtain _ | ⟨c₂, consumed⟩ := r
      · exact Triple.pure nofun
      refine Triple.named_bind (fun r s₂ hsend => ?_) fun _ _ => trivial
      obtain _ | c₃ := r
      · exact Triple.pure nofun
      refine Triple.ite (fun hmore => ?_) fun hmore => ?_
      · exact ih (.again h hidentify hmessage hsend hmore)
      · refine Triple.pure ?_
        rintro c' ⟨⟩
        exact .settled h hidentify hmessage hsend hmore

theorem receivePiece_alive (h : Alive replication .receiving c)
    (hroom : piece.length ≤ c.input.available) :
    Triple (receivePiece piece c) s (fun r _ => ∀ c', r = some c' → Alive replication .idle c')
      (fun _ => True) := by
  refine (handleInput_alive _ (.piece h hroom)).bind fun r s' hr => ?_
  cases r with
  | none => exact Triple.pure nofun
  | some c₁ =>
    refine Triple.pure ?_
    rintro c' ⟨⟩
    exact hr c₁ rfl

/-- Where the reader waits for more, whatever was sent and however it was cut,
is one of these moments. -/
theorem serverReader_alive (cut : Nat → Nat) (rounds : Nat) (h : Alive replication .idle c) :
    Triple (serverReader cut rounds wire c) s
      (fun r _ => ∀ c', r.2 = some c' → Alive replication .receiving c') (fun _ => True) := by
  induction rounds generalizing wire c s with
  | zero =>
    unfold serverReader
    refine Triple.named_bind (fun r s₁ hspace => ?_) fun _ _ => trivial
    cases r with
    | none => exact Triple.pure nofun
    | some input =>
      cases wire with
      | nil =>
        refine Triple.pure ?_
        rintro c' ⟨⟩
        exact .space h hspace
      | cons b wire => exact Triple.throw trivial
  | succ rounds ih =>
    unfold serverReader
    refine Triple.named_bind (fun r s₁ hspace => ?_) fun _ _ => trivial
    cases r with
    | none => exact Triple.pure nofun
    | some input =>
      cases wire with
      | nil =>
        refine Triple.pure ?_
        rintro c' ⟨⟩
        exact .space h hspace
      | cons b wire =>
        have hroom : ((b :: wire).take (min (max (cut (b :: wire).length) 1) input.available)).length ≤
            input.available := by
          rw [List.length_take]
          omega
        refine (receivePiece_alive (.space h hspace) hroom).bind fun r s₂ hr => ?_
        cases r with
        | none => exact Triple.pure nofun
        | some c₁ =>
          refine (ih (hr c₁ rfl)).bind fun r s₃ hlast => ?_
          exact Triple.pure hlast

-- ---------------------------------------------------------------------------
-- Doubling
-- ---------------------------------------------------------------------------

def Doubled (capacity : Nat) : Prop :=
  capacity = 0 ∨ ∃ j, j ≤ 10 ∧ capacity = bufferLength * 2 ^ j

theorem Doubled.le (h : Doubled capacity) : capacity ≤ kvsMaxClientCommandBytes := by
  obtain rfl | ⟨j, hj, rfl⟩ := h
  · exact Nat.zero_le _
  · calc bufferLength * 2 ^ j ≤ bufferLength * 2 ^ 10 :=
        Nat.mul_le_mul_left _ (Nat.pow_le_pow_right (by decide) hj)
      _ = kvsMaxClientCommandBytes := by decide

theorem growCapacity_enough (rounds : Nat) (h : required ≤ capacity) :
    growCapacity rounds capacity required = capacity := by
  cases rounds with
  | zero => rfl
  | succ rounds =>
    unfold growCapacity
    rw [if_neg (Nat.not_lt.mpr h)]

theorem growCapacity_full (hpos : 0 < capacity) (hcap : capacity ≤ kvsMaxClientCommandBytes) :
    growCapacity (capacity + 1) capacity (capacity + 1) = capacity * 2 := by
  have hint : kvsMaxClientCommandBytes ≤ intMax / 2 := by decide
  unfold growCapacity
  rw [if_pos (Nat.lt_succ_self _), if_neg (by omega)]
  exact growCapacity_enough _ (by omega)

theorem ensureBufferSpace_doubled {storage : Storage} (hdoubled : Doubled storage.capacity)
    (hfilled : length ≤ storage.capacity) (hshort : length < kvsMaxClientCommandBytes) :
    Triple (ensureBufferSpace storage length 1) rt (fun r _ => ∀ storage', r = some storage' →
      Doubled storage'.capacity ∧ length < storage'.capacity) (fun _ => True) := by
  have hint : kvsMaxClientCommandBytes ≤ intMax / 2 := by decide
  unfold ensureBufferSpace
  refine Triple.ite (fun _ => Triple.pure nofun) fun _ => Triple.ite (fun hroom => ?_) fun hfull => ?_
  · refine Triple.pure ?_
    rintro storage' ⟨⟩
    exact ⟨hdoubled, by omega⟩
  obtain rfl : length = storage.capacity := by omega
  refine Triple.ite (fun _ => Triple.pure nofun) fun _ => ?_
  refine Triple.named_bind (fun r rt₁ _ => ?_) fun _ _ => trivial
  cases r with
  | none => exact Triple.pure nofun
  | some block =>
    refine Triple.named_bind (fun _ rt₂ _ => ?_) fun _ _ => trivial
    refine Triple.pure ?_
    rintro storage' ⟨⟩
    obtain hzero | ⟨j, hj, hcap⟩ := hdoubled
    · simp only [hzero]
      exact ⟨.inr ⟨0, by decide, by decide⟩, by decide⟩
    · have hpos : 0 < storage.capacity := by
        rw [hcap]
        exact Nat.mul_pos (by decide) (Nat.two_pow_pos j)
      simp only [hpos, if_true, growCapacity_full hpos (Nat.le_of_lt hshort)]
      refine ⟨.inr ⟨j + 1, ?_, ?_⟩, by omega⟩
      · by_contra hj'
        obtain rfl : j = 10 := by omega
        rw [hcap] at hshort
        exact absurd hshort (by decide)
      · rw [hcap, Nat.pow_succ, Nat.mul_assoc]

-- ---------------------------------------------------------------------------
-- One round
-- ---------------------------------------------------------------------------

theorem kvsNetworkProtocol_consumes (msg : Bytes) (response : OutputBuffer) :
    Triple (kvsNetworkProtocol msg response) s (fun handled _ =>
      handled.reply ≠ none → handled.consumed = 0 → msg.length < kvsMaxClientCommandBytes)
      (fun _ => True) := by
  have hmax : 0 < kvsMaxClientCommandBytes := by decide
  have hinvalid : (invalidRequest msg response).reply ≠ none →
      (invalidRequest msg response).consumed = 0 → msg.length < kvsMaxClientCommandBytes := by
    simp only [invalidRequest]
    split
    · intro hreply
      exact absurd rfl hreply
    · rintro - (hzero : msg.length = 0)
      omega
  unfold kvsNetworkProtocol
  refine Triple.ite (fun _ => Triple.pure fun h => absurd rfl h) fun _ =>
    Triple.ite (fun hempty => Triple.pure fun _ _ => by omega) fun _ => ?_
  cases hparse : kvsParseCommandLimited kvsMaxTokens kvsMaxClientCommandBytes msg with
  | error => exact Triple.pure hinvalid
  | more =>
    exact Triple.ite (fun _ => Triple.pure hinvalid) fun hshort => Triple.pure fun _ _ => by omega
  | done r rest =>
    obtain ⟨fields, parsedBytes⟩ := r
    obtain ⟨w, -, ⟨l, v, rfl, -⟩, hlength, -⟩ := (kvsParseCommandLimited_exact _ _ _ _ _).mp hparse
    refine Triple.named_bind (fun executed s₁ _ => ?_) fun _ _ => trivial
    cases hreply : executed.reply with
    | none => exact Triple.pure fun h => absurd rfl h
    | some reply =>
      refine Triple.ite (fun _ => Triple.pure fun h => absurd rfl h) fun _ => Triple.pure ?_
      rintro - (hzero : parsedBytes = 0)
      simp [hzero] at hlength

theorem acceptHandled_keeps (h : acceptHandled c handled = some (c', consumed)) :
    c'.protocol = c.protocol ∧ c'.replication = c.replication ∧ consumed = handled.consumed ∧
      handled.reply ≠ none ∧ c'.input = { c.input with data := c.input.data.drop consumed } := by
  unfold acceptHandled at h
  split at h
  · cases h
  rename_i reply hreply
  split at h
  · cases h
  split at h
  · cases h
  rename_i input hconsume
  obtain ⟨rfl, rfl⟩ := Prod.mk.inj (Option.some.inj h)
  refine ⟨rfl, rfl, rfl, by simp [hreply], ?_⟩
  unfold kvsInputBufferConsume at hconsume
  split at hconsume
  · cases hconsume
  · exact (Option.some.inj hconsume).symm

theorem handleMessage_keeps (c : Connection) :
    Triple (handleMessage c) s (fun r _ => ∀ c' consumed, r = some (c', consumed) →
      c'.protocol = c.protocol ∧ c'.replication = c.replication ∧
      c'.input = { c.input with data := c.input.data.drop consumed } ∧
      (c.protocol = clientProtocol → consumed = 0 →
        c.input.data.length < kvsMaxClientCommandBytes)) (fun _ => True) := by
  unfold handleMessage
  refine Triple.named_bind (fun r s₁ _ => ?_) fun _ _ => trivial
  cases r with
  | none => exact Triple.pure nofun
  | some output =>
    refine Triple.named_bind (fun handled s₂ hhandled => ?_) fun _ _ => trivial
    refine Triple.pure fun c' consumed haccept => ?_
    obtain ⟨hprotocol, hreplication, rfl, hreply, hinput⟩ := acceptHandled_keeps haccept
    refine ⟨hprotocol, hreplication, hinput, fun hclient => ?_⟩
    rw [hclient] at hhandled
    exact (kvsNetworkProtocol_consumes _ _).post hhandled hreply

theorem ntycoFlushOutput_keeps (c : Connection) :
    (ntycoFlushOutput c).protocol = c.protocol ∧ (ntycoFlushOutput c).replication = c.replication ∧
      (ntycoFlushOutput c).input = c.input := by
  unfold ntycoFlushOutput
  split <;> exact ⟨rfl, rfl, rfl⟩

theorem sendReplies_keeps (c : Connection) :
    Triple (sendReplies c) s (fun r _ => ∀ c', r = some c' → c'.protocol = c.protocol ∧
      c'.replication = c.replication ∧ c'.input = c.input) (fun _ => True) := by
  have hflush := ntycoFlushOutput_keeps c
  unfold sendReplies
  cases c.protocol.stream with
  | none =>
    refine Triple.ite (fun _ => Triple.pure ?_) fun _ =>
      Triple.ite (fun _ => Triple.pure ?_) fun _ => Triple.pure ?_
    · rintro c' ⟨⟩
      exact ⟨rfl, rfl, rfl⟩
    · rintro c' ⟨⟩
      exact ⟨rfl, rfl, rfl⟩
    · rintro c' ⟨⟩
      exact hflush
  | some stream =>
    refine Triple.named_bind (fun r s₁ _ => ?_) fun _ _ => trivial
    cases r with
    | none => exact Triple.pure nofun
    | some bytes =>
      refine Triple.pure ?_
      rintro c' ⟨⟩
      exact hflush

-- ---------------------------------------------------------------------------
-- The whole life
-- ---------------------------------------------------------------------------

/-- The input of a client at some moment. Only during the rounds it may be as
long as the longest command. -/
structure Connection.Within (m : Moment) (c : Connection) : Prop where
  filled : c.input.data.length ≤ c.input.storage.capacity
  doubled : Doubled c.input.storage.capacity
  short : m ≠ .handling → c.input.data.length < kvsMaxClientCommandBytes

/-- What holds of every connection: as long as the first bytes did not decide,
it is served as a client, and the bounds are those of a client. -/
structure Connection.Kept (m : Moment) (c : Connection) : Prop where
  undecided : c.replication ≠ none → c.protocol = clientProtocol
  client : c.protocol = clientProtocol → c.Within m

theorem Connection.Kept.flushed (h : c.Kept m) : (ntycoFlushOutput c).Kept m := by
  obtain ⟨hprotocol, hreplication, hinput⟩ := ntycoFlushOutput_keeps c
  refine ⟨?_, fun hclient => ?_⟩
  · rw [hreplication, hprotocol]
    exact h.undecided
  · obtain ⟨hfilled, hdoubled, hshort⟩ := h.client (hprotocol ▸ hclient)
    rw [← hinput] at hfilled hdoubled hshort
    exact ⟨hfilled, hdoubled, hshort⟩

theorem identify_wait (h : identify c = .wait) : c.input.data.length < handshake.length := by
  unfold identify at h
  split at h
  · cases h
  split at h
  · rename_i hkind
    unfold kvsIdentifyConnection at hkind
    split at hkind
    · rename_i hempty
      rw [hempty]
      decide
    split at hkind
    · cases hkind
    simp only at hkind
    split at hkind
    · cases hkind
    split at hkind
    · assumption
    · cases hkind
  all_goals cases h

theorem identify_serve (h : identify c = .serve c₁) :
    c₁.input = c.input ∧ c₁.replication = none ∧ (c₁.protocol = c.protocol ∨ c.replication ≠ none) := by
  unfold identify at h
  split at h
  · rename_i hnone
    cases h
    exact ⟨rfl, hnone, .inl rfl⟩
  · rename_i replication hsome
    split at h
    · cases h
    · cases h
    · cases h
      exact ⟨rfl, rfl, .inr (by simp [hsome])⟩
    · cases h
      exact ⟨rfl, rfl, .inl rfl⟩

/-- A round keeps the bounds; the one that consumes nothing, or all, leaves less
than a command. -/
theorem Connection.Kept.round (h : c.Kept .handling) (hidentify : identify c = .serve c₁)
    (hmessage : handleMessage c₁ s₁ = .ok (some (c₂, consumed), s₁'))
    (hsend : sendReplies c₂ s₂ = .ok (some c₃, s₂')) :
    c₃.Kept .handling ∧ (¬(c₃.input.data.length > 0 ∧ consumed > 0) → c₃.Kept .idle) := by
  obtain ⟨hinput₁, hnone, hserved⟩ := identify_serve hidentify
  obtain ⟨hprotocol₂, hreplication₂, hinput₂, hconsumed⟩ := (handleMessage_keeps c₁).post hmessage _ _ rfl
  obtain ⟨hprotocol₃, hreplication₃, hinput₃⟩ := (sendReplies_keeps c₂).post hsend _ rfl
  have hdecided : c₃.replication = none := by rw [hreplication₃, hreplication₂, hnone]
  have hinput : c₃.input = { c.input with data := c.input.data.drop consumed } := by
    rw [hinput₃, hinput₂, hinput₁]
  rw [hinput₁] at hconsumed
  have hwithin : c₃.protocol = clientProtocol → c.Within .handling := by
    intro hclient
    obtain hsame | hundecided := hserved
    · exact h.client (by rw [← hsame, ← hprotocol₂, ← hprotocol₃, hclient])
    · exact h.client (h.undecided hundecided)
  have hfilled : c₃.protocol = clientProtocol → c₃.input.data.length ≤ c₃.input.storage.capacity := by
    intro hclient
    have hlength := (hwithin hclient).filled
    simp only [hinput, List.length_drop]
    omega
  have hdoubled : c₃.protocol = clientProtocol → Doubled c₃.input.storage.capacity := by
    intro hclient
    rw [hinput]
    exact (hwithin hclient).doubled
  refine ⟨⟨fun hsome => absurd hdecided hsome, fun hclient => ⟨hfilled hclient, hdoubled hclient, ?_⟩⟩,
    fun hlast => ⟨fun hsome => absurd hdecided hsome,
      fun hclient => ⟨hfilled hclient, hdoubled hclient, fun _ => ?_⟩⟩⟩
  · intro hne
    exact absurd rfl hne
  · have hmax : 0 < kvsMaxClientCommandBytes := by decide
    by_cases hzero : consumed = 0
    · have hall := hconsumed (by rw [← hprotocol₂, ← hprotocol₃, hclient]) hzero
      simp only [hinput, List.length_drop]
      omega
    · omega

theorem kvsInputBufferEnsureSpace_within {input : InputBuffer} (hwithin : c.Within .idle)
    (h : onRuntime (kvsInputBufferEnsureSpace c.input 1) s = .ok (some input, s')) :
    Connection.Within .receiving { c with input } := by
  have hspec : Triple (kvsInputBufferEnsureSpace c.input 1) s.rt (fun r _ => ∀ input, r = some input →
      Connection.Within .receiving { c with input }) (fun _ => True) := by
    have hshort := hwithin.short nofun
    refine (ensureBufferSpace_doubled hwithin.doubled hwithin.filled hshort).bind fun r rt' hr => ?_
    cases r with
    | none => exact Triple.pure nofun
    | some storage =>
      refine Triple.pure ?_
      rintro input ⟨⟩
      obtain ⟨hdoubled, hroom⟩ := hr storage rfl
      exact ⟨Nat.le_of_lt hroom, hdoubled, fun _ => hshort⟩
  have hserver := onRuntime_triple (Q := fun r _ => ∀ input, r = some input →
    Connection.Within .receiving { c with input }) hspec
  exact hserver.post h input rfl

theorem Alive.kept (h : Alive replication m c) : c.Kept m := by
  have hmax : handshake.length < kvsMaxClientCommandBytes := by decide
  induction h with
  | opened =>
    exact ⟨fun _ => rfl, fun _ => ⟨Nat.le_refl _, .inl rfl, fun _ => Nat.lt_of_le_of_lt (Nat.zero_le _) hmax⟩⟩
  | @space c s input s' _ hspace ih =>
    exact ⟨ih.undecided, fun hclient => kvsInputBufferEnsureSpace_within (ih.client hclient) hspace⟩
  | @piece c piece _ hroom ih =>
    refine ⟨ih.undecided, fun hclient => ⟨?_, (ih.client hclient).doubled, fun hne => absurd rfl hne⟩⟩
    have hfilled := (ih.client hclient).filled
    simp only [InputBuffer.available] at hroom
    simp only [List.length_append]
    omega
  | again _ hidentify hmessage hsend _ ih => exact (ih.round hidentify hmessage hsend).1
  | settled _ hidentify hmessage hsend hlast ih =>
    exact ((ih.round hidentify hmessage hsend).2 hlast).flushed
  | undecided _ hidentify ih =>
    have hshort := identify_wait hidentify
    refine Connection.Kept.flushed ⟨ih.undecided, fun hclient => ?_⟩
    exact ⟨(ih.client hclient).filled, (ih.client hclient).doubled, fun _ => by omega⟩

/-- Whatever a client sends and however it arrives, at every `recv` less than
1 MiB of it is kept, and at no moment the buffer is larger than that. -/
theorem serverReader_inputBound (replication : Option Protocol) (m : Moment) (c : Connection)
    (h : Alive replication m c) (hclient : c.protocol = clientProtocol) :
    (m = .receiving → c.input.data.length < 1024 * 1024) ∧
      c.input.storage.capacity ≤ 1024 * 1024 := by
  have hwithin := h.kept.client hclient
  refine ⟨?_, hwithin.doubled.le⟩
  rintro rfl
  exact hwithin.short nofun

/-- A client that sent the start of an endless number. -/
theorem serverReader_inputBound_digits :
    ∃ c : Connection, c.input.data = ascii "*111111" ∧ Alive none .receiving c ∧
      c.input.data.length < 1024 * 1024 ∧ c.input.storage.capacity ≤ 1024 * 1024 := by
  have hfail : ¬(Runtime.start (fun _ => false) (fun _ => false)).CanFail := by
    rintro ⟨n, hn⟩
    cases hn
  obtain ⟨_, rt, -, -, E, -, -⟩ := (initKvengine_spec hfail).run
  let s : Server := ⟨.start (fun _ => false) (fun _ => false), E, fun _ => none, .start fun _ => none,
    some ⟨.commandsAof, 0, true⟩, .standalone, .aof, .start⟩
  have hopened : Alive none .receiving { Connection.new clientProtocol none with
      input := ⟨⟨some 1, 1024⟩, []⟩ } := .space (s := s) .opened rfl
  have hpiece := @Alive.piece _ _ (ascii "*111111") hopened (by decide)
  have hround := @Alive.settled _ _ _ s _ _ _ s _ _ hpiece rfl rfl rfl
    fun hmore => absurd hmore.2 (Nat.lt_irrefl 0)
  have hreceiving := Alive.space (s := s) hround rfl
  have hbound := serverReader_inputBound none .receiving _ hreceiving rfl
  exact ⟨_, rfl, hreceiving, hbound.1 rfl, hbound.2⟩

end KvStore
