import KvStore.Protocol.RoundTrip
import KvStore.Replication.Replica

/-!
# Messages of a synchronisation

What one side prints, the other side reads back. The printer and the scanner of
a line are two format strings, so their agreement is proved directive by
directive, over all identifiers and all numbers a `long long` can hold.
-/

namespace KvStore

open Lib

structure IsId (id : Bytes) : Prop where
  length : id.length = kvsReplicationIdHexLength
  hex : ∀ b ∈ id, isLowerHex b = true

structure ReplicationManager.Announces (m : ReplicationManager) : Prop where
  replicationId : IsId m.replicationId
  fullSyncId : IsId m.fullSyncId
  offset : m.replicationOffset ≤ offMax
  sizePos : 0 < m.snapshotFileSize
  size : m.snapshotFileSize ≤ offMax
  portPos : 1 ≤ m.rdmaPort
  port : m.rdmaPort ≤ 65535

-- ---------------------------------------------------------------------------
-- Characters
-- ---------------------------------------------------------------------------

theorem decimalDigits_le (h : value < 10 ^ (e + 1)) : decimalDigits value ≤ e + 1 := by
  rw [Nat.add_comm]
  exact decimalDigitsLoop_le 1 h

theorem writeDecimal_digits (value : Nat) :
    (∀ b ∈ writeDecimal value, Scanf.isDigit b = true) ∧ writeDecimal value ≠ [] ∧
      Scanf.digitsValue (writeDecimal value) = value := by
  obtain ⟨hlength, hdigits, hvalue⟩ := writeDecimalLoop_spec (decimalDigits value) value
  refine ⟨hdigits, ?_, hvalue (lt_pow_decimalDigits value)⟩
  have hpos := decimalDigits_pos value
  rw [← List.length_pos_iff, length_writeDecimal]
  exact hpos

def isPlain (b : UInt8) : Bool := 33 ≤ b

theorem isPlain_ne (h : isPlain b = true) : b ≠ 0 ∧ b ≠ lf ∧ b ≠ cr ∧ Scanf.isSpace b = false := by
  have hne : ∀ c : UInt8, c.toNat < 33 → b ≠ c := by
    rintro c hc rfl
    simp only [isPlain, decide_eq_true_eq, UInt8.le_iff_toNat_le] at h
    have h33 : (33 : UInt8).toNat = 33 := rfl
    omega
  refine ⟨hne 0 (by decide), hne lf (by decide), hne cr (by decide), ?_⟩
  simp only [isPlain, decide_eq_true_eq, UInt8.le_iff_toNat_le] at h
  have h33 : (33 : UInt8).toNat = 33 := rfl
  have h13 : (13 : UInt8).toNat = 13 := rfl
  simp only [Scanf.isSpace, Bool.or_eq_false_iff, beq_eq_false_iff_ne, ne_eq, Bool.and_eq_false_iff,
    decide_eq_false_iff_not, UInt8.le_iff_toNat_le]
  exact ⟨hne 32 (by decide), .inr (by omega)⟩

theorem isDigit_plain (h : Scanf.isDigit b = true) : isPlain b = true := by
  simp only [Scanf.isDigit, Bool.and_eq_true, decide_eq_true_eq, UInt8.le_iff_toNat_le] at h
  simp only [isPlain, decide_eq_true_eq, UInt8.le_iff_toNat_le]
  have h48 : (48 : UInt8).toNat = 48 := rfl
  have h33 : (33 : UInt8).toNat = 33 := rfl
  omega

theorem isLowerHex_plain (h : isLowerHex b = true) : isPlain b = true := by
  simp only [isLowerHex, Bool.or_eq_true, Bool.and_eq_true, decide_eq_true_eq,
    UInt8.le_iff_toNat_le] at h
  simp only [isPlain, decide_eq_true_eq, UInt8.le_iff_toNat_le]
  have h48 : (48 : UInt8).toNat = 48 := rfl
  have h97 : (97 : UInt8).toNat = 97 := rfl
  have h33 : (33 : UInt8).toNat = 33 := rfl
  omega

variable {id : Bytes}

theorem IsId.plain (h : IsId id) : ∀ b ∈ id, isPlain b = true := fun b hb => isLowerHex_plain (h.hex b hb)

theorem IsId.ne_nil (h : IsId id) : id ≠ [] := by
  rintro rfl
  exact absurd h.length (by decide)

theorem writeDecimal_plain (value : Nat) : ∀ b ∈ writeDecimal value, isPlain b = true :=
  fun b hb => isDigit_plain ((writeDecimal_digits value).1 b hb)

theorem head_plain (ht : ∀ b ∈ t, isPlain b = true) (hne : t ≠ []) (x : Bytes) :
    ∀ b ∈ (t ++ x).head?, Scanf.isSpace b = false := by
  cases t with
  | nil => exact absurd rfl hne
  | cons c t =>
    intro b hb
    obtain rfl : c = b := by simpa using hb
    exact (isPlain_ne (ht c List.mem_cons_self)).2.2.2

-- ---------------------------------------------------------------------------
-- Lines and frames
-- ---------------------------------------------------------------------------

def IsText (t : Bytes) : Prop := ∀ b ∈ t, b = 32 ∨ isPlain b = true

instance (t : Bytes) : Decidable (IsText t) := List.decidableBAll _ t

theorem IsText.append (h : IsText t) (h' : IsText u) : IsText (t ++ u) := by
  intro b hb
  obtain hb | hb := List.mem_append.mp hb
  · exact h b hb
  · exact h' b hb

theorem IsText.of_plain (h : ∀ b ∈ t, isPlain b = true) : IsText t := fun b hb => .inr (h b hb)

theorem IsText.ne (h : IsText t) : ∀ b ∈ t, b ≠ 0 ∧ b ≠ lf := by
  intro b hb
  obtain rfl | hplain := h b hb
  · decide
  · exact ⟨(isPlain_ne hplain).1, (isPlain_ne hplain).2.1⟩

theorem framesOf_printed (h : IsText t) : framesOf (t ++ ascii "\r\n") = [t] := by
  have hline : lf ∉ t ++ [cr] := by
    rw [List.mem_append, List.mem_singleton]
    rintro (hmem | hcr)
    · exact (h.ne lf hmem).2 rfl
    · exact absurd hcr (by decide)
  have hsplit : t ++ ascii "\r\n" = (t ++ [cr]) ++ lf :: [] := by
    rw [List.append_assoc]
    rfl
  rw [hsplit, framesOf_line hline]
  simp [stripCr, framesOf]

theorem sscanf_frame (h : IsText t) (format : List Scanf.Directive) :
    Scanf.sscanf (t ++ [0]) format = Scanf.scan format 0 t := by
  unfold Scanf.sscanf
  rw [Scanf.takeWhile_all]
  · intro b hb
    simpa using (h.ne b hb).1
  · intro b hb
    obtain rfl : b = 0 := by simpa using hb.symm
    rfl

def fullResyncFrame (m : ReplicationManager) : Bytes :=
  ascii "FULLRESYNC_RDMA " ++ m.replicationId ++ ascii " " ++ writeDecimal m.replicationOffset ++
    ascii " " ++ writeDecimal m.snapshotFileSize.toNat ++ ascii " " ++ writeDecimal m.rdmaPort ++
    ascii " " ++ m.fullSyncId

theorem fullResyncLine_eq (m : ReplicationManager) :
    fullResyncLine m = fullResyncFrame m ++ ascii "\r\n" := rfl

def onlineFrame (offset : Nat) : Bytes := ascii "ONLINE " ++ writeDecimal offset

theorem onlineLine_eq (offset : Nat) : onlineLine offset = onlineFrame offset ++ ascii "\r\n" := rfl

theorem fullResyncFrame_text {m : ReplicationManager} (h : m.Announces) : IsText (fullResyncFrame m) := by
  have hblank : IsText (ascii " ") := by decide
  have hname : IsText (ascii "FULLRESYNC_RDMA ") := by decide
  have hnumber : ∀ value, IsText (writeDecimal value) := fun value => .of_plain (writeDecimal_plain value)
  exact ((((((((hname.append (.of_plain h.replicationId.plain)).append hblank).append
    (hnumber _)).append hblank).append (hnumber _)).append hblank).append (hnumber _)).append
    hblank).append (.of_plain h.fullSyncId.plain)

theorem onlineFrame_text (offset : Nat) : IsText (onlineFrame offset) :=
  IsText.append (by decide) (.of_plain (writeDecimal_plain offset))

-- ---------------------------------------------------------------------------
-- Scanning what was printed
-- ---------------------------------------------------------------------------

theorem not_digit_blank (x : Bytes) : ∀ b ∈ (32 :: x : Bytes).head?, Scanf.isDigit b = false := by
  intro b hb
  obtain rfl : 32 = b := by simpa using hb
  rfl

theorem scan_fullResyncFrame {m : ReplicationManager} (h : m.Announces) :
    Scanf.scan fullResyncFormat 0 (fullResyncFrame m) =
      [.text m.replicationId, .int m.replicationOffset, .int m.snapshotFileSize, .nat m.rdmaPort,
        .text m.fullSyncId, .count (fullResyncFrame m).length] := by
  have hmax : offMax = 2 ^ 63 - 1 := rfl
  have hsizePos := h.sizePos
  have hsize := h.size
  have hoffset := h.offset
  have hport := h.port
  obtain ⟨hd₁, hne₁, hv₁⟩ := writeDecimal_digits m.replicationOffset
  obtain ⟨hd₂, hne₂, hv₂⟩ := writeDecimal_digits m.snapshotFileSize.toNat
  obtain ⟨hd₃, hne₃, hv₃⟩ := writeDecimal_digits m.rdmaPort
  have hwidth : (writeDecimal m.rdmaPort).length ≤ 5 := by
    rw [length_writeDecimal]
    exact decimalDigits_le (e := 4) (by omega)
  have hsplit : fullResyncFrame m = ascii "FULLRESYNC_RDMA" ++ (32 :: (m.replicationId ++
      (32 :: (writeDecimal m.replicationOffset ++ (32 :: (writeDecimal m.snapshotFileSize.toNat ++
      (32 :: (writeDecimal m.rdmaPort ++ (32 :: (m.fullSyncId ++ [])))))))))) := by
    have hname : ascii "FULLRESYNC_RDMA " = ascii "FULLRESYNC_RDMA" ++ [32] := by decide
    have hblank : ascii " " = [32] := rfl
    simp [fullResyncFrame, hname, hblank]
  rw [hsplit, fullResyncFormat, Scanf.scan_chars,
    Scanf.scan_blank (head_plain h.replicationId.plain h.replicationId.ne_nil _),
    Scanf.scan_set h.replicationId.length h.replicationId.hex h.replicationId.ne_nil,
    Scanf.scan_blank (head_plain (writeDecimal_plain _) hne₁ _),
    Scanf.scan_signed hd₁ hne₁ (not_digit_blank _) (by omega),
    Scanf.scan_blank (head_plain (writeDecimal_plain _) hne₂ _),
    Scanf.scan_signed hd₂ hne₂ (not_digit_blank _) (by omega),
    Scanf.scan_blank (head_plain (writeDecimal_plain _) hne₃ _),
    Scanf.scan_unsigned hd₃ hne₃ (not_digit_blank _) hwidth (by omega),
    Scanf.scan_blank (head_plain h.fullSyncId.plain h.fullSyncId.ne_nil _),
    Scanf.scan_set h.fullSyncId.length h.fullSyncId.hex h.fullSyncId.ne_nil]
  rw [hv₁, hv₂, hv₃, Int.toNat_of_nonneg (by omega)]
  simp only [Scanf.scan, List.length_append, List.length_cons, List.length_nil, List.cons.injEq,
    Scanf.Value.count.injEq, true_and, and_true]
  omega

/-- The scanner takes exactly what was announced. -/
theorem scanFullResync_printed {m : ReplicationManager} (h : m.Announces) :
    scanFullResync (fullResyncFrame m ++ [0]) (fullResyncFrame m).length =
      some ⟨m.replicationId, m.replicationOffset, m.snapshotFileSize, m.rdmaPort, m.fullSyncId⟩ := by
  have hsizePos := h.sizePos
  have hport := h.port
  have hportPos := h.portPos
  simp only [scanFullResync, sscanf_frame (fullResyncFrame_text h), scan_fullResyncFrame h]
  rw [if_neg]
  simp only [h.replicationId.length, h.fullSyncId.length, ne_eq, not_true_eq_false, false_or]
  omega

theorem scanOnline_printed (h : offset ≤ offMax) :
    scanOnline (onlineFrame offset ++ [0]) (onlineFrame offset).length = some offset := by
  have hmax : offMax = 2 ^ 63 - 1 := rfl
  obtain ⟨hdigits, hne, hvalue⟩ := writeDecimal_digits offset
  have hsplit : onlineFrame offset = ascii "ONLINE" ++ (32 :: (writeDecimal offset ++ [])) := by
    have hname : ascii "ONLINE " = ascii "ONLINE" ++ [32] := by decide
    simp [onlineFrame, hname]
  have hscan : Scanf.scan onlineFormat 0 (onlineFrame offset) =
      [.int offset, .count (onlineFrame offset).length] := by
    rw [hsplit, onlineFormat, Scanf.scan_chars,
      Scanf.scan_blank (head_plain (writeDecimal_plain _) hne _),
      Scanf.scan_signed hdigits hne (by simp) (by omega), hvalue]
    simp only [Scanf.scan, List.length_append, List.length_cons, List.length_nil, List.cons.injEq,
      Scanf.Value.count.injEq, true_and, and_true]
    omega
  simp only [scanOnline, sscanf_frame (onlineFrame_text offset), hscan]
  rw [if_neg (by omega)]
  rfl

-- ---------------------------------------------------------------------------
-- Frames that are accepted
-- ---------------------------------------------------------------------------

/-- A frame of arbitrary bytes that passed the checks: nothing stands behind the
second identifier. -/
structure FullResync.Accepted (r : FullResync) (frame : Bytes) : Prop where
  replicationId : IsId r.replicationId
  fullSyncId : IsId r.fullSyncId
  offset : 0 ≤ r.offset ∧ r.offset ≤ offMax
  size : 0 < r.snapshotFileSize ∧ r.snapshotFileSize ≤ offMax
  port : 1 ≤ r.rdmaPort ∧ r.rdmaPort ≤ 65535
  text : ∃ blanks numbers, frame =
    ascii "FULLRESYNC_RDMA" ++ blanks ++ r.replicationId ++ numbers ++ r.fullSyncId

theorem scanFullResync_accepted {r : FullResync} {frame : Bytes}
    (h : scanFullResync (frame ++ [0]) frame.length = some r) : r.Accepted frame := by
  have hmax : (offMax : Int) = 2 ^ 63 - 1 := by decide
  unfold scanFullResync at h
  split at h
  case h_2 => cases h
  rename_i id offset size port sync parsed hscan
  split at h
  · cases h
  rename_i hchecks
  obtain rfl := Option.some.inj h
  simp only [not_or, ne_eq, not_not, Int.not_lt, Int.not_le, Nat.not_lt] at hchecks
  obtain ⟨hparsed, hid, hsync, hoffset, hsize, hport, hport'⟩ := hchecks
  unfold Scanf.sscanf fullResyncFormat at hscan
  obtain ⟨x₁, hx, hscan₁⟩ := Scanf.of_scan_chars hscan (by simp)
  obtain ⟨blanks, x₂, rfl, -, hscan₂⟩ := Scanf.of_scan_space hscan₁
  obtain ⟨x₃, rfl, hidHex, hscan₃⟩ := Scanf.of_scan_set hscan₂
  obtain ⟨b₁, x₄, rfl, -, hscan₄⟩ := Scanf.of_scan_space hscan₃
  obtain ⟨n₁, x₅, rfl, -, hoffset', hscan₅⟩ := Scanf.of_scan_signed hscan₄
  obtain ⟨b₂, x₆, rfl, -, hscan₆⟩ := Scanf.of_scan_space hscan₅
  obtain ⟨n₂, x₇, rfl, -, hsize', hscan₇⟩ := Scanf.of_scan_signed hscan₆
  obtain ⟨b₃, x₈, rfl, -, hscan₈⟩ := Scanf.of_scan_space hscan₇
  obtain ⟨n₃, x₉, rfl, hscan₉⟩ := Scanf.of_scan_unsigned hscan₈
  obtain ⟨b₄, x₁₀, rfl, -, hscan₁₀⟩ := Scanf.of_scan_space hscan₉
  obtain ⟨tail, rfl, hsyncHex, hscan₁₁⟩ := Scanf.of_scan_set hscan₁₀
  -- the number of characters read is the length of the frame, so no byte is left
  have hcount : parsed = (ascii "FULLRESYNC_RDMA" ++ blanks ++ id ++
      (b₁ ++ n₁ ++ b₂ ++ n₂ ++ b₃ ++ n₃ ++ b₄) ++ sync).length := by
    simp only [Scanf.scan, List.cons.injEq, Scanf.Value.count.injEq, and_true] at hscan₁₁
    simp only [← hscan₁₁, List.length_append]
    omega
  have hstring : (frame ++ [0]).takeWhile (fun b => decide (b ≠ 0)) =
      (ascii "FULLRESYNC_RDMA" ++ blanks ++ id ++
        (b₁ ++ n₁ ++ b₂ ++ n₂ ++ b₃ ++ n₃ ++ b₄) ++ sync) ++ tail := by
    rw [hx]
    simp only [List.append_assoc]
  have hfront : ∀ x : Bytes, (x ++ [0]).takeWhile (fun b => decide (b ≠ 0)) =
      x.takeWhile (fun b => decide (b ≠ 0)) := by
    intro x
    induction x with
    | nil => rfl
    | cons b x ih =>
      simp only [List.cons_append, List.takeWhile_cons, ih]
  rw [hfront] at hstring
  have hwhole : frame = ascii "FULLRESYNC_RDMA" ++ blanks ++ id ++
      (b₁ ++ n₁ ++ b₂ ++ n₂ ++ b₃ ++ n₃ ++ b₄) ++ sync := by
    obtain ⟨rest, hrest⟩ := List.takeWhile_prefix (l := frame) (fun b => decide (b ≠ 0))
    rw [hstring, List.append_assoc] at hrest
    have hlength := congrArg List.length hrest
    rw [List.length_append] at hlength
    have hnil : tail ++ rest = [] := List.length_eq_zero_iff.mp (by omega)
    rw [hnil, List.append_nil] at hrest
    exact hrest.symm
  rw [← hmax] at hoffset' hsize'
  exact ⟨⟨hid, hidHex⟩, ⟨hsync, hsyncHex⟩, ⟨hoffset, hoffset'⟩, ⟨hsize, hsize'⟩,
    ⟨Nat.pos_of_ne_zero hport, hport'⟩, blanks, _, hwhole⟩

-- ---------------------------------------------------------------------------
-- The replica
-- ---------------------------------------------------------------------------

variable {m : ReplicationManager} {s s' : Server}

/-- A replica whose handshake with its primary is under way on `fd`. -/
structure Server.Handshake (s : Server) (fd : Nat) : Prop where
  initialized : s.replication.initialized = true
  role : s.replication.role = .replica
  connection : s.replication.primaryConnectionFd = some fd
  state : s.replication.state = .handshake

/-- A replica that reads the log of its primary on `fd`. -/
structure Server.Following (s : Server) (fd : Nat) : Prop where
  initialized : s.replication.initialized = true
  role : s.replication.role = .replica
  connection : s.replication.primaryConnectionFd = some fd
  state : s.replication.state = .catchUp ∨ s.replication.state = .online

def ReplicationManager.Took (m' : ReplicationManager) (r : FullResync) : Prop :=
  m'.replicationId = r.replicationId ∧ (m'.replicationOffset : Int) = r.offset ∧
    m'.snapshotFileSize = r.snapshotFileSize ∧ m'.primaryRdmaPort = r.rdmaPort ∧
    m'.fullSyncId = r.fullSyncId

theorem beginFullSync_spec (start : RdmaStart) {r : FullResync} (hoffset : 0 ≤ r.offset) :
    Triple (beginFullSync start r) s (fun reply s' =>
      (reply.isSome → s'.replication.state = .fullSync) ∧ s'.replication.Took r ∧
      (s.replication.rdmaSync.connection = none → ∀ id, start = .resolving id → reply = some []))
      Never := by
  unfold beginFullSync
  refine Triple.modify_bind (Triple.modify_bind (Triple.get_bind ?_))
  refine Triple.ite (fun hstarted => Triple.set_bind (Triple.pure ⟨fun _ => rfl, ?_, fun _ _ _ => rfl⟩))
    fun hstarted => Triple.set_bind (Triple.pure ⟨nofun, ?_, fun hnone id hstart => ?_⟩)
  · exact ⟨rfl, Int.toNat_of_nonneg hoffset, rfl, rfl, rfl⟩
  · exact ⟨rfl, Int.toNat_of_nonneg hoffset, rfl, rfl, rfl⟩
  · subst hstart
    exact absurd (by simp [hnone]) hstarted

theorem fullResyncFrame_name (m : ReplicationManager) :
    16 ≤ (fullResyncFrame m).length ∧
      (fullResyncFrame m ++ [0]).take 16 = ascii "FULLRESYNC_RDMA " := by
  have hname : (ascii "FULLRESYNC_RDMA ").length = 16 := by decide
  constructor
  · simp only [fullResyncFrame, List.length_append, hname]
    omega
  · simp only [fullResyncFrame, List.append_assoc]
    rw [← hname, List.take_left]

theorem upstreamFrame_announced {cmId : Nat} (hm : m.Announces) (hs : s.Handshake fd)
    (hnone : s.replication.rdmaSync.connection = none) (hcap : 0 < capacity) :
    Triple (call (kvsReplicationUpstreamFrameProtocol fd (.resolving cmId)) capacity
      (fullResyncFrame m) []) s (fun reply s' => reply = some [] ∧ s'.replication.state = .fullSync ∧
        s'.replication.Took
          ⟨m.replicationId, m.replicationOffset, m.snapshotFileSize, m.rdmaPort, m.fullSyncId⟩)
      Never := by
  obtain ⟨hlength, hname⟩ := fullResyncFrame_name m
  unfold call kvsReplicationUpstreamFrameProtocol
  refine Triple.get_bind ?_
  refine Triple.ite (fun hguard => ?_) fun _ => Triple.ite (fun hstate => absurd hs.state hstate) fun _ =>
    Triple.ite (fun hpong => absurd hpong.1 (by omega)) fun _ =>
    Triple.ite (fun _ => ?_) fun hother => absurd ⟨hlength, hname⟩ hother
  · simp only [hs.initialized, hs.role, hs.connection, List.length_nil] at hguard
    simp only [not_true_eq_false, ne_eq, false_or] at hguard
    omega
  simp only [scanFullResync_printed hm]
  refine (beginFullSync_spec _ (Int.natCast_nonneg _)).weaken fun reply s' h => ?_
  obtain ⟨hstate, htook, hreply⟩ := h
  obtain rfl := hreply hnone cmId rfl
  exact ⟨rfl, hstate rfl, htook⟩

theorem upstreamFrame_accepted (frame : Bytes) (start : RdmaStart) :
    Triple (call (kvsReplicationUpstreamFrameProtocol fd start) capacity frame []) s
      (fun reply s' => reply.isSome → s'.replication.state = .fullSync →
        ∃ r : FullResync, r.Accepted frame ∧ s'.replication.Took r) Never := by
  unfold call kvsReplicationUpstreamFrameProtocol
  refine Triple.get_bind ?_
  refine Triple.ite (fun _ => Triple.pure nofun) fun _ => ?_
  refine Triple.ite (fun _ => Triple.pure nofun) fun hstate => ?_
  refine Triple.ite (fun _ => Triple.pure fun _ hfull => ?_) fun _ => ?_
  · rw [hfull] at hstate
    exact absurd nofun hstate
  refine Triple.ite (fun _ => ?_) fun _ => Triple.pure nofun
  cases hscan : scanFullResync (frame ++ [0]) frame.length with
  | none => exact Triple.pure nofun
  | some r =>
    have haccepted := scanFullResync_accepted hscan
    exact (beginFullSync_spec start haccepted.offset.1).weaken fun reply s' h _ _ =>
      ⟨r, haccepted, h.2.1⟩

/-- An `ONLINE` line is accepted at the end of the replica's own log. -/
theorem onlineFrame_accepted (hs : s.Following fd) (hcap : 5 ≤ capacity) (hoffset : offset ≤ offMax) :
    Triple (call (kvsReplicationOnlineControlFrameProtocol fd) capacity (onlineFrame offset) []) s
      (fun reply s' => if s.aofOffset = some offset then reply = some [] ∧ s' = { s with replication :=
          { s.replication with replicationOffset := offset, state := .online } }
        else reply = none ∧ s' = s) Never := by
  have hname : (ascii "ONLINE ").length = 7 := by decide
  have hlength : 7 ≤ (onlineFrame offset).length := by
    simp only [onlineFrame, List.length_append, hname]
    omega
  have htake : (onlineFrame offset ++ [0]).take 7 = ascii "ONLINE " := by
    simp only [onlineFrame, List.append_assoc]
    rw [← hname, List.take_left]
  unfold call kvsReplicationOnlineControlFrameProtocol
  refine Triple.get_bind (Triple.ite (fun hguard => ?_) fun _ =>
    Triple.ite (fun _ => ?_) fun hother => absurd ⟨hlength, htake⟩ hother)
  · have hstate : ¬(s.replication.state ≠ .catchUp ∧ s.replication.state ≠ .online) := by
      obtain h | h := hs.state <;> simp [h]
    simp only [hs.initialized, hs.role, hs.connection, hstate, List.length_nil] at hguard
    simp only [not_true_eq_false, ne_eq, false_or] at hguard
    omega
  · simp only [scanOnline_printed hoffset]
    refine Triple.ite (fun hne => Triple.pure ?_) fun heq => Triple.set_bind (Triple.pure ?_)
    · rw [if_neg hne]
      exact ⟨rfl, rfl⟩
    · rw [if_pos (not_not.mp heq)]
      exact ⟨rfl, rfl⟩

-- ---------------------------------------------------------------------------
-- The primary
-- ---------------------------------------------------------------------------

theorem writeDecimal_inj (h : writeDecimal n = writeDecimal k) : n = k := by
  rw [← (writeDecimal_digits n).2.2, h, (writeDecimal_digits k).2.2]

theorem readyMessage_inj (h : readyMessage id = readyMessage id') : id = id' := by
  simpa [readyMessage] using h

theorem ackMessage_inj (h : ackMessage n = ackMessage k) : n = k := by
  refine writeDecimal_inj ?_
  simpa [ackMessage] using h

theorem length_readyMessage (h : IsId id) : (readyMessage id).length < messageCapacity := by
  have hname : (ascii "READY ").length = 6 := by decide
  have hend : (ascii "\r\n").length = 2 := by decide
  simp only [readyMessage, List.length_append, hname, hend, h.length]
  decide

theorem length_writeDecimal_le (h : n ≤ offMax) : (writeDecimal n).length ≤ 19 := by
  have hmax : offMax < 10 ^ (18 + 1) := by decide
  rw [length_writeDecimal]
  exact decimalDigits_le (by omega)

theorem length_ackMessage (h : n ≤ offMax) : (ackMessage n).length < messageCapacity := by
  have hname : (ascii "SNAPSHOT_ACK ").length = 13 := by decide
  have hend : (ascii "\r\n").length = 2 := by decide
  have hdigits := length_writeDecimal_le h
  simp only [ackMessage, List.length_append, hname, hend, messageCapacity]
  omega

/-- What follows an accepted `READY`. -/
def afterReady (env : RdmaAnswers) (got : Nat) (m : ReplicationManager) : Streamed × ReplicationManager :=
  match m.rdmaSync.connection.bind (·.receiveNext env) with
  | none => (.failed, m)
  | some c => sendSnapshotChunk env got { m with rdmaSync := { m.rdmaSync with connection := some c } }

def afterAck (env : RdmaAnswers) (m : ReplicationManager) : Streamed × ReplicationManager :=
  match m.rdmaSync.connection.bind (·.receiveNext env) with
  | none => (.failed, m)
  | some c =>
    (.wait, { m with rdmaSync := { m.rdmaSync with
      connection := some c, acknowledgedBytes := m.rdmaSync.snapshotBytes } })

theorem primaryReceive_ready (env : RdmaAnswers) (got : Nat) (hm : IsId m.fullSyncId)
    (hstart : m.rdmaSync.snapshotBytes = 0) :
    primaryReceive env got (readyMessage id) m =
      if id = m.fullSyncId then afterReady env got m else (.failed, m) := by
  have hlength := length_readyMessage hm
  unfold primaryReceive
  simp only [show ¬0 < m.rdmaSync.snapshotBytes by omega, if_false]
  by_cases heq : id = m.fullSyncId
  · subst heq
    rw [if_neg (not_or.mpr ⟨by omega, fun h => h rfl⟩), if_pos rfl]
    rfl
  · rw [if_pos (.inr fun h => heq (readyMessage_inj h)), if_neg heq]

theorem primaryReceive_ack (env : RdmaAnswers) (got : Nat)
    (hsent : m.rdmaSync.acknowledgedBytes < m.rdmaSync.snapshotBytes)
    (hmax : m.rdmaSync.snapshotBytes ≤ offMax) :
    primaryReceive env got (ackMessage n) m =
      if n = m.rdmaSync.snapshotBytes then afterAck env m else (.failed, m) := by
  have hlength := length_ackMessage hmax
  unfold primaryReceive
  rw [if_pos (by omega)]
  by_cases heq : n = m.rdmaSync.snapshotBytes
  · subst heq
    rw [if_neg (not_or.mpr ⟨by omega, not_or.mpr ⟨by omega, fun h => h rfl⟩⟩), if_pos rfl]
    rfl
  · rw [if_pos (.inr (.inr fun h => heq (ackMessage_inj h))), if_neg heq]

-- ---------------------------------------------------------------------------
-- Both sides
-- ---------------------------------------------------------------------------

theorem length_fullResyncLine (h : m.Announces) : (fullResyncLine m).length < bufferLength := by
  have hname : (ascii "FULLRESYNC_RDMA ").length = 16 := by decide
  have hblank : (ascii " ").length = 1 := by decide
  have hend : (ascii "\r\n").length = 2 := by decide
  have hid : kvsReplicationIdHexLength = 40 := rfl
  have hbuffer : bufferLength = 1024 := rfl
  have hsize := h.size
  have hport := h.port
  have hoffset := length_writeDecimal_le h.offset
  have hbytes : (writeDecimal m.snapshotFileSize.toNat).length ≤ 19 := length_writeDecimal_le (by omega)
  have hdigits : (writeDecimal m.rdmaPort).length ≤ 5 := by
    rw [length_writeDecimal]
    exact decimalDigits_le (by omega)
  simp only [fullResyncLine, List.length_append, hname, hblank, hend, h.replicationId.length,
    h.fullSyncId.length]
  omega

theorem length_onlineLine (h : n ≤ offMax) : (onlineLine n).length < bufferLength := by
  have hname : (ascii "ONLINE ").length = 7 := by decide
  have hend : (ascii "\r\n").length = 2 := by decide
  have hbuffer : bufferLength = 1024 := rfl
  have hdigits := length_writeDecimal_le h
  simp only [onlineLine, List.length_append, hname, hend]
  omega

/-- The messages of a synchronisation fit their buffers and are read as they were
meant: an announcement with its five values, the others exactly where the
identifier or the number is the expected one. What is no announcement is not
taken for one. -/
theorem syncMessages_roundTrip :
    (∀ m : ReplicationManager, m.Announces →
      (fullResyncLine m).length < bufferLength ∧ framesOf (fullResyncLine m) = [fullResyncFrame m] ∧
      ∀ fd cmId capacity (s : Server), s.Handshake fd → s.replication.rdmaSync.connection = none →
        0 < capacity →
        Triple (call (kvsReplicationUpstreamFrameProtocol fd (.resolving cmId)) capacity
          (fullResyncFrame m) []) s (fun reply s' =>
            reply = some [] ∧ s'.replication.state = .fullSync ∧
            s'.replication.replicationId = m.replicationId ∧
            s'.replication.replicationOffset = m.replicationOffset ∧
            s'.replication.snapshotFileSize = m.snapshotFileSize ∧
            s'.replication.primaryRdmaPort = m.rdmaPort ∧
            s'.replication.fullSyncId = m.fullSyncId) Never) ∧
    (∀ id, IsId id → (readyMessage id).length < messageCapacity ∧
      ∀ env got (m : ReplicationManager), IsId m.fullSyncId → m.rdmaSync.snapshotBytes = 0 →
        primaryReceive env got (readyMessage id) m =
          if id = m.fullSyncId then afterReady env got m else (.failed, m)) ∧
    (∀ n ≤ offMax, (ackMessage n).length < messageCapacity ∧
      ∀ env got (m : ReplicationManager), m.rdmaSync.acknowledgedBytes < m.rdmaSync.snapshotBytes →
        m.rdmaSync.snapshotBytes ≤ offMax →
        primaryReceive env got (ackMessage n) m =
          if n = m.rdmaSync.snapshotBytes then afterAck env m else (.failed, m)) ∧
    (∀ n ≤ offMax, (onlineLine n).length < bufferLength ∧ framesOf (onlineLine n) = [onlineFrame n] ∧
      ∀ fd capacity (s : Server), s.Following fd → 5 ≤ capacity →
        Triple (call (kvsReplicationOnlineControlFrameProtocol fd) capacity (onlineFrame n) []) s
          (fun reply s' => if s.aofOffset = some n then reply = some [] ∧ s' = { s with replication :=
              { s.replication with replicationOffset := n, state := .online } }
            else reply = none ∧ s' = s) Never) ∧
    (∀ fd start capacity frame (s : Server),
      Triple (call (kvsReplicationUpstreamFrameProtocol fd start) capacity frame []) s
        (fun reply s' => reply.isSome → s'.replication.state = .fullSync →
          ∃ r : FullResync, r.Accepted frame ∧ s'.replication.Took r) Never) := by
  refine ⟨fun m hm => ⟨length_fullResyncLine hm, ?_, ?_⟩, ?_, ?_, ?_, ?_⟩
  · rw [fullResyncLine_eq]
    exact framesOf_printed (fullResyncFrame_text hm)
  · intro fd cmId capacity s hs hnone hcap
    refine (upstreamFrame_announced hm hs hnone hcap).weaken fun reply s' h => ?_
    obtain ⟨hreply, hstate, hid, hoffset, hsize, hport, hsync⟩ := h
    exact ⟨hreply, hstate, hid, Int.ofNat_inj.mp hoffset, hsize, hport, hsync⟩
  · intro id hid
    exact ⟨length_readyMessage hid, fun env got m hm hstart => primaryReceive_ready env got hm hstart⟩
  · intro n hn
    exact ⟨length_ackMessage hn, fun env got m hsent hmax => primaryReceive_ack env got hsent hmax⟩
  · intro n hn
    refine ⟨length_onlineLine hn, ?_, fun fd capacity s hs hcap => onlineFrame_accepted hs hcap hn⟩
    rw [onlineLine_eq]
    exact framesOf_printed (onlineFrame_text n)
  · intro fd start capacity frame s
    exact upstreamFrame_accepted frame start

/-- The largest announcement, and the replica that takes it. -/
theorem syncMessages_roundTrip_largest : ∃ (m : ReplicationManager) (s s' : Server),
    m.Announces ∧ m.replicationOffset = 2 ^ 63 - 1 ∧ (fullResyncLine m).length < bufferLength ∧
      framesOf (fullResyncLine m) = [fullResyncFrame m] ∧ s.Handshake 7 ∧
      call (kvsReplicationUpstreamFrameProtocol 7 (.resolving 0)) 64 (fullResyncFrame m) [] s =
        .ok (some [], s') ∧ s'.replication.state = .fullSync ∧
      s'.replication.replicationOffset = 2 ^ 63 - 1 ∧ s'.replication.snapshotFileSize = 2 ^ 63 - 1 ∧
      s'.replication.primaryRdmaPort = 65535 ∧ s'.replication.fullSyncId = m.fullSyncId ∧
      ∃ r : FullResync, r.Accepted (fullResyncFrame m) ∧ s'.replication.Took r := by
  have hid : IsId (List.replicate 40 97) := by
    refine ⟨List.length_replicate, fun b hb => ?_⟩
    rw [List.eq_of_mem_replicate hb]
    decide
  obtain ⟨m, hm, hposition, hfile, hlisten⟩ : ∃ m : ReplicationManager, m.Announces ∧
      m.replicationOffset = 2 ^ 63 - 1 ∧ m.snapshotFileSize = 2 ^ 63 - 1 ∧ m.rdmaPort = 65535 :=
    ⟨{ ReplicationManager.start with
        replicationId := List.replicate 40 97, fullSyncId := List.replicate 40 97
        replicationOffset := 2 ^ 63 - 1, snapshotFileSize := 2 ^ 63 - 1, rdmaPort := 65535 },
      ⟨hid, hid, by decide, by decide, by decide, by decide, by decide⟩, rfl, rfl, rfl⟩
  have hmemory := Runtime.not_canFail_start fun _ => false
  obtain ⟨_, rt, -, -, E, -, -⟩ := (initKvengine_spec hmemory).run
  let s : Server := ⟨rt, E, fun _ => some [], .start fun _ => none, some ⟨.appendonlyAof, 0, true⟩, .replica,
    .legacyHybrid, { ReplicationManager.start with
      initialized := true, role := .replica, primaryConnectionFd := some 7, state := .handshake }⟩
  have hs : s.Handshake 7 := ⟨rfl, rfl, rfl, rfl⟩
  obtain ⟨hlength, hframes, htaken⟩ := syncMessages_roundTrip.1 m hm
  obtain ⟨_, s', hrun, rfl, hstate, -, hoffset, hsize, hport, hsync⟩ :=
    (htaken 7 0 64 s hs rfl (by decide)).run
  have haccepted := (syncMessages_roundTrip.2.2.2.2 7 (.resolving 0) 64 (fullResyncFrame m) s).post hrun rfl
    hstate
  exact ⟨m, s, s', hm, hposition, hlength, hframes, hs, hrun, hstate, hoffset.trans hposition,
    hsize.trans hfile, hport.trans hlisten, hsync, haccepted⟩

end KvStore
