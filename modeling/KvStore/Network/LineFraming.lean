import KvStore.Lib.Split
import KvStore.Network.Lines

/-!
# Framing of control lines

The line protocols with the buffer they work in. A complete line is closed in
place by a zero over its terminator, so that the handler reads it as a string;
the bytes behind the last complete line are those that were received. However a
stream is cut into pieces, its lines are delivered once each and in order.
-/

namespace KvStore

open Lib

variable {σ : Type}

/-- A handler gets the memory of its frame with the byte that closes it, the
length of the frame and the room for the response. -/
abbrev FrameHandler (σ : Type) := Bytes → Nat → Nat → Program σ Stop (Option Bytes)

/-- What a line protocol leaves: the input buffer, and the responses with the
number of bytes consumed, or nothing on failure. -/
abbrev LinesHandled := Bytes × Option (Bytes × Nat)

/-- The loop of `kvs_line_batch_protocol` at `requestOffset`. Each round moves
on, so the length of the input bounds the rounds. -/
def lineBatchInPlace (frameHandler : FrameHandler σ) (responseCapacity : Nat) :
    Nat → Bytes → Nat → Bytes → Program σ Stop LinesHandled
  | 0, msg, requestOffset, response => return (msg, some (response, requestOffset))
  | rounds + 1, msg, requestOffset, response => do
    match kvsFindLineEnd (msg.drop requestOffset) with
    | none => return (msg, some (response, requestOffset))
    | some (frameEnd, delimiterLength) =>
      if frameEnd = 0 then return (msg, none)
      else
        let msg := msg.set (requestOffset + frameEnd) 0
        if response.length ≥ responseCapacity then return (msg, none)
        else
          match ← frameHandler ((msg.drop requestOffset).take (frameEnd + 1)) frameEnd
              (responseCapacity - response.length) with
          | none => return (msg, none)
          | some reply =>
            if reply.length > responseCapacity - response.length then return (msg, none)
            else
              lineBatchInPlace frameHandler responseCapacity rounds msg
                (requestOffset + frameEnd + delimiterLength) (response ++ reply)

/-- `kvs_line_batch_protocol` with its buffer. -/
def kvsLineBatchProtocolInPlace (frameHandler : FrameHandler σ) (responseCapacity : Nat)
    (msg : Bytes) : Program σ Stop LinesHandled :=
  if msg.length = 0 ∨ responseCapacity = 0 then return (msg, none)
  else lineBatchInPlace frameHandler responseCapacity msg.length msg 0 []

/-- `kvs_replication_control_line_protocol`: only the first line. -/
def kvsReplicationControlLineProtocol (frameHandler : FrameHandler σ) (responseCapacity : Nat)
    (msg : Bytes) : Program σ Stop LinesHandled := do
  match msg.findIdx? (· == lf) with
  | none => return (msg, some ([], 0))
  | some i =>
    let (line, handled) ← kvsLineBatchProtocolInPlace frameHandler responseCapacity (msg.take (i + 1))
    return (line ++ msg.drop (i + 1), handled)

-- ---------------------------------------------------------------------------
-- The lines of a stream
-- ---------------------------------------------------------------------------

def stripCr (line : Bytes) : Bytes := if line.getLast? = some cr then line.dropLast else line

def framesOf (stream : Bytes) : List Bytes := (splitFrom lf [] stream).1.map stripCr

def tailOf (stream : Bytes) : Bytes := (splitFrom lf [] stream).2

def terminated (line : Bytes) : Bytes :=
  if line.getLast? = some cr then line.dropLast ++ [0, lf] else line ++ [0]

def closedLines (stream : Bytes) : Bytes := ((splitFrom lf [] stream).1.map terminated).flatten

variable {line rest msg stream : Bytes}

theorem length_terminated (line : Bytes) : (terminated line).length = line.length + 1 := by
  unfold terminated
  split
  · rename_i hcr
    have hne : line ≠ [] := by
      rintro rfl
      cases hcr
    have hpos := List.length_pos_iff.mpr hne
    simp only [List.length_append, List.length_dropLast, List.length_cons, List.length_nil]
    omega
  · simp

@[simp] theorem framesOf_line (h : lf ∉ line) :
    framesOf (line ++ lf :: rest) = stripCr line :: framesOf rest := by
  simp [framesOf, splitFrom_line h]

@[simp] theorem tailOf_line (h : lf ∉ line) : tailOf (line ++ lf :: rest) = tailOf rest := by
  simp [tailOf, splitFrom_line h]

@[simp] theorem closedLines_line (h : lf ∉ line) :
    closedLines (line ++ lf :: rest) = terminated line ++ closedLines rest := by
  simp [closedLines, splitFrom_line h]

@[simp] theorem framesOf_clean (h : lf ∉ stream) : framesOf stream = [] := by
  simp [framesOf, splitFrom_clean _ h]

@[simp] theorem tailOf_clean (h : lf ∉ stream) : tailOf stream = stream := by
  simp [tailOf, splitFrom_clean _ h]

@[simp] theorem closedLines_clean (h : lf ∉ stream) : closedLines stream = [] := by
  simp [closedLines, splitFrom_clean _ h]

theorem lf_notMem_tailOf (stream : Bytes) : lf ∉ tailOf stream :=
  (sep_notMem_splitFrom [] stream List.not_mem_nil).1

/-- What is consumed ends with the last line feed of the stream. -/
theorem stream_cut (stream : Bytes) :
    ∃ consumed, stream = consumed ++ tailOf stream ∧
      consumed.length = (closedLines stream).length ∧ (consumed = [] ∨ consumed.getLast? = some lf) := by
  refine ⟨((splitFrom lf [] stream).1.map (· ++ [lf])).flatten, ?_, ?_, ?_⟩
  · exact (splitFrom_join [] stream).symm
  · simp [closedLines, List.length_flatten, Function.comp_def, length_terminated]
  · obtain hnil | ⟨lines, last, hlines⟩ := List.eq_nil_or_concat (splitFrom lf [] stream).1
    · simp [hnil]
    · right
      simp [hlines]

theorem splitFrom_tailOf (a b : Bytes) : splitFrom lf [] (tailOf a ++ b) = splitFrom lf (tailOf a) b := by
  rw [splitFrom_append, splitFrom_clean _ (lf_notMem_tailOf a)]
  rfl

theorem framesOf_append (a b : Bytes) : framesOf (a ++ b) = framesOf a ++ framesOf (tailOf a ++ b) := by
  rw [framesOf, framesOf, framesOf, splitFrom_tailOf, splitFrom_append, List.map_append]
  rfl

theorem tailOf_append (a b : Bytes) : tailOf (a ++ b) = tailOf (tailOf a ++ b) := by
  rw [tailOf, tailOf, splitFrom_tailOf, splitFrom_append]
  rfl

-- ---------------------------------------------------------------------------
-- The end of a line
-- ---------------------------------------------------------------------------

theorem findLineEnd_clean (i : Nat) (previous : Option UInt8) (h : lf ∉ msg) :
    findLineEnd i previous msg = none := by
  induction msg generalizing i previous with
  | nil => rfl
  | cons b msg ih =>
    obtain ⟨hb, hmsg⟩ := not_or.mp (fun hmem => h (List.mem_cons.mpr hmem))
    rw [findLineEnd, if_pos (Ne.symm hb)]
    exact ih _ _ hmsg

theorem findLineEnd_line (i : Nat) (previous : Option UInt8) (h : lf ∉ line) :
    findLineEnd i previous (line ++ lf :: rest) =
      if line.getLast?.or previous = some cr then some (i + line.length - 1, 2)
      else some (i + line.length, 1) := by
  induction line generalizing i previous with
  | nil =>
    simp only [List.nil_append, findLineEnd]
    simp
  | cons b line ih =>
    obtain ⟨hb, hline⟩ := not_or.mp (fun hmem => h (List.mem_cons.mpr hmem))
    rw [List.cons_append, findLineEnd, if_pos (Ne.symm hb), ih _ _ hline]
    have hlast : (b :: line).getLast?.or previous = line.getLast?.or (some b) := by
      rw [List.getLast?_cons]
      cases line.getLast? <;> rfl
    rw [hlast]
    simp only [List.length_cons]
    grind

theorem kvsFindLineEnd_line (h : lf ∉ line) :
    ∃ delimiterLength, kvsFindLineEnd (line ++ lf :: rest) = some ((stripCr line).length, delimiterLength) ∧
      (stripCr line).length + delimiterLength = line.length + 1 := by
  unfold kvsFindLineEnd
  rw [findLineEnd_line 0 none h, Option.or_none]
  unfold stripCr
  split
  · rename_i hcr
    have hne : line ≠ [] := by
      rintro rfl
      cases hcr
    have hpos := List.length_pos_iff.mpr hne
    refine ⟨2, by simp, ?_⟩
    rw [List.length_dropLast]
    omega
  · exact ⟨1, by simp, rfl⟩

theorem set_line (pre line rest : Bytes) :
    (pre ++ (line ++ lf :: rest)).set (pre.length + (stripCr line).length) 0 =
      pre ++ terminated line ++ rest := by
  unfold stripCr terminated
  split
  · rename_i hcr
    obtain ⟨init, rfl⟩ := List.getLast?_eq_some_iff.mp hcr
    simp
  · simp

theorem take_terminated (line rest : Bytes) :
    (terminated line ++ rest).take ((stripCr line).length + 1) = stripCr line ++ [0] := by
  unfold terminated stripCr
  split
  · simp [List.take_append]
  · simp [List.take_append]

theorem lineBatch_inPlace (handler : Bytes → Nat → Serve (Option Bytes)) (capacity rounds : Nat)
    (pre rest response : Bytes) :
    lineBatch handler capacity rounds rest response pre.length =
      (·.2) <$> lineBatchInPlace (fun frame frameLength room => handler (frame.take frameLength) room)
        capacity rounds (pre ++ rest) pre.length response := by
  induction rounds generalizing pre rest response with
  | zero => rfl
  | succ rounds ih =>
    unfold lineBatch lineBatchInPlace
    rw [List.drop_left]
    obtain hclean | ⟨line, rest, rfl, hline⟩ := sep_cases lf rest
    · rw [show kvsFindLineEnd rest = none from findLineEnd_clean _ _ hclean]
      rfl
    · obtain ⟨delimiterLength, hfind, hlength⟩ := @kvsFindLineEnd_line _ rest hline
      have htake : (line ++ lf :: rest).take (stripCr line).length = stripCr line := by
        unfold stripCr
        split
        · rename_i hcr
          obtain ⟨init, rfl⟩ := List.getLast?_eq_some_iff.mp hcr
          simp
        · simp
      have hdrop : (line ++ lf :: rest).drop ((stripCr line).length + delimiterLength) = rest := by
        rw [hlength]
        simp [List.drop_append]
      have hoffset : pre.length + (stripCr line).length + delimiterLength =
          (pre ++ terminated line).length := by
        rw [List.length_append, length_terminated]
        omega
      simp only [hfind, htake, hdrop, hoffset, set_line, List.append_assoc, List.drop_left,
        take_terminated, List.take_left]
      split
      · rfl
      split
      · rfl
      rw [map_bind]
      congr
      funext r
      cases r with
      | none => rfl
      | some reply =>
        simp only
        split
        · rfl
        · rw [ih (pre ++ terminated line) rest, List.append_assoc]

/-- The protocol of `Lines` is this one without its buffer. -/
theorem kvsLineBatchProtocol_inPlace (handler : Bytes → Nat → Serve (Option Bytes)) (msg : Bytes)
    (capacity : Nat) :
    kvsLineBatchProtocol handler msg capacity =
      (·.2) <$> kvsLineBatchProtocolInPlace
        (fun frame frameLength room => handler (frame.take frameLength) room) capacity msg := by
  unfold kvsLineBatchProtocol kvsLineBatchProtocolInPlace
  split
  · rfl
  · exact lineBatch_inPlace handler capacity msg.length [] msg []

-- ---------------------------------------------------------------------------
-- Calls of the handler
-- ---------------------------------------------------------------------------

section
variable (frameHandler : FrameHandler σ) (capacity : Nat)

def call (frame prior : Bytes) : Program σ Stop (Option Bytes) :=
  frameHandler (frame ++ [0]) frame.length (capacity - prior.length)

/-- The handler was called for each of the frames, once and in this order, and
answered; `prior` was in the response before, `replies` were put behind it. -/
inductive Calls : List Bytes → Bytes → σ → Bytes → σ → Prop
  | nil : Calls [] prior s [] s
  | cons : frame ≠ [] → prior.length < capacity →
    call frameHandler capacity frame prior s = .ok (some reply, s₁) →
    reply.length ≤ capacity - prior.length → Calls frames (prior ++ reply) s₁ replies s' →
    Calls (frame :: frames) prior s (reply ++ replies) s'

def Reaches (P : Bytes → Bytes → σ → Prop) (frames : List Bytes) (prior : Bytes) (s : σ) : Prop :=
  ∃ done frame rest replies s₁, frames = done ++ frame :: rest ∧
    Calls frameHandler capacity done prior s replies s₁ ∧ P frame (prior ++ replies) s₁

/-- Why a frame is not answered, and the state `s'` this ends in. -/
def Declined (s' : σ) (frame prior : Bytes) (s : σ) : Prop :=
  (frame = [] ∧ s' = s) ∨ (frame ≠ [] ∧ call frameHandler capacity frame prior s = .ok (none, s')) ∨
    (capacity ≤ prior.length ∧ s' = s) ∨
    ∃ reply, call frameHandler capacity frame prior s = .ok (some reply, s') ∧
      capacity - prior.length < reply.length

def Stops (e : Stop) (frame prior : Bytes) (s : σ) : Prop :=
  call frameHandler capacity frame prior s = .error e

end

variable {frameHandler : FrameHandler σ} {capacity : Nat} {frames : List Bytes} {s s₁ s' : σ}
  {P : Bytes → Bytes → σ → Prop}

theorem Reaches.here (h : P frame prior s) : Reaches frameHandler capacity P (frame :: frames) prior s :=
  ⟨[], frame, frames, [], s, rfl, .nil, by rwa [List.append_nil]⟩

theorem Reaches.later (hne : frame ≠ []) (hroom : prior.length < capacity)
    (hcall : call frameHandler capacity frame prior s = .ok (some reply, s₁))
    (hfits : reply.length ≤ capacity - prior.length)
    (h : Reaches frameHandler capacity P frames (prior ++ reply) s₁) :
    Reaches frameHandler capacity P (frame :: frames) prior s := by
  obtain ⟨done, next, rest, replies, s₂, rfl, hcalls, hP⟩ := h
  refine ⟨frame :: done, next, rest, reply ++ replies, s₂, rfl, .cons hne hroom hcall hfits hcalls, ?_⟩
  rwa [← List.append_assoc]

-- ---------------------------------------------------------------------------
-- The batch
-- ---------------------------------------------------------------------------

/-- The loop behind the bytes `pre` it is done with. -/
theorem lineBatchInPlace_spec (rounds : Nat) (pre rest prior : Bytes) (hrounds : rest.length ≤ rounds) :
    Triple (lineBatchInPlace frameHandler capacity rounds (pre ++ rest) pre.length prior) s
      (fun r s' => (∃ replies, r = (pre ++ closedLines rest ++ tailOf rest,
            some (prior ++ replies, pre.length + (closedLines rest).length)) ∧
          Calls frameHandler capacity (framesOf rest) prior s replies s') ∨
        (r.2 = none ∧ r.1.length = pre.length + rest.length ∧
          Reaches frameHandler capacity (Declined frameHandler capacity s') (framesOf rest) prior s))
      (fun e => Reaches frameHandler capacity (Stops frameHandler capacity e) (framesOf rest) prior s) := by
  induction rounds generalizing pre rest prior s with
  | zero =>
    obtain rfl : rest = [] := List.length_eq_zero_iff.mp (Nat.le_zero.mp hrounds)
    refine Triple.pure (.inl ⟨[], ?_, ?_⟩)
    · simp [closedLines, tailOf]
    · simpa [framesOf] using Calls.nil
  | succ rounds ih =>
    unfold lineBatchInPlace
    rw [List.drop_left]
    obtain hclean | ⟨line, rest, rfl, hline⟩ := sep_cases lf rest
    · rw [show kvsFindLineEnd rest = none from findLineEnd_clean _ _ hclean]
      refine Triple.pure (.inl ⟨[], ?_, ?_⟩)
      · simp [hclean]
      · rw [framesOf_clean hclean]
        exact .nil
    · obtain ⟨delimiterLength, hfind, hlength⟩ := @kvsFindLineEnd_line _ rest hline
      simp only [hfind, framesOf_line hline, tailOf_line hline, closedLines_line hline, set_line,
        List.append_assoc, List.drop_left, take_terminated, List.length_append, List.length_cons] at *
      refine Triple.ite (fun hempty => ?_) fun hempty => ?_
      · exact Triple.pure (.inr ⟨rfl, by simp, .here (Or.inl ⟨List.length_eq_zero_iff.mp hempty, rfl⟩)⟩)
      have hne : stripCr line ≠ [] := fun h => hempty (by rw [h]; rfl)
      have hsize : (pre ++ (terminated line ++ rest)).length = pre.length +
        (line.length + (rest.length + 1)) := by
        simp only [List.length_append, length_terminated]
        omega
      refine Triple.ite (fun hfull => ?_) fun hroom => ?_
      · exact Triple.pure (.inr ⟨rfl, hsize, .here (Or.inr (.inr (.inl ⟨hfull, rfl⟩)))⟩)
      refine Triple.named_bind (fun reply s₁ hcall => ?_) fun e hstop => .here hstop
      cases reply with
      | none => exact Triple.pure (.inr ⟨rfl, hsize, .here (Or.inr (.inl ⟨hne, hcall⟩))⟩)
      | some reply =>
        refine Triple.ite (fun hlong => ?_) fun hfits => ?_
        · exact Triple.pure (.inr ⟨rfl, hsize, .here (Or.inr (.inr (.inr ⟨reply, hcall, hlong⟩)))⟩)
        have hfits : reply.length ≤ capacity - prior.length := by omega
        have hroom : prior.length < capacity := by omega
        have hoffset : pre.length + (stripCr line).length + delimiterLength =
            (pre ++ terminated line).length := by
          rw [List.length_append, length_terminated]
          omega
        rw [hoffset, ← List.append_assoc]
        refine (ih (pre ++ terminated line) rest (prior ++ reply) (by omega)).mono ?_ ?_
        · rintro r s' (⟨replies, rfl, hcalls⟩ | ⟨hnone, hsame, hreaches⟩)
          · refine .inl ⟨reply ++ replies, ?_, .cons hne hroom hcall hfits hcalls⟩
            simp [Nat.add_assoc]
          · refine .inr ⟨hnone, ?_, hreaches.later hne hroom hcall hfits⟩
            rw [hsame, List.length_append, length_terminated]
            omega
        · intro e hstops
          exact hstops.later hne hroom hcall hfits

theorem kvsLineBatchProtocolInPlace_spec (hmsg : msg ≠ []) (hcap : 0 < capacity) :
    Triple (kvsLineBatchProtocolInPlace frameHandler capacity msg) s
      (fun r s' => (∃ replies, r = (closedLines msg ++ tailOf msg,
            some (replies, (closedLines msg).length)) ∧
          Calls frameHandler capacity (framesOf msg) [] s replies s') ∨
        (r.2 = none ∧ r.1.length = msg.length ∧
          Reaches frameHandler capacity (Declined frameHandler capacity s') (framesOf msg) [] s))
      (fun e => Reaches frameHandler capacity (Stops frameHandler capacity e) (framesOf msg) [] s) := by
  have hpos := List.length_pos_iff.mpr hmsg
  unfold kvsLineBatchProtocolInPlace
  rw [if_neg (by omega)]
  simpa using @lineBatchInPlace_spec _ frameHandler capacity s msg.length [] msg []
    (Nat.le_refl _)

theorem Reaches.single (h : Reaches frameHandler capacity P [frame] prior s) : P frame prior s := by
  obtain ⟨done, next, rest, replies, s₁, hframes, hcalls, hP⟩ := h
  cases done with
  | nil =>
    cases hcalls
    obtain ⟨rfl, rfl⟩ := List.cons.inj hframes
    rwa [List.append_nil] at hP
  | cons first done =>
    have hlength := congrArg List.length hframes
    simp at hlength

theorem kvsReplicationControlLineProtocol_line (hline : lf ∉ line) (hcap : 0 < capacity) :
    Triple (kvsReplicationControlLineProtocol frameHandler capacity (line ++ lf :: rest)) s
      (fun r s' => (∃ reply, r = (terminated line ++ rest, some (reply, line.length + 1)) ∧
          Calls frameHandler capacity [stripCr line] [] s reply s') ∨
        (r.2 = none ∧ (∃ line', line'.length = line.length + 1 ∧ r.1 = line' ++ rest) ∧
          Declined frameHandler capacity s' (stripCr line) [] s))
      (fun e => Stops frameHandler capacity e (stripCr line) [] s) := by
  have hfind : (line ++ lf :: rest).findIdx? (· == lf) = some line.length := by
    have hnone : line.findIdx? (· == lf) = none := by
      rw [List.findIdx?_eq_none_iff]
      intro b hb
      simpa using fun h : b = lf => hline (h ▸ hb)
    simp [List.findIdx?_append, hnone, List.findIdx?_cons]
  have htake : (line ++ lf :: rest).take (line.length + 1) = line ++ [lf] := by
    simp [List.take_append]
  have hdrop : (line ++ lf :: rest).drop (line.length + 1) = rest := by
    simp [List.drop_append]
  have hframes : framesOf (line ++ [lf]) = [stripCr line] := by
    rw [framesOf_line hline]
    rfl
  have hclosed : closedLines (line ++ [lf]) = terminated line := by
    rw [closedLines_line hline]
    exact List.append_nil _
  have htail : tailOf (line ++ [lf]) = [] := by
    rw [tailOf_line hline]
    rfl
  have hbatch := @kvsLineBatchProtocolInPlace_spec _ (line ++ [lf]) frameHandler capacity s
    (by simp) hcap
  rw [hframes, hclosed, htail, List.append_nil, length_terminated] at hbatch
  simp only [kvsReplicationControlLineProtocol, hfind, htake, hdrop]
  refine (hbatch.mono (fun _ _ h => h) fun e h => h.single).bind fun r s' h => ?_
  obtain ⟨replies, rfl, hcalls⟩ | ⟨hnone, hlength, hreaches⟩ := h
  · exact Triple.pure (.inl ⟨replies, rfl, hcalls⟩)
  · refine Triple.pure (.inr ⟨hnone, ⟨r.1, ?_, rfl⟩, hreaches.single⟩)
    rw [hlength, List.length_append]
    rfl

theorem kvsReplicationControlLineProtocol_clean (h : lf ∉ msg) :
    kvsReplicationControlLineProtocol frameHandler capacity msg = pure (msg, some ([], 0)) := by
  have hnone : msg.findIdx? (· == lf) = none := by
    rw [List.findIdx?_eq_none_iff]
    intro b hb
    simpa using fun hb' : b = lf => h (hb' ▸ hb)
  simp only [kvsReplicationControlLineProtocol, hnone]

-- ---------------------------------------------------------------------------
-- Any cutting
-- ---------------------------------------------------------------------------

def recording (frameHandler : FrameHandler σ) : FrameHandler (σ × List Bytes) :=
  fun frame frameLength room state =>
    match frameHandler frame frameLength room state.1 with
    | .ok (reply, s') => .ok (reply, (s', state.2 ++ [frame.take frameLength]))
    | .error e => .error e

def drainLines (protocol : Bytes → Program σ Stop LinesHandled) :
    Nat → Bytes → Program σ Stop (Option Bytes)
  | 0, _ => throw .fuel
  | rounds + 1, input => do
    let (msg, handled) ← protocol input
    match handled with
    | none => return none
    | some (_, consumed) =>
      if consumed > msg.length then return none
      else if (msg.drop consumed).length > 0 ∧ consumed > 0 then
        drainLines protocol rounds (msg.drop consumed)
      else return some (msg.drop consumed)

def feedLines (protocol : Bytes → Program σ Stop LinesHandled) :
    List Bytes → Bytes → Program σ Stop (Option Bytes)
  | [], input => return some input
  | piece :: pieces, input => do
    match ← drainLines protocol ((input ++ piece).length + 1) (input ++ piece) with
    | none => return none
    | some rest => feedLines protocol pieces rest

def RepliesFit (frameHandler : FrameHandler σ) : Prop :=
  ∀ frame frameLength room s reply s', 0 < room →
    frameHandler frame frameLength room s = .ok (some reply, s') → reply.length < room

def StoppedAt (frameHandler : FrameHandler σ) (frames noted noted' : List Bytes) : Prop :=
  ∃ done frame rest, frames = done ++ frame :: rest ∧ noted' = noted ++ (done ++ [frame]) ∧
    ∃ room s s', frameHandler (frame ++ [0]) frame.length room s = .ok (none, s')

def HandlerStops (frameHandler : FrameHandler σ) (e : Stop) : Prop :=
  ∃ frame frameLength room s, frameHandler frame frameLength room s = .error e

def Delivers (frameHandler : FrameHandler σ)
    (protocol : Bytes → Program (σ × List Bytes) Stop LinesHandled) : Prop :=
  ∀ msg state, msg ≠ [] → [] ∉ framesOf msg →
    Triple (protocol msg) state (fun r state' =>
      (∃ reply consumed done, r.2 = some (reply, consumed) ∧ consumed ≤ r.1.length ∧
        r.1.length = msg.length ∧ framesOf msg = done ++ framesOf (r.1.drop consumed) ∧
        tailOf msg = tailOf (r.1.drop consumed) ∧ state'.2 = state.2 ++ done ∧
        (consumed = 0 → lf ∉ r.1.drop consumed)) ∨
      (r.2 = none ∧ StoppedAt frameHandler (framesOf msg) state.2 state'.2))
      (HandlerStops frameHandler)

theorem recording_call {state state' : σ × List Bytes}
    (h : call (recording frameHandler) capacity frame prior state = .ok (reply, state')) :
    call frameHandler capacity frame prior state.1 = .ok (reply, state'.1) ∧
      state'.2 = state.2 ++ [frame] := by
  unfold call recording at h
  split at h
  · rename_i reply' s' hcall
    obtain ⟨rfl, rfl⟩ := Prod.mk.inj (Except.ok.inj h)
    exact ⟨hcall, by simp⟩
  · cases h

theorem recording_stop {state : σ × List Bytes}
    (h : call (recording frameHandler) capacity frame prior state = .error e) :
    HandlerStops frameHandler e := by
  unfold call recording at h
  split at h
  · cases h
  · rename_i e' hcall
    obtain rfl := Except.error.inj h
    exact ⟨_, _, _, _, hcall⟩

theorem Calls.noted {state state' : σ × List Bytes}
    (h : Calls (recording frameHandler) capacity frames prior state replies state') :
    state'.2 = state.2 ++ frames := by
  induction h with
  | nil => exact (List.append_nil _).symm
  | cons _ _ hcall _ _ ih =>
    rw [ih, (recording_call hcall).2, List.append_assoc]
    rfl

theorem Calls.room {state state' : σ × List Bytes} (hfits : RepliesFit frameHandler)
    (h : Calls (recording frameHandler) capacity frames prior state replies state')
    (hroom : prior.length < capacity) : (prior ++ replies).length < capacity := by
  induction h with
  | nil => simpa using hroom
  | @cons frame prior s reply s₁ frames replies s' _ hprior hcall _ _ ih =>
    have hreply := hfits _ _ _ _ _ _ (by omega) (recording_call hcall).1
    rw [← List.append_assoc]
    refine ih ?_
    rw [List.length_append]
    omega

theorem Reaches.stoppedAt {state state' : σ × List Bytes} (hfits : RepliesFit frameHandler)
    (hcap : 0 < capacity) (hempty : [] ∉ frames)
    (h : Reaches (recording frameHandler) capacity (Declined (recording frameHandler) capacity state')
      frames [] state) : StoppedAt frameHandler frames state.2 state'.2 := by
  obtain ⟨done, frame, rest, replies, state₁, rfl, hcalls, hrefused⟩ := h
  have hroom := hcalls.room hfits hcap
  rw [List.nil_append] at hroom hrefused
  obtain ⟨rfl, -⟩ | ⟨-, hcall⟩ | ⟨hfull, -⟩ | ⟨reply, hcall, hlong⟩ := hrefused
  · simp at hempty
  · obtain ⟨hcall, hnoted⟩ := recording_call hcall
    refine ⟨done, frame, rest, rfl, ?_, _, _, _, hcall⟩
    rw [hnoted, hcalls.noted, List.append_assoc]
  · omega
  · have hreply := hfits _ _ _ _ _ _ (by omega) (recording_call hcall).1
    omega

theorem Reaches.handlerStops {state : σ × List Bytes}
    (h : Reaches (recording frameHandler) capacity (Stops (recording frameHandler) capacity e)
      frames [] state) : HandlerStops frameHandler e := by
  obtain ⟨done, frame, rest, replies, state₁, rfl, hcalls, hstops⟩ := h
  exact recording_stop hstops

theorem kvsLineBatchProtocolInPlace_delivers (hfits : RepliesFit frameHandler) (hcap : 0 < capacity) :
    Delivers frameHandler (kvsLineBatchProtocolInPlace (recording frameHandler) capacity) := by
  intro msg state hmsg hempty
  refine (kvsLineBatchProtocolInPlace_spec hmsg hcap).mono ?_ fun e h => h.handlerStops
  rintro r state' (⟨replies, rfl, hcalls⟩ | ⟨hnone, -, hreaches⟩)
  · have htail := lf_notMem_tailOf msg
    obtain ⟨consumed, hsplit, hconsumed, -⟩ := stream_cut msg
    refine .inl ⟨replies, (closedLines msg).length, framesOf msg, rfl, by simp, ?_, ?_, ?_,
      hcalls.noted, ?_⟩
    · conv => rhs; rw [hsplit]
      simp only [List.length_append, hconsumed]
    · simp [htail]
    · simp [htail]
    · simpa using fun _ => htail
  · exact .inr ⟨hnone, hreaches.stoppedAt hfits hcap hempty⟩

theorem kvsReplicationControlLineProtocol_delivers (hfits : RepliesFit frameHandler)
    (hcap : 0 < capacity) :
    Delivers frameHandler (kvsReplicationControlLineProtocol (recording frameHandler) capacity) := by
  intro msg state hmsg hempty
  obtain hclean | ⟨line, rest, rfl, hline⟩ := sep_cases lf msg
  · rw [kvsReplicationControlLineProtocol_clean hclean]
    exact Triple.pure (.inl ⟨[], 0, [], rfl, Nat.zero_le _, rfl, rfl, rfl, (List.append_nil _).symm,
      fun _ => hclean⟩)
  · rw [framesOf_line hline] at hempty ⊢
    rw [tailOf_line hline]
    refine (kvsReplicationControlLineProtocol_line hline hcap).mono ?_ fun e h => recording_stop h
    rintro r state' (⟨reply, rfl, hcalls⟩ | ⟨hnone, -, hrefused⟩)
    · refine .inl ⟨reply, line.length + 1, [stripCr line], rfl, ?_, ?_, ?_, ?_, hcalls.noted, nofun⟩
      · simp [length_terminated]
      · simp [length_terminated]
        omega
      · simp [length_terminated]
      · simp [length_terminated]
    · refine .inr ⟨hnone, Reaches.stoppedAt hfits hcap hempty (.here hrefused)⟩

theorem StoppedAt.behind (h : StoppedAt frameHandler frames (noted ++ done) noted') :
    StoppedAt frameHandler (done ++ frames) noted noted' := by
  obtain ⟨done', frame, rest, rfl, rfl, hrefused⟩ := h
  exact ⟨done ++ done', frame, rest, by simp, by simp, hrefused⟩

theorem StoppedAt.before (h : StoppedAt frameHandler frames noted noted') (later : List Bytes) :
    StoppedAt frameHandler (frames ++ later) noted noted' := by
  obtain ⟨done, frame, rest, rfl, rfl, hrefused⟩ := h
  exact ⟨done, frame, rest ++ later, by simp, rfl, hrefused⟩

variable {protocol : Bytes → Program (σ × List Bytes) Stop LinesHandled} {state : σ × List Bytes}

theorem drainLines_spec (hprotocol : Delivers frameHandler protocol) (rounds : Nat) (input : Bytes)
    (hinput : input ≠ []) (hempty : [] ∉ framesOf input) (hrounds : input.length < rounds) :
    Triple (drainLines protocol rounds input) state (fun r state' =>
      (r = some (tailOf input) ∧ state'.2 = state.2 ++ framesOf input) ∨
      (r = none ∧ StoppedAt frameHandler (framesOf input) state.2 state'.2))
      (HandlerStops frameHandler) := by
  induction rounds generalizing input state with
  | zero => exact absurd hrounds (Nat.not_lt_zero _)
  | succ rounds ih =>
    unfold drainLines
    refine (hprotocol input state hinput hempty).bind fun r state₁ h => ?_
    obtain ⟨msg, handled⟩ := r
    obtain ⟨reply, consumed, done, rfl, hle, hlength, hframes, htail, hnoted, hclean⟩ | ⟨rfl, hstopped⟩ := h
    · simp only at hle hlength hframes htail hclean
      simp only [Nat.not_lt.mpr hle, if_false]
      rw [hframes, htail]
      refine Triple.ite (fun hmore => ?_) fun hlast => ?_
      · have hempty' : [] ∉ framesOf (msg.drop consumed) := fun hmem =>
          hempty (hframes ▸ List.mem_append_right _ hmem)
        have hrest : msg.drop consumed ≠ [] := List.length_pos_iff.mp hmore.1
        have hshorter : (msg.drop consumed).length < rounds := by
          rw [List.length_drop]
          omega
        refine (ih _ hrest hempty' hshorter).weaken fun r state₂ h => ?_
        rw [hnoted] at h
        obtain ⟨rfl, hnoted'⟩ | ⟨rfl, hstopped⟩ := h
        · exact .inl ⟨rfl, by rw [hnoted', List.append_assoc]⟩
        · exact .inr ⟨rfl, hstopped.behind⟩
      · have hrest : lf ∉ msg.drop consumed := by
          by_cases hzero : consumed = 0
          · exact hclean hzero
          · rw [List.length_eq_zero_iff.mp (by omega : (msg.drop consumed).length = 0)]
            exact List.not_mem_nil
        refine Triple.pure (.inl ⟨?_, ?_⟩)
        · rw [tailOf_clean hrest]
        · rw [hnoted, framesOf_clean hrest, List.append_nil]
    · exact Triple.pure (.inr ⟨rfl, hstopped⟩)

theorem feedLines_spec (hprotocol : Delivers frameHandler protocol) (pieces : List Bytes)
    (input : Bytes) (hpieces : ∀ piece ∈ pieces, piece ≠ []) (hinput : lf ∉ input)
    (hempty : [] ∉ framesOf (input ++ pieces.flatten)) :
    Triple (feedLines protocol pieces input) state (fun r state' =>
      (r = some (tailOf (input ++ pieces.flatten)) ∧
        state'.2 = state.2 ++ framesOf (input ++ pieces.flatten)) ∨
      (r = none ∧ StoppedAt frameHandler (framesOf (input ++ pieces.flatten)) state.2 state'.2))
      (HandlerStops frameHandler) := by
  induction pieces generalizing input state with
  | nil =>
    rw [List.flatten_nil, List.append_nil]
    refine Triple.pure (.inl ⟨?_, ?_⟩)
    · rw [tailOf_clean hinput]
    · rw [framesOf_clean hinput, List.append_nil]
  | cons piece pieces ih =>
    rw [List.flatten_cons, ← List.append_assoc, framesOf_append] at hempty
    have hpiece := hpieces piece List.mem_cons_self
    have hfirst : [] ∉ framesOf (input ++ piece) := fun hmem => hempty (List.mem_append_left _ hmem)
    have hlater : [] ∉ framesOf (tailOf (input ++ piece) ++ pieces.flatten) := fun hmem =>
      hempty (List.mem_append_right _ hmem)
    rw [List.flatten_cons, ← List.append_assoc, framesOf_append, tailOf_append]
    unfold feedLines
    refine (drainLines_spec hprotocol _ (input ++ piece) (by simp [hpiece]) hfirst
      (Nat.lt_succ_self _)).bind fun r state₁ h => ?_
    obtain ⟨rfl, hnoted⟩ | ⟨rfl, hstopped⟩ := h
    · refine (ih _ (fun p hp => hpieces p (List.mem_cons_of_mem _ hp)) (lf_notMem_tailOf _)
        hlater).weaken fun r state₂ h => ?_
      rw [hnoted] at h
      obtain ⟨rfl, hnoted'⟩ | ⟨rfl, hstopped⟩ := h
      · exact .inl ⟨rfl, by rw [hnoted', List.append_assoc]⟩
      · exact .inr ⟨rfl, hstopped.behind⟩
    · exact Triple.pure (.inr ⟨rfl, hstopped.before _⟩)

-- ---------------------------------------------------------------------------
-- Both protocols
-- ---------------------------------------------------------------------------

def FitsFor (frameHandler : FrameHandler σ) (capacity : Nat) (frames : List Bytes) (s : σ) : Prop :=
  ∀ done frame rest replies s₁, frames = done ++ frame :: rest → frame ≠ [] →
    Calls frameHandler capacity done [] s replies s₁ → replies.length < capacity ∧
      ∀ reply s₂, call frameHandler capacity frame replies s₁ = .ok (some reply, s₂) →
        reply.length ≤ capacity - replies.length

def EmptyOrFails (frameHandler : FrameHandler σ) (capacity : Nat) (s' : σ) (frame prior : Bytes)
    (s : σ) : Prop :=
  frame = [] ∨ call frameHandler capacity frame prior s = .ok (none, s')

theorem Reaches.emptyOrFails (hfits : FitsFor frameHandler capacity frames s)
    (h : Reaches frameHandler capacity (Declined frameHandler capacity s') frames [] s) :
    Reaches frameHandler capacity (EmptyOrFails frameHandler capacity s') frames [] s := by
  obtain ⟨done, frame, rest, replies, s₁, hframes, hcalls, hrefused⟩ := h
  refine ⟨done, frame, rest, replies, s₁, hframes, hcalls, ?_⟩
  by_cases hempty : frame = []
  · exact .inl hempty
  obtain ⟨hroom, hreply⟩ := hfits done frame rest replies s₁ hframes hempty hcalls
  rw [List.nil_append] at hrefused ⊢
  obtain ⟨hempty', -⟩ | ⟨-, hcall⟩ | ⟨hfull, -⟩ | ⟨reply, hcall, hlong⟩ := hrefused
  · exact absurd hempty' hempty
  · exact .inr hcall
  · omega
  · have hshort := hreply reply _ hcall
    omega

/-- The line protocols hand over each complete line once, in order and without
its terminator, and leave what follows the last of them as it is; a control line
is taken alone. So the frames of a stream do not depend on how it is cut. Without
input there is nothing to frame, and the batch fails. -/
theorem lineProtocols_frame (frameHandler : FrameHandler σ) (capacity : Nat) (hcap : 0 < capacity) :
    (∀ msg s, msg ≠ [] → FitsFor frameHandler capacity (framesOf msg) s →
      Triple (kvsLineBatchProtocolInPlace frameHandler capacity msg) s
        (fun r s' =>
          (r.2 = none ∧ Reaches frameHandler capacity (EmptyOrFails frameHandler capacity s')
            (framesOf msg) [] s) ∨
          ∃ replies consumed, Calls frameHandler capacity (framesOf msg) [] s replies s' ∧
            msg = consumed ++ tailOf msg ∧ (consumed = [] ∨ consumed.getLast? = some lf) ∧
            lf ∉ tailOf msg ∧ (closedLines msg).length = consumed.length ∧
            r = (closedLines msg ++ tailOf msg, some (replies, consumed.length)))
        (fun e => Reaches frameHandler capacity (Stops frameHandler capacity e) (framesOf msg) [] s)) ∧
    (∀ s, kvsLineBatchProtocolInPlace frameHandler capacity [] s = .ok (([], none), s)) ∧
    (∀ line rest s, lf ∉ line → FitsFor frameHandler capacity [stripCr line] s →
      Triple (kvsReplicationControlLineProtocol frameHandler capacity (line ++ lf :: rest)) s
        (fun r s' =>
          (r.2 = none ∧ (∃ line', line'.length = line.length + 1 ∧ r.1 = line' ++ rest) ∧
            EmptyOrFails frameHandler capacity s' (stripCr line) [] s) ∨
          ∃ reply, Calls frameHandler capacity [stripCr line] [] s reply s' ∧
            r = (terminated line ++ rest, some (reply, line.length + 1)))
        (fun e => Stops frameHandler capacity e (stripCr line) [] s)) ∧
    (∀ msg, lf ∉ msg →
      kvsReplicationControlLineProtocol frameHandler capacity msg = pure (msg, some ([], 0))) ∧
    (RepliesFit frameHandler → ∀ protocol, (protocol = kvsLineBatchProtocolInPlace ∨
        protocol = kvsReplicationControlLineProtocol) →
      ∀ (pieces : List Bytes) s, (∀ piece ∈ pieces, piece ≠ []) → [] ∉ framesOf pieces.flatten →
      Triple (feedLines (protocol (recording frameHandler) capacity) pieces []) (s, [])
        (fun r state =>
          (r = some (tailOf pieces.flatten) ∧ state.2 = framesOf pieces.flatten) ∨
          (r = none ∧ StoppedAt frameHandler (framesOf pieces.flatten) [] state.2))
        (HandlerStops frameHandler)) := by
  refine ⟨?_, fun s => rfl, ?_, fun msg h => kvsReplicationControlLineProtocol_clean h, ?_⟩
  · intro msg s hmsg hfits
    refine (kvsLineBatchProtocolInPlace_spec hmsg hcap).weaken ?_
    rintro r s' (⟨replies, rfl, hcalls⟩ | ⟨hnone, -, hreaches⟩)
    · obtain ⟨consumed, hsplit, hlength, hlast⟩ := stream_cut msg
      exact .inr ⟨replies, consumed, hcalls, hsplit, hlast, lf_notMem_tailOf msg, hlength.symm,
        by rw [hlength]⟩
    · exact .inl ⟨hnone, hreaches.emptyOrFails hfits⟩
  · intro line rest s hline hfits
    refine (kvsReplicationControlLineProtocol_line hline hcap).weaken ?_
    rintro r s' (⟨reply, rfl, hcalls⟩ | ⟨hnone, hrest, hrefused⟩)
    · exact .inr ⟨reply, hcalls, rfl⟩
    · exact .inl ⟨hnone, hrest, ((Reaches.here hrefused).emptyOrFails hfits).single⟩
  · intro hfits protocol hprotocol pieces s hpieces hempty
    have hdelivers : Delivers frameHandler (protocol (recording frameHandler) capacity) := by
      obtain rfl | rfl := hprotocol
      · exact kvsLineBatchProtocolInPlace_delivers hfits hcap
      · exact kvsReplicationControlLineProtocol_delivers hfits hcap
    simpa using @feedLines_spec _ _ _ (s, []) hdelivers pieces [] hpieces List.not_mem_nil hempty

def quiet : FrameHandler Unit := fun _ _ _ => pure (some [])

theorem quiet_fits : RepliesFit quiet := by
  intro frame frameLength room s reply s' hroom h
  cases h
  exact hroom

/-- No input holds no line, so nothing is empty or refused; still the batch fails. -/
theorem kvsLineBatchProtocol_noInput :
    kvsLineBatchProtocolInPlace quiet 64 [] () = .ok (([], none), ()) ∧
      FitsFor quiet 64 (framesOf []) () ∧
      ¬Reaches quiet 64 (EmptyOrFails quiet 64 ()) (framesOf []) [] () := by
  refine ⟨rfl, ?_, ?_⟩
  · intro done frame rest replies s₁ hframes
    simp [framesOf] at hframes
  · rintro ⟨done, frame, rest, replies, s₁, hframes, -⟩
    simp [framesOf] at hframes

/-- Two lines, cut inside the terminator of the first. -/
theorem lineProtocols_frame_cut :
    ∃ state : Unit × List Bytes,
      feedLines (kvsReplicationControlLineProtocol (recording quiet) 64)
        [ascii "PO", ascii "NG\r", ascii "\nREADY\n*1"] [] ((), []) = .ok (some (ascii "*1"), state) ∧
      state.2 = [ascii "PONG", ascii "READY"] := by
  have hframes := (lineProtocols_frame quiet 64 (by decide)).2.2.2.2 quiet_fits _ (.inr rfl)
    [ascii "PO", ascii "NG\r", ascii "\nREADY\n*1"] () (by decide) (by decide)
  have hrun := hframes.mono (fun _ _ h => h) (E := Never) (by
    rintro e ⟨frame, frameLength, room, s, h⟩
    cases h)
  obtain ⟨r, state, hfeed, ⟨rfl, hnoted⟩ | ⟨-, done, frame, rest, -, -, room, s, s', hrefused⟩⟩ := hrun.run
  · exact ⟨state, hfeed, hnoted⟩
  · cases hrefused

end KvStore
