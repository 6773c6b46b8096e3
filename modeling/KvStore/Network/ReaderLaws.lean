import KvStore.Network.Reader
import KvStore.Server.Effects

/-!
# Pieces of a stream of commands

However the bytes of a client's commands are cut into pieces, the reader runs
each command once and in order and sends the replies in order. At every return
to `recv` the input holds a proper prefix of the next command and no reply
waits.
-/

namespace KvStore

open Lib

-- ---------------------------------------------------------------------------
-- Commands run one after another
-- ---------------------------------------------------------------------------

/-- The commands ran in this order, each of them once. -/
inductive Server.Ran : Server → Maps → List (List Bytes) → Server → Prop
  | nil : s.rt.Extends rt' → Ran s M [] { s with rt := rt' }
  | cons : s.Took M .client fields s₁ → Ran s₁ (M.answer s.persistenceMode fields).1 rest s' →
    Ran s M (fields :: rest) s'

variable {s s' : Server} {M : Maps} {fields : List Bytes} {w : Bytes}

theorem Server.Ran.earlier (h : Server.Ran { s with rt := rt₁ } M commands s')
    (hext : s.rt.Extends rt₁) : s.Ran M commands s' := by
  cases h with
  | nil hext' => exact .nil (hext.trans hext')
  | cons htook hrest => exact .cons (htook.earlier hext) hrest

theorem Server.Ran.mode (h : Server.Ran s M commands s') : s'.persistenceMode = s.persistenceMode := by
  induction h with
  | nil => rfl
  | cons htook _ ih => rw [ih, htook.sameConfig.mode]

theorem Server.Ran.append (h : Server.Ran s M commands s₁)
    (h' : s₁.Ran (M.answers s.persistenceMode commands).1 rest s') : s.Ran M (commands ++ rest) s' := by
  induction h with
  | nil hext => exact h'.earlier hext
  | cons htook _ ih =>
    rw [htook.sameConfig.mode] at ih
    exact .cons htook (ih h')

theorem Server.Ran.logBreaks (h : Server.Ran s M commands s') (hs' : s'.LogBreaks) : s.LogBreaks := by
  induction h with
  | nil => exact hs'
  | cons htook _ ih => exact htook.logBreaks (ih hs')

theorem Server.Ran.logTooShort (h : Server.Ran s M commands s') (hs' : s'.LogTooShort rest) :
    s.LogTooShort (commands ++ rest) := by
  induction h with
  | nil => exact hs'
  | cons htook _ ih => exact htook.logTooShort (ih hs')

theorem Server.Serving.later (h : s.Serving M) (hext : s.rt.Extends rt') :
    Server.Serving { s with rt := rt' } M :=
  ⟨h.holds.later hext.mallocs, fun hcan => h.memory (hext.canFail hcan), h.sized, h.role, h.log⟩

-- ---------------------------------------------------------------------------
-- Requests
-- ---------------------------------------------------------------------------

/-- A command a client may send, in one of its forms on the wire. -/
structure Request (w : Bytes) (fields : List Bytes) : Prop where
  wire : CommandWire w fields
  nonempty : 1 ≤ fields.length
  count : fields.length ≤ kvsMaxTokens
  size : w.length ≤ kvsMaxClientCommandBytes

namespace Request

theorem command (h : Request w fields) (hkey : HashKeyInRange fields) : ClientCommand fields :=
  ⟨h.nonempty, h.count, Nat.le_trans (length_encodeFields_le h.wire) h.size, hkey⟩

theorem head (h : Request w fields) : ∃ v, w = asterisk :: v := by
  obtain ⟨l, v, rfl, -⟩ := h.wire
  exact ⟨l ++ v, rfl⟩

end Request

/-- Why a request ended the process: the log could not take it, or its key has no
bucket. -/
def Server.Ends (s : Server) (M : Maps) (fields : List Bytes) (e : Stop) : Prop :=
  s.Exits M fields e ∨ e = .undefined ∧ ¬HashKeyInRange fields

variable {output : OutputBuffer}

structure Connection.Sane (c : Connection) : Prop where
  protocol : c.protocol = clientProtocol
  input : c.input.data.length ≤ c.input.storage.capacity
  inputCapacity : c.input.storage.capacity ≤ intMax
  output : c.output.data.length ≤ c.output.storage.capacity
  outputCapacity : c.output.storage.capacity ≤ intMax
  pending : c.output.data.length < ntycoReplyBatchThreshold

def Connection.replies (c : Connection) : Bytes := c.sent ++ c.output.data

variable {c : Connection}

def wireOf (requests : List (Bytes × List Bytes)) : Bytes := requests.flatMap (·.1)

def commandsOf (requests : List (Bytes × List Bytes)) : List (List Bytes) := requests.map (·.2)

variable {requests : List (Bytes × List Bytes)} {future : Bytes}

/-- A connection that goes back to receive: the input is the start of `rest`,
and `future` is still to come. -/
structure Connection.Waiting (c : Connection) (mode : PersistenceMode) (M : Maps)
    (answered rest : List (Bytes × List Bytes)) (future : Bytes) : Prop where
  sane : c.Sane
  flushed : c.output.data = []
  received : c.received = wireOf answered ++ c.input.data
  sent : c.sent = ((M.answers mode (commandsOf answered)).2).flatten
  input : c.input.data ++ future = wireOf rest
  short : ∀ r ∈ rest.head?, c.input.data.length < r.1.length

theorem Connection.Waiting.finished (h : Connection.Waiting c mode M answered rest []) : rest = [] := by
  cases rest with
  | nil => rfl
  | cons r rest =>
    have hshort := h.short r rfl
    have hinput := congrArg List.length h.input
    simp only [wireOf, List.flatMap_cons, List.append_nil, List.length_append] at hinput
    omega

theorem Connection.Waiting.input_length (h : Connection.Waiting c mode M answered rest future)
    (hrequests : ∀ r ∈ rest, Request r.1 r.2) : c.input.data.length ≤ kvsMaxClientCommandBytes := by
  cases rest with
  | nil => simp [(List.append_eq_nil_iff.mp h.input).1]
  | cons r rest =>
    have hshort := h.short r rfl
    have hsize := (hrequests r (by simp)).size
    omega

theorem Connection.Waiting.makeRoom {R : List (Bytes × Bytes) × Option Connection → Server → Prop}
    {D : Stop → Prop} (h : Connection.Waiting c mode M answered rest wire) (hmemory : ¬s.rt.CanFail)
    (hrequests : ∀ r ∈ rest, Request r.1 r.2)
    {f : Option InputBuffer → Serve (List (Bytes × Bytes) × Option Connection)}
    (hf : ∀ rt₁ input, s.rt.Extends rt₁ → c.input.data.length < input.storage.capacity →
      input.data = c.input.data →
      Connection.Waiting { c with input } mode M answered rest wire →
      Triple (f (some input)) { s with rt := rt₁ } R D) :
    Triple (onRuntime (kvsInputBufferEnsureSpace c.input 1) >>= f) s R D := by
  have hlen := h.input_length hrequests
  have hmax : kvsMaxClientCommandBytes < intMax := by decide
  refine onRuntime_bind (kvsInputBufferEnsureSpace_spec hmemory h.sane.input h.sane.inputCapacity
    Nat.one_pos (by omega)) fun r rt₁ h₁ => ?_
  obtain ⟨hext, storage, rfl, hroom, hcap⟩ := h₁
  have hsane : Connection.Sane { c with input := { c.input with storage } } :=
    ⟨h.sane.protocol, Nat.le_of_lt hroom, hcap, h.sane.output, h.sane.outputCapacity, h.sane.pending⟩
  exact hf rt₁ _ hext hroom rfl ⟨hsane, h.flushed, h.received, h.sent, h.input, h.short⟩

end KvStore
