import KvStore.Server.Commands

/-!
# Serving a connection

`server_reader` of `src/network/ntyco.c` with `kvs_network_protocol` of
`src/kvstore.c`. A connection keeps what it received and did not handle yet and
the replies it did not send yet. Each piece that arrives runs a loop that hands
the input to the message handler until nothing more is consumed; replies wait
until they reach a threshold or the loop ends.
-/

namespace KvStore

open Lib

/-- What a message handler returns: the bytes it wrote behind the output, or
nothing on failure; the output buffer, which it may have moved; and the bytes
it took from the input. -/
structure Handled where
  reply : Option Bytes
  output : OutputBuffer
  consumed : Nat

/-- How a connection is served. The loop around a stream handler is given as a
whole: what it sent until it returned, or nothing when it closed the connection. -/
structure Protocol where
  handler : Bytes → OutputBuffer → Serve Handled
  stream : Option (Serve (Option Bytes))
  /-- Whether there is a `close_handler`. -/
  closeHandler : Bool

structure Connection where
  input : InputBuffer
  output : OutputBuffer
  protocol : Protocol
  /-- The protocol of a replica, as long as the first bytes did not decide. -/
  replication : Option Protocol
  /-- All bytes that were received. -/
  received : Bytes
  /-- All bytes that were sent. -/
  sent : Bytes

def Connection.new (protocol : Protocol) (replication : Option Protocol) : Connection :=
  ⟨.empty, .empty, protocol, replication, [], []⟩

def ntycoFlushOutput (c : Connection) : Connection :=
  if c.output.data.length = 0 then c
  else
    { c with
      output := { c.output with data := [], offset := 0 }
      sent := c.sent ++ c.output.data }

inductive Identified
  | wait
  | close
  | serve (c : Connection)

def identify (c : Connection) : Identified :=
  match c.replication with
  | none => .serve c
  | some replication =>
    match kvsIdentifyConnection c.input.data with
    | .needMore => .wait
    | .invalid => .close
    | .replica => .serve { c with protocol := replication, replication := none }
    | .client => .serve { c with replication := none }

def sendReplies (c : Connection) : Serve (Option Connection) := do
  match c.protocol.stream with
  | none =>
    if c.output.data.length = 0 then return some c
    else if ¬c.protocol.closeHandler ∧ c.output.data.length < ntycoReplyBatchThreshold then
      return some c
    else return some (ntycoFlushOutput c)
  | some stream =>
    let c := ntycoFlushOutput c
    match ← stream with
    | none => return none
    | some bytes => return some { c with sent := c.sent ++ bytes }

def acceptHandled (c : Connection) (handled : Handled) : Option (Connection × Nat) :=
  match handled.reply with
  | none => none
  | some reply =>
    if reply.length > handled.output.available then none
    else
      match kvsInputBufferConsume c.input handled.consumed with
      | none => none
      | some input =>
        let output := { handled.output with data := handled.output.data ++ reply }
        some ({ c with input, output }, handled.consumed)

def handleMessage (c : Connection) : Serve (Option (Connection × Nat)) := do
  match ← onRuntime (kvsOutputBufferEnsureSpace { c.output with offset := 0 } bufferLength) with
  | none => return none
  | some output => return acceptHandled c (← c.protocol.handler c.input.data output)

/-- The `do` loop over the received bytes; a round that consumes nothing is the
last. -/
def handleInput : Nat → Connection → Serve (Option Connection)
  | 0, _ => throw .fuel
  | rounds + 1, c => do
    match identify c with
    | .wait => return some c
    | .close => return none
    | .serve c =>
      match ← handleMessage c with
      | none => return none
      | some (c, consumed) =>
        match ← sendReplies c with
        | none => return none
        | some c =>
          if c.input.data.length > 0 ∧ consumed > 0 then handleInput rounds c else return some c

def receivePiece (piece : Bytes) (c : Connection) : Serve (Option Connection) := do
  let input := { c.input with data := c.input.data ++ piece }
  match ← handleInput (input.data.length + 1) { c with input, received := c.received ++ piece } with
  | none => return none
  | some c => return some (ntycoFlushOutput c)

/-- `server_reader` while the peer sends `wire`, with what had been received and
sent each time it went back to receive. `recv` returns at least one byte and no
more than there is room for; `cut` says how many it would return, for each
number of bytes still to come. -/
def serverReader (cut : Nat → Nat) :
    Nat → Bytes → Connection → Serve (List (Bytes × Bytes) × Option Connection)
  | rounds, wire, c => do
    match ← onRuntime (kvsInputBufferEnsureSpace c.input 1) with
    | none => return ([], none)
    | some input =>
      let c := { c with input }
      match rounds, wire with
      | _, [] => return ([(c.received, c.sent)], some c)
      | 0, _ :: _ => throw .fuel
      | rounds + 1, wire =>
        let size := min (max (cut wire.length) 1) input.available
        match ← receivePiece (wire.take size) c with
        | none => return ([(c.received, c.sent)], none)
        | some c' =>
          let (trace, last) ← serverReader cut rounds (wire.drop size) c'
          return ((c.received, c.sent) :: trace, last)

-- ---------------------------------------------------------------------------
-- The handler of a client
-- ---------------------------------------------------------------------------

def invalidRequest (msg : Bytes) (response : OutputBuffer) : Handled :=
  let reply := ascii "-ERR invalid or oversized request\r\n"
  if reply.length > response.available then ⟨none, response, 0⟩
  else ⟨some reply, response, msg.length⟩

def kvsNetworkProtocol (msg : Bytes) (response : OutputBuffer) : Serve Handled := do
  if response.storage.capacity = 0 ∨ response.data.length > response.storage.capacity then
    return ⟨none, response, 0⟩
  else if msg.length = 0 then return ⟨some [], response, 0⟩
  else
    match kvsParseCommandLimited kvsMaxTokens kvsMaxClientCommandBytes msg with
    | .error => return invalidRequest msg response
    | .more =>
      if msg.length ≥ kvsMaxClientCommandBytes then return invalidRequest msg response
      else return ⟨some [], response, 0⟩
    | .done (fields, parsedBytes) _ =>
      let executed ← kvsExecuteFields fields response .client
      match executed.reply with
      | none => return ⟨none, executed.output, 0⟩
      | some reply =>
        if reply.length > executed.output.available then return ⟨none, executed.output, 0⟩
        else return ⟨some reply, executed.output, parsedBytes⟩

def clientProtocol : Protocol := ⟨kvsNetworkProtocol, none, false⟩

end KvStore
