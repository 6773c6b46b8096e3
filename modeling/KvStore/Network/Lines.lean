import KvStore.Server.Commands

/-!
# Lines

`kvs_line_batch_protocol` of `src/network/buffer.c`: the complete lines of an
input, one after another, each handed to a handler that answers it.
-/

namespace KvStore

/-- The loop of `kvs_find_line_end` from position `i` on. -/
def findLineEnd (i : Nat) (previous : Option UInt8) : Bytes → Option (Nat × Nat)
  | [] => none
  | b :: rest =>
    if b ≠ lf then findLineEnd (i + 1) (some b) rest
    else if previous = some cr then some (i - 1, 2)
    else some (i, 1)

/-- `kvs_find_line_end`: where the line ends, and the length of its delimiter. -/
def kvsFindLineEnd (msg : Bytes) : Option (Nat × Nat) := findLineEnd 0 none msg

/-- The loop of `kvs_line_batch_protocol`: the responses so far and the bytes
consumed so far. A line is not empty, so the length of the input bounds the
rounds. -/
def lineBatch (handler : Bytes → Nat → Serve (Option Bytes)) (responseCapacity : Nat) :
    Nat → Bytes → Bytes → Nat → Serve (Option (Bytes × Nat))
  | 0, _, response, consumed => return some (response, consumed)
  | rounds + 1, msg, response, consumed => do
    match kvsFindLineEnd msg with
    | none => return some (response, consumed)
    | some (frameEnd, delimiterLength) =>
      if frameEnd = 0 then return none
      else if response.length ≥ responseCapacity then return none
      else
        match ← handler (msg.take frameEnd) (responseCapacity - response.length) with
        | none => return none
        | some reply =>
          if reply.length > responseCapacity - response.length then return none
          else
            lineBatch handler responseCapacity rounds (msg.drop (frameEnd + delimiterLength))
              (response ++ reply) (consumed + frameEnd + delimiterLength)

/-- `kvs_line_batch_protocol`: the responses and the number of bytes consumed. -/
def kvsLineBatchProtocol (handler : Bytes → Nat → Serve (Option Bytes)) (msg : Bytes)
    (responseCapacity : Nat) : Serve (Option (Bytes × Nat)) :=
  if msg.length = 0 ∨ responseCapacity = 0 then return none
  else lineBatch handler responseCapacity msg.length msg [] 0

end KvStore
