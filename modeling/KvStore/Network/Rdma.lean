import KvStore.Server.Globals

/-!
# RDMA connections

`src/network/rdma_transport.c`. A connection keeps at most one message under way
in each direction. What the RDMA libraries answer is given from outside, one
`RdmaAnswers` for each step of the server.
-/

namespace KvStore

/-- `rdma_cm_event_type`, as far as the code tells events apart. -/
inductive CmEventType
  | addrResolved
  | routeResolved
  | connectRequest
  | established
  | disconnected
  | timewaitExit
  | other
  deriving DecidableEq, Repr

/-- `struct rdma_cm_event`. The identifier is missing if it is `NULL` or that of
the listener itself. -/
structure CmEvent where
  event : CmEventType
  id : Option Nat
  /-- The request came to the listener that is polled. -/
  toListener : Bool
  /-- `status` is zero. -/
  ok : Bool
  deriving DecidableEq, Repr

/-- A completion that `ibv_poll_cq` returned. -/
inductive Completion
  | send
  | recv (data : Bytes)
  /-- One that failed, or that belongs to no request of the connection. -/
  | invalid
  deriving DecidableEq, Repr

/-- How far the resources of a connection could be given back. -/
inductive Teardown
  | done
  | queuePairKept
  | partly
  deriving DecidableEq, Repr

/-- What the libraries and the system answer during one step. -/
structure RdmaAnswers where
  /-- The deadline for connecting has passed. -/
  expired : Bool
  /-- `calloc` returns memory for the owner of an event. -/
  ownerMemory : Bool
  /-- `malloc` returns memory for a chunk. -/
  chunkMemory : Bool
  /-- The next CM event: a failure, nothing, or one event. -/
  cmEvent : Option (Option CmEvent)
  /-- `rdma_ack_cm_event` succeeds. -/
  acked : Bool
  /-- Queue pair, buffers and the first receive are there. -/
  prepared : Bool
  /-- `rdma_resolve_route`, `rdma_connect` or `rdma_accept` succeeds. -/
  submitted : Bool
  /-- `rdma_reject` succeeds. -/
  rejected : Bool
  teardown : Teardown
  postedSend : Bool
  postedRecv : Bool
  /-- `rdma_disconnect` succeeds. -/
  disconnected : Bool
  /-- The next completion: a failure, nothing, or one completion. -/
  completion : Option (Option Completion)
  deriving DecidableEq, Repr

/-- `KVS_REPLICATION_RDMA_BUFFER_CAPACITY`. -/
def rdmaBufferCapacity : Nat := 1024 * 1024

/-- An object of `calloc`. -/
def RdmaConnection.blank : RdmaConnection := ⟨none, false, false, false, false, false, []⟩

def RdmaConnection.prepare (c : RdmaConnection) (env : RdmaAnswers) : Option RdmaConnection :=
  if c.prepared ∨ ¬env.prepared then none
  else some { c with prepared := true, recvPending := true }

def RdmaConnection.send (c : RdmaConnection) (env : RdmaAnswers) (data : Bytes) :
    Option RdmaConnection :=
  if ¬c.prepared ∨ data.length = 0 ∨ data.length > rdmaBufferCapacity ∨ c.sendPending ∨
      ¬env.postedSend then none
  else some { c with sendPending := true, sent := c.sent ++ [data] }

def RdmaConnection.receiveNext (c : RdmaConnection) (env : RdmaAnswers) : Option RdmaConnection :=
  if ¬c.prepared ∨ c.recvPending ∨ ¬env.postedRecv then none
  else some { c with recvPending := true }

/-- `kvs_rdma_connection_poll_completion`: a failure, nothing, or a completion
that was waited for. -/
def RdmaConnection.pollCompletion (c : RdmaConnection) (env : RdmaAnswers) :
    Option (Option (Completion × RdmaConnection)) :=
  if ¬c.prepared then none
  else
    match env.completion with
    | none => none
    | some none => some none
    | some (some .send) =>
      if ¬c.sendPending then none else some (some (.send, { c with sendPending := false }))
    | some (some (.recv data)) =>
      if ¬c.recvPending ∨ data.length > rdmaBufferCapacity then none
      else some (some (.recv data, { c with recvPending := false }))
    | some (some .invalid) => none

section
variable {c : RdmaConnection} {env : RdmaAnswers} {data : Bytes}

theorem RdmaConnection.pollCompletion_fails (hcompletion : env.completion = none) :
    c.pollCompletion env = none := by
  unfold pollCompletion
  rw [hcompletion]
  exact ite_self _

theorem RdmaConnection.pollCompletion_nothing (hprepared : c.prepared = true)
    (hcompletion : env.completion = some none) : c.pollCompletion env = some none := by
  unfold pollCompletion
  rw [if_neg (not_not.mpr hprepared), hcompletion]

theorem RdmaConnection.pollCompletion_send (hprepared : c.prepared = true) (hpending : c.sendPending = true)
    (hcompletion : env.completion = some (some .send)) :
    c.pollCompletion env = some (some (.send, { c with sendPending := false })) := by
  unfold pollCompletion
  rw [if_neg (not_not.mpr hprepared), hcompletion]
  exact if_neg (not_not.mpr hpending)

theorem RdmaConnection.pollCompletion_recv (hprepared : c.prepared = true) (hposted : c.recvPending = true)
    (hlength : data.length ≤ rdmaBufferCapacity) (hcompletion : env.completion = some (some (.recv data))) :
    c.pollCompletion env = some (some (.recv data, { c with recvPending := false })) := by
  unfold pollCompletion
  rw [if_neg (not_not.mpr hprepared), hcompletion]
  exact if_neg (not_or.mpr ⟨not_not.mpr hposted, Nat.not_lt.mpr hlength⟩)

end

/-- `kvs_rdma_connection_disconnect`: whether it could be submitted. -/
def RdmaConnection.disconnect (c : RdmaConnection) (env : RdmaAnswers) : Bool :=
  c.prepared && env.disconnected

/-- `kvs_rdma_connection_close`: whether it is closed, and what is left of it
otherwise. -/
def RdmaConnection.close (c : RdmaConnection) (env : RdmaAnswers) : Option RdmaConnection :=
  if c.pendingCmEvent ∧ ¬env.acked then some c
  else
    let c := { c with pendingCmEvent := false }
    if c.cmId = none then none
    else
      match env.teardown with
      | .done => none
      | .queuePairKept => some c
      | .partly => some { c with prepared := false, sendPending := false, recvPending := false }

inductive RdmaEventType
  | accepting
  | established
  | disconnected
  deriving DecidableEq, Repr

/-- `kvs_rdma_handle_connection_event`: a failure, nothing to tell, or an event
for the caller, with the connection after it. Only a side that connects by
itself resolves addresses. -/
def RdmaConnection.handleEvent (c : RdmaConnection) (env : RdmaAnswers) (connecting : Bool)
    (event : CmEvent) : Option (Option RdmaEventType) × RdmaConnection :=
  if ¬event.ok then (none, c)
  else
    match event.event with
    | .addrResolved => (if connecting ∧ env.submitted then some none else none, c)
    | .routeResolved =>
      if ¬connecting then (none, c)
      else
        match c.prepare env with
        | none => (none, c)
        | some c => (if env.submitted then some none else none, c)
    | .established => (some (some .established), { c with deadline := false })
    | .disconnected => (some (some .disconnected), c)
    | .timewaitExit => (some none, c)
    | .connectRequest | .other => (none, c)

def RdmaConnection.pollEvent (c : RdmaConnection) (env : RdmaAnswers) :
    Option (Option RdmaEventType) × RdmaConnection :=
  if c.cmId = none ∨ c.pendingCmEvent ∨ c.deadline ∧ env.expired then (none, c)
  else
    match env.cmEvent with
    | none => (none, c)
    | some none => (some none, c)
    | some (some event) =>
      let (result, c) := if event.id ≠ c.cmId then (none, c) else c.handleEvent env true event
      if env.acked then (result, c) else (none, { c with pendingCmEvent := true })

/-- What `kvs_rdma_listener_poll` leaves: the result, the connection of the
listener, and a connection of its own that could not be closed. -/
structure ListenerPoll where
  result : Option (Option RdmaEventType)
  connection : Option RdmaConnection
  leftover : Option RdmaConnection
  deriving DecidableEq, Repr

/-- The end of `kvs_rdma_listener_poll` for an event that has an owner of its
own: it is acknowledged and the owner closed. -/
def separateOwner (env : RdmaAnswers) (result : Option (Option RdmaEventType))
    (connection : Option RdmaConnection) (owner : RdmaConnection) : ListenerPoll :=
  if ¬env.acked then ⟨none, connection, some { owner with pendingCmEvent := true }⟩
  else
    match owner.close env with
    | none => ⟨result, connection, none⟩
    | some owner => ⟨none, connection, some owner⟩

def ownEvent (env : RdmaAnswers) (result : Option (Option RdmaEventType)) (c : RdmaConnection) :
    ListenerPoll :=
  if env.acked then ⟨result, some c, none⟩
  else ⟨none, some { c with pendingCmEvent := true }, none⟩

/-- `kvs_rdma_handle_connect_request`, on the new connection. -/
def RdmaConnection.connectRequest (c : RdmaConnection) (env : RdmaAnswers) (event : CmEvent) :
    Option (Option RdmaEventType) × RdmaConnection :=
  if ¬event.toListener ∨ ¬event.ok then (none, c)
  else
    match c.prepare env with
    | none => (none, c)
    | some c => (if env.submitted then some (some .accepting) else none, c)

def kvsRdmaListenerPoll (env : RdmaAnswers) (connection : Option RdmaConnection) : ListenerPoll :=
  if (connection.any (·.pendingCmEvent)) ∨ ¬env.ownerMemory then ⟨none, connection, none⟩
  else
    match env.cmEvent with
    | none => ⟨none, connection, none⟩
    | some none => ⟨some none, connection, none⟩
    | some (some event) =>
      if event.event = .connectRequest ∧ event.id.isSome then
        let owner := { RdmaConnection.blank with cmId := event.id }
        match connection with
        | none =>
          let (result, owner) := owner.connectRequest env event
          ownEvent env result owner
        | some _ => separateOwner env (if env.rejected then some none else none) connection owner
      else
        match connection with
        | some c =>
          if event.event ≠ .connectRequest ∧ event.id = c.cmId then
            let (result, c) := c.handleEvent env false event
            ownEvent env result c
          else separateOwner env none connection RdmaConnection.blank
        | none => separateOwner env none none RdmaConnection.blank

end KvStore
