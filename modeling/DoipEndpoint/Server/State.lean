import DoipEndpoint.Reading
import Std.Data.TreeMap.Lemmas

/-!
# The state of a TCP server endpoint

The members of `tcp_server_endpoint_impl` and of its `connection` that the
modelled functions read or write, with the operations in flight.  Connection
objects are numbered in the order of `connection::create`; shared pointers to
them are held by `connections_` and by the handlers of the operations.

An `async_write` is one operation here, completed once with the error code that
its handlers receive; its partial writes are the subject of
`DoipEndpoint.TcpSend`.
-/

namespace DoipEndpoint

namespace Server

/-- `FTDOIP_HEADER_SIZE`. -/
def headerSize : ℕ := 4

def bufferShrinkThreshold : ℕ := 1000

/-- The answers of the operating system to the calls one handler makes.
`grows` tells whether the receive buffer can be reallocated, and `removes`
whether `connection::wait_until_sent`, which has no body in the repository,
stops and removes the connection. -/
structure Os where
  remoteEndpointResult : ErrorCode
  remoteEndpoint : Endpoint
  noDelayResult : ErrorCode
  keepAliveResult : ErrorCode
  grows : Bool
  removes : Bool
  deriving DecidableEq, Repr

def Os.fine (remote : Endpoint) : Os := ⟨.success, remote, .success, .success, true, false⟩

/-- Every call on a socket that is not open fails. -/
def Os.onClosed (os : Os) : Os :=
  { os with
    remoteEndpointResult := .badDescriptor
    noDelayResult := .badDescriptor
    keepAliveResult := .badDescriptor }

/-- `tcp_server_endpoint_impl::connection` with the socket that it owns and the
bytes that wait in it. -/
structure Connection where
  isOpen : Bool
  incoming : List UInt8
  remote : Endpoint
  recvBufferSizeInitial : ℕ
  recvBuffer : MessageBuffer
  recvBufferSize : ℕ
  missingCapacity : ℕ
  shrinkCount : ℕ
  /-- The calls that `accept_cbk` made on the socket and their answers. -/
  accepted : Option Os
  history : History
  deriving DecidableEq, Repr

def Connection.create : Connection where
  isOpen := false
  incoming := []
  remote := .unspecified
  recvBufferSizeInitial := headerSize
  recvBuffer := .zeros headerSize
  recvBufferSize := 0
  missingCapacity := 0
  shrinkCount := 0
  accepted := none
  history := .fresh

inductive Handler where
  /-- `accept_cbk`, of an `async_accept` into the socket of a connection. -/
  | acceptCbk (connection : ℕ)
  /-- `connection::receive_cbk`, of a receive into `length` bytes from `offset` on. -/
  | receiveCbk (connection offset length : ℕ)
  /-- `write_completion_condition` and `send_cbk`. -/
  | sendCbk (connection : ℕ) (message : List UInt8)
  /-- The lambda that waits for `its_timer`. -/
  | retry
  deriving DecidableEq, Repr

namespace Handler

/-- The connection whose shared pointer the handler holds. -/
def connection : Handler → Option ℕ
  | .acceptCbk c => some c
  | .receiveCbk c _ _ => some c
  | .sendCbk c _ => some c
  | .retry => none

/-- The connection whose socket the operation was started on. -/
def socket : Handler → Option ℕ
  | .acceptCbk _ => none
  | .receiveCbk c _ _ => some c
  | .sendCbk c _ => some c
  | .retry => none

def isAccept : Handler → Bool
  | .acceptCbk _ => true
  | _ => false

def isReceive : Handler → Bool
  | .receiveCbk _ _ _ => true
  | _ => false

end Handler

/-- An operation whose handler has not been run; `completion` is `none` while
it is pending, and afterwards holds what the queued handler will be given. -/
structure Operation where
  handler : Handler
  completion : Option Completion
  deriving DecidableEq, Repr

def Operation.abort (affected : Handler → Bool) (o : Operation) : Operation :=
  if affected o.handler ∧ o.completion = none then
    { o with completion := some ⟨.operationAborted, 0⟩ }
  else o

@[simp] theorem Operation.abort_handler (affected : Handler → Bool) (o : Operation) :
    (o.abort affected).handler = o.handler := by
  unfold abort
  split <;> rfl

theorem Operation.abort_of_not {affected : Handler → Bool} {o : Operation}
    (h : affected o.handler = false) : o.abort affected = o := by
  simp [abort, h]

end Server

/-- A TCP server endpoint with its connections and its operations in flight;
`created` connection objects were created and `acceptsIssued` accepts issued so
far. -/
structure Server where
  acceptorOpen : Bool
  connections : Std.TreeMap Endpoint ℕ
  connection : ℕ → Server.Connection
  created : ℕ
  isSending : Bool
  operations : List Server.Operation
  acceptsIssued : ℕ

namespace Server

/-- The constructed endpoint; the constructor throws unless the acceptor was
opened, bound and put to listen. -/
def constructed : Server where
  acceptorOpen := true
  connections := ∅
  connection _ := .create
  created := 0
  isSending := false
  operations := []
  acceptsIssued := 0

/-- `connections_` holds a pointer to the connection. -/
def stored (s : Server) (c : ℕ) : Bool := s.connections.toList.any fun entry ↦ entry.2 = c

/-- The connection object is still alive. -/
def referenced (s : Server) (c : ℕ) : Bool :=
  s.stored c || s.operations.any fun o ↦ o.handler.connection = some c

theorem stored_iff {s : Server} {c : ℕ} :
    s.stored c = true ↔ ∃ key : Endpoint, s.connections[key]? = some c := by
  simp only [stored, List.any_eq_true, decide_eq_true_eq]
  constructor
  · rintro ⟨⟨key, c'⟩, hmem, rfl⟩
    exact ⟨key, Std.TreeMap.mem_toList_iff_getElem?_eq_some.mp hmem⟩
  · rintro ⟨key, hkey⟩
    exact ⟨(key, c), Std.TreeMap.mem_toList_iff_getElem?_eq_some.mpr hkey, rfl⟩

end Server

end DoipEndpoint
