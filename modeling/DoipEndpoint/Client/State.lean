import DoipEndpoint.Reading

/-!
# The state of a client endpoint

The members of `client_endpoint_impl` and of its TCP and UDP subclasses that
the modelled functions read or write, together with what the operating system
keeps for the socket and the operations that Asio still has to complete.

An `async_write` is one operation here, completed once with the error code
that its handler receives; its partial writes are the subject of
`DoipEndpoint.TcpSend`.  The connect timer is left out because nothing in the
repository starts it, and diagnostics are left out throughout.
-/

namespace DoipEndpoint

inductive Protocol where
  | tcp
  | udp
  deriving DecidableEq, Repr

namespace Client

/-- `cei_state_e`. -/
inductive CeiState where
  | closed
  | connecting
  | connected
  | established
  deriving DecidableEq, Repr

/-- A UDP datagram waiting in the socket; `filtered` tells whether it arrived
after the socket's connect had succeeded. -/
structure Datagram where
  sender : Endpoint
  payload : List UInt8
  filtered : Bool
  deriving DecidableEq, Repr

/-- The socket object that `socket_` points to.  `object` numbers the calls of
`new socket_type`; `handle` changes whenever the object is replaced or opened,
so it names one native handle.  `bound` is the port that `bind` gave it, `peer` the
target of the `async_connect` that completed without error; `incoming` and
`datagrams` have arrived and are not yet received. -/
structure Socket where
  object : ℕ
  handle : ℕ
  isOpen : Bool
  bound : Option UInt16
  peer : Option Endpoint
  incoming : List UInt8
  datagrams : List Datagram
  history : History
  deriving DecidableEq, Repr

namespace Socket

def closed (object handle : ℕ) : Socket :=
  ⟨object, handle, false, none, none, [], [], .fresh⟩

def opened (k : Socket) : Socket :=
  ⟨k.object, k.handle + 1, true, none, none, [], [], .fresh⟩

/-- `close`: the operating system forgets the port and the unread data. -/
def close (k : Socket) : Socket :=
  { k with isOpen := false, bound := none, incoming := [], datagrams := [] }

end Socket

inductive Handler where
  /-- `connect_cbk`, of an `async_connect` to `target`, or posted by `connect`
  itself when there is none. -/
  | connectCbk (target : Option Endpoint)
  | sendCbk (message : List UInt8)
  /-- `receive_cbk`, of a receive into `length` bytes from `offset` on. -/
  | receiveCbk (offset length : ℕ)
  deriving DecidableEq, Repr

/-- An operation whose handler has not been run; `completion` is `none` while
it is pending, and afterwards holds what the queued handler will be given. -/
structure Operation where
  handler : Handler
  object : ℕ
  handle : ℕ
  completion : Option Completion
  deriving DecidableEq, Repr

namespace Operation

def isConnect (o : Operation) : Bool :=
  match o.handler with
  | .connectCbk _ => true
  | _ => false

def isReceive (o : Operation) : Bool :=
  match o.handler with
  | .receiveCbk _ _ => true
  | _ => false

def abort (handle : ℕ) (o : Operation) : Operation :=
  if o.handle = handle ∧ o.completion = none then
    { o with completion := some ⟨.operationAborted, 0⟩ }
  else o

@[simp] theorem abort_handler (h : ℕ) (o : Operation) : (o.abort h).handler = o.handler := by
  unfold abort
  split <;> rfl

@[simp] theorem abort_object (h : ℕ) (o : Operation) : (o.abort h).object = o.object := by
  unfold abort
  split <;> rfl

@[simp] theorem abort_handle (h : ℕ) (o : Operation) : (o.abort h).handle = o.handle := by
  unfold abort
  split <;> rfl

@[simp] theorem abort_isConnect (h : ℕ) (o : Operation) :
    (o.abort h).isConnect = o.isConnect := by simp [isConnect]

@[simp] theorem abort_isReceive (h : ℕ) (o : Operation) :
    (o.abort h).isReceive = o.isReceive := by simp [isReceive]

theorem abort_completion_ne_none {h : ℕ} {o : Operation} (ho : o.handle = h) :
    (o.abort h).completion ≠ none := by
  by_cases hc : o.completion = none
  · simp [abort, ho, hc]
  · simp [abort, hc]

end Operation

end Client

/-- A client endpoint with its operations in flight.  `isSending`, `recvBuffer`
and `shrinkCount` belong to the TCP subclass; the last two members count the
`async_connect` and the receives that were ever issued. -/
structure Client where
  localEndpoint : Endpoint
  remote : Endpoint
  socket : Client.Socket
  state : Client.CeiState
  sendingBlocked : Bool
  wasNotConnected : Bool
  localPort : UInt16
  isSending : Bool
  recvBuffer : MessageBuffer
  shrinkCount : ℕ
  operations : List Client.Operation
  connectsIssued : ℕ
  receivesIssued : ℕ
  deriving DecidableEq, Repr

namespace Client

def recvBufferSizeInitial : ℕ := 4

def bufferShrinkThreshold : ℕ := 1000

/-- The constructed endpoint.  No constructor initialises `is_sending_`. -/
def constructed (local' remote : Endpoint) (isSending : Bool) : Client where
  localEndpoint := local'
  remote := remote
  socket := .closed 0 0
  state := .closed
  sendingBlocked := false
  wasNotConnected := false
  localPort := 0
  isSending := isSending
  recvBuffer := .zeros recvBufferSizeInitial
  shrinkCount := 0
  operations := []
  connectsIssued := 0
  receivesIssued := 0

/-- The answers of the operating system to the calls one function makes.
`bind` picks `ephemeralPort` when `local_` asks for port 0, and `grows` tells
whether the receive buffer can be reallocated. -/
structure Os where
  openResult : ErrorCode
  bindResult : ErrorCode
  ephemeralPort : UInt16
  localEndpointResult : ErrorCode
  grows : Bool
  deriving DecidableEq, Repr

def Os.fine : Os := ⟨.success, .success, 40000, .success, true⟩

end Client

end DoipEndpoint
