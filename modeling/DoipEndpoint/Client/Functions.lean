import DoipEndpoint.Client.State

/-!
# The functions of the client endpoints

`client_endpoint_impl` with the overrides of `tcp_client_endpoint_impl` (in
`Tcp`) and `udp_client_endpoint_impl` (in `Udp`), each under its own name.  A
virtual call takes the protocol as an argument.
Each function is one step: the source runs it under its mutexes.
-/

namespace DoipEndpoint

namespace Client

/-! ## Sockets and operations -/

namespace Socket

/-- `socket_->open(remote_.protocol(), ec)`. -/
def openWith (os : Os) (k : Socket) : Socket × ErrorCode :=
  if k.isOpen then (k, .alreadyOpen)
  else if os.openResult = .success then (k.opened, .success)
  else (k, os.openResult)

/-- `socket_->bind(local_, ec)`; a socket can be bound only once. -/
def bindWith (os : Os) (local' : Endpoint) (k : Socket) : Socket × ErrorCode :=
  if k.isOpen = false then (k, .badDescriptor)
  else if k.bound.isSome then (k, .invalidArgument)
  else if os.bindResult = .success then
    ({ k with bound := some (if local'.port = 0 then os.ephemeralPort else local'.port) },
      .success)
  else (k, os.bindResult)

end Socket

def issue (handler : Handler) (completion : Option Completion) (s : Client) : Client :=
  { s with operations := s.operations ++
      [⟨handler, s.socket.object, s.socket.handle, completion⟩] }

def asyncConnect (s : Client) : Client :=
  { s.issue (.connectCbk (some s.remote)) none with connectsIssued := s.connectsIssued + 1 }

/-- `strand_.post` of a `connect_cbk` with an error. -/
def postConnectCbk (error : ErrorCode) (s : Client) : Client :=
  s.issue (.connectCbk none) (some ⟨error, 0⟩)

def asyncReceive (offset length : ℕ) (s : Client) : Client :=
  { s.issue (.receiveCbk offset length) none with receivesIssued := s.receivesIssued + 1 }

/-- `socket_->shutdown` and `socket_->close`, of an open socket. -/
def closeSocket (s : Client) : Client :=
  if s.socket.isOpen then
    { s with
      socket := s.socket.close
      operations := s.operations.map (Operation.abort s.socket.handle) }
  else s

/-- `socket_.reset(new socket_type(service_))`. -/
def resetSocket (s : Client) : Client :=
  { s with socket := .closed (s.socket.object + 1) (s.socket.handle + 1) }

def shutdownAndCloseSocket (recreateSocket : Bool) (s : Client) : Client :=
  let closed := closeSocket { s with localPort := 0 }
  if recreateSocket then closed.resetSocket else closed

/-! ## Connecting -/

/-- The `connect` of both subclasses, without the socket options, whose
failures are only reported. -/
def connectSocket (os : Os) (s : Client) : Client :=
  let opened := s.socket.openWith os
  if opened.2 = .success ∨ opened.2 = .alreadyOpen then
    let bound := opened.1.bindWith os s.localEndpoint
    if bound.2 ≠ .success then
      -- don't connect on bind error to avoid using a random port
      postConnectCbk bound.2 { s with socket := bound.1 }
    else
      asyncConnect { s with socket := bound.1, state := .connecting }
  else
    postConnectCbk opened.2 { s with socket := opened.1 }

def Tcp.connect (os : Os) (s : Client) : Client := connectSocket os s

def Udp.connect (os : Os) (s : Client) : Client := connectSocket os s

def connect : Protocol → Os → Client → Client
  | .tcp => Tcp.connect
  | .udp => Udp.connect

def start (p : Protocol) (os : Os) (s : Client) : Client := s.connect p os

def stop (s : Client) : Client := s.shutdownAndCloseSocket false

def getLocalPort (s : Client) : UInt16 := s.localPort

/-! ## The state flag -/

def isEstablishedOrConnected (s : Client) : Bool :=
  s.state = .established || s.state = .connected

def setEstablished (established : Bool) (s : Client) : Client :=
  if established then
    if s.state ≠ .connecting then
      if s.socket.isOpen then { s with state := .established }
      else { s with state := .closed }
    else s
  else { s with state := .closed }

def setConnected (connected : Bool) (s : Client) : Client :=
  if connected then
    if s.socket.isOpen then { s with state := .connected }
    else { s with state := .closed }
  else { s with state := .closed }

/-! ## Receiving -/

def handleRecvBufferException (s : Client) : Client :=
  closeSocket { s with recvBuffer := s.recvBuffer.clear }

/-- The three-argument `tcp_client_endpoint_impl::receive`, whose buffer is
`recv_buffer_` in every call. -/
def Tcp.receiveInto (grows : Bool) (recvBufferSize missingCapacity : ℕ) (s : Client) : Client :=
  if s.socket.isOpen then
    match s.recvBuffer.prepare recvBufferSizeInitial bufferShrinkThreshold s.shrinkCount grows
        recvBufferSize missingCapacity with
    | .exceedsMaximum => s
    | .threw => s.handleRecvBufferException
    | .region buffer length shrinkCount =>
        asyncReceive recvBufferSize length
          { s with recvBuffer := buffer, shrinkCount := shrinkCount }
  else s

def Tcp.receive (grows : Bool) (s : Client) : Client := Tcp.receiveInto grows 0 0 s

/-- With a buffer of its own for each datagram, and `remote_` as the endpoint
that takes the sender. -/
def Udp.receive (s : Client) : Client :=
  if s.socket.isOpen then asyncReceive 0 1000 s else s

def receive : Protocol → Bool → Client → Client
  | .tcp => Tcp.receive
  | .udp => fun _ ↦ Udp.receive

def setLocalPort (os : Os) (s : Client) : Client :=
  if s.socket.isOpen then
    if os.localEndpointResult = .success then
      { s with localPort := s.socket.bound.getD 0 }
    else s
  else s

/-! ## Sending -/

def Tcp.sendData (message : List UInt8) (s : Client) : Client :=
  if s.socket.isOpen then issue (.sendCbk message) none { s with isSending := true } else s

/-- An `async_send` on a closed socket completes at once. -/
def Udp.sendData (message : List UInt8) (s : Client) : Client :=
  issue (.sendCbk message)
    (if s.socket.isOpen then none else some ⟨.badDescriptor, 0⟩) s

def sendData : Protocol → List UInt8 → Client → Client
  | .tcp => Tcp.sendData
  | .udp => Udp.sendData

/-! ## Completion handlers -/

def connectCbk (p : Protocol) (os : Os) (error : ErrorCode) (s : Client) : Client :=
  if error = .operationAborted ∨ s.sendingBlocked = true then
    -- endpoint was stopped
    s.shutdownAndCloseSocket false
  else
    receive p os.grows { setLocalPort os s with wasNotConnected := false }

/-- The two-argument `client_endpoint_impl::send_cbk`, the handler that both
`send_data` bind. -/
def sendCbk (p : Protocol) (os : Os) (error : ErrorCode) (s : Client) : Client :=
  if error = .brokenPipe then
    connect p os (shutdownAndCloseSocket true { s with state := .closed, wasNotConnected := true })
  else if error = .notConnected ∨ error = .badDescriptor ∨ error = .noPermission then
    connect p os (shutdownAndCloseSocket true { s with state := .closed, wasNotConnected := true })
  else if error = .operationAborted then
    -- endpoint was stopped
    shutdownAndCloseSocket false { s with sendingBlocked := true }
  else if error = .destinationAddressRequired then { s with wasNotConnected := true }
  else s

/-- The three-argument `tcp_client_endpoint_impl::send_cbk`, which no function
of the repository binds. -/
def Tcp.sendCbk3 (error : ErrorCode) (s : Client) : Client :=
  let s := { s with isSending := false }
  if error = .destinationAddressRequired then { s with wasNotConnected := true }
  else if error = .operationAborted then
    -- endpoint was stopped
    s.shutdownAndCloseSocket false
  else if s.state = .connecting then s
  else shutdownAndCloseSocket false { s with state := .connecting }

/-- Only prints the bytes that `Tcp.receiveCbkReads` returns. -/
def Tcp.receiveCbk (_error : ErrorCode) (s : Client) : Client := s

def Tcp.receiveCbkReads (bytes recvBufferSize : ℕ) (s : Client) : List UInt8 :=
  s.recvBuffer.bytes.take (bytes + recvBufferSize)

def Udp.receiveCbk (error : ErrorCode) (s : Client) : Client :=
  if error = .operationAborted then s
  else if error = .success then Udp.receive s
  else if error = .connectionRefused then s.shutdownAndCloseSocket false
  else Udp.receive s

def receiveCbk : Protocol → ErrorCode → Client → Client
  | .tcp => Tcp.receiveCbk
  | .udp => Udp.receiveCbk

end Client

end DoipEndpoint
