import DoipEndpoint.Server.State

/-!
# The functions of the TCP server endpoint

`tcp_server_endpoint_impl`, its `connection` (in `Connection`), and the
`send_cbk` of `server_endpoint_impl`, each under its own name.  Each function
is one step: the source runs it under its mutexes.
-/

namespace DoipEndpoint

namespace Server

/-! ## Sockets and operations -/

def issue (handler : Handler) (completion : Option Completion) (s : Server) : Server :=
  { s with operations := s.operations ++ [⟨handler, completion⟩] }

def update (c : ℕ) (k : Connection) (s : Server) : Server :=
  { s with connection := Function.update s.connection c k }

/-- `socket_.shutdown` and `socket_.close`, if the socket is open. -/
def closeSocket (c : ℕ) (s : Server) : Server :=
  if (s.connection c).isOpen then
    { s.update c { s.connection c with isOpen := false, incoming := [] } with
      operations := s.operations.map (Operation.abort fun h ↦ h.socket = some c) }
  else s

def removeConnection (c : ℕ) (s : Server) : Server :=
  match s.connections.toList.find? fun entry ↦ entry.2 = c with
  | none => s
  | some entry => { s with connections := s.connections.erase entry.1 }

namespace Connection

def stop (c : ℕ) (s : Server) : Server := s.closeSocket c

def stopAndRemoveConnection (c : ℕ) (s : Server) : Server :=
  (Connection.stop c s).removeConnection c

def handleRecvBufferException (c : ℕ) (s : Server) : Server :=
  let cleared := s.update c { s.connection c with recvBuffer := (s.connection c).recvBuffer.clear }
  (cleared.closeSocket c).removeConnection c

def receive (grows : Bool) (c : ℕ) (s : Server) : Server :=
  let k := s.connection c
  if k.isOpen then
    match k.recvBuffer.prepare k.recvBufferSizeInitial bufferShrinkThreshold k.shrinkCount grows
        k.recvBufferSize k.missingCapacity with
    | .exceedsMaximum => s
    | .threw => handleRecvBufferException c s
    | .region buffer length shrinkCount =>
        issue (.receiveCbk c k.recvBufferSize length) none
          (s.update c { k with
            recvBuffer := buffer, missingCapacity := 0, shrinkCount := shrinkCount })
  else s

def start (grows : Bool) (c : ℕ) (s : Server) : Server :=
  receive grows c (s.update c { s.connection c with
    history := { (s.connection c).history with attached := true } })

def setRemoteInfo (remote : Endpoint) (k : Connection) : Connection :=
  { k with remote := remote }

/-- An `async_write` on a closed socket completes at once. -/
def sendData (c : ℕ) (message : List UInt8) (s : Server) : Server :=
  issue (.sendCbk c message)
    (if (s.connection c).isOpen then none else some ⟨.badDescriptor, 0⟩)
    { s with isSending := true }

/-- The effect that remains when the write ends. -/
def writeCompletionCondition (error : ErrorCode) (c : ℕ) (s : Server) : Server :=
  if error ≠ .success then stopAndRemoveConnection c s else s

/-- Only prints the bytes that `receiveCbkReads` returns. -/
def receiveCbk (removes : Bool) (error : ErrorCode) (c : ℕ) (s : Server) : Server :=
  if error = .operationAborted then s
  else if error = .eof ∨ error = .connectionReset ∨ error = .timedOut then
    if removes then stopAndRemoveConnection c s else s
  else s

def receiveCbkReads (bytes : ℕ) (k : Connection) : List UInt8 :=
  k.recvBuffer.bytes.take (bytes + k.recvBufferSize)

end Connection

/-! ## The endpoint -/

def start (s : Server) : Server :=
  if s.acceptorOpen then
    { issue (.acceptCbk s.created) none (s.update s.created .create) with
      created := s.created + 1
      acceptsIssued := s.acceptsIssued + 1 }
  else s

/-- `acceptor_.close`, of an open acceptor. -/
def closeAcceptor (s : Server) : Server :=
  if s.acceptorOpen then
    { s with
      acceptorOpen := false
      operations := s.operations.map (Operation.abort Handler.isAccept) }
  else s

def stop (s : Server) : Server :=
  let closed := s.closeAcceptor
  { closed.connections.toList.foldl (fun s entry ↦ Connection.stop entry.2 s) closed with
    connections := ∅ }

/-- The part of `accept_cbk` for an accepted connection.  Each call overwrites
`its_error`, so that the last one decides. -/
def accepted (os : Os) (c : ℕ) (s : Server) : Server :=
  let k := s.connection c
  let answers := if k.isOpen then os else os.onClosed
  let remote := if answers.remoteEndpointResult = .success then answers.remoteEndpoint
    else .unspecified
  let informed := s.update c { k.setRemoteInfo remote with accepted := some answers }
  if answers.keepAliveResult = .success then
    Connection.start os.grows c
      { informed with connections := informed.connections.insert remote c }
  else informed

def acceptCbk (os : Os) (error : ErrorCode) (c : ℕ) (s : Server) : Server :=
  let s := if error = .success then s.accepted os c else s
  if error ≠ .badDescriptor ∧ error ≠ .operationAborted ∧ error ≠ .noDescriptors then s.start
  else if error = .noDescriptors then s.issue .retry none
  else s

/-- The handler of the timer that `accept_cbk` starts. -/
def retry (error : ErrorCode) (s : Server) : Server :=
  if error = .success then s.start else s

/-- `server_endpoint_impl::send_cbk`, which reports its error only. -/
def sendCbk (_error : ErrorCode) (s : Server) : Server := { s with isSending := false }

end Server

end DoipEndpoint
