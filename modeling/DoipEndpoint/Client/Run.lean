import DoipEndpoint.Client.Functions
import DoipEndpoint.Runs

/-!
# Runs of a client endpoint

The application calls the public functions, the peer sends, the operating
system completes pending operations with any error code, and the event loop
runs queued completion handlers, all in any order.
-/

namespace DoipEndpoint

namespace Client

inductive Action where
  | start (os : Os)
  | stop
  | setConnected (connected : Bool)
  | setEstablished (established : Bool)
  | sendData (message : List UInt8)
  | sendCbk3 (error : ErrorCode)
  | peerSends (bytes : List UInt8)
  | datagram (sender : Endpoint) (payload : List UInt8)
  | complete (i : ℕ) (c : Completion)
  | handle (i : ℕ) (os : Os)
  deriving DecidableEq, Repr

def queued (s : Client) (i : ℕ) : Option (Operation × Completion) :=
  match s.operations[i]? with
  | none => none
  | some o =>
      match o.completion with
      | none => none
      | some c => some (o, c)

/-! ## The operating system -/

/-- What a completion does beyond queueing the handler.  A TCP receive takes
some of the bytes that have arrived, a UDP receive the first datagram, whose
sender it stores in `remote_`. -/
def finish (p : Protocol) (o : Operation) (c : Completion) (s : Client) : Option Client :=
  match o.handler with
  | .connectCbk target =>
      if c.error = .success then some { s with socket := { s.socket with peer := target } }
      else some s
  | .sendCbk _ => some s
  | .receiveCbk offset length =>
      if c.error = .success then
        match p with
        | .tcp =>
            if 0 < c.bytes ∧ c.bytes ≤ length ∧ c.bytes ≤ s.socket.incoming.length then
              some { s with
                recvBuffer := s.recvBuffer.store offset (s.socket.incoming.take c.bytes)
                socket := { s.socket with incoming := s.socket.incoming.drop c.bytes } }
            else none
        | .udp =>
            match s.socket.datagrams with
            | [] => none
            | d :: rest =>
                if c.bytes = min d.payload.length length then
                  some { s with remote := d.sender, socket := { s.socket with datagrams := rest } }
                else none
      else
        some { s with socket := { s.socket with
          history := { s.socket.history with receiveFailed := true } } }

def complete (p : Protocol) (i : ℕ) (c : Completion) (s : Client) : Option Client :=
  match s.operations[i]? with
  | none => none
  | some o =>
      if o.completion = none ∧ o.handle = s.socket.handle ∧ s.socket.isOpen = true then
        finish p o c
          { s with operations := s.operations.set i { o with completion := some c } }
      else none

def peerSends (bytes : List UInt8) (s : Client) : Option Client :=
  if s.socket.isOpen = true ∧ s.socket.peer.isSome then
    some { s with socket := { s.socket with
      incoming := s.socket.incoming ++ bytes
      history := { s.socket.history with
        peerSent := s.socket.history.peerSent ++ bytes } } }
  else none

/-- A datagram reaches a bound UDP socket: from any sender before the connect
has succeeded, from the connected peer afterwards. -/
def datagram (sender : Endpoint) (payload : List UInt8) (s : Client) : Option Client :=
  if s.socket.isOpen = true ∧ s.socket.bound.isSome ∧
      (s.socket.peer = none ∨ s.socket.peer = some sender) then
    some { s with socket := { s.socket with
      datagrams := s.socket.datagrams ++ [⟨sender, payload, s.socket.peer.isSome⟩] } }
  else none

/-! ## The event loop -/

/-- Record in the history of the current handle that its handler is run. -/
def record (o : Operation) (c : Completion) (s : Client) : Client :=
  if o.handle = s.socket.handle ∧ c.error = .success then
    match o.handler with
    | .connectCbk _ => { s with socket := { s.socket with
        history := { s.socket.history with attached := true } } }
    | .sendCbk _ => s
    | .receiveCbk offset _ => { s with socket := { s.socket with
        history := { s.socket.history with
          handed := s.socket.history.handed ++ Tcp.receiveCbkReads c.bytes offset s
          receiveCbks := s.socket.history.receiveCbks + 1 } } }
  else s

def dispatch (p : Protocol) (os : Os) (o : Operation) (c : Completion) (s : Client) : Client :=
  match o.handler with
  | .connectCbk _ => connectCbk p os c.error s
  | .sendCbk _ => sendCbk p os c.error s
  | .receiveCbk _ _ => receiveCbk p c.error s

def handle (p : Protocol) (i : ℕ) (os : Os) (s : Client) : Option Client :=
  match s.queued i with
  | none => none
  | some (o, c) =>
      some (dispatch p os o c (record o c { s with operations := s.operations.eraseIdx i }))

def step (p : Protocol) (s : Client) : Action → Option Client
  | .start os => some (s.start p os)
  | .stop => some s.stop
  | .setConnected connected => some (s.setConnected connected)
  | .setEstablished established => some (s.setEstablished established)
  | .sendData message => some (s.sendData p message)
  | .sendCbk3 error => if p = .tcp then some (Tcp.sendCbk3 error s) else none
  | .peerSends bytes => if p = .tcp then s.peerSends bytes else none
  | .datagram sender payload => if p = .udp then s.datagram sender payload else none
  | .complete i c => s.complete p i c
  | .handle i os => s.handle p i os

/-- The client endpoint constructed from `local_` and `remote_`. -/
def system (p : Protocol) (local' remote : Endpoint) : TransitionSystem Client Action where
  initial s := ∃ isSending, s = constructed local' remote isSending
  step := step p

/-! ## A concrete pair of endpoints -/

def tester : Endpoint := ⟨.v4 0xc0a80001#32, 0⟩

def vehicle : Endpoint := ⟨.v4 0xc0a80002#32, 13400⟩

theorem reachable_of_tester_run {p : Protocol} {allowed : Client → Action → Prop}
    [∀ s a, Decidable (allowed s a)] {as : List Action} {s : Client}
    (h : (system p tester vehicle).run allowed as (constructed tester vehicle false) = some s) :
    (system p tester vehicle).Reachable allowed s :=
  TransitionSystem.reachable_of_run ⟨false, rfl⟩ h

end Client

end DoipEndpoint
