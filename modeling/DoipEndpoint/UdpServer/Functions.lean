import DoipEndpoint.Asio.Basic
import DoipEndpoint.Runs
import Mathlib.Algebra.Group.Nat.Defs

/-!
# The UDP server endpoint

The unicast socket of `udp_server_endpoint_impl` with its one buffer and its one
sender field, and the `async_receive_from` operations on it.  A handler is not one
step: the loop of `on_message_received` takes a step for each byte, so that `stop`
and the network may come between any two of them.
-/

namespace DoipEndpoint

namespace UdpServer

/-- `FT_DOIP_MAX_UDP_MESSAGE_SIZE`, and the length of the region that
`receive_unicast` passes on. -/
def maxUdpMessageSize : ℕ := 0xffffffff

/-- `unicast_recv_buffer_`, a vector whose size does not change. -/
structure RecvBuffer where
  size : ℕ
  element : ℕ → UInt8

namespace RecvBuffer

def zeros (n : ℕ) : RecvBuffer := ⟨n, fun _ ↦ 0⟩

/-- `_buffer[i]`; any index that is not below the size is undefined behaviour. -/
def index (i : ℕ) (b : RecvBuffer) : Option UInt8 :=
  if i < b.size then some (b.element i) else none

/-- What a completed receive does to the elements. -/
def store (data : List UInt8) (b : RecvBuffer) : RecvBuffer :=
  { b with element := fun i ↦ data.getD i (b.element i) }

@[simp] theorem size_store (data : List UInt8) (b : RecvBuffer) : (b.store data).size = b.size :=
  rfl

theorem index_store {data : List UInt8} {b : RecvBuffer} (hfits : data.length ≤ b.size) {i : ℕ}
    (hi : i < data.length) : (b.store data).index i = some data[i] := by
  have hsize : i < (b.store data).size := hi.trans_le hfits
  rw [index, if_pos hsize]
  simp [store, hi]

end RecvBuffer

structure Datagram where
  sender : Endpoint
  destination : Address
  payload : List UInt8
  deriving DecidableEq, Repr

structure Arguments where
  error : ErrorCode
  bytes : ℕ
  destination : Address
  deriving DecidableEq, Repr

def Arguments.aborted : Arguments := ⟨.operationAborted, 0, Endpoint.unspecified.address⟩

/-- A receive that has completed, with the datagram that it took off the socket.
If it failed, `datagram` is whatever it left in the buffer and in the sender field. -/
structure Received where
  error : ErrorCode
  datagram : Datagram
  deriving DecidableEq, Repr

def Received.arguments (r : Received) : Arguments :=
  ⟨r.error, r.datagram.payload.length, r.datagram.destination⟩

/-- A call of `on_message_received` that has returned: its arguments, of which
`remote` and the buffer were passed by reference, and the bytes that it printed. -/
structure Call where
  arguments : Arguments
  remote : Endpoint
  printed : List UInt8
  deriving DecidableEq, Repr

/-- The call that hands over exactly what was received. -/
def Received.call (r : Received) : Call :=
  ⟨r.arguments, r.datagram.sender, r.datagram.payload⟩

/-- An `async_receive_from` whose handler has not returned. -/
inductive Receive where
  | pending
  /-- It has completed, and its handler is queued. -/
  | queued (arguments : Arguments)
  /-- Its handler is in the loop of `on_message_received`. -/
  | reading (arguments : Arguments) (printed : List UInt8)
  /-- Its handler is about to call `receive_unicast`. -/
  | returned
  deriving DecidableEq, Repr

namespace Receive

def isOutstanding : Receive → Bool
  | .pending | .queued _ => true
  | .reading _ _ | .returned => false

/-- What `on_message_received` will be given or is being given. -/
def delivers : Receive → Option Arguments
  | .queued arguments => if arguments.error ≠ .operationAborted then some arguments else none
  | .reading arguments _ => some arguments
  | .pending | .returned => none

def abort : Receive → Receive
  | .pending => .queued .aborted
  | r => r

end Receive

end UdpServer

/-- A UDP server endpoint.  `arrived` waits in the socket; `armed` counts the
`async_receive_from` ever issued, and the last two members record the receives that
completed without `operation_aborted` and the calls of `on_message_received`. -/
structure UdpServer where
  isOpen : Bool
  unicastRemote : Endpoint
  unicastRecvBuffer : UdpServer.RecvBuffer
  arrived : List UdpServer.Datagram
  receives : List UdpServer.Receive
  armed : ℕ
  completed : List UdpServer.Received
  calls : List UdpServer.Call

namespace UdpServer

/-- The constructed endpoint; the constructor throws unless the socket was opened
and bound. -/
def constructed : UdpServer where
  isOpen := true
  unicastRemote := .unspecified
  unicastRecvBuffer := .zeros maxUdpMessageSize
  arrived := []
  receives := []
  armed := 0
  completed := []
  calls := []

/-! ## Functions -/

def receiveUnicast (s : UdpServer) : UdpServer :=
  if s.isOpen then { s with receives := s.receives ++ [.pending], armed := s.armed + 1 } else s

def receive (s : UdpServer) : UdpServer := s.receiveUnicast

def start (s : UdpServer) : UdpServer := s.receive

/-- Closing the socket drops what waits in it. -/
def stop (s : UdpServer) : UdpServer :=
  if s.isOpen then
    { s with isOpen := false, arrived := [], receives := s.receives.map Receive.abort }
  else s

/-- `on_unicast_received` up to the body of `on_message_received`. -/
def onUnicastReceived (i : ℕ) (arguments : Arguments) (s : UdpServer) : UdpServer :=
  if arguments.error ≠ .operationAborted then
    { s with receives := s.receives.set i (.reading arguments []) }
  else { s with receives := s.receives.eraseIdx i }

/-- The next comparison of the loop of `on_message_received`, with the iteration or
the return that follows it. -/
def onMessageReceived (i : ℕ) (arguments : Arguments) (printed : List UInt8) (s : UdpServer) :
    Option UdpServer :=
  if printed.length < arguments.bytes then
    match s.unicastRecvBuffer.index printed.length with
    | none => none
    | some byte =>
        some { s with receives := s.receives.set i (.reading arguments (printed ++ [byte])) }
  else
    some { s with
      receives := s.receives.set i .returned
      calls := s.calls ++ [⟨arguments, s.unicastRemote, printed⟩] }

/-! ## Steps -/

inductive Action where
  | start
  | stop
  | arrives (d : Datagram)
  | receives (i : ℕ)
  /-- A receive fails and may leave anything in the buffer and the sender field. -/
  | fails (i : ℕ) (error : ErrorCode) (left : Datagram)
  | handle (i : ℕ)
  deriving DecidableEq, Repr

/-- A receive on the open socket fills the buffer and the sender field, and completes. -/
def complete (i : ℕ) (r : Received) (s : UdpServer) : Option UdpServer :=
  if s.receives[i]? = some .pending ∧ s.isOpen = true ∧
      r.datagram.payload.length ≤ s.unicastRecvBuffer.size then
    some { s with
      unicastRemote := r.datagram.sender
      unicastRecvBuffer := s.unicastRecvBuffer.store r.datagram.payload
      receives := s.receives.set i (.queued r.arguments)
      completed := s.completed ++ [r] }
  else none

def step (s : UdpServer) : Action → Option UdpServer
  | .start => some s.start
  | .stop => some s.stop
  | .arrives d => if s.isOpen then some { s with arrived := s.arrived ++ [d] } else none
  | .receives i =>
      match s.arrived with
      | [] => none
      | d :: rest => complete i ⟨.success, d⟩ { s with arrived := rest }
  | .fails i error left =>
      if error ≠ .success ∧ error ≠ .operationAborted then s.complete i ⟨error, left⟩ else none
  | .handle i =>
      match s.receives[i]? with
      | some (.queued arguments) => some (s.onUnicastReceived i arguments)
      | some (.reading arguments printed) => s.onMessageReceived i arguments printed
      | some .returned => some (receiveUnicast { s with receives := s.receives.eraseIdx i })
      | some .pending | none => none

def system : TransitionSystem UdpServer Action where
  initial s := s = constructed
  step := step

end UdpServer

end DoipEndpoint
