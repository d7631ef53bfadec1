import DoipEndpoint.Client.Run
import DoipEndpoint.Threads

/-!
# The mutexes of the client endpoints

The functions of `DoipEndpoint.Client.Functions` as they run on several threads, with
the mutexes that the source locks.  `connect_timer_mutex_` and `mutex_` guard nothing
that the model keeps: the scopes that lock them are there for the order of the mutexes.
-/

namespace DoipEndpoint

namespace Client

inductive Mutex where
  | mutex
  | socketMutex
  | sentMutex
  | connectTimerMutex
  deriving DecidableEq, Repr

def Mutex.rank : Mutex → ℕ
  | .mutex => 0
  | .socketMutex => 1
  | .sentMutex => 2
  | .connectTimerMutex => 3

namespace Locked

open Program

abbrev Steps := Program Mutex Client Unit

/-- `connect_timer_.cancel`. -/
def cancelConnectTimer : Steps := guarded .connectTimerMutex skip

def shutdownAndCloseSocket (recreateSocket : Bool) : Steps :=
  guarded .socketMutex (simply (Client.shutdownAndCloseSocket recreateSocket))

/-! ## Connecting -/

def connect (p : Protocol) (os : Os) : Steps :=
  guarded .socketMutex (simply (Client.connect p os))

def start (p : Protocol) (os : Os) : Steps := connect p os

def stop : Steps := cancelConnectTimer.andThen (shutdownAndCloseSocket false)

/-! ## The state flag -/

def setState (state : CeiState) (s : Client) : Client := { s with state }

/-- `state_` is read before `socket_mutex_` is locked. -/
def setEstablished (established : Bool) : Steps :=
  if established then
    choose fun s ↦
      if s.state ≠ .connecting then
        guarded .socketMutex
          (simply fun s ↦ setState (if s.socket.isOpen then .established else .closed) s)
      else skip
  else simply (setState .closed)

def setConnected (connected : Bool) : Steps :=
  if connected then
    guarded .socketMutex
      (simply fun s ↦ setState (if s.socket.isOpen then .connected else .closed) s)
  else simply (setState .closed)

/-! ## Receiving -/

def prepared (grows : Bool) (recvBufferSize missingCapacity : ℕ) (s : Client) :
    MessageBuffer.Prepared :=
  s.recvBuffer.prepare recvBufferSizeInitial bufferShrinkThreshold s.shrinkCount grows
    recvBufferSize missingCapacity

/-- The growth of `recv_buffer_` throws. -/
def Tcp.throws (grows : Bool) (recvBufferSize missingCapacity : ℕ) (s : Client) : Bool :=
  s.socket.isOpen && match prepared grows recvBufferSize missingCapacity s with
    | .threw => true
    | _ => false

/-- The three-argument `receive` up to the timer of `handle_recv_buffer_exception`. -/
def Tcp.receiveUnlocked (grows : Bool) (recvBufferSize missingCapacity : ℕ) (s : Client) :
    Client :=
  if s.socket.isOpen then
    match prepared grows recvBufferSize missingCapacity s with
    | .exceedsMaximum => s
    | .threw => { s with recvBuffer := s.recvBuffer.clear }
    | .region buffer length shrinkCount =>
        asyncReceive recvBufferSize length
          { s with recvBuffer := buffer, shrinkCount := shrinkCount }
  else s

def Tcp.receiveInto (grows : Bool) (recvBufferSize missingCapacity : ℕ) : Steps :=
  guarded .socketMutex (.act (Tcp.receiveUnlocked grows recvBufferSize missingCapacity) fun s ↦
    if Tcp.throws grows recvBufferSize missingCapacity s then
      cancelConnectTimer.andThen (simply closeSocket)
    else skip)

/-- `recv_buffer_` is read under `socket_mutex_`, which is then locked again. -/
def Tcp.receive (grows : Bool) : Steps :=
  (guarded .socketMutex skip).andThen (Tcp.receiveInto grows 0 0)

def Udp.receive : Steps := guarded .socketMutex (simply Client.Udp.receive)

def receive : Protocol → Bool → Steps
  | .tcp => Tcp.receive
  | .udp => fun _ ↦ Udp.receive

def setLocalPort (os : Os) : Steps := guarded .socketMutex (simply (Client.setLocalPort os))

/-! ## Sending -/

def setIsSending (isSending : Bool) (s : Client) : Client := { s with isSending }

def Tcp.sendData (message : List UInt8) : Steps :=
  guarded .socketMutex (choose fun s ↦
    if s.socket.isOpen then
      (guarded .sentMutex (simply (setIsSending true))).andThen
        (simply (issue (.sendCbk message) none))
    else skip)

def Udp.sendData (message : List UInt8) : Steps :=
  guarded .socketMutex (simply (Client.Udp.sendData message))

def sendData : Protocol → List UInt8 → Steps
  | .tcp => Tcp.sendData
  | .udp => Udp.sendData

def send (p : Protocol) (message : List UInt8) : Steps := guarded .mutex (sendData p message)

/-! ## Completion handlers -/

def setWasNotConnected (wasNotConnected : Bool) (s : Client) : Client :=
  { s with wasNotConnected }

def connectCbk (p : Protocol) (os : Os) (error : ErrorCode) : Steps :=
  choose fun s ↦
    if error = .operationAborted ∨ s.sendingBlocked = true then shutdownAndCloseSocket false
    else
      cancelConnectTimer.andThen ((setLocalPort os).andThen
        ((simply (setWasNotConnected false)).andThen (receive p os.grows)))

/-- The end of `send_cbk` after an error that calls for a new connection. -/
def reconnect (p : Protocol) (os : Os) : Steps :=
  (simply (setWasNotConnected true)).andThen
    ((shutdownAndCloseSocket true).andThen (connect p os))

def sendCbk (p : Protocol) (os : Os) (error : ErrorCode) : Steps :=
  if error = .brokenPipe then
    (simply (setState .closed)).andThen ((guarded .mutex skip).andThen (reconnect p os))
  else if error = .notConnected ∨ error = .badDescriptor ∨ error = .noPermission then
    (simply (setState .closed)).andThen
      ((if error = .noPermission then guarded .mutex skip else skip).andThen (reconnect p os))
  else if error = .operationAborted then
    (simply fun s ↦ { s with sendingBlocked := true }).andThen (shutdownAndCloseSocket false)
  else if error = .destinationAddressRequired then simply (setWasNotConnected true)
  else skip

def Tcp.sendCbk3 (error : ErrorCode) : Steps :=
  (guarded .sentMutex (simply (setIsSending false))).andThen
    (if error = .destinationAddressRequired then simply (setWasNotConnected true)
    else if error = .operationAborted then shutdownAndCloseSocket false
    else choose fun s ↦
      if s.state = .connecting then skip
      else (simply (setState .connecting)).andThen (shutdownAndCloseSocket false))

def Udp.receiveCbk (error : ErrorCode) : Steps :=
  if error = .operationAborted then skip
  else if error = .success then Udp.receive
  else if error = .connectionRefused then shutdownAndCloseSocket false
  else Udp.receive

def receiveCbk : Protocol → ErrorCode → Steps
  | .tcp => fun _ ↦ skip
  | .udp => Udp.receiveCbk

def dispatch (p : Protocol) (os : Os) (o : Operation) (c : Completion) : Steps :=
  match o.handler with
  | .connectCbk _ => connectCbk p os c.error
  | .sendCbk _ => sendCbk p os c.error
  | .receiveCbk _ _ => receiveCbk p c.error

/-- Take the `i`th handler off the queue. -/
def pop (i : ℕ) (s : Client) : Client :=
  match s.queued i with
  | none => s
  | some (o, c) => record o c { s with operations := s.operations.eraseIdx i }

def handle (p : Protocol) (i : ℕ) (os : Os) : Steps :=
  .act (pop i) fun s ↦
    match s.queued i with
    | none => skip
    | some (o, c) => dispatch p os o c

end Locked

/-- What a thread can call; `waitUntilSent` locks `sent_mutex_` and does nothing that this
model keeps. -/
inductive Call where
  | start (os : Os)
  | stop
  | setConnected (connected : Bool)
  | setEstablished (established : Bool)
  | send (message : List UInt8)
  | sendCbk3 (error : ErrorCode)
  | receive (grows : Bool) (recvBufferSize missingCapacity : ℕ)
  | waitUntilSent
  | handle (i : ℕ) (os : Os)
  deriving DecidableEq, Repr

inductive Event where
  | peerSends (bytes : List UInt8)
  | datagram (sender : Endpoint) (payload : List UInt8)
  | complete (i : ℕ) (c : Completion)
  deriving DecidableEq, Repr

namespace Call

def code (p : Protocol) : Call → Program Mutex Client Unit
  | .start os => Locked.start p os
  | .stop => Locked.stop
  | .setConnected connected => Locked.setConnected connected
  | .setEstablished established => Locked.setEstablished established
  | .send message => Locked.send p message
  | .sendCbk3 error => Locked.Tcp.sendCbk3 error
  | .receive grows recvBufferSize missingCapacity =>
      Locked.Tcp.receiveInto grows recvBufferSize missingCapacity
  | .waitUntilSent => Program.guarded .sentMutex Program.skip
  | .handle i os => Locked.handle p i os

/-- The call as one step. -/
def effect (p : Protocol) : Call → Client → Client
  | .start os, s => s.start p os
  | .stop, s => s.stop
  | .setConnected connected, s => s.setConnected connected
  | .setEstablished established, s => s.setEstablished established
  | .send message, s => s.sendData p message
  | .sendCbk3 error, s => Tcp.sendCbk3 error s
  | .receive grows recvBufferSize missingCapacity, s =>
      Tcp.receiveInto grows recvBufferSize missingCapacity s
  | .waitUntilSent, s => s
  | .handle i os, s => (s.handle p i os).getD s

end Call

def event (p : Protocol) (s : Client) : Event → Option Client
  | .peerSends bytes => if p = .tcp then s.peerSends bytes else none
  | .datagram sender payload => if p = .udp then s.datagram sender payload else none
  | .complete i c => s.complete p i c

def machine (p : Protocol) (local' remote : Endpoint) : Machine Mutex Client Unit Call Event where
  initial s := ∃ isSending, s = constructed local' remote isSending
  code := Call.code p
  event := event p

/-! ## What the calls do alone -/

namespace Locked

open Program

@[simp] theorem finish_shutdownAndCloseSocket (recreateSocket : Bool) (s : Client) :
    (shutdownAndCloseSocket recreateSocket).finish s =
      s.shutdownAndCloseSocket recreateSocket := rfl

@[simp] theorem finish_connect (p : Protocol) (os : Os) (s : Client) :
    (connect p os).finish s = s.connect p os := rfl

theorem finish_setEstablished (established : Bool) (s : Client) :
    (setEstablished established).finish s = s.setEstablished established := by
  cases established with
  | false => rfl
  | true =>
      simp only [setEstablished, ↓reduceIte, finish_choose, Client.setEstablished]
      split
      · simp only [finish_guarded, finish_simply, setState]
        split <;> rfl
      · rfl

theorem finish_setConnected (connected : Bool) (s : Client) :
    (setConnected connected).finish s = s.setConnected connected := by
  cases connected with
  | false => rfl
  | true =>
      simp only [setConnected, ↓reduceIte, finish_guarded, finish_simply, setState,
        Client.setConnected]
      split <;> rfl

@[simp] theorem finish_receiveInto (grows : Bool) (recvBufferSize missingCapacity : ℕ)
    (s : Client) : (Tcp.receiveInto grows recvBufferSize missingCapacity).finish s =
      Client.Tcp.receiveInto grows recvBufferSize missingCapacity s := by
  simp only [Tcp.receiveInto, finish_guarded, finish_act, Tcp.receiveUnlocked, Tcp.throws,
    Client.Tcp.receiveInto, Client.handleRecvBufferException]
  by_cases hopen : s.socket.isOpen = true
  · rw [if_pos hopen, if_pos hopen]
    change Program.finish (if (_ && _) = true then _ else _) _ =
      (match prepared grows recvBufferSize missingCapacity s with
        | .exceedsMaximum => s
        | .threw => _
        | .region buffer length shrinkCount => _)
    cases prepared grows recvBufferSize missingCapacity s <;>
      simp [hopen, cancelConnectTimer]
  · rw [if_neg hopen, if_neg hopen]
    simp [hopen]

@[simp] theorem finish_receive (p : Protocol) (grows : Bool) (s : Client) :
    (receive p grows).finish s = s.receive p grows := by
  cases p with
  | tcp => exact finish_receiveInto grows 0 0 s
  | udp => rfl

@[simp] theorem finish_sendData (p : Protocol) (message : List UInt8) (s : Client) :
    (sendData p message).finish s = s.sendData p message := by
  cases p with
  | tcp =>
      simp only [sendData, Tcp.sendData, finish_guarded, finish_choose, Client.sendData,
        Client.Tcp.sendData]
      split <;> rfl
  | udp => rfl

@[simp] theorem finish_connectCbk (p : Protocol) (os : Os) (error : ErrorCode) (s : Client) :
    (connectCbk p os error).finish s = Client.connectCbk p os error s := by
  simp only [connectCbk, finish_choose, Client.connectCbk]
  split
  · rfl
  · simp only [cancelConnectTimer, setLocalPort, finish_andThen, finish_guarded, finish_skip,
      finish_simply, finish_receive]
    rfl

@[simp] theorem finish_sendCbk (p : Protocol) (os : Os) (error : ErrorCode) (s : Client) :
    (sendCbk p os error).finish s = Client.sendCbk p os error s := by
  unfold sendCbk Client.sendCbk
  split
  · rfl
  split
  · have hreport : (if error = .noPermission then guarded .mutex skip else skip :
        Steps).finish (setState .closed s) = setState .closed s := by
      split <;> rfl
    simp only [finish_andThen, finish_simply, hreport]
    rfl
  split
  · rfl
  split
  · rfl
  · rfl

@[simp] theorem finish_sendCbk3 (error : ErrorCode) (s : Client) :
    (Tcp.sendCbk3 error).finish s = Client.Tcp.sendCbk3 error s := by
  simp only [Tcp.sendCbk3, finish_andThen, finish_guarded, finish_simply, Client.Tcp.sendCbk3,
    setIsSending]
  split
  · rfl
  split
  · rfl
  · simp only [finish_choose]
    split <;> rfl

@[simp] theorem finish_receiveCbk (p : Protocol) (error : ErrorCode) (s : Client) :
    (receiveCbk p error).finish s = s.receiveCbk p error := by
  cases p with
  | tcp => rfl
  | udp =>
      simp only [receiveCbk, Udp.receiveCbk, Client.receiveCbk, Client.Udp.receiveCbk]
      split
      · rfl
      split
      · rfl
      split
      · rfl
      · rfl

@[simp] theorem finish_dispatch (p : Protocol) (os : Os) (o : Operation) (c : Completion)
    (s : Client) : (dispatch p os o c).finish s = s.dispatch p os o c := by
  cases hhandler : o.handler with
  | connectCbk target =>
      simp only [dispatch, Client.dispatch, hhandler]
      exact finish_connectCbk p os c.error s
  | sendCbk message =>
      simp only [dispatch, Client.dispatch, hhandler]
      exact finish_sendCbk p os c.error s
  | receiveCbk offset length =>
      simp only [dispatch, Client.dispatch, hhandler]
      exact finish_receiveCbk p c.error s

end Locked

/-- Where no other thread interferes, a call does what its function does in one step. -/
theorem finish_code (p : Protocol) (k : Call) (s : Client) :
    (k.code p).finish s = k.effect p s := by
  cases k with
  | start os => rfl
  | stop => rfl
  | setConnected connected => exact Locked.finish_setConnected connected s
  | setEstablished established => exact Locked.finish_setEstablished established s
  | send message =>
      exact (Program.finish_guarded _ _ s).trans (Locked.finish_sendData p message s)
  | sendCbk3 error => exact Locked.finish_sendCbk3 error s
  | receive grows recvBufferSize missingCapacity =>
      exact Locked.finish_receiveInto grows recvBufferSize missingCapacity s
  | waitUntilSent => rfl
  | handle i os =>
      simp only [Call.code, Locked.handle, Program.finish_act, Locked.pop, Call.effect, handle]
      cases s.queued i with
      | none => rfl
      | some o => exact Locked.finish_dispatch p os o.1 o.2 _

/-! ## The order of the mutexes -/

namespace Locked

open Program

/-- The client takes its mutexes in order from every state. -/
abbrev Ordered (held : List Mutex) (p : Steps) : Prop :=
  Bracketed Mutex.rank (fun _ ↦ True) held p

theorem ordered_simply {held : List Mutex} (f : Client → Client) : Ordered held (simply f) :=
  Bracketed.simply fun _ _ ↦ trivial

theorem ordered_cancelConnectTimer {held : List Mutex} (hheld : ∀ k ∈ held, k.rank < 3) :
    Ordered held cancelConnectTimer :=
  Bracketed.guarded hheld Bracketed.skip

theorem ordered_shutdownAndCloseSocket (recreateSocket : Bool) :
    Ordered [] (shutdownAndCloseSocket recreateSocket) :=
  Bracketed.guarded (by simp) (ordered_simply _)

theorem ordered_connect (p : Protocol) (os : Os) : Ordered [] (connect p os) :=
  Bracketed.guarded (by simp) (ordered_simply _)

theorem ordered_setEstablished (established : Bool) : Ordered [] (setEstablished established) := by
  unfold setEstablished
  split
  · refine Bracketed.choose fun s _ ↦ ?_
    split
    · exact Bracketed.guarded (by simp) (ordered_simply _)
    · exact Bracketed.skip
  · exact ordered_simply _

theorem ordered_setConnected (connected : Bool) : Ordered [] (setConnected connected) := by
  unfold setConnected
  split
  · exact Bracketed.guarded (by simp) (ordered_simply _)
  · exact ordered_simply _

theorem ordered_receiveInto (grows : Bool) (recvBufferSize missingCapacity : ℕ) :
    Ordered [] (Tcp.receiveInto grows recvBufferSize missingCapacity) := by
  refine Bracketed.guarded (by simp) (Bracketed.act (fun _ _ ↦ trivial) fun s _ ↦ ?_)
  split
  · exact (ordered_cancelConnectTimer (by simp [Mutex.rank])).andThen (ordered_simply _)
  · exact Bracketed.skip

theorem ordered_receive (p : Protocol) (grows : Bool) : Ordered [] (receive p grows) := by
  cases p with
  | tcp =>
      exact (Bracketed.guarded (by simp) Bracketed.skip).andThen (ordered_receiveInto grows 0 0)
  | udp => exact Bracketed.guarded (by simp) (ordered_simply _)

theorem ordered_send (p : Protocol) (message : List UInt8) : Ordered [] (send p message) := by
  refine Bracketed.guarded (by simp) ?_
  cases p with
  | tcp =>
      refine Bracketed.guarded (by simp [Mutex.rank]) (Bracketed.choose fun s _ ↦ ?_)
      split
      · exact (Bracketed.guarded (by simp [Mutex.rank]) (ordered_simply _)).andThen
          (ordered_simply _)
      · exact Bracketed.skip
  | udp => exact Bracketed.guarded (by simp [Mutex.rank]) (ordered_simply _)

theorem ordered_connectCbk (p : Protocol) (os : Os) (error : ErrorCode) :
    Ordered [] (connectCbk p os error) := by
  refine Bracketed.choose fun s _ ↦ ?_
  split
  · exact ordered_shutdownAndCloseSocket false
  · refine (ordered_cancelConnectTimer (by simp)).andThen (Bracketed.andThen ?_ ?_)
    · exact Bracketed.guarded (by simp) (ordered_simply _)
    · exact (ordered_simply _).andThen (ordered_receive p os.grows)

theorem ordered_reconnect (p : Protocol) (os : Os) : Ordered [] (reconnect p os) :=
  (ordered_simply _).andThen
    ((ordered_shutdownAndCloseSocket true).andThen (ordered_connect p os))

theorem ordered_sendCbk (p : Protocol) (os : Os) (error : ErrorCode) :
    Ordered [] (sendCbk p os error) := by
  have hreport : Ordered [] (guarded .mutex skip) := Bracketed.guarded (by simp) Bracketed.skip
  unfold sendCbk
  split
  · exact (ordered_simply _).andThen (hreport.andThen (ordered_reconnect p os))
  split
  · refine (ordered_simply _).andThen (Bracketed.andThen ?_ (ordered_reconnect p os))
    split
    · exact hreport
    · exact Bracketed.skip
  split
  · exact (ordered_simply _).andThen (ordered_shutdownAndCloseSocket false)
  split
  · exact ordered_simply _
  · exact Bracketed.skip

theorem ordered_sendCbk3 (error : ErrorCode) : Ordered [] (Tcp.sendCbk3 error) := by
  refine (Bracketed.guarded (by simp) (ordered_simply _)).andThen ?_
  split
  · exact ordered_simply _
  split
  · exact ordered_shutdownAndCloseSocket false
  · refine Bracketed.choose fun s _ ↦ ?_
    split
    · exact Bracketed.skip
    · exact (ordered_simply _).andThen (ordered_shutdownAndCloseSocket false)

theorem ordered_receiveCbk (p : Protocol) (error : ErrorCode) :
    Ordered [] (receiveCbk p error) := by
  cases p with
  | tcp => exact Bracketed.skip
  | udp =>
      simp only [receiveCbk, Udp.receiveCbk]
      split
      · exact Bracketed.skip
      split
      · exact ordered_receive .udp true
      split
      · exact ordered_shutdownAndCloseSocket false
      · exact ordered_receive .udp true

theorem ordered_handle (p : Protocol) (i : ℕ) (os : Os) : Ordered [] (handle p i os) := by
  refine Bracketed.act (fun _ _ ↦ trivial) fun s _ ↦ ?_
  cases s.queued i with
  | none => exact Bracketed.skip
  | some o =>
      change Ordered [] (dispatch p os o.1 o.2)
      unfold dispatch
      split
      · exact ordered_connectCbk p os o.2.error
      · exact ordered_sendCbk p os o.2.error
      · exact ordered_receiveCbk p o.2.error

end Locked

theorem ordered_code (p : Protocol) (k : Call) : Locked.Ordered [] (k.code p) := by
  cases k with
  | start os => exact Locked.ordered_connect p os
  | stop =>
      exact (Locked.ordered_cancelConnectTimer (by simp)).andThen
        (Locked.ordered_shutdownAndCloseSocket false)
  | setConnected connected => exact Locked.ordered_setConnected connected
  | setEstablished established => exact Locked.ordered_setEstablished established
  | send message => exact Locked.ordered_send p message
  | sendCbk3 error => exact Locked.ordered_sendCbk3 error
  | receive grows recvBufferSize missingCapacity =>
      exact Locked.ordered_receiveInto grows recvBufferSize missingCapacity
  | waitUntilSent => exact Program.Bracketed.guarded (by simp) Program.Bracketed.skip
  | handle i os => exact Locked.ordered_handle p i os

section Threads

open Threads TransitionSystem

variable {p : Protocol} {local' remote : Endpoint}

theorem disciplined_machine :
    Threads.Disciplined Mutex.rank (fun _ ↦ True) (machine p local' remote) where
  initial _ _ := trivial
  code := ordered_code p
  event _ _ _ _ _ := trivial

/-! ## The functions as single steps -/

variable {ι : Type*} [DecidableEq ι]

/-- A step of the endpoint is a call or an event; `send_data` is called by `send`. -/
theorem leads_of_step (t : ι) {s u : Client} {a : Action} (h : step p s a = some u) :
    (Threads.system (machine p local' remote) ι).Leads anyStep (idle s) (idle u) := by
  have hcall : ∀ k : Call, k.effect p s = u →
      (Threads.system (machine p local' remote) ι).Leads anyStep (idle s) (idle u) := by
    rintro k rfl
    rw [← finish_code]
    exact leads_call disciplined_machine trivial t k
  have hevent : ∀ e : Event, event p s e = some u →
      (Threads.system (machine p local' remote) ι).Leads anyStep (idle s) (idle u) :=
    fun e he ↦ leads_event he
  cases a with
  | start os => exact hcall (.start os) (Option.some.inj h)
  | stop => exact hcall .stop (Option.some.inj h)
  | setConnected connected => exact hcall (.setConnected connected) (Option.some.inj h)
  | setEstablished established => exact hcall (.setEstablished established) (Option.some.inj h)
  | sendData message => exact hcall (.send message) (Option.some.inj h)
  | sendCbk3 error =>
      simp only [step] at h
      split_ifs at h
      exact hcall (.sendCbk3 error) (Option.some.inj h)
  | peerSends bytes => exact hevent (.peerSends bytes) h
  | datagram sender payload => exact hevent (.datagram sender payload) h
  | complete i c => exact hevent (.complete i c) h
  | handle i os =>
      have heffect : s.handle p i os = some u := h
      exact hcall (.handle i os) (by rw [Call.effect, heffect, Option.getD_some])

/-- What the endpoint reaches with every function in one step, its threads reach. -/
theorem reachable_by_threads [Nonempty ι] {s : Client}
    (h : (system p local' remote).Reachable anyStep s) :
    (Threads.system (machine p local' remote) ι).Reachable anyStep (idle s) :=
  reachable_idle disciplined_machine (fun _ hs ↦ hs)
    (fun t _ _ _ _ hstep ↦ leads_of_step t hstep) h

end Threads

end Client

end DoipEndpoint
