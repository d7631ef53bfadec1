import DoipEndpoint.Server.Run
import DoipEndpoint.Threads

/-!
# The mutexes of the TCP server endpoint

The functions of `DoipEndpoint.Server.Functions` as they run on several threads: each
locks and unlocks the mutexes that the source locks, and what it does under them comes
in one act for each uninterrupted stretch.  A function with several critical sections
can be overtaken between them.
-/

namespace DoipEndpoint

namespace Server

inductive Mutex where
  | acceptorMutex
  | connectionsMutex
  /-- `socket_mutex_` of a connection. -/
  | socketMutex (connection : ℕ)
  | sentMutex
  | mutex
  deriving DecidableEq, Repr

def Mutex.rank : Mutex → ℕ
  | .acceptorMutex => 0
  | .connectionsMutex => 1
  | .socketMutex _ => 2
  | .sentMutex => 3
  | .mutex => 4

namespace Locked

open Program

abbrev Steps := Program Mutex Server Unit

def removeConnection (c : ℕ) : Steps :=
  guarded .connectionsMutex (simply (Server.removeConnection c))

namespace Connection

def stop (c : ℕ) : Steps := guarded (.socketMutex c) (simply (closeSocket c))

def stopAndRemoveConnection (c : ℕ) : Steps :=
  (guarded .connectionsMutex (stop c)).andThen (removeConnection c)

/-- What `receive` does about the buffer, with `missing_capacity_` and `shrink_count_`. -/
def prepared (grows : Bool) (k : Server.Connection) : MessageBuffer.Prepared :=
  k.recvBuffer.prepare k.recvBufferSizeInitial bufferShrinkThreshold k.shrinkCount grows
    k.recvBufferSize k.missingCapacity

/-- The growth of the receive buffer throws. -/
def throws (grows : Bool) (k : Server.Connection) : Bool :=
  k.isOpen && match prepared grows k with
    | .threw => true
    | _ => false

/-- `receive` under `socket_mutex_`, without the last call of
`handle_recv_buffer_exception`. -/
def receiveUnlocked (grows : Bool) (c : ℕ) (s : Server) : Server :=
  let k := s.connection c
  if k.isOpen then
    match prepared grows k with
    | .exceedsMaximum => s
    | .threw => closeSocket c (s.update c { k with recvBuffer := k.recvBuffer.clear })
    | .region buffer length shrinkCount =>
        issue (.receiveCbk c k.recvBufferSize length) none
          (s.update c { k with
            recvBuffer := buffer, missingCapacity := 0, shrinkCount := shrinkCount })
  else s

/-- After a throwing growth `remove_connection` is called with `socket_mutex_` held. -/
def receive (grows : Bool) (c : ℕ) : Steps :=
  guarded (.socketMutex c) (.act (receiveUnlocked grows c) fun s ↦
    if throws grows (s.connection c) then removeConnection c else skip)

def attach (c : ℕ) (s : Server) : Server :=
  s.update c { s.connection c with
    history := { (s.connection c).history with attached := true } }

def start (grows : Bool) (c : ℕ) : Steps := (simply (attach c)).andThen (receive grows c)

def asyncWrite (c : ℕ) (message : List UInt8) (s : Server) : Server :=
  issue (.sendCbk c message)
    (if (s.connection c).isOpen then none else some ⟨.badDescriptor, 0⟩) s

def setIsSending (isSending : Bool) (s : Server) : Server := { s with isSending }

def sendData (c : ℕ) (message : List UInt8) : Steps :=
  guarded (.socketMutex c)
    ((guarded .sentMutex (simply (setIsSending true))).andThen (simply (asyncWrite c message)))

def writeCompletionCondition (error : ErrorCode) (c : ℕ) : Steps :=
  if error ≠ .success then stopAndRemoveConnection c else skip

/-- A `timed_out` is reported under `socket_mutex_`, before `wait_until_sent`. -/
def receiveCbk (removes : Bool) (error : ErrorCode) (c : ℕ) : Steps :=
  if error = .operationAborted then skip
  else if error = .eof ∨ error = .connectionReset ∨ error = .timedOut then
    (if error = .timedOut then guarded (.socketMutex c) skip else skip).andThen
      (if removes then stopAndRemoveConnection c else skip)
  else skip

end Connection

/-! ## The endpoint -/

def createConnection (s : Server) : Server :=
  if s.acceptorOpen then { s.update s.created .create with created := s.created + 1 } else s

def asyncAccept (c : ℕ) (s : Server) : Server :=
  { issue (.acceptCbk c) none s with acceptsIssued := s.acceptsIssued + 1 }

def start : Steps :=
  guarded .acceptorMutex (.act createConnection fun s ↦
    if s.acceptorOpen then
      guarded (.socketMutex s.created) (simply (asyncAccept s.created))
    else skip)

def clearConnections (s : Server) : Server := { s with connections := ∅ }

def stop : Steps :=
  (guarded .acceptorMutex (simply closeAcceptor)).andThen
    (guarded .connectionsMutex
      ((choose fun s ↦ forEach s.connections.toList fun entry ↦ Connection.stop entry.2).andThen
        (simply clearConnections)))

def answers (os : Os) (k : Server.Connection) : Os := if k.isOpen then os else os.onClosed

def remote (os : Os) (k : Server.Connection) : Endpoint :=
  if (answers os k).remoteEndpointResult = .success then (answers os k).remoteEndpoint
  else .unspecified

def inform (os : Os) (c : ℕ) (s : Server) : Server :=
  let k := s.connection c
  s.update c { Server.Connection.setRemoteInfo (remote os k) k with
    accepted := some (answers os k) }

def store (remote : Endpoint) (c : ℕ) (s : Server) : Server :=
  { s with connections := s.connections.insert remote c }

/-- The accepted connection is informed under its own mutex and stored under another. -/
def accepted (os : Os) (c : ℕ) : Steps :=
  (guarded (.socketMutex c) (.act (inform os c) fun s ↦ .ret
    ((answers os (s.connection c)).keepAliveResult, remote os (s.connection c)))).bind
    fun result ↦
      if result.1 = .success then
        (guarded .connectionsMutex (simply (store result.2 c))).andThen
          (Connection.start os.grows c)
      else skip

def acceptCbk (os : Os) (error : ErrorCode) (c : ℕ) : Steps :=
  (if error = .success then accepted os c else skip).andThen
    (if error ≠ .badDescriptor ∧ error ≠ .operationAborted ∧ error ≠ .noDescriptors then start
    else if error = .noDescriptors then simply (issue .retry none)
    else skip)

def retry (error : ErrorCode) : Steps := if error = .success then start else skip

def sendCbk (_error : ErrorCode) : Steps :=
  (guarded .sentMutex (simply (Connection.setIsSending false))).andThen (guarded .mutex skip)

/-! ## Calls -/

def dispatch (os : Os) (handler : Handler) (r : Completion) : Steps :=
  match handler with
  | .acceptCbk c => acceptCbk os r.error c
  | .receiveCbk c _ _ => Connection.receiveCbk os.removes r.error c
  | .sendCbk c _ => (Connection.writeCompletionCondition r.error c).andThen (sendCbk r.error)
  | .retry => retry r.error

/-- Take the `i`th handler off the queue. -/
def pop (i : ℕ) (s : Server) : Server :=
  match s.queued i with
  | none => s
  | some (handler, r) => record handler r { s with operations := s.operations.eraseIdx i }

def handle (i : ℕ) (os : Os) : Steps :=
  .act (pop i) fun s ↦
    match s.queued i with
    | none => skip
    | some (handler, r) => dispatch os handler r

end Locked

/-- What a thread can call. -/
inductive Invocation where
  | start
  | stop
  | sendData (c : ℕ) (message : List UInt8)
  | receive (grows : Bool) (c : ℕ)
  | removeConnection (c : ℕ)
  | stopAndRemoveConnection (c : ℕ)
  | handle (i : ℕ) (os : Os)
  deriving DecidableEq, Repr

/-- What happens to the endpoint without a call.  A connection object may be destroyed
at any time at which neither `connections_` nor a handler holds it. -/
inductive Event where
  | peerSends (c : ℕ) (bytes : List UInt8)
  | complete (i : ℕ) (c : Completion)
  | reap
  deriving DecidableEq, Repr

namespace Invocation

def code : Invocation → Program Mutex Server Unit
  | .start => Locked.start
  | .stop => Locked.stop
  | .sendData c message => Locked.Connection.sendData c message
  | .receive grows c => Locked.Connection.receive grows c
  | .removeConnection c => Locked.removeConnection c
  | .stopAndRemoveConnection c => Locked.Connection.stopAndRemoveConnection c
  | .handle i os => Locked.handle i os

/-- The call as one step. -/
def effect : Invocation → Server → Server
  | .start, s => s.start
  | .stop, s => s.stop
  | .sendData c message, s => Connection.sendData c message s
  | .receive grows c, s => Connection.receive grows c s
  | .removeConnection c, s => s.removeConnection c
  | .stopAndRemoveConnection c, s => Connection.stopAndRemoveConnection c s
  | .handle i os, s => (s.handle i os).getD s

end Invocation

def event (s : Server) : Event → Option Server
  | .peerSends c bytes => s.peerSends c bytes
  | .complete i r => s.complete i r
  | .reap => some s.reap

def machine : Machine Mutex Server Unit Invocation Event where
  initial s := s = constructed
  code := Invocation.code
  event := event

/-! ## What the calls do alone -/

namespace Locked

open Program

@[simp] theorem finish_removeConnection (c : ℕ) (s : Server) :
    (removeConnection c).finish s = s.removeConnection c := rfl

namespace Connection

@[simp] theorem finish_stop (c : ℕ) (s : Server) : (stop c).finish s = s.closeSocket c := rfl

@[simp] theorem finish_stopAndRemoveConnection (c : ℕ) (s : Server) :
    (stopAndRemoveConnection c).finish s =
      Server.Connection.stopAndRemoveConnection c s := rfl

@[simp] theorem finish_receive (grows : Bool) (c : ℕ) (s : Server) :
    (receive grows c).finish s = Server.Connection.receive grows c s := by
  simp only [receive, finish_guarded, finish_act, receiveUnlocked, throws,
    Server.Connection.receive, Server.Connection.handleRecvBufferException]
  by_cases hopen : (s.connection c).isOpen = true
  · rw [if_pos hopen, if_pos hopen]
    change Program.finish (if (_ && _) = true then _ else _) _ =
      (match prepared grows (s.connection c) with
        | .exceedsMaximum => s
        | .threw => _
        | .region buffer length shrinkCount => _)
    cases prepared grows (s.connection c) <;> simp [hopen]
  · rw [if_neg hopen, if_neg hopen]
    simp [hopen]

@[simp] theorem finish_start (grows : Bool) (c : ℕ) (s : Server) :
    (start grows c).finish s = Server.Connection.start grows c s := by
  simp only [start, finish_andThen, finish_simply, finish_receive]
  rfl

@[simp] theorem finish_writeCompletionCondition (error : ErrorCode) (c : ℕ) (s : Server) :
    (writeCompletionCondition error c).finish s =
      Server.Connection.writeCompletionCondition error c s := by
  unfold writeCompletionCondition Server.Connection.writeCompletionCondition
  split
  · rfl
  · rfl

@[simp] theorem finish_receiveCbk (removes : Bool) (error : ErrorCode) (c : ℕ) (s : Server) :
    (receiveCbk removes error c).finish s =
      Server.Connection.receiveCbk removes error c s := by
  unfold receiveCbk Server.Connection.receiveCbk
  have hreport : (if error = .timedOut then guarded (.socketMutex c) skip else skip :
      Steps).finish s = s := by
    split <;> rfl
  by_cases haborted : error = .operationAborted
  · simp [haborted]
  · simp only [haborted, ↓reduceIte]
    by_cases hlost : error = .eof ∨ error = .connectionReset ∨ error = .timedOut
    · simp only [if_pos hlost, finish_andThen, hreport]
      cases removes <;> rfl
    · simp only [if_neg hlost, finish_skip]

end Connection

@[simp] theorem finish_start (s : Server) : start.finish s = s.start := by
  simp only [start, finish_guarded, finish_act, createConnection, Server.start]
  by_cases hopen : s.acceptorOpen
  · simp only [hopen, ↓reduceIte]
    rfl
  · simp [hopen]

@[simp] theorem finish_stop (s : Server) : stop.finish s = s.stop := by
  simp only [stop, finish_andThen, finish_guarded, finish_choose, finish_forEach, finish_simply,
    Connection.finish_stop]
  rfl

@[simp] theorem finish_accepted (os : Os) (c : ℕ) (s : Server) :
    (accepted os c).finish s = s.accepted os c := by
  simp only [accepted, finish_bind, finish_guarded, answer_guarded, finish_act, answer_act,
    finish_ret, answer_ret, Server.accepted]
  by_cases hkept : (answers os (s.connection c)).keepAliveResult = .success
  · have hkept' : (if (s.connection c).isOpen then os else os.onClosed).keepAliveResult =
        .success := hkept
    simp only [hkept, hkept', ↓reduceIte, finish_andThen, finish_guarded, finish_simply,
      Connection.finish_start]
    rfl
  · have hkept' : (if (s.connection c).isOpen then os else os.onClosed).keepAliveResult ≠
        .success := hkept
    simp only [hkept, hkept', ↓reduceIte, finish_skip]
    rfl

@[simp] theorem finish_acceptCbk (os : Os) (error : ErrorCode) (c : ℕ) (s : Server) :
    (acceptCbk os error c).finish s = s.acceptCbk os error c := by
  unfold acceptCbk Server.acceptCbk
  have haccepted : (if error = .success then accepted os c else skip : Steps).finish s =
      if error = .success then s.accepted os c else s := by
    split <;> simp
  rw [finish_andThen, haccepted]
  split
  · exact finish_start _
  · split <;> rfl

@[simp] theorem finish_dispatch (os : Os) (handler : Handler) (r : Completion) (s : Server) :
    (dispatch os handler r).finish s = s.dispatch os handler r := by
  cases handler with
  | acceptCbk c => exact finish_acceptCbk os r.error c s
  | receiveCbk c offset length => exact Connection.finish_receiveCbk os.removes r.error c s
  | sendCbk c message =>
      simp only [dispatch, finish_andThen, Connection.finish_writeCompletionCondition]
      rfl
  | retry =>
      simp only [dispatch, retry, Server.dispatch, Server.retry]
      split
      · exact finish_start s
      · rfl

end Locked

/-- Where no other thread interferes, a call does what its function does in one step. -/
theorem finish_code (k : Invocation) (s : Server) : k.code.finish s = k.effect s := by
  cases k with
  | start => exact Locked.finish_start s
  | stop => exact Locked.finish_stop s
  | sendData c message => rfl
  | receive grows c => exact Locked.Connection.finish_receive grows c s
  | removeConnection c => rfl
  | stopAndRemoveConnection c => rfl
  | handle i os =>
      simp only [Invocation.code, Locked.handle, Program.finish_act, Locked.pop,
        Invocation.effect, handle]
      cases s.queued i with
      | none => rfl
      | some o => exact Locked.finish_dispatch os o.1 o.2 _

end Server

end DoipEndpoint
