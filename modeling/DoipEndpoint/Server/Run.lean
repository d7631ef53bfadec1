import DoipEndpoint.Server.Functions
import DoipEndpoint.Runs

/-!
# Runs of a TCP server endpoint

The application calls the public functions, peers connect and send, the
operating system completes pending operations with any error code, and the
event loop runs queued handlers, all in any order.  After each step the
connection objects that nothing points to are destroyed, which closes their
sockets.
-/

namespace DoipEndpoint

namespace Server

inductive Action where
  | start
  | stop
  | sendData (c : ℕ) (message : List UInt8)
  | removeConnection (c : ℕ)
  | stopAndRemoveConnection (c : ℕ)
  | peerSends (c : ℕ) (bytes : List UInt8)
  | complete (i : ℕ) (c : Completion)
  | handle (i : ℕ) (os : Os)
  deriving DecidableEq, Repr

def queued (s : Server) (i : ℕ) : Option (Handler × Completion) :=
  match s.operations[i]? with
  | none => none
  | some o =>
      match o.completion with
      | none => none
      | some c => some (o.handler, c)

/-! ## The operating system -/

/-- What a completion does beyond queueing the handler.  An accept opens the
socket of its connection, a receive takes some of the bytes that have arrived. -/
def finish (handler : Handler) (r : Completion) (s : Server) : Option Server :=
  match handler with
  | .acceptCbk c =>
      if s.acceptorOpen then
        if r.error = .success then some (s.update c { s.connection c with isOpen := true })
        else some s
      else none
  | .receiveCbk c offset length =>
      let k := s.connection c
      if k.isOpen then
        if r.error = .success then
          if 0 < r.bytes ∧ r.bytes ≤ length ∧ r.bytes ≤ k.incoming.length then
            some (s.update c { k with
              recvBuffer := k.recvBuffer.store offset (k.incoming.take r.bytes)
              incoming := k.incoming.drop r.bytes })
          else none
        else some (s.update c { k with history := { k.history with receiveFailed := true } })
      else none
  | .sendCbk c _ => if (s.connection c).isOpen then some s else none
  | .retry => some s

def complete (i : ℕ) (r : Completion) (s : Server) : Option Server :=
  match s.operations[i]? with
  | none => none
  | some o =>
      if o.completion = none then
        finish o.handler r
          { s with operations := s.operations.set i { o with completion := some r } }
      else none

def peerSends (c : ℕ) (bytes : List UInt8) (s : Server) : Option Server :=
  let k := s.connection c
  if k.isOpen then
    some (s.update c { k with
      incoming := k.incoming ++ bytes
      history := { k.history with peerSent := k.history.peerSent ++ bytes } })
  else none

/-! ## The event loop -/

/-- Record in the history of a connection that its `receive_cbk` is run. -/
def record (handler : Handler) (r : Completion) (s : Server) : Server :=
  match handler with
  | .receiveCbk c _ _ =>
      let k := s.connection c
      if r.error = .success then
        s.update c { k with history := { k.history with
          handed := k.history.handed ++ Connection.receiveCbkReads r.bytes k
          receiveCbks := k.history.receiveCbks + 1 } }
      else s
  | _ => s

def dispatch (os : Os) (handler : Handler) (r : Completion) (s : Server) : Server :=
  match handler with
  | .acceptCbk c => s.acceptCbk os r.error c
  | .receiveCbk c _ _ => Connection.receiveCbk os.removes r.error c s
  | .sendCbk c _ => (Connection.writeCompletionCondition r.error c s).sendCbk r.error
  | .retry => s.retry r.error

def handle (i : ℕ) (os : Os) (s : Server) : Option Server :=
  match s.queued i with
  | none => none
  | some (handler, r) =>
      some (dispatch os handler r
        (record handler r { s with operations := s.operations.eraseIdx i }))

/-- Destroy the connection objects that nothing points to. -/
def reap (s : Server) : Server :=
  { s with connection := fun c ↦
      if s.referenced c then s.connection c
      else { s.connection c with isOpen := false, incoming := [] } }

def perform (s : Server) : Action → Option Server
  | .start => some s.start
  | .stop => some s.stop
  | .sendData c message => if s.referenced c then some (Connection.sendData c message s) else none
  | .removeConnection c => some (s.removeConnection c)
  | .stopAndRemoveConnection c => some (Connection.stopAndRemoveConnection c s)
  | .peerSends c bytes => s.peerSends c bytes
  | .complete i r => s.complete i r
  | .handle i os => s.handle i os

def step (s : Server) (a : Action) : Option Server := (s.perform a).map reap

def system : TransitionSystem Server Action where
  initial s := s = constructed
  step := step

end Server

end DoipEndpoint
