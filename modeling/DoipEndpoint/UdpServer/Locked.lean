import DoipEndpoint.Threads
import DoipEndpoint.UdpServer.Functions

/-!
# The mutexes of the UDP server endpoint

A handler locks `multicast_mutex_` while it reads the buffer, one byte after the other,
and `unicast_mutex_` only afterwards.  The model has no multicast socket, because
nothing in the repository creates it.
-/

namespace DoipEndpoint

namespace UdpServer

inductive Mutex where
  | unicastMutex
  | multicastMutex
  | sentMutex
  | mutex
  deriving DecidableEq, Repr

def Mutex.rank : Mutex → ℕ
  | .unicastMutex => 0
  | .multicastMutex => 1
  | .sentMutex => 2
  | .mutex => 3

namespace Locked

open Program

abbrev Steps := Program Mutex UdpServer Unit

def receiveUnicast : Steps := guarded .unicastMutex (simply UdpServer.receiveUnicast)

/-- Closing the unicast socket, then looking for a multicast socket. -/
def stop : Steps :=
  (guarded .unicastMutex (simply UdpServer.stop)).andThen (guarded .multicastMutex skip)

def recordCall (arguments : Arguments) (printed : List UInt8) (s : UdpServer) : UdpServer :=
  { s with calls := s.calls ++ [⟨arguments, s.unicastRemote, printed⟩] }

/-- The loop of `on_message_received` with `n` bytes to go; nothing is said of a run that
leaves the buffer. -/
def onMessageReceived (arguments : Arguments) : ℕ → List UInt8 → Steps
  | 0, printed => simply (recordCall arguments printed)
  | n + 1, printed => choose fun s ↦
      match s.unicastRecvBuffer.index printed.length with
      | none => skip
      | some byte => onMessageReceived arguments n (printed ++ [byte])

def onUnicastReceived (arguments : Arguments) : Steps :=
  if arguments.error ≠ .operationAborted then
    (guarded .multicastMutex (onMessageReceived arguments arguments.bytes [])).andThen
      receiveUnicast
  else skip

/-- Starting an `async_send_to`. -/
def sendData : Steps := guarded .unicastMutex skip

def sendCbk : Steps := (guarded .sentMutex skip).andThen (guarded .mutex skip)

/-- Take the `i`th handler off the queue. -/
def pop (i : ℕ) (s : UdpServer) : UdpServer :=
  match s.receives[i]? with
  | some (.queued _) => { s with receives := s.receives.eraseIdx i }
  | _ => s

def handle (i : ℕ) : Steps :=
  .act (pop i) fun s ↦
    match s.receives[i]? with
    | some (.queued arguments) => onUnicastReceived arguments
    | _ => skip

end Locked

/-- What a thread can call. -/
inductive Invocation where
  | start
  | stop
  | sendData
  | sendCbk
  | handle (i : ℕ)
  deriving DecidableEq, Repr

inductive Event where
  | arrives (d : Datagram)
  | receives (i : ℕ)
  | fails (i : ℕ) (error : ErrorCode) (left : Datagram)
  deriving DecidableEq, Repr

def Invocation.code : Invocation → Program Mutex UdpServer Unit
  | .start => Locked.receiveUnicast
  | .stop => Locked.stop
  | .sendData => Locked.sendData
  | .sendCbk => Locked.sendCbk
  | .handle i => Locked.handle i

def Event.action : Event → Action
  | .arrives d => .arrives d
  | .receives i => .receives i
  | .fails i error left => .fails i error left

def machine : Machine Mutex UdpServer Unit Invocation Event where
  initial s := s = constructed
  code := Invocation.code
  event s e := s.step e.action

/-! ## What a handler does alone -/

section Alone

open Program TransitionSystem

variable {s : UdpServer} {i n : ℕ} {arguments : Arguments} {printed : List UInt8}

theorem step_reading (h : s.receives[i]? = some (.reading arguments printed)) :
    system.step s (.handle i) = s.onMessageReceived i arguments printed := by
  simp [system, step, h]

theorem getElem?_set_of_some {o o' : Receive} (h : s.receives[i]? = some o) :
    (s.receives.set i o')[i]? = some o' := by
  obtain ⟨hi, _⟩ := List.getElem?_eq_some_iff.mp h
  simp [hi]

/-- The loop prints the same bytes in one act after the other as it does step by step. -/
theorem leads_onMessageReceived (hreading : s.receives[i]? = some (.reading arguments printed))
    (hbytes : printed.length + n = arguments.bytes)
    (hsize : arguments.bytes ≤ s.unicastRecvBuffer.size) :
    ∃ all, system.Leads anyStep s { s with
        receives := s.receives.set i .returned
        calls := s.calls ++ [⟨arguments, s.unicastRemote, all⟩] } ∧
      ∀ t : UdpServer, t.unicastRecvBuffer = s.unicastRecvBuffer →
        (Locked.onMessageReceived arguments n printed).finish t =
          Locked.recordCall arguments all t := by
  induction n generalizing s printed with
  | zero =>
      refine ⟨printed, ?_, fun t _ ↦ rfl⟩
      refine (Leads.refl s).snoc (a := .handle i) trivial ?_
      have hend : ¬printed.length < arguments.bytes := by omega
      rw [step_reading hreading, onMessageReceived, if_neg hend]
  | succ n ih =>
      have hmore : printed.length < arguments.bytes := by omega
      have hindex : s.unicastRecvBuffer.index printed.length =
          some (s.unicastRecvBuffer.element printed.length) :=
        if_pos (hmore.trans_le hsize)
      let read := printed ++ [s.unicastRecvBuffer.element printed.length]
      let next : UdpServer := { s with receives := s.receives.set i (.reading arguments read) }
      have hstep : system.step s (.handle i) = some next := by
        rw [step_reading hreading, onMessageReceived, if_pos hmore, hindex]
      obtain ⟨all, hleads, hfinish⟩ := ih (s := next) (getElem?_set_of_some hreading)
        (by simp only [read, List.length_append, List.length_singleton]; omega) hsize
      refine ⟨all, ?_, ?_⟩
      · have hfirst : system.Leads anyStep s next := (Leads.refl s).snoc trivial hstep
        have hrest := hfirst.trans hleads
        simp only [next, List.set_set] at hrest
        exact hrest
      · intro t ht
        simp only [Locked.onMessageReceived, finish_choose, ht, hindex]
        exact hfinish t ht

/-- A handler that no other thread interrupts does what its steps do. -/
theorem leads_handle (hqueued : s.receives[i]? = some (.queued arguments))
    (herror : arguments.error ≠ .operationAborted)
    (hsize : arguments.bytes ≤ s.unicastRecvBuffer.size) :
    system.Leads anyStep s ((Locked.handle i).finish s) := by
  let begun : UdpServer := { s with receives := s.receives.set i (.reading arguments []) }
  have hbegin : system.step s (.handle i) = some begun := by
    simp [system, step, hqueued, onUnicastReceived, herror, begun]
  obtain ⟨all, hleads, hfinish⟩ := leads_onMessageReceived (s := begun) (n := arguments.bytes)
    (getElem?_set_of_some hqueued) (by simp) hsize
  have hfirst : system.Leads anyStep s begun := (Leads.refl s).snoc trivial hbegin
  have hend := hfirst.trans hleads
  simp only [begun, List.set_set] at hend
  refine hend.snoc (a := .handle i) trivial ?_
  have hreturned := (getElem?_set_of_some hqueued : (s.receives.set i .returned)[i]? = _)
  simp only [system, step, hreturned, Locked.handle, finish_act, hqueued, Locked.onUnicastReceived,
    if_pos herror, finish_andThen, finish_guarded, Locked.pop, List.eraseIdx_set_eq]
  rw [hfinish { s with receives := s.receives.eraseIdx i } rfl]
  rfl

end Alone

/-! ## The order of the mutexes -/

namespace Locked

open Program

abbrev Ordered (held : List Mutex) (p : Steps) : Prop :=
  Bracketed Mutex.rank (fun _ ↦ True) held p

theorem ordered_simply {held : List Mutex} (f : UdpServer → UdpServer) :
    Ordered held (simply f) :=
  Bracketed.simply fun _ _ ↦ trivial

theorem ordered_onMessageReceived {held : List Mutex} (arguments : Arguments) (n : ℕ)
    (printed : List UInt8) : Ordered held (onMessageReceived arguments n printed) := by
  induction n generalizing printed with
  | zero => exact ordered_simply _
  | succ n ih =>
      refine Bracketed.choose fun s _ ↦ ?_
      split
      · exact Bracketed.skip
      · exact ih _

theorem ordered_receiveUnicast : Ordered [] receiveUnicast :=
  Bracketed.guarded (by simp) (ordered_simply _)

theorem ordered_handle (i : ℕ) : Ordered [] (handle i) := by
  refine Bracketed.act (fun _ _ ↦ trivial) fun s _ ↦ ?_
  split
  · unfold onUnicastReceived
    split
    · exact (Bracketed.guarded (by simp) (ordered_onMessageReceived _ _ _)).andThen
        ordered_receiveUnicast
    · exact Bracketed.skip
  · exact Bracketed.skip

end Locked

theorem ordered_code (k : Invocation) : Locked.Ordered [] k.code := by
  cases k with
  | start => exact Locked.ordered_receiveUnicast
  | stop =>
      exact (Program.Bracketed.guarded (by simp) (Locked.ordered_simply _)).andThen
        (Program.Bracketed.guarded (by simp) Program.Bracketed.skip)
  | sendData => exact Program.Bracketed.guarded (by simp) Program.Bracketed.skip
  | sendCbk =>
      exact (Program.Bracketed.guarded (by simp) Program.Bracketed.skip).andThen
        (Program.Bracketed.guarded (by simp) Program.Bracketed.skip)
  | handle i => exact Locked.ordered_handle i

end UdpServer

end DoipEndpoint
