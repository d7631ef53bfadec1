import DoipEndpoint.Client.LocalPort
import DoipEndpoint.Client.Locked
import DoipEndpoint.Custody

/-!
# The local port of a client on several threads

`set_local_port` may run for one socket while another thread is about to close it or
has already put a new one in its place.  What it stores is right even so, because the
socket and the port are only written under `socket_mutex_`.
-/

namespace DoipEndpoint

namespace Client

open Program

/-- The native handle that `socket_` has, and the port that is reported for it. -/
structure Binding where
  object : ℕ
  handle : ℕ
  isOpen : Bool
  bound : Option UInt16
  localPort : UInt16

def binding (s : Client) : Binding :=
  ⟨s.socket.object, s.socket.handle, s.socket.isOpen, s.socket.bound, s.localPort⟩

/-- `socket_mutex_` with the socket and its port; no thread carries anything. -/
def portCustody : Custody Mutex Client Binding ℕ where
  mutex := .socketMutex
  view := binding
  trade s _ t _ := PortLive s → PortLive t
  refl _ _ := id

/-! ## Acts -/

/-- The socket and the port stay as they are. -/
structure Beside (s t : Client) : Prop where
  binding : t.binding = s.binding

variable {s t : Client}

theorem Beside.samePort (h : Beside s t) : SamePort s t :=
  ⟨congrArg Binding.localPort h.binding, congrArg Binding.isOpen h.binding,
    congrArg Binding.bound h.binding⟩

theorem Beside.portLive (h : Beside s t) (hs : PortLive s) : PortLive t := h.samePort.portLive hs

theorem PortLive.shutdownAndCloseSocket (recreateSocket : Bool) (s : Client) :
    PortLive (s.shutdownAndCloseSocket recreateSocket) := by
  cases recreateSocket with
  | false => exact portLive_shutdownAndCloseSocket s
  | true =>
      obtain ⟨ops, h, _⟩ := shutdownAndCloseSocket_true s
      rw [h]
      exact portLive_of_zero rfl

theorem beside_record (o : Operation) (c : Completion) (s : Client) : Beside s (record o c s) := by
  obtain ⟨history, h⟩ := record_eq o c s
  rw [h]
  exact ⟨rfl⟩

theorem beside_receiveUnlocked (grows : Bool) (recvBufferSize missingCapacity : ℕ) (s : Client) :
    Beside s (Locked.Tcp.receiveUnlocked grows recvBufferSize missingCapacity s) := by
  unfold Locked.Tcp.receiveUnlocked
  split
  · split <;> exact ⟨rfl⟩
  · exact ⟨rfl⟩

theorem beside_pop (i : ℕ) (s : Client) : Beside s (Locked.pop i s) := by
  unfold Locked.pop
  split
  · exact ⟨rfl⟩
  · rename_i o c _
    exact ⟨(beside_record o c { s with operations := s.operations.eraseIdx i }).binding⟩

theorem beside_event {p : Protocol} {e : Event} (h : event p s e = some t) : Beside s t := by
  cases e with
  | peerSends bytes =>
      obtain ⟨_, rfl⟩ := step_peerSends (p := p) h
      exact ⟨rfl⟩
  | datagram sender payload =>
      obtain ⟨_, _, rfl⟩ := step_datagram (p := p) h
      exact ⟨rfl⟩
  | complete i c =>
      obtain ⟨o, _, _, _, _, hf⟩ := complete_eq_some h
      obtain ⟨peer, incoming, datagrams, history, remote, buffer, rfl⟩ := finish_eq_some hf
      exact ⟨rfl⟩

/-! ## The programs -/

namespace Locked

variable {β : Type*}

theorem keeps_beside {p : Program Mutex Client β} (hp : Acts Beside p) (known : Option Binding)
    (n : ℕ) : Program.Keeps portCustody (fun _ n' ↦ n' = n) known n p :=
  hp.carries (fun _ _ h ↦ h.binding) (fun _ _ h _ hs ↦ h.portLive hs) known n

/-- The port is written under the mutex. -/
theorem keeps_guarded {f : Client → Client} (hf : ∀ s, PortLive s → PortLive (f s)) (n : ℕ) :
    (guarded .socketMutex (simply f)).Carries portCustody n n := by
  refine Program.Keeps.guarded_own rfl fun v ↦ ?_
  intro s _
  exact ⟨by simp, n, fun _ ↦ hf s, rfl⟩

theorem beside_cancelConnectTimer : Acts Beside cancelConnectTimer := Acts.guarded Acts.skip

theorem beside_setState (state : CeiState) :
    Acts Beside (simply (setState state) : Steps) :=
  Acts.simply fun _ ↦ ⟨rfl⟩

theorem binds_shutdownAndCloseSocket (recreateSocket : Bool) (n : ℕ) :
    (shutdownAndCloseSocket recreateSocket).Carries portCustody n n :=
  keeps_guarded (fun s _ ↦ PortLive.shutdownAndCloseSocket recreateSocket s) n

theorem binds_connect (p : Protocol) (os : Os) (n : ℕ) :
    (connect p os).Carries portCustody n n :=
  keeps_guarded (fun s hs ↦ by rw [connect_eq]; exact hs.connectSocket os) n

theorem binds_stop (n : ℕ) : stop.Carries portCustody n n :=
  (keeps_beside beside_cancelConnectTimer none n).andThen (binds_shutdownAndCloseSocket false n)

theorem beside_setEstablished (established : Bool) : Acts Beside (setEstablished established) := by
  unfold setEstablished
  split
  · refine Acts.choose (fun _ ↦ ⟨rfl⟩) fun s ↦ ?_
    split
    · exact (Acts.simply fun _ ↦ ⟨rfl⟩).guarded
    · exact Acts.skip
  · exact beside_setState .closed

theorem beside_setConnected (connected : Bool) : Acts Beside (setConnected connected) := by
  unfold setConnected
  split
  · exact (Acts.simply fun _ ↦ ⟨rfl⟩).guarded
  · exact beside_setState .closed

/-- A receive that gets the memory it asks for does not throw. -/
theorem not_throws {grows : Bool} {recvBufferSize missingCapacity : ℕ}
    (h : grows = true ∨ missingCapacity = 0) (s : Client) :
    Tcp.throws grows recvBufferSize missingCapacity s = false := by
  unfold Tcp.throws prepared
  rcases h with rfl | rfl
  · unfold MessageBuffer.prepare
    simp only [↓reduceIte]
    split_ifs <;> simp
  · obtain ⟨buffer, length, count, hregion⟩ := s.recvBuffer.prepare_zero recvBufferSizeInitial
      bufferShrinkThreshold s.shrinkCount grows recvBufferSize
    simp [hregion]

theorem beside_receiveInto {grows : Bool} {recvBufferSize missingCapacity : ℕ}
    (h : grows = true ∨ missingCapacity = 0) :
    Acts Beside (Tcp.receiveInto grows recvBufferSize missingCapacity) := by
  refine Acts.guarded (Acts.act (beside_receiveUnlocked grows recvBufferSize missingCapacity) ?_)
  intro s
  rw [not_throws h]
  exact Acts.skip

theorem beside_receive (p : Protocol) (grows : Bool) : Acts Beside (receive p grows) := by
  cases p with
  | tcp =>
      exact (Acts.guarded Acts.skip).andThen (beside_receiveInto (Or.inr rfl))
  | udp =>
      refine (Acts.simply fun s ↦ ?_).guarded
      unfold Client.Udp.receive
      split <;> exact ⟨rfl⟩

theorem beside_send (p : Protocol) (message : List UInt8) : Acts Beside (send p message) := by
  refine Acts.guarded ?_
  cases p with
  | tcp =>
      refine Acts.guarded (Acts.choose (fun _ ↦ ⟨rfl⟩) fun s ↦ ?_)
      split
      · exact (Acts.simply fun _ ↦ ⟨rfl⟩).guarded.andThen (Acts.simply fun _ ↦ ⟨rfl⟩)
      · exact Acts.skip
  | udp => exact (Acts.simply fun _ ↦ ⟨rfl⟩).guarded

/-- The socket need not be the one whose connect has completed. -/
theorem binds_connectCbk (p : Protocol) (os : Os) (error : ErrorCode) (n : ℕ) :
    (connectCbk p os error).Carries portCustody n n := by
  refine Program.Keeps.choose fun s ↦ ?_
  split
  · exact binds_shutdownAndCloseSocket false n
  · refine (keeps_beside beside_cancelConnectTimer none n).andThen ?_
    refine (keeps_guarded (fun _ hs ↦ hs.setLocalPort os) n).andThen ?_
    exact keeps_beside ((Acts.simply fun _ ↦ ⟨rfl⟩).andThen (beside_receive p os.grows)) none n

theorem binds_reconnect (p : Protocol) (os : Os) (n : ℕ) :
    (reconnect p os).Carries portCustody n n :=
  (keeps_beside (Acts.simply fun _ ↦ ⟨rfl⟩) none n).andThen
    ((binds_shutdownAndCloseSocket true n).andThen (binds_connect p os n))

theorem binds_sendCbk (p : Protocol) (os : Os) (error : ErrorCode) (n : ℕ) :
    (sendCbk p os error).Carries portCustody n n := by
  have hreport : Acts Beside (guarded .mutex skip : Steps) := Acts.guarded Acts.skip
  unfold sendCbk
  split
  · exact (keeps_beside (beside_setState .closed) none n).andThen
      ((keeps_beside hreport none n).andThen (binds_reconnect p os n))
  split
  · refine (keeps_beside (beside_setState .closed) none n).andThen
      ((keeps_beside ?_ none n).andThen (binds_reconnect p os n))
    split
    · exact hreport
    · exact Acts.skip
  split
  · exact (keeps_beside (Acts.simply fun _ ↦ ⟨rfl⟩) none n).andThen
      (binds_shutdownAndCloseSocket false n)
  split
  · exact keeps_beside (Acts.simply fun _ ↦ ⟨rfl⟩) none n
  · rfl

theorem binds_sendCbk3 (error : ErrorCode) (n : ℕ) :
    (Tcp.sendCbk3 error).Carries portCustody n n := by
  refine (keeps_beside (Acts.simply fun _ ↦ ⟨rfl⟩).guarded none n).andThen ?_
  split
  · exact keeps_beside (Acts.simply fun _ ↦ ⟨rfl⟩) none n
  split
  · exact binds_shutdownAndCloseSocket false n
  · refine Program.Keeps.choose fun s ↦ ?_
    split
    · rfl
    · exact (keeps_beside (beside_setState .connecting) none n).andThen
        (binds_shutdownAndCloseSocket false n)

theorem binds_receiveCbk (p : Protocol) (error : ErrorCode) (n : ℕ) :
    (receiveCbk p error).Carries portCustody n n := by
  cases p with
  | tcp => rfl
  | udp =>
      simp only [receiveCbk, Udp.receiveCbk]
      split
      · rfl
      split
      · exact keeps_beside (beside_receive .udp true) none n
      split
      · exact binds_shutdownAndCloseSocket false n
      · exact keeps_beside (beside_receive .udp true) none n

theorem binds_dispatch (p : Protocol) (os : Os) (o : Operation) (c : Completion) (n : ℕ) :
    (dispatch p os o c).Carries portCustody n n := by
  unfold dispatch
  split
  · exact binds_connectCbk p os c.error n
  · exact binds_sendCbk p os c.error n
  · exact binds_receiveCbk p c.error n

theorem binds_handle (p : Protocol) (i : ℕ) (os : Os) (n : ℕ) :
    (handle p i os).Carries portCustody n n := by
  intro s _
  have hpop := beside_pop i s
  refine ⟨fun _ ↦ hpop.binding, n, fun _ hs ↦ hpop.portLive hs, ?_⟩
  beta_reduce
  cases s.queued i with
  | none => rfl
  | some o => exact (binds_dispatch p os o.1 o.2 n).of_none

end Locked

/-! ## Runs -/

section Threads

open Threads TransitionSystem

variable {ι : Type*} {p : Protocol} {local' remote : Endpoint}

/-- No three-argument `receive` is called that asks for memory and is refused it. -/
def memoryGranted : Threads Mutex Client Unit ι → Threads.Action ι Call Event → Prop
  | _, .call _ (.receive grows _ missingCapacity) => grows = true ∨ missingCapacity = 0
  | _, _ => True

instance (s : Threads Mutex Client Unit ι) (a : Threads.Action ι Call Event) :
    Decidable (memoryGranted s a) := by
  unfold memoryGranted
  split <;> infer_instance

theorem binds_code {k : Call} (n : ℕ)
    (hk : ∀ grows recvBufferSize missingCapacity,
      k = .receive grows recvBufferSize missingCapacity → grows = true ∨ missingCapacity = 0) :
    (k.code p).Carries portCustody n n := by
  cases k with
  | start os => exact Locked.binds_connect p os n
  | stop => exact Locked.binds_stop n
  | setConnected connected =>
      exact Locked.keeps_beside (Locked.beside_setConnected connected) none n
  | setEstablished established =>
      exact Locked.keeps_beside (Locked.beside_setEstablished established) none n
  | send message => exact Locked.keeps_beside (Locked.beside_send p message) none n
  | sendCbk3 error => exact Locked.binds_sendCbk3 error n
  | receive grows recvBufferSize missingCapacity =>
      exact Locked.keeps_beside (Locked.beside_receiveInto (hk _ _ _ rfl)) none n
  | waitUntilSent => exact Locked.keeps_beside (Acts.guarded Acts.skip) none n
  | handle i os => exact Locked.binds_handle p i os n

theorem accounted_port : Accounted portCustody (fun _ ↦ 0) (machine p local' remote)
    (memoryGranted : Threads Mutex Client Unit ι → _ → Prop) fun _ s _ ↦ PortLive s where
  code s t k hk := by
    refine binds_code 0 ?_
    rintro grows recvBufferSize missingCapacity rfl
    exact hk
  view _ _ _ h := (beside_event h).binding
  begins _ _ _ _ h := h
  trades _ _ _ _ _ h htrade := htrade h
  happens _ _ _ _ _ _ h he := (beside_event he).portLive h

variable [DecidableEq ι] [Fintype ι]

/-- A local port that is reported is the port of the socket, which is open, whatever the
threads are in the middle of; and the socket and the port change only in steps of the
thread that holds `socket_mutex_`. -/
theorem threads_local_port_live {s : Threads Mutex Client Unit ι}
    (h : (Threads.system (machine p local' remote) ι).Reachable memoryGranted s) :
    (s.shared.getLocalPort ≠ 0 → s.shared.socket.isOpen = true ∧
      s.shared.socket.bound = some s.shared.getLocalPort) ∧
    ∀ a u, (Threads.system (machine p local' remote) ι).step s a = some u →
      u.shared.binding ≠ s.shared.binding →
        ∃ t, a = .run t ∧ s.holder .socketMutex = some t := by
  obtain ⟨_, ⟨_, ⟨isSending, rfl⟩, rfl⟩, hs⟩ := h
  have hfirst : PortLive (constructed local' remote isSending) := portLive_of_zero rfl
  obtain ⟨known, tokens, _, hcustody, hlive⟩ :=
    (inCustody_idle portCustody _).leads (accounted_port (ι := ι)) 0 hfirst hs
  refine ⟨hlive, fun a u hstep hchanged ↦ ?_⟩
  exact hcustody.view_step (fun e u he ↦ (beside_event he).binding) hstep hchanged

end Threads

/-- One thread runs the `connect_cbk` of the first socket, and before it gets to
`set_local_port` another one, in `send_cbk`, replaces the socket and connects again. -/
def overtakenConnectCbk : List (Threads.Action Bool Call Event) :=
  List.flatten [[.call false (.start .fine)], List.replicate 3 (.run false),
    [.leave false, .call false (.send [1])], List.replicate 9 (.run false),
    [.leave false, .event (.complete 1 ⟨.brokenPipe, 0⟩), .event (.complete 0 ⟨.success, 0⟩),
      .call false (.handle 0 .fine)], List.replicate 4 (.run false),
    [.call true (.handle 0 { Os.fine with ephemeralPort := 40001 })],
    List.replicate 11 (.run true), [.leave true], List.replicate 3 (.run false)]

/-- The port that it stores is the one of the new socket. -/
theorem threads_local_port_live_overtaken : ∃ s : Threads Mutex Client Unit Bool,
    (Threads.system (machine .tcp tester vehicle) Bool).run memoryGranted overtakenConnectCbk
      (Threads.idle (constructed tester vehicle false)) = some s ∧
    s.shared.socket.object = 1 ∧ s.shared.socket.isOpen = true ∧
      s.shared.socket.bound = some 40001 := by
  have hrun : ((Threads.system (machine .tcp tester vehicle) Bool).run memoryGranted
      overtakenConnectCbk (Threads.idle (constructed tester vehicle false))).map
        (fun s ↦ (s.shared.socket.object, s.shared.getLocalPort)) = some (1, 40001) := by
    decide +kernel
  obtain ⟨s, hs, hshown⟩ := Option.map_eq_some_iff.mp hrun
  obtain ⟨hobject, hport⟩ := Prod.mk.inj hshown
  have hreachable : (Threads.system (machine .tcp tester vehicle) Bool).Reachable
      memoryGranted s := TransitionSystem.reachable_of_run ⟨_, ⟨false, rfl⟩, rfl⟩ hs
  have hlive := (threads_local_port_live hreachable).1 (by rw [hport]; decide)
  rw [hport] at hlive
  exact ⟨s, hs, hobject, hlive⟩

end Client

end DoipEndpoint
