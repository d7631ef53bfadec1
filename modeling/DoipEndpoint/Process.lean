import DoipEndpoint.Client.Locked
import DoipEndpoint.Manager.Concurrent
import DoipEndpoint.Server.Deadlock
import DoipEndpoint.UdpServer.Locked

/-!
# A process with its manager and its endpoints

Threads call the manager and the endpoints that it has constructed, and run the handlers
of their operations.  A create calls `start` of the new endpoint with `endpoint_mutex_`
held, so the mutexes of an endpoint come behind that of the manager.
-/

namespace DoipEndpoint

inductive EndpointKind where
  | tcpServer
  | udpServer
  | tcpClient
  deriving DecidableEq, Repr

/-- The manager and, for the number of each endpoint object, the members that it has
according to its kind.  What is yet to be constructed is as its constructor leaves it. -/
structure Process where
  manager : Manager
  kind : ℕ → Option EndpointKind
  tcpServer : ℕ → Server
  udpServer : ℕ → UdpServer
  tcpClient : ℕ → Client

namespace Process

open Program

inductive Mutex where
  | endpointMutex
  | tcpServer (e : ℕ) (m : Server.Mutex)
  | udpServer (e : ℕ) (m : UdpServer.Mutex)
  | tcpClient (e : ℕ) (m : Client.Mutex)
  deriving DecidableEq, Repr

def Mutex.rank : Mutex → ℕ
  | .endpointMutex => 0
  | .tcpServer _ m => m.rank + 1
  | .udpServer _ m => m.rank + 1
  | .tcpClient _ m => m.rank + 1

abbrev Steps (β : Type) := Program Mutex Process β

/-! ## The parts -/

def onManager (p : Program Manager.Mutex Manager Manager.Reply) : Steps Manager.Reply :=
  p.embed (fun _ ↦ .endpointMutex) Process.manager fun manager s ↦ { s with manager }

def onTcpServer (e : ℕ) (p : Program Server.Mutex Server Unit) : Steps Unit :=
  p.embed (.tcpServer e) (fun s ↦ s.tcpServer e)
    fun x s ↦ { s with tcpServer := Function.update s.tcpServer e x }

def onUdpServer (e : ℕ) (p : Program UdpServer.Mutex UdpServer Unit) : Steps Unit :=
  p.embed (.udpServer e) (fun s ↦ s.udpServer e)
    fun x s ↦ { s with udpServer := Function.update s.udpServer e x }

def onTcpClient (e : ℕ) (p : Program Client.Mutex Client Unit) : Steps Unit :=
  p.embed (.tcpClient e) (fun s ↦ s.tcpClient e)
    fun x s ↦ { s with tcpClient := Function.update s.tcpClient e x }

/-! ## Calls -/

/-- The kind of the endpoint that a create constructs. -/
def constructs : Manager.Invocation → Option EndpointKind
  | .createServerEndpoint _ _ _ reliable => some (if reliable then .tcpServer else .udpServer)
  | .createClientEndpoint _ _ _ _ _ _ => some .tcpClient
  | _ => none

/-- `its_endpoint->start()`. -/
def start (os : Client.Os) (e : ℕ) : EndpointKind → Steps Unit
  | .tcpServer => onTcpServer e Server.Locked.start
  | .udpServer => onUdpServer e UdpServer.Locked.receiveUnicast
  | .tcpClient => onTcpClient e (Client.Locked.start .tcp os)

def setKind (e : ℕ) (kind : EndpointKind) (s : Process) : Process :=
  { s with kind := Function.update s.kind e (some kind) }

/-- A call of the manager; the endpoint that it has constructed, if any, is started before
the mutex is given back, unless `start` throws at once. -/
def callManager (k : Manager.Invocation) (os : Client.Os) : Steps Unit :=
  guarded .endpointMutex ((onManager k.body).bind fun reply ↦
    match constructs k, reply with
    | some kind, .created ⟨some e, caught⟩ =>
        (simply (setKind e kind)).andThen (if caught then skip else start os e kind)
    | _, _ => skip)

inductive Call where
  | manager (k : Manager.Invocation) (os : Client.Os)
  | tcpServer (e : ℕ) (k : Server.Invocation)
  | udpServer (e : ℕ) (k : UdpServer.Invocation)
  | tcpClient (e : ℕ) (k : Client.Call)

/-- An endpoint can be called once it has been constructed, also when it has been removed
from the registries since. -/
def Call.code : Call → Steps Unit
  | .manager k os => callManager k os
  | .tcpServer e k => choose fun s ↦
      if s.kind e = some .tcpServer then onTcpServer e k.code else skip
  | .udpServer e k => choose fun s ↦
      if s.kind e = some .udpServer then onUdpServer e k.code else skip
  | .tcpClient e k => choose fun s ↦
      if s.kind e = some .tcpClient then onTcpClient e (k.code .tcp) else skip

inductive Event where
  | useCount (call : SaturatingCounter.Call) (e : ℕ)
  | tcpServer (e : ℕ) (x : Server.Event)
  | udpServer (e : ℕ) (x : UdpServer.Event)
  | tcpClient (e : ℕ) (x : Client.Event)

def event (s : Process) : Event → Option Process
  | .useCount call e => (Manager.event s.manager (call, e)).map fun manager ↦ { s with manager }
  | .tcpServer e x => (Server.event (s.tcpServer e) x).map fun t ↦
      { s with tcpServer := Function.update s.tcpServer e t }
  | .udpServer e x => ((s.udpServer e).step x.action).map fun t ↦
      { s with udpServer := Function.update s.udpServer e t }
  | .tcpClient e x => (Client.event .tcp (s.tcpClient e) x).map fun t ↦
      { s with tcpClient := Function.update s.tcpClient e t }

/-- A new process; the arguments tell what the constructors of its clients will be given
and will find in their memory. -/
def constructed (local' remote : ℕ → Endpoint) (isSending : ℕ → Bool) : Process where
  manager := .constructed
  kind _ := none
  tcpServer _ := .constructed
  udpServer _ := .constructed
  tcpClient e := .constructed (local' e) (remote e) (isSending e)

def machine : Machine Mutex Process Unit Call Event where
  initial s := ∃ local' remote isSending, s = constructed local' remote isSending
  code := Call.code
  event := event

/-! ## The order of the mutexes -/

/-- Every TCP server is steady. -/
def Steady (s : Process) : Prop := ∀ e, (s.tcpServer e).Steady

theorem Steady.update {s : Process} (h : Steady s) {e : ℕ} {x : Server} (hx : x.Steady) :
    Steady { s with tcpServer := Function.update s.tcpServer e x } := by
  intro e'
  by_cases he : e' = e
  · simpa [he] using hx
  · simpa [he] using h e'

section Bracketed

variable {outer : List Mutex}

theorem bracketed_onManager {p : Program Manager.Mutex Manager Manager.Reply}
    (hp : p.Deciding Manager.event) : Bracketed Mutex.rank Steady outer (onManager p) :=
  hp.lockFree.bracketed_embed fun _ _ h ↦ h

theorem bracketed_onTcpServer {e : ℕ} {p : Program Server.Mutex Server Unit}
    (hp : p.Bracketed Server.Mutex.rank Server.Steady []) (houter : ∀ k ∈ outer, k.rank = 0) :
    Bracketed Mutex.rank Steady outer (onTcpServer e p) := by
  apply hp.embed
  · exact fun _ _ h ↦ Nat.succ_lt_succ h
  · exact fun k hk m ↦ (houter k hk) ▸ Nat.succ_pos m.rank
  · exact fun s hs ↦ hs e
  · exact fun x s hx hs ↦ hs.update hx

theorem bracketed_onUdpServer {e : ℕ} {p : Program UdpServer.Mutex UdpServer Unit}
    (hp : UdpServer.Locked.Ordered [] p) (houter : ∀ k ∈ outer, k.rank = 0) :
    Bracketed Mutex.rank Steady outer (onUdpServer e p) := by
  apply hp.embed
  · exact fun _ _ h ↦ Nat.succ_lt_succ h
  · exact fun k hk m ↦ (houter k hk) ▸ Nat.succ_pos m.rank
  · exact fun _ _ ↦ trivial
  · exact fun _ _ _ hs ↦ hs

theorem bracketed_onTcpClient {e : ℕ} {p : Program Client.Mutex Client Unit}
    (hp : Client.Locked.Ordered [] p) (houter : ∀ k ∈ outer, k.rank = 0) :
    Bracketed Mutex.rank Steady outer (onTcpClient e p) := by
  apply hp.embed
  · exact fun _ _ h ↦ Nat.succ_lt_succ h
  · exact fun k hk m ↦ (houter k hk) ▸ Nat.succ_pos m.rank
  · exact fun _ _ ↦ trivial
  · exact fun _ _ _ hs ↦ hs

end Bracketed

theorem bracketed_start (os : Client.Os) (e : ℕ) (kind : EndpointKind) :
    Bracketed Mutex.rank Steady [.endpointMutex] (start os e kind) := by
  have houter : ∀ k ∈ [Mutex.endpointMutex], k.rank = 0 := by simp [Mutex.rank]
  cases kind with
  | tcpServer => exact bracketed_onTcpServer Server.Locked.bracketed_start houter
  | udpServer => exact bracketed_onUdpServer UdpServer.Locked.ordered_receiveUnicast houter
  | tcpClient => exact bracketed_onTcpClient (Client.Locked.ordered_connect .tcp os) houter

theorem bracketed_callManager (k : Manager.Invocation) (os : Client.Os) :
    Bracketed Mutex.rank Steady [] (callManager k os) := by
  refine Bracketed.guarded (by simp) (Bracketed.bind
    (bracketed_onManager (Manager.sectioned_machine.deciding k)) fun reply ↦ ?_)
  split
  · refine Bracketed.andThen (Bracketed.simply fun _ hs ↦ hs) ?_
    split
    · exact Bracketed.skip
    · exact bracketed_start os _ _
  · exact Bracketed.skip

theorem bracketed_code (k : Call) : Bracketed Mutex.rank Steady [] k.code := by
  cases k with
  | manager k os => exact bracketed_callManager k os
  | tcpServer e k =>
      refine Bracketed.choose fun s _ ↦ ?_
      split
      · exact bracketed_onTcpServer (Server.bracketed_code k) (by simp)
      · exact Bracketed.skip
  | udpServer e k =>
      refine Bracketed.choose fun s _ ↦ ?_
      split
      · exact bracketed_onUdpServer (UdpServer.ordered_code k) (by simp)
      · exact Bracketed.skip
  | tcpClient e k =>
      refine Bracketed.choose fun s _ ↦ ?_
      split
      · exact bracketed_onTcpClient (Client.ordered_code .tcp k) (by simp)
      · exact Bracketed.skip

theorem Steady.event {s t : Process} (h : Steady s) {x : Event} (hx : Process.event s x = some t) :
    Steady t := by
  cases x with
  | useCount call e =>
      obtain ⟨manager, _, rfl⟩ := Option.map_eq_some_iff.mp hx
      exact h
  | tcpServer e x =>
      obtain ⟨u, hu, rfl⟩ := Option.map_eq_some_iff.mp hx
      exact h.update ((h e).event hu)
  | udpServer e x =>
      obtain ⟨u, _, rfl⟩ := Option.map_eq_some_iff.mp hx
      exact h
  | tcpClient e x =>
      obtain ⟨u, _, rfl⟩ := Option.map_eq_some_iff.mp hx
      exact h

theorem disciplined_machine : Threads.Disciplined Mutex.rank Steady machine where
  initial := by
    rintro s ⟨local', remote, isSending, rfl⟩ e
    exact Server.steady_constructed
  code := bracketed_code
  event _ _ _ hs ht := hs.event ht

section Threads

open TransitionSystem

/-- Whatever the threads have called and however far they have got, none of them is in
the way of another for good: left to themselves they all return from their calls. -/
theorem every_call_returns {ι : Type*} [Finite ι] [DecidableEq ι]
    {s : Threads Mutex Process Unit ι}
    (h : (Threads.system machine ι).Reachable anyStep s) : Threads.Returns machine s :=
  Threads.returns_of_reachable disciplined_machine h

/-- One thread creates a server while another waits to find it. -/
theorem every_call_returns_create : ∃ s : Threads Mutex Process Unit (Fin 2),
    (Threads.system machine (Fin 2)).run anyStep
      [.call 0 (.manager (.createServerEndpoint ⟨fun _ ↦ true, true, 0, true⟩ "192.168.0.2" 13400
          true) .fine),
        .run 0, .run 0, .call 1 (.manager (.findServerEndpoint "192.168.0.2" 13400 true) .fine)]
      (Threads.idle (constructed (fun _ ↦ .unspecified) (fun _ ↦ .unspecified) fun _ ↦ false)) =
        some s ∧ Threads.Returns machine s := by
  obtain ⟨s, hs⟩ : ∃ s : Threads Mutex Process Unit (Fin 2),
      (Threads.system machine (Fin 2)).run anyStep
        [.call 0 (.manager (.createServerEndpoint ⟨fun _ ↦ true, true, 0, true⟩ "192.168.0.2"
            13400 true) .fine),
          .run 0, .run 0,
          .call 1 (.manager (.findServerEndpoint "192.168.0.2" 13400 true) .fine)]
        (Threads.idle (constructed (fun _ ↦ .unspecified) (fun _ ↦ .unspecified) fun _ ↦ false)) =
          some s := ⟨_, rfl⟩
  exact ⟨s, hs, every_call_returns (reachable_of_run ⟨_, ⟨_, _, _, rfl⟩, rfl⟩ hs)⟩

end Threads

end Process

end DoipEndpoint
