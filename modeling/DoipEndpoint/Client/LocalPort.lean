import DoipEndpoint.Client.Effects

/-!
# The local port of a client

`connect_cbk` stores the port of the open socket, and each function that closes
or replaces the socket clears it.  The exception is
`handle_recv_buffer_exception`, which `receive` does not reach.  A stored port
therefore belongs to the socket that is open now, also when the `connect_cbk`
that stored it was that of an earlier socket.
-/

namespace DoipEndpoint

namespace Client

open TransitionSystem

/-- A reported port is that of the open socket. -/
def PortLive (s : Client) : Prop :=
  s.getLocalPort ≠ 0 → s.socket.isOpen = true ∧ s.socket.bound = some s.getLocalPort

variable {s t : Client}

theorem portLive_of_zero (h : s.localPort = 0) : PortLive s := fun hport ↦ absurd h hport

/-- The port and the socket that it belongs to are those of `s`. -/
structure SamePort (s t : Client) : Prop where
  localPort : t.localPort = s.localPort
  isOpen : t.socket.isOpen = s.socket.isOpen
  bound : t.socket.bound = s.socket.bound

theorem SamePort.portLive (h : SamePort s t) (hs : PortLive s) : PortLive t := by
  intro hport
  simp only [getLocalPort, h.localPort, h.isOpen, h.bound] at hport ⊢
  exact hs hport

theorem samePort_receive (p : Protocol) (grows : Bool) (s : Client) :
    SamePort s (receive p grows s) := by
  by_cases hopen : s.socket.isOpen = true
  · obtain ⟨length, buffer, count, h⟩ := receive_of_open p grows hopen
    rw [h]
    exact ⟨rfl, rfl, rfl⟩
  · rw [receive_of_closed p grows (by simpa using hopen)]
    exact ⟨rfl, rfl, rfl⟩

/-! ## Closing and connecting -/

theorem portLive_shutdownAndCloseSocket (s : Client) :
    PortLive (shutdownAndCloseSocket false s) := by
  obtain ⟨k, ops, h, _⟩ := shutdownAndCloseSocket_false s
  rw [h]
  exact portLive_of_zero rfl

/-- `connect` opens a closed socket or binds an unbound one, and neither of them
can have a stored port. -/
theorem PortLive.connectSocket (h : PortLive s) (os : Os) : PortLive (connectSocket os s) := by
  have hattempt : ∀ k, s.socket.Attempt os k → s.localPort ≠ 0 →
      k.isOpen = true ∧ k.bound = some s.localPort := by
    rintro k (⟨_, rfl⟩ | ⟨hclosed, _, rfl⟩) hport
    · exact h hport
    · have hopen := (h hport).1
      rw [hclosed] at hopen
      exact absurd hopen (by simp)
  rcases connectSocket_cases os s with ⟨_, _, e, _, hc⟩ | ⟨k, e, hk, _, hc⟩ |
    ⟨k, port, hk, hbound, hc⟩
  · rw [hc]
    exact h
  · rw [hc]
    exact hattempt k hk
  · rw [hc]
    intro hport
    have hstored := (hattempt k hk hport).2
    rw [hbound] at hstored
    exact absurd hstored (by simp)

/-! ## Completion handlers -/

/-- Whatever socket it is run for, `connect_cbk` stores the port of the current
one. -/
theorem PortLive.setLocalPort (h : PortLive s) (os : Os) : PortLive (setLocalPort os s) := by
  unfold Client.setLocalPort
  split_ifs with hopen
  · intro hport
    refine ⟨hopen, ?_⟩
    cases hbound : s.socket.bound with
    | none => simp [getLocalPort, hbound] at hport
    | some port => simp [getLocalPort]
  · exact h
  · exact h

theorem PortLive.connectCbk (h : PortLive s) (p : Protocol) (os : Os) (e : ErrorCode) :
    PortLive (connectCbk p os e s) := by
  unfold Client.connectCbk
  split_ifs
  · exact portLive_shutdownAndCloseSocket s
  · have hstored : PortLive { Client.setLocalPort os s with wasNotConnected := false } :=
      h.setLocalPort os
    exact (samePort_receive p os.grows _).portLive hstored

theorem PortLive.sendCbk (h : PortLive s) (p : Protocol) (os : Os) (e : ErrorCode) :
    PortLive (sendCbk p os e s) := by
  by_cases hr : Reconnects e = true
  · obtain ⟨ops, _, hsend⟩ := sendCbk_of_reconnects p os s hr
    rw [hsend]
    exact (portLive_of_zero rfl).connectSocket os
  · by_cases ha : e = .operationAborted
    · rw [ha, sendCbk_of_aborted]
      exact portLive_shutdownAndCloseSocket _
    · obtain ⟨b, hsend⟩ := sendCbk_of_other p os s (by simpa using hr) ha
      rw [hsend]
      exact h

theorem PortLive.receiveCbk (h : PortLive s) (p : Protocol) (e : ErrorCode) :
    PortLive (receiveCbk p e s) := by
  cases p with
  | tcp => exact h
  | udp =>
      rw [receiveCbk_udp]
      split_ifs
      · exact h
      · exact portLive_shutdownAndCloseSocket s
      · exact (samePort_receive .udp true s).portLive h

theorem PortLive.sendCbk3 (h : PortLive s) (e : ErrorCode) : PortLive (Tcp.sendCbk3 e s) := by
  obtain ⟨state, wasNotConnected, hc | hc⟩ := sendCbk3_cases e s
  · rw [hc]
    exact h
  · rw [hc]
    exact portLive_shutdownAndCloseSocket _

theorem PortLive.handle {p : Protocol} {i : ℕ} {os : Os} (h : PortLive s)
    (hstep : s.handle p i os = some t) : PortLive t := by
  obtain ⟨o, c, history, _, rfl⟩ := handle_eq_some hstep
  have hs : PortLive { s with
      operations := s.operations.eraseIdx i
      socket := { s.socket with history := history } } := h
  unfold dispatch
  split
  · exact hs.connectCbk p os c.error
  · exact hs.sendCbk p os c.error
  · exact hs.receiveCbk p c.error

/-! ## Runs -/

theorem PortLive.step {p : Protocol} {a : Action} (h : PortLive s)
    (hstep : step p s a = some t) : PortLive t := by
  cases a with
  | start os =>
      cases Option.some.inj hstep
      rw [start, connect_eq]
      exact h.connectSocket os
  | stop =>
      cases Option.some.inj hstep
      exact portLive_shutdownAndCloseSocket s
  | setConnected connected =>
      obtain ⟨state, hset, _⟩ := setConnected_cases connected s
      cases Option.some.inj hstep
      rw [hset]
      exact h
  | setEstablished established =>
      obtain ⟨state, hset, _⟩ := setEstablished_cases established s
      cases Option.some.inj hstep
      rw [hset]
      exact h
  | sendData message =>
      cases Option.some.inj hstep
      rcases sendData_cases p message s with hsend | ⟨completion, isSending, hsend, _⟩
      · rwa [hsend]
      · rw [hsend]
        exact h
  | sendCbk3 e =>
      rw [step_sendCbk3 hstep]
      exact h.sendCbk3 e
  | peerSends bytes =>
      obtain ⟨_, rfl⟩ := step_peerSends hstep
      exact h
  | datagram sender payload =>
      obtain ⟨_, _, rfl⟩ := step_datagram hstep
      exact h
  | complete i c =>
      obtain ⟨o, _, _, _, _, hf⟩ := complete_eq_some hstep
      obtain ⟨peer, incoming, datagrams, history, remote, buffer, rfl⟩ := finish_eq_some hf
      exact h
  | handle i os => exact h.handle hstep

/-- In every reachable state of a TCP or UDP client endpoint a local port that is
reported is the port of the socket, which is open. -/
theorem local_port_live {p : Protocol} {local' remote : Endpoint}
    (h : (system p local' remote).Reachable anyStep s) (hport : s.getLocalPort ≠ 0) :
    s.socket.isOpen = true ∧ s.socket.bound = some s.getLocalPort := by
  have hlive : PortLive s := by
    refine h.invariant ?_ fun s a t hs _ hstep ↦ hs.step hstep
    rintro s ⟨isSending, rfl⟩
    exact portLive_of_zero rfl
  exact hlive hport

/-- The connect has been refused, and its socket replaced by `send_cbk`; then the
`connect_cbk` of the old socket stores the port of the new one. -/
def staleConnectCbk : List Action :=
  [.start .fine, .sendData [1], .complete 1 ⟨.brokenPipe, 0⟩, .complete 0 ⟨.connectionRefused, 0⟩,
    .handle 1 { Os.fine with ephemeralPort := 40001 }, .handle 0 .fine]

theorem local_port_live_stale : ∃ s,
    (system .tcp tester vehicle).run anyStep staleConnectCbk
        (constructed tester vehicle false) = some s ∧
      s.socket.isOpen = true ∧ s.socket.bound = some 40001 := by
  have hrun : ∃ s, (system .tcp tester vehicle).run anyStep staleConnectCbk
      (constructed tester vehicle false) = some s ∧ s.getLocalPort = 40001 := ⟨_, rfl, rfl⟩
  obtain ⟨s, hs, hport⟩ := hrun
  have hlive := local_port_live (reachable_of_tester_run hs) (by rw [hport]; decide)
  rw [hport] at hlive
  exact ⟨s, hs, hlive⟩

end Client

end DoipEndpoint
