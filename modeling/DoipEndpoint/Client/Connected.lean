import DoipEndpoint.Client.Effects

/-!
# A connected endpoint has an open socket

`set_connected` and `set_established` look at the socket before they raise the
state, and two branches of `send_cbk` lower it before they close the socket.
The other functions that close the socket leave the state alone.  The endpoint
is consistent exactly as long as those functions run while it is neither
connected nor established.
-/

namespace DoipEndpoint

namespace Client

open TransitionSystem

def Consistent (s : Client) : Prop :=
  s.isEstablishedOrConnected = true → s.socket.isOpen = true

/-- The actions that close the socket and leave `state_` as it is: `stop`, a
`connect_cbk` or `send_cbk` that takes the endpoint for stopped, and a UDP
`receive_cbk` whose peer refused. -/
def closesSilently (p : Protocol) (s : Client) : Action → Bool
  | .stop => true
  | .sendCbk3 error => error = .operationAborted
  | .handle i _ =>
      match s.queued i with
      | none => false
      | some (o, c) =>
          match o.handler with
          | .connectCbk _ => c.error = .operationAborted || s.sendingBlocked
          | .sendCbk _ => c.error = .operationAborted
          | .receiveCbk _ _ => p = .udp && c.error = .connectionRefused
  | _ => false

theorem shutdownAndCloseSocket_false_state (s : Client) :
    (shutdownAndCloseSocket false s).state = s.state ∧
      (shutdownAndCloseSocket false s).socket.isOpen = false := by
  obtain ⟨k, os, h, hk, _⟩ := shutdownAndCloseSocket_false s
  rw [h]
  exact ⟨rfl, hk.isOpen⟩

theorem closesSilently_step {p : Protocol} {s t : Client} {a : Action}
    (ha : closesSilently p s a = true) (h : step p s a = some t) :
    t.state = s.state ∧ t.socket.isOpen = false := by
  cases a with
  | stop =>
      cases Option.some.inj h
      exact shutdownAndCloseSocket_false_state s
  | sendCbk3 error =>
      have he : error = .operationAborted := by simpa [closesSilently] using ha
      rw [step_sendCbk3 h, he]
      exact shutdownAndCloseSocket_false_state { s with isSending := false }
  | handle i os =>
      obtain ⟨o, c, history, hq, rfl⟩ := handle_eq_some h
      cases hh : o.handler with
      | connectCbk target =>
          have hc : c.error = .operationAborted ∨ s.sendingBlocked = true := by
            simpa [closesSilently, hq, hh] using ha
          simp only [dispatch, hh, connectCbk, if_pos hc]
          exact shutdownAndCloseSocket_false_state _
      | sendCbk message =>
          have hc : c.error = .operationAborted := by simpa [closesSilently, hq, hh] using ha
          simp only [dispatch, hh, hc, sendCbk_of_aborted]
          exact shutdownAndCloseSocket_false_state _
      | receiveCbk offset length =>
          have hc : p = .udp ∧ c.error = .connectionRefused := by
            simpa [closesSilently, hq, hh] using ha
          obtain ⟨rfl, he⟩ := hc
          simp only [dispatch, hh, he, receiveCbk_udp]
          exact shutdownAndCloseSocket_false_state _
  | start | setConnected | setEstablished | sendData | peerSends | datagram | complete =>
      simp [closesSilently] at ha

/-- What the other steps do: the endpoint is not connected afterwards, or its
socket is open, or state and socket are as before. -/
def Harmless (s t : Client) : Prop :=
  t.isEstablishedOrConnected = false ∨ t.socket.isOpen = true ∨
    (t.state = s.state ∧ t.socket.isOpen = s.socket.isOpen)

theorem harmless_connectSocket (os : Os) (s : Client) : Harmless s (connectSocket os s) := by
  rcases connectSocket_cases os s with ⟨_, _, e, _, h⟩ | ⟨k, e, hk, _, h⟩ | ⟨k, port, hk, _, h⟩
  · exact Or.inr (Or.inr (by rw [h]; exact ⟨rfl, rfl⟩))
  · exact Or.inr (Or.inl (by rw [h]; exact hk.isOpen))
  · exact Or.inr (Or.inl (by rw [h]; exact hk.isOpen))

theorem harmless_receive (p : Protocol) (grows : Bool) {s t : Client}
    (hstate : t.state = s.state) (hopen : t.socket.isOpen = s.socket.isOpen) :
    Harmless s (receive p grows t) :=
  Or.inr (Or.inr ⟨by rw [receive_state, hstate], by rw [receive_socket, hopen]⟩)

theorem harmless_sendCbk (p : Protocol) (os : Os) {e : ErrorCode} {s t : Client}
    (he : e ≠ .operationAborted) (hstate : t.state = s.state)
    (hopen : t.socket.isOpen = s.socket.isOpen) : Harmless s (sendCbk p os e t) := by
  by_cases hr : Reconnects e = true
  · obtain ⟨ops, _, h⟩ := sendCbk_of_reconnects p os t hr
    rw [h]
    rcases harmless_connectSocket os _ with h | h | ⟨h, _⟩
    · exact Or.inl h
    · exact Or.inr (Or.inl h)
    · exact Or.inl (by simp [isEstablishedOrConnected, h])
  · obtain ⟨b, h⟩ := sendCbk_of_other p os t (by simpa using hr) he
    exact Or.inr (Or.inr (by rw [h]; exact ⟨hstate, hopen⟩))

theorem harmless_dispatch {p : Protocol} {os : Os} {s t : Client} {i : ℕ} {o : Operation}
    {c : Completion} (hq : s.queued i = some (o, c))
    (hclose : closesSilently p s (.handle i os) = false)
    (hblocked : t.sendingBlocked = s.sendingBlocked)
    (hstate : t.state = s.state) (hopen : t.socket.isOpen = s.socket.isOpen) :
    Harmless s (dispatch p os o c t) := by
  cases hh : o.handler with
  | connectCbk target =>
      have hc : ¬(c.error = .operationAborted ∨ t.sendingBlocked = true) := by
        simpa [closesSilently, hq, hh, hblocked] using hclose
      obtain ⟨port, h⟩ := connectCbk_of_not_aborted p os hc
      simp only [dispatch, hh, h]
      exact harmless_receive p os.grows hstate hopen
  | sendCbk message =>
      have hc : c.error ≠ .operationAborted := by simpa [closesSilently, hq, hh] using hclose
      simp only [dispatch, hh]
      exact harmless_sendCbk p os hc hstate hopen
  | receiveCbk offset length =>
      simp only [dispatch, hh]
      cases p with
      | tcp => exact Or.inr (Or.inr ⟨hstate, hopen⟩)
      | udp =>
          have hc : c.error ≠ .connectionRefused := by simpa [closesSilently, hq, hh] using hclose
          rw [receiveCbk_udp, if_neg hc]
          split_ifs
          · exact Or.inr (Or.inr ⟨hstate, hopen⟩)
          · exact harmless_receive .udp true hstate hopen

theorem harmless_step {p : Protocol} {s t : Client} {a : Action}
    (ha : closesSilently p s a = false) (h : step p s a = some t) : Harmless s t := by
  cases a with
  | start os =>
      cases Option.some.inj h
      rw [start, connect_eq]
      exact harmless_connectSocket os s
  | stop => simp [closesSilently] at ha
  | setConnected b =>
      cases Option.some.inj h
      obtain ⟨state, hflag, rfl | ⟨hopen, rfl⟩⟩ := setConnected_cases b s <;> rw [hflag]
      · exact Or.inl rfl
      · exact Or.inr (Or.inl hopen)
  | setEstablished b =>
      cases Option.some.inj h
      obtain ⟨state, hflag, rfl | rfl | ⟨hopen, rfl⟩⟩ := setEstablished_cases b s <;> rw [hflag]
      · exact Or.inr (Or.inr ⟨rfl, rfl⟩)
      · exact Or.inl rfl
      · exact Or.inr (Or.inl hopen)
  | sendData message =>
      cases Option.some.inj h
      rcases sendData_cases p message s with hs | ⟨completion, isSending, hs, _⟩ <;> rw [hs] <;>
        exact Or.inr (Or.inr ⟨rfl, rfl⟩)
  | sendCbk3 error =>
      have he : error ≠ .operationAborted := by simpa [closesSilently] using ha
      rw [step_sendCbk3 h]
      simp only [Tcp.sendCbk3, if_neg he]
      split_ifs
      · exact Or.inr (Or.inr ⟨rfl, rfl⟩)
      · exact Or.inr (Or.inr ⟨rfl, rfl⟩)
      · exact Or.inl (by simp [isEstablishedOrConnected,
          (shutdownAndCloseSocket_false_state _).1])
  | peerSends bytes =>
      obtain ⟨_, rfl⟩ := step_peerSends h
      exact Or.inr (Or.inr ⟨rfl, rfl⟩)
  | datagram sender payload =>
      obtain ⟨_, _, rfl⟩ := step_datagram h
      exact Or.inr (Or.inr ⟨rfl, rfl⟩)
  | complete i c =>
      obtain ⟨o, _, _, _, _, hf⟩ := complete_eq_some h
      obtain ⟨peer, incoming, datagrams, history, remote, buffer, rfl⟩ := finish_eq_some hf
      exact Or.inr (Or.inr ⟨rfl, rfl⟩)
  | handle i os =>
      obtain ⟨o, c, history, hq, rfl⟩ := handle_eq_some h
      exact harmless_dispatch hq ha rfl rfl rfl

theorem Consistent.of_harmless {s t : Client} (hs : Consistent s) (h : Harmless s t) :
    Consistent t := by
  intro ht
  rcases h with h | h | ⟨hstate, hopen⟩
  · simp [h] at ht
  · exact h
  · rw [hopen]
    exact hs (by simpa only [isEstablishedOrConnected, hstate] using ht)

theorem consistent_iff {p : Protocol} {s t : Client} {a : Action} (hs : Consistent s)
    (hstep : step p s a = some t) :
    Consistent t ↔ (closesSilently p s a = true → s.isEstablishedOrConnected = false) := by
  cases hclose : closesSilently p s a with
  | false => exact ⟨fun _ h ↦ by simp at h, fun _ ↦ hs.of_harmless (harmless_step hclose hstep)⟩
  | true =>
      obtain ⟨hstate, hopen⟩ := closesSilently_step hclose hstep
      have hsame : t.isEstablishedOrConnected = s.isEstablishedOrConnected := by
        simp only [isEstablishedOrConnected, hstate]
      simp [Consistent, hsame, hopen]

/-- An endpoint that says it is connected has an open socket, for exactly as
long as no function closes the socket of a connected endpoint without lowering
its state. -/
theorem connected_open (p : Protocol) (local' remote : Endpoint) :
    (system p local' remote).KeptExactlyBy Consistent
      fun s a ↦ closesSilently p s a = true → s.isEstablishedOrConnected = false := by
  refine keptExactlyBy_of_step_iff ?_ fun s a t hs hstep ↦ consistent_iff hs hstep
  rintro s ⟨isSending, rfl⟩ h
  simp [constructed, isEstablishedOrConnected] at h

/-- `stop` leaves a connected endpoint connected, with a closed socket. -/
theorem stopped_connected : ¬∀ (p : Protocol) (local' remote : Endpoint) (s : Client),
    (system p local' remote).Reachable anyStep s → Consistent s := by
  intro h
  have hrun : (system .tcp tester vehicle).run anyStep
      [.start .fine, .complete 0 ⟨.success, 0⟩, .handle 0 .fine, .setConnected true, .stop]
      (constructed tester vehicle false) = some _ := rfl
  have hopen := h .tcp tester vehicle _ (reachable_of_tester_run hrun) rfl
  exact absurd hopen (by decide)

end Client

end DoipEndpoint
