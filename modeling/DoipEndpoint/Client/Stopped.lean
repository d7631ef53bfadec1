import DoipEndpoint.Client.Effects

/-!
# A stopped client endpoint

After `stop` the socket is closed, but a `send_cbk` that finds a broken
connection still replaces the socket and connects again.  Nothing else does:
the endpoint stays closed and issues nothing exactly as long as no such handler
opens a socket.
-/

namespace DoipEndpoint

namespace Client

open TransitionSystem

/-- The runs of an endpoint from a call of `stop` to the next call of `start`. -/
def afterStop (p : Protocol) (s : Client) : TransitionSystem Client Action where
  initial t := t = s.stop
  step t a :=
    match a with
    | .start _ => none
    | a => step p t a

theorem afterStop_step {p : Protocol} {s t u : Client} {a : Action}
    (h : (afterStop p s).step t a = some u) : step p t a = some u ∧ ∀ os, a ≠ .start os := by
  cases a with
  | start os => simp [afterStop] at h
  | stop | setConnected | setEstablished | sendData | sendCbk3 | peerSends | datagram | complete
  | handle => exact ⟨h, by simp⟩

/-- The socket is closed, and no `async_connect` and no receive was issued
since the state `s₀`. -/
structure Quiet (s₀ t : Client) : Prop where
  isOpen : t.socket.isOpen = false
  connects : t.connectsIssued = s₀.connectsIssued
  receives : t.receivesIssued = s₀.receivesIssued

/-- A queued `send_cbk` connects again, and the socket can be opened. -/
def reopens (s : Client) : Action → Bool
  | .handle i os =>
      match s.queued i with
      | none => false
      | some (o, c) =>
          match o.handler with
          | .sendCbk _ => Reconnects c.error && os.openResult = .success
          | _ => false
  | _ => false

theorem Quiet.congr {s₀ t u : Client} (h : Quiet s₀ t)
    (hopen : u.socket.isOpen = t.socket.isOpen) (hc : u.connectsIssued = t.connectsIssued)
    (hr : u.receivesIssued = t.receivesIssued) : Quiet s₀ u :=
  ⟨hopen.trans h.isOpen, hc.trans h.connects, hr.trans h.receives⟩

theorem Quiet.shutdownAndCloseSocket {s₀ t : Client} (h : Quiet s₀ t) :
    Quiet s₀ (shutdownAndCloseSocket false t) := by
  obtain ⟨k, ops, hclosed, hk, _⟩ := shutdownAndCloseSocket_false t
  rw [hclosed]
  exact ⟨hk.isOpen, h.connects, h.receives⟩

theorem Quiet.receive {s₀ t : Client} (h : Quiet s₀ t) (p : Protocol) (grows : Bool) :
    Quiet s₀ (receive p grows t) := by
  rwa [receive_of_closed p grows h.isOpen]

theorem Quiet.connectCbk {s₀ t : Client} (h : Quiet s₀ t) (p : Protocol) (os : Os)
    (e : ErrorCode) : Quiet s₀ (connectCbk p os e t) := by
  by_cases he : e = .operationAborted ∨ t.sendingBlocked = true
  · rw [Client.connectCbk, if_pos he]
    exact h.shutdownAndCloseSocket
  · obtain ⟨port, hc⟩ := connectCbk_of_not_aborted p os he
    rw [hc]
    refine Quiet.receive ?_ p os.grows
    exact h.congr rfl rfl rfl

theorem Quiet.receiveCbk {s₀ t : Client} (h : Quiet s₀ t) (p : Protocol) (e : ErrorCode) :
    Quiet s₀ (receiveCbk p e t) := by
  cases p with
  | tcp => exact h
  | udp =>
      rw [receiveCbk_udp]
      split_ifs
      · exact h
      · exact h.shutdownAndCloseSocket
      · exact h.receive .udp true

theorem Quiet.sendCbk3 {s₀ t : Client} (h : Quiet s₀ t) (e : ErrorCode) :
    Quiet s₀ (Tcp.sendCbk3 e t) := by
  obtain ⟨state, b, hs⟩ := sendCbk3_cases e t
  rcases hs with hs | hs <;> rw [hs]
  · exact h.congr rfl rfl rfl
  · apply Quiet.shutdownAndCloseSocket
    exact h.congr rfl rfl rfl

/-- A `send_cbk` on a closed socket keeps quiet unless it opens a new one. -/
theorem quiet_sendCbk_iff {s₀ t : Client} (h : Quiet s₀ t) (p : Protocol) (os : Os)
    (e : ErrorCode) : Quiet s₀ (sendCbk p os e t) ↔
      ¬(Reconnects e = true ∧ os.openResult = .success) := by
  by_cases hr : Reconnects e = true
  · obtain ⟨ops, _, hsend⟩ := sendCbk_of_reconnects p os t hr
    rw [hsend]
    rcases @connectSocket_of_closed os { t with
      state := .closed
      wasNotConnected := true
      localPort := 0
      socket := .closed (t.socket.object + 1) (t.socket.handle + 1)
      operations := ops } rfl with ⟨hopen, hc⟩ | ⟨hopen, err, hc⟩
    · refine ⟨fun hq ↦ ?_, fun hn ↦ absurd ⟨hr, hopen⟩ hn⟩
      rw [hq.isOpen] at hc
      exact absurd hc (by simp)
    · rw [hc]
      exact ⟨fun _ hn ↦ hopen hn.2, fun _ ↦ ⟨rfl, h.connects, h.receives⟩⟩
  · constructor
    · intro _ hn
      exact hr hn.1
    · intro _
      by_cases ha : e = .operationAborted
      · rw [ha, sendCbk_of_aborted]
        apply Quiet.shutdownAndCloseSocket
        exact h.congr rfl rfl rfl
      · obtain ⟨b, hsend⟩ := sendCbk_of_other p os t (by simpa using hr) ha
        rw [hsend]
        exact h.congr rfl rfl rfl

theorem quiet_handle_iff {p : Protocol} {s₀ t u : Client} {i : ℕ} {os : Os} (h : Quiet s₀ t)
    (hstep : t.handle p i os = some u) : Quiet s₀ u ↔ reopens t (.handle i os) = false := by
  obtain ⟨o, c, history, hq, rfl⟩ := handle_eq_some hstep
  have hrun : Quiet s₀ { t with
      operations := t.operations.eraseIdx i
      socket := { t.socket with history := history } } := h.congr rfl rfl rfl
  simp only [reopens, hq]
  unfold dispatch
  cases hh : o.handler with
  | connectCbk target => exact ⟨fun _ ↦ rfl, fun _ ↦ hrun.connectCbk p os c.error⟩
  | sendCbk message => simp [quiet_sendCbk_iff hrun p os c.error]
  | receiveCbk offset length => exact ⟨fun _ ↦ rfl, fun _ ↦ hrun.receiveCbk p c.error⟩

theorem quiet_step {p : Protocol} {s₀ t u : Client} {a : Action} (h : Quiet s₀ t)
    (hstep : step p t a = some u) (hstart : ∀ os, a ≠ .start os)
    (hhandle : ∀ i os, a ≠ .handle i os) : Quiet s₀ u := by
  cases a with
  | start os => exact absurd rfl (hstart os)
  | stop =>
      cases Option.some.inj hstep
      exact h.shutdownAndCloseSocket
  | setConnected b =>
      cases Option.some.inj hstep
      obtain ⟨state, hflag, _⟩ := setConnected_cases b t
      rw [hflag]
      exact h.congr rfl rfl rfl
  | setEstablished b =>
      cases Option.some.inj hstep
      obtain ⟨state, hflag, _⟩ := setEstablished_cases b t
      rw [hflag]
      exact h.congr rfl rfl rfl
  | sendData message =>
      cases Option.some.inj hstep
      rcases sendData_cases p message t with hs | ⟨completion, isSending, hs, _⟩ <;> rw [hs]
      · exact h
      · exact h.congr rfl rfl rfl
  | sendCbk3 e =>
      rw [step_sendCbk3 hstep]
      exact h.sendCbk3 e
  | peerSends bytes =>
      obtain ⟨hopen, _⟩ := step_peerSends hstep
      simp [h.isOpen] at hopen
  | datagram sender payload =>
      obtain ⟨hopen, _⟩ := step_datagram hstep
      simp [h.isOpen] at hopen
  | complete i c =>
      obtain ⟨_, _, _, _, hopen, _⟩ := complete_eq_some hstep
      simp [h.isOpen] at hopen
  | handle i os => exact absurd rfl (hhandle i os)

/-- Between `stop` and the next `start` the endpoint stays closed and issues
neither a connect nor a receive, for exactly as long as no queued `send_cbk`
connects again on a socket that can be opened. -/
theorem stop_final (p : Protocol) (s : Client) :
    (afterStop p s).KeptExactlyBy (Quiet s.stop) fun t a ↦ reopens t a = false := by
  apply keptExactlyBy_of_step_iff
  · rintro t rfl
    obtain ⟨k, ops, hstop, hk, _⟩ := shutdownAndCloseSocket_false s
    exact ⟨by rw [stop, hstop]; exact hk.isOpen, rfl, rfl⟩
  · intro t a u ht hstep
    obtain ⟨hst, hstart⟩ := afterStop_step hstep
    by_cases hhandle : ∃ i os, a = .handle i os
    · obtain ⟨i, os, rfl⟩ := hhandle
      exact quiet_handle_iff ht hst
    · have hnot : ∀ i os, a ≠ .handle i os := fun i os h ↦ hhandle ⟨i, os, h⟩
      have hquiet : Quiet s.stop u := quiet_step ht hst hstart hnot
      cases a with
      | handle i os => exact absurd rfl (hnot i os)
      | start | stop | setConnected | setEstablished | sendData | sendCbk3 | peerSends
      | datagram | complete => exact ⟨fun _ ↦ rfl, fun _ ↦ hquiet⟩

/-- A send that failed just before `stop` reopens the endpoint afterwards. -/
theorem stopped_reopens : ¬∀ (p : Protocol) (local' remote : Endpoint) (s t : Client),
    (system p local' remote).Reachable anyStep s → (afterStop p s).Reachable anyStep t →
      Quiet s.stop t := by
  intro h
  have hruns : ∃ s, (system .tcp tester vehicle).run anyStep
      [.start .fine, .complete 0 ⟨.success, 0⟩, .handle 0 .fine, .sendData [0x02, 0xfd],
        .complete 1 ⟨.brokenPipe, 0⟩]
      (constructed tester vehicle false) = some s ∧
      ∃ t, (afterStop .tcp s).run anyStep [.handle 1 .fine] s.stop = some t ∧
        t.socket.isOpen = true := ⟨_, rfl, _, rfl, rfl⟩
  obtain ⟨s, hrun, t, hafter, hopen⟩ := hruns
  have hquiet := h .tcp tester vehicle s t (reachable_of_tester_run hrun)
    (reachable_of_run rfl hafter)
  simp [hquiet.isOpen] at hopen

end Client

end DoipEndpoint
