import DoipEndpoint.Client.Effects

/-!
# Which socket an operation belongs to

In every reachable state a pending operation belongs to the open native handle
of the current socket, and no operation carries a handle that is yet to come.
So an operation of a replaced socket has its handler queued.
-/

namespace DoipEndpoint

namespace Client

open TransitionSystem

/-- Only operations on the open current handle are pending, none is on a later handle, and
those on the current handle are on the current socket object.  A `connect_cbk` that was
posted without an `async_connect` carries an error. -/
structure Owned (s : Client) : Prop where
  pending : ∀ o ∈ s.operations, o.completion = none →
    s.socket.isOpen = true ∧ o.handle = s.socket.handle
  fresh : ∀ o ∈ s.operations, o.handle ≤ s.socket.handle
  object : ∀ o ∈ s.operations, o.handle = s.socket.handle → o.object = s.socket.object
  posted : ∀ o ∈ s.operations, o.handler = .connectCbk none →
    ∃ c, o.completion = some c ∧ c.error ≠ .success

theorem Owned.issue {s : Client} (h : Owned s) {handler : Handler}
    {completion : Option Completion}
    (hopen : completion = none → s.socket.isOpen = true)
    (hposted : handler = .connectCbk none → ∃ c, completion = some c ∧ c.error ≠ .success) :
    Owned (s.issue handler completion) := by
  have hmem : ∀ o ∈ (s.issue handler completion).operations, o ∈ s.operations ∨
      o = ⟨handler, s.socket.object, s.socket.handle, completion⟩ := by
    intro o ho
    simpa [Client.issue] using ho
  refine ⟨fun o ho hc ↦ ?_, fun o ho ↦ ?_, fun o ho hh ↦ ?_, fun o ho hh ↦ ?_⟩
  · rcases hmem o ho with ho | rfl
    · exact h.pending o ho hc
    · exact ⟨hopen hc, rfl⟩
  · rcases hmem o ho with ho | rfl
    · exact h.fresh o ho
    · exact le_refl _
  · rcases hmem o ho with ho | rfl
    · exact h.object o ho hh
    · rfl
  · rcases hmem o ho with ho | rfl
    · exact h.posted o ho hh
    · exact hposted hh

theorem Owned.asyncReceive {s : Client} (h : Owned s) (hopen : s.socket.isOpen = true)
    (offset length : ℕ) : Owned (asyncReceive offset length s) := by
  have hi : Owned (s.issue (.receiveCbk offset length) none) :=
    h.issue (fun _ ↦ hopen) (by simp)
  exact ⟨hi.pending, hi.fresh, hi.object, hi.posted⟩

/-- Closing completes whatever is pending on the handle. -/
theorem Owned.closeSocket {s : Client} (h : Owned s) : Owned (closeSocket s) := by
  unfold Client.closeSocket
  split
  · refine ⟨fun o ho hc ↦ ?_, fun o ho ↦ ?_, fun o ho hh ↦ ?_, fun o ho hh ↦ ?_⟩ <;>
      obtain ⟨o', ho', rfl⟩ := List.mem_map.mp ho
    · by_cases hh : o'.handle = s.socket.handle
      · exact absurd hc (Operation.abort_completion_ne_none hh)
      · have hc' : o'.completion = none := by simpa [Operation.abort, hh] using hc
        exact absurd (h.pending o' ho' hc').2 hh
    · simpa [Socket.close] using h.fresh o' ho'
    · simpa [Socket.close] using h.object o' ho' (by simpa [Socket.close] using hh)
    · obtain ⟨c, hc, herr⟩ := h.posted o' ho' (by simpa using hh)
      exact ⟨c, by simp [Operation.abort, hc], herr⟩
  · exact h

/-- Another socket in the place of the current one: on the same handle if operations may be
pending, and never on an earlier one. -/
theorem Owned.withSocket {s : Client} (h : Owned s) {k : Socket}
    (hpending : s.socket.isOpen = true → k.isOpen = true ∧ k.handle = s.socket.handle)
    (hfresh : s.socket.handle ≤ k.handle)
    (hobject : k.handle = s.socket.handle → k.object = s.socket.object) :
    Owned { s with socket := k } := by
  refine ⟨fun o ho hc ↦ ?_, fun o ho ↦ (h.fresh o ho).trans hfresh, fun o ho hh ↦ ?_, h.posted⟩
  · obtain ⟨hopen, hh⟩ := h.pending o ho hc
    exact ⟨(hpending hopen).1, hh.trans (hpending hopen).2.symm⟩
  · have hk : k.handle = s.socket.handle := le_antisymm (hh ▸ h.fresh o ho) hfresh
    rw [h.object o ho (hh.trans hk), hobject hk]

theorem Owned.shutdownAndCloseSocket {s : Client} (h : Owned s) (recreateSocket : Bool) :
    Owned (shutdownAndCloseSocket recreateSocket s) := by
  have hs : Owned { s with localPort := 0 } := ⟨h.pending, h.fresh, h.object, h.posted⟩
  have hc : Owned (Client.closeSocket { s with localPort := 0 }) := hs.closeSocket
  cases recreateSocket with
  | false => exact hc
  | true =>
      obtain ⟨k, os, heq, hk, _⟩ := closeSocket_eq { s with localPort := 0 }
      have hclosed : (Client.closeSocket { s with localPort := 0 }).socket.isOpen = false := by
        rw [heq]
        exact hk.isOpen
      apply hc.withSocket (k := .closed _ _)
      · intro hopen
        simp [hclosed] at hopen
      · exact Nat.le_succ _
      · intro hh
        simp [Socket.closed] at hh

theorem Owned.connectSocket {s : Client} (h : Owned s) (os : Os) : Owned (connectSocket os s) := by
  have hattempt : ∀ k, s.socket.Attempt os k → ∀ port state,
      Owned { s with socket := { k with bound := port }, state := state } := by
    rintro k (⟨_, rfl⟩ | ⟨hclosed, _, rfl⟩) port state
    · exact ⟨h.pending, h.fresh, h.object, h.posted⟩
    · have ho := h.withSocket (k := { s.socket.opened with bound := port })
        (by simp [hclosed]) (Nat.le_succ _) (by simp [Socket.opened])
      exact ⟨ho.pending, ho.fresh, ho.object, ho.posted⟩
  rcases connectSocket_cases os s with ⟨_, _, e, he, hc⟩ | ⟨k, e, hk, he, hc⟩ |
    ⟨k, port, hk, _, hc⟩ <;> rw [hc]
  · exact h.issue (by simp) fun _ ↦ ⟨_, rfl, he⟩
  · exact (hattempt k hk k.bound s.state).issue (by simp) fun _ ↦ ⟨_, rfl, he⟩
  · have hi : Owned (Client.issue (.connectCbk (some s.remote)) none { s with
        socket := { k with bound := some port }, state := .connecting }) :=
      (hattempt k hk (some port) .connecting).issue (fun _ ↦ hk.isOpen) (by simp)
    exact ⟨hi.pending, hi.fresh, hi.object, hi.posted⟩

theorem Owned.receive {s : Client} (h : Owned s) (p : Protocol) (grows : Bool) :
    Owned (receive p grows s) := by
  by_cases hopen : s.socket.isOpen = true
  · obtain ⟨length, buffer, count, hr⟩ := receive_of_open p grows hopen
    have hb : Owned { s with recvBuffer := buffer, shrinkCount := count } :=
      ⟨h.pending, h.fresh, h.object, h.posted⟩
    rw [hr]
    exact hb.asyncReceive hopen 0 length
  · rwa [receive_of_closed p grows (by simpa using hopen)]

theorem Owned.connectCbk {s : Client} (h : Owned s) (p : Protocol) (os : Os) (e : ErrorCode) :
    Owned (connectCbk p os e s) := by
  by_cases he : e = .operationAborted ∨ s.sendingBlocked = true
  · rw [Client.connectCbk, if_pos he]
    exact h.shutdownAndCloseSocket false
  · obtain ⟨port, hc⟩ := connectCbk_of_not_aborted p os he
    rw [hc]
    refine Owned.receive ?_ p os.grows
    exact ⟨h.pending, h.fresh, h.object, h.posted⟩

theorem Owned.sendCbk {s : Client} (h : Owned s) (p : Protocol) (os : Os) (e : ErrorCode) :
    Owned (sendCbk p os e s) := by
  have hflags : ∀ state blocked b, Owned
      { s with state := state, sendingBlocked := blocked, wasNotConnected := b } :=
    fun _ _ _ ↦ ⟨h.pending, h.fresh, h.object, h.posted⟩
  unfold Client.sendCbk
  split_ifs
  · rw [connect_eq]
    exact ((hflags _ _ _).shutdownAndCloseSocket true).connectSocket os
  · rw [connect_eq]
    exact ((hflags _ _ _).shutdownAndCloseSocket true).connectSocket os
  · exact (hflags _ _ _).shutdownAndCloseSocket false
  · exact hflags _ _ _
  · exact h

theorem Owned.receiveCbk {s : Client} (h : Owned s) (p : Protocol) (e : ErrorCode) :
    Owned (receiveCbk p e s) := by
  cases p with
  | tcp => exact h
  | udp =>
      rw [receiveCbk_udp]
      split_ifs
      · exact h
      · exact h.shutdownAndCloseSocket false
      · exact h.receive .udp true

theorem Owned.dispatch {s : Client} (h : Owned s) (p : Protocol) (os : Os) (o : Operation)
    (c : Completion) : Owned (dispatch p os o c s) := by
  unfold Client.dispatch
  split
  · exact h.connectCbk p os c.error
  · exact h.sendCbk p os c.error
  · exact h.receiveCbk p c.error

theorem Owned.eraseIdx {s : Client} (h : Owned s) (i : ℕ) (history : History) :
    Owned { s with
      operations := s.operations.eraseIdx i
      socket := { s.socket with history := history } } :=
  ⟨fun o ho ↦ h.pending o (List.mem_of_mem_eraseIdx ho),
    fun o ho ↦ h.fresh o (List.mem_of_mem_eraseIdx ho),
    fun o ho ↦ h.object o (List.mem_of_mem_eraseIdx ho),
    fun o ho ↦ h.posted o (List.mem_of_mem_eraseIdx ho)⟩

theorem Owned.complete {p : Protocol} {i : ℕ} {c : Completion} {s t : Client} (h : Owned s)
    (hstep : s.complete p i c = some t) : Owned t := by
  obtain ⟨o, ho, hnone, hh, hopen, hf⟩ := complete_eq_some hstep
  obtain ⟨peer, incoming, datagrams, history, remote, buffer, rfl⟩ := finish_eq_some hf
  have ho' : o ∈ s.operations := List.mem_of_getElem? ho
  refine ⟨fun a ha hc ↦ ?_, fun a ha ↦ ?_, fun a ha hh' ↦ ?_, fun a ha hp ↦ ?_⟩ <;>
    rcases List.mem_or_eq_of_mem_set ha with ha | rfl
  · exact h.pending a ha hc
  · simp at hc
  · exact h.fresh a ha
  · exact h.fresh o ho'
  · exact h.object a ha hh'
  · exact h.object o ho' hh
  · exact h.posted a ha hp
  · obtain ⟨c', hc', _⟩ := h.posted o ho' hp
    simp [hnone] at hc'

theorem Owned.sendData {s : Client} (h : Owned s) (p : Protocol) (message : List UInt8) :
    Owned (sendData p message s) := by
  rcases sendData_cases p message s with hs | ⟨completion, isSending, hs, hopen⟩ <;> rw [hs]
  · exact h
  · have hflag : Owned { s with isSending := isSending } :=
      ⟨h.pending, h.fresh, h.object, h.posted⟩
    exact hflag.issue hopen (by simp)

theorem Owned.sendCbk3 {s : Client} (h : Owned s) (e : ErrorCode) : Owned (Tcp.sendCbk3 e s) := by
  obtain ⟨state, b, hs⟩ := sendCbk3_cases e s
  have hflags : Owned { s with isSending := false, state := state, wasNotConnected := b } :=
    ⟨h.pending, h.fresh, h.object, h.posted⟩
  rcases hs with hs | hs <;> rw [hs]
  · exact hflags
  · exact hflags.shutdownAndCloseSocket false

/-- Every call and every event keeps operations with their socket. -/
theorem owned_step {p : Protocol} {s t : Client} {a : Action} (h : Owned s)
    (hstep : step p s a = some t) : Owned t := by
  cases a with
  | start os =>
      cases Option.some.inj hstep
      rw [start, connect_eq]
      exact h.connectSocket os
  | stop =>
      cases Option.some.inj hstep
      exact h.shutdownAndCloseSocket false
  | setConnected b =>
      cases Option.some.inj hstep
      obtain ⟨state, hflag, _⟩ := setConnected_cases b s
      rw [hflag]
      exact ⟨h.pending, h.fresh, h.object, h.posted⟩
  | setEstablished b =>
      cases Option.some.inj hstep
      obtain ⟨state, hflag, _⟩ := setEstablished_cases b s
      rw [hflag]
      exact ⟨h.pending, h.fresh, h.object, h.posted⟩
  | sendData message =>
      cases Option.some.inj hstep
      exact h.sendData p message
  | sendCbk3 e =>
      rw [step_sendCbk3 hstep]
      exact h.sendCbk3 e
  | peerSends bytes =>
      obtain ⟨_, rfl⟩ := step_peerSends hstep
      exact ⟨h.pending, h.fresh, h.object, h.posted⟩
  | datagram sender payload =>
      obtain ⟨_, _, rfl⟩ := step_datagram hstep
      exact ⟨h.pending, h.fresh, h.object, h.posted⟩
  | complete i c => exact h.complete hstep
  | handle i os =>
      obtain ⟨o, c, history, _, rfl⟩ := handle_eq_some hstep
      exact (h.eraseIdx i history).dispatch p os o c

theorem owned_initial {p : Protocol} {local' remote : Endpoint} {s : Client}
    (h : (system p local' remote).initial s) : Owned s := by
  obtain ⟨isSending, rfl⟩ := h
  refine ⟨?_, ?_, ?_, ?_⟩ <;> simp [constructed]

/-- The invariant holds whatever the guard of the run. -/
theorem owned_reachable {p : Protocol} {local' remote : Endpoint}
    {allowed : Client → Action → Prop} {s : Client}
    (h : (system p local' remote).Reachable allowed s) : Owned s :=
  h.invariant (I := Owned) (fun _ ↦ owned_initial)
    fun _ a _ hs _ hstep ↦ owned_step (p := p) (a := a) hs hstep

end Client

end DoipEndpoint
