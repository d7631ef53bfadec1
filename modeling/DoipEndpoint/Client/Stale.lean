import DoipEndpoint.Client.Ownership

/-!
# Handlers of a replaced socket

The completion handlers carry no identity of the socket they belong to.  When
the socket has been replaced, the handlers of the old one are all queued, and
each of them acts on the new socket according to its error code alone.
-/

namespace DoipEndpoint

namespace Client

open TransitionSystem

/-- The current socket is neither closed nor replaced, the state is unchanged,
and sending is blocked only if it was. -/
structure Undisturbed (s t : Client) : Prop where
  object : t.socket.object = s.socket.object
  handle : t.socket.handle = s.socket.handle
  isOpen : t.socket.isOpen = s.socket.isOpen
  state : t.state = s.state
  blocked : t.sendingBlocked = true → s.sendingBlocked = true

/-- The error codes with which a `connect_cbk` or `send_cbk` of another socket
leaves the endpoint alone. -/
def harmless (s : Client) (o : Operation) (c : Completion) : Bool :=
  match o.handler with
  | .connectCbk _ => !((c.error = .operationAborted || s.sendingBlocked) && s.socket.isOpen)
  | .sendCbk _ =>
      !Reconnects c.error &&
        (c.error ≠ .operationAborted || (s.sendingBlocked && !s.socket.isOpen))
  | .receiveCbk _ _ => true

theorem Undisturbed.congr {s t u : Client} (h : Undisturbed s t) (hk : u.socket = t.socket)
    (hstate : u.state = t.state) (hb : u.sendingBlocked = t.sendingBlocked) :
    Undisturbed s u := by
  refine ⟨?_, ?_, ?_, hstate.trans h.state, ?_⟩
  · rw [hk, h.object]
  · rw [hk, h.handle]
  · rw [hk, h.isOpen]
  · rw [hb]
    exact h.blocked

theorem undisturbed_shutdownAndCloseSocket {s t : Client} (h : Undisturbed s t) :
    Undisturbed s (shutdownAndCloseSocket false t) ↔ s.socket.isOpen = false := by
  obtain ⟨k, ops, hclosed, hk, _⟩ := shutdownAndCloseSocket_false t
  rw [hclosed]
  constructor
  · intro hu
    exact hu.isOpen.symm.trans hk.isOpen
  · intro hopen
    exact ⟨hk.object.trans h.object, hk.handle.trans h.handle, hk.isOpen.trans hopen.symm,
      h.state, h.blocked⟩

theorem receive_sendingBlocked (p : Protocol) (grows : Bool) (s : Client) :
    (receive p grows s).sendingBlocked = s.sendingBlocked := by
  by_cases h : s.socket.isOpen = true
  · obtain ⟨length, buffer, count, hr⟩ := receive_of_open p grows h
    rw [hr]
    rfl
  · rw [receive_of_closed p grows (by simpa using h)]

theorem undisturbed_connectCbk {s t : Client} (h : Undisturbed s t)
    (hb : t.sendingBlocked = s.sendingBlocked) (p : Protocol) (os : Os) (e : ErrorCode) :
    Undisturbed s (connectCbk p os e t) ↔
      ¬((e = .operationAborted ∨ s.sendingBlocked = true) ∧ s.socket.isOpen = true) := by
  by_cases he : e = .operationAborted ∨ t.sendingBlocked = true
  · rw [connectCbk, if_pos he, undisturbed_shutdownAndCloseSocket h]
    rw [hb] at he
    simp [he]
  · obtain ⟨port, hc⟩ := connectCbk_of_not_aborted p os he
    rw [hb] at he
    rw [hc]
    constructor
    · intro _ hn
      exact he hn.1
    · intro _
      exact h.congr
        (receive_socket p os.grows { t with localPort := port, wasNotConnected := false })
        (receive_state ..) (receive_sendingBlocked ..)

theorem connectSocket_object (os : Os) (s : Client) :
    (connectSocket os s).socket.object = s.socket.object := by
  rcases connectSocket_cases os s with ⟨_, _, e, _, h⟩ | ⟨k, e, hk, _, h⟩ | ⟨k, port, hk, _, h⟩ <;>
    rw [h]
  · rfl
  · exact hk.object
  · exact hk.object

theorem undisturbed_sendCbk {s t : Client} (h : Undisturbed s t) (p : Protocol) (os : Os)
    (e : ErrorCode) : Undisturbed s (sendCbk p os e t) ↔
      Reconnects e = false ∧ (e = .operationAborted →
        s.sendingBlocked = true ∧ s.socket.isOpen = false) := by
  cases hr : Reconnects e with
  | true =>
      obtain ⟨ops, _, hsend⟩ := sendCbk_of_reconnects p os t hr
      have hobject : (sendCbk p os e t).socket.object = s.socket.object + 1 := by
        rw [hsend, connectSocket_object]
        exact congrArg (· + 1) h.object
      refine ⟨fun hu ↦ ?_, fun hn ↦ absurd hn.1 (by simp)⟩
      have hsame := hu.object
      omega
  | false =>
      by_cases ha : e = .operationAborted
      · obtain ⟨k, ops, hclosed, hk, _⟩ := shutdownAndCloseSocket_false
          { t with sendingBlocked := true }
        rw [ha, sendCbk_of_aborted, hclosed]
        refine ⟨fun hu ↦ ⟨rfl, fun _ ↦ ⟨hu.blocked rfl, hu.isOpen.symm.trans hk.isOpen⟩⟩, ?_⟩
        rintro ⟨_, hn⟩
        obtain ⟨hblocked, hopen⟩ := hn rfl
        exact ⟨hk.object.trans h.object, hk.handle.trans h.handle, hk.isOpen.trans hopen.symm,
          h.state, fun _ ↦ hblocked⟩
      · obtain ⟨b, hsend⟩ := sendCbk_of_other p os t hr ha
        rw [hsend]
        exact ⟨fun _ ↦ ⟨rfl, fun hn ↦ absurd hn ha⟩, fun _ ↦ h.congr rfl rfl rfl⟩

theorem Owned.queued_of_stale {s : Client} (h : Owned s) {i : ℕ} {o : Operation}
    (ho : s.operations[i]? = some o) (hstale : o.object ≠ s.socket.object) :
    ∃ c, s.queued i = some (o, c) := by
  have hmem : o ∈ s.operations := List.mem_of_getElem? ho
  cases hc : o.completion with
  | none =>
      obtain ⟨_, hh⟩ := h.pending o hmem hc
      exact absurd (h.object o hmem hh) hstale
  | some c => exact ⟨c, by simp [queued, ho, hc]⟩

theorem undisturbed_handle {p : Protocol} {s t : Client} {i : ℕ} {os : Os} {o : Operation}
    {c : Completion} (hq : s.queued i = some (o, c)) (hkind : o.isReceive = false)
    (h : s.handle p i os = some t) : Undisturbed s t ↔ harmless s o c = true := by
  obtain ⟨o', c', history, hq', rfl⟩ := handle_eq_some h
  obtain ⟨rfl, rfl⟩ : o = o' ∧ c = c' := by simpa [hq] using hq'
  have hrun : Undisturbed s { s with
      operations := s.operations.eraseIdx i
      socket := { s.socket with history := history } } := ⟨rfl, rfl, rfl, rfl, id⟩
  unfold dispatch harmless
  cases hh : o.handler with
  | connectCbk target =>
      rw [undisturbed_connectCbk hrun rfl]
      cases s.socket.isOpen <;> simp
  | sendCbk message =>
      rw [undisturbed_sendCbk hrun]
      simp [or_iff_not_imp_left]
  | receiveCbk offset length => simp [Operation.isReceive, hh] at hkind

/-- The `connect_cbk` and `send_cbk` of a replaced socket are queued, and
running one is harmless exactly for the error codes of `harmless`. -/
theorem stale_handler (p : Protocol) {local' remote : Endpoint} {s : Client} {i : ℕ}
    {o : Operation} (hs : (system p local' remote).Reachable anyStep s)
    (ho : s.operations[i]? = some o) (hstale : o.object ≠ s.socket.object)
    (hkind : o.isReceive = false) : ∃ c, s.queued i = some (o, c) ∧
      ∀ os, ∃ t, step p s (.handle i os) = some t ∧ (Undisturbed s t ↔ harmless s o c = true) := by
  obtain ⟨c, hq⟩ := (owned_reachable hs).queued_of_stale ho hstale
  refine ⟨c, hq, fun os ↦ ?_⟩
  have hstep : ∃ t, s.handle p i os = some t := by simp [handle, hq]
  obtain ⟨t, ht⟩ := hstep
  exact ⟨t, ht, undisturbed_handle hq hkind ht⟩

/-- Of two sends on a broken connection the first replaces the socket. -/
theorem stale_handler_second_send : ∃ s o c,
    (system .tcp tester vehicle).Reachable anyStep s ∧ s.queued 1 = some (o, c) ∧
      ∀ os, ∃ t, step .tcp s (.handle 1 os) = some t ∧
        (Undisturbed s t ↔ harmless s o c = true) := by
  have hrun : (system .tcp tester vehicle).run anyStep
      [.start .fine, .complete 0 ⟨.success, 0⟩, .handle 0 .fine, .sendData [0x02], .sendData [0xfd],
        .complete 1 ⟨.brokenPipe, 0⟩, .handle 1 .fine]
      (constructed tester vehicle false) = some _ := rfl
  have hs := reachable_of_tester_run hrun
  obtain ⟨c, hq, h⟩ := stale_handler .tcp (i := 1) hs rfl (by decide) rfl
  exact ⟨_, _, c, hs, hq, h⟩

/-- The second of them was aborted, closes the new socket and blocks sending. -/
theorem aborted_send_disturbs : ¬∀ (p : Protocol) (local' remote : Endpoint) (s t : Client) (i : ℕ)
    (o : Operation) (os : Os), (system p local' remote).Reachable anyStep s →
      s.operations[i]? = some o → o.object ≠ s.socket.object → o.isReceive = false →
      step p s (.handle i os) = some t → Undisturbed s t := by
  intro h
  have hrun : (system .tcp tester vehicle).run anyStep
      [.start .fine, .complete 0 ⟨.success, 0⟩, .handle 0 .fine, .sendData [0x02], .sendData [0xfd],
        .complete 1 ⟨.brokenPipe, 0⟩, .handle 1 .fine]
      (constructed tester vehicle false) = some _ := rfl
  have hu := h .tcp tester vehicle _ _ 1 _ .fine (reachable_of_tester_run hrun) rfl (by decide)
    rfl rfl
  exact absurd hu.isOpen (by decide)

end Client

end DoipEndpoint
