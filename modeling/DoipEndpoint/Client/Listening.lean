import DoipEndpoint.Client.Current
import DoipEndpoint.Client.Rest

/-!
# How a UDP client keeps receiving

The `receive_cbk` of the UDP client calls `receive` again after a datagram and after
every error but two.  One of them closes the socket, and the other one comes only
from closing it.
-/

namespace DoipEndpoint

namespace Client

open TransitionSystem

/-- No receive on the open socket was cancelled. -/
def Uncancelled (s : Client) : Prop :=
  s.socket.isOpen = true → ∀ o ∈ s.operations, o.isReceive = true →
    o.handle = s.socket.handle → ∀ c, o.completion = some c → c.error ≠ .operationAborted

/-- On a socket whose connect has been handled a receive is outstanding. -/
structure Listens (s : Client) : Prop where
  uncancelled : Uncancelled s
  receives : s.socket.isOpen = true → s.socket.history.attached = true → 0 < s.currentReceives

/-- The operating system reports `operation_aborted` to a receive only when the
socket is closed. -/
def keepsReceive (s : Client) : Action → Bool
  | .complete i c =>
      match s.operations[i]? with
      | none => true
      | some o => !o.isReceive || c.error ≠ .operationAborted
  | _ => true

variable {s t : Client}

theorem Listens.of_closed (h : s.socket.isOpen = false) : Listens s := by
  refine ⟨fun hopen ↦ ?_, fun hopen ↦ ?_⟩ <;> simp [h] at hopen

theorem uncancelled_of_subset (h : Uncancelled s)
    (hopen : t.socket.isOpen = true → s.socket.isOpen = true)
    (hhandle : t.socket.handle = s.socket.handle)
    (hops : ∀ o ∈ t.operations, o ∈ s.operations ∨ o.isReceive = false ∨ o.completion = none) :
    Uncancelled t := by
  intro ht o ho hr hh c hc
  rcases hops o ho with hold | hnot | hpending
  · exact h (hopen ht) o hold hr (hh.trans hhandle) c hc
  · simp [hr] at hnot
  · simp [hpending] at hc

/-- A receive has been issued on the open socket. -/
theorem Uncancelled.asyncReceive (h : Uncancelled s) (offset length : ℕ) :
    Listens (asyncReceive offset length s) := by
  constructor
  · refine uncancelled_of_subset h id rfl fun o ho ↦ ?_
    rcases List.mem_append.mp ho with hold | hnew
    · exact Or.inl hold
    · rw [List.mem_singleton.mp hnew]
      exact Or.inr (Or.inr rfl)
  · intro _ _
    rw [(keeps_asyncReceive offset length s).receives]
    exact Nat.succ_pos _

theorem Uncancelled.receive (h : Uncancelled s) (grows : Bool) :
    Listens (receive .udp grows s) := by
  cases hopen : s.socket.isOpen with
  | false =>
      rw [receive_of_closed .udp grows hopen]
      exact Listens.of_closed hopen
  | true =>
      obtain ⟨length, buffer, count, hr⟩ := receive_of_open .udp grows hopen
      rw [hr]
      exact Uncancelled.asyncReceive (s := { s with recvBuffer := buffer, shrinkCount := count }) h
        0 length

theorem listens_shutdownAndCloseSocket (s : Client) :
    Listens (shutdownAndCloseSocket false s) := by
  obtain ⟨k, ops, h, hk, _⟩ := shutdownAndCloseSocket_false s
  rw [h]
  exact Listens.of_closed hk.isOpen

theorem Uncancelled.connectCbk (h : Uncancelled s) (os : Os) (e : ErrorCode) :
    Listens (connectCbk .udp os e s) := by
  by_cases he : e = .operationAborted ∨ s.sendingBlocked = true
  · rw [Client.connectCbk, if_pos he]
    exact listens_shutdownAndCloseSocket s
  · obtain ⟨port, hc⟩ := connectCbk_of_not_aborted .udp os he
    rw [hc]
    exact Uncancelled.receive (s := { s with localPort := port, wasNotConnected := false }) h
      os.grows

/-- `receive_cbk` arms the next receive or finds the socket closed, or closes it. -/
theorem Uncancelled.receiveCbk (h : Uncancelled s) {e : ErrorCode}
    (haborted : e = .operationAborted → Listens s) : Listens (receiveCbk .udp e s) := by
  rw [receiveCbk_udp]
  split_ifs with he
  · exact haborted he
  · exact listens_shutdownAndCloseSocket s
  · exact h.receive true

/-- The endpoint gets an operation that is no receive. -/
theorem Listens.append (h : Listens s) {o : Operation} (ho : o.isReceive = false)
    (hhandle : t.socket.handle = s.socket.handle)
    (hopen : t.socket.isOpen = s.socket.isOpen)
    (hattached : t.socket.history.attached = s.socket.history.attached)
    (hops : t.operations = s.operations ++ [o]) : Listens t := by
  constructor
  · refine uncancelled_of_subset h.uncancelled (by simp [hopen]) hhandle fun a ha ↦ ?_
    rw [hops] at ha
    rcases List.mem_append.mp ha with hold | hnew
    · exact Or.inl hold
    · rw [List.mem_singleton.mp hnew]
      exact Or.inr (Or.inl ho)
  · intro ht hatt
    have hs := h.receives (hopen ▸ ht) (hattached ▸ hatt)
    rw [currentReceives, current, hops, hhandle, List.countP_append]
    exact Nat.add_pos_left hs _

/-- No operation is on a handle that has just been opened. -/
theorem listens_opened (hfresh : ∀ o ∈ s.operations, o.handle ≤ s.socket.handle) :
    Listens { s with socket := s.socket.opened } := by
  constructor
  · intro _ o ho _ hh
    have hle := hfresh o ho
    simp only [Socket.opened] at hh
    omega
  · intro _ hattached
    simp [Socket.opened, History.fresh] at hattached

theorem Listens.connectSocket (h : Listens s)
    (hfresh : ∀ o ∈ s.operations, o.handle ≤ s.socket.handle) (os : Os) :
    Listens (connectSocket os s) := by
  have hattempt : ∀ k, s.socket.Attempt os k → Listens { s with socket := k } := by
    rintro k (⟨_, rfl⟩ | ⟨_, _, rfl⟩)
    · exact h
    · exact listens_opened hfresh
  rcases connectSocket_cases os s with ⟨_, _, e, _, hc⟩ | ⟨k, e, hk, _, hc⟩ |
    ⟨k, port, hk, _, hc⟩ <;> rw [hc]
  · exact h.append rfl rfl rfl rfl rfl
  · exact (hattempt k hk).append rfl rfl rfl rfl rfl
  · exact (hattempt k hk).append rfl rfl rfl rfl rfl

theorem Listens.sendCbk (h : Listens s)
    (hfresh : ∀ o ∈ s.operations, o.handle ≤ s.socket.handle) (os : Os) (e : ErrorCode) :
    Listens (sendCbk .udp os e s) := by
  by_cases hr : Reconnects e = true
  · obtain ⟨ops, hops, hsend⟩ := sendCbk_of_reconnects .udp os s hr
    rw [hsend]
    refine (Listens.of_closed rfl).connectSocket ?_ os
    intro o ho
    obtain ⟨o', ho', hab⟩ := InFlight.exists_of_forall₂_mem hops ho
    rw [hab.2.2.1]
    exact (hfresh o' ho').trans (Nat.le_succ _)
  · by_cases ha : e = .operationAborted
    · rw [ha, sendCbk_of_aborted]
      exact listens_shutdownAndCloseSocket _
    · obtain ⟨b, hsend⟩ := sendCbk_of_other .udp os s (by simpa using hr) ha
      rw [hsend]
      exact ⟨h.uncancelled, h.receives⟩

/-- The handler of an operation that is no receive on the current handle is taken
off the queue. -/
theorem Listens.eraseIdx (h : Listens s) {i : ℕ} {o : Operation}
    (ho : s.operations[i]? = some o)
    (hother : (o.isReceive && o.handle = s.socket.handle) = false) :
    Listens { s with operations := s.operations.eraseIdx i } := by
  constructor
  · exact uncancelled_of_subset h.uncancelled id rfl fun a ha ↦
      Or.inl (List.mem_of_mem_eraseIdx ha)
  · intro hopen hattached
    have hs := h.receives hopen hattached
    rw [currentReceives, current, InFlight.countP_eraseIdx ho, hother] at hs
    simpa [currentReceives, current] using hs

theorem uncancelled_record (h : Uncancelled s) (i : ℕ) (o : Operation) (c : Completion) :
    Uncancelled (record o c { s with operations := s.operations.eraseIdx i }) := by
  obtain ⟨history, hrec⟩ := record_eq o c { s with operations := s.operations.eraseIdx i }
  rw [hrec]
  exact uncancelled_of_subset h id rfl fun a ha ↦ Or.inl (List.mem_of_mem_eraseIdx ha)

theorem Listens.handle (h : Listens s) (hs : Owned s) {i : ℕ} {os : Os}
    (hstep : s.handle .udp i os = some t) : Listens t := by
  obtain ⟨o, c, hq, rfl⟩ := handle_eq_dispatch hstep
  obtain ⟨ho, hc⟩ := queued_eq_some hq
  have hrecorded := uncancelled_record h.uncancelled i o c
  unfold dispatch
  cases hh : o.handler with
  | connectCbk target => exact hrecorded.connectCbk os c.error
  | sendCbk message =>
      have hsame : record o c { s with operations := s.operations.eraseIdx i } =
          { s with operations := s.operations.eraseIdx i } := by simp [record, hh]
      rw [hsame]
      refine (h.eraseIdx ho (by simp [Operation.isReceive, hh])).sendCbk ?_ os c.error
      exact fun a ha ↦ hs.fresh a (List.mem_of_mem_eraseIdx ha)
  | receiveCbk offset length =>
      refine hrecorded.receiveCbk fun haborted ↦ ?_
      have hsame : record o c { s with operations := s.operations.eraseIdx i } =
          { s with operations := s.operations.eraseIdx i } := by simp [record, haborted]
      rw [hsame]
      by_cases hown : o.handle = s.socket.handle
      · -- only a receive that was cancelled by closing the socket is not armed again
        apply Listens.of_closed
        by_contra hopen
        have hreceive : o.isReceive = true := by simp [Operation.isReceive, hh]
        exact h.uncancelled (by simpa using hopen) o (List.mem_of_getElem? ho) hreceive hown c hc
          haborted
      · exact h.eraseIdx ho (by simp [hown])

theorem finish_udp_eq_some {o : Operation} {c : Completion} (h : finish .udp o c s = some t) :
    t.operations = s.operations ∧ t.socket.handle = s.socket.handle ∧
      t.socket.isOpen = s.socket.isOpen ∧
      t.socket.history.attached = s.socket.history.attached := by
  cases hh : o.handler with
  | connectCbk target =>
      rcases finish_connect hh h with ⟨_, rfl⟩ | ⟨_, rfl⟩ <;> exact ⟨rfl, rfl, rfl, rfl⟩
  | sendCbk message =>
      rw [finish_send hh h]
      exact ⟨rfl, rfl, rfl, rfl⟩
  | receiveCbk offset length =>
      rcases finish_receive_udp hh h with ⟨_, d, rest, _, rfl⟩ | ⟨_, rfl⟩ <;>
        exact ⟨rfl, rfl, rfl, rfl⟩

theorem Listens.complete (h : Listens s) {i : ℕ} {c : Completion}
    (hguard : keepsReceive s (.complete i c) = true)
    (hstep : s.complete .udp i c = some t) : Listens t := by
  obtain ⟨o, ho, _, _, _, hf⟩ := complete_eq_some hstep
  obtain ⟨hops, hhandle, hopen, hattached⟩ := finish_udp_eq_some hf
  simp only at hops hhandle hopen hattached
  constructor
  · intro ht a ha hr hh c' hc'
    rw [hops] at ha
    rcases List.mem_or_eq_of_mem_set ha with hold | rfl
    · exact h.uncancelled (hopen ▸ ht) a hold hr (hh.trans hhandle) c' hc'
    · obtain rfl := Option.some.inj hc'
      have hr : o.isReceive = true := hr
      simpa [keepsReceive, ho, hr] using hguard
  · intro ht hatt
    have hcount : t.currentReceives = s.currentReceives := by
      rw [currentReceives, current, hops, hhandle]
      exact InFlight.countP_set ho rfl
    rw [hcount]
    exact h.receives (hopen ▸ ht) (hattached ▸ hatt)

theorem listens_step (h : Listens s) (hs : Owned s) {a : Action}
    (hguard : keepsReceive s a = true) (hstep : step .udp s a = some t) : Listens t := by
  cases a with
  | start os =>
      cases Option.some.inj hstep
      exact h.connectSocket hs.fresh os
  | stop =>
      cases Option.some.inj hstep
      exact listens_shutdownAndCloseSocket s
  | setConnected connected =>
      cases Option.some.inj hstep
      obtain ⟨state, hflag, _⟩ := setConnected_cases connected s
      rw [hflag]
      exact ⟨h.uncancelled, h.receives⟩
  | setEstablished established =>
      cases Option.some.inj hstep
      obtain ⟨state, hflag, _⟩ := setEstablished_cases established s
      rw [hflag]
      exact ⟨h.uncancelled, h.receives⟩
  | sendData message =>
      cases Option.some.inj hstep
      exact h.append rfl rfl rfl rfl rfl
  | sendCbk3 e => simp [step] at hstep
  | peerSends bytes => simp [step] at hstep
  | datagram sender payload =>
      obtain ⟨_, _, rfl⟩ := step_datagram hstep
      exact ⟨h.uncancelled, h.receives⟩
  | complete i c => exact h.complete hguard hstep
  | handle i os => exact h.handle hs hstep

theorem listens_of_reachable {local' remote : Endpoint}
    (h : (system .udp local' remote).Reachable (fun s a ↦ keepsReceive s a = true) s) :
    Listens s ∧ Owned s := by
  apply h.invariant (I := fun s ↦ Listens s ∧ Owned s)
  · intro s hs
    obtain ⟨isSending, rfl⟩ := id hs
    exact ⟨Listens.of_closed rfl, owned_initial hs⟩
  · rintro s a t ⟨hlistens, howned⟩ hguard hstep
    exact ⟨listens_step hlistens howned hguard hstep, owned_step howned hstep⟩

/-! ## What waits is received -/

/-- The pending receive takes the first datagram. -/
theorem takes_pending {i : ℕ} {o : Operation} (ho : s.operations[i]? = some o)
    (hreceive : o.isReceive = true) (hpending : o.completion = none)
    (hh : o.handle = s.socket.handle) (hopen : s.socket.isOpen = true)
    {d : Datagram} {rest : List Datagram} (hd : s.socket.datagrams = d :: rest) :
    ∃ c t, step .udp s (.complete i c) = some t ∧ t.socket.datagrams = rest ∧
      t.remote = d.sender := by
  cases hhandler : o.handler with
  | connectCbk | sendCbk => simp [Operation.isReceive, hhandler] at hreceive
  | receiveCbk offset length =>
      let c : Completion := ⟨.success, min d.payload.length length⟩
      refine ⟨c, { s with
        operations := s.operations.set i { o with completion := some c }
        remote := d.sender
        socket := { s.socket with datagrams := rest } }, ?_, rfl, rfl⟩
      simp [step, complete, ho, hpending, hh, hopen, finish, hhandler, hd, c]

/-- The handler of a receive that was not cancelled or refused arms the next one. -/
theorem arms_queued {i : ℕ} {o : Operation} {c : Completion}
    (ho : s.operations[i]? = some o) (hreceive : o.isReceive = true)
    (hc : o.completion = some c) (hopen : s.socket.isOpen = true)
    (haborted : c.error ≠ .operationAborted) (hrefused : c.error ≠ .connectionRefused) :
    ∃ (t : Client) (a : Operation) (j : ℕ),
      step .udp s (.handle i .fine) = some t ∧ t.operations[j]? = some a ∧
      a.isReceive = true ∧ a.completion = none ∧ a.handle = t.socket.handle ∧
      t.socket.isOpen = true ∧ t.socket.datagrams = s.socket.datagrams := by
  cases hhandler : o.handler with
  | connectCbk | sendCbk => simp [Operation.isReceive, hhandler] at hreceive
  | receiveCbk offset length =>
      obtain ⟨history, hrec⟩ := record_eq o c { s with operations := s.operations.eraseIdx i }
      let r : Client := { s with
        operations := s.operations.eraseIdx i
        socket := { s.socket with history := history } }
      have hrec : record o c { s with operations := s.operations.eraseIdx i } = r := hrec
      have hq : s.queued i = some (o, c) := by simp [queued, ho, hc]
      obtain ⟨length, buffer, count, harmed⟩ := receive_of_open .udp true (s := r) hopen
      refine ⟨asyncReceive 0 length { r with recvBuffer := buffer, shrinkCount := count },
        ⟨.receiveCbk 0 length, s.socket.object, s.socket.handle, none⟩,
        (s.operations.eraseIdx i).length, ?_, ?_, rfl, rfl, rfl, hopen, rfl⟩
      · simp only [step, handle, hq, dispatch, hhandler, hrec, receiveCbk_udp, if_neg haborted,
          if_neg hrefused, harmed]
      · simp [asyncReceive, issue, r]

/-- A UDP client whose connect has been handled is not deaf while its socket is open,
whatever it was told in between: a receive is outstanding, and unless a refusal waits
for its handler, the next datagram can be received by the event loop alone. -/
theorem udp_keeps_receiving {local' remote : Endpoint}
    (h : (system .udp local' remote).Reachable (fun s a ↦ keepsReceive s a = true) s)
    (hopen : s.socket.isOpen = true) (hattached : s.socket.history.attached = true) :
    ∃ o ∈ s.operations, o.isReceive = true ∧ o.handle = s.socket.handle ∧
      ∀ d rest, s.socket.datagrams = d :: rest →
        (∀ c, o.completion = some c → c.error ≠ .connectionRefused) →
        ∃ t, (system .udp local' remote).Leads eventsOnly s t ∧
          t.socket.datagrams = rest ∧ t.remote = d.sender := by
  obtain ⟨hlistens, _⟩ := listens_of_reachable h
  obtain ⟨o, ho, hcurrent⟩ := List.countP_pos_iff.mp (hlistens.receives hopen hattached)
  simp only [Bool.and_eq_true, decide_eq_true_eq] at hcurrent
  obtain ⟨hreceive, hh⟩ := hcurrent
  refine ⟨o, ho, hreceive, hh, fun d rest hd hrefused ↦ ?_⟩
  obtain ⟨i, hi⟩ := List.mem_iff_getElem?.mp ho
  cases hc : o.completion with
  | none =>
      obtain ⟨c, t, hstep, ht⟩ := takes_pending hi hreceive hc hh hopen hd
      exact ⟨t, (Leads.refl s).snoc (a := .complete i c) rfl hstep, ht⟩
  | some c =>
      have haborted := hlistens.uncancelled hopen o ho hreceive hh c hc
      obtain ⟨u, a, j, hstep, ha, hareceive, hpending, hahandle, huopen, hsame⟩ :=
        arms_queued hi hreceive hc hopen haborted (hrefused c hc)
      obtain ⟨c', t, hstep', ht⟩ := takes_pending ha hareceive hpending hahandle huopen
        (hsame.trans hd)
      have hfirst : (system .udp local' remote).Leads eventsOnly s u :=
        (Leads.refl s).snoc (a := .handle i .fine) rfl hstep
      exact ⟨t, hfirst.snoc (a := .complete j c') rfl hstep', ht⟩

/-- An error that is neither of the two is followed by another receive. -/
theorem udp_keeps_receiving_after_error : ∃ s : Client,
    s.socket.datagrams = [⟨vehicle, [7], true⟩] ∧ s.remote = vehicle ∧
      ∃ t, (system .udp tester vehicle).Leads eventsOnly s t ∧ t.socket.datagrams = [] := by
  have hrun : ∃ s, (system .udp tester vehicle).run (fun s a ↦ keepsReceive s a = true)
      [.start .fine, .complete 0 ⟨.success, 0⟩, .handle 0 .fine, .complete 0 ⟨.other 105, 0⟩,
        .datagram vehicle [7]] (constructed tester vehicle false) = some s ∧
      s.socket.datagrams = [⟨vehicle, [7], true⟩] ∧ s.remote = vehicle ∧
      s.socket.isOpen = true ∧ s.socket.history.attached = true ∧
      s.operations.map Operation.completion = [some ⟨.other 105, 0⟩] :=
    ⟨_, rfl, rfl, rfl, rfl, rfl, rfl⟩
  obtain ⟨s, hs, hdatagrams, hremote, hopen, hattached, hcompletions⟩ := hrun
  obtain ⟨o, ho, _, _, htakes⟩ :=
    udp_keeps_receiving (reachable_of_tester_run hs) hopen hattached
  have hrefused : ∀ c, o.completion = some c → c.error ≠ .connectionRefused := by
    intro c hc
    have hmem : o.completion ∈ s.operations.map Operation.completion := List.mem_map_of_mem ho
    rw [hcompletions, List.mem_singleton, hc] at hmem
    rw [Option.some.inj hmem]
    decide
  obtain ⟨t, ht, hrest, _⟩ := htakes _ _ hdatagrams hrefused
  exact ⟨s, hdatagrams, hremote, t, ht, hrest⟩

end Client

end DoipEndpoint
