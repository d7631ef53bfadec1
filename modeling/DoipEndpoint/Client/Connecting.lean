import DoipEndpoint.Client.Effects

/-!
# Connecting means that a connect is under way

Every `connect` issues or posts a `connect_cbk`, but `connect_cbk` itself never
lowers the state.  So an endpoint whose only connect attempt has ended stays in
`CONNECTING`, unless something else had already moved it on.
-/

namespace DoipEndpoint

namespace Client

open TransitionSystem

/-- The `connect_cbk` that are pending or queued, on whatever socket. -/
def outstandingConnects (s : Client) : ℕ := s.operations.countP Operation.isConnect

def ConnectUnderWay (s : Client) : Prop := s.state = .connecting → 0 < s.outstandingConnects

/-- No step ends the last connect in `CONNECTING`, and the three-argument
`send_cbk` enters that state only while a connect is outstanding. -/
def leavesConnecting (s : Client) : Action → Bool
  | .handle i _ =>
      match s.queued i with
      | none => true
      | some (o, _) =>
          !o.isConnect || s.state ≠ .connecting || (s.operations.eraseIdx i).any Operation.isConnect
  | .sendCbk3 error =>
      error = .destinationAddressRequired || error = .operationAborted ||
        s.state = .connecting || s.operations.any Operation.isConnect
  | _ => true

theorem any_isConnect_iff (ops : List Operation) :
    ops.any Operation.isConnect = true ↔ 0 < ops.countP Operation.isConnect := by
  rw [List.any_eq_true, List.countP_pos_iff]

theorem outstandingConnects_of_aborted {s : Client} {ops : List Operation}
    (h : List.Forall₂ Aborted s.operations ops) :
    ops.countP Operation.isConnect = s.outstandingConnects :=
  (InFlight.countP_eq_of_forall₂ h fun _ _ hab ↦ hab.isConnect.symm).symm

theorem outstandingConnects_connectSocket (os : Os) (s : Client) :
    (connectSocket os s).outstandingConnects = s.outstandingConnects + 1 := by
  obtain ⟨target, completion, h⟩ := connectSocket_operations os s
  simp [outstandingConnects, h, Operation.isConnect]

theorem outstandingConnects_receive (p : Protocol) (grows : Bool) (s : Client) :
    (receive p grows s).outstandingConnects = s.outstandingConnects := by
  rcases receive_operations p grows s with h | ⟨length, h⟩ <;>
    simp [outstandingConnects, h, Operation.isConnect]

theorem shutdownAndCloseSocket_false_connects (s : Client) :
    (shutdownAndCloseSocket false s).state = s.state ∧
      (shutdownAndCloseSocket false s).outstandingConnects = s.outstandingConnects := by
  obtain ⟨k, ops, h, _, hops⟩ := shutdownAndCloseSocket_false s
  rw [h]
  exact ⟨rfl, outstandingConnects_of_aborted hops⟩

theorem connectCbk_connects (p : Protocol) (os : Os) (e : ErrorCode) (s : Client) :
    (connectCbk p os e s).state = s.state ∧
      (connectCbk p os e s).outstandingConnects = s.outstandingConnects := by
  by_cases h : e = .operationAborted ∨ s.sendingBlocked = true
  · rw [connectCbk, if_pos h]
    exact shutdownAndCloseSocket_false_connects s
  · obtain ⟨port, hc⟩ := connectCbk_of_not_aborted p os h
    rw [hc, receive_state, outstandingConnects_receive]
    exact ⟨rfl, rfl⟩

theorem sendCbk_connects (p : Protocol) (os : Os) (e : ErrorCode) (s : Client) :
    0 < (sendCbk p os e s).outstandingConnects ∨
      ((sendCbk p os e s).state = s.state ∧
        (sendCbk p os e s).outstandingConnects = s.outstandingConnects) := by
  by_cases hr : Reconnects e = true
  · obtain ⟨ops, _, h⟩ := sendCbk_of_reconnects p os s hr
    rw [h, outstandingConnects_connectSocket]
    exact Or.inl (Nat.succ_pos _)
  · by_cases ha : e = .operationAborted
    · rw [ha, sendCbk_of_aborted]
      exact Or.inr (shutdownAndCloseSocket_false_connects _)
    · obtain ⟨b, h⟩ := sendCbk_of_other p os s (by simpa using hr) ha
      rw [h]
      exact Or.inr ⟨rfl, rfl⟩

theorem receiveCbk_connects (p : Protocol) (e : ErrorCode) (s : Client) :
    (receiveCbk p e s).state = s.state ∧
      (receiveCbk p e s).outstandingConnects = s.outstandingConnects := by
  cases p with
  | tcp => exact ⟨rfl, rfl⟩
  | udp =>
      rw [receiveCbk_udp]
      split_ifs
      · exact ⟨rfl, rfl⟩
      · exact shutdownAndCloseSocket_false_connects s
      · rw [receive_state, outstandingConnects_receive]
        exact ⟨rfl, rfl⟩

theorem outstandingConnects_eraseIdx {s : Client} {i : ℕ} {o : Operation}
    (h : s.operations[i]? = some o) :
    s.outstandingConnects = (s.operations.eraseIdx i).countP Operation.isConnect +
      if o.isConnect then 1 else 0 :=
  InFlight.countP_eraseIdx h Operation.isConnect

/-- A queued handler either issues a connect, or leaves the state and the other
connects as they are. -/
theorem handle_connects {p : Protocol} {i : ℕ} {os : Os} {s t : Client}
    (h : s.handle p i os = some t) : ∃ o c, s.queued i = some (o, c) ∧
      ((o.isConnect = false ∧ 0 < t.outstandingConnects) ∨ (t.state = s.state ∧
        t.outstandingConnects = (s.operations.eraseIdx i).countP Operation.isConnect)) := by
  obtain ⟨o, c, history, hq, rfl⟩ := handle_eq_some h
  refine ⟨o, c, hq, ?_⟩
  unfold dispatch
  cases hh : o.handler with
  | connectCbk target => exact Or.inr (connectCbk_connects p os c.error _)
  | sendCbk message =>
      have hsend : o.isConnect = false := by simp [Operation.isConnect, hh]
      rcases sendCbk_connects p os c.error { s with
        operations := s.operations.eraseIdx i
        socket := { s.socket with history := history } } with hpos | hsame
      · exact Or.inl ⟨hsend, hpos⟩
      · exact Or.inr hsame
  | receiveCbk offset length => exact Or.inr (receiveCbk_connects p c.error _)

theorem connectUnderWay_step {p : Protocol} {s t : Client} {a : Action}
    (hs : ConnectUnderWay s) (h : step p s a = some t)
    (hhandle : ∀ i os, a ≠ .handle i os) (hcbk : ∀ e, a ≠ .sendCbk3 e) : ConnectUnderWay t := by
  cases a with
  | start os =>
      cases Option.some.inj h
      intro _
      rw [start, connect_eq, outstandingConnects_connectSocket]
      exact Nat.succ_pos _
  | stop =>
      cases Option.some.inj h
      obtain ⟨hstate, hcount⟩ := shutdownAndCloseSocket_false_connects s
      rw [ConnectUnderWay, stop, hstate, hcount]
      exact hs
  | setConnected b =>
      cases Option.some.inj h
      obtain ⟨state, hflag, rfl | ⟨_, rfl⟩⟩ := setConnected_cases b s <;> rw [hflag] <;>
        exact fun hc ↦ by simp at hc
  | setEstablished b =>
      cases Option.some.inj h
      obtain ⟨state, hflag, rfl | rfl | ⟨_, rfl⟩⟩ := setEstablished_cases b s <;> rw [hflag]
      · exact hs
      · exact fun hc ↦ by simp at hc
      · exact fun hc ↦ by simp at hc
  | sendData message =>
      cases Option.some.inj h
      rcases sendData_cases p message s with hsend | ⟨completion, isSending, hsend, _⟩ <;>
        rw [hsend]
      · exact hs
      · intro hc
        simpa [outstandingConnects, issue, Operation.isConnect] using hs hc
  | sendCbk3 error => exact absurd rfl (hcbk error)
  | peerSends bytes =>
      obtain ⟨_, rfl⟩ := step_peerSends h
      exact hs
  | datagram sender payload =>
      obtain ⟨_, _, rfl⟩ := step_datagram h
      exact hs
  | complete i c =>
      obtain ⟨o, ho, _, _, _, hf⟩ := complete_eq_some h
      obtain ⟨peer, incoming, datagrams, history, remote, buffer, rfl⟩ := finish_eq_some hf
      intro hc
      have hcount := InFlight.countP_set (b := { o with completion := some c }) ho
        (q := Operation.isConnect) rfl
      simpa only [outstandingConnects, hcount] using hs hc
  | handle i os => exact absurd rfl (hhandle i os)

theorem leavesConnecting_handle {s : Client} {i : ℕ} {os : Os} {o : Operation} {c : Completion}
    (hq : s.queued i = some (o, c)) : leavesConnecting s (.handle i os) = true ↔
      (o.isConnect = true → s.state = .connecting →
        0 < (s.operations.eraseIdx i).countP Operation.isConnect) := by
  rw [← any_isConnect_iff]
  simp only [leavesConnecting, hq, Bool.or_eq_true, Bool.not_eq_eq_eq_not, Bool.not_true,
    decide_eq_true_eq]
  cases o.isConnect <;> simp [← imp_iff_not_or]

theorem sendCbk3_connects (e : ErrorCode) (s : Client) :
    (Tcp.sendCbk3 e s).outstandingConnects = s.outstandingConnects ∧
      (Tcp.sendCbk3 e s).state =
        if e = .destinationAddressRequired ∨ e = .operationAborted then s.state
        else .connecting := by
  unfold Tcp.sendCbk3
  by_cases h₁ : e = .destinationAddressRequired
  · simp only [h₁, ↓reduceIte, true_or, and_true]
    rfl
  · by_cases h₂ : e = .operationAborted
    · simp only [h₂, reduceCtorEq, ↓reduceIte, or_true]
      obtain ⟨hstate, hcount⟩ := shutdownAndCloseSocket_false_connects { s with isSending := false }
      exact ⟨hcount, hstate⟩
    · simp only [h₁, h₂, ↓reduceIte, or_self]
      split_ifs with h₃
      · exact ⟨rfl, h₃⟩
      · obtain ⟨hstate, hcount⟩ := shutdownAndCloseSocket_false_connects
          { s with isSending := false, state := .connecting }
        exact ⟨hcount, hstate⟩

theorem leavesConnecting_sendCbk3 {s : Client} {e : ErrorCode} :
    leavesConnecting s (.sendCbk3 e) = true ↔
      ((if e = .destinationAddressRequired ∨ e = .operationAborted then s.state
        else .connecting) = .connecting → s.state ≠ .connecting → 0 < s.outstandingConnects) := by
  rw [outstandingConnects, ← any_isConnect_iff]
  simp only [leavesConnecting, Bool.or_eq_true, decide_eq_true_eq]
  split_ifs <;> tauto

theorem connectUnderWay_iff {p : Protocol} {s t : Client} {a : Action}
    (hs : ConnectUnderWay s) (hstep : step p s a = some t) :
    ConnectUnderWay t ↔ leavesConnecting s a = true := by
  cases a with
  | handle i os =>
      obtain ⟨o, c, hq, hcases⟩ := handle_connects hstep
      rw [leavesConnecting_handle hq]
      rcases hcases with ⟨hsend, hpos⟩ | ⟨hstate, hcount⟩
      · exact ⟨fun _ h ↦ by simp [hsend] at h, fun _ _ ↦ hpos⟩
      · rw [ConnectUnderWay, hstate, hcount]
        constructor
        · intro h _
          exact h
        · intro h hc
          have hall := outstandingConnects_eraseIdx (queued_eq_some hq).1
          cases ho : o.isConnect with
          | true => exact h ho hc
          | false =>
              have hpos := hs hc
              simp only [ho, Bool.false_eq_true, ↓reduceIte, Nat.add_zero] at hall
              rwa [hall] at hpos
  | sendCbk3 e =>
      obtain ⟨hcount, hstate⟩ := sendCbk3_connects e s
      rw [leavesConnecting_sendCbk3, step_sendCbk3 hstep, ConnectUnderWay, hcount, hstate]
      constructor
      · intro h hc _
        exact h hc
      · intro h hc
        by_cases hcon : s.state = .connecting
        · exact hs hcon
        · exact h hc hcon
  | start | stop | setConnected | setEstablished | sendData | peerSends | datagram | complete =>
      exact ⟨fun _ ↦ rfl, fun _ ↦ connectUnderWay_step hs hstep (by simp) (by simp)⟩

/-- In `CONNECTING` a connect is under way for exactly as long as no connect
attempt ends in that state and no completion handler enters it on its own. -/
theorem connecting_under_way (p : Protocol) (local' remote : Endpoint) :
    (system p local' remote).KeptExactlyBy ConnectUnderWay
      fun s a ↦ leavesConnecting s a = true := by
  refine keptExactlyBy_of_step_iff ?_ fun s a t hs hstep ↦ connectUnderWay_iff hs hstep
  rintro s ⟨isSending, rfl⟩ h
  simp [constructed] at h

/-- After its only connect attempt has succeeded an endpoint is still in
`CONNECTING`, with nothing outstanding but a receive. -/
theorem connected_still_connecting : ¬∀ (p : Protocol) (local' remote : Endpoint) (s : Client),
    (system p local' remote).Reachable anyStep s → ConnectUnderWay s := by
  intro h
  have hrun : (system .tcp tester vehicle).run anyStep
      [.start .fine, .complete 0 ⟨.success, 0⟩, .handle 0 .fine]
      (constructed tester vehicle false) = some _ := rfl
  have hpos := h .tcp tester vehicle _ (reachable_of_tester_run hrun) rfl
  exact absurd hpos (by decide)

end Client

end DoipEndpoint
