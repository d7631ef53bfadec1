import DoipEndpoint.Client.Current

/-!
# One receive on a socket

A connect and the receive that it leads to are one token on the native handle:
`connect_cbk` turns the connect into a receive, the UDP `receive_cbk` renews
the receive.  A handler of another handle adds a second token.
-/

namespace DoipEndpoint

namespace Client

open TransitionSystem

/-- `start` is called only on a closed socket with nothing outstanding. -/
def calmStart (s : Client) : Action → Bool
  | .start _ => !s.socket.isOpen && s.operations.isEmpty
  | _ => true

/-- A handler arms a receive only on its own handle, or where neither a connect
nor a receive is outstanding. -/
def armsOwn (p : Protocol) (s : Client) : Action → Bool
  | .handle i _ =>
      match s.queued i with
      | none => true
      | some (o, c) =>
          !armsReceive p s o c || o.handle = s.socket.handle ||
            s.currentConnects + s.currentReceives = 0
  | _ => true

/-- At most one connect or receive is outstanding on the current handle. -/
def OneToken (s : Client) : Prop := s.currentConnects + s.currentReceives ≤ 1

theorem Renews.oneToken {s t : Client} (h : Renews s t) : OneToken t := by
  have hr := h.receives
  have hc := h.connects
  simp only [OneToken]
  omega

theorem oneToken_handle {p : Protocol} {s t : Client} {i : ℕ} {os : Os} (hs : Owned s)
    (h : OneToken s) (hguard : armsOwn p s (.handle i os) = true)
    (hstep : s.handle p i os = some t) : OneToken t := by
  obtain ⟨o, c, hq, hcases⟩ := handle_current hs hstep
  simp only [armsOwn, hq] at hguard
  rcases hcases with ⟨_, _, hrec, hcon, _⟩ | ⟨_, hr, _⟩
  · simp only [OneToken] at h ⊢
    cases harm : armsReceive p s o c with
    | false =>
        simp only [harm, Bool.toNat_false, Nat.add_zero] at hrec
        omega
    | true =>
        simp only [harm, Bool.toNat_true] at hrec
        by_cases hown : o.handle = s.socket.handle
        · -- The handler gives its own token back before it takes the new one.
          have hkind : o.isReceive = true ∨ o.isConnect = true := by
            cases hh : o.handler with
            | connectCbk target => exact Or.inr (by simp [Operation.isConnect, hh])
            | sendCbk message => simp [armsReceive, hh] at harm
            | receiveCbk offset length => exact Or.inl (by simp [Operation.isReceive, hh])
          rcases hkind with hk | hk
          · simp only [hk, hown, decide_true, Bool.and_self, Bool.toNat_true] at hrec
            omega
          · simp only [hk, hown, decide_true, Bool.and_self, Bool.toNat_true] at hcon
            omega
        · have hnone : s.currentConnects + s.currentReceives = 0 := by
            simpa [harm, hown] using hguard
          omega
  · exact hr.oneToken

theorem oneToken_step {p : Protocol} {s t : Client} {a : Action} (hs : Owned s) (h : OneToken s)
    (hcalm : calmStart s a = true) (hguard : armsOwn p s a = true)
    (hstep : step p s a = some t) : OneToken t := by
  cases a with
  | handle i os => exact oneToken_handle hs h hguard hstep
  | start os =>
      cases Option.some.inj hstep
      have hidle : s.operations = [] := by
        simp only [calmStart, Bool.and_eq_true, List.isEmpty_iff] at hcalm
        exact hcalm.2
      rcases start_current hs p os with ⟨_, _, hr, hc⟩ | hr
      · have hr₀ : s.currentReceives = 0 := by simp [currentReceives, current, hidle]
        have hc₀ : s.currentConnects = 0 := by simp [currentConnects, current, hidle]
        simp only [OneToken]
        omega
      · exact hr.oneToken
  | stop | setConnected | setEstablished | sendData | sendCbk3 | peerSends | datagram | complete =>
      obtain ⟨_, hr, hc, _⟩ := step_current hs hstep (by simp) (by simp)
      simpa [OneToken, hr, hc] using h

/-- When `start` is called calmly, at most one receive is outstanding on the
current socket in every state of a run in which no handler of another handle
arms a receive beside a connect or a receive. -/
theorem at_most_one_receive (p : Protocol) (local' remote : Endpoint) (s : Client)
    (h : (system p local' remote).Reachable
      (fun s a ↦ calmStart s a = true ∧ armsOwn p s a = true) s) : s.currentReceives ≤ 1 := by
  have hinv : Owned s ∧ OneToken s := by
    apply h.invariant (I := fun s ↦ Owned s ∧ OneToken s)
    · intro s hs
      constructor
      · exact owned_initial hs
      · obtain ⟨isSending, rfl⟩ := hs
        simp [OneToken, currentReceives, currentConnects, current, constructed]
    · rintro s a t ⟨ho, ht⟩ ⟨hcalm, hguard⟩ hstep
      exact ⟨owned_step (p := p) (a := a) ho hstep, oneToken_step ho ht hcalm hguard hstep⟩
  have htoken := hinv.2
  simp only [OneToken] at htoken
  omega

/-- A connection that is lost and replaced keeps to the one receive. -/
theorem at_most_one_receive_reconnect : ∃ s,
    (system .tcp tester vehicle).run
      (fun s a ↦ calmStart s a = true ∧ armsOwn .tcp s a = true)
      [.start .fine, .complete 0 ⟨.success, 0⟩, .handle 0 .fine, .sendData [0x02],
        .complete 1 ⟨.brokenPipe, 0⟩, .handle 1 .fine, .complete 1 ⟨.success, 0⟩, .handle 1 .fine]
      (constructed tester vehicle false) = some s ∧ s.currentReceives ≤ 1 := by
  have hrun : ∃ s, (system .tcp tester vehicle).run
      (fun s a ↦ calmStart s a = true ∧ armsOwn .tcp s a = true)
      [.start .fine, .complete 0 ⟨.success, 0⟩, .handle 0 .fine, .sendData [0x02],
        .complete 1 ⟨.brokenPipe, 0⟩, .handle 1 .fine, .complete 1 ⟨.success, 0⟩, .handle 1 .fine]
      (constructed tester vehicle false) = some s := ⟨_, rfl⟩
  obtain ⟨s, hs⟩ := hrun
  exact ⟨s, hs, at_most_one_receive .tcp tester vehicle s (reachable_of_tester_run hs)⟩

/-- A send fails before the handler of the first connect has run, and both
connects arm a receive on the second socket. -/
theorem two_receives : ¬∀ (p : Protocol) (local' remote : Endpoint) (s : Client),
    (system p local' remote).Reachable (fun s a ↦ calmStart s a = true) s →
      s.currentReceives ≤ 1 := by
  intro h
  have hrun : (system .tcp tester vehicle).run (fun s a ↦ calmStart s a = true)
      [.start .fine, .sendData [0x02], .complete 0 ⟨.success, 0⟩, .complete 1 ⟨.brokenPipe, 0⟩,
        .handle 1 .fine, .handle 0 .fine, .complete 0 ⟨.success, 0⟩, .handle 0 .fine]
      (constructed tester vehicle false) = some _ := rfl
  exact absurd (h .tcp tester vehicle _ (reachable_of_tester_run hrun)) (by decide)

end Client

end DoipEndpoint
