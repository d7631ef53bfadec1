import DoipEndpoint.Client.Current

/-!
# Receiving only from a connected peer

`connect_cbk` looks at its error code only to recognise an abort.  With any
other error, or with the result of another socket, it arms a receive on
whatever socket is open.
-/

namespace DoipEndpoint

namespace Client

open TransitionSystem

/-- A receive is outstanding on the current handle only if a connect of that
handle has completed without error. -/
def Attached (s : Client) : Prop := 0 < s.currentReceives → s.socket.peer.isSome = true

/-- A `connect_cbk` with an error issues no receive. -/
def FailureArmsNothing (s : Client) (a : Action) (t : Client) : Prop :=
  ∀ i os o c, a = .handle i os → s.queued i = some (o, c) → o.isConnect = true →
    c.error ≠ .success → t.receivesIssued = s.receivesIssued

/-- A handler that arms a receive finds the socket connected, and is no
`connect_cbk` with an error. -/
def armsAttached (p : Protocol) (s : Client) : Action → Bool
  | .handle i _ =>
      match s.queued i with
      | none => true
      | some (o, c) =>
          !armsReceive p s o c ||
            (s.socket.peer.isSome && (!o.isConnect || c.error = .success))
  | _ => true

theorem Attached.mono {s t : Client} (h : Attached s)
    (hr : t.currentReceives ≤ s.currentReceives)
    (hpeer : t.socket.peer = s.socket.peer ∨ t.socket.peer.isSome = true) : Attached t := by
  intro ht
  rcases hpeer with hpeer | hpeer
  · rw [hpeer]
    exact h (ht.trans_le hr)
  · exact hpeer

theorem Renews.attached {s t : Client} (h : Renews s t) : Attached t := by
  intro ht
  have hnone := h.receives
  omega

theorem attached_handle {p : Protocol} {s t : Client} {i : ℕ} {os : Os} (hs : Owned s)
    (ha : Attached s) (h : s.handle p i os = some t) :
    (Attached t ∧ FailureArmsNothing s (.handle i os) t) ↔
      armsAttached p s (.handle i os) = true := by
  obtain ⟨o, c, hq, hcases⟩ := handle_current hs h
  have hfail : FailureArmsNothing s (.handle i os) t ↔
      (o.isConnect = true → c.error ≠ .success → t.receivesIssued = s.receivesIssued) := by
    constructor
    · intro hf
      exact hf i os o c rfl hq
    · intro hf j os' o' c' hj hq'
      obtain ⟨rfl, rfl⟩ := Action.handle.inj hj
      rw [hq] at hq'
      cases Option.some.inj hq'
      exact hf
  rw [hfail]
  simp only [armsAttached, hq]
  rcases hcases with ⟨_, hpeer, hrec, _, hissued⟩ | ⟨harm, hr, hissued⟩
  · cases harm : armsReceive p s o c with
    | false =>
        have hle : t.currentReceives ≤ s.currentReceives := by
          rw [harm] at hrec
          simp only [Bool.toNat_false, Nat.add_zero] at hrec
          omega
        have hsame : t.receivesIssued = s.receivesIssued := by simpa [harm] using hissued
        exact ⟨fun _ ↦ rfl, fun _ ↦ ⟨ha.mono hle (Or.inl hpeer), fun _ _ ↦ hsame⟩⟩
    | true =>
        have hpos : 0 < t.currentReceives := by
          have htaken : (o.isReceive && decide (o.handle = s.socket.handle)).toNat ≤
              s.currentReceives := by
            rw [currentReceives, current,
              InFlight.countP_eraseIdx (queued_eq_some hq).1]
            cases o.isReceive && decide (o.handle = s.socket.handle) <;> simp
          rw [harm] at hrec
          simp only [Bool.toNat_true] at hrec
          omega
        have hmore : t.receivesIssued ≠ s.receivesIssued := by
          rw [hissued, harm]
          simp
        have hatt : Attached t ↔ s.socket.peer.isSome = true := by
          rw [Attached, hpeer]
          exact ⟨fun ht ↦ ht hpos, fun ht _ ↦ ht⟩
        rw [hatt]
        cases o.isConnect <;> simp [hmore]
  · simp only [harm, Bool.not_false, Bool.true_or, iff_true]
    exact ⟨hr.attached, fun _ _ ↦ hissued⟩

theorem attached_iff {p : Protocol} {s t : Client} {a : Action} (hs : Owned s) (ha : Attached s)
    (hstep : step p s a = some t) :
    (Attached t ∧ FailureArmsNothing s a t) ↔ armsAttached p s a = true := by
  have hother : (∀ i os, a ≠ .handle i os) → Attached t →
      ((Attached t ∧ FailureArmsNothing s a t) ↔ armsAttached p s a = true) := by
    intro hnot ht
    have hguard : armsAttached p s a = true := by
      cases a with
      | handle i os => exact absurd rfl (hnot i os)
      | start | stop | setConnected | setEstablished | sendData | sendCbk3 | peerSends | datagram
      | complete => rfl
    exact ⟨fun _ ↦ hguard, fun _ ↦ ⟨ht, fun i os _ _ h ↦ absurd h (hnot i os)⟩⟩
  cases a with
  | handle i os => exact attached_handle hs ha hstep
  | start os =>
      cases Option.some.inj hstep
      apply hother (by simp)
      rcases start_current hs p os with ⟨_, hpeer, hr, _⟩ | hr
      · exact ha.mono hr.le (Or.inl hpeer)
      · exact hr.attached
  | stop | setConnected | setEstablished | sendData | sendCbk3 | peerSends | datagram | complete =>
      apply hother (by simp)
      obtain ⟨_, hr, _, hpeer⟩ := step_current hs hstep (by simp) (by simp)
      exact ha.mono hr.le hpeer

/-- Receives wait for a connected peer, and a failed `connect_cbk` arms none,
along every run in which each receive is armed on a connected socket by a
handler that is no failed `connect_cbk`; the first other step breaks this. -/
theorem receives_from_peer (p : Protocol) (local' remote : Endpoint) :
    (∀ s, (system p local' remote).Reachable (fun s a ↦ armsAttached p s a = true) s →
      Attached s) ∧
    ∀ s a t, (system p local' remote).Reachable (fun s a ↦ armsAttached p s a = true) s →
      step p s a = some t →
        ((Attached t ∧ FailureArmsNothing s a t) ↔ armsAttached p s a = true) := by
  have hinv : ∀ s, (system p local' remote).Reachable (fun s a ↦ armsAttached p s a = true) s →
      Owned s ∧ Attached s := by
    intro s hs
    apply hs.invariant (I := fun s ↦ Owned s ∧ Attached s)
    · intro s hs
      constructor
      · exact owned_initial hs
      · intro h
        obtain ⟨isSending, rfl⟩ := hs
        simp [currentReceives, current, constructed] at h
    · rintro s a t ⟨ho, ha⟩ hguard hstep
      exact ⟨owned_step (p := p) (a := a) ho hstep,
        ((attached_iff (p := p) (a := a) ho ha hstep).mpr hguard).1⟩
  constructor
  · intro s hs
    exact (hinv s hs).2
  · intro s a t hs hstep
    obtain ⟨ho, ha⟩ := hinv s hs
    exact attached_iff ho ha hstep

/-- A connected client receives from its peer, and a failed `bind` ends the guarded run
of the other one. -/
theorem receives_from_peer_connected : ∃ s u v : Client,
    (system .udp tester vehicle).run (fun s a ↦ armsAttached .udp s a = true)
        [.start .fine, .complete 0 ⟨.success, 0⟩, .handle 0 .fine]
        (constructed tester vehicle false) = some s ∧
      s.currentReceives = 1 ∧ s.socket.peer.isSome = true ∧
      (system .udp tester vehicle).run (fun s a ↦ armsAttached .udp s a = true)
        [.start { Os.fine with bindResult := .other 98 }] (constructed tester vehicle false) =
        some u ∧
      step .udp u (.handle 0 .fine) = some v ∧
      ¬(Attached v ∧ FailureArmsNothing u (.handle 0 .fine) v) := by
  have hconnected : ∃ s, (system .udp tester vehicle).run
      (fun s a ↦ armsAttached .udp s a = true)
      [.start .fine, .complete 0 ⟨.success, 0⟩, .handle 0 .fine]
      (constructed tester vehicle false) = some s ∧ s.currentReceives = 1 := ⟨_, rfl, rfl⟩
  have hfailed : ∃ u v, (system .udp tester vehicle).run
      (fun s a ↦ armsAttached .udp s a = true)
      [.start { Os.fine with bindResult := .other 98 }] (constructed tester vehicle false) =
      some u ∧ step .udp u (.handle 0 .fine) = some v ∧
      armsAttached .udp u (.handle 0 .fine) = false := ⟨_, _, rfl, rfl, rfl⟩
  obtain ⟨s, hs, hone⟩ := hconnected
  obtain ⟨u, v, hu, hv, hguard⟩ := hfailed
  obtain ⟨hattached, hexact⟩ := receives_from_peer .udp tester vehicle
  have hpeer := hattached s (reachable_of_run ⟨false, rfl⟩ hs) (by omega)
  refine ⟨s, u, v, hs, hone, hpeer, hu, hv, ?_⟩
  rw [hexact u _ v (reachable_of_run ⟨false, rfl⟩ hu) hv, hguard]
  exact Bool.false_ne_true

/-- After `bind` has failed, `connect_cbk` arms a receive all the same. -/
theorem failed_bind_receives : ¬∀ (p : Protocol) (local' remote : Endpoint) (s : Client),
    (system p local' remote).Reachable anyStep s → Attached s := by
  intro h
  have hrun : (system .udp tester vehicle).run anyStep
      [.start { Os.fine with bindResult := .other 98 }, .handle 0 .fine]
      (constructed tester vehicle false) = some _ := rfl
  have hpeer := h .udp tester vehicle _ (reachable_of_tester_run hrun) (by decide)
  exact absurd hpeer (by decide)

end Client

end DoipEndpoint
