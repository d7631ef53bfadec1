import DoipEndpoint.Client.Effects

/-!
# The peer of a UDP client

`remote_` is declared const, but a receive stores the sender of the datagram in
it.  A socket that is bound and not yet connected receives from any sender, so
`remote_` stays as constructed exactly as long as no receive takes a datagram of
another sender that arrived before the connect had succeeded.
-/

namespace DoipEndpoint

namespace Client

open TransitionSystem

/-- `remote_` and the targets of the outstanding connects are `remote`. -/
structure RemoteFixed (remote : Endpoint) (s : Client) : Prop where
  stored : s.remote = remote
  targets : ∀ o ∈ s.operations, ∀ q, o.handler = .connectCbk (some q) → q = remote

/-- A receive that completes without error takes a datagram that arrived on the
connected socket, or that comes from `remote`. -/
def takesFrom (remote : Endpoint) (s : Client) : Action → Bool
  | .complete i c =>
      match s.operations[i]?, s.socket.datagrams with
      | some o, d :: _ =>
          !o.isReceive || c.error ≠ .success || d.filtered || d.sender = remote
      | _, _ => true
  | _ => true

/-- The invariant that carries the fixed peer: the kernel knows no other. -/
structure PeerFixed (remote : Endpoint) (s : Client) : Prop where
  fixed : RemoteFixed remote s
  peer : ∀ q, s.socket.peer = some q → q = remote
  filtered : ∀ d ∈ s.socket.datagrams, d.filtered = true → d.sender = remote

variable {remote : Endpoint} {s : Client}

theorem PeerFixed.issue (h : PeerFixed remote s) {handler : Handler}
    {completion : Option Completion} (hh : ∀ q, handler = .connectCbk (some q) → q = remote) :
    PeerFixed remote (s.issue handler completion) := by
  refine ⟨⟨h.fixed.stored, fun o ho q hq ↦ ?_⟩, h.peer, h.filtered⟩
  rcases List.mem_append.mp ho with ho | ho
  · exact h.fixed.targets o ho q hq
  · rw [List.mem_singleton.mp ho] at hq
    exact hh q hq

theorem PeerFixed.withSocket (h : PeerFixed remote s) {k : Socket} {ops : List Operation}
    (hpeer : k.peer = s.socket.peer ∨ k.peer = none) (hd : k.datagrams ⊆ s.socket.datagrams)
    (hops : List.Forall₂ Aborted s.operations ops) :
    PeerFixed remote { s with socket := k, operations := ops } := by
  refine ⟨⟨h.fixed.stored, fun o ho q hq ↦ ?_⟩, fun q hq ↦ ?_,
    fun d hd' ↦ h.filtered d (hd hd')⟩
  · obtain ⟨o', ho', hab⟩ := InFlight.exists_of_forall₂_mem hops ho
    exact h.fixed.targets o' ho' q (hab.1 ▸ hq)
  · rcases hpeer with hpeer | hpeer
    · exact h.peer q (hpeer ▸ hq)
    · exact absurd (hpeer ▸ hq) (by simp)

theorem PeerFixed.shutdownAndCloseSocket (h : PeerFixed remote s) :
    PeerFixed remote (shutdownAndCloseSocket false s) := by
  obtain ⟨k, ops, hclosed, hk, hops⟩ := shutdownAndCloseSocket_false s
  rw [hclosed]
  have hs := h.withSocket (Or.inl hk.peer) hk.datagrams hops
  exact ⟨⟨hs.fixed.stored, hs.fixed.targets⟩, hs.peer, hs.filtered⟩

theorem PeerFixed.connectSocket (h : PeerFixed remote s) (os : Os) :
    PeerFixed remote (connectSocket os s) := by
  have hrefl : List.Forall₂ Aborted s.operations s.operations :=
    List.forall₂_same.mpr fun o _ ↦ Aborted.refl o
  have hattempt : ∀ k, s.socket.Attempt os k → ∀ port,
      PeerFixed remote { s with socket := { k with bound := port } } := by
    rintro k (⟨_, rfl⟩ | ⟨_, _, rfl⟩) port
    · exact h.withSocket (Or.inl rfl) (List.Subset.refl _) hrefl
    · exact h.withSocket (Or.inr rfl) (List.nil_subset _) hrefl
  rcases connectSocket_cases os s with ⟨_, _, e, _, hc⟩ | ⟨k, e, hk, _, hc⟩ |
    ⟨k, port, hk, _, hc⟩ <;> rw [hc]
  · exact h.issue (by simp)
  · exact (hattempt k hk k.bound).issue (by simp)
  · have hi : PeerFixed remote (Client.issue (.connectCbk (some s.remote)) none { s with
        socket := { k with bound := some port } }) :=
      (hattempt k hk (some port)).issue fun q hq ↦ by simpa [h.fixed.stored] using hq.symm
    exact ⟨⟨hi.fixed.stored, hi.fixed.targets⟩, hi.peer, hi.filtered⟩

theorem PeerFixed.receive (h : PeerFixed remote s) (p : Protocol) (grows : Bool) :
    PeerFixed remote (receive p grows s) := by
  by_cases hopen : s.socket.isOpen = true
  · obtain ⟨length, buffer, count, hr⟩ := receive_of_open p grows hopen
    have hi : PeerFixed remote (s.issue (.receiveCbk 0 length) none) := h.issue (by simp)
    rw [hr]
    exact ⟨⟨hi.fixed.stored, hi.fixed.targets⟩, hi.peer, hi.filtered⟩
  · rwa [receive_of_closed p grows (by simpa using hopen)]

theorem PeerFixed.connectCbk (h : PeerFixed remote s) (p : Protocol) (os : Os) (e : ErrorCode) :
    PeerFixed remote (connectCbk p os e s) := by
  by_cases he : e = .operationAborted ∨ s.sendingBlocked = true
  · rw [Client.connectCbk, if_pos he]
    exact h.shutdownAndCloseSocket
  · obtain ⟨port, hc⟩ := connectCbk_of_not_aborted p os he
    rw [hc]
    refine PeerFixed.receive ?_ p os.grows
    exact ⟨⟨h.fixed.stored, h.fixed.targets⟩, h.peer, h.filtered⟩

theorem PeerFixed.sendCbk (h : PeerFixed remote s) (p : Protocol) (os : Os) (e : ErrorCode) :
    PeerFixed remote (sendCbk p os e s) := by
  by_cases hr : Reconnects e = true
  · obtain ⟨ops, hops, hsend⟩ := sendCbk_of_reconnects p os s hr
    have hs := h.withSocket (k := .closed (s.socket.object + 1) (s.socket.handle + 1))
      (Or.inr rfl) (List.nil_subset _) hops
    rw [hsend]
    refine PeerFixed.connectSocket ?_ os
    exact ⟨⟨hs.fixed.stored, hs.fixed.targets⟩, hs.peer, hs.filtered⟩
  · by_cases ha : e = .operationAborted
    · rw [ha, sendCbk_of_aborted]
      apply PeerFixed.shutdownAndCloseSocket
      exact ⟨⟨h.fixed.stored, h.fixed.targets⟩, h.peer, h.filtered⟩
    · obtain ⟨b, hsend⟩ := sendCbk_of_other p os s (by simpa using hr) ha
      rw [hsend]
      exact ⟨⟨h.fixed.stored, h.fixed.targets⟩, h.peer, h.filtered⟩

theorem PeerFixed.receiveCbk (h : PeerFixed remote s) (p : Protocol) (e : ErrorCode) :
    PeerFixed remote (receiveCbk p e s) := by
  cases p with
  | tcp => exact h
  | udp =>
      rw [receiveCbk_udp]
      split_ifs
      · exact h
      · exact h.shutdownAndCloseSocket
      · exact h.receive .udp true

theorem PeerFixed.handle {p : Protocol} {i : ℕ} {os : Os} {t : Client} (h : PeerFixed remote s)
    (hstep : s.handle p i os = some t) : PeerFixed remote t := by
  obtain ⟨o, c, history, _, rfl⟩ := handle_eq_some hstep
  have hs : PeerFixed remote { s with
      operations := s.operations.eraseIdx i
      socket := { s.socket with history := history } } :=
    ⟨⟨h.fixed.stored, fun o ho ↦ h.fixed.targets o (List.mem_of_mem_eraseIdx ho)⟩,
      h.peer, h.filtered⟩
  unfold dispatch
  split
  · exact hs.connectCbk p os c.error
  · exact hs.sendCbk p os c.error
  · exact hs.receiveCbk p c.error

/-- A completion keeps the peer fixed if a receive takes its datagram from
`remote`, and no other way. -/
theorem PeerFixed.complete_iff {i : ℕ} {c : Completion} {t : Client} (h : PeerFixed remote s)
    (hstep : s.complete .udp i c = some t) :
    (RemoteFixed remote t ↔ takesFrom remote s (.complete i c) = true) ∧
      (takesFrom remote s (.complete i c) = true → PeerFixed remote t) := by
  obtain ⟨o, ho, _, _, _, hf⟩ := complete_eq_some hstep
  have htargets : ∀ a ∈ s.operations.set i { o with completion := some c }, ∀ q,
      a.handler = .connectCbk (some q) → q = remote := by
    intro a ha q hq
    rcases List.mem_or_eq_of_mem_set ha with ha | rfl
    · exact h.fixed.targets a ha q hq
    · exact h.fixed.targets o (List.mem_of_getElem? ho) q hq
  have hkept : PeerFixed remote t → takesFrom remote s (.complete i c) = true →
      (RemoteFixed remote t ↔ takesFrom remote s (.complete i c) = true) ∧
        (takesFrom remote s (.complete i c) = true → PeerFixed remote t) :=
    fun ht hg ↦ ⟨⟨fun _ ↦ hg, fun _ ↦ ht.fixed⟩, fun _ ↦ ht⟩
  cases hh : o.handler with
  | connectCbk target =>
      have hguard : takesFrom remote s (.complete i c) = true := by
        simp only [takesFrom, ho]
        split <;> simp_all [Operation.isReceive]
      refine hkept ?_ hguard
      rcases finish_connect hh hf with ⟨_, rfl⟩ | ⟨_, rfl⟩
      · refine ⟨⟨h.fixed.stored, htargets⟩, fun q hq ↦ ?_, h.filtered⟩
        exact h.fixed.targets o (List.mem_of_getElem? ho) q (hh.trans (congrArg _ hq))
      · exact ⟨⟨h.fixed.stored, htargets⟩, h.peer, h.filtered⟩
  | sendCbk message =>
      have hguard : takesFrom remote s (.complete i c) = true := by
        simp only [takesFrom, ho]
        split <;> simp_all [Operation.isReceive]
      cases finish_send hh hf
      exact hkept ⟨⟨h.fixed.stored, htargets⟩, h.peer, h.filtered⟩ hguard
  | receiveCbk offset length =>
      rcases finish_receive_udp hh hf with ⟨he, d, rest, hd, rfl⟩ | ⟨he, rfl⟩
      · simp only at hd
        have hsender : takesFrom remote s (.complete i c) = true ↔ d.sender = remote := by
          have hfrom := h.filtered d (hd ▸ List.mem_cons_self)
          simp only [takesFrom, ho, hd, he, Operation.isReceive, hh]
          cases hfil : d.filtered with
          | true => simp [hfrom hfil]
          | false => simp
        rw [hsender]
        refine ⟨⟨fun ht ↦ ht.stored, fun hs ↦ ⟨hs, htargets⟩⟩, fun hs ↦ ?_⟩
        exact ⟨⟨hs, htargets⟩, h.peer,
          fun d' hd' ↦ h.filtered d' (hd ▸ List.mem_cons_of_mem _ hd')⟩
      · have hguard : takesFrom remote s (.complete i c) = true := by
          simp only [takesFrom, ho]
          split <;> simp_all
        exact hkept ⟨⟨h.fixed.stored, htargets⟩, h.peer, h.filtered⟩ hguard

theorem PeerFixed.step {t : Client} {a : Action} (h : PeerFixed remote s)
    (hstep : step .udp s a = some t) (hcomplete : ∀ i c, a ≠ .complete i c) :
    PeerFixed remote t := by
  cases a with
  | start os =>
      cases Option.some.inj hstep
      rw [start, connect_eq]
      exact h.connectSocket os
  | stop =>
      cases Option.some.inj hstep
      exact h.shutdownAndCloseSocket
  | setConnected b =>
      cases Option.some.inj hstep
      obtain ⟨state, hflag, _⟩ := setConnected_cases b s
      rw [hflag]
      exact ⟨⟨h.fixed.stored, h.fixed.targets⟩, h.peer, h.filtered⟩
  | setEstablished b =>
      cases Option.some.inj hstep
      obtain ⟨state, hflag, _⟩ := setEstablished_cases b s
      rw [hflag]
      exact ⟨⟨h.fixed.stored, h.fixed.targets⟩, h.peer, h.filtered⟩
  | sendData message =>
      cases Option.some.inj hstep
      exact h.issue (by simp)
  | sendCbk3 e => simp [Client.step] at hstep
  | peerSends bytes => simp [Client.step] at hstep
  | datagram sender payload =>
      obtain ⟨_, hfrom, rfl⟩ := step_datagram hstep
      refine ⟨⟨h.fixed.stored, h.fixed.targets⟩, h.peer, fun d hmem hfil ↦ ?_⟩
      rcases List.mem_append.mp hmem with hmem | hmem
      · exact h.filtered d hmem hfil
      · rw [List.mem_singleton.mp hmem] at hfil ⊢
        rcases hfrom with hpeer | hpeer
        · simp [hpeer] at hfil
        · exact h.peer sender hpeer
  | complete i c => exact absurd rfl (hcomplete i c)
  | handle i os => exact h.handle hstep

/-- The peer of a UDP client is fixed for exactly as long as no receive takes a
stranger's datagram that arrived before the connect had succeeded. -/
theorem remote_fixed (local' remote : Endpoint) :
    (system .udp local' remote).KeptExactlyBy (RemoteFixed remote)
      fun s a ↦ takesFrom remote s a = true := by
  have hboth : ∀ s a t, PeerFixed remote s → Client.step .udp s a = some t →
      (RemoteFixed remote t ↔ takesFrom remote s a = true) ∧
        (takesFrom remote s a = true → PeerFixed remote t) := by
    intro s a t h hstep
    cases a with
    | complete i c => exact h.complete_iff hstep
    | start | stop | setConnected | setEstablished | sendData | sendCbk3 | peerSends | datagram
    | handle =>
        have ht : PeerFixed remote t := h.step hstep (by simp)
        exact ⟨⟨fun _ ↦ rfl, fun _ ↦ ht.fixed⟩, fun _ ↦ ht⟩
  refine keptExactlyBy_of_invariant (I := PeerFixed remote) ?_ ?_ (fun _ h ↦ h.fixed) ?_
  · rintro s ⟨isSending, rfl⟩
    refine ⟨⟨rfl, ?_⟩, ?_, ?_⟩ <;> simp [constructed, Socket.closed]
  · exact fun s a t h hg hstep ↦ (hboth s a t h hstep).2 hg
  · exact fun s a t h hstep ht ↦ (hboth s a t h hstep).1.mp ht

def stranger : Endpoint := ⟨.v4 0xc0a80063#32, 13400⟩

/-- A stranger's datagram before the connect turns the client to the stranger:
the next send error connects there. -/
theorem connects_to_stranger : ¬∀ (local' remote : Endpoint) (s : Client),
    (system .udp local' remote).Reachable anyStep s → RemoteFixed remote s := by
  intro h
  have hrun : (system .udp tester vehicle).run anyStep
      [.start .fine, .datagram stranger [0x02], .complete 0 ⟨.success, 0⟩, .handle 0 .fine,
        .complete 0 ⟨.success, 1⟩, .handle 0 .fine, .sendData [0x02], .complete 1 ⟨.brokenPipe, 0⟩,
        .handle 1 .fine]
      (constructed tester vehicle false) = some _ := rfl
  have hfixed := h tester vehicle _ (reachable_of_tester_run hrun)
  exact absurd hfixed.stored (by decide)

end Client

end DoipEndpoint
