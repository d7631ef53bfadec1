import DoipEndpoint.Client.Ownership

/-!
# The operations on the current native handle

A step either keeps the native handle, and then a receive is added only by a
handler that arms one, or replaces it by a handle without any receive.
-/

namespace DoipEndpoint

namespace Client

open TransitionSystem

/-- The operations of one kind that are outstanding on the current handle. -/
def current (q : Operation → Bool) (s : Client) : ℕ :=
  s.operations.countP fun o ↦ q o && o.handle = s.socket.handle

def currentReceives (s : Client) : ℕ := s.current Operation.isReceive

def currentConnects (s : Client) : ℕ := s.current Operation.isConnect

def armsReceive (p : Protocol) (s : Client) (o : Operation) (c : Completion) : Bool :=
  s.socket.isOpen &&
    match o.handler with
    | .connectCbk _ => c.error ≠ .operationAborted && !s.sendingBlocked
    | .sendCbk _ => false
    | .receiveCbk _ _ =>
        p = .udp && c.error ≠ .operationAborted && c.error ≠ .connectionRefused

/-- The handle is kept, and a receive is added on it if `armed`. -/
structure Keeps (s t : Client) (armed : Bool) : Prop where
  handle : t.socket.handle = s.socket.handle
  peer : t.socket.peer = s.socket.peer
  receives : t.currentReceives = s.currentReceives + armed.toNat
  connects : t.currentConnects = s.currentConnects
  issued : t.receivesIssued = s.receivesIssued + armed.toNat

/-- The handle is replaced, and at most a connect is outstanding on the new one. -/
structure Renews (s t : Client) : Prop where
  handle : s.socket.handle < t.socket.handle
  peer : t.socket.peer = none
  receives : t.currentReceives = 0
  connects : t.currentConnects ≤ 1

theorem Keeps.refl (s : Client) : Keeps s s false := ⟨rfl, rfl, rfl, rfl, rfl⟩

theorem current_append {s t : Client} {o : Operation}
    (hops : t.operations = s.operations ++ [o]) (ho : o.handle = s.socket.handle)
    (hh : t.socket.handle = s.socket.handle) (q : Operation → Bool) :
    t.current q = s.current q + (q o).toNat := by
  rw [current, hops, hh, List.countP_append]
  cases hq : q o <;> simp [current, hq, ho]

theorem current_aborted {s : Client} {k : Socket} {ops : List Operation}
    (hk : k.handle = s.socket.handle) (hops : List.Forall₂ Aborted s.operations ops) :
    ops.countP (fun o ↦ o.isReceive && o.handle = k.handle) = s.currentReceives ∧
      ops.countP (fun o ↦ o.isConnect && o.handle = k.handle) = s.currentConnects := by
  rw [hk]
  constructor
  · refine (InFlight.countP_eq_of_forall₂ hops fun o o' h ↦ ?_).symm
    rw [h.isReceive, h.2.2.1]
  · refine (InFlight.countP_eq_of_forall₂ hops fun o o' h ↦ ?_).symm
    rw [h.isConnect, h.2.2.1]

theorem keeps_shutdownAndCloseSocket (s : Client) :
    Keeps s (shutdownAndCloseSocket false s) false := by
  obtain ⟨k, ops, h, hk, hops⟩ := shutdownAndCloseSocket_false s
  obtain ⟨hr, hc⟩ := current_aborted hk.handle hops
  rw [h]
  exact ⟨hk.handle, hk.peer, hr, hc, rfl⟩

theorem keeps_asyncReceive (offset length : ℕ) (s : Client) :
    Keeps s (asyncReceive offset length s) true := by
  have hcount := current_append (s := s) (t := asyncReceive offset length s) rfl rfl rfl
  exact ⟨rfl, rfl, hcount Operation.isReceive, hcount Operation.isConnect, rfl⟩

theorem keeps_receive (p : Protocol) (grows : Bool) (s : Client) :
    Keeps s (receive p grows s) s.socket.isOpen := by
  cases hopen : s.socket.isOpen with
  | false =>
      rw [receive_of_closed p grows hopen]
      exact Keeps.refl s
  | true =>
      obtain ⟨length, buffer, count, hr⟩ := receive_of_open p grows hopen
      rw [hr]
      have h := keeps_asyncReceive 0 length { s with recvBuffer := buffer, shrinkCount := count }
      exact ⟨h.handle, h.peer, h.receives, h.connects, h.issued⟩

theorem keeps_connectCbk (p : Protocol) (os : Os) (e : ErrorCode) (s : Client) :
    Keeps s (connectCbk p os e s)
      (s.socket.isOpen && (e ≠ .operationAborted && !s.sendingBlocked)) := by
  by_cases he : e = .operationAborted ∨ s.sendingBlocked = true
  · have hnone : (s.socket.isOpen && (e ≠ .operationAborted && !s.sendingBlocked)) = false := by
      rcases he with he | he <;> simp [he]
    rw [connectCbk, if_pos he, hnone]
    exact keeps_shutdownAndCloseSocket s
  · have harm : (s.socket.isOpen && (e ≠ .operationAborted && !s.sendingBlocked)) =
        s.socket.isOpen := by
      rw [not_or] at he
      simp [he.1, he.2]
    obtain ⟨port, hc⟩ := connectCbk_of_not_aborted p os he
    have h := keeps_receive p os.grows { s with localPort := port, wasNotConnected := false }
    rw [hc, harm]
    exact ⟨h.handle, h.peer, h.receives, h.connects, h.issued⟩

theorem keeps_receiveCbk (p : Protocol) (e : ErrorCode) (s : Client) :
    Keeps s (receiveCbk p e s)
      (s.socket.isOpen && (p = .udp && e ≠ .operationAborted && e ≠ .connectionRefused)) := by
  cases p with
  | tcp => simpa [receiveCbk_tcp] using Keeps.refl s
  | udp =>
      rw [receiveCbk_udp]
      split_ifs with h₁ h₂
      · simpa [h₁] using Keeps.refl s
      · simpa [h₂] using keeps_shutdownAndCloseSocket s
      · simpa [h₁, h₂] using keeps_receive .udp true s

/-- No operation is on a handle that is yet to come, so on a new handle only
the connect can be outstanding. -/
theorem renews_of_fresh {s t : Client} (hfresh : ∀ o ∈ s.operations, o.handle ≤ s.socket.handle)
    {ops : List Operation} (hops : List.Forall₂ Aborted s.operations ops)
    (hhandle : s.socket.handle < t.socket.handle) (hpeer : t.socket.peer = none)
    {target : Option Endpoint} {completion : Option Completion}
    (ht : t.operations = ops ++
      [⟨.connectCbk target, t.socket.object, t.socket.handle, completion⟩]) : Renews s t := by
  have hnone : ∀ q : Operation → Bool,
      ops.countP (fun o ↦ q o && o.handle = t.socket.handle) = 0 := by
    intro q
    apply List.countP_eq_zero.mpr
    intro o ho
    obtain ⟨o', ho', hab⟩ := InFlight.exists_of_forall₂_mem hops ho
    have hle : o.handle ≤ s.socket.handle := hab.2.2.1 ▸ hfresh o' ho'
    have hne : o.handle ≠ t.socket.handle := by omega
    simp [hne]
  refine ⟨hhandle, hpeer, ?_, ?_⟩
  · rw [currentReceives, current, ht, List.countP_append, hnone]
    simp [Operation.isReceive]
  · rw [currentConnects, current, ht, List.countP_append, hnone]
    simp [Operation.isConnect]

theorem connectSocket_handle (os : Os) (s : Client) :
    ((connectSocket os s).socket.handle = s.socket.handle ∧
      (connectSocket os s).socket.peer = s.socket.peer) ∨
    (s.socket.handle < (connectSocket os s).socket.handle ∧
      (connectSocket os s).socket.peer = none) := by
  have hattempt : ∀ k, s.socket.Attempt os k → (k.handle = s.socket.handle ∧
      k.peer = s.socket.peer) ∨ (s.socket.handle < k.handle ∧ k.peer = none) := by
    rintro k (⟨_, rfl⟩ | ⟨_, _, rfl⟩)
    · exact Or.inl ⟨rfl, rfl⟩
    · exact Or.inr ⟨Nat.lt_succ_self _, rfl⟩
  rcases connectSocket_cases os s with ⟨_, _, e, _, h⟩ | ⟨k, e, hk, _, h⟩ | ⟨k, port, hk, _, h⟩ <;>
    rw [h]
  · exact Or.inl ⟨rfl, rfl⟩
  · exact hattempt k hk
  · exact hattempt k hk

theorem connectSocket_receivesIssued (os : Os) (s : Client) :
    (connectSocket os s).receivesIssued = s.receivesIssued := by
  rcases connectSocket_cases os s with ⟨_, _, e, _, h⟩ | ⟨k, e, _, _, h⟩ | ⟨k, port, _, _, h⟩ <;>
    rw [h] <;> rfl

theorem start_current {s : Client} (hs : Owned s) (p : Protocol) (os : Os) :
    ((start p os s).socket.handle = s.socket.handle ∧
      (start p os s).socket.peer = s.socket.peer ∧
      (start p os s).currentReceives = s.currentReceives ∧
      (start p os s).currentConnects = s.currentConnects + 1) ∨
    Renews s (start p os s) := by
  rw [start, connect_eq]
  obtain ⟨target, completion, hops⟩ := connectSocket_operations os s
  rcases connectSocket_handle os s with ⟨hhandle, hpeer⟩ | ⟨hhandle, hpeer⟩
  · have hcount := current_append hops hhandle hhandle
    exact Or.inl ⟨hhandle, hpeer, hcount Operation.isReceive, hcount Operation.isConnect⟩
  · have hrefl : List.Forall₂ Aborted s.operations s.operations :=
      List.forall₂_same.mpr fun o _ ↦ Aborted.refl o
    exact Or.inr (renews_of_fresh hs.fresh hrefl hhandle hpeer hops)

theorem sendCbk_current {s : Client} (hs : Owned s) (p : Protocol) (os : Os) (e : ErrorCode) :
    Keeps s (sendCbk p os e s) false ∨
      (Renews s (sendCbk p os e s) ∧ (sendCbk p os e s).receivesIssued = s.receivesIssued) := by
  by_cases hr : Reconnects e = true
  · obtain ⟨ops, hab, hsend⟩ := sendCbk_of_reconnects p os s hr
    rw [hsend]
    refine Or.inr ⟨?_, connectSocket_receivesIssued _ _⟩
    obtain ⟨target, completion, hops⟩ := connectSocket_operations os { s with
      state := .closed
      wasNotConnected := true
      localPort := 0
      socket := .closed (s.socket.object + 1) (s.socket.handle + 1)
      operations := ops }
    rcases connectSocket_handle os { s with
      state := .closed
      wasNotConnected := true
      localPort := 0
      socket := .closed (s.socket.object + 1) (s.socket.handle + 1)
      operations := ops } with ⟨hhandle, hpeer⟩ | ⟨hhandle, hpeer⟩
    · exact renews_of_fresh hs.fresh hab (hhandle ▸ Nat.lt_succ_self _) hpeer hops
    · exact renews_of_fresh hs.fresh hab ((Nat.lt_succ_self _).trans hhandle) hpeer hops
  · by_cases ha : e = .operationAborted
    · have h := keeps_shutdownAndCloseSocket { s with sendingBlocked := true }
      rw [ha, sendCbk_of_aborted]
      exact Or.inl ⟨h.handle, h.peer, h.receives, h.connects, h.issued⟩
    · obtain ⟨b, hsend⟩ := sendCbk_of_other p os s (by simpa using hr) ha
      rw [hsend]
      exact Or.inl ⟨rfl, rfl, rfl, rfl, rfl⟩

theorem dispatch_current {s : Client} (hs : Owned s) (p : Protocol) (os : Os) (o : Operation)
    (c : Completion) : Keeps s (dispatch p os o c s) (armsReceive p s o c) ∨
      (armsReceive p s o c = false ∧ Renews s (dispatch p os o c s) ∧
        (dispatch p os o c s).receivesIssued = s.receivesIssued) := by
  unfold dispatch
  cases hh : o.handler with
  | connectCbk target =>
      simp only [armsReceive, hh]
      exact Or.inl (keeps_connectCbk p os c.error s)
  | sendCbk message =>
      simp only [armsReceive, hh, Bool.and_false, true_and]
      exact sendCbk_current hs p os c.error
  | receiveCbk offset length =>
      simp only [armsReceive, hh]
      exact Or.inl (keeps_receiveCbk p c.error s)

/-- A handler either renews the handle, or takes its operation off the current
handle and adds the receive that it arms. -/
theorem handle_current {p : Protocol} {s t : Client} {i : ℕ} {os : Os} (hs : Owned s)
    (h : s.handle p i os = some t) : ∃ o c, s.queued i = some (o, c) ∧
      ((t.socket.handle = s.socket.handle ∧ t.socket.peer = s.socket.peer ∧
        t.currentReceives + (o.isReceive && o.handle = s.socket.handle).toNat =
          s.currentReceives + (armsReceive p s o c).toNat ∧
        t.currentConnects + (o.isConnect && o.handle = s.socket.handle).toNat =
          s.currentConnects ∧
        t.receivesIssued = s.receivesIssued + (armsReceive p s o c).toNat) ∨
      (armsReceive p s o c = false ∧ Renews s t ∧ t.receivesIssued = s.receivesIssued)) := by
  obtain ⟨o, c, history, hq, rfl⟩ := handle_eq_some h
  have ho := (queued_eq_some hq).1
  have htaken : ∀ q : Operation → Bool,
      (s.operations.eraseIdx i).countP (fun a ↦ q a && a.handle = s.socket.handle) +
        (q o && o.handle = s.socket.handle).toNat = s.current q := by
    intro q
    rw [current, InFlight.countP_eraseIdx ho]
    cases q o && decide (o.handle = s.socket.handle) <;> simp
  refine ⟨o, c, hq, ?_⟩
  rcases dispatch_current (hs.eraseIdx i history) p os o c with hk | ⟨harm, hr, hissued⟩
  · refine Or.inl ⟨hk.handle, hk.peer, ?_, ?_, hk.issued⟩
    · rw [hk.receives, Nat.add_right_comm]
      exact congrArg (· + _) (htaken Operation.isReceive)
    · rw [hk.connects]
      exact htaken Operation.isConnect
  · exact Or.inr ⟨harm, ⟨hr.handle, hr.peer, hr.receives, hr.connects⟩, hissued⟩

theorem finish_peer {p : Protocol} {o : Operation} {c : Completion} {s t : Client}
    (hposted : o.handler ≠ .connectCbk none) (h : finish p o c s = some t) :
    t.socket.peer = s.socket.peer ∨ t.socket.peer.isSome = true := by
  cases hh : o.handler with
  | connectCbk target =>
      rcases finish_connect hh h with ⟨_, rfl⟩ | ⟨_, rfl⟩
      · cases target with
        | none => exact absurd hh hposted
        | some q => exact Or.inr rfl
      · exact Or.inl rfl
  | sendCbk message =>
      rw [finish_send hh h]
      exact Or.inl rfl
  | receiveCbk offset length =>
      cases p with
      | tcp =>
          rcases finish_receive_tcp hh h with ⟨_, _, _, _, rfl⟩ | ⟨_, rfl⟩ <;> exact Or.inl rfl
      | udp =>
          rcases finish_receive_udp hh h with ⟨_, d, rest, _, rfl⟩ | ⟨_, rfl⟩ <;> exact Or.inl rfl

/-- The other actions leave the counts alone; the peer changes when a connect
completes without error. -/
theorem step_current {p : Protocol} {s t : Client} {a : Action} (hs : Owned s)
    (h : step p s a = some t) (hstart : ∀ os, a ≠ .start os)
    (hhandle : ∀ i os, a ≠ .handle i os) :
    t.socket.handle = s.socket.handle ∧ t.currentReceives = s.currentReceives ∧
      t.currentConnects = s.currentConnects ∧
      (t.socket.peer = s.socket.peer ∨ t.socket.peer.isSome = true) := by
  have hclose : ∀ u : Client, u.socket = s.socket → u.operations = s.operations →
      (shutdownAndCloseSocket false u).socket.handle = s.socket.handle ∧
      (shutdownAndCloseSocket false u).currentReceives = s.currentReceives ∧
      (shutdownAndCloseSocket false u).currentConnects = s.currentConnects ∧
      ((shutdownAndCloseSocket false u).socket.peer = s.socket.peer ∨
        (shutdownAndCloseSocket false u).socket.peer.isSome = true) := by
    intro u hsock hops
    have hk := keeps_shutdownAndCloseSocket u
    have hr : u.currentReceives = s.currentReceives := by
      rw [currentReceives, current, hsock, hops]
      rfl
    have hc : u.currentConnects = s.currentConnects := by
      rw [currentConnects, current, hsock, hops]
      rfl
    exact ⟨hk.handle.trans (by rw [hsock]), hk.receives.trans hr, hk.connects.trans hc,
      Or.inl (hk.peer.trans (by rw [hsock]))⟩
  cases a with
  | start os => exact absurd rfl (hstart os)
  | stop =>
      cases Option.some.inj h
      exact hclose s rfl rfl
  | setConnected b =>
      cases Option.some.inj h
      obtain ⟨state, hflag, _⟩ := setConnected_cases b s
      rw [hflag]
      exact ⟨rfl, rfl, rfl, Or.inl rfl⟩
  | setEstablished b =>
      cases Option.some.inj h
      obtain ⟨state, hflag, _⟩ := setEstablished_cases b s
      rw [hflag]
      exact ⟨rfl, rfl, rfl, Or.inl rfl⟩
  | sendData message =>
      cases Option.some.inj h
      rcases sendData_cases p message s with hs | ⟨completion, isSending, hs, _⟩ <;> rw [hs]
      · exact ⟨rfl, rfl, rfl, Or.inl rfl⟩
      · have hcount := current_append (s := s) (t := issue (.sendCbk message) completion
          { s with isSending := isSending }) rfl rfl rfl
        exact ⟨rfl, hcount Operation.isReceive, hcount Operation.isConnect, Or.inl rfl⟩
  | sendCbk3 e =>
      obtain ⟨state, b, hcbk⟩ := sendCbk3_cases e s
      rw [step_sendCbk3 h]
      rcases hcbk with hcbk | hcbk <;> rw [hcbk]
      · exact ⟨rfl, rfl, rfl, Or.inl rfl⟩
      · exact hclose _ rfl rfl
  | peerSends bytes =>
      obtain ⟨_, rfl⟩ := step_peerSends h
      exact ⟨rfl, rfl, rfl, Or.inl rfl⟩
  | datagram sender payload =>
      obtain ⟨_, _, rfl⟩ := step_datagram h
      exact ⟨rfl, rfl, rfl, Or.inl rfl⟩
  | complete i c =>
      obtain ⟨o, ho, hnone, hh, hopen, hf⟩ := complete_eq_some h
      have hcount : ∀ q : Operation → Bool, q { o with completion := some c } = q o →
          (s.operations.set i { o with completion := some c }).countP
            (fun a ↦ q a && a.handle = s.socket.handle) = s.current q :=
        fun q hq ↦ InFlight.countP_set ho (by rw [hq])
      have hposted : o.handler ≠ .connectCbk none := by
        intro hp
        obtain ⟨c', hc', _⟩ := hs.posted o (List.mem_of_getElem? ho) hp
        simp [hnone] at hc'
      have hpeer := finish_peer hposted hf
      obtain ⟨peer, incoming, datagrams, history, remote, buffer, rfl⟩ := finish_eq_some hf
      exact ⟨rfl, hcount _ rfl, hcount _ rfl, hpeer⟩
  | handle i os => exact absurd rfl (hhandle i os)

end Client

end DoipEndpoint
