import DoipEndpoint.Client.Run
import DoipEndpoint.InFlight

/-!
# What each function of a client endpoint changes

One description for each function, so that no later proof unfolds it again.
Operations are counted by the native handle they were started on: a completion
changes neither the handle nor the kind of an operation.
-/

namespace DoipEndpoint

namespace Client

/-! ## Closing and replacing the socket -/

/-- `o'` is `o`, or the aborted `o` if that was still pending. -/
def Aborted (o o' : Operation) : Prop :=
  o'.handler = o.handler ∧ o'.object = o.object ∧ o'.handle = o.handle ∧
    (o'.completion = o.completion ∨
      o.completion = none ∧ o'.completion = some ⟨.operationAborted, 0⟩)

theorem Aborted.refl (o : Operation) : Aborted o o := ⟨rfl, rfl, rfl, Or.inl rfl⟩

theorem Aborted.isConnect {o o' : Operation} (h : Aborted o o') :
    o'.isConnect = o.isConnect := by simp [Operation.isConnect, h.1]

theorem Aborted.isReceive {o o' : Operation} (h : Aborted o o') :
    o'.isReceive = o.isReceive := by simp [Operation.isReceive, h.1]

theorem aborted_abort (h : ℕ) (o : Operation) : Aborted o (o.abort h) := by
  refine ⟨by simp, by simp, by simp, ?_⟩
  by_cases hp : o.handle = h ∧ o.completion = none
  · exact Or.inr ⟨hp.2, by simp [Operation.abort, hp]⟩
  · exact Or.inl (by simp [Operation.abort, hp])

/-- `k'` is the socket object `k` without its native handle. -/
structure Socket.Closes (k k' : Socket) : Prop where
  isOpen : k'.isOpen = false
  object : k'.object = k.object
  handle : k'.handle = k.handle
  peer : k'.peer = k.peer
  datagrams : k'.datagrams ⊆ k.datagrams

theorem closeSocket_eq (s : Client) : ∃ k os,
    closeSocket s = { s with socket := k, operations := os } ∧
      s.socket.Closes k ∧ List.Forall₂ Aborted s.operations os := by
  unfold closeSocket
  by_cases hopen : s.socket.isOpen = true
  · rw [if_pos hopen]
    refine ⟨_, _, rfl, ⟨rfl, rfl, rfl, rfl, List.nil_subset _⟩, ?_⟩
    exact List.forall₂_map_right_iff.mpr
      (List.forall₂_same.mpr fun o _ ↦ aborted_abort _ o)
  · rw [if_neg hopen]
    exact ⟨s.socket, s.operations, rfl, ⟨by simpa using hopen, rfl, rfl, rfl, List.Subset.refl _⟩,
      List.forall₂_same.mpr fun o _ ↦ Aborted.refl o⟩

theorem shutdownAndCloseSocket_false (s : Client) : ∃ k os,
    shutdownAndCloseSocket false s = { s with localPort := 0, socket := k, operations := os } ∧
      s.socket.Closes k ∧ List.Forall₂ Aborted s.operations os := by
  obtain ⟨k, os, h, hk, hos⟩ := closeSocket_eq { s with localPort := 0 }
  exact ⟨k, os, by simp [shutdownAndCloseSocket, h], hk, hos⟩

theorem shutdownAndCloseSocket_true (s : Client) : ∃ os,
    shutdownAndCloseSocket true s =
      { s with
        localPort := 0
        socket := .closed (s.socket.object + 1) (s.socket.handle + 1)
        operations := os } ∧
      List.Forall₂ Aborted s.operations os := by
  obtain ⟨k, os, h, hk, hos⟩ := closeSocket_eq { s with localPort := 0 }
  have hobj : k.object = s.socket.object := hk.object
  have hhan : k.handle = s.socket.handle := hk.handle
  exact ⟨os, by simp [shutdownAndCloseSocket, resetSocket, h, hobj, hhan], hos⟩

/-! ## Connecting -/

/-- The socket that `connect` works on: the open socket, or the one that
`open` just opened. -/
def Socket.Attempt (os : Os) (k k' : Socket) : Prop :=
  (k.isOpen = true ∧ k' = k) ∨
    (k.isOpen = false ∧ os.openResult = .success ∧ k' = k.opened)

theorem Socket.Attempt.isOpen {os : Os} {k k' : Socket} (h : k.Attempt os k') :
    k'.isOpen = true := by
  rcases h with ⟨hk, rfl⟩ | ⟨_, _, rfl⟩
  · exact hk
  · rfl

theorem Socket.Attempt.object {os : Os} {k k' : Socket} (h : k.Attempt os k') :
    k'.object = k.object := by
  rcases h with ⟨_, rfl⟩ | ⟨_, _, rfl⟩ <;> rfl

/-- `connect` posts a failed `open`, posts a failed `bind`, or issues an
`async_connect` on a socket that it has just bound. -/
theorem connectSocket_cases (os : Os) (s : Client) :
    (s.socket.isOpen = false ∧ os.openResult ≠ .success ∧
      ∃ e, e ≠ .success ∧ connectSocket os s = postConnectCbk e s) ∨
    (∃ k e, s.socket.Attempt os k ∧ e ≠ .success ∧
      connectSocket os s = postConnectCbk e { s with socket := k }) ∨
    (∃ k port, s.socket.Attempt os k ∧ k.bound = none ∧
      connectSocket os s = asyncConnect
        { s with socket := { k with bound := some port }, state := .connecting }) := by
  have hbind : ∀ k : Socket, k.isOpen = true →
      (k.bindWith os s.localEndpoint).1 = k ∧ (k.bindWith os s.localEndpoint).2 ≠ .success ∨
        k.bound = none ∧ ∃ port, k.bindWith os s.localEndpoint =
          ({ k with bound := some port }, .success) := by
    intro k hk
    unfold Socket.bindWith
    rw [if_neg (by simp [hk])]
    by_cases hb : k.bound.isSome = true
    · simp [hb]
    · rw [if_neg hb]
      have hnone : k.bound = none := by simpa using hb
      by_cases hr : os.bindResult = .success
      · exact Or.inr ⟨hnone, _, if_pos hr⟩
      · exact Or.inl (by simp [hr])
  have hbound : ∀ k : Socket, s.socket.Attempt os k →
      s.socket.openWith os = (k, .success) ∨ s.socket.openWith os = (k, .alreadyOpen) →
      (∃ k e, s.socket.Attempt os k ∧ e ≠ .success ∧
        connectSocket os s = postConnectCbk e { s with socket := k }) ∨
      (∃ k port, s.socket.Attempt os k ∧ k.bound = none ∧
        connectSocket os s = asyncConnect
          { s with socket := { k with bound := some port }, state := .connecting }) := by
    intro k hk hopened
    have hfst : (s.socket.openWith os).1 = k := by rcases hopened with h | h <;> rw [h]
    have hcond : (s.socket.openWith os).2 = .success ∨
        (s.socket.openWith os).2 = .alreadyOpen := by
      rcases hopened with h | h <;> simp [h]
    rcases hbind k hk.isOpen with ⟨hsame, herr⟩ | ⟨hnone, port, hb⟩
    · refine Or.inl ⟨k, _, hk, herr, ?_⟩
      simp only [connectSocket, hfst, if_pos hcond, if_pos herr, hsame]
    · refine Or.inr ⟨k, port, hk, hnone, ?_⟩
      simp only [connectSocket, hfst, if_pos hcond, hb, ne_eq, not_true_eq_false, ↓reduceIte]
  by_cases hopen : s.socket.isOpen = true
  · exact Or.inr (hbound s.socket (Or.inl ⟨hopen, rfl⟩)
      (Or.inr (by simp [Socket.openWith, hopen])))
  · have hclosed : s.socket.isOpen = false := by simpa using hopen
    by_cases hr : os.openResult = .success
    · exact Or.inr (hbound _ (Or.inr ⟨hclosed, hr, rfl⟩)
        (Or.inl (by simp [Socket.openWith, hclosed, hr])))
    · refine Or.inl ⟨hclosed, hr, ?_⟩
      by_cases ha : os.openResult = .alreadyOpen
      · exact ⟨.badDescriptor, by decide,
          by simp [connectSocket, Socket.openWith, Socket.bindWith, hclosed, ha]⟩
      · exact ⟨os.openResult, hr, by simp [connectSocket, Socket.openWith, hclosed, hr, ha]⟩

theorem connect_eq (p : Protocol) (os : Os) (s : Client) :
    connect p os s = connectSocket os s := by
  cases p <;> rfl

/-- From a closed socket everything depends on `open`. -/
theorem connectSocket_of_closed {os : Os} {s : Client} (hs : s.socket.isOpen = false) :
    (os.openResult = .success ∧ (connectSocket os s).socket.isOpen = true) ∨
      (os.openResult ≠ .success ∧ ∃ e, connectSocket os s = postConnectCbk e s) := by
  have hattempt : ∀ k, s.socket.Attempt os k → os.openResult = .success := by
    rintro k (⟨hopen, _⟩ | ⟨_, hr, _⟩)
    · simp [hs] at hopen
    · exact hr
  rcases connectSocket_cases os s with ⟨_, hr, e, _, h⟩ | ⟨k, e, hk, _, h⟩ | ⟨k, port, hk, _, h⟩
  · exact Or.inr ⟨hr, e, h⟩
  · exact Or.inl ⟨hattempt k hk, by rw [h]; exact hk.isOpen⟩
  · exact Or.inl ⟨hattempt k hk, by rw [h]; exact hk.isOpen⟩

theorem connectSocket_operations (os : Os) (s : Client) : ∃ target completion,
    (connectSocket os s).operations = s.operations ++
      [⟨.connectCbk target, (connectSocket os s).socket.object,
        (connectSocket os s).socket.handle, completion⟩] := by
  rcases connectSocket_cases os s with ⟨_, _, e, _, h⟩ | ⟨k, e, _, _, h⟩ | ⟨k, port, _, _, h⟩ <;>
    exact ⟨_, _, by rw [h]; rfl⟩

/-! ## Receiving -/

theorem receive_of_closed (p : Protocol) (grows : Bool) {s : Client}
    (h : s.socket.isOpen = false) : receive p grows s = s := by
  cases p <;> simp [receive, Tcp.receive, Tcp.receiveInto, Udp.receive, h]

/-- On an open socket `receive` always issues a receive: with nothing missing
it cannot throw. -/
theorem receive_of_open (p : Protocol) (grows : Bool) {s : Client}
    (h : s.socket.isOpen = true) : ∃ length buffer count,
    receive p grows s =
      asyncReceive 0 length { s with recvBuffer := buffer, shrinkCount := count } := by
  cases p with
  | tcp =>
      obtain ⟨buffer, length, count, hprep⟩ := s.recvBuffer.prepare_zero recvBufferSizeInitial
        bufferShrinkThreshold s.shrinkCount grows 0
      exact ⟨length, buffer, count, by
        simp only [receive, Tcp.receive, Tcp.receiveInto, h, ↓reduceIte, hprep]⟩
  | udp => exact ⟨1000, s.recvBuffer, s.shrinkCount, by simp [receive, Udp.receive, h]⟩

@[simp] theorem receive_socket (p : Protocol) (grows : Bool) (s : Client) :
    (receive p grows s).socket = s.socket := by
  by_cases h : s.socket.isOpen = true
  · obtain ⟨length, buffer, count, hr⟩ := receive_of_open p grows h
    rw [hr]
    rfl
  · rw [receive_of_closed p grows (by simpa using h)]

@[simp] theorem receive_state (p : Protocol) (grows : Bool) (s : Client) :
    (receive p grows s).state = s.state := by
  by_cases h : s.socket.isOpen = true
  · obtain ⟨length, buffer, count, hr⟩ := receive_of_open p grows h
    rw [hr]
    rfl
  · rw [receive_of_closed p grows (by simpa using h)]

theorem receive_operations (p : Protocol) (grows : Bool) (s : Client) :
    (receive p grows s).operations = s.operations ∨ ∃ length,
      (receive p grows s).operations = s.operations ++
        [⟨.receiveCbk 0 length, s.socket.object, s.socket.handle, none⟩] := by
  by_cases h : s.socket.isOpen = true
  · obtain ⟨length, buffer, count, hr⟩ := receive_of_open p grows h
    exact Or.inr ⟨length, by rw [hr]; rfl⟩
  · exact Or.inl (by rw [receive_of_closed p grows (by simpa using h)])

theorem setLocalPort_eq (os : Os) (s : Client) :
    ∃ port, setLocalPort os s = { s with localPort := port } := by
  unfold setLocalPort
  split_ifs
  · exact ⟨_, rfl⟩
  · exact ⟨s.localPort, rfl⟩
  · exact ⟨s.localPort, rfl⟩

/-! ## Completion handlers -/

/-- The errors on which `send_cbk` replaces the socket and connects again. -/
def Reconnects (e : ErrorCode) : Bool :=
  e = .brokenPipe || e = .notConnected || e = .badDescriptor || e = .noPermission

theorem sendCbk_of_reconnects (p : Protocol) (os : Os) {e : ErrorCode} (s : Client)
    (h : Reconnects e = true) : ∃ ops, List.Forall₂ Aborted s.operations ops ∧
    sendCbk p os e s = connectSocket os
      { s with
        state := .closed
        wasNotConnected := true
        localPort := 0
        socket := .closed (s.socket.object + 1) (s.socket.handle + 1)
        operations := ops } := by
  obtain ⟨ops, hclosed, hops⟩ := shutdownAndCloseSocket_true
    { s with state := .closed, wasNotConnected := true }
  refine ⟨ops, hops, ?_⟩
  have hcases : e = .brokenPipe ∨ e = .notConnected ∨ e = .badDescriptor ∨
      e = .noPermission := by simpa [Reconnects, or_assoc] using h
  rw [← connect_eq p]
  unfold sendCbk
  split_ifs with h₁ h₂
  · rw [hclosed]
  · rw [hclosed]
  · exact absurd hcases (by tauto)
  · exact absurd hcases (by tauto)
  · exact absurd hcases (by tauto)

theorem sendCbk_of_aborted (p : Protocol) (os : Os) (s : Client) :
    sendCbk p os .operationAborted s =
      shutdownAndCloseSocket false { s with sendingBlocked := true } := by
  simp [sendCbk]

/-- Every other error leaves the endpoint as it is, up to `was_not_connected_`. -/
theorem sendCbk_of_other (p : Protocol) (os : Os) {e : ErrorCode} (s : Client)
    (h : Reconnects e = false) (ha : e ≠ .operationAborted) :
    ∃ b, sendCbk p os e s = { s with wasNotConnected := b } := by
  have hne : e ≠ .brokenPipe ∧ e ≠ .notConnected ∧ e ≠ .badDescriptor ∧ e ≠ .noPermission := by
    simpa [Reconnects, and_assoc] using h
  unfold sendCbk
  rw [if_neg hne.1, if_neg (by tauto), if_neg ha]
  split_ifs
  · exact ⟨true, rfl⟩
  · exact ⟨s.wasNotConnected, rfl⟩

theorem connectCbk_of_not_aborted (p : Protocol) (os : Os) {e : ErrorCode} {s : Client}
    (h : ¬(e = .operationAborted ∨ s.sendingBlocked = true)) : ∃ port,
    connectCbk p os e s =
      receive p os.grows { s with localPort := port, wasNotConnected := false } := by
  obtain ⟨port, hport⟩ := setLocalPort_eq os s
  exact ⟨port, by simp only [connectCbk, if_neg h, hport]⟩

theorem receiveCbk_tcp (e : ErrorCode) (s : Client) : receiveCbk .tcp e s = s := rfl

theorem receiveCbk_udp (e : ErrorCode) (s : Client) :
    receiveCbk .udp e s =
      if e = .operationAborted then s
      else if e = .connectionRefused then shutdownAndCloseSocket false s
      else receive .udp true s := by
  simp only [receiveCbk, Udp.receiveCbk, receive]
  split_ifs <;> simp_all

/-- Connecting and closing touch neither the receive buffer nor the flag of a send. -/
structure SameMembers (s t : Client) : Prop where
  recvBuffer : t.recvBuffer = s.recvBuffer
  shrinkCount : t.shrinkCount = s.shrinkCount
  receivesIssued : t.receivesIssued = s.receivesIssued
  isSending : t.isSending = s.isSending

theorem SameMembers.trans {s t u : Client} (h : SameMembers s t) (h' : SameMembers t u) :
    SameMembers s u :=
  ⟨h'.recvBuffer.trans h.recvBuffer, h'.shrinkCount.trans h.shrinkCount,
    h'.receivesIssued.trans h.receivesIssued, h'.isSending.trans h.isSending⟩

theorem sameMembers_connectSocket (os : Os) (s : Client) :
    SameMembers s (connectSocket os s) := by
  rcases connectSocket_cases os s with ⟨_, _, e, _, h⟩ | ⟨k, e, _, _, h⟩ | ⟨k, port, _, _, h⟩ <;>
    rw [h] <;> exact ⟨rfl, rfl, rfl, rfl⟩

theorem sameMembers_shutdownAndCloseSocket (s : Client) :
    SameMembers s (shutdownAndCloseSocket false s) := by
  obtain ⟨k, ops, h, _, _⟩ := shutdownAndCloseSocket_false s
  rw [h]
  exact ⟨rfl, rfl, rfl, rfl⟩

theorem sameMembers_sendCbk (p : Protocol) (os : Os) (e : ErrorCode) (s : Client) :
    SameMembers s (sendCbk p os e s) := by
  by_cases hr : Reconnects e = true
  · obtain ⟨ops, _, h⟩ := sendCbk_of_reconnects p os s hr
    rw [h]
    apply SameMembers.trans _ (sameMembers_connectSocket os _)
    exact ⟨rfl, rfl, rfl, rfl⟩
  · by_cases ha : e = .operationAborted
    · rw [ha, sendCbk_of_aborted]
      apply SameMembers.trans _ (sameMembers_shutdownAndCloseSocket _)
      exact ⟨rfl, rfl, rfl, rfl⟩
    · obtain ⟨b, h⟩ := sendCbk_of_other p os s (by simpa using hr) ha
      rw [h]
      exact ⟨rfl, rfl, rfl, rfl⟩

/-! ## Completions and queued handlers -/

theorem record_eq (o : Operation) (c : Completion) (s : Client) : ∃ history,
    record o c s = { s with socket := { s.socket with history := history } } := by
  unfold record
  split
  · split
    · exact ⟨_, rfl⟩
    · exact ⟨s.socket.history, rfl⟩
    · exact ⟨_, rfl⟩
  · exact ⟨s.socket.history, rfl⟩

theorem queued_eq_some {s : Client} {i : ℕ} {o : Operation} {c : Completion}
    (h : s.queued i = some (o, c)) :
    s.operations[i]? = some o ∧ o.completion = some c := by
  unfold queued at h
  split at h
  · exact absurd h (by simp)
  · split at h
    · exact absurd h (by simp)
    · simp only [Option.some.injEq, Prod.mk.injEq] at h
      obtain ⟨rfl, rfl⟩ := h
      exact ⟨by assumption, by assumption⟩

theorem handle_eq_dispatch {p : Protocol} {i : ℕ} {os : Os} {s t : Client}
    (h : s.handle p i os = some t) : ∃ o c, s.queued i = some (o, c) ∧
      t = dispatch p os o c (record o c { s with operations := s.operations.eraseIdx i }) := by
  unfold handle at h
  split at h
  · exact absurd h (by simp)
  · rename_i o c hq
    exact ⟨o, c, hq, (Option.some.inj h).symm⟩

/-- The same up to the history, which no handler reads. -/
theorem handle_eq_some {p : Protocol} {i : ℕ} {os : Os} {s t : Client}
    (h : s.handle p i os = some t) : ∃ o c history,
    s.queued i = some (o, c) ∧ t = dispatch p os o c
      { s with
        operations := s.operations.eraseIdx i
        socket := { s.socket with history := history } } := by
  obtain ⟨o, c, hq, ht⟩ := handle_eq_dispatch h
  obtain ⟨history, hrec⟩ := record_eq o c { s with operations := s.operations.eraseIdx i }
  exact ⟨o, c, history, hq, by rw [ht, hrec]⟩

theorem complete_eq_some {p : Protocol} {i : ℕ} {c : Completion} {s t : Client}
    (h : s.complete p i c = some t) : ∃ o, s.operations[i]? = some o ∧
      o.completion = none ∧ o.handle = s.socket.handle ∧ s.socket.isOpen = true ∧
      finish p o c { s with
        operations := s.operations.set i { o with completion := some c } } = some t := by
  unfold complete at h
  split at h
  · exact absurd h (by simp)
  · rename_i o ho
    split at h
    · rename_i hc
      exact ⟨o, ho, hc.1, hc.2.1, hc.2.2, h⟩
    · exact absurd h (by simp)

/-- A completion changes what has arrived, the peer, the sender field, the
buffer and the history, and nothing else. -/
theorem finish_eq_some {p : Protocol} {o : Operation} {c : Completion} {s t : Client}
    (h : finish p o c s = some t) : ∃ peer incoming datagrams history remote buffer,
    t = { s with
      remote := remote
      recvBuffer := buffer
      socket := { s.socket with
        peer := peer, incoming := incoming, datagrams := datagrams, history := history } } := by
  unfold finish at h
  split at h
  · split at h <;> (cases Option.some.inj h; exact ⟨_, _, _, _, _, _, rfl⟩)
  · cases Option.some.inj h
    exact ⟨_, _, _, _, _, _, rfl⟩
  · split at h
    · split at h
      · split at h
        · cases Option.some.inj h
          exact ⟨_, _, _, _, _, _, rfl⟩
        · exact absurd h (by simp)
      · split at h
        · exact absurd h (by simp)
        · split at h
          · cases Option.some.inj h
            exact ⟨_, _, _, _, _, _, rfl⟩
          · exact absurd h (by simp)
    · cases Option.some.inj h
      exact ⟨_, _, _, _, _, _, rfl⟩

theorem finish_receive_tcp {o : Operation} {c : Completion} {s t : Client} {offset length : ℕ}
    (hh : o.handler = .receiveCbk offset length) (h : finish .tcp o c s = some t) :
    (c.error = .success ∧ 0 < c.bytes ∧ c.bytes ≤ length ∧ c.bytes ≤ s.socket.incoming.length ∧
      t = { s with
        recvBuffer := s.recvBuffer.store offset (s.socket.incoming.take c.bytes)
        socket := { s.socket with incoming := s.socket.incoming.drop c.bytes } }) ∨
    (c.error ≠ .success ∧ t = { s with socket := { s.socket with
      history := { s.socket.history with receiveFailed := true } } }) := by
  simp only [finish, hh] at h
  split_ifs at h with he hb
  · exact Or.inl ⟨he, hb.1, hb.2.1, hb.2.2, (Option.some.inj h).symm⟩
  · exact Or.inr ⟨he, (Option.some.inj h).symm⟩

theorem finish_receive_udp {o : Operation} {c : Completion} {s t : Client} {offset length : ℕ}
    (hh : o.handler = .receiveCbk offset length) (h : finish .udp o c s = some t) :
    (c.error = .success ∧ ∃ d rest, s.socket.datagrams = d :: rest ∧
      t = { s with remote := d.sender, socket := { s.socket with datagrams := rest } }) ∨
    (c.error ≠ .success ∧ t = { s with socket := { s.socket with
      history := { s.socket.history with receiveFailed := true } } }) := by
  simp only [finish, hh] at h
  split_ifs at h with he
  · cases hd : s.socket.datagrams with
    | nil => simp [hd] at h
    | cons d rest =>
        simp only [hd] at h
        split_ifs at h
        exact Or.inl ⟨he, d, rest, rfl, (Option.some.inj h).symm⟩
  · exact Or.inr ⟨he, (Option.some.inj h).symm⟩

theorem finish_send {p : Protocol} {o : Operation} {c : Completion} {s t : Client}
    {message : List UInt8} (hh : o.handler = .sendCbk message) (h : finish p o c s = some t) :
    t = s := by
  simp only [finish, hh] at h
  exact (Option.some.inj h).symm

theorem finish_connect {p : Protocol} {o : Operation} {c : Completion} {s t : Client}
    {target : Option Endpoint} (hh : o.handler = .connectCbk target)
    (h : finish p o c s = some t) :
    (c.error = .success ∧ t = { s with socket := { s.socket with peer := target } }) ∨
      (c.error ≠ .success ∧ t = s) := by
  simp only [finish, hh] at h
  split_ifs at h with he
  · exact Or.inl ⟨he, (Option.some.inj h).symm⟩
  · exact Or.inr ⟨he, (Option.some.inj h).symm⟩

/-! ## The application and the network -/

theorem setConnected_cases (connected : Bool) (s : Client) : ∃ state,
    s.setConnected connected = { s with state := state } ∧
      (state = .closed ∨ s.socket.isOpen = true ∧ state = .connected) := by
  simp only [setConnected]
  split_ifs with _ hopen
  · exact ⟨_, rfl, Or.inr ⟨hopen, rfl⟩⟩
  · exact ⟨_, rfl, Or.inl rfl⟩
  · exact ⟨_, rfl, Or.inl rfl⟩

theorem setEstablished_cases (established : Bool) (s : Client) : ∃ state,
    s.setEstablished established = { s with state := state } ∧
      (state = s.state ∨ state = .closed ∨ s.socket.isOpen = true ∧ state = .established) := by
  simp only [setEstablished]
  split_ifs with _ _ hopen
  · exact ⟨_, rfl, Or.inr (Or.inr ⟨hopen, rfl⟩)⟩
  · exact ⟨_, rfl, Or.inr (Or.inl rfl)⟩
  · exact ⟨s.state, rfl, Or.inl rfl⟩
  · exact ⟨_, rfl, Or.inr (Or.inl rfl)⟩

/-- `send_data` issues one send, which is pending only on an open socket, or
does nothing. -/
theorem sendData_cases (p : Protocol) (message : List UInt8) (s : Client) :
    s.sendData p message = s ∨ ∃ completion isSending,
      s.sendData p message = issue (.sendCbk message) completion
        { s with isSending := isSending } ∧
      (completion = none → s.socket.isOpen = true) := by
  cases p with
  | tcp =>
      simp only [sendData, Tcp.sendData]
      split_ifs with hopen
      · exact Or.inr ⟨none, true, rfl, fun _ ↦ hopen⟩
      · exact Or.inl rfl
  | udp =>
      refine Or.inr ⟨_, s.isSending, rfl, fun hc ↦ ?_⟩
      by_contra hopen
      simp [hopen] at hc

/-- The three-argument `send_cbk` changes flags, and may close the socket. -/
theorem sendCbk3_cases (e : ErrorCode) (s : Client) : ∃ state wasNotConnected,
    Tcp.sendCbk3 e s = { s with
      isSending := false, state := state, wasNotConnected := wasNotConnected } ∨
    Tcp.sendCbk3 e s = shutdownAndCloseSocket false { s with
      isSending := false, state := state, wasNotConnected := wasNotConnected } := by
  simp only [Tcp.sendCbk3]
  split_ifs
  · exact ⟨s.state, true, Or.inl rfl⟩
  · exact ⟨s.state, s.wasNotConnected, Or.inr rfl⟩
  · exact ⟨s.state, s.wasNotConnected, Or.inl rfl⟩
  · exact ⟨.connecting, s.wasNotConnected, Or.inr rfl⟩

theorem step_sendCbk3 {p : Protocol} {e : ErrorCode} {s t : Client}
    (h : step p s (.sendCbk3 e) = some t) : t = Tcp.sendCbk3 e s := by
  simp only [step] at h
  split_ifs at h
  exact (Option.some.inj h).symm

theorem step_peerSends {p : Protocol} {bytes : List UInt8} {s t : Client}
    (h : step p s (.peerSends bytes) = some t) : s.socket.isOpen = true ∧
      t = { s with socket := { s.socket with
        incoming := s.socket.incoming ++ bytes
        history := { s.socket.history with
          peerSent := s.socket.history.peerSent ++ bytes } } } := by
  simp only [step, peerSends] at h
  split_ifs at h with _ hopen
  exact ⟨hopen.1, (Option.some.inj h).symm⟩

theorem step_datagram {p : Protocol} {sender : Endpoint} {payload : List UInt8} {s t : Client}
    (h : step p s (.datagram sender payload) = some t) : s.socket.isOpen = true ∧
      (s.socket.peer = none ∨ s.socket.peer = some sender) ∧
      t = { s with socket := { s.socket with
        datagrams := s.socket.datagrams ++ [⟨sender, payload, s.socket.peer.isSome⟩] } } := by
  simp only [step, datagram] at h
  split_ifs at h with _ hd
  exact ⟨hd.1, hd.2.2, (Option.some.inj h).symm⟩

end Client

end DoipEndpoint
