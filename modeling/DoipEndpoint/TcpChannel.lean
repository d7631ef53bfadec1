import DoipEndpoint.Link
import DoipEndpoint.Server.Quiet
import DoipEndpoint.TcpReading
import DoipEndpoint.TcpSend

/-!
# From `send_data` to `receive_cbk`

One direction of a TCP connection: the writes of one endpoint, the bytes on
their way, and the endpoint that reads them.  Both directions are links between
the models of the two sides, so what is known of each side alone can be put
together.
-/

namespace DoipEndpoint

open TransitionSystem

/-! ## The sender -/

namespace TcpSend

variable {role : Role} {s t : Outbound}

theorem wire_asyncWriteSome (w : Asio.WriteSome) (s : Outbound) :
    (asyncWriteSome w s).wire = s.wire := by
  unfold asyncWriteSome
  split_ifs <;> rfl

theorem wire_sendData (role : Role) (w : Asio.Write) (s : Outbound) :
    (sendData role w s).wire = s.wire := by
  rcases sendData_cases role w s with ⟨_, h⟩ | ⟨b, _, h⟩ <;> rw [h]
  exact wire_asyncWriteSome _ _

theorem wire_continueWrite (role : Role) (t : Asio.Transfer) (s : Outbound) :
    (continueWrite role t s).wire = s.wire := by
  rcases continueWrite_cases role t s with ⟨b, h⟩ | ⟨b, h⟩ | ⟨_, h⟩ <;> rw [h]
  · rfl
  · exact wire_asyncWriteSome _ _

/-- What is on the connection stays there. -/
theorem wire_step {a : Action} (h : step role s a = some t) : s.wire <+: t.wire := by
  cases a with
  | send message =>
      simp only [step] at h
      split_ifs at h
      cases Option.some.inj h
      rw [wire_sendData]
  | transfer n =>
      simp only [step] at h
      cases hissued : s.issued with
      | nil => simp [hissued] at h
      | cons w rest =>
          simp only [hissued] at h
          split_ifs at h
          cases Option.some.inj h
          exact List.prefix_append _ _
  | fail error =>
      simp only [step] at h
      cases hissued : s.issued with
      | nil => simp [hissued] at h
      | cons w rest =>
          simp only [hissued] at h
          split_ifs at h
          cases Option.some.inj h
          exact List.prefix_refl _
  | resume i =>
      simp only [step] at h
      cases hcompleted : s.completed[i]? with
      | none => simp [hcompleted] at h
      | some u =>
          simp only [hcompleted] at h
          cases Option.some.inj h
          rw [wire_continueWrite]
  | close | expire =>
      cases Option.some.inj h
      exact List.prefix_refl _

theorem wire_begins_sent (h : (system role).Reachable (fun s a ↦ uncut role s a = true) s) :
    s.wire <+: s.sent.flatten :=
  (List.prefix_append _ _).trans (ordered_reachable h).stream

end TcpSend

/-! ## A server connection as the receiver -/

namespace Server

variable {s t u : Server} {c : ℕ}

/-- What the peer has sent on the connection is as it was, or the connection
object is a new one. -/
def Retains (c : ℕ) (s t : Server) : Prop :=
  (t.connection c).history.peerSent = (s.connection c).history.peerSent ∨
    (t.connection c).history.peerSent = []

theorem Retains.refl (c : ℕ) (s : Server) : Retains c s s := Or.inl rfl

theorem Retains.trans (h : Retains c s t) (h' : Retains c t u) : Retains c s u := by
  rcases h' with h' | h'
  · rcases h with h | h
    · exact Or.inl (h'.trans h)
    · exact Or.inr (h'.trans h)
  · exact Or.inr h'

theorem retains_of_connection (h : t.connection c = s.connection c) : Retains c s t :=
  Or.inl (by rw [h])

theorem retains_update (s : Server) (c' : ℕ) {k : Connection}
    (hk : k.history.peerSent = (s.connection c').history.peerSent ∨ k.history.peerSent = []) :
    Retains c s (s.update c' k) := by
  by_cases hc : c = c'
  · subst hc
    simpa [Retains] using hk
  · exact retains_of_connection (by simp [hc])

theorem retains_closeSocket (c' : ℕ) (s : Server) : Retains c s (s.closeSocket c') := by
  unfold closeSocket
  split_ifs
  · exact retains_update s c' (Or.inl rfl)
  · exact Retains.refl c s

theorem retains_removeConnection (c' : ℕ) (s : Server) : Retains c s (s.removeConnection c') := by
  rw [removeConnection_eq]
  exact retains_of_connection rfl

theorem retains_stopAndRemoveConnection (c' : ℕ) (s : Server) :
    Retains c s (Connection.stopAndRemoveConnection c' s) :=
  (retains_closeSocket c' s).trans (retains_removeConnection c' _)

theorem retains_receive (grows : Bool) (c' : ℕ) (s : Server) :
    Retains c s (Connection.receive grows c' s) := by
  simp only [Connection.receive]
  split_ifs
  · split
    · exact Retains.refl c s
    · have hclear := retains_update (c := c) s c' (k := { s.connection c' with
        recvBuffer := (s.connection c').recvBuffer.clear }) (Or.inl rfl)
      exact hclear.trans ((retains_closeSocket c' _).trans (retains_removeConnection c' _))
    · exact retains_update s c' (Or.inl rfl)
  · exact Retains.refl c s

theorem retains_start (s : Server) : Retains c s s.start := by
  unfold start
  split_ifs
  · exact retains_update s s.created (k := .create) (Or.inr rfl)
  · exact Retains.refl c s

theorem retains_accepted (os : Os) (c' : ℕ) (s : Server) : Retains c s (s.accepted os c') := by
  obtain ⟨remote, answers, h | ⟨_, _, h⟩⟩ := accepted_cases os c' s <;> rw [h]
  · exact retains_update s c' (Or.inl rfl)
  · let v : Server := { s.update c' { (s.connection c').setRemoteInfo remote with
      accepted := some os } with connections := s.connections.insert remote c' }
    have hinform : Retains c s v := retains_update s c' (Or.inl rfl)
    have hattach := retains_update (c := c) v c' (k := { v.connection c' with
      history := { (v.connection c').history with attached := true } }) (Or.inl rfl)
    exact hinform.trans (hattach.trans (retains_receive os.grows c' _))

theorem retains_acceptCbk (os : Os) (e : ErrorCode) (c' : ℕ) (s : Server) :
    Retains c s (s.acceptCbk os e c') := by
  have hrest : ∀ v : Server, Retains c v
      (if e ≠ .badDescriptor ∧ e ≠ .operationAborted ∧ e ≠ .noDescriptors then v.start
        else if e = .noDescriptors then v.issue .retry none else v) := by
    intro v
    split_ifs
    · exact retains_start v
    · exact Retains.refl c v
    · exact Retains.refl c v
  have haccepted : Retains c s (if e = .success then s.accepted os c' else s) := by
    split_ifs
    · exact retains_accepted os c' s
    · exact Retains.refl c s
  exact haccepted.trans (hrest _)

theorem retains_stop (s : Server) : Retains c s s.stop := by
  have hfold : ∀ (entries : List (Endpoint × ℕ)) (v : Server),
      Retains c v (entries.foldl (fun s entry ↦ Connection.stop entry.2 s) v) := by
    intro entries
    induction entries with
    | nil => exact fun v ↦ Retains.refl c v
    | cons entry rest ih => exact fun v ↦ (retains_closeSocket entry.2 v).trans (ih _)
  have hclosed : Retains c s s.closeAcceptor := by
    unfold closeAcceptor
    split_ifs <;> exact Retains.refl c s
  exact hclosed.trans (hfold _ s.closeAcceptor)

theorem retains_reap (s : Server) : Retains c s s.reap := by
  simp only [Retains, reap]
  split_ifs <;> exact Or.inl rfl

theorem retains_finish {handler : Handler} {r : Completion} (h : finish handler r s = some t) :
    Retains c s t := by
  cases handler with
  | acceptCbk c' =>
      simp only [finish] at h
      split_ifs at h <;> cases Option.some.inj h
      · exact retains_update s c' (Or.inl rfl)
      · exact Retains.refl c s
  | receiveCbk c' offset length =>
      simp only [finish] at h
      split_ifs at h <;> cases Option.some.inj h
      · exact retains_update s c' (Or.inl rfl)
      · exact retains_update s c' (Or.inl rfl)
  | sendCbk c' message =>
      simp only [finish] at h
      split_ifs at h
      cases Option.some.inj h
      exact Retains.refl c s
  | retry =>
      cases Option.some.inj h
      exact Retains.refl c s

theorem retains_record (handler : Handler) (r : Completion) (s : Server) :
    Retains c s (record handler r s) := by
  unfold record
  split
  · split_ifs
    · exact retains_update s _ (Or.inl rfl)
    · exact Retains.refl c s
  · exact Retains.refl c s

theorem retains_dispatch (os : Os) (handler : Handler) (r : Completion) (s : Server) :
    Retains c s (dispatch os handler r s) := by
  cases handler with
  | acceptCbk c' => exact retains_acceptCbk os r.error c' s
  | receiveCbk c' offset length =>
      simp only [dispatch, Connection.receiveCbk]
      split_ifs
      · exact Retains.refl c s
      · exact retains_stopAndRemoveConnection c' s
      · exact Retains.refl c s
      · exact Retains.refl c s
  | sendCbk c' message =>
      simp only [dispatch, Connection.writeCompletionCondition]
      split_ifs
      · exact retains_stopAndRemoveConnection c' s
      · exact Retains.refl c s
  | retry =>
      simp only [dispatch, retry]
      split_ifs
      · exact retains_start s
      · exact Retains.refl c s

def arrivesOn (c : ℕ) : Action → Bool
  | .peerSends c' _ => c' = c
  | _ => false

theorem retains_step {a : Action} (ha : arrivesOn c a = false) (h : step s a = some t) :
    Retains c s t := by
  obtain ⟨v, hv, rfl⟩ := step_eq_some h
  refine Retains.trans ?_ (retains_reap v)
  cases a with
  | start =>
      cases Option.some.inj hv
      exact retains_start s
  | stop =>
      cases Option.some.inj hv
      exact retains_stop s
  | sendData c' message =>
      simp only [perform] at hv
      split_ifs at hv
      cases Option.some.inj hv
      exact Retains.refl c s
  | removeConnection c' =>
      cases Option.some.inj hv
      exact retains_removeConnection c' s
  | stopAndRemoveConnection c' =>
      cases Option.some.inj hv
      exact retains_stopAndRemoveConnection c' s
  | peerSends c' bytes =>
      have hc : c ≠ c' := by
        intro hc
        simp [arrivesOn, hc] at ha
      simp only [perform, peerSends] at hv
      split_ifs at hv
      cases Option.some.inj hv
      exact retains_of_connection (by simp [hc])
  | complete i r =>
      obtain ⟨handler, _, hf⟩ := complete_eq_some hv
      have hfinish := retains_finish (c := c) hf
      exact hfinish
  | handle i os =>
      obtain ⟨handler, r, _, rfl⟩ := handle_eq_some hv
      exact (retains_record handler r { s with operations := s.operations.eraseIdx i }).trans
        (retains_dispatch os handler r _)

/-- A client sends, and the connection `c` of a server reads. -/
def link (c : ℕ) : Link TcpSend.Outbound Server TcpSend.Action Action UInt8 where
  sender := TcpSend.system .client
  receiver := system
  wire := TcpSend.Outbound.wire
  arrived t := (t.connection c).history.peerSent
  arrive := .peerSends c
  connected _ := true
  own _ a := !arrivesOn c a

theorem lawful_link (c : ℕ) : (link c).Lawful where
  empty := by
    rintro t rfl
    rfl
  grows _ _ _ h := TcpSend.wire_step h
  arrives := by
    intro t bytes t' _ h
    have hstep : step t (.peerSends c bytes) = some t' := h
    obtain ⟨v, hv, rfl⟩ := step_eq_some hstep
    simp only [perform, peerSends] at hv
    split_ifs at hv
    cases Option.some.inj hv
    simp only [link, reap]
    split_ifs <;> simp
  keeps _ _ _ hown h := retains_step (by simpa [link] using hown) h

end Server

/-! ## A client as the receiver -/

namespace Client

variable {s t u : Client}

/-- What the peer has sent to the handle is as it was, or the handle is a new
one. -/
def Retains (s t : Client) : Prop :=
  (t.socket.handle = s.socket.handle ∧
    t.socket.history.peerSent = s.socket.history.peerSent) ∨ t.socket.history.peerSent = []

theorem Retains.refl (s : Client) : Retains s s := Or.inl ⟨rfl, rfl⟩

theorem Retains.trans (h : Retains s t) (h' : Retains t u) : Retains s u := by
  rcases h' with ⟨hhandle, hsent⟩ | h'
  · rcases h with h | h
    · exact Or.inl ⟨hhandle.trans h.1, hsent.trans h.2⟩
    · exact Or.inr (hsent.trans h)
  · exact Or.inr h'

theorem retains_of_socket (h : t.socket = s.socket) : Retains s t := Or.inl ⟨by rw [h], by rw [h]⟩

theorem retains_shutdownAndCloseSocket (s : Client) :
    Retains s (shutdownAndCloseSocket false s) := by
  simp only [shutdownAndCloseSocket, closeSocket, Bool.false_eq_true, ↓reduceIte]
  split_ifs <;> exact Or.inl ⟨rfl, rfl⟩

theorem retains_connectSocket (os : Os) (s : Client) : Retains s (connectSocket os s) := by
  have hattempt : ∀ k v, s.socket.Attempt os k → v.socket.handle = k.handle →
      v.socket.history = k.history → Retains s v := by
    rintro k v (⟨_, rfl⟩ | ⟨_, _, rfl⟩) hhandle hhistory
    · exact Or.inl ⟨hhandle, by rw [hhistory]⟩
    · exact Or.inr (by rw [hhistory]; rfl)
  rcases connectSocket_cases os s with ⟨_, _, e, _, h⟩ | ⟨k, e, hk, _, h⟩ | ⟨k, port, hk, _, h⟩ <;>
    rw [h]
  · exact retains_of_socket rfl
  · exact hattempt k _ hk rfl rfl
  · exact hattempt k _ hk rfl rfl

theorem retains_connectCbk (p : Protocol) (os : Os) (e : ErrorCode) (s : Client) :
    Retains s (connectCbk p os e s) := by
  by_cases hstopped : e = .operationAborted ∨ s.sendingBlocked = true
  · rw [connectCbk, if_pos hstopped]
    exact retains_shutdownAndCloseSocket s
  · obtain ⟨port, h⟩ := connectCbk_of_not_aborted p os hstopped
    rw [h]
    exact retains_of_socket (receive_socket p os.grows _)

theorem retains_sendCbk (p : Protocol) (os : Os) (e : ErrorCode) (s : Client) :
    Retains s (sendCbk p os e s) := by
  by_cases hr : Reconnects e = true
  · obtain ⟨ops, _, h⟩ := sendCbk_of_reconnects p os s hr
    rw [h]
    refine Retains.trans ?_ (retains_connectSocket os _)
    exact Or.inr rfl
  · by_cases ha : e = .operationAborted
    · rw [ha, sendCbk_of_aborted]
      exact retains_shutdownAndCloseSocket { s with sendingBlocked := true }
    · obtain ⟨b, h⟩ := sendCbk_of_other p os s (by simpa using hr) ha
      rw [h]
      exact retains_of_socket rfl

theorem retains_record (o : Operation) (c : Completion) (s : Client) :
    Retains s (record o c s) := by
  unfold record
  split_ifs
  · split <;> exact Or.inl ⟨rfl, rfl⟩
  · exact Retains.refl s

theorem retains_finish {o : Operation} {c : Completion} (h : finish .tcp o c s = some t) :
    Retains s t := by
  cases hh : o.handler with
  | connectCbk target =>
      rcases finish_connect hh h with ⟨_, rfl⟩ | ⟨_, rfl⟩ <;> exact Or.inl ⟨rfl, rfl⟩
  | sendCbk message =>
      cases finish_send hh h
      exact Retains.refl s
  | receiveCbk offset length =>
      rcases finish_receive_tcp hh h with ⟨_, _, _, _, rfl⟩ | ⟨_, rfl⟩ <;>
        exact Or.inl ⟨rfl, rfl⟩

def isArrival : Action → Bool
  | .peerSends _ => true
  | _ => false

theorem retains_step {a : Action} (ha : isArrival a = false) (h : step .tcp s a = some t) :
    Retains s t := by
  cases a with
  | start os =>
      cases Option.some.inj h
      rw [start, connect_eq]
      exact retains_connectSocket os s
  | stop =>
      cases Option.some.inj h
      exact retains_shutdownAndCloseSocket s
  | setConnected connected =>
      cases Option.some.inj h
      obtain ⟨state, hstate, _⟩ := setConnected_cases connected s
      exact retains_of_socket (by rw [hstate])
  | setEstablished established =>
      cases Option.some.inj h
      obtain ⟨state, hstate, _⟩ := setEstablished_cases established s
      exact retains_of_socket (by rw [hstate])
  | sendData message =>
      cases Option.some.inj h
      rcases sendData_cases .tcp message s with hs | ⟨completion, isSending, hs, _⟩ <;> rw [hs] <;>
        exact retains_of_socket rfl
  | sendCbk3 error =>
      rw [step_sendCbk3 h]
      obtain ⟨state, wasNotConnected, hs | hs⟩ := sendCbk3_cases error s <;> rw [hs]
      · exact retains_of_socket rfl
      · exact retains_shutdownAndCloseSocket _
  | peerSends bytes => simp [isArrival] at ha
  | datagram sender payload => simp [step] at h
  | complete i c =>
      obtain ⟨o, _, _, _, _, hf⟩ := complete_eq_some h
      have hfinish := retains_finish hf
      exact hfinish
  | handle i os =>
      obtain ⟨o, c, _, rfl⟩ := handle_eq_dispatch h
      refine (retains_record o c { s with operations := s.operations.eraseIdx i }).trans ?_
      cases hh : o.handler with
      | connectCbk target =>
          simp only [dispatch, hh]
          exact retains_connectCbk .tcp os c.error _
      | sendCbk message =>
          simp only [dispatch, hh]
          exact retains_sendCbk .tcp os c.error _
      | receiveCbk offset length =>
          simp only [dispatch, hh, receiveCbk_tcp]
          exact Retains.refl _

/-- A server connection sends, and a client reads with the native handle
`handle`; on any other handle it hears another peer. -/
def link (local' remote : Endpoint) (handle : ℕ) :
    Link TcpSend.Outbound Client TcpSend.Action Action UInt8 where
  sender := TcpSend.system .server
  receiver := system .tcp local' remote
  wire := TcpSend.Outbound.wire
  arrived t := if t.socket.handle = handle then t.socket.history.peerSent else []
  arrive := .peerSends
  connected t := t.socket.handle = handle
  own t a := t.socket.handle ≠ handle || !isArrival a

theorem lawful_link (local' remote : Endpoint) (handle : ℕ) :
    (link local' remote handle).Lawful where
  empty := by
    rintro t ⟨isSending, rfl⟩
    simp [link, constructed, Socket.closed, History.fresh]
  grows _ _ _ hstep := TcpSend.wire_step hstep
  arrives := by
    intro t bytes t' hconnected h
    have hstep : step .tcp t (.peerSends bytes) = some t' := h
    obtain ⟨_, rfl⟩ := step_peerSends hstep
    have hhandle : t.socket.handle = handle := by simpa [link] using hconnected
    simp [link, hhandle]
  keeps := by
    intro t a t' hown hstep
    cases hb : isArrival a with
    | false =>
        rcases retains_step hb hstep with ⟨hhandle, hsent⟩ | hnil
        · exact Or.inl (by simp only [link, hhandle, hsent])
        · exact Or.inr (by simp [link, hnil])
    | true =>
        have hother : t.socket.handle ≠ handle := by simpa [link, hb] using hown
        cases a with
        | peerSends bytes =>
            have hsends : step .tcp t (.peerSends bytes) = some t' := hstep
            obtain ⟨_, rfl⟩ := step_peerSends hsends
            simp [link, hother]
        | start | stop | setConnected | setEstablished | sendData | sendCbk3 | datagram | complete
        | handle => simp [isArrival] at hb

end Client

/-! ## Both directions -/

/-- From end to end: as long as the sender overtakes none of its own messages,
what `receive_cbk` is handed on an open and connected socket without a read error
is the beginning of the messages that were passed to `send_data`, four bytes at
most, however the bytes were cut on their way.  Whatever else a server does, this
holds; a client arms receives only for the successful connect of the current
handle. -/
theorem tcp_delivers_first_bytes (local' remote : Endpoint) (c handle : ℕ) :
    (∀ w, (Server.link c).system.Reachable
        ((Server.link c).guarded (fun s a ↦ TcpSend.uncut .client s a = true) anyStep) w →
      w.receiver.Readable c →
        (w.receiver.connection c).history.handed <+: w.sender.sent.flatten ∧
        (w.receiver.connection c).history.handed.length ≤ Server.headerSize) ∧
    ∀ w, (Client.link local' remote handle).system.Reachable
        ((Client.link local' remote handle).guarded (fun s a ↦ TcpSend.uncut .server s a = true)
          (fun s a ↦ Client.connectsOwn s a = true)) w →
      w.receiver.Readable → w.receiver.socket.handle = handle →
        w.receiver.socket.history.handed <+: w.sender.sent.flatten ∧
        w.receiver.socket.history.handed.length ≤ Client.recvBufferSizeInitial := by
  constructor
  · rintro w hw ⟨hopen, hstarted, hok⟩
    obtain ⟨hsender, hreceiver, harrived⟩ := Link.parts_of_reachable (Server.lawful_link c) hw
    obtain ⟨_, hhanded, hlength⟩ := Server.reads_first_chunk hreceiver hopen hstarted hok
    exact ⟨hhanded.trans (harrived.trans (TcpSend.wire_begins_sent hsender)), hlength⟩
  · rintro w hw ⟨hopen, hattached, hok⟩ hhandle
    obtain ⟨hsender, hreceiver, harrived⟩ :=
      Link.parts_of_reachable (Client.lawful_link local' remote handle) hw
    obtain ⟨_, hhanded, hlength⟩ := Client.reads_first_chunk hreceiver hopen hattached hok
    have hwire : w.receiver.socket.history.peerSent <+: w.sender.wire := by
      simpa [Client.link, hhandle] using harrived
    exact ⟨hhanded.trans (hwire.trans (TcpSend.wire_begins_sent hsender)), hlength⟩

/-- One byte of a message is cut off, and nothing after the first chunk is read. -/
theorem tcp_delivers_first_bytes_cut : ∃ w, (Server.link 0).system.Reachable
    ((Server.link 0).guarded (fun s a ↦ TcpSend.uncut .client s a = true) anyStep) w ∧
      (w.receiver.connection 0).history.handed = [7] ∧ w.sender.sent = [[7, 8]] ∧
      (w.receiver.connection 0).history.handed <+: w.sender.sent.flatten := by
  have hrun : ∃ w, (Server.link 0).system.run
      ((Server.link 0).guarded (fun s a ↦ TcpSend.uncut .client s a = true) anyStep)
      [.receives .start, .receives (.complete 0 ⟨.success, 0⟩),
        .receives (.handle 0 (.fine Client.tester)), .sends (.send [7, 8]), .sends (.transfer 1),
        .sends (.resume 0), .sends (.transfer 1), .delivers 1,
        .receives (.complete 0 ⟨.success, 1⟩), .receives (.handle 0 (.fine Client.tester)),
        .delivers 1]
      ⟨TcpSend.connected, Server.constructed⟩ = some w ∧
        (w.receiver.connection 0).history.handed = [7] ∧ w.sender.sent = [[7, 8]] ∧
        w.receiver.Readable 0 := ⟨_, rfl, rfl, rfl, rfl, rfl, rfl⟩
  obtain ⟨w, hw, hhanded, hsent, hreadable⟩ := hrun
  have hinitial : (Server.link 0).system.initial ⟨TcpSend.connected, Server.constructed⟩ :=
    ⟨rfl, rfl⟩
  have hreachable := reachable_of_run hinitial hw
  have hboth := tcp_delivers_first_bytes Client.tester Client.vehicle 0 0
  exact ⟨w, hreachable, hhanded, hsent, (hboth.1 w hreachable hreadable).1⟩

end DoipEndpoint
