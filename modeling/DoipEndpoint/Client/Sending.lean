import DoipEndpoint.Client.Effects

/-!
# Finished sends of a TCP client

`send_data` raises `is_sending_` and binds the two-argument `send_cbk`, which
lowers nothing; the three-argument `send_cbk` lowers the flag, but treats a
send without an error like a failed one.
-/

namespace DoipEndpoint

namespace Client

open TransitionSystem

def Operation.isWrite (o : Operation) : Bool :=
  match o.handler with
  | .sendCbk _ => true
  | _ => false

/-- The `async_write` operations whose `send_cbk` has not been run. -/
def writes (s : Client) : ℕ := s.operations.countP Operation.isWrite

/-- The flag is lowered when no write is outstanding. -/
def Recorded (s : Client) : Prop := s.writes = 0 → s.isSending = false

/-- The connection of `s` is still that of `t`. -/
structure LeavesAlone (s t : Client) : Prop where
  socket : t.socket = s.socket
  state : t.state = s.state

/-- `start` and `send_data` are called, and no completion carries an error. -/
def noError (s : Client) : Action → Prop
  | .start _ | .sendData _ | .peerSends _ => True
  | .complete _ c => c.error = .success
  | .handle i _ => ∀ entry ∈ s.queued i, entry.2.error = .success
  | _ => False

/-- A `send_cbk` is run only while another write is outstanding. -/
def anotherWrite (s : Client) : Action → Prop
  | .handle i _ => ∀ entry ∈ s.queued i, entry.1.isWrite = true → 1 < s.writes
  | _ => True

instance (s : Client) : (a : Action) → Decidable (noError s a)
  | .start _ | .sendData _ | .peerSends _ => isTrue trivial
  | .complete _ c => inferInstanceAs (Decidable (c.error = .success))
  | .handle i _ => inferInstanceAs (Decidable (∀ entry ∈ s.queued i, entry.2.error = .success))
  | .stop | .setConnected _ | .setEstablished _ | .sendCbk3 _ | .datagram _ _ => isFalse id

instance (s : Client) : (a : Action) → Decidable (anotherWrite s a)
  | .handle i _ =>
      inferInstanceAs (Decidable (∀ entry ∈ s.queued i, entry.1.isWrite = true → 1 < s.writes))
  | .start _ | .stop | .setConnected _ | .setEstablished _ | .sendData _ | .sendCbk3 _
  | .peerSends _ | .datagram _ _ | .complete _ _ => isTrue trivial

/-- The flag and the number of outstanding writes are the same. -/
structure SameWrites (s t : Client) : Prop where
  isSending : t.isSending = s.isSending
  writes : t.writes = s.writes

/-- As long as the flag is exact, it is lowered in time. -/
def FlagExact (s : Client) : Prop := s.isSending = true ↔ 0 < s.writes

variable {s t : Client} {a : Action}

theorem FlagExact.recorded (h : FlagExact s) : Recorded s := by
  intro hzero
  rw [← Bool.not_eq_true]
  intro hraised
  have hpos := h.mp hraised
  omega

theorem SameWrites.refl (s : Client) : SameWrites s s := ⟨rfl, rfl⟩

theorem SameWrites.flagExact (h : SameWrites s t) (hs : FlagExact s) : FlagExact t := by
  rw [FlagExact, h.isSending, h.writes]
  exact hs

/-! ## The functions a run is made of -/

theorem writes_issue {handler : Handler} (h : ∀ message, handler ≠ .sendCbk message)
    (completion : Option Completion) (s : Client) :
    (s.issue handler completion).writes = s.writes := by
  cases handler with
  | connectCbk | receiveCbk => simp [writes, issue, Operation.isWrite]
  | sendCbk message => exact absurd rfl (h message)

theorem sameWrites_connectSocket (os : Os) (s : Client) : SameWrites s (connectSocket os s) := by
  rcases connectSocket_cases os s with ⟨_, _, e, _, h⟩ | ⟨k, e, _, _, h⟩ | ⟨k, port, _, _, h⟩
  · rw [h]
    exact ⟨rfl, writes_issue (by simp) _ s⟩
  · rw [h]
    exact ⟨rfl, writes_issue (by simp) _ { s with socket := k }⟩
  · rw [h]
    exact ⟨rfl, writes_issue (by simp) _ _⟩

theorem sameWrites_receive (p : Protocol) (grows : Bool) (s : Client) :
    SameWrites s (receive p grows s) := by
  by_cases hopen : s.socket.isOpen = true
  · obtain ⟨length, buffer, count, h⟩ := receive_of_open p grows hopen
    rw [h]
    exact ⟨rfl, writes_issue (by simp) _ _⟩
  · rw [receive_of_closed p grows (by simpa using hopen)]
    exact SameWrites.refl s

theorem writes_closeSocket (s : Client) : (closeSocket s).writes = s.writes := by
  obtain ⟨k, os, h, _, hos⟩ := closeSocket_eq s
  rw [h]
  exact (InFlight.countP_eq_of_forall₂ hos fun o o' ho ↦ by
    simp [Operation.isWrite, ho.1]).symm

theorem sameWrites_shutdownAndCloseSocket (s : Client) :
    SameWrites s (shutdownAndCloseSocket false s) := by
  obtain ⟨k, os, h, _, _⟩ := closeSocket_eq { s with localPort := 0 }
  have hwrites := writes_closeSocket { s with localPort := 0 }
  refine ⟨?_, hwrites⟩
  simp [shutdownAndCloseSocket, h]

theorem sameWrites_connectCbk (p : Protocol) (os : Os) (e : ErrorCode) (s : Client) :
    SameWrites s (connectCbk p os e s) := by
  by_cases hstopped : e = .operationAborted ∨ s.sendingBlocked = true
  · rw [connectCbk, if_pos hstopped]
    exact sameWrites_shutdownAndCloseSocket s
  · obtain ⟨port, h⟩ := connectCbk_of_not_aborted p os hstopped
    rw [h]
    have hreceive := sameWrites_receive p os.grows
      { s with localPort := port, wasNotConnected := false }
    exact ⟨hreceive.isSending, hreceive.writes⟩

/-- The bound `send_cbk` of a send without an error does nothing. -/
theorem sendCbk_success (p : Protocol) (os : Os) (s : Client) :
    sendCbk p os .success s = s := by
  simp [sendCbk]

theorem flagExact_sendData (message : List UInt8) (h : FlagExact s) :
    FlagExact (Tcp.sendData message s) := by
  unfold Tcp.sendData
  split_ifs
  · simp [FlagExact, writes, issue, Operation.isWrite]
  · exact h

/-! ## Steps -/

theorem writes_eraseIdx {i : ℕ} {o : Operation} {c : Completion} (hq : s.queued i = some (o, c)) :
    s.writes = writes { s with operations := s.operations.eraseIdx i } +
      if o.isWrite = true then 1 else 0 :=
  InFlight.countP_eraseIdx (queued_eq_some hq).1 Operation.isWrite

/-- Running the bound handler of a write takes the write away and keeps the
flag; running another handler keeps both. -/
theorem handle_flag {i : ℕ} {os : Os} {o : Operation} {c : Completion}
    (hq : s.queued i = some (o, c)) (hc : c.error = .success)
    (hstep : s.handle .tcp i os = some t) :
    t.isSending = s.isSending ∧ s.writes = t.writes + if o.isWrite = true then 1 else 0 := by
  obtain ⟨o', c', history, hq', rfl⟩ := handle_eq_some hstep
  rw [hq] at hq'
  obtain ⟨rfl, rfl⟩ := Prod.mk.inj (Option.some.inj hq')
  have herase := writes_eraseIdx hq
  have hsame : ∀ v : Client, SameWrites { s with
        operations := s.operations.eraseIdx i
        socket := { s.socket with history := history } } v →
      v.isSending = s.isSending ∧
        s.writes = v.writes + if o.isWrite = true then 1 else 0 := by
    intro v hv
    refine ⟨hv.isSending, ?_⟩
    rw [hv.writes]
    exact herase
  apply hsame
  unfold dispatch
  split
  · exact sameWrites_connectCbk .tcp os c.error _
  · rw [hc, sendCbk_success]
    exact SameWrites.refl _
  · rw [receiveCbk_tcp]
    exact SameWrites.refl _

theorem sameWrites_complete {i : ℕ} {c : Completion} (hstep : s.complete .tcp i c = some t) :
    SameWrites s t := by
  obtain ⟨o, ho, _, _, _, hf⟩ := complete_eq_some hstep
  have hset : SameWrites s { s with
      operations := s.operations.set i { o with completion := some c } } :=
    ⟨rfl, InFlight.countP_set ho rfl⟩
  obtain ⟨peer, incoming, datagrams, history, remote, buffer, rfl⟩ := finish_eq_some hf
  exact ⟨hset.isSending, hset.writes⟩

/-- A step without errors keeps the flag exact, unless it runs the `send_cbk` of
the last outstanding write. -/
theorem recorded_step (h : FlagExact s) (hno : noError s a) (hstep : step .tcp s a = some t) :
    (anotherWrite s a → FlagExact t) ∧ (Recorded t → anotherWrite s a) := by
  have hkept : anotherWrite s a → FlagExact t →
      (anotherWrite s a → FlagExact t) ∧ (Recorded t → anotherWrite s a) :=
    fun hother hflag ↦ ⟨fun _ ↦ hflag, fun _ ↦ hother⟩
  cases a with
  | start os =>
      cases Option.some.inj hstep
      exact hkept trivial ((sameWrites_connectSocket os s).flagExact h)
  | sendData message =>
      cases Option.some.inj hstep
      exact hkept trivial (flagExact_sendData message h)
  | peerSends bytes =>
      obtain ⟨_, rfl⟩ := step_peerSends hstep
      exact hkept trivial h
  | complete i c => exact hkept trivial ((sameWrites_complete hstep).flagExact h)
  | handle i os =>
      obtain ⟨o, c, _, hq, _⟩ := handle_eq_some (p := .tcp) hstep
      have hc : c.error = .success := hno (o, c) hq
      obtain ⟨hflag, hwrites⟩ := handle_flag hq hc hstep
      by_cases hkind : o.isWrite = true
      · rw [if_pos hkind] at hwrites
        -- the flag is raised before and after the step
        have hraised : t.isSending = true := hflag.trans (h.mpr (by omega))
        constructor
        · intro hother
          have htwo := hother (o, c) hq hkind
          exact iff_of_true hraised (by omega)
        · intro hrecorded entry hentry hwrite
          by_contra hlast
          have hlowered := hrecorded (by omega)
          rw [hraised] at hlowered
          exact absurd hlowered (by simp)
      · rw [if_neg hkind] at hwrites
        have hexact : FlagExact t := (SameWrites.mk hflag hwrites.symm).flagExact h
        refine hkept ?_ hexact
        intro entry hentry hwrite
        rw [hq] at hentry
        cases Option.some.inj hentry
        exact absurd hwrite hkind
  | stop | setConnected | setEstablished | sendCbk3 | datagram => exact absurd hno id

theorem leavesAlone_handle {i : ℕ} {os : Os} {o : Operation} {c : Completion}
    (hq : s.queued i = some (o, c)) (hwrite : o.isWrite = true) (hc : c.error = .success)
    (hstep : s.handle .tcp i os = some t) : LeavesAlone s t := by
  obtain ⟨o', c', hq', rfl⟩ := handle_eq_dispatch hstep
  rw [hq] at hq'
  obtain ⟨rfl, rfl⟩ := Prod.mk.inj (Option.some.inj hq')
  obtain ⟨handler, object, handle, completion⟩ := o
  cases handler with
  | connectCbk | receiveCbk => simp [Operation.isWrite] at hwrite
  | sendCbk message =>
      simp only [dispatch, hc, sendCbk_success]
      simp only [record]
      split_ifs <;> exact ⟨rfl, rfl⟩

/-- Without an error the three-argument `send_cbk` lowers the flag, but it leaves
alone only a connection in the state `CONNECTING`. -/
theorem sendCbk3_success (s : Client) : Recorded (Tcp.sendCbk3 .success s) ∧
    (LeavesAlone s (Tcp.sendCbk3 .success s) ↔ s.state = .connecting) := by
  by_cases hstate : s.state = .connecting
  · have heq : Tcp.sendCbk3 .success s = { s with isSending := false } := by
      simp [Tcp.sendCbk3, hstate]
    rw [heq]
    exact ⟨fun _ ↦ rfl, iff_of_true ⟨rfl, rfl⟩ hstate⟩
  · have heq : Tcp.sendCbk3 .success s = shutdownAndCloseSocket false
        { s with isSending := false, state := .connecting } := by
      simp [Tcp.sendCbk3, hstate]
    obtain ⟨k, os, h, _, _⟩ := shutdownAndCloseSocket_false
      { s with isSending := false, state := .connecting }
    rw [heq, h]
    exact ⟨fun _ ↦ rfl, iff_of_false (fun halone ↦ hstate halone.state.symm) hstate⟩

/-! ## Runs -/

/-- The steps of a run without errors that keep the flag right. -/
def finishing (s : Client) (a : Action) : Prop := noError s a ∧ anotherWrite s a

instance (s : Client) (a : Action) : Decidable (finishing s a) :=
  inferInstanceAs (Decidable (noError s a ∧ anotherWrite s a))

/-- In runs without errors a finished send is recorded as long as the flag was
constructed lowered and each bound `send_cbk` leaves another write outstanding,
and no longer.  The bound handler leaves the connection alone; the three-argument
`send_cbk` leaves alone exactly the connections in the state `CONNECTING`. -/
theorem finished_sends {local' remote : Endpoint}
    (h : (system .tcp local' remote).Leads finishing (constructed local' remote false) s) :
    (∀ isSending, Recorded (constructed local' remote isSending) ↔ isSending = false) ∧
      Recorded s ∧
      (∀ a t, noError s a → step .tcp s a = some t → (Recorded t ↔ anotherWrite s a)) ∧
      (∀ u i os o c t, u.queued i = some (o, c) → o.isWrite = true → c.error = .success →
        step .tcp u (.handle i os) = some t → LeavesAlone u t) ∧
      ∀ u, Recorded (Tcp.sendCbk3 .success u) ∧
        (LeavesAlone u (Tcp.sendCbk3 .success u) ↔ u.state = .connecting) := by
  have hexact : FlagExact s := by
    refine h.invariant ?_ (I := FlagExact) (by simp [FlagExact, writes, constructed])
    intro s a t hs hguard hstep
    exact (recorded_step hs hguard.1 hstep).1 hguard.2
  refine ⟨fun isSending ↦ by simp [Recorded, writes, constructed], hexact.recorded, ?_, ?_,
    sendCbk3_success⟩
  · intro a t hno hstep
    obtain ⟨hflag, hlost⟩ := recorded_step hexact hno hstep
    exact ⟨hlost, fun hother ↦ (hflag hother).recorded⟩
  · intro u i os o c t hq hwrite hc hstep
    exact leavesAlone_handle hq hwrite hc hstep

/-- A connected client with one write, not yet completed. -/
def oneWrite : List Action :=
  [.start .fine, .complete 0 ⟨.success, 0⟩, .handle 0 .fine, .sendData [1]]

/-- The first of two writes has finished. -/
theorem finished_sends_two : ∃ s,
    (system .tcp tester vehicle).run finishing
        (oneWrite ++ [.sendData [2], .complete 1 ⟨.success, 1⟩, .handle 1 .fine])
        (constructed tester vehicle false) = some s ∧
      s.writes = 1 ∧ Recorded s := by
  have hrun : ∃ s, (system .tcp tester vehicle).run finishing
      (oneWrite ++ [.sendData [2], .complete 1 ⟨.success, 1⟩, .handle 1 .fine])
      (constructed tester vehicle false) = some s ∧ s.writes = 1 := ⟨_, rfl, rfl⟩
  obtain ⟨s, hs, hwrites⟩ := hrun
  exact ⟨s, hs, hwrites, (finished_sends (leads_of_run hs)).2.1⟩

/-- After the only write has finished without an error the flag stays raised, and
the three-argument `send_cbk` does not leave the connected client alone. -/
theorem finished_send_forgotten :
    (¬∀ s, (system .tcp tester vehicle).Leads noError (constructed tester vehicle false) s →
      Recorded s) ∧
    ¬∀ s, (system .tcp tester vehicle).Leads anyStep (constructed tester vehicle false) s →
      LeavesAlone s (Tcp.sendCbk3 .success s) := by
  constructor
  · intro hrecorded
    have hrun : ∃ s, (system .tcp tester vehicle).run noError
        (oneWrite ++ [.complete 1 ⟨.success, 1⟩, .handle 1 .fine])
        (constructed tester vehicle false) = some s ∧ s.writes = 0 ∧ s.isSending = true :=
      ⟨_, rfl, rfl, rfl⟩
    obtain ⟨s, hs, hwrites, hflag⟩ := hrun
    have hlowered := hrecorded s (leads_of_run hs) hwrites
    rw [hflag] at hlowered
    exact absurd hlowered (by simp)
  · intro halone
    have hrun : ∃ s, (system .tcp tester vehicle).run anyStep (oneWrite ++ [.setConnected true])
        (constructed tester vehicle false) = some s ∧ s.state = .connected := ⟨_, rfl, rfl⟩
    obtain ⟨s, hs, hstate⟩ := hrun
    have hconnecting := (sendCbk3_success s).2.mp (halone s (leads_of_run hs))
    rw [hstate] at hconnecting
    exact absurd hconnecting (by simp)

end Client

end DoipEndpoint
