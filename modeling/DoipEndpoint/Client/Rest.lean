import DoipEndpoint.Client.Ownership

/-!
# What a client still has to do

A failed send starts one connect, a connect arms at most one receive, and a
receive of the TCP client arms nothing.  So whatever a client does is paid for
by the calls of `start` and `send_data`: it cannot keep reconnecting on its own.
The receives of the UDP client re-arm themselves, so that only its connects
are bounded in this way.
-/

namespace DoipEndpoint

namespace Client

open TransitionSystem

namespace Action

def isStart : Action → Bool
  | .start _ => true
  | _ => false

def isSendData : Action → Bool
  | .sendData _ => true
  | _ => false

/-- A completion by the operating system, or a completion handler. -/
def isEvent : Action → Bool
  | .complete _ _ => true
  | .handle _ _ => true
  | _ => false

end Action

/-- What an `async_connect`, a receive, and an event are taken to cost. -/
structure Prices where
  connect : ℕ
  receive : ℕ
  event : ℕ

namespace Prices

/-- The price of all that follows from a receive. -/
def receiving (q : Prices) : ℕ := q.receive + 2 * q.event

def connecting (q : Prices) : ℕ := q.connect + 2 * q.event + q.receiving

def sending (q : Prices) : ℕ := 2 * q.event + q.connecting

/-- The price of what a completion handler may start. -/
def following (q : Prices) : Handler → ℕ
  | .receiveCbk _ _ => 0
  | .connectCbk _ => q.receiving
  | .sendCbk _ => q.connecting

/-- What an operation in flight can still cost. -/
def owed (q : Prices) (o : Operation) : ℕ :=
  (if o.completion = none then 2 * q.event else q.event) + q.following o.handler

/-- What a client has cost, and what its operations can still cost. -/
def account (q : Prices) (s : Client) : ℕ :=
  q.connect * s.connectsIssued + q.receive * s.receivesIssued + (s.operations.map q.owed).sum

/-- What a call brings in. -/
def gain (q : Prices) : Action → ℕ
  | .start _ => q.connecting
  | .sendData _ => q.sending
  | _ => 0

end Prices

/-- The events that the operations in flight can still lead to. -/
def work (s : Client) : ℕ := (s.operations.map (Prices.owed ⟨0, 0, 1⟩)).sum

variable {q : Prices} {s t : Client}

theorem owed_of_aborted {o o' : Operation} (h : Aborted o o') : q.owed o' ≤ q.owed o := by
  obtain ⟨hhandler, _, _, hcompletion | ⟨hnone, hsome⟩⟩ := h
  · simp only [Prices.owed, hhandler, hcompletion, le_refl]
  · simp only [Prices.owed, hhandler, hnone, hsome, reduceCtorEq, ↓reduceIte]
    omega

theorem account_le_of_aborted (hc : t.connectsIssued = s.connectsIssued)
    (hr : t.receivesIssued = s.receivesIssued)
    (hops : List.Forall₂ Aborted s.operations t.operations) : q.account t ≤ q.account s := by
  simp only [Prices.account, hc, hr]
  exact Nat.add_le_add_left
    (InFlight.sum_map_le_of_forall₂ hops fun _ _ ho ↦ owed_of_aborted ho) _

theorem account_congr (hc : t.connectsIssued = s.connectsIssued)
    (hr : t.receivesIssued = s.receivesIssued) (hops : t.operations = s.operations) :
    q.account t = q.account s := by simp only [Prices.account, hc, hr, hops]

theorem account_issue (handler : Handler) (completion : Option Completion) (s : Client) :
    q.account (s.issue handler completion) =
      q.account s + q.owed ⟨handler, s.socket.object, s.socket.handle, completion⟩ := by
  simp only [Prices.account, issue, List.map_append, List.map_cons, List.map_nil, List.sum_append,
    List.sum_cons, List.sum_nil]
  omega

/-! ## What each function costs -/

theorem account_shutdownAndCloseSocket (s : Client) :
    q.account (shutdownAndCloseSocket false s) ≤ q.account s := by
  obtain ⟨k, os, h, _, hos⟩ := shutdownAndCloseSocket_false s
  rw [h]
  exact account_le_of_aborted rfl rfl hos

theorem account_asyncReceive (offset length : ℕ) (s : Client) :
    q.account (asyncReceive offset length s) = q.account s + q.receiving := by
  have hissue := account_issue (q := q) (.receiveCbk offset length) none s
  simp only [Prices.account, asyncReceive, Prices.owed, Prices.following, Prices.receiving,
    ↓reduceIte] at hissue ⊢
  have hmul : q.receive * ((s.issue (.receiveCbk offset length) none).receivesIssued + 1) =
      q.receive * (s.issue (.receiveCbk offset length) none).receivesIssued + q.receive :=
    Nat.mul_succ _ _
  simp only [issue] at hissue hmul ⊢
  omega

theorem account_receive (p : Protocol) (grows : Bool) (s : Client) :
    q.account (receive p grows s) ≤ q.account s + q.receiving := by
  by_cases hopen : s.socket.isOpen = true
  · obtain ⟨length, buffer, count, h⟩ := receive_of_open p grows hopen
    rw [h, account_asyncReceive]
    exact le_refl (q.account s + q.receiving)
  · rw [receive_of_closed p grows (by simpa using hopen)]
    exact Nat.le_add_right _ _

theorem account_connectSocket (os : Os) (s : Client) :
    q.account (connectSocket os s) ≤ q.account s + q.connecting := by
  have hposted : ∀ (e : ErrorCode) (k : Socket),
      q.account (postConnectCbk e { s with socket := k }) ≤ q.account s + q.connecting := by
    intro e k
    have hsame : q.account { s with socket := k } = q.account s := account_congr rfl rfl rfl
    rw [postConnectCbk, account_issue, hsame]
    simp only [Prices.owed, Prices.following, Prices.connecting, reduceCtorEq, ↓reduceIte]
    omega
  rcases connectSocket_cases os s with ⟨_, _, e, _, h⟩ | ⟨k, e, _, _, h⟩ | ⟨k, port, _, _, h⟩
  · rw [h]
    exact hposted e s.socket
  · rw [h]
    exact hposted e k
  · rw [h]
    have hissue := account_issue (q := q) (.connectCbk (some s.remote)) none
      { s with socket := { k with bound := some port }, state := .connecting }
    have hmul : q.connect * (s.connectsIssued + 1) = q.connect * s.connectsIssued + q.connect :=
      Nat.mul_succ _ _
    simp only [Prices.account, asyncConnect, Prices.owed, Prices.following, Prices.connecting,
      ↓reduceIte, issue] at hissue ⊢
    omega

theorem account_connectCbk (p : Protocol) (os : Os) (e : ErrorCode) (s : Client) :
    q.account (connectCbk p os e s) ≤ q.account s + q.receiving := by
  by_cases hstopped : e = .operationAborted ∨ s.sendingBlocked = true
  · rw [connectCbk, if_pos hstopped]
    exact (account_shutdownAndCloseSocket s).trans (Nat.le_add_right _ _)
  · obtain ⟨port, h⟩ := connectCbk_of_not_aborted p os hstopped
    rw [h]
    exact account_receive p os.grows { s with localPort := port, wasNotConnected := false }

theorem account_sendCbk (p : Protocol) (os : Os) (e : ErrorCode) (s : Client) :
    q.account (sendCbk p os e s) ≤ q.account s + q.connecting := by
  by_cases hr : Reconnects e = true
  · obtain ⟨ops, hops, h⟩ := sendCbk_of_reconnects p os s hr
    rw [h]
    refine (account_connectSocket os _).trans (Nat.add_le_add_right ?_ _)
    exact account_le_of_aborted rfl rfl hops
  · by_cases ha : e = .operationAborted
    · rw [ha, sendCbk_of_aborted]
      have hclosed := account_shutdownAndCloseSocket (q := q) { s with sendingBlocked := true }
      exact hclosed.trans (Nat.le_add_right _ _)
    · obtain ⟨b, h⟩ := sendCbk_of_other p os s (by simpa using hr) ha
      rw [h]
      exact Nat.le_add_right (q.account s) _

/-- Where receives and events cost nothing, re-arming a receive is free. -/
theorem account_receiveCbk {p : Protocol} (hfree : p = .udp → q.receiving = 0) (e : ErrorCode)
    (s : Client) : q.account (receiveCbk p e s) ≤ q.account s := by
  cases p with
  | tcp => rw [receiveCbk_tcp]
  | udp =>
      rw [receiveCbk_udp]
      split_ifs
      · exact le_refl _
      · exact account_shutdownAndCloseSocket s
      · have hreceive := account_receive (q := q) .udp true s
        rwa [hfree rfl, Nat.add_zero] at hreceive

theorem account_dispatch {p : Protocol} (hfree : p = .udp → q.receiving = 0) (os : Os)
    (o : Operation) (c : Completion) (s : Client) :
    q.account (dispatch p os o c s) ≤ q.account s + q.following o.handler := by
  cases hh : o.handler with
  | connectCbk target =>
      simp only [dispatch, hh]
      exact account_connectCbk p os c.error s
  | sendCbk message =>
      simp only [dispatch, hh]
      exact account_sendCbk p os c.error s
  | receiveCbk offset length =>
      simp only [dispatch, hh]
      exact account_receiveCbk hfree c.error s

/-! ## What each step costs -/

theorem account_handle {p : Protocol} (hfree : p = .udp → q.receiving = 0) {i : ℕ} {os : Os}
    (h : s.handle p i os = some t) : q.account t + q.event ≤ q.account s := by
  obtain ⟨o, c, history, hq, rfl⟩ := handle_eq_some h
  obtain ⟨ho, hcompletion⟩ := queued_eq_some hq
  have hcbk := account_dispatch (q := q) hfree os o c { s with
    operations := s.operations.eraseIdx i
    socket := { s.socket with history := history } }
  have hsum := InFlight.sum_map_eraseIdx ho q.owed
  have howed : q.owed o = q.event + q.following o.handler := by
    simp [Prices.owed, hcompletion]
  have htaken : q.account { s with
      operations := s.operations.eraseIdx i
      socket := { s.socket with history := history } } + q.owed o = q.account s := by
    simp only [Prices.account]
    omega
  omega

theorem account_complete {p : Protocol} {i : ℕ} {c : Completion}
    (h : s.complete p i c = some t) : q.account t + q.event = q.account s := by
  obtain ⟨o, ho, hpending, _, _, hf⟩ := complete_eq_some h
  obtain ⟨peer, incoming, datagrams, history, remote, buffer, rfl⟩ := finish_eq_some hf
  have hsum := InFlight.sum_map_set ho { o with completion := some c } q.owed
  simp only [Prices.account, Prices.owed, hpending, reduceCtorEq, ↓reduceIte] at hsum ⊢
  omega

theorem account_sendData (p : Protocol) (message : List UInt8) (s : Client) :
    q.account (s.sendData p message) ≤ q.account s + q.sending := by
  rcases sendData_cases p message s with h | ⟨completion, isSending, h, _⟩
  · rw [h]
    exact Nat.le_add_right _ _
  · have hsame : q.account { s with isSending := isSending } = q.account s :=
      account_congr rfl rfl rfl
    rw [h, account_issue, hsame]
    simp only [Prices.owed, Prices.following, Prices.sending]
    split_ifs <;> omega

theorem account_sendCbk3 (e : ErrorCode) (s : Client) :
    q.account (Tcp.sendCbk3 e s) ≤ q.account s := by
  obtain ⟨state, wasNotConnected, h | h⟩ := sendCbk3_cases e s
  · rw [h]
    exact le_refl (q.account s)
  · rw [h]
    exact account_shutdownAndCloseSocket _

/-- A step pays for its event out of the account and of what a call brings in. -/
theorem account_step {p : Protocol} (hfree : p = .udp → q.receiving = 0) {a : Action}
    (h : step p s a = some t) :
    q.account t + (if a.isEvent then q.event else 0) ≤ q.account s + q.gain a := by
  cases a with
  | start os =>
      cases Option.some.inj h
      rw [start, connect_eq]
      exact account_connectSocket os s
  | stop =>
      cases Option.some.inj h
      exact account_shutdownAndCloseSocket s
  | setConnected connected =>
      cases Option.some.inj h
      obtain ⟨state, hstate, _⟩ := setConnected_cases connected s
      rw [hstate]
      exact le_refl (q.account s)
  | setEstablished established =>
      cases Option.some.inj h
      obtain ⟨state, hstate, _⟩ := setEstablished_cases established s
      rw [hstate]
      exact le_refl (q.account s)
  | sendData message =>
      cases Option.some.inj h
      exact account_sendData p message s
  | sendCbk3 error =>
      rw [step_sendCbk3 h]
      exact account_sendCbk3 error s
  | peerSends bytes =>
      obtain ⟨_, rfl⟩ := step_peerSends h
      exact le_refl (q.account s)
  | datagram sender payload =>
      obtain ⟨_, _, rfl⟩ := step_datagram h
      exact le_refl (q.account s)
  | complete i c => exact (account_complete h).le
  | handle i os => exact account_handle hfree h

/-! ## Runs -/

theorem sum_gain (q : Prices) (as : List Action) : (as.map q.gain).sum =
    q.connecting * as.countP Action.isStart + q.sending * as.countP Action.isSendData := by
  induction as with
  | nil => rfl
  | cons a as ih =>
      simp only [List.map_cons, List.sum_cons, List.countP_cons, ih]
      cases a <;> simp only [Prices.gain, Action.isStart, Action.isSendData, Bool.false_eq_true,
        ↓reduceIte, Nat.mul_add, Nat.mul_one, Nat.mul_zero] <;> omega

theorem sum_event (q : Prices) (as : List Action) :
    (as.map fun a ↦ if a.isEvent then q.event else 0).sum =
      q.event * as.countP Action.isEvent := by
  induction as with
  | nil => rfl
  | cons a as ih =>
      simp only [List.map_cons, List.sum_cons, List.countP_cons, ih]
      split_ifs <;> simp only [Nat.mul_add, Nat.mul_one, Nat.mul_zero] <;> omega

theorem account_run {p : Protocol} (hfree : p = .udp → q.receiving = 0)
    {local' remote : Endpoint} {as : List Action}
    (h : (system p local' remote).run anyStep as s = some t) :
    q.account t + q.event * as.countP Action.isEvent ≤ q.account s +
      (q.connecting * as.countP Action.isStart + q.sending * as.countP Action.isSendData) := by
  rw [← sum_gain, ← sum_event]
  exact cost_of_run (fun s a t _ hst ↦ account_step (q := q) hfree hst) h

theorem account_constructed (q : Prices) (local' remote : Endpoint) (isSending : Bool) :
    q.account (constructed local' remote isSending) = 0 := by
  simp [Prices.account, constructed]

/-- A client issues at most one connect for each call of `start` and
`send_data`, whatever the operating system and the peer do; the TCP client
issues no more receives than that either.  `connect` and `receive` are called only
where the client calls them itself. -/
theorem connects_bounded (p : Protocol) {local' remote : Endpoint} {isSending : Bool}
    {as : List Action}
    (h : (system p local' remote).run anyStep as (constructed local' remote isSending) = some t) :
    t.connectsIssued ≤ as.countP Action.isStart + as.countP Action.isSendData ∧
      (p = .tcp →
        t.receivesIssued ≤ as.countP Action.isStart + as.countP Action.isSendData) := by
  constructor
  · have hrun := account_run (q := ⟨1, 0, 0⟩) (fun _ ↦ rfl) h
    rw [account_constructed] at hrun
    simp only [Prices.account, Prices.connecting, Prices.sending, Prices.receiving] at hrun
    omega
  · rintro rfl
    have hrun := account_run (q := ⟨0, 1, 0⟩) (by simp) h
    rw [account_constructed] at hrun
    simp only [Prices.account, Prices.connecting, Prices.sending, Prices.receiving] at hrun
    omega

/-- A send that finds the connection broken costs the second connect. -/
def resent : List Action :=
  [.start .fine, .sendData [1], .complete 1 ⟨.brokenPipe, 0⟩, .handle 1 .fine]

theorem connects_bounded_resent : ∃ t : Client,
    (system .tcp tester vehicle).run anyStep resent (constructed tester vehicle false) = some t ∧
      t.connectsIssued = 2 ∧
      t.connectsIssued ≤ resent.countP Action.isStart + resent.countP Action.isSendData := by
  obtain ⟨t, hrun, htwo⟩ : ∃ t : Client, (system .tcp tester vehicle).run anyStep resent
      (constructed tester vehicle false) = some t ∧ t.connectsIssued = 2 := ⟨_, rfl, rfl⟩
  exact ⟨t, hrun, htwo, (connects_bounded .tcp hrun).1⟩

/-! ## Rest -/

def eventsOnly (_ : Client) (a : Action) : Prop := a.isEvent = true

/-- A pending operation can always fail, and a completed one be handled. -/
theorem operations_of_no_event (hs : Owned s) (h : ∀ a, a.isEvent = true → step .tcp s a = none) :
    s.operations = [] := by
  cases hops : s.operations with
  | nil => rfl
  | cons o ops =>
      have hmem : o ∈ s.operations := by simp [hops]
      have hfirst : s.operations[0]? = some o := by simp [hops]
      cases hc : o.completion with
      | none =>
          obtain ⟨hopen, hhandle⟩ := hs.pending o hmem hc
          have hnone := h (.complete 0 ⟨.brokenPipe, 0⟩) rfl
          cases hh : o.handler <;>
            simp [step, complete, hfirst, hc, hhandle, hopen, finish, hh] at hnone
      | some c =>
          have hnone := h (.handle 0 .fine) rfl
          simp [step, handle, queued, hfirst, hc] at hnone

theorem settles_events (local' remote : Endpoint) (s : Client) :
    (system .tcp local' remote).Settles eventsOnly s := by
  refine settles_of_measure (I := fun _ ↦ True) work (fun s a t _ ha hst ↦ ⟨trivial, ?_⟩) trivial
  have hstep := account_step (q := ⟨0, 0, 1⟩) (by simp) hst
  have hgain : Prices.gain ⟨0, 0, 1⟩ a = 0 := by
    cases a with
    | complete | handle => rfl
    | start | stop | setConnected | setEstablished | sendData | sendCbk3 | peerSends | datagram =>
        simp [eventsOnly, Action.isEvent] at ha
  simp only [Prices.account, eventsOnly] at hstep ha
  simp only [hgain, ha, ↓reduceIte] at hstep
  simp only [work]
  omega

/-- In every run the completions and the handlers of a TCP client are paid for
by what was in flight, with at most four for a `start` and six for a
`send_data`.  Left to its operations, a reachable client comes to rest, and then
nothing is in flight. -/
theorem comes_to_rest (local' remote : Endpoint) :
    (∀ (s t : Client) (as : List Action),
      (system .tcp local' remote).run anyStep as s = some t →
      t.work + as.countP Action.isEvent ≤
        s.work + (4 * as.countP Action.isStart + 6 * as.countP Action.isSendData)) ∧
    ∀ s : Client, (system .tcp local' remote).Reachable anyStep s →
      (system .tcp local' remote).Settles eventsOnly s ∧
      ∀ t, (system .tcp local' remote).Leads eventsOnly s t →
        (∀ a, eventsOnly t a → step .tcp t a = none) → t.operations = [] := by
  constructor
  · intro s t as h
    have hrun := account_run (q := ⟨0, 0, 1⟩) (by simp) h
    simp only [Prices.account, Prices.connecting, Prices.sending, Prices.receiving] at hrun
    simp only [work]
    omega
  · intro s hs
    refine ⟨settles_events local' remote s, fun t ht hend ↦ ?_⟩
    have htreach : (system .tcp local' remote).Reachable anyStep t :=
      hs.leads (ht.mono fun _ _ _ ↦ trivial)
    exact operations_of_no_event (owned_reachable htreach) hend

/-- The connect that the broken pipe starts is followed by one receive, and that
is the end. -/
theorem comes_to_rest_resent : ∃ s t : Client,
    (system .tcp tester vehicle).Reachable anyStep s ∧ s.work = 7 ∧
      (system .tcp tester vehicle).Settles eventsOnly s ∧
      (system .tcp tester vehicle).Leads eventsOnly s t ∧ t.operations = [] := by
  obtain ⟨s, hrun, hwork⟩ : ∃ s : Client, (system .tcp tester vehicle).run anyStep resent
      (constructed tester vehicle false) = some s ∧ s.work = 7 := ⟨_, rfl, rfl⟩
  have hs := reachable_of_tester_run hrun
  obtain ⟨hsettles, hrest⟩ := (comes_to_rest tester vehicle).2 s hs
  obtain ⟨t, ht, hend⟩ := hsettles.exists_end
  exact ⟨s, t, hs, hwork, hsettles, ht, hrest t ht hend⟩

end Client

end DoipEndpoint
