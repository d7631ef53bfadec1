import DoipEndpoint.Client.Sending

/-!
# Waiting until a TCP client has sent

`wait_until_sent` starts a wait on `sent_timer_` and is the handler of that wait as
well.  To set the expiry time again cancels the waits that are pending, and the
handler of a cancelled wait sets it again in turn.
-/

namespace DoipEndpoint

namespace Client

open TransitionSystem

/-- A TCP client with the waits on `sent_timer_`: the number of those that are pending,
and what the queued handlers of the others will be given. -/
structure Waiting where
  client : Client
  pending : ℕ
  ready : List ErrorCode
  deriving DecidableEq, Repr

namespace Waiting

def cancel (s : Waiting) : Waiting :=
  { s with
    pending := 0
    ready := s.ready ++ List.replicate s.pending .operationAborted }

/-- `sent_timer_.expires_from_now`; the time itself is not modelled. -/
def expiresFromNow (s : Waiting) : Waiting := s.cancel

def asyncWait (s : Waiting) : Waiting := { s with pending := s.pending + 1 }

/-- Without an error it only reports that the time is over. -/
def waitUntilSent (error : ErrorCode) (s : Waiting) : Waiting :=
  if s.client.isSending = false ∨ error = .success then s
  else s.expiresFromNow.asyncWait

/-- The three-argument `send_cbk` with its call of `sent_timer_.cancel`. -/
def sendCbk (error : ErrorCode) (s : Waiting) : Waiting :=
  { s.cancel with client := Tcp.sendCbk3 error s.client }

/-- The expiry time is over, and every pending wait completes without an error. -/
def expire (s : Waiting) : Waiting :=
  { s with pending := 0, ready := s.ready ++ List.replicate s.pending .success }

inductive Action where
  | waitUntilSent (error : ErrorCode)
  | run (i : ℕ)
  | expire
  | sendCbk (error : ErrorCode)
  /-- Any other step of the client. -/
  | client (a : Client.Action)
  deriving DecidableEq, Repr

def step (s : Waiting) : Action → Option Waiting
  | .waitUntilSent error => some (s.waitUntilSent error)
  | .run i =>
      match s.ready[i]? with
      | none => none
      | some error => some (waitUntilSent error { s with ready := s.ready.eraseIdx i })
  | .expire => some s.expire
  | .sendCbk error => some (s.sendCbk error)
  | .client (.sendCbk3 _) => none
  | .client a =>
      match Client.step .tcp s.client a with
      | none => none
      | some t => some { s with client := t }

def system (local' remote : Endpoint) : TransitionSystem Waiting Action where
  initial s := (Client.system .tcp local' remote).initial s.client ∧ s.pending = 0 ∧ s.ready = []
  step := step

/-- The handlers that are ready are run, and nothing else happens. -/
def handlersOnly (_ : Waiting) : Action → Prop
  | .run _ => True
  | _ => False

def isError (error : ErrorCode) : Bool := error ≠ .success

/-- The waits that are pending or cancelled. -/
def waits (s : Waiting) : ℕ := s.pending + s.ready.countP isError

/-- A wait is started only when no other one is pending or cancelled, and a send is
begun only when there is at most one. -/
def oneWait (s : Waiting) : Action → Prop
  | .waitUntilSent error =>
      s.client.isSending = false ∨ error = .success ∨ s.waits = 0
  | .client (.sendData _) => s.client.socket.isOpen = false ∨ s.waits ≤ 1
  | _ => True

instance (s : Waiting) : (a : Action) → Decidable (oneWait s a)
  | .waitUntilSent _ => inferInstanceAs (Decidable (_ ∨ _ ∨ _))
  | .client (.sendData _) => inferInstanceAs (Decidable (_ ∨ _))
  | .run _ | .expire | .sendCbk _ => isTrue trivial
  | .client (.start _) | .client .stop | .client (.setConnected _) | .client (.setEstablished _)
  | .client (.sendCbk3 _) | .client (.peerSends _) | .client (.datagram _ _)
  | .client (.complete _ _) | .client (.handle _ _) => isTrue trivial

variable {s t u : Waiting} {a : Action} {error : ErrorCode} {local' remote : Endpoint}

/-! ## The waits that a step leaves -/

theorem waitUntilSent_cases (error : ErrorCode) (s : Waiting) :
    ((s.client.isSending = false ∨ error = .success) ∧ s.waitUntilSent error = s) ∨
      (s.client.isSending = true ∧ error ≠ .success ∧
        s.waitUntilSent error = { s with
          pending := 1, ready := s.ready ++ List.replicate s.pending .operationAborted }) := by
  unfold waitUntilSent
  split_ifs with h
  · exact Or.inl ⟨h, rfl⟩
  · obtain ⟨hsending, herror⟩ := not_or.mp h
    exact Or.inr ⟨by simpa using hsending, herror, rfl⟩

theorem waits_rearmed (ready : List ErrorCode) (pending : ℕ) :
    1 + (ready ++ List.replicate pending ErrorCode.operationAborted).countP isError =
      pending + ready.countP isError + 1 := by
  have haborted : (List.replicate pending ErrorCode.operationAborted).countP isError = pending := by
    rw [List.countP_replicate]
    rfl
  rw [List.countP_append, haborted]
  omega

/-- A handler that is run takes one wait off the ready ones; a cancelled wait is
started again, and cancels the pending ones. -/
theorem run_cases {i : ℕ} (h : step s (.run i) = some t) : ∃ error, s.ready[i]? = some error ∧
    ((s.client.isSending = false ∨ error = .success) ∧
        t = { s with ready := s.ready.eraseIdx i } ∨
      s.client.isSending = true ∧ error ≠ .success ∧
        t = { s with
          pending := 1
          ready := s.ready.eraseIdx i ++ List.replicate s.pending .operationAborted }) := by
  simp only [step] at h
  cases hready : s.ready[i]? with
  | none => simp [hready] at h
  | some error =>
      simp only [hready] at h
      obtain rfl := Option.some.inj h
      refine ⟨error, rfl, ?_⟩
      rcases waitUntilSent_cases error { s with ready := s.ready.eraseIdx i } with
        ⟨hquiet, heq⟩ | ⟨hsending, herror, heq⟩
      · exact Or.inl ⟨hquiet, heq⟩
      · exact Or.inr ⟨hsending, herror, heq⟩

theorem run_pending {i : ℕ} (hpending : s.pending ≤ 1) (h : step s (.run i) = some t) :
    t.pending ≤ 1 := by
  obtain ⟨_, _, ⟨_, rfl⟩ | ⟨_, _, rfl⟩⟩ := run_cases h
  · exact hpending
  · exact le_refl 1

theorem run_client {i : ℕ} (h : step s (.run i) = some t) : t.client = s.client := by
  obtain ⟨_, _, ⟨_, rfl⟩ | ⟨_, _, rfl⟩⟩ := run_cases h <;> rfl

/-- While a send is under way the handlers keep the number of waits. -/
theorem run_waits {i : ℕ} (hsending : s.client.isSending = true)
    (h : step s (.run i) = some t) : t.waits = s.waits := by
  obtain ⟨error, hready, hcase⟩ := run_cases h
  have hcount := InFlight.countP_eraseIdx hready isError
  rcases hcase with ⟨hquiet, rfl⟩ | ⟨_, herror, rfl⟩
  · have hsuccess : isError error = false := by
      rcases hquiet with hfalse | rfl
      · rw [hsending] at hfalse
        exact absurd hfalse (by simp)
      · rfl
    rw [hsuccess] at hcount
    simp only [waits, hcount]
    rfl
  · have htrue : isError error = true := by simpa [isError] using herror
    rw [if_pos htrue] at hcount
    have hnew := waits_rearmed (s.ready.eraseIdx i) s.pending
    simp only [waits]
    omega

/-! ## The flag -/

theorem isSending_dispatch (os : Os) (o : Operation) (c : Completion) (s : Client) :
    (dispatch .tcp os o c s).isSending = s.isSending := by
  unfold dispatch
  split
  · exact (sameWrites_connectCbk .tcp os c.error s).isSending
  · exact (sameMembers_sendCbk .tcp os c.error s).isSending
  · rfl

theorem isSending_step {s t : Client} {a : Client.Action} (h : Client.step .tcp s a = some t)
    (hcbk : ∀ e, a ≠ .sendCbk3 e) : t.isSending = s.isSending ∨
      (∃ message, a = .sendData message) ∧ s.socket.isOpen = true ∧ t.isSending = true := by
  cases a with
  | start os =>
      cases Option.some.inj h
      exact Or.inl (sameMembers_connectSocket os s).isSending
  | stop =>
      cases Option.some.inj h
      exact Or.inl (sameMembers_shutdownAndCloseSocket s).isSending
  | setConnected b =>
      cases Option.some.inj h
      obtain ⟨state, hflag, _⟩ := setConnected_cases b s
      exact Or.inl (by rw [hflag])
  | setEstablished b =>
      cases Option.some.inj h
      obtain ⟨state, hflag, _⟩ := setEstablished_cases b s
      exact Or.inl (by rw [hflag])
  | sendData message =>
      cases Option.some.inj h
      by_cases hopen : s.socket.isOpen = true
      · refine Or.inr ⟨⟨message, rfl⟩, hopen, ?_⟩
        simp [Client.sendData, Tcp.sendData, hopen, issue]
      · exact Or.inl (by simp [Client.sendData, Tcp.sendData, hopen])
  | sendCbk3 e => exact absurd rfl (hcbk e)
  | peerSends bytes =>
      obtain ⟨_, rfl⟩ := step_peerSends h
      exact Or.inl rfl
  | datagram sender payload =>
      obtain ⟨_, _, rfl⟩ := step_datagram h
      exact Or.inl rfl
  | complete i c => exact Or.inl (sameWrites_complete h).isSending
  | handle i os =>
      obtain ⟨o, c, history, _, rfl⟩ := handle_eq_some h
      exact Or.inl (isSending_dispatch os o c _)

theorem client_eq_some {a : Client.Action} (h : step s (.client a) = some t) :
    (∀ e, a ≠ .sendCbk3 e) ∧ ∃ k, Client.step .tcp s.client a = some k ∧
      t = { s with client := k } := by
  have hcbk : ∀ e, a ≠ .sendCbk3 e := by
    rintro e rfl
    simp [step] at h
  refine ⟨hcbk, ?_⟩
  have hstep : (match Client.step .tcp s.client a with
      | none => none
      | some k => some { s with client := k }) = some t := by
    cases a with
    | sendCbk3 e => exact absurd rfl (hcbk e)
    | start | stop | setConnected | setEstablished | sendData | peerSends | datagram
    | complete | handle => exact h
  cases hk : Client.step .tcp s.client a with
  | none => simp [hk] at hstep
  | some k =>
      simp only [hk] at hstep
      exact ⟨k, rfl, (Option.some.inj hstep).symm⟩

/-! ## When the handlers come to rest -/

/-- No send is under way, or there is at most one wait. -/
def Restful (s : Waiting) : Prop := s.client.isSending = false ∨ s.waits ≤ 1

theorem Restful.run {i : ℕ} (h : Restful s) (hstep : step s (.run i) = some t) :
    Restful t ∧ t.ready.length < s.ready.length := by
  constructor
  · rcases h with hidle | hone
    · exact Or.inl ((congrArg Client.isSending (run_client hstep)).trans hidle)
    · cases hsending : s.client.isSending with
      | false => exact Or.inl ((congrArg Client.isSending (run_client hstep)).trans hsending)
      | true => exact Or.inr ((run_waits hsending hstep).trans_le hone)
  · obtain ⟨error, hready, hcase⟩ := run_cases hstep
    have hi : i < s.ready.length := (List.getElem?_eq_some_iff.mp hready).1
    have herase := List.length_eraseIdx_add_one hi
    rcases hcase with ⟨_, rfl⟩ | ⟨hsending, herror, rfl⟩
    · simp only
      omega
    · -- the only wait is the one whose handler is run
      have hnone : s.pending = 0 := by
        have hone : s.waits ≤ 1 := by
          rcases h with hidle | hone
          · rw [hsending] at hidle
            exact absurd hidle (by simp)
          · exact hone
        have htrue : isError error = true := by simpa [isError] using herror
        have hmem : 0 < s.ready.countP isError :=
          List.countP_pos_iff.mpr ⟨error, List.mem_of_getElem? hready, htrue⟩
        unfold waits at hone
        omega
      simp only [hnone, List.replicate_zero, List.append_nil]
      omega

theorem ready_of_no_run (h : ∀ i, step s (.run i) = none) : s.ready = [] := by
  rw [List.eq_nil_iff_forall_not_mem]
  intro error hmem
  obtain ⟨i, hi⟩ := List.mem_iff_getElem?.mp hmem
  have hnone := h i
  simp [step, hi] at hnone

theorem Restful.settles (h : Restful s) :
    (system local' remote).Settles handlersOnly s ∧
      ∃ t, (system local' remote).Leads handlersOnly s t ∧ t.ready = [] := by
  have hsettles : (system local' remote).Settles handlersOnly s := by
    refine settles_of_measure (I := Restful) (fun s ↦ s.ready.length) ?_ h
    intro s a t hs ha hstep
    cases a with
    | run i => exact hs.run hstep
    | waitUntilSent | expire | sendCbk | client => exact absurd ha id
  refine ⟨hsettles, ?_⟩
  obtain ⟨t, ht, hlast⟩ := hsettles.exists_end
  exact ⟨t, ht, ready_of_no_run fun i ↦ hlast (.run i) trivial⟩

/-- Two waits cancel each other for ever. -/
theorem ready_ne_nil (hsending : s.client.isSending = true) (hpending : s.pending ≤ 1)
    (hwaits : 2 ≤ s.waits) (h : (system local' remote).Leads handlersOnly s t) :
    t.ready ≠ [] := by
  have hkept : t.client.isSending = true ∧ t.pending ≤ 1 ∧ 2 ≤ t.waits := by
    refine h.invariant (I := fun s ↦ s.client.isSending = true ∧ s.pending ≤ 1 ∧ 2 ≤ s.waits)
      ?_ ⟨hsending, hpending, hwaits⟩
    intro s a t hs ha hstep
    cases a with
    | run i =>
        obtain ⟨hsending, hpending, hwaits⟩ := hs
        refine ⟨?_, run_pending hpending hstep, ?_⟩
        · exact (congrArg Client.isSending (run_client hstep)).trans hsending
        · rw [run_waits hsending hstep]
          exact hwaits
    | waitUntilSent | expire | sendCbk | client => exact absurd ha id
  obtain ⟨_, hone, htwo⟩ := hkept
  intro hnil
  rw [waits, hnil, List.countP_nil] at htwo
  omega

/-! ## Runs -/

theorem pending_step (h : s.pending ≤ 1) (hstep : step s a = some t) : t.pending ≤ 1 := by
  cases a with
  | waitUntilSent error =>
      cases Option.some.inj hstep
      rcases waitUntilSent_cases error s with ⟨_, heq⟩ | ⟨_, _, heq⟩ <;> rw [heq]
      exact h
  | run i => exact run_pending h hstep
  | expire =>
      cases Option.some.inj hstep
      exact Nat.zero_le 1
  | sendCbk error =>
      cases Option.some.inj hstep
      exact Nat.zero_le 1
  | client a =>
      obtain ⟨_, k, _, rfl⟩ := client_eq_some hstep
      exact h

theorem waits_expire (s : Waiting) : s.expire.waits ≤ s.waits := by
  have hsuccess : (List.replicate s.pending ErrorCode.success).countP isError = 0 := by
    rw [List.countP_replicate]
    rfl
  simp only [expire, waits, List.countP_append, hsuccess]
  omega

theorem waits_waitUntilSent (hsending : s.client.isSending = true) (herror : error ≠ .success) :
    (s.waitUntilSent error).waits = s.waits + 1 ∧
      (s.waitUntilSent error).client.isSending = true := by
  rcases waitUntilSent_cases error s with ⟨hquiet, _⟩ | ⟨_, _, heq⟩
  · rcases hquiet with hidle | hsuccess
    · rw [hsending] at hidle
      exact absurd hidle (by simp)
    · exact absurd hsuccess herror
  · rw [heq]
    exact ⟨waits_rearmed s.ready s.pending, hsending⟩

theorem Restful.step (h : Restful s) (hguard : oneWait s a) (hstep : step s a = some t) :
    Restful t := by
  cases a with
  | waitUntilSent error =>
      cases Option.some.inj hstep
      by_cases hquiet : s.client.isSending = false ∨ error = .success
      · have hsame : s.waitUntilSent error = s := if_pos hquiet
        rwa [hsame]
      · obtain ⟨hsending, herror⟩ := not_or.mp hquiet
        have hnone : s.waits = 0 := by
          rcases hguard with hidle | hsuccess | hnone
          · exact absurd hidle hsending
          · exact absurd hsuccess herror
          · exact hnone
        obtain ⟨hwaits, _⟩ := waits_waitUntilSent (by simpa using hsending) herror
        exact Or.inr (by omega)
  | run i => exact (h.run hstep).1
  | expire =>
      cases Option.some.inj hstep
      rcases h with hidle | hone
      · exact Or.inl hidle
      · exact Or.inr ((waits_expire s).trans hone)
  | sendCbk error =>
      cases Option.some.inj hstep
      obtain ⟨state, b, heq | heq⟩ := sendCbk3_cases error s.client
      · exact Or.inl (by simp [sendCbk, heq])
      · have hflag := (sameMembers_shutdownAndCloseSocket { s.client with
          isSending := false, state := state, wasNotConnected := b }).isSending
        exact Or.inl (by simp [sendCbk, heq, hflag])
  | client a =>
      obtain ⟨hcbk, k, hk, rfl⟩ := client_eq_some hstep
      rcases isSending_step hk hcbk with hsame | ⟨⟨message, rfl⟩, hopen, _⟩
      · rcases h with hidle | hone
        · exact Or.inl (hsame.trans hidle)
        · exact Or.inr hone
      · rcases hguard with hclosed | hone
        · rw [hopen] at hclosed
          exact absurd hclosed (by simp)
        · exact Or.inr hone

/-- Any other step leaves two waits while a send is under way. -/
theorem crowded_of_not_oneWait (hguard : ¬oneWait s a) (hstep : step s a = some t) :
    t.client.isSending = true ∧ 2 ≤ t.waits := by
  cases a with
  | waitUntilSent error =>
      cases Option.some.inj hstep
      obtain ⟨hsending, hmore⟩ := not_or.mp hguard
      obtain ⟨herror, hwait⟩ := not_or.mp hmore
      obtain ⟨hwaits, hflag⟩ := waits_waitUntilSent (by simpa using hsending) herror
      exact ⟨hflag, by omega⟩
  | run | expire | sendCbk => exact absurd trivial hguard
  | client a =>
      obtain ⟨hcbk, k, hk, rfl⟩ := client_eq_some hstep
      cases a with
      | sendData message =>
          obtain ⟨hopen, hwaits⟩ := not_or.mp hguard
          cases Option.some.inj hk
          have hopen' : s.client.socket.isOpen = true := by simpa using hopen
          refine ⟨by simp [Client.sendData, Tcp.sendData, hopen', issue], ?_⟩
          change 2 ≤ s.waits
          omega
      | start | stop | setConnected | setEstablished | sendCbk3 | peerSends | datagram
      | complete | handle => exact absurd trivial hguard

theorem restful_of_reachable (h : (system local' remote).Reachable oneWait s) : Restful s := by
  apply h.invariant (I := Restful)
  · rintro s ⟨_, hpending, hready⟩
    refine Or.inr ?_
    rw [waits, hpending, hready]
    exact Nat.zero_le 1
  · intro s a t hs hguard hstep
    exact hs.step hguard hstep

theorem pending_of_reachable {allowed : Waiting → Action → Prop}
    (h : (system local' remote).Reachable allowed s) : s.pending ≤ 1 := by
  apply h.invariant (I := fun s ↦ s.pending ≤ 1)
  · rintro s ⟨_, hpending, _⟩
    exact hpending.trans_le (Nat.zero_le 1)
  · intro s a t hs _ hstep
    exact pending_step hs hstep

/-- The ready handlers come to rest, in whatever order they are run, along every run
that keeps to one wait.  After any other step they never do. -/
theorem waits_come_to_rest (h : (system local' remote).Reachable oneWait s) :
    ((system local' remote).Settles handlersOnly s ∧
      ∃ t, (system local' remote).Leads handlersOnly s t ∧ t.ready = []) ∧
    ∀ a t, step s a = some t → ¬oneWait s a →
      ∀ u, (system local' remote).Leads handlersOnly t u → u.ready ≠ [] := by
  refine ⟨(restful_of_reachable h).settles, fun a t hstep hguard u hu ↦ ?_⟩
  obtain ⟨hsending, hwaits⟩ := crowded_of_not_oneWait hguard hstep
  have hpending := pending_step (pending_of_reachable h) hstep
  exact ready_ne_nil hsending hpending hwaits hu

def begun : List Action := [.client (.start .fine), .client (.sendData [1])]

theorem initial_tester : (system tester vehicle).initial
    ⟨constructed tester vehicle false, 0, []⟩ := ⟨⟨false, rfl⟩, rfl, rfl⟩

/-- The first wait expires, `send_cbk` cancels the second one, and the next send is begun
before either handler has been run. -/
def waited : List Action :=
  begun ++ [.waitUntilSent .operationAborted, .expire, .waitUntilSent .operationAborted,
    .sendCbk .success, .client (.sendData [2])]

theorem waits_come_to_rest_once : ∃ s, (system tester vehicle).run oneWait waited
      ⟨constructed tester vehicle false, 0, []⟩ = some s ∧
    s.client.isSending = true ∧ s.ready = [.success, .operationAborted] ∧
    ∃ t, (system tester vehicle).Leads handlersOnly s t ∧ t.ready = [] := by
  have hrun : ∃ s, (system tester vehicle).run oneWait waited
      ⟨constructed tester vehicle false, 0, []⟩ = some s ∧
      s.client.isSending = true ∧ s.ready = [.success, .operationAborted] := ⟨_, rfl, rfl, rfl⟩
  obtain ⟨s, hs, hsending, hready⟩ := hrun
  have hrest := waits_come_to_rest (reachable_of_run initial_tester hs)
  exact ⟨s, hs, hsending, hready, hrest.1.2⟩

/-- Two calls during one send. -/
theorem waits_spin : ¬∀ s, (system tester vehicle).Reachable anyStep s →
    ∃ t, (system tester vehicle).Leads handlersOnly s t ∧ t.ready = [] := by
  intro h
  have hrun : ∃ s, (system tester vehicle).run anyStep
      (begun ++ [.waitUntilSent .operationAborted, .waitUntilSent .operationAborted])
      ⟨constructed tester vehicle false, 0, []⟩ = some s ∧
      s.client.isSending = true ∧ s.pending = 1 ∧ s.waits = 2 := ⟨_, rfl, rfl, rfl, rfl⟩
  obtain ⟨s, hs, hsending, hpending, hwaits⟩ := hrun
  obtain ⟨t, ht, hready⟩ := h s (reachable_of_run initial_tester hs)
  exact ready_ne_nil hsending hpending.le hwaits.ge ht hready

end Waiting

end Client

end DoipEndpoint
