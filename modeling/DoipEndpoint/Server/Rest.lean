import DoipEndpoint.Server.AcceptLoop
import DoipEndpoint.Server.Table

/-!
# A stopped TCP server comes to rest

With its acceptor closed the server issues no accept, so each of its operations is
good for a few more events only.  What is pending then is on an open connection, and
the operating system can complete it.
-/

namespace DoipEndpoint

namespace Server

open TransitionSystem

/-- A completion by the operating system, or a completion handler. -/
def Action.isEvent : Action → Bool
  | .complete _ _ => true
  | .handle _ _ => true
  | _ => false

def eventsOnly (_ : Server) (a : Action) : Prop := a.isEvent = true

/-- The events that an operation is good for once the acceptor is closed: its
completion, its handler, and those of the operation that an `accept_cbk` issues. -/
def Operation.work (o : Operation) : ℕ :=
  (if o.completion = none then 1 else 0) + if o.handler.isAccept then 3 else 1

def work (s : Server) : ℕ := (s.operations.map Operation.work).sum

variable {s t : Server}

/-! ## Work -/

theorem work_issue (handler : Handler) (completion : Option Completion) (s : Server) :
    (s.issue handler completion).work = s.work + Operation.work ⟨handler, completion⟩ := by
  simp [work, issue]

theorem work_abort_le (affected : Handler → Bool) (o : Operation) :
    (o.abort affected).work ≤ o.work := by
  unfold Operation.abort
  split_ifs with h
  · simp [Operation.work, h.2]
  · exact le_refl _

theorem work_closeSocket_le (c : ℕ) (s : Server) : (s.closeSocket c).work ≤ s.work := by
  unfold closeSocket
  split_ifs
  · have hops : List.Forall₂ (fun o o' ↦ o'.work ≤ o.work) s.operations
        (s.operations.map (Operation.abort fun h ↦ h.socket = some c)) :=
      List.forall₂_map_right_iff.mpr (List.forall₂_same.mpr fun o _ ↦ work_abort_le _ o)
    exact InFlight.sum_map_le_of_forall₂ hops fun _ _ h ↦ h
  · exact le_refl _

theorem work_removeConnection (c : ℕ) (s : Server) : (s.removeConnection c).work = s.work := by
  rw [removeConnection_eq]
  rfl

theorem work_stopAndRemoveConnection_le (c : ℕ) (s : Server) :
    (Connection.stopAndRemoveConnection c s).work ≤ s.work :=
  (work_removeConnection c _).trans_le (work_closeSocket_le c s)

theorem work_receive_le (grows : Bool) (c : ℕ) (s : Server) :
    (Connection.receive grows c s).work ≤ s.work + 2 := by
  simp only [Connection.receive]
  split_ifs
  · split
    · exact Nat.le_add_right _ _
    · have hle := work_stopAndRemoveConnection_le c
        (s.update c { s.connection c with recvBuffer := (s.connection c).recvBuffer.clear })
      exact Nat.le_add_right_of_le hle
    · rw [work_issue]
      exact le_refl _
  · exact Nat.le_add_right _ _

theorem work_accepted_le (os : Os) (c : ℕ) (s : Server) :
    (s.accepted os c).work ≤ s.work + 2 := by
  obtain ⟨remote, answers, h | ⟨_, _, h⟩⟩ := accepted_cases os c s <;> rw [h]
  · exact Nat.le_add_right _ _
  · exact work_receive_le os.grows c _

theorem acceptorOpen_accepted (os : Os) (c : ℕ) (s : Server) :
    (s.accepted os c).acceptorOpen = s.acceptorOpen :=
  (calm_accepted os c s).acceptorOpen

theorem start_of_closed (h : s.acceptorOpen = false) : s.start = s := by
  simp [start, h]

/-- Either the accepted connection is read, or a timer is started. -/
theorem work_acceptCbk_le (h : s.acceptorOpen = false) (os : Os) (e : ErrorCode) (c : ℕ) :
    (s.acceptCbk os e c).work ≤ s.work + 2 := by
  by_cases hok : e = .success
  · have haccepts : s.acceptCbk os e c = (s.accepted os c).start := by simp [acceptCbk, hok]
    rw [haccepts, start_of_closed ((acceptorOpen_accepted os c s).trans h)]
    exact work_accepted_le os c s
  · simp only [acceptCbk, if_neg hok]
    split_ifs
    · rw [start_of_closed h]
      exact Nat.le_add_right _ _
    · rw [work_issue]
      exact le_refl _
    · exact Nat.le_add_right _ _

theorem work_record (handler : Handler) (r : Completion) (s : Server) :
    (record handler r s).work = s.work := by
  unfold record
  split
  · split_ifs <;> rfl
  · rfl

theorem work_dispatch_le (h : s.acceptorOpen = false) (os : Os) (handler : Handler)
    (r : Completion) :
    (dispatch os handler r s).work + 1 ≤ s.work + Operation.work ⟨handler, some r⟩ := by
  cases handler with
  | acceptCbk c => exact Nat.add_le_add_right (work_acceptCbk_le h os r.error c) 1
  | receiveCbk c offset length =>
      refine Nat.add_le_add_right ?_ 1
      simp only [dispatch, Connection.receiveCbk]
      split_ifs
      · exact le_refl _
      · exact work_stopAndRemoveConnection_le c s
      · exact le_refl _
      · exact le_refl _
  | sendCbk c message =>
      refine Nat.add_le_add_right ?_ 1
      simp only [dispatch, Connection.writeCompletionCondition]
      split_ifs
      · exact work_stopAndRemoveConnection_le c s
      · exact le_refl _
  | retry =>
      refine Nat.add_le_add_right ?_ 1
      simp only [dispatch, retry, start_of_closed h, ite_self]
      exact le_refl _

theorem work_finish {handler : Handler} {r : Completion} (h : finish handler r s = some t) :
    t.work = s.work := by
  cases handler with
  | acceptCbk c =>
      simp only [finish] at h
      split_ifs at h <;> cases Option.some.inj h <;> rfl
  | receiveCbk c offset length =>
      simp only [finish] at h
      split_ifs at h <;> cases Option.some.inj h <;> rfl
  | sendCbk c message =>
      simp only [finish] at h
      split_ifs at h
      cases Option.some.inj h
      rfl
  | retry =>
      cases Option.some.inj h
      rfl

/-- With the acceptor closed every event lowers the work. -/
theorem work_event (h : s.acceptorOpen = false) {a : Action} (ha : a.isEvent = true)
    (hstep : step s a = some t) : t.acceptorOpen = false ∧ t.work < s.work := by
  obtain ⟨u, hu, rfl⟩ := step_eq_some hstep
  have hstop : a ≠ .stop := by
    rintro rfl
    simp [Action.isEvent] at ha
  refine ⟨(acceptorOpen_perform hu hstop).trans h, ?_⟩
  change u.work < s.work
  cases a with
  | start | stop | sendData | removeConnection | stopAndRemoveConnection | peerSends =>
      simp [Action.isEvent] at ha
  | complete i r =>
      obtain ⟨handler, ho, hf⟩ := complete_eq_some hu
      have hsum := InFlight.sum_map_set ho ⟨handler, some r⟩ Operation.work
      have hless : Operation.work ⟨handler, some r⟩ + 1 = Operation.work ⟨handler, none⟩ := by
        simp only [Operation.work, reduceCtorEq, ↓reduceIte]
        omega
      rw [work_finish hf, work, work]
      simp only at hsum ⊢
      omega
  | handle i os =>
      obtain ⟨handler, r, hq, rfl⟩ := handle_eq_some hu
      have hsum := InFlight.sum_map_eraseIdx (queued_eq_some hq) Operation.work
      let v : Server := { s with operations := s.operations.eraseIdx i }
      have hclosed : (record handler r v).acceptorOpen = false := by
        unfold record
        split
        · split_ifs <;> exact h
        · exact h
      have hdispatch := work_dispatch_le hclosed os handler r
      rw [work_record] at hdispatch
      have hv : s.work = Operation.work ⟨handler, some r⟩ + v.work := hsum
      change (dispatch os handler r (record handler r v)).work < s.work
      omega

/-! ## What is pending -/

/-- A pending accept is on the open acceptor, and a pending receive or write on an open
connection. -/
def Pending (s : Server) : Prop := ∀ o ∈ s.operations, o.completion = none →
  (o.handler.isAccept = true → s.acceptorOpen = true) ∧
    ∀ c, o.handler.socket = some c → (s.connection c).isOpen = true

theorem Pending.mono (h : Pending s)
    (hops : ∀ o ∈ t.operations, o.completion = none → o ∈ s.operations)
    (hacceptor : t.acceptorOpen = s.acceptorOpen)
    (hopen : ∀ c, (s.connection c).isOpen = true → (t.connection c).isOpen = true) :
    Pending t := by
  intro o ho hnone
  obtain ⟨haccept, hsocket⟩ := h o (hops o ho hnone) hnone
  exact ⟨fun hisAccept ↦ hacceptor.trans (haccept hisAccept),
    fun c hc ↦ hopen c (hsocket c hc)⟩

theorem Pending.update (h : Pending s) (c : ℕ) {k : Connection}
    (hk : (s.connection c).isOpen = true → k.isOpen = true) : Pending (s.update c k) := by
  refine h.mono (fun _ ho _ ↦ ho) rfl fun c' hopen ↦ ?_
  rcases eq_or_ne c' c with rfl | hne
  · simpa [Server.update] using hk hopen
  · simpa [Server.update, hne] using hopen

theorem Pending.issue (h : Pending s) {handler : Handler} {completion : Option Completion}
    (haccept : completion = none → handler.isAccept = true → s.acceptorOpen = true)
    (hsocket : completion = none → ∀ c, handler.socket = some c →
      (s.connection c).isOpen = true) : Pending (s.issue handler completion) := by
  intro o ho hnone
  rcases List.mem_append.mp ho with hold | hnew
  · exact h o hold hnone
  · obtain rfl := List.mem_singleton.mp hnew
    exact ⟨haccept hnone, hsocket hnone⟩

/-- What is aborted is not pending. -/
theorem pending_of_abort {affected : Handler → Bool} {ops : List Operation} {o : Operation}
    (ho : o ∈ ops.map (Operation.abort affected)) (hnone : o.completion = none) :
    o ∈ ops ∧ affected o.handler = false := by
  obtain ⟨o', ho', rfl⟩ := List.mem_map.mp ho
  cases haffected : affected o'.handler with
  | true =>
      by_cases hc : o'.completion = none
      · simp [Operation.abort, haffected, hc] at hnone
      · simp [Operation.abort, hc] at hnone
  | false =>
      rw [Operation.abort_of_not haffected]
      exact ⟨ho', haffected⟩

theorem Pending.closeSocket (h : Pending s) (c : ℕ) : Pending (s.closeSocket c) := by
  unfold Server.closeSocket
  split_ifs
  · intro o ho hnone
    obtain ⟨hold, hother⟩ := pending_of_abort ho hnone
    obtain ⟨haccept, hsocket⟩ := h o hold hnone
    refine ⟨haccept, fun c' hc' ↦ ?_⟩
    have hne : c' ≠ c := by
      rintro rfl
      simp [hc'] at hother
    simpa [Server.update, hne] using hsocket c' hc'
  · exact h

theorem Pending.removeConnection (h : Pending s) (c : ℕ) : Pending (s.removeConnection c) := by
  rw [removeConnection_eq]
  exact h

theorem Pending.receive (h : Pending s) (grows : Bool) (c : ℕ) :
    Pending (Connection.receive grows c s) := by
  simp only [Connection.receive]
  split_ifs with hopen
  · split
    · exact h
    · have hclear := h.update c (k := { s.connection c with
        recvBuffer := (s.connection c).recvBuffer.clear }) id
      exact (hclear.closeSocket c).removeConnection c
    · rename_i buffer length shrinkCount _
      have hbuffer := h.update c (k := { s.connection c with
        recvBuffer := buffer, missingCapacity := 0, shrinkCount := shrinkCount }) id
      refine hbuffer.issue (fun _ haccept ↦ by simp [Handler.isAccept] at haccept) ?_
      rintro _ c' hc'
      obtain rfl : c = c' := by simpa [Handler.socket] using hc'
      simpa [Server.update] using hopen
  · exact h

/-- The connection object that is created has no operation yet. -/
theorem Pending.start (h : Pending s) (hnew : (s.connection s.created).isOpen = false) :
    Pending s.start := by
  unfold Server.start
  split_ifs with hopen
  · refine Pending.mono (s := (s.update s.created .create).issue (.acceptCbk s.created) none) ?_
      (fun _ ho _ ↦ ho) rfl fun _ hc ↦ hc
    refine (h.update s.created ?_).issue (fun _ _ ↦ hopen) (by simp [Handler.socket])
    simp [hnew]
  · exact h

theorem Pending.closeAcceptor (h : Pending s) : Pending s.closeAcceptor := by
  unfold Server.closeAcceptor
  split_ifs
  · intro o ho hnone
    obtain ⟨hold, hother⟩ := pending_of_abort ho hnone
    exact ⟨fun haccept ↦ by simp [haccept] at hother, (h o hold hnone).2⟩
  · exact h

theorem Pending.stop (h : Pending s) : Pending s.stop := by
  have hfold : ∀ (entries : List (Endpoint × ℕ)) (u : Server), Pending u →
      Pending (entries.foldl (fun s entry ↦ Connection.stop entry.2 s) u) := by
    intro entries
    induction entries with
    | nil => exact fun u hu ↦ hu
    | cons entry rest ih => exact fun u hu ↦ ih _ (hu.closeSocket entry.2)
  exact hfold _ _ h.closeAcceptor

/-- Accepting a connection opens no socket. -/
theorem isOpen_receive_le (grows : Bool) (c c' : ℕ) (s : Server)
    (h : ((Connection.receive grows c s).connection c').isOpen = true) :
    (s.connection c').isOpen = true := by
  simp only [Connection.receive] at h
  split_ifs at h with hopen
  · rcases eq_or_ne c' c with rfl | hne
    · exact hopen
    · split at h
      · exact h
      · simpa [Connection.handleRecvBufferException, removeConnection_eq, closeSocket_isOpen,
          Server.update, hne] using h
      · simpa [Server.issue, Server.update, hne] using h
  · exact h

theorem created_receive (grows : Bool) (c : ℕ) (s : Server) :
    (Connection.receive grows c s).created = s.created := by
  simp only [Connection.receive]
  split_ifs
  · split
    · rfl
    · rw [Connection.handleRecvBufferException, removeConnection_eq]
      exact (sameTable_closeSocket c _).created
    · rfl
  · rfl

theorem Pending.accepted (h : Pending s) (os : Os) (c : ℕ) : Pending (s.accepted os c) := by
  obtain ⟨remote, answers, heq | ⟨_, _, heq⟩⟩ := accepted_cases os c s <;> rw [heq]
  · exact h.update c id
  · have hinform := h.update c (k := { (s.connection c).setRemoteInfo remote with
      accepted := some os }) id
    refine Pending.receive ?_ os.grows c
    exact Pending.update (s := { s.update c { (s.connection c).setRemoteInfo remote with
      accepted := some os } with connections := s.connections.insert remote c }) hinform c id

theorem isOpen_update (c : ℕ) {k : Connection} (s : Server)
    (hk : k.isOpen = (s.connection c).isOpen) (c' : ℕ) :
    ((s.update c k).connection c').isOpen = (s.connection c').isOpen := by
  rcases eq_or_ne c' c with rfl | hne
  · simp [Server.update, hk]
  · simp [Server.update, hne]

/-- The next connection object is as closed as it was. -/
theorem new_accepted (os : Os) (c : ℕ) (s : Server)
    (h : (s.connection s.created).isOpen = false) :
    ((s.accepted os c).connection (s.accepted os c).created).isOpen = false := by
  obtain ⟨remote, answers, heq | ⟨_, _, heq⟩⟩ := accepted_cases os c s <;> rw [heq]
  · rw [isOpen_update]
    · exact h
    · rfl
  · let v : Server := { s.update c { (s.connection c).setRemoteInfo remote with
      accepted := some os } with connections := s.connections.insert remote c }
    have hv : (v.connection s.created).isOpen = false := by
      rw [← h]
      refine isOpen_update c s ?_ s.created
      rfl
    rw [Connection.start, created_receive, ← Bool.not_eq_true]
    intro hopen
    have hattached := isOpen_receive_le _ _ _ _ hopen
    rw [isOpen_update] at hattached
    · exact absurd (hv.symm.trans hattached) (by decide)
    · rfl

theorem Pending.acceptCbk (h : Pending s) (hnew : (s.connection s.created).isOpen = false)
    (os : Os) (e : ErrorCode) (c : ℕ) : Pending (s.acceptCbk os e c) := by
  have hboth : Pending (if e = .success then s.accepted os c else s) ∧
      ((if e = .success then s.accepted os c else s).connection
        (if e = .success then s.accepted os c else s).created).isOpen = false := by
    split_ifs
    · exact ⟨h.accepted os c, new_accepted os c s hnew⟩
    · exact ⟨h, hnew⟩
  simp only [Server.acceptCbk]
  generalize (if e = .success then s.accepted os c else s) = v at hboth ⊢
  split_ifs
  · exact hboth.1.start hboth.2
  · exact hboth.1.issue (fun _ haccept ↦ by simp [Handler.isAccept] at haccept)
      (by simp [Handler.socket])
  · exact hboth.1

theorem Pending.stopAndRemoveConnection (h : Pending s) (c : ℕ) :
    Pending (Connection.stopAndRemoveConnection c s) :=
  (h.closeSocket c).removeConnection c

theorem Pending.record (h : Pending s) (handler : Handler) (r : Completion) :
    Pending (record handler r s) := by
  unfold Server.record
  split
  · split_ifs
    · exact h.update _ id
    · exact h
  · exact h

theorem Pending.dispatch (h : Pending s) (hnew : (s.connection s.created).isOpen = false)
    (os : Os) (handler : Handler) (r : Completion) : Pending (dispatch os handler r s) := by
  cases handler with
  | acceptCbk c => exact h.acceptCbk hnew os r.error c
  | receiveCbk c offset length =>
      simp only [Server.dispatch, Connection.receiveCbk]
      split_ifs
      · exact h
      · exact h.stopAndRemoveConnection c
      · exact h
      · exact h
  | sendCbk c message =>
      simp only [Server.dispatch, Connection.writeCompletionCondition]
      split_ifs
      · exact h.stopAndRemoveConnection c
      · exact h
  | retry =>
      simp only [Server.dispatch, retry]
      split_ifs
      · exact h.start hnew
      · exact h

theorem Pending.finish (h : Pending s) {handler : Handler} {r : Completion}
    (hf : finish handler r s = some t) : Pending t := by
  cases handler with
  | acceptCbk c =>
      simp only [Server.finish] at hf
      split_ifs at hf <;> cases Option.some.inj hf
      · exact h.update c fun _ ↦ rfl
      · exact h
  | receiveCbk c offset length =>
      simp only [Server.finish] at hf
      split_ifs at hf <;> cases Option.some.inj hf
      · exact h.update c id
      · exact h.update c id
  | sendCbk c message =>
      simp only [Server.finish] at hf
      split_ifs at hf
      cases Option.some.inj hf
      exact h
  | retry =>
      cases Option.some.inj hf
      exact h

/-- A connection that an operation is on is alive. -/
theorem Pending.reap (h : Pending s) : Pending s.reap := by
  intro o ho hnone
  obtain ⟨haccept, hsocket⟩ := h o ho hnone
  refine ⟨haccept, fun c hc ↦ ?_⟩
  have hholds : o.handler.connection = some c := by
    cases hh : o.handler <;> simp_all [Handler.socket, Handler.connection]
  have halive : s.referenced c = true := by
    rw [referenced, Bool.or_eq_true, List.any_eq_true]
    exact Or.inr ⟨o, ho, by simpa using hholds⟩
  rw [reap_isOpen, halive, hsocket c hc, Bool.and_self]

theorem pending_step (h : Pending s) (hreads : Reads s) {a : Action}
    (hstep : step s a = some t) : Pending t := by
  have hnew : (s.connection s.created).isOpen = false := by
    rw [(hreads.fresh s.created (le_refl _)).1]
    rfl
  obtain ⟨u, hu, rfl⟩ := step_eq_some hstep
  apply Pending.reap
  cases a with
  | start =>
      cases Option.some.inj hu
      exact h.start hnew
  | stop =>
      cases Option.some.inj hu
      exact h.stop
  | sendData c message =>
      simp only [perform] at hu
      split_ifs at hu
      cases Option.some.inj hu
      refine Pending.issue (s := { s with isSending := true }) h
        (fun _ haccept ↦ by simp [Handler.isAccept] at haccept) fun hnone c' hc' ↦ ?_
      obtain rfl : c = c' := by simpa [Handler.socket] using hc'
      by_contra hclosed
      simp [hclosed] at hnone
  | removeConnection c =>
      cases Option.some.inj hu
      exact h.removeConnection c
  | stopAndRemoveConnection c =>
      cases Option.some.inj hu
      exact h.stopAndRemoveConnection c
  | peerSends c bytes =>
      simp only [perform, peerSends] at hu
      split_ifs at hu
      cases Option.some.inj hu
      exact h.update c id
  | complete i r =>
      obtain ⟨handler, _, hf⟩ := complete_eq_some hu
      have hset : Pending { s with operations := s.operations.set i ⟨handler, some r⟩ } := by
        refine h.mono (fun o ho hnone ↦ ?_) rfl fun _ hc ↦ hc
        rcases List.mem_or_eq_of_mem_set ho with hold | rfl
        · exact hold
        · simp at hnone
      exact hset.finish hf
  | handle i os =>
      obtain ⟨handler, r, _, rfl⟩ := handle_eq_some hu
      have herase : Pending { s with operations := s.operations.eraseIdx i } :=
        h.mono (fun _ ho _ ↦ List.mem_of_mem_eraseIdx ho) rfl fun _ hc ↦ hc
      refine (herase.record handler r).dispatch ?_ os handler r
      have hsame : ∀ v : Server, ((Server.record handler r v).connection
          (Server.record handler r v).created).isOpen = (v.connection v.created).isOpen := by
        intro v
        unfold Server.record
        split
        · split_ifs
          · refine isOpen_update _ v ?_ _
            rfl
          · rfl
        · rfl
      rw [hsame]
      exact hnew

theorem pending_of_reachable {allowed : Server → Action → Prop}
    (h : system.Reachable allowed s) : Pending s ∧ Filed s := by
  apply h.invariant (I := fun s ↦ Pending s ∧ Filed s)
  · rintro s rfl
    exact ⟨fun o ho ↦ absurd ho List.not_mem_nil, filed_constructed⟩
  · rintro s a t ⟨hpending, hfiled⟩ _ hstep
    exact ⟨pending_step hpending hfiled.reads hstep, hfiled.step hstep⟩

/-! ## Rest -/

/-- A pending operation can fail, and a completed one be handled. -/
theorem operations_of_no_event (h : Pending s)
    (hend : ∀ a, a.isEvent = true → step s a = none) : s.operations = [] := by
  have hperform : ∀ a, a.isEvent = true → s.perform a = none :=
    fun a ha ↦ Option.map_eq_none_iff.mp (hend a ha)
  cases hops : s.operations with
  | nil => rfl
  | cons o ops =>
      have hmem : o ∈ s.operations := by simp [hops]
      have hfirst : s.operations[0]? = some o := by simp [hops]
      cases hc : o.completion with
      | none =>
          obtain ⟨haccept, hsocket⟩ := h o hmem hc
          have hnone := hperform (.complete 0 ⟨.brokenPipe, 0⟩) rfl
          cases hh : o.handler with
          | acceptCbk c =>
              have hopen := haccept (by simp [hh, Handler.isAccept])
              simp [perform, complete, hfirst, hc, finish, hh, hopen] at hnone
          | receiveCbk c | sendCbk c =>
              have hopen := hsocket c (by simp [hh, Handler.socket])
              simp [perform, complete, hfirst, hc, finish, hh, hopen] at hnone
          | retry => simp [perform, complete, hfirst, hc, finish, hh] at hnone
      | some r =>
          have hnone := hperform (.handle 0 (.fine .unspecified)) rfl
          simp [perform, handle, queued, hfirst, hc] at hnone

/-- After `stop` a TCP server comes to rest by itself: every order of its events ends,
with no operation in flight, and then only what `connections_` still holds keeps a
connection object alive. -/
theorem stopped_comes_to_rest {s₀ s₁ : Server} (hreachable : system.Reachable anyStep s₀)
    (hstop : system.step s₀ .stop = some s₁) (hafter : system.Leads anyStep s₁ s) :
    system.Settles eventsOnly s ∧ ∀ t, system.Leads eventsOnly s t →
      (∀ a, eventsOnly t a → step t a = none) →
        t.operations = [] ∧ ∀ c, (t.connection c).isOpen = true → t.stored c = true := by
  have hs := (hreachable.step trivial hstop).leads hafter
  have hclosed : s.acceptorOpen = false := by
    have hstep : step s₀ .stop = some s₁ := hstop
    obtain ⟨u, hu, rfl⟩ := step_eq_some hstep
    cases Option.some.inj hu
    refine hafter.invariant (I := fun s ↦ s.acceptorOpen = false) (fun v a w hv _ hstep ↦ ?_)
      (stop_spec s₀).1
    obtain ⟨x, hx, rfl⟩ := step_eq_some hstep
    exact (closed_perform hv hx).acceptorOpen
  refine ⟨settles_of_measure work (fun v a w hv ha hstep ↦ work_event hv ha hstep) hclosed,
    fun t ht hend ↦ ?_⟩
  have htreach : system.Reachable anyStep t := hs.leads (ht.mono fun _ _ _ ↦ trivial)
  have hnone := operations_of_no_event (pending_of_reachable htreach).1 hend
  refine ⟨hnone, fun c hopen ↦ ?_⟩
  have halive := alive_of_reachable htreach c hopen
  simpa [referenced, hnone] using halive

/-- The `accept_cbk` of a connection that was accepted before `stop` is still to be run. -/
theorem stopped_comes_to_rest_accepted : ∃ s t : Server,
    system.Reachable anyStep s ∧ s.acceptorOpen = false ∧ s.work = 3 ∧
      system.Settles eventsOnly s ∧ system.Leads eventsOnly s t ∧ t.operations = [] := by
  have hrun : ∃ s₀ s, system.run anyStep [.start, .complete 0 ⟨.success, 0⟩] constructed = some s₀ ∧
      system.step s₀ .stop = some s ∧ s.acceptorOpen = false ∧ s.work = 3 :=
    ⟨_, _, rfl, rfl, rfl, rfl⟩
  obtain ⟨s₀, s, hs₀, hstop, hclosed, hwork⟩ := hrun
  have hreachable : system.Reachable anyStep s₀ := reachable_of_run rfl hs₀
  obtain ⟨hsettles, hrest⟩ := stopped_comes_to_rest hreachable hstop (Leads.refl s)
  obtain ⟨t, ht, hend⟩ := hsettles.exists_end
  exact ⟨s, t, hreachable.step trivial hstop, hclosed, hwork, hsettles, ht, (hrest t ht hend).1⟩

end Server

end DoipEndpoint
