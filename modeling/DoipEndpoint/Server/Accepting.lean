import DoipEndpoint.Custody
import DoipEndpoint.Server.AcceptLoop
import DoipEndpoint.Server.Locked

/-!
# The accept loop on several threads

A thread that has taken `accept_cbk` or a timer off the queue carries the loop with it
until it issues the next accept or timer.  `acceptor_mutex_` is what makes the accept that
`start` issues come before any `stop`.
-/

namespace DoipEndpoint

namespace Server

open Program

/-! ## Acts that leave the loop and the table alone -/

/-- Connections may have been removed from the table, and nothing else has happened to
it or to the accept loop. -/
structure Aside (s t : Server) : Prop where
  loop : t.loop = s.loop
  acceptorOpen : t.acceptorOpen = s.acceptorOpen
  acceptsIssued : t.acceptsIssued = s.acceptsIssued
  created : t.created = s.created
  table : ∀ (key : Endpoint) (c : ℕ), t.connections[key]? = some c → s.connections[key]? = some c

theorem Aside.refl (s : Server) : Aside s s := ⟨rfl, rfl, rfl, rfl, fun _ _ h ↦ h⟩

theorem Aside.trans {s t u : Server} (h : Aside s t) (h' : Aside t u) : Aside s u :=
  ⟨h'.loop.trans h.loop, h'.acceptorOpen.trans h.acceptorOpen,
    h'.acceptsIssued.trans h.acceptsIssued, h'.created.trans h.created,
    fun key c hkey ↦ h.table key c (h'.table key c hkey)⟩

theorem Quiet.aside {s t : Server} (h : Quiet s t) (hcreated : t.created = s.created) :
    Aside s t :=
  ⟨h.loop, h.acceptorOpen, h.acceptsIssued, hcreated, h.table⟩

theorem aside_update (s : Server) (c : ℕ) (k : Connection) : Aside s (s.update c k) :=
  ⟨rfl, rfl, rfl, rfl, fun _ _ h ↦ h⟩

theorem aside_setIsSending (isSending : Bool) (s : Server) :
    Aside s (Locked.Connection.setIsSending isSending s) :=
  ⟨rfl, rfl, rfl, rfl, fun _ _ h ↦ h⟩

theorem aside_issue {handler : Handler} (h : handler.inLoop = false)
    (completion : Option Completion) (s : Server) : Aside s (s.issue handler completion) :=
  ⟨by simp [loop, issue, List.filter_append, h], rfl, rfl, rfl, fun _ _ hkey ↦ hkey⟩

theorem aside_closeSocket (c : ℕ) (s : Server) : Aside s (s.closeSocket c) :=
  (quiet_closeSocket c s).aside (sameTable_closeSocket c s).created

theorem aside_removeConnection (c : ℕ) (s : Server) : Aside s (s.removeConnection c) :=
  (quiet_removeConnection c s).aside (by rw [removeConnection_eq])

theorem aside_receiveUnlocked (grows : Bool) (c : ℕ) (s : Server) :
    Aside s (Locked.Connection.receiveUnlocked grows c s) := by
  unfold Locked.Connection.receiveUnlocked
  simp only
  split
  · split
    · exact Aside.refl s
    · exact (aside_update s c _).trans (aside_closeSocket c _)
    · exact (aside_update s c _).trans (aside_issue rfl none _)
  · exact Aside.refl s

namespace Locked

theorem acts_removeConnection (c : ℕ) : Acts Aside (removeConnection c) :=
  (Acts.simply (aside_removeConnection c)).guarded

namespace Connection

theorem acts_stop (c : ℕ) : Acts Aside (stop c) := (Acts.simply (aside_closeSocket c)).guarded

theorem acts_stopAndRemoveConnection (c : ℕ) : Acts Aside (stopAndRemoveConnection c) :=
  (acts_stop c).guarded.andThen (acts_removeConnection c)

theorem acts_receive (grows : Bool) (c : ℕ) : Acts Aside (receive grows c) := by
  refine (Acts.act (aside_receiveUnlocked grows c) fun s ↦ ?_).guarded
  split
  · exact acts_removeConnection c
  · exact Acts.skip

theorem acts_start (grows : Bool) (c : ℕ) : Acts Aside (start grows c) :=
  (Acts.simply fun s ↦ aside_update s c _).andThen (acts_receive grows c)

theorem acts_sendData (c : ℕ) (message : List UInt8) : Acts Aside (sendData c message) := by
  refine Acts.guarded (Acts.andThen (Acts.simply (aside_setIsSending true)).guarded ?_)
  exact Acts.simply fun s ↦ aside_issue rfl _ s

theorem acts_writeCompletionCondition (error : ErrorCode) (c : ℕ) :
    Acts Aside (writeCompletionCondition error c) := by
  unfold writeCompletionCondition
  split
  · exact acts_stopAndRemoveConnection c
  · exact Acts.skip

theorem acts_receiveCbk (removes : Bool) (error : ErrorCode) (c : ℕ) :
    Acts Aside (receiveCbk removes error c) := by
  unfold receiveCbk
  split
  · exact Acts.skip
  split
  · apply Acts.andThen
    · split
      · exact Acts.guarded Acts.skip
      · exact Acts.skip
    · split
      · exact acts_stopAndRemoveConnection c
      · exact Acts.skip
  · exact Acts.skip

end Connection

theorem acts_sendCbk (error : ErrorCode) : Acts Aside (sendCbk error) :=
  (Acts.simply (aside_setIsSending false)).guarded.andThen (Acts.guarded Acts.skip)

end Locked

/-- A handler that does not belong to the loop. -/
theorem acts_dispatch (os : Os) (handler : Handler) (h : handler.inLoop = false)
    (r : Completion) : Acts Aside (Locked.dispatch os handler r) := by
  cases handler with
  | acceptCbk | retry => simp [Handler.inLoop] at h
  | receiveCbk c offset length => exact Locked.Connection.acts_receiveCbk os.removes r.error c
  | sendCbk c message =>
      exact (Locked.Connection.acts_writeCompletionCondition r.error c).andThen
        (Locked.acts_sendCbk r.error)

/-! ## The loop in custody -/

/-- As long as the acceptor is open, what has been reported to the loop is what Asio reports
then. -/
def Reported (s : Server) : Prop :=
  s.acceptorOpen = true → ∀ o ∈ s.loop, ∀ r, o.completion = some r → Reports o.handler r.error

/-- The operations of the loop and the threads that carry it have become no more, and
fewer only if the acceptor has been closed; then no accept is issued. -/
structure Passes (s : Server) (n : ℕ) (t : Server) (n' : ℕ) : Prop where
  atMost : t.loop.length + n' ≤ s.loop.length + n
  reported : Reported s → Reported t
  kept : Reported s → t.acceptorOpen = true →
    s.acceptorOpen = true ∧ s.loop.length + n ≤ t.loop.length + n'
  closed : s.acceptorOpen = false →
    t.acceptorOpen = false ∧ t.acceptsIssued = s.acceptsIssued

def acceptLoop : Custody Mutex Server Bool ℕ where
  mutex := .acceptorMutex
  view s := s.acceptorOpen
  trade := Passes
  refl _ _ := ⟨le_refl _, id, fun _ hopen ↦ ⟨hopen, le_refl _⟩, fun hclosed ↦ ⟨hclosed, rfl⟩⟩

variable {s t : Server} {n : ℕ}

theorem passes_of_eq (hloop : t.loop = s.loop) (hopen : t.acceptorOpen = s.acceptorOpen)
    (hissued : t.acceptsIssued = s.acceptsIssued) (n : ℕ) : Passes s n t n := by
  refine ⟨by rw [hloop], ?_, ?_, ?_⟩
  · intro hs hopen' o ho
    exact hs (hopen ▸ hopen') o (hloop ▸ ho)
  · intro _ hopen'
    exact ⟨hopen ▸ hopen', by rw [hloop]⟩
  · intro hclosed
    exact ⟨hopen.trans hclosed, hissued⟩

theorem Aside.passes (h : Aside s t) (n : ℕ) : Passes s n t n :=
  passes_of_eq h.loop h.acceptorOpen h.acceptsIssued n

/-- An operation of the loop is issued by the thread that carries it. -/
theorem passes_issue {handler : Handler} (hin : handler.inLoop = true) {u : Server}
    (hu : u.operations = s.operations ++ [⟨handler, none⟩])
    (hopen : u.acceptorOpen = s.acceptorOpen)
    (hissued : s.acceptorOpen = false → u.acceptsIssued = s.acceptsIssued) (rest : ℕ) :
    Passes s (1 + rest) u (0 + rest) := by
  have hloop : u.loop = s.loop ++ [⟨handler, none⟩] := by
    simp [loop, hu, List.filter_append, hin]
  have hlength : u.loop.length = s.loop.length + 1 := by simp [hloop]
  refine ⟨by omega, ?_, ?_, ?_⟩
  · intro hs hopen' o ho r hr
    rw [hloop, List.mem_append, List.mem_singleton] at ho
    rcases ho with hold | rfl
    · exact hs (hopen ▸ hopen') o hold r hr
    · exact absurd hr (by simp)
  · intro _ hopen'
    exact ⟨hopen ▸ hopen', by omega⟩
  · intro hclosed
    exact ⟨hopen.trans hclosed, hissued hclosed⟩

theorem passes_createConnection (s : Server) (n : ℕ) :
    Passes s n (Locked.createConnection s) n := by
  unfold Locked.createConnection
  refine passes_of_eq ?_ ?_ ?_ n <;> split <;> rfl

theorem passes_asyncAccept (hopen : s.acceptorOpen = true) (c rest : ℕ) :
    Passes s (1 + rest) (Locked.asyncAccept c s) (0 + rest) := by
  refine passes_issue (rfl : (Handler.acceptCbk c).inLoop = true) ?_ ?_ ?_ rest
  · rfl
  · rfl
  · intro hclosed
    exact absurd hopen (by simp [hclosed])

theorem passes_issueRetry (s : Server) (rest : ℕ) :
    Passes s (1 + rest) (s.issue .retry none) (0 + rest) := by
  refine passes_issue (rfl : Handler.retry.inLoop = true) ?_ ?_ (fun _ ↦ ?_) rest <;> rfl

theorem passes_store (remote : Endpoint) (c : ℕ) (s : Server) (n : ℕ) :
    Passes s n (Locked.store remote c s) n := by
  refine passes_of_eq ?_ ?_ ?_ n <;> rfl

/-- A thread that would have gone on with the loop finds the acceptor closed. -/
theorem passes_drop (hclosed : s.acceptorOpen = false) (n rest : ℕ) :
    Passes s (n + rest) s (0 + rest) := by
  refine ⟨by omega, id, ?_, fun _ ↦ ⟨hclosed, rfl⟩⟩
  intro _ hopen
  exact absurd hopen (by simp [hclosed])

theorem passes_closeAcceptor (s : Server) (n : ℕ) : Passes s n s.closeAcceptor n := by
  have hclosed := (closeAcceptor_spec s).1
  have hlength : s.closeAcceptor.loop.length = s.loop.length := by
    unfold closeAcceptor
    split
    · rw [length_loop, length_loop]
      exact countP_abort _ Handler.inLoop s.operations
    · rfl
  refine ⟨by rw [hlength], ?_, ?_, ?_⟩
  · intro _ hopen
    exact absurd hopen (by simp [hclosed])
  · intro _ hopen
    exact absurd hopen (by simp [hclosed])
  · intro hclosed'
    have hsame : s.closeAcceptor = s := by simp [closeAcceptor, hclosed']
    rw [hsame]
    exact ⟨hclosed', rfl⟩

/-- Whether the handler goes on with the loop. -/
def goesOn (handler : Handler) (e : ErrorCode) : Bool :=
  match handler with
  | .acceptCbk _ => e ≠ .badDescriptor ∧ e ≠ .operationAborted
  | .retry => e = .success
  | _ => false

def carried (handler : Handler) (e : ErrorCode) : ℕ := if goesOn handler e then 1 else 0

theorem goesOn_of_reports {handler : Handler} {e : ErrorCode} (hin : handler.inLoop = true)
    (h : Reports handler e) : goesOn handler e = true := by
  cases handler with
  | acceptCbk c =>
      obtain ⟨haborted, hdescriptor⟩ := h.1 rfl
      simp [goesOn, haborted, hdescriptor]
  | retry => simp [goesOn, h.2 rfl]
  | receiveCbk | sendCbk => simp [Handler.inLoop] at hin

theorem carried_le (handler : Handler) (e : ErrorCode) :
    carried handler e ≤ if handler.inLoop = true then 1 else 0 := by
  cases handler with
  | acceptCbk | retry =>
      simp only [carried, Handler.inLoop, ↓reduceIte]
      split <;> simp
  | receiveCbk | sendCbk => simp [carried, goesOn, Handler.inLoop]

/-- The thread that takes a handler of the loop off the queue carries the loop. -/
theorem passes_pop {i : ℕ} {handler : Handler} {r : Completion}
    (hq : s.queued i = some (handler, r)) (rest : ℕ) :
    Passes s (0 + rest) (Locked.pop i s) (carried handler r.error + rest) := by
  have hpop : Locked.pop i s =
      record handler r { s with operations := s.operations.eraseIdx i } := by
    simp only [Locked.pop, hq]
  have hrecord := quiet_record handler r { s with operations := s.operations.eraseIdx i }
  have hloop := hrecord.loop
  have hlength := length_loop_eraseIdx hq
  have hle := carried_le handler r.error
  rw [hpop]
  refine ⟨by rw [hloop]; omega, ?_, ?_, ?_⟩
  · intro hs hopen o ho
    rw [hloop] at ho
    obtain ⟨hmem, hin⟩ := mem_loop.mp ho
    exact hs (hrecord.acceptorOpen ▸ hopen) o
      (mem_loop.mpr ⟨(List.eraseIdx_subset ..) hmem, hin⟩)
  · intro hs hopen
    have hopen' : s.acceptorOpen = true := hrecord.acceptorOpen ▸ hopen
    refine ⟨hopen', ?_⟩
    rw [hloop]
    by_cases hin : handler.inLoop = true
    · have hmem : ⟨handler, some r⟩ ∈ s.loop :=
        mem_loop.mpr ⟨List.mem_of_getElem? (queued_eq_some hq), hin⟩
      have hgoes := goesOn_of_reports hin (hs hopen' _ hmem r rfl)
      rw [if_pos hin] at hlength
      rw [carried, if_pos hgoes]
      omega
    · rw [if_neg hin] at hlength
      omega
  · intro hclosed
    exact ⟨hrecord.acceptorOpen.trans hclosed, hrecord.acceptsIssued⟩

/-! ## The programs -/

namespace Locked

theorem keeps_acts {β : Type*} {p : Program Mutex Server β} (hp : Acts Aside p)
    (known : Option Bool) (n : ℕ) : Keeps acceptLoop (fun _ n' ↦ n' = n) known n p :=
  hp.carries (fun _ _ h ↦ h.acceptorOpen) (fun _ _ h ↦ h.passes) known n

/-- `start` reads the acceptor and issues the accept under one mutex. -/
theorem carries_start : start.Carries acceptLoop 1 0 := by
  refine Keeps.guarded_own rfl fun v ↦ ?_
  intro s hs
  refine ⟨by simp, ?_⟩
  by_cases hopen : s.acceptorOpen = true
  · have hcreated : (createConnection s).acceptorOpen = true := by
      simp [createConnection, hopen]
    refine ⟨1, fun rest ↦ passes_createConnection s _, ?_⟩
    simp only [if_pos hopen]
    refine Keeps.guarded (by simp [acceptLoop]) ?_
    intro u hu
    have huopen : u.acceptorOpen = true := (hu _ rfl).trans hcreated
    exact ⟨by simp, 0, fun rest ↦ passes_asyncAccept huopen _ rest, rfl⟩
  · have hsame : createConnection s = s := by simp [createConnection, hopen]
    refine ⟨0, fun rest ↦ ?_, ?_⟩
    · rw [hsame]
      exact passes_drop (by simpa using hopen) 1 rest
    · simp only [if_neg hopen]
      rfl

theorem carries_stop : stop.Carries acceptLoop 0 0 := by
  refine Keeps.andThen (k := 0) (Keeps.guarded_own rfl fun v ↦ ?_) (keeps_acts ?_ none 0)
  · intro s _
    exact ⟨by simp, 0, fun rest ↦ passes_closeAcceptor s _, rfl⟩
  · refine Acts.guarded (Acts.andThen (Acts.choose Aside.refl fun s ↦ ?_) (Acts.simply ?_))
    · exact Acts.forEach fun entry ↦ Connection.acts_stop entry.2
    · exact fun s ↦ ⟨rfl, rfl, rfl, rfl, fun _ _ hkey ↦ by simp [clearConnections] at hkey⟩

/-- What `accept_cbk` does with the accepted connection is no part of the loop. -/
theorem carries_accepted (os : Os) (c n : ℕ) : (accepted os c).Carries acceptLoop n n := by
  refine Keeps.bind (k := fun _ n' ↦ n' = n) (Keeps.guarded (by simp [acceptLoop]) ?_) ?_
  · intro s _
    exact ⟨fun _ ↦ rfl, n, fun rest ↦ (aside_update s c _).passes _, rfl⟩
  · rintro result n' rfl
    split
    · refine Keeps.andThen (k := n') (Keeps.guarded (by simp [acceptLoop]) ?_)
        (keeps_acts (Connection.acts_start os.grows c) none n')
      intro s _
      exact ⟨fun _ ↦ rfl, n', fun rest ↦ passes_store result.2 c s _, rfl⟩
    · exact rfl

theorem carries_acceptCbk (os : Os) (error : ErrorCode) (c : ℕ) :
    (acceptCbk os error c).Carries acceptLoop (carried (.acceptCbk c) error) 0 := by
  refine Keeps.andThen (k := carried (.acceptCbk c) error) ?_ ?_
  · split
    · exact carries_accepted os c _
    · exact rfl
  · split
    · rename_i hnormal
      have hgoes : carried (.acceptCbk c) error = 1 := by
        simp [carried, goesOn, hnormal.1, hnormal.2.1]
      rw [hgoes]
      exact carries_start
    split
    · rename_i hexhausted
      have hgoes : carried (.acceptCbk c) error = 1 := by simp [carried, goesOn, hexhausted]
      rw [hgoes]
      intro s _
      exact ⟨fun _ ↦ rfl, 0, fun rest ↦ passes_issueRetry s rest, rfl⟩
    · rename_i hnormal hexhausted
      have hends : goesOn (.acceptCbk c) error = false := by
        by_contra hgoes
        have hgoes' : error ≠ .badDescriptor ∧ error ≠ .operationAborted := by
          simpa [goesOn] using hgoes
        exact hnormal ⟨hgoes'.1, hgoes'.2, hexhausted⟩
      simp [carried, hends, Keeps, skip]

theorem carries_retry (error : ErrorCode) :
    (retry error).Carries acceptLoop (carried .retry error) 0 := by
  unfold retry
  split
  · rename_i he
    simpa [carried, goesOn, he] using carries_start
  · rename_i he
    simp [carried, goesOn, he, Keeps, skip]

theorem carries_dispatch (os : Os) (handler : Handler) (r : Completion) :
    (dispatch os handler r).Carries acceptLoop (carried handler r.error) 0 := by
  cases handler with
  | acceptCbk c => exact carries_acceptCbk os r.error c
  | retry => exact carries_retry r.error
  | receiveCbk c offset length =>
      exact keeps_acts (acts_dispatch os (.receiveCbk c offset length) rfl r) none 0
  | sendCbk c message => exact keeps_acts (acts_dispatch os (.sendCbk c message) rfl r) none 0

theorem carries_handle (i : ℕ) (os : Os) : (handle i os).Carries acceptLoop 0 0 := by
  intro s _
  cases hq : s.queued i with
  | none =>
      have hpop : pop i s = s := by simp only [pop, hq]
      refine ⟨fun _ ↦ by rw [hpop], 0, fun rest ↦ ?_, ?_⟩
      · rw [hpop]
        exact acceptLoop.refl s _
      · simp only [hq]
        rfl
  | some o =>
      refine ⟨fun _ ↦ ?_, carried o.1 o.2.error, fun rest ↦ passes_pop hq rest, ?_⟩
      · simp only [pop, hq]
        exact (quiet_record o.1 o.2 _).acceptorOpen
      · simp only [hq]
        exact (carries_dispatch os o.1 o.2).of_none

end Locked

/-! ## Runs -/

/-- A call of `start` brings a loop of its own. -/
def Invocation.credit : Invocation → ℕ
  | .start => 1
  | _ => 0

theorem carries_code (k : Invocation) : k.code.Carries acceptLoop k.credit 0 := by
  cases k with
  | start => exact Locked.carries_start
  | stop => exact Locked.carries_stop
  | sendData c message =>
      exact Locked.keeps_acts (Locked.Connection.acts_sendData c message) none 0
  | receive grows c => exact Locked.keeps_acts (Locked.Connection.acts_receive grows c) none 0
  | removeConnection c => exact Locked.keeps_acts (Locked.acts_removeConnection c) none 0
  | stopAndRemoveConnection c =>
      exact Locked.keeps_acts (Locked.Connection.acts_stopAndRemoveConnection c) none 0
  | handle i os => exact Locked.carries_handle i os

theorem finish_same {handler : Handler} {r : Completion} (h : finish handler r s = some t) :
    t.created = s.created ∧ t.connections = s.connections := by
  cases handler with
  | acceptCbk | receiveCbk | sendCbk =>
      simp only [finish] at h
      split_ifs at h <;> cases Option.some.inj h <;> exact ⟨rfl, rfl⟩
  | retry =>
      cases Option.some.inj h
      exact ⟨rfl, rfl⟩

/-- A completion is noted with its operation; everything else is quiet. -/
inductive Happened (s : Server) : Event → Server → Prop
  | quiet (e : Event) (t : Server) (h : Quiet s t) : Happened s e t
  | completed (i : ℕ) (handler : Handler) (r : Completion) (t : Server)
      (ho : s.operations[i]? = some ⟨handler, none⟩)
      (h : Quiet { s with operations := s.operations.set i ⟨handler, some r⟩ } t) :
      Happened s (.complete i r) t

theorem happened_of_event {e : Event} (h : Server.event s e = some t) : Happened s e t := by
  cases e with
  | peerSends c bytes => exact .quiet _ _ (quiet_peerSends h)
  | complete i r =>
      obtain ⟨handler, ho, hf⟩ := complete_eq_some h
      exact .completed i handler r t ho (quiet_finish hf)
  | reap =>
      obtain rfl := Option.some.inj h
      exact .quiet _ _ (quiet_reap s)

/-- No event creates, stores or removes a connection. -/
theorem event_same {e : Event} (h : Server.event s e = some t) :
    t.created = s.created ∧ t.connections = s.connections := by
  cases e with
  | peerSends c bytes =>
      simp only [Server.event, peerSends] at h
      split_ifs at h
      cases Option.some.inj h
      exact ⟨rfl, rfl⟩
  | complete i r =>
      obtain ⟨handler, _, hf⟩ := complete_eq_some h
      have hsame := finish_same hf
      exact hsame
  | reap =>
      obtain rfl := Option.some.inj h
      exact ⟨rfl, rfl⟩

theorem acceptorOpen_event {e : Event} (h : Server.event s e = some t) :
    t.acceptorOpen = s.acceptorOpen ∧ t.acceptsIssued = s.acceptsIssued := by
  cases happened_of_event h with
  | quiet _ _ hquiet => exact ⟨hquiet.acceptorOpen, hquiet.acceptsIssued⟩
  | completed _ _ _ _ _ hquiet => exact ⟨hquiet.acceptorOpen, hquiet.acceptsIssued⟩

section Threads

open Threads TransitionSystem

variable {ι : Type*}

/-- Asio keeps to its reports. -/
def threadsReports (s : Threads Mutex Server Unit ι) : Threads.Action ι Invocation Event → Prop
  | .event (.complete i r) => ∀ o ∈ s.shared.operations[i]?, Reports o.handler r.error
  | _ => True

instance (s : Threads Mutex Server Unit ι) :
    (a : Threads.Action ι Invocation Event) → Decidable (threadsReports s a)
  | .event (.complete i r) =>
      inferInstanceAs (Decidable (∀ o ∈ s.shared.operations[i]?, Reports o.handler r.error))
  | .event (.peerSends _ _) | .event .reap | .call _ _ | .run _ | .leave _ => isTrue trivial

/-- The calls of the public `start`. -/
def starts (as : List (Threads.Action ι Invocation Event)) : ℕ :=
  (as.map (brought Invocation.credit)).sum

/-- As many operations are in the loop or with a thread as `start` was called, or fewer, if
the acceptor has been closed. -/
structure Counted (paid : ℕ) (s : Server) (n : ℕ) : Prop where
  atMost : s.loop.length + n ≤ paid
  reported : Reported s
  all : s.acceptorOpen = true → s.loop.length + n = paid

theorem Counted.continues {paid : ℕ} (h : Counted paid s n) (hc : Continues s t) :
    Counted paid t n := by
  refine ⟨by rw [hc.length]; exact h.atMost, ?_, ?_⟩
  · intro hopen o ho r hr
    rcases hc.mem hopen o ho with hold | hreport
    · exact h.reported (hc.acceptor hopen) o hold r hr
    · exact hreport r hr
  · intro hopen
    rw [hc.length]
    exact h.all (hc.acceptor hopen)

theorem accounted_acceptLoop : Accounted acceptLoop Invocation.credit machine
    (threadsReports (ι := ι)) Counted where
  code _ _ k _ := carries_code k
  view _ _ _ h := (acceptorOpen_event h).1
  begins k paid s n h := by
    have hle := h.atMost
    refine ⟨by omega, h.reported, fun hopen ↦ ?_⟩
    have hall := h.all hopen
    omega
  trades paid s n u n' h htrade := by
    refine ⟨htrade.atMost.trans h.atMost, htrade.reported h.reported, fun hopen ↦ ?_⟩
    obtain ⟨hopen', hkept⟩ := htrade.kept h.reported hopen
    have hall := h.all hopen'
    have hle := htrade.atMost
    omega
  happens paid s e u n hguard h he := by
    cases happened_of_event he with
    | quiet _ _ hquiet => exact h.continues hquiet.toCalm.continues
    | completed i handler r _ ho hquiet =>
        have hreport : Reports handler r.error := hguard ⟨handler, none⟩ ho
        exact h.continues ((continues_set ho hreport).calm hquiet.toCalm)

/-- The acceptor is closed, and no accept has been issued since `issued` ones were. -/
structure Over (issued : ℕ) (s : Server) : Prop where
  acceptorOpen : s.acceptorOpen = false
  acceptsIssued : s.acceptsIssued = issued

theorem accounted_over (issued : ℕ) : Accounted acceptLoop Invocation.credit machine
    (anyStep : Threads Mutex Server Unit ι → _ → Prop) fun _ s _ ↦ Over issued s where
  code _ _ k _ := carries_code k
  view _ _ _ h := (acceptorOpen_event h).1
  begins _ _ _ _ h := h
  trades _ _ _ _ _ h htrade := by
    obtain ⟨hclosed, hissued⟩ := htrade.closed h.acceptorOpen
    exact ⟨hclosed, hissued.trans h.acceptsIssued⟩
  happens _ _ _ _ _ _ h he := by
    obtain ⟨hopen, hissued⟩ := acceptorOpen_event he
    exact ⟨hopen.trans h.acceptorOpen, hissued.trans h.acceptsIssued⟩

theorem accounted_anyway : Accounted acceptLoop Invocation.credit machine
    (anyStep : Threads Mutex Server Unit ι → _ → Prop) fun _ _ _ ↦ True where
  code _ _ k _ := carries_code k
  view _ _ _ h := (acceptorOpen_event h).1
  begins _ _ _ _ h := h
  trades _ _ _ _ _ h _ := h
  happens _ _ _ _ _ _ h _ := h

variable [DecidableEq ι] [Fintype ι]

/-- Once a thread has closed the acceptor, none issues an accept any more. -/
theorem acceptsIssued_of_closed {s u : Threads Mutex Server Unit ι}
    (h : (Threads.system machine ι).Reachable anyStep s) (hclosed : s.shared.acceptorOpen = false)
    (hu : (Threads.system machine ι).Leads anyStep s u) :
    u.shared.acceptsIssued = s.shared.acceptsIssued := by
  obtain ⟨_, ⟨shared, _, rfl⟩, hs⟩ := h
  obtain ⟨known, tokens, _, hcustody, _⟩ :=
    (inCustody_idle acceptLoop shared).leads (accounted_anyway (ι := ι)) 0 trivial hs
  obtain ⟨_, _, _, _, hover⟩ :=
    hcustody.leads (accounted_over (ι := ι) s.shared.acceptsIssued) 0 ⟨hclosed, rfl⟩ hu
  exact hover.acceptsIssued

/-- Whatever the threads do, no more accepts and retry timers are outstanding than `start`
was called; exactly as many are, when no thread is inside a call and the acceptor is open.
After `stop` has closed it, no thread issues an accept any more. -/
theorem threads_accept_loop {as : List (Threads.Action ι Invocation Event)}
    {s : Threads Mutex Server Unit ι}
    (hrun : (Threads.system machine ι).run threadsReports as (idle constructed) = some s) :
    s.shared.loop.length ≤ starts as ∧
      ((∀ t, s.call t = none) → s.shared.acceptorOpen = true →
        s.shared.loop.length = starts as) ∧
      ∀ u v, (Threads.system machine ι).Reachable anyStep u → u.shared.acceptorOpen = false →
        (Threads.system machine ι).Leads anyStep u v →
          v.shared.acceptsIssued = u.shared.acceptsIssued := by
  have hfirst : Counted 0 constructed (∑ _ : ι, 0) := by
    refine ⟨by simp [loop, constructed], ?_, by simp [loop, constructed]⟩
    intro _ o ho
    simp [loop, constructed] at ho
  obtain ⟨known, tokens, hs, hcounted⟩ :=
    (inCustody_idle acceptLoop constructed).of_run accounted_acceptLoop hfirst hrun
  rw [zero_add] at hcounted
  refine ⟨?_, ?_, fun u v hu hclosed hv ↦ acceptsIssued_of_closed hu hclosed hv⟩
  · exact (Nat.le_add_right _ _).trans hcounted.atMost
  · intro hidle hopen
    have hnone : ∑ v, tokens v = 0 := Finset.sum_eq_zero fun v _ ↦ hs.idle v (hidle v)
    have hall := hcounted.all hopen
    rwa [hnone, add_zero] at hall

end Threads

/-- Steps of one thread inside its call. -/
def turns {ι : Type} (n : ℕ) (t : ι) : List (Threads.Action ι Invocation Event) :=
  List.replicate n (.run t)

/-- One thread has started the endpoint, and another runs the `accept_cbk`, in the middle of
which the first one removes the connection again. -/
def removedAtOnce : List (Threads.Action Bool Invocation Event) :=
  List.flatten [[.call false .start], turns 6 false,
    [.leave false, .event (.complete 0 ⟨.success, 0⟩), .call true (.handle 0 (.fine peer))],
    turns 7 true, [.call false (.removeConnection 0)], turns 3 false, [.leave false],
    turns 10 true, [.leave true]]

theorem threads_accept_loop_removed : ∃ s : Threads Mutex Server Unit Bool,
    (Threads.system machine Bool).run threadsReports removedAtOnce
      (Threads.idle constructed) = some s ∧ s.shared.loop.length = 1 := by
  have hrun : ((Threads.system machine Bool).run threadsReports removedAtOnce
      (Threads.idle constructed)).map (fun s ↦ (s.shared.acceptorOpen, (s.call false).isNone,
        (s.call true).isNone)) = some (true, true, true) := by
    decide +kernel
  obtain ⟨s, hs, hrest⟩ := Option.map_eq_some_iff.mp hrun
  simp only [Prod.mk.injEq, Option.isNone_iff_eq_none] at hrest
  obtain ⟨hopen, hfirst, hsecond⟩ := hrest
  have hidle : ∀ t : Bool, s.call t = none := Bool.forall_bool.mpr ⟨hfirst, hsecond⟩
  exact ⟨s, hs, (threads_accept_loop hs).2.1 hidle hopen⟩

end Server

end DoipEndpoint
