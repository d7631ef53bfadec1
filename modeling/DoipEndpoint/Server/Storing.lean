import DoipEndpoint.Server.Accepting
import DoipEndpoint.Server.Table
import Mathlib.Algebra.Group.Pi.Basic

/-!
# The connection table on several threads

The thread that runs `accept_cbk` for an accepted connection carries the right to store it,
which came with the accept.  So the connection is stored once even if other threads
accept, remove and stop at the same time.
-/

namespace DoipEndpoint

namespace Server

open Program

/-- The outstanding accepts into a connection. -/
def acceptsInto (c : ℕ) (s : Server) : ℕ :=
  s.operations.countP fun o ↦ o.handler = .acceptCbk c

/-- A connection that is being accepted, or that a thread may still store, is not stored
yet. -/
structure Storable (s : Server) (n : ℕ → ℕ) : Prop where
  once : OneKey.Once s.connections
  atMost : ∀ c, acceptsInto c s + n c ≤ 1
  apart : ∀ c, 0 < acceptsInto c s + n c → ∀ key : Endpoint, s.connections[key]? ≠ some c
  fresh : ∀ c, s.created ≤ c →
    acceptsInto c s + n c = 0 ∧ ∀ key : Endpoint, s.connections[key]? ≠ some c

/-- `connections_mutex_` with the table. -/
def tableCustody : Custody Mutex Server (Std.TreeMap Endpoint ℕ) (ℕ → ℕ) where
  mutex := .connectionsMutex
  view s := s.connections
  trade s n t n' := Storable s n → Storable t n'
  refl _ _ := id

variable {s t : Server} {n n' rest : ℕ → ℕ}

/-! ## Acts -/

theorem acceptsInto_eq (c : ℕ) (s : Server) :
    acceptsInto c s = s.loop.countP fun o ↦ o.handler = .acceptCbk c := by
  rw [acceptsInto, loop, List.countP_filter]
  refine List.countP_congr fun o _ ↦ ?_
  constructor
  · intro h
    have hhandler : o.handler = .acceptCbk c := by simpa using h
    simp [hhandler, Handler.inLoop]
  · intro h
    simp only [Bool.and_eq_true] at h
    exact h.1

theorem acceptsInto_append (c : ℕ) (o : Operation) (h : t.operations = s.operations ++ [o]) :
    acceptsInto c t = acceptsInto c s + if o.handler = .acceptCbk c then 1 else 0 := by
  rw [acceptsInto, acceptsInto, h, List.countP_append, List.countP_singleton]
  simp

/-- The table has lost entries at most, and there are no new rights to store a
connection. -/
theorem Storable.of_le (h : Storable s n)
    (htable : ∀ (key : Endpoint) (c : ℕ), t.connections[key]? = some c →
      s.connections[key]? = some c)
    (hcreated : t.created = s.created)
    (hle : ∀ c, acceptsInto c t + n' c ≤ acceptsInto c s + n c) : Storable t n' := by
  refine ⟨h.once.mono htable, fun c ↦ (hle c).trans (h.atMost c), ?_, ?_⟩
  · intro c hc key hkey
    exact h.apart c (hc.trans_le (hle c)) key (htable key c hkey)
  · intro c hc
    obtain ⟨hnone, hfree⟩ := h.fresh c (hcreated ▸ hc)
    exact ⟨Nat.eq_zero_of_le_zero (hnone ▸ hle c), fun key hkey ↦ hfree key (htable key c hkey)⟩

theorem Storable.aside (h : Storable s n) (ha : Aside s t) : Storable t n := by
  refine h.of_le ha.table ha.created fun c ↦ ?_
  rw [acceptsInto_eq, acceptsInto_eq, ha.loop]

/-- A right that is not used any more. -/
theorem Storable.drop (h : Storable s (n + rest)) : Storable s (0 + rest) := by
  refine h.of_le (fun _ _ hkey ↦ hkey) rfl fun c ↦ ?_
  simp only [Pi.add_apply, Pi.zero_apply]
  omega

theorem Storable.closeAcceptor (h : Storable s n) : Storable s.closeAcceptor n := by
  unfold Server.closeAcceptor
  split
  · refine h.of_le (fun _ _ hkey ↦ hkey) rfl fun c ↦ ?_
    have hsame := countP_abort Handler.isAccept (fun handler ↦ handler = .acceptCbk c) s.operations
    exact (congrArg (· + n c) hsame).le
  · exact h

theorem Storable.issueRetry (h : Storable s n) : Storable (s.issue .retry none) n := by
  refine h.of_le (fun _ _ hkey ↦ hkey) rfl fun c ↦ ?_
  rw [acceptsInto_append c ⟨.retry, none⟩ rfl]
  simp

/-- The connection that `start` creates comes with the right to store it. -/
theorem Storable.createConnection (h : Storable s (0 + rest)) (hopen : s.acceptorOpen = true) :
    Storable (Locked.createConnection s) (Pi.single s.created 1 + rest) := by
  have hcreated : (Locked.createConnection s).created = s.created + 1 := by
    simp [Locked.createConnection, hopen]
  have hconnections : (Locked.createConnection s).connections = s.connections := by
    simp [Locked.createConnection, hopen]
  have haccepts : ∀ c, acceptsInto c (Locked.createConnection s) = acceptsInto c s := by
    intro c
    simp [acceptsInto, Locked.createConnection, hopen]
  obtain ⟨hnone, hfree⟩ := h.fresh s.created (le_refl _)
  simp only [Pi.add_apply, Pi.zero_apply, zero_add] at hnone
  refine ⟨hconnections ▸ h.once, ?_, ?_, ?_⟩
  · intro c
    have hc := h.atMost c
    simp only [Pi.add_apply, Pi.zero_apply, haccepts] at hc ⊢
    by_cases heq : c = s.created
    · subst heq
      simp only [Pi.single_eq_same]
      omega
    · simp only [Pi.single_eq_of_ne heq]
      exact hc
  · intro c hc
    rw [hconnections]
    by_cases heq : c = s.created
    · exact heq ▸ hfree
    · refine h.apart c ?_
      simpa [haccepts, Pi.single_eq_of_ne heq] using hc
  · intro c hc
    rw [hcreated] at hc
    have hne : c ≠ s.created := by omega
    obtain ⟨hnone', hfree'⟩ := h.fresh c (by omega)
    rw [hconnections]
    refine ⟨?_, hfree'⟩
    simpa [haccepts, Pi.single_eq_of_ne hne] using hnone'

/-- The right goes to the accept. -/
theorem Storable.asyncAccept {c : ℕ} (h : Storable s (Pi.single c 1 + rest)) :
    Storable (Locked.asyncAccept c s) (0 + rest) := by
  refine h.of_le (fun _ _ hkey ↦ hkey) rfl fun d ↦ ?_
  rw [acceptsInto_append d ⟨.acceptCbk c, none⟩ rfl]
  by_cases hd : d = c
  · subst hd
    simp only [↓reduceIte, Pi.add_apply, Pi.zero_apply, Pi.single_eq_same]
    omega
  · have hne : ¬(Handler.acceptCbk c = .acceptCbk d) := by
      intro heq
      exact hd (Handler.acceptCbk.inj heq).symm
    simp [hne, Pi.single_eq_of_ne hd]

/-- The right is used. -/
theorem Storable.store {c : ℕ} (h : Storable s (Pi.single c 1 + rest)) (remote : Endpoint) :
    Storable (Locked.store remote c s) (0 + rest) := by
  have hright : acceptsInto c s + (1 + rest c) ≤ 1 := by simpa using h.atMost c
  have htable : ∀ (key : Endpoint) (d : ℕ), (Locked.store remote c s).connections[key]? = some d →
      (key = remote ∧ d = c) ∨ s.connections[key]? = some d := by
    intro key d hkey
    rw [Locked.store, Std.TreeMap.getElem?_insert] at hkey
    split_ifs at hkey with heq
    · exact Or.inl ⟨(Std.compare_eq_iff_eq.mp heq).symm, (Option.some.inj hkey).symm⟩
    · exact Or.inr hkey
  have hless : ∀ d, acceptsInto d s + rest d ≤
      acceptsInto d s + (Pi.single c 1 + rest : ℕ → ℕ) d := by
    intro d
    simp only [Pi.add_apply]
    omega
  refine ⟨h.once.of_new (h.apart c (by simp)) htable, ?_, ?_, ?_⟩
  · intro d
    rw [zero_add]
    exact (hless d).trans (h.atMost d)
  · intro d hd key hkey
    rw [zero_add] at hd
    rcases htable key d hkey with ⟨_, rfl⟩ | hold
    · exact absurd hd (by change ¬0 < acceptsInto d s + rest d; omega)
    · exact h.apart d (lt_of_lt_of_le hd (hless d)) key hold
  · intro d hd
    obtain ⟨hnone, hfree⟩ := h.fresh d hd
    rw [zero_add]
    refine ⟨Nat.eq_zero_of_le_zero (hnone ▸ hless d), fun key hkey ↦ ?_⟩
    rcases htable key d hkey with ⟨_, rfl⟩ | hold
    · simp at hnone
    · exact hfree key hold

theorem record_same (handler : Handler) (r : Completion) (s : Server) :
    (record handler r s).created = s.created ∧
      (record handler r s).connections = s.connections := by
  unfold record
  split
  · split <;> exact ⟨rfl, rfl⟩
  · exact ⟨rfl, rfl⟩

/-- The right to store its connection that an `accept_cbk` comes with. -/
def right (handler : Handler) (e : ErrorCode) : ℕ → ℕ :=
  match handler with
  | .acceptCbk c => if e = .success then Pi.single c 1 else 0
  | _ => 0

theorem right_le (handler : Handler) (e : ErrorCode) (c : ℕ) :
    right handler e c ≤ if handler = .acceptCbk c then 1 else 0 := by
  cases handler with
  | acceptCbk d =>
      simp only [right]
      split
      · by_cases hc : c = d
        · simp [hc]
        · simp [Pi.single_eq_of_ne hc]
      · simp
  | receiveCbk | sendCbk | retry => simp [right]

theorem Storable.pop {i : ℕ} {handler : Handler} {r : Completion}
    (hq : s.queued i = some (handler, r)) (h : Storable s (0 + rest)) :
    Storable (Locked.pop i s) (right handler r.error + rest) := by
  have hpop : Locked.pop i s =
      record handler r { s with operations := s.operations.eraseIdx i } := by
    simp only [Locked.pop, hq]
  have hsame := record_same handler r { s with operations := s.operations.eraseIdx i }
  rw [hpop]
  refine h.of_le (fun key c hkey ↦ by rwa [hsame.2] at hkey) hsame.1 fun c ↦ ?_
  have herase := InFlight.countP_eraseIdx (queued_eq_some hq) fun o ↦ o.handler = .acceptCbk c
  have hloop := (quiet_record handler r { s with operations := s.operations.eraseIdx i }).loop
  have hright := right_le handler r.error c
  have hrecord : acceptsInto c (record handler r { s with
      operations := s.operations.eraseIdx i }) =
        (s.operations.eraseIdx i).countP fun o ↦ o.handler = .acceptCbk c := by
    rw [acceptsInto_eq, hloop, ← acceptsInto_eq]
    rfl
  rw [hrecord, acceptsInto, herase]
  simp only [Pi.add_apply, Pi.zero_apply, decide_eq_true_eq]
  omega

theorem Storable.event {e : Event} (h : Storable s n) (he : Server.event s e = some t) :
    Storable t n := by
  obtain ⟨hcreated, hconnections⟩ := event_same he
  refine h.of_le (fun key c hkey ↦ by rwa [hconnections] at hkey) hcreated fun c ↦ ?_
  cases happened_of_event he with
  | quiet _ _ hquiet => rw [acceptsInto_eq, acceptsInto_eq, hquiet.loop]
  | completed i handler r _ ho hquiet =>
      have hset := InFlight.countP_set ho (b := ⟨handler, some r⟩)
        (q := fun o ↦ o.handler = .acceptCbk c) rfl
      rw [acceptsInto_eq, hquiet.loop, ← acceptsInto_eq]
      exact (congrArg (· + n c) hset).le

/-! ## The programs -/

/-- Nothing happens to the table at all. -/
structure Still (s t : Server) : Prop extends Aside s t where
  connections : t.connections = s.connections

theorem Aside.still (h : Aside s t) (hconnections : t.connections = s.connections) : Still s t :=
  ⟨h, hconnections⟩

namespace Locked

theorem keeps_still {β : Type*} {p : Program Mutex Server β} (hp : Acts Still p)
    (known : Option (Std.TreeMap Endpoint ℕ)) (n : ℕ → ℕ) :
    Keeps tableCustody (fun _ n' ↦ n' = n) known n p :=
  hp.carries (fun _ _ h ↦ h.connections) (fun _ _ h _ hs ↦ hs.aside h.toAside) known n

theorem still_receiveUnlocked (grows : Bool) (c : ℕ) (s : Server) :
    Still s (Connection.receiveUnlocked grows c s) := by
  refine (aside_receiveUnlocked grows c s).still ?_
  unfold Connection.receiveUnlocked
  simp only
  split
  · split
    · rfl
    · exact (sameTable_closeSocket c _).connections
    · rfl
  · rfl

theorem still_stop (c : ℕ) : Acts Still (Connection.stop c) := by
  refine (Acts.simply fun s ↦ ?_).guarded
  exact (aside_closeSocket c s).still (sameTable_closeSocket c s).connections

theorem still_sendData (c : ℕ) (message : List UInt8) :
    Acts Still (Connection.sendData c message) := by
  refine Acts.guarded (Acts.andThen (Acts.simply fun s ↦ ?_).guarded (Acts.simply fun s ↦ ?_))
  · exact (aside_setIsSending true s).still rfl
  · exact (aside_issue rfl _ s).still rfl

theorem still_sendCbk (error : ErrorCode) : Acts Still (sendCbk error) := by
  refine (Acts.simply fun s ↦ ?_).guarded.andThen (Acts.guarded Acts.skip)
  exact (aside_setIsSending false s).still rfl

/-- The table is written under its mutex. -/
theorem stores_removeConnection (c : ℕ) (n : ℕ → ℕ) :
    (removeConnection c).Carries tableCustody n n := by
  refine Keeps.guarded_own rfl fun v ↦ ?_
  intro s _
  exact ⟨by simp, n, fun rest hs ↦ hs.aside (aside_removeConnection c s), rfl⟩

namespace Connection

theorem stores_stopAndRemoveConnection (c : ℕ) (n : ℕ → ℕ) :
    (stopAndRemoveConnection c).Carries tableCustody n n :=
  Keeps.andThen (Keeps.guarded_own rfl fun v ↦ keeps_still (still_stop c) (some v) n)
    (stores_removeConnection c n)

theorem stores_receive (grows : Bool) (c : ℕ) (n : ℕ → ℕ) :
    (receive grows c).Carries tableCustody n n := by
  refine Keeps.guarded (by simp [tableCustody]) ?_
  intro s _
  have hstill := still_receiveUnlocked grows c s
  refine ⟨fun _ ↦ hstill.connections, n, fun rest hs ↦ hs.aside hstill.toAside, ?_⟩
  simp only
  split
  · exact (stores_removeConnection c n).of_none
  · rfl

theorem stores_start (grows : Bool) (c : ℕ) (n : ℕ → ℕ) :
    (start grows c).Carries tableCustody n n := by
  refine Keeps.andThen (keeps_still (Acts.simply fun s ↦ ?_) none n) (stores_receive grows c n)
  exact (aside_update s c _).still rfl

theorem stores_writeCompletionCondition (error : ErrorCode) (c : ℕ) (n : ℕ → ℕ) :
    (writeCompletionCondition error c).Carries tableCustody n n := by
  unfold writeCompletionCondition
  split
  · exact stores_stopAndRemoveConnection c n
  · rfl

theorem stores_receiveCbk (removes : Bool) (error : ErrorCode) (c : ℕ) (n : ℕ → ℕ) :
    (receiveCbk removes error c).Carries tableCustody n n := by
  unfold receiveCbk
  split
  · rfl
  split
  · refine Keeps.andThen (keeps_still ?_ none n) ?_
    · split
      · exact Acts.guarded Acts.skip
      · exact Acts.skip
    · split
      · exact stores_stopAndRemoveConnection c n
      · rfl
  · rfl

end Connection

theorem stores_start : start.Carries tableCustody 0 0 := by
  refine Keeps.guarded (by simp [tableCustody]) ?_
  intro s _
  by_cases hopen : s.acceptorOpen = true
  · refine ⟨fun _ ↦ by simp [tableCustody, createConnection, hopen], Pi.single s.created 1,
      fun rest hs ↦ hs.createConnection hopen, ?_⟩
    simp only [if_pos hopen]
    refine Keeps.guarded (by simp [tableCustody]) ?_
    intro u _
    exact ⟨fun _ ↦ rfl, 0, fun rest hu ↦ hu.asyncAccept, rfl⟩
  · have hsame : createConnection s = s := by simp [createConnection, hopen]
    refine ⟨fun _ ↦ by rw [hsame], 0, fun rest hs ↦ by rwa [hsame], ?_⟩
    simp only [if_neg hopen]
    rfl

theorem stores_stop : stop.Carries tableCustody 0 0 := by
  refine Keeps.andThen (k := 0) (Keeps.guarded (by simp [tableCustody]) ?_)
    (Keeps.guarded_own rfl fun v ↦ ?_)
  · intro s _
    exact ⟨fun _ ↦ (closeAcceptor_spec s).2.1, 0, fun rest hs ↦ hs.closeAcceptor, rfl⟩
  · refine Acts.keeps_bind (Q := Still) (fun _ _ h ↦ h.connections)
      (fun _ _ h _ hs ↦ hs.aside h.toAside) ?_ ?_ (fun _ v' ↦ ?_) v
    · exact Acts.choose (fun s ↦ (Aside.refl s).still rfl) fun s ↦
        Acts.forEach fun entry ↦ still_stop entry.2
    · intro s
      exact Avoids.forEach fun entry ↦ Avoids.guarded (by simp [tableCustody]) Avoids.simply
    · intro s _
      have hcleared : Aside s (clearConnections s) :=
        ⟨rfl, rfl, rfl, rfl, fun _ _ hkey ↦ by simp [clearConnections] at hkey⟩
      exact ⟨by simp, 0, fun rest hs ↦ hs.aside hcleared, rfl⟩

/-- An accepted connection is stored once, or never. -/
theorem stores_accepted (os : Os) (c : ℕ) :
    (accepted os c).Carries tableCustody (Pi.single c 1) 0 := by
  refine Keeps.bind (k := fun result n' ↦ n' = if result.1 = .success then Pi.single c 1 else 0)
    (Keeps.guarded (by simp [tableCustody]) ?_) ?_
  · intro s _
    have hinform : Aside s (inform os c s) := aside_update s c _
    by_cases hkept : (answers os (s.connection c)).keepAliveResult = .success
    · exact ⟨fun _ ↦ rfl, Pi.single c 1, fun rest hs ↦ hs.aside hinform,
        by simp only [Keeps, if_pos hkept]⟩
    · exact ⟨fun _ ↦ rfl, 0, fun rest hs ↦ hs.drop.aside hinform,
        by simp only [Keeps, if_neg hkept]⟩
  · rintro result n' rfl
    split
    · refine Keeps.andThen (k := 0) (Keeps.guarded_own rfl fun v ↦ ?_)
        (Connection.stores_start os.grows c 0)
      intro s _
      exact ⟨by simp, 0, fun rest hs ↦ hs.store result.2, rfl⟩
    · rfl

theorem stores_acceptCbk (os : Os) (error : ErrorCode) (c : ℕ) :
    (acceptCbk os error c).Carries tableCustody (right (.acceptCbk c) error) 0 := by
  refine Keeps.andThen (k := 0) ?_ ?_
  · simp only [right]
    split
    · exact stores_accepted os c
    · rfl
  · split
    · exact stores_start
    split
    · intro s _
      exact ⟨fun _ ↦ rfl, 0, fun rest hs ↦ hs.issueRetry, rfl⟩
    · rfl

theorem stores_dispatch (os : Os) (handler : Handler) (r : Completion) :
    (dispatch os handler r).Carries tableCustody (right handler r.error) 0 := by
  cases handler with
  | acceptCbk c => exact stores_acceptCbk os r.error c
  | receiveCbk c offset length => exact Connection.stores_receiveCbk os.removes r.error c 0
  | sendCbk c message =>
      exact Keeps.andThen (Connection.stores_writeCompletionCondition r.error c 0)
        (keeps_still (still_sendCbk r.error) none 0)
  | retry =>
      simp only [dispatch, retry]
      split
      · exact stores_start
      · rfl

theorem stores_handle (i : ℕ) (os : Os) : (handle i os).Carries tableCustody 0 0 := by
  intro s _
  cases hq : s.queued i with
  | none =>
      have hpop : pop i s = s := by simp only [pop, hq]
      refine ⟨fun _ ↦ by rw [hpop], 0, fun rest hs ↦ by rwa [hpop], ?_⟩
      simp only [hq]
      rfl
  | some o =>
      refine ⟨fun _ ↦ ?_, right o.1 o.2.error, fun rest hs ↦ hs.pop hq, ?_⟩
      · simp only [pop, hq]
        exact (record_same o.1 o.2 _).2
      · simp only [hq]
        exact (stores_dispatch os o.1 o.2).of_none

end Locked

theorem stores_code (k : Invocation) : k.code.Carries tableCustody 0 0 := by
  cases k with
  | start => exact Locked.stores_start
  | stop => exact Locked.stores_stop
  | sendData c message => exact Locked.keeps_still (Locked.still_sendData c message) none 0
  | receive grows c => exact Locked.Connection.stores_receive grows c 0
  | removeConnection c => exact Locked.stores_removeConnection c 0
  | stopAndRemoveConnection c => exact Locked.Connection.stores_stopAndRemoveConnection c 0
  | handle i os => exact Locked.stores_handle i os

/-! ## Runs -/

section Threads

open Threads TransitionSystem

variable {ι : Type*}

theorem accounted_table : Accounted tableCustody (fun _ ↦ 0) machine
    (anyStep : Threads Mutex Server Unit ι → _ → Prop) fun _ s n ↦ Storable s n where
  code _ _ k _ := stores_code k
  view _ _ _ h := (event_same h).2
  begins _ _ _ _ h := by rwa [zero_add]
  trades _ _ _ _ _ h htrade := htrade h
  happens _ _ _ _ _ _ h he := h.event he

theorem storable_constructed : Storable constructed 0 := by
  refine ⟨fun a a' c hkey _ ↦ ?_, fun c ↦ ?_, fun c hc ↦ ?_, fun c _ ↦ ⟨?_, fun key hkey ↦ ?_⟩⟩
  · simp [constructed] at hkey
  · simp [acceptsInto, constructed]
  · simp [acceptsInto, constructed] at hc
  · simp [acceptsInto, constructed]
  · simp [constructed] at hkey

variable [DecidableEq ι] [Fintype ι]

/-- Whatever the threads do, each connection is stored under one key at most, so that a
`remove_connection` removes it and nothing else; and the table changes only in steps of the
thread that holds `connections_mutex_`. -/
theorem threads_connection_stored_once {s : Threads Mutex Server Unit ι}
    (h : (Threads.system machine ι).Reachable anyStep s) :
    (∀ (key key' : Endpoint) (c : ℕ), s.shared.connections[key]? = some c →
      s.shared.connections[key']? = some c → key = key') ∧
    (∀ c, RemovesOnly c s.shared (s.shared.removeConnection c)) ∧
    ∀ a u, (Threads.system machine ι).step s a = some u →
      u.shared.connections ≠ s.shared.connections →
        ∃ t, a = .run t ∧ s.holder .connectionsMutex = some t := by
  obtain ⟨_, ⟨_, rfl, rfl⟩, hs⟩ := h
  have hfirst : Storable constructed (∑ _ : ι, 0) := by
    rw [Finset.sum_const_zero]
    exact storable_constructed
  obtain ⟨known, tokens, _, hcustody, hstorable⟩ :=
    (inCustody_idle tableCustody constructed).leads (accounted_table (ι := ι)) 0 hfirst hs
  refine ⟨hstorable.once, fun c ↦ ?_, fun a u hstep hchanged ↦ ?_⟩
  · rw [removeConnection_eq]
    exact ⟨fun key ↦ hstorable.once.not_mem_eraseFirst c key,
      fun key c' hc' ↦ OneKey.getElem?_eraseFirst_iff hc' key⟩
  · exact hcustody.view_step (fun e u he ↦ (event_same he).2) hstep hchanged

end Threads

/-- Two threads store the connections that they have accepted from one remote. -/
def bothStore : List (Threads.Action Bool Invocation Event) :=
  List.flatten [[.call false .start], turns 6 false, [.leave false, .call true .start],
    turns 6 true, [.leave true, .event (.complete 0 ⟨.success, 0⟩),
      .event (.complete 1 ⟨.success, 0⟩), .call false (.handle 0 (.fine peer)), .run false,
      .call true (.handle 0 (.fine peer))],
    turns 4 true, turns 6 false, turns 3 true]

/-- The second one has taken the key, and removing the first one leaves it stored. -/
theorem threads_connection_stored_once_displaced : ∃ s : Threads Mutex Server Unit Bool,
    (Threads.system machine Bool).run TransitionSystem.anyStep bothStore
      (Threads.idle constructed) = some s ∧
    s.shared.connections[peer]? = some 1 ∧
      (s.shared.removeConnection 0).connections[peer]? = some 1 := by
  have hrun : ((Threads.system machine Bool).run TransitionSystem.anyStep bothStore
      (Threads.idle constructed)).map (fun s ↦ s.shared.connections[peer]?) = some (some 1) := by
    decide +kernel
  obtain ⟨s, hs, hkey⟩ := Option.map_eq_some_iff.mp hrun
  have hreachable : (Threads.system machine Bool).Reachable TransitionSystem.anyStep s :=
    TransitionSystem.reachable_of_run ⟨constructed, rfl, rfl⟩ hs
  have honce := threads_connection_stored_once hreachable
  exact ⟨s, hs, hkey, ((honce.2.1 0).2 peer 1 (by decide)).mpr hkey⟩

end Server

end DoipEndpoint
