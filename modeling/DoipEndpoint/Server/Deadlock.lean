import DoipEndpoint.Server.Locked

/-!
# The TCP server endpoint does not deadlock

All functions take the mutexes in one order, with one exception: a `receive` that cannot
grow its buffer calls `remove_connection` and so takes `connections_mutex_` behind
`socket_mutex_`.  No call leaves a connection in need of a larger buffer.
-/

namespace DoipEndpoint

namespace Server

open Program

/-- No connection waits for more bytes than its buffer has room for. -/
def Steady (s : Server) : Prop := ∀ c, (s.connection c).missingCapacity = 0

section Steady

variable {s : Server} {c : ℕ}

theorem steady_constructed : Steady constructed := fun _ ↦ rfl

theorem Steady.update (h : Steady s) {k : Connection} (hk : k.missingCapacity = 0) :
    Steady (s.update c k) := by
  intro d
  by_cases hd : d = c
  · simpa [Server.update, hd] using hk
  · simpa [Server.update, hd] using h d

theorem Steady.closeSocket (h : Steady s) : Steady (s.closeSocket c) := by
  unfold Server.closeSocket
  split
  · exact Steady.update (s := s) h (h c)
  · exact h

theorem Steady.removeConnection (h : Steady s) : Steady (s.removeConnection c) := by
  unfold Server.removeConnection
  split
  · exact h
  · exact h

theorem Steady.not_throws (h : Steady s) (grows : Bool) :
    Locked.Connection.throws grows (s.connection c) = false := by
  obtain ⟨buffer, length, count, hregion⟩ := MessageBuffer.prepare_zero
    (s.connection c).recvBufferSizeInitial bufferShrinkThreshold (s.connection c).shrinkCount grows
    (s.connection c).recvBufferSize (s.connection c).recvBuffer
  simp [Locked.Connection.throws, Locked.Connection.prepared, h c, hregion]

theorem Steady.receiveUnlocked (h : Steady s) (grows : Bool) :
    Steady (Locked.Connection.receiveUnlocked grows c s) := by
  unfold Locked.Connection.receiveUnlocked
  simp only
  split
  · split
    · exact h
    · exact Steady.closeSocket (Steady.update (s := s) h (h c))
    · exact Steady.update (s := s) h rfl
  · exact h

theorem Steady.record (h : Steady s) (handler : Handler) (r : Completion) :
    Steady (Server.record handler r s) := by
  cases handler with
  | acceptCbk | sendCbk | retry => exact h
  | receiveCbk c offset length =>
      simp only [Server.record]
      split
      · exact Steady.update (s := s) h (h c)
      · exact h

theorem Steady.pop (h : Steady s) (i : ℕ) : Steady (Locked.pop i s) := by
  unfold Locked.pop
  split
  · exact h
  · exact Steady.record (s := { s with operations := s.operations.eraseIdx i }) h _ _

theorem Steady.createConnection (h : Steady s) : Steady (Locked.createConnection s) := by
  unfold Locked.createConnection
  split
  · exact Steady.update (s := s) h rfl
  · exact h

theorem Steady.closeAcceptor (h : Steady s) : Steady s.closeAcceptor := by
  unfold Server.closeAcceptor
  split
  · exact h
  · exact h

theorem Steady.finish (h : Steady s) {handler : Handler} {r : Completion} {t : Server}
    (ht : Server.finish handler r s = some t) : Steady t := by
  cases handler with
  | acceptCbk c =>
      simp only [Server.finish] at ht
      split_ifs at ht
      · obtain rfl := Option.some.inj ht
        exact Steady.update (s := s) h (h c)
      · exact Option.some.inj ht ▸ h
  | receiveCbk c offset length =>
      simp only [Server.finish] at ht
      split_ifs at ht
      · obtain rfl := Option.some.inj ht
        exact Steady.update (s := s) h (h c)
      · obtain rfl := Option.some.inj ht
        exact Steady.update (s := s) h (h c)
  | sendCbk c message =>
      simp only [Server.finish] at ht
      split_ifs at ht
      exact Option.some.inj ht ▸ h
  | retry => exact Option.some.inj ht ▸ h

theorem Steady.event (h : Steady s) {e : Event} {t : Server} (ht : Server.event s e = some t) :
    Steady t := by
  cases e with
  | peerSends c bytes =>
      simp only [Server.event, Server.peerSends] at ht
      split_ifs at ht
      obtain rfl := Option.some.inj ht
      exact Steady.update (s := s) h (h c)
  | complete i r =>
      simp only [Server.event, Server.complete] at ht
      split at ht
      · cases ht
      · split_ifs at ht
        rename_i o _ _
        exact Steady.finish
          (s := { s with operations := s.operations.set i { o with completion := some r } }) h ht
  | reap =>
      obtain rfl := Option.some.inj ht
      intro c
      simp only [Server.reap]
      split
      · exact h c
      · exact h c

end Steady

/-! ## The order of the mutexes -/

namespace Locked

variable {held : List Mutex}

theorem bracketed_removeConnection (hheld : ∀ k ∈ held, k.rank < 1) (c : ℕ) :
    Bracketed Mutex.rank Steady held (removeConnection c) :=
  Bracketed.guarded hheld (Bracketed.simply fun _ hs ↦ hs.removeConnection)

namespace Connection

theorem bracketed_stop (hheld : ∀ k ∈ held, k.rank < 2) (c : ℕ) :
    Bracketed Mutex.rank Steady held (stop c) :=
  Bracketed.guarded hheld (Bracketed.simply fun _ hs ↦ hs.closeSocket)

theorem bracketed_stopAndRemoveConnection (c : ℕ) :
    Bracketed Mutex.rank Steady [] (stopAndRemoveConnection c) := by
  refine Bracketed.andThen (Bracketed.guarded (by simp) ?_) (bracketed_removeConnection (by simp) c)
  exact bracketed_stop (by simp [Mutex.rank]) c

/-- The call of `remove_connection` is not reached. -/
theorem bracketed_receive (grows : Bool) (c : ℕ) :
    Bracketed Mutex.rank Steady [] (receive grows c) := by
  refine Bracketed.guarded (by simp) (Bracketed.act (fun s hs ↦ hs.receiveUnlocked grows) ?_)
  intro s hs
  rw [hs.not_throws grows]
  exact Bracketed.skip

theorem bracketed_start (grows : Bool) (c : ℕ) : Bracketed Mutex.rank Steady [] (start grows c) :=
  Bracketed.andThen (Bracketed.simply fun _ hs ↦ hs.update (hs c)) (bracketed_receive grows c)

theorem bracketed_sendData (c : ℕ) (message : List UInt8) :
    Bracketed Mutex.rank Steady [] (sendData c message) := by
  refine Bracketed.guarded (by simp) (Bracketed.andThen ?_ (Bracketed.simply fun _ hs ↦ hs))
  exact Bracketed.guarded (by simp [Mutex.rank]) (Bracketed.simply fun _ hs ↦ hs)

theorem bracketed_writeCompletionCondition (error : ErrorCode) (c : ℕ) :
    Bracketed Mutex.rank Steady [] (writeCompletionCondition error c) := by
  unfold writeCompletionCondition
  split
  · exact bracketed_stopAndRemoveConnection c
  · exact Bracketed.skip

theorem bracketed_receiveCbk (removes : Bool) (error : ErrorCode) (c : ℕ) :
    Bracketed Mutex.rank Steady [] (receiveCbk removes error c) := by
  unfold receiveCbk
  split
  · exact Bracketed.skip
  split
  · apply Bracketed.andThen
    · split
      · exact Bracketed.guarded (by simp) Bracketed.skip
      · exact Bracketed.skip
    · split
      · exact bracketed_stopAndRemoveConnection c
      · exact Bracketed.skip
  · exact Bracketed.skip

end Connection

theorem bracketed_start : Bracketed Mutex.rank Steady [] start := by
  refine Bracketed.guarded (by simp) (Bracketed.act (fun s hs ↦ hs.createConnection) ?_)
  intro s _
  split
  · exact Bracketed.guarded (by simp [Mutex.rank]) (Bracketed.simply fun _ ht ↦ ht)
  · exact Bracketed.skip

theorem bracketed_stop : Bracketed Mutex.rank Steady [] stop := by
  refine Bracketed.andThen ?_ (Bracketed.guarded (by simp) (Bracketed.andThen ?_ ?_))
  · exact Bracketed.guarded (by simp) (Bracketed.simply fun _ hs ↦ hs.closeAcceptor)
  · exact Bracketed.choose fun s _ ↦ Bracketed.forEach fun entry ↦
      Connection.bracketed_stop (by simp [Mutex.rank]) entry.2
  · exact Bracketed.simply fun _ hs ↦ hs

theorem bracketed_accepted (os : Os) (c : ℕ) :
    Bracketed Mutex.rank Steady [] (accepted os c) := by
  refine Bracketed.bind (Bracketed.guarded (by simp)
    (Bracketed.act (fun _ hs ↦ hs.update (hs c)) fun _ _ ↦ Bracketed.ret)) ?_
  intro result
  split
  · exact (Bracketed.guarded (by simp) (Bracketed.simply fun _ hs ↦ hs)).andThen
      (Connection.bracketed_start os.grows c)
  · exact Bracketed.skip

theorem bracketed_acceptCbk (os : Os) (error : ErrorCode) (c : ℕ) :
    Bracketed Mutex.rank Steady [] (acceptCbk os error c) := by
  refine Bracketed.andThen ?_ ?_
  · split
    · exact bracketed_accepted os c
    · exact Bracketed.skip
  · split
    · exact bracketed_start
    split
    · exact Bracketed.simply fun _ hs ↦ hs
    · exact Bracketed.skip

theorem bracketed_sendCbk (error : ErrorCode) : Bracketed Mutex.rank Steady [] (sendCbk error) :=
  (Bracketed.guarded (by simp) (Bracketed.simply fun _ hs ↦ hs)).andThen
    (Bracketed.guarded (by simp) Bracketed.skip)

theorem bracketed_retry (error : ErrorCode) : Bracketed Mutex.rank Steady [] (retry error) := by
  unfold retry
  split
  · exact bracketed_start
  · exact Bracketed.skip

theorem bracketed_dispatch (os : Os) (handler : Handler) (r : Completion) :
    Bracketed Mutex.rank Steady [] (dispatch os handler r) := by
  cases handler with
  | acceptCbk c => exact bracketed_acceptCbk os r.error c
  | receiveCbk c offset length => exact Connection.bracketed_receiveCbk os.removes r.error c
  | sendCbk c message =>
      exact (Connection.bracketed_writeCompletionCondition r.error c).andThen
        (bracketed_sendCbk r.error)
  | retry => exact bracketed_retry r.error

theorem bracketed_handle (i : ℕ) (os : Os) : Bracketed Mutex.rank Steady [] (handle i os) := by
  refine Bracketed.act (fun s hs ↦ hs.pop i) ?_
  intro s _
  cases s.queued i with
  | none => exact Bracketed.skip
  | some o => exact bracketed_dispatch os o.1 o.2

end Locked

theorem bracketed_code (k : Invocation) : Bracketed Mutex.rank Steady [] k.code := by
  cases k with
  | start => exact Locked.bracketed_start
  | stop => exact Locked.bracketed_stop
  | sendData c message => exact Locked.Connection.bracketed_sendData c message
  | receive grows c => exact Locked.Connection.bracketed_receive grows c
  | removeConnection c => exact Locked.bracketed_removeConnection (by simp) c
  | stopAndRemoveConnection c => exact Locked.Connection.bracketed_stopAndRemoveConnection c
  | handle i os => exact Locked.bracketed_handle i os

theorem disciplined_machine : Threads.Disciplined Mutex.rank Steady machine where
  initial _ hs := hs ▸ steady_constructed
  code := bracketed_code
  event _ _ _ hs ht := hs.event ht

section Threads

open Threads TransitionSystem

variable {ι : Type*} [DecidableEq ι]

/-! ## The functions as single steps -/

/-- A step of the endpoint is a call or an event, followed by the destruction of the
connections that are no longer held. -/
theorem leads_of_step (t : ι) {s u : Server} {a : Action} (hs : Steady s)
    (h : s.step a = some u) : (Threads.system machine ι).Leads anyStep (idle s) (idle u) := by
  obtain ⟨performed, hperform, rfl⟩ := Option.map_eq_some_iff.mp h
  have hcall : ∀ k : Invocation, k.effect s = performed →
      (Threads.system machine ι).Leads anyStep (idle s) (idle performed) := by
    rintro k rfl
    rw [← finish_code]
    exact leads_call disciplined_machine hs t k
  have hevent : ∀ e : Event, Server.event s e = some performed →
      (Threads.system machine ι).Leads anyStep (idle s) (idle performed) :=
    fun e he ↦ leads_event he
  have hstep : (Threads.system machine ι).Leads anyStep (idle s) (idle performed) := by
    cases a with
    | start => exact hcall .start (Option.some.inj hperform)
    | stop => exact hcall .stop (Option.some.inj hperform)
    | sendData c message =>
        simp only [perform] at hperform
        split_ifs at hperform
        exact hcall (.sendData c message) (Option.some.inj hperform)
    | removeConnection c => exact hcall (.removeConnection c) (Option.some.inj hperform)
    | stopAndRemoveConnection c =>
        exact hcall (.stopAndRemoveConnection c) (Option.some.inj hperform)
    | peerSends c bytes => exact hevent (.peerSends c bytes) hperform
    | complete i r => exact hevent (.complete i r) hperform
    | handle i os =>
        have heffect : s.handle i os = some performed := hperform
        exact hcall (.handle i os) (by rw [Invocation.effect, heffect, Option.getD_some])
  exact hstep.trans (leads_event (e := .reap) rfl)

/-- The runs of the endpoint in which every function is one step are runs of the threads
in which no call is overtaken. -/
theorem threads_reachable [Nonempty ι] {s : Server} (h : system.Reachable anyStep s) :
    (Threads.system machine ι).Reachable anyStep (idle s) :=
  reachable_idle disciplined_machine (fun _ hs ↦ hs)
    (fun t _ _ _ hs hstep ↦ leads_of_step t hs hstep) h

theorem threads_reachable_started : ∃ s : Server,
    system.run anyStep [.start, .complete 0 ⟨.success, 0⟩, .handle 0 (.fine .unspecified)]
      constructed = some s ∧
        (Threads.system machine (Fin 2)).Reachable anyStep (idle s) := by
  obtain ⟨s, hs⟩ : ∃ s : Server,
      system.run anyStep [.start, .complete 0 ⟨.success, 0⟩, .handle 0 (.fine .unspecified)]
        constructed = some s := ⟨_, rfl⟩
  exact ⟨s, hs, threads_reachable (reachable_of_run rfl hs)⟩

/-! ## The exception -/

/-- If the buffer of an open connection cannot grow when it has to, its `receive` and a
`stop_and_remove_connection` of the same connection can block each other for good. -/
theorem receive_deadlocks {s : Server} {c : ℕ} {t v : ι} (htv : t ≠ v)
    (hthrows : Locked.Connection.throws false (s.connection c) = true) :
    ∃ u, (Threads.system machine ι).Leads anyStep (idle s) u ∧
      ∀ w, (Threads.system machine ι).Leads anyStep u w → Stuck t w ∧ Stuck v w := by
  have hcatch : (if Locked.Connection.throws false (s.connection c) then
      Locked.removeConnection c else skip).bind (fun b ↦ unlock (.socketMutex c) (ret b)) =
        (Locked.removeConnection c).bind fun b ↦ unlock (.socketMutex c) (ret b) := by
    rw [if_pos hthrows]
  obtain ⟨u, hu, hembrace⟩ := leads_embrace htv (by simp)
    (rfl : machine.code (.receive false c) = _) hcatch
    (rfl : machine.code (.stopAndRemoveConnection c) = _)
  exact ⟨u, hu, fun w hw ↦ hembrace.forever hw⟩

theorem receive_deadlocks_waiting : ∃ u : Threads Mutex Server Unit (Fin 2),
    (Threads.system machine (Fin 2)).Leads anyStep
      (idle (constructed.update 0 { Connection.create with isOpen := true, missingCapacity := 8 }))
      u ∧ ∀ w, (Threads.system machine (Fin 2)).Leads anyStep u w → Stuck 0 w ∧ Stuck 1 w :=
  receive_deadlocks (c := 0) (by decide) (by decide)

end Threads

end Server

end DoipEndpoint
