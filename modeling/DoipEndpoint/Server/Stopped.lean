import DoipEndpoint.Server.Quiet

/-!
# A stopped TCP server endpoint

`stop` closes the acceptor and the connections that `connections_` knows.  An
open connection that is not stored, because its accept has completed and its
`accept_cbk` is still queued, or because a newer connection took its key,
survives `stop`.
-/

namespace DoipEndpoint

namespace Server

open TransitionSystem

/-- After `stop` no connection is stored and none has an open socket. -/
def Silent (s : Server) : Prop :=
  s.acceptorOpen = false → s.connections.isEmpty = true ∧ ∀ c, (s.connection c).isOpen = false

/-- `stop` is called only when every open connection is stored. -/
def stopsAll (s : Server) : Action → Prop
  | .stop => ∀ c, (s.connection c).isOpen = true → s.stored c = true
  | _ => True

/-- Open sockets belong to connection objects that are alive. -/
def Alive (s : Server) : Prop := ∀ c, (s.connection c).isOpen = true → s.referenced c = true

theorem alive_reap (s : Server) : Alive s.reap := by
  intro c hopen
  rw [reap_isOpen, Bool.and_eq_true] at hopen
  exact hopen.2

theorem alive_of_reachable {allowed : Server → Action → Prop} {s : Server}
    (h : system.Reachable allowed s) : Alive s := by
  apply h.invariant (I := Alive)
  · rintro s rfl c hopen
    simp [constructed, Connection.create] at hopen
  · intro s a t _ _ hstep
    obtain ⟨u, _, rfl⟩ := step_eq_some hstep
    exact alive_reap u

structure Stopped (s : Server) : Prop where
  acceptor : s.acceptorOpen = false
  empty : s.connections.isEmpty = true
  closed : ∀ c, (s.connection c).isOpen = false

theorem Stopped.update {s : Server} (h : Stopped s) (c : ℕ) {k : Connection}
    (hk : k.isOpen = false) : Stopped (s.update c k) := by
  refine ⟨h.acceptor, h.empty, fun c' ↦ ?_⟩
  by_cases hc : c' = c
  · simp [hc, hk]
  · simp [hc, h.closed c']

theorem Stopped.removeConnection {s : Server} (h : Stopped s) (c : ℕ) :
    s.removeConnection c = s := by
  have hnil : s.connections.toList = [] := by
    rw [← List.isEmpty_iff, Std.TreeMap.isEmpty_toList]
    exact h.empty
  simp [Server.removeConnection, hnil]

theorem Stopped.stopAndRemoveConnection {s : Server} (h : Stopped s) (c : ℕ) :
    Connection.stopAndRemoveConnection c s = s := by
  have hstop : Connection.stop c s = s := by simp [Connection.stop, closeSocket, h.closed c]
  rw [Connection.stopAndRemoveConnection, hstop, h.removeConnection]

theorem Stopped.start {s : Server} (h : Stopped s) : s.start = s := by
  simp [Server.start, h.acceptor]

theorem Stopped.reap {s : Server} (h : Stopped s) : Stopped s.reap := by
  refine ⟨h.acceptor, h.empty, fun c ↦ ?_⟩
  rw [reap_isOpen, h.closed c, Bool.false_and]

/-- On a closed socket `set_option` fails, so an `accept_cbk` that is run late
stores nothing. -/
theorem Stopped.acceptCbk {s : Server} (h : Stopped s) (os : Os) (e : ErrorCode) (c : ℕ) :
    Stopped (s.acceptCbk os e c) := by
  have haccepted : Stopped (s.accepted os c) := by
    simp only [accepted, h.closed c, Os.onClosed, Bool.false_eq_true, reduceCtorEq, ↓reduceIte]
    exact h.update c (h.closed c)
  have hbody : Stopped (if e = .success then s.accepted os c else s) := by
    split_ifs
    · exact haccepted
    · exact h
  simp only [Server.acceptCbk]
  split_ifs with h₁ h₂ h₃
  · rwa [haccepted.start]
  · rwa [h.start]
  · exact ⟨haccepted.acceptor, haccepted.empty, haccepted.closed⟩
  · exact ⟨h.acceptor, h.empty, h.closed⟩
  · exact haccepted
  · exact h

theorem Stopped.handle {s t : Server} {i : ℕ} {os : Os} (h : Stopped s)
    (hstep : s.handle i os = some t) : Stopped t := by
  obtain ⟨handler, r, _, rfl⟩ := handle_eq_some hstep
  have hrun : Stopped (record handler r { s with operations := s.operations.eraseIdx i }) := by
    have hs : Stopped { s with operations := s.operations.eraseIdx i } :=
      ⟨h.acceptor, h.empty, h.closed⟩
    unfold record
    split
    · split
      · exact hs.update _ (h.closed _)
      · exact hs
    · exact hs
  unfold dispatch
  cases handler with
  | acceptCbk c => exact hrun.acceptCbk os r.error c
  | receiveCbk c offset length =>
      simp only [Connection.receiveCbk, hrun.stopAndRemoveConnection]
      split_ifs <;> exact hrun
  | sendCbk c message =>
      simp only [Connection.writeCompletionCondition, hrun.stopAndRemoveConnection]
      split_ifs <;> exact ⟨hrun.acceptor, hrun.empty, hrun.closed⟩
  | retry =>
      simp only [Server.retry, hrun.start]
      split_ifs <;> exact hrun

theorem Stopped.complete {s t : Server} {i : ℕ} {r : Completion} (h : Stopped s)
    (hstep : s.complete i r = some t) : Stopped t := by
  obtain ⟨handler, _, hf⟩ := complete_eq_some hstep
  cases handler with
  | acceptCbk c => simp [finish, h.acceptor] at hf
  | receiveCbk c offset length => simp [finish, h.closed] at hf
  | sendCbk c message => simp [finish, h.closed] at hf
  | retry =>
      simp only [finish] at hf
      cases Option.some.inj hf
      exact ⟨h.acceptor, h.empty, h.closed⟩

theorem stopped_stop {s : Server} (hclosed : ∀ c, (s.stop.connection c).isOpen = false) :
    Stopped s.stop := by
  obtain ⟨hacc, htab, _, _⟩ := stop_spec s
  exact ⟨hacc, by rw [htab]; exact Std.TreeMap.isEmpty_emptyc, hclosed⟩

theorem Stopped.perform {s t : Server} {a : Action} (h : Stopped s)
    (hstep : s.perform a = some t) : Stopped t := by
  cases a with
  | start =>
      cases Option.some.inj hstep
      rwa [h.start]
  | stop =>
      cases Option.some.inj hstep
      apply stopped_stop
      intro c
      rw [(stop_spec s).2.2.2 c, h.closed c, Bool.false_and]
  | sendData c message =>
      simp only [Server.perform] at hstep
      split_ifs at hstep
      cases Option.some.inj hstep
      exact ⟨h.acceptor, h.empty, h.closed⟩
  | removeConnection c =>
      cases Option.some.inj hstep
      rwa [h.removeConnection]
  | stopAndRemoveConnection c =>
      cases Option.some.inj hstep
      rwa [h.stopAndRemoveConnection]
  | peerSends c bytes => simp [Server.perform, peerSends, h.closed] at hstep
  | complete i r => exact h.complete hstep
  | handle i os => exact h.handle hstep

theorem acceptorOpen_start (s : Server) : s.start.acceptorOpen = s.acceptorOpen := by
  unfold start
  split <;> rfl

theorem acceptorOpen_perform {s t : Server} {a : Action} (hstep : s.perform a = some t)
    (hstop : a ≠ .stop) : t.acceptorOpen = s.acceptorOpen := by
  cases performed_of_perform hstep with
  | started => exact acceptorOpen_start s
  | stopped => exact absurd rfl hstop
  | sending c message => rfl
  | quiet _ _ _ h => exact h.acceptorOpen
  | completed _ _ _ _ _ h => exact h.acceptorOpen
  | received _ _ _ _ _ _ _ _ h => exact h.acceptorOpen
  | sent _ _ _ _ _ _ _ h => exact h.acceptorOpen
  | accepting i os c r =>
      obtain ⟨v, hv, heq⟩ := acceptCbk_eq os r.error c
        { s with operations := s.operations.eraseIdx i }
      rw [heq]
      split_ifs
      · exact (acceptorOpen_start v).trans hv.acceptorOpen
      · exact hv.acceptorOpen
      · exact hv.acceptorOpen
  | retrying i os r =>
      unfold retry
      split_ifs
      · exact acceptorOpen_start _
      · rfl

/-- What survives `stop` is open and not stored. -/
theorem silent_stop_iff {s : Server} (hs : Alive s) :
    Silent s.stop.reap ↔ ∀ c, (s.connection c).isOpen = true → s.stored c = true := by
  obtain ⟨hacc, htab, hops, hopen⟩ := stop_spec s
  have hsurvives : ∀ c, (s.stop.reap.connection c).isOpen =
      ((s.connection c).isOpen && !s.stored c) := by
    intro c
    rw [reap_isOpen, hopen]
    by_cases h : (s.connection c).isOpen = true ∧ s.stored c = false
    · have halive := hs c h.1
      have hheld := held_eq hops c
      rw [referenced, h.2, Bool.false_or] at halive
      simp only [referenced, hheld, halive, Bool.or_true, Bool.and_true]
    · cases ho : (s.connection c).isOpen <;> simp_all
  constructor
  · intro h c ho
    have hclosed := (h hacc).2 c
    rw [hsurvives, ho, Bool.true_and] at hclosed
    simpa using hclosed
  · refine fun h _ ↦ ⟨?_, fun c ↦ ?_⟩
    · have hempty : s.stop.connections.isEmpty = true := by
        rw [htab]
        exact Std.TreeMap.isEmpty_emptyc
      exact hempty
    · rw [hsurvives]
      cases ho : (s.connection c).isOpen with
      | false => rfl
      | true => simp [h c ho]

theorem silent_keptExactlyBy : system.KeptExactlyBy Silent stopsAll := by
  refine keptExactlyBy_of_invariant (I := fun s ↦ Alive s ∧ Silent s) ?_ ?_ (fun _ h ↦ h.2) ?_
  · rintro s rfl
    exact ⟨fun c hc ↦ by simp [constructed, Connection.create] at hc,
      fun h ↦ by simp [constructed] at h⟩
  · rintro s a t ⟨halive, hsilent⟩ hguard hstep
    obtain ⟨u, hu, rfl⟩ := step_eq_some hstep
    constructor
    · exact alive_reap u
    · by_cases hstop : a = .stop
      · subst hstop
        cases Option.some.inj hu
        exact (silent_stop_iff halive).mpr hguard
      · intro hacc
        have hacc' : s.acceptorOpen = false := (acceptorOpen_perform hu hstop).symm.trans hacc
        obtain ⟨hempty, hclosed⟩ := hsilent hacc'
        have hu' := (Stopped.perform ⟨hacc', hempty, hclosed⟩ hu).reap
        exact ⟨hu'.empty, hu'.closed⟩
  · rintro s a t ⟨halive, _⟩ hstep ht
    obtain ⟨u, hu, rfl⟩ := step_eq_some hstep
    cases a with
    | stop =>
        cases Option.some.inj hu
        exact (silent_stop_iff halive).mp ht
    | start | sendData | removeConnection | stopAndRemoveConnection | peerSends | complete
    | handle => trivial

/-- After `stop` the server stays silent for exactly as long as `stop` is
called only when every open connection is stored. -/
theorem stop_silences {s : Server} (h : system.Reachable stopsAll s) :
    Silent s ∧ ∀ a t, system.step s a = some t → (Silent t ↔ stopsAll s a) :=
  ⟨silent_keptExactlyBy.1 s h, fun a t hstep ↦ silent_keptExactlyBy.2 s a t h hstep⟩

def peer : Endpoint := ⟨.v4 0xc0a80001#32, 40000⟩

/-- A server that has stored a connection may stop. -/
theorem stop_silences_stored : ∃ s t, system.run (fun _ a ↦ a ≠ .stop)
      [.start, .complete 0 ⟨.success, 0⟩, .handle 0 (.fine peer)] constructed = some s ∧
    (s.connection 0).isOpen = true ∧ system.step s .stop = some t ∧
    (Silent t ↔ stopsAll s .stop) := by
  have hrun : ∃ s, system.run (fun _ a ↦ a ≠ .stop)
      [.start, .complete 0 ⟨.success, 0⟩, .handle 0 (.fine peer)] constructed = some s ∧
      (s.connection 0).isOpen = true := ⟨_, rfl, rfl⟩
  obtain ⟨s, hs, hopen⟩ := hrun
  have hreach : system.Reachable stopsAll s := by
    refine Reachable.mono ?_ (reachable_of_run rfl hs)
    intro s a ha
    cases a with
    | stop => exact absurd rfl ha
    | start | sendData | removeConnection | stopAndRemoveConnection | peerSends | complete
    | handle => trivial
  exact ⟨s, _, hs, hopen, rfl, (stop_silences hreach).2 .stop _ rfl⟩

/-- A connection whose accept had completed when `stop` was called is stored
and read afterwards. -/
theorem accepted_after_stop : ¬∀ s, system.Reachable anyStep s → Silent s := by
  intro h
  have hrun : ∃ s, system.run anyStep
      [.start, .complete 0 ⟨.success, 0⟩, .stop, .handle 0 (.fine peer)] constructed = some s ∧
      s.acceptorOpen = false ∧ (s.connection 0).isOpen = true := ⟨_, rfl, rfl, rfl⟩
  obtain ⟨s, hs, hacc, hopen⟩ := hrun
  have hclosed := (h s (reachable_of_run rfl hs) hacc).2 0
  simp [hopen] at hclosed

end Server

end DoipEndpoint
