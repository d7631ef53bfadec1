import DoipEndpoint.Server.Stopped

/-!
# The connection table

Only `accept_cbk` writes to `connections_`, once for each connection object and
before it starts that connection.  So a stored connection has one key, and
`remove_connection`, which stops at the first match, removes all of it.
-/

namespace DoipEndpoint

namespace Server

open TransitionSystem

/-! ## What `accept_cbk` does with an accepted connection -/

/-- The value of `remote`, on an open socket. -/
def remoteOf (os : Os) : Endpoint :=
  if os.remoteEndpointResult = .success then os.remoteEndpoint else .unspecified

/-- The two calls that `its_error` still tells apart at the end. -/
def keeps (s : Server) (os : Os) (c : ℕ) : Prop :=
  (s.connection c).isOpen = true ∧ os.keepAliveResult = .success

instance (s : Server) (os : Os) (c : ℕ) : Decidable (s.keeps os c) :=
  inferInstanceAs (Decidable (_ ∧ _))

/-- No connection but `c` is accepted or started. -/
structure Accepts (c : ℕ) (s t : Server) : Prop where
  others : ∀ c', c' ≠ c → (t.connection c').accepted = (s.connection c').accepted ∧
    (t.connection c').history.attached = (s.connection c').history.attached

/-- The accepted connection is stored and started. -/
structure Files (os : Os) (c : ℕ) (s t : Server) : Prop extends Accepts c s t where
  accepted : (t.connection c).accepted = some os
  table : ∀ (key : Endpoint) (c' : ℕ), t.connections[key]? = some c' →
    (key = remoteOf os ∧ c' = c) ∨ s.connections[key]? = some c'
  attached : (t.connection c).history.attached = true

structure Refuses (c : ℕ) (s t : Server) : Prop extends Accepts c s t where
  table : ∀ (key : Endpoint) (c' : ℕ), t.connections[key]? = some c' → s.connections[key]? = some c'
  attached : (t.connection c).history.attached = (s.connection c).history.attached

variable {os : Os} {c : ℕ} {s t u : Server}

theorem Accepts.trans (h : Accepts c s t) (hr : Records t u) : Accepts c s u := by
  refine ⟨fun c' hc' ↦ ?_⟩
  exact ⟨(hr.accepted c').trans (h.others c' hc').1, (hr.attached c').trans (h.others c' hc').2⟩

theorem Files.trans (h : Files os c s t) (hr : Records t u) : Files os c s u :=
  ⟨h.toAccepts.trans hr, (hr.accepted c).trans h.accepted,
    fun key c' hkey ↦ h.table key c' (hr.table key c' hkey), (hr.attached c).trans h.attached⟩

theorem Refuses.trans (h : Refuses c s t) (hr : Records t u) : Refuses c s u :=
  ⟨h.toAccepts.trans hr, fun key c' hkey ↦ h.table key c' (hr.table key c' hkey),
    (hr.attached c).trans h.attached⟩

theorem files_accepted (h : s.keeps os c) : Files os c s (s.accepted os c) := by
  have heq : s.accepted os c = Connection.receive os.grows c
      { s.update c { (s.connection c).setRemoteInfo (remoteOf os) with
          accepted := some os
          history := { (s.connection c).history with attached := true } } with
        connections := s.connections.insert (remoteOf os) c } := by
    simp only [accepted, h.1, h.2, ↓reduceIte, Connection.start, update,
      Function.update_self, Function.update_idem]
    rfl
  rw [heq]
  refine Files.trans ⟨⟨fun c' hc' ↦ ?_⟩, ?_, fun key c' hkey ↦ ?_, ?_⟩
    (quiet_receive os.grows c _).toRecords
  · simp [hc']
  · simp
  · rw [Std.TreeMap.getElem?_insert] at hkey
    split_ifs at hkey with heq
    · exact Or.inl ⟨(Std.compare_eq_iff_eq.mp heq).symm, (Option.some.inj hkey).symm⟩
    · exact Or.inr hkey
  · simp

theorem refuses_accepted (h : ¬s.keeps os c) : Refuses c s (s.accepted os c) := by
  obtain ⟨remote, answers, heq | ⟨hopen, hkeep, _⟩⟩ := accepted_cases os c s
  · rw [heq]
    refine ⟨⟨fun c' hc' ↦ ?_⟩, fun _ _ hkey ↦ hkey, ?_⟩
    · simp [hc']
    · simp [Connection.setRemoteInfo]
  · exact absurd ⟨hopen, hkeep⟩ h

/-! ## What a step does to the table -/

theorem records_start (h : Reads s) : Records s s.start := by
  unfold start
  split
  · have hnew : Function.update s.connection s.created .create = s.connection := by
      rw [Function.update_eq_self_iff]
      exact (h.fresh s.created (le_refl _)).1.symm
    refine ⟨fun _ _ hkey ↦ hkey, fun c ↦ ?_, fun c ↦ ?_⟩ <;>
      simp only [issue, update, hnew]
  · exact Records.refl s

theorem records_stop (s : Server) : Records s s.stop := by
  have hclosed : Records s s.closeAcceptor := by
    unfold closeAcceptor
    split
    · exact ⟨fun _ _ hkey ↦ hkey, fun _ ↦ rfl, fun _ ↦ rfl⟩
    · exact Records.refl s
  have hstopped := hclosed.trans
    (quiet_foldl_stop s.closeAcceptor.connections.toList s.closeAcceptor).toRecords
  refine ⟨fun key c hkey ↦ ?_, hstopped.accepted, hstopped.attached⟩
  rw [(stop_spec s).2.1] at hkey
  simp at hkey

/-- After the accepted connection has been dealt with, `accept_cbk` only sees
to the next accept. -/
theorem records_acceptCbk (os : Os) (c : ℕ) (e : ErrorCode) (s : Server)
    (h : Reads (if e = .success then s.accepted os c else s)) :
    Records (if e = .success then s.accepted os c else s) (s.acceptCbk os e c) := by
  simp only [acceptCbk]
  generalize (if e = .success then s.accepted os c else s) = v at h ⊢
  split_ifs
  · exact records_start h
  · exact ⟨fun _ _ hkey ↦ hkey, fun _ ↦ rfl, fun _ ↦ rfl⟩
  · exact Records.refl v

/-- The step runs the `accept_cbk` of an accepted connection. -/
def acceptedBy (s : Server) (os : Os) (c : ℕ) (a : Action) : Prop :=
  ∃ i r, a = .handle i os ∧ s.queued i = some (.acceptCbk c, r) ∧ r.error = .success

theorem records_operations (s : Server) (ops : List Operation) :
    Records s { s with operations := ops } := ⟨fun _ _ h ↦ h, fun _ ↦ rfl, fun _ ↦ rfl⟩

/-- What a run of `accept_cbk` does to the table and to its connection. -/
structure Accepted (os : Os) (c : ℕ) (s t : Server) : Prop where
  free : (s.connection c).history.attached = false
  files : s.keeps os c → Files os c s t
  refuses : ¬s.keeps os c → Refuses c s t

theorem accepted_handle (h : Reads s) {i : ℕ} {r : Completion}
    (hq : s.queued i = some (.acceptCbk c, r)) (he : r.error = .success) :
    Accepted os c s (acceptCbk os r.error c { s with operations := s.operations.eraseIdx i }) := by
  obtain ⟨hnone, hfree, hc⟩ := h.queuedAccept (queued_eq_some hq)
  have herase := h.eraseIdx (queued_eq_some hq) fun _ ↦ rfl
  have hreads := herase.accepted hc os hnone hfree
  have hrest := records_acceptCbk os c r.error
    { s with operations := s.operations.eraseIdx i } (by rwa [if_pos he])
  rw [if_pos he] at hrest
  refine ⟨hfree, fun hkeeps ↦ ?_, fun hkeeps ↦ ?_⟩
  · have herased : keeps { s with operations := s.operations.eraseIdx i } os c := hkeeps
    have hfiles := (files_accepted herased).trans hrest
    exact ⟨⟨hfiles.others⟩, hfiles.accepted, hfiles.table, hfiles.attached⟩
  · have herased : ¬keeps { s with operations := s.operations.eraseIdx i } os c := hkeeps
    have hrefuses := (refuses_accepted herased).trans hrest
    exact ⟨⟨hrefuses.others⟩, hrefuses.table, hrefuses.attached⟩

theorem Accepted.trans (h : Accepted os c s t) (hr : Records t u) : Accepted os c s u :=
  ⟨h.free, fun hkeeps ↦ (h.files hkeeps).trans hr, fun hkeeps ↦ (h.refuses hkeeps).trans hr⟩

theorem records_perform (h : Reads s) {a : Action} (hstep : s.perform a = some t)
    (hnot : ¬∃ os c, acceptedBy s os c a) : Records s t := by
  cases performed_of_perform hstep with
  | started => exact records_start h
  | stopped => exact records_stop s
  | sending c message => exact ⟨fun _ _ hkey ↦ hkey, fun _ ↦ rfl, fun _ ↦ rfl⟩
  | quiet _ _ _ hquiet => exact hquiet.toRecords
  | completed _ _ _ _ _ hquiet => exact (records_operations s _).trans hquiet.toRecords
  | received _ _ _ _ _ _ _ _ hquiet => exact (records_operations s _).trans hquiet.toRecords
  | sent _ _ _ _ _ _ _ hquiet =>
      have hcondition := (records_operations s _).trans hquiet.toRecords
      exact ⟨hcondition.table, hcondition.accepted, hcondition.attached⟩
  | accepting i os c r hq =>
      have he : r.error ≠ .success := fun he ↦ hnot ⟨os, c, i, r, rfl, hq, he⟩
      have hreads := h.eraseIdx (queued_eq_some hq) fun _ ↦ rfl
      have hrest := records_acceptCbk os c r.error
        { s with operations := s.operations.eraseIdx i } (by rwa [if_neg he])
      rw [if_neg he] at hrest
      exact (records_operations s _).trans hrest
  | retrying i os r hq =>
      have hreads := h.eraseIdx (queued_eq_some hq) fun _ ↦ rfl
      unfold retry
      split_ifs
      · exact (records_operations s _).trans (records_start hreads)
      · exact records_operations s _

/-- A step accepts one connection, or it stores, accepts and starts none. -/
theorem step_cases (h : Reads s) {a : Action} (hstep : step s a = some t) :
    (∃ os c, acceptedBy s os c a ∧ Accepted os c s t) ∨
      (¬∃ os c, acceptedBy s os c a) ∧ Records s t := by
  obtain ⟨u, hu, rfl⟩ := step_eq_some hstep
  by_cases haccepted : ∃ os c, acceptedBy s os c a
  · obtain ⟨os, c, i, r, rfl, hq, he⟩ := haccepted
    obtain ⟨handler, r', hq', rfl⟩ := handle_eq_some hu
    rw [hq] at hq'
    obtain ⟨rfl, rfl⟩ := Prod.mk.inj (Option.some.inj hq')
    exact Or.inl ⟨os, c, ⟨i, r, rfl, hq, he⟩,
      (accepted_handle h hq he).trans (quiet_reap _).toRecords⟩
  · exact Or.inr ⟨haccepted, (records_perform h hu haccepted).trans (quiet_reap u).toRecords⟩

/-! ## One key for each connection -/

/-- A stored connection was started, and it has one key. -/
structure Filed (s : Server) : Prop where
  reads : Reads s
  attached : ∀ (key : Endpoint) (c : ℕ), s.connections[key]? = some c →
    (s.connection c).history.attached = true
  once : OneKey.Once s.connections

theorem Filed.of_records (h : Filed s) (hr : Records s t) (hreads : Reads t) : Filed t := by
  refine ⟨hreads, fun key c hkey ↦ ?_, h.once.mono hr.table⟩
  rw [hr.attached]
  exact h.attached key c (hr.table key c hkey)

/-- A connection that has not been started is not stored. -/
theorem Filed.not_stored (h : Filed s) (hfree : (s.connection c).history.attached = false)
    (key : Endpoint) : s.connections[key]? ≠ some c := by
  intro hkey
  rw [h.attached key c hkey] at hfree
  exact absurd hfree (by simp)

theorem Filed.of_files (h : Filed s) (hfiles : Files os c s t)
    (hfree : (s.connection c).history.attached = false) (hreads : Reads t) : Filed t := by
  refine ⟨hreads, fun key c' hkey ↦ ?_, h.once.of_new (h.not_stored hfree) hfiles.table⟩
  by_cases hc : c' = c
  · rw [hc, hfiles.attached]
  · rw [(hfiles.others c' hc).2]
    rcases hfiles.table key c' hkey with ⟨_, heq⟩ | hold
    · exact absurd heq hc
    · exact h.attached key c' hold

theorem Filed.of_refuses (h : Filed s) (hrefuses : Refuses c s t) (hreads : Reads t) :
    Filed t := by
  refine ⟨hreads, fun key c' hkey ↦ ?_, h.once.mono hrefuses.table⟩
  have hold := h.attached key c' (hrefuses.table key c' hkey)
  by_cases hc : c' = c
  · rw [hc, hrefuses.attached, ← hc, hold]
  · rw [(hrefuses.others c' hc).2, hold]

theorem Filed.step (h : Filed s) {a : Action} (hstep : step s a = some t) : Filed t := by
  have hreads : Reads t := by
    obtain ⟨u, hu, rfl⟩ := step_eq_some hstep
    exact (h.reads.perform hu).reap
  rcases step_cases h.reads hstep with ⟨os, c, _, haccepted⟩ | ⟨_, hrecords⟩
  · by_cases hkeeps : s.keeps os c
    · exact h.of_files (haccepted.files hkeeps) haccepted.free hreads
    · exact h.of_refuses (haccepted.refuses hkeeps) hreads
  · exact h.of_records hrecords hreads

theorem filed_constructed : Filed constructed := by
  refine ⟨reads_of_reachable (Reachable.initial rfl), fun key c hkey ↦ ?_,
    fun key key' c hkey _ ↦ ?_⟩ <;> simp [constructed] at hkey

theorem filed_of_reachable {allowed : Server → Action → Prop} (h : system.Reachable allowed s) :
    Filed s := by
  refine h.invariant ?_ fun s a t hs _ hstep ↦ hs.step hstep
  rintro s rfl
  exact filed_constructed

/-! ## Removing a connection -/

/-- The connection is stored nowhere, and every other one is where it was. -/
def RemovesOnly (c : ℕ) (s t : Server) : Prop :=
  (∀ key : Endpoint, t.connections[key]? ≠ some c) ∧
    ∀ (key : Endpoint) (c' : ℕ), c' ≠ c →
      (t.connections[key]? = some c' ↔ s.connections[key]? = some c')

theorem Filed.removesOnly (h : Filed s) (c : ℕ) : RemovesOnly c s (s.removeConnection c) := by
  rw [removeConnection_eq]
  constructor
  · intro key
    exact h.once.not_mem_eraseFirst c key
  · intro key c' hc'
    exact OneKey.getElem?_eraseFirst_iff hc' key

theorem Filed.removesOnly_stopped (h : Filed s) (c : ℕ) :
    RemovesOnly c s (Connection.stopAndRemoveConnection c s) := by
  have hclosed : Filed (s.closeSocket c) :=
    h.of_records (quiet_closeSocket c s).toRecords (h.reads.closeSocket c)
  have hsame : (s.closeSocket c).connections = s.connections :=
    (sameTable_closeSocket c s).connections
  have hremoved := hclosed.removesOnly c
  refine ⟨hremoved.1, fun key c' hc' ↦ ?_⟩
  rw [← hsame]
  exact hremoved.2 key c' hc'

/-- Whatever was accepted, displaced, removed and stopped before, each connection
is stored under one key at most, and removing a connection removes it and
nothing else. -/
theorem connection_stored_once (h : system.Reachable anyStep s) :
    (∀ (key key' : Endpoint) (c : ℕ), s.connections[key]? = some c →
      s.connections[key']? = some c → key = key') ∧
    ∀ c, RemovesOnly c s (s.removeConnection c) ∧
      RemovesOnly c s (Connection.stopAndRemoveConnection c s) := by
  have hfiled := filed_of_reachable h
  exact ⟨hfiled.once, fun c ↦ ⟨hfiled.removesOnly c, hfiled.removesOnly_stopped c⟩⟩

/-- Two connections with one remote: the newer one has taken the key. -/
def twoAccepts : List Action :=
  [.start, .complete 0 ⟨.success, 0⟩, .handle 0 (.fine peer),
    .complete 1 ⟨.success, 0⟩, .handle 1 (.fine peer)]

/-- Removing the displaced connection leaves the newer one stored. -/
theorem connection_stored_once_displaced : ∃ s, system.run anyStep twoAccepts constructed = some s ∧
    s.connections[peer]? = some 1 ∧ (s.removeConnection 0).connections[peer]? = some 1 := by
  have hrun : ∃ s, system.run anyStep twoAccepts constructed = some s ∧
      s.connections[peer]? = some 1 := ⟨_, rfl, rfl⟩
  obtain ⟨s, hs, hkey⟩ := hrun
  have hremoves := ((connection_stored_once (reachable_of_run rfl hs)).2 0).1
  exact ⟨s, hs, hkey, (hremoves.2 peer 1 (by decide)).mpr hkey⟩

end Server

end DoipEndpoint
