import DoipEndpoint.Server.Table

/-!
# The keys of the connection table

`accept_cbk` passes one error code to three calls and looks at it once, at the
end.  Only the failure of the last call is noticed: after any other failure the
connection is stored, under the unspecified endpoint if its remote is unknown,
and started.
-/

namespace DoipEndpoint

namespace Server

open TransitionSystem

/-- The three calls on the accepted socket succeeded. -/
def Os.succeeds (os : Os) : Prop :=
  os.remoteEndpointResult = .success ∧ os.noDelayResult = .success ∧ os.keepAliveResult = .success

/-- The keys of the table are the remotes of its connections, and a connection
for which one of the calls failed is neither stored nor started. -/
structure RealPeers (s : Server) : Prop where
  stored : ∀ (key : Endpoint) (c : ℕ), s.connections[key]? = some c →
    ∃ os, (s.connection c).accepted = some os ∧ os.succeeds ∧ os.remoteEndpoint = key
  failed : ∀ c os, (s.connection c).accepted = some os → ¬os.succeeds →
    (∀ key : Endpoint, s.connections[key]? ≠ some c) ∧
      (s.connection c).history.attached = false

/-- If the last of the three calls succeeds, the other two did. -/
def earlierSucceed (s : Server) (a : Action) : Prop :=
  ∀ os c, acceptedBy s os c a → s.keeps os c →
    os.remoteEndpointResult = .success ∧ os.noDelayResult = .success

variable {s t : Server} {os : Os} {c : ℕ} {a : Action}

theorem acceptedBy_unique {os' : Os} {c' : ℕ} (h : acceptedBy s os c a)
    (h' : acceptedBy s os' c' a) : os' = os ∧ c' = c := by
  obtain ⟨i, r, rfl, hq, _⟩ := h
  obtain ⟨i', r', ha, hq', _⟩ := h'
  obtain ⟨rfl, rfl⟩ := Action.handle.inj ha
  rw [hq] at hq'
  obtain ⟨hhandler, _⟩ := Prod.mk.inj (Option.some.inj hq')
  exact ⟨rfl, (Handler.acceptCbk.inj hhandler).symm⟩

theorem RealPeers.of_records (h : RealPeers s) (hr : Records s t) : RealPeers t := by
  constructor
  · intro key c hkey
    rw [hr.accepted]
    exact h.stored key c (hr.table key c hkey)
  · intro c os haccepted hfailed
    rw [hr.accepted] at haccepted
    obtain ⟨hnot, hfree⟩ := h.failed c os haccepted hfailed
    exact ⟨fun key hkey ↦ hnot key (hr.table key c hkey), (hr.attached c).trans hfree⟩

theorem RealPeers.of_files (h : RealPeers s) (hfiled : Filed s)
    (hfree : (s.connection c).history.attached = false) (hfiles : Files os c s t)
    (hsucceeds : os.succeeds) : RealPeers t := by
  constructor
  · intro key c' hkey
    rcases hfiles.table key c' hkey with ⟨rfl, rfl⟩ | hold
    · exact ⟨os, hfiles.accepted, hsucceeds, by rw [remoteOf, if_pos hsucceeds.1]⟩
    · have hc : c' ≠ c := by
        rintro rfl
        exact hfiled.not_stored hfree key hold
      rw [(hfiles.others c' hc).1]
      exact h.stored key c' hold
  · intro c' os' haccepted hfailed
    have hc : c' ≠ c := by
      rintro rfl
      rw [hfiles.accepted] at haccepted
      exact hfailed (Option.some.inj haccepted ▸ hsucceeds)
    rw [(hfiles.others c' hc).1] at haccepted
    obtain ⟨hnot, hattached⟩ := h.failed c' os' haccepted hfailed
    refine ⟨fun key hkey ↦ ?_, (hfiles.others c' hc).2.trans hattached⟩
    rcases hfiles.table key c' hkey with ⟨_, heq⟩ | hold
    · exact hc heq
    · exact hnot key hold

theorem RealPeers.of_refuses (h : RealPeers s) (hfiled : Filed s)
    (hfree : (s.connection c).history.attached = false) (hrefuses : Refuses c s t) :
    RealPeers t := by
  have hnot := hfiled.not_stored hfree
  constructor
  · intro key c' hkey
    have hold := hrefuses.table key c' hkey
    have hc : c' ≠ c := by
      rintro rfl
      exact hnot key hold
    rw [(hrefuses.others c' hc).1]
    exact h.stored key c' hold
  · intro c' os' haccepted hfailed
    by_cases hc : c' = c
    · subst hc
      exact ⟨fun key hkey ↦ hnot key (hrefuses.table key c' hkey),
        hrefuses.attached.trans hfree⟩
    · rw [(hrefuses.others c' hc).1] at haccepted
      obtain ⟨hnot', hattached⟩ := h.failed c' os' haccepted hfailed
      exact ⟨fun key hkey ↦ hnot' key (hrefuses.table key c' hkey),
        (hrefuses.others c' hc).2.trans hattached⟩

theorem RealPeers.step (h : RealPeers s) (hfiled : Filed s) (hguard : earlierSucceed s a)
    (hstep : step s a = some t) : RealPeers t := by
  rcases step_cases hfiled.reads hstep with ⟨os, c, hby, haccepted⟩ | ⟨_, hrecords⟩
  · by_cases hkeeps : s.keeps os c
    · have hearlier := hguard os c hby hkeeps
      exact h.of_files hfiled haccepted.free (haccepted.files hkeeps)
        ⟨hearlier.1, hearlier.2, hkeeps.2⟩
    · exact h.of_refuses hfiled haccepted.free (haccepted.refuses hkeeps)
  · exact h.of_records hrecords

/-- A connection that is stored after an unnoticed failure was started. -/
theorem earlierSucceed_of_realPeers (hfiled : Filed s) (hstep : step s a = some t)
    (h : RealPeers t) : earlierSucceed s a := by
  intro os c hby hkeeps
  rcases step_cases hfiled.reads hstep with ⟨os', c', hby', haccepted⟩ | ⟨hnot, _⟩
  · obtain ⟨rfl, rfl⟩ := acceptedBy_unique hby hby'
    have hfiles := haccepted.files hkeeps
    have hsucceeds : os'.succeeds := by
      by_contra hfailed
      have hfree := (h.failed c' os' hfiles.accepted hfailed).2
      rw [hfiles.attached] at hfree
      exact absurd hfree (by simp)
    exact ⟨hsucceeds.1, hsucceeds.2.1⟩
  · exact absurd ⟨os, c, hby⟩ hnot

theorem realPeers_keptExactlyBy : system.KeptExactlyBy RealPeers earlierSucceed := by
  refine keptExactlyBy_of_invariant (I := fun s ↦ Filed s ∧ RealPeers s) ?_ ?_ (fun _ h ↦ h.2) ?_
  · rintro s rfl
    refine ⟨filed_constructed, fun key c hkey ↦ ?_, fun c os haccepted ↦ ?_⟩
    · simp [constructed] at hkey
    · simp [constructed, Connection.create] at haccepted
  · rintro s a t ⟨hfiled, hpeers⟩ hguard hstep
    exact ⟨hfiled.step hstep, hpeers.step hfiled hguard hstep⟩
  · rintro s a t ⟨hfiled, _⟩ hstep ht
    exact earlierSucceed_of_realPeers hfiled hstep ht

/-- The keys of the table are real peers for exactly as long as no connection is
accepted for which `keep_alive` succeeds after an earlier call has failed. -/
theorem real_peers (h : system.Reachable earlierSucceed s) :
    RealPeers s ∧ ∀ a t, system.step s a = some t → (RealPeers t ↔ earlierSucceed s a) :=
  ⟨realPeers_keptExactlyBy.1 s h, fun a t hstep ↦ realPeers_keptExactlyBy.2 s a t h hstep⟩

/-- The answers of an action do not hide an earlier failure. -/
def Action.earlierSucceed : Action → Bool
  | .handle _ os => os.remoteEndpointResult = .success && os.noDelayResult = .success
  | _ => true

theorem earlierSucceed_of_action (ha : a.earlierSucceed = true) : Server.earlierSucceed s a := by
  rintro os c ⟨i, r, rfl, _⟩ _
  simpa [Action.earlierSucceed] using ha

/-- A connection whose remote is known is stored under it. -/
theorem real_peers_stored : ∃ s, system.run (fun _ a ↦ a.earlierSucceed = true)
      [.start, .complete 0 ⟨.success, 0⟩, .handle 0 (.fine peer)] constructed = some s ∧
    s.connections[peer]? = some 0 ∧ RealPeers s := by
  have hrun : ∃ s, system.run (fun _ a ↦ a.earlierSucceed = true)
      [.start, .complete 0 ⟨.success, 0⟩, .handle 0 (.fine peer)] constructed = some s ∧
      s.connections[peer]? = some 0 := ⟨_, rfl, rfl⟩
  obtain ⟨s, hs, hkey⟩ := hrun
  have hreach : system.Reachable Server.earlierSucceed s :=
    Reachable.mono (fun _ _ ha ↦ earlierSucceed_of_action ha) (reachable_of_run rfl hs)
  exact ⟨s, hs, hkey, (real_peers hreach).1⟩

/-- A connection whose remote could not be read is stored all the same. -/
theorem unknown_peer_stored : ¬∀ s, system.Reachable anyStep s → RealPeers s := by
  intro h
  have hrun : ∃ s, system.run anyStep [.start, .complete 0 ⟨.success, 0⟩,
      .handle 0 { Os.fine peer with remoteEndpointResult := .notConnected }] constructed =
        some s ∧ (s.connection 0).history.attached = true ∧
      (s.connection 0).accepted =
        some { Os.fine peer with remoteEndpointResult := .notConnected } := ⟨_, rfl, rfl, rfl⟩
  obtain ⟨s, hs, hattached, haccepted⟩ := hrun
  have hfailed := (h s (reachable_of_run rfl hs)).failed 0 _ haccepted
    (by simp [Os.succeeds, Os.fine])
  rw [hattached] at hfailed
  exact absurd hfailed.2 (by simp)

end Server

end DoipEndpoint
