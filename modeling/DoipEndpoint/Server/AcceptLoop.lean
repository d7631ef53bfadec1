import DoipEndpoint.Server.Stopped

/-!
# The accept loop

`start` issues an accept, and each `accept_cbk` and each timer takes one
operation out of the loop and puts at most one back.  It puts none back only
if the acceptor has been closed.
-/

namespace DoipEndpoint

namespace Server

open TransitionSystem

/-- What Asio reports while the acceptor is open: an accept is not aborted and
its descriptor is good, and a timer expires without error. -/
def Reports (handler : Handler) (e : ErrorCode) : Prop :=
  (handler.isAccept = true → e ≠ .operationAborted ∧ e ≠ .badDescriptor) ∧
    (handler = .retry → e = .success)

/-- The public `start` is not called, and Asio keeps to its reports. -/
def asioReports (s : Server) : Action → Prop
  | .start => False
  | .complete i r => ∀ o ∈ s.operations[i]?, Reports o.handler r.error
  | _ => True

instance (handler : Handler) (e : ErrorCode) : Decidable (Reports handler e) :=
  inferInstanceAs (Decidable ((handler.isAccept = true → e ≠ .operationAborted ∧
    e ≠ .badDescriptor) ∧ (handler = .retry → e = .success)))

instance (s : Server) : (a : Action) → Decidable (asioReports s a)
  | .start => isFalse id
  | .complete i r =>
      inferInstanceAs (Decidable (∀ o ∈ s.operations[i]?, Reports o.handler r.error))
  | .stop | .sendData _ _ | .removeConnection _ | .stopAndRemoveConnection _
  | .peerSends _ _ | .handle _ _ => isTrue trivial

/-- At most one operation is in the loop, and one as long as the acceptor is
open. -/
structure Looping (s : Server) : Prop where
  atMostOne : s.loop.length ≤ 1
  one : s.acceptorOpen = true → s.loop.length = 1
  reports : s.acceptorOpen = true → ∀ o ∈ s.loop, ∀ r, o.completion = some r →
    Reports o.handler r.error

variable {s t u : Server} {a : Action}

/-! ## The length of the loop -/

theorem length_loop (s : Server) :
    s.loop.length = s.operations.countP fun o ↦ o.handler.inLoop :=
  List.countP_eq_length_filter.symm

theorem length_loop_eraseIdx {i : ℕ} {handler : Handler} {r : Completion}
    (hq : s.queued i = some (handler, r)) : s.loop.length =
      (loop { s with operations := s.operations.eraseIdx i }).length +
        if handler.inLoop = true then 1 else 0 := by
  rw [length_loop, length_loop]
  exact InFlight.countP_eraseIdx (queued_eq_some hq) fun o ↦ o.handler.inLoop

theorem length_loop_set {i : ℕ} {handler : Handler} {completion : Option Completion}
    (ho : s.operations[i]? = some ⟨handler, completion⟩) (r : Completion) :
    (loop { s with operations := s.operations.set i ⟨handler, some r⟩ }).length =
      s.loop.length := by
  rw [length_loop, length_loop]
  exact InFlight.countP_set ho rfl

theorem mem_loop {o : Operation} :
    o ∈ s.loop ↔ o ∈ s.operations ∧ o.handler.inLoop = true := by
  simp [loop]

theorem loop_start (s : Server) : s.start.loop =
    if s.acceptorOpen then s.loop ++ [⟨.acceptCbk s.created, none⟩] else s.loop := by
  unfold start
  split
  · simp [loop, issue, update, List.filter_append, Handler.inLoop]
  · rfl

theorem loop_retry (s : Server) : (s.issue .retry none).loop = s.loop ++ [⟨.retry, none⟩] := by
  simp [loop, issue, List.filter_append, Handler.inLoop]

/-! ## Steps -/

/-- The loop has as many operations as before, and none of them is new, unless
the acceptor is closed, but for completions that Asio may report. -/
structure Continues (s t : Server) : Prop where
  length : t.loop.length = s.loop.length
  acceptor : t.acceptorOpen = true → s.acceptorOpen = true
  mem : t.acceptorOpen = true → ∀ o ∈ t.loop,
    o ∈ s.loop ∨ ∀ r, o.completion = some r → Reports o.handler r.error

theorem Calm.continues (h : Calm s t) : Continues s t :=
  ⟨congrArg List.length h.loop, fun ho ↦ h.acceptorOpen ▸ ho,
    fun _ _ ho ↦ Or.inl (h.loop ▸ ho)⟩

theorem Continues.calm (h : Continues s t) (hcalm : Calm t u) : Continues s u := by
  refine ⟨(congrArg List.length hcalm.loop).trans h.length,
    fun ho ↦ h.acceptor (hcalm.acceptorOpen ▸ ho), fun ho o hin ↦ ?_⟩
  exact h.mem (hcalm.acceptorOpen ▸ ho) o (hcalm.loop ▸ hin)

theorem Looping.continues (h : Looping s) (hc : Continues s t) : Looping t := by
  refine ⟨hc.length.trans_le h.atMostOne, fun ho ↦ ?_, fun ho o hin r hr ↦ ?_⟩
  · rw [hc.length]
    exact h.one (hc.acceptor ho)
  · rcases hc.mem ho o hin with hold | hreport
    · exact h.reports (hc.acceptor ho) o hold r hr
    · exact hreport r hr

theorem continues_set {i : ℕ} {handler : Handler} {r : Completion}
    (ho : s.operations[i]? = some ⟨handler, none⟩) (hreport : Reports handler r.error) :
    Continues s { s with operations := s.operations.set i ⟨handler, some r⟩ } := by
  refine ⟨length_loop_set ho r, fun hopen ↦ hopen, fun _ o hin ↦ ?_⟩
  obtain ⟨hmem, hloop⟩ := mem_loop.mp hin
  rcases List.mem_or_eq_of_mem_set hmem with hold | rfl
  · exact Or.inl (mem_loop.mpr ⟨hold, hloop⟩)
  · refine Or.inr fun r' hr' ↦ ?_
    cases Option.some.inj hr'
    exact hreport

theorem continues_eraseIdx {i : ℕ} {handler : Handler} {r : Completion}
    (hq : s.queued i = some (handler, r)) (hin : handler.inLoop = false) :
    Continues s { s with operations := s.operations.eraseIdx i } := by
  have hlength := length_loop_eraseIdx hq
  rw [hin] at hlength
  refine ⟨hlength.symm, fun hopen ↦ hopen, fun _ o ho ↦ Or.inl ?_⟩
  obtain ⟨hmem, hloop⟩ := mem_loop.mp ho
  exact mem_loop.mpr ⟨(List.eraseIdx_subset ..) hmem, hloop⟩

theorem continues_sendData (c : ℕ) (message : List UInt8) (s : Server) :
    Continues s (Connection.sendData c message s) := by
  refine ⟨?_, fun hopen ↦ hopen, fun _ o ho ↦ Or.inl ?_⟩
  · simp [loop, Connection.sendData, issue, Handler.inLoop]
  · simpa [loop, Connection.sendData, issue, Handler.inLoop] using ho

theorem continues_stop (s : Server) : Continues s s.stop := by
  have hacceptor := (stop_spec s).1
  refine ⟨?_, fun ho ↦ by simp [hacceptor] at ho, fun ho ↦ by simp [hacceptor] at ho⟩
  have hclosed : s.closeAcceptor.loop.length = s.loop.length := by
    unfold closeAcceptor
    split
    · rw [length_loop, length_loop]
      exact countP_abort _ Handler.inLoop s.operations
    · rfl
  have hcalm := quiet_foldl_stop s.closeAcceptor.connections.toList s.closeAcceptor
  have hloop : s.stop.loop = s.closeAcceptor.loop := hcalm.loop
  rw [hloop, hclosed]

/-- The step runs a handler of the loop. -/
def handlesLoop (s : Server) (a : Action) : Prop :=
  ∃ i os handler r, a = .handle i os ∧ s.queued i = some (handler, r) ∧ handler.inLoop = true

theorem continues_perform (hguard : asioReports s a) (hstep : s.perform a = some t)
    (hnot : ¬handlesLoop s a) : Continues s t := by
  cases performed_of_perform hstep with
  | started => exact absurd hguard id
  | stopped => exact continues_stop s
  | sending c message => exact continues_sendData c message s
  | quiet _ _ _ h => exact h.toCalm.continues
  | completed i handler r _ ho h =>
      have hreport : Reports handler r.error := hguard ⟨handler, none⟩ ho
      exact (continues_set ho hreport).calm h.toCalm
  | received i os c offset length r _ hq h => exact (continues_eraseIdx hq rfl).calm h.toCalm
  | sent i os c message r _ hq h =>
      have hcondition := (continues_eraseIdx hq rfl).calm h.toCalm
      exact ⟨hcondition.length, hcondition.acceptor, hcondition.mem⟩
  | accepting i os c r hq => exact absurd ⟨i, os, _, r, rfl, hq, rfl⟩ hnot
  | retrying i os r hq => exact absurd ⟨i, os, _, r, rfl, hq, rfl⟩ hnot

/-! ## The handlers of the loop -/

theorem looping_of_closed (hclosed : t.acceptorOpen = false) (hle : t.loop.length ≤ 1) :
    Looping t :=
  ⟨hle, fun ho ↦ by simp [hclosed] at ho, fun ho ↦ by simp [hclosed] at ho⟩

/-- One operation has just been issued. -/
theorem looping_of_issued {handler : Handler} (h : t.loop = [⟨handler, none⟩]) : Looping t := by
  refine ⟨by simp [h], fun _ ↦ by simp [h], fun _ o ho r hr ↦ ?_⟩
  rw [h, List.mem_singleton] at ho
  rw [ho] at hr
  exact absurd hr (by simp)

/-- `start` finds the loop empty. -/
theorem looping_start (h : s.loop = []) : Looping s.start := by
  have hloop := loop_start s
  rw [h, List.nil_append] at hloop
  by_cases hopen : s.acceptorOpen = true
  · rw [if_pos hopen] at hloop
    exact looping_of_issued hloop
  · rw [if_neg hopen] at hloop
    have hclosed : s.start.acceptorOpen = false := by
      rw [acceptorOpen_start]
      simpa using hopen
    exact looping_of_closed hclosed (by simp [hloop])

theorem looping_acceptCbk (os : Os) (e : ErrorCode) (c : ℕ) (h : s.loop = [])
    (hreports : s.acceptorOpen = true → Reports (.acceptCbk c) e) :
    Looping (s.acceptCbk os e c) := by
  obtain ⟨v, hv, heq⟩ := acceptCbk_eq os e c s
  have hempty : v.loop = [] := hv.loop.trans h
  rw [heq]
  split_ifs with hnormal hexhausted
  · exact looping_start hempty
  · have hissued : (v.issue .retry none).loop = [⟨.retry, none⟩] := by
      rw [loop_retry, hempty, List.nil_append]
    exact looping_of_issued hissued
  · -- the error says that the acceptor was closed
    refine looping_of_closed ?_ (by simp [hempty])
    rw [hv.acceptorOpen, ← Bool.not_eq_true]
    intro hopen
    obtain ⟨haborted, hdescriptor⟩ := (hreports hopen).1 rfl
    exact hnormal ⟨hdescriptor, haborted, hexhausted⟩

theorem looping_retry (e : ErrorCode) (h : s.loop = [])
    (hreports : s.acceptorOpen = true → Reports .retry e) : Looping (s.retry e) := by
  unfold retry
  split_ifs with he
  · exact looping_start h
  · refine looping_of_closed ?_ (by simp [h])
    rw [← Bool.not_eq_true]
    intro hopen
    exact he ((hreports hopen).2 rfl)

theorem Looping.handle (h : Looping s) (hloop : handlesLoop s a) (hstep : s.perform a = some t) :
    Looping t := by
  obtain ⟨i, os, handler, r, rfl, hq, hin⟩ := hloop
  obtain ⟨handler', r', hq', rfl⟩ := handle_eq_some hstep
  rw [hq] at hq'
  obtain ⟨rfl, rfl⟩ := Prod.mk.inj (Option.some.inj hq')
  have hempty : loop { s with operations := s.operations.eraseIdx i } = [] := by
    have hlength := length_loop_eraseIdx hq
    have hle := h.atMostOne
    rw [if_pos hin] at hlength
    exact List.length_eq_zero_iff.mp (by omega)
  have hreports : s.acceptorOpen = true → Reports handler r.error := by
    intro hopen
    have hmem : ⟨handler, some r⟩ ∈ s.loop :=
      mem_loop.mpr ⟨List.mem_of_getElem? (queued_eq_some hq), hin⟩
    exact h.reports hopen _ hmem r rfl
  cases handler with
  | acceptCbk c => exact looping_acceptCbk os r.error c hempty hreports
  | retry => exact looping_retry r.error hempty hreports
  | receiveCbk | sendCbk => simp [Handler.inLoop] at hin

theorem Looping.step (h : Looping s) (hguard : asioReports s a)
    (hstep : system.step s a = some t) : Looping t := by
  obtain ⟨u, hu, rfl⟩ := step_eq_some hstep
  have hperformed : Looping u := by
    by_cases hloop : handlesLoop s a
    · exact h.handle hloop hu
    · exact h.continues (continues_perform hguard hu hloop)
  exact hperformed.continues (quiet_reap u).toCalm.continues

/-- Before `start` nothing gets into the loop. -/
theorem loop_eq_nil_step (h : s.loop = []) (hguard : asioReports s a)
    (hstep : system.step s a = some t) : t.loop = [] := by
  obtain ⟨u, hu, rfl⟩ := step_eq_some hstep
  have hnot : ¬handlesLoop s a := by
    rintro ⟨i, os, handler, r, rfl, hq, hin⟩
    have hmem : ⟨handler, some r⟩ ∈ s.loop :=
      mem_loop.mpr ⟨List.mem_of_getElem? (queued_eq_some hq), hin⟩
    simp [h] at hmem
  have hlength := ((continues_perform hguard hu hnot).calm (quiet_reap u).toCalm).length
  rw [h, List.length_nil] at hlength
  exact List.length_eq_zero_iff.mp hlength

/-! ## After `stop` -/

/-- Nothing issues an accept when the acceptor is closed. -/
structure Closed (s t : Server) : Prop where
  acceptorOpen : t.acceptorOpen = false
  acceptsIssued : t.acceptsIssued = s.acceptsIssued

theorem Closed.start (h : Closed s t) : Closed s t.start := by
  have heq : t.start = t := by simp [Server.start, h.acceptorOpen]
  rwa [heq]

theorem Closed.calm (h : Closed s t) (hcalm : Calm t u) : Closed s u :=
  ⟨hcalm.acceptorOpen.trans h.acceptorOpen, hcalm.acceptsIssued.trans h.acceptsIssued⟩

theorem acceptsIssued_stop (s : Server) : s.stop.acceptsIssued = s.acceptsIssued := by
  have hclosed : s.closeAcceptor.acceptsIssued = s.acceptsIssued := by
    unfold closeAcceptor
    split <;> rfl
  have hcalm := quiet_foldl_stop s.closeAcceptor.connections.toList s.closeAcceptor
  exact hcalm.acceptsIssued.trans hclosed

theorem closed_stop (s : Server) : Closed s s.stop := ⟨(stop_spec s).1, acceptsIssued_stop s⟩

theorem closed_acceptCbk (hs : s.acceptorOpen = false) (os : Os) (e : ErrorCode) (c : ℕ) :
    Closed s (s.acceptCbk os e c) := by
  obtain ⟨v, hv, heq⟩ := acceptCbk_eq os e c s
  have hcalm := Closed.calm ⟨hs, rfl⟩ hv
  rw [heq]
  split_ifs
  · exact hcalm.start
  · exact ⟨hcalm.acceptorOpen, hcalm.acceptsIssued⟩
  · exact hcalm

theorem closed_perform (hs : s.acceptorOpen = false) (hstep : s.perform a = some t) :
    Closed s t := by
  have hrefl : Closed s s := ⟨hs, rfl⟩
  have hchanged : ∀ ops, Closed s { s with operations := ops } := fun _ ↦ ⟨hs, rfl⟩
  cases performed_of_perform hstep with
  | started => exact hrefl.start
  | stopped => exact closed_stop s
  | sending c message => exact ⟨hs, rfl⟩
  | quiet _ _ _ h => exact hrefl.calm h.toCalm
  | completed _ _ _ _ _ h => exact (hchanged _).calm h.toCalm
  | received _ _ _ _ _ _ _ _ h => exact (hchanged _).calm h.toCalm
  | sent _ _ _ _ _ _ _ h =>
      have hcondition := (hchanged _).calm h.toCalm
      exact ⟨hcondition.acceptorOpen, hcondition.acceptsIssued⟩
  | accepting i os c r =>
      have hrun := closed_acceptCbk (s := { s with operations := s.operations.eraseIdx i })
        hs os r.error c
      exact ⟨hrun.acceptorOpen, hrun.acceptsIssued⟩
  | retrying i os r =>
      unfold retry
      split_ifs
      · exact (hchanged _).start
      · exact hchanged _

/-- No accept is issued after `stop`, whatever is called. -/
theorem acceptsIssued_after_stop (hstop : system.step s .stop = some t)
    (hrun : system.Leads anyStep t u) : u.acceptsIssued = t.acceptsIssued := by
  have hclosed : Closed t t := by
    have hstop' : step s .stop = some t := hstop
    obtain ⟨v, hv, rfl⟩ := step_eq_some hstop'
    cases Option.some.inj hv
    exact ⟨(stop_spec s).1, rfl⟩
  have hafter : Closed t u := by
    refine hrun.invariant (I := Closed t) ?_ hclosed
    intro x a y hx _ hstep
    obtain ⟨v, hv, rfl⟩ := step_eq_some hstep
    have hv' := closed_perform hx.acceptorOpen hv
    have hv'' : Closed t v := ⟨hv'.acceptorOpen, hv'.acceptsIssued.trans hx.acceptsIssued⟩
    exact hv''.calm (quiet_reap v).toCalm
  exact hafter.acceptsIssued

/-! ## Runs -/

/-- When `start` is called once and Asio keeps to its reports, at most one accept
or retry timer is outstanding, none before `start` and exactly one afterwards
while the acceptor is open; and after `stop` no accept is issued. -/
theorem accept_loop {s₀ s₁ : Server} (hbefore : system.Reachable asioReports s₀)
    (hstart : system.step s₀ .start = some s₁) (hafter : system.Leads asioReports s₁ s) :
    s₀.loop.length = 0 ∧ s.loop.length ≤ 1 ∧
      (s.acceptorOpen = true → s.loop.length = 1) ∧
      ∀ t u v, system.step t .stop = some u → system.Leads anyStep u v →
        v.acceptsIssued = u.acceptsIssued := by
  have hempty : s₀.loop = [] := by
    refine hbefore.invariant (I := fun s ↦ s.loop = []) ?_ ?_
    · rintro s rfl
      rfl
    · intro s a t hs hguard hstep
      exact loop_eq_nil_step hs hguard hstep
  have hfirst : Looping s₁ := by
    have hstart' : step s₀ .start = some s₁ := hstart
    obtain ⟨u, hu, rfl⟩ := step_eq_some hstart'
    cases Option.some.inj hu
    exact (looping_start hempty).continues (quiet_reap _).toCalm.continues
  have hlooping : Looping s :=
    hafter.invariant (fun _ _ _ hs hguard hstep ↦ hs.step hguard hstep) hfirst
  exact ⟨by simp [hempty], hlooping.atMostOne, hlooping.one,
    fun _ _ _ hstop hrun ↦ acceptsIssued_after_stop hstop hrun⟩

/-- After a descriptor exhaustion and its timer the loop goes on. -/
theorem accept_loop_retried : ∃ s, system.run asioReports
    [.complete 0 ⟨.noDescriptors, 0⟩, .handle 0 (.fine peer), .complete 0 ⟨.success, 0⟩,
      .handle 0 (.fine peer)] constructed.start.reap = some s ∧
    s.acceptsIssued = 2 ∧ s.loop.length = 1 := by
  have hrun : ∃ s, system.run asioReports
      [.complete 0 ⟨.noDescriptors, 0⟩, .handle 0 (.fine peer), .complete 0 ⟨.success, 0⟩,
        .handle 0 (.fine peer)] constructed.start.reap = some s ∧
      s.acceptsIssued = 2 ∧ s.acceptorOpen = true := ⟨_, rfl, rfl, rfl⟩
  obtain ⟨s, hs, hissued, hopen⟩ := hrun
  have hloop := accept_loop (Reachable.initial rfl) rfl (leads_of_run hs)
  exact ⟨s, hs, hissued, hloop.2.2.1 hopen⟩

end Server

end DoipEndpoint
