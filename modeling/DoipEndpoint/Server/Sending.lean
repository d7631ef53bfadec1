import DoipEndpoint.Server.Stopped

/-!
# The sending flag of a server

`send_data` raises `is_sending_` for every write of every connection, and each
`send_cbk` lowers it.  The flag is right until a `send_cbk` is run while another
write is still outstanding.
-/

namespace DoipEndpoint

namespace Server

open TransitionSystem

/-- The flag is raised if and only if a write has not reached its `send_cbk`. -/
def SendingExact (s : Server) : Prop := s.isSending = true ↔ 0 < s.sends

/-- A `send_cbk` is run only for the last outstanding write. -/
def lastWrite (s : Server) : Action → Prop
  | .handle i _ => ∀ entry ∈ s.queued i, entry.1.isSend = true → s.sends = 1
  | _ => True

instance (s : Server) : (a : Action) → Decidable (lastWrite s a)
  | .handle i _ =>
      inferInstanceAs (Decidable (∀ entry ∈ s.queued i, entry.1.isSend = true → s.sends = 1))
  | .start | .stop | .sendData _ _ | .removeConnection _ | .stopAndRemoveConnection _
  | .peerSends _ _ | .complete _ _ => isTrue trivial

structure SameSends (s t : Server) : Prop where
  isSending : t.isSending = s.isSending
  sends : t.sends = s.sends

variable {s t u : Server} {a : Action}

theorem SameSends.refl (s : Server) : SameSends s s := ⟨rfl, rfl⟩

theorem SameSends.trans (h : SameSends s t) (h' : SameSends t u) : SameSends s u :=
  ⟨h'.isSending.trans h.isSending, h'.sends.trans h.sends⟩

theorem Calm.sameSends (h : Calm s t) : SameSends s t := ⟨h.isSending, h.sends⟩

theorem SameSends.exact_iff (h : SameSends s t) : SendingExact t ↔ SendingExact s := by
  rw [SendingExact, SendingExact, h.isSending, h.sends]

/-! ## Functions -/

theorem sameSends_issue {handler : Handler} (h : handler.isSend = false)
    (completion : Option Completion) (s : Server) : SameSends s (s.issue handler completion) :=
  ⟨rfl, by simp [sends, issue, h]⟩

theorem sameSends_start (s : Server) : SameSends s s.start := by
  unfold start
  split
  · have hkind : (Handler.acceptCbk s.created).isSend = false := rfl
    have hissue := sameSends_issue hkind none (s.update s.created .create)
    exact ⟨hissue.isSending, hissue.sends⟩
  · exact SameSends.refl s

theorem sameSends_stop (s : Server) : SameSends s s.stop := by
  have hclosed : SameSends s s.closeAcceptor := by
    unfold closeAcceptor
    split
    · exact ⟨rfl, countP_abort _ Handler.isSend s.operations⟩
    · exact SameSends.refl s
  have hstopped := hclosed.trans
    (quiet_foldl_stop s.closeAcceptor.connections.toList s.closeAcceptor).toCalm.sameSends
  exact ⟨hstopped.isSending, hstopped.sends⟩

theorem sameSends_acceptCbk (os : Os) (e : ErrorCode) (c : ℕ) (s : Server) :
    SameSends s (s.acceptCbk os e c) := by
  obtain ⟨v, hv, heq⟩ := acceptCbk_eq os e c s
  rw [heq]
  split_ifs
  · exact hv.sameSends.trans (sameSends_start v)
  · exact hv.sameSends.trans (sameSends_issue rfl none v)
  · exact hv.sameSends

/-! ## Steps -/

theorem sends_eraseIdx {i : ℕ} {handler : Handler} {r : Completion}
    (hq : s.queued i = some (handler, r)) :
    s.sends = sends { s with operations := s.operations.eraseIdx i } +
      if handler.isSend = true then 1 else 0 :=
  InFlight.countP_eraseIdx (queued_eq_some hq) fun o ↦ o.handler.isSend

theorem sameSends_eraseIdx {i : ℕ} {handler : Handler} {r : Completion}
    (hq : s.queued i = some (handler, r)) (hkind : handler.isSend = false) :
    SameSends s { s with operations := s.operations.eraseIdx i } := by
  have hsends := sends_eraseIdx hq
  rw [hkind] at hsends
  exact ⟨rfl, hsends.symm⟩

theorem sameSends_set {i : ℕ} {handler : Handler} (r : Completion)
    (ho : s.operations[i]? = some ⟨handler, none⟩) :
    SameSends s { s with operations := s.operations.set i ⟨handler, some r⟩ } :=
  ⟨rfl, InFlight.countP_set ho rfl⟩

theorem lastWrite_of_not_handle (ha : ∀ i os, a ≠ .handle i os) : lastWrite s a := by
  cases a with
  | handle i os => exact absurd rfl (ha i os)
  | start | stop | sendData | removeConnection | stopAndRemoveConnection | peerSends
  | complete => trivial

theorem lastWrite_of_queued {i : ℕ} {os : Os} {handler : Handler} {r : Completion}
    (hq : s.queued i = some (handler, r)) (hkind : handler.isSend = false) :
    lastWrite s (.handle i os) := by
  intro entry hentry hsend
  rw [hq] at hentry
  cases Option.some.inj hentry
  rw [hkind] at hsend
  exact absurd hsend (by simp)

theorem SendingExact.iff_of_same (h : SendingExact s) (hlast : lastWrite s a)
    (hsame : SameSends s t) : SendingExact t ↔ lastWrite s a :=
  iff_of_true (hsame.exact_iff.mpr h) hlast

/-- The lowered flag is right if and only if the write was the last one. -/
theorem exact_sendCbk {i : ℕ} {os : Os} {c : ℕ} {message : List UInt8} {r : Completion}
    (hq : s.queued i = some (.sendCbk c message, r))
    (hsame : SameSends { s with operations := s.operations.eraseIdx i } t) :
    SendingExact (t.sendCbk r.error) ↔ lastWrite s (.handle i os) := by
  have hsends := sends_eraseIdx hq
  rw [← hsame.sends] at hsends
  simp only [Handler.isSend, ↓reduceIte] at hsends
  have hlowered : SendingExact (t.sendCbk r.error) ↔ ¬0 < t.sends := by
    simp [SendingExact, sendCbk, sends]
  rw [hlowered]
  constructor
  · intro hzero _ _ _
    omega
  · intro hlast
    have hone := hlast _ hq rfl
    omega

theorem exact_perform (h : SendingExact s) (hstep : s.perform a = some t) :
    SendingExact t ↔ lastWrite s a := by
  cases performed_of_perform hstep with
  | started => exact h.iff_of_same trivial (sameSends_start s)
  | stopped => exact h.iff_of_same trivial (sameSends_stop s)
  | sending c message =>
      refine iff_of_true ?_ trivial
      simp [SendingExact, Connection.sendData, issue, sends, Handler.isSend]
  | quiet _ _ ha hquiet =>
      exact h.iff_of_same (lastWrite_of_not_handle ha) hquiet.toCalm.sameSends
  | completed i handler r _ ho hquiet =>
      exact h.iff_of_same trivial ((sameSends_set r ho).trans hquiet.toCalm.sameSends)
  | received i os c offset length r _ hq hquiet =>
      have herase := sameSends_eraseIdx hq rfl
      exact h.iff_of_same (lastWrite_of_queued hq rfl) (herase.trans hquiet.toCalm.sameSends)
  | accepting i os c r hq =>
      have herase := sameSends_eraseIdx hq rfl
      exact h.iff_of_same (lastWrite_of_queued hq rfl)
        (herase.trans (sameSends_acceptCbk os r.error c _))
  | retrying i os r hq =>
      have herase := sameSends_eraseIdx hq rfl
      refine h.iff_of_same (lastWrite_of_queued hq rfl) ?_
      unfold retry
      split_ifs
      · exact herase.trans (sameSends_start _)
      · exact herase
  | sent i os c message r _ hq hquiet => exact exact_sendCbk hq hquiet.toCalm.sameSends

theorem sendingExact_keptExactlyBy : system.KeptExactlyBy SendingExact lastWrite := by
  refine keptExactlyBy_of_step_iff ?_ fun s a t h hstep ↦ ?_
  · rintro s rfl
    simp [SendingExact, constructed, sends]
  · obtain ⟨u, hu, rfl⟩ := step_eq_some hstep
    rw [(quiet_reap u).toCalm.sameSends.exact_iff]
    exact exact_perform h hu

/-- The flag is exact for as long as each `send_cbk` is run for the last
outstanding write, and no longer. -/
theorem sending_exact (h : system.Reachable lastWrite s) :
    SendingExact s ∧ ∀ a t, system.step s a = some t → (SendingExact t ↔ lastWrite s a) :=
  ⟨sendingExact_keptExactlyBy.1 s h, fun a t hstep ↦ sendingExact_keptExactlyBy.2 s a t h hstep⟩

/-- One connection with two writes, the first of which has completed. -/
def twoWrites : List Action :=
  [.start, .complete 0 ⟨.success, 0⟩, .handle 0 (.fine peer), .sendData 0 [1], .sendData 0 [2],
    .complete 2 ⟨.success, 1⟩]

/-- With two writes outstanding the flag is raised. -/
theorem sending_exact_two : ∃ s, system.run lastWrite twoWrites constructed = some s ∧
    s.isSending = true := by
  have hrun : ∃ s, system.run lastWrite twoWrites constructed = some s ∧ s.sends = 2 :=
    ⟨_, rfl, rfl⟩
  obtain ⟨s, hs, hsends⟩ := hrun
  exact ⟨s, hs, (sending_exact (reachable_of_run rfl hs)).1.mpr (by omega)⟩

/-- The completion of the first of two writes lowers the flag. -/
theorem first_completion_lowers : ¬∀ s, system.Reachable anyStep s → SendingExact s := by
  intro h
  have hrun : ∃ s, system.run anyStep (twoWrites ++ [.handle 2 (.fine peer)]) constructed =
      some s ∧ s.isSending = false ∧ s.sends = 1 := ⟨_, rfl, rfl, rfl⟩
  obtain ⟨s, hs, hflag, hsends⟩ := hrun
  have hraised := (h s (reachable_of_run rfl hs)).mpr (by omega)
  rw [hflag] at hraised
  exact absurd hraised (by simp)

end Server

end DoipEndpoint
