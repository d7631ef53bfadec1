import DoipEndpoint.Server.Reading

/-!
# What most steps of a server leave alone

Closing sockets, receiving and removing connections neither stores nor accepts
nor starts a connection, and it leaves the accept loop, the writes in flight and
the flags of the endpoint as they are.
-/

namespace DoipEndpoint

namespace Server

/-- The operations of the accept loop. -/
def Handler.inLoop : Handler → Bool
  | .acceptCbk _ => true
  | .retry => true
  | _ => false

def Handler.isSend : Handler → Bool
  | .sendCbk _ _ => true
  | _ => false

/-- The outstanding accepts and retry timers. -/
def loop (s : Server) : List Operation := s.operations.filter fun o ↦ o.handler.inLoop

/-- The number of writes that have not reached their `send_cbk`. -/
def sends (s : Server) : ℕ := s.operations.countP fun o ↦ o.handler.isSend

/-- No connection is stored that was not stored before, and none is accepted or
started. -/
structure Records (s t : Server) : Prop where
  table : ∀ (key : Endpoint) (c : ℕ), t.connections[key]? = some c → s.connections[key]? = some c
  accepted : ∀ c, (t.connection c).accepted = (s.connection c).accepted
  attached : ∀ c, (t.connection c).history.attached = (s.connection c).history.attached

/-- The accept loop, the writes in flight and the flags are as they were. -/
structure Calm (s t : Server) : Prop where
  acceptorOpen : t.acceptorOpen = s.acceptorOpen
  isSending : t.isSending = s.isSending
  acceptsIssued : t.acceptsIssued = s.acceptsIssued
  loop : t.loop = s.loop
  sends : t.sends = s.sends

structure Quiet (s t : Server) : Prop extends Records s t, Calm s t

theorem Records.refl (s : Server) : Records s s := ⟨fun _ _ h ↦ h, fun _ ↦ rfl, fun _ ↦ rfl⟩

theorem Records.trans {s t u : Server} (h : Records s t) (h' : Records t u) : Records s u :=
  ⟨fun key c hkey ↦ h.table key c (h'.table key c hkey),
    fun c ↦ (h'.accepted c).trans (h.accepted c), fun c ↦ (h'.attached c).trans (h.attached c)⟩

theorem Calm.refl (s : Server) : Calm s s := ⟨rfl, rfl, rfl, rfl, rfl⟩

theorem Calm.trans {s t u : Server} (h : Calm s t) (h' : Calm t u) : Calm s u :=
  ⟨h'.acceptorOpen.trans h.acceptorOpen, h'.isSending.trans h.isSending,
    h'.acceptsIssued.trans h.acceptsIssued, h'.loop.trans h.loop, h'.sends.trans h.sends⟩

theorem Quiet.refl (s : Server) : Quiet s s := ⟨Records.refl s, Calm.refl s⟩

theorem Quiet.trans {s t u : Server} (h : Quiet s t) (h' : Quiet t u) : Quiet s u :=
  ⟨h.toRecords.trans h'.toRecords, h.toCalm.trans h'.toCalm⟩

/-! ## Functions -/

theorem records_update (s : Server) (c : ℕ) {k : Connection}
    (haccepted : k.accepted = (s.connection c).accepted)
    (hattached : k.history.attached = (s.connection c).history.attached) :
    Records s (s.update c k) := by
  refine ⟨fun _ _ h ↦ h, fun c' ↦ ?_, fun c' ↦ ?_⟩
  · by_cases hc : c' = c
    · simp [hc, haccepted]
    · simp [hc]
  · by_cases hc : c' = c
    · simp [hc, hattached]
    · simp [hc]

theorem quiet_update (s : Server) (c : ℕ) {k : Connection}
    (haccepted : k.accepted = (s.connection c).accepted)
    (hattached : k.history.attached = (s.connection c).history.attached) :
    Quiet s (s.update c k) :=
  ⟨records_update s c haccepted hattached, rfl, rfl, rfl, rfl, rfl⟩

theorem filter_abort {affected q : Handler → Bool}
    (h : ∀ handler, q handler = true → affected handler = false) (ops : List Operation) :
    ((ops.map (Operation.abort affected)).filter fun o ↦ q o.handler) =
      ops.filter fun o ↦ q o.handler := by
  induction ops with
  | nil => rfl
  | cons o ops ih =>
      simp only [List.map_cons, List.filter_cons, Operation.abort_handler, ih]
      by_cases hq : q o.handler = true
      · rw [if_pos hq, if_pos hq, Operation.abort_of_not (h o.handler hq)]
      · rw [if_neg hq, if_neg hq]

theorem countP_abort (affected q : Handler → Bool) (ops : List Operation) :
    ((ops.map (Operation.abort affected)).countP fun o ↦ q o.handler) =
      ops.countP fun o ↦ q o.handler := by
  rw [List.countP_map]
  simp [Function.comp_def]

theorem socket_of_inLoop {handler : Handler} (h : handler.inLoop = true) (c : ℕ) :
    (decide (handler.socket = some c)) = false := by
  cases handler <;> simp_all [Handler.inLoop, Handler.socket]

theorem quiet_closeSocket (c : ℕ) (s : Server) : Quiet s (s.closeSocket c) := by
  unfold closeSocket
  split
  · have hupdate := records_update s c (k := { s.connection c with
      isOpen := false, incoming := [] }) rfl rfl
    refine ⟨⟨hupdate.table, hupdate.accepted, hupdate.attached⟩, rfl, rfl, rfl, ?_, ?_⟩
    · exact filter_abort (q := Handler.inLoop) (fun _ hq ↦ socket_of_inLoop hq c) s.operations
    · exact countP_abort _ Handler.isSend s.operations
  · exact Quiet.refl s

theorem quiet_removeConnection (c : ℕ) (s : Server) : Quiet s (s.removeConnection c) := by
  rw [removeConnection_eq]
  exact ⟨⟨fun _ _ hkey ↦ OneKey.getElem?_of_eraseFirst hkey, fun _ ↦ rfl, fun _ ↦ rfl⟩,
    rfl, rfl, rfl, rfl, rfl⟩

theorem quiet_stopAndRemoveConnection (c : ℕ) (s : Server) :
    Quiet s (Connection.stopAndRemoveConnection c s) :=
  (quiet_closeSocket c s).trans (quiet_removeConnection c _)

theorem quiet_issue {handler : Handler} (hloop : handler.inLoop = false)
    (hsend : handler.isSend = false) (completion : Option Completion) (s : Server) :
    Quiet s (s.issue handler completion) := by
  refine ⟨⟨fun _ _ h ↦ h, fun _ ↦ rfl, fun _ ↦ rfl⟩, rfl, rfl, rfl, ?_, ?_⟩
  · simp [loop, issue, List.filter_append, hloop]
  · simp [sends, issue, hsend]

theorem quiet_receive (grows : Bool) (c : ℕ) (s : Server) :
    Quiet s (Connection.receive grows c s) := by
  simp only [Connection.receive]
  split_ifs
  · split
    · exact Quiet.refl s
    · have hclear := quiet_update s c (k := { s.connection c with
        recvBuffer := (s.connection c).recvBuffer.clear }) rfl rfl
      exact hclear.trans ((quiet_closeSocket c _).trans (quiet_removeConnection c _))
    · rename_i buffer length shrinkCount _
      have hbuffer := quiet_update s c (k := { s.connection c with
        recvBuffer := buffer, missingCapacity := 0, shrinkCount := shrinkCount }) rfl rfl
      exact hbuffer.trans (quiet_issue rfl rfl none _)
  · exact Quiet.refl s

/-- Accepting a connection does not concern the accept loop either. -/
theorem calm_accepted (os : Os) (c : ℕ) (s : Server) : Calm s (s.accepted os c) := by
  obtain ⟨remote, answers, heq | ⟨_, _, heq⟩⟩ := accepted_cases os c s <;> rw [heq]
  · exact ⟨rfl, rfl, rfl, rfl, rfl⟩
  · have hreceive : ∀ v : Server, Calm s v → Calm s (Connection.receive os.grows c v) :=
      fun v hv ↦ hv.trans (quiet_receive os.grows c v).toCalm
    exact hreceive _ ⟨rfl, rfl, rfl, rfl, rfl⟩

/-- `accept_cbk` first deals with the accepted connection. -/
theorem acceptCbk_eq (os : Os) (e : ErrorCode) (c : ℕ) (s : Server) : ∃ v, Calm s v ∧
    s.acceptCbk os e c =
      if e ≠ .badDescriptor ∧ e ≠ .operationAborted ∧ e ≠ .noDescriptors then v.start
      else if e = .noDescriptors then v.issue .retry none
      else v := by
  by_cases he : e = .success
  · exact ⟨s.accepted os c, calm_accepted os c s, by simp only [acceptCbk, if_pos he]⟩
  · exact ⟨s, Calm.refl s, by simp only [acceptCbk, if_neg he]⟩

theorem quiet_record (handler : Handler) (r : Completion) (s : Server) :
    Quiet s (record handler r s) := by
  unfold record
  split
  · split
    · exact quiet_update s _ rfl rfl
    · exact Quiet.refl s
  · exact Quiet.refl s

theorem quiet_foldl_stop (entries : List (Endpoint × ℕ)) (s : Server) :
    Quiet s (entries.foldl (fun s entry ↦ Connection.stop entry.2 s) s) := by
  induction entries generalizing s with
  | nil => exact Quiet.refl s
  | cons entry rest ih => exact (quiet_closeSocket entry.2 s).trans (ih _)

theorem quiet_reap (s : Server) : Quiet s s.reap := by
  refine ⟨⟨fun _ _ h ↦ h, fun c ↦ ?_, fun c ↦ ?_⟩, rfl, rfl, rfl, rfl, rfl⟩
  · simp only [reap]
    split_ifs <;> rfl
  · simp only [reap]
    split_ifs <;> rfl

theorem quiet_receiveCbk (removes : Bool) (e : ErrorCode) (c : ℕ) (s : Server) :
    Quiet s (Connection.receiveCbk removes e c s) := by
  unfold Connection.receiveCbk
  split_ifs
  · exact Quiet.refl s
  · exact quiet_stopAndRemoveConnection c s
  · exact Quiet.refl s
  · exact Quiet.refl s

theorem quiet_writeCompletionCondition (e : ErrorCode) (c : ℕ) (s : Server) :
    Quiet s (Connection.writeCompletionCondition e c s) := by
  unfold Connection.writeCompletionCondition
  split_ifs
  · exact quiet_stopAndRemoveConnection c s
  · exact Quiet.refl s

/-- A completion changes a connection at most. -/
theorem quiet_finish {handler : Handler} {r : Completion} {s t : Server}
    (h : finish handler r s = some t) : Quiet s t := by
  cases handler with
  | acceptCbk c =>
      simp only [finish] at h
      split_ifs at h <;> cases Option.some.inj h
      · exact quiet_update s c rfl rfl
      · exact Quiet.refl s
  | receiveCbk c offset length =>
      simp only [finish] at h
      split_ifs at h <;> cases Option.some.inj h
      · exact quiet_update s c rfl rfl
      · exact quiet_update s c rfl rfl
  | sendCbk c message =>
      simp only [finish] at h
      split_ifs at h
      cases Option.some.inj h
      exact Quiet.refl s
  | retry =>
      cases Option.some.inj h
      exact Quiet.refl s

theorem quiet_peerSends {c : ℕ} {bytes : List UInt8} {s t : Server}
    (h : s.peerSends c bytes = some t) : Quiet s t := by
  simp only [peerSends] at h
  split_ifs at h
  cases Option.some.inj h
  exact quiet_update s c rfl rfl

/-! ## Steps -/

/-- What a step does before dead connections are destroyed: `start`, `stop`,
`send_data`, and the handlers of the loop and of a write are the functions
themselves, and all the rest is quiet. -/
inductive Performed (s : Server) : Action → Server → Prop
  | started : Performed s .start s.start
  | stopped : Performed s .stop s.stop
  | sending (c : ℕ) (message : List UInt8) :
      Performed s (.sendData c message) (Connection.sendData c message s)
  | quiet (a : Action) (t : Server) (ha : ∀ i os, a ≠ .handle i os) (h : Quiet s t) :
      Performed s a t
  | completed (i : ℕ) (handler : Handler) (r : Completion) (t : Server)
      (ho : s.operations[i]? = some ⟨handler, none⟩)
      (h : Quiet { s with operations := s.operations.set i ⟨handler, some r⟩ } t) :
      Performed s (.complete i r) t
  | accepting (i : ℕ) (os : Os) (c : ℕ) (r : Completion)
      (hq : s.queued i = some (.acceptCbk c, r)) :
      Performed s (.handle i os)
        (acceptCbk os r.error c { s with operations := s.operations.eraseIdx i })
  | retrying (i : ℕ) (os : Os) (r : Completion) (hq : s.queued i = some (.retry, r)) :
      Performed s (.handle i os) (retry r.error { s with operations := s.operations.eraseIdx i })
  | received (i : ℕ) (os : Os) (c offset length : ℕ) (r : Completion) (t : Server)
      (hq : s.queued i = some (.receiveCbk c offset length, r))
      (h : Quiet { s with operations := s.operations.eraseIdx i } t) :
      Performed s (.handle i os) t
  | sent (i : ℕ) (os : Os) (c : ℕ) (message : List UInt8) (r : Completion) (t : Server)
      (hq : s.queued i = some (.sendCbk c message, r))
      (h : Quiet { s with operations := s.operations.eraseIdx i } t) :
      Performed s (.handle i os) (t.sendCbk r.error)

theorem performed_of_perform {s t : Server} {a : Action} (h : s.perform a = some t) :
    Performed s a t := by
  cases a with
  | start =>
      cases Option.some.inj h
      exact .started
  | stop =>
      cases Option.some.inj h
      exact .stopped
  | sendData c message =>
      simp only [perform] at h
      split_ifs at h
      cases Option.some.inj h
      exact .sending c message
  | removeConnection c =>
      cases Option.some.inj h
      exact .quiet _ _ (by simp) (quiet_removeConnection c s)
  | stopAndRemoveConnection c =>
      cases Option.some.inj h
      exact .quiet _ _ (by simp) (quiet_stopAndRemoveConnection c s)
  | peerSends c bytes => exact .quiet _ _ (by simp) (quiet_peerSends h)
  | complete i r =>
      obtain ⟨handler, ho, hf⟩ := complete_eq_some h
      exact .completed i handler r t ho (quiet_finish hf)
  | handle i os =>
      obtain ⟨handler, r, hq, rfl⟩ := handle_eq_some h
      cases handler with
      | acceptCbk c => exact .accepting i os c r hq
      | retry => exact .retrying i os r hq
      | receiveCbk c offset length =>
          exact .received i os c offset length r _ hq
            ((quiet_record _ r _).trans (quiet_receiveCbk os.removes r.error c _))
      | sendCbk c message =>
          exact .sent i os c message r _ hq (quiet_writeCompletionCondition r.error c _)

end Server

end DoipEndpoint
