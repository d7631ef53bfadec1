import DoipEndpoint.Asio.Basic
import DoipEndpoint.Runs
import DoipEndpoint.Span

/-!
# UDP sends

`send_data` of the UDP client and of the UDP server on one socket.  As in
`DoipEndpoint.TcpLent` an operation keeps the pointer that it was given, and the
bytes are read when the operating system takes the datagram; the destination of
an `async_send_to` is copied.  What `send_cbk` does about an error shows here
only as an action of its own, such as closing the socket.
-/

namespace DoipEndpoint

namespace UdpSend

open TransitionSystem

/-- An `async_send`, or an `async_send_to` to `destination`. -/
structure Operation where
  buffer : Span
  destination : Option Endpoint
  deriving DecidableEq, Repr

/-- A datagram on the network; `requested` is the destination that its
`send_data` named. -/
structure Datagram where
  requested : Option Endpoint
  receiver : Endpoint
  payload : List UInt8
  deriving DecidableEq, Repr

/-- One UDP socket with the sends in flight on it and the memory of the process.
`peer` is the endpoint that the socket is connected to, `completed` holds the
results that wait for their `send_cbk`, `callbacks` counts those that have run,
and `sent` is what was passed to `send_data`. -/
structure Outbound where
  memory : ℕ → UInt8
  isOpen : Bool
  peer : Option Endpoint
  pending : List Operation
  completed : List ErrorCode
  callbacks : ℕ
  network : List Datagram
  sent : List (Option Endpoint × List UInt8)

def opened (memory : ℕ → UInt8) : Outbound := ⟨memory, true, none, [], [], 0, [], []⟩

def close (s : Outbound) : Outbound :=
  { s with
    isOpen := false
    pending := []
    completed := s.completed ++ s.pending.map fun _ ↦ .operationAborted }

/-- An operation on a closed socket completes at once. -/
def asyncSend (o : Operation) (s : Outbound) : Outbound :=
  if s.isOpen then { s with pending := s.pending ++ [o] }
  else { s with completed := s.completed ++ [.badDescriptor] }

def Client.Udp.sendData (buffer : Span) (s : Outbound) : Outbound :=
  asyncSend ⟨buffer, none⟩ { s with sent := s.sent ++ [(none, buffer.read s.memory)] }

def Server.Udp.sendData (buffer : Span) (remote : Endpoint) (s : Outbound) : Outbound :=
  asyncSend ⟨buffer, some remote⟩
    { s with sent := s.sent ++ [(some remote, buffer.read s.memory)] }

/-! ## Runs -/

inductive Action where
  | clientSends (buffer : Span)
  | serverSends (buffer : Span) (remote : Endpoint)
  /-- The process overwrites one byte of its memory. -/
  | store (address : ℕ) (byte : UInt8)
  /-- The `async_connect` of the client completes. -/
  | connects (peer : Endpoint)
  /-- The operating system takes the datagram of the oldest operation. -/
  | transfer
  | fail (error : ErrorCode)
  /-- A `send_cbk` is run. -/
  | callback (i : ℕ)
  | close
  deriving DecidableEq, Repr

/-- Where the operating system sends the datagram of an operation. -/
def receiver (s : Outbound) (o : Operation) : Option Endpoint := o.destination <|> s.peer

/-- A step of a socket that takes datagrams of at most `largest` bytes. -/
def step (largest : ℕ) (s : Outbound) : Action → Option Outbound
  | .clientSends buffer => some (Client.Udp.sendData buffer s)
  | .serverSends buffer remote => some (Server.Udp.sendData buffer remote s)
  | .store address byte => some { s with memory := Function.update s.memory address byte }
  | .connects peer => if s.isOpen then some { s with peer := some peer } else none
  | .transfer =>
      match s.pending with
      | [] => none
      | o :: rest =>
          match receiver s o with
          | none => none
          | some e =>
              if o.buffer.size ≤ largest then
                some { s with
                  pending := rest
                  completed := s.completed ++ [.success]
                  network := s.network ++ [⟨o.destination, e, o.buffer.read s.memory⟩] }
              else none
  | .fail error =>
      match s.pending with
      | [] => none
      | _ :: rest =>
          if error = .success then none
          else some { s with pending := rest, completed := s.completed ++ [error] }
  | .callback i =>
      if i < s.completed.length then
        some { s with completed := s.completed.eraseIdx i, callbacks := s.callbacks + 1 }
      else none
  | .close => some (close s)

def system (largest : ℕ) : TransitionSystem Outbound Action where
  initial s := ∃ memory, s = opened memory
  step := step largest

/-- An operation whose datagram the socket takes. -/
def fits (largest : ℕ) (o : Operation) : Bool := o.buffer.size ≤ largest

/-- A byte of a datagram that is still to be taken. -/
def lent (largest : ℕ) (s : Outbound) (address : ℕ) : Bool :=
  s.pending.any fun o ↦ fits largest o && o.buffer.covers address

def keepsLent (largest : ℕ) (s : Outbound) : Action → Bool
  | .store address byte => !lent largest s address || s.memory address = byte
  | _ => true

/-- The process sends nothing more and overwrites nothing. -/
def callerWaits (_ : Outbound) : Action → Prop
  | .clientSends _ | .serverSends _ _ | .store _ _ => False
  | .connects _ | .transfer | .fail _ | .callback _ | .close => True

/-! ## Whole datagrams -/

def Datagram.asks (d : Datagram) : Option Endpoint × List UInt8 := (d.requested, d.payload)

def Operation.asks (memory : ℕ → UInt8) (o : Operation) : Option Endpoint × List UInt8 :=
  (o.destination, o.buffer.read memory)

/-- What is on the network and what can still get there, in the order of the
calls. -/
structure Whole (largest : ℕ) (s : Outbound) : Prop where
  order : (s.network.map Datagram.asks ++
    (s.pending.filter (fits largest)).map (Operation.asks s.memory)).Sublist s.sent
  receiver : ∀ d ∈ s.network, d.requested = none ∨ d.requested = some d.receiver
  once : s.callbacks + s.completed.length + s.pending.length = s.sent.length
  closed : s.isOpen = false → s.pending = []

variable {largest : ℕ} {s t : Outbound}

theorem asyncSend_cases (o : Operation) (s : Outbound) :
    (s.isOpen = true ∧ asyncSend o s = { s with pending := s.pending ++ [o] }) ∨
      asyncSend o s = { s with completed := s.completed ++ [.badDescriptor] } := by
  unfold asyncSend
  split_ifs with hopen
  · exact Or.inl ⟨hopen, rfl⟩
  · exact Or.inr rfl

theorem Whole.asyncSend (h : Whole largest s) (o : Operation) :
    Whole largest (asyncSend o { s with sent := s.sent ++ [o.asks s.memory] }) := by
  have honce := h.once
  rcases asyncSend_cases o { s with sent := s.sent ++ [o.asks s.memory] } with ⟨hopen, hs⟩ | hs <;>
    rw [hs]
  · refine ⟨?_, h.receiver, by simp only [List.length_append, List.length_singleton]; omega,
      fun hclosed ↦ absurd (hopen.symm.trans hclosed) (by decide)⟩
    simp only [List.filter_append, List.map_append, ← List.append_assoc]
    refine h.order.append ?_
    cases hfits : fits largest o <;> simp [hfits]
  · refine ⟨?_, h.receiver, by simp only [List.length_append, List.length_singleton]; omega,
      h.closed⟩
    exact h.order.trans (List.sublist_append_left _ _)

theorem Whole.close (h : Whole largest s) : Whole largest (close s) := by
  have honce := h.once
  refine ⟨?_, h.receiver, ?_, fun _ ↦ rfl⟩
  · simpa [UdpSend.close] using (List.sublist_append_left _ _).trans h.order
  · simp only [UdpSend.close, List.length_append, List.length_map, List.length_nil]
    omega

theorem Whole.store (h : Whole largest s) {address : ℕ} (hfree : lent largest s address = false)
    (byte : UInt8) : Whole largest { s with memory := Function.update s.memory address byte } := by
  refine ⟨?_, h.receiver, h.once, h.closed⟩
  have hsame : (s.pending.filter (fits largest)).map
      (Operation.asks (Function.update s.memory address byte)) =
        (s.pending.filter (fits largest)).map (Operation.asks s.memory) := by
    apply List.map_congr_left
    intro o ho
    obtain ⟨ho, hfits⟩ := List.mem_filter.mp ho
    have hcovers : o.buffer.covers address = false := by
      have hnone := List.any_eq_false.mp hfree o ho
      simpa [hfits] using hnone
    simp only [Operation.asks, Span.read_update_of_not_covers hcovers byte]
  simpa only [hsame] using h.order

theorem Whole.open_of_pending (h : Whole largest s) (hpending : s.pending ≠ []) :
    s.isOpen = true := by
  cases hopen : s.isOpen with
  | false => exact absurd (h.closed hopen) hpending
  | true => rfl

theorem Whole.transfer (h : Whole largest s) {o : Operation} {rest : List Operation} {e : Endpoint}
    (hpending : s.pending = o :: rest) (hreceiver : UdpSend.receiver s o = some e)
    (hfits : o.buffer.size ≤ largest) : Whole largest { s with
      pending := rest
      completed := s.completed ++ [.success]
      network := s.network ++ [⟨o.destination, e, o.buffer.read s.memory⟩] } := by
  have honce := h.once
  have horder := h.order
  have hopen := h.open_of_pending (by simp [hpending])
  rw [hpending] at honce horder
  refine ⟨?_, fun d hd ↦ ?_, ?_, fun hclosed ↦ absurd (hopen.symm.trans hclosed) (by decide)⟩
  · simpa [fits, hfits, Datagram.asks, Operation.asks] using horder
  · rcases List.mem_append.mp hd with hd | hd
    · exact h.receiver d hd
    · rw [List.mem_singleton.mp hd]
      cases hdest : o.destination with
      | none => exact Or.inl rfl
      | some r => exact Or.inr (by simpa [UdpSend.receiver, hdest] using hreceiver)
  · simp only [List.length_append, List.length_cons, List.length_nil] at honce ⊢
    omega

theorem Whole.fail (h : Whole largest s) {o : Operation} {rest : List Operation}
    (hpending : s.pending = o :: rest) (error : ErrorCode) :
    Whole largest { s with pending := rest, completed := s.completed ++ [error] } := by
  have honce := h.once
  have horder := h.order
  have hopen := h.open_of_pending (by simp [hpending])
  rw [hpending] at honce horder
  refine ⟨?_, h.receiver, ?_, fun hclosed ↦ absurd (hopen.symm.trans hclosed) (by decide)⟩
  · refine List.Sublist.trans ?_ horder
    have htail : (rest.filter (fits largest)).Sublist ((o :: rest).filter (fits largest)) :=
      (List.sublist_cons_self o rest).filter _
    exact (List.Sublist.refl _).append (htail.map _)
  · simp only [List.length_append, List.length_cons, List.length_nil] at honce ⊢
    omega

theorem whole_step {a : Action} (h : Whole largest s) (hguard : keepsLent largest s a = true)
    (hstep : step largest s a = some t) : Whole largest t := by
  cases a with
  | clientSends buffer =>
      cases Option.some.inj hstep
      exact h.asyncSend ⟨buffer, none⟩
  | serverSends buffer remote =>
      cases Option.some.inj hstep
      exact h.asyncSend ⟨buffer, some remote⟩
  | store address byte =>
      cases Option.some.inj hstep
      simp only [keepsLent, Bool.or_eq_true, Bool.not_eq_true', decide_eq_true_eq] at hguard
      rcases hguard with hfree | hsame
      · exact h.store hfree byte
      · rwa [← hsame, Function.update_eq_self]
  | connects peer =>
      simp only [step] at hstep
      split_ifs at hstep
      cases Option.some.inj hstep
      exact ⟨h.order, h.receiver, h.once, h.closed⟩
  | transfer =>
      simp only [step] at hstep
      cases hpending : s.pending with
      | nil => simp [hpending] at hstep
      | cons o rest =>
          simp only [hpending] at hstep
          cases hreceiver : receiver s o with
          | none => simp [hreceiver] at hstep
          | some e =>
              simp only [hreceiver] at hstep
              split_ifs at hstep with hfits
              cases Option.some.inj hstep
              exact h.transfer hpending hreceiver hfits
  | fail error =>
      simp only [step] at hstep
      cases hpending : s.pending with
      | nil => simp [hpending] at hstep
      | cons o rest =>
          simp only [hpending] at hstep
          split_ifs at hstep
          cases Option.some.inj hstep
          exact h.fail hpending error
  | callback i =>
      simp only [step] at hstep
      split_ifs at hstep with hi
      cases Option.some.inj hstep
      have honce := h.once
      refine ⟨h.order, h.receiver, ?_, h.closed⟩
      simp only [List.length_eraseIdx_of_lt hi]
      omega
  | close =>
      cases Option.some.inj hstep
      exact h.close

theorem whole_of_reachable
    (h : (system largest).Reachable (fun s a ↦ keepsLent largest s a = true) s) :
    Whole largest s := by
  apply h.invariant (I := Whole largest)
  · rintro s ⟨memory, rfl⟩
    exact ⟨by simp [opened], by simp [opened], rfl, fun _ ↦ rfl⟩
  · intro s a t hs hguard hstep
    exact whole_step hs hguard hstep

/-! ## Overwriting what is lent -/

/-- If every operation has a receiver, the operating system may take every
datagram that fits, as the memory is now. -/
theorem leads_flush (largest : ℕ) (s : Outbound)
    (hreceiver : ∀ o ∈ s.pending, (receiver s o).isSome = true) :
    ∃ u later, (system largest).Leads callerWaits s u ∧ u.sent = s.sent ∧
      u.network = s.network ++ later ∧
      ∀ o ∈ s.pending, fits largest o = true →
        ∃ d ∈ later, d.payload = o.buffer.read s.memory := by
  induction hpending : s.pending generalizing s with
  | nil => exact ⟨s, [], Leads.refl s, rfl, (List.append_nil s.network).symm, by simp⟩
  | cons o rest ih =>
      have hrest : ∀ a ∈ rest, (receiver s a).isSome = true := fun a ha ↦
        hreceiver a (hpending ▸ List.mem_cons_of_mem o ha)
      by_cases hfits : fits largest o = true
      · obtain ⟨e, he⟩ := Option.isSome_iff_exists.mp
          (hreceiver o (hpending ▸ List.mem_cons_self))
        have hstep : (system largest).step s .transfer = some { s with
            pending := rest
            completed := s.completed ++ [.success]
            network := s.network ++ [⟨o.destination, e, o.buffer.read s.memory⟩] } := by
          have hsize : o.buffer.size ≤ largest := by simpa [fits] using hfits
          simp only [system, step, hpending, he, if_pos hsize]
        obtain ⟨u, later, hu, hsent, hnetwork, htaken⟩ := ih { s with
          pending := rest
          completed := s.completed ++ [.success]
          network := s.network ++ [⟨o.destination, e, o.buffer.read s.memory⟩] } hrest rfl
        refine ⟨u, ⟨o.destination, e, o.buffer.read s.memory⟩ :: later,
          ((Leads.refl s).snoc trivial hstep).trans hu, hsent, ?_, fun a ha hafits ↦ ?_⟩
        · rw [hnetwork, List.append_assoc]
          rfl
        · rcases List.mem_cons.mp ha with rfl | ha
          · exact ⟨_, List.mem_cons_self, rfl⟩
          · obtain ⟨d, hd, hpayload⟩ := htaken a ha hafits
            exact ⟨d, List.mem_cons_of_mem _ hd, hpayload⟩
      · have hstep : (system largest).step s (.fail (.other 90)) = some { s with
            pending := rest, completed := s.completed ++ [.other 90] } := by
          simp [system, step, hpending]
        obtain ⟨u, later, hu, hsent, hnetwork, htaken⟩ := ih { s with
          pending := rest, completed := s.completed ++ [.other 90] } hrest rfl
        refine ⟨u, later, ((Leads.refl s).snoc trivial hstep).trans hu, hsent, hnetwork,
          fun a ha hafits ↦ ?_⟩
        rcases List.mem_cons.mp ha with rfl | ha
        · exact absurd hafits hfits
        · exact htaken a ha hafits

/-- A byte that is still to be taken may be sent, after the connect that an
`async_send` may still wait for, and no caller has to do anything for it. -/
theorem sends_lent (hopen : s.pending ≠ [] → s.isOpen = true) {address : ℕ}
    (hlent : lent largest s address = true) :
    ∃ u later, (system largest).Leads callerWaits s u ∧ u.sent = s.sent ∧
      u.network = s.network ++ later ∧ ∃ d ∈ later, s.memory address ∈ d.payload := by
  obtain ⟨o, ho, hboth⟩ := List.any_eq_true.mp hlent
  obtain ⟨hfits, hcovers⟩ := Bool.and_eq_true_iff.mp hboth
  have hread : s.memory address ∈ o.buffer.read s.memory := Span.mem_read hcovers
  by_cases hreceiver : ∀ o ∈ s.pending, (receiver s o).isSome = true
  · obtain ⟨u, later, hu, hsent, hnetwork, htaken⟩ := leads_flush largest s hreceiver
    obtain ⟨d, hd, hpayload⟩ := htaken o ho hfits
    exact ⟨u, later, hu, hsent, hnetwork, d, hd, hpayload ▸ hread⟩
  · let r : Outbound := { s with peer := some .unspecified }
    have hstep : (system largest).step s (.connects .unspecified) = some r := by
      simp only [system, step, hopen (List.ne_nil_of_mem ho), ↓reduceIte, r]
    have hconnected : ∀ a ∈ r.pending, (receiver r a).isSome = true := by
      intro a _
      cases hdest : a.destination <;> simp [receiver, hdest, r]
    obtain ⟨u, later, hu, hsent, hnetwork, htaken⟩ := leads_flush largest r hconnected
    obtain ⟨d, hd, hpayload⟩ := htaken o ho hfits
    exact ⟨u, later, ((Leads.refl s).snoc trivial hstep).trans hu, hsent, hnetwork, d, hd,
      hpayload ▸ hread⟩

end UdpSend

end DoipEndpoint
