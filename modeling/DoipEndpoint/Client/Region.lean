import DoipEndpoint.Client.Current
import DoipEndpoint.Region

/-!
# The receive regions of a TCP client

A growth that throws empties `recv_buffer_` and leaves its capacity, and closes the
socket.  Unlike a server connection the client opens its socket again and goes on with
the same buffer, whose capacity is then out of proportion to its size.
-/

namespace DoipEndpoint

namespace Client

open TransitionSystem MessageBuffer

/-- A call of the three-argument `receive` by itself, or any other step of the client,
among them those that close the socket and those that connect it again. -/
inductive RegionAction where
  | receive (grows : Bool) (recvBufferSize missingCapacity shrinkCount : ℕ)
  | client (a : Action)
  deriving DecidableEq, Repr

/-- `_recv_buffer_size` of the receive that the step may arm. -/
def RegionAction.recvBufferSize : RegionAction → ℕ
  | .receive _ recvBufferSize _ _ => recvBufferSize
  | .client _ => 0

def regionStep (s : Client) : RegionAction → Option Client
  | .receive grows recvBufferSize missingCapacity shrinkCount =>
      if recvBufferSize ≤ s.recvBuffer.size ∧ missingCapacity < 2 ^ 32 then
        some (Tcp.receiveInto grows recvBufferSize missingCapacity
          { s with shrinkCount := shrinkCount })
      else none
  | .client a => step .tcp s a

def regionSystem (local' remote : Endpoint) : TransitionSystem Client RegionAction where
  initial := (system .tcp local' remote).initial
  step := regionStep

/-- The step from `s` to `t` has handed the region to `async_receive`. -/
def Hands (s t : Client) (r : Region) : Prop :=
  t.receivesIssued = s.receivesIssued + 1 ∧ ∃ earlier o, t.operations = earlier ++ [o] ∧
    o.handler = .receiveCbk r.offset r.length

/-- `receive` on an open socket finds the buffer emptied, and neither grows nor shrinks
it. -/
def ReusesEmptied (recvBufferSize missingCapacity shrinkCount : ℕ) (s : Client) : Prop :=
  s.socket.isOpen = true ∧ s.recvBuffer.size = 0 ∧
    ¬Lacks recvBufferSize missingCapacity s.recvBuffer ∧
    ¬Shrinks bufferShrinkThreshold shrinkCount recvBufferSize missingCapacity

instance (recvBufferSize missingCapacity shrinkCount : ℕ) (s : Client) :
    Decidable (ReusesEmptied recvBufferSize missingCapacity shrinkCount s) :=
  inferInstanceAs (Decidable (_ ∧ _))

/-- No receive is armed that reuses an emptied buffer. -/
def noReuse (s : Client) : RegionAction → Prop
  | .receive _ recvBufferSize missingCapacity shrinkCount =>
      ¬ReusesEmptied recvBufferSize missingCapacity shrinkCount s
  | .client (.handle i _) => ∀ entry ∈ s.queued i, armsReceive .tcp s entry.1 entry.2 = true →
      ¬ReusesEmptied 0 0 s.shrinkCount s
  | .client _ => True

instance (s : Client) : (a : RegionAction) → Decidable (noReuse s a)
  | .receive _ _ _ _ => inferInstanceAs (Decidable (¬_))
  | .client (.handle i _) =>
      inferInstanceAs (Decidable (∀ entry ∈ s.queued i, _ → _))
  | .client (.start _) | .client .stop | .client (.setConnected _) | .client (.setEstablished _)
  | .client (.sendData _) | .client (.sendCbk3 _) | .client (.peerSends _)
  | .client (.datagram _ _) | .client (.complete _ _) => isTrue trivial

/-- The capacity of the buffer is in use, or the buffer has been emptied. -/
def Sized (s : Client) : Prop :=
  (s.recvBuffer.Full ∧ recvBufferSizeInitial ≤ s.recvBuffer.size) ∨
    (s.recvBuffer.size = 0 ∧ recvBufferSizeInitial ≤ s.recvBuffer.capacity)

/-- Nothing that bears on the next region has changed but the elements. -/
structure SameBuffer (s t : Client) : Prop where
  size : t.recvBuffer.size = s.recvBuffer.size
  capacity : t.recvBuffer.capacity = s.recvBuffer.capacity
  shrinkCount : t.shrinkCount = s.shrinkCount
  receivesIssued : t.receivesIssued = s.receivesIssued

variable {s t u : Client} {grows : Bool} {recvBufferSize missingCapacity : ℕ}

theorem SameBuffer.refl (s : Client) : SameBuffer s s := ⟨rfl, rfl, rfl, rfl⟩

theorem SameBuffer.trans (h : SameBuffer s t) (h' : SameBuffer t u) : SameBuffer s u :=
  ⟨h'.size.trans h.size, h'.capacity.trans h.capacity, h'.shrinkCount.trans h.shrinkCount,
    h'.receivesIssued.trans h.receivesIssued⟩

theorem SameMembers.sameBuffer (h : SameMembers s t) : SameBuffer s t :=
  ⟨congrArg MessageBuffer.size h.recvBuffer, congrArg MessageBuffer.capacity h.recvBuffer,
    h.shrinkCount, h.receivesIssued⟩

theorem SameBuffer.sized (h : SameBuffer s t) (hs : Sized s) : Sized t := by
  rw [Sized, Full, h.size, h.capacity]
  exact hs

theorem SameBuffer.no_region (h : SameBuffer s t) (r : Region) : ¬Hands s t r := by
  rintro ⟨hissued, _⟩
  rw [h.receivesIssued] at hissued
  omega

theorem SameBuffer.hands_iff (h : SameBuffer s t) (r : Region) : Hands s u r ↔ Hands t u r := by
  rw [Hands, Hands, h.receivesIssued]

/-! ## One call of `receive` -/

/-- The regions that the step hands out start where they should, inside the buffer. -/
def Within (recvBufferSize : ℕ) (s t : Client) : Prop :=
  ∀ r, Hands s t r → r.offset = recvBufferSize ∧ r.offset + r.length ≤ t.recvBuffer.size

theorem hands_asyncReceive_iff (offset length : ℕ) (s : Client) (r : Region) :
    Hands s (asyncReceive offset length s) r ↔ r = ⟨offset, length⟩ := by
  constructor
  · rintro ⟨_, earlier, o, hops, hhandler⟩
    have hlast := (List.append_inj' hops rfl).2
    cases hlast
    obtain ⟨hoffset, hlength⟩ := Handler.receiveCbk.inj hhandler
    cases r
    simp_all
  · rintro rfl
    exact ⟨rfl, _, _, rfl, rfl⟩

theorem handleRecvBufferException_eq (s : Client) : ∃ k ops, handleRecvBufferException s =
    { s with recvBuffer := s.recvBuffer.clear, socket := k, operations := ops } := by
  obtain ⟨k, ops, h, _, _⟩ := closeSocket_eq { s with recvBuffer := s.recvBuffer.clear }
  exact ⟨k, ops, h⟩

theorem Sized.capacity (h : Sized s) : recvBufferSizeInitial ≤ s.recvBuffer.capacity := by
  rcases h with ⟨hfull, hinitial⟩ | ⟨_, hcapacity⟩
  · exact hinitial.trans_eq hfull
  · exact hcapacity

theorem within_asyncReceive_iff (offset length : ℕ) (h : t.receivesIssued = s.receivesIssued) :
    Within offset s (asyncReceive offset length t) ↔ offset + length ≤ t.recvBuffer.size := by
  have hands : ∀ r, Hands s (asyncReceive offset length t) r ↔ r = ⟨offset, length⟩ := by
    intro r
    rw [← hands_asyncReceive_iff offset length t r, Hands, Hands, h]
  constructor
  · intro hin
    exact (hin _ ((hands _).mpr rfl)).2
  · intro hle r hr
    obtain rfl := (hands r).mp hr
    exact ⟨rfl, hle⟩

/-- The region of one call is inside the buffer unless the call reuses an emptied one. -/
theorem Sized.region_iff (h : Sized s) (hopen : s.socket.isOpen = true)
    (hsize : recvBufferSize ≤ s.recvBuffer.size) {buffer : MessageBuffer} {length count : ℕ}
    (hprepares : Prepares recvBufferSizeInitial bufferShrinkThreshold s.shrinkCount grows
      recvBufferSize missingCapacity s.recvBuffer (.region buffer length count)) :
    (recvBufferSize + length ≤ buffer.size ↔
      ¬ReusesEmptied recvBufferSize missingCapacity s.shrinkCount s) ∧
    (recvBufferSize + length ≤ buffer.size →
      buffer.Full ∧ recvBufferSizeInitial ≤ buffer.size) := by
  have hcapacity := h.capacity
  have hpos : 0 < recvBufferSizeInitial := by decide
  rcases h with ⟨hfull, hinitial⟩ | ⟨hempty, _⟩
  · obtain ⟨hfull', hinitial', hregion, _, _⟩ := hprepares.region_within hfull hinitial hsize
    refine ⟨⟨fun _ hreuses ↦ ?_, fun _ ↦ hregion⟩, fun _ ↦ ⟨hfull', hinitial'⟩⟩
    have hnone := hreuses.2.1
    omega
  · obtain ⟨hiff, hsized⟩ := hprepares.empty_region hempty (by omega) (by omega)
    refine ⟨?_, fun hin ↦ hsized hin hcapacity⟩
    rw [hiff, ReusesEmptied]
    simp only [hopen, hempty, true_and, ← not_or, not_not]

theorem receiveInto_within (h : Sized s) (hsize : recvBufferSize ≤ s.recvBuffer.size)
    (hmissing : missingCapacity < 2 ^ 32) :
    (Within recvBufferSize s (Tcp.receiveInto grows recvBufferSize missingCapacity s) ↔
      ¬ReusesEmptied recvBufferSize missingCapacity s.shrinkCount s) ∧
    (¬ReusesEmptied recvBufferSize missingCapacity s.shrinkCount s →
      Sized (Tcp.receiveInto grows recvBufferSize missingCapacity s)) := by
  by_cases hopen : s.socket.isOpen = true
  · have hprepares := prepares recvBufferSizeInitial bufferShrinkThreshold s.shrinkCount grows
      recvBufferSize missingCapacity s.recvBuffer
    simp only [Tcp.receiveInto, if_pos hopen]
    generalize s.recvBuffer.prepare recvBufferSizeInitial bufferShrinkThreshold s.shrinkCount
      grows recvBufferSize missingCapacity = p at hprepares ⊢
    cases p with
    | exceedsMaximum =>
        cases hprepares with
        | exceeds hexceeds =>
            unfold messageSizeUnlimited at hexceeds
            omega
    | threw =>
        cases hprepares with
        | threw hlacks _ =>
            obtain ⟨k, ops, heq⟩ := handleRecvBufferException_eq s
            have hnot : ¬ReusesEmptied recvBufferSize missingCapacity s.shrinkCount s :=
              fun hreuses ↦ hreuses.2.2.1 hlacks
            simp only [heq]
            refine ⟨⟨fun _ ↦ hnot, fun _ r hr ↦ ?_⟩, fun _ ↦ Or.inr ⟨rfl, h.capacity⟩⟩
            have hissued : s.receivesIssued = s.receivesIssued + 1 := hr.1
            omega
    | region buffer length count =>
        obtain ⟨hiff, hsized⟩ := h.region_iff hopen hsize hprepares
        have hwithin := within_asyncReceive_iff (s := s) (t := { s with
          recvBuffer := buffer, shrinkCount := count }) recvBufferSize length rfl
        exact ⟨hwithin.trans hiff, fun hnot ↦ Or.inl (hsized (hiff.mpr hnot))⟩
  · have hclosed : Tcp.receiveInto grows recvBufferSize missingCapacity s = s := if_neg hopen
    have hnot : ¬ReusesEmptied recvBufferSize missingCapacity s.shrinkCount s :=
      fun hreuses ↦ hopen hreuses.1
    rw [hclosed]
    exact ⟨⟨fun _ ↦ hnot, fun _ r hr ↦ absurd hr ((SameBuffer.refl s).no_region r)⟩, fun _ ↦ h⟩

/-! ## The other steps -/

theorem sameBuffer_sendCbk3 (e : ErrorCode) (s : Client) : SameBuffer s (Tcp.sendCbk3 e s) := by
  obtain ⟨state, b, h | h⟩ := sendCbk3_cases e s
  · rw [h]
    exact ⟨rfl, rfl, rfl, rfl⟩
  · rw [h]
    apply SameBuffer.trans _ (sameMembers_shutdownAndCloseSocket _).sameBuffer
    exact ⟨rfl, rfl, rfl, rfl⟩

theorem sameBuffer_complete {i : ℕ} {c : Completion} (h : s.complete .tcp i c = some t) :
    SameBuffer s t := by
  obtain ⟨o, _, _, _, _, hf⟩ := complete_eq_some h
  cases hh : o.handler with
  | connectCbk target =>
      rcases finish_connect hh hf with ⟨_, rfl⟩ | ⟨_, rfl⟩ <;> exact ⟨rfl, rfl, rfl, rfl⟩
  | sendCbk message =>
      rw [finish_send hh hf]
      exact ⟨rfl, rfl, rfl, rfl⟩
  | receiveCbk offset length =>
      rcases finish_receive_tcp hh hf with ⟨_, _, _, _, rfl⟩ | ⟨_, rfl⟩
      · exact ⟨size_store _ _ _, capacity_store _ _ _, rfl, rfl⟩
      · exact ⟨rfl, rfl, rfl, rfl⟩

/-- A handler leaves the buffer alone, or it is a `connect_cbk` that calls `receive`. -/
theorem dispatch_buffer (os : Os) (o : Operation) (c : Completion) (s : Client) :
    (armsReceive .tcp s o c = false ∧ SameBuffer s (dispatch .tcp os o c s)) ∨
      (armsReceive .tcp s o c = true ∧ ∃ u, SameBuffer s u ∧ u.socket = s.socket ∧
        dispatch .tcp os o c s = Tcp.receive os.grows u) := by
  unfold dispatch
  cases hh : o.handler with
  | connectCbk target =>
      by_cases he : c.error = .operationAborted ∨ s.sendingBlocked = true
      · refine Or.inl ⟨?_, ?_⟩
        · rcases he with he | he <;> simp [armsReceive, hh, he]
        · simp only [connectCbk, if_pos he]
          exact (sameMembers_shutdownAndCloseSocket s).sameBuffer
      · obtain ⟨port, hc⟩ := connectCbk_of_not_aborted .tcp os he
        obtain ⟨haborted, hblocked⟩ := not_or.mp he
        simp only [hc]
        by_cases hopen : s.socket.isOpen = true
        · exact Or.inr ⟨by simp [armsReceive, hh, hopen, haborted, hblocked],
            { s with localPort := port, wasNotConnected := false }, ⟨rfl, rfl, rfl, rfl⟩, rfl, rfl⟩
        · refine Or.inl ⟨by simp [armsReceive, hopen], ?_⟩
          have hclosed := receive_of_closed .tcp os.grows (s := { s with
            localPort := port, wasNotConnected := false }) (by simpa using hopen)
          rw [hclosed]
          exact ⟨rfl, rfl, rfl, rfl⟩
  | sendCbk message =>
      exact Or.inl ⟨by simp [armsReceive, hh], (sameMembers_sendCbk .tcp os c.error s).sameBuffer⟩
  | receiveCbk offset length =>
      exact Or.inl ⟨by simp [armsReceive, hh], SameBuffer.refl s⟩

def armsBy (s : Client) (a : Action) : Prop :=
  ∃ i os o c, a = .handle i os ∧ s.queued i = some (o, c) ∧ armsReceive .tcp s o c = true

/-- A step of the client leaves the buffer alone, or it calls `receive` once. -/
theorem step_buffer {a : Action} (h : step .tcp s a = some t) :
    (¬armsBy s a ∧ SameBuffer s t) ∨
      (armsBy s a ∧ ∃ u grows, SameBuffer s u ∧ u.socket.isOpen = true ∧
        t = Tcp.receive grows u) := by
  have hquiet : (∀ i os, a ≠ .handle i os) → ¬armsBy s a := by
    rintro hne ⟨i, os, _, _, ha, _⟩
    exact hne i os ha
  cases a with
  | start os =>
      cases Option.some.inj h
      exact Or.inl ⟨hquiet (by simp), (sameMembers_connectSocket os s).sameBuffer⟩
  | stop =>
      cases Option.some.inj h
      exact Or.inl ⟨hquiet (by simp), (sameMembers_shutdownAndCloseSocket s).sameBuffer⟩
  | setConnected b =>
      cases Option.some.inj h
      obtain ⟨state, hflag, _⟩ := setConnected_cases b s
      rw [hflag]
      exact Or.inl ⟨hquiet (by simp), rfl, rfl, rfl, rfl⟩
  | setEstablished b =>
      cases Option.some.inj h
      obtain ⟨state, hflag, _⟩ := setEstablished_cases b s
      rw [hflag]
      exact Or.inl ⟨hquiet (by simp), rfl, rfl, rfl, rfl⟩
  | sendData message =>
      cases Option.some.inj h
      refine Or.inl ⟨hquiet (by simp), ?_⟩
      rcases sendData_cases .tcp message s with hs | ⟨completion, isSending, hs, _⟩ <;> rw [hs]
      · exact SameBuffer.refl s
      · exact ⟨rfl, rfl, rfl, rfl⟩
  | sendCbk3 e =>
      rw [step_sendCbk3 h]
      exact Or.inl ⟨hquiet (by simp), sameBuffer_sendCbk3 e s⟩
  | peerSends bytes =>
      obtain ⟨_, rfl⟩ := step_peerSends h
      exact Or.inl ⟨hquiet (by simp), rfl, rfl, rfl, rfl⟩
  | datagram sender payload =>
      obtain ⟨_, _, rfl⟩ := step_datagram h
      exact Or.inl ⟨hquiet (by simp), rfl, rfl, rfl, rfl⟩
  | complete i c => exact Or.inl ⟨hquiet (by simp), sameBuffer_complete h⟩
  | handle i os =>
      obtain ⟨o, c, history, hq, rfl⟩ := handle_eq_some h
      rcases dispatch_buffer os o c { s with
        operations := s.operations.eraseIdx i
        socket := { s.socket with history := history } } with
        ⟨harm, hsame⟩ | ⟨harm, u, hsame, hsocket, heq⟩
      · refine Or.inl ⟨?_, hsame.size, hsame.capacity, hsame.shrinkCount, hsame.receivesIssued⟩
        rintro ⟨i', os', o', c', ha, hq', harm'⟩
        cases ha
        rw [hq] at hq'
        obtain ⟨rfl, rfl⟩ := Prod.mk.inj (Option.some.inj hq')
        have hnone : armsReceive .tcp s o c = false := harm
        rw [harm'] at hnone
        exact absurd hnone (by simp)
      · have hopen : s.socket.isOpen = true := (Bool.and_eq_true_iff.mp harm).1
        refine Or.inr ⟨⟨i, os, o, c, rfl, hq, harm⟩, u, os.grows,
          ⟨hsame.size, hsame.capacity, hsame.shrinkCount, hsame.receivesIssued⟩, ?_, heq⟩
        rw [hsocket]
        exact hopen

/-! ## Runs -/

theorem reusesEmptied_iff (h : SameBuffer s t) (hs : s.socket.isOpen = true)
    (ht : t.socket.isOpen = true) (shrinkCount : ℕ) :
    ReusesEmptied recvBufferSize missingCapacity shrinkCount t ↔
      ReusesEmptied recvBufferSize missingCapacity shrinkCount s := by
  rw [ReusesEmptied, ReusesEmptied, Lacks, Lacks, hs, ht, h.size, h.capacity]

theorem noReuse_client_iff {a : Action} : noReuse s (.client a) ↔
    (armsBy s a → ¬ReusesEmptied 0 0 s.shrinkCount s) := by
  cases a with
  | handle i os =>
      constructor
      · rintro hguard ⟨i', os', o, c, ha, hq, harm⟩
        cases ha
        exact hguard (o, c) hq harm
      · intro hguard entry hentry harm
        exact hguard ⟨i, os, entry.1, entry.2, rfl, hentry, harm⟩
  | start | stop | setConnected | setEstablished | sendData | sendCbk3 | peerSends | datagram
  | complete =>
      refine ⟨fun _ ↦ ?_, fun _ ↦ trivial⟩
      rintro ⟨i, os, _, _, ha, _⟩
      simp at ha

theorem regionStep_within (h : Sized s) {a : RegionAction} (hstep : regionStep s a = some t) :
    (Within a.recvBufferSize s t ↔ noReuse s a) ∧ (noReuse s a → Sized t) := by
  cases a with
  | receive grows recvBufferSize missingCapacity shrinkCount =>
      simp only [regionStep] at hstep
      split_ifs at hstep with hfits
      obtain rfl := Option.some.inj hstep
      have hs : Sized { s with shrinkCount := shrinkCount } := h
      exact receiveInto_within hs hfits.1 hfits.2
  | client a =>
      have hstep' : step .tcp s a = some t := hstep
      rw [noReuse_client_iff]
      rcases step_buffer hstep' with ⟨hnot, hsame⟩ | ⟨harms, u, grows, hsame, hopen, rfl⟩
      · refine ⟨⟨fun _ harms ↦ absurd harms hnot, fun _ r hr ↦ ?_⟩, fun _ ↦ hsame.sized h⟩
        exact absurd hr (hsame.no_region r)
      · have hu : (Within 0 u (Tcp.receive grows u) ↔ ¬ReusesEmptied 0 0 u.shrinkCount u) ∧
            (¬ReusesEmptied 0 0 u.shrinkCount u → Sized (Tcp.receive grows u)) :=
          receiveInto_within (hsame.sized h) (Nat.zero_le _) (by decide : 0 < 2 ^ 32)
        have hsopen : s.socket.isOpen = true := by
          obtain ⟨_, _, _, _, _, _, harm⟩ := harms
          exact (Bool.and_eq_true_iff.mp harm).1
        rw [hsame.shrinkCount, reusesEmptied_iff hsame hsopen hopen] at hu
        have hwithin : Within 0 s (Tcp.receive grows u) ↔ Within 0 u (Tcp.receive grows u) :=
          forall_congr' fun r ↦ by rw [hsame.hands_iff]
        exact ⟨hwithin.trans (hu.1.trans ⟨fun hnot _ ↦ hnot, fun hguard ↦ hguard harms⟩),
          fun hguard ↦ hu.2 (hguard harms)⟩

variable {local' remote : Endpoint}

theorem sized_of_reachable (h : (regionSystem local' remote).Reachable noReuse s) : Sized s := by
  apply h.invariant (I := Sized)
  · rintro s ⟨isSending, rfl⟩
    exact Or.inl ⟨full_zeros _, (size_zeros _).ge⟩
  · intro s a t hs hguard hstep
    exact (regionStep_within hs hstep).2 hguard

/-- Along every run in which no receive reuses an emptied buffer, each region that is
handed out starts behind the received bytes and ends inside the buffer, and the first
receive that does reuse an emptied buffer is handed one that does not. -/
theorem regions_within (h : (regionSystem local' remote).Reachable noReuse s) :
    ∀ a t, regionStep s a = some t → (Within a.recvBufferSize s t ↔ noReuse s a) :=
  fun _ _ hstep ↦ (regionStep_within (sized_of_reachable h) hstep).1

def connects : List RegionAction :=
  [.client (.start .fine), .client (.complete 0 ⟨.success, 0⟩), .client (.handle 0 .fine)]

/-- A growth hands out a region behind the two bytes that have been received. -/
theorem regions_within_grown : ∃ s t, (regionSystem tester vehicle).run noReuse connects
      (constructed tester vehicle false) = some s ∧
    regionStep s (.receive true 2 4 0) = some t ∧ Hands s t ⟨2, 4⟩ ∧ 6 ≤ t.recvBuffer.size := by
  have hrun : ∃ s t, (regionSystem tester vehicle).run noReuse connects
        (constructed tester vehicle false) = some s ∧
      regionStep s (.receive true 2 4 0) = some t ∧ Hands s t ⟨2, 4⟩ ∧
      noReuse s (.receive true 2 4 0) := by
    refine ⟨_, _, rfl, rfl, ⟨rfl, _, _, rfl, rfl⟩, ?_⟩
    decide
  obtain ⟨s, t, hs, hstep, hhands, hguard⟩ := hrun
  have hwithin := (regions_within (reachable_of_run ⟨false, rfl⟩ hs) _ t hstep).mpr hguard
  exact ⟨s, t, hs, hstep, hhands, (hwithin _ hhands).2⟩

/-- After a growth that threw, the client connects again and hands out all of the
capacity of an empty buffer. -/
theorem region_outside : ¬∀ s a t, (regionSystem tester vehicle).Reachable anyStep s →
    regionStep s a = some t → Within a.recvBufferSize s t := by
  intro h
  have hrun : ∃ s t, (regionSystem tester vehicle).run anyStep
        (connects ++ [.receive false 0 0xffffffff 0, .client (.start .fine),
          .client (.complete 1 ⟨.success, 0⟩)]) (constructed tester vehicle false) = some s ∧
      regionStep s (.client (.handle 1 .fine)) = some t ∧ Hands s t ⟨0, 4⟩ ∧
      t.recvBuffer.size = 0 := ⟨_, _, rfl, rfl, ⟨rfl, _, _, rfl, rfl⟩, rfl⟩
  obtain ⟨s, t, hs, hstep, hhands, hsize⟩ := hrun
  have hin := (h s _ t (reachable_of_run ⟨false, rfl⟩ hs) hstep ⟨0, 4⟩ hhands).2
  rw [hsize] at hin
  exact absurd hin (by decide)

end Client

end DoipEndpoint
