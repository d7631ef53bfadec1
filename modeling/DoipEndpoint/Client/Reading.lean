import DoipEndpoint.Client.Current
import DoipEndpoint.Reading

/-!
# How a TCP client reads

`connect_cbk` arms the receive of a handle, and the compiled `receive_cbk` only
prints what it was given.  When `connect_cbk` arms receives only for its own
connect, each open handle is one instance of `Reading`.
-/

namespace DoipEndpoint

namespace Client

open TransitionSystem Reading

/-- The completion of `o`, if it is a receive on the handle `h`. -/
def receiveOn (h : ℕ) (o : Operation) : Option (Option Completion) :=
  if o.isReceive && o.handle = h then some o.completion else none

/-- The operation is a connect on the handle `h` that may have succeeded. -/
def mayConnect (h : ℕ) (o : Operation) : Bool :=
  o.isConnect && o.handle = h &&
    match o.completion with
    | none => true
    | some c => c.error = .success

def reading (s : Client) : Reading where
  attached := s.socket.history.attached
  receives := s.operations.filterMap (receiveOn s.socket.handle)
  buffer := s.recvBuffer
  incoming := s.socket.incoming
  peerSent := s.socket.history.peerSent
  handed := s.socket.history.handed
  receiveCbks := s.socket.history.receiveCbks

theorem card_receives (s : Client) : s.reading.receives.card = s.currentReceives := by
  rw [reading, Multiset.coe_card, List.length_filterMap_eq_countP, currentReceives, current]
  apply List.countP_congr
  intro o _
  simp only [receiveOn]
  split_ifs with h <;> simp_all

/-- A `connect_cbk` arms a receive only for the connect of the current handle,
and only if that has succeeded. -/
def connectsOwn (s : Client) : Action → Bool
  | .handle i _ =>
      match s.queued i with
      | none => true
      | some (o, c) =>
          !armsReceive .tcp s o c || (o.handle = s.socket.handle && c.error = .success)
  | _ => true

/-- Every receive is into the whole buffer. -/
def WholeBuffer (ops : List Operation) : Prop :=
  ∀ o ∈ ops, ∀ offset length, o.handler = .receiveCbk offset length →
    offset = 0 ∧ length = recvBufferSizeInitial

/-- The buffer keeps its first size, at most one connect can attach the handle,
and the handle is read soundly until a receive fails. -/
structure ReadsOnce (s : Client) : Prop where
  capacity : s.recvBuffer.capacity = recvBufferSizeInitial
  size : s.recvBuffer.size = recvBufferSizeInitial
  shrink : s.shrinkCount ≤ bufferShrinkThreshold
  region : WholeBuffer s.operations
  connects : s.socket.isOpen = true →
    s.operations.countP (mayConnect s.socket.handle) + s.socket.history.attached.toNat ≤
      s.socket.bound.isSome.toNat
  sound : s.socket.isOpen = true → s.socket.history.receiveFailed = false → Sound s.reading

variable {s : Client}

theorem ReadsOnce.of_closed {t : Client} (h : ReadsOnce s) (hbuffer : t.recvBuffer = s.recvBuffer)
    (hshrink : t.shrinkCount = s.shrinkCount) (hclosed : t.socket.isOpen = false)
    (hregion : WholeBuffer t.operations) : ReadsOnce t := by
  refine ⟨hbuffer ▸ h.capacity, hbuffer ▸ h.size, hshrink ▸ h.shrink, hregion, ?_, ?_⟩ <;>
    simp [hclosed]

theorem WholeBuffer.aborted {ops ops' : List Operation} (h : WholeBuffer ops)
    (hops : List.Forall₂ Aborted ops ops') : WholeBuffer ops' := by
  intro o ho offset length hh
  obtain ⟨o', ho', hab⟩ := InFlight.exists_of_forall₂_mem hops ho
  exact h o' ho' offset length (hab.1 ▸ hh)

theorem WholeBuffer.eraseIdx {ops : List Operation} (h : WholeBuffer ops) (i : ℕ) :
    WholeBuffer (ops.eraseIdx i) :=
  fun o ho ↦ h o (List.mem_of_mem_eraseIdx ho)

theorem WholeBuffer.append {ops : List Operation} (h : WholeBuffer ops) {o : Operation}
    (ho : ∀ offset length, o.handler = .receiveCbk offset length →
      offset = 0 ∧ length = recvBufferSizeInitial) : WholeBuffer (ops ++ [o]) := by
  intro a ha
  rcases List.mem_append.mp ha with ha | ha
  · exact h a ha
  · rw [List.mem_singleton.mp ha]
    exact ho

theorem ReadsOnce.shutdownAndCloseSocket (h : ReadsOnce s) :
    ReadsOnce (shutdownAndCloseSocket false s) := by
  obtain ⟨k, ops, hclosed, hk, hops⟩ := shutdownAndCloseSocket_false s
  rw [hclosed]
  exact h.of_closed rfl rfl hk.isOpen (h.region.aborted hops)

theorem ReadsOnce.issue (h : ReadsOnce s) {handler : Handler} {completion : Option Completion}
    (hreceive : ∀ offset length, handler ≠ .receiveCbk offset length)
    (hconnect : ∀ target, handler = .connectCbk target →
      ∃ c, completion = some c ∧ c.error ≠ .success) :
    ReadsOnce (s.issue handler completion) := by
  have hnone : receiveOn s.socket.handle
      ⟨handler, s.socket.object, s.socket.handle, completion⟩ = none := by
    cases handler with
    | receiveCbk offset length => exact absurd rfl (hreceive offset length)
    | connectCbk | sendCbk => rfl
  have hmay : mayConnect s.socket.handle
      ⟨handler, s.socket.object, s.socket.handle, completion⟩ = false := by
    cases handler with
    | connectCbk target =>
        obtain ⟨c, rfl, hc⟩ := hconnect target rfl
        simp [mayConnect, hc]
    | receiveCbk | sendCbk => rfl
  refine ⟨h.capacity, h.size, h.shrink, ?_, fun hopen ↦ ?_, fun hopen hok ↦ ?_⟩
  · exact h.region.append fun offset length hh ↦ absurd hh (hreceive offset length)
  · simpa [Client.issue, List.countP_append, hmay] using h.connects hopen
  · have hreading : (s.issue handler completion).reading = s.reading := by
      simp [reading, Client.issue, List.filterMap_append, hnone]
    exact hreading ▸ h.sound hopen hok

theorem ReadsOnce.opened (h : ReadsOnce s)
    (hfresh : ∀ o ∈ s.operations, o.handle ≤ s.socket.handle) :
    ReadsOnce { s with socket := s.socket.opened } := by
  have hne : ∀ o ∈ s.operations, o.handle ≠ s.socket.opened.handle := by
    intro o ho
    have hle := hfresh o ho
    simp only [Socket.opened, ne_eq]
    omega
  have hcount : s.operations.countP (mayConnect s.socket.opened.handle) = 0 := by
    apply List.countP_eq_zero.mpr
    intro o ho
    simp [mayConnect, hne o ho]
  have hnone : s.operations.filterMap (receiveOn s.socket.opened.handle) = [] := by
    apply List.filterMap_eq_nil_iff.mpr
    intro o ho
    simp [receiveOn, hne o ho]
  refine ⟨h.capacity, h.size, h.shrink, h.region, fun _ ↦ Nat.le_of_eq hcount, fun _ _ ↦ ?_⟩
  · have hreading : reading { s with socket := s.socket.opened } =
        ⟨false, 0, s.recvBuffer, [], [], [], 0⟩ := by
      simp only [reading, hnone]
      rfl
    rw [hreading]
    refine ⟨rfl, fun _ ↦ rfl, fun _ ↦ rfl, ?_, ?_⟩ <;> simp

theorem ReadsOnce.asyncConnect (h : ReadsOnce s) {port : Option UInt16} {state : CeiState}
    (hport : port.isSome = true) (hbound : s.socket.bound = none) :
    ReadsOnce (asyncConnect { s with
      socket := { s.socket with bound := port }, state := state }) := by
  refine ⟨h.capacity, h.size, h.shrink, ?_, fun hopen ↦ ?_, fun hopen hok ↦ ?_⟩
  · exact h.region.append (by simp)
  · have hcon := h.connects hopen
    rw [hbound, Option.isSome_none, Bool.toNat_false] at hcon
    have hlast : mayConnect s.socket.handle
        ⟨.connectCbk (some s.remote), s.socket.object, s.socket.handle, none⟩ = true := by
      simp [mayConnect, Operation.isConnect]
    simp only [Client.asyncConnect, Client.issue, List.countP_append, hport, Bool.toNat_true]
    rw [List.countP_singleton, if_pos hlast]
    omega
  · have hreading : (Client.asyncConnect { s with
        socket := { s.socket with bound := port }, state := state }).reading = s.reading := by
      simp [reading, Client.asyncConnect, Client.issue, List.filterMap_append, receiveOn,
        Operation.isReceive]
    exact hreading ▸ h.sound hopen hok

theorem ReadsOnce.connectSocket (h : ReadsOnce s)
    (hfresh : ∀ o ∈ s.operations, o.handle ≤ s.socket.handle) (os : Os) :
    ReadsOnce (connectSocket os s) := by
  have hattempt : ∀ k, s.socket.Attempt os k → ReadsOnce { s with socket := k } := by
    rintro k (⟨_, rfl⟩ | ⟨_, _, rfl⟩)
    · exact h
    · exact h.opened hfresh
  rcases connectSocket_cases os s with ⟨_, _, e, he, hc⟩ | ⟨k, e, hk, he, hc⟩ |
    ⟨k, port, hk, hbound, hc⟩ <;> rw [hc]
  · exact h.issue (by simp) fun _ _ ↦ ⟨_, rfl, he⟩
  · exact (hattempt k hk).issue (by simp) fun _ _ ↦ ⟨_, rfl, he⟩
  · exact (hattempt k hk).asyncConnect rfl hbound

theorem receive_reuse (hcapacity : s.recvBuffer.capacity = recvBufferSizeInitial)
    (hshrink : s.shrinkCount ≤ bufferShrinkThreshold) (grows : Bool)
    (hopen : s.socket.isOpen = true) :
    receive .tcp grows s = asyncReceive 0 recvBufferSizeInitial s := by
  have hprep : s.recvBuffer.prepare recvBufferSizeInitial bufferShrinkThreshold s.shrinkCount
      grows 0 0 = _ := MessageBuffer.prepare_reuse grows 0 s.recvBuffer hshrink
  simp only [receive, Tcp.receive, Tcp.receiveInto, hopen, ↓reduceIte, hprep, hcapacity,
    Nat.sub_zero]

theorem receives_eraseIdx {i : ℕ} {o : Operation} (ho : s.operations[i]? = some o) :
    s.reading.receives = ((receiveOn s.socket.handle o).toList : Multiset (Option Completion)) +
      (reading { s with operations := s.operations.eraseIdx i }).receives :=
  InFlight.filterMap_eraseIdx ho _

theorem receives_set {i : ℕ} {o : Operation} (ho : s.operations[i]? = some o) (o' : Operation) :
    (reading { s with operations := s.operations.set i o' }).receives =
      ((receiveOn s.socket.handle o').toList : Multiset (Option Completion)) +
        (reading { s with operations := s.operations.eraseIdx i }).receives :=
  InFlight.filterMap_set ho o' _

theorem ReadsOnce.eraseIdx (h : ReadsOnce s) {i : ℕ} {o : Operation}
    (ho : s.operations[i]? = some o) (hnone : receiveOn s.socket.handle o = none) :
    ReadsOnce { s with operations := s.operations.eraseIdx i } := by
  refine ⟨h.capacity, h.size, h.shrink, h.region.eraseIdx i,
    fun hopen ↦ ?_, fun hopen hok ↦ ?_⟩
  · have hcon := h.connects hopen
    rw [InFlight.countP_eraseIdx ho] at hcon
    exact le_trans (by simp only; omega) hcon
  · have hreading : reading { s with operations := s.operations.eraseIdx i } = s.reading := by
      have herase := receives_eraseIdx ho
      rw [hnone, Option.toList_none, Multiset.coe_nil, Multiset.zero_add] at herase
      simp only [reading] at herase ⊢
      rw [herase]
    exact hreading ▸ h.sound hopen hok

/-- A `connect_cbk` that does not arm a receive leaves the socket closed. -/
theorem ReadsOnce.connectCbk_unarmed (h : ReadsOnce s) {k : Socket} {ops : List Operation}
    (hregion : WholeBuffer ops) (os : Os) {e : ErrorCode}
    (harm : k.isOpen = true → e = .operationAborted ∨ s.sendingBlocked = true) :
    ReadsOnce (connectCbk .tcp os e { s with socket := k, operations := ops }) := by
  by_cases he : e = .operationAborted ∨ s.sendingBlocked = true
  · obtain ⟨k', ops', hclosed, hk', hops'⟩ := shutdownAndCloseSocket_false
      { s with socket := k, operations := ops }
    rw [connectCbk, if_pos he, hclosed]
    exact h.of_closed rfl rfl hk'.isOpen (hregion.aborted hops')
  · have hclosed : k.isOpen = false := by
      by_contra hopen
      exact he (harm (by simpa using hopen))
    obtain ⟨port, hc⟩ := connectCbk_of_not_aborted .tcp os
      (s := { s with socket := k, operations := ops }) he
    rw [hc.trans (receive_of_closed .tcp os.grows hclosed)]
    exact h.of_closed rfl rfl hclosed hregion

/-- The `connect_cbk` of the only connect that may have succeeded arms the only
receive. -/
theorem ReadsOnce.connectCbk_armed (h : ReadsOnce s) {i : ℕ} {o : Operation} (os : Os)
    {e : ErrorCode} (ho : s.operations[i]? = some o) (hmay : mayConnect s.socket.handle o = true)
    (hopen : s.socket.isOpen = true)
    (he : ¬(e = .operationAborted ∨ s.sendingBlocked = true)) :
    ReadsOnce (connectCbk .tcp os e { s with
      operations := s.operations.eraseIdx i
      socket := { s.socket with history := { s.socket.history with attached := true } } }) := by
  have hnone : receiveOn s.socket.handle o = none := by
    cases hh : o.handler with
    | receiveCbk offset length => simp [mayConnect, Operation.isConnect, hh] at hmay
    | connectCbk | sendCbk => simp [receiveOn, Operation.isReceive, hh]
  have hcon := h.connects hopen
  rw [InFlight.countP_eraseIdx ho, if_pos hmay] at hcon
  have hfree : s.socket.history.attached = false := by
    have hle := Bool.toNat_le s.socket.bound.isSome
    cases hatt : s.socket.history.attached with
    | false => rfl
    | true =>
        rw [hatt, Bool.toNat_true] at hcon
        omega
  rw [hfree, Bool.toNat_false] at hcon
  have herase := h.eraseIdx ho hnone
  obtain ⟨port, hc⟩ := connectCbk_of_not_aborted .tcp os (s := { s with
    operations := s.operations.eraseIdx i
    socket := { s.socket with history := { s.socket.history with attached := true } } }) he
  rw [hc, receive_reuse]
  case hcapacity => exact h.capacity
  case hshrink => exact h.shrink
  case hopen => exact hopen
  refine ⟨h.capacity, h.size, h.shrink, ?_, fun _ ↦ ?_, fun _ hok ↦ ?_⟩
  · apply herase.region.append
    intro offset length hh
    obtain ⟨rfl, rfl⟩ := Handler.receiveCbk.inj hh
    exact ⟨rfl, rfl⟩
  · simpa [asyncReceive, Client.issue, List.countP_append, mayConnect, Operation.isConnect]
      using hcon
  · have harm := (herase.sound hopen hok).arm hfree
    have hreceives := InFlight.filterMap_append_singleton (s.operations.eraseIdx i)
      ⟨.receiveCbk 0 recvBufferSizeInitial, s.socket.object, s.socket.handle, none⟩
      (receiveOn s.socket.handle)
    have hsome : receiveOn s.socket.handle
        ⟨.receiveCbk 0 recvBufferSizeInitial, s.socket.object, s.socket.handle, none⟩ =
          some none := by simp [receiveOn, Operation.isReceive]
    rw [hsome] at hreceives
    convert harm using 1
    exact congrArg (fun r ↦ { s.reading with attached := true, receives := r }) hreceives

theorem ReadsOnce.sendCbk (h : ReadsOnce s)
    (hfresh : ∀ o ∈ s.operations, o.handle ≤ s.socket.handle)
    (os : Os) (e : ErrorCode) : ReadsOnce (sendCbk .tcp os e s) := by
  by_cases hr : Reconnects e = true
  · obtain ⟨ops, hops, hsend⟩ := sendCbk_of_reconnects .tcp os s hr
    rw [hsend]
    refine ReadsOnce.connectSocket ?_ ?_ os
    · exact h.of_closed rfl rfl rfl (h.region.aborted hops)
    · intro o ho
      obtain ⟨o', ho', hab⟩ := InFlight.exists_of_forall₂_mem hops ho
      rw [hab.2.2.1]
      exact (hfresh o' ho').trans (Nat.le_succ _)
  · by_cases ha : e = .operationAborted
    · rw [ha, sendCbk_of_aborted]
      apply ReadsOnce.shutdownAndCloseSocket
      exact ⟨h.capacity, h.size, h.shrink, h.region, h.connects, h.sound⟩
    · obtain ⟨b, hsend⟩ := sendCbk_of_other .tcp os s (by simpa using hr) ha
      rw [hsend]
      exact ⟨h.capacity, h.size, h.shrink, h.region, h.connects, h.sound⟩

theorem ReadsOnce.receiveCbk (h : ReadsOnce s) {i : ℕ} {o : Operation} {c : Completion}
    (ho : s.operations[i]? = some o) (hc : o.completion = some c) {offset length : ℕ}
    (hh : o.handler = .receiveCbk offset length) :
    ReadsOnce (record o c { s with operations := s.operations.eraseIdx i }) := by
  by_cases hown : o.handle = s.socket.handle
  · have hsome : receiveOn s.socket.handle o = some (some c) := by
      simp [receiveOn, Operation.isReceive, hh, hown, hc]
    have hmay : mayConnect s.socket.handle o = false := by
      simp [mayConnect, Operation.isConnect, hh]
    have hcons : s.reading.receives =
        some c ::ₘ (reading { s with operations := s.operations.eraseIdx i }).receives := by
      rw [receives_eraseIdx ho, hsome]
      exact Multiset.singleton_add _ _
    have hregion : WholeBuffer (s.operations.eraseIdx i) := h.region.eraseIdx i
    have hconnects : s.socket.isOpen = true →
        (s.operations.eraseIdx i).countP (mayConnect s.socket.handle) +
          s.socket.history.attached.toNat ≤ s.socket.bound.isSome.toNat := by
      intro hopen
      have hcon := h.connects hopen
      rwa [InFlight.countP_eraseIdx ho, hmay] at hcon
    by_cases he : c.error = .success
    · have hoffset : offset = 0 := (h.region o (List.mem_of_getElem? ho) offset length hh).1
      simp only [record, hown, he, and_self, ↓reduceIte, hh, hoffset, Tcp.receiveCbkReads,
        Nat.add_zero]
      exact ⟨h.capacity, h.size, h.shrink, hregion, hconnects,
        fun hopen hok ↦ (h.sound hopen hok).hand hcons⟩
    · simp only [record, hown, he, and_false, ↓reduceIte]
      refine ⟨h.capacity, h.size, h.shrink, hregion, hconnects, fun hopen hok ↦ ?_⟩
      exact absurd ((h.sound hopen hok).queued c (hcons ▸ Multiset.mem_cons_self _ _)).1 he
  · have hnone : receiveOn s.socket.handle o = none := by simp [receiveOn, hown]
    simp only [record, hown, false_and, ↓reduceIte]
    exact h.eraseIdx ho hnone

theorem ReadsOnce.handle (h : ReadsOnce s) (hs : Owned s) {t : Client} {i : ℕ} {os : Os}
    (hguard : connectsOwn s (.handle i os) = true) (hstep : s.handle .tcp i os = some t) :
    ReadsOnce t := by
  obtain ⟨o, c, hq, rfl⟩ := handle_eq_dispatch hstep
  obtain ⟨ho, hc⟩ := queued_eq_some hq
  simp only [connectsOwn, hq] at hguard
  unfold dispatch
  cases hh : o.handler with
  | connectCbk target =>
      have hnone : receiveOn s.socket.handle o = none := by
        simp [receiveOn, Operation.isReceive, hh]
      cases harm : armsReceive .tcp s o c with
      | false =>
          obtain ⟨history, hrec⟩ := record_eq o c { s with operations := s.operations.eraseIdx i }
          simp only [hrec]
          apply h.connectCbk_unarmed (h.region.eraseIdx i) os
          intro hopen
          by_contra hn
          simp_all [armsReceive]
      | true =>
          have hown : o.handle = s.socket.handle ∧ c.error = .success := by
            simpa [harm] using hguard
          have hmay : mayConnect s.socket.handle o = true := by
            simp [mayConnect, Operation.isConnect, hh, hown, hc]
          have hrec : record o c { s with operations := s.operations.eraseIdx i } =
              { s with
                operations := s.operations.eraseIdx i
                socket := { s.socket with
                  history := { s.socket.history with attached := true } } } := by
            simp [record, hown, hh]
          simp only [armsReceive, hh, Bool.and_eq_true, decide_eq_true_eq] at harm
          rw [hrec]
          exact h.connectCbk_armed os ho hmay harm.1 (by simp_all)
  | sendCbk message =>
      have hnone : receiveOn s.socket.handle o = none := by
        simp [receiveOn, Operation.isReceive, hh]
      have hrec : record o c { s with operations := s.operations.eraseIdx i } =
          { s with operations := s.operations.eraseIdx i } := by
        simp [record, hh]
      rw [hrec]
      refine (h.eraseIdx ho hnone).sendCbk ?_ os c.error
      exact fun a ha ↦ hs.fresh a (List.mem_of_mem_eraseIdx ha)
  | receiveCbk offset length =>
      rw [receiveCbk_tcp]
      exact h.receiveCbk ho hc hh

theorem ReadsOnce.set (h : ReadsOnce s) {i : ℕ} {o : Operation} {c : Completion}
    (ho : s.operations[i]? = some o) (hnone : o.completion = none) (k : Socket)
    (buffer : MessageBuffer) (hopen : k.isOpen = s.socket.isOpen)
    (hhandle : k.handle = s.socket.handle)
    (hbound : k.bound = s.socket.bound)
    (hattached : k.history.attached = s.socket.history.attached)
    (hsize : buffer.size = s.recvBuffer.size) (hcapacity : buffer.capacity = s.recvBuffer.capacity)
    (hsound : s.socket.isOpen = true → k.history.receiveFailed = false →
      Sound (reading { s with
        operations := s.operations.set i { o with completion := some c }
        recvBuffer := buffer
        socket := k })) :
    ReadsOnce { s with
      operations := s.operations.set i { o with completion := some c }
      recvBuffer := buffer
      socket := k } := by
  have hmay : ∀ a : Operation, mayConnect s.socket.handle { a with completion := some c } = true →
      a.completion = none → mayConnect s.socket.handle a = true := by
    intro a ha hcomp
    simp only [mayConnect, Bool.and_eq_true] at ha ⊢
    exact ⟨ha.1, by simp [hcomp]⟩
  refine ⟨hcapacity.trans h.capacity, hsize.trans h.size, h.shrink, ?_, ?_, ?_⟩
  · intro a ha offset length hh
    rcases List.mem_or_eq_of_mem_set ha with ha | rfl
    · exact h.region a ha offset length hh
    · exact h.region o (List.mem_of_getElem? ho) offset length hh
  · intro hk
    have hcon := h.connects (hopen ▸ hk)
    have hi : i < s.operations.length := (List.getElem?_eq_some_iff.mp ho).1
    have hset : (s.operations.set i { o with completion := some c })[i]? =
        some { o with completion := some c } := by simp [hi]
    rw [InFlight.countP_eraseIdx ho] at hcon
    simp only [hhandle, hbound, hattached]
    rw [InFlight.countP_eraseIdx hset, List.eraseIdx_set_eq]
    cases hm : mayConnect s.socket.handle { o with completion := some c } with
    | false =>
        simp only [Bool.false_eq_true, ↓reduceIte]
        omega
    | true =>
        rw [hmay o hm hnone] at hcon
        exact hcon
  · exact fun hk hok ↦ hsound (hopen ▸ hk) hok

theorem ReadsOnce.complete (h : ReadsOnce s) {t : Client} {i : ℕ} {c : Completion}
    (hstep : s.complete .tcp i c = some t) : ReadsOnce t := by
  obtain ⟨o, ho, hnone, hhandle, hopen, hf⟩ := complete_eq_some hstep
  have hother : o.isReceive = false → ∀ k : Socket, k.handle = s.socket.handle →
      k.history = s.socket.history → k.incoming = s.socket.incoming →
      reading { s with
        operations := s.operations.set i { o with completion := some c }
        socket := k } = s.reading := by
    intro hkind k hk hhist hinc
    have herase := receives_eraseIdx ho
    have hset := receives_set ho { o with completion := some c }
    have hno : receiveOn s.socket.handle o = none := by simp [receiveOn, hkind]
    have hno' : receiveOn s.socket.handle { o with completion := some c } = none := by
      have hkind' : Operation.isReceive { o with completion := some c } = false := hkind
      simp [receiveOn, hkind']
    rw [hno] at herase
    rw [hno', ← herase] at hset
    simp only [reading, hk, hhist, hinc] at hset ⊢
    rw [hset]
  cases hh : o.handler with
  | connectCbk target =>
      have hkind : o.isReceive = false := by simp [Operation.isReceive, hh]
      rcases finish_connect hh hf with ⟨_, rfl⟩ | ⟨_, rfl⟩
      · refine h.set ho hnone { s.socket with peer := target } s.recvBuffer rfl rfl rfl rfl rfl rfl
          fun hk hok ↦ ?_
        exact (hother hkind _ rfl rfl rfl).symm ▸ h.sound hk hok
      · apply h.set ho hnone s.socket s.recvBuffer rfl rfl rfl rfl rfl rfl
        intro hk hok
        exact (hother hkind _ rfl rfl rfl).symm ▸ h.sound hk hok
  | sendCbk message =>
      have hkind : o.isReceive = false := by simp [Operation.isReceive, hh]
      cases finish_send hh hf
      apply h.set ho hnone s.socket s.recvBuffer rfl rfl rfl rfl rfl rfl
      intro hk hok
      exact (hother hkind _ rfl rfl rfl).symm ▸ h.sound hk hok
  | receiveCbk offset length =>
      rcases finish_receive_tcp hh hf with ⟨he, _, hlen, havail, rfl⟩ | ⟨_, rfl⟩
      · refine h.set ho hnone { s.socket with incoming := s.socket.incoming.drop c.bytes }
          (s.recvBuffer.store offset (s.socket.incoming.take c.bytes)) rfl rfl rfl rfl (by simp)
          (by simp) fun hk hok ↦ ?_
        obtain ⟨rfl, rfl⟩ := h.region o (List.mem_of_getElem? ho) offset length hh
        have hcons : s.reading.receives =
            none ::ₘ (reading { s with operations := s.operations.eraseIdx i }).receives := by
          have hsome : receiveOn s.socket.handle o = some none := by
            simp [receiveOn, Operation.isReceive, hh, hhandle, hnone]
          rw [receives_eraseIdx ho, hsome]
          exact Multiset.singleton_add _ _
        have hset := receives_set ho { o with completion := some c }
        have hsome : receiveOn s.socket.handle { o with completion := some c } = some (some c) := by
          simp [receiveOn, Operation.isReceive, hh, hhandle]
        rw [hsome] at hset
        have hsound := (h.sound hk hok).receive hcons he (h.size ▸ hlen) havail
        convert hsound using 1
        exact congrArg (fun r ↦ { s.reading with
          receives := r
          buffer := s.recvBuffer.store 0 (s.socket.incoming.take c.bytes)
          incoming := s.socket.incoming.drop c.bytes }) hset
      · refine h.set ho hnone
          { s.socket with history := { s.socket.history with receiveFailed := true } } s.recvBuffer
          rfl rfl rfl rfl rfl rfl fun _ hok ↦ ?_
        simp at hok

theorem ReadsOnce.sendCbk3 (h : ReadsOnce s) (e : ErrorCode) : ReadsOnce (Tcp.sendCbk3 e s) := by
  obtain ⟨state, b, hs⟩ := sendCbk3_cases e s
  have hflags : ReadsOnce { s with isSending := false, state := state, wasNotConnected := b } :=
    ⟨h.capacity, h.size, h.shrink, h.region, h.connects, h.sound⟩
  rcases hs with hs | hs <;> rw [hs]
  · exact hflags
  · exact hflags.shutdownAndCloseSocket

theorem readsOnce_step {t : Client} {a : Action} (h : ReadsOnce s) (hs : Owned s)
    (hguard : connectsOwn s a = true) (hstep : step .tcp s a = some t) : ReadsOnce t := by
  cases a with
  | start os =>
      cases Option.some.inj hstep
      rw [start, connect_eq]
      exact h.connectSocket hs.fresh os
  | stop =>
      cases Option.some.inj hstep
      exact h.shutdownAndCloseSocket
  | setConnected b =>
      cases Option.some.inj hstep
      obtain ⟨state, hflag, _⟩ := setConnected_cases b s
      rw [hflag]
      exact ⟨h.capacity, h.size, h.shrink, h.region, h.connects, h.sound⟩
  | setEstablished b =>
      cases Option.some.inj hstep
      obtain ⟨state, hflag, _⟩ := setEstablished_cases b s
      rw [hflag]
      exact ⟨h.capacity, h.size, h.shrink, h.region, h.connects, h.sound⟩
  | sendData message =>
      cases Option.some.inj hstep
      rcases sendData_cases .tcp message s with hsend | ⟨completion, isSending, hsend, _⟩ <;>
        rw [hsend]
      · exact h
      · have hflag : ReadsOnce { s with isSending := isSending } :=
          ⟨h.capacity, h.size, h.shrink, h.region, h.connects, h.sound⟩
        exact hflag.issue (by simp) (by simp)
  | sendCbk3 e =>
      cases Option.some.inj hstep
      exact h.sendCbk3 e
  | peerSends bytes =>
      obtain ⟨_, rfl⟩ := step_peerSends hstep
      exact ⟨h.capacity, h.size, h.shrink, h.region, h.connects,
        fun hopen hok ↦ (h.sound hopen hok).arrive bytes⟩
  | datagram sender payload => simp [step] at hstep
  | complete i c => exact h.complete hstep
  | handle i os => exact h.handle hs hguard hstep

/-- While the socket of a TCP client is open, its `connect_cbk` has run without
error and no receive has failed, one receive is outstanding exactly until the
first `receive_cbk` has run, and the handlers were given the beginning of the
stream. -/
theorem reads_first_chunk {local' remote : Endpoint}
    (h : (system .tcp local' remote).Reachable (fun s a ↦ connectsOwn s a = true) s)
    (hopen : s.socket.isOpen = true) (hattached : s.socket.history.attached = true)
    (hok : s.socket.history.receiveFailed = false) :
    (s.currentReceives = 1 ↔ s.socket.history.receiveCbks = 0) ∧
      s.socket.history.handed <+: s.socket.history.peerSent ∧
      s.socket.history.handed.length ≤ recvBufferSizeInitial := by
  have hinv : Owned s ∧ ReadsOnce s := by
    apply h.invariant (I := fun s ↦ Owned s ∧ ReadsOnce s)
    · intro s hs
      constructor
      · exact owned_initial hs
      · obtain ⟨isSending, rfl⟩ := hs
        refine ⟨rfl, by simp [constructed], Nat.zero_le _, ?_, ?_, ?_⟩ <;>
          simp [constructed, WholeBuffer, Socket.closed]
    · rintro s a t ⟨ho, hr⟩ hguard hstep
      exact ⟨owned_step (p := .tcp) (a := a) ho hstep, readsOnce_step hr ho hguard hstep⟩
  have hout := (hinv.2.sound hopen hok).outcome hattached
  rw [card_receives] at hout
  exact ⟨hout.1, hout.2.1, hinv.2.size ▸ hout.2.2⟩

end Client

end DoipEndpoint
