import DoipEndpoint.UdpServer.Functions
import Mathlib.Data.List.Infix

/-!
# The delivery of datagrams

All receives share one buffer and one sender field.  A handler arms the next receive
only after `on_message_received` has returned, so nothing can overwrite them while
they are being read, and every datagram is handed over once.
-/

namespace DoipEndpoint

namespace UdpServer

open TransitionSystem

def outstanding (s : UdpServer) : ℕ := s.receives.countP Receive.isOutstanding

def running (s : UdpServer) : ℕ := s.receives.countP fun r ↦ !r.isOutstanding

def undelivered (s : UdpServer) : ℕ := s.receives.countP fun r ↦ r.delivers.isSome

def noStart (_ : UdpServer) : Action → Prop
  | .start => False
  | _ => True

instance (s : UdpServer) : (a : Action) → Decidable (noStart s a)
  | .start => isFalse id
  | .stop | .arrives _ | .receives _ | .fails _ _ _ | .handle _ => isTrue trivial

/-- The buffer and the sender field hold what was received, and all of it is inside
the buffer. -/
structure Holds (s : UdpServer) (r : Received) : Prop where
  remote : s.unicastRemote = r.datagram.sender
  fits : r.datagram.payload.length ≤ s.unicastRecvBuffer.size
  bytes : ∀ i, i < r.datagram.payload.length →
    s.unicastRecvBuffer.index i = r.datagram.payload[i]?

/-- Everything that was received has been handed over. -/
def AllDelivered (s : UdpServer) : Prop := s.calls = s.completed.map Received.call

/-- Everything but `r`, which was received last, has been handed over, and `r` is
still in the buffer. -/
structure Last (s : UdpServer) (r : Received) : Prop where
  completed : ∃ earlier, s.completed = earlier ++ [r] ∧ s.calls = earlier.map Received.call
  error : r.error ≠ .operationAborted
  holds : Holds s r

/-- The life of the only receive, from one call of `receive_unicast` to the next. -/
inductive Serves (s : UdpServer) : Prop where
  | silent (hopen : s.isOpen = false) (hreceives : s.receives = []) (hall : AllDelivered s)
  | pending (hopen : s.isOpen = true) (hreceives : s.receives = [.pending])
      (hall : AllDelivered s)
  | aborted (hopen : s.isOpen = false) (arguments : Arguments)
      (haborted : arguments.error = .operationAborted)
      (hreceives : s.receives = [.queued arguments]) (hall : AllDelivered s)
  | queued (r : Received) (hreceives : s.receives = [.queued r.arguments]) (hlast : Last s r)
  | reading (r : Received) (printed : List UInt8)
      (hreceives : s.receives = [.reading r.arguments printed]) (hlast : Last s r)
      (hprinted : printed <+: r.datagram.payload)
  | returned (hreceives : s.receives = [.returned]) (hall : AllDelivered s)

/-- What is known while the only receive is at a certain point of its life. -/
def Stage (s : UdpServer) : Receive → Prop
  | .pending | .returned => AllDelivered s
  | .queued arguments =>
      (s.isOpen = false ∧ arguments.error = .operationAborted ∧ AllDelivered s) ∨
        ∃ r, arguments = r.arguments ∧ Last s r
  | .reading arguments printed =>
      ∃ r, arguments = r.arguments ∧ Last s r ∧ printed <+: r.datagram.payload

variable {s t u v : UdpServer} {a : Action} {r : Received} {i : ℕ}

theorem getElem?_singleton {x y : Receive} (h : [x][i]? = some y) : i = 0 ∧ x = y := by
  cases i with
  | zero => exact ⟨rfl, Option.some.inj h⟩
  | succ i => simp at h

/-- Whatever receive there is, it is the only one. -/
theorem Serves.stage {x : Receive} (h : Serves s) (hx : s.receives[i]? = some x) :
    i = 0 ∧ s.receives = [x] ∧ Stage s x := by
  have honly : ∀ y, s.receives = [y] → Stage s y → i = 0 ∧ s.receives = [x] ∧ Stage s x := by
    intro y hy hstage
    rw [hy] at hx
    obtain ⟨rfl, rfl⟩ := getElem?_singleton hx
    exact ⟨rfl, hy, hstage⟩
  cases h with
  | silent _ hreceives =>
      rw [hreceives] at hx
      simp at hx
  | pending _ hreceives hall => exact honly _ hreceives hall
  | aborted hopen _ haborted hreceives hall =>
      exact honly _ hreceives (Or.inl ⟨hopen, haborted, hall⟩)
  | queued r hreceives hlast => exact honly _ hreceives (Or.inr ⟨r, rfl, hlast⟩)
  | reading r _ hreceives hlast hprinted => exact honly _ hreceives ⟨r, rfl, hlast, hprinted⟩
  | returned hreceives hall => exact honly _ hreceives hall

/-! ## Functions -/

/-- Nothing but the list of receives, the counter and the socket has changed. -/
structure SameRecords (s t : UdpServer) : Prop where
  unicastRemote : t.unicastRemote = s.unicastRemote
  unicastRecvBuffer : t.unicastRecvBuffer = s.unicastRecvBuffer
  completed : t.completed = s.completed
  calls : t.calls = s.calls

theorem AllDelivered.same (h : AllDelivered s) (hsame : SameRecords s t) : AllDelivered t := by
  rw [AllDelivered, hsame.calls, hsame.completed]
  exact h

theorem Last.same (h : Last s r) (hsame : SameRecords s t) : Last t r := by
  refine ⟨?_, h.error, ?_, ?_, ?_⟩
  · rw [hsame.completed, hsame.calls]
    exact h.completed
  · rw [hsame.unicastRemote]
    exact h.holds.remote
  · rw [hsame.unicastRecvBuffer]
    exact h.holds.fits
  · rw [hsame.unicastRecvBuffer]
    exact h.holds.bytes

theorem serves_receiveUnicast (hnone : s.receives = []) (hall : AllDelivered s) :
    Serves s.receiveUnicast := by
  unfold receiveUnicast
  split_ifs with hopen
  · refine .pending hopen ?_ hall
    simp [hnone]
  · exact .silent (by simpa using hopen) hnone hall

theorem serves_stop (h : Serves s) : Serves s.stop := by
  unfold stop
  split_ifs with hopen
  · have hsame : SameRecords s { s with
        isOpen := false, arrived := [], receives := s.receives.map Receive.abort } :=
      ⟨rfl, rfl, rfl, rfl⟩
    cases h with
    | silent hclosed | aborted hclosed =>
        rw [hopen] at hclosed
        exact absurd hclosed (by simp)
    | pending _ hreceives hall =>
        exact .aborted rfl .aborted rfl (by simp [hreceives, Receive.abort]) (hall.same hsame)
    | queued r hreceives hlast =>
        exact .queued r (by simp [hreceives, Receive.abort]) (hlast.same hsame)
    | reading r printed hreceives hlast hprinted =>
        exact .reading r printed (by simp [hreceives, Receive.abort]) (hlast.same hsame) hprinted
    | returned hreceives hall =>
        exact .returned (by simp [hreceives, Receive.abort]) (hall.same hsame)
  · exact h

theorem Serves.arrived (h : Serves s) (arrived : List Datagram) :
    Serves { s with arrived := arrived } := by
  have hsame : SameRecords s { s with arrived := arrived } := ⟨rfl, rfl, rfl, rfl⟩
  cases h with
  | silent hopen hreceives hall => exact .silent hopen hreceives (hall.same hsame)
  | pending hopen hreceives hall => exact .pending hopen hreceives (hall.same hsame)
  | aborted hopen arguments haborted hreceives hall =>
      exact .aborted hopen arguments haborted hreceives (hall.same hsame)
  | queued r hreceives hlast => exact .queued r hreceives (hlast.same hsame)
  | reading r printed hreceives hlast hprinted =>
      exact .reading r printed hreceives (hlast.same hsame) hprinted
  | returned hreceives hall => exact .returned hreceives (hall.same hsame)

theorem complete_eq_some (h : s.complete i r = some t) : s.receives[i]? = some .pending ∧
    s.isOpen = true ∧ r.datagram.payload.length ≤ s.unicastRecvBuffer.size ∧ t = { s with
      unicastRemote := r.datagram.sender
      unicastRecvBuffer := s.unicastRecvBuffer.store r.datagram.payload
      receives := s.receives.set i (.queued r.arguments)
      completed := s.completed ++ [r] } := by
  unfold complete at h
  split_ifs at h with hc
  exact ⟨hc.1, hc.2.1, hc.2.2, (Option.some.inj h).symm⟩

theorem serves_complete (h : Serves s) (herror : r.error ≠ .operationAborted)
    (hcomplete : s.complete i r = some t) : Serves t := by
  obtain ⟨hpending, hopen, hfits, rfl⟩ := complete_eq_some hcomplete
  obtain ⟨rfl, hreceives, hall⟩ := h.stage hpending
  refine .queued r (by simp [hreceives]) ⟨⟨s.completed, rfl, hall⟩, herror, rfl, hfits, ?_⟩
  intro j hj
  rw [RecvBuffer.index_store hfits hj, List.getElem?_eq_getElem hj]

/-- A handler is called, or only told that the socket was closed. -/
theorem serves_onUnicastReceived {arguments : Arguments} (h : Serves s)
    (hq : s.receives[i]? = some (.queued arguments)) :
    Serves (s.onUnicastReceived i arguments) := by
  unfold onUnicastReceived
  obtain ⟨rfl, hreceives, ⟨hopen, haborted, hall⟩ | ⟨r, rfl, hlast⟩⟩ := h.stage hq
  · rw [if_neg (not_not.mpr haborted)]
    exact .silent hopen (by simp [hreceives]) (hall.same ⟨rfl, rfl, rfl, rfl⟩)
  · have herror : r.arguments.error ≠ .operationAborted := hlast.error
    rw [if_pos herror]
    exact .reading r [] (by simp [hreceives]) (hlast.same ⟨rfl, rfl, rfl, rfl⟩) List.nil_prefix

theorem prefix_snoc {printed payload : List UInt8} (h : printed <+: payload)
    (hlt : printed.length < payload.length) : printed ++ [payload[printed.length]] <+: payload := by
  have hnext := List.take_append_getElem hlt
  rw [← List.prefix_iff_eq_take.mp h] at hnext
  rw [hnext]
  exact List.take_prefix _ _

/-- The loop prints the next byte of what was received, or all of it is printed. -/
theorem serves_onMessageReceived {arguments : Arguments} {printed : List UInt8} (h : Serves s)
    (hq : s.receives[i]? = some (.reading arguments printed))
    (hstep : s.onMessageReceived i arguments printed = some t) : Serves t := by
  obtain ⟨rfl, hreceives, r, rfl, hlast, hprinted⟩ := h.stage hq
  unfold onMessageReceived at hstep
  split_ifs at hstep with hmore
  · have hlt : printed.length < r.datagram.payload.length := hmore
    have hindex := hlast.holds.bytes printed.length hlt
    rw [List.getElem?_eq_getElem hlt] at hindex
    simp only [hindex] at hstep
    obtain rfl := Option.some.inj hstep
    exact .reading r _ (by simp [hreceives]) (hlast.same ⟨rfl, rfl, rfl, rfl⟩)
      (prefix_snoc hprinted hlt)
  · obtain rfl := Option.some.inj hstep
    have hall : printed = r.datagram.payload := hprinted.eq_of_length_le (not_lt.mp hmore)
    obtain ⟨earlier, hcompleted, hcalls⟩ := hlast.completed
    refine .returned (by simp [hreceives]) ?_
    simp only [AllDelivered, hcompleted, hcalls, List.map_append, List.map_singleton, hall,
      hlast.holds.remote]
    rfl

theorem serves_resume (h : Serves s) (hq : s.receives[i]? = some .returned) :
    Serves (receiveUnicast { s with receives := s.receives.eraseIdx i }) := by
  obtain ⟨rfl, hreceives, hall⟩ := h.stage hq
  exact serves_receiveUnicast (by simp [hreceives]) (hall.same ⟨rfl, rfl, rfl, rfl⟩)

/-! ## Runs -/

inductive Performed (s : UdpServer) : Action → UdpServer → Prop
  | started : Performed s .start s.receiveUnicast
  | stopped : Performed s .stop s.stop
  | arrived (d : Datagram) (hopen : s.isOpen = true) :
      Performed s (.arrives d) { s with arrived := s.arrived ++ [d] }
  | completed (a : Action) (i : ℕ) (r : Received) (rest : List Datagram) (t : UdpServer)
      (herror : r.error ≠ .operationAborted)
      (h : complete i r { s with arrived := rest } = some t) : Performed s a t
  | called (i : ℕ) (arguments : Arguments) (hq : s.receives[i]? = some (.queued arguments)) :
      Performed s (.handle i) (s.onUnicastReceived i arguments)
  | read (i : ℕ) (arguments : Arguments) (printed : List UInt8) (t : UdpServer)
      (hq : s.receives[i]? = some (.reading arguments printed))
      (h : s.onMessageReceived i arguments printed = some t) : Performed s (.handle i) t
  | resumed (i : ℕ) (hq : s.receives[i]? = some .returned) :
      Performed s (.handle i) (receiveUnicast { s with receives := s.receives.eraseIdx i })

theorem performed_of_step (h : step s a = some t) : Performed s a t := by
  cases a with
  | start =>
      cases Option.some.inj h
      exact .started
  | stop =>
      cases Option.some.inj h
      exact .stopped
  | arrives d =>
      simp only [step] at h
      split_ifs at h with hopen
      obtain rfl := Option.some.inj h
      exact .arrived d hopen
  | receives i =>
      simp only [step] at h
      cases harrived : s.arrived with
      | nil => simp [harrived] at h
      | cons d rest =>
          simp only [harrived] at h
          exact .completed _ i ⟨.success, d⟩ rest t (by simp) h
  | fails i error left =>
      simp only [step] at h
      split_ifs at h with herror
      exact .completed _ i ⟨error, left⟩ s.arrived t herror.2 h
  | handle i =>
      simp only [step] at h
      cases hq : s.receives[i]? with
      | none => simp [hq] at h
      | some r =>
          simp only [hq] at h
          cases r with
          | pending => simp at h
          | queued arguments =>
              cases Option.some.inj h
              exact .called i arguments hq
          | reading arguments printed => exact .read i arguments printed t hq h
          | returned =>
              cases Option.some.inj h
              exact .resumed i hq

theorem Serves.step (h : Serves s) (hno : noStart s a) (hstep : step s a = some t) :
    Serves t := by
  cases performed_of_step hstep with
  | started => exact absurd hno id
  | stopped => exact serves_stop h
  | arrived => exact h.arrived _
  | completed _ i r rest _ herror hcomplete =>
      exact serves_complete (h.arrived rest) herror hcomplete
  | called i arguments hq => exact serves_onUnicastReceived h hq
  | read i arguments printed _ hq hread => exact serves_onMessageReceived h hq hread
  | resumed i hq => exact serves_resume h hq

/-- Before `start` no receive is armed. -/
structure Idle (s : UdpServer) : Prop where
  receives : s.receives = []
  completed : s.completed = []
  calls : s.calls = []

theorem Idle.step (h : Idle s) (hno : noStart s a) (hstep : step s a = some t) : Idle t := by
  have hnone : ∀ (i : ℕ) (x : Receive), s.receives[i]? ≠ some x := by
    intro i x
    simp [h.receives]
  cases performed_of_step hstep with
  | started => exact absurd hno id
  | stopped =>
      unfold stop
      split_ifs
      · exact ⟨by simp [h.receives], h.completed, h.calls⟩
      · exact h
  | arrived => exact ⟨h.receives, h.completed, h.calls⟩
  | completed _ i _ _ _ _ hcomplete =>
      exact absurd (complete_eq_some hcomplete).1 (hnone i _)
  | called i _ hq => exact absurd hq (hnone i _)
  | read i _ _ _ hq => exact absurd hq (hnone i _)
  | resumed i hq => exact absurd hq (hnone i _)

theorem idle_of_reachable (h : system.Reachable noStart s) : Idle s := by
  apply h.invariant (I := Idle)
  · rintro s rfl
    exact ⟨rfl, rfl, rfl⟩
  · intro s a t hs hno hstep
    exact hs.step hno hstep

theorem armed_step (hclosed : s.isOpen = false) (hstep : step s a = some t) :
    t.isOpen = false ∧ t.armed = s.armed := by
  have hreceive : ∀ x : UdpServer, x.isOpen = false → x.receiveUnicast = x := by
    intro x hx
    simp [receiveUnicast, hx]
  cases performed_of_step hstep with
  | started =>
      rw [hreceive s hclosed]
      exact ⟨hclosed, rfl⟩
  | stopped =>
      have hsame : s.stop = s := by simp [stop, hclosed]
      rw [hsame]
      exact ⟨hclosed, rfl⟩
  | arrived _ hopen =>
      rw [hclosed] at hopen
      exact absurd hopen (by simp)
  | completed _ i r rest _ _ hcomplete =>
      have hopen : s.isOpen = true := (complete_eq_some hcomplete).2.1
      rw [hclosed] at hopen
      exact absurd hopen (by simp)
  | called i arguments _ =>
      unfold onUnicastReceived
      split_ifs <;> exact ⟨hclosed, rfl⟩
  | read i arguments printed _ _ hread =>
      simp only [onMessageReceived] at hread
      split_ifs at hread
      · split at hread
        · simp at hread
        · obtain rfl := Option.some.inj hread
          exact ⟨hclosed, rfl⟩
      · obtain rfl := Option.some.inj hread
        exact ⟨hclosed, rfl⟩
  | resumed i _ =>
      have hsame := hreceive { s with receives := s.receives.eraseIdx i } hclosed
      rw [hsame]
      exact ⟨hclosed, rfl⟩

theorem stop_isOpen (s : UdpServer) : s.stop.isOpen = false := by
  unfold stop
  split_ifs with hopen
  · rfl
  · simpa using hopen

theorem armed_after_stop (hstop : system.step s .stop = some t)
    (hrun : system.Leads anyStep t u) : u.armed = t.armed := by
  have hclosed : t.isOpen = false := by
    cases Option.some.inj hstop
    exact stop_isOpen s
  have hafter : u.isOpen = false ∧ u.armed = t.armed := by
    refine hrun.invariant (I := fun u ↦ u.isOpen = false ∧ u.armed = t.armed) ?_ ⟨hclosed, rfl⟩
    intro x a y hx _ hstep
    obtain ⟨hopen, harmed⟩ := armed_step hx.1 hstep
    exact ⟨hopen, harmed.trans hx.2⟩
  exact hafter.2

/-- What the life of the only receive says about the counts and the records. -/
structure Delivers (s : UdpServer) : Prop where
  atMostOne : s.outstanding + s.running ≤ 1
  one : s.isOpen = true → s.outstanding + s.running = 1
  inOrder : s.calls <+: s.completed.map Received.call
  once : s.completed.length = s.calls.length + s.undelivered
  intact : ∀ x ∈ s.receives, ∀ arguments ∈ x.delivers,
    ∃ r, s.completed.getLast? = some r ∧ arguments = r.arguments ∧ Holds s r

theorem delivers_of_allDelivered (hall : AllDelivered s)
    (hone : s.outstanding + s.running ≤ 1)
    (hopen : s.isOpen = true → s.outstanding + s.running = 1)
    (hnone : ∀ x ∈ s.receives, x.delivers = none) : Delivers s := by
  have hundelivered : s.undelivered = 0 := by
    apply List.countP_eq_zero.mpr
    intro x hx
    simp [hnone x hx]
  refine ⟨hone, hopen, ?_, ?_, ?_⟩
  · rw [hall]
  · rw [hall, hundelivered, List.length_map, Nat.add_zero]
  · intro x hx arguments harguments
    rw [hnone x hx] at harguments
    exact absurd harguments (by simp)

theorem Last.delivers {x : Receive} (h : Last s r) (hreceives : s.receives = [x])
    (hx : x.delivers = some r.arguments) : Delivers s := by
  obtain ⟨earlier, hcompleted, hcalls⟩ := h.completed
  have hcount : s.outstanding + s.running = 1 := by
    cases hout : x.isOutstanding <;>
      simp [outstanding, running, hreceives, hout]
  have hundelivered : s.undelivered = 1 := by simp [undelivered, hreceives, hx]
  refine ⟨hcount.le, fun _ ↦ hcount, ?_, ?_, ?_⟩
  · rw [hcompleted, hcalls, List.map_append]
    exact List.prefix_append _ _
  · rw [hcompleted, hcalls, hundelivered, List.length_append, List.length_map,
      List.length_singleton]
  · intro y hy arguments harguments
    rw [hreceives, List.mem_singleton] at hy
    rw [hy, hx] at harguments
    exact ⟨r, by simp [hcompleted], (Option.some.inj harguments).symm, h.holds⟩

theorem Serves.delivers (h : Serves s) : Delivers s := by
  cases h with
  | silent hopen hreceives hall =>
      apply delivers_of_allDelivered hall <;>
        simp [outstanding, running, hreceives, hopen]
  | pending hopen hreceives hall =>
      apply delivers_of_allDelivered hall <;>
        simp [outstanding, running, hreceives, Receive.isOutstanding, Receive.delivers]
  | aborted hopen arguments haborted hreceives hall =>
      apply delivers_of_allDelivered hall <;>
        simp [outstanding, running, hreceives, Receive.isOutstanding, Receive.delivers, haborted]
  | queued r hreceives hlast =>
      have herror : r.arguments.error ≠ .operationAborted := hlast.error
      exact hlast.delivers hreceives (if_pos herror)
  | reading r printed hreceives hlast _ => exact hlast.delivers hreceives rfl
  | returned hreceives hall =>
      apply delivers_of_allDelivered hall <;>
        simp [outstanding, running, hreceives, Receive.isOutstanding, Receive.delivers]

/-- When `start` is called once, at most one receive is outstanding, and exactly one
while the socket is open and no handler is being run; the calls of
`on_message_received` are the completed receives in their order, but for one that is
still queued or being read, whose bytes and sender stay in place until then; and after
`stop` no receive is armed. -/
theorem datagrams_delivered {s₀ s₁ : UdpServer} (hbefore : system.Reachable noStart s₀)
    (hstart : system.step s₀ .start = some s₁) (hafter : system.Leads noStart s₁ s) :
    Delivers s ∧ ∀ t u v, system.step t .stop = some u → system.Leads anyStep u v →
      v.armed = u.armed := by
  have hidle := idle_of_reachable hbefore
  have hfirst : Serves s₁ := by
    cases Option.some.inj hstart
    refine serves_receiveUnicast hidle.receives ?_
    rw [AllDelivered, hidle.completed, hidle.calls, List.map_nil]
  have hserves : Serves s :=
    hafter.invariant (fun _ _ _ hs hno hstep ↦ hs.step hno hstep) hfirst
  exact ⟨hserves.delivers, fun _ _ _ hstop hrun ↦ armed_after_stop hstop hrun⟩

def sender : Endpoint := ⟨.v4 0xc0a80001#32, 13400⟩

def datagram (payload : List UInt8) : Datagram := ⟨sender, .v4 0xc0a80002#32, payload⟩

/-- The second datagram waits in the socket until the first one has been printed. -/
theorem datagrams_delivered_twice : ∃ s, system.run noStart
      [.arrives (datagram [1]), .receives 0, .arrives (datagram [2, 3]), .handle 0, .handle 0,
        .handle 0, .handle 0, .receives 0, .handle 0]
      constructed.start = some s ∧
    s.calls = [⟨⟨.success, 1, .v4 0xc0a80002#32⟩, sender, [1]⟩] ∧ Delivers s := by
  have hrun : ∃ s, system.run noStart
        [.arrives (datagram [1]), .receives 0, .arrives (datagram [2, 3]), .handle 0, .handle 0,
          .handle 0, .handle 0, .receives 0, .handle 0]
        constructed.start = some s ∧
      s.calls = [⟨⟨.success, 1, .v4 0xc0a80002#32⟩, sender, [1]⟩] := ⟨_, rfl, rfl⟩
  obtain ⟨s, hs, hcalls⟩ := hrun
  have hdelivered := datagrams_delivered (Reachable.initial rfl) rfl (leads_of_run hs)
  exact ⟨s, hs, hcalls, hdelivered.1⟩

end UdpServer

end DoipEndpoint
