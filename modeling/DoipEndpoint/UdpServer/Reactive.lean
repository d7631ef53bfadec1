import DoipEndpoint.Asio.ReceiveFrom
import DoipEndpoint.UdpServer.Delivery
import Mathlib.Data.List.InsertIdx

/-!
# The UDP server on the bundled receive operation

The unicast socket one level down: an `async_receive_from` is an operation that the
reactor performs, maybe in vain, until it is done, and closing the socket cancels it.
Seen from outside, such an operation is the atomic receive of the UDP server.
-/

namespace DoipEndpoint

namespace UdpServer

open Asio TransitionSystem

/-- An `async_receive_from` whose handler has not returned. -/
inductive Operation where
  /-- It is in the reactor's queue. -/
  | registered (op : RecvfromOp)
  /-- It is in the scheduler's queue. -/
  | posted (op : RecvfromOp)
  | reading (arguments : Arguments) (printed : List UInt8)
  | returned
  deriving DecidableEq, Repr

/-- The arguments that `do_complete` binds. -/
def arguments (op : RecvfromOp) : Arguments := ⟨op.ec, op.bytesTransferred, op.da⟩

namespace Operation

/-- `deregister_descriptor` cancels what is registered. -/
def abort : Operation → Operation
  | .registered op => .posted { op with ec := .operationAborted }
  | x => x

def receive : Operation → Receive
  | .registered _ => .pending
  | .posted op => .queued (UdpServer.arguments op)
  | .reading arguments printed => .reading arguments printed
  | .returned => .returned

end Operation

/-- The unicast socket with its operations.  `packets` waits in the system's socket,
and `taken` records the packets that a `recvmsg` has taken out. -/
structure Reactive where
  isOpen : Bool
  nonBlocking : Bool
  unicastRemote : Endpoint
  unicastRecvBuffer : RecvBuffer
  packets : List Packet
  operations : List Operation
  taken : List Packet
  calls : List Call

namespace Reactive

def constructed : Reactive where
  isOpen := true
  nonBlocking := false
  unicastRemote := .unspecified
  unicastRecvBuffer := .zeros maxUdpMessageSize
  packets := []
  operations := []
  taken := []
  calls := []

/-- `start_op`; `ioctl` is what `set_internal_non_blocking` reports if it is tried. -/
def startOp (ioctl : ErrorCode) (op : RecvfromOp) (s : Reactive) : Reactive :=
  if s.nonBlocking = true ∨ ioctl = .success then
    { s with nonBlocking := true, operations := s.operations ++ [.registered op] }
  else { s with operations := s.operations ++ [.posted { op with ec := ioctl }] }

def asyncReceiveFrom (ioctl : ErrorCode) (s : Reactive) : Reactive := startOp ioctl .fresh s

def receiveUnicast (ioctl : ErrorCode) (s : Reactive) : Reactive :=
  if s.isOpen then asyncReceiveFrom ioctl s else s

def start (ioctl : ErrorCode) (s : Reactive) : Reactive := s.receiveUnicast ioctl

def stop (s : Reactive) : Reactive :=
  if s.isOpen then
    { s with
      isOpen := false
      nonBlocking := false
      packets := []
      operations := s.operations.map Operation.abort }
  else s

def onUnicastReceived (i : ℕ) (arguments : Arguments) (s : Reactive) : Reactive :=
  if arguments.error ≠ .operationAborted then
    { s with operations := s.operations.set i (.reading arguments []) }
  else { s with operations := s.operations.eraseIdx i }

def onMessageReceived (i : ℕ) (arguments : Arguments) (printed : List UInt8) (s : Reactive) :
    Option Reactive :=
  if printed.length < arguments.bytes then
    match s.unicastRecvBuffer.index printed.length with
    | none => none
    | some byte =>
        some { s with operations := s.operations.set i (.reading arguments (printed ++ [byte])) }
  else
    some { s with
      operations := s.operations.set i .returned
      calls := s.calls ++ [⟨arguments, s.unicastRemote, printed⟩] }

/-- What `recvmsg` leaves of a packet in a region of the length that is passed on. -/
def fit (p : Packet) : Packet := { p with payload := p.payload.take maxUdpMessageSize }

/-- The answers to the calls of `recvmsg`: some errors, then the packet that waits. -/
def answers (errors : List ErrorCode) (s : Reactive) : List RecvMsg :=
  errors.map .failed ++ (s.packets.head?.map fun p ↦ .received (fit p)).toList

/-- The reactor performs the operation, in `start_op` or when the socket is ready. -/
def perform (i : ℕ) (errors : List ErrorCode) (s : Reactive) : Option Reactive :=
  match s.operations[i]? with
  | some (.registered op) =>
      (doPerform RecvBuffer.store (s.answers errors) op s.unicastRemote
        s.unicastRecvBuffer).map fun (done, op, remote, buffer) ↦
          let s := { s with unicastRemote := remote, unicastRecvBuffer := buffer }
          if done then
            if op.ec = .success then
              { s with
                operations := s.operations.set i (.posted op)
                taken := s.taken ++ s.packets.take 1
                packets := s.packets.drop 1 }
            else { s with operations := s.operations.set i (.posted op) }
          else { s with operations := s.operations.set i (.registered op) }
  | _ => none

inductive Action where
  | start (ioctl : ErrorCode)
  | stop
  | arrives (p : Packet)
  | perform (i : ℕ) (errors : List ErrorCode)
  | handle (i : ℕ) (ioctl : ErrorCode)
  deriving DecidableEq, Repr

def step (s : Reactive) : Action → Option Reactive
  | .start ioctl => if ioctl ≠ .operationAborted then some (s.start ioctl) else none
  | .stop => some s.stop
  | .arrives p => if s.isOpen then some { s with packets := s.packets ++ [p] } else none
  | .perform i errors =>
      if ErrorCode.success ∉ errors ∧ ErrorCode.operationAborted ∉ errors then s.perform i errors
      else none
  | .handle i ioctl =>
      match s.operations[i]? with
      | some (.posted op) => some (s.onUnicastReceived i (arguments op))
      | some (.reading arguments printed) => s.onMessageReceived i arguments printed
      | some .returned =>
          if ioctl ≠ .operationAborted then
            some (receiveUnicast ioctl { s with operations := s.operations.eraseIdx i })
          else none
      | some (.registered _) | none => none

def system : TransitionSystem Reactive Action where
  initial s := s = constructed
  step := step

/-- `start` is not called again, and no packet information is cut off. -/
def ordinary (_ : Reactive) : Action → Prop
  | .start _ => False
  | .arrives p => p.Whole
  | .stop | .perform _ _ | .handle _ _ => True

instance (s : Reactive) : (a : Action) → Decidable (ordinary s a)
  | .start _ => isFalse id
  | .arrives p => inferInstanceAs (Decidable p.Whole)
  | .stop | .perform _ _ | .handle _ _ => isTrue trivial

def Action.isStart : Action → Bool
  | .start _ => true
  | _ => false

/-- No packet information is cut off. -/
def wholePackets (_ : Reactive) : Action → Prop
  | .arrives p => p.Whole
  | .start _ | .stop | .perform _ _ | .handle _ _ => True

instance (s : Reactive) : (a : Action) → Decidable (wholePackets s a)
  | .arrives p => inferInstanceAs (Decidable p.Whole)
  | .start _ | .stop | .perform _ _ | .handle _ _ => isTrue trivial

/-! ## What is seen from outside -/

/-- The datagram that a packet is received as. -/
def datagram (p : Packet) : Datagram :=
  ⟨p.sender,
    (findDestinations Endpoint.unspecified.address p.control).getD Endpoint.unspecified.address,
    (fit p).payload⟩

/-- The server that receives atomically, in the same state.  Every receive it has
completed without error took one packet. -/
structure Shows (s : Reactive) (t : UdpServer) : Prop where
  isOpen : t.isOpen = s.isOpen
  unicastRemote : t.unicastRemote = s.unicastRemote
  unicastRecvBuffer : t.unicastRecvBuffer = s.unicastRecvBuffer
  arrived : t.arrived = s.packets.map datagram
  receives : t.receives = s.operations.map Operation.receive
  taken : (t.completed.filter fun r ↦ r.error = .success) =
    s.taken.map fun p ↦ ⟨.success, datagram p⟩
  calls : t.calls = s.calls

/-- A registered operation is as it was made, whatever was tried with it. -/
structure Sound (s : Reactive) : Prop where
  registered : ∀ op, .registered op ∈ s.operations → s.isOpen = true ∧
    op.bytesTransferred = 0 ∧ op.da = Endpoint.unspecified.address
  size : s.unicastRecvBuffer.size = maxUdpMessageSize
  whole : ∀ p ∈ s.packets, p.Whole

variable {s s' : Reactive} {t : UdpServer} {i : ℕ} {op : RecvfromOp}

theorem store_nil (b : RecvBuffer) : b.store [] = b := rfl

theorem length_fit (p : Packet) : (fit p).payload.length ≤ maxUdpMessageSize :=
  List.length_take_le _ _

theorem receive_abort (x : Operation)
    (h : ∀ op, x = .registered op → op.bytesTransferred = 0 ∧
      op.da = Endpoint.unspecified.address) :
    x.abort.receive = x.receive.abort := by
  cases x with
  | registered op =>
      obtain ⟨hbytes, hda⟩ := h op rfl
      simp [Operation.abort, Operation.receive, Receive.abort, arguments, Arguments.aborted,
        hbytes, hda]
  | posted | reading | returned => rfl

theorem Shows.getElem? (h : Shows s t) {x : Operation} (hx : s.operations[i]? = some x) :
    t.receives[i]? = some x.receive := by
  rw [h.receives, List.getElem?_map, hx, Option.map_some]

theorem Shows.set (h : Shows s t) (i : ℕ) (x : Operation) :
    t.receives.set i x.receive = (s.operations.set i x).map Operation.receive := by
  rw [h.receives, List.map_set]

theorem Shows.eraseIdx (h : Shows s t) (i : ℕ) :
    t.receives.eraseIdx i = (s.operations.eraseIdx i).map Operation.receive := by
  rw [h.receives, List.eraseIdx_map]

/-- The operation fails without having touched the buffer or the sender. -/
theorem Shows.fails (h : Shows s t) (hopen : s.isOpen = true)
    (hpending : s.operations[i]? = some (.registered op)) {error : ErrorCode}
    (hsuccess : error ≠ .success) (haborted : error ≠ .operationAborted) :
    ∃ t', UdpServer.system.Leads noStart t t' ∧
      Shows { s with operations := s.operations.set i (.posted ⟨error, 0, op.da⟩) } t' := by
  let left : Datagram := ⟨t.unicastRemote, op.da, []⟩
  have hstep : UdpServer.step t (.fails i error left) = some { t with
      receives := t.receives.set i (.queued ⟨error, 0, op.da⟩)
      completed := t.completed ++ [⟨error, left⟩] } := by
    have hreceive : t.receives[i]? = some .pending := h.getElem? hpending
    simp [UdpServer.step, hsuccess, haborted, complete, hreceive, h.isOpen, hopen, left,
      store_nil, Received.arguments]
  refine ⟨_, (Leads.refl t).snoc (a := UdpServer.Action.fails i error left) trivial hstep, ?_⟩
  refine ⟨h.isOpen, h.unicastRemote, h.unicastRecvBuffer, h.arrived, ?_, ?_, h.calls⟩
  · exact h.set i (.posted ⟨error, 0, op.da⟩)
  · simpa [hsuccess] using h.taken

/-- The operation takes the first packet. -/
theorem Shows.takes (h : Shows s t) (hsize : s.unicastRecvBuffer.size = maxUdpMessageSize)
    (hopen : s.isOpen = true) (hpending : s.operations[i]? = some (.registered op))
    {p : Packet} {rest : List Packet} (hpackets : s.packets = p :: rest) {da : Address}
    (hda : (datagram p).destination = da) :
    ∃ t', UdpServer.system.Leads noStart t t' ∧
      Shows { s with
        unicastRemote := p.sender
        unicastRecvBuffer := s.unicastRecvBuffer.store (fit p).payload
        operations := s.operations.set i (.posted ⟨.success, (fit p).payload.length, da⟩)
        taken := s.taken ++ [p]
        packets := rest } t' := by
  have harrived : t.arrived = datagram p :: rest.map datagram := by
    rw [h.arrived, hpackets, List.map_cons]
  have hstep : UdpServer.step t (.receives i) = some { t with
      arrived := rest.map datagram
      unicastRemote := p.sender
      unicastRecvBuffer := t.unicastRecvBuffer.store (fit p).payload
      receives := t.receives.set i (.queued ⟨.success, (fit p).payload.length, da⟩)
      completed := t.completed ++ [⟨.success, datagram p⟩] } := by
    have hreceive : t.receives[i]? = some .pending := h.getElem? hpending
    have hfits : (fit p).payload.length ≤ t.unicastRecvBuffer.size := by
      rw [h.unicastRecvBuffer, hsize]
      exact length_fit p
    have hdatagram : (⟨.success, datagram p⟩ : Received).arguments =
        ⟨.success, (fit p).payload.length, da⟩ := by
      rw [← hda]
      rfl
    simp only [UdpServer.step, harrived, complete, hdatagram]
    rw [if_pos ⟨hreceive, h.isOpen.trans hopen, hfits⟩]
    rfl
  refine ⟨_, (Leads.refl t).snoc (a := UdpServer.Action.receives i) trivial hstep, ?_⟩
  refine ⟨h.isOpen, rfl, ?_, rfl, ?_, ?_, h.calls⟩
  · exact congrArg (RecvBuffer.store (fit p).payload) h.unicastRecvBuffer
  · exact h.set i (.posted ⟨.success, (fit p).payload.length, da⟩)
  · simp [h.taken]

/-- A new operation is a new receive; one that cannot be started fails at once. -/
theorem Shows.receiveUnicast (h : Shows s t) {ioctl : ErrorCode}
    (haborted : ioctl ≠ .operationAborted) :
    ∃ t', UdpServer.system.Leads noStart t.receiveUnicast t' ∧
      Shows (s.receiveUnicast ioctl) t' := by
  unfold Reactive.receiveUnicast UdpServer.receiveUnicast
  by_cases hopen : s.isOpen = true
  · rw [if_pos hopen, if_pos (h.isOpen.trans hopen)]
    have harmed : Shows { s with operations := s.operations ++ [.registered .fresh] }
        { t with receives := t.receives ++ [.pending], armed := t.armed + 1 } := by
      refine ⟨h.isOpen, h.unicastRemote, h.unicastRecvBuffer, h.arrived, ?_, h.taken, h.calls⟩
      simp [h.receives, Operation.receive]
    unfold asyncReceiveFrom startOp
    split_ifs with hstarts
    · refine ⟨_, Leads.refl _, harmed.isOpen, harmed.unicastRemote, harmed.unicastRecvBuffer,
        harmed.arrived, harmed.receives, harmed.taken, harmed.calls⟩
    · have hpending : (s.operations ++ [.registered .fresh])[s.operations.length]? =
          some (.registered .fresh) := by simp
      have hfails := harmed.fails hopen hpending (not_or.mp hstarts).2 haborted
      simpa [RecvfromOp.fresh] using hfails
  · rw [if_neg hopen, if_neg (h.isOpen ▸ hopen)]
    exact ⟨t, Leads.refl t, h⟩

theorem Shows.stop (h : Shows s t) (hs : Sound s) :
    ∃ t', UdpServer.system.Leads noStart t t' ∧ Shows s.stop t' := by
  refine ⟨t.stop, (Leads.refl t).snoc (a := UdpServer.Action.stop) trivial rfl, ?_⟩
  unfold Reactive.stop UdpServer.stop
  by_cases hopen : s.isOpen = true
  · rw [if_pos hopen, if_pos (h.isOpen.trans hopen)]
    refine ⟨rfl, h.unicastRemote, h.unicastRecvBuffer, rfl, ?_, h.taken, h.calls⟩
    rw [h.receives, List.map_map, List.map_map]
    apply List.map_congr_left
    intro x hx
    refine (receive_abort x fun op hop ↦ ?_).symm
    exact (hs.registered op (hop ▸ hx)).2
  · rw [if_neg hopen, if_neg (h.isOpen ▸ hopen)]
    exact h

/-- What performing the operation `op` did. -/
inductive Tried (s : Reactive) (i : ℕ) (errors : List ErrorCode) (op : RecvfromOp) :
    Reactive → Prop
  | blocked : Tried s i errors op
      { s with operations := s.operations.set i (.registered { op with ec := wouldBlock }) }
  | failed (error : ErrorCode) (herror : error ∈ errors) : Tried s i errors op
      { s with operations := s.operations.set i (.posted ⟨error, 0, op.da⟩) }
  | received (p : Packet) (rest : List Packet) (hpackets : s.packets = p :: rest) (da : Address)
      (hda : findDestinations op.da p.control = some da) : Tried s i errors op
      { s with
        unicastRemote := p.sender
        unicastRecvBuffer := s.unicastRecvBuffer.store (fit p).payload
        operations := s.operations.set i (.posted ⟨.success, (fit p).payload.length, da⟩)
        taken := s.taken ++ [p]
        packets := rest }

variable {errors : List ErrorCode}

theorem failed_mem_answers {error : ErrorCode} (h : .failed error ∈ s.answers errors) :
    error ∈ errors := by
  rcases List.mem_append.mp h with h | h
  · obtain ⟨e, he, heq⟩ := List.mem_map.mp h
    cases heq
    exact he
  · simp at h

theorem received_mem_answers {q : Packet} (h : .received q ∈ s.answers errors) :
    ∃ p rest, s.packets = p :: rest ∧ q = fit p := by
  rcases List.mem_append.mp h with h | h
  · obtain ⟨e, _, heq⟩ := List.mem_map.mp h
    cases heq
  · cases hpackets : s.packets with
    | nil => simp [hpackets] at h
    | cons p rest =>
        refine ⟨p, rest, rfl, ?_⟩
        simpa [hpackets] using h

theorem tried_of_perform (h : s.perform i errors = some s')
    (hsuccess : ErrorCode.success ∉ errors) :
    ∃ op, s.operations[i]? = some (.registered op) ∧ Tried s i errors op s' := by
  unfold perform at h
  split at h
  · rename_i op hpending
    refine ⟨op, hpending, ?_⟩
    obtain ⟨⟨done, op', remote, buffer⟩, hperform, rfl⟩ := Option.map_eq_some_iff.mp h
    cases outcome_of_doPerform hperform with
    | blocked => exact .blocked
    | failed error hanswer hblock hretry =>
        have herror := failed_mem_answers hanswer
        have hnot : error ≠ .success := fun heq ↦ hsuccess (heq ▸ herror)
        simp only [↓reduceIte, if_neg hnot]
        exact .failed error herror
    | received q da hanswer hda =>
        obtain ⟨p, rest, hpackets, rfl⟩ := received_mem_answers hanswer
        simp only [↓reduceIte, hpackets]
        exact .received p rest hpackets da hda
  · exact absurd h (by simp)

theorem Shows.perform (h : Shows s t) (hs : Sound s) (hsuccess : ErrorCode.success ∉ errors)
    (haborted : ErrorCode.operationAborted ∉ errors) (hperform : s.perform i errors = some s') :
    ∃ t', UdpServer.system.Leads noStart t t' ∧ Shows s' t' := by
  obtain ⟨op, hpending, htried⟩ := tried_of_perform hperform hsuccess
  obtain ⟨hopen, hbytes, hda⟩ := hs.registered op (List.mem_of_getElem? hpending)
  cases htried with
  | blocked =>
      refine ⟨t, Leads.refl t, h.isOpen, h.unicastRemote, h.unicastRecvBuffer, h.arrived, ?_,
        h.taken, h.calls⟩
      have hreceive : t.receives[i]? = some .pending := h.getElem? hpending
      obtain ⟨_, hsame⟩ := List.getElem?_eq_some_iff.mp hreceive
      rw [← h.set i, Operation.receive, ← hsame, List.set_getElem_self]
  | failed error herror =>
      have hnot : error ≠ .success := fun heq ↦ hsuccess (heq ▸ herror)
      have hother : error ≠ .operationAborted := fun heq ↦ haborted (heq ▸ herror)
      exact h.fails hopen hpending hnot hother
  | received p rest hpackets da hfound =>
      apply h.takes hs.size hopen hpending hpackets
      rw [datagram, ← hda, hfound, Option.getD_some]

theorem Shows.handle (h : Shows s t) {ioctl : ErrorCode}
    (hstep : step s (.handle i ioctl) = some s') :
    ∃ t', UdpServer.system.Leads noStart t t' ∧ Shows s' t' := by
  simp only [step] at hstep
  split at hstep
  · rename_i op hqueued
    obtain rfl := Option.some.inj hstep
    have hreceive : t.receives[i]? = some (.queued (arguments op)) := h.getElem? hqueued
    have hhandle : UdpServer.step t (.handle i) =
        some (t.onUnicastReceived i (arguments op)) := by
      simp only [UdpServer.step, hreceive]
    refine ⟨_, (Leads.refl t).snoc (a := UdpServer.Action.handle i) trivial hhandle, ?_⟩
    unfold onUnicastReceived UdpServer.onUnicastReceived
    split_ifs
    · exact ⟨h.isOpen, h.unicastRemote, h.unicastRecvBuffer, h.arrived,
        h.set i (.reading _ _), h.taken, h.calls⟩
    · exact ⟨h.isOpen, h.unicastRemote, h.unicastRecvBuffer, h.arrived, h.eraseIdx i, h.taken,
        h.calls⟩
  · rename_i arguments printed hreading
    have hreceive : t.receives[i]? = some (.reading arguments printed) := h.getElem? hreading
    have hhandle : UdpServer.step t (.handle i) =
        t.onMessageReceived i arguments printed := by
      simp only [UdpServer.step, hreceive]
    unfold onMessageReceived at hstep
    unfold UdpServer.onMessageReceived at hhandle
    split_ifs at hstep hhandle with hmore
    · split at hstep
      · exact absurd hstep (by simp)
      · rename_i byte hbyte
        obtain rfl := Option.some.inj hstep
        have hindex : t.unicastRecvBuffer.index printed.length = some byte := by
          rw [h.unicastRecvBuffer, hbyte]
        simp only [hindex] at hhandle
        refine ⟨_, (Leads.refl t).snoc (a := UdpServer.Action.handle i) trivial hhandle, ?_⟩
        exact ⟨h.isOpen, h.unicastRemote, h.unicastRecvBuffer, h.arrived,
          h.set i (.reading _ _), h.taken, h.calls⟩
    · obtain rfl := Option.some.inj hstep
      refine ⟨_, (Leads.refl t).snoc (a := UdpServer.Action.handle i) trivial hhandle, ?_⟩
      refine ⟨h.isOpen, h.unicastRemote, h.unicastRecvBuffer, h.arrived, h.set i .returned,
        h.taken, ?_⟩
      rw [h.calls, h.unicastRemote]
  · rename_i hreturned
    split_ifs at hstep with haborted
    obtain rfl := Option.some.inj hstep
    have hreceive : t.receives[i]? = some .returned := h.getElem? hreturned
    have hhandle : UdpServer.step t (.handle i) =
        some (UdpServer.receiveUnicast { t with receives := t.receives.eraseIdx i }) := by
      simp only [UdpServer.step, hreceive]
    have hpopped : Shows { s with operations := s.operations.eraseIdx i }
        { t with receives := t.receives.eraseIdx i } :=
      ⟨h.isOpen, h.unicastRemote, h.unicastRecvBuffer, h.arrived, h.eraseIdx i, h.taken, h.calls⟩
    obtain ⟨t', hleads, hshows⟩ := hpopped.receiveUnicast haborted
    have hfirst : UdpServer.system.Leads noStart t
        (UdpServer.receiveUnicast { t with receives := t.receives.eraseIdx i }) :=
      (Leads.refl t).snoc (a := UdpServer.Action.handle i) trivial hhandle
    exact ⟨t', hfirst.trans hleads, hshows⟩
  · exact absurd hstep (by simp)
  · exact absurd hstep (by simp)

/-! ## Runs -/

theorem Sound.of_operations (h : Sound s) (hopen : s'.isOpen = s.isOpen)
    (hsize : s'.unicastRecvBuffer.size = s.unicastRecvBuffer.size)
    (hpackets : ∀ p ∈ s'.packets, p ∈ s.packets)
    (hoperations : ∀ op, .registered op ∈ s'.operations → .registered op ∈ s.operations ∨
      s'.isOpen = true ∧ op.bytesTransferred = 0 ∧ op.da = Endpoint.unspecified.address) :
    Sound s' := by
  refine ⟨fun op hop ↦ ?_, hsize.trans h.size, fun p hp ↦ h.whole p (hpackets p hp)⟩
  rcases hoperations op hop with hold | hnew
  · rw [hopen]
    exact h.registered op hold
  · exact hnew

theorem Sound.receiveUnicast (h : Sound s) (ioctl : ErrorCode) :
    Sound (s.receiveUnicast ioctl) := by
  unfold Reactive.receiveUnicast asyncReceiveFrom startOp
  split_ifs with hopen hstarts
  · refine h.of_operations rfl rfl (fun _ hp ↦ hp) ?_
    intro op hop
    rcases List.mem_append.mp hop with hop | hop
    · exact Or.inl hop
    · cases List.mem_singleton.mp hop
      exact Or.inr ⟨hopen, rfl, rfl⟩
  · refine h.of_operations rfl rfl (fun _ hp ↦ hp) ?_
    intro op hop
    rcases List.mem_append.mp hop with hop | hop
    · exact Or.inl hop
    · cases List.mem_singleton.mp hop
  · exact h

theorem Sound.stop (h : Sound s) : Sound s.stop := by
  unfold Reactive.stop
  split_ifs with hopen
  · refine ⟨fun op hop ↦ ?_, h.size, by simp⟩
    obtain ⟨x, _, hx⟩ := List.mem_map.mp hop
    cases x <;> cases hx
  · exact h

theorem mem_set_of_ne {xs : List Operation} {x : Operation} (hx : ∀ op, x ≠ .registered op)
    (hop : .registered op ∈ xs.set i x) : .registered op ∈ xs := by
  rcases List.mem_or_eq_of_mem_set hop with hold | heq
  · exact hold
  · exact absurd heq.symm (hx op)

theorem Sound.perform (h : Sound s) (hsuccess : ErrorCode.success ∉ errors)
    (hperform : s.perform i errors = some s') : Sound s' := by
  obtain ⟨op, hpending, htried⟩ := tried_of_perform hperform hsuccess
  have hop := h.registered op (List.mem_of_getElem? hpending)
  cases htried with
  | blocked =>
      refine h.of_operations rfl rfl (fun _ hp ↦ hp) ?_
      intro op' hop'
      rcases List.mem_or_eq_of_mem_set hop' with hold | heq
      · exact Or.inl hold
      · cases heq
        exact Or.inr hop
  | failed error _ =>
      refine h.of_operations rfl rfl (fun _ hp ↦ hp) ?_
      exact fun op' hop' ↦ Or.inl (mem_set_of_ne (by simp) hop')
  | received p rest hpackets da _ =>
      refine h.of_operations rfl rfl ?_ ?_
      · intro q hq
        rw [hpackets]
        exact List.mem_cons_of_mem p hq
      · exact fun op' hop' ↦ Or.inl (mem_set_of_ne (by simp) hop')

theorem Sound.handle (h : Sound s) {ioctl : ErrorCode}
    (hstep : step s (.handle i ioctl) = some s') : Sound s' := by
  have hset : ∀ x : Operation, (∀ op, x ≠ .registered op) → ∀ calls : List Call,
      Sound { s with operations := s.operations.set i x, calls } := fun x hx calls ↦
    h.of_operations rfl rfl (fun _ hp ↦ hp) fun op hop ↦ Or.inl (mem_set_of_ne hx hop)
  have hpop : Sound { s with operations := s.operations.eraseIdx i } :=
    h.of_operations rfl rfl (fun _ hp ↦ hp) fun op hop ↦ Or.inl (List.mem_of_mem_eraseIdx hop)
  simp only [step] at hstep
  split at hstep
  · obtain rfl := Option.some.inj hstep
    unfold onUnicastReceived
    split_ifs
    · exact hset _ (by simp) _
    · exact hpop
  · unfold onMessageReceived at hstep
    split_ifs at hstep
    · split at hstep
      · exact absurd hstep (by simp)
      · obtain rfl := Option.some.inj hstep
        exact hset _ (by simp) _
    · obtain rfl := Option.some.inj hstep
      exact hset _ (by simp) _
  · split_ifs at hstep
    obtain rfl := Option.some.inj hstep
    exact hpop.receiveUnicast ioctl
  · exact absurd hstep (by simp)
  · exact absurd hstep (by simp)

/-- The two levels in step with each other. -/
def Refines (s : Reactive) (t : UdpServer) : Prop := Shows s t ∧ Sound s

theorem refines_step {a : Action} (h : Refines s t) (hordinary : ordinary s a)
    (hstep : step s a = some s') :
    ∃ t', UdpServer.system.Leads noStart t t' ∧ Refines s' t' := by
  obtain ⟨hshows, hsound⟩ := h
  cases a with
  | start => exact absurd hordinary id
  | stop =>
      obtain rfl := Option.some.inj hstep
      obtain ⟨t', hleads, hshows⟩ := hshows.stop hsound
      exact ⟨t', hleads, hshows, hsound.stop⟩
  | arrives p =>
      simp only [step] at hstep
      split_ifs at hstep with hopen
      obtain rfl := Option.some.inj hstep
      have harrives : UdpServer.step t (.arrives (datagram p)) =
          some { t with arrived := t.arrived ++ [datagram p] } :=
        if_pos (hshows.isOpen.trans hopen)
      refine ⟨_, (Leads.refl t).snoc (a := UdpServer.Action.arrives (datagram p)) trivial harrives,
        ?_, ?_⟩
      · refine ⟨hshows.isOpen, hshows.unicastRemote, hshows.unicastRecvBuffer, ?_,
          hshows.receives, hshows.taken, hshows.calls⟩
        simp [hshows.arrived]
      · refine ⟨hsound.registered, hsound.size, fun q hq ↦ ?_⟩
        rcases List.mem_append.mp hq with hold | hnew
        · exact hsound.whole q hold
        · rw [List.mem_singleton.mp hnew]
          exact hordinary
  | perform i errors =>
      simp only [step] at hstep
      split_ifs at hstep with herrors
      obtain ⟨t', hleads, hnew⟩ := hshows.perform hsound herrors.1 herrors.2 hstep
      exact ⟨t', hleads, hnew, hsound.perform herrors.1 hstep⟩
  | handle i ioctl =>
      obtain ⟨t', hleads, hnew⟩ := hshows.handle hstep
      exact ⟨t', hleads, hnew, hsound.handle hstep⟩

theorem refines_constructed : Refines constructed UdpServer.constructed := by
  refine ⟨⟨rfl, rfl, rfl, rfl, rfl, rfl, rfl⟩, ?_, rfl, ?_⟩
  · intro op hop
    exact absurd hop List.not_mem_nil
  · intro p hp
    exact absurd hp List.not_mem_nil

variable {s₀ s₁ : Reactive} {ioctl : ErrorCode}

theorem refines_start (h : Refines s t) (hstep : step s (.start ioctl) = some s') :
    ∃ t', UdpServer.system.Leads noStart t.start t' ∧ Refines s' t' := by
  simp only [step] at hstep
  split_ifs at hstep with haborted
  obtain rfl := Option.some.inj hstep
  obtain ⟨t', hleads, hshows⟩ := h.1.receiveUnicast haborted
  exact ⟨t', hleads, hshows, h.2.receiveUnicast ioctl⟩

theorem refines_of_started (hbefore : system.Reachable ordinary s₀)
    (hstart : system.step s₀ (.start ioctl) = some s₁) (hafter : system.Leads ordinary s₁ s) :
    ∃ t₀ t, UdpServer.system.Reachable noStart t₀ ∧ UdpServer.system.Leads noStart t₀.start t ∧
      Refines s t := by
  obtain ⟨_, rfl, hleads⟩ := hbefore
  have hanswer : ∀ s a s' t, Refines s t → ordinary s a → system.step s a = some s' →
      ∃ t', UdpServer.system.Leads noStart t t' ∧ Refines s' t' :=
    fun _ _ _ _ h hordinary hstep ↦ refines_step h hordinary hstep
  obtain ⟨t₀, ht₀, hbegun⟩ := hleads.simulated hanswer refines_constructed
  obtain ⟨t₁, ht₁, hstarted⟩ := refines_start hbegun hstart
  obtain ⟨t, ht, hrefines⟩ := hafter.simulated hanswer hstarted
  exact ⟨t₀, t, ⟨_, rfl, ht₀⟩, ht₁.trans ht, hrefines⟩

theorem ordinary_of_wholePackets {a : Action} (h : wholePackets s a) (ha : a.isStart = false) :
    ordinary s a := by
  cases a with
  | start => simp [Action.isStart] at ha
  | arrives => exact h
  | stop | perform | handle => exact trivial

/-- The steps of a run without `start`, none of which is one. -/
theorem exists_run_noStart {t t' : UdpServer} (h : UdpServer.system.Leads noStart t t') :
    ∃ bs, UdpServer.system.run anyStep bs t = some t' ∧ bs.count .start = 0 := by
  have hother : ∀ (t : UdpServer) a, noStart t a → a ≠ .start := by
    rintro t a ha rfl
    exact ha
  obtain ⟨bs, hbs, hrun⟩ := h.exists_run hother
  exact ⟨bs, hrun, List.count_eq_zero.mpr fun hmem ↦ hbs _ hmem rfl⟩

/-- A `start` is answered by one, any other step by none. -/
theorem refines_run_one {a : Action} (h : Refines s t) (hwhole : wholePackets s a)
    (hstep : step s a = some s') :
    ∃ bs t', UdpServer.system.run anyStep bs t = some t' ∧
      bs.count .start = (if a.isStart then 1 else 0) ∧ Refines s' t' := by
  cases a with
  | start ioctl =>
      obtain ⟨t', hleads, hrefines⟩ := refines_start h hstep
      obtain ⟨bs, hbs, hnone⟩ := exists_run_noStart hleads
      have hstart : UdpServer.system.run anyStep [.start] t = some t.start := rfl
      refine ⟨[.start] ++ bs, t', run_append hstart hbs, ?_, hrefines⟩
      rw [List.count_append, hnone]
      rfl
  | stop | arrives | perform | handle =>
      have hordinary := ordinary_of_wholePackets hwhole rfl
      obtain ⟨t', hleads, hrefines⟩ := refines_step h hordinary hstep
      obtain ⟨bs, hbs, hnone⟩ := exists_run_noStart hleads
      exact ⟨bs, t', hbs, hnone, hrefines⟩

theorem refines_run {as : List Action} (h : Refines s t)
    (hrun : system.run wholePackets as s = some s') :
    ∃ bs t', UdpServer.system.run anyStep bs t = some t' ∧
      bs.count .start = as.countP Action.isStart ∧ Refines s' t' := by
  induction as generalizing s t with
  | nil =>
      cases Option.some.inj hrun
      exact ⟨[], t, rfl, rfl, h⟩
  | cons a as ih =>
      obtain ⟨u, hwhole, hstep, hrest⟩ := run_cons hrun
      obtain ⟨bs, v, hbs, hone, hv⟩ := refines_run_one h hwhole hstep
      obtain ⟨cs, t', hcs, hmany, ht'⟩ := ih hv hrest
      refine ⟨bs ++ cs, t', run_append hbs hcs, ?_, ht'⟩
      rw [List.count_append, List.countP_cons, hone, hmany, Nat.add_comm]

/-- Every run on the bundled operations, with all the attempts that the reactor makes
in vain, is a run in which receiving is one step and `start` is called as often, as long
as no packet information is cut off. -/
theorem receives_are_atomic {as : List Action}
    (h : system.run wholePackets as constructed = some s) :
    ∃ bs t, UdpServer.system.run anyStep bs UdpServer.constructed = some t ∧
      bs.count .start = as.countP Action.isStart ∧ Shows s t := by
  obtain ⟨bs, t, hbs, hcount, hshows, _⟩ := refines_run refines_constructed h
  exact ⟨bs, t, hbs, hcount, hshows⟩

def packet (payload : List UInt8) : Packet :=
  ⟨sender, [⟨1, 2, [0]⟩, packetInfo (.replicate 4 0) (.replicate 4 0) 0xc0a80002#32], payload⟩

/-- After two calls of `start` the second operation overwrites what the first one has
received, after one attempt in vain and one that is interrupted. -/
def startedTwice : List Action :=
  [.start .success, .start .success, .perform 0 [wouldBlock], .arrives (packet [7, 8]),
    .perform 0 [interrupted], .arrives (packet [9]), .perform 1 [], .handle 0 .success,
    .handle 0 .success, .handle 0 .success, .handle 0 .success]

theorem receives_are_atomic_twice :
    ∃ (s : Reactive) (bs : List UdpServer.Action) (t : UdpServer),
      s.calls = [⟨⟨.success, 2, .v4 0xc0a80002#32⟩, sender, [9, 8]⟩] ∧
      UdpServer.system.run anyStep bs UdpServer.constructed = some t ∧
      bs.count .start = 2 ∧ Shows s t := by
  have hrun : ∃ s, system.run wholePackets startedTwice constructed = some s ∧
      s.calls = [⟨⟨.success, 2, .v4 0xc0a80002#32⟩, sender, [9, 8]⟩] := ⟨_, rfl, rfl⟩
  obtain ⟨s, hs, hcalls⟩ := hrun
  obtain ⟨bs, t, hbs, hcount, hshows⟩ := receives_are_atomic hs
  exact ⟨s, bs, t, hcalls, hbs, hcount, hshows⟩

/-! ## Delivery -/

/-- The call that hands a packet over. -/
def handedOver (p : Packet) : Call := Received.call ⟨.success, datagram p⟩

theorem serves_of_started {t₀ : UdpServer} (hbefore : UdpServer.system.Reachable noStart t₀)
    (hafter : UdpServer.system.Leads noStart t₀.start t) : Serves t := by
  have hidle := idle_of_reachable hbefore
  apply hafter.invariant (fun _ _ _ hs hno hstep ↦ hs.step hno hstep)
  apply serves_receiveUnicast hidle.receives
  rw [AllDelivered, hidle.completed, hidle.calls, List.map_nil]

theorem length_receives_of_serves (h : Serves t) : t.receives.length ≤ 1 := by
  cases h <;> simp [*]

/-- All that was completed has been handed over, but for the last one. -/
theorem waiting_of_serves (h : Serves t) : ∃ waiting : List Received, waiting.length ≤ 1 ∧
    t.completed.map Received.call = t.calls ++ waiting.map Received.call := by
  have hall : AllDelivered t → ∃ waiting : List Received, waiting.length ≤ 1 ∧
      t.completed.map Received.call = t.calls ++ waiting.map Received.call :=
    fun hall ↦ ⟨[], by simp, by simpa using hall.symm⟩
  have hlast : ∀ r, Last t r → ∃ waiting : List Received, waiting.length ≤ 1 ∧
      t.completed.map Received.call = t.calls ++ waiting.map Received.call := by
    intro r hr
    obtain ⟨earlier, hcompleted, hcalls⟩ := hr.completed
    exact ⟨[r], by simp, by simp [hcompleted, hcalls]⟩
  cases h with
  | silent _ _ h | pending _ _ h | returned _ h => exact hall h
  | aborted _ _ _ _ h => exact hall h
  | queued r _ h => exact hlast r h
  | reading r _ _ h _ => exact hlast r h

theorem Shows.delivered (h : Shows s t) (hserves : Serves t) :
    ∃ handed waiting, s.taken = handed ++ waiting ∧ waiting.length ≤ 1 ∧
      (s.calls.filter fun c ↦ c.arguments.error = .success) = handed.map handedOver := by
  obtain ⟨waiting, hone, hcalls⟩ := waiting_of_serves hserves
  have htaken : s.taken.map handedOver =
      (t.calls.filter fun c ↦ c.arguments.error = .success) ++
        (waiting.filter fun r ↦ r.error = .success).map Received.call := by
    calc s.taken.map handedOver
        = (t.completed.filter fun r ↦ r.error = .success).map Received.call := by
          rw [h.taken, List.map_map]
          rfl
      _ = (t.completed.map Received.call).filter fun c ↦ c.arguments.error = .success := by
          rw [List.filter_map]
          rfl
      _ = _ := by
          rw [hcalls, List.filter_append, List.filter_map]
          rfl
  obtain ⟨handed, last, hsplit, hhanded, hlast⟩ := List.map_eq_append_iff.mp htaken
  refine ⟨handed, last, hsplit, ?_, by rw [hhanded, h.calls]⟩
  have hlength := congrArg List.length hlast
  have hfilter := List.length_filter_le (fun r : Received ↦ decide (r.error = .success)) waiting
  rw [List.length_map, List.length_map] at hlength
  omega

/-- However often it is interrupted, the next attempt takes the packet that waits. -/
theorem Sound.perform_received (h : Sound s) {p : Packet} {rest : List Packet}
    (hpackets : s.packets = p :: rest) (hpending : s.operations[i]? = some (.registered op))
    (n : ℕ) : ∃ s', s.perform i (List.replicate n interrupted) = some s' ∧
      s'.taken = s.taken ++ [p] ∧ s'.packets = rest := by
  have hp : p ∈ s.packets := hpackets ▸ List.mem_cons_self
  obtain ⟨da, hda⟩ := Option.isSome_iff_exists.mp
    ((findDestinations_isSome_iff op.da).mpr (h.whole p hp))
  have hanswers : s.answers (List.replicate n interrupted) =
      List.replicate n (.failed interrupted) ++ [.received (fit p)] := by
    simp [answers, hpackets]
  have hperform : doPerform RecvBuffer.store (s.answers (List.replicate n interrupted)) op
      s.unicastRemote s.unicastRecvBuffer = some (true, ⟨.success, (fit p).payload.length, da⟩,
        p.sender, s.unicastRecvBuffer.store (fit p).payload) := by
    have hfit : findDestinations op.da (fit p).control = some da := hda
    rw [hanswers]
    exact doPerform_received hfit n
  refine ⟨_, by simp only [Reactive.perform, hpending, hperform, Option.map_some]; rfl, ?_⟩
  exact ⟨by simp [hpackets], by simp [hpackets]⟩

/-- Of a server that is started once, on the bundled operations, too,
`on_message_received` is called once for each packet that was taken off the socket, in
their order, with its bytes, its sender and the address in its last packet information,
none of which was cut off; only the last one may still wait for its call.  A registered
operation has taken nothing, and interruptions do not make it miss a packet. -/
theorem packets_delivered (hbefore : system.Reachable ordinary s₀)
    (hstart : system.step s₀ (.start ioctl) = some s₁) (hafter : system.Leads ordinary s₁ s) :
    (∃ handed waiting, s.taken = handed ++ waiting ∧ waiting.length ≤ 1 ∧
      (s.calls.filter fun c ↦ c.arguments.error = .success) = handed.map handedOver) ∧
    s.operations.length ≤ 1 ∧
    ∀ op p rest, s.operations = [.registered op] → s.packets = p :: rest → ∀ n,
      ∃ s', system.step s (.perform 0 (List.replicate n interrupted)) = some s' ∧
        s'.taken = s.taken ++ [p] ∧ s'.packets = rest := by
  obtain ⟨t₀, t, hreachable, hleads, hshows, hsound⟩ := refines_of_started hbefore hstart hafter
  have hserves := serves_of_started hreachable hleads
  refine ⟨hshows.delivered hserves, ?_, ?_⟩
  · have hlength := length_receives_of_serves hserves
    rwa [hshows.receives, List.length_map] at hlength
  · intro op p rest hoperations hpackets n
    have hpending : s.operations[0]? = some (.registered op) := by simp [hoperations]
    have herrors : ErrorCode.success ∉ List.replicate n interrupted ∧
        ErrorCode.operationAborted ∉ List.replicate n interrupted := by
      simp [List.mem_replicate, interrupted]
    simp only [system, step, if_pos herrors]
    exact hsound.perform_received hpackets hpending n

/-- The first packet has been handed over and the second one waits. -/
theorem packets_delivered_twice : ∃ s : Reactive, s.taken = [packet [7], packet [8]] ∧
    s.operations.length ≤ 1 ∧ ∃ handed waiting, s.taken = handed ++ waiting ∧
      waiting.length ≤ 1 ∧
      (s.calls.filter fun c ↦ c.arguments.error = .success) = handed.map handedOver := by
  have hrun : ∃ s, system.run ordinary
      [.arrives (packet [7]), .arrives (packet [8]), .perform 0 [interrupted],
        .handle 0 .success, .handle 0 .success, .handle 0 .success, .handle 0 .success,
        .perform 0 []]
      (constructed.start .success) = some s ∧ s.taken = [packet [7], packet [8]] :=
    ⟨_, rfl, rfl⟩
  obtain ⟨s, hs, htaken⟩ := hrun
  have hstart : system.step constructed (.start .success) = some (constructed.start .success) :=
    rfl
  have h := packets_delivered (Reachable.initial rfl) hstart (leads_of_run hs)
  exact ⟨s, htaken, h.2.1, h.1⟩

end Reactive

end UdpServer

end DoipEndpoint
