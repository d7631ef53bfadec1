import DoipEndpoint.Region
import DoipEndpoint.Server.Quiet

/-!
# The receive regions of a server connection

The capacity of `recv_buffer_` stays in use through growth and shrinking.  A growth
that throws empties the buffer, but it also closes the socket of the connection, which
is never opened again.
-/

namespace DoipEndpoint

namespace Server

open TransitionSystem MessageBuffer

/-- `std::vector::max_size`, above which `reserve` always throws. -/
def maxSize : ℕ := 2 ^ 63 - 1

namespace Connection

def constructed (recvBufferSizeInitial : ℕ) : Connection :=
  { Connection.create with
    recvBufferSizeInitial := recvBufferSizeInitial
    recvBuffer := .zeros recvBufferSizeInitial }

/-- `connection::receive` as far as it concerns the connection itself, with the region
that it hands to `async_receive`. -/
def receiveRegion (bufferShrinkThreshold : ℕ) (grows : Bool) (k : Connection) :
    Connection × Option Region :=
  if k.isOpen then
    match k.recvBuffer.prepare k.recvBufferSizeInitial bufferShrinkThreshold k.shrinkCount grows
        k.recvBufferSize k.missingCapacity with
    | .exceedsMaximum => (k, none)
    | .threw =>
        ({ k with recvBuffer := k.recvBuffer.clear, isOpen := false, incoming := [] }, none)
    | .region buffer length shrinkCount =>
        ({ k with recvBuffer := buffer, missingCapacity := 0, shrinkCount := shrinkCount },
          some ⟨k.recvBufferSize, length⟩)
  else (k, none)

theorem constructed_headerSize : constructed headerSize = .create := rfl

/-- `receive` does this to its connection and arms a receive for that region. -/
theorem receive_eq_receiveRegion (grows : Bool) (c : ℕ) (s : Server) :
    (receive grows c s).connection c =
        ((s.connection c).receiveRegion bufferShrinkThreshold grows).1 ∧
      (receive grows c s).operations.map Operation.handler =
        s.operations.map Operation.handler ++
          ((s.connection c).receiveRegion bufferShrinkThreshold grows).2.toList.map
            fun r ↦ .receiveCbk c r.offset r.length := by
  simp only [receive, receiveRegion]
  split_ifs with hopen
  · generalize (s.connection c).recvBuffer.prepare (s.connection c).recvBufferSizeInitial
      bufferShrinkThreshold (s.connection c).shrinkCount grows (s.connection c).recvBufferSize
      (s.connection c).missingCapacity = p
    cases p with
    | exceedsMaximum => simp
    | threw =>
        have hclosed := sameTable_closeSocket c
          (s.update c { s.connection c with recvBuffer := (s.connection c).recvBuffer.clear })
        simp only [handleRecvBufferException, removeConnection_eq]
        constructor
        · simp [closeSocket, hopen]
        · exact hclosed.handlers.trans (List.append_nil _).symm
    | region buffer length shrinkCount => simp [issue]
  · simp

end Connection

/-! ## Calls -/

/-- One call of `connection::receive` with the members that it finds.  Nothing is
assumed about how they were set, and `contents` is what the buffer holds. -/
structure Call where
  contents : List UInt8
  recvBufferSize : ℕ
  missingCapacity : ℕ
  shrinkCount : ℕ
  bufferShrinkThreshold : ℕ
  grows : Bool
  deriving DecidableEq, Repr

namespace Call

/-- The members are of their types, and no vector grows beyond `max_size`. -/
def Admissible (x : Call) (k : Connection) : Prop :=
  x.contents.length = k.recvBuffer.size ∧ x.recvBufferSize ≤ k.recvBuffer.size ∧
    x.missingCapacity < 2 ^ 32 ∧ x.shrinkCount < 2 ^ 32 ∧ x.bufferShrinkThreshold < 2 ^ 32 ∧
    (x.grows = true → x.recvBufferSize + x.missingCapacity ≤ maxSize)

instance (x : Call) (k : Connection) : Decidable (x.Admissible k) :=
  inferInstanceAs (Decidable (_ ∧ _))

def enter (x : Call) (k : Connection) : Connection :=
  { k with
    recvBuffer := k.recvBuffer.store 0 x.contents
    recvBufferSize := x.recvBufferSize
    missingCapacity := x.missingCapacity
    shrinkCount := x.shrinkCount }

def run (x : Call) (k : Connection) : Connection × Option Region :=
  (x.enter k).receiveRegion x.bufferShrinkThreshold x.grows

def Throws (x : Call) (k : Connection) : Prop :=
  k.isOpen = true ∧ Lacks x.recvBufferSize x.missingCapacity (x.enter k).recvBuffer ∧
    x.grows = false

instance (x : Call) (k : Connection) : Decidable (x.Throws k) :=
  inferInstanceAs (Decidable (_ ∧ _))

end Call

/-- The calls on one connection that was constructed, and accepted or not. -/
def receiving : TransitionSystem Connection Call where
  initial k := ∃ recvBufferSizeInitial isOpen, recvBufferSizeInitial < 2 ^ 32 ∧
    k = { Connection.constructed recvBufferSizeInitial with isOpen := isOpen }
  step k x := if x.Admissible k then some (x.run k).1 else none

/-- What one call guarantees. -/
structure Within (x : Call) (k : Connection) : Prop where
  noUnderflow : x.recvBufferSize ≤ (x.enter k).recvBuffer.capacity
  noWrap : x.recvBufferSize + x.missingCapacity < 2 ^ 64
  region : ∀ r ∈ (x.run k).2, r.offset = x.recvBufferSize ∧
    r.offset + r.length ≤ (x.run k).1.recvBuffer.size ∧
    (x.missingCapacity ≠ 0 → r.length = x.missingCapacity)
  full : (x.run k).2.isSome = true →
    (x.run k).1.recvBuffer.size = (x.run k).1.recvBuffer.capacity ∧
    k.recvBufferSizeInitial ≤ (x.run k).1.recvBuffer.size
  kept : ¬x.Throws k →
    (x.run k).1.recvBuffer.bytes.take x.recvBufferSize = x.contents.take x.recvBufferSize
  thrown : x.Throws k → (x.run k).1.recvBuffer.bytes = [] ∧ (x.run k).2 = none ∧
    ∀ k', receiving.Leads anyStep (x.run k).1 k' → ∀ y : Call, (y.run k').2 = none

/-- The buffer of an open connection is in use, and no buffer is too large. -/
structure Ready (k : Connection) : Prop where
  bounded : k.recvBuffer.size ≤ maxSize
  full : k.isOpen = true → k.recvBuffer.Full
  initial : k.isOpen = true → k.recvBufferSizeInitial ≤ k.recvBuffer.size

variable {x : Call} {k : Connection}

/-! ## One call -/

theorem bytes_enter (hx : x.Admissible k) : (x.enter k).recvBuffer.bytes = x.contents := by
  have hlength : x.contents.length = k.recvBuffer.bytes.length := hx.1
  simp [Call.enter, store, hlength]

theorem size_enter (x : Call) (k : Connection) :
    (x.enter k).recvBuffer.size = k.recvBuffer.size := size_store 0 x.contents k.recvBuffer

theorem Ready.enter (h : Ready k) (x : Call) : Ready (x.enter k) := by
  refine ⟨?_, fun hopen ↦ (h.full hopen).store 0 x.contents, fun hopen ↦ ?_⟩
  · rw [size_enter]
    exact h.bounded
  · rw [size_enter]
    exact h.initial hopen

inductive Runs (x : Call) (k : Connection) : Connection × Option Region → Prop
  | closed (hopen : k.isOpen = false) : Runs x k (x.enter k, none)
  | threw (h : x.Throws k) : Runs x k ({ x.enter k with
      recvBuffer := (x.enter k).recvBuffer.clear, isOpen := false, incoming := [] }, none)
  | armed (hopen : k.isOpen = true) (hnot : ¬x.Throws k) (buffer : MessageBuffer)
      (length count : ℕ)
      (hprepares : Prepares k.recvBufferSizeInitial x.bufferShrinkThreshold x.shrinkCount x.grows
        x.recvBufferSize x.missingCapacity (x.enter k).recvBuffer (.region buffer length count)) :
      Runs x k ({ x.enter k with
        recvBuffer := buffer, missingCapacity := 0, shrinkCount := count },
        some ⟨x.recvBufferSize, length⟩)

theorem runs (hx : x.Admissible k) : Runs x k (x.run k) := by
  have hprepares := prepares k.recvBufferSizeInitial x.bufferShrinkThreshold x.shrinkCount x.grows
    x.recvBufferSize x.missingCapacity (x.enter k).recvBuffer
  cases hopen : k.isOpen with
  | false =>
      have hrun : x.run k = (x.enter k, none) := by
        simp [Call.run, Connection.receiveRegion, Call.enter, hopen]
      rw [hrun]
      exact .closed hopen
  | true =>
      have hrun : x.run k = match (x.enter k).recvBuffer.prepare k.recvBufferSizeInitial
          x.bufferShrinkThreshold x.shrinkCount x.grows x.recvBufferSize x.missingCapacity with
        | .exceedsMaximum => (x.enter k, none)
        | .threw => ({ x.enter k with
            recvBuffer := (x.enter k).recvBuffer.clear, isOpen := false, incoming := [] }, none)
        | .region buffer length count => ({ x.enter k with
            recvBuffer := buffer, missingCapacity := 0, shrinkCount := count },
            some ⟨x.recvBufferSize, length⟩) := by
        simp [Call.run, Connection.receiveRegion, Call.enter, hopen]
      rw [hrun]
      generalize (x.enter k).recvBuffer.prepare k.recvBufferSizeInitial x.bufferShrinkThreshold
        x.shrinkCount x.grows x.recvBufferSize x.missingCapacity = p at hprepares ⊢
      cases hprepares with
      | exceeds h =>
          have hmissing := hx.2.2.1
          unfold messageSizeUnlimited at h
          omega
      | threw hlacks hgrows => exact .threw ⟨hopen, hlacks, hgrows⟩
      | grew hlacks hgrows =>
          refine .armed hopen (fun h ↦ ?_) _ _ _ (.grew hlacks hgrows)
          exact absurd (h.2.2.symm.trans hgrows) (by simp)
      | fitted hmissing hcapacity =>
          refine .armed hopen (fun h ↦ ?_) _ _ _ (.fitted hmissing hcapacity)
          exact absurd h.2.1.2 (not_lt.mpr hcapacity)
      | shrank hshrinks =>
          exact .armed hopen (fun h ↦ h.2.1.1 hshrinks.1) _ _ _ (.shrank hshrinks)
      | reused hmissing hshrinks =>
          exact .armed hopen (fun h ↦ h.2.1.1 hmissing) _ _ _ (.reused hmissing hshrinks)

/-! ## Runs -/

theorem run_closed (x : Call) (hclosed : k.isOpen = false) :
    (x.run k).2 = none ∧ (x.run k).1.isOpen = false := by
  simp [Call.run, Connection.receiveRegion, Call.enter, hclosed]

theorem silent_of_leads {k' : Connection} (h : receiving.Leads anyStep k k')
    (hclosed : k.isOpen = false) (y : Call) : (y.run k').2 = none := by
  have hclosed' : k'.isOpen = false := by
    refine h.invariant (I := fun k ↦ k.isOpen = false) ?_ hclosed
    intro k x t hk _ hstep
    simp only [receiving] at hstep
    split_ifs at hstep
    obtain rfl := Option.some.inj hstep
    exact (run_closed x hk).2
  exact (run_closed y hclosed').1

theorem Ready.within (h : Ready k) (hx : x.Admissible k) : Within x k := by
  have henter := h.enter x
  have hsize : x.recvBufferSize ≤ (x.enter k).recvBuffer.size := by
    rw [size_enter]
    exact hx.2.1
  have hwrap : x.recvBufferSize + x.missingCapacity < 2 ^ 64 := by
    have hbounded := h.bounded
    have hle := hx.2.1
    have hmissing := hx.2.2.1
    unfold maxSize at hbounded
    omega
  have hunderflow := hsize.trans (size_le_capacity _)
  have hruns := runs hx
  generalize hrun : x.run k = out at hruns
  cases hruns with
  | closed hopen =>
      refine ⟨hunderflow, hwrap, ?_, ?_, ?_, fun hthrows ↦ ?_⟩
      · simp [hrun]
      · simp [hrun]
      · intro _
        rw [hrun, bytes_enter hx]
      · exact absurd hthrows.1 (by simp [hopen])
  | threw hthrows =>
      refine ⟨hunderflow, hwrap, ?_, ?_, fun hnot ↦ absurd hthrows hnot, fun _ ↦ ?_⟩
      · simp [hrun]
      · simp [hrun]
      · rw [hrun]
        exact ⟨rfl, rfl, fun k' hk' y ↦ silent_of_leads hk' rfl y⟩
  | armed hopen hnot buffer length count hprepares =>
      obtain ⟨hfull, hinitial, hregion, hlength, hbytes⟩ :=
        hprepares.region_within (henter.full hopen) (henter.initial hopen) hsize
      refine ⟨hunderflow, hwrap, ?_, ?_, fun _ ↦ ?_, fun hthrows ↦ absurd hthrows hnot⟩
      · rw [hrun]
        intro r hr
        cases Option.some.inj hr
        exact ⟨rfl, hregion, hlength⟩
      · rw [hrun]
        exact fun _ ↦ ⟨hfull, hinitial⟩
      · rw [hrun, ← bytes_enter hx]
        exact hbytes

theorem Ready.run (h : Ready k) (hx : x.Admissible k) : Ready (x.run k).1 := by
  have henter := h.enter x
  have hruns := runs hx
  generalize x.run k = out at hruns
  cases hruns with
  | closed => exact henter
  | threw =>
      refine ⟨Nat.zero_le _, fun hopen ↦ ?_, fun hopen ↦ ?_⟩ <;> simp at hopen
  | armed hopen _ buffer length count hprepares =>
      have hsize : x.recvBufferSize ≤ (x.enter k).recvBuffer.size := by
        rw [size_enter]
        exact hx.2.1
      obtain ⟨hfull, hinitial, _, _, _⟩ :=
        hprepares.region_within (henter.full hopen) (henter.initial hopen) hsize
      refine ⟨?_, fun _ ↦ hfull, fun _ ↦ hinitial⟩
      cases hprepares with
      | grew _ hgrows =>
          simp only [size_grown]
          exact hx.2.2.2.2.2 hgrows
      | fitted => exact henter.bounded
      | shrank =>
          simp only [size_shrinkToFit, size_resize]
          exact (henter.initial hopen).trans henter.bounded
      | reused => exact henter.bounded

theorem ready_of_reachable (h : receiving.Reachable anyStep k) : Ready k := by
  apply h.invariant (I := Ready)
  · rintro k ⟨n, isOpen, hn, rfl⟩
    refine ⟨?_, fun _ ↦ full_zeros n, fun _ ↦ (size_zeros n).ge⟩
    simp only [Connection.constructed, size_zeros, maxSize]
    omega
  · intro k x t hk _ hstep
    simp only [receiving] at hstep
    split_ifs at hstep with hx
    obtain rfl := Option.some.inj hstep
    exact hk.run hx

/-- Whatever the members are before each call, every region is inside the buffer, the
buffer is in use again after each call that arms a receive, a call whose growth does
not throw keeps the received bytes, and one whose growth throws empties the buffer and
is the last that could have armed a receive. -/
theorem receive_within (h : receiving.Reachable anyStep k) (hx : x.Admissible k) :
    Within x k :=
  (ready_of_reachable h).within hx

def opened : Connection := { Connection.constructed headerSize with isOpen := true }

theorem reachable_opened : receiving.Reachable anyStep opened :=
  Reachable.initial ⟨headerSize, true, by decide, rfl⟩

/-- Two bytes have been received and four more are missing. -/
theorem receive_within_grown : ((Call.mk [1, 2, 0, 0] 2 4 0 0 true).run opened).2 = some ⟨2, 4⟩ ∧
    Within (.mk [1, 2, 0, 0] 2 4 0 0 true) opened :=
  ⟨rfl, receive_within reachable_opened (by decide)⟩

/-- The growth throws, and the byte that had been received is gone. -/
theorem received_lost : ¬∀ (k : Connection) (x : Call), receiving.Reachable anyStep k →
    x.Admissible k →
    (x.run k).1.recvBuffer.bytes.take x.recvBufferSize = x.contents.take x.recvBufferSize := by
  intro h
  have hkept := h opened (.mk [1, 0, 0, 0] 1 100 0 0 false) reachable_opened (by decide)
  exact absurd hkept (by decide)

end Server

end DoipEndpoint
