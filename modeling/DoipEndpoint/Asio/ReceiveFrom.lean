import DoipEndpoint.Asio.PacketInfo

/-!
# Receiving one datagram

`socket_ops::recvfrom` of the bundled extension, the loop around it that tries again
after an interrupted call, and `do_perform` of the operation that the reactor keeps.
What the operating system answers to each `recvmsg` is a list.
-/

namespace DoipEndpoint

namespace Asio

def interrupted : ErrorCode := .other 4

/-- `EWOULDBLOCK`; `try_again` is the same number. -/
def wouldBlock : ErrorCode := .other 11

/-- A datagram with the control messages that come with it. -/
structure Packet where
  sender : Endpoint
  control : List ControlMessage
  payload : List UInt8
  deriving DecidableEq, Repr

def Packet.Whole (p : Packet) : Prop := ∀ c ∈ p.control, c.Whole

instance (p : Packet) : Decidable p.Whole :=
  inferInstanceAs (Decidable (∀ c ∈ p.control, c.Whole))

inductive RecvMsg where
  | received (p : Packet)
  | failed (error : ErrorCode)
  deriving DecidableEq, Repr

/-- What `recvfrom` is passed by reference: `ec`, `da`, the sender's address and the
buffer. -/
structure Target (β : Type*) where
  ec : ErrorCode
  da : Address
  addr : Endpoint
  buffer : β

/-- The members of the reactor's operation, which `do_perform` passes on. -/
structure RecvfromOp where
  ec : ErrorCode
  bytesTransferred : ℕ
  da : Address
  deriving DecidableEq, Repr

def RecvfromOp.fresh : RecvfromOp := ⟨.success, 0, Endpoint.unspecified.address⟩

variable {β : Type*} (store : List UInt8 → β → β)

def recvfrom (answer : RecvMsg) (x : Target β) : Option (ℤ × Target β) :=
  match answer with
  | .failed error => some (-1, { x with ec := error })
  | .received p =>
      (findDestinations x.da p.control).map fun da ↦
        (p.payload.length, ⟨.success, da, p.sender, store p.payload x.buffer⟩)

/-- `none` while the system has not answered the last call. -/
def nonBlockingRecvfrom : List RecvMsg → ℕ → Target β → Option (Bool × ℕ × Target β)
  | [], _, _ => none
  | answer :: answers, bytesTransferred, x =>
      (recvfrom store answer x).bind fun (bytes, x) ↦
        if x.ec = interrupted then nonBlockingRecvfrom answers bytesTransferred x
        else if x.ec = wouldBlock then some (false, bytesTransferred, x)
        else if 0 ≤ bytes then some (true, bytes.toNat, { x with ec := .success })
        else some (true, 0, x)

/-- Whether the operation is done, and what it and the referenced objects hold. -/
def doPerform (answers : List RecvMsg) (op : RecvfromOp) (addr : Endpoint) (buffer : β) :
    Option (Bool × RecvfromOp × Endpoint × β) :=
  (nonBlockingRecvfrom store answers op.bytesTransferred ⟨op.ec, op.da, addr, buffer⟩).map
    fun (done, bytesTransferred, x) ↦ (done, ⟨x.ec, bytesTransferred, x.da⟩, x.addr, x.buffer)

/-- The three ways out of the loop. -/
inductive Outcome (answers : List RecvMsg) (op : RecvfromOp) (addr : Endpoint) (buffer : β) :
    Bool → RecvfromOp → Endpoint → β → Prop
  | blocked : Outcome answers op addr buffer false { op with ec := wouldBlock } addr buffer
  | failed (error : ErrorCode) (hanswer : .failed error ∈ answers)
      (hblock : error ≠ wouldBlock) (hretry : error ≠ interrupted) :
      Outcome answers op addr buffer true { op with ec := error, bytesTransferred := 0 } addr buffer
  | received (p : Packet) (da : Address) (hanswer : .received p ∈ answers)
      (hda : findDestinations op.da p.control = some da) :
      Outcome answers op addr buffer true ⟨.success, p.payload.length, da⟩ p.sender
        (store p.payload buffer)

variable {store} {answers : List RecvMsg} {op op' : RecvfromOp} {addr addr' : Endpoint}
  {buffer buffer' : β} {done : Bool}

theorem Outcome.cons (answer : RecvMsg) {e : ErrorCode}
    (h : Outcome store answers { op with ec := e } addr buffer done op' addr' buffer') :
    Outcome store (answer :: answers) op addr buffer done op' addr' buffer' := by
  cases h with
  | blocked => exact .blocked
  | failed error hanswer hblock hretry =>
      exact .failed error (List.mem_cons_of_mem _ hanswer) hblock hretry
  | received p da hanswer hda => exact .received p da (List.mem_cons_of_mem _ hanswer) hda

/-- An interrupted call is made again, and nothing is stored before the last one. -/
theorem outcome_of_doPerform
    (h : doPerform store answers op addr buffer = some (done, op', addr', buffer')) :
    Outcome store answers op addr buffer done op' addr' buffer' := by
  induction answers generalizing op with
  | nil => simp [doPerform, nonBlockingRecvfrom] at h
  | cons answer answers ih =>
      cases answer with
      | failed error =>
          by_cases hretry : error = interrupted
          · apply Outcome.cons (e := error)
            apply ih
            simpa [doPerform, nonBlockingRecvfrom, recvfrom, hretry] using h
          · by_cases hblock : error = wouldBlock
            · have hnot : wouldBlock ≠ interrupted := by decide
              simp only [doPerform, nonBlockingRecvfrom, recvfrom, hblock, Option.bind_some,
                if_neg hnot, ↓reduceIte, Option.map_some, Option.some.injEq,
                Prod.mk.injEq] at h
              obtain ⟨rfl, rfl, rfl, rfl⟩ := h
              exact .blocked
            · simp only [doPerform, nonBlockingRecvfrom, recvfrom, Option.bind_some,
                if_neg hretry, if_neg hblock, Int.reduceNeg, Int.reduceLE, ↓reduceIte,
                Option.map_some, Option.some.injEq, Prod.mk.injEq] at h
              obtain ⟨rfl, rfl, rfl, rfl⟩ := h
              exact .failed error List.mem_cons_self hblock hretry
      | received p =>
          cases hda : findDestinations op.da p.control with
          | none => simp [doPerform, nonBlockingRecvfrom, recvfrom, hda] at h
          | some da =>
              have hretry : ErrorCode.success ≠ interrupted := by decide
              have hblock : ErrorCode.success ≠ wouldBlock := by decide
              simp only [doPerform, nonBlockingRecvfrom, recvfrom, hda, Option.map_some,
                Option.bind_some, if_neg hretry, if_neg hblock, Int.natCast_nonneg,
                ↓reduceIte, Int.toNat_natCast, Option.some.injEq, Prod.mk.injEq] at h
              obtain ⟨rfl, rfl, rfl, rfl⟩ := h
              exact .received p da List.mem_cons_self hda

/-- However often the call is interrupted, a packet that is there is received. -/
theorem doPerform_received {p : Packet} {da : Address}
    (hda : findDestinations op.da p.control = some da) (n : ℕ) :
    doPerform store (List.replicate n (.failed interrupted) ++ [.received p]) op addr buffer =
      some (true, ⟨.success, p.payload.length, da⟩, p.sender, store p.payload buffer) := by
  induction n generalizing op with
  | zero =>
      have hretry : ErrorCode.success ≠ interrupted := by decide
      have hblock : ErrorCode.success ≠ wouldBlock := by decide
      simp [doPerform, nonBlockingRecvfrom, recvfrom, hda, hretry, hblock]
  | succ n ih =>
      have hagain : doPerform store (List.replicate n (.failed interrupted) ++ [.received p])
          { op with ec := interrupted } addr buffer =
            some (true, ⟨.success, p.payload.length, da⟩, p.sender, store p.payload buffer) :=
        ih hda
      simpa [doPerform, List.replicate_succ, nonBlockingRecvfrom, recvfrom] using hagain

/-- `recvfrom` reads inside the control messages exactly if no packet information is cut
off.  Then the destination that it reports is the one the last packet information was
written for, whatever other messages there are and whatever `da` held before. -/
theorem recvfrom_received (p : Packet) (x : Target β) :
    ((recvfrom store (.received p) x).isSome = true ↔ p.Whole) ∧
      ∀ before c after a, p.control = before ++ c :: after → p.Whole → c.Informs a →
        (∀ c ∈ after, ¬c.IsPacketInfo) →
          recvfrom store (.received p) x =
            some ((p.payload.length : ℤ), ⟨.success, a, p.sender, store p.payload x.buffer⟩) := by
  constructor
  · rw [recvfrom, Option.isSome_map]
    exact findDestinations_isSome_iff x.da
  · intro before c after a hcontrol hwhole hinforms hafter
    have hbefore : ∀ c ∈ before, c.Whole := by
      intro c hc
      apply hwhole
      rw [hcontrol]
      exact List.mem_append_left _ hc
    have hlast := findDestinations_last hbefore hinforms hafter x.da
    rw [recvfrom, hcontrol, hlast, Option.map_some]

/-- A time stamp, IPv4 and then IPv6 packet information, and a time stamp. -/
theorem recvfrom_received_both (x : Target (List UInt8)) :
    let control : List ControlMessage := [⟨1, 29, [1]⟩, packetInfo (.replicate 4 0) (.replicate 4 0)
      0xc0a80002#32, packetInfo6 (.replicate 4 2) 0xff020001#128, ⟨1, 29, [2]⟩]
    recvfrom (fun data _ ↦ data) (.received ⟨default, control, [7]⟩) x =
      some (1, ⟨.success, .v6 0xff020001#128 0#32, default, [7]⟩) :=
  (recvfrom_received ⟨default, _, [7]⟩ x).2 [⟨1, 29, [1]⟩, packetInfo (.replicate 4 0)
    (.replicate 4 0) 0xc0a80002#32] _ [⟨1, 29, [2]⟩] _ rfl (by decide)
    (.v6 (.replicate 4 2) 0xff020001#128) (by decide)

end Asio

end DoipEndpoint
