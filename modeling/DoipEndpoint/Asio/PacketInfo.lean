import DoipEndpoint.Asio.Basic
import Mathlib.Algebra.Group.Nat.Defs
import Mathlib.Data.List.Infix

/-!
# The destination of a datagram

The loop of the bundled `socket_ops::recvfrom` over the control messages that came
with a datagram.  The destination is in the packet information of either address
family, in network byte order.
-/

namespace DoipEndpoint

namespace Asio

/-- A `cmsghdr` with its data. -/
structure ControlMessage where
  level : ℕ
  type : ℕ
  data : List UInt8
  deriving DecidableEq, Repr

def ipprotoIp : ℕ := 0

def ipPktinfo : ℕ := 8

def ipprotoIpv6 : ℕ := 41

def ipv6Pktinfo : ℕ := 50

/-- The most significant byte comes first. -/
def ofNetworkOrder (bytes : List UInt8) : ℕ := bytes.foldl (fun n byte ↦ 256 * n + byte.toNat) 0

/-- The last `k` bytes of `n`, as they are sent. -/
def toNetworkOrder : ℕ → ℕ → List UInt8
  | 0, _ => []
  | k + 1, n => toNetworkOrder k (n / 256) ++ [UInt8.ofNat n]

@[simp] theorem length_toNetworkOrder (k n : ℕ) : (toNetworkOrder k n).length = k := by
  induction k generalizing n with
  | zero => rfl
  | succ k ih => simp [toNetworkOrder, ih]

theorem ofNetworkOrder_toNetworkOrder (k n : ℕ) :
    ofNetworkOrder (toNetworkOrder k n) = n % 256 ^ k := by
  induction k generalizing n with
  | zero => simp [toNetworkOrder, ofNetworkOrder, Nat.mod_one]
  | succ k ih =>
      have hshift : ofNetworkOrder (toNetworkOrder (k + 1) n) =
          256 * ofNetworkOrder (toNetworkOrder k (n / 256)) + n % 256 := by
        simp [toNetworkOrder, ofNetworkOrder]
      rw [hshift, ih, pow_succ', Nat.mod_mul, Nat.add_comm]

namespace ControlMessage

/-- A member of the structure at the start of the data; `none` where it reaches
beyond what the message holds. -/
def field (offset size : ℕ) (c : ControlMessage) : Option (List UInt8) :=
  if offset + size ≤ c.data.length then some ((c.data.drop offset).take size) else none

/-- `ipi_addr` comes after the interface index and `ipi_spec_dst`. -/
def inPktinfoAddr (c : ControlMessage) : Option Address :=
  (c.field 8 4).map fun bytes ↦ .v4 (BitVec.ofNat 32 (ofNetworkOrder bytes))

/-- `ipi6_addr` comes first; the interface index after it is not read. -/
def in6PktinfoAddr (c : ControlMessage) : Option Address :=
  (c.field 0 16).map fun bytes ↦ .v6 (BitVec.ofNat 128 (ofNetworkOrder bytes)) 0#32

end ControlMessage

/-- One iteration of the loop of `recvfrom`. -/
def findDestination (da : Address) (c : ControlMessage) : Option Address :=
  if c.level = ipprotoIp ∧ c.type = ipPktinfo then c.inPktinfoAddr
  else if c.level = ipprotoIpv6 ∧ c.type = ipv6Pktinfo then c.in6PktinfoAddr
  else some da

/-- The loop; `none` if it reads beyond a message. -/
def findDestinations (da : Address) (control : List ControlMessage) : Option Address :=
  control.foldlM findDestination da

/-! ## What the operating system writes -/

def packetInfo (interface specDst : Vector UInt8 4) (address : BitVec 32) : ControlMessage :=
  ⟨ipprotoIp, ipPktinfo, interface.toList ++ specDst.toList ++ toNetworkOrder 4 address.toNat⟩

def packetInfo6 (interface : Vector UInt8 4) (address : BitVec 128) : ControlMessage :=
  ⟨ipprotoIpv6, ipv6Pktinfo, toNetworkOrder 16 address.toNat ++ interface.toList⟩

namespace ControlMessage

/-- The packet information that was written for a datagram to `a`. -/
inductive Informs : ControlMessage → Address → Prop
  | v4 (interface specDst : Vector UInt8 4) (bits : BitVec 32) :
      Informs (packetInfo interface specDst bits) (.v4 bits)
  | v6 (interface : Vector UInt8 4) (bits : BitVec 128) :
      Informs (packetInfo6 interface bits) (.v6 bits 0#32)

def IsPacketInfo (c : ControlMessage) : Prop :=
  (c.level = ipprotoIp ∧ c.type = ipPktinfo) ∨ (c.level = ipprotoIpv6 ∧ c.type = ipv6Pktinfo)

instance (c : ControlMessage) : Decidable c.IsPacketInfo := inferInstanceAs (Decidable (_ ∨ _))

/-- The end of the control buffer does not cut the message off before the address. -/
def Whole (c : ControlMessage) : Prop :=
  (c.level = ipprotoIp ∧ c.type = ipPktinfo → 12 ≤ c.data.length) ∧
    (c.level = ipprotoIpv6 ∧ c.type = ipv6Pktinfo → 16 ≤ c.data.length)

instance (c : ControlMessage) : Decidable c.Whole := inferInstanceAs (Decidable (_ ∧ _))

variable {c : ControlMessage} {a da : Address}

theorem findDestination_of_informs (h : c.Informs a) : findDestination da c = some a := by
  cases h with
  | v4 interface specDst bits =>
      have hindex : interface.toList.drop 8 = [] := List.drop_eq_nil_of_le (by simp)
      have hbytes : (packetInfo interface specDst bits).field 8 4 =
          some (toNetworkOrder 4 bits.toNat) := by
        simp [packetInfo, field, List.drop_append, hindex]
      have hbits : BitVec.ofNat 32 (bits.toNat % 256 ^ 4) = bits := by
        have hlt : bits.toNat < 256 ^ 4 := bits.isLt
        rw [Nat.mod_eq_of_lt hlt, BitVec.ofNat_toNat, BitVec.setWidth_eq]
      rw [findDestination, if_pos ⟨rfl, rfl⟩, inPktinfoAddr, hbytes, Option.map_some,
        ofNetworkOrder_toNetworkOrder, hbits]
  | v6 interface bits =>
      have hbytes : (packetInfo6 interface bits).field 0 16 =
          some (toNetworkOrder 16 bits.toNat) := by
        simp [packetInfo6, field]
      have hbits : BitVec.ofNat 128 (bits.toNat % 256 ^ 16) = bits := by
        have hlt : bits.toNat < 256 ^ 16 := bits.isLt
        rw [Nat.mod_eq_of_lt hlt, BitVec.ofNat_toNat, BitVec.setWidth_eq]
      have hnot : ¬((packetInfo6 interface bits).level = ipprotoIp ∧
          (packetInfo6 interface bits).type = ipPktinfo) := by
        simp [packetInfo6, ipprotoIpv6, ipprotoIp]
      rw [findDestination, if_neg hnot, if_pos ⟨rfl, rfl⟩, in6PktinfoAddr, hbytes,
        Option.map_some, ofNetworkOrder_toNetworkOrder, hbits]

theorem findDestination_of_not (h : ¬c.IsPacketInfo) : findDestination da c = some da := by
  obtain ⟨h4, h6⟩ := not_or.mp h
  rw [findDestination, if_neg h4, if_neg h6]

/-- An iteration reads inside the message unless the message is cut off. -/
theorem findDestination_isSome_iff (da : Address) :
    (findDestination da c).isSome = true ↔ c.Whole := by
  unfold findDestination
  split_ifs with h4 h6
  · simp [Whole, h4, inPktinfoAddr, field, ipprotoIp, ipprotoIpv6]
  · simp [Whole, h6, in6PktinfoAddr, field, ipprotoIp, ipprotoIpv6]
  · simp [Whole, h4, h6]

end ControlMessage

variable {control before after : List ControlMessage} {c : ControlMessage} {a : Address}

theorem findDestinations_cons (da : Address) (c : ControlMessage)
    (control : List ControlMessage) : findDestinations da (c :: control) =
      (findDestination da c).bind fun d ↦ findDestinations d control :=
  List.foldlM_cons

theorem findDestinations_of_none (h : ∀ c ∈ control, ¬c.IsPacketInfo) (da : Address) :
    findDestinations da control = some da := by
  induction control with
  | nil => rfl
  | cons c control ih =>
      obtain ⟨hc, hrest⟩ := List.forall_mem_cons.mp h
      rw [findDestinations_cons, ControlMessage.findDestination_of_not hc]
      exact ih hrest

/-- The loop reads inside the messages exactly if none is cut off. -/
theorem findDestinations_isSome_iff (da : Address) :
    (findDestinations da control).isSome = true ↔ ∀ c ∈ control, c.Whole := by
  induction control generalizing da with
  | nil => simp [findDestinations]
  | cons c control ih =>
      rw [findDestinations_cons, List.forall_mem_cons,
        ← ControlMessage.findDestination_isSome_iff da]
      cases findDestination da c with
      | none => simp
      | some d => simp [ih d]

theorem findDestinations_append (da : Address) (before after : List ControlMessage) :
    findDestinations da (before ++ after) =
      (findDestinations da before).bind fun d ↦ findDestinations d after :=
  List.foldlM_append

/-- The destination is the address in the last packet information, whatever came
before it and whatever other messages surround it. -/
theorem findDestinations_last (hbefore : ∀ c ∈ before, c.Whole) (hinforms : c.Informs a)
    (hafter : ∀ c ∈ after, ¬c.IsPacketInfo) (da : Address) :
    findDestinations da (before ++ c :: after) = some a := by
  obtain ⟨b, hb⟩ := Option.isSome_iff_exists.mp ((findDestinations_isSome_iff da).mpr hbefore)
  rw [findDestinations_append, hb, Option.bind_some, findDestinations_cons,
    ControlMessage.findDestination_of_informs hinforms, Option.bind_some]
  exact findDestinations_of_none hafter a

end Asio

end DoipEndpoint
