import Mathlib.Data.Prod.Lex
import Mathlib.Tactic.Common

/-!
# Error codes and endpoints

The part of Asio's vocabulary that the endpoints inspect: the error codes they
compare with, and the addresses that key the server's connection table.
-/

namespace DoipEndpoint

/-- `boost::system::error_code`, with a name for each value that the source
compares with; `success` is the code that converts to `false`. -/
inductive ErrorCode where
  | success
  | operationAborted
  | brokenPipe
  | notConnected
  | badDescriptor
  | noPermission
  | destinationAddressRequired
  | connectionRefused
  | connectionReset
  | alreadyOpen
  | invalidArgument
  | noDescriptors
  | eof
  | timedOut
  | other (value : ℕ)
  deriving DecidableEq, Repr

structure Completion where
  error : ErrorCode
  bytes : ℕ
  deriving DecidableEq, Repr

inductive Address where
  | v4 (bits : BitVec 32)
  | v6 (bits : BitVec 128) (scopeId : BitVec 32)
  deriving DecidableEq, Repr

structure Endpoint where
  address : Address
  port : UInt16
  deriving DecidableEq, Repr

namespace Endpoint

/-- The value-initialised endpoint: the unspecified IPv4 address, port 0. -/
def unspecified : Endpoint := ⟨.v4 0#32, 0⟩

instance : Inhabited Endpoint := ⟨unspecified⟩

/-- IPv4 endpoints come before IPv6 ones, then addresses, scopes and ports are
compared as unsigned numbers. -/
def key (e : Endpoint) : ℕ ×ₗ ℕ ×ₗ ℕ ×ₗ ℕ :=
  match e.address with
  | .v4 bits => toLex (0, toLex (bits.toNat, toLex (0, e.port.toNat)))
  | .v6 bits scopeId => toLex (1, toLex (bits.toNat, toLex (scopeId.toNat, e.port.toNat)))

theorem key_injective : Function.Injective key := by
  rintro ⟨a, p⟩ ⟨b, q⟩ h
  cases a <;> cases b <;>
    simp_all [key, Prod.ext_iff, UInt16.toNat_inj, BitVec.toNat_inj]

/-- `basic_endpoint::operator<`. -/
instance : LinearOrder Endpoint := LinearOrder.lift' key key_injective

instance : Std.LawfulEqOrd Endpoint := ⟨fun h ↦ compare_eq_iff_eq.mp h⟩

end Endpoint

end DoipEndpoint
