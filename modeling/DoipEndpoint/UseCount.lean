import DoipEndpoint.SaturatingCounter
import Mathlib.Data.UInt

/-!
# The use count of an endpoint

`endpoint_impl` adds a counter to every endpoint.  It is a saturating counter
of 2^32 values that starts at whatever its memory held, because no constructor
initialises it.
-/

namespace DoipEndpoint

/-- `endpoint_impl`, of which only `use_count_` matters to the manager. -/
structure EndpointImpl where
  useCount : UInt32
  deriving DecidableEq, Repr

namespace EndpointImpl

open SaturatingCounter

/-- A `std::atomic` that no constructor initialises keeps what the memory held. -/
def constructed (memory : UInt32) : EndpointImpl := ⟨memory⟩

def incrementUseCount (e : EndpointImpl) : EndpointImpl := { e with useCount := e.useCount + 1 }

def decrementUseCount (e : EndpointImpl) : EndpointImpl :=
  if 0 < e.useCount then { e with useCount := e.useCount - 1 } else e

def getUseCount (e : EndpointImpl) : UInt32 := e.useCount

/-- One call of `increment_use_count` or `decrement_use_count`. -/
def call : Call → EndpointImpl → EndpointImpl
  | .increment => incrementUseCount
  | .decrement => decrementUseCount

theorem toNat_getUseCount_call (c : Call) (e : EndpointImpl) :
    (e.call c).getUseCount.toNat = SaturatingCounter.call (2 ^ 32) c e.getUseCount.toNat := by
  cases c with
  | increment => exact UInt32.toNat_add e.useCount 1
  | decrement =>
      change (decrementUseCount e).useCount.toNat = e.useCount.toNat - 1
      unfold decrementUseCount
      by_cases hpos : 0 < e.useCount
      · have hone : (1 : UInt32) ≤ e.useCount := by
          rw [UInt32.le_iff_toNat_le]
          rw [UInt32.lt_iff_toNat_lt] at hpos
          exact hpos
        rw [if_pos hpos, UInt32.toNat_sub_of_le _ _ hone]
        rfl
      · rw [if_neg hpos]
        rw [UInt32.lt_iff_toNat_lt] at hpos
        have hzero : e.useCount.toNat = 0 := Nat.eq_zero_of_not_pos hpos
        omega

end EndpointImpl

end DoipEndpoint
