import Mathlib.Algebra.Group.Nat.Defs
import Mathlib.Data.Nat.Basic
import Mathlib.Order.Lattice

/-!
# Receive buffers

`message_buffer_t` is a `std::vector<byte_t>`.  Both TCP classes prepare it in
the same way before they hand a region of it to `async_receive`; the common
part of the two `receive` functions is `MessageBuffer.prepare`.
-/

namespace DoipEndpoint

/-- `message_buffer_t`: the elements and the capacity of the vector. -/
structure MessageBuffer where
  bytes : List UInt8
  capacity : ℕ
  fits : bytes.length ≤ capacity
  deriving DecidableEq, Repr

namespace MessageBuffer

def size (b : MessageBuffer) : ℕ := b.bytes.length

def zeros (n : ℕ) : MessageBuffer where
  bytes := List.replicate n 0
  capacity := n
  fits := by simp

/-- `reserve(n)`: growth gives exactly the requested capacity. -/
def reserve (n : ℕ) (b : MessageBuffer) : MessageBuffer where
  bytes := b.bytes
  capacity := max b.capacity n
  fits := b.fits.trans (le_max_left _ _)

def resize (n : ℕ) (b : MessageBuffer) : MessageBuffer where
  bytes := b.bytes.take n ++ List.replicate (n - b.bytes.length) 0
  capacity := max b.capacity n
  fits := by
    have h := b.fits
    simp only [List.length_append, List.length_take, List.length_replicate]
    omega

def shrinkToFit (b : MessageBuffer) : MessageBuffer where
  bytes := b.bytes
  capacity := b.bytes.length
  fits := le_refl _

def clear (b : MessageBuffer) : MessageBuffer where
  bytes := []
  capacity := b.capacity
  fits := Nat.zero_le _

/-- What a completed receive does to the elements from `offset` on.  A region
that leaves the vector is undefined behaviour; the vector is then unchanged. -/
def store (offset : ℕ) (data : List UInt8) (b : MessageBuffer) : MessageBuffer :=
  if h : offset + data.length ≤ b.bytes.length then
    { bytes := b.bytes.take offset ++ data ++ b.bytes.drop (offset + data.length)
      capacity := b.capacity
      fits := by
        have hb := b.fits
        simp only [List.length_append, List.length_take, List.length_drop]
        omega }
  else b

@[simp] theorem size_zeros (n : ℕ) : (zeros n).size = n := by simp [size, zeros]

@[simp] theorem capacity_zeros (n : ℕ) : (zeros n).capacity = n := rfl

@[simp] theorem size_store (offset : ℕ) (data : List UInt8) (b : MessageBuffer) :
    (b.store offset data).size = b.size := by
  unfold store
  split
  · simp only [size, List.length_append, List.length_take, List.length_drop]
    omega
  · rfl

@[simp] theorem capacity_store (offset : ℕ) (data : List UInt8) (b : MessageBuffer) :
    (b.store offset data).capacity = b.capacity := by
  unfold store
  split <;> rfl

theorem take_store {data : List UInt8} {b : MessageBuffer} (h : data.length ≤ b.size) :
    (b.store 0 data).bytes.take data.length = data := by
  have hle : data.length ≤ b.bytes.length := h
  simp [store, hle]

/-- `MESSAGE_SIZE_UNLIMITED`, the largest `std::uint32_t`. -/
def messageSizeUnlimited : ℕ := 2 ^ 32 - 1

/-- How a `receive` function leaves the buffer; a `region` of `length` bytes
behind the received ones goes to `async_receive`. -/
inductive Prepared where
  | exceedsMaximum
  | threw
  | region (buffer : MessageBuffer) (length shrinkCount : ℕ)
  deriving DecidableEq, Repr

/-- The body of the `try` block of both `receive` functions.  `grows` tells
whether a needed reallocation succeeds. -/
def prepare (recvBufferSizeInitial bufferShrinkThreshold shrinkCount : ℕ) (grows : Bool)
    (recvBufferSize missingCapacity : ℕ) (b : MessageBuffer) : Prepared :=
  if missingCapacity ≠ 0 then
    if messageSizeUnlimited < missingCapacity then .exceedsMaximum
    else if b.capacity < recvBufferSize + missingCapacity then
      if grows then
        .region ((b.reserve (recvBufferSize + missingCapacity)).resize
          (recvBufferSize + missingCapacity)) missingCapacity shrinkCount
      else .threw
    else .region b missingCapacity shrinkCount
  else if bufferShrinkThreshold ≠ 0 ∧ bufferShrinkThreshold < shrinkCount ∧
      recvBufferSize = 0 then
    .region (b.resize recvBufferSizeInitial).shrinkToFit recvBufferSizeInitial 0
  else .region b (b.capacity - recvBufferSize) shrinkCount

theorem prepare_zero (initial threshold shrinkCount : ℕ) (grows : Bool)
    (recvBufferSize : ℕ) (b : MessageBuffer) :
    ∃ buffer length count, b.prepare initial threshold shrinkCount grows recvBufferSize 0 =
      .region buffer length count := by
  unfold prepare
  simp only [ne_eq, not_true_eq_false, ↓reduceIte]
  split <;> exact ⟨_, _, _, rfl⟩

/-- Below the shrink threshold such a receive reuses the buffer as it is. -/
theorem prepare_reuse {initial threshold shrinkCount : ℕ} (grows : Bool)
    (recvBufferSize : ℕ) (b : MessageBuffer) (h : shrinkCount ≤ threshold) :
    b.prepare initial threshold shrinkCount grows recvBufferSize 0 =
      .region b (b.capacity - recvBufferSize) shrinkCount := by
  have hn : ¬(threshold ≠ 0 ∧ threshold < shrinkCount ∧ recvBufferSize = 0) :=
    fun hc ↦ absurd hc.2.1 (not_lt.mpr h)
  simp only [prepare, ne_eq, not_true_eq_false, ↓reduceIte]
  rw [if_neg hn]

end MessageBuffer

end DoipEndpoint
