import DoipEndpoint.Asio.Basic
import Mathlib.Algebra.Group.Nat.Defs

/-!
# The composed write

`async_write` asks its completion condition how much it may offer, starts one
`async_write_some`, and goes on with what is left when that has completed.
-/

namespace DoipEndpoint

namespace Asio

/-- An `async_write` and how much of its message it has transferred. -/
structure Write where
  message : List UInt8
  transferred : ℕ
  size_lt : message.length < 2 ^ 32
  transferred_le : transferred ≤ message.length
  deriving DecidableEq, Repr

/-- An `async_write_some` that was given at most `maxSize` bytes. -/
structure WriteSome where
  write : Write
  maxSize : ℕ
  deriving DecidableEq, Repr

structure Transfer where
  write : Write
  error : ErrorCode
  bytes : ℕ
  fits : write.transferred + bytes ≤ write.message.length
  deriving DecidableEq, Repr

namespace Write

def start (message : List UInt8) (h : message.length < 2 ^ 32) : Write :=
  ⟨message, 0, h, Nat.zero_le _⟩

def rest (w : Write) : List UInt8 := w.message.drop w.transferred

@[simp] theorem start_rest (message : List UInt8) (h : message.length < 2 ^ 32) :
    (start message h).rest = message := rfl

theorem length_rest (w : Write) : w.rest.length = w.message.length - w.transferred :=
  List.length_drop

end Write

namespace WriteSome

def offered (w : WriteSome) : List UInt8 := w.write.rest.take w.maxSize

theorem length_offered_le (w : WriteSome) :
    w.write.transferred + w.offered.length ≤ w.write.message.length := by
  have hle : w.offered.length ≤ w.write.rest.length := List.length_take_le' _ _
  have hrest := w.write.length_rest
  have htransferred := w.write.transferred_le
  omega

/-- The first `n` of the offered bytes were taken. -/
def transfer (w : WriteSome) (n : ℕ) (h : n ≤ w.offered.length) : Transfer :=
  ⟨w.write, .success, n, by have := w.length_offered_le; omega⟩

def fail (w : WriteSome) (error : ErrorCode) : Transfer :=
  ⟨w.write, error, 0, w.write.transferred_le⟩

end WriteSome

namespace Transfer

def consumed (t : Transfer) : Write :=
  ⟨t.write.message, t.write.transferred + t.bytes, t.write.size_lt, t.fits⟩

theorem consumed_rest (t : Transfer) : t.consumed.rest = t.write.rest.drop t.bytes := by
  simp [consumed, Write.rest, List.drop_drop]

/-- The composed write ends here without asking its completion condition. -/
def ends (t : Transfer) : Bool :=
  (t.error = .success && t.bytes = 0) || t.consumed.rest.isEmpty

/-- Without an error, some of the message is left. -/
def continues (t : Transfer) : Bool := t.error = .success && !t.ends

theorem rest_ne_nil_of_continues {t : Transfer} (h : t.continues = true) :
    t.consumed.rest ≠ [] := by
  intro hrest
  simp [continues, ends, hrest] at h

end Transfer

theorem WriteSome.fail_continues (w : WriteSome) {error : ErrorCode} (h : error ≠ .success) :
    (w.fail error).continues = false := by
  simp [fail, Transfer.continues, h]

theorem WriteSome.transfer_continues {w : WriteSome} (hall : w.offered = w.write.rest) {n : ℕ}
    (h : n ≤ w.offered.length) :
    (w.transfer n h).continues = true ↔ 0 < n ∧ n < w.offered.length := by
  rw [hall] at h ⊢
  simp only [Transfer.continues, Transfer.ends, Transfer.consumed_rest, transfer]
  simp [Nat.pos_iff_ne_zero]
  exact fun _ ↦ decide_eq_false_iff_not

end Asio

end DoipEndpoint
