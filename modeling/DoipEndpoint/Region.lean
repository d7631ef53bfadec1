import DoipEndpoint.Buffer
import Mathlib.Tactic.Cases

/-!
# The region of a receive

`receive` computes the length of the region from the capacity of the buffer, but
only its size bounds the elements.  Growth and shrinking make the two equal, and
every other call hands out what it finds.
-/

namespace DoipEndpoint

/-- `boost::asio::buffer(&recv_buffer_[offset], length)`. -/
structure Region where
  offset : ℕ
  length : ℕ
  deriving DecidableEq, Repr

namespace MessageBuffer

@[simp] theorem size_reserve (n : ℕ) (b : MessageBuffer) : (b.reserve n).size = b.size := rfl

@[simp] theorem capacity_reserve (n : ℕ) (b : MessageBuffer) :
    (b.reserve n).capacity = max b.capacity n := rfl

@[simp] theorem size_resize (n : ℕ) (b : MessageBuffer) : (b.resize n).size = n := by
  simp only [size, resize, List.length_append, List.length_take, List.length_replicate]
  omega

@[simp] theorem capacity_resize (n : ℕ) (b : MessageBuffer) :
    (b.resize n).capacity = max b.capacity n := rfl

@[simp] theorem size_shrinkToFit (b : MessageBuffer) : b.shrinkToFit.size = b.size := rfl

@[simp] theorem capacity_shrinkToFit (b : MessageBuffer) : b.shrinkToFit.capacity = b.size := rfl

@[simp] theorem size_clear (b : MessageBuffer) : b.clear.size = 0 := rfl

@[simp] theorem capacity_clear (b : MessageBuffer) : b.clear.capacity = b.capacity := rfl

theorem size_le_capacity (b : MessageBuffer) : b.size ≤ b.capacity := b.fits

theorem take_resize {k n : ℕ} {b : MessageBuffer} (hk : k ≤ b.size) (hn : k ≤ n) :
    (b.resize n).bytes.take k = b.bytes.take k := by
  have hlength : k ≤ (b.bytes.take n).length := by
    rw [List.length_take]
    exact le_min hn hk
  change (b.bytes.take n ++ _).take k = _
  rw [List.take_append_of_le_length hlength, List.take_take, min_eq_left hn]

/-- All of the capacity is in use. -/
def Full (b : MessageBuffer) : Prop := b.size = b.capacity

instance (b : MessageBuffer) : Decidable b.Full := inferInstanceAs (Decidable (_ = _))

theorem full_zeros (n : ℕ) : (zeros n).Full := size_zeros n

theorem Full.store {b : MessageBuffer} (h : b.Full) (offset : ℕ) (data : List UInt8) :
    (b.store offset data).Full := by
  rw [Full, size_store, capacity_store]
  exact h

theorem full_shrinkToFit (b : MessageBuffer) : b.shrinkToFit.Full := rfl

def grown (n : ℕ) (b : MessageBuffer) : MessageBuffer := (b.reserve n).resize n

@[simp] theorem size_grown (n : ℕ) (b : MessageBuffer) : (b.grown n).size = n := size_resize n _

theorem full_grown {n : ℕ} {b : MessageBuffer} (h : b.capacity ≤ n) : (b.grown n).Full := by
  rw [Full, grown, size_resize, capacity_resize, capacity_reserve]
  omega

theorem take_grown {k n : ℕ} {b : MessageBuffer} (hk : k ≤ b.size) (hn : k ≤ n) :
    (b.grown n).bytes.take k = b.bytes.take k :=
  take_resize (b := b.reserve n) hk hn

section Prepare

variable (initial threshold shrinkCount : ℕ) (grows : Bool) (recvBufferSize missingCapacity : ℕ)
  (b : MessageBuffer)

def Lacks : Prop := missingCapacity ≠ 0 ∧ b.capacity < recvBufferSize + missingCapacity

def Shrinks : Prop := missingCapacity = 0 ∧ threshold ≠ 0 ∧ threshold < shrinkCount ∧
  recvBufferSize = 0

instance : Decidable (Lacks recvBufferSize missingCapacity b) :=
  inferInstanceAs (Decidable (_ ∧ _))

instance : Decidable (Shrinks threshold shrinkCount recvBufferSize missingCapacity) :=
  inferInstanceAs (Decidable (_ ∧ _))

/-- What the `try` block of `receive` makes of the buffer. -/
inductive Prepares : Prepared → Prop
  | exceeds (h : messageSizeUnlimited < missingCapacity) : Prepares .exceedsMaximum
  | threw (hlacks : Lacks recvBufferSize missingCapacity b) (hgrows : grows = false) :
      Prepares .threw
  | grew (hlacks : Lacks recvBufferSize missingCapacity b) (hgrows : grows = true) :
      Prepares (.region (b.grown (recvBufferSize + missingCapacity)) missingCapacity shrinkCount)
  | fitted (hmissing : missingCapacity ≠ 0)
      (hcapacity : recvBufferSize + missingCapacity ≤ b.capacity) :
      Prepares (.region b missingCapacity shrinkCount)
  | shrank (hshrinks : Shrinks threshold shrinkCount recvBufferSize missingCapacity) :
      Prepares (.region (b.resize initial).shrinkToFit initial 0)
  | reused (hmissing : missingCapacity = 0)
      (hshrinks : ¬Shrinks threshold shrinkCount recvBufferSize missingCapacity) :
      Prepares (.region b (b.capacity - recvBufferSize) shrinkCount)

theorem prepares : Prepares initial threshold shrinkCount grows recvBufferSize missingCapacity b
    (b.prepare initial threshold shrinkCount grows recvBufferSize missingCapacity) := by
  unfold prepare
  split_ifs with hmissing hmax hlacks hgrows hshrinks
  · exact .exceeds hmax
  · exact .grew ⟨hmissing, hlacks⟩ hgrows
  · exact .threw ⟨hmissing, hlacks⟩ (by simpa using hgrows)
  · exact .fitted hmissing (not_lt.mp hlacks)
  · exact .shrank ⟨not_not.mp hmissing, hshrinks⟩
  · exact .reused (not_not.mp hmissing) fun h ↦ hshrinks h.2

end Prepare

variable {initial threshold shrinkCount recvBufferSize missingCapacity length count : ℕ}
  {grows : Bool} {b buffer : MessageBuffer}

/-- From a buffer whose capacity is in use, the region is inside the buffer that the
call leaves behind, and that is in use again. -/
theorem Prepares.region_within (h : Prepares initial threshold shrinkCount grows recvBufferSize
      missingCapacity b (.region buffer length count))
    (hfull : b.Full) (hinitial : initial ≤ b.size) (hsize : recvBufferSize ≤ b.size) :
    buffer.Full ∧ initial ≤ buffer.size ∧ recvBufferSize + length ≤ buffer.size ∧
      (missingCapacity ≠ 0 → length = missingCapacity) ∧
      buffer.bytes.take recvBufferSize = b.bytes.take recvBufferSize := by
  have hcapacity : b.size = b.capacity := hfull
  cases h with
  | grew hlacks _ =>
      have hlt := hlacks.2
      refine ⟨full_grown hlt.le, ?_, ?_, fun _ ↦ rfl, take_grown hsize (Nat.le_add_right _ _)⟩
      · rw [size_grown]
        omega
      · rw [size_grown]
  | fitted _ hfits => exact ⟨hfull, hinitial, hcapacity ▸ hfits, fun _ ↦ rfl, rfl⟩
  | shrank hshrinks =>
      obtain ⟨hmissing, _, _, rfl⟩ := hshrinks
      refine ⟨full_shrinkToFit _, ?_, ?_, fun hne ↦ absurd hmissing hne, ?_⟩
      · rw [size_shrinkToFit, size_resize]
      · rw [size_shrinkToFit, size_resize, Nat.zero_add]
      · rw [List.take_zero, List.take_zero]
  | reused hmissing _ =>
      refine ⟨hfull, hinitial, ?_, fun hne ↦ absurd hmissing hne, rfl⟩
      omega

/-- From an emptied buffer only growth and shrinking hand out a region inside. -/
theorem Prepares.empty_region (h : Prepares initial threshold shrinkCount grows recvBufferSize
      missingCapacity b (.region buffer length count))
    (hempty : b.size = 0) (hcapacity : 0 < b.capacity) (hsize : recvBufferSize = 0) :
    (recvBufferSize + length ≤ buffer.size ↔ Lacks recvBufferSize missingCapacity b ∨
      Shrinks threshold shrinkCount recvBufferSize missingCapacity) ∧
    (recvBufferSize + length ≤ buffer.size → initial ≤ b.capacity →
      buffer.Full ∧ initial ≤ buffer.size) := by
  cases h with
  | grew hlacks _ =>
      have hlt := hlacks.2
      rw [size_grown]
      refine ⟨⟨fun _ ↦ Or.inl hlacks, fun _ ↦ le_refl _⟩, fun _ hinitial ↦ ?_⟩
      exact ⟨full_grown hlt.le, hinitial.trans hlt.le⟩
  | fitted hmissing hfits =>
      have hout : ¬recvBufferSize + missingCapacity ≤ b.size := by omega
      refine ⟨⟨fun hin ↦ absurd hin hout, ?_⟩, fun hin ↦ absurd hin hout⟩
      rintro (hlacks | hshrinks)
      · exact absurd hlacks.2 (not_lt.mpr hfits)
      · exact absurd hshrinks.1 hmissing
  | shrank hshrinks =>
      rw [size_shrinkToFit, size_resize, hsize, Nat.zero_add]
      refine ⟨⟨fun _ ↦ Or.inr (hsize ▸ hshrinks), fun _ ↦ le_refl _⟩, fun _ _ ↦ ?_⟩
      exact ⟨full_shrinkToFit _, le_refl _⟩
  | reused hmissing hshrinks =>
      have hout : ¬recvBufferSize + (b.capacity - recvBufferSize) ≤ b.size := by omega
      refine ⟨⟨fun hin ↦ absurd hin hout, ?_⟩, fun hin ↦ absurd hin hout⟩
      rintro (hlacks | hagain)
      · exact absurd hmissing hlacks.1
      · exact absurd hagain hshrinks

end MessageBuffer

end DoipEndpoint
