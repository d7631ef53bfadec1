import Mathlib.Data.List.Basic
import Mathlib.Logic.Function.Basic

/-!
# Spans of a memory

An address and a size, as they are handed to a function that is to read the
memory later.  What a span holds changes with the memory.
-/

/-- `size` cells from `data` on. -/
structure Span where
  data : ℕ
  size : ℕ
  deriving DecidableEq, Repr

namespace Span

variable {α : Type*} (b : Span) (m : ℕ → α)

def read : List α := (List.range' b.data b.size).map m

def covers (a : ℕ) : Bool := b.data ≤ a && a < b.data + b.size

def take (n : ℕ) : Span := ⟨b.data, min n b.size⟩

def drop (n : ℕ) : Span := ⟨b.data + n, b.size - n⟩

@[simp] theorem length_read : (b.read m).length = b.size := by simp [read]

variable {b}

theorem covers_iff {a : ℕ} : b.covers a = true ↔ b.data ≤ a ∧ a < b.data + b.size := by
  simp [covers]

theorem take_of_size_le {n : ℕ} (h : b.size ≤ n) : b.take n = b := by
  cases b
  simp only [take, mk.injEq, true_and]
  exact Nat.min_eq_right h

variable (b)

@[simp] theorem read_take (n : ℕ) : (b.take n).read m = (b.read m).take n := by
  rw [read, read, take, ← List.map_take]
  rcases Nat.le_total n b.size with h | h
  · rw [List.take_range'_of_length_ge h, Nat.min_eq_left h]
  · rw [List.take_range'_of_length_le h, Nat.min_eq_right h]

@[simp] theorem read_drop (n : ℕ) : (b.drop n).read m = (b.read m).drop n := by
  rw [read, read, drop, ← List.map_drop, List.drop_range']
  simp

variable {b m}

/-- A store outside the span does not show in it. -/
theorem read_update_of_not_covers {a : ℕ} (h : b.covers a = false) (x : α) :
    b.read (Function.update m a x) = b.read m := by
  apply List.map_congr_left
  intro a' ha'
  apply Function.update_of_ne
  rintro rfl
  rw [List.mem_range'_1] at ha'
  simp [covers, ha'] at h

/-- What is inside is read. -/
theorem mem_read {a : ℕ} (h : b.covers a = true) : m a ∈ b.read m :=
  List.mem_map.mpr ⟨a, List.mem_range'_1.mpr (covers_iff.mp h), rfl⟩

end Span
