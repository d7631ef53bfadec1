import Mathlib.Data.List.Basic

/-!
# Accounting for a byte stream

What a peer has sent is, in this order, what the reader was handed, what a
completed receive has put into the buffer, and what is still in the socket.
-/

namespace Inbound

variable {α : Type*} {sent handed buffered incoming : List α}

def Accounts (sent handed buffered incoming : List α) : Prop :=
  handed ++ buffered ++ incoming = sent

theorem Accounts.arrive (h : Accounts sent handed buffered incoming) (bytes : List α) :
    Accounts (sent ++ bytes) handed buffered (incoming ++ bytes) := by
  rw [Accounts, ← List.append_assoc, h]

/-- A receive moves the first bytes of the socket into the empty buffer. -/
theorem Accounts.take (h : Accounts sent handed [] incoming) (n : ℕ) :
    Accounts sent handed (incoming.take n) (incoming.drop n) := by
  rw [Accounts, List.append_assoc, List.take_append_drop]
  simpa [Accounts] using h

/-- The handler takes over what the buffer holds. -/
theorem Accounts.hand (h : Accounts sent handed buffered incoming) :
    Accounts sent (handed ++ buffered) [] incoming := by
  rw [Accounts, List.append_nil]
  exact h

theorem Accounts.handed_begins (h : Accounts sent handed buffered incoming) : handed <+: sent :=
  ⟨buffered ++ incoming, by rw [← List.append_assoc, h]⟩

end Inbound
