import DoipEndpoint.Asio.Basic
import DoipEndpoint.Buffer
import DoipEndpoint.Inbound
import Mathlib.Data.Multiset.AddSub

/-!
# Reading one TCP socket

What both TCP classes have in common when they read: a receive is armed once,
it completes with some of the bytes that have arrived, and its handler is given
these bytes.  Nothing arms the next receive.
-/

namespace DoipEndpoint

/-- What has happened on one TCP or UDP socket so far: `attached`, that
`connect_cbk` was run without error, or `connection::start`; the bytes that the
peer sent and `receive_cbk` was handed; the number of `receive_cbk` without
error; and whether a receive completed with one.  Nothing in the program reads
this. -/
structure History where
  attached : Bool
  peerSent : List UInt8
  handed : List UInt8
  receiveCbks : ℕ
  receiveFailed : Bool
  deriving DecidableEq, Repr

def History.fresh : History := ⟨false, [], [], 0, false⟩

/-- One socket that is read.  `receives` holds a completion for each receive
whose handler has not been run, `none` while it is pending. -/
structure Reading where
  attached : Bool
  receives : Multiset (Option Completion)
  buffer : MessageBuffer
  incoming : List UInt8
  peerSent : List UInt8
  handed : List UInt8
  receiveCbks : ℕ

namespace Reading

open Inbound

/-- Until a receive fails, the one receive that was armed is outstanding or its
handler has been run, and no byte is lost, doubled or moved. -/
structure Sound (x : Reading) : Prop where
  once : x.receives.card + x.receiveCbks = x.attached.toNat
  idle : x.receives = 0 → Accounts x.peerSent x.handed [] x.incoming
  pending : none ∈ x.receives → Accounts x.peerSent x.handed [] x.incoming
  queued : ∀ c, some c ∈ x.receives → c.error = .success ∧
    Accounts x.peerSent x.handed (x.buffer.bytes.take c.bytes) x.incoming
  handed : x.handed.length ≤ x.buffer.size * x.receiveCbks

variable {x : Reading}

theorem Sound.arrive (h : Sound x) (bytes : List UInt8) :
    Sound { x with incoming := x.incoming ++ bytes, peerSent := x.peerSent ++ bytes } :=
  ⟨h.once, fun hx ↦ (h.idle hx).arrive bytes, fun hx ↦ (h.pending hx).arrive bytes,
    fun c hc ↦ ⟨(h.queued c hc).1, (h.queued c hc).2.arrive bytes⟩, h.handed⟩

theorem Sound.arm (h : Sound x) (hx : x.attached = false) :
    Sound { x with attached := true, receives := none ::ₘ x.receives } := by
  have hcount := h.once
  rw [hx, Bool.toNat_false, Nat.add_eq_zero_iff, Multiset.card_eq_zero] at hcount
  obtain ⟨hnone, hcbks⟩ := hcount
  refine ⟨?_, ?_, fun _ ↦ h.idle hnone, ?_, h.handed⟩
  · simp [hnone, hcbks]
  · simp
  · intro c hc
    simp [hnone] at hc

theorem Sound.receives_eq (h : Sound x) {r : Option Completion}
    {rest : Multiset (Option Completion)} (hx : x.receives = r ::ₘ rest) :
    rest = 0 ∧ x.receiveCbks = 0 ∧ x.attached = true := by
  have hcount := h.once
  rw [hx, Multiset.card_cons] at hcount
  cases hatt : x.attached with
  | false => simp [hatt] at hcount
  | true =>
      rw [hatt, Bool.toNat_true] at hcount
      exact ⟨Multiset.card_eq_zero.mp (by omega), by omega, rfl⟩

/-- The receive completes with the first `c.bytes` of the bytes that wait. -/
theorem Sound.receive (h : Sound x) {rest : Multiset (Option Completion)} {c : Completion}
    (hx : x.receives = none ::ₘ rest) (he : c.error = .success) (hfit : c.bytes ≤ x.buffer.size)
    (havail : c.bytes ≤ x.incoming.length) :
    Sound { x with
      receives := some c ::ₘ rest
      buffer := x.buffer.store 0 (x.incoming.take c.bytes)
      incoming := x.incoming.drop c.bytes } := by
  obtain ⟨rfl, hcbks, hatt⟩ := h.receives_eq hx
  have hlen : (x.incoming.take c.bytes).length = c.bytes := by simp [havail]
  have hbytes := @MessageBuffer.take_store (x.incoming.take c.bytes) x.buffer (by omega)
  rw [hlen] at hbytes
  have hacc := h.pending (hx ▸ Multiset.mem_cons_self none 0)
  refine ⟨?_, ?_, ?_, ?_, ?_⟩
  · simp [hcbks, hatt]
  · simp
  · simp
  · intro c' hc'
    obtain rfl : c' = c := by simpa using hc'
    rw [hbytes]
    exact ⟨he, hacc.take _⟩
  · simpa using h.handed

/-- The handler is given what the buffer holds. -/
theorem Sound.hand (h : Sound x) {rest : Multiset (Option Completion)} {c : Completion}
    (hx : x.receives = some c ::ₘ rest) :
    Sound { x with
      receives := rest
      handed := x.handed ++ x.buffer.bytes.take c.bytes
      receiveCbks := x.receiveCbks + 1 } := by
  obtain ⟨rfl, hcbks, hatt⟩ := h.receives_eq hx
  obtain ⟨_, hacc⟩ := h.queued c (hx ▸ Multiset.mem_cons_self _ 0)
  refine ⟨?_, fun _ ↦ hacc.hand, ?_, ?_, ?_⟩
  · simp [hcbks, hatt]
  · simp
  · simp
  · have hlen := h.handed
    have htake : (x.buffer.bytes.take c.bytes).length ≤ x.buffer.size := List.length_take_le' _ _
    rw [hcbks, Nat.mul_zero] at hlen
    simp only [List.length_append, hcbks, Nat.zero_add, Nat.mul_one]
    omega

/-- Once armed, a receive is outstanding until the first handler has run; what
the handlers were given is the beginning of the stream, one buffer at most. -/
theorem Sound.outcome (h : Sound x) (hx : x.attached = true) :
    (x.receives.card = 1 ↔ x.receiveCbks = 0) ∧ x.handed <+: x.peerSent ∧
      x.handed.length ≤ x.buffer.size := by
  have hcount := h.once
  rw [hx, Bool.toNat_true] at hcount
  have hlen := h.handed
  have hle : x.buffer.size * x.receiveCbks ≤ x.buffer.size * 1 := Nat.mul_le_mul_left _ (by omega)
  refine ⟨by omega, ?_, by omega⟩
  rcases x.receives.empty_or_exists_mem with hnone | ⟨r, hr⟩
  · exact (h.idle hnone).handed_begins
  · cases r with
    | none => exact (h.pending hr).handed_begins
    | some c => exact (h.queued c hr).2.handed_begins

end Reading

end DoipEndpoint
