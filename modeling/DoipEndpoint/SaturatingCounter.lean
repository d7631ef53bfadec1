import Mathlib.Data.List.Count
import Mathlib.Data.List.Infix
import Mathlib.Tactic.Cases

/-!
# A counter that wraps upwards and saturates downwards

A machine counter of `M` values goes from the last value back to 0, while a
guarded decrement leaves 0 alone.  Started at 0 it counts the balance of its
calls.  Started anywhere else it is wrong until it has wrapped around and
has then been decremented at 0 as often as its start was too low.
-/

namespace SaturatingCounter

inductive Call where
  | increment
  | decrement
  deriving DecidableEq, Repr

def call (M : ℕ) : Call → ℕ → ℕ
  | .increment, n => (n + 1) % M
  | .decrement, n => n - 1

def after (M start : ℕ) (calls : List Call) : ℕ := calls.foldl (fun n c ↦ call M c n) start

def increments (calls : List Call) : ℕ := calls.count .increment

def decrements (calls : List Call) : ℕ := calls.count .decrement

def balance (calls : List Call) : ℕ := increments calls - decrements calls

/-- No prefix has more decrements than increments. -/
def Balanced (calls : List Call) : Prop :=
  ∀ p, p <+: calls → decrements p ≤ increments p

instance (calls : List Call) : Decidable (Balanced calls) :=
  decidable_of_iff (∀ p ∈ calls.inits, decrements p ≤ increments p) (by
    simp only [List.mem_inits, Balanced])

/-- The balance rose so far that the counter wrapped around, and was 0 again
later. -/
def Recovers (M start : ℕ) (calls : List Call) : Prop :=
  ∃ p q, p <+: q ∧ q <+: calls ∧ start + balance p = M ∧ balance q = 0

variable {M start : ℕ} {calls : List Call}

@[simp] theorem after_append (c : Call) :
    after M start (calls ++ [c]) = call M c (after M start calls) := by
  rw [after, List.foldl_append]
  rfl

theorem Balanced.of_append {c : Call} (h : Balanced (calls ++ [c])) : Balanced calls :=
  fun p hp ↦ h p (hp.trans (List.prefix_append _ _))

theorem balance_increment (h : Balanced calls) :
    balance (calls ++ [.increment]) = balance calls + 1 := by
  have hle := h calls (List.prefix_refl _)
  simp only [balance, increments, decrements] at hle ⊢
  simp only [List.count_append, List.count_singleton]
  simp
  omega

/-- A decrement that keeps the calls balanced lowers a positive balance. -/
theorem balance_decrement (h : Balanced (calls ++ [.decrement])) :
    balance (calls ++ [.decrement]) + 1 = balance calls := by
  have hle := h _ (List.prefix_refl _)
  simp only [balance, increments, decrements] at hle ⊢
  simp only [List.count_append, List.count_singleton] at hle ⊢
  simp at hle ⊢
  omega

theorem balance_le_length (calls : List Call) : balance calls ≤ calls.length :=
  (Nat.sub_le _ _).trans List.count_le_length

/-- `low` is the least balance since the counter first wrapped around. -/
structure Low (M start : ℕ) (calls : List Call) (low : ℕ) : Prop where
  attained : ∃ p q, p <+: q ∧ q <+: calls ∧ start + balance p = M ∧ balance q = low
  least : ∀ p q, p <+: q → q <+: calls → start + balance p = M → low ≤ balance q

theorem Low.append {low : ℕ} (h : Low M start calls low) {c : Call}
    (hle : low ≤ balance (calls ++ [c])) : Low M start (calls ++ [c]) low := by
  constructor
  · obtain ⟨p, q, hpq, hq, hp, hlow⟩ := h.attained
    exact ⟨p, q, hpq, hq.trans (List.prefix_append _ _), hp, hlow⟩
  · intro p q hpq hq hp
    rcases List.prefix_concat_iff.mp hq with rfl | hq
    · exact hle
    · exact h.least p q hpq hq hp

/-- The balance falls below its least value. -/
theorem Low.append_lower {low : ℕ} (h : Low M start calls low) {c : Call}
    (hle : balance (calls ++ [c]) ≤ low) :
    Low M start (calls ++ [c]) (balance (calls ++ [c])) := by
  obtain ⟨p, q, hpq, hq, hp, _⟩ := h.attained
  constructor
  · exact ⟨p, _, (hpq.trans hq).trans (List.prefix_append _ _), List.prefix_refl _, hp, rfl⟩
  · intro p q hpq hq hp
    rcases List.prefix_concat_iff.mp hq with rfl | hq
    · exact le_refl _
    · exact hle.trans (h.least p q hpq hq hp)

/-- The counter `n` before it has wrapped around, and after that. -/
def Tracks (M start : ℕ) (calls : List Call) (n : ℕ) : Prop :=
  (n = start + balance calls ∧ ∀ p, p <+: calls → start + balance p < M) ∨
    ∃ low, n + low = balance calls ∧ Low M start calls low

theorem Tracks.increment {n : ℕ} (h : Tracks M start calls n) (hb : Balanced calls)
    (hlen : calls.length + 1 < M) :
    Tracks M start (calls ++ [.increment]) (call M .increment n) := by
  have hup := balance_increment hb
  have hle := balance_le_length calls
  rcases h with ⟨rfl, hbelow⟩ | ⟨low, hn, hlow⟩
  · have hlt := hbelow calls (List.prefix_refl _)
    by_cases hwrap : start + balance calls + 1 = M
    · refine Or.inr ⟨balance (calls ++ [.increment]), ?_, ?_⟩
      · rw [call, hwrap, Nat.mod_self, Nat.zero_add]
      · constructor
        · exact ⟨_, _, List.prefix_refl _, List.prefix_refl _, by omega, rfl⟩
        · intro p q hpq hq hp
          have hnew : p = calls ++ [.increment] := by
            rcases List.prefix_concat_iff.mp (hpq.trans hq) with hp' | hp'
            · exact hp'
            · have := hbelow p hp'
              omega
          rw [hq.eq_of_length_le (hnew ▸ hpq.length_le)]
    · refine Or.inl ⟨?_, fun p hp ↦ ?_⟩
      · rw [call, Nat.mod_eq_of_lt (by omega), hup]
        omega
      · rcases List.prefix_concat_iff.mp hp with rfl | hp
        · omega
        · exact hbelow p hp
  · refine Or.inr ⟨low, ?_, hlow.append (by omega)⟩
    rw [call, Nat.mod_eq_of_lt (by omega)]
    omega

theorem Tracks.decrement {n : ℕ} (h : Tracks M start calls n)
    (hb : Balanced (calls ++ [.decrement])) :
    Tracks M start (calls ++ [.decrement]) (call M .decrement n) := by
  have hdown := balance_decrement hb
  rcases h with ⟨rfl, hbelow⟩ | ⟨low, hn, hlow⟩
  · refine Or.inl ⟨?_, fun p hp ↦ ?_⟩
    · rw [call]
      omega
    · rcases List.prefix_concat_iff.mp hp with rfl | hp
      · have := hbelow calls (List.prefix_refl _)
        omega
      · exact hbelow p hp
  · -- at 0 the counter stays, and the least balance falls in its place
    by_cases hzero : n = 0
    · refine Or.inr ⟨_, ?_, hlow.append_lower (by omega)⟩
      rw [call, hzero, Nat.zero_sub, Nat.zero_add]
    · refine Or.inr ⟨low, ?_, hlow.append (by omega)⟩
      rw [call]
      omega

theorem tracks_after (hstart : start < M) (hb : Balanced calls) (hlen : calls.length < M) :
    Tracks M start calls (after M start calls) := by
  induction calls using List.reverseRecOn with
  | nil =>
      refine Or.inl ⟨rfl, fun p hp ↦ ?_⟩
      rw [List.prefix_nil.mp hp]
      exact hstart
  | append_singleton calls c ih =>
      rw [List.length_append, List.length_singleton] at hlen
      have h := ih hb.of_append (by omega)
      rw [after_append]
      cases c with
      | increment => exact h.increment hb.of_append hlen
      | decrement => exact h.decrement hb

/-- When a counter that was started anywhere shows the balance of its calls. -/
theorem after_eq_balance_iff (hstart : start < M) (hb : Balanced calls)
    (hlen : calls.length < M) :
    after M start calls = balance calls ↔ start = 0 ∨ Recovers M start calls := by
  rcases tracks_after hstart hb hlen with ⟨hn, hbelow⟩ | ⟨low, hn, hlow⟩
  · have hnot : ¬Recovers M start calls := by
      rintro ⟨p, q, hpq, hq, hp, _⟩
      exact absurd hp (hbelow p (hpq.trans hq)).ne
    simp only [hnot, or_false]
    omega
  · obtain ⟨p, q, hpq, hq, hp, hattained⟩ := hlow.attained
    have hnonzero : start ≠ 0 := by
      rintro rfl
      have hle := (balance_le_length p).trans (hpq.trans hq).length_le
      omega
    have hzero : low = 0 ↔ Recovers M start calls := by
      constructor
      · intro h
        exact ⟨p, q, hpq, hq, hp, hattained.trans h⟩
      · rintro ⟨p', q', hpq', hq', hp', hq0⟩
        have hle := hlow.least p' q' hpq' hq' hp'
        omega
    rw [← hzero]
    simp only [hnonzero, false_or]
    omega

end SaturatingCounter
