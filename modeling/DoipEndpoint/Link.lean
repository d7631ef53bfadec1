import DoipEndpoint.Runs
import Mathlib.Data.List.Infix

/-!
# A sender, a receiver and the bytes between them

Two systems that share nothing but a stream: what the sender has put on the
wire reaches the receiver in this order and in pieces of any size, or never.
-/

/-- `arrive` is the action by which bytes reach the receiver, which is possible
while it is `connected`; its `own` actions bring it no bytes of this stream. -/
structure Link (σ τ α β γ : Type*) where
  sender : TransitionSystem σ α
  receiver : TransitionSystem τ β
  wire : σ → List γ
  arrived : τ → List γ
  arrive : List γ → β
  connected : τ → Bool
  own : τ → β → Bool

namespace Link

structure State (σ τ : Type*) where
  sender : σ
  receiver : τ

inductive Action (α β : Type*) where
  | sends (a : α)
  | receives (b : β)
  /-- The next `n` bytes of the wire reach the receiver. -/
  | delivers (n : ℕ)

open TransitionSystem

variable {σ τ α β γ : Type*} (L : Link σ τ α β γ)

/-- The bytes that are on the wire and have not reached the receiver. -/
def underWay (w : State σ τ) : List γ := (L.wire w.sender).drop (L.arrived w.receiver).length

def step (w : State σ τ) : Action α β → Option (State σ τ)
  | .sends a => (L.sender.step w.sender a).map fun s ↦ { w with sender := s }
  | .receives b =>
      if L.own w.receiver b then
        (L.receiver.step w.receiver b).map fun t ↦ { w with receiver := t }
      else none
  | .delivers n =>
      if L.connected w.receiver then
        (L.receiver.step w.receiver (L.arrive ((L.underWay w).take n))).map fun t ↦
          { w with receiver := t }
      else none

def system : TransitionSystem (State σ τ) (Action α β) where
  initial w := L.sender.initial w.sender ∧ L.receiver.initial w.receiver
  step := L.step

/-- Both sides keep to a guard of their own. -/
def guarded (p : σ → α → Prop) (q : τ → β → Prop) (w : State σ τ) : Action α β → Prop
  | .sends a => p w.sender a
  | .receives b => q w.receiver b
  | .delivers n => q w.receiver (L.arrive ((L.underWay w).take n))

instance {p : σ → α → Prop} {q : τ → β → Prop} [∀ s a, Decidable (p s a)]
    [∀ t b, Decidable (q t b)] (w : State σ τ) : (a : Action α β) → Decidable (L.guarded p q w a)
  | .sends a => inferInstanceAs (Decidable (p w.sender a))
  | .receives b => inferInstanceAs (Decidable (q w.receiver b))
  | .delivers n =>
      inferInstanceAs (Decidable (q w.receiver (L.arrive ((L.underWay w).take n))))

/-- The wire only grows, and the receiver keeps what has arrived until it
forgets all of it. -/
structure Lawful : Prop where
  empty : ∀ t, L.receiver.initial t → L.arrived t = []
  grows : ∀ s a s', L.sender.step s a = some s' → L.wire s <+: L.wire s'
  arrives : ∀ t bytes t', L.connected t = true →
    L.receiver.step t (L.arrive bytes) = some t' → L.arrived t' = L.arrived t ++ bytes
  keeps : ∀ t b t', L.own t b = true → L.receiver.step t b = some t' →
    L.arrived t' = L.arrived t ∨ L.arrived t' = []

variable {L} {p : σ → α → Prop} {q : τ → β → Prop}

theorem arrived_step (hL : L.Lawful) {w v : State σ τ} {a : Action α β}
    (h : L.arrived w.receiver <+: L.wire w.sender) (hstep : L.step w a = some v) :
    L.arrived v.receiver <+: L.wire v.sender := by
  cases a with
  | sends a =>
      obtain ⟨s, hs, rfl⟩ := Option.map_eq_some_iff.mp hstep
      exact h.trans (hL.grows w.sender a s hs)
  | receives b =>
      simp only [step] at hstep
      split_ifs at hstep with hown
      obtain ⟨t, ht, rfl⟩ := Option.map_eq_some_iff.mp hstep
      rcases hL.keeps w.receiver b t hown ht with hsame | hnil
      · exact hsame ▸ h
      · simp [hnil]
  | delivers n =>
      simp only [step] at hstep
      split_ifs at hstep with hconnected
      obtain ⟨t, ht, rfl⟩ := Option.map_eq_some_iff.mp hstep
      obtain ⟨rest, hrest⟩ := h
      have hunder : L.underWay w = rest := by rw [underWay, ← hrest, List.drop_left]
      simp only [hL.arrives w.receiver _ t hconnected ht, hunder]
      rw [← hrest, List.prefix_append_right_inj]
      exact List.take_prefix n rest

/-- Each side runs as it would on its own, and the receiver has the beginning of
what the sender put on the wire. -/
theorem parts_of_reachable (hL : L.Lawful) {w : State σ τ}
    (h : L.system.Reachable (L.guarded p q) w) : L.sender.Reachable p w.sender ∧
      L.receiver.Reachable q w.receiver ∧ L.arrived w.receiver <+: L.wire w.sender := by
  apply h.invariant (I := fun w ↦ L.sender.Reachable p w.sender ∧
    L.receiver.Reachable q w.receiver ∧ L.arrived w.receiver <+: L.wire w.sender)
  · rintro w ⟨hsender, hreceiver⟩
    refine ⟨Reachable.initial hsender, Reachable.initial hreceiver, ?_⟩
    simp [hL.empty w.receiver hreceiver]
  · rintro w a v ⟨hsender, hreceiver, hprefix⟩ hguard hstep
    have hnext := arrived_step hL hprefix hstep
    cases a with
    | sends a =>
        obtain ⟨s, hs, rfl⟩ := Option.map_eq_some_iff.mp hstep
        exact ⟨hsender.step hguard hs, hreceiver, hnext⟩
    | receives b =>
        change L.step w (.receives b) = some v at hstep
        simp only [step] at hstep
        split_ifs at hstep
        obtain ⟨t, ht, rfl⟩ := Option.map_eq_some_iff.mp hstep
        exact ⟨hsender, hreceiver.step hguard ht, hnext⟩
    | delivers n =>
        change L.step w (.delivers n) = some v at hstep
        simp only [step] at hstep
        split_ifs at hstep
        obtain ⟨t, ht, rfl⟩ := Option.map_eq_some_iff.mp hstep
        exact ⟨hsender, hreceiver.step hguard ht, hnext⟩

end Link
