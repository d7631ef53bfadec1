import DoipEndpoint.Runs
import DoipEndpoint.UseCount
import Mathlib.Algebra.Group.Nat.Defs
import Mathlib.Data.Finset.Card

/-!
# The use count under concurrent calls

`use_count_` is a `std::atomic`.  An increment is one atomic step, but a decrement
reads the count and, if that was positive, subtracts in a second step.  Between the
two any other caller may take its own steps, so what was read may be out of date.
-/

namespace DoipEndpoint

namespace ConcurrentUse

open TransitionSystem

/-- An endpoint and its callers, of which those in `checked` have read a positive
count in `decrement_use_count` and have yet to subtract. -/
structure Shared (ι : Type*) where
  endpoint : EndpointImpl
  checked : Finset ι

inductive Action (ι : Type*) where
  | increment (c : ι)
  /-- The comparison of `use_count_` with 0. -/
  | check (c : ι)
  /-- The subtraction that follows a comparison with a positive result. -/
  | subtract (c : ι)
  deriving DecidableEq, Repr

/-- `use_count_--`, which wraps at 0. -/
def subtract (e : EndpointImpl) : EndpointImpl := { e with useCount := e.useCount - 1 }

def Shared.count {ι : Type*} (s : Shared ι) : ℕ := s.endpoint.getUseCount.toNat

variable {ι : Type*} [DecidableEq ι]

/-- One atomic step of one caller.  A caller inside `decrement_use_count` can only go
on there, and no increment wraps. -/
def step (s : Shared ι) : Action ι → Option (Shared ι)
  | .increment c =>
      if c ∉ s.checked ∧ s.count < 2 ^ 32 - 1 then
        some { s with endpoint := s.endpoint.incrementUseCount }
      else none
  | .check c =>
      if c ∈ s.checked then none
      else if 0 < s.endpoint.useCount then some { s with checked := insert c s.checked }
      else some s
  | .subtract c =>
      if c ∈ s.checked then
        some { endpoint := subtract s.endpoint, checked := s.checked.erase c }
      else none

/-- Any count to start from, and no call under way. -/
def system : TransitionSystem (Shared ι) (Action ι) where
  initial s := s.checked = ∅
  step := step

/-- A check that passes finds more uses than there are callers that have passed the
check before it and have not subtracted yet. -/
def inTurn (s : Shared ι) : Action ι → Prop
  | .check _ => s.endpoint.useCount = 0 ∨ s.checked.card < s.count
  | _ => True

instance (s : Shared ι) : (a : Action ι) → Decidable (inTurn s a)
  | .check _ => inferInstanceAs (Decidable (_ ∨ _))
  | .increment _ | .subtract _ => isTrue trivial

variable {s t u : Shared ι} {a : Action ι} {c : ι}

/-! ## Steps -/

theorem useCount_eq_zero_iff (e : EndpointImpl) : e.useCount = 0 ↔ e.getUseCount.toNat = 0 :=
  UInt32.toNat_inj.symm

theorem getUseCount_subtract (e : EndpointImpl) :
    (subtract e).getUseCount = e.useCount - 1 := rfl

theorem toNat_subtract {e : EndpointImpl} (hpos : 0 < e.getUseCount.toNat) :
    (subtract e).getUseCount.toNat + 1 = e.getUseCount.toNat := by
  have hone : (1 : UInt32) ≤ e.useCount := UInt32.le_iff_toNat_le.mpr hpos
  have hsub : (subtract e).getUseCount.toNat = e.getUseCount.toNat - 1 :=
    UInt32.toNat_sub_of_le _ _ hone
  omega

theorem toNat_subtract_zero {e : EndpointImpl} (hzero : e.getUseCount.toNat = 0) :
    (subtract e).getUseCount.toNat = 2 ^ 32 - 1 := by
  have huse : e.useCount = 0 := (useCount_eq_zero_iff e).mpr hzero
  rw [getUseCount_subtract, huse]
  rfl

theorem count_of_increment (h : step s (.increment c) = some t) :
    t.count = s.count + 1 ∧ t.checked = s.checked := by
  simp only [step] at h
  split_ifs at h with hfree
  obtain rfl := Option.some.inj h
  refine ⟨?_, rfl⟩
  have hcall := EndpointImpl.toNat_getUseCount_call .increment s.endpoint
  have hlt : s.count + 1 < 2 ^ 32 := by omega
  exact hcall.trans (Nat.mod_eq_of_lt hlt)

theorem check_cases (h : step s (.check c) = some t) : c ∉ s.checked ∧
    (0 < s.count ∧ t = { s with checked := insert c s.checked } ∨ s.count = 0 ∧ t = s) := by
  simp only [step] at h
  split_ifs at h with hfree hpos
  · obtain rfl := Option.some.inj h
    exact ⟨hfree, Or.inl ⟨UInt32.lt_iff_toNat_lt.mp hpos, rfl⟩⟩
  · obtain rfl := Option.some.inj h
    have hzero : ¬0 < s.count := fun hlt ↦ hpos (UInt32.lt_iff_toNat_lt.mpr hlt)
    exact ⟨hfree, Or.inr ⟨by omega, rfl⟩⟩

theorem subtract_eq_some (h : step s (.subtract c) = some t) : c ∈ s.checked ∧
    t = { endpoint := subtract s.endpoint, checked := s.checked.erase c } := by
  simp only [step] at h
  split_ifs at h with hc
  exact ⟨hc, (Option.some.inj h).symm⟩

theorem card_of_check (h : step s (.check c) = some t) (hpos : 0 < s.count) :
    t.count = s.count ∧ t.checked.card = s.checked.card + 1 := by
  obtain ⟨hfree, ⟨_, rfl⟩ | ⟨hzero, _⟩⟩ := check_cases h
  · exact ⟨rfl, Finset.card_insert_of_notMem hfree⟩
  · omega

theorem count_of_subtract (h : step s (.subtract c) = some t) :
    t.checked.card + 1 = s.checked.card ∧ (0 < s.count → t.count + 1 = s.count) := by
  obtain ⟨hc, rfl⟩ := subtract_eq_some h
  exact ⟨Finset.card_erase_add_one hc, toNat_subtract⟩

/-- A caller whose two steps nobody disturbs has called `decrement_use_count`. -/
theorem decrementUseCount_undisturbed (hcheck : step s (.check c) = some t)
    (hpos : 0 < s.count) (hsub : step t (.subtract c) = some u) :
    u = { s with endpoint := s.endpoint.decrementUseCount } := by
  obtain ⟨hfree, ⟨_, rfl⟩ | ⟨hzero, _⟩⟩ := check_cases hcheck
  · obtain ⟨_, rfl⟩ := subtract_eq_some hsub
    have huse : 0 < s.endpoint.useCount := UInt32.lt_iff_toNat_lt.mpr hpos
    simp only [EndpointImpl.decrementUseCount, if_pos huse, Finset.erase_insert hfree]
    rfl
  · omega

/-! ## Runs -/

/-- Every caller that is about to subtract has a use of its own. -/
def Covered (s : Shared ι) : Prop := s.checked.card ≤ s.count

theorem Covered.step (h : Covered s) (hturn : inTurn s a) (hstep : step s a = some t) :
    Covered t := by
  unfold Covered at h ⊢
  cases a with
  | increment c =>
      obtain ⟨hcount, hchecked⟩ := count_of_increment hstep
      rw [hcount, hchecked]
      omega
  | check c =>
      rcases hturn with hzero | hlt
      · obtain ⟨_, ⟨hpos, _⟩ | ⟨_, rfl⟩⟩ := check_cases hstep
        · have hnone : s.count = 0 := (useCount_eq_zero_iff s.endpoint).mp hzero
          omega
        · exact h
      · obtain ⟨hcount, hcard⟩ := card_of_check hstep (Nat.zero_lt_of_lt hlt)
        omega
  | subtract c =>
      obtain ⟨hcard, hlowers⟩ := count_of_subtract hstep
      have hcount := hlowers (by omega)
      omega

theorem covered_of_reachable (h : system.Reachable inTurn s) : Covered s := by
  apply h.invariant (I := Covered)
  · intro s hs
    have hnone : s.checked = ∅ := hs
    rw [Covered, hnone, Finset.card_empty]
    exact Nat.zero_le _
  · intro s a t hs hturn hstep
    exact hs.step hturn hstep

/-- With more callers about to subtract than there are uses, the subtractions alone
lead to one that is applied to 0. -/
theorem leads_to_zero {n : ℕ} (hn : s.count = n) (h : n < s.checked.card) :
    ∃ u, system.Leads anyStep s u ∧ u.count = 0 ∧ u.checked.Nonempty := by
  induction n generalizing s with
  | zero => exact ⟨s, Leads.refl s, hn, Finset.card_pos.mp h⟩
  | succ n ih =>
      obtain ⟨c, hc⟩ := Finset.card_pos.mp (Nat.zero_lt_of_lt h)
      obtain ⟨t, hstep⟩ : ∃ t, system.step s (.subtract c) = some t := ⟨_, if_pos hc⟩
      obtain ⟨hcard, hlowers⟩ := count_of_subtract hstep
      have hcount := hlowers (by omega)
      obtain ⟨u, hu, hzero, hleft⟩ := ih (s := t) (by omega) (by omega)
      exact ⟨u, ((Leads.refl s).snoc trivial hstep).trans hu, hzero, hleft⟩

/-- Only a check can be out of turn, and then it lets one caller too many pass. -/
theorem overdrawn_of_not_inTurn (hstep : step s a = some t) (hturn : ¬inTurn s a) :
    t.count < t.checked.card := by
  cases a with
  | increment | subtract => exact absurd trivial hturn
  | check c =>
      obtain ⟨hpositive, hmany⟩ := not_or.mp hturn
      have hpos : 0 < s.count :=
        Nat.pos_of_ne_zero fun hzero ↦ hpositive ((useCount_eq_zero_iff s.endpoint).mpr hzero)
      obtain ⟨hcount, hcard⟩ := card_of_check hstep hpos
      omega

/-- Along every run in which callers pass the check in turn, each subtraction lowers
the count by one.  After a check out of turn the run can go on to a subtraction that
is applied to 0 and makes the count the largest there is. -/
theorem subtractions_lower (h : system.Reachable inTurn s) :
    (∀ c t, step s (.subtract c) = some t → 0 < s.count ∧ t.count + 1 = s.count) ∧
      ∀ a t, step s a = some t → ¬inTurn s a → ∃ u c v, system.Leads anyStep t u ∧
        step u (.subtract c) = some v ∧ u.count = 0 ∧ v.count = 2 ^ 32 - 1 := by
  constructor
  · intro c t hstep
    obtain ⟨hcard, hlowers⟩ := count_of_subtract hstep
    have hcovered : s.checked.card ≤ s.count := covered_of_reachable h
    have hpos : 0 < s.count := by omega
    exact ⟨hpos, hlowers hpos⟩
  · intro a t hstep hturn
    obtain ⟨u, hu, hzero, c, hc⟩ := leads_to_zero rfl (overdrawn_of_not_inTurn hstep hturn)
    exact ⟨u, c, _, hu, if_pos hc, hzero, toNat_subtract_zero hzero⟩

theorem subtractions_lower_shared : ∃ s t : Shared ℕ,
    system.run inTurn [.increment 0, .increment 1, .check 0, .check 1] ⟨⟨0⟩, ∅⟩ = some s ∧
      step s (.subtract 0) = some t ∧ s.count = 2 ∧ t.count = 1 := by
  have hrun : ∃ s t : Shared ℕ,
      system.run inTurn [.increment 0, .increment 1, .check 0, .check 1] ⟨⟨0⟩, ∅⟩ = some s ∧
        step s (.subtract 0) = some t ∧ s.count = 2 := ⟨_, _, rfl, rfl, rfl⟩
  obtain ⟨s, t, hs, hstep, hcount⟩ := hrun
  have hidle : system.initial (⟨⟨0⟩, ∅⟩ : Shared ℕ) := rfl
  have hlowers := (subtractions_lower (reachable_of_run hidle hs)).1 0 t hstep
  exact ⟨s, t, hs, hstep, hcount, by omega⟩

/-- Two callers that have both read 1 both subtract. -/
theorem subtractions_wrap : ¬∀ s : Shared ℕ, system.Reachable anyStep s →
    ∀ c t, step s (.subtract c) = some t → 0 < s.count ∧ t.count + 1 = s.count := by
  intro h
  have hrun : ∃ s t : Shared ℕ,
      system.run anyStep [.check 0, .check 1, .subtract 0] ⟨⟨1⟩, ∅⟩ = some s ∧
        step s (.subtract 1) = some t ∧ s.count = 0 := ⟨_, _, rfl, rfl, rfl⟩
  obtain ⟨s, t, hs, hstep, hcount⟩ := hrun
  have hidle : system.initial (⟨⟨1⟩, ∅⟩ : Shared ℕ) := rfl
  have hpos := (h s (reachable_of_run hidle hs) 1 t hstep).1
  omega

end ConcurrentUse

end DoipEndpoint
