import Mathlib.Algebra.Ring.Nat
import Mathlib.Logic.Relation

/-!
# Guarded runs of a labelled system

A system is an initial predicate and a partial step function.  A guard says
which steps a run may take, so one system carries both its unrestricted runs
and the runs that respect a condition on every step.  The induction over runs
and the comparison of a state property with a guard are proved once, here.
-/

/-- States `σ` moved by actions `α`; `none` means that the action is not
enabled. -/
structure TransitionSystem (σ α : Type*) where
  initial : σ → Prop
  step : σ → α → Option σ

namespace TransitionSystem

variable {σ α : Type*} (M : TransitionSystem σ α)

/-- The guard of an unrestricted run. -/
def anyStep : σ → α → Prop := fun _ _ ↦ True

instance (s : σ) (a : α) : Decidable (anyStep s a) := inferInstanceAs (Decidable True)

/-- One step that the guard allows. -/
def Move (allowed : σ → α → Prop) (s t : σ) : Prop :=
  ∃ a, allowed s a ∧ M.step s a = some t

/-- A finite run all of whose steps the guard allows. -/
def Leads (allowed : σ → α → Prop) : σ → σ → Prop :=
  Relation.ReflTransGen (M.Move allowed)

/-- The states of the runs that start initially and keep to the guard. -/
def Reachable (allowed : σ → α → Prop) (s : σ) : Prop :=
  ∃ s₀, M.initial s₀ ∧ M.Leads allowed s₀ s

variable {M} {allowed : σ → α → Prop}

theorem Leads.refl (s : σ) : M.Leads allowed s s := Relation.ReflTransGen.refl

theorem Leads.snoc {s t u : σ} {a : α} (h : M.Leads allowed s t) (ha : allowed t a)
    (hstep : M.step t a = some u) : M.Leads allowed s u :=
  Relation.ReflTransGen.tail h ⟨a, ha, hstep⟩

theorem Leads.trans {s t u : σ} (h : M.Leads allowed s t) (h' : M.Leads allowed t u) :
    M.Leads allowed s u :=
  Relation.ReflTransGen.trans h h'

theorem Leads.mono {wider : σ → α → Prop} (hw : ∀ s a, allowed s a → wider s a)
    {s t : σ} (h : M.Leads allowed s t) : M.Leads wider s t :=
  Relation.ReflTransGen.mono (fun _ _ ⟨a, ha, hstep⟩ ↦ ⟨a, hw _ a ha, hstep⟩) _ _ h

theorem Reachable.initial {s : σ} (h : M.initial s) : M.Reachable allowed s :=
  ⟨s, h, Leads.refl s⟩

theorem Reachable.leads {s t : σ} (h : M.Reachable allowed s) (h' : M.Leads allowed s t) :
    M.Reachable allowed t := by
  obtain ⟨s₀, h₀, hs⟩ := h
  exact ⟨s₀, h₀, hs.trans h'⟩

theorem Reachable.step {s t : σ} {a : α} (h : M.Reachable allowed s) (ha : allowed s a)
    (hstep : M.step s a = some t) : M.Reachable allowed t :=
  h.leads ((Leads.refl s).snoc ha hstep)

theorem Reachable.mono {wider : σ → α → Prop} (hw : ∀ s a, allowed s a → wider s a)
    {s : σ} (h : M.Reachable allowed s) : M.Reachable wider s := by
  obtain ⟨s₀, h₀, hs⟩ := h
  exact ⟨s₀, h₀, hs.mono hw⟩

/-- A property that every allowed step keeps holds at the end of a run. -/
theorem Leads.invariant {I : σ → Prop}
    (hstep : ∀ s a t, I s → allowed s a → M.step s a = some t → I t)
    {s t : σ} (h : M.Leads allowed s t) (hs : I s) : I t := by
  induction h with
  | refl => exact hs
  | tail _ hmove ih =>
      obtain ⟨a, ha, hst⟩ := hmove
      exact hstep _ a _ ih ha hst

/-- A property that holds initially and that every allowed step keeps holds in
every reachable state. -/
theorem Reachable.invariant {I : σ → Prop} (hinit : ∀ s, M.initial s → I s)
    (hstep : ∀ s a t, I s → allowed s a → M.step s a = some t → I t)
    {s : σ} (h : M.Reachable allowed s) : I s := by
  obtain ⟨s₀, h₀, hs⟩ := h
  exact hs.invariant hstep (hinit s₀ h₀)

variable (M) in
/-- The property holds along every run that keeps to the guard, and the first
step that leaves the guard is a step into a state without the property. -/
def KeptExactlyBy (P : σ → Prop) (allowed : σ → α → Prop) : Prop :=
  (∀ s, M.Reachable allowed s → P s) ∧
    ∀ s a t, M.Reachable allowed s → M.step s a = some t → (P t ↔ allowed s a)

/-- To compare a property with a guard, strengthen it to an invariant of the
allowed steps from which every other step loses the property. -/
theorem keptExactlyBy_of_invariant {P I : σ → Prop}
    (hinit : ∀ s, M.initial s → I s)
    (hstep : ∀ s a t, I s → allowed s a → M.step s a = some t → I t)
    (hI : ∀ s, I s → P s)
    (hlost : ∀ s a t, I s → M.step s a = some t → P t → allowed s a) :
    M.KeptExactlyBy P allowed := by
  constructor
  · intro s h
    exact hI s (h.invariant hinit hstep)
  · intro s a t hs hst
    have hIs : I s := hs.invariant hinit hstep
    exact ⟨hlost s a t hIs hst, fun ha ↦ hI t (hstep s a t hIs ha hst)⟩

/-- The case in which the property is its own invariant. -/
theorem keptExactlyBy_of_step_iff {P : σ → Prop} (hinit : ∀ s, M.initial s → P s)
    (hstep : ∀ s a t, P s → M.step s a = some t → (P t ↔ allowed s a)) :
    M.KeptExactlyBy P allowed :=
  keptExactlyBy_of_invariant hinit (fun s a t hs ha hst ↦ (hstep s a t hs hst).mpr ha)
    (fun _ h ↦ h) fun s a t hs hst ↦ (hstep s a t hs hst).mp

/-! ## Simulation -/

/-- If some steps of `N` answer every step of `M`, a run of `N` answers every run. -/
theorem Leads.simulated {τ β : Type*} {N : TransitionSystem τ β} {permitted : τ → β → Prop}
    {R : σ → τ → Prop}
    (hstep : ∀ s a s' t, R s t → allowed s a → M.step s a = some s' →
      ∃ t', N.Leads permitted t t' ∧ R s' t')
    {s s' : σ} (h : M.Leads allowed s s') {t : τ} (hR : R s t) :
    ∃ t', N.Leads permitted t t' ∧ R s' t' := by
  induction h with
  | refl => exact ⟨t, Leads.refl t, hR⟩
  | tail _ hmove ih =>
      obtain ⟨a, ha, hst⟩ := hmove
      obtain ⟨u, hu, hRu⟩ := ih
      obtain ⟨t', ht', hR'⟩ := hstep _ a _ u hRu ha hst
      exact ⟨t', hu.trans ht', hR'⟩

/-! ## Runs that end -/

variable (M) in
/-- Every run from `s` that keeps to the guard ends. -/
def Settles (allowed : σ → α → Prop) (s : σ) : Prop := Acc (fun t u ↦ M.Move allowed u t) s

/-- A measure that every allowed step lowers bounds the length of the runs. -/
theorem settles_of_measure {I : σ → Prop} (f : σ → ℕ)
    (hstep : ∀ s a t, I s → allowed s a → M.step s a = some t → I t ∧ f t < f s)
    {s : σ} (hs : I s) : M.Settles allowed s := by
  induction hn : f s using Nat.strongRecOn generalizing s with
  | _ n ih =>
      apply Acc.intro
      rintro t ⟨a, ha, hst⟩
      obtain ⟨ht, hlt⟩ := hstep s a t hs ha hst
      exact ih (f t) (hn ▸ hlt) ht rfl

/-- Such a run can be continued until no allowed step is enabled. -/
theorem Settles.exists_end {s : σ} (h : M.Settles allowed s) :
    ∃ t, M.Leads allowed s t ∧ ∀ a, allowed t a → M.step t a = none := by
  induction h with
  | intro s _ ih =>
      by_cases hend : ∀ a, allowed s a → M.step s a = none
      · exact ⟨s, Leads.refl s, hend⟩
      · obtain ⟨a, hmore⟩ := Classical.not_forall.mp hend
        obtain ⟨ha, hsome⟩ := Classical.not_imp.mp hmore
        obtain ⟨u, hu⟩ := Option.ne_none_iff_exists'.mp hsome
        obtain ⟨t, ht, hlast⟩ := ih u ⟨a, ha, hu⟩
        exact ⟨t, ((Leads.refl s).snoc ha hu).trans ht, hlast⟩

/-! ## Runs that compute -/

variable (M) in
/-- Perform a list of actions, refusing a step outside the guard. -/
def run (allowed : σ → α → Prop) [∀ s a, Decidable (allowed s a)] : List α → σ → Option σ
  | [], s => some s
  | a :: as, s =>
      if allowed s a then
        match M.step s a with
        | some t => run allowed as t
        | none => none
      else none

theorem run_cons [∀ s a, Decidable (allowed s a)] {a : α} {as : List α} {s t : σ}
    (h : M.run allowed (a :: as) s = some t) :
    ∃ u, allowed s a ∧ M.step s a = some u ∧ M.run allowed as u = some t := by
  by_cases ha : allowed s a
  · cases hstep : M.step s a with
    | none => simp [run, ha, hstep] at h
    | some u => exact ⟨u, ha, rfl, by simpa [run, ha, hstep] using h⟩
  · simp [run, ha] at h

theorem leads_of_run [∀ s a, Decidable (allowed s a)] {as : List α} {s t : σ}
    (h : M.run allowed as s = some t) : M.Leads allowed s t := by
  induction as generalizing s with
  | nil =>
      have hst : s = t := Option.some.inj h
      exact hst ▸ Leads.refl s
  | cons a as ih =>
      obtain ⟨u, ha, hu, hrest⟩ := run_cons h
      exact ((Leads.refl s).snoc ha hu).trans (ih hrest)

theorem reachable_of_run [∀ s a, Decidable (allowed s a)] {as : List α} {s t : σ}
    (hs : M.initial s) (h : M.run allowed as s = some t) : M.Reachable allowed t :=
  ⟨s, hs, leads_of_run h⟩

theorem run_append [∀ s a, Decidable (allowed s a)] {as bs : List α} {s t u : σ}
    (h : M.run allowed as s = some t) (h' : M.run allowed bs t = some u) :
    M.run allowed (as ++ bs) s = some u := by
  induction as generalizing s with
  | nil =>
      have hst : s = t := Option.some.inj h
      exact hst ▸ h'
  | cons a as ih =>
      obtain ⟨v, ha, hv, hrest⟩ := run_cons h
      simpa [run, ha, hv] using ih hrest

/-- The actions of a run, all of a kind that the guard allows. -/
theorem Leads.exists_run {P : α → Prop} (hP : ∀ s a, allowed s a → P a) {s t : σ}
    (h : M.Leads allowed s t) : ∃ as, (∀ a ∈ as, P a) ∧ M.run anyStep as s = some t := by
  induction h with
  | refl => exact ⟨[], by simp, rfl⟩
  | tail _ hmove ih =>
      obtain ⟨a, ha, hst⟩ := hmove
      obtain ⟨as, has, hrun⟩ := ih
      refine ⟨as ++ [a], fun b hb ↦ ?_, run_append hrun ?_⟩
      · rcases List.mem_append.mp hb with hb | hb
        · exact has b hb
        · exact List.mem_singleton.mp hb ▸ hP _ a ha
      · simp [run, anyStep, hst]

/-- What the steps of a run cost is paid out of the account of its first state
and of what the actions themselves bring in. -/
theorem cost_of_run [∀ s a, Decidable (allowed s a)] {account : σ → ℕ} {cost gain : α → ℕ}
    (hstep : ∀ s a t, allowed s a → M.step s a = some t →
      account t + cost a ≤ account s + gain a)
    {as : List α} {s t : σ} (h : M.run allowed as s = some t) :
    account t + (as.map cost).sum ≤ account s + (as.map gain).sum := by
  induction as generalizing s with
  | nil =>
      have hst : s = t := Option.some.inj h
      simp [hst]
  | cons a as ih =>
      obtain ⟨u, ha, hu, hrest⟩ := run_cons h
      have hone := hstep s a u ha hu
      have hmany := ih hrest
      simp only [List.map_cons, List.sum_cons]
      omega

end TransitionSystem
