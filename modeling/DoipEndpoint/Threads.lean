import DoipEndpoint.Program
import DoipEndpoint.Runs
import Mathlib.Data.Fintype.EquivFin
import Mathlib.Data.Fintype.Lattice
import Mathlib.Logic.Hydra

/-!
# Threads that run programs

Finitely many threads call the programs of a machine, one at a time each, and take
their steps in any order; other events may change the shared state between any two of
them.  If all the programs are orderly under one ranking, the threads never block each
other for good.
-/

/-- The calls `κ` that a machine offers, with their programs, and the events `ε` that
change its state from outside. -/
structure Machine (μ σ β κ ε : Type*) where
  initial : σ → Prop
  code : κ → Program μ σ β
  event : σ → ε → Option σ

/-- The shared state, the thread that holds each mutex, and what each thread that is in
a call has still to do. -/
structure Threads (μ σ β ι : Type*) where
  shared : σ
  holder : μ → Option ι
  call : ι → Option (Program μ σ β)

namespace Threads

variable {μ σ β ι κ ε : Type*}

inductive Action (ι κ ε : Type*) where
  | call (t : ι) (k : κ)
  | run (t : ι)
  | leave (t : ι)
  | event (e : ε)

/-- The steps of a thread inside its call. -/
def own : Threads μ σ β ι → Action ι κ ε → Prop
  | _, .run _ | _, .leave _ => True
  | _, .call _ _ | _, .event _ => False

def idle (s : σ) : Threads μ σ β ι := ⟨s, fun _ ↦ none, fun _ ↦ none⟩

section Step

variable [DecidableEq ι] {s u : Threads μ σ β ι} {t : ι}

def enter (t : ι) (p : Program μ σ β) (s : Threads μ σ β ι) : Option (Threads μ σ β ι) :=
  match s.call t with
  | none => some { s with call := Function.update s.call t (some p) }
  | some _ => none

def leave (t : ι) (s : Threads μ σ β ι) : Option (Threads μ σ β ι) :=
  match s.call t with
  | some (.ret _) => some { s with call := Function.update s.call t none }
  | _ => none

theorem enter_eq_some {p : Program μ σ β} (h : s.enter t p = some u) :
    s.call t = none ∧ u = { s with call := Function.update s.call t (some p) } := by
  unfold enter at h
  cases hcall : s.call t with
  | none =>
      simp only [hcall] at h
      exact ⟨rfl, (Option.some.inj h).symm⟩
  | some q => simp [hcall] at h

theorem leave_eq_some (h : s.leave t = some u) : ∃ b, s.call t = some (.ret b) ∧
    u = { s with call := Function.update s.call t none } := by
  unfold leave at h
  split at h
  · rename_i b hcall
    exact ⟨b, hcall, (Option.some.inj h).symm⟩
  · cases h

theorem enter_idle {p : Program μ σ β} (hcall : s.call t = none) :
    s.enter t p = some { s with call := Function.update s.call t (some p) } := by
  simp [enter, hcall]

theorem leave_ret {b : β} (hcall : s.call t = some (.ret b)) :
    s.leave t = some { s with call := Function.update s.call t none } := by
  simp [leave, hcall]

variable [DecidableEq μ]

/-- The next step of a call: a mutex is locked only when it is free, and only its
holder unlocks it. -/
def run (t : ι) (s : Threads μ σ β ι) : Option (Threads μ σ β ι) :=
  match s.call t with
  | some (.lock m p) =>
      if s.holder m = none then
        some { s with
          holder := Function.update s.holder m (some t)
          call := Function.update s.call t (some p) }
      else none
  | some (.unlock m p) =>
      if s.holder m = some t then
        some { s with
          holder := Function.update s.holder m none
          call := Function.update s.call t (some p) }
      else none
  | some (.act f next) =>
      some { s with
        shared := f s.shared
        call := Function.update s.call t (some (next s.shared)) }
  | some (.ret _) | none => none

def step (M : Machine μ σ β κ ε) (s : Threads μ σ β ι) :
    Action ι κ ε → Option (Threads μ σ β ι)
  | .call t k => s.enter t (M.code k)
  | .run t => s.run t
  | .leave t => s.leave t
  | .event e => (M.event s.shared e).map fun shared ↦ { s with shared }

/-- At first no thread is in a call. -/
def system (M : Machine μ σ β κ ε) (ι : Type*) [DecidableEq ι] :
    TransitionSystem (Threads μ σ β ι) (Action ι κ ε) where
  initial s := ∃ shared, M.initial shared ∧ s = idle shared
  step := step M

theorem run_cases (h : s.run t = some u) :
    (∃ m p, s.call t = some (.lock m p) ∧ s.holder m = none ∧
      u = { s with
        holder := Function.update s.holder m (some t)
        call := Function.update s.call t (some p) }) ∨
    (∃ m p, s.call t = some (.unlock m p) ∧ s.holder m = some t ∧
      u = { s with
        holder := Function.update s.holder m none
        call := Function.update s.call t (some p) }) ∨
    ∃ f next, s.call t = some (.act f next) ∧
      u = { s with
        shared := f s.shared
        call := Function.update s.call t (some (next s.shared)) } := by
  unfold run at h
  split at h
  · rename_i m p hcall
    split_ifs at h with hfree
    exact Or.inl ⟨m, p, hcall, hfree, (Option.some.inj h).symm⟩
  · rename_i m p hcall
    split_ifs at h with hmine
    exact Or.inr (Or.inl ⟨m, p, hcall, hmine, (Option.some.inj h).symm⟩)
  · rename_i f next hcall
    exact Or.inr (Or.inr ⟨f, next, hcall, (Option.some.inj h).symm⟩)
  · cases h
  · cases h

theorem run_lock {m : μ} {p : Program μ σ β} (hcall : s.call t = some (.lock m p))
    (hfree : s.holder m = none) : s.run t = some { s with
      holder := Function.update s.holder m (some t)
      call := Function.update s.call t (some p) } := by
  simp [run, hcall, hfree]

theorem run_unlock {m : μ} {p : Program μ σ β} (hcall : s.call t = some (.unlock m p))
    (hmine : s.holder m = some t) : s.run t = some { s with
      holder := Function.update s.holder m none
      call := Function.update s.call t (some p) } := by
  simp [run, hcall, hmine]

theorem run_act {f : σ → σ} {next : σ → Program μ σ β}
    (hcall : s.call t = some (.act f next)) : s.run t = some { s with
      shared := f s.shared
      call := Function.update s.call t (some (next s.shared)) } := by
  simp [run, hcall]

end Step

/-! ## Who holds what -/

/-- The mutexes that each thread holds, newest first, are those that its program has
still to unlock. -/
structure Owns (rank : μ → ℕ) (I : σ → Prop) (held : ι → List μ) (s : Threads μ σ β ι) :
    Prop where
  shared : I s.shared
  holder : ∀ t m, m ∈ held t ↔ s.holder m = some t
  nodup : ∀ t, (held t).Nodup
  idle : ∀ t, s.call t = none → held t = []
  orderly : ∀ t p, s.call t = some p → p.Orderly rank I [] (held t)

/-- What the programs and the events of a machine keep to. -/
structure Disciplined (rank : μ → ℕ) (I : σ → Prop) (M : Machine μ σ β κ ε) : Prop where
  initial : ∀ s, M.initial s → I s
  code : ∀ k, (M.code k).Bracketed rank I []
  event : ∀ s e u, I s → M.event s e = some u → I u

section Owns

variable {rank : μ → ℕ} {I : σ → Prop} {held : ι → List μ} {s u : Threads μ σ β ι}
  {M : Machine μ σ β κ ε}

theorem owns_idle {shared : σ} (hI : I shared) :
    Owns rank I (fun _ ↦ []) (idle shared : Threads μ σ β ι) :=
  ⟨hI, by simp [idle], by simp, by simp, by simp [idle]⟩

variable [DecidableEq ι] {t : ι}

theorem Owns.enter (h : Owns rank I held s) {p : Program μ σ β}
    (hp : p.Bracketed rank I []) (hstep : s.enter t p = some u) : Owns rank I held u := by
  obtain ⟨hidle, rfl⟩ := enter_eq_some hstep
  refine ⟨h.shared, h.holder, h.nodup, ?_, ?_⟩
  · intro v hv
    by_cases hvt : v = t
    · subst hvt
      exact h.idle v hidle
    · exact h.idle v (by simpa [hvt] using hv)
  · intro v q hq
    by_cases hvt : v = t
    · subst hvt
      obtain rfl : p = q := by simpa using hq
      exact h.idle v hidle ▸ hp
    · exact h.orderly v q (by simpa [hvt] using hq)

theorem Owns.leave (h : Owns rank I held s) (hstep : s.leave t = some u) :
    Owns rank I held u := by
  obtain ⟨b, hret, rfl⟩ := leave_eq_some hstep
  refine ⟨h.shared, h.holder, h.nodup, ?_, ?_⟩
  · intro v hv
    by_cases hvt : v = t
    · subst hvt
      exact h.orderly v _ hret
    · exact h.idle v (by simpa [hvt] using hv)
  · intro v q hq
    by_cases hvt : v = t
    · simp [hvt] at hq
    · exact h.orderly v q (by simpa [hvt] using hq)

/-- A step inside a call after which the thread `t` holds `mine` and goes on as `p`. -/
theorem Owns.update (h : Owns rank I held s) {mine : List μ} {p q : Program μ σ β}
    {shared : σ} {holder : μ → Option ι} (hshared : I shared)
    (hcall : s.call t = some q) (hmine : mine.Nodup) (hp : p.Orderly rank I [] mine)
    (hholder : ∀ v m, m ∈ Function.update held t mine v ↔ holder m = some v) :
    Owns rank I (Function.update held t mine)
      { shared := shared, holder := holder, call := Function.update s.call t (some p) } := by
  refine ⟨hshared, hholder, ?_, ?_, ?_⟩
  · intro v
    by_cases hvt : v = t
    · simpa [hvt] using hmine
    · simpa [hvt] using h.nodup v
  · intro v hv
    by_cases hvt : v = t
    · simp [hvt] at hv
    · simpa [hvt] using h.idle v (by simpa [hvt] using hv)
  · intro v r hr
    by_cases hvt : v = t
    · subst hvt
      obtain rfl : p = r := by simpa using hr
      simpa using hp
    · simpa [hvt] using h.orderly v r (by simpa [hvt] using hr)

variable [DecidableEq μ]

theorem Owns.run (h : Owns rank I held s) (hstep : s.run t = some u) :
    ∃ mine, Owns rank I (Function.update held t mine) u := by
  rcases run_cases hstep with ⟨m, p, hcall, hfree, rfl⟩ | ⟨m, p, hcall, hmine, rfl⟩ |
    ⟨f, next, hcall, rfl⟩
  · obtain ⟨habove, hp⟩ := h.orderly t _ hcall
    refine ⟨m :: held t, h.update h.shared hcall ?_ hp ?_⟩
    · exact List.nodup_cons.mpr ⟨fun hm ↦ lt_irrefl _ (habove m hm), h.nodup t⟩
    · intro v k
      have hk := h.holder v k
      by_cases hvt : v = t <;> by_cases hkm : k = m
      · simp [hvt, hkm]
      · subst hvt
        simp [hkm, hk]
      · subst hkm
        simp [hvt, hk, hfree, Ne.symm hvt]
      · simp [hvt, hkm, hk]
  · obtain ⟨rest, hheld, hp⟩ := h.orderly t _ hcall
    have hnodup := h.nodup t
    rw [hheld] at hnodup
    obtain ⟨hm, hrest⟩ := List.nodup_cons.mp hnodup
    refine ⟨rest, h.update h.shared hcall hrest hp ?_⟩
    intro v k
    have hk := h.holder v k
    by_cases hvt : v = t <;> by_cases hkm : k = m
    · subst hkm hvt
      simp [hm]
    · subst hvt
      rw [hheld] at hk
      simpa [hkm] using hk
    · subst hkm
      have hother : k ∉ held v := by
        rw [hk, hmine]
        simp [Ne.symm hvt]
      simp [hvt, hother]
    · simp [hvt, hkm, hk]
  · obtain ⟨hf, hp⟩ := h.orderly t _ hcall s.shared h.shared
    refine ⟨held t, h.update hf hcall (h.nodup t) hp ?_⟩
    intro v k
    rw [Function.update_eq_self]
    exact h.holder v k

theorem Owns.step (hM : Disciplined rank I M) (h : Owns rank I held s) {a : Action ι κ ε}
    (hstep : step M s a = some u) : ∃ held, Owns rank I held u := by
  cases a with
  | call t k => exact ⟨held, h.enter (hM.code k) hstep⟩
  | run t =>
      obtain ⟨mine, hu⟩ := h.run hstep
      exact ⟨_, hu⟩
  | leave t => exact ⟨held, h.leave hstep⟩
  | event e =>
      obtain ⟨shared, hevent, rfl⟩ := Option.map_eq_some_iff.mp hstep
      exact ⟨held, hM.event _ e _ h.shared hevent, h.holder, h.nodup, h.idle, h.orderly⟩

theorem exists_owns_of_reachable (hM : Disciplined rank I M)
    {allowed : Threads μ σ β ι → Action ι κ ε → Prop}
    (h : (system M ι).Reachable allowed s) : ∃ held, Owns rank I held s := by
  apply h.invariant (I := fun s ↦ ∃ held, Owns rank I held s)
  · rintro s ⟨shared, hshared, rfl⟩
    exact ⟨_, owns_idle (hM.initial shared hshared)⟩
  · rintro s a u ⟨held, hs⟩ _ hstep
    exact hs.step hM hstep

end Owns

/-! ## No deadlock -/

/-- The mutex that a program is about to lock. -/
def awaited : Option (Program μ σ β) → Option μ
  | some (.lock m _) => some m
  | _ => none

section Progress

variable [DecidableEq ι] [DecidableEq μ] {rank : μ → ℕ} {I : σ → Prop} {held : ι → List μ}
  {s u : Threads μ σ β ι} {t : ι} {M : Machine μ σ β κ ε}

/-- A thread that can take no step of its own waits for a mutex that another one holds. -/
theorem Owns.waits (h : Owns rank I held s) {p : Program μ σ β} (hcall : s.call t = some p)
    (hrun : s.run t = none) (hleave : s.leave t = none) :
    ∃ m v, awaited (s.call t) = some m ∧ (∀ k ∈ held t, rank k < rank m) ∧ m ∈ held v := by
  cases p with
  | ret b => simp [leave_ret hcall] at hleave
  | act f next => simp [run_act hcall] at hrun
  | unlock m p =>
      obtain ⟨rest, hheld, _⟩ := h.orderly t _ hcall
      have hmine : s.holder m = some t := (h.holder t m).mp (by simp [hheld])
      simp [run_unlock hcall hmine] at hrun
  | lock m p =>
      cases hholder : s.holder m with
      | none => simp [run_lock hcall hholder] at hrun
      | some v =>
          exact ⟨m, v, by rw [hcall]; rfl, (h.orderly t _ hcall).1, (h.holder v m).mpr hholder⟩

/-- Of the threads in a call, one that waits for a mutex of the highest rank cannot be
blocked, because the holder of that mutex would wait for a higher one. -/
theorem Owns.exists_step [Finite ι] (h : Owns rank I held s)
    (hbusy : ∃ t, s.call t ≠ none) : ∃ t u, s.run t = some u ∨ s.leave t = some u := by
  by_contra hstuck
  have hblocked : ∀ t, s.run t = none ∧ s.leave t = none := by
    intro t
    constructor
    · exact Option.eq_none_iff_forall_ne_some.mpr fun u hu ↦ hstuck ⟨t, u, Or.inl hu⟩
    · exact Option.eq_none_iff_forall_ne_some.mpr fun u hu ↦ hstuck ⟨t, u, Or.inr hu⟩
  obtain ⟨t₀, ht₀⟩ := hbusy
  have : Nonempty ι := ⟨t₀⟩
  obtain ⟨t, htop⟩ := Finite.exists_max fun t ↦ (awaited (s.call t)).elim 0 fun m ↦ rank m + 1
  have htbusy : s.call t ≠ none := by
    intro hidle
    obtain ⟨p₀, hp₀⟩ := Option.ne_none_iff_exists'.mp ht₀
    obtain ⟨m, _, hm, _⟩ := h.waits hp₀ (hblocked t₀).1 (hblocked t₀).2
    have hle := htop t₀
    simp only [hm, hidle] at hle
    exact absurd hle (Nat.not_succ_le_zero _)
  obtain ⟨p, hp⟩ := Option.ne_none_iff_exists'.mp htbusy
  obtain ⟨m, v, hm, _, hv⟩ := h.waits hp (hblocked t).1 (hblocked t).2
  have hvbusy : s.call v ≠ none := fun hidle ↦ by simp [h.idle v hidle] at hv
  obtain ⟨q, hq⟩ := Option.ne_none_iff_exists'.mp hvbusy
  obtain ⟨k, _, hk, habove, _⟩ := h.waits hq (hblocked v).1 (hblocked v).2
  have hlt : rank m < rank k := habove m hv
  have hle := htop v
  simp only [hk, hm, Option.elim_some] at hle
  omega

end Progress

/-! ## Every call returns -/

/-- What is left to do after one step of a call. -/
inductive Shorter : Option (Program μ σ β) → Option (Program μ σ β) → Prop
  | ret (b : β) : Shorter none (some (.ret b))
  | lock (m : μ) (p : Program μ σ β) : Shorter (some p) (some (.lock m p))
  | unlock (m : μ) (p : Program μ σ β) : Shorter (some p) (some (.unlock m p))
  | act (f : σ → σ) (next : σ → Program μ σ β) (s : σ) :
      Shorter (some (next s)) (some (.act f next))

theorem wellFounded_shorter : WellFounded (Shorter : Option (Program μ σ β) → _ → Prop) := by
  have hnone : Acc Shorter (none : Option (Program μ σ β)) := ⟨_, fun _ h ↦ nomatch h⟩
  have hsome : ∀ p : Program μ σ β, Acc Shorter (some p) := by
    intro p
    induction p with
    | ret b =>
        constructor
        rintro _ ⟨⟩
        exact hnone
    | lock m p ih =>
        constructor
        rintro _ ⟨⟩
        exact ih
    | unlock m p ih =>
        constructor
        rintro _ ⟨⟩
        exact ih
    | act f next ih =>
        constructor
        rintro _ ⟨⟩
        exact ih _
  refine ⟨fun p ↦ ?_⟩
  cases p with
  | none => exact hnone
  | some p => exact hsome p

section Settles

variable [DecidableEq ι] [DecidableEq μ] {rank : μ → ℕ} {I : σ → Prop} {held : ι → List μ}
  {s u : Threads μ σ β ι} {t : ι} {M : Machine μ σ β κ ε}

theorem shorter_of_own {a : Action ι κ ε} (ha : own s a) (hstep : step M s a = some u) :
    ∃ t p, Shorter p (s.call t) ∧ u.call = Function.update s.call t p := by
  cases a with
  | call | event => exact ha.elim
  | run t =>
      rcases run_cases hstep with ⟨m, p, hcall, _, rfl⟩ | ⟨m, p, hcall, _, rfl⟩ |
        ⟨f, next, hcall, rfl⟩
      · exact ⟨t, some p, hcall ▸ .lock m p, rfl⟩
      · exact ⟨t, some p, hcall ▸ .unlock m p, rfl⟩
      · exact ⟨t, some (next s.shared), hcall ▸ .act f next s.shared, rfl⟩
  | leave t =>
      obtain ⟨b, hcall, rfl⟩ := leave_eq_some hstep
      exact ⟨t, none, hcall ▸ .ret b, rfl⟩

/-- The threads are the heads of a hydra: each step cuts one and grows a shorter one. -/
theorem settles [Finite ι] (s : Threads μ σ β ι) : (system M ι).Settles own s := by
  have := Fintype.ofFinite ι
  let heads : Threads μ σ β ι → Multiset (Option (Program μ σ β)) :=
    fun s ↦ Finset.univ.val.map s.call
  have hsplit : ∀ (s : Threads μ σ β ι) (t : ι),
      heads s = {s.call t} + (Finset.univ.erase t).val.map s.call := by
    intro s t
    change Multiset.map s.call Finset.univ.val = _
    rw [← Multiset.cons_erase (Finset.mem_univ_val t), Multiset.map_cons]
    rfl
  have hwf := InvImage.wf heads wellFounded_shorter.cutExpand
  apply Subrelation.accessible _ (hwf.apply s)
  rintro u s ⟨a, ha, hstep⟩
  obtain ⟨t, p, hshorter, hcall⟩ := shorter_of_own ha hstep
  have hothers : (Finset.univ.erase t).val.map u.call =
      (Finset.univ.erase t).val.map s.call := by
    apply Multiset.map_congr rfl
    intro v hv
    have hvt : v ≠ t := (Finset.mem_erase.mp hv).1
    simp [hcall, hvt]
  have hcut : Relation.CutExpand Shorter (heads u) (heads s) := by
    rw [hsplit u t, hsplit s t, hothers, hcall, Function.update_self]
    exact Relation.cutExpand_single_add hshorter _
  exact hcut

variable (M) in
/-- Left to themselves, the threads come to the end of their calls in whatever order
they take their steps, and then no mutex is held. -/
structure Returns (s : Threads μ σ β ι) : Prop where
  settles : (system M ι).Settles own s
  returned : ∀ u, (system M ι).Leads own s u → (∀ a, own u a → step M u a = none) →
    (∀ t, u.call t = none) ∧ ∀ m, u.holder m = none

theorem Owns.returns [Finite ι] (hM : Disciplined rank I M) (h : Owns rank I held s) :
    Returns M s := by
  refine ⟨settles s, ?_⟩
  intro u hu hend
  obtain ⟨held', h'⟩ : ∃ held, Owns rank I held u :=
    hu.invariant (I := fun u ↦ ∃ held, Owns rank I held u)
      (fun _ _ _ ⟨_, hs⟩ _ hstep ↦ hs.step hM hstep) ⟨held, h⟩
  have hidle : ∀ t, u.call t = none := by
    by_contra hbusy
    obtain ⟨t, ht⟩ := Classical.not_forall.mp hbusy
    obtain ⟨v, w, hrun | hleave⟩ := h'.exists_step ⟨t, ht⟩
    · have hnone := hend (.run v) trivial
      simp [Threads.step, hrun] at hnone
    · have hnone := hend (.leave v) trivial
      simp [Threads.step, hleave] at hnone
  refine ⟨hidle, ?_⟩
  intro m
  apply Option.eq_none_iff_forall_ne_some.mpr
  intro t ht
  have hm := (h'.holder t m).mpr ht
  simp [h'.idle t (hidle t)] at hm

theorem returns_of_reachable [Finite ι] (hM : Disciplined rank I M)
    {allowed : Threads μ σ β ι → Action ι κ ε → Prop}
    (h : (system M ι).Reachable allowed s) : Returns M s := by
  obtain ⟨held, hs⟩ := exists_owns_of_reachable hM h
  exact hs.returns hM

theorem shared_of_reachable (hM : Disciplined rank I M)
    {allowed : Threads μ σ β ι → Action ι κ ε → Prop}
    (h : (system M ι).Reachable allowed s) : I s.shared := by
  obtain ⟨_, hs⟩ := exists_owns_of_reachable hM h
  exact hs.shared

end Settles

/-! ## One thread at a time -/

section Alone

variable [DecidableEq ι] [DecidableEq μ] {rank : μ → ℕ} {I : σ → Prop} {s : Threads μ σ β ι}
  {t : ι} {M : Machine μ σ β κ ε}

theorem leads_run {u : Threads μ σ β ι} (h : s.run t = some u) :
    (system M ι).Leads own s u :=
  (TransitionSystem.Leads.refl s).snoc (a := .run t) trivial h

/-- While only the thread `t` holds mutexes, nothing keeps it from finishing. -/
theorem leads_finish {p : Program μ σ β} {held : List μ} (hp : p.Orderly rank I [] held)
    (hnodup : held.Nodup) (hI : I s.shared) (hcall : s.call t = some p)
    (hmine : ∀ m ∈ held, s.holder m = some t) (hfree : ∀ m ∉ held, s.holder m = none) :
    (system M ι).Leads own s
      { shared := p.finish s.shared
        holder := fun _ ↦ none
        call := Function.update s.call t (some (.ret (p.answer s.shared))) } := by
  induction p generalizing s held with
  | ret b =>
      obtain rfl : held = [] := hp
      have hsame : s = { shared := s.shared, holder := fun _ ↦ none
                         call := Function.update s.call t (some (.ret b)) } := by
        have hholder : s.holder = fun _ ↦ none := funext fun m ↦ hfree m (by simp)
        rw [← hholder, ← hcall, Function.update_eq_self]
      exact hsame ▸ TransitionSystem.Leads.refl s
  | lock m p ih =>
      have hm : m ∉ held := fun hm ↦ lt_irrefl _ (hp.1 m hm)
      have hstep := run_lock hcall (hfree m hm)
      have hrest := ih (s := { s with
          holder := Function.update s.holder m (some t)
          call := Function.update s.call t (some p) }) hp.2 (List.nodup_cons.mpr ⟨hm, hnodup⟩)
        hI (by simp) ?_ ?_
      · simp only [Function.update_idem] at hrest
        exact (leads_run hstep).trans hrest
      · intro k hk
        by_cases hkm : k = m
        · simp [hkm]
        · simpa [hkm] using hmine k (List.mem_of_ne_of_mem hkm hk)
      · intro k hk
        obtain ⟨hkm, hkheld⟩ := not_or.mp (mt List.mem_cons.mpr hk)
        simpa [hkm] using hfree k hkheld
  | unlock m p ih =>
      obtain ⟨rest, rfl, hp⟩ := hp
      obtain ⟨hm, hrestnodup⟩ := List.nodup_cons.mp hnodup
      have hstep := run_unlock hcall (hmine m (by simp))
      have hrest := ih (s := { s with
          holder := Function.update s.holder m none
          call := Function.update s.call t (some p) }) hp hrestnodup hI (by simp) ?_ ?_
      · simp only [Function.update_idem] at hrest
        exact (leads_run hstep).trans hrest
      · intro k hk
        have hkm : k ≠ m := fun heq ↦ hm (heq ▸ hk)
        simpa [hkm] using hmine k (List.mem_cons_of_mem m hk)
      · intro k hk
        by_cases hkm : k = m
        · simp [hkm]
        · simpa [hkm] using hfree k (by simp [hkm, hk])
  | act f next ih =>
      obtain ⟨hf, hnext⟩ := hp s.shared hI
      have hstep := run_act hcall
      have hrest := ih s.shared (s := { s with
          shared := f s.shared
          call := Function.update s.call t (some (next s.shared)) }) hnext hnodup hf (by simp)
        hmine hfree
      simp only [Function.update_idem] at hrest
      exact (leads_run hstep).trans hrest

/-- A call that no other thread disturbs has its effect all at once. -/
theorem leads_call (hM : Disciplined rank I M) {shared : σ} (hI : I shared) (t : ι) (k : κ) :
    (system M ι).Leads TransitionSystem.anyStep (idle shared)
      (idle ((M.code k).finish shared)) := by
  let entered : Threads μ σ β ι :=
    ⟨shared, fun _ ↦ none, Function.update (fun _ ↦ none) t (some (M.code k))⟩
  have henter : (system M ι).step (idle shared) (.call t k) = some entered :=
    enter_idle (s := idle shared) rfl
  have hrun := leads_finish (M := M) (s := entered) (t := t) (hM.code k) List.nodup_nil hI
    (by simp [entered]) (by simp) fun _ _ ↦ rfl
  let finished : Threads μ σ β ι := ⟨(M.code k).finish shared, fun _ ↦ none,
    Function.update entered.call t (some (.ret ((M.code k).answer shared)))⟩
  have hleave : (system M ι).step finished (.leave t) = some (idle finished.shared) := by
    have hstep := leave_ret (s := finished) (t := t) (Function.update_self _ _ _)
    have hidle : Function.update finished.call t none = fun _ ↦ none := by
      simp only [finished, entered, Function.update_idem]
      exact Function.update_eq_self t fun _ ↦ none
    rw [hidle] at hstep
    exact hstep
  have hanyway : (system M ι).Leads TransitionSystem.anyStep entered finished :=
    hrun.mono fun _ _ _ ↦ trivial
  exact (((TransitionSystem.Leads.refl _).snoc trivial henter).trans hanyway).snoc trivial hleave

theorem leads_event {shared shared' : σ} {e : ε} (h : M.event shared e = some shared') :
    (system M ι).Leads TransitionSystem.anyStep (idle shared) (idle shared') := by
  refine (TransitionSystem.Leads.refl (idle shared)).snoc (a := .event e) trivial ?_
  exact Option.map_eq_some_iff.mpr ⟨shared', h, rfl⟩

/-- What a system reaches whose steps are calls and events, the threads reach as well. -/
theorem reachable_idle {α : Type*} [Nonempty ι] (hM : Disciplined rank I M)
    {A : TransitionSystem σ α} {allowed : σ → α → Prop}
    (hinitial : ∀ shared, A.initial shared → M.initial shared)
    (hstep : ∀ (_ : ι) shared a shared', I shared → A.step shared a = some shared' →
      (system M ι).Leads TransitionSystem.anyStep (idle shared) (idle shared'))
    {shared : σ} (h : A.Reachable allowed shared) :
    (system M ι).Reachable TransitionSystem.anyStep (idle shared) := by
  obtain ⟨t⟩ := ‹Nonempty ι›
  apply h.invariant (I := fun shared ↦
    (system M ι).Reachable TransitionSystem.anyStep (idle shared))
  · exact fun shared hshared ↦ .initial ⟨shared, hinitial shared hshared, rfl⟩
  · intro shared a shared' hreachable _ ha
    exact hreachable.leads (hstep t shared a shared' (shared_of_reachable hM hreachable) ha)

end Alone

/-! ## Deadlock -/

section Deadlock

variable [DecidableEq ι] [DecidableEq μ] {s u : Threads μ σ β ι} {t v : ι}
  {M : Machine μ σ β κ ε}

/-- Each of two threads waits for a mutex that the other holds. -/
structure Embrace (t v : ι) (m k : μ) (p q : Program μ σ β) (s : Threads μ σ β ι) : Prop where
  left : s.call t = some (.lock m p)
  right : s.call v = some (.lock k q)
  leftWaits : s.holder m = some v
  rightWaits : s.holder k = some t

/-- In a call that cannot go on. -/
def Stuck (t : ι) (s : Threads μ σ β ι) : Prop :=
  s.call t ≠ none ∧ s.run t = none ∧ s.leave t = none

variable {m k : μ} {p q : Program μ σ β}

theorem stuck_of_lock (hcall : s.call t = some (.lock m p)) (hheld : s.holder m = some v) :
    Stuck t s := by
  refine ⟨by simp [hcall], by simp [run, hcall, hheld], by simp [leave, hcall]⟩

theorem Embrace.step (h : Embrace t v m k p q s) {a : Action ι κ ε}
    (hstep : step M s a = some u) : Embrace t v m k p q u := by
  obtain ⟨hleft, hright, hm, hk⟩ := h
  have hother : ∀ w (c : Option (Program μ σ β)), w ≠ t → w ≠ v →
      Function.update s.call w c t = some (.lock m p) ∧
        Function.update s.call w c v = some (.lock k q) := by
    intro w c hwt hwv
    simp [Ne.symm hwt, Ne.symm hwv, hleft, hright]
  cases a with
  | call w c =>
      obtain ⟨hidle, rfl⟩ := enter_eq_some hstep
      have hwt : w ≠ t := by rintro rfl; simp [hleft] at hidle
      have hwv : w ≠ v := by rintro rfl; simp [hright] at hidle
      exact ⟨(hother w _ hwt hwv).1, (hother w _ hwt hwv).2, hm, hk⟩
  | leave w =>
      obtain ⟨b, hret, rfl⟩ := leave_eq_some hstep
      have hwt : w ≠ t := by rintro rfl; simp [hleft] at hret
      have hwv : w ≠ v := by rintro rfl; simp [hright] at hret
      exact ⟨(hother w _ hwt hwv).1, (hother w _ hwt hwv).2, hm, hk⟩
  | event e =>
      obtain ⟨shared, _, rfl⟩ := Option.map_eq_some_iff.mp hstep
      exact ⟨hleft, hright, hm, hk⟩
  | run w =>
      rcases run_cases hstep with ⟨n, r, hcall, hfree, rfl⟩ | ⟨n, r, hcall, hmine, rfl⟩ |
        ⟨f, next, hcall, rfl⟩
      · have hnm : m ≠ n := by rintro rfl; simp [hm] at hfree
        have hnk : k ≠ n := by rintro rfl; simp [hk] at hfree
        have hwt : w ≠ t := by
          rintro rfl
          cases hleft.symm.trans hcall
          exact hnm rfl
        have hwv : w ≠ v := by
          rintro rfl
          cases hright.symm.trans hcall
          exact hnk rfl
        exact ⟨(hother w _ hwt hwv).1, (hother w _ hwt hwv).2, by simp [hnm, hm],
          by simp [hnk, hk]⟩
      · have hwt : w ≠ t := by rintro rfl; simp [hleft] at hcall
        have hwv : w ≠ v := by rintro rfl; simp [hright] at hcall
        have hnm : m ≠ n := by
          rintro rfl
          exact hwv (Option.some.inj (hmine.symm.trans hm))
        have hnk : k ≠ n := by
          rintro rfl
          exact hwt (Option.some.inj (hmine.symm.trans hk))
        exact ⟨(hother w _ hwt hwv).1, (hother w _ hwt hwv).2, by simp [hnm, hm],
          by simp [hnk, hk]⟩
      · have hwt : w ≠ t := by rintro rfl; simp [hleft] at hcall
        have hwv : w ≠ v := by rintro rfl; simp [hright] at hcall
        exact ⟨(hother w _ hwt hwv).1, (hother w _ hwt hwv).2, hm, hk⟩

/-- One call locks a second mutex behind a first one, another takes the two the other
way round: if the first one is overtaken in between, the two embrace. -/
theorem leads_embrace {k₁ k₂ : κ} {shared : σ} {f : σ → σ} {next : σ → Program μ σ β}
    (htv : t ≠ v) (hmk : m ≠ k) (h₁ : M.code k₁ = .lock k (.act f next))
    (hnext : next shared = .lock m p) (h₂ : M.code k₂ = .lock m (.lock k q)) :
    ∃ u, (system M ι).Leads TransitionSystem.anyStep (idle shared) u ∧
      Embrace t v m k p q u := by
  let s₁ : Threads μ σ β ι :=
    ⟨shared, fun _ ↦ none, Function.update (fun _ ↦ none) t (some (M.code k₁))⟩
  let s₂ : Threads μ σ β ι := { s₁ with
    holder := Function.update (fun _ ↦ none) k (some t)
    call := Function.update s₁.call t (some (.act f next)) }
  let s₃ : Threads μ σ β ι := { s₂ with
    shared := f shared
    call := Function.update s₂.call t (some (next shared)) }
  let s₄ : Threads μ σ β ι := { s₃ with
    call := Function.update s₃.call v (some (M.code k₂)) }
  let s₅ : Threads μ σ β ι := { s₄ with
    holder := Function.update s₄.holder m (some v)
    call := Function.update s₄.call v (some (.lock k q)) }
  have hvt : v ≠ t := Ne.symm htv
  have hcall₁ : (system M ι).step (idle shared) (.call t k₁) = some s₁ :=
    enter_idle (s := idle shared) rfl
  have hlock₁ : (system M ι).step s₁ (.run t) = some s₂ :=
    run_lock (s := s₁) (by simp [s₁, h₁]) rfl
  have hact : (system M ι).step s₂ (.run t) = some s₃ := run_act (s := s₂) (by simp [s₂])
  have hcall₂ : (system M ι).step s₃ (.call v k₂) = some s₄ :=
    enter_idle (s := s₃) (by simp [s₃, s₂, s₁, hvt])
  have hlock₂ : (system M ι).step s₄ (.run v) = some s₅ :=
    run_lock (s := s₄) (by simp [s₄, h₂]) (by simp [s₄, s₃, s₂, hmk])
  refine ⟨s₅, ?_, ?_⟩
  · exact (((((TransitionSystem.Leads.refl _).snoc trivial hcall₁).snoc trivial hlock₁).snoc
      trivial hact).snoc trivial hcall₂).snoc trivial hlock₂
  · refine ⟨?_, ?_, ?_, ?_⟩
    · simp [s₅, s₄, s₃, htv, hnext]
    · simp [s₅]
    · simp [s₅]
    · simp [s₅, s₄, s₃, s₂, Ne.symm hmk]

/-- Nothing that happens afterwards frees the two threads. -/
theorem Embrace.forever (h : Embrace t v m k p q s)
    (hrun : (system M ι).Leads TransitionSystem.anyStep s u) : Stuck t u ∧ Stuck v u := by
  have hu : Embrace t v m k p q u := hrun.invariant (fun _ _ _ hs _ hstep ↦ hs.step hstep) h
  exact ⟨stuck_of_lock hu.left hu.leftWaits, stuck_of_lock hu.right hu.rightWaits⟩

end Deadlock

end Threads
