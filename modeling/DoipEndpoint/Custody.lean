import DoipEndpoint.Threads
import Mathlib.Algebra.BigOperators.Group.Finset.Piecewise

/-!
# What threads carry

What one thread has taken out of the shared state and not yet put back is missing there
for all others.  Here it is a token that the thread carries from step to step, and an
invariant speaks of the state together with the tokens of all threads.  What a thread has
read while it holds a mutex stays true until it unlocks it, if all writes to that data
are made under the mutex.  Both are checked act by act, one program at a time, and then
hold for every interleaving.
-/

/-- A mutex with the data that it protects, and what one act may do to the state and to
the tokens that all threads carry together. -/
structure Custody (μ σ V M : Type*) where
  mutex : μ
  view : σ → V
  trade : σ → M → σ → M → Prop
  refl : ∀ s n, trade s n s n

namespace Program

variable {μ σ β γ V M : Type*}

/-- Every act is one of those that `Q` allows. -/
def Acts (Q : σ → σ → Prop) : Program μ σ β → Prop
  | .ret _ => True
  | .lock _ p | .unlock _ p => Acts Q p
  | .act f next => ∀ s, Q s (f s) ∧ Acts Q (next s)

section Acts

variable {Q : σ → σ → Prop}

theorem Acts.ret {b : β} : Acts Q (.ret b : Program μ σ β) := trivial

theorem Acts.skip : Acts Q (skip : Program μ σ Unit) := trivial

theorem Acts.act {f : σ → σ} {next : σ → Program μ σ β} (hf : ∀ s, Q s (f s))
    (hnext : ∀ s, Acts Q (next s)) : Acts Q (.act f next) :=
  fun s ↦ ⟨hf s, hnext s⟩

theorem Acts.simply {f : σ → σ} (hf : ∀ s, Q s (f s)) :
    Acts Q (simply f : Program μ σ Unit) :=
  Acts.act hf fun _ ↦ Acts.skip

theorem Acts.choose (hQ : ∀ s, Q s s) {next : σ → Program μ σ β}
    (hnext : ∀ s, Acts Q (next s)) : Acts Q (choose next) :=
  Acts.act hQ hnext

theorem Acts.bind {p : Program μ σ β} {q : β → Program μ σ γ} (hp : Acts Q p)
    (hq : ∀ b, Acts Q (q b)) : Acts Q (p.bind q) := by
  induction p with
  | ret b => exact hq b
  | lock m p ih => exact ih hp
  | unlock m p ih => exact ih hp
  | act f next ih => exact fun s ↦ ⟨(hp s).1, ih s (hp s).2⟩

theorem Acts.andThen {p : Program μ σ Unit} {q : Program μ σ β} (hp : Acts Q p)
    (hq : Acts Q q) : Acts Q (p.andThen q) :=
  hp.bind fun _ ↦ hq

theorem Acts.guarded {m : μ} {p : Program μ σ β} (hp : Acts Q p) : Acts Q (guarded m p) :=
  Acts.bind (q := fun b ↦ .unlock m (.ret b)) hp fun _ ↦ trivial

theorem Acts.forEach {α : Type*} {l : List α} {p : α → Program μ σ Unit}
    (hp : ∀ a, Acts Q (p a)) : Acts Q (forEach l p) := by
  induction l with
  | nil => exact Acts.skip
  | cons a l ih => exact (hp a).andThen ih

end Acts

/-- The mutex `m` is neither locked nor unlocked. -/
def Avoids (m : μ) : Program μ σ β → Prop
  | .ret _ => True
  | .lock k p | .unlock k p => k ≠ m ∧ Avoids m p
  | .act _ next => ∀ s, Avoids m (next s)

section Avoids

variable {m : μ}

theorem Avoids.simply {f : σ → σ} : Avoids m (simply f : Program μ σ Unit) := fun _ ↦ trivial

theorem Avoids.bind {p : Program μ σ β} {q : β → Program μ σ γ} (hp : Avoids m p)
    (hq : ∀ b, Avoids m (q b)) : Avoids m (p.bind q) := by
  induction p with
  | ret b => exact hq b
  | lock k p ih => exact ⟨hp.1, ih hp.2⟩
  | unlock k p ih => exact ⟨hp.1, ih hp.2⟩
  | act f next ih => exact fun s ↦ ih s (hp s)

theorem Avoids.guarded {k : μ} {p : Program μ σ β} (hk : k ≠ m) (hp : Avoids m p) :
    Avoids m (guarded k p) :=
  ⟨hk, Avoids.bind hp fun _ ↦ ⟨hk, trivial⟩⟩

theorem Avoids.forEach {α : Type*} {l : List α} {p : α → Program μ σ Unit}
    (hp : ∀ a, Avoids m (p a)) : Avoids m (forEach l p) := by
  induction l with
  | nil => trivial
  | cons a l ih => exact Avoids.bind (hp a) fun _ ↦ ih

end Avoids

variable [DecidableEq μ] [AddCommMonoid M]

/-- With the protected data `known` while it holds the mutex, and with the tokens `n`,
the program goes on to what `post` says of its answer and of the tokens that are left. -/
def Keeps (C : Custody μ σ V M) (post : β → M → Prop) :
    Option V → M → Program μ σ β → Prop
  | _, n, .ret b => post b n
  | known, n, .lock m p =>
      if m = C.mutex then ∀ v, Keeps C post (some v) n p else Keeps C post known n p
  | known, n, .unlock m p =>
      if m = C.mutex then Keeps C post none n p else Keeps C post known n p
  | known, n, .act f next => ∀ s, (∀ v, known = some v → C.view s = v) →
      (known = none → C.view (f s) = C.view s) ∧
      ∃ left, (∀ rest, C.trade s (n + rest) (f s) (left + rest)) ∧
        Keeps C post (known.map fun _ ↦ C.view (f s)) left (next s)

/-- From the tokens `n` to the tokens `left`, whatever is known before. -/
abbrev Carries (C : Custody μ σ V M) (n left : M) (p : Program μ σ β) : Prop :=
  Keeps C (fun _ n' ↦ n' = left) none n p

section Keeps

variable {C : Custody μ σ V M} {post : β → M → Prop} {known : Option V} {n : M}

/-- To know more does no harm. -/
theorem Keeps.of_none {p : Program μ σ β} (h : Keeps C post none n p) :
    Keeps C post known n p := by
  induction p generalizing known n with
  | ret b => exact h
  | lock m p ih =>
      simp only [Keeps] at h ⊢
      split_ifs at h ⊢ with hm
      · exact h
      · exact ih h
  | unlock m p ih =>
      simp only [Keeps] at h ⊢
      split_ifs at h ⊢ with hm
      · exact h
      · exact ih h
  | act f next ih =>
      intro s _
      obtain ⟨hview, left, htrade, hnext⟩ := h s (by simp)
      exact ⟨fun _ ↦ hview rfl, left, htrade, ih s hnext⟩

theorem Keeps.bind {k : β → M → Prop} {p : Program μ σ β} {q : β → Program μ σ γ}
    {post : γ → M → Prop} (hp : Keeps C k known n p)
    (hq : ∀ b n', k b n' → Keeps C post none n' (q b)) : Keeps C post known n (p.bind q) := by
  induction p generalizing known n with
  | ret b => exact (hq b n hp).of_none
  | lock m p ih =>
      simp only [Program.bind, Keeps] at hp ⊢
      split_ifs at hp ⊢ with hm
      · exact fun v ↦ ih (hp v)
      · exact ih hp
  | unlock m p ih =>
      simp only [Program.bind, Keeps] at hp ⊢
      split_ifs at hp ⊢ with hm
      · exact ih hp
      · exact ih hp
  | act f next ih =>
      intro s hs
      obtain ⟨hview, left, htrade, hnext⟩ := hp s hs
      exact ⟨hview, left, htrade, ih s hnext⟩

theorem Keeps.andThen {k : M} {p : Program μ σ Unit} {q : Program μ σ β}
    (hp : Keeps C (fun _ n' ↦ n' = k) known n p) (hq : Keeps C post none k q) :
    Keeps C post known n (p.andThen q) := by
  refine hp.bind ?_
  rintro _ n' rfl
  exact hq

theorem Keeps.unlock {m : μ} {b : β} (h : post b n) :
    Keeps C post known n (.unlock m (.ret b)) := by
  simp only [Keeps]
  split_ifs <;> exact h

/-- Under the mutex the protected data is known. -/
theorem Keeps.guarded_own {m : μ} {p : Program μ σ β} (hm : m = C.mutex)
    (hp : ∀ v, Keeps C post (some v) n p) : Keeps C post known n (guarded m p) := by
  change if m = C.mutex then ∀ v, Keeps C post (some v) n _ else Keeps C post known n _
  rw [if_pos hm]
  exact fun v ↦ (hp v).bind fun b n' hpost ↦ Keeps.unlock hpost

theorem Keeps.guarded {m : μ} {p : Program μ σ β} (hm : m ≠ C.mutex)
    (hp : Keeps C post known n p) : Keeps C post known n (guarded m p) := by
  change if m = C.mutex then ∀ v, Keeps C post (some v) n _ else Keeps C post known n _
  rw [if_neg hm]
  exact hp.bind fun b n' hpost ↦ Keeps.unlock hpost

theorem Keeps.choose {next : σ → Program μ σ β} (hnext : ∀ s, Keeps C post none n (next s)) :
    Keeps C post known n (choose next) :=
  fun s _ ↦ ⟨fun _ ↦ rfl, n, fun _ ↦ C.refl s _, (hnext s).of_none⟩

/-- What does not concern the protected data and needs no tokens keeps those that there
are. -/
theorem Acts.carries {Q : σ → σ → Prop} (hview : ∀ s t, Q s t → C.view t = C.view s)
    (htrade : ∀ s t, Q s t → ∀ n, C.trade s n t n) {p : Program μ σ β} (hp : Acts Q p)
    (known : Option V) (n : M) : Keeps C (fun _ n' ↦ n' = n) known n p := by
  induction p generalizing known with
  | ret b => rfl
  | lock m p ih =>
      simp only [Keeps]
      split_ifs
      · exact fun v ↦ ih hp (some v)
      · exact ih hp known
  | unlock m p ih =>
      simp only [Keeps]
      split_ifs
      · exact ih hp none
      · exact ih hp known
  | act f next ih =>
      intro s _
      obtain ⟨hQ, hnext⟩ := hp s
      exact ⟨fun _ ↦ hview s _ hQ, n, fun rest ↦ htrade s _ hQ _, ih s hnext _⟩

/-- What does not concern the protected data does not give up the mutex either. -/
theorem Acts.keeps_bind {Q : σ → σ → Prop} (hview : ∀ s t, Q s t → C.view t = C.view s)
    (htrade : ∀ s t, Q s t → ∀ n, C.trade s n t n) {p : Program μ σ β}
    {q : β → Program μ σ γ} {post : γ → M → Prop} (hp : Acts Q p) (havoids : p.Avoids C.mutex)
    (hq : ∀ b v, Keeps C post (some v) n (q b)) (v : V) :
    Keeps C post (some v) n (p.bind q) := by
  induction p generalizing v with
  | ret b => exact hq b v
  | lock m p ih =>
      simp only [Program.bind, Keeps, if_neg havoids.1]
      exact ih hp havoids.2 v
  | unlock m p ih =>
      simp only [Program.bind, Keeps, if_neg havoids.1]
      exact ih hp havoids.2 v
  | act f next ih =>
      intro s _
      obtain ⟨hQ, hnext⟩ := hp s
      exact ⟨fun _ ↦ hview s _ hQ, n, fun rest ↦ htrade s _ hQ _, ih s hnext (havoids s) _⟩

/-- What the program does if nothing disturbs it is one trade. -/
theorem Keeps.finish (htrans : ∀ s n t n' u n'', C.trade s n t n' → C.trade t n' u n'' →
      C.trade s n u n'') {p : Program μ σ β} {s : σ} (h : Keeps C post known n p)
    (hknown : ∀ v, known = some v → C.view s = v) :
    ∃ left, post (p.answer s) left ∧ C.trade s n (p.finish s) left := by
  induction p generalizing known n s with
  | ret b => exact ⟨n, h, C.refl s n⟩
  | lock m p ih =>
      simp only [Keeps] at h
      split_ifs at h with hm
      · exact ih (h (C.view s)) (by simp)
      · exact ih h hknown
  | unlock m p ih =>
      simp only [Keeps] at h
      split_ifs at h with hm
      · exact ih h (by simp)
      · exact ih h hknown
  | act f next ih =>
      obtain ⟨_, left, htrade, hnext⟩ := h s hknown
      have hfirst : C.trade s n (f s) left := by simpa using htrade 0
      obtain ⟨n', hpost, hrest⟩ := ih s hnext (s := f s) fun v hv ↦ by
        obtain ⟨_, _, rfl⟩ := Option.map_eq_some_iff.mp hv
        rfl
      exact ⟨n', hpost, htrans _ _ _ _ _ _ hfirst hrest⟩

end Keeps

end Program

namespace Threads

open Program

variable {μ σ β ι κ ε V M : Type*} [DecidableEq μ] [AddCommMonoid M]

/-- Each thread knows what it may know, and what it carries suffices for the rest of its
call. -/
structure InCustody (C : Custody μ σ V M) (s : Threads μ σ β ι) (known : ι → Option V)
    (tokens : ι → M) : Prop where
  sees : ∀ t v, known t = some v → s.holder C.mutex = some t ∧ C.view s.shared = v
  idle : ∀ t, s.call t = none → tokens t = 0
  keeps : ∀ t p, s.call t = some p → p.Keeps C (fun _ n ↦ n = 0) (known t) (tokens t)

/-- A call of `k` begins with the tokens `credit k`, no event touches the protected data,
and `P` goes on to hold of the tokens that all calls so far began with, of the state and of
the tokens that the threads carry. -/
structure Accounted (C : Custody μ σ V M) (credit : κ → M) (M' : Machine μ σ β κ ε)
    (allowed : Threads μ σ β ι → Action ι κ ε → Prop) (P : M → σ → M → Prop) : Prop where
  code : ∀ (s : Threads μ σ β ι) t k, allowed s (.call t k) → (M'.code k).Carries C (credit k) 0
  view : ∀ s e u, M'.event s e = some u → C.view u = C.view s
  begins : ∀ k paid s n, P paid s n → P (paid + credit k) s (credit k + n)
  trades : ∀ paid s n u n', P paid s n → C.trade s n u n' → P paid u n'
  happens : ∀ paid (s : Threads μ σ β ι) e u n, allowed s (.event e) → P paid s.shared n →
    M'.event s.shared e = some u → P paid u n

/-- The tokens that a step brings in. -/
def brought (credit : κ → M) : Action ι κ ε → M
  | .call _ k => credit k
  | .run _ | .leave _ | .event _ => 0

variable {C : Custody μ σ V M} {s u : Threads μ σ β ι} {known : ι → Option V}
  {tokens : ι → M} {t : ι}

theorem inCustody_idle (C : Custody μ σ V M) (shared : σ) :
    InCustody C (idle shared : Threads μ σ β ι) (fun _ ↦ none) fun _ ↦ 0 :=
  ⟨by simp, fun _ _ ↦ rfl, by simp [idle]⟩

/-- Only the holder of the mutex knows anything. -/
theorem InCustody.known_eq_none (h : InCustody C s known tokens)
    (hholder : s.holder C.mutex ≠ some t) : known t = none := by
  apply Option.eq_none_iff_forall_ne_some.mpr
  intro v hv
  exact hholder (h.sees t v hv).1

/-- What a thread carries pays for what is left of its call. -/
theorem InCustody.finish (h : InCustody C s known tokens)
    (htrans : ∀ s n t n' u n'', C.trade s n t n' → C.trade t n' u n'' → C.trade s n u n'')
    {p : Program μ σ β} (hcall : s.call t = some p) :
    C.trade s.shared (tokens t) (p.finish s.shared) 0 := by
  obtain ⟨left, hleft, htrade⟩ := (h.keeps t p hcall).finish htrans fun v hv ↦ (h.sees t v hv).2
  exact hleft ▸ htrade

variable [DecidableEq ι]

/-- The thread `t` has made a step: it goes on as `call`, knows `mine` and carries
`left`. -/
theorem InCustody.update (h : InCustody C s known tokens) {shared : σ}
    {holder : μ → Option ι} {call : Option (Program μ σ β)} (mine : Option V) (left : M)
    (hmine : ∀ v, mine = some v → holder C.mutex = some t ∧ C.view shared = v)
    (hothers : ∀ v ≠ t, known v ≠ none →
      holder C.mutex = s.holder C.mutex ∧ C.view shared = C.view s.shared)
    (hidle : call = none → left = 0)
    (hkeeps : ∀ p, call = some p → p.Keeps C (fun _ n ↦ n = 0) mine left) :
    InCustody C ⟨shared, holder, Function.update s.call t call⟩
      (Function.update known t mine) (Function.update tokens t left) := by
  refine ⟨?_, ?_, ?_⟩
  · intro v w hw
    by_cases hvt : v = t
    · subst hvt
      exact hmine w (by simpa using hw)
    · have hw' : known v = some w := by simpa [hvt] using hw
      obtain ⟨hholder, hview⟩ := hothers v hvt (by simp [hw'])
      exact ⟨hholder.trans (h.sees v w hw').1, hview.trans (h.sees v w hw').2⟩
  · intro v hv
    by_cases hvt : v = t
    · subst hvt
      simpa using hidle (by simpa using hv)
    · simpa [hvt] using h.idle v (by simpa [hvt] using hv)
  · intro v p hp
    by_cases hvt : v = t
    · subst hvt
      simpa using hkeeps p (by simpa using hp)
    · simpa [hvt] using h.keeps v p (by simpa [hvt] using hp)

/-- The thread `t` has locked or unlocked a mutex. -/
theorem InCustody.pass (h : InCustody C s known tokens) {holder : μ → Option ι}
    {p : Program μ σ β} (mine : Option V)
    (hmine : ∀ v, mine = some v → holder C.mutex = some t ∧ C.view s.shared = v)
    (hothers : ∀ v ≠ t, known v ≠ none → holder C.mutex = s.holder C.mutex)
    (hkeeps : p.Keeps C (fun _ n ↦ n = 0) mine (tokens t)) :
    InCustody C ⟨s.shared, holder, Function.update s.call t (some p)⟩
      (Function.update known t mine) tokens := by
  have hu : InCustody C ⟨s.shared, holder, Function.update s.call t (some p)⟩
      (Function.update known t mine) (Function.update tokens t (tokens t)) :=
    h.update mine (tokens t) hmine (fun v hvt hv ↦ ⟨hothers v hvt hv, rfl⟩) (by simp)
      (by simpa using hkeeps)
  rwa [Function.update_eq_self] at hu

theorem InCustody.view_run (h : InCustody C s known tokens) (hstep : s.run t = some u)
    (hchanged : C.view u.shared ≠ C.view s.shared) : s.holder C.mutex = some t := by
  rcases run_cases hstep with ⟨m, p, hcall, hfree, rfl⟩ | ⟨m, p, hcall, hmine, rfl⟩ |
    ⟨f, next, hcall, rfl⟩
  · exact absurd rfl hchanged
  · exact absurd rfl hchanged
  · obtain ⟨hview, _⟩ := h.keeps t _ hcall s.shared fun v hv ↦ (h.sees t v hv).2
    by_contra hother
    exact hchanged (hview (h.known_eq_none hother))

/-- Only the holder of the mutex changes what it protects. -/
theorem InCustody.view_step {M' : Machine μ σ β κ ε} (h : InCustody C s known tokens)
    (hevent : ∀ e u, M'.event s.shared e = some u → C.view u = C.view s.shared)
    {a : Action ι κ ε} (hstep : step M' s a = some u)
    (hchanged : C.view u.shared ≠ C.view s.shared) :
    ∃ t, a = .run t ∧ s.holder C.mutex = some t := by
  cases a with
  | call t k =>
      obtain ⟨_, rfl⟩ := enter_eq_some hstep
      exact absurd rfl hchanged
  | run t => exact ⟨t, rfl, h.view_run hstep hchanged⟩
  | leave t =>
      obtain ⟨_, _, rfl⟩ := leave_eq_some hstep
      exact absurd rfl hchanged
  | event e =>
      obtain ⟨shared, he, rfl⟩ := Option.map_eq_some_iff.mp hstep
      exact absurd (hevent e shared he) hchanged

section Sum

variable [Fintype ι]

theorem sum_update (tokens : ι → M) (t : ι) (left : M) :
    ∑ v, Function.update tokens t left v = left + ∑ v ∈ Finset.univ \ {t}, tokens v :=
  Finset.sum_update_of_mem (Finset.mem_univ t) tokens left

theorem sum_eq (tokens : ι → M) (t : ι) :
    ∑ v, tokens v = tokens t + ∑ v ∈ Finset.univ \ {t}, tokens v := by
  rw [← sum_update, Function.update_eq_self]

theorem InCustody.run (h : InCustody C s known tokens) (hstep : s.run t = some u) :
    ∃ known' tokens', InCustody C u known' tokens' ∧
      C.trade s.shared (∑ v, tokens v) u.shared (∑ v, tokens' v) := by
  rcases run_cases hstep with ⟨m, p, hcall, hfree, rfl⟩ | ⟨m, p, hcall, hmine, rfl⟩ |
    ⟨f, next, hcall, rfl⟩
  · have hkeeps := h.keeps t _ hcall
    simp only [Keeps] at hkeeps
    split_ifs at hkeeps with hm
    · subst hm
      refine ⟨_, tokens, h.pass (some (C.view s.shared)) (by simp) ?_ (hkeeps _), C.refl _ _⟩
      intro v _ hv
      exact absurd (h.known_eq_none (by simp [hfree])) hv
    · have hother : Function.update s.holder m (some t) C.mutex = s.holder C.mutex := by
        simp [Ne.symm hm]
      refine ⟨_, tokens, h.pass (known t) ?_ (fun _ _ _ ↦ hother) hkeeps, C.refl _ _⟩
      exact fun v hv ↦ ⟨hother.trans (h.sees t v hv).1, (h.sees t v hv).2⟩
  · have hkeeps := h.keeps t _ hcall
    simp only [Keeps] at hkeeps
    split_ifs at hkeeps with hm
    · subst hm
      refine ⟨_, tokens, h.pass none (by simp) ?_ hkeeps, C.refl _ _⟩
      intro v hvt hv
      exact absurd (h.known_eq_none (by simp [hmine, Ne.symm hvt])) hv
    · have hother : Function.update s.holder m none C.mutex = s.holder C.mutex := by
        simp [Ne.symm hm]
      refine ⟨_, tokens, h.pass (known t) ?_ (fun _ _ _ ↦ hother) hkeeps, C.refl _ _⟩
      exact fun v hv ↦ ⟨hother.trans (h.sees t v hv).1, (h.sees t v hv).2⟩
  · obtain ⟨hview, left, htrade, hnext⟩ := h.keeps t _ hcall s.shared fun v hv ↦ (h.sees t v hv).2
    refine ⟨_, _, h.update (t := t) ((known t).map fun _ ↦ C.view (f s.shared)) left
      ?_ ?_ (by simp) ?_, ?_⟩
    · intro v hv
      obtain ⟨w, hw, hwv⟩ := Option.map_eq_some_iff.mp hv
      exact ⟨(h.sees t w hw).1, hwv⟩
    · -- the mutex is with the thread `v`
      intro v hvt hv
      obtain ⟨w, hw⟩ := Option.ne_none_iff_exists'.mp hv
      exact ⟨rfl, hview (h.known_eq_none (by simp [(h.sees v w hw).1, hvt]))⟩
    · rintro q ⟨⟩
      exact hnext
    · rw [sum_update, sum_eq tokens t]
      exact htrade _

variable {credit : κ → M} {M' : Machine μ σ β κ ε}
  {allowed : Threads μ σ β ι → Action ι κ ε → Prop} {P : M → σ → M → Prop} {paid : M}

theorem InCustody.step (hM : Accounted C credit M' allowed P) (h : InCustody C s known tokens)
    (hP : P paid s.shared (∑ v, tokens v)) {a : Action ι κ ε} (ha : allowed s a)
    (hstep : step M' s a = some u) :
    ∃ known' tokens', InCustody C u known' tokens' ∧
      P (paid + brought credit a) u.shared (∑ v, tokens' v) := by
  cases a with
  | call t k =>
      obtain ⟨hidle, rfl⟩ := enter_eq_some hstep
      refine ⟨_, _, h.update (t := t) none (credit k) (by simp) (fun _ _ _ ↦ ⟨rfl, rfl⟩)
        (by simp) ?_, ?_⟩
      · rintro p ⟨⟩
        exact hM.code s t k ha
      · have hbegun := hM.begins k paid s.shared _ hP
        rw [sum_eq tokens t, h.idle t hidle, zero_add] at hbegun
        rwa [sum_update]
  | run t =>
      obtain ⟨known', tokens', hu, htrade⟩ := h.run hstep
      refine ⟨known', tokens', hu, ?_⟩
      rw [brought, add_zero]
      exact hM.trades paid _ _ _ _ hP htrade
  | leave t =>
      obtain ⟨b, hret, rfl⟩ := leave_eq_some hstep
      have hnone : tokens t = 0 := h.keeps t _ hret
      refine ⟨_, _, h.update (t := t) none 0 (by simp) (fun _ _ _ ↦ ⟨rfl, rfl⟩) (fun _ ↦ rfl)
        (by simp), ?_⟩
      rw [sum_eq tokens t, hnone] at hP
      rwa [brought, add_zero, sum_update]
  | event e =>
      obtain ⟨shared, he, rfl⟩ := Option.map_eq_some_iff.mp hstep
      refine ⟨known, tokens, ⟨?_, h.idle, h.keeps⟩, ?_⟩
      · intro t v hv
        exact ⟨(h.sees t v hv).1, (hM.view _ e _ he).trans (h.sees t v hv).2⟩
      · rw [brought, add_zero]
        exact hM.happens paid s e shared _ ha hP he

/-- What holds of the state and of all tokens at the beginning of a run goes on to hold. -/
theorem InCustody.leads (hM : Accounted C credit M' allowed P) (h : InCustody C s known tokens)
    (paid : M) (hP : P paid s.shared (∑ v, tokens v)) (hrun : (system M' ι).Leads allowed s u) :
    ∃ known' tokens' paid', InCustody C u known' tokens' ∧ P paid' u.shared (∑ v, tokens' v) := by
  refine hrun.invariant (I := fun u ↦ ∃ known' tokens' paid', InCustody C u known' tokens' ∧
    P paid' u.shared (∑ v, tokens' v)) ?_ ⟨known, tokens, paid, h, hP⟩
  rintro s a u ⟨known', tokens', paid', hs, hPs⟩ ha hstep
  obtain ⟨known'', tokens'', hu, hPu⟩ := hs.step hM hPs ha hstep
  exact ⟨known'', tokens'', _, hu, hPu⟩

/-- The same with the tokens that the calls of the run began with. -/
theorem InCustody.of_run [∀ s a, Decidable (allowed s a)] (hM : Accounted C credit M' allowed P)
    (h : InCustody C s known tokens) (hP : P paid s.shared (∑ v, tokens v))
    {as : List (Action ι κ ε)} (hrun : (system M' ι).run allowed as s = some u) :
    ∃ known' tokens', InCustody C u known' tokens' ∧
      P (paid + (as.map (brought credit)).sum) u.shared (∑ v, tokens' v) := by
  induction as generalizing s known tokens paid with
  | nil =>
      obtain rfl : s = u := Option.some.inj hrun
      exact ⟨known, tokens, h, by simpa using hP⟩
  | cons a as ih =>
      obtain ⟨v, ha, hv, hrest⟩ := TransitionSystem.run_cons hrun
      obtain ⟨known', tokens', hs, hPs⟩ := h.step hM hP ha hv
      obtain ⟨known'', tokens'', hu, hPu⟩ := ih hs hPs hrest
      exact ⟨known'', tokens'', hu, by simpa [add_assoc] using hPu⟩

end Sum

end Threads
