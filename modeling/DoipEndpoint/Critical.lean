import DoipEndpoint.Threads

/-!
# Objects behind one mutex

If every call of a machine runs under one mutex, its threads behave like an object on
which each call takes effect at one instant between its begin and its end, although
events may change the state while the mutex is held: it is enough that a call reads
what the events change at one instant only, and that what it does afterwards does not
depend on them.
-/

namespace TransitionSystem

variable {σ α ω : Type*}

/-- The system with a record, newest first, of what can be seen of its steps. -/
def recorded (M : TransitionSystem σ α) (seen : σ → α → List ω) :
    TransitionSystem (σ × List ω) α where
  initial s := M.initial s.1 ∧ s.2 = []
  step s a := (M.step s.1 a).map fun t ↦ (t, seen s.1 a ++ s.2)

theorem recorded_eq_some {M : TransitionSystem σ α} {seen : σ → α → List ω}
    {s u : σ × List ω} {a : α} (h : (M.recorded seen).step s a = some u) :
    M.step s.1 a = some u.1 ∧ u.2 = seen s.1 a ++ s.2 := by
  obtain ⟨t, ht, rfl⟩ := Option.map_eq_some_iff.mp h
  exact ⟨ht, rfl⟩

theorem recorded_step {M : TransitionSystem σ α} {seen : σ → α → List ω} {s t : σ} {a : α}
    (h : M.step s a = some t) (log : List ω) :
    (M.recorded seen).step (s, log) a = some (t, seen s a ++ log) := by
  simp [recorded, h]

end TransitionSystem

/-! ## Calls that take effect at once -/

/-- A call that has begun and may have taken effect. -/
inductive Phase (κ β : Type*) where
  | idle
  | called (k : κ)
  | answered (k : κ) (b : β)

/-- The state of an object, and how far the call of each thread has got. -/
structure AtomicObject (σ κ β ι : Type*) where
  shared : σ
  phase : ι → Phase κ β

/-- What can be seen of a call from outside. -/
inductive Visible (ι κ β ε : Type*) where
  | call (t : ι) (k : κ)
  | returned (t : ι) (b : β)
  | event (e : ε)

namespace AtomicObject

variable {μ σ β ι κ ε : Type*}

inductive Action (ι κ ε : Type*) where
  | call (t : ι) (k : κ)
  | effect (t : ι)
  | leave (t : ι)
  | event (e : ε)

def seen (a : AtomicObject σ κ β ι) : Action ι κ ε → List (Visible ι κ β ε)
  | .call t k => [.call t k]
  | .effect _ => []
  | .leave t =>
      match a.phase t with
      | .answered _ b => [.returned t b]
      | _ => []
  | .event e => [.event e]

variable {M : Machine μ σ β κ ε} {a : AtomicObject σ κ β ι} {t : ι} {k : κ} {b : β}

theorem seen_leave (h : a.phase t = .answered k b) :
    a.seen (.leave t : Action ι κ ε) = [.returned t b] := by
  simp [seen, h]

variable [DecidableEq ι]

def step (M : Machine μ σ β κ ε) (a : AtomicObject σ κ β ι) :
    Action ι κ ε → Option (AtomicObject σ κ β ι)
  | .call t k =>
      match a.phase t with
      | .idle => some { a with phase := Function.update a.phase t (.called k) }
      | _ => none
  | .effect t =>
      match a.phase t with
      | .called k =>
          some ⟨(M.code k).finish a.shared,
            Function.update a.phase t (.answered k ((M.code k).answer a.shared))⟩
      | _ => none
  | .leave t =>
      match a.phase t with
      | .answered _ _ => some { a with phase := Function.update a.phase t .idle }
      | _ => none
  | .event e => (M.event a.shared e).map fun shared ↦ { a with shared }

def system (M : Machine μ σ β κ ε) (ι : Type*) [DecidableEq ι] :
    TransitionSystem (AtomicObject σ κ β ι) (Action ι κ ε) where
  initial a := M.initial a.shared ∧ a.phase = fun _ ↦ .idle
  step := step M

theorem update_phase {phase : Phase κ β} (h : a.phase t = phase) :
    (⟨a.shared, Function.update a.phase t phase⟩ : AtomicObject σ κ β ι) = a := by
  rw [← h, Function.update_eq_self]

theorem step_call (h : a.phase t = .idle) : step M a (.call t k) =
    some { a with phase := Function.update a.phase t (.called k) } := by
  simp [step, h]

theorem step_effect (h : a.phase t = .called k) : step M a (.effect t) =
    some ⟨(M.code k).finish a.shared,
      Function.update a.phase t (.answered k ((M.code k).answer a.shared))⟩ := by
  simp [step, h]

theorem step_leave (h : a.phase t = .answered k b) : step M a (.leave t) =
    some { a with phase := Function.update a.phase t .idle } := by
  simp [step, h]

theorem step_cases {u : AtomicObject σ κ β ι} {x : Action ι κ ε} (h : step M a x = some u) :
    (∃ t k, x = .call t k ∧ a.phase t = .idle ∧
      u = { a with phase := Function.update a.phase t (.called k) }) ∨
    (∃ t k, x = .effect t ∧ a.phase t = .called k ∧
      u = ⟨(M.code k).finish a.shared,
        Function.update a.phase t (.answered k ((M.code k).answer a.shared))⟩) ∨
    (∃ t k b, x = .leave t ∧ a.phase t = .answered k b ∧
      u = { a with phase := Function.update a.phase t .idle }) ∨
    ∃ e shared, x = .event e ∧ M.event a.shared e = some shared ∧ u = { a with shared } := by
  cases x with
  | call t k =>
      cases hphase : a.phase t with
      | idle => exact Or.inl ⟨t, k, rfl, hphase, by simpa [step, hphase] using h.symm⟩
      | called | answered => simp [step, hphase] at h
  | effect t =>
      cases hphase : a.phase t with
      | called k =>
          exact Or.inr (Or.inl ⟨t, k, rfl, hphase, by simpa [step, hphase] using h.symm⟩)
      | idle | answered => simp [step, hphase] at h
  | leave t =>
      cases hphase : a.phase t with
      | answered k b =>
          exact Or.inr (Or.inr (Or.inl
            ⟨t, k, b, rfl, hphase, by simpa [step, hphase] using h.symm⟩))
      | idle | called => simp [step, hphase] at h
  | event e =>
      obtain ⟨shared, he, rfl⟩ := Option.map_eq_some_iff.mp h
      exact Or.inr (Or.inr (Or.inr ⟨e, shared, rfl, he, rfl⟩))

end AtomicObject

namespace Threads

variable {μ σ β ι κ ε : Type*}

def seen (s : Threads μ σ β ι) : Action ι κ ε → List (Visible ι κ β ε)
  | .call t k => [.call t k]
  | .run _ => []
  | .leave t =>
      match s.call t with
      | some (.ret b) => [.returned t b]
      | _ => []
  | .event e => [.event e]

end Threads

/-! ## Critical sections -/

namespace Program

variable {μ σ β κ ε : Type*}

/-- The end of a scope that a `lock_guard` opened. -/
def closing (m : μ) (p : Program μ σ β) : Program μ σ β := p.bind fun b ↦ .unlock m (.ret b)

variable (event : σ → ε → Option σ)

/-- The states to which events alone may lead. -/
def Evolves : σ → σ → Prop := Relation.ReflTransGen fun s t ↦ ∃ e, event s e = some t

/-- What is still to be done has the same effect before an event as after it. -/
def Settled : Program μ σ β → Prop
  | .ret _ => True
  | .act f next =>
      (∀ s e t, event s e = some t →
        event ((act f next).finish s) e = some ((act f next).finish t) ∧
          (act f next).answer t = (act f next).answer s) ∧
      ∀ s, Settled (next s)
  | .lock _ _ | .unlock _ _ => False

/-- Until one act after which the program is settled, it only reads, and what it has read
stays true. -/
def Deciding : Program μ σ β → Prop
  | .ret _ => True
  | .act f next =>
      (∀ s, Settled event (next s)) ∨
      f = id ∧ ∀ s, Deciding (next s) ∧ ∀ t, Evolves event s t →
        (next s).finish t = (act f next).finish t ∧
          (next s).answer t = (act f next).answer t
  | .lock _ _ | .unlock _ _ => False

variable {event}

theorem Deciding.commits {f : σ → σ} {next : σ → Program μ σ β}
    (h : ∀ s, (next s).Settled event) : (act f next).Deciding event :=
  Or.inl h

theorem Settled.lockFree {p : Program μ σ β} (h : p.Settled event) : p.LockFree := by
  induction p with
  | ret b => trivial
  | act f next ih => exact fun s ↦ ih s (h.2 s)
  | lock | unlock => exact h.elim

theorem Deciding.lockFree {p : Program μ σ β} (h : p.Deciding event) : p.LockFree := by
  induction p with
  | ret b => trivial
  | act f next ih =>
      intro s
      rcases h with hsettled | ⟨_, hreads⟩
      · exact (hsettled s).lockFree
      · exact ih s (hreads s).1
  | lock | unlock => exact h.elim

theorem Deciding.reads {next : σ → Program μ σ β} (h : ∀ s, (next s).Deciding event)
    (hstable : ∀ s t, Evolves event s t → next t = next s) : (choose next).Deciding event := by
  refine Or.inr ⟨rfl, fun s ↦ ⟨h s, fun t ht ↦ ?_⟩⟩
  rw [finish_act, answer_act, hstable s t ht]
  exact ⟨rfl, rfl⟩

end Program

/-- Every call runs under the mutex `m`, and is about to decide when it has got it. -/
structure Sectioned {μ σ β κ ε : Type*} (m : μ) (body : κ → Program μ σ β)
    (M : Machine μ σ β κ ε) : Prop where
  code : ∀ k, M.code k = .guarded m (body k)
  deciding : ∀ k, (body k).Deciding M.event

namespace Sectioned

open Program Threads

variable {μ σ β ι κ ε : Type*} {m : μ} {body : κ → Program μ σ β} {M : Machine μ σ β κ ε}

/-- A thread that does not hold the mutex. -/
inductive Outside (m : μ) (body : κ → Program μ σ β) :
    Option (Program μ σ β) → Phase κ β → Prop
  | idle : Outside m body none .idle
  | waiting (k : κ) : Outside m body (some (.guarded m (body k))) (.called k)
  | leaving (k : κ) (b : β) : Outside m body (some (.ret b)) (.answered k b)

/-- The thread that holds the mutex: its call has taken effect in the atomic object as
soon as it is settled. -/
inductive Inside (m : μ) (body : κ → Program μ σ β) (event : σ → ε → Option σ)
    (shared atomic : σ) : Option (Program μ σ β) → Phase κ β → Prop
  | deciding (k : κ) (q : Program μ σ β) (hq : q.Deciding event) (hshared : atomic = shared)
      (hsame : ∀ t, Evolves event shared t →
        q.finish t = (body k).finish t ∧ q.answer t = (body k).answer t) :
      Inside m body event shared atomic (some (q.closing m)) (.called k)
  | settled (k : κ) (q : Program μ σ β) (hq : q.Settled event)
      (hshared : atomic = q.finish shared) :
      Inside m body event shared atomic (some (q.closing m)) (.answered k (q.answer shared))

/-- The threads and the atomic object. -/
structure Simulates (m : μ) (body : κ → Program μ σ β) (event : σ → ε → Option σ)
    (s : Threads μ σ β ι) (a : AtomicObject σ κ β ι) : Prop where
  outside : ∀ t, s.holder m ≠ some t → Outside m body (s.call t) (a.phase t)
  inside : ∀ t, s.holder m = some t → Inside m body event s.shared a.shared (s.call t) (a.phase t)
  free : s.holder m = none → a.shared = s.shared

theorem settled_event {event : σ → ε → Option σ} {q : Program μ σ β} (h : q.Settled event)
    {s t : σ} {e : ε} (he : event s e = some t) :
    event (q.finish s) e = some (q.finish t) ∧ q.answer t = q.answer s := by
  cases q with
  | ret b => exact ⟨he, rfl⟩
  | act f next => exact h.1 s e t he
  | lock | unlock => exact h.elim

theorem closing_ne_ret {p : Program μ σ β} (b : β) : p.closing m ≠ .ret b := by
  cases p <;> simp [closing, Program.bind]

theorem Outside.phase_of_none {phase : Phase κ β} (h : Outside m body none phase) :
    phase = .idle := by
  cases h
  rfl

theorem Outside.phase_of_ret {b : β} {phase : Phase κ β}
    (h : Outside m body (some (.ret b)) phase) : ∃ k, phase = .answered k b := by
  cases h with
  | leaving k => exact ⟨k, rfl⟩

theorem Outside.of_lock {n : μ} {p : Program μ σ β} {phase : Phase κ β}
    (h : Outside m body (some (.lock n p)) phase) :
    ∃ k, phase = .called k ∧ n = m ∧ p = (body k).closing m := by
  generalize hcall : some (Program.lock n p) = call at h
  cases h with
  | idle | leaving => simp at hcall
  | waiting k =>
      obtain ⟨hn, hp⟩ := Program.lock.inj (Option.some.inj hcall)
      exact ⟨k, rfl, hn, hp⟩

theorem Outside.not_unlock {n : μ} {p : Program μ σ β} {phase : Phase κ β} :
    ¬Outside m body (some (.unlock n p)) phase := by
  intro h
  generalize hcall : some (Program.unlock n p) = call at h
  cases h <;> simp [guarded] at hcall

theorem Outside.not_act {f : σ → σ} {next : σ → Program μ σ β} {phase : Phase κ β} :
    ¬Outside m body (some (.act f next)) phase := by
  intro h
  generalize hcall : some (Program.act f next) = call at h
  cases h <;> simp [guarded] at hcall

section Inside

variable {event : σ → ε → Option σ} {shared atomic : σ} {call : Option (Program μ σ β)}
  {phase : Phase κ β}

theorem Inside.ne_none (h : Inside m body event shared atomic call phase) : call ≠ none := by
  cases h <;> simp

theorem Inside.ne_ret (h : Inside m body event shared atomic call phase) (b : β) :
    call ≠ some (.ret b) := by
  cases h with
  | deciding k q => exact fun heq ↦ closing_ne_ret b (Option.some.inj heq)
  | settled k q => exact fun heq ↦ closing_ne_ret b (Option.some.inj heq)

theorem Inside.evolve (h : Inside m body event shared atomic call phase) {e : ε} {after : σ}
    (he : event shared e = some after) : ∃ atomic', event atomic e = some atomic' ∧
      Inside m body event after atomic' call phase := by
  cases h with
  | deciding k q hq hshared hsame =>
      refine ⟨after, hshared ▸ he, .deciding k q hq rfl ?_⟩
      intro t ht
      exact hsame t (.head ⟨e, he⟩ ht)
  | settled k q hq hshared =>
      obtain ⟨hafter, hanswer⟩ := settled_event hq he
      exact ⟨_, hshared ▸ hafter, hanswer ▸ .settled k q hq rfl⟩

end Inside

section Step

variable {event : σ → ε → Option σ} {s u : Threads μ σ β ι} {a : AtomicObject σ κ β ι}
  {t : ι}

theorem Simulates.evolve (h : Simulates m body event s a) {e : ε} {shared : σ}
    (he : event s.shared e = some shared) : ∃ atomic, event a.shared e = some atomic ∧
      Simulates m body event { s with shared } { a with shared := atomic } := by
  cases hholder : s.holder m with
  | none =>
      have hsame := h.free hholder
      refine ⟨shared, hsame ▸ he, h.outside, ?_, fun _ ↦ rfl⟩
      intro v hv
      exact absurd (hholder.symm.trans hv) (by simp)
  | some t =>
      obtain ⟨atomic, hatomic, hnew⟩ := (h.inside t hholder).evolve he
      refine ⟨atomic, hatomic, h.outside, ?_, fun hfree ↦ ?_⟩
      · intro v hv
        obtain rfl : t = v := Option.some.inj (hholder.symm.trans hv)
        exact hnew
      · exact absurd (hholder.symm.trans hfree) (by simp)

variable [DecidableEq ι]

theorem Simulates.outside_update (h : Simulates m body event s a)
    {call : Option (Program μ σ β)} {phase : Phase κ β} (hnew : Outside m body call phase)
    {v : ι} (hv : v = t ∨ s.holder m ≠ some v) :
    Outside m body (Function.update s.call t call v) (Function.update a.phase t phase v) := by
  by_cases hvt : v = t
  · simpa [hvt] using hnew
  · simpa [hvt] using h.outside v (hv.resolve_left hvt)

/-- Steps outside the mutex: the thread `t` begins or ends a call. -/
theorem Simulates.update (h : Simulates m body event s a) (ht : s.holder m ≠ some t)
    {call : Option (Program μ σ β)} {phase : Phase κ β} (hnew : Outside m body call phase) :
    Simulates m body event { s with call := Function.update s.call t call }
      { a with phase := Function.update a.phase t phase } := by
  refine ⟨fun v hv ↦ h.outside_update hnew (Or.inr hv), ?_, h.free⟩
  intro v hv
  have hvt : v ≠ t := fun heq ↦ ht (heq ▸ hv)
  simpa [hvt] using h.inside v hv

/-- Steps of the thread `t` that holds the mutex and keeps it. -/
theorem Simulates.inside_update (h : Simulates m body event s a) (ht : s.holder m = some t)
    {shared atomic : σ} {call : Option (Program μ σ β)} {phase : Phase κ β}
    (hnew : Inside m body event shared atomic call phase) :
    Simulates m body event { s with shared, call := Function.update s.call t call }
      ⟨atomic, Function.update a.phase t phase⟩ := by
  refine ⟨?_, ?_, fun hfree ↦ ?_⟩
  · intro v hv
    have hvt : v ≠ t := fun heq ↦ hv (heq ▸ ht)
    simpa [hvt] using h.outside v hv
  · intro v hv
    obtain rfl : t = v := Option.some.inj (ht.symm.trans hv)
    simpa using hnew
  · exact absurd (ht.symm.trans hfree) (by simp)

variable [DecidableEq μ]

/-- The thread `t` gives the mutex back. -/
theorem Simulates.release (h : Simulates m body event s a) (ht : s.holder m = some t)
    {k : κ} {b : β} : Simulates m body event
      { s with
        holder := Function.update s.holder m none
        call := Function.update s.call t (some (.ret b)) }
      ⟨s.shared, Function.update a.phase t (.answered k b)⟩ := by
  refine ⟨?_, ?_, fun _ ↦ rfl⟩
  · intro v _
    apply h.outside_update (.leaving k b)
    by_cases hvt : v = t
    · exact Or.inl hvt
    · exact Or.inr fun hv ↦ hvt (Option.some.inj (hv.symm.trans ht))
  · intro v hv
    simp at hv

/-- The thread `t` takes the mutex. -/
theorem Simulates.acquire (h : Simulates m body event s a) (hfree : s.holder m = none) {k : κ}
    (hk : (body k).Deciding event) (hphase : a.phase t = .called k) :
    Simulates m body event
      { s with
        holder := Function.update s.holder m (some t)
        call := Function.update s.call t (some ((body k).closing m)) } a := by
  refine ⟨?_, ?_, fun hnone ↦ ?_⟩
  · intro v hv
    have hvt : v ≠ t := by
      rintro rfl
      simp at hv
    simpa [hvt] using h.outside v (by simp [hfree])
  · intro v hv
    obtain rfl : t = v := by simpa using hv
    rw [hphase]
    simpa using Inside.deciding k (body k) hk (h.free hfree) fun _ _ ↦ ⟨rfl, rfl⟩
  · simp at hnone

/-- A step of a thread that waits for the mutex takes it. -/
theorem Simulates.run_outside (hM : Sectioned m body M) (h : Simulates m body M.event s a)
    (ht : s.holder m ≠ some t) (hstep : s.run t = some u) : Simulates m body M.event u a := by
  have houtside := h.outside t ht
  rcases run_cases hstep with ⟨n, p, hcall, hfree, rfl⟩ | ⟨n, p, hcall, _, _⟩ |
    ⟨f, next, hcall, _⟩
  · rw [hcall] at houtside
    obtain ⟨k, hphase, rfl, rfl⟩ := houtside.of_lock
    exact h.acquire hfree (hM.deciding k) hphase
  · exact absurd (hcall ▸ houtside) Outside.not_unlock
  · exact absurd (hcall ▸ houtside) Outside.not_act

/-- In the last act that decides the call takes effect, or when it gives the mutex back. -/
theorem Simulates.run_inside (hM : Sectioned m body M) (h : Simulates m body M.event s a)
    (ht : s.holder m = some t) (hstep : s.run t = some u) :
    ∃ b, Simulates m body M.event u b ∧
      (AtomicObject.step M a (.effect t) = some b ∨ b = a) := by
  have hinside := h.inside t ht
  generalize hcall : s.call t = call at hinside
  generalize hphase : a.phase t = phase at hinside
  cases hinside with
  | deciding k q hq hshared hsame =>
      have heffect := AtomicObject.step_effect (M := M) hphase
      obtain ⟨hfinish, hanswer⟩ := hsame s.shared Relation.ReflTransGen.refl
      rw [hM.code k, finish_guarded, answer_guarded, hshared, ← hfinish, ← hanswer] at heffect
      cases q with
      | ret b =>
          have hu := (run_unlock hcall ht).symm.trans hstep
          obtain rfl := Option.some.inj hu
          exact ⟨_, h.release ht, Or.inl heffect⟩
      | act f next =>
          have hu := (run_act hcall).symm.trans hstep
          obtain rfl := Option.some.inj hu
          rcases hq with hsettled | ⟨rfl, hreads⟩
          · exact ⟨_, h.inside_update ht (.settled k (next s.shared) (hsettled _) rfl),
              Or.inl heffect⟩
          · obtain ⟨hnext, hstable⟩ := hreads s.shared
            refine ⟨a, ?_, Or.inr rfl⟩
            have hnew : Inside m body M.event s.shared a.shared
                (some ((next s.shared).closing m)) (.called k) := by
              refine .deciding k (next s.shared) hnext hshared fun v hv ↦ ?_
              obtain ⟨hf, ha⟩ := hstable v hv
              exact ⟨hf.trans (hsame v hv).1, ha.trans (hsame v hv).2⟩
            have hkept := h.inside_update ht hnew
            rw [AtomicObject.update_phase hphase] at hkept
            exact hkept
      | lock | unlock => exact hq.elim
  | settled k q hq hshared =>
      cases q with
      | ret b =>
          have hu := (run_unlock hcall ht).symm.trans hstep
          obtain rfl := Option.some.inj hu
          have hatomic : s.shared = a.shared := hshared.symm
          refine ⟨_, h.release ht (k := k) (b := b), Or.inr ?_⟩
          rw [hatomic]
          exact AtomicObject.update_phase hphase
      | act f next =>
          have hu := (run_act hcall).symm.trans hstep
          obtain rfl := Option.some.inj hu
          have hnew : Inside m body M.event (f s.shared) a.shared
              (some ((next s.shared).closing m)) (.answered k ((act f next).answer s.shared)) :=
            .settled k (next s.shared) (hq.2 s.shared) hshared
          have hkept := h.inside_update ht hnew
          rw [AtomicObject.update_phase hphase] at hkept
          exact ⟨a, hkept, Or.inr rfl⟩
      | lock | unlock => exact hq.elim

/-- A step of the threads is one of the atomic object, seen alike, or cannot be seen. -/
theorem Simulates.step (hM : Sectioned m body M) (h : Simulates m body M.event s a)
    {x : Action ι κ ε} (hstep : Threads.step M s x = some u) :
    ∃ b, Simulates m body M.event u b ∧
      ((∃ y, AtomicObject.step M a y = some b ∧ a.seen y = s.seen x) ∨
        b = a ∧ s.seen x = ([] : List (Visible ι κ β ε))) := by
  cases x with
  | call t k =>
      obtain ⟨hidle, rfl⟩ := enter_eq_some hstep
      have ht : s.holder m ≠ some t := fun hin ↦ (h.inside t hin).ne_none hidle
      have hphase : a.phase t = .idle := (hidle ▸ h.outside t ht).phase_of_none
      refine ⟨_, h.update ht ?_, Or.inl ⟨.call t k, AtomicObject.step_call hphase, rfl⟩⟩
      rw [hM.code k]
      exact .waiting k
  | run t =>
      by_cases ht : s.holder m = some t
      · obtain ⟨b, hb, heffect | hsame⟩ := h.run_inside hM ht hstep
        · exact ⟨b, hb, Or.inl ⟨.effect t, heffect, rfl⟩⟩
        · exact ⟨b, hb, Or.inr ⟨hsame, rfl⟩⟩
      · exact ⟨a, h.run_outside hM ht hstep, Or.inr ⟨rfl, rfl⟩⟩
  | leave t =>
      obtain ⟨b, hret, rfl⟩ := leave_eq_some hstep
      have ht : s.holder m ≠ some t := fun hin ↦ (h.inside t hin).ne_ret b hret
      obtain ⟨k, hphase⟩ := (hret ▸ h.outside t ht).phase_of_ret
      refine ⟨_, h.update ht .idle, Or.inl ⟨.leave t, AtomicObject.step_leave hphase, ?_⟩⟩
      rw [AtomicObject.seen_leave hphase]
      simp [Threads.seen, hret]
  | event e =>
      obtain ⟨shared, he, rfl⟩ := Option.map_eq_some_iff.mp hstep
      obtain ⟨atomic, hatomic, hnew⟩ := h.evolve he
      exact ⟨_, hnew, Or.inl ⟨.event e, Option.map_eq_some_iff.mpr ⟨atomic, hatomic, rfl⟩, rfl⟩⟩

end Step

variable [DecidableEq ι] [DecidableEq μ]

/-- What can be seen of the threads can be seen of the atomic object, and whenever the
mutex is free the two are in the same state. -/
theorem exists_atomic (hM : Sectioned m body M) {s : Threads μ σ β ι}
    {log : List (Visible ι κ β ε)}
    {allowed : Threads μ σ β ι × List (Visible ι κ β ε) → Action ι κ ε → Prop}
    (h : ((Threads.system M ι).recorded Threads.seen).Reachable allowed (s, log)) :
    ∃ a, ((AtomicObject.system M ι).recorded AtomicObject.seen).Reachable
        TransitionSystem.anyStep (a, log) ∧ Simulates m body M.event s a := by
  apply h.invariant (I := fun s ↦ ∃ a,
    ((AtomicObject.system M ι).recorded AtomicObject.seen).Reachable
      TransitionSystem.anyStep (a, s.2) ∧ Simulates m body M.event s.1 a)
  · rintro ⟨s, log⟩ ⟨⟨shared, hshared, rfl⟩, hlog⟩
    obtain rfl : log = [] := hlog
    refine ⟨⟨shared, fun _ ↦ .idle⟩, .initial ⟨⟨hshared, rfl⟩, rfl⟩, ?_, ?_, fun _ ↦ rfl⟩
    · intro t _
      exact .idle
    · intro t ht
      exact absurd ht (by simp [idle])
  · rintro ⟨s, log⟩ x ⟨u, log'⟩ ⟨a, ha, hs⟩ _ hstep
    obtain ⟨hu, hlog⟩ := TransitionSystem.recorded_eq_some hstep
    obtain ⟨b, hb, ⟨y, hy, hseen⟩ | ⟨rfl, hseen⟩⟩ := hs.step hM hu
    · refine ⟨b, ha.step trivial (a := y) ?_, hb⟩
      have hnext : ((AtomicObject.system M ι).recorded AtomicObject.seen).step (a, log) y =
          some (b, a.seen y ++ log) := TransitionSystem.recorded_step hy log
      rwa [hseen, ← hlog] at hnext
    · refine ⟨b, ?_, hb⟩
      rw [hseen] at hlog
      rwa [hlog]

end Sectioned
