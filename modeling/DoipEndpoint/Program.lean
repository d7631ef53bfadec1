import Mathlib.Data.List.Basic
import Mathlib.Data.Nat.Notation

/-!
# Programs that lock mutexes

What one thread has still to do: lock and unlock mutexes, act on a state that it
shares with others, and return.  An act reads the shared state, which decides how the
program goes on, and changes it in one step.  A program is orderly if it takes mutexes
in the order of their ranks and gives them back in the reverse order, whatever it
reads.
-/

inductive Program (μ σ β : Type*) where
  | ret (b : β)
  | lock (m : μ) (next : Program μ σ β)
  | unlock (m : μ) (next : Program μ σ β)
  | act (f : σ → σ) (next : σ → Program μ σ β)

namespace Program

variable {μ ν σ τ β γ α : Type*}

def bind : Program μ σ β → (β → Program μ σ γ) → Program μ σ γ
  | .ret b, q => q b
  | .lock m p, q => .lock m (p.bind q)
  | .unlock m p, q => .unlock m (p.bind q)
  | .act f next, q => .act f fun s ↦ (next s).bind q

/-- A scope that a `lock_guard` opens. -/
def guarded (m : μ) (p : Program μ σ β) : Program μ σ β :=
  .lock m (p.bind fun b ↦ .unlock m (.ret b))

/-- Read the state to choose what to do. -/
def choose (next : σ → Program μ σ β) : Program μ σ β := .act id next

def skip : Program μ σ Unit := .ret ()

def simply (f : σ → σ) : Program μ σ Unit := .act f fun _ ↦ skip

def andThen (p : Program μ σ Unit) (q : Program μ σ β) : Program μ σ β := p.bind fun _ ↦ q

def forEach (l : List α) (p : α → Program μ σ Unit) : Program μ σ Unit :=
  l.foldr (fun a q ↦ (p a).andThen q) skip

/-- The state that the program leaves where no other thread interferes. -/
def finish : Program μ σ β → σ → σ
  | .ret _, s => s
  | .lock _ p, s => p.finish s
  | .unlock _ p, s => p.finish s
  | .act f next, s => (next s).finish (f s)

/-- What the program returns where no other thread interferes. -/
def answer : Program μ σ β → σ → β
  | .ret b, _ => b
  | .lock _ p, s => p.answer s
  | .unlock _ p, s => p.answer s
  | .act f next, s => (next s).answer (f s)

/-- The program on one component of a larger state, with mutexes of that component. -/
def embed (name : μ → ν) (get : τ → σ) (put : σ → τ → τ) : Program μ σ β → Program ν τ β
  | .ret b => .ret b
  | .lock m p => .lock (name m) (p.embed name get put)
  | .unlock m p => .unlock (name m) (p.embed name get put)
  | .act f next => .act (fun t ↦ put (f (get t)) t) fun t ↦ (next (get t)).embed name get put

/-! ## The effect of a program -/

section Finish

@[simp] theorem finish_ret (b : β) (s : σ) : (ret b : Program μ σ β).finish s = s := rfl

@[simp] theorem answer_ret (b : β) (s : σ) : (ret b : Program μ σ β).answer s = b := rfl

@[simp] theorem finish_act (f : σ → σ) (next : σ → Program μ σ β) (s : σ) :
    (act f next).finish s = (next s).finish (f s) := rfl

@[simp] theorem answer_act (f : σ → σ) (next : σ → Program μ σ β) (s : σ) :
    (act f next).answer s = (next s).answer (f s) := rfl

@[simp] theorem finish_choose (next : σ → Program μ σ β) (s : σ) :
    (choose next).finish s = (next s).finish s := rfl

@[simp] theorem answer_choose (next : σ → Program μ σ β) (s : σ) :
    (choose next).answer s = (next s).answer s := rfl

@[simp] theorem finish_skip (s : σ) : (skip : Program μ σ Unit).finish s = s := rfl

@[simp] theorem finish_simply (f : σ → σ) (s : σ) :
    (simply f : Program μ σ Unit).finish s = f s := rfl

@[simp] theorem finish_bind (p : Program μ σ β) (q : β → Program μ σ γ) (s : σ) :
    (p.bind q).finish s = (q (p.answer s)).finish (p.finish s) := by
  induction p generalizing s with
  | ret b => rfl
  | lock m p ih => exact ih s
  | unlock m p ih => exact ih s
  | act f next ih => exact ih s (f s)

@[simp] theorem answer_bind (p : Program μ σ β) (q : β → Program μ σ γ) (s : σ) :
    (p.bind q).answer s = (q (p.answer s)).answer (p.finish s) := by
  induction p generalizing s with
  | ret b => rfl
  | lock m p ih => exact ih s
  | unlock m p ih => exact ih s
  | act f next ih => exact ih s (f s)

@[simp] theorem finish_guarded (m : μ) (p : Program μ σ β) (s : σ) :
    (guarded m p).finish s = p.finish s :=
  finish_bind p _ s

@[simp] theorem answer_guarded (m : μ) (p : Program μ σ β) (s : σ) :
    (guarded m p).answer s = p.answer s :=
  answer_bind p _ s

@[simp] theorem finish_andThen (p : Program μ σ Unit) (q : Program μ σ β) (s : σ) :
    (p.andThen q).finish s = q.finish (p.finish s) :=
  finish_bind p _ s

theorem finish_forEach (l : List α) (p : α → Program μ σ Unit) (s : σ) :
    (forEach l p).finish s = l.foldl (fun s a ↦ (p a).finish s) s := by
  induction l generalizing s with
  | nil => rfl
  | cons a l ih =>
      change ((p a).andThen (forEach l p)).finish s = _
      rw [finish_andThen, ih]
      rfl

end Finish

/-! ## Orderly programs -/

/-- From the mutexes `held`, newest first, to the mutexes `left`: a mutex is locked
only if it ranks above all that are held, and the newest one is unlocked first.  The
states that the program may read are those with `I`, which its acts keep. -/
def Orderly (rank : μ → ℕ) (I : σ → Prop) (left : List μ) :
    List μ → Program μ σ β → Prop
  | held, .ret _ => held = left
  | held, .lock m p => (∀ k ∈ held, rank k < rank m) ∧ Orderly rank I left (m :: held) p
  | held, .unlock m p => ∃ rest, held = m :: rest ∧ Orderly rank I left rest p
  | held, .act f next => ∀ s, I s → I (f s) ∧ Orderly rank I left held (next s)

/-- Orderly, with the same mutexes held at the end as at the start. -/
abbrev Bracketed (rank : μ → ℕ) (I : σ → Prop) (held : List μ) (p : Program μ σ β) : Prop :=
  p.Orderly rank I held held

section Orderly

variable {rank : μ → ℕ} {I : σ → Prop} {held mid left : List μ}

theorem Orderly.bind {p : Program μ σ β} {q : β → Program μ σ γ}
    (hp : Orderly rank I mid held p) (hq : ∀ b, Orderly rank I left mid (q b)) :
    Orderly rank I left held (p.bind q) := by
  induction p generalizing held with
  | ret b =>
      obtain rfl : held = mid := hp
      exact hq b
  | lock m p ih => exact ⟨hp.1, ih hp.2⟩
  | unlock m p ih =>
      obtain ⟨rest, hheld, hp⟩ := hp
      exact ⟨rest, hheld, ih hp⟩
  | act f next ih =>
      intro s hs
      exact ⟨(hp s hs).1, ih s (hp s hs).2⟩

theorem Bracketed.ret {b : β} : Bracketed rank I held (.ret b : Program μ σ β) := rfl

theorem Bracketed.skip : Bracketed rank I held (skip : Program μ σ Unit) := rfl

theorem Bracketed.bind {p : Program μ σ β} {q : β → Program μ σ γ}
    (hp : Bracketed rank I held p) (hq : ∀ b, Bracketed rank I held (q b)) :
    Bracketed rank I held (p.bind q) :=
  Orderly.bind hp hq

theorem Bracketed.andThen {p : Program μ σ Unit} {q : Program μ σ β}
    (hp : Bracketed rank I held p) (hq : Bracketed rank I held q) :
    Bracketed rank I held (p.andThen q) :=
  hp.bind fun _ ↦ hq

theorem Bracketed.guarded {m : μ} {p : Program μ σ β} (hm : ∀ k ∈ held, rank k < rank m)
    (hp : Bracketed rank I (m :: held) p) : Bracketed rank I held (guarded m p) :=
  ⟨hm, Orderly.bind hp fun _ ↦ ⟨held, rfl, Bracketed.ret⟩⟩

theorem Bracketed.act {f : σ → σ} {next : σ → Program μ σ β} (hf : ∀ s, I s → I (f s))
    (hnext : ∀ s, I s → Bracketed rank I held (next s)) :
    Bracketed rank I held (.act f next) :=
  fun s hs ↦ ⟨hf s hs, hnext s hs⟩

theorem Bracketed.simply {f : σ → σ} (hf : ∀ s, I s → I (f s)) :
    Bracketed rank I held (simply f : Program μ σ Unit) :=
  Bracketed.act hf fun _ _ ↦ Bracketed.skip

theorem Bracketed.choose {next : σ → Program μ σ β}
    (hnext : ∀ s, I s → Bracketed rank I held (next s)) : Bracketed rank I held (choose next) :=
  Bracketed.act (fun _ hs ↦ hs) hnext

theorem Bracketed.forEach {l : List α} {p : α → Program μ σ Unit}
    (hp : ∀ a, Bracketed rank I held (p a)) : Bracketed rank I held (forEach l p) := by
  induction l with
  | nil => exact Bracketed.skip
  | cons a l ih => exact (hp a).andThen ih

/-- An orderly program stays orderly as a part of a larger one, under mutexes that
rank below all of its own. -/
theorem Orderly.embed {rank' : ν → ℕ} {J : τ → Prop}
    {name : μ → ν} {get : τ → σ} {put : σ → τ → τ} {outer : List ν}
    (hrank : ∀ m k, rank m < rank k → rank' (name m) < rank' (name k))
    (houter : ∀ k ∈ outer, ∀ m, rank' k < rank' (name m))
    (hget : ∀ t, J t → I (get t)) (hput : ∀ s t, I s → J t → J (put s t))
    {p : Program μ σ β} (hp : Orderly rank I left held p) :
    Orderly rank' J (left.map name ++ outer) (held.map name ++ outer)
      (p.embed name get put) := by
  induction p generalizing held with
  | ret b =>
      obtain rfl : held = left := hp
      exact Bracketed.ret
  | lock m p ih =>
      refine ⟨?_, ih hp.2⟩
      intro k hk
      rcases List.mem_append.mp hk with hinner | houtside
      · obtain ⟨j, hj, rfl⟩ := List.mem_map.mp hinner
        exact hrank j m (hp.1 j hj)
      · exact houter k houtside m
  | unlock m p ih =>
      obtain ⟨rest, rfl, hrest⟩ := hp
      exact ⟨rest.map name ++ outer, rfl, ih hrest⟩
  | act f next ih =>
      intro t ht
      obtain ⟨hf, hnext⟩ := hp (get t) (hget t ht)
      exact ⟨hput _ t hf ht, ih (get t) hnext⟩

theorem Bracketed.embed {rank' : ν → ℕ} {J : τ → Prop} {name : μ → ν} {get : τ → σ}
    {put : σ → τ → τ} {outer : List ν} {p : Program μ σ β} (hp : Bracketed rank I [] p)
    (hrank : ∀ m k, rank m < rank k → rank' (name m) < rank' (name k))
    (houter : ∀ k ∈ outer, ∀ m, rank' k < rank' (name m))
    (hget : ∀ t, J t → I (get t)) (hput : ∀ s t, I s → J t → J (put s t)) :
    Bracketed rank' J outer (p.embed name get put) :=
  Orderly.embed hrank houter hget hput hp

/-- A program that only acts. -/
def LockFree : Program μ σ β → Prop
  | .ret _ => True
  | .act _ next => ∀ s, LockFree (next s)
  | .lock _ _ | .unlock _ _ => False

theorem LockFree.bracketed_embed {rank' : ν → ℕ} {J : τ → Prop} {name : μ → ν} {get : τ → σ}
    {put : σ → τ → τ} {outer : List ν} {p : Program μ σ β} (hp : p.LockFree)
    (hput : ∀ s t, J t → J (put s t)) : Bracketed rank' J outer (p.embed name get put) := by
  induction p with
  | ret b => exact Bracketed.ret
  | act f next ih => exact Bracketed.act (fun t ht ↦ hput _ t ht) fun t _ ↦ ih (get t) (hp (get t))
  | lock | unlock => exact hp.elim

end Orderly

end Program
