import DoipEndpoint.Custody
import DoipEndpoint.InFlight
import DoipEndpoint.UdpServer.Delivery
import DoipEndpoint.UdpServer.Locked
import Mathlib.Algebra.Group.Prod

/-!
# The delivery of datagrams on several threads

`on_message_received` reads the buffer byte by byte, and the mutex that it holds does not
keep Asio from writing to it.  What does is that the thread has yet to issue the next
receive: the right to do so came with the handler, and there is one such right for each
call of `start`.
-/

namespace DoipEndpoint

namespace UdpServer

open Program

/-! ## The rights that threads carry -/

/-- A thread may carry rights to print and rights to receive.  A right to print becomes a
right to receive when it is used. -/
structure Moves (s : UdpServer) (n : ℕ × ℕ) (t : UdpServer) (n' : ℕ × ℕ) : Prop where
  receives : t.receives.length + (n'.1 + n'.2) ≤ s.receives.length + (n.1 + n.2)
  calls : t.calls.length + t.undelivered + n'.1 ≤ s.calls.length + s.undelivered + n.1

def receiveLoop : Custody Mutex UdpServer Bool (ℕ × ℕ) where
  mutex := .unicastMutex
  view s := s.isOpen
  trade := Moves
  refl _ _ := ⟨le_refl _, le_refl _⟩

variable {s t : UdpServer} {rest : ℕ × ℕ}

theorem Moves.trans {u : UdpServer} {n n' n'' : ℕ × ℕ} (h : Moves s n t n')
    (h' : Moves t n' u n'') : Moves s n u n'' :=
  ⟨h'.receives.trans h.receives, h'.calls.trans h.calls⟩

theorem undelivered_receiveUnicast (s : UdpServer) :
    s.receiveUnicast.undelivered = s.undelivered := by
  unfold receiveUnicast
  split
  · simp [undelivered, Receive.delivers]
  · rfl

theorem delivers_abort (x : Receive) : x.abort.delivers = x.delivers := by
  cases x with
  | pending => simp [Receive.abort, Receive.delivers, Arguments.aborted]
  | queued | reading | returned => rfl

theorem moves_receiveUnicast (s : UdpServer) (rest : ℕ × ℕ) :
    Moves s ((0, 1) + rest) s.receiveUnicast (0 + rest) := by
  refine ⟨?_, ?_⟩
  · have hlength : s.receiveUnicast.receives.length ≤ s.receives.length + 1 := by
      unfold receiveUnicast
      split <;> simp
    simp only [Prod.fst_add, Prod.snd_add, Prod.fst_zero, Prod.snd_zero]
    omega
  · have hcalls : s.receiveUnicast.calls = s.calls := by
      unfold receiveUnicast
      split <;> rfl
    rw [hcalls, undelivered_receiveUnicast]
    simp

theorem moves_stop (s : UdpServer) (n : ℕ × ℕ) : Moves s n s.stop n := by
  unfold stop
  split
  · have hsame : (fun x : Receive ↦ x.delivers.isSome) ∘ Receive.abort =
        fun x ↦ x.delivers.isSome := funext fun x ↦ congrArg Option.isSome (delivers_abort x)
    exact ⟨by simp, by simp [undelivered, List.countP_map, hsame]⟩
  · exact ⟨le_refl _, le_refl _⟩

/-- The handler of a receive that did not fail because of a `close` comes with the right
to print. -/
theorem moves_pop {i : ℕ} {arguments : Arguments}
    (hq : s.receives[i]? = some (.queued arguments)) (rest : ℕ × ℕ) :
    Moves s (0 + rest) (Locked.pop i s)
      ((if arguments.error ≠ .operationAborted then (1, 0) else 0) + rest) := by
  have hpop : Locked.pop i s = { s with receives := s.receives.eraseIdx i } := by
    simp only [Locked.pop, hq]
  have hi : i < s.receives.length := (List.getElem?_eq_some_iff.mp hq).1
  have hcount := InFlight.countP_eraseIdx hq fun x : Receive ↦ x.delivers.isSome
  rw [hpop]
  refine ⟨?_, ?_⟩
  · have hlength := List.length_eraseIdx_of_lt hi
    simp only [hlength]
    split
    · simp
      omega
    · simp
  · simp only [undelivered]
    rw [hcount]
    by_cases herror : arguments.error = .operationAborted
    · simp [Receive.delivers, herror]
    · simp [Receive.delivers, herror]
      omega

/-! ## The programs -/

namespace Locked

theorem arms_receiveUnicast : receiveUnicast.Carries receiveLoop (0, 1) 0 := by
  refine Keeps.guarded_own rfl fun v ↦ ?_
  intro s _
  exact ⟨by simp, 0, moves_receiveUnicast s, rfl⟩

theorem arms_stop : stop.Carries receiveLoop 0 0 := by
  refine Keeps.andThen (k := 0) (Keeps.guarded_own rfl fun v ↦ ?_)
    (Keeps.guarded (by simp [receiveLoop]) rfl)
  intro s _
  exact ⟨by simp, 0, fun rest ↦ moves_stop s _, rfl⟩

theorem arms_onMessageReceived (arguments : Arguments) (n : ℕ) (printed : List UInt8) :
    (onMessageReceived arguments n printed).Keeps receiveLoop (fun _ n' ↦ n' = (0, 1)) none
      (1, 0) := by
  induction n generalizing printed with
  | zero =>
      intro s _
      refine ⟨fun _ ↦ rfl, (0, 1), fun rest ↦ ⟨?_, ?_⟩, rfl⟩
      · simp only [recordCall, Prod.fst_add, Prod.snd_add]
        omega
      · simp only [recordCall, undelivered, List.length_append, List.length_singleton,
          Prod.fst_add]
        omega
  | succ n ih =>
      intro s _
      cases hindex : s.unicastRecvBuffer.index printed.length with
      | none =>
          refine ⟨fun _ ↦ rfl, (0, 1), fun rest ↦ ⟨?_, ?_⟩, ?_⟩
          · simp only [id_eq, Prod.fst_add, Prod.snd_add]
            omega
          · simp
          · simp only [hindex]
            rfl
      | some byte =>
          refine ⟨fun _ ↦ rfl, (1, 0), fun rest ↦ ⟨le_refl _, le_refl _⟩, ?_⟩
          simp only [hindex]
          exact ih (printed ++ [byte])

theorem arms_handle (i : ℕ) : (handle i).Carries receiveLoop 0 0 := by
  intro s _
  by_cases hq : ∃ arguments, s.receives[i]? = some (.queued arguments)
  · obtain ⟨arguments, hq⟩ := hq
    refine ⟨fun _ ↦ by simp [receiveLoop, pop, hq], _, moves_pop hq, ?_⟩
    simp only [hq, onUnicastReceived]
    by_cases herror : arguments.error = .operationAborted
    · simp only [herror, ne_eq, not_true_eq_false, ↓reduceIte]
      rfl
    · simp only [ne_eq, herror, not_false_eq_true, ↓reduceIte]
      exact Keeps.andThen (Keeps.guarded (by simp [receiveLoop])
        (arms_onMessageReceived arguments arguments.bytes [])) arms_receiveUnicast
  · have hpop : pop i s = s := by
      unfold pop
      split
      · exact absurd ⟨_, ‹_›⟩ hq
      · rfl
    refine ⟨fun _ ↦ by rw [hpop], 0, fun rest ↦ by rw [hpop]; exact ⟨le_refl _, le_refl _⟩, ?_⟩
    beta_reduce
    split
    · exact absurd ⟨_, ‹_›⟩ hq
    · rfl

end Locked

/-- A call of `start` comes with the right to receive. -/
def Invocation.credit : Invocation → ℕ × ℕ
  | .start => (0, 1)
  | _ => 0

theorem arms_code (k : Invocation) : k.code.Carries receiveLoop k.credit 0 := by
  cases k with
  | start => exact Locked.arms_receiveUnicast
  | stop => exact Locked.arms_stop
  | sendData => exact Keeps.guarded_own rfl fun v ↦ rfl
  | sendCbk =>
      exact Keeps.andThen (k := 0) (Keeps.guarded (by simp [receiveLoop]) rfl)
        (Keeps.guarded (by simp [receiveLoop]) rfl)
  | handle i => exact Locked.arms_handle i

/-! ## Where a thread is in a handler -/

/-- Neither the records nor the handlers that have something to print have changed. -/
structure Silent (s t : UdpServer) : Prop extends SameRecords s t where
  queued : ∀ arguments : Arguments, arguments.error ≠ .operationAborted →
    (.queued arguments ∈ t.receives ↔ .queued arguments ∈ s.receives)

theorem silent_refl (s : UdpServer) : Silent s s := ⟨⟨rfl, rfl, rfl, rfl⟩, fun _ _ ↦ Iff.rfl⟩

theorem silent_receiveUnicast (s : UdpServer) : Silent s s.receiveUnicast := by
  unfold receiveUnicast
  split
  · exact ⟨⟨rfl, rfl, rfl, rfl⟩, fun arguments _ ↦ by simp⟩
  · exact ⟨⟨rfl, rfl, rfl, rfl⟩, fun _ _ ↦ Iff.rfl⟩

theorem silent_stop (s : UdpServer) : Silent s s.stop := by
  unfold stop
  split
  · refine ⟨⟨rfl, rfl, rfl, rfl⟩, fun arguments herror ↦ ?_⟩
    constructor
    · intro h
      obtain ⟨x, hx, habort⟩ := List.mem_map.mp h
      cases x with
      | pending =>
          obtain rfl := Receive.queued.inj habort
          exact absurd rfl herror
      | queued | reading | returned => exact habort ▸ hx
    · exact fun h ↦ List.mem_map.mpr ⟨_, h, rfl⟩
  · exact ⟨⟨rfl, rfl, rfl, rfl⟩, fun _ _ ↦ Iff.rfl⟩

/-- The rest of a handler with `n` bytes to go. -/
def printing (arguments : Arguments) (n : ℕ) (printed : List UInt8) : Locked.Steps :=
  ((Locked.onMessageReceived arguments n printed).bind fun b ↦
    .unlock .multicastMutex (.ret b)).andThen Locked.receiveUnicast

/-- The handler of `r`, the receive that completed last, before or in the loop of
`on_message_received`. -/
inductive Printing (s : UdpServer) : Locked.Steps → Prop
  | begins (r : Received) (h : Last s r) : Printing s
      (.lock .multicastMutex (printing r.arguments r.datagram.payload.length []))
  | goes (r : Received) (printed left : List UInt8) (h : Last s r)
      (hpayload : r.datagram.payload = printed ++ left) :
      Printing s (printing r.arguments left.length printed)

inductive Phase (s : UdpServer) : Locked.Steps → Prop
  | silent (p : Locked.Steps) (h : p.Acts Silent) : Phase s p
  | handles (i : ℕ) : Phase s (Locked.handle i)
  | prints (p : Locked.Steps) (h : Printing s p) : Phase s p

variable {p : Locked.Steps} {m : Mutex}

theorem Printing.same (h : Printing s p) (hsame : SameRecords s t) : Printing t p := by
  cases h with
  | begins r h => exact .begins r (h.same hsame)
  | goes r printed left h hpayload => exact .goes r printed left (h.same hsame) hpayload

theorem Phase.same (h : Phase s p) (hsame : SameRecords s t) : Phase t p := by
  cases h with
  | silent _ h => exact .silent _ h
  | handles i => exact .handles i
  | prints _ h => exact .prints _ (h.same hsame)

/-- A thread that prints nothing does not care about the records. -/
theorem Phase.of_not_printing (h : Phase s p) (hp : ¬Printing s p) : Phase t p := by
  cases h with
  | silent _ h => exact .silent _ h
  | handles i => exact .handles i
  | prints _ h => exact absurd h hp

theorem Printing.lock (h : Printing s (.lock m p)) : Printing s p := by
  generalize hq : Program.lock m p = q at h
  cases h with
  | begins r h =>
      obtain ⟨_, rfl⟩ := Program.lock.inj hq
      exact .goes r [] r.datagram.payload h rfl
  | goes r printed left => cases left <;> cases hq

theorem not_printing_unlock : ¬Printing s (.unlock m p) := by
  intro h
  generalize hq : Program.unlock m p = q at h
  cases h with
  | begins => cases hq
  | goes r printed left => cases left <;> cases hq

theorem not_printing_ret {b : Unit} : ¬Printing s (.ret b) := by
  intro h
  generalize hq : (Program.ret b : Locked.Steps) = q at h
  cases h with
  | begins => cases hq
  | goes r printed left => cases left <;> cases hq

theorem Phase.lock (h : Phase s (.lock m p)) : Phase s p := by
  generalize hq : Program.lock m p = q at h
  cases h with
  | silent _ h =>
      subst hq
      exact .silent p h
  | handles i => cases hq
  | prints _ h =>
      subst hq
      exact .prints p h.lock

theorem Phase.unlock (h : Phase s (.unlock m p)) : Phase s p := by
  generalize hq : Program.unlock m p = q at h
  cases h with
  | silent _ h =>
      subst hq
      exact .silent p h
  | handles i => cases hq
  | prints _ h =>
      subst hq
      exact absurd h not_printing_unlock

theorem phase_code (k : Invocation) : Phase s k.code := by
  have hskip : ∀ m : Mutex, (guarded m skip : Locked.Steps).Acts Silent :=
    fun m ↦ Acts.guarded Acts.skip
  cases k with
  | start => exact .silent _ (Acts.simply silent_receiveUnicast).guarded
  | stop => exact .silent _ ((Acts.simply silent_stop).guarded.andThen (hskip _))
  | sendData => exact .silent _ (hskip _)
  | sendCbk => exact .silent _ ((hskip _).andThen (hskip _))
  | handle i => exact .handles i

/-- Alone, the loop ends in one call. -/
theorem finish_onMessageReceived {arguments : Arguments} {n : ℕ} {printed : List UInt8}
    (h : printed.length + n ≤ s.unicastRecvBuffer.size) :
    ∃ all, (Locked.onMessageReceived arguments n printed).finish s =
      Locked.recordCall arguments all s := by
  induction n generalizing printed with
  | zero => exact ⟨printed, rfl⟩
  | succ n ih =>
      have hindex : s.unicastRecvBuffer.index printed.length =
          some (s.unicastRecvBuffer.element printed.length) := if_pos (by omega)
      simp only [Locked.onMessageReceived, finish_choose, hindex]
      exact ih (by simp only [List.length_append, List.length_singleton]; omega)

/-- A handler that has something to print still has to record its call. -/
theorem Printing.finish (h : Printing s p) :
    (p.finish s).calls.length = s.calls.length + 1 ∧
      (p.finish s).undelivered = s.undelivered := by
  have hrest : ∀ (arguments : Arguments) (n : ℕ) (printed : List UInt8),
      printed.length + n ≤ s.unicastRecvBuffer.size →
        ((printing arguments n printed).finish s).calls.length = s.calls.length + 1 ∧
          ((printing arguments n printed).finish s).undelivered = s.undelivered := by
    intro arguments n printed hfits
    obtain ⟨all, hall⟩ : ∃ all, (Locked.onMessageReceived arguments n printed).finish s =
        Locked.recordCall arguments all s := finish_onMessageReceived hfits
    have hfinish : (printing arguments n printed).finish s =
        (Locked.recordCall arguments all s).receiveUnicast := by
      rw [printing, finish_andThen, finish_bind, hall]
      rfl
    rw [hfinish, undelivered_receiveUnicast, (silent_receiveUnicast _).calls]
    simp [Locked.recordCall, undelivered]
  cases h with
  | begins r h => exact hrest r.arguments r.datagram.payload.length [] (by simpa using h.holds.fits)
  | goes r printed left h hpayload =>
      refine hrest r.arguments left.length printed ?_
      have hfits := h.holds.fits
      rwa [hpayload, List.length_append] at hfits

/-! ## Runs -/

section Threads

open Threads TransitionSystem

variable {ι : Type*}

/-- A datagram arrives, or a receive completes. -/
theorem event_cases {e : Event} (h : s.step e.action = some t) :
    (∃ arrived, t = { s with arrived }) ∨ ∃ (i : ℕ) (r : Received) (arrived : List Datagram),
      r.error ≠ .operationAborted ∧ complete i r { s with arrived } = some t := by
  cases e with
  | arrives d =>
      simp only [Event.action, UdpServer.step] at h
      split_ifs at h
      exact Or.inl ⟨_, (Option.some.inj h).symm⟩
  | receives i =>
      simp only [Event.action, UdpServer.step] at h
      split at h
      · cases h
      · rename_i d arrived _
        exact Or.inr ⟨i, ⟨.success, d⟩, arrived, by simp, h⟩
  | fails i error left =>
      simp only [Event.action, UdpServer.step] at h
      split_ifs at h with herror
      exact Or.inr ⟨i, ⟨error, left⟩, s.arrived, herror.2, h⟩

theorem event_same {e : Event} (h : s.step e.action = some t) :
    t.isOpen = s.isOpen ∧ t.receives.length = s.receives.length := by
  rcases event_cases h with ⟨arrived, rfl⟩ | ⟨i, r, arrived, _, hcomplete⟩
  · exact ⟨rfl, rfl⟩
  · obtain ⟨_, _, _, rfl⟩ := complete_eq_some hcomplete
    exact ⟨rfl, by simp⟩

/-- No more receives are in flight or due than `paid` allows. -/
def Covers (paid : ℕ × ℕ) (s : UdpServer) (n : ℕ × ℕ) : Prop :=
  s.receives.length + (n.1 + n.2) ≤ paid.1 + paid.2

theorem accounted_receiveLoop : Accounted receiveLoop Invocation.credit machine
    (anyStep : Threads Mutex UdpServer Unit ι → _ → Prop) Covers where
  code _ _ k _ := arms_code k
  view _ _ _ h := (event_same h).1
  begins k paid s n h := by
    simp only [Covers, Prod.fst_add, Prod.snd_add] at h ⊢
    omega
  trades _ _ _ _ _ h htrade := htrade.receives.trans h
  happens _ _ _ _ _ _ h he := by
    rw [Covers, (event_same he).2]
    exact h

/-- Whether `start` is called. -/
def isStart : Threads.Action ι Invocation Event → Bool
  | .call _ .start => true
  | _ => false

def starts (as : List (Threads.Action ι Invocation Event)) : ℕ := as.countP isStart

theorem brought_isStart (a : Threads.Action ι Invocation Event) :
    (brought Invocation.credit a).1 + (brought Invocation.credit a).2 =
      if isStart a then 1 else 0 := by
  cases a with
  | call t k => cases k <;> rfl
  | run | leave | event => rfl

variable {s u : Threads Mutex UdpServer Unit ι} {t v : ι} {p q : Locked.Steps}

theorem one_le_of_printing {known : ι → Option Bool} {tokens : ι → ℕ × ℕ}
    (h : InCustody receiveLoop s known tokens) (hcall : s.call t = some p)
    (hp : Printing s.shared p) : 1 ≤ (tokens t).1 := by
  have hmoves := (h.finish (fun _ _ _ _ _ _ ↦ Moves.trans) hcall).calls
  obtain ⟨hcalls, hundelivered⟩ := hp.finish
  rw [hcalls, hundelivered] at hmoves
  simp only [Prod.fst_zero] at hmoves
  omega

/-- Everything received has been handed over, up to what is still in the buffer: then its
handler is queued, or a thread is in it. -/
structure Intact (s : Threads Mutex UdpServer Unit ι) : Prop where
  queued : ∀ arguments : Arguments, .queued arguments ∈ s.shared.receives →
    arguments.error ≠ .operationAborted → ∃ r, Last s.shared r ∧ arguments = r.arguments
  phases : ∀ t p, s.call t = some p → Phase s.shared p
  owed : AllDelivered s.shared ∨
    (∃ arguments : Arguments, .queued arguments ∈ s.shared.receives ∧
      arguments.error ≠ .operationAborted) ∨
    ∃ t p, s.call t = some p ∧ Printing s.shared p

/-- The records and the handlers with something to print are the same, and the threads that
print are where they were. -/
theorem Intact.of_silent (h : Intact s) (hsilent : Silent s.shared u.shared)
    (hphases : ∀ t p, u.call t = some p → Phase u.shared p)
    (hkept : ∀ t p, s.call t = some p → Printing s.shared p → u.call t = some p) : Intact u := by
  refine ⟨?_, hphases, ?_⟩
  · intro arguments hqueued herror
    obtain ⟨r, hr, harguments⟩ := h.queued arguments ((hsilent.queued _ herror).mp hqueued) herror
    exact ⟨r, hr.same hsilent.toSameRecords, harguments⟩
  · rcases h.owed with hall | ⟨arguments, hqueued, herror⟩ | ⟨t, p, hcall, hp⟩
    · exact Or.inl (hall.same hsilent.toSameRecords)
    · exact Or.inr (Or.inl ⟨arguments, (hsilent.queued _ herror).mpr hqueued, herror⟩)
    · exact Or.inr (Or.inr ⟨t, p, hkept t p hcall hp, hp.same hsilent.toSameRecords⟩)

/-- A thread that does not print goes on. -/
theorem Intact.still [DecidableEq ι] (h : Intact s) {shared : UdpServer}
    (hsilent : Silent s.shared shared) {holder : Mutex → Option ι} {call : Option Locked.Steps}
    (hbefore : ∀ p, s.call t = some p → ¬Printing s.shared p)
    (hafter : ∀ p, call = some p → Phase shared p) :
    Intact ⟨shared, holder, Function.update s.call t call⟩ := by
  refine h.of_silent hsilent ?_ ?_
  · intro v p hp
    by_cases hvt : v = t
    · subst hvt
      exact hafter p (by simpa using hp)
    · exact (h.phases v p (by simpa [hvt] using hp)).same hsilent.toSameRecords
  · intro v p hcall hp
    have hvt : v ≠ t := by
      rintro rfl
      exact hbefore p hcall hp
    simpa [hvt] using hcall

/-- The thread `t` goes on in a handler that prints. -/
theorem Intact.goes [DecidableEq ι] (h : Intact s) {shared : UdpServer}
    (hsame : SameRecords s.shared shared)
    (hqueued : ∀ x ∈ shared.receives, x ∈ s.shared.receives) {holder : Mutex → Option ι}
    (hafter : Printing shared p) :
    Intact ⟨shared, holder, Function.update s.call t (some p)⟩ := by
  refine ⟨?_, ?_, Or.inr (Or.inr ⟨t, p, by simp, hafter⟩)⟩
  · intro arguments hmem herror
    obtain ⟨r, hr, harguments⟩ := h.queued arguments (hqueued _ hmem) herror
    exact ⟨r, hr.same hsame, harguments⟩
  · intro v q hq
    by_cases hvt : v = t
    · subst hvt
      obtain rfl : p = q := by simpa using hq
      exact .prints p hafter
    · exact (h.phases v q (by simpa [hvt] using hq)).same hsame

/-- The handler returns from `on_message_received`. -/
theorem Intact.returns [DecidableEq ι] (h : Intact s) (hnone : s.shared.receives = [])
    (honly : ∀ v q, s.call v = some q → Printing s.shared q → v = t) {r : Received}
    (hr : Last s.shared r) {holder : Mutex → Option ι} (hp : p.Acts Silent) :
    Intact ⟨Locked.recordCall r.arguments r.datagram.payload s.shared, holder,
      Function.update s.call t (some p)⟩ := by
  refine ⟨?_, ?_, Or.inl ?_⟩
  · intro arguments hmem
    simp [Locked.recordCall, hnone] at hmem
  · intro v q hq
    by_cases hvt : v = t
    · subst hvt
      obtain rfl : p = q := by simpa using hq
      exact .silent p hp
    · have hcall : s.call v = some q := by simpa [hvt] using hq
      exact (h.phases v q hcall).of_not_printing fun hprinting ↦ hvt (honly v q hcall hprinting)
  · obtain ⟨earlier, hcompleted, hcalls⟩ := hr.completed
    rw [AllDelivered, Locked.recordCall, hcompleted, hcalls, hr.holds.remote]
    simp [Received.call]

variable [Fintype ι]

/-- There is one receive, or one thread that is due to issue it. -/
def Single (s : Threads Mutex UdpServer Unit ι) : Prop :=
  ∃ known tokens, InCustody receiveLoop s known tokens ∧
    Covers (0, 1) s.shared (∑ t, tokens t)

/-- While a handler prints, no receive is in flight, and no other handler prints. -/
theorem Single.printing (h : Single s) (hcall : s.call t = some p) (hp : Printing s.shared p) :
    s.shared.receives = [] ∧ ∀ v q, s.call v = some q → Printing s.shared q → v = t := by
  obtain ⟨known, tokens, hs, hcovers⟩ := h
  have hsum : s.shared.receives.length + ∑ v, (tokens v).1 ≤ 1 := by
    have hfst : (∑ v, tokens v).1 = ∑ v, (tokens v).1 := Prod.fst_sum
    simp only [Covers, hfst] at hcovers
    omega
  have hone := one_le_of_printing hs hcall hp
  have hle : (tokens t).1 ≤ ∑ v, (tokens v).1 :=
    Finset.single_le_sum (f := fun v ↦ (tokens v).1) (fun _ _ ↦ Nat.zero_le _)
      (Finset.mem_univ t)
  refine ⟨List.eq_nil_of_length_eq_zero (by omega), ?_⟩
  intro v q hcall' hq
  by_contra hvt
  have hone' := one_le_of_printing hs hcall' hq
  classical
  have hpair : ∑ w ∈ {t, v}, (tokens w).1 ≤ ∑ w, (tokens w).1 :=
    Finset.sum_le_sum_of_subset (Finset.subset_univ _)
  rw [Finset.sum_pair (Ne.symm hvt)] at hpair
  omega

theorem Single.length (h : Single s) : s.shared.receives.length ≤ 1 := by
  obtain ⟨_, _, _, hcovers⟩ := h
  simp only [Covers] at hcovers
  omega

/-- A receive completes. -/
theorem Intact.complete (h : Intact s) (hsingle : Single s) {i : ℕ} {r : Received}
    {arrived : List Datagram} (herror : r.error ≠ .operationAborted) {shared : UdpServer}
    (hcomplete : complete i r { s.shared with arrived } = some shared) :
    Intact { s with shared } := by
  obtain ⟨hpending, _, hfits, rfl⟩ := complete_eq_some hcomplete
  have hpending' : s.shared.receives[i]? = some .pending := hpending
  have honly : s.shared.receives = [.pending] := by
    obtain ⟨x, hx⟩ : ∃ x, s.shared.receives = [x] := by
      refine List.length_eq_one_iff.mp (le_antisymm hsingle.length ?_)
      exact Nat.one_le_iff_ne_zero.mpr fun hzero ↦ by
        simp [List.eq_nil_of_length_eq_zero hzero] at hpending'
    rw [hx] at hpending' ⊢
    rw [(getElem?_singleton hpending').2]
  have hnot : ∀ t p, s.call t = some p → ¬Printing s.shared p := by
    intro t p hcall hp
    simp [(hsingle.printing hcall hp).1] at honly
  have hall : AllDelivered s.shared := by
    rcases h.owed with hall | ⟨arguments, hqueued, _⟩ | ⟨t, p, hcall, hp⟩
    · exact hall
    · simp [honly] at hqueued
    · exact absurd hp (hnot t p hcall)
  have hzero : i = 0 := by
    rw [honly] at hpending'
    exact (getElem?_singleton hpending').1
  subst hzero
  refine ⟨?_, fun t p hcall ↦ (h.phases t p hcall).of_not_printing (hnot t p hcall),
    Or.inr (Or.inl ⟨r.arguments, by simp [honly], herror⟩)⟩
  intro arguments hqueued _
  obtain rfl : arguments = r.arguments := by simpa [honly] using hqueued
  refine ⟨r, ⟨⟨s.shared.completed, rfl, hall⟩, herror, rfl, hfits, ?_⟩, rfl⟩
  intro j hj
  rw [RecvBuffer.index_store hfits hj, List.getElem?_eq_getElem hj]

variable [DecidableEq ι]

/-- One step of the loop of `on_message_received`. -/
theorem Intact.print (h : Intact s) (hsingle : Single s) {f : UdpServer → UdpServer}
    {next : UdpServer → Locked.Steps} (hcall : s.call t = some (.act f next))
    (hp : Printing s.shared (.act f next)) :
    Intact ⟨f s.shared, s.holder, Function.update s.call t (some (next s.shared))⟩ := by
  obtain ⟨hnone, honly⟩ := hsingle.printing hcall hp
  generalize hq : Program.act f next = q at hp
  cases hp with
  | begins => cases hq
  | goes r printed left hr hpayload =>
      cases left with
      | nil =>
          have hact : Program.act f next = .act (Locked.recordCall r.arguments printed) fun _ ↦
            (Program.unlock .multicastMutex (.ret ())).andThen Locked.receiveUnicast := hq
          obtain ⟨rfl, rfl⟩ := Program.act.inj hact
          obtain rfl : r.datagram.payload = printed := by simpa using hpayload
          exact h.returns hnone honly hr (Acts.simply silent_receiveUnicast).guarded
      | cons byte left =>
          have hact : Program.act f next = .act id _ := hq
          obtain ⟨rfl, rfl⟩ := Program.act.inj hact
          have hindex : s.shared.unicastRecvBuffer.index printed.length = some byte := by
            rw [hr.holds.bytes printed.length (by simp [hpayload]), hpayload]
            simp
          simp only [hindex]
          exact h.goes ⟨rfl, rfl, rfl, rfl⟩ (fun _ hx ↦ hx)
            (.goes r (printed ++ [byte]) left hr (by simp [hpayload]))

/-- A handler is taken off the queue. -/
theorem Intact.pop (h : Intact s) (hsingle : Single s) {i : ℕ}
    (hcall : s.call t = some (Locked.handle i)) (hp : ¬Printing s.shared (Locked.handle i)) :
    Intact ⟨Locked.pop i s.shared, s.holder, Function.update s.call t
      (some (match s.shared.receives[i]? with
        | some (.queued arguments) => Locked.onUnicastReceived arguments
        | _ => skip))⟩ := by
  have hbefore : ∀ p, s.call t = some p → ¬Printing s.shared p := by
    intro p hcall'
    obtain rfl : Locked.handle i = p := Option.some.inj (hcall.symm.trans hcall')
    exact hp
  by_cases hq : ∃ arguments, s.shared.receives[i]? = some (.queued arguments)
  · obtain ⟨arguments, hq⟩ := hq
    have hmem := List.mem_of_getElem? hq
    simp only [Locked.pop, hq]
    by_cases herror : arguments.error = .operationAborted
    · -- the socket was closed: there was nothing else in the list of receives
      obtain ⟨x, hx⟩ : ∃ x, s.shared.receives = [x] := List.length_eq_one_iff.mp
        (le_antisymm hsingle.length (List.length_pos_of_mem hmem))
      rw [hx] at hq
      obtain ⟨rfl, rfl⟩ := getElem?_singleton hq
      have hsilent : Silent s.shared
          { s.shared with receives := s.shared.receives.eraseIdx 0 } := by
        refine ⟨⟨rfl, rfl, rfl, rfl⟩, fun arguments' herror' ↦ ?_⟩
        have hne : arguments' ≠ arguments := fun heq ↦ herror' (heq ▸ herror)
        simp [hx, hne]
      refine h.still hsilent hbefore ?_
      rintro _ ⟨⟩
      simp only [Locked.onUnicastReceived, herror, ne_eq, not_true_eq_false, ↓reduceIte]
      exact .silent _ Acts.skip
    · obtain ⟨r, hr, rfl⟩ := h.queued arguments hmem herror
      simp only [Locked.onUnicastReceived, ne_eq, herror, not_false_eq_true, ↓reduceIte]
      have hsame : SameRecords s.shared
          { s.shared with receives := s.shared.receives.eraseIdx i } := ⟨rfl, rfl, rfl, rfl⟩
      exact h.goes hsame (fun _ hx ↦ List.mem_of_mem_eraseIdx hx) (.begins r (hr.same hsame))
  · have hpop : Locked.pop i s.shared = s.shared := by
      unfold Locked.pop
      split
      · exact absurd ⟨_, ‹_›⟩ hq
      · rfl
    rw [hpop]
    refine h.still (silent_refl _) hbefore ?_
    rintro p ⟨⟩
    split
    · exact absurd ⟨_, ‹_›⟩ hq
    · exact .silent _ Acts.skip

theorem Intact.run (h : Intact s) (hsingle : Single s) (hstep : s.run t = some u) :
    Intact u := by
  have hnot : ∀ q, s.call t = some q → ¬Printing s.shared q →
      ∀ p, s.call t = some p → ¬Printing s.shared p := by
    rintro q hq hprinting p hp
    obtain rfl : q = p := Option.some.inj (hq.symm.trans hp)
    exact hprinting
  rcases run_cases hstep with ⟨m, p, hcall, _, rfl⟩ | ⟨m, p, hcall, _, rfl⟩ |
    ⟨f, next, hcall, rfl⟩
  · by_cases hp : Printing s.shared (.lock m p)
    · exact h.goes ⟨rfl, rfl, rfl, rfl⟩ (fun _ hx ↦ hx) hp.lock
    · refine h.still (silent_refl _) (hnot _ hcall hp) ?_
      rintro _ ⟨⟩
      exact (h.phases t _ hcall).lock
  · refine h.still (silent_refl _) (hnot _ hcall not_printing_unlock) ?_
    rintro _ ⟨⟩
    exact (h.phases t _ hcall).unlock
  · by_cases hp : Printing s.shared (.act f next)
    · exact h.print hsingle hcall hp
    · have hphase := h.phases t _ hcall
      generalize hq : Program.act f next = q at hphase
      cases hphase with
      | silent _ hacts =>
          subst hq
          refine h.still (hacts s.shared).1 (hnot _ hcall hp) ?_
          rintro _ ⟨⟩
          exact .silent _ (hacts s.shared).2
      | handles i =>
          rw [hq] at hcall hp
          obtain ⟨rfl, rfl⟩ := Program.act.inj hq
          exact h.pop hsingle hcall hp
      | prints _ hprinting => exact absurd (hq ▸ hprinting) hp

theorem Intact.step (h : Intact s) (hsingle : Single s)
    {a : Threads.Action ι Invocation Event} (hstep : Threads.step machine s a = some u) :
    Intact u := by
  cases a with
  | call t k =>
      obtain ⟨hidle, rfl⟩ := enter_eq_some hstep
      refine h.still (silent_refl _) (by simp [hidle]) ?_
      rintro _ ⟨⟩
      exact phase_code k
  | run t => exact h.run hsingle hstep
  | leave t =>
      obtain ⟨b, hret, rfl⟩ := leave_eq_some hstep
      refine h.still (silent_refl _) ?_ (by simp)
      intro p hcall
      obtain rfl : Program.ret b = p := Option.some.inj (hret.symm.trans hcall)
      exact not_printing_ret
  | event e =>
      obtain ⟨shared, he, rfl⟩ := Option.map_eq_some_iff.mp hstep
      rcases event_cases he with ⟨arrived, rfl⟩ | ⟨i, r, arrived, herror, hcomplete⟩
      · have hsilent : Silent s.shared { s.shared with arrived } :=
          ⟨⟨rfl, rfl, rfl, rfl⟩, fun _ _ ↦ Iff.rfl⟩
        exact h.of_silent hsilent
          (fun t p hcall ↦ (h.phases t p hcall).same hsilent.toSameRecords)
          fun _ _ hcall _ ↦ hcall
      · exact h.complete hsingle herror hcomplete

theorem intact_of_run {known : ι → Option Bool} {tokens : ι → ℕ × ℕ} {paid : ℕ × ℕ}
    {as : List (Threads.Action ι Invocation Event)} (h : Intact s)
    (hcustody : InCustody receiveLoop s known tokens)
    (hcovers : Covers paid s.shared (∑ t, tokens t))
    (hpaid : paid.1 + paid.2 + starts as ≤ 1)
    (hrun : (Threads.system machine ι).run anyStep as s = some u) : Intact u := by
  induction as generalizing s known tokens paid with
  | nil =>
      obtain rfl : s = u := Option.some.inj hrun
      exact h
  | cons a as ih =>
      obtain ⟨v, ha, hv, hrest⟩ := TransitionSystem.run_cons hrun
      have hsingle : Single s := by
        refine ⟨known, tokens, hcustody, ?_⟩
        simp only [Covers] at hcovers ⊢
        omega
      obtain ⟨known', tokens', hs, hcovers'⟩ :=
        hcustody.step (accounted_receiveLoop (ι := ι)) hcovers ha hv
      refine ih (h.step hsingle hv) hs hcovers' ?_ hrest
      have hbrought := brought_isStart a
      simp only [starts, List.countP_cons] at hpaid
      simp only [Prod.fst_add, Prod.snd_add, starts]
      omega

/-- Whatever the threads do, if `start` is called once the datagrams are handed over in
order, each of them once and as it was received; the last one may still be under way, but
not if its handler has been run and all threads have returned. -/
theorem threads_deliver_in_order {as : List (Threads.Action ι Invocation Event)}
    {s : Threads Mutex UdpServer Unit ι} (hstarts : starts as ≤ 1)
    (hrun : (Threads.system machine ι).run anyStep as (idle constructed) = some s) :
    s.shared.calls <+: s.shared.completed.map Received.call ∧
      s.shared.completed.length ≤ s.shared.calls.length + 1 ∧
      (s.shared.undelivered = 0 → (∀ t, s.call t = none) →
        s.shared.calls = s.shared.completed.map Received.call) := by
  have hfirst : Intact (idle constructed : Threads Mutex UdpServer Unit ι) :=
    ⟨by simp [idle, constructed], by simp [idle], Or.inl rfl⟩
  have hcovers : Covers 0 constructed (∑ _ : ι, 0) := by
    simp [Covers, constructed]
  have hs := intact_of_run hfirst (inCustody_idle receiveLoop constructed) hcovers
    (by simpa using hstarts) hrun
  have hlast : ∀ r, Last s.shared r → s.shared.calls <+: s.shared.completed.map Received.call ∧
      s.shared.completed.length ≤ s.shared.calls.length + 1 := by
    intro r hr
    obtain ⟨earlier, hcompleted, hcalls⟩ := hr.completed
    rw [hcompleted, hcalls, List.map_append]
    exact ⟨List.prefix_append _ _, by simp⟩
  rcases hs.owed with hall | ⟨arguments, hqueued, herror⟩ | ⟨t, p, hcall, hp⟩
  · refine ⟨hall ▸ List.prefix_rfl, ?_, fun _ _ ↦ hall⟩
    have hlength := congrArg List.length hall
    rw [List.length_map] at hlength
    omega
  · obtain ⟨r, hr, _⟩ := hs.queued arguments hqueued herror
    refine ⟨(hlast r hr).1, (hlast r hr).2, fun hnone _ ↦ ?_⟩
    have hdelivers := List.countP_eq_zero.mp hnone _ hqueued
    simp [Receive.delivers, herror] at hdelivers
  · obtain ⟨r, hr⟩ : ∃ r, Last s.shared r := by
      cases hp with
      | begins r h => exact ⟨r, h⟩
      | goes r _ _ h => exact ⟨r, h⟩
    refine ⟨(hlast r hr).1, (hlast r hr).2, fun _ hidle ↦ ?_⟩
    simp [hidle t] at hcall

end Threads

/-- One thread closes the socket while another, in the handler of a datagram of two bytes,
has printed the first of them. -/
def closedWhilePrinting (d : Datagram) : List (Threads.Action Bool Invocation Event) :=
  List.flatten [[.call false .start], List.replicate 3 (.run false),
    [.leave false, .event (.arrives d), .event (.receives 0), .call true (.handle 0)],
    List.replicate 3 (.run true), [.call false .stop], List.replicate 3 (.run false),
    List.replicate 6 (.run true), [.leave true], List.replicate 2 (.run false), [.leave false]]

theorem threads_deliver_in_order_closed : ∃ s : Threads Mutex UdpServer Unit Bool,
    (Threads.system machine Bool).run TransitionSystem.anyStep
      (closedWhilePrinting ⟨⟨.v4 0xc0a80001#32, 5000⟩, .v4 0xc0a80002#32, [1, 2]⟩)
      (Threads.idle constructed) = some s ∧
    s.shared.isOpen = false ∧ s.shared.calls = [Received.call
      ⟨.success, ⟨⟨.v4 0xc0a80001#32, 5000⟩, .v4 0xc0a80002#32, [1, 2]⟩⟩] := by
  have hrun : ((Threads.system machine Bool).run TransitionSystem.anyStep
      (closedWhilePrinting ⟨⟨.v4 0xc0a80001#32, 5000⟩, .v4 0xc0a80002#32, [1, 2]⟩)
      (Threads.idle constructed)).map (fun s ↦ ((s.shared.isOpen, s.shared.undelivered,
        s.shared.completed), (s.call false).isNone, (s.call true).isNone)) =
      some ((false, 0, [⟨.success, ⟨⟨.v4 0xc0a80001#32, 5000⟩, .v4 0xc0a80002#32, [1, 2]⟩⟩]),
        true, true) := by
    decide +kernel
  obtain ⟨s, hs, hshown⟩ := Option.map_eq_some_iff.mp hrun
  simp only [Prod.mk.injEq, Option.isNone_iff_eq_none] at hshown
  obtain ⟨⟨hopen, hundelivered, hcompleted⟩, hfirst, hsecond⟩ := hshown
  have hidle : ∀ t : Bool, s.call t = none := Bool.forall_bool.mpr ⟨hfirst, hsecond⟩
  have hall := (threads_deliver_in_order (by decide) hs).2.2 hundelivered hidle
  rw [hcompleted] at hall
  exact ⟨s, hs, hopen, hall⟩

end UdpServer

end DoipEndpoint
