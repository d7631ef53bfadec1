import DoipEndpoint.Critical
import DoipEndpoint.Manager.Run

/-!
# The endpoint manager on several threads

The functions of the manager run under `endpoint_mutex_`, but the use counts that they
read do not: any thread that has an endpoint may change its count at any time, also
between the comparison in a remove and the erasure that follows it.  Every call still
takes effect at one instant.
-/

namespace DoipEndpoint

namespace Manager

open Program

inductive Mutex where
  | endpointMutex
  deriving DecidableEq, Repr

namespace Locked

def store (role : Role) (key : Key) (e : ℕ) (s : Manager) : Manager :=
  s.setEndpoints role (NestedMap.assign key e (s.endpoints role))

def eraseEntry (role : Role) (key : Key) (s : Manager) : Manager :=
  s.setEndpoints role (NestedMap.erase key (s.endpoints role))

def construct (role : Role) (os : Os) (key : Key) : Program Mutex Manager Reply :=
  if os.constructs then
    .act (makeShared os.memory) fun s ↦
      .act (store role key s.created) fun _ ↦ .ret (.created ⟨some s.created, !os.starts⟩)
  else .ret (.created ⟨none, true⟩)

def createServerEndpoint (os : Os) (ip : String) (port : UInt16) (reliable : Bool) :
    Program Mutex Manager Reply :=
  if os.parses ip then construct .server os (ip, port, reliable)
  else .ret (.created ⟨none, true⟩)

def createClientEndpoint (os : Os) (ip : String) (port : UInt16) (remoteIp : String)
    (reliable : Bool) : Program Mutex Manager Reply :=
  if os.parses ip ∧ os.parses remoteIp then
    if reliable then construct .client os (ip, port, reliable)
    else .ret (.created ⟨none, false⟩)
  else .ret (.created ⟨none, true⟩)

def find (role : Role) (key : Key) : Program Mutex Manager Reply :=
  choose fun s ↦ .ret (.found (s.find role key))

/-- The entry is looked up, then the use count is read, then the entry is erased. -/
def remove (role : Role) (key : Key) : Program Mutex Manager Reply :=
  choose fun s ↦
    match s.find role key with
    | none => .ret (.removed false)
    | some e =>
        choose fun s ↦
          if (s.endpoint e).getUseCount = 0 then
            .act (eraseEntry role key) fun _ ↦ .ret (.removed true)
          else .ret (.removed false)

end Locked

/-- What a thread can call. -/
inductive Invocation where
  | createServerEndpoint (os : Os) (ip : String) (port : UInt16) (reliable : Bool)
  | createClientEndpoint (os : Os) (ip : String) (port : UInt16) (remoteIp : String)
      (remotePort : UInt16) (reliable : Bool)
  | findServerEndpoint (ip : String) (port : UInt16) (reliable : Bool)
  | findClientEndpoint (ip : String) (port : UInt16) (reliable : Bool)
  | removeServerEndpoint (ip : String) (port : UInt16) (reliable : Bool)
  | removeClientEndpoint (ip : String) (port : UInt16) (reliable : Bool)

namespace Invocation

def action : Invocation → Action
  | .createServerEndpoint os ip port reliable => .createServerEndpoint os ip port reliable
  | .createClientEndpoint os ip port remoteIp remotePort reliable =>
      .createClientEndpoint os ip port remoteIp remotePort reliable
  | .findServerEndpoint ip port reliable => .findServerEndpoint ip port reliable
  | .findClientEndpoint ip port reliable => .findClientEndpoint ip port reliable
  | .removeServerEndpoint ip port reliable => .removeServerEndpoint ip port reliable
  | .removeClientEndpoint ip port reliable => .removeClientEndpoint ip port reliable

/-- The call without its `lock_guard`. -/
def body : Invocation → Program Mutex Manager Reply
  | .createServerEndpoint os ip port reliable => Locked.createServerEndpoint os ip port reliable
  | .createClientEndpoint os ip port remoteIp _ reliable =>
      Locked.createClientEndpoint os ip port remoteIp reliable
  | .findServerEndpoint ip port reliable => Locked.find .server (ip, port, reliable)
  | .findClientEndpoint ip port reliable => Locked.find .client (ip, port, reliable)
  | .removeServerEndpoint ip port reliable => Locked.remove .server (ip, port, reliable)
  | .removeClientEndpoint ip port reliable => Locked.remove .client (ip, port, reliable)

def code (k : Invocation) : Program Mutex Manager Reply := guarded .endpointMutex k.body

end Invocation

/-- `increment_use_count` and `decrement_use_count` lock nothing. -/
def event (s : Manager) (e : SaturatingCounter.Call × ℕ) : Option Manager :=
  if e.2 < s.created then some (s.count e.1 e.2) else none

def machine : Machine Mutex Manager Reply Invocation (SaturatingCounter.Call × ℕ) where
  initial s := s = constructed
  code := Invocation.code
  event := event

variable {s t : Manager} {e : SaturatingCounter.Call × ℕ}

theorem event_eq_some (h : event s e = some t) : e.2 < s.created ∧ t = s.count e.1 e.2 := by
  unfold event at h
  split_ifs at h with hlt
  exact ⟨hlt, (Option.some.inj h).symm⟩

/-! ## What the calls do alone -/

theorem finish_construct (role : Role) (os : Os) (key : Key) (s : Manager) :
    (Locked.construct role os key).finish s = (s.construct role os key).1 ∧
      (Locked.construct role os key).answer s = .created (s.construct role os key).2 := by
  unfold construct Locked.construct
  split
  · simp only [finish_act, finish_ret, Locked.store, endpoints_makeShared]
    exact ⟨trivial, rfl⟩
  · exact ⟨rfl, rfl⟩

theorem finish_remove (role : Role) (key : Key) (s : Manager) :
    (Locked.remove role key).finish s = (s.remove role key).1 ∧
      (Locked.remove role key).answer s = .removed (s.remove role key).2 := by
  rw [remove_eq]
  simp only [Locked.remove, finish_choose, answer_choose]
  cases s.find role key with
  | none => exact ⟨rfl, rfl⟩
  | some e =>
      simp only [finish_choose, answer_choose]
      split
      · exact ⟨rfl, rfl⟩
      · exact ⟨rfl, rfl⟩

/-- Where nothing interferes, a call does what its function does in one step. -/
theorem perform_action (k : Invocation) (s : Manager) :
    s.perform k.action = some (k.body.finish s, k.body.answer s) := by
  cases k with
  | createServerEndpoint os ip port reliable =>
      simp only [Invocation.action, perform, Invocation.body, Locked.createServerEndpoint,
        createServerEndpoint]
      split
      · obtain ⟨hfinish, hanswer⟩ := finish_construct .server os (ip, port, reliable) s
        rw [hfinish, hanswer]
      · rfl
  | createClientEndpoint os ip port remoteIp remotePort reliable =>
      simp only [Invocation.action, perform, Invocation.body, Locked.createClientEndpoint,
        createClientEndpoint]
      split
      · split
        · obtain ⟨hfinish, hanswer⟩ := finish_construct .client os (ip, port, reliable) s
          rw [hfinish, hanswer]
        · rfl
      · rfl
  | findServerEndpoint | findClientEndpoint => rfl
  | removeServerEndpoint ip port reliable =>
      obtain ⟨hfinish, hanswer⟩ := finish_remove .server (ip, port, reliable) s
      simp only [Invocation.action, perform, Invocation.body, removeServerEndpoint, hfinish,
        hanswer]
  | removeClientEndpoint ip port reliable =>
      obtain ⟨hfinish, hanswer⟩ := finish_remove .client (ip, port, reliable) s
      simp only [Invocation.action, perform, Invocation.body, removeClientEndpoint, hfinish,
        hanswer]

/-! ## When the calls take effect -/

theorem find_of_event (h : event s e = some t) (role : Role) (key : Key) :
    t.find role key = s.find role key := by
  obtain ⟨_, rfl⟩ := event_eq_some h
  exact find_count role key e.1 e.2 s

theorem find_of_evolves (h : Evolves event s t) (role : Role) (key : Key) :
    t.find role key = s.find role key := by
  induction h with
  | refl => rfl
  | tail _ hlast ih =>
      obtain ⟨e, he⟩ := hlast
      exact (find_of_event he role key).trans ih

/-- Writing an entry and counting uses do not disturb each other. -/
theorem event_setEndpoints (role : Role) (f : Endpoints → Endpoints) (h : event s e = some t) :
    event (s.setEndpoints role (f (s.endpoints role))) e =
      some (t.setEndpoints role (f (t.endpoints role))) := by
  obtain ⟨hlt, rfl⟩ := event_eq_some h
  rw [endpoints_count, event, setEndpoints_created, if_pos hlt]
  cases role <;> rfl

theorem settled_ret (b : Reply) : (ret b : Program Mutex Manager Reply).Settled event := trivial

theorem settled_write (role : Role) (f : Endpoints → Endpoints) (b : Reply) :
    (.act (fun s ↦ s.setEndpoints role (f (s.endpoints role))) fun _ ↦ .ret b :
      Program Mutex Manager Reply).Settled event :=
  ⟨fun _ _ _ h ↦ ⟨event_setEndpoints role f h, rfl⟩, fun _ ↦ trivial⟩

theorem deciding_construct (role : Role) (os : Os) (key : Key) :
    (Locked.construct role os key).Deciding event := by
  unfold Locked.construct
  split
  · exact Deciding.commits fun s ↦ settled_write role (NestedMap.assign key s.created) _
  · exact trivial

theorem deciding_find (role : Role) (key : Key) :
    (Locked.find role key).Deciding event :=
  Deciding.commits fun _ ↦ settled_ret _

/-- A remove takes effect when it reads the use count. -/
theorem deciding_remove (role : Role) (key : Key) :
    (Locked.remove role key).Deciding event := by
  apply Deciding.reads
  · intro s
    cases s.find role key with
    | none => exact trivial
    | some e =>
        refine Deciding.commits fun s ↦ ?_
        split
        · exact settled_write role (NestedMap.erase key) _
        · exact settled_ret _
  · intro s t ht
    rw [find_of_evolves ht]

theorem sectioned_machine : Sectioned .endpointMutex Invocation.body machine where
  code _ := rfl
  deciding k := by
    cases k with
    | createServerEndpoint os ip port reliable =>
        simp only [Invocation.body, Locked.createServerEndpoint]
        split
        · exact deciding_construct _ _ _
        · exact trivial
    | createClientEndpoint os ip port remoteIp remotePort reliable =>
        simp only [Invocation.body, Locked.createClientEndpoint]
        split
        · split
          · exact deciding_construct _ _ _
          · exact trivial
        · exact trivial
    | findServerEndpoint | findClientEndpoint => exact deciding_find _ _
    | removeServerEndpoint | removeClientEndpoint => exact deciding_remove _ _

/-! ## Runs -/

section Threads

open TransitionSystem

variable {ι : Type*} [DecidableEq ι]

/-- What the threads have called, been answered and counted, newest first. -/
abbrev Log (ι : Type*) := List (Visible ι Invocation Reply (SaturatingCounter.Call × ℕ))

/-- The session that a history of the atomic object stands for: the same manager, and
all the answers that were given. -/
structure Recounts (a : AtomicObject Manager Invocation Reply ι) (log : Log ι) (session : Session) :
    Prop where
  reachable : system.Reachable anyStep session
  manager : session.manager = a.shared
  answered : ∀ t k b, a.phase t = .answered k b → (k.action, b) ∈ session.log
  returned : ∀ t b, .returned t b ∈ log → ∃ k : Invocation, (k.action, b) ∈ session.log

theorem exists_recounts {a : AtomicObject Manager Invocation Reply ι} {log : Log ι}
    (h : ((AtomicObject.system machine ι).recorded AtomicObject.seen).Reachable anyStep
      (a, log)) : ∃ session, Recounts a log session := by
  apply h.invariant (I := fun a ↦ ∃ session, Recounts a.1 a.2 session)
  · rintro ⟨a, log⟩ ⟨⟨hshared, hphase⟩, hlog⟩
    obtain rfl : log = [] := hlog
    refine ⟨⟨constructed, []⟩, .initial rfl, Eq.symm hshared, ?_, by simp⟩
    intro t k b ht
    have hidle : a.phase t = .idle := congrFun hphase t
    rw [hidle] at ht
    cases ht
  · rintro ⟨a, log⟩ x ⟨b, log'⟩ ⟨session, hs⟩ _ hstep
    obtain ⟨hb, hlog⟩ : AtomicObject.step machine a x = some b ∧ log' = a.seen x ++ log :=
      recorded_eq_some hstep
    subst hlog
    rcases AtomicObject.step_cases hb with ⟨t, k, rfl, _, rfl⟩ | ⟨t, k, rfl, hphase, rfl⟩ |
      ⟨t, k, r, rfl, hphase, rfl⟩ | ⟨e, shared, rfl, he, rfl⟩
    · refine ⟨session, hs.reachable, hs.manager, ?_, ?_⟩
      · intro v c r hv
        by_cases hvt : v = t
        · simp [hvt] at hv
        · exact hs.answered v c r (by simpa [hvt] using hv)
      · intro v r hv
        exact hs.returned v r (by simpa [AtomicObject.seen] using hv)
    · refine ⟨⟨_, (k.action, (machine.code k).answer a.shared) :: session.log⟩, ?_, rfl, ?_, ?_⟩
      · refine hs.reachable.step (a := k.action) trivial ?_
        have hperform := perform_action k session.manager
        simp only [system, step, hperform]
        rw [hs.manager]
        simp only [machine, Invocation.code, finish_guarded, answer_guarded]
      · intro v c r hv
        by_cases hvt : v = t
        · simp only [hvt, Function.update_self, Phase.answered.injEq] at hv
          obtain ⟨rfl, rfl⟩ := hv
          exact List.mem_cons_self
        · exact List.mem_cons_of_mem _ (hs.answered v c r (by simpa [hvt] using hv))
      · intro v r hv
        obtain ⟨c, hc⟩ := hs.returned v r (by simpa [AtomicObject.seen] using hv)
        exact ⟨c, List.mem_cons_of_mem _ hc⟩
    · refine ⟨session, hs.reachable, hs.manager, ?_, ?_⟩
      · intro v c q hv
        by_cases hvt : v = t
        · simp [hvt] at hv
        · exact hs.answered v c q (by simpa [hvt] using hv)
      · intro v q hv
        rw [AtomicObject.seen_leave hphase] at hv
        rcases List.mem_append.mp hv with hnew | hold
        · obtain ⟨rfl, rfl⟩ : v = t ∧ q = r := by simpa using hnew
          exact ⟨k, hs.answered v k q hphase⟩
        · exact hs.returned v q hold
    · obtain ⟨hlt, rfl⟩ := event_eq_some he
      refine ⟨⟨a.shared.count e.1 e.2, (.useCount e.1 e.2, .counted) :: session.log⟩,
        ?_, rfl, ?_, ?_⟩
      · refine hs.reachable.step (a := .useCount e.1 e.2) trivial ?_
        simp only [system, step, perform, hs.manager, if_pos hlt]
      · intro v c r hv
        exact List.mem_cons_of_mem _ (hs.answered v c r hv)
      · intro v r hv
        obtain ⟨c, hc⟩ := hs.returned v r (by simpa [AtomicObject.seen] using hv)
        exact ⟨c, List.mem_cons_of_mem _ hc⟩

/-- Whatever the threads do, what can be seen of them can be seen of a manager on which
every call takes effect at one instant between its begin and its end.  When the mutex is
free the two are in the same state, which is that of a session of the atomic functions
that gave all the answers. -/
theorem calls_take_effect_at_once {s : Threads Mutex Manager Reply ι} {log : Log ι}
    (h : ((Threads.system machine ι).recorded Threads.seen).Reachable anyStep (s, log)) :
    ∃ a session, ((AtomicObject.system machine ι).recorded AtomicObject.seen).Reachable anyStep
      (a, log) ∧ Recounts a log session ∧
        (s.holder .endpointMutex = none → session.manager = s.shared) := by
  obtain ⟨a, ha, hs⟩ := Sectioned.exists_atomic sectioned_machine h
  obtain ⟨session, hsession⟩ := exists_recounts ha
  exact ⟨a, session, ha, hsession, fun hfree ↦ hsession.manager.trans (hs.free hfree)⟩

/-- One thread uses the endpoint that another one is about to erase. -/
theorem calls_take_effect_at_once_overtaken :
    ∃ (s : Threads Mutex Manager Reply (Fin 2)) (log : Log (Fin 2)) (session : Session),
      ((Threads.system machine (Fin 2)).recorded Threads.seen).run anyStep
        [.call 0 (.createServerEndpoint ⟨fun _ ↦ true, true, 0, true⟩ "192.168.0.2" 13400 true),
          .run 0, .run 0, .run 0, .run 0, .leave 0,
          .call 0 (.removeServerEndpoint "192.168.0.2" 13400 true), .run 0, .run 0, .run 0,
          .event (.increment, 0), .run 0, .run 0]
        (Threads.idle constructed, []) = some (s, log) ∧ session.manager = s.shared := by
  obtain ⟨s, log, hrun, hfree⟩ :
      ∃ (s : Threads Mutex Manager Reply (Fin 2)) (log : Log (Fin 2)),
        ((Threads.system machine (Fin 2)).recorded Threads.seen).run anyStep
          [.call 0 (.createServerEndpoint ⟨fun _ ↦ true, true, 0, true⟩ "192.168.0.2" 13400 true),
            .run 0, .run 0, .run 0, .run 0, .leave 0,
            .call 0 (.removeServerEndpoint "192.168.0.2" 13400 true), .run 0, .run 0, .run 0,
            .event (.increment, 0), .run 0, .run 0]
          (Threads.idle constructed, []) = some (s, log) ∧ s.holder .endpointMutex = none :=
    ⟨_, _, rfl, rfl⟩
  obtain ⟨_, session, _, _, hsame⟩ := calls_take_effect_at_once
    (reachable_of_run ⟨⟨constructed, rfl, rfl⟩, rfl⟩ hrun)
  exact ⟨s, log, session, hrun, hsame hfree⟩

end Threads

end Manager

end DoipEndpoint
