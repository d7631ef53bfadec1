import DoipEndpoint.Manager.Registry

/-!
# The users of an endpoint

The use count of an endpoint is a saturating counter that starts at what the
memory of the endpoint held.  What the manager's remove functions see of the
users of an endpoint is right if that was 0.
-/

namespace DoipEndpoint

namespace Manager

open TransitionSystem SaturatingCounter

/-- The calls on an endpoint, oldest first. -/
def callsOn (e : ℕ) : List (Action × Reply) → List Call
  | [] => []
  | (.useCount call e', .counted) :: log =>
      if e' = e then callsOn e log ++ [call] else callsOn e log
  | _ :: log => callsOn e log

/-- What the memory of an endpoint held, if the call constructed it. -/
def constructedOn (e : ℕ) : Action × Reply → Option UInt32
  | (a, .created ⟨some e', _⟩) => if e' = e then a.constructing.map Os.memory else none
  | _ => none

def memoryOf (e : ℕ) (log : List (Action × Reply)) : Option UInt32 :=
  log.findSome? (constructedOn e)

/-- An endpoint that is yet to be constructed has no calls, and every other
counts its calls from what its memory held. -/
structure Counts (s : Session) : Prop where
  fresh : ∀ e, s.manager.created ≤ e → memoryOf e s.log = none ∧ callsOn e s.log = []
  after : ∀ e memory, memoryOf e s.log = some memory →
    (s.manager.endpoint e).getUseCount.toNat =
      SaturatingCounter.after (2 ^ 32) memory.toNat (callsOn e s.log)

/-- A call that neither constructs an endpoint nor counts. -/
theorem Counts.of_same {s t : Session} (h : Counts s) {entry : Action × Reply}
    (hlog : t.log = entry :: s.log) (hcreated : t.manager.created = s.manager.created)
    (hendpoint : t.manager.endpoint = s.manager.endpoint)
    (hmemory : ∀ e, constructedOn e entry = none)
    (hcalls : ∀ e, callsOn e (entry :: s.log) = callsOn e s.log) : Counts t := by
  have hmem : ∀ e, memoryOf e t.log = memoryOf e s.log := by
    intro e
    rw [hlog, memoryOf, List.findSome?_cons, hmemory, memoryOf]
  constructor
  · intro e he
    rw [hcreated] at he
    rw [hmem, hlog, hcalls]
    exact h.fresh e he
  · intro e memory hm
    rw [hmem] at hm
    rw [hendpoint, hlog, hcalls]
    exact h.after e memory hm

theorem Counts.stored {s t : Session} (h : Counts s) {a : Action} {os : Os} {caught : Bool}
    (hos : a.constructing = some os)
    (hlog : t.log = (a, .created ⟨some s.manager.created, caught⟩) :: s.log)
    (hcreated : t.manager.created = s.manager.created + 1)
    (hendpoint : t.manager.endpoint =
      Function.update s.manager.endpoint s.manager.created (.constructed os.memory)) :
    Counts t := by
  have hcalls : ∀ e, callsOn e t.log = callsOn e s.log := by
    intro e
    rw [hlog]
    cases a <;> rfl
  have hnew : memoryOf s.manager.created t.log = some os.memory := by
    simp [hlog, memoryOf, constructedOn, hos]
  have hold : ∀ e, e ≠ s.manager.created → memoryOf e t.log = memoryOf e s.log := by
    intro e he
    simp [hlog, memoryOf, constructedOn, Ne.symm he]
  constructor
  · intro e he
    rw [hold e (by omega), hcalls]
    exact h.fresh e (by omega)
  · intro e memory hm
    rw [hcalls, hendpoint]
    by_cases he : e = s.manager.created
    · subst he
      rw [hnew] at hm
      cases Option.some.inj hm
      rw [Function.update_self, (h.fresh _ (le_refl _)).2]
      rfl
    · rw [hold e he] at hm
      rw [Function.update_of_ne he]
      exact h.after e memory hm

theorem Counts.counted {s t : Session} (h : Counts s) {call : Call} {e : ℕ}
    (hlt : e < s.manager.created)
    (hlog : t.log = (.useCount call e, .counted) :: s.log)
    (hmanager : t.manager = s.manager.count call e) : Counts t := by
  have hmem : ∀ e', memoryOf e' t.log = memoryOf e' s.log := by
    intro e'
    rw [hlog]
    rfl
  have hother : ∀ e', e' ≠ e → callsOn e' t.log = callsOn e' s.log := by
    intro e' he
    rw [hlog, callsOn, if_neg (Ne.symm he)]
  constructor
  · intro e' he
    have hle : s.manager.created ≤ e' := by
      rw [hmanager] at he
      exact he
    rw [hmem, hother e' (by omega)]
    exact h.fresh e' hle
  · intro e' memory hm
    rw [hmem] at hm
    rw [hmanager, count_endpoint]
    by_cases he : e' = e
    · subst he
      rw [Function.update_self, EndpointImpl.toNat_getUseCount_call, h.after e' memory hm, hlog,
        callsOn, if_pos rfl, after_append]
    · rw [Function.update_of_ne he, hother e' he]
      exact h.after e' memory hm

theorem counts_of_reachable {s : Session} (h : system.Reachable anyStep s) : Counts s := by
  refine h.invariant ?_ fun s a t hs _ hstep ↦ ?_
  · rintro s rfl
    exact ⟨fun _ _ ↦ ⟨rfl, rfl⟩, fun e memory hm ↦ by simp [memoryOf] at hm⟩
  · obtain ⟨reply, heffect, hlog⟩ := step_eq_some hstep
    obtain ⟨manager, log⟩ := t
    simp only at heffect hlog
    cases heffect with
    | stored role key os htarget hos =>
        exact hs.stored hos hlog (setEndpoints_created ..) (setEndpoints_endpoint ..)
    | counted call e ha hlt => exact hs.counted hlt (ha ▸ hlog) rfl
    | erased role key e =>
        exact hs.of_same hlog (setEndpoints_created ..) (setEndpoints_endpoint ..)
          (fun _ ↦ rfl) fun _ ↦ by cases a <;> rfl
    | notCreated | kept | found =>
        exact hs.of_same hlog rfl rfl (fun _ ↦ rfl) fun _ ↦ by cases a <;> rfl

/-- The use count is the number of users, and a registered endpoint can be
removed if and only if it has none. -/
def CountsUsers (s : Session) (e : ℕ) : Prop :=
  (s.manager.endpoint e).getUseCount.toNat =
      increments (callsOn e s.log) - decrements (callsOn e s.log) ∧
    ∀ role key, s.manager.find role key = some e →
      ((s.manager.remove role key).2 = true ↔
        increments (callsOn e s.log) = decrements (callsOn e s.log))

theorem countsUsers_iff {s : Session} {e : ℕ} (hb : Balanced (callsOn e s.log)) :
    CountsUsers s e ↔
      (s.manager.endpoint e).getUseCount.toNat = balance (callsOn e s.log) := by
  constructor
  · exact fun h ↦ h.1
  · intro h
    refine ⟨h, fun role key hfind ↦ ?_⟩
    have hle := hb _ (List.prefix_refl _)
    rw [balance] at h
    rw [remove_snd_iff, hfind]
    constructor
    · rintro ⟨e', he, hzero⟩
      cases Option.some.inj he
      rw [hzero, UInt32.toNat_zero] at h
      omega
    · intro heq
      refine ⟨e, rfl, ?_⟩
      rw [← UInt32.toNat_inj, h, UInt32.toNat_zero]
      omega

/-- The use count counts the users if the memory of the endpoint held 0, or if
there were so many users that the counter wrapped around, and none later. -/
theorem use_count_counts_users {s : Session} (h : system.Reachable anyStep s) {e : ℕ}
    {memory : UInt32} (hm : memoryOf e s.log = some memory)
    (hb : Balanced (callsOn e s.log)) (hlen : (callsOn e s.log).length < 2 ^ 32) :
    CountsUsers s e ↔
      memory = 0 ∨ Recovers (2 ^ 32) memory.toNat (callsOn e s.log) := by
  rw [countsUsers_iff hb, (counts_of_reachable h).after e memory hm,
    after_eq_balance_iff memory.toNat_lt hb hlen, ← UInt32.toNat_inj, UInt32.toNat_zero]

/-- A registered endpoint with one user that has left again can be removed. -/
theorem use_count_counts_users_balanced : ∃ s, system.run anyStep
      [.createServerEndpoint .fine "192.168.0.2" 13400 true, .useCount .increment 0,
        .useCount .decrement 0] ⟨constructed, []⟩ = some s ∧
    (s.manager.remove .server ("192.168.0.2", 13400, true)).2 = true := by
  have hrun : ∃ s, system.run anyStep
      [.createServerEndpoint .fine "192.168.0.2" 13400 true, .useCount .increment 0,
        .useCount .decrement 0] ⟨constructed, []⟩ = some s ∧
      callsOn 0 s.log = [.increment, .decrement] ∧ memoryOf 0 s.log = some 0 ∧
      s.manager.find .server ("192.168.0.2", 13400, true) = some 0 :=
    ⟨_, rfl, rfl, rfl, rfl⟩
  obtain ⟨s, hs, hcalls, hm, hfind⟩ := hrun
  have hcounts := (use_count_counts_users (reachable_of_run rfl hs) hm
    (by rw [hcalls]; decide) (by rw [hcalls]; decide)).mpr (Or.inl rfl)
  refine ⟨s, hs, (hcounts.2 _ _ hfind).mpr ?_⟩
  rw [hcalls]
  decide

/-- An endpoint that nobody has used, on memory that held 1. -/
theorem unused_not_removed : ¬∀ s e, system.Reachable anyStep s → (memoryOf e s.log).isSome →
    Balanced (callsOn e s.log) → (callsOn e s.log).length < 2 ^ 32 → CountsUsers s e := by
  intro h
  have hrun : ∃ s, system.run anyStep
      [.createServerEndpoint { Os.fine with memory := 1 } "192.168.0.2" 13400 true]
        ⟨constructed, []⟩ = some s ∧
      callsOn 0 s.log = [] ∧ (memoryOf 0 s.log).isSome ∧
      (s.manager.endpoint 0).getUseCount.toNat = 1 := ⟨_, rfl, rfl, rfl, rfl⟩
  obtain ⟨s, hs, hcalls, hm, hcount⟩ := hrun
  have hcounts := h s 0 (reachable_of_run rfl hs) hm (by rw [hcalls]; decide)
    (by rw [hcalls]; decide)
  rw [countsUsers_iff (by rw [hcalls]; decide), hcalls, hcount] at hcounts
  exact absurd hcounts (by decide)

end Manager

end DoipEndpoint
