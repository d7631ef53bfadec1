import DoipEndpoint.Manager.Registry

/-!
# Endpoints in use

The remove functions look at the use count before they erase an entry.  The
create functions overwrite the entry of their key without looking, and the key
of a client endpoint does not contain its remote.  So an endpoint in use stays
registered exactly as long as no create finds one under its key.
-/

namespace DoipEndpoint

namespace Manager

open TransitionSystem

/-- The endpoint is in use. -/
def inUse (s : Manager) (e : ℕ) : Prop := (s.endpoint e).getUseCount ≠ 0

instance (s : Manager) (e : ℕ) : Decidable (s.inUse e) := inferInstanceAs (Decidable (_ ≠ _))

/-- What was registered and in use is still found under its key. -/
def KeepsInUse (s t : Manager) : Prop :=
  ∀ role key e, s.find role key = some e → s.inUse e → t.find role key = some e

/-- A create that constructs an endpoint finds none in use under its key. -/
def replacesUnused (s : Session) (a : Action) : Prop :=
  ∀ role key, a.constructing.isSome → a.target = some (role, key) →
    ∀ e, s.manager.find role key = some e → ¬s.manager.inUse e

/-- Every endpoint found was constructed before. -/
def Known (s : Manager) : Prop := ∀ role key e, s.find role key = some e → e < s.created

theorem Known.of_effect {s t : Manager} {a : Action} {reply : Reply} (h : Known s)
    (heffect : Effect s a t reply) : Known t := by
  cases heffect with
  | stored role key os htarget hos =>
      intro role' key' e hfind
      rw [find_stored] at hfind
      rw [setEndpoints_created]
      change e < s.created + 1
      split_ifs at hfind
      · have he : s.created = e := Option.some.inj hfind
        omega
      · have he := h role' key' e hfind
        omega
  | erased role key e htarget hos hfind hzero =>
      intro role' key' e' hfind'
      rw [find_erased] at hfind'
      rw [setEndpoints_created]
      split_ifs at hfind'
      exact h role' key' e' hfind'
  | counted call e ha hlt =>
      intro role key e' hfind
      rw [find_count] at hfind
      exact h role key e' hfind
  | notCreated | kept | found => exact h

theorem known_of_reachable {allowed : Session → Action → Prop} {s : Session}
    (h : system.Reachable allowed s) : Known s.manager := by
  refine h.invariant (I := fun s ↦ Known s.manager) ?_ ?_
  · rintro s rfl role key e hfind
    have hnone : constructed.find role key = none := by cases role <;> rfl
    rw [hnone] at hfind
    exact absurd hfind (by simp)
  · intro s a t hs _ hstep
    obtain ⟨reply, heffect, _⟩ := step_eq_some hstep
    exact hs.of_effect heffect

/-- The new endpoint of a create is none of the old ones. -/
theorem keepsInUse_stored_iff {s : Manager} (h : Known s) (role : Role) (key : Key)
    (memory : UInt32) :
    KeepsInUse s ((s.makeShared memory).setEndpoints role
      (NestedMap.assign key s.created (s.endpoints role))) ↔
        ∀ e, s.find role key = some e → ¬s.inUse e := by
  constructor
  · intro hkeeps e hfind hused
    have hafter := hkeeps role key e hfind hused
    rw [find_stored, if_pos rfl] at hafter
    have hlt := h role key e hfind
    have heq : s.created = e := Option.some.inj hafter
    omega
  · intro hfree role' key' e hfind hused
    rw [find_stored, if_neg]
    · exact hfind
    · intro heq
      obtain ⟨rfl, rfl⟩ := Prod.mk.inj heq
      exact hfree e hfind hused

theorem keepsInUse_iff {s t : Session} {a : Action} (h : Known s.manager)
    (hstep : system.step s a = some t) :
    KeepsInUse s.manager t.manager ↔ replacesUnused s a := by
  obtain ⟨reply, heffect, _⟩ := step_eq_some hstep
  obtain ⟨manager, log⟩ := t
  simp only at heffect ⊢
  have hallowed : a.constructing = none → replacesUnused s a := by
    intro hos role key hsome
    simp [hos] at hsome
  cases heffect with
  | stored role key os htarget hos =>
      rw [keepsInUse_stored_iff h]
      constructor
      · intro hfree role' key' _ htarget'
        rw [htarget] at htarget'
        obtain ⟨rfl, rfl⟩ := Prod.mk.inj (Option.some.inj htarget')
        exact hfree
      · intro hguard
        exact hguard role key (by simp [hos]) htarget
  | erased role key e htarget hos hfind hzero =>
      refine iff_of_true ?_ (hallowed hos)
      intro role' key' e' hfind' hused
      rw [find_erased, if_neg]
      · exact hfind'
      · intro heq
        obtain ⟨rfl, rfl⟩ := Prod.mk.inj heq
        rw [hfind] at hfind'
        cases Option.some.inj hfind'
        exact hused hzero
  | counted call e ha hlt =>
      refine iff_of_true ?_ (hallowed (by rw [ha]; rfl))
      intro role key e' hfind _
      rwa [find_count]
  | notCreated caught hos => exact iff_of_true (fun _ _ _ hfind _ ↦ hfind) (hallowed hos)
  | kept hos => exact iff_of_true (fun _ _ _ hfind _ ↦ hfind) (hallowed hos)
  | found e hos => exact iff_of_true (fun _ _ _ hfind _ ↦ hfind) (hallowed hos)

/-- A call takes an endpoint in use out of its registry if and only if it
constructs another one for its key; so in every run whose creates find no
endpoint in use under their key, an endpoint stays registered while it is in
use. -/
theorem in_use_registered {s : Session} (h : system.Reachable anyStep s) :
    (∀ a t, system.step s a = some t →
      (KeepsInUse s.manager t.manager ↔ replacesUnused s a)) ∧
    ∀ t role key e, s.manager.find role key = some e →
      system.Leads (fun s a ↦ replacesUnused s a ∧ s.manager.inUse e) s t →
      t.manager.find role key = some e := by
  have hknown := known_of_reachable h
  constructor
  · intro a t hstep
    exact keepsInUse_iff hknown hstep
  · intro t role key e hfind hrun
    have hboth : Known t.manager ∧ t.manager.find role key = some e := by
      refine hrun.invariant (I := fun s ↦ Known s.manager ∧ s.manager.find role key = some e) ?_
        ⟨hknown, hfind⟩
      intro s a t hsa hguard hstep
      obtain ⟨hk, hfound⟩ := hsa
      obtain ⟨reply, heffect, _⟩ := step_eq_some hstep
      have hkeeps := (keepsInUse_iff hk hstep).mpr hguard.1
      exact ⟨hk.of_effect heffect, hkeeps role key e hfound hguard.2⟩
    exact hboth.2

/-- A client endpoint that is used once. -/
def oneUser : List Action :=
  [.createClientEndpoint .fine "192.168.0.1" 0 "192.168.0.2" 13400 true, .useCount .increment 0]

theorem oneUser_run : ∃ s, system.run anyStep oneUser ⟨constructed, []⟩ = some s ∧
    s.manager.find .client ("192.168.0.1", 0, true) = some 0 ∧ s.manager.inUse 0 ∧
    ∃ t, system.step s (.createClientEndpoint .fine "192.168.0.1" 0 "192.168.0.3" 13400 true) =
        some t ∧ t.manager.find .client ("192.168.0.1", 0, true) = some 1 :=
  ⟨_, rfl, rfl, by decide, _, rfl, rfl⟩

/-- It is still registered when it has been looked up. -/
theorem in_use_registered_found : ∃ s t,
    system.run anyStep oneUser ⟨constructed, []⟩ = some s ∧
    system.step s (.findClientEndpoint "192.168.0.1" 0 true) = some t ∧
    t.manager.find .client ("192.168.0.1", 0, true) = some 0 := by
  obtain ⟨s, hs, hfind, hused, _⟩ := oneUser_run
  have hguard : replacesUnused s (.findClientEndpoint "192.168.0.1" 0 true) := by
    intro role key hsome
    simp [Action.constructing] at hsome
  exact ⟨s, _, hs, rfl, (in_use_registered (reachable_of_run rfl hs)).2 _ .client _ 0 hfind
    ((Leads.refl s).snoc ⟨hguard, hused⟩ rfl)⟩

/-- A second client endpoint with the same local address and another remote
drops the first one, which is in use. -/
theorem create_drops : ¬∀ s a t, system.Reachable anyStep s → system.step s a = some t →
    KeepsInUse s.manager t.manager := by
  intro h
  obtain ⟨s, hs, hfind, hused, t, hstep, hafter⟩ := oneUser_run
  have hkeeps := h s _ t (reachable_of_run rfl hs) hstep .client _ 0 hfind hused
  rw [hafter] at hkeeps
  exact absurd hkeeps (by decide)

end Manager

end DoipEndpoint
