import DoipEndpoint.Manager.Run

/-!
# The registries are finite maps

What was called and returned determines two finite maps from keys to
endpoints.  As long as every `start` returns, the nested maps of the manager
store exactly these.
-/

namespace DoipEndpoint

namespace Manager

open TransitionSystem NestedMap

/-- No `start` of a constructed endpoint throws. -/
def startReturns (_ : Session) (a : Action) : Prop :=
  (a.constructing.all fun os ↦ os.starts) = true

instance (s : Session) (a : Action) : Decidable (startReturns s a) :=
  inferInstanceAs (Decidable (_ = true))

/-- The key that a successful call wrote, and its endpoint from then on. -/
def change : Action × Reply → Option ((Role × Key) × Option ℕ)
  | (a, .created ⟨some e, false⟩) => a.target.map fun target ↦ (target, some e)
  | (a, .removed true) => a.target.map fun target ↦ (target, none)
  | _ => none

def write (key : Key) : Option ℕ → (Finmap fun _ : Key ↦ ℕ) → Finmap fun _ : Key ↦ ℕ
  | some e, m => m.insert key e
  | none, m => m.erase key

/-- The finite map that the calls leave for a registry. -/
def flat (role : Role) : List (Action × Reply) → Finmap fun _ : Key ↦ ℕ
  | [] => ∅
  | entry :: log =>
      match change entry with
      | none => flat role log
      | some ((role', key), e) =>
          if role' = role then write key e (flat role log) else flat role log

/-- What a call did to one key, if anything. -/
def outcome (role : Role) (key : Key) (entry : Action × Reply) : Option (Option ℕ) :=
  match change entry with
  | none => none
  | some (target, e) => if target = (role, key) then some e else none

/-- The endpoint of the last successful create for a key, unless a successful
remove of that key followed. -/
def lastCreated (role : Role) (key : Key) (log : List (Action × Reply)) : Option ℕ :=
  (log.findSome? (outcome role key)).join

variable {role : Role} {key : Key} {log : List (Action × Reply)}

theorem lastCreated_cons (entry : Action × Reply) : lastCreated role key (entry :: log) =
    (outcome role key entry).getD (lastCreated role key log) := by
  unfold lastCreated
  rw [List.findSome?_cons]
  cases outcome role key entry <;> rfl

theorem lookup_write (key key' : Key) (e : Option ℕ) (m : Finmap fun _ : Key ↦ ℕ) :
    (write key e m).lookup key' = if key = key' then e else m.lookup key' := by
  by_cases hkey : key = key'
  · subst hkey
    rw [if_pos rfl]
    cases e with
    | none => exact Finmap.lookup_erase key m
    | some e => exact Finmap.lookup_insert m
  · rw [if_neg hkey]
    cases e with
    | none => exact Finmap.lookup_erase_ne (Ne.symm hkey)
    | some e => exact Finmap.lookup_insert_of_ne m (Ne.symm hkey)

theorem lookup_flat (role : Role) (key : Key) (log : List (Action × Reply)) :
    (flat role log).lookup key = lastCreated role key log := by
  induction log with
  | nil => exact Finmap.lookup_empty key
  | cons entry log ih =>
      rw [lastCreated_cons, flat, outcome]
      cases change entry with
      | none => exact ih
      | some written =>
          obtain ⟨⟨role', key'⟩, e⟩ := written
          by_cases hrole : role' = role
          · by_cases hkey : key' = key
            · simp [hrole, hkey, lookup_write]
            · simp [hrole, hkey, lookup_write, ih]
          · simp [hrole, ih]

/-- Both registries store what the calls left. -/
def Stores (s : Session) : Prop :=
  ∀ role, Represents (s.manager.endpoints role) (flat role s.log)

theorem stores_initial : Stores ⟨constructed, []⟩ := by
  intro role
  cases role <;> exact represents_empty

theorem Stores.of_change_eq_none {s t : Session} (h : Stores s) {entry : Action × Reply}
    (hmaps : ∀ role, t.manager.endpoints role = s.manager.endpoints role)
    (hlog : t.log = entry :: s.log) (hchange : change entry = none) : Stores t := by
  intro role
  rw [hmaps, hlog, flat, hchange]
  exact h role

theorem Stores.step {s t : Session} {a : Action} (h : Stores s)
    (hguard : startReturns s a) (hstep : system.step s a = some t) : Stores t := by
  obtain ⟨reply, heffect, hlog⟩ := step_eq_some hstep
  obtain ⟨manager, log⟩ := t
  simp only at heffect hlog
  cases heffect with
  | stored role' key os htarget hos =>
      intro role
      have hstarts : os.starts = true := by simpa [startReturns, hos] using hguard
      have hchange : change (a, .created ⟨some s.manager.created, !os.starts⟩) =
          some ((role', key), some s.manager.created) := by
        simp [change, hstarts, htarget]
      rw [hlog, flat, hchange, endpoints_setEndpoints, endpoints_makeShared]
      by_cases hrole : role' = role
      · subst hrole
        simp only [↓reduceIte]
        exact (h role').assign key s.manager.created
      · simp only [if_neg hrole]
        exact h role
  | erased role' key e htarget hos hfind hzero =>
      intro role
      have hchange : change (a, .removed true) = some ((role', key), none) := by
        simp [change, htarget]
      rw [hlog, flat, hchange, endpoints_setEndpoints]
      by_cases hrole : role' = role
      · subst hrole
        simp only [↓reduceIte]
        exact (h role').erase key
      · simp only [if_neg hrole]
        exact h role
  | counted call e ha hlt =>
      exact h.of_change_eq_none (fun role ↦ endpoints_count role call e _) hlog rfl
  | notCreated | kept | found => exact h.of_change_eq_none (fun _ ↦ rfl) hlog rfl

theorem stores_of_reachable {s : Session} (h : system.Reachable startReturns s) : Stores s := by
  refine h.invariant ?_ fun s a t hs hguard hstep ↦ hs.step hguard hstep
  rintro s rfl
  exact stores_initial

theorem Stores.find {s : Session} (h : Stores s) (role : Role) (key : Key) :
    s.manager.find role key = lastCreated role key s.log := by
  rw [Manager.find, (h role).find, lookup_flat]

theorem Stores.remove {s : Session} (h : Stores s) (role : Role) (key : Key) :
    (s.manager.remove role key).2 = true ↔ ∃ e, lastCreated role key s.log = some e ∧
      (s.manager.endpoint e).getUseCount = 0 := by
  rw [remove_snd_iff, h.find]

/-- As long as every `start` returns, the nested maps are two finite maps: each
key has the endpoint of the last successful create that no successful remove
followed, a remove succeeds on the keys whose endpoint is not in use, and a call
changes at most the key that it is about. -/
theorem registry_is_flat {s : Session} (h : system.Reachable startReturns s) :
    (∀ role, Represents (s.manager.endpoints role) (flat role s.log)) ∧
    (∀ ip port reliable,
      s.manager.findServerEndpoint ip port reliable =
        lastCreated .server (ip, port, reliable) s.log ∧
      s.manager.findClientEndpoint ip port reliable =
        lastCreated .client (ip, port, reliable) s.log ∧
      ((s.manager.removeServerEndpoint ip port reliable).2 = true ↔
        ∃ e, lastCreated .server (ip, port, reliable) s.log = some e ∧
          (s.manager.endpoint e).getUseCount = 0) ∧
      ((s.manager.removeClientEndpoint ip port reliable).2 = true ↔
        ∃ e, lastCreated .client (ip, port, reliable) s.log = some e ∧
          (s.manager.endpoint e).getUseCount = 0)) ∧
    ∀ a t, startReturns s a → system.step s a = some t →
      ∃ reply, t.log = (a, reply) :: s.log ∧ ∀ role key,
        t.manager.find role key =
          (outcome role key (a, reply)).getD (s.manager.find role key) := by
  have hs := stores_of_reachable h
  refine ⟨hs, fun ip port reliable ↦ ⟨?_, ?_, ?_, ?_⟩, fun a t hguard hstep ↦ ?_⟩
  · exact hs.find .server (ip, port, reliable)
  · exact hs.find .client (ip, port, reliable)
  · exact hs.remove .server (ip, port, reliable)
  · exact hs.remove .client (ip, port, reliable)
  · obtain ⟨reply, _, hlog⟩ := step_eq_some hstep
    have ht : Stores t := hs.step hguard hstep
    refine ⟨reply, hlog, fun role key ↦ ?_⟩
    rw [ht.find, hs.find, hlog, lastCreated_cons]

/-- Every call succeeds. -/
def Os.fine : Os := ⟨fun _ ↦ true, true, 0, true⟩

/-- Of three endpoints the first shares its port with the second, which is in use, and
the third is alone under its address, when all of them are to be removed. -/
def removals : List Action :=
  [.createServerEndpoint .fine "192.168.0.2" 13400 true,
    .createServerEndpoint .fine "192.168.0.2" 13400 false,
    .createServerEndpoint .fine "192.168.0.3" 13400 true,
    .useCount .increment 1,
    .removeServerEndpoint "192.168.0.2" 13400 true,
    .removeServerEndpoint "192.168.0.2" 13400 false,
    .removeServerEndpoint "192.168.0.3" 13400 true]

theorem registry_is_flat_removed : ∃ s,
    system.run startReturns removals ⟨constructed, []⟩ = some s ∧
    s.manager.serverEndpoints.keys = ["192.168.0.2"] ∧
    Represents (s.manager.endpoints .server) (flat .server s.log) ∧
    s.manager.findServerEndpoint "192.168.0.2" 13400 true = none ∧
    s.manager.findServerEndpoint "192.168.0.2" 13400 false = some 1 ∧
    (s.manager.removeServerEndpoint "192.168.0.2" 13400 false).2 = false ∧
    s.manager.findServerEndpoint "192.168.0.3" 13400 true = none := by
  have hrun : ∃ s, system.run startReturns removals ⟨constructed, []⟩ = some s ∧
      s.manager.serverEndpoints.keys = ["192.168.0.2"] ∧
      lastCreated .server ("192.168.0.2", 13400, true) s.log = none ∧
      lastCreated .server ("192.168.0.2", 13400, false) s.log = some 1 ∧
      lastCreated .server ("192.168.0.3", 13400, true) s.log = none ∧
      (s.manager.endpoint 1).getUseCount = 1 :=
    ⟨_, rfl, by decide +kernel, by decide +kernel, by decide +kernel, by decide +kernel, rfl⟩
  obtain ⟨s, hs, hkeys, hfirst, hsecond, hthird, hused⟩ := hrun
  obtain ⟨hstored, hfind, _⟩ := registry_is_flat (reachable_of_run rfl hs)
  obtain ⟨hfindFirst, _, _, _⟩ := hfind "192.168.0.2" 13400 true
  obtain ⟨hfindSecond, _, hremoveSecond, _⟩ := hfind "192.168.0.2" 13400 false
  obtain ⟨hfindThird, _, _, _⟩ := hfind "192.168.0.3" 13400 true
  refine ⟨s, hs, hkeys, hstored .server, hfindFirst.trans hfirst, hfindSecond.trans hsecond, ?_,
    hfindThird.trans hthird⟩
  rw [← Bool.not_eq_true, hremoveSecond]
  rintro ⟨e, he, hzero⟩
  obtain rfl : 1 = e := Option.some.inj (hsecond.symm.trans he)
  exact absurd (hused.symm.trans hzero) (by decide)

end Manager

end DoipEndpoint
