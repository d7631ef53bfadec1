import DoipEndpoint.Manager.Functions
import DoipEndpoint.Runs

/-!
# Runs of the endpoint manager

The functions of the manager are called in any order, and so are
`increment_use_count` and `decrement_use_count` on the endpoints that it handed
out.  A session keeps what was called and what was returned, newest first.
-/

namespace DoipEndpoint

namespace Manager

inductive Action where
  | createServerEndpoint (os : Os) (ip : String) (port : UInt16) (reliable : Bool)
  | createClientEndpoint (os : Os) (ip : String) (port : UInt16) (remoteIp : String)
      (remotePort : UInt16) (reliable : Bool)
  | findServerEndpoint (ip : String) (port : UInt16) (reliable : Bool)
  | findClientEndpoint (ip : String) (port : UInt16) (reliable : Bool)
  | removeServerEndpoint (ip : String) (port : UInt16) (reliable : Bool)
  | removeClientEndpoint (ip : String) (port : UInt16) (reliable : Bool)
  | useCount (call : SaturatingCounter.Call) (e : ℕ)

inductive Reply where
  | created (result : Created)
  | found (endpoint : Option ℕ)
  | removed (erased : Bool)
  | counted
  deriving DecidableEq, Repr

def count (call : SaturatingCounter.Call) (e : ℕ) (s : Manager) : Manager :=
  { s with endpoint := Function.update s.endpoint e ((s.endpoint e).call call) }

def perform (s : Manager) : Action → Option (Manager × Reply)
  | .createServerEndpoint os ip port reliable =>
      let result := s.createServerEndpoint os ip port reliable
      some (result.1, .created result.2)
  | .createClientEndpoint os ip port remoteIp remotePort reliable =>
      let result := s.createClientEndpoint os ip port remoteIp remotePort reliable
      some (result.1, .created result.2)
  | .findServerEndpoint ip port reliable =>
      some (s, .found (s.findServerEndpoint ip port reliable))
  | .findClientEndpoint ip port reliable =>
      some (s, .found (s.findClientEndpoint ip port reliable))
  | .removeServerEndpoint ip port reliable =>
      let result := s.removeServerEndpoint ip port reliable
      some (result.1, .removed result.2)
  | .removeClientEndpoint ip port reliable =>
      let result := s.removeClientEndpoint ip port reliable
      some (result.1, .removed result.2)
  | .useCount call e => if e < s.created then some (s.count call e, .counted) else none

/-- A manager and its calls so far, newest first. -/
structure Session where
  manager : Manager
  log : List (Action × Reply)

def step (s : Session) (a : Action) : Option Session :=
  match s.manager.perform a with
  | none => none
  | some (t, reply) => some ⟨t, (a, reply) :: s.log⟩

def system : TransitionSystem Session Action where
  initial s := s = ⟨constructed, []⟩
  step := step

/-! ## What a call changes -/

namespace Action

/-- The registry and the key that a create or a remove is about. -/
def target : Action → Option (Role × Key)
  | .createServerEndpoint _ ip port reliable => some (.server, (ip, port, reliable))
  | .createClientEndpoint _ ip port _ _ reliable => some (.client, (ip, port, reliable))
  | .removeServerEndpoint ip port reliable => some (.server, (ip, port, reliable))
  | .removeClientEndpoint ip port reliable => some (.client, (ip, port, reliable))
  | _ => none

/-- The answers that a create constructs an endpoint under. -/
def constructing : Action → Option Os
  | .createServerEndpoint os ip _ _ =>
      if os.parses ip ∧ os.constructs then some os else none
  | .createClientEndpoint os ip _ remoteIp _ reliable =>
      if (os.parses ip ∧ os.parses remoteIp) ∧ reliable ∧ os.constructs then some os else none
  | _ => none

end Action

/-- What a call that returns `reply` leaves behind: a create that constructs an
endpoint stores it, a remove that returns `true` erases an unused one, the
calls on an endpoint count, and every other call changes nothing. -/
inductive Effect (s : Manager) (a : Action) : Manager → Reply → Prop
  | stored (role : Role) (key : Key) (os : Os) (htarget : a.target = some (role, key))
      (hos : a.constructing = some os) :
      Effect s a ((s.makeShared os.memory).setEndpoints role
        (NestedMap.assign key s.created (s.endpoints role)))
        (.created ⟨some s.created, !os.starts⟩)
  | notCreated (caught : Bool) (hos : a.constructing = none) :
      Effect s a s (.created ⟨none, caught⟩)
  | erased (role : Role) (key : Key) (e : ℕ) (htarget : a.target = some (role, key))
      (hos : a.constructing = none) (hfind : s.find role key = some e)
      (hzero : (s.endpoint e).getUseCount = 0) :
      Effect s a (s.setEndpoints role (NestedMap.erase key (s.endpoints role))) (.removed true)
  | kept (hos : a.constructing = none) : Effect s a s (.removed false)
  | found (e : Option ℕ) (hos : a.constructing = none) : Effect s a s (.found e)
  | counted (call : SaturatingCounter.Call) (e : ℕ) (ha : a = .useCount call e)
      (hlt : e < s.created) : Effect s a (s.count call e) .counted

theorem effect_construct {s : Manager} {a : Action} {role : Role} {key : Key} {os : Os}
    (htarget : a.target = some (role, key))
    (hos : a.constructing = if os.constructs then some os else none) :
    Effect s a (s.construct role os key).1 (.created (s.construct role os key).2) := by
  unfold construct
  split_ifs at hos ⊢
  · exact .stored role key os htarget hos
  · exact .notCreated true hos

theorem effect_remove {s : Manager} {a : Action} {role : Role} {key : Key}
    (htarget : a.target = some (role, key)) (hos : a.constructing = none) :
    Effect s a (s.remove role key).1 (.removed (s.remove role key).2) := by
  rw [remove_eq]
  cases hfind : s.find role key with
  | none => exact .kept hos
  | some e =>
      by_cases hzero : (s.endpoint e).getUseCount = 0
      · simp only [hzero, ↓reduceIte]
        exact .erased role key e htarget hos hfind hzero
      · simp only [hzero, ↓reduceIte]
        exact .kept hos

theorem effect_of_perform {s t : Manager} {a : Action} {reply : Reply}
    (h : s.perform a = some (t, reply)) : Effect s a t reply := by
  cases a with
  | createServerEndpoint os ip port reliable =>
      simp only [perform, Option.some.injEq, Prod.mk.injEq] at h
      obtain ⟨rfl, rfl⟩ := h
      unfold createServerEndpoint
      split_ifs with hip
      · exact effect_construct rfl (by simp [Action.constructing, hip])
      · exact .notCreated true (by simp [Action.constructing, hip])
  | createClientEndpoint os ip port remoteIp remotePort reliable =>
      simp only [perform, Option.some.injEq, Prod.mk.injEq] at h
      obtain ⟨rfl, rfl⟩ := h
      unfold createClientEndpoint
      split_ifs with hips hreliable
      · exact effect_construct rfl (by simp [Action.constructing, hips, hreliable])
      · exact .notCreated false (by simp [Action.constructing, hreliable])
      · exact .notCreated true (by simp only [Action.constructing, if_neg (mt And.left hips)])
  | findServerEndpoint ip port reliable =>
      cases Option.some.inj h
      exact .found _ rfl
  | findClientEndpoint ip port reliable =>
      cases Option.some.inj h
      exact .found _ rfl
  | removeServerEndpoint ip port reliable =>
      simp only [perform, Option.some.injEq, Prod.mk.injEq] at h
      obtain ⟨rfl, rfl⟩ := h
      exact effect_remove rfl rfl
  | removeClientEndpoint ip port reliable =>
      simp only [perform, Option.some.injEq, Prod.mk.injEq] at h
      obtain ⟨rfl, rfl⟩ := h
      exact effect_remove rfl rfl
  | useCount call e =>
      simp only [perform] at h
      split_ifs at h with hlt
      cases Option.some.inj h
      exact .counted call e rfl hlt

theorem step_eq_some {s t : Session} {a : Action} (h : system.step s a = some t) :
    ∃ reply, Effect s.manager a t.manager reply ∧ t.log = (a, reply) :: s.log := by
  change step s a = some t at h
  unfold step at h
  cases hperform : s.manager.perform a with
  | none => simp [hperform] at h
  | some result =>
      simp only [hperform, Option.some.injEq] at h
      subst h
      exact ⟨result.2, effect_of_perform hperform, rfl⟩

/-! ## What is found afterwards -/

section Find

variable (s : Manager) (role role' : Role) (key key' : Key)

theorem find_stored (memory : UInt32) :
    ((s.makeShared memory).setEndpoints role
      (NestedMap.assign key s.created (s.endpoints role))).find role' key' =
        if (role, key) = (role', key') then some s.created else s.find role' key' := by
  unfold find
  rw [endpoints_setEndpoints, endpoints_makeShared]
  by_cases hrole : role = role'
  · subst hrole
    rw [if_pos rfl, NestedMap.find_assign]
    simp
  · rw [if_neg hrole, if_neg (by simp [hrole])]

theorem find_erased :
    (s.setEndpoints role (NestedMap.erase key (s.endpoints role))).find role' key' =
      if (role, key) = (role', key') then none else s.find role' key' := by
  unfold find
  rw [endpoints_setEndpoints]
  by_cases hrole : role = role'
  · subst hrole
    rw [if_pos rfl, NestedMap.find_erase]
    simp
  · rw [if_neg hrole, if_neg (by simp [hrole])]

end Find

@[simp] theorem count_endpoint (call : SaturatingCounter.Call) (e : ℕ) (s : Manager) :
    (s.count call e).endpoint =
      Function.update s.endpoint e ((s.endpoint e).call call) := rfl

@[simp] theorem endpoints_count (role : Role) (call : SaturatingCounter.Call) (e : ℕ)
    (s : Manager) : (s.count call e).endpoints role = s.endpoints role := by
  cases role <;> rfl

@[simp] theorem find_count (role : Role) (key : Key) (call : SaturatingCounter.Call) (e : ℕ)
    (s : Manager) : (s.count call e).find role key = s.find role key := by
  rw [find, endpoints_count, find]

end Manager

end DoipEndpoint
