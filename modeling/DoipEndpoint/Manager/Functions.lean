import DoipEndpoint.NestedMap
import DoipEndpoint.UseCount
import Mathlib.Logic.Function.Basic

/-!
# The endpoint manager

`endpoint_manager_impl`: two registries of endpoints and the functions on them.
The endpoint objects are numbered in the order in which `make_shared`
constructed them, and a shared pointer is the number of its object.  The two
`find` functions differ in the registry only, and so do the two `remove`
functions.
-/

namespace DoipEndpoint

namespace Manager

/-- `_ip`, `_port` and `_reliable`. -/
abbrev Key := String × UInt16 × Bool

/-- `endpoints_t`. -/
abbrev Endpoints := Std.TreeMap String (Std.TreeMap UInt16 (Std.TreeMap Bool ℕ))

/-- Which of the two registries. -/
inductive Role where
  | server
  | client
  deriving DecidableEq, Repr

/-- How the calls end that the `try` block of a create makes: `parses` tells
the strings that `address::from_string` accepts, `constructs` whether the
endpoint's constructor returns, `memory` what its `use_count_` is constructed
on, and `starts` whether `start` returns.  Otherwise the call throws. -/
structure Os where
  parses : String → Bool
  constructs : Bool
  memory : UInt32
  starts : Bool

/-- The returned pointer, and whether the `catch` block was run. -/
structure Created where
  endpoint : Option ℕ
  caught : Bool
  deriving DecidableEq, Repr

end Manager

/-- `endpoint_manager_impl` with the endpoint objects that it constructed. -/
structure Manager where
  serverEndpoints : Manager.Endpoints
  clientEndpoints : Manager.Endpoints
  endpoint : ℕ → EndpointImpl
  created : ℕ

namespace Manager

def constructed : Manager where
  serverEndpoints := ∅
  clientEndpoints := ∅
  endpoint _ := .constructed 0
  created := 0

def endpoints : Role → Manager → Endpoints
  | .server, s => s.serverEndpoints
  | .client, s => s.clientEndpoints

def setEndpoints : Role → Endpoints → Manager → Manager
  | .server, m, s => { s with serverEndpoints := m }
  | .client, m, s => { s with clientEndpoints := m }

def makeShared (memory : UInt32) (s : Manager) : Manager :=
  { s with
    endpoint := Function.update s.endpoint s.created (.constructed memory)
    created := s.created + 1 }

/-! ## Creating -/

/-- The rest of the `try` block once the addresses are parsed: the entry is
written before `start` is called. -/
def construct (role : Role) (os : Os) (key : Key) (s : Manager) : Manager × Created :=
  if os.constructs then
    ((s.makeShared os.memory).setEndpoints role
        (NestedMap.assign key s.created (s.endpoints role)),
      ⟨some s.created, !os.starts⟩)
  else (s, ⟨none, true⟩)

/-- The endpoint is a TCP or a UDP one, as `reliable` says. -/
def createServerEndpoint (os : Os) (ip : String) (port : UInt16) (reliable : Bool)
    (s : Manager) : Manager × Created :=
  if os.parses ip then s.construct .server os (ip, port, reliable)
  else (s, ⟨none, true⟩)

/-- The UDP client endpoint is compiled out.  Only the constructor reads
`_remote_port`. -/
def createClientEndpoint (os : Os) (ip : String) (port : UInt16) (remoteIp : String)
    (_remotePort : UInt16) (reliable : Bool) (s : Manager) : Manager × Created :=
  if os.parses ip ∧ os.parses remoteIp then
    if reliable then s.construct .client os (ip, port, reliable)
    else (s, ⟨none, false⟩)
  else (s, ⟨none, true⟩)

/-! ## Finding -/

def find (role : Role) (key : Key) (s : Manager) : Option ℕ :=
  NestedMap.find (s.endpoints role) key

def findServerEndpoint (ip : String) (port : UInt16) (reliable : Bool) (s : Manager) :
    Option ℕ := s.find .server (ip, port, reliable)

def findClientEndpoint (ip : String) (port : UInt16) (reliable : Bool) (s : Manager) :
    Option ℕ := s.find .client (ip, port, reliable)

/-! ## Removing -/

def remove (role : Role) (key : Key) (s : Manager) : Manager × Bool :=
  match (s.endpoints role)[key.1]? with
  | none => (s, false)
  | some ports =>
      match ports[key.2.1]? with
      | none => (s, false)
      | some reliables =>
          match reliables[key.2.2]? with
          | none => (s, false)
          | some e =>
              if (s.endpoint e).getUseCount = 0 then
                let reliables := reliables.erase key.2.2
                let ports := if reliables.isEmpty then ports.erase key.2.1
                  else ports.insert key.2.1 reliables
                (s.setEndpoints role (if ports.isEmpty then (s.endpoints role).erase key.1
                  else (s.endpoints role).insert key.1 ports), true)
              else (s, false)

def removeServerEndpoint (ip : String) (port : UInt16) (reliable : Bool) (s : Manager) :
    Manager × Bool := s.remove .server (ip, port, reliable)

def removeClientEndpoint (ip : String) (port : UInt16) (reliable : Bool) (s : Manager) :
    Manager × Bool := s.remove .client (ip, port, reliable)

/-! ## What the functions change -/

@[simp] theorem endpoints_setEndpoints (role role' : Role) (m : Endpoints) (s : Manager) :
    (s.setEndpoints role m).endpoints role' = if role = role' then m else s.endpoints role' := by
  cases role <;> cases role' <;> rfl

@[simp] theorem setEndpoints_endpoint (role : Role) (m : Endpoints) (s : Manager) :
    (s.setEndpoints role m).endpoint = s.endpoint := by
  cases role <;> rfl

@[simp] theorem setEndpoints_created (role : Role) (m : Endpoints) (s : Manager) :
    (s.setEndpoints role m).created = s.created := by
  cases role <;> rfl

@[simp] theorem endpoints_makeShared (role : Role) (memory : UInt32) (s : Manager) :
    (s.makeShared memory).endpoints role = s.endpoints role := by
  cases role <;> rfl

/-- `remove` erases an entry whose endpoint is not in use, or does nothing. -/
theorem remove_eq (role : Role) (key : Key) (s : Manager) : s.remove role key =
    match s.find role key with
    | none => (s, false)
    | some e =>
        if (s.endpoint e).getUseCount = 0 then
          (s.setEndpoints role (NestedMap.erase key (s.endpoints role)), true)
        else (s, false) := by
  unfold remove find NestedMap.find
  cases hip : (s.endpoints role)[key.1]? with
  | none => rfl
  | some ports =>
      cases hport : ports[key.2.1]? with
      | none => simp only [hport]
      | some reliables =>
          cases he : reliables[key.2.2]? with
          | none => simp only [hport, he]
          | some e =>
              simp only [hport, he, NestedMap.erase, NestedMap.placeLeaf, NestedMap.place,
                NestedMap.inner_of_some hip, NestedMap.inner_of_some hport]

theorem remove_snd_iff (role : Role) (key : Key) (s : Manager) :
    (s.remove role key).2 = true ↔
      ∃ e, s.find role key = some e ∧ (s.endpoint e).getUseCount = 0 := by
  rw [remove_eq]
  cases s.find role key with
  | none => simp
  | some e =>
      by_cases hzero : (s.endpoint e).getUseCount = 0
      · simp [hzero]
      · simp [hzero]

end Manager

end DoipEndpoint
