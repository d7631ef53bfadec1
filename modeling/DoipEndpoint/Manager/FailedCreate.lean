import DoipEndpoint.Manager.Registry

/-!
# Creates that fail

An exception of `address::from_string` or of the endpoint's constructor comes
before anything is written.  An exception of `start` comes when the new
endpoint is already registered, in place of an earlier one if there was one,
and the pointer to it is returned all the same.
-/

namespace DoipEndpoint

namespace Manager

/-- A create that caught an exception returned null and left both registries
as they were. -/
def FailsClean (s : Manager) (result : Manager × Created) : Prop :=
  result.2.caught = true → result.2.endpoint = none ∧
    result.1.serverEndpoints = s.serverEndpoints ∧ result.1.clientEndpoints = s.clientEndpoints

/-- The create gets as far as `start`, which throws. -/
def startThrows (a : Action) : Prop := (a.constructing.any fun os ↦ !os.starts) = true

theorem FailsClean.of_unchanged (s : Manager) (caught : Bool) :
    FailsClean s (s, ⟨none, caught⟩) := fun _ ↦ ⟨rfl, rfl, rfl⟩

theorem failsClean_construct_iff (s : Manager) (role : Role) (os : Os) (key : Key) :
    FailsClean s (s.construct role os key) ↔ ¬(os.constructs = true ∧ os.starts = false) := by
  unfold construct
  by_cases hos : os.constructs = true
  · rw [if_pos hos]
    cases hstarts : os.starts with
    | true => simp [FailsClean]
    | false => simp [FailsClean, hos]
  · rw [if_neg hos]
    exact iff_of_true (.of_unchanged s true) (by simp [hos])

theorem failsClean_server_iff (s : Manager) (os : Os) (ip : String) (port : UInt16)
    (reliable : Bool) : FailsClean s (s.createServerEndpoint os ip port reliable) ↔
      ¬startThrows (.createServerEndpoint os ip port reliable) := by
  simp only [createServerEndpoint, startThrows, Action.constructing]
  by_cases hip : os.parses ip = true
  · rw [if_pos hip, failsClean_construct_iff]
    by_cases hos : os.constructs = true
    · simp [hip, hos]
    · simp [hos]
  · rw [if_neg hip]
    exact iff_of_true (.of_unchanged s true) (by simp [hip])

theorem failsClean_client_iff (s : Manager) (os : Os) (ip : String) (port : UInt16)
    (remoteIp : String) (remotePort : UInt16) (reliable : Bool) :
    FailsClean s (s.createClientEndpoint os ip port remoteIp remotePort reliable) ↔
      ¬startThrows (.createClientEndpoint os ip port remoteIp remotePort reliable) := by
  simp only [createClientEndpoint, startThrows, Action.constructing]
  by_cases hips : os.parses ip = true ∧ os.parses remoteIp = true
  · rw [if_pos hips]
    by_cases hreliable : reliable = true
    · rw [if_pos hreliable, failsClean_construct_iff]
      by_cases hos : os.constructs = true
      · simp [hips, hreliable, hos]
      · simp [hos]
    · rw [if_neg hreliable]
      exact iff_of_true (.of_unchanged s false) (by simp [hreliable])
  · rw [if_neg hips]
    refine iff_of_true (.of_unchanged s true) ?_
    rw [if_neg (mt And.left hips)]
    simp

/-- A failed create changes nothing, unless it is `start` that throws. -/
theorem failed_create_changes_nothing (s : Manager) (os : Os) (ip : String) (port : UInt16)
    (remoteIp : String) (remotePort : UInt16) (reliable : Bool) :
    (FailsClean s (s.createServerEndpoint os ip port reliable) ↔
      ¬startThrows (.createServerEndpoint os ip port reliable)) ∧
    (FailsClean s (s.createClientEndpoint os ip port remoteIp remotePort reliable) ↔
      ¬startThrows (.createClientEndpoint os ip port remoteIp remotePort reliable)) :=
  ⟨failsClean_server_iff s os ip port reliable,
    failsClean_client_iff s os ip port remoteIp remotePort reliable⟩

/-- The endpoint whose `start` threw is returned, and found afterwards. -/
theorem failed_start_registers :
    ¬∀ (s : Manager) (os : Os) (ip : String) (port : UInt16) (reliable : Bool),
      FailsClean s (s.createServerEndpoint os ip port reliable) := by
  intro h
  have hclean := h constructed { Os.fine with starts := false } "192.168.0.2" 13400 true rfl
  exact absurd hclean.1 (by decide)

end Manager

end DoipEndpoint
