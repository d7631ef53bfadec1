import DoipEndpoint.Manager.Run
import DoipEndpoint.Server.AcceptLoop

/-!
# The ports of removed servers

The manager with the TCP servers that it constructed, on a system in which only one
open acceptor is bound to an address and a port.  A pending accept holds a pointer to
its endpoint, so an endpoint that was removed from the registry stays alive, and its
port stays in use, until `stop` is called on it.
-/

namespace DoipEndpoint

/-- The manager and, for the number of each TCP server endpoint, the key it was created
with, the local endpoint its acceptor was bound to, and its members.  The last two record
which endpoints were destroyed and on which `stop` was called. -/
structure Host where
  manager : Manager
  tcpServer : ℕ → Option (Manager.Key × Endpoint)
  server : ℕ → Server
  destroyed : List ℕ
  stopped : List ℕ

namespace Host

open TransitionSystem

def constructed : Host where
  manager := .constructed
  tcpServer _ := none
  server _ := .constructed
  destroyed := []
  stopped := []

/-- An open acceptor is bound to `local'`. -/
def inUse (local' : Endpoint) (s : Host) : Bool :=
  (List.range s.manager.created).any fun e ↦
    (s.tcpServer e).any (fun entry ↦ entry.2 = local') && (s.server e).acceptorOpen

/-- What the system answers when a server endpoint is constructed: `constructs` tells
whether nothing fails but possibly `bind`, and `ephemeralPort` is what `bind` picks when
it is asked for port 0. -/
structure Os where
  constructs : Bool
  memory : UInt32
  starts : Bool
  ephemeralPort : UInt16
  deriving DecidableEq, Repr

section Step

variable (parse : String → Option Address)

/-- The endpoint that `bind` is given, or that it makes of it. -/
def bound (os : Os) (ip : String) (port : UInt16) : Option Endpoint :=
  (parse ip).map fun address ↦ ⟨address, if port = 0 then os.ephemeralPort else port⟩

/-- The constructor of a TCP server throws unless its acceptor was bound. -/
def constructs (os : Os) (ip : String) (port : UInt16) (reliable : Bool) (s : Host) : Bool :=
  os.constructs && !(reliable && (bound parse os ip port).any fun local' ↦ s.inUse local')

def managerOs (os : Os) (ip : String) (port : UInt16) (reliable : Bool) (s : Host) :
    Manager.Os :=
  ⟨fun ip ↦ (parse ip).isSome, constructs parse os ip port reliable s, os.memory, os.starts⟩

/-- `create_server_endpoint`, which calls `start` of the new endpoint. -/
def createServerEndpoint (os : Os) (ip : String) (port : UInt16) (reliable : Bool) (s : Host) :
    Host × Manager.Created :=
  let result := s.manager.createServerEndpoint (managerOs parse os ip port reliable s) ip port
    reliable
  let s' := { s with manager := result.1 }
  match result.2.endpoint, bound parse os ip port with
  | some e, some local' =>
      if reliable then
        ({ s' with
          tcpServer := Function.update s.tcpServer e (some ((ip, port, reliable), local'))
          server := Function.update s.server e
            (if os.starts then Server.constructed.start else Server.constructed) }, result.2)
      else (s', result.2)
  | _, _ => (s', result.2)

inductive Action where
  | createServerEndpoint (os : Os) (ip : String) (port : UInt16) (reliable : Bool)
  /-- Any other call of the manager. -/
  | manager (a : Manager.Action)
  | server (e : ℕ) (a : Server.Action)
  /-- The last pointer to the endpoint is given up. -/
  | destroy (e : ℕ)

/-- No pointer to the endpoint is left but those of the application.  Of the handlers only
`connection::receive_cbk` has none. -/
def unowned (e : ℕ) (entry : Manager.Key × Endpoint) (s : Host) : Prop :=
  s.manager.find .server entry.1 ≠ some e ∧
    ∀ o ∈ (s.server e).operations, o.handler.isReceive = true

instance (e : ℕ) (entry : Manager.Key × Endpoint) (s : Host) : Decidable (s.unowned e entry) :=
  inferInstanceAs (Decidable (_ ∧ ∀ o ∈ (s.server e).operations, o.handler.isReceive = true))

def step (s : Host) : Action → Option Host
  | .createServerEndpoint os ip port reliable =>
      some (s.createServerEndpoint parse os ip port reliable).1
  | .manager (.createServerEndpoint _ _ _ _) => none
  | .manager a => (s.manager.perform a).map fun result ↦ { s with manager := result.1 }
  | .server e a =>
      if (s.tcpServer e).isSome ∧ e ∉ s.destroyed then
        (Server.step (s.server e) a).map fun t ↦
          { s with
            server := Function.update s.server e t
            stopped := if a = .stop then e :: s.stopped else s.stopped }
      else none
  | .destroy e =>
      match s.tcpServer e with
      | none => none
      | some entry =>
          if e ∉ s.destroyed ∧ s.unowned e entry then
            some { s with
              server := Function.update s.server e (s.server e).closeAcceptor
              destroyed := e :: s.destroyed }
          else none

def system : TransitionSystem Host Action where
  initial s := s = constructed
  step := step parse

end Step

/-- Creates call `start` and it returns, the application does not call it again, and Asio
keeps to its reports. -/
def startsOnce (s : Host) : Action → Prop
  | .createServerEndpoint os _ _ _ => os.starts = true
  | .server e a => Server.asioReports (s.server e) a
  | .manager _ | .destroy _ => True

instance (s : Host) : (a : Action) → Decidable (startsOnce s a)
  | .createServerEndpoint os _ _ _ => inferInstanceAs (Decidable (os.starts = true))
  | .server e a => inferInstanceAs (Decidable (Server.asioReports (s.server e) a))
  | .manager _ | .destroy _ => isTrue trivial

/-! ## The invariant -/

/-- The acceptor of a TCP server is open exactly until `stop` is called, and its accept
loop runs. -/
structure Listens (s : Host) : Prop where
  fresh : ∀ e, s.manager.created ≤ e → s.tcpServer e = none
  looping : ∀ e, (s.tcpServer e).isSome = true → Server.Looping (s.server e)
  acceptor : ∀ e, (s.tcpServer e).isSome = true →
    ((s.server e).acceptorOpen = true ↔ e ∉ s.stopped)
  stopped : ∀ e ∈ s.stopped, (s.tcpServer e).isSome = true
  destroyed : ∀ e ∈ s.destroyed, e ∈ s.stopped

variable {parse : String → Option Address} {s t : Host} {e : ℕ}

/-! ## Creating -/

theorem inUse_iff (h : Listens s) {local' : Endpoint} : s.inUse local' = true ↔
    ∃ e key, s.tcpServer e = some (key, local') ∧ e ∉ s.stopped := by
  simp only [inUse, List.any_eq_true, List.mem_range, Bool.and_eq_true, Option.any_eq_true,
    decide_eq_true_eq]
  constructor
  · rintro ⟨e, _, ⟨⟨key, _⟩, he, rfl⟩, hopen⟩
    exact ⟨e, key, he, (h.acceptor e (by simp [he])).mp hopen⟩
  · rintro ⟨e, key, he, hstopped⟩
    refine ⟨e, ?_, ⟨(key, local'), he, rfl⟩, (h.acceptor e (by simp [he])).mpr hstopped⟩
    by_contra hlt
    simp [h.fresh e (by omega)] at he

/-- The endpoint is stored, started and listens, if it is a TCP one. -/
theorem createServerEndpoint_of_constructs {os : Os} {ip : String} {port : UInt16}
    {reliable : Bool} {local' : Endpoint} (hbound : bound parse os ip port = some local')
    (hconstructs : constructs parse os ip port reliable s = true) :
    s.createServerEndpoint parse os ip port reliable =
      ({ s with
        manager := (s.manager.makeShared os.memory).setEndpoints .server
          (NestedMap.assign (ip, port, reliable) s.manager.created s.manager.serverEndpoints)
        tcpServer := if reliable = true then
            Function.update s.tcpServer s.manager.created (some ((ip, port, reliable), local'))
          else s.tcpServer
        server := if reliable = true then
            Function.update s.server s.manager.created
              (if os.starts = true then Server.constructed.start else Server.constructed)
          else s.server },
        ⟨some s.manager.created, !os.starts⟩) := by
  have hparse : (parse ip).isSome = true := by
    obtain ⟨address, haddress, _⟩ := Option.map_eq_some_iff.mp hbound
    simp [haddress]
  simp only [createServerEndpoint, Manager.createServerEndpoint, managerOs, hparse, ↓reduceIte,
    Manager.construct, hconstructs, hbound]
  split_ifs <;> rfl

/-- Otherwise nothing is left of the call. -/
theorem createServerEndpoint_of_throws {os : Os} {ip : String} {port : UInt16} {reliable : Bool}
    (hthrows : bound parse os ip port = none ∨
      constructs parse os ip port reliable s = false) :
    s.createServerEndpoint parse os ip port reliable = (s, ⟨none, true⟩) := by
  by_cases hparse : (parse ip).isSome = true
  · have hsome : bound parse os ip port ≠ none := by
      rw [bound, ne_eq, Option.map_eq_none_iff]
      exact Option.isSome_iff_ne_none.mp hparse
    have hnot := hthrows.resolve_left hsome
    simp [createServerEndpoint, Manager.createServerEndpoint, managerOs, hparse,
      Manager.construct, hnot]
  · simp [createServerEndpoint, Manager.createServerEndpoint, managerOs, hparse]

theorem looping_constructed : Server.Looping Server.constructed.start :=
  Server.looping_start rfl

/-- One more endpoint, which has been started. -/
theorem Listens.add (h : Listens s) {m : Manager} (hcreated : m.created = s.manager.created + 1)
    (entry : Manager.Key × Endpoint) :
    Listens { s with
      manager := m
      tcpServer := Function.update s.tcpServer s.manager.created (some entry)
      server := Function.update s.server s.manager.created Server.constructed.start } := by
  have hnew : s.manager.created ∉ s.stopped := fun hin ↦ by
    simpa [h.fresh _ (Nat.le_refl _)] using h.stopped _ hin
  refine ⟨fun e he ↦ ?_, fun e he ↦ ?_, fun e he ↦ ?_, fun e he ↦ ?_, h.destroyed⟩
  · have hle : m.created ≤ e := he
    have hlt : s.manager.created < e := by omega
    simpa [hlt.ne'] using h.fresh e hlt.le
  · by_cases hnumber : e = s.manager.created
    · simpa [hnumber] using looping_constructed
    · have hold : (s.tcpServer e).isSome = true := by simpa [hnumber] using he
      simpa [hnumber] using h.looping e hold
  · by_cases hnumber : e = s.manager.created
    · simp only [hnumber, Function.update_self, hnew, not_false_eq_true, iff_true]
      rfl
    · have hold : (s.tcpServer e).isSome = true := by simpa [hnumber] using he
      simpa [hnumber] using h.acceptor e hold
  · by_cases hnumber : e = s.manager.created
    · exact absurd (hnumber ▸ he) hnew
    · simpa [hnumber] using h.stopped e he

theorem Listens.manager (h : Listens s) {m : Manager} (hle : s.manager.created ≤ m.created) :
    Listens { s with manager := m } :=
  ⟨fun e he ↦ h.fresh e (hle.trans he), h.looping, h.acceptor, h.stopped, h.destroyed⟩

theorem Listens.createServerEndpoint (h : Listens s) {os : Os} (hstarts : os.starts = true)
    (ip : String) (port : UInt16) (reliable : Bool) :
    Listens (s.createServerEndpoint parse os ip port reliable).1 := by
  cases hbound : bound parse os ip port with
  | none =>
      rw [createServerEndpoint_of_throws (Or.inl hbound)]
      exact h
  | some local' =>
      cases hconstructs : constructs parse os ip port reliable s with
      | false =>
          rw [createServerEndpoint_of_throws (Or.inr hconstructs)]
          exact h
      | true =>
          rw [createServerEndpoint_of_constructs hbound hconstructs]
          cases reliable with
          | false =>
              apply h.manager
              rw [Manager.setEndpoints_created]
              exact Nat.le_succ _
          | true =>
              simp only [hstarts, ↓reduceIte]
              exact h.add (Manager.setEndpoints_created ..) _

/-! ## Steps -/

theorem created_le_of_perform {m m' : Manager} {a : Manager.Action} {reply : Manager.Reply}
    (h : m.perform a = some (m', reply)) : m.created ≤ m'.created := by
  cases Manager.effect_of_perform h with
  | stored =>
      rw [Manager.setEndpoints_created]
      exact Nat.le_succ _
  | erased =>
      rw [Manager.setEndpoints_created]
  | notCreated | kept | found | counted => exact Nat.le_refl _

theorem Listens.server (h : Listens s) (he : (s.tcpServer e).isSome = true) {a : Server.Action}
    (hreports : Server.asioReports (s.server e) a) {x : Server}
    (hstep : Server.step (s.server e) a = some x) :
    Listens { s with
      server := Function.update s.server e x
      stopped := if a = .stop then e :: s.stopped else s.stopped } := by
  obtain ⟨u, hu, rfl⟩ := Server.step_eq_some hstep
  have hlooping := (h.looping e he).step hreports hstep
  by_cases hstop : a = .stop
  · subst hstop
    have hclosed : u.reap.acceptorOpen = false := by
      cases Option.some.inj hu
      exact (Server.stop_spec (s.server e)).1
    simp only [↓reduceIte]
    refine ⟨h.fresh, fun e' he' ↦ ?_, fun e' he' ↦ ?_, fun e' he' ↦ ?_, fun e' he' ↦ ?_⟩
    · by_cases hnumber : e' = e
      · simpa [hnumber] using hlooping
      · simpa [hnumber] using h.looping e' he'
    · by_cases hnumber : e' = e
      · simp [hnumber, hclosed]
      · simpa [hnumber] using h.acceptor e' he'
    · rcases List.mem_cons.mp he' with rfl | hold
      · exact he
      · exact h.stopped e' hold
    · exact List.mem_cons_of_mem e (h.destroyed e' he')
  · have hopen : u.reap.acceptorOpen = (s.server e).acceptorOpen :=
      (Server.acceptorOpen_perform hu hstop : u.acceptorOpen = _)
    simp only [if_neg hstop]
    refine ⟨h.fresh, fun e' he' ↦ ?_, fun e' he' ↦ ?_, h.stopped, h.destroyed⟩
    · by_cases hnumber : e' = e
      · simpa [hnumber] using hlooping
      · simpa [hnumber] using h.looping e' he'
    · by_cases hnumber : e' = e
      · subst hnumber
        simpa [hopen] using h.acceptor e' he'
      · simpa [hnumber] using h.acceptor e' he'

/-- An endpoint whose acceptor is open has an accept or a timer outstanding, so it is not
destroyed. -/
theorem Listens.stopped_of_unowned (h : Listens s) {entry : Manager.Key × Endpoint}
    (he : s.tcpServer e = some entry) (hunowned : s.unowned e entry) : e ∈ s.stopped := by
  by_contra hnot
  have hsome : (s.tcpServer e).isSome = true := by simp [he]
  have hone := (h.looping e hsome).one ((h.acceptor e hsome).mpr hnot)
  obtain ⟨o, ho⟩ := List.exists_mem_of_length_pos (Nat.lt_of_lt_of_eq Nat.one_pos hone.symm)
  obtain ⟨hmem, hloop⟩ := Server.mem_loop.mp ho
  have hreceive := hunowned.2 o hmem
  cases hhandler : o.handler <;>
    simp [hhandler, Server.Handler.inLoop, Server.Handler.isReceive] at hloop hreceive

theorem Listens.destroy (h : Listens s) (hstopped : e ∈ s.stopped) :
    Listens { s with
      server := Function.update s.server e (s.server e).closeAcceptor
      destroyed := e :: s.destroyed } := by
  have hclosed : (s.server e).acceptorOpen = false := by
    rw [← Bool.not_eq_true, h.acceptor e (h.stopped e hstopped)]
    exact not_not_intro hstopped
  have hsame : (s.server e).closeAcceptor = s.server e := by
    simp [Server.closeAcceptor, hclosed]
  rw [hsame, Function.update_eq_self]
  refine ⟨h.fresh, h.looping, h.acceptor, h.stopped, fun e' he' ↦ ?_⟩
  rcases List.mem_cons.mp he' with rfl | hold
  · exact hstopped
  · exact h.destroyed e' hold

theorem Listens.step {a : Action} (h : Listens s) (hguard : startsOnce s a)
    (hstep : step parse s a = some t) : Listens t := by
  cases a with
  | createServerEndpoint os ip port reliable =>
      obtain rfl := Option.some.inj hstep
      exact h.createServerEndpoint hguard ip port reliable
  | manager a =>
      have hother : (s.manager.perform a).map (fun result ↦ { s with manager := result.1 }) =
          some t := by
        cases a <;> first | exact hstep | simp [Host.step] at hstep
      obtain ⟨⟨m, reply⟩, hperform, rfl⟩ := Option.map_eq_some_iff.mp hother
      exact h.manager (created_le_of_perform hperform)
  | server e a =>
      have halive : (s.tcpServer e).isSome = true ∧ e ∉ s.destroyed := by
        by_contra hnot
        simp [Host.step, hnot] at hstep
      simp only [Host.step, if_pos halive] at hstep
      obtain ⟨x, hx, rfl⟩ := Option.map_eq_some_iff.mp hstep
      exact h.server halive.1 hguard hx
  | destroy e =>
      simp only [Host.step] at hstep
      split at hstep
      · exact absurd hstep (by simp)
      · rename_i entry he
        split_ifs at hstep with hfree
        obtain rfl := Option.some.inj hstep
        exact h.destroy (h.stopped_of_unowned he hfree.2)

theorem listens_of_reachable (h : (system parse).Reachable startsOnce s) : Listens s := by
  apply h.invariant (I := Listens)
  · rintro s rfl
    refine ⟨fun _ _ ↦ rfl, ?_, ?_, ?_, ?_⟩ <;> simp [constructed]
  · intro s a t hs hguard hstep
    exact hs.step hguard hstep

/-- As long as the `start` of every create returns, and where nothing else fails, a TCP
server endpoint can be created on an address and a port exactly if `stop` has been called
on every one that was created on them before, whether or not it has been removed from the
registry since.  One on which it has not been called is never destroyed and has one accept
or retry timer outstanding. -/
theorem port_free_iff_stopped (h : (system parse).Reachable startsOnce s) {os : Os}
    (hos : os.constructs = true) {ip : String} {port : UInt16} {local' : Endpoint}
    (hlocal : bound parse os ip port = some local') :
    ((s.createServerEndpoint parse os ip port true).2.endpoint ≠ none ↔
      ∀ e key, s.tcpServer e = some (key, local') → e ∈ s.stopped) ∧
    ∀ e key, s.tcpServer e = some (key, local') → e ∉ s.stopped →
      e ∉ s.destroyed ∧ (s.server e).acceptorOpen = true ∧ (s.server e).loop.length = 1 := by
  have hlistens := listens_of_reachable h
  constructor
  · have hconstructs : constructs parse os ip port true s = !s.inUse local' := by
      simp [constructs, hos, hlocal]
    cases huse : s.inUse local' with
    | false =>
        rw [huse] at hconstructs
        rw [createServerEndpoint_of_constructs hlocal hconstructs]
        refine ⟨fun _ e key he ↦ ?_, fun _ ↦ by simp⟩
        by_contra hnot
        have hused := (inUse_iff hlistens).mpr ⟨e, key, he, hnot⟩
        simp [huse] at hused
    | true =>
        rw [huse] at hconstructs
        rw [createServerEndpoint_of_throws (Or.inr hconstructs)]
        obtain ⟨e, key, he, hnot⟩ := (inUse_iff hlistens).mp huse
        exact ⟨fun hnone ↦ absurd rfl hnone, fun hall ↦ absurd (hall e key he) hnot⟩
  · intro e key he hnot
    have hsome : (s.tcpServer e).isSome = true := by simp [he]
    have hopen := (hlistens.acceptor e hsome).mpr hnot
    exact ⟨fun hin ↦ hnot (hlistens.destroyed e hin), hopen,
      (hlistens.looping e hsome).one hopen⟩

def vehicle (_ : String) : Option Address := some (.v4 0xc0a80002#32)

/-- The endpoint has been removed and is found no more, and its port stays in use. -/
theorem port_free_iff_stopped_removed : ∃ s : Host,
    s.manager.find .server ("192.168.0.2", 13400, true) = none ∧
      (s.createServerEndpoint vehicle ⟨true, 0, true, 0⟩ "192.168.0.2" 13400 true).2.endpoint =
        none ∧ (s.server 0).loop.length = 1 := by
  have hrun : ∃ s, (system vehicle).run startsOnce
      [.createServerEndpoint ⟨true, 0, true, 0⟩ "192.168.0.2" 13400 true,
        .manager (.removeServerEndpoint "192.168.0.2" 13400 true)] constructed = some s ∧
      s.manager.find .server ("192.168.0.2", 13400, true) = none ∧
      s.tcpServer 0 = some (("192.168.0.2", 13400, true), ⟨.v4 0xc0a80002#32, 13400⟩) ∧
      s.stopped = [] := ⟨_, rfl, rfl, rfl, rfl⟩
  obtain ⟨s, hs, hfind, htcp, hstopped⟩ := hrun
  have hlocal : bound vehicle ⟨true, 0, true, 0⟩ "192.168.0.2" 13400 =
      some ⟨.v4 0xc0a80002#32, 13400⟩ := rfl
  obtain ⟨hfree, hkept⟩ := port_free_iff_stopped (reachable_of_run rfl hs) rfl hlocal
  have hnot : 0 ∉ s.stopped := by simp [hstopped]
  refine ⟨s, hfind, ?_, (hkept 0 _ htcp hnot).2.2⟩
  by_contra hcreated
  exact hnot (hfree.mp hcreated 0 _ htcp)

end Host

end DoipEndpoint
