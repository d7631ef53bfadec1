import DoipEndpoint.Server.Run
import DoipEndpoint.InFlight
import DoipEndpoint.OneKey

/-!
# What each function of the TCP server endpoint changes

One description for each function, so that no later proof unfolds it again.
-/

namespace DoipEndpoint

namespace Server

section Update

variable (s : Server) (c : ℕ) (k : Connection)

@[simp] theorem update_connection : (s.update c k).connection = Function.update s.connection c k :=
  rfl

@[simp] theorem update_connections : (s.update c k).connections = s.connections := rfl

@[simp] theorem update_operations : (s.update c k).operations = s.operations := rfl

@[simp] theorem update_acceptorOpen : (s.update c k).acceptorOpen = s.acceptorOpen := rfl

end Update

/-- `s'` has other connection objects and aborted operations at most. -/
structure SameTable (s s' : Server) : Prop where
  acceptorOpen : s'.acceptorOpen = s.acceptorOpen
  connections : s'.connections = s.connections
  created : s'.created = s.created
  handlers : s'.operations.map Operation.handler = s.operations.map Operation.handler

theorem SameTable.refl (s : Server) : SameTable s s := ⟨rfl, rfl, rfl, rfl⟩

theorem SameTable.trans {s t u : Server} (h : SameTable s t) (h' : SameTable t u) :
    SameTable s u :=
  ⟨h'.acceptorOpen.trans h.acceptorOpen, h'.connections.trans h.connections,
    h'.created.trans h.created, h'.handlers.trans h.handlers⟩

theorem map_abort_handler (affected : Handler → Bool) (ops : List Operation) :
    (ops.map (Operation.abort affected)).map Operation.handler = ops.map Operation.handler := by
  simp [Function.comp_def]

theorem sameTable_closeSocket (c : ℕ) (s : Server) : SameTable s (s.closeSocket c) := by
  unfold closeSocket
  split
  · exact ⟨rfl, rfl, rfl, map_abort_handler _ _⟩
  · exact SameTable.refl s

theorem closeSocket_isOpen (c : ℕ) (s : Server) (c' : ℕ) :
    ((s.closeSocket c).connection c').isOpen = ((s.connection c').isOpen && c' ≠ c) := by
  unfold closeSocket
  by_cases hc : c' = c
  · subst hc
    split <;> simp_all
  · split <;> simp [Function.update, hc]

theorem removeConnection_eq (c : ℕ) (s : Server) : s.removeConnection c =
    { s with connections := OneKey.eraseFirst c s.connections } := by
  unfold removeConnection OneKey.eraseFirst
  cases s.connections.toList.find? fun entry ↦ entry.2 = c with
  | none => rfl
  | some entry => rfl

theorem foldl_stop (entries : List (Endpoint × ℕ)) (s : Server) :
    SameTable s (entries.foldl (fun s entry ↦ Connection.stop entry.2 s) s) ∧ ∀ c,
      ((entries.foldl (fun s entry ↦ Connection.stop entry.2 s) s).connection c).isOpen =
        ((s.connection c).isOpen && !entries.any fun entry ↦ entry.2 = c) := by
  induction entries generalizing s with
  | nil => exact ⟨SameTable.refl s, by simp⟩
  | cons entry rest ih =>
      obtain ⟨htable, hopen⟩ := ih (Connection.stop entry.2 s)
      refine ⟨(sameTable_closeSocket entry.2 s).trans htable, fun c ↦ ?_⟩
      rw [List.foldl_cons, hopen, Connection.stop, closeSocket_isOpen, List.any_cons]
      by_cases hc : entry.2 = c
      · simp [hc]
      · simp [hc, Ne.symm hc]

theorem held_eq {s s' : Server}
    (h : s'.operations.map Operation.handler = s.operations.map Operation.handler) (c : ℕ) :
    (s'.operations.any fun o ↦ o.handler.connection = some c) =
      s.operations.any fun o ↦ o.handler.connection = some c := by
  have hmap : ∀ ops : List Operation, (ops.any fun o ↦ o.handler.connection = some c) =
      (ops.map Operation.handler).any fun h ↦ h.connection = some c := by
    simp [List.any_map, Function.comp_def]
  rw [hmap, hmap, h]

theorem closeAcceptor_spec (s : Server) : s.closeAcceptor.acceptorOpen = false ∧
    s.closeAcceptor.connections = s.connections ∧ s.closeAcceptor.connection = s.connection ∧
    s.closeAcceptor.operations.map Operation.handler = s.operations.map Operation.handler := by
  unfold closeAcceptor
  split
  · exact ⟨rfl, rfl, rfl, map_abort_handler _ _⟩
  · rename_i hclosed
    exact ⟨by simpa using hclosed, rfl, rfl, rfl⟩

/-- `stop` closes the acceptor and the stored connections, and no others. -/
theorem stop_spec (s : Server) : s.stop.acceptorOpen = false ∧ s.stop.connections = ∅ ∧
    s.stop.operations.map Operation.handler = s.operations.map Operation.handler ∧
    ∀ c, (s.stop.connection c).isOpen = ((s.connection c).isOpen && !s.stored c) := by
  obtain ⟨hacc, htab, hcon, hops⟩ := closeAcceptor_spec s
  obtain ⟨hsame, hopen⟩ := foldl_stop s.closeAcceptor.connections.toList s.closeAcceptor
  refine ⟨hsame.acceptorOpen.trans hacc, rfl, hsame.handlers.trans hops, fun c ↦ ?_⟩
  rw [stored, ← htab, ← hcon]
  exact hopen c

/-- A connection object that is alive is not touched, any other is closed. -/
theorem reap_isOpen (s : Server) (c : ℕ) :
    (s.reap.connection c).isOpen = ((s.connection c).isOpen && s.referenced c) := by
  simp only [reap]
  split <;> simp_all

theorem queued_eq_some {s : Server} {i : ℕ} {h : Handler} {r : Completion}
    (hq : s.queued i = some (h, r)) : s.operations[i]? = some ⟨h, some r⟩ := by
  unfold queued at hq
  split at hq
  · exact absurd hq (by simp)
  · rename_i o ho
    split at hq
    · exact absurd hq (by simp)
    · rename_i r' hr
      simp only [Option.some.injEq, Prod.mk.injEq] at hq
      obtain ⟨rfl, rfl⟩ := hq
      rw [ho, ← hr]

theorem handle_eq_some {s t : Server} {i : ℕ} {os : Os} (h : s.handle i os = some t) :
    ∃ handler r, s.queued i = some (handler, r) ∧
      t = dispatch os handler r (record handler r { s with
        operations := s.operations.eraseIdx i }) := by
  unfold handle at h
  split at h
  · exact absurd h (by simp)
  · rename_i handler r hq
    exact ⟨handler, r, hq, (Option.some.inj h).symm⟩

theorem complete_eq_some {s t : Server} {i : ℕ} {r : Completion} (h : s.complete i r = some t) :
    ∃ handler, s.operations[i]? = some ⟨handler, none⟩ ∧
      finish handler r { s with
        operations := s.operations.set i ⟨handler, some r⟩ } = some t := by
  unfold complete at h
  split at h
  · exact absurd h (by simp)
  · rename_i o ho
    split at h
    · rename_i hnone
      exact ⟨o.handler, by rw [ho, ← hnone], h⟩
    · exact absurd h (by simp)

theorem step_eq_some {s t : Server} {a : Action} (h : step s a = some t) :
    ∃ u, s.perform a = some u ∧ t = u.reap := by
  obtain ⟨u, hu, rfl⟩ := Option.map_eq_some_iff.mp h
  exact ⟨u, hu, rfl⟩

/-- `accept_cbk` informs the connection about its remote endpoint, and stores
and starts it if the last `set_option` succeeded. -/
theorem accepted_cases (os : Os) (c : ℕ) (s : Server) : ∃ remote answers,
    s.accepted os c = s.update c
        { (s.connection c).setRemoteInfo remote with accepted := some answers } ∨
      ((s.connection c).isOpen = true ∧ os.keepAliveResult = .success ∧
        s.accepted os c = Connection.start os.grows c
          { s.update c { (s.connection c).setRemoteInfo remote with accepted := some os } with
            connections := s.connections.insert remote c }) := by
  by_cases hopen : (s.connection c).isOpen = true
  · refine ⟨if os.remoteEndpointResult = .success then os.remoteEndpoint else .unspecified, os, ?_⟩
    simp only [accepted, hopen, ↓reduceIte]
    by_cases hkeep : os.keepAliveResult = .success
    · refine Or.inr ⟨trivial, hkeep, ?_⟩
      rw [if_pos hkeep]
      rfl
    · exact Or.inl (if_neg hkeep)
  · refine ⟨.unspecified, os.onClosed, Or.inl ?_⟩
    simp [accepted, hopen, Os.onClosed]

end Server

end DoipEndpoint
