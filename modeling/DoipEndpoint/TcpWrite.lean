import DoipEndpoint.Asio.Composed
import DoipEndpoint.Client.Sending
import DoipEndpoint.Server.Table
import DoipEndpoint.TcpSend

/-!
# One TCP write

The composed write that `send_data` starts on a server connection or on a TCP client,
in the middle of everything else that the endpoint does.  Both completion conditions
ask for the rest of the message; that of a connection also stops and removes the
connection when a partial write has failed.
-/

namespace DoipEndpoint

open TransitionSystem Asio

theorem bytesLeft_write (w : Write) :
    TcpSend.bytesLeft w.message.length w.transferred = w.rest.length := by
  rw [TcpSend.bytesLeft_eq w.transferred_le w.size_lt, w.length_rest]

/-! ## A server connection -/

namespace Server

/-- `write_completion_condition` with the number that it returns, and with the end of
the objects that nothing points to afterwards. -/
def Connection.writeCompletion (c : ℕ) (error : ErrorCode) (bytesTransferred bytesToSend : ℕ)
    (s : Server) : ℕ × Server :=
  if error ≠ .success then (0, (writeCompletionCondition error c s).reap)
  else (TcpSend.bytesLeft bytesToSend bytesTransferred, s)

def Handler.isSendOn (c : ℕ) : Handler → Bool
  | .sendCbk c' _ => c' = c
  | _ => false

/-- No other write is begun on the connection, and none of its writes completes: the
one that is under way takes its own steps. -/
def noOtherWrite (c : ℕ) (s : Server) : Action → Bool
  | .sendData c' _ => c' ≠ c
  | .complete i _ | .handle i _ => s.operations[i]?.all fun o ↦ !o.handler.isSendOn c
  | _ => true

/-- `send_data` on a connection that has no write under way, in any reachable state. -/
def writing (c : ℕ) : Setting Server Action where
  surroundings := system
  starts env message := ∃ s, system.Reachable anyStep s ∧
    (∀ o ∈ s.operations, o.handler.isSendOn c = false) ∧
    system.step s (.sendData c message) = some env
  others := noOtherWrite c
  condition := Connection.writeCompletion c

/-- The connection is closed and removed, and every other one keeps its entry and its
socket. -/
structure FailsOnly (c : ℕ) (s t : Server) : Prop where
  closed : (t.connection c).isOpen = false
  removed : RemovesOnly c s t
  others : ∀ c', c' ≠ c → (t.connection c').isOpen = (s.connection c').isOpen ∧
    ((s.connection c').isOpen = true → t.connection c' = s.connection c')

variable {s t : Server} {c : ℕ} {error : ErrorCode}

theorem connection_stopAndRemoveConnection {c' : ℕ} (hc' : c' ≠ c) (s : Server) :
    (Connection.stopAndRemoveConnection c s).connection c' = s.connection c' := by
  rw [Connection.stopAndRemoveConnection, removeConnection_eq, Connection.stop, closeSocket]
  split
  · simp [hc']
  · rfl

/-- Nothing but the entry that is removed lets go of a connection. -/
theorem referenced_stopAndRemoveConnection (h : Filed s) {c' : ℕ} (hc' : c' ≠ c)
    (halive : s.referenced c' = true) :
    (Connection.stopAndRemoveConnection c s).referenced c' = true := by
  have hremoves := h.removesOnly_stopped c
  have hhandlers : (Connection.stopAndRemoveConnection c s).operations.map Operation.handler =
      s.operations.map Operation.handler := by
    rw [Connection.stopAndRemoveConnection, removeConnection_eq]
    exact (sameTable_closeSocket c s).handlers
  have hheld := held_eq hhandlers c'
  rw [referenced, Bool.or_eq_true] at halive ⊢
  rcases halive with hstored | hoperation
  · obtain ⟨key, hkey⟩ := stored_iff.mp hstored
    exact Or.inl (stored_iff.mpr ⟨key, (hremoves.2 key c' hc').mpr hkey⟩)
  · exact Or.inr (hheld.trans hoperation)

theorem failsOnly_of_error (h : system.Reachable anyStep s) (herror : error ≠ .success)
    (bytesTransferred bytesToSend : ℕ) :
    FailsOnly c s (Connection.writeCompletion c error bytesTransferred bytesToSend s).2 := by
  have hfiled := filed_of_reachable h
  have halive := alive_of_reachable h
  have heq : (Connection.writeCompletion c error bytesTransferred bytesToSend s).2 =
      (Connection.stopAndRemoveConnection c s).reap := by
    simp only [Connection.writeCompletion, Connection.writeCompletionCondition, if_pos herror]
  have hkept : ∀ c', c' ≠ c → (s.connection c').isOpen = true →
      (Connection.stopAndRemoveConnection c s).reap.connection c' = s.connection c' := by
    intro c' hc' hopen
    have hreferenced := referenced_stopAndRemoveConnection hfiled hc' (halive c' hopen)
    rw [reap]
    simp only [if_pos hreferenced]
    exact connection_stopAndRemoveConnection hc' s
  rw [heq]
  refine ⟨?_, hfiled.removesOnly_stopped c, fun c' hc' ↦ ⟨?_, hkept c' hc'⟩⟩
  · have hclosed : ((Connection.stopAndRemoveConnection c s).connection c).isOpen = false := by
      rw [Connection.stopAndRemoveConnection, removeConnection_eq, Connection.stop]
      have hstop := closeSocket_isOpen c s c
      simpa using hstop
    rw [reap_isOpen, hclosed, Bool.false_and]
  · cases hopen : (s.connection c').isOpen with
    | true => rw [hkept c' hc' hopen, hopen]
    | false => rw [reap_isOpen, connection_stopAndRemoveConnection hc', hopen, Bool.false_and]

theorem orderly_writing (c : ℕ) : (writing c).Orderly where
  success w s := by
    have hleft := bytesLeft_write w
    simp only [writing, Connection.writeCompletion, ne_eq, not_true_eq_false, ↓reduceIte, hleft]
  failure error transferred size s herror := by
    simp only [writing, Connection.writeCompletion, if_pos herror]
  leads error transferred size s := by
    by_cases herror : error = .success
    · simp only [writing, Connection.writeCompletion, herror, ne_eq, not_true_eq_false, ↓reduceIte]
      exact Leads.refl s
    · have hstep : system.step s (.stopAndRemoveConnection c) =
          some (Connection.writeCompletion c error transferred size s).2 := by
        simp only [Connection.writeCompletion, Connection.writeCompletionCondition,
          if_pos herror]
        rfl
      exact (Leads.refl s).snoc trivial hstep
  starts env message := by
    rintro ⟨s, hs, _, hstep⟩
    exact hs.step trivial hstep

end Server

/-! ## A TCP client -/

namespace Client

def Tcp.writeCompletionCondition (error : ErrorCode) (bytesTransferred bytesToSend : ℕ)
    (s : Client) : ℕ × Client :=
  if error ≠ .success then (0, s) else (TcpSend.bytesLeft bytesToSend bytesTransferred, s)

def Operation.isWriteOn (handle : ℕ) (o : Operation) : Bool := o.isWrite && o.handle = handle

/-- No other write is begun on the handle, and none of its writes completes. -/
def noOtherWrite (handle : ℕ) (s : Client) : Action → Bool
  | .sendData _ => s.socket.handle ≠ handle
  | .complete i _ | .handle i _ => s.operations[i]?.all fun o ↦ !o.isWriteOn handle
  | _ => true

/-- `send_data` on an open handle that has no write under way, in any reachable state. -/
def writing (local' remote : Endpoint) (handle : ℕ) : Setting Client Action where
  surroundings := system .tcp local' remote
  starts env message := ∃ s, (system .tcp local' remote).Reachable anyStep s ∧
    s.socket.isOpen = true ∧ s.socket.handle = handle ∧
    (∀ o ∈ s.operations, o.isWriteOn handle = false) ∧
    (system .tcp local' remote).step s (.sendData message) = some env
  others := noOtherWrite handle
  condition := Tcp.writeCompletionCondition

theorem orderly_writing (local' remote : Endpoint) (handle : ℕ) :
    (writing local' remote handle).Orderly where
  success w s := by
    have hleft := bytesLeft_write w
    simp only [writing, Tcp.writeCompletionCondition, ne_eq, not_true_eq_false, ↓reduceIte, hleft]
  failure error transferred size s herror := by
    simp only [writing, Tcp.writeCompletionCondition, if_pos herror]
  leads error transferred size s := by
    have hsame : (Tcp.writeCompletionCondition error transferred size s).2 = s := by
      unfold Tcp.writeCompletionCondition
      split <;> rfl
    simp only [writing, hsame]
    exact Leads.refl s
  starts env message := by
    rintro ⟨s, hs, _, _, _, hstep⟩
    exact hs.step trivial hstep

end Client

/-! ## Either of them -/

/-- From any reachable state of the endpoint and among any of its other steps, the
write transfers its message in order, asks for neither more nor less than the rest, and
ends when all of it has been transferred or with the first error; then it offers
nothing more, and of a server exactly the connection of the write is closed and
removed. -/
theorem write_sends_message (c : ℕ) (local' remote : Endpoint) (handle : ℕ) :
    (∀ w, (Server.writing c).system.Reachable anyStep w →
      (Server.writing c).Sends w ∧
      TcpSend.bytesLeft w.write.message.length w.write.transferred + w.write.transferred =
        w.write.message.length ∧
      ∀ error, error ≠ .success → w.phase = .completed error →
        Server.FailsOnly c w.env ((Server.writing c).ask error w).env) ∧
    ∀ w, (Client.writing local' remote handle).system.Reachable anyStep w →
      (Client.writing local' remote handle).Sends w ∧
      TcpSend.bytesLeft w.write.message.length w.write.transferred + w.write.transferred =
        w.write.message.length := by
  have hleft : ∀ w : Write,
      TcpSend.bytesLeft w.message.length w.transferred + w.transferred = w.message.length := by
    intro w
    have hle := w.transferred_le
    rw [TcpSend.bytesLeft_eq hle w.size_lt]
    omega
  constructor
  · intro w hw
    have hS := Server.orderly_writing c
    refine ⟨Setting.sends_of_reachable hS hw, hleft w.write, fun error herror _ ↦ ?_⟩
    exact Server.failsOnly_of_error (Setting.env_reachable hS hw) herror _ _
  · intro w hw
    have hS := Client.orderly_writing local' remote handle
    exact ⟨Setting.sends_of_reachable hS hw, hleft w.write⟩

/-- One of three bytes was transferred when the write failed. -/
theorem write_sends_message_cut : ∃ w, (Server.writing 0).system.Reachable anyStep w ∧
    w.phase = .completed .eof ∧ w.wire = [7] ∧
    Server.FailsOnly 0 w.env ((Server.writing 0).ask .eof w).env := by
  have hrun : ∃ s env, Server.system.run anyStep
      [.start, .complete 0 ⟨.success, 0⟩, .handle 0 (.fine Client.tester)]
      Server.constructed = some s ∧
      s.operations = [⟨.receiveCbk 0 0 4, none⟩, ⟨.acceptCbk 1, none⟩] ∧
      Server.system.step s (.sendData 0 [7, 8, 9]) = some env := ⟨_, _, rfl, rfl, rfl⟩
  obtain ⟨s, env, hs, hoperations, hstep⟩ := hrun
  have hstarts : (Server.writing 0).starts env [7, 8, 9] := by
    refine ⟨s, reachable_of_run rfl hs, ?_, hstep⟩
    rw [hoperations]
    decide
  have hS := Server.orderly_writing 0
  have hstarted : (Server.writing 0).system.Reachable anyStep
      ⟨env, .start [7, 8, 9] (by decide), .offered 3, []⟩ :=
    .initial ⟨env, [7, 8, 9], by decide, hstarts,
      (hS.ask_success ⟨env, .start [7, 8, 9] (by decide), .completed .success, []⟩).symm⟩
  have htransferred : (Server.writing 0).system.Reachable anyStep
      ⟨env, ⟨[7, 8, 9], 1, by decide, by decide⟩, .completed .success, [7]⟩ :=
    hstarted.step (a := .transfer 1) trivial rfl
  have hasked : (Server.writing 0).system.Reachable anyStep
      ⟨env, ⟨[7, 8, 9], 1, by decide, by decide⟩, .offered 2, [7]⟩ :=
    htransferred.step (a := .ask) trivial (congrArg some (hS.ask_success _))
  have hfailed := hasked.step (a := .fail .eof) trivial rfl
  exact ⟨_, hfailed, rfl, rfl,
    ((write_sends_message 0 Client.tester Client.vehicle 0).1 _ hfailed).2.2 .eof
      (by decide) rfl⟩

end DoipEndpoint
