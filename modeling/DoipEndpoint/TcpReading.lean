import DoipEndpoint.Client.Reading
import DoipEndpoint.Server.Reading

/-!
# A TCP endpoint reads one chunk

Neither compiled `receive_cbk` arms the next receive, so the first chunk that
is handed over is the last one.
-/

namespace DoipEndpoint

open TransitionSystem

/-- The socket of a connected TCP client is open and has had no read error. -/
def Client.Readable (s : Client) : Prop :=
  s.socket.isOpen = true ∧ s.socket.history.attached = true ∧
    s.socket.history.receiveFailed = false

/-- The socket of a started connection is open and has had no read error. -/
def Server.Readable (s : Server) (c : ℕ) : Prop :=
  (s.connection c).isOpen = true ∧ (s.connection c).history.attached = true ∧
    (s.connection c).history.receiveFailed = false

/-- While a TCP endpoint could be read, exactly one receive is outstanding if
and only if no `receive_cbk` has run on the socket yet, and all that was handed
over is a beginning of the stream that fits into one buffer. -/
theorem tcp_reads_until_first_chunk (local' remote : Endpoint) (s : Client) (t : Server)
    (c : ℕ) :
    ((Client.system .tcp local' remote).Reachable (fun s a ↦ Client.connectsOwn s a = true) s →
      s.Readable →
        (s.currentReceives = 1 ↔ s.socket.history.receiveCbks = 0) ∧
        s.socket.history.handed <+: s.socket.history.peerSent ∧
        s.socket.history.handed.length ≤ Client.recvBufferSizeInitial) ∧
    (Server.system.Reachable anyStep t →
      t.Readable c →
        ((t.receives c).card = 1 ↔ (t.connection c).history.receiveCbks = 0) ∧
        (t.connection c).history.handed <+: (t.connection c).history.peerSent ∧
        (t.connection c).history.handed.length ≤ Server.headerSize) := by
  constructor
  · rintro hs ⟨hopen, hattached, hok⟩
    exact Client.reads_first_chunk hs hopen hattached hok
  · rintro ht ⟨hopen, hstarted, hok⟩
    exact Server.reads_first_chunk ht hopen hstarted hok

def clientConnects : List Client.Action :=
  [.start .fine, .complete 0 ⟨.success, 0⟩, .handle 0 .fine, .peerSends [2, 253]]

def serverReads : List Server.Action :=
  [.start, .complete 0 ⟨.success, 0⟩, .handle 0 (.fine Client.tester), .peerSends 0 [2, 253],
    .complete 0 ⟨.success, 1⟩, .handle 0 (.fine Client.tester)]

/-- A client waits for its first chunk, and a server has read one. -/
theorem tcp_reads_until_first_chunk_read : ∃ (s : Client) (t : Server),
    (Client.system .tcp Client.tester Client.vehicle).run
        (fun s a ↦ Client.connectsOwn s a = true) clientConnects
        (Client.constructed Client.tester Client.vehicle false) = some s ∧
      s.Readable ∧ s.currentReceives = 1 ∧
      Server.system.run anyStep serverReads Server.constructed = some t ∧ t.Readable 0 ∧
      (t.receives 0).card ≠ 1 ∧
      (t.connection 0).history.handed <+: (t.connection 0).history.peerSent := by
  have hclient : ∃ s, (Client.system .tcp Client.tester Client.vehicle).run
      (fun s a ↦ Client.connectsOwn s a = true) clientConnects
      (Client.constructed Client.tester Client.vehicle false) = some s ∧ s.Readable ∧
      s.socket.history.receiveCbks = 0 := ⟨_, rfl, ⟨rfl, rfl, rfl⟩, rfl⟩
  have hserver : ∃ t, Server.system.run anyStep serverReads Server.constructed = some t ∧
      t.Readable 0 ∧ (t.connection 0).history.receiveCbks = 1 :=
    ⟨_, rfl, ⟨rfl, rfl, rfl⟩, rfl⟩
  obtain ⟨s, hs, hreadable, hnone⟩ := hclient
  obtain ⟨t, ht, hreadable', hone⟩ := hserver
  obtain ⟨hreads, hreads'⟩ := tcp_reads_until_first_chunk Client.tester Client.vehicle s t 0
  obtain ⟨hcount, _⟩ := hreads (reachable_of_run ⟨false, rfl⟩ hs) hreadable
  obtain ⟨hcount', hhanded, _⟩ := hreads' (reachable_of_run rfl ht) hreadable'
  refine ⟨s, t, hs, hreadable, hcount.mpr hnone, ht, hreadable', ?_, hhanded⟩
  rw [Ne, hcount', hone]
  exact Nat.one_ne_zero

/-- After the first byte was handed over, the client and the server connection
have no receive outstanding, and the second byte stays unread. -/
theorem tcp_stops_reading :
    (¬∀ (local' remote : Endpoint) (s : Client),
      (Client.system .tcp local' remote).Reachable anyStep s → s.Readable →
        s.currentReceives = 1) ∧
    ¬∀ (s : Server) (c : ℕ), Server.system.Reachable anyStep s → s.Readable c →
        (s.receives c).card = 1 := by
  constructor
  · intro h
    have hrun : (Client.system .tcp Client.tester Client.vehicle).run anyStep
        (clientConnects ++ [.complete 0 ⟨.success, 1⟩, .handle 0 .fine])
        (Client.constructed Client.tester Client.vehicle false) = some _ := rfl
    have hone := h _ _ _ (Client.reachable_of_tester_run hrun) ⟨rfl, rfl, rfl⟩
    exact absurd hone (by decide)
  · intro h
    have hrun : ∃ s, Server.system.run anyStep serverReads Server.constructed = some s ∧
        s.Readable 0 ∧ s.receives 0 = 0 := ⟨_, rfl, ⟨rfl, rfl, rfl⟩, rfl⟩
    obtain ⟨s, hs, hreadable, hzero⟩ := hrun
    have hone := h s 0 (reachable_of_run rfl hs) hreadable
    rw [hzero] at hone
    exact absurd hone (by decide)

end DoipEndpoint
