import DoipEndpoint.Asio.Write
import DoipEndpoint.InFlight
import DoipEndpoint.Runs
import Mathlib.Data.List.Infix

/-!
# The order of TCP sends

`send_data` of a server connection and of a TCP client on one connected socket,
down to the partial writes.  Neither waits for an earlier `async_write`, so the
bytes stay in order only where no write is cut short ahead of another one.
-/

namespace DoipEndpoint

namespace TcpSend

open Asio TransitionSystem

inductive Role where
  | server
  | client
  deriving DecidableEq, Repr

/-- One TCP socket with the writes in flight on it: the `async_write_some` in
the order they were issued, those that completed and whose handler is queued,
the bytes put on the connection, and the messages passed to `send_data`.
`serverAlive` tells whether `server_.lock()` succeeds. -/
structure Outbound where
  isOpen : Bool
  serverAlive : Bool
  isSending : Bool
  issued : List WriteSome
  completed : List Transfer
  wire : List UInt8
  sent : List (List UInt8)
  deriving DecidableEq, Repr

def connected : Outbound := ⟨true, true, false, [], [], [], []⟩

/-- `_bytes_to_send - _bytes_transferred`, in `std::size_t`. -/
def bytesLeft (bytesToSend bytesTransferred : ℕ) : ℕ :=
  (bytesToSend + 2 ^ 64 - bytesTransferred) % 2 ^ 64

def close (s : Outbound) : Outbound :=
  { s with
    isOpen := false
    issued := []
    completed := s.completed ++ s.issued.map fun w ↦ w.fail .operationAborted }

def asyncWriteSome (w : WriteSome) (s : Outbound) : Outbound :=
  if s.isOpen then { s with issued := s.issued ++ [w] }
  else { s with completed := s.completed ++ [w.fail .badDescriptor] }

namespace Server.Connection

def stopAndRemoveConnection (s : Outbound) : Outbound :=
  if s.serverAlive then close s else s

def writeCompletionCondition (error : ErrorCode) (bytesTransferred bytesToSend : ℕ)
    (s : Outbound) : ℕ × Outbound :=
  if error ≠ .success then (0, stopAndRemoveConnection s)
  else (bytesLeft bytesToSend bytesTransferred, s)

end Server.Connection

namespace Client.Tcp

def writeCompletionCondition (error : ErrorCode) (bytesTransferred bytesToSend : ℕ)
    (s : Outbound) : ℕ × Outbound :=
  if error ≠ .success then (0, s) else (bytesLeft bytesToSend bytesTransferred, s)

end Client.Tcp

def writeCompletionCondition : Role → ErrorCode → ℕ → ℕ → Outbound → ℕ × Outbound
  | .server => Server.Connection.writeCompletionCondition
  | .client => Client.Tcp.writeCompletionCondition

/-- `async_write` starts its first operation even if it has nothing to write. -/
def asyncWrite (role : Role) (w : Write) (s : Outbound) : Outbound :=
  let (maxSize, s) := writeCompletionCondition role .success w.transferred w.message.length s
  asyncWriteSome ⟨w, maxSize⟩ s

def Server.Connection.sendData (w : Write) (s : Outbound) : Outbound :=
  if s.serverAlive then asyncWrite .server w { s with isSending := true } else s

def Client.Tcp.sendData (w : Write) (s : Outbound) : Outbound :=
  if s.isOpen then asyncWrite .client w { s with isSending := true } else s

def sendData : Role → Write → Outbound → Outbound
  | .server => Server.Connection.sendData
  | .client => Client.Tcp.sendData

/-- `send_cbk`.  That of the client may close the socket, which is an action of
its own here. -/
def sendCbk (role : Role) (s : Outbound) : Outbound :=
  match role with
  | .server => { s with isSending := false }
  | .client => s

/-- The composed write after one of its transfers. -/
def continueWrite (role : Role) (t : Transfer) (s : Outbound) : Outbound :=
  if t.ends then sendCbk role s
  else
    let w := t.consumed
    let (maxSize, s) :=
      writeCompletionCondition role t.error w.transferred w.message.length s
    if maxSize = 0 then sendCbk role s else asyncWriteSome ⟨w, maxSize⟩ s

/-! ## Runs -/

inductive Action where
  | send (message : List UInt8)
  /-- The oldest `async_write_some` transfers `n` bytes. -/
  | transfer (n : ℕ)
  /-- The oldest `async_write_some` fails. -/
  | fail (error : ErrorCode)
  /-- The handler of a completed `async_write_some` is run. -/
  | resume (i : ℕ)
  | close
  /-- The server endpoint is destroyed. -/
  | expire
  deriving DecidableEq, Repr

def step (role : Role) (s : Outbound) : Action → Option Outbound
  | .send message =>
      if h : message.length < 2 ^ 32 then
        some (sendData role (.start message h) { s with sent := s.sent ++ [message] })
      else none
  | .transfer n =>
      match s.issued with
      | [] => none
      | w :: rest =>
          if h : n ≤ w.offered.length then
            if n = 0 ∧ w.offered ≠ [] then none
            else
              some { s with
                issued := rest
                completed := s.completed ++ [w.transfer n h]
                wire := s.wire ++ w.offered.take n }
          else none
  | .fail error =>
      match s.issued with
      | [] => none
      | w :: rest =>
          if error = .success then none
          else some { s with issued := rest, completed := s.completed ++ [w.fail error] }
  | .resume i =>
      match s.completed[i]? with
      | none => none
      | some t => some (continueWrite role t { s with completed := s.completed.eraseIdx i })
  | .close => some (close s)
  | .expire => some { s with serverAlive := false }

def system (role : Role) : TransitionSystem Outbound Action where
  initial s := s = connected
  step := step role

def outstanding (s : Outbound) : List UInt8 := s.issued.flatMap WriteSome.offered

def next (s : Outbound) : List UInt8 := (s.issued.take 1).flatMap WriteSome.offered

def behind (s : Outbound) : List UInt8 := (s.issued.drop 1).flatMap WriteSome.offered

/-- Every byte passed to `send_data` so far is on the connection or offered to
it. -/
def caughtUp (s : Outbound) : Bool :=
  s.wire.length + (outstanding s).length = s.sent.flatten.length

/-- `send_data` starts a write that the socket takes. -/
def accepts (role : Role) (s : Outbound) : Bool :=
  s.isOpen && (role = .client || s.serverAlive)

/-- No non-empty message is sent before the earlier ones are caught up, and no
write is cut short, or fails, while another one waits behind it. -/
def uncut (role : Role) (s : Outbound) : Action → Bool
  | .send message => !accepts role s || message.isEmpty || caughtUp s
  | .transfer n => n = (next s).length || (behind s).isEmpty
  | .fail _ => (next s).isEmpty || (behind s).isEmpty
  | _ => true

theorem bytesLeft_eq {bytesToSend bytesTransferred : ℕ} (h : bytesTransferred ≤ bytesToSend)
    (hsize : bytesToSend < 2 ^ 32) :
    bytesLeft bytesToSend bytesTransferred = bytesToSend - bytesTransferred := by
  unfold bytesLeft
  omega

theorem writeCompletionCondition_success (role : Role) (w : Write) (s : Outbound) :
    writeCompletionCondition role .success w.transferred w.message.length s =
      (w.rest.length, s) := by
  have hleft := bytesLeft_eq w.transferred_le w.size_lt
  rw [← w.length_rest] at hleft
  cases role <;>
    simp [writeCompletionCondition, Server.Connection.writeCompletionCondition,
      Client.Tcp.writeCompletionCondition, hleft]

theorem writeCompletionCondition_error (role : Role) {error : ErrorCode} (h : error ≠ .success)
    (bytesTransferred bytesToSend : ℕ) (s : Outbound) :
    writeCompletionCondition role error bytesTransferred bytesToSend s = (0, s) ∨
      writeCompletionCondition role error bytesTransferred bytesToSend s = (0, close s) := by
  cases role with
  | server =>
      cases halive : s.serverAlive <;>
        simp [writeCompletionCondition, Server.Connection.writeCompletionCondition,
          Server.Connection.stopAndRemoveConnection, h, halive]
  | client =>
      simp [writeCompletionCondition, Client.Tcp.writeCompletionCondition, h]

/-- A write offers all that it has left. -/
def offerRest (w : Write) : WriteSome := ⟨w, w.rest.length⟩

@[simp] theorem offered_offerRest (w : Write) : (offerRest w).offered = w.rest :=
  List.take_length

theorem asyncWrite_eq (role : Role) (w : Write) (s : Outbound) :
    asyncWrite role w s = asyncWriteSome (offerRest w) s := by
  simp only [asyncWrite, writeCompletionCondition_success]
  rfl

theorem sendCbk_eq (role : Role) (s : Outbound) :
    ∃ b, sendCbk role s = { s with isSending := b } := by
  cases role with
  | server => exact ⟨false, rfl⟩
  | client => exact ⟨s.isSending, rfl⟩

/-- What running the handler of a completed operation does. -/
theorem continueWrite_cases (role : Role) (t : Transfer) (s : Outbound) :
    (∃ b, continueWrite role t s = { s with isSending := b }) ∨
      (∃ b, continueWrite role t s = { close s with isSending := b }) ∨
      (t.continues = true ∧
        continueWrite role t s = asyncWriteSome (offerRest t.consumed) s) := by
  unfold continueWrite
  split_ifs with hends
  · exact Or.inl (sendCbk_eq role s)
  · by_cases he : t.error = .success
    · have hcontinues : t.continues = true := by simp [Transfer.continues, he, hends]
      have hrest := Transfer.rest_ne_nil_of_continues hcontinues
      refine Or.inr (Or.inr ⟨hcontinues, ?_⟩)
      simp only [he, writeCompletionCondition_success, List.length_eq_zero_iff, hrest,
        ↓reduceIte]
      rfl
    · rcases writeCompletionCondition_error role he t.consumed.transferred
        t.consumed.message.length s with hc | hc
      · simp only [hc, ↓reduceIte]
        exact Or.inl (sendCbk_eq role s)
      · simp only [hc, ↓reduceIte]
        exact Or.inr (Or.inl (sendCbk_eq role (close s)))

theorem sendData_cases (role : Role) (w : Write) (s : Outbound) :
    (accepts role s = false ∧ sendData role w s = s) ∨ ∃ b,
      (s.isOpen = true → accepts role s = true) ∧
      sendData role w s = asyncWriteSome (offerRest w) { s with isSending := b } := by
  cases role with
  | server =>
      cases halive : s.serverAlive with
      | false =>
          exact Or.inl ⟨by simp [accepts, halive],
            by simp [sendData, Server.Connection.sendData, halive]⟩
      | true =>
          exact Or.inr ⟨true, by simp [accepts, halive],
            by simp [sendData, Server.Connection.sendData, halive, asyncWrite_eq]⟩
  | client =>
      cases hopen : s.isOpen with
      | false =>
          exact Or.inl ⟨by simp [accepts, hopen], by simp [sendData, Client.Tcp.sendData, hopen]⟩
      | true =>
          exact Or.inr ⟨true, by simp [accepts, hopen],
            by simp [sendData, Client.Tcp.sendData, hopen, asyncWrite_eq]⟩

theorem sendData_of_accepts {role : Role} {s : Outbound} (h : accepts role s = true)
    (w : Write) : ∃ b, sendData role w s =
      { s with isSending := b, issued := s.issued ++ [offerRest w] } := by
  rcases sendData_cases role w s with ⟨hno, _⟩ | ⟨b, _, hs⟩
  · exact absurd (h.symm.trans hno) (by decide)
  · simp only [accepts, Bool.and_eq_true] at h
    exact ⟨b, by rw [hs, asyncWriteSome, if_pos h.1]⟩

theorem outstanding_append {s t : Outbound} {w : Write}
    (h : t.issued = s.issued ++ [offerRest w]) : outstanding t = outstanding s ++ w.rest := by
  simp [outstanding, h]

/-! ## The order -/

/-- What is offered continues what is on the connection.  A write that was cut
short is the only one, and its rest comes next. -/
structure Ordered (s : Outbound) : Prop where
  closed : s.isOpen = false → s.issued = []
  whole : ∀ w ∈ s.issued, w.offered = w.write.rest
  stream : s.wire ++ outstanding s <+: s.sent.flatten
  one : s.isOpen = true → s.completed.countP Transfer.continues ≤ 1
  rest : s.isOpen = true → ∀ t ∈ s.completed, t.continues = true →
    outstanding s = [] ∧ s.wire ++ t.consumed.rest <+: s.sent.flatten

variable {s : Outbound}

theorem Ordered.isSending (h : Ordered s) (b : Bool) : Ordered { s with isSending := b } :=
  ⟨h.closed, h.whole, h.stream, h.one, h.rest⟩

theorem Ordered.close (h : Ordered s) : Ordered (close s) := by
  refine ⟨fun _ ↦ rfl, ?_, ?_, ?_, ?_⟩
  · simp [TcpSend.close]
  · have hprefix : s.wire <+: s.sent.flatten := (List.prefix_append _ _).trans h.stream
    simpa [TcpSend.close, outstanding] using hprefix
  · simp [TcpSend.close]
  · simp [TcpSend.close]

theorem Ordered.snoc (h : Ordered s) (message : List UInt8) :
    Ordered { s with sent := s.sent ++ [message] } := by
  have hlonger : s.sent.flatten <+: (s.sent ++ [message]).flatten := by
    rw [List.flatten_append]
    exact List.prefix_append _ _
  refine ⟨h.closed, h.whole, h.stream.trans hlonger, h.one, fun hopen t ht hc ↦ ?_⟩
  exact ⟨(h.rest hopen t ht hc).1, (h.rest hopen t ht hc).2.trans hlonger⟩

/-- One more operation, which offers nothing or the next bytes of the stream. -/
theorem Ordered.asyncWriteSome (h : Ordered s) (w : Write)
    (hfree : s.isOpen = true → w.rest = [] ∨
      s.completed.countP Transfer.continues = 0 ∧
        s.wire ++ outstanding s ++ w.rest <+: s.sent.flatten) :
    Ordered (asyncWriteSome (offerRest w) s) := by
  unfold TcpSend.asyncWriteSome
  split_ifs with hopen
  · have hwhole : ∀ a ∈ s.issued ++ [offerRest w], a.offered = a.write.rest := by
      intro a ha
      rcases List.mem_append.mp ha with ha | ha
      · exact h.whole a ha
      · rw [List.mem_singleton.mp ha]
        exact offered_offerRest w
    have hout : outstanding { s with issued := s.issued ++ [offerRest w] } =
        outstanding s ++ w.rest := outstanding_append rfl
    rcases hfree hopen with hnil | ⟨hnone, hnext⟩
    · have hsame : outstanding { s with issued := s.issued ++ [offerRest w] } =
          outstanding s := by rw [hout, hnil, List.append_nil]
      refine ⟨fun hc ↦ absurd (hopen.symm.trans hc) (by decide), hwhole, ?_, h.one, ?_⟩
      · rw [hsame]
        exact h.stream
      · rw [hsame]
        exact h.rest
    · refine ⟨fun hc ↦ absurd (hopen.symm.trans hc) (by decide), hwhole, ?_, ?_, ?_⟩
      · rw [hout, ← List.append_assoc]
        exact hnext
      · exact fun _ ↦ hnone.trans_le (Nat.zero_le 1)
      · intro _ t ht hc
        exact absurd hc (List.countP_eq_zero.mp hnone t ht)
  · exact ⟨h.closed, h.whole, h.stream, fun hc ↦ absurd hc hopen, fun hc ↦ absurd hc hopen⟩

theorem Ordered.countP_of_outstanding (h : Ordered s) (hopen : s.isOpen = true)
    (hout : outstanding s ≠ []) : s.completed.countP Transfer.continues = 0 :=
  List.countP_eq_zero.mpr fun t ht hc ↦ hout (h.rest hopen t ht hc).1

theorem Ordered.countP_of_caughtUp (h : Ordered s) (hopen : s.isOpen = true)
    (hup : caughtUp s = true) : s.completed.countP Transfer.continues = 0 := by
  apply List.countP_eq_zero.mpr
  intro t ht hc
  obtain ⟨hout, hprefix⟩ := h.rest hopen t ht hc
  have hpos := List.length_pos_of_ne_nil (Transfer.rest_ne_nil_of_continues hc)
  have hle := hprefix.length_le
  simp only [caughtUp, hout, List.length_nil, decide_eq_true_eq] at hup
  rw [List.length_append] at hle
  omega

theorem Ordered.sendData (h : Ordered s) (role : Role) {message : List UInt8}
    (hsize : message.length < 2 ^ 32) (hguard : uncut role s (.send message) = true) :
    Ordered (sendData role (.start message hsize)
      { s with sent := s.sent ++ [message] }) := by
  have hsnoc := h.snoc message
  rcases sendData_cases role (.start message hsize)
    { s with sent := s.sent ++ [message] } with ⟨_, hs⟩ | ⟨b, haccepts, hs⟩
  · rw [hs]
    exact hsnoc
  · rw [hs]
    apply (hsnoc.isSending b).asyncWriteSome _
    intro hopen
    have hopen' : s.isOpen = true := hopen
    have haccepts' : accepts role s = true := haccepts hopen'
    simp only [uncut, haccepts', Bool.not_true, Bool.false_or, Bool.or_eq_true,
      List.isEmpty_iff] at hguard
    rcases hguard with hnil | hup
    · exact Or.inl hnil
    · refine Or.inr ⟨h.countP_of_caughtUp hopen' hup, ?_⟩
      simp only [caughtUp, decide_eq_true_eq] at hup
      have hall : s.wire ++ outstanding s = s.sent.flatten :=
        h.stream.eq_of_length (by rw [List.length_append, hup])
      have hout : outstanding { s with sent := s.sent ++ [message], isSending := b } =
          outstanding s := rfl
      rw [hout, hall, Write.start_rest, List.flatten_append, List.flatten_singleton]

/-- The oldest operation is taken off the queue, having transferred `n` bytes,
all that it offered unless nothing was offered behind it. -/
theorem Ordered.take (h : Ordered s) {w : WriteSome} {rest : List WriteSome}
    (hissued : s.issued = w :: rest) {n : ℕ} {t : Transfer}
    (hguard : n = (next s).length ∨ behind s = [])
    (ht : t.continues = true →
      n < w.offered.length ∧ w.offered.take n ++ t.consumed.rest = w.offered) :
    Ordered { s with
      issued := rest
      completed := s.completed ++ [t]
      wire := s.wire ++ w.offered.take n } := by
  have hnext : next s = w.offered := by simp [next, hissued]
  have hbehind : behind s = rest.flatMap WriteSome.offered := by simp [behind, hissued]
  have hout : outstanding s = w.offered ++ behind s := by simp [outstanding, hissued, hbehind]
  have hstream : s.wire ++ w.offered ++ behind s <+: s.sent.flatten := by
    rw [List.append_assoc, ← hout]
    exact h.stream
  rw [hnext] at hguard
  refine ⟨?_, fun a ha ↦ h.whole a (hissued ▸ List.mem_cons_of_mem w ha), ?_, ?_, ?_⟩
  · intro hc
    have hnil := h.closed hc
    simp [hissued] at hnil
  · rcases hguard with rfl | hnil
    · simpa [outstanding, ← hbehind, List.append_assoc] using hstream
    · have htake : s.wire ++ w.offered.take n <+: s.wire ++ w.offered :=
        (List.prefix_append_right_inj s.wire).mpr (List.take_prefix n w.offered)
      rw [hnil, List.append_nil] at hstream
      simpa [outstanding, ← hbehind, hnil] using htake.trans hstream
  · intro hopen
    rw [List.countP_append, List.countP_singleton]
    split_ifs with hc
    · have hne : outstanding s ≠ [] := by
        intro hnil
        have hlt := (ht hc).1
        rw [hout, List.append_eq_nil_iff] at hnil
        simp [hnil.1] at hlt
      rw [h.countP_of_outstanding hopen hne]
    · exact h.one hopen
  · intro hopen u hu hc
    rcases List.mem_append.mp hu with hu | hu
    · obtain ⟨hnil, hrest⟩ := h.rest hopen u hu hc
      rw [hout, List.append_eq_nil_iff] at hnil
      constructor
      · exact hbehind.symm.trans hnil.2
      · simpa [hnil.1] using hrest
    · rw [List.mem_singleton.mp hu] at hc ⊢
      obtain ⟨hlt, hsplit⟩ := ht hc
      have hnil : behind s = [] := hguard.resolve_left (Nat.ne_of_lt hlt)
      constructor
      · exact hbehind.symm.trans hnil
      · rw [List.append_assoc, hsplit]
        rw [hnil, List.append_nil] at hstream
        exact hstream

theorem Ordered.resume (h : Ordered s) (role : Role) {i : ℕ} {t : Transfer}
    (ht : s.completed[i]? = some t) :
    Ordered (continueWrite role t { s with completed := s.completed.eraseIdx i }) := by
  have hcount := InFlight.countP_eraseIdx ht Transfer.continues
  have herase : Ordered { s with completed := s.completed.eraseIdx i } := by
    refine ⟨h.closed, h.whole, h.stream, fun hopen ↦ ?_, fun hopen u hu ↦ ?_⟩
    · have hone := h.one hopen
      simp only
      omega
    · exact h.rest hopen u (List.mem_of_mem_eraseIdx hu)
  rcases continueWrite_cases role t { s with completed := s.completed.eraseIdx i } with
    ⟨b, hs⟩ | ⟨b, hs⟩ | ⟨hc, hs⟩ <;> rw [hs]
  · exact herase.isSending b
  · exact herase.close.isSending b
  · refine herase.asyncWriteSome _ fun hopen ↦ Or.inr ⟨?_, ?_⟩
    · have hone := h.one hopen
      rw [if_pos hc] at hcount
      simp only
      omega
    · obtain ⟨hnil, hrest⟩ := h.rest hopen t (List.mem_of_getElem? ht) hc
      have hout : outstanding { s with completed := s.completed.eraseIdx i } = [] := hnil
      rw [hout, List.append_nil]
      exact hrest

theorem ordered_step {role : Role} {t : Outbound} {a : Action} (h : Ordered s)
    (hguard : uncut role s a = true) (hstep : step role s a = some t) : Ordered t := by
  cases a with
  | send message =>
      simp only [step] at hstep
      split_ifs at hstep with hsize
      cases Option.some.inj hstep
      exact h.sendData role hsize hguard
  | transfer n =>
      simp only [step] at hstep
      cases hissued : s.issued with
      | nil => simp [hissued] at hstep
      | cons w rest =>
          simp only [hissued] at hstep
          split_ifs at hstep with hn _
          cases Option.some.inj hstep
          have hall : w.offered = w.write.rest := h.whole w (by simp [hissued])
          apply h.take hissued (by simpa [uncut] using hguard)
          intro hc
          constructor
          · exact ((WriteSome.transfer_continues hall hn).mp hc).2
          · rw [Transfer.consumed_rest, WriteSome.transfer, ← hall, List.take_append_drop]
  | fail error =>
      simp only [step] at hstep
      cases hissued : s.issued with
      | nil => simp [hissued] at hstep
      | cons w rest =>
          simp only [hissued] at hstep
          split_ifs at hstep with he
          cases Option.some.inj hstep
          simp only [uncut, Bool.or_eq_true, List.isEmpty_iff] at hguard
          have htake := h.take hissued (n := 0) (t := w.fail error)
            (hguard.imp_left fun hnil ↦ by rw [hnil, List.length_nil])
            fun hc ↦ absurd hc (by simp [w.fail_continues he])
          rwa [List.take_zero, List.append_nil] at htake
  | resume i =>
      simp only [step] at hstep
      cases hcompleted : s.completed[i]? with
      | none => simp [hcompleted] at hstep
      | some u =>
          simp only [hcompleted] at hstep
          cases Option.some.inj hstep
          exact h.resume role hcompleted
  | close =>
      cases Option.some.inj hstep
      exact h.close
  | expire =>
      cases Option.some.inj hstep
      exact ⟨h.closed, h.whole, h.stream, h.one, h.rest⟩

/-! ## Overtaking -/

/-- Of different bytes none can be skipped. -/
theorem not_isPrefix_of_skip {l p skipped v : List UInt8} (hl : l.Nodup)
    (h : p ++ skipped ++ v <+: l) (hskipped : skipped ≠ []) (hv : v ≠ []) : ¬p ++ v <+: l := by
  intro hskip
  obtain ⟨x, xs, rfl⟩ := List.exists_cons_of_ne_nil hskipped
  obtain ⟨y, ys, rfl⟩ := List.exists_cons_of_ne_nil hv
  have hboth : x = y := by
    obtain ⟨a, rfl⟩ := h
    obtain ⟨b, hb⟩ := hskip
    simp only [List.append_assoc, List.cons_append, List.append_cancel_left_eq,
      List.cons.injEq] at hb
    exact hb.1.symm
  have hnodup := h.sublist.nodup hl
  rw [hboth, List.append_assoc] at hnodup
  have hparts := (List.nodup_append.mp hnodup).2.1
  simp at hparts

/-- The socket may take everything that is offered to it. -/
theorem leads_flush (role : Role) (s : Outbound) : ∃ u, (system role).Leads anyStep s u ∧
    u.wire = s.wire ++ outstanding s ∧ u.sent = s.sent := by
  induction hissued : s.issued generalizing s with
  | nil => exact ⟨s, Leads.refl s, by simp [outstanding, hissued], rfl⟩
  | cons w rest ih =>
      obtain ⟨u, hu, hwire, hsent⟩ := ih { s with
        issued := rest
        completed := s.completed ++ [w.transfer w.offered.length le_rfl]
        wire := s.wire ++ w.offered.take w.offered.length } rfl
      have hstep : (system role).step s (.transfer w.offered.length) = some { s with
          issued := rest
          completed := s.completed ++ [w.transfer w.offered.length le_rfl]
          wire := s.wire ++ w.offered.take w.offered.length } := by
        have hnone : ¬(w.offered.length = 0 ∧ w.offered ≠ []) := by
          rintro ⟨hlen, hne⟩
          exact hne (List.length_eq_zero_iff.mp hlen)
        simp only [system, step, hissued]
        rw [dif_pos le_rfl, if_neg hnone]
      refine ⟨u, ((Leads.refl s).snoc trivial hstep).trans hu, ?_, hsent⟩
      rw [hwire]
      simp [outstanding, hissued]

/-- What is left of the oldest operation is overtaken by the others. -/
theorem Ordered.skips (h : Ordered s) {w : WriteSome} {rest : List WriteSome}
    (hissued : s.issued = w :: rest) {n : ℕ} (hdistinct : s.sent.flatten.Nodup)
    (hn : n < w.offered.length) (hbehind : behind s ≠ []) :
    ¬s.wire ++ w.offered.take n ++ rest.flatMap WriteSome.offered <+: s.sent.flatten := by
  have hrest : behind s = rest.flatMap WriteSome.offered := by simp [behind, hissued]
  have hstream := h.stream
  rw [show outstanding s = w.offered ++ behind s by simp [outstanding, hissued, hrest],
    ← List.take_append_drop n w.offered, List.append_assoc, ← List.append_assoc,
    ← List.append_assoc] at hstream
  rw [← hrest]
  refine not_isPrefix_of_skip hdistinct hstream ?_ hbehind
  intro hnil
  exact absurd (List.drop_eq_nil_iff.mp hnil) (not_le.mpr hn)

/-- What is missing of the earlier messages is overtaken by another one. -/
theorem Ordered.sendData_skips (h : Ordered s) (role : Role) {message : List UInt8}
    (hsize : message.length < 2 ^ 32)
    (hdistinct : (TcpSend.sendData role (.start message hsize)
      { s with sent := s.sent ++ [message] }).sent.flatten.Nodup)
    (haccepts : accepts role s = true) (hmessage : message ≠ []) (hup : caughtUp s = false) :
    ¬(TcpSend.sendData role (.start message hsize) { s with sent := s.sent ++ [message] }).wire ++
        outstanding (TcpSend.sendData role (.start message hsize)
          { s with sent := s.sent ++ [message] }) <+:
      (TcpSend.sendData role (.start message hsize)
        { s with sent := s.sent ++ [message] }).sent.flatten := by
  obtain ⟨b, hs⟩ := sendData_of_accepts (s := { s with sent := s.sent ++ [message] })
    haccepts (.start message hsize)
  have hall : (s.sent ++ [message]).flatten = s.sent.flatten ++ message := by simp
  rw [hs] at hdistinct ⊢
  rw [outstanding_append rfl, ← List.append_assoc]
  simp only [hall, Write.start_rest] at hdistinct ⊢
  obtain ⟨skipped, hskipped⟩ := h.stream
  have hne : skipped ≠ [] := by
    rintro rfl
    rw [List.append_nil] at hskipped
    simp [caughtUp, ← hskipped] at hup
  rw [← hskipped] at hdistinct ⊢
  exact not_isPrefix_of_skip hdistinct (List.prefix_refl _) hne hmessage

theorem cut_overtakes {role : Role} {t : Outbound} {a : Action} (h : Ordered s)
    (hstep : step role s a = some t) (hcut : uncut role s a = false)
    (hdistinct : t.sent.flatten.Nodup) :
    ∃ u, (system role).Leads anyStep t u ∧ ¬u.wire <+: u.sent.flatten := by
  obtain ⟨u, hu, hwire, hsent⟩ := leads_flush role t
  refine ⟨u, hu, ?_⟩
  rw [hwire, hsent]
  cases a with
  | send message =>
      simp only [step] at hstep
      split_ifs at hstep with hsize
      obtain rfl := Option.some.inj hstep
      simp only [uncut, Bool.or_eq_false_iff, Bool.not_eq_eq_eq_not, Bool.not_false,
        List.isEmpty_eq_false_iff] at hcut
      obtain ⟨⟨haccepts, hmessage⟩, hup⟩ := hcut
      exact h.sendData_skips role hsize hdistinct haccepts hmessage hup
  | transfer n =>
      simp only [step] at hstep
      cases hissued : s.issued with
      | nil => simp [hissued] at hstep
      | cons w rest =>
          simp only [hissued] at hstep
          split_ifs at hstep with hn _
          obtain rfl := Option.some.inj hstep
          simp only [uncut, Bool.or_eq_false_iff, decide_eq_false_iff_not,
            List.isEmpty_eq_false_iff] at hcut
          have hnext : next s = w.offered := by simp [next, hissued]
          have hlt : n < w.offered.length := lt_of_le_of_ne hn (hnext ▸ hcut.1)
          exact h.skips hissued hdistinct hlt hcut.2
  | fail error =>
      simp only [step] at hstep
      cases hissued : s.issued with
      | nil => simp [hissued] at hstep
      | cons w rest =>
          simp only [hissued] at hstep
          split_ifs at hstep
          obtain rfl := Option.some.inj hstep
          simp only [uncut, Bool.or_eq_false_iff, List.isEmpty_eq_false_iff] at hcut
          have hnext : next s = w.offered := by simp [next, hissued]
          have hpos : 0 < w.offered.length := List.length_pos_of_ne_nil (hnext ▸ hcut.1)
          have hskips := h.skips hissued hdistinct hpos hcut.2
          rwa [List.take_zero, List.append_nil] at hskips
  | resume | close | expire => simp [uncut] at hcut

theorem ordered_reachable {role : Role}
    (h : (system role).Reachable (fun s a ↦ uncut role s a = true) s) : Ordered s := by
  apply h.invariant (I := Ordered)
  · rintro s rfl
    refine ⟨fun _ ↦ rfl, ?_, ?_, ?_, ?_⟩ <;> simp [connected, outstanding]
  · intro s a t hs hguard hstep
    exact ordered_step hs hguard hstep

/-- The bytes put on the connection are the beginning of the messages in the
order of the calls, along every run in which no write is overtaken.  After any
other step, if no byte occurs twice in the messages, the run can go on until
they are not. -/
theorem sends_in_order (role : Role)
    (h : (system role).Reachable (fun s a ↦ uncut role s a = true) s) :
    s.wire <+: s.sent.flatten ∧
      ∀ a t, step role s a = some t → uncut role s a = false → t.sent.flatten.Nodup →
        ∃ u, (system role).Leads anyStep t u ∧ ¬u.wire <+: u.sent.flatten := by
  have hordered : Ordered s := ordered_reachable h
  constructor
  · exact (List.prefix_append _ _).trans hordered.stream
  · intro a t hstep hcut hdistinct
    exact cut_overtakes hordered hstep hcut hdistinct

/-- A message that was cut short and continued, then a second one. -/
theorem sends_in_order_continued : ∃ s,
    (system .client).run (fun s a ↦ uncut .client s a = true)
      [.send [1, 2], .transfer 1, .resume 0, .transfer 1, .send [3], .transfer 1]
      connected = some s ∧ s.wire = [1, 2, 3] ∧ s.wire <+: s.sent.flatten := by
  have hrun : ∃ s, (system .client).run (fun s a ↦ uncut .client s a = true)
      [.send [1, 2], .transfer 1, .resume 0, .transfer 1, .send [3], .transfer 1]
      connected = some s ∧ s.wire = [1, 2, 3] := ⟨_, rfl, rfl⟩
  obtain ⟨s, hs, hwire⟩ := hrun
  exact ⟨s, hs, hwire, (sends_in_order .client (reachable_of_run rfl hs)).1⟩

/-- On a socket of either class a second message overtakes the rest of the
first one. -/
theorem sends_overtake :
    (¬∀ s, (system .server).Reachable anyStep s → s.wire <+: s.sent.flatten) ∧
      ¬∀ s, (system .client).Reachable anyStep s → s.wire <+: s.sent.flatten := by
  suffices hrole : ∀ role, ¬∀ s, (system role).Reachable anyStep s →
      s.wire <+: s.sent.flatten from ⟨hrole .server, hrole .client⟩
  intro role h
  have hrun : ∃ s, (system role).run anyStep
      [.send [1, 2], .send [3], .transfer 1, .transfer 1, .resume 0, .transfer 1]
      connected = some s ∧ s.wire = [1, 3, 2] ∧ s.sent = [[1, 2], [3]] := by
    cases role <;> exact ⟨_, rfl, rfl, rfl⟩
  obtain ⟨s, hs, hwire, hsent⟩ := hrun
  have hprefix := h s (reachable_of_run rfl hs)
  rw [hwire, hsent] at hprefix
  exact absurd hprefix (by decide)

end TcpSend

end DoipEndpoint
