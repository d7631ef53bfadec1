import DoipEndpoint.Span
import DoipEndpoint.TcpSend

/-!
# Messages in the caller's memory

`send_data` is given a pointer and a size, and so is every `async_write_some`
that it leads to: nothing copies the message.  Here the writes hold spans of a
memory that the callers go on using, and each transfer reads what the memory
holds by then.  While nobody overwrites what is still to be read, this is the
model of `DoipEndpoint.TcpSend`, in which a write holds its message.
-/

namespace DoipEndpoint

/-! ## Messages that a write holds -/

namespace TcpSend

open TransitionSystem

/-- Every byte on the connection, and every message in flight, was passed to
`send_data`. -/
structure Genuine (s : Outbound) : Prop where
  wire : s.wire ⊆ s.sent.flatten
  issued : ∀ w ∈ s.issued, w.write.message ⊆ s.sent.flatten
  completed : ∀ t ∈ s.completed, t.write.message ⊆ s.sent.flatten

variable {role : Role} {s t : Outbound}

theorem Genuine.isSending (h : Genuine s) (b : Bool) : Genuine { s with isSending := b } :=
  ⟨h.wire, h.issued, h.completed⟩

theorem Genuine.close (h : Genuine s) : Genuine (close s) := by
  refine ⟨h.wire, by simp [TcpSend.close], fun t ht ↦ ?_⟩
  rcases List.mem_append.mp ht with ht | ht
  · exact h.completed t ht
  · obtain ⟨w, hw, rfl⟩ := List.mem_map.mp ht
    exact h.issued w hw

theorem Genuine.asyncWriteSome (h : Genuine s) {w : Asio.WriteSome}
    (hw : w.write.message ⊆ s.sent.flatten) : Genuine (asyncWriteSome w s) := by
  unfold TcpSend.asyncWriteSome
  split_ifs
  · refine ⟨h.wire, fun a ha ↦ ?_, h.completed⟩
    rcases List.mem_append.mp ha with ha | ha
    · exact h.issued a ha
    · rw [List.mem_singleton.mp ha]
      exact hw
  · refine ⟨h.wire, h.issued, fun a ha ↦ ?_⟩
    rcases List.mem_append.mp ha with ha | ha
    · exact h.completed a ha
    · rw [List.mem_singleton.mp ha]
      exact hw

theorem Genuine.take (h : Genuine s) {w : Asio.WriteSome} {rest : List Asio.WriteSome}
    (hissued : s.issued = w :: rest) {t : Asio.Transfer} (ht : t.write = w.write) (n : ℕ) :
    Genuine { s with
      issued := rest
      completed := s.completed ++ [t]
      wire := s.wire ++ w.offered.take n } := by
  have hw : w.write.message ⊆ s.sent.flatten := h.issued w (hissued ▸ List.mem_cons_self)
  have htaken : w.offered.take n ⊆ s.sent.flatten := fun byte hbyte ↦
    hw (List.mem_of_mem_drop (List.mem_of_mem_take (List.mem_of_mem_take hbyte)))
  refine ⟨List.append_subset.mpr ⟨h.wire, htaken⟩, fun a ha ↦ ?_, fun a ha ↦ ?_⟩
  · exact h.issued a (hissued ▸ List.mem_cons_of_mem w ha)
  · rcases List.mem_append.mp ha with ha | ha
    · exact h.completed a ha
    · rw [List.mem_singleton.mp ha, ht]
      exact hw

theorem genuine_step {a : Action} (h : Genuine s) (hstep : step role s a = some t) :
    Genuine t := by
  cases a with
  | send message =>
      simp only [step] at hstep
      split_ifs at hstep with hsize
      cases Option.some.inj hstep
      have hmore : ∀ bytes : List UInt8, bytes ⊆ s.sent.flatten →
          bytes ⊆ (s.sent ++ [message]).flatten := by
        intro bytes hbytes
        rw [List.flatten_append]
        exact List.subset_append_of_subset_left _ hbytes
      have hpassed : Genuine { s with sent := s.sent ++ [message] } :=
        ⟨hmore _ h.wire, fun w hw ↦ hmore _ (h.issued w hw), fun t ht ↦ hmore _ (h.completed t ht)⟩
      rcases sendData_cases role (.start message hsize) { s with sent := s.sent ++ [message] } with
        ⟨_, hs⟩ | ⟨b, _, hs⟩ <;> rw [hs]
      · exact hpassed
      · refine (hpassed.isSending b).asyncWriteSome ?_
        simp [offerRest, Asio.Write.start]
  | transfer n =>
      simp only [step] at hstep
      cases hissued : s.issued with
      | nil => simp [hissued] at hstep
      | cons w rest =>
          simp only [hissued] at hstep
          split_ifs at hstep
          cases Option.some.inj hstep
          exact h.take hissued rfl n
  | fail error =>
      simp only [step] at hstep
      cases hissued : s.issued with
      | nil => simp [hissued] at hstep
      | cons w rest =>
          simp only [hissued] at hstep
          split_ifs at hstep
          cases Option.some.inj hstep
          have htaken := h.take hissued (t := w.fail error) rfl 0
          rwa [List.take_zero, List.append_nil] at htaken
  | resume i =>
      simp only [step] at hstep
      cases hi : s.completed[i]? with
      | none => simp [hi] at hstep
      | some x =>
          simp only [hi] at hstep
          cases Option.some.inj hstep
          have herased : Genuine { s with completed := s.completed.eraseIdx i } :=
            ⟨h.wire, h.issued, fun t ht ↦ h.completed t (List.mem_of_mem_eraseIdx ht)⟩
          rcases continueWrite_cases role x { s with completed := s.completed.eraseIdx i } with
            ⟨b, hs⟩ | ⟨b, hs⟩ | ⟨_, hs⟩ <;> rw [hs]
          · exact herased.isSending b
          · exact herased.close.isSending b
          · exact herased.asyncWriteSome (h.completed x (List.mem_of_getElem? hi))
  | close =>
      cases Option.some.inj hstep
      exact h.close
  | expire =>
      cases Option.some.inj hstep
      exact ⟨h.wire, h.issued, h.completed⟩

theorem genuine_of_reachable (h : (system role).Reachable anyStep s) : Genuine s := by
  apply h.invariant (I := Genuine)
  · rintro s rfl
    exact ⟨by simp [connected], by simp [connected], by simp [connected]⟩
  · intro s a t hs _ hstep
    exact genuine_step hs hstep

end TcpSend

namespace TcpLent

open TransitionSystem
open TcpSend (Role bytesLeft bytesLeft_eq)

/-- An `async_write` of `boost::asio::buffer(_data, _size)`. -/
structure Write where
  buffer : Span
  transferred : ℕ
  size_lt : buffer.size < 2 ^ 32
  transferred_le : transferred ≤ buffer.size
  deriving DecidableEq, Repr

structure WriteSome where
  write : Write
  maxSize : ℕ
  deriving DecidableEq, Repr

structure Transfer where
  write : Write
  error : ErrorCode
  bytes : ℕ
  fits : write.transferred + bytes ≤ write.buffer.size
  deriving DecidableEq, Repr

def Write.start (buffer : Span) (h : buffer.size < 2 ^ 32) : Write := ⟨buffer, 0, h, Nat.zero_le _⟩

def Write.rest (w : Write) : Span := w.buffer.drop w.transferred

namespace WriteSome

def offered (w : WriteSome) : Span := w.write.rest.take w.maxSize

theorem size_offered_le (w : WriteSome) :
    w.write.transferred + w.offered.size ≤ w.write.buffer.size := by
  have htransferred := w.write.transferred_le
  simp only [offered, Write.rest, Span.take, Span.drop]
  omega

def transfer (w : WriteSome) (n : ℕ) (h : n ≤ w.offered.size) : Transfer :=
  ⟨w.write, .success, n, by have := w.size_offered_le; omega⟩

def fail (w : WriteSome) (error : ErrorCode) : Transfer :=
  ⟨w.write, error, 0, w.write.transferred_le⟩

end WriteSome

namespace Transfer

def consumed (t : Transfer) : Write :=
  ⟨t.write.buffer, t.write.transferred + t.bytes, t.write.size_lt, t.fits⟩

def ends (t : Transfer) : Bool :=
  (t.error = .success && t.bytes = 0) || t.consumed.rest.size = 0

def continues (t : Transfer) : Bool := t.error = .success && !t.ends

theorem read_consumed (t : Transfer) (memory : ℕ → UInt8) :
    t.consumed.rest.read memory = (t.write.rest.read memory).drop t.bytes := by
  simp [consumed, Write.rest, List.drop_drop]

end Transfer

/-- One TCP socket with the writes in flight on it, and the memory of the
process; `sent` is what the messages were when they were passed to
`send_data`. -/
structure Outbound where
  memory : ℕ → UInt8
  isOpen : Bool
  serverAlive : Bool
  isSending : Bool
  issued : List WriteSome
  completed : List Transfer
  wire : List UInt8
  sent : List (List UInt8)

def connected (memory : ℕ → UInt8) : Outbound := ⟨memory, true, true, false, [], [], [], []⟩

def close (s : Outbound) : Outbound :=
  { s with
    isOpen := false
    issued := []
    completed := s.completed ++ s.issued.map fun w ↦ w.fail .operationAborted }

def asyncWriteSome (w : WriteSome) (s : Outbound) : Outbound :=
  if s.isOpen then { s with issued := s.issued ++ [w] }
  else { s with completed := s.completed ++ [w.fail .badDescriptor] }

namespace Server.Connection

def stopAndRemoveConnection (s : Outbound) : Outbound :=
  if s.serverAlive then close s else s

def writeCompletionCondition (error : ErrorCode) (bytesTransferred bytesToSend : ℕ)
    (s : Outbound) : ℕ × Outbound :=
  if error ≠ .success then (0, stopAndRemoveConnection s)
  else (bytesLeft bytesToSend bytesTransferred, s)

end Server.Connection

def Client.Tcp.writeCompletionCondition (error : ErrorCode) (bytesTransferred bytesToSend : ℕ)
    (s : Outbound) : ℕ × Outbound :=
  if error ≠ .success then (0, s) else (bytesLeft bytesToSend bytesTransferred, s)

def writeCompletionCondition : Role → ErrorCode → ℕ → ℕ → Outbound → ℕ × Outbound
  | .server => Server.Connection.writeCompletionCondition
  | .client => Client.Tcp.writeCompletionCondition

def asyncWrite (role : Role) (w : Write) (s : Outbound) : Outbound :=
  let (maxSize, s) := writeCompletionCondition role .success w.transferred w.buffer.size s
  asyncWriteSome ⟨w, maxSize⟩ s

def Server.Connection.sendData (w : Write) (s : Outbound) : Outbound :=
  if s.serverAlive then asyncWrite .server w { s with isSending := true } else s

def Client.Tcp.sendData (w : Write) (s : Outbound) : Outbound :=
  if s.isOpen then asyncWrite .client w { s with isSending := true } else s

def sendData : Role → Write → Outbound → Outbound
  | .server => Server.Connection.sendData
  | .client => Client.Tcp.sendData

def sendCbk (role : Role) (s : Outbound) : Outbound :=
  match role with
  | .server => { s with isSending := false }
  | .client => s

def continueWrite (role : Role) (t : Transfer) (s : Outbound) : Outbound :=
  if t.ends then sendCbk role s
  else
    let w := t.consumed
    let (maxSize, s) := writeCompletionCondition role t.error w.transferred w.buffer.size s
    if maxSize = 0 then sendCbk role s else asyncWriteSome ⟨w, maxSize⟩ s

/-! ## Runs -/

inductive Action where
  | send (buffer : Span)
  /-- The process overwrites one byte of its memory. -/
  | store (address : ℕ) (byte : UInt8)
  | transfer (n : ℕ)
  | fail (error : ErrorCode)
  | resume (i : ℕ)
  | close
  | expire
  deriving DecidableEq, Repr

def step (role : Role) (s : Outbound) : Action → Option Outbound
  | .send buffer =>
      if h : buffer.size < 2 ^ 32 then
        some (sendData role (.start buffer h) { s with sent := s.sent ++ [buffer.read s.memory] })
      else none
  | .store address byte => some { s with memory := Function.update s.memory address byte }
  | .transfer n =>
      match s.issued with
      | [] => none
      | w :: rest =>
          if h : n ≤ w.offered.size then
            if n = 0 ∧ w.offered.size ≠ 0 then none
            else
              some { s with
                issued := rest
                completed := s.completed ++ [w.transfer n h]
                wire := s.wire ++ (w.offered.take n).read s.memory }
          else none
  | .fail error =>
      match s.issued with
      | [] => none
      | w :: rest =>
          if error = .success then none
          else some { s with issued := rest, completed := s.completed ++ [w.fail error] }
  | .resume i =>
      match s.completed[i]? with
      | none => none
      | some t => some (continueWrite role t { s with completed := s.completed.eraseIdx i })
  | .close => some (close s)
  | .expire => some { s with serverAlive := false }

def system (role : Role) : TransitionSystem Outbound Action where
  initial s := ∃ memory, s = connected memory
  step := step role

/-- A byte that a write in flight still has to read. -/
def lent (s : Outbound) (address : ℕ) : Bool :=
  (s.issued.any fun w ↦ w.write.rest.covers address) ||
    (s.isOpen && s.completed.any fun t ↦ t.continues && t.consumed.rest.covers address)

/-- Nothing that is lent is overwritten with something else. -/
def keepsLent (s : Outbound) : Action → Bool
  | .store address byte => !lent s address || s.memory address = byte
  | _ => true

/-- The process sends nothing more and overwrites nothing. -/
def callerWaits (_ : Outbound) : Action → Prop
  | .send _ | .store _ _ => False
  | .transfer _ | .fail _ | .resume _ | .close | .expire => True

/-! ## Refinement -/

/-- The same write, apart from where its bytes are. -/
structure Write.Same (w : Write) (v : Asio.Write) : Prop where
  size : v.message.length = w.buffer.size
  transferred : v.transferred = w.transferred

structure WriteSome.Means (memory : ℕ → UInt8) (w : WriteSome) (v : Asio.WriteSome) : Prop where
  write : w.write.Same v.write
  maxSize : v.maxSize = w.maxSize
  bytes : w.write.rest.read memory = v.write.rest

/-- A completed operation reads memory again only if its write is continued. -/
structure Transfer.Means (memory : ℕ → UInt8) (isOpen : Bool) (t : Transfer)
    (u : Asio.Transfer) : Prop where
  write : t.write.Same u.write
  error : u.error = t.error
  count : u.bytes = t.bytes
  bytes : isOpen = true → t.continues = true → t.consumed.rest.read memory = u.consumed.rest

/-- The endpoint `v`, whose writes hold their messages, is in the state of `s`. -/
structure Refines (s : Outbound) (v : TcpSend.Outbound) : Prop where
  isOpen : v.isOpen = s.isOpen
  serverAlive : v.serverAlive = s.serverAlive
  isSending : v.isSending = s.isSending
  issued : List.Forall₂ (WriteSome.Means s.memory) s.issued v.issued
  completed : List.Forall₂ (Transfer.Means s.memory s.isOpen) s.completed v.completed
  wire : v.wire = s.wire
  sent : v.sent = s.sent

variable {role : Role} {s t : Outbound} {v : TcpSend.Outbound} {memory : ℕ → UInt8}

theorem Write.Same.size_rest {w : Write} {x : Asio.Write} (h : w.Same x) :
    x.rest.length = w.rest.size := by
  rw [Asio.Write.length_rest, h.size, h.transferred]
  rfl

theorem Transfer.Means.consumed {isOpen : Bool} {x : Transfer} {y : Asio.Transfer}
    (h : Transfer.Means memory isOpen x y) : x.consumed.Same y.consumed :=
  ⟨h.write.size, by simp [Transfer.consumed, Asio.Transfer.consumed, h.write.transferred, h.count]⟩

theorem Transfer.Means.ends {isOpen : Bool} {x : Transfer} {y : Asio.Transfer}
    (h : Transfer.Means memory isOpen x y) : y.ends = x.ends := by
  have hsize := h.consumed.size_rest
  have hempty : y.consumed.rest.isEmpty = decide (x.consumed.rest.size = 0) := by
    rw [← hsize]
    cases y.consumed.rest <;> simp
  simp only [Asio.Transfer.ends, Transfer.ends, h.error, h.count, hempty]

theorem means_fail {isOpen : Bool} {w : WriteSome} {x : Asio.WriteSome}
    (h : w.write.Same x.write) {error : ErrorCode} (herror : error ≠ .success) :
    Transfer.Means memory isOpen (w.fail error) (x.fail error) :=
  ⟨h, rfl, rfl, fun _ hc ↦ by simp [Transfer.continues, WriteSome.fail, herror] at hc⟩

theorem WriteSome.Means.offered {w : WriteSome} {x : Asio.WriteSome}
    (h : WriteSome.Means memory w x) : w.offered.read memory = x.offered := by
  rw [WriteSome.offered, Span.read_take, h.bytes, ← h.maxSize]
  rfl

theorem Refines.isSending_eq (h : Refines s v) (b : Bool) :
    Refines { s with isSending := b } { v with isSending := b } :=
  ⟨h.isOpen, h.serverAlive, rfl, h.issued, h.completed, h.wire, h.sent⟩

theorem Refines.close (h : Refines s v) : Refines (close s) (TcpSend.close v) := by
  refine ⟨rfl, h.serverAlive, h.isSending, .nil, ?_, h.wire, h.sent⟩
  apply List.rel_append
  · refine h.completed.imp fun x y hxy ↦ ⟨hxy.write, hxy.error, hxy.count, ?_⟩
    intro hopen
    simp [TcpLent.close] at hopen
  · rw [List.forall₂_map_left_iff, List.forall₂_map_right_iff]
    exact h.issued.imp fun w x hwx ↦ means_fail hwx.write (by decide)

theorem Refines.asyncWriteSome (h : Refines s v) {w : WriteSome} {x : Asio.WriteSome}
    (hw : w.write.Same x.write) (hmax : x.maxSize = w.maxSize)
    (hbytes : s.isOpen = true → w.write.rest.read s.memory = x.write.rest) :
    Refines (asyncWriteSome w s) (TcpSend.asyncWriteSome x v) := by
  unfold TcpLent.asyncWriteSome TcpSend.asyncWriteSome
  by_cases hopen : s.isOpen = true
  · rw [if_pos hopen, if_pos (h.isOpen.trans hopen)]
    refine ⟨h.isOpen, h.serverAlive, h.isSending, ?_, h.completed, h.wire, h.sent⟩
    exact List.rel_append h.issued (.cons ⟨hw, hmax, hbytes hopen⟩ .nil)
  · rw [if_neg hopen, if_neg (h.isOpen ▸ hopen)]
    refine ⟨h.isOpen, h.serverAlive, h.isSending, h.issued, ?_, h.wire, h.sent⟩
    exact List.rel_append h.completed (.cons (means_fail hw (by decide)) .nil)

theorem Refines.writeCompletionCondition (h : Refines s v) (role : Role) (error : ErrorCode)
    (bytesTransferred bytesToSend : ℕ) :
    (TcpSend.writeCompletionCondition role error bytesTransferred bytesToSend v).1 =
        (writeCompletionCondition role error bytesTransferred bytesToSend s).1 ∧
      Refines (writeCompletionCondition role error bytesTransferred bytesToSend s).2
        (TcpSend.writeCompletionCondition role error bytesTransferred bytesToSend v).2 := by
  cases role with
  | server =>
      simp only [TcpLent.writeCompletionCondition, Server.Connection.writeCompletionCondition,
        TcpSend.writeCompletionCondition, TcpSend.Server.Connection.writeCompletionCondition,
        Server.Connection.stopAndRemoveConnection,
        TcpSend.Server.Connection.stopAndRemoveConnection, h.serverAlive]
      split_ifs
      · exact ⟨rfl, h.close⟩
      · exact ⟨rfl, h⟩
      · exact ⟨rfl, h⟩
  | client =>
      simp only [TcpLent.writeCompletionCondition, Client.Tcp.writeCompletionCondition,
        TcpSend.writeCompletionCondition, TcpSend.Client.Tcp.writeCompletionCondition]
      split_ifs
      · exact ⟨rfl, h⟩
      · exact ⟨rfl, h⟩

theorem writeCompletionCondition_success (role : Role) (w : Write) (s : Outbound) :
    writeCompletionCondition role .success w.transferred w.buffer.size s =
      (w.rest.size, s) := by
  have hleft := bytesLeft_eq w.transferred_le w.size_lt
  cases role <;>
    simp [writeCompletionCondition, Server.Connection.writeCompletionCondition,
      Client.Tcp.writeCompletionCondition, hleft, Write.rest, Span.drop]

/-- A write offers all that it has left. -/
def offerRest (w : Write) : WriteSome := ⟨w, w.rest.size⟩

theorem offered_offerRest (w : Write) : (offerRest w).offered = w.rest :=
  Span.take_of_size_le (le_refl _)

theorem asyncWrite_eq (role : Role) (w : Write) (s : Outbound) :
    asyncWrite role w s = asyncWriteSome (offerRest w) s := by
  simp only [asyncWrite, writeCompletionCondition_success]
  rfl

theorem Refines.offer (h : Refines s v) {w : Write} {x : Asio.Write} (hw : w.Same x)
    (hbytes : s.isOpen = true → w.rest.read s.memory = x.rest) :
    Refines (TcpLent.asyncWriteSome (offerRest w) s)
      (TcpSend.asyncWriteSome (TcpSend.offerRest x) v) :=
  h.asyncWriteSome (w := offerRest w) (x := TcpSend.offerRest x) hw hw.size_rest hbytes

theorem Refines.sendData (h : Refines s v) (role : Role) {w : Write} {x : Asio.Write}
    (hw : w.Same x) (hbytes : w.rest.read s.memory = x.rest) :
    Refines (sendData role w s) (TcpSend.sendData role x v) := by
  have hraised := (h.isSending_eq true).offer hw fun _ ↦ hbytes
  cases role with
  | server =>
      simp only [TcpLent.sendData, Server.Connection.sendData, TcpSend.sendData,
        TcpSend.Server.Connection.sendData, asyncWrite_eq, TcpSend.asyncWrite_eq]
      by_cases halive : s.serverAlive = true
      · rwa [if_pos halive, if_pos (h.serverAlive.trans halive)]
      · rwa [if_neg halive, if_neg (h.serverAlive ▸ halive)]
  | client =>
      simp only [TcpLent.sendData, Client.Tcp.sendData, TcpSend.sendData,
        TcpSend.Client.Tcp.sendData, asyncWrite_eq, TcpSend.asyncWrite_eq]
      by_cases hopen : s.isOpen = true
      · rwa [if_pos hopen, if_pos (h.isOpen.trans hopen)]
      · rwa [if_neg hopen, if_neg (h.isOpen ▸ hopen)]

theorem Refines.sendCbk (h : Refines s v) (role : Role) :
    Refines (sendCbk role s) (TcpSend.sendCbk role v) := by
  cases role with
  | server => exact h.isSending_eq false
  | client => exact h

/-- What running the handler of a completed operation does. -/
theorem continueWrite_eq (role : Role) (t : Transfer) (s : Outbound) :
    continueWrite role t s =
      if t.ends then sendCbk role s
      else if t.error = .success then asyncWriteSome (offerRest t.consumed) s
      else sendCbk role (writeCompletionCondition role t.error t.consumed.transferred
        t.consumed.buffer.size s).2 := by
  unfold continueWrite
  split_ifs with hends he
  · rfl
  · have hrest : t.consumed.rest.size ≠ 0 := by
      intro hzero
      simp [Transfer.ends, hzero] at hends
    simp only [he, writeCompletionCondition_success, if_neg hrest]
    rfl
  · have hzero : (writeCompletionCondition role t.error t.consumed.transferred
        t.consumed.buffer.size s).1 = 0 := by
      cases role <;> simp [writeCompletionCondition, he,
        Server.Connection.writeCompletionCondition, Client.Tcp.writeCompletionCondition]
    simp only [hzero, ↓reduceIte]

theorem sendContinueWrite_eq (role : Role) (t : Asio.Transfer) (v : TcpSend.Outbound) :
    TcpSend.continueWrite role t v =
      if t.ends then TcpSend.sendCbk role v
      else if t.error = .success then TcpSend.asyncWriteSome (TcpSend.offerRest t.consumed) v
      else TcpSend.sendCbk role (TcpSend.writeCompletionCondition role t.error
        t.consumed.transferred t.consumed.message.length v).2 := by
  unfold TcpSend.continueWrite
  split_ifs with hends he
  · rfl
  · have hrest : t.consumed.rest.length ≠ 0 := by
      intro hzero
      simp [Asio.Transfer.ends, List.length_eq_zero_iff.mp hzero] at hends
    simp only [he, TcpSend.writeCompletionCondition_success, if_neg hrest]
    rfl
  · rcases TcpSend.writeCompletionCondition_error role he t.consumed.transferred
      t.consumed.message.length v with hw | hw <;> simp only [hw, ↓reduceIte]

theorem Refines.continueWrite (h : Refines s v) (role : Role) {x : Transfer} {y : Asio.Transfer}
    (hxy : Transfer.Means s.memory s.isOpen x y) :
    Refines (continueWrite role x s) (TcpSend.continueWrite role y v) := by
  have hsame := hxy.consumed
  rw [continueWrite_eq, sendContinueWrite_eq, hxy.ends, hxy.error, hsame.size, hsame.transferred]
  split_ifs with hends he
  · exact h.sendCbk role
  · have hcontinues : x.continues = true := by simp [Transfer.continues, he, hends]
    exact h.offer hsame fun hopen ↦ hxy.bytes hopen hcontinues
  · exact (h.writeCompletionCondition role x.error _ _).2.sendCbk role

/-- A store into memory that is not lent does not show in the writes. -/
theorem Refines.store (h : Refines s v) {address : ℕ} (hfree : lent s address = false)
    (byte : UInt8) :
    Refines { s with memory := Function.update s.memory address byte } v := by
  simp only [lent, Bool.or_eq_false_iff, List.any_eq_false, Bool.not_eq_true] at hfree
  obtain ⟨hissued, hcompleted⟩ := hfree
  refine ⟨h.isOpen, h.serverAlive, h.isSending, ?_, ?_, h.wire, h.sent⟩
  · refine ((List.forall₂_and_left _ _).mpr ⟨hissued, h.issued⟩).imp ?_
    rintro w x ⟨hw, hwx⟩
    exact ⟨hwx.write, hwx.maxSize, (Span.read_update_of_not_covers hw byte).trans hwx.bytes⟩
  · have hread : ∀ x ∈ s.completed, s.isOpen = true → x.continues = true →
        x.consumed.rest.covers address = false := by
      intro x hx hopen hcontinues
      rw [hopen, Bool.true_and, List.any_eq_false] at hcompleted
      simpa [hcontinues] using hcompleted x hx
    refine ((List.forall₂_and_left _ _).mpr ⟨hread, h.completed⟩).imp ?_
    rintro x y ⟨hx, hxy⟩
    refine ⟨hxy.write, hxy.error, hxy.count, fun hopen hcontinues ↦ ?_⟩
    exact (Span.read_update_of_not_covers (hx hopen hcontinues) byte).trans
      (hxy.bytes hopen hcontinues)

theorem Refines.send (h : Refines s v) (role : Role) {buffer : Span}
    (hsize : buffer.size < 2 ^ 32) : ∃ v', (TcpSend.system role).Leads anyStep v v' ∧
      Refines (TcpLent.sendData role (.start buffer hsize)
        { s with sent := s.sent ++ [buffer.read s.memory] }) v' := by
  have hlength : (buffer.read s.memory).length < 2 ^ 32 := by rwa [Span.length_read]
  have hstep : TcpSend.step role v (.send (buffer.read s.memory)) =
      some (TcpSend.sendData role (.start (buffer.read s.memory) hlength)
        { v with sent := v.sent ++ [buffer.read s.memory] }) := by
    simp only [TcpSend.step, dif_pos hlength]
  have hpassed : Refines { s with sent := s.sent ++ [buffer.read s.memory] }
      { v with sent := v.sent ++ [buffer.read s.memory] } :=
    ⟨h.isOpen, h.serverAlive, h.isSending, h.issued, h.completed, h.wire, by rw [h.sent]⟩
  refine ⟨_, (Leads.refl v).snoc (a := .send (buffer.read s.memory)) trivial hstep,
    hpassed.sendData role ?_ ?_⟩
  · exact ⟨Span.length_read buffer s.memory, rfl⟩
  · simp [Write.start, Write.rest]

/-- The oldest operation ends, with its bytes as the memory holds them. -/
theorem Refines.take (h : Refines s v) {w : WriteSome} {rest : List WriteSome}
    (hissued : s.issued = w :: rest) : ∃ x rest', v.issued = x :: rest' ∧
      WriteSome.Means s.memory w x ∧
      ∀ (u : Transfer) (u' : Asio.Transfer) (wire wire' : List UInt8), wire' = wire →
        Transfer.Means s.memory s.isOpen u u' →
        Refines { s with issued := rest, completed := s.completed ++ [u], wire := wire }
          { v with issued := rest', completed := v.completed ++ [u'], wire := wire' } := by
  have hall := h.issued
  rw [hissued, List.forall₂_cons_left_iff] at hall
  obtain ⟨x, rest', hwx, hrest, hv⟩ := hall
  refine ⟨x, rest', hv, hwx, fun u u' wire wire' hwire hu ↦ ?_⟩
  exact ⟨h.isOpen, h.serverAlive, h.isSending, hrest, List.rel_append h.completed (.cons hu .nil),
    hwire, h.sent⟩

theorem Refines.step (h : Refines s v) {a : Action} (hguard : keepsLent s a = true)
    (hstep : step role s a = some t) :
    ∃ v', (TcpSend.system role).Leads anyStep v v' ∧ Refines t v' := by
  cases a with
  | send buffer =>
      simp only [TcpLent.step] at hstep
      split_ifs at hstep with hsize
      cases Option.some.inj hstep
      exact h.send role hsize
  | store address byte =>
      cases Option.some.inj hstep
      refine ⟨v, Leads.refl v, ?_⟩
      simp only [keepsLent, Bool.or_eq_true, Bool.not_eq_true', decide_eq_true_eq] at hguard
      rcases hguard with hfree | hsame
      · exact h.store hfree byte
      · rwa [← hsame, Function.update_eq_self]
  | transfer n =>
      simp only [TcpLent.step] at hstep
      cases hissued : s.issued with
      | nil => simp [hissued] at hstep
      | cons w rest =>
          simp only [hissued] at hstep
          split_ifs at hstep with hn hzero
          cases Option.some.inj hstep
          obtain ⟨x, rest', hv, hwx, hnext⟩ := h.take hissued
          have hoffered := hwx.offered
          have hlength : x.offered.length = w.offered.size := by
            rw [← hoffered, Span.length_read]
          have hfits : n ≤ x.offered.length := hlength.symm ▸ hn
          have hempty : ¬(n = 0 ∧ x.offered ≠ []) := by
            rwa [ne_eq, ← List.length_eq_zero_iff, hlength]
          have hvstep : TcpSend.step role v (.transfer n) = some { v with
              issued := rest'
              completed := v.completed ++ [x.transfer n hfits]
              wire := v.wire ++ x.offered.take n } := by
            simp only [TcpSend.step, hv, dif_pos hfits, if_neg hempty]
          refine ⟨_, (Leads.refl v).snoc (a := .transfer n) trivial hvstep, ?_⟩
          have hwire : v.wire ++ x.offered.take n = s.wire ++ (w.offered.take n).read s.memory := by
            rw [Span.read_take, hoffered, h.wire]
          refine hnext _ _ _ _ hwire ⟨hwx.write, rfl, rfl, fun _ _ ↦ ?_⟩
          rw [Transfer.read_consumed, Asio.Transfer.consumed_rest]
          exact congrArg (List.drop n) hwx.bytes
  | fail error =>
      simp only [TcpLent.step] at hstep
      cases hissued : s.issued with
      | nil => simp [hissued] at hstep
      | cons w rest =>
          simp only [hissued] at hstep
          split_ifs at hstep with herror
          cases Option.some.inj hstep
          obtain ⟨x, rest', hv, hwx, hnext⟩ := h.take hissued
          have hvstep : TcpSend.step role v (.fail error) = some { v with
              issued := rest', completed := v.completed ++ [x.fail error] } := by
            simp only [TcpSend.step, hv, if_neg herror]
          exact ⟨_, (Leads.refl v).snoc (a := .fail error) trivial hvstep,
            hnext _ _ _ _ h.wire (means_fail hwx.write herror)⟩
  | resume i =>
      simp only [TcpLent.step] at hstep
      cases hi : s.completed[i]? with
      | none => simp [hi] at hstep
      | some x =>
          simp only [hi] at hstep
          cases Option.some.inj hstep
          obtain ⟨y, hy, hxy⟩ := InFlight.getElem?_of_forall₂ h.completed hi
          have hvstep : TcpSend.step role v (.resume i) = some (TcpSend.continueWrite role y
              { v with completed := v.completed.eraseIdx i }) := by
            simp only [TcpSend.step, hy]
          have herased : Refines { s with completed := s.completed.eraseIdx i }
              { v with completed := v.completed.eraseIdx i } :=
            ⟨h.isOpen, h.serverAlive, h.isSending, h.issued,
              InFlight.eraseIdx_forall₂ h.completed i, h.wire, h.sent⟩
          exact ⟨_, (Leads.refl v).snoc (a := .resume i) trivial hvstep,
            herased.continueWrite role hxy⟩
  | close =>
      cases Option.some.inj hstep
      exact ⟨_, (Leads.refl v).snoc (a := .close) trivial rfl, h.close⟩
  | expire =>
      cases Option.some.inj hstep
      exact ⟨_, (Leads.refl v).snoc (a := .expire) trivial rfl,
        h.isOpen, rfl, h.isSending, h.issued, h.completed, h.wire, h.sent⟩

theorem refines_of_reachable
    (h : (system role).Reachable (fun s a ↦ keepsLent s a = true) s) :
    ∃ v, (TcpSend.system role).Reachable anyStep v ∧ Refines s v := by
  obtain ⟨s₀, ⟨memory, rfl⟩, hs⟩ := h
  have hinitial : Refines (connected memory) TcpSend.connected :=
    ⟨rfl, rfl, rfl, .nil, .nil, rfl, rfl⟩
  obtain ⟨v, hv, hrefines⟩ := hs.simulated (N := TcpSend.system role) (R := Refines)
    (fun _ _ _ _ hR hguard hstep ↦ hR.step hguard hstep) hinitial
  exact ⟨v, ⟨TcpSend.connected, rfl, hv⟩, hrefines⟩

/-! ## Overwriting what is lent -/

/-- The operations on an open socket offer all that their writes have left. -/
structure Whole (s : Outbound) : Prop where
  closed : s.isOpen = false → s.issued = []
  offered : ∀ w ∈ s.issued, w.offered = w.write.rest

theorem Whole.close (s : Outbound) : Whole (close s) :=
  ⟨fun _ ↦ rfl, by simp [TcpLent.close]⟩

theorem Whole.asyncWriteSome (h : Whole s) (w : Write) :
    Whole (asyncWriteSome (offerRest w) s) := by
  unfold TcpLent.asyncWriteSome
  split_ifs with hopen
  · refine ⟨fun hclosed ↦ absurd (hopen.symm.trans hclosed) (by decide), fun a ha ↦ ?_⟩
    rcases List.mem_append.mp ha with ha | ha
    · exact h.offered a ha
    · rw [List.mem_singleton.mp ha]
      exact offered_offerRest w
  · exact ⟨h.closed, h.offered⟩

theorem Whole.sendCbk (h : Whole s) (role : Role) : Whole (sendCbk role s) := by
  cases role with
  | server => exact ⟨h.closed, h.offered⟩
  | client => exact h

theorem Whole.writeCompletionCondition (h : Whole s) (role : Role) (error : ErrorCode)
    (bytesTransferred bytesToSend : ℕ) :
    Whole (writeCompletionCondition role error bytesTransferred bytesToSend s).2 := by
  cases role with
  | server =>
      simp only [TcpLent.writeCompletionCondition, Server.Connection.writeCompletionCondition,
        Server.Connection.stopAndRemoveConnection]
      split_ifs
      · exact Whole.close s
      · exact h
      · exact h
  | client =>
      simp only [TcpLent.writeCompletionCondition, Client.Tcp.writeCompletionCondition]
      split_ifs <;> exact h

theorem Whole.sendData (h : Whole s) (role : Role) (w : Write) : Whole (sendData role w s) := by
  have hraised : Whole { s with isSending := true } := ⟨h.closed, h.offered⟩
  cases role with
  | server =>
      simp only [TcpLent.sendData, Server.Connection.sendData, asyncWrite_eq]
      split_ifs
      · exact hraised.asyncWriteSome w
      · exact h
  | client =>
      simp only [TcpLent.sendData, Client.Tcp.sendData, asyncWrite_eq]
      split_ifs
      · exact hraised.asyncWriteSome w
      · exact h

theorem Whole.tail (h : Whole s) {w : WriteSome} {rest : List WriteSome}
    (hissued : s.issued = w :: rest) (completed : List Transfer) (wire : List UInt8) :
    Whole { s with issued := rest, completed := completed, wire := wire } := by
  refine ⟨fun hclosed ↦ ?_, fun a ha ↦ h.offered a (hissued ▸ List.mem_cons_of_mem w ha)⟩
  have hnone := h.closed hclosed
  simp [hissued] at hnone

theorem whole_step (h : Whole s) {a : Action} (hstep : step role s a = some t) : Whole t := by
  cases a with
  | send buffer =>
      simp only [step] at hstep
      split_ifs at hstep
      cases Option.some.inj hstep
      have hpassed : Whole { s with sent := s.sent ++ [buffer.read s.memory] } :=
        ⟨h.closed, h.offered⟩
      exact hpassed.sendData role _
  | store address byte | expire =>
      cases Option.some.inj hstep
      exact ⟨h.closed, h.offered⟩
  | transfer n =>
      simp only [step] at hstep
      cases hissued : s.issued with
      | nil => simp [hissued] at hstep
      | cons w rest =>
          simp only [hissued] at hstep
          split_ifs at hstep
          cases Option.some.inj hstep
          exact h.tail hissued _ _
  | fail error =>
      simp only [step] at hstep
      cases hissued : s.issued with
      | nil => simp [hissued] at hstep
      | cons w rest =>
          simp only [hissued] at hstep
          split_ifs at hstep
          cases Option.some.inj hstep
          exact h.tail hissued _ _
  | resume i =>
      simp only [step] at hstep
      cases hi : s.completed[i]? with
      | none => simp [hi] at hstep
      | some x =>
          simp only [hi] at hstep
          cases Option.some.inj hstep
          have herased : Whole { s with completed := s.completed.eraseIdx i } :=
            ⟨h.closed, h.offered⟩
          rw [continueWrite_eq]
          split_ifs
          · exact herased.sendCbk role
          · exact herased.asyncWriteSome x.consumed
          · exact (herased.writeCompletionCondition role _ _ _).sendCbk role
  | close =>
      cases Option.some.inj hstep
      exact Whole.close s

theorem whole_of_reachable {allowed : Outbound → Action → Prop}
    (h : (system role).Reachable allowed s) : Whole s := by
  apply h.invariant (I := Whole)
  · rintro s ⟨memory, rfl⟩
    exact ⟨fun _ ↦ rfl, by simp [connected]⟩
  · intro s a t hs _ hstep
    exact whole_step hs hstep

/-- The socket may take everything that is offered to it, as the memory is now. -/
theorem leads_flush (role : Role) (s : Outbound) : ∃ u, (system role).Leads callerWaits s u ∧
    u.wire = s.wire ++ s.issued.flatMap (fun w ↦ w.offered.read s.memory) ∧
    u.sent = s.sent := by
  induction hissued : s.issued generalizing s with
  | nil => exact ⟨s, Leads.refl s, by simp, rfl⟩
  | cons w rest ih =>
      obtain ⟨u, hu, hwire, hsent⟩ := ih { s with
        issued := rest
        completed := s.completed ++ [w.transfer w.offered.size le_rfl]
        wire := s.wire ++ (w.offered.take w.offered.size).read s.memory } rfl
      have hstep : (system role).step s (.transfer w.offered.size) = some { s with
          issued := rest
          completed := s.completed ++ [w.transfer w.offered.size le_rfl]
          wire := s.wire ++ (w.offered.take w.offered.size).read s.memory } := by
        simp only [system, step, hissued]
        rw [dif_pos le_rfl, if_neg (fun h ↦ h.2 h.1)]
      refine ⟨u, ((Leads.refl s).snoc trivial hstep).trans hu, ?_, hsent⟩
      rw [hwire, Span.take_of_size_le le_rfl, List.flatMap_cons, List.append_assoc]

/-- A byte that a write still has to read may be sent, and no caller has to do anything
for it. -/
theorem sends_lent (role : Role) (h : Whole s) {address : ℕ} (hlent : lent s address = true) :
    ∃ u later, (system role).Leads callerWaits s u ∧ u.wire = s.wire ++ later ∧
      s.memory address ∈ later ∧ u.sent = s.sent := by
  rcases Bool.or_eq_true_iff.mp hlent with hissued | hcompleted
  · obtain ⟨w, hw, hcovers⟩ := List.any_eq_true.mp hissued
    obtain ⟨u, hu, hwire, hsent⟩ := leads_flush role s
    refine ⟨u, _, hu, hwire, List.mem_flatMap.mpr ⟨w, hw, ?_⟩, hsent⟩
    exact h.offered w hw ▸ Span.mem_read hcovers
  · obtain ⟨hopen, hany⟩ := Bool.and_eq_true_iff.mp hcompleted
    obtain ⟨x, hx, hboth⟩ := List.any_eq_true.mp hany
    obtain ⟨hcontinues, hcovers⟩ := Bool.and_eq_true_iff.mp hboth
    obtain ⟨i, hi⟩ := List.mem_iff_getElem?.mp hx
    obtain ⟨hsuccess, hnot⟩ : x.error = .success ∧ x.ends = false := by
      simpa [Transfer.continues] using hcontinues
    let r : Outbound := { s with
      completed := s.completed.eraseIdx i, issued := s.issued ++ [offerRest x.consumed] }
    have hstep : (system role).step s (.resume i) = some r := by
      simp only [system, step, hi, continueWrite_eq, hnot, hsuccess, Bool.false_eq_true,
        ↓reduceIte, asyncWriteSome, if_pos hopen, r]
    obtain ⟨u, hu, hwire, hsent⟩ := leads_flush role r
    refine ⟨u, _, ((Leads.refl s).snoc trivial hstep).trans hu, hwire, ?_, hsent⟩
    refine List.mem_flatMap.mpr ⟨offerRest x.consumed, by simp [r], ?_⟩
    rw [offered_offerRest]
    exact Span.mem_read hcovers

/-- While no caller overwrites a byte that a write in flight still has to read,
an endpoint that keeps pointers behaves like one that copied its messages, and
sends nothing that was not passed to `send_data`.  After the first store that
changes such a byte, the run can go on without the callers until the new byte is
sent. -/
theorem sends_what_was_lent (role : Role)
    (h : (system role).Reachable (fun s a ↦ keepsLent s a = true) s) :
    (∃ v, (TcpSend.system role).Reachable anyStep v ∧ Refines s v) ∧
      s.wire ⊆ s.sent.flatten ∧
      ∀ address byte t, step role s (.store address byte) = some t →
        keepsLent s (.store address byte) = false →
        ∃ u later, (system role).Leads callerWaits t u ∧ u.wire = s.wire ++ later ∧
          byte ∈ later ∧ u.sent = s.sent := by
  obtain ⟨v, hv, hrefines⟩ := refines_of_reachable h
  refine ⟨⟨v, hv, hrefines⟩, ?_, ?_⟩
  · have hgenuine := (TcpSend.genuine_of_reachable hv).wire
    rwa [hrefines.wire, hrefines.sent] at hgenuine
  · intro address byte t hstep hguard
    cases Option.some.inj hstep
    simp only [keepsLent, Bool.or_eq_false_iff, Bool.not_eq_eq_eq_not, Bool.not_false] at hguard
    let t : Outbound := { s with memory := Function.update s.memory address byte }
    have hlent : lent t address = true := hguard.1
    have hwhole : Whole t := ⟨(whole_of_reachable h).closed, (whole_of_reachable h).offered⟩
    obtain ⟨u, later, hu, hwire, hmem, hsent⟩ := sends_lent role hwhole hlent
    have hbyte : t.memory address = byte := Function.update_self address byte s.memory
    exact ⟨u, later, hu, hwire, hbyte ▸ hmem, hsent⟩

/-- The first byte of a message is overwritten in time, once it has been read,
and the second one too early. -/
theorem sends_what_was_lent_cut : ∃ s t u, (system .client).run
    (fun s a ↦ keepsLent s a = true)
    [.send ⟨4, 2⟩, .transfer 1, .store 4 0, .resume 0] (connected UInt8.ofNat) = some s ∧
      s.wire = [4] ∧ s.wire ⊆ s.sent.flatten ∧ step .client s (.store 5 0) = some t ∧
      (system .client).Leads callerWaits t u ∧ 0 ∈ u.wire ∧ u.sent = [[4, 5]] := by
  have hrun : ∃ s, (system .client).run (fun s a ↦ keepsLent s a = true)
      [.send ⟨4, 2⟩, .transfer 1, .store 4 0, .resume 0] (connected UInt8.ofNat) = some s ∧
        s.wire = [4] ∧ s.sent = [[4, 5]] ∧ keepsLent s (.store 5 0) = false :=
    ⟨_, rfl, rfl, rfl, rfl⟩
  obtain ⟨s, hs, hwire, hsent, hguard⟩ := hrun
  have hreach := reachable_of_run (M := system .client) ⟨_, rfl⟩ hs
  obtain ⟨_, hgenuine, hlost⟩ := sends_what_was_lent .client hreach
  obtain ⟨u, later, hu, hlater, hmem, hkept⟩ := hlost 5 0 _ rfl hguard
  refine ⟨s, _, u, hs, hwire, hgenuine, rfl, hu, ?_, hkept.trans hsent⟩
  rw [hlater]
  exact List.mem_append_right s.wire hmem

end TcpLent

end DoipEndpoint
