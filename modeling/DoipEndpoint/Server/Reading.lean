import DoipEndpoint.Server.Effects

/-!
# How a server connection reads

`accept_cbk` starts a connection once, `start` arms its receive, and the
compiled `receive_cbk` does not arm another.  So each connection is one instance
of `Reading`, whatever happens to the other connections.
-/

namespace DoipEndpoint

namespace Server

open TransitionSystem Reading

/-- The completion of `o`, if it is the accept of the connection `c`. -/
def acceptOf (c : ℕ) (o : Operation) : Option (Option Completion) :=
  match o.handler with
  | .acceptCbk c' => if c' = c then some o.completion else none
  | _ => none

/-- The completion of `o`, if it is a receive on the connection `c`. -/
def receiveOf (c : ℕ) (o : Operation) : Option (Option Completion) :=
  match o.handler with
  | .receiveCbk c' _ _ => if c' = c then some o.completion else none
  | _ => none

def accepts (s : Server) (c : ℕ) : Multiset (Option Completion) :=
  s.operations.filterMap (acceptOf c)

def receives (s : Server) (c : ℕ) : Multiset (Option Completion) :=
  s.operations.filterMap (receiveOf c)

def reading (s : Server) (c : ℕ) : Reading where
  attached := (s.connection c).history.attached
  receives := s.receives c
  buffer := (s.connection c).recvBuffer
  incoming := (s.connection c).incoming
  peerSent := (s.connection c).history.peerSent
  handed := (s.connection c).history.handed
  receiveCbks := (s.connection c).history.receiveCbks

/-- A connection that has not been accepted. -/
structure Unread (x : Reading) : Prop where
  attached : x.attached = false
  receives : x.receives = 0
  incoming : x.incoming = []
  peerSent : x.peerSent = []
  handed : x.handed = []
  receiveCbks : x.receiveCbks = 0

/-- The buffer of the connection keeps its first size, its accept is the only
way to start it, and it is read soundly until a receive fails. -/
structure ReadsOnce (s : Server) (c : ℕ) : Prop where
  capacity : (s.connection c).recvBuffer.capacity = headerSize
  size : (s.connection c).recvBuffer.size = headerSize
  received : (s.connection c).recvBufferSize = 0
  missing : (s.connection c).missingCapacity = 0
  shrink : (s.connection c).shrinkCount ≤ bufferShrinkThreshold
  once : (s.accepts c).card + (s.connection c).history.attached.toNat ≤ 1
  waiting : none ∈ s.accepts c → (s.connection c).isOpen = false ∧ Unread (s.reading c)
  sound : (s.connection c).isOpen = true → (s.connection c).history.receiveFailed = false →
    Sound (s.reading c)

/-- Every receive is into the whole buffer. -/
def WholeBuffer (ops : List Operation) : Prop :=
  ∀ o ∈ ops, ∀ c offset length, o.handler = .receiveCbk c offset length →
    offset = 0 ∧ length = headerSize

/-- The invariant of the whole endpoint; a connection object that is yet to be
created is as `create` makes it. -/
structure Reads (s : Server) : Prop where
  region : WholeBuffer s.operations
  fresh : ∀ c, s.created ≤ c → s.connection c = .create ∧ s.accepts c = 0 ∧ s.receives c = 0
  each : ∀ c, ReadsOnce s c

/-- Nothing that concerns the reading of the connection `c` has changed. -/
structure Frame (s t : Server) (c : ℕ) : Prop where
  connection : t.connection c = s.connection c
  accepts : t.accepts c = s.accepts c
  receives : t.receives c = s.receives c

theorem Frame.refl (s : Server) (c : ℕ) : Frame s s c := ⟨rfl, rfl, rfl⟩

theorem Frame.reading {s t : Server} {c : ℕ} (h : Frame s t c) : t.reading c = s.reading c := by
  simp only [Server.reading, h.connection, h.receives]

theorem ReadsOnce.frame {s t : Server} {c : ℕ} (h : ReadsOnce s c) (hf : Frame s t c) :
    ReadsOnce t c := by
  refine ⟨?_, ?_, ?_, ?_, ?_, ?_, ?_, ?_⟩ <;>
    simp only [hf.connection, hf.accepts, hf.reading]
  · exact h.capacity
  · exact h.size
  · exact h.received
  · exact h.missing
  · exact h.shrink
  · exact h.once
  · exact h.waiting
  · exact h.sound

/-- The buffer of a connection and the members that tell how it is used. -/
structure SameBuffer (k k' : Connection) : Prop where
  capacity : k'.recvBuffer.capacity = k.recvBuffer.capacity
  size : k'.recvBuffer.size = k.recvBuffer.size
  received : k'.recvBufferSize = k.recvBufferSize
  missing : k'.missingCapacity = k.missingCapacity
  shrink : k'.shrinkCount = k.shrinkCount

theorem ReadsOnce.of_sameBuffer {s t : Server} {c : ℕ} {k : Connection} (h : ReadsOnce s c)
    (hk : t.connection c = k) (hbuffer : SameBuffer (s.connection c) k)
    (honce : (t.accepts c).card + k.history.attached.toNat ≤ 1)
    (hwaiting : none ∈ t.accepts c → k.isOpen = false ∧ Unread (t.reading c))
    (hsound : k.isOpen = true → k.history.receiveFailed = false → Sound (t.reading c)) :
    ReadsOnce t c := by
  subst hk
  refine ⟨?_, ?_, ?_, ?_, ?_, honce, hwaiting, hsound⟩
  · exact hbuffer.capacity.trans h.capacity
  · exact hbuffer.size.trans h.size
  · exact hbuffer.received.trans h.received
  · exact hbuffer.missing.trans h.missing
  · exact hbuffer.shrink.trans_le h.shrink

theorem WholeBuffer.append {ops : List Operation} (h : WholeBuffer ops) {o : Operation}
    (ho : ∀ c offset length, o.handler = .receiveCbk c offset length →
      offset = 0 ∧ length = headerSize) : WholeBuffer (ops ++ [o]) := by
  intro a ha
  rcases List.mem_append.mp ha with ha | ha
  · exact h a ha
  · rw [List.mem_singleton.mp ha]
    exact ho

theorem WholeBuffer.congr {ops ops' : List Operation} (h : WholeBuffer ops)
    (hops : ops'.map Operation.handler ⊆ ops.map Operation.handler) : WholeBuffer ops' := by
  intro o ho c offset length hh
  obtain ⟨o', ho', heq⟩ := List.mem_map.mp (hops (List.mem_map_of_mem ho))
  exact h o' ho' c offset length (heq.trans hh)

/-! ## Operations -/

theorem accepts_append (s : Server) (o : Operation) (c : ℕ) :
    accepts { s with operations := s.operations ++ [o] } c =
      ((acceptOf c o).toList : Multiset (Option Completion)) + s.accepts c :=
  InFlight.filterMap_append_singleton _ _ _

theorem receives_append (s : Server) (o : Operation) (c : ℕ) :
    receives { s with operations := s.operations ++ [o] } c =
      ((receiveOf c o).toList : Multiset (Option Completion)) + s.receives c :=
  InFlight.filterMap_append_singleton _ _ _

theorem accepts_eraseIdx {s : Server} {i : ℕ} {o : Operation} (ho : s.operations[i]? = some o)
    (c : ℕ) : s.accepts c = ((acceptOf c o).toList : Multiset (Option Completion)) +
      accepts { s with operations := s.operations.eraseIdx i } c :=
  InFlight.filterMap_eraseIdx ho _

theorem receives_eraseIdx {s : Server} {i : ℕ} {o : Operation} (ho : s.operations[i]? = some o)
    (c : ℕ) : s.receives c = ((receiveOf c o).toList : Multiset (Option Completion)) +
      receives { s with operations := s.operations.eraseIdx i } c :=
  InFlight.filterMap_eraseIdx ho _

theorem accepts_set {s : Server} {i : ℕ} {o : Operation} (ho : s.operations[i]? = some o)
    (o' : Operation) (c : ℕ) : accepts { s with operations := s.operations.set i o' } c =
      ((acceptOf c o').toList : Multiset (Option Completion)) +
        accepts { s with operations := s.operations.eraseIdx i } c :=
  InFlight.filterMap_set ho o' _

theorem receives_set {s : Server} {i : ℕ} {o : Operation} (ho : s.operations[i]? = some o)
    (o' : Operation) (c : ℕ) : receives { s with operations := s.operations.set i o' } c =
      ((receiveOf c o').toList : Multiset (Option Completion)) +
        receives { s with operations := s.operations.eraseIdx i } c :=
  InFlight.filterMap_set ho o' _

theorem filterMap_abort {affected : Handler → Bool} {f : Operation → Option (Option Completion)}
    (h : ∀ o, f (o.abort affected) = f o) (ops : List Operation) :
    (ops.map (Operation.abort affected)).filterMap f = ops.filterMap f := by
  rw [List.filterMap_map]
  exact List.filterMap_congr fun o _ ↦ h o

theorem acceptOf_abort {affected : Handler → Bool} {c : ℕ}
    (h : affected (.acceptCbk c) = false) (o : Operation) :
    acceptOf c (o.abort affected) = acceptOf c o := by
  by_cases ho : o.handler = .acceptCbk c
  · rw [Operation.abort_of_not (ho ▸ h)]
  · have hnone : ∀ a : Operation, a.handler = o.handler → acceptOf c a = none := by
      intro a ha
      unfold acceptOf
      split
      · rename_i c' hc'
        rw [if_neg]
        rintro rfl
        exact ho (ha ▸ hc')
      · rfl
    rw [hnone _ (Operation.abort_handler _ _), hnone _ rfl]

theorem receiveOf_abort {affected : Handler → Bool} {c : ℕ}
    (h : ∀ offset length, affected (.receiveCbk c offset length) = false) (o : Operation) :
    receiveOf c (o.abort affected) = receiveOf c o := by
  by_cases ho : ∃ offset length, o.handler = .receiveCbk c offset length
  · obtain ⟨offset, length, ho⟩ := ho
    rw [Operation.abort_of_not (ho ▸ h offset length)]
  · have hnone : ∀ a : Operation, a.handler = o.handler → receiveOf c a = none := by
      intro a ha
      unfold receiveOf
      split
      · rename_i c' offset length hc'
        rw [if_neg]
        rintro rfl
        exact ho ⟨offset, length, ha ▸ hc'⟩
      · rfl
    rw [hnone _ (Operation.abort_handler _ _), hnone _ rfl]

/-! ## Functions -/

variable {s t : Server} {c : ℕ}

theorem Reads.lt_created (h : Reads s)
    (hc : ¬(s.connection c = .create ∧ s.accepts c = 0 ∧ s.receives c = 0)) : c < s.created := by
  by_contra hle
  exact hc (h.fresh c (by omega))

theorem Reads.lt_created_of_open (h : Reads s) (hopen : (s.connection c).isOpen = true) :
    c < s.created := by
  apply h.lt_created
  intro hc
  rw [hc.1] at hopen
  simp [Connection.create] at hopen

/-- A step that concerns one connection. -/
theorem Reads.of_frame (h : Reads s) (hregion : WholeBuffer t.operations)
    (hcreated : t.created = s.created) (hother : ∀ c', c' ≠ c → Frame s t c')
    (hown : ReadsOnce t c) (hc : c < s.created) : Reads t := by
  refine ⟨hregion, fun c' hc' ↦ ?_, fun c' ↦ ?_⟩
  · rw [hcreated] at hc'
    have hf := hother c' (by omega)
    rw [hf.connection, hf.accepts, hf.receives]
    exact h.fresh c' hc'
  · by_cases heq : c' = c
    · exact heq ▸ hown
    · exact (h.each c').frame (hother c' heq)

theorem Reads.of_frame_all (h : Reads s) (hregion : WholeBuffer t.operations)
    (hcreated : t.created = s.created) (hall : ∀ c, Frame s t c) : Reads t := by
  refine ⟨hregion, fun c hc ↦ ?_, fun c ↦ (h.each c).frame (hall c)⟩
  rw [hcreated] at hc
  rw [(hall c).connection, (hall c).accepts, (hall c).receives]
  exact h.fresh c hc

theorem Reads.of_update {k : Connection} (h : Reads s) (hc : c < s.created)
    (hbuffer : SameBuffer (s.connection c) k)
    (honce : (s.accepts c).card + k.history.attached.toNat ≤ 1)
    (hwaiting : none ∈ s.accepts c → k.isOpen = false ∧ Unread (reading (s.update c k) c))
    (hsound : k.isOpen = true → k.history.receiveFailed = false →
      Sound (reading (s.update c k) c)) : Reads (s.update c k) := by
  refine h.of_frame h.region rfl (fun c' hc' ↦ ⟨by simp [hc'], rfl, rfl⟩) ?_ hc
  exact (h.each c).of_sameBuffer (by simp) hbuffer honce hwaiting hsound

theorem frame_closeSocket {c' : ℕ} (hc : c' ≠ c) (s : Server) : Frame s (s.closeSocket c) c' := by
  unfold closeSocket
  split
  · refine ⟨by simp [hc], ?_, ?_⟩
    · exact congrArg _ (filterMap_abort (acceptOf_abort (by simp [Handler.socket])) _)
    · exact congrArg _ (filterMap_abort (receiveOf_abort (by simp [Handler.socket, hc])) _)
  · exact Frame.refl s c'

theorem ReadsOnce.closeSocket (h : ReadsOnce s c) : ReadsOnce (s.closeSocket c) c := by
  unfold Server.closeSocket
  split
  · have haccepts : accepts {
        s.update c { s.connection c with isOpen := false, incoming := [] } with
        operations := s.operations.map (Operation.abort fun h ↦ h.socket = some c) } c =
          s.accepts c :=
      congrArg _ (filterMap_abort (acceptOf_abort (by simp [Handler.socket])) _)
    refine h.of_sameBuffer (k := { s.connection c with isOpen := false, incoming := [] })
      (by simp) ⟨rfl, rfl, rfl, rfl, rfl⟩ (haccepts ▸ h.once) (fun hw ↦ ?_) (by simp)
    · rw [haccepts] at hw
      obtain ⟨_, hu⟩ := h.waiting hw
      have hnone : ∀ o ∈ s.operations, receiveOf c o = none := by
        have hnil := (Multiset.coe_eq_zero _).mp hu.receives
        exact List.filterMap_eq_nil_iff.mp hnil
      have habort : ∀ o ∈ s.operations,
          receiveOf c (o.abort fun h ↦ h.socket = some c) = none := by
        intro o ho
        have ho' := hnone o ho
        unfold receiveOf at ho' ⊢
        rw [Operation.abort_handler]
        split at ho' <;> simp_all
      refine ⟨rfl, by simpa [reading] using hu.attached, ?_, by simp [reading],
        by simpa [reading] using hu.peerSent, by simpa [reading] using hu.handed,
        by simpa [reading] using hu.receiveCbks⟩
      refine (Multiset.coe_eq_zero _).mpr (List.filterMap_eq_nil_iff.mpr fun o ho ↦ ?_)
      obtain ⟨o', ho', rfl⟩ := List.mem_map.mp ho
      exact habort o' ho'
  · exact h

theorem Reads.closeSocket (h : Reads s) (c : ℕ) : Reads (s.closeSocket c) := by
  by_cases hopen : (s.connection c).isOpen = true
  · have hsame := sameTable_closeSocket c s
    refine h.of_frame ?_ hsame.created (fun c' hc' ↦ frame_closeSocket hc' s)
      (h.each c).closeSocket (h.lt_created_of_open hopen)
    exact h.region.congr (hsame.handlers ▸ List.Subset.refl _)
  · have hid : s.closeSocket c = s := by simp [Server.closeSocket, hopen]
    rwa [hid]

theorem Reads.removeConnection (h : Reads s) (c : ℕ) : Reads (s.removeConnection c) := by
  rw [removeConnection_eq]
  exact h.of_frame_all h.region rfl fun c ↦ ⟨rfl, rfl, rfl⟩

theorem Reads.stopAndRemoveConnection (h : Reads s) (c : ℕ) :
    Reads (Connection.stopAndRemoveConnection c s) :=
  (h.closeSocket c).removeConnection c

theorem Reads.issue (h : Reads s) {handler : Handler} (completion : Option Completion)
    (haccept : ∀ c, handler ≠ .acceptCbk c)
    (hreceive : ∀ c offset length, handler ≠ .receiveCbk c offset length) :
    Reads (s.issue handler completion) := by
  refine h.of_frame_all ?_ rfl fun c ↦ ⟨rfl, ?_, ?_⟩
  · exact h.region.append fun c offset length hh ↦ absurd hh (hreceive c offset length)
  · have hnone : acceptOf c ⟨handler, completion⟩ = none := by
      cases handler with
      | acceptCbk c' => exact absurd rfl (haccept c')
      | receiveCbk | sendCbk | retry => rfl
    rw [Server.issue, accepts_append, hnone]
    simp
  · have hnone : receiveOf c ⟨handler, completion⟩ = none := by
      cases handler with
      | receiveCbk c' offset length => exact absurd rfl (hreceive c' offset length)
      | acceptCbk | sendCbk | retry => rfl
    rw [Server.issue, receives_append, hnone]
    simp

theorem readsOnce_created (hk : s.connection c = .create) (haccepts : s.accepts c = {none})
    (hreceives : s.receives c = 0) : ReadsOnce s c := by
  refine ⟨?_, ?_, ?_, ?_, ?_, ?_, fun _ ↦ ?_, fun hopen ↦ ?_⟩
  · rw [hk]
    rfl
  · simp [hk, Connection.create]
  · rw [hk]
    rfl
  · rw [hk]
    rfl
  · rw [hk]
    exact Nat.zero_le _
  · simp [hk, haccepts, Connection.create, History.fresh]
  · refine ⟨?_, ?_, hreceives, ?_, ?_, ?_, ?_⟩ <;>
      simp [reading, hk, Connection.create, History.fresh]
  · simp [hk, Connection.create] at hopen

theorem Reads.start (h : Reads s) : Reads s.start := by
  unfold Server.start
  split
  · have hnew := h.fresh s.created (le_refl _)
    have hother : ∀ c, c ≠ s.created → Frame s { (s.update s.created .create).issue
        (.acceptCbk s.created) none with
          created := s.created + 1, acceptsIssued := s.acceptsIssued + 1 } c := by
      intro c hc
      refine ⟨by simp [Server.issue, hc], ?_, ?_⟩
      · apply (accepts_append s _ c).trans
        simp [acceptOf, hc.symm]
      · apply (receives_append s _ c).trans
        simp [receiveOf]
    refine ⟨?_, fun c hc ↦ ?_, fun c ↦ ?_⟩
    · exact h.region.append (by simp)
    · have hc' : s.created + 1 ≤ c := hc
      have hf := hother c (by omega)
      rw [hf.connection, hf.accepts, hf.receives]
      exact h.fresh c (by omega)
    · by_cases hc : c = s.created
      · subst hc
        apply readsOnce_created
        · simp [Server.issue]
        · apply (accepts_append s _ _).trans
          simp [acceptOf, hnew.2.1]
        · apply (receives_append s _ _).trans
          simp [receiveOf, hnew.2.2]
      · exact (h.each c).frame (hother c hc)
  · exact h

theorem Reads.closeAcceptor (h : Reads s) : Reads s.closeAcceptor := by
  unfold Server.closeAcceptor
  split
  · have hregion : WholeBuffer (s.operations.map (Operation.abort Handler.isAccept)) :=
      h.region.congr (by rw [map_abort_handler]; exact List.Subset.refl _)
    have hcard : ∀ c, (accepts { s with
        acceptorOpen := false
        operations := s.operations.map (Operation.abort Handler.isAccept) } c).card =
          (s.accepts c).card := by
      intro c
      simp only [accepts, Multiset.coe_card, List.length_filterMap_eq_countP, List.countP_map]
      apply List.countP_congr
      intro o _
      simp only [Function.comp_apply, acceptOf, Operation.abort_handler]
      split
      · split_ifs <;> simp
      · simp
    have hreceives : ∀ c, receives { s with
        acceptorOpen := false
        operations := s.operations.map (Operation.abort Handler.isAccept) } c = s.receives c :=
      fun c ↦ congrArg _ (filterMap_abort (receiveOf_abort (by simp [Handler.isAccept])) _)
    have hnone : ∀ c, none ∉ accepts { s with
        acceptorOpen := false
        operations := s.operations.map (Operation.abort Handler.isAccept) } c := by
      intro c hw
      obtain ⟨o, ho, hsome⟩ := List.mem_filterMap.mp (Multiset.mem_coe.mp hw)
      obtain ⟨o', _, rfl⟩ := List.mem_map.mp ho
      unfold acceptOf at hsome
      split at hsome
      · rename_i c' hc'
        rw [Operation.abort_handler] at hc'
        split_ifs at hsome
        have hcomp := Option.some.inj hsome
        by_cases hp : o'.completion = none
        · simp [Operation.abort, hc', Handler.isAccept, hp] at hcomp
        · simp [Operation.abort, hp] at hcomp
      · simp at hsome
    refine ⟨hregion, fun c hc ↦ ?_, fun c ↦ ?_⟩
    · obtain ⟨hcon, hacc, hrec⟩ := h.fresh c hc
      refine ⟨hcon, Multiset.card_eq_zero.mp ?_, (hreceives c).trans hrec⟩
      rw [hcard, hacc, Multiset.card_zero]
    · have hown := h.each c
      refine ⟨hown.capacity, hown.size, hown.received, hown.missing, hown.shrink, ?_,
        fun hw ↦ absurd hw (hnone c), fun hopen hok ↦ ?_⟩
      · rw [hcard]
        exact hown.once
      · have hs := hown.sound hopen hok
        rw [reading] at hs ⊢
        rwa [hreceives]
  · exact h

theorem Reads.stop (h : Reads s) : Reads s.stop := by
  have hfold : ∀ (entries : List (Endpoint × ℕ)) (u : Server), Reads u →
      Reads (entries.foldl (fun s entry ↦ Connection.stop entry.2 s) u) := by
    intro entries
    induction entries with
    | nil => exact fun u hu ↦ hu
    | cons entry rest ih => exact fun u hu ↦ ih _ (hu.closeSocket entry.2)
  have hclosed := hfold s.closeAcceptor.connections.toList s.closeAcceptor h.closeAcceptor
  exact hclosed.of_frame_all hclosed.region rfl fun c ↦ ⟨rfl, rfl, rfl⟩

/-! ## Handlers -/

theorem Reads.eraseIdx (h : Reads s) {i : ℕ} {o : Operation} (ho : s.operations[i]? = some o)
    (hnone : ∀ c, receiveOf c o = none) :
    Reads { s with operations := s.operations.eraseIdx i } := by
  have hreceives : ∀ c, receives { s with operations := s.operations.eraseIdx i } c =
      s.receives c := by
    intro c
    have herase := receives_eraseIdx ho c
    rw [hnone, Option.toList_none, Multiset.coe_nil, Multiset.zero_add] at herase
    exact herase.symm
  have hle : ∀ c, accepts { s with operations := s.operations.eraseIdx i } c ≤ s.accepts c := by
    intro c
    rw [accepts_eraseIdx ho c]
    exact Multiset.le_add_left _ _
  refine ⟨?_, fun c hc ↦ ?_, fun c ↦ ?_⟩
  · exact h.region.congr (List.map_subset _ (List.eraseIdx_subset ..))
  · obtain ⟨hcon, hacc, hrec⟩ := h.fresh c hc
    exact ⟨hcon, Multiset.le_zero.mp (hacc ▸ hle c), (hreceives c).trans hrec⟩
  · have hown := h.each c
    have hreading : reading { s with operations := s.operations.eraseIdx i } c = s.reading c := by
      simp only [reading, hreceives]
    refine ⟨hown.capacity, hown.size, hown.received, hown.missing, hown.shrink, ?_, ?_, ?_⟩
    · exact le_trans (Nat.add_le_add_right (Multiset.card_le_card (hle c)) _) hown.once
    · exact fun hw ↦ hreading ▸ hown.waiting (Multiset.mem_of_le (hle c) hw)
    · exact fun hopen hok ↦ hreading ▸ hown.sound hopen hok

theorem receive_reuse (hcapacity : (s.connection c).recvBuffer.capacity = headerSize)
    (hreceived : (s.connection c).recvBufferSize = 0)
    (hmissing : (s.connection c).missingCapacity = 0)
    (hshrink : (s.connection c).shrinkCount ≤ bufferShrinkThreshold) (grows : Bool)
    (hopen : (s.connection c).isOpen = true) : Connection.receive grows c s =
      issue (.receiveCbk c 0 headerSize) none (s.update c (s.connection c)) := by
  have hprep : (s.connection c).recvBuffer.prepare (s.connection c).recvBufferSizeInitial
      bufferShrinkThreshold (s.connection c).shrinkCount grows 0 0 = _ :=
    MessageBuffer.prepare_reuse grows 0 (s.connection c).recvBuffer hshrink
  have hsame : ∀ k : Connection, k.isOpen = true → k.recvBufferSize = 0 → k.missingCapacity = 0 →
      { k with isOpen := true, recvBufferSize := 0, missingCapacity := 0 } = k := by
    rintro ⟨⟩ rfl rfl rfl
    rfl
  simp only [Connection.receive, hopen, ↓reduceIte, hreceived, hmissing, hprep, hcapacity,
    Nat.sub_zero]
  rw [hsame _ hopen hreceived hmissing]

theorem ReadsOnce.start_eq (h : ReadsOnce s c) (grows : Bool)
    (hopen : (s.connection c).isOpen = true) : Connection.start grows c s =
      (s.update c { s.connection c with
        history := { (s.connection c).history with attached := true } }).issue
          (.receiveCbk c 0 headerSize) none := by
  have hreuse := receive_reuse (c := c) (s := s.update c { s.connection c with
    history := { (s.connection c).history with attached := true } })
    (by simpa using h.capacity) (by simpa using h.received) (by simpa using h.missing)
    (by simpa using h.shrink) grows (by simpa using hopen)
  rw [Connection.start, hreuse]
  simp [update]

theorem Reads.startConnection (h : Reads s) (hc : c < s.created) (grows : Bool)
    (haccepts : s.accepts c = 0) (hfree : (s.connection c).history.attached = false) :
    Reads (Connection.start grows c s) := by
  have hown := h.each c
  have hone : (s.accepts c).card + true.toNat ≤ 1 := by simp [haccepts]
  have hwait : none ∉ s.accepts c := by simp [haccepts]
  by_cases hopen : (s.connection c).isOpen = true
  · rw [hown.start_eq grows hopen]
    generalize hstarted : s.update c { s.connection c with
      history := { (s.connection c).history with attached := true } } = u
    have hconn : u.connection c = { s.connection c with
        history := { (s.connection c).history with attached := true } } := by
      simp [← hstarted]
    have hops : u.operations = s.operations := by
      rw [← hstarted]
      rfl
    have haccepts' : ∀ c', accepts (u.issue (.receiveCbk c 0 headerSize) none) c' =
        s.accepts c' := by
      intro c'
      apply (accepts_append u _ c').trans
      simp [accepts, hops, acceptOf]
    refine h.of_frame ?_ (by rw [← hstarted]; rfl) (fun c' hc' ↦ ⟨?_, haccepts' c', ?_⟩) ?_ hc
    · rw [Server.issue, hops]
      apply h.region.append
      intro c' offset length hh
      obtain ⟨_, rfl, rfl⟩ := Handler.receiveCbk.inj hh
      exact ⟨rfl, rfl⟩
    · simp [Server.issue, ← hstarted, hc']
    · apply (receives_append u _ c').trans
      simp [receives, hops, receiveOf, Ne.symm hc']
    · refine hown.of_sameBuffer hconn ⟨rfl, rfl, rfl, rfl, rfl⟩ (haccepts' c ▸ hone)
        (fun hw ↦ absurd (haccepts' c ▸ hw) hwait) fun _ hok ↦ ?_
      have harm := (hown.sound hopen hok).arm hfree
      have hreceives : receives (u.issue (.receiveCbk c 0 headerSize) none) c =
          none ::ₘ s.receives c := by
        apply (receives_append u _ c).trans
        simp [receives, hops, receiveOf]
      have hissued : (u.issue (.receiveCbk c 0 headerSize) none).connection c =
          u.connection c := rfl
      simp only [reading, hissued, hconn, hreceives]
      exact harm
  · have hstart : Connection.start grows c s = s.update c { s.connection c with
        history := { (s.connection c).history with attached := true } } := by
      simp [Connection.start, Connection.receive, hopen]
    rw [hstart]
    exact h.of_update hc ⟨rfl, rfl, rfl, rfl, rfl⟩ hone (fun hw ↦ absurd hw hwait)
      fun ho ↦ absurd ho hopen

theorem Reads.inform (h : Reads s) (hc : c < s.created) (remote : Endpoint) (os : Option Os) :
    Reads (s.update c { (s.connection c).setRemoteInfo remote with accepted := os }) := by
  have hown := h.each c
  have hreading : reading (s.update c { (s.connection c).setRemoteInfo remote with
      accepted := os }) c = s.reading c := by
    simp only [reading, update_connection, Function.update_self, Connection.setRemoteInfo]
    rfl
  refine h.of_update hc ⟨rfl, rfl, rfl, rfl, rfl⟩ hown.once ?_ ?_
  · rw [hreading]
    exact hown.waiting
  · rw [hreading]
    exact hown.sound

theorem Reads.accepted (h : Reads s) (hc : c < s.created) (os : Os) (haccepts : s.accepts c = 0)
    (hfree : (s.connection c).history.attached = false) : Reads (s.accepted os c) := by
  obtain ⟨remote, answers, heq | ⟨_, _, heq⟩⟩ := accepted_cases os c s <;> rw [heq]
  · exact h.inform hc remote (some answers)
  · have hi := h.inform hc remote (some os)
    have hstored : Reads { s.update c
        { (s.connection c).setRemoteInfo remote with accepted := some os } with
          connections := s.connections.insert remote c } :=
      hi.of_frame_all hi.region rfl fun _ ↦ ⟨rfl, rfl, rfl⟩
    apply hstored.startConnection hc os.grows haccepts
    simpa [Connection.setRemoteInfo] using hfree

theorem Reads.acceptCbk (h : Reads s) (hc : c < s.created) (os : Os) (e : ErrorCode)
    (haccepts : s.accepts c = 0) (hfree : (s.connection c).history.attached = false) :
    Reads (s.acceptCbk os e c) := by
  have hbody : Reads (if e = .success then s.accepted os c else s) := by
    split_ifs
    · exact h.accepted hc os haccepts hfree
    · exact h
  simp only [Server.acceptCbk]
  split_ifs at hbody ⊢
  · exact hbody.start
  · exact hbody.start
  · exact hbody.issue none (by simp) (by simp)
  · exact hbody.issue none (by simp) (by simp)
  · exact hbody
  · exact hbody

/-- The `accept_cbk` of a connection is run once, before the connection is
started. -/
theorem Reads.queuedAccept (h : Reads s) {i : ℕ} {r : Completion}
    (ho : s.operations[i]? = some ⟨.acceptCbk c, some r⟩) :
    accepts { s with operations := s.operations.eraseIdx i } c = 0 ∧
      (s.connection c).history.attached = false ∧ c < s.created := by
  have hcons : s.accepts c =
      some r ::ₘ accepts { s with operations := s.operations.eraseIdx i } c := by
    rw [accepts_eraseIdx ho c]
    simp [acceptOf]
  have hone := (h.each c).once
  rw [hcons, Multiset.card_cons] at hone
  refine ⟨Multiset.card_eq_zero.mp (by omega), ?_, ?_⟩
  · cases hatt : (s.connection c).history.attached with
    | false => rfl
    | true =>
        rw [hatt, Bool.toNat_true] at hone
        omega
  · apply h.lt_created
    intro hfresh
    rw [hfresh.2.1] at hcons
    exact absurd hcons.symm (Multiset.cons_ne_zero)

theorem Reads.handleAccept (h : Reads s) {i : ℕ} {r : Completion}
    (ho : s.operations[i]? = some ⟨.acceptCbk c, some r⟩) (os : Os) :
    Reads (Server.acceptCbk os r.error c { s with operations := s.operations.eraseIdx i }) := by
  obtain ⟨hnone, hfree, hc⟩ := h.queuedAccept ho
  exact (h.eraseIdx ho fun c' ↦ rfl).acceptCbk hc os r.error hnone hfree

/-- What a receive in flight says about its connection. -/
theorem Reads.receiveInFlight (h : Reads s) {i offset length : ℕ} {completion : Option Completion}
    (ho : s.operations[i]? = some ⟨.receiveCbk c offset length, completion⟩) :
    s.receives c = completion ::ₘ receives { s with operations := s.operations.eraseIdx i } c ∧
      offset = 0 ∧ length = headerSize ∧ c < s.created ∧ none ∉ s.accepts c := by
  have hcons : s.receives c =
      completion ::ₘ receives { s with operations := s.operations.eraseIdx i } c := by
    rw [receives_eraseIdx ho c]
    simp [receiveOf]
  obtain ⟨hoffset, hlength⟩ := h.region _ (List.mem_of_getElem? ho) c offset length rfl
  have hne : s.receives c ≠ 0 := hcons ▸ Multiset.cons_ne_zero
  refine ⟨hcons, hoffset, hlength, h.lt_created fun hfresh ↦ hne hfresh.2.2, fun hw ↦ ?_⟩
  exact hne ((h.each c).waiting hw).2.receives

theorem eraseIdx_receive {i offset length : ℕ} {completion : Option Completion}
    (ho : s.operations[i]? = some ⟨.receiveCbk c offset length, completion⟩) :
    (∀ c', accepts { s with operations := s.operations.eraseIdx i } c' = s.accepts c') ∧
      ∀ c', c' ≠ c →
        receives { s with operations := s.operations.eraseIdx i } c' = s.receives c' := by
  constructor
  · intro c'
    rw [accepts_eraseIdx ho c']
    simp [acceptOf]
  · intro c' hc'
    rw [receives_eraseIdx ho c']
    simp [receiveOf, Ne.symm hc']

/-- The `receive_cbk` of a connection is given what its buffer holds. -/
theorem Reads.handleReceive (h : Reads s) {i offset length : ℕ} {r : Completion}
    (ho : s.operations[i]? = some ⟨.receiveCbk c offset length, some r⟩) :
    Reads (record (.receiveCbk c offset length) r
      { s with operations := s.operations.eraseIdx i }) := by
  have hown := h.each c
  obtain ⟨hcons, _, _, hc, hwait⟩ := h.receiveInFlight ho
  obtain ⟨haccepts, hother⟩ := eraseIdx_receive ho
  have hregion : WholeBuffer (s.operations.eraseIdx i) :=
    h.region.congr (List.map_subset _ (List.eraseIdx_subset ..))
  unfold record
  split_ifs with he
  · refine h.of_frame hregion rfl (fun c' hc' ↦ ⟨by simp [hc'], haccepts c', hother c' hc'⟩) ?_ hc
    refine hown.of_sameBuffer (Function.update_self ..) ⟨rfl, rfl, rfl, rfl, rfl⟩
      (haccepts c ▸ hown.once) (fun hw ↦ absurd (haccepts c ▸ hw) hwait) fun hopen hok ↦ ?_
    have hand := (hown.sound hopen hok).hand hcons
    simp only [reading, update_connection, Function.update_self, Connection.receiveCbkReads,
      hown.received, Nat.add_zero]
    exact hand
  · refine h.of_frame hregion rfl (fun c' hc' ↦ ⟨rfl, haccepts c', hother c' hc'⟩) ?_ hc
    refine ⟨hown.capacity, hown.size, hown.received, hown.missing, hown.shrink,
      haccepts c ▸ hown.once, fun hw ↦ absurd (haccepts c ▸ hw) hwait, fun hopen hok ↦ ?_⟩
    have hqueued : some r ∈ s.receives c := hcons ▸ Multiset.mem_cons_self _ _
    exact absurd ((hown.sound hopen hok).queued r hqueued).1 he

theorem Reads.handle (h : Reads s) {i : ℕ} {os : Os} (hstep : s.handle i os = some t) :
    Reads t := by
  obtain ⟨handler, r, hq, rfl⟩ := handle_eq_some hstep
  have ho := queued_eq_some hq
  unfold dispatch
  cases handler with
  | acceptCbk c => exact h.handleAccept ho os
  | receiveCbk c offset length =>
      have hrecord := h.handleReceive ho
      simp only [Connection.receiveCbk]
      split_ifs
      · exact hrecord
      · exact hrecord.stopAndRemoveConnection c
      · exact hrecord
      · exact hrecord
  | sendCbk c message =>
      have herase := h.eraseIdx ho fun c' ↦ rfl
      have hcondition : Reads (Connection.writeCompletionCondition r.error c
          { s with operations := s.operations.eraseIdx i }) := by
        unfold Connection.writeCompletionCondition
        split_ifs
        · exact herase.stopAndRemoveConnection c
        · exact herase
      exact hcondition.of_frame_all hcondition.region rfl fun _ ↦ ⟨rfl, rfl, rfl⟩
  | retry =>
      have herase := h.eraseIdx ho fun c' ↦ rfl
      simp only [Server.retry, record]
      split_ifs
      · exact herase.start
      · exact herase

/-! ## Completions -/

theorem Reads.set (h : Reads s) {i : ℕ} {handler : Handler}
    (ho : s.operations[i]? = some ⟨handler, none⟩) (hkind : handler.isReceive = false)
    (r : Completion) :
    Reads { s with operations := s.operations.set i ⟨handler, some r⟩ } := by
  have hno : ∀ c completion, receiveOf c ⟨handler, completion⟩ = none := by
    intro c completion
    cases handler with
    | receiveCbk c' offset length => simp [Handler.isReceive] at hkind
    | acceptCbk | sendCbk | retry => rfl
  have hreceives : ∀ c, receives { s with operations := s.operations.set i ⟨handler, some r⟩ } c =
      s.receives c := by
    intro c
    rw [receives_set ho, receives_eraseIdx ho c, hno, hno]
  have haccepts : ∀ c, (accepts { s with
      operations := s.operations.set i ⟨handler, some r⟩ } c).card = (s.accepts c).card ∧
      (none ∈ accepts { s with operations := s.operations.set i ⟨handler, some r⟩ } c →
        none ∈ s.accepts c) := by
    intro c
    rw [accepts_set ho, accepts_eraseIdx ho c]
    unfold acceptOf
    split
    · split_ifs <;> simp_all
    · simp
  refine ⟨?_, fun c hc ↦ ?_, fun c ↦ ?_⟩
  · intro o hmem c offset length hh
    rcases List.mem_or_eq_of_mem_set hmem with hmem | rfl
    · exact h.region o hmem c offset length hh
    · exact h.region _ (List.mem_of_getElem? ho) c offset length hh
  · obtain ⟨hcon, hacc, hrec⟩ := h.fresh c hc
    refine ⟨hcon, Multiset.card_eq_zero.mp ?_, (hreceives c).trans hrec⟩
    rw [(haccepts c).1, hacc, Multiset.card_zero]
  · have hown := h.each c
    have hreading : reading { s with operations := s.operations.set i ⟨handler, some r⟩ } c =
        s.reading c := by
      simp only [reading, hreceives]
    refine ⟨hown.capacity, hown.size, hown.received, hown.missing, hown.shrink, ?_, ?_, ?_⟩
    · rw [(haccepts c).1]
      exact hown.once
    · exact fun hw ↦ hreading ▸ hown.waiting ((haccepts c).2 hw)
    · exact fun hopen hok ↦ hreading ▸ hown.sound hopen hok

theorem Unread.sound {x : Reading} (h : Unread x) : Sound x := by
  have hacc : Inbound.Accounts x.peerSent x.handed [] x.incoming := by
    rw [h.peerSent, h.handed, h.incoming]
    rfl
  refine ⟨?_, fun _ ↦ hacc, fun _ ↦ hacc, fun a ha ↦ ?_, ?_⟩
  · rw [h.receives, h.receiveCbks, h.attached]
    rfl
  · rw [h.receives] at ha
    simp at ha
  · simp [h.handed]

theorem Reads.openSocket (h : Reads s) (hc : c < s.created) (hwait : none ∉ s.accepts c)
    (hunread : Unread (s.reading c)) :
    Reads (s.update c { s.connection c with isOpen := true }) := by
  refine h.of_update hc ⟨rfl, rfl, rfl, rfl, rfl⟩ (h.each c).once (fun hw ↦ absurd hw hwait)
    fun _ _ ↦ ?_
  simp only [reading, update_connection, Function.update_self]
  exact hunread.sound

theorem Reads.completeReceive (h : Reads s) {i offset length : ℕ} {r : Completion}
    (ho : s.operations[i]? = some ⟨.receiveCbk c offset length, none⟩)
    (hf : finish (.receiveCbk c offset length) r { s with
      operations := s.operations.set i ⟨.receiveCbk c offset length, some r⟩ } = some t) :
    Reads t := by
  have hown := h.each c
  obtain ⟨hcons, rfl, rfl, hc, hwait⟩ := h.receiveInFlight ho
  obtain ⟨herased, hothers⟩ := eraseIdx_receive ho
  have hset : receives { s with
      operations := s.operations.set i ⟨.receiveCbk c 0 headerSize, some r⟩ } c =
        some r ::ₘ receives { s with operations := s.operations.eraseIdx i } c := by
    rw [receives_set ho]
    simp [receiveOf]
  have haccepts : ∀ c', accepts { s with
      operations := s.operations.set i ⟨.receiveCbk c 0 headerSize, some r⟩ } c' =
        s.accepts c' := by
    intro c'
    rw [accepts_set ho, herased c']
    simp [acceptOf]
  have hother : ∀ c', c' ≠ c → receives { s with
      operations := s.operations.set i ⟨.receiveCbk c 0 headerSize, some r⟩ } c' =
        s.receives c' := by
    intro c' hc'
    rw [receives_set ho, hothers c' hc']
    simp [receiveOf, Ne.symm hc']
  have hregion : WholeBuffer (s.operations.set i ⟨.receiveCbk c 0 headerSize, some r⟩) := by
    intro o hmem c' offset' length' hh
    rcases List.mem_or_eq_of_mem_set hmem with hmem | rfl
    · exact h.region o hmem c' offset' length' hh
    · exact h.region _ (List.mem_of_getElem? ho) c' offset' length' hh
  simp only [finish] at hf
  split_ifs at hf with hopen he hfit
  · cases Option.some.inj hf
    refine h.of_frame hregion rfl (fun c' hc' ↦ ⟨by simp [hc'], haccepts c', hother c' hc'⟩) ?_ hc
    refine hown.of_sameBuffer (Function.update_self ..) ⟨by simp, by simp, rfl, rfl, rfl⟩
      (haccepts c ▸ hown.once) (fun hw ↦ absurd (haccepts c ▸ hw) hwait) fun _ hok ↦ ?_
    have hsound := (hown.sound hopen hok).receive hcons he (hown.size ▸ hfit.2.1) hfit.2.2
    simp only [reading, update_connection, Function.update_self]
    convert hsound using 1
    exact congrArg (fun m ↦ { s.reading c with
      receives := m
      buffer := (s.connection c).recvBuffer.store 0 ((s.connection c).incoming.take r.bytes)
      incoming := (s.connection c).incoming.drop r.bytes }) hset
  · cases Option.some.inj hf
    refine h.of_frame hregion rfl (fun c' hc' ↦ ⟨by simp [hc'], haccepts c', hother c' hc'⟩) ?_ hc
    exact hown.of_sameBuffer (Function.update_self ..) ⟨rfl, rfl, rfl, rfl, rfl⟩
      (haccepts c ▸ hown.once) (fun hw ↦ absurd (haccepts c ▸ hw) hwait) (by simp)

theorem Reads.complete (h : Reads s) {i : ℕ} {r : Completion} (hstep : s.complete i r = some t) :
    Reads t := by
  obtain ⟨handler, ho, hf⟩ := complete_eq_some hstep
  cases handler with
  | acceptCbk c =>
      have hset := h.set ho rfl r
      simp only [finish] at hf
      split_ifs at hf
      · cases Option.some.inj hf
        have hwait : none ∈ s.accepts c := by
          rw [accepts_eraseIdx ho c]
          simp [acceptOf]
        have hc : c < s.created := by
          apply h.lt_created
          intro hfresh
          rw [hfresh.2.1] at hwait
          simp at hwait
        have hreading : reading { s with
            operations := s.operations.set i ⟨.acceptCbk c, some r⟩ } c = s.reading c := by
          have hreceives : receives { s with
              operations := s.operations.set i ⟨.acceptCbk c, some r⟩ } c = s.receives c := by
            rw [receives_set ho, receives_eraseIdx ho c]
            rfl
          simp only [reading, hreceives]
        have hdone : none ∉ accepts { s with
            operations := s.operations.set i ⟨.acceptCbk c, some r⟩ } c := by
          have hone := (h.each c).once
          rw [accepts_eraseIdx ho c] at hone
          rw [accepts_set ho]
          simp only [acceptOf, ↓reduceIte, Option.toList_some, Multiset.coe_singleton,
            Multiset.card_add, Multiset.card_singleton] at hone ⊢
          have hrest : accepts { s with operations := s.operations.eraseIdx i } c = 0 :=
            Multiset.card_eq_zero.mp (by omega)
          simp [hrest]
        exact hset.openSocket hc hdone (hreading ▸ ((h.each c).waiting hwait).2)
      · cases Option.some.inj hf
        exact hset
  | receiveCbk c offset length => exact h.completeReceive ho hf
  | sendCbk c message =>
      simp only [finish] at hf
      split_ifs at hf
      cases Option.some.inj hf
      exact h.set ho rfl r
  | retry =>
      cases Option.some.inj hf
      exact h.set ho rfl r

/-! ## Runs -/

theorem referenced_of_accepts (h : s.accepts c ≠ 0) : s.referenced c = true := by
  obtain ⟨a, ha⟩ := Multiset.exists_mem_of_ne_zero h
  obtain ⟨o, ho, hsome⟩ := List.mem_filterMap.mp (Multiset.mem_coe.mp ha)
  have hheld : o.handler.connection = some c := by
    unfold acceptOf at hsome
    split at hsome
    · rename_i c' hc'
      split_ifs at hsome with heq
      rw [hc', heq]
      rfl
    · simp at hsome
  rw [referenced, Bool.or_eq_true]
  exact Or.inr (List.any_eq_true.mpr ⟨o, ho, by simp [hheld]⟩)

theorem Reads.reap (h : Reads s) : Reads s.reap := by
  refine ⟨h.region, fun c hc ↦ ?_, fun c ↦ ?_⟩
  · obtain ⟨hcon, hacc, hrec⟩ := h.fresh c hc
    refine ⟨?_, hacc, hrec⟩
    simp only [Server.reap]
    split_ifs
    · exact hcon
    · rw [hcon]
      rfl
  · have hown := h.each c
    by_cases halive : s.referenced c = true
    · have hsame : s.reap.connection c = s.connection c := by simp [Server.reap, halive]
      exact hown.frame ⟨hsame, rfl, rfl⟩
    · have hdead : s.reap.connection c =
          { s.connection c with isOpen := false, incoming := [] } := by
        simp [Server.reap, halive]
      have hwait : none ∉ s.accepts c := by
        intro hw
        refine halive (referenced_of_accepts fun hzero ↦ ?_)
        simp [hzero] at hw
      exact hown.of_sameBuffer hdead ⟨rfl, rfl, rfl, rfl, rfl⟩ hown.once
        (fun hw ↦ absurd hw hwait) (by simp)

theorem Reads.perform (h : Reads s) {a : Action} (hstep : s.perform a = some t) : Reads t := by
  cases a with
  | start =>
      cases Option.some.inj hstep
      exact h.start
  | stop =>
      cases Option.some.inj hstep
      exact h.stop
  | sendData c message =>
      simp only [Server.perform] at hstep
      split_ifs at hstep
      cases Option.some.inj hstep
      have hflag : Reads { s with isSending := true } :=
        h.of_frame_all h.region rfl fun _ ↦ ⟨rfl, rfl, rfl⟩
      exact hflag.issue _ (by simp) (by simp)
  | removeConnection c =>
      cases Option.some.inj hstep
      exact h.removeConnection c
  | stopAndRemoveConnection c =>
      cases Option.some.inj hstep
      exact h.stopAndRemoveConnection c
  | peerSends c bytes =>
      simp only [Server.perform, peerSends] at hstep
      split_ifs at hstep with hopen
      cases Option.some.inj hstep
      have hown := h.each c
      have hwait : none ∉ s.accepts c := by
        intro hw
        simp [(hown.waiting hw).1] at hopen
      refine h.of_update (h.lt_created_of_open hopen) ⟨rfl, rfl, rfl, rfl, rfl⟩ hown.once
        (fun hw ↦ absurd hw hwait) fun _ hok ↦ ?_
      have harrive := (hown.sound hopen hok).arrive bytes
      simp only [reading, update_connection, Function.update_self]
      exact harrive
  | complete i r => exact h.complete hstep
  | handle i os => exact h.handle hstep

theorem reads_of_reachable (h : system.Reachable anyStep s) : Reads s := by
  apply h.invariant (I := Reads)
  · rintro s rfl
    refine ⟨by simp [WholeBuffer, constructed], fun c _ ↦ ⟨rfl, rfl, rfl⟩, fun c ↦ ?_⟩
    refine ⟨rfl, ?_, rfl, rfl, Nat.zero_le _, Nat.zero_le _, ?_, ?_⟩ <;>
      simp [constructed, Connection.create, accepts]
  · intro s a t hs _ hstep
    obtain ⟨u, hu, rfl⟩ := step_eq_some hstep
    exact (hs.perform hu).reap

/-- While the socket of a started connection is open and no receive has failed,
one receive is outstanding exactly until the first `receive_cbk` has run, and
the handlers were given the beginning of the stream. -/
theorem reads_first_chunk (h : system.Reachable anyStep s)
    (hopen : (s.connection c).isOpen = true)
    (hstarted : (s.connection c).history.attached = true)
    (hok : (s.connection c).history.receiveFailed = false) :
    ((s.receives c).card = 1 ↔ (s.connection c).history.receiveCbks = 0) ∧
      (s.connection c).history.handed <+: (s.connection c).history.peerSent ∧
      (s.connection c).history.handed.length ≤ headerSize := by
  have hown := (reads_of_reachable h).each c
  have hout := (hown.sound hopen hok).outcome hstarted
  exact ⟨hout.1, hout.2.1, hown.size ▸ hout.2.2⟩

end Server

end DoipEndpoint
