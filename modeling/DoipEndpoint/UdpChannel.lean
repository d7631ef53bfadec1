import DoipEndpoint.Network
import DoipEndpoint.UdpSend
import DoipEndpoint.UdpServer.Reactive

/-!
# From UDP senders to the UDP server

The UDP server with any number of sockets that send to it: `send_data` on one side
and `on_message_received` on the other, with the bundled operations on both.
-/

namespace DoipEndpoint

open TransitionSystem

namespace UdpSend

/-- A step puts at most one datagram on the network, one that the socket takes. -/
theorem network_step {largest : ℕ} {s t : Outbound} {a : Action}
    (h : step largest s a = some t) :
    t.network = s.network ∨
      ∃ d, t.network = s.network ++ [d] ∧ d.payload.length ≤ largest := by
  cases a with
  | clientSends buffer =>
      cases Option.some.inj h
      left
      simp only [Client.Udp.sendData, asyncSend]
      split_ifs <;> rfl
  | serverSends buffer remote =>
      cases Option.some.inj h
      left
      simp only [Server.Udp.sendData, asyncSend]
      split_ifs <;> rfl
  | store address byte =>
      cases Option.some.inj h
      exact Or.inl rfl
  | connects peer =>
      simp only [step] at h
      split_ifs at h
      cases Option.some.inj h
      exact Or.inl rfl
  | transfer =>
      simp only [step] at h
      cases hpending : s.pending with
      | nil => simp [hpending] at h
      | cons o rest =>
          simp only [hpending] at h
          cases hreceiver : receiver s o with
          | none => simp [hreceiver] at h
          | some e =>
              simp only [hreceiver] at h
              split_ifs at h with hfits
              cases Option.some.inj h
              exact Or.inr ⟨_, rfl, by simpa using hfits⟩
  | fail error =>
      simp only [step] at h
      cases hpending : s.pending with
      | nil => simp [hpending] at h
      | cons o rest =>
          simp only [hpending] at h
          split_ifs at h
          cases Option.some.inj h
          exact Or.inl rfl
  | callback i =>
      simp only [step] at h
      split_ifs at h
      cases Option.some.inj h
      exact Or.inl rfl
  | close =>
      cases Option.some.inj h
      exact Or.inl rfl

theorem length_payload_le {largest : ℕ} {s : Outbound}
    {allowed : Outbound → Action → Prop} (h : (system largest).Reachable allowed s) :
    ∀ d ∈ s.network, d.payload.length ≤ largest := by
  apply h.invariant (I := fun s ↦ ∀ d ∈ s.network, d.payload.length ≤ largest)
  · rintro s ⟨memory, rfl⟩
    simp [opened]
  · intro s a t hs _ hstep
    rcases network_step hstep with hsame | ⟨d, hnew, hd⟩
    · rwa [hsame]
    · intro e he
      rw [hnew] at he
      rcases List.mem_append.mp he with hold | hlast
      · exact hs e hold
      · rwa [List.mem_singleton.mp hlast]

end UdpSend

namespace UdpServer

namespace Reactive

/-- The packets that have been brought to the socket and not dropped. -/
def brought (s : Reactive) : List Asio.Packet := s.taken ++ s.packets

def bringsNothing : Action → Bool
  | .arrives _ => false
  | .start _ | .stop | .perform _ _ | .handle _ _ => true

theorem brought_receiveUnicast (ioctl : ErrorCode) (s : Reactive) :
    (s.receiveUnicast ioctl).brought = s.brought := by
  simp only [receiveUnicast, asyncReceiveFrom, startOp]
  split_ifs <;> rfl

theorem brought_perform {s t : Reactive} {i : ℕ} {errors : List ErrorCode}
    (h : s.perform i errors = some t) : t.brought = s.brought := by
  simp only [perform] at h
  split at h
  · obtain ⟨⟨done, op, remote, buffer⟩, _, rfl⟩ := Option.map_eq_some_iff.mp h
    split_ifs
    · simp only [brought, List.append_assoc, List.take_append_drop]
    · rfl
    · rfl
  · simp at h

theorem brought_handle {s t : Reactive} {i : ℕ} {ioctl : ErrorCode}
    (h : step s (.handle i ioctl) = some t) : t.brought = s.brought := by
  simp only [step] at h
  split at h
  · cases Option.some.inj h
    simp only [onUnicastReceived]
    split_ifs <;> rfl
  · simp only [onMessageReceived] at h
    split_ifs at h
    · split at h
      · simp at h
      · cases Option.some.inj h
        rfl
    · cases Option.some.inj h
      rfl
  · split_ifs at h
    cases Option.some.inj h
    rw [brought_receiveUnicast]
    rfl
  · simp at h
  · simp at h

theorem brought_step {s t : Reactive} {a : Action} (ha : bringsNothing a = true)
    (h : step s a = some t) : t.brought.Sublist s.brought := by
  cases a with
  | start ioctl =>
      simp only [step] at h
      split_ifs at h
      cases Option.some.inj h
      rw [start, brought_receiveUnicast]
  | stop =>
      cases Option.some.inj h
      simp only [stop]
      split_ifs
      · exact (List.Sublist.refl _).append (List.nil_sublist _)
      · exact List.Sublist.refl _
  | arrives p => simp [bringsNothing] at ha
  | perform i errors =>
      simp only [step] at h
      split_ifs at h
      rw [brought_perform h]
  | handle i ioctl => rw [brought_handle h]

end Reactive

end UdpServer

open UdpServer UdpServer.Reactive

/-- The sockets at the endpoints `address` and the server at `here`. -/
def udpNetwork (ι : Type*) (largest : ℕ) (here : Endpoint) (address : ι → Endpoint) :
    Network ι UdpSend.Outbound Reactive UdpSend.Action Reactive.Action UdpSend.Datagram
      Asio.Packet where
  sender := UdpSend.system largest
  receiver := Reactive.system
  posted := UdpSend.Outbound.network
  arrived := brought
  arrive := .arrives
  own := bringsNothing
  carries i d p := d.receiver = here ∧ p.sender = address i ∧ p.payload = d.payload

/-- No lent memory is overwritten, and the receiver is not started. -/
abbrev udpGuard (ι : Type*) [DecidableEq ι] (largest : ℕ) (here : Endpoint)
    (address : ι → Endpoint) :=
  (udpNetwork ι largest here address).guarded
    (fun s a ↦ UdpSend.keepsLent largest s a = true) ordinary

/-- The messages that `on_message_received` was given from `e` without an error. -/
def messagesFrom (e : Endpoint) (calls : List Call) : List (List UInt8) :=
  (calls.filter fun c ↦ c.arguments.error = .success ∧ c.remote = e).map Call.printed

/-- The messages that a socket was asked to send to `here` or to its peer. -/
def messagesTo (here : Endpoint) (s : UdpSend.Outbound) : List (List UInt8) :=
  (s.sent.filter fun m ↦ m.1 = none ∨ m.1 = some here).map Prod.snd

theorem lawful_udpNetwork {ι : Type*} (largest : ℕ) (here : Endpoint) (address : ι → Endpoint) :
    (udpNetwork ι largest here address).Lawful where
  empty := by
    rintro t rfl
    rfl
  grows s a t h := by
    rcases UdpSend.network_step h with hsame | ⟨d, hnew, _⟩
    · change s.network <+: t.network
      rw [hsame]
    · change s.network <+: t.network
      rw [hnew]
      exact List.prefix_append _ _
  arrives t p t' h := by
    change Reactive.step t (.arrives p) = some t' at h
    simp only [Reactive.step] at h
    split_ifs at h
    cases Option.some.inj h
    exact (List.append_assoc t.taken t.packets [p]).symm
  keeps t b t' hown h := brought_step hown h

variable {ι : Type*} [DecidableEq ι] {largest : ℕ} {here : Endpoint} {address : ι → Endpoint}

/-- What a packet of one socket is handed over as. -/
theorem printed_handedOver (hlargest : largest ≤ maxUdpMessageSize) {d : UdpSend.Datagram}
    {p : Asio.Packet} (hd : d.payload.length ≤ largest) (hp : p.payload = d.payload) :
    (handedOver p).printed = d.payload := by
  change p.payload.take maxUdpMessageSize = d.payload
  rw [hp, List.take_of_length_le (hd.trans hlargest)]

/-- What is handed over from one socket, by the numbers of its datagrams. -/
theorem messagesFrom_eq (hlargest : largest ≤ maxUdpMessageSize)
    (hinj : Function.Injective address) {senders : ι → UdpSend.Outbound}
    (hshort : ∀ i, ∀ d ∈ (senders i).network, d.payload.length ≤ largest)
    {calls : List Call} {ds : List (Network.Delivery ι Asio.Packet)}
    (hds : ∀ d ∈ ds, (udpNetwork ι largest here address).comesFrom senders d = true)
    (hcalls : (calls.filter fun c ↦ c.arguments.error = .success) =
      ds.map fun d ↦ handedOver d.packet) (i : ι) :
    messagesFrom (address i) calls =
      (pick (senders i).network (Network.numbers i ds)).map UdpSend.Datagram.payload := by
  have hcarries : ∀ x ∈ (senders i).network, ∀ p,
      (udpNetwork ι largest here address).carries i x p = true →
        (handedOver p).printed = x.payload := by
    intro x hx p hp
    have hpayload : p.payload = x.payload := by
      simp only [udpNetwork, decide_eq_true_eq] at hp
      exact hp.2.2
    exact printed_handedOver hlargest (hshort i x hx) hpayload
  have hsource : ∀ d ∈ ds, decide ((handedOver d.packet).remote = address i) =
      decide (d.source = i) := by
    intro d hd
    obtain ⟨x, _, hx⟩ := (Option.any_eq_true _ _).mp (hds d hd)
    have hsender : (handedOver d.packet).remote = address d.source := by
      simp only [udpNetwork, decide_eq_true_eq] at hx
      exact hx.2.1
    rw [hsender, decide_eq_decide]
    exact hinj.eq_iff
  calc messagesFrom (address i) calls
      = ((calls.filter fun c ↦ c.arguments.error = .success).filter
          fun c ↦ c.remote = address i).map Call.printed := by
        simp only [messagesFrom, List.filter_filter, Bool.decide_and, Bool.and_comm]
    _ = (ds.filter fun d ↦ (handedOver d.packet).remote = address i).map
          fun d ↦ (handedOver d.packet).printed := by
        rw [hcalls, List.filter_map, List.map_map]
        rfl
    _ = (ds.filter fun d ↦ d.source = i).map fun d ↦ (handedOver d.packet).printed := by
        rw [List.filter_congr hsource]
    _ = _ := Network.map_eq_pick hds hcarries

/-- Datagrams for `here` are messages for `here`, and no message is two of them. -/
theorem pick_asks {s : UdpSend.Outbound} (h : UdpSend.Whole largest s) {js : List ℕ}
    (hhere : ∀ d ∈ pick s.network js, d.receiver = here) :
    (pick s.network js).map UdpSend.Datagram.payload =
      (((pick s.network js).map UdpSend.Datagram.asks).filter
        fun m ↦ m.1 = none ∨ m.1 = some here).map Prod.snd := by
  have hall : ∀ m ∈ (pick s.network js).map UdpSend.Datagram.asks,
      decide (m.1 = none ∨ m.1 = some here) = true := by
    intro m hm
    obtain ⟨d, hd, rfl⟩ := List.mem_map.mp hm
    rw [decide_eq_true_eq, ← hhere d hd]
    exact h.receiver d (mem_of_mem_pick hd)
  rw [List.filter_eq_self.mpr hall, List.map_map]
  rfl

theorem asks_sublist {s : UdpSend.Outbound} (h : UdpSend.Whole largest s) :
    (s.network.map UdpSend.Datagram.asks).Sublist s.sent :=
  (List.sublist_append_left _ _).trans h.order

theorem pick_messages_subperm {s : UdpSend.Outbound} (h : UdpSend.Whole largest s) {js : List ℕ}
    (hhere : ∀ d ∈ pick s.network js, d.receiver = here) (hjs : js.Nodup) :
    ((pick s.network js).map UdpSend.Datagram.payload).Subperm (messagesTo here s) := by
  have hasks := (map_subperm (pick_subperm s.network hjs) UdpSend.Datagram.asks).trans
    (asks_sublist h).subperm
  rw [pick_asks h hhere]
  exact map_subperm (hasks.filter _) Prod.snd

theorem pick_messages_sublist {s : UdpSend.Outbound} (h : UdpSend.Whole largest s) {js : List ℕ}
    (hhere : ∀ d ∈ pick s.network js, d.receiver = here) (hjs : js.Pairwise (· < ·)) :
    ((pick s.network js).map UdpSend.Datagram.payload).Sublist (messagesTo here s) := by
  have hasks := ((pick_sublist s.network hjs).map UdpSend.Datagram.asks).trans (asks_sublist h)
  rw [pick_asks h hhere]
  exact (hasks.filter _).map Prod.snd

theorem pick_messages_subset {s : UdpSend.Outbound} (h : UdpSend.Whole largest s) {js : List ℕ}
    (hhere : ∀ d ∈ pick s.network js, d.receiver = here) :
    (pick s.network js).map UdpSend.Datagram.payload ⊆ messagesTo here s := by
  have hasks : (pick s.network js).map UdpSend.Datagram.asks ⊆ s.sent := by
    intro m hm
    obtain ⟨d, hd, rfl⟩ := List.mem_map.mp hm
    exact (asks_sublist h).subset (List.mem_map_of_mem (mem_of_mem_pick hd))
  rw [pick_asks h hhere]
  refine List.map_subset _ fun m hm ↦ ?_
  obtain ⟨hm, hto⟩ := List.mem_filter.mp hm
  exact List.mem_filter.mpr ⟨hasks hm, hto⟩

/-- Sockets with different addresses send datagrams that fit into the buffer, their
callers overwrite no lent memory, and no packet information is cut off.  Whatever the
network does otherwise, a server that is started once hands over only whole messages,
each under the address of a socket that was asked to send it there or to its peer; none
is handed over more often than it was sent unless the network repeats it, and they come
in the order in which they were sent unless the network changes it. -/
theorem udp_messages_arrive (hlargest : largest ≤ maxUdpMessageSize)
    (hinj : Function.Injective address)
    {w₀ w₁ w : Network.State ι UdpSend.Outbound Reactive Asio.Packet} {ioctl : ErrorCode}
    (hbefore : (udpNetwork ι largest here address).system.Reachable
      (udpGuard ι largest here address) w₀)
    (hstart : (udpNetwork ι largest here address).step w₀ (.receives (.start ioctl)) = some w₁)
    (hafter : (udpNetwork ι largest here address).system.Leads
      (udpGuard ι largest here address) w₁ w) :
    (∀ c ∈ w.receiver.calls, c.arguments.error = .success → ∃ i, c.remote = address i) ∧
    ∀ i, messagesFrom (address i) w.receiver.calls ⊆ messagesTo here (w.senders i) ∧
      ((Network.numbers i w.deliveries).Nodup →
        (messagesFrom (address i) w.receiver.calls).Subperm (messagesTo here (w.senders i))) ∧
      ((Network.numbers i w.deliveries).Pairwise (· < ·) →
        (messagesFrom (address i) w.receiver.calls).Sublist (messagesTo here (w.senders i))) := by
  have hlawful := lawful_udpNetwork largest here address
  obtain ⟨w', hinitial, hleads⟩ := hbefore
  have hbrought := (Network.brought_of_initial hlawful hinitial).leads hlawful hleads
  have hbrought := (Network.brought_step hlawful hbrought hstart).leads hlawful hafter
  obtain ⟨s₁, hs₁, rfl⟩ : ∃ s₁, Reactive.step w₀.receiver (.start ioctl) = some s₁ ∧
      { w₀ with receiver := s₁ } = w₁ := Option.map_eq_some_iff.mp hstart
  have hsenders : ∀ i, (UdpSend.system largest).Reachable
      (fun s a ↦ UdpSend.keepsLent largest s a = true) (w.senders i) := fun i ↦
    ⟨_, hinitial.1 i, (Network.leads_sender hleads i).trans (Network.leads_sender hafter i)⟩
  obtain ⟨t₀, t, ht₀, ht, hshows, _⟩ := refines_of_started
    ⟨_, hinitial.2.1, Network.leads_receiver hleads⟩ hs₁ (Network.leads_receiver hafter)
  obtain ⟨handed, waiting, htaken, _, hcalls⟩ := hshows.delivered (serves_of_started ht₀ ht)
  have hhanded : handed.Sublist (w.deliveries.map Network.Delivery.packet) := by
    refine List.Sublist.trans ?_ hbrought.arrived
    change handed.Sublist (w.receiver.taken ++ w.receiver.packets)
    rw [htaken, List.append_assoc]
    exact List.sublist_append_left _ _
  obtain ⟨ds, hds, rfl⟩ := List.sublist_map_iff.mp hhanded
  rw [List.map_map] at hcalls
  have hfrom : ∀ d ∈ ds, (udpNetwork ι largest here address).comesFrom w.senders d = true :=
    fun d hd ↦ hbrought.comesFrom d (hds.subset hd)
  constructor
  · intro c hc herror
    have hmem : c ∈ w.receiver.calls.filter fun c ↦ c.arguments.error = .success :=
      List.mem_filter.mpr ⟨hc, by simpa using herror⟩
    rw [hcalls] at hmem
    obtain ⟨d, hd, rfl⟩ := List.mem_map.mp hmem
    obtain ⟨x, _, hx⟩ := (Option.any_eq_true _ _).mp (hfrom d hd)
    simp only [udpNetwork, decide_eq_true_eq] at hx
    exact ⟨d.source, hx.2.1⟩
  · intro i
    have hshort := fun i ↦ UdpSend.length_payload_le (hsenders i)
    have hwhole := UdpSend.whole_of_reachable (hsenders i)
    have hhere : ∀ d ∈ pick (w.senders i).network (Network.numbers i ds), d.receiver = here := by
      intro d hd
      obtain ⟨p, hp⟩ := Network.carries_of_mem_pick hfrom hd
      simp only [udpNetwork, decide_eq_true_eq] at hp
      exact hp.1
    have hnumbers : (Network.numbers i ds).Sublist (Network.numbers i w.deliveries) :=
      (hds.filter _).map _
    rw [messagesFrom_eq hlargest hinj hshort hfrom hcalls i]
    exact ⟨pick_messages_subset hwhole hhere,
      fun hnodup ↦ pick_messages_subperm hwhole hhere (hnodup.sublist hnumbers),
      fun hlt ↦ pick_messages_sublist hwhole hhere (hlt.sublist hnumbers)⟩

def udpVehicle : Endpoint := ⟨.v4 0xc0a80001#32, 13400⟩

def twoTesters (second : Bool) : Endpoint := ⟨.v4 0xc0a80002#32, if second then 50002 else 50001⟩

def udpStarted (started : Bool) : Network.State Bool UdpSend.Outbound Reactive Asio.Packet :=
  ⟨fun _ ↦ UdpSend.opened UInt8.ofNat,
    if started then constructed.start .success else constructed, []⟩

/-- The only operation is performed, and its handler runs over `n` bytes. -/
def receiveNext (n : ℕ) : List (Network.Action Bool UdpSend.Action Reactive.Action Asio.Packet) :=
  .receives (.perform 0 []) :: List.replicate (n + 3) (.receives (.handle 0 .success))

/-- The network repeats the datagram of one socket and not that of the other. -/
def repeated : List (Network.Action Bool UdpSend.Action Reactive.Action Asio.Packet) :=
  [.sends false (.connects udpVehicle), .sends false (.clientSends ⟨4, 2⟩),
    .sends false .transfer, .sends true (.serverSends ⟨8, 1⟩ udpVehicle), .sends true .transfer,
    .delivers ⟨false, 0, twoTesters false, [], [4, 5]⟩,
    .delivers ⟨true, 0, twoTesters true, [], [8]⟩,
    .delivers ⟨false, 0, twoTesters false, [], [4, 5]⟩] ++
  receiveNext 2 ++ receiveNext 1 ++ receiveNext 2

theorem udp_messages_arrive_repeated :
    ∃ w : Network.State Bool UdpSend.Outbound Reactive Asio.Packet,
      messagesFrom (twoTesters false) w.receiver.calls = [[4, 5], [4, 5]] ∧
        messagesFrom (twoTesters false) w.receiver.calls ⊆
          messagesTo udpVehicle (w.senders false) ∧
        messagesFrom (twoTesters true) w.receiver.calls = [[8]] ∧
        (messagesFrom (twoTesters true) w.receiver.calls).Sublist
          (messagesTo udpVehicle (w.senders true)) := by
  have hrun : ((udpNetwork Bool 2 udpVehicle twoTesters).system.run
      (udpGuard Bool 2 udpVehicle twoTesters) repeated (udpStarted true)).map (fun w ↦
        (messagesFrom (twoTesters false) w.receiver.calls,
          messagesFrom (twoTesters true) w.receiver.calls,
          Network.numbers true w.deliveries)) = some ([[4, 5], [4, 5]], [[8]], [0]) := by
    decide +kernel
  obtain ⟨w, hw, hseen⟩ := Option.map_eq_some_iff.mp hrun
  simp only [Prod.mk.injEq] at hseen
  obtain ⟨hfirst, hsecond, hnumbers⟩ := hseen
  have hinitial : (udpNetwork Bool 2 udpVehicle twoTesters).system.initial (udpStarted false) :=
    ⟨fun _ ↦ ⟨_, rfl⟩, rfl, rfl⟩
  have htwo : ∀ a b, twoTesters a = twoTesters b → a = b := by decide
  have hinj : Function.Injective twoTesters := fun a b ↦ htwo a b
  have hstart : (udpNetwork Bool 2 udpVehicle twoTesters).step (udpStarted false)
      (.receives (.start .success)) = some (udpStarted true) := rfl
  have h := (udp_messages_arrive (by decide) hinj (Reachable.initial hinitial) hstart
    (leads_of_run hw)).2
  refine ⟨w, hfirst, (h false).1, hsecond, (h true).2.2 ?_⟩
  rw [hnumbers]
  exact List.pairwise_singleton _ _

end DoipEndpoint
