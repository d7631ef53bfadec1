import DoipEndpoint.Runs
import Mathlib.Data.List.Sort
import Mathlib.Logic.Function.Basic

/-!
# Senders, a receiver and the datagrams between them

Any number of senders post datagrams, and the packets that carry them reach one
receiver.  A datagram gets there at any time, once, several times or never.
-/

section Pick

variable {α : Type*}

/-- The entries of `xs` at the places `js`. -/
def pick (xs : List α) (js : List ℕ) : List α := js.filterMap fun j ↦ xs[j]?

theorem pick_range (xs : List α) : pick xs (List.range xs.length) = xs := by
  induction xs with
  | nil => rfl
  | cons x xs ih =>
      simpa [pick, List.range_succ_eq_map, List.filterMap_map, Function.comp_def] using ih

theorem pick_filter (xs : List α) (js : List ℕ) :
    pick xs (js.filter (· < xs.length)) = pick xs js := by
  induction js with
  | nil => rfl
  | cons j js ih =>
      by_cases hj : j < xs.length
      · simpa [pick, hj] using ih
      · simpa [pick, hj] using ih

theorem filter_subperm_range {js : List ℕ} (h : js.Nodup) (n : ℕ) :
    (js.filter (· < n)).Subperm (List.range n) := by
  refine List.subperm_of_subset (h.filter _) fun j hj ↦ ?_
  simpa using (List.mem_filter.mp hj).2

theorem pick_subperm (xs : List α) {js : List ℕ} (h : js.Nodup) : (pick xs js).Subperm xs := by
  obtain ⟨ks, hperm, hsub⟩ := filter_subperm_range h xs.length
  rw [← pick_filter]
  refine ⟨pick xs ks, hperm.filterMap _, ?_⟩
  calc (pick xs ks).Sublist (pick xs (List.range xs.length)) := hsub.filterMap _
    _ = xs := pick_range xs

theorem pick_sublist (xs : List α) {js : List ℕ} (h : js.Pairwise (· < ·)) :
    (pick xs js).Sublist xs := by
  have hnodup : js.Nodup := h.imp fun hlt ↦ hlt.ne
  have hsub : (js.filter (· < xs.length)).Sublist (List.range xs.length) :=
    List.sublist_of_subperm_of_pairwise (filter_subperm_range hnodup xs.length)
      ((h.filter _).imp le_of_lt) (List.pairwise_lt_range.imp le_of_lt)
  have hpick := hsub.filterMap fun j ↦ xs[j]?
  rwa [← pick, ← pick, pick_range, pick_filter] at hpick

theorem mem_of_mem_pick {xs : List α} {js : List ℕ} {x : α} (h : x ∈ pick xs js) : x ∈ xs := by
  obtain ⟨j, _, hj⟩ := List.mem_filterMap.mp h
  exact List.mem_of_getElem? hj

theorem map_subperm {β : Type*} {xs ys : List α} (h : xs.Subperm ys) (f : α → β) :
    (xs.map f).Subperm (ys.map f) := by
  obtain ⟨zs, hperm, hsub⟩ := h
  exact ⟨zs.map f, hperm.map f, hsub.map f⟩

end Pick

/-- `arrive` is the action that brings a packet to the receiver, its `own` actions
bring none, and `arrived` lists the packets that it has not dropped. -/
structure Network (ι σ τ α β δ π : Type*) where
  sender : TransitionSystem σ α
  receiver : TransitionSystem τ β
  posted : σ → List δ
  arrived : τ → List π
  arrive : π → β
  own : β → Bool
  carries : ι → δ → π → Bool

namespace Network

/-- The `number`-th datagram of `source`, brought to the receiver as `packet`. -/
structure Delivery (ι π : Type*) where
  source : ι
  number : ℕ
  packet : π

structure State (ι σ τ π : Type*) where
  senders : ι → σ
  receiver : τ
  deliveries : List (Delivery ι π)

inductive Action (ι α β π : Type*) where
  | sends (i : ι) (a : α)
  | receives (b : β)
  | delivers (d : Delivery ι π)

open TransitionSystem

variable {ι σ τ α β δ π : Type*} [DecidableEq ι] (N : Network ι σ τ α β δ π)

/-- The datagram has been posted, and the packet carries it. -/
def comesFrom (senders : ι → σ) (d : Delivery ι π) : Bool :=
  (N.posted (senders d.source))[d.number]?.any fun x ↦ N.carries d.source x d.packet

def step (w : State ι σ τ π) : Action ι α β π → Option (State ι σ τ π)
  | .sends i a =>
      (N.sender.step (w.senders i) a).map fun s ↦
        { w with senders := Function.update w.senders i s }
  | .receives b =>
      if N.own b then (N.receiver.step w.receiver b).map fun t ↦ { w with receiver := t }
      else none
  | .delivers d =>
      if N.comesFrom w.senders d then
        (N.receiver.step w.receiver (N.arrive d.packet)).map fun t ↦
          { w with receiver := t, deliveries := w.deliveries ++ [d] }
      else none

def system : TransitionSystem (State ι σ τ π) (Action ι α β π) where
  initial w := (∀ i, N.sender.initial (w.senders i)) ∧ N.receiver.initial w.receiver ∧
    w.deliveries = []
  step := N.step

/-- All sides keep to guards of their own. -/
def guarded (p : σ → α → Prop) (q : τ → β → Prop) (w : State ι σ τ π) :
    Action ι α β π → Prop
  | .sends i a => p (w.senders i) a
  | .receives b => q w.receiver b
  | .delivers d => q w.receiver (N.arrive d.packet)

instance {p : σ → α → Prop} {q : τ → β → Prop} [∀ s a, Decidable (p s a)]
    [∀ t b, Decidable (q t b)] (w : State ι σ τ π) :
    (a : Action ι α β π) → Decidable (N.guarded p q w a)
  | .sends i a => inferInstanceAs (Decidable (p (w.senders i) a))
  | .receives b => inferInstanceAs (Decidable (q w.receiver b))
  | .delivers d => inferInstanceAs (Decidable (q w.receiver (N.arrive d.packet)))

/-- What is posted stays posted, and the receiver drops packets but makes none
up. -/
structure Lawful : Prop where
  empty : ∀ t, N.receiver.initial t → N.arrived t = []
  grows : ∀ s a s', N.sender.step s a = some s' → N.posted s <+: N.posted s'
  arrives : ∀ t p t', N.receiver.step t (N.arrive p) = some t' →
    N.arrived t' = N.arrived t ++ [p]
  keeps : ∀ t b t', N.own b = true → N.receiver.step t b = some t' →
    (N.arrived t').Sublist (N.arrived t)

/-- Every delivery brought something that was posted, and the receiver has
nothing else. -/
structure Brought (w : State ι σ τ π) : Prop where
  comesFrom : ∀ d ∈ w.deliveries, N.comesFrom w.senders d = true
  arrived : (N.arrived w.receiver).Sublist (w.deliveries.map Delivery.packet)

variable {N} {p : σ → α → Prop} {q : τ → β → Prop} {w v : State ι σ τ π}

theorem comesFrom_update (hL : N.Lawful) {senders : ι → σ} {i : ι} {a : α} {s : σ}
    (hs : N.sender.step (senders i) a = some s) {d : Delivery ι π}
    (h : N.comesFrom senders d = true) :
    N.comesFrom (Function.update senders i s) d = true := by
  rcases eq_or_ne d.source i with hi | hi
  · obtain ⟨more, hmore⟩ := hL.grows _ _ _ hs
    obtain ⟨x, hx, hcarries⟩ := (Option.any_eq_true _ _).mp h
    have hlater : (N.posted s)[d.number]? = some x := by
      rw [hi] at hx
      obtain ⟨hlt, _⟩ := List.getElem?_eq_some_iff.mp hx
      rw [← hmore, List.getElem?_append_left hlt, hx]
    simp only [comesFrom, hi, Function.update_self, hlater, Option.any_some]
    exact hi ▸ hcarries
  · simpa [comesFrom, Function.update_of_ne hi] using h

theorem brought_step (hL : N.Lawful) {a : Action ι α β π} (h : N.Brought w)
    (hstep : N.step w a = some v) : N.Brought v := by
  cases a with
  | sends i a =>
      obtain ⟨s, hs, rfl⟩ := Option.map_eq_some_iff.mp hstep
      exact ⟨fun d hd ↦ comesFrom_update hL hs (h.comesFrom d hd), h.arrived⟩
  | receives b =>
      simp only [step] at hstep
      split_ifs at hstep with hown
      obtain ⟨t, ht, rfl⟩ := Option.map_eq_some_iff.mp hstep
      exact ⟨h.comesFrom, (hL.keeps _ b t hown ht).trans h.arrived⟩
  | delivers d =>
      simp only [step] at hstep
      split_ifs at hstep with hd
      obtain ⟨t, ht, rfl⟩ := Option.map_eq_some_iff.mp hstep
      refine ⟨?_, ?_⟩
      · intro e he
        rcases List.mem_append.mp he with hold | hnew
        · exact h.comesFrom e hold
        · exact List.mem_singleton.mp hnew ▸ hd
      · rw [hL.arrives _ _ t ht, List.map_append]
        exact h.arrived.append (List.Sublist.refl _)

theorem brought_of_initial (hL : N.Lawful) (h : N.system.initial w) : N.Brought w := by
  obtain ⟨_, hreceiver, hnone⟩ := h
  refine ⟨by simp [hnone], ?_⟩
  rw [hL.empty _ hreceiver]
  exact List.nil_sublist _

theorem Brought.leads (hL : N.Lawful) (h : N.Brought w)
    (hleads : N.system.Leads (N.guarded p q) w v) : N.Brought v :=
  hleads.invariant (I := N.Brought) (fun _ _ _ hw _ hstep ↦ brought_step hL hw hstep) h

/-- Each sender runs as it would on its own. -/
theorem leads_sender (h : N.system.Leads (N.guarded p q) w v) (i : ι) :
    N.sender.Leads p (w.senders i) (v.senders i) := by
  apply h.invariant (I := fun v ↦ N.sender.Leads p (w.senders i) (v.senders i)) _ (Leads.refl _)
  intro u a v hu hguard hstep
  cases a with
  | sends j a =>
      obtain ⟨s, hs, rfl⟩ := Option.map_eq_some_iff.mp hstep
      rcases eq_or_ne i j with rfl | hne
      · simpa using hu.snoc hguard hs
      · simpa [Function.update_of_ne hne] using hu
  | receives b =>
      change N.step u (.receives b) = some v at hstep
      simp only [step] at hstep
      split_ifs at hstep
      obtain ⟨t, _, rfl⟩ := Option.map_eq_some_iff.mp hstep
      exact hu
  | delivers d =>
      change N.step u (.delivers d) = some v at hstep
      simp only [step] at hstep
      split_ifs at hstep
      obtain ⟨t, _, rfl⟩ := Option.map_eq_some_iff.mp hstep
      exact hu

/-- So does the receiver. -/
theorem leads_receiver (h : N.system.Leads (N.guarded p q) w v) :
    N.receiver.Leads q w.receiver v.receiver := by
  apply h.invariant (I := fun v ↦ N.receiver.Leads q w.receiver v.receiver) _ (Leads.refl _)
  intro u a v hu hguard hstep
  cases a with
  | sends j a =>
      obtain ⟨s, _, rfl⟩ := Option.map_eq_some_iff.mp hstep
      exact hu
  | receives b =>
      change N.step u (.receives b) = some v at hstep
      simp only [step] at hstep
      split_ifs at hstep
      obtain ⟨t, ht, rfl⟩ := Option.map_eq_some_iff.mp hstep
      exact hu.snoc hguard ht
  | delivers d =>
      change N.step u (.delivers d) = some v at hstep
      simp only [step] at hstep
      split_ifs at hstep
      obtain ⟨t, ht, rfl⟩ := Option.map_eq_some_iff.mp hstep
      exact hu.snoc hguard ht

/-! ## What comes from one sender -/

def numbers (i : ι) (ds : List (Delivery ι π)) : List ℕ :=
  (ds.filter (·.source = i)).map Delivery.number

/-- What the packets from one sender carry is what was posted under their numbers. -/
theorem map_eq_pick {γ : Type*} {senders : ι → σ} {ds : List (Delivery ι π)}
    (h : ∀ d ∈ ds, N.comesFrom senders d = true) {i : ι} {f : π → γ} {g : δ → γ}
    (hcarries : ∀ x ∈ N.posted (senders i), ∀ p, N.carries i x p = true → f p = g x) :
    (ds.filter (·.source = i)).map (fun d ↦ f d.packet) =
      (pick (N.posted (senders i)) (numbers i ds)).map g := by
  induction ds with
  | nil => rfl
  | cons d ds ih =>
      have hrest := ih fun e he ↦ h e (List.mem_cons_of_mem d he)
      rcases eq_or_ne d.source i with hi | hi
      · obtain ⟨x, hx, hd⟩ := (Option.any_eq_true _ _).mp (h d List.mem_cons_self)
        rw [hi] at hx hd
        have hmem : x ∈ N.posted (senders i) := List.mem_of_getElem? hx
        have hnumbers : numbers i (d :: ds) = d.number :: numbers i ds := by simp [numbers, hi]
        simpa [hnumbers, pick, hx, hi, hcarries x hmem _ hd] using hrest
      · simpa [numbers, hi] using hrest

theorem carries_of_mem_pick {senders : ι → σ} {ds : List (Delivery ι π)}
    (h : ∀ d ∈ ds, N.comesFrom senders d = true) {i : ι} {x : δ}
    (hx : x ∈ pick (N.posted (senders i)) (numbers i ds)) : ∃ p, N.carries i x p = true := by
  obtain ⟨j, hj, hplace⟩ := List.mem_filterMap.mp hx
  obtain ⟨d, hd, rfl⟩ := List.mem_map.mp hj
  obtain ⟨hd, hsource⟩ := List.mem_filter.mp hd
  obtain ⟨y, hy, hcarries⟩ := (Option.any_eq_true _ _).mp (h d hd)
  obtain rfl : d.source = i := by simpa using hsource
  obtain rfl : y = x := Option.some.inj (hy.symm.trans hplace)
  exact ⟨d.packet, hcarries⟩

end Network
