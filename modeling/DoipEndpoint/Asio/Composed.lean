import DoipEndpoint.Asio.Write
import DoipEndpoint.Runs

/-!
# A composed write among other steps

`async_write` asks its completion condition before the first and after every partial
write, and offers at most as many of the remaining bytes as that returns; 0 ends the
write.  Between two of its steps its surroundings may take any steps of their own, and
the condition may change them.
-/

namespace DoipEndpoint

namespace Asio

open TransitionSystem

inductive Phase where
  /-- An `async_write_some` is pending that offers at most `maxSize` bytes. -/
  | offered (maxSize : ℕ)
  /-- It has completed, and the completion condition is asked next. -/
  | completed (error : ErrorCode)
  | ended (error : ErrorCode)
  deriving DecidableEq, Repr

/-- One composed write with its surroundings, and the bytes that it has put on the
stream. -/
structure Composed (σ : Type*) where
  env : σ
  write : Write
  phase : Phase
  wire : List UInt8

inductive Composed.Action (α : Type*) where
  | env (a : α)
  | transfer (n : ℕ)
  | fail (error : ErrorCode)
  | ask
  deriving DecidableEq, Repr

/-- What `async_write` is given: its surroundings, the states in which it may be called
with a message, the steps that the surroundings may take while it goes on, and its
completion condition. -/
structure Setting (σ α : Type*) where
  surroundings : TransitionSystem σ α
  starts : σ → List UInt8 → Prop
  others : σ → α → Bool
  condition : ErrorCode → ℕ → ℕ → σ → ℕ × σ

def Phase.isEnded : Phase → Bool
  | .ended _ => true
  | .offered _ | .completed _ => false

/-- The pending `async_write_some` takes `n` of the bytes that it offers. -/
def Composed.transfer {σ : Type*} (n : ℕ) (c : Composed σ) : Option (Composed σ) :=
  match c.phase with
  | .offered maxSize =>
      let w : WriteSome := ⟨c.write, maxSize⟩
      if h : n ≤ w.offered.length then
        if n = 0 then none
        else
          some { c with
            write := (w.transfer n h).consumed
            phase := .completed .success
            wire := c.wire ++ w.offered.take n }
      else none
  | .completed _ | .ended _ => none

namespace Setting

variable {σ α : Type*} (S : Setting σ α)

def ask (error : ErrorCode) (c : Composed σ) : Composed σ :=
  let answer := S.condition error c.write.transferred c.write.message.length c.env
  { c with
    env := answer.2
    phase := if answer.1 = 0 then .ended error else .offered answer.1 }

/-- The condition is asked for the first time. -/
def start (env : σ) (message : List UInt8) (h : message.length < 2 ^ 32) : Composed σ :=
  S.ask .success ⟨env, Write.start message h, .completed .success, []⟩

def step (c : Composed σ) : Composed.Action α → Option (Composed σ)
  | .env a =>
      if c.phase.isEnded || S.others c.env a then
        match S.surroundings.step c.env a with
        | none => none
        | some env => some { c with env := env }
      else none
  | .transfer n => c.transfer n
  | .fail error =>
      match c.phase with
      | .offered _ => if error = .success then none else some { c with phase := .completed error }
      | .completed _ | .ended _ => none
  | .ask =>
      match c.phase with
      | .completed error => some (S.ask error c)
      | .offered _ | .ended _ => none

def system : TransitionSystem (Composed σ) (Composed.Action α) where
  initial c := ∃ env message h, S.starts env message ∧ c = S.start env message h
  step := S.step

/-- The steps of the write itself. -/
def own (_ : Composed σ) : Composed.Action α → Prop
  | .env _ => False
  | _ => True

/-- The condition asks for all that is left as long as there is no error, and for
nothing afterwards; it changes the surroundings as steps of their own could. -/
structure Orderly : Prop where
  success : ∀ (w : Write) (env : σ),
    S.condition .success w.transferred w.message.length env = (w.rest.length, env)
  failure : ∀ error transferred size env, error ≠ .success →
    (S.condition error transferred size env).1 = 0
  leads : ∀ error transferred size env,
    S.surroundings.Leads anyStep env (S.condition error transferred size env).2
  starts : ∀ env message, S.starts env message → S.surroundings.Reachable anyStep env

/-- What has been transferred is on the stream, all of the rest is offered, and only
an error ends the write before its message has been transferred. -/
structure Sound (c : Composed σ) : Prop where
  wire : c.wire = c.write.message.take c.write.transferred
  offered : ∀ maxSize, c.phase = .offered maxSize → maxSize = c.write.rest.length ∧ 0 < maxSize
  ended : c.phase = .ended .success → c.write.rest = []

variable {S} {c u : Composed σ} {error : ErrorCode}

/-! ## The completion condition -/

theorem Orderly.ask_success (h : S.Orderly) (c : Composed σ) : S.ask .success c =
    { c with phase := if c.write.rest.length = 0 then .ended .success
      else .offered c.write.rest.length } := by
  simp only [ask, h.success]

theorem Orderly.ask_failure (h : S.Orderly) (herror : error ≠ .success) (c : Composed σ) :
    (S.ask error c).phase = .ended error ∧ (S.ask error c).write = c.write ∧
      (S.ask error c).wire = c.wire := by
  refine ⟨?_, rfl, rfl⟩
  simp only [ask, h.failure error _ _ _ herror, ↓reduceIte]

theorem Sound.ask (hS : S.Orderly) (h : Sound c) (error : ErrorCode) :
    Sound (S.ask error c) := by
  by_cases herror : error = .success
  · rw [herror, hS.ask_success]
    refine ⟨h.wire, fun maxSize hphase ↦ ?_, fun hphase ↦ ?_⟩
    · simp only at hphase
      split_ifs at hphase with hrest
      cases Phase.offered.inj hphase
      exact ⟨rfl, Nat.pos_of_ne_zero hrest⟩
    · simp only at hphase
      split_ifs at hphase with hrest
      exact List.length_eq_zero_iff.mp hrest
  · obtain ⟨hphase, hwrite, hwire⟩ := hS.ask_failure herror c
    refine ⟨?_, fun maxSize hoffered ↦ ?_, fun hended ↦ ?_⟩
    · rw [hwire, hwrite]
      exact h.wire
    · rw [hphase] at hoffered
      exact absurd hoffered (by simp)
    · rw [hphase] at hended
      exact absurd (Phase.ended.inj hended) herror

/-! ## Steps -/

inductive Performed (S : Setting σ α) (c : Composed σ) : Composed.Action α → Composed σ → Prop
  | env (a : α) (env : σ) (h : S.surroundings.step c.env a = some env) :
      Performed S c (.env a) { c with env := env }
  | transferred (n maxSize : ℕ) (hphase : c.phase = .offered maxSize) (hpos : 0 < n)
      (h : n ≤ (WriteSome.mk c.write maxSize).offered.length) :
      Performed S c (.transfer n) { c with
        write := ((WriteSome.mk c.write maxSize).transfer n h).consumed
        phase := .completed .success
        wire := c.wire ++ (WriteSome.mk c.write maxSize).offered.take n }
  | failed (error : ErrorCode) (maxSize : ℕ) (hphase : c.phase = .offered maxSize)
      (herror : error ≠ .success) : Performed S c (.fail error) { c with phase := .completed error }
  | asked (error : ErrorCode) (hphase : c.phase = .completed error) :
      Performed S c .ask (S.ask error c)

theorem performed_of_step {a : Composed.Action α} (h : S.step c a = some u) :
    Performed S c a u := by
  cases a with
  | env a =>
      simp only [step] at h
      split_ifs at h
      cases henv : S.surroundings.step c.env a with
      | none => simp [henv] at h
      | some env =>
          simp only [henv] at h
          obtain rfl := Option.some.inj h
          exact .env a env henv
  | transfer n =>
      simp only [step, Composed.transfer] at h
      cases hphase : c.phase with
      | offered maxSize =>
          simp only [hphase] at h
          split_ifs at h with hn hzero
          obtain rfl := Option.some.inj h
          exact .transferred n maxSize hphase (Nat.pos_of_ne_zero hzero) hn
      | completed | ended => simp [hphase] at h
  | fail error =>
      simp only [step] at h
      cases hphase : c.phase with
      | offered maxSize =>
          simp only [hphase] at h
          split_ifs at h with herror
          obtain rfl := Option.some.inj h
          exact .failed error maxSize hphase herror
      | completed | ended => simp [hphase] at h
  | ask =>
      simp only [step] at h
      cases hphase : c.phase with
      | completed error =>
          simp only [hphase] at h
          obtain rfl := Option.some.inj h
          exact .asked error hphase
      | offered | ended => simp [hphase] at h

theorem take_offered {w : WriteSome} {n : ℕ} (h : n ≤ w.offered.length) :
    w.write.message.take w.write.transferred ++ w.offered.take n =
      w.write.message.take (w.write.transferred + n) := by
  have hmax : n ≤ w.maxSize := h.trans (List.length_take_le _ _)
  rw [WriteSome.offered, Write.rest, List.take_take, min_eq_left hmax, ← List.take_add]

theorem Sound.step (hS : S.Orderly) (h : Sound c) {a : Composed.Action α}
    (hstep : S.step c a = some u) : Sound u := by
  cases performed_of_step hstep with
  | env => exact ⟨h.wire, h.offered, h.ended⟩
  | transferred n maxSize hphase hpos hn =>
      refine ⟨?_, fun _ hoffered ↦ ?_, fun hended ↦ ?_⟩
      · have hnext := take_offered hn
        rw [← h.wire] at hnext
        exact hnext
      · simp at hoffered
      · simp at hended
  | failed =>
      refine ⟨h.wire, fun _ hoffered ↦ ?_, fun hended ↦ ?_⟩
      · simp at hoffered
      · simp at hended
  | asked error => exact h.ask hS error

theorem sound_start (hS : S.Orderly) (env : σ) (message : List UInt8)
    (h : message.length < 2 ^ 32) : Sound (S.start env message h) := by
  apply Sound.ask hS
  refine ⟨?_, fun _ hoffered ↦ ?_, fun hended ↦ ?_⟩
  · simp [Write.start]
  · simp at hoffered
  · simp at hended

/-! ## Runs -/

theorem sound_of_reachable (hS : S.Orderly) {allowed : Composed σ → Composed.Action α → Prop}
    (h : S.system.Reachable allowed c) : Sound c := by
  apply h.invariant (I := Sound)
  · rintro c ⟨env, message, hsize, _, rfl⟩
    exact sound_start hS env message hsize
  · intro c a u hc _ hstep
    exact hc.step hS hstep

theorem env_reachable (hS : S.Orderly) {allowed : Composed σ → Composed.Action α → Prop}
    (h : S.system.Reachable allowed c) : S.surroundings.Reachable anyStep c.env := by
  apply h.invariant (I := fun c ↦ S.surroundings.Reachable anyStep c.env)
  · rintro c ⟨env, message, hsize, hstarts, rfl⟩
    exact (hS.starts env message hstarts).leads (hS.leads _ _ _ _)
  · intro c a u hc _ hstep
    cases performed_of_step hstep with
    | env a env henv => exact hc.step trivial henv
    | transferred | failed => exact hc
    | asked error => exact hc.leads (hS.leads _ _ _ _)

theorem ended_of_leads {allowed : Composed σ → Composed.Action α → Prop}
    (h : S.system.Leads allowed c u) (hended : c.phase = .ended error) :
    u.phase = .ended error ∧ u.wire = c.wire := by
  refine h.invariant (I := fun u ↦ u.phase = .ended error ∧ u.wire = c.wire) ?_ ⟨hended, rfl⟩
  intro v a w hv _ hstep
  obtain ⟨hphase, hwire⟩ := hv
  cases performed_of_step hstep with
  | env => exact ⟨hphase, hwire⟩
  | transferred _ _ hoffered | failed _ _ hoffered =>
      rw [hphase] at hoffered
      exact absurd hoffered (by simp)
  | asked _ hcompleted =>
      rw [hphase] at hcompleted
      exact absurd hcompleted (by simp)

/-- What is left to do, at most. -/
def remaining (c : Composed σ) : ℕ :=
  match c.phase with
  | .offered _ => 2 * c.write.rest.length
  | .completed error => if error = .success then 2 * c.write.rest.length + 1 else 1
  | .ended _ => 0

theorem length_rest_consumed {w : WriteSome} {n : ℕ} (h : n ≤ w.offered.length) :
    (w.transfer n h).consumed.rest.length + n = w.write.rest.length := by
  have hle : n ≤ w.write.rest.length := h.trans (List.length_take_le' _ _)
  rw [Transfer.consumed_rest, List.length_drop]
  exact Nat.sub_add_cancel hle

theorem remaining_step (hS : S.Orderly) (h : Sound c) {a : Composed.Action α} (ha : own c a)
    (hstep : S.step c a = some u) : remaining u < remaining c := by
  cases performed_of_step hstep with
  | env => exact absurd ha id
  | transferred n maxSize hphase hpos hn =>
      have hless := length_rest_consumed hn
      simp only [remaining, hphase, ↓reduceIte]
      simp only at hless
      omega
  | failed error maxSize hphase herror =>
      have hpos := (h.offered maxSize hphase).2
      rw [(h.offered maxSize hphase).1] at hpos
      simp only [remaining, hphase, if_neg herror]
      omega
  | asked error hphase =>
      by_cases herror : error = .success
      · rw [herror] at hphase ⊢
        rw [hS.ask_success]
        simp only [remaining, hphase, ↓reduceIte]
        split_ifs
        · exact Nat.succ_pos _
        · exact Nat.lt_succ_self _
      · have hended := (hS.ask_failure herror c).1
        simp only [remaining, hphase, hended, if_neg herror]
        exact Nat.zero_lt_one

theorem Sound.ends (hS : S.Orderly) (h : Sound c) : S.system.Settles own c ∧
    ∃ u error, S.system.Leads own c u ∧ u.phase = .ended error := by
  have hsettles : S.system.Settles own c := by
    refine settles_of_measure (I := Sound) remaining ?_ h
    intro v a w hv ha hstep
    exact ⟨hv.step hS hstep, remaining_step hS hv ha hstep⟩
  refine ⟨hsettles, ?_⟩
  obtain ⟨u, hu, hlast⟩ := hsettles.exists_end
  cases hphase : u.phase with
  | ended error => exact ⟨u, error, hu, hphase⟩
  | offered maxSize =>
      have hfail := hlast (.fail .eof) trivial
      simp [system, Setting.step, hphase] at hfail
  | completed error =>
      have hask := hlast .ask trivial
      simp [system, Setting.step, hphase] at hask

/-- What a composed write guarantees. -/
structure Sends (S : Setting σ α) (c : Composed σ) : Prop where
  wire : c.wire = c.write.message.take c.write.transferred
  goesOn : ∀ maxSize, c.phase = .offered maxSize →
    maxSize + c.write.transferred = c.write.message.length ∧ 0 < maxSize
  stops : c.phase = .completed .success → ((S.ask .success c).phase = .ended .success ↔
    c.write.transferred = c.write.message.length)
  sent : c.phase = .ended .success → c.wire = c.write.message
  fails : ∀ error, error ≠ .success → c.phase = .completed error →
    ∀ u, S.system.Leads anyStep (S.ask error c) u → u.phase = .ended error ∧ u.wire = c.wire
  ends : S.system.Settles own c ∧ ∃ u error, S.system.Leads own c u ∧ u.phase = .ended error

theorem sends_of_reachable (hS : S.Orderly) {allowed : Composed σ → Composed.Action α → Prop}
    (h : S.system.Reachable allowed c) : Sends S c := by
  have hsound := sound_of_reachable hS h
  have hle := c.write.transferred_le
  have hlength := c.write.length_rest
  refine ⟨hsound.wire, fun maxSize hphase ↦ ?_, fun _ ↦ ?_, fun hphase ↦ ?_, ?_,
    hsound.ends hS⟩
  · obtain ⟨hrest, hpos⟩ := hsound.offered maxSize hphase
    exact ⟨by omega, hpos⟩
  · rw [hS.ask_success]
    simp only
    split_ifs with hrest
    · exact ⟨fun _ ↦ by omega, fun _ ↦ rfl⟩
    · refine ⟨fun hended ↦ absurd hended (by simp), fun hall ↦ ?_⟩
      omega
  · have hnone := hsound.ended hphase
    rw [hnone, List.length_nil] at hlength
    rw [hsound.wire]
    exact List.take_of_length_le (by omega)
  · intro error herror _ u hu
    obtain ⟨hended, _, hwire⟩ := hS.ask_failure herror c
    obtain ⟨hphase, hsame⟩ := ended_of_leads hu hended
    exact ⟨hphase, hsame.trans hwire⟩

end Setting

end Asio

end DoipEndpoint
