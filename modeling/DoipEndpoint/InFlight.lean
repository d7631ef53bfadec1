import Mathlib.Algebra.Ring.Nat
import Mathlib.Data.List.Forall2
import Mathlib.Data.List.Perm.Basic
import Mathlib.Data.Multiset.AddSub

/-!
# Counting in a list of operations in flight

An event loop takes operations out of such a list, replaces single entries and
completes several at once.  Each of these changes a count in a known way.
-/

namespace InFlight

variable {α β : Type*} {l : List α} {i : ℕ} {a : α}

/-- An operation that is taken out stands, up to the order, before the others.  What is
counted or summed over a list is read off from this. -/
theorem perm_cons_eraseIdx (h : l[i]? = some a) : l.Perm (a :: l.eraseIdx i) := by
  obtain ⟨hi, rfl⟩ := List.getElem?_eq_some_iff.mp h
  exact (List.getElem_cons_eraseIdx_perm hi).symm

theorem countP_eraseIdx (h : l[i]? = some a) (q : α → Bool) :
    l.countP q = (l.eraseIdx i).countP q + if q a then 1 else 0 := by
  rw [(perm_cons_eraseIdx h).countP_eq, List.countP_cons]

/-- An entry is replaced by one that counts the same. -/
theorem countP_set {b : α} (h : l[i]? = some a) {q : α → Bool} (hq : q b = q a) :
    (l.set i b).countP q = l.countP q := by
  have hi : i < l.length := (List.getElem?_eq_some_iff.mp h).1
  have hset : (l.set i b)[i]? = some b := by simp [hi]
  rw [countP_eraseIdx hset, countP_eraseIdx h, hq, List.eraseIdx_set_eq]

/-- What the operations hold, as a multiset, when one of them is taken out. -/
theorem filterMap_eraseIdx (h : l[i]? = some a) (f : α → Option β) :
    (l.filterMap f : Multiset β) = (f a).toList + (l.eraseIdx i).filterMap f := by
  have hperm := (perm_cons_eraseIdx h).filterMap f
  rw [Multiset.coe_add, Multiset.coe_eq_coe]
  cases hf : f a <;> simpa [List.filterMap_cons, hf] using hperm

theorem filterMap_set (h : l[i]? = some a) (b : α) (f : α → Option β) :
    ((l.set i b).filterMap f : Multiset β) = (f b).toList + (l.eraseIdx i).filterMap f := by
  have hi : i < l.length := (List.getElem?_eq_some_iff.mp h).1
  have hset : (l.set i b)[i]? = some b := by simp [hi]
  rw [filterMap_eraseIdx hset, List.eraseIdx_set_eq]

theorem filterMap_append_singleton (l : List α) (b : α) (f : α → Option β) :
    ((l ++ [b]).filterMap f : Multiset β) = (f b).toList + l.filterMap f := by
  rw [List.filterMap_append, Multiset.coe_add, Multiset.coe_eq_coe]
  cases hf : f b <;> simp [hf]

/-- Operations that are replaced one by one leave a count as it was, if `R` respects it. -/
theorem countP_eq_of_forall₂ {R : α → β → Prop} {l' : List β} (h : List.Forall₂ R l l')
    {q : α → Bool} {q' : β → Bool} (hq : ∀ a b, R a b → q a = q' b) :
    l.countP q = l'.countP q' := by
  induction h with
  | nil => rfl
  | cons hab _ ih => simp only [List.countP_cons, ih, hq _ _ hab]

theorem sum_map_eraseIdx (h : l[i]? = some a) (f : α → ℕ) :
    (l.map f).sum = f a + ((l.eraseIdx i).map f).sum := by
  rw [((perm_cons_eraseIdx h).map f).sum_nat, List.map_cons, List.sum_cons]

/-- What the new entry weighs more or less is added to the sum. -/
theorem sum_map_set (h : l[i]? = some a) (b : α) (f : α → ℕ) :
    ((l.set i b).map f).sum + f a = (l.map f).sum + f b := by
  have hi : i < l.length := (List.getElem?_eq_some_iff.mp h).1
  have hset : (l.set i b)[i]? = some b := by simp [hi]
  rw [sum_map_eraseIdx hset, sum_map_eraseIdx h, List.eraseIdx_set_eq]
  omega

theorem sum_map_le_of_forall₂ {R : α → β → Prop} {l' : List β} (h : List.Forall₂ R l l')
    {f : α → ℕ} {g : β → ℕ} (hfg : ∀ a b, R a b → g b ≤ f a) :
    (l'.map g).sum ≤ (l.map f).sum := by
  induction h with
  | nil => exact le_refl _
  | cons hab _ ih =>
      simp only [List.map_cons, List.sum_cons]
      exact Nat.add_le_add (hfg _ _ hab) ih

/-- Every operation of the new list comes from one of the old list. -/
theorem exists_of_forall₂_mem {R : α → β → Prop} {l' : List β} (h : List.Forall₂ R l l')
    {b : β} (hb : b ∈ l') : ∃ a ∈ l, R a b := by
  induction h with
  | nil => simp at hb
  | cons hab _ ih =>
      rcases List.mem_cons.mp hb with rfl | hb
      · exact ⟨_, List.mem_cons_self, hab⟩
      · obtain ⟨a, ha, hR⟩ := ih hb
        exact ⟨a, List.mem_cons_of_mem _ ha, hR⟩

theorem getElem?_of_forall₂ {R : α → β → Prop} {l' : List β} (h : List.Forall₂ R l l')
    (hi : l[i]? = some a) : ∃ b, l'[i]? = some b ∧ R a b := by
  induction h generalizing i with
  | nil => simp at hi
  | cons hab _ ih =>
      cases i with
      | zero =>
          cases Option.some.inj hi
          exact ⟨_, rfl, hab⟩
      | succ i => exact ih (by simpa using hi)

theorem eraseIdx_forall₂ {R : α → β → Prop} {l' : List β} (h : List.Forall₂ R l l') (i : ℕ) :
    List.Forall₂ R (l.eraseIdx i) (l'.eraseIdx i) := by
  induction h generalizing i with
  | nil => exact .nil
  | cons hab hrest ih =>
      cases i with
      | zero => exact hrest
      | succ i => exact .cons hab (ih i)

end InFlight
