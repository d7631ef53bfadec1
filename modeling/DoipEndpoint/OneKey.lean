import Std.Data.TreeMap.Lemmas
import Mathlib.Tactic.Common

/-!
# Maps that store each value once

Erasing a value from a map means looking for a key that has it.  To stop at the
first such key is enough as long as no value has two keys, and that stays so
when only values are inserted that the map does not have.
-/

namespace OneKey

open Std

variable {α v : Type*} [Ord α]

/-- No value has two keys. -/
def Once (m : TreeMap α v) : Prop :=
  ∀ (a a' : α) (x : v), m[a]? = some x → m[a']? = some x → a = a'

/-- Erase the first key that has the value, if there is one. -/
def eraseFirst [DecidableEq v] (x : v) (m : TreeMap α v) : TreeMap α v :=
  match m.toList.find? fun entry ↦ entry.2 = x with
  | none => m
  | some entry => m.erase entry.1

variable {m m' : TreeMap α v} {x : v}

/-- A map with fewer entries stores each value once, too. -/
theorem Once.mono (h : Once m) (hsub : ∀ (a : α) (y : v), m'[a]? = some y → m[a]? = some y) :
    Once m' :=
  fun a a' y ha ha' ↦ h a a' y (hsub a y ha) (hsub a' y ha')

/-- One entry with a value that the map does not have may come in addition. -/
theorem Once.of_new {b : α} (h : Once m) (hnew : ∀ a : α, m[a]? ≠ some x)
    (hsub : ∀ (a : α) (y : v), m'[a]? = some y → (a = b ∧ y = x) ∨ m[a]? = some y) :
    Once m' := by
  intro a a' y ha ha'
  rcases hsub a y ha with ⟨rfl, rfl⟩ | hold
  · rcases hsub a' y ha' with ⟨rfl, _⟩ | hold'
    · rfl
    · exact absurd hold' (hnew a')
  · rcases hsub a' y ha' with ⟨_, rfl⟩ | hold'
    · exact absurd hold (hnew a)
    · exact h a a' y hold hold'

variable [TransOrd α] [LawfulEqOrd α] [DecidableEq v]

variable (m x) in
theorem eraseFirst_cases : (∀ a : α, m[a]? ≠ some x) ∧ eraseFirst x m = m ∨
    ∃ a : α, m[a]? = some x ∧ eraseFirst x m = m.erase a := by
  unfold eraseFirst
  cases hfind : m.toList.find? fun entry ↦ entry.2 = x with
  | none =>
      refine Or.inl ⟨fun a ha ↦ ?_, rfl⟩
      have hmem := TreeMap.mem_toList_iff_getElem?_eq_some.mpr ha
      have hno := List.find?_eq_none.mp hfind (a, x) hmem
      simp at hno
  | some entry =>
      have hx : entry.2 = x := by simpa using List.find?_some hfind
      have hmem := TreeMap.mem_toList_iff_getElem?_eq_some.mp
        (List.mem_of_find?_eq_some hfind : (entry.1, entry.2) ∈ _)
      exact Or.inr ⟨entry.1, hx ▸ hmem, rfl⟩

/-- What is left is a part of the map. -/
theorem getElem?_of_eraseFirst {a : α} {y : v} (h : (eraseFirst x m)[a]? = some y) :
    m[a]? = some y := by
  rcases eraseFirst_cases m x with ⟨_, heq⟩ | ⟨b, _, heq⟩
  · rwa [heq] at h
  · rw [heq, TreeMap.getElem?_erase] at h
    split_ifs at h
    exact h

/-- If the map stores the value once, it is stored no more. -/
theorem Once.not_mem_eraseFirst (h : Once m) (x : v) (a : α) :
    (eraseFirst x m)[a]? ≠ some x := by
  rcases eraseFirst_cases m x with ⟨hno, heq⟩ | ⟨b, hb, heq⟩
  · rw [heq]
    exact hno a
  · intro ha
    rw [heq, TreeMap.getElem?_erase] at ha
    split_ifs at ha with hne
    exact hne (compare_eq_iff_eq.mpr (h b a x hb ha))

/-- Every other value stays where it was. -/
theorem getElem?_eraseFirst_iff {y : v} (hy : y ≠ x) (a : α) :
    (eraseFirst x m)[a]? = some y ↔ m[a]? = some y := by
  refine ⟨getElem?_of_eraseFirst, fun ha ↦ ?_⟩
  rcases eraseFirst_cases m x with ⟨_, heq⟩ | ⟨b, hb, heq⟩
  · rwa [heq]
  · rw [heq, TreeMap.getElem?_erase, if_neg]
    · exact ha
    · intro hcompare
      rw [compare_eq_iff_eq.mp hcompare, ha] at hb
      exact hy (Option.some.inj hb)

end OneKey
