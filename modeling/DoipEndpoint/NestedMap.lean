import Mathlib.Data.Finmap
import Std.Data.TreeMap.Lemmas

/-!
# Maps of maps

A finite map whose key has three parts may be stored as a map of maps of maps.
Writing inserts the inner maps that are missing, and erasing an entry erases
the inner maps that it empties.  One level is described first, and the map with
three levels is two of them.
-/

namespace NestedMap

open Std

section Level

variable {α β v : Type*} [Ord α] [Ord β]

/-- The inner map of a key, which is empty when there is none. -/
def inner (m : TreeMap α (TreeMap β v)) (a : α) : TreeMap β v := m[a]?.getD ∅

/-- Give a key another inner map, or none if that is empty. -/
def place (a : α) (t : TreeMap β v) (m : TreeMap α (TreeMap β v)) : TreeMap α (TreeMap β v) :=
  if t.isEmpty then m.erase a else m.insert a t

def NoEmpty (m : TreeMap α (TreeMap β v)) : Prop :=
  ∀ (a : α) (t : TreeMap β v), m[a]? = some t → t.isEmpty = false

variable {m : TreeMap α (TreeMap β v)} {a : α} {t : TreeMap β v}

theorem inner_of_some (h : m[a]? = some t) : inner m a = t := by rw [inner, h, Option.getD_some]

theorem inner_of_none (h : m[a]? = none) : inner m a = ∅ := by rw [inner, h, Option.getD_none]

theorem place_of_nonempty (ht : t.isEmpty = false) : place a t m = m.insert a t := by
  simp [place, ht]

variable [TransOrd α]

theorem noEmpty_empty : NoEmpty (∅ : TreeMap α (TreeMap β v)) := by
  intro a t h
  simp at h

variable [LawfulEqOrd α] [DecidableEq α]

variable (m a t) in
theorem getElem?_place (a' : α) : (place a t m)[a']? =
    if a = a' then (if t.isEmpty then none else some t) else m[a']? := by
  unfold place
  by_cases ht : t.isEmpty = true
  · rw [if_pos ht, if_pos ht, TreeMap.getElem?_erase]
    simp only [Std.compare_eq_iff_eq]
  · rw [if_neg ht, if_neg ht, TreeMap.getElem?_insert]
    simp only [Std.compare_eq_iff_eq]

theorem NoEmpty.place (h : NoEmpty m) (a : α) (t : TreeMap β v) :
    NoEmpty (NestedMap.place a t m) := by
  intro a' t' ha'
  rw [getElem?_place] at ha'
  split_ifs at ha' with haa ht
  · cases Option.some.inj ha'
    simpa using ht
  · exact h a' t' ha'

variable [TransOrd β]

variable (m a t) in
theorem inner_place_getElem? (a' : α) (b : β) : (inner (place a t m) a')[b]? =
    if a = a' then t[b]? else (inner m a')[b]? := by
  simp only [inner, getElem?_place]
  split_ifs with ha ht
  · rw [Option.getD_none, TreeMap.getElem?_emptyc, TreeMap.getElem?_of_isEmpty ht]
  · rw [Option.getD_some]
  · rfl

end Level

/-! ## Three levels -/

variable {α β γ v : Type*} [Ord α] [Ord β] [Ord γ]

/-- The entry of a key, found level by level. -/
def find (m : TreeMap α (TreeMap β (TreeMap γ v))) (k : α × β × γ) : Option v :=
  match m[k.1]? with
  | none => none
  | some middle =>
      match middle[k.2.1]? with
      | none => none
      | some leaf => leaf[k.2.2]?

/-- The inner maps of a key, with the innermost one replaced. -/
def placeLeaf (k : α × β × γ) (leaf : TreeMap γ v) (m : TreeMap α (TreeMap β (TreeMap γ v))) :
    TreeMap α (TreeMap β (TreeMap γ v)) :=
  place k.1 (place k.2.1 leaf (inner m k.1)) m

/-- `m[a][b][c] = x`. -/
def assign (k : α × β × γ) (x : v) (m : TreeMap α (TreeMap β (TreeMap γ v))) :
    TreeMap α (TreeMap β (TreeMap γ v)) :=
  m.insert k.1 ((inner m k.1).insert k.2.1 ((inner (inner m k.1) k.2.1).insert k.2.2 x))

/-- Erase an entry and the inner maps that are then empty. -/
def erase (k : α × β × γ) (m : TreeMap α (TreeMap β (TreeMap γ v))) :
    TreeMap α (TreeMap β (TreeMap γ v)) :=
  placeLeaf k ((inner (inner m k.1) k.2.1).erase k.2.2) m

/-- No key of a level is there without an entry. -/
structure Proper (m : TreeMap α (TreeMap β (TreeMap γ v))) : Prop where
  outer : NoEmpty m
  middle : ∀ (a : α) (t : TreeMap β (TreeMap γ v)), m[a]? = some t → NoEmpty t

/-- The nested map stores the finite map, without empty inner maps. -/
structure Represents (m : TreeMap α (TreeMap β (TreeMap γ v)))
    (flat : Finmap fun _ : α × β × γ ↦ v) [DecidableEq α] [DecidableEq β] [DecidableEq γ] :
    Prop where
  proper : Proper m
  find : ∀ k, NestedMap.find m k = flat.lookup k

variable {m : TreeMap α (TreeMap β (TreeMap γ v))} [TransOrd β]

theorem noEmpty_inner (h : Proper m) (a : α) : NoEmpty (inner m a) := by
  cases ha : m[a]? with
  | none =>
      rw [inner_of_none ha]
      exact noEmpty_empty
  | some t =>
      rw [inner_of_some ha]
      exact h.middle a t ha

section Proper

variable [TransOrd α] [LawfulEqOrd α] [LawfulEqOrd β] [DecidableEq α] [DecidableEq β]

theorem Proper.placeLeaf (h : Proper m) (k : α × β × γ) (leaf : TreeMap γ v) :
    Proper (NestedMap.placeLeaf k leaf m) := by
  constructor
  · exact h.outer.place _ _
  · intro a t ha
    rw [NestedMap.placeLeaf, getElem?_place] at ha
    split_ifs at ha
    · cases Option.some.inj ha
      exact (noEmpty_inner h k.1).place _ _
    · exact h.middle a t ha

theorem Proper.erase (h : Proper m) (k : α × β × γ) : Proper (NestedMap.erase k m) :=
  h.placeLeaf k _

end Proper

variable [TransOrd γ]

theorem find_eq (m : TreeMap α (TreeMap β (TreeMap γ v))) (k : α × β × γ) :
    find m k = (inner (inner m k.1) k.2.1)[k.2.2]? := by
  unfold find
  cases ha : m[k.1]? with
  | none =>
      have hleaf : inner (inner m k.1) k.2.1 = ∅ :=
        inner_of_none (by rw [inner_of_none ha, TreeMap.getElem?_emptyc])
      rw [hleaf, TreeMap.getElem?_emptyc]
  | some middle =>
      rw [inner_of_some ha]
      cases hb : middle[k.2.1]? with
      | none =>
          rw [inner_of_none hb, TreeMap.getElem?_emptyc]
          simp only [hb]
      | some leaf =>
          rw [inner_of_some hb]
          simp only [hb]

theorem assign_eq_placeLeaf (k : α × β × γ) (x : v) : assign k x m =
    placeLeaf k ((inner (inner m k.1) k.2.1).insert k.2.2 x) m := by
  rw [assign, placeLeaf, place_of_nonempty TreeMap.isEmpty_insert,
    place_of_nonempty TreeMap.isEmpty_insert]

variable [TransOrd α] [DecidableEq α] [DecidableEq β]

theorem represents_empty [DecidableEq γ] :
    Represents (∅ : TreeMap α (TreeMap β (TreeMap γ v))) ∅ := by
  refine ⟨⟨noEmpty_empty, fun a t h ↦ ?_⟩, fun k ↦ ?_⟩
  · simp at h
  · rw [find_eq, Finmap.lookup_empty]
    simp [inner]

variable [LawfulEqOrd α] [LawfulEqOrd β]

theorem find_placeLeaf (k k' : α × β × γ) (leaf : TreeMap γ v) :
    find (placeLeaf k leaf m) k' =
      if k.1 = k'.1 ∧ k.2.1 = k'.2.1 then leaf[k'.2.2]? else find m k' := by
  have hmiddle : ∀ b, (inner (placeLeaf k leaf m) k'.1)[b]? =
      if k.1 = k'.1 then (place k.2.1 leaf (inner m k.1))[b]? else (inner m k'.1)[b]? :=
    inner_place_getElem? m k.1 _ k'.1
  rw [find_eq, find_eq, inner, hmiddle]
  by_cases ha : k.1 = k'.1
  · rw [if_pos ha, ← inner, inner_place_getElem?, ha]
    simp
  · rw [if_neg ha, if_neg (by simp [ha]), ← inner]

theorem Proper.assign (h : Proper m) (k : α × β × γ) (x : v) :
    Proper (NestedMap.assign k x m) := by
  rw [assign_eq_placeLeaf]
  exact h.placeLeaf k _

variable [LawfulEqOrd γ] [DecidableEq γ]

theorem find_assign (k k' : α × β × γ) (x : v) :
    find (assign k x m) k' = if k = k' then some x else find m k' := by
  rw [assign_eq_placeLeaf, find_placeLeaf, TreeMap.getElem?_insert, find_eq]
  simp only [Std.compare_eq_iff_eq, Prod.ext_iff]
  by_cases hab : k.1 = k'.1 ∧ k.2.1 = k'.2.1
  · rw [if_pos hab, hab.1, hab.2]
    simp
  · rw [if_neg hab, if_neg (by tauto)]

theorem find_erase (k k' : α × β × γ) :
    find (erase k m) k' = if k = k' then none else find m k' := by
  rw [erase, find_placeLeaf, TreeMap.getElem?_erase, find_eq]
  simp only [Std.compare_eq_iff_eq, Prod.ext_iff]
  by_cases hab : k.1 = k'.1 ∧ k.2.1 = k'.2.1
  · rw [if_pos hab, hab.1, hab.2]
    simp
  · rw [if_neg hab, if_neg (by tauto)]

/-! ## The finite map that is stored -/

variable {flat : Finmap fun _ : α × β × γ ↦ v}

theorem Represents.assign (h : Represents m flat) (k : α × β × γ) (x : v) :
    Represents (NestedMap.assign k x m) (flat.insert k x) := by
  refine ⟨h.proper.assign k x, fun k' ↦ ?_⟩
  rw [find_assign]
  by_cases hk : k = k'
  · rw [if_pos hk, ← hk, Finmap.lookup_insert]
  · rw [if_neg hk, Finmap.lookup_insert_of_ne _ (Ne.symm hk), h.find]

theorem Represents.erase (h : Represents m flat) (k : α × β × γ) :
    Represents (NestedMap.erase k m) (flat.erase k) := by
  refine ⟨h.proper.erase k, fun k' ↦ ?_⟩
  rw [find_erase]
  by_cases hk : k = k'
  · rw [if_pos hk, ← hk, Finmap.lookup_erase]
  · rw [if_neg hk, Finmap.lookup_erase_ne (Ne.symm hk), h.find]

end NestedMap
