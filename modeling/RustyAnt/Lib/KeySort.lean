import Mathlib.Data.List.Sort
import Mathlib.Data.List.Nodup

/-!
# Sorting by a key

A comparison that on the elements at hand compares keys of a linear order.  Where the keys
are different there is one sorted list, so every sort gives it.
-/

namespace RustyAnt.Lib.KeySort

variable {α κ : Type*} [LinearOrder κ] {key : α → κ} {l l' : List α}

/-- The keys go up from each element to the next. -/
def Ascending (key : α → κ) (l : List α) : Prop := l.Pairwise fun a b => key a < key b

theorem Ascending.eq_of_perm (hl : Ascending key l) (hl' : Ascending key l') (h : l.Perm l') :
    l = l' := by
  apply List.Perm.eq_of_pairwise _ hl hl' h
  intro a b _ _ hab hba
  exact absurd hba (lt_asymm hab)

theorem Ascending.filter (h : Ascending key l) (p : α → Bool) : Ascending key (l.filter p) :=
  List.Pairwise.filter p h

theorem Ascending.nodup_keys (h : Ascending key l) : (l.map key).Nodup :=
  List.pairwise_map.mpr (h.imp fun hlt => hlt.ne)

/-- On the list the relation compares the keys. -/
def Compares (r : α → α → Prop) (key : α → κ) (l : List α) : Prop :=
  ∀ a ∈ l, ∀ b ∈ l, r a b ↔ key a ≤ key b

variable {r : α → α → Prop}

theorem Compares.sublist (h : Compares r key l) (hsub : l'.Sublist l) : Compares r key l' :=
  fun a ha b hb => h a (hsub.subset ha) b (hsub.subset hb)

variable [DecidableRel r]

theorem pairwise_insertionSort (hr : Compares r key l) :
    (l.insertionSort r).Pairwise fun a b => key a ≤ key b := by
  let byKey : α → α → Prop := fun a b => key a ≤ key b
  have hsame : l.insertionSort r = l.insertionSort byKey := by
    have hmap := List.map_insertionSort r byKey id l hr
    rwa [List.map_id, List.map_id] at hmap
  have htotal : Std.Total byKey := ⟨fun a b => le_total (key a) (key b)⟩
  have htrans : IsTrans α byKey := ⟨fun a b c hab hbc => le_trans hab hbc⟩
  rw [hsame]
  exact List.pairwise_insertionSort byKey l

theorem ascending_insertionSort (hr : Compares r key l) (hkeys : (l.map key).Nodup) :
    Ascending key (l.insertionSort r) := by
  have hperm := (List.perm_insertionSort r l).map key
  have hne := List.pairwise_map.mp (hperm.nodup_iff.mpr hkeys)
  apply ((pairwise_insertionSort hr).and hne).imp
  rintro a b ⟨hab, hdiff⟩
  exact lt_of_le_of_ne hab hdiff

theorem Ascending.insertionSort_eq (hl : Ascending key l) (h : l.Perm l')
    (hr : Compares r key l') : l'.insertionSort r = l := by
  have hkeys : (l'.map key).Nodup := (h.map key).nodup_iff.mp hl.nodup_keys
  apply (ascending_insertionSort hr hkeys).eq_of_perm hl
  exact (List.perm_insertionSort r l').trans h.symm

theorem filter_insertionSort (hr : Compares r key l) (hkeys : (l.map key).Nodup) (p : α → Bool) :
    (l.insertionSort r).filter p = (l.filter p).insertionSort r := by
  have hsorted := (ascending_insertionSort hr hkeys).filter p
  have hperm := (List.perm_insertionSort r l).filter p
  exact (hsorted.insertionSort_eq hperm (hr.sublist List.filter_sublist)).symm

end RustyAnt.Lib.KeySort
