import Mathlib.Data.List.Nodup

/-!
# The first few of a list

Some elements are selected from a list and the others left out; under a relation that says
which comes before which, no element that is left out may come before a selected one.
-/

namespace RustyAnt.Lib.Selection

variable {α κ : Type*} {before : α → α → Prop} {n : Nat} {l l' selected : List α}

/-- `n` elements of the list, or all of them, such that none of the others comes before one. -/
structure Selects (before : α → α → Prop) (n : Nat) (l selected : List α) : Prop where
  parted : ∃ omitted, (selected ++ omitted).Perm l ∧
    ∀ r ∈ selected, ∀ o ∈ omitted, ¬ before o r
  length : selected.length = min n l.length

/-- What a relation between earlier and later elements says of a front and the rest. -/
theorem cross_of_pairwise {P : α → α → Prop} (h : l.Pairwise P) (n : Nat) :
    ∀ r ∈ l.take n, ∀ o ∈ l.drop n, P r o := by
  rw [← List.take_append_drop n l] at h
  exact (List.pairwise_append.mp h).2.2

theorem selects_take (hperm : l'.Perm l)
    (h : ∀ r ∈ l'.take n, ∀ o ∈ l'.drop n, ¬ before o r) : Selects before n l (l'.take n) where
  parted := ⟨l'.drop n, by rwa [List.take_append_drop], h⟩
  length := by rw [List.length_take, hperm.length_eq]

/-- In a list without repeated keys what is selected is told by its keys. -/
theorem Selects.cross {key : α → κ} (h : Selects before n l selected) (hkeys : (l.map key).Nodup)
    (hsame : ∀ k, k ∈ selected.map key ↔ k ∈ (l.take n).map key) :
    ∀ r ∈ l.take n, ∀ o ∈ l.drop n, ¬ before o r := by
  obtain ⟨omitted, hperm, homitted⟩ := h.parted
  have hinj := List.inj_on_of_nodup_map hkeys
  have hin : ∀ {a}, a ∈ selected → a ∈ l := fun ha =>
    hperm.subset (List.mem_append_left _ ha)
  intro r hr o ho
  have hrl := List.take_subset n l hr
  have hol := List.drop_subset n l ho
  have hselected : r ∈ selected := by
    obtain ⟨a, ha, hkey⟩ := List.mem_map.mp ((hsame (key r)).mpr (List.mem_map_of_mem hr))
    rwa [← hinj (hin ha) hrl hkey]
  have hout : o ∉ selected := by
    intro hos
    have hkey := (hsame (key o)).mp (List.mem_map_of_mem hos)
    rw [← List.take_append_drop n l, List.map_append] at hkeys
    exact (List.nodup_append.mp hkeys).2.2 _ hkey _ (List.mem_map_of_mem ho) rfl
  rcases List.mem_append.mp (hperm.symm.subset hol) with hos | hos
  · exact absurd hos hout
  · exact homitted r hselected o hos

end RustyAnt.Lib.Selection
