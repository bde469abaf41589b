import Mathlib.Order.Lattice
import Mathlib.Order.BoundedOrder.Lattice

/-!
# Values that only go up

A state has a value in a semilattice and a mark.  An update joins something into the value, and
changes the mark exactly when the value goes up.
-/

namespace RustyAnt.Lib.Joins

variable {σ α β ι : Type*} [SemilatticeSup α]

/-- The state with `r` joined into its value. -/
structure Joined (value : σ → α) (mark : σ → β) (dirty : β → β) (s : σ) (r : α) (s' : σ) : Prop where
  value_eq : value s' = value s ⊔ r
  same : r ≤ value s → mark s' = mark s
  marked : ¬ r ≤ value s → mark s' = dirty (mark s)

variable {value : σ → α} {mark : σ → β} {dirty : β → β} {s s' s₁ s₂ : σ} {r r' : α}

namespace Joined

theorem of_le (h : r ≤ value s) : Joined value mark dirty s r s where
  value_eq := (sup_of_le_left h).symm
  same _ := rfl
  marked hnot := absurd h hnot

theorem trans (hdirty : ∀ b, dirty (dirty b) = dirty b) (h : Joined value mark dirty s r s₁)
    (h' : Joined value mark dirty s₁ r' s₂) : Joined value mark dirty s (r ⊔ r') s₂ where
  value_eq := by rw [h'.value_eq, h.value_eq, sup_assoc]
  same hle := by
    have hr : r ≤ value s := le_sup_left.trans hle
    have hr' : r' ≤ value s₁ := by
      rw [h.value_eq]
      exact (le_sup_right.trans hle).trans le_sup_left
    rw [h'.same hr', h.same hr]
  marked hnot := by
    by_cases hr : r ≤ value s
    · have hvalue : value s₁ = value s := by rw [h.value_eq, sup_of_le_left hr]
      have hr' : ¬ r' ≤ value s₁ := by
        rw [hvalue]
        exact fun hle => hnot (sup_le hr hle)
      rw [h'.marked hr', h.same hr]
    · by_cases hr' : r' ≤ value s₁
      · rw [h'.same hr', h.marked hr]
      · rw [h'.marked hr', h.marked hr, hdirty]

/-- Where value and mark make the state, an update has one result. -/
theorem unique (hext : ∀ {a b : σ}, value a = value b → mark a = mark b → a = b)
    (h : Joined value mark dirty s r s₁) (h' : Joined value mark dirty s r s₂) : s₁ = s₂ := by
  apply hext
  · rw [h.value_eq, h'.value_eq]
  · by_cases hr : r ≤ value s
    · rw [h.same hr, h'.same hr]
    · rw [h.marked hr, h'.marked hr]

theorem eq_iff (hext : ∀ {a b : σ}, value a = value b → mark a = mark b → a = b)
    (h : Joined value mark dirty s r s') : s' = s ↔ r ≤ value s := by
  constructor
  · rintro rfl
    exact sup_eq_left.mp h.value_eq.symm
  · intro hr
    apply hext
    · rw [h.value_eq, sup_of_le_left hr]
    · exact h.same hr

end Joined

/-! ## Many elements -/

variable [OrderBot α] {f : ι → α} {xs ys : List ι}

/-- What the elements come to together. -/
def joinAll (f : ι → α) (xs : List ι) : α := xs.foldr (fun x r => f x ⊔ r) ⊥

theorem joinAll_le_iff : joinAll f xs ≤ r ↔ ∀ x ∈ xs, f x ≤ r := by
  induction xs with
  | nil => simp [joinAll]
  | cons x xs ih =>
      have hcons : joinAll f (x :: xs) = f x ⊔ joinAll f xs := rfl
      rw [hcons, sup_le_iff, ih, List.forall_mem_cons]

theorem joinAll_congr (h : ∀ x, x ∈ xs ↔ x ∈ ys) : joinAll f xs = joinAll f ys := by
  apply le_antisymm
  · exact joinAll_le_iff.mpr fun x hx => joinAll_le_iff.mp le_rfl x ((h x).mp hx)
  · exact joinAll_le_iff.mpr fun x hx => joinAll_le_iff.mp le_rfl x ((h x).mpr hx)

theorem joinAll_append : joinAll f (xs ++ ys) = joinAll f xs ⊔ joinAll f ys := by
  induction xs with
  | nil => exact (bot_sup_eq _).symm
  | cons x xs ih =>
      show f x ⊔ joinAll f (xs ++ ys) = f x ⊔ joinAll f xs ⊔ joinAll f ys
      rw [ih, sup_assoc]

end RustyAnt.Lib.Joins
