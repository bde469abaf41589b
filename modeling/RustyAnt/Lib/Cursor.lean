import Mathlib.Order.MinMax
import Mathlib.Data.List.Nodup

/-!
# Reading past a cursor

A cursor is the greatest key handed out so far.  Moving it over a first part of a
sorted list skips nothing, and in a list without repetitions that is handed out in
parts, each element is in one part.
-/

namespace RustyAnt.Lib

variable {α β : Type} [LinearOrder β] {key : α → β}

def advance (key : α → β) (cursor : β) (xs : List α) : β :=
  xs.foldl (fun c x => max c (key x)) cursor

theorem advance_mem (key : α → β) (xs : List α) (cursor : β) :
    advance key cursor xs = cursor ∨ ∃ x ∈ xs, advance key cursor xs = key x := by
  induction xs generalizing cursor with
  | nil => exact .inl rfl
  | cons x xs ih =>
      have hcons : advance key cursor (x :: xs) = advance key (max cursor (key x)) xs := rfl
      rw [hcons]
      rcases ih (max cursor (key x)) with h | ⟨y, hy, h⟩
      · rcases max_choice cursor (key x) with hm | hm
        · exact .inl (h.trans hm)
        · exact .inr ⟨x, List.mem_cons_self, h.trans hm⟩
      · exact .inr ⟨y, List.mem_cons_of_mem x hy, h⟩

theorem le_advance (xs : List α) (cursor : β) : cursor ≤ advance key cursor xs := by
  induction xs generalizing cursor with
  | nil => exact le_refl cursor
  | cons x xs ih => exact (le_max_left cursor (key x)).trans (ih (max cursor (key x)))

theorem le_advance_of_mem {xs : List α} {x : α} (h : x ∈ xs) (cursor : β) :
    key x ≤ advance key cursor xs := by
  induction xs generalizing cursor with
  | nil => simp at h
  | cons y xs ih =>
      rcases List.mem_cons.mp h with rfl | h
      · exact (le_max_right cursor (key x)).trans (le_advance xs _)
      · exact ih h (max cursor (key y))

/-- A cursor that moves over a first part of a sorted list skips nothing. -/
theorem mem_take_of_le_advance {xs : List α} (hxs : xs.Pairwise fun a b => key a < key b)
    {n : Nat} {cursor : β} {x : α} (hx : x ∈ xs) (hlt : cursor < key x)
    (hle : key x ≤ advance key cursor (xs.take n)) : x ∈ xs.take n := by
  rcases advance_mem key (xs.take n) cursor with h | ⟨y, hy, h⟩
  · rw [h] at hle
    exact absurd hlt (not_lt.mpr hle)
  · rw [h] at hle
    rw [← List.take_append_drop n xs] at hx hxs
    rcases List.mem_append.mp hx with hx | hx
    · exact hx
    · have hyx := (List.pairwise_append.mp hxs).2.2 y hy x hx
      exact absurd hyx (not_lt.mpr hle)

/-- In a list without repetitions cut into parts, an element is in one part. -/
theorem countP_mem_eq_one [DecidableEq α] {parts : List (List α)} {x : α}
    (hnodup : parts.flatten.Nodup) (hx : x ∈ parts.flatten) :
    parts.countP (fun part => decide (x ∈ part)) = 1 := by
  induction parts with
  | nil => simp at hx
  | cons part parts ih =>
      rw [List.flatten_cons] at hnodup hx
      obtain ⟨-, hrest, hdisj⟩ := List.nodup_append.mp hnodup
      rcases List.mem_append.mp hx with hpart | hparts
      · have hnot : x ∉ parts.flatten := fun h => hdisj x hpart x h rfl
        have hzero : parts.countP (fun part => decide (x ∈ part)) = 0 := by
          rw [List.countP_eq_zero]
          intro p hp hxp
          exact hnot (List.mem_flatten.mpr ⟨p, hp, of_decide_eq_true hxp⟩)
        rw [List.countP_cons, hzero, if_pos (decide_eq_true hpart)]
      · have hnot : x ∉ part := fun h => hdisj x h x hparts rfl
        rw [List.countP_cons, ih hrest hparts, if_neg (by simpa using hnot)]

end RustyAnt.Lib
