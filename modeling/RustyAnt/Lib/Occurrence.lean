import Mathlib.Data.List.Basic
import Mathlib.Data.List.Count
import Mathlib.Data.List.Nodup

/-!
# Occurrences of an element

The leftmost or the rightmost few occurrences of an element taken out of a list, and the
positions at which a walk over the list finds it.
-/

namespace RustyAnt.Lib.Occurrence

theorem getElem?_mirror {α : Type} {L : List α} {i : Nat} (h : i < L.length) :
    L.reverse[L.length - 1 - i]? = L[i]? := by
  rw [List.getElem?_reverse (by omega)]
  congr 1
  omega

variable {α : Type} [DecidableEq α] {x v : α} {n : Nat} {L kept : List α}

/-! ## Taking occurrences out -/

/-- `kept` is `L` without the leftmost `n` of the elements that are `x`. -/
def WithoutLeftmost (x : α) (n : Nat) (L kept : List α) : Prop :=
  ∃ front back, L = front ++ back ∧ front.count x = n ∧
    kept = front.filter (fun v => v ≠ x) ++ back

/-- `kept` is `L` without the rightmost `n` of the elements that are `x`. -/
def WithoutRightmost (x : α) (n : Nat) (L kept : List α) : Prop :=
  ∃ front back, L = front ++ back ∧ back.count x = n ∧
    kept = front ++ back.filter (fun v => v ≠ x)

theorem WithoutLeftmost.zero (x : α) (L : List α) : WithoutLeftmost x 0 L L :=
  ⟨[], L, rfl, rfl, rfl⟩

theorem WithoutLeftmost.skip (hne : v ≠ x) (h : WithoutLeftmost x n L kept) :
    WithoutLeftmost x n (v :: L) (v :: kept) := by
  obtain ⟨front, back, rfl, hcount, rfl⟩ := h
  refine ⟨v :: front, back, rfl, ?_, ?_⟩
  · rw [List.count_cons_of_ne hne, hcount]
  · rw [List.filter_cons_of_pos (by simpa using hne), List.cons_append]

theorem WithoutLeftmost.remove (h : WithoutLeftmost x n L kept) :
    WithoutLeftmost x (n + 1) (x :: L) kept := by
  obtain ⟨front, back, rfl, hcount, rfl⟩ := h
  refine ⟨x :: front, back, rfl, ?_, ?_⟩
  · rw [List.count_cons_self, hcount]
  · rw [List.filter_cons_of_neg (by simp)]

theorem WithoutLeftmost.reverse (h : WithoutLeftmost x n L kept) :
    WithoutRightmost x n L.reverse kept.reverse := by
  obtain ⟨front, back, rfl, hcount, rfl⟩ := h
  refine ⟨back.reverse, front.reverse, List.reverse_append, ?_, ?_⟩
  · rw [List.count_reverse, hcount]
  · rw [List.reverse_append, List.filter_reverse]

/-! ## Positions -/

/-- The positions of `x` among the first `m` that a walk visits. -/
def found (x : α) (L : List α) (order : List Nat) (m : Nat) : List Nat :=
  (order.take m).filter fun i => L[i]? = some x

/-- The positions of a list from its head to its tail, or from its tail to its head. -/
def walk (forward : Bool) (len : Nat) : List Nat :=
  if forward then List.range len else (List.range len).reverse

theorem length_walk (forward : Bool) (len : Nat) : (walk forward len).length = len := by
  cases forward with
  | true => exact List.length_range
  | false => exact List.length_reverse.trans List.length_range

theorem nodup_walk (forward : Bool) (len : Nat) : (walk forward len).Nodup := by
  cases forward with
  | true => exact List.nodup_range
  | false => exact List.nodup_reverse.mpr List.nodup_range

theorem walk_not (forward : Bool) (len : Nat) :
    walk (!forward) len = (walk forward len).map fun i => len - 1 - i := by
  have hmirror : (List.range len).map (fun i => len - 1 - i) = (List.range len).reverse := by
    rw [List.range_eq_range', List.reverse_range', ← List.range_eq_range', Nat.zero_add]
  cases forward with
  | true => exact hmirror.symm
  | false =>
      show List.range len = (List.range len).reverse.map _
      rw [List.map_reverse, hmirror, List.reverse_reverse]

theorem mem_found {order : List Nat} {m i : Nat} (h : i ∈ found x L order m) : L[i]? = some x :=
  of_decide_eq_true (List.mem_filter.mp h).2

theorem nodup_found {order : List Nat} (h : order.Nodup) (m : Nat) : (found x L order m).Nodup :=
  (h.sublist (List.take_sublist m order)).filter _

theorem found_mirror (x : α) (L : List α) (forward : Bool) (m : Nat) :
    found x L (walk (!forward) L.length) m =
      (found x L.reverse (walk forward L.length) m).map fun i => L.length - 1 - i := by
  unfold found
  rw [walk_not, ← List.map_take, List.filter_map]
  congr 1
  apply List.filter_congr
  intro i hi
  have hlt : i < L.length := by
    have hmem := List.mem_of_mem_take hi
    cases forward with
    | true => exact List.mem_range.mp hmem
    | false => exact List.mem_range.mp (List.mem_reverse.mp hmem)
  rw [Function.comp_apply, ← getElem?_mirror (by omega)]
  congr 3
  omega

end RustyAnt.Lib.Occurrence
