import Mathlib.Data.List.Nodup
import Mathlib.Data.Nat.ModEq

/-!
# Reading a list in a circle

`n` elements of a list from a start on, beginning anew at its end.
-/

namespace RustyAnt.Lib

variable {α : Type} {w : List α} {start n : Nat}

/-- `n` elements from `start` on, round and round. -/
def cyclic (w : List α) (start n : Nat) : List α :=
  (List.range n).filterMap fun i => w[(start + i) % w.length]?

theorem getElem?_mod (hw : w ≠ []) (k : Nat) : ∃ x, w[k % w.length]? = some x :=
  ⟨_, List.getElem?_eq_getElem (Nat.mod_lt k (List.length_pos_iff.mpr hw))⟩

theorem cyclic_succ (hw : w ≠ []) (start n : Nat) :
    ∃ x, w[(start + n) % w.length]? = some x ∧ cyclic w start (n + 1) = cyclic w start n ++ [x] := by
  obtain ⟨x, hlast⟩ := getElem?_mod hw (start + n)
  refine ⟨x, hlast, ?_⟩
  unfold cyclic
  rw [List.range_succ, List.filterMap_append]
  congr 1
  exact List.filterMap_cons_some hlast

theorem length_cyclic (hw : w ≠ []) (start n : Nat) : (cyclic w start n).length = n := by
  induction n with
  | zero => rfl
  | succ n ih =>
      obtain ⟨x, -, hsucc⟩ := cyclic_succ hw start n
      rw [hsucc, List.length_append, ih]
      rfl

theorem getElem?_cyclic (hw : w ≠ []) {i : Nat} (hi : i < n) :
    (cyclic w start n)[i]? = w[(start + i) % w.length]? := by
  induction n with
  | zero => omega
  | succ n ih =>
      obtain ⟨x, hx, hsucc⟩ := cyclic_succ hw start n
      have hlength := length_cyclic hw start n
      rw [hsucc]
      by_cases hin : i < n
      · rw [List.getElem?_append_left (by omega), ih hin]
      · have hlast : i = n := by omega
        rw [List.getElem?_append_right (by omega), hlast, hlength, Nat.sub_self, hx]
        rfl

theorem mem_of_mem_cyclic {x : α} (h : x ∈ cyclic w start n) : x ∈ w := by
  obtain ⟨i, -, hi⟩ := List.mem_filterMap.mp h
  exact List.mem_of_getElem? hi

theorem map_cyclic {β : Type} (f : α → β) (w : List α) (start n : Nat) :
    (cyclic w start n).map f = cyclic (w.map f) start n := by
  unfold cyclic
  rw [List.map_filterMap, List.length_map]
  apply List.filterMap_congr
  intro i _
  rw [List.getElem?_map]

theorem nodup_cyclic (hw : w.Nodup) (hn : n ≤ w.length) : (cyclic w start n).Nodup := by
  induction n with
  | zero => exact List.nodup_nil
  | succ n ih =>
      have hne : w ≠ [] := by
        rw [← List.length_pos_iff]
        omega
      obtain ⟨x, hx, hsucc⟩ := cyclic_succ hne start n
      rw [hsucc, List.nodup_append]
      refine ⟨ih (by omega), List.nodup_singleton x, ?_⟩
      intro y hy z hz hyz
      rw [hyz, List.mem_singleton.mp hz] at hy
      obtain ⟨i, hi, hat⟩ := List.mem_filterMap.mp hy
      have hlt := List.mem_range.mp hi
      have hin := Nat.mod_lt (start + i) (List.length_pos_iff.mpr hne)
      have hplace := (List.getElem?_inj hin hw).mp (hat.trans hx.symm)
      have hsame : i % w.length = n % w.length := Nat.ModEq.add_left_cancel' start hplace
      rw [Nat.mod_eq_of_lt (by omega), Nat.mod_eq_of_lt (by omega)] at hsame
      omega

/-! ## A copy that overlaps what it writes -/

/-- What a copy from `start` finds after `k` elements, some of them its own. -/
theorem getElem?_append_cyclic {out : List α} (hstart : start < out.length) (k : Nat) :
    (out ++ cyclic (out.drop start) 0 k)[start + k]? =
      (out.drop start)[k % (out.drop start).length]? := by
  have hlength : (out.drop start).length = out.length - start := List.length_drop
  have hw : out.drop start ≠ [] := by
    rw [← List.length_pos_iff]
    omega
  by_cases hin : start + k < out.length
  · rw [List.getElem?_append_left hin, Nat.mod_eq_of_lt (by omega), List.getElem?_drop]
  · have hback : start + k - out.length = k - (out.drop start).length := by omega
    have hturn := Nat.mod_eq_sub_mod (show (out.drop start).length ≤ k by omega)
    rw [List.getElem?_append_right (by omega), hback, getElem?_cyclic hw (by omega), Nat.zero_add,
      hturn]

end RustyAnt.Lib
