import Mathlib.Data.List.Basic
import Mathlib.Data.Nat.Bitwise

/-!
# Byte strings as bit arrays

The bits of a byte string, the most significant bit of a byte first, with zeros past its end.
-/

namespace RustyAnt.Lib.BitArray

/-- Bit `i`. -/
def bit (d : List UInt8) (i : Nat) : Bool := (d.getD (i / 8) 0).toNat.testBit (7 - i % 8)

variable {d d' : List UInt8} {i : Nat}

theorem bit_of_le (h : 8 * d.length ≤ i) : bit d i = false := by
  unfold bit
  rw [List.getD_eq_default _ _ (by omega)]
  exact Nat.zero_testBit _

@[simp] theorem bit_nil (i : Nat) : bit [] i = false := bit_of_le (Nat.zero_le i)

theorem bit_cons_of_lt {b : UInt8} (h : i < 8) : bit (b :: d) i = b.toNat.testBit (7 - i) := by
  unfold bit
  rw [Nat.div_eq_of_lt h, Nat.mod_eq_of_lt h, List.getD_cons_zero]

theorem bit_cons_add {b : UInt8} (i : Nat) : bit (b :: d) (8 + i) = bit d i := by
  have hbyte : (8 + i) / 8 = i / 8 + 1 := by omega
  have hplace : (8 + i) % 8 = i % 8 := by omega
  unfold bit
  rw [hbyte, hplace, List.getD_cons_succ]

theorem bit_append_zeros (d : List UInt8) (n i : Nat) :
    bit (d ++ List.replicate n 0) i = bit d i := by
  unfold bit
  congr 2
  simp only [List.getD_eq_getElem?_getD, List.getElem?_append, List.getElem?_replicate]
  split
  · rfl
  · rw [List.getElem?_eq_none (by omega)]
    split <;> rfl

theorem bit_set {k : Nat} (h : k < d.length) (b : UInt8) (i : Nat) :
    bit (d.set k b) i = if i / 8 = k then b.toNat.testBit (7 - i % 8) else bit d i := by
  unfold bit
  rw [List.getD_eq_getElem?_getD, List.getElem?_set]
  by_cases hk : i / 8 = k
  · rw [if_pos hk, if_pos hk.symm, if_pos h]
    rfl
  · rw [if_neg hk, if_neg (Ne.symm hk), List.getD_eq_getElem?_getD]

theorem bit_slice (d : List UInt8) (s n : Nat) (h : i < 8 * n) :
    bit ((d.drop s).take n) i = bit d (8 * s + i) := by
  have hbyte : (8 * s + i) / 8 = s + i / 8 := by omega
  have hplace : (8 * s + i) % 8 = i % 8 := by omega
  unfold bit
  rw [hbyte, hplace, List.getD_eq_getElem?_getD, List.getD_eq_getElem?_getD,
    List.getElem?_take_of_lt (by omega), List.getElem?_drop]

/-! ## Byte by byte -/

theorem bit_map_not (h : i < 8 * d.length) : bit (d.map fun b => ~~~b) i = !bit d i := by
  have hlt : i / 8 < d.length := by omega
  unfold bit
  rw [List.getD_eq_getElem _ _ (by rwa [List.length_map]), List.getD_eq_getElem _ _ hlt,
    List.getElem_map, UInt8.toNat_not]
  have hbyte := d[i / 8].toNat_lt
  have hflip : UInt8.size - 1 - d[i / 8].toNat = 2 ^ 8 - (d[i / 8].toNat + 1) := by
    show 256 - 1 - _ = _
    omega
  rw [hflip, Nat.testBit_two_pow_sub_succ hbyte]
  simp only [Bool.and_eq_right_iff_imp, decide_eq_true_eq]
  omega

theorem bit_zipWith {op : UInt8 → UInt8 → UInt8} {f : Bool → Bool → Bool}
    (hop : ∀ a b j, (op a b).toNat.testBit j = f (a.toNat.testBit j) (b.toNat.testBit j))
    (hlength : d.length = d'.length) (h : i < 8 * d.length) :
    bit (d.zipWith op d') i = f (bit d i) (bit d' i) := by
  have hlt : i / 8 < d.length := by omega
  have hlt' : i / 8 < d'.length := by omega
  unfold bit
  rw [List.getD_eq_getElem _ _ (by rw [List.length_zipWith]; omega), List.getD_eq_getElem _ _ hlt,
    List.getD_eq_getElem _ _ hlt', List.getElem_zipWith, hop]

/-! ## Counting -/

theorem countP_byte (b : UInt8) :
    (List.range 8).countP (fun i => b.toNat.testBit (7 - i)) =
      (List.range 8).countP fun i => b.toNat.testBit i := by
  simp only [List.range, List.range.loop, List.countP_cons, List.countP_nil, Nat.reduceSub]
  omega

theorem sum_ones (d : List UInt8) :
    (d.map fun b => (List.range 8).countP fun i => b.toNat.testBit i).sum =
      (List.range (8 * d.length)).countP (bit d) := by
  induction d with
  | nil => rfl
  | cons b d ih =>
      have hsplit : 8 * (b :: d).length = 8 + 8 * d.length := by
        rw [List.length_cons]
        omega
      have hfirst : (List.range 8).countP (bit (b :: d)) =
          (List.range 8).countP fun i => b.toNat.testBit (7 - i) := by
        apply List.countP_congr
        intro i hi
        rw [bit_cons_of_lt (List.mem_range.mp hi)]
      have hrest : ((List.range (8 * d.length)).map (8 + ·)).countP (bit (b :: d)) =
          (List.range (8 * d.length)).countP (bit d) := by
        rw [List.countP_map]
        congr 1
        funext i
        exact bit_cons_add i
      rw [List.map_cons, List.sum_cons, ih, hsplit, List.range_add, List.countP_append, hfirst,
        hrest, countP_byte]

theorem countP_range_window {p : Nat → Bool} {first n len : Nat} (h : first + n ≤ len) :
    (List.range len).countP (fun i => decide (first ≤ i ∧ i < first + n) && p i) =
      (List.range' first n).countP p := by
  obtain ⟨rest, rfl⟩ := Nat.exists_eq_add_of_le h
  have hsplit : List.range (first + n + rest) =
      List.range' 0 first ++ (List.range' first n ++ List.range' (first + n) rest) := by
    rw [List.range_eq_range']
    have hinner := List.range'_append_1 (s := first) (m := n) (n := rest)
    have houter := List.range'_append_1 (s := 0) (m := first) (n := n + rest)
    rw [hinner, Nat.add_assoc, ← houter, Nat.zero_add]
  have hout : ∀ l : List Nat, (∀ i ∈ l, ¬ (first ≤ i ∧ i < first + n)) →
      l.countP (fun i => decide (first ≤ i ∧ i < first + n) && p i) = 0 := by
    intro l hl
    rw [List.countP_eq_zero]
    intro i hi
    simp [hl i hi]
  have hin : (List.range' first n).countP
      (fun i => decide (first ≤ i ∧ i < first + n) && p i) = (List.range' first n).countP p := by
    apply List.countP_congr
    intro i hi
    rw [List.mem_range'_1] at hi
    rw [decide_eq_true hi, Bool.true_and]
  rw [hsplit, List.countP_append, List.countP_append, hin, hout, hout, Nat.zero_add, Nat.add_zero]
  · intro i hi
    rw [List.mem_range'_1] at hi
    omega
  · intro i hi
    rw [List.mem_range'_1] at hi
    omega

end RustyAnt.Lib.BitArray
