import Mathlib.Data.List.Basic
import Mathlib.Data.Nat.Bitwise

/-!
# Byte strings as packed fields

The bits of a byte string, the least significant bit of a byte first.  A field is a run of bits
and may lie across two bytes.
-/

namespace RustyAnt.Lib.Packed

variable {d d' : List UInt8} {k m : Nat}

/-- Bit `m`. -/
def bitAt (d : List UInt8) (m : Nat) : Bool := (d.getD (m / 8) 0).toNat.testBit (m % 8)

theorem bitAt_set (h : k < d.length) (b : UInt8) (m : Nat) :
    bitAt (d.set k b) m = if m / 8 = k then b.toNat.testBit (m % 8) else bitAt d m := by
  unfold bitAt
  rw [List.getD_eq_getElem?_getD, List.getElem?_set]
  by_cases hk : m / 8 = k
  · rw [if_pos hk, if_pos hk.symm, if_pos h]
    rfl
  · rw [if_neg hk, if_neg (Ne.symm hk), List.getD_eq_getElem?_getD]

theorem bitAt_zeros (n m : Nat) : bitAt (List.replicate n 0) m = false := by
  have hzero : (List.replicate n (0 : UInt8)).getD (m / 8) 0 = 0 := by
    rw [List.getD_eq_getElem?_getD, List.getElem?_replicate]
    split <;> rfl
  unfold bitAt
  rw [hzero]
  exact Nat.zero_testBit _

theorem testBit_byte_of_le (b : UInt8) {j : Nat} (hj : 8 ≤ j) : b.toNat.testBit j = false := by
  apply Nat.testBit_lt_two_pow
  have hpow : 2 ^ 8 ≤ 2 ^ j := Nat.pow_le_pow_right (by decide) hj
  have hb := b.toNat_lt
  omega

theorem ext_bitAt (hlength : d.length = d'.length)
    (h : ∀ m < 8 * d.length, bitAt d m = bitAt d' m) : d = d' := by
  apply List.ext_getElem hlength
  intro i hi hi'
  apply UInt8.toNat_inj.mp
  apply Nat.eq_of_testBit_eq
  intro j
  by_cases hj : j < 8
  · have hbit := h (8 * i + j) (by omega)
    have hbyte : (8 * i + j) / 8 = i := by omega
    have hplace : (8 * i + j) % 8 = j := by omega
    unfold bitAt at hbit
    rwa [hbyte, hplace, List.getD_eq_getElem _ _ hi, List.getD_eq_getElem _ _ hi'] at hbit
  · have hhigh : 8 ≤ j := by omega
    rw [testBit_byte_of_le _ hhigh, testBit_byte_of_le _ hhigh]

/-! ## Two bytes at a time -/

/-- Byte `k` and the byte behind it, if any. -/
def window (d : List UInt8) (k : Nat) : Nat :=
  (d.getD k 0).toNat + 256 * (d.getD (k + 1) 0).toNat

theorem testBit_window (d : List UInt8) (k : Nat) {j : Nat} (hj : j < 16) :
    (window d k).testBit j = bitAt d (8 * k + j) := by
  have hlow := (d.getD k 0).toNat_lt
  unfold window bitAt
  rw [Nat.add_comm, show (256 : Nat) = 2 ^ 8 from rfl, Nat.testBit_two_pow_mul_add _ hlow]
  by_cases hin : j < 8
  · have hbyte : (8 * k + j) / 8 = k := by omega
    have hplace : (8 * k + j) % 8 = j := by omega
    rw [if_pos hin, hbyte, hplace]
  · have hbyte : (8 * k + j) / 8 = k + 1 := by omega
    have hplace : (8 * k + j) % 8 = j - 8 := by omega
    rw [if_neg hin, hbyte, hplace]

/-- Byte `k` and the byte behind it, if any, replaced. -/
def setWindow (d : List UInt8) (k : Nat) (low high : UInt8) : List UInt8 :=
  if k + 1 < d.length then (d.set k low).set (k + 1) high else d.set k low

@[simp] theorem length_setWindow (d : List UInt8) (k : Nat) (low high : UInt8) :
    (setWindow d k low high).length = d.length := by
  unfold setWindow
  split
  · rw [List.length_set, List.length_set]
  · rw [List.length_set]

theorem bitAt_setWindow {low high : UInt8} (hk : k < d.length) (hm : m < 8 * d.length) :
    bitAt (setWindow d k low high) m =
      if m / 8 = k then low.toNat.testBit (m % 8)
      else if m / 8 = k + 1 then high.toNat.testBit (m % 8) else bitAt d m := by
  unfold setWindow
  by_cases hnext : k + 1 < d.length
  · rw [if_pos hnext, bitAt_set (by rwa [List.length_set]), bitAt_set hk]
    by_cases hfirst : m / 8 = k
    · rw [if_pos hfirst, if_pos hfirst, if_neg (by omega)]
    · rw [if_neg hfirst, if_neg hfirst]
  · rw [if_neg hnext, bitAt_set hk]
    by_cases hfirst : m / 8 = k
    · rw [if_pos hfirst, if_pos hfirst]
    · rw [if_neg hfirst, if_neg hfirst, if_neg (by omega)]

end RustyAnt.Lib.Packed
