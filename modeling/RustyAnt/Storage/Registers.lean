import RustyAnt.Lib.Packed
import RustyAnt.Storage.Hll

/-!
# Registers

The six-bit registers of a HyperLogLog: each is a field of its own, and together they are all the
bits behind the header.
-/

namespace RustyAnt.Hll

open Lib Lib.Packed

/-- A register's place in bytes: the first one and the bits before the register there. -/
theorem place (i : Nat) : 8 * (i * 6 / 8) + i * 6 % 8 = 6 * i ∧ i * 6 % 8 ≤ 6 := by omega

theorem testBit_readRegister (regs : Bytes) (i j : Nat) :
    (readRegister regs i).toNat.testBit j = (decide (j < 6) && bitAt regs (6 * i + j)) := by
  obtain ⟨hplace, hshift⟩ := place i
  have hsmall : window regs (i * 6 / 8) / 2 ^ (i * 6 % 8) % 64 < 256 := by omega
  show (UInt8.ofNat (window regs (i * 6 / 8) / 2 ^ (i * 6 % 8) % 64)).toNat.testBit j = _
  rw [UInt8.toNat_ofNat', Nat.mod_eq_of_lt hsmall, show (64 : Nat) = 2 ^ 6 from rfl,
    Nat.testBit_mod_two_pow, Nat.testBit_div_two_pow]
  by_cases hj : j < 6
  · rw [Nat.add_comm j, testBit_window _ _ (by omega), ← Nat.add_assoc, hplace]
  · simp [hj]

theorem readRegister_lt (regs : Bytes) (i : Nat) : (readRegister regs i).toNat < 64 := by
  unfold readRegister
  dsimp only
  rw [UInt8.toNat_ofNat']
  omega

/-- The two bytes with the register replaced. -/
def spliced (c : UInt32) (shift : Nat) (v : UInt8) : UInt32 :=
  (c &&& ~~~(0x3f <<< UInt32.ofNat shift)) ||| (v &&& 0x3f).toUInt32 <<< UInt32.ofNat shift

theorem writeRegister_eq (regs : Bytes) (i : Nat) (v : UInt8) :
    writeRegister regs i v = setWindow regs (i * 6 / 8)
      (spliced ((regs.getD (i * 6 / 8) 0).toUInt32 |||
        (regs.getD (i * 6 / 8 + 1) 0).toUInt32 <<< 8) (i * 6 % 8) v).toUInt8
      (spliced ((regs.getD (i * 6 / 8) 0).toUInt32 |||
        (regs.getD (i * 6 / 8 + 1) 0).toUInt32 <<< 8) (i * 6 % 8) v >>> 8).toUInt8 := by
  unfold writeRegister setWindow
  dsimp only
  rw [List.length_set]
  rfl

/-- A shift that leaves all sixteen bits of interest in the word. -/
theorem testBit_shifted (x : UInt32) {shift : Nat} (hshift : shift < 32) {k : Nat} (hk : k < 16) :
    (x <<< UInt32.ofNat shift).toNat.testBit k =
      (decide (shift ≤ k) && x.toNat.testBit (k - shift)) := by
  have hword : (UInt32.ofNat shift).toNat % 32 = shift := by
    rw [UInt32.toNat_ofNat']
    omega
  rw [UInt32.toNat_shiftLeft, hword, Nat.testBit_mod_two_pow, Nat.testBit_shiftLeft]
  simp [show k < 32 by omega]

theorem testBit_spliced (c : UInt32) {shift : Nat} (hshift : shift < 32) (v : UInt8) {k : Nat}
    (hk : k < 16) : (spliced c shift v).toNat.testBit k =
      if shift ≤ k ∧ k < shift + 6 then v.toNat.testBit (k - shift) else c.toNat.testBit k := by
  have hmask : (63 : UInt32).toNat.testBit (k - shift) = decide (k - shift < 6) :=
    Nat.testBit_two_pow_sub_one 6 _
  have hvalue : (v &&& 63).toUInt32.toNat.testBit (k - shift) =
      (v.toNat.testBit (k - shift) && decide (k - shift < 6)) := by
    rw [UInt8.toNat_toUInt32, UInt8.toNat_and, Nat.testBit_and]
    exact congrArg _ (Nat.testBit_two_pow_sub_one 6 _)
  have hnot : ∀ x : UInt32, (~~~x).toNat.testBit k = !x.toNat.testBit k := by
    intro x
    have hx := x.toNat_lt
    have hflip : UInt32.size - 1 - x.toNat = 2 ^ 32 - (x.toNat + 1) := by
      show 2 ^ 32 - 1 - _ = _
      omega
    rw [UInt32.toNat_not, hflip, Nat.testBit_two_pow_sub_succ hx]
    simp [show k < 32 by omega]
  unfold spliced
  rw [UInt32.toNat_or, Nat.testBit_or, UInt32.toNat_and, Nat.testBit_and, hnot,
    testBit_shifted _ hshift hk, testBit_shifted _ hshift hk, hmask, hvalue]
  by_cases hin : shift ≤ k ∧ k < shift + 6
  · rw [if_pos hin]
    simp [hin.1, show k - shift < 6 by omega]
  · rw [if_neg hin]
    by_cases hle : shift ≤ k
    · simp [show ¬ k - shift < 6 by omega]
    · simp [hle]

theorem testBit_joined (regs : Bytes) (b : Nat) {k : Nat} (hk : k < 16) :
    ((regs.getD b 0).toUInt32 ||| (regs.getD (b + 1) 0).toUInt32 <<< 8).toNat.testBit k =
      bitAt regs (8 * b + k) := by
  have hlow := (regs.getD b 0).toNat_lt
  have hhigh : ((regs.getD (b + 1) 0).toUInt32 <<< 8).toNat.testBit k =
      (decide (8 ≤ k) && (regs.getD (b + 1) 0).toNat.testBit (k - 8)) :=
    testBit_shifted (regs.getD (b + 1) 0).toUInt32 (show 8 < 32 by decide) hk
  rw [← testBit_window regs b hk, window, Nat.add_comm (regs.getD b 0).toNat,
    show (256 : Nat) = 2 ^ 8 from rfl, Nat.testBit_two_pow_mul_add _ hlow, UInt32.toNat_or,
    Nat.testBit_or, hhigh, UInt8.toNat_toUInt32]
  by_cases hk8 : k < 8
  · rw [if_pos hk8]
    simp [show ¬ 8 ≤ k by omega]
  · have hpast : 8 ≤ k := by omega
    rw [if_neg hk8, testBit_byte_of_le _ hpast]
    simp [hpast]

theorem bitAt_writeRegister {regs : Bytes} {i : Nat} (hi : 6 * i + 6 ≤ 8 * regs.length) (v : UInt8)
    {m : Nat} (hm : m < 8 * regs.length) :
    bitAt (writeRegister regs i v) m =
      if 6 * i ≤ m ∧ m < 6 * i + 6 then v.toNat.testBit (m - 6 * i) else bitAt regs m := by
  obtain ⟨hplace, hshift⟩ := place i
  rw [writeRegister_eq, bitAt_setWindow (by omega) hm]
  generalize hword : spliced _ (i * 6 % 8) v = word
  have hbit : ∀ k < 16, word.toNat.testBit k =
      if 6 * i ≤ 8 * (i * 6 / 8) + k ∧ 8 * (i * 6 / 8) + k < 6 * i + 6 then
        v.toNat.testBit (8 * (i * 6 / 8) + k - 6 * i)
      else bitAt regs (8 * (i * 6 / 8) + k) := by
    intro k hk
    rw [← hword, testBit_spliced _ (by omega) v hk, testBit_joined _ _ hk]
    by_cases hin : i * 6 % 8 ≤ k ∧ k < i * 6 % 8 + 6
    · have hsame : k - i * 6 % 8 = 8 * (i * 6 / 8) + k - 6 * i := by omega
      rw [if_pos hin, if_pos (by omega), hsame]
    · rw [if_neg hin, if_neg (by omega)]
  by_cases hfirst : m / 8 = i * 6 / 8
  · have hm' : 8 * (i * 6 / 8) + m % 8 = m := by omega
    have hlow : word.toUInt8.toNat.testBit (m % 8) = word.toNat.testBit (m % 8) := by
      rw [UInt32.toNat_toUInt8, Nat.testBit_mod_two_pow]
      simp [show m % 8 < 8 by omega]
    rw [if_pos hfirst, hlow, hbit _ (by omega), hm']
  · by_cases hnext : m / 8 = i * 6 / 8 + 1
    · have hm' : 8 * (i * 6 / 8) + (8 + m % 8) = m := by omega
      have hhigh : (word >>> 8).toUInt8.toNat.testBit (m % 8) = word.toNat.testBit (8 + m % 8) := by
        rw [UInt32.toNat_toUInt8, Nat.testBit_mod_two_pow, UInt32.toNat_shiftRight]
        simp [show m % 8 < 8 by omega]
      rw [if_neg hfirst, if_pos hnext, hhigh, hbit _ (by omega), hm']
    · rw [if_neg hfirst, if_neg hnext, if_neg (by omega)]

@[simp] theorem length_writeRegister (regs : Bytes) (i : Nat) (v : UInt8) :
    (writeRegister regs i v).length = regs.length := by
  rw [writeRegister_eq, length_setWindow]

theorem readRegister_writeRegister {regs : Bytes} {i j : Nat} (hi : 6 * i + 6 ≤ 8 * regs.length)
    (hj : 6 * j + 6 ≤ 8 * regs.length) (v : UInt8) :
    (readRegister (writeRegister regs i v) j).toNat =
      if j = i then v.toNat % 64 else (readRegister regs j).toNat := by
  apply Nat.eq_of_testBit_eq
  intro k
  rw [testBit_readRegister]
  by_cases hk : k < 6
  · rw [bitAt_writeRegister hi v (by omega)]
    by_cases hij : j = i
    · subst hij
      have hbit : 6 * j + k - 6 * j = k := by omega
      rw [if_pos rfl, if_pos (by omega), hbit, show (64 : Nat) = 2 ^ 6 from rfl,
        Nat.testBit_mod_two_pow]
    · rw [if_neg hij, if_neg (by omega), testBit_readRegister]
  · by_cases hij : j = i
    · rw [if_pos hij, show (64 : Nat) = 2 ^ 6 from rfl, Nat.testBit_mod_two_pow]
      simp [hk]
    · rw [if_neg hij, testBit_readRegister]
      simp [hk]

theorem ext_registers {regs regs' : Bytes} {n : Nat} (h : 6 * n = 8 * regs.length)
    (hlength : regs.length = regs'.length)
    (hregs : ∀ i < n, (readRegister regs i).toNat = (readRegister regs' i).toNat) :
    regs = regs' := by
  apply ext_bitAt hlength
  intro m hm
  have hbit := congrArg (·.testBit (m % 6)) (hregs (m / 6) (by omega))
  have hm' : 6 * (m / 6) + m % 6 = m := by omega
  simpa only [testBit_readRegister, hm', show m % 6 < 6 by omega, decide_true,
    Bool.true_and] using hbit

end RustyAnt.Hll
