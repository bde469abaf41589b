import Mathlib.Algebra.Ring.Parity
import Mathlib.Data.Nat.Bitwise
import Mathlib.Tactic.Ring

/-!
# Bits moved apart and together

A word in which every second block of `B` bits is empty and the others hold, in turn, the bits
of `b`.  A shift by `B`, joined with the word and masked, halves the blocks or doubles them.
-/

namespace RustyAnt.Lib.Interleave

variable {w B p q r : Nat} {b : Nat → Bool} {x m : BitVec w}

/-- The bits of `b` in blocks of `B`, with a gap of the same size behind each. -/
def Spaced (B : Nat) (b : Nat → Bool) (x : BitVec w) : Prop :=
  ∀ p < w, x.getLsbD p = (decide (p % (2 * B) < B) && b (p / (2 * B) * B + p % (2 * B)))

/-- The mask that keeps the blocks. -/
def Mask (B : Nat) (m : BitVec w) : Prop := ∀ p < w, m.getLsbD p = decide (p % (2 * B) < B)

instance (B : Nat) (m : BitVec w) : Decidable (Mask B m) :=
  inferInstanceAs (Decidable (∀ p < w, _))

theorem Spaced.block (hx : Spaced B b x) (hlt : p < w) (hr : r < B) (hp : p = 2 * B * q + r) :
    x.getLsbD p = b (q * B + r) := by
  have hmod : p % (2 * B) = r := by
    rw [hp, Nat.mul_add_mod]
    exact Nat.mod_eq_of_lt (by omega)
  have hdiv : p / (2 * B) = q := by
    rw [hp, Nat.mul_add_div (by omega), Nat.div_eq_of_lt (by omega), Nat.add_zero]
  rw [hx p hlt, hmod, hdiv, decide_eq_true hr, Bool.true_and]

theorem Spaced.gap (hx : Spaced B b x) (hr : r < B) (hp : p = 2 * B * q + (B + r)) :
    x.getLsbD p = false := by
  by_cases hlt : p < w
  · have hmod : p % (2 * B) = B + r := by
      rw [hp, Nat.mul_add_mod]
      exact Nat.mod_eq_of_lt (by omega)
    have hout : ¬ B + r < B := by omega
    rw [hx p hlt, hmod, decide_eq_false hout, Bool.false_and]
  · exact BitVec.getLsbD_of_ge _ _ (Nat.le_of_not_lt hlt)

/-- A word that has the right bits in its blocks and is masked. -/
theorem spaced_and (hm : Mask B m)
    (h : ∀ q r, r < B → 2 * B * q + r < w → x.getLsbD (2 * B * q + r) = b (q * B + r)) :
    Spaced B b (x &&& m) := by
  intro p hp
  rw [BitVec.getLsbD_and, hm p hp]
  by_cases hin : p % (2 * B) < B
  · have hsplit : 2 * B * (p / (2 * B)) + p % (2 * B) = p := Nat.div_add_mod p (2 * B)
    have hbit := h (p / (2 * B)) (p % (2 * B)) hin (by omega)
    rw [hsplit] at hbit
    rw [hbit, Bool.and_comm]
  · rw [decide_eq_false hin, Bool.and_false, Bool.false_and]

/-- Blocks of twice the size are cut in the middle, and the upper halves moved up. -/
theorem Spaced.spread (hx : Spaced (2 * B) b x) (hm : Mask B m) :
    Spaced B b ((x ||| x <<< B) &&& m) := by
  refine spaced_and hm fun q r hr hlt => ?_
  rw [BitVec.getLsbD_or, BitVec.getLsbD_shiftLeft]
  obtain ⟨k, rfl | rfl⟩ := Nat.even_or_odd' q
  · -- a lower half stays; what is moved onto it comes from a gap
    have hstays : x.getLsbD (2 * B * (2 * k) + r) = b (k * (2 * B) + r) :=
      hx.block hlt (by omega) (by ring)
    have hmoved : (decide (2 * B * (2 * k) + r < w) && !decide (2 * B * (2 * k) + r < B) &&
        x.getLsbD (2 * B * (2 * k) + r - B)) = false := by
      cases k with
      | zero =>
          have hbelow : 2 * B * (2 * 0) + r < B := by omega
          rw [decide_eq_true hbelow, Bool.not_true, Bool.and_false, Bool.false_and]
      | succ k =>
          have hplace : 2 * B * (2 * (k + 1)) + r = 2 * (2 * B) * k + (2 * B + (B + r)) + B := by
            ring
          rw [hplace, Nat.add_sub_cancel, @Spaced.gap w (2 * B) _ k (B + r) b x hx (by omega) rfl,
            Bool.and_false]
    have hindex : k * (2 * B) = 2 * k * B := by ring
    rw [hstays, hmoved, Bool.or_false, hindex]
  · -- an upper half has been moved up into a gap
    have hplace : 2 * B * (2 * k + 1) + r = 2 * (2 * B) * k + (B + r) + B := by ring
    have hempty : x.getLsbD (2 * B * (2 * k + 1) + r) = false :=
      @Spaced.gap w (2 * B) _ k r b x hx (by omega) (by ring)
    have hmoved : x.getLsbD (2 * (2 * B) * k + (B + r)) = b (k * (2 * B) + (B + r)) :=
      hx.block (by omega) (by omega) rfl
    have hindex : k * (2 * B) + (B + r) = (2 * k + 1) * B + r := by ring
    rw [hempty, decide_eq_true hlt, hplace, decide_eq_false (by omega), Nat.add_sub_cancel, hmoved,
      hindex, Bool.false_or]
    rfl

/-- Two blocks become one; a word of whole pairs of blocks loses none. -/
theorem Spaced.gather (hx : Spaced B b x) (hm : Mask (2 * B) m) (hw : 4 * B ∣ w) :
    Spaced (2 * B) b ((x ||| x >>> B) &&& m) := by
  refine spaced_and hm fun q r hr hlt => ?_
  rw [BitVec.getLsbD_or, BitVec.getLsbD_ushiftRight]
  by_cases hlow : r < B
  · have hstays : x.getLsbD (2 * (2 * B) * q + r) = b (2 * q * B + r) :=
      hx.block hlt hlow (by ring)
    have hmoved : x.getLsbD (B + (2 * (2 * B) * q + r)) = false :=
      @Spaced.gap w B _ (2 * q) r b x hx hlow (by ring)
    have hindex : 2 * q * B = q * (2 * B) := by ring
    rw [hstays, hmoved, Bool.or_false, hindex]
  · obtain ⟨s, rfl⟩ : ∃ s, r = B + s := ⟨r - B, by omega⟩
    have hs : s < B := by omega
    have hinside : B + (2 * (2 * B) * q + (B + s)) < w := by
      obtain ⟨n, rfl⟩ := hw
      have hpair : q < n := by
        by_contra hge
        have hle := Nat.mul_le_mul_left (4 * B) (Nat.le_of_not_lt hge)
        have hassoc : 2 * (2 * B) * q = 4 * B * q := by ring
        omega
      have hle := Nat.mul_le_mul_left (4 * B) (show q + 1 ≤ n from hpair)
      have hnext : 4 * B * (q + 1) = 2 * (2 * B) * q + 4 * B := by ring
      omega
    have hempty : x.getLsbD (2 * (2 * B) * q + (B + s)) = false :=
      @Spaced.gap w B _ (2 * q) s b x hx hs (by ring)
    have hmoved : x.getLsbD (B + (2 * (2 * B) * q + (B + s))) = b ((2 * q + 1) * B + s) :=
      hx.block hinside hs (by ring)
    have hindex : (2 * q + 1) * B + s = q * (2 * B) + (B + s) := by ring
    rw [hempty, hmoved, Bool.false_or, hindex]

/-- Numbers are compared at the highest bit where they differ. -/
theorem exists_top_bit {n m : Nat} (h : n < m) : ∃ i, n.testBit i = false ∧ m.testBit i = true ∧
    ∀ j, i < j → n.testBit j = m.testBit j := by
  have hne : n ^^^ m ≠ 0 := by
    rw [Ne, Nat.xor_eq_zero_iff]
    omega
  obtain ⟨i, htop, habove⟩ := Nat.exists_most_significant_bit hne
  have hsame : ∀ j, i < j → n.testBit j = m.testBit j := by
    intro j hj
    have hj := habove j hj
    rw [Nat.testBit_xor] at hj
    exact bne_eq_false_iff_eq.mp hj
  rw [Nat.testBit_xor] at htop
  cases hn : n.testBit i with
  | false =>
      rw [hn, Bool.false_xor] at htop
      exact ⟨i, hn, htop, hsame⟩
  | true =>
      rw [hn, Bool.true_xor, Bool.not_eq_true'] at htop
      have hgt := Nat.lt_of_testBit i htop hn fun j hj => (hsame j hj).symm
      omega

end RustyAnt.Lib.Interleave
