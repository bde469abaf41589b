import Mathlib.Data.Fintype.EquivFin
import Mathlib.Tactic.Common

/-!
# Xorshift steps

Adding a shifted copy of a word to the word loses nothing: the bits that the shift leaves in
place determine the others one by one.  A word has finitely many values, so the step reaches
each of them.
-/

namespace RustyAnt.Lib

variable {w k : Nat}

/-- The bits of a word that equals its own shift are zero, from the lowest up. -/
theorem eq_zero_of_eq_shiftLeft {x : BitVec w} (hk : 0 < k) (h : x = x <<< k) : x = 0#w := by
  have hbits : ∀ i, x.getLsbD i = false := by
    intro i
    induction i using Nat.strongRecOn with
    | ind i ih =>
      rw [h, BitVec.getLsbD_shiftLeft]
      by_cases hi : i < k
      · simp [hi]
      · rw [ih (i - k) (by omega), Bool.and_false]
  apply BitVec.eq_of_getLsbD_eq
  intro i _
  rw [hbits i, BitVec.getLsbD_zero]

theorem eq_zero_of_eq_ushiftRight {x : BitVec w} (hk : 0 < k) (h : x = x >>> k) : x = 0#w := by
  have hbits : ∀ n i, w ≤ i + n → x.getLsbD i = false := by
    intro n
    induction n with
    | zero => exact fun i hi => BitVec.getLsbD_of_ge x i hi
    | succ n ih =>
        intro i hi
        rw [h, BitVec.getLsbD_ushiftRight]
        exact ih (k + i) (by omega)
  apply BitVec.eq_of_getLsbD_eq
  intro i _
  rw [hbits w i (by omega), BitVec.getLsbD_zero]

/-- An additive map without a fixed point but zero can be undone after it is added. -/
theorem xor_injective {f : BitVec w → BitVec w} (hadd : ∀ x y, f (x ^^^ y) = f x ^^^ f y)
    (hfix : ∀ x, x = f x → x = 0#w) : Function.Injective fun x => x ^^^ f x := by
  intro x y h
  have hzero : (x ^^^ f x) ^^^ (y ^^^ f y) = 0#w := BitVec.xor_eq_zero_iff.mpr h
  have hsum : (x ^^^ y) ^^^ f (x ^^^ y) = 0#w := by
    rw [hadd, ← hzero]
    ac_rfl
  exact BitVec.xor_eq_zero_iff.mp (hfix _ (BitVec.xor_eq_zero_iff.mp hsum))

theorem xor_shiftLeft_injective (hk : 0 < k) :
    Function.Injective fun x : BitVec w => x ^^^ (x <<< k) :=
  xor_injective (fun x y => BitVec.shiftLeft_xor_distrib x y k) fun _ => eq_zero_of_eq_shiftLeft hk

theorem xor_ushiftRight_injective (hk : 0 < k) :
    Function.Injective fun x : BitVec w => x ^^^ (x >>> k) :=
  xor_injective (fun x y => BitVec.ushiftRight_xor_distrib x y k) fun _ =>
    eq_zero_of_eq_ushiftRight hk

end RustyAnt.Lib
